import Logix.Billing.Receivables

/-!
# Do the account balances follow the journal?

No posting writes the `balanceCents` of an account.

* `postedOn`: the net debit that the journals post on an account; `BalancesFollow`: every stored
  balance is this sum;
* `Neutral`: the next segment of a request posts nothing on any account; `NeutralStep`: a step of
  such a request;
* `follows_run_iff`: one segment keeps the balances right exactly when it is neutral;
* **`balances_follow_iff`**: so do runs, up to the first step that is not neutral;
* `receivable_not_in_balance`: an invoice leaves the balances behind.
-/

namespace Logix.Billing

open Async BillingRepository

variable {u : UuidSource}

/-- The net debit of the lines of a journal on an account. -/
def JournalTransactionEntity.netOn (j : JournalTransactionEntity) (accountId : String) : ℤ :=
  (j.lines.map fun line =>
    if line.accountId = accountId then line.debitCents - line.creditCents else 0).sum

/-- The net debit of the lines of an entry on an account. -/
def JournalEntry.netOn (a : JournalEntry) (accountId : String) : ℤ :=
  (a.lines.map fun line =>
    if line.accountId = accountId then line.debitCents - line.creditCents else 0).sum

/-- The debits of an entry are its credits. -/
def JournalEntry.Balanced (a : JournalEntry) : Prop :=
  (a.lines.map EntryLine.debitCents).sum = (a.lines.map EntryLine.creditCents).sum

instance (a : JournalEntry) : Decidable a.Balanced := inferInstanceAs (Decidable (_ = _))

/-- What the journals post on an account. -/
def BillingRepository.postedOn (r : BillingRepository u) (accountId : String) : ℤ :=
  (r.journals.map fun j => j.netOn accountId).sum

/-- **The balances follow the journal.** -/
def BalancesFollow (r : BillingRepository u) : Prop :=
  ∀ x ∈ r.accounts.values, x.balanceCents = r.postedOn x.id

instance : DecidablePred (BalancesFollow (u := u)) :=
  fun r => inferInstanceAs (Decidable (∀ x ∈ r.accounts.values, _))

/-- **The next segment posts nothing on any account**: it is not the posting of an invoice or of a
payment, and an entry of a caller is rejected or nets to zero on each account. -/
def Neutral (r : BillingRepository u) : BillingCall → Prop
  | .invoiceAccounts .. | .paymentAccounts .. => False
  | .postJournalEntry a => ¬ a.Balanced ∨ ∀ x ∈ r.accounts.values, a.netOn x.id = 0
  | _ => True

instance (r : BillingRepository u) : DecidablePred (Neutral r)
  | .invoiceAccounts .. | .paymentAccounts .. => .isFalse id
  | .postJournalEntry _ => inferInstanceAs (Decidable (_ ∨ _))
  | .createInvoice _ | .invoiceStored .. | .invoicePosted _ | .processPayment _
  | .paymentInvoiceFound .. | .paymentStored .. | .paymentPosted .. => .isTrue trivial

/-- A step whose segment is neutral. -/
def NeutralStep (c : BillingConfig u) (a : Act BillingCall BillingInput) : Prop :=
  Admitted c a ∧ ∀ k ∈ c.running a, Neutral c.heap k

instance (c : BillingConfig u) (a : Act BillingCall BillingInput) : Decidable (NeutralStep c a) :=
  inferInstanceAs (Decidable (_ ∧ _))

/-! ## Postings -/

variable {r : BillingRepository u}

theorem postedOn_postJournalEntry (r : BillingRepository u) (env : BillingInput) {a : JournalEntry}
    (h : a.Balanced) (accountId : String) :
    (r.postJournalEntry env a).1.postedOn accountId =
      r.postedOn accountId + a.netOn accountId := by
  obtain ⟨-, -, -, ⟨hne, -⟩ | ⟨-, j, hj, -, -, -, hlines⟩⟩ := postJournalEntry_cases r env a
  · exact absurd h hne
  · unfold postedOn
    rw [hj, List.map_append, List.sum_append, List.map_singleton, List.sum_singleton]
    congr 1
    unfold JournalTransactionEntity.netOn JournalEntry.netOn
    rw [hlines, map_format _ (fun line : EntryLine =>
      if line.accountId = accountId then line.debitCents - line.creditCents else 0)
      fun _ _ => rfl]

theorem follows_iff_of_same {r' : BillingRepository u} (hacc : r'.accounts = r.accounts)
    (hj : r'.journals = r.journals) : BalancesFollow r' ↔ BalancesFollow r := by
  unfold BalancesFollow postedOn
  rw [hacc, hj]

theorem follows_post_iff (h : BalancesFollow r) (env : BillingInput) {a : JournalEntry}
    (hb : a.Balanced) : BalancesFollow (r.postJournalEntry env a).1 ↔
      ∀ x ∈ r.accounts.values, a.netOn x.id = 0 := by
  unfold BalancesFollow
  rw [(postJournalEntry_cases r env a).1]
  refine forall₂_congr fun x hx => ?_
  rw [postedOn_postJournalEntry r env hb, h x hx]
  omega

/-- **An entry that debits one account and credits another** moves a stored balance. -/
theorem moves_of_two {r : BillingRepository u} {a : JournalEntry} {d c : ChartOfAccountEntity}
    {x : ℤ} {s t : String} (hd : r.accounts.get d.id = some d) (hdc : d.id ≠ c.id) (hx : 0 < x)
    (ha : a.lines = [⟨d.id, d.name, x, 0, s⟩, ⟨c.id, c.name, 0, x, t⟩]) :
    a.Balanced ∧ ∃ y ∈ r.accounts.values, a.netOn y.id ≠ 0 := by
  refine ⟨by simp [JournalEntry.Balanced, ha], d, JsMap.mem_values_of_get hd, ?_⟩
  have hnet : a.netOn d.id = x := by simp [JournalEntry.netOn, ha, Ne.symm hdc]
  rw [hnet]
  exact ne_of_gt hx

theorem invoiceEntry_moves (h : HasChart r.accounts) (tenantId : String) (dto : CreateInvoiceDTO)
    (invoiceNumber invoiceId : String) :
    ∃ a, invoiceEntry dto invoiceNumber invoiceId (r.listAccounts tenantId) = some a ∧
      a.Balanced ∧ ∃ x ∈ r.accounts.values, a.netOn x.id ≠ 0 := by
  obtain ⟨ar, har, harn, hark⟩ := findAccount_spec h tenantId "1200" (by decide) 0
  obtain ⟨rev, hrev, hrevn, hrevk⟩ := findAccount_spec h tenantId "4010" (by decide) 1
  have hne : ar.id ≠ rev.id := by
    intro hid
    rw [hid, hrevk] at hark
    rw [Option.some.inj hark, harn] at hrevn
    exact absurd hrevn (by decide)
  have hpos : 0 < dto.subtotalCents + dto.taxCents :=
    add_pos_of_pos_of_nonneg dto.subtotalCents_pos dto.taxCents_nonneg
  exact ⟨_, by rw [invoiceEntry, har, hrev]; rfl, moves_of_two hark hne hpos rfl⟩

theorem paymentEntry_moves (h : HasChart r.accounts) (tenantId : String) (dto : ProcessPaymentDTO)
    (invoiceNumber paymentId : String) :
    ∃ a, paymentEntry dto invoiceNumber paymentId (r.listAccounts tenantId) = some a ∧
      a.Balanced ∧ ∃ x ∈ r.accounts.values, a.netOn x.id ≠ 0 := by
  obtain ⟨cash, hcash, hcashn, hcashk⟩ := findAccount_spec h tenantId "1010" (by decide) 0
  obtain ⟨ar, har, harn, hark⟩ := findAccount_spec h tenantId "1200" (by decide) 1
  have hne : cash.id ≠ ar.id := by
    intro hid
    rw [hid, hark] at hcashk
    rw [← Option.some.inj hcashk, harn] at hcashn
    exact absurd hcashn (by decide)
  exact ⟨_, by rw [paymentEntry, hcash, har]; rfl, moves_of_two hcashk hne dto.amountCents_pos rfl⟩

/-! ## Segments -/

/-- The accounts that a suspended request has read are those of the repository. -/
def BillingCall.ListsAccounts (r : BillingRepository u) : BillingCall → Prop
  | .invoiceAccounts _ _ _ accounts | .paymentAccounts _ _ _ accounts =>
    ∃ t, accounts = r.listAccounts t
  | _ => True

theorem follows_postEntry {env : BillingInput} {entry : Option JournalEntry} {next : BillingCall}
    (h : BalancesFollow r) (hentry : ∃ a, entry = some a ∧ a.Balanced ∧
      ∃ x ∈ r.accounts.values, a.netOn x.id ≠ 0) :
    ¬ BalancesFollow (postEntry r env entry next).heap := by
  obtain ⟨a, rfl, hb, x, hx, hne⟩ := hentry
  rw [heap_postEntry, follows_post_iff h env hb]
  exact fun hall => hne (hall x hx)

/-- **One segment** keeps the balances right exactly when it is neutral. -/
theorem follows_run_iff (hchart : HasChart r.accounts) (h : BalancesFollow r) {k : BillingCall}
    (hk : k.ListsAccounts r) (env : BillingInput) :
    BalancesFollow ((billingProgram u).run k env r).heap ↔ Neutral r k := by
  cases k with
  | invoiceAccounts dto invoiceNumber invoiceId accounts =>
    obtain ⟨t, rfl⟩ := hk
    exact iff_of_false (follows_postEntry h (invoiceEntry_moves hchart t dto _ _)) id
  | paymentAccounts dto invoice paymentId accounts =>
    obtain ⟨t, rfl⟩ := hk
    exact iff_of_false (follows_postEntry h (paymentEntry_moves hchart t dto _ _)) id
  | postJournalEntry a =>
    rw [heap_run_postJournalEntry]
    by_cases hb : a.Balanced
    · rw [follows_post_iff h env hb]
      exact ⟨Or.inr, fun hn => hn.resolve_left (not_not.mpr hb)⟩
    · obtain ⟨hacc, -, -, ⟨-, hj, -⟩ | ⟨heq, -⟩⟩ := postJournalEntry_cases r env a
      · exact iff_of_true ((follows_iff_of_same hacc hj).mpr h) (Or.inl hb)
      · exact absurd heq hb
  | paymentInvoiceFound dto invoice =>
    cases invoice <;> exact iff_of_true ((follows_iff_of_same rfl rfl).mpr h) trivial
  | createInvoice dto => exact iff_of_true ((follows_iff_of_same rfl rfl).mpr h) trivial
  | invoiceStored dto n id => exact iff_of_true ((follows_iff_of_same rfl rfl).mpr h) trivial
  | invoicePosted id => exact iff_of_true ((follows_iff_of_same rfl rfl).mpr h) trivial
  | processPayment dto => exact iff_of_true ((follows_iff_of_same rfl rfl).mpr h) trivial
  | paymentStored dto i p => exact iff_of_true ((follows_iff_of_same rfl rfl).mpr h) trivial
  | paymentPosted i p => exact iff_of_true ((follows_iff_of_same rfl rfl).mpr h) trivial

/-! ## Runs -/

theorem BillingCall.ListsAccounts.mono {r' : BillingRepository u} (hacc : r'.accounts = r.accounts)
    {k : BillingCall} (h : k.ListsAccounts r) : k.ListsAccounts r' := by
  have hlist : ∀ t, r'.listAccounts t = r.listAccounts t := fun t => by
    unfold listAccounts
    rw [hacc]
  cases k with
  | invoiceAccounts dto invoiceNumber invoiceId accounts =>
    exact h.imp fun t ht => ht.trans (hlist t).symm
  | paymentAccounts dto invoice paymentId accounts =>
    exact h.imp fun t ht => ht.trans (hlist t).symm
  | _ => trivial

theorem lists_run (r : BillingRepository u) (k : BillingCall) (env : BillingInput) :
    ((billingProgram u).run k env r).heap.accounts = r.accounts ∧
      ∀ k' ∈ ((billingProgram u).run k env r).waiting, k'.ListsAccounts r := by
  have hone : ∀ {next : BillingCall}, next.ListsAccounts r →
      ∀ k' ∈ [next], k'.ListsAccounts r := by
    intro next hnext k' hk'
    rwa [List.mem_singleton.mp hk']
  have hnil : ∀ k' ∈ ([] : List BillingCall), k'.ListsAccounts r :=
    fun _ h => absurd h List.not_mem_nil
  have hpost : ∀ entry {next : BillingCall}, next.ListsAccounts r →
      (postEntry r env entry next).heap.accounts = r.accounts ∧
        ∀ k' ∈ (postEntry r env entry next).waiting, k'.ListsAccounts r := by
    intro entry next hnext
    constructor
    · cases entry with
      | none => rfl
      | some a => rw [heap_postEntry, (postJournalEntry_cases r env a).1]
    · intro k' hk'
      rwa [eq_of_mem_waiting_postEntry hk']
  cases k with
  | invoiceAccounts dto invoiceNumber invoiceId accounts => exact hpost _ trivial
  | paymentAccounts dto invoice paymentId accounts => exact hpost _ trivial
  | postJournalEntry a =>
    rw [heap_run_postJournalEntry, waiting_run_postJournalEntry]
    exact ⟨(postJournalEntry_cases r env a).1, hnil⟩
  | paymentInvoiceFound dto invoice =>
    cases invoice with
    | none => exact ⟨rfl, hnil⟩
    | some invoice => exact ⟨rfl, hone trivial⟩
  | invoiceStored dto n id => exact ⟨rfl, hone ⟨_, rfl⟩⟩
  | paymentStored dto i p => exact ⟨rfl, hone ⟨_, rfl⟩⟩
  | createInvoice dto => exact ⟨rfl, hone trivial⟩
  | processPayment dto => exact ⟨rfl, hone trivial⟩
  | invoicePosted id => exact ⟨rfl, hnil⟩
  | paymentPosted i p => exact ⟨rfl, hnil⟩

theorem reach_lists {ok : BillingConfig u → Act BillingCall BillingInput → Prop}
    (hok : ∀ c a, ok c a → Admitted c a) {tenants : List String} {c : BillingConfig u}
    (h : Reach (billingProgram u) ok (startConfig u tenants) c) :
    c.heap.accounts = (seeded u tenants).accounts ∧
      ∀ k ∈ c.inFlight, k.ListsAccounts c.heap := by
  refine h.local_invariant (H := fun r => r.accounts = (seeded u tenants).accounts)
    (Q := fun k r => k.ListsAccounts r) rfl (fun _ h => absurd h List.not_mem_nil) ?_ ?_ ?_
  · intro c k env hcall _
    have hadmitted := hok c _ hcall
    cases k <;> first | exact False.elim hadmitted | trivial
  · intro c a k env rest _ _ hacc _
    obtain ⟨hsame, hlists⟩ := lists_run c.heap k env
    exact ⟨hsame.trans hacc, fun k' hk' => (hlists k' hk').mono hsame⟩
  · intro c a k env rest _ _ _ _ k' _ hk'
    exact hk'.mono (lists_run c.heap k env).1

theorem follows_seeded (u : UuidSource) (tenants : List String) :
    BalancesFollow (seeded u tenants) := by
  have hzero : ∀ x ∈ (seeded u tenants).accounts.values, x.balanceCents = 0 := by
    refine seeded_invariant (I := fun r => ∀ x ∈ r.accounts.values, x.balanceCents = 0)
      (fun x hx => absurd hx List.not_mem_nil) (fun r t acc h x hx => ?_) tenants
    have hfresh := r.accounts_issued.fresh le_rfl
    rw [insertAccount, JsMap.values_set_of_fresh hfresh, List.mem_append,
      List.mem_singleton] at hx
    rcases hx with hx | rfl
    · exact h x hx
    · rfl
  intro x hx
  rw [hzero x hx, postedOn, journals_seeded]
  rfl

/-- **The step lemma**: the first step that is not neutral leaves a balance behind. -/
theorem follows_step_iff {tenants : List String} {c c' : BillingConfig u}
    {a : Act BillingCall BillingInput}
    (h : Reach (billingProgram u) NeutralStep (startConfig u tenants) c)
    (hf : BalancesFollow c.heap) (hok : Admitted c a) (hs : (billingProgram u).step c a = some c') :
    BalancesFollow c'.heap ↔ NeutralStep c a := by
  obtain ⟨k, env, rest, hr, rfl⟩ := step_cases hs
  obtain ⟨hacc, hlists⟩ := reach_lists (fun _ _ hn => hn.1) h
  have hchart : HasChart c.heap.accounts := hacc ▸ hasChart_seeded u tenants
  have hk : k.ListsAccounts c.heap := by
    rcases hr.call_or_mem with rfl | hk
    · cases k <;> first | exact False.elim hok | trivial
    · exact hlists k hk
  rw [Config.after, follows_run_iff hchart hf hk env]
  constructor
  · intro hneutral
    refine ⟨hok, fun k' hk' => ?_⟩
    rwa [Option.mem_unique hk' (hr.running)]
  · exact fun hn => hn.2 k (hr.running)

/-- **When do the balances follow the journal?** In every run of neutral steps they do, in all
states; and after such a run they do not survive a step that is not neutral. -/
theorem balances_follow_iff (u : UuidSource) (tenants : List String) :
    (∀ c, Reach (billingProgram u) NeutralStep (startConfig u tenants) c →
      BalancesFollow c.heap) ∧
    ∀ c a c', Reach (billingProgram u) NeutralStep (startConfig u tenants) c → Admitted c a →
      (billingProgram u).step c a = some c' → (BalancesFollow c'.heap ↔ NeutralStep c a) := by
  have hruns : ∀ c, Reach (billingProgram u) NeutralStep (startConfig u tenants) c →
      BalancesFollow c.heap := by
    intro c h
    induction h with
    | start => exact follows_seeded u tenants
    | next h hok hs ih => exact (follows_step_iff h ih hok.1 hs).mpr hok
  exact ⟨hruns, fun c a c' h hok hs => follows_step_iff h (hruns c h) hok hs⟩

/-- An invoice up to its posting, beside an adjustment that debits and credits one account. -/
def storedInvoice : List (Act BillingCall BillingInput) :=
  [.call (.createInvoice hundredCents) quietDay, .resume 0 quietDay,
    .call (.postJournalEntry { oneSided with
      lines := [⟨"id", "Cash", 5000, 0, "Debit"⟩, ⟨"id", "Cash", 0, 5000, "Credit"⟩] }) quietDay]

theorem balances_follow_storedInvoice :
    ∃ c c', Reach (billingProgram .unary) NeutralStep (startConfig .unary []) c ∧
      c.heap.journals.length = 1 ∧ BalancesFollow c.heap ∧
      (billingProgram .unary).step c (.resume 0 quietDay) = some c' ∧
      (BalancesFollow c'.heap ↔ NeutralStep c (.resume 0 quietDay)) := by
  have hrun : ((billingProgram .unary).exec NeutralStep (startConfig .unary [])
      storedInvoice).any fun c => decide (c.heap.journals.length = 1 ∧ 0 < c.inFlight.length) := by
    decide
  obtain ⟨c, hc, hlength, hk⟩ := Reach.exists_of_exec hrun
  obtain ⟨hruns, hiff⟩ := balances_follow_iff .unary []
  have hs := step_resume (P := billingProgram .unary) (List.getElem?_eq_getElem hk) quietDay
  exact ⟨c, _, hc, hlength, hruns c hc, hs, hiff c _ _ hc trivial hs⟩

/-- **An invoice leaves the balances behind**: its receivable is posted, and the account stays at
zero. -/
theorem receivable_not_in_balance :
    ¬ ∀ c, Reach (billingProgram .unary) Admitted (startConfig .unary []) c →
      BalancesFollow c.heap := by
  have hrun : ((billingProgram .unary).exec Admitted (startConfig .unary [])
      [.call (.createInvoice hundredCents) quietDay, .resume 0 quietDay, .resume 0 quietDay]).any
      fun c => decide (¬ BalancesFollow c.heap) := by decide
  obtain ⟨c, hc, hnot⟩ := Reach.exists_of_exec hrun
  exact fun h => hnot (h c hc)

end Logix.Billing
