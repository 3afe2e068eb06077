import Logix.Billing.Ledger
import Mathlib.Algebra.Order.Group.Int
import Mathlib.Tactic.Linarith

/-!
# The receivables account and the invoices

* `HasChart`: the default accounts are there, and `findAccount` finds them by number;
* `receivablesNet`: the net debit of the accounts numbered 1200;
* `BillingCall.unposted`: what a suspended request has booked on an invoice and not posted yet;
* `ReceivablesAgree`: net debit and unposted amounts add up to the open balances of the invoices;
* **`receivables_agree`**: with no request in flight the net debit is the sum of the amounts due
  less the sum of what was paid in excess;
* `overpaid_invoice`: a payment above the total of its invoice.
-/

namespace Logix.Billing

open Async BillingRepository

variable {u : UuidSource}

/-! ## The chart of accounts -/

/-- The numbers that the service posts to. -/
def postedNumbers : List String := ["1010", "1200", "4010"]

/-- **The chart of accounts**: every account is stored under its id, and the default accounts are
there for all tenants. -/
structure HasChart (accounts : JsMap String ChartOfAccountEntity) : Prop where
  keyed : ∀ k a, accounts.get k = some a → a.id = k
  numbered : ∀ number ∈ postedNumbers, ∃ a ∈ accounts.values,
    a.tenantId = "global-tenant" ∧ a.accountNumber = number

theorem hasChart_insertAccount {r : BillingRepository u} (entity : String → ChartOfAccountEntity)
    (hid : ∀ id, (entity id).id = id)
    (hk : ∀ k a, r.accounts.get k = some a → a.id = k) :
    (∀ k a, (r.insertAccount entity).accounts.get k = some a → a.id = k) ∧
      ∀ a, a ∈ (r.insertAccount entity).accounts.values ↔
        a ∈ r.accounts.values ∨ a = entity (u.draw r.draws) := by
  have hfresh := r.accounts_issued.fresh le_rfl
  constructor
  · intro k a h
    unfold insertAccount at h
    rw [JsMap.get_set] at h
    split_ifs at h with hkey
    · rw [← Option.some.inj h, hid, hkey]
    · exact hk k a h
  · intro a
    unfold insertAccount
    simp [JsMap.values, JsMap.entries_set_of_fresh hfresh]

theorem seed_accounts (tenantId : String) (accs : List (String × String × AccountType)) :
    ∀ r : BillingRepository u, (∀ k a, r.accounts.get k = some a → a.id = k) →
      (∀ k a, (accs.foldl (fun r acc => r.insertAccount (defaultAccount tenantId acc))
        r).accounts.get k = some a → a.id = k) ∧
      (∀ a ∈ r.accounts.values, a ∈ (accs.foldl (fun r acc =>
        r.insertAccount (defaultAccount tenantId acc)) r).accounts.values) ∧
      ∀ acc ∈ accs, ∃ a ∈ (accs.foldl (fun r acc =>
        r.insertAccount (defaultAccount tenantId acc)) r).accounts.values,
        a.tenantId = tenantId ∧ a.accountNumber = acc.1 := by
  induction accs with
  | nil => exact fun r h => ⟨h, fun _ ha => ha, fun _ hacc => absurd hacc List.not_mem_nil⟩
  | cons acc accs ih =>
    intro r h
    obtain ⟨hk, hv⟩ := hasChart_insertAccount (defaultAccount tenantId acc) (fun _ => rfl) h
    obtain ⟨hkeyed, hkeep, hnew⟩ := ih _ hk
    refine ⟨hkeyed, fun a ha => hkeep a ((hv a).mpr (Or.inl ha)), ?_⟩
    intro acc' hacc
    rcases List.mem_cons.mp hacc with rfl | hacc
    · exact ⟨_, hkeep _ ((hv _).mpr (Or.inr rfl)), rfl, rfl⟩
    · exact hnew acc' hacc

theorem accounts_seedDefaultAccounts {r : BillingRepository u} (tenantId : String)
    (h : ∀ k a, r.accounts.get k = some a → a.id = k) :
    (∀ k a, (r.seedDefaultAccounts tenantId).accounts.get k = some a → a.id = k) ∧
      (∀ a ∈ r.accounts.values, a ∈ (r.seedDefaultAccounts tenantId).accounts.values) ∧
      ∀ acc ∈ defaultAccounts, ∃ a ∈ (r.seedDefaultAccounts tenantId).accounts.values,
        a.tenantId = tenantId ∧ a.accountNumber = acc.1 := by
  unfold seedDefaultAccounts
  exact seed_accounts tenantId defaultAccounts r h

theorem hasChart_seeded (u : UuidSource) (tenants : List String) :
    HasChart (seeded u tenants).accounts := by
  induction tenants using List.reverseRecOn with
  | nil =>
    unfold seeded new
    rw [List.foldl_nil]
    have hblank : ∀ k a, (blank u).accounts.get k = some a → a.id = k := fun k a h => by cases h
    obtain ⟨hk, -, hnew⟩ := accounts_seedDefaultAccounts "global-tenant" hblank
    refine ⟨hk, fun number hnumber => ?_⟩
    have hmem : ∀ number ∈ postedNumbers, ∃ acc ∈ defaultAccounts, acc.1 = number := by decide
    obtain ⟨acc, hacc, rfl⟩ := hmem number hnumber
    exact hnew acc hacc
  | append_singleton tenants tenantId ih =>
    unfold seeded at ih ⊢
    rw [List.foldl_concat]
    obtain ⟨hk, hkeep, -⟩ := accounts_seedDefaultAccounts tenantId ih.keyed
    refine ⟨hk, fun number hnumber => ?_⟩
    obtain ⟨a, ha, h⟩ := ih.numbered number hnumber
    exact ⟨a, hkeep a ha, h⟩

theorem findAccount_spec {r : BillingRepository u} (h : HasChart r.accounts) (tenantId : String)
    (number : String) (hn : number ∈ postedNumbers) (i : ℕ) :
    ∃ a, findAccount (r.listAccounts tenantId) number i = some a ∧ a.accountNumber = number ∧
      r.accounts.get a.id = some a := by
  obtain ⟨a, ha, hglobal, hnumber⟩ := h.numbered number hn
  cases hf : (r.listAccounts tenantId).find? fun a => decide (a.accountNumber = number) with
  | none =>
    have hmem : a ∈ r.listAccounts tenantId := List.mem_filter.mpr ⟨ha, by simp [hglobal]⟩
    exact absurd (List.find?_eq_none.mp hf a hmem) (by simp [hnumber])
  | some a' =>
    obtain ⟨k, hk⟩ := JsMap.exists_get_of_mem_values
      (List.mem_of_mem_filter (List.mem_of_find?_eq_some hf))
    refine ⟨a', by rw [findAccount, hf, Option.some_or], by simpa using List.find?_some hf, ?_⟩
    rw [h.keyed k a' hk, hk]

/-! ## The net debit -/

/-- The account behind an id is numbered 1200. -/
def IsReceivable (accounts : JsMap String ChartOfAccountEntity) (accountId : String) : Prop :=
  ∃ a ∈ accounts.get accountId, a.accountNumber = "1200"

instance (accounts : JsMap String ChartOfAccountEntity) : DecidablePred (IsReceivable accounts) :=
  fun _ => inferInstanceAs (Decidable (∃ a ∈ _, _))

/-- The net debit of the accounts numbered 1200 in a journal. -/
def journalNet (accounts : JsMap String ChartOfAccountEntity) (j : JournalTransactionEntity) : ℤ :=
  (j.lines.map fun line =>
    if IsReceivable accounts line.accountId then line.debitCents - line.creditCents else 0).sum

/-- The net debit of the accounts numbered 1200. -/
def receivablesNet (r : BillingRepository u) : ℤ := (r.journals.map (journalNet r.accounts)).sum

/-- The net debit of the lines of an entry. -/
def entryNet (accounts : JsMap String ChartOfAccountEntity) (a : JournalEntry) : ℤ :=
  (a.lines.map fun line =>
    if IsReceivable accounts line.accountId then line.debitCents - line.creditCents else 0).sum

theorem isReceivable_iff {accounts : JsMap String ChartOfAccountEntity} {a : ChartOfAccountEntity}
    (h : accounts.get a.id = some a) : IsReceivable accounts a.id ↔ a.accountNumber = "1200" := by
  unfold IsReceivable
  rw [h]
  simp

theorem receivablesNet_postJournalEntry (r : BillingRepository u) (env : BillingInput)
    {a : JournalEntry} (h : (a.lines.map EntryLine.debitCents).sum =
      (a.lines.map EntryLine.creditCents).sum) :
    receivablesNet (r.postJournalEntry env a).1 = receivablesNet r + entryNet r.accounts a := by
  obtain ⟨hacc, -, -, ⟨hne, -⟩ | ⟨-, j, hj, -, -, -, hlines⟩⟩ := postJournalEntry_cases r env a
  · exact absurd h hne
  · unfold receivablesNet
    rw [hacc, hj, List.map_append, List.sum_append, List.map_singleton, List.sum_singleton]
    congr 1
    unfold journalNet entryNet
    rw [hlines, map_format _ (fun line : EntryLine =>
      if IsReceivable r.accounts line.accountId then line.debitCents - line.creditCents else 0)
      fun _ _ => rfl]

theorem invoiceEntry_spec {r : BillingRepository u} (h : HasChart r.accounts) (tenantId : String)
    (dto : CreateInvoiceDTO) (invoiceNumber invoiceId : String) :
    ∃ a, invoiceEntry dto invoiceNumber invoiceId (r.listAccounts tenantId) = some a ∧
      (a.lines.map EntryLine.debitCents).sum = (a.lines.map EntryLine.creditCents).sum ∧
      entryNet r.accounts a = dto.subtotalCents + dto.taxCents := by
  obtain ⟨ar, har, harn, hark⟩ := findAccount_spec h tenantId "1200" (by decide) 0
  obtain ⟨rev, hrev, hrevn, hrevk⟩ :=
    findAccount_spec h tenantId "4010" (by decide) 1
  refine ⟨_, by rw [invoiceEntry, har, hrev]; rfl, ?_, ?_⟩
  · simp
  · have h1 : IsReceivable r.accounts ar.id := (isReceivable_iff hark).mpr harn
    have h2 : ¬ IsReceivable r.accounts rev.id := by
      rw [isReceivable_iff hrevk, hrevn]
      decide
    simp [entryNet, h1, h2]

theorem paymentEntry_spec {r : BillingRepository u} (h : HasChart r.accounts) (tenantId : String)
    (dto : ProcessPaymentDTO) (invoiceNumber paymentId : String) :
    ∃ a, paymentEntry dto invoiceNumber paymentId (r.listAccounts tenantId) = some a ∧
      (a.lines.map EntryLine.debitCents).sum = (a.lines.map EntryLine.creditCents).sum ∧
      entryNet r.accounts a = -dto.amountCents := by
  obtain ⟨cash, hcash, hcashn, hcashk⟩ :=
    findAccount_spec h tenantId "1010" (by decide) 0
  obtain ⟨ar, har, harn, hark⟩ := findAccount_spec h tenantId "1200" (by decide) 1
  refine ⟨_, by rw [paymentEntry, hcash, har]; rfl, ?_, ?_⟩
  · simp
  · have h1 : IsReceivable r.accounts ar.id := (isReceivable_iff hark).mpr harn
    have h2 : ¬ IsReceivable r.accounts cash.id := by
      rw [isReceivable_iff hcashk, hcashn]
      decide
    simp [entryNet, h1, h2]

/-! ## Invoices and requests -/

/-- The open balance of an invoice, negative when more was paid than its total. -/
def InvoiceEntity.balance (i : InvoiceEntity) : ℤ := i.totalCents - i.amountPaidCents

/-- What was paid in excess of the total. -/
def InvoiceEntity.excess (i : InvoiceEntity) : ℤ := max 0 (i.amountPaidCents - i.totalCents)

/-- An invoice of the tenant whose amount due is its clamped balance. -/
def InvoiceEntity.Sound (tenantId : String) (i : InvoiceEntity) : Prop :=
  i.tenantId = tenantId ∧ i.amountDueCents = max 0 i.balance

theorem sound_newInvoice (dto : CreateInvoiceDTO) (env : BillingInput) (lineIds : ℕ → String)
    (id : String) : (newInvoice dto env lineIds id).Sound dto.tenantId := by
  refine ⟨rfl, ?_⟩
  have hs := dto.subtotalCents_pos
  have ht := dto.taxCents_nonneg
  simp only [newInvoice, InvoiceEntity.balance]
  omega

theorem balance_pay (i : InvoiceEntity) (amountCents : ℤ) (now : JsDate) :
    (i.pay amountCents now).balance = i.balance - amountCents := by
  unfold InvoiceEntity.pay InvoiceEntity.balance
  simp only
  split_ifs <;> simp only <;> omega

theorem InvoiceEntity.Sound.pay {tenantId : String} {i : InvoiceEntity} (h : i.Sound tenantId)
    (amountCents : ℤ) (now : JsDate) : (i.pay amountCents now).Sound tenantId := by
  unfold InvoiceEntity.pay InvoiceEntity.Sound InvoiceEntity.balance
  simp only
  split_ifs <;> exact ⟨h.1, rfl⟩

/-- What a suspended request has booked on an invoice and not posted yet. -/
def BillingCall.unposted : BillingCall → ℤ
  | .invoiceStored dto _ _ => dto.subtotalCents + dto.taxCents
  | .invoiceAccounts dto _ _ _ => dto.subtotalCents + dto.taxCents
  | .paymentAccounts dto _ _ _ => -dto.amountCents
  | _ => 0

/-- **What a request relies on**, in a run of invoices and payments of one tenant. -/
def BillingCall.Ready (tenantId : String) (r : BillingRepository u) : BillingCall → Prop
  | .createInvoice dto => dto.tenantId = tenantId
  | .invoiceAccounts _ _ _ accounts => ∃ t, accounts = r.listAccounts t
  | .paymentInvoiceFound _ invoice => ∀ ref ∈ invoice, (r.invoices.get ref).isSome
  | .paymentStored _ invoice _ => (r.invoices.get invoice).isSome
  | .paymentAccounts _ _ _ accounts => ∃ t, accounts = r.listAccounts t
  | .postJournalEntry _ => False
  | _ => True

/-- **What the segment of `k` does**: it keeps the accounts and the invoices, and what it posts or
leaves unposted is what it changes of the open balances. -/
structure AccountsFor (tenantId : String) (r : BillingRepository u) (k : BillingCall)
    (s : Segment (BillingRepository u) BillingCall BillingOutcome) : Prop where
  accounts : s.heap.accounts = r.accounts
  keeps : ∀ ref, (r.invoices.get ref).isSome → (s.heap.invoices.get ref).isSome
  sound : (∀ ref i, r.invoices.get ref = some i → i.Sound tenantId) →
    ∀ ref i, s.heap.invoices.get ref = some i → i.Sound tenantId
  net : receivablesNet s.heap + (s.waiting.map BillingCall.unposted).sum +
    r.invoices.total InvoiceEntity.balance =
      receivablesNet r + k.unposted + s.heap.invoices.total InvoiceEntity.balance
  ready : ∀ k' ∈ s.waiting, k'.Ready tenantId s.heap

variable {tenantId : String} {r : BillingRepository u}

theorem accounts_of_same {k : BillingCall}
    {s : Segment (BillingRepository u) BillingCall BillingOutcome}
    (hacc : s.heap.accounts = r.accounts) (hj : s.heap.journals = r.journals)
    (hi : s.heap.invoices = r.invoices)
    (hw : (s.waiting.map BillingCall.unposted).sum = k.unposted)
    (hready : ∀ k' ∈ s.waiting, k'.Ready tenantId s.heap) : AccountsFor tenantId r k s where
  accounts := hacc
  keeps ref h := by rwa [hi]
  sound h ref i hr := h ref i (by rwa [hi] at hr)
  net := by
    unfold receivablesNet
    rw [hacc, hj, hi, hw]
  ready := hready

theorem accounts_postEntry {k next : BillingCall} {env : BillingInput} {a : JournalEntry}
    (hb : (a.lines.map EntryLine.debitCents).sum = (a.lines.map EntryLine.creditCents).sum)
    (hnet : entryNet r.accounts a = k.unposted) (hn : next.unposted = 0)
    (hready : ∀ r' : BillingRepository u, next.Ready tenantId r') :
    AccountsFor tenantId r k (postEntry r env (some a) next) := by
  obtain ⟨hacc, hinv, -, ⟨hne, -⟩ | ⟨-, j, -, hres, -⟩⟩ := postJournalEntry_cases r env a
  · exact absurd hb hne
  · have hseg : postEntry r env (some a) next =
        { heap := (r.postJournalEntry env a).1, waiting := [next] } := by
      unfold postEntry
      cases h : r.postJournalEntry env a with
      | mk r' res =>
        rw [h] at hres
        cases hres
        simp [h]
    rw [hseg]
    refine ⟨hacc, fun ref h => ?_, fun h ref i hr => h ref i ?_, ?_, ?_⟩
    · rwa [hinv]
    · rwa [hinv] at hr
    · simp only [List.map_singleton, List.sum_singleton, hn]
      rw [receivablesNet_postJournalEntry r env hb, hnet, hinv]
      omega
    · intro k' hk'
      rw [List.mem_singleton.mp hk']
      exact hready _

theorem accounts_createInvoice (dto : CreateInvoiceDTO) (hdto : dto.tenantId = tenantId)
    (env : BillingInput) : AccountsFor tenantId r (.createInvoice dto)
      ((billingProgram u).run (.createInvoice dto) env r) := by
  have hfresh : u.draw (r.draw dto.items.length).draws ∉ r.invoices.keys :=
    (r.draw dto.items.length).invoices_issued.fresh le_rfl
  refine ⟨rfl, fun ref h => ?_, fun h ref i hr => ?_, ?_, ?_⟩
  · change ((r.invoices.set _ _).get ref).isSome
    rw [JsMap.get_set]
    split_ifs
    · rfl
    · exact h
  · change (r.invoices.set _ _).get ref = some i at hr
    rw [JsMap.get_set] at hr
    split_ifs at hr
    · rw [← Option.some.inj hr, ← hdto]
      exact sound_newInvoice dto env _ _
    · exact h ref i hr
  · change receivablesNet r + ([_].map BillingCall.unposted).sum + _ = receivablesNet r + 0 +
      JsMap.total InvoiceEntity.balance (r.invoices.set _ _)
    rw [JsMap.total_set_of_fresh hfresh]
    simp only [List.map_singleton, List.sum_singleton, BillingCall.unposted, newInvoice,
      InvoiceEntity.balance]
    omega
  · intro k' hk'
    rw [List.mem_singleton.mp hk']
    trivial

theorem accounts_paymentStored (dto : ProcessPaymentDTO) {invoice : String}
    (hinvoice : (r.invoices.get invoice).isSome) (paymentId : String) (env : BillingInput) :
    AccountsFor tenantId r (.paymentStored dto invoice paymentId)
      ((billingProgram u).run (.paymentStored dto invoice paymentId) env r) := by
  obtain ⟨i, hi⟩ := Option.isSome_iff_exists.mp hinvoice
  refine ⟨rfl, fun ref h => ?_, fun h ref i hr => ?_, ?_, ?_⟩
  · obtain ⟨i', hi'⟩ := Option.isSome_iff_exists.mp h
    exact Option.isSome_iff_exists.mpr ⟨_, JsMap.get_modify_of_get hi' invoice _⟩
  · obtain ⟨i', hi', rfl⟩ := JsMap.exists_of_get_modify hr
    split_ifs
    · exact (h ref i' hi').pay _ _
    · exact h ref i' hi'
  · change receivablesNet r + ([_].map BillingCall.unposted).sum + _ = receivablesNet r + 0 +
      JsMap.total InvoiceEntity.balance (r.invoices.modify invoice _)
    rw [JsMap.total_modify hi, balance_pay]
    simp only [List.map_singleton, List.sum_singleton, BillingCall.unposted]
    omega
  · intro k' hk'
    rw [List.mem_singleton.mp hk']
    exact ⟨_, rfl⟩

theorem accounts_run (hchart : HasChart r.accounts) {k : BillingCall} (hk : k.Ready tenantId r)
    (env : BillingInput) : AccountsFor tenantId r k ((billingProgram u).run k env r) := by
  cases k with
  | createInvoice dto => exact accounts_createInvoice dto hk env
  | invoiceStored dto invoiceNumber invoiceId =>
    refine accounts_of_same rfl rfl rfl (List.sum_singleton) fun k' hk' => ?_
    rw [List.mem_singleton.mp hk']
    exact ⟨_, rfl⟩
  | invoiceAccounts dto invoiceNumber invoiceId accounts =>
    obtain ⟨t, rfl⟩ := hk
    obtain ⟨a, ha, hb, hnet⟩ := invoiceEntry_spec hchart t dto invoiceNumber invoiceId
    change AccountsFor tenantId r _ (postEntry r env (invoiceEntry dto invoiceNumber invoiceId _) _)
    rw [ha]
    exact accounts_postEntry hb hnet rfl fun _ => trivial
  | invoicePosted invoiceId =>
    exact accounts_of_same rfl rfl rfl rfl fun _ h => absurd h List.not_mem_nil
  | processPayment dto =>
    refine accounts_of_same rfl rfl rfl (List.sum_singleton) fun k' hk' => ?_
    rw [List.mem_singleton.mp hk']
    intro ref href
    obtain ⟨i, hi, rfl⟩ := Option.map_eq_some_iff.mp href
    exact Option.isSome_iff_exists.mpr ⟨i, hi⟩
  | paymentInvoiceFound dto invoice =>
    cases invoice with
    | none => exact accounts_of_same rfl rfl rfl rfl fun _ h => absurd h List.not_mem_nil
    | some invoice =>
      refine accounts_of_same rfl rfl rfl (List.sum_singleton) fun k' hk' => ?_
      rw [List.mem_singleton.mp hk']
      exact hk invoice rfl
  | paymentStored dto invoice paymentId => exact accounts_paymentStored dto hk paymentId env
  | paymentAccounts dto invoice paymentId accounts =>
    obtain ⟨t, rfl⟩ := hk
    obtain ⟨a, ha, hb, hnet⟩ := paymentEntry_spec hchart t dto
      (((r.invoices.get invoice).map InvoiceEntity.invoiceNumber).getD "") paymentId
    change AccountsFor tenantId r _ (postEntry r env (paymentEntry dto _ paymentId _) _)
    rw [ha]
    exact accounts_postEntry hb hnet rfl fun _ => trivial
  | paymentPosted invoice paymentId =>
    exact accounts_of_same rfl rfl rfl rfl fun _ h => absurd h List.not_mem_nil
  | postJournalEntry a => exact hk.elim

/-! ## Runs of one tenant -/

/-- A run starts invoices and payments of one tenant, and continues anything. -/
def OneTenant (tenantId : String) (_ : BillingConfig u) : Act BillingCall BillingInput → Prop
  | .call (.createInvoice dto) _ => dto.tenantId = tenantId
  | .call (.processPayment dto) _ => dto.tenantId = tenantId
  | .call _ _ => False
  | .resume _ _ => True

instance (tenantId : String) :
    ∀ (c : BillingConfig u) (a : Act BillingCall BillingInput), Decidable (OneTenant tenantId c a)
  | _, .call (.createInvoice dto) _ => inferInstanceAs (Decidable (dto.tenantId = tenantId))
  | _, .call (.processPayment dto) _ => inferInstanceAs (Decidable (dto.tenantId = tenantId))
  | _, .call (.postJournalEntry _) _ | _, .call (.invoiceStored ..) _
  | _, .call (.invoiceAccounts ..) _ | _, .call (.invoicePosted _) _
  | _, .call (.paymentInvoiceFound ..) _ | _, .call (.paymentStored ..) _
  | _, .call (.paymentAccounts ..) _ | _, .call (.paymentPosted ..) _ => .isFalse id
  | _, .resume _ _ => .isTrue trivial

/-- **The invariant of the runs of one tenant.** -/
structure ReceivablesAgree (tenantId : String) (c : BillingConfig u) : Prop where
  chart : HasChart c.heap.accounts
  sound : ∀ ref i, c.heap.invoices.get ref = some i → i.Sound tenantId
  net : receivablesNet c.heap + (c.inFlight.map BillingCall.unposted).sum =
    c.heap.invoices.total InvoiceEntity.balance
  ready : ∀ k ∈ c.inFlight, k.Ready tenantId c.heap

theorem BillingCall.Ready.mono {r' : BillingRepository u} (hacc : r'.accounts = r.accounts)
    (hkeep : ∀ ref, (r.invoices.get ref).isSome → (r'.invoices.get ref).isSome)
    {k : BillingCall} (h : k.Ready tenantId r) : k.Ready tenantId r' := by
  have hlist : ∀ t, r'.listAccounts t = r.listAccounts t := fun t => by
    unfold listAccounts
    rw [hacc]
  cases k with
  | invoiceAccounts dto invoiceNumber invoiceId accounts =>
    obtain ⟨t, ht⟩ := h
    exact ⟨t, ht.trans (hlist t).symm⟩
  | paymentAccounts dto invoice paymentId accounts =>
    obtain ⟨t, ht⟩ := h
    exact ⟨t, ht.trans (hlist t).symm⟩
  | paymentInvoiceFound dto invoice => exact fun ref href => hkeep ref (h ref href)
  | paymentStored dto invoice paymentId => exact hkeep invoice h
  | _ => exact h

theorem ReceivablesAgree.after {c : BillingConfig u} {a : Act BillingCall BillingInput}
    {k : BillingCall} {env : BillingInput} {rest : List BillingCall}
    (h : ReceivablesAgree tenantId c) (hok : OneTenant tenantId c a) (hr : Runs c a k env rest) :
    ReceivablesAgree tenantId (c.after ((billingProgram u).run k env c.heap) rest) := by
  have hk : k.Ready tenantId c.heap := by
    rcases hr.call_or_mem with rfl | hk
    · cases k <;> first | exact False.elim hok | exact trivial | exact hok
    · exact h.ready k hk
  have hnew : a = .call k env → k.unposted = 0 := by
    rintro rfl
    cases k <;> first | rfl | exact False.elim hok
  have hsum := hr.sum_map BillingCall.unposted hnew
  obtain ⟨hacc, hkeep, hsound, hnet, hready⟩ := accounts_run h.chart hk env
  refine ⟨?_, hsound h.sound, ?_, fun k' hk' => ?_⟩
  · change HasChart ((billingProgram u).run k env c.heap).heap.accounts
    rw [hacc]
    exact h.chart
  · have := h.net
    simp only [Config.after, List.map_append, List.sum_append]
    omega
  · rcases List.mem_append.mp hk' with hk' | hk'
    · exact (h.ready k' (hr.mem_rest hk')).mono hacc hkeep
    · exact hready k' hk'

theorem tables_seeded (u : UuidSource) (tenants : List String) :
    (seeded u tenants).invoices = .empty :=
  seeded_same BillingRepository.invoices (fun _ _ => rfl) tenants

theorem receivablesAgree_start (u : UuidSource) (tenants : List String) (tenantId : String) :
    ReceivablesAgree tenantId (startConfig u tenants) where
  chart := hasChart_seeded u tenants
  sound ref i h := by
    change (seeded u tenants).invoices.get ref = some i at h
    rw [tables_seeded] at h
    cases h
  net := by
    change receivablesNet (seeded u tenants) + 0 = (seeded u tenants).invoices.total _
    rw [receivablesNet, journals_seeded, tables_seeded]
    rfl
  ready _ h := absurd h List.not_mem_nil

theorem reach_receivablesAgree {tenants : List String} {c : BillingConfig u}
    (h : Reach (billingProgram u) (OneTenant tenantId) (startConfig u tenants) c) :
    ReceivablesAgree tenantId c :=
  h.invariant (receivablesAgree_start u tenants tenantId)
    fun _ _ _ _ _ hI hok hr => hI.after hok hr

theorem sum_balance {l : List InvoiceEntity} (h : ∀ i ∈ l, i.amountDueCents = max 0 i.balance) :
    (l.map InvoiceEntity.balance).sum =
      (l.map InvoiceEntity.amountDueCents).sum - (l.map InvoiceEntity.excess).sum := by
  induction l with
  | nil => rfl
  | cons i l ih =>
    have hi := h i List.mem_cons_self
    have ih := ih fun i hi => h i (List.mem_cons_of_mem _ hi)
    simp only [List.map_cons, List.sum_cons, ih, hi, InvoiceEntity.excess, InvoiceEntity.balance]
    omega

/-- **The receivables account follows the invoices.** In every run of the invoices and payments of
one tenant, whenever no request is in flight, the net debit of the accounts numbered 1200 is the
sum of the amounts due less what was paid in excess. -/
theorem receivables_agree (u : UuidSource) (tenants : List String) (tenantId : String)
    (c : BillingConfig u)
    (h : Reach (billingProgram u) (OneTenant tenantId) (startConfig u tenants) c)
    (hq : c.inFlight = []) :
    receivablesNet c.heap = ((c.heap.listInvoices tenantId).map InvoiceEntity.amountDueCents).sum -
      ((c.heap.listInvoices tenantId).map InvoiceEntity.excess).sum := by
  obtain ⟨-, hsound, hnet, -⟩ := reach_receivablesAgree h
  have hvalues : ∀ i ∈ c.heap.invoices.values, i.Sound tenantId := by
    intro i hi
    obtain ⟨ref, href⟩ := JsMap.exists_get_of_mem_values hi
    exact hsound ref i href
  have hlist : c.heap.listInvoices tenantId = c.heap.invoices.values :=
    List.filter_eq_self.mpr fun i hi => by simp [(hvalues i hi).1]
  rw [hlist, ← sum_balance fun i hi => (hvalues i hi).2]
  rw [hq, List.map_nil, List.sum_nil, add_zero] at hnet
  exact hnet

/-! ## A payment above the total -/

section Overpaid

/-- A payment on the first invoice of a new repository. -/
def payment (amountCents : ℤ) (h : 0 < amountCents) : ProcessPaymentDTO where
  tenantId := "T-1"
  invoiceId := "idxxxxxxx"
  orderId := "O-1"
  amountCents := amountCents
  currency := "USD"
  paymentMethod := .CREDIT_CARD
  amountCents_pos := h

/-- One invoice of a hundred cents, then one payment, each request after the other. -/
def invoiceThenPayment (p : ProcessPaymentDTO) : List (Act BillingCall BillingInput) :=
  [.call (.createInvoice hundredCents) quietDay, .resume 0 quietDay, .resume 0 quietDay,
    .resume 0 quietDay, .call (.processPayment p) quietDay, .resume 0 quietDay, .resume 0 quietDay,
    .resume 0 quietDay, .resume 0 quietDay]

/-- **An overpaid invoice**: a payment of 150 cents on a total of 100 leaves no amount due, and a
net credit of 50 on the receivables account. -/
theorem overpaid_invoice :
    ∃ c, Reach (billingProgram .unary) (OneTenant "T-1") (startConfig .unary []) c ∧
      c.inFlight = [] ∧ receivablesNet c.heap ≠
        ((c.heap.listInvoices "T-1").map InvoiceEntity.amountDueCents).sum := by
  have hrun : ((billingProgram .unary).exec (OneTenant "T-1") (startConfig .unary [])
      (invoiceThenPayment (payment 150 (by decide)))).any fun c => decide (c.inFlight = [] ∧
        receivablesNet c.heap = -50 ∧
        ((c.heap.listInvoices "T-1").map InvoiceEntity.amountDueCents).sum = 0) := by decide
  obtain ⟨c, hc, hq, hnet, hdue⟩ := Reach.exists_of_exec hrun
  exact ⟨c, hc, hq, by rw [hnet, hdue]; decide⟩

/-- A payment of 40 cents leaves a net debit of 60. -/
theorem receivables_agree_part :
    ∃ c, Reach (billingProgram .unary) (OneTenant "T-1") (startConfig .unary []) c ∧
      c.inFlight = [] ∧ receivablesNet c.heap = 60 ∧ receivablesNet c.heap =
        ((c.heap.listInvoices "T-1").map InvoiceEntity.amountDueCents).sum -
          ((c.heap.listInvoices "T-1").map InvoiceEntity.excess).sum := by
  have hrun : ((billingProgram .unary).exec (OneTenant "T-1") (startConfig .unary [])
      (invoiceThenPayment (payment 40 (by decide)))).any fun c => decide (c.inFlight = [] ∧
        receivablesNet c.heap = 60) := by decide
  obtain ⟨c, hc, hq, hnet⟩ := Reach.exists_of_exec hrun
  exact ⟨c, hc, hq, hnet, receivables_agree .unary [] "T-1" c hc hq⟩

end Overpaid

end Logix.Billing
