import Logix.Billing.Model
import Mathlib.Algebra.BigOperators.Group.List.Basic
import Mathlib.Algebra.Group.Int.Defs
import Mathlib.Data.List.Induction

/-!
# The double-entry ledger

* `formatLines_eq`: the accumulating loop computes the two sums and formats every line;
* `postJournalEntry_cases`: a journal entry is posted balanced, or rejected without a trace in
  the journals;
* `journals_run`: a segment posts at most one balanced journal;
* **`ledger_balanced`**: in every run all journals are balanced, and so are the totals of each
  tenant.
-/

namespace Logix.Billing

open Async BillingRepository

variable {u : UuidSource}

/-- Both sides of a journal add up to its total. -/
def JournalTransactionEntity.Balanced (j : JournalTransactionEntity) : Prop :=
  (j.lines.map JournalEntryLine.debitCents).sum = j.totalAmountCents ∧
    (j.lines.map JournalEntryLine.creditCents).sum = j.totalAmountCents

/-- The debits of the journals of a tenant. -/
def BillingRepository.totalDebits (r : BillingRepository u) (tenantId : String) : ℤ :=
  ((r.listJournals tenantId).map fun j => (j.lines.map JournalEntryLine.debitCents).sum).sum

/-- The credits of the journals of a tenant. -/
def BillingRepository.totalCredits (r : BillingRepository u) (tenantId : String) : ℤ :=
  ((r.listJournals tenantId).map fun j => (j.lines.map JournalEntryLine.creditCents).sum).sum

/-! ## Posting -/

/-- A line with its id. -/
def EntryLine.format (line : EntryLine) (id : String) : JournalEntryLine where
  id := id
  accountId := line.accountId
  accountName := line.accountName
  debitCents := line.debitCents
  creditCents := line.creditCents
  description := line.description

/-- **The loop over the lines.** -/
theorem formatLines_eq (lineId : ℕ → String) (lines : List EntryLine) :
    formatLines lineId lines =
      ((lines.map EntryLine.debitCents).sum, (lines.map EntryLine.creditCents).sum,
        lines.mapIdx fun i line => line.format (lineId i)) := by
  induction lines using List.reverseRecOn with
  | nil => rfl
  | append_singleton lines line ih =>
    unfold formatLines at ih ⊢
    rw [List.foldl_concat, ih]
    simp [EntryLine.format, List.mapIdx_append]

theorem map_format {α : Type} (f : JournalEntryLine → α) (g : EntryLine → α)
    (h : ∀ line id, f (line.format id) = g line) (lineId : ℕ → String) (lines : List EntryLine) :
    (lines.mapIdx fun i line => line.format (lineId i)).map f = lines.map g := by
  induction lines using List.reverseRecOn with
  | nil => rfl
  | append_singleton lines line ih =>
    rw [List.mapIdx_concat, List.map_append, List.map_append, ih, List.map_singleton,
      List.map_singleton, h]

/-- **What `postJournalEntry` does**: an unbalanced entry is rejected and leaves the journals, a
balanced one is appended; nothing else changes. -/
theorem postJournalEntry_cases (r : BillingRepository u) (env : BillingInput) (a : JournalEntry) :
    (r.postJournalEntry env a).1.accounts = r.accounts ∧
    (r.postJournalEntry env a).1.invoices = r.invoices ∧
    (r.postJournalEntry env a).1.payments = r.payments ∧
    (((a.lines.map EntryLine.debitCents).sum ≠ (a.lines.map EntryLine.creditCents).sum ∧
        (r.postJournalEntry env a).1.journals = r.journals ∧
        (r.postJournalEntry env a).2 = .error (.unbalancedLedger
          (a.lines.map EntryLine.debitCents).sum (a.lines.map EntryLine.creditCents).sum)) ∨
      ((a.lines.map EntryLine.debitCents).sum = (a.lines.map EntryLine.creditCents).sum ∧
        ∃ j, (r.postJournalEntry env a).1.journals = r.journals ++ [j] ∧
          (r.postJournalEntry env a).2 = .ok j ∧ j.tenantId = a.tenantId ∧
          j.totalAmountCents = (a.lines.map EntryLine.debitCents).sum ∧
          j.lines = a.lines.mapIdx fun i line => line.format (u.draw (r.draws + i)))) := by
  unfold BillingRepository.postJournalEntry
  rw [formatLines_eq]
  simp only
  split_ifs with h
  · exact ⟨rfl, rfl, rfl, Or.inl ⟨h, rfl, rfl⟩⟩
  · exact ⟨rfl, rfl, rfl, Or.inr ⟨not_not.mp h, _, rfl, rfl, rfl, rfl, rfl⟩⟩

theorem postJournalEntry_balanced {r : BillingRepository u} {env : BillingInput} {a : JournalEntry}
    {j : JournalTransactionEntity} (h : (r.postJournalEntry env a).2 = .ok j) : j.Balanced := by
  obtain ⟨-, -, -, ⟨-, -, he⟩ | ⟨heq, j', -, hj, -, htotal, hlines⟩⟩ :=
    postJournalEntry_cases r env a
  · rw [he] at h
    cases h
  · rw [hj] at h
    cases h
    unfold JournalTransactionEntity.Balanced
    rw [hlines, htotal, map_format _ EntryLine.debitCents fun _ _ => rfl,
      map_format _ EntryLine.creditCents fun _ _ => rfl]
    exact ⟨rfl, heq.symm⟩

theorem journals_of_error {r : BillingRepository u} {env : BillingInput} {a : JournalEntry}
    {e : DomainException} (h : (r.postJournalEntry env a).2 = .error e) :
    (r.postJournalEntry env a).1.journals = r.journals := by
  obtain ⟨-, -, -, ⟨-, hj, -⟩ | ⟨-, j, -, hj, -⟩⟩ := postJournalEntry_cases r env a
  · exact hj
  · rw [hj] at h
    cases h

theorem journals_postJournalEntry (r : BillingRepository u) (env : BillingInput)
    (a : JournalEntry) :
    ∃ js, (r.postJournalEntry env a).1.journals = r.journals ++ js ∧ ∀ j ∈ js, j.Balanced := by
  obtain ⟨-, -, -, ⟨-, hj, -⟩ | ⟨-, j, hj, hres, -⟩⟩ := postJournalEntry_cases r env a
  · exact ⟨[], by rw [hj, List.append_nil], fun _ h => absurd h List.not_mem_nil⟩
  · refine ⟨[j], hj, fun j' h => ?_⟩
    rw [List.mem_singleton.mp h]
    exact postJournalEntry_balanced hres

/-! ## Segments -/

theorem heap_postEntry (r : BillingRepository u) (env : BillingInput) (a : JournalEntry)
    (next : BillingCall) : (postEntry r env (some a) next).heap = (r.postJournalEntry env a).1 := by
  unfold postEntry
  cases h : r.postJournalEntry env a with
  | mk r' res => cases res <;> simp [h]

theorem waiting_postEntry (r : BillingRepository u) (env : BillingInput)
    (entry : Option JournalEntry) (next : BillingCall) :
    (postEntry r env entry next).waiting = [next] ∨ (postEntry r env entry next).waiting = [] := by
  cases entry with
  | none => exact Or.inr rfl
  | some a =>
    unfold postEntry
    cases h : r.postJournalEntry env a with
    | mk r' res => cases res <;> simp [h]

theorem eq_of_mem_waiting_postEntry {r : BillingRepository u} {env : BillingInput}
    {entry : Option JournalEntry} {next k : BillingCall}
    (h : k ∈ (postEntry r env entry next).waiting) : k = next := by
  rcases waiting_postEntry r env entry next with hw | hw
  · exact List.mem_singleton.mp (hw ▸ h)
  · exact absurd (hw ▸ h) List.not_mem_nil

theorem waiting_run_postJournalEntry (r : BillingRepository u) (env : BillingInput)
    (a : JournalEntry) : ((billingProgram u).run (.postJournalEntry a) env r).waiting = [] := by
  simp only [billingProgram]
  cases r.postJournalEntry env a with
  | mk r' res => cases res <;> rfl

theorem heap_run_postJournalEntry (r : BillingRepository u) (env : BillingInput)
    (a : JournalEntry) : ((billingProgram u).run (.postJournalEntry a) env r).heap =
      (r.postJournalEntry env a).1 := by
  simp only [billingProgram]
  cases r.postJournalEntry env a with
  | mk r' res => cases res <;> rfl

/-- **A segment posts balanced journals only.** -/
theorem journals_run (r : BillingRepository u) (k : BillingCall) (env : BillingInput) :
    ∃ js, ((billingProgram u).run k env r).heap.journals = r.journals ++ js ∧
      ∀ j ∈ js, j.Balanced := by
  have hsame : ∃ js, r.journals = r.journals ++ js ∧ ∀ j ∈ js, j.Balanced :=
    ⟨[], (List.append_nil _).symm, fun _ h => absurd h List.not_mem_nil⟩
  have hpost : ∀ entry next, ∃ js, (postEntry r env entry next).heap.journals = r.journals ++ js ∧
      ∀ j ∈ js, j.Balanced := by
    intro entry next
    cases entry with
    | none => exact hsame
    | some a =>
      rw [heap_postEntry]
      exact journals_postJournalEntry r env a
  cases k with
  | invoiceAccounts dto invoiceNumber invoiceId accounts => exact hpost _ _
  | paymentAccounts dto invoice paymentId accounts => exact hpost _ _
  | postJournalEntry a =>
    rw [heap_run_postJournalEntry]
    exact journals_postJournalEntry r env a
  | paymentInvoiceFound dto invoice => cases invoice <;> exact hsame
  | createInvoice dto => exact hsame
  | invoiceStored dto invoiceNumber invoiceId => exact hsame
  | invoicePosted invoiceId => exact hsame
  | processPayment dto => exact hsame
  | paymentStored dto invoice paymentId => exact hsame
  | paymentPosted invoice paymentId => exact hsame

/-! ## Runs -/

/-- The configurations of the billing service. -/
abbrev BillingConfig (u : UuidSource) : Type :=
  Config (BillingRepository u) BillingCall BillingOutcome

/-- A run starts requests, and continues anything. -/
def Admitted (_ : BillingConfig u) : Act BillingCall BillingInput → Prop
  | .call (.createInvoice _) _ => True
  | .call (.processPayment _) _ => True
  | .call (.postJournalEntry _) _ => True
  | .call _ _ => False
  | .resume _ _ => True

instance : ∀ (c : BillingConfig u) (a : Act BillingCall BillingInput), Decidable (Admitted c a)
  | _, .call (.createInvoice _) _ | _, .call (.processPayment _) _
  | _, .call (.postJournalEntry _) _ => .isTrue trivial
  | _, .call (.invoiceStored ..) _ | _, .call (.invoiceAccounts ..) _ | _, .call (.invoicePosted _) _
  | _, .call (.paymentInvoiceFound ..) _ | _, .call (.paymentStored ..) _
  | _, .call (.paymentAccounts ..) _ | _, .call (.paymentPosted ..) _ => .isFalse id
  | _, .resume _ _ => .isTrue trivial

/-- No request is in flight, on the default accounts of some tenants. -/
def startConfig (u : UuidSource) (tenants : List String) : BillingConfig u :=
  ⟨seeded u tenants, [], []⟩

/-- **The rule of seeding**: what holds without accounts and is kept by their insertion. -/
theorem seeded_invariant {I : BillingRepository u → Prop} (h₀ : I (blank u))
    (hinsert : ∀ r t acc, I r → I (r.insertAccount (defaultAccount t acc)))
    (tenants : List String) : I (seeded u tenants) := by
  have hseed : ∀ (accs : List (String × String × AccountType)) t r, I r →
      I (accs.foldl (fun r acc => r.insertAccount (defaultAccount t acc)) r) := by
    intro accs t
    induction accs with
    | nil => exact fun _ h => h
    | cons acc accs ih => exact fun r h => ih _ (hinsert r t acc h)
  induction tenants using List.reverseRecOn with
  | nil =>
    unfold seeded new seedDefaultAccounts
    rw [List.foldl_nil]
    exact hseed _ _ _ h₀
  | append_singleton tenants t ih =>
    unfold seeded at ih ⊢
    rw [List.foldl_concat, seedDefaultAccounts]
    exact hseed _ _ _ ih

theorem seeded_same {α : Type} (f : BillingRepository u → α)
    (hf : ∀ r entity, f (r.insertAccount entity) = f r) (tenants : List String) :
    f (seeded u tenants) = f (blank u) :=
  seeded_invariant (I := fun r => f r = f (blank u)) rfl (fun r _ _ h => (hf r _).trans h) tenants

theorem journals_seeded (u : UuidSource) (tenants : List String) :
    (seeded u tenants).journals = [] :=
  seeded_same BillingRepository.journals (fun _ _ => rfl) tenants

theorem reach_balanced {tenants : List String} {c : BillingConfig u}
    (h : Reach (billingProgram u) Admitted (startConfig u tenants) c) :
    ∀ j ∈ c.heap.journals, j.Balanced := by
  refine h.heap_invariant (H := fun r => ∀ j ∈ r.journals, j.Balanced) ?_ ?_
  · change ∀ j ∈ (seeded u tenants).journals, j.Balanced
    rw [journals_seeded]
    exact fun _ h => absurd h List.not_mem_nil
  · intro c a k env rest _ _ hj j hmem
    obtain ⟨js, heq, hjs⟩ := journals_run c.heap k env
    rw [heq] at hmem
    exact (List.mem_append.mp hmem).elim (hj j) (hjs j)

theorem totalDebits_eq_totalCredits {r : BillingRepository u} (h : ∀ j ∈ r.journals, j.Balanced)
    (tenantId : String) : r.totalDebits tenantId = r.totalCredits tenantId := by
  refine congrArg List.sum (List.map_congr_left fun j hj => ?_)
  have hb := h j (List.mem_of_mem_filter hj)
  rw [hb.1, hb.2]

/-- **The ledger is balanced.** In every run of invoices, payments and journal entries all
journals are balanced, and so are the debits and credits of each tenant; a journal entry that is
rejected leaves the journals as they were. -/
theorem ledger_balanced (u : UuidSource) (tenants : List String) :
    (∀ c, Reach (billingProgram u) Admitted (startConfig u tenants) c →
      (∀ j ∈ c.heap.journals, j.Balanced) ∧
        ∀ tenantId, c.heap.totalDebits tenantId = c.heap.totalCredits tenantId) ∧
      ∀ (r : BillingRepository u) env a e, (r.postJournalEntry env a).2 = .error e →
        (r.postJournalEntry env a).1.journals = r.journals :=
  ⟨fun _ h => ⟨reach_balanced h, totalDebits_eq_totalCredits (reach_balanced h)⟩,
    fun _ _ _ _ h => journals_of_error h⟩

/-! ## One invoice and its payment -/

/-- The numbers of a quiet day. -/
def quietDay : BillingInput where
  now := 0
  invoiceNumber := "INV-1"
  gatewayRef := "PAY-1"
  txNumber := "TXN-1"

/-- An invoice of a hundred cents. -/
def hundredCents : CreateInvoiceDTO where
  tenantId := "T-1"
  orderId := "O-1"
  customerId := "C-1"
  subtotalCents := 100
  taxCents := 0
  items := [⟨"Storage", 1, 100, by decide, by decide⟩]
  dueDateDays := 30
  subtotalCents_pos := by decide
  taxCents_nonneg := by decide
  items_min := by decide
  dueDateDays_pos := by decide

/-- An unbalanced adjustment. -/
def oneSided : JournalEntry where
  tenantId := "T-1"
  referenceType := .ADJUSTMENT
  referenceId := "A-1"
  description := "Adjustment"
  lines := [⟨"cash", "Cash", 5000, 0, "Debit"⟩, ⟨"rev", "Revenue", 0, 4500, "Credit"⟩]

/-- An invoice whose posting is interleaved with a rejected adjustment. -/
theorem ledger_balanced_hundredCents :
    (∃ c, Reach (billingProgram .unary) Admitted (startConfig .unary ["T-1"]) c ∧
      c.heap.journals.length = 1 ∧ c.settled.length = 2 ∧ (∀ j ∈ c.heap.journals, j.Balanced) ∧
        ∀ tenantId, c.heap.totalDebits tenantId = c.heap.totalCredits tenantId) ∧
      ((new .unary).postJournalEntry quietDay oneSided).1.journals = (new .unary).journals := by
  have hrun : ((billingProgram .unary).exec Admitted (startConfig .unary ["T-1"])
      [.call (.createInvoice hundredCents) quietDay, .resume 0 quietDay,
        .call (.postJournalEntry oneSided) quietDay, .resume 0 quietDay, .resume 0 quietDay]).any
      fun c => decide (c.heap.journals.length = 1 ∧ c.settled.length = 2) := by decide
  obtain ⟨c, hc, hj, hl⟩ := Reach.exists_of_exec hrun
  obtain ⟨hb, ht⟩ := (ledger_balanced .unary ["T-1"]).1 c hc
  exact ⟨⟨c, hc, hj, hl, hb, ht⟩, (ledger_balanced .unary []).2 _ _ _ _ rfl⟩

end Logix.Billing
