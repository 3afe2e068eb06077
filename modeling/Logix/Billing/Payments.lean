import Logix.Billing.Receivables

/-!
# The payments of an invoice

A payment is recorded in one segment and added to its invoice in the next one.

* `recorded`, `applied`, `BillingCall.unapplied`: what is recorded for an invoice id, what its
  invoice counts as paid, and what a suspended request has recorded and not added yet;
* `InvoiceEntity.Settles`: the amount due and the status follow the amount paid;
* `AppliesTo`: what every segment does to these;
* **`payments_applied`**: in every interleaving no payment is lost.
-/

namespace Logix.Billing

open Async BillingRepository

variable {u : UuidSource}

/-- The payments recorded for an invoice id. -/
def BillingRepository.recorded (r : BillingRepository u) (invoiceId : String) : ℤ :=
  r.payments.total fun p => if p.invoiceId = invoiceId then p.amount.1 else 0

/-- What the invoice counts as paid; nothing when it is not there. -/
def BillingRepository.applied (r : BillingRepository u) (invoiceId : String) : ℤ :=
  ((r.invoices.get invoiceId).map InvoiceEntity.amountPaidCents).getD 0

/-- What a suspended request has recorded and not added to the invoice. -/
def BillingCall.unapplied (invoiceId : String) : BillingCall → ℤ
  | .paymentStored dto invoice _ => if invoice = invoiceId then dto.amountCents else 0
  | _ => 0

/-! ## Invoices -/

/-- **The amount due and the status follow the amount paid.** -/
structure InvoiceEntity.Settles (i : InvoiceEntity) : Prop where
  paid_nonneg : 0 ≤ i.amountPaidCents
  due : i.amountDueCents = max 0 (i.totalCents - i.amountPaidCents)
  paid_iff : i.status = .PAID ↔ 0 < i.amountPaidCents ∧ i.amountDueCents = 0
  part_iff : i.status = .PARTIALLY_PAID ↔ 0 < i.amountPaidCents ∧ 0 < i.amountDueCents

theorem settles_newInvoice (dto : CreateInvoiceDTO) (env : BillingInput) (lineIds : ℕ → String)
    (id : String) : (newInvoice dto env lineIds id).Settles where
  paid_nonneg := le_refl 0
  due := (sound_newInvoice dto env lineIds id).2
  paid_iff := by simp [newInvoice]
  part_iff := by simp [newInvoice]

theorem InvoiceEntity.Settles.pay {i : InvoiceEntity} (h : i.Settles) {amountCents : ℤ}
    (hpos : 0 < amountCents) (now : JsDate) : (i.pay amountCents now).Settles := by
  have hpaid : 0 < i.amountPaidCents + amountCents := by
    have := h.paid_nonneg
    omega
  have hdue : 0 ≤ max 0 (i.totalCents - (i.amountPaidCents + amountCents)) := le_max_left _ _
  unfold InvoiceEntity.pay
  simp only
  split_ifs with hzero
  · refine ⟨hpaid.le, rfl, ?_, ?_⟩
    · exact iff_of_true rfl ⟨hpaid, hzero⟩
    · refine iff_of_false InvoiceStatus.noConfusion fun hpart => ?_
      exact absurd hzero (ne_of_gt hpart.2)
  · refine ⟨hpaid.le, rfl, ?_, ?_⟩
    · exact iff_of_false InvoiceStatus.noConfusion fun hfull => hzero hfull.2
    · exact iff_of_true rfl ⟨hpaid, lt_of_le_of_ne hdue (Ne.symm hzero)⟩

theorem amountPaidCents_pay (i : InvoiceEntity) (amountCents : ℤ) (now : JsDate) :
    (i.pay amountCents now).amountPaidCents = i.amountPaidCents + amountCents := by
  unfold InvoiceEntity.pay
  simp only
  split_ifs <;> rfl

theorem id_pay (i : InvoiceEntity) (amountCents : ℤ) (now : JsDate) :
    (i.pay amountCents now).id = i.id := by
  unfold InvoiceEntity.pay
  simp only
  split_ifs <;> rfl

/-! ## Segments -/

/-- What a suspended request relies on. -/
def BillingCall.Refers (r : BillingRepository u) : BillingCall → Prop
  | .paymentInvoiceFound dto invoice =>
    ∀ ref ∈ invoice, ref = dto.invoiceId ∧ (r.invoices.get ref).isSome
  | .paymentStored _ invoice _ => (r.invoices.get invoice).isSome
  | _ => True

/-- **Invoices and payments are sound.** -/
structure TablesSound (r : BillingRepository u) : Prop where
  keyed : ∀ ref i, r.invoices.get ref = some i → i.id = ref
  settles : ∀ ref i, r.invoices.get ref = some i → i.Settles
  positive : ∀ id p, r.payments.get id = some p → 0 < p.amount.1

/-- **What the segment of `k` does**: what it records or leaves to be added is what it adds to the
invoices. -/
structure AppliesTo (r : BillingRepository u) (k : BillingCall)
    (s : Segment (BillingRepository u) BillingCall BillingOutcome) : Prop where
  sound : TablesSound r → TablesSound s.heap
  keeps : ∀ ref, (r.invoices.get ref).isSome → (s.heap.invoices.get ref).isSome
  paid : ∀ invoiceId, s.heap.applied invoiceId +
    (s.waiting.map (BillingCall.unapplied invoiceId)).sum + r.recorded invoiceId =
      r.applied invoiceId + k.unapplied invoiceId + s.heap.recorded invoiceId
  refers : ∀ k' ∈ s.waiting, k'.Refers s.heap

variable {r : BillingRepository u}

theorem applies_of_same {k : BillingCall}
    {s : Segment (BillingRepository u) BillingCall BillingOutcome}
    (hi : s.heap.invoices = r.invoices) (hp : s.heap.payments = r.payments)
    (hw : ∀ invoiceId, (s.waiting.map (BillingCall.unapplied invoiceId)).sum =
      k.unapplied invoiceId)
    (hrefers : ∀ k' ∈ s.waiting, k'.Refers s.heap) : AppliesTo r k s where
  sound h := by
    refine ⟨fun ref i hr => h.keyed ref i ?_, fun ref i hr => h.settles ref i ?_,
      fun id p hr => h.positive id p ?_⟩
    · rwa [hi] at hr
    · rwa [hi] at hr
    · rwa [hp] at hr
  keeps ref h := by rwa [hi]
  paid invoiceId := by
    unfold applied recorded
    rw [hi, hp, hw]
  refers := hrefers

theorem applies_postEntry {k next : BillingCall} (env : BillingInput)
    (entry : Option JournalEntry) (hk : ∀ invoiceId, k.unapplied invoiceId = 0)
    (hnext : ∀ invoiceId, next.unapplied invoiceId = 0)
    (hrefers : ∀ r' : BillingRepository u, next.Refers r') :
    AppliesTo r k (postEntry r env entry next) := by
  have hwaiting := waiting_postEntry r env entry next
  have hsum : ∀ invoiceId, ((postEntry r env entry next).waiting.map
      (BillingCall.unapplied invoiceId)).sum = k.unapplied invoiceId := by
    intro invoiceId
    rw [hk]
    rcases hwaiting with hw | hw <;> simp [hw, hnext]
  have hready : ∀ k' ∈ (postEntry r env entry next).waiting,
      k'.Refers (postEntry r env entry next).heap := fun k' hk' => by
    rw [eq_of_mem_waiting_postEntry hk']
    exact hrefers _
  cases entry with
  | none => exact applies_of_same rfl rfl hsum hready
  | some a =>
    obtain ⟨-, hi, hp, -⟩ := postJournalEntry_cases r env a
    have hheap := heap_postEntry r env a next
    exact applies_of_same (by rw [hheap, hi]) (by rw [hheap, hp]) hsum hready

theorem applies_createInvoice (dto : CreateInvoiceDTO) (env : BillingInput) :
    AppliesTo r (.createInvoice dto) ((billingProgram u).run (.createInvoice dto) env r) := by
  have hfresh : u.draw (r.draw dto.items.length).draws ∉ r.invoices.keys :=
    (r.draw dto.items.length).invoices_issued.fresh le_rfl
  have hget : ∀ ref, ((billingProgram u).run (.createInvoice dto) env r).heap.invoices.get ref =
      if ref = u.draw (r.draw dto.items.length).draws then
        some (newInvoice dto env (fun i => u.draw (r.draws + i)) ref)
      else r.invoices.get ref := by
    intro ref
    refine (JsMap.get_set _ _ _ ref).trans ?_
    split_ifs with hkey
    · rw [hkey]
    · rfl
  refine ⟨fun h => ⟨fun ref i hr => ?_, fun ref i hr => ?_, h.positive⟩, fun ref h => ?_,
    fun invoiceId => ?_, fun k' hk' => ?_⟩
  · rw [hget] at hr
    split_ifs at hr with hkey
    · cases hr
      rfl
    · exact h.keyed ref i hr
  · rw [hget] at hr
    split_ifs at hr with hkey
    · cases hr
      exact settles_newInvoice _ _ _ _
    · exact h.settles ref i hr
  · rw [hget]
    split_ifs
    · rfl
    · exact h
  · have happlied : ((billingProgram u).run (.createInvoice dto) env r).heap.applied invoiceId =
        r.applied invoiceId := by
      unfold applied
      rw [hget]
      split_ifs with hkey
      · rw [hkey, JsMap.get_eq_none_iff.mpr hfresh]
        rfl
      · rfl
    rw [happlied]
    rfl
  · rw [List.mem_singleton.mp hk']
    trivial

theorem applies_recordPayment (dto : ProcessPaymentDTO) (env : BillingInput)
    (hinvoice : (r.invoices.get dto.invoiceId).isSome) :
    AppliesTo r (.paymentInvoiceFound dto (some dto.invoiceId))
      ((billingProgram u).run (.paymentInvoiceFound dto (some dto.invoiceId)) env r) := by
  have hfresh : u.draw r.draws ∉ r.payments.keys := r.payments_issued.fresh le_rfl
  refine ⟨fun h => ⟨h.keyed, h.settles, fun id p hp => ?_⟩, fun _ h => h, fun invoiceId => ?_,
    fun k' hk' => ?_⟩
  · have hget := (JsMap.get_set r.payments (u.draw r.draws) _ id).symm.trans hp
    split_ifs at hget
    · rw [← Option.some.inj hget]
      exact dto.amountCents_pos
    · exact h.positive id p hget
  · have hrecorded : ((billingProgram u).run (.paymentInvoiceFound dto (some dto.invoiceId)) env
        r).heap.recorded invoiceId =
          r.recorded invoiceId + if dto.invoiceId = invoiceId then dto.amountCents else 0 :=
      JsMap.total_set_of_fresh hfresh _ _
    have happlied : ((billingProgram u).run (.paymentInvoiceFound dto (some dto.invoiceId)) env
        r).heap.applied invoiceId = r.applied invoiceId := rfl
    rw [hrecorded, happlied]
    change _ + ([_].map (BillingCall.unapplied invoiceId)).sum + _ = _ + 0 + _
    rw [List.map_singleton, List.sum_singleton, BillingCall.unapplied]
    omega
  · rw [List.mem_singleton.mp hk']
    exact hinvoice

/-- **The read and the write of an invoice are one segment**, so that it gets the whole payment. -/
theorem applies_paymentStored (dto : ProcessPaymentDTO) {invoice : String}
    (hinvoice : (r.invoices.get invoice).isSome) (paymentId : String) (env : BillingInput) :
    AppliesTo r (.paymentStored dto invoice paymentId)
      ((billingProgram u).run (.paymentStored dto invoice paymentId) env r) := by
  obtain ⟨i, hi⟩ := Option.isSome_iff_exists.mp hinvoice
  refine ⟨fun h => ⟨fun ref i hr => ?_, fun ref i hr => ?_, h.positive⟩, fun ref h => ?_,
    fun invoiceId => ?_, fun k' hk' => ?_⟩
  · obtain ⟨i', hi', rfl⟩ := JsMap.exists_of_get_modify hr
    split_ifs
    · rw [id_pay]
      exact h.keyed ref i' hi'
    · exact h.keyed ref i' hi'
  · obtain ⟨i', hi', rfl⟩ := JsMap.exists_of_get_modify hr
    split_ifs
    · exact (h.settles ref i' hi').pay dto.amountCents_pos _
    · exact h.settles ref i' hi'
  · exact (JsMap.isSome_get_modify r.invoices invoice _ ref).trans h
  · have happlied : ((billingProgram u).run (.paymentStored dto invoice paymentId) env
        r).heap.applied invoiceId =
          r.applied invoiceId + if invoice = invoiceId then dto.amountCents else 0 := by
      change ((JsMap.get (r.invoices.modify invoice _) invoiceId).map _).getD 0 = _
      rw [applied, JsMap.get_modify]
      by_cases hkey : invoiceId = invoice
      · subst hkey
        simp [hi, amountPaidCents_pay]
      · simp [hkey, Ne.symm hkey]
    have hrecorded : ((billingProgram u).run (.paymentStored dto invoice paymentId) env
        r).heap.recorded invoiceId = r.recorded invoiceId := rfl
    rw [happlied, hrecorded]
    change _ + (0 + 0) + _ = _ + (if invoice = invoiceId then dto.amountCents else 0) + _
    rw [add_zero, add_zero]
  · rw [List.mem_singleton.mp hk']
    trivial

theorem applies_run {k : BillingCall} (hk : k.Refers r) (env : BillingInput) :
    AppliesTo r k ((billingProgram u).run k env r) := by
  cases k with
  | createInvoice dto => exact applies_createInvoice dto env
  | invoiceStored dto invoiceNumber invoiceId =>
    refine applies_of_same rfl rfl (fun _ => List.sum_singleton) fun k' hk' => ?_
    rw [List.mem_singleton.mp hk']
    trivial
  | invoiceAccounts dto invoiceNumber invoiceId accounts =>
    exact applies_postEntry env _ (fun _ => rfl) (fun _ => rfl) fun _ => trivial
  | invoicePosted invoiceId =>
    exact applies_of_same rfl rfl (fun _ => rfl) fun _ h => absurd h List.not_mem_nil
  | processPayment dto =>
    refine applies_of_same rfl rfl (fun _ => List.sum_singleton) fun k' hk' => ?_
    rw [List.mem_singleton.mp hk']
    intro ref href
    obtain ⟨i, hi, rfl⟩ := Option.map_eq_some_iff.mp href
    exact ⟨rfl, Option.isSome_iff_exists.mpr ⟨i, hi⟩⟩
  | paymentInvoiceFound dto invoice =>
    cases invoice with
    | none => exact applies_of_same rfl rfl (fun _ => rfl) fun _ h => absurd h List.not_mem_nil
    | some invoice =>
      obtain ⟨rfl, hinvoice⟩ := hk invoice rfl
      exact applies_recordPayment dto env hinvoice
  | paymentStored dto invoice paymentId => exact applies_paymentStored dto hk paymentId env
  | paymentAccounts dto invoice paymentId accounts =>
    exact applies_postEntry env _ (fun _ => rfl) (fun _ => rfl) fun _ => trivial
  | paymentPosted invoice paymentId =>
    exact applies_of_same rfl rfl (fun _ => rfl) fun _ h => absurd h List.not_mem_nil
  | postJournalEntry a =>
    obtain ⟨-, hi, hp, -⟩ := postJournalEntry_cases r env a
    have hwaiting := waiting_run_postJournalEntry r env a
    have hheap := heap_run_postJournalEntry r env a
    refine applies_of_same (by rw [hheap, hi]) (by rw [hheap, hp]) (fun _ => ?_) fun k' hk' => ?_
    · rw [hwaiting]
      rfl
    · rw [hwaiting] at hk'
      exact absurd hk' List.not_mem_nil

/-! ## Runs -/

/-- **The invariant**: what an invoice counts as paid and what waits to be added is what is recorded
for it. -/
structure PaymentsAgree (c : BillingConfig u) : Prop where
  sound : TablesSound c.heap
  paid : ∀ invoiceId, c.heap.applied invoiceId +
    (c.inFlight.map (BillingCall.unapplied invoiceId)).sum = c.heap.recorded invoiceId
  refers : ∀ k ∈ c.inFlight, k.Refers c.heap

theorem BillingCall.Refers.mono {r' : BillingRepository u}
    (hkeep : ∀ ref, (r.invoices.get ref).isSome → (r'.invoices.get ref).isSome)
    {k : BillingCall} (h : k.Refers r) : k.Refers r' := by
  cases k with
  | paymentInvoiceFound dto invoice => exact fun ref href => (h ref href).imp_right (hkeep ref)
  | paymentStored dto invoice paymentId => exact hkeep invoice h
  | _ => exact h

theorem PaymentsAgree.after {c : BillingConfig u} {a : Act BillingCall BillingInput}
    {k : BillingCall} {env : BillingInput} {rest : List BillingCall} (h : PaymentsAgree c)
    (hok : Admitted c a) (hr : Runs c a k env rest) :
    PaymentsAgree (c.after ((billingProgram u).run k env c.heap) rest) := by
  have hk : k.Refers c.heap := by
    rcases hr.call_or_mem with rfl | hk
    · cases k <;> first | exact False.elim hok | trivial
    · exact h.refers k hk
  have hnew : ∀ invoiceId, a = .call k env → k.unapplied invoiceId = 0 := by
    rintro invoiceId rfl
    cases k <;> first | rfl | exact False.elim hok
  obtain ⟨hsound, hkeep, hpaid, hrefers⟩ := applies_run hk env
  refine ⟨hsound h.sound, fun invoiceId => ?_, fun k' hk' => ?_⟩
  · have hsum := hr.sum_map (BillingCall.unapplied invoiceId) (hnew invoiceId)
    have hold := h.paid invoiceId
    have hseg := hpaid invoiceId
    simp only [Config.after, List.map_append, List.sum_append]
    omega
  · rcases List.mem_append.mp hk' with hk' | hk'
    · exact (h.refers k' (hr.mem_rest hk')).mono hkeep
    · exact hrefers k' hk'

theorem payments_seeded (u : UuidSource) (tenants : List String) :
    (seeded u tenants).payments = .empty :=
  seeded_same BillingRepository.payments (fun _ _ => rfl) tenants

theorem paymentsAgree_start (u : UuidSource) (tenants : List String) :
    PaymentsAgree (startConfig u tenants) where
  sound := by
    refine ⟨fun ref i h => ?_, fun ref i h => ?_, fun id p h => ?_⟩
    · rw [startConfig, tables_seeded] at h
      cases h
    · rw [startConfig, tables_seeded] at h
      cases h
    · rw [startConfig, payments_seeded] at h
      cases h
  paid invoiceId := by
    rw [startConfig, applied, recorded, tables_seeded, payments_seeded]
    rfl
  refers _ h := absurd h List.not_mem_nil

theorem reach_paymentsAgree {tenants : List String} {c : BillingConfig u}
    (h : Reach (billingProgram u) Admitted (startConfig u tenants) c) : PaymentsAgree c :=
  h.invariant (paymentsAgree_start u tenants) fun _ _ _ _ _ hI hok hr => hI.after hok hr

/-- The payments recorded for an invoice. -/
def BillingRepository.paymentsOf (r : BillingRepository u) (invoiceId : String) :
    List PaymentTransactionEntity := r.payments.values.filter fun p => p.invoiceId = invoiceId

theorem recorded_eq (r : BillingRepository u) (invoiceId : String) :
    r.recorded invoiceId = ((r.paymentsOf invoiceId).map fun p => p.amount.1).sum := by
  unfold recorded paymentsOf JsMap.total
  induction r.payments.values with
  | nil => rfl
  | cons p ps ih =>
    rw [List.map_cons, List.sum_cons, ih, List.filter_cons]
    by_cases hp : p.invoiceId = invoiceId <;> simp [hp]

theorem recorded_pos_iff (h : TablesSound r) (invoiceId : String) :
    0 < r.recorded invoiceId ↔ r.paymentsOf invoiceId ≠ [] := by
  have hpos : ∀ a ∈ (r.paymentsOf invoiceId).map fun p => p.amount.1, 0 < a := by
    intro a ha
    obtain ⟨p, hp, rfl⟩ := List.mem_map.mp ha
    obtain ⟨id, hid⟩ := JsMap.exists_get_of_mem_values (List.mem_of_mem_filter hp)
    exact h.positive id p hid
  rw [recorded_eq]
  constructor
  · rintro hsum hnil
    rw [hnil] at hsum
    exact absurd hsum (lt_irrefl 0)
  · intro hne
    exact List.sum_pos _ hpos (by simpa using hne)

/-- **No payment is lost.** In every interleaving of invoices, payments and journal entries,
whenever no request is in flight, an invoice counts as paid the sum of its recorded payments, and
its amount due and its status follow from it. -/
theorem payments_applied (u : UuidSource) (tenants : List String) (c : BillingConfig u)
    (h : Reach (billingProgram u) Admitted (startConfig u tenants) c) (hq : c.inFlight = [])
    (i : InvoiceEntity) (hi : i ∈ c.heap.invoices.values) :
    i.amountPaidCents = ((c.heap.paymentsOf i.id).map fun p => p.amount.1).sum ∧
      i.amountDueCents = max 0 (i.totalCents - i.amountPaidCents) ∧
      (i.status = .PAID ↔ c.heap.paymentsOf i.id ≠ [] ∧ i.amountDueCents = 0) ∧
      (i.status = .PARTIALLY_PAID ↔ c.heap.paymentsOf i.id ≠ [] ∧ 0 < i.amountDueCents) := by
  obtain ⟨hsound, hpaid, -⟩ := reach_paymentsAgree h
  obtain ⟨ref, href⟩ := JsMap.exists_get_of_mem_values hi
  obtain rfl := hsound.keyed ref i href
  have hrecorded : i.amountPaidCents = c.heap.recorded i.id := by
    have hagree := hpaid i.id
    rw [hq, List.map_nil, List.sum_nil, add_zero, applied, href] at hagree
    exact hagree
  obtain ⟨-, hdue, hfull, hpart⟩ := hsound.settles i.id i href
  rw [hrecorded, recorded_pos_iff hsound] at hfull hpart
  exact ⟨hrecorded.trans (recorded_eq _ _), hdue, hfull, hpart⟩

/-- Two payments that overlap on one invoice: both are found, recorded and added in turns. -/
def overlappingPayments : List (Act BillingCall BillingInput) :=
  [.call (.createInvoice hundredCents) quietDay, .resume 0 quietDay, .resume 0 quietDay,
    .resume 0 quietDay, .call (.processPayment (payment 40 (by decide))) quietDay,
    .call (.processPayment (payment 60 (by decide))) quietDay, .resume 0 quietDay,
    .resume 0 quietDay, .resume 0 quietDay, .resume 0 quietDay, .resume 0 quietDay,
    .resume 0 quietDay, .resume 0 quietDay, .resume 0 quietDay]

theorem payments_applied_overlapping :
    ∃ c, Reach (billingProgram .unary) Admitted (startConfig .unary []) c ∧ c.inFlight = [] ∧
      ∃ i ∈ c.heap.invoices.values, i.amountPaidCents = 100 ∧ i.status = .PAID ∧
        i.amountPaidCents = ((c.heap.paymentsOf i.id).map fun p => p.amount.1).sum ∧
        i.amountDueCents = max 0 (i.totalCents - i.amountPaidCents) ∧
        (i.status = .PAID ↔ c.heap.paymentsOf i.id ≠ [] ∧ i.amountDueCents = 0) ∧
        (i.status = .PARTIALLY_PAID ↔ c.heap.paymentsOf i.id ≠ [] ∧ 0 < i.amountDueCents) := by
  have hrun : ((billingProgram .unary).exec Admitted (startConfig .unary [])
      overlappingPayments).any fun c => decide (c.inFlight = [] ∧
        ∃ i ∈ c.heap.invoices.values, i.amountPaidCents = 100 ∧ i.status = .PAID) := by decide
  obtain ⟨c, hc, hq, i, hi, hpaid, hstatus⟩ := Reach.exists_of_exec hrun
  exact ⟨c, hc, hq, i, hi, hpaid, hstatus, payments_applied .unary [] c hc hq i hi⟩

end Logix.Billing
