import Logix.Async.Outline
import Logix.Billing.Receivables
import Logix.Spec.Ownership

/-!
# Are the invoices of a tenant its own?

`processPayment` looks its invoice up by id, and posts the payment under the tenant of the call.

* `tenantProgram`: the service, each call with the tenant of its DTO; `TenantRequest`: the calls
  that a run starts; `OwnInvoices`: no payment is on an invoice of another tenant;
* `OwnReference`: what a journal refers to belongs to its tenant;
* `BillingIsolated`: no step changes an invoice of another tenant, and the journals refer to
  invoices and payments of their tenants;
* `billingOutline`: what a call that acts for a tenant relies on, and may do;
* **`billing_isolated`**: in every run on own invoices the tenants are isolated, and the first
  payment that is on another one changes the invoice of another tenant;
* `foreign_invoice_paid`: a tenant pays an invoice of another one.
-/

namespace Logix.Billing

open Async Spec BillingRepository

variable {u : UuidSource}

/-- The service, with the tenant of every call. -/
def tenantProgram (u : UuidSource) : Program (BillingRepository u) (String × BillingCall)
    BillingInput (String × BillingOutcome) :=
  .onBehalf fun _ => billingProgram u

/-- The configurations of the service. -/
abbrev TenantConfig (u : UuidSource) : Type :=
  Config (BillingRepository u) (String × BillingCall) (String × BillingOutcome)

/-- No request is in flight, on the default accounts of some tenants. -/
def tenantStart (u : UuidSource) (tenants : List String) : TenantConfig u :=
  ⟨seeded u tenants, [], []⟩

/-- A run starts invoices and payments of any tenants, and continues anything. -/
def TenantRequest (_ : TenantConfig u) : Act (String × BillingCall) BillingInput → Prop
  | .call (tenantId, .createInvoice dto) _ => dto.tenantId = tenantId
  | .call (tenantId, .processPayment dto) _ => dto.tenantId = tenantId
  | .call _ _ => False
  | .resume _ _ => True

/-- **No payment is on an invoice of another tenant.** -/
def OwnInvoices (c : TenantConfig u) : Act (String × BillingCall) BillingInput → Prop
  | .call (tenantId, .processPayment dto) _ =>
    ∀ i ∈ c.heap.invoices.get dto.invoiceId, i.tenantId = tenantId
  | _ => True

/-- A step of a run on own invoices. -/
def OwnStep (c : TenantConfig u) (a : Act (String × BillingCall) BillingInput) : Prop :=
  TenantRequest c a ∧ OwnInvoices c a

/-- A payment of a tenant on one of its invoices. -/
def OwnPayment (r : BillingRepository u) (tenantId paymentId : String) : Prop :=
  ∃ p ∈ r.payments.get paymentId, p.tenantId = tenantId ∧
    Owned InvoiceEntity.tenantId r.invoices tenantId p.invoiceId

/-- **What a reference stands for belongs to the tenant**: an invoice, or a payment with the
invoice that it pays. -/
def OwnReference (r : BillingRepository u) (tenantId : String) : ReferenceType → String → Prop
  | .INVOICE, referenceId => Owned InvoiceEntity.tenantId r.invoices tenantId referenceId
  | .PAYMENT, referenceId => OwnPayment r tenantId referenceId
  | .ORDER, _ | .ADJUSTMENT, _ => True

/-- Every journal refers to what belongs to its tenant. -/
def OwnJournals (r : BillingRepository u) : Prop :=
  ∀ j ∈ r.journals, OwnReference r j.tenantId j.referenceType j.referenceId

/-- **The tenants are isolated**: whatever call runs next, it changes no invoice of another tenant
than its own, and every journal refers to invoices and payments of its tenant. -/
structure BillingIsolated (c : TenantConfig u) : Prop where
  unchanged : ∀ a tenantId k env rest, TenantRequest c a → Runs c a (tenantId, k) env rest →
    SparesOthers InvoiceEntity.tenantId tenantId c.heap.invoices
      (c.after ((tenantProgram u).run (tenantId, k) env c.heap) rest).heap.invoices
  journals : OwnJournals c.heap

theorem tenantRequest_resume (c : TenantConfig u) (n : ℕ) (env : BillingInput) :
    TenantRequest c (.resume n env) := trivial

instance : ∀ (c : TenantConfig u) (a : Act (String × BillingCall) BillingInput),
    Decidable (TenantRequest c a)
  | _, .call (_, .createInvoice dto) _ => inferInstanceAs (Decidable (dto.tenantId = _))
  | _, .call (_, .processPayment dto) _ => inferInstanceAs (Decidable (dto.tenantId = _))
  | _, .call (_, .postJournalEntry _) _ | _, .call (_, .invoiceStored ..) _
  | _, .call (_, .invoiceAccounts ..) _ | _, .call (_, .invoicePosted _) _
  | _, .call (_, .paymentInvoiceFound ..) _ | _, .call (_, .paymentStored ..) _
  | _, .call (_, .paymentAccounts ..) _ | _, .call (_, .paymentPosted ..) _ => .isFalse id
  | _, .resume _ _ => .isTrue trivial

instance : ∀ (c : TenantConfig u) (a : Act (String × BillingCall) BillingInput),
    Decidable (OwnInvoices c a)
  | _, .call (_, .processPayment _) _ => inferInstanceAs (Decidable (∀ i ∈ _, _))
  | _, .call (_, .createInvoice _) _ | _, .call (_, .postJournalEntry _) _
  | _, .call (_, .invoiceStored ..) _ | _, .call (_, .invoiceAccounts ..) _
  | _, .call (_, .invoicePosted _) _ | _, .call (_, .paymentInvoiceFound ..) _
  | _, .call (_, .paymentStored ..) _ | _, .call (_, .paymentAccounts ..) _
  | _, .call (_, .paymentPosted ..) _ | _, .resume _ _ => .isTrue trivial

instance (c : TenantConfig u) (a : Act (String × BillingCall) BillingInput) :
    Decidable (OwnStep c a) := inferInstanceAs (Decidable (_ ∧ _))

/-! ## The outline -/

/-- What a segment of a tenant may do: act on the invoices for that tenant, and add payments. -/
structure BillsFor (tenantId : String) (r r' : BillingRepository u) : Prop where
  invoices : ActsFor InvoiceEntity.tenantId tenantId r.invoices r'.invoices
  payments : ∀ id p, r.payments.get id = some p → r'.payments.get id = some p

section Grows

variable {tenantId tenantId' : String} {r r' : BillingRepository u}

theorem BillsFor.refl (tenantId : String) (r : BillingRepository u) : BillsFor tenantId r r where
  invoices := .refl _ _ _
  payments _ _ hp := hp

theorem OwnPayment.mono (hr : BillsFor tenantId' r r') {paymentId : String}
    (h : OwnPayment r tenantId paymentId) : OwnPayment r' tenantId paymentId := by
  obtain ⟨p, hp, howner, hinvoice⟩ := h
  exact ⟨p, hr.payments _ p hp, howner, hinvoice.mono hr.invoices.keeps⟩

theorem OwnReference.mono (hr : BillsFor tenantId' r r') {type : ReferenceType} {id : String}
    (h : OwnReference r tenantId type id) : OwnReference r' tenantId type id := by
  cases type with
  | INVOICE => exact Owned.mono hr.invoices.keeps h
  | PAYMENT => exact OwnPayment.mono hr h
  | ORDER => trivial
  | ADJUSTMENT => trivial

theorem OwnJournals.mono (hr : BillsFor tenantId' r r') (h : OwnJournals r)
    (hnew : ∀ j ∈ r'.journals, j ∈ r.journals ∨
      OwnReference r' j.tenantId j.referenceType j.referenceId) : OwnJournals r' := by
  intro j hj
  rcases hnew j hj with hold | hown
  · exact (h j hold).mono hr
  · exact hown

end Grows

/-- What a suspended call relies on when it acts for tenant `tenantId`. -/
def BillingCall.ActsOn (tenantId : String) (r : BillingRepository u) : BillingCall → Prop
  | .invoiceStored dto _ invoiceId | .invoiceAccounts dto _ invoiceId _ =>
    dto.tenantId = tenantId ∧ Owned InvoiceEntity.tenantId r.invoices tenantId invoiceId
  | .paymentInvoiceFound dto invoice => dto.tenantId = tenantId ∧
    ∀ ref ∈ invoice, ref = dto.invoiceId ∧ Owned InvoiceEntity.tenantId r.invoices tenantId ref
  | .paymentStored dto invoice paymentId | .paymentAccounts dto invoice paymentId _ =>
    dto.tenantId = tenantId ∧ Owned InvoiceEntity.tenantId r.invoices tenantId invoice ∧
      OwnPayment r tenantId paymentId
  | .invoicePosted _ | .paymentPosted _ _ => True
  | .createInvoice _ | .processPayment _ | .postJournalEntry _ => False

theorem BillingCall.ActsOn.mono {tenantId tenantId' : String} {r r' : BillingRepository u}
    (hr : BillsFor tenantId' r r') {k : BillingCall} (hk : k.ActsOn tenantId r) :
    k.ActsOn tenantId r' := by
  cases k with
  | invoiceStored dto invoiceNumber invoiceId => exact ⟨hk.1, hk.2.mono hr.invoices.keeps⟩
  | invoiceAccounts dto invoiceNumber invoiceId accounts =>
    exact ⟨hk.1, hk.2.mono hr.invoices.keeps⟩
  | paymentInvoiceFound dto invoice =>
    exact ⟨hk.1, fun ref href => ⟨(hk.2 ref href).1, (hk.2 ref href).2.mono hr.invoices.keeps⟩⟩
  | paymentStored dto invoice paymentId =>
    exact ⟨hk.1, hk.2.1.mono hr.invoices.keeps, hk.2.2.mono hr⟩
  | paymentAccounts dto invoice paymentId accounts =>
    exact ⟨hk.1, hk.2.1.mono hr.invoices.keeps, hk.2.2.mono hr⟩
  | _ => exact hk

/-- **The outline of the service.** -/
def billingOutline (u : UuidSource) :
    Outline (BillingRepository u) (String × BillingCall) (String × BillingOutcome) where
  guarantee k r r' := BillsFor k.1 r r'
  inv := OwnJournals
  assertion k r := k.2.ActsOn k.1 r
  outcome _ := True
  stable _ _ _ _ hr hk := hk.mono hr

/-- The part of the outline for one tenant. -/
def billingOutlineOf (u : UuidSource) (tenantId : String) :
    Outline (BillingRepository u) BillingCall BillingOutcome :=
  (billingOutline u).comap (Prod.mk tenantId) (Prod.mk tenantId)

/-! ## Segments -/

theorem invoiceEntry_reference {dto : CreateInvoiceDTO} {invoiceNumber invoiceId : String}
    {accounts : List ChartOfAccountEntity} {a : JournalEntry}
    (h : invoiceEntry dto invoiceNumber invoiceId accounts = some a) :
    a.tenantId = dto.tenantId ∧ a.referenceType = .INVOICE ∧ a.referenceId = invoiceId := by
  obtain ⟨ar, -, h⟩ := Option.bind_eq_some_iff.mp h
  obtain ⟨rev, -, h⟩ := Option.bind_eq_some_iff.mp h
  cases h
  exact ⟨rfl, rfl, rfl⟩

theorem paymentEntry_reference {dto : ProcessPaymentDTO} {invoiceNumber paymentId : String}
    {accounts : List ChartOfAccountEntity} {a : JournalEntry}
    (h : paymentEntry dto invoiceNumber paymentId accounts = some a) :
    a.tenantId = dto.tenantId ∧ a.referenceType = .PAYMENT ∧ a.referenceId = paymentId := by
  obtain ⟨cash, -, h⟩ := Option.bind_eq_some_iff.mp h
  obtain ⟨ar, -, h⟩ := Option.bind_eq_some_iff.mp h
  cases h
  exact ⟨rfl, rfl, rfl⟩

theorem pay_fields (amountCents : ℤ) (now : JsDate) (i : InvoiceEntity) :
    (i.pay amountCents now).tenantId = i.tenantId ∧
      (i.pay amountCents now).amountPaidCents = i.amountPaidCents + amountCents := by
  simp only [InvoiceEntity.pay]
  split_ifs <;> exact ⟨rfl, rfl⟩

theorem mem_journals_postJournalEntry {r : BillingRepository u} {env : BillingInput}
    {a : JournalEntry} {j : JournalTransactionEntity}
    (h : j ∈ (r.postJournalEntry env a).1.journals) : j ∈ r.journals ∨
      j.tenantId = a.tenantId ∧ j.referenceType = a.referenceType ∧
        j.referenceId = a.referenceId := by
  unfold BillingRepository.postJournalEntry at h
  simp only at h
  split_ifs at h
  · exact Or.inl h
  · rcases List.mem_append.mp h with h | h
    · exact Or.inl h
    · rw [List.mem_singleton.mp h]
      exact Or.inr ⟨rfl, rfl, rfl⟩

section Segments

variable {tenantId : String} {r : BillingRepository u} {env : BillingInput}

theorem billsFor_postJournalEntry (tenantId : String) (r : BillingRepository u)
    (env : BillingInput) (a : JournalEntry) :
    BillsFor tenantId r (r.postJournalEntry env a).1 := by
  obtain ⟨-, hinv, hpay, -⟩ := postJournalEntry_cases r env a
  refine ⟨?_, fun id p hp => ?_⟩
  · rw [hinv]
    exact .refl _ _ _
  · rwa [hpay]

theorem segment_postEntry {k next : BillingCall} {entry : Option JournalEntry}
    (hr : OwnJournals r)
    (hentry : ∀ a ∈ entry, OwnReference r a.tenantId a.referenceType a.referenceId)
    (hnext : ∀ r' : BillingRepository u, next.ActsOn tenantId r') :
    (billingOutlineOf u tenantId).Segment k r (postEntry r env entry next) := by
  cases entry with
  | none => exact .settles (.refl _ _) hr trivial
  | some a =>
    have hbills := billsFor_postJournalEntry tenantId r env a
    have hown : OwnJournals (r.postJournalEntry env a).1 := by
      refine hr.mono hbills fun j hj => ?_
      rcases mem_journals_postJournalEntry hj with hold | ⟨htenant, htype, hid⟩
      · exact Or.inl hold
      · rw [htenant, htype, hid]
        exact Or.inr ((hentry a rfl).mono hbills)
    unfold postEntry
    cases hp : r.postJournalEntry env a with
    | mk r' res =>
      rw [hp] at hbills hown
      cases res with
      | ok j => simpa only [hp] using Outline.Segment.waits hbills hown (hnext r')
      | error e => simpa only [hp] using Outline.Segment.settles hbills hown trivial

theorem segment_createInvoice {dto : CreateInvoiceDTO} (hdto : dto.tenantId = tenantId)
    (hr : OwnJournals r) : (billingOutlineOf u tenantId).Segment (.createInvoice dto) r
      ((billingProgram u).run (.createInvoice dto) env r) := by
  subst hdto
  have hfresh := (r.draw dto.items.length).invoices_issued.fresh le_rfl
  have hbills : BillsFor dto.tenantId r ((billingProgram u).run (.createInvoice dto) env r).heap :=
    ⟨.set hfresh _, fun _ _ hp => hp⟩
  exact .waits hbills (hr.mono hbills fun j hj => Or.inl hj) ⟨rfl, owned_set _ _ _⟩

theorem segment_processPayment {dto : ProcessPaymentDTO} (hdto : dto.tenantId = tenantId)
    (hown : ∀ i ∈ r.invoices.get dto.invoiceId, i.tenantId = tenantId) (hr : OwnJournals r) :
    (billingOutlineOf u tenantId).Segment (.processPayment dto) r
      ((billingProgram u).run (.processPayment dto) env r) := by
  refine .waits (.refl _ _) hr ⟨hdto, fun ref href => ?_⟩
  obtain ⟨i, hi, rfl⟩ := Option.map_eq_some_iff.mp href
  exact ⟨rfl, i, hi, hown i hi⟩

theorem segment_paymentInvoiceFound {dto : ProcessPaymentDTO} {invoice : String}
    (hdto : dto.tenantId = tenantId) (hinvoice : invoice = dto.invoiceId)
    (hown : Owned InvoiceEntity.tenantId r.invoices tenantId invoice) (hr : OwnJournals r) :
    (billingOutlineOf u tenantId).Segment (.paymentInvoiceFound dto (some invoice)) r
      ((billingProgram u).run (.paymentInvoiceFound dto (some invoice)) env r) := by
  subst hinvoice
  have hfresh := r.payments_issued.fresh le_rfl
  have hbills : BillsFor tenantId r (r.recordPayment (newPayment dto env)) :=
    ⟨.refl _ _ _, fun _ _ hp => JsMap.get_set_of_get hfresh hp _⟩
  have hpayment : OwnPayment (r.recordPayment (newPayment dto env)) tenantId (u.draw r.draws) :=
    ⟨_, JsMap.get_set_self _ _ _, hdto, hown⟩
  exact .waits hbills (hr.mono hbills fun j hj => Or.inl hj) ⟨hdto, hown, hpayment⟩

theorem segment_paymentStored {dto : ProcessPaymentDTO} {invoice paymentId : String}
    (hk : (BillingCall.paymentStored dto invoice paymentId).ActsOn tenantId r)
    (hr : OwnJournals r) :
    (billingOutlineOf u tenantId).Segment (.paymentStored dto invoice paymentId) r
      ((billingProgram u).run (.paymentStored dto invoice paymentId) env r) := by
  have hbills : BillsFor tenantId r
      (r.mutateInvoice invoice (InvoiceEntity.pay dto.amountCents env.now)) :=
    ⟨.modify hk.2.1 fun i => (pay_fields _ _ i).1, fun _ _ hp => hp⟩
  exact .waits hbills (hr.mono hbills fun j hj => Or.inl hj) (hk.mono hbills)

theorem segment_continued {k : BillingCall} (hk : k.ActsOn tenantId r) (hr : OwnJournals r) :
    (billingOutlineOf u tenantId).Segment k r ((billingProgram u).run k env r) := by
  cases k with
  | invoiceStored dto invoiceNumber invoiceId => exact .waits (.refl _ _) hr hk
  | invoiceAccounts dto invoiceNumber invoiceId accounts =>
    refine segment_postEntry hr (fun a ha => ?_) fun _ => trivial
    obtain ⟨htenant, htype, hid⟩ := invoiceEntry_reference ha
    rw [htenant, htype, hid, hk.1]
    exact hk.2
  | invoicePosted invoiceId => exact .settles (.refl _ _) hr trivial
  | paymentInvoiceFound dto invoice =>
    cases invoice with
    | none => exact .settles (.refl _ _) hr trivial
    | some ref => exact segment_paymentInvoiceFound hk.1 (hk.2 ref rfl).1 (hk.2 ref rfl).2 hr
  | paymentStored dto invoice paymentId => exact segment_paymentStored hk hr
  | paymentAccounts dto invoice paymentId accounts =>
    refine segment_postEntry hr (fun a ha => ?_) fun _ => trivial
    obtain ⟨htenant, htype, hid⟩ := paymentEntry_reference ha
    rw [htenant, htype, hid, hk.1]
    exact hk.2.2
  | paymentPosted invoice paymentId => exact .settles (.refl _ _) hr trivial
  | createInvoice dto => exact hk.elim
  | processPayment dto => exact hk.elim
  | postJournalEntry a => exact hk.elim

end Segments

/-! ## Runs -/

/-- **The service follows the outline** when no payment is on an invoice of another tenant. -/
theorem keeps_billingOutline (u : UuidSource) :
    (billingOutline u).Keeps (tenantProgram u) OwnStep where
  call c k env hok hr := by
    obtain ⟨tenantId, k⟩ := k
    cases k with
    | createInvoice dto => exact (segment_createInvoice hok.1 hr).map
    | processPayment dto => exact (segment_processPayment hok.1 hok.2 hr).map
    | _ => exact hok.1.elim
  resume r k env hr hk := (segment_continued hk hr).map

theorem holds_tenantStart (u : UuidSource) (tenants : List String) :
    (billingOutline u).Holds (tenantStart u tenants) where
  inv j hj := by
    change j ∈ (seeded u tenants).journals at hj
    rw [journals_seeded] at hj
    exact absurd hj List.not_mem_nil
  inFlight _ hk := absurd hk List.not_mem_nil
  settled _ ho := absurd ho List.not_mem_nil

theorem reach_billingOutline {tenants : List String} {c : TenantConfig u}
    (h : Reach (tenantProgram u) OwnStep (tenantStart u tenants) c) : (billingOutline u).Holds c :=
  (keeps_billingOutline u).holds (holds_tenantStart u tenants) h

theorem isolated_of_holds {c : TenantConfig u} (h : (billingOutline u).Holds c) :
    BillingIsolated c where
  unchanged a tenantId k env rest hc hr := by
    by_cases hown : OwnInvoices c a
    · exact ((keeps_billingOutline u).guarantee h ⟨hc, hown⟩ hr).invoices.spares
    · cases hr with
      | call =>
        -- a payment on another invoice only reads it here
        cases k with
        | processPayment dto => exact fun _ _ hv _ => hv
        | _ => exact absurd trivial hown
      | resume i hn => exact absurd trivial hown
  journals := h.inv

/-- **Invoices outlast the calls of others**: in a run on own invoices, as long as no call of a
tenant is started or continued, its invoices stay as they are. -/
theorem invoice_unchanged_of_absent {tenants : List String} {c c' : TenantConfig u}
    {tenantId : String} (h : Reach (tenantProgram u) OwnStep (tenantStart u tenants) c)
    (hrun : Reach (tenantProgram u) (fun c a => OwnStep c a ∧
      ∀ k env rest, Runs c a k env rest → k.1 ≠ tenantId) c c')
    {ref : String} {i : InvoiceEntity} (hi : c.heap.invoices.get ref = some i)
    (howner : i.tenantId = tenantId) : c'.heap.invoices.get ref = some i :=
  (keeps_billingOutline u).preserves (J := fun r => r.invoices.get ref = some i)
    (reach_billingOutline h) hi
    (fun _ _ _ hne hact hget =>
      hact.invoices.spares ref i hget fun he => hne (he.symm.trans howner)) hrun

/-! ## Invoices of other tenants -/

/-- **The first payment on an invoice of another tenant** changes that invoice. -/
theorem exists_not_isolated {c c' : TenantConfig u} {a : Act (String × BillingCall) BillingInput}
    (hown : ¬ OwnInvoices c a) (hs : (tenantProgram u).step c a = some c') :
    ∃ d, Reach (tenantProgram u) TenantRequest c' d ∧ ¬ BillingIsolated d := by
  cases a with
  | resume n env => exact absurd trivial hown
  | call caller env =>
    obtain ⟨tenantId, k⟩ := caller
    cases hs
    cases k with
    | processPayment dto =>
      simp only [OwnInvoices, not_forall] at hown
      obtain ⟨i, hi, hforeign⟩ := hown
      have hfound : (tenantId, BillingCall.paymentInvoiceFound dto (some dto.invoiceId)) ∈
          (c.after ((tenantProgram u).run (tenantId, .processPayment dto) env c.heap)
            c.inFlight).inFlight := by
        refine List.mem_append_right _ ?_
        simp [tenantProgram, Program.onBehalf, billingProgram, Segment.map, Option.mem_def.mp hi]
      obtain ⟨d, hd, hheap, hwait, -⟩ := Reach.exists_resumed (P := tenantProgram u)
        tenantRequest_resume hfound env
      obtain ⟨n, hn⟩ := List.mem_iff_getElem?.mp (hwait _ List.mem_cons_self)
      refine ⟨d, hd, fun hiso => ?_⟩
      have hsame : d.heap.invoices.get dto.invoiceId = some i := by
        rw [hheap]
        exact hi
      have hspared := hiso.unchanged _ _ _ env _ (tenantRequest_resume d n env) (.resume env hn) _ i
        hsame hforeign
      have hpaid : some (i.pay dto.amountCents env.now) = some i :=
        (JsMap.get_modify_self hsame _).symm.trans hspared
      have hamount := congrArg InvoiceEntity.amountPaidCents (Option.some.inj hpaid)
      rw [(pay_fields _ _ i).2] at hamount
      have := dto.amountCents_pos
      omega
    | _ => exact absurd trivial hown

/-- **The tenants are isolated in runs on own invoices.** In every run of the invoices and payments
of several tenants in which no payment is on an invoice of another tenant, no step changes an
invoice of another tenant, and every journal refers to invoices and payments of its tenant. The
condition cannot be weakened: a payment on an invoice of another tenant leads to a step that
changes it. -/
theorem billing_isolated (u : UuidSource) (tenants : List String) :
    (∀ c, Reach (tenantProgram u) OwnStep (tenantStart u tenants) c → BillingIsolated c) ∧
      ∀ c a c', Reach (tenantProgram u) OwnStep (tenantStart u tenants) c → TenantRequest c a →
        ¬ OwnInvoices c a → (tenantProgram u).step c a = some c' →
        ∃ d, Reach (tenantProgram u) TenantRequest c' d ∧ ¬ BillingIsolated d :=
  ⟨fun _ h => isolated_of_holds (reach_billingOutline h),
    fun _ _ _ _ _ hown hs => exists_not_isolated hown hs⟩

/-! ## Two tenants -/

section TwoTenants

theorem hundred_pos : (0 : ℤ) < 100 := by decide

/-- A payment of tenant T-2. -/
def paymentT2 (invoiceId : String) : ProcessPaymentDTO :=
  { payment 100 hundred_pos with
    tenantId := "T-2"
    invoiceId := invoiceId }

/-- **A tenant pays the invoice of another one**: the invoice of T-1 is PAID by T-2, whose journal
refers to it. -/
theorem foreign_invoice_paid :
    ∃ c, Reach (tenantProgram .unary) TenantRequest (tenantStart .unary []) c ∧
      c.inFlight = [] ∧ ¬ BillingIsolated c := by
  have hrun : ((tenantProgram .unary).exec TenantRequest (tenantStart .unary [])
      [.call ("T-1", .createInvoice hundredCents) quietDay, .resume 0 quietDay,
        .resume 0 quietDay, .resume 0 quietDay,
        .call ("T-2", .processPayment (paymentT2 "idxxxxxxx")) quietDay, .resume 0 quietDay,
        .resume 0 quietDay, .resume 0 quietDay, .resume 0 quietDay]).any
      fun c => decide (c.inFlight = [] ∧ ∃ j ∈ c.heap.journals, j.tenantId = "T-2" ∧
        j.referenceType = .PAYMENT ∧ ∃ p ∈ c.heap.payments.get j.referenceId,
          ∃ i ∈ c.heap.invoices.get p.invoiceId, i.tenantId = "T-1" ∧ i.status = .PAID) := by
    decide
  obtain ⟨c, hc, hq, j, hj, htenant, htype, p, hp, i, hi, howner, -⟩ := Reach.exists_of_exec hrun
  refine ⟨c, hc, hq, fun hiso => ?_⟩
  have hown := hiso.journals j hj
  rw [htype] at hown
  obtain ⟨p', hp', -, hinvoice⟩ := hown
  rw [Option.mem_def.mp hp] at hp'
  cases hp'
  have := hinvoice.owner_eq hi
  rw [howner, htenant] at this
  exact absurd this (by decide)

/-- Two invoices at the same time, and a payment of T-2 on its own one. -/
theorem billing_isolated_twoTenants :
    ∃ c, Reach (tenantProgram .unary) OwnStep (tenantStart .unary []) c ∧ c.inFlight = [] ∧
      c.heap.journals.length = 3 ∧ BillingIsolated c := by
  have hrun : ((tenantProgram .unary).exec OwnStep (tenantStart .unary [])
      [.call ("T-1", .createInvoice hundredCents) quietDay,
        .call ("T-2", .createInvoice { hundredCents with tenantId := "T-2" }) quietDay,
        .resume 0 quietDay, .resume 0 quietDay, .resume 0 quietDay, .resume 0 quietDay,
        .resume 0 quietDay, .resume 0 quietDay,
        .call ("T-2", .processPayment (paymentT2 "idxxxxxxxxx")) quietDay, .resume 0 quietDay,
        .resume 0 quietDay, .resume 0 quietDay, .resume 0 quietDay]).any
      fun c => decide (c.inFlight = [] ∧ c.heap.journals.length = 3) := by decide
  obtain ⟨c, hc, hq, hj⟩ := Reach.exists_of_exec hrun
  exact ⟨c, hc, hq, hj, (billing_isolated .unary []).1 c hc⟩

end TwoTenants

end Logix.Billing
