import Logix.Order.Model

/-!
# Is a cancellation final?

The saga updates the status of its order three times without reading it.

* `Admitted`: the requests that a run starts; `Timely`: no saga step overwrites a cancelled order;
* `Written`: a `cancelOrder` call has written the order, whether it has resolved or not;
* `CancelConsistent`: in a timely run, the orders that are CANCELLED are the written ones;
* **`cancellation_final`**: in every timely run a resolved cancellation is final, and the first
  step that is not timely leads to a resolved cancellation of an order that is not CANCELLED;
* `cancellation_overwritten`: a cancellation before the first step of the saga.
-/

namespace Logix.Order

open Async

variable {u : UuidSource}

/-- The configurations of the order service. -/
abbrev OrderConfig (u : UuidSource) : Type := Config (OrderStores u) OrderCall OrderOutcome

/-- The services without any order. -/
def startConfig (u : UuidSource) : OrderConfig u := ⟨.new u, [], []⟩

/-- A run starts requests, and continues anything. -/
def Admitted (_ : OrderConfig u) : Act OrderCall String → Prop
  | .call (.createOrder _) _ => True
  | .call (.cancelOrder _ _) _ => True
  | .call _ _ => False
  | .resume _ _ => True

/-- The order whose status a saga step is about to set. -/
def OrderCall.overwrites : OrderCall → Option String
  | .sagaCreated orderId _ => some orderId
  | .inventoryRecorded orderId _ => some orderId
  | .paymentRecorded orderId _ => some orderId
  | _ => none

/-- Order `id` is CANCELLED. -/
def IsCancelled (h : OrderStores u) (id : String) : Prop :=
  ∃ o ∈ h.orders.get id, o.status = .CANCELLED

/-- The call that continues does not overwrite a cancelled order. -/
def Timely (c : OrderConfig u) : Act OrderCall String → Prop
  | .call _ _ => True
  | .resume n _ => ∀ k ∈ c.inFlight[n]?, ∀ id ∈ k.overwrites, ¬ IsCancelled c.heap id

instance (h : OrderStores u) (id : String) : Decidable (IsCancelled h id) :=
  inferInstanceAs (Decidable (∃ o ∈ _, _))

instance : ∀ (c : OrderConfig u) (a : Act OrderCall String), Decidable (Admitted c a)
  | _, .call (.createOrder _) _ | _, .call (.cancelOrder _ _) _ => .isTrue trivial
  | _, .call (.createOrderStored _) _ | _, .call (.sagaCreated ..) _ | _, .call (.sagaStarted ..) _
  | _, .call (.inventorySagaFound ..) _ | _, .call (.inventoryRecorded ..) _
  | _, .call (.inventoryDone ..) _ | _, .call (.paymentSagaFound ..) _
  | _, .call (.paymentRecorded ..) _ | _, .call (.paymentDone ..) _
  | _, .call (.cancelOrderFound ..) _ | _, .call (.cancelOrderUpdated ..) _ => .isFalse id
  | _, .resume _ _ => .isTrue trivial

instance : ∀ (c : OrderConfig u) (a : Act OrderCall String), Decidable (Timely c a)
  | _, .call _ _ => .isTrue trivial
  | _, .resume _ _ => inferInstanceAs (Decidable (∀ k ∈ _, ∀ id ∈ _, ¬ _))

/-- A timely step of an admitted run. -/
def TimelyStep (c : OrderConfig u) (a : Act OrderCall String) : Prop := Admitted c a ∧ Timely c a

instance (c : OrderConfig u) (a : Act OrderCall String) : Decidable (TimelyStep c a) :=
  inferInstanceAs (Decidable (_ ∧ _))

/-- **A resolved cancellation stands**: its order is CANCELLED. -/
def CancellationStands (c : OrderConfig u) : Prop :=
  ∀ id updated, .cancelled id updated ∈ c.settled → IsCancelled c.heap id

/-! ## Writes of the order table -/

section Writes

variable {h : OrderStores u} {id id' : String}

theorem isCancelled_insertOrder {entity : String → OrderEntity}
    (he : (entity (u.draw h.draws)).status ≠ .CANCELLED) :
    IsCancelled (h.insertOrder entity) id ↔ IsCancelled h id := by
  unfold IsCancelled OrderStores.insertOrder
  by_cases hid : id = u.draw h.draws
  · subst hid
    have hfresh : h.orders.get (u.draw h.draws) = none :=
      JsMap.get_eq_none_iff.mpr (h.orders_issued.fresh le_rfl)
    simp [hfresh, JsMap.get_set_self, he]
  · rw [JsMap.get_set_ne hid]

theorem isCancelled_updateOrder_ne {f : OrderEntity → OrderEntity} (hne : id' ≠ id) :
    IsCancelled (h.updateOrder id f) id' ↔ IsCancelled h id' := by
  unfold IsCancelled OrderStores.updateOrder
  rw [JsMap.get_modify_ne hne]

theorem not_isCancelled_updateOrder {f : OrderEntity → OrderEntity}
    (hf : ∀ o, (f o).status ≠ .CANCELLED) : ¬ IsCancelled (h.updateOrder id f) id := by
  rintro ⟨o, ho, hst⟩
  obtain ⟨o', -, rfl⟩ := JsMap.exists_of_get_modify ho
  rw [if_pos rfl] at hst
  exact hf o' hst

theorem isCancelled_cancel {reason : String} (ho : (h.orders.get id).isSome) :
    IsCancelled (h.updateOrder id (OrderEntity.cancel reason)) id := by
  obtain ⟨o, ho⟩ := Option.isSome_iff_exists.mp ho
  exact ⟨o.cancel reason, JsMap.get_modify_self ho _, rfl⟩

end Writes

/-! ## The cancellations that were written -/

/-- The order whose cancellation a suspended call has written. -/
def OrderCall.cancels : OrderCall → Option String
  | .cancelOrderUpdated id _ => some id
  | _ => none

/-- The order that the segment of a call cancels. -/
def OrderCall.cancelling : OrderCall → Option String
  | .cancelOrderFound id _ order => if cancelOrderCheck id order = none then some id else none
  | _ => none

/-- The order that a settled request has cancelled. -/
def OrderOutcome.cancels : OrderOutcome → Option String
  | .cancelled id _ => some id
  | _ => none

/-- A `cancelOrder` call has written order `id`. -/
def Written (c : OrderConfig u) (id : String) : Prop :=
  (∃ o ∈ c.settled, o.cancels = some id) ∨ ∃ k ∈ c.inFlight, k.cancels = some id

theorem cancels_eq_some {o : OrderOutcome} {id : String} (h : o.cancels = some id) :
    ∃ updated, o = .cancelled id updated := by
  cases o with
  | cancelled id' updated => exact ⟨updated, by cases h; rfl⟩
  | created order => cases h
  | rejected e => cases h

/-- **What a step adds to the written orders**, with the one that the running call had written. -/
theorem written_after {c : OrderConfig u} {a : Act OrderCall String} {k : OrderCall} {i : String}
    {rest : List OrderCall} (hr : Runs c a k i rest) (hadm : Admitted c a)
    (s : Segment (OrderStores u) OrderCall OrderOutcome) (id : String) :
    Written (c.after s rest) id ∨ k.cancels = some id ↔
      Written c id ∨ (∃ o ∈ s.settled, o.cancels = some id) ∨
        ∃ k' ∈ s.waiting, k'.cancels = some id := by
  have hnew : a = .call k i → ¬ k.cancels = some id := by
    rintro rfl
    cases k <;> first | exact False.elim hadm | simp [OrderCall.cancels]
  have hmem := hr.exists_mem_iff (p := fun k => k.cancels = some id) hnew
  unfold Written
  rw [hmem]
  simp only [Config.after, List.mem_append, or_and_right, exists_or]
  simp only [or_assoc, or_comm, or_left_comm]

/-! ## The invariant -/

/-- What a suspended `cancelOrder` relies on: the order it has read is still there. -/
def OrderCall.Ready (h : OrderStores u) : OrderCall → Prop
  | .cancelOrderFound id _ order => order.isSome → (h.orders.get id).isSome
  | _ => True

/-- **The invariant of timely runs.** -/
structure CancelConsistent (c : OrderConfig u) : Prop where
  cancelled : ∀ id, IsCancelled c.heap id ↔ Written c id
  ready : ∀ k ∈ c.inFlight, k.Ready c.heap

theorem CancelConsistent.stands {c : OrderConfig u} (h : CancelConsistent c) :
    CancellationStands c :=
  fun id _ hs => (h.cancelled id).mpr (Or.inl ⟨_, hs, rfl⟩)

theorem cancelConsistent_start (u : UuidSource) : CancelConsistent (startConfig u) where
  cancelled id := by
    constructor
    · rintro ⟨o, ho, -⟩
      cases ho
    · rintro (⟨o, ho, -⟩ | ⟨k, hk, -⟩)
      · cases ho
      · cases hk
  ready _ hk := absurd hk List.not_mem_nil

/-! ## Segments -/

/-- Orders are never removed. -/
def Keeps (h h' : OrderStores u) : Prop :=
  ∀ id, (h.orders.get id).isSome → (h'.orders.get id).isSome

theorem keeps_insertOrder (h : OrderStores u) (entity : String → OrderEntity) :
    Keeps h (h.insertOrder entity) := by
  intro id hid
  unfold OrderStores.insertOrder
  rw [JsMap.get_set]
  split_ifs
  · rfl
  · exact hid

theorem keeps_updateOrder (h : OrderStores u) (id : String) (f : OrderEntity → OrderEntity) :
    Keeps h (h.updateOrder id f) := by
  intro id' hid
  obtain ⟨o, ho⟩ := Option.isSome_iff_exists.mp hid
  exact Option.isSome_iff_exists.mpr ⟨_, JsMap.get_modify_of_get ho id f⟩

theorem keeps_run (h : OrderStores u) (k : OrderCall) (i : String) :
    Keeps h ((orderProgram u).run k i h).heap := by
  cases k with
  | createOrder dto => exact keeps_insertOrder (h.draw dto.items.length) _
  | sagaCreated orderId sagaId => exact keeps_updateOrder h orderId _
  | inventoryRecorded orderId sagaId => exact keeps_updateOrder h orderId _
  | paymentRecorded orderId sagaId => exact keeps_updateOrder h orderId _
  | inventorySagaFound orderId sagaId found => cases found <;> exact fun id hid => hid
  | paymentSagaFound orderId sagaId found => cases found <;> exact fun id hid => hid
  | cancelOrderFound id reason order =>
    simp only [orderProgram]
    cases cancelOrderCheck id order with
    | some e => exact fun id hid => hid
    | none => exact keeps_updateOrder h id _
  | createOrderStored order => exact fun id hid => hid
  | sagaStarted orderId sagaId => exact fun id hid => hid
  | inventoryDone orderId sagaId => exact fun id hid => hid
  | paymentDone orderId sagaId => exact fun id hid => hid
  | cancelOrder id reason => exact fun id hid => hid
  | cancelOrderUpdated id updated => exact fun id hid => hid

theorem ready_waiting (h : OrderStores u) (k : OrderCall) (i : String) :
    ∀ k' ∈ ((orderProgram u).run k i h).waiting, k'.Ready ((orderProgram u).run k i h).heap := by
  intro k' hk'
  cases k' with
  | cancelOrderFound id reason order =>
    cases k with
    | cancelOrder id' reason' =>
      cases List.mem_singleton.mp hk'
      exact fun ho => ho
    | cancelOrderFound id' reason' order' =>
      simp only [orderProgram] at hk'
      cases hc : cancelOrderCheck id' order' <;> rw [hc] at hk' <;> simp at hk'
    | inventorySagaFound orderId sagaId found => cases found <;> simp [orderProgram] at hk'
    | paymentSagaFound orderId sagaId found => cases found <;> simp [orderProgram] at hk'
    | _ => simp [orderProgram] at hk'
  | _ => trivial

theorem run_cancels (h : OrderStores u) (k : OrderCall) (i : String) (id : String) :
    ((∃ o ∈ ((orderProgram u).run k i h).settled, o.cancels = some id) ∨
        ∃ k' ∈ ((orderProgram u).run k i h).waiting, k'.cancels = some id) ↔
      k.cancels = some id ∨ k.cancelling = some id := by
  cases k with
  | cancelOrderFound id' reason order =>
    simp only [orderProgram, OrderCall.cancelling]
    cases hc : cancelOrderCheck id' order with
    | some e => simp [OrderOutcome.cancels, OrderCall.cancels]
    | none => simp [OrderCall.cancels]
  | inventorySagaFound orderId sagaId found =>
    cases found <;> simp [orderProgram, OrderCall.cancels, OrderCall.cancelling]
  | paymentSagaFound orderId sagaId found =>
    cases found <;> simp [orderProgram, OrderCall.cancels, OrderCall.cancelling]
  | _ => simp [orderProgram, OrderCall.cancels, OrderCall.cancelling, OrderOutcome.cancels]

/-- **The cancelled orders after a segment** that overwrites no cancelled order. -/
theorem isCancelled_run {h : OrderStores u} {k : OrderCall} (hk : k.Ready h)
    (ht : ∀ id ∈ k.overwrites, ¬ IsCancelled h id) (i : String) (id : String) :
    IsCancelled ((orderProgram u).run k i h).heap id ↔
      IsCancelled h id ∨ k.cancelling = some id := by
  have hover : ∀ {orderId : String} {f : OrderEntity → OrderEntity}, orderId ∈ k.overwrites →
      (∀ o, (f o).status ≠ .CANCELLED) →
      (IsCancelled (h.updateOrder orderId f) id ↔ IsCancelled h id) := by
    intro orderId f hmem hf
    by_cases hid : id = orderId
    · subst hid
      exact iff_of_false (not_isCancelled_updateOrder hf) (ht id hmem)
    · exact isCancelled_updateOrder_ne hid
  have hsame : k.cancelling = none →
      (IsCancelled ((orderProgram u).run k i h).heap id ↔ IsCancelled h id) →
      (IsCancelled ((orderProgram u).run k i h).heap id ↔
        IsCancelled h id ∨ k.cancelling = some id) := by
    intro hnone hiff
    rw [hiff, hnone]
    simp
  cases k with
  | createOrder dto =>
    exact hsame rfl (isCancelled_insertOrder (h := h.draw dto.items.length)
      (by simp [OrderStores.newOrder]))
  | sagaCreated orderId sagaId =>
    exact hsame rfl (hover rfl fun o => by simp [OrderEntity.startSaga])
  | inventoryRecorded orderId sagaId =>
    exact hsame rfl (hover rfl fun o => by simp [OrderEntity.withStatus])
  | paymentRecorded orderId sagaId =>
    exact hsame rfl (hover rfl fun o => by simp [OrderEntity.withStatus])
  | inventorySagaFound orderId sagaId found => cases found <;> exact hsame rfl Iff.rfl
  | paymentSagaFound orderId sagaId found => cases found <;> exact hsame rfl Iff.rfl
  | cancelOrderFound id' reason order =>
    simp only [orderProgram, OrderCall.cancelling]
    cases hc : cancelOrderCheck id' order with
    | some e => simp
    | none =>
      have hsome : (h.orders.get id').isSome := by
        refine hk ?_
        cases order with
        | none => simp [cancelOrderCheck] at hc
        | some o => rfl
      rw [if_pos rfl, Option.some.injEq]
      by_cases hid : id = id'
      · subst hid
        exact iff_of_true (isCancelled_cancel hsome) (Or.inr rfl)
      · exact (isCancelled_updateOrder_ne hid).trans
          (or_iff_left fun h => hid h.symm).symm
  | _ => exact hsame rfl Iff.rfl

theorem not_isCancelled_run (h : OrderStores u) {k : OrderCall} {id : String}
    (hid : id ∈ k.overwrites) (i : String) :
    ¬ IsCancelled ((orderProgram u).run k i h).heap id := by
  cases k with
  | sagaCreated orderId sagaId =>
    cases hid
    exact not_isCancelled_updateOrder fun o => by simp [OrderEntity.startSaga]
  | inventoryRecorded orderId sagaId =>
    cases hid
    exact not_isCancelled_updateOrder fun o => by simp [OrderEntity.withStatus]
  | paymentRecorded orderId sagaId =>
    cases hid
    exact not_isCancelled_updateOrder fun o => by simp [OrderEntity.withStatus]
  | _ => cases hid

/-! ## Timely runs -/

theorem Timely.not_isCancelled {c : OrderConfig u} {a : Act OrderCall String} {k : OrderCall}
    {i : String} {rest : List OrderCall} (ht : TimelyStep c a) (hr : Runs c a k i rest) :
    ∀ id ∈ k.overwrites, ¬ IsCancelled c.heap id := by
  cases hr with
  | call => cases k <;> first | exact False.elim ht.1 | exact fun id hid => by cases hid
  | resume i hn => exact ht.2 k hn

theorem written_of_cancels {c : OrderConfig u} {a : Act OrderCall String} {k : OrderCall}
    {i : String} {rest : List OrderCall} (hadm : Admitted c a) (hr : Runs c a k i rest)
    {id : String} (hk : k.cancels = some id) :
    Written c id ∧ Written (c.after ((orderProgram u).run k i c.heap) rest) id := by
  constructor
  · rcases hr.call_or_mem with rfl | hmem
    · cases k <;> first | exact False.elim hadm | cases hk
    · exact Or.inr ⟨k, hmem, hk⟩
  · cases k with
    | cancelOrderUpdated id' updated =>
      cases hk
      exact Or.inl ⟨.cancelled id updated, List.mem_append_right _ List.mem_cons_self, rfl⟩
    | _ => cases hk

theorem CancelConsistent.after {c : OrderConfig u} {a : Act OrderCall String} {k : OrderCall}
    {i : String} {rest : List OrderCall} (h : CancelConsistent c) (ht : TimelyStep c a)
    (hr : Runs c a k i rest) :
    CancelConsistent (c.after ((orderProgram u).run k i c.heap) rest) := by
  have hk : k.Ready c.heap := by
    rcases hr.call_or_mem with rfl | hk
    · cases k <;> first | exact False.elim ht.1 | exact trivial
    · exact h.ready k hk
  constructor
  · intro id
    have hw := written_after hr ht.1 ((orderProgram u).run k i c.heap) id
    rw [run_cancels] at hw
    change IsCancelled ((orderProgram u).run k i c.heap).heap id ↔ _
    rw [isCancelled_run hk (Timely.not_isCancelled ht hr), h.cancelled]
    have hboth := fun hk : k.cancels = some id => written_of_cancels ht.1 hr hk
    constructor
    · intro hor
      rcases hw.mpr (hor.imp_right Or.inr) with h' | h'
      · exact h'
      · exact (hboth h').2
    · intro hc
      rcases hw.mp (Or.inl hc) with h' | h' | h'
      · exact Or.inl h'
      · exact Or.inl (hboth h').1
      · exact Or.inr h'
  · intro k' hk'
    rcases List.mem_append.mp hk' with hk' | hk'
    · have hready := h.ready k' (hr.mem_rest hk')
      cases k' with
      | cancelOrderFound id reason order => exact fun ho => keeps_run c.heap k i id (hready ho)
      | _ => trivial
    · exact ready_waiting c.heap k i k' hk'

theorem reach_cancelConsistent {c : OrderConfig u}
    (h : Reach (orderProgram u) TimelyStep (startConfig u) c) : CancelConsistent c :=
  h.invariant (cancelConsistent_start u) fun _ _ _ _ _ hI hok hr => hI.after hok hr

/-- **The first step that is not timely** leads to a resolved cancellation that does not stand. -/
theorem CancelConsistent.exists_not_stands {c c' : OrderConfig u} (h : CancelConsistent c)
    {a : Act OrderCall String} (hadm : Admitted c a) (ht : ¬ Timely c a)
    (hs : (orderProgram u).step c a = some c') :
    ∃ c'', Reach (orderProgram u) Admitted c' c'' ∧ ¬ CancellationStands c'' := by
  cases a with
  | call k i => exact absurd trivial ht
  | resume n i =>
    obtain ⟨k, hk, rfl⟩ := Option.map_eq_some_iff.mp hs
    obtain ⟨id, hid, hc⟩ : ∃ id ∈ k.overwrites, IsCancelled c.heap id := by
      by_contra hno
      refine ht fun k' hk' id hid hc => hno ⟨id, ?_, hc⟩
      rw [hk] at hk'
      cases hk'
      exact hid
    have hkc : k.cancels ≠ some id := by
      intro hkc
      cases k <;> first | (cases hkc; done) | cases hid
    have hnot := not_isCancelled_run c.heap hid i
    -- its cancellation is still written, and if it has not settled, it settles next
    have hw := written_after (.resume i hk) hadm ((orderProgram u).run k i c.heap) id
    rcases (hw.mpr (Or.inl ((h.cancelled id).mp hc))).resolve_right hkc with
      ⟨o, ho, hoc⟩ | ⟨k', hk', hkc'⟩
    · obtain ⟨updated, rfl⟩ := cancels_eq_some hoc
      exact ⟨_, .start, fun hst => hnot (hst id updated ho)⟩
    · cases k' with
      | cancelOrderUpdated id' updated =>
        cases hkc'
        have hresume : ∀ (c : OrderConfig u) n i, Admitted c (.resume n i) := fun _ _ _ => trivial
        obtain ⟨d, hd, hheap, -, hout⟩ :=
          Reach.exists_resumed (P := orderProgram u) hresume hk' ""
        refine ⟨d, hd, fun hst => hnot ?_⟩
        have hstands := hst id updated (hout _ List.mem_cons_self)
        rwa [hheap] at hstands
      | _ => cases hkc'

/-- **A cancellation is final in timely runs.** In every run in which no saga step overwrites a
cancelled order, the order of a resolved cancellation is CANCELLED in every state. The condition
cannot be weakened: a step that overwrites a cancelled order leads to a resolved cancellation of
an order that is not CANCELLED. -/
theorem cancellation_final (u : UuidSource) :
    (∀ c, Reach (orderProgram u) TimelyStep (startConfig u) c → CancellationStands c) ∧
      ∀ c a c', Reach (orderProgram u) TimelyStep (startConfig u) c → Admitted c a →
        ¬ Timely c a → (orderProgram u).step c a = some c' →
        ∃ c'', Reach (orderProgram u) Admitted c' c'' ∧ ¬ CancellationStands c'' :=
  ⟨fun _ h => (reach_cancelConsistent h).stands,
    fun _ _ _ h hadm ht hs => (reach_cancelConsistent h).exists_not_stands hadm ht hs⟩

/-! ## A cancellation before the saga moves on -/

section Overtaken

/-- A warehouse address. -/
def mainStreet : Address where
  streetLine1 := "1 Main Street"
  streetLine2 := none
  city := "Springfield"
  stateOrProvince := "IL"
  postalCode := "62701"
  countryCode := "US"
  contactName := "Receiving"
  contactPhone := "555-0100"
  contactEmail := none
  instructions := none

/-- An order of two pallets. -/
def twoPallets : CreateOrderDTO where
  tenantId := "T-1"
  customerId := "C-1"
  customerEmail := "buyer@example.com"
  warehouseId := "WH-1"
  priority := .STANDARD
  items := [⟨"PALLET", "Pallet", 2, 4500⟩]
  shippingAddress := mainStreet
  billingAddress := mainStreet
  notes := none

/-- Create the order, then cancel it (`idx`) while the saga is about to start; the saga goes on to
its end. -/
def cancelThenSaga : List (Act OrderCall String) :=
  [.call (.createOrder twoPallets) "ORD-1", .resume 0 "", .call (.cancelOrder "idx" "mistake") "",
    .resume 1 "", .resume 1 "", .resume 0 "", .resume 0 "", .resume 0 "", .resume 0 "",
    .resume 0 "", .resume 0 "", .resume 0 "", .resume 0 ""]

/-- **The saga overwrites a cancellation**: the cancellation has resolved, nothing is in flight,
and the order is scheduled for dispatch. -/
theorem cancellation_overwritten :
    ∃ c, Reach (orderProgram .unary) Admitted (startConfig .unary) c ∧
      c.inFlight = [] ∧ ¬ CancellationStands c := by
  have hrun : ((orderProgram .unary).exec Admitted (startConfig .unary) cancelThenSaga).any
      fun c => decide (c.inFlight = [] ∧ (∃ o ∈ c.settled, o.cancels = some "idx") ∧
        ¬ IsCancelled c.heap "idx") := by decide
  obtain ⟨c, hc, hq, ⟨o, ho, hoc⟩, hn⟩ := Reach.exists_of_exec hrun
  obtain ⟨updated, rfl⟩ := cancels_eq_some hoc
  exact ⟨c, hc, hq, fun hst => hn (hst "idx" updated ho)⟩

/-- A timely run: the order is cancelled when its saga is over. -/
theorem cancellation_final_twoPallets :
    ∃ c, Reach (orderProgram .unary) TimelyStep (startConfig .unary) c ∧ c.inFlight = [] ∧
      c.settled.length = 2 ∧ CancellationStands c := by
  have hrun : ((orderProgram .unary).exec TimelyStep (startConfig .unary)
      [.call (.createOrder twoPallets) "ORD-1", .resume 0 "", .resume 0 "", .resume 0 "",
        .resume 0 "", .resume 0 "", .resume 0 "", .resume 0 "", .resume 0 "", .resume 0 "",
        .call (.cancelOrder "idx" "mistake") "", .resume 0 "", .resume 0 ""]).any
      fun c => decide (c.inFlight = [] ∧ c.settled.length = 2) := by decide
  obtain ⟨c, hc, hq, hl⟩ := Reach.exists_of_exec hrun
  exact ⟨c, hc, hq, hl, (cancellation_final .unary).1 c hc⟩

end Overtaken

end Logix.Order
