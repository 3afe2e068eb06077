import Logix.Logistics.Shipments

/-!
# Is proof of delivery evidence?

`submitProofOfDelivery` writes the shipment that it has found without looking at its status.

* `Admitted`: the requests that a run starts; `Delivered`: what is on record of a delivery;
* `Preserves`: a submission for a delivered shipment writes what is on record;
* **`evidence_final`**: along a run of such steps the record of a delivery never changes, and the
  first other step changes one;
* `evidence_overwritten`: a second submission.
-/

namespace Logix.Logistics

open Async

variable {u : UuidSource}

/-- The configurations of the logistics service. -/
abbrev LogisticsConfig (u : UuidSource) : Type :=
  Config (LogisticsStores u) LogisticsCall LogisticsOutcome

/-- The service with its vehicles, before the first shipment. -/
def startConfig (u : UuidSource) (vehicles : JsMap String VehicleEntity) : LogisticsConfig u :=
  ⟨.new u vehicles, [], []⟩

/-- A run starts requests, and continues anything. -/
def Admitted (_ : LogisticsConfig u) : Act LogisticsCall Readings → Prop
  | .call (.createShipment _) _ => True
  | .call (.recordTelemetry _) _ => True
  | .call (.submitProofOfDelivery _ _) _ => True
  | .call _ _ => False
  | .resume _ _ => True

/-- `deliveredAt` and `proofOfDelivery`. -/
def ShipmentEntity.evidence (s : ShipmentEntity) : Option JsDate × Option ProofOfDelivery :=
  (s.deliveredAt, s.proofOfDelivery)

/-- The evidence that a submission writes. -/
def SubmitPODDTO.evidence (dto : SubmitPODDTO) (i : Readings) :
    Option JsDate × Option ProofOfDelivery := (some (i.now 0), some (dto.proof i))

/-- **Shipment `id` is DELIVERED, with this evidence.** -/
def Delivered (h : LogisticsStores u) (id : String)
    (evidence : Option JsDate × Option ProofOfDelivery) : Prop :=
  ∃ s ∈ h.shipments.get id, s.status = .DELIVERED ∧ s.evidence = evidence

/-- A submission that is about to write a delivered shipment writes the evidence on record. -/
def LogisticsCall.Preserves (h : LogisticsStores u) (i : Readings) : LogisticsCall → Prop
  | .shipmentFound shipmentId dto (some _) => ∀ s ∈ h.shipments.get shipmentId,
      s.status = .DELIVERED → s.evidence = dto.evidence i
  | _ => True

/-- **The step overwrites no evidence** with another one. -/
def Preserves (c : LogisticsConfig u) : Act LogisticsCall Readings → Prop
  | .call _ _ => True
  | .resume n i => ∀ k ∈ c.inFlight[n]?, k.Preserves c.heap i

/-- A step of an admitted run that overwrites no evidence. -/
def PreservingStep (c : LogisticsConfig u) (a : Act LogisticsCall Readings) : Prop :=
  Admitted c a ∧ Preserves c a

instance (h : LogisticsStores u) (id : String)
    (evidence : Option JsDate × Option ProofOfDelivery) : Decidable (Delivered h id evidence) :=
  inferInstanceAs (Decidable (∃ s ∈ h.shipments.get id, _ ∧ _))

instance : ∀ (c : LogisticsConfig u) (a : Act LogisticsCall Readings), Decidable (Admitted c a)
  | _, .call (.createShipment _) _ | _, .call (.recordTelemetry _) _
  | _, .call (.submitProofOfDelivery _ _) _ => .isTrue trivial
  | _, .call (.shipmentStored _) _ | _, .call (.vehicleUpdated _) _
  | _, .call (.shipmentFound ..) _ => .isFalse id
  | _, .resume _ _ => .isTrue trivial

instance (h : LogisticsStores u) (i : Readings) : ∀ k : LogisticsCall, Decidable (k.Preserves h i)
  | .shipmentFound shipmentId dto (some _) =>
    inferInstanceAs (Decidable (∀ s ∈ h.shipments.get shipmentId,
      s.status = .DELIVERED → s.evidence = dto.evidence i))
  | .shipmentFound _ _ none => .isTrue trivial
  | .createShipment _ | .shipmentStored _ | .recordTelemetry _ | .vehicleUpdated _
  | .submitProofOfDelivery _ _ => .isTrue trivial

instance : ∀ (c : LogisticsConfig u) (a : Act LogisticsCall Readings), Decidable (Preserves c a)
  | _, .call _ _ => .isTrue trivial
  | c, .resume n i => inferInstanceAs (Decidable (∀ k ∈ c.inFlight[n]?, k.Preserves c.heap i))

instance (c : LogisticsConfig u) (a : Act LogisticsCall Readings) :
    Decidable (PreservingStep c a) := inferInstanceAs (Decidable (_ ∧ _))

/-! ## Segments -/

theorem delivered_insertShipment {h : LogisticsStores u} {entity : String → ShipmentEntity}
    {id : String} {evidence : Option JsDate × Option ProofOfDelivery}
    (hd : Delivered h id evidence) : Delivered (h.insertShipment entity) id evidence := by
  obtain ⟨s, hs, hstatus⟩ := hd
  exact ⟨s, JsMap.get_set_of_get (h.issued.fresh le_rfl) hs _, hstatus⟩

theorem delivered_updateShipment {h : LogisticsStores u} {id : String} {dto : SubmitPODDTO}
    {i : Readings} (hsome : (h.shipments.get id).isSome) :
    Delivered (h.updateShipment id (.deliver dto i)) id (dto.evidence i) := by
  obtain ⟨s, hs⟩ := Option.isSome_iff_exists.mp hsome
  exact ⟨s.deliver dto i, JsMap.get_modify_self hs _, rfl, rfl⟩

theorem delivered_updateShipment_ne {h : LogisticsStores u} {id id' : String}
    {f : ShipmentEntity → ShipmentEntity} {evidence : Option JsDate × Option ProofOfDelivery}
    (hne : id' ≠ id) (hd : Delivered h id' evidence) :
    Delivered (h.updateShipment id f) id' evidence := by
  obtain ⟨s, hs, hstatus⟩ := hd
  exact ⟨s, (JsMap.get_modify_ne hne f).trans hs, hstatus⟩

/-- **The step lemma**: a segment that overwrites no evidence keeps every record. -/
theorem delivered_run {h : LogisticsStores u} {k : LogisticsCall} {i : Readings}
    (hk : k.Preserves h i) {id : String} {evidence : Option JsDate × Option ProofOfDelivery}
    (hd : Delivered h id evidence) :
    Delivered ((logisticsProgram u).run k i h).heap id evidence := by
  cases k with
  | createShipment dto => exact delivered_insertShipment (h := h.draw 2) hd
  | shipmentFound shipmentId dto shipment =>
    cases shipment with
    | none => exact hd
    | some _ =>
      by_cases hid : id = shipmentId
      · subst hid
        obtain ⟨s, hs, hstatus, rfl⟩ := hd
        rw [hk s hs hstatus]
        exact delivered_updateShipment (Option.isSome_of_mem hs)
      · exact delivered_updateShipment_ne hid hd
  | shipmentStored shipment => exact hd
  | recordTelemetry dto => exact hd
  | vehicleUpdated dto => exact hd
  | submitProofOfDelivery shipmentId dto => exact hd

theorem exists_delivered_run {h : LogisticsStores u} {k : LogisticsCall} {i : Readings}
    (hk : ¬ k.Preserves h i) : ∃ id before after, Delivered h id before ∧
      Delivered ((logisticsProgram u).run k i h).heap id after ∧ after ≠ before := by
  cases k with
  | shipmentFound shipmentId dto shipment =>
    cases shipment with
    | none => exact absurd trivial hk
    | some _ =>
      simp only [LogisticsCall.Preserves] at hk
      push Not at hk
      obtain ⟨s, hs, hstatus, hne⟩ := hk
      exact ⟨shipmentId, s.evidence, dto.evidence i, ⟨s, hs, hstatus, rfl⟩,
        delivered_updateShipment (Option.isSome_of_mem hs), Ne.symm hne⟩
  | _ => exact absurd trivial hk

/-! ## Runs -/

theorem PreservingStep.call {c : LogisticsConfig u} {a : Act LogisticsCall Readings}
    {k : LogisticsCall} {i : Readings} {rest : List LogisticsCall} (hok : PreservingStep c a)
    (hr : Runs c a k i rest) : k.Preserves c.heap i := by
  cases hr with
  | call => cases k <;> first | exact False.elim hok.1 | trivial
  | resume i hn => exact hok.2 k hn

theorem delivered_reach {c c' : LogisticsConfig u}
    (h : Reach (logisticsProgram u) PreservingStep c c') {id : String}
    {evidence : Option JsDate × Option ProofOfDelivery} (hd : Delivered c.heap id evidence) :
    Delivered c'.heap id evidence :=
  h.heap_invariant (H := fun h => Delivered h id evidence) hd
    fun _ _ _ _ _ hok hr hd => delivered_run (hok.call hr) hd

/-- **The first step that overwrites evidence** changes what is on record. -/
theorem exists_delivered_step {c c' : LogisticsConfig u} {a : Act LogisticsCall Readings}
    (ha : ¬ Preserves c a) (hs : (logisticsProgram u).step c a = some c') :
    ∃ id before after, Delivered c.heap id before ∧ Delivered c'.heap id after ∧
      after ≠ before := by
  cases a with
  | call k i => exact absurd trivial ha
  | resume n i =>
    obtain ⟨k, hk, rfl⟩ := Option.map_eq_some_iff.mp hs
    refine exists_delivered_run fun hpres => ha fun k' hk' => ?_
    obtain rfl := Option.some.inj (hk.symm.trans hk')
    exact hpres

/-- **Proof of delivery is evidence along every run of preserving steps**: what is on record of a
delivered shipment never changes. The condition cannot be weakened: a step that does not preserve
the evidence changes it. -/
theorem evidence_final (u : UuidSource) (vehicles : JsMap String VehicleEntity) :
    (∀ c c', Reach (logisticsProgram u) PreservingStep (startConfig u vehicles) c →
      Reach (logisticsProgram u) PreservingStep c c' →
      ∀ id evidence, Delivered c.heap id evidence → Delivered c'.heap id evidence) ∧
    ∀ c a c', Reach (logisticsProgram u) PreservingStep (startConfig u vehicles) c →
      Admitted c a → ¬ Preserves c a → (logisticsProgram u).step c a = some c' →
      ∃ id before after, Delivered c.heap id before ∧ Delivered c'.heap id after ∧
        after ≠ before :=
  ⟨fun _ _ _ h _ _ hd => delivered_reach h hd, fun _ _ _ _ _ ha hs => exists_delivered_step ha hs⟩

/-! ## A second submission -/

section Twice

/-- A shipment to Springfield. -/
def toSpringfield : CreateShipmentDTO where
  tenantId := "T-1"
  orderId := "O-1"
  originWarehouseId := "WH-1"
  destinationAddress := ⟨"1 Main Street", none, "Springfield", "IL", "62701", "US", "Receiving",
    "555-0100", none, none⟩
  assignedVehicleId := none
  assignedDriverId := none

/-- A delivery to a recipient, without pictures. -/
def signedBy (recipientName : String) : SubmitPODDTO := ⟨recipientName, none, none, none⟩

/-- The clock starts at `t`. -/
def readingsAt (t : JsDate) : Readings := ⟨fun n => t + n, js "a1b2c3"⟩

/-- Create the shipment (`idxx`), and deliver it. -/
def deliverOnce : List (Act LogisticsCall Readings) :=
  [.call (.createShipment toSpringfield) (readingsAt 0), .resume 0 (readingsAt 10),
    .call (.submitProofOfDelivery "idxx" (signedBy "Ann")) (readingsAt 20),
    .resume 0 (readingsAt 30)]

/-- Deliver it again. -/
def deliverAgain : List (Act LogisticsCall Readings) :=
  [.call (.submitProofOfDelivery "idxx" (signedBy "Bob")) (readingsAt 40),
    .resume 0 (readingsAt 50)]

/-- **A second submission overwrites the evidence** of the first. -/
theorem evidence_overwritten :
    ¬ ∀ c c', Reach (logisticsProgram .unary) Admitted (startConfig .unary .empty) c →
      Reach (logisticsProgram .unary) Admitted c c' →
      ∀ id evidence, Delivered c.heap id evidence → Delivered c'.heap id evidence := by
  intro h
  have hrun : ((logisticsProgram .unary).exec Admitted (startConfig .unary .empty) deliverOnce).any
      fun c => decide (Delivered c.heap "idxx" ((signedBy "Ann").evidence (readingsAt 30)) ∧
        ((logisticsProgram .unary).exec Admitted c deliverAgain).any fun c' =>
          decide (¬ Delivered c'.heap "idxx" ((signedBy "Ann").evidence (readingsAt 30)))) := by
    decide +kernel
  obtain ⟨c, hc, hann, hagain⟩ := Reach.exists_of_exec hrun
  obtain ⟨c', hc', hnot⟩ := Reach.exists_of_exec hagain
  exact hnot (h c c' hc hc' _ _ hann)

/-- A run of preserving steps: the evidence of one delivery. -/
theorem evidence_final_once :
    ∃ c, Reach (logisticsProgram .unary) PreservingStep (startConfig .unary .empty) c ∧
      Delivered c.heap "idxx" ((signedBy "Ann").evidence (readingsAt 30)) ∧
      ∀ c', Reach (logisticsProgram .unary) PreservingStep c c' →
        Delivered c'.heap "idxx" ((signedBy "Ann").evidence (readingsAt 30)) := by
  have hrun : ((logisticsProgram .unary).exec PreservingStep (startConfig .unary .empty)
      deliverOnce).any fun c =>
        decide (Delivered c.heap "idxx" ((signedBy "Ann").evidence (readingsAt 30))) := by
    decide +kernel
  obtain ⟨c, hc, hann⟩ := Reach.exists_of_exec hrun
  exact ⟨c, hc, hann, fun c' hc' => (evidence_final .unary .empty).1 c c' hc hc' _ _ hann⟩

end Twice

end Logix.Logistics
