import Mathlib.Algebra.Order.BigOperators.Group.List
import Mathlib.Algebra.Order.Ring.Rat
import Mathlib.Tactic.NormNum
import Logix.Js.Map
import Logix.Js.Sort
import Logix.Spec.Machine

/-!
# Slotting bays

An item is allocated to a bay while the weight and the volume of the bay allow it. A bay for an item
is searched among those of a zone that still have room, by their place on the walk of the pickers.
Numbers are rational.

* `DynamicWarehouseSlottingMatrix.findBestBay`, `allocateItemToBay`: the code, and the machine of
  its runs;
* `Holds`: a bay holds the allocations it accepted; `BaysHold`, **`baysHold_run`**: all bays do,
  after every run;
* `BestBay`: what a search promises; `findBestBay_best`: every search keeps it;
* **`soundBays_run`**: both, in every state of every run.
-/

namespace Logix.Inventory

open Spec

/-- `zoneType`. -/
inductive SlottingZone where
  | MEZZANINE | BULK_RACK | COLD_STORAGE | HAZMAT_VAULT | HIGH_BAY
  deriving DecidableEq, Repr

/-- The text of a zone. -/
def SlottingZone.text : SlottingZone → String
  | .MEZZANINE => "MEZZANINE"
  | .BULK_RACK => "BULK_RACK"
  | .COLD_STORAGE => "COLD_STORAGE"
  | .HAZMAT_VAULT => "HAZMAT_VAULT"
  | .HIGH_BAY => "HIGH_BAY"

/-- `ISlottingBayDefinition`. -/
structure ISlottingBayDefinition where
  bayId : String
  warehouseCode : String
  zoneType : SlottingZone
  maxWeightCapacityKg : ℚ
  maxCubicVolumeM3 : ℚ
  currentWeightKg : ℚ
  currentVolumeM3 : ℚ
  assignedSkuList : List String
  pickWalkSequenceIndex : ℤ
  isAccessibleByForklift : Bool
  deriving DecidableEq, Repr

/-- The bay with one more item. -/
def ISlottingBayDefinition.addItem (bay : ISlottingBayDefinition) (sku : String)
    (weightKg volumeM3 : ℚ) : ISlottingBayDefinition :=
  { bay with
    currentWeightKg := bay.currentWeightKg + weightKg
    currentVolumeM3 := bay.currentVolumeM3 + volumeM3
    assignedSkuList := bay.assignedSkuList ++ [sku] }

/-- **`DynamicWarehouseSlottingMatrix`.** -/
structure DynamicWarehouseSlottingMatrix where
  bays : JsMap String ISlottingBayDefinition

namespace DynamicWarehouseSlottingMatrix

/-- `warehouses`. -/
def warehouses : List String := ["WH-NORTH-01", "WH-SOUTH-02", "WH-EAST-03", "WH-WEST-04"]

/-- `zones`. -/
def zones : List SlottingZone := [.MEZZANINE, .BULK_RACK, .COLD_STORAGE, .HAZMAT_VAULT, .HIGH_BAY]

/-- A bay of the seed. -/
def seedBay (wh : String) (zn : SlottingZone) (aisle bay : ℕ) : ISlottingBayDefinition where
  bayId := s!"{wh}_{zn.text}_A{aisle}_B{bay}"
  warehouseCode := wh
  zoneType := zn
  maxWeightCapacityKg := if zn = .HIGH_BAY then 5000 else 2500
  maxCubicVolumeM3 := if zn = .BULK_RACK then 45 else 20
  currentWeightKg := 0
  currentVolumeM3 := 0
  assignedSkuList := []
  pickWalkSequenceIndex := aisle * 10 + bay
  isAccessibleByForklift := decide (zn ≠ .MEZZANINE)

/-- The bays of the seed: the four loops. -/
def seedBays : List ISlottingBayDefinition :=
  warehouses.flatMap fun wh => zones.flatMap fun zn =>
    (List.range' 1 5).flatMap fun aisle => (List.range' 1 6).map fun bay => seedBay wh zn aisle bay

/-- `new DynamicWarehouseSlottingMatrix()`, with `seedSlottingBays()`. -/
def new : DynamicWarehouseSlottingMatrix where
  bays := seedBays.foldl (fun bays bay => bays.set bay.bayId bay) .empty

/-- **`findBestBay(warehouse, zone, weightKg, volumeM3)`.** -/
def findBestBay (s : DynamicWarehouseSlottingMatrix) (warehouse : String) (zone : SlottingZone)
    (weightKg volumeM3 : ℚ) : Option ISlottingBayDefinition :=
  let candidates := s.bays.values.filter fun b =>
    b.warehouseCode = warehouse ∧ b.zoneType = zone ∧
      b.currentWeightKg + weightKg ≤ b.maxWeightCapacityKg ∧
      b.currentVolumeM3 + volumeM3 ≤ b.maxCubicVolumeM3
  if candidates.length = 0 then none
  else (sortBy (fun a b => a.pickWalkSequenceIndex - b.pickWalkSequenceIndex) candidates)[0]?

/-- **`allocateItemToBay(bayId, sku, weightKg, volumeM3)`.** -/
def allocateItemToBay (s : DynamicWarehouseSlottingMatrix) (bayId sku : String)
    (weightKg volumeM3 : ℚ) : DynamicWarehouseSlottingMatrix × Bool :=
  match s.bays.get bayId with
  | none => (s, false)
  | some bay =>
    if bay.maxWeightCapacityKg < bay.currentWeightKg + weightKg ∨
        bay.maxCubicVolumeM3 < bay.currentVolumeM3 + volumeM3 then (s, false)
    else (⟨s.bays.modify bayId (·.addItem sku weightKg volumeM3)⟩, true)

end DynamicWarehouseSlottingMatrix

open DynamicWarehouseSlottingMatrix

/-! ## Runs -/

/-- The arguments of `allocateItemToBay` but for the bay. -/
structure Allocation where
  sku : String
  weightKg : ℚ
  volumeM3 : ℚ
  deriving DecidableEq, Repr

/-- A call. -/
inductive SlottingCall where
  | findBestBay (warehouse : String) (zone : SlottingZone) (weightKg volumeM3 : ℚ)
  | allocateItemToBay (bayId : String) (a : Allocation)
  deriving DecidableEq, Repr

/-- What a call returns. -/
inductive SlottingResult where
  | bay (bay : Option ISlottingBayDefinition)
  | allocated (accepted : Bool)
  deriving DecidableEq, Repr

/-- The runs of the matrix. -/
def slottingMachine : Machine DynamicWarehouseSlottingMatrix SlottingCall SlottingResult where
  call
    | .findBestBay warehouse zone weightKg volumeM3, s =>
      (s, .bay (s.findBestBay warehouse zone weightKg volumeM3))
    | .allocateItemToBay bayId a, s =>
      let (s', accepted) := s.allocateItemToBay bayId a.sku a.weightKg a.volumeM3
      (s', .allocated accepted)

/-- The weight and the volume are not negative. -/
def SlottingCall.NonNegative : SlottingCall → Prop
  | .findBestBay _ _ weightKg volumeM3 => 0 ≤ weightKg ∧ 0 ≤ volumeM3
  | .allocateItemToBay _ a => 0 ≤ a.weightKg ∧ 0 ≤ a.volumeM3

instance : ∀ c : SlottingCall, Decidable c.NonNegative
  | .findBestBay _ _ _ _ | .allocateItemToBay _ _ => inferInstanceAs (Decidable (_ ∧ _))

/-- The allocations that a bay accepted. -/
def acceptedBy (bayId : String)
    (es : List (Event DynamicWarehouseSlottingMatrix SlottingCall SlottingResult)) :
    List Allocation :=
  es.filterMap fun e =>
    match e.input, e.result with
    | .allocateItemToBay id a, .allocated true => if id = bayId then some a else none
    | _, _ => none

/-- **A bay holds the allocations** that it accepted, within its maxima. -/
structure Holds (accepted : List Allocation) (bay : ISlottingBayDefinition) : Prop where
  weight_eq : bay.currentWeightKg = (accepted.map Allocation.weightKg).sum
  volume_eq : bay.currentVolumeM3 = (accepted.map Allocation.volumeM3).sum
  skus_eq : bay.assignedSkuList = accepted.map Allocation.sku
  weight_nonneg : 0 ≤ bay.currentWeightKg
  volume_nonneg : 0 ≤ bay.currentVolumeM3
  weight_le : bay.currentWeightKg ≤ bay.maxWeightCapacityKg
  volume_le : bay.currentVolumeM3 ≤ bay.maxCubicVolumeM3

/-- The bay has room for the weight and the volume. -/
def ISlottingBayDefinition.HasRoom (bay : ISlottingBayDefinition) (weightKg volumeM3 : ℚ) : Prop :=
  bay.currentWeightKg + weightKg ≤ bay.maxWeightCapacityKg ∧
    bay.currentVolumeM3 + volumeM3 ≤ bay.maxCubicVolumeM3

variable {s : DynamicWarehouseSlottingMatrix} {bay : ISlottingBayDefinition} {bayId sku : String}
  {weightKg volumeM3 : ℚ} {accepted : List Allocation}

/-! ## Allocations -/

/-- **What an allocation does**: nothing where the bay has no room, or there is none. -/
theorem allocateItemToBay_cases (s : DynamicWarehouseSlottingMatrix) (bayId sku : String)
    (weightKg volumeM3 : ℚ) :
    ((∀ bay ∈ s.bays.get bayId, ¬ bay.HasRoom weightKg volumeM3) ∧
      s.allocateItemToBay bayId sku weightKg volumeM3 = (s, false)) ∨
    ∃ bay, s.bays.get bayId = some bay ∧ bay.HasRoom weightKg volumeM3 ∧
      s.allocateItemToBay bayId sku weightKg volumeM3 =
        (⟨s.bays.modify bayId (·.addItem sku weightKg volumeM3)⟩, true) := by
  rw [allocateItemToBay]
  cases hget : s.bays.get bayId with
  | none => exact Or.inl ⟨fun bay h => (Option.not_mem_none bay h).elim, rfl⟩
  | some bay =>
    have hroom : ¬ (bay.maxWeightCapacityKg < bay.currentWeightKg + weightKg ∨
        bay.maxCubicVolumeM3 < bay.currentVolumeM3 + volumeM3) ↔ bay.HasRoom weightKg volumeM3 := by
      rw [not_or, not_lt, not_lt]
      rfl
    dsimp only
    split_ifs with hfull
    · refine Or.inl ⟨fun bay' h => ?_, rfl⟩
      obtain rfl := Option.some.inj h
      exact fun h => hroom.mpr h hfull
    · exact Or.inr ⟨bay, rfl, hroom.mp hfull, rfl⟩

theorem allocateItemToBay_refused
    (h : (s.allocateItemToBay bayId sku weightKg volumeM3).2 = false) :
    (s.allocateItemToBay bayId sku weightKg volumeM3).1 = s := by
  obtain ⟨-, hcall⟩ | ⟨bay, -, -, hcall⟩ :=
    allocateItemToBay_cases s bayId sku weightKg volumeM3
  · rw [hcall]
  · rw [hcall] at h
    cases h

theorem allocateItemToBay_snd_iff (hget : s.bays.get bayId = some bay) :
    (s.allocateItemToBay bayId sku weightKg volumeM3).2 = true ↔ bay.HasRoom weightKg volumeM3 := by
  obtain ⟨hno, hcall⟩ | ⟨bay', hget', hroom, hcall⟩ :=
    allocateItemToBay_cases s bayId sku weightKg volumeM3
  · rw [hcall]
    exact iff_of_false Bool.false_ne_true (hno bay hget)
  · obtain rfl := Option.some.inj (hget.symm.trans hget')
    rw [hcall]
    exact iff_of_true rfl hroom

theorem Holds.addItem (h : Holds accepted bay) (a : Allocation) (hweight : 0 ≤ a.weightKg)
    (hvolume : 0 ≤ a.volumeM3) (hroom : bay.HasRoom a.weightKg a.volumeM3) :
    Holds (accepted ++ [a]) (bay.addItem a.sku a.weightKg a.volumeM3) where
  weight_eq := by
    rw [List.map_append, List.sum_append, ← h.weight_eq]
    simp [ISlottingBayDefinition.addItem]
  volume_eq := by
    rw [List.map_append, List.sum_append, ← h.volume_eq]
    simp [ISlottingBayDefinition.addItem]
  skus_eq := by
    rw [List.map_append, ← h.skus_eq]
    rfl
  weight_nonneg := add_nonneg h.weight_nonneg hweight
  volume_nonneg := add_nonneg h.volume_nonneg hvolume
  weight_le := hroom.1
  volume_le := hroom.2

/-! ## All bays -/

/-- **All bays are stored under their ids**, and hold what they accepted. -/
def BaysHold (es : List (Event DynamicWarehouseSlottingMatrix SlottingCall SlottingResult))
    (s : DynamicWarehouseSlottingMatrix) : Prop :=
  ∀ key bay, s.bays.get key = some bay → bay.bayId = key ∧ Holds (acceptedBy key es) bay

theorem get_foldl_set {key : String} {m : JsMap String ISlottingBayDefinition}
    {bays : List ISlottingBayDefinition}
    (h : (bays.foldl (fun m bay => m.set bay.bayId bay) m).get key = some bay) :
    m.get key = some bay ∨ (bay ∈ bays ∧ bay.bayId = key) := by
  induction bays generalizing m with
  | nil => exact Or.inl h
  | cons first bays ih =>
    rcases ih h with hm | ⟨hmem, hkey⟩
    · rw [JsMap.get_set] at hm
      split_ifs at hm with hkey
      · obtain rfl := Option.some.inj hm
        exact Or.inr ⟨List.mem_cons_self, hkey.symm⟩
      · exact Or.inl hm
    · exact Or.inr ⟨List.mem_cons_of_mem _ hmem, hkey⟩

theorem holds_seedBay (wh : String) (zn : SlottingZone) (aisle bay : ℕ) :
    Holds [] (seedBay wh zn aisle bay) where
  weight_eq := rfl
  volume_eq := rfl
  skus_eq := rfl
  weight_nonneg := le_rfl
  volume_nonneg := le_rfl
  weight_le := by
    unfold seedBay
    split_ifs <;> norm_num
  volume_le := by
    unfold seedBay
    split_ifs <;> norm_num

theorem baysHold_foldl_set {bays : List ISlottingBayDefinition} (h : ∀ bay ∈ bays, Holds [] bay) :
    BaysHold [] ⟨bays.foldl (fun bays bay => bays.set bay.bayId bay) .empty⟩ := by
  intro key bay hget
  obtain hget | ⟨hmem, hkey⟩ := get_foldl_set hget
  · cases hget
  · exact ⟨hkey, h bay hmem⟩

theorem baysHold_new : BaysHold [] new := by
  refine baysHold_foldl_set fun bay hmem => ?_
  simp only [seedBays, List.mem_flatMap, List.mem_map] at hmem
  obtain ⟨wh, -, zn, -, aisle, -, n, -, rfl⟩ := hmem
  exact holds_seedBay wh zn aisle n

theorem acceptedBy_append (es es' : List (Event DynamicWarehouseSlottingMatrix SlottingCall
    SlottingResult)) : acceptedBy bayId (es ++ es') = acceptedBy bayId es ++ acceptedBy bayId es' :=
  List.filterMap_append

theorem acceptedBy_event (key bayId : String) (a : Allocation)
    (s : DynamicWarehouseSlottingMatrix) :
    acceptedBy key [slottingMachine.event s (.allocateItemToBay bayId a)] =
      if (s.allocateItemToBay bayId a.sku a.weightKg a.volumeM3).2 = true ∧ bayId = key then [a]
      else [] := by
  have hevent : slottingMachine.event s (.allocateItemToBay bayId a) =
      ⟨s, .allocateItemToBay bayId a, (s.allocateItemToBay bayId a.sku a.weightKg a.volumeM3).1,
        .allocated (s.allocateItemToBay bayId a.sku a.weightKg a.volumeM3).2⟩ := rfl
  rw [hevent, acceptedBy]
  generalize s.allocateItemToBay bayId a.sku a.weightKg a.volumeM3 = r
  obtain ⟨s', _ | _⟩ := r
  · simp
  · by_cases hkey : bayId = key <;> simp [hkey]

theorem BaysHold.next {es : List (Event DynamicWarehouseSlottingMatrix SlottingCall SlottingResult)}
    (h : BaysHold es s) (call : SlottingCall) (hcall : call.NonNegative) :
    BaysHold (es ++ [slottingMachine.event s call]) (slottingMachine.next s call) := by
  intro key bay hget
  rw [acceptedBy_append]
  cases call with
  | findBestBay warehouse zone weightKg volumeM3 =>
    exact (List.append_nil (acceptedBy key es)).symm ▸ h key bay hget
  | allocateItemToBay bayId a =>
    have hnext : slottingMachine.next s (.allocateItemToBay bayId a) =
        (s.allocateItemToBay bayId a.sku a.weightKg a.volumeM3).1 := rfl
    rw [hnext] at hget
    rw [acceptedBy_event]
    obtain ⟨-, hstep⟩ | ⟨bay', hget', hroom, hstep⟩ :=
      allocateItemToBay_cases s bayId a.sku a.weightKg a.volumeM3
    · rw [hstep] at hget ⊢
      rw [if_neg fun hc => Bool.false_ne_true hc.1, List.append_nil]
      exact h key bay hget
    · rw [hstep] at hget ⊢
      by_cases hkey : bayId = key
      · subst hkey
        rw [JsMap.get_modify_self hget'] at hget
        obtain rfl := Option.some.inj hget
        obtain ⟨hid, hholds⟩ := h bayId bay' hget'
        rw [if_pos ⟨rfl, rfl⟩]
        exact ⟨hid, hholds.addItem a hcall.1 hcall.2 hroom⟩
      · rw [JsMap.get_modify_ne (Ne.symm hkey)] at hget
        rw [if_neg fun hc => hkey hc.2, List.append_nil]
        exact h key bay hget

/-- **All bays hold what they accepted**, after every run. -/
theorem baysHold_run (calls : List SlottingCall) (hcalls : ∀ call ∈ calls, call.NonNegative) :
    BaysHold (slottingMachine.history new calls) (slottingMachine.run new calls) := by
  have hok : ∀ e ∈ slottingMachine.history new calls, e.input.NonNegative := fun e he =>
    hcalls e.input (Machine.input_mem_of_mem_history he)
  refine Machine.history_invariant baysHold_new ?_ calls hok
  exact fun es s call h => h.next call

/-! ## Searches -/

variable {es : List (Event DynamicWarehouseSlottingMatrix SlottingCall SlottingResult)}

theorem BaysHold.get_bayId (h : BaysHold es s) (hbay : bay ∈ s.bays.values) :
    s.bays.get bay.bayId = some bay := by
  obtain ⟨key, hget⟩ := JsMap.exists_get_of_mem_values hbay
  rwa [(h key bay hget).1]

/-- A bay comes on the walk of the pickers before another one, or at the same place. -/
def WalksBefore (a b : ISlottingBayDefinition) : Prop :=
  a.pickWalkSequenceIndex ≤ b.pickWalkSequenceIndex

instance : Std.Total WalksBefore where
  total _ _ := Int.le_total _ _

instance : IsTrans ISlottingBayDefinition WalksBefore where
  trans _ _ _ h h' := Int.le_trans h h'

/-- The bays of a zone of a warehouse that would accept an item. -/
def AcceptsIn (s : DynamicWarehouseSlottingMatrix) (warehouse : String) (zone : SlottingZone)
    (weightKg volumeM3 : ℚ) (bay : ISlottingBayDefinition) : Prop :=
  (bay ∈ s.bays.values ∧ bay.warehouseCode = warehouse ∧ bay.zoneType = zone) ∧
    ∀ sku, (s.allocateItemToBay bay.bayId sku weightKg volumeM3).2 = true

/-- **The best bay**: none where all would refuse the item, and else a first one on the walk of
those that would accept it. -/
structure BestBay (s : DynamicWarehouseSlottingMatrix) (warehouse : String) (zone : SlottingZone)
    (weightKg volumeM3 : ℚ) (best : Option ISlottingBayDefinition) : Prop where
  eq_none_iff : best = none ↔ ∀ bay ∈ s.bays.values, bay.warehouseCode = warehouse →
    bay.zoneType = zone → ∀ sku, (s.allocateItemToBay bay.bayId sku weightKg volumeM3).2 = false
  accepts : ∀ bay ∈ best, AcceptsIn s warehouse zone weightKg volumeM3 bay
  first : ∀ bay ∈ best, ∀ other, AcceptsIn s warehouse zone weightKg volumeM3 other →
    bay.pickWalkSequenceIndex ≤ other.pickWalkSequenceIndex

theorem mem_candidates {warehouse : String} {zone : SlottingZone} (h : BaysHold es s) :
    bay ∈ s.bays.values ∧ bay.warehouseCode = warehouse ∧ bay.zoneType = zone ∧
      bay.HasRoom weightKg volumeM3 ↔ AcceptsIn s warehouse zone weightKg volumeM3 bay := by
  rw [AcceptsIn, and_assoc, and_assoc]
  refine and_congr_right fun hmem => and_congr_right fun _ => and_congr_right fun _ => ?_
  rw [forall_congr' fun sku => allocateItemToBay_snd_iff (h.get_bayId hmem), forall_const]

/-- **Every search keeps its promise.** -/
theorem findBestBay_best (h : BaysHold es s) (warehouse : String) (zone : SlottingZone)
    (weightKg volumeM3 : ℚ) : BestBay s warehouse zone weightKg volumeM3
      (s.findBestBay warehouse zone weightKg volumeM3) := by
  rw [findBestBay]
  generalize hcandidates : s.bays.values.filter _ = candidates
  have hmem : ∀ bay, bay ∈ candidates ↔ AcceptsIn s warehouse zone weightKg volumeM3 bay := by
    intro bay
    rw [← hcandidates, List.mem_filter, decide_eq_true_eq]
    exact mem_candidates h
  split_ifs with hempty
  · have hnil : candidates = [] := List.length_eq_zero_iff.mp hempty
    refine ⟨iff_of_true rfl fun bay hbay hwarehouse hzone sku => ?_, nofun, nofun⟩
    by_contra haccepted
    have hroom := (allocateItemToBay_snd_iff (h.get_bayId hbay)).mp
      (Bool.eq_true_of_not_eq_false haccepted)
    have hin := (hmem bay).mpr ((mem_candidates h).mp ⟨hbay, hwarehouse, hzone, hroom⟩)
    exact List.not_mem_nil (hnil ▸ hin)
  · cases hfirst : (sortBy (fun a b : ISlottingBayDefinition =>
        a.pickWalkSequenceIndex - b.pickWalkSequenceIndex) candidates)[0]? with
    | none =>
      rw [List.getElem?_eq_none_iff, (perm_sortBy _ candidates).length_eq] at hfirst
      exact absurd (Nat.le_zero.mp hfirst) hempty
    | some best =>
      obtain ⟨hbest, hbefore⟩ := sortBy_first (r := WalksBefore) (fun _ _ => sub_nonpos) hfirst
      have haccepts := (hmem best).mp hbest
      refine ⟨iff_of_false (Option.some_ne_none _) fun hrefused => ?_, ?_, ?_⟩
      · obtain ⟨⟨hbay, hwarehouse, hzone⟩, haccepted⟩ := haccepts
        have hcontra := (hrefused best hbay hwarehouse hzone "").symm.trans (haccepted "")
        exact Bool.false_ne_true hcontra
      · rintro bay hbay
        obtain rfl := Option.some.inj hbay
        exact haccepts
      · rintro bay hbay other hother
        obtain rfl := Option.some.inj hbay
        exact hbefore other ((hmem other).mpr hother)

/-- **The bays are sound**: they hold what they accepted, a refused allocation changes nothing, and
a search finds the best bay. -/
structure SoundBays (es : List (Event DynamicWarehouseSlottingMatrix SlottingCall SlottingResult))
    (s : DynamicWarehouseSlottingMatrix) : Prop where
  hold : BaysHold es s
  refused : ∀ bayId sku weightKg volumeM3,
    (s.allocateItemToBay bayId sku weightKg volumeM3).2 = false →
      (s.allocateItemToBay bayId sku weightKg volumeM3).1 = s
  best : ∀ warehouse zone weightKg volumeM3, BestBay s warehouse zone weightKg volumeM3
    (s.findBestBay warehouse zone weightKg volumeM3)

/-- **The bays are sound in every state** that calls with weights and volumes reach that are not
negative. -/
theorem soundBays_run (calls : List SlottingCall) (hcalls : ∀ call ∈ calls, call.NonNegative) :
    SoundBays (slottingMachine.history new calls) (slottingMachine.run new calls) where
  hold := baysHold_run calls hcalls
  refused _ _ _ _ := allocateItemToBay_refused
  best := findBestBay_best (baysHold_run calls hcalls)

/-- Two items for a bay, which has no room for the second one. -/
def twoItems : List SlottingCall :=
  [.allocateItemToBay "WH-NORTH-01_MEZZANINE_A1_B1" ⟨"SKU-1", 2000, 5⟩,
    .allocateItemToBay "WH-NORTH-01_MEZZANINE_A1_B1" ⟨"SKU-2", 600, 5⟩]

/-- A case: these two items. -/
theorem soundBays_run_two :
    SoundBays (slottingMachine.history new twoItems) (slottingMachine.run new twoItems) :=
  soundBays_run twoItems (by decide +kernel)

end Logix.Inventory
