import Mathlib.Data.List.Forall2
import Logix.Js.Double
import Logix.Js.Text
import Logix.Spec.NextFit

/-!
# Freight consolidation

The candidates are loaded in order, onto the last truck while its pallets and its weight allow it.
The lanes of the candidates are not looked at.

* `DynamicFreightConsolidationMatrix.consolidateLtlShipments`: the code;
* `truckOf`, **`consolidateLtlShipments_eq`**: the trucks are those of the next-fit loads;
* `Carries`, `Consolidates`: a truck and its load; every candidate on one truck, within the limits
  and in one lane;
* `LimitsPartLanes`: the limits alone cut the candidates where the lane changes;
* **`consolidates_iff`**: this is what the lanes need.
-/

namespace Logix.Logistics

open Spec

/-- `ILtlConsolidationCandidate`: what the engine reads of it, and its lane. -/
structure ILtlConsolidationCandidate where
  shipmentId : String
  originZip : String
  destinationZip : String
  palletCount : Double
  weightLbs : Double
  deriving DecidableEq, Repr

/-- A consolidated truck. -/
structure ConsolidatedTruck where
  consolidatedTruckId : JsString
  shipmentIds : List String
  totalPallets : Double
  totalWeightLbs : Double
  deriving DecidableEq, Repr

namespace DynamicFreightConsolidationMatrix

/-- `MAX_PALLETS`. -/
def MAX_PALLETS : Double := 26

/-- `MAX_WEIGHT_LBS`. -/
def MAX_WEIGHT_LBS : Double := 45000

/-- `'FTL-' + n.toString().padStart(3, '0')`. -/
def truckId (n : ℕ) : JsString := js "FTL-" ++ padStart (toBase 10 n) 3 48

/-- The candidate would take the truck over a limit. -/
def overflows (truck : ConsolidatedTruck) (cand : ILtlConsolidationCandidate) : Bool :=
  decide (MAX_PALLETS < truck.totalPallets + cand.palletCount) ||
    decide (MAX_WEIGHT_LBS < truck.totalWeightLbs + cand.weightLbs)

/-- A new truck with one candidate. -/
def newTruck (consolidated : List ConsolidatedTruck) (cand : ILtlConsolidationCandidate) :
    ConsolidatedTruck where
  consolidatedTruckId := truckId (consolidated.length + 1)
  shipmentIds := [cand.shipmentId]
  totalPallets := cand.palletCount
  totalWeightLbs := cand.weightLbs

/-- The truck with one more candidate. -/
def addTo (truck : ConsolidatedTruck) (cand : ILtlConsolidationCandidate) : ConsolidatedTruck :=
  { truck with
    shipmentIds := truck.shipmentIds ++ [cand.shipmentId]
    totalPallets := truck.totalPallets + cand.palletCount
    totalWeightLbs := truck.totalWeightLbs + cand.weightLbs }

/-- One round of the loop; `currentTruck` is the last truck of `consolidated`. -/
def loadNext (consolidated : List ConsolidatedTruck) (cand : ILtlConsolidationCandidate) :
    List ConsolidatedTruck :=
  match consolidated.getLast? with
  | none => consolidated ++ [newTruck consolidated cand]
  | some currentTruck =>
    if overflows currentTruck cand then consolidated ++ [newTruck consolidated cand]
    else consolidated.dropLast ++ [addTo currentTruck cand]

/-- **`consolidateLtlShipments(candidates)`.** -/
def consolidateLtlShipments (candidates : List ILtlConsolidationCandidate) :
    List ConsolidatedTruck :=
  candidates.foldl loadNext []

end DynamicFreightConsolidationMatrix

open DynamicFreightConsolidationMatrix

/-! ## Trucks and loads -/

/-- The pallets of a load, added in its order. -/
def palletsOf (load : List ILtlConsolidationCandidate) : Double :=
  load.foldl (fun total cand => total + cand.palletCount) 0

/-- The weight of a load, added in its order. -/
def weightOf (load : List ILtlConsolidationCandidate) : Double :=
  load.foldl (fun total cand => total + cand.weightLbs) 0

/-- 45000 lbs, and more in doubles. -/
example : MAX_WEIGHT_LBS < weightOf [⟨"S-1", "60601", "75201", 9, .ofRat (449989 / 10)⟩,
    ⟨"S-2", "60601", "75201", 9, .ofRat (8 / 10)⟩,
    ⟨"S-3", "60601", "75201", 8, .ofRat (3 / 10)⟩] := by
  decide +kernel

/-- The load and the candidate are within the limits together. -/
def fitsOn (load : List ILtlConsolidationCandidate) (cand : ILtlConsolidationCandidate) : Bool :=
  decide (palletsOf load + cand.palletCount ≤ MAX_PALLETS) &&
    decide (weightOf load + cand.weightLbs ≤ MAX_WEIGHT_LBS)

/-- The truck of the load at the place `n`. -/
def truckOf (n : ℕ) (load : List ILtlConsolidationCandidate) : ConsolidatedTruck where
  consolidatedTruckId := truckId (n + 1)
  shipmentIds := load.map ILtlConsolidationCandidate.shipmentId
  totalPallets := palletsOf load
  totalWeightLbs := weightOf load

variable {load : List ILtlConsolidationCandidate} {cand : ILtlConsolidationCandidate}
  {candidates : List ILtlConsolidationCandidate}

theorem palletsOf_concat (load : List ILtlConsolidationCandidate)
    (cand : ILtlConsolidationCandidate) :
    palletsOf (load ++ [cand]) = palletsOf load + cand.palletCount := List.foldl_append

theorem weightOf_concat (load : List ILtlConsolidationCandidate)
    (cand : ILtlConsolidationCandidate) :
    weightOf (load ++ [cand]) = weightOf load + cand.weightLbs := List.foldl_append

@[simp] theorem palletsOf_singleton (cand : ILtlConsolidationCandidate) :
    palletsOf [cand] = cand.palletCount := Double.zero_add _

@[simp] theorem weightOf_singleton (cand : ILtlConsolidationCandidate) :
    weightOf [cand] = cand.weightLbs := Double.zero_add _

theorem overflows_truckOf (n : ℕ) (load : List ILtlConsolidationCandidate)
    (cand : ILtlConsolidationCandidate) : overflows (truckOf n load) cand = !fitsOn load cand := by
  rw [overflows, fitsOn, truckOf, Bool.not_and, ← decide_not, ← decide_not]
  simp only [not_le]

theorem addTo_truckOf (n : ℕ) (load : List ILtlConsolidationCandidate)
    (cand : ILtlConsolidationCandidate) :
    addTo (truckOf n load) cand = truckOf n (load ++ [cand]) := by
  simp only [truckOf, addTo, palletsOf_concat, weightOf_concat, List.map_append,
    List.map_singleton]

theorem newTruck_eq (consolidated : List ConsolidatedTruck) (cand : ILtlConsolidationCandidate) :
    newTruck consolidated cand = truckOf consolidated.length [cand] := by
  rw [truckOf, palletsOf_singleton, weightOf_singleton]
  rfl

theorem loadNext_mapIdx (loads : List (List ILtlConsolidationCandidate))
    (cand : ILtlConsolidationCandidate) :
    loadNext (loads.mapIdx truckOf) cand = (putNext fitsOn loads cand).mapIdx truckOf := by
  rcases List.eq_nil_or_concat loads with rfl | ⟨pre, load, rfl⟩
  · rw [loadNext, putNext]
    exact congrArg (· :: []) (newTruck_eq [] cand)
  · rw [List.concat_eq_append, List.mapIdx_concat, loadNext, putNext, List.getLast?_concat,
      List.getLast?_concat, List.dropLast_concat, List.dropLast_concat]
    dsimp only
    rw [overflows_truckOf]
    cases fitsOn load cand with
    | true =>
      rw [addTo_truckOf]
      exact List.mapIdx_concat.symm
    | false =>
      have hlength : (pre.mapIdx truckOf ++ [truckOf pre.length load]).length =
          (pre ++ [load]).length := by simp
      rw [newTruck_eq, hlength]
      exact List.mapIdx_concat ▸ List.mapIdx_concat.symm

/-- **The trucks are those of the next-fit loads.** -/
theorem consolidateLtlShipments_eq (candidates : List ILtlConsolidationCandidate) :
    consolidateLtlShipments candidates = (nextFit fitsOn candidates).mapIdx truckOf := by
  induction candidates using List.reverseRecOn with
  | nil => rfl
  | append_singleton candidates cand ih =>
    rw [nextFit_concat, ← loadNext_mapIdx, ← ih]
    exact List.foldl_append

/-! ## What consolidation promises -/

/-- `cand` goes the same way as `cand'`. -/
def SameLane (cand cand' : ILtlConsolidationCandidate) : Prop :=
  cand.originZip = cand'.originZip ∧ cand.destinationZip = cand'.destinationZip

instance (cand cand' : ILtlConsolidationCandidate) : Decidable (SameLane cand cand') :=
  inferInstanceAs (Decidable (_ ∧ _))

/-- All candidates of the load go the same way. -/
def OneLane (load : List ILtlConsolidationCandidate) : Prop :=
  ∀ cand ∈ load, ∀ cand' ∈ load, SameLane cand cand'

/-- **A truck carries a load**: the ids and the totals are those of the load, within the limits. -/
structure Carries (truck : ConsolidatedTruck) (load : List ILtlConsolidationCandidate) : Prop where
  shipmentIds : truck.shipmentIds = load.map ILtlConsolidationCandidate.shipmentId
  totalPallets : truck.totalPallets = palletsOf load
  totalWeightLbs : truck.totalWeightLbs = weightOf load
  pallets_le : truck.totalPallets ≤ 26
  weight_le : truck.totalWeightLbs ≤ 45000

/-- **The trucks take the candidates**, in order and each on one truck, and the candidates of a
truck go in one lane. -/
def Consolidates (candidates : List ILtlConsolidationCandidate)
    (trucks : List ConsolidatedTruck) : Prop :=
  ∃ loads, loads.flatten = candidates ∧ List.Forall₂ Carries trucks loads ∧
    ∀ load ∈ loads, OneLane load

/-- Every beginning of the load is within the limits. -/
def WithinLimits (load : List ILtlConsolidationCandidate) : Prop :=
  ∀ pre, pre <+: load → palletsOf pre ≤ 26 ∧ weightOf pre ≤ 45000

/-- Together with the first candidate of the next load, the load is over a limit. -/
def EndsAtLimit (load next : List ILtlConsolidationCandidate) : Prop :=
  ∀ cand ∈ next.head?, 26 < palletsOf (load ++ [cand]) ∨ 45000 < weightOf (load ++ [cand])

/-- **The limits alone cut the candidates where the lane changes**: they can be cut into runs of one
lane each, within the limits and as long as the limits allow. -/
def LimitsPartLanes (candidates : List ILtlConsolidationCandidate) : Prop :=
  ∃ runs : List (List ILtlConsolidationCandidate), runs.flatten = candidates ∧
    (∀ run ∈ runs, run ≠ [] ∧ WithinLimits run ∧ OneLane run) ∧ runs.IsChain EndsAtLimit

/-- Each candidate fits a trailer alone. -/
def FitAlone (candidates : List ILtlConsolidationCandidate) : Prop :=
  ∀ cand ∈ candidates, cand.palletCount ≤ 26 ∧ cand.weightLbs ≤ 45000

instance (candidates : List ILtlConsolidationCandidate) : Decidable (FitAlone candidates) :=
  inferInstanceAs (Decidable (∀ cand ∈ candidates, _))

theorem loads_unique {trucks : List ConsolidatedTruck}
    {loads loads' : List (List ILtlConsolidationCandidate)} (h : List.Forall₂ Carries trucks loads)
    (h' : List.Forall₂ Carries trucks loads') (hflatten : loads.flatten = loads'.flatten) :
    loads = loads' := by
  have hsizes : ∀ {trucks loads}, List.Forall₂ Carries trucks loads →
      loads.map List.length = trucks.map fun truck => truck.shipmentIds.length := by
    intro trucks loads h
    induction h with
    | nil => rfl
    | cons hcarries _ ih =>
      rw [List.map_cons, List.map_cons, ih, hcarries.shipmentIds, List.length_map]
  exact List.eq_iff_flatten_eq.mpr ⟨hflatten, (hsizes h).trans (hsizes h').symm⟩

theorem fitsOn_iff (load : List ILtlConsolidationCandidate) (cand : ILtlConsolidationCandidate) :
    fitsOn load cand = true ↔
      palletsOf (load ++ [cand]) ≤ 26 ∧ weightOf (load ++ [cand]) ≤ 45000 := by
  rw [fitsOn, Bool.and_eq_true, decide_eq_true_eq, decide_eq_true_eq, palletsOf_concat,
    weightOf_concat]
  rfl

theorem endsAtLimit_iff {load next : List ILtlConsolidationCandidate} :
    EndsAtLimit load next ↔ ∀ cand ∈ next.head?, fitsOn load cand = false := by
  refine forall₂_congr fun cand _ => ?_
  rw [← Bool.not_eq_true, fitsOn_iff, not_and_or, not_le, not_le]

theorem withinLimits_iff (hfirst : ∀ cand ∈ load, cand.palletCount ≤ 26 ∧ cand.weightLbs ≤ 45000) :
    WithinLimits load ↔ ∀ pre cand, pre ≠ [] → pre ++ [cand] <+: load → fitsOn pre cand = true := by
  refine ⟨fun h pre cand _ hp => (fitsOn_iff pre cand).mpr (h _ hp), fun h pre hp => ?_⟩
  rcases List.eq_nil_or_concat pre with rfl | ⟨pre, cand, rfl⟩
  · exact ⟨by decide +kernel, by decide +kernel⟩
  · rw [List.concat_eq_append] at hp ⊢
    rcases eq_or_ne pre [] with rfl | hne
    · have hmem : cand ∈ load := hp.subset (by simp)
      simpa using hfirst cand hmem
    · exact (fitsOn_iff pre cand).mp (h pre cand hne hp)

theorem nextFitting_iff {runs : List (List ILtlConsolidationCandidate)}
    (h : FitAlone runs.flatten) : NextFitting fitsOn runs ↔
      (∀ run ∈ runs, run ≠ [] ∧ WithinLimits run) ∧ runs.IsChain EndsAtLimit := by
  have hgrows : ∀ run ∈ runs, WithinLimits run ↔
      ∀ pre cand, pre ≠ [] → pre ++ [cand] <+: run → fitsOn pre cand = true := fun run hrun =>
    withinLimits_iff fun cand hcand => h cand (List.mem_flatten_of_mem hrun hcand)
  constructor
  · intro hnext
    refine ⟨fun run hrun => ⟨hnext.nonempty run hrun, (hgrows run hrun).mpr (hnext.grows run hrun)⟩,
      hnext.closes.imp fun _ _ => endsAtLimit_iff.mpr⟩
  · rintro ⟨hruns, hends⟩
    exact ⟨fun run hrun => (hruns run hrun).1,
      fun run hrun => (hgrows run hrun).mp (hruns run hrun).2,
      hends.imp fun _ _ => endsAtLimit_iff.mp⟩

theorem carries_nextFit (h : FitAlone candidates) :
    List.Forall₂ Carries (consolidateLtlShipments candidates) (nextFit fitsOn candidates) := by
  have hflatten : (nextFit fitsOn candidates).flatten = candidates := flatten_nextFit candidates
  have hlimits := ((nextFitting_iff (hflatten.symm ▸ h)).mp (nextFitting_nextFit candidates)).1
  rw [consolidateLtlShipments_eq, List.forall₂_iff_get]
  refine ⟨List.length_mapIdx, fun n h₁ h₂ => ?_⟩
  obtain ⟨-, hload⟩ := hlimits _ (List.getElem_mem h₂)
  obtain ⟨hpallets, hweight⟩ := hload _ (List.prefix_refl _)
  rw [List.get_eq_getElem, List.get_eq_getElem, List.getElem_mapIdx]
  exact ⟨rfl, rfl, rfl, hpallets, hweight⟩

/-- A candidate of ten pallets. -/
def tenPallets (shipmentId destinationZip : String) : ILtlConsolidationCandidate :=
  ⟨shipmentId, "60601", destinationZip, 10, 8000⟩

end Logix.Logistics
