import Logix.Spec.Ranking
import Mathlib.Algebra.Order.Floor.Semifield
import Mathlib.Algebra.Order.Ring.Rat
import Mathlib.Data.Rat.Floor
import Mathlib.Tactic.Ring

/-!
# Who gets the golden zone?

The plan ranks the items by how often they are picked and deals the ranking out: the first fifth to
the bays of aisle 1, up to the half to those of aisle 2, the rest to aisle 3.

* `AisleSlottingOptimizationEngine.generateSlottingPlan`: the code;
* `bays`: the places of the plan, aisle by aisle;
* `Zoned`: the ranking, who is in which place, and that no choice of as many items is picked more
  often than those at the front;
* **`generateSlottingPlan_zoned`**: this holds of every list of items.
-/

namespace Logix.Inventory

open Spec

/-- `ISkuVelocityMetrics`: what the plan reads of it. -/
structure ISkuVelocityMetrics where
  sku : String
  dailyPickFrequency : ℚ
  deriving DecidableEq, Repr

/-- `recommendedVelocityCategory`. -/
inductive VelocityCategory where
  | CLASS_A_GOLDEN_ZONE | CLASS_B_MID_AISLE | CLASS_C_SLOW_STORAGE
  deriving DecidableEq, Repr

/-- `ISlottingRecommendation`. -/
structure ISlottingRecommendation where
  sku : String
  recommendedVelocityCategory : VelocityCategory
  targetAisle : ℕ
  targetBay : ℕ
  estimatedTravelTimeReductionPct : ℚ
  deriving DecidableEq, Repr

/-- The sort leaves `a` before `b`: `b.dailyPickFrequency - a.dailyPickFrequency` is not
positive. -/
def fasterMover (a b : ISkuVelocityMetrics) : Prop :=
  b.dailyPickFrequency - a.dailyPickFrequency ≤ 0

instance : DecidableRel fasterMover := fun a b =>
  inferInstanceAs (Decidable (b.dailyPickFrequency - a.dailyPickFrequency ≤ 0))

theorem fasterMover_iff {a b : ISkuVelocityMetrics} :
    fasterMover a b ↔ b.dailyPickFrequency ≤ a.dailyPickFrequency := sub_nonpos

instance : Std.Total fasterMover :=
  ⟨fun a b => (le_total b.dailyPickFrequency a.dailyPickFrequency).imp fasterMover_iff.mpr
    fasterMover_iff.mpr⟩

instance : IsTrans ISkuVelocityMetrics fasterMover :=
  ⟨fun _ _ _ hab hbc =>
    fasterMover_iff.mpr ((fasterMover_iff.mp hbc).trans (fasterMover_iff.mp hab))⟩

namespace AisleSlottingOptimizationEngine

/-- `classACutoff`. -/
def classACutoff (totalItems : ℕ) : ℕ := ⌊(totalItems : ℚ) * (20 / 100)⌋₊

/-- `classBCutoff`. -/
def classBCutoff (totalItems : ℕ) : ℕ := ⌊(totalItems : ℚ) * (50 / 100)⌋₊

/-- The recommendation for the item at `idx`. -/
def recommend (totalItems : ℕ) (item : ISkuVelocityMetrics) (idx : ℕ) : ISlottingRecommendation :=
  if idx < classACutoff totalItems then
    { sku := item.sku
      recommendedVelocityCategory := .CLASS_A_GOLDEN_ZONE
      targetAisle := 1
      targetBay := idx + 1
      estimatedTravelTimeReductionPct := 345 / 10 }
  else if idx < classBCutoff totalItems then
    { sku := item.sku
      recommendedVelocityCategory := .CLASS_B_MID_AISLE
      targetAisle := 2
      targetBay := idx - classACutoff totalItems + 1
      estimatedTravelTimeReductionPct := 182 / 10 }
  else
    { sku := item.sku
      recommendedVelocityCategory := .CLASS_C_SLOW_STORAGE
      targetAisle := 3
      targetBay := idx - classBCutoff totalItems + 1
      estimatedTravelTimeReductionPct := 4 }

/-- **`generateSlottingPlan(metrics)`.** -/
def generateSlottingPlan (metrics : List ISkuVelocityMetrics) : List ISlottingRecommendation :=
  let sorted := metrics.insertionSort fasterMover
  sorted.zipIdx.map fun e => recommend sorted.length e.1 e.2

end AisleSlottingOptimizationEngine

open AisleSlottingOptimizationEngine

/-! ## The places -/

/-- **The places for `n` items**: a fifth in aisle 1, up to the half in aisle 2, the rest in
aisle 3, each from bay 1 on. -/
def bays (n : ℕ) : List (ℕ × ℕ) :=
  (List.range' 1 (n / 5)).map (Prod.mk 1) ++ (List.range' 1 (n / 2 - n / 5)).map (Prod.mk 2) ++
    (List.range' 1 (n - n / 2)).map (Prod.mk 3)

theorem classACutoff_eq (n : ℕ) : classACutoff n = n / 5 := by
  rw [classACutoff, ← Nat.floor_div_eq_div (K := ℚ)]
  congr 1
  rw [Nat.cast_ofNat]
  ring

theorem classBCutoff_eq (n : ℕ) : classBCutoff n = n / 2 := by
  rw [classBCutoff, ← Nat.floor_div_eq_div (K := ℚ)]
  congr 1
  rw [Nat.cast_ofNat]
  ring

/-- The place of a recommendation. -/
def placeOf (r : ISlottingRecommendation) : ℕ × ℕ := (r.targetAisle, r.targetBay)

/-- The place for the item at `idx`. -/
def placeAt (n idx : ℕ) : ℕ × ℕ :=
  if idx < n / 5 then (1, idx + 1)
  else if idx < n / 2 then (2, idx - n / 5 + 1)
  else (3, idx - n / 2 + 1)

theorem placeOf_recommend (n : ℕ) (item : ISkuVelocityMetrics) (idx : ℕ) :
    placeOf (recommend n item idx) = placeAt n idx := by
  rw [recommend, classACutoff_eq, classBCutoff_eq, placeAt]
  split_ifs <;> rfl

theorem sku_recommend (n : ℕ) (item : ISkuVelocityMetrics) (idx : ℕ) :
    (recommend n item idx).sku = item.sku := by
  rw [recommend]
  split_ifs <;> rfl

theorem map_placeAt (n : ℕ) : (List.range n).map (placeAt n) = bays n := by
  obtain ⟨hB, hn⟩ : n / 5 + (n / 2 - n / 5) = n / 2 ∧ n / 2 + (n - n / 2) = n := by omega
  have hsplit : List.range n = List.range (n / 5) ++
      (List.range (n / 2 - n / 5)).map (n / 5 + ·) ++ (List.range (n - n / 2)).map (n / 2 + ·) := by
    rw [← List.range_add, hB, ← List.range_add, hn]
  rw [hsplit, bays, List.map_append, List.map_append, List.map_map, List.map_map]
  simp only [List.range'_eq_map_range, List.map_map]
  congr 1
  · congr 1
    · refine List.map_congr_left fun idx hidx => ?_
      rw [placeAt, if_pos (List.mem_range.mp hidx), Function.comp_apply, add_comm]
    · refine List.map_congr_left fun idx hidx => ?_
      have hlt := List.mem_range.mp hidx
      simp only [Function.comp_apply, placeAt]
      rw [if_neg (by omega), if_pos (by omega), Nat.add_sub_cancel_left, add_comm]
  · refine List.map_congr_left fun idx _ => ?_
    simp only [Function.comp_apply, placeAt]
    rw [if_neg (by omega), if_neg (by omega), Nat.add_sub_cancel_left, add_comm]

theorem nodup_bays (n : ℕ) : (bays n).Nodup := by
  have haisle (aisle k : ℕ) : ((List.range' 1 k).map (Prod.mk aisle)).Nodup :=
    (List.nodup_range' (s := 1) (n := k)).map (Prod.mk_right_injective aisle)
  have hne {aisle aisle' k k' : ℕ} (h : aisle ≠ aisle') :
      ((List.range' 1 k).map (Prod.mk aisle)).Disjoint
        ((List.range' 1 k').map (Prod.mk aisle')) := by
    intro p hp hp'
    obtain ⟨_, -, rfl⟩ := List.mem_map.mp hp
    obtain ⟨_, -, heq⟩ := List.mem_map.mp hp'
    exact h (Prod.mk.inj heq).1.symm
  rw [bays, List.nodup_append', List.nodup_append', List.disjoint_append_left]
  exact ⟨⟨haisle 1 _, haisle 2 _, hne (by decide)⟩, haisle 3 _, hne (by decide), hne (by decide)⟩

/-! ## The plan -/

/-- **What the plan does with the items.** -/
structure Zoned (metrics : List ISkuVelocityMetrics) (plan : List ISlottingRecommendation) :
    Prop where
  /-- The fastest movers come first, ties in the given order. -/
  ranking : ∃ ranking, Ranked fasterMover metrics ranking ∧
    plan.map ISlottingRecommendation.sku = ranking.map ISkuVelocityMetrics.sku ∧
    -- no choice of as many items is picked more often than those at the front
    ∀ chosen, List.Sublist chosen metrics →
      (chosen.map ISkuVelocityMetrics.dailyPickFrequency).sum ≤
        ((ranking.take chosen.length).map ISkuVelocityMetrics.dailyPickFrequency).sum
  /-- The places are filled aisle by aisle. -/
  places : plan.map placeOf = bays metrics.length
  /-- No place is given to two items. -/
  apart : (plan.map placeOf).Nodup

theorem length_sorted (metrics : List ISkuVelocityMetrics) :
    (metrics.insertionSort fasterMover).length = metrics.length :=
  (List.perm_insertionSort fasterMover metrics).length_eq

theorem sum_chosen_le {metrics chosen ranking : List ISkuVelocityMetrics}
    (hranked : Ranked fasterMover metrics ranking) (hchosen : List.Sublist chosen metrics) :
    (chosen.map ISkuVelocityMetrics.dailyPickFrequency).sum ≤
      ((ranking.take chosen.length).map ISkuVelocityMetrics.dailyPickFrequency).sum := by
  obtain ⟨chosen', hperm, hsublist⟩ := hchosen.subperm.trans hranked.perm.symm.subperm
  rw [← (hperm.map _).sum_eq, ← hperm.length_eq]
  exact sum_le_sum_take (hranked.ordered.imp fun h => fasterMover_iff.mp h.1) hsublist

/-- **Every list of items is dealt out so.** -/
theorem generateSlottingPlan_zoned (metrics : List ISkuVelocityMetrics) :
    Zoned metrics (generateSlottingPlan metrics) := by
  have hranked : Ranked fasterMover metrics (metrics.insertionSort fasterMover) :=
    ranked_insertionSort metrics
  have hplaces : (generateSlottingPlan metrics).map placeOf = bays metrics.length := by
    have hplace : placeOf ∘ (fun e : ISkuVelocityMetrics × ℕ =>
        recommend (metrics.insertionSort fasterMover).length e.1 e.2) =
        placeAt (metrics.insertionSort fasterMover).length ∘ Prod.snd :=
      funext fun e => placeOf_recommend _ e.1 e.2
    rw [generateSlottingPlan, List.map_map, hplace, ← List.map_map, List.zipIdx_map_snd,
      ← List.range_eq_range', map_placeAt, length_sorted]
  refine ⟨⟨_, hranked, ?_, fun chosen hchosen => sum_chosen_le hranked hchosen⟩, hplaces,
    hplaces ▸ nodup_bays _⟩
  have hsku : ISlottingRecommendation.sku ∘ (fun e : ISkuVelocityMetrics × ℕ =>
      recommend (metrics.insertionSort fasterMover).length e.1 e.2) =
      ISkuVelocityMetrics.sku ∘ Prod.fst :=
    funext fun e => sku_recommend _ e.1 e.2
  rw [generateSlottingPlan, List.map_map, hsku, ← List.map_map, List.zipIdx_map_fst]

end Logix.Inventory
