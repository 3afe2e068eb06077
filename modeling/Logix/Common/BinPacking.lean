import Mathlib.Algebra.BigOperators.Group.List.Basic
import Mathlib.Algebra.Order.Field.Rat
import Mathlib.Tactic.Linarith
import Mathlib.Tactic.Positivity
import Logix.Spec.FirstFit
import Logix.Spec.Ranking

/-!
# Volumetric bin packing

`pack3DBins` packs items by decreasing volume, each into the first bin that still takes it.

* `MathOptimizationEngine.pack3DBins`: the code, an instance of first fit;
* `FirstFitDecreasing`: what a first-fit-decreasing packing is;
* **`pack3DBins_firstFitDecreasing`**: the code computes one.
-/

namespace Logix

open Spec

/-- An item. -/
structure PackItem where
  id : String
  lengthCm : ℚ
  widthCm : ℚ
  heightCm : ℚ
  weightKg : ℚ
  deriving DecidableEq, Repr

/-- The bins that are used. -/
structure BinSpecs where
  lengthCm : ℚ
  widthCm : ℚ
  heightCm : ℚ
  maxWeightKg : ℚ
  deriving DecidableEq, Repr

/-- A bin of the result. -/
structure PackedBin where
  binIndex : ℕ
  items : List PackItem
  usedVolumeCm3 : ℚ
  totalWeightKg : ℚ
  deriving DecidableEq, Repr

/-- `item.lengthCm * item.widthCm * item.heightCm`. -/
def PackItem.volume (item : PackItem) : ℚ := item.lengthCm * item.widthCm * item.heightCm

/-- `binVolume`. -/
def BinSpecs.binVolume (binSpecs : BinSpecs) : ℚ :=
  binSpecs.lengthCm * binSpecs.widthCm * binSpecs.heightCm

/-- The test for an open bin; 85% is the packing efficiency factor. -/
def PackedBin.takes (binSpecs : BinSpecs) (bin : PackedBin) (item : PackItem) : Bool :=
  decide (bin.usedVolumeCm3 + item.volume ≤ binSpecs.binVolume * (85 / 100)) &&
    decide (bin.totalWeightKg + item.weightKg ≤ binSpecs.maxWeightKg)

/-- The item joins an open bin. -/
def PackedBin.push (bin : PackedBin) (item : PackItem) : PackedBin where
  binIndex := bin.binIndex
  items := bin.items ++ [item]
  usedVolumeCm3 := bin.usedVolumeCm3 + item.volume
  totalWeightKg := bin.totalWeightKg + item.weightKg

/-- A bin is opened behind `n` others. -/
def PackedBin.open (n : ℕ) (item : PackItem) : PackedBin where
  binIndex := n + 1
  items := [item]
  usedVolumeCm3 := item.volume
  totalWeightKg := item.weightKg

theorem PackedBin.items_push (bin : PackedBin) (item : PackItem) :
    (bin.push item).items = bin.items ++ [item] := rfl

theorem PackedBin.items_open (n : ℕ) (item : PackItem) :
    (PackedBin.open n item).items = [item] := rfl

/-- The sort leaves `a` before `b`: `volB - volA` is not positive. -/
def bulkier (a b : PackItem) : Prop := b.volume - a.volume ≤ 0

instance : DecidableRel bulkier := fun a b => inferInstanceAs (Decidable (b.volume - a.volume ≤ 0))

theorem bulkier_iff {a b : PackItem} : bulkier a b ↔ b.volume ≤ a.volume := sub_nonpos

instance : Std.Total bulkier :=
  ⟨fun a b => (le_total b.volume a.volume).imp bulkier_iff.mpr bulkier_iff.mpr⟩

instance : IsTrans PackItem bulkier :=
  ⟨fun _ _ _ hab hbc => bulkier_iff.mpr ((bulkier_iff.mp hbc).trans (bulkier_iff.mp hab))⟩

namespace MathOptimizationEngine

/-- How the bins of `pack3DBins` take items. -/
def packer (binSpecs : BinSpecs) : Packer PackItem PackedBin where
  fits := PackedBin.takes binSpecs
  add := PackedBin.push
  fresh := PackedBin.open
  items := PackedBin.items
  items_add := PackedBin.items_push
  items_fresh := PackedBin.items_open

/-- `sortedItems`. -/
def sortedItems (items : List PackItem) : List PackItem := items.insertionSort bulkier

/-- The loop over the sorted items. -/
def packLoop (binSpecs : BinSpecs) (sorted : List PackItem) : List PackedBin :=
  (packer binSpecs).firstFit sorted

/-- **`pack3DBins`**. -/
def pack3DBins (items : List PackItem) (binSpecs : BinSpecs) : List PackedBin :=
  packLoop binSpecs (sortedItems items)

end MathOptimizationEngine

open MathOptimizationEngine

/-! ## What the packing is for -/

/-- The loads of a bin are those of its items. -/
structure PackedBin.Weighed (bin : PackedBin) : Prop where
  volume : bin.usedVolumeCm3 = (bin.items.map PackItem.volume).sum
  weight : bin.totalWeightKg = (bin.items.map PackItem.weightKg).sum

/-- A bin that took more than one item is within the limits. -/
def PackedBin.Within (binSpecs : BinSpecs) (bin : PackedBin) : Prop :=
  2 ≤ bin.items.length → bin.usedVolumeCm3 ≤ binSpecs.binVolume * (85 / 100) ∧
    bin.totalWeightKg ≤ binSpecs.maxWeightKg

/-- **A first-fit-decreasing packing** of `items` into bins like `binSpecs`. -/
structure FirstFitDecreasing (items : List PackItem) (binSpecs : BinSpecs)
    (bins : List PackedBin) : Prop where
  /-- The bins share the items out. -/
  partition : (bins.flatMap PackedBin.items).Perm items
  numbered : bins.map PackedBin.binIndex = (List.range bins.length).map (· + 1)
  weighed : ∀ bin ∈ bins, bin.Weighed
  within : ∀ bin ∈ bins, bin.Within binSpecs
  nonempty : ∀ bin ∈ bins, bin.items ≠ []
  decreasing : ∀ bin ∈ bins, bin.items.Pairwise fun a b => b.volume ≤ a.volume
  heads : (bins.filterMap fun bin => bin.items.head?).Pairwise fun a b => b.volume ≤ a.volume
  /-- No earlier bin took the item when it was placed, and none would take it at the end. -/
  firstFit : ∀ j bin pre item post, bins[j]? = some bin → bin.items = pre ++ item :: post →
    ∃ done todo, sortedItems items = done ++ item :: todo ∧
      (packer binSpecs).GoesTo (packLoop binSpecs done) item j pre ∧
      ∀ i < j, ∃ earlier, bins[i]? = some earlier ∧ earlier.takes binSpecs item = false

/-- An item of positive size and weight. -/
structure PackItem.Solid (item : PackItem) : Prop where
  length : 0 < item.lengthCm
  width : 0 < item.widthCm
  height : 0 < item.heightCm
  weight : 0 < item.weightKg

instance (item : PackItem) : Decidable item.Solid :=
  decidable_of_iff
    (0 < item.lengthCm ∧ 0 < item.widthCm ∧ 0 < item.heightCm ∧ 0 < item.weightKg)
    ⟨fun ⟨hl, hw, hh, hk⟩ => ⟨hl, hw, hh, hk⟩, fun ⟨hl, hw, hh, hk⟩ => ⟨hl, hw, hh, hk⟩⟩

theorem PackItem.Solid.volume {item : PackItem} (h : item.Solid) : 0 < item.volume :=
  mul_pos (mul_pos h.length h.width) h.height

/-! ## The packing of the code -/

theorem PackedBin.Weighed.push {bin : PackedBin} (h : bin.Weighed) (item : PackItem) :
    (bin.push item).Weighed := by
  constructor
  · rw [items_push, List.map_append, List.sum_append, ← h.volume, List.map_singleton,
      List.sum_singleton]
    rfl
  · rw [items_push, List.map_append, List.sum_append, ← h.weight, List.map_singleton,
      List.sum_singleton]
    rfl

theorem PackedBin.weighed_open (n : ℕ) (item : PackItem) : (PackedBin.open n item).Weighed :=
  ⟨List.sum_singleton.symm, List.sum_singleton.symm⟩

theorem PackedBin.within_open {binSpecs : BinSpecs} (n : ℕ) (item : PackItem) :
    (PackedBin.open n item).Within binSpecs := fun h => absurd h (Nat.not_succ_le_self 1)

theorem PackedBin.takes_iff {binSpecs : BinSpecs} {bin : PackedBin} {item : PackItem} :
    bin.takes binSpecs item = true ↔
      (bin.push item).usedVolumeCm3 ≤ binSpecs.binVolume * (85 / 100) ∧
        (bin.push item).totalWeightKg ≤ binSpecs.maxWeightKg := by
  rw [takes, Bool.and_eq_true, decide_eq_true_iff, decide_eq_true_iff]
  rfl

/-- **A bin that does not take an item never does**, as its loads only grow. -/
theorem PackedBin.takes_push {binSpecs : BinSpecs} {bin : PackedBin} {item other : PackItem}
    (h : bin.takes binSpecs item = false) (hother : other.Solid) :
    (bin.push other).takes binSpecs item = false := by
  rw [Bool.eq_false_iff] at h ⊢
  refine fun htakes => h (takes_iff.mpr ?_)
  obtain ⟨hvolume, hweight⟩ := takes_iff.mp htakes
  simp only [push] at hvolume hweight ⊢
  exact ⟨by linarith [hother.volume], by linarith [hother.weight]⟩

theorem sortedItems_perm (items : List PackItem) : (sortedItems items).Perm items :=
  List.perm_insertionSort _ _

theorem sortedItems_decreasing (items : List PackItem) :
    (sortedItems items).Pairwise fun a b => b.volume ≤ a.volume :=
  (List.pairwise_insertionSort bulkier items).imp bulkier_iff.mp

/-- The first-fit guarantee of the loop: earlier bins refuse an item when it is placed, and at the
end. -/
theorem packLoop_firstFit {binSpecs : BinSpecs} {sorted : List PackItem}
    (hsolid : ∀ item ∈ sorted, item.Solid) {j : ℕ} {bin : PackedBin} {pre post : List PackItem}
    {item : PackItem} (hj : (packLoop binSpecs sorted)[j]? = some bin)
    (hbin : bin.items = pre ++ item :: post) :
    ∃ done todo, sorted = done ++ item :: todo ∧
      (packer binSpecs).GoesTo (packLoop binSpecs done) item j pre ∧
      ∀ i < j, ∃ earlier, (packLoop binSpecs sorted)[i]? = some earlier ∧
        earlier.takes binSpecs item = false := by
  obtain ⟨done, todo, rfl, hgoes⟩ := Packer.exists_goesTo hj hbin
  refine ⟨done, todo, rfl, hgoes, fun i hi => ?_⟩
  -- the bin that refused the item has only been filled further since
  obtain ⟨earlier, hearlier, hrefused⟩ := hgoes.earlier i hi
  exact Packer.exists_getElem?_firstFit (p := fun b => b.takes binSpecs item = false)
    hearlier hrefused fun other hother b hb _ =>
      PackedBin.takes_push hb (hsolid other (List.mem_append_right _ hother))

/-- **`pack3DBins` is first-fit decreasing.** -/
theorem pack3DBins_firstFitDecreasing {items : List PackItem} (hitems : ∀ item ∈ items, item.Solid)
    (binSpecs : BinSpecs) : FirstFitDecreasing items binSpecs (pack3DBins items binSpecs) where
  partition := (Packer.firstFit_perm (P := packer binSpecs)).trans (sortedItems_perm items)
  numbered := Packer.firstFit_index (fun _ _ => rfl) fun _ _ => rfl
  weighed := Packer.firstFit_forall (fun item _ _ h _ => h.push item)
    fun item _ n => PackedBin.weighed_open n item
  within := Packer.firstFit_forall
    (fun _ _ _ _ htakes _ => PackedBin.takes_iff.mp htakes)
    fun item _ n => PackedBin.within_open n item
  nonempty := Packer.firstFit_forall
    (fun _ _ _ _ _ => List.append_ne_nil_of_right_ne_nil _ (List.cons_ne_nil _ _))
    fun _ _ _ => List.cons_ne_nil _ _
  decreasing := fun bin hbin =>
    (sortedItems_decreasing items).sublist (Packer.firstFit_sublist bin hbin)
  heads := (sortedItems_decreasing items).sublist (Packer.firstFit_heads (P := packer binSpecs))
  firstFit := fun _ _ _ _ _ hj hbin => packLoop_firstFit
    (fun item hitem => hitems item ((sortedItems_perm items).mem_iff.mp hitem)) hj hbin

/-- A case: two items share a bin, and an oversize one has a bin for itself. -/
theorem pack3DBins_firstFitDecreasing_three :
    FirstFitDecreasing [⟨"a", 1, 1, 2, 3⟩, ⟨"b", 5, 5, 5, 1⟩, ⟨"c", 1, 2, 2, 4⟩] ⟨2, 2, 2, 9⟩
      (pack3DBins [⟨"a", 1, 1, 2, 3⟩, ⟨"b", 5, 5, 5, 1⟩, ⟨"c", 1, 2, 2, 4⟩] ⟨2, 2, 2, 9⟩) :=
  pack3DBins_firstFitDecreasing
    (by decide +kernel) ⟨2, 2, 2, 9⟩

example : (pack3DBins [⟨"a", 1, 1, 2, 3⟩, ⟨"b", 5, 5, 5, 1⟩, ⟨"c", 1, 2, 2, 4⟩]
    ⟨2, 2, 2, 9⟩).map (fun bin => bin.items.map PackItem.id) = [["b"], ["c", "a"]] := by
  decide +kernel

end Logix
