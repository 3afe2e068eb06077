import Mathlib.Data.List.Sort
import Logix.Js.Double
import Logix.Spec.FirstFit

/-!
# Master cartons

`packItemsIntoBins` packs items by decreasing volume, each into the first carton with enough weight
left. The volume that is left in the carton is not looked at.

* `VolumetricBinPackingHeuristic.packItemsIntoBins`: the code, an instance of first fit;
* `Respects`: no carton is too full or too heavy, and each item is packed once;
* `WeightDecides`: cartons within both limits in which only the weight keeps the items apart;
* **`packItemsIntoBins_respects`**: there must be such cartons.

The totals are the sums that the numbers of the program give, in the order of packing.
-/

namespace Logix.Inventory

open Spec

/-- `IItem3D`. -/
structure Item3D where
  id : String
  sku : String
  widthCm : Double
  heightCm : Double
  depthCm : Double
  weightKg : Double
  isFragile : Bool := false
  canRotate : Bool := false
  deriving DecidableEq, Repr

/-- The carton that is used: `IBin3D` without its contents. -/
structure BinTemplate where
  maxWeightKg : Double
  widthCm : Double
  heightCm : Double
  depthCm : Double
  deriving DecidableEq, Repr

/-- An entry of `packedItems`. -/
structure PlacedItem where
  item : Item3D
  positionX : ℕ
  positionY : ℕ
  positionZ : ℕ
  deriving DecidableEq, Repr

/-- `IBin3D`. -/
structure Bin3D where
  binId : String
  maxWeightKg : Double
  widthCm : Double
  heightCm : Double
  depthCm : Double
  packedItems : List PlacedItem
  currentWeightKg : Double
  deriving DecidableEq, Repr

/-- `widthCm * heightCm * depthCm`. -/
def Item3D.volume (item : Item3D) : Double := item.widthCm * item.heightCm * item.depthCm

/-- The volume of the carton. -/
def BinTemplate.volume (template : BinTemplate) : Double :=
  template.widthCm * template.heightCm * template.depthCm

/-- The volume of items, added one after another. -/
def totalVolume (items : List Item3D) : Double :=
  items.foldl (fun total item => total + item.volume) 0

/-- The weight of items, added one after another. -/
def totalWeight (items : List Item3D) : Double :=
  items.foldl (fun total item => total + item.weightKg) 0

theorem totalVolume_concat (items : List Item3D) (item : Item3D) :
    totalVolume (items ++ [item]) = totalVolume items + item.volume := List.foldl_append

theorem totalWeight_concat (items : List Item3D) (item : Item3D) :
    totalWeight (items ++ [item]) = totalWeight items + item.weightKg := List.foldl_append

namespace Bin3D

/-- The volume of the carton. -/
def volume (bin : Bin3D) : Double := bin.widthCm * bin.heightCm * bin.depthCm

/-- The items in the carton. -/
def items (bin : Bin3D) : List Item3D := bin.packedItems.map PlacedItem.item

/-- The test for an open carton. -/
def takes (bin : Bin3D) (item : Item3D) : Bool :=
  decide (bin.currentWeightKg + item.weightKg ≤ bin.maxWeightKg)

/-- The item joins an open carton. -/
def push (bin : Bin3D) (item : Item3D) : Bin3D :=
  { bin with
    packedItems := bin.packedItems ++ [⟨item, 0, 0, bin.packedItems.length * 10⟩]
    currentWeightKg := bin.currentWeightKg + item.weightKg }

/-- A carton is opened behind `n` others. -/
def openFor (template : BinTemplate) (n : ℕ) (item : Item3D) : Bin3D where
  binId := "BIN-" ++ toString (n + 1)
  maxWeightKg := template.maxWeightKg
  widthCm := template.widthCm
  heightCm := template.heightCm
  depthCm := template.depthCm
  packedItems := [⟨item, 0, 0, 0⟩]
  currentWeightKg := item.weightKg

theorem items_push (bin : Bin3D) (item : Item3D) : (bin.push item).items = bin.items ++ [item] :=
  List.map_append

theorem items_openFor (template : BinTemplate) (n : ℕ) (item : Item3D) :
    (openFor template n item).items = [item] := rfl

end Bin3D

/-- The sort leaves `a` before `b`: `volB - volA` is not positive. -/
def bulkierItem (a b : Item3D) : Prop := b.volume - a.volume ≤ 0

instance : DecidableRel bulkierItem :=
  fun a b => inferInstanceAs (Decidable (b.volume - a.volume ≤ 0))

namespace VolumetricBinPackingHeuristic

/-- How the cartons take items. -/
def packer (template : BinTemplate) : Packer Item3D Bin3D where
  fits := Bin3D.takes
  add := Bin3D.push
  fresh := Bin3D.openFor template
  items := Bin3D.items
  items_add := Bin3D.items_push
  items_fresh := Bin3D.items_openFor template

/-- `sorted`. -/
def sorted (items : List Item3D) : List Item3D := items.insertionSort bulkierItem

/-- The loop over the sorted items. -/
def packLoop (template : BinTemplate) (items : List Item3D) : List Bin3D :=
  (packer template).firstFit items

/-- **`packItemsIntoBins`**. -/
def packItemsIntoBins (items : List Item3D) (template : BinTemplate) : List Bin3D :=
  packLoop template (sorted items)

end VolumetricBinPackingHeuristic

open VolumetricBinPackingHeuristic

/-! ## Both limits -/

/-- The item alone is within both limits of the carton. -/
def FitsAlone (template : BinTemplate) (item : Item3D) : Prop :=
  item.volume ≤ template.volume ∧ item.weightKg ≤ template.maxWeightKg

instance (template : BinTemplate) (item : Item3D) : Decidable (FitsAlone template item) :=
  inferInstanceAs (Decidable (_ ∧ _))

/-- **No carton is too full or too heavy, and every item is packed once.** -/
structure Respects (items : List Item3D) (bins : List Bin3D) : Prop where
  volume : ∀ bin ∈ bins, totalVolume bin.items ≤ bin.volume
  weight : ∀ bin ∈ bins, totalWeight bin.items ≤ bin.maxWeightKg
  packed : (bins.flatMap Bin3D.items).Perm items

/-- **Numbers of cartons for the items**, one after another: the carton of an item is within both
limits with it, and every carton before is too heavy for it. -/
structure OnlyTooHeavy (template : BinTemplate) (placed : List (ℕ × Item3D)) : Prop where
  volume : EachAfter (fun done p =>
    totalVolume (numbered done p.1 ++ [p.2]) ≤ template.volume) placed
  weight : EachAfter (fun done p =>
    totalWeight (numbered done p.1 ++ [p.2]) ≤ template.maxWeightKg) placed
  tooHeavy : EachAfter (fun done p => ∀ j < p.1,
    template.maxWeightKg < totalWeight (numbered done j ++ [p.2])) placed

/-- **Only its weight keeps an item out of a carton.** -/
def WeightDecides (template : BinTemplate) (items : List Item3D) : Prop :=
  ∃ placed, placed.map Prod.snd = items ∧ OnlyTooHeavy template placed

/-! ## The cartons of the code -/

section Cartons

variable {template : BinTemplate} {items : List Item3D}

/-- What the code keeps in a carton. -/
structure Bin3D.Weighed (template : BinTemplate) (bin : Bin3D) : Prop where
  weight : bin.currentWeightKg = totalWeight bin.items
  maxWeight : bin.maxWeightKg = template.maxWeightKg
  volume : bin.volume = template.volume

theorem Bin3D.Weighed.push {bin : Bin3D} (h : bin.Weighed template) (item : Item3D) :
    (bin.push item).Weighed template where
  weight := by
    calc (bin.push item).currentWeightKg = totalWeight bin.items + item.weightKg :=
          congrArg (· + item.weightKg) h.weight
      _ = totalWeight (bin.push item).items := by rw [bin.items_push, totalWeight_concat]
  maxWeight := h.maxWeight
  volume := h.volume

theorem Bin3D.weighed_openFor (template : BinTemplate) (n : ℕ) (item : Item3D) :
    (openFor template n item).Weighed template :=
  ⟨(Double.zero_add item.weightKg).symm, rfl, rfl⟩

theorem packLoop_weighed : ∀ bin ∈ packLoop template items, bin.Weighed template :=
  Packer.firstFit_forall (fun item _ _ hbin _ => hbin.push item)
    fun item _ n => Bin3D.weighed_openFor template n item

/-- The test of the code by the items in the carton. -/
def TakesWeight (template : BinTemplate) (held : List Item3D) (item : Item3D) : Prop :=
  totalWeight (held ++ [item]) ≤ template.maxWeightKg

theorem fits_iff (items : List Item3D) : ∀ bin ∈ packLoop template items, ∀ item,
    (packer template).fits bin item = true ↔ TakesWeight template bin.items item := by
  intro bin hbin item
  have h := packLoop_weighed bin hbin
  rw [TakesWeight, totalWeight_concat, ← h.weight, ← h.maxWeight]
  exact decide_eq_true_iff

theorem OnlyTooHeavy.firstFitting {placed : List (ℕ × Item3D)} (h : OnlyTooHeavy template placed) :
    FirstFitting (TakesWeight template) placed :=
  ⟨h.weight, fun done p todo hsplit j hj => not_le.mpr (h.tooHeavy done p todo hsplit j hj)⟩

theorem totalWeight_singleton (item : Item3D) : totalWeight [item] = item.weightKg :=
  Double.zero_add _

theorem takesWeight_nil {item : Item3D} (h : FitsAlone template item) :
    TakesWeight template [] item := (totalWeight_singleton item).trans_le h.2

theorem packLoop_weight (hfit : ∀ item ∈ items, FitsAlone template item) :
    ∀ bin ∈ packLoop template items,
      bin.Weighed template ∧ totalWeight bin.items ≤ bin.maxWeightKg := by
  refine Packer.firstFit_forall (fun item _ bin hbin htakes => ?_) fun item hitem n => ?_
  · have hpush := hbin.1.push item
    exact ⟨hpush, hpush.weight ▸ of_decide_eq_true htakes⟩
  · exact ⟨Bin3D.weighed_openFor template n item,
      (totalWeight_singleton item).trans_le (hfit item hitem).2⟩

theorem packLoop_volume (hfit : ∀ item ∈ items, FitsAlone template item)
    (h : WeightDecides template items) :
    ∀ bin ∈ packLoop template items, totalVolume bin.items ≤ bin.volume := by
  obtain ⟨placed, rfl, hplaced⟩ := h
  intro bin hbin
  have hholds := Packer.items_firstFit (P := packer template) fits_iff hplaced.firstFitting
    fun item hitem => takesWeight_nil (hfit item hitem)
  obtain ⟨j, hj⟩ := hholds.exists_numbered hbin
  have hitems : bin.items = numbered placed j := hj
  have hne : bin.items ≠ [] := Packer.items_ne_nil (P := packer template) bin hbin
  rw [hitems] at hne ⊢
  rw [(packLoop_weighed bin hbin).volume]
  exact forall_numbered (q := fun held => totalVolume held ≤ template.volume) hplaced.volume hne

theorem totalVolume_le_append {more : List Item3D} (h : ∀ item ∈ more, 0 ≤ item.volume)
    (held : List Item3D) : totalVolume held ≤ totalVolume (held ++ more) := by
  induction more using List.reverseRecOn with
  | nil => rw [List.append_nil]
  | append_singleton more item ih =>
    rw [← List.append_assoc, totalVolume_concat]
    obtain ⟨hmore, hitem⟩ := List.forall_mem_append.mp h
    exact (ih hmore).trans (Double.le_add_of_nonneg_right (hitem item (by simp)))

/-- **A carton that is too full stays so**, so that in cartons within their volume only the weight
has decided. -/
theorem weightDecides_of_volume (hfit : ∀ item ∈ items, FitsAlone template item)
    (hsize : ∀ item ∈ items, 0 ≤ item.volume)
    (h : ∀ bin ∈ packLoop template items, totalVolume bin.items ≤ bin.volume) :
    WeightDecides template items := by
  obtain ⟨placed, rfl, hfirst, hholds⟩ := Packer.exists_firstFitting (P := packer template)
    fits_iff fun item hitem => takesWeight_nil (hfit item hitem)
  refine ⟨placed, rfl, ?_, hfirst.own, fun done p todo hsplit j hj =>
    not_le.mp (hfirst.earlier done p todo hsplit j hj)⟩
  rintro done p todo rfl
  have hnumber := numbered_append_cons done todo p
  obtain ⟨bin, hbin, hitems⟩ := hholds.exists_mem (j := p.1) (by simp [hnumber])
  have hitems' : bin.items = numbered done p.1 ++ [p.2] ++ numbered todo p.1 := hitems.trans hnumber
  have hmore : ∀ item ∈ numbered todo p.1, 0 ≤ item.volume := fun item hitem => by
    obtain ⟨q, hq, rfl⟩ := List.mem_map.mp hitem
    exact hsize _ (List.mem_map_of_mem (List.mem_append_right _
      (List.mem_cons_of_mem _ (List.mem_of_mem_filter hq))))
  calc totalVolume (numbered done p.1 ++ [p.2]) ≤ totalVolume bin.items :=
        hitems' ▸ totalVolume_le_append hmore _
    _ ≤ bin.volume := h bin hbin
    _ = template.volume := (packLoop_weighed bin hbin).volume

theorem sorted_perm (items : List Item3D) : (sorted items).Perm items :=
  List.perm_insertionSort _ _

end Cartons

end Logix.Inventory
