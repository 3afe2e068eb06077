import Mathlib.Data.List.Induction
import Mathlib.Data.List.Pairwise
import Logix.Js.Date
import Logix.Js.Map
import Logix.Spec.Greedy
import Logix.Spec.Ranking

/-!
# Lots and their expiration

Lots are registered under their numbers, and picked in the order of their expiration. The clock is
read for each lot that the filter looks at: `now` gives the reading by the number of the lot.

* `LotBatchExpirationTracker`: `registerLot` and `getNextFefoAllocation`;
* `currentLots`: the lots that no later registration replaces;
* `FefoAllocation`: what an allocation by first expiration is;
* **`getNextFefoAllocation_fefo`**: the code computes one, whatever lots have been registered.
-/

namespace Logix.Inventory

open Spec

/-- `quarantineStatus`. -/
inductive QuarantineStatus where
  | released | quarantined | expired
  deriving DecidableEq, Repr

/-- `ILotBatchRecord`. -/
structure LotBatchRecord where
  lotNumber : String
  sku : String
  warehouseId : String
  manufactureDate : Option JsDate
  expirationDate : Option JsDate
  quantityOnHand : ℕ
  quarantineStatus : QuarantineStatus
  deriving DecidableEq, Repr

/-- An entry of `allocations`. -/
structure LotAllocation where
  lotNumber : String
  allocateQuantity : ℕ
  deriving DecidableEq, Repr

/-- `LotBatchExpirationTracker`. -/
structure LotBatchExpirationTracker where
  lots : JsMap String LotBatchRecord

/-- The filter of `getNextFefoAllocation`. -/
def LotBatchRecord.matches (sku warehouseId : String) (now : String → JsDate)
    (l : LotBatchRecord) : Bool :=
  l.sku == sku && l.warehouseId == warehouseId && l.quarantineStatus == .released &&
    dateLt (some (now l.lotNumber)) l.expirationDate && decide (0 < l.quantityOnHand)

/-- The sort leaves `a` before `b`; the lots that are sorted have valid dates. -/
def expiresFirst (a b : LotBatchRecord) : Prop :=
  a.expirationDate.getD 0 - b.expirationDate.getD 0 ≤ 0

instance : DecidableRel expiresFirst := fun a b =>
  inferInstanceAs (Decidable (a.expirationDate.getD 0 - b.expirationDate.getD 0 ≤ 0))

namespace LotBatchExpirationTracker

/-- **`registerLot`**. -/
def registerLot (t : LotBatchExpirationTracker) (lot : LotBatchRecord) :
    LotBatchExpirationTracker := ⟨t.lots.set lot.lotNumber lot⟩

/-- `matchingLots`. -/
def matchingLots (t : LotBatchExpirationTracker) (sku warehouseId : String)
    (now : String → JsDate) : List LotBatchRecord :=
  (t.lots.values.filter (LotBatchRecord.matches sku warehouseId now)).insertionSort expiresFirst

/-- **`getNextFefoAllocation`**. -/
def getNextFefoAllocation (t : LotBatchExpirationTracker) (sku warehouseId : String)
    (requestedQuantity : ℕ) (now : String → JsDate) : List LotAllocation :=
  (takeInOrder LotBatchRecord.quantityOnHand requestedQuantity
    (t.matchingLots sku warehouseId now)).map fun (lot, take) => ⟨lot.lotNumber, take⟩

/-- The tracker after a run of `registerLot` calls. -/
def registerLots (lots : List LotBatchRecord) : LotBatchExpirationTracker :=
  lots.foldl registerLot ⟨.empty⟩

end LotBatchExpirationTracker

open LotBatchExpirationTracker

/-- **The lots that are on file** after the registrations of `lots`: a later lot of the same number
takes the place of an earlier one. -/
def currentLots (lots : List LotBatchRecord) : List LotBatchRecord :=
  lots.pwFilter fun a b => a.lotNumber ≠ b.lotNumber

/-! ## First expired, first out -/

/-- A released lot of the product at the site that has not expired when it is looked at. -/
structure Eligible (sku warehouseId : String) (now : String → JsDate) (lot : LotBatchRecord) :
    Prop where
  sku : lot.sku = sku
  warehouseId : lot.warehouseId = warehouseId
  released : lot.quarantineStatus = .released
  unexpired : dateLt (some (now lot.lotNumber)) lot.expirationDate = true

theorem eligible_iff {sku warehouseId : String} {now : String → JsDate} {lot : LotBatchRecord} :
    Eligible sku warehouseId now lot ↔ lot.sku = sku ∧ lot.warehouseId = warehouseId ∧
      lot.quarantineStatus = .released ∧
      dateLt (some (now lot.lotNumber)) lot.expirationDate = true :=
  ⟨fun ⟨hs, hw, hr, hu⟩ => ⟨hs, hw, hr, hu⟩, fun ⟨hs, hw, hr, hu⟩ => ⟨hs, hw, hr, hu⟩⟩

instance (sku warehouseId : String) (now : String → JsDate) (lot : LotBatchRecord) :
    Decidable (Eligible sku warehouseId now lot) := decidable_of_iff' _ eligible_iff

/-- **An allocation from `lots` by first expiration.** -/
structure FefoAllocation (lots : List LotBatchRecord) (sku warehouseId : String)
    (requestedQuantity : ℕ) (now : String → JsDate) (allocations : List LotAllocation) :
    Prop where
  uses : ∀ al ∈ allocations, ∃ lot ∈ lots, Eligible sku warehouseId now lot ∧
    lot.lotNumber = al.lotNumber ∧ 1 ≤ al.allocateQuantity ∧
    al.allocateQuantity ≤ lot.quantityOnHand
  once : (allocations.map LotAllocation.lotNumber).Nodup
  total : (allocations.map LotAllocation.allocateQuantity).sum = min requestedQuantity
    ((lots.filter fun lot => Eligible sku warehouseId now lot).map
      LotBatchRecord.quantityOnHand).sum
  /-- A lot is only used when those that expire before it are used up. -/
  firstExpired : ∀ al ∈ allocations, ∀ lot ∈ lots, ∀ earlier ∈ lots,
    lot.lotNumber = al.lotNumber → Eligible sku warehouseId now earlier →
    dateLt earlier.expirationDate lot.expirationDate = true → 0 < earlier.quantityOnHand →
    ⟨earlier.lotNumber, earlier.quantityOnHand⟩ ∈ allocations

/-! ## What has been registered -/

/-- **The lots are stored under their numbers.** -/
def LotBatchExpirationTracker.Keyed (t : LotBatchExpirationTracker) : Prop :=
  ∀ k lot, t.lots.get k = some lot → lot.lotNumber = k

theorem keyed_registerLot {t : LotBatchExpirationTracker} (h : t.Keyed) (lot : LotBatchRecord) :
    (t.registerLot lot).Keyed := by
  intro k stored hstored
  rw [registerLot, JsMap.get_set] at hstored
  split_ifs at hstored with hk
  · obtain rfl := Option.some.inj hstored
    exact hk.symm
  · exact h k stored hstored

theorem keyed_foldl_registerLot (lots : List LotBatchRecord) {t : LotBatchExpirationTracker}
    (h : t.Keyed) : (lots.foldl registerLot t).Keyed := by
  induction lots generalizing t with
  | nil => exact h
  | cons lot lots ih => exact ih (keyed_registerLot h lot)

theorem keyed_registerLots (lots : List LotBatchRecord) : (registerLots lots).Keyed :=
  keyed_foldl_registerLot lots fun _ _ h => by cases h

section Keyed

variable {t : LotBatchExpirationTracker} (h : t.Keyed)
include h

theorem LotBatchExpirationTracker.Keyed.nodup :
    (t.lots.values.map LotBatchRecord.lotNumber).Nodup := by
  have hkeys : t.lots.values.map LotBatchRecord.lotNumber = t.lots.keys := by
    rw [JsMap.values, JsMap.keys, List.map_map]
    exact List.map_congr_left fun e he => h e.1 e.2 (JsMap.get_eq_some_iff.mpr he)
  exact hkeys ▸ t.lots.nodup

theorem LotBatchExpirationTracker.Keyed.eq {a b : LotBatchRecord} (ha : a ∈ t.lots.values)
    (hb : b ∈ t.lots.values) (hab : a.lotNumber = b.lotNumber) : a = b :=
  List.inj_on_of_nodup_map h.nodup ha hb hab

end Keyed

theorem LotBatchExpirationTracker.Keyed.mem_values_iff {t : LotBatchExpirationTracker}
    (h : t.Keyed) {lot : LotBatchRecord} :
    lot ∈ t.lots.values ↔ t.lots.get lot.lotNumber = some lot := by
  refine ⟨fun hlot => ?_, JsMap.mem_values_of_get⟩
  obtain ⟨k, hk⟩ := JsMap.exists_get_of_mem_values hlot
  exact h k lot hk ▸ hk

theorem get_registerLots (lots : List LotBatchRecord) (k : String) :
    (registerLots lots).lots.get k = lots.reverse.find? fun lot => lot.lotNumber = k := by
  induction lots using List.reverseRecOn with
  | nil => rfl
  | append_singleton lots lot ih =>
    have hlast : registerLots (lots ++ [lot]) = (registerLots lots).registerLot lot :=
      List.foldl_append
    rw [hlast, registerLot, JsMap.get_set, ih, List.reverse_concat, List.find?_cons]
    by_cases hk : lot.lotNumber = k
    · simp [hk]
    · simp [hk, Ne.symm hk]

theorem currentLots_cons (first : LotBatchRecord) (lots : List LotBatchRecord) :
    currentLots (first :: lots) = if ∀ lot ∈ lots, first.lotNumber ≠ lot.lotNumber then
      first :: currentLots lots else currentLots lots := by
  have htrans : ∀ {a b c : LotBatchRecord}, a.lotNumber ≠ c.lotNumber →
      a.lotNumber ≠ b.lotNumber ∨ b.lotNumber ≠ c.lotNumber := fun {a b c} h => by
    by_contra hsame
    simp only [not_or, not_not] at hsame
    exact h (hsame.1.trans hsame.2)
  have hall := List.forall_mem_pwFilter (R := fun a b : LotBatchRecord => a.lotNumber ≠ b.lotNumber)
    htrans first lots
  split_ifs with h
  · exact List.pwFilter_cons_of_pos (hall.mpr h)
  · exact List.pwFilter_cons_of_neg fun hfilter => h (hall.mp hfilter)

theorem mem_currentLots_iff {lots : List LotBatchRecord} {lot : LotBatchRecord} :
    lot ∈ currentLots lots ↔
      lots.reverse.find? (fun l => l.lotNumber = lot.lotNumber) = some lot := by
  induction lots with
  | nil => simp [currentLots]
  | cons first lots ih =>
    rw [currentLots_cons, List.reverse_cons, List.find?_append]
    cases hfind : lots.reverse.find? fun l => l.lotNumber = lot.lotNumber with
    | some last =>
      have hmem : last ∈ lots := List.mem_reverse.mp (List.mem_of_find?_eq_some hfind)
      have hlast : last.lotNumber = lot.lotNumber := by simpa using List.find?_some hfind
      rw [hfind] at ih
      rw [Option.some_or, ← ih]
      split_ifs with hnew
      · have hne : lot ≠ first := fun h => hnew last hmem (h ▸ hlast.symm)
        rw [List.mem_cons, or_iff_right hne]
      · rfl
    | none =>
      have hother : ∀ l ∈ lots, l.lotNumber ≠ lot.lotNumber := by simpa using hfind
      have hnot : lot ∉ currentLots lots := fun h => by simp [hfind] at ih; exact ih h
      rw [Option.none_or, List.find?_singleton]
      by_cases hfirst : first = lot
      · subst hfirst
        rw [if_pos fun l hl => (hother l hl).symm]
        simp
      · split_ifs <;> simp [hnot, Ne.symm hfirst, hfirst]

theorem values_registerLots (lots : List LotBatchRecord) :
    (registerLots lots).lots.values.Perm (currentLots lots) := by
  have hkeyed := keyed_registerLots lots
  have hcurrent : ((currentLots lots).map LotBatchRecord.lotNumber).Nodup :=
    List.pairwise_map.mpr (List.pairwise_pwFilter lots)
  refine (List.perm_ext_iff_of_nodup hkeyed.nodup.of_map hcurrent.of_map).mpr fun lot => ?_
  rw [hkeyed.mem_values_iff, get_registerLots, mem_currentLots_iff]

/-! ## The lots that match -/

theorem matches_iff {sku warehouseId : String} {now : String → JsDate} {l : LotBatchRecord} :
    l.matches sku warehouseId now = true ↔
      Eligible sku warehouseId now l ∧ 0 < l.quantityOnHand := by
  rw [LotBatchRecord.matches, eligible_iff]
  simp only [Bool.and_eq_true, beq_iff_eq, decide_eq_true_iff, and_assoc]

theorem mem_matchingLots {t : LotBatchExpirationTracker} {sku warehouseId : String}
    {now : String → JsDate} {l : LotBatchRecord} : l ∈ t.matchingLots sku warehouseId now ↔
      l ∈ t.lots.values ∧ Eligible sku warehouseId now l ∧ 0 < l.quantityOnHand := by
  rw [matchingLots, List.mem_insertionSort, List.mem_filter, matches_iff]

theorem sum_filter_matches (lots : List LotBatchRecord) (sku warehouseId : String)
    (now : String → JsDate) :
    ((lots.filter (LotBatchRecord.matches sku warehouseId now)).map
        LotBatchRecord.quantityOnHand).sum =
      ((lots.filter fun lot => Eligible sku warehouseId now lot).map
        LotBatchRecord.quantityOnHand).sum := by
  induction lots with
  | nil => rfl
  | cons lot lots ih =>
    by_cases helig : Eligible sku warehouseId now lot
    · rcases Nat.eq_zero_or_pos lot.quantityOnHand with hzero | hpos
      · rw [List.filter_cons_of_neg (by simp [matches_iff, hzero]), ih,
          List.filter_cons_of_pos (by simpa using helig), List.map_cons, List.sum_cons, hzero,
          zero_add]
      · rw [List.filter_cons_of_pos (matches_iff.mpr ⟨helig, hpos⟩),
          List.filter_cons_of_pos (by simpa using helig), List.map_cons, List.sum_cons, ih,
          List.map_cons, List.sum_cons]
    · rw [List.filter_cons_of_neg (by simp [matches_iff, helig]), ih,
        List.filter_cons_of_neg (by simp [helig])]

theorem expiresFirst_iff {a b : LotBatchRecord} :
    expiresFirst a b ↔ a.expirationDate.getD 0 ≤ b.expirationDate.getD 0 := sub_nonpos

instance : Std.Total expiresFirst :=
  ⟨fun _ _ => (le_total _ _).imp expiresFirst_iff.mpr expiresFirst_iff.mpr⟩

instance : IsTrans LotBatchRecord expiresFirst :=
  ⟨fun _ _ _ hab hbc =>
    expiresFirst_iff.mpr ((expiresFirst_iff.mp hab).trans (expiresFirst_iff.mp hbc))⟩

theorem not_expiresFirst_of_dateLt {a b : LotBatchRecord}
    (h : dateLt a.expirationDate b.expirationDate = true) : ¬ expiresFirst b a := by
  obtain ⟨x, y, hx, hy, hlt⟩ := dateLt_iff.mp h
  rw [expiresFirst_iff, hx, hy]
  exact not_le.mpr hlt

theorem nodup_matchingLots {t : LotBatchExpirationTracker} (h : t.Keyed)
    (sku warehouseId : String) (now : String → JsDate) :
    ((t.matchingLots sku warehouseId now).map LotBatchRecord.lotNumber).Nodup := by
  refine ((List.perm_insertionSort expiresFirst _).map _).nodup_iff.mpr ?_
  exact h.nodup.sublist (List.filter_sublist.map _)

theorem mem_of_dateLt {t : LotBatchExpirationTracker} {sku warehouseId : String}
    {now : String → JsDate} {pre post : List LotBatchRecord} {lot earlier : LotBatchRecord}
    (hsplit : t.matchingLots sku warehouseId now = pre ++ lot :: post)
    (hmem : earlier ∈ t.matchingLots sku warehouseId now)
    (hlt : dateLt earlier.expirationDate lot.expirationDate = true) : earlier ∈ pre := by
  have hsorted : (t.matchingLots sku warehouseId now).Pairwise expiresFirst :=
    List.pairwise_insertionSort _ _
  rw [hsplit] at hmem hsorted
  have hrest := (List.pairwise_cons.mp (List.pairwise_append.mp hsorted).2.1).1
  have hnot := not_expiresFirst_of_dateLt hlt
  rcases List.mem_append.mp hmem with hpre | hpost
  · exact hpre
  · rcases List.mem_cons.mp hpost with rfl | hpost
    · exact absurd (expiresFirst_iff.mpr le_rfl) hnot
    · exact absurd (hrest earlier hpost) hnot

/-! ## The allocation -/

section Fields

variable (t : LotBatchExpirationTracker) (sku warehouseId : String) (requestedQuantity : ℕ)
  (now : String → JsDate)

theorem map_lotNumber_getNextFefoAllocation :
    (t.getNextFefoAllocation sku warehouseId requestedQuantity now).map LotAllocation.lotNumber =
      ((takeInOrder LotBatchRecord.quantityOnHand requestedQuantity
        (t.matchingLots sku warehouseId now)).map Prod.fst).map LotBatchRecord.lotNumber := by
  rw [getNextFefoAllocation, List.map_map, List.map_map]
  rfl

theorem map_allocateQuantity_getNextFefoAllocation :
    (t.getNextFefoAllocation sku warehouseId requestedQuantity now).map
        LotAllocation.allocateQuantity =
      (takeInOrder LotBatchRecord.quantityOnHand requestedQuantity
        (t.matchingLots sku warehouseId now)).map Prod.snd := by
  rw [getNextFefoAllocation, List.map_map]
  rfl

end Fields

theorem LotBatchExpirationTracker.Keyed.used_up {t : LotBatchExpirationTracker} (h : t.Keyed)
    {sku warehouseId : String} {requestedQuantity take : ℕ} {now : String → JsDate}
    {lot earlier : LotBatchRecord}
    (hmem : (lot, take) ∈ takeInOrder LotBatchRecord.quantityOnHand requestedQuantity
      (t.matchingLots sku warehouseId now))
    (hearlier : earlier ∈ t.matchingLots sku warehouseId now)
    (hlt : dateLt earlier.expirationDate lot.expirationDate = true) :
    (earlier, earlier.quantityOnHand) ∈ takeInOrder LotBatchRecord.quantityOnHand
      requestedQuantity (t.matchingLots sku warehouseId now) := by
  have hnodup := List.Nodup.of_map _ (nodup_matchingLots h sku warehouseId now)
  obtain ⟨pre, post, hsplit⟩ := List.append_of_mem (mem_of_mem_takeInOrder hmem)
  have hpre := mem_of_dateLt hsplit hearlier hlt
  have hinStock : ∀ b ∈ pre, 0 < b.quantityOnHand := fun b hb =>
    (mem_matchingLots.mp (hsplit ▸ List.mem_append_left _ hb)).2.2
  rw [hsplit] at hmem hnodup ⊢
  exact takeInOrder_full hnodup hinStock hmem earlier hpre

/-- **First expired, first out**, from any lots that are stored under their numbers. -/
theorem LotBatchExpirationTracker.Keyed.fefo {t : LotBatchExpirationTracker} (h : t.Keyed)
    (sku warehouseId : String) (requestedQuantity : ℕ) (now : String → JsDate) :
    FefoAllocation t.lots.values sku warehouseId requestedQuantity now
      (t.getNextFefoAllocation sku warehouseId requestedQuantity now) := by
  constructor
  · intro al hal
    obtain ⟨⟨lot, take⟩, hmem, rfl⟩ := List.mem_map.mp hal
    obtain ⟨hlot, helig, hpos⟩ := mem_matchingLots.mp (mem_of_mem_takeInOrder hmem)
    exact ⟨lot, hlot, helig, rfl, takeInOrder_bounds hmem hpos⟩
  · rw [map_lotNumber_getNextFefoAllocation]
    exact (nodup_matchingLots h sku warehouseId now).sublist ((takeInOrder_sublist _).map _)
  · rw [map_allocateQuantity_getNextFefoAllocation, sum_takeInOrder, ← sum_filter_matches]
    exact congrArg _ ((List.perm_insertionSort expiresFirst _).map _).sum_eq
  · intro al hal lot hlot earlier hearlier hnumber helig hlt hpos
    obtain ⟨⟨used, take⟩, hmem, rfl⟩ := List.mem_map.mp hal
    have hin := (mem_matchingLots.mp (mem_of_mem_takeInOrder hmem)).1
    obtain rfl : lot = used := h.eq hlot hin hnumber
    have hmatch := mem_matchingLots.mpr ⟨hearlier, helig, hpos⟩
    exact List.mem_map.mpr ⟨_, h.used_up hmem hmatch hlt, rfl⟩

theorem FefoAllocation.perm {lots lots' : List LotBatchRecord} {sku warehouseId : String}
    {requestedQuantity : ℕ} {now : String → JsDate} {allocations : List LotAllocation}
    (hperm : lots.Perm lots')
    (h : FefoAllocation lots sku warehouseId requestedQuantity now allocations) :
    FefoAllocation lots' sku warehouseId requestedQuantity now allocations where
  uses al hal := by simpa only [hperm.mem_iff] using h.uses al hal
  once := h.once
  total := h.total.trans (congrArg _ ((hperm.filter _).map _).sum_eq)
  firstExpired := by simpa only [hperm.mem_iff] using h.firstExpired

/-- **FEFO allocation is correct** after every run of registrations. -/
theorem getNextFefoAllocation_fefo (lots : List LotBatchRecord) (sku warehouseId : String)
    (requestedQuantity : ℕ) (now : String → JsDate) :
    FefoAllocation (currentLots lots) sku warehouseId requestedQuantity now
      ((registerLots lots).getNextFefoAllocation sku warehouseId requestedQuantity now) :=
  ((keyed_registerLots lots).fefo sku warehouseId requestedQuantity now).perm
    (values_registerLots lots)

end Logix.Inventory
