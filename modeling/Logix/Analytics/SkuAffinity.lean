import Logix.Js.Double
import Logix.Js.Set
import Logix.Js.Tally
import Logix.Js.Text
import Logix.Spec.CutKeys
import Mathlib.Data.List.Sort

/-!
# Affinity of SKUs

The baskets of two SKUs are counted under one key, which joins the two in the order of their code
units and is cut again when the rules are made. Each key gives one rule, from its first SKU to its
second one, and none the other way round. Percentages are rounded.

* `WarehouseSkuAffinityMarketBasketAnalyzer.mineAssociationRules`: the code;
* `HoldsRule`: a rule that the baskets support; `Complete`: those are mined, each of them once;
* `ReadsOwnKey`: a rule is read off the key of its SKUs; `Misread`: a key is read as another rule;
* `KeysCutApart`: the keys that matter are cut into the SKUs that they join; `RoundsClear`: no
  percentage is rounded across a threshold; `NoReverseRule`: no rule goes backwards;
* **`complete_iff`**: when the rules are complete.
-/

namespace Logix.Analytics

open Spec

/-- `IOrderBasket`: what the analyzer reads of it. -/
structure IOrderBasket where
  skuList : List JsString
  deriving DecidableEq, Repr

/-- `ISkuAssociationRule`. -/
structure ISkuAssociationRule where
  antecedentSku : JsString
  consequentSku : JsString
  supportPct : Double
  confidencePct : Double
  liftRatio : Double
  deriving DecidableEq, Repr

namespace WarehouseSkuAffinityMarketBasketAnalyzer

/-- `Array.from(new Set(b.skuList))`. -/
def uniqueSkus (b : IOrderBasket) : List JsString := (b.skuList.foldl JsSet.add .empty).elements

/-- The pairs of the two loops: `l[i]` and `l[j]` for `i < j`. -/
def indexPairs : List JsString → List (JsString × JsString)
  | [] => []
  | a :: l => l.map (fun b => (a, b)) ++ indexPairs l

/-- The unit `:`. -/
def colon : UInt16 := 58

/-- `[a, b].sort().join('::')`. -/
def pairKey (a b : JsString) : JsString := if b < a then b ++ js "::" ++ a else a ++ js "::" ++ b

/-- `singleItemCounts` and `pairCounts`. -/
structure AffinityCounts where
  singleItemCounts : JsMap JsString ℕ
  pairCounts : JsMap JsString ℕ

/-- One round of the loop over the baskets. -/
def AffinityCounts.addBasket (counts : AffinityCounts) (b : IOrderBasket) : AffinityCounts where
  singleItemCounts := (uniqueSkus b).foldl JsMap.bump counts.singleItemCounts
  pairCounts := (indexPairs (uniqueSkus b)).foldl (fun pairCounts p =>
    pairCounts.bump (pairKey p.1 p.2)) counts.pairCounts

/-- `(n / m) * 100`. -/
def percent (n m : ℕ) : Double := .ofRat n / .ofRat m * 100

/-- One round of the loop over the counts of the pairs. A key has at least two parts. -/
def ruleOf (totalBaskets : ℕ) (singleItemCounts : JsMap JsString ℕ)
    (minSupportPct minConfidencePct : Double) (e : JsString × ℕ) : Option ISkuAssociationRule :=
  match cut colon e.1 with
  | skuA :: skuB :: _ =>
    let support := percent e.2 totalBaskets
    if minSupportPct ≤ support then
      let countA := (singleItemCounts.get skuA).getD 1
      let countB := (singleItemCounts.get skuB).getD 1
      let confAtoB := percent e.2 countA
      let liftAtoB := (confAtoB / percent countB totalBaskets).toFixed 2
      if minConfidencePct ≤ confAtoB then
        some
          { antecedentSku := skuA
            consequentSku := skuB
            supportPct := support.toFixed 2
            confidencePct := confAtoB.toFixed 2
            liftRatio := liftAtoB }
      else none
    else none
  | _ => none

/-- **`mineAssociationRules(baskets, minSupportPct, minConfidencePct)`.** -/
def mineAssociationRules (baskets : List IOrderBasket) (minSupportPct minConfidencePct : Double) :
    List ISkuAssociationRule :=
  let totalBaskets := baskets.length
  if totalBaskets = 0 then []
  else
    let counts := baskets.foldl AffinityCounts.addBasket ⟨.empty, .empty⟩
    (counts.pairCounts.entries.filterMap
      (ruleOf totalBaskets counts.singleItemCounts minSupportPct minConfidencePct)).insertionSort
        fun a b => b.liftRatio - a.liftRatio ≤ 0

end WarehouseSkuAffinityMarketBasketAnalyzer

open WarehouseSkuAffinityMarketBasketAnalyzer

variable {baskets : List IOrderBasket} {minSupportPct minConfidencePct : Double} {A B k : JsString}

/-! ## What is counted -/

theorem mem_uniqueSkus {b : IOrderBasket} : A ∈ uniqueSkus b ↔ A ∈ b.skuList := by
  rw [uniqueSkus, ← JsSet.has_iff, JsSet.has_foldl_add, JsSet.has_empty, Bool.false_eq_true,
    or_false]

theorem nodup_uniqueSkus (b : IOrderBasket) : (uniqueSkus b).Nodup :=
  (b.skuList.foldl JsSet.add .empty).nodup

/-- The keys of the pairs of a basket. -/
def pairKeys (b : IOrderBasket) : List JsString :=
  (indexPairs (uniqueSkus b)).map fun p => pairKey p.1 p.2

/-- The basket has a SKU. -/
def IOrderBasket.has (b : IOrderBasket) (A : JsString) : Bool := b.skuList.any fun sku => sku = A

theorem IOrderBasket.has_iff {b : IOrderBasket} : b.has A = true ↔ A ∈ b.skuList := by
  simp [IOrderBasket.has]

/-- The baskets with a SKU. -/
def containing (baskets : List IOrderBasket) (A : JsString) : ℕ := baskets.countP fun b => b.has A

/-- The baskets with both SKUs. -/
def containingBoth (baskets : List IOrderBasket) (A B : JsString) : ℕ :=
  baskets.countP fun b => b.has A && b.has B

/-- How often a key is counted. -/
def keyCount (baskets : List IOrderBasket) (k : JsString) : ℕ :=
  occurrences (baskets.flatMap pairKeys) k

theorem foldl_addBasket (baskets : List IOrderBasket) :
    baskets.foldl AffinityCounts.addBasket ⟨.empty, .empty⟩ =
      ⟨tally (baskets.flatMap uniqueSkus), tally (baskets.flatMap pairKeys)⟩ := by
  induction baskets using List.reverseRecOn with
  | nil => rfl
  | append_singleton baskets b ih =>
    rw [List.foldl_append, ih, List.foldl_cons, List.foldl_nil, AffinityCounts.addBasket,
      List.flatMap_append, List.flatMap_append, List.flatMap_singleton, List.flatMap_singleton,
      tally_append, tally_append, pairKeys, List.foldl_map]

theorem occurrences_of_nodup {l : List JsString} (hl : l.Nodup) (A : JsString) :
    occurrences l A = if A ∈ l then 1 else 0 := by
  have hcount : occurrences l A = l.count A := List.countP_congr fun B _ => by simp
  rw [hcount, hl.count]

theorem occurrences_uniqueSkus (baskets : List IOrderBasket) (A : JsString) :
    occurrences (baskets.flatMap uniqueSkus) A = containing baskets A := by
  induction baskets with
  | nil => rfl
  | cons b baskets ih =>
    rw [List.flatMap_cons, occurrences_append, ih, containing, containing, List.countP_cons,
      occurrences_of_nodup (nodup_uniqueSkus b)]
    simp only [mem_uniqueSkus, IOrderBasket.has_iff, Nat.add_comm]

theorem countP_map_pairs {a : JsString} {l : List JsString} (hl : l.Nodup)
    (hne : A ≠ B) : (l.map fun b => (a, b)).countP (fun p => p = (A, B) ∨ p = (B, A)) =
      if (a = A ∧ B ∈ l) ∨ (a = B ∧ A ∈ l) then 1 else 0 := by
  rw [List.countP_map]
  by_cases hA : a = A
  · subst hA
    have hcount : l.countP ((fun p => decide (p = (a, B) ∨ p = (B, a))) ∘ fun b => (a, b)) =
        occurrences l B := by
      refine List.countP_congr fun b _ => ?_
      simp [hne]
    rw [hcount, occurrences_of_nodup hl]
    simp [hne]
  · by_cases hB : a = B
    · subst hB
      have hcount : l.countP ((fun p => decide (p = (A, a) ∨ p = (a, A))) ∘ fun b => (a, b)) =
          occurrences l A := by
        refine List.countP_congr fun b _ => ?_
        simp [hne.symm]
      rw [hcount, occurrences_of_nodup hl]
      simp [hne.symm]
    · rw [if_neg (by simp [hA, hB]), List.countP_eq_zero]
      intro b _
      simp [hA, hB]

theorem countP_indexPairs {l : List JsString} (hl : l.Nodup) (hne : A ≠ B) :
    (indexPairs l).countP (fun p => p = (A, B) ∨ p = (B, A)) = if A ∈ l ∧ B ∈ l then 1 else 0 := by
  induction l with
  | nil => rfl
  | cons a l ih =>
    obtain ⟨ha, hl⟩ := List.nodup_cons.mp hl
    rw [indexPairs, List.countP_append, ih hl, countP_map_pairs hl hne]
    by_cases hA : a = A
    · subst hA
      simp [ha, hne, hne.symm]
    · by_cases hB : a = B
      · subst hB
        simp [ha, hne]
      · simp [hA, hB, Ne.symm hA, Ne.symm hB]

theorem mem_of_mem_indexPairs {l : List JsString} {p : JsString × JsString}
    (h : p ∈ indexPairs l) : p.1 ∈ l ∧ p.2 ∈ l ∧ (l.Nodup → p.1 ≠ p.2) := by
  induction l with
  | nil => exact absurd h List.not_mem_nil
  | cons a l ih =>
    rcases List.mem_append.mp h with h | h
    · obtain ⟨b, hb, rfl⟩ := List.mem_map.mp h
      refine ⟨List.mem_cons_self, List.mem_cons_of_mem a hb, fun hl => ?_⟩
      exact (ne_of_mem_of_not_mem hb (List.nodup_cons.mp hl).1).symm
    · obtain ⟨h₁, h₂, hne⟩ := ih h
      exact ⟨List.mem_cons_of_mem a h₁, List.mem_cons_of_mem a h₂,
        fun hl => hne (List.nodup_cons.mp hl).2⟩

/-! ## Keys -/

/-- The key of two SKUs in order. -/
def keyOf (A B : JsString) : JsString := A ++ colon :: colon :: B

theorem pairKey_of_lt (h : A < B) : pairKey A B = keyOf A B := by
  rw [pairKey, if_neg (List.lt_asymm h), List.append_assoc]
  rfl

theorem pairKey_of_gt (h : A < B) : pairKey B A = keyOf A B := by
  rw [pairKey, if_pos h, List.append_assoc]
  rfl

/-- Two SKUs share a basket, and come in this order. -/
def Together (b : IOrderBasket) (A B : JsString) : Prop := A ∈ b.skuList ∧ B ∈ b.skuList ∧ A < B

theorem together_of_mem_indexPairs {b : IOrderBasket} {p : JsString × JsString}
    (h : p ∈ indexPairs (uniqueSkus b)) :
    ∃ A B, Together b A B ∧ (p = (A, B) ∨ p = (B, A)) ∧ pairKey p.1 p.2 = keyOf A B := by
  obtain ⟨h₁, h₂, hne⟩ := mem_of_mem_indexPairs h
  have hne := hne (nodup_uniqueSkus b)
  rw [mem_uniqueSkus] at h₁ h₂
  by_cases hlt : p.1 < p.2
  · exact ⟨p.1, p.2, ⟨h₁, h₂, hlt⟩, Or.inl rfl, pairKey_of_lt hlt⟩
  · have hgt : p.2 < p.1 := by
      by_contra hgt
      exact hne (Std.Trichotomous.trichotomous p.1 p.2 hlt hgt)
    exact ⟨p.2, p.1, ⟨h₂, h₁, hgt⟩, Or.inr rfl, pairKey_of_gt hgt⟩

theorem occurrences_pairKeys (b : IOrderBasket) (k : JsString) : occurrences (pairKeys b) k =
    (indexPairs (uniqueSkus b)).countP fun p => pairKey p.1 p.2 = k :=
  List.countP_map

theorem countP_together (b : IOrderBasket) (h : A < B) :
    (indexPairs (uniqueSkus b)).countP (fun p => p = (A, B) ∨ p = (B, A)) =
      if A ∈ b.skuList ∧ B ∈ b.skuList then 1 else 0 := by
  have hne : A ≠ B := by
    rintro rfl
    exact List.lt_irrefl A h
  rw [countP_indexPairs (nodup_uniqueSkus b) hne]
  simp only [mem_uniqueSkus]

theorem keyCount_cons (b : IOrderBasket) (baskets : List IOrderBasket) (k : JsString) :
    keyCount (b :: baskets) k = occurrences (pairKeys b) k + keyCount baskets k := by
  rw [keyCount, List.flatMap_cons, occurrences_append, keyCount]

theorem containingBoth_cons (b : IOrderBasket) (baskets : List IOrderBasket) (A B : JsString) :
    containingBoth (b :: baskets) A B =
      (if A ∈ b.skuList ∧ B ∈ b.skuList then 1 else 0) + containingBoth baskets A B := by
  rw [containingBoth, List.countP_cons, containingBoth, Nat.add_comm]
  simp only [Bool.and_eq_true, IOrderBasket.has_iff]

theorem containing_pos : 0 < containing baskets A ↔ ∃ b ∈ baskets, A ∈ b.skuList := by
  rw [containing, List.countP_pos_iff]
  simp only [IOrderBasket.has_iff]

theorem containingBoth_pos :
    0 < containingBoth baskets A B ↔ ∃ b ∈ baskets, A ∈ b.skuList ∧ B ∈ b.skuList := by
  rw [containingBoth, List.countP_pos_iff]
  simp only [Bool.and_eq_true, IOrderBasket.has_iff]

theorem containingBoth_le (h : A < B) :
    containingBoth baskets A B ≤ keyCount baskets (keyOf A B) := by
  induction baskets with
  | nil => exact Nat.zero_le _
  | cons b baskets ih =>
    rw [containingBoth_cons, keyCount_cons, ← countP_together b h, occurrences_pairKeys]
    refine Nat.add_le_add (List.countP_mono_left fun p _ hp => ?_) ih
    rcases of_decide_eq_true hp with rfl | rfl
    · exact decide_eq_true (pairKey_of_lt h)
    · exact decide_eq_true (pairKey_of_gt h)

theorem keyCount_eq (h : A < B) (honly : ∀ b ∈ baskets, ∀ A' B', Together b A' B' →
    keyOf A' B' = keyOf A B → A' = A ∧ B' = B) :
    keyCount baskets (keyOf A B) = containingBoth baskets A B := by
  induction baskets with
  | nil => rfl
  | cons b baskets ih =>
    rw [containingBoth_cons, keyCount_cons, ← countP_together b h, occurrences_pairKeys,
      ih fun b' hb' => honly b' (List.mem_cons_of_mem b hb')]
    congr 1
    refine List.countP_congr fun p hp => ?_
    rw [decide_eq_true_eq, decide_eq_true_eq]
    constructor
    · intro hkey
      obtain ⟨A', B', htogether, hp, hpair⟩ := together_of_mem_indexPairs hp
      obtain ⟨rfl, rfl⟩ := honly b List.mem_cons_self A' B' htogether (hpair.symm.trans hkey)
      exact hp
    · rintro (rfl | rfl)
      · exact pairKey_of_lt h
      · exact pairKey_of_gt h

theorem exists_together (h : 0 < keyCount baskets k) :
    ∃ b ∈ baskets, ∃ A B, Together b A B ∧ k = keyOf A B := by
  obtain ⟨b, hb, hk⟩ := List.mem_flatMap.mp (occurrences_pos.mp h)
  obtain ⟨p, hp, rfl⟩ := List.mem_map.mp hk
  obtain ⟨A, B, htogether, -, hkey⟩ := together_of_mem_indexPairs hp
  exact ⟨b, hb, A, B, htogether, hkey⟩

/-! ## Rules -/

/-- The exact share of `n` of `m`, in percent. -/
def share (n m : ℕ) : ℚ := n / m * 100

/-- **The baskets support a rule**: enough of them have both SKUs, and enough of those with the
first one have the second one. -/
structure HoldsRule (baskets : List IOrderBasket) (minSupportPct minConfidencePct : Double)
    (A B : JsString) : Prop where
  distinct : A ≠ B
  support : minSupportPct ≤ share (containingBoth baskets A B) baskets.length
  confidence : minConfidencePct ≤ share (containingBoth baskets A B) (containing baskets A)

/-- The pair of a rule. -/
def ISkuAssociationRule.pair (r : ISkuAssociationRule) : JsString × JsString :=
  (r.antecedentSku, r.consequentSku)

/-- The pairs of the rules that are mined. -/
def minedPairs (baskets : List IOrderBasket) (minSupportPct minConfidencePct : Double) :
    List (JsString × JsString) :=
  (mineAssociationRules baskets minSupportPct minConfidencePct).map ISkuAssociationRule.pair

/-- **Mining is complete**: the rules that the baskets support are mined, each of them once. -/
structure Complete (baskets : List IOrderBasket) (minSupportPct minConfidencePct : Double) : Prop where
  once : (minedPairs baskets minSupportPct minConfidencePct).Nodup
  mem_iff : ∀ A B, (A, B) ∈ minedPairs baskets minSupportPct minConfidencePct ↔
    HoldsRule baskets minSupportPct minConfidencePct A B

/-- The rounded percentages of a key reach the thresholds, for a rule from `A`. -/
structure Reaches (baskets : List IOrderBasket) (minSupportPct minConfidencePct : Double)
    (k A : JsString) : Prop where
  support : minSupportPct ≤ percent (keyCount baskets k) baskets.length
  confidence : minConfidencePct ≤ percent (keyCount baskets k) (max 1 (containing baskets A))

/-- **The keys that reach the support are cut apart**: into the two SKUs that they join. -/
def KeysCutApart (baskets : List IOrderBasket) (minSupportPct : Double) : Prop :=
  ∀ b ∈ baskets, ∀ A B, Together b A B →
    minSupportPct ≤ percent (keyCount baskets (keyOf A B)) baskets.length → CutApart colon A B

/-- **No percentage is rounded across a threshold.** -/
def RoundsClear (baskets : List IOrderBasket) (minSupportPct minConfidencePct : Double) : Prop :=
  ∀ b ∈ baskets, ∀ A B, Together b A B →
    (minSupportPct ≤ percent (containingBoth baskets A B) baskets.length ↔
      (minSupportPct : ℚ) ≤ share (containingBoth baskets A B) baskets.length) ∧
    (minConfidencePct ≤ percent (containingBoth baskets A B) (containing baskets A) ↔
      (minConfidencePct : ℚ) ≤ share (containingBoth baskets A B) (containing baskets A))

/-- **No rule goes backwards**, from the greater SKU to the smaller one. -/
def NoReverseRule (baskets : List IOrderBasket) (minSupportPct minConfidencePct : Double) : Prop :=
  ∀ A B, HoldsRule baskets minSupportPct minConfidencePct A B → A < B

/-- The pair that is read off a key, where it reaches both thresholds. -/
def readPair (baskets : List IOrderBasket) (minSupportPct minConfidencePct : Double) (k : JsString) :
    Option (JsString × JsString) :=
  match cut colon k with
  | A :: B :: _ =>
    if minSupportPct ≤ percent (keyCount baskets k) baskets.length then
      if minConfidencePct ≤ percent (keyCount baskets k) (max 1 (containing baskets A)) then
        some (A, B)
      else none
    else none
  | _ => none

theorem getD_tally (baskets : List IOrderBasket) (A : JsString) :
    ((tally (baskets.flatMap uniqueSkus)).get A).getD 1 = max 1 (containing baskets A) := by
  rw [get_tally, occurrences_uniqueSkus]
  split_ifs with h
  · rw [h, Option.getD_none, Nat.max_zero]
  · exact (Nat.max_eq_right (Nat.pos_of_ne_zero h)).symm

theorem map_ruleOf (baskets : List IOrderBasket) (minSupportPct minConfidencePct : Double)
    (k : JsString) :
    (ruleOf baskets.length (tally (baskets.flatMap uniqueSkus)) minSupportPct minConfidencePct
      (k, keyCount baskets k)).map ISkuAssociationRule.pair =
        readPair baskets minSupportPct minConfidencePct k := by
  rw [ruleOf, readPair]
  rcases cut colon k with _ | ⟨A, _ | ⟨B, ps⟩⟩
  · rfl
  · rfl
  · simp only [getD_tally]
    split_ifs <;> rfl

theorem minedPairs_perm (baskets : List IOrderBasket) (minSupportPct minConfidencePct : Double) :
    (minedPairs baskets minSupportPct minConfidencePct).Perm
      ((tally (baskets.flatMap pairKeys)).keys.filterMap
        (readPair baskets minSupportPct minConfidencePct)) := by
  rw [minedPairs, mineAssociationRules]
  split_ifs with hempty
  · obtain rfl := List.length_eq_zero_iff.mp hempty
    exact List.Perm.refl _
  · rw [foldl_addBasket]
    refine ((List.perm_insertionSort _ _).map _).trans (List.Perm.of_eq ?_)
    rw [List.map_filterMap, JsMap.keys, List.filterMap_map]
    refine List.filterMap_congr fun e he => ?_
    obtain ⟨k, n⟩ := e
    obtain ⟨rfl, -⟩ := mem_entries_tally.mp he
    exact map_ruleOf baskets minSupportPct minConfidencePct k

theorem mem_keys_tally : k ∈ (tally (baskets.flatMap pairKeys)).keys ↔ 0 < keyCount baskets k := by
  rw [JsMap.mem_keys]
  constructor
  · rintro ⟨n, hn⟩
    obtain ⟨rfl, hpos⟩ := mem_entries_tally.mp hn
    exact hpos
  · exact fun h => ⟨_, mem_entries_tally.mpr ⟨rfl, h⟩⟩

theorem mem_minedPairs : (A, B) ∈ minedPairs baskets minSupportPct minConfidencePct ↔
    ∃ k, 0 < keyCount baskets k ∧
      readPair baskets minSupportPct minConfidencePct k = some (A, B) := by
  rw [(minedPairs_perm baskets minSupportPct minConfidencePct).mem_iff, List.mem_filterMap]
  simp only [mem_keys_tally]

theorem readPair_eq_some_iff : readPair baskets minSupportPct minConfidencePct k = some (A, B) ↔
    (∃ ps, cut colon k = A :: B :: ps) ∧ Reaches baskets minSupportPct minConfidencePct k A := by
  rw [readPair]
  rcases cut colon k with _ | ⟨A', _ | ⟨B', ps⟩⟩
  · simp
  · simp
  · rw [Option.ite_none_right_eq_some, Option.ite_none_right_eq_some, Option.some.injEq,
      Prod.mk.injEq]
    constructor
    · rintro ⟨hsupport, hconfidence, rfl, rfl⟩
      exact ⟨⟨ps, rfl⟩, hsupport, hconfidence⟩
    · rintro ⟨⟨ps', hps⟩, ⟨hsupport, hconfidence⟩⟩
      obtain ⟨rfl, htail⟩ := List.cons.inj hps
      exact ⟨hsupport, hconfidence, rfl, (List.cons.inj htail).1⟩

/-! ## Completeness -/

theorem Together.ne {b : IOrderBasket} (h : Together b A B) : A ≠ B := by
  rintro rfl
  exact List.lt_irrefl A h.2.2

theorem HoldsRule.containingBoth_pos (h : HoldsRule baskets minSupportPct minConfidencePct A B)
    (hsupport : 0 < minSupportPct) : 0 < containingBoth baskets A B := by
  rw [Double.val_lt, Double.val_zero] at hsupport
  refine Nat.pos_of_ne_zero fun hzero => (hsupport.trans_le h.support).ne' ?_
  rw [hzero, share, Nat.cast_zero, zero_div, zero_mul]

theorem percent_mono {m n : ℕ} (h : m ≤ n) (d : ℕ) : percent m d ≤ percent n d := by
  have hcast : Double.ofRat m ≤ .ofRat n := Double.ofRat_mono (Nat.cast_le.mpr h)
  have hd : 0 ≤ Double.ofRat d := Double.ofRat_nonneg d.cast_nonneg
  exact Double.mul_le_mul_right (Double.div_le_div_right hcast hd) (by decide +kernel)

theorem Reaches.mono {n : ℕ} (h : n ≤ keyCount baskets k)
    (hsupport : minSupportPct ≤ percent n baskets.length)
    (hconfidence : minConfidencePct ≤ percent n (max 1 (containing baskets A))) :
    Reaches baskets minSupportPct minConfidencePct k A :=
  ⟨hsupport.trans (percent_mono h _), hconfidence.trans (percent_mono h _)⟩

/-- **A key that is cut apart** is counted in the baskets that its SKUs share. -/
theorem KeysCutApart.keyCount_eq (h : KeysCutApart baskets minSupportPct) (hlt : A < B)
    (hcut : CutApart colon A B)
    (hreach : minSupportPct ≤ percent (keyCount baskets (keyOf A B)) baskets.length) :
    keyCount baskets (keyOf A B) = containingBoth baskets A B := by
  refine Analytics.keyCount_eq hlt fun b hb A' B' htogether hkey => ?_
  have hcut' : CutApart colon A' B' := h b hb A' B' htogether (hkey ▸ hreach)
  have hparts : [A', B'] = [A, B] := by
    rw [← cut_key hcut', ← cut_key hcut]
    exact congrArg (cut colon) hkey
  exact ⟨(List.cons.inj hparts).1, (List.cons.inj (List.cons.inj hparts).2).1⟩

/-- **What is mined** where the keys are cut apart and the percentages rounded clear of the
thresholds. -/
theorem KeysCutApart.of_readPair (h : KeysCutApart baskets minSupportPct)
    (hclear : RoundsClear baskets minSupportPct minConfidencePct) (hk : 0 < keyCount baskets k)
    (hread : readPair baskets minSupportPct minConfidencePct k = some (A, B)) :
    k = keyOf A B ∧ A < B ∧ HoldsRule baskets minSupportPct minConfidencePct A B := by
  obtain ⟨⟨ps, hps⟩, ⟨hsupport, hconfidence⟩⟩ := readPair_eq_some_iff.mp hread
  obtain ⟨b, hb, A', B', htogether, rfl⟩ := exists_together hk
  have hcut := h b hb A' B' htogether hsupport
  rw [keyOf, cut_key hcut] at hps
  obtain ⟨rfl, hps'⟩ := List.cons.inj hps
  obtain ⟨rfl, -⟩ := List.cons.inj hps'
  have hcount := h.keyCount_eq htogether.2.2 hcut hsupport
  have hcontaining : 1 ≤ containing baskets A' := containing_pos.mpr ⟨b, hb, htogether.1⟩
  rw [hcount] at hsupport hconfidence
  rw [max_eq_right hcontaining] at hconfidence
  obtain ⟨hs, hc⟩ := hclear b hb A' B' htogether
  exact ⟨rfl, htogether.2.2, htogether.ne, hs.mp hsupport, hc.mp hconfidence⟩

/-- **Pairs are mined once** exactly when no two keys are read as the same pair. -/
theorem nodup_minedPairs_iff : (minedPairs baskets minSupportPct minConfidencePct).Nodup ↔
    ∀ k k' p, 0 < keyCount baskets k → 0 < keyCount baskets k' →
      readPair baskets minSupportPct minConfidencePct k = some p →
        readPair baskets minSupportPct minConfidencePct k' = some p → k = k' := by
  rw [(minedPairs_perm baskets minSupportPct minConfidencePct).nodup_iff, List.Nodup,
    List.pairwise_filterMap]
  constructor
  · intro h k k' p hk hk' hp hp'
    by_contra hne
    have hsymm : Std.Symm fun k k' => ∀ p, readPair baskets minSupportPct minConfidencePct k =
        some p → ∀ p', readPair baskets minSupportPct minConfidencePct k' = some p' → p ≠ p' :=
      ⟨fun k k' h p hp p' hp' => (h p' hp' p hp).symm⟩
    exact h.forall (mem_keys_tally.mpr hk) (mem_keys_tally.mpr hk') hne p hp p hp' rfl
  · intro h
    refine (tally (baskets.flatMap pairKeys)).nodup.imp_of_mem fun hk hk' hne p hp p' hp' heq => ?_
    subst heq
    exact hne (h _ _ p (mem_keys_tally.mp hk) (mem_keys_tally.mp hk') hp hp')

/-- **A rule is read off the key of its SKUs**: it goes forwards, the key is cut apart, and its
percentages reach the thresholds. -/
structure ReadsOwnKey (baskets : List IOrderBasket) (minSupportPct minConfidencePct : Double)
    (A B : JsString) : Prop where
  forwards : A < B
  cutApart : CutApart colon A B
  reaches : Reaches baskets minSupportPct minConfidencePct (keyOf A B) A

theorem ReadsOwnKey.readPair (h : ReadsOwnKey baskets minSupportPct minConfidencePct A B) :
    readPair baskets minSupportPct minConfidencePct (keyOf A B) = some (A, B) :=
  readPair_eq_some_iff.mpr ⟨⟨[], cut_key h.cutApart⟩, h.reaches⟩

theorem readsOwnKey_of_readPair (hlt : A < B)
    (h : readPair baskets minSupportPct minConfidencePct (keyOf A B) = some (A, B)) :
    ReadsOwnKey baskets minSupportPct minConfidencePct A B := by
  obtain ⟨⟨ps, hps⟩, hreaches⟩ := readPair_eq_some_iff.mp h
  exact ⟨hlt, cutApart_of_cut hps, hreaches⟩

theorem HoldsRule.keyCount_pos (h : HoldsRule baskets minSupportPct minConfidencePct A B)
    (hsupport : 0 < minSupportPct) (hlt : A < B) : 0 < keyCount baskets (keyOf A B) :=
  (h.containingBoth_pos hsupport).trans_le (containingBoth_le hlt)

/-- **A key is misread**: it is cut into two SKUs that it does not join, or whose rule does not
hold, and it is counted often enough. -/
structure Misread (baskets : List IOrderBasket) (minSupportPct minConfidencePct : Double)
    (k A B : JsString) : Prop where
  counted : 0 < keyCount baskets k
  cut : ∃ ps, cut colon k = A :: B :: ps
  reaches : Reaches baskets minSupportPct minConfidencePct k A
  wrong : ¬ (A < B ∧ k = keyOf A B ∧ HoldsRule baskets minSupportPct minConfidencePct A B)

theorem Misread.readPair (h : Misread baskets minSupportPct minConfidencePct k A B) :
    readPair baskets minSupportPct minConfidencePct k = some (A, B) :=
  readPair_eq_some_iff.mpr ⟨h.cut, h.reaches⟩

theorem holdsRule_or_misread (hk : 0 < keyCount baskets k)
    (hread : readPair baskets minSupportPct minConfidencePct k = some (A, B)) :
    (A < B ∧ k = keyOf A B ∧ HoldsRule baskets minSupportPct minConfidencePct A B) ∨
      Misread baskets minSupportPct minConfidencePct k A B := by
  obtain ⟨hcut, hreaches⟩ := readPair_eq_some_iff.mp hread
  exact or_iff_not_imp_left.mpr fun hwrong => ⟨hk, hcut, hreaches, hwrong⟩

/-- **The errors cancel**: the rules that are not read off the key of their SKUs are what the
misread keys are read as, each of them once. -/
structure ErrorsCancel (baskets : List IOrderBasket) (minSupportPct minConfidencePct : Double) :
    Prop where
  missed : ∀ A B, (HoldsRule baskets minSupportPct minConfidencePct A B ∧
      ¬ ReadsOwnKey baskets minSupportPct minConfidencePct A B) ↔
    ∃ k, Misread baskets minSupportPct minConfidencePct k A B
  once : ∀ k k' A B, Misread baskets minSupportPct minConfidencePct k A B →
    Misread baskets minSupportPct minConfidencePct k' A B → k = k'

theorem Complete.errorsCancel (h : Complete baskets minSupportPct minConfidencePct)
    (hsupport : 0 < minSupportPct) : ErrorsCancel baskets minSupportPct minConfidencePct := by
  have honce := nodup_minedPairs_iff.mp h.once
  refine ⟨fun A B => ⟨?_, ?_⟩, ?_⟩
  · rintro ⟨hrule, hown⟩
    obtain ⟨k, hk, hread⟩ := mem_minedPairs.mp ((h.mem_iff A B).mpr hrule)
    refine ⟨k, (holdsRule_or_misread hk hread).resolve_left ?_⟩
    rintro ⟨hlt, rfl, -⟩
    exact hown (readsOwnKey_of_readPair hlt hread)
  · rintro ⟨k, hmisread⟩
    have hrule := (h.mem_iff A B).mp (mem_minedPairs.mpr ⟨k, hmisread.counted, hmisread.readPair⟩)
    refine ⟨hrule, fun hown => ?_⟩
    -- otherwise the rule is read off its own key as well
    have hcounted := hrule.keyCount_pos hsupport hown.forwards
    exact hmisread.wrong ⟨hown.forwards,
      honce k _ _ hmisread.counted hcounted hmisread.readPair hown.readPair, hrule⟩
  · exact fun k k' A B hk hk' => honce k k' _ hk.counted hk'.counted hk.readPair hk'.readPair

theorem ErrorsCancel.complete (h : ErrorsCancel baskets minSupportPct minConfidencePct)
    (hsupport : 0 < minSupportPct) : Complete baskets minSupportPct minConfidencePct := by
  -- a key is not misread as a rule that is read off its own key
  have hnot : ∀ {k A B}, A < B → readPair baskets minSupportPct minConfidencePct (keyOf A B) =
      some (A, B) → ¬ Misread baskets minSupportPct minConfidencePct k A B :=
    fun hlt hread hmis => ((h.missed _ _).mpr ⟨_, hmis⟩).2 (readsOwnKey_of_readPair hlt hread)
  refine ⟨nodup_minedPairs_iff.mpr ?_, fun A B => ⟨?_, ?_⟩⟩
  · rintro k k' ⟨A, B⟩ hk hk' hp hp'
    rcases holdsRule_or_misread hk hp with ⟨hlt, rfl, -⟩ | hmis <;>
      rcases holdsRule_or_misread hk' hp' with ⟨hlt', rfl, -⟩ | hmis'
    · rfl
    · exact absurd hmis' (hnot hlt hp)
    · exact absurd hmis (hnot hlt' hp')
    · exact h.once k k' A B hmis hmis'
  · intro hmined
    obtain ⟨k, hk, hp⟩ := mem_minedPairs.mp hmined
    rcases holdsRule_or_misread hk hp with ⟨-, -, hrule⟩ | hmis
    · exact hrule
    · exact ((h.missed A B).mpr ⟨k, hmis⟩).1
  · intro hrule
    by_cases hown : ReadsOwnKey baskets minSupportPct minConfidencePct A B
    · exact mem_minedPairs.mpr
        ⟨keyOf A B, hrule.keyCount_pos hsupport hown.forwards, hown.readPair⟩
    · obtain ⟨k, hmis⟩ := (h.missed A B).mp ⟨hrule, hown⟩
      exact mem_minedPairs.mpr ⟨k, hmis.counted, hmis.readPair⟩

theorem KeysCutApart.readsOwnKey (h : KeysCutApart baskets minSupportPct)
    (hclear : RoundsClear baskets minSupportPct minConfidencePct) (hsupport : 0 < minSupportPct)
    (hrule : HoldsRule baskets minSupportPct minConfidencePct A B) (hlt : A < B) :
    ReadsOwnKey baskets minSupportPct minConfidencePct A B := by
  obtain ⟨b, hb, hA, hB⟩ := containingBoth_pos.mp (hrule.containingBoth_pos hsupport)
  obtain ⟨hs, hc⟩ := hclear b hb A B ⟨hA, hB, hlt⟩
  have hcontaining : 1 ≤ containing baskets A := containing_pos.mpr ⟨b, hb, hA⟩
  have hreaches : Reaches baskets minSupportPct minConfidencePct (keyOf A B) A := by
    refine .mono (containingBoth_le hlt) (hs.mpr hrule.support) ?_
    rw [max_eq_right hcontaining]
    exact hc.mpr hrule.confidence
  exact ⟨hlt, h b hb A B ⟨hA, hB, hlt⟩ hreaches.support, hreaches⟩

/-- **Where the keys are cut apart** and the percentages are rounded clear of the thresholds, none
is misread, and it takes that no rule goes backwards. -/
theorem KeysCutApart.errorsCancel_iff (h : KeysCutApart baskets minSupportPct)
    (hclear : RoundsClear baskets minSupportPct minConfidencePct) (hsupport : 0 < minSupportPct) :
    ErrorsCancel baskets minSupportPct minConfidencePct ↔
      NoReverseRule baskets minSupportPct minConfidencePct := by
  have hnone : ∀ k A B, ¬ Misread baskets minSupportPct minConfidencePct k A B :=
    fun k A B hmis => by
      obtain ⟨hkey, hlt, hrule⟩ := h.of_readPair hclear hmis.counted hmis.readPair
      exact hmis.wrong ⟨hlt, hkey, hrule⟩
  constructor
  · intro hcancel A B hrule
    by_contra hback
    obtain ⟨k, hmis⟩ := (hcancel.missed A B).mp ⟨hrule, fun hown => hback hown.forwards⟩
    exact hnone k A B hmis
  · intro hforwards
    refine ⟨fun A B => ⟨?_, ?_⟩, fun k k' A B hmis => absurd hmis (hnone k A B)⟩
    · rintro ⟨hrule, hown⟩
      exact absurd (h.readsOwnKey hclear hsupport hrule (hforwards A B hrule)) hown
    · exact fun ⟨k, hmis⟩ => absurd hmis (hnone k A B)

/-- A basket of SKUs. -/
def basketOf (skus : List String) : IOrderBasket := ⟨skus.map js⟩

/-- A key may be cut at another place. -/
example : minedPairs [basketOf ["A:", "B"]] 2 30 = [(js "A", js ":B")] := by decide +kernel

/-- A percentage may be rounded across a threshold: 29 of 50 are less than 58 percent. -/
example : percent 29 50 < 58 ∧ 58 ≤ share 29 50 := by decide +kernel

end Logix.Analytics
