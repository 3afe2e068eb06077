import Mathlib.Algebra.Order.Ring.Rat
import Logix.Spec.Admission

/-!
# Hazardous materials

A new item is compared with every class in the bay, by the first rule about the two classes. A rule
is about its classes in both orders.

* `HazardousChemicalSafetyRuleValidator.validateBayPlacement`: the code, with the matrix of the
  constructor;
* `Compatible`: no rule keeps the two classes apart;
* **`isCompliant_iff`**: an item is placed exactly when it is compatible with all classes there;
* `acceptsEvery`: a sequence of items, placed one by one in an empty bay;
* **`acceptsEvery_spec`**: all of them are accepted exactly when all pairs are compatible, in
  whatever order they come.
-/

namespace Logix.Inventory

open Spec

/-- `HazmatClass`. -/
inductive HazmatClass where
  | CLASS_1_EXPLOSIVES | CLASS_2_GASES | CLASS_3_FLAMMABLE_LIQUIDS | CLASS_4_FLAMMABLE_SOLIDS
  | CLASS_5_OXIDIZERS | CLASS_6_POISONS | CLASS_7_RADIOACTIVE | CLASS_8_CORROSIVES | CLASS_9_MISC
  deriving DecidableEq, Repr

/-- The text of a class. -/
def HazmatClass.text : HazmatClass → String
  | .CLASS_1_EXPLOSIVES => "CLASS_1_EXPLOSIVES"
  | .CLASS_2_GASES => "CLASS_2_GASES"
  | .CLASS_3_FLAMMABLE_LIQUIDS => "CLASS_3_FLAMMABLE_LIQUIDS"
  | .CLASS_4_FLAMMABLE_SOLIDS => "CLASS_4_FLAMMABLE_SOLIDS"
  | .CLASS_5_OXIDIZERS => "CLASS_5_OXIDIZERS"
  | .CLASS_6_POISONS => "CLASS_6_POISONS"
  | .CLASS_7_RADIOACTIVE => "CLASS_7_RADIOACTIVE"
  | .CLASS_8_CORROSIVES => "CLASS_8_CORROSIVES"
  | .CLASS_9_MISC => "CLASS_9_MISC"

/-- `IHazmatStorageRule`: what the validator reads of it. -/
structure IHazmatStorageRule where
  classA : HazmatClass
  classB : HazmatClass
  isAllowedInSameBay : Bool
  requiredSeparationDistanceMeters : ℚ
  deriving DecidableEq, Repr

/-- What `validateBayPlacement` returns. -/
structure BayPlacement where
  isCompliant : Bool
  violations : List String
  requiredSeparationMeters : ℚ
  deriving DecidableEq, Repr

/-- **`HazardousChemicalSafetyRuleValidator`.** -/
structure HazardousChemicalSafetyRuleValidator where
  rules : List IHazmatStorageRule

/-- The test of `find`: the rule is about the two classes. -/
def IHazmatStorageRule.concerns (r : IHazmatStorageRule) (classNewItem existing : HazmatClass) :
    Bool :=
  (r.classA = classNewItem && r.classB = existing) ||
    (r.classA = existing && r.classB = classNewItem)

namespace HazardousChemicalSafetyRuleValidator

/-- `initializeMatrix()`. -/
def initializeMatrix : List IHazmatStorageRule :=
  [⟨.CLASS_3_FLAMMABLE_LIQUIDS, .CLASS_5_OXIDIZERS, false, 15⟩,
    ⟨.CLASS_8_CORROSIVES, .CLASS_3_FLAMMABLE_LIQUIDS, false, 8⟩,
    ⟨.CLASS_4_FLAMMABLE_SOLIDS, .CLASS_5_OXIDIZERS, false, 12⟩]

/-- `new HazardousChemicalSafetyRuleValidator()`. -/
def new : HazardousChemicalSafetyRuleValidator := ⟨initializeMatrix⟩

/-- One round of the loop: `violations` and `maxSeparationMeters`. -/
def checkExisting (s : HazardousChemicalSafetyRuleValidator) (classNewItem : HazmatClass)
    (st : List String × ℚ) (existing : HazmatClass) : List String × ℚ :=
  match s.rules.find? fun r => r.concerns classNewItem existing with
  | none => st
  | some conflict =>
    if conflict.isAllowedInSameBay then st
    else
      (st.1 ++ ["Incompatible storage: " ++ classNewItem.text ++ " cannot be stored with " ++
        existing.text], max st.2 conflict.requiredSeparationDistanceMeters)

/-- **`validateBayPlacement(classNewItem, existingClassesInBay)`.** -/
def validateBayPlacement (s : HazardousChemicalSafetyRuleValidator) (classNewItem : HazmatClass)
    (existingClassesInBay : List HazmatClass) : BayPlacement :=
  let (violations, maxSeparationMeters) :=
    existingClassesInBay.foldl (s.checkExisting classNewItem) ([], 0)
  { isCompliant := violations.length = 0
    violations := violations
    requiredSeparationMeters := maxSeparationMeters }

/-- **Every item of the sequence is accepted**, one by one, in a bay that is empty at first. -/
def acceptsEvery (s : HazardousChemicalSafetyRuleValidator) (items : List HazmatClass) : Bool :=
  admitsAll (fun item placed => (s.validateBayPlacement item placed).isCompliant) [] items

end HazardousChemicalSafetyRuleValidator

open HazardousChemicalSafetyRuleValidator

/-- **No rule keeps the two classes apart**, whichever of them it names first. -/
def Compatible (rules : List IHazmatStorageRule) (c c' : HazmatClass) : Prop :=
  ∀ r ∈ rules, (r.classA = c ∧ r.classB = c') ∨ (r.classA = c' ∧ r.classB = c) →
    r.isAllowedInSameBay = true

/-- Rules about the same classes say the same. -/
def Agree (rules : List IHazmatStorageRule) : Prop :=
  ∀ r ∈ rules, ∀ r' ∈ rules, ∀ c c', r.concerns c c' = true → r'.concerns c c' = true →
    r.isAllowedInSameBay = r'.isAllowedInSameBay

variable {s : HazardousChemicalSafetyRuleValidator} {rules : List IHazmatStorageRule}

theorem concerns_iff (r : IHazmatStorageRule) (c c' : HazmatClass) : r.concerns c c' = true ↔
    (r.classA = c ∧ r.classB = c') ∨ (r.classA = c' ∧ r.classB = c) := by
  simp [IHazmatStorageRule.concerns]

instance (rules : List IHazmatStorageRule) : Std.Symm (Compatible rules) where
  symm _ _ h r hr hclasses := h r hr hclasses.symm

theorem agree_initializeMatrix : Agree initializeMatrix := by
  have hforbid : ∀ r ∈ initializeMatrix, r.isAllowedInSameBay = false := by decide
  exact fun r hr r' hr' c c' _ _ => (hforbid r hr).trans (hforbid r' hr').symm

theorem concerns_of_find {c c' : HazmatClass} {conflict : IHazmatStorageRule}
    (h : (rules.find? fun r => r.concerns c c') = some conflict) :
    conflict ∈ rules ∧ conflict.concerns c c' = true :=
  ⟨List.mem_of_find?_eq_some h,
    List.find?_some (p := fun r : IHazmatStorageRule => r.concerns c c') h⟩

theorem find_concerns_iff (h : Agree rules) (c c' : HazmatClass) :
    (∀ conflict ∈ rules.find? fun r => r.concerns c c', conflict.isAllowedInSameBay = true) ↔
      Compatible rules c c' := by
  constructor
  · intro hfirst r hr hclasses
    have hconcerns := (concerns_iff r c c').mpr hclasses
    cases hfind : rules.find? fun r => r.concerns c c' with
    | none => exact absurd hconcerns (by simpa using List.find?_eq_none.mp hfind r hr)
    | some conflict =>
      obtain ⟨hmem, hconflict⟩ := concerns_of_find hfind
      rw [h r hr conflict hmem c c' hconcerns hconflict]
      exact hfirst conflict hfind
  · intro hcompatible conflict hfind
    obtain ⟨hmem, hconflict⟩ := concerns_of_find hfind
    exact hcompatible conflict hmem ((concerns_iff conflict c c').mp hconflict)

/-- **A round of the loop** adds a violation exactly for a class that is not compatible. -/
theorem checkExisting_fst_eq_nil (h : Agree s.rules) (item existing : HazmatClass)
    (st : List String × ℚ) : (s.checkExisting item st existing).1 = [] ↔
      st.1 = [] ∧ Compatible s.rules item existing := by
  rw [← find_concerns_iff h, checkExisting]
  cases s.rules.find? fun r => r.concerns item existing with
  | none => simp
  | some conflict =>
    dsimp only
    split_ifs with hallowed <;> simp [hallowed]

theorem foldl_checkExisting_fst_eq_nil (h : Agree s.rules) (item : HazmatClass)
    (existingClassesInBay : List HazmatClass) (st : List String × ℚ) :
    (existingClassesInBay.foldl (s.checkExisting item) st).1 = [] ↔
      st.1 = [] ∧ ∀ existing ∈ existingClassesInBay, Compatible s.rules item existing := by
  induction existingClassesInBay generalizing st with
  | nil => simp
  | cons existing existingClassesInBay ih =>
    rw [List.foldl_cons, ih, checkExisting_fst_eq_nil h, and_assoc, List.forall_mem_cons]

/-- **An item is placed exactly when it is compatible** with all classes in the bay. -/
theorem isCompliant_iff (h : Agree s.rules) (item : HazmatClass)
    (existingClassesInBay : List HazmatClass) :
    (s.validateBayPlacement item existingClassesInBay).isCompliant = true ↔
      ∀ existing ∈ existingClassesInBay, Compatible s.rules existing item := by
  rw [validateBayPlacement, decide_eq_true_eq, List.length_eq_zero_iff,
    foldl_checkExisting_fst_eq_nil h, and_iff_right rfl]
  exact forall₂_congr fun existing _ => ⟨Std.Symm.symm _ _, Std.Symm.symm _ _⟩

/-- **A sequence is accepted exactly when all its pairs are compatible**, in whatever order its
items come. -/
theorem acceptsEvery_spec (items : List HazmatClass) :
    (new.acceptsEvery items = true ↔ items.Pairwise (Compatible initializeMatrix)) ∧
      ∀ items' : List HazmatClass, items'.Perm items →
        new.acceptsEvery items' = new.acceptsEvery items :=
  ⟨admitsAll_iff (isCompliant_iff agree_initializeMatrix),
    fun _ hperm => admitsAll_perm (isCompliant_iff agree_initializeMatrix) hperm⟩

/-- Flammable liquids and oxidizers, with other goods between them and the other way round. -/
theorem acceptsEvery_spec_oxidizers :
    new.acceptsEvery [.CLASS_3_FLAMMABLE_LIQUIDS, .CLASS_9_MISC, .CLASS_5_OXIDIZERS] = false ∧
      new.acceptsEvery [.CLASS_5_OXIDIZERS, .CLASS_9_MISC, .CLASS_3_FLAMMABLE_LIQUIDS] = false := by
  have hforbidden : ¬ Compatible initializeMatrix .CLASS_3_FLAMMABLE_LIQUIDS .CLASS_5_OXIDIZERS :=
    fun h => Bool.false_ne_true (h ⟨.CLASS_3_FLAMMABLE_LIQUIDS, .CLASS_5_OXIDIZERS, false, 15⟩
      List.mem_cons_self (Or.inl ⟨rfl, rfl⟩))
  obtain ⟨haccepts, hperm⟩ := acceptsEvery_spec
    [.CLASS_3_FLAMMABLE_LIQUIDS, .CLASS_9_MISC, .CLASS_5_OXIDIZERS]
  have hrefused : new.acceptsEvery
      [.CLASS_3_FLAMMABLE_LIQUIDS, .CLASS_9_MISC, .CLASS_5_OXIDIZERS] = false :=
    Bool.eq_false_iff.mpr fun h => hforbidden ((List.pairwise_cons.mp (haccepts.mp h)).1 _
      (List.mem_cons_of_mem _ List.mem_cons_self))
  exact ⟨hrefused, (hperm _ (by decide)).trans hrefused⟩

end Logix.Inventory
