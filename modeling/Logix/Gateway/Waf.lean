import Logix.Js.Text
import Logix.Spec.Regex

/-!
# The web application firewall

`WafWebExploitSignatureFilter` looks for three signatures, and deletes angle brackets from what it
lets through.

* `SQLI_REGEX`, `XSS_REGEX`, `PATH_TRAVERSAL_REGEX`, `inspectPayload`: the code;
* `matches_sqli_iff`, `matches_xss_iff`, `matches_pathTraversal_iff`: what the signatures are;
* `EmitsUnblocked`: what is let through would be let through again;
* `JoinsSignature`: brackets stand inside a signature, and keep it from being one;
* **`emitsUnblocked_iff`**: only such inputs turn into what would be blocked.
-/

namespace Logix.Gateway

open Spec Spec.Regex

/-- `threatLevel`. -/
inductive ThreatLevel where
  | NONE | LOW | MEDIUM | HIGH | CRITICAL
  deriving DecidableEq, Repr

/-- `IWafInspectionResult`. -/
structure IWafInspectionResult where
  isBlocked : Bool
  threatLevel : ThreatLevel
  matchedRuleId : Option String := none
  sanitizedInput : JsString
  deriving DecidableEq, Repr

/-- The units of `\w`. -/
def isWordUnit (c : UInt16) : Bool :=
  (48 ≤ c && c ≤ 57) || (65 ≤ c && c ≤ 90) || (97 ≤ c && c ≤ 122) || c == 95

/-- A text under the flag `i`. -/
def anyCase (s : String) : Regex UInt16 := lit upperUnit (js s)

/-- The keywords of `SQLI_REGEX`. -/
def sqlKeywords : List String :=
  ["SELECT", "INSERT", "UPDATE", "DELETE", "DROP", "UNION", "ALTER", "CREATE", "EXEC", "DECLARE"]

/-- `/(\b(SELECT|INSERT|...|DECLARE)\b|--|\/\*|;)/i`. -/
def SQLI_REGEX : Regex UInt16 :=
  alts [seq (boundary isWordUnit) (seq (alts (sqlKeywords.map anyCase)) (boundary isWordUnit)),
    anyCase "--", anyCase "/*", anyCase ";"]

/-- `/(<script|javascript:|onerror=|onload=|eval\(|document\.cookie)/i`. -/
def XSS_REGEX : Regex UInt16 :=
  alts (["<script", "javascript:", "onerror=", "onload=", "eval(", "document.cookie"].map anyCase)

/-- `/(\.\.\/|\.\.\\|%2e%2e%2f|%2e%2e\/)/i`. -/
def PATH_TRAVERSAL_REGEX : Regex UInt16 :=
  alts (["../", "..\\", "%2e%2e%2f", "%2e%2e/"].map anyCase)

/-- The class `[<>]`. -/
def isAngle (c : UInt16) : Bool := c == 60 || c == 62

/-- `input.replace(/[<>]/g, '')`. -/
def stripAngles (input : JsString) : JsString := input.filter fun c => !isAngle c

/-- **`inspectPayload(input)`.** -/
def inspectPayload (input : JsString) : IWafInspectionResult :=
  if SQLI_REGEX.test input then
    { isBlocked := true, threatLevel := .CRITICAL, matchedRuleId := some "OWASP_CRS_942_SQLI",
      sanitizedInput := [] }
  else if XSS_REGEX.test input then
    { isBlocked := true, threatLevel := .HIGH, matchedRuleId := some "OWASP_CRS_941_XSS",
      sanitizedInput := [] }
  else if PATH_TRAVERSAL_REGEX.test input then
    { isBlocked := true, threatLevel := .HIGH, matchedRuleId := some "OWASP_CRS_930_LFI",
      sanitizedInput := [] }
  else { isBlocked := false, threatLevel := .NONE, sanitizedInput := stripAngles input }

/-- The three signatures. -/
def signatures : List (Regex UInt16) := [SQLI_REGEX, XSS_REGEX, PATH_TRAVERSAL_REGEX]

variable {input : JsString}

theorem isBlocked_iff :
    (inspectPayload input).isBlocked = true ↔ ∃ r ∈ signatures, r.test input = true := by
  simp only [signatures, List.exists_mem_cons_iff, List.not_mem_nil, false_and, exists_false,
    or_false]
  unfold inspectPayload
  split_ifs with h₁ h₂ h₃ <;> simp [*]

theorem sanitizedInput_eq (h : (inspectPayload input).isBlocked = false) :
    (inspectPayload input).sanitizedInput = stripAngles input := by
  unfold inspectPayload at h ⊢
  split_ifs at h ⊢
  rfl

@[simp] theorem stripAngles_stripAngles (s : JsString) :
    stripAngles (stripAngles s) = stripAngles s := by
  simp [stripAngles, List.filter_filter]

/-! ## What the signatures are -/

section Signatures

variable {before m after : JsString}

theorem isWordUnit_iff {c : UInt16} : isWordUnit c = true ↔ (48 ≤ c.toNat ∧ c.toNat ≤ 57) ∨
    (65 ≤ c.toNat ∧ c.toNat ≤ 90) ∨ (97 ≤ c.toNat ∧ c.toNat ≤ 122) ∨ c.toNat = 95 := by
  simp [isWordUnit, UInt16.le_iff_toNat_le, ← UInt16.toNat_inj, or_assoc]

theorem isWordUnit_upperUnit (c : UInt16) : isWordUnit (upperUnit c) = isWordUnit c := by
  unfold upperUnit
  split_ifs with h
  · obtain ⟨hlo, hhi⟩ : 97 ≤ c.toNat ∧ c.toNat ≤ 122 := by
      simpa [UInt16.le_iff_toNat_le] using h
    have hle : (32 : UInt16) ≤ c := by
      rw [UInt16.le_iff_toNat_le]
      exact le_trans (by decide) hlo
    have hsub : (c - 32).toNat = c.toNat - 32 := UInt16.toNat_sub_of_le c 32 hle
    rw [isWordUnit_iff.mpr (by omega), isWordUnit_iff.mpr (by omega)]
  · rfl

/-- One of the texts, in any case. -/
def SpellsAny (texts : List String) (m : JsString) : Prop :=
  ∃ s ∈ texts, m.map upperUnit = (js s).map upperUnit

theorem matches_texts_iff {texts : List String} :
    Matches (alts (texts.map anyCase)) before m after ↔ SpellsAny texts m := by
  simp only [matches_alts_iff, SpellsAny, List.mem_map, exists_exists_and_eq_and, anyCase,
    matches_lit_iff]

theorem isWordUnit_of_spellsAny (h : SpellsAny sqlKeywords m) :
    m ≠ [] ∧ ∀ c ∈ m, isWordUnit c = true := by
  obtain ⟨s, hs, hm⟩ := h
  have hword : ∀ s ∈ sqlKeywords, js s ≠ [] ∧ ∀ c ∈ js s, isWordUnit c = true := by decide
  refine ⟨?_, fun c hc => ?_⟩
  · rintro rfl
    exact (hword s hs).1 (List.map_eq_nil_iff.mp hm.symm)
  · obtain ⟨d, hd, hdc⟩ := List.mem_map.mp (hm ▸ List.mem_map_of_mem (f := upperUnit) hc)
    rw [← isWordUnit_upperUnit, ← hdc, isWordUnit_upperUnit]
    exact (hword s hs).2 d hd

/-- **The SQL signature**: a keyword that stands alone, a comment or a semicolon. -/
theorem matches_sqli_iff : Matches SQLI_REGEX before m after ↔
    (SpellsAny sqlKeywords m ∧ before.head?.any isWordUnit = false ∧
      after.head?.any isWordUnit = false) ∨ SpellsAny ["--", "/*", ";"] m := by
  have hsplit : Matches SQLI_REGEX before m after ↔
      Matches (seq (boundary isWordUnit)
        (seq (alts (sqlKeywords.map anyCase)) (boundary isWordUnit))) before m after ∨
      Matches (alts (["--", "/*", ";"].map anyCase)) before m after := Iff.rfl
  rw [hsplit, matches_texts_iff,
    matches_word_iff (fun _ _ _ => matches_texts_iff) fun _ => isWordUnit_of_spellsAny]

theorem matches_xss_iff : Matches XSS_REGEX before m after ↔
    SpellsAny ["<script", "javascript:", "onerror=", "onload=", "eval(", "document.cookie"] m :=
  matches_texts_iff

theorem matches_pathTraversal_iff : Matches PATH_TRAVERSAL_REGEX before m after ↔
    SpellsAny ["../", "..\\", "%2e%2e%2f", "%2e%2e/"] m :=
  matches_texts_iff

theorem matches_of_strip {r : Regex UInt16} (hr : r ∈ signatures)
    (h : Matches r (stripAngles before) m (stripAngles after)) : Matches r before m after := by
  have hangle : ∀ c, (!isAngle c) = false → isWordUnit c = false := by
    intro c hc
    simp only [isAngle, Bool.not_eq_false', Bool.or_eq_true, beq_iff_eq] at hc
    rcases hc with rfl | rfl <;> decide
  simp only [signatures, List.mem_cons, List.not_mem_nil, or_false] at hr
  rcases hr with rfl | rfl | rfl
  · rw [matches_sqli_iff] at h ⊢
    exact h.imp_left fun ⟨hm, hb, ha⟩ =>
      ⟨hm, head?_any_of_filter hangle hb, head?_any_of_filter hangle ha⟩
  · exact matches_xss_iff.mpr (matches_xss_iff.mp h)
  · exact matches_pathTraversal_iff.mpr (matches_pathTraversal_iff.mp h)

end Signatures

/-! ## What is let through -/

/-- **What is let through would be let through again**, unchanged. -/
def EmitsUnblocked (input : JsString) : Prop :=
  (inspectPayload input).isBlocked = false →
    (inspectPayload (inspectPayload input).sanitizedInput).isBlocked = false ∧
      (inspectPayload (inspectPayload input).sanitizedInput).sanitizedInput =
        (inspectPayload input).sanitizedInput

/-- **Brackets inside a signature**: a part of the input with a bracket in it is a signature when the
brackets are left out. -/
def JoinsSignature (input : JsString) : Prop :=
  ∃ a m b, input = a ++ m ++ b ∧ (∃ c ∈ m, isAngle c = true) ∧
    ∃ r ∈ signatures, Matches r (stripAngles a).reverse (stripAngles m) (stripAngles b)

theorem joinsSignature_of_test (h : (inspectPayload input).isBlocked = false)
    {r : Regex UInt16} (hr : r ∈ signatures) (htest : r.test (stripAngles input) = true) :
    JoinsSignature input := by
  obtain ⟨a, m, b, rfl, hm⟩ := test_filter_iff.mp htest
  refine ⟨a, m, b, rfl, ?_, r, hr, hm⟩
  by_contra hno
  have hstrip : m.filter (fun c => !isAngle c) = m := by
    refine List.filter_eq_self.mpr fun c hc => ?_
    simpa using fun hangle => hno ⟨c, hc, hangle⟩
  rw [hstrip, ← List.filter_reverse] at hm
  have hblocked : (inspectPayload (a ++ m ++ b)).isBlocked = true :=
    isBlocked_iff.mpr ⟨r, hr, test_iff.mpr ⟨a, m, b, rfl, matches_of_strip hr hm⟩⟩
  rw [h] at hblocked
  exact absurd hblocked (by decide)

/-- **The firewall emits what it would block** exactly where it deletes brackets out of the middle of
a signature. -/
theorem emitsUnblocked_iff (input : JsString) :
    EmitsUnblocked input ↔ (inspectPayload input).isBlocked = true ∨ ¬ JoinsSignature input := by
  cases h : (inspectPayload input).isBlocked with
  | true => exact iff_of_true (fun h' => absurd (h.symm.trans h') (by decide)) (Or.inl rfl)
  | false =>
    rw [EmitsUnblocked, sanitizedInput_eq h]
    simp only [h, forall_const, Bool.false_eq_true, false_or]
    constructor
    · rintro ⟨hout, -⟩ ⟨a, m, b, rfl, -, r, hr, hm⟩
      have hblocked := isBlocked_iff.mpr ⟨r, hr, test_filter_iff.mpr ⟨a, m, b, rfl, hm⟩⟩
      exact absurd (hblocked.symm.trans hout) (by decide)
    · intro hno
      have hout : (inspectPayload (stripAngles input)).isBlocked = false := by
        rw [← Bool.not_eq_true, isBlocked_iff]
        rintro ⟨r, hr, htest⟩
        exact hno (joinsSignature_of_test h hr htest)
      exact ⟨hout, by rw [sanitizedInput_eq hout, stripAngles_stripAngles]⟩

/-- **A comment out of two dashes**: `-<-` is let through as `--`, which is blocked. -/
theorem joined_comment :
    (inspectPayload (js "-<-")).isBlocked = false ∧
    (inspectPayload (js "-<-")).sanitizedInput = js "--" ∧
    (inspectPayload (js "--")).isBlocked = true ∧ ¬ EmitsUnblocked (js "-<-") := by
  have h₁ : (inspectPayload (js "-<-")).isBlocked = false := by decide +kernel
  have h₂ : (inspectPayload (js "-<-")).sanitizedInput = js "--" := by decide +kernel
  have h₃ : (inspectPayload (js "--")).isBlocked = true := by decide +kernel
  refine ⟨h₁, h₂, h₃, fun hemit => ?_⟩
  have hout := (hemit h₁).1
  rw [h₂] at hout
  exact absurd (h₃.symm.trans hout) (by decide)

end Logix.Gateway
