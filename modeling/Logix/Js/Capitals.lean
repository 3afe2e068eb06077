import Logix.Js.Text
import Mathlib.Data.List.DropRight

/-!
# White space and capitals of any text

* `trim`: `s.trim()`;
* `capitals`, `toUpperText`: `s.toUpperCase()` of any text;
* `encodeURIComponent`: percent-encoding;
* **`allDigits_toUpperText`**: only digits have digits as capitals.
-/

namespace Logix

/-- White space and line terminators. -/
def isWhiteSpace (c : UInt16) : Bool :=
  (9 ≤ c && c ≤ 13) || c == 0x20 || c == 0xA0 || c == 0x1680 || (0x2000 ≤ c && c ≤ 0x200A) ||
    c == 0x2028 || c == 0x2029 || c == 0x202F || c == 0x205F || c == 0x3000 || c == 0xFEFF

/-- **`s.trim()`**. -/
def trim (s : JsString) : JsString := (s.dropWhile isWhiteSpace).rdropWhile isWhiteSpace

example : trim (js " \t42 ") = js "42" := by decide

/-- The characters outside ASCII whose capitals are ASCII text: `ß`, `ı`, `ſ` and the ligatures
from `ﬀ` to `ﬆ`. -/
def asciiCapitals : List (UInt16 × JsString) :=
  [(0xDF, js "SS"), (0x131, js "I"), (0x17F, js "S"), (0xFB00, js "FF"), (0xFB01, js "FI"),
    (0xFB02, js "FL"), (0xFB03, js "FFI"), (0xFB04, js "FFL"), (0xFB05, js "ST"), (0xFB06, js "ST")]

/-- The capitals of a unit. One whose capitals are not ASCII text stands for them. -/
def capitals (c : UInt16) : JsString := (asciiCapitals.lookup c).getD [upperUnit c]

/-- **`s.toUpperCase()`**, up to the choice of the letters outside ASCII: the ASCII text that it
gives, and where it gives any, are those of the method. -/
def toUpperText (s : JsString) : JsString := s.flatMap capitals

example : toUpperText (js "a1ßz") = js "A1SSZ" := by decide

/-- The bytes that `encodeURIComponent` leaves as they are. -/
def isUnreserved (b : UInt8) : Bool :=
  (48 ≤ b && b ≤ 57) || (65 ≤ b && b ≤ 90) || (97 ≤ b && b ≤ 122) ||
    [45, 95, 46, 33, 126, 42, 39, 40, 41].contains b

/-- **`encodeURIComponent(s)`**. -/
def encodeURIComponent (s : String) : JsString :=
  (bufferFrom (js s)).flatMap fun b =>
    if isUnreserved b then [b.toUInt16] else 37 :: toUpperCase (hexByte b)

example : encodeURIComponent "a@é" = js "a%40%C3%A9" := by decide

/-! ## Digits -/

/-- `\d`. -/
def isDigit (c : UInt16) : Bool := 48 ≤ c && c ≤ 57

theorem isDigit_iff {c : UInt16} : isDigit c = true ↔ 48 ≤ c ∧ c ≤ 57 := by
  simp [isDigit]

theorem capitals_of_lt {c : UInt16} (h : c < 0x80) : capitals c = [upperUnit c] := by
  have hlarge : ∀ e ∈ asciiCapitals, (0x80 : UInt16) ≤ e.1 := by decide
  have hnone : asciiCapitals.lookup c = none := by
    rw [List.lookup_eq_none_iff]
    intro e he
    rw [bne_iff_ne]
    rintro rfl
    exact absurd h (UInt16.not_lt.mpr (hlarge e he))
  rw [capitals, hnone, Option.getD_none]

theorem capitals_of_isDigit {c : UInt16} (h : isDigit c = true) : capitals c = [c] := by
  obtain ⟨hlo, hhi⟩ := isDigit_iff.mp h
  rw [UInt16.le_iff_toNat_le] at hlo hhi
  have hsmall : c < 0x80 := UInt16.lt_iff_toNat_lt.mpr (lt_of_le_of_lt hhi (by decide))
  have hletter : ¬ (97 ≤ c ∧ c ≤ 122) := by
    rintro ⟨h97, -⟩
    exact absurd (UInt16.le_iff_toNat_le.mp h97) (not_le.mpr (lt_of_le_of_lt hhi (by decide)))
  rw [capitals_of_lt hsmall, upperUnit, if_neg hletter]

theorem isDigit_of_capitals {c : UInt16} (h : ∀ d ∈ capitals c, isDigit d = true) :
    isDigit c = true := by
  unfold capitals at h
  cases hl : asciiCapitals.lookup c with
  | some text =>
    -- the capitals are letters
    have hletters : ∀ e ∈ asciiCapitals, ∃ d ∈ e.2, isDigit d = false := by decide
    obtain ⟨pre, post, hlist, -⟩ := List.lookup_eq_some_iff.mp hl
    obtain ⟨d, hd, hnot⟩ := hletters (c, text) (by simp [hlist])
    rw [hl, Option.getD_some] at h
    exact absurd (h d hd) (by simp [hnot])
  | none =>
    rw [hl, Option.getD_none] at h
    have hupper := h (upperUnit c) (List.mem_singleton.mpr rfl)
    unfold upperUnit at hupper
    split_ifs at hupper with hletter
    · -- the capital of an ASCII letter is a letter
      obtain ⟨hlo, hhi⟩ := hletter
      have hsub : (c - 32).toNat = c.toNat - 32 :=
        UInt16.toNat_sub_of_le c 32 (UInt16.le_trans (by decide) hlo)
      have hle : (c - 32).toNat ≤ 57 := UInt16.le_iff_toNat_le.mp (isDigit_iff.mp hupper).2
      have hge : 97 ≤ c.toNat := UInt16.le_iff_toNat_le.mp hlo
      omega
    · exact hupper

theorem toUpperText_of_digits {s : JsString} (h : ∀ c ∈ s, isDigit c = true) :
    toUpperText s = s := by
  unfold toUpperText
  induction s with
  | nil => rfl
  | cons c s ih =>
    rw [List.flatMap_cons, capitals_of_isDigit (h c List.mem_cons_self),
      ih fun d hd => h d (List.mem_cons_of_mem _ hd)]
    rfl

/-- **A text in capitals consists of digits** exactly when the text does. -/
theorem allDigits_toUpperText {s : JsString} :
    (∀ c ∈ toUpperText s, isDigit c = true) ↔ ∀ c ∈ s, isDigit c = true := by
  constructor
  · intro h c hc
    exact isDigit_of_capitals fun d hd => h d (List.mem_flatMap.mpr ⟨c, hc, hd⟩)
  · intro h
    rw [toUpperText_of_digits h]
    exact h

end Logix
