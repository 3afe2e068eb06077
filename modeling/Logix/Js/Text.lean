import Mathlib.Data.Nat.Digits.Defs
import Mathlib.Data.Nat.Notation

/-!
# Strings of UTF-16 code units

* `JsString`: a string is a list of code units; `js` reads a text as one, `jsLength` is its
  `length`;
* `padEnd`, `padStart`, `substring`, `toBase`, `toUpperCase`: the string methods that the services
  use; `intToBase_injective`, `toUpperCase_intToBase_injective`: numbers with the same text are
  equal;
* `bufferFrom`, `toHex`: `Buffer.from(s)` (UTF-8, lone surrogates replaced) and
  `toString('hex')`;
* `toHex_bufferFrom_append`: ASCII text at the front of a string is encoded unit by unit,
  whatever follows it.
-/

namespace Logix

/-- **A string**: any list of UTF-16 code units. -/
abbrev JsString := List UInt16

/-- The code units of a character. -/
def charUnits (c : Char) : JsString :=
  if c.toNat < 0x10000 then [.ofNat c.toNat]
  else
    [.ofNat (0xD800 + (c.toNat - 0x10000) / 0x400),
      .ofNat (0xDC00 + (c.toNat - 0x10000) % 0x400)]

/-- A text as a string of code units. -/
def js (s : String) : JsString := s.toList.flatMap charUnits

/-- Whether all units of a string have a property is decided on the string, and not on all units
that there are. -/
instance decidableForallUnits (s : JsString) (p : UInt16 → Prop) [DecidablePred p] :
    Decidable (∀ c ∈ s, p c) :=
  List.decidableBAll p s

/-- `s.length`. -/
def jsLength (s : String) : ℕ := (js s).length

/-! ## String methods -/

/-- `s.padEnd(n, c)` for a single unit `c`. -/
def padEnd (s : JsString) (n : ℕ) (c : UInt16) : JsString := s ++ List.replicate (n - s.length) c

/-- `s.padStart(n, c)` for a single unit `c`. -/
def padStart (s : JsString) (n : ℕ) (c : UInt16) : JsString := List.replicate (n - s.length) c ++ s

/-- `s.substring(i, j)`. -/
def substring (s : JsString) (i j : ℕ) : JsString := (s.take (max i j)).drop (min i j)

/-- The digit `d < 36`. -/
def digitUnit (d : ℕ) : UInt16 := .ofNat (if d < 10 then 48 + d else 87 + d)

/-- `n.toString(b)`. -/
def toBase (b n : ℕ) : JsString :=
  if n = 0 then [digitUnit 0] else (Nat.digits b n).reverse.map digitUnit

/-- `n.toString(b)` of an integer. -/
def intToBase (b : ℕ) (n : ℤ) : JsString :=
  if n < 0 then 45 :: toBase b n.natAbs else toBase b n.natAbs

/-- The capital of an ASCII letter. -/
def upperUnit (c : UInt16) : UInt16 := if 97 ≤ c ∧ c ≤ 122 then c - 32 else c

/-- `s.toUpperCase()`, on ASCII text. -/
def toUpperCase (s : JsString) : JsString := s.map upperUnit

/-- `tag + n.toString(36).toUpperCase()`. -/
def stampId (tag : String) (n : ℤ) : JsString := js tag ++ toUpperCase (intToBase 36 n)

/-! ## UTF-8 and hexadecimal -/

/-- Is this the first unit of a surrogate pair? -/
def isHighSurrogate (c : UInt16) : Bool := 0xD800 ≤ c && c < 0xDC00

/-- Is this the second unit of a surrogate pair? -/
def isLowSurrogate (c : UInt16) : Bool := 0xDC00 ≤ c && c < 0xE000

/-- The UTF-8 bytes of a code point. -/
def utf8Bytes (p : ℕ) : List UInt8 :=
  if p < 0x80 then [.ofNat p]
  else if p < 0x800 then [.ofNat (0xC0 + p / 64), .ofNat (0x80 + p % 64)]
  else if p < 0x10000 then
    [.ofNat (0xE0 + p / 4096), .ofNat (0x80 + p / 64 % 64), .ofNat (0x80 + p % 64)]
  else
    [.ofNat (0xF0 + p / 262144), .ofNat (0x80 + p / 4096 % 64), .ofNat (0x80 + p / 64 % 64),
      .ofNat (0x80 + p % 64)]

/-- A unit outside a pair; a lone surrogate becomes the replacement character. -/
def unitPoint (c : UInt16) : ℕ :=
  if isHighSurrogate c || isLowSurrogate c then 0xFFFD else c.toNat

/-- `Buffer.from(s)`. -/
def bufferFrom : JsString → List UInt8
  | [] => []
  | [c] => utf8Bytes (unitPoint c)
  | hi :: lo :: s =>
    if isHighSurrogate hi && isLowSurrogate lo then
      utf8Bytes (0x10000 + (hi.toNat - 0xD800) * 0x400 + (lo.toNat - 0xDC00)) ++ bufferFrom s
    else utf8Bytes (unitPoint hi) ++ bufferFrom (lo :: s)

/-- The two hexadecimal digits of a byte. -/
def hexByte (b : UInt8) : JsString := [digitUnit (b.toNat / 16), digitUnit (b.toNat % 16)]

/-- `buffer.toString('hex')`. -/
def toHex (bs : List UInt8) : JsString := bs.flatMap hexByte

/-! ## ASCII text -/

/-- Every unit is below `0x80`. -/
def IsAscii (s : JsString) : Prop := ∀ c ∈ s, c < 0x80

theorem bufferFrom_cons_of_lt {c : UInt16} (h : c < 0x80) (s : JsString) :
    bufferFrom (c :: s) = c.toUInt8 :: bufferFrom s := by
  have hn : c.toNat < 0x80 := by simpa [UInt16.lt_iff_toNat_lt] using h
  have hhigh : isHighSurrogate c = false := by
    simp only [isHighSurrogate, Bool.and_eq_false_iff, decide_eq_false_iff_not]
    left
    rw [UInt16.le_iff_toNat_le]
    simpa using (by omega : c.toNat < 0xD800)
  have hlow : isLowSurrogate c = false := by
    simp only [isLowSurrogate, Bool.and_eq_false_iff, decide_eq_false_iff_not]
    left
    rw [UInt16.le_iff_toNat_le]
    simpa using (by omega : c.toNat < 0xDC00)
  have hbytes : utf8Bytes (unitPoint c) = [c.toUInt8] := by
    rw [unitPoint, hhigh, hlow, utf8Bytes]
    simp [hn]
  cases s with
  | nil => exact hbytes
  | cons d s =>
    rw [bufferFrom, hhigh, hbytes]
    rfl

theorem bufferFrom_append_of_isAscii {s : JsString} (h : IsAscii s) (t : JsString) :
    bufferFrom (s ++ t) = s.map UInt16.toUInt8 ++ bufferFrom t := by
  induction s with
  | nil => rfl
  | cons c s ih =>
    have hc : c < 0x80 := h c List.mem_cons_self
    rw [List.cons_append, bufferFrom_cons_of_lt hc,
      ih fun d hd => h d (List.mem_cons_of_mem _ hd)]
    rfl

theorem toHex_append (bs cs : List UInt8) : toHex (bs ++ cs) = toHex bs ++ toHex cs :=
  List.flatMap_append

theorem length_toHex (bs : List UInt8) : (toHex bs).length = 2 * bs.length := by
  induction bs with
  | nil => rfl
  | cons b bs ih =>
    rw [toHex, List.flatMap_cons, List.length_append, List.length_cons]
    change 2 + (toHex bs).length = 2 * (bs.length + 1)
    omega

theorem take_toHex (bs : List UInt8) (n : ℕ) : (toHex bs).take (2 * n) = toHex (bs.take n) := by
  induction bs generalizing n with
  | nil => simp [toHex]
  | cons b bs ih =>
    cases n with
    | zero => rfl
    | succ n =>
      change (hexByte b ++ toHex bs).take (2 * n + 2) = hexByte b ++ toHex (bs.take n)
      rw [← ih n]
      rfl

theorem digitUnit_lt {d : ℕ} (h : d < 36) : digitUnit d < 0x80 := by
  rw [digitUnit, UInt16.lt_iff_toNat_lt, UInt16.toNat_ofNat']
  change _ < 128
  split <;> omega

theorem isAscii_toHex (bs : List UInt8) : IsAscii (toHex bs) := by
  intro c hc
  obtain ⟨b, -, hcb⟩ := List.mem_flatMap.mp hc
  have hb : b.toNat < 256 := b.toNat_lt
  simp only [hexByte, List.mem_cons, List.not_mem_nil, or_false] at hcb
  rcases hcb with rfl | rfl
  · exact digitUnit_lt (by omega)
  · exact digitUnit_lt (by omega)

/-- **ASCII text at the front** of a string is encoded unit by unit. -/
theorem toHex_bufferFrom_append {s : JsString} (h : IsAscii s) (t : JsString) :
    toHex (bufferFrom (s ++ t)) = toHex (s.map UInt16.toUInt8) ++ toHex (bufferFrom t) := by
  rw [bufferFrom_append_of_isAscii h, toHex_append]

/-! ## Numbers as text -/

/-- The value of a digit, in either case. -/
def digitValue (c : UInt16) : ℕ := if c < 65 then c.toNat - 48 else c.toNat - 55

theorem digitValue_upperUnit_digitUnit :
    ∀ d < 36, digitValue (upperUnit (digitUnit d)) = d := by decide

theorem upperUnit_digitUnit_ne : ∀ d < 36, upperUnit (digitUnit d) ≠ 45 := by decide

theorem ofDigits_toBase {b : ℕ} (hb : 1 < b) (hb' : b ≤ 36) (n : ℕ) :
    Nat.ofDigits b ((toUpperCase (toBase b n)).reverse.map digitValue) = n := by
  unfold toBase toUpperCase
  split_ifs with hn
  · subst hn
    rfl
  · have hdigits : ((((Nat.digits b n).reverse.map digitUnit).map upperUnit).reverse.map
        digitValue) = Nat.digits b n := by
      simp only [List.map_reverse, List.reverse_reverse, List.map_map]
      refine (List.map_congr_left fun d hd => ?_).trans (List.map_id _)
      exact digitValue_upperUnit_digitUnit d ((Nat.digits_lt_base hb hd).trans_le hb')
    rw [hdigits, Nat.ofDigits_digits]

theorem sign_not_mem_toBase {b : ℕ} (hb : 1 < b) (hb' : b ≤ 36) (n : ℕ) :
    45 ∉ toUpperCase (toBase b n) := by
  unfold toBase toUpperCase
  split_ifs
  · decide
  · simp only [List.mem_map, List.mem_reverse, not_exists, not_and, forall_exists_index]
    rintro c d ⟨hd, rfl⟩
    exact upperUnit_digitUnit_ne d ((Nat.digits_lt_base hb hd).trans_le hb')

/-- **Numbers with the same text are equal**, also in capitals. -/
theorem toUpperCase_intToBase_injective {b : ℕ} (hb : 1 < b) (hb' : b ≤ 36) :
    Function.Injective fun n : ℤ => toUpperCase (intToBase b n) := by
  intro m n h
  have hnat : ∀ {k l : ℕ}, toUpperCase (toBase b k) = toUpperCase (toBase b l) → k = l := by
    intro k l hkl
    rw [← ofDigits_toBase hb hb' k, hkl, ofDigits_toBase hb hb' l]
  have hsign : ∀ k : ℕ, toUpperCase (45 :: toBase b k) = 45 :: toUpperCase (toBase b k) :=
    fun _ => rfl
  have hmem := fun k => sign_not_mem_toBase hb hb' k
  simp only [intToBase] at h
  split_ifs at h with hm hn hn
  · rw [hsign, hsign] at h
    have := hnat (List.cons.inj h).2
    omega
  · rw [hsign] at h
    exact absurd (h ▸ List.mem_cons_self) (hmem n.natAbs)
  · rw [hsign] at h
    exact absurd (h ▸ List.mem_cons_self) (hmem m.natAbs)
  · have := hnat h
    omega

theorem intToBase_injective {b : ℕ} (hb : 1 < b) (hb' : b ≤ 36) :
    Function.Injective (intToBase b) := fun _ _ h =>
  toUpperCase_intToBase_injective hb hb' (congrArg toUpperCase h)

theorem stampId_injective (tag : String) : Function.Injective (stampId tag) := fun _ _ h =>
  toUpperCase_intToBase_injective (by decide) (by decide) (List.append_cancel_left h)

end Logix
