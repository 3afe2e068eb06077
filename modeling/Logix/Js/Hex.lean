import Logix.Js.Text

/-!
# Reading hexadecimal text

`Buffer.from(text, 'hex')` reads two digits after the other, capital or not, as long as it finds
digits.

* `bufferFromHex`: the reading; **`bufferFromHex_eq_iff`**: the texts of given bytes;
* `bufferFromHex_append_cons`: where it stops;
* `bufferFromHex_toHex`: it reads back what `toString('hex')` writes;
* `asciiString`: a text of ASCII units, and **`js_asciiString`**: its units.
-/

namespace Logix

/-- The value of a hexadecimal digit. -/
def hexValue (c : UInt16) : Option ℕ :=
  if 48 ≤ c ∧ c ≤ 57 then some (c.toNat - 48)
  else if 97 ≤ c ∧ c ≤ 102 then some (c.toNat - 87)
  else if 65 ≤ c ∧ c ≤ 70 then some (c.toNat - 55)
  else none

/-- **`Buffer.from(text, 'hex')`.** -/
def bufferFromHex : JsString → List UInt8
  | hi :: lo :: s =>
    match hexValue hi, hexValue lo with
    | some x, some y => .ofNat (16 * x + y) :: bufferFromHex s
    | _, _ => []
  | _ => []

/-- A digit in small letters. -/
def lowerHex (c : UInt16) : UInt16 := if 65 ≤ c ∧ c ≤ 70 then c + 32 else c

theorem toNat_lowerHex (c : UInt16) :
    (lowerHex c).toNat = if 65 ≤ c.toNat ∧ c.toNat ≤ 70 then c.toNat + 32 else c.toNat := by
  have hc : (65 ≤ c ∧ c ≤ 70) ↔ 65 ≤ c.toNat ∧ c.toNat ≤ 70 := Iff.rfl
  rw [lowerHex]
  simp only [hc]
  split_ifs with h
  · rw [UInt16.toNat_add]
    change (c.toNat + 32) % 65536 = c.toNat + 32
    omega
  · rfl

theorem toNat_digitUnit {x : ℕ} (hx : x < 16) :
    (digitUnit x).toNat = if x < 10 then 48 + x else 87 + x := by
  rw [digitUnit, UInt16.toNat_ofNat']
  split_ifs <;> omega

theorem hexValue_eq_some_iff {c : UInt16} {x : ℕ} :
    hexValue c = some x ↔ x < 16 ∧ lowerHex c = digitUnit x := by
  have hdigit : (48 ≤ c ∧ c ≤ 57) ↔ 48 ≤ c.toNat ∧ c.toNat ≤ 57 := Iff.rfl
  have hsmall : (97 ≤ c ∧ c ≤ 102) ↔ 97 ≤ c.toNat ∧ c.toNat ≤ 102 := Iff.rfl
  have hcapital : (65 ≤ c ∧ c ≤ 70) ↔ 65 ≤ c.toNat ∧ c.toNat ≤ 70 := Iff.rfl
  have hiff : x < 16 ∧ lowerHex c = digitUnit x ↔ x < 16 ∧
      (if 65 ≤ c.toNat ∧ c.toNat ≤ 70 then c.toNat + 32 else c.toNat) =
        if x < 10 then 48 + x else 87 + x := by
    refine and_congr_right fun hx => ?_
    rw [← UInt16.toNat_inj, toNat_lowerHex, toNat_digitUnit hx]
  rw [hiff, hexValue]
  simp only [hdigit, hsmall, hcapital]
  split_ifs <;> grind

theorem hexByte_ofNat {x y : ℕ} (hx : x < 16) (hy : y < 16) :
    hexByte (.ofNat (16 * x + y)) = [digitUnit x, digitUnit y] := by
  have hbyte : (UInt8.ofNat (16 * x + y)).toNat = 16 * x + y := by
    rw [UInt8.toNat_ofNat']
    omega
  have hdiv : (16 * x + y) / 16 = x := by omega
  have hmod : (16 * x + y) % 16 = y := by omega
  rw [hexByte, hbyte, hdiv, hmod]

theorem bufferFromHex_cons {hi lo : UInt16} {x y : ℕ} (hx : hexValue hi = some x)
    (hy : hexValue lo = some y) (s : JsString) :
    bufferFromHex (hi :: lo :: s) = .ofNat (16 * x + y) :: bufferFromHex s := by
  rw [bufferFromHex, hx, hy]

/-- **The texts that are read as given bytes** begin with their digits, and go on with no two
digits. -/
theorem bufferFromHex_eq_iff {s : JsString} {bs : List UInt8} :
    bufferFromHex s = bs ↔
      ∃ digits tail, s = digits ++ tail ∧ digits.map lowerHex = toHex bs ∧
        bufferFromHex tail = [] := by
  constructor
  · rintro rfl
    fun_induction bufferFromHex s with
    | case1 hi lo s x y hy hx ih =>
      obtain ⟨digits, tail, rfl, hdigits, htail⟩ := ih
      obtain ⟨hx', hhi⟩ := hexValue_eq_some_iff.mp hx
      obtain ⟨hy', hlo⟩ := hexValue_eq_some_iff.mp hy
      refine ⟨hi :: lo :: digits, tail, rfl, ?_, htail⟩
      rw [List.map_cons, List.map_cons, hhi, hlo, hdigits]
      exact congrArg (· ++ toHex _) (hexByte_ofNat hx' hy').symm
    | case2 hi lo s hno => exact ⟨[], hi :: lo :: s, rfl, rfl, by simp [bufferFromHex]⟩
    | case3 s hs => exact ⟨[], s, rfl, rfl, by rw [bufferFromHex]; exact hs⟩
  · rintro ⟨digits, tail, rfl, hdigits, htail⟩
    induction bs generalizing digits with
    | nil =>
      obtain rfl := List.map_eq_nil_iff.mp hdigits
      exact htail
    | cons b bs ih =>
      rw [toHex, List.flatMap_cons, hexByte, List.cons_append, List.cons_append,
        List.nil_append] at hdigits
      obtain ⟨hi, digits, rfl, hhi, hdigits⟩ := List.map_eq_cons_iff.mp hdigits
      obtain ⟨lo, digits, rfl, hlo, hdigits⟩ := List.map_eq_cons_iff.mp hdigits
      have hb := b.toNat_lt
      have hx := hexValue_eq_some_iff.mpr ⟨by omega, hhi⟩
      have hy := hexValue_eq_some_iff.mpr ⟨Nat.mod_lt b.toNat (by decide), hlo⟩
      rw [List.cons_append, List.cons_append, bufferFromHex_cons hx hy, ih digits hdigits,
        Nat.div_add_mod, UInt8.ofNat_toNat]

/-- **What follows a unit that is no digit** is not read. -/
theorem bufferFromHex_append_cons {c : UInt16} (hc : hexValue c = none) (s t : JsString) :
    bufferFromHex (s ++ c :: t) = bufferFromHex s := by
  fun_induction bufferFromHex s with
  | case1 hi lo s x y hy hx ih =>
    rw [List.cons_append, List.cons_append, bufferFromHex_cons hx hy, ih]
  | case2 hi lo s hno => simp [bufferFromHex]
  | case3 s hs =>
    match s, hs with
    | [], _ => cases t <;> simp [bufferFromHex, hc]
    | [a], _ => simp [bufferFromHex, hc]
    | hi :: lo :: s, hs => exact absurd rfl (hs hi lo s)

theorem lowerHex_digitUnit : ∀ x < 16, lowerHex (digitUnit x) = digitUnit x := by decide

theorem map_lowerHex_toHex (bs : List UInt8) : (toHex bs).map lowerHex = toHex bs := by
  induction bs with
  | nil => rfl
  | cons b bs ih =>
    have hb := b.toNat_lt
    have hbyte : (hexByte b).map lowerHex = hexByte b := by
      rw [hexByte, List.map_cons, List.map_singleton, lowerHex_digitUnit _ (by omega),
        lowerHex_digitUnit _ (Nat.mod_lt _ (by decide))]
    rw [toHex, List.flatMap_cons, List.map_append, hbyte]
    exact congrArg (hexByte b ++ ·) ih

/-- **What `toString('hex')` writes is read back.** -/
theorem bufferFromHex_toHex (bs : List UInt8) : bufferFromHex (toHex bs) = bs :=
  bufferFromHex_eq_iff.mpr
    ⟨toHex bs, [], (List.append_nil _).symm, map_lowerHex_toHex bs, rfl⟩

/-! ## Texts of digits -/

/-- The text of ASCII units. -/
def asciiString (s : JsString) : String := String.ofList (s.map fun c => Char.ofNat c.toNat)

/-- **The units of such a text.** -/
theorem js_asciiString {s : JsString} (h : IsAscii s) : js (asciiString s) = s := by
  rw [js, asciiString, String.toList_ofList, List.flatMap_map]
  induction s with
  | nil => rfl
  | cons c s ih =>
    have hc : c.toNat < 0x80 := by simpa [UInt16.lt_iff_toNat_lt] using h c List.mem_cons_self
    have hunits : charUnits (Char.ofNat c.toNat) = [c] := by
      have hvalid : c.toNat.isValidChar := Or.inl (by omega)
      have hchar : (Char.ofNat c.toNat).toNat = c.toNat := by
        rw [Char.ofNat, dif_pos hvalid]
        rfl
      rw [charUnits, hchar, if_pos (by omega), UInt16.ofNat_toNat]
    rw [List.flatMap_cons, hunits, ih fun d hd => h d (List.mem_cons_of_mem c hd)]
    rfl

end Logix
