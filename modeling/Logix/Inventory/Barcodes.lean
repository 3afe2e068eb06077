import Logix.Js.Text
import Logix.Spec.Regex

/-!
# GS1 barcodes

`SerializedAssetBarcodeScannerService` removes the brackets of a barcode, and looks for the
identifier of each field in the rest.

* `parseGs1DataMatrix`: the code, with the five expressions;
* `Gs1Fields`, `elementString`: the fields of an item, and their encoding;
* `capture_expiry_iff`, `capture_lot_iff`, `capture_serial_iff`: the digits of an identifier are
  taken for it wherever they stand first;
* **`readsBack_iff`**: the items whose fields are read back.
-/

namespace Logix.Inventory

open Spec Spec.Regex

/-- `IGs1ParsedBarcode`. -/
structure IGs1ParsedBarcode where
  rawBarcode : JsString
  gtin14 : Option JsString
  serialNumber : Option JsString
  lotNumber : Option JsString
  expirationDate : Option JsString
  ssccPalletId : Option JsString
  isValidGs1 : Bool
  deriving DecidableEq, Repr

/-- The class `\d`. -/
def isDigitUnit (c : UInt16) : Bool := 48 ≤ c && c ≤ 57

/-- The class `[A-Za-z0-9]`. -/
def isAlnumUnit (c : UInt16) : Bool :=
  isDigitUnit c || (65 ≤ c && c ≤ 90) || (97 ≤ c && c ≤ 122)

/-- `/01(\d{14})/`. -/
def gtinRegex : Regex UInt16 := tagged (js "01") isDigitUnit 14 14

/-- `/21([A-Za-z0-9]{6,20})/`. -/
def serialRegex : Regex UInt16 := tagged (js "21") isAlnumUnit 6 20

/-- `/10([A-Za-z0-9]{4,15})/`. -/
def lotRegex : Regex UInt16 := tagged (js "10") isAlnumUnit 4 15

/-- `/17(\d{6})/`. -/
def expRegex : Regex UInt16 := tagged (js "17") isDigitUnit 6 6

/-- `/00(\d{18})/`. -/
def ssccRegex : Regex UInt16 := tagged (js "00") isDigitUnit 18 18

/-- `barcode.replace(/[()]/g, '')`. -/
def stripBrackets (barcode : JsString) : JsString := barcode.filter fun c => !(c == 40 || c == 41)

/-- `Boolean(s)` of a string that may be missing. -/
def isTruthy (s : Option JsString) : Bool := s.any fun s => !s.isEmpty

/-- **`parseGs1DataMatrix(barcode)`.** -/
def parseGs1DataMatrix (barcode : JsString) : IGs1ParsedBarcode :=
  let clean := stripBrackets barcode
  let gtin14 := gtinRegex.capture clean
  let serialNumber := serialRegex.capture clean
  let lotNumber := lotRegex.capture clean
  let expirationDate := expRegex.capture clean
  let ssccPalletId := ssccRegex.capture clean
  { rawBarcode := barcode, gtin14, serialNumber, lotNumber, expirationDate, ssccPalletId
    isValidGs1 := isTruthy gtin14 || isTruthy ssccPalletId || isTruthy serialNumber }

/-! ## The fields of an item -/

/-- **The fields of an item**, as GS1 has them. -/
structure Gs1Fields where
  gtin : JsString
  expiry : JsString
  lot : JsString
  serial : JsString
  length_gtin : gtin.length = 14
  gtin_digits : ∀ c ∈ gtin, isDigitUnit c = true
  length_expiry : expiry.length = 6
  expiry_digits : ∀ c ∈ expiry, isDigitUnit c = true
  le_length_lot : 4 ≤ lot.length
  length_lot_le : lot.length ≤ 15
  lot_alnum : ∀ c ∈ lot, isAlnumUnit c = true
  le_length_serial : 6 ≤ serial.length
  length_serial_le : serial.length ≤ 20
  serial_alnum : ∀ c ∈ serial, isAlnumUnit c = true

namespace Gs1Fields

variable (f : Gs1Fields)

/-- The bracketed element string `(01)gtin(17)expiry(10)lot(21)serial`. -/
def elementString : JsString :=
  js "(01)" ++ f.gtin ++ js "(17)" ++ f.expiry ++ js "(10)" ++ f.lot ++ js "(21)" ++ f.serial

/-- The element string without brackets. -/
def plainText : JsString :=
  js "01" ++ (f.gtin ++ (js "17" ++ (f.expiry ++ (js "10" ++ (f.lot ++ (js "21" ++ f.serial))))))

/-- **The four fields are read back.** -/
def ReadsBack : Prop :=
  (parseGs1DataMatrix f.elementString).gtin14 = some f.gtin ∧
    (parseGs1DataMatrix f.elementString).expirationDate = some f.expiry ∧
    (parseGs1DataMatrix f.elementString).lotNumber = some f.lot ∧
    (parseGs1DataMatrix f.elementString).serialNumber = some f.serial

/-! ## The text without brackets -/

theorem isAlnumUnit_of_isDigitUnit {c : UInt16} (h : isDigitUnit c = true) :
    isAlnumUnit c = true := by
  simp [isAlnumUnit, h]

theorem stripBrackets_of_alnum {s : JsString} (h : ∀ c ∈ s, isAlnumUnit c = true) :
    stripBrackets s = s := by
  refine List.filter_eq_self.mpr fun c hc => ?_
  have halnum := h c hc
  by_contra hbracket
  simp only [Bool.not_eq_true', Bool.not_eq_false, Bool.or_eq_true, beq_iff_eq] at hbracket
  rcases hbracket with rfl | rfl <;> exact absurd halnum (by decide)

theorem stripBrackets_elementString : stripBrackets f.elementString = f.plainText := by
  have hgtin := stripBrackets_of_alnum fun c hc => isAlnumUnit_of_isDigitUnit (f.gtin_digits c hc)
  have hexpiry := stripBrackets_of_alnum fun c hc =>
    isAlnumUnit_of_isDigitUnit (f.expiry_digits c hc)
  have hlot := stripBrackets_of_alnum f.lot_alnum
  have hserial := stripBrackets_of_alnum f.serial_alnum
  have happ : ∀ s t, stripBrackets (s ++ t) = stripBrackets s ++ stripBrackets t := fun s t =>
    List.filter_append s t
  have h₀₁ : stripBrackets (js "(01)") = js "01" := by decide
  have h₁₇ : stripBrackets (js "(17)") = js "17" := by decide
  have h₁₀ : stripBrackets (js "(10)") = js "10" := by decide
  have h₂₁ : stripBrackets (js "(21)") = js "21" := by decide
  simp only [elementString, plainText, happ, hgtin, hexpiry, hlot, hserial, h₀₁, h₁₇, h₁₀, h₂₁,
    List.append_assoc]

theorem alnum_plainText : ∀ c ∈ f.plainText, isAlnumUnit c = true := by
  have hids : ∀ w ∈ [js "01", js "17", js "10", js "21"], ∀ c ∈ w, isAlnumUnit c = true := by decide
  intro c hc
  simp only [plainText, List.mem_append] at hc
  rcases hc with hc | hc | hc | hc | hc | hc | hc | hc
  · exact hids _ (by simp) c hc
  · exact isAlnumUnit_of_isDigitUnit (f.gtin_digits c hc)
  · exact hids _ (by simp) c hc
  · exact isAlnumUnit_of_isDigitUnit (f.expiry_digits c hc)
  · exact hids _ (by simp) c hc
  · exact f.lot_alnum c hc
  · exact hids _ (by simp) c hc
  · exact f.serial_alnum c hc

/-! The identifier of each field stands before it. -/

theorem plainText_eq_expiry : f.plainText = (js "01" ++ f.gtin) ++
    (js "17" ++ (f.expiry ++ (js "10" ++ (f.lot ++ (js "21" ++ f.serial))))) := by
  simp [plainText]

theorem plainText_eq_lot : f.plainText = (js "01" ++ f.gtin ++ js "17" ++ f.expiry) ++
    (js "10" ++ (f.lot ++ (js "21" ++ f.serial))) := by
  simp [plainText]

theorem plainText_eq_serial : f.plainText =
    (js "01" ++ f.gtin ++ js "17" ++ f.expiry ++ js "10" ++ f.lot) ++ (js "21" ++ f.serial) := by
  simp [plainText]

/-! ## What the expressions find -/

variable {f}

theorem takeWhile_of_followsFirst {w b : JsString} (h : FollowsFirst w f.plainText b) :
    b.takeWhile isAlnumUnit = b := by
  obtain ⟨a, hs, -⟩ := h
  refine List.takeWhile_eq_self_iff.mpr fun c hc => f.alnum_plainText c ?_
  rw [hs]
  exact List.mem_append_right _ (List.mem_append_right _ hc)

theorem take_eq_iff {b x : JsString} {n : ℕ} (hn : x.length ≤ n) :
    b.take n = x ↔ x <+: b ∧ (x.length = n ∨ b = x) := by
  constructor
  · rintro rfl
    refine ⟨List.take_prefix n b, ?_⟩
    rw [List.length_take]
    rcases Nat.le_total n b.length with h | h
    · exact Or.inl (Nat.min_eq_left h)
    · exact Or.inr (List.take_of_length_le h).symm
  · rintro ⟨⟨t, rfl⟩, hx | hx⟩
    · rw [← hx, List.take_left]
    · rw [hx, List.take_of_length_le hn]

theorem take_takeWhile {p : UInt16 → Bool} {d t : JsString} {n : ℕ} (hd : ∀ c ∈ d, p c = true)
    (hn : n ≤ d.length) : n ≤ ((d ++ t).takeWhile p).length ∧
      ((d ++ t).takeWhile p).take n = (d ++ t).take n := by
  have hwhile : (d ++ t).takeWhile p = d ++ t.takeWhile p := List.takeWhile_append_of_pos hd
  rw [hwhile, List.length_append, List.take_append_of_le_length hn,
    List.take_append_of_le_length hn]
  exact ⟨by omega, rfl⟩

theorem capture_gtin : gtinRegex.capture f.plainText = some f.gtin := by
  have hfirst : FollowsFirst (js "01") f.plainText _ := ⟨[], rfl, fun _ _ _ => Nat.zero_le _⟩
  obtain ⟨hlo, htake⟩ := take_takeWhile
    (t := js "17" ++ (f.expiry ++ (js "10" ++ (f.lot ++ (js "21" ++ f.serial))))) f.gtin_digits
    f.length_gtin.ge
  refine (hfirst.capture_eq hlo le_rfl).trans (congrArg some ?_)
  rw [htake, ← f.length_gtin, List.take_left]

/-- **The expiry** is read from behind the first `17`. -/
theorem capture_expiry_iff {b : JsString} (h : FollowsFirst (js "17") f.plainText b) :
    expRegex.capture f.plainText = some f.expiry ↔ f.expiry <+: b := by
  let front := js "01" ++ (f.gtin ++ (js "17" ++ f.expiry))
  let back := js "10" ++ (f.lot ++ (js "21" ++ f.serial))
  have htext : f.plainText = front ++ back := by simp [plainText, front, back]
  have hfront : front.length = 24 := by
    simp [front, f.length_gtin, f.length_expiry, show (js "01").length = 2 from rfl,
      show (js "17").length = 2 from rfl]
  have hdigits : ∀ c ∈ front, isDigitUnit c = true := by
    have hids : ∀ w ∈ [js "01", js "17"], ∀ c ∈ w, isDigitUnit c = true := by decide
    intro c hc
    simp only [front, List.mem_append] at hc
    rcases hc with hc | hc | hc | hc
    · exact hids _ (by simp) c hc
    · exact f.gtin_digits c hc
    · exact hids _ (by simp) c hc
    · exact f.expiry_digits c hc
  -- the first `17` is not behind the identifier of the expiry
  obtain ⟨a, hs, hfirst⟩ := id h
  have hown := f.plainText_eq_expiry
  have ha : a.length ≤ 16 := by
    have := hfirst _ _ hown
    simpa [f.length_gtin, show (js "01").length = 2 from rfl] using this
  have hb : b = front.drop (a.length + 2) ++ back := by
    have hdrop : b = f.plainText.drop (a.length + 2) := by
      rw [hs, ← List.append_assoc, show a.length + 2 = (a ++ js "17").length by simp; rfl,
        List.drop_left]
    rw [hdrop, htext, List.drop_append_of_le_length (by omega)]
  obtain ⟨hlo, htake⟩ := take_takeWhile (p := isDigitUnit) (t := back) (n := 6)
    (fun c hc => hdigits c (List.mem_of_mem_drop hc))
    (by rw [List.length_drop, hfront]; omega : 6 ≤ (front.drop (a.length + 2)).length)
  rw [← hb] at hlo htake
  unfold expRegex
  rw [h.capture_eq hlo le_rfl, htake, Option.some.injEq, take_eq_iff f.length_expiry.le]
  simp [f.length_expiry]

/-- **The lot** is read from behind the first `10`, fifteen units of it. -/
theorem capture_lot_iff {b : JsString} (h : FollowsFirst (js "10") f.plainText b)
    (hlong : f.lot.length + 8 ≤ b.length) :
    lotRegex.capture f.plainText = some f.lot ↔ f.lot.length = 15 ∧ f.lot <+: b := by
  have hwhile := takeWhile_of_followsFirst h
  unfold lotRegex
  rw [h.capture_eq (by rw [hwhile]; omega) (by decide), hwhile, Option.some.injEq,
    take_eq_iff f.length_lot_le]
  constructor
  · rintro ⟨hpre, hlen | rfl⟩
    · exact ⟨hlen, hpre⟩
    · omega
  · exact fun ⟨hlen, hpre⟩ => ⟨hpre, Or.inl hlen⟩

/-- **The serial number** is read from behind the first `21`, at most twenty units of it. -/
theorem capture_serial_iff {b : JsString} (h : FollowsFirst (js "21") f.plainText b)
    (hlong : f.serial.length ≤ b.length) : serialRegex.capture f.plainText = some f.serial ↔
      f.serial <+: b ∧ (f.serial.length = 20 ∨ b = f.serial) := by
  have hwhile := takeWhile_of_followsFirst h
  have hlen := f.le_length_serial
  unfold serialRegex
  rw [h.capture_eq (by rw [hwhile]; omega) (by decide), hwhile, Option.some.injEq,
    take_eq_iff f.length_serial_le]

/-! ## The round trip -/

/-- **When the fields can be told apart**: without the brackets, the expiry, the lot and the serial
number follow the first digits that look like their identifiers, and nothing that looks like a part
of the lot or of the serial number follows these. -/
structure IsReadable (f : Gs1Fields) : Prop where
  expiry : ∃ b, FollowsFirst (js "17") f.plainText b ∧ f.expiry <+: b
  lot_length : f.lot.length = 15
  lot : ∃ b, FollowsFirst (js "10") f.plainText b ∧ f.lot <+: b
  serial : ∃ b, FollowsFirst (js "21") f.plainText b ∧ f.serial <+: b ∧
    (f.serial.length = 20 ∨ b = f.serial)

/-- **The fields are read back** from the bracketed element string in exactly these cases. -/
theorem readsBack_iff (f : Gs1Fields) : f.ReadsBack ↔ f.IsReadable := by
  obtain ⟨b₁₇, h₁₇, -⟩ := exists_followsFirst f.plainText_eq_expiry
  obtain ⟨b₁₀, h₁₀, hlong₁₀⟩ := exists_followsFirst f.plainText_eq_lot
  obtain ⟨b₂₁, h₂₁, hlong₂₁⟩ := exists_followsFirst f.plainText_eq_serial
  have hlong : f.lot.length + 8 ≤ b₁₀.length := by
    have hserial := f.le_length_serial
    have htwo : (js "21").length = 2 := rfl
    simp only [List.length_append] at hlong₁₀
    omega
  have hread : f.ReadsBack ↔ f.expiry <+: b₁₇ ∧ (f.lot.length = 15 ∧ f.lot <+: b₁₀) ∧
      f.serial <+: b₂₁ ∧ (f.serial.length = 20 ∨ b₂₁ = f.serial) := by
    rw [← capture_expiry_iff h₁₇, ← capture_lot_iff h₁₀ hlong, ← capture_serial_iff h₂₁ hlong₂₁]
    simp only [ReadsBack, parseGs1DataMatrix, stripBrackets_elementString, capture_gtin, true_and]
  rw [hread]
  constructor
  · rintro ⟨hexpiry, ⟨hlen, hlot⟩, hserial⟩
    exact ⟨⟨b₁₇, h₁₇, hexpiry⟩, hlen, ⟨b₁₀, h₁₀, hlot⟩, b₂₁, h₂₁, hserial⟩
  · rintro ⟨⟨b, hb, hexpiry⟩, hlen, ⟨b', hb', hlot⟩, b'', hb'', hserial⟩
    obtain rfl := hb.unique h₁₇
    obtain rfl := hb'.unique h₁₀
    obtain rfl := hb''.unique h₂₁
    exact ⟨hexpiry, ⟨hlen, hlot⟩, hserial⟩

/-- An item with a lot of five characters. -/
def shortLotItem : Gs1Fields where
  gtin := js "95012345678903"
  expiry := js "251231"
  lot := js "LOT42"
  serial := js "SER0001"
  length_gtin := by decide
  gtin_digits := by decide
  length_expiry := by decide
  expiry_digits := by decide
  le_length_lot := by decide
  length_lot_le := by decide
  lot_alnum := by decide
  le_length_serial := by decide
  length_serial_le := by decide
  serial_alnum := by decide

/-- **The lot swallows what follows it**: from
`(01)95012345678903(17)251231(10)LOT42(21)SER0001` the lot `LOT4221SER0001` is read. -/
theorem swallowed_serial :
    (parseGs1DataMatrix shortLotItem.elementString).lotNumber = some (js "LOT4221SER0001") ∧
      ¬ shortLotItem.ReadsBack := by
  have hlot : (parseGs1DataMatrix shortLotItem.elementString).lotNumber =
      some (js "LOT4221SER0001") := by decide +kernel
  refine ⟨hlot, fun h => ?_⟩
  exact absurd (hlot.symm.trans h.2.2.1) (by decide)

end Gs1Fields

end Logix.Inventory
