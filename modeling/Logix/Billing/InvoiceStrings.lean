import Logix.Billing.InvoiceXml
import Logix.Xml.Places

/-!
# The strings of an electronic invoice

* `headerLevel`, `partyLevels`, `lineLevels`: the places of the strings in the document;
* `plain_of_header`, `plain_of_description`: a string that is read back from its place is plain, if
  the others are;
* `OneOdd`: at most one string is not plain;
* **`faithful_readable`**: plain strings are enough for a faithful document, and of the invoices
  with one string that may not be plain these are all that are faithful.
-/

namespace Logix.Billing

open Xml

variable {fmt : NumberFormat} {header header' : IEInvoiceHeader} {lines lines' : List IEInvoiceLine}

/-! ## Strings at their places -/

/-- The root of the document. -/
def rootPart (fmt : NumberFormat) (header : IEInvoiceHeader) (lines : List IEInvoiceLine) : Part :=
  .group (js "Invoice") rootAttrs (invoiceParts fmt header lines)

theorem exists_kids {ls : List Level} {name : String} {f : JsString} {root : Node}
    (hplace : plug ls (element name f) = rootPart fmt header lines)
    (hblank : plug ls (element name []) = rootPart fmt header' lines')
    (hread : Readable header' lines') (h : read (buildUblXml fmt header lines) = some root) :
    ∃ kids more, kidsAt (fullPath (ls.map Level.frame) [js name]) [root] =
      seenAt (ls.map Level.frame) [js name] ++ (kids :: more) ∧ (textOf kids = f → Plain f) := by
  have hok := invoiceParts_ok fmt hread
  rw [← rootPart, ← hblank] at hok
  obtain ⟨hls, helement⟩ := ok_of_plug hok
  rw [buildUblXml_eq, ← rootPart, ← hplace] at h
  cases helement with
  | field isName attrsOk plain => exact plain_of_read (by decide) hls isName attrsOk h

theorem textsAt_eq {name : JsString} {path : List JsString} {root : Node}
    {a more : List (List Node)} {kids : List Node} (h : kidsAt (name :: path) [root] = a ++ kids :: more) :
    root.textsAt path = a.map textOf ++ textOf kids :: more.map textOf := by
  cases root with
  | unit c => simp [kidsAt, named] at h
  | element name' attrs kids' =>
    by_cases hname : name' = name
    · have hkids : kidsAt path kids' = a ++ kids :: more := by
        simpa [kidsAt, named, hname] using h
      rw [Node.textsAt, hkids]
      simp
    · simp [kidsAt, named, hname] at h

/-! ## The header -/

/-- The strings of an invoice, in the order of the document. -/
def strings (header : IEInvoiceHeader) (lines : List IEInvoiceLine) : List JsString :=
  (headerTexts header).map Prod.snd ++ lines.map IEInvoiceLine.itemDescription

/-- All strings are plain but for the one at a place. -/
def PlainBut (i : ℕ) (header : IEInvoiceHeader) (lines : List IEInvoiceLine) : Prop :=
  ∀ j s, j ≠ i → (strings header lines)[j]? = some s → Plain s

theorem PlainBut.headerText {i j : ℕ} {t : List JsString × JsString} (h : PlainBut i header lines)
    (hj : j ≠ i) (ht : (headerTexts header)[j]? = some t) : Plain t.2 := by
  refine h j t.2 hj ?_
  have hlt : j < ((headerTexts header).map Prod.snd).length := by
    rw [List.length_map]
    exact (List.getElem?_eq_some_iff.mp ht).1
  rw [strings, List.getElem?_append_left hlt, List.getElem?_map, ht]
  rfl

/-- The string of the header at a path, and the invoice with another string there. -/
structure Slot (header : IEInvoiceHeader) (k : ℕ) (path : List JsString) (f : JsString)
    (g : JsString → IEInvoiceHeader) : Prop where
  same : g f = header
  text : (headerTexts header)[k]? = some (path, f)
  others : ∀ s, headerTexts (g s) = (headerTexts header).set k (path, s)
  currency : ∀ s, (g s).currencyCode = header.currencyCode

/-- **A string of the header** that is read back from its place is plain, if the others are. -/
theorem readable_of_slot {k : ℕ} {path : List JsString} {f : JsString}
    {g : JsString → IEInvoiceHeader} {ls : List Level} {name : String}
    (hplace : ∀ s, plug ls (element name s) = rootPart fmt (g s) lines)
    (hpath : fullPath (ls.map Level.frame) [js name] = js "Invoice" :: path)
    (hslot : Slot header k path f g) (hq : Quoted header.currencyCode)
    (hodd : PlainBut k header lines) (hlines : ∀ l ∈ lines, Plain l.itemDescription)
    (h : Faithful fmt header lines) : Readable header lines := by
  have hread : ∀ s, Plain s → Readable (g s) lines := by
    refine fun s hs => ⟨fun t ht => ?_, by rwa [hslot.currency], hlines⟩
    rw [hslot.others] at ht
    obtain ⟨j, hj⟩ := List.mem_iff_getElem?.mp ht
    by_cases hjk : j = k
    · rw [hjk, List.getElem?_set_self (List.getElem?_eq_some_iff.mp hslot.text).1] at hj
      rw [← Option.some.inj hj]
      exact hs
    · rw [List.getElem?_set_ne (Ne.symm hjk)] at hj
      exact hodd.headerText hjk hj
  obtain ⟨root, hroot, htexts, -⟩ := h
  rw [← hslot.same] at hroot
  obtain ⟨kids, more, hkids, hplain⟩ :=
    exists_kids (hplace f) (hplace []) (hread [] (by decide)) hroot
  rw [hpath] at hkids
  have htext := (textsAt_eq hkids).symm.trans (htexts _ (List.mem_of_getElem? hslot.text))
  have hf : textOf kids = f := by
    refine List.mem_singleton.mp ?_
    rw [← htext]
    simp
  rw [← hslot.same]
  exact hread f (hplain hf)

/-- The place of a part of the root. -/
def headerLevel (fmt : NumberFormat) (header : IEInvoiceHeader) (lines : List IEInvoiceLine)
    (i : ℕ) : Level :=
  ⟨js "Invoice", rootAttrs, (invoiceParts fmt header lines).take i,
    (invoiceParts fmt header lines).drop (i + 1)⟩

/-- The place between the names of a party. -/
def partyLevels (name : String) (before after : List Part) : List Level :=
  [⟨js "cac:PartyLegalEntity", [], before, after⟩,
    ⟨js "cac:Party", [], [space "      "], [space "    "]⟩,
    ⟨js name, [], [space "    "], [space "  "]⟩]

theorem readable_of_header {i : ℕ} (hi : i < 8) (hq : Quoted header.currencyCode)
    (hodd : PlainBut i header lines) (hlines : ∀ l ∈ lines, Plain l.itemDescription)
    (h : Faithful fmt header lines) : Readable header lines := by
  obtain rfl | rfl | rfl | rfl | rfl | rfl | rfl | rfl : i = 0 ∨ i = 1 ∨ i = 2 ∨ i = 3 ∨ i = 4 ∨
    i = 5 ∨ i = 6 ∨ i = 7 := by omega
  · have hslot : Slot header 0 _ _ fun s => { header with invoiceNumber := s } :=
      ⟨rfl, rfl, fun _ => rfl, fun _ => rfl⟩
    have hplace : ∀ s, plug [headerLevel fmt header lines 3] (element "cbc:ID" s) =
        rootPart fmt { header with invoiceNumber := s } lines := fun _ => rfl
    exact readable_of_slot hplace rfl hslot hq hodd hlines h
  · have hslot : Slot header 1 _ _ fun s => { header with issueDate := s } :=
      ⟨rfl, rfl, fun _ => rfl, fun _ => rfl⟩
    have hplace : ∀ s, plug [headerLevel fmt header lines 5] (element "cbc:IssueDate" s) =
        rootPart fmt { header with issueDate := s } lines := fun _ => rfl
    exact readable_of_slot hplace rfl hslot hq hodd hlines h
  · have hslot : Slot header 2 _ _ fun s => { header with dueDate := s } :=
      ⟨rfl, rfl, fun _ => rfl, fun _ => rfl⟩
    have hplace : ∀ s, plug [headerLevel fmt header lines 7] (element "cbc:DueDate" s) =
        rootPart fmt { header with dueDate := s } lines := fun _ => rfl
    exact readable_of_slot hplace rfl hslot hq hodd hlines h
  · refine ⟨fun t ht => ?_, hq, hlines⟩
    obtain ⟨j, hj⟩ := List.mem_iff_getElem?.mp ht
    by_cases hj3 : j = 3
    · rw [hj3] at hj
      rw [← Option.some.inj hj]
      exact hq.plain
    · exact hodd.headerText hj3 hj
  · have hslot : Slot header 4 _ _ fun s => { header with sellerLegalName := s } :=
      ⟨rfl, rfl, fun _ => rfl, fun _ => rfl⟩
    have hplace : ∀ s, plug (partyLevels "cac:AccountingSupplierParty" [space "        "]
        [space "        ", element "cbc:CompanyID" header.sellerVatId, space "      "] ++
          [headerLevel fmt header lines 11]) (element "cbc:RegistrationName" s) =
        rootPart fmt { header with sellerLegalName := s } lines := fun _ => rfl
    exact readable_of_slot hplace rfl hslot hq hodd hlines h
  · have hslot : Slot header 5 _ _ fun s => { header with sellerVatId := s } :=
      ⟨rfl, rfl, fun _ => rfl, fun _ => rfl⟩
    have hplace : ∀ s, plug (partyLevels "cac:AccountingSupplierParty"
        [space "        ", element "cbc:RegistrationName" header.sellerLegalName,
          space "        "] [space "      "] ++ [headerLevel fmt header lines 11])
        (element "cbc:CompanyID" s) =
        rootPart fmt { header with sellerVatId := s } lines := fun _ => rfl
    exact readable_of_slot hplace rfl hslot hq hodd hlines h
  · have hslot : Slot header 6 _ _ fun s => { header with buyerLegalName := s } :=
      ⟨rfl, rfl, fun _ => rfl, fun _ => rfl⟩
    have hplace : ∀ s, plug (partyLevels "cac:AccountingCustomerParty" [space "        "]
        [space "        ", element "cbc:CompanyID" header.buyerVatId, space "      "] ++
          [headerLevel fmt header lines 13]) (element "cbc:RegistrationName" s) =
        rootPart fmt { header with buyerLegalName := s } lines := fun _ => rfl
    exact readable_of_slot hplace rfl hslot hq hodd hlines h
  · have hslot : Slot header 7 _ _ fun s => { header with buyerVatId := s } :=
      ⟨rfl, rfl, fun _ => rfl, fun _ => rfl⟩
    have hplace : ∀ s, plug (partyLevels "cac:AccountingCustomerParty"
        [space "        ", element "cbc:RegistrationName" header.buyerLegalName,
          space "        "] [space "      "] ++ [headerLevel fmt header lines 13])
        (element "cbc:CompanyID" s) =
        rootPart fmt { header with buyerVatId := s } lines := fun _ => rfl
    exact readable_of_slot hplace rfl hslot hq hodd hlines h

/-! ## The lines -/

/-- The line with another description. -/
def IEInvoiceLine.describe (l : IEInvoiceLine) (s : JsString) : IEInvoiceLine :=
  { l with itemDescription := s }

/-- The place of the description of the line `l`. -/
def lineLevels (fmt : NumberFormat) (header : IEInvoiceHeader) (before : List IEInvoiceLine)
    (l : IEInvoiceLine) (after : List IEInvoiceLine) : List Level :=
  let parts := (linePart fmt header l before.length).parts
  [⟨js "cac:Item", [], [space "        "], [space "      "]⟩,
    ⟨js "cac:InvoiceLine", [], parts.take 7, parts.drop 8⟩,
    ⟨js "Invoice", rootAttrs,
      headerParts header ++ (totalParts fmt header (before ++ l :: after) ++
        (lineParts fmt header before ++ [space "    "])),
      ((after.zipIdx (before.length + 1)).flatMap fun l =>
        [space "    ", linePart fmt header l.1 l.2]) ++ [space ""]⟩]

variable {before after : List IEInvoiceLine} {l : IEInvoiceLine}

theorem totalParts_describe (s : JsString) :
    totalParts fmt header (before ++ l.describe s :: after) =
      totalParts fmt header (before ++ l :: after) := by
  have hsubtotal : subtotal (before ++ l.describe s :: after) =
      subtotal (before ++ l :: after) := by
    simp [subtotal, IEInvoiceLine.describe]
  have htax : totalTax (before ++ l.describe s :: after) = totalTax (before ++ l :: after) := by
    simp [totalTax, IEInvoiceLine.describe, IEInvoiceLine.tax]
  simp only [totalParts, grandTotal, hsubtotal, htax]

theorem plug_lineLevels (s : JsString) :
    plug (lineLevels fmt header before l after) (element "cbc:Description" s) =
      rootPart fmt header (before ++ l.describe s :: after) := by
  have hline : plug ((lineLevels fmt header before l after).take 2)
      (element "cbc:Description" s) = linePart fmt header (l.describe s) before.length := rfl
  have hlines : lineParts fmt header (before ++ l.describe s :: after) =
      lineParts fmt header before ++ (space "    " ::
        linePart fmt header (l.describe s) before.length ::
          (after.zipIdx (before.length + 1)).flatMap fun l =>
            [space "    ", linePart fmt header l.1 l.2]) := by
    simp [lineParts, List.zipIdx_append]
  rw [rootPart, invoiceParts, totalParts_describe, hlines, ← hline]
  simp [plug, lineLevels]

/-- The path of the descriptions leads to as many elements in front of the line as there are
lines. -/
theorem length_seenAt_lineLevels :
    (seenAt ((lineLevels fmt header before l after).map Level.frame)
      [js "cbc:Description"]).length = before.length := by
  have hline : kidsAt [js "cac:Item", js "cbc:Description"]
      (nodesOf ((linePart fmt header l before.length).parts.take 7)) = [] := rfl
  have hitem : kidsAt [js "cbc:Description"] (nodesOf [space "        "]) = [] := rfl
  have hseen : seenAt ((lineLevels fmt header before l after).map Level.frame)
      [js "cbc:Description"] = (([] ++ kidsAt descriptionPath (nodesOf (headerParts header ++
        (totalParts fmt header (before ++ l :: after) ++
          (lineParts fmt header before ++ [space "    "]))))) ++
        kidsAt [js "cac:Item", js "cbc:Description"]
          (nodesOf ((linePart fmt header l before.length).parts.take 7))) ++
        kidsAt [js "cbc:Description"] (nodesOf [space "        "]) := rfl
  rw [hseen, hline, hitem, List.nil_append, List.append_nil, List.append_nil,
    length_kidsAt_description]

/-- **A description** that is read back from its place is plain, if the other strings are. -/
theorem plain_of_description (hheader : ∀ t ∈ headerTexts header, Plain t.2)
    (hq : Quoted header.currencyCode) (hbefore : ∀ l ∈ before, Plain l.itemDescription)
    (hafter : ∀ l ∈ after, Plain l.itemDescription)
    (h : Faithful fmt header (before ++ l :: after)) : Plain l.itemDescription := by
  have hread : Readable header (before ++ l.describe [] :: after) := by
    refine ⟨hheader, hq, fun k hk => ?_⟩
    rcases List.mem_append.mp hk with hk | hk
    · exact hbefore k hk
    · rcases List.mem_cons.mp hk with rfl | hk
      · exact (by decide : Plain [])
      · exact hafter k hk
  obtain ⟨root, hroot, -, htexts, -⟩ := h
  obtain ⟨kids, more, hkids, hplain⟩ := exists_kids (plug_lineLevels l.itemDescription)
    (plug_lineLevels []) hread hroot
  have hpath : fullPath ((lineLevels fmt header before l after).map Level.frame)
      [js "cbc:Description"] = js "Invoice" :: descriptionPath := rfl
  rw [hpath] at hkids
  have htext := (textsAt_eq hkids).symm.trans htexts
  rw [List.map_append, List.map_cons] at htext
  have hlength : ((seenAt ((lineLevels fmt header before l after).map Level.frame)
      [js "cbc:Description"]).map textOf).length =
      (before.map IEInvoiceLine.itemDescription).length := by
    rw [List.length_map, List.length_map, length_seenAt_lineLevels]
  obtain ⟨-, htail⟩ := List.append_inj htext hlength
  exact hplain (List.cons.inj htail).1

/-! ## One string that may not be plain -/

theorem PlainBut.description {i k : ℕ} (hodd : PlainBut i header lines) (hk : 8 + k ≠ i)
    {l : IEInvoiceLine} (hl : lines[k]? = some l) : Plain l.itemDescription := by
  refine hodd (8 + k) l.itemDescription hk ?_
  rw [strings, List.getElem?_append_right (Nat.le_add_right 8 k)]
  have hsub : 8 + k - ((headerTexts header).map Prod.snd).length = k := Nat.add_sub_cancel_left 8 k
  rw [hsub, List.getElem?_map, hl]
  rfl

/-- **At most one string is not plain**, and it is not the currency. -/
def OneOdd (header : IEInvoiceHeader) (lines : List IEInvoiceLine) : Prop :=
  Quoted header.currencyCode ∧ ∃ i, PlainBut i header lines

theorem readable_of_faithful (hodd : OneOdd header lines) (h : Faithful fmt header lines) :
    Readable header lines := by
  obtain ⟨hq, i, hodd⟩ := hodd
  by_cases hi : i < 8
  · refine readable_of_header hi hq hodd (fun l hl => ?_) h
    obtain ⟨k, hk⟩ := List.mem_iff_getElem?.mp hl
    exact hodd.description (by omega) hk
  have hheader : ∀ t ∈ headerTexts header, Plain t.2 := by
    intro t ht
    obtain ⟨j, hj⟩ := List.mem_iff_getElem?.mp ht
    have hlt : j < 8 := (List.getElem?_eq_some_iff.mp hj).1
    exact hodd.headerText (by omega) hj
  refine ⟨hheader, hq, fun l hl => ?_⟩
  obtain ⟨before, after, rfl⟩ := List.append_of_mem hl
  by_cases hplace : 8 + before.length = i
  · refine plain_of_description hheader hq (fun k hk => ?_) (fun k hk => ?_) h
    · obtain ⟨j, hj⟩ := List.mem_iff_getElem?.mp hk
      have hlt := (List.getElem?_eq_some_iff.mp hj).1
      exact @PlainBut.description _ _ i j hodd (by omega) k
        (by rw [List.getElem?_append_left hlt, hj])
    · obtain ⟨j, hj⟩ := List.mem_iff_getElem?.mp hk
      have hget : (before ++ l :: after)[before.length + (j + 1)]? = some k := by
        rw [List.getElem?_append_right (Nat.le_add_right _ _), Nat.add_sub_cancel_left,
          List.getElem?_cons_succ, hj]
      exact hodd.description (by omega) hget
  · exact @PlainBut.description _ _ i before.length hodd hplace l (by simp)

/-- **The invoices whose document is faithful**: those whose strings are plain, and of those with at
most one that may not be, no others. -/
theorem faithful_readable (fmt : NumberFormat) (header : IEInvoiceHeader)
    (lines : List IEInvoiceLine) :
    (Readable header lines → Faithful fmt header lines) ∧
      (OneOdd header lines → Faithful fmt header lines → Readable header lines) :=
  ⟨faithful_of_readable fmt, readable_of_faithful⟩

/-- The sample, and the sample with a legal name that is not plain. -/
theorem faithful_readable_sample :
    Faithful wholeNumbers sampleHeader [sampleLine "Pallets, 120 x 80", sampleLine "Straps"] ∧
      ¬ Faithful wholeNumbers { sampleHeader with buyerLegalName := js "Nord < Süd" }
        [sampleLine "Straps"] := by
  refine ⟨(faithful_readable _ _ _).1 ?_, fun h => ?_⟩
  · exact ⟨by decide +kernel, by decide +kernel, by decide +kernel⟩
  · have hodd : OneOdd { sampleHeader with buyerLegalName := js "Nord < Süd" }
        [sampleLine "Straps"] := by
      refine ⟨by decide +kernel, 6, fun j s hj hs => ?_⟩
      have hall : ∀ j < 9, j ≠ 6 → ∀ s ∈ (strings
          { sampleHeader with buyerLegalName := js "Nord < Süd" } [sampleLine "Straps"])[j]?,
          Plain s := by
        decide +kernel
      exact hall j (List.getElem?_eq_some_iff.mp hs).1 hj s hs
    have hread := (faithful_readable _ _ _).2 hodd h
    have hplain : Plain (js "Nord < Süd") := hread.texts _ (List.mem_of_getElem?
      (show (headerTexts _)[6]? = some (_, js "Nord < Süd") from rfl))
    exact absurd hplain (by decide +kernel)

end Logix.Billing
