import Logix.Js.Number
import Logix.Xml.Render

/-!
# The electronic invoice

`LocalizedElectronicInvoiceXmlBuilder` writes an invoice into a template of XML, and escapes
nothing.

* `NumberFormat`: the texts of numbers; `NumberFormat.toFixed`: `x.toFixed(d)`;
* `buildUblXml`: the code;
* `Faithful`: the document is well-formed, and the strings of the invoice are read back from it;
* **`faithful_of_readable`**: an invoice whose strings are plain text is faithful;
* `ampersand`: an invoice that is not.
-/

namespace Logix.Billing

open Xml

/-! ## The builder -/

/-- `IEInvoiceHeader`, the fields that are written. -/
structure IEInvoiceHeader where
  invoiceNumber : JsString
  issueDate : JsString
  dueDate : JsString
  sellerVatId : JsString
  sellerLegalName : JsString
  buyerVatId : JsString
  buyerLegalName : JsString
  currencyCode : JsString

/-- `IEInvoiceLine`, the fields that are written. -/
structure IEInvoiceLine where
  itemDescription : JsString
  quantity : ℚ
  unitPrice : ℚ
  vatRatePct : ℚ
  lineSubtotal : ℚ

/-- The units of the text of a number. -/
def numberUnits : JsString := js "0123456789+-.e"

/-- **The text of a number**, `String(x)`. -/
structure NumberFormat where
  text : ℚ → JsString
  units : ∀ x, ∀ c ∈ text x, c ∈ numberUnits

/-- `x.toFixed(d)`. -/
def NumberFormat.toFixed (fmt : NumberFormat) (d : ℕ) (x : ℚ) : JsString :=
  if 10 ^ 21 ≤ |x| then fmt.text x
  else
    let n := ⌊|x| * 10 ^ d + 1 / 2⌋.toNat
    let digits := padStart (toBase 10 n) (d + 1) 48
    (if x < 0 then js "-" else []) ++ digits.take (digits.length - d) ++
      (if d = 0 then [] else js "." ++ digits.drop (digits.length - d))

/-- `tax` of a line. -/
def IEInvoiceLine.tax (l : IEInvoiceLine) : ℚ := toFixed 2 (l.lineSubtotal * (l.vatRatePct / 100))

/-- `subtotal`, behind all lines. -/
def subtotal (lines : List IEInvoiceLine) : ℚ := lines.foldl (fun s l => s + l.lineSubtotal) 0

/-- `totalTax`, behind all lines. -/
def totalTax (lines : List IEInvoiceLine) : ℚ := lines.foldl (fun s l => s + l.tax) 0

/-- `grandTotal`. -/
def grandTotal (lines : List IEInvoiceLine) : ℚ := toFixed 2 (subtotal lines + totalTax lines)

/-- A line break of the template. -/
def nl : JsString := js "\n"

/-- A name space of the template. -/
def ublSchema (name : String) : JsString :=
  js "urn:oasis:names:specification:ubl:schema:xsd:" ++ js name

/-- The customization of the template. -/
def customizationId : JsString :=
  js "urn:cen.eu:en16931:2017#compliant#" ++ js "urn:fdc:peppol.eu:2017:poacc:billing:3.0"

/-- What `lines.map` makes of a line. -/
def lineXml (fmt : NumberFormat) (header : IEInvoiceHeader) (l : IEInvoiceLine) (idx : ℕ) :
    JsString :=
  nl ++
  js "    <cac:InvoiceLine>" ++ nl ++
  js "      <cbc:ID>" ++ fmt.text (idx + 1) ++ js "</cbc:ID>" ++ nl ++
  js "      <cbc:InvoicedQuantity unitCode=\"EA\">" ++ fmt.text l.quantity ++
  js "</cbc:InvoicedQuantity>" ++ nl ++
  js "      <cbc:LineExtensionAmount currencyID=\"" ++ header.currencyCode ++ js "\">" ++
  fmt.toFixed 2 l.lineSubtotal ++ js "</cbc:LineExtensionAmount>" ++ nl ++
  js "      <cac:Item>" ++ nl ++
  js "        <cbc:Description>" ++ l.itemDescription ++ js "</cbc:Description>" ++ nl ++
  js "      </cac:Item>" ++ nl ++
  js "      <cac:Price>" ++ nl ++
  js "        <cbc:PriceAmount currencyID=\"" ++ header.currencyCode ++ js "\">" ++
  fmt.toFixed 2 l.unitPrice ++ js "</cbc:PriceAmount>" ++ nl ++
  js "      </cac:Price>" ++ nl ++
  js "    </cac:InvoiceLine>"

/-- `linesXml`. -/
def linesXml (fmt : NumberFormat) (header : IEInvoiceHeader) (lines : List IEInvoiceLine) :
    JsString :=
  (lines.zipIdx.map fun l => lineXml fmt header l.1 l.2).flatten

/-- **`buildUblXml(header, lines)`.** -/
def buildUblXml (fmt : NumberFormat) (header : IEInvoiceHeader) (lines : List IEInvoiceLine) :
    JsString :=
  js "<?xml version=\"1.0\" encoding=\"UTF-8\"?>" ++ nl ++
  js "<Invoice xmlns=\"" ++ ublSchema "Invoice-2" ++ js "\"" ++ nl ++
  js "         xmlns:cac=\"" ++ ublSchema "CommonAggregateComponents-2" ++ js "\"" ++ nl ++
  js "         xmlns:cbc=\"" ++ ublSchema "CommonBasicComponents-2" ++ js "\">" ++ nl ++
  js "  <cbc:CustomizationID>" ++ customizationId ++ js "</cbc:CustomizationID>" ++ nl ++
  js "  <cbc:ID>" ++ header.invoiceNumber ++ js "</cbc:ID>" ++ nl ++
  js "  <cbc:IssueDate>" ++ header.issueDate ++ js "</cbc:IssueDate>" ++ nl ++
  js "  <cbc:DueDate>" ++ header.dueDate ++ js "</cbc:DueDate>" ++ nl ++
  js "  <cbc:DocumentCurrencyCode>" ++ header.currencyCode ++ js "</cbc:DocumentCurrencyCode>" ++
  nl ++
  js "  <cac:AccountingSupplierParty>" ++ nl ++
  js "    <cac:Party>" ++ nl ++
  js "      <cac:PartyLegalEntity>" ++ nl ++
  js "        <cbc:RegistrationName>" ++ header.sellerLegalName ++ js "</cbc:RegistrationName>" ++
  nl ++
  js "        <cbc:CompanyID>" ++ header.sellerVatId ++ js "</cbc:CompanyID>" ++ nl ++
  js "      </cac:PartyLegalEntity>" ++ nl ++
  js "    </cac:Party>" ++ nl ++
  js "  </cac:AccountingSupplierParty>" ++ nl ++
  js "  <cac:AccountingCustomerParty>" ++ nl ++
  js "    <cac:Party>" ++ nl ++
  js "      <cac:PartyLegalEntity>" ++ nl ++
  js "        <cbc:RegistrationName>" ++ header.buyerLegalName ++ js "</cbc:RegistrationName>" ++
  nl ++
  js "        <cbc:CompanyID>" ++ header.buyerVatId ++ js "</cbc:CompanyID>" ++ nl ++
  js "      </cac:PartyLegalEntity>" ++ nl ++
  js "    </cac:Party>" ++ nl ++
  js "  </cac:AccountingCustomerParty>" ++ nl ++
  js "  <cac:LegalMonetaryTotal>" ++ nl ++
  js "    <cbc:LineExtensionAmount currencyID=\"" ++ header.currencyCode ++ js "\">" ++
  fmt.toFixed 2 (subtotal lines) ++ js "</cbc:LineExtensionAmount>" ++ nl ++
  js "    <cbc:TaxExclusiveAmount currencyID=\"" ++ header.currencyCode ++ js "\">" ++
  fmt.toFixed 2 (subtotal lines) ++ js "</cbc:TaxExclusiveAmount>" ++ nl ++
  js "    <cbc:TaxInclusiveAmount currencyID=\"" ++ header.currencyCode ++ js "\">" ++
  fmt.toFixed 2 (grandTotal lines) ++ js "</cbc:TaxInclusiveAmount>" ++ nl ++
  js "    <cbc:PayableAmount currencyID=\"" ++ header.currencyCode ++ js "\">" ++
  fmt.toFixed 2 (grandTotal lines) ++ js "</cbc:PayableAmount>" ++ nl ++
  js "  </cac:LegalMonetaryTotal>" ++ nl ++
  js "  " ++ linesXml fmt header lines ++ nl ++
  js "</Invoice>"

/-! ## The parts of the document -/

/-- A line break, and the blanks in front of the next line. -/
def space (indent : String) : Part := .space (nl ++ js indent)

/-- An element with text. -/
def element (name : String) (text : JsString) : Part := .field (js name) [] text

/-- An amount. -/
def amount (name : String) (header : IEInvoiceHeader) (text : JsString) : Part :=
  .field (js name) [⟨js " ", js "currencyID", header.currencyCode⟩] text

/-- An element with elements. -/
def group (name : String) (parts : List Part) : Part := .group (js name) [] parts

/-- A party: its names. -/
def partyPart (name : String) (legalName vatId : JsString) : Part :=
  group name
    [space "    ", group "cac:Party"
      [space "      ", group "cac:PartyLegalEntity"
        [space "        ", element "cbc:RegistrationName" legalName,
          space "        ", element "cbc:CompanyID" vatId, space "      "],
        space "    "], space "  "]

/-- The parts with the strings of the header. -/
def headerParts (header : IEInvoiceHeader) : List Part :=
  [space "  ", element "cbc:CustomizationID" customizationId,
    space "  ", element "cbc:ID" header.invoiceNumber,
    space "  ", element "cbc:IssueDate" header.issueDate,
    space "  ", element "cbc:DueDate" header.dueDate,
    space "  ", element "cbc:DocumentCurrencyCode" header.currencyCode,
    space "  ",
    partyPart "cac:AccountingSupplierParty" header.sellerLegalName header.sellerVatId,
    space "  ",
    partyPart "cac:AccountingCustomerParty" header.buyerLegalName header.buyerVatId]

/-- The parts with the totals. -/
def totalParts (fmt : NumberFormat) (header : IEInvoiceHeader) (lines : List IEInvoiceLine) :
    List Part :=
  [space "  ", group "cac:LegalMonetaryTotal"
      [space "    ",
        amount "cbc:LineExtensionAmount" header (fmt.toFixed 2 (subtotal lines)),
        space "    ", amount "cbc:TaxExclusiveAmount" header (fmt.toFixed 2 (subtotal lines)),
        space "    ",
        amount "cbc:TaxInclusiveAmount" header (fmt.toFixed 2 (grandTotal lines)),
        space "    ", amount "cbc:PayableAmount" header (fmt.toFixed 2 (grandTotal lines)),
        space "  "], space "  "]

/-- A line. -/
def linePart (fmt : NumberFormat) (header : IEInvoiceHeader) (l : IEInvoiceLine) (idx : ℕ) : Part :=
  group "cac:InvoiceLine"
    [space "      ", element "cbc:ID" (fmt.text (idx + 1)), space "      ",
      .field (js "cbc:InvoicedQuantity") [⟨js " ", js "unitCode", js "EA"⟩] (fmt.text l.quantity),
      space "      ", amount "cbc:LineExtensionAmount" header (fmt.toFixed 2 l.lineSubtotal),
      space "      ", group "cac:Item"
        [space "        ", element "cbc:Description" l.itemDescription, space "      "],
      space "      ", group "cac:Price"
        [space "        ", amount "cbc:PriceAmount" header (fmt.toFixed 2 l.unitPrice),
          space "      "],
      space "    "]

/-- The lines. -/
def lineParts (fmt : NumberFormat) (header : IEInvoiceHeader) (lines : List IEInvoiceLine) :
    List Part :=
  lines.zipIdx.flatMap fun l => [space "    ", linePart fmt header l.1 l.2]

/-- The name spaces of the root. -/
def rootAttrs : List Attr :=
  [⟨js " ", js "xmlns", ublSchema "Invoice-2"⟩,
    ⟨nl ++ js "         ", js "xmlns:cac", ublSchema "CommonAggregateComponents-2"⟩,
    ⟨nl ++ js "         ", js "xmlns:cbc", ublSchema "CommonBasicComponents-2"⟩]

/-- The parts of the root. -/
def invoiceParts (fmt : NumberFormat) (header : IEInvoiceHeader) (lines : List IEInvoiceLine) :
    List Part :=
  headerParts header ++ (totalParts fmt header lines ++
    (lineParts fmt header lines ++ [space ""]))

variable (fmt : NumberFormat) (header : IEInvoiceHeader) (lines : List IEInvoiceLine)

theorem lineXml_eq (l : IEInvoiceLine) (idx : ℕ) :
    lineXml fmt header l idx = nl ++ (js "    " ++ (linePart fmt header l idx).render) := by
  unfold lineXml
  simp only [linePart, space, element, amount, group, Part.render, renderAll,
    renderStart_js, renderStop_js, Attr.render_js, List.flatMap_cons, List.flatMap_nil,
    List.append_assoc, List.nil_append, List.append_nil, js_append_append, ← js_append,
    String.reduceAppend]

theorem linesXml_eq : linesXml fmt header lines = renderAll (lineParts fmt header lines) := by
  have hall : ∀ ls : List (IEInvoiceLine × ℕ),
      (ls.map fun l => lineXml fmt header l.1 l.2).flatten =
        renderAll (ls.flatMap fun l => [space "    ", linePart fmt header l.1 l.2]) := by
    intro ls
    induction ls with
    | nil => rfl
    | cons l ls ih =>
      rw [List.map_cons, List.flatten_cons, ih, lineXml_eq, List.flatMap_cons, renderAll_append]
      simp [renderAll, space, Part.render]
  exact hall lines.zipIdx

theorem buildUblXml_eq : buildUblXml fmt header lines = xmlDecl ++ (nl ++
    (Part.group (js "Invoice") rootAttrs (invoiceParts fmt header lines)).render) := by
  unfold buildUblXml
  simp only [xmlDecl, rootAttrs, invoiceParts, ← linesXml_eq, renderAll_append,
    headerParts, partyPart, totalParts, space, element,
    amount, group, Part.render, renderAll, renderStart_js, renderStop_js, Attr.render_js,
    List.flatMap_cons, List.flatMap_nil, List.append_assoc, List.nil_append, List.append_nil,
    js_append_append, ← js_append, js_empty, String.reduceAppend]

/-! ## Plain strings are read back -/

/-- The paths of the elements with the strings of the header, and the strings. -/
def headerTexts (header : IEInvoiceHeader) : List (List JsString × JsString) :=
  let party (name field : String) :=
    [js name, js "cac:Party", js "cac:PartyLegalEntity", js field]
  [([js "cbc:ID"], header.invoiceNumber), ([js "cbc:IssueDate"], header.issueDate),
    ([js "cbc:DueDate"], header.dueDate), ([js "cbc:DocumentCurrencyCode"], header.currencyCode),
    (party "cac:AccountingSupplierParty" "cbc:RegistrationName", header.sellerLegalName),
    (party "cac:AccountingSupplierParty" "cbc:CompanyID", header.sellerVatId),
    (party "cac:AccountingCustomerParty" "cbc:RegistrationName", header.buyerLegalName),
    (party "cac:AccountingCustomerParty" "cbc:CompanyID", header.buyerVatId)]

/-- The path of the lines. -/
def linePath : List JsString := [js "cac:InvoiceLine"]

/-- The path of the descriptions. -/
def descriptionPath : List JsString := [js "cac:InvoiceLine", js "cac:Item", js "cbc:Description"]

/-- **The document of an invoice is faithful**: it is well-formed, the strings are read back from
it, and it has as many lines. -/
def Faithful : Prop :=
  ∃ root, read (buildUblXml fmt header lines) = some root ∧
    (∀ t ∈ headerTexts header, root.textsAt t.1 = [t.2]) ∧
    root.textsAt descriptionPath = lines.map IEInvoiceLine.itemDescription ∧
    (root.textsAt linePath).length = lines.length

/-- **The strings of an invoice are plain text**, and the currency a value in quotes. -/
structure Readable : Prop where
  texts : ∀ t ∈ headerTexts header, Plain t.2
  quoted : Quoted header.currencyCode
  descriptions : ∀ l ∈ lines, Plain l.itemDescription

theorem numberUnits_plain :
    ∀ c ∈ numberUnits, isPlainUnit c = true ∧ c < 0x80 ∧ c ≠ ch ']' := by
  decide +kernel

theorem NumberFormat.plain_text (x : ℚ) : Plain (fmt.text x) :=
  plain_of_mem (fmt.units x) numberUnits_plain

theorem mem_numberUnits_of_toBase {n : ℕ} {c : UInt16} (h : c ∈ toBase 10 n) :
    c ∈ numberUnits := by
  have hdigit : ∀ d < 10, digitUnit d ∈ numberUnits := by decide +kernel
  unfold toBase at h
  split at h
  · rw [List.mem_singleton.mp h]
    exact hdigit 0 (by omega)
  · obtain ⟨d, hd, rfl⟩ := List.mem_map.mp h
    exact hdigit d (Nat.digits_lt_base (by omega) (List.mem_reverse.mp hd))

theorem NumberFormat.plain_toFixed (d : ℕ) (x : ℚ) : Plain (fmt.toFixed d x) := by
  refine plain_of_mem (fun c hc => ?_) numberUnits_plain
  unfold NumberFormat.toFixed at hc
  have hdigits : ∀ n m, ∀ c ∈ padStart (toBase 10 n) m 48, c ∈ numberUnits := by
    intro n m c hc
    rcases List.mem_append.mp hc with hc | hc
    · rw [List.eq_of_mem_replicate hc]
      decide +kernel
    · exact mem_numberUnits_of_toBase hc
  split at hc
  · exact fmt.units x c hc
  · rcases List.mem_append.mp hc with hc | hc
    · rcases List.mem_append.mp hc with hc | hc
      · split at hc
        · rw [List.mem_singleton.mp hc]
          decide +kernel
        · cases hc
      · exact hdigits _ _ c (List.mem_of_mem_take hc)
    · split at hc
      · cases hc
      · rcases List.mem_append.mp hc with hc | hc
        · rw [List.mem_singleton.mp hc]
          decide +kernel
        · exact hdigits _ _ c (List.mem_of_mem_drop hc)

theorem space_ok {s : String} (h : Blank (nl ++ js s)) : (space s).Ok := .space h

theorem attrsOk_nil : AttrsOk [] :=
  ⟨fun _ h => absurd h List.not_mem_nil, List.nodup_nil⟩

theorem element_ok {name : String} {text : JsString} (h : IsName (js name)) (ht : Plain text) :
    (element name text).Ok :=
  .field h attrsOk_nil ht

theorem amount_ok {name : String} {text : JsString} (h : IsName (js name)) (ht : Plain text)
    (hq : Quoted header.currencyCode) : (amount name header text).Ok := by
  have hgap : Blank (js " ") ∧ js " " ≠ [] := by decide
  have hname : IsName (js "currencyID") := by decide
  exact .field h ⟨List.forall_mem_singleton.mpr ⟨hgap, hname, hq⟩, List.nodup_singleton _⟩ ht

theorem group_ok {name : String} {parts : List Part} (h : IsName (js name))
    (hparts : ∀ p ∈ parts, p.Ok) : (group name parts).Ok :=
  .group h attrsOk_nil hparts

theorem partyPart_ok {name : String} {legalName vatId : JsString} (h : IsName (js name))
    (hlegal : Plain legalName) (hvat : Plain vatId) : (partyPart name legalName vatId).Ok := by
  refine group_ok h ?_
  simp only [List.forall_mem_cons]
  refine ⟨space_ok (by decide), group_ok (by decide) ?_, space_ok (by decide), by simp⟩
  simp only [List.forall_mem_cons]
  refine ⟨space_ok (by decide), group_ok (by decide) ?_, space_ok (by decide), by simp⟩
  simp only [List.forall_mem_cons]
  exact ⟨space_ok (by decide), element_ok (by decide) hlegal, space_ok (by decide),
    element_ok (by decide) hvat, space_ok (by decide), by simp⟩

variable {header lines}

theorem headerParts_ok (h : Readable header lines) : ∀ p ∈ headerParts header, p.Ok := by
  have htexts := h.texts
  simp only [headerTexts, List.forall_mem_cons] at htexts
  obtain ⟨h1, h2, h3, h4, h5, h6, h7, h8, -⟩ := htexts
  simp only [headerParts, List.forall_mem_cons]
  exact ⟨space_ok (by decide), element_ok (by decide) (by decide +kernel), space_ok (by decide),
    element_ok (by decide) h1, space_ok (by decide), element_ok (by decide) h2,
    space_ok (by decide), element_ok (by decide) h3, space_ok (by decide),
    element_ok (by decide) h4, space_ok (by decide), partyPart_ok (by decide) h5 h6,
    space_ok (by decide), partyPart_ok (by decide) h7 h8, by simp⟩

theorem totalParts_ok (h : Readable header lines) : ∀ p ∈ totalParts fmt header lines, p.Ok := by
  simp only [totalParts, List.forall_mem_cons]
  refine ⟨space_ok (by decide), group_ok (by decide) ?_, space_ok (by decide), by simp⟩
  simp only [List.forall_mem_cons]
  have hamount : ∀ {name : String} {x : ℚ}, IsName (js name) →
      (amount name header (fmt.toFixed 2 x)).Ok :=
    fun hname => amount_ok header hname (fmt.plain_toFixed 2 _) h.quoted
  exact ⟨space_ok (by decide), hamount (by decide), space_ok (by decide), hamount (by decide),
    space_ok (by decide), hamount (by decide), space_ok (by decide), hamount (by decide),
    space_ok (by decide), by simp⟩

theorem linePart_ok (h : Readable header lines) {l : IEInvoiceLine} (hl : l ∈ lines) (idx : ℕ) :
    (linePart fmt header l idx).Ok := by
  have hamount : ∀ {name : String} {x : ℚ}, IsName (js name) →
      (amount name header (fmt.toFixed 2 x)).Ok :=
    fun hname => amount_ok header hname (fmt.plain_toFixed 2 _) h.quoted
  have hquantity : (Part.field (js "cbc:InvoicedQuantity") [⟨js " ", js "unitCode", js "EA"⟩]
      (fmt.text l.quantity)).Ok := by
    have hattr : Attr.Ok ⟨js " ", js "unitCode", js "EA"⟩ := ⟨by decide, by decide, by decide⟩
    exact .field (by decide) ⟨List.forall_mem_singleton.mpr hattr, List.nodup_singleton _⟩
      (fmt.plain_text _)
  refine group_ok (by decide) ?_
  simp only [List.forall_mem_cons]
  refine ⟨space_ok (by decide), element_ok (by decide) (fmt.plain_text _), space_ok (by decide),
    hquantity, space_ok (by decide), hamount (by decide), space_ok (by decide),
    group_ok (by decide) ?_, space_ok (by decide), group_ok (by decide) ?_,
    space_ok (by decide), by simp⟩
  · simp only [List.forall_mem_cons]
    exact ⟨space_ok (by decide), element_ok (by decide) (h.descriptions l hl),
      space_ok (by decide), by simp⟩
  · simp only [List.forall_mem_cons]
    exact ⟨space_ok (by decide), hamount (by decide), space_ok (by decide), by simp⟩

theorem invoiceParts_ok (h : Readable header lines) :
    (Part.group (js "Invoice") rootAttrs (invoiceParts fmt header lines)).Ok := by
  refine .group (by decide) ⟨?_, by decide +kernel⟩ fun p hp => ?_
  · simp only [rootAttrs, List.forall_mem_cons]
    exact ⟨⟨by decide, by decide, by decide +kernel⟩, ⟨by decide, by decide, by decide +kernel⟩,
      ⟨by decide, by decide, by decide +kernel⟩, by simp⟩
  · simp only [invoiceParts, List.mem_append] at hp
    rcases hp with hp | hp | hp | hp
    · exact headerParts_ok h p hp
    · exact totalParts_ok fmt h p hp
    · obtain ⟨⟨l, idx⟩, hl, hp⟩ := List.mem_flatMap.mp hp
      rcases List.mem_cons.mp hp with rfl | hp
      · exact space_ok (by decide)
      · rw [List.mem_singleton.mp hp]
        exact linePart_ok fmt h (List.fst_mem_of_mem_zipIdx hl) idx
    · rw [List.mem_singleton.mp hp]
      exact space_ok (by decide)

theorem kidsAt_lineParts (name : JsString) (path : List JsString) :
    kidsAt (name :: path) (nodesOf (lineParts fmt header lines)) =
      lines.zipIdx.flatMap fun l => kidsAt (name :: path) (linePart fmt header l.1 l.2).nodes := by
  unfold lineParts
  induction lines.zipIdx with
  | nil => rfl
  | cons l ls ih =>
    have hspace : kidsAt (name :: path) (space "    ").nodes = [] := kidsAt_units name path _
    rw [List.flatMap_cons, nodesOf_append, kidsAt_append, ih, List.flatMap_cons, nodesOf, nodesOf,
      nodesOf, List.append_nil, kidsAt_append, hspace, List.nil_append]

theorem kidsAt_rootParts (before : List IEInvoiceLine) (indent : String) (name : JsString)
    (path : List JsString) :
    kidsAt (name :: path) (nodesOf (headerParts header ++ (totalParts fmt header lines ++
      (lineParts fmt header before ++ [space indent])))) =
      kidsAt (name :: path) (nodesOf (headerParts header)) ++
        (kidsAt (name :: path) (nodesOf (totalParts fmt header lines)) ++
          before.zipIdx.flatMap fun l =>
            kidsAt (name :: path) (linePart fmt header l.1 l.2).nodes) := by
  have hspace : kidsAt (name :: path) (nodesOf [space indent]) = [] := by
    rw [nodesOf, nodesOf, List.append_nil]
    exact kidsAt_units name path _
  rw [nodesOf_append, nodesOf_append, nodesOf_append, kidsAt_append, kidsAt_append,
    kidsAt_append, hspace, List.append_nil, kidsAt_lineParts]

theorem kidsAt_intoLines (before : List IEInvoiceLine) (indent : String) (path : List JsString) :
    kidsAt (js "cac:InvoiceLine" :: path) (nodesOf (headerParts header ++
      (totalParts fmt header lines ++ (lineParts fmt header before ++ [space indent])))) =
      before.zipIdx.flatMap fun l =>
        kidsAt (js "cac:InvoiceLine" :: path) (linePart fmt header l.1 l.2).nodes := by
  rw [kidsAt_rootParts]
  rfl

theorem length_kidsAt_description (before : List IEInvoiceLine) (indent : String) :
    (kidsAt descriptionPath (nodesOf (headerParts header ++ (totalParts fmt header lines ++
      (lineParts fmt header before ++ [space indent]))))).length = before.length := by
  have hone : ∀ l : IEInvoiceLine × ℕ,
      (kidsAt descriptionPath (linePart fmt header l.1 l.2).nodes).length = 1 := fun _ => rfl
  rw [descriptionPath, kidsAt_intoLines, ← descriptionPath, List.length_flatMap]
  simp [hone]

theorem kidsAt_header {t : List JsString × JsString} (ht : t ∈ headerTexts header) :
    kidsAt t.1 (nodesOf (invoiceParts fmt header lines)) = [t.2.map .unit] := by
  -- such a path does not lead into the lines
  have hlines : ∀ {name : JsString} (path : List JsString), js "cac:InvoiceLine" ≠ name →
      (lines.zipIdx.flatMap fun l => kidsAt (name :: path) (linePart fmt header l.1 l.2).nodes) =
        [] := by
    intro name path hne
    refine List.flatMap_eq_nil_iff.mpr fun l _ => ?_
    simp [linePart, group, Part.nodes, kidsAt, named, hne]
  revert t
  simp only [headerTexts, List.forall_mem_cons]
  refine ⟨?_, ?_, ?_, ?_, ?_, ?_, ?_, ?_, by simp⟩ <;>
    rw [invoiceParts, kidsAt_rootParts, hlines _ (by decide)] <;> rfl

/-- **An invoice whose strings are plain text is faithful.** -/
theorem faithful_of_readable (h : Readable header lines) : Faithful fmt header lines := by
  refine ⟨.element (js "Invoice") (attrsOf rootAttrs) (nodesOf (invoiceParts fmt header lines)),
    ?_, fun t ht => ?_, ?_, ?_⟩
  · rw [buildUblXml_eq]
    exact read_document (by decide) (invoiceParts_ok fmt h)
  · rw [Node.textsAt, kidsAt_header fmt ht, List.map_singleton, textOf_units]
  · have hkids : kidsAt descriptionPath (nodesOf (invoiceParts fmt header lines)) =
        lines.zipIdx.flatMap fun l => [l.1.itemDescription.map .unit] :=
      kidsAt_intoLines fmt lines "" [js "cac:Item", js "cbc:Description"]
    have htext : ∀ ls : List (IEInvoiceLine × ℕ),
        (ls.flatMap fun l => [l.1.itemDescription.map Node.unit]).map textOf =
          (ls.map Prod.fst).map IEInvoiceLine.itemDescription := by
      intro ls
      induction ls with
      | nil => rfl
      | cons l ls ih => simp [textOf_units, ih]
    rw [Node.textsAt, hkids, htext, List.zipIdx_map_fst]
  · have hkids : kidsAt linePath (nodesOf (invoiceParts fmt header lines)) =
        lines.zipIdx.flatMap fun l => kidsAt linePath (linePart fmt header l.1 l.2).nodes :=
      kidsAt_intoLines fmt lines "" []
    rw [Node.textsAt, hkids, List.length_map, List.length_flatMap]
    have hone : ∀ l : IEInvoiceLine × ℕ,
        (kidsAt linePath (linePart fmt header l.1 l.2).nodes).length = 1 := fun _ => rfl
    simp [hone]

/-- The texts of whole numbers. -/
def wholeNumbers : NumberFormat where
  text x := intToBase 10 ⌊x⌋
  units := by
    intro x c hc
    unfold intToBase at hc
    split at hc
    · rcases List.mem_cons.mp hc with rfl | hc
      · decide +kernel
      · exact mem_numberUnits_of_toBase hc
    · exact mem_numberUnits_of_toBase hc

/-- The header of an invoice. -/
def sampleHeader : IEInvoiceHeader where
  invoiceNumber := js "INV-2026-0001"
  issueDate := js "2026-01-15"
  dueDate := js "2026-02-14"
  sellerVatId := js "DE123456789"
  sellerLegalName := js "Nordwind Logistik GmbH"
  buyerVatId := js "FR40303265045"
  buyerLegalName := js "Entrepôts Réunis"
  currencyCode := js "EUR"

/-- A line of three pieces at 20. -/
def sampleLine (description : String) : IEInvoiceLine :=
  ⟨js description, 3, 20, 0, 60⟩

/-- **A number with an ampersand** makes the document malformed. -/
theorem ampersand :
    ¬ Faithful wholeNumbers { sampleHeader with invoiceNumber := js "R&D-17" } [] := by
  have hstop : (run .init (dropDecl (normalize (buildUblXml wholeNumbers
      { sampleHeader with invoiceNumber := js "R&D-17" } [])))).isNone = true := by
    decide +kernel
  rintro ⟨root, hread, -⟩
  unfold Xml.read at hread
  rw [Option.isNone_iff_eq_none.mp hstop] at hread
  split at hread <;> cases hread

end Logix.Billing
