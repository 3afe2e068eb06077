import Logix.Js.Text

/-!
# Reading XML

A reader of XML 1.0 documents without a document type, one code unit after the other.

* `Node`: what is read; `textsAt`: the texts of the elements at a path;
* `Ctl`, `State`: what has been read of the token in progress, and the elements that are open;
* `step`, `run`: the reader; a document that is not well-formed stops it;
* `normalize`, `wellPaired`: line ends, and surrogates;
* `read`: the root element of a document.
-/

namespace Logix.Xml

/-! ## What is read -/

/-- A unit of text, or an element. -/
inductive Node where
  | unit (c : UInt16)
  | element (name : JsString) (attrs : List (JsString × JsString)) (kids : List Node)

/-- The text between some nodes. -/
def textOf (kids : List Node) : JsString :=
  kids.filterMap fun
    | .unit c => some c
    | .element .. => none

/-- The kids of the elements of a name among some nodes. -/
def named (name : JsString) (kids : List Node) : List (List Node) :=
  kids.filterMap fun
    | .unit _ => none
    | .element name' _ kids' => if name' = name then some kids' else none

/-- The kids of the elements at a path below some nodes, in the order of the document. -/
def kidsAt : List JsString → List Node → List (List Node)
  | [], kids => [kids]
  | name :: path, kids => (named name kids).flatMap (kidsAt path)

/-- **The texts of the elements at a path** below an element. -/
def Node.textsAt (path : List JsString) : Node → List JsString
  | .unit _ => []
  | .element _ _ kids => (kidsAt path kids).map textOf

/-! ## Characters -/

/-- The unit of an ASCII character. -/
def ch (c : Char) : UInt16 := .ofNat c.toNat

/-- `S`: white space. -/
def isSpace (c : UInt16) : Bool := c == 32 || c == 9 || c == 10 || c == 13

/-- `Char`: the units that a document may have. -/
def isLegal (c : UInt16) : Bool := isSpace c || (32 ≤ c && c < 0xFFFE)

/-- The ranges of `NameStartChar`; the last are the first halves of pairs. -/
def nameStartRanges : List (UInt16 × UInt16) :=
  [(58, 58), (65, 90), (95, 95), (97, 122), (0xC0, 0xD6), (0xD8, 0xF6), (0xF8, 0x2FF),
    (0x370, 0x37D), (0x37F, 0x1FFF), (0x200C, 0x200D), (0x2070, 0x218F), (0x2C00, 0x2FEF),
    (0x3001, 0xD7FF), (0xF900, 0xFDCF), (0xFDF0, 0xFFFD), (0xD800, 0xDB7F)]

/-- The ranges that `NameChar` has in addition; the last are the second halves of pairs. -/
def nameRanges : List (UInt16 × UInt16) :=
  [(45, 46), (48, 57), (0xB7, 0xB7), (0x300, 0x36F), (0x203F, 0x2040), (0xDC00, 0xDFFF)]

def isNameStart (c : UInt16) : Bool := nameStartRanges.any fun r => r.1 ≤ c && c ≤ r.2

def isNameUnit (c : UInt16) : Bool :=
  isNameStart c || nameRanges.any fun r => r.1 ≤ c && c ≤ r.2

/-- The units of a code point. -/
def pointUnits (p : ℕ) : JsString :=
  if p < 0x10000 then [.ofNat p]
  else [.ofNat (0xD800 + (p - 0x10000) / 0x400), .ofNat (0xDC00 + (p - 0x10000) % 0x400)]

/-- The value of a digit. -/
def digit (c : UInt16) : Option ℕ :=
  if 48 ≤ c && c ≤ 57 then some (c.toNat - 48)
  else if 65 ≤ upperUnit c && upperUnit c ≤ 70 then some ((upperUnit c).toNat - 55)
  else none

/-- A number in some base, without a sign. -/
def number (base : ℕ) : JsString → Option ℕ
  | [] => none
  | digits => digits.foldlM (fun n c =>
      (digit c).bind fun d => if d < base then some (base * n + d) else none) 0

/-- The character of a number: a surrogate is none. -/
def charOfNumber (p : ℕ) : Option JsString :=
  if p < 0xD800 ∨ 0xE000 ≤ p ∧ p < 0x110000 then
    if (pointUnits p).all isLegal then some (pointUnits p) else none
  else none

/-- What `&r;` stands for. -/
def resolve (r : JsString) : Option JsString :=
  match r with
  | 35 :: 120 :: digits => (number 16 digits).bind charOfNumber
  | 35 :: digits => (number 10 digits).bind charOfNumber
  | _ =>
    if r = js "lt" then some [ch '<']
    else if r = js "gt" then some [ch '>']
    else if r = js "amp" then some [ch '&']
    else if r = js "apos" then some [ch '\'']
    else if r = js "quot" then some [ch '"']
    else none

/-! ## States -/

/-- The name of a start tag, and the attributes read so far. -/
structure Tag where
  name : JsString
  attrs : List (JsString × JsString) := []

/-- Where in a start tag the reader is. -/
inductive InTag where
  | name
  | between (spaced : Bool)
  | attrName (a : JsString)
  | equals (a : JsString)
  | quote (a : JsString)
  | value (a : JsString) (q : UInt16) (v : JsString)
  | reference (a : JsString) (q : UInt16) (v r : JsString)
  | slash

/-- Where the reader is: in text behind a number of closing brackets, or in markup. -/
inductive Ctl where
  | text (brackets : ℕ)
  | lt
  | start (tag : Tag) (place : InTag)
  | stop (name : JsString) (ended : Bool)
  | reference (r : JsString)
  | bang
  | dash
  | comment (dashes : ℕ)
  | cdataOpen (matched : ℕ)
  | cdata (brackets : ℕ)
  | target (r : JsString)
  | targetEnd
  | instruction (mark : Bool)

/-- An element that is open. -/
structure Frame where
  name : JsString
  attrs : List (JsString × JsString)
  kids : List Node

/-- The state of the reader: the open elements, the innermost first, and the root once closed. -/
structure State where
  ctl : Ctl
  stack : List Frame
  root : Option Node

/-- Go on elsewhere. -/
def State.goto (s : State) (ctl : Ctl) : State := { s with ctl }

/-- A closed element. -/
def State.add (s : State) (node : Node) : State :=
  match s.stack with
  | [] => { s with root := some node }
  | f :: fs => { s with stack := { f with kids := f.kids ++ [node] } :: fs }

/-- Text; outside the root only white space. -/
def State.emit (s : State) (cs : JsString) : Option State :=
  match s.stack with
  | [] => if cs.all isSpace then some s else none
  | f :: fs => some { s with stack := { f with kids := f.kids ++ cs.map .unit } :: fs }

/-- May an element start here, with these attributes? -/
def State.admits (s : State) (tag : Tag) : Bool :=
  decide (tag.attrs.map Prod.fst).Nodup && (!s.stack.isEmpty || s.root.isNone)

/-- `<name ...>`. -/
def State.push (s : State) (tag : Tag) : Option State :=
  if s.admits tag then
    some { s with ctl := .text 0, stack := ⟨tag.name, tag.attrs, []⟩ :: s.stack }
  else none

/-- `<name .../>`. -/
def State.pushEmpty (s : State) (tag : Tag) : Option State :=
  if s.admits tag then some ((s.add (.element tag.name tag.attrs [])).goto (.text 0)) else none

/-- `</name>`. -/
def State.pop (s : State) (name : JsString) : Option State :=
  match s.stack with
  | [] => none
  | f :: fs =>
    if f.name = name then
      some (({ s with stack := fs }.add (.element f.name f.attrs f.kids)).goto (.text 0))
    else none

/-! ## The reader -/

/-- A unit between the attributes of a start tag. -/
def stepBetween (s : State) (tag : Tag) (spaced : Bool) (c : UInt16) : Option State :=
  if isSpace c then some (s.goto (.start tag (.between true)))
  else if c = ch '>' then s.push tag
  else if c = ch '/' then some (s.goto (.start tag .slash))
  else if spaced && isNameStart c then some (s.goto (.start tag (.attrName [c])))
  else none

/-- A unit of a start tag. -/
def stepTag (s : State) (tag : Tag) (c : UInt16) : InTag → Option State
  | .name =>
    if isNameUnit c then some (s.goto (.start { tag with name := tag.name ++ [c] } .name))
    else stepBetween s tag false c
  | .between spaced => stepBetween s tag spaced c
  | .attrName a =>
    if isNameUnit c then some (s.goto (.start tag (.attrName (a ++ [c]))))
    else if isSpace c then some (s.goto (.start tag (.equals a)))
    else if c = ch '=' then some (s.goto (.start tag (.quote a)))
    else none
  | .equals a =>
    if isSpace c then some (s.goto (.start tag (.equals a)))
    else if c = ch '=' then some (s.goto (.start tag (.quote a)))
    else none
  | .quote a =>
    if isSpace c then some (s.goto (.start tag (.quote a)))
    else if c = ch '"' ∨ c = ch '\'' then some (s.goto (.start tag (.value a c [])))
    else none
  | .value a q v =>
    if c = q then
      some (s.goto (.start { tag with attrs := tag.attrs ++ [(a, v)] } (.between false)))
    else if c = ch '<' then none
    else if c = ch '&' then some (s.goto (.start tag (.reference a q v [])))
    else some (s.goto (.start tag (.value a q (v ++ [if isSpace c then 32 else c]))))
  | .reference a q v r =>
    if c = ch ';' then (resolve r).map fun t => s.goto (.start tag (.value a q (v ++ t)))
    else if isNameUnit c || c = ch '#' then
      some (s.goto (.start tag (.reference a q v (r ++ [c]))))
    else none
  | .slash => if c = ch '>' then s.pushEmpty tag else none

/-- A unit of markup that is no tag. -/
def stepMarkup (s : State) (c : UInt16) : Ctl → Option State
  | .bang =>
    if c = ch '-' then some (s.goto .dash)
    else if c = ch '[' ∧ s.stack ≠ [] then some (s.goto (.cdataOpen 0))
    else none
  | .dash => if c = ch '-' then some (s.goto (.comment 0)) else none
  | .comment n =>
    if n = 2 then if c = ch '>' then some (s.goto (.text 0)) else none
    else some (s.goto (.comment (if c = ch '-' then n + 1 else 0)))
  | .cdataOpen n =>
    if (js "CDATA[")[n]? = some c then
      some (s.goto (if n = 5 then .cdata 0 else .cdataOpen (n + 1)))
    else none
  | .cdata n =>
    if c = ch ']' then
      if n = 2 then (s.emit [c]).map fun s => s.goto (.cdata 2)
      else some (s.goto (.cdata (n + 1)))
    else if n = 2 ∧ c = ch '>' then some (s.goto (.text 0))
    else (s.emit (List.replicate n (ch ']') ++ [c])).map fun s => s.goto (.cdata 0)
  | .target r =>
    if (if r = [] then isNameStart c else isNameUnit c) then some (s.goto (.target (r ++ [c])))
    else if r = [] ∨ r.map upperUnit = js "XML" then none
    else if isSpace c then some (s.goto (.instruction false))
    else if c = ch '?' then some (s.goto .targetEnd)
    else none
  | .targetEnd => if c = ch '>' then some (s.goto (.text 0)) else none
  | .instruction mark =>
    if mark ∧ c = ch '>' then some (s.goto (.text 0))
    else some (s.goto (.instruction (c = ch '?')))
  | _ => none

/-- A unit of text. -/
def stepText (s : State) (n : ℕ) (c : UInt16) : Option State :=
  if c = ch '<' then some (s.goto .lt)
  else if c = ch '&' then if s.stack = [] then none else some (s.goto (.reference []))
  else if n = 2 ∧ c = ch '>' then none
  else (s.emit [c]).map fun s => s.goto (.text (if c = ch ']' then min 2 (n + 1) else 0))

/-- **The reader**: one unit. -/
def step (s : State) (c : UInt16) : Option State :=
  if isLegal c then
    match s.ctl with
    | .text n => stepText s n c
    | .lt =>
      if c = ch '/' then some (s.goto (.stop [] false))
      else if c = ch '!' then some (s.goto .bang)
      else if c = ch '?' then some (s.goto (.target []))
      else if isNameStart c then some (s.goto (.start { name := [c] } .name))
      else none
    | .start tag place => stepTag s tag c place
    | .stop name ended =>
      if c = ch '>' then s.pop name
      else if isSpace c ∧ name ≠ [] then some (s.goto (.stop name true))
      else if !ended && (if name = [] then isNameStart c else isNameUnit c) then
        some (s.goto (.stop (name ++ [c]) false))
      else none
    | .reference r =>
      if c = ch ';' then (resolve r).bind fun t => (s.emit t).map fun s => s.goto (.text 0)
      else if isNameUnit c || c = ch '#' then some (s.goto (.reference (r ++ [c])))
      else none
    | ctl => stepMarkup s c ctl
  else none

/-- **The reader**: some units. -/
def run : State → JsString → Option State
  | s, [] => some s
  | s, c :: cs => (step s c).bind fun s => run s cs

/-! ## Documents -/

/-- Line ends become `\n`. -/
def normalize : JsString → JsString
  | [] => []
  | [c] => [if c = 13 then 10 else c]
  | c :: d :: cs =>
    if c = 13 then if d = 10 then normalize (d :: cs) else 10 :: normalize (d :: cs)
    else c :: normalize (d :: cs)

/-- Surrogates stand in pairs only. -/
def wellPaired : JsString → Bool
  | [] => true
  | [c] => !isHighSurrogate c && !isLowSurrogate c
  | c :: d :: cs =>
    if isHighSurrogate c then isLowSurrogate d && wellPaired cs
    else !isLowSurrogate c && wellPaired (d :: cs)

/-- The declaration at the front of a document. -/
def xmlDecl : JsString := js "<?xml version=\"1.0\" encoding=\"UTF-8\"?>"

/-- The document without its declaration. -/
def dropDecl (doc : JsString) : JsString :=
  if xmlDecl.isPrefixOf doc then doc.drop xmlDecl.length else doc

/-- Before the root element. -/
def State.init : State := ⟨.text 0, [], none⟩

/-- The root, behind the end of a document. -/
def State.finish (s : State) : Option Node :=
  match s.ctl, s.stack with
  | .text _, [] => s.root
  | _, _ => none

/-- **The root element of a well-formed document.** -/
def read (doc : JsString) : Option Node :=
  if wellPaired doc then (run .init (dropDecl (normalize doc))).bind State.finish else none

end Logix.Xml
