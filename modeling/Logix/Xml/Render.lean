import Mathlib.Data.List.Infix
import Logix.Xml.Reader

/-!
# Writing XML without escapes

* `Attr`, `Part`: attributes, and parts of a document; `render`: their text, in which nothing is
  escaped; `nodes`: what they are;
* `Plain`, `Quoted`: strings that are text, or a value in quotes, as they are; `Part.Ok`;
* `run_start`, `run_stop`, `run_text_from`: what the reader does at a tag, and in text;
* `Reads`, **`Part.Ok.reads`**: it reads the nodes of parts whose strings are plain;
* `read_document`: a document of such parts.
-/

namespace Logix.Xml

/-! ## Parts -/

/-- ` name="value"`, behind white space. -/
structure Attr where
  gap : JsString
  name : JsString
  value : JsString

/-- **A part** of a document: white space, an element with text, or one with parts. -/
inductive Part where
  | space (s : JsString)
  | field (name : JsString) (attrs : List Attr) (text : JsString)
  | group (name : JsString) (attrs : List Attr) (parts : List Part)

def Attr.render (a : Attr) : JsString :=
  a.gap ++ (a.name ++ (ch '=' :: ch '"' :: (a.value ++ [ch '"'])))

/-- A start tag. -/
def renderStart (name : JsString) (attrs : List Attr) : JsString :=
  ch '<' :: (name ++ (attrs.flatMap Attr.render ++ [ch '>']))

/-- An end tag. -/
def renderStop (name : JsString) : JsString := ch '<' :: ch '/' :: (name ++ [ch '>'])

mutual

/-- The text of a part. -/
def Part.render : Part → JsString
  | .space s => s
  | .field name attrs text => renderStart name attrs ++ (text ++ renderStop name)
  | .group name attrs parts => renderStart name attrs ++ (renderAll parts ++ renderStop name)

def renderAll : List Part → JsString
  | [] => []
  | p :: ps => p.render ++ renderAll ps

end

/-- White space in the value of an attribute is blanks. -/
def blank (c : UInt16) : UInt16 := if isSpace c then 32 else c

/-- The attributes as they are read. -/
def attrsOf (attrs : List Attr) : List (JsString × JsString) :=
  attrs.map fun a => (a.name, a.value.map blank)

mutual

/-- The nodes of a part. -/
def Part.nodes : Part → List Node
  | .space s => s.map .unit
  | .field name attrs text => [.element name (attrsOf attrs) (text.map .unit)]
  | .group name attrs parts => [.element name (attrsOf attrs) (nodesOf parts)]

def nodesOf : List Part → List Node
  | [] => []
  | p :: ps => p.nodes ++ nodesOf ps

end

/-! ## Plain strings -/

/-- A unit that is text as it is. -/
def isPlainUnit (c : UInt16) : Bool := isLegal c && c != 13 && c != ch '<' && c != ch '&'

/-- **A string that is text as it is**: legal units, no markup, no carriage return, and no `]]>`. -/
structure Plain (s : JsString) : Prop where
  paired : wellPaired s = true
  units : ∀ c ∈ s, isPlainUnit c = true
  noEnd : ¬ js "]]>" <:+: s

/-- **A string that is a value in quotes as it is.** -/
structure Quoted (s : JsString) : Prop where
  plain : Plain s
  noQuote : ch '"' ∉ s

/-- A name. -/
structure IsName (s : JsString) : Prop where
  paired : wellPaired s = true
  start : s.head?.any isNameStart = true
  units : ∀ c ∈ s, isNameUnit c = true

/-- White space other than a carriage return. -/
def Blank (s : JsString) : Prop := ∀ c ∈ s, isSpace c = true ∧ c ≠ 13

instance (s : JsString) : Decidable (Plain s) :=
  decidable_of_iff (wellPaired s = true ∧ (∀ c ∈ s, isPlainUnit c = true) ∧ ¬ js "]]>" <:+: s)
    ⟨fun h => ⟨h.1, h.2.1, h.2.2⟩, fun h => ⟨h.1, h.2, h.3⟩⟩

instance (s : JsString) : Decidable (Quoted s) :=
  decidable_of_iff (Plain s ∧ ch '"' ∉ s) ⟨fun h => ⟨h.1, h.2⟩, fun h => ⟨h.1, h.2⟩⟩

instance (s : JsString) : Decidable (IsName s) :=
  decidable_of_iff (wellPaired s = true ∧ s.head?.any isNameStart = true ∧
      ∀ c ∈ s, isNameUnit c = true) ⟨fun h => ⟨h.1, h.2.1, h.2.2⟩, fun h => ⟨h.1, h.2, h.3⟩⟩

instance (s : JsString) : Decidable (Blank s) :=
  inferInstanceAs (Decidable (∀ c ∈ s, isSpace c = true ∧ c ≠ 13))

structure Attr.Ok (a : Attr) : Prop where
  gap : Blank a.gap ∧ a.gap ≠ []
  name : IsName a.name
  value : Quoted a.value

/-- Attributes that can stand in one tag. -/
structure AttrsOk (attrs : List Attr) : Prop where
  each : ∀ a ∈ attrs, a.Ok
  nodup : (attrs.map Attr.name).Nodup

/-- **A part whose strings are plain.** -/
inductive Part.Ok : Part → Prop
  | space {s : JsString} (blank : Blank s) : Part.Ok (.space s)
  | field {name : JsString} {attrs : List Attr} {text : JsString} (isName : IsName name)
      (attrsOk : AttrsOk attrs) (plain : Plain text) : Part.Ok (.field name attrs text)
  | group {name : JsString} {attrs : List Attr} {parts : List Part} (isName : IsName name)
      (attrsOk : AttrsOk attrs) (each : ∀ p ∈ parts, p.Ok) : Part.Ok (.group name attrs parts)

theorem Quoted.units {s : JsString} (h : Quoted s) :
    ∀ c ∈ s, isPlainUnit c = true ∧ c ≠ ch '"' :=
  fun c hc => ⟨h.plain.units c hc, fun hq => h.noQuote (hq ▸ hc)⟩

/-! ## Units -/

theorem run_append (s : State) (as bs : JsString) :
    run s (as ++ bs) = (run s as).bind fun s => run s bs := by
  induction as generalizing s with
  | nil => rfl
  | cons a as ih =>
    rw [List.cons_append, run, run]
    cases step s a with
    | none => rfl
    | some s => exact ih s

theorem bind_run_nil (x : Option State) : (x.bind fun s => run s []) = x := by
  cases x <;> rfl

theorem isLegal_of_isSpace {c : UInt16} (h : isSpace c = true) : isLegal c = true := by
  simp [isLegal, h]

theorem isSpace_iff {c : UInt16} : isSpace c = true ↔ c = 32 ∨ c = 9 ∨ c = 10 ∨ c = 13 := by
  simp [isSpace, or_assoc]

theorem isNameStart_of_isSpace {c : UInt16} (h : isSpace c = true) : isNameStart c = false := by
  rcases isSpace_iff.mp h with rfl | rfl | rfl | rfl <;> decide

theorem isNameUnit_of_isSpace {c : UInt16} (h : isSpace c = true) : isNameUnit c = false := by
  rcases isSpace_iff.mp h with rfl | rfl | rfl | rfl <;> decide

theorem isNameUnit_of_isNameStart {c : UInt16} (h : isNameStart c = true) :
    isNameUnit c = true := by
  simp [isNameUnit, h]

theorem isLegal_of_isNameUnit {c : UInt16} (h : isNameUnit c = true) : isLegal c = true := by
  have hstart : (nameStartRanges ++ nameRanges).all (fun r => 32 ≤ r.1 && r.2 < 0xFFFE) = true := by
    decide
  have hrange : ∃ r ∈ nameStartRanges ++ nameRanges, r.1 ≤ c ∧ c ≤ r.2 := by
    simp only [isNameUnit, isNameStart, Bool.or_eq_true, List.any_eq_true, Bool.and_eq_true,
      decide_eq_true_eq] at h
    rcases h with ⟨r, hr, h⟩ | ⟨r, hr, h⟩
    · exact ⟨r, List.mem_append_left _ hr, h⟩
    · exact ⟨r, List.mem_append_right _ hr, h⟩
  obtain ⟨r, hr, hlo, hhi⟩ := hrange
  have hlegal := List.all_eq_true.mp hstart r hr
  simp only [Bool.and_eq_true, decide_eq_true_eq] at hlegal
  obtain ⟨h1, h2⟩ := hlegal
  simp only [isLegal, Bool.or_eq_true, Bool.and_eq_true, decide_eq_true_eq]
  exact .inr ⟨UInt16.le_trans h1 hlo, UInt16.lt_of_le_of_lt hhi h2⟩

theorem isPlainUnit_iff {c : UInt16} :
    isPlainUnit c = true ↔ isLegal c = true ∧ c ≠ 13 ∧ c ≠ ch '<' ∧ c ≠ ch '&' := by
  simp [isPlainUnit, and_assoc]

theorem IsName.exists_cons {name : JsString} (h : IsName name) :
    ∃ c cs, name = c :: cs ∧ isNameStart c = true ∧ ∀ d ∈ cs, isNameUnit d = true := by
  cases name with
  | nil => cases h.start
  | cons c cs => exact ⟨c, cs, rfl, h.start, (List.forall_mem_cons.mp h.units).2⟩

/-! ## Tags -/

variable {s : State} {tag : Tag} {place : InTag}

theorem run_collect (collected : JsString → State) (f : UInt16 → UInt16) {p : UInt16 → Prop}
    (hstep : ∀ r c, p c → step (collected r) c = some (collected (r ++ [f c]))) {cs : JsString}
    (hcs : ∀ c ∈ cs, p c) (r : JsString) :
    run (collected r) cs = some (collected (r ++ cs.map f)) := by
  induction cs generalizing r with
  | nil => rw [run, List.map_nil, List.append_nil]
  | cons c cs ih =>
    obtain ⟨hc, hcs⟩ := List.forall_mem_cons.mp hcs
    rw [run, hstep r c hc, Option.bind_some, ih hcs, List.append_assoc, List.map_cons]
    rfl

theorem run_name {cs : JsString} (hcs : ∀ c ∈ cs, isNameUnit c = true) :
    run (s.goto (.start tag .name)) cs =
      some (s.goto (.start { tag with name := tag.name ++ cs } .name)) := by
  have hrun := run_collect (fun r => s.goto (.start { tag with name := r } .name)) id
    (fun r c hc => ?_) hcs tag.name
  · rwa [List.map_id] at hrun
  · simp [step, State.goto, stepTag, isLegal_of_isNameUnit hc, hc]

theorem run_attrName {a cs : JsString} (hcs : ∀ c ∈ cs, isNameUnit c = true) :
    run (s.goto (.start tag (.attrName a))) cs =
      some (s.goto (.start tag (.attrName (a ++ cs)))) := by
  have hrun := run_collect (fun r => s.goto (.start tag (.attrName r))) id (fun r c hc => ?_) hcs a
  · rwa [List.map_id] at hrun
  · simp [step, State.goto, stepTag, isLegal_of_isNameUnit hc, hc]

theorem run_value {a v cs : JsString} (hcs : ∀ c ∈ cs, isPlainUnit c = true ∧ c ≠ ch '"') :
    run (s.goto (.start tag (.value a (ch '"') v))) cs =
      some (s.goto (.start tag (.value a (ch '"') (v ++ cs.map blank)))) := by
  refine run_collect (fun r => s.goto (.start tag (.value a (ch '"') r))) blank
    (fun r c hc => ?_) hcs v
  obtain ⟨hlegal, -, hlt, hamp⟩ := isPlainUnit_iff.mp hc.1
  simp [step, State.goto, stepTag, hlegal, hlt, hamp, hc.2, blank]

/-- Behind the name of a tag, or behind an attribute. -/
def Rests (place : InTag) : Prop := place = .name ∨ place = .between false

theorem step_of_rests (h : Rests place) {c : UInt16} (hlegal : isLegal c = true)
    (hc : isNameUnit c = false) :
    step (s.goto (.start tag place)) c = stepBetween (s.goto (.start tag place)) tag false c := by
  rcases h with rfl | rfl <;> simp [step, State.goto, stepTag, hlegal, hc]

theorem run_gap {gap : JsString} (hplace : Rests place) (hgap : Blank gap) (hne : gap ≠ []) :
    run (s.goto (.start tag place)) gap = some (s.goto (.start tag (.between true))) := by
  have hspaces : ∀ cs : JsString, Blank cs → run (s.goto (.start tag (.between true))) cs =
      some (s.goto (.start tag (.between true))) := by
    intro cs hcs
    refine run_collect (fun _ => s.goto (.start tag (.between true))) id (fun _ c hc => ?_) hcs []
    simp [step, State.goto, stepTag, stepBetween, isLegal_of_isSpace hc.1, hc.1]
  cases gap with
  | nil => exact absurd rfl hne
  | cons c cs =>
    obtain ⟨⟨hc, -⟩, hcs⟩ := List.forall_mem_cons.mp hgap
    rw [run, step_of_rests hplace (isLegal_of_isSpace hc) (isNameUnit_of_isSpace hc), stepBetween,
      if_pos hc, Option.bind_some]
    exact hspaces cs hcs

theorem run_attr {a : Attr} (hplace : Rests place) (ha : a.Ok) :
    run (s.goto (.start tag place)) a.render = some (s.goto (.start
      { tag with attrs := tag.attrs ++ [(a.name, a.value.map blank)] } (.between false))) := by
  obtain ⟨⟨hgap, hne⟩, hname, hvalue⟩ := ha
  obtain ⟨c, cs, hname, hc, hcs⟩ := hname.exists_cons
  have hstart : step (s.goto (.start tag (.between true))) c =
      some (s.goto (.start tag (.attrName [c]))) := by
    have hunit := isNameUnit_of_isNameStart hc
    have hspace : isSpace c = false := by
      by_contra h
      rw [isNameStart_of_isSpace (by simpa using h)] at hc
      cases hc
    have hgt : c ≠ ch '>' := by
      rintro rfl
      exact absurd hc (by decide)
    have hslash : c ≠ ch '/' := by
      rintro rfl
      exact absurd hc (by decide)
    simp [step, State.goto, stepTag, stepBetween, isLegal_of_isNameUnit hunit, hspace, hgt, hslash,
      hc]
  have hequals : step (s.goto (.start tag (.attrName (c :: cs)))) (ch '=') =
      some (s.goto (.start tag (.quote (c :: cs)))) := rfl
  have hopen : step (s.goto (.start tag (.quote (c :: cs)))) (ch '"') =
      some (s.goto (.start tag (.value (c :: cs) (ch '"') []))) := rfl
  have hclose : ∀ v, step (s.goto (.start tag (.value (c :: cs) (ch '"') v))) (ch '"') =
      some (s.goto (.start { tag with attrs := tag.attrs ++ [(c :: cs, v)] } (.between false))) :=
    fun _ => rfl
  rw [Attr.render, run_append, run_gap hplace hgap hne, Option.bind_some, hname, List.cons_append,
    run, hstart, Option.bind_some, run_append, run_attrName hcs, Option.bind_some,
    List.singleton_append, run, hequals, Option.bind_some, run, hopen, Option.bind_some,
    run_append, run_value hvalue.units, Option.bind_some, run, hclose, Option.bind_some, run]
  rfl

theorem run_attrs {attrs : List Attr} (hplace : Rests place) (hattrs : ∀ a ∈ attrs, a.Ok) :
    ∃ place', Rests place' ∧ run (s.goto (.start tag place)) (attrs.flatMap Attr.render) =
      some (s.goto (.start { tag with attrs := tag.attrs ++ attrsOf attrs } place')) := by
  induction attrs generalizing tag place with
  | nil => exact ⟨place, hplace, by simp [run, attrsOf]⟩
  | cons a attrs ih =>
    obtain ⟨ha, hattrs⟩ := List.forall_mem_cons.mp hattrs
    obtain ⟨place', hplace', hrun⟩ :=
      @ih { tag with attrs := tag.attrs ++ [(a.name, a.value.map blank)] } (.between false)
        (Or.inr rfl) hattrs
    refine ⟨place', hplace', ?_⟩
    rw [List.flatMap_cons, run_append, run_attr hplace ha, Option.bind_some, hrun]
    simp [attrsOf]

theorem step_lt {n : ℕ} (hs : s.ctl = .text n) : step s (ch '<') = some (s.goto .lt) := by
  have hlegal : isLegal (ch '<') = true := by decide
  simp [step, hlegal, hs, stepText]

/-- **A start tag.** -/
theorem run_start {n : ℕ} {name : JsString} {attrs : List Attr} (hs : s.ctl = .text n)
    (hname : IsName name) (hattrs : ∀ a ∈ attrs, a.Ok) :
    run s (renderStart name attrs) = s.push ⟨name, attrsOf attrs⟩ := by
  obtain ⟨c, cs, rfl, hc, hcs⟩ := hname.exists_cons
  have hopen : step (s.goto .lt) c = some (s.goto (.start { name := [c] } .name)) := by
    have hne : ∀ d : Char, isNameStart (ch d) = false → c ≠ ch d := by
      rintro d hd rfl
      rw [hd] at hc
      cases hc
    simp [step, State.goto, isLegal_of_isNameUnit (isNameUnit_of_isNameStart hc), hc,
      hne '/' (by decide), hne '!' (by decide), hne '?' (by decide)]
  obtain ⟨place, hplace, hrun⟩ := @run_attrs s ⟨c :: cs, []⟩ .name attrs (Or.inl rfl) hattrs
  have hgt : ∀ tag, step (s.goto (.start tag place)) (ch '>') = s.push tag := by
    intro tag
    rw [step_of_rests hplace (by decide) (by decide)]
    rfl
  rw [renderStart, List.cons_append, run, step_lt hs, Option.bind_some, run, hopen, Option.bind_some,
    run_append, run_name hcs, Option.bind_some, run_append, List.singleton_append]
  dsimp only
  rw [hrun, Option.bind_some, run, hgt, bind_run_nil]
  rfl

/-- **An end tag.** -/
theorem run_stop {n : ℕ} {name : JsString} (hs : s.ctl = .text n) (hname : IsName name) :
    run s (renderStop name) = s.pop name := by
  obtain ⟨c, cs, rfl, hc, hcs⟩ := hname.exists_cons
  have hslash : step (s.goto .lt) (ch '/') = some (s.goto (.stop [] false)) := rfl
  have hunit : ∀ {r d}, (if r = [] then isNameStart d else isNameUnit d) = true →
      isNameUnit d = true → step (s.goto (.stop r false)) d =
        some (s.goto (.stop (r ++ [d]) false)) := by
    intro r d hd hu
    have hgt : d ≠ ch '>' := by
      rintro rfl
      exact absurd hu (by decide)
    have hspace : isSpace d = false := by
      by_contra h
      rw [isNameUnit_of_isSpace (by simpa using h)] at hu
      cases hu
    simp [step, State.goto, isLegal_of_isNameUnit hu, hgt, hspace, hd]
  have hunits : run (s.goto (.stop [c] false)) cs = some (s.goto (.stop (c :: cs) false)) := by
    have hrun := run_collect (fun r => s.goto (.stop (c :: r) false)) id
      (fun r d hd => hunit (by simpa using hd) hd) hcs []
    rwa [List.map_id] at hrun
  have hgt : ∀ name, step (s.goto (.stop name false)) (ch '>') = s.pop name := by
    intro name
    have hlegal : isLegal (ch '>') = true := by decide
    simp only [step, State.goto, hlegal, if_true, State.pop]
    cases s.stack with
    | nil => rfl
    | cons f fs => cases fs <;> rfl
  rw [renderStop, run, step_lt hs, Option.bind_some, run, hslash, Option.bind_some,
    List.cons_append, run, hunit (by simpa using hc) (isNameUnit_of_isNameStart hc),
    Option.bind_some, run_append, List.nil_append, hunits, Option.bind_some, run, hgt,
    bind_run_nil]

/-! ## Text -/

/-- The closing brackets in a row behind a text, of which `n` stand in front of it. -/
def brackets (n : ℕ) (s : JsString) : ℕ :=
  s.foldl (fun n c => if c = ch ']' then min 2 (n + 1) else 0) n

/-- No `]]>` ends in a text behind `n` closing brackets. -/
def NoEnd : ℕ → JsString → Prop
  | _, [] => True
  | n, c :: cs => ¬ (n = 2 ∧ c = ch '>') ∧ NoEnd (if c = ch ']' then min 2 (n + 1) else 0) cs

theorem noEnd_append {n : ℕ} {as bs : JsString} :
    NoEnd n (as ++ bs) ↔ NoEnd n as ∧ NoEnd (brackets n as) bs := by
  induction as generalizing n with
  | nil => simp [NoEnd, brackets]
  | cons a as ih =>
    rw [List.cons_append, NoEnd, NoEnd, ih, and_assoc]
    rfl

theorem noEnd_of_not_mem {n : ℕ} {s : JsString} (h : ch '>' ∉ s) : NoEnd n s := by
  induction s generalizing n with
  | nil => trivial
  | cons c s ih =>
    obtain ⟨hc, hs⟩ := List.ne_and_not_mem_of_not_mem_cons h
    exact ⟨fun h => hc h.2.symm, ih hs⟩

theorem noEnd_of_not_infix {n : ℕ} {s : JsString}
    (h : ¬ js "]]>" <:+: List.replicate n (ch ']') ++ s) : NoEnd n s := by
  induction s generalizing n with
  | nil => trivial
  | cons c s ih =>
    refine ⟨?_, ih fun hin => h (hin.trans ?_)⟩
    · rintro ⟨rfl, rfl⟩
      exact h ⟨[], s, rfl⟩
    split_ifs with hb
    · -- one bracket more
      have hsplit : List.replicate n (ch ']') ++ c :: s =
          List.replicate (n + 1 - min 2 (n + 1)) (ch ']') ++
            (List.replicate (min 2 (n + 1)) (ch ']') ++ s) := by
        rw [← List.append_assoc, List.replicate_append_replicate,
          Nat.sub_add_cancel (min_le_right _ _), List.replicate_succ', hb]
        simp
      rw [hsplit]
      exact (List.suffix_append _ _).isInfix
    · exact ⟨List.replicate n (ch ']') ++ [c], [], by simp⟩

theorem Plain.noEnd_zero {s : JsString} (h : Plain s) : NoEnd 0 s := noEnd_of_not_infix h.noEnd

section Text

variable {f : Frame} {fs : List Frame} {root : Option Node}

theorem run_text_from {n : ℕ} {cs : JsString} (hcs : ∀ c ∈ cs, isPlainUnit c = true)
    (hend : NoEnd n cs) : run ⟨.text n, f :: fs, root⟩ cs =
      some ⟨.text (brackets n cs), { f with kids := f.kids ++ cs.map .unit } :: fs, root⟩ := by
  induction cs generalizing n f with
  | nil => simp [run, brackets]
  | cons c cs ih =>
    obtain ⟨hc, hcs⟩ := List.forall_mem_cons.mp hcs
    obtain ⟨hlegal, -, hlt, hamp⟩ := isPlainUnit_iff.mp hc
    obtain ⟨hgt, hend⟩ := hend
    have hstep : step ⟨.text n, f :: fs, root⟩ c =
        some ⟨.text (if c = ch ']' then min 2 (n + 1) else 0),
          { f with kids := f.kids ++ [.unit c] } :: fs, root⟩ := by
      simp [step, hlegal, stepText, hlt, hamp, hgt, State.emit, State.goto]
    rw [run, hstep, Option.bind_some, ih hcs hend]
    simp [brackets]

theorem isPlainUnit_of_isSpace {c : UInt16} (h : isSpace c = true ∧ c ≠ 13) :
    isPlainUnit c = true := by
  rcases isSpace_iff.mp h.1 with rfl | rfl | rfl | rfl
  · decide
  · decide
  · decide
  · exact absurd rfl h.2

theorem push_attrsOf {s : State} {name : JsString} {attrs : List Attr} (hattrs : AttrsOk attrs)
    (hs : s.stack ≠ [] ∨ s.root = none) : s.push ⟨name, attrsOf attrs⟩ =
      some ⟨.text 0, ⟨name, attrsOf attrs, []⟩ :: s.stack, s.root⟩ := by
  have hnodup : ((attrsOf attrs).map Prod.fst).Nodup := by
    simpa [attrsOf, Function.comp_def] using hattrs.nodup
  have hadmits : s.admits ⟨name, attrsOf attrs⟩ = true := by
    simpa [State.admits, hnodup] using hs
  rw [State.push, if_pos hadmits]

theorem run_element {n : ℕ} {name content : JsString} {attrs : List Attr} {nodes : List Node}
    (hname : IsName name) (hattrs : AttrsOk attrs)
    (hcontent : ∀ g fs, g.kids = [] → ∃ n', run ⟨.text 0, g :: fs, root⟩ content =
      some ⟨.text n', { g with kids := nodes } :: fs, root⟩) :
    run ⟨.text n, f :: fs, root⟩ (renderStart name attrs ++ (content ++ renderStop name)) =
      some ⟨.text 0, { f with kids := f.kids ++ [.element name (attrsOf attrs) nodes] } :: fs,
        root⟩ := by
  have hpush : State.push ⟨.text n, f :: fs, root⟩ ⟨name, attrsOf attrs⟩ =
      some ⟨.text 0, ⟨name, attrsOf attrs, []⟩ :: f :: fs, root⟩ :=
    push_attrsOf hattrs (.inl (by simp))
  obtain ⟨n', hrun⟩ := hcontent ⟨name, attrsOf attrs, []⟩ (f :: fs) rfl
  rw [run_append, run_start rfl hname hattrs.each, hpush, Option.bind_some, run_append, hrun,
    Option.bind_some, run_stop rfl hname]
  simp [State.pop, State.add, State.goto]

end Text

/-- **The reader reads nodes** from a text, inside the root element. -/
def Reads (text : JsString) (nodes : List Node) : Prop :=
  ∀ n f fs root, ∃ n', run ⟨.text n, f :: fs, root⟩ text =
    some ⟨.text n', { f with kids := f.kids ++ nodes } :: fs, root⟩

theorem Reads.append {a b : JsString} {as bs : List Node} (ha : Reads a as) (hb : Reads b bs) :
    Reads (a ++ b) (as ++ bs) := by
  intro n f fs root
  obtain ⟨n₁, h₁⟩ := ha n f fs root
  obtain ⟨n₂, h₂⟩ := hb n₁ { f with kids := f.kids ++ as } fs root
  refine ⟨n₂, ?_⟩
  rw [run_append, h₁, Option.bind_some, h₂]
  simp

theorem reads_blank {s : JsString} (hs : Blank s) : Reads s (s.map .unit) := by
  intro n f fs root
  have hgt : ch '>' ∉ s := fun h => absurd (hs _ h).1 (by decide)
  exact ⟨_, run_text_from (fun c hc => isPlainUnit_of_isSpace (hs c hc)) (noEnd_of_not_mem hgt)⟩

theorem reads_parts {ps : List Part} (h : ∀ p ∈ ps, Reads p.render p.nodes) :
    Reads (renderAll ps) (nodesOf ps) := by
  induction ps with
  | nil => exact fun n f fs root => ⟨n, by simp [renderAll, nodesOf, run]⟩
  | cons p ps ih =>
    obtain ⟨hp, hps⟩ := List.forall_mem_cons.mp h
    exact hp.append (ih hps)

/-- **The nodes of a part** are read from its text. -/
theorem Part.Ok.reads {p : Part} (hp : p.Ok) : Reads p.render p.nodes := by
  induction hp with
  | space hblank => exact reads_blank hblank
  | field isName attrsOk plain =>
    refine fun n f fs root => ⟨0, run_element isName attrsOk fun g gs hg => ?_⟩
    have := @run_text_from g gs root 0 _ plain.units plain.noEnd_zero
    exact ⟨_, by simpa [hg] using this⟩
  | group isName attrsOk each ih =>
    refine fun n f fs root => ⟨0, run_element isName attrsOk fun g gs hg => ?_⟩
    simpa [hg] using reads_parts ih 0 g gs root

/-! ## Documents -/

theorem normalize_cons {c : UInt16} (hc : c ≠ 13) (s : JsString) :
    normalize (c :: s) = c :: normalize s := by
  cases s <;> simp [normalize, hc]

theorem normalize_append {s : JsString} (hs : (13 : UInt16) ∉ s) (t : JsString) :
    normalize (s ++ t) = s ++ normalize t := by
  induction s with
  | nil => rfl
  | cons c s ih =>
    obtain ⟨hc, hs⟩ := List.ne_and_not_mem_of_not_mem_cons hs
    rw [List.cons_append, normalize_cons hc.symm, ih hs, List.cons_append]

theorem wellPaired_append {a b : JsString} (ha : wellPaired a = true) (hb : wellPaired b = true) :
    wellPaired (a ++ b) = true := by
  induction a using wellPaired.induct with
  | case1 => exact hb
  | case2 c =>
    cases b with
    | nil => exact ha
    | cons d b => simp_all [wellPaired]
  | case3 c d cs h ih => simp_all [wellPaired]
  | case4 c d cs h ih => simp_all [wellPaired]

/-- A text in which nothing has to change before it is read. -/
def Clean (s : JsString) : Prop := (13 : UInt16) ∉ s ∧ wellPaired s = true

theorem Clean.append {a b : JsString} (ha : Clean a) (hb : Clean b) : Clean (a ++ b) :=
  ⟨fun h => (List.mem_append.mp h).elim ha.1 hb.1, wellPaired_append ha.2 hb.2⟩

theorem Plain.clean {s : JsString} (h : Plain s) : Clean s :=
  ⟨fun h13 => (isPlainUnit_iff.mp (h.units _ h13)).2.1 rfl, h.paired⟩

theorem Quoted.clean {s : JsString} (h : Quoted s) : Clean s := h.plain.clean

theorem IsName.clean {s : JsString} (h : IsName s) : Clean s :=
  ⟨fun h13 => absurd (h.units _ h13) (by decide), h.paired⟩

theorem Blank.clean {s : JsString} (h : Blank s) : Clean s := by
  refine ⟨fun h13 => (h _ h13).2 rfl, ?_⟩
  induction s with
  | nil => rfl
  | cons c s ih =>
    obtain ⟨⟨hc, -⟩, hs⟩ := List.forall_mem_cons.mp h
    have hone : wellPaired [c] = true := by
      rcases isSpace_iff.mp hc with rfl | rfl | rfl | rfl <;> rfl
    exact wellPaired_append hone (ih hs)

theorem Clean.cons {c : UInt16} {s : JsString} (hc : Clean [c]) (hs : Clean s) : Clean (c :: s) :=
  hc.append hs

theorem Attr.Ok.clean {a : Attr} (h : a.Ok) : Clean a.render := by
  have hmark : ∀ c ∈ [ch '=', ch '"'], Clean [c] := by
    simp [Clean, wellPaired]
    decide
  refine h.gap.1.clean.append (h.name.clean.append ?_)
  refine .cons (hmark _ (by simp)) (.cons (hmark _ (by simp)) ?_)
  exact h.value.clean.append (hmark _ (by simp))

theorem clean_renderStart {name : JsString} {attrs : List Attr} (hname : IsName name)
    (hattrs : ∀ a ∈ attrs, a.Ok) : Clean (renderStart name attrs) := by
  have hall : Clean (attrs.flatMap Attr.render) := by
    induction attrs with
    | nil => exact ⟨List.not_mem_nil, rfl⟩
    | cons a attrs ih =>
      obtain ⟨ha, hattrs⟩ := List.forall_mem_cons.mp hattrs
      rw [List.flatMap_cons]
      exact ha.clean.append (ih hattrs)
  refine .cons ⟨by decide, rfl⟩ (hname.clean.append (hall.append ⟨by decide, rfl⟩))

theorem clean_renderStop {name : JsString} (hname : IsName name) : Clean (renderStop name) :=
  .cons ⟨by decide, rfl⟩ (.cons ⟨by decide, rfl⟩ (hname.clean.append ⟨by decide, rfl⟩))

theorem clean_renderAll {ps : List Part} (h : ∀ p ∈ ps, Clean p.render) :
    Clean (renderAll ps) := by
  induction ps with
  | nil => exact ⟨List.not_mem_nil, rfl⟩
  | cons p ps ih =>
    obtain ⟨hp, hps⟩ := List.forall_mem_cons.mp h
    exact hp.append (ih hps)

theorem Part.Ok.clean {p : Part} (h : p.Ok) : Clean p.render := by
  induction h with
  | space hblank => exact hblank.clean
  | field isName attrsOk plain =>
    exact (clean_renderStart isName attrsOk.each).append
      (plain.clean.append (clean_renderStop isName))
  | group isName attrsOk each ih =>
    exact (clean_renderStart isName attrsOk.each).append
      ((clean_renderAll ih).append (clean_renderStop isName))

theorem run_blank_outside {gap : JsString} (hgap : Blank gap) : run .init gap = some .init := by
  induction gap with
  | nil => rfl
  | cons c gap ih =>
    obtain ⟨hc, hgap⟩ := List.forall_mem_cons.mp hgap
    have hstep : step .init c = some .init := by
      rcases isSpace_iff.mp hc.1 with rfl | rfl | rfl | rfl <;> rfl
    rw [run, hstep, Option.bind_some, ih hgap]

theorem normalize_of_not_mem {s : JsString} (h : (13 : UInt16) ∉ s) : normalize s = s := by
  have hnorm := normalize_append h []
  rwa [show normalize [] = [] from rfl, List.append_nil] at hnorm

theorem clean_xmlDecl : Clean xmlDecl := ⟨by decide +kernel, by decide +kernel⟩

theorem dropDecl_append (s : JsString) : dropDecl (xmlDecl ++ s) = s := by
  rw [dropDecl, if_pos (by simp), List.drop_left]

/-- **A document of plain parts** is read as its nodes. -/
theorem read_document {name gap : JsString} {attrs : List Attr} {parts : List Part}
    (hgap : Blank gap) (h : (Part.group name attrs parts).Ok) :
    read (xmlDecl ++ (gap ++ (Part.group name attrs parts).render)) =
      some (.element name (attrsOf attrs) (nodesOf parts)) := by
  have hclean : Clean (xmlDecl ++ (gap ++ (Part.group name attrs parts).render)) :=
    clean_xmlDecl.append (hgap.clean.append h.clean)
  cases h with
  | group isName attrsOk each =>
    have hpush : State.push .init ⟨name, attrsOf attrs⟩ =
        some ⟨.text 0, [⟨name, attrsOf attrs, []⟩], none⟩ :=
      push_attrsOf attrsOk (.inr rfl)
    obtain ⟨n, hrun⟩ := reads_parts (fun p hp => (each p hp).reads) 0
      ⟨name, attrsOf attrs, []⟩ [] none
    rw [read, if_pos hclean.2, normalize_of_not_mem hclean.1, dropDecl_append, run_append,
      run_blank_outside hgap, Option.bind_some,
      Part.render, run_append, run_start rfl isName attrsOk.each, hpush, Option.bind_some,
      run_append, hrun, Option.bind_some, run_stop rfl isName]
    simp [State.pop, State.add, State.goto, State.finish]

theorem plain_of_mem {s units : JsString} (hs : ∀ c ∈ s, c ∈ units)
    (hunits : ∀ c ∈ units, isPlainUnit c = true ∧ c < 0x80 ∧ c ≠ ch ']') : Plain s := by
  refine ⟨?_, fun c hc => (hunits c (hs c hc)).1, fun h => ?_⟩
  · induction s with
    | nil => rfl
    | cons c s ih =>
      obtain ⟨hc, hs⟩ := List.forall_mem_cons.mp hs
      have hlt : c.toNat < 0x80 := by
        simpa [UInt16.lt_iff_toNat_lt] using (hunits c hc).2.1
      have hone : wellPaired [c] = true := by
        simp only [wellPaired, isHighSurrogate, isLowSurrogate, UInt16.le_iff_toNat_le,
          UInt16.lt_iff_toNat_lt, UInt16.reduceToNat]
        have h1 : ¬ 55296 ≤ c.toNat := by omega
        have h2 : ¬ 56320 ≤ c.toNat := by omega
        simp [h1, h2]
      exact wellPaired_append hone (ih hs)
  · exact (hunits _ (hs _ (h.subset (by decide : ch ']' ∈ js "]]>")))).2.2 rfl

/-! ## Literals -/

theorem js_append (a b : String) : js (a ++ b) = js a ++ js b := by
  simp [js]

theorem js_empty : js "" = [] := rfl

theorem js_append_append (a b : String) (t : JsString) :
    js a ++ (js b ++ t) = js (a ++ b) ++ t := by
  rw [js_append, List.append_assoc]

theorem renderStop_js (name : String) : renderStop (js name) = js ("</" ++ name ++ ">") := by
  rw [js_append, js_append]
  rfl

theorem renderStart_js (name : String) (attrs : List Attr) : renderStart (js name) attrs =
    js ("<" ++ name) ++ (attrs.flatMap Attr.render ++ js ">") := by
  rw [js_append]
  rfl

theorem Attr.render_js (gap : JsString) (name : String) (value : JsString) :
    Attr.render ⟨gap, js name, value⟩ = gap ++ (js (name ++ "=\"") ++ (value ++ js "\"")) := by
  rw [js_append, List.append_assoc]
  rfl

theorem renderAll_append (ps qs : List Part) :
    renderAll (ps ++ qs) = renderAll ps ++ renderAll qs := by
  induction ps with
  | nil => rfl
  | cons p ps ih => rw [List.cons_append, renderAll, renderAll, ih, List.append_assoc]

theorem nodesOf_append (ps qs : List Part) : nodesOf (ps ++ qs) = nodesOf ps ++ nodesOf qs := by
  induction ps with
  | nil => rfl
  | cons p ps ih => rw [List.cons_append, nodesOf, nodesOf, ih, List.append_assoc]

theorem kidsAt_append (name : JsString) (path : List JsString) (as bs : List Node) :
    kidsAt (name :: path) (as ++ bs) = kidsAt (name :: path) as ++ kidsAt (name :: path) bs := by
  simp [kidsAt, named]

theorem kidsAt_units (name : JsString) (path : List JsString) (s : JsString) :
    kidsAt (name :: path) (s.map .unit) = [] := by
  have hnone : named name (s.map .unit) = [] := by
    simp [named, List.filterMap_map]
  rw [kidsAt, hnone, List.flatMap_nil]

theorem textOf_units (s : JsString) : textOf (s.map .unit) = s := by
  simp [textOf, List.filterMap_map]

end Logix.Xml
