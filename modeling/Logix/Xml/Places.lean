import Logix.Xml.Fields

/-!
# The place of a field in a document

* `Level`: an open element, with the parts in front of a place and behind it; `plug`: the document
  around a place; `opens`, `closes`: its text in front of the place, and behind it;
* `Calm`: text without references and CDATA sections; what follows the text of a field is such;
* **`plain_of_read`**: a field that is read back from its place in a document is plain.
-/

namespace Logix.Xml

/-! ## Text without references and CDATA sections -/

/-- No bracket at the end, and no `]]>`. -/
def Resets (s : JsString) : Prop := NoEnd 0 s ∧ brackets 0 s = 0

theorem brackets_append (n : ℕ) (a b : JsString) :
    brackets n (a ++ b) = brackets (brackets n a) b := List.foldl_append

theorem Resets.append {a b : JsString} (ha : Resets a) (hb : Resets b) : Resets (a ++ b) := by
  constructor
  · exact noEnd_append.mpr ⟨ha.1, by rw [ha.2]; exact hb.1⟩
  · rw [brackets_append, ha.2, hb.2]

theorem resets_of_not_mem {s : JsString} (h : ch ']' ∉ s) : Resets s := by
  induction s with
  | nil => exact ⟨trivial, rfl⟩
  | cons c s ih =>
    obtain ⟨hc, hs⟩ := List.ne_and_not_mem_of_not_mem_cons h
    obtain ⟨hend, hbrackets⟩ := ih hs
    have h0 : (if c = ch ']' then min 2 (0 + 1) else 0) = 0 := if_neg hc.symm
    refine ⟨⟨by simp, by rwa [h0]⟩, ?_⟩
    rw [brackets, List.foldl_cons, h0]
    exact hbrackets

/-- **Calm text** has no reference, no CDATA section and no end of one, wherever it stands. -/
structure Calm (s : JsString) : Prop where
  quiet : ∀ t, Quiet t → Quiet (s ++ t)
  noEnd : ∀ n, NoEnd n s

theorem Calm.append {a b : JsString} (ha : Calm a) (hb : Calm b) : Calm (a ++ b) where
  quiet t ht := by
    rw [List.append_assoc]
    exact ha.quiet _ (hb.quiet t ht)
  noEnd n := noEnd_append.mpr ⟨ha.noEnd n, hb.noEnd _⟩

theorem quiet_append {s t : JsString} (hs : ∀ c ∈ s, c ≠ ch '&' ∧ c ≠ ch '<') (ht : Quiet t) :
    Quiet (s ++ t) := by
  induction s with
  | nil => exact ht
  | cons c s ih =>
    obtain ⟨⟨hamp, hlt⟩, hs⟩ := List.forall_mem_cons.mp hs
    exact ⟨hamp, fun h => absurd h hlt, ih hs⟩

theorem quiet_lt {c : UInt16} {s : JsString} (hc : c ≠ ch '!') (hs : Quiet (c :: s)) :
    Quiet (ch '<' :: c :: s) :=
  ⟨by decide, fun _ h => hc (Option.some.inj h), hs⟩

theorem noEnd_lt {n : ℕ} {s : JsString} (hs : NoEnd 0 s) : NoEnd n (ch '<' :: s) := by
  have hgt : ch '<' ≠ ch '>' := by decide
  refine ⟨fun h => hgt h.2, ?_⟩
  rwa [if_neg (by decide)]

/-! ## Tags and parts -/

theorem IsName.no_markup {name : JsString} (h : IsName name) :
    (∀ c ∈ name, c ≠ ch '&' ∧ c ≠ ch '<') ∧ ch ']' ∉ name := by
  have hne : ∀ d : Char, isNameUnit (ch d) = false → ch d ∉ name := by
    intro d hd hmem
    rw [h.units _ hmem] at hd
    cases hd
  refine ⟨fun c hc => ⟨?_, ?_⟩, hne ']' (by decide)⟩
  · rintro rfl
    exact hne '&' (by decide) hc
  · rintro rfl
    exact hne '<' (by decide) hc

theorem Blank.no_markup {s : JsString} (h : Blank s) :
    (∀ c ∈ s, c ≠ ch '&' ∧ c ≠ ch '<') ∧ ch ']' ∉ s := by
  refine ⟨fun c hc => ⟨?_, ?_⟩, fun hmem => absurd (h _ hmem).1 (by decide)⟩
  · rintro rfl
    exact absurd (h _ hc).1 (by decide)
  · rintro rfl
    exact absurd (h _ hc).1 (by decide)

theorem Plain.no_markup {s : JsString} (h : Plain s) : ∀ c ∈ s, c ≠ ch '&' ∧ c ≠ ch '<' := by
  intro c hc
  obtain ⟨-, -, hlt, hamp⟩ := isPlainUnit_iff.mp (h.units c hc)
  exact ⟨hamp, hlt⟩

theorem Attr.Ok.no_markup {a : Attr} (h : a.Ok) : ∀ c ∈ a.render, c ≠ ch '&' ∧ c ≠ ch '<' := by
  intro c hc
  have hmark : ∀ c ∈ [ch '=', ch '"'], c ≠ ch '&' ∧ c ≠ ch '<' := by decide
  simp only [Attr.render, List.mem_append, List.mem_cons, List.not_mem_nil, or_false] at hc
  rcases hc with hc | hc | rfl | rfl | hc | rfl
  · exact h.gap.1.no_markup.1 c hc
  · exact h.name.no_markup.1 c hc
  · exact hmark _ (by simp)
  · exact hmark _ (by simp)
  · exact h.value.plain.no_markup c hc
  · exact hmark _ (by simp)

theorem Attr.Ok.resets {a : Attr} (h : a.Ok) : Resets a.render := by
  have hequals : Resets [ch '=', ch '"'] := resets_of_not_mem (by decide)
  have hvalue : Resets (a.value ++ [ch '"']) := by
    have hquote : ∀ n, brackets n [ch '"'] = 0 := by
      intro n
      rw [brackets, List.foldl_cons, if_neg (by decide)]
      rfl
    refine ⟨noEnd_append.mpr ⟨h.value.plain.noEnd_zero, ?_⟩, ?_⟩
    · exact noEnd_of_not_mem (by decide)
    · rw [brackets_append, hquote]
  exact (resets_of_not_mem h.gap.1.no_markup.2).append
    ((resets_of_not_mem h.name.no_markup.2).append (hequals.append hvalue))

theorem calm_tag {c : UInt16} {s : JsString} (hc : c ≠ ch '!')
    (hunits : ∀ d ∈ c :: s, d ≠ ch '&' ∧ d ≠ ch '<') (hs : Resets (c :: s)) :
    Calm (ch '<' :: c :: s) ∧ ∀ n, brackets n (ch '<' :: c :: s) = 0 := by
  refine ⟨⟨fun t ht => ?_, fun n => noEnd_lt hs.1⟩, fun n => ?_⟩
  · exact quiet_lt hc (quiet_append hunits ht)
  · rw [brackets, List.foldl_cons, if_neg (by decide)]
    exact hs.2

theorem calm_renderStop {name : JsString} (hname : IsName name) : Calm (renderStop name) := by
  have hunits : ∀ d ∈ ch '/' :: (name ++ [ch '>']), d ≠ ch '&' ∧ d ≠ ch '<' := by
    intro d hd
    simp only [List.mem_cons, List.mem_append, List.not_mem_nil, or_false] at hd
    rcases hd with rfl | hd | rfl
    · decide
    · exact hname.no_markup.1 d hd
    · decide
  have hresets : Resets ([ch '/'] ++ (name ++ [ch '>'])) :=
    (resets_of_not_mem (by decide)).append
      ((resets_of_not_mem hname.no_markup.2).append (resets_of_not_mem (by decide)))
  exact (calm_tag (by decide) hunits hresets).1

theorem calm_renderStart {name : JsString} {attrs : List Attr} (hname : IsName name)
    (hattrs : ∀ a ∈ attrs, a.Ok) :
    Calm (renderStart name attrs) ∧ ∀ n, brackets n (renderStart name attrs) = 0 := by
  have hunits : ∀ d ∈ name ++ (attrs.flatMap Attr.render ++ [ch '>']),
      d ≠ ch '&' ∧ d ≠ ch '<' := by
    intro d hd
    simp only [List.mem_append, List.mem_flatMap, List.mem_singleton] at hd
    rcases hd with hd | ⟨a, ha, hd⟩ | rfl
    · exact hname.no_markup.1 d hd
    · exact (hattrs a ha).no_markup d hd
    · decide
  have hall : Resets (attrs.flatMap Attr.render) := by
    clear hunits
    induction attrs with
    | nil => exact ⟨trivial, rfl⟩
    | cons a attrs ih =>
      obtain ⟨ha, hattrs⟩ := List.forall_mem_cons.mp hattrs
      exact ha.resets.append (ih hattrs)
  have hresets : Resets (name ++ (attrs.flatMap Attr.render ++ [ch '>'])) :=
    (resets_of_not_mem hname.no_markup.2).append (hall.append (resets_of_not_mem (by decide)))
  obtain ⟨c, cs, rfl, hc, -⟩ := hname.exists_cons
  refine calm_tag ?_ hunits hresets
  rintro rfl
  exact absurd hc (by decide)

theorem calm_renderAll {ps : List Part} (h : ∀ p ∈ ps, Calm p.render) : Calm (renderAll ps) := by
  induction ps with
  | nil => exact ⟨fun _ ht => ht, fun _ => trivial⟩
  | cons p ps ih =>
    obtain ⟨hp, hps⟩ := List.forall_mem_cons.mp h
    exact hp.append (ih hps)

theorem Part.Ok.calm {p : Part} (h : p.Ok) : Calm p.render := by
  induction h with
  | space blank =>
    rename_i s
    refine ⟨fun t ht => quiet_append blank.no_markup.1 ht, fun n => noEnd_of_not_mem fun hgt => ?_⟩
    exact absurd (blank _ hgt).1 (by decide)
  | field isName attrsOk plain =>
    rename_i name attrs text
    obtain ⟨hstart, hbrackets⟩ := calm_renderStart isName attrsOk.each
    have hstop := calm_renderStop isName
    refine ⟨fun t ht => ?_, fun n => ?_⟩
    · rw [Part.render, List.append_assoc, List.append_assoc]
      exact hstart.quiet _ (quiet_append plain.no_markup (hstop.quiet t ht))
    · refine noEnd_append.mpr ⟨hstart.noEnd n, ?_⟩
      rw [hbrackets]
      exact noEnd_append.mpr ⟨plain.noEnd_zero, hstop.noEnd _⟩
  | group isName attrsOk each ih =>
    rename_i name attrs parts
    exact (calm_renderStart isName attrsOk.each).1.append
      ((calm_renderAll ih).append (calm_renderStop isName))

/-! ## Places -/

/-- **An open element**, and its parts in front of a place and behind it. -/
structure Level where
  name : JsString
  attrs : List Attr
  before : List Part
  after : List Part

/-- The parts of the level are plain. -/
structure Level.Ok (l : Level) : Prop where
  isName : IsName l.name
  attrsOk : AttrsOk l.attrs
  before : ∀ p ∈ l.before, p.Ok
  after : ∀ p ∈ l.after, p.Ok

/-- **The document** around a place, the innermost level first. -/
def plug : List Level → Part → Part
  | [], p => p
  | l :: ls, p => plug ls (.group l.name l.attrs (l.before ++ p :: l.after))

/-- The parts of a part. -/
def Part.parts : Part → List Part
  | .group _ _ parts => parts
  | .space _ | .field .. => []

/-- The text in front of the place. -/
def opens : List Level → JsString
  | [] => []
  | l :: ls => opens ls ++ (renderStart l.name l.attrs ++ renderAll l.before)

/-- The text behind the place. -/
def closes : List Level → JsString
  | [] => []
  | l :: ls => renderAll l.after ++ (renderStop l.name ++ closes ls)

/-- What is open at the place. -/
def Level.frame (l : Level) : Frame := ⟨l.name, attrsOf l.attrs, nodesOf l.before⟩

theorem ok_of_plug {ls : List Level} {p : Part} (h : (plug ls p).Ok) :
    (∀ l ∈ ls, l.Ok) ∧ p.Ok := by
  induction ls generalizing p with
  | nil => exact ⟨by simp, h⟩
  | cons l ls ih =>
    obtain ⟨hls, hgroup⟩ := ih h
    cases hgroup with
    | group isName attrsOk each =>
      have hbefore : ∀ q ∈ l.before, q.Ok := fun q hq => each q (List.mem_append_left _ hq)
      have hp : ∀ q ∈ p :: l.after, q.Ok := fun q hq => each q (List.mem_append_right _ hq)
      obtain ⟨hp, hafter⟩ := List.forall_mem_cons.mp hp
      exact ⟨List.forall_mem_cons.mpr ⟨⟨isName, attrsOk, hbefore, hafter⟩, hls⟩, hp⟩

theorem render_plug (ls : List Level) (p : Part) :
    (plug ls p).render = opens ls ++ (p.render ++ closes ls) := by
  induction ls generalizing p with
  | nil => simp [plug, opens, closes]
  | cons l ls ih =>
    rw [plug, ih, Part.render, renderAll_append, renderAll, opens, closes]
    simp only [List.append_assoc]

variable {ls : List Level}

theorem run_opens (hls : ∀ l ∈ ls, l.Ok) :
    ∃ n, run .init (opens ls) = some ⟨.text n, ls.map Level.frame, none⟩ := by
  induction ls with
  | nil => exact ⟨0, rfl⟩
  | cons l ls ih =>
    obtain ⟨hl, hls⟩ := List.forall_mem_cons.mp hls
    obtain ⟨n, hrun⟩ := ih hls
    have hpush : State.push ⟨.text n, ls.map Level.frame, none⟩ ⟨l.name, attrsOf l.attrs⟩ =
        some ⟨.text 0, ⟨l.name, attrsOf l.attrs, []⟩ :: ls.map Level.frame, none⟩ :=
      push_attrsOf hl.attrsOk (.inr rfl)
    obtain ⟨n', hbefore⟩ := reads_parts (fun p hp => (hl.before p hp).reads) 0
      ⟨l.name, attrsOf l.attrs, []⟩ (ls.map Level.frame) none
    refine ⟨n', ?_⟩
    rw [opens, run_append, hrun, Option.bind_some, run_append,
      run_start rfl hl.isName hl.attrsOk.each, hpush, Option.bind_some, hbefore]
    rfl

theorem calm_closes (hls : ∀ l ∈ ls, l.Ok) : Calm (closes ls) := by
  induction ls with
  | nil => exact ⟨fun _ ht => ht, fun _ => trivial⟩
  | cons l ls ih =>
    obtain ⟨hl, hls⟩ := List.forall_mem_cons.mp hls
    exact (calm_renderAll fun p hp => (hl.after p hp).calm).append
      ((calm_renderStop hl.isName).append (ih hls))

theorem clean_opens (hls : ∀ l ∈ ls, l.Ok) : Clean (opens ls) := by
  induction ls with
  | nil => exact ⟨List.not_mem_nil, rfl⟩
  | cons l ls ih =>
    obtain ⟨hl, hls⟩ := List.forall_mem_cons.mp hls
    exact (ih hls).append ((clean_renderStart hl.isName hl.attrsOk.each).append
      (clean_renderAll fun p hp => (hl.before p hp).clean))

theorem clean_closes (hls : ∀ l ∈ ls, l.Ok) : Clean (closes ls) := by
  induction ls with
  | nil => exact ⟨List.not_mem_nil, rfl⟩
  | cons l ls ih =>
    obtain ⟨hl, hls⟩ := List.forall_mem_cons.mp hls
    exact (clean_renderAll fun p hp => (hl.after p hp).clean).append
      ((clean_renderStop hl.isName).append (ih hls))

/-- **A field that is read back from its place** is plain: behind what the path leads to before the
place stand the kids of the field, and their text is that of the field only if it is plain. -/
theorem plain_of_read {name gap f : JsString} {attrs : List Attr} {root : Node}
    (hgap : Blank gap) (hls : ∀ l ∈ ls, l.Ok) (hname : IsName name) (hattrs : AttrsOk attrs)
    (h : read (xmlDecl ++ (gap ++ (plug ls (.field name attrs f)).render)) = some root) :
    ∃ kids more, kidsAt (fullPath (ls.map Level.frame) [name]) [root] =
      seenAt (ls.map Level.frame) [name] ++ (kids :: more) ∧ (textOf kids = f → Plain f) := by
  have hcalm : Calm (renderStop name ++ closes ls) :=
    (calm_renderStop hname).append (calm_closes hls)
  have hfollows : Follows ⟨name, attrsOf attrs, []⟩ (renderStop name ++ closes ls) :=
    ⟨hname, ⟨_, rfl⟩, by simpa using hcalm.quiet [] trivial, hcalm.noEnd⟩
  have hfront : Clean (xmlDecl ++ (gap ++ (opens ls ++ renderStart name attrs))) :=
    clean_xmlDecl.append (hgap.clean.append
      ((clean_opens hls).append (clean_renderStart hname hattrs.each)))
  have hback : Clean (renderStop name ++ closes ls) :=
    (clean_renderStop hname).append (clean_closes hls)
  have hdoc : xmlDecl ++ (gap ++ (plug ls (.field name attrs f)).render) =
      (xmlDecl ++ (gap ++ (opens ls ++ renderStart name attrs))) ++
        (f ++ (renderStop name ++ closes ls)) := by
    rw [render_plug, Part.render]
    simp only [List.append_assoc]
  obtain ⟨v, hv⟩ := hfollows.head
  rw [read, hdoc] at h
  split at h
  · next hpaired =>
    have hf : wellPaired f = true := by
      have := wellPaired_of_append hfront.2 hpaired
      rw [hv] at this
      exact wellPaired_of_append_cons (by decide) this
    have hnorm : normalize (f ++ (renderStop name ++ closes ls)) =
        normalize f ++ (renderStop name ++ closes ls) := by
      rw [hv, normalize_append_cons (by decide), ← hv, normalize_of_not_mem hback.1]
    obtain ⟨n, hopens⟩ := run_opens hls
    rw [normalize_append hfront.1, hnorm, List.append_assoc, dropDecl_append, List.append_assoc,
      run_append, run_blank_outside hgap, Option.bind_some, List.append_assoc, run_append, hopens,
      Option.bind_some, run_append, run_start rfl hname hattrs.each,
      push_attrsOf hattrs (.inr rfl), Option.bind_some] at h
    obtain ⟨kids, hkept, hplain⟩ := plain_of_field rfl hfollows hf h
    obtain ⟨r, more, hr, hkids⟩ := hkept.kidsAt name []
    obtain rfl := Option.some.inj hr
    refine ⟨kids, more, ?_, hplain⟩
    rw [hkids]
    simp [kidsAt, named]
  · cases h

end Logix.Xml
