import Logix.Xml.Effects

/-!
# A text without escapes

The reader comes to the text of an element, written as it is.

* `Phase`, **`Phase.run`**: behind a part of the text with markup, the text read falls short of the
  units written;
* `Late`, `After.run`: behind the text, no `<` is added to what was read;
* `Unlike`: why a text is not the one written; **`Phase.closes`**: with markup it is unlike;
* `exists_bad`: the first unit that is not plain;
* **`plain_of_field`**: a text that is read back is plain.
-/

namespace Logix.Xml

variable {s s' : State} {c : UInt16} {rest : List Frame} {e : Frame} {w : JsString}

/-! ## Within the text -/

/-- **Behind the units `w`** with markup: at the level of the element, away from it, or behind
it. -/
inductive Phase (rest : List Frame) (e : Frame) (w : JsString) (s : State) : Prop
  | level {kids : List Node} (stack : s.stack = { e with kids } :: rest) (inside : s.ctl.weight ≠ 0)
      (bound : (textOf kids).length + s.ctl.weight ≤ w.length)
  | away {inner : List Frame} {kids : List Node} {j : ℕ}
      (stack : s.stack = inner ++ { e with kids } :: rest) (off : inner ≠ [] ∨ s.ctl.weight = 0)
      (lt : w[j]? = some (ch '<')) (short : (textOf kids).length ≤ j)
  | closed {kids : List Node} (kept : Kept rest (.element e.name e.attrs kids) s.stack s.root)
      (short : (textOf kids).length < w.length)

theorem textOf_append (as bs : List Node) : textOf (as ++ bs) = textOf as ++ textOf bs := by
  simp [textOf]

theorem Phase.step (hp : Phase rest e w s) (h : step s c = some s') :
    Phase rest e (w ++ [c]) s' := by
  have heff := step_effect h
  have hlen : (w ++ [c]).length = w.length + 1 := by simp
  cases hp with
  | level stack inside bound =>
    cases @Effect.outcome _ _ _ [] _ _ heff stack with
    | opened stack' away level =>
      rename_i kids inner' nodes
      dsimp only at stack'
      obtain ⟨rfl, hbound, hleave, -⟩ := level rfl inside
      by_cases h0 : s'.ctl.weight = 0
      · obtain ⟨rfl, rfl⟩ := hleave h0
        refine @Phase.away _ _ _ _ [] _ w.length stack' (.inr h0) (by simp) ?_
        rw [List.append_nil]
        omega
      · refine .level stack' h0 ?_
        rw [textOf_append, List.length_append]
        omega
    | closed inside' => exact absurd inside' inside
  | away stack off lt short =>
    rename_i inner kids j
    have hj : j < w.length := (List.getElem?_eq_some_iff.mp lt).1
    have lt' : (w ++ [c])[j]? = some (ch '<') := by rw [List.getElem?_append_left hj, lt]
    cases heff.outcome stack with
    | opened stack' away =>
      rename_i inner' nodes _
      dsimp only at stack'
      obtain ⟨htext, hweight⟩ := away off
      have hshort : (textOf (kids ++ nodes)).length ≤ j := by
        rw [textOf_append, htext, List.append_nil]
        exact short
      by_cases hoff : inner' ≠ [] ∨ s'.ctl.weight = 0
      · exact .away stack' hoff lt' hshort
      · -- back at the level of the element
        obtain ⟨hinner, h0⟩ := not_or.mp hoff
        obtain rfl : inner' = [] := not_not.mp hinner
        have := hweight rfl
        exact .level stack' h0 (by omega)
    | closed inside kept =>
      dsimp only at kept
      exact .closed kept (by omega)
  | closed kept short => exact .closed (kept.step heff) (by omega)

theorem Phase.run {v : JsString} (hp : Phase rest e w s) (h : run s v = some s') :
    Phase rest e (w ++ v) s' := by
  induction v generalizing s w with
  | nil =>
    cases h
    rwa [List.append_nil]
  | cons c v ih =>
    obtain ⟨t, ht, h⟩ := Option.bind_eq_some_iff.mp h
    have := ih (hp.step ht) h
    rwa [List.append_assoc, List.singleton_append] at this

/-! ## Behind the text -/

/-- **No `<` is added**, behind the text, to the at most `j` units read before. -/
def Late (j : ℕ) (text : JsString) : Prop := ∃ a b, text = a ++ b ∧ a.length ≤ j ∧ ch '<' ∉ b

theorem Late.append {j : ℕ} {text more : JsString} (h : Late j text) (hm : ch '<' ∉ more) :
    Late j (text ++ more) := by
  obtain ⟨a, b, rfl, ha, hb⟩ := h
  refine ⟨a, b ++ more, List.append_assoc a b more, ha, fun hlt => ?_⟩
  exact (List.mem_append.mp hlt).elim hb hm

/-- The element is open or closed, and no `<` was added. -/
inductive After (rest : List Frame) (e : Frame) (j : ℕ) (s : State) : Prop
  | opened {inner : List Frame} {kids : List Node}
      (stack : s.stack = inner ++ { e with kids } :: rest)
      (late : Late j (textOf kids))
  | closed {kids : List Node} (kept : Kept rest (.element e.name e.attrs kids) s.stack s.root)
      (late : Late j (textOf kids))

theorem After.step {j : ℕ} (ha : After rest e j s) (h : step s c = some s')
    (hq : s.ctl.quiet = true) : After rest e j s' := by
  have heff := step_effect h
  cases ha with
  | opened stack late =>
    cases heff.outcome stack with
    | opened stack' away level =>
      rename_i inner kids inner' nodes
      refine .opened stack' ?_
      rw [textOf_append]
      by_cases hoff : inner ≠ [] ∨ s.ctl.weight = 0
      · rw [(away hoff).1, List.append_nil]
        exact late
      · obtain ⟨hinner, h0⟩ := not_or.mp hoff
        exact late.append ((level (not_not.mp hinner) h0).2.2.2
          ((text_of_quiet hq).resolve_left h0))
    | closed inside kept => exact .closed kept late
  | closed kept late => exact .closed (kept.step heff) late

/-- **Without references and CDATA sections**: no `&`, and no `!` behind a `<`. -/
def Quiet : JsString → Prop
  | [] => True
  | c :: cs => c ≠ ch '&' ∧ (c = ch '<' → cs.head? ≠ some (ch '!')) ∧ Quiet cs

theorem After.run {j : ℕ} {v : JsString} (ha : After rest e j s) (hv : Quiet v)
    (hq : s.ctl.quiet = true) (hlt : s.ctl = .lt → v.head? ≠ some (ch '!'))
    (h : run s v = some s') : After rest e j s' := by
  induction v generalizing s with
  | nil =>
    cases h
    exact ha
  | cons c v ih =>
    obtain ⟨t, ht, h⟩ := Option.bind_eq_some_iff.mp h
    obtain ⟨hamp, hbang, hv⟩ := hv
    obtain ⟨hq', hlt'⟩ := quiet_of_step ht hq hamp fun hs hc => hlt hs (by rw [hc]; rfl)
    exact ih (ha.step ht hq) hv hq' (fun hs => hbang (hlt' hs)) h

/-! ## Behind the end tag -/

/-- **A text is not the one written**: it is shorter, or has no `<` from some place on. -/
def Unlike (w text : JsString) : Prop :=
  text.length < w.length ∨ ∃ j, w[j]? = some (ch '<') ∧ Late j text

theorem Unlike.ne {text : JsString} (h : Unlike w text) : text ≠ w := by
  rintro rfl
  rcases h with h | ⟨j, hj, a, b, rfl, ha, hb⟩
  · exact lt_irrefl _ h
  · rw [List.getElem?_append_right ha] at hj
    exact hb (List.mem_of_getElem? hj)

theorem finish_eq_some {root : Node} (h : s.finish = some root) :
    (∃ n, s.ctl = .text n) ∧ s.stack = [] ∧ s.root = some root := by
  unfold State.finish at h
  split at h
  · next n hctl hstack => exact ⟨⟨n, hctl⟩, hstack, h⟩
  · cases h

/-- What follows a text: an end tag and more, without references and CDATA sections. -/
structure Follows (e : Frame) (v : JsString) : Prop where
  isName : IsName e.name
  stop : ∃ v', v = renderStop e.name ++ v'
  quiet : Quiet v
  noEnd : ∀ n, NoEnd n v

theorem Follows.head {v : JsString} (hv : Follows e v) : ∃ v', v = ch '<' :: v' := by
  obtain ⟨v', rfl⟩ := hv.stop
  exact ⟨_, rfl⟩

theorem run_follows {v : JsString} {n : ℕ} {kids : List Node} {t : State} (hv : Follows e v)
    (hctl : s.ctl = .text n) (hstack : s.stack = { e with kids } :: rest) (h : run s v = some t) :
    Kept rest (.element e.name e.attrs kids) t.stack t.root := by
  obtain ⟨v', rfl⟩ := hv.stop
  rw [run_append, run_stop hctl hv.isName] at h
  obtain ⟨u, hu, h⟩ := Option.bind_eq_some_iff.mp h
  refine Kept.run ?_ h
  simp only [State.pop, hstack, if_true, Option.some.injEq] at hu
  rw [← hu]
  exact Kept.close rest _ s.ctl _ s.root

theorem not_cdata {v : JsString} {n : ℕ} {t : State} {root : Node} (hv : Follows e v)
    (h : run s v = some t) (ht : t.finish = some root) : s.ctl ≠ .cdata n := by
  intro hctl
  obtain ⟨m, hm⟩ := cdata_of_run hctl (hv.noEnd _) h
  obtain ⟨⟨k, hk⟩, -⟩ := finish_eq_some ht
  rw [hm] at hk
  cases hk

/-- **Behind a text with markup** the element closes with a text that is unlike it. -/
theorem Phase.closes {v : JsString} {t : State} {root : Node} (hp : Phase rest e w s)
    (hv : Follows e v) (h : Xml.run s v = some t) (ht : t.finish = some root) :
    ∃ kids, Kept rest (.element e.name e.attrs kids) [] (some root) ∧ Unlike w (textOf kids) := by
  obtain ⟨-, hstack, hroot⟩ := finish_eq_some ht
  have hcdata : ∀ n, s.ctl ≠ .cdata n := fun n => not_cdata hv h ht
  obtain ⟨v', rfl⟩ := hv.head
  have hrun := h
  obtain ⟨u, hu, -⟩ := Option.bind_eq_some_iff.mp h
  obtain ⟨hq, -⟩ := quiet_of_lt hu hcdata
  rw [← hstack, ← hroot]
  cases hp with
  | level stack inside bound =>
    rename_i kids
    obtain ⟨n, hn⟩ := (text_of_quiet hq).resolve_left inside
    rw [hn, weight_text] at bound
    exact ⟨kids, run_follows hv hn stack hrun, .inl (by omega)⟩
  | away stack off lt short =>
    rename_i inner kids j
    have hlate : Late j (textOf kids) :=
      ⟨textOf kids, [], (List.append_nil _).symm, short, List.not_mem_nil⟩
    have hafter : After rest e j s := .opened stack hlate
    cases hafter.run hv.quiet hq (fun _ => (by decide : some (ch '<') ≠ some (ch '!'))) hrun with
    | opened stack' => simp [hstack] at stack'
    | closed kept late => exact ⟨_, kept, .inr ⟨j, lt, late⟩⟩
  | closed kept short => exact ⟨_, kept.run hrun, .inl short⟩

/-! ## The first unit that is not plain -/

/-- **The first unit** at which a text is not plain. -/
theorem exists_bad {n : ℕ} (h : ¬ ((∀ c ∈ w, isPlainUnit c = true) ∧ NoEnd n w)) :
    ∃ p c q, w = p ++ c :: q ∧ (∀ c ∈ p, isPlainUnit c = true) ∧ NoEnd n p ∧
      (isPlainUnit c = false ∨ brackets n p = 2 ∧ c = ch '>') := by
  induction w generalizing n with
  | nil => exact absurd ⟨by simp, trivial⟩ h
  | cons c w ih =>
    by_cases hbad : isPlainUnit c = false ∨ n = 2 ∧ c = ch '>'
    · exact ⟨[], c, w, rfl, by simp, trivial, hbad⟩
    · obtain ⟨hc, hgt⟩ := not_or.mp hbad
      rw [Bool.not_eq_false] at hc
      have hw : ¬ ((∀ c ∈ w, isPlainUnit c = true) ∧
          NoEnd (if c = ch ']' then min 2 (n + 1) else 0) w) :=
        fun hw => h ⟨List.forall_mem_cons.mpr ⟨hc, hw.1⟩, hgt, hw.2⟩
      obtain ⟨p, d, q, rfl, hp, hend, hd⟩ := ih hw
      exact ⟨c :: p, d, q, rfl, List.forall_mem_cons.mpr ⟨hc, hp⟩, ⟨hgt, hend⟩, hd⟩

theorem phase_of_bad {root : Option Node} {p : JsString} (he : e.kids = [])
    (hp : ∀ c ∈ p, isPlainUnit c = true) (hend : NoEnd 0 p) (hcr : c ≠ 13)
    (hc : isPlainUnit c = false ∨ brackets 0 p = 2 ∧ c = ch '>')
    (h : run ⟨.text 0, e :: rest, root⟩ (p ++ [c]) = some s) : Phase rest e (p ++ [c]) s := by
  rw [run_append, run_text_from hp hend, he, Option.bind_some, List.nil_append, run,
    bind_run_nil] at h
  unfold step at h
  split at h
  · next hlegal =>
    simp only [stepText] at h
    by_cases hlt : c = ch '<'
    · rw [if_pos hlt] at h
      cases h
      refine @Phase.away _ _ _ _ [] (p.map .unit) p.length rfl (.inr rfl) ?_ ?_
      · rw [hlt]
        simp
      · rw [textOf_units]
    rw [if_neg hlt] at h
    by_cases hamp : c = ch '&'
    · rw [if_pos hamp, if_neg (by simp)] at h
      cases h
      refine @Phase.level _ _ _ _ (p.map .unit) rfl (by simp [State.goto]) ?_
      rw [textOf_units]
      simp [State.goto]
    rw [if_neg hamp] at h
    rcases hc with hc | hc
    · exact absurd (isPlainUnit_iff.mpr ⟨hlegal, hcr, hlt, hamp⟩) (by simp [hc])
    · rw [if_pos hc] at h
      cases h
  · cases h

/-! ## Line ends and pairs -/

theorem not_mem_normalize (f : JsString) : (13 : UInt16) ∉ normalize f := by
  induction f using normalize.induct with
  | case1 => simp [normalize]
  | case2 c =>
    by_cases h : c = 13
    · simp [normalize, h]
    · simp [normalize, h, Ne.symm h]
  | case3 cs ih => simpa [normalize] using ih
  | case4 d cs hd ih => simpa [normalize, hd] using ih
  | case5 c d cs hc ih => simpa [normalize, hc, Ne.symm hc] using ih

theorem length_normalize_le (f : JsString) : (normalize f).length ≤ f.length := by
  induction f using normalize.induct with
  | case1 => simp [normalize]
  | case2 c => simp [normalize]
  | case3 cs ih => simpa [normalize] using Nat.le_succ_of_le ih
  | case4 d cs hd ih => simpa [normalize, hd] using ih
  | case5 c d cs hc ih => simpa [normalize, hc] using ih

theorem exists_of_normalize {f : JsString} {j : ℕ} (h : (normalize f)[j]? = some (ch '<')) :
    ∃ i, j ≤ i ∧ f[i]? = some (ch '<') := by
  have hlf : (10 : UInt16) ≠ ch '<' := by decide
  induction f using normalize.induct generalizing j with
  | case1 => simp [normalize] at h
  | case2 c =>
    by_cases hc : c = 13
    · cases j <;> simp [normalize, hc, hlf] at h
    · exact ⟨j, le_rfl, by simpa [normalize, hc] using h⟩
  | case3 cs ih =>
    obtain ⟨i, hi, h⟩ := ih (by simpa [normalize] using h)
    exact ⟨i + 1, by omega, h⟩
  | case4 d cs hd ih =>
    cases j with
    | zero => simp [normalize, hd, hlf] at h
    | succ j =>
      obtain ⟨i, hi, h⟩ := ih (by simpa [normalize, hd] using h)
      exact ⟨i + 1, by omega, h⟩
  | case5 c d cs hc ih =>
    cases j with
    | zero => exact ⟨0, le_rfl, by simpa [normalize, hc] using h⟩
    | succ j =>
      obtain ⟨i, hi, h⟩ := ih (by simpa [normalize, hc] using h)
      exact ⟨i + 1, by omega, h⟩

theorem Unlike.of_normalize {f text : JsString} (h : Unlike (normalize f) text) :
    Unlike f text := by
  rcases h with h | ⟨j, hj, a, b, rfl, ha, hb⟩
  · exact .inl (lt_of_lt_of_le h (length_normalize_le f))
  · obtain ⟨i, hi, h⟩ := exists_of_normalize hj
    exact .inr ⟨i, h, a, b, rfl, ha.trans hi, hb⟩

theorem normalize_append_cons {f v : JsString} {c : UInt16} (hc : c ≠ 10) :
    normalize (f ++ c :: v) = normalize f ++ normalize (c :: v) := by
  induction f using normalize.induct with
  | case1 => rfl
  | case2 d => by_cases hd : d = 13 <;> simp [normalize, hd, hc]
  | case3 cs ih => simpa [normalize] using ih
  | case4 d cs hd ih => simpa [normalize, hd] using ih
  | case5 d d' cs hd ih => simpa [normalize, hd] using ih

theorem wellPaired_of_append {a b : JsString} (ha : wellPaired a = true)
    (h : wellPaired (a ++ b) = true) : wellPaired b = true := by
  induction a using wellPaired.induct with
  | case1 => exact h
  | case2 c =>
    cases b with
    | nil => rfl
    | cons d b => simp_all [wellPaired]
  | case3 c d cs hc ih => simp_all [wellPaired]
  | case4 c d cs hc ih => simp_all [wellPaired]

theorem wellPaired_of_append_cons {f v : JsString} {c : UInt16} (hlow : isLowSurrogate c = false)
    (h : wellPaired (f ++ c :: v) = true) : wellPaired f = true := by
  induction f using wellPaired.induct with
  | case1 => rfl
  | case2 d => simp_all [wellPaired]
  | case3 d d' cs hd ih => simp_all [wellPaired]
  | case4 d d' cs hd ih => simp_all [wellPaired]

theorem not_infix_of_noEnd {f : JsString} (h : NoEnd 0 f) : ¬ js "]]>" <:+: f := by
  rintro ⟨a, b, rfl⟩
  have hjs : js "]]>" = [ch ']', ch ']', ch '>'] := rfl
  rw [hjs, List.append_assoc, noEnd_append] at h
  obtain ⟨-, -, -, hgt, -⟩ := h
  refine hgt ⟨?_, rfl⟩
  rw [if_pos rfl, if_pos rfl]
  omega

/-! ## The text of a field -/

/-- **A text that is read back is plain.** -/
theorem plain_of_field {f v : JsString} {root : Node} {root' : Option Node} (he : e.kids = [])
    (hv : Follows e v) (hf : wellPaired f = true)
    (h : (run ⟨.text 0, e :: rest, root'⟩ (normalize f ++ v)).bind State.finish = some root) :
    ∃ kids, Kept rest (.element e.name e.attrs kids) [] (some root) ∧
      (textOf kids = f → Plain f) := by
  obtain ⟨t, h, ht⟩ := Option.bind_eq_some_iff.mp h
  by_cases hplain : (∀ c ∈ normalize f, isPlainUnit c = true) ∧ NoEnd 0 (normalize f)
  · -- the text read is the normalized one
    rw [run_append, run_text_from hplain.1 hplain.2, he, Option.bind_some, List.nil_append] at h
    have hkept := run_follows hv rfl rfl h
    obtain ⟨-, hstack, hroot⟩ := finish_eq_some ht
    rw [hstack, hroot] at hkept
    refine ⟨_, hkept, fun htext => ?_⟩
    rw [textOf_units] at htext
    rw [htext] at hplain
    exact ⟨hf, hplain.1, not_infix_of_noEnd hplain.2⟩
  · obtain ⟨p, c, q, hw, hp, hend, hc⟩ := exists_bad hplain
    have hcr : c ≠ 13 := by
      rintro rfl
      exact not_mem_normalize f (by rw [hw]; simp)
    rw [hw, show p ++ c :: q = (p ++ [c]) ++ q by simp, run_append, run_append] at h
    obtain ⟨s₁, h, h₃⟩ := Option.bind_eq_some_iff.mp h
    obtain ⟨s₂, h₁, h₂⟩ := Option.bind_eq_some_iff.mp h
    have hphase := (phase_of_bad he hp hend hcr hc h₁).run h₂
    rw [List.append_assoc, List.singleton_append, ← hw] at hphase
    obtain ⟨kids, hkept, hunlike⟩ := hphase.closes hv h₃ ht
    exact ⟨kids, hkept, fun htext => absurd htext hunlike.of_normalize.ne⟩

end Logix.Xml
