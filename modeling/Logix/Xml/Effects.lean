import Logix.Xml.Render

/-!
# What a step of the reader does

* `Ctl.weight`: how much text the units of the content in progress can still become;
* `Effect`, **`step_effect`**: what one step does to the open elements, and what the weight bounds;
* `quiet_of_step`: without `&` and `<!` the reader does not come to a reference or a CDATA section;
* `cdata_of_run`: a CDATA section goes on up to `]]>`;
* `Kept`: a closed element at its place among the open ones; `Outcome`: what a step does to an
  open one; **`Kept.run`**: a closed element stays at its place.
-/

namespace Logix.Xml

/-- **The units in progress**, in content: those of a reference, or of brackets, and one for the
markup that came before. Outside of content nothing. -/
def Ctl.weight : Ctl → ℕ
  | .text _ => 1
  | .reference r => r.length + 1
  | .cdata n => n + 1
  | _ => 0

@[simp] theorem weight_text (n : ℕ) : (Ctl.text n).weight = 1 := rfl

@[simp] theorem weight_reference (r : JsString) : (Ctl.reference r).weight = r.length + 1 := rfl

@[simp] theorem weight_cdata (n : ℕ) : (Ctl.cdata n).weight = n + 1 := rfl

/-- **What a step does** at a unit `c`. -/
inductive Effect (c : UInt16) (s : State) : State → Prop
  | markup {ctl : Ctl} (inside : s.ctl.weight = 0) (bound : ctl.weight ≤ 1) :
      Effect c s (s.goto ctl)
  | content {ctl : Ctl} (inside : s.ctl.weight ≠ 0) (bound : ctl.weight ≤ s.ctl.weight + 1)
      (leave : ctl.weight = 0 → c = ch '<') : Effect c s (s.goto ctl)
  | emit {ctl : Ctl} {f : Frame} {fs : List Frame} {cs : JsString} (inside : s.ctl.weight ≠ 0)
      (stack : s.stack = f :: fs) (stay : ctl.weight ≠ 0)
      (bound : cs.length + ctl.weight ≤ s.ctl.weight + 1)
      (text : (∃ n, s.ctl = .text n) → ch '<' ∉ cs) :
      Effect c s ⟨ctl, { f with kids := f.kids ++ cs.map .unit } :: fs, s.root⟩
  | push {tag : Tag} (inside : s.ctl.weight = 0) (admits : s.stack ≠ [] ∨ s.root = none) :
      Effect c s ⟨.text 0, ⟨tag.name, tag.attrs, []⟩ :: s.stack, s.root⟩
  | add {tag : Tag} (inside : s.ctl.weight = 0) (admits : s.stack ≠ [] ∨ s.root = none) :
      Effect c s ((s.add (.element tag.name tag.attrs [])).goto (.text 0))
  | pop {f : Frame} {fs : List Frame} (inside : s.ctl.weight = 0) (stack : s.stack = f :: fs) :
      Effect c s (({ s with stack := fs }.add (.element f.name f.attrs f.kids)).goto (.text 0))

variable {s s' : State} {c : UInt16}

theorem admits_of_eq_true {tag : Tag} (h : s.admits tag = true) : s.stack ≠ [] ∨ s.root = none := by
  simp only [State.admits, Bool.and_eq_true, Bool.or_eq_true, Bool.not_eq_true',
    List.isEmpty_eq_false_iff, Option.isNone_iff_eq_none] at h
  exact h.2

theorem emit_effect {cs : JsString} {ctl : Ctl}
    (h : (s.emit cs).map (fun s => s.goto ctl) = some s')
    (inside : s.ctl.weight ≠ 0) (stay : ctl.weight ≠ 0)
    (bound : cs.length + ctl.weight ≤ s.ctl.weight + 1)
    (text : (∃ n, s.ctl = .text n) → ch '<' ∉ cs) : Effect c s s' := by
  unfold State.emit at h
  cases hs : s.stack with
  | nil =>
    simp only [hs] at h
    split at h
    · cases h
      exact .content inside (by omega) fun h0 => absurd h0 stay
    · cases h
  | cons f fs =>
    simp only [hs, Option.map_some, Option.some.injEq] at h
    rw [← h]
    exact .emit inside hs stay bound text

theorem push_effect {tag : Tag} (h : s.push tag = some s') (inside : s.ctl.weight = 0) :
    Effect c s s' := by
  unfold State.push at h
  split at h
  · next ha =>
    cases h
    exact .push inside (admits_of_eq_true ha)
  · cases h

theorem stepTag_cases {tag : Tag} {place : InTag} (h : stepTag s tag c place = some s') :
    (∃ t p, s' = s.goto (.start t p)) ∨ s.push tag = some s' ∨ s.pushEmpty tag = some s' := by
  have hgo : ∀ {t : Tag} {p : InTag}, some (s.goto (.start t p)) = some s' →
      (∃ t p, s' = s.goto (.start t p)) ∨ s.push tag = some s' ∨ s.pushEmpty tag = some s' := by
    intro t p h
    exact .inl ⟨t, p, (Option.some.inj h).symm⟩
  have hbetween : ∀ {spaced : Bool}, stepBetween s tag spaced c = some s' →
      (∃ t p, s' = s.goto (.start t p)) ∨ s.push tag = some s' ∨ s.pushEmpty tag = some s' := by
    intro spaced h
    unfold stepBetween at h
    split_ifs at h
    · exact hgo h
    · exact .inr (.inl h)
    · exact hgo h
    · exact hgo h
  cases place with
  | name =>
    simp only [stepTag] at h
    split_ifs at h
    · exact hgo h
    · exact hbetween h
  | between spaced => exact hbetween h
  | attrName a =>
    simp only [stepTag] at h
    split_ifs at h <;> exact hgo h
  | equals a =>
    simp only [stepTag] at h
    split_ifs at h <;> exact hgo h
  | quote a =>
    simp only [stepTag] at h
    split_ifs at h <;> exact hgo h
  | value a q v =>
    simp only [stepTag] at h
    split_ifs at h <;> exact hgo h
  | reference a q v r =>
    simp only [stepTag] at h
    split_ifs at h
    · obtain ⟨t, -, rfl⟩ := Option.map_eq_some_iff.mp h
      exact .inl ⟨_, _, rfl⟩
    · exact hgo h
  | slash =>
    simp only [stepTag] at h
    split_ifs at h
    exact .inr (.inr h)

theorem stepTag_effect {tag : Tag} {place : InTag} (h : stepTag s tag c place = some s')
    (inside : s.ctl.weight = 0) : Effect c s s' := by
  rcases stepTag_cases h with ⟨t, p, rfl⟩ | h | h
  · exact .markup inside (Nat.zero_le 1)
  · exact push_effect h inside
  · unfold State.pushEmpty at h
    split_ifs at h with ha
    cases h
    exact .add inside (admits_of_eq_true ha)

theorem length_of_resolve {r t : JsString} (h : resolve r = some t) : t.length ≤ r.length + 1 := by
  have hpoint : ∀ {p : ℕ} {t : JsString}, charOfNumber p = some t → t.length ≤ 2 := by
    intro p t h
    unfold charOfNumber at h
    split_ifs at h
    cases h
    unfold pointUnits
    split_ifs <;> simp
  unfold resolve at h
  split at h
  · obtain ⟨p, -, h⟩ := Option.bind_eq_some_iff.mp h
    have := hpoint h
    simp only [List.length_cons]
    omega
  · obtain ⟨p, -, h⟩ := Option.bind_eq_some_iff.mp h
    have := hpoint h
    simp only [List.length_cons]
    omega
  · split_ifs at h <;> cases h <;> simp

theorem stepText_effect {n : ℕ} (hs : s.ctl = .text n) (h : stepText s n c = some s') :
    Effect c s s' := by
  have inside : s.ctl.weight = 1 := by rw [hs, weight_text]
  unfold stepText at h
  by_cases hlt : c = ch '<'
  · rw [if_pos hlt] at h
    cases h
    exact .content (by omega) (Nat.zero_le _) fun _ => hlt
  rw [if_neg hlt] at h
  by_cases hamp : c = ch '&'
  · rw [if_pos hamp] at h
    split_ifs at h
    cases h
    exact .content (by omega) (by simp) fun h0 => absurd h0 (by simp)
  rw [if_neg hamp] at h
  by_cases hgt : n = 2 ∧ c = ch '>'
  · rw [if_pos hgt] at h
    cases h
  rw [if_neg hgt] at h
  refine emit_effect h (by omega) (by simp) (by simp [inside]) ?_
  exact fun _ hm => hlt (List.mem_singleton.mp hm).symm

theorem stepMarkup_effect {ctl : Ctl} (hs : s.ctl = ctl) (h : stepMarkup s c ctl = some s') :
    Effect c s s' := by
  subst hs
  cases hctl : s.ctl with
  | bang =>
    have inside : s.ctl.weight = 0 := congrArg Ctl.weight hctl
    simp only [hctl, stepMarkup] at h
    split_ifs at h <;> cases h <;> exact .markup inside (Nat.zero_le 1)
  | dash =>
    have inside : s.ctl.weight = 0 := congrArg Ctl.weight hctl
    simp only [hctl, stepMarkup] at h
    split_ifs at h
    cases h
    exact .markup inside (Nat.zero_le 1)
  | comment n =>
    have inside : s.ctl.weight = 0 := congrArg Ctl.weight hctl
    simp only [hctl, stepMarkup] at h
    split_ifs at h <;> cases h
    · exact .markup inside le_rfl
    · exact .markup inside (Nat.zero_le 1)
    · exact .markup inside (Nat.zero_le 1)
  | cdataOpen n =>
    have inside : s.ctl.weight = 0 := congrArg Ctl.weight hctl
    simp only [hctl, stepMarkup] at h
    split_ifs at h <;> cases h
    · exact .markup inside le_rfl
    · exact .markup inside (Nat.zero_le 1)
  | cdata n =>
    have inside : s.ctl.weight = n + 1 := by rw [hctl, weight_cdata]
    have htext : (∃ m, s.ctl = .text m) → False := by
      rintro ⟨m, hm⟩
      rw [hctl] at hm
      cases hm
    simp only [hctl, stepMarkup] at h
    split_ifs at h with hb hn hend
    · refine emit_effect h (by omega) (by simp) ?_ fun ht => (htext ht).elim
      simp [inside, hn]
    · cases h
      exact .content (by omega) (by simp [inside])
        fun h0 => absurd h0 (by simp)
    · cases h
      exact .content (by omega) (by simp)
        fun h0 => absurd h0 (by simp)
    · refine emit_effect h (by omega) (by simp) ?_ fun ht => (htext ht).elim
      simp [inside]
  | target r =>
    have inside : s.ctl.weight = 0 := congrArg Ctl.weight hctl
    simp only [hctl, stepMarkup] at h
    split_ifs at h <;> cases h <;> exact .markup inside (Nat.zero_le 1)
  | targetEnd =>
    have inside : s.ctl.weight = 0 := congrArg Ctl.weight hctl
    simp only [hctl, stepMarkup] at h
    split_ifs at h
    cases h
    exact .markup inside le_rfl
  | instruction mark =>
    have inside : s.ctl.weight = 0 := congrArg Ctl.weight hctl
    simp only [hctl, stepMarkup] at h
    split_ifs at h <;> cases h
    · exact .markup inside le_rfl
    · exact .markup inside (Nat.zero_le 1)
  | text n => simp [hctl, stepMarkup] at h
  | lt => simp [hctl, stepMarkup] at h
  | start tag place => simp [hctl, stepMarkup] at h
  | stop name ended => simp [hctl, stepMarkup] at h
  | reference r => simp [hctl, stepMarkup] at h

theorem pop_effect {name : JsString} (h : s.pop name = some s') (inside : s.ctl.weight = 0) :
    Effect c s s' := by
  unfold State.pop at h
  cases hs : s.stack with
  | nil => simp [hs] at h
  | cons f fs =>
    simp only [hs] at h
    split_ifs at h
    cases h
    exact .pop inside hs

/-- **What a step does.** -/
theorem step_effect (h : step s c = some s') : Effect c s s' := by
  unfold step at h
  split at h
  · cases hctl : s.ctl with
    | text n =>
      simp only [hctl] at h
      exact stepText_effect hctl h
    | lt =>
      simp only [hctl] at h
      split_ifs at h <;> cases h <;> exact .markup (by rw [hctl]; rfl) (Nat.zero_le 1)
    | start tag place =>
      simp only [hctl] at h
      exact stepTag_effect h (by rw [hctl]; rfl)
    | stop name ended =>
      simp only [hctl] at h
      have inside : s.ctl.weight = 0 := by rw [hctl]; rfl
      split_ifs at h
      · exact pop_effect h inside
      all_goals
        cases h
        exact .markup inside (Nat.zero_le 1)
    | reference r =>
      have inside : s.ctl.weight = r.length + 1 := by rw [hctl, weight_reference]
      simp only [hctl] at h
      split_ifs at h
      · obtain ⟨t, ht, h⟩ := Option.bind_eq_some_iff.mp h
        refine emit_effect h (by omega) (by simp) ?_ ?_
        · have := length_of_resolve ht
          rw [inside, weight_text]
          omega
        · rintro ⟨n, hn⟩
          rw [hctl] at hn
          cases hn
      · cases h
        exact .content (by omega) (by simp [inside])
          fun h0 => absurd h0 (by simp)
    | bang | dash | comment | cdataOpen | cdata | target | targetEnd | instruction =>
      simp only [hctl] at h
      exact stepMarkup_effect hctl h
  · cases h

/-! ## Away from references and CDATA sections -/

/-- Not in a reference of the content, nor in front of a CDATA section or in one. -/
def Ctl.quiet : Ctl → Bool
  | .reference _ | .bang | .dash | .cdataOpen _ | .cdata _ => false
  | _ => true

theorem text_of_quiet {ctl : Ctl} (h : ctl.quiet = true) : ctl.weight = 0 ∨ ∃ n, ctl = .text n := by
  cases ctl with
  | text n => exact .inr ⟨n, rfl⟩
  | reference r => cases h
  | cdata n => cases h
  | _ => exact .inl rfl

theorem stepTag_ctl {tag : Tag} {place : InTag} (h : stepTag s tag c place = some s') :
    (∃ t p, s'.ctl = .start t p) ∨ s'.ctl = .text 0 := by
  rcases stepTag_cases h with ⟨t, p, rfl⟩ | h | h
  · exact .inl ⟨t, p, rfl⟩
  · unfold State.push at h
    split_ifs at h
    cases h
    exact .inr rfl
  · unfold State.pushEmpty at h
    split_ifs at h
    cases h
    exact .inr rfl

theorem pop_ctl {name : JsString} (h : s.pop name = some s') : s'.ctl = .text 0 := by
  unfold State.pop at h
  cases hs : s.stack with
  | nil => simp [hs] at h
  | cons f fs =>
    simp only [hs] at h
    split_ifs at h
    cases h
    rfl

theorem stop_ctl {name : JsString} {ended : Bool} (hs : s.ctl = .stop name ended)
    (h : step s c = some s') : s'.ctl = .text 0 ∨ ∃ n e, s'.ctl = .stop n e := by
  unfold step at h
  simp only [hs] at h
  split_ifs at h
  · exact .inl (pop_ctl h)
  all_goals
    cases h
    exact .inr ⟨_, _, rfl⟩

/-- **Without `&` and `<!`** the reader stays away from references and CDATA sections. -/
theorem quiet_of_step (h : step s c = some s') (hq : s.ctl.quiet = true) (hamp : c ≠ ch '&')
    (hbang : s.ctl = .lt → c ≠ ch '!') :
    s'.ctl.quiet = true ∧ (s'.ctl = .lt → c = ch '<') := by
  have hstart : ((∃ t p, s'.ctl = .start t p) ∨ s'.ctl = .text 0) →
      s'.ctl.quiet = true ∧ (s'.ctl = .lt → c = ch '<') := by
    rintro (⟨t, p, h⟩ | h) <;> rw [h] <;> exact ⟨rfl, fun h => by cases h⟩
  have hstep := h
  unfold step at h
  split at h
  · cases hctl : s.ctl with
    | text n =>
      simp only [hctl, stepText] at h
      rw [if_neg hamp] at h
      by_cases hlt : c = ch '<'
      · rw [if_pos hlt] at h
        cases h
        exact ⟨rfl, fun _ => hlt⟩
      · rw [if_neg hlt] at h
        split_ifs at h <;>
        · obtain ⟨t, -, rfl⟩ := Option.map_eq_some_iff.mp h
          exact ⟨rfl, fun h => by cases h⟩
    | lt =>
      simp only [hctl, if_neg (hbang hctl)] at h
      split_ifs at h <;> cases h <;> exact ⟨rfl, fun h => by cases h⟩
    | start tag place =>
      simp only [hctl] at h
      exact hstart (stepTag_ctl h)
    | stop name ended =>
      rcases stop_ctl hctl hstep with h | ⟨n, e, h⟩ <;> rw [h] <;> exact ⟨rfl, fun h => by cases h⟩
    | comment n =>
      simp only [hctl, stepMarkup] at h
      split_ifs at h <;> cases h <;> exact ⟨rfl, fun h => by cases h⟩
    | target r =>
      simp only [hctl, stepMarkup] at h
      split_ifs at h <;> cases h <;> exact ⟨rfl, fun h => by cases h⟩
    | targetEnd =>
      simp only [hctl, stepMarkup] at h
      split_ifs at h
      cases h
      exact ⟨rfl, fun h => by cases h⟩
    | instruction mark =>
      simp only [hctl, stepMarkup] at h
      split_ifs at h <;> cases h <;> exact ⟨rfl, fun h => by cases h⟩
    | bang | dash | cdataOpen | cdata | reference =>
      rw [hctl] at hq
      cases hq
  · cases h

theorem quiet_of_lt (h : step s (ch '<') = some s') (hs : ∀ n, s.ctl ≠ .cdata n) :
    s.ctl.quiet = true ∧ s'.ctl.quiet = true := by
  have hq : s.ctl.quiet = true := by
    have hlegal : isLegal (ch '<') = true := by decide
    cases hctl : s.ctl with
    | cdata n => exact absurd hctl (hs n)
    | reference r =>
      have hname : isNameUnit (ch '<') = false := by decide
      have hsemi : ch '<' ≠ ch ';' := by decide
      have hhash : ch '<' ≠ ch '#' := by decide
      simp [step, hlegal, hctl, hname, hsemi, hhash] at h
    | bang =>
      have hdash : ch '<' ≠ ch '-' := by decide
      have hopen : ch '<' ≠ ch '[' := by decide
      simp [step, hlegal, hctl, stepMarkup, hdash, hopen] at h
    | dash =>
      have hdash : ch '<' ≠ ch '-' := by decide
      simp [step, hlegal, hctl, stepMarkup, hdash] at h
    | cdataOpen n =>
      have hne : (js "CDATA[")[n]? ≠ some (ch '<') :=
        fun h => absurd (List.mem_of_getElem? h) (by decide)
      simp [step, hlegal, hctl, stepMarkup, hne] at h
    | text | lt | start | stop | comment | target | targetEnd | instruction => rfl
  exact ⟨hq, (quiet_of_step h hq (by decide) fun _ => by decide).1⟩

/-- **A CDATA section** goes on as long as no `]]>` ends. -/
theorem cdata_of_run {n : ℕ} {cs : JsString} (hs : s.ctl = .cdata n) (hend : NoEnd (min 2 n) cs)
    (h : run s cs = some s') : ∃ m, s'.ctl = .cdata m := by
  induction cs generalizing s n with
  | nil =>
    cases h
    exact ⟨n, hs⟩
  | cons c cs ih =>
    obtain ⟨t, ht, h⟩ := Option.bind_eq_some_iff.mp h
    obtain ⟨hgt, hend⟩ := hend
    have hstep : ∃ m, t.ctl = .cdata m ∧
        min 2 m = if c = ch ']' then min 2 (min 2 n + 1) else 0 := by
      unfold step at ht
      simp only [hs, stepMarkup] at ht
      split_ifs at ht with hl hb h2 hn
      · obtain ⟨u, -, rfl⟩ := Option.map_eq_some_iff.mp ht
        exact ⟨2, rfl, by rw [if_pos hb, h2]; rfl⟩
      · cases ht
        refine ⟨n + 1, rfl, ?_⟩
        rw [if_pos hb]
        omega
      · exact absurd ⟨by rw [hn.1]; rfl, hn.2⟩ hgt
      · obtain ⟨u, -, rfl⟩ := Option.map_eq_some_iff.mp ht
        exact ⟨0, rfl, by rw [if_neg hb]; rfl⟩
    obtain ⟨m, hm, hmin⟩ := hstep
    exact ih hm (by rw [hmin]; exact hend) h

/-! ## Closed elements -/

/-- **A closed element at its place**: behind the kids of the frames that were open around it, the
innermost first, of which some may be closed by now. -/
def Kept : List Frame → Node → List Frame → Option Node → Prop
  | [], node, stack, root => stack = [] ∧ root = some node
  | g :: gs, node, stack, root =>
    (∃ inner more, stack = inner ++ { g with kids := g.kids ++ node :: more } :: gs) ∨
      ∃ more, Kept gs (.element g.name g.attrs (g.kids ++ node :: more)) stack root

theorem Kept.close (rest : List Frame) (node : Node) (ctl ctl' : Ctl) (root : Option Node) :
    Kept rest node ((State.add ⟨ctl, rest, root⟩ node).goto ctl').stack
      ((State.add ⟨ctl, rest, root⟩ node).goto ctl').root := by
  cases rest with
  | nil => exact ⟨rfl, rfl⟩
  | cons g gs => exact .inl ⟨[], [], rfl⟩

/-- **What a step does to an open element** `f`, in which `inner` is open: it has nodes in addition,
or it closes. -/
inductive Outcome (c : UInt16) (s : State) (inner : List Frame) (f : Frame) (fs : List Frame)
    (s' : State) : Prop
  | opened {inner' : List Frame} {nodes : List Node}
      (stack : s'.stack = inner' ++ { f with kids := f.kids ++ nodes } :: fs)
      (away : inner ≠ [] ∨ s.ctl.weight = 0 →
        textOf nodes = [] ∧ (inner' = [] → s'.ctl.weight ≤ 1))
      (level : inner = [] → s.ctl.weight ≠ 0 → inner' = [] ∧
        (textOf nodes).length + s'.ctl.weight ≤ s.ctl.weight + 1 ∧
        (s'.ctl.weight = 0 → nodes = [] ∧ c = ch '<') ∧
        ((∃ n, s.ctl = .text n) → ch '<' ∉ textOf nodes))
  | closed (inside : s.ctl.weight = 0)
      (kept : Kept fs (.element f.name f.attrs f.kids) s'.stack s'.root)

section Outcome

variable {inner inner' : List Frame} {f : Frame} {fs : List Frame} {nodes : List Node}

theorem Outcome.of_off (off : inner ≠ [] ∨ s.ctl.weight = 0)
    (stack : s'.stack = inner' ++ { f with kids := f.kids ++ nodes } :: fs)
    (text : textOf nodes = []) (bound : inner' = [] → s'.ctl.weight ≤ 1) :
    Outcome c s inner f fs s' := by
  refine .opened stack (fun _ => ⟨text, bound⟩) fun hin h0 => ?_
  rcases off with hne | hweight
  · exact absurd hin hne
  · exact absurd hweight h0

theorem Outcome.same (off : inner ≠ [] ∨ s.ctl.weight = 0) (stack : s'.stack = inner' ++ f :: fs)
    (bound : inner' = [] → s'.ctl.weight ≤ 1) : Outcome c s inner f fs s' := by
  refine @Outcome.of_off _ _ _ _ inner' _ _ [] off ?_ rfl bound
  rw [stack, List.append_nil]

theorem Outcome.of_level (inside : s.ctl.weight ≠ 0)
    (stack : s'.stack = { f with kids := f.kids ++ nodes } :: fs)
    (bound : (textOf nodes).length + s'.ctl.weight ≤ s.ctl.weight + 1)
    (leave : s'.ctl.weight = 0 → nodes = [] ∧ c = ch '<')
    (text : (∃ n, s.ctl = .text n) → ch '<' ∉ textOf nodes) : Outcome c s [] f fs s' := by
  refine @Outcome.opened _ _ _ _ _ _ [] nodes stack (fun off => ?_)
    fun _ _ => ⟨rfl, bound, leave, text⟩
  exact absurd off (by simpa using inside)

theorem Effect.outcome (h : Effect c s s') (hs : s.stack = inner ++ f :: fs) :
    Outcome c s inner f fs s' := by
  cases h with
  | markup inside bound => exact .same (.inr inside) hs fun _ => bound
  | content inside bound leave =>
    cases inner with
    | nil =>
      refine @Outcome.of_level _ _ _ _ _ [] inside ?_ ?_ (fun h0 => ⟨rfl, leave h0⟩)
        fun _ => List.not_mem_nil
      · rw [List.append_nil]
        exact hs
      · change 0 + _ ≤ _
        rw [Nat.zero_add]
        exact bound
    | cons i is => exact .same (.inl (by simp)) hs fun h => by cases h
  | emit inside stack stay bound text =>
    rename_i ctl g gs cs
    rw [hs] at stack
    cases inner with
    | nil =>
      obtain ⟨rfl, rfl⟩ := List.cons.inj stack
      refine @Outcome.of_level _ _ _ _ _ (cs.map .unit) inside rfl ?_ (fun h0 => absurd h0 stay) ?_
      · rw [textOf_units]
        exact bound
      · rw [textOf_units]
        exact text
    | cons i is =>
      obtain ⟨rfl, rfl⟩ := List.cons.inj stack
      exact @Outcome.same _ _ _ _ ({ i with kids := i.kids ++ cs.map .unit } :: is) _ _
        (.inl (by simp)) rfl fun h => by cases h
  | push inside =>
    rename_i tag _
    refine @Outcome.same _ _ _ _ (⟨tag.name, tag.attrs, []⟩ :: inner) _ _ (.inr inside) ?_
      fun h => by cases h
    rw [hs]
    rfl
  | add inside =>
    rename_i tag _
    cases inner with
    | nil =>
      refine @Outcome.of_off _ _ _ _ [] _ _ [.element tag.name tag.attrs []] (.inr inside) ?_ rfl
        fun _ => le_rfl
      simp [State.add, State.goto, hs]
    | cons i is =>
      refine @Outcome.same _ _ _ _
        ({ i with kids := i.kids ++ [.element tag.name tag.attrs []] } :: is) _ _
        (.inl (by simp)) ?_ fun h => by cases h
      simp [State.add, State.goto, hs]
  | pop inside stack =>
    rename_i g gs
    rw [hs] at stack
    cases inner with
    | nil =>
      obtain ⟨rfl, rfl⟩ := List.cons.inj stack
      exact .closed inside (Kept.close _ _ _ _ _)
    | cons i is =>
      obtain ⟨rfl, rfl⟩ := List.cons.inj stack
      cases is with
      | nil =>
        refine @Outcome.of_off _ _ _ _ [] _ _ [.element i.name i.attrs i.kids] (.inr inside) ?_ rfl
          fun _ => le_rfl
        simp [State.add, State.goto]
      | cons k ks =>
        refine @Outcome.same _ _ _ _
          ({ k with kids := k.kids ++ [.element i.name i.attrs i.kids] } :: ks) _ _
          (.inl (by simp)) ?_ fun h => by cases h
        simp [State.add, State.goto]

end Outcome

theorem Kept.step {rest : List Frame} {node : Node} (hk : Kept rest node s.stack s.root)
    (h : Effect c s s') : Kept rest node s'.stack s'.root := by
  induction rest generalizing node with
  | nil =>
    obtain ⟨hs, hr⟩ := hk
    have hopen : ¬ (s.stack ≠ [] ∨ s.root = none) := by simp [hs, hr]
    cases h with
    | markup | content => exact ⟨hs, hr⟩
    | emit inside stack => exact absurd (hs.symm.trans stack) (by simp)
    | push inside admits => exact absurd admits hopen
    | add inside admits => exact absurd admits hopen
    | pop inside stack => exact absurd (hs.symm.trans stack) (by simp)
  | cons g gs ih =>
    rcases hk with ⟨inner, more, hs⟩ | ⟨more, hk⟩
    · cases h.outcome hs with
      | opened stack =>
        rename_i inner' nodes _ _
        exact .inl ⟨inner', more ++ nodes, by simpa using stack⟩
      | closed inside kept => exact .inr ⟨more, kept⟩
    · exact .inr ⟨more, ih hk⟩

theorem Kept.run {rest : List Frame} {node : Node} {cs : JsString}
    (hk : Kept rest node s.stack s.root) (h : run s cs = some s') :
    Kept rest node s'.stack s'.root := by
  induction cs generalizing s with
  | nil =>
    cases h
    exact hk
  | cons c cs ih =>
    obtain ⟨t, ht, h⟩ := Option.bind_eq_some_iff.mp h
    exact ih (hk.step (step_effect ht)) h

/-- The path to an element below frames, the innermost first. -/
def fullPath : List Frame → List JsString → List JsString
  | [], path => path
  | g :: gs, path => fullPath gs (g.name :: path)

/-- What the path leads to in the kids of the frames. -/
def seenAt : List Frame → List JsString → List (List Node)
  | [], _ => []
  | g :: gs, path => seenAt gs (g.name :: path) ++ kidsAt path g.kids

/-- **A closed element in the end**: what a path leads to before it, in it, and behind it. -/
theorem Kept.kidsAt {rest : List Frame} {node : Node} {root : Option Node}
    (hk : Kept rest node [] root) (name : JsString) (path : List JsString) :
    ∃ r more, root = some r ∧ Xml.kidsAt (fullPath rest (name :: path)) [r] =
      seenAt rest (name :: path) ++ (Xml.kidsAt (name :: path) [node] ++ more) := by
  induction rest generalizing node name path with
  | nil => exact ⟨node, [], hk.2, by simp [fullPath, seenAt]⟩
  | cons g gs ih =>
    rcases hk with ⟨inner, more, hs⟩ | ⟨kids, hk⟩
    · simp at hs
    · obtain ⟨r, more, hr, h⟩ := ih hk g.name (name :: path)
      have hin : Xml.kidsAt (g.name :: name :: path)
          [.element g.name g.attrs (g.kids ++ node :: kids)] =
          Xml.kidsAt (name :: path) (g.kids ++ ([node] ++ kids)) := by
        simp [Xml.kidsAt, named]
      rw [hin, kidsAt_append, kidsAt_append] at h
      exact ⟨r, Xml.kidsAt (name :: path) kids ++ more, hr, by
        rw [fullPath, h, seenAt]
        simp⟩

end Logix.Xml
