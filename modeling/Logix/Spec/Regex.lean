import Mathlib.Data.List.Basic
import Mathlib.Data.List.TakeWhile
import Mathlib.Data.Nat.Find
import Mathlib.Data.Nat.Notation

/-!
# Backtracking regular expressions

Expressions over an alphabet `α`, matched as scripting languages do: the first place of the text
where the expression matches, and there the first way that backtracking finds.

* `Regex`, `lit`, `alts`: expressions; a repetition is greedy and of single units;
* `Cursor`, `steps`: a place in the text, and where an expression may end, in order of priority;
* `exec`, `test`, `capture`: the leftmost match, whether there is one, and the text of its group;
* `Matches`: the matches without their order, **`test_iff`**: `test` finds one if there is one;
* `exec_eq_of_first`: `exec` finds the first place;
* `tagged`, **`capture_tagged`**: the group behind the first place at which a literal stands before
  enough units of a class; `FollowsFirst`: what follows the first literal;
* `removeAll`: every match is removed, **`removeAll_bracketed`**: what is left of a text whose
  brackets are removed.
-/

namespace Logix.Spec

variable {α : Type}

/-- **Regular expressions.** -/
inductive Regex (α : Type) where
  | empty
  | unit (p : α → Bool)
  /-- `\b`, where `isWord` tells the units of words. -/
  | boundary (isWord : α → Bool)
  | seq (r s : Regex α)
  | alt (r s : Regex α)
  /-- A class, at least `lo` and at most `hi` times. -/
  | rep (p : α → Bool) (lo hi : ℕ)
  /-- The group whose text is reported. -/
  | group (r : Regex α)

/-- **A place in a text**: what is before it, the nearest unit first, and what is after it. -/
structure Cursor (α : Type) where
  before : List α
  after : List α
  captured : Option (List α) := none

/-- The place `k` units later. -/
def Cursor.advance (c : Cursor α) (k : ℕ) : Cursor α :=
  ⟨(c.after.take k).reverse ++ c.before, c.after.drop k, c.captured⟩

namespace Regex

/-- A text, unit by unit, up to what `f` forgets. -/
def lit [DecidableEq α] (f : α → α) (w : List α) : Regex α :=
  w.foldr (fun a r => seq (unit fun x => decide (f x = f a)) r) empty

/-- Alternatives, from first to last. -/
def alts (rs : List (Regex α)) : Regex α := rs.foldr alt (unit fun _ => false)

/-- Is exactly one of the two neighbours a unit of a word? -/
def atBoundary (isWord : α → Bool) (before after : List α) : Bool :=
  before.head?.any isWord != after.head?.any isWord

/-- **Where an expression may end**, the preferred places first. -/
def steps : Regex α → Cursor α → List (Cursor α)
  | empty, c => [c]
  | unit p, c => if c.after.head?.any p then [c.advance 1] else []
  | boundary isWord, c => if atBoundary isWord c.before c.after then [c] else []
  | seq r s, c => (steps r c).flatMap (steps s)
  | alt r s, c => steps r c ++ steps s c
  | rep p lo hi, c =>
    let most := min hi (c.after.takeWhile p).length
    (List.range' lo (most + 1 - lo)).reverse.map c.advance
  | group r, c => (steps r c).map fun c' =>
    { c' with captured := some (c.after.take (c.after.length - c'.after.length)) }

/-- The first match from a place on. -/
def execFrom (r : Regex α) (before : List α) : List α → Option (Cursor α)
  | [] => (steps r ⟨before, [], none⟩).head?
  | a :: after =>
    (steps r ⟨before, a :: after, none⟩).head?.or (execFrom r (a :: before) after)

/-- **The leftmost match.** -/
def exec (r : Regex α) (s : List α) : Option (Cursor α) := execFrom r [] s

/-- `r.test(s)`. -/
def test (r : Regex α) (s : List α) : Bool := (exec r s).isSome

/-- `s.match(r)[1]`. -/
def capture (r : Regex α) (s : List α) : Option (List α) := (exec r s).bind Cursor.captured

/-! ## Matches -/

/-- **`r` matches `m`** between `before`, the nearest unit first, and `after`. -/
def Matches : Regex α → List α → List α → List α → Prop
  | empty, _, m, _ => m = []
  | unit p, _, m, _ => ∃ a, m = [a] ∧ p a = true
  | boundary isWord, before, m, after => m = [] ∧ atBoundary isWord before after = true
  | seq r s, before, m, after => ∃ m₁ m₂, m = m₁ ++ m₂ ∧ Matches r before m₁ (m₂ ++ after) ∧
      Matches s (m₁.reverse ++ before) m₂ after
  | alt r s, before, m, after => Matches r before m after ∨ Matches s before m after
  | rep p lo hi, _, m, _ => lo ≤ m.length ∧ m.length ≤ hi ∧ ∀ a ∈ m, p a = true
  | group r, before, m, after => Matches r before m after

variable {r : Regex α} {c c' : Cursor α} {before m after : List α}

theorem matches_lit_iff [DecidableEq α] {f : α → α} {w : List α} :
    Matches (lit f w) before m after ↔ m.map f = w.map f := by
  induction w generalizing before m with
  | nil => simp [lit, Matches]
  | cons a w ih =>
    constructor
    · rintro ⟨m₁, m₂, rfl, ⟨x, rfl, hx⟩, htail⟩
      rw [List.map_append, ih.mp htail, List.map_cons]
      simpa using hx
    · intro h
      cases m with
      | nil => simp at h
      | cons x m =>
        obtain ⟨hx, hm⟩ := List.cons.inj h
        exact ⟨[x], m, rfl, ⟨x, rfl, by simpa using hx⟩, ih.mpr hm⟩

theorem matches_alts_iff {rs : List (Regex α)} :
    Matches (alts rs) before m after ↔ ∃ r ∈ rs, Matches r before m after := by
  induction rs with
  | nil => simp [alts, Matches]
  | cons r rs ih =>
    rw [List.exists_mem_cons_iff, ← ih]
    rfl

theorem matches_word_iff {isWord : α → Bool} {P : List α → Prop}
    (hr : ∀ before m after, Matches r before m after ↔ P m)
    (hP : ∀ m, P m → m ≠ [] ∧ ∀ a ∈ m, isWord a = true) :
    Matches (seq (boundary isWord) (seq r (boundary isWord))) before m after ↔
      P m ∧ before.head?.any isWord = false ∧ after.head?.any isWord = false := by
  -- the units of the word next to the two boundaries
  have hfirst : ∀ m after : List α, P m → (m ++ after).head?.any isWord = true := by
    intro m after h
    obtain ⟨hne, hall⟩ := hP m h
    obtain ⟨x, m, rfl⟩ := List.exists_cons_of_ne_nil hne
    exact hall x List.mem_cons_self
  have hlast : ∀ m before : List α, P m → (m.reverse ++ before).head?.any isWord = true := by
    intro m before h
    obtain ⟨hne, hall⟩ := hP m h
    obtain ⟨x, m', hx⟩ := List.exists_cons_of_ne_nil (mt List.reverse_eq_nil_iff.mp hne)
    rw [hx]
    exact hall x (List.mem_reverse.mp (hx ▸ List.mem_cons_self))
  constructor
  · rintro ⟨_, _, rfl, ⟨rfl, hb⟩, m, _, rfl, hm, ⟨rfl, ha⟩⟩
    have hPm := (hr _ _ _).mp hm
    simp only [atBoundary, List.append_nil, List.nil_append, List.reverse_nil, hfirst m after hPm,
      hlast m before hPm, bne_iff_ne, ne_eq, Bool.not_eq_true, Bool.true_eq] at hb ha ⊢
    exact ⟨hPm, hb, ha⟩
  · rintro ⟨hPm, hb, ha⟩
    refine ⟨[], m, rfl, ⟨rfl, ?_⟩, m, [], by simp, (hr _ _ _).mpr hPm, rfl, ?_⟩
    · rw [atBoundary, hb, hfirst m after hPm]
      rfl
    · rw [atBoundary, List.reverse_nil, List.nil_append, ha, hlast m before hPm]
      rfl

theorem head?_any_of_filter {p isWord : α → Bool} (hp : ∀ a, p a = false → isWord a = false)
    {s : List α} (h : (s.filter p).head?.any isWord = false) : s.head?.any isWord = false := by
  cases s with
  | nil => rfl
  | cons a s =>
    cases ha : p a with
    | false => exact hp a ha
    | true => simpa [ha] using h

theorem exists_advance {k : ℕ} (h : k ≤ c.after.length) : ∃ m, m.length = k ∧
    (c.advance k).before = m.reverse ++ c.before ∧ c.after = m ++ (c.advance k).after :=
  ⟨c.after.take k, List.length_take_of_le h, rfl, (List.take_append_drop k c.after).symm⟩

theorem advance_length {post : List α} (h : c.after = m ++ post) :
    c.advance m.length = ⟨m.reverse ++ c.before, post, c.captured⟩ := by
  rw [Cursor.advance, h, List.take_left, List.drop_left]

theorem matches_of_mem_steps (h : c' ∈ steps r c) : ∃ m, c'.before = m.reverse ++ c.before ∧
    c.after = m ++ c'.after ∧ Matches r c.before m c'.after := by
  induction r generalizing c c' with
  | empty =>
    obtain rfl := List.mem_singleton.mp h
    exact ⟨[], rfl, rfl, rfl⟩
  | unit p =>
    unfold steps at h
    split_ifs at h with hp
    · obtain rfl := List.mem_singleton.mp h
      obtain ⟨a, after, ha⟩ : ∃ a after, c.after = a :: after := by
        cases hc : c.after with
        | nil => simp [hc] at hp
        | cons a after => exact ⟨a, after, rfl⟩
      refine ⟨[a], by simp [Cursor.advance, ha], by simp [Cursor.advance, ha], a, rfl, ?_⟩
      simpa [ha] using hp
    · exact absurd h List.not_mem_nil
  | boundary isWord =>
    unfold steps at h
    split_ifs at h with hb
    · obtain rfl := List.mem_singleton.mp h
      exact ⟨[], rfl, rfl, rfl, hb⟩
    · exact absurd h List.not_mem_nil
  | seq r s ihr ihs =>
    obtain ⟨d, hd, h⟩ := List.mem_flatMap.mp h
    obtain ⟨m₁, hb₁, ha₁, hm₁⟩ := ihr hd
    obtain ⟨m₂, hb₂, ha₂, hm₂⟩ := ihs h
    refine ⟨m₁ ++ m₂, by rw [hb₂, hb₁, List.reverse_append, List.append_assoc],
      by rw [ha₁, ha₂, List.append_assoc], m₁, m₂, rfl, ?_, ?_⟩
    · rwa [ha₂] at hm₁
    · rwa [hb₁] at hm₂
  | alt r s ihr ihs =>
    rcases List.mem_append.mp h with h | h
    · obtain ⟨m, hb, ha, hm⟩ := ihr h
      exact ⟨m, hb, ha, Or.inl hm⟩
    · obtain ⟨m, hb, ha, hm⟩ := ihs h
      exact ⟨m, hb, ha, Or.inr hm⟩
  | rep p lo hi =>
    obtain ⟨k, hk, rfl⟩ := List.mem_map.mp h
    rw [List.mem_reverse, List.mem_range'_1] at hk
    have hle : k ≤ (c.after.takeWhile p).length := by omega
    have htake : c.after.take k <+: c.after.takeWhile p := by
      refine List.prefix_of_prefix_length_le (List.take_prefix k _) (List.takeWhile_prefix p) ?_
      rw [List.length_take]
      omega
    obtain ⟨m, hlen, hb, ha⟩ := exists_advance (hle.trans (List.takeWhile_prefix p).length_le)
    have hm : m = c.after.take k := by rw [ha, ← hlen, List.take_left]
    refine ⟨m, hb, ha, by omega, by omega, fun a hmem => ?_⟩
    exact List.mem_takeWhile_imp (htake.subset (hm ▸ hmem))
  | group r ih =>
    obtain ⟨d, hd, rfl⟩ := List.mem_map.mp h
    obtain ⟨m, hb, ha, hm⟩ := ih hd
    exact ⟨m, hb, ha, hm⟩

theorem exists_mem_steps {post : List α} (ha : c.after = m ++ post)
    (h : Matches r c.before m post) :
    ∃ c' ∈ steps r c, c'.before = m.reverse ++ c.before ∧ c'.after = post := by
  induction r generalizing c m post with
  | empty =>
    obtain rfl : m = [] := h
    exact ⟨c, List.mem_singleton_self c, rfl, ha⟩
  | unit p =>
    obtain ⟨a, rfl, hp⟩ := h
    refine ⟨c.advance 1, ?_, by simp [Cursor.advance, ha], by simp [Cursor.advance, ha]⟩
    simp [steps, ha, hp]
  | boundary isWord =>
    obtain ⟨rfl, hb⟩ := h
    refine ⟨c, ?_, rfl, ha⟩
    rw [List.nil_append] at ha
    simp [steps, ha, hb]
  | seq r s ihr ihs =>
    obtain ⟨m₁, m₂, rfl, hm₁, hm₂⟩ := h
    rw [List.append_assoc] at ha
    obtain ⟨d, hd, hdb, hda⟩ := ihr ha hm₁
    obtain ⟨c', hc', hcb, hca⟩ := ihs hda (hdb ▸ hm₂)
    refine ⟨c', List.mem_flatMap.mpr ⟨d, hd, hc'⟩, ?_, hca⟩
    rw [hcb, hdb, List.reverse_append, List.append_assoc]
  | alt r s ihr ihs =>
    rcases h with h | h
    · obtain ⟨c', hc', hcb, hca⟩ := ihr ha h
      exact ⟨c', List.mem_append_left _ hc', hcb, hca⟩
    · obtain ⟨c', hc', hcb, hca⟩ := ihs ha h
      exact ⟨c', List.mem_append_right _ hc', hcb, hca⟩
  | rep p lo hi =>
    obtain ⟨hlo, hhi, hp⟩ := h
    have hle : m.length ≤ (c.after.takeWhile p).length := by
      rw [ha, List.takeWhile_append_of_pos hp, List.length_append]
      omega
    refine ⟨c.advance m.length, ?_, by rw [advance_length ha], by rw [advance_length ha]⟩
    refine List.mem_map.mpr ⟨m.length, ?_, rfl⟩
    rw [List.mem_reverse, List.mem_range'_1]
    omega
  | group r ih =>
    obtain ⟨c', hc', hcb, hca⟩ := ih ha h
    exact ⟨_, List.mem_map_of_mem hc', hcb, hca⟩

/-! ## The leftmost match -/

theorem isSome_execFrom_iff {s : List α} : (execFrom r before s).isSome = true ↔
    ∃ a b, s = a ++ b ∧ steps r ⟨a.reverse ++ before, b, none⟩ ≠ [] := by
  induction s generalizing before with
  | nil =>
    rw [execFrom, List.isSome_head?]
    constructor
    · exact fun h => ⟨[], [], rfl, by simpa using h⟩
    · rintro ⟨a, b, hab, h⟩
      obtain ⟨rfl, rfl⟩ := List.append_eq_nil_iff.mp hab.symm
      simpa using h
  | cons x s ih =>
    rw [execFrom, Option.isSome_or, Bool.or_eq_true, ih, List.isSome_head?]
    constructor
    · rintro (h | ⟨a, b, rfl, h⟩)
      · exact ⟨[], x :: s, rfl, by simpa using h⟩
      · exact ⟨x :: a, b, rfl, by simpa using h⟩
    · rintro ⟨a, b, hab, h⟩
      cases a with
      | nil =>
        obtain rfl : x :: s = b := hab
        exact Or.inl (by simpa using h)
      | cons y a =>
        obtain ⟨rfl, rfl⟩ := List.cons.inj hab
        exact Or.inr ⟨a, b, rfl, by simpa using h⟩

/-- **`test` finds a match** if there is one. -/
theorem test_iff {s : List α} :
    test r s = true ↔ ∃ a m b, s = a ++ m ++ b ∧ Matches r a.reverse m b := by
  rw [test, exec, isSome_execFrom_iff]
  constructor
  · rintro ⟨a, b, rfl, h⟩
    obtain ⟨c, hc⟩ := List.exists_mem_of_ne_nil _ h
    obtain ⟨m, -, ha, hm⟩ := matches_of_mem_steps hc
    refine ⟨a, m, c.after, ?_, by simpa using hm⟩
    rw [List.append_assoc]
    exact congrArg (a ++ ·) ha
  · rintro ⟨a, m, b, rfl, h⟩
    obtain ⟨c, hc, -, -⟩ := exists_mem_steps (c := ⟨a.reverse ++ [], m ++ b, none⟩) rfl
      (by simpa using h)
    exact ⟨a, m ++ b, List.append_assoc a m b, List.ne_nil_of_mem hc⟩

/-- **A match in what is left of a text** is a match in the text, with gaps. -/
theorem test_filter_iff {s : List α} {p : α → Bool} : test r (s.filter p) = true ↔
    ∃ a m b, s = a ++ m ++ b ∧ Matches r (a.filter p).reverse (m.filter p) (b.filter p) := by
  rw [test_iff]
  constructor
  · rintro ⟨a, m, b, hs, h⟩
    obtain ⟨am, b, rfl, ham, rfl⟩ := List.filter_eq_append_iff.mp hs
    obtain ⟨a, m, rfl, rfl, rfl⟩ := List.filter_eq_append_iff.mp ham
    exact ⟨a, m, b, rfl, h⟩
  · rintro ⟨a, m, b, rfl, h⟩
    exact ⟨_, _, _, by rw [List.filter_append, List.filter_append], h⟩

/-- **`exec` takes the first place** at which there is a step. -/
theorem exec_eq_of_first {a b : List α}
    (hfirst : ∀ a' b', a ++ b = a' ++ b' → a'.length < a.length →
      steps r ⟨a'.reverse, b', none⟩ = [])
    (hc : (steps r ⟨a.reverse, b, none⟩).head? = some c) : exec r (a ++ b) = some c := by
  have key : ∀ (before a : List α), (∀ a' b', a ++ b = a' ++ b' → a'.length < a.length →
      steps r ⟨a'.reverse ++ before, b', none⟩ = []) →
      (steps r ⟨a.reverse ++ before, b, none⟩).head? = some c →
      execFrom r before (a ++ b) = some c := by
    intro before a
    induction a generalizing before with
    | nil =>
      intro _ hc
      rw [List.reverse_nil, List.nil_append] at hc
      cases b with
      | nil => exact hc
      | cons x b => rw [List.nil_append, execFrom, hc, Option.some_or]
    | cons x a ih =>
      intro hfirst hc
      have hnone := hfirst [] (x :: a ++ b) rfl (by simp)
      rw [List.reverse_nil, List.nil_append] at hnone
      rw [List.cons_append] at hnone ⊢
      rw [execFrom, hnone, List.head?_nil, Option.none_or]
      refine ih (x :: before) (fun a' b' hab hlt => ?_) (by simpa using hc)
      simpa using hfirst (x :: a') b' (congrArg (x :: ·) hab) (by simpa using hlt)
  refine key [] a (fun a' b' hab hlt => ?_) (by simpa using hc)
  simpa using hfirst a' b' hab hlt

/-! ## A literal before a group -/

theorem advance_advance (c : Cursor α) (j k : ℕ) : (c.advance j).advance k = c.advance (j + k) := by
  simp [Cursor.advance, List.take_add]

theorem head?_steps_rep (c : Cursor α) (p : α → Bool) {lo hi : ℕ}
    (hlo : lo ≤ min hi (c.after.takeWhile p).length) :
    (steps (rep p lo hi) c).head? = some (c.advance (min hi (c.after.takeWhile p).length)) := by
  obtain ⟨n, hn⟩ : ∃ n, min hi (c.after.takeWhile p).length = lo + n :=
    Nat.exists_eq_add_of_le hlo
  have hcount : lo + n + 1 - lo = n + 1 := by omega
  rw [steps, hn, hcount, List.range'_concat, List.reverse_append, List.reverse_singleton,
    List.map_append, List.map_singleton, List.singleton_append, List.head?_cons, Nat.one_mul]

theorem take_min_takeWhile (s : List α) (p : α → Bool) (hi : ℕ) :
    s.take (min hi (s.takeWhile p).length) = (s.takeWhile p).take hi := by
  rw [← List.take_take, ← List.prefix_iff_eq_take.mp (List.takeWhile_prefix p)]

section Tagged

variable [DecidableEq α] {w : List α} {p : α → Bool} {lo hi : ℕ}

/-- A literal, and the units of a class behind it as the group. -/
def tagged (w : List α) (p : α → Bool) (lo hi : ℕ) : Regex α :=
  seq (lit id w) (group (rep p lo hi))

theorem steps_lit (w : List α) (c : Cursor α) :
    steps (lit id w) c = if w <+: c.after then [c.advance w.length] else [] := by
  induction w generalizing c with
  | nil => simp [lit, steps, Cursor.advance]
  | cons a w ih =>
    have hstep : steps (lit id (a :: w)) c =
        (steps (unit fun x => decide (id x = id a)) c).flatMap (steps (lit id w)) := rfl
    rw [hstep, steps]
    cases hc : c.after with
    | nil => simp
    | cons x after =>
      by_cases hx : x = a
      · subst hx
        have hafter : (c.advance 1).after = after := by simp [Cursor.advance, hc]
        simp [ih, hafter, advance_advance, Nat.add_comm 1]
      · simp [hx, Ne.symm hx]

theorem steps_tagged_eq_nil {b : List α}
    (h : ∀ b', b = w ++ b' → (b'.takeWhile p).length < lo) :
    steps (tagged w p lo hi) ⟨before, b, none⟩ = [] := by
  rw [tagged, steps, steps_lit]
  split_ifs with hw
  · obtain ⟨b', rfl⟩ := hw
    have hshort := h b' rfl
    have hafter : (Cursor.advance ⟨before, w ++ b', none⟩ w.length).after = b' := by
      simp [Cursor.advance]
    have hzero : min hi (b'.takeWhile p).length + 1 - lo = 0 := by omega
    simp only [List.flatMap_singleton, steps, hafter, hzero, List.range'_zero, List.reverse_nil,
      List.map_nil]
  · rfl

theorem head?_steps_tagged (before : List α) {b : List α} (hlo : lo ≤ (b.takeWhile p).length)
    (hle : lo ≤ hi) :
    ∃ c, (steps (tagged w p lo hi) ⟨before, w ++ b, none⟩).head? = some c ∧
      c.captured = some ((b.takeWhile p).take hi) := by
  have hafter : (Cursor.advance ⟨before, w ++ b, none⟩ w.length).after = b := by
    simp [Cursor.advance]
  have hmin : lo ≤ min hi (b.takeWhile p).length := le_min hle hlo
  have hhead := head?_steps_rep (Cursor.advance ⟨before, w ++ b, none⟩ w.length) p
    (hafter.symm ▸ hmin)
  have hlen : min hi (b.takeWhile p).length ≤ b.length :=
    (Nat.min_le_right _ _).trans (List.takeWhile_prefix p).length_le
  rw [hafter] at hhead
  rw [tagged, steps, steps_lit, if_pos (List.prefix_append w b), List.flatMap_singleton, steps,
    List.head?_map, hhead, Option.map_some]
  refine ⟨_, rfl, congrArg some ?_⟩
  rw [← take_min_takeWhile, hafter]
  congr 1
  rw [Cursor.advance, hafter, List.length_drop]
  omega

/-- **The group behind the first place** at which the literal stands before enough units. -/
theorem capture_tagged {a b : List α} (hlo : lo ≤ (b.takeWhile p).length) (hle : lo ≤ hi)
    (hfirst : ∀ a' b', a ++ (w ++ b) = a' ++ (w ++ b') → a'.length < a.length →
      (b'.takeWhile p).length < lo) :
    capture (tagged w p lo hi) (a ++ (w ++ b)) = some ((b.takeWhile p).take hi) := by
  obtain ⟨c, hc, hcap⟩ := head?_steps_tagged (w := w) a.reverse hlo hle
  rw [capture, exec_eq_of_first ?_ hc, Option.bind_some, hcap]
  intro a' b' hab hlt
  exact steps_tagged_eq_nil fun b'' hb => hfirst a' b'' (hb ▸ hab) hlt

/-- `b` is what follows the first `w` in `s`. -/
def FollowsFirst (w s b : List α) : Prop :=
  ∃ a, s = a ++ (w ++ b) ∧ ∀ a' b', s = a' ++ (w ++ b') → a.length ≤ a'.length

omit [DecidableEq α] in
theorem exists_followsFirst {s a b : List α} (hs : s = a ++ (w ++ b)) :
    ∃ b', FollowsFirst w s b' ∧ b.length ≤ b'.length := by
  classical
  have hex : ∃ n, ∃ a' b', s = a' ++ (w ++ b') ∧ a'.length = n := ⟨_, a, b, hs, rfl⟩
  obtain ⟨a', b', hs', hlen⟩ := Nat.find_spec hex
  have hmin : ∀ a'' b'', s = a'' ++ (w ++ b'') → a'.length ≤ a''.length :=
    fun a'' b'' h => hlen ▸ Nat.find_min' hex ⟨a'', b'', h, rfl⟩
  refine ⟨b', ⟨a', hs', hmin⟩, ?_⟩
  have hle := hmin a b hs
  have htotal := congrArg List.length (hs.symm.trans hs')
  simp only [List.length_append] at htotal
  omega

omit [DecidableEq α] in
theorem FollowsFirst.unique {s b b' : List α} (h : FollowsFirst w s b) (h' : FollowsFirst w s b') :
    b = b' := by
  obtain ⟨a, rfl, hfirst⟩ := h
  obtain ⟨a', hab, hfirst'⟩ := h'
  have hlen : a.length = a'.length := le_antisymm (hfirst a' b' hab) (hfirst' a b rfl)
  exact List.append_cancel_left (List.append_inj_right hab hlen)

/-- **The group behind the first literal**, where enough units follow it. -/
theorem FollowsFirst.capture_eq {s b : List α} (h : FollowsFirst w s b)
    (hlo : lo ≤ (b.takeWhile p).length) (hle : lo ≤ hi) :
    capture (tagged w p lo hi) s = some ((b.takeWhile p).take hi) := by
  obtain ⟨a, rfl, hfirst⟩ := h
  exact capture_tagged hlo hle fun a' b' hab hlt => absurd (hfirst a' b' hab) (Nat.not_le.mpr hlt)

end Tagged

/-! ## Removing the matches -/

/-- The rounds of `removeAll`: each removes the first match from the place on; after an empty match
the next unit is kept. -/
def removeFrom (r : Regex α) : ℕ → List α → List α → List α
  | 0, _, s => s
  | n + 1, before, s =>
    match execFrom (group r) before s with
    | none => s
    | some c =>
      let m := c.captured.getD []
      let kept := s.take (s.length - c.after.length - m.length)
      match m, c.after with
      | [], [] => kept
      | [], a :: after => kept ++ a :: removeFrom r n (a :: c.before) after
      | _ :: _, after => kept ++ removeFrom r n c.before after

/-- **`s.replace(r, "")`** with the flag `g`: there are no more rounds than units and one. -/
def removeAll (r : Regex α) (s : List α) : List α := removeFrom r (s.length + 1) [] s

/-- From an opening unit up to the closing one, or to the end of the text. -/
def bracketed (isOpen isClose : α → Bool) (most : ℕ) : Regex α :=
  seq (unit isOpen) (seq (rep (fun a => !isClose a) 0 most) (rep isClose 0 1))

/-- What is left outside of the brackets; inside of them, if `inside`. -/
def outside (isOpen isClose : α → Bool) : Bool → List α → List α
  | _, [] => []
  | false, a :: s => if isOpen a then outside isOpen isClose true s
      else a :: outside isOpen isClose false s
  | true, a :: s => if isClose a then outside isOpen isClose false s
      else outside isOpen isClose true s

variable {isOpen isClose : α → Bool} {most : ℕ}

/-- Behind the closing unit. -/
def afterClose (isClose : α → Bool) (s : List α) : List α :=
  (s.dropWhile fun a => !isClose a).drop 1

theorem outside_inside (s : List α) :
    outside isOpen isClose true s = outside isOpen isClose false (afterClose isClose s) := by
  induction s with
  | nil => rfl
  | cons a s ih =>
    rw [outside, afterClose, List.dropWhile_cons]
    by_cases ha : isClose a = true
    · rw [if_pos ha, if_neg (by simp [ha])]
      rfl
    · rw [if_neg ha, if_pos (by simp [ha]), ih]
      rfl

theorem outside_append {a : List α} (ha : ∀ x ∈ a, isOpen x = false) (s : List α) :
    outside isOpen isClose false (a ++ s) = a ++ outside isOpen isClose false s := by
  induction a with
  | nil => rfl
  | cons x a ih =>
    have hx : ¬ isOpen x = true := by simp [ha x List.mem_cons_self]
    rw [List.cons_append, outside, if_neg hx, ih fun y hy => ha y (List.mem_cons_of_mem x hy)]
    rfl

theorem steps_bracketed_of_not_open {x : α} (hx : isOpen x = false) (before s : List α) :
    steps (group (bracketed isOpen isClose most)) ⟨before, x :: s, none⟩ = [] := by
  simp [bracketed, steps, hx]

theorem head?_flatMap_of_head? {β : Type} {f : α → List β} {l : List α} {a : α} {b : β}
    (ha : l.head? = some a) (hb : (f a).head? = some b) : (l.flatMap f).head? = some b := by
  obtain ⟨l, rfl⟩ := List.head?_eq_some_iff.mp ha
  rw [List.flatMap_cons, List.head?_append, hb, Option.some_or]

theorem drop_length_takeWhile (p : α → Bool) (s : List α) :
    s.drop (s.takeWhile p).length = s.dropWhile p := by
  calc s.drop (s.takeWhile p).length
      = (s.takeWhile p ++ s.dropWhile p).drop (s.takeWhile p).length := by
        rw [List.takeWhile_append_dropWhile]
    _ = s.dropWhile p := List.drop_left

theorem drop_afterClose (s : List α) :
    (s.dropWhile fun a => !isClose a).drop
      (min 1 ((s.dropWhile fun a => !isClose a).takeWhile isClose).length) =
      afterClose isClose s := by
  rw [afterClose]
  cases h : s.dropWhile fun a => !isClose a with
  | nil => rfl
  | cons a rest =>
    have ha : isClose a = true := by
      have := List.head?_dropWhile_not (fun a => !isClose a) s
      simpa [h] using this
    simp [ha]

variable (isClose most) in
theorem exists_steps_bracketed {x : α} (hx : isOpen x = true) (before : List α) {s : List α}
    (hmost : s.length ≤ most) : ∃ c m, (steps (group (bracketed isOpen isClose most))
        ⟨before, x :: s, none⟩).head? = some c ∧ c.captured = some (x :: m) ∧
      s = m ++ c.after ∧ c.after = afterClose isClose s := by
  set k := (s.takeWhile fun a => !isClose a).length with hk
  have hk' : min most k = k := min_eq_right ((List.takeWhile_prefix _).length_le.trans hmost)
  have hdrop : s.drop k = s.dropWhile fun a => !isClose a := drop_length_takeWhile _ s
  set k₂ := min 1 ((s.dropWhile fun a => !isClose a).takeWhile isClose).length with hk₂
  have hinner : (steps (bracketed isOpen isClose most) ⟨before, x :: s, none⟩).head? =
      some ((Cursor.advance ⟨x :: before, s, none⟩ k).advance k₂) := by
    have hunit : steps (unit isOpen) ⟨before, x :: s, none⟩ = [⟨x :: before, s, none⟩] := by
      simp [steps, hx, Cursor.advance]
    rw [bracketed, steps, hunit, List.flatMap_singleton, steps]
    refine head?_flatMap_of_head? (head?_steps_rep _ _ (Nat.zero_le _)) ?_
    rw [← hk, hk', hk₂, ← hdrop]
    exact head?_steps_rep _ _ (Nat.zero_le _)
  have hafter : (s.drop (k + k₂)) = afterClose isClose s := by
    rw [← List.drop_drop, hdrop, drop_afterClose]
  have hlen : k + k₂ ≤ s.length := by
    have htotal := congrArg List.length
      (List.takeWhile_append_dropWhile (p := fun a => !isClose a) (l := s))
    have hsub := (List.takeWhile_prefix (l := s.dropWhile fun a => !isClose a) isClose).length_le
    rw [List.length_append] at htotal
    omega
  rw [advance_advance] at hinner
  refine ⟨_, s.take (k + k₂), by rw [steps, List.head?_map, hinner, Option.map_some], ?_, ?_, ?_⟩
  · have hcount : (x :: s).length - (s.drop (k + k₂)).length = k + k₂ + 1 := by
      rw [List.length_cons, List.length_drop]
      omega
    exact congrArg (fun n => some ((x :: s).take n)) hcount
  · exact (List.take_append_drop _ s).symm
  · exact hafter

theorem execFrom_cons_of_nil {x : α} {s : List α} (h : steps r ⟨before, x :: s, none⟩ = []) :
    execFrom r before (x :: s) = execFrom r (x :: before) s := by
  rw [execFrom, h, List.head?_nil, Option.none_or]

theorem execFrom_bracketed_append {a : List α} (ha : ∀ x ∈ a, isOpen x = false)
    (before s : List α) :
    execFrom (group (bracketed isOpen isClose most)) before (a ++ s) =
      execFrom (group (bracketed isOpen isClose most)) (a.reverse ++ before) s := by
  induction a generalizing before with
  | nil => rfl
  | cons x a ih =>
    have hx := ha x List.mem_cons_self
    rw [List.cons_append, execFrom_cons_of_nil (steps_bracketed_of_not_open hx _ _),
      ih fun y hy => ha y (List.mem_cons_of_mem x hy), List.reverse_cons, List.append_assoc]
    rfl

theorem execFrom_bracketed_nil (before : List α) :
    execFrom (group (bracketed isOpen isClose most)) before [] = none := rfl

/-- **Removing the brackets**: what is left is what is outside of them. -/
theorem removeFrom_bracketed {n : ℕ} {before s : List α} (hn : s.length < n)
    (hmost : s.length ≤ most) :
    removeFrom (bracketed isOpen isClose most) n before s = outside isOpen isClose false s := by
  induction n generalizing before s with
  | zero => omega
  | succ n ih =>
    -- the text up to the first bracket
    obtain ⟨a, b, hs, ha, hb⟩ : ∃ a b, s = a ++ b ∧ (∀ x ∈ a, isOpen x = false) ∧
        ∀ x ∈ b.head?, isOpen x = true := by
      refine ⟨s.takeWhile fun x => !isOpen x, s.dropWhile fun x => !isOpen x,
        List.takeWhile_append_dropWhile.symm, fun x hx => ?_, fun x hx => ?_⟩
      · simpa using List.mem_takeWhile_imp hx
      · have := List.head?_dropWhile_not (fun x => !isOpen x) s
        rw [Option.mem_def.mp hx] at this
        simpa using this
    subst hs
    rw [removeFrom, execFrom_bracketed_append ha, outside_append ha]
    cases b with
    | nil =>
      rw [execFrom_bracketed_nil]
      rfl
    | cons x b =>
      have hx : isOpen x = true := hb x rfl
      rw [List.length_append, List.length_cons] at hn hmost
      have hbmost : b.length ≤ most := by omega
      obtain ⟨c, m, hhead, hcap, hm, hafter⟩ :=
        exists_steps_bracketed isClose most hx (a.reverse ++ before) hbmost
      have hlen := congrArg List.length hm
      rw [List.length_append] at hlen
      have hkept : (a ++ x :: b).length - c.after.length - (x :: m).length = a.length := by
        rw [List.length_append, List.length_cons, List.length_cons]
        omega
      rw [execFrom, hhead, Option.some_or]
      simp only [hcap, Option.getD_some, hkept, List.take_left]
      rw [ih (by omega) (by omega), hafter, outside, if_pos hx, outside_inside]

theorem removeAll_bracketed {s : List α} (hmost : s.length ≤ most) :
    removeAll (bracketed isOpen isClose most) s = outside isOpen isClose false s :=
  removeFrom_bracketed (Nat.lt_succ_self _) hmost

theorem not_isOpen_of_mem_outside {s : List α} {inside : Bool} {x : α}
    (h : x ∈ outside isOpen isClose inside s) : isOpen x = false := by
  induction s generalizing inside with
  | nil => cases inside <;> cases h
  | cons a s ih =>
    cases inside with
    | false =>
      rw [outside] at h
      split_ifs at h with ha
      · exact ih h
      · rcases List.mem_cons.mp h with rfl | h
        · simpa using ha
        · exact ih h
    | true =>
      rw [outside] at h
      split_ifs at h with ha
      · exact ih h
      · exact ih h

theorem outside_of_not_isOpen {s : List α} (h : ∀ x ∈ s, isOpen x = false) :
    outside isOpen isClose false s = s := by
  have happend : outside isOpen isClose false (s ++ []) = s ++ outside isOpen isClose false [] :=
    outside_append h []
  rwa [List.append_nil, outside, List.append_nil] at happend

theorem outside_unclosed {s : List α} (h : ∀ y ∈ s, isClose y = false) :
    outside isOpen isClose true s = [] := by
  induction s with
  | nil => rfl
  | cons y s ih =>
    have hy : ¬ isClose y = true := by simp [h y List.mem_cons_self]
    rw [outside, if_neg hy, ih fun z hz => h z (List.mem_cons_of_mem y hz)]

theorem outside_append_unclosed {x : α} (hx : isOpen x = true) (hx' : isClose x = false)
    {s : List α} (h : ∀ y ∈ s, isClose y = false) (inside : Bool) (a : List α) :
    outside isOpen isClose inside (a ++ x :: s) = outside isOpen isClose inside a := by
  induction a generalizing inside with
  | nil =>
    cases inside with
    | false =>
      calc outside isOpen isClose false (x :: s)
          = outside isOpen isClose true s := if_pos hx
        _ = [] := outside_unclosed h
    | true =>
      calc outside isOpen isClose true (x :: s)
          = outside isOpen isClose true s := if_neg (by simp [hx'])
        _ = [] := outside_unclosed h
  | cons y a ih => cases inside <;> simp only [List.cons_append, outside, ih]

theorem outside_sublist (inside : Bool) (s : List α) :
    (outside isOpen isClose inside s).Sublist s := by
  induction s generalizing inside with
  | nil => cases inside <;> exact List.Sublist.slnil
  | cons a s ih =>
    cases inside with
    | false =>
      rw [outside]
      split_ifs
      · exact (ih true).cons a
      · exact (ih false).cons_cons a
    | true =>
      rw [outside]
      split_ifs
      · exact (ih false).cons a
      · exact (ih true).cons a

end Regex

end Logix.Spec
