import Mathlib.Algebra.BigOperators.Group.List.Basic
import Mathlib.Data.List.Perm.Basic
import Mathlib.Data.Nat.Notation

/-!
# Programs cut at their await points

An `async` function runs without interruption from one `await` to the next. A `Program` gives
these segments: a suspended call `k : κ` continues on the shared heap, and leaves a new heap, the
calls that are suspended next and the outcomes of the calls that settled.

* `Config`, `Act`, `Program.step`: the event loop starts a call or continues any suspended one;
* `Reach P ok c₀ c`: `c` is reached from `c₀` by steps that all satisfy `ok`;
* `Reach.invariant`: what holds at the start and is kept by every step holds in every
  reachable configuration;
* `Reach.local_invariant`: the same for a heap invariant together with one assertion for each
  suspended call, when every segment keeps the assertions of the other calls;
* `Program.Alone`: a call that runs to its end without interruption;
* `Program.Always`: every step of a schedule satisfies a predicate.
-/

namespace Logix.Async

variable {σ κ ι ρ : Type}

/-- What one segment leaves behind. -/
structure Segment (σ κ ρ : Type) where
  heap : σ
  waiting : List κ := []
  settled : List ρ := []

/-- **A program**: the segment that a suspended call runs, on an input from outside. -/
structure Program (σ κ ι ρ : Type) where
  run : κ → ι → σ → Segment σ κ ρ

/-- The heap, the suspended calls and the outcomes so far. -/
structure Config (σ κ ρ : Type) where
  heap : σ
  inFlight : List κ := []
  settled : List ρ := []

/-- Start a call, or continue the `n`-th suspended one. -/
inductive Act (κ ι : Type) where
  | call (k : κ) (i : ι)
  | resume (n : ℕ) (i : ι)

/-- The configuration after a segment, with `rest` the other suspended calls. -/
def Config.after (c : Config σ κ ρ) (s : Segment σ κ ρ) (rest : List κ) : Config σ κ ρ :=
  ⟨s.heap, rest ++ s.waiting, c.settled ++ s.settled⟩

/-- One turn of the event loop. -/
def Program.step (P : Program σ κ ι ρ) (c : Config σ κ ρ) : Act κ ι → Option (Config σ κ ρ)
  | .call k i => some (c.after (P.run k i c.heap) c.inFlight)
  | .resume n i => c.inFlight[n]?.map fun k => c.after (P.run k i c.heap) (c.inFlight.eraseIdx n)

/-- Act `a` runs call `k` on input `i` and leaves `rest` suspended. -/
inductive Runs (c : Config σ κ ρ) : Act κ ι → κ → ι → List κ → Prop
  | call (k : κ) (i : ι) : Runs c (.call k i) k i c.inFlight
  | resume {n : ℕ} {k : κ} (i : ι) (h : c.inFlight[n]? = some k) :
      Runs c (.resume n i) k i (c.inFlight.eraseIdx n)

variable {P : Program σ κ ι ρ} {ok : Config σ κ ρ → Act κ ι → Prop} {c₀ c c' : Config σ κ ρ}
  {a : Act κ ι}

theorem step_cases (h : P.step c a = some c') :
    ∃ k i rest, Runs c a k i rest ∧ c' = c.after (P.run k i c.heap) rest := by
  cases a with
  | call k i => exact ⟨k, i, _, .call k i, (Option.some.inj h).symm⟩
  | resume n i =>
    obtain ⟨k, hk, rfl⟩ := Option.map_eq_some_iff.mp h
    exact ⟨k, i, _, .resume i hk, rfl⟩

theorem step_resume {n : ℕ} {k : κ} (h : c.inFlight[n]? = some k) (i : ι) :
    P.step c (.resume n i) = some (c.after (P.run k i c.heap) (c.inFlight.eraseIdx n)) := by
  rw [Program.step, h]
  rfl

theorem Runs.mem_rest {k k' : κ} {i : ι} {rest : List κ} (h : Runs c a k i rest)
    (hk : k' ∈ rest) : k' ∈ c.inFlight := by
  cases h with
  | call => exact hk
  | resume i hn => exact List.mem_of_mem_eraseIdx hk

theorem Runs.call_or_mem {k : κ} {i : ι} {rest : List κ} (h : Runs c a k i rest) :
    a = .call k i ∨ k ∈ c.inFlight := by
  cases h with
  | call => exact Or.inl rfl
  | resume i hn => exact Or.inr (List.mem_of_getElem? hn)

theorem Runs.exists_mem_iff {p : κ → Prop} {k : κ} {i : ι} {rest : List κ}
    (h : Runs c a k i rest) (hnew : a = .call k i → ¬ p k) :
    (∃ k' ∈ c.inFlight, p k') ↔ p k ∨ ∃ k' ∈ rest, p k' := by
  cases h with
  | call => simp [hnew rfl]
  | resume i hn =>
    obtain ⟨hlt, rfl⟩ := List.getElem?_eq_some_iff.mp hn
    simp only [← (List.getElem_cons_eraseIdx_perm hlt).mem_iff, List.mem_cons, or_and_right,
      exists_or, exists_eq_left]

theorem Runs.sum_map {M : Type} [AddCommMonoid M] (f : κ → M) {k : κ} {i : ι} {rest : List κ}
    (h : Runs c a k i rest) (hnew : a = .call k i → f k = 0) :
    (c.inFlight.map f).sum = f k + (rest.map f).sum := by
  cases h with
  | call => rw [hnew rfl, zero_add]
  | resume i hn =>
    obtain ⟨hlt, rfl⟩ := List.getElem?_eq_some_iff.mp hn
    rw [← List.sum_cons, ← List.map_cons]
    exact ((List.getElem_cons_eraseIdx_perm hlt).map f).sum_eq.symm

theorem Runs.call_or_perm {k : κ} {i : ι} {rest : List κ} (h : Runs c a k i rest) :
    (a = .call k i ∧ rest = c.inFlight) ∨ (k :: rest).Perm c.inFlight := by
  cases h with
  | call => exact Or.inl ⟨rfl, rfl⟩
  | resume i hn =>
    obtain ⟨hlt, rfl⟩ := List.getElem?_eq_some_iff.mp hn
    exact Or.inr (List.getElem_cons_eraseIdx_perm hlt)

theorem exists_resume {k : κ} {l : List κ} (h : c.inFlight.Perm (k :: l)) (i : ι) :
    ∃ n d, P.step c (.resume n i) = some d ∧ d.heap = (P.run k i c.heap).heap ∧
      d.inFlight.Perm ((P.run k i c.heap).waiting ++ l) := by
  obtain ⟨n, hn⟩ := List.mem_iff_getElem?.mp (h.mem_iff.mpr List.mem_cons_self)
  refine ⟨n, _, step_resume hn i, rfl, ?_⟩
  obtain ⟨hlt, rfl⟩ := List.getElem?_eq_some_iff.mp hn
  have hrest : (c.inFlight.eraseIdx n).Perm l :=
    ((List.getElem_cons_eraseIdx_perm hlt).trans h).cons_inv
  exact (List.perm_append_comm).trans (hrest.append_left _)

/-! ## Runs -/

/-- **Reachability** by steps that satisfy `ok`. -/
inductive Reach (P : Program σ κ ι ρ) (ok : Config σ κ ρ → Act κ ι → Prop) (c₀ : Config σ κ ρ) :
    Config σ κ ρ → Prop
  | start : Reach P ok c₀ c₀
  | next {c c' : Config σ κ ρ} {a : Act κ ι} (h : Reach P ok c₀ c) (hok : ok c a)
      (hs : P.step c a = some c') : Reach P ok c₀ c'

theorem Reach.trans {c₁ : Config σ κ ρ} (h : Reach P ok c₀ c₁) (h' : Reach P ok c₁ c) :
    Reach P ok c₀ c := by
  induction h' with
  | start => exact h
  | next _ hok hs ih => exact ih.next hok hs

theorem Reach.exists_resumed (hok : ∀ c n i, ok c (.resume n i)) {k : κ} (hk : k ∈ c.inFlight)
    (i : ι) : ∃ d, Reach P ok c d ∧ d.heap = (P.run k i c.heap).heap ∧
      (∀ k' ∈ (P.run k i c.heap).waiting, k' ∈ d.inFlight) ∧
      ∀ o ∈ (P.run k i c.heap).settled, o ∈ d.settled := by
  obtain ⟨n, hn⟩ := List.mem_iff_getElem?.mp hk
  exact ⟨_, .next .start (hok c n i) (step_resume hn i), rfl,
    fun _ hmem => List.mem_append_right _ hmem, fun _ hmem => List.mem_append_right _ hmem⟩

/-- **The invariant rule.** -/
theorem Reach.invariant {I : Config σ κ ρ → Prop} (h₀ : I c₀)
    (hstep : ∀ c a k i rest, I c → ok c a → Runs c a k i rest →
      I (c.after (P.run k i c.heap) rest))
    (h : Reach P ok c₀ c) : I c := by
  induction h with
  | start => exact h₀
  | next _ hok hs ih =>
    obtain ⟨k, i, rest, hr, rfl⟩ := step_cases hs
    exact hstep _ _ k i rest ih hok hr

/-- **The rule of local assertions.** `H` is kept by every segment, each call starts and each
segment suspends with its assertion `Q`, and no segment invalidates the assertion of another
suspended call. -/
theorem Reach.local_invariant {H : σ → Prop} {Q : κ → σ → Prop} (h₀ : H c₀.heap)
    (hq₀ : ∀ k ∈ c₀.inFlight, Q k c₀.heap)
    (hcall : ∀ c k i, ok c (.call k i) → H c.heap → Q k c.heap)
    (hrun : ∀ c a k i rest, ok c a → Runs c a k i rest → H c.heap → Q k c.heap →
      H (P.run k i c.heap).heap ∧ ∀ k' ∈ (P.run k i c.heap).waiting, Q k' (P.run k i c.heap).heap)
    (hstable : ∀ c a k i rest, ok c a → Runs c a k i rest → H c.heap → Q k c.heap →
      ∀ k' ∈ rest, Q k' c.heap → Q k' (P.run k i c.heap).heap)
    (h : Reach P ok c₀ c) : H c.heap ∧ ∀ k ∈ c.inFlight, Q k c.heap := by
  refine Reach.invariant (I := fun c => H c.heap ∧ ∀ k ∈ c.inFlight, Q k c.heap) ⟨h₀, hq₀⟩ ?_ h
  rintro c a k i rest ⟨hH, hQ⟩ hok hr
  have hk : Q k c.heap := by
    rcases hr.call_or_mem with rfl | hk
    · exact hcall c k i hok hH
    · exact hQ k hk
  obtain ⟨hH', hQ'⟩ := hrun c a k i rest hok hr hH hk
  refine ⟨hH', fun k' hk' => ?_⟩
  rcases List.mem_append.mp hk' with hk' | hk'
  · exact hstable c a k i rest hok hr hH hk k' hk' (hQ k' (hr.mem_rest hk'))
  · exact hQ' k' hk'

theorem Reach.heap_invariant {H : σ → Prop} (h₀ : H c₀.heap)
    (hrun : ∀ c a k i rest, ok c a → Runs c a k i rest → H c.heap → H (P.run k i c.heap).heap)
    (h : Reach P ok c₀ c) : H c.heap :=
  Reach.invariant (I := fun c => H c.heap) h₀
    (fun c a k i rest hH hok hr => hrun c a k i rest hok hr hH) h

/-! ## Executing a schedule -/

section Exec

variable (P) (ok) [∀ c a, Decidable (ok c a)]

/-- Run a schedule; `none` when a step is not enabled or not admitted. -/
def Program.exec (c : Config σ κ ρ) : List (Act κ ι) → Option (Config σ κ ρ)
  | [] => some c
  | a :: as => if ok c a then (P.step c a).bind fun d => Program.exec d as else none

variable {P} {ok}

theorem Reach.of_exec {as : List (Act κ ι)} (h : P.exec ok c₀ as = some c) : Reach P ok c₀ c := by
  induction as generalizing c₀ with
  | nil => rw [Program.exec] at h; cases h; exact .start
  | cons a as ih =>
    rw [Program.exec] at h
    split_ifs at h with hok
    obtain ⟨d, hd, hr⟩ := Option.bind_eq_some_iff.mp h
    exact Reach.trans (.next .start hok hd) (ih hr)

theorem Reach.exists_of_exec {as : List (Act κ ι)} {p : Config σ κ ρ → Prop} [DecidablePred p]
    (h : (P.exec ok c₀ as).any fun c => decide (p c)) : ∃ c, Reach P ok c₀ c ∧ p c := by
  obtain ⟨c, hc, hp⟩ := (Option.any_eq_true _ _).mp h
  exact ⟨c, .of_exec hc, of_decide_eq_true hp⟩

end Exec

/-! ## A call that runs alone -/

/-- **A call runs alone**: its segments follow one another until it settles. -/
inductive Program.Alone (P : Program σ κ ι ρ) : κ → σ → σ → ρ → Prop
  | settles {k : κ} {i : ι} {h h' : σ} {o : ρ} (hrun : P.run k i h = ⟨h', [], [o]⟩) :
      Alone P k h h' o
  | waits {k k' : κ} {i : ι} {h h' h'' : σ} {o : ρ} (hrun : P.run k i h = ⟨h', [k'], []⟩)
      (hrest : Alone P k' h' h'' o) : Alone P k h h'' o

/-! ## Every step of a schedule -/

/-- The call that an act runs. -/
def Config.running (c : Config σ κ ρ) : Act κ ι → Option κ
  | .call k _ => some k
  | .resume n _ => c.inFlight[n]?

theorem Runs.running {k : κ} {i : ι} {rest : List κ} (h : Runs c a k i rest) :
    c.running a = some k := by
  cases h with
  | call => rfl
  | resume i hn => exact hn

/-- **Every step of a schedule satisfies `p`**, up to the first act that is not enabled. -/
def Program.Always (P : Program σ κ ι ρ) (p : Config σ κ ρ → Act κ ι → Prop) :
    Config σ κ ρ → List (Act κ ι) → Prop
  | _, [] => True
  | c, a :: as => p c a ∧ ∀ d ∈ P.step c a, P.Always p d as

instance Program.decidableAlways {p : Config σ κ ρ → Act κ ι → Prop} [∀ c a, Decidable (p c a)] :
    ∀ c as, Decidable (P.Always p c as)
  | _, [] => .isTrue trivial
  | c, a :: as =>
    have (d : Config σ κ ρ) : Decidable (P.Always p d as) := Program.decidableAlways d as
    inferInstanceAs (Decidable (p c a ∧ ∀ d ∈ P.step c a, P.Always p d as))

theorem Program.always_congr {I : σ → Prop} {p q : Config σ κ ρ → Act κ ι → Prop}
    (hrun : ∀ k i h, I h → I (P.run k i h).heap) (hpq : ∀ c a, I c.heap → (p c a ↔ q c a))
    (h₀ : I c.heap) (as : List (Act κ ι)) : P.Always p c as ↔ P.Always q c as := by
  induction as generalizing c with
  | nil => exact Iff.rfl
  | cons a as ih =>
    refine and_congr (hpq c a h₀) (forall₂_congr fun d hd => ih ?_)
    obtain ⟨k, i, rest, -, rfl⟩ := step_cases hd
    exact hrun k i c.heap h₀

end Logix.Async
