import Mathlib.Data.List.Induction
import Mathlib.Data.Nat.Notation

/-!
# Machines

A `Machine` is an object that takes one call at a time: a call reads and replaces the state `σ`
and gives a result.

* `run`, `history`: the state after a list of calls, and the record of these calls;
* `history_invariant`: what holds at the start and is kept by every admitted call holds of every
  run whose calls are all admitted, the record included;
* `measure_run_le`: a measure that every call lowers is zero after enough calls;
* `history_component`: the record of a part of a machine;
* `forall₂_history`: the records of two runs whose calls look alike;
* `Since es a q`: the entry `a` of a record, with no entry of kind `q` after it.
-/

namespace Logix.Spec

variable {σ ι ρ : Type}

/-- **A machine**: the state that a call leaves, and its result. -/
structure Machine (σ ι ρ : Type) where
  call : ι → σ → σ × ρ

/-- One call of a run. -/
structure Event (σ ι ρ : Type) where
  before : σ
  input : ι
  after : σ
  result : ρ

namespace Machine

variable (M : Machine σ ι ρ)

/-- The state after a call. -/
def next (s : σ) (i : ι) : σ := (M.call i s).1

/-- The record of a call. -/
def event (s : σ) (i : ι) : Event σ ι ρ := ⟨s, i, M.next s i, (M.call i s).2⟩

/-- The state after a list of calls. -/
def run (s : σ) (is : List ι) : σ := is.foldl M.next s

/-- The record of a list of calls. -/
def history (s : σ) : List ι → List (Event σ ι ρ)
  | [] => []
  | i :: is => M.event s i :: history (M.next s i) is

variable {M} {s : σ} {is : List ι}

@[simp] theorem run_nil : M.run s [] = s := rfl

@[simp] theorem history_nil : M.history s [] = [] := rfl

theorem run_append (is js : List ι) : M.run s (is ++ js) = M.run (M.run s is) js :=
  List.foldl_append

theorem history_append (is js : List ι) :
    M.history s (is ++ js) = M.history s is ++ M.history (M.run s is) js := by
  induction is generalizing s with
  | nil => rfl
  | cons i is ih => exact congrArg (_ :: ·) ih

@[simp] theorem run_concat (i : ι) : M.run s (is ++ [i]) = M.next (M.run s is) i :=
  run_append is [i]

@[simp] theorem history_concat (i : ι) :
    M.history s (is ++ [i]) = M.history s is ++ [M.event (M.run s is) i] :=
  history_append is [i]

@[simp] theorem map_input_history (is : List ι) : (M.history s is).map Event.input = is := by
  induction is generalizing s with
  | nil => rfl
  | cons i is ih => exact congrArg (i :: ·) ih

theorem input_mem_of_mem_history {is : List ι} {e : Event σ ι ρ} (he : e ∈ M.history s is) :
    e.input ∈ is := by
  rw [← map_input_history (M := M) (s := s) is]
  exact List.mem_map_of_mem he

/-- **What a record consists of**: every entry is a call in the state that the calls before it
leave. -/
theorem exists_of_history_eq {pre post : List (Event σ ι ρ)} {e : Event σ ι ρ}
    (h : M.history s is = pre ++ e :: post) :
    ∃ js i ks, is = js ++ i :: ks ∧ pre = M.history s js ∧ e = M.event (M.run s js) i := by
  induction pre generalizing s is with
  | nil =>
    cases is with
    | nil => cases h
    | cons i is => exact ⟨[], i, is, rfl, rfl, (List.cons.inj h).1.symm⟩
  | cons e' pre ih =>
    cases is with
    | nil => cases h
    | cons i is =>
      obtain ⟨rfl, htail⟩ := List.cons.inj h
      obtain ⟨js, j, ks, rfl, rfl, rfl⟩ := ih htail
      exact ⟨i :: js, j, ks, rfl, rfl, rfl⟩

theorem mem_history_iff {e : Event σ ι ρ} :
    e ∈ M.history s is ↔ ∃ js i ks, is = js ++ i :: ks ∧ e = M.event (M.run s js) i := by
  constructor
  · intro he
    obtain ⟨pre, post, h⟩ := List.append_of_mem he
    obtain ⟨js, i, ks, his, -, he⟩ := exists_of_history_eq h
    exact ⟨js, i, ks, his, he⟩
  · rintro ⟨js, i, ks, rfl, rfl⟩
    rw [history_append]
    exact List.mem_append_right _ List.mem_cons_self

/-- **The invariant rule**, for the record and the state of runs whose calls are all admitted. -/
theorem history_invariant {J : List (Event σ ι ρ) → σ → Prop} {ok : Event σ ι ρ → Prop}
    (h₀ : J [] s) (hstep : ∀ es s i, J es s → ok (M.event s i) →
      J (es ++ [M.event s i]) (M.next s i))
    (is : List ι) (hok : ∀ e ∈ M.history s is, ok e) : J (M.history s is) (M.run s is) := by
  induction is using List.reverseRecOn with
  | nil => exact h₀
  | append_singleton is i ih =>
    rw [history_concat] at hok
    rw [history_concat, run_concat]
    refine hstep _ _ i (ih fun e he => hok e (List.mem_append_left _ he)) ?_
    exact hok _ (List.mem_append_right _ List.mem_cons_self)

theorem history_induction {J : List (Event σ ι ρ) → σ → Prop} (h₀ : J [] s)
    (hstep : ∀ es s i, J es s → J (es ++ [M.event s i]) (M.next s i)) (is : List ι) :
    J (M.history s is) (M.run s is) :=
  history_invariant h₀ (fun es s i h (_ : True) => hstep es s i h) is fun _ _ => trivial

theorem run_invariant {I : σ → Prop} {ok : Event σ ι ρ → Prop} (h₀ : I s)
    (hstep : ∀ s i, I s → ok (M.event s i) → I (M.next s i)) (is : List ι)
    (hok : ∀ e ∈ M.history s is, ok e) : I (M.run s is) :=
  history_invariant (J := fun _ => I) h₀ (fun _ => hstep) is hok

theorem events_invariant {I : σ → Prop} {ok : Event σ ι ρ → Prop} (h₀ : I s)
    (hstep : ∀ s i, I s → ok (M.event s i) → I (M.next s i)) (is : List ι)
    (hok : ∀ e ∈ M.history s is, ok e) : ∀ e ∈ M.history s is, I e.before ∧ I e.after := by
  refine (history_invariant (J := fun es s => I s ∧ ∀ e ∈ es, I e.before ∧ I e.after)
    ⟨h₀, fun _ he => absurd he List.not_mem_nil⟩ ?_ is hok).2
  rintro es s i ⟨hs, hes⟩ hi
  have hnext := hstep s i hs hi
  refine ⟨hnext, fun e he => ?_⟩
  rcases List.mem_append.mp he with he | he
  · exact hes e he
  · obtain rfl := List.mem_singleton.mp he
    exact ⟨hs, hnext⟩

/-- **The rule of measures**: a measure that every call lowers is zero after enough calls. -/
theorem measure_run_le {I : σ → Prop} (μ : σ → ℕ) {ok : ι → Prop}
    (hstep : ∀ s i, I s → ok i → I (M.next s i) ∧ μ (M.next s i) ≤ μ s - 1) (h₀ : I s)
    (is : List ι) (hok : ∀ i ∈ is, ok i) : μ (M.run s is) ≤ μ s - is.length := by
  induction is generalizing s with
  | nil => exact Nat.le_refl _
  | cons i is ih =>
    obtain ⟨hI, hμ⟩ := hstep s i h₀ (hok i List.mem_cons_self)
    have htail := ih hI fun j hj => hok j (List.mem_cons_of_mem _ hj)
    have hrun : M.run s (i :: is) = M.run (M.next s i) is := rfl
    rw [hrun, List.length_cons]
    omega

/-! ### Components and pairs of runs -/

/-- **A component of a machine**: `π` is its state, and `φ` the call that it takes, if any. -/
theorem history_component {σ' ι' ρ' : Type} {N : Machine σ' ι' ρ'} {π : σ → σ'}
    {φ : ι → Option ι'} {ψ : Event σ ι ρ → Option (Event σ' ι' ρ')}
    (hevent : ∀ s i, ψ (M.event s i) = (φ i).map (N.event (π s)))
    (hnext : ∀ s i, π (M.next s i) = (φ i).elim (π s) (N.next (π s))) (s : σ) (is : List ι) :
    (M.history s is).filterMap ψ = N.history (π s) (is.filterMap φ) := by
  induction is generalizing s with
  | nil => rfl
  | cons i is ih =>
    rw [history, List.filterMap_cons, List.filterMap_cons, hevent, ih, hnext]
    cases φ i <;> rfl

/-- **Two runs whose calls look alike** to every state: they go through the same states, and their
results look alike. -/
theorem forall₂_history {R : ι → ι → Prop} {Q : Event σ ι ρ → Event σ ι ρ → Prop}
    (hnext : ∀ s i j, R i j → M.next s i = M.next s j)
    (hevent : ∀ s i j, R i j → Q (M.event s i) (M.event s j)) {is js : List ι}
    (h : List.Forall₂ R is js) (s : σ) : List.Forall₂ Q (M.history s is) (M.history s js) := by
  induction h generalizing s with
  | nil => exact .nil
  | cons hij _ ih =>
    refine .cons (hevent s _ _ hij) ?_
    rw [← hnext s _ _ hij]
    exact ih _

end Machine

/-! ## Since -/

section Since

variable {α : Type} {q : α → Prop} {es : List α} {a e : α}

/-- `a` is in the record, and no entry after it is of kind `q`. -/
def Since (es : List α) (a : α) (q : α → Prop) : Prop :=
  ∃ pre post, es = pre ++ a :: post ∧ ∀ e ∈ post, ¬ q e

theorem not_since_nil : ¬ Since [] a q := by
  rintro ⟨pre, post, h, -⟩
  exact absurd h (by simp)

theorem since_concat_iff : Since (es ++ [e]) a q ↔ a = e ∨ Since es a q ∧ ¬ q e := by
  constructor
  · rintro ⟨pre, post, h, hq⟩
    induction post using List.reverseRecOn with
    | nil => exact Or.inl (List.cons.inj (List.append_inj_right' h rfl)).1.symm
    | append_singleton post e' =>
      rw [← List.cons_append, ← List.append_assoc] at h
      obtain ⟨rfl, he⟩ := List.append_inj' h rfl
      obtain rfl := (List.cons.inj he).1
      exact Or.inr ⟨⟨pre, post, rfl, fun x hx => hq x (List.mem_append_left _ hx)⟩,
        hq _ (List.mem_append_right _ List.mem_cons_self)⟩
  · rintro (rfl | ⟨⟨pre, post, rfl, hq⟩, hne⟩)
    · exact ⟨es, [], rfl, fun x hx => absurd hx List.not_mem_nil⟩
    · refine ⟨pre, post ++ [e], by simp, fun x hx => ?_⟩
      rcases List.mem_append.mp hx with hx | hx
      · exact hq x hx
      · obtain rfl := List.mem_singleton.mp hx
        exact hne

theorem Since.mem (h : Since es a q) : a ∈ es := by
  obtain ⟨pre, post, rfl, -⟩ := h
  exact List.mem_append_right _ List.mem_cons_self

theorem Since.unique {b : α} (ha : Since es a q) (hb : Since es b q) (hqa : q a) (hqb : q b) :
    a = b := by
  induction es using List.reverseRecOn with
  | nil => exact absurd ha not_since_nil
  | append_singleton es e ih =>
    rcases since_concat_iff.mp ha with rfl | ⟨ha, hne⟩
    · rcases since_concat_iff.mp hb with rfl | ⟨-, hne⟩
      · rfl
      · exact absurd hqa hne
    · rcases since_concat_iff.mp hb with rfl | ⟨hb, -⟩
      · exact absurd hqb hne
      · exact ih ha hb

end Since

end Logix.Spec
