import Logix.Spec.Machine

/-!
# Machines that record what they do

Every call emits events, which are collected until a call hands them out.

* `Sourced`: the part of the state that the events describe, what an event does to it, which events
  a call emits, and which it hands out;
* **`view_run`**: the events of a run, applied to the first state, give the last one;
* **`handedOut_run`**: every event is handed out once, in order, or is still collected.
-/

namespace Logix.Spec

variable {σ ι ρ S E : Type}

/-- **A machine that records what it does.** -/
structure Sourced (M : Machine σ ι ρ) (S E : Type) where
  view : σ → S
  pending : σ → List E
  apply : S → E → S
  emits : S → ι → List E
  handsOut : ρ → List E
  view_next : ∀ s i, view (M.next s i) = (emits (view s) i).foldl apply (view s)
  pending_next : ∀ s i, handsOut (M.call i s).2 ++ pending (M.next s i) =
    pending s ++ emits (view s) i

namespace Sourced

variable {M : Machine σ ι ρ} (R : Sourced M S E) {s : σ}

/-- The events that the calls of a record emitted. -/
def emitted (es : List (Event σ ι ρ)) : List E :=
  es.flatMap fun e => R.emits (R.view e.before) e.input

/-- The events that the calls of a record handed out. -/
def handedOut (es : List (Event σ ι ρ)) : List E := es.flatMap fun e => R.handsOut e.result

theorem emitted_concat (es : List (Event σ ι ρ)) (e : Event σ ι ρ) :
    R.emitted (es ++ [e]) = R.emitted es ++ R.emits (R.view e.before) e.input := by
  rw [emitted, List.flatMap_append, List.flatMap_singleton, emitted]

theorem handedOut_concat (es : List (Event σ ι ρ)) (e : Event σ ι ρ) :
    R.handedOut (es ++ [e]) = R.handedOut es ++ R.handsOut e.result := by
  rw [handedOut, List.flatMap_append, List.flatMap_singleton, handedOut]

/-- **The events of a run rebuild its state.** -/
theorem view_run (is : List ι) :
    R.view (M.run s is) = (R.emitted (M.history s is)).foldl R.apply (R.view s) := by
  refine Machine.history_induction
    (J := fun es t => R.view t = (R.emitted es).foldl R.apply (R.view s)) rfl ?_ is
  intro es t i ht
  rw [emitted_concat, List.foldl_append, ← ht]
  exact R.view_next t i

/-- **Every event is handed out once**, in order, or is still collected. -/
theorem handedOut_run (is : List ι) :
    R.handedOut (M.history s is) ++ R.pending (M.run s is) =
      R.pending s ++ R.emitted (M.history s is) := by
  refine Machine.history_induction
    (J := fun es t => R.handedOut es ++ R.pending t = R.pending s ++ R.emitted es)
    (List.append_nil _).symm ?_ is
  intro es t i ht
  have hnext : R.handsOut (M.event t i).result ++ R.pending (M.next t i) =
      R.pending t ++ R.emits (R.view (M.event t i).before) (M.event t i).input :=
    R.pending_next t i
  rw [handedOut_concat, emitted_concat, List.append_assoc, hnext, ← List.append_assoc, ht,
    List.append_assoc]

/-- **What was handed out rebuilds the state**, when nothing is left to hand out. -/
theorem rebuild {is : List ι} (h₀ : R.pending s = []) (h : R.pending (M.run s is) = []) :
    (R.handedOut (M.history s is)).foldl R.apply (R.view s) = R.view (M.run s is) := by
  have hall := R.handedOut_run (s := s) is
  rw [h₀, h, List.append_nil, List.nil_append] at hall
  rw [hall, ← R.view_run]

end Sourced

end Logix.Spec
