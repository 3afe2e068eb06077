import Logix.Async.Program
import Mathlib.Algebra.Ring.Nat

/-!
# The record of a run

* `Program.recorded`: a program that keeps, beside its heap, the segments that it has run;
  `Config.forget`: the configuration without the record, and **`Reach.forget`**: the runs of the
  recorded program are runs of the program;
* **`Reach.exists_idle`**: calls that come to an end can be brought to it, one after the other.
-/

namespace Logix.Async

variable {σ κ ι ρ : Type}

/-- **Keep a record** of the segments that have run. -/
def Program.recorded (P : Program σ κ ι ρ) : Program (σ × List (κ × ι)) κ ι ρ where
  run k i h :=
    let s := P.run k i h.1
    { heap := (s.heap, h.2 ++ [(k, i)]), waiting := s.waiting, settled := s.settled }

/-- The configuration without the record. -/
def Config.forget (c : Config (σ × List (κ × ι)) κ ρ) : Config σ κ ρ :=
  ⟨c.heap.1, c.inFlight, c.settled⟩

variable {P : Program σ κ ι ρ}

theorem step_forget {c c' : Config (σ × List (κ × ι)) κ ρ} {a : Act κ ι}
    (h : P.recorded.step c a = some c') : P.step c.forget a = some c'.forget := by
  cases a with
  | call k i =>
    cases h
    rfl
  | resume n i =>
    obtain ⟨k, hk, rfl⟩ := Option.map_eq_some_iff.mp h
    exact step_resume (c := c.forget) hk i

/-- **A recorded run is a run.** -/
theorem Reach.forget {ok : Config σ κ ρ → Act κ ι → Prop} {c₀ c : Config (σ × List (κ × ι)) κ ρ}
    (h : Reach P.recorded (fun c a => ok c.forget a) c₀ c) : Reach P ok c₀.forget c.forget := by
  induction h with
  | start => exact .start
  | next _ hok hs ih => exact ih.next hok (step_forget hs)

/-- **The calls in flight come to an end**, when each of them can be continued to calls of a lower
rank. -/
theorem Reach.exists_idle {ok : Config σ κ ρ → Act κ ι → Prop} {J : Config σ κ ρ → Prop}
    (rank : κ → ℕ) (hok : ∀ c n i, ok c (.resume n i))
    (hstep : ∀ c k rest, J c → c.inFlight = k :: rest → ∃ i,
      J (c.after (P.run k i c.heap) rest) ∧ ((P.run k i c.heap).waiting.map rank).sum < rank k)
    {c : Config σ κ ρ} (hJ : J c) : ∃ d, Reach P ok c d ∧ d.inFlight = [] ∧ J d := by
  induction hn : (c.inFlight.map rank).sum using Nat.strongRecOn generalizing c with
  | _ n ih =>
    cases hfl : c.inFlight with
    | nil => exact ⟨c, .start, hfl, hJ⟩
    | cons k rest =>
      obtain ⟨i, hJ', hlt⟩ := hstep c k rest hJ hfl
      have hrun : P.step c (.resume 0 i) = some (c.after (P.run k i c.heap) rest) := by
        rw [step_resume (k := k) (by rw [hfl]; rfl), hfl]
        rfl
      have hless : (((c.after (P.run k i c.heap) rest).inFlight).map rank).sum < n := by
        rw [hfl, List.map_cons, List.sum_cons] at hn
        rw [Config.after, List.map_append, List.sum_append]
        omega
      obtain ⟨d, hd, hidle, hJd⟩ := ih _ hless hJ' rfl
      exact ⟨d, Reach.trans (.next .start (hok c 0 i) hrun) hd, hidle, hJd⟩

end Logix.Async
