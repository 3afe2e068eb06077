import Logix.Outbox.Model
import Logix.Spec.Machine

/-!
# Flushes that run to their end

When nothing else runs between the awaits of a `flushOutbox` call, the call is a function of what
its handlers do.

* `Attempt`: one turn of the loop over the messages, with what each called handler did;
* `callHandlers`, `flushLoop`, `flushOutbox`: the two loops of `flushOutbox`;
* `flushLoop_induction`: what the turns keep, when every promise settles and every rejection has a
  `message` to read;
* `reach_flushOutbox`: `outboxProgram` takes the same steps;
* `outboxMachine`: the handler object, called for one method after another.
-/

namespace Logix.Outbox

open Async Spec

variable {P : Type}

/-! ## The loops -/

/-- **An attempt** to deliver a message: the number of its subscribers, and the results of those
that were called. -/
structure Attempt where
  message : ℕ
  subscribers : ℕ
  results : List HandlerResult
  deriving DecidableEq, Repr

/-- Every subscriber ran to completion. -/
def Attempt.Completed (a : Attempt) : Prop :=
  a.results = List.replicate a.subscribers .resolved

instance : DecidablePred Attempt.Completed := fun _ => inferInstanceAs (Decidable (_ = _))

/-- The first promise that did not resolve. -/
def Attempt.failure (a : Attempt) : Option HandlerResult := a.results.find? (· ≠ .resolved)

/-- The promise settles, and a value that it rejects with has a `message` to read. -/
def HandlerResult.Handled : HandlerResult → Prop
  | .resolved | .rejected _ => True
  | .rejectedUnreadable | .unsettled => False

instance : DecidablePred HandlerResult.Handled
  | .resolved | .rejected _ => .isTrue trivial
  | .rejectedUnreadable | .unsettled => .isFalse id

/-- Every promise of the attempt settled, with a `message` to read in a rejection. -/
def Attempt.Handled (a : Attempt) : Prop := ∀ r ∈ a.results, r.Handled

instance : DecidablePred Attempt.Handled := fun _ => inferInstanceAs (Decidable (∀ r ∈ _, _))

/-- **The loop over the handlers** of message `m`, from `position` on, with `left` handlers to
call. -/
def OutboxHandler.callHandlers (h : OutboxHandler P) (results : ℕ → HandlerResult)
    (m position : ℕ) : ℕ → OutboxHandler P × List HandlerResult
  | 0 => (h, [])
  | left + 1 =>
    match results position with
    | .resolved =>
      let later := (h.deliver m position).callHandlers results m (position + 1) left
      (later.1, .resolved :: later.2)
    | failure => (h.deliver m position, [failure])

/-- A flush at the start of a turn: the handler object, the attempts so far and the counters. -/
structure FlushState (P : Type) where
  heap : OutboxHandler P
  attempts : List Attempt
  processedCount : ℕ
  failureCount : ℕ

namespace FlushState

/-- The handler object after the handlers of message `m` are called. -/
def called (results : ℕ → ℕ → HandlerResult) (s : FlushState P) (m : ℕ) : OutboxHandler P :=
  (s.heap.callHandlers (results m) m 0 (s.heap.handlerCount m)).1

/-- The attempt on message `m`. -/
def attempt (results : ℕ → ℕ → HandlerResult) (s : FlushState P) (m : ℕ) : Attempt where
  message := m
  subscribers := s.heap.handlerCount m
  results := (s.heap.callHandlers (results m) m 0 (s.heap.handlerCount m)).2

/-- The end of the `try` block. -/
def publish (results : ℕ → ℕ → HandlerResult) (s : FlushState P) (m : ℕ) : FlushState P where
  heap := (s.called results m).mutate m .publish
  attempts := s.attempts ++ [s.attempt results m]
  processedCount := s.processedCount + 1
  failureCount := s.failureCount

/-- The `catch` block on an error with that `message`. -/
def fail (results : ℕ → ℕ → HandlerResult) (s : FlushState P) (m : ℕ) (message : Option String) :
    FlushState P where
  heap := (s.called results m).mutate m (·.fail message)
  attempts := s.attempts ++ [s.attempt results m]
  processedCount := s.processedCount
  failureCount := s.failureCount + 1

/-- The `catch` block on a value without a `message` to read, up to `err.message`. -/
def countRetry (results : ℕ → ℕ → HandlerResult) (s : FlushState P) (m : ℕ) : FlushState P where
  heap := (s.called results m).mutate m .countRetry
  attempts := s.attempts ++ [s.attempt results m]
  processedCount := s.processedCount
  failureCount := s.failureCount

/-- A promise that never settles: the flush stays where it is. -/
def stall (results : ℕ → ℕ → HandlerResult) (s : FlushState P) (m : ℕ) : FlushState P where
  heap := s.called results m
  attempts := s.attempts ++ [s.attempt results m]
  processedCount := s.processedCount
  failureCount := s.failureCount

end FlushState

/-- **The loop over the messages**, without an outcome if it never ends. -/
def flushLoop (results : ℕ → ℕ → HandlerResult) (s : FlushState P) :
    List ℕ → FlushState P × Option (OutboxOutcome P)
  | [] => (s, some (.flushed s.processedCount s.failureCount))
  | m :: rest =>
    match (s.attempt results m).failure with
    | none | some .resolved => flushLoop results (s.publish results m) rest
    | some (.rejected message) => flushLoop results (s.fail results m message) rest
    | some .rejectedUnreadable => (s.countRetry results m, some .rejected)
    | some .unsettled => (s.stall results m, none)

/-- **`flushOutbox(batchSize)`**, where the handler at `position` does `results m position` with
message `m`. -/
def OutboxHandler.flushOutbox (h : OutboxHandler P) (batchSize : ℤ)
    (results : ℕ → ℕ → HandlerResult) : FlushState P × Option (OutboxOutcome P) :=
  flushLoop results ⟨h, [], 0, 0⟩ (h.snapshot batchSize)

/-! ## The loop over the handlers -/

section CallHandlers

variable (h : OutboxHandler P) (results : ℕ → HandlerResult) (m position left : ℕ)

theorem callHandlers_of_resolved (hr : results position = .resolved) :
    h.callHandlers results m position (left + 1) =
      (((h.deliver m position).callHandlers results m (position + 1) left).1,
        .resolved :: ((h.deliver m position).callHandlers results m (position + 1) left).2) := by
  conv_lhs => unfold OutboxHandler.callHandlers
  rw [hr]

theorem callHandlers_of_failure (hr : results position ≠ .resolved) :
    h.callHandlers results m position (left + 1) =
      (h.deliver m position, [results position]) := by
  unfold OutboxHandler.callHandlers
  cases hp : results position with
  | resolved => exact absurd hp hr
  | rejected message => rfl
  | rejectedUnreadable => rfl
  | unsettled => rfl

theorem callHandlers_fst :
    (h.callHandlers results m position left).1 =
      { h with deliveries := h.deliveries ++
        (List.range' position (h.callHandlers results m position left).2.length).map (m, ·) } := by
  induction left generalizing h position with
  | zero => simp [OutboxHandler.callHandlers]
  | succ left ih =>
    by_cases hr : results position = .resolved
    · rw [callHandlers_of_resolved _ _ _ _ _ hr, ih]
      simp [OutboxHandler.deliver, List.range'_succ]
    · rw [callHandlers_of_failure _ _ _ _ _ hr]
      simp [OutboxHandler.deliver]

theorem find?_callHandlers_eq_none_iff :
    (h.callHandlers results m position left).2.find? (· ≠ .resolved) = none ↔
      (h.callHandlers results m position left).2 = List.replicate left .resolved := by
  induction left generalizing h position with
  | zero => simp [OutboxHandler.callHandlers]
  | succ left ih =>
    by_cases hr : results position = .resolved
    · rw [callHandlers_of_resolved _ _ _ _ _ hr]
      simpa [List.replicate_succ] using ih (h.deliver m position) (position + 1)
    · rw [callHandlers_of_failure _ _ _ _ _ hr]
      simp [List.replicate_succ, hr]

theorem forall_callHandlers_iff {p : HandlerResult → Prop} (hp : p .resolved) :
    (∀ r ∈ (h.callHandlers results m position left).2, p r) ↔
      ∀ r ∈ (h.callHandlers results m position left).2.find? (· ≠ .resolved), p r := by
  induction left generalizing h position with
  | zero => simp [OutboxHandler.callHandlers]
  | succ left ih =>
    by_cases hr : results position = .resolved
    · rw [callHandlers_of_resolved _ _ _ _ _ hr]
      simpa [hp] using ih (h.deliver m position) (position + 1)
    · rw [callHandlers_of_failure _ _ _ _ _ hr]
      simp [hr]

theorem exists_of_mem_callHandlers {r : HandlerResult}
    (hmem : r ∈ (h.callHandlers results m position left).2) : ∃ p, results p = r := by
  induction left generalizing h position with
  | zero => cases hmem
  | succ left ih =>
    by_cases hr : results position = .resolved
    · rw [callHandlers_of_resolved _ _ _ _ _ hr] at hmem
      rcases List.mem_cons.mp hmem with rfl | hmem
      · exact ⟨position, hr⟩
      · exact ih _ _ hmem
    · rw [callHandlers_of_failure _ _ _ _ _ hr] at hmem
      exact ⟨position, (List.mem_singleton.mp hmem).symm⟩

end CallHandlers

namespace FlushState

variable {results : ℕ → ℕ → HandlerResult} {s : FlushState P} {m : ℕ}

theorem completed_attempt_iff :
    (s.attempt results m).Completed ↔ (s.attempt results m).failure = none :=
  (find?_callHandlers_eq_none_iff _ _ _ _ _).symm

theorem handled_attempt_iff :
    (s.attempt results m).Handled ↔ ∀ r ∈ (s.attempt results m).failure, r.Handled :=
  forall_callHandlers_iff _ _ _ _ _ trivial

theorem outboxQueue_called : (s.called results m).outboxQueue = s.heap.outboxQueue := by
  rw [called, callHandlers_fst]

theorem failure_attempt (results : ℕ → ℕ → HandlerResult) (s : FlushState P) (m : ℕ) :
    (s.attempt results m).failure = none ∨
      (∃ message, (s.attempt results m).failure = some (.rejected message)) ∨
      (s.attempt results m).failure = some .rejectedUnreadable ∨
      (s.attempt results m).failure = some .unsettled := by
  cases h : (s.attempt results m).failure with
  | none => exact Or.inl rfl
  | some r =>
    cases r with
    | resolved => exact absurd (List.find?_some h) (by decide)
    | rejected message => exact Or.inr (Or.inl ⟨message, rfl⟩)
    | rejectedUnreadable => exact Or.inr (Or.inr (Or.inl rfl))
    | unsettled => exact Or.inr (Or.inr (Or.inr rfl))

end FlushState

/-! ## The loop over the messages -/

section FlushLoop

variable {results : ℕ → ℕ → HandlerResult} {s : FlushState P} {l : List ℕ}

/-- **What the turns keep**, when every promise settles with a `message` to read in a rejection:
then the flush goes through all messages. -/
theorem flushLoop_induction {J : FlushState P → List ℕ → Prop}
    (hpublish : ∀ s m rest, J s (m :: rest) → (s.attempt results m).Completed →
      J (s.publish results m) rest)
    (hfail : ∀ s m rest message, J s (m :: rest) → ¬ (s.attempt results m).Completed →
      J (s.fail results m message) rest)
    (hall : ∀ a ∈ (flushLoop results s l).1.attempts, a.Handled) (h : J s l) :
    J (flushLoop results s l).1 [] ∧
      ∃ processed failed, (flushLoop results s l).2 = some (.flushed processed failed) := by
  induction l generalizing s with
  | nil => exact ⟨h, _, _, rfl⟩
  | cons m rest ih =>
    unfold flushLoop at hall ⊢
    rcases s.failure_attempt results m with hf | ⟨message, hf⟩ | hf | hf
    · rw [hf] at hall ⊢
      exact ih hall (hpublish s m rest h (FlushState.completed_attempt_iff.mpr hf))
    · rw [hf] at hall ⊢
      refine ih hall (hfail s m rest message h fun hc => ?_)
      rw [FlushState.completed_attempt_iff, hf] at hc
      cases hc
    · rw [hf] at hall
      have hlast := hall (s.attempt results m) (by simp [FlushState.countRetry])
      exact (FlushState.handled_attempt_iff.mp hlast _ hf).elim
    · rw [hf] at hall
      have hlast := hall (s.attempt results m) (by simp [FlushState.stall])
      exact (FlushState.handled_attempt_iff.mp hlast _ hf).elim

/-- **A flush that resolves** has met settled promises only, with a `message` to read in the
rejections. -/
theorem handled_of_flushLoop {processed failed : ℕ} (hs : ∀ a ∈ s.attempts, a.Handled)
    (hflushed : (flushLoop results s l).2 = some (.flushed processed failed)) :
    ∀ a ∈ (flushLoop results s l).1.attempts, a.Handled := by
  induction l generalizing s with
  | nil => exact hs
  | cons m rest ih =>
    have hturn : (∀ r ∈ (s.attempt results m).failure, r.Handled) →
        ∀ a ∈ s.attempts ++ [s.attempt results m], a.Handled := by
      intro hr a ha
      rcases List.mem_append.mp ha with ha | ha
      · exact hs a ha
      · rw [List.mem_singleton.mp ha]
        exact FlushState.handled_attempt_iff.mpr hr
    unfold flushLoop at hflushed ⊢
    rcases s.failure_attempt results m with hf | ⟨message, hf⟩ | hf | hf
    · rw [hf] at hflushed ⊢
      exact ih (hturn (by simp [hf])) hflushed
    · rw [hf] at hflushed ⊢
      exact ih (hturn (by simp [hf, HandlerResult.Handled])) hflushed
    · rw [hf] at hflushed
      cases hflushed
    · rw [hf] at hflushed
      cases hflushed

theorem flushed_of_handled (hres : ∀ m position, (results m position).Handled) :
    ∃ processed failed, (flushLoop results s l).2 = some (.flushed processed failed) := by
  have hfailure : ∀ (s : FlushState P) m, ∀ r ∈ (s.attempt results m).failure, r.Handled :=
    fun s m r hr => by
      obtain ⟨p, rfl⟩ := exists_of_mem_callHandlers _ _ _ _ _ (List.mem_of_find?_eq_some hr)
      exact hres m p
  induction l generalizing s with
  | nil => exact ⟨_, _, rfl⟩
  | cons m rest ih =>
    unfold flushLoop
    rcases s.failure_attempt results m with hf | ⟨message, hf⟩ | hf | hf
    · rw [hf]
      exact ih
    · rw [hf]
      exact ih
    · exact (hfailure s m _ hf).elim
    · exact (hfailure s m _ hf).elim

theorem map_message_flushLoop (hall : ∀ a ∈ (flushLoop results s l).1.attempts, a.Handled) :
    (flushLoop results s l).1.attempts.map Attempt.message =
      s.attempts.map Attempt.message ++ l := by
  have hgo := flushLoop_induction (s := s) (l := l)
    (J := fun s' l' => s'.attempts.map Attempt.message ++ l' =
      s.attempts.map Attempt.message ++ l)
    (fun s' m rest h _ => by simpa [FlushState.publish, FlushState.attempt] using h)
    (fun s' m rest message h _ => by simpa [FlushState.fail, FlushState.attempt] using h) hall rfl
  simpa using hgo.1

theorem flushLoop_queue {J : List Attempt → List (IOutboxMessage P) → Prop}
    (hpublish : ∀ as q a msg, J as q → q[a.message]? = some msg → msg.status = .PENDING →
      a.Completed → J (as ++ [a]) (q.modify a.message .publish))
    (hfail : ∀ as q a msg message, J as q → q[a.message]? = some msg → msg.status = .PENDING →
      ¬ a.Completed → J (as ++ [a]) (q.modify a.message (·.fail message)))
    (hall : ∀ a ∈ (flushLoop results s l).1.attempts, a.Handled) (hnodup : l.Nodup)
    (hpending : ∀ m ∈ l, s.heap.statusOf m = some .PENDING)
    (h : J s.attempts s.heap.outboxQueue) :
    J (flushLoop results s l).1.attempts (flushLoop results s l).1.heap.outboxQueue := by
  -- a turn leaves the messages that are still ahead of it PENDING
  have hahead : ∀ (s : FlushState P) (m : ℕ) (rest : List ℕ) (f), (m :: rest).Nodup →
      (∀ m' ∈ m :: rest, s.heap.statusOf m' = some .PENDING) →
      ∀ m' ∈ rest, ((s.called results m).mutate m f).statusOf m' = some .PENDING := by
    intro s m rest f hn hp m' hm'
    have hne : m' ≠ m := fun he => (List.nodup_cons.mp hn).1 (he ▸ hm')
    rw [OutboxHandler.statusOf_mutate_ne hne, OutboxHandler.statusOf, FlushState.outboxQueue_called]
    exact hp m' (List.mem_cons_of_mem _ hm')
  refine (flushLoop_induction
    (J := fun s l => l.Nodup ∧ (∀ m ∈ l, s.heap.statusOf m = some .PENDING) ∧
      J s.attempts s.heap.outboxQueue) ?_ ?_ hall ⟨hnodup, hpending, h⟩).1.2.2
  · rintro s m rest ⟨hn, hp, hJ⟩ hc
    obtain ⟨msg, hmsg, hst⟩ := Option.map_eq_some_iff.mp (hp m List.mem_cons_self)
    refine ⟨(List.nodup_cons.mp hn).2, hahead s m rest _ hn hp, ?_⟩
    rw [FlushState.publish, OutboxHandler.mutate, FlushState.outboxQueue_called]
    exact hpublish _ _ (s.attempt results m) msg hJ hmsg hst hc
  · rintro s m rest message ⟨hn, hp, hJ⟩ hc
    obtain ⟨msg, hmsg, hst⟩ := Option.map_eq_some_iff.mp (hp m List.mem_cons_self)
    refine ⟨(List.nodup_cons.mp hn).2, hahead s m rest _ hn hp, ?_⟩
    rw [FlushState.fail, OutboxHandler.mutate, FlushState.outboxQueue_called]
    exact hfail _ _ (s.attempt results m) msg message hJ hmsg hst hc

end FlushLoop

/-! ## The same steps in the program -/

section Refinement

variable {results : ℕ → ℕ → HandlerResult} {o : List (OutboxOutcome P)}

/-- The awaited handlers do what `results` says, and nothing else runs. -/
def Answers (results : ℕ → ℕ → HandlerResult)
    (c : Config (OutboxHandler P) (OutboxCall P) (OutboxOutcome P)) :
    Act (OutboxCall P) OutboxInput → Prop
  | .call _ _ => False
  | .resume n i => ∀ f, c.inFlight[n]? = some (.handlerAwaited f) →
      i.result = results f.message f.position

/-- The segment behind the last awaited handler of a turn. -/
def OutboxHandler.endTurn (h : OutboxHandler P) (f : FlushFrame) :
    Option HandlerResult → Segment (OutboxHandler P) (OutboxCall P) (OutboxOutcome P)
  | none | some .resolved =>
    (h.mutate f.message .publish).turnTo (f.processedCount + 1) f.failureCount f.rest
  | some (.rejected message) =>
    (h.mutate f.message (·.fail message)).turnTo f.processedCount (f.failureCount + 1) f.rest
  | some .rejectedUnreadable =>
    { heap := h.mutate f.message .countRetry, settled := [.rejected] }
  | some .unsettled => { heap := h, waiting := [.handlerAwaited f] }

theorem reach_resume (results : ℕ → ℕ → HandlerResult) (h : OutboxHandler P) (f : FlushFrame) :
    Reach (outboxProgram P) (Answers results) ⟨h, [.handlerAwaited f], o⟩
      (Config.after ⟨h, [], o⟩ ((outboxProgram P).run (.handlerAwaited f)
        ⟨"", results f.message f.position⟩ h) []) := by
  refine Reach.start.next (a := .resume 0 ⟨"", results f.message f.position⟩) (fun g hg => ?_) rfl
  cases hg
  rfl

theorem reach_endTurn (h : OutboxHandler P) (f : FlushFrame)
    (hlast : results f.message f.position = .resolved →
      ¬ f.position + 1 < h.handlerCount f.message) :
    Reach (outboxProgram P) (Answers results) ⟨h, [.handlerAwaited f], o⟩
      (Config.after ⟨h, [], o⟩ (h.endTurn f
        ([results f.message f.position].find? (· ≠ .resolved))) []) := by
  have hrun : (outboxProgram P).run (.handlerAwaited f) ⟨"", results f.message f.position⟩ h =
      h.endTurn f ([results f.message f.position].find? (· ≠ .resolved)) := by
    cases hr : results f.message f.position with
    | resolved => simp [outboxProgram, OutboxHandler.endTurn, hlast hr]
    | rejected message => simp [outboxProgram, OutboxHandler.endTurn]
    | rejectedUnreadable => simp [outboxProgram, OutboxHandler.endTurn]
    | unsettled => simp [outboxProgram, OutboxHandler.endTurn]
  rw [← hrun]
  exact reach_resume results h f

theorem reach_nextHandler (h : OutboxHandler P) (f : FlushFrame)
    (hr : results f.message f.position = .resolved)
    (hlt : f.position + 1 < h.handlerCount f.message) :
    Reach (outboxProgram P) (Answers results) ⟨h, [.handlerAwaited f], o⟩
      ⟨h.deliver f.message (f.position + 1),
        [.handlerAwaited { f with position := f.position + 1 }], o⟩ := by
  have hrun : (outboxProgram P).run (.handlerAwaited f) ⟨"", results f.message f.position⟩ h =
      { heap := h.deliver f.message (f.position + 1)
        waiting := [.handlerAwaited { f with position := f.position + 1 }] } := by
    simp only [outboxProgram, hr, if_pos hlt]
  have hgo := reach_resume results (o := o) h f
  rwa [hrun, Config.after, List.append_nil] at hgo

/-- **The loop over the handlers in the program**, from its first call on, up to some last
position. -/
theorem reach_callHandlers (h : OutboxHandler P) (m position left : ℕ) (rest : List ℕ)
    (processedCount failureCount : ℕ) (hn : h.handlerCount m = position + (left + 1)) :
    ∃ last, (∀ r ∈ (h.callHandlers (results m) m position (left + 1)).2.find? (· ≠ .resolved),
      results m last = r) ∧ Reach (outboxProgram P) (Answers results)
      ⟨h.deliver m position,
        [.handlerAwaited ⟨m, position, rest, processedCount, failureCount⟩], o⟩
      (Config.after ⟨h, [], o⟩ ((h.callHandlers (results m) m position (left + 1)).1.endTurn
        ⟨m, last, rest, processedCount, failureCount⟩
        ((h.callHandlers (results m) m position (left + 1)).2.find? (· ≠ .resolved))) []) := by
  induction left generalizing h position with
  | zero =>
    have hcall : h.callHandlers (results m) m position (0 + 1) =
        (h.deliver m position, [results m position]) := by
      by_cases hr : results m position = .resolved
      · rw [callHandlers_of_resolved _ _ _ _ _ hr, hr]
        rfl
      · exact callHandlers_of_failure _ _ _ _ _ hr
    have hlast : ¬ position + 1 < (h.deliver m position).handlerCount m := hn.not_gt
    rw [hcall]
    refine ⟨position, fun r hr => ?_, reach_endTurn (h.deliver m position)
      ⟨m, position, rest, processedCount, failureCount⟩ fun _ => hlast⟩
    exact (List.mem_singleton.mp (List.mem_of_find?_eq_some hr)).symm
  | succ left ih =>
    have hcount : (h.deliver m position).handlerCount m = position + (left + 1 + 1) := hn
    have hlt : position + 1 < (h.deliver m position).handlerCount m := by omega
    by_cases hr : results m position = .resolved
    · have hnext := reach_nextHandler (o := o) (h.deliver m position)
        ⟨m, position, rest, processedCount, failureCount⟩ hr hlt
      obtain ⟨last, hr', hlater⟩ :=
        ih (h.deliver m position) (position + 1) (hcount.trans (by omega))
      rw [callHandlers_of_resolved _ _ _ _ _ hr, List.find?_cons_of_neg (by decide)]
      exact ⟨last, hr', hnext.trans hlater⟩
    · rw [callHandlers_of_failure _ _ _ _ _ hr]
      refine ⟨position, fun r hr' => ?_, reach_endTurn (h.deliver m position)
        ⟨m, position, rest, processedCount, failureCount⟩ fun h' => absurd h' hr⟩
      exact (List.mem_singleton.mp (List.mem_of_find?_eq_some hr')).symm

/-- A flush with that outcome has ended, and one without awaits a promise that never settles. -/
def Ends (results : ℕ → ℕ → HandlerResult) (waiting : List (OutboxCall P)) :
    Option (OutboxOutcome P) → Prop
  | some _ => waiting = []
  | none => ∃ f, waiting = [.handlerAwaited f] ∧ results f.message f.position = .unsettled

theorem reach_flushLoop (s : FlushState P) (l : List ℕ) :
    ∃ waiting, Ends results waiting (flushLoop results s l).2 ∧
      Reach (outboxProgram P) (Answers results)
        (Config.after ⟨s.heap, [], o⟩ (s.heap.turnTo s.processedCount s.failureCount l) [])
        ⟨(flushLoop results s l).1.heap, waiting, o ++ (flushLoop results s l).2.toList⟩ := by
  induction l generalizing s with
  | nil => exact ⟨[], rfl, .start⟩
  | cons m rest ih =>
    by_cases h0 : s.heap.handlerCount m = 0
    · have hcalled : s.called results m = s.heap := by rw [FlushState.called, h0]; rfl
      have hfailure : (s.attempt results m).failure = none := by
        rw [Attempt.failure, FlushState.attempt, h0]
        rfl
      have hpub := ih (s.publish results m)
      unfold flushLoop OutboxHandler.turnTo
      rw [FlushState.publish, hcalled] at hpub
      rw [if_pos h0, hfailure, FlushState.publish, hcalled]
      exact hpub
    · obtain ⟨left, hleft⟩ := Nat.exists_eq_succ_of_ne_zero h0
      have hcalls : ∃ last, (∀ r ∈ (s.attempt results m).failure, results m last = r) ∧
          Reach (outboxProgram P) (Answers results)
            ⟨s.heap.deliver m 0,
              [.handlerAwaited ⟨m, 0, rest, s.processedCount, s.failureCount⟩], o⟩
            (Config.after ⟨s.heap, [], o⟩ ((s.called results m).endTurn
              ⟨m, last, rest, s.processedCount, s.failureCount⟩
              (s.attempt results m).failure) []) := by
        rw [FlushState.called, Attempt.failure, FlushState.attempt, hleft]
        exact reach_callHandlers s.heap m 0 left rest _ _ (hleft.trans (by omega))
      obtain ⟨last, hlast, hcalls⟩ := hcalls
      unfold flushLoop OutboxHandler.turnTo
      rw [if_neg h0, Config.after, List.append_nil]
      rcases s.failure_attempt results m with hf | ⟨message, hf⟩ | hf | hf
      · rw [hf] at hcalls ⊢
        obtain ⟨waiting, hends, hlater⟩ := ih (s.publish results m)
        exact ⟨waiting, hends, hcalls.trans hlater⟩
      · rw [hf] at hcalls ⊢
        obtain ⟨waiting, hends, hlater⟩ := ih (s.fail results m message)
        exact ⟨waiting, hends, hcalls.trans hlater⟩
      · rw [hf] at hcalls ⊢
        exact ⟨[], rfl, hcalls⟩
      · rw [hf] at hcalls ⊢
        exact ⟨_, ⟨_, rfl, hlast _ hf⟩, hcalls⟩

/-- **A flush with nothing else running**: `outboxProgram` takes it to the state that `flushOutbox`
gives. -/
theorem reach_flushOutbox (h : OutboxHandler P) (batchSize : ℤ) (i : OutboxInput) :
    ∃ c, (outboxProgram P).step ⟨h, [], o⟩ (.call (.flushOutbox batchSize) i) = some c ∧
      ∃ waiting, Ends results waiting (h.flushOutbox batchSize results).2 ∧
        Reach (outboxProgram P) (Answers results) c
          ⟨(h.flushOutbox batchSize results).1.heap, waiting,
            o ++ (h.flushOutbox batchSize results).2.toList⟩ :=
  ⟨_, rfl, reach_flushLoop ⟨h, [], 0, 0⟩ (h.snapshot batchSize)⟩

end Refinement

/-! ## One method after another -/

/-- A method call, with what the handlers of a flush do. -/
inductive OutboxOp (P : Type) where
  | queueEvent (topic : String) (event : IDomainEvent P) (messageId : String)
  | subscribe (eventType handler : String)
  | flushOutbox (batchSize : ℤ) (results : ℕ → ℕ → HandlerResult)

/-- How a method call ends, and the attempts it has made. -/
structure OutboxReply (P : Type) where
  outcome : Option (OutboxOutcome P) := none
  attempts : List Attempt := []

/-- **The handler object**, when each call has ended, or awaits a promise that never settles, before
the next one starts. -/
def outboxMachine (P : Type) : Machine (OutboxHandler P) (OutboxOp P) (OutboxReply P) where
  call op h :=
    match op with
    | .queueEvent topic event messageId =>
      (h.queueEvent topic event messageId,
        { outcome := some (.queued (newMessage topic event messageId)) })
    | .subscribe eventType handler => (h.subscribe eventType handler, {})
    | .flushOutbox batchSize results =>
      let flush := h.flushOutbox batchSize results
      (flush.1.heap, { outcome := flush.2, attempts := flush.1.attempts })

/-- A call of a run. -/
abbrev OutboxEvent (P : Type) : Type := Event (OutboxHandler P) (OutboxOp P) (OutboxReply P)

/-- The attempts of a run. -/
def attempts (es : List (OutboxEvent P)) : List Attempt := es.flatMap fun e => e.result.attempts

/-- The attempts on message `m`. -/
def attemptsOn (es : List (OutboxEvent P)) (m : ℕ) : List Attempt :=
  (attempts es).filter fun a => a.message = m

end Logix.Outbox
