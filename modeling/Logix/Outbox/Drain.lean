import Logix.Outbox.Flush
import Logix.Spec.Retry
import Mathlib.Algebra.Order.BigOperators.Group.List

/-!
# Does an outbox drain?

* `Tracked`: the invariant, on the attempts of a run and the queue that they leave: a message is
  retried at most five times, and its status and `retryCount` tell what its attempts did;
* `remaining`: the attempts that the PENDING messages have left;
* **`drains`**: when every promise settles and every rejection has a `message` to read, five flushes
  a message empty the outbox;
* **`not_blocked_iff`**: a message that keeps failing blocks nothing exactly in the runs in which
  all handlers do that.
-/

namespace Logix.Outbox

open Spec OutboxHandler

variable {P : Type}

/-! ## A message and its attempts -/

/-- The verdict of a status. -/
def OutboxStatus.verdict : OutboxStatus → Verdict
  | .PENDING => .waiting
  | .PUBLISHED => .done
  | .DEAD_LETTER => .givenUp

/-- The message as `queueEvent` has pushed it. -/
def IOutboxMessage.asQueued (msg : IOutboxMessage P) : IOutboxMessage P :=
  { msg with status := .PENDING, retryCount := 0, errorMessage := none }

/-- **What a message tells of the attempts on it.** -/
structure Tracks (as : List Attempt) (msg : IOutboxMessage P) : Prop where
  retried : Retried Attempt.Completed 5 as msg.status.verdict
  retryCount : msg.retryCount = as.countP fun a => ¬ a.Completed

section Message

variable {as : List Attempt} {a : Attempt} {msg : IOutboxMessage P}

theorem IOutboxMessage.status_fail (msg : IOutboxMessage P) (message : Option String) :
    (msg.fail message).status = if 5 ≤ msg.retryCount + 1 then .DEAD_LETTER else msg.status := by
  unfold IOutboxMessage.fail
  split_ifs <;> rfl

theorem IOutboxMessage.asQueued_fail (msg : IOutboxMessage P) (message : Option String) :
    (msg.fail message).asQueued = msg.asQueued := by
  unfold IOutboxMessage.fail
  split_ifs <;> rfl

theorem tracks_newMessage (topic : String) (event : IDomainEvent P) (messageId : String) :
    Tracks [] (newMessage topic event messageId) := ⟨.start, rfl⟩

theorem Tracks.publish (h : Tracks as msg) (hst : msg.status = .PENDING) (ha : a.Completed) :
    Tracks (as ++ [a]) msg.publish where
  retried := by
    have hr := h.retried
    rw [hst] at hr
    exact hr.succeed ha
  retryCount := by
    rw [List.countP_append, List.countP_cons_of_neg (by simpa using ha), ← h.retryCount]
    rfl

theorem Tracks.fail (h : Tracks as msg) (hst : msg.status = .PENDING) (ha : ¬ a.Completed)
    (message : Option String) : Tracks (as ++ [a]) (msg.fail message) where
  retried := by
    have hr := h.retried
    rw [hst] at hr
    have hlen : msg.retryCount = as.length :=
      h.retryCount.trans (countP_eq_length_of_failed (hr.of_waiting (by decide)).1)
    rw [IOutboxMessage.status_fail, hst]
    split_ifs with h5
    · exact hr.giveUp ha (by omega)
    · exact hr.fail ha (by omega)
  retryCount := by
    rw [IOutboxMessage.retryCount_fail, List.countP_append,
      List.countP_cons_of_pos (by simpa using ha), ← h.retryCount]
    rfl

theorem Tracks.retryCount_lt (h : Tracks as msg) (hst : msg.status = .PENDING) :
    msg.retryCount < 5 := by
  have hr := h.retried
  rw [hst] at hr
  obtain ⟨hfail, hlt⟩ := hr.of_waiting (by decide)
  rw [h.retryCount, countP_eq_length_of_failed hfail]
  exact hlt

end Message

/-! ## The queue -/

/-- **The invariant**: the attempts `as` lead to the queue `q`. -/
structure Tracked (as : List Attempt) (q : List (IOutboxMessage P)) : Prop where
  message : ∀ m msg, q[m]? = some msg → Tracks (as.filter fun a => a.message = m) msg
  queued : ∀ a ∈ as, a.message < q.length

section Queue

variable {as : List Attempt} {a : Attempt} {q : List (IOutboxMessage P)} {msg : IOutboxMessage P}

theorem Tracked.modify {f : IOutboxMessage P → IOutboxMessage P} (h : Tracked as q)
    (hq : q[a.message]? = some msg)
    (hf : ∀ as', Tracks as' msg → Tracks (as' ++ [a]) (f msg)) :
    Tracked (as ++ [a]) (q.modify a.message f) where
  message := by
    refine forall_modify hq (fun n b hn hb => ?_) ?_
    · rw [List.filter_append, List.filter_cons_of_neg (by simpa using Ne.symm hn), List.filter_nil,
        List.append_nil]
      exact h.message n b hb
    · rw [List.filter_append, List.filter_cons_of_pos (by simp)]
      exact hf _ (h.message _ _ hq)
  queued b hb := by
    rw [List.length_modify]
    rcases List.mem_append.mp hb with hb | hb
    · exact h.queued b hb
    · rw [List.mem_singleton.mp hb]
      exact (List.getElem?_eq_some_iff.mp hq).1

theorem Tracked.queueEvent (h : Tracked as q) (topic : String) (event : IDomainEvent P)
    (messageId : String) : Tracked as (q ++ [newMessage topic event messageId]) where
  message m msg hm := by
    by_cases hlt : m < q.length
    · rw [List.getElem?_append_left hlt] at hm
      exact h.message m msg hm
    · have hnone : (as.filter fun a => a.message = m) = [] :=
        List.filter_eq_nil_iff.mpr fun a ha hm => by
          have := h.queued a ha
          have : a.message = m := of_decide_eq_true hm
          omega
      rw [List.getElem?_append_right (Nat.le_of_not_lt hlt)] at hm
      rw [hnone, List.mem_singleton.mp (List.mem_of_getElem? hm)]
      exact tracks_newMessage topic event messageId
  queued a ha := by
    rw [List.length_append]
    exact Nat.lt_add_right _ (h.queued a ha)

theorem map_asQueued_modify {m : ℕ} {f : IOutboxMessage P → IOutboxMessage P}
    (hf : ∀ msg, (f msg).asQueued = msg.asQueued) :
    (q.modify m f).map IOutboxMessage.asQueued = q.map IOutboxMessage.asQueued := by
  refine List.ext_getElem? fun n => ?_
  rw [List.getElem?_map, List.getElem?_map, List.getElem?_modify]
  cases q[n]? with
  | none => rfl
  | some msg => by_cases h : m = n <;> simp [h, hf]

end Queue

/-! ## Runs -/

/-- The message that a call queues. -/
def OutboxOp.message : OutboxOp P → Option (IOutboxMessage P)
  | .queueEvent topic event messageId => some (newMessage topic event messageId)
  | .subscribe .. | .flushOutbox .. => none

section Runs

variable {es : List (OutboxEvent P)} {e : OutboxEvent P} {h : OutboxHandler P} {batchSize : ℤ}
  {results : ℕ → ℕ → HandlerResult}

theorem attempts_concat : attempts (es ++ [e]) = attempts es ++ e.result.attempts := by
  simp [attempts]

theorem tracked_flushOutbox {as : List Attempt} {content : List (IOutboxMessage P)}
    (hall : ∀ a ∈ (h.flushOutbox batchSize results).1.attempts, a.Handled)
    (hT : Tracked as h.outboxQueue) (hq : h.outboxQueue.map IOutboxMessage.asQueued = content) :
    Tracked (as ++ (h.flushOutbox batchSize results).1.attempts)
        (h.flushOutbox batchSize results).1.heap.outboxQueue ∧
      (h.flushOutbox batchSize results).1.heap.outboxQueue.map IOutboxMessage.asQueued =
        content := by
  refine flushLoop_queue (J := fun as' q => Tracked (as ++ as') q ∧
    q.map IOutboxMessage.asQueued = content) ?_ ?_ hall (nodup_snapshot h batchSize)
    (fun m hm => statusOf_of_mem_snapshot hm) ⟨by rwa [List.append_nil], hq⟩
  · rintro as' q a msg ⟨hT, hq⟩ hmsg hst ha
    rw [← List.append_assoc]
    exact ⟨hT.modify hmsg fun _ hm => hm.publish hst ha,
      (map_asQueued_modify (f := .publish) fun _ => rfl).trans hq⟩
  · rintro as' q a msg message ⟨hT, hq⟩ hmsg hst ha
    rw [← List.append_assoc]
    exact ⟨hT.modify hmsg fun _ hm => hm.fail hst ha message,
      (map_asQueued_modify fun msg => msg.asQueued_fail message).trans hq⟩

theorem tracked_history (ops : List (OutboxOp P))
    (hok : ∀ e ∈ (outboxMachine P).history .new ops, ∀ a ∈ e.result.attempts, a.Handled) :
    Tracked (attempts ((outboxMachine P).history .new ops))
        ((outboxMachine P).run .new ops).outboxQueue ∧
      ((outboxMachine P).run .new ops).outboxQueue.map IOutboxMessage.asQueued =
        ops.filterMap OutboxOp.message := by
  have hgo := Machine.history_invariant (M := outboxMachine P) (s := .new)
    (J := fun es h => Tracked (attempts es) h.outboxQueue ∧
      h.outboxQueue.map IOutboxMessage.asQueued =
        (es.map Event.input).filterMap OutboxOp.message) ?_ ?_ ops hok
  · rwa [Machine.map_input_history] at hgo
  · exact ⟨⟨fun m msg hm => absurd hm (by simp [OutboxHandler.new]),
      fun a ha => absurd ha List.not_mem_nil⟩, rfl⟩
  · rintro es h op ⟨hT, hq⟩ hall
    rw [attempts_concat, List.map_append, List.filterMap_append, ← hq]
    cases op with
    | queueEvent topic event messageId =>
      refine ⟨?_, List.map_append⟩
      rw [show ((outboxMachine P).event h (.queueEvent topic event messageId)).result.attempts =
        [] from rfl, List.append_nil]
      exact hT.queueEvent topic event messageId
    | subscribe eventType handler =>
      refine ⟨?_, (List.append_nil _).symm⟩
      rw [show ((outboxMachine P).event h (.subscribe eventType handler)).result.attempts =
        [] from rfl, List.append_nil]
      exact hT
    | flushOutbox batchSize results => exact tracked_flushOutbox hall hT (List.append_nil _).symm

end Runs

/-! ## Bounded retries -/

/-- **The attempts on message `m`**: at most five, all failed in a dead letter, and the last one
completed in a published message. -/
structure BoundedRetries (es : List (OutboxEvent P)) (h : OutboxHandler P) (m : ℕ) : Prop where
  attempts : (attemptsOn es m).length ≤ 5
  deadLetter : h.statusOf m = some .DEAD_LETTER ↔
    (attemptsOn es m).countP (fun a => ¬ a.Completed) = 5
  published : h.statusOf m = some .PUBLISHED ↔ ∃ a ∈ (attemptsOn es m).getLast?, a.Completed

theorem verdict_eq_done_iff {status : OutboxStatus} :
    status.verdict = .done ↔ status = .PUBLISHED := by cases status <;> decide

theorem verdict_eq_givenUp_iff {status : OutboxStatus} :
    status.verdict = .givenUp ↔ status = .DEAD_LETTER := by cases status <;> decide

theorem Tracked.boundedRetries {es : List (OutboxEvent P)} {h : OutboxHandler P}
    (hT : Tracked (attempts es) h.outboxQueue) (m : ℕ) : BoundedRetries es h m := by
  cases hm : h.outboxQueue[m]? with
  | none =>
    have hnone : attemptsOn es m = [] := List.filter_eq_nil_iff.mpr fun a ha he => by
      have := hT.queued a ha
      have := List.getElem?_eq_none_iff.mp hm
      have : a.message = m := of_decide_eq_true he
      omega
    exact
      { attempts := by simp [hnone]
        deadLetter := by simp [statusOf, hm, hnone]
        published := by simp [statusOf, hm, hnone] }
  | some msg =>
    have hst : h.statusOf m = some msg.status := congrArg (Option.map _) hm
    have hr := (hT.message m msg hm).retried
    exact
      { attempts := hr.length_le (by decide)
        deadLetter := by
          rw [hst, Option.some_inj, ← verdict_eq_givenUp_iff]
          exact hr.givenUp_iff (by decide)
        published := by
          rw [hst, Option.some_inj, ← verdict_eq_done_iff]
          exact hr.done_iff }

/-! ## The attempts that are left -/

/-- The attempts that a message has left. -/
def IOutboxMessage.budget (msg : IOutboxMessage P) : ℕ :=
  if msg.status = .PENDING then 5 - msg.retryCount else 0

/-- **The attempts that the messages have left.** -/
def remaining (q : List (IOutboxMessage P)) : ℕ := (q.map IOutboxMessage.budget).sum

/-- Every PENDING message has attempts left. -/
def Live (q : List (IOutboxMessage P)) : Prop :=
  ∀ (m : ℕ) (msg : IOutboxMessage P), q[m]? = some msg → msg.status = .PENDING →
    msg.retryCount < 5

section Remaining

variable {q : List (IOutboxMessage P)} {msg : IOutboxMessage P} {h : OutboxHandler P}
  {batchSize : ℤ} {results : ℕ → ℕ → HandlerResult}

theorem Tracked.live {as : List Attempt} (h : Tracked as q) : Live q :=
  fun m msg hm hst => (h.message m msg hm).retryCount_lt hst

theorem remaining_le (q : List (IOutboxMessage P)) : remaining q ≤ 5 * q.length := by
  have hle := List.sum_le_card_nsmul (q.map IOutboxMessage.budget) 5 fun n hn => by
    obtain ⟨msg, -, rfl⟩ := List.mem_map.mp hn
    unfold IOutboxMessage.budget
    split_ifs <;> omega
  rw [List.length_map] at hle
  exact hle.trans_eq (Nat.mul_comm _ _)

theorem remaining_ne_zero (hq : Live q) {m : ℕ} (hm : q[m]? = some msg)
    (hst : msg.status = .PENDING) : remaining q ≠ 0 := by
  intro h0
  have hz := List.sum_eq_zero_iff.mp h0 _ (List.mem_map_of_mem (List.mem_of_getElem? hm))
  rw [IOutboxMessage.budget, if_pos hst] at hz
  have := hq m msg hm hst
  omega

theorem exists_pending_of_remaining (h0 : remaining q ≠ 0) :
    ∃ (m : ℕ) (msg : IOutboxMessage P), q[m]? = some msg ∧ msg.status = .PENDING := by
  by_contra hno
  push Not at hno
  refine h0 (List.sum_eq_zero fun n hn => ?_)
  obtain ⟨msg, hmsg, rfl⟩ := List.mem_map.mp hn
  obtain ⟨m, hm⟩ := List.mem_iff_getElem?.mp hmsg
  exact if_neg (hno m msg hm)

theorem Live.modify {m n : ℕ} {f : IOutboxMessage P → IOutboxMessage P} {R : ℕ} (hq : Live q)
    (hR : remaining q + n ≤ R) (hm : q[m]? = some msg)
    (hlive : (f msg).status = .PENDING → (f msg).retryCount < 5)
    (hf : (f msg).budget + 1 ≤ msg.budget) :
    Live (q.modify m f) ∧ remaining (q.modify m f) + (n + 1) ≤ R := by
  refine ⟨forall_modify (p := fun _ (b : IOutboxMessage P) => b.status = .PENDING →
    b.retryCount < 5) hm (fun n b _ hb => hq n b hb) hlive, ?_⟩
  have hsum := sum_map_modify IOutboxMessage.budget f hm
  unfold remaining at hR ⊢
  omega

theorem budget_publish (hst : msg.status = .PENDING) (hlt : msg.retryCount < 5) :
    msg.publish.budget + 1 ≤ msg.budget := by
  have hpub : msg.publish.budget = 0 := rfl
  rw [hpub, IOutboxMessage.budget, if_pos hst]
  omega

theorem budget_fail (hst : msg.status = .PENDING) (hlt : msg.retryCount < 5)
    (message : Option String) : (msg.fail message).budget + 1 ≤ msg.budget := by
  rw [IOutboxMessage.budget, IOutboxMessage.budget, IOutboxMessage.status_fail,
    IOutboxMessage.retryCount_fail, hst, if_pos rfl]
  by_cases h5 : 5 ≤ msg.retryCount + 1
  · rw [if_pos h5, if_neg (by decide)]
    omega
  · rw [if_neg h5, if_pos rfl]
    omega

theorem retryCount_fail_lt {message : Option String} (hst : (msg.fail message).status = .PENDING) :
    (msg.fail message).retryCount < 5 := by
  rw [IOutboxMessage.status_fail] at hst
  rw [IOutboxMessage.retryCount_fail]
  split_ifs at hst with h5
  exact Nat.lt_of_not_le h5

theorem remaining_flushOutbox (hq : Live h.outboxQueue)
    (hall : ∀ a ∈ (h.flushOutbox batchSize results).1.attempts, a.Handled) :
    Live (h.flushOutbox batchSize results).1.heap.outboxQueue ∧
      remaining (h.flushOutbox batchSize results).1.heap.outboxQueue +
        (h.flushOutbox batchSize results).1.attempts.length ≤ remaining h.outboxQueue := by
  refine flushLoop_queue (J := fun as q => Live q ∧
    remaining q + as.length ≤ remaining h.outboxQueue) ?_ ?_ hall (nodup_snapshot h batchSize)
    (fun m hm => statusOf_of_mem_snapshot hm) ⟨hq, le_rfl⟩
  · rintro as q a msg ⟨hq, hR⟩ hmsg hst -
    rw [List.length_append]
    exact hq.modify hR hmsg (fun hp => by cases hp) (budget_publish hst (hq _ msg hmsg hst))
  · rintro as q a msg message ⟨hq, hR⟩ hmsg hst -
    rw [List.length_append]
    exact hq.modify hR hmsg retryCount_fail_lt (budget_fail hst (hq _ msg hmsg hst) message)

theorem snapshot_ne_nil (hb : 1 ≤ batchSize) {m : ℕ} (hm : h.statusOf m = some .PENDING) :
    h.snapshot batchSize ≠ [] := by
  have hmem : m ∈ h.withStatus .PENDING :=
    List.mem_filter.mpr ⟨List.mem_range.mpr (lt_of_statusOf hm), decide_eq_true hm⟩
  have hnonneg : ¬ batchSize < 0 := by omega
  simp only [snapshot, if_neg hnonneg]
  intro hnil
  rcases List.take_eq_nil_iff.mp hnil with h0 | h0
  · omega
  · rw [h0] at hmem
    cases hmem

end Remaining

/-! ## Draining -/

/-- The handlers of the call resolve, or reject with a value whose `message` can be read. -/
def OutboxOp.ErrorsOnly : OutboxOp P → Prop
  | .flushOutbox _ results => ∀ m position, (results m position).Handled
  | .queueEvent .. | .subscribe .. => True

/-- A flush of at least one message. -/
def OutboxOp.Drains : OutboxOp P → Prop
  | .flushOutbox batchSize _ => 1 ≤ batchSize
  | .queueEvent .. | .subscribe .. => False

theorem OutboxOp.ErrorsOnly.handled {op : OutboxOp P} (hop : op.ErrorsOnly)
    (h : OutboxHandler P) :
    ∀ a ∈ ((outboxMachine P).event h op).result.attempts, a.Handled := by
  cases op with
  | queueEvent topic event messageId => exact fun a ha => absurd ha List.not_mem_nil
  | subscribe eventType handler => exact fun a ha => absurd ha List.not_mem_nil
  | flushOutbox batchSize results =>
    obtain ⟨_, _, hflushed⟩ := flushed_of_handled hop
    exact handled_of_flushLoop (fun a ha => absurd ha List.not_mem_nil) hflushed

theorem remaining_next {h : OutboxHandler P} {op : OutboxOp P} (hq : Live h.outboxQueue)
    (hop : op.Drains ∧ op.ErrorsOnly) :
    Live ((outboxMachine P).next h op).outboxQueue ∧
      remaining ((outboxMachine P).next h op).outboxQueue ≤ remaining h.outboxQueue - 1 := by
  obtain ⟨hdrains, herrors⟩ := hop
  cases op with
  | queueEvent topic event messageId => exact hdrains.elim
  | subscribe eventType handler => exact hdrains.elim
  | flushOutbox batchSize results =>
    have hall := herrors.handled h
    obtain ⟨hlive, hrem⟩ := remaining_flushOutbox hq hall
    refine ⟨hlive, ?_⟩
    by_cases h0 : remaining h.outboxQueue = 0
    · exact (Nat.le_of_add_right_le hrem).trans (by omega)
    · -- a message is PENDING, so the batch is not empty
      obtain ⟨m, msg, hm, hst⟩ := exists_pending_of_remaining h0
      have hbatch := snapshot_ne_nil hdrains (h := h) (m := m) (by rw [statusOf, hm, ← hst]; rfl)
      have hlen := congrArg List.length (map_message_flushLoop hall)
      rw [List.length_map, List.length_append, List.length_map, List.length_nil,
        Nat.zero_add] at hlen
      have hpos := List.length_pos_iff.mpr hbatch
      change remaining (h.flushOutbox batchSize results).1.heap.outboxQueue ≤ _
      unfold OutboxHandler.flushOutbox at hrem ⊢
      omega

theorem getPendingCount_eq_zero {h : OutboxHandler P} (hq : Live h.outboxQueue)
    (h0 : remaining h.outboxQueue = 0) : h.getPendingCount = 0 := by
  refine List.length_eq_zero_iff.mpr (List.filter_eq_nil_iff.mpr fun m _ hm => ?_)
  obtain ⟨msg, hmsg, hst⟩ := Option.map_eq_some_iff.mp (of_decide_eq_true hm)
  exact remaining_ne_zero hq hmsg hst h0

theorem tracked_of_errorsOnly {ops : List (OutboxOp P)} (hops : ∀ op ∈ ops, op.ErrorsOnly) :
    Tracked (attempts ((outboxMachine P).history .new ops))
        ((outboxMachine P).run .new ops).outboxQueue ∧
      ((outboxMachine P).run .new ops).outboxQueue.map IOutboxMessage.asQueued =
        ops.filterMap OutboxOp.message := by
  refine tracked_history ops fun e he => ?_
  obtain ⟨js, op, ks, rfl, rfl⟩ := Machine.mem_history_iff.mp he
  exact (hops op (List.mem_append_right _ List.mem_cons_self)).handled _

/-- **The outbox drains with bounded retries**: no message is lost, every message is retried at most
five times, and five flushes for each message leave none PENDING. -/
theorem drains (ops : List (OutboxOp P)) (hops : ∀ op ∈ ops, op.ErrorsOnly) :
    ((outboxMachine P).run .new ops).outboxQueue.map IOutboxMessage.asQueued =
        ops.filterMap OutboxOp.message ∧
      (∀ m, BoundedRetries ((outboxMachine P).history .new ops)
        ((outboxMachine P).run .new ops) m) ∧
      ∀ flushes : List (OutboxOp P), (∀ op ∈ flushes, op.Drains ∧ op.ErrorsOnly) →
        5 * ((outboxMachine P).run .new ops).outboxQueue.length ≤ flushes.length →
        ((outboxMachine P).run .new (ops ++ flushes)).getPendingCount = 0 := by
  obtain ⟨hT, hq⟩ := tracked_of_errorsOnly hops
  refine ⟨hq, hT.boundedRetries, fun flushes hflush hlen => ?_⟩
  have hall : ∀ op ∈ ops ++ flushes, op.ErrorsOnly := fun op hop =>
    (List.mem_append.mp hop).elim (hops op) fun hop => (hflush op hop).2
  have hlast := Machine.measure_run_le (M := outboxMachine P)
    (I := fun h => Live h.outboxQueue) (fun h => remaining h.outboxQueue)
    (fun _ _ hlive hop => remaining_next hlive hop) hT.live flushes hflush
  have hfirst := remaining_le ((outboxMachine P).run .new ops).outboxQueue
  rw [← Machine.run_append] at hlast
  exact getPendingCount_eq_zero (tracked_of_errorsOnly hall).1.live (by omega)

/-! ## A message that keeps failing -/

/-- **A failing message blocks nothing**: flushes resolve, every message of a batch is attempted, and
after five failed attempts a message is a dead letter. -/
structure NotBlocked (es : List (OutboxEvent P)) (h : OutboxHandler P) : Prop where
  resolves : ∀ e ∈ es, ∀ batchSize results, e.input = .flushOutbox batchSize results →
    ∃ processedCount failureCount,
      e.result.outcome = some (.flushed processedCount failureCount)
  attempted : ∀ e ∈ es, ∀ batchSize results, e.input = .flushOutbox batchSize results →
    e.result.attempts.map Attempt.message = e.before.snapshot batchSize
  deadLetter : ∀ m, 5 ≤ (attemptsOn es m).length → (∀ a ∈ attemptsOn es m, ¬ a.Completed) →
    h.statusOf m = some .DEAD_LETTER

/-- **A failing message blocks nothing exactly when every promise settles, and every rejection has a
`message` to read.** -/
theorem not_blocked_iff (ops : List (OutboxOp P)) :
    NotBlocked ((outboxMachine P).history .new ops) ((outboxMachine P).run .new ops) ↔
      ∀ a ∈ attempts ((outboxMachine P).history .new ops), a.Handled := by
  constructor
  · intro hnb a ha
    obtain ⟨e, he, hae⟩ := List.mem_flatMap.mp ha
    have hres := hnb.resolves e he
    obtain ⟨js, op, ks, -, rfl⟩ := Machine.mem_history_iff.mp he
    cases op with
    | queueEvent topic event messageId => exact absurd hae List.not_mem_nil
    | subscribe eventType handler => exact absurd hae List.not_mem_nil
    | flushOutbox batchSize results =>
      obtain ⟨_, _, hflushed⟩ := hres batchSize results rfl
      exact handled_of_flushLoop (fun a ha => absurd ha List.not_mem_nil) hflushed a hae
  · intro hall
    have hevent : ∀ e ∈ (outboxMachine P).history .new ops,
        ∀ a ∈ e.result.attempts, a.Handled :=
      fun e he a ha => hall a (List.mem_flatMap.mpr ⟨e, he, ha⟩)
    obtain ⟨hT, -⟩ := tracked_history ops hevent
    refine ⟨fun e he batchSize results hin => ?_, fun e he batchSize results hin => ?_,
      fun m h5 hfail => ?_⟩
    · have hall' := hevent e he
      obtain ⟨js, op, ks, -, rfl⟩ := Machine.mem_history_iff.mp he
      obtain rfl : op = .flushOutbox batchSize results := hin
      exact (flushLoop_induction (J := fun _ _ => True) (fun _ _ _ _ _ => trivial)
        (fun _ _ _ _ _ _ => trivial) hall' trivial).2
    · have hall' := hevent e he
      obtain ⟨js, op, ks, -, rfl⟩ := Machine.mem_history_iff.mp he
      obtain rfl : op = .flushOutbox batchSize results := hin
      exact map_message_flushLoop hall'
    · have hb := hT.boundedRetries m
      refine hb.deadLetter.mpr ?_
      rw [countP_eq_length_of_failed hfail]
      exact Nat.le_antisymm hb.attempts h5

/-! ## Two messages -/

section TwoMessages

/-- An event of that aggregate. -/
def orderEvent (aggregateId : String) : IDomainEvent Unit where
  eventId := "E-" ++ aggregateId
  eventType := "ORDER_PLACED"
  aggregateId := aggregateId
  tenantId := "T-1"
  schemaVersion := 1
  payload := ()
  correlationId := "C-1"
  causationId := none

/-- One subscriber, and two queued messages. -/
def twoQueued : List (OutboxOp Unit) :=
  [.subscribe "ORDER_PLACED" "handler", .queueEvent "orders" (orderEvent "O-1") "msg_1",
    .queueEvent "orders" (orderEvent "O-2") "msg_2"]

/-- The first message always fails with `r`, the second one is taken. -/
def firstFails (r : HandlerResult) (m _ : ℕ) : HandlerResult := if m = 0 then r else .resolved

/-- **A handler that rejects with `undefined`**: five flushes reject, the first message is PENDING
after five attempts, and the second one has not been attempted. A promise that never settles keeps
the flush and the second message waiting as well. -/
theorem poison_blocks :
    (let ops := twoQueued ++ List.replicate 5 (.flushOutbox 50 (firstFails .rejectedUnreadable))
      let es := (outboxMachine Unit).history .new ops
      let h := (outboxMachine Unit).run .new ops
      (es.map fun e => e.result.outcome).drop 3 = List.replicate 5 (some .rejected) ∧
        (attemptsOn es 0).length = 5 ∧ h.statusOf 0 = some .PENDING ∧ attemptsOn es 1 = [] ∧
        ¬ NotBlocked es h) ∧
    let ops := twoQueued ++ [.flushOutbox 50 (firstFails .unsettled)]
    let es := (outboxMachine Unit).history .new ops
    (es.map fun e => e.result.outcome).drop 3 = [none] ∧ attemptsOn es 1 = [] ∧
      ¬ NotBlocked es ((outboxMachine Unit).run .new ops) := by
  constructor
  · intro ops es h
    have hrun : (attemptsOn es 0).length = 5 ∧ (∀ a ∈ attemptsOn es 0, ¬ a.Completed) ∧
        h.statusOf 0 = some .PENDING := by decide
    refine ⟨by decide, hrun.1, hrun.2.2, by decide, fun hnb => ?_⟩
    have hdead := hnb.deadLetter 0 hrun.1.ge hrun.2.1
    rw [hrun.2.2] at hdead
    cases hdead
  · intro ops es
    refine ⟨by decide, by decide, fun hnb => ?_⟩
    have hall := hnb.attempted (es[3]) (List.getElem_mem _) 50 (firstFails .unsettled) rfl
    revert hall
    decide

/-- The first message fails with an error, one message a flush. -/
theorem drains_twoQueued :
    ((outboxMachine Unit).run .new (twoQueued ++ List.replicate 10
      (.flushOutbox 1 (firstFails (.rejected (some "down")))))).getPendingCount = 0 := by
  have herrors : ∀ m position, (firstFails (.rejected (some "down")) m position).Handled :=
    fun m position => by
      unfold firstFails
      split_ifs <;> trivial
  refine (drains twoQueued fun op hop => ?_).2.2 _ (fun op hop => ?_) (by decide)
  · simp only [twoQueued, List.mem_cons, List.not_mem_nil, or_false] at hop
    rcases hop with rfl | rfl | rfl <;> trivial
  · obtain rfl := List.eq_of_mem_replicate hop
    exact ⟨le_rfl, herrors⟩

end TwoMessages

end Logix.Outbox
