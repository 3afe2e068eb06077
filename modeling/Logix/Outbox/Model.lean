import Logix.Async.Program
import Logix.Js.Map
import Mathlib.Tactic.SplitIfs

/-!
# The outbox of domain events

Seven services have an outbox handler each: `RealtimeMetricRollupEventOutboxHandler`,
`NotificationDeliveryReceiptEventOutboxHandler`, `UserAuthenticationEventOutboxHandler`,
`LogisticsFleetTrackingEventOutboxHandler`, `InventoryStockMovementEventOutboxHandler`,
`OrderLifecycleEventOutboxHandler` and `FinancialLedgerTransactionEventOutboxHandler`. Their code
is the same up to the name of the event type, whose payload is the parameter `P` here.

* `OutboxHandler`: the queue, the subscribers, and a log of the handler calls;
* `snapshot`, `turnTo`: what `flushOutbox` selects, and how it goes from one message to the next;
* `outboxProgram`: `queueEvent` and `flushOutbox`, cut where a handler is awaited.

A message is a reference into the queue, which only grows, so it is an index. The time stamps are
left out: no method reads them.
-/

namespace Logix.Outbox

open Async

/-! ## Messages -/

/-- `IOrderLifecycleEvent`, and its six siblings. -/
structure IDomainEvent (P : Type) where
  eventId : String
  eventType : String
  aggregateId : String
  tenantId : String
  schemaVersion : ℤ
  payload : P
  correlationId : String
  causationId : Option String
  deriving DecidableEq, Repr

/-- The status of a message. -/
inductive OutboxStatus where
  | PENDING | PUBLISHED | DEAD_LETTER
  deriving DecidableEq, Repr

/-- `IOutboxMessage`. -/
structure IOutboxMessage (P : Type) where
  messageId : String
  destinationTopic : String
  partitionKey : String
  eventPayload : IDomainEvent P
  status : OutboxStatus
  retryCount : ℕ
  errorMessage : Option String
  deriving DecidableEq, Repr

variable {P : Type}

/-- The message that `queueEvent` pushes. -/
def newMessage (topic : String) (event : IDomainEvent P) (messageId : String) :
    IOutboxMessage P where
  messageId := messageId
  destinationTopic := topic
  partitionKey := event.tenantId
  eventPayload := event
  status := .PENDING
  retryCount := 0
  errorMessage := none

namespace IOutboxMessage

/-- `msg.status = 'PUBLISHED'`. -/
def publish (msg : IOutboxMessage P) : IOutboxMessage P := { msg with status := .PUBLISHED }

/-- `msg.retryCount++`. -/
def countRetry (msg : IOutboxMessage P) : IOutboxMessage P :=
  { msg with retryCount := msg.retryCount + 1 }

/-- The `catch` block on an error with that `message`. -/
def fail (msg : IOutboxMessage P) (message : Option String) : IOutboxMessage P :=
  let text := (message.filter (· ≠ "")).getD "Error executing event subscriber"
  if 5 ≤ msg.retryCount + 1 then
    { msg.countRetry with errorMessage := some text, status := .DEAD_LETTER }
  else { msg.countRetry with errorMessage := some text }

theorem eventPayload_publish (msg : IOutboxMessage P) :
    msg.publish.eventPayload = msg.eventPayload := rfl

theorem eventPayload_countRetry (msg : IOutboxMessage P) :
    msg.countRetry.eventPayload = msg.eventPayload := rfl

theorem eventPayload_fail (message : Option String) (msg : IOutboxMessage P) :
    (msg.fail message).eventPayload = msg.eventPayload := by
  unfold fail
  split_ifs <;> rfl

theorem retryCount_publish (msg : IOutboxMessage P) : msg.publish.retryCount = msg.retryCount := rfl

theorem retryCount_countRetry (msg : IOutboxMessage P) :
    msg.countRetry.retryCount = msg.retryCount + 1 := rfl

theorem retryCount_fail (message : Option String) (msg : IOutboxMessage P) :
    (msg.fail message).retryCount = msg.retryCount + 1 := by
  unfold fail
  split_ifs <;> rfl

end IOutboxMessage

/-! ## The handler object -/

/-- **An outbox handler.** The subscribers of an event type are named; `deliveries` logs every
handler call, with the message and the position of the handler. -/
structure OutboxHandler (P : Type) where
  outboxQueue : List (IOutboxMessage P)
  subscribers : JsMap String (List String)
  deliveries : List (ℕ × ℕ)

namespace OutboxHandler

/-- `queueEvent(topic, event)`. -/
def queueEvent (h : OutboxHandler P) (topic : String) (event : IDomainEvent P)
    (messageId : String) : OutboxHandler P :=
  { h with outboxQueue := h.outboxQueue ++ [newMessage topic event messageId] }

/-- `subscribe(eventType, handler)`. -/
def subscribe (h : OutboxHandler P) (eventType handler : String) : OutboxHandler P :=
  let subscribers :=
    if h.subscribers.has eventType then h.subscribers else h.subscribers.set eventType []
  { h with subscribers := subscribers.modify eventType (· ++ [handler]) }

/-- `new OutboxHandler()`. -/
def new : OutboxHandler P := ⟨[], .empty, []⟩

/-- `subscribers.get(msg.eventPayload.eventType) || []`. -/
def handlers (h : OutboxHandler P) (msg : IOutboxMessage P) : List String :=
  (h.subscribers.get msg.eventPayload.eventType).getD []

/-- The number of handlers that message `m` goes to. -/
def handlerCount (h : OutboxHandler P) (m : ℕ) : ℕ :=
  (h.outboxQueue[m]?.elim [] h.handlers).length

/-- The status of message `m`. -/
def statusOf (h : OutboxHandler P) (m : ℕ) : Option OutboxStatus :=
  h.outboxQueue[m]?.map IOutboxMessage.status

/-- The number of failed deliveries of message `m`. -/
def retriesOf (h : OutboxHandler P) (m : ℕ) : Option ℕ :=
  h.outboxQueue[m]?.map IOutboxMessage.retryCount

/-- Mutate message `m`. -/
def mutate (h : OutboxHandler P) (m : ℕ) (f : IOutboxMessage P → IOutboxMessage P) :
    OutboxHandler P :=
  { h with outboxQueue := h.outboxQueue.modify m f }

/-- Call the handler at `position` with message `m`. -/
def deliver (h : OutboxHandler P) (m position : ℕ) : OutboxHandler P :=
  { h with deliveries := h.deliveries ++ [(m, position)] }

/-- The messages with that status, in queue order. -/
def withStatus (h : OutboxHandler P) (status : OutboxStatus) : List ℕ :=
  (List.range h.outboxQueue.length).filter fun m => h.statusOf m = some status

/-- `outboxQueue.filter(m => m.status === 'PENDING').slice(0, batchSize)`. -/
def snapshot (h : OutboxHandler P) (batchSize : ℤ) : List ℕ :=
  let pending := h.withStatus .PENDING
  pending.take (if batchSize < 0 then pending.length + batchSize else batchSize).toNat

/-- `getPendingCount()`. -/
def getPendingCount (h : OutboxHandler P) : ℕ := (h.withStatus .PENDING).length

/-- `getDeadLetterMessages()`. -/
def getDeadLetterMessages (h : OutboxHandler P) : List ℕ := h.withStatus .DEAD_LETTER

end OutboxHandler

/-! ## The program -/

/-- **A flush that awaits a handler**: the message it is at, the position of the handler, the
messages that are left, and the counters. -/
structure FlushFrame where
  message : ℕ
  position : ℕ
  rest : List ℕ
  processedCount : ℕ
  failureCount : ℕ
  deriving DecidableEq, Repr

/-- The calls, and `flushOutbox` at its await. -/
inductive OutboxCall (P : Type) where
  | queueEvent (topic : String) (event : IDomainEvent P)
  | flushOutbox (batchSize : ℤ)
  | handlerAwaited (f : FlushFrame)
  deriving DecidableEq, Repr

/-- What the promise of a handler does. Some rejections are apart: with `undefined`, `null` or a
value whose `message` is a getter that throws, `err.message` throws. And a promise may never
settle. -/
inductive HandlerResult where
  | resolved
  | rejected (message : Option String)
  | rejectedUnreadable
  | unsettled
  deriving DecidableEq, Repr

/-- What a segment reads from outside: a generated id, and what the awaited handler did. -/
structure OutboxInput where
  messageId : String
  result : HandlerResult
  deriving DecidableEq, Repr

/-- How a call settles; a flush rejects with what its own `catch` block throws. -/
inductive OutboxOutcome (P : Type) where
  | queued (message : IOutboxMessage P)
  | flushed (processedCount failureCount : ℕ)
  | rejected
  deriving DecidableEq, Repr

/-- **The loop over the messages**, up to the first handler call: a message without handlers is
published at once. -/
def OutboxHandler.turnTo (h : OutboxHandler P) (processedCount failureCount : ℕ) :
    List ℕ → Segment (OutboxHandler P) (OutboxCall P) (OutboxOutcome P)
  | [] => { heap := h, settled := [.flushed processedCount failureCount] }
  | m :: rest =>
    if h.handlerCount m = 0 then
      (h.mutate m .publish).turnTo (processedCount + 1) failureCount rest
    else
      { heap := h.deliver m 0
        waiting := [.handlerAwaited ⟨m, 0, rest, processedCount, failureCount⟩] }

/-- **The calls of an outbox handler, cut where a handler is awaited.** -/
def outboxProgram (P : Type) :
    Program (OutboxHandler P) (OutboxCall P) OutboxInput (OutboxOutcome P) where
  run k input h :=
    match k with
    | .queueEvent topic event =>
      { heap := h.queueEvent topic event input.messageId
        settled := [.queued (newMessage topic event input.messageId)] }
    | .flushOutbox batchSize => h.turnTo 0 0 (h.snapshot batchSize)
    | .handlerAwaited f =>
      match input.result with
      | .resolved =>
        if f.position + 1 < h.handlerCount f.message then
          { heap := h.deliver f.message (f.position + 1)
            waiting := [.handlerAwaited { f with position := f.position + 1 }] }
        else (h.mutate f.message .publish).turnTo (f.processedCount + 1) f.failureCount f.rest
      | .rejected message =>
        (h.mutate f.message (·.fail message)).turnTo f.processedCount (f.failureCount + 1) f.rest
      | .rejectedUnreadable =>
        { heap := h.mutate f.message .countRetry, settled := [.rejected] }
      | .unsettled => { heap := h, waiting := [.handlerAwaited f] }

/-! ## Reading a message -/

namespace OutboxHandler

variable {h : OutboxHandler P} {m m' : ℕ} {f : IOutboxMessage P → IOutboxMessage P}

theorem handlerCount_mutate (hf : ∀ msg, (f msg).eventPayload = msg.eventPayload) (m m' : ℕ) :
    (h.mutate m f).handlerCount m' = h.handlerCount m' := by
  unfold handlerCount mutate
  simp only [List.getElem?_modify]
  cases h.outboxQueue[m']? with
  | none => rfl
  | some msg =>
    by_cases hm : m = m'
    · simp [hm, handlers, hf]
    · simp [hm, handlers]

theorem getElem?_mutate_ne (hne : m' ≠ m) :
    (h.mutate m f).outboxQueue[m']? = h.outboxQueue[m']? :=
  List.getElem?_modify_ne _ _ hne.symm

theorem statusOf_mutate_ne (hne : m' ≠ m) : (h.mutate m f).statusOf m' = h.statusOf m' :=
  congrArg _ (getElem?_mutate_ne hne)

theorem retriesOf_mutate_ne (hne : m' ≠ m) : (h.mutate m f).retriesOf m' = h.retriesOf m' :=
  congrArg _ (getElem?_mutate_ne hne)

theorem getElem?_mutate_self : (h.mutate m f).outboxQueue[m]? = h.outboxQueue[m]?.map f := by
  simp [mutate]

theorem statusOf_publish (hm : m < h.outboxQueue.length) :
    (h.mutate m .publish).statusOf m = some .PUBLISHED := by
  unfold statusOf
  rw [getElem?_mutate_self, List.getElem?_eq_getElem hm]
  rfl

theorem retriesOf_mutate_self (hf : ∀ msg, (f msg).retryCount = msg.retryCount) :
    (h.mutate m f).retriesOf m = h.retriesOf m := by
  unfold retriesOf
  rw [getElem?_mutate_self, Option.map_map]
  exact congrArg (Option.map · _) (funext hf)

theorem retriesOf_mutate_ne_zero (hf : ∀ msg, (f msg).retryCount = msg.retryCount + 1) :
    (h.mutate m f).retriesOf m ≠ some 0 := by
  unfold retriesOf
  rw [getElem?_mutate_self, Option.map_map]
  intro h0
  obtain ⟨msg, -, hmsg⟩ := Option.map_eq_some_iff.mp h0
  rw [Function.comp_apply, hf] at hmsg
  omega

theorem lt_of_statusOf {status : OutboxStatus} (hm : h.statusOf m = some status) :
    m < h.outboxQueue.length := by
  obtain ⟨msg, hmsg, -⟩ := Option.map_eq_some_iff.mp hm
  exact (List.getElem?_eq_some_iff.mp hmsg).1

theorem nodup_snapshot (h : OutboxHandler P) (batchSize : ℤ) : (h.snapshot batchSize).Nodup :=
  (List.nodup_range.filter _).sublist (List.take_sublist _ _)

theorem statusOf_of_mem_snapshot {batchSize : ℤ} (hm : m ∈ h.snapshot batchSize) :
    h.statusOf m = some .PENDING :=
  of_decide_eq_true (List.mem_filter.mp (List.mem_of_mem_take hm)).2

theorem exists_statusOf (hm : m < h.outboxQueue.length) : ∃ status, h.statusOf m = some status := by
  unfold statusOf
  rw [List.getElem?_eq_getElem hm]
  exact ⟨_, rfl⟩

section QueueEvent

variable {topic : String} {event : IDomainEvent P} {messageId : String}

theorem getElem?_queueEvent (hm : m < h.outboxQueue.length) :
    (h.queueEvent topic event messageId).outboxQueue[m]? = h.outboxQueue[m]? :=
  List.getElem?_append_left hm

theorem statusOf_queueEvent (hm : m < h.outboxQueue.length) :
    (h.queueEvent topic event messageId).statusOf m = h.statusOf m :=
  congrArg _ (getElem?_queueEvent hm)

theorem retriesOf_queueEvent (hm : m < h.outboxQueue.length) :
    (h.queueEvent topic event messageId).retriesOf m = h.retriesOf m :=
  congrArg _ (getElem?_queueEvent hm)

theorem handlerCount_queueEvent (hm : m < h.outboxQueue.length) :
    (h.queueEvent topic event messageId).handlerCount m = h.handlerCount m := by
  unfold handlerCount
  rw [getElem?_queueEvent hm]
  rfl

theorem pending_of_queueEvent {status : OutboxStatus}
    (hs : (h.queueEvent topic event messageId).statusOf m = some status) :
    m < h.outboxQueue.length ∨ status = .PENDING := by
  by_cases hm : m < h.outboxQueue.length
  · exact Or.inl hm
  · unfold statusOf queueEvent at hs
    obtain ⟨msg, hmsg, rfl⟩ := Option.map_eq_some_iff.mp hs
    rw [List.getElem?_append_right (Nat.le_of_not_lt hm)] at hmsg
    have hmem := List.mem_singleton.mp (List.mem_of_getElem? hmsg)
    rw [hmem]
    exact Or.inr rfl

theorem length_queueEvent :
    (h.queueEvent topic event messageId).outboxQueue.length = h.outboxQueue.length + 1 :=
  List.length_append

end QueueEvent

@[simp] theorem length_mutate (h : OutboxHandler P) (m : ℕ)
    (f : IOutboxMessage P → IOutboxMessage P) :
    (h.mutate m f).outboxQueue.length = h.outboxQueue.length := List.length_modify _ _ _

end OutboxHandler

end Logix.Outbox
