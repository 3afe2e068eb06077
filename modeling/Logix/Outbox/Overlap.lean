import Logix.Outbox.Delivery

/-!
# Overlapping flushes

* `Exclusive`: a flush starts on a message that still is PENDING and that no other flush is at;
* **`reliable_of_exclusive`**: in runs of exclusive steps a status is final once it is not
  PENDING, and a message that gets PUBLISHED without a retry has gone to each of its handlers
  exactly once;
* `overlapping_flushes`: two flushes of one message.
-/

namespace Logix.Outbox

open Async OutboxHandler Spec

variable {P : Type}

/-! ## Runs -/

/-- The configurations of an outbox handler. -/
abbrev OutboxConfig (P : Type) : Type :=
  Config (OutboxHandler P) (OutboxCall P) (OutboxOutcome P)

/-- No call is in flight, on any content; the log starts here. -/
def startConfig (h : OutboxHandler P) : OutboxConfig P := ⟨{ h with deliveries := [] }, [], []⟩

/-- A run queues events, starts flushes, and continues any of them. -/
def Admitted (_ : OutboxConfig P) : Act (OutboxCall P) OutboxInput → Prop
  | .call (.handlerAwaited _) _ => False
  | .call _ _ => True
  | .resume _ _ => True

/-- The message that a suspended flush is at. -/
def OutboxCall.current : OutboxCall P → Option ℕ
  | .handlerAwaited f => some f.message
  | _ => none

/-- Message `m` is PENDING, and no flush is at it. -/
def Free (c : OutboxConfig P) (m : ℕ) : Prop :=
  c.heap.statusOf m = some .PENDING ∧ ∀ k ∈ c.inFlight, k.current ≠ some m

/-- **The message on which a step starts is free.** -/
def Exclusive (c : OutboxConfig P) : Act (OutboxCall P) OutboxInput → Prop
  | .call k i => ∀ m ∈ k.startsOn c.heap i.result, Free c m
  | .resume n i => ∀ k ∈ c.inFlight[n]?, ∀ m ∈ k.startsOn c.heap i.result, Free c m

instance : ∀ (c : OutboxConfig P) (a : Act (OutboxCall P) OutboxInput), Decidable (Admitted c a)
  | _, .call (.queueEvent _ _) _ | _, .call (.flushOutbox _) _ => .isTrue trivial
  | _, .call (.handlerAwaited _) _ => .isFalse id
  | _, .resume _ _ => .isTrue trivial

instance (c : OutboxConfig P) (m : ℕ) : Decidable (Free c m) :=
  inferInstanceAs (Decidable (_ ∧ _))

instance : ∀ (c : OutboxConfig P) (a : Act (OutboxCall P) OutboxInput), Decidable (Exclusive c a)
  | _, .call _ _ => inferInstanceAs (Decidable (∀ m ∈ _, _))
  | _, .resume _ _ => inferInstanceAs (Decidable (∀ k ∈ _, ∀ m ∈ _, _))

/-- An exclusive step of an admitted run. -/
def ExclusiveStep (c : OutboxConfig P) (a : Act (OutboxCall P) OutboxInput) : Prop :=
  Admitted c a ∧ Exclusive c a

instance (c : OutboxConfig P) (a : Act (OutboxCall P) OutboxInput) :
    Decidable (ExclusiveStep c a) := inferInstanceAs (Decidable (_ ∧ _))

/-! ## Exclusive runs -/

/-- The invariant of a configuration: the flushes in flight are orderly. -/
def InOrder (old : ℕ → Prop) (c : OutboxConfig P) : Prop :=
  ∃ fs, c.inFlight = fs.map .handlerAwaited ∧ Orderly old c.heap fs

theorem inOrder_start (h : OutboxHandler P) :
    InOrder (fun m => h.statusOf m = some .PUBLISHED) (startConfig h) := by
  refine ⟨[], rfl, ?_⟩
  exact
    { frame := fun f hf => absurd hf List.not_mem_nil
      distinct := List.nodup_nil
      untried := fun m _ _ _ => onceUpTo_zero fun d hd => absurd hd List.not_mem_nil
      once := fun m hold hp _ => absurd hp hold
      logged := fun d hd => absurd hd List.not_mem_nil }

theorem InOrder.of_leads {old : ℕ → Prop} {c : OutboxConfig P} {fs : List FlushFrame}
    {s : Segment (OutboxHandler P) (OutboxCall P) (OutboxOutcome P)}
    (hs : Leads old c.heap fs s) :
    InOrder old (c.after s (fs.map .handlerAwaited)) ∧ KeepsFinal c.heap s.heap := by
  obtain ⟨hk, gs, hgs, hI⟩ := hs
  refine ⟨⟨fs ++ gs, ?_, hI⟩, hk⟩
  rw [List.map_append, ← hgs]
  rfl

theorem InOrder.after {old : ℕ → Prop} {c : OutboxConfig P}
    {a : Act (OutboxCall P) OutboxInput} {k : OutboxCall P} {i : OutboxInput}
    {rest : List (OutboxCall P)} (hI : InOrder old c) (hok : ExclusiveStep c a)
    (hr : Runs c a k i rest) :
    InOrder old (c.after ((outboxProgram P).run k i c.heap) rest) ∧
      KeepsFinal c.heap ((outboxProgram P).run k i c.heap).heap := by
  obtain ⟨fs, hfs, hI⟩ := hI
  have hfree : ∀ m, Free c m → c.heap.statusOf m = some .PENDING ∧
      m ∉ fs.map FlushFrame.message := by
    rintro m ⟨hp, hm⟩
    refine ⟨hp, fun hmem => ?_⟩
    obtain ⟨f, hf, rfl⟩ := List.mem_map.mp hmem
    exact hm _ (hfs ▸ List.mem_map_of_mem hf) rfl
  cases hr with
  | call =>
    rw [hfs]
    cases k with
    | queueEvent topic event =>
      exact InOrder.of_leads (((hI.queueEvent topic event i.messageId).leads _).of_keepsFinal
        (keepsFinal_queueEvent c.heap topic event i.messageId))
    | flushOutbox batchSize =>
      exact InOrder.of_leads (hI.turnTo (queued_snapshot c.heap batchSize)
        fun m hm => hfree m (hok.2 m hm))
    | handlerAwaited f => exact False.elim hok.1
  | @resume n k i hn =>
    have hex := hok.2 k hn
    rw [hfs, List.getElem?_map] at hn
    obtain ⟨f, hf, rfl⟩ := Option.map_eq_some_iff.mp hn
    obtain ⟨hlt, rfl⟩ := List.getElem?_eq_some_iff.mp hf
    have hperm := List.getElem_cons_eraseIdx_perm hlt
    have hsub : ∀ m ∉ fs.map FlushFrame.message, m ∉ (fs.eraseIdx n).map FlushFrame.message :=
      fun m hm hmem => hm ((List.eraseIdx_sublist _ _).map _ |>.subset hmem)
    rw [hfs, List.eraseIdx_map]
    refine InOrder.of_leads ((hI.perm hperm.symm).resume i fun m hm => ?_)
    obtain ⟨hp, hbusy⟩ := hfree m (hex m hm)
    exact ⟨hp, hsub m hbusy⟩

theorem InOrder.reach {old : ℕ → Prop} {c c' : OutboxConfig P} (hI : InOrder old c)
    (hr : Reach (outboxProgram P) ExclusiveStep c c') :
    InOrder old c' ∧ KeepsFinal c.heap c'.heap := by
  refine hr.invariant (I := fun c' => InOrder old c' ∧ KeepsFinal c.heap c'.heap)
    ⟨hI, .refl _⟩ ?_
  rintro d a k i rest ⟨hd, hk⟩ hok hruns
  obtain ⟨hd', hk'⟩ := hd.after hok hruns
  exact ⟨hd', hk.trans hk'⟩

/-- **What an outbox promises** in all runs from content `h` whose steps satisfy `ok`: a status is
final once it is not PENDING, and delivery is exactly once. -/
def Reliable (ok : OutboxConfig P → Act (OutboxCall P) OutboxInput → Prop) (h : OutboxHandler P) :
    Prop :=
  ∀ c, Reach (outboxProgram P) ok (startConfig h) c →
    DeliversOnce (fun m => h.statusOf m = some .PUBLISHED) c.heap ∧
      ∀ c', Reach (outboxProgram P) ok c c' → KeepsFinal c.heap c'.heap

/-- **An outbox is reliable in exclusive runs**, whatever its content, its handlers and the order
of the steps: when each message on which a flush starts still is PENDING and no flush is at it,
the status of a message is final once it is PUBLISHED or DEAD_LETTER, and a message that gets
PUBLISHED without a retry goes exactly once to each subscriber of its event type. -/
theorem reliable_of_exclusive (h : OutboxHandler P) : Reliable ExclusiveStep h := by
  intro c hc
  obtain ⟨hI, -⟩ := (inOrder_start h).reach hc
  refine ⟨?_, fun c' hc' => (hI.reach hc').2⟩
  obtain ⟨fs, -, hI⟩ := hI
  exact hI.once

/-! ## Two flushes of one message -/

section OneMessage

/-- An order is placed. -/
def orderPlaced : IDomainEvent Unit where
  eventId := "E-1"
  eventType := "ORDER_PLACED"
  aggregateId := "O-1"
  tenantId := "T-1"
  schemaVersion := 1
  payload := ()
  correlationId := "R-1"
  causationId := none

/-- One subscriber, and one message for it. -/
def oneMessage : OutboxHandler Unit :=
  (OutboxHandler.new.subscribe "ORDER_PLACED" "billing").queueEvent "orders" orderPlaced "msg_1"

/-- The awaited handler succeeds. -/
def success : OutboxInput := ⟨"", .resolved⟩

/-- The awaited handler fails. -/
def failure : OutboxInput := ⟨"", .rejected (some "timeout")⟩

/-- A flush fails four times, then two flushes start. -/
def fourFailures : List (Act (OutboxCall Unit) OutboxInput) :=
  [.call (.flushOutbox 50) success, .resume 0 failure, .call (.flushOutbox 50) success,
    .resume 0 failure, .call (.flushOutbox 50) success, .resume 0 failure,
    .call (.flushOutbox 50) success, .resume 0 failure, .call (.flushOutbox 50) success,
    .call (.flushOutbox 50) success]

/-- **Two flushes deliver one message**: it is PUBLISHED without a retry and went to its
subscriber twice; and after four failures, the one flush moves it to DEAD_LETTER and the other
from there to PUBLISHED. -/
theorem overlapping_flushes :
    (∃ c, Reach (outboxProgram Unit) Admitted (startConfig oneMessage) c ∧ c.inFlight = [] ∧
      ¬ DeliversOnce (fun m => oneMessage.statusOf m = some .PUBLISHED) c.heap) ∧
    ∃ c c', Reach (outboxProgram Unit) Admitted (startConfig oneMessage) c ∧
      Reach (outboxProgram Unit) Admitted c c' ∧ ¬ KeepsFinal c.heap c'.heap := by
  constructor
  · have hrun : ((outboxProgram Unit).exec Admitted (startConfig oneMessage)
        [.call (.flushOutbox 50) success, .call (.flushOutbox 50) success, .resume 0 success,
          .resume 0 success]).any fun c => decide (c.inFlight = [] ∧
            c.heap.statusOf 0 = some .PUBLISHED ∧ c.heap.retriesOf 0 = some 0 ∧
            c.heap.handlerCount 0 = 1 ∧ c.heap.deliveries.count (0, 0) = 2) := by decide
    obtain ⟨c, hc, hq, hs, hr, hn, htwo⟩ := Reach.exists_of_exec hrun
    refine ⟨c, hc, hq, fun honce => ?_⟩
    have hone := honce 0 (by decide) hs hr 0
    rw [hn, htwo] at hone
    exact absurd hone (by decide)
  · have hrun : ((outboxProgram Unit).exec Admitted (startConfig oneMessage)
        (fourFailures ++ [.resume 0 failure])).any fun c =>
          decide (c.heap.statusOf 0 = some .DEAD_LETTER ∧
            ((outboxProgram Unit).exec Admitted c [.resume 0 success]).any fun c' =>
              decide (c'.heap.statusOf 0 = some .PUBLISHED)) := by decide
    obtain ⟨c, hc, hdead, hnext⟩ := Reach.exists_of_exec hrun
    obtain ⟨c', hc', hpub⟩ := Reach.exists_of_exec hnext
    refine ⟨c, c', hc, hc', fun hk => ?_⟩
    have := hk 0 .DEAD_LETTER (by decide) hdead
    rw [hpub] at this
    cases this

/-- Two flushes of one message, one after the other: it goes to its subscriber once. -/
theorem reliable_oneMessage :
    ∃ c, Reach (outboxProgram Unit) ExclusiveStep (startConfig oneMessage) c ∧ c.inFlight = [] ∧
      c.heap.statusOf 0 = some .PUBLISHED ∧
      DeliversOnce (fun m => oneMessage.statusOf m = some .PUBLISHED) c.heap ∧
      ∀ c', Reach (outboxProgram Unit) ExclusiveStep c c' → KeepsFinal c.heap c'.heap := by
  have hrun : ((outboxProgram Unit).exec ExclusiveStep (startConfig oneMessage)
      [.call (.flushOutbox 50) success, .resume 0 success, .call (.flushOutbox 50) success]).any
      fun c => decide (c.inFlight = [] ∧ c.heap.statusOf 0 = some .PUBLISHED) := by decide
  obtain ⟨c, hc, hq, hs⟩ := Reach.exists_of_exec hrun
  obtain ⟨honce, hkeeps⟩ := reliable_of_exclusive oneMessage c hc
  exact ⟨c, hc, hq, hs, honce, hkeeps⟩

end OneMessage

end Logix.Outbox
