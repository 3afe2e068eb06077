import Logix.Outbox.Model
import Logix.Spec.Once
import Mathlib.Data.List.Nodup

/-!
# The deliveries of flushes

`flushOutbox` goes through a snapshot of the PENDING messages and awaits the handlers, and
nothing marks the message that it is at.

* `KeepsFinal`, `DeliversOnce`: what an outbox promises, of two states and of one;
* `FlushFrame.Ok`: what a suspended flush relies on, for the message it is at and the ones left;
* `Orderly`: the invariant, on the handler object and the flushes in flight;
* `Orderly.queueEvent`, `Orderly.turnTo`, `Orderly.resume`: the segments keep it, when the message
  on which they start is PENDING and no other flush is at it.
-/

namespace Logix.Outbox

open Async OutboxHandler Spec

variable {P : Type}

/-- No message leaves PUBLISHED or DEAD_LETTER from `h` to `h'`. -/
def KeepsFinal (h h' : OutboxHandler P) : Prop :=
  ∀ m status, status ≠ .PENDING → h.statusOf m = some status → h'.statusOf m = some status

/-- **Delivered once**: a message that is PUBLISHED without a retry, and was not `old`, has gone
exactly once to each of its handlers. -/
def DeliversOnce (old : ℕ → Prop) (h : OutboxHandler P) : Prop :=
  ∀ m, ¬ old m → h.statusOf m = some .PUBLISHED → h.retriesOf m = some 0 →
    OnceUpTo h.deliveries m (h.handlerCount m)

theorem KeepsFinal.refl (h : OutboxHandler P) : KeepsFinal h h := fun _ _ _ hs => hs

theorem KeepsFinal.trans {h h' h'' : OutboxHandler P} (h₁ : KeepsFinal h h')
    (h₂ : KeepsFinal h' h'') : KeepsFinal h h'' :=
  fun m status hne hs => h₂ m status hne (h₁ m status hne hs)

theorem KeepsFinal.getDeadLetterMessages_subset {h h' : OutboxHandler P} (hk : KeepsFinal h h') :
    h.getDeadLetterMessages ⊆ h'.getDeadLetterMessages := by
  intro m hm
  have hs := hk m .DEAD_LETTER (by simp) (of_decide_eq_true (List.mem_filter.mp hm).2)
  exact List.mem_filter.mpr ⟨List.mem_range.mpr (lt_of_statusOf hs), decide_eq_true hs⟩

theorem keepsFinal_mutate {h : OutboxHandler P} {m : ℕ} {f : IOutboxMessage P → IOutboxMessage P}
    (hm : ∀ status, status ≠ .PENDING → h.statusOf m = some status →
      (h.mutate m f).statusOf m = some status) : KeepsFinal h (h.mutate m f) := by
  intro m' status hne hs
  by_cases he : m' = m
  · subst he
    exact hm status hne hs
  · rw [statusOf_mutate_ne he, hs]

theorem keepsFinal_mutate_of_pending {h : OutboxHandler P} {m : ℕ}
    (hm : h.statusOf m = some .PENDING) (f : IOutboxMessage P → IOutboxMessage P) :
    KeepsFinal h (h.mutate m f) := by
  refine keepsFinal_mutate fun status hne hs => absurd ?_ hne
  exact Option.some.inj (hs.symm.trans hm)

theorem keepsFinal_queueEvent (h : OutboxHandler P) (topic : String) (event : IDomainEvent P)
    (messageId : String) : KeepsFinal h (h.queueEvent topic event messageId) := by
  intro m status _ hs
  rw [statusOf_queueEvent (lt_of_statusOf hs), hs]

/-! ## The message on which a segment starts -/

/-- The message whose handlers are called first, when a flush turns to `l`. -/
def nextUp (h : OutboxHandler P) (l : List ℕ) : Option ℕ := l.find? fun m => h.handlerCount m ≠ 0

/-- The message on which a segment starts. -/
def OutboxCall.startsOn (h : OutboxHandler P) : OutboxCall P → HandlerResult → Option ℕ
  | .queueEvent _ _, _ => none
  | .flushOutbox batchSize, _ => nextUp h (h.snapshot batchSize)
  | .handlerAwaited f, .resolved =>
    if f.position + 1 < h.handlerCount f.message then none else nextUp h f.rest
  | .handlerAwaited f, .rejected _ => nextUp h f.rest
  | .handlerAwaited _, .rejectedUnreadable | .handlerAwaited _, .unsettled => none

/-! ## The invariant -/

section Invariant

variable {old : ℕ → Prop} {h : OutboxHandler P} {fs gs : List FlushFrame} {f g : FlushFrame}
  {l : List ℕ} {m : ℕ} {e : IOutboxMessage P → IOutboxMessage P}

/-- What a flush relies on for the messages it has left. Without handlers no delivery fails. -/
structure Queued (h : OutboxHandler P) (l : List ℕ) : Prop where
  nodup : l.Nodup
  lt : ∀ m ∈ l, m < h.outboxQueue.length
  alive : ∀ m ∈ l, h.handlerCount m = 0 → h.statusOf m ≠ some .DEAD_LETTER

/-- **What a suspended flush relies on.** -/
structure FlushFrame.Ok (h : OutboxHandler P) (f : FlushFrame) : Prop where
  pending : h.statusOf f.message = some .PENDING
  position : f.position < h.handlerCount f.message
  fresh : f.message ∉ f.rest
  queued : Queued h f.rest
  delivered : h.retriesOf f.message = some 0 → OnceUpTo h.deliveries f.message (f.position + 1)

/-- **The invariant of runs of exclusive steps**, with `fs` the flushes in flight. -/
structure Orderly (old : ℕ → Prop) (h : OutboxHandler P) (fs : List FlushFrame) : Prop where
  frame : ∀ f ∈ fs, f.Ok h
  distinct : (fs.map FlushFrame.message).Nodup
  untried : ∀ m ∉ fs.map FlushFrame.message, h.statusOf m = some .PENDING →
    h.retriesOf m = some 0 → OnceUpTo h.deliveries m 0
  once : DeliversOnce old h
  logged : ∀ d ∈ h.deliveries, d.1 < h.outboxQueue.length

theorem Orderly.perm (hI : Orderly old h fs) (hp : fs.Perm gs) : Orderly old h gs where
  frame f hf := hI.frame f (hp.mem_iff.mpr hf)
  distinct := (hp.map _).nodup_iff.mp hI.distinct
  untried m hm := hI.untried m fun hmem => hm ((hp.map _).mem_iff.mp hmem)
  once := hI.once
  logged := hI.logged

theorem Queued.tail (hl : Queued h (m :: l)) : Queued h l where
  nodup := hl.nodup.of_cons
  lt m' hm' := hl.lt m' (List.mem_cons_of_mem _ hm')
  alive m' hm' := hl.alive m' (List.mem_cons_of_mem _ hm')

theorem Queued.mutate (hl : Queued h l) (he : ∀ msg, (e msg).eventPayload = msg.eventPayload)
    (halive : h.handlerCount m = 0 → (h.mutate m e).statusOf m ≠ some .DEAD_LETTER) :
    Queued (h.mutate m e) l where
  nodup := hl.nodup
  lt m' hm' := by
    rw [length_mutate]
    exact hl.lt m' hm'
  alive m' hm' := by
    rw [handlerCount_mutate he]
    by_cases hne : m' = m
    · subst hne
      exact halive
    · rw [statusOf_mutate_ne hne]
      exact hl.alive m' hm'

theorem FlushFrame.Ok.mutate (hf : f.Ok h) (hne : f.message ≠ m)
    (he : ∀ msg, (e msg).eventPayload = msg.eventPayload)
    (halive : h.handlerCount m = 0 → (h.mutate m e).statusOf m ≠ some .DEAD_LETTER) :
    f.Ok (h.mutate m e) where
  pending := by rw [statusOf_mutate_ne hne, hf.pending]
  position := by rw [handlerCount_mutate he]; exact hf.position
  fresh := hf.fresh
  queued := hf.queued.mutate he halive
  delivered := by rw [retriesOf_mutate_ne hne]; exact hf.delivered

theorem FlushFrame.Ok.deliver (hf : f.Ok h) (hne : f.message ≠ m) (p : ℕ) :
    f.Ok (h.deliver m p) where
  pending := hf.pending
  position := hf.position
  fresh := hf.fresh
  queued := ⟨hf.queued.nodup, hf.queued.lt, hf.queued.alive⟩
  delivered hr := (onceUpTo_append_ne hne).mpr (hf.delivered hr)

/-- **A message is settled**: of the flushes `gs`, the ones left are not at `m`. -/
theorem Orderly.mutate (hI : Orderly old h gs) (hsub : fs.Sublist gs)
    (hgs : ∀ g ∈ gs, g ∈ fs ∨ g.message = m) (hm : m ∉ fs.map FlushFrame.message)
    (he : ∀ msg, (e msg).eventPayload = msg.eventPayload)
    (halive : h.handlerCount m = 0 → (h.mutate m e).statusOf m ≠ some .DEAD_LETTER)
    (hstatus : (h.mutate m e).statusOf m = some .PUBLISHED ∨ (h.mutate m e).retriesOf m ≠ some 0)
    (honce : (h.mutate m e).retriesOf m = some 0 → ¬ old m →
      OnceUpTo h.deliveries m (h.handlerCount m)) :
    Orderly old (h.mutate m e) fs where
  frame f hf := by
    refine (hI.frame f (hsub.subset hf)).mutate (fun hfm => hm ?_) he halive
    exact List.mem_map.mpr ⟨f, hf, hfm⟩
  distinct := hI.distinct.sublist (hsub.map _)
  untried m' hm' hp hr := by
    by_cases hne : m' = m
    · subst hne
      rcases hstatus with hs | hs
      · rw [hs] at hp
        cases hp
      · exact absurd hr hs
    · rw [statusOf_mutate_ne hne] at hp
      rw [retriesOf_mutate_ne hne] at hr
      refine hI.untried m' (fun hmem => ?_) hp hr
      obtain ⟨g, hg, rfl⟩ := List.mem_map.mp hmem
      rcases hgs g hg with hg | hg
      · exact hm' (List.mem_map_of_mem hg)
      · exact hne hg
  once m' hold hp hr := by
    rw [handlerCount_mutate he]
    by_cases hne : m' = m
    · subst hne
      exact honce hr hold
    · rw [statusOf_mutate_ne hne] at hp
      rw [retriesOf_mutate_ne hne] at hr
      exact hI.once m' hold hp hr
  logged d hd := by
    rw [length_mutate]
    exact hI.logged d hd

/-- **A handler is called**: of the flushes `gs`, only the one that runs is at its message. -/
theorem Orderly.deliver (hI : Orderly old h gs) (hsub : fs.Sublist gs)
    (hgs : ∀ g ∈ gs, g ∈ fs ∨ g.message = f.message) (hm : f.message ∉ fs.map FlushFrame.message)
    (hf : f.Ok (h.deliver f.message f.position)) :
    Orderly old (h.deliver f.message f.position) (fs ++ [f]) where
  frame g hg := by
    rcases List.mem_append.mp hg with hg | hg
    · refine (hI.frame g (hsub.subset hg)).deliver (fun hgf => hm ?_) _
      exact List.mem_map.mpr ⟨g, hg, hgf⟩
    · rw [List.mem_singleton.mp hg]
      exact hf
  distinct := by
    rw [List.map_append, List.map_singleton]
    exact (hI.distinct.sublist (hsub.map _)).append (List.nodup_singleton _)
      (List.disjoint_singleton.mpr hm)
  untried m hmem hp hr := by
    rw [List.map_append, List.mem_append, not_or] at hmem
    have hne : m ≠ f.message := fun hmf => hmem.2 (by simp [hmf])
    refine (onceUpTo_append_ne hne).mpr (hI.untried m (fun hbusy => ?_) hp hr)
    obtain ⟨g, hg, rfl⟩ := List.mem_map.mp hbusy
    rcases hgs g hg with hg | hg
    · exact hmem.1 (List.mem_map_of_mem hg)
    · exact hne hg
  once m hold hp hr := by
    have hne : m ≠ f.message := by
      rintro rfl
      rw [hf.pending] at hp
      cases hp
    exact (onceUpTo_append_ne hne).mpr (hI.once m hold hp hr)
  logged d hd := by
    rcases List.mem_append.mp hd with hd | hd
    · exact hI.logged d hd
    · rw [List.mem_singleton.mp hd]
      exact lt_of_statusOf hf.pending

theorem FlushFrame.Ok.queueEvent (hf : f.Ok h) (topic : String) (event : IDomainEvent P)
    (messageId : String) : f.Ok (h.queueEvent topic event messageId) where
  pending := by rw [statusOf_queueEvent (lt_of_statusOf hf.pending), hf.pending]
  position := by
    rw [handlerCount_queueEvent (lt_of_statusOf hf.pending)]
    exact hf.position
  fresh := hf.fresh
  queued := by
    refine ⟨hf.queued.nodup, fun m hm => ?_, fun m hm => ?_⟩
    · rw [length_queueEvent]
      exact (hf.queued.lt m hm).trans (Nat.lt_succ_self _)
    · rw [handlerCount_queueEvent (hf.queued.lt m hm), statusOf_queueEvent (hf.queued.lt m hm)]
      exact hf.queued.alive m hm
  delivered := by
    rw [retriesOf_queueEvent (lt_of_statusOf hf.pending)]
    exact hf.delivered

theorem Orderly.queueEvent (hI : Orderly old h fs) (topic : String) (event : IDomainEvent P)
    (messageId : String) : Orderly old (h.queueEvent topic event messageId) fs where
  frame f hf := (hI.frame f hf).queueEvent topic event messageId
  distinct := hI.distinct
  untried m hm hp hr := by
    by_cases hlt : m < h.outboxQueue.length
    · rw [statusOf_queueEvent hlt] at hp
      rw [retriesOf_queueEvent hlt] at hr
      exact hI.untried m hm hp hr
    · refine onceUpTo_zero fun d hd hdm => hlt ?_
      rw [← hdm]
      exact hI.logged d hd
  once m hold hp hr := by
    have hlt := (pending_of_queueEvent hp).resolve_right (by simp)
    rw [statusOf_queueEvent hlt] at hp
    rw [retriesOf_queueEvent hlt] at hr
    rw [handlerCount_queueEvent hlt]
    exact hI.once m hold hp hr
  logged d hd := by
    rw [length_queueEvent]
    exact (hI.logged d hd).trans (Nat.lt_succ_self _)

/-! ## Segments -/

/-- What a segment leaves, when the flushes `fs` stay in flight. -/
def Leads (old : ℕ → Prop) (h : OutboxHandler P) (fs : List FlushFrame)
    (s : Segment (OutboxHandler P) (OutboxCall P) (OutboxOutcome P)) : Prop :=
  KeepsFinal h s.heap ∧
    ∃ gs, s.waiting = gs.map .handlerAwaited ∧ Orderly old s.heap (fs ++ gs)

theorem Leads.of_keepsFinal {h' : OutboxHandler P}
    {s : Segment (OutboxHandler P) (OutboxCall P) (OutboxOutcome P)} (hs : Leads old h' fs s)
    (hk : KeepsFinal h h') : Leads old h fs s := ⟨hk.trans hs.1, hs.2⟩

theorem Orderly.leads (hI : Orderly old h fs) (outcomes : List (OutboxOutcome P)) :
    Leads old h fs { heap := h, settled := outcomes } := by
  refine ⟨.refl h, [], rfl, ?_⟩
  rw [List.append_nil]
  exact hI

theorem nextUp_mutate (he : ∀ msg, (e msg).eventPayload = msg.eventPayload) (l : List ℕ) :
    nextUp (h.mutate m e) l = nextUp h l := by
  unfold nextUp
  congr 1
  funext m'
  rw [handlerCount_mutate he]

/-- **A message without handlers is published**, whether or not it still is PENDING. -/
theorem Orderly.publish (hI : Orderly old h fs) (hl : Queued h (m :: l))
    (h0 : h.handlerCount m = 0) :
    Orderly old (h.mutate m .publish) fs ∧ Queued (h.mutate m .publish) l ∧
      KeepsFinal h (h.mutate m .publish) := by
  have hlt := hl.lt m List.mem_cons_self
  have hdead := hl.alive m List.mem_cons_self h0
  have hpub : (h.mutate m .publish).statusOf m = some .PUBLISHED := statusOf_publish hlt
  have halive : h.handlerCount m = 0 →
      (h.mutate m .publish).statusOf m ≠ some .DEAD_LETTER := fun _ => by simp [hpub]
  -- a flush is at messages with handlers only
  have hm : m ∉ fs.map FlushFrame.message := by
    intro hmem
    obtain ⟨f, hf, rfl⟩ := List.mem_map.mp hmem
    have := (hI.frame f hf).position
    omega
  refine ⟨?_, hl.tail.mutate IOutboxMessage.eventPayload_publish halive, keepsFinal_mutate ?_⟩
  · refine hI.mutate (List.Sublist.refl _) (fun g hg => Or.inl hg) hm
      IOutboxMessage.eventPayload_publish halive (Or.inl hpub) fun hr hold => ?_
    rw [retriesOf_mutate_self IOutboxMessage.retryCount_publish] at hr
    obtain ⟨status, hs⟩ := exists_statusOf hlt
    cases status with
    | PENDING =>
      rw [h0]
      exact hI.untried m hm hs hr
    | PUBLISHED => exact hI.once m hold hs hr
    | DEAD_LETTER => exact absurd hs hdead
  · intro status hne hs
    cases status with
    | PENDING => exact absurd rfl hne
    | PUBLISHED => exact hpub
    | DEAD_LETTER => exact absurd hs hdead

/-- **The loop over the messages**, when the message on which it starts is free. -/
theorem Orderly.turnTo {processedCount failureCount : ℕ} (hI : Orderly old h fs)
    (hl : Queued h l) (hnext : ∀ m ∈ nextUp h l, h.statusOf m = some .PENDING ∧
      m ∉ fs.map FlushFrame.message) :
    Leads old h fs (h.turnTo processedCount failureCount l) := by
  induction l generalizing h processedCount with
  | nil => exact hI.leads _
  | cons m l ih =>
    obtain ⟨hml, hnl⟩ := List.nodup_cons.mp hl.nodup
    unfold OutboxHandler.turnTo
    by_cases h0 : h.handlerCount m = 0
    · obtain ⟨hI', hl', hk⟩ := hI.publish hl h0
      rw [if_pos h0]
      refine (ih hI' hl' fun m' hm' => ?_).of_keepsFinal hk
      rw [nextUp_mutate IOutboxMessage.eventPayload_publish] at hm'
      have hne : m' ≠ m := by
        rintro rfl
        exact hml (List.mem_of_find?_eq_some hm')
      rw [statusOf_mutate_ne hne]
      refine hnext m' ?_
      unfold nextUp
      rw [List.find?_cons_of_neg (by simp [h0])]
      exact hm'
    · rw [if_neg h0]
      obtain ⟨hp, hm⟩ := hnext m (List.find?_cons_of_pos (by simp [h0]))
      refine ⟨.refl h, [⟨m, 0, l, processedCount, failureCount⟩], rfl, ?_⟩
      refine hI.deliver (f := ⟨m, 0, l, processedCount, failureCount⟩) (List.Sublist.refl _)
        (fun g hg => Or.inl hg) hm ?_
      exact
        { pending := hp
          position := Nat.pos_of_ne_zero h0
          fresh := hml
          queued := ⟨hnl, hl.tail.lt, hl.tail.alive⟩
          delivered := fun hr => (hI.untried m hm hp hr).next }

/-- The message that a flush is at gets published, or one more retry. -/
def Settles (h : OutboxHandler P) (f : FlushFrame) (e : IOutboxMessage P → IOutboxMessage P) :
    Prop :=
  e = .publish ∧ ¬ f.position + 1 < h.handlerCount f.message ∨
    ∀ msg, (e msg).retryCount = msg.retryCount + 1

theorem Orderly.settle (hI : Orderly old h (f :: fs))
    (he : ∀ msg, (e msg).eventPayload = msg.eventPayload) (hset : Settles h f e) :
    Orderly old (h.mutate f.message e) fs := by
  have hf := hI.frame f List.mem_cons_self
  have hpos := hf.position
  refine hI.mutate (List.sublist_cons_self f fs) (fun g hg => ?_)
    (List.nodup_cons.mp hI.distinct).1 he (fun h0 => ?_) ?_ fun hr _ => ?_
  · exact (List.mem_cons.mp hg).symm.imp_right fun hgf => by rw [hgf]
  · omega
  · refine hset.imp ?_ retriesOf_mutate_ne_zero
    rintro ⟨rfl, -⟩
    exact statusOf_publish (lt_of_statusOf hf.pending)
  · rcases hset with ⟨rfl, hlast⟩ | hretry
    · rw [retriesOf_mutate_self IOutboxMessage.retryCount_publish] at hr
      have hall : f.position + 1 = h.handlerCount f.message := by omega
      rw [← hall]
      exact hf.delivered hr
    · exact absurd hr (retriesOf_mutate_ne_zero hretry)

theorem Orderly.goOn {processedCount failureCount : ℕ} (hI : Orderly old h (f :: fs))
    (he : ∀ msg, (e msg).eventPayload = msg.eventPayload) (hset : Settles h f e)
    (hnext : ∀ m ∈ nextUp h f.rest, h.statusOf m = some .PENDING ∧
      m ∉ fs.map FlushFrame.message) :
    Leads old h fs ((h.mutate f.message e).turnTo processedCount failureCount f.rest) := by
  have hf := hI.frame f List.mem_cons_self
  have hpos := hf.position
  have hl : Queued (h.mutate f.message e) f.rest := hf.queued.mutate he fun h0 => by omega
  refine ((hI.settle he hset).turnTo hl fun m hm => ?_).of_keepsFinal
    (keepsFinal_mutate_of_pending hf.pending e)
  rw [nextUp_mutate he] at hm
  have hne : m ≠ f.message := by
    rintro rfl
    exact hf.fresh (List.mem_of_find?_eq_some hm)
  rw [statusOf_mutate_ne hne]
  exact hnext m hm

theorem queued_snapshot (h : OutboxHandler P) (batchSize : ℤ) :
    Queued h (h.snapshot batchSize) := by
  refine ⟨nodup_snapshot h batchSize, fun m hm => lt_of_statusOf (statusOf_of_mem_snapshot hm),
    fun m hm _ => ?_⟩
  simp [statusOf_of_mem_snapshot hm]

/-- **A suspended flush continues**, when the message on which it starts is free. -/
theorem Orderly.resume (hI : Orderly old h (f :: fs)) (i : OutboxInput)
    (hnext : ∀ m ∈ (OutboxCall.handlerAwaited f : OutboxCall P).startsOn h i.result,
      h.statusOf m = some .PENDING ∧ m ∉ fs.map FlushFrame.message) :
    Leads old h fs ((outboxProgram P).run (.handlerAwaited f) i h) := by
  obtain ⟨messageId, result⟩ := i
  have hf := hI.frame f List.mem_cons_self
  simp only [outboxProgram]
  cases result with
  | resolved =>
    simp only [OutboxCall.startsOn] at hnext ⊢
    by_cases hmore : f.position + 1 < h.handlerCount f.message
    · rw [if_pos hmore]
      refine ⟨.refl h, [{ f with position := f.position + 1 }], rfl, ?_⟩
      refine hI.deliver (f := { f with position := f.position + 1 })
        (List.sublist_cons_self f fs) (fun g hg => ?_) (List.nodup_cons.mp hI.distinct).1 ?_
      · exact (List.mem_cons.mp hg).symm.imp_right fun hgf => by rw [hgf]
      · exact
          { pending := hf.pending
            position := hmore
            fresh := hf.fresh
            queued := ⟨hf.queued.nodup, hf.queued.lt, hf.queued.alive⟩
            delivered := fun hr => (hf.delivered hr).next }
    · rw [if_neg hmore]
      rw [if_neg hmore] at hnext
      exact hI.goOn IOutboxMessage.eventPayload_publish (Or.inl ⟨rfl, hmore⟩) hnext
  | rejected message =>
    exact hI.goOn (IOutboxMessage.eventPayload_fail message)
      (Or.inr (IOutboxMessage.retryCount_fail message)) hnext
  | rejectedUnreadable =>
    refine Leads.of_keepsFinal (Orderly.leads (hI.settle IOutboxMessage.eventPayload_countRetry
      (Or.inr IOutboxMessage.retryCount_countRetry)) _)
      (keepsFinal_mutate_of_pending hf.pending _)
  | unsettled =>
    exact ⟨.refl h, [f], rfl, hI.perm (List.perm_append_singleton f fs).symm⟩

end Invariant

end Logix.Outbox
