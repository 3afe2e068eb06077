import Logix.Js.Map
import Logix.Js.Set
import Logix.Spec.Roster
import Mathlib.Data.List.Perm.Subperm

/-!
# The event bus

`publish` takes the handlers of the type of the event into an array and calls them one after
another; what a handler does before its first await is done in between, and it may throw there. It
waits for all of them. The error of a handler is caught and logged. `JSON.stringify` throws on an
entry with a `bigint` or a cycle in it, as a thrown value that is no `Error` may have: then
`publish` is rejected.

* `InMemoryEventBus`: the handlers, and the calls of `publish` so far;
* `busMachine`: its methods, and the steps of `publish`: the next handler is called, or the call of
  a handler has settled. Any of these may come between any others, so that handlers may subscribe,
  unsubscribe and publish while they run;
* `topicActs`: who subscribes to a type and who leaves it; `listenersOf_run`: the handlers of a type
  are the roster of these;
* **`publication_run`**: what a call of `publish` delivers, and when it is resolved or rejected.

The debug messages are left out.
-/

namespace Logix.Common

open Spec

variable {H : Type}

/-- `CloudEventEnvelope`: what the bus reads of it. -/
structure CloudEventEnvelope where
  id : String
  type : String
  deriving DecidableEq, Repr

/-- How the call of a handler ends: it returns; it fails and the error is logged; or `logger.error`
throws on the error. -/
inductive HandlerEnd where
  | returned
  | failed
  | unloggable
  deriving DecidableEq, Repr

/-- **A call of `publish`**: the array of listeners, how many of them `map` has called, and whose
calls have settled, and how. -/
structure Publication (H : Type) where
  event : CloudEventEnvelope
  listeners : List H
  called : ℕ := 0
  settled : List (H × HandlerEnd) := []
  deriving DecidableEq, Repr

/-- The handlers that have been called. -/
def Publication.calls (p : Publication H) : List H := p.listeners.take p.called

/-- The handlers whose calls have settled. -/
def Publication.ended (p : Publication H) : List H := p.settled.map Prod.fst

/-- The promise of a call of `publish`. -/
inductive PromiseState where
  | pending
  | resolved
  | rejected
  deriving DecidableEq, Repr

/-- **`Promise.all`**, which `map` comes before: rejected by the first that is, fulfilled when all
are. -/
def Publication.state (p : Publication H) : PromiseState :=
  if p.called < p.listeners.length then .pending
  else if ∃ e ∈ p.settled, e.2 = .unloggable then .rejected
  else if p.settled.length = p.listeners.length then .resolved
  else .pending

/-- May the call of a handler end like this? It does so when `map` has called all, or, if the handler
throws before its first await, before the next one is called. -/
def Publication.MayEnd (p : Publication H) (handler : H) (how : HandlerEnd) : Prop :=
  handler ∈ p.calls ∧ handler ∉ p.ended ∧
    (p.called = p.listeners.length ∨ how ≠ .returned ∧ p.calls.getLast? = some handler)

instance [DecidableEq H] (p : Publication H) (handler : H) (how : HandlerEnd) :
    Decidable (p.MayEnd handler how) := inferInstanceAs (Decidable (_ ∧ _))

/-- The call of a handler has ended. -/
def Publication.settle (p : Publication H) (handler : H) (how : HandlerEnd) : Publication H :=
  { p with settled := p.settled ++ [(handler, how)] }

/-- **`InMemoryEventBus`.** -/
structure InMemoryEventBus (H : Type) where
  handlers : JsMap String (JsSet H)
  publications : List (Publication H)

namespace InMemoryEventBus

/-- `new InMemoryEventBus()`. -/
def new : InMemoryEventBus H := ⟨.empty, []⟩

/-- `Array.from(this.handlers.get(type))`, or no listeners. -/
def listenersOf (bus : InMemoryEventBus H) (type : String) : List H :=
  (bus.handlers.get type).elim [] JsSet.elements

/-- **`subscribe(eventType, handler)`.** -/
def subscribe [DecidableEq H] (bus : InMemoryEventBus H) (eventType : String) (handler : H) :
    InMemoryEventBus H :=
  let handlers :=
    if bus.handlers.has eventType then bus.handlers else bus.handlers.set eventType .empty
  { bus with handlers := handlers.modify eventType fun s => s.add handler }

/-- **`unsubscribe(eventType, handler)`.** -/
def unsubscribe [DecidableEq H] (bus : InMemoryEventBus H) (eventType : String) (handler : H) :
    InMemoryEventBus H :=
  { bus with handlers := bus.handlers.modify eventType fun s => s.delete handler }

/-- **`publish(event)`**, up to the first call of a handler. -/
def publish (bus : InMemoryEventBus H) (event : CloudEventEnvelope) : InMemoryEventBus H :=
  { bus with
    publications := bus.publications ++ [{ event, listeners := bus.listenersOf event.type }] }

/-- `map` calls the next handler of the `n`-th call of `publish`. -/
def callNext (bus : InMemoryEventBus H) (n : ℕ) : InMemoryEventBus H × Option H :=
  match bus.publications[n]? with
  | none => (bus, none)
  | some p =>
    match p.listeners[p.called]? with
    | none => (bus, none)
    | some handler =>
      ({ bus with publications := bus.publications.set n { p with called := p.called + 1 } },
        some handler)

/-- The call of a handler by the `n`-th call of `publish` settles. -/
def settle [DecidableEq H] (bus : InMemoryEventBus H) (n : ℕ) (handler : H) (how : HandlerEnd) :
    InMemoryEventBus H × Option H :=
  match bus.publications[n]? with
  | none => (bus, none)
  | some p =>
    if p.MayEnd handler how then
      ({ bus with publications := bus.publications.set n (p.settle handler how) }, some handler)
    else (bus, none)

end InMemoryEventBus

open InMemoryEventBus

/-- The calls of the methods, and the steps of the calls of `publish`. -/
inductive BusCall (H : Type) where
  | subscribe (eventType : String) (handler : H)
  | unsubscribe (eventType : String) (handler : H)
  | publish (event : CloudEventEnvelope)
  | callNext (n : ℕ)
  | settle (n : ℕ) (handler : H) (how : HandlerEnd)
  deriving DecidableEq, Repr

/-- What such a step does to the outside. -/
inductive BusResult (H : Type) where
  | nothing
  | called (n : ℕ) (handler : H)
  /-- With `failed`, `Handler failed for event …` is logged. -/
  | settled (n : ℕ) (handler : H) (how : HandlerEnd)
  deriving DecidableEq, Repr

/-- **The bus as a machine.** -/
def busMachine (H : Type) [DecidableEq H] :
    Machine (InMemoryEventBus H) (BusCall H) (BusResult H) where
  call i bus :=
    match i with
    | .subscribe eventType handler => (bus.subscribe eventType handler, .nothing)
    | .unsubscribe eventType handler => (bus.unsubscribe eventType handler, .nothing)
    | .publish event => (bus.publish event, .nothing)
    | .callNext n => ((bus.callNext n).1, (bus.callNext n).2.elim .nothing (.called n))
    | .settle n handler how =>
      ((bus.settle n handler how).1,
        (bus.settle n handler how).2.elim .nothing fun h => .settled n h how)

/-! ## What a run did -/

/-- Who subscribes to a type, and who leaves it. -/
def BusCall.topicAct (type : String) : BusCall H → Option (RosterAct H)
  | .subscribe eventType handler => if eventType = type then some (.join handler) else none
  | .unsubscribe eventType handler => if eventType = type then some (.leave handler) else none
  | _ => none

/-- **The comings and goings** of the subscribers of a type. -/
def topicActs (type : String) (is : List (BusCall H)) : List (RosterAct H) :=
  is.filterMap (BusCall.topicAct type)

/-- Is this a call of `publish`? -/
def BusCall.isPublish : BusCall H → Bool
  | .publish _ => true
  | _ => false

/-- How many calls of `publish` there are. -/
def publishCount (is : List (BusCall H)) : ℕ := is.countP BusCall.isPublish

/-- The handler that the `n`-th call of `publish` calls here. -/
def BusResult.delivery (n : ℕ) : BusResult H → Option H
  | .called m handler => if m = n then some handler else none
  | _ => none

/-- The handler whose call by the `n`-th call of `publish` ends here, and how. -/
def BusResult.ending (n : ℕ) : BusResult H → Option (H × HandlerEnd)
  | .settled m handler how => if m = n then some (handler, how) else none
  | _ => none

/-- **The handlers that the `n`-th call of `publish` has called**, in order. -/
def deliveries (n : ℕ) (es : List (Event (InMemoryEventBus H) (BusCall H) (BusResult H))) :
    List H :=
  es.filterMap fun e => e.result.delivery n

/-- **The handlers whose calls have settled**, in order, and how. -/
def endings (n : ℕ) (es : List (Event (InMemoryEventBus H) (BusCall H) (BusResult H))) :
    List (H × HandlerEnd) :=
  es.filterMap fun e => e.result.ending n

theorem deliveries_concat (n : ℕ)
    (es : List (Event (InMemoryEventBus H) (BusCall H) (BusResult H)))
    (e : Event (InMemoryEventBus H) (BusCall H) (BusResult H)) :
    deliveries n (es ++ [e]) = deliveries n es ++ (e.result.delivery n).toList := by
  rw [deliveries, List.filterMap_append, deliveries]
  cases h : e.result.delivery n <;> simp [h]

theorem endings_concat (n : ℕ)
    (es : List (Event (InMemoryEventBus H) (BusCall H) (BusResult H)))
    (e : Event (InMemoryEventBus H) (BusCall H) (BusResult H)) :
    endings n (es ++ [e]) = endings n es ++ (e.result.ending n).toList := by
  rw [endings, List.filterMap_append, endings]
  cases h : e.result.ending n <;> simp [h]

/-! ## One call of `publish` -/

variable {is : List (BusCall H)} {type : String} {handler : H}

/-- What holds of every call of `publish`: no listener is twice in the array, `map` is within it,
what has settled was called, and settled once; and nothing returns before all are called. -/
structure Publication.Sound (p : Publication H) : Prop where
  nodup : p.listeners.Nodup
  called_le : p.called ≤ p.listeners.length
  ended_nodup : p.ended.Nodup
  ended_subset : p.ended ⊆ p.calls
  allCalled : ∀ e ∈ p.settled, e.2 = .returned → p.called = p.listeners.length

theorem Publication.ended_settle (p : Publication H) (handler : H) (how : HandlerEnd) :
    (p.settle handler how).ended = p.ended ++ [handler] := List.map_append

theorem Publication.calls_eq_iff {p : Publication H} (h : p.called ≤ p.listeners.length) :
    p.calls = p.listeners ↔ p.called = p.listeners.length :=
  List.take_eq_self_iff _ |>.trans ⟨fun hle => le_antisymm h hle, Eq.ge⟩

/-- **All have ended** when there are as many ends as listeners. -/
theorem Publication.Sound.length_eq_iff {p : Publication H} (h : p.Sound) :
    p.settled.length = p.listeners.length ↔ p.ended.Perm p.listeners := by
  have hsubset : p.ended ⊆ p.listeners := List.Subset.trans h.ended_subset (List.take_subset _ _)
  have hlength : p.ended.length = p.settled.length := List.length_map _
  rw [← hlength]
  exact ⟨fun hall => (List.subperm_of_subset h.ended_nodup hsubset).perm_of_length_le hall.ge,
    List.Perm.length_eq⟩

theorem Publication.Sound.called_of_perm {p : Publication H} (h : p.Sound)
    (hperm : p.ended.Perm p.listeners) : p.called = p.listeners.length := by
  refine le_antisymm h.called_le ?_
  rw [← hperm.length_eq]
  exact (List.subperm_of_subset h.ended_nodup h.ended_subset).length_le.trans
    (List.length_take_le _ _)

/-- **`publish` is resolved** when the call of every listener has settled, if the logger threw on
none of their errors. -/
theorem Publication.Sound.resolved_iff {p : Publication H} (h : p.Sound) :
    p.state = .resolved ↔ p.ended.Perm p.listeners ∧ ∀ e ∈ p.settled, e.2 ≠ .unloggable := by
  rw [Publication.state, ← h.length_eq_iff]
  split_ifs with hcalled hrejected hlength
  · refine iff_of_false (by decide) fun hr => ?_
    exact hcalled.ne (h.called_of_perm (h.length_eq_iff.mp hr.1))
  · refine iff_of_false (by decide) fun hr => ?_
    obtain ⟨e, he, hthrown⟩ := hrejected
    exact hr.2 e he hthrown
  · exact iff_of_true rfl ⟨hlength, fun e he hthrown => hrejected ⟨e, he, hthrown⟩⟩
  · exact iff_of_false (by decide) fun hr => hlength hr.1

/-- **`publish` is rejected** when the logger has thrown and all are called. -/
theorem Publication.Sound.rejected_iff {p : Publication H} (h : p.Sound) :
    p.state = .rejected ↔ p.calls = p.listeners ∧ ∃ e ∈ p.settled, e.2 = .unloggable := by
  rw [Publication.state, Publication.calls_eq_iff h.called_le]
  split_ifs with hcalled hrejected hlength
  · exact iff_of_false (by decide) fun hr => hcalled.ne hr.1
  · exact iff_of_true rfl ⟨le_antisymm h.called_le (not_lt.mp hcalled), hrejected⟩
  · exact iff_of_false (by decide) fun hr => hrejected hr.2
  · exact iff_of_false (by decide) fun hr => hrejected hr.2

/-- What a step does to a call of `publish`: it keeps its event and its listeners. -/
structure Publication.Follows (p : Publication H) (r : BusResult H) (n : ℕ)
    (p' : Publication H) : Prop where
  event : p'.event = p.event
  listeners : p'.listeners = p.listeners
  calls : p'.calls = p.calls ++ (r.delivery n).toList
  settled : p'.settled = p.settled ++ (r.ending n).toList
  sound : p.Sound → p'.Sound

theorem Publication.follows_self (p : Publication H) {r : BusResult H} {n : ℕ}
    (hcall : r.delivery n = none) (hend : r.ending n = none) : p.Follows r n p :=
  ⟨rfl, rfl, by simp [hcall], by simp [hend], id⟩

theorem Publication.follows_called {p : Publication H} (n : ℕ)
    (h : p.listeners[p.called]? = some handler) :
    p.Follows (.called n handler) n { p with called := p.called + 1 } := by
  have hlt := (List.getElem?_eq_some_iff.mp h).1
  have hcalls : p.listeners.take (p.called + 1) = p.calls ++ [handler] := by
    rw [List.take_add_one, h]
    rfl
  refine ⟨rfl, rfl, ?_, by simp [BusResult.ending], fun hp => ?_⟩
  · exact hcalls.trans (by simp [BusResult.delivery])
  · refine ⟨hp.nodup, hlt, hp.ended_nodup, ?_, fun e he hreturned => ?_⟩
    · have hsubset : p.calls ⊆ p.listeners.take (p.called + 1) :=
        hcalls ▸ List.subset_append_left _ _
      exact List.Subset.trans hp.ended_subset hsubset
    · exact absurd (hp.allCalled e he hreturned) hlt.ne

theorem Publication.follows_settled {p : Publication H} (n : ℕ) {how : HandlerEnd}
    (h : p.MayEnd handler how) :
    p.Follows (.settled n handler how) n (p.settle handler how) := by
  obtain ⟨hmem, hnew, hwhen⟩ := h
  refine ⟨rfl, rfl, ?_, ?_, fun hp => ⟨hp.nodup, hp.called_le, ?_, ?_, fun e he hreturned => ?_⟩⟩
  · simp [BusResult.delivery, Publication.calls, Publication.settle]
  · simp [BusResult.ending, Publication.settle]
  · rw [Publication.ended_settle]
    exact hp.ended_nodup.append (List.nodup_singleton _) (List.disjoint_singleton.mpr hnew)
  · rw [Publication.ended_settle]
    exact List.append_subset.mpr ⟨hp.ended_subset, List.cons_subset.mpr ⟨hmem, List.nil_subset _⟩⟩
  · rcases List.mem_append.mp he with he | he
    · exact hp.allCalled e he hreturned
    · obtain rfl := List.mem_singleton.mp he
      exact hwhen.resolve_right fun hthrown => hthrown.1 hreturned

/-! ## Subscribers -/

theorem topicActs_concat (type : String) (is : List (BusCall H)) (i : BusCall H) :
    topicActs type (is ++ [i]) = topicActs type is ++ (i.topicAct type).toList := by
  rw [topicActs, List.filterMap_append]
  cases h : i.topicAct type with
  | none => simp [topicActs, h]
  | some x => simp [topicActs, h]

theorem topicAct_eq_some_iff (type : String) (handler : H) (i : BusCall H) :
    (i.topicAct type = some (.join handler) ↔ i = .subscribe type handler) ∧
      (i.topicAct type = some (.leave handler) ↔ i = .unsubscribe type handler) := by
  cases i with
  | subscribe eventType handler' => simp [BusCall.topicAct]
  | unsubscribe eventType handler' => simp [BusCall.topicAct]
  | _ => simp [BusCall.topicAct]

theorem callNext_cases (bus : InMemoryEventBus H) (n : ℕ) : bus.callNext n = (bus, none) ∨
    ∃ p handler, bus.publications[n]? = some p ∧ p.listeners[p.called]? = some handler ∧
      bus.callNext n = ({ bus with
        publications := bus.publications.set n { p with called := p.called + 1 } },
          some handler) := by
  rw [callNext]
  cases bus.publications[n]? with
  | none => exact Or.inl rfl
  | some p =>
    cases hp : p.listeners[p.called]? with
    | none => simp [hp]
    | some handler => exact Or.inr ⟨p, handler, rfl, hp, by simp [hp]⟩

theorem handlers_callNext (bus : InMemoryEventBus H) (n : ℕ) :
    (bus.callNext n).1.handlers = bus.handlers := by
  rcases callNext_cases bus n with h | ⟨p, handler, -, -, h⟩ <;> rw [h]

variable [DecidableEq H]

theorem listenersOf_subscribe (bus : InMemoryEventBus H) (eventType : String) (handler : H) :
    (bus.subscribe eventType handler).listenersOf type =
      if eventType = type then (RosterAct.join handler).next (bus.listenersOf type)
      else bus.listenersOf type := by
  rw [listenersOf, subscribe, JsMap.get_modify]
  by_cases htype : type = eventType
  · subst htype
    rw [if_pos rfl, if_pos rfl, listenersOf, RosterAct.next]
    by_cases hhas : bus.handlers.has type = true
    · rw [if_pos hhas]
      obtain ⟨v, hv⟩ := JsMap.mem_keys.mp (of_decide_eq_true hhas)
      rw [JsMap.get_eq_some_iff.mpr hv]
      exact JsSet.elements_add v handler
    · have hnone : bus.handlers.get type = none :=
        JsMap.get_eq_none_iff.mpr fun hmem => hhas (decide_eq_true hmem)
      rw [if_neg hhas, JsMap.get_set_self, hnone]
      rfl
  · rw [if_neg htype, if_neg (Ne.symm htype), listenersOf]
    split_ifs
    · rfl
    · rw [JsMap.get_set_ne htype]

theorem listenersOf_unsubscribe (bus : InMemoryEventBus H) (eventType : String) (handler : H) :
    (bus.unsubscribe eventType handler).listenersOf type =
      if eventType = type then (RosterAct.leave handler).next (bus.listenersOf type)
      else bus.listenersOf type := by
  rw [listenersOf, unsubscribe, JsMap.get_modify]
  by_cases htype : type = eventType
  · subst htype
    rw [if_pos rfl, if_pos rfl, listenersOf]
    cases bus.handlers.get type with
    | none => rfl
    | some v => rfl
  · rw [if_neg htype, if_neg (Ne.symm htype), listenersOf]

theorem settle_cases (bus : InMemoryEventBus H) (n : ℕ) (handler : H) (how : HandlerEnd) :
    bus.settle n handler how = (bus, none) ∨
      ∃ p, bus.publications[n]? = some p ∧
        p.MayEnd handler how ∧ bus.settle n handler how = ({ bus with
          publications := bus.publications.set n (p.settle handler how) }, some handler) := by
  rw [settle]
  cases bus.publications[n]? with
  | none => exact Or.inl rfl
  | some p =>
    by_cases hp : p.MayEnd handler how
    · exact Or.inr ⟨p, rfl, hp, if_pos hp⟩
    · exact Or.inl (if_neg hp)

theorem handlers_settle (bus : InMemoryEventBus H) (n : ℕ) (handler : H) (how : HandlerEnd) :
    (bus.settle n handler how).1.handlers = bus.handlers := by
  rcases settle_cases bus n handler how with h | ⟨p, -, -, h⟩ <;> rw [h]

theorem listenersOf_next (bus : InMemoryEventBus H) (i : BusCall H) (type : String) :
    ((busMachine H).next bus i).listenersOf type =
      (i.topicAct type).elim (bus.listenersOf type) (RosterAct.next (bus.listenersOf type)) := by
  cases i with
  | subscribe eventType handler =>
    refine (listenersOf_subscribe bus eventType handler).trans ?_
    rw [BusCall.topicAct]
    split_ifs <;> rfl
  | unsubscribe eventType handler =>
    refine (listenersOf_unsubscribe bus eventType handler).trans ?_
    rw [BusCall.topicAct]
    split_ifs <;> rfl
  | publish event => rfl
  | callNext n => exact congrArg (fun m => (JsMap.get m type).elim [] _) (handlers_callNext bus n)
  | settle n handler how =>
    exact congrArg (fun m => (JsMap.get m type).elim [] _) (handlers_settle bus n handler how)

/-- **The handlers of a type are its roster.** -/
theorem listenersOf_run (type : String) (is : List (BusCall H)) :
    ((busMachine H).run .new is).listenersOf type = roster (topicActs type is) := by
  induction is using List.reverseRecOn with
  | nil => rfl
  | append_singleton is i ih =>
    rw [Machine.run_concat, listenersOf_next, ih, topicActs_concat]
    cases i.topicAct type with
    | none => exact congrArg roster (List.append_nil _).symm
    | some x => exact (roster_concat _ x).symm

/-- **The handlers of a type** are those that last subscribed to it, and not left. -/
theorem mem_roster_topicActs : handler ∈ roster (topicActs type is) ↔
    Since is (.subscribe type handler) fun i => i = .unsubscribe type handler := by
  rw [mem_roster_iff]
  induction is using List.reverseRecOn with
  | nil => exact iff_of_false not_since_nil not_since_nil
  | append_singleton is i ih =>
    obtain ⟨hjoin, hleave⟩ := topicAct_eq_some_iff type handler i
    rw [since_concat_iff, ← ih, ← hleave, eq_comm, ← hjoin, topicActs_concat]
    cases i.topicAct type with
    | none => simp
    | some x =>
      rw [Option.toList_some, since_concat_iff, Option.some.injEq, Option.some.injEq,
        eq_comm (b := x)]

/-! ## Deliveries -/

variable {bus : InMemoryEventBus H} {n : ℕ} {p : Publication H}

theorem publication_next (hp : bus.publications[n]? = some p) (i : BusCall H) :
    ∃ p', ((busMachine H).next bus i).publications[n]? = some p' ∧
      p.Follows ((busMachine H).call i bus).2 n p' := by
  cases i with
  | subscribe eventType handler => exact ⟨p, hp, p.follows_self rfl rfl⟩
  | unsubscribe eventType handler => exact ⟨p, hp, p.follows_self rfl rfl⟩
  | publish event =>
    refine ⟨p, ?_, p.follows_self rfl rfl⟩
    exact (List.getElem?_append_left (List.getElem?_eq_some_iff.mp hp).1).trans hp
  | callNext m =>
    simp only [Machine.next, busMachine]
    rcases callNext_cases bus m with h | ⟨q, handler, hm, hq, h⟩
    · rw [h]
      exact ⟨p, hp, p.follows_self rfl rfl⟩
    · rw [h]
      by_cases hmn : m = n
      · subst hmn
        obtain rfl := Option.some.inj (hp.symm.trans hm)
        refine ⟨_, ?_, Publication.follows_called m hq⟩
        exact List.getElem?_set_self (List.getElem?_eq_some_iff.mp hp).1
      · exact ⟨p, (List.getElem?_set_ne hmn).trans hp, p.follows_self (if_neg hmn) rfl⟩
  | settle m handler how =>
    simp only [Machine.next, busMachine]
    rcases settle_cases bus m handler how with h | ⟨q, hm, hq, h⟩
    · rw [h]
      exact ⟨p, hp, p.follows_self rfl rfl⟩
    · rw [h]
      by_cases hmn : m = n
      · subst hmn
        obtain rfl := Option.some.inj (hp.symm.trans hm)
        refine ⟨_, ?_, Publication.follows_settled m hq⟩
        exact List.getElem?_set_self (List.getElem?_eq_some_iff.mp hp).1
      · exact ⟨p, (List.getElem?_set_ne hmn).trans hp, p.follows_self rfl (if_neg hmn)⟩

theorem delivery_of_length_le (h : bus.publications.length ≤ n) (i : BusCall H) :
    ((busMachine H).call i bus).2.delivery n = none ∧
      ((busMachine H).call i bus).2.ending n = none := by
  have hne : ∀ {m : ℕ} {q : Publication H}, bus.publications[m]? = some q → m ≠ n := fun hm => by
    have hlt := (List.getElem?_eq_some_iff.mp hm).1
    omega
  cases i with
  | callNext m =>
    simp only [busMachine]
    rcases callNext_cases bus m with h | ⟨q, handler, hm, -, h⟩
    · rw [h]
      exact ⟨rfl, rfl⟩
    · rw [h]
      exact ⟨if_neg (hne hm), rfl⟩
  | settle m handler how =>
    simp only [busMachine]
    rcases settle_cases bus m handler how with h | ⟨q, hm, -, h⟩
    · rw [h]
      exact ⟨rfl, rfl⟩
    · rw [h]
      exact ⟨rfl, if_neg (hne hm)⟩
  | _ => exact ⟨rfl, rfl⟩

theorem length_publications_next (bus : InMemoryEventBus H) (i : BusCall H) :
    ((busMachine H).next bus i).publications.length =
      bus.publications.length + if i.isPublish then 1 else 0 := by
  cases i with
  | publish event => exact List.length_append
  | callNext m =>
    simp only [Machine.next, busMachine]
    rcases callNext_cases bus m with h | ⟨q, handler, -, -, h⟩
    · rw [h]
      rfl
    · rw [h]
      exact List.length_set
  | settle m handler how =>
    simp only [Machine.next, busMachine]
    rcases settle_cases bus m handler how with h | ⟨q, -, -, h⟩
    · rw [h]
      rfl
    · rw [h]
      exact List.length_set
  | _ => rfl

theorem length_publications_run (is : List (BusCall H)) :
    ((busMachine H).run .new is).publications.length = publishCount is := by
  induction is using List.reverseRecOn with
  | nil => rfl
  | append_singleton is i ih =>
    rw [Machine.run_concat, length_publications_next, ih, publishCount, publishCount,
      List.countP_append, List.countP_singleton]

theorem deliveries_of_publishCount_le (is : List (BusCall H)) (h : publishCount is ≤ n) :
    deliveries n ((busMachine H).history .new is) = [] ∧
      endings n ((busMachine H).history .new is) = [] := by
  induction is using List.reverseRecOn with
  | nil => exact ⟨rfl, rfl⟩
  | append_singleton is i ih =>
    rw [publishCount, List.countP_append] at h
    have hcount : publishCount is ≤ n := (Nat.le_add_right _ _).trans h
    obtain ⟨hd, he⟩ := ih hcount
    obtain ⟨hd', he'⟩ := delivery_of_length_le ((length_publications_run is).le.trans hcount) i
    rw [Machine.history_concat, deliveries_concat, endings_concat, hd, he]
    exact ⟨congrArg Option.toList hd', congrArg Option.toList he'⟩

/-- **What a call of `publish` has done** in a run. -/
theorem publication_run (js : List (BusCall H)) (event : CloudEventEnvelope)
    (ks : List (BusCall H)) :
    ∃ p, ((busMachine H).run .new (js ++ .publish event :: ks)).publications[publishCount js]? =
        some p ∧ p.event = event ∧ p.listeners = roster (topicActs event.type js) ∧ p.Sound ∧
      deliveries (publishCount js) ((busMachine H).history .new (js ++ .publish event :: ks)) =
        p.calls ∧
      endings (publishCount js) ((busMachine H).history .new (js ++ .publish event :: ks)) =
        p.settled := by
  induction ks using List.reverseRecOn with
  | nil =>
    have hlength := length_publications_run js
    obtain ⟨hd, he⟩ := deliveries_of_publishCount_le js le_rfl
    have hlisteners := listenersOf_run event.type js
    refine ⟨{ event, listeners := ((busMachine H).run .new js).listenersOf event.type }, ?_, rfl,
      hlisteners, ⟨hlisteners ▸ nodup_roster _, Nat.zero_le _, List.nodup_nil,
        List.nil_subset _, fun e he => absurd he List.not_mem_nil⟩, ?_, ?_⟩
    · rw [Machine.run_concat, ← hlength]
      exact List.getElem?_concat_length
    · rw [Machine.history_concat, deliveries_concat, hd]
      rfl
    · rw [Machine.history_concat, endings_concat, he]
      rfl
  | append_singleton ks i ih =>
    obtain ⟨p, hp, hevent, hlisteners, hsound, hd, he⟩ := ih
    obtain ⟨p', hp', hfollows⟩ := publication_next hp i
    rw [← List.cons_append, ← List.append_assoc, Machine.run_concat, Machine.history_concat,
      deliveries_concat, endings_concat, hd, he]
    exact ⟨p', hp', hfollows.event.trans hevent, hfollows.listeners.trans hlisteners,
      hfollows.sound hsound, hfollows.calls.symm, hfollows.settled.symm⟩

/-- **A call of `publish` delivers**: the subscribers are called one after another, none of them
twice, and no call returns before all are made. `publish` is rejected when all are called and the
logger has thrown on the error of one of them, and resolved when the calls of all have ended without
that. -/
structure Delivers (subscribers called : List H) (ended : List (H × HandlerEnd))
    (p : Publication H) : Prop where
  nodup : subscribers.Nodup
  inOrder : called <+: subscribers
  ended_nodup : (ended.map Prod.fst).Nodup
  ended_subset : ended.map Prod.fst ⊆ called
  allCalled : ∀ e ∈ ended, e.2 = .returned → called = subscribers
  resolved_iff : p.state = .resolved ↔
    (ended.map Prod.fst).Perm subscribers ∧ ∀ e ∈ ended, e.2 ≠ .unloggable
  rejected_iff : p.state = .rejected ↔ called = subscribers ∧ ∃ e ∈ ended, e.2 = .unloggable

/-- **Every event is delivered once** to those who were subscribed when it was published, in the
order of their subscriptions, whoever subscribes, leaves or fails meanwhile. -/
theorem delivers_once (js : List (BusCall H)) (event : CloudEventEnvelope)
    (ks : List (BusCall H)) :
    (∃ p, ((busMachine H).run .new (js ++ .publish event :: ks)).publications[publishCount js]? =
        some p ∧ p.event = event ∧
      Delivers (roster (topicActs event.type js))
        (deliveries (publishCount js) ((busMachine H).history .new (js ++ .publish event :: ks)))
        (endings (publishCount js) ((busMachine H).history .new (js ++ .publish event :: ks)))
        p) ∧
    (∀ handler, handler ∈ roster (topicActs event.type js) ↔
      Since js (.subscribe event.type handler) fun i => i = .unsubscribe event.type handler) ∧
    (roster (topicActs event.type js)).Pairwise (JoinedAfter (topicActs event.type js)) := by
  refine ⟨?_, fun handler => mem_roster_topicActs, pairwise_roster _⟩
  obtain ⟨p, hp, hevent, hlisteners, hsound, hd, he⟩ := publication_run js event ks
  refine ⟨p, hp, hevent, ?_⟩
  rw [hd, he, ← hlisteners]
  exact {
    nodup := hsound.nodup
    inOrder := List.take_prefix _ _
    ended_nodup := hsound.ended_nodup
    ended_subset := hsound.ended_subset
    allCalled := fun e hmem hreturned =>
      (Publication.calls_eq_iff hsound.called_le).mpr (hsound.allCalled e hmem hreturned)
    resolved_iff := hsound.resolved_iff
    rejected_iff := hsound.rejected_iff }

/-- Who leaves during a delivery is still called. -/
example : deliveries 0 ((busMachine ℕ).history .new [.subscribe "order" 1, .subscribe "order" 2,
    .publish ⟨"id", "order"⟩, .callNext 0, .unsubscribe "order" 2, .callNext 0]) = [1, 2] := by
  decide

/-- An error that cannot be logged rejects `publish` while the other handler still runs. -/
example : (((busMachine ℕ).run .new [.subscribe "order" 1, .subscribe "order" 2,
    .publish ⟨"id", "order"⟩, .callNext 0, .callNext 0, .settle 0 2 .unloggable]).publications.map
      fun p => (p.state, p.ended)) = [(.rejected, [2])] := by
  decide

/-- A handler that throws before its first await has ended before the next one is called. -/
example : ((busMachine ℕ).run .new [.subscribe "order" 1, .subscribe "order" 2,
    .publish ⟨"id", "order"⟩, .callNext 0, .settle 0 1 .failed]).publications.map
      (fun p => (p.calls, p.ended)) = [([1], [1])] := by
  decide

end Logix.Common
