import Logix.Js.LiveMap
import Logix.Spec.Machine

/-!
# Partitions under way

`CoreEnterpriseModule` hands the contexts of a partition to a handler, in a loop over the store that
the handler may change: it may register and release contexts, and assign to those in the store, ids
and partition keys included.

* `registerContext`, `releaseContext`, `processPartition`: the code, over any handler that returns;
* `recordPartition`: the same loop, with a record of the contexts given and of the handler's calls;
* `Enters`, `Leaves`: a call brings a stored context into a partition, or takes one out of it;
* **`processPartition_live`**: which contexts the handler is given.

`attributes` stands for the fields that no method reads.
-/

namespace Logix.Common

open Spec

/-- `IEnterpriseContext`. -/
structure IEnterpriseContext (A : Type) where
  contextId : String
  tenantId : String
  partitionKey : String
  sequenceNumber : ℤ
  attributes : A

/-- **`CoreEnterpriseModule`.** -/
structure CoreEnterpriseModule (A : Type) where
  contextStore : MapData String (IEnterpriseContext A)
  isInitialized : Bool

variable {A τ : Type}

namespace CoreEnterpriseModule

/-- `new CoreEnterpriseModule()`. -/
def new : CoreEnterpriseModule A := ⟨.empty, false⟩

/-- `initialize()`. -/
def init (m : CoreEnterpriseModule A) : CoreEnterpriseModule A := { m with isInitialized := true }

/-- **`registerContext(ctx)`.** -/
def registerContext (m : CoreEnterpriseModule A) (ctx : IEnterpriseContext A) :
    CoreEnterpriseModule A × Bool :=
  let m := if m.isInitialized then m else m.init
  if m.contextStore.entries.has ctx.contextId then (m, false)
  else ({ m with contextStore := m.contextStore.set ctx.contextId ctx }, true)

/-- **`releaseContext(contextId)`.** -/
def releaseContext (m : CoreEnterpriseModule A) (contextId : String) :
    CoreEnterpriseModule A × Bool :=
  ({ m with contextStore := m.contextStore.delete contextId },
    m.contextStore.entries.has contextId)

/-- An assignment to the fields of the context that is stored under an id. -/
def assign (m : CoreEnterpriseModule A) (contextId : String)
    (f : IEnterpriseContext A → IEnterpriseContext A) : CoreEnterpriseModule A :=
  { m with contextStore := m.contextStore.assign contextId f }

/-- `verifyInvariants(contextId)`. -/
def verifyInvariants (m : CoreEnterpriseModule A) (contextId : String) : Bool :=
  match m.contextStore.entries.get contextId with
  | none => false
  | some ctx => decide (0 ≤ ctx.sequenceNumber ∧ ctx.tenantId ≠ "")

/-- `getContextCount()`. -/
def getContextCount (m : CoreEnterpriseModule A) : ℕ := m.contextStore.entries.size

end CoreEnterpriseModule

/-- What a handler does to the module. -/
inductive CoreCall (A : Type) where
  | init
  | registerContext (ctx : IEnterpriseContext A)
  | releaseContext (contextId : String)
  | assign (contextId : String) (f : IEnterpriseContext A → IEnterpriseContext A)

/-- Is this a call of `registerContext`? -/
def CoreCall.registers : CoreCall A → Bool
  | registerContext _ => true
  | _ => false

/-- **The module as a machine.** -/
def coreMachine (A : Type) : Machine (CoreEnterpriseModule A) (CoreCall A) (Option Bool) where
  call c m :=
    match c with
    | .init => (m.init, none)
    | .registerContext ctx => ((m.registerContext ctx).1, some (m.registerContext ctx).2)
    | .releaseContext contextId =>
      ((m.releaseContext contextId).1, some (m.releaseContext contextId).2)
    | .assign contextId f => (m.assign contextId f, none)

/-- A call, with the module before and after it. -/
abbrev CoreEvent (A : Type) := Event (CoreEnterpriseModule A) (CoreCall A) (Option Bool)

/-- **A handler**, with a state of its own. -/
structure Handler (A τ : Type) where
  calls : IEnterpriseContext A → CoreEnterpriseModule A → τ → List (CoreCall A)
  next : IEnterpriseContext A → CoreEnterpriseModule A → τ → τ

/-- What the loop of `processPartition` works on. -/
structure PartitionLoop (A τ : Type) where
  module : CoreEnterpriseModule A
  handler : τ
  count : ℕ

/-- The body of the loop. -/
def PartitionLoop.body (partitionKey : String) (handler : Handler A τ) (_ : String)
    (ctx : IEnterpriseContext A) (s : PartitionLoop A τ) : PartitionLoop A τ :=
  if ctx.partitionKey = partitionKey then
    { module := (coreMachine A).run s.module (handler.calls ctx s.module s.handler)
      handler := handler.next ctx s.module s.handler
      count := s.count + 1 }
  else s

/-- **`processPartition(partitionKey, handler)`.** The result is `count`. -/
def processPartition (partitionKey : String) (handler : Handler A τ) (fuel : ℕ)
    (m : CoreEnterpriseModule A) (t : τ) : Option (PartitionLoop A τ) :=
  MapData.forOf (fun s : PartitionLoop A τ => s.module.contextStore)
    (PartitionLoop.body partitionKey handler) fuel 0 ⟨m, t, 0⟩

/-- The loop with a record: the contexts given to the handler, each with the id under which it is
stored, and the calls of the handler. -/
structure PartitionRecord (A τ : Type) extends PartitionLoop A τ where
  given : List (String × IEnterpriseContext A)
  calls : List (CoreEvent A)

/-- The body of the loop, with the record. -/
def PartitionRecord.body (partitionKey : String) (handler : Handler A τ) (id : String)
    (ctx : IEnterpriseContext A) (s : PartitionRecord A τ) : PartitionRecord A τ where
  toPartitionLoop := s.toPartitionLoop.body partitionKey handler id ctx
  given := if ctx.partitionKey = partitionKey then s.given ++ [(id, ctx)] else s.given
  calls :=
    if ctx.partitionKey = partitionKey then
      s.calls ++ (coreMachine A).history s.module (handler.calls ctx s.module s.handler)
    else s.calls

/-- `processPartition` with the record. -/
def recordPartition (partitionKey : String) (handler : Handler A τ) (fuel : ℕ)
    (m : CoreEnterpriseModule A) (t : τ) : Option (PartitionRecord A τ) :=
  MapData.forOf (fun s : PartitionRecord A τ => s.module.contextStore)
    (PartitionRecord.body partitionKey handler) fuel 0 ⟨⟨m, t, 0⟩, [], []⟩

/-- Is a context in the partition? -/
def inPartition (partitionKey : String) (ctx : IEnterpriseContext A) : Bool :=
  ctx.partitionKey = partitionKey

/-- The ids under which the contexts of a partition are stored, in the order of the store. -/
def CoreEnterpriseModule.partition (m : CoreEnterpriseModule A) (partitionKey : String) :
    List String :=
  (m.contextStore.entries.entries.filter fun e => inPartition partitionKey e.2).map Prod.fst

/-- **A stored context enters the partition**: it was not in it, and is after the call. -/
def Enters (partitionKey : String) (e : CoreEvent A) : Prop :=
  ∃ id ctx ctx', e.before.contextStore.entries.get id = some ctx ∧
    e.after.contextStore.entries.get id = some ctx' ∧
    ctx.partitionKey ≠ partitionKey ∧ ctx'.partitionKey = partitionKey

/-- **A context leaves the partition**: after the call it is not stored any more, or not in it. -/
def Leaves (partitionKey : String) (e : CoreEvent A) : Prop :=
  ∃ id ctx, e.before.contextStore.entries.get id = some ctx ∧ ctx.partitionKey = partitionKey ∧
    ∀ ctx', e.after.contextStore.entries.get id = some ctx' → ctx'.partitionKey ≠ partitionKey

/-! ## What a call does to the slots -/

variable {partitionKey : String} {m : CoreEnterpriseModule A}

theorem contextStore_registerContext (m : CoreEnterpriseModule A) (ctx : IEnterpriseContext A) :
    (m.registerContext ctx).1.contextStore =
      if m.contextStore.entries.has ctx.contextId then m.contextStore
      else m.contextStore.set ctx.contextId ctx := by
  have hinit : m.init.contextStore = m.contextStore := rfl
  simp only [CoreEnterpriseModule.registerContext, apply_ite Prod.fst,
    apply_ite CoreEnterpriseModule.contextStore, hinit, ite_self]

theorem ages_registerContext (m : CoreEnterpriseModule A) (ctx : IEnterpriseContext A) :
    MapData.Ages (· = ·) (inPartition partitionKey) m.contextStore
      (m.registerContext ctx).1.contextStore := by
  rw [contextStore_registerContext]
  split_ifs with hhas
  · exact .refl (fun _ => rfl) _
  · exact MapData.ages_set (by simpa [JsMap.has] using hhas) ctx

theorem get_assign_self {contextId : String} {ctx : IEnterpriseContext A}
    (h : m.contextStore.entries.get contextId = some ctx)
    (f : IEnterpriseContext A → IEnterpriseContext A) :
    (m.assign contextId f).contextStore.entries.get contextId = some (f ctx) := by
  rw [CoreEnterpriseModule.assign, MapData.entries_assign, JsMap.get_modify, if_pos rfl, h]
  rfl

/-- **A call by which nothing enters** takes nothing into the first slots of the partition. -/
theorem ages_next_of_not_enters (c : CoreCall A)
    (h : ¬ Enters partitionKey ((coreMachine A).event m c)) :
    MapData.Ages List.Sublist (inPartition partitionKey) m.contextStore
      ((coreMachine A).next m c).contextStore := by
  cases c with
  | init => exact .refl List.Sublist.refl _
  | registerContext ctx =>
    exact (ages_registerContext m ctx).mono fun ks ks' h => h ▸ List.Sublist.refl _
  | releaseContext contextId => exact MapData.ages_delete _ _
  | assign contextId f =>
    refine MapData.ages_assign fun ctx hctx hin => decide_eq_true (by_contra fun hout => h ?_)
    exact ⟨contextId, ctx, f ctx, hctx, get_assign_self hctx f, hout, of_decide_eq_true hin⟩

theorem ages_next_of_not_leaves (c : CoreCall A)
    (h : ¬ Leaves partitionKey ((coreMachine A).event m c)) :
    MapData.Ages (Function.swap List.Sublist) (inPartition partitionKey) m.contextStore
      ((coreMachine A).next m c).contextStore := by
  cases c with
  | init => exact MapData.Ages.refl (r := Function.swap List.Sublist) List.Sublist.refl _
  | registerContext ctx =>
    exact (ages_registerContext m ctx).mono fun ks ks' h => h ▸ List.Sublist.refl _
  | releaseContext contextId =>
    refine MapData.swap_ages_delete fun ctx hctx => decide_eq_false fun hin => h ?_
    refine ⟨contextId, ctx, hctx, hin, fun ctx' hctx' => ?_⟩
    have hnone : (m.releaseContext contextId).1.contextStore.entries.get contextId = none := by
      rw [CoreEnterpriseModule.releaseContext, MapData.entries_delete, JsMap.get_delete,
        if_pos rfl]
    exact absurd (hnone.symm.trans hctx') (by simp)
  | assign contextId f =>
    refine MapData.swap_ages_assign fun ctx hctx hin => decide_eq_true (by_contra fun hout => h ?_)
    refine ⟨contextId, ctx, hctx, of_decide_eq_true hin, fun ctx' hctx' => ?_⟩
    rwa [← Option.some.inj ((get_assign_self hctx f).symm.trans hctx')]

theorem ages_run {r : List String → List String → Prop} [IsTrans _ r] {ok : CoreEvent A → Prop}
    (hrefl : ∀ ks, r ks ks)
    (hnext : ∀ m c, ok ((coreMachine A).event m c) →
      MapData.Ages r (inPartition partitionKey) m.contextStore
        ((coreMachine A).next m c).contextStore)
    (calls : List (CoreCall A)) (m : CoreEnterpriseModule A)
    (hok : ∀ e ∈ (coreMachine A).history m calls, ok e) :
    MapData.Ages r (inPartition partitionKey) m.contextStore
      ((coreMachine A).run m calls).contextStore := by
  induction calls generalizing m with
  | nil => exact .refl hrefl _
  | cons c calls ih =>
    obtain ⟨hc, hcalls⟩ := List.forall_mem_cons.mp hok
    exact (hnext m c hc).trans (ih _ hcalls)

theorem length_next_le (m : CoreEnterpriseModule A) (c : CoreCall A) :
    ((coreMachine A).next m c).contextStore.slots.length ≤
      m.contextStore.slots.length + if c.registers then 1 else 0 := by
  cases c with
  | init => exact Nat.le_add_right _ _
  | registerContext ctx =>
    have hregisters : (CoreCall.registerContext ctx).registers = true := rfl
    refine (congrArg (fun d => d.slots.length) (contextStore_registerContext m ctx)).trans_le ?_
    rw [if_pos hregisters]
    split_ifs
    · exact Nat.le_succ _
    · exact m.contextStore.length_set_le _ _
  | releaseContext contextId => exact (m.contextStore.length_delete _).le
  | assign contextId f => exact (m.contextStore.length_assign _ _).le

theorem length_run_le (calls : List (CoreCall A)) (m : CoreEnterpriseModule A) :
    ((coreMachine A).run m calls).contextStore.slots.length ≤
      m.contextStore.slots.length + calls.countP CoreCall.registers := by
  induction calls generalizing m with
  | nil => exact Nat.le_refl _
  | cons c calls ih =>
    have hfirst := length_next_le m c
    have hrest := ih ((coreMachine A).next m c)
    rw [Machine.run, List.foldl_cons, List.countP_cons]
    rw [Machine.run] at hrest
    omega

/-! ## The contexts that the handler is given -/

/-- The state of the loop, at a slot: the contexts before it, and the record. -/
structure Given (ok : CoreEvent A → Prop) (r : List String → List String → Prop)
    (partitionKey : String) (i : ℕ) (s : PartitionRecord A τ) : Prop where
  before : (∀ e ∈ s.calls, ok e) →
    r (MapData.keysWhere (inPartition partitionKey) (s.module.contextStore.slots.take i))
      (s.given.map Prod.fst)
  inPartition : ∀ e ∈ s.given, e.2.partitionKey = partitionKey
  count : s.count = s.given.length

section Given

variable {ok : CoreEvent A → Prop} {r : List String → List String → Prop} {i : ℕ}
  {handler : Handler A τ} {s : PartitionRecord A τ}

theorem Given.body [IsTrans _ r] (hrefl : ∀ ks, r ks ks)
    (hconcat : ∀ ks ks' k, r ks ks' → r (ks ++ [k]) (ks' ++ [k]))
    (hnext : ∀ m c, ok ((coreMachine A).event m c) →
      MapData.Ages r (Logix.Common.inPartition partitionKey) m.contextStore
        ((coreMachine A).next m c).contextStore)
    (h : Given ok r partitionKey i s) {id : String} {ctx : IEnterpriseContext A}
    (hslot : s.module.contextStore.slots[i]? = some (some (id, ctx))) :
    Given ok r partitionKey (i + 1) (s.body partitionKey handler id ctx) := by
  have hkeys := MapData.keysWhere_take_succ (p := Logix.Common.inPartition partitionKey) hslot
  rw [PartitionRecord.body, PartitionLoop.body]
  by_cases hkey : ctx.partitionKey = partitionKey
  · simp only [if_pos hkey]
    have hone : MapData.keysWhere (Logix.Common.inPartition partitionKey) [some (id, ctx)] =
        [id] := by
      simp [MapData.keysWhere, Logix.Common.inPartition, hkey]
    rw [hone] at hkeys
    have hi : i + 1 ≤ s.module.contextStore.slots.length :=
      (List.getElem?_eq_some_iff.mp hslot).1
    refine ⟨fun hok => ?_, ?_, ?_⟩
    · obtain ⟨hbefore, hcalls⟩ := List.forall_mem_append.mp hok
      refine trans_of r ((ages_run hrefl hnext _ s.module hcalls).keysWhere (i + 1) hi) ?_
      rw [hkeys, List.map_append, List.map_singleton]
      exact hconcat _ _ _ (h.before hbefore)
    · exact List.forall_mem_append.mpr ⟨h.inPartition, List.forall_mem_singleton.mpr hkey⟩
    · rw [List.length_append, ← h.count]
      rfl
  · simp only [if_neg hkey]
    have hone : MapData.keysWhere (Logix.Common.inPartition partitionKey) [some (id, ctx)] =
        [] := by
      simp [MapData.keysWhere, Logix.Common.inPartition, hkey]
    rw [hone, List.append_nil] at hkeys
    exact ⟨fun hok => hkeys ▸ h.before hok, h.inPartition, h.count⟩

/-- **The loop.** -/
theorem Given.recordPartition (ok : CoreEvent A → Prop) (r : List String → List String → Prop)
    [IsTrans _ r] (hrefl : ∀ ks, r ks ks)
    (hconcat : ∀ ks ks' k, r ks ks' → r (ks ++ [k]) (ks' ++ [k]))
    (hnext : ∀ m c, ok ((coreMachine A).event m c) →
      MapData.Ages r (Logix.Common.inPartition partitionKey) m.contextStore
        ((coreMachine A).next m c).contextStore)
    {fuel : ℕ} {t : τ} (hs : recordPartition partitionKey handler fuel m t = some s) :
    ((∀ e ∈ s.calls, ok e) → r (s.module.partition partitionKey) (s.given.map Prod.fst)) ∧
      (∀ e ∈ s.given, e.2.partitionKey = partitionKey) ∧ s.count = s.given.length := by
  have hstart : Given ok r partitionKey 0 (⟨⟨m, t, 0⟩, [], []⟩ : PartitionRecord A τ) :=
    ⟨fun _ => hrefl [], fun e he => absurd he List.not_mem_nil, rfl⟩
  have hempty : ∀ i (s : PartitionRecord A τ), Given ok r partitionKey i s →
      s.module.contextStore.slots[i]? = some none → Given ok r partitionKey (i + 1) s := by
    intro i s h hslot
    have hkeys := MapData.keysWhere_take_succ (p := Logix.Common.inPartition partitionKey) hslot
    refine ⟨fun hok => ?_, h.inPartition, h.count⟩
    rw [hkeys]
    exact (List.append_nil _).symm ▸ h.before hok
  obtain ⟨j, hj, hgiven⟩ := MapData.forOf_invariant hempty
    (fun i s k v h => h.body hrefl hconcat hnext) hstart hs
  refine ⟨fun hok => ?_, hgiven.inPartition, hgiven.count⟩
  have hbefore := hgiven.before hok
  rwa [List.take_of_length_le hj] at hbefore

end Given

theorem map_recordPartition (handler : Handler A τ) (fuel : ℕ) (m : CoreEnterpriseModule A)
    (t : τ) :
    (recordPartition partitionKey handler fuel m t).map PartitionRecord.toPartitionLoop =
      processPartition partitionKey handler fuel m t :=
  MapData.map_forOf (π := PartitionRecord.toPartitionLoop) (fun s => s.module.contextStore)
    (fun _ => rfl) (fun _ _ _ => rfl) fuel 0 ⟨⟨m, t, 0⟩, [], []⟩

/-- **A handler with a budget**: every context that it registers costs one. -/
def Handler.PaidBy (handler : Handler A τ) (budget : τ → ℕ) : Prop :=
  ∀ ctx m t, (handler.calls ctx m t).countP CoreCall.registers + budget (handler.next ctx m t) ≤
    budget t

theorem exists_processPartition {handler : Handler A τ} {budget : τ → ℕ}
    (h : handler.PaidBy budget) (partitionKey : String) (m : CoreEnterpriseModule A) (t : τ) :
    ∃ s, processPartition partitionKey handler (m.contextStore.slots.length + budget t + 1) m t =
      some s := by
  refine MapData.exists_forOf (fun s : PartitionLoop A τ => budget s.handler) ?_
    (Nat.lt_succ_of_le (Nat.sub_le _ _))
  intro k ctx s
  rw [PartitionLoop.body]
  split_ifs
  · have hlength := length_run_le (handler.calls ctx s.module s.handler) s.module
    have hpaid := h ctx s.module s.handler
    simp only
    omega
  · exact Nat.le_refl _

/-- **The contexts that a handler is given**: the loop ends if the handler has a budget; they are in
the partition when they are given, and are counted. If no call brings a stored context into the
partition, every context that it has at the end was given, in the order of the store; if no call
takes one out of it, every context given is in it at the end. -/
theorem processPartition_live (handler : Handler A τ) {budget : τ → ℕ}
    (hbudget : handler.PaidBy budget) (partitionKey : String) (m : CoreEnterpriseModule A) (t : τ) :
    ∃ fuel s, recordPartition partitionKey handler fuel m t = some s ∧
      processPartition partitionKey handler fuel m t = some s.toPartitionLoop ∧
      s.count = s.given.length ∧ (∀ e ∈ s.given, e.2.partitionKey = partitionKey) ∧
      ((∀ e ∈ s.calls, ¬ Enters partitionKey e) →
        (s.module.partition partitionKey).Sublist (s.given.map Prod.fst)) ∧
      ((∀ e ∈ s.calls, ¬ Leaves partitionKey e) →
        (s.given.map Prod.fst).Sublist (s.module.partition partitionKey)) := by
  obtain ⟨loop, hloop⟩ := exists_processPartition hbudget partitionKey m t
  obtain ⟨s, hs, rfl⟩ := Option.map_eq_some_iff.mp ((map_recordPartition handler _ m t).trans hloop)
  obtain ⟨henter, hpartition, hcount⟩ := Given.recordPartition
    (fun e => ¬ Enters partitionKey e) List.Sublist List.Sublist.refl
    (fun ks ks' k h => h.append_right [k]) (fun m c => ages_next_of_not_enters c) hs
  obtain ⟨hleave, -, -⟩ := Given.recordPartition
    (fun e => ¬ Leaves partitionKey e) (Function.swap List.Sublist) List.Sublist.refl
    (fun ks ks' k h => List.Sublist.append_right h [k]) (fun m c => ages_next_of_not_leaves c) hs
  exact ⟨_, s, hs, hloop, hcount, hpartition, henter, hleave⟩

/-- A handler that registers the continuation of a context, a number of times. -/
def continuing : Handler Unit ℕ where
  calls ctx _ n :=
    if n = 0 then [] else [.registerContext { ctx with contextId := ctx.contextId ++ "+" }]
  next _ _ n := n - 1

theorem continuing_paidBy : continuing.PaidBy id := by
  intro ctx m n
  cases n with
  | zero => exact Nat.le_refl _
  | succ n => exact (Nat.add_comm 1 n).le

/-- A case: one context, and its continuations. -/
theorem processPartition_live_continuing :
    let m := (CoreEnterpriseModule.new.registerContext
      (⟨"C-1", "acme", "east", 0, ()⟩ : IEnterpriseContext Unit)).1
    ∃ fuel s, recordPartition "east" continuing fuel m 2 = some s ∧
      processPartition "east" continuing fuel m 2 = some s.toPartitionLoop ∧
      s.count = s.given.length ∧ (∀ e ∈ s.given, e.2.partitionKey = "east") ∧
      ((∀ e ∈ s.calls, ¬ Enters "east" e) →
        (s.module.partition "east").Sublist (s.given.map Prod.fst)) ∧
      ((∀ e ∈ s.calls, ¬ Leaves "east" e) →
        (s.given.map Prod.fst).Sublist (s.module.partition "east")) :=
  processPartition_live continuing continuing_paidBy "east" _ 2

/-- A handler that moves the context that it is given out of the partition. -/
def closing : Handler Unit Unit where
  calls ctx _ _ := [.assign ctx.contextId fun c => { c with partitionKey := "done" }]
  next _ _ t := t

example : ((recordPartition "east" continuing 9 (CoreEnterpriseModule.new.registerContext
    (⟨"C-1", "acme", "east", 0, ()⟩ : IEnterpriseContext Unit)).1 2).map fun s =>
      s.given.map Prod.fst) = some ["C-1", "C-1+", "C-1++"] := by
  decide

example : ((recordPartition "east" closing 9 (CoreEnterpriseModule.new.registerContext
    (⟨"C-1", "acme", "east", 0, ()⟩ : IEnterpriseContext Unit)).1 ()).map fun s =>
      (s.given.map Prod.fst, s.module.partition "east")) = some (["C-1"], []) := by
  decide

end Logix.Common
