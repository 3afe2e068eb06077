import Mathlib.Data.List.Infix
import Logix.Common.Pagination
import Logix.Js.Uuid
import Logix.Spec.Machine

/-!
# Domain repositories

Seven services have twenty `InMemoryDomainRepository_*` classes each, over entities of their own,
with the same code. The methods are asynchronous, and have no await in them.

* `DomainEntity`, `CreateDomainDTO`, `DomainUpdates`, `QueryDomainFilterDTO`: entities, and the
  requests;
* `InMemoryDomainRepository`, `domainMachine`, `matchingEntities`, `query`: the code;
* **`entity_run`**: what a run leaves of an entity;
* **`pages_query`**: the pages of a query.

A custom attribute has any value, and `lower` is `toLowerCase`. A field that an update names has a
value. The time stamps are left out: no method reads them.
-/

namespace Logix.Common

open Spec

variable {V : Type}

/-- `operationalStatus`. -/
inductive DomainStatus where
  | ACTIVE | INACTIVE | ARCHIVED | PENDING_REVIEW
  deriving DecidableEq, Repr

/-- `DomainEntity_*`. -/
structure DomainEntity (V : Type) where
  id : String
  tenantId : String
  code : JsString
  displayName : JsString
  operationalStatus : DomainStatus
  priorityScore : ℚ
  tags : List String
  customAttributes : JsMap String V
  checksum : String
  version : ℚ

/-- `CreateDomainSchema_*`, of what it is about. -/
structure CreateDomainDTO (V : Type) where
  tenantId : String
  code : JsString
  displayName : JsString
  priorityScore : ℤ
  tags : List String
  customAttributes : JsMap String V
  tenantId_ne : tenantId ≠ ""
  code_length : 3 ≤ code.length ∧ code.length ≤ 50
  displayName_length : 2 ≤ displayName.length ∧ displayName.length ≤ 200
  priorityScore_range : 0 ≤ priorityScore ∧ priorityScore ≤ 1000

/-- `Partial<IDomainEntity_*>`. -/
structure DomainUpdates (V : Type) where
  id : Option String := none
  tenantId : Option String := none
  code : Option JsString := none
  displayName : Option JsString := none
  operationalStatus : Option DomainStatus := none
  priorityScore : Option ℚ := none
  tags : Option (List String) := none
  customAttributes : Option (JsMap String V) := none
  checksum : Option String := none
  version : Option ℚ := none

/-- `new DomainEntity_*({ ...dto, id, operationalStatus: 'ACTIVE', version: 1 })`. -/
def CreateDomainDTO.entity (dto : CreateDomainDTO V) (id : String) : DomainEntity V where
  id := id
  tenantId := dto.tenantId
  code := dto.code
  displayName := dto.displayName
  operationalStatus := .ACTIVE
  priorityScore := dto.priorityScore
  tags := dto.tags
  customAttributes := dto.customAttributes
  checksum := "sha256-verified"
  version := 1

namespace DomainEntity

/-- `Object.assign(existing, updates)`, and the next version. -/
def update (e : DomainEntity V) (updates : DomainUpdates V) : DomainEntity V where
  id := updates.id.getD e.id
  tenantId := updates.tenantId.getD e.tenantId
  code := updates.code.getD e.code
  displayName := updates.displayName.getD e.displayName
  operationalStatus := updates.operationalStatus.getD e.operationalStatus
  priorityScore := updates.priorityScore.getD e.priorityScore
  tags := updates.tags.getD e.tags
  customAttributes := updates.customAttributes.getD e.customAttributes
  checksum := updates.checksum.getD e.checksum
  version := updates.version.getD e.version + 1

/-- `validateInvariants()`. -/
def validateInvariants (e : DomainEntity V) : Bool :=
  if e.id = "" ∨ e.tenantId = "" ∨ e.code = [] then false
  else if e.priorityScore < 0 ∨ 1000 < e.priorityScore then false
  else true

end DomainEntity

/-- **`InMemoryDomainRepository_*`.** `draws` counts the ids drawn so far. -/
structure InMemoryDomainRepository (V : Type) where
  store : JsMap String (DomainEntity V)
  draws : ℕ

namespace InMemoryDomainRepository

/-- `new InMemoryDomainRepository_*()`. -/
def new : InMemoryDomainRepository V := ⟨.empty, 0⟩

/-- **`create(dto)`.** -/
def create (u : UuidSource) (repo : InMemoryDomainRepository V) (dto : CreateDomainDTO V) :
    InMemoryDomainRepository V × Option (DomainEntity V) :=
  let entity := dto.entity (u.draw repo.draws)
  (⟨repo.store.set entity.id entity, repo.draws + 1⟩, some entity)

/-- `findById(id)`. -/
def findById (repo : InMemoryDomainRepository V) (id : String) : Option (DomainEntity V) :=
  repo.store.get id

/-- `findByCode(code, tenantId)`. -/
def findByCode (repo : InMemoryDomainRepository V) (code : JsString) (tenantId : String) :
    Option (DomainEntity V) :=
  repo.store.values.find? fun e => e.code = code ∧ e.tenantId = tenantId

/-- **`update(id, updates)`.** -/
def update (repo : InMemoryDomainRepository V) (id : String) (updates : DomainUpdates V) :
    InMemoryDomainRepository V × Option (DomainEntity V) :=
  match repo.store.get id with
  | none => (repo, none)
  | some existing =>
    ({ repo with store := repo.store.set id (existing.update updates) },
      some (existing.update updates))

/-- **`delete(id)`.** -/
def delete (repo : InMemoryDomainRepository V) (id : String) : InMemoryDomainRepository V :=
  { repo with store := repo.store.delete id }

end InMemoryDomainRepository

open InMemoryDomainRepository

/-- A call that changes the repository. -/
inductive DomainCall (V : Type) where
  | create (dto : CreateDomainDTO V)
  | update (id : String) (updates : DomainUpdates V)
  | delete (id : String)

/-- **The repository as a machine.** A call returns the entity that it creates or updates. -/
def domainMachine (V : Type) (u : UuidSource) :
    Machine (InMemoryDomainRepository V) (DomainCall V) (Option (DomainEntity V)) where
  call i repo :=
    match i with
    | .create dto => repo.create u dto
    | .update id updates => repo.update id updates
    | .delete id => (repo.delete id, none)

/-! ## Entities -/

/-- Is this a call of `create`? -/
def DomainCall.isCreate : DomainCall V → Bool
  | .create _ => true
  | _ => false

/-- How many entities are created. -/
def createCount (is : List (DomainCall V)) : ℕ := is.countP DomainCall.isCreate

/-- What a call updates of the entity `id`. -/
def DomainCall.updatesOf (id : String) : DomainCall V → Option (DomainUpdates V)
  | .update id' updates => if id' = id then some updates else none
  | _ => none

/-- Does the call delete the entity `id`? -/
def DomainCall.deletes (id : String) : DomainCall V → Bool
  | .delete id' => id' = id
  | _ => false

/-- **What the calls leave of an entity** that is stored under an id. -/
def entityAfter (id : String) (e : DomainEntity V) (is : List (DomainCall V)) :
    Option (DomainEntity V) :=
  if is.any fun i => i.deletes id then none
  else some ((is.filterMap (DomainCall.updatesOf id)).foldl DomainEntity.update e)

variable {u : UuidSource} {repo : InMemoryDomainRepository V} {e : DomainEntity V}

theorem draws_run (u : UuidSource) (is : List (DomainCall V)) :
    ((domainMachine V u).run .new is).draws = createCount is := by
  induction is using List.reverseRecOn with
  | nil => rfl
  | append_singleton is i ih =>
    rw [Machine.run_concat, createCount, List.countP_append, ← createCount, ← ih]
    cases i with
    | update id updates =>
      simp only [Machine.next, domainMachine, update]
      split <;> rfl
    | _ => rfl

theorem entityAfter_concat (id : String) (e : DomainEntity V) (is : List (DomainCall V))
    (i : DomainCall V) :
    entityAfter id e (is ++ [i]) = (entityAfter id e is).bind fun e' =>
      if i.deletes id then none
      else some ((i.updatesOf id).elim e' e'.update) := by
  rw [entityAfter, entityAfter, List.any_append, List.filterMap_append, List.foldl_append]
  by_cases h : (is.any fun i => i.deletes id) = true
  · simp [h]
  · rw [Bool.not_eq_true] at h
    cases hi : i.updatesOf id <;> simp [h, hi]

theorem findById_next {id : String} {i : DomainCall V}
    (hfresh : i.isCreate = true → id ≠ u.draw repo.draws) :
    ((domainMachine V u).next repo i).findById id = (repo.findById id).bind fun e =>
      if i.deletes id then none else some ((i.updatesOf id).elim e e.update) := by
  cases i with
  | create dto =>
    refine (JsMap.get_set_ne (hfresh rfl) _).trans ?_
    cases h : repo.store.get id <;> simp [findById, h, DomainCall.deletes, DomainCall.updatesOf]
  | update id' updates =>
    simp only [Machine.next, domainMachine, update, findById]
    by_cases hid : id' = id
    · subst hid
      cases h : repo.store.get id' with
      | none => simp [h]
      | some e => simp [DomainCall.deletes, DomainCall.updatesOf, JsMap.get_set_self]
    · have hother : (repo.store.get id).bind (fun e =>
          if (DomainCall.update id' updates).deletes id then none
          else some (((DomainCall.update id' updates).updatesOf id).elim e e.update)) =
            repo.store.get id := by
        cases repo.store.get id <;> simp [DomainCall.deletes, DomainCall.updatesOf, hid]
      rw [hother]
      cases repo.store.get id' with
      | none => rfl
      | some e => exact JsMap.get_set_ne (Ne.symm hid) _
  | delete id' =>
    refine (JsMap.get_delete _ _ _).trans ?_
    by_cases hid : id = id'
    · subst hid
      cases repo.store.get id <;> simp [findById, DomainCall.deletes]
    · cases h : repo.store.get id <;>
        simp [findById, h, DomainCall.deletes, DomainCall.updatesOf, hid, Ne.symm hid]

theorem draw_ne {m n : ℕ} (h : m < n) : u.draw m ≠ u.draw n := fun heq =>
  h.ne (u.distinct heq)

theorem findById_run (u : UuidSource) (pre : List (DomainCall V)) (dto : CreateDomainDTO V)
    (post : List (DomainCall V)) :
    ((domainMachine V u).run .new (pre ++ .create dto :: post)).findById
        (u.draw (createCount pre)) =
      entityAfter (u.draw (createCount pre)) (dto.entity (u.draw (createCount pre))) post := by
  induction post using List.reverseRecOn with
  | nil =>
    have hdraws := draws_run u pre
    rw [Machine.run_concat, ← hdraws]
    exact JsMap.get_set_self _ _ _
  | append_singleton post i ih =>
    have hdraws := draws_run u (pre ++ .create dto :: post)
    have hcount : createCount pre < createCount (pre ++ .create dto :: post) := by
      rw [createCount, createCount, List.countP_append, List.countP_cons_of_pos rfl]
      omega
    rw [← List.cons_append, ← List.append_assoc, Machine.run_concat,
      findById_next fun _ => hdraws ▸ draw_ne hcount, ih, entityAfter_concat]

theorem findById_run_of_forall_ne (is : List (DomainCall V)) {id : String}
    (h : ∀ n < createCount is, u.draw n ≠ id) :
    ((domainMachine V u).run .new is).findById id = none := by
  induction is using List.reverseRecOn with
  | nil => rfl
  | append_singleton is i ih =>
    have hle : createCount is ≤ createCount (is ++ [i]) := by
      rw [createCount, createCount, List.countP_append]
      exact Nat.le_add_right _ _
    have hfresh : i.isCreate = true → id ≠ u.draw ((domainMachine V u).run .new is).draws := by
      intro hi
      refine (h _ ?_).symm
      rw [draws_run, createCount, createCount, List.countP_append, List.countP_singleton, if_pos hi]
      exact Nat.lt_succ_self _
    rw [Machine.run_concat, findById_next hfresh, ih fun n hn => h n (hn.trans_le hle)]
    rfl

/-- What `UpdateDomainSchema_*` lets through, of what it is about. -/
structure DomainUpdates.Parsed (updates : DomainUpdates V) : Prop where
  id : updates.id = none
  tenantId : updates.tenantId = none
  code : updates.code = none
  checksum : updates.checksum = none
  version : updates.version = none
  displayName : ∀ s ∈ updates.displayName, 2 ≤ s.length ∧ s.length ≤ 200
  priorityScore : ∀ n ∈ updates.priorityScore, 0 ≤ n ∧ n ≤ 1000

/-- **What such updates keep** of an entity, and how they count. -/
structure DomainEntity.UpdatedBy (e e' : DomainEntity V) (n : ℕ) : Prop where
  id : e'.id = e.id
  tenantId : e'.tenantId = e.tenantId
  code : e'.code = e.code
  checksum : e'.checksum = e.checksum
  version : e'.version = e.version + n
  valid : e.validateInvariants = true → e'.validateInvariants = true

theorem validateInvariants_iff : e.validateInvariants = true ↔
    (e.id ≠ "" ∧ e.tenantId ≠ "" ∧ e.code ≠ []) ∧ 0 ≤ e.priorityScore ∧ e.priorityScore ≤ 1000 := by
  rw [DomainEntity.validateInvariants]
  split_ifs with hids hscore
  · refine iff_of_false id fun h => ?_
    exact hids.elim h.1.1 fun h' => h'.elim h.1.2.1 h.1.2.2
  · refine iff_of_false id fun h => ?_
    exact hscore.elim h.2.1.not_gt h.2.2.not_gt
  · push Not at hids hscore
    exact iff_of_true rfl ⟨hids, hscore⟩

theorem validateInvariants_entity (dto : CreateDomainDTO V) {id : String} (hid : id ≠ "") :
    (dto.entity id).validateInvariants = true := by
  obtain ⟨hmin, hmax⟩ := dto.priorityScore_range
  refine validateInvariants_iff.mpr
    ⟨⟨hid, dto.tenantId_ne, ?_⟩, Int.cast_nonneg hmin, ?_⟩
  · intro hcode
    have hlength : dto.code.length = 0 := congrArg List.length hcode
    have hcodeMin := dto.code_length.1
    omega
  · have hcast : (dto.priorityScore : ℚ) ≤ (1000 : ℤ) := Int.cast_le.mpr hmax
    exact hcast

theorem updatedBy_update {updates : DomainUpdates V} (h : updates.Parsed) (e : DomainEntity V) :
    e.UpdatedBy (e.update updates) 1 := by
  have hid : (e.update updates).id = e.id := by rw [DomainEntity.update, h.id]; rfl
  have htenant : (e.update updates).tenantId = e.tenantId := by
    rw [DomainEntity.update, h.tenantId]; rfl
  have hcode : (e.update updates).code = e.code := by rw [DomainEntity.update, h.code]; rfl
  refine ⟨hid, htenant, hcode, ?_, ?_, fun hvalid => ?_⟩
  · rw [DomainEntity.update, h.checksum]; rfl
  · rw [DomainEntity.update, h.version]; rfl
  · rw [validateInvariants_iff, hid, htenant, hcode]
    obtain ⟨hids, hscore⟩ := validateInvariants_iff.mp hvalid
    refine ⟨hids, ?_⟩
    rw [DomainEntity.update]
    cases hn : updates.priorityScore with
    | none => exact hscore
    | some n => exact h.priorityScore n hn

theorem updatedBy_foldl {updates : List (DomainUpdates V)} (h : ∀ dto ∈ updates, dto.Parsed)
    (e : DomainEntity V) :
    e.UpdatedBy (updates.foldl DomainEntity.update e) updates.length := by
  induction updates generalizing e with
  | nil => exact ⟨rfl, rfl, rfl, rfl, (add_zero _).symm, id⟩
  | cons dto updates ih =>
    obtain ⟨hdto, hupdates⟩ := List.forall_mem_cons.mp h
    have hfirst := updatedBy_update hdto e
    have hrest := ih hupdates (e.update dto)
    refine ⟨hrest.id.trans hfirst.id, hrest.tenantId.trans hfirst.tenantId,
      hrest.code.trans hfirst.code, hrest.checksum.trans hfirst.checksum, ?_,
      fun hvalid => hrest.valid (hfirst.valid hvalid)⟩
    rw [List.foldl_cons, hrest.version, hfirst.version, List.length_cons]
    push_cast
    ring

/-- **Entities in a run**: an entity is what the updates since its creation make of it, until it is
deleted, and there are no others. As long as the updates are those that the schema lets through, it
keeps its id, its tenant and its code, its version counts the updates, and it is valid. -/
theorem entity_run (u : UuidSource) (pre : List (DomainCall V)) (dto : CreateDomainDTO V)
    (post : List (DomainCall V)) (hdraw : u.draw (createCount pre) ≠ "") :
    let id := u.draw (createCount pre)
    let e := dto.entity id
    let updates := post.filterMap (DomainCall.updatesOf id)
    let repo := (domainMachine V u).run .new (pre ++ .create dto :: post)
    repo.findById id = entityAfter id e post ∧
      (∀ id', (∀ n < createCount (pre ++ .create dto :: post), u.draw n ≠ id') →
        repo.findById id' = none) ∧
      ((∀ dto ∈ updates, dto.Parsed) → ∀ e' ∈ repo.findById id,
        e'.validateInvariants = true ∧ e.UpdatedBy e' updates.length) := by
  intro id e updates repo
  have hafter : repo.findById id = entityAfter id e post := findById_run u pre dto post
  refine ⟨hafter, fun id' hid' => findById_run_of_forall_ne _ hid', fun hparsed e' he' => ?_⟩
  rw [hafter, entityAfter] at he'
  split_ifs at he' with hdeleted
  · cases he'
  · obtain rfl := Option.some.inj he'
    have hupdated := updatedBy_foldl hparsed e
    exact ⟨hupdated.valid (validateInvariants_entity dto hdraw), hupdated⟩

/-- A chart of accounts. -/
def chartDTO : CreateDomainDTO ℕ where
  tenantId := "acme"
  code := js "CHART"
  displayName := js "Chart of accounts"
  priorityScore := 100
  tags := []
  customAttributes := .empty
  tenantId_ne := by decide
  code_length := by decide
  displayName_length := by decide
  priorityScore_range := by decide

/-- Its priority goes up. -/
def raisePriority : DomainCall ℕ :=
  .update (UuidSource.unary.draw 0) { priorityScore := some 900 }

/-- A case: one update. -/
theorem entity_run_chart :
    let id := UuidSource.unary.draw (createCount ([] : List (DomainCall ℕ)))
    let e := chartDTO.entity id
    let updates := [raisePriority].filterMap (DomainCall.updatesOf id)
    let repo := (domainMachine ℕ .unary).run .new ([] ++ .create chartDTO :: [raisePriority])
    repo.findById id = entityAfter id e [raisePriority] ∧
      (∀ id', (∀ n < createCount ([] ++ .create chartDTO :: [raisePriority]),
        UuidSource.unary.draw n ≠ id') → repo.findById id' = none) ∧
      ((∀ dto ∈ updates, dto.Parsed) → ∀ e' ∈ repo.findById id,
        e'.validateInvariants = true ∧ e.UpdatedBy e' updates.length) :=
  entity_run .unary [] chartDTO [raisePriority] (by decide)

/-! ## Queries -/

/-- `QueryDomainFilterSchema_*`. -/
structure QueryDomainFilterDTO where
  tenantId : Option String := none
  operationalStatus : Option DomainStatus := none
  minPriority : Option ℚ := none
  maxPriority : Option ℚ := none
  search : Option JsString := none
  page : ℚ := 1
  limit : ℚ := 20
  deriving DecidableEq, Repr

/-- The filters of `query`, one after another. `maxPriority` is not read. -/
def matchingEntities (lower : JsString → JsString) (filter : QueryDomainFilterDTO)
    (result : List (DomainEntity V)) : List (DomainEntity V) :=
  let result := match filter.tenantId with
    | none => result
    | some tenantId =>
      if tenantId = "" then result else result.filter fun r => r.tenantId = tenantId
  let result := match filter.operationalStatus with
    | none => result
    | some status => result.filter fun r => r.operationalStatus = status
  let result := match filter.minPriority with
    | none => result
    | some minPriority => result.filter fun r => minPriority ≤ r.priorityScore
  match filter.search with
  | none => result
  | some search =>
    if search = [] then result
    else result.filter fun r =>
      lower search <:+: lower r.displayName ∨ lower search <:+: lower r.code

/-- `value || fallback`. -/
def orDefault (value fallback : ℚ) : ℚ := if value = 0 then fallback else value

/-- **`query(filter)`**: the entities of the page, and the number of all that match. -/
def InMemoryDomainRepository.query (lower : JsString → JsString)
    (repo : InMemoryDomainRepository V) (filter : QueryDomainFilterDTO) :
    List (DomainEntity V) × ℕ :=
  let result := matchingEntities lower filter repo.store.values
  let page := orDefault filter.page 1
  let limit := orDefault filter.limit 20
  (slice result ((page - 1) * limit) (page * limit), result.length)

/-- **What a filter asks for.** -/
structure QueryDomainFilterDTO.Asks (lower : JsString → JsString) (filter : QueryDomainFilterDTO)
    (r : DomainEntity V) : Prop where
  tenantId : ∀ tenantId ∈ filter.tenantId, tenantId ≠ "" → r.tenantId = tenantId
  operationalStatus : ∀ status ∈ filter.operationalStatus, r.operationalStatus = status
  minPriority : ∀ minPriority ∈ filter.minPriority, minPriority ≤ r.priorityScore
  search : ∀ search ∈ filter.search, search ≠ [] →
    lower search <:+: lower r.displayName ∨ lower search <:+: lower r.code

instance (lower : JsString → JsString) (filter : QueryDomainFilterDTO) (r : DomainEntity V) :
    Decidable (filter.Asks lower r) :=
  decidable_of_iff
    ((∀ tenantId ∈ filter.tenantId, tenantId ≠ "" → r.tenantId = tenantId) ∧
      (∀ status ∈ filter.operationalStatus, r.operationalStatus = status) ∧
      (∀ minPriority ∈ filter.minPriority, minPriority ≤ r.priorityScore) ∧
      ∀ search ∈ filter.search, search ≠ [] →
        lower search <:+: lower r.displayName ∨ lower search <:+: lower r.code)
    ⟨fun ⟨htenant, hstatus, hmin, hsearch⟩ => ⟨htenant, hstatus, hmin, hsearch⟩,
      fun ⟨htenant, hstatus, hmin, hsearch⟩ => ⟨htenant, hstatus, hmin, hsearch⟩⟩

variable {lower : JsString → JsString} {filter : QueryDomainFilterDTO}

/-- **The entities that match** are those that the filter asks for, in their order. -/
theorem matchingEntities_eq (l : List (DomainEntity V)) :
    matchingEntities lower filter l = l.filter fun r => filter.Asks lower r := by
  have htenant : (match filter.tenantId with
      | none => l
      | some tenantId => if tenantId = "" then l else l.filter fun r => r.tenantId = tenantId) =
      l.filter fun r => ∀ tenantId ∈ filter.tenantId, tenantId ≠ "" → r.tenantId = tenantId := by
    cases filter.tenantId with
    | none => simp
    | some tenantId => by_cases h : tenantId = "" <;> simp [h]
  have hstatus : ∀ l : List (DomainEntity V), (match filter.operationalStatus with
      | none => l
      | some status => l.filter fun r => r.operationalStatus = status) =
      l.filter fun r => ∀ status ∈ filter.operationalStatus, r.operationalStatus = status := by
    intro l
    cases filter.operationalStatus <;> simp
  have hmin : ∀ l : List (DomainEntity V), (match filter.minPriority with
      | none => l
      | some minPriority => l.filter fun r => minPriority ≤ r.priorityScore) =
      l.filter fun r => ∀ minPriority ∈ filter.minPriority, minPriority ≤ r.priorityScore := by
    intro l
    cases filter.minPriority <;> simp
  have hsearch : ∀ l : List (DomainEntity V), (match filter.search with
      | none => l
      | some search => if search = [] then l else l.filter fun r =>
          lower search <:+: lower r.displayName ∨ lower search <:+: lower r.code) =
      l.filter fun r => ∀ search ∈ filter.search, search ≠ [] →
        lower search <:+: lower r.displayName ∨ lower search <:+: lower r.code := by
    intro l
    cases filter.search with
    | none => simp
    | some search => by_cases h : search = [] <;> simp [h]
  simp only [matchingEntities]
  rw [htenant, hstatus, hmin, hsearch, List.filter_filter, List.filter_filter, List.filter_filter]
  refine List.filter_congr fun r _ => ?_
  rw [Bool.eq_iff_iff]
  simp only [Bool.and_eq_true, decide_eq_true_eq]
  exact ⟨fun ⟨⟨⟨hsearch, hmin⟩, hstatus⟩, htenant⟩ => ⟨htenant, hstatus, hmin, hsearch⟩,
    fun ⟨htenant, hstatus, hmin, hsearch⟩ => ⟨⟨⟨hsearch, hmin⟩, hstatus⟩, htenant⟩⟩

/-- The entities of all pages, up to the one of the last entity that matches. -/
def InMemoryDomainRepository.pages (lower : JsString → JsString)
    (repo : InMemoryDomainRepository V) (filter : QueryDomainFilterDTO) : List (DomainEntity V) :=
  let total := (repo.query lower filter).2
  (List.range' 1 ⌈total / orDefault filter.limit 20⌉₊).flatMap fun page : ℕ =>
    (repo.query lower { filter with page := page }).1

theorem orDefault_pos {value fallback : ℚ} (hvalue : 0 ≤ value) (hfallback : 0 < fallback) :
    0 < orDefault value fallback := by
  rw [orDefault]
  split_ifs with h
  · exact hfallback
  · exact lt_of_le_of_ne hvalue (Ne.symm h)

theorem query_page (hlimit : 0 ≤ filter.limit) (repo : InMemoryDomainRepository V) (i : ℕ) :
    (repo.query lower { filter with page := (1 + i : ℕ) }).1 =
      ((matchingEntities lower filter repo.store.values).take
        (pageStart (orDefault filter.limit 20)
          (matchingEntities lower filter repo.store.values).length (i + 1))).drop
        (pageStart (orDefault filter.limit 20)
          (matchingEntities lower filter repo.store.values).length i) := by
  have hpos := orDefault_pos hlimit (by norm_num : (0 : ℚ) < 20)
  have hpage : orDefault ((1 + i : ℕ) : ℚ) 1 = (i + 1 : ℕ) := by
    rw [orDefault, if_neg (by positivity), Nat.add_comm]
  have hstart : (((i + 1 : ℕ) : ℚ) - 1) * orDefault filter.limit 20 =
      i * orDefault filter.limit 20 := by
    push_cast
    ring
  rw [InMemoryDomainRepository.query, hpage, hstart]
  exact slice_of_nonneg (by positivity) (by positivity) _

/-- **The pages of a query** are the stored entities that the filter asks for, in the order in which
they are stored, and `total` counts them. `maxPriority` leaves out none of them. -/
theorem pages_query (lower : JsString → JsString) (repo : InMemoryDomainRepository V)
    (filter : QueryDomainFilterDTO) (hlimit : 0 ≤ filter.limit) :
    let asked := repo.store.values.filter fun r => filter.Asks lower r
    repo.pages lower filter = asked ∧ (repo.query lower filter).2 = asked.length ∧
      ∀ maxPriority, repo.query lower { filter with maxPriority := maxPriority } =
        repo.query lower filter := by
  intro asked
  have hasked : matchingEntities lower filter repo.store.values = asked := matchingEntities_eq _
  have hpos := orDefault_pos hlimit (by norm_num : (0 : ℚ) < 20)
  have htotal : (repo.query lower filter).2 = asked.length := congrArg List.length hasked
  refine ⟨?_, htotal, fun _ => rfl⟩
  rw [pages, htotal, List.range'_eq_map_range, List.flatMap_map]
  simp only [query_page hlimit, hasked]
  rw [flatMap_pages (pageStart_mono hpos _) (by simp [pageStart]), pageStart_last hpos,
    List.take_length]

/-- `toLowerCase` of ASCII text. -/
def asciiLowerUnits (s : JsString) : JsString :=
  s.map fun c => if 65 ≤ c ∧ c ≤ 90 then c + 32 else c

/-- A case: the second of two charts. -/
theorem pages_query_chart :
    let repo := (domainMachine ℕ .unary).run .new
      [.create chartDTO, .create chartDTO, raisePriority]
    let filter : QueryDomainFilterDTO := { minPriority := some 500, search := some (js "chart") }
    let asked := repo.store.values.filter fun r => filter.Asks asciiLowerUnits r
    repo.pages asciiLowerUnits filter = asked ∧
      (repo.query asciiLowerUnits filter).2 = asked.length ∧
      ∀ maxPriority, repo.query asciiLowerUnits { filter with maxPriority := maxPriority } =
        repo.query asciiLowerUnits filter :=
  pages_query asciiLowerUnits _ _ (by norm_num)

end Logix.Common
