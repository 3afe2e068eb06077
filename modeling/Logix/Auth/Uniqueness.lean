import Logix.Auth.Accounts
import Mathlib.Data.List.Nodup

/-!
# Uniqueness of accounts

Between the lookup of `registerUser` or `provisionTenant` and its insert other requests run.

* `Unique`: no two users of a tenant have the same lower-cased email, no two tenants the same slug;
* `Exclusive`: no other request is about to insert what a request looks up;
* `Reserved`: the invariant, on the repositories and the suspended requests: what is stored and what
  is about to be inserted is all different;
* **`unique_of_exclusive`**: in runs of exclusive steps the accounts are unique, and a lookup that
  is not exclusive leads to a duplicate.
-/

namespace Logix.Auth

open Async AuthStores

variable {lower : String → String} {u : UuidSource}

/-! ## Keys -/

/-- The tenant and the lower-cased email of a user. -/
def UserEntity.key (lower : String → String) (user : UserEntity) : String × String :=
  (user.tenantId, lower user.email)

namespace AuthStores

/-- The keys of the stored users. -/
def userKeys (lower : String → String) (h : AuthStores u) : List (String × String) :=
  h.users.values.map (UserEntity.key lower)

/-- The slugs of the stored tenants. -/
def slugs (h : AuthStores u) : List String := h.tenants.values.map TenantEntity.slug

/-- **Accounts are unique.** -/
def Unique (lower : String → String) (h : AuthStores u) : Prop :=
  (h.userKeys lower).Nodup ∧ h.slugs.Nodup

end AuthStores

namespace AuthCall

/-- The user that a suspended request will insert without another lookup. -/
def pendingUser (lower : String → String) : AuthCall → Option (String × String)
  | .registerLookedUp dto _ none | .registerHashed dto _ => some (dto.tenantId, lower dto.email)
  | .provisionTenantCreated dto tenant | .provisionHashed dto tenant =>
    some (tenant.id, lower dto.adminEmail)
  | _ => none

/-- The slug that a suspended request will insert without another lookup. -/
def pendingSlug : AuthCall → Option String
  | .provisionLookedUp dto none => some dto.slug
  | _ => none

/-- The tenant that a suspended request has found. -/
def foundTenant : AuthCall → Option String
  | .registerTenantFound dto _ (some _) => some dto.tenantId
  | _ => none

/-- The user that a segment looks up. -/
def looksUpUser (lower : String → String) : AuthCall → Option (String × String)
  | .registerTenantFound dto _ (some tenant) =>
    if tenant.isActive then some (dto.tenantId, lower dto.email) else none
  | _ => none

/-- The slug that a segment looks up. -/
def looksUpSlug : AuthCall → Option String
  | .provisionTenant dto => some dto.slug
  | _ => none

end AuthCall

/-! ## Steps -/

/-- The configurations of the service. -/
abbrev AuthConfig (u : UuidSource) : Type := Config (AuthStores u) AuthCall AuthOutcome

/-- Empty repositories, and no request. -/
def startConfig (u : UuidSource) : AuthConfig u := ⟨.new u, [], []⟩

/-- A run starts requests, and continues any of them. -/
def Admitted (_ : AuthConfig u) : Act AuthCall AuthInput → Prop
  | .call (.registerUser _ _) _ | .call (.provisionTenant _) _ => True
  | .call _ _ => False
  | .resume _ _ => True

/-- No request in flight is about to insert what `k` looks up. -/
def Clear (lower : String → String) (ks : List AuthCall) (k : AuthCall) : Prop :=
  (∀ K ∈ k.looksUpUser lower, K ∉ ks.filterMap (AuthCall.pendingUser lower)) ∧
    ∀ slug ∈ k.looksUpSlug, slug ∉ ks.filterMap AuthCall.pendingSlug

/-- **The lookup of a step is clear.** -/
def Exclusive (lower : String → String) (c : AuthConfig u) : Act AuthCall AuthInput → Prop
  | .call k _ => Clear lower c.inFlight k
  | .resume n _ => ∀ k ∈ c.inFlight[n]?, Clear lower c.inFlight k

/-- An exclusive step of an admitted run. -/
def ExclusiveStep (lower : String → String) (c : AuthConfig u) (a : Act AuthCall AuthInput) :
    Prop := Admitted c a ∧ Exclusive lower c a

instance : ∀ (c : AuthConfig u) (a : Act AuthCall AuthInput), Decidable (Admitted c a)
  | _, .call (.registerUser ..) _ | _, .call (.provisionTenant _) _ => .isTrue trivial
  | _, .call (.registerTenantFound ..) _ | _, .call (.registerLookedUp ..) _
  | _, .call (.registerHashed ..) _ | _, .call (.registerCreated ..) _
  | _, .call (.registerAudited ..) _ | _, .call (.provisionLookedUp ..) _
  | _, .call (.provisionTenantCreated ..) _ | _, .call (.provisionHashed ..) _
  | _, .call (.provisionAdminCreated ..) _ => .isFalse id
  | _, .resume _ _ => .isTrue trivial

instance (ks : List AuthCall) (k : AuthCall) : Decidable (Clear lower ks k) :=
  inferInstanceAs (Decidable ((∀ K ∈ _, _) ∧ ∀ slug ∈ _, _))

instance : ∀ (c : AuthConfig u) (a : Act AuthCall AuthInput), Decidable (Exclusive lower c a)
  | _, .call _ _ => inferInstanceAs (Decidable (Clear lower _ _))
  | _, .resume _ _ => inferInstanceAs (Decidable (∀ k ∈ _, Clear lower _ k))

instance (c : AuthConfig u) (a : Act AuthCall AuthInput) : Decidable (ExclusiveStep lower c a) :=
  inferInstanceAs (Decidable (_ ∧ _))

instance (h : AuthStores u) : Decidable (h.Unique lower) := inferInstanceAs (Decidable (_ ∧ _))

/-! ## The invariant -/

/-- **The invariant**: what is stored and what is about to be inserted is all different, and the
tenants of the users are there. -/
structure Reserved (lower : String → String) (h : AuthStores u) (ks : List AuthCall) : Prop where
  users : (h.userKeys lower ++ ks.filterMap (AuthCall.pendingUser lower)).Nodup
  slugs : (h.slugs ++ ks.filterMap AuthCall.pendingSlug).Nodup
  owned : ∀ K ∈ h.userKeys lower ++ ks.filterMap (AuthCall.pendingUser lower),
    K.1 ∈ h.tenants.keys
  found : ∀ id ∈ ks.filterMap AuthCall.foundTenant, id ∈ h.tenants.keys

section Invariant

variable {h : AuthStores u} {ks ks' : List AuthCall} {k : AuthCall} {K : String × String}
  {slug : String}

theorem Reserved.perm (hI : Reserved lower h ks) (hp : ks.Perm ks') : Reserved lower h ks' where
  users := (((hp.filterMap _).append_left _).nodup_iff).mp hI.users
  slugs := (((hp.filterMap _).append_left _).nodup_iff).mp hI.slugs
  owned K hK := hI.owned K (((hp.filterMap _).append_left _).mem_iff.mpr hK)
  found id hid := hI.found id ((hp.filterMap _).mem_iff.mpr hid)

theorem Reserved.tail (hI : Reserved lower h (k :: ks)) : Reserved lower h ks := by
  have hsub : ∀ {β : Type} (f : AuthCall → Option β), (ks.filterMap f).Sublist
      ((k :: ks).filterMap f) := fun f => (List.sublist_cons_self k ks).filterMap f
  exact
    { users := hI.users.sublist ((List.Sublist.refl _).append (hsub _))
      slugs := hI.slugs.sublist ((List.Sublist.refl _).append (hsub _))
      owned := fun K hK => hI.owned K (((List.Sublist.refl _).append (hsub _)).subset hK)
      found := fun id hid => hI.found id ((hsub _).subset hid) }

theorem Reserved.push (hI : Reserved lower h ks) (hu : k.pendingUser lower = none)
    (hs : k.pendingSlug = none) (hf : ∀ id ∈ k.foundTenant, id ∈ h.tenants.keys) :
    Reserved lower h (k :: ks) where
  users := by rw [List.filterMap_cons_none hu]; exact hI.users
  slugs := by rw [List.filterMap_cons_none hs]; exact hI.slugs
  owned := by rw [List.filterMap_cons_none hu]; exact hI.owned
  found id hid := by
    obtain ⟨k', hk', hid'⟩ := List.mem_filterMap.mp hid
    rcases List.mem_cons.mp hk' with rfl | hk'
    · exact hf id hid'
    · exact hI.found id (List.mem_filterMap.mpr ⟨k', hk', hid'⟩)

theorem Reserved.reserveUser (hI : Reserved lower h ks) (hu : k.pendingUser lower = some K)
    (hs : k.pendingSlug = none) (hf : k.foundTenant = none) (hK : K ∉ h.userKeys lower)
    (hKs : K ∉ ks.filterMap (AuthCall.pendingUser lower)) (ht : K.1 ∈ h.tenants.keys) :
    Reserved lower h (k :: ks) where
  users := by
    rw [List.filterMap_cons_some hu]
    refine (List.perm_middle.nodup_iff).mpr (List.nodup_cons.mpr ⟨?_, hI.users⟩)
    exact fun hmem => (List.mem_append.mp hmem).elim hK hKs
  slugs := by rw [List.filterMap_cons_none hs]; exact hI.slugs
  owned K' hK' := by
    rw [List.filterMap_cons_some hu] at hK'
    rcases List.mem_cons.mp (List.perm_middle.mem_iff.mp hK') with rfl | hK'
    · exact ht
    · exact hI.owned K' hK'
  found := by rw [List.filterMap_cons_none hf]; exact hI.found

theorem Reserved.reserveSlug (hI : Reserved lower h ks) (hu : k.pendingUser lower = none)
    (hs : k.pendingSlug = some slug) (hf : k.foundTenant = none) (hslug : slug ∉ h.slugs)
    (hks : slug ∉ ks.filterMap AuthCall.pendingSlug) : Reserved lower h (k :: ks) where
  users := by rw [List.filterMap_cons_none hu]; exact hI.users
  slugs := by
    rw [List.filterMap_cons_some hs]
    refine (List.perm_middle.nodup_iff).mpr (List.nodup_cons.mpr ⟨?_, hI.slugs⟩)
    exact fun hmem => (List.mem_append.mp hmem).elim hslug hks
  owned := by rw [List.filterMap_cons_none hu]; exact hI.owned
  found := by rw [List.filterMap_cons_none hf]; exact hI.found

theorem Reserved.replace {k' : AuthCall} (hI : Reserved lower h (k :: ks))
    (hu : k'.pendingUser lower = k.pendingUser lower) (hs : k'.pendingSlug = k.pendingSlug)
    (hf : k'.foundTenant = none) : Reserved lower h (k' :: ks) where
  users := by
    have := hI.users
    rw [List.filterMap_cons] at this ⊢
    rwa [hu]
  slugs := by
    have := hI.slugs
    rw [List.filterMap_cons] at this ⊢
    rwa [hs]
  owned := by
    have := hI.owned
    rw [List.filterMap_cons] at this ⊢
    rwa [hu]
  found := by
    rw [List.filterMap_cons_none hf]
    exact hI.tail.found

/-! ## The repositories -/

theorem findByEmailAndTenant_eq_none_iff {email tenantId : String} :
    h.findByEmailAndTenant lower email tenantId = none ↔
      (tenantId, lower email) ∉ h.userKeys lower := by
  unfold findByEmailAndTenant userKeys
  simp only [List.find?_eq_none, List.mem_map, UserEntity.key, decide_eq_true_eq, Prod.mk.injEq,
    not_exists, not_and]
  exact ⟨fun hnone user hm ht he => hnone user hm he ht,
    fun hnone user hm he ht => hnone user hm ht he⟩

theorem findBySlug_eq_none_iff : h.findBySlug slug = none ↔ slug ∉ h.slugs := by
  unfold findBySlug AuthStores.slugs
  simp only [List.find?_eq_none, List.mem_map, decide_eq_true_eq, not_exists, not_and]

theorem userKeys_createUser (h : AuthStores u) (entity : String → UserEntity) :
    (h.createUser entity).userKeys lower =
      h.userKeys lower ++ [(entity (u.draw h.draws)).key lower] := by
  unfold userKeys createUser
  rw [JsMap.values_set_of_fresh (h.users_issued.fresh le_rfl), List.map_append]
  rfl

theorem slugs_createTenant (h : AuthStores u) (entity : String → TenantEntity) :
    (h.createTenant entity).slugs = h.slugs ++ [(entity (u.draw h.draws)).slug] := by
  unfold AuthStores.slugs createTenant
  rw [JsMap.values_set_of_fresh (h.tenants_issued.fresh le_rfl), List.map_append]
  rfl

theorem Reserved.insertUser (hI : Reserved lower h (k :: ks)) (hu : k.pendingUser lower = some K)
    {entity : String → UserEntity} (he : (entity (u.draw h.draws)).key lower = K) :
    Reserved lower (h.createUser entity) ks where
  users := by
    have := hI.users
    rw [List.filterMap_cons_some hu] at this
    rwa [userKeys_createUser, he, List.append_assoc, List.singleton_append]
  slugs := hI.tail.slugs
  owned := by
    have := hI.owned
    rw [List.filterMap_cons_some hu] at this
    rwa [userKeys_createUser, he, List.append_assoc, List.singleton_append]
  found := hI.tail.found

theorem Reserved.insertTenant (hI : Reserved lower h (k :: ks)) (hs : k.pendingSlug = some slug)
    {entity : String → TenantEntity} (he : (entity (u.draw h.draws)).slug = slug) :
    Reserved lower (h.createTenant entity) ks where
  users := hI.tail.users
  slugs := by
    have := hI.slugs
    rw [List.filterMap_cons_some hs] at this
    rwa [slugs_createTenant, he, List.append_assoc, List.singleton_append]
  owned K hK := JsMap.mem_keys_set.mpr (Or.inr (hI.tail.owned K hK))
  found id hid := JsMap.mem_keys_set.mpr (Or.inr (hI.tail.found id hid))

theorem Reserved.not_mem_fresh (hI : Reserved lower h ks) (email : String) :
    (u.draw h.draws, email) ∉ h.userKeys lower ++ ks.filterMap (AuthCall.pendingUser lower) :=
  fun hK => h.tenants_issued.fresh le_rfl (hI.owned _ hK)

theorem Reserved.run (hI : Reserved lower h (k :: ks)) (hc : Clear lower ks k) (i : AuthInput) :
    Reserved lower ((authProgram lower u).run k i h).heap
      (((authProgram lower u).run k i h).waiting ++ ks) := by
  cases k with
  | registerUser dto ipAddress =>
    refine hI.tail.push rfl rfl fun id hid => ?_
    cases ht : h.tenants.get dto.tenantId with
    | none => rw [ht] at hid; cases hid
    | some tenant =>
      rw [ht] at hid
      cases hid
      exact JsMap.mem_keys_of_get ht
  | registerTenantFound dto ipAddress tenant =>
    cases tenant with
    | none => exact hI.tail
    | some tenant =>
      by_cases hact : tenant.isActive
      · simp only [authProgram, if_pos hact]
        cases hf : h.findByEmailAndTenant lower dto.email dto.tenantId with
        | some user => exact hI.tail.push rfl rfl fun id hid => by cases hid
        | none =>
          refine hI.tail.reserveUser rfl rfl rfl (findByEmailAndTenant_eq_none_iff.mp hf) ?_ ?_
          · exact hc.1 _ (if_pos hact)
          · exact hI.found _ (List.mem_filterMap.mpr ⟨_, List.mem_cons_self, rfl⟩)
      · simp only [authProgram, if_neg hact]
        exact hI.tail
  | registerLookedUp dto ipAddress existing =>
    cases existing with
    | some user => exact hI.tail
    | none => exact hI.replace rfl rfl rfl
  | registerHashed dto ipAddress =>
    simp only [authProgram]
    cases i.hash with
    | error text => exact hI.tail
    | ok passwordHash =>
      exact (hI.insertUser rfl rfl).push rfl rfl fun id hid => by cases hid
  | registerCreated user ipAddress =>
    have hrec : Reserved lower (h.record (user.registeredEntry ipAddress)) ks :=
      ⟨hI.tail.users, hI.tail.slugs, hI.tail.owned, hI.tail.found⟩
    exact hrec.push rfl rfl fun id hid => by cases hid
  | registerAudited user tokens => exact hI.tail
  | provisionTenant dto =>
    simp only [authProgram]
    cases hf : h.findBySlug dto.slug with
    | some tenant => exact hI.tail.push rfl rfl fun id hid => by cases hid
    | none =>
      exact hI.tail.reserveSlug rfl rfl rfl (findBySlug_eq_none_iff.mp hf) (hc.2 _ rfl)
  | provisionLookedUp dto existing =>
    cases existing with
    | some tenant => exact hI.tail
    | none =>
      -- the admin's tenant is new, so its email is free
      have hfree := fun hmem => hI.tail.not_mem_fresh (lower dto.adminEmail)
        (List.mem_append.mpr hmem)
      exact (hI.insertTenant rfl rfl).reserveUser rfl rfl rfl (fun hK => hfree (Or.inl hK))
        (fun hK => hfree (Or.inr hK)) (JsMap.mem_keys_set.mpr (Or.inl rfl))
  | provisionTenantCreated dto tenant => exact hI.replace rfl rfl rfl
  | provisionHashed dto tenant =>
    simp only [authProgram]
    cases i.hash with
    | error text => exact hI.tail
    | ok passwordHash =>
      exact (hI.insertUser rfl rfl).push rfl rfl fun id hid => by cases hid
  | provisionAdminCreated tenant adminUser => exact hI.tail

end Invariant

/-! ## Runs -/

theorem reserved_start (lower : String → String) (u : UuidSource) :
    Reserved lower (startConfig u).heap (startConfig u).inFlight where
  users := List.nodup_nil
  slugs := List.nodup_nil
  owned _ hK := absurd hK List.not_mem_nil
  found _ hid := absurd hid List.not_mem_nil

theorem Clear.mono {ks ks' : List AuthCall} {k : AuthCall} (h : Clear lower ks k)
    (hsub : ks' ⊆ ks) : Clear lower ks' k where
  left K hK hmem := by
    obtain ⟨k', hk', hp⟩ := List.mem_filterMap.mp hmem
    exact h.1 K hK (List.mem_filterMap.mpr ⟨k', hsub hk', hp⟩)
  right slug hslug hmem := by
    obtain ⟨k', hk', hp⟩ := List.mem_filterMap.mp hmem
    exact h.2 slug hslug (List.mem_filterMap.mpr ⟨k', hsub hk', hp⟩)

theorem Reserved.running {c : AuthConfig u} {a : Act AuthCall AuthInput} {k : AuthCall}
    {i : AuthInput} {rest : List AuthCall} (hI : Reserved lower c.heap c.inFlight)
    (hadm : Admitted c a) (hr : Runs c a k i rest) : Reserved lower c.heap (k :: rest) := by
  rcases hr.call_or_perm with ⟨rfl, rfl⟩ | hp
  · cases k with
    | registerUser dto ipAddress => exact hI.push rfl rfl fun id hid => by cases hid
    | provisionTenant dto => exact hI.push rfl rfl fun id hid => by cases hid
    | _ => exact absurd hadm id
  · exact hI.perm hp.symm

theorem exclusive_iff {c : AuthConfig u} {a : Act AuthCall AuthInput} {k : AuthCall}
    {i : AuthInput} {rest : List AuthCall} (hr : Runs c a k i rest) :
    Exclusive lower c a ↔ Clear lower c.inFlight k := by
  cases hr with
  | call => exact Iff.rfl
  | resume i hn => simp only [Exclusive, hn, Option.mem_some_iff, forall_eq']

theorem reach_reserved {c : AuthConfig u}
    (h : Reach (authProgram lower u) (ExclusiveStep lower) (startConfig u) c) :
    Reserved lower c.heap c.inFlight := by
  refine h.invariant (I := fun c => Reserved lower c.heap c.inFlight) (reserved_start lower u) ?_
  rintro c a k i rest hI ⟨hadm, hex⟩ hr
  have hc := ((exclusive_iff hr).mp hex).mono fun _ => hr.mem_rest
  exact ((hI.running hadm hr).run hc i).perm List.perm_append_comm

theorem Reserved.unique {h : AuthStores u} {ks : List AuthCall} (hI : Reserved lower h ks) :
    h.Unique lower :=
  ⟨hI.users.sublist (List.sublist_append_left _ _), hI.slugs.sublist (List.sublist_append_left _ _)⟩

/-! ## A lookup that is not clear -/

section Duplicate

variable {c d : AuthConfig u} {k k' : AuthCall} {l rest : List AuthCall} {K : String × String}
  {slug : String}

/-- The input of a segment whose hash succeeds. -/
def hashInput : AuthInput := ⟨.ok "$2b$12$", ⟨"access", "refresh", 900⟩⟩

theorem exists_continue (lower : String → String) (hp : c.inFlight.Perm (k :: l)) :
    ∃ d, Reach (authProgram lower u) Admitted c d ∧
      d.heap = ((authProgram lower u).run k hashInput c.heap).heap ∧
      d.inFlight.Perm (((authProgram lower u).run k hashInput c.heap).waiting ++ l) := by
  obtain ⟨n, d, hs, hheap, hflight⟩ := exists_resume (P := authProgram lower u) hp hashInput
  exact ⟨d, Reach.start.next (a := .resume n hashInput) trivial hs, hheap, hflight⟩

theorem exists_createUser (hp : c.inFlight.Perm (k :: l))
    (hrun : ((authProgram lower u).run k hashInput c.heap).heap.userKeys lower =
      c.heap.userKeys lower ++ [K]) :
    ∃ d l', Reach (authProgram lower u) Admitted c d ∧
      d.heap.userKeys lower = c.heap.userKeys lower ++ [K] ∧ d.inFlight.Perm (l' ++ l) := by
  obtain ⟨d, hreach, hheap, hflight⟩ := exists_continue lower hp
  exact ⟨d, _, hreach, by rw [hheap, hrun], hflight⟩

theorem exists_createUser_after (k' : AuthCall) (hp : c.inFlight.Perm (k :: l))
    (hhash : (authProgram lower u).run k hashInput c.heap = { heap := c.heap, waiting := [k'] })
    (hrun : ((authProgram lower u).run k' hashInput c.heap).heap.userKeys lower =
      c.heap.userKeys lower ++ [K]) :
    ∃ d l', Reach (authProgram lower u) Admitted c d ∧
      d.heap.userKeys lower = c.heap.userKeys lower ++ [K] ∧ d.inFlight.Perm (l' ++ l) := by
  obtain ⟨d, hreach, hheap, hflight⟩ := exists_continue lower hp
  rw [hhash] at hflight
  have hsame : d.heap = c.heap := by rw [hheap, hhash]
  rw [← hsame] at hrun ⊢
  obtain ⟨d', l', hreach', hkeys, hflight'⟩ := exists_createUser hflight hrun
  exact ⟨d', l', hreach.trans hreach', hkeys, hflight'⟩

/-- **A reserved user can be inserted**, whatever has happened meanwhile. -/
theorem exists_insertUser (hp : c.inFlight.Perm (k :: l)) (hk : k.pendingUser lower = some K) :
    ∃ d l', Reach (authProgram lower u) Admitted c d ∧
      d.heap.userKeys lower = c.heap.userKeys lower ++ [K] ∧ d.inFlight.Perm (l' ++ l) := by
  cases k with
  | registerHashed dto ipAddress =>
    cases hk
    exact exists_createUser hp (userKeys_createUser _ _)
  | provisionHashed dto tenant =>
    cases hk
    exact exists_createUser hp (userKeys_createUser _ _)
  | registerLookedUp dto ipAddress existing =>
    cases existing with
    | some user => cases hk
    | none =>
      cases hk
      exact exists_createUser_after (.registerHashed dto ipAddress) hp rfl
        (userKeys_createUser _ _)
  | provisionTenantCreated dto tenant =>
    cases hk
    exact exists_createUser_after (.provisionHashed dto tenant) hp rfl
      (userKeys_createUser _ _)
  | _ => cases hk

theorem exists_insertTenant (lower : String → String) (hp : c.inFlight.Perm (k :: l))
    (hk : k.pendingSlug = some slug) :
    ∃ d l', Reach (authProgram lower u) Admitted c d ∧ d.heap.slugs = c.heap.slugs ++ [slug] ∧
      d.inFlight.Perm (l' ++ l) := by
  obtain ⟨d, hreach, hheap, hflight⟩ := exists_continue lower hp
  cases k with
  | provisionLookedUp dto existing =>
    cases existing with
    | some tenant => cases hk
    | none =>
      cases hk
      exact ⟨d, _, hreach, by rw [hheap]; exact slugs_createTenant _ _, hflight⟩
  | _ => cases hk

theorem not_nodup_append_twice {A : Type} {l : List A} {a : A} : ¬ (l ++ [a] ++ [a]).Nodup := by
  intro h
  exact (List.nodup_append.mp h).2.2 a (List.mem_append_right l (List.mem_singleton_self a)) a
    (List.mem_singleton_self a) rfl

theorem exists_duplicate_user (hp : c.inFlight.Perm (k :: k' :: l))
    (hk : k.pendingUser lower = some K) (hk' : k'.pendingUser lower = some K) :
    ∃ d, Reach (authProgram lower u) Admitted c d ∧ ¬ d.heap.Unique lower := by
  obtain ⟨d, l', hreach, husers, hflight⟩ := exists_insertUser hp hk
  obtain ⟨d', -, hreach', husers', -⟩ :=
    exists_insertUser (hflight.trans List.perm_middle) hk'
  refine ⟨d', hreach.trans hreach', fun hu => ?_⟩
  rw [AuthStores.Unique, husers', husers] at hu
  exact not_nodup_append_twice hu.1

theorem exists_duplicate_slug (hp : c.inFlight.Perm (k :: k' :: l))
    (hk : k.pendingSlug = some slug) (hk' : k'.pendingSlug = some slug) :
    ∃ d, Reach (authProgram lower u) Admitted c d ∧ ¬ d.heap.Unique lower := by
  obtain ⟨d, l', hreach, hslugs, hflight⟩ := exists_insertTenant lower hp hk
  obtain ⟨d', -, hreach', hslugs', -⟩ :=
    exists_insertTenant lower (hflight.trans List.perm_middle) hk'
  refine ⟨d', hreach.trans hreach', fun hu => ?_⟩
  rw [AuthStores.Unique, hslugs', hslugs] at hu
  exact not_nodup_append_twice hu.2

theorem exists_pending {β : Type} {f : AuthCall → Option β} {b : β} {a : Act AuthCall AuthInput}
    {i : AuthInput} (hr : Runs c a k i rest) (hk : f k = none) (hb : b ∈ c.inFlight.filterMap f) :
    ∃ k' l, f k' = some b ∧ rest.Perm (k' :: l) := by
  obtain ⟨k', hk', hf⟩ := List.mem_filterMap.mp hb
  have hrest : k' ∈ rest := by
    rcases hr.call_or_perm with ⟨-, rfl⟩ | hp
    · exact hk'
    · rcases List.mem_cons.mp (hp.mem_iff.mpr hk') with rfl | hmem
      · rw [hk] at hf
        cases hf
      · exact hmem
  exact ⟨k', rest.erase k', hf, List.perm_cons_erase hrest⟩

theorem Reserved.exists_duplicate_of_user {a : Act AuthCall AuthInput} {i : AuthInput}
    (hI : Reserved lower c.heap c.inFlight) (hr : Runs c a k i rest)
    (hK : K ∈ k.looksUpUser lower) (hmem : K ∈ c.inFlight.filterMap (AuthCall.pendingUser lower)) :
    ∃ d, Reach (authProgram lower u) Admitted
      (c.after ((authProgram lower u).run k i c.heap) rest) d ∧ ¬ d.heap.Unique lower := by
  cases k with
  | registerTenantFound dto ipAddress tenant =>
    cases tenant with
    | none => cases hK
    | some tenant =>
      by_cases hact : tenant.isActive
      · obtain rfl : (dto.tenantId, lower dto.email) = K :=
          Option.some.inj ((if_pos hact).symm.trans hK)
        have hnone := findByEmailAndTenant_eq_none_iff.mpr fun hstored =>
          (List.nodup_append.mp hI.users).2.2 _ hstored _ hmem rfl
        obtain ⟨k', l, hk', hp⟩ := exists_pending (f := AuthCall.pendingUser lower) hr rfl hmem
        have hpair : (rest ++ [AuthCall.registerLookedUp dto ipAddress none]).Perm
            (.registerLookedUp dto ipAddress none :: k' :: l) :=
          (List.perm_append_singleton _ _).trans (hp.cons _)
        simp only [authProgram, if_pos hact, hnone]
        exact exists_duplicate_user hpair rfl hk'
      · rw [AuthCall.looksUpUser, if_neg hact] at hK
        cases hK
  | _ => cases hK

theorem Reserved.exists_duplicate_of_slug {a : Act AuthCall AuthInput} {i : AuthInput}
    (hI : Reserved lower c.heap c.inFlight) (hr : Runs c a k i rest)
    (hslug : slug ∈ k.looksUpSlug) (hmem : slug ∈ c.inFlight.filterMap AuthCall.pendingSlug) :
    ∃ d, Reach (authProgram lower u) Admitted
      (c.after ((authProgram lower u).run k i c.heap) rest) d ∧ ¬ d.heap.Unique lower := by
  cases k with
  | provisionTenant dto =>
    cases hslug
    have hnone := findBySlug_eq_none_iff.mpr fun hstored =>
      (List.nodup_append.mp hI.slugs).2.2 _ hstored _ hmem rfl
    obtain ⟨k', l, hk', hp⟩ := exists_pending hr rfl hmem
    have hpair : (rest ++ [AuthCall.provisionLookedUp dto none]).Perm
        (.provisionLookedUp dto none :: k' :: l) :=
      (List.perm_append_singleton _ _).trans (hp.cons _)
    simp only [authProgram, hnone]
    exact exists_duplicate_slug hpair rfl hk'
  | _ => cases hslug

theorem Reserved.exists_duplicate {c' : AuthConfig u} {a : Act AuthCall AuthInput}
    (hI : Reserved lower c.heap c.inFlight) (hex : ¬ Exclusive lower c a)
    (hs : (authProgram lower u).step c a = some c') :
    ∃ c'', Reach (authProgram lower u) Admitted c' c'' ∧ ¬ c''.heap.Unique lower := by
  obtain ⟨k, i, rest, hr, rfl⟩ := step_cases hs
  rw [exclusive_iff hr, Clear, not_and_or] at hex
  push Not at hex
  rcases hex with ⟨K, hK, hmem⟩ | ⟨slug, hslug, hmem⟩
  · exact hI.exists_duplicate_of_user hr hK hmem
  · exact hI.exists_duplicate_of_slug hr hslug hmem

end Duplicate

/-- **Accounts are unique** in every run whose lookups are clear, and the first lookup that is not
clear leads to a duplicate. -/
theorem unique_of_exclusive (lower : String → String) (u : UuidSource) :
    (∀ c, Reach (authProgram lower u) (ExclusiveStep lower) (startConfig u) c →
        c.heap.Unique lower) ∧
      ∀ c a c', Reach (authProgram lower u) (ExclusiveStep lower) (startConfig u) c →
        Admitted c a → ¬ Exclusive lower c a → (authProgram lower u).step c a = some c' →
        ∃ c'', Reach (authProgram lower u) Admitted c' c'' ∧ ¬ c''.heap.Unique lower :=
  ⟨fun _ h => (reach_reserved h).unique,
    fun _ _ _ h _ hex hs => (reach_reserved h).exists_duplicate hex hs⟩

/-! ## Two registrations of one email -/

section Overlapping

/-- `toLowerCase` of ASCII text. -/
def asciiLower (s : String) : String := String.ofList (s.toList.map Char.toLower)

/-- A tenant. -/
def acme : CreateTenantDTO where
  name := "Acme"
  slug := "acme"
  tier := .STARTER
  adminEmail := "root@example.com"
  adminPassword := "correct horse"
  adminFirstName := "Root"
  adminLastName := "Admin"

/-- Register an email with the tenant `id`. -/
def registration (email : String) : RegisterUserDTO where
  email := email
  password := "battery staple"
  firstName := "Ada"
  lastName := "Byron"
  tenantId := "id"
  roles := [.CUSTOMER]

/-- Provision the tenant, then register an email twice, the two lookups before the two inserts. -/
def overlappingRegistrations : List (Act AuthCall AuthInput) :=
  [.call (.provisionTenant acme) hashInput, .resume 0 hashInput, .resume 0 hashInput,
    .resume 0 hashInput, .resume 0 hashInput,
    .call (.registerUser (registration "ada@example.com") none) hashInput,
    .call (.registerUser (registration "Ada@example.com") none) hashInput,
    .resume 0 hashInput, .resume 0 hashInput, .resume 0 hashInput, .resume 0 hashInput,
    .resume 0 hashInput, .resume 0 hashInput, .resume 0 hashInput, .resume 0 hashInput,
    .resume 0 hashInput, .resume 0 hashInput]

/-- **Two requests register one email**: all have settled, and the tenant has two users with it. -/
theorem email_registered_twice :
    ∃ c, Reach (authProgram asciiLower .unary) Admitted (startConfig .unary) c ∧
      c.inFlight = [] ∧ c.settled.length = 3 ∧ ¬ c.heap.Unique asciiLower := by
  have hrun : ((authProgram asciiLower .unary).exec Admitted (startConfig .unary)
      overlappingRegistrations).any fun c => decide (c.inFlight = [] ∧ c.settled.length = 3 ∧
        ¬ c.heap.Unique asciiLower) := by decide
  exact Reach.exists_of_exec hrun

/-- One after the other: the second registration is rejected. -/
theorem unique_of_exclusive_acme :
    ∃ c, Reach (authProgram asciiLower .unary) (ExclusiveStep asciiLower) (startConfig .unary) c ∧
      c.inFlight = [] ∧ c.settled.length = 3 ∧ c.heap.Unique asciiLower := by
  have hrun : ((authProgram asciiLower .unary).exec (ExclusiveStep asciiLower)
      (startConfig .unary)
      [.call (.provisionTenant acme) hashInput, .resume 0 hashInput, .resume 0 hashInput,
        .resume 0 hashInput, .resume 0 hashInput,
        .call (.registerUser (registration "ada@example.com") none) hashInput,
        .resume 0 hashInput, .resume 0 hashInput, .resume 0 hashInput, .resume 0 hashInput,
        .resume 0 hashInput,
        .call (.registerUser (registration "Ada@example.com") none) hashInput,
        .resume 0 hashInput, .resume 0 hashInput]).any
      fun c => decide (c.inFlight = [] ∧ c.settled.length = 3) := by decide
  obtain ⟨c, hc, hq, hl⟩ := Reach.exists_of_exec hrun
  exact ⟨c, hc, hq, hl, (unique_of_exclusive asciiLower .unary).1 c hc⟩

end Overlapping

end Logix.Auth
