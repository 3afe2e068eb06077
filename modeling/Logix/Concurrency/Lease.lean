import Logix.Js.Double
import Logix.Js.Date
import Logix.Js.Map
import Logix.Spec.Machine

/-!
# Leases with fencing tokens

`DistributedLeaseLockManager` grants a resource to one owner until the grant expires. Each call of
`acquireLease` carries the clock that it reads. The end of a grant is computed, and is an invalid
date for a duration that is too long.

* `acquireLease`, `releaseLease`, `leaseMachine`: the code;
* `Grants`, `Ends`: what a call did to the lease of an owner;
* `Fenced`: the invariant, on the calls so far and the locks;
* **`lease_exclusive`**: where every grant ends at a valid date, an owner gets a resource only after
  the unfinished lease of another one has expired, and the tokens increase;
* `longLease_shared`: a lease that is too long excludes nobody.
-/

namespace Logix.Concurrency

open Spec

/-- `ILeaseLock`. -/
structure ILeaseLock where
  resourceKey : String
  ownerId : String
  fencingToken : ℕ
  grantedAt : JsDate
  expiresAt : Option JsDate
  deriving DecidableEq, Repr

/-- **`DistributedLeaseLockManager`.** -/
structure DistributedLeaseLockManager where
  locks : JsMap String ILeaseLock
  globalFencingSequence : ℕ

/-- The calls; `now` is the clock that `acquireLease` reads. -/
inductive LeaseCall where
  | acquireLease (resourceKey ownerId : String) (durationMs : Double) (now : JsDate)
  | releaseLease (resourceKey ownerId : String)
  deriving DecidableEq, Repr

/-- `{ isAcquired, lock }` of `acquireLease`, and the `boolean` of `releaseLease`. -/
inductive LeaseResult where
  | acquired (lock : Option ILeaseLock)
  | released (isReleased : Bool)
  deriving DecidableEq, Repr

/-- `new Date(now.getTime() + durationMs)`. -/
def endOf (durationMs : Double) (now : JsDate) : Option JsDate :=
  dateOf (Double.ofRat now + durationMs : Double)

namespace DistributedLeaseLockManager

/-- `new DistributedLeaseLockManager()`. -/
def new : DistributedLeaseLockManager := ⟨.empty, 1000⟩

/-- `existing && existing.expiresAt > now && existing.ownerId !== ownerId`. -/
def isTaken (m : DistributedLeaseLockManager) (resourceKey ownerId : String)
    (now : JsDate) : Bool :=
  (m.locks.get resourceKey).any fun existing =>
    dateLt (some now) existing.expiresAt && decide (existing.ownerId ≠ ownerId)

/-- The lock that `acquireLease` grants. -/
def newLock (m : DistributedLeaseLockManager) (resourceKey ownerId : String)
    (durationMs : Double) (now : JsDate) : ILeaseLock where
  resourceKey := resourceKey
  ownerId := ownerId
  fencingToken := m.globalFencingSequence + 1
  grantedAt := now
  expiresAt := endOf durationMs now

/-- **`acquireLease(resourceKey, ownerId, durationMs)`.** -/
def acquireLease (m : DistributedLeaseLockManager) (resourceKey ownerId : String)
    (durationMs : Double) (now : JsDate) : DistributedLeaseLockManager × Option ILeaseLock :=
  if m.isTaken resourceKey ownerId now then (m, none)
  else
    let lock := m.newLock resourceKey ownerId durationMs now
    (⟨m.locks.set resourceKey lock, m.globalFencingSequence + 1⟩, some lock)

/-- **`releaseLease(resourceKey, ownerId)`.** -/
def releaseLease (m : DistributedLeaseLockManager) (resourceKey ownerId : String) :
    DistributedLeaseLockManager × Bool :=
  match m.locks.get resourceKey with
  | none => (m, false)
  | some existing =>
    if existing.ownerId ≠ ownerId then (m, false)
    else ({ m with locks := m.locks.delete resourceKey }, true)

end DistributedLeaseLockManager

/-- The lease manager under its calls. -/
def leaseMachine : Machine DistributedLeaseLockManager LeaseCall LeaseResult where
  call
    | .acquireLease resourceKey ownerId durationMs now, m =>
      let (m', lock) := m.acquireLease resourceKey ownerId durationMs now
      (m', .acquired lock)
    | .releaseLease resourceKey ownerId, m =>
      let (m', isReleased) := m.releaseLease resourceKey ownerId
      (m', .released isReleased)

/-! ## What a call did -/

abbrev LeaseEvent := Event DistributedLeaseLockManager LeaseCall LeaseResult

/-- The clock that a call reads. -/
def LeaseCall.clock : LeaseCall → Option JsDate
  | .acquireLease _ _ _ now => some now
  | .releaseLease _ _ => none

/-- The lock that a call granted. -/
def LeaseResult.lock : LeaseResult → Option ILeaseLock
  | .acquired lock => lock
  | .released _ => none

/-- The call granted `resourceKey` to `ownerId` at time `now`. -/
def Grants (e : LeaseEvent) (resourceKey ownerId : String) (now : JsDate) (lock : ILeaseLock) :
    Prop :=
  ∃ durationMs, e.input = .acquireLease resourceKey ownerId durationMs now ∧
    e.result = .acquired (some lock)

/-- The call ended the lease of `ownerId` on `resourceKey`: a release, or another grant. -/
def Ends (resourceKey ownerId : String) (e : LeaseEvent) : Prop :=
  (e.input = .releaseLease resourceKey ownerId ∧ e.result = .released true) ∨
    ∃ now lock, Grants e resourceKey ownerId now lock

/-- Where the call finds the resource free, its grant ends at a valid date. -/
def EndsAtDate (e : LeaseEvent) : Prop :=
  ∀ resourceKey ownerId durationMs now, e.input = .acquireLease resourceKey ownerId durationMs now →
    e.before.isTaken resourceKey ownerId now = false → (endOf durationMs now).isSome

/-- **Mutual exclusion and fencing** in the record of a run. When `b` grants a resource to an owner,
the lease that `a` granted on it to another one, and that this one did not end since, has expired;
and the tokens increase from grant to grant. -/
structure LeasesExclude (es : List LeaseEvent) : Prop where
  expired : ∀ pre b post, es = pre ++ b :: post → ∀ a r ownerA ownerB tA tB lockA lockB,
    Since pre a (Ends r ownerA) → Grants a r ownerA tA lockA → Grants b r ownerB tB lockB →
      ownerA ≠ ownerB → dateLe lockA.expiresAt (some tB) = true
  increasing : (es.filterMap (·.result.lock)).Pairwise fun l l' => l.fencingToken < l'.fencingToken

section Events

open DistributedLeaseLockManager

variable {m : DistributedLeaseLockManager} {c : LeaseCall} {r owner : String} {t : JsDate}
  {lock existing : ILeaseLock}

theorem call_cases (m : DistributedLeaseLockManager) (c : LeaseCall) :
    (∃ result, leaseMachine.call c m = (m, result) ∧ result.lock = none) ∨
    (∃ r owner d t, c = .acquireLease r owner d t ∧ m.isTaken r owner t = false ∧
      leaseMachine.call c m =
        (⟨m.locks.set r (m.newLock r owner d t), m.globalFencingSequence + 1⟩,
          .acquired (some (m.newLock r owner d t)))) ∨
    ∃ r existing, c = .releaseLease r existing.ownerId ∧ m.locks.get r = some existing ∧
      leaseMachine.call c m = ({ m with locks := m.locks.delete r }, .released true) := by
  cases c with
  | acquireLease r owner d t =>
    cases h : m.isTaken r owner t with
    | true =>
      refine Or.inl ⟨.acquired none, ?_, rfl⟩
      simp [leaseMachine, acquireLease, h]
    | false =>
      refine Or.inr (Or.inl ⟨r, owner, d, t, rfl, h, ?_⟩)
      simp [leaseMachine, acquireLease, h]
  | releaseLease r owner =>
    cases hg : m.locks.get r with
    | none =>
      refine Or.inl ⟨.released false, ?_, rfl⟩
      simp [leaseMachine, releaseLease, hg]
    | some existing =>
      by_cases ho : existing.ownerId = owner
      · subst ho
        refine Or.inr (Or.inr ⟨r, existing, rfl, hg, ?_⟩)
        simp [leaseMachine, releaseLease, hg]
      · refine Or.inl ⟨.released false, ?_, rfl⟩
        simp [leaseMachine, releaseLease, hg, ho]

theorem not_isTaken_of_grants (h : Grants (leaseMachine.event m c) r owner t lock) :
    m.isTaken r owner t = false := by
  obtain ⟨d, hi, hr⟩ := h
  change c = _ at hi
  change (leaseMachine.call c m).2 = _ at hr
  rcases call_cases m c with ⟨result, hc, hn⟩ | ⟨r', owner', d', t', rfl, hfree, -⟩ |
    ⟨r', existing, rfl, -, -⟩
  · rw [hc] at hr
    subst hr
    exact absurd hn (by simp [LeaseResult.lock])
  · cases hi
    exact hfree
  · cases hi

theorem expiresAt_le_of_not_isTaken (h : m.isTaken r owner t = false)
    (hg : m.locks.get r = some existing) (hne : existing.ownerId ≠ owner)
    (hdate : existing.expiresAt.isSome) : dateLe existing.expiresAt (some t) = true := by
  rw [isTaken, hg] at h
  obtain ⟨expiresAt, he⟩ := Option.isSome_iff_exists.mp hdate
  rw [he]
  simpa [he, hne, dateLt, dateLe] using h

end Events

/-! ## The invariant -/

/-- The clock has reached the end of the lock. -/
def Expired (es : List LeaseEvent) (lock : ILeaseLock) : Prop :=
  ∃ e ∈ es, ∃ now, e.input.clock = some now ∧ dateLe lock.expiresAt (some now) = true

/-- **The invariant**, on the calls so far and the locks. A lease that its owner did not end is
still the lock of its resource, unless the clock has reached its end. -/
structure Fenced (es : List LeaseEvent) (m : DistributedLeaseLockManager) : Prop where
  held : ∀ a r owner t lock, Since es a (Ends r owner) → Grants a r owner t lock →
    (m.locks.get r = some lock ∧ lock.ownerId = owner) ∨ Expired es lock
  increasing : (es.filterMap (·.result.lock)).Pairwise fun l l' => l.fencingToken < l'.fencingToken
  bounded : ∀ l ∈ es.filterMap (·.result.lock), l.fencingToken ≤ m.globalFencingSequence
  dated : ∀ r lock, m.locks.get r = some lock → lock.expiresAt.isSome

section Invariant

variable {es : List LeaseEvent} {m : DistributedLeaseLockManager} {e : LeaseEvent}
  {lock : ILeaseLock}

theorem Expired.append (h : Expired es lock) (e : LeaseEvent) : Expired (es ++ [e]) lock := by
  obtain ⟨e', he', h⟩ := h
  exact ⟨e', List.mem_append_left _ he', h⟩

theorem fenced_nil : Fenced [] .new where
  held _ _ _ _ _ hs := absurd hs not_since_nil
  increasing := List.Pairwise.nil
  bounded _ hl := absurd hl List.not_mem_nil
  dated _ _ hg := by cases hg

theorem filterMap_lock_of_none (h : e.result.lock = none) :
    (es ++ [e]).filterMap (·.result.lock) = es.filterMap (·.result.lock) := by
  simp [h]

theorem Fenced.refused (h : Fenced es m) (he : e.result.lock = none) : Fenced (es ++ [e]) m where
  held a r owner t lock hs ha := by
    rcases since_concat_iff.mp hs with rfl | ⟨hs, -⟩
    · obtain ⟨d, -, hr⟩ := ha
      rw [hr] at he
      exact absurd he (by simp [LeaseResult.lock])
    · exact (h.held a r owner t lock hs ha).imp_right (·.append e)
  increasing := by
    rw [filterMap_lock_of_none he]
    exact h.increasing
  bounded := by
    rw [filterMap_lock_of_none he]
    exact h.bounded
  dated := h.dated

/-- **A grant** to one owner lets every other lease of the resource be over. -/
theorem Fenced.granted {r owner : String} {d : Double} {t : JsDate} (h : Fenced es m)
    (hfree : m.isTaken r owner t = false) (hdate : (endOf d t).isSome)
    (hi : e.input = .acquireLease r owner d t)
    (hr : e.result = .acquired (some (m.newLock r owner d t))) :
    Fenced (es ++ [e]) ⟨m.locks.set r (m.newLock r owner d t), m.globalFencingSequence + 1⟩ where
  held a r' owner' t' lock hs ha := by
    rcases since_concat_iff.mp hs with rfl | ⟨hs, hne⟩
    · obtain ⟨d', hi', hr'⟩ := ha
      rw [hi] at hi'
      rw [hr] at hr'
      cases hi'
      cases hr'
      exact Or.inl ⟨JsMap.get_set_self _ _ _, rfl⟩
    · rcases h.held a r' owner' t' lock hs ha with ⟨hg, ho⟩ | hx
      · by_cases hrr : r' = r
        · subst hrr
          have hoo : lock.ownerId ≠ owner := by
            rw [ho]
            rintro rfl
            exact hne (Or.inr ⟨t, _, d, hi, hr⟩)
          refine Or.inr ⟨e, by simp, t, by rw [hi]; rfl, ?_⟩
          exact expiresAt_le_of_not_isTaken hfree hg hoo (h.dated _ _ hg)
        · exact Or.inl ⟨(JsMap.get_set_ne hrr _).trans hg, ho⟩
      · exact Or.inr (hx.append e)
  increasing := by
    rw [List.filterMap_append, List.pairwise_append]
    refine ⟨h.increasing, by simp [hr, LeaseResult.lock], fun l hl l' hl' => ?_⟩
    obtain rfl : l' = m.newLock r owner d t := by simpa [hr, LeaseResult.lock] using hl'
    exact Nat.lt_succ_of_le (h.bounded l hl)
  bounded := by
    intro l hl
    rw [List.filterMap_append] at hl
    rcases List.mem_append.mp hl with hl | hl
    · exact Nat.le_succ_of_le (h.bounded l hl)
    · obtain rfl : l = m.newLock r owner d t := by simpa [hr, LeaseResult.lock] using hl
      exact Nat.le_refl _
  dated r' lock hg := by
    rw [JsMap.get_set] at hg
    split_ifs at hg with hr'
    · obtain rfl := Option.some.inj hg
      exact hdate
    · exact h.dated r' lock hg

theorem Fenced.released {r : String} {existing : ILeaseLock} (h : Fenced es m)
    (hg : m.locks.get r = some existing) (hi : e.input = .releaseLease r existing.ownerId)
    (hr : e.result = .released true) :
    Fenced (es ++ [e]) { m with locks := m.locks.delete r } where
  held a r' owner' t' lock hs ha := by
    rcases since_concat_iff.mp hs with rfl | ⟨hs, hne⟩
    · obtain ⟨d', -, hr'⟩ := ha
      rw [hr] at hr'
      cases hr'
    · rcases h.held a r' owner' t' lock hs ha with ⟨hg', ho⟩ | hx
      · have hrr : r' ≠ r := by
          rintro rfl
          obtain rfl := Option.some.inj (hg.symm.trans hg')
          exact hne (Or.inl ⟨ho ▸ hi, hr⟩)
        refine Or.inl ⟨?_, ho⟩
        rw [JsMap.get_delete, if_neg hrr, hg']
      · exact Or.inr (hx.append e)
  increasing := by
    rw [filterMap_lock_of_none (by rw [hr]; rfl)]
    exact h.increasing
  bounded := by
    rw [filterMap_lock_of_none (by rw [hr]; rfl)]
    exact h.bounded
  dated r' lock hg' := by
    rw [JsMap.get_delete] at hg'
    split_ifs at hg'
    exact h.dated r' lock hg'

theorem Fenced.next (h : Fenced es m) (c : LeaseCall) (hc : EndsAtDate (leaseMachine.event m c)) :
    Fenced (es ++ [leaseMachine.event m c]) (leaseMachine.next m c) := by
  unfold Machine.event Machine.next
  rcases call_cases m c with ⟨result, hcall, hr⟩ | ⟨r, owner, d, t, rfl, hfree, hcall⟩ |
    ⟨r, existing, rfl, hg, hcall⟩
  · rw [hcall]
    exact h.refused hr
  · rw [hcall]
    exact h.granted hfree (hc r owner d t rfl hfree) rfl rfl
  · rw [hcall]
    exact h.released hg rfl rfl

end Invariant

/-! ## Runs -/

theorem fenced_run (calls : List LeaseCall)
    (hdate : ∀ e ∈ leaseMachine.history .new calls, EndsAtDate e) :
    Fenced (leaseMachine.history .new calls) (leaseMachine.run .new calls) :=
  Machine.history_invariant fenced_nil (fun _ _ c h hc => h.next c hc) calls hdate

/-- **Where every grant ends at a valid date, leases exclude each other.** -/
theorem lease_exclusive (calls : List LeaseCall)
    (hclock : (calls.filterMap LeaseCall.clock).Pairwise (· ≤ ·))
    (hdate : ∀ e ∈ leaseMachine.history .new calls, EndsAtDate e) :
    LeasesExclude (leaseMachine.history .new calls) := by
  refine ⟨?_, (fenced_run calls hdate).increasing⟩
  intro pre b post h a r ownerA ownerB tA tB lockA lockB hs ha hb hne
  obtain ⟨js, c, ks, rfl, rfl, rfl⟩ := Machine.exists_of_history_eq h
  have hfenced := fenced_run js fun e he => hdate e (h ▸ List.mem_append_left _ he)
  rcases hfenced.held a r ownerA tA lockA hs ha with ⟨hg, ho⟩ | ⟨e, he, now, hnow, hle⟩
  · have hfree := not_isTaken_of_grants hb
    exact expiresAt_le_of_not_isTaken hfree hg (by rwa [ho]) (hfenced.dated _ _ hg)
  · obtain ⟨d, hi, -⟩ := hb
    rw [List.filterMap_append, List.pairwise_append] at hclock
    have hmem := Machine.input_mem_of_mem_history he
    have hlater : now ≤ tB := by
      refine hclock.2.2 now (List.mem_filterMap.mpr ⟨_, hmem, hnow⟩) tB ?_
      exact List.mem_filterMap.mpr ⟨c, List.mem_cons_self, congrArg LeaseCall.clock hi⟩
    obtain ⟨x, y, hx, hy, hxy⟩ := dateLe_iff.mp hle
    cases hy
    exact dateLe_iff.mpr ⟨x, tB, hx, rfl, hxy.trans hlater⟩

/-- "B" gets the resource at the very end of the lease of "A". -/
theorem lease_exclusive_at_expiry :
    LeasesExclude (leaseMachine.history .new
      [.acquireLease "disk" "A" 5000 0, .acquireLease "disk" "B" 5000 5000]) := by
  refine lease_exclusive _ (by decide) ?_
  simp only [Machine.history, List.forall_mem_cons]
  refine ⟨?_, ?_, by simp⟩
  · rintro r owner d now ⟨⟩ -
    decide +kernel
  · rintro r owner d now ⟨⟩ -
    decide +kernel

/-- **A lease without an end.** "A" leases the resource for `2 ^ 53 - 1` milliseconds, and "B" gets
it a millisecond later. -/
theorem longLease_shared :
    ¬ LeasesExclude (leaseMachine.history .new
      [.acquireLease "disk" "A" 9007199254740991 0, .acquireLease "disk" "B" 5000 1]) := by
  intro h
  have hle := h.expired [_] _ [] rfl _ "disk" "A" "B" 0 1 _ ⟨"disk", "B", 1002, 1, some 5001⟩
    ⟨[], [], rfl, by simp⟩ ⟨9007199254740991, rfl, rfl⟩ ⟨5000, rfl, by decide +kernel⟩ (by decide)
  revert hle
  decide +kernel

end Logix.Concurrency
