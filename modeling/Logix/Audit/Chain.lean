import Logix.Audit.Model
import Logix.Spec.Chain
import Mathlib.Data.List.Induction

/-!
# What the audit chain commits to

The hash of an event is computed from the first half of the previous hash, so the hashes of a log
are the fixed sequence `link 0`, `link 1`, … whatever its events say, and from `link 7` on they
are all equal.

* `payloadHash_eq`, `linked_history`: the hashes of every history are the links;
* `Edit`, `Edit.Breaks`: the changes of a stored log, and those that the links show;
* **`verifyChainIntegrity_edit_iff`**: verification fails exactly on the edits that break a link,
  which are the deletions and swaps among the first events;
* **`lastHash_eq_of_length_eq`**: logs of equal length have the same last hash.
-/

namespace Logix.Audit

open SecurityAuditEventLogger

/-! ## The links -/

/-- The hash that follows `h`: the hexadecimal digits of its first 32 units. -/
def nextHash (h : JsString) : JsString := toHex ((h.take 32).map UInt16.toUInt8)

/-- The hash after `n` events. -/
def link (n : ℕ) : JsString := nextHash^[n] genesis

theorem link_succ (n : ℕ) : link (n + 1) = nextHash (link n) :=
  Function.iterate_succ_apply' nextHash n genesis

/-- A hash is 64 ASCII units. -/
def IsHash (h : JsString) : Prop := h.length = 64 ∧ IsAscii h

theorem isHash_nextHash {h : JsString} (hh : IsHash h) : IsHash (nextHash h) := by
  refine ⟨?_, isAscii_toHex _⟩
  rw [nextHash, length_toHex, List.length_map, List.length_take, hh.1]
  rfl

theorem isHash_link (n : ℕ) : IsHash (link n) := by
  induction n with
  | zero =>
    refine ⟨rfl, fun c hc => ?_⟩
    rw [List.eq_of_mem_replicate hc]
    decide
  | succ n ih =>
    rw [link_succ]
    exact isHash_nextHash ih

/-- **The cut at 64 digits keeps nothing of an event**: only the first half of the previous hash
is left. -/
theorem payloadHash_eq {h : JsString} (hh : IsHash h) (body : JsString) :
    payloadHash (h ++ body) = nextHash h := by
  have hlen : (toHex (h.map UInt16.toUInt8)).length = 128 := by
    rw [length_toHex, List.length_map, hh.1]
  have hcut : (toHex (h.map UInt16.toUInt8)).take 64 = nextHash h := by
    rw [nextHash, List.map_take]
    exact take_toHex _ 32
  rw [payloadHash, toHex_bufferFrom_append hh.2]
  change (padEnd (toHex (h.map UInt16.toUInt8) ++ _) 64 _).take 64 = nextHash h
  rw [padEnd, List.append_assoc, List.take_append_of_le_length (by omega), hcut]

theorem link_eq_link_seven {n : ℕ} (h : 7 ≤ n) : link n = link 7 := by
  induction n, h using Nat.le_induction with
  | base => rfl
  | succ n _ ih =>
    rw [link_succ, ih]
    decide

theorem link_succ_eq_iff (n : ℕ) : link (n + 1) = link n ↔ 7 ≤ n := by
  constructor
  · intro h
    by_contra hn
    have hall : ∀ m < 7, link (m + 1) ≠ link m := by decide
    exact hall n (by omega) h
  · intro h
    rw [link_eq_link_seven h, link_eq_link_seven (by omega : 7 ≤ n + 1)]

/-! ## Histories -/

/-- The events carry the links. -/
abbrev EventsLinked : ℕ → List ISecurityAuditEvent → Prop :=
  Chain.Linked ISecurityAuditEvent.previousHash ISecurityAuditEvent.currentHash link

/-- **Every history is linked**, and its last hash is the link at its length. -/
theorem linked_history (calls : List LogEventCall) : EventsLinked 0 (history calls).events ∧
    (history calls).events.length = calls.length ∧
    (history calls).lastHash = link calls.length := by
  induction calls using List.reverseRecOn with
  | nil => exact ⟨trivial, rfl, rfl⟩
  | append_singleton calls a ih =>
    obtain ⟨hl, hlen, hlast⟩ := ih
    have hcur : ((history calls).newEvent a).currentHash = link (calls.length + 1) := by
      rw [newEvent, hlast, payloadHash_eq (isHash_link _), link_succ]
    have hhist : history (calls ++ [a]) = (history calls).logEvent a := List.foldl_concat ..
    rw [hhist, logEvent, List.length_append, List.length_append, hlen]
    refine ⟨hl.append ?_ ?_, rfl, hcur⟩
    · rw [hlen, Nat.zero_add]
      exact hlast
    · rw [hlen, Nat.zero_add]
      exact hcur

theorem verifyLoop_eq (h : JsString) (es : List ISecurityAuditEvent) :
    verifyLoop h es = Chain.verifyFrom ISecurityAuditEvent.previousHash
      ISecurityAuditEvent.currentHash h es := by
  induction es generalizing h with
  | nil => rfl
  | cons e es ih =>
    rw [verifyLoop, Chain.verifyFrom, ih]
    by_cases he : e.previousHash = h <;> simp [he]

/-! ## Edits of a stored log -/

/-- A change of one field of a stored event, other than its hashes. -/
inductive FieldChange where
  | tenantId (v : JsString)
  | actorUserId (v : JsString)
  | actorIp (v : JsString)
  | action (v : AuditAction)
  | targetResource (v : JsString)
  | timestamp (v : JsDate)
  deriving DecidableEq, Repr

/-- The changed event. -/
def FieldChange.apply (c : FieldChange) (e : ISecurityAuditEvent) : ISecurityAuditEvent :=
  match c with
  | .tenantId v => { e with tenantId := v }
  | .actorUserId v => { e with actorUserId := v }
  | .actorIp v => { e with actorIp := v }
  | .action v => { e with action := v }
  | .targetResource v => { e with targetResource := v }
  | .timestamp v => { e with timestamp := v }

/-- **An edit of a log of `n` events**: change a field, delete an event that is not the last, or
swap two adjacent events. -/
inductive Edit (n : ℕ) where
  | field (i : Fin n) (c : FieldChange)
  | delete (i : ℕ) (h : i + 1 < n)
  | swap (i : ℕ) (h : i + 1 < n)

/-- The edited log. -/
def SecurityAuditEventLogger.edit {n : ℕ} (l : SecurityAuditEventLogger) :
    Edit n → SecurityAuditEventLogger
  | .field i c => { l with events := l.events.modify i c.apply }
  | .delete i _ => { l with events := l.events.eraseIdx i }
  | .swap i _ => { l with events := Chain.swapAt i l.events }

/-- The edits that move an event across two different links. -/
def Edit.Breaks {n : ℕ} : Edit n → Prop
  | .field _ _ => False
  | .delete i _ => i < 7
  | .swap i _ => i < 7

/-- **What verification detects**: of all edits of a history, exactly the deletions and swaps at
one of the first seven events. -/
theorem verifyChainIntegrity_edit_iff (calls : List LogEventCall) (ed : Edit calls.length) :
    ((history calls).edit ed).verifyChainIntegrity = false ↔ ed.Breaks := by
  obtain ⟨hl, hlen, -⟩ := linked_history calls
  rw [verifyChainIntegrity, verifyLoop_eq, ← Bool.not_eq_true, show genesis = link 0 from rfl]
  cases ed with
  | field i c =>
    have hp : ∀ e, (c.apply e).previousHash = e.previousHash := fun e => by cases c <;> rfl
    have hc : ∀ e, (c.apply e).currentHash = e.currentHash := fun e => by cases c <;> rfl
    simp only [edit, Chain.verifyFrom_modify hp hc, Chain.verifyFrom_iff hl, or_true, Edit.Breaks,
      not_true]
  | delete i h =>
    simp only [edit, Edit.Breaks]
    rw [Chain.verifyFrom_eraseIdx_iff hl (by omega), Nat.zero_add, link_succ_eq_iff, not_le]
  | swap i h =>
    simp only [edit, Edit.Breaks]
    rw [Chain.verifyFrom_swapAt_iff hl (by omega), Nat.zero_add, link_succ_eq_iff, ← not_le]
    refine not_congr ⟨And.left, fun h7 => ⟨h7, ?_⟩⟩
    rw [link_eq_link_seven h7, link_eq_link_seven (by omega : 7 ≤ i + 2)]

/-- One login at the epoch. -/
def loginOf (tenantId : String) : LogEventCall where
  tenantId := js tenantId
  actorUserId := js "user-1"
  actorIp := js "10.0.0.1"
  action := .LOGIN_SUCCESS
  targetResource := js "session"
  dateNow := 0
  random := js "0.k3f9"
  now := 0

/-- **A changed tenant goes unnoticed.** -/
theorem undetected_tenant_change :
    ((history [loginOf "T-1"]).edit (.field (0 : Fin 1) (.tenantId (js "T-2")))).events ≠
      (history [loginOf "T-1"]).events ∧
    ((history [loginOf "T-1"]).edit (.field (0 : Fin 1) (.tenantId (js "T-2")))).verifyChainIntegrity
      = true := by
  decide

/-! ## The last hash -/

/-- **The last hash is a function of the number of events.** -/
theorem lastHash_eq_of_length_eq (calls calls' : List LogEventCall)
    (h : calls.length = calls'.length) : (history calls).lastHash = (history calls').lastHash := by
  rw [(linked_history calls).2.2, (linked_history calls').2.2, h]

/-- Two events of one tenant end in the hash of two events of two tenants. -/
theorem lastHash_two_events :
    (history [loginOf "T-1", loginOf "T-1"]).lastHash =
      (history [loginOf "T-1", loginOf "T-2"]).lastHash :=
  lastHash_eq_of_length_eq _ _ (by simp)

/-- **Different tenants, one hash.** -/
theorem lastHash_collision :
    (history [loginOf "T-1"]).events.map ISecurityAuditEvent.tenantId ≠
      (history [loginOf "T-2"]).events.map ISecurityAuditEvent.tenantId ∧
    (history [loginOf "T-1"]).lastHash = (history [loginOf "T-2"]).lastHash := by
  decide

end Logix.Audit
