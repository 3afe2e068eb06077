import Mathlib.Data.Int.Notation
import Logix.Js.Map
import Logix.Spec.Clock

/-!
# The request limiter of the gateway

`InMemoryRateLimiter` counts the requests of a client in windows of fixed length; a timer deletes
the windows that are over. A time is its number of milliseconds.

* `middleware`, `cleanup`, `limiterMachine`: the code;
* `live`: the record that a request sees, which a cleanup does not change;
* `Phase`: how far the windows of a client have come through an interval;
* **`middleware_cleanup_and_bound`**: a cleanup changes no response, and an interval of the length
  of a window has at most two windows' worth of accepted requests.
-/

namespace Logix.Gateway

open Spec

/-- `RateLimitExceededException`. -/
structure RateLimitExceededException where
  limit : ℤ
  windowSeconds : ℤ
  deriving DecidableEq, Repr

namespace RateLimitExceededException

/-- `message`. -/
def message (e : RateLimitExceededException) : String :=
  s!"API rate limit exceeded. Max {e.limit} requests per {e.windowSeconds} seconds allowed."

/-- `statusCode`. -/
def statusCode (_ : RateLimitExceededException) : ℕ := 429

/-- `code`. -/
def code (_ : RateLimitExceededException) : String := "RATE_LIMIT_EXCEEDED"

end RateLimitExceededException

/-- `RateLimitRecord`. -/
structure RateLimitRecord where
  count : ℕ
  resetTime : ℤ
  deriving DecidableEq, Repr

/-- **`InMemoryRateLimiter`.** -/
structure InMemoryRateLimiter where
  windowMs : ℤ
  maxRequests : ℤ
  hits : JsMap String RateLimitRecord

/-- What the middleware reads of a request. -/
structure ClientRequest where
  /-- `req.headers['x-forwarded-for']`. -/
  forwardedFor : Option String
  /-- `req.socket.remoteAddress`. -/
  remoteAddress : Option String
  deriving DecidableEq, Repr

/-- `a || b` on strings that may be missing. -/
def truthyOr (a : Option String) (b : String) : String := (a.filter (· ≠ "")).getD b

/-- `clientIp`. -/
def ClientRequest.clientIp (req : ClientRequest) : String :=
  truthyOr req.forwardedFor (truthyOr req.remoteAddress "unknown-ip")

/-- The key of a client in `hits`. -/
def rateLimitKey (clientIp : String) : String := "rate_limit:" ++ clientIp

/-- The headers that the middleware sets, and the exception that it throws in place of calling
`next()`. -/
structure LimiterResponse where
  rateLimitLimit : ℤ
  rateLimitRemaining : ℤ
  rateLimitReset : ℤ
  thrown : Option RateLimitExceededException
  deriving DecidableEq, Repr

/-- The record of a client after a request at the time `now`. -/
def nextRecord (windowMs : ℤ) (record : Option RateLimitRecord) (now : ℤ) : RateLimitRecord :=
  match record with
  | none => ⟨1, now + windowMs⟩
  | some record =>
    if record.resetTime < now then ⟨1, now + windowMs⟩ else { record with count := record.count + 1 }

namespace InMemoryRateLimiter

/-- `new InMemoryRateLimiter(windowMs, maxRequests)`. -/
def new (windowMs maxRequests : ℤ) : InMemoryRateLimiter := ⟨windowMs, maxRequests, .empty⟩

/-- The answer to a request whose record is `record`. `⌊(n + 500) / 1000⌋` is
`Math.round(n / 1000)`. -/
def respond (l : InMemoryRateLimiter) (record : RateLimitRecord) : LimiterResponse where
  rateLimitLimit := l.maxRequests
  rateLimitRemaining := max 0 (l.maxRequests - record.count)
  rateLimitReset := -(-record.resetTime / 1000)
  thrown :=
    if l.maxRequests < record.count then some ⟨l.maxRequests, (l.windowMs + 500) / 1000⟩ else none

/-- **`middleware()`**, for a request at the time `now`. -/
def middleware (l : InMemoryRateLimiter) (req : ClientRequest) (now : ℤ) :
    InMemoryRateLimiter × LimiterResponse :=
  let key := rateLimitKey req.clientIp
  let record := nextRecord l.windowMs (l.hits.get key) now
  ({ l with hits := l.hits.set key record }, l.respond record)

/-- **`cleanup()`** at the time `now`. -/
def cleanup (l : InMemoryRateLimiter) (now : ℤ) : InMemoryRateLimiter :=
  { l with
    hits := l.hits.entries.foldl
      (fun hits entry => if entry.2.resetTime < now then hits.delete entry.1 else hits) l.hits }

end InMemoryRateLimiter

/-- A request, or a tick of the timer. -/
inductive LimiterCall where
  | middleware (req : ClientRequest) (now : ℤ)
  | cleanup (now : ℤ)
  deriving DecidableEq, Repr

/-- The clock that a call reads. -/
def LimiterCall.now : LimiterCall → ℤ
  | .middleware _ now | .cleanup now => now

def LimiterCall.isRequest : LimiterCall → Bool
  | .middleware _ _ => true
  | .cleanup _ => false

/-- The limiter under its calls. -/
def limiterMachine : Machine InMemoryRateLimiter LimiterCall (Option LimiterResponse) where
  call
    | .middleware req now, l =>
      let (l', response) := l.middleware req now
      (l', some response)
    | .cleanup now, l => (l.cleanup now, none)

abbrev LimiterEvent := Event InMemoryRateLimiter LimiterCall (Option LimiterResponse)

/-- The client of a request. -/
def LimiterCall.client : LimiterCall → Option String
  | .middleware req _ => some req.clientIp
  | .cleanup _ => none

/-- A request of `client` that was accepted: the middleware went on to `next()`. -/
def Accepts (client : String) (e : LimiterEvent) : Prop :=
  e.input.client = some client ∧ e.result.any (·.thrown.isNone) = true

instance (client : String) : DecidablePred (Accepts client) := fun _ =>
  inferInstanceAs (Decidable (_ ∧ _))

/-! ## What a request sees -/

/-- The record of a key, unless it is over at the time `t`. -/
def live (l : InMemoryRateLimiter) (key : String) (t : ℤ) : Option RateLimitRecord :=
  (l.hits.get key).filter fun record => t ≤ record.resetTime

/-- The two limiters cannot be told apart at the time `t`. -/
structure SameAt (t : ℤ) (l l' : InMemoryRateLimiter) : Prop where
  windowMs_eq : l.windowMs = l'.windowMs
  maxRequests_eq : l.maxRequests = l'.maxRequests
  live_eq : ∀ key, live l key t = live l' key t

section Live

variable {l l' : InMemoryRateLimiter} {key client : String} {req : ClientRequest} {now t : ℤ}

theorem rateLimitKey_injective : Function.Injective rateLimitKey := fun a b h => by
  have htoList := congrArg String.toList h
  simp only [rateLimitKey, String.toList_append, List.append_cancel_left_eq] at htoList
  exact String.toList_inj.mp htoList

theorem nextRecord_filter (windowMs : ℤ) (record : Option RateLimitRecord) (now : ℤ) :
    nextRecord windowMs (record.filter fun record => now ≤ record.resetTime) now =
      nextRecord windowMs record now := by
  cases record with
  | none => rfl
  | some record =>
    by_cases h : now ≤ record.resetTime
    · simp [Option.filter, h]
    · simp [Option.filter, nextRecord, h, not_le.mp h]

theorem get_cleanup (l : InMemoryRateLimiter) (now : ℤ) (key : String) :
    (l.cleanup now).hits.get key =
      (l.hits.get key).filter fun record => now ≤ record.resetTime := by
  have hfold := JsMap.get_foldl_delete (fun record => record.resetTime < now) l.hits key
  simp only [not_lt] at hfold
  exact hfold

theorem live_cleanup (h : now ≤ t) : live (l.cleanup now) key t = live l key t := by
  rw [live, live, get_cleanup, Option.filter_filter]
  refine congrArg (Option.filter · _) (funext fun record => ?_)
  by_cases ht : t ≤ record.resetTime
  · simp [ht, h.trans ht]
  · simp [ht]

theorem middleware_snd (l : InMemoryRateLimiter) (req : ClientRequest) (now : ℤ) :
    (l.middleware req now).2 =
      l.respond (nextRecord l.windowMs (live l (rateLimitKey req.clientIp) now) now) := by
  rw [live, nextRecord_filter]
  rfl

theorem live_middleware (l : InMemoryRateLimiter) (req : ClientRequest) (now t : ℤ) (key : String) :
    live (l.middleware req now).1 key t =
      if key = rateLimitKey req.clientIp then
        (some (nextRecord l.windowMs (live l key now) now)).filter fun record => t ≤ record.resetTime
      else live l key t := by
  unfold live InMemoryRateLimiter.middleware
  split_ifs with hk
  · subst hk
    rw [JsMap.get_set_self, nextRecord_filter]
  · rw [JsMap.get_set_ne hk]

theorem SameAt.snd_eq (h : SameAt now l l') (req : ClientRequest) :
    (l.middleware req now).2 = (l'.middleware req now).2 := by
  rw [middleware_snd, middleware_snd, h.live_eq, h.windowMs_eq]
  simp only [InMemoryRateLimiter.respond, h.maxRequests_eq, h.windowMs_eq]

theorem SameAt.middleware (h : SameAt now l l') (ht : SameAt t l l') (req : ClientRequest) :
    SameAt t (l.middleware req now).1 (l'.middleware req now).1 where
  windowMs_eq := h.windowMs_eq
  maxRequests_eq := h.maxRequests_eq
  live_eq key := by
    rw [live_middleware, live_middleware, h.live_eq, ht.live_eq, h.windowMs_eq]

theorem SameAt.cleanup (h : SameAt t l l') (hnow : now ≤ t) : SameAt t (l.cleanup now) l' where
  windowMs_eq := h.windowMs_eq
  maxRequests_eq := h.maxRequests_eq
  live_eq key := (live_cleanup hnow).trans (h.live_eq key)

end Live

theorem results_without_cleanup (l : InMemoryRateLimiter) (calls : List LimiterCall)
    (hclock : (calls.map LimiterCall.now).Pairwise (· ≤ ·)) :
    ((limiterMachine.history l calls).filter fun e => e.input.isRequest).map Event.result =
      (limiterMachine.history l (calls.filter LimiterCall.isRequest)).map Event.result := by
  refine Machine.results_filter_eq (R := SameAt) ?_ ?_ ?_ calls hclock
    fun _ _ => ⟨rfl, rfl, fun _ => rfl⟩
  · rintro l l' (⟨req, now⟩ | now) hk h
    · exact congrArg some (h.snd_eq req)
    · cases hk
  · rintro l l' (⟨req, now⟩ | now) t hk - h ht
    · exact h.middleware ht req
    · cases hk
  · rintro l l' (⟨req, now⟩ | now) t hk hle ht
    · exact absurd rfl hk
    · exact ht.cleanup hle

/-! ## The windows of a client -/

/-- **How far a client has come** through the interval from `a` to `a + w`, by its record and the
number `n` of its accepted requests in there. `past t` says that the clock has been beyond `t`. -/
inductive Phase (a w maxRequests : ℤ) (past : ℤ → Prop) : Option RateLimitRecord → ℤ → Prop
  | before (record : Option RateLimitRecord) : Phase a w maxRequests past record 0
  /-- In a window that began by `a`. -/
  | first {record : RateLimitRecord} {n : ℤ} (hstart : a ≤ record.resetTime)
      (hend : record.resetTime ≤ a + w) (hcount : n ≤ record.count) (hmax : n ≤ maxRequests) :
      Phase a w maxRequests past (some record) n
  /-- The first window has been deleted. -/
  | between {n : ℤ} (hpast : past a) (hmax : n ≤ maxRequests) : Phase a w maxRequests past none n
  /-- In a window that began after `a`. -/
  | second {record : RateLimitRecord} {n : ℤ} (hend : a + w < record.resetTime)
      (hcount : n ≤ maxRequests + record.count) (hmax : n ≤ 2 * maxRequests) :
      Phase a w maxRequests past (some record) n
  | ended {record : Option RateLimitRecord} {n : ℤ} (hpast : past (a + w))
      (hmax : n ≤ 2 * maxRequests) : Phase a w maxRequests past record n

section Phase

variable {a w maxRequests now n n' : ℤ} {past past' : ℤ → Prop} {record : Option RateLimitRecord}

theorem Phase.le_two_mul (h : Phase a w maxRequests past record n) (hmax : 0 ≤ maxRequests) :
    n ≤ 2 * maxRequests := by
  cases h with
  | before => omega
  | first _ _ _ hn => omega
  | between _ hn => omega
  | second _ _ hn => exact hn
  | ended _ hn => exact hn

theorem Phase.mono (h : Phase a w maxRequests past record n) (hpast : ∀ t, past t → past' t) :
    Phase a w maxRequests past' record n := by
  cases h with
  | before => exact .before _
  | first hstart hend hcount hn => exact .first hstart hend hcount hn
  | between hp hn => exact .between (hpast _ hp) hn
  | second hend hcount hn => exact .second hend hcount hn
  | ended hp hn => exact .ended (hpast _ hp) hn

/-- **A cleanup.** -/
theorem Phase.cleanup (h : Phase a w maxRequests past record n)
    (hpast : ∀ t, past t → past' t) (hnow : ∀ t, t < now → past' t) :
    Phase a w maxRequests past' (record.filter fun record => now ≤ record.resetTime) n := by
  cases h with
  | before => exact .before _
  | @first record _ hstart hend hcount hn =>
    by_cases hle : now ≤ record.resetTime
    · rw [Option.filter_some_pos (by simpa using hle)]
      exact .first hstart hend hcount hn
    · rw [Option.filter_some_neg (by simpa using hle)]
      exact .between (hnow a (by omega)) hn
  | between hp hn => exact .between (hpast _ hp) hn
  | @second record _ hend hcount hn =>
    by_cases hle : now ≤ record.resetTime
    · rw [Option.filter_some_pos (by simpa using hle)]
      exact .second hend hcount hn
    · rw [Option.filter_some_neg (by simpa using hle)]
      exact .ended (hnow _ (by omega)) hn
  | ended hp hn => exact .ended (hpast _ hp) hn

theorem Phase.restart (ha : a < now) (hmax : 0 ≤ maxRequests) (hn : n ≤ maxRequests)
    (hn' : n' = n + if 1 ≤ maxRequests ∧ a ≤ now ∧ now ≤ a + w then 1 else 0) :
    Phase a w maxRequests past (some ⟨1, now + w⟩) n' := by
  have hlt : a + w < now + w := by omega
  split_ifs at hn' with hc
  · exact .second hlt (by simp only [Nat.cast_one]; omega) (by omega)
  · exact .second hlt (by simp only [Nat.cast_one]; omega) (by omega)

theorem nextRecord_cases (w : ℤ) (record : Option RateLimitRecord) (now : ℤ) :
    (nextRecord w record now = ⟨1, now + w⟩ ∧ ∀ r ∈ record, r.resetTime < now) ∨
    ∃ r, record = some r ∧ now ≤ r.resetTime ∧
      nextRecord w record now = { r with count := r.count + 1 } := by
  cases record with
  | none => exact Or.inl ⟨rfl, fun _ hr => by cases hr⟩
  | some r =>
    by_cases h : r.resetTime < now
    · refine Or.inl ⟨if_pos h, fun r' hr' => ?_⟩
      obtain rfl := Option.some.inj hr'
      exact h
    · exact Or.inr ⟨r, rfl, not_lt.mp h, if_neg h⟩

theorem Phase.goOn {r : RateLimitRecord} (h : Phase a w maxRequests past (some r) n)
    (hlast : ∀ t, past t → t < now) (hpast : ∀ t, past t → past' t) (hle : now ≤ r.resetTime)
    (hn' : n' = n + if ((r.count + 1 : ℕ) : ℤ) ≤ maxRequests ∧ a ≤ now ∧ now ≤ a + w
      then 1 else 0) :
    Phase a w maxRequests past' (some { r with count := r.count + 1 }) n' := by
  cases h with
  | before =>
    split_ifs at hn' with hc
    · rcases le_or_gt r.resetTime (a + w) with hend | hend
      · exact .first (hc.2.1.trans hle) hend (by push_cast; omega) (by omega)
      · exact .second hend (by push_cast; omega) (by omega)
    · obtain rfl : n' = 0 := by omega
      exact .before _
  | first hstart hend hcount hn =>
    refine .first hstart hend ?_ ?_
    · split_ifs at hn' <;> push_cast <;> omega
    · split_ifs at hn' with hc <;> omega
  | second hend hcount hn =>
    refine .second hend ?_ ?_
    · split_ifs at hn' <;> push_cast <;> omega
    · split_ifs at hn' with hc <;> omega
  | ended hp hn =>
    have hlt := hlast _ hp
    rw [if_neg (by omega)] at hn'
    exact .ended (hpast _ hp) (by omega)

theorem Phase.begin (h : Phase a w maxRequests past record n) (hw : 0 < w) (hmax : 0 ≤ maxRequests)
    (hlast : ∀ t, past t → t < now) (hnow : ∀ t, t < now → past' t)
    (hdead : ∀ r ∈ record, r.resetTime < now)
    (hn' : n' = n + if 1 ≤ maxRequests ∧ a ≤ now ∧ now ≤ a + w then 1 else 0) :
    Phase a w maxRequests past' (some ⟨1, now + w⟩) n' := by
  cases h with
  | before =>
    rcases lt_trichotomy now a with hlt | rfl | hgt
    · rw [if_neg (by omega)] at hn'
      obtain rfl : n' = 0 := by omega
      exact .before _
    · refine .first (by change now ≤ now + w; omega) (le_refl _) ?_ ?_
      · split_ifs at hn' <;> push_cast <;> omega
      · split_ifs at hn' <;> omega
    · exact .restart hgt hmax hmax hn'
  | first hstart _ _ hn => exact .restart (hstart.trans_lt (hdead _ rfl)) hmax hn hn'
  | between hp hn => exact .restart (hlast _ hp) hmax hn hn'
  | second hend _ hn =>
    have hlt := hend.trans (hdead _ rfl)
    rw [if_neg (by omega)] at hn'
    exact .ended (hnow _ hlt) (by omega)
  | ended hp hn =>
    have hlt := hlast _ hp
    rw [if_neg (by omega)] at hn'
    exact .ended (hnow _ hlt) (by omega)

/-- **A request of the client**; `n'` counts it if it is accepted within the interval. -/
theorem Phase.request (h : Phase a w maxRequests past record n) (hw : 0 < w)
    (hmax : 0 ≤ maxRequests) (hlast : ∀ t, past t → t < now)
    (hnow : ∀ t, t < now → past' t)
    (hn' : n' = n + if ((nextRecord w record now).count : ℤ) ≤ maxRequests ∧ a ≤ now ∧ now ≤ a + w
      then 1 else 0) :
    Phase a w maxRequests past' (some (nextRecord w record now)) n' := by
  rcases nextRecord_cases w record now with ⟨hnext, hdead⟩ | ⟨r, rfl, hle, hnext⟩
  · rw [hnext] at hn' ⊢
    exact h.begin hw hmax hlast hnow hdead hn'
  · rw [hnext] at hn' ⊢
    exact h.goOn hlast (fun t ht => hnow t (hlast t ht)) hle hn'

end Phase

/-! ## Runs -/

/-- The clock has been beyond `t`. -/
def Past (es : List LimiterEvent) (t : ℤ) : Prop := ∃ e ∈ es, t < e.input.now

/-- **The invariant**, on the calls so far and the limiter. -/
structure InPhase (client : String) (a w maxRequests : ℤ) (es : List LimiterEvent)
    (l : InMemoryRateLimiter) : Prop where
  windowMs_eq : l.windowMs = w
  maxRequests_eq : l.maxRequests = maxRequests
  phase : Phase a w maxRequests (Past es) (l.hits.get (rateLimitKey client))
    (Machine.grantsWithin LimiterCall.now (Accepts client) a (a + w) es)

section Runs

variable {client : String} {a w maxRequests : ℤ} {es : List LimiterEvent}
  {l : InMemoryRateLimiter} {req : ClientRequest} {now : ℤ}

theorem accepts_middleware_iff (client : String) (l : InMemoryRateLimiter) (req : ClientRequest)
    (now : ℤ) : Accepts client (limiterMachine.event l (.middleware req now)) ↔
    req.clientIp = client ∧
      (nextRecord l.windowMs (l.hits.get (rateLimitKey req.clientIp)) now).count ≤ l.maxRequests := by
  simp [Accepts, LimiterCall.client, Machine.event, limiterMachine, InMemoryRateLimiter.middleware,
    InMemoryRateLimiter.respond]

theorem not_accepts_cleanup : ¬ Accepts client (limiterMachine.event l (.cleanup now)) := by
  simp [Accepts, LimiterCall.client, Machine.event]

theorem grantsWithin_of_not_accepts {e : LimiterEvent} (h : ¬ Accepts client e) :
    Machine.grantsWithin LimiterCall.now (Accepts client) a (a + w) (es ++ [e]) =
      Machine.grantsWithin LimiterCall.now (Accepts client) a (a + w) es := by
  rw [Machine.grantsWithin_concat, if_neg fun hc => h hc.1, Nat.add_zero]

theorem InPhase.middleware_self (h : InPhase client a w maxRequests es l) (hw : 0 < w)
    (hmax : 0 ≤ maxRequests) (hclient : req.clientIp = client)
    (hlast : ∀ e ∈ es, e.input.now ≤ now) :
    InPhase client a w maxRequests (es ++ [limiterMachine.event l (.middleware req now)])
      (limiterMachine.next l (.middleware req now)) where
  windowMs_eq := h.windowMs_eq
  maxRequests_eq := h.maxRequests_eq
  phase := by
    subst hclient
    have hget : (limiterMachine.next l (.middleware req now)).hits.get (rateLimitKey req.clientIp) =
        some (nextRecord w (l.hits.get (rateLimitKey req.clientIp)) now) := by
      rw [← h.windowMs_eq]
      exact JsMap.get_set_self _ _ _
    rw [hget]
    refine h.phase.request hw hmax ?_ ?_ ?_
    · rintro t ⟨e, he, hlt⟩
      exact hlt.trans_le (hlast e he)
    · exact fun t ht => ⟨_, List.mem_append_right _ List.mem_cons_self, ht⟩
    · have haccepts := accepts_middleware_iff req.clientIp l req now
      rw [h.windowMs_eq, h.maxRequests_eq, eq_self_iff_true, true_and] at haccepts
      rw [Machine.grantsWithin_concat, Nat.cast_add]
      simp only [haccepts, Nat.cast_ite, Nat.cast_one, Nat.cast_zero]
      rfl

theorem InPhase.middleware_of_ne (h : InPhase client a w maxRequests es l)
    (hclient : req.clientIp ≠ client) :
    InPhase client a w maxRequests (es ++ [limiterMachine.event l (.middleware req now)])
      (limiterMachine.next l (.middleware req now)) where
  windowMs_eq := h.windowMs_eq
  maxRequests_eq := h.maxRequests_eq
  phase := by
    have hget : (limiterMachine.next l (.middleware req now)).hits.get (rateLimitKey client) =
        l.hits.get (rateLimitKey client) :=
      JsMap.get_set_ne (fun hk => hclient (rateLimitKey_injective hk).symm) _
    rw [hget, grantsWithin_of_not_accepts fun ha => hclient ((accepts_middleware_iff ..).mp ha).1]
    exact h.phase.mono fun t ⟨e, he, ht⟩ => ⟨e, List.mem_append_left _ he, ht⟩

theorem InPhase.cleanup (h : InPhase client a w maxRequests es l) :
    InPhase client a w maxRequests (es ++ [limiterMachine.event l (.cleanup now)])
      (limiterMachine.next l (.cleanup now)) where
  windowMs_eq := h.windowMs_eq
  maxRequests_eq := h.maxRequests_eq
  phase := by
    have hget : (limiterMachine.next l (.cleanup now)).hits.get (rateLimitKey client) = _ :=
      get_cleanup l now (rateLimitKey client)
    rw [hget, grantsWithin_of_not_accepts not_accepts_cleanup]
    refine h.phase.cleanup ?_ fun t ht => ⟨_, List.mem_append_right _ List.mem_cons_self, ht⟩
    exact fun t ⟨e, he, ht⟩ => ⟨e, List.mem_append_left _ he, ht⟩

theorem InPhase.next (h : InPhase client a w maxRequests es l) (hw : 0 < w) (hmax : 0 ≤ maxRequests)
    (c : LimiterCall) (hlast : ∀ e ∈ es, e.input.now ≤ c.now) :
    InPhase client a w maxRequests (es ++ [limiterMachine.event l c]) (limiterMachine.next l c) := by
  cases c with
  | middleware req now =>
    by_cases hclient : req.clientIp = client
    · exact h.middleware_self hw hmax hclient hlast
    · exact h.middleware_of_ne hclient
  | cleanup now => exact h.cleanup

end Runs

/-- **The fixed windows.** The timer changes no response; and a client has at most `2 * maxRequests`
accepted requests over a closed interval of `windowMs`. -/
theorem middleware_cleanup_and_bound (windowMs maxRequests : ℤ) (hw : 0 < windowMs)
    (hmax : 0 ≤ maxRequests) (calls : List LimiterCall)
    (hclock : (calls.map LimiterCall.now).Pairwise (· ≤ ·)) :
    ((limiterMachine.history (.new windowMs maxRequests) calls).filter
        fun e => e.input.isRequest).map Event.result =
      (limiterMachine.history (.new windowMs maxRequests)
        (calls.filter LimiterCall.isRequest)).map Event.result ∧
    ∀ client start, (Machine.grantsWithin LimiterCall.now (Accepts client) start (start + windowMs)
      (limiterMachine.history (.new windowMs maxRequests) calls) : ℤ) ≤ 2 * maxRequests := by
  refine ⟨results_without_cleanup _ calls hclock, fun client start => ?_⟩
  have hclock' : (calls.filterMap fun c => some c.now).Pairwise (· ≤ ·) := by simpa using hclock
  have hrun : InPhase client start windowMs maxRequests
      (limiterMachine.history (.new windowMs maxRequests) calls)
      (limiterMachine.run (.new windowMs maxRequests) calls) := by
    refine Machine.clocked_invariant ?_ ?_ calls hclock' fun _ _ => trivial
    · exact ⟨rfl, rfl, .before _⟩
    · exact fun es l c hJ (_ : True) hlast => hJ.next hw hmax c fun e he => hlast e he _ rfl _ rfl
  exact hrun.phase.le_two_mul hmax

/-- A window that ends within the interval, and is deleted before the next one begins. -/
theorem middleware_cleanup_and_bound_across :
    (Machine.grantsWithin LimiterCall.now (Accepts "10.0.0.1") 60001 (60001 + 60000)
      (limiterMachine.history (.new 60000 2) [.middleware ⟨some "10.0.0.1", none⟩ 1,
        .middleware ⟨none, some "10.0.0.1"⟩ 60001, .cleanup 60002,
        .middleware ⟨some "", some "10.0.0.1"⟩ 60002]) : ℤ) ≤ 2 * 2 :=
  (middleware_cleanup_and_bound 60000 2 (by decide) (by decide)
    [.middleware ⟨some "10.0.0.1", none⟩ 1, .middleware ⟨none, some "10.0.0.1"⟩ 60001,
      .cleanup 60002, .middleware ⟨some "", some "10.0.0.1"⟩ 60002]
    (by decide)).2 "10.0.0.1" 60001

end Logix.Gateway
