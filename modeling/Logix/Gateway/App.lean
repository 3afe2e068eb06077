import Logix.Gateway.Identity
import Logix.Gateway.RateLimiter
import Logix.Js.Uuid

/-!
# What gets through the gateway?

`createGatewayApp` puts its middlewares and the services behind each other: correlation ids, the
request limiter, the health routes, and the services, six of them behind `authenticateJwt()`.

* `Express`: what the gateway has from `express` and `cors`;
* `request`, `gatewayMachine`: the code;
* `limiterEvent`: the part of the limiter in a run;
* **`gateway_guards`**: who reaches a service, how often, and under which correlation id;
* **`identity_headers_ignored`**: the identity headers of the clients make no difference, except
  that the auth service gets them as they are.
-/

namespace Logix.Gateway

open Spec

/-! ## The code -/

/-- A service behind the gateway. -/
inductive Service where
  | auth | orders | inventory | logistics | billing | notifications | analytics
  deriving DecidableEq, Repr

/-- The path that a service is mounted on. -/
def Service.mountPath : Service → String
  | .auth => "/api/v1/auth"
  | .orders => "/api/v1/orders"
  | .inventory => "/api/v1/inventory"
  | .logistics => "/api/v1/logistics"
  | .billing => "/api/v1/billing"
  | .notifications => "/api/v1/notifications"
  | .analytics => "/api/v1/analytics"

/-- Is `authenticateJwt()` in front of the service? -/
def Service.guarded : Service → Bool
  | .auth => false
  | _ => true

/-- The services, in the order in which they are mounted. -/
def services : List Service :=
  [.auth, .orders, .inventory, .logistics, .billing, .notifications, .analytics]

/-- What the gateway has from `express` and `cors`. -/
structure Express where
  /-- Does `cors` answer a request of the method itself? -/
  preflight : String → Bool
  /-- `req.url` behind a mount path, of a request to a path. -/
  mounted : String → String → Option String
  /-- Does a `get` route answer a method and a `req.url`? -/
  get : String → String → String → Bool

/-- What the gateway reads of a request. -/
structure GatewayRequest where
  method : String
  path : String
  headers : Headers
  remoteAddress : Option String

/-- `UnauthorizedException` and `RateLimitExceededException`. -/
inductive GatewayException where
  | unauthorized (e : UnauthorizedException)
  | rateLimit (e : RateLimitExceededException)
  deriving DecidableEq, Repr

namespace GatewayException

/-- `message`. -/
def message : GatewayException → String
  | unauthorized e => e.message
  | rateLimit e => e.message

/-- `statusCode`. -/
def statusCode : GatewayException → ℕ
  | unauthorized _ => 401
  | rateLimit e => e.statusCode

/-- `code`. -/
def code : GatewayException → String
  | unauthorized _ => "UNAUTHORIZED"
  | rateLimit e => e.code

end GatewayException

/-- What becomes of a request. -/
inductive Reply where
  | preflight
  | health (route : String)
  | proxied (service : Service) (path : String) (headers : Headers)
  | error (e : GatewayException) (correlationId : String)
  | notFound

/-- A response, with the headers that the middlewares set. -/
structure GatewayResponse where
  correlationId : Option String
  limits : Option LimiterResponse
  reply : Reply

/-- **The gateway.** `draws` counts the correlation ids drawn so far. -/
structure GatewayApp where
  limiter : InMemoryRateLimiter
  draws : ℕ

namespace GatewayRequest

/-- The id that the client sends. -/
def ownCorrelationId (req : GatewayRequest) : Option String :=
  (req.headers "x-correlation-id").filter (· ≠ "")

/-- `correlationIdMiddleware`. -/
def correlationId (u : UuidSource) (draws : ℕ) (req : GatewayRequest) : String :=
  truthyOr (req.headers "x-correlation-id") (u.draw draws)

/-- The request behind `correlationIdMiddleware`. -/
def withCorrelationId (u : UuidSource) (draws : ℕ) (req : GatewayRequest) : GatewayRequest :=
  { req with
    headers := Function.update req.headers "x-correlation-id" (some (req.correlationId u draws)) }

/-- What the limiter reads. -/
def client (req : GatewayRequest) : ClientRequest :=
  ⟨req.headers "x-forwarded-for", req.remoteAddress⟩

end GatewayRequest

/-- `gatewayErrorHandler`. -/
def gatewayErrorHandler (req : GatewayRequest) (e : GatewayException) : Reply :=
  .error e (truthyOr (req.headers "x-correlation-id") "unknown")

/-- `healthRouter`. -/
def healthRouter (x : Express) (req : GatewayRequest) : Option String :=
  (x.mounted "/health" req.path).bind fun url =>
    ["/liveness", "/readiness"].find? fun route => x.get route req.method url

/-- The service of a request, and `req.url` there. -/
def route (x : Express) (req : GatewayRequest) : Option (Service × String) :=
  services.findSome? fun service =>
    (x.mounted service.mountPath req.path).map fun url => (service, url)

/-- The health routes and the services. -/
def dispatch (x : Express) (verify : String → Except String TokenClaims) (req : GatewayRequest) :
    Reply :=
  match healthRouter x req with
  | some route => .health route
  | none =>
    match route x req with
    | none => .notFound
    | some (service, url) =>
      if service.guarded then
        match authenticateJwt verify false ⟨req.headers, none⟩ with
        | .next req' => .proxied service (service.mountPath ++ url) req'.headers
        | .thrown e => gatewayErrorHandler req (.unauthorized e)
      else .proxied service (service.mountPath ++ url) req.headers

/-- **A request to the gateway** at the time `now`. -/
def GatewayApp.request (x : Express) (verify : String → Except String TokenClaims) (u : UuidSource)
    (g : GatewayApp) (req : GatewayRequest) (now : ℤ) : GatewayApp × GatewayResponse :=
  if x.preflight req.method then (g, ⟨none, none, .preflight⟩)
  else
    let draws := if req.ownCorrelationId.isSome then g.draws else g.draws + 1
    let req := req.withCorrelationId u g.draws
    let (limiter, limits) := g.limiter.middleware req.client now
    let reply := match limits.thrown with
      | some e => gatewayErrorHandler req (.rateLimit e)
      | none => dispatch x verify req
    (⟨limiter, draws⟩, ⟨req.headers "x-correlation-id", some limits, reply⟩)

/-- A request, or a tick of the timer of the limiter. -/
inductive GatewayCall where
  | request (req : GatewayRequest) (now : ℤ)
  | cleanup (now : ℤ)

/-- The clock that a call reads. -/
def GatewayCall.now : GatewayCall → ℤ
  | .request _ now | .cleanup now => now

/-- **The gateway under its calls.** -/
def gatewayMachine (x : Express) (verify : String → Except String TokenClaims) (u : UuidSource) :
    Machine GatewayApp GatewayCall (Option GatewayResponse) where
  call
    | .request req now, g =>
      let (g', response) := g.request x verify u req now
      (g', some response)
    | .cleanup now, g => ({ g with limiter := g.limiter.cleanup now }, none)

abbrev GatewayEvent := Event GatewayApp GatewayCall (Option GatewayResponse)

/-- `createGatewayApp()`. -/
def createGatewayApp (windowMs maxRequests : ℤ) : GatewayApp := ⟨.new windowMs maxRequests, 0⟩

variable {x : Express} {verify : String → Except String TokenClaims} {u : UuidSource}
  {g : GatewayApp} {req req' : GatewayRequest} {now : ℤ}

/-! ## One request -/

theorem withCorrelationId_self (u : UuidSource) (draws : ℕ) (req : GatewayRequest) :
    (req.withCorrelationId u draws).headers "x-correlation-id" =
      some (req.correlationId u draws) := by
  simp [GatewayRequest.withCorrelationId]

theorem withCorrelationId_of_ne (u : UuidSource) (draws : ℕ) (req : GatewayRequest) {name : String}
    (h : name ≠ "x-correlation-id") :
    (req.withCorrelationId u draws).headers name = req.headers name :=
  Function.update_of_ne h ..

theorem client_withCorrelationId (u : UuidSource) (draws : ℕ) (req : GatewayRequest) :
    (req.withCorrelationId u draws).client = req.client := by
  rw [GatewayRequest.client, withCorrelationId_of_ne u draws req (by decide)]
  rfl

theorem verified_withCorrelationId (u : UuidSource) (draws : ℕ) (req : GatewayRequest) :
    verified verify ⟨(req.withCorrelationId u draws).headers, none⟩ =
      verified verify ⟨req.headers, none⟩ := by
  have hheader := withCorrelationId_of_ne u draws req (by decide : "authorization" ≠ _)
  exact congrArg (fun header => (bearerToken header).bind fun token => (verify token).toOption)
    hheader

theorem request_of_preflight (h : x.preflight req.method = true) :
    g.request x verify u req now = (g, ⟨none, none, .preflight⟩) :=
  if_pos h

theorem request_of_not_preflight (h : ¬ x.preflight req.method = true) :
    g.request x verify u req now =
      (⟨(g.limiter.middleware req.client now).1,
        if req.ownCorrelationId.isSome then g.draws else g.draws + 1⟩,
        ⟨some (req.correlationId u g.draws), some (g.limiter.middleware req.client now).2,
          match (g.limiter.middleware req.client now).2.thrown with
          | some e => gatewayErrorHandler (req.withCorrelationId u g.draws) (.rateLimit e)
          | none => dispatch x verify (req.withCorrelationId u g.draws)⟩) := by
  rw [GatewayApp.request, if_neg h]
  simp only [withCorrelationId_self, client_withCorrelationId]

theorem dispatch_proxied {service : Service} {path : String} {headers : Headers}
    (h : dispatch x verify req = .proxied service path headers) :
    service = .auth ∧ headers = req.headers ∨ service ≠ .auth ∧
      ∃ decoded, verified verify ⟨req.headers, none⟩ = some decoded ∧
        headers = propagate decoded.user req.headers := by
  rw [dispatch] at h
  split at h
  · cases h
  · split at h
    · cases h
    · rename_i service' url hroute
      split_ifs at h with hguarded
      · split at h
        · rename_i forwarded hnext
          cases h
          refine Or.inr ⟨?_, ?_⟩
          · rintro rfl
            cases hguarded
          · obtain ⟨decoded, hdecoded⟩ := exists_verified hnext
            rw [authenticateJwt_of_verified hdecoded] at hnext
            cases hnext
            exact ⟨decoded, hdecoded, rfl⟩
        · cases h
      · cases h
        refine Or.inl ⟨?_, rfl⟩
        cases service with
        | auth => rfl
        | _ => exact absurd rfl hguarded

/-! ## The limiter of the gateway -/

/-- What the limiter sees of a call. -/
def limiterCall (x : Express) : GatewayCall → Option LimiterCall
  | .request req now =>
    if x.preflight req.method then none else some (.middleware req.client now)
  | .cleanup now => some (.cleanup now)

/-- **The part of the limiter** in an event. -/
def limiterEvent (e : GatewayEvent) : Option LimiterEvent :=
  match e.input with
  | .request req now => (e.result.bind GatewayResponse.limits).map fun limits =>
      ⟨e.before.limiter, .middleware req.client now, e.after.limiter, some limits⟩
  | .cleanup now => some ⟨e.before.limiter, .cleanup now, e.after.limiter, none⟩

theorem limiterEvent_event (g : GatewayApp) (c : GatewayCall) :
    limiterEvent ((gatewayMachine x verify u).event g c) =
      (limiterCall x c).map (limiterMachine.event g.limiter) := by
  cases c with
  | cleanup now => rfl
  | request req now =>
    by_cases h : x.preflight req.method = true
    · simp [limiterEvent, limiterCall, Machine.event, gatewayMachine, request_of_preflight h, h]
    · simp [limiterEvent, limiterCall, Machine.event, Machine.next, gatewayMachine,
        request_of_not_preflight h, h, limiterMachine]

theorem limiter_next (g : GatewayApp) (c : GatewayCall) :
    ((gatewayMachine x verify u).next g c).limiter =
      (limiterCall x c).elim g.limiter (limiterMachine.next g.limiter) := by
  cases c with
  | cleanup now => rfl
  | request req now =>
    by_cases h : x.preflight req.method = true
    · simp [limiterCall, Machine.next, gatewayMachine, request_of_preflight h, h]
    · simp [limiterCall, Machine.next, gatewayMachine, request_of_not_preflight h, h,
        limiterMachine]

theorem limiterEvent_history (g : GatewayApp) (calls : List GatewayCall) :
    (((gatewayMachine x verify u).history g calls).filterMap limiterEvent) =
      limiterMachine.history g.limiter (calls.filterMap (limiterCall x)) :=
  Machine.history_component limiterEvent_event limiter_next g calls

/-- The service that a reply comes from. -/
def Reply.service : Reply → Option Service
  | .proxied service _ _ => some service
  | _ => none

/-- A request of `client` that reaches a service. -/
def Reaches (client : String) (e : GatewayEvent) : Prop :=
  (limiterEvent e).any (fun e => e.input.client = some client) = true ∧
    e.result.any (fun response => response.reply.service.isSome) = true

instance (client : String) : DecidablePred (Reaches client) := fun _ =>
  inferInstanceAs (Decidable (_ ∧ _))

theorem service_of_thrown {e : RateLimitExceededException}
    (h : ¬ x.preflight req.method = true)
    (hthrown : (g.limiter.middleware req.client now).2.thrown = some e) :
    (g.request x verify u req now).2.reply.service = none := by
  rw [request_of_not_preflight h, hthrown]
  rfl

theorem accepts_of_reaches {client : String} {c : GatewayCall}
    (h : Reaches client ((gatewayMachine x verify u).event g c)) :
    ∃ e ∈ limiterEvent ((gatewayMachine x verify u).event g c),
      Accepts client e ∧ e.input.now = c.now := by
  obtain ⟨hclient, hreply⟩ := h
  rw [limiterEvent_event] at hclient ⊢
  cases c with
  | cleanup now => simp [limiterCall, Machine.event, LimiterCall.client] at hclient
  | request req now =>
    by_cases hpre : x.preflight req.method = true
    · simp [limiterCall, hpre] at hclient
    · rw [limiterCall, if_neg hpre] at hclient ⊢
      refine ⟨_, rfl, ⟨by simpa using hclient, ?_⟩, rfl⟩
      cases hthrown : (g.limiter.middleware req.client now).2.thrown with
      | none => simp [Machine.event, limiterMachine, hthrown]
      | some e =>
        have hnone : (g.request x verify u req now).2.reply.service = none :=
          service_of_thrown hpre hthrown
        simp [Machine.event, gatewayMachine, hnone] at hreply

theorem accepted_le {windowMs maxRequests : ℤ} (hw : 0 < windowMs) (hmax : 0 ≤ maxRequests)
    {calls : List LimiterCall} (hclock : (calls.map LimiterCall.now).Pairwise (· ≤ ·))
    (client : String) (start : ℤ) :
    (Machine.grantsWithin LimiterCall.now (Accepts client) start (start + windowMs)
      (limiterMachine.history (.new windowMs maxRequests) calls) : ℤ) ≤ 2 * maxRequests := by
  have hclock' : (calls.filterMap fun c => some c.now).Pairwise (· ≤ ·) := by simpa using hclock
  have hrun : InPhase client start windowMs maxRequests
      (limiterMachine.history (.new windowMs maxRequests) calls)
      (limiterMachine.run (.new windowMs maxRequests) calls) := by
    refine Machine.clocked_invariant ⟨rfl, rfl, .before _⟩ ?_ calls hclock' fun _ _ => trivial
    exact fun es l c hJ (_ : True) hlast => hJ.next hw hmax c fun e he => hlast e he _ rfl _ rfl
  exact hrun.phase.le_two_mul hmax

theorem now_limiterCall {c : GatewayCall} {l : LimiterCall} (h : l ∈ limiterCall x c) :
    l.now = c.now := by
  cases c with
  | cleanup now =>
    cases h
    rfl
  | request req now =>
    rw [limiterCall] at h
    split_ifs at h
    · cases h
    · obtain rfl := Option.some.inj h
      rfl

theorem reaches_le {windowMs maxRequests : ℤ} (hw : 0 < windowMs) (hmax : 0 ≤ maxRequests)
    {calls : List GatewayCall} (hclock : (calls.map GatewayCall.now).Pairwise (· ≤ ·))
    (client : String) (start : ℤ) :
    (Machine.grantsWithin GatewayCall.now (Reaches client) start (start + windowMs)
      ((gatewayMachine x verify u).history (createGatewayApp windowMs maxRequests) calls) : ℤ) ≤
      2 * maxRequests := by
  have hlimiter : ((calls.filterMap (limiterCall x)).map LimiterCall.now).Pairwise (· ≤ ·) := by
    rw [List.pairwise_map] at hclock ⊢
    refine hclock.filterMap _ fun c c' hle l hl l' hl' => ?_
    rw [now_limiterCall hl, now_limiterCall hl']
    exact hle
  have hpart : ((gatewayMachine x verify u).history (createGatewayApp windowMs maxRequests)
      calls).filterMap limiterEvent = limiterMachine.history (.new windowMs maxRequests)
        (calls.filterMap (limiterCall x)) := limiterEvent_history _ calls
  refine le_trans (Int.ofNat_le.mpr ?_) (accepted_le hw hmax hlimiter client start)
  rw [← hpart, Machine.grantsWithin, Machine.grantsWithin, List.countP_filterMap]
  refine List.countP_mono_left fun e he => ?_
  intro hreach
  obtain ⟨js, c, ks, -, rfl⟩ := Machine.mem_history_iff.mp he
  simp only [decide_eq_true_eq] at hreach
  obtain ⟨e, he, haccepts, hnow⟩ := accepts_of_reaches hreach.1
  have hwithin : start ≤ e.input.now ∧ e.input.now ≤ start + windowMs := hnow ▸ hreach.2
  simp [Option.mem_def.mp he, haccepts, hwithin]

/-! ## Runs -/

/-- The correlation id that the gateway draws for a request. -/
def drawnId (e : GatewayEvent) : Option String :=
  match e.input with
  | .request req _ =>
    if req.ownCorrelationId.isSome then none else e.result.bind GatewayResponse.correlationId
  | .cleanup _ => none

/-- **What the gateway guards** in a run. -/
structure GuardsServices (verify : String → Except String TokenClaims) (windowMs maxRequests : ℤ)
    (es : List GatewayEvent) : Prop where
  /-- Behind the auth service, the identity headers are those of a verified token. -/
  named : ∀ e ∈ es, ∀ req now, e.input = .request req now → ∀ response ∈ e.result,
    ∀ service path headers, response.reply = .proxied service path headers → service ≠ .auth →
      ∃ decoded, verified verify ⟨req.headers, none⟩ = some decoded ∧
        ∀ name ∈ identityHeaders, headers name = decoded.user.header name
  /-- A client reaches the services at most `2 * maxRequests` times in a window. -/
  limited : ∀ client start, (Machine.grantsWithin GatewayCall.now (Reaches client) start
    (start + windowMs) es : ℤ) ≤ 2 * maxRequests
  /-- A service gets the correlation id of the response, which is the client's if it sends one. -/
  traced : ∀ e ∈ es, ∀ req now, e.input = .request req now → ∀ response ∈ e.result,
    ∀ service path headers, response.reply = .proxied service path headers →
      headers "x-correlation-id" = response.correlationId ∧
        ∀ id ∈ req.ownCorrelationId, response.correlationId = some id
  /-- The ids that the gateway draws differ. -/
  distinct : es.Pairwise fun e e' => ∀ id ∈ drawnId e, id ∉ drawnId e'

theorem correlationId_of_own {draws : ℕ} {id : String} (h : id ∈ req.ownCorrelationId) :
    req.correlationId u draws = id := by
  rw [GatewayRequest.correlationId, truthyOr]
  exact congrArg (Option.getD · _) (Option.mem_def.mp h)

theorem correlationId_of_not_own {draws : ℕ} (h : ¬ req.ownCorrelationId.isSome = true) :
    req.correlationId u draws = u.draw draws := by
  rw [Option.not_isSome_iff_eq_none] at h
  exact congrArg (Option.getD · _) h

theorem request_proxied {service : Service} {path : String} {headers : Headers}
    (h : (g.request x verify u req now).2.reply = .proxied service path headers) :
    (g.request x verify u req now).2.correlationId = some (req.correlationId u g.draws) ∧
      headers "x-correlation-id" = some (req.correlationId u g.draws) ∧
      (service ≠ .auth → ∃ decoded, verified verify ⟨req.headers, none⟩ = some decoded ∧
        ∀ name ∈ identityHeaders, headers name = decoded.user.header name) := by
  by_cases hpre : x.preflight req.method = true
  · rw [request_of_preflight hpre] at h
    cases h
  · rw [request_of_not_preflight hpre] at h ⊢
    refine ⟨rfl, ?_⟩
    simp only at h
    split at h
    · cases h
    · rcases dispatch_proxied h with ⟨rfl, rfl⟩ | ⟨-, decoded, hdecoded, rfl⟩
      · exact ⟨withCorrelationId_self .., fun hne => absurd rfl hne⟩
      · rw [verified_withCorrelationId] at hdecoded
        refine ⟨?_, fun _ => ⟨decoded, hdecoded, fun name hname => propagate_of_mem _ _ hname⟩⟩
        rw [propagate_of_not_mem _ _ (by decide), withCorrelationId_self]

theorem drawnId_event (g : GatewayApp) (c : GatewayCall) :
    g.draws ≤ ((gatewayMachine x verify u).next g c).draws ∧
      ∀ id ∈ drawnId ((gatewayMachine x verify u).event g c),
        id = u.draw g.draws ∧ g.draws < ((gatewayMachine x verify u).next g c).draws := by
  cases c with
  | cleanup now => exact ⟨le_refl _, fun id hid => by cases hid⟩
  | request req now =>
    by_cases hpre : x.preflight req.method = true
    · simp [drawnId, Machine.event, Machine.next, gatewayMachine, request_of_preflight hpre]
    · by_cases hown : req.ownCorrelationId.isSome = true
      · simp [drawnId, Machine.event, Machine.next, gatewayMachine, request_of_not_preflight hpre,
          hown]
      · simp [drawnId, Machine.event, Machine.next, gatewayMachine, request_of_not_preflight hpre,
          hown, correlationId_of_not_own hown]

theorem drawnId_history (g : GatewayApp) (calls : List GatewayCall) :
    ((gatewayMachine x verify u).history g calls).Pairwise
      fun e e' => ∀ id ∈ drawnId e, id ∉ drawnId e' := by
  refine (Machine.history_induction (M := gatewayMachine x verify u)
    (J := fun es g => (es.Pairwise fun e e' => ∀ id ∈ drawnId e, id ∉ drawnId e') ∧
      ∀ e ∈ es, ∀ id ∈ drawnId e, ∃ n < g.draws, id = u.draw n) ⟨.nil, by simp⟩ ?_ calls).1
  rintro es g c ⟨hpair, hdrawn⟩
  obtain ⟨hmono, hlast⟩ := @drawnId_event x verify u g c
  refine ⟨List.pairwise_append.mpr ⟨hpair, List.pairwise_singleton _ _, ?_⟩, fun e he => ?_⟩
  · intro e he e' he' id hid hid'
    obtain rfl := List.mem_singleton.mp he'
    obtain ⟨n, hn, rfl⟩ := hdrawn e he id hid
    exact hn.ne (u.distinct (hlast _ hid').1)
  · rcases List.mem_append.mp he with he | he
    · intro id hid
      obtain ⟨n, hn, heq⟩ := hdrawn e he id hid
      exact ⟨n, hn.trans_le hmono, heq⟩
    · obtain rfl := List.mem_singleton.mp he
      exact fun id hid => ⟨g.draws, (hlast id hid).2, (hlast id hid).1⟩

theorem exists_of_proxied {calls : List GatewayCall} {e : GatewayEvent}
    (he : e ∈ (gatewayMachine x verify u).history g calls) {now : ℤ}
    (hinput : e.input = .request req now) {response : GatewayResponse}
    (hresponse : response ∈ e.result) :
    ∃ g', response = (GatewayApp.request x verify u g' req now).2 := by
  obtain ⟨js, c, ks, -, rfl⟩ := Machine.mem_history_iff.mp he
  obtain rfl : c = .request req now := hinput
  exact ⟨_, (Option.some.inj hresponse).symm⟩

/-- **The gateway guards the services**: whoever reaches one, except the auth service, is named by a
verified token; a client reaches them at most `2 * maxRequests` times in a window; a service gets
the correlation id of the client or, without one, an id of its own. -/
theorem gateway_guards (x : Express) (verify : String → Except String TokenClaims) (u : UuidSource)
    {windowMs maxRequests : ℤ} (hw : 0 < windowMs) (hmax : 0 ≤ maxRequests)
    (calls : List GatewayCall) (hclock : (calls.map GatewayCall.now).Pairwise (· ≤ ·)) :
    GuardsServices verify windowMs maxRequests
      ((gatewayMachine x verify u).history (createGatewayApp windowMs maxRequests) calls) where
  named e he req now hinput response hresponse service path headers hreply := by
    obtain ⟨g', rfl⟩ := exists_of_proxied he hinput hresponse
    exact (request_proxied hreply).2.2
  limited := reaches_le hw hmax hclock
  traced e he req now hinput response hresponse service path headers hreply := by
    obtain ⟨g', rfl⟩ := exists_of_proxied he hinput hresponse
    obtain ⟨hresponse, hheader, -⟩ := request_proxied hreply
    rw [hresponse, hheader]
    exact ⟨rfl, fun id hid => congrArg some (correlationId_of_own hid)⟩
  distinct := drawnId_history _ calls

/-- The mounts of plain paths, and routes. -/
def plainExpress : Express where
  preflight method := method = "OPTIONS"
  mounted mount path :=
    if mount.toList.isPrefixOf path.toList then
      some (String.ofList (path.toList.drop mount.length))
    else none
  get route method url := method = "GET" ∧ url = route

/-- A request without a token, which names a user. -/
def namedRequest (path user : String) : GatewayRequest where
  method := "GET"
  path := path
  headers := Function.update (fun _ => none) "x-user-id" (some user)
  remoteAddress := some "10.0.0.1"

/-- A case: two requests, and a tick of the timer. -/
theorem gateway_guards_two : GuardsServices (fun _ => .error "jwt malformed") 60000 1000
    ((gatewayMachine plainExpress (fun _ => .error "jwt malformed") .unary).history
      (createGatewayApp 60000 1000) [.request (namedRequest "/api/v1/orders/7" "admin") 0,
        .cleanup 60000, .request (namedRequest "/api/v1/auth/login" "admin") 60001]) :=
  gateway_guards plainExpress _ .unary (by decide) (by decide)
    [.request (namedRequest "/api/v1/orders/7" "admin") 0, .cleanup 60000,
      .request (namedRequest "/api/v1/auth/login" "admin") 60001] (by decide)

/-! ## Identity headers -/

/-- The requests differ in the identity headers only. -/
structure GatewayRequest.SameButIdentity (req req' : GatewayRequest) : Prop where
  method : req'.method = req.method
  path : req'.path = req.path
  remoteAddress : req'.remoteAddress = req.remoteAddress
  headers : ∀ name, name ∉ identityHeaders → req'.headers name = req.headers name

/-- So do the calls. -/
inductive GatewayCall.SameButIdentity : GatewayCall → GatewayCall → Prop
  | request {req req' : GatewayRequest} (h : req.SameButIdentity req') (now : ℤ) :
      SameButIdentity (.request req now) (.request req' now)
  | cleanup (now : ℤ) : SameButIdentity (.cleanup now) (.cleanup now)

/-- The replies differ at most in the identity headers that the auth service gets. -/
inductive Reply.SameButAuth : Reply → Reply → Prop
  | same (r : Reply) : SameButAuth r r
  | auth (path : String) {headers headers' : Headers}
      (h : ∀ name, name ∉ identityHeaders → headers' name = headers name) :
      SameButAuth (.proxied .auth path headers) (.proxied .auth path headers')

/-- So do the responses. -/
structure GatewayResponse.SameButAuth (r r' : GatewayResponse) : Prop where
  correlationId : r'.correlationId = r.correlationId
  limits : r'.limits = r.limits
  reply : r.reply.SameButAuth r'.reply

namespace GatewayRequest.SameButIdentity

theorem ownCorrelationId_eq (h : req.SameButIdentity req') :
    req'.ownCorrelationId = req.ownCorrelationId := by
  rw [ownCorrelationId, ownCorrelationId, h.headers _ (by decide)]

theorem client_eq (h : req.SameButIdentity req') : req'.client = req.client := by
  rw [client, client, h.headers _ (by decide), h.remoteAddress]

theorem correlationId_eq (h : req.SameButIdentity req') (draws : ℕ) :
    req'.correlationId u draws = req.correlationId u draws := by
  rw [correlationId, correlationId, h.headers _ (by decide)]

theorem withCorrelationId (h : req.SameButIdentity req') (u : UuidSource) (draws : ℕ) :
    (req.withCorrelationId u draws).SameButIdentity (req'.withCorrelationId u draws) where
  method := h.method
  path := h.path
  remoteAddress := h.remoteAddress
  headers name hname := by
    by_cases heq : name = "x-correlation-id"
    · rw [heq, withCorrelationId_self, withCorrelationId_self, h.correlationId_eq]
    · rw [withCorrelationId_of_ne _ _ _ heq, withCorrelationId_of_ne _ _ _ heq, h.headers _ hname]

theorem gatewayErrorHandler_eq (h : req.SameButIdentity req') (e : GatewayException) :
    gatewayErrorHandler req' e = gatewayErrorHandler req e := by
  rw [gatewayErrorHandler, gatewayErrorHandler, h.headers _ (by decide)]

theorem authenticateJwt_eq (h : req.SameButIdentity req') :
    authenticateJwt verify false ⟨req'.headers, none⟩ =
      authenticateJwt verify false ⟨req.headers, none⟩ :=
  Gateway.SameButIdentity.authenticateJwt_eq ⟨rfl, h.headers⟩

theorem dispatch (h : req.SameButIdentity req') :
    (dispatch x verify req).SameButAuth (dispatch x verify req') := by
  have hhealth : healthRouter x req' = healthRouter x req := by
    rw [healthRouter, healthRouter, h.path, h.method]
  have hroute : route x req' = route x req := by rw [route, route, h.path]
  unfold Gateway.dispatch
  rw [hhealth, hroute]
  split
  · exact .same _
  · split
    · exact .same _
    · rename_i service url _
      split_ifs with hguarded
      · rw [h.authenticateJwt_eq]
        split
        · exact .same _
        · rw [h.gatewayErrorHandler_eq]
          exact .same _
      · cases service with
        | auth => exact .auth _ h.headers
        | _ => exact absurd rfl hguarded

theorem request (h : req.SameButIdentity req') (g : GatewayApp) (now : ℤ) :
    (g.request x verify u req now).1 = (g.request x verify u req' now).1 ∧
      (g.request x verify u req now).2.SameButAuth (g.request x verify u req' now).2 := by
  by_cases hpre : x.preflight req.method = true
  · have hpre' : x.preflight req'.method = true := h.method ▸ hpre
    rw [request_of_preflight hpre, request_of_preflight hpre']
    exact ⟨rfl, rfl, rfl, .same _⟩
  · have hpre' : ¬ x.preflight req'.method = true := h.method ▸ hpre
    rw [request_of_not_preflight hpre, request_of_not_preflight hpre', h.client_eq,
      h.ownCorrelationId_eq, h.correlationId_eq]
    refine ⟨rfl, rfl, rfl, ?_⟩
    have hwith := h.withCorrelationId u g.draws
    simp only
    split
    · rw [hwith.gatewayErrorHandler_eq]
      exact .same _
    · exact hwith.dispatch

end GatewayRequest.SameButIdentity

/-- **The identity headers of the clients make no difference**: two runs whose requests differ in
them only get the same responses, except that the auth service gets these headers as they are. -/
theorem identity_headers_ignored (x : Express) (verify : String → Except String TokenClaims)
    (u : UuidSource) (g : GatewayApp) {calls calls' : List GatewayCall}
    (h : List.Forall₂ GatewayCall.SameButIdentity calls calls') :
    List.Forall₂ (fun e e' => Option.Rel GatewayResponse.SameButAuth e.result e'.result)
      ((gatewayMachine x verify u).history g calls)
      ((gatewayMachine x verify u).history g calls') := by
  refine Machine.forall₂_history ?_ ?_ h g
  · rintro g _ _ (⟨hreq, now⟩ | now)
    · exact (hreq.request g now).1
    · rfl
  · rintro g _ _ (⟨hreq, now⟩ | now)
    · exact .some (hreq.request g now).2
    · exact .none

/-- A case: without a token, another user does not get further. -/
theorem identity_headers_ignored_root :
    List.Forall₂ (fun e e' => Option.Rel GatewayResponse.SameButAuth e.result e'.result)
      ((gatewayMachine plainExpress (fun _ => .error "jwt malformed") .unary).history
        (createGatewayApp 60000 1000) [.request (namedRequest "/api/v1/orders/7" "admin") 0])
      ((gatewayMachine plainExpress (fun _ => .error "jwt malformed") .unary).history
        (createGatewayApp 60000 1000) [.request (namedRequest "/api/v1/orders/7" "root") 0]) := by
  have hsame : (namedRequest "/api/v1/orders/7" "admin").SameButIdentity
      (namedRequest "/api/v1/orders/7" "root") := by
    refine ⟨rfl, rfl, rfl, fun name hname => ?_⟩
    have hne : name ≠ "x-user-id" := by
      rintro rfl
      exact hname List.mem_cons_self
    simp [namedRequest, hne]
  exact identity_headers_ignored plainExpress _ .unary _ (.cons (.request hsame 0) .nil)

end Logix.Gateway
