import Logix.Gateway.App
import Logix.Notification.Inbox

/-!
# Whom does the notification service tell?

The notification service behind the gateway. The secret keys of webhooks are in its answers.

* `Routes`: what the service has from `express`; `notificationSystem`: the gateway and the service,
  under the requests of clients;
* `serviceRecord`: the part of the service in the record of a run;
* **`secrets_confined`**: an inbox is shown to its user, and the secrets of a tenant are shown to the
  tokens that name it, up to tokens that name nobody.
-/

namespace Logix.Notification

open Gateway Spec

variable {B M : Type}

/-- The route of a method and a path, in the service. -/
abbrev Routes : Type := String → String → Option NotificationRoute

/-- The gateway and the service behind it. -/
structure NotificationSystem (u : UuidSource) (M : Type) where
  gateway : GatewayApp
  repository : NotificationRepository u M

/-- A request of a client, or a tick of the timer of the limiter. -/
inductive SystemCall (B : Type) where
  | request (req : GatewayRequest) (now : ℤ) (query : String → Option String) (body : B)
      (secretBytes : List UInt8)
  | cleanup (now : ℤ)

/-- What a client is answered, by the gateway or by the service. -/
structure SystemReply (M : Type) where
  gateway : Option GatewayResponse
  service : Option (NotificationReply M)

/-- What the service gets of a request. -/
def forwarded (routes : Routes) (req : GatewayRequest) (query : String → Option String) (body : B)
    (secretBytes : List UInt8) : Reply → Option (NotificationRequest B)
  | .proxied .notifications path headers =>
    (routes req.method path).map fun route => ⟨route, headers, query, body, secretBytes⟩
  | _ => none

section System

variable (x : Express) (verify : String → Except String TokenClaims) (routes : Routes)
  (S : Schemas B M) (v u : UuidSource)

/-- **The system under the requests of its clients.** -/
def notificationSystem : Machine (NotificationSystem u M) (SystemCall B) (SystemReply M) where
  call
    | .request req now query body secretBytes, s =>
      let (g, response) := s.gateway.request x verify v req now
      match forwarded routes req query body secretBytes response.reply with
      | none => (⟨g, s.repository⟩, ⟨some response, none⟩)
      | some req' =>
        let (r, reply) := handle S req' s.repository
        (⟨g, r⟩, ⟨some response, some reply⟩)
    | .cleanup now, s =>
      (⟨{ s.gateway with limiter := s.gateway.limiter.cleanup now }, s.repository⟩, ⟨none, none⟩)

abbrev SystemEvent (u : UuidSource) (B M : Type) :=
  Event (NotificationSystem u M) (SystemCall B) (SystemReply M)

/-- The claims of the client of a request. -/
def claimsOf (e : SystemEvent u B M) : Option TokenClaims :=
  match e.input with
  | .request req .. => verified verify ⟨req.headers, none⟩
  | .cleanup _ => none

/-- The part of the service in a call. -/
def serviceEvent (e : SystemEvent u B M) : Option (NotificationEvent u B M) :=
  match e.input with
  | .request req _ query body secretBytes =>
    (e.result.gateway.bind fun response =>
      forwarded routes req query body secretBytes response.reply).bind fun req' =>
        e.result.service.map fun reply => ⟨e.before.repository, req', e.after.repository, reply⟩
  | .cleanup _ => none

/-- **The record of the service.** -/
def serviceRecord (es : List (SystemEvent u B M)) : List (NotificationEvent u B M) :=
  es.filterMap (serviceEvent routes u)

/-- Nothing has been sent yet. -/
def systemStart (windowMs maxRequests : ℤ) : NotificationSystem u M :=
  ⟨createGatewayApp windowMs maxRequests, .new u⟩

end System

/-- A token names a tenant, or none. -/
def NamesTenant (claims : TokenClaims) (tenantId : String) : Prop :=
  claims.tenantId = some tenantId ∨ claims.tenantId.getD "" = ""

variable {x : Express} {verify : String → Except String TokenClaims} {routes : Routes}
  {S : Schemas B M} {v u : UuidSource}

/-! ## One call -/

theorem exists_of_forwarded {req : GatewayRequest} {query : String → Option String} {body : B}
    {secretBytes : List UInt8} {reply : Reply} {req' : NotificationRequest B}
    (h : forwarded routes req query body secretBytes reply = some req') :
    ∃ path, reply = .proxied .notifications path req'.headers := by
  unfold forwarded at h
  split at h
  · obtain ⟨route, -, rfl⟩ := Option.map_eq_some_iff.mp h
    exact ⟨_, rfl⟩
  · cases h

/-- **What a call does to the service**: nothing, or what one request does, which has its identity
headers from a verified token. -/
theorem system_cases (s : NotificationSystem u M) (c : SystemCall B) :
    let M := notificationSystem x verify routes S v u
    serviceEvent routes u (M.event s c) = none ∧ (M.next s c).repository = s.repository ∧
        (M.call c s).2.service = none ∨
      ∃ req claims, claimsOf verify u (M.event s c) = some claims ∧
        (∀ name ∈ identityHeaders, req.headers name = claims.user.header name) ∧
        serviceEvent routes u (M.event s c) =
          some ((notificationMachine S u).event s.repository req) ∧
        (M.next s c).repository = (notificationMachine S u).next s.repository req ∧
        (M.call c s).2.service = some (handle S req s.repository).2 := by
  intro M
  cases c with
  | cleanup now => exact Or.inl ⟨rfl, rfl, rfl⟩
  | request req now query body secretBytes =>
    cases hforward : forwarded routes req query body secretBytes
        (s.gateway.request x verify v req now).2.reply with
    | none =>
      have hcall : M.call (.request req now query body secretBytes) s =
          (⟨(s.gateway.request x verify v req now).1, s.repository⟩,
            ⟨some (s.gateway.request x verify v req now).2, none⟩) := by
        simp only [M, notificationSystem, hforward]
      refine Or.inl ⟨?_, ?_, ?_⟩
      · simp [serviceEvent, Machine.event, hcall]
      · rw [Machine.next, hcall]
      · rw [hcall]
    | some req' =>
      have hcall : M.call (.request req now query body secretBytes) s =
          (⟨(s.gateway.request x verify v req now).1, (handle S req' s.repository).1⟩,
            ⟨some (s.gateway.request x verify v req now).2,
              some (handle S req' s.repository).2⟩) := by
        simp only [M, notificationSystem, hforward]
      obtain ⟨path, hreply⟩ := exists_of_forwarded hforward
      obtain ⟨claims, hclaims, hheaders⟩ := (request_proxied hreply).2.2 (by decide)
      refine Or.inr ⟨req', claims, hclaims, hheaders, ?_, ?_, ?_⟩
      · simp [serviceEvent, Machine.event, Machine.next, hcall, hforward, notificationMachine]
      · rw [Machine.next, hcall]
        rfl
      · rw [hcall]

/-! ## Runs -/

/-- **What the service tells.** -/
structure Confined (verify : String → Except String TokenClaims) (routes : Routes)
    (pre : List (SystemEvent u B M)) (e : SystemEvent u B M) : Prop where
  /-- An inbox is shown to its user. -/
  mine : ∀ ns, e.result.service = some (.mine ns) → ∃ claims, claimsOf verify u e = some claims ∧
    ∀ uid ≠ "", claims.user.userId = some uid →
      ns = lastOf 50 ((inbox (serviceRecord routes u pre)).filter fun n => n.recipientId = uid)
  /-- A notification is sent for the tenant of the sender. -/
  sent : ∀ n, e.result.service = some (.sent n) → ∃ claims, claimsOf verify u e = some claims ∧
    NamesTenant claims n.tenantId
  /-- A webhook is created for the tenant of its creator. -/
  webhook : ∀ w, e.result.service = some (.webhook w) → ∃ claims,
    claimsOf verify u e = some claims ∧ NamesTenant claims w.tenantId
  /-- Webhooks are shown to their tenant. -/
  webhooks : ∀ ws, e.result.service = some (.webhooks ws) → ∃ claims,
    claimsOf verify u e = some claims ∧ ∀ w ∈ ws, NamesTenant claims w.tenantId ∧
      ∃ e' ∈ pre, e'.result.service = some (.webhook w)

theorem headerOr_eq_some {header other : Option String} {text : String}
    (h : headerOr header other = some text) : header = some text ∨ header.getD "" = "" := by
  unfold headerOr at h
  cases header with
  | none => exact Or.inr rfl
  | some t =>
    by_cases ht : t = ""
    · exact Or.inr ht
    · left
      simpa [Option.filter, ht] using h

theorem headerOr_of_ne {header other : Option String} {text : String} (h : header = some text)
    (hne : text ≠ "") : headerOr header other = some text := by
  simp [headerOr, h, Option.filter, hne]

theorem serviceRecord_concat (es : List (SystemEvent u B M)) (e : SystemEvent u B M) :
    serviceRecord routes u (es ++ [e]) =
      serviceRecord routes u es ++ (serviceEvent routes u e).toList := by
  rw [serviceRecord, List.filterMap_append]
  cases h : serviceEvent routes u e <;> simp [serviceRecord, h]

theorem kept_serviceRecord (windowMs maxRequests : ℤ) (calls : List (SystemCall B)) :
    Kept (serviceRecord routes u ((notificationSystem x verify routes S v u).history
        (systemStart u windowMs maxRequests) calls))
      ((notificationSystem x verify routes S v u).run (systemStart u windowMs maxRequests)
        calls).repository := by
  refine Machine.history_induction (J := fun es s => Kept (serviceRecord routes u es) s.repository)
    ⟨rfl, fun id hid => absurd hid List.not_mem_nil, rfl, rfl⟩ (fun es s c h => ?_) calls
  rw [serviceRecord_concat]
  rcases @system_cases B M x verify routes S v u s c with
    ⟨hnone, hsame, -⟩ | ⟨req, claims, -, -, hsome, hnext, -⟩
  · rw [hnone, hsame, Option.toList_none, List.append_nil]
    exact h
  · rw [hsome, hnext, Option.toList_some]
    exact (h.handle S req).1

theorem exists_of_mem_webhooksOf {es : List (SystemEvent u B M)} {w : WebhookSubscriptionEntity}
    (hw : w ∈ webhooksOf (serviceRecord routes u es)) :
    ∃ e ∈ es, e.result.service = some (.webhook w) := by
  obtain ⟨e', he', hcreated⟩ := List.mem_filterMap.mp hw
  obtain ⟨e, he, hservice⟩ := List.mem_filterMap.mp he'
  have hresult : e.result.service = some e'.result := by
    unfold serviceEvent at hservice
    split at hservice
    · obtain ⟨req', -, hmap⟩ := Option.bind_eq_some_iff.mp hservice
      obtain ⟨reply, hreply, rfl⟩ := Option.map_eq_some_iff.mp hmap
      exact hreply
    · cases hservice
  refine ⟨e, he, hresult.trans (congrArg some ?_)⟩
  unfold NotificationReply.created at hcreated
  split at hcreated
  · next w' heq => rw [heq, Option.some.inj hcreated]
  · cases hcreated

/-- **Whom the notification service tells**, in every run behind the gateway: an inbox is shown to
its user; what is sent, and a webhook, is for the tenant of the token that asked for it; and the
webhooks that a token is shown, with their secret keys, are webhooks of its tenant, created before.
Tokens that name no user or no tenant are left out: they may name any. -/
theorem secrets_confined (x : Express) (verify : String → Except String TokenClaims)
    (routes : Routes) (S : Schemas B M) (v u : UuidSource) (windowMs maxRequests : ℤ)
    (calls : List (SystemCall B)) (c : SystemCall B) :
    let M := notificationSystem x verify routes S v u
    Confined verify routes (M.history (systemStart u windowMs maxRequests) calls)
      (M.event (M.run (systemStart u windowMs maxRequests) calls) c) := by
  intro M
  have hkept : Kept (serviceRecord routes u (M.history (systemStart u windowMs maxRequests) calls))
      (M.run (systemStart u windowMs maxRequests) calls).repository :=
    kept_serviceRecord windowMs maxRequests calls
  rcases @system_cases _ _ x verify routes S v u (M.run _ calls) c with
    ⟨-, -, hnone⟩ | ⟨req, claims, hclaims, hheaders, -, -, hsome⟩
  · have hno : ∀ reply, (M.event (M.run (systemStart u windowMs maxRequests) calls)
        c).result.service ≠ some reply :=
      fun reply h => absurd (hnone.symm.trans h) (Option.some_ne_none reply).symm
    exact ⟨fun ns h => absurd h (hno _), fun n h => absurd h (hno _), fun w h => absurd h (hno _),
      fun ws h => absurd h (hno _)⟩
  · have hanswer := (hkept.handle S req).2
    have hreply : ∀ reply, (M.event (M.run (systemStart u windowMs maxRequests) calls)
        c).result.service = some reply → Answered S (serviceRecord routes u
          (M.history (systemStart u windowMs maxRequests) calls)) req reply := by
      intro reply h
      rw [← Option.some.inj (hsome.symm.trans h)]
      exact hanswer
    have huser : req.headers "x-user-id" = claims.user.userId := hheaders _ (by decide)
    have htenant : req.headers "x-tenant-id" = claims.tenantId := hheaders _ (by decide)
    have hnames : ∀ {other : Option String} {tenantId : String},
        headerOr (req.headers "x-tenant-id") other = some tenantId →
          NamesTenant claims tenantId := by
      intro other tenantId h
      rw [htenant] at h
      exact headerOr_eq_some h
    refine ⟨fun ns h => ⟨claims, hclaims, ?_⟩, fun n h => ⟨claims, hclaims, ?_⟩,
      fun w h => ⟨claims, hclaims, ?_⟩, fun ws h => ⟨claims, hclaims, ?_⟩⟩
    · intro uid hne huid
      cases hreply _ h with
      | mine hroute =>
        have hid : req.userId = some uid := headerOr_of_ne (huser.trans huid) hne
        rw [hid]
        simp
    · cases hreply _ h with
      | sent hroute n hdto hunread hnew => exact hnames (S.send_tenantId _ _ _ hdto)
    · cases hreply _ h with
      | webhook hroute w hdto hsecret hactive hnew => exact hnames (S.webhook_tenantId _ _ _ hdto)
    · cases hreply _ h with
      | webhooks hroute =>
        intro w hw
        obtain ⟨hmem, htenant⟩ := List.mem_filter.mp hw
        exact ⟨hnames (of_decide_eq_true htenant).symm, exists_of_mem_webhooksOf hmem⟩

/-! ## Two tenants -/

section TwoTenants

/-- A token is the id of its tenant, and of its user. -/
def plainVerify (token : String) : Except String TokenClaims :=
  if token = acme ∨ token = globex then
    .ok ⟨some token, none, some token, none, none, none, none⟩
  else .error "jwt malformed"

/-- The routes of the app that have no parameter. -/
def plainRoutes (method path : String) : Option NotificationRoute :=
  [(("POST", "/api/v1/notifications/send"), .send), (("GET", "/api/v1/notifications/mine"), .mine),
    (("POST", "/api/v1/notifications/webhooks"), .createWebhook),
    (("GET", "/api/v1/notifications/webhooks"), .listWebhooks)].lookup (method, path)

/-- A request with a token, which names another tenant. -/
def tokenRequest (method path token : String) : SystemCall (NotificationBody Unit) :=
  .request
    { method := method
      path := "/api/v1/notifications" ++ path
      headers := fun name =>
        if name = "authorization" then some ("Bearer " ++ token)
        else if name = "x-tenant-id" then some acme else none
      remoteAddress := none }
    0 (fun _ => none) shippedBody [1, 171]

/-- `acme` and `globex` create webhooks, and `globex` lists them. -/
theorem secrets_confined_twoTenants :
    let M := notificationSystem (M := Unit) plainExpress plainVerify plainRoutes
      (dtoSchemas plainFormats) .unary .unary
    let calls := [tokenRequest "POST" "/webhooks" acme, tokenRequest "POST" "/webhooks" globex,
      tokenRequest "POST" "/send" acme]
    let e := M.event (M.run (systemStart .unary 60000 1000) calls)
      (tokenRequest "GET" "/webhooks" globex)
    Confined plainVerify plainRoutes (M.history (systemStart .unary 60000 1000) calls) e ∧
      ∃ w, e.result.service = some (.webhooks [w]) ∧ w.tenantId = globex ∧ w.id = "idx" ∧
        w.secretKey = js "01ab" :=
  ⟨secrets_confined _ _ _ _ _ _ _ _ _ _, _, rfl, by decide, by decide, by decide⟩

end TwoTenants

end Logix.Notification
