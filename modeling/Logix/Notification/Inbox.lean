import Logix.Common.Pagination
import Logix.Gateway.Identity
import Logix.Js.Uuid
import Logix.Spec.Machine

/-!
# What does an inbox show?

The notification service keeps the notifications of all users in one list, and the webhooks of all
tenants in one map. Its methods are asynchronous, and have no await between reading and writing.

* `SendNotificationDTO`, `NotificationEntity`, `CreateWebhookDTO`, `WebhookSubscriptionEntity`,
  `NotificationRepository`: the data;
* `Schemas`: what the routes have from `ValidationUtils.validate`; `dtoSchemas`: the schemas of the
  service, over the formats that `zod` knows;
* `handle`, `notificationMachine`: the routes, with the service and the repository behind them;
* `inbox`, `webhooksOf`: what a record tells about the notifications and the webhooks;
* `Kept`: the repository holds what the record tells; **`answers_spec`**: every request is answered
  by the record of the requests before it.
-/

namespace Logix.Notification

open Common Gateway Spec

/-! ## The code -/

/-- `NotificationChannel`. -/
inductive NotificationChannel where
  | IN_APP | WEBSOCKET | EMAIL | SMS | WEBHOOK | SLACK_BRIDGE
  deriving DecidableEq, Repr

/-- `NotificationPriority`. -/
inductive NotificationPriority where
  | LOW | NORMAL | HIGH | URGENT
  deriving DecidableEq, Repr

/-- `SendNotificationDTO`. -/
structure SendNotificationDTO (M : Type) where
  tenantId : String
  recipientId : String
  recipientEmail : Option String
  recipientPhone : Option String
  channel : NotificationChannel
  priority : NotificationPriority
  subject : String
  body : String
  metadata : Option M
  deriving DecidableEq, Repr

/-- `NotificationEntity`. -/
structure NotificationEntity (M : Type) extends SendNotificationDTO M where
  id : String
  isRead : Bool
  deriving DecidableEq, Repr

/-- `CreateWebhookDTO`. -/
structure CreateWebhookDTO where
  tenantId : String
  targetUrl : String
  subscribedEvents : List String
  deriving DecidableEq, Repr

/-- `WebhookSubscriptionEntity`. -/
structure WebhookSubscriptionEntity extends CreateWebhookDTO where
  id : String
  secretKey : JsString
  isActive : Bool
  deriving DecidableEq, Repr

variable {B M : Type} {u : UuidSource}

/-- Mark the first notification of an id as read. -/
def readFirst (id : String) : List (NotificationEntity M) → List (NotificationEntity M)
  | [] => []
  | n :: ns => if n.id = id then { n with isRead := true } :: ns else n :: readFirst id ns

theorem map_id_readFirst (id : String) (ns : List (NotificationEntity M)) :
    (readFirst id ns).map NotificationEntity.id = ns.map NotificationEntity.id := by
  induction ns with
  | nil => rfl
  | cons n ns ih =>
    rw [readFirst]
    split_ifs
    · rfl
    · exact congrArg (n.id :: ·) ih

/-- **`NotificationRepository`.** `draws` counts the UUIDs drawn so far, and every id is one of
them. -/
structure NotificationRepository (u : UuidSource) (M : Type) where
  notifications : List (NotificationEntity M)
  webhooks : JsMap String WebhookSubscriptionEntity
  draws : ℕ
  nodup : (notifications.map NotificationEntity.id).Nodup
  issued : ∀ id ∈ notifications.map NotificationEntity.id, ∃ i < draws, u.draw i = id
  webhooks_issued : u.Issued draws webhooks

namespace NotificationRepository

/-- An empty repository. -/
def new (u : UuidSource) : NotificationRepository u M where
  notifications := []
  webhooks := .empty
  draws := 0
  nodup := List.nodup_nil
  issued _ h := absurd h List.not_mem_nil
  webhooks_issued := .empty u 0

variable (r : NotificationRepository u M)

theorem draw_not_mem : u.draw r.draws ∉ r.notifications.map NotificationEntity.id := by
  intro h
  obtain ⟨i, hi, heq⟩ := r.issued _ h
  exact absurd (u.distinct heq) (Nat.ne_of_lt hi)

/-- `createNotification(notif)`. -/
def createNotification (notif : SendNotificationDTO M) :
    NotificationRepository u M × NotificationEntity M :=
  let entity : NotificationEntity M := { notif with id := u.draw r.draws, isRead := false }
  ({ notifications := r.notifications ++ [entity]
     webhooks := r.webhooks
     draws := r.draws + 1
     nodup := by
      rw [List.map_append, List.map_singleton]
      exact List.Nodup.append r.nodup (List.nodup_singleton _)
        (List.disjoint_singleton.mpr r.draw_not_mem)
     issued := by
      intro id hid
      rw [List.map_append, List.map_singleton, List.mem_append, List.mem_singleton] at hid
      rcases hid with hid | rfl
      · obtain ⟨i, hi, heq⟩ := r.issued id hid
        exact ⟨i, Nat.lt_succ_of_lt hi, heq⟩
      · exact ⟨r.draws, Nat.lt_succ_self _, rfl⟩
     webhooks_issued := r.webhooks_issued.mono (Nat.le_succ _) }, entity)

/-- `listByUser(userId, limit)`. -/
def listByUser (userId : Option String) (limit : ℚ) : List (NotificationEntity M) :=
  let own := r.notifications.filter fun n => some n.recipientId = userId
  slice own (-limit) own.length

/-- `markAsRead(id)`. -/
def markAsRead (id : String) : NotificationRepository u M × Bool :=
  if id ∈ r.notifications.map NotificationEntity.id then
    ({ r with
       notifications := readFirst id r.notifications
       nodup := by
        rw [map_id_readFirst]
        exact r.nodup
       issued := by
        rw [map_id_readFirst]
        exact r.issued }, true)
  else (r, false)

/-- `createWebhook(hook)`. -/
def createWebhook (hook : CreateWebhookDTO) (secretKey : JsString) :
    NotificationRepository u M × WebhookSubscriptionEntity :=
  let entity : WebhookSubscriptionEntity :=
    { hook with id := u.draw r.draws, secretKey := secretKey, isActive := true }
  ({ notifications := r.notifications
     webhooks := r.webhooks.set (u.draw r.draws) entity
     draws := r.draws + 1
     nodup := r.nodup
     issued := fun id hid =>
      let ⟨i, hi, heq⟩ := r.issued id hid
      ⟨i, Nat.lt_succ_of_lt hi, heq⟩
     webhooks_issued := r.webhooks_issued.set_draw _ }, entity)

/-- `listWebhooks(tenantId)`. -/
def listWebhooks (tenantId : Option String) : List WebhookSubscriptionEntity :=
  r.webhooks.values.filter fun w => some w.tenantId = tenantId

end NotificationRepository

/-- The routes of the service. -/
inductive NotificationRoute where
  | send | mine | markRead (id : String) | createWebhook | listWebhooks
  deriving DecidableEq, Repr

/-- A request, on its route, with the random bytes that it draws. -/
structure NotificationRequest (B : Type) where
  route : NotificationRoute
  headers : Headers
  query : String → Option String
  body : B
  secretBytes : List UInt8

/-- **What the routes have from `ValidationUtils.validate`**: the body, with a tenant, as a DTO, if
the schema accepts it. A schema passes a text on as it is. -/
structure Schemas (B M : Type) where
  /-- `req.body.tenantId`. -/
  tenantId : B → Option String
  send : B → Option String → Option (SendNotificationDTO M)
  webhook : B → Option String → Option CreateWebhookDTO
  send_tenantId : ∀ b t dto, send b t = some dto → t = some dto.tenantId
  webhook_tenantId : ∀ b t dto, webhook b t = some dto → t = some dto.tenantId

/-- What a request is answered. -/
inductive NotificationReply (M : Type) where
  | sent (n : NotificationEntity M)
  | mine (ns : List (NotificationEntity M))
  | marked (success : Bool)
  | webhook (w : WebhookSubscriptionEntity)
  | webhooks (ws : List WebhookSubscriptionEntity)
  | invalid
  deriving DecidableEq, Repr

/-- `a || b`. -/
def headerOr (a b : Option String) : Option String := (a.filter (· ≠ "")).or b

namespace NotificationRequest

variable (req : NotificationRequest B)

/-- Whose notifications are asked for. -/
def userId : Option String := headerOr (req.headers "x-user-id") (req.query "userId")

/-- Whose webhooks are asked for. -/
def listedTenantId : Option String := headerOr (req.headers "x-tenant-id") (req.query "tenantId")

/-- For which tenant something is created. -/
def tenantId (S : Schemas B M) : Option String :=
  headerOr (req.headers "x-tenant-id") (S.tenantId req.body)

end NotificationRequest

/-- The limit of `listUserNotifications`. -/
def inboxLimit : ℚ := 50

/-- **A request to the service.** -/
def handle (S : Schemas B M) (req : NotificationRequest B) (r : NotificationRepository u M) :
    NotificationRepository u M × NotificationReply M :=
  match req.route with
  | .send =>
    match S.send req.body (req.tenantId S) with
    | none => (r, .invalid)
    | some dto =>
      let (r', n) := r.createNotification dto
      (r', .sent n)
  | .mine => (r, .mine (r.listByUser req.userId inboxLimit))
  | .markRead id =>
    let (r', success) := r.markAsRead id
    (r', .marked success)
  | .createWebhook =>
    match S.webhook req.body (req.tenantId S) with
    | none => (r, .invalid)
    | some dto =>
      let (r', w) := r.createWebhook dto (toHex req.secretBytes)
      (r', .webhook w)
  | .listWebhooks => (r, .webhooks (r.listWebhooks req.listedTenantId))

/-- **The service under its requests.** -/
def notificationMachine (S : Schemas B M) (u : UuidSource) :
    Machine (NotificationRepository u M) (NotificationRequest B) (NotificationReply M) where
  call := handle S

abbrev NotificationEvent (u : UuidSource) (B M : Type) :=
  Event (NotificationRepository u M) (NotificationRequest B) (NotificationReply M)

/-! ## What the record tells -/

/-- The notification that a reply hands out as new. -/
def NotificationReply.sentOne : NotificationReply M → Option (NotificationEntity M)
  | .sent n => some n
  | _ => none

/-- The webhook that a reply hands out as new. -/
def NotificationReply.created : NotificationReply M → Option WebhookSubscriptionEntity
  | .webhook w => some w
  | _ => none

/-- The notification that a request has marked as read. -/
def readId (e : NotificationEvent u B M) : Option String :=
  match e.input.route, e.result with
  | .markRead id, .marked true => some id
  | _, _ => none

/-- The notifications that were sent. -/
def sent (es : List (NotificationEvent u B M)) : List (NotificationEntity M) :=
  es.filterMap fun e => e.result.sentOne

/-- **The notifications**, each of them as it was sent, and read if it was marked since. -/
def inbox (es : List (NotificationEvent u B M)) : List (NotificationEntity M) :=
  (sent es).map fun n => { n with isRead := decide (n.id ∈ es.filterMap readId) }

/-- **The webhooks** that were created. -/
def webhooksOf (es : List (NotificationEvent u B M)) : List WebhookSubscriptionEntity :=
  es.filterMap fun e => e.result.created

/-- The last `k` entries. -/
def lastOf {α : Type} (k : ℕ) (l : List α) : List α := l.drop (l.length - k)

/-- **How a request is answered**, given the record of the requests before it. -/
inductive Answered (S : Schemas B M) (es : List (NotificationEvent u B M))
    (req : NotificationRequest B) : NotificationReply M → Prop
  | sent (hroute : req.route = .send) (n : NotificationEntity M)
      (hdto : S.send req.body (req.tenantId S) = some n.toSendNotificationDTO)
      (hunread : n.isRead = false) (hnew : n.id ∉ (sent es).map NotificationEntity.id) :
      Answered S es req (.sent n)
  | mine (hroute : req.route = .mine) : Answered S es req (.mine (lastOf 50
      ((inbox es).filter fun n => some n.recipientId = req.userId)))
  | marked (id : String) (hroute : req.route = .markRead id) :
      Answered S es req (.marked (decide (id ∈ (Notification.sent es).map NotificationEntity.id)))
  | webhook (hroute : req.route = .createWebhook) (w : WebhookSubscriptionEntity)
      (hdto : S.webhook req.body (req.tenantId S) = some w.toCreateWebhookDTO)
      (hsecret : w.secretKey = toHex req.secretBytes) (hactive : w.isActive = true)
      (hnew : w.id ∉ (webhooksOf es).map WebhookSubscriptionEntity.id) :
      Answered S es req (.webhook w)
  | webhooks (hroute : req.route = .listWebhooks) : Answered S es req (.webhooks
      ((webhooksOf es).filter fun w => some w.tenantId = req.listedTenantId))
  | invalid (h : req.route = .send ∧ S.send req.body (req.tenantId S) = none ∨
      req.route = .createWebhook ∧ S.webhook req.body (req.tenantId S) = none) :
      Answered S es req .invalid

/-- **The repository holds what the record tells.** -/
structure Kept (es : List (NotificationEvent u B M)) (r : NotificationRepository u M) : Prop where
  notifications : r.notifications = inbox es
  read : ∀ id ∈ es.filterMap readId, id ∈ (sent es).map NotificationEntity.id
  webhooks : r.webhooks.values = webhooksOf es
  keys : (webhooksOf es).map WebhookSubscriptionEntity.id = r.webhooks.keys

/-! ## One request -/

theorem slice_last {α : Type} (l : List α) : slice l (-inboxLimit) l.length = lastOf 50 l := by
  have hstart : slicePosition l.length (-inboxLimit) = l.length - 50 := by
    have hneg : (-inboxLimit).num.tdiv (-inboxLimit).den = -50 := by decide
    rw [slicePosition, hneg, if_pos (by decide)]
    omega
  have hstop : slicePosition l.length (l.length : ℚ) = l.length := by
    rw [slicePosition_of_nonneg (Nat.cast_nonneg _), Nat.floor_natCast, min_self]
  rw [slice, hstart, hstop, List.take_length, lastOf]

theorem readFirst_of_nodup {ns : List (NotificationEntity M)}
    (h : (ns.map NotificationEntity.id).Nodup) (id : String) :
    readFirst id ns = ns.map fun n => if n.id = id then { n with isRead := true } else n := by
  induction ns with
  | nil => rfl
  | cons n ns ih =>
    rw [List.map_cons, List.nodup_cons] at h
    rw [readFirst, List.map_cons]
    split_ifs with hid
    · refine congrArg (_ :: ·) ((List.map_id _).symm.trans (List.map_congr_left fun n' hn' => ?_))
      rw [if_neg, id_eq]
      rintro rfl
      exact h.1 (hid ▸ List.mem_map_of_mem hn')
    · exact congrArg (n :: ·) (ih h.2)

theorem map_id_inbox (es : List (NotificationEvent u B M)) :
    (inbox es).map NotificationEntity.id = (sent es).map NotificationEntity.id := by
  rw [inbox, List.map_map]
  rfl

section Concat

variable (es : List (NotificationEvent u B M)) (e : NotificationEvent u B M)

theorem sent_concat : sent (es ++ [e]) = sent es ++ e.result.sentOne.toList := by
  rw [sent, List.filterMap_append]
  cases h : e.result.sentOne <;> simp [sent, h]

theorem webhooksOf_concat : webhooksOf (es ++ [e]) = webhooksOf es ++ e.result.created.toList := by
  rw [webhooksOf, List.filterMap_append]
  cases h : e.result.created <;> simp [webhooksOf, h]

theorem readIds_concat :
    (es ++ [e]).filterMap readId = es.filterMap readId ++ (readId e).toList := by
  rw [List.filterMap_append]
  cases h : readId e <;> simp [h]

end Concat

variable {es : List (NotificationEvent u B M)} {e : NotificationEvent u B M}
  {r : NotificationRepository u M} {S : Schemas B M} {req : NotificationRequest B}

theorem Kept.same (h : Kept es r) (hsent : e.result.sentOne = none)
    (hcreated : e.result.created = none) (hread : readId e = none) : Kept (es ++ [e]) r := by
  have hs : sent (es ++ [e]) = sent es := by
    rw [sent_concat, hsent, Option.toList_none, List.append_nil]
  have hw : webhooksOf (es ++ [e]) = webhooksOf es := by
    rw [webhooksOf_concat, hcreated, Option.toList_none, List.append_nil]
  have hr : (es ++ [e]).filterMap readId = es.filterMap readId := by
    rw [readIds_concat, hread, Option.toList_none, List.append_nil]
  refine ⟨?_, ?_, hw ▸ h.webhooks, hw ▸ h.keys⟩
  · rw [inbox, hs, hr]
    exact h.notifications
  · rw [hs, hr]
    exact h.read

theorem Kept.send (h : Kept es r) {dto : SendNotificationDTO M}
    (hresult : e.result = .sent (r.createNotification dto).2) (hread : readId e = none) :
    Kept (es ++ [e]) (r.createNotification dto).1 := by
  have hs : sent (es ++ [e]) = sent es ++ [(r.createNotification dto).2] := by
    rw [sent_concat, hresult]
    rfl
  have hw : webhooksOf (es ++ [e]) = webhooksOf es := by
    rw [webhooksOf_concat, hresult]
    exact List.append_nil _
  have hr : (es ++ [e]).filterMap readId = es.filterMap readId := by
    rw [readIds_concat, hread, Option.toList_none, List.append_nil]
  have hnew : u.draw r.draws ∉ es.filterMap readId := by
    intro hmem
    refine r.draw_not_mem ?_
    rw [h.notifications, map_id_inbox]
    exact h.read _ hmem
  refine ⟨?_, ?_, hw ▸ h.webhooks, hw ▸ h.keys⟩
  · rw [inbox, hs, hr, List.map_append, List.map_singleton]
    refine congrArg₂ (· ++ ·) h.notifications ?_
    exact congrArg (fun isRead => [({ dto with id := _, isRead } : NotificationEntity M)])
      (decide_eq_false hnew).symm
  · intro id hid
    rw [hr] at hid
    rw [hs, List.map_append]
    exact List.mem_append_left _ (h.read id hid)

theorem Kept.mark (h : Kept es r) {id : String} (hid : id ∈ (sent es).map NotificationEntity.id)
    (hresult : e.result = .marked true) (hread : readId e = some id) :
    Kept (es ++ [e]) (r.markAsRead id).1 := by
  have hmem : id ∈ r.notifications.map NotificationEntity.id := by
    rw [h.notifications, map_id_inbox]
    exact hid
  have hs : sent (es ++ [e]) = sent es := by
    rw [sent_concat, hresult]
    exact List.append_nil _
  have hw : webhooksOf (es ++ [e]) = webhooksOf es := by
    rw [webhooksOf_concat, hresult]
    exact List.append_nil _
  have hr : (es ++ [e]).filterMap readId = es.filterMap readId ++ [id] := by
    rw [readIds_concat, hread, Option.toList_some]
  rw [NotificationRepository.markAsRead, if_pos hmem]
  refine ⟨?_, ?_, hw ▸ h.webhooks, hw ▸ h.keys⟩
  · simp only
    rw [readFirst_of_nodup r.nodup, h.notifications, inbox, inbox, hs, hr, List.map_map]
    refine List.map_congr_left fun n _ => ?_
    simp only [Function.comp_apply, List.mem_append, List.mem_singleton]
    split_ifs with hn <;> simp [hn]
  · intro id' hid'
    rw [hr, List.mem_append, List.mem_singleton] at hid'
    rw [hs]
    rcases hid' with hid' | rfl
    · exact h.read id' hid'
    · exact hid

theorem Kept.create (h : Kept es r) {dto : CreateWebhookDTO} {secretKey : JsString}
    (hresult : e.result = .webhook (r.createWebhook dto secretKey).2) (hread : readId e = none) :
    Kept (es ++ [e]) (r.createWebhook dto secretKey).1 := by
  have hs : sent (es ++ [e]) = sent es := by
    rw [sent_concat, hresult]
    exact List.append_nil _
  have hw : webhooksOf (es ++ [e]) = webhooksOf es ++ [(r.createWebhook dto secretKey).2] := by
    rw [webhooksOf_concat, hresult]
    rfl
  have hr : (es ++ [e]).filterMap readId = es.filterMap readId := by
    rw [readIds_concat, hread, Option.toList_none, List.append_nil]
  have hfresh : u.draw r.draws ∉ r.webhooks.keys := r.webhooks_issued.fresh le_rfl
  refine ⟨?_, ?_, ?_, ?_⟩
  · rw [inbox, hs, hr]
    exact h.notifications
  · rw [hs, hr]
    exact h.read
  · rw [NotificationRepository.createWebhook, JsMap.values_set_of_fresh hfresh, hw, h.webhooks]
    rfl
  · rw [NotificationRepository.createWebhook, JsMap.keys, JsMap.entries_set_of_fresh hfresh, hw,
      List.map_append, List.map_append, h.keys]
    rfl

/-- **One request**: it is answered by the record, and the repository holds what the record tells
then. -/
theorem Kept.handle (h : Kept es r) (S : Schemas B M) (req : NotificationRequest B) :
    Kept (es ++ [(notificationMachine S u).event r req]) ((notificationMachine S u).next r req) ∧
      Answered S es req (handle S req r).2 := by
  have hids : r.notifications.map NotificationEntity.id = (sent es).map NotificationEntity.id := by
    rw [h.notifications, map_id_inbox]
  have hstep : ∀ r' reply, Notification.handle S req r = (r', reply) →
      Kept (es ++ [⟨r, req, r', reply⟩]) r' ∧ Answered S es req reply →
      Kept (es ++ [(notificationMachine S u).event r req]) ((notificationMachine S u).next r req) ∧
        Answered S es req (Notification.handle S req r).2 := by
    rintro r' reply heq ⟨hkept, hanswered⟩
    have hcall : (notificationMachine S u).call req r = (r', reply) := heq
    rw [Machine.event, Machine.next, hcall, heq]
    exact ⟨hkept, hanswered⟩
  cases hroute : req.route with
  | send =>
    cases hdto : S.send req.body (req.tenantId S) with
    | none =>
      refine hstep r .invalid (by rw [Notification.handle, hroute, hdto])
        ⟨h.same rfl rfl (by rw [readId, hroute]), .invalid (Or.inl ⟨hroute, hdto⟩)⟩
    | some dto =>
      refine hstep _ (.sent (r.createNotification dto).2)
        (by rw [Notification.handle, hroute, hdto]) ⟨h.send rfl (by rw [readId, hroute]), ?_⟩
      refine .sent hroute _ hdto rfl ?_
      rw [← hids]
      exact r.draw_not_mem
  | mine =>
    have hlist : r.listByUser req.userId inboxLimit =
        lastOf 50 ((inbox es).filter fun n => some n.recipientId = req.userId) := by
      rw [NotificationRepository.listByUser, h.notifications]
      exact slice_last _
    refine hstep r (.mine (r.listByUser req.userId inboxLimit))
      (by rw [Notification.handle, hroute]) ⟨h.same rfl rfl (by rw [readId, hroute]), ?_⟩
    rw [hlist]
    exact .mine hroute
  | markRead id =>
    by_cases hid : id ∈ (sent es).map NotificationEntity.id
    · have hmem : id ∈ r.notifications.map NotificationEntity.id := hids ▸ hid
      refine hstep (r.markAsRead id).1 (.marked true) ?_
        ⟨h.mark hid rfl (by rw [readId, hroute]), ?_⟩
      · rw [Notification.handle, hroute]
        simp only [NotificationRepository.markAsRead, if_pos hmem]
      · exact decide_eq_true hid ▸ .marked id hroute
    · have hmem : id ∉ r.notifications.map NotificationEntity.id := hids ▸ hid
      refine hstep r (.marked false) ?_ ⟨h.same rfl rfl (by rw [readId, hroute]), ?_⟩
      · rw [Notification.handle, hroute]
        simp only [NotificationRepository.markAsRead, if_neg hmem]
      · exact decide_eq_false hid ▸ .marked id hroute
  | createWebhook =>
    cases hdto : S.webhook req.body (req.tenantId S) with
    | none =>
      refine hstep r .invalid (by rw [Notification.handle, hroute, hdto])
        ⟨h.same rfl rfl (by rw [readId, hroute]), .invalid (Or.inr ⟨hroute, hdto⟩)⟩
    | some dto =>
      refine hstep _ (.webhook (r.createWebhook dto (toHex req.secretBytes)).2)
        (by rw [Notification.handle, hroute, hdto]) ⟨h.create rfl (by rw [readId, hroute]), ?_⟩
      refine .webhook hroute _ hdto rfl rfl ?_
      rw [h.keys]
      exact r.webhooks_issued.fresh le_rfl
  | listWebhooks =>
    have hlist : r.listWebhooks req.listedTenantId =
        (webhooksOf es).filter fun w => some w.tenantId = req.listedTenantId := by
      rw [NotificationRepository.listWebhooks, h.webhooks]
    refine hstep r (.webhooks (r.listWebhooks req.listedTenantId))
      (by rw [Notification.handle, hroute]) ⟨h.same rfl rfl (by rw [readId, hroute]), ?_⟩
    rw [hlist]
    exact .webhooks hroute

/-! ## Runs -/

theorem kept_run (S : Schemas B M) (u : UuidSource) (reqs : List (NotificationRequest B)) :
    Kept ((notificationMachine S u).history (.new u) reqs)
      ((notificationMachine S u).run (.new u) reqs) := by
  refine Machine.history_induction (J := Kept) ⟨rfl, ?_, rfl, rfl⟩ ?_ reqs
  · exact fun id hid => absurd hid List.not_mem_nil
  · exact fun es r req h => (h.handle S req).1

/-- **Every request is answered by the record** of the requests before it: an inbox shows the last
50 notifications that were sent to the user, each of them read if it was marked since it was sent,
and a tenant is shown the webhooks that were created for it. -/
theorem answers_spec (S : Schemas B M) (u : UuidSource) (reqs : List (NotificationRequest B))
    (req : NotificationRequest B) :
    Answered S ((notificationMachine S u).history (.new u) reqs) req
      (handle S req ((notificationMachine S u).run (.new u) reqs)).2 :=
  ((kept_run S u reqs).handle S req).2

/-! ## The schemas -/

/-- The members of a request body that the schemas read, absent or of their types. -/
structure NotificationBody (M : Type) where
  tenantId : Option String := none
  recipientId : Option String := none
  recipientEmail : Option String := none
  recipientPhone : Option String := none
  channel : Option String := none
  priority : Option String := none
  subject : Option String := none
  body : Option String := none
  metadata : Option M := none
  targetUrl : Option String := none
  subscribedEvents : Option (List String) := none

/-- The formats of `z.string()`. -/
structure Formats where
  uuid : String → Bool
  email : String → Bool
  url : String → Bool

/-- `z.nativeEnum(NotificationChannel)`. -/
def NotificationChannel.ofText (text : String) : Option NotificationChannel :=
  [("IN_APP", .IN_APP), ("WEBSOCKET", .WEBSOCKET), ("EMAIL", .EMAIL), ("SMS", .SMS),
    ("WEBHOOK", .WEBHOOK), ("SLACK_BRIDGE", .SLACK_BRIDGE)].lookup text

/-- `z.nativeEnum(NotificationPriority)`. -/
def NotificationPriority.ofText (text : String) : Option NotificationPriority :=
  [("LOW", .LOW), ("NORMAL", .NORMAL), ("HIGH", .HIGH), ("URGENT", .URGENT)].lookup text

/-- **`SendNotificationSchema` and `CreateWebhookSchema`.** -/
def dtoSchemas (formats : Formats) : Schemas (NotificationBody M) M where
  tenantId := NotificationBody.tenantId
  send b t :=
    (t.filter formats.uuid).bind fun tenantId =>
    (b.recipientId.filter formats.uuid).bind fun recipientId =>
    (b.channel.elim (some .IN_APP) NotificationChannel.ofText).bind fun channel =>
    (b.priority.elim (some .NORMAL) NotificationPriority.ofText).bind fun priority =>
    (b.subject.filter fun text => 1 ≤ (js text).length ∧ (js text).length ≤ 200).bind fun subject =>
    (b.body.filter fun text => 1 ≤ (js text).length).bind fun body =>
    if b.recipientEmail.all formats.email then
      some { tenantId, recipientId, channel, priority, subject, body, metadata := b.metadata,
             recipientEmail := b.recipientEmail, recipientPhone := b.recipientPhone }
    else none
  webhook b t :=
    (t.filter formats.uuid).bind fun tenantId =>
    (b.targetUrl.filter formats.url).bind fun targetUrl =>
    (b.subscribedEvents.filter fun events => 1 ≤ events.length).map fun subscribedEvents =>
      { tenantId, targetUrl, subscribedEvents }
  send_tenantId b t dto h := by
    obtain ⟨tenantId, ht, h⟩ := Option.bind_eq_some_iff.mp h
    obtain ⟨recipientId, -, h⟩ := Option.bind_eq_some_iff.mp h
    obtain ⟨channel, -, h⟩ := Option.bind_eq_some_iff.mp h
    obtain ⟨priority, -, h⟩ := Option.bind_eq_some_iff.mp h
    obtain ⟨subject, -, h⟩ := Option.bind_eq_some_iff.mp h
    obtain ⟨body, -, h⟩ := Option.bind_eq_some_iff.mp h
    obtain ⟨-, h⟩ := Option.ite_none_right_eq_some.mp h
    rw [← Option.some.inj h]
    exact (Option.filter_eq_some_iff.mp ht).1
  webhook_tenantId b t dto h := by
    obtain ⟨tenantId, ht, h⟩ := Option.bind_eq_some_iff.mp h
    obtain ⟨targetUrl, -, h⟩ := Option.bind_eq_some_iff.mp h
    obtain ⟨subscribedEvents, -, rfl⟩ := Option.map_eq_some_iff.mp h
    exact (Option.filter_eq_some_iff.mp ht).1

/-! ## A notification -/

section Notice

/-- Texts of the lengths that the formats ask for. -/
def plainFormats : Formats where
  uuid text := text.length = 36
  email text := text.toList.contains '@'
  url text := text.toList.contains ':'

def acme : String := "11111111-1111-4111-8111-111111111111"

def globex : String := "22222222-2222-4222-8222-222222222222"

/-- A body for either route. -/
def shippedBody : NotificationBody Unit where
  recipientId := some globex
  priority := some "HIGH"
  subject := some "Shipped"
  body := some "The pallets are on their way."
  targetUrl := some "https://acme.example/hook"
  subscribedEvents := some ["ORDER_SHIPPED"]

/-- A request whose headers name a tenant and a user. -/
def identified (route : NotificationRoute) (tenantId userId : String) :
    NotificationRequest (NotificationBody Unit) where
  route := route
  headers name :=
    if name = "x-tenant-id" then some tenantId
    else if name = "x-user-id" then some userId else none
  query _ := none
  body := shippedBody
  secretBytes := [1, 171]

/-- A notification is sent twice, and marked once. -/
theorem answers_spec_shipped :
    let M := notificationMachine (M := Unit) (dtoSchemas plainFormats) .unary
    let reqs := [identified .send acme acme, identified .send acme acme,
      identified (.markRead "id") globex globex]
    let reply := (handle (dtoSchemas plainFormats) (identified .mine globex globex)
      (M.run (.new .unary) reqs)).2
    Answered (dtoSchemas plainFormats) (M.history (.new .unary) reqs)
        (identified .mine globex globex) reply ∧
      ∃ n n', reply = .mine [n, n'] ∧ (n.id, n.isRead) = ("id", true) ∧
        (n'.id, n'.isRead) = ("idx", false) ∧ n'.tenantId = acme ∧ n'.recipientId = globex :=
  ⟨answers_spec _ _ _ _, _, _, rfl, by decide, by decide, by decide, by decide⟩

end Notice

end Logix.Notification
