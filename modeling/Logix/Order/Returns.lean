import Logix.Common.Errors
import Logix.Js.Date
import Logix.Js.Number
import Logix.Js.Text
import Logix.Spec.Registry
import Logix.Spec.Stable

/-!
# Does a return keep its life cycle?

`RmaReturnMerchandiseAuthorizationService` creates a return request, approves it, and refunds or
rejects it after an inspection. Numbers are rational; `Math.random()` and the clock readings are
arguments of the calls.

* `createRmaRequest`, `approveRma`, `processReturnInspection`, `rmaMachine`: the code;
* `LifeCycle`: a return is refunded at most once, after an approval, and a refunded or rejected
  return keeps its status;
* `BreaksLifeCycle`: a call that overwrites a final status, or refunds a pending return;
* `statusOf_next`: what a call does to the status of a return;
* **`lifeCycle_iff`**: a run with distinct RMA numbers keeps the life cycle exactly when no call
  breaks it;
* `refunded_then_rejected`: a refunded return that is rejected.
-/

namespace Logix.Order

open Spec

/-- `status` of a return. -/
inductive RmaStatus where
  | PENDING_APPROVAL | APPROVED | IN_TRANSIT | INSPECTED | REFUND_PROCESSED | REJECTED
  deriving DecidableEq, Repr

/-- `customerReason`. -/
inductive CustomerReason where
  | DAMAGED_IN_TRANSIT | WRONG_ITEM_RECEIVED | DEFECTIVE_PRODUCT | BUYER_REMORSE
  deriving DecidableEq, Repr

/-- `returnCondition`. -/
inductive ReturnCondition where
  | UNOPENED | OPENED | DAMAGED
  deriving DecidableEq, Repr

/-- An entry of `returnItems`. -/
structure ReturnItem where
  sku : String
  quantity : ℚ
  returnCondition : ReturnCondition
  deriving DecidableEq, Repr

/-- `IRmaRequest`. -/
structure IRmaRequest where
  rmaNumber : JsString
  originalOrderId : String
  tenantId : String
  customerReason : CustomerReason
  returnItems : List ReturnItem
  trackingNumber : Option String := none
  status : RmaStatus
  refundAmountUSD : ℚ
  restockingFeeUSD : ℚ
  createdAt : JsDate
  deriving DecidableEq, Repr

/-- **`RmaReturnMerchandiseAuthorizationService`.** -/
structure RmaReturnMerchandiseAuthorizationService where
  rmaStore : JsMap JsString IRmaRequest

/-- A call of `createRmaRequest`: its arguments, the clock and the random number in the RMA number,
and the clock of the creation. -/
structure CreateRmaRequest where
  originalOrderId : String
  tenantId : String
  customerReason : CustomerReason
  returnItems : List ReturnItem
  itemPriceMap : JsMap String ℚ
  idNow : JsDate
  random : ℚ
  now : JsDate

namespace CreateRmaRequest

/-- `rmaNumber`. -/
def rmaNumber (c : CreateRmaRequest) : JsString :=
  stampId "RMA-" c.idNow ++ js "-" ++ intToBase 10 ⌊100 + c.random * 900⌋

/-- `itemPriceMap.get(i.sku) || 50.0`. -/
def unitPrice (c : CreateRmaRequest) (i : ReturnItem) : ℚ :=
  match c.itemPriceMap.get i.sku with
  | none => 50
  | some price => if price = 0 then 50 else price

/-- `grossRefund`. -/
def grossRefund (c : CreateRmaRequest) : ℚ :=
  c.returnItems.foldl (fun gross i => gross + c.unitPrice i * i.quantity) 0

/-- `restockingFee`: 15% for buyer's remorse. -/
def restockingFee (c : CreateRmaRequest) : ℚ :=
  if c.customerReason = .BUYER_REMORSE then toFixed 2 (c.grossRefund * (15 / 100)) else 0

/-- The return that a call creates. -/
def rma (c : CreateRmaRequest) : IRmaRequest where
  rmaNumber := c.rmaNumber
  originalOrderId := c.originalOrderId
  tenantId := c.tenantId
  customerReason := c.customerReason
  returnItems := c.returnItems
  status := .PENDING_APPROVAL
  refundAmountUSD := toFixed 2 (c.grossRefund - c.restockingFee)
  restockingFeeUSD := c.restockingFee
  createdAt := c.now

end CreateRmaRequest

namespace RmaReturnMerchandiseAuthorizationService

/-- `new RmaReturnMerchandiseAuthorizationService()`. -/
def new : RmaReturnMerchandiseAuthorizationService := ⟨.empty⟩

/-- **`createRmaRequest`.** -/
def createRmaRequest (s : RmaReturnMerchandiseAuthorizationService) (c : CreateRmaRequest) :
    RmaReturnMerchandiseAuthorizationService × IRmaRequest :=
  (⟨s.rmaStore.set c.rmaNumber c.rma⟩, c.rma)

/-- A mutation of a stored return. -/
def update (s : RmaReturnMerchandiseAuthorizationService) (rmaNumber : JsString)
    (f : IRmaRequest → IRmaRequest) :
    RmaReturnMerchandiseAuthorizationService × Except DomainException IRmaRequest :=
  match s.rmaStore.get rmaNumber with
  | none => (s, .error (.error "RMA record not found"))
  | some rma => (⟨s.rmaStore.modify rmaNumber f⟩, .ok (f rma))

/-- **`approveRma(rmaNumber, returnCarrierTracking)`.** -/
def approveRma (s : RmaReturnMerchandiseAuthorizationService) (rmaNumber : JsString)
    (returnCarrierTracking : String) :
    RmaReturnMerchandiseAuthorizationService × Except DomainException IRmaRequest :=
  s.update rmaNumber fun rma =>
    { rma with status := .APPROVED, trackingNumber := some returnCarrierTracking }

/-- **`processReturnInspection(rmaNumber, inspectionPassed)`.** -/
def processReturnInspection (s : RmaReturnMerchandiseAuthorizationService) (rmaNumber : JsString)
    (inspectionPassed : Bool) :
    RmaReturnMerchandiseAuthorizationService × Except DomainException IRmaRequest :=
  s.update rmaNumber fun rma =>
    { rma with status := if inspectionPassed then .REFUND_PROCESSED else .REJECTED }

end RmaReturnMerchandiseAuthorizationService

open RmaReturnMerchandiseAuthorizationService

/-- The calls. -/
inductive RmaCall where
  | createRmaRequest (c : CreateRmaRequest)
  | approveRma (rmaNumber : JsString) (returnCarrierTracking : String)
  | processReturnInspection (rmaNumber : JsString) (inspectionPassed : Bool)

/-- The service under its calls. -/
def rmaMachine : Machine RmaReturnMerchandiseAuthorizationService RmaCall
    (Except DomainException IRmaRequest) where
  call
    | .createRmaRequest c, s =>
      let (s', rma) := s.createRmaRequest c
      (s', .ok rma)
    | .approveRma rmaNumber returnCarrierTracking, s => s.approveRma rmaNumber returnCarrierTracking
    | .processReturnInspection rmaNumber inspectionPassed, s =>
      s.processReturnInspection rmaNumber inspectionPassed

abbrev RmaEvent :=
  Event RmaReturnMerchandiseAuthorizationService RmaCall (Except DomainException IRmaRequest)

/-! ## The life cycle -/

/-- The status of a return. -/
def statusOf (rmaNumber : JsString) (s : RmaReturnMerchandiseAuthorizationService) :
    Option RmaStatus :=
  (s.rmaStore.get rmaNumber).map IRmaRequest.status

/-- A refunded or rejected return. -/
def RmaStatus.IsFinal (status : RmaStatus) : Prop := status = .REFUND_PROCESSED ∨ status = .REJECTED

instance (status : RmaStatus) : Decidable status.IsFinal :=
  inferInstanceAs (Decidable (_ ∨ _))

/-- The return has this final status. -/
def HasFinal (p : JsString × RmaStatus) (s : RmaReturnMerchandiseAuthorizationService) : Prop :=
  p.2.IsFinal ∧ statusOf p.1 s = some p.2

/-- The return is refunded. -/
def IsRefunded (rmaNumber : JsString) (s : RmaReturnMerchandiseAuthorizationService) : Prop :=
  statusOf rmaNumber s = some .REFUND_PROCESSED

/-- **The life cycle of the returns of a run.** -/
structure LifeCycle (calls : List RmaCall) : Prop where
  once : ∀ rmaNumber, (rmaMachine.history .new calls).Pairwise fun e e' =>
    ¬ (Machine.Enters (IsRefunded rmaNumber) e ∧ Machine.Enters (IsRefunded rmaNumber) e')
  approved : ∀ rmaNumber pre e post, rmaMachine.history .new calls = pre ++ e :: post →
    Machine.Enters (IsRefunded rmaNumber) e →
    ∃ e' ∈ pre, statusOf rmaNumber e'.after = some .APPROVED
  final : rmaMachine.Stable .new HasFinal calls

/-- The RMA number that a call creates. -/
def RmaCall.created : RmaCall → Option JsString
  | .createRmaRequest c => some c.rmaNumber
  | .approveRma _ _ | .processReturnInspection _ _ => none

/-- The status that a call writes, and the return that it writes to. -/
def RmaCall.writes : RmaCall → Option (JsString × RmaStatus)
  | .createRmaRequest _ => none
  | .approveRma rmaNumber _ => some (rmaNumber, .APPROVED)
  | .processReturnInspection rmaNumber inspectionPassed =>
    some (rmaNumber, if inspectionPassed then .REFUND_PROCESSED else .REJECTED)

/-- **A call that breaks the life cycle**: it overwrites a final status with another one, or refunds
a return that is pending. -/
def BreaksLifeCycle (e : RmaEvent) : Prop :=
  ∃ rmaNumber target status, e.input.writes = some (rmaNumber, target) ∧
    statusOf rmaNumber e.before = some status ∧
    (status.IsFinal ∧ target ≠ status ∨
      status = .PENDING_APPROVAL ∧ target = .REFUND_PROCESSED)

instance : DecidablePred BreaksLifeCycle := fun e =>
  decidable_of_iff (∃ p ∈ e.input.writes, ∃ status ∈ statusOf p.1 e.before,
    (status.IsFinal ∧ p.2 ≠ status ∨ status = .PENDING_APPROVAL ∧ p.2 = .REFUND_PROCESSED))
    ⟨fun ⟨p, hp, status, hstatus, h⟩ => ⟨p.1, p.2, status, hp, hstatus, h⟩,
      fun ⟨n, target, status, hp, hstatus, h⟩ => ⟨(n, target), hp, status, hstatus, h⟩⟩

/-! ## One call -/

section Calls

variable {s : RmaReturnMerchandiseAuthorizationService} {c : RmaCall} {rmaNumber n : JsString}
  {target status : RmaStatus}

theorem statusOf_update {f : IRmaRequest → IRmaRequest} (hf : ∀ rma, (f rma).status = target) :
    statusOf n (s.update rmaNumber f).1 =
      if n = rmaNumber then (statusOf n s).map fun _ => target else statusOf n s := by
  unfold update
  cases hget : s.rmaStore.get rmaNumber with
  | none =>
    split_ifs with hn
    · subst hn
      simp [statusOf, hget]
    · rfl
  | some rma => exact JsMap.map_get_modify hf s.rmaStore rmaNumber n

/-- **What a call does to the status of a return**: it creates the return as pending, writes to it,
or leaves it. -/
theorem statusOf_next (s : RmaReturnMerchandiseAuthorizationService) (c : RmaCall) (n : JsString) :
    (c.created = some n ∧ statusOf n (rmaMachine.next s c) = some .PENDING_APPROVAL) ∨
    (∃ target, c.writes = some (n, target) ∧
      statusOf n (rmaMachine.next s c) = (statusOf n s).map fun _ => target) ∨
    (∀ target, c.writes ≠ some (n, target)) ∧
      statusOf n (rmaMachine.next s c) = statusOf n s := by
  have hwrite : ∀ {rmaNumber target}, c.writes = some (rmaNumber, target) →
      statusOf n (rmaMachine.next s c) =
        (if n = rmaNumber then (statusOf n s).map fun _ => target else statusOf n s) →
      (∃ target, c.writes = some (n, target) ∧
        statusOf n (rmaMachine.next s c) = (statusOf n s).map fun _ => target) ∨
      (∀ target, c.writes ≠ some (n, target)) ∧
        statusOf n (rmaMachine.next s c) = statusOf n s := by
    intro rmaNumber target hc hnext
    by_cases hn : n = rmaNumber
    · subst hn
      exact Or.inl ⟨target, hc, hnext.trans (if_pos rfl)⟩
    · refine Or.inr ⟨fun target' hc' => hn ?_, hnext.trans (if_neg hn)⟩
      exact (congrArg Prod.fst (Option.some.inj (hc.symm.trans hc'))).symm
  cases c with
  | createRmaRequest c =>
    by_cases hn : n = c.rmaNumber
    · subst hn
      exact Or.inl ⟨rfl, congrArg (Option.map _) (JsMap.get_set_self _ _ _)⟩
    · refine Or.inr (Or.inr ⟨(fun target h => by cases h), ?_⟩)
      exact congrArg (Option.map _) (JsMap.get_set_ne hn _)
  | approveRma rmaNumber returnCarrierTracking =>
    exact Or.inr (hwrite rfl (statusOf_update fun _ => rfl))
  | processReturnInspection rmaNumber inspectionPassed =>
    exact Or.inr (hwrite rfl (statusOf_update fun _ => rfl))

/-- A call creates no return under a number that is there. -/
def IsNew (s : RmaReturnMerchandiseAuthorizationService) (c : RmaCall) : Prop :=
  ∀ n ∈ c.created, n ∉ s.rmaStore.keys

theorem statusOf_eq_none_of_isNew (h : IsNew s c) (hc : c.created = some n) :
    statusOf n s = none := by
  rw [statusOf, JsMap.get_eq_none_iff.mpr (h n hc)]
  rfl

/-- **A call that does not break the life cycle keeps a final status.** -/
theorem hasFinal_next {p : JsString × RmaStatus} (hnew : IsNew s c)
    (h : ¬ BreaksLifeCycle (rmaMachine.event s c)) (hp : HasFinal p s) :
    HasFinal p (rmaMachine.next s c) := by
  obtain ⟨n, status⟩ := p
  obtain ⟨hfinal, hstatus⟩ := hp
  refine ⟨hfinal, ?_⟩
  rcases statusOf_next s c n with ⟨hc, -⟩ | ⟨target, hc, hnext⟩ | ⟨-, hnext⟩
  · rw [statusOf_eq_none_of_isNew hnew hc] at hstatus
    cases hstatus
  · replace hstatus : statusOf n s = some status := hstatus
    rw [hnext, hstatus]
    by_contra hne
    refine h ⟨n, target, status, hc, hstatus, Or.inl ⟨hfinal, fun heq => hne ?_⟩⟩
    rw [heq]
    rfl
  · exact hnext.trans hstatus

theorem statusOf_of_writes (hc : c.writes = some (n, target))
    (hstatus : statusOf n s = some status) :
    statusOf n (rmaMachine.next s c) = some target := by
  rcases statusOf_next s c n with ⟨hcreated, -⟩ | ⟨target', hc', hnext⟩ | ⟨hno, -⟩
  · cases c with
    | createRmaRequest c => cases hc
    | approveRma rmaNumber returnCarrierTracking => cases hcreated
    | processReturnInspection rmaNumber inspectionPassed => cases hcreated
  · obtain ⟨-, rfl⟩ := Prod.mk.inj (Option.some.inj (hc.symm.trans hc'))
    rw [hnext, hstatus]
    rfl
  · exact absurd hc (hno target)

theorem enters_refunded (h : Machine.Enters (IsRefunded n) (rmaMachine.event s c)) :
    ∃ status, c.writes = some (n, .REFUND_PROCESSED) ∧ statusOf n s = some status ∧
      status ≠ .REFUND_PROCESSED := by
  obtain ⟨hbefore, hafter⟩ := h
  replace hbefore : ¬ statusOf n s = some .REFUND_PROCESSED := hbefore
  replace hafter : statusOf n (rmaMachine.next s c) = some .REFUND_PROCESSED := hafter
  rcases statusOf_next s c n with ⟨-, hnext⟩ | ⟨target, hc, hnext⟩ | ⟨-, hnext⟩
  · cases hnext.symm.trans hafter
  · rw [hnext] at hafter
    obtain ⟨status, hstatus, rfl⟩ := Option.map_eq_some_iff.mp hafter
    exact ⟨status, hc, hstatus, fun heq => hbefore (heq ▸ hstatus)⟩
  · exact absurd (hnext.symm.trans hafter) hbefore

theorem writes_cases (hc : c.writes = some (n, target)) :
    target = .APPROVED ∨ target.IsFinal := by
  cases c with
  | createRmaRequest c => cases hc
  | approveRma rmaNumber returnCarrierTracking =>
    obtain ⟨-, rfl⟩ := Prod.mk.inj (Option.some.inj hc)
    exact Or.inl rfl
  | processReturnInspection rmaNumber inspectionPassed =>
    obtain ⟨-, rfl⟩ := Prod.mk.inj (Option.some.inj hc)
    cases inspectionPassed with
    | true => exact Or.inr (Or.inl rfl)
    | false => exact Or.inr (Or.inr rfl)

end Calls

/-! ## Runs -/

/-- **What the status of a return says of the calls before**: a return that is approved became so,
and one that is pending was never approved. -/
structure Approvals (n : JsString) (es : List RmaEvent)
    (s : RmaReturnMerchandiseAuthorizationService) : Prop where
  reached : ∀ status, statusOf n s = some status →
    status = .PENDING_APPROVAL ∨ status = .APPROVED ∨ status.IsFinal
  approved : statusOf n s = some .APPROVED → ∃ e ∈ es, statusOf n e.after = some .APPROVED
  pending : statusOf n s = none ∨ statusOf n s = some .PENDING_APPROVAL →
    ∀ e ∈ es, statusOf n e.after ≠ some .APPROVED

section Runs

variable {calls : List RmaCall} {n : JsString}

section Step

variable {es : List RmaEvent} {s : RmaReturnMerchandiseAuthorizationService} {c : RmaCall}

theorem reached_next (h : Approvals n es s) {status : RmaStatus}
    (hstatus : statusOf n (rmaMachine.next s c) = some status) :
    status = .PENDING_APPROVAL ∨ status = .APPROVED ∨ status.IsFinal := by
  rcases statusOf_next s c n with ⟨-, hnext⟩ | ⟨target, hc, hnext⟩ | ⟨-, hnext⟩
  · exact Or.inl (Option.some.inj (hstatus.symm.trans hnext))
  · rw [hnext] at hstatus
    obtain ⟨-, -, rfl⟩ := Option.map_eq_some_iff.mp hstatus
    exact Or.inr (writes_cases hc)
  · exact h.reached status (hnext.symm.trans hstatus)

theorem pending_before (h : Approvals n es s) (hnew : IsNew s c)
    (hpending : statusOf n (rmaMachine.next s c) = none ∨
      statusOf n (rmaMachine.next s c) = some .PENDING_APPROVAL) :
    ∀ e ∈ es, statusOf n e.after ≠ some .APPROVED := by
  rcases statusOf_next s c n with ⟨hc, -⟩ | ⟨target, hc, hnext⟩ | ⟨-, hnext⟩
  · exact h.pending (Or.inl (statusOf_eq_none_of_isNew hnew hc))
  · rw [hnext] at hpending
    rcases hpending with hnone | hpending
    · exact h.pending (Or.inl (Option.map_eq_none_iff.mp hnone))
    · -- no call writes that a return is pending
      obtain ⟨-, -, rfl⟩ := Option.map_eq_some_iff.mp hpending
      exact absurd (writes_cases hc) (by decide)
  · rw [hnext] at hpending
    exact h.pending hpending

theorem Approvals.next (h : Approvals n es s) (hnew : IsNew s c) :
    Approvals n (es ++ [rmaMachine.event s c]) (rmaMachine.next s c) := by
  refine ⟨fun status => reached_next h, fun happroved => ?_, fun hpending e he => ?_⟩
  · exact ⟨_, List.mem_append_right _ List.mem_cons_self, happroved⟩
  · rcases List.mem_append.mp he with he | he
    · exact pending_before h hnew hpending e he
    · obtain rfl := List.mem_singleton.mp he
      intro happroved
      rcases hpending with hnone | hpending
      · cases hnone.symm.trans happroved
      · cases hpending.symm.trans happroved

end Step

theorem keys_update (s : RmaReturnMerchandiseAuthorizationService) (rmaNumber : JsString)
    (f : IRmaRequest → IRmaRequest) :
    (s.update rmaNumber f).1.rmaStore.keys = s.rmaStore.keys := by
  unfold update
  cases s.rmaStore.get rmaNumber with
  | none => rfl
  | some rma => exact JsMap.keys_modify _ _ _

theorem isNew_run (hids : (calls.filterMap RmaCall.created).Nodup) :
    ∀ e ∈ rmaMachine.history .new calls, IsNew e.before e.input := by
  refine Machine.fresh_of_nodup
    (fun s : RmaReturnMerchandiseAuthorizationService => s.rmaStore.keys) rfl ?_ calls hids
  intro s c n hn
  cases c with
  | createRmaRequest c =>
    rcases JsMap.mem_keys_set.mp hn with rfl | hn
    · exact Or.inr rfl
    · exact Or.inl hn
  | approveRma rmaNumber returnCarrierTracking => exact Or.inl (keys_update s _ _ ▸ hn)
  | processReturnInspection rmaNumber inspectionPassed => exact Or.inl (keys_update s _ _ ▸ hn)

theorem approvals_run (n : JsString)
    (hnew : ∀ e ∈ rmaMachine.history .new calls, IsNew e.before e.input) :
    Approvals n (rmaMachine.history .new calls) (rmaMachine.run .new calls) := by
  refine Machine.history_invariant ?_ (fun es s c h (hc : IsNew s c) => h.next hc) calls hnew
  exact ⟨(fun status h => by cases h), (fun h => by cases h), fun _ e he =>
    absurd he List.not_mem_nil⟩

theorem approvals_before {js ks : List RmaCall} {c : RmaCall} (n : JsString)
    (hids : ((js ++ c :: ks).filterMap RmaCall.created).Nodup) :
    Approvals n (rmaMachine.history .new js) (rmaMachine.run .new js) := by
  refine approvals_run n fun e he => isNew_run hids e ?_
  rw [Machine.history_append]
  exact List.mem_append_left _ he

theorem LifeCycle.not_breaks (h : LifeCycle calls)
    (hids : (calls.filterMap RmaCall.created).Nodup) :
    ∀ e ∈ rmaMachine.history .new calls, ¬ BreaksLifeCycle e := by
  rintro e he ⟨n, target, status, hwrites, hstatus, hbreaks⟩
  obtain ⟨pre, post, hhistory⟩ := List.append_of_mem he
  obtain ⟨js, c, ks, rfl, rfl, rfl⟩ := Machine.exists_of_history_eq hhistory
  have hafter := statusOf_of_writes hwrites hstatus
  rcases hbreaks with ⟨hfinal, hne⟩ | ⟨rfl, rfl⟩
  · have hkept := (Machine.stable_iff _).mp h.final _ he (n, status) ⟨hfinal, hstatus⟩
    exact hne (Option.some.inj (hafter.symm.trans hkept.2))
  · -- a pending return was never approved
    have henters : Machine.Enters (IsRefunded n) (rmaMachine.event (rmaMachine.run .new js) c) :=
      ⟨(fun hrefunded => by cases hstatus.symm.trans hrefunded), hafter⟩
    obtain ⟨e', he', happroved⟩ := h.approved n _ _ _ hhistory henters
    exact (approvals_before n hids).pending (Or.inr hstatus) e' he' happroved

theorem lifeCycle_of_not_breaks (hids : (calls.filterMap RmaCall.created).Nodup)
    (h : ∀ e ∈ rmaMachine.history .new calls, ¬ BreaksLifeCycle e) : LifeCycle calls := by
  have hstable : rmaMachine.Stable .new HasFinal calls := by
    refine (Machine.stable_iff calls).mpr fun e he p hp => ?_
    have hnew := isNew_run hids e he
    have hlegal := h e he
    obtain ⟨js, c, ks, -, rfl⟩ := Machine.mem_history_iff.mp he
    exact hasFinal_next hnew hlegal hp
  refine ⟨fun n => ?_, fun n pre e post hhistory henters => ?_, hstable⟩
  · have hrefunded : HasFinal (n, .REFUND_PROCESSED) = IsRefunded n := by
      funext s
      exact propext ⟨And.right, fun h => ⟨Or.inl rfl, h⟩⟩
    rw [← hrefunded]
    exact hstable.entered_once _
  · obtain ⟨js, c, ks, rfl, rfl, rfl⟩ := Machine.exists_of_history_eq hhistory
    obtain ⟨status, hwrites, hstatus, hne⟩ := enters_refunded henters
    have hlegal := h _ (Machine.mem_history_iff.mpr ⟨js, c, ks, rfl, rfl⟩)
    have hbefore := approvals_before n hids
    rcases hbefore.reached status hstatus with rfl | rfl | hfinal
    · exact absurd ⟨n, _, _, hwrites, hstatus, Or.inr ⟨rfl, rfl⟩⟩ hlegal
    · exact hbefore.approved hstatus
    · exact absurd ⟨n, _, _, hwrites, hstatus, Or.inl ⟨hfinal, hne.symm⟩⟩ hlegal

end Runs

/-- **A run with distinct RMA numbers keeps the life cycle exactly when no call breaks it.** -/
theorem lifeCycle_iff (calls : List RmaCall) (hids : (calls.filterMap RmaCall.created).Nodup) :
    LifeCycle calls ↔ ∀ e ∈ rmaMachine.history .new calls, ¬ BreaksLifeCycle e :=
  ⟨fun h => h.not_breaks hids, lifeCycle_of_not_breaks hids⟩

/-- A return of one item, at the time 0. -/
def returnOne : CreateRmaRequest where
  originalOrderId := "ORD-1"
  tenantId := "t1"
  customerReason := .DEFECTIVE_PRODUCT
  returnItems := [⟨"SKU-1", 1, .OPENED⟩]
  itemPriceMap := .empty
  idNow := 0
  random := 0
  now := 0

/-- An approved return is refunded, and the refund is reported again. -/
theorem lifeCycle_approved : LifeCycle [.createRmaRequest returnOne,
    .approveRma returnOne.rmaNumber "1Z", .processReturnInspection returnOne.rmaNumber true,
    .processReturnInspection returnOne.rmaNumber true] := by
  refine (lifeCycle_iff [.createRmaRequest returnOne, .approveRma returnOne.rmaNumber "1Z",
    .processReturnInspection returnOne.rmaNumber true,
    .processReturnInspection returnOne.rmaNumber true] (List.nodup_singleton _)).mpr ?_
  decide +kernel

/-- A pending return is refunded, and then rejected. -/
theorem refunded_then_rejected : ¬ LifeCycle [.createRmaRequest returnOne,
    .processReturnInspection returnOne.rmaNumber true,
    .processReturnInspection returnOne.rmaNumber false] := by
  intro h
  have hfinal := h.final [.createRmaRequest returnOne,
      .processReturnInspection returnOne.rmaNumber true]
    [.processReturnInspection returnOne.rmaNumber false] [] rfl
    (returnOne.rmaNumber, .REFUND_PROCESSED) ⟨Or.inl rfl, by decide +kernel⟩
  exact absurd hfinal.2 (by decide +kernel)

end Logix.Order
