import BssCli.Common

/-!
# Commercial orders: the state machine and the rows
-/

namespace BssCli.Com

open Money

inductive OrderState
  | acknowledged
  | inProgress
  | completed
  | failed
  | cancelled
  deriving DecidableEq, Repr

namespace OrderState

def name : OrderState → String
  | acknowledged => "acknowledged"
  | inProgress => "in_progress"
  | completed => "completed"
  | failed => "failed"
  | cancelled => "cancelled"

end OrderState

def allowedTargets : OrderState → List OrderState
  | .acknowledged => [.cancelled, .inProgress]
  | .inProgress => [.cancelled, .completed, .failed]
  | _ => []

def OrderState.Terminal (s : OrderState) : Prop := allowedTargets s = []

instance (s : OrderState) : Decidable s.Terminal := inferInstanceAs (Decidable (_ = _))

def transitionViolation (current target : OrderState) : PolicyViolation where
  rule := "order.transition.invalid"
  message := s!"Order cannot transition from '{current.name}' to '{target.name}'"
  context := [("current_state", .str current.name), ("target_state", .str target.name),
    ("allowed", .array ((allowedTargets current).map fun s => .str s.name))]

def checkOrderTransition (current target : OrderState) : Except ApiError Unit :=
  if target ∈ allowedTargets current then .ok () else .error (.policy (transitionViolation current target))

theorem checkOrderTransition_eq_ok {current target : OrderState} :
    checkOrderTransition current target = .ok () ↔ target ∈ allowedTargets current := by
  unfold checkOrderTransition
  split <;> simp_all

/-! ## Rows -/

structure OrderRow where
  id : String
  customerId : String
  state : OrderState
  completedDate : Option Time
  msisdnPreference : Option String
  deriving DecidableEq

inductive ItemState
  | acknowledged
  | completed
  | failed
  deriving DecidableEq

structure ItemRow where
  id : String
  offeringId : String
  state : ItemState
  targetSubscriptionId : Option String
  priceAmount : Option Decimal
  priceCurrency : Option String
  priceOfferingPriceId : Option String
  discountCode : Option String
  promoOfferDefinitionId : Option String
  discountType : Option String
  discountValue : Option Decimal
  discountPeriodsTotal : Option ℤ
  promoOfferId : Option String
  deriving DecidableEq

structure OrderHistoryRow where
  fromState : Option OrderState
  toState : OrderState
  reason : String
  deriving DecidableEq

/-- What the service stores for one order. The items are in the order of their ids. -/
structure OrderDb where
  order : OrderRow
  items : List ItemRow
  history : List OrderHistoryRow
  events : List Event
  deriving DecidableEq

namespace OrderDb

variable (db : OrderDb)

def item : Option ItemRow := db.items.head?

def addStateHistory (fromState : Option OrderState) (toState : OrderState) (reason : String) : OrderDb :=
  { db with history := db.history ++ [⟨fromState, toState, reason⟩] }

def stage (eventType : String) (payload : Object) : OrderDb :=
  { db with events := db.events ++ [⟨eventType, "ProductOrder", db.order.id, payload⟩] }

/-- `UPDATE … SET state = 'in_progress'`, which leaves the completion date. -/
def setInProgress : OrderDb := { db with order := { db.order with state := .inProgress } }

/-- `UPDATE … SET state = $1, completed_date = $2`. -/
def setSettled (state : OrderState) (now : Time) : OrderDb :=
  { db with order := { db.order with state, completedDate := some now } }

def updateItem (id : String) (f : ItemRow → ItemRow) : OrderDb :=
  { db with items := db.items.map fun it => if it.id = id then f it else it }

end OrderDb

end BssCli.Com

/-!
# What the order service does to an order

Submit and cancel read the order, call out, and write in a transaction of their own. The
two event handlers keep the row locked from their read to their commit.
-/

namespace BssCli.Com

abbrev Snapshot := List (String × Scalar)

def itemPriceSnapshot (item : ItemRow) : Option Snapshot :=
  item.priceAmount.map fun amount =>
    [("priceAmount", .dec amount), ("priceCurrency", optScalar .str item.priceCurrency),
      ("priceOfferingPriceId", optScalar .str item.priceOfferingPriceId)]

/-! ## Submit and cancel -/

/-- A reply of `list_methods`. A reply that is not an array counts as empty. -/
structure MethodDoc where
  id : Option String

def paymentMethodId (methods : List MethodDoc) : String := (methods.head?.bind MethodDoc.id).getD ""

def inProgressPayload (order : OrderRow) (item : Option ItemRow) (methods : List MethodDoc) : Object :=
  [("commercialOrderId", .str order.id), ("customerId", .str order.customerId),
   ("offeringId", .str ((item.map ItemRow.offeringId).getD "")),
   ("msisdnPreference", optValue .str order.msisdnPreference),
   ("paymentMethodId", .str (paymentMethodId methods))] ++
  ((item.bind itemPriceSnapshot).map fun ps => ("priceSnapshot", Value.object ps)).toList

/-- `submit_order` up to its transaction: what it will stage. -/
def submitPlan (methods : Except ClientError (List MethodDoc)) (order : OrderRow) (item : Option ItemRow) :
    Except ApiError Object := do
  checkOrderTransition order.state .inProgress
  let methods ← orUpstream methods
  return inProgressPayload order item methods

def submitCommit (found : OrderRow) (payload : Object) (db : OrderDb) : OrderDb :=
  let db := db.setInProgress
  let db := db.addStateHistory (some found.state) .inProgress "order submitted"
  db.stage "order.in_progress" payload

structure ServiceOrderDoc where
  id : Option String
  state : Option String

def cancelForbidden (orderId : String) (so : ServiceOrderDoc) : PolicyViolation :=
  let id := so.id.getD ""
  let state := so.state.getD ""
  { rule := "order.cancel.forbidden_after_som_started"
    message := s!"Order {orderId} cannot be cancelled — service order {id} is in state '{state}'"
    context := [("order_id", .str orderId), ("service_order_id", optValue .str so.id),
      ("service_order_state", optValue .str so.state)] }

/-- The service order still leaves the choice to cancel. -/
def ServiceOrderDoc.untouched (so : ServiceOrderDoc) : Bool :=
  so.state = none || so.state = some "acknowledged"

/-- The first service order that is past its start refuses. -/
def checkCancelAllowedAfterSom (orderId : String) (serviceOrders : Except ClientError (List ServiceOrderDoc)) :
    Except ApiError Unit := do
  let list ← orUpstream serviceOrders
  match list.find? fun so => !so.untouched with
  | some so => .error (.policy (cancelForbidden orderId so))
  | none => .ok ()

/-- `cancel_order` up to its transaction. -/
def cancelPlan (serviceOrders : Except ClientError (List ServiceOrderDoc)) (order : OrderRow) :
    Except ApiError Unit := do
  checkOrderTransition order.state .cancelled
  if order.state = .inProgress then checkCancelAllowedAfterSom order.id serviceOrders

def cancelCommit (found : OrderRow) (now : Time) (db : OrderDb) : OrderDb :=
  let db := db.setSettled .cancelled now
  let db := db.addStateHistory (some found.state) .cancelled "cancelled by user"
  db.stage "order.cancelled"
    [("commercialOrderId", .str found.id), ("customerId", .str found.customerId)]

/-! ## The service order has completed -/

structure ServiceOrderCompleted where
  commercialOrderId : String
  customerId : String
  offeringId : String
  msisdn : String
  iccid : String
  paymentMethodId : String
  cfsServiceId : String
  priceSnapshot : Option Snapshot

def ServiceOrderCompleted.ofBody (body : Object) : Except String ServiceOrderCompleted := do
  return {
    commercialOrderId := ← reqStr body "commercialOrderId"
    customerId := ← reqStr body "customerId"
    offeringId := ← reqStr body "offeringId"
    msisdn := ← reqStr body "msisdn"
    iccid := ← reqStr body "iccid"
    paymentMethodId := ← reqStr body "paymentMethodId"
    cfsServiceId := optStr body "cfsServiceId"
    priceSnapshot := (Fields.get body "priceSnapshot").bind Value.asObject }

structure Loyalty where
  advanceOfferToClaimed : (offerId key orderId : String) → Except ClientError Unit
  /-- The offer id of the reply. -/
  claimOffer : (customerId code key : String) → Except ClientError (Option String)

def claimEntitlement (loyalty : Option Loyalty) (order : OrderRow) (item : Option ItemRow) :
    Except ClientError (Option String) :=
  match item, loyalty with
  | some item, some loyalty =>
    if item.discountType.isNone ∨ item.discountCode.isNone then .ok none
    else
      match item.promoOfferId with
      | some preOffer => do
        loyalty.advanceOfferToClaimed preOffer s!"{order.id}:claim" order.id
        return some preOffer
      | none => loyalty.claimOffer order.customerId (item.discountCode.getD "") s!"{order.id}:claim"
  | _, _ => .ok none

def withPromo (item : ItemRow) (ps : Snapshot) : Snapshot :=
  let ps := Fields.insert ps "discountType" (optScalar .str item.discountType)
  let ps := Fields.insert ps "discountValue" (optScalar .dec item.discountValue)
  let ps := Fields.insert ps "discountPeriodsTotal" (optScalar .int item.discountPeriodsTotal)
  let ps := Fields.insert ps "promoCode" (optScalar .str item.discountCode)
  Fields.insert ps "promoOfferDefinitionId" (optScalar .str item.promoOfferDefinitionId)

/-- What the promo gate has decided before the subscription is created. -/
structure Completion where
  offerId : Option String
  /-- The claim was refused, and the order goes on at full price. -/
  refused : Bool
  priceSnapshot : Option Snapshot

def completion (loyalty : Option Loyalty) (p : ServiceOrderCompleted) (order : OrderRow)
    (item : Option ItemRow) : Completion :=
  let snapshot := p.priceSnapshot.or (item.bind itemPriceSnapshot)
  match claimEntitlement loyalty order item with
  | .error _ => ⟨none, true, snapshot⟩
  | .ok none => ⟨none, false, snapshot⟩
  | .ok (some offerId) => ⟨some offerId, false, match item with
    | some item => snapshot.map (withPromo item)
    | none => snapshot⟩

/-- The body of `subscription.create`. -/
def createBody (p : ServiceOrderCompleted) (c : Completion) : Object :=
  [("customerId", .str p.customerId), ("offeringId", .str p.offeringId), ("msisdn", .str p.msisdn),
   ("iccid", .str p.iccid), ("paymentMethodId", .str p.paymentMethodId),
   ("commercialOrderId", .str p.commercialOrderId)] ++
  (c.priceSnapshot.map fun ps => ("priceSnapshot", Value.object ps)).toList

def promoNotAppliedPayload (p : ServiceOrderCompleted) (order : OrderRow) (item : Option ItemRow) : Object :=
  [("commercialOrderId", .str order.id), ("customerId", .str p.customerId),
   ("promoCode", optValue .str (item.bind ItemRow.discountCode)), ("reason", .str "claim_refused")]

def completedPayload (p : ServiceOrderCompleted) (order : OrderRow) (subscriptionId : Option String) : Object :=
  [("commercialOrderId", .str order.id), ("customerId", .str order.customerId),
   ("subscriptionId", optValue .str subscriptionId), ("cfsServiceId", .str p.cfsServiceId)]

/-- `handle_service_order_completed` once `subscription.create` has replied. -/
def completedCommit (p : ServiceOrderCompleted) (c : Completion) (order : OrderRow) (item : Option ItemRow)
    (subscriptionId : Option String) (now : Time) (db : OrderDb) : Except ApiError OrderDb := do
  let db := if c.refused then db.stage "order.promo_not_applied" (promoNotAppliedPayload p order item) else db
  let db := match item with
    | some it => db.updateItem it.id fun it => { it with
        targetSubscriptionId := subscriptionId
        state := .completed
        promoOfferId := c.offerId.or it.promoOfferId }
    | none => db
  checkOrderTransition order.state .completed
  let db := db.setSettled .completed now
  let db := db.addStateHistory (some .inProgress) .completed "service order completed"
  return db.stage "order.completed" (completedPayload p order subscriptionId)

/-! ## The service order has failed -/

def failedPayload (order : OrderRow) (reason : String) : Object :=
  [("commercialOrderId", .str order.id), ("customerId", .str order.customerId), ("reason", .str reason)]

def failedCommit (order : OrderRow) (item : Option ItemRow) (reason : String) (now : Time) (db : OrderDb) :
    Except ApiError OrderDb := do
  checkOrderTransition order.state .failed
  let db := db.setSettled .failed now
  let db := match item with
    | some it => db.updateItem it.id fun it => { it with state := .failed }
    | none => db
  let db := db.addStateHistory (some .inProgress) .failed reason
  return db.stage "order.failed" (failedPayload order reason)

/-! ## What a commit leaves -/

theorem completedCommit_eq_ok {p : ServiceOrderCompleted} {c : Completion} {order : OrderRow}
    {item : Option ItemRow} {subscriptionId : Option String} {now : Time} {db db' : OrderDb}
    (h : completedCommit p c order item subscriptionId now db = .ok db') :
    db'.order = { db.order with state := .completed, completedDate := some now } ∧
      db'.history = db.history ++ [⟨some .inProgress, .completed, "service order completed"⟩] := by
  simp only [completedCommit, bind_eq_ok] at h
  obtain ⟨-, -, h⟩ := h
  cases h
  cases item <;> cases c.refused <;> exact ⟨rfl, rfl⟩

theorem failedCommit_eq_ok {order : OrderRow} {item : Option ItemRow} {reason : String} {now : Time}
    {db db' : OrderDb} (h : failedCommit order item reason now db = .ok db') :
    db'.order = { db.order with state := .failed, completedDate := some now } ∧
      db'.history = db.history ++ [⟨some .inProgress, .failed, reason⟩] := by
  simp only [failedCommit, bind_eq_ok] at h
  obtain ⟨-, -, h⟩ := h
  cases h
  cases item <;> exact ⟨rfl, rfl⟩

end BssCli.Com
