import BssCli.Subscription.Renew

/-!
# `create`

The activation is charged first. Only an approved charge inserts the row, active from the
start, with one balance for each allowance of the offering.
-/

namespace BssCli.Subscription

open Money

structure PriceSnapshot where
  priceAmount : Decimal
  priceCurrency : String
  priceOfferingPriceId : String
  discountType : Option String
  discountValue : Option Decimal
  discountPeriodsTotal : Option I64
  promoCode : Option String
  promoOfferDefinitionId : Option String

structure SubscriptionCreateRequest where
  customerId : String
  offeringId : String
  msisdn : String
  iccid : String
  paymentMethodId : String
  priceSnapshot : Option PriceSnapshot
  commercialOrderId : Option String

structure CreateEnv where
  customer : Except ClientError CustomerDoc
  msisdn : Except ClientError MsisdnDoc
  esim : Except ClientError EsimDoc
  offering : Except ClientError OfferingDoc

structure SnapshotPrice where
  amount : Decimal
  currency : String
  offeringPriceId : String

/-- The offering's recurring price, when the request has no snapshot. -/
def recurringPrice (offering : OfferingDoc) (offeringId : String) : Except ApiError SnapshotPrice :=
  let missing : ApiError := .policy
    { rule := "subscription.create.requires_active_price"
      message := s!"Offering {offeringId} has no recurring price row to snapshot"
      context := [("offering_id", .str offeringId)] }
  match (offering.productOfferingPrice.getD []).find? fun p => p.priceType = some "recurring" with
  | none => .error missing
  | some recurring =>
    match recurring.value, recurring.id with
    | .error e, _ => .error (.internal s!"bad price value: {e}")
    | .ok _, none => .error missing
    | .ok amount, some id => .ok ⟨amount, recurring.unit.getD "SGD", id⟩

def createPrice (req : SubscriptionCreateRequest) (offering : OfferingDoc) : Except ApiError SnapshotPrice :=
  match req.priceSnapshot with
  | some ps => .ok ⟨ps.priceAmount, ps.priceCurrency, ps.priceOfferingPriceId⟩
  | none => recurringPrice offering req.offeringId

structure CreatePlan where
  price : SnapshotPrice
  discountType : Option String
  discountValue : Option Decimal
  discountPeriodsTotal : Option I64
  promoCode : Option String
  promoOfferDefinitionId : Option String
  offering : OfferingDoc
  chargeAmount : Decimal

def activationCharge (discountType : Option String) (discountValue : Option Decimal) (amount : Decimal) :
    Except ApiError Decimal :=
  match discountType, discountValue with
  | some dt, some dv =>
    match applyDiscount dt dv amount with
    | .ok x => .ok x
    | .error e => .error (.internal s!"discount math: {e}")
  | _, _ => .ok amount

def createPlan (env : CreateEnv) (req : SubscriptionCreateRequest) : Except ApiError CreatePlan := do
  checkCustomerExists req.customerId env.customer
  checkMsisdnAndEsimReserved req.msisdn req.iccid env.msisdn env.esim
  let offering ← orUpstream env.offering
  let price ← createPrice req offering
  let discountType := req.priceSnapshot.bind PriceSnapshot.discountType
  let discountValue := req.priceSnapshot.bind PriceSnapshot.discountValue
  let discountPeriodsTotal := req.priceSnapshot.bind PriceSnapshot.discountPeriodsTotal
  let chargeAmount ← activationCharge discountType discountValue price.amount
  return {
    price, discountType, discountValue, discountPeriodsTotal, offering, chargeAmount
    promoCode := req.priceSnapshot.bind PriceSnapshot.promoCode
    promoOfferDefinitionId := req.priceSnapshot.bind PriceSnapshot.promoOfferDefinitionId }

/-- The activation is charged in SGD whatever the snapshot says. -/
def CreatePlan.request (p : CreatePlan) (req : SubscriptionCreateRequest) : ChargeRequest :=
  ⟨req.customerId, req.paymentMethodId, p.chargeAmount, "SGD", "activation"⟩

def createDeclined (pay : PaymentResult) : ApiError :=
  .policy
    { rule := "subscription.create.requires_payment_success"
      message := "Activation payment was declined"
      context := [("payment_status", optValue .str pay.status),
        ("decline_reason", optValue .str pay.declineReason)] }

def discountColumn : Option Decimal → Except ApiError (Option Decimal)
  | none => .ok none
  | some d => do
    let d ← numeric12 d
    return some d

def CreatePlan.remaining (p : CreatePlan) : ℤ :=
  asI16 (initialDiscountRemaining p.discountType (p.discountPeriodsTotal.map Subtype.val))

def createRow (req : SubscriptionCreateRequest) (p : CreatePlan) (subId : String) (now : Time)
    (amount : Decimal) (discountValue : Option Decimal) : SubscriptionRow where
  id := subId
  customerId := req.customerId
  offeringId := req.offeringId
  commercialOrderId := req.commercialOrderId
  msisdn := req.msisdn
  iccid := req.iccid
  state := .active
  stateReason := some "activation_payment_approved"
  activatedAt := some now
  currentPeriodStart := some now
  currentPeriodEnd := some (periodEnd now)
  nextRenewalAt := some (periodEnd now)
  terminatedAt := none
  priceAmount := amount
  priceCurrency := p.price.currency
  priceOfferingPriceId := p.price.offeringPriceId
  pendingOfferingId := none
  pendingOfferingPriceId := none
  pendingEffectiveAt := none
  discountType := p.discountType
  discountValue := discountValue
  discountPeriodsRemaining := p.remaining
  promoCode := p.promoCode
  promoOfferDefinitionId := p.promoOfferDefinitionId
  lastRenewalAttemptedAt := none
  tenantId := "DEFAULT"

def activatedPayload (req : SubscriptionCreateRequest) (p : CreatePlan) (pay : PaymentResult)
    (subId : String) (now : Time) : Object :=
  [("subscriptionId", .str subId), ("customerId", .str req.customerId),
   ("offeringId", .str req.offeringId), ("msisdn", .str req.msisdn), ("iccid", .str req.iccid),
   ("paymentAttemptId", .str pay.attemptId), ("periodStart", .time now),
   ("periodEnd", .time (periodEnd now)), ("amountCharged", .dec p.chargeAmount),
   ("promoCode", optValue .str p.promoCode)]

def createCommit (req : SubscriptionCreateRequest) (p : CreatePlan) (pay : PaymentResult)
    (subId : String) (now : Time) : Except ApiError SubDb := do
  let amount ← numeric10 p.price.amount
  let discountValue ← discountColumn p.discountValue
  let balances ← insertBalances (allowanceSpecs p.offering) now (periodEnd now) Table.empty
  let db : SubDb := ⟨createRow req p subId now amount discountValue, balances, [], [], []⟩
  let db := db.addStateHistory .pending .active "activation_payment_approved"
  return db.stage "subscription.activated" (activatedPayload req p pay subId now)

/-! ## What each part has done when it went through -/

theorem createCommit_eq_ok {req : SubscriptionCreateRequest} {p : CreatePlan} {pay : PaymentResult}
    {subId : String} {now : Time} {db : SubDb} (h : createCommit req p pay subId now = .ok db) :
    ∃ amount value, numeric10 p.price.amount = .ok amount ∧
      discountColumn p.discountValue = .ok value ∧ db.sub = createRow req p subId now amount value ∧
      insertBalances (allowanceSpecs p.offering) now (periodEnd now) Table.empty = .ok db.balances := by
  simp only [createCommit, bind_eq_ok] at h
  obtain ⟨amount, ha, value, hv, balances, hb, h⟩ := h
  cases h
  exact ⟨amount, value, ha, hv, rfl, hb⟩

theorem createPlan_eq_ok {env : CreateEnv} {req : SubscriptionCreateRequest} {p : CreatePlan}
    (h : createPlan env req = .ok p) :
    env.offering = .ok p.offering ∧
      activationCharge p.discountType p.discountValue p.price.amount = .ok p.chargeAmount ∧
      p.discountType = req.priceSnapshot.bind PriceSnapshot.discountType ∧
      p.discountValue = req.priceSnapshot.bind PriceSnapshot.discountValue ∧
      p.discountPeriodsTotal = req.priceSnapshot.bind PriceSnapshot.discountPeriodsTotal ∧
      ∀ ps ∈ req.priceSnapshot, p.price.amount = ps.priceAmount := by
  simp only [createPlan, bind_eq_ok, orUpstream_eq_ok] at h
  obtain ⟨-, -, -, -, offering, hoffering, price, hprice, charge, hcharge, h⟩ := h
  cases h
  refine ⟨hoffering, hcharge, rfl, rfl, rfl, ?_⟩
  intro ps hps
  rw [createPrice, Option.mem_def.mp hps] at hprice
  cases hprice
  rfl

end BssCli.Subscription
