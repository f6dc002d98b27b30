import BssCli.Subscription.Policies

/-!
# `renew`

The call in its three parts: everything up to the charge, decided on the row it read, the
reply to the charge, and the transaction that writes what the reply allows. Only the last
part touches the stored rows.
-/

namespace BssCli.Subscription

open Money

def periodDays : ℤ := 30

def periodEnd (now : Time) : Time := now + days periodDays

structure RenewEnv where
  getOfferingPrice : String → Except ClientError PriceDoc
  getOffering : String → Except ClientError OfferingDoc
  listMethods : String → Except ClientError (List MethodDoc)

/-! ## Up to the charge -/

/-- A pending plan change whose time has come. -/
def applyingPending (sub : SubscriptionRow) (now : Time) : Bool :=
  sub.pendingOfferingId.isSome && decide (∃ e ∈ sub.pendingEffectiveAt, e ≤ now)

def applyingDiscount (sub : SubscriptionRow) (pivot : Bool) : Bool :=
  !pivot && sub.discountType.isSome && sub.discountValue.isSome && sub.discountPeriodsRemaining != 0

structure RenewalPrice where
  amount : Decimal
  currency : String
  offeringPriceId : String
  targetOfferingId : String

def renewalPrice (env : RenewEnv) (sub : SubscriptionRow) (pivot : Bool) : Except ApiError RenewalPrice :=
  if pivot then do
    let priceId := sub.pendingOfferingPriceId.getD ""
    let newPrice ← orUpstream (env.getOfferingPrice priceId)
    match newPrice.value with
    | .error e => .error (.internal s!"bad price value: {e}")
    | .ok amount => .ok ⟨amount, newPrice.unit.getD "SGD", priceId, sub.pendingOfferingId.getD ""⟩
  else
    .ok ⟨sub.priceAmount, sub.priceCurrency, sub.priceOfferingPriceId, sub.offeringId⟩

def renewalCharge (sub : SubscriptionRow) (discount : Bool) (amount : Decimal) :
    Except ApiError Decimal :=
  if discount then
    match applyDiscount (sub.discountType.getD "") (sub.discountValue.getD 0) amount with
    | .ok x => .ok x
    | .error e => .error (.internal s!"discount math: {e}")
  else .ok amount

/-- What a renewal has decided when it calls `charge`. -/
structure RenewPlan where
  now : Time
  pivot : Bool
  price : RenewalPrice
  offering : OfferingDoc
  discount : Bool
  chargeAmount : Decimal
  method : String

def renewPlan (env : RenewEnv) (now : Time) (sub : SubscriptionRow) : Except ApiError RenewPlan := do
  checkRenewAllowed sub.state
  let pivot := applyingPending sub now
  let price ← renewalPrice env sub pivot
  let offering ← orUpstream (env.getOffering price.targetOfferingId)
  let discount := applyingDiscount sub pivot
  let chargeAmount ← renewalCharge sub discount price.amount
  let methods ← orUpstream (env.listMethods sub.customerId)
  match pickDefaultMethod methods with
  | none => .error (.policy
    { rule := "subscription.renew.no_payment_method"
      message := "No active payment method found for renewal"
      context := [("customer_id", .str sub.customerId)] })
  | some method => .ok { now, pivot, price, offering, discount, chargeAmount, method }

def RenewPlan.request (p : RenewPlan) (sub : SubscriptionRow) : ChargeRequest :=
  ⟨sub.customerId, p.method, p.chargeAmount, p.price.currency, "renewal"⟩

/-! ## The charge was declined -/

def renewDeclined (sub : SubscriptionRow) (p : RenewPlan) (pay : PaymentResult) (db : SubDb) :
    Except ApiError SubDb := do
  let dest ← nextState sub.state .renewFail
  let db := db.updateSub (·.setState dest "renewal_payment_declined")
  let db := db.addStateHistory sub.state dest "renewal_payment_declined"
  let db := db.stage "subscription.renew_failed"
    [("subscriptionId", .str db.sub.id), ("reason", .str "payment_declined"),
     ("paymentAttemptId", .str pay.attemptId)]
  let db := if p.pivot then
      db.stage "subscription.plan_change_payment_failed"
        [("subscriptionId", .str db.sub.id), ("currentOfferingId", .str sub.offeringId),
         ("pendingOfferingId", optValue .str sub.pendingOfferingId),
         ("paymentAttemptId", .str pay.attemptId)]
    else db
  return db.stage "subscription.blocked"
    [("subscriptionId", .str db.sub.id), ("reason", .str "renew_failed")]

/-! ## The charge was approved -/

namespace RenewPlan

variable (p : RenewPlan)

def specs : List AllowanceSpec := allowanceSpecs p.offering

def specOf (ty : String) : Option AllowanceSpec := p.specs.find? fun s => s.allowanceType = ty

/-- What the reset does to a balance that the transaction has read. -/
def resetRow (b : BundleBalanceRow) : BundleBalanceRow :=
  match p.specOf b.allowanceType with
  | some s => b.resetPeriod s.quantity p.now (periodEnd p.now)
  | none => if p.pivot then b.resetPeriod 0 p.now (periodEnd p.now) else b

/-- The rows it resets are those it read, of the types in `existing`. -/
def resetRead (existing : List String) (b : BundleBalanceRow) : BundleBalanceRow :=
  if b.allowanceType ∈ existing then p.resetRow b else b

@[simp]
theorem resetRow_allowanceType (b : BundleBalanceRow) :
    (p.resetRow b).allowanceType = b.allowanceType := by
  unfold resetRow
  split
  · rfl
  · split <;> rfl

@[simp]
theorem resetRead_allowanceType (existing : List String) (b : BundleBalanceRow) :
    (p.resetRead existing b).allowanceType = b.allowanceType := by
  unfold resetRead
  split
  · exact p.resetRow_allowanceType b
  · rfl

def reset (existing : List String) (t : Balances) : Balances :=
  t.map (p.resetRead existing) (p.resetRead_allowanceType existing)

def newSpecs (existing : List String) : List AllowanceSpec :=
  p.specs.filter fun s => s.allowanceType ∉ existing

def newOfferingId (sub : SubscriptionRow) : String :=
  if p.pivot then sub.pendingOfferingId.getD sub.offeringId else sub.offeringId

def wasPriceMigration (sub : SubscriptionRow) : Bool :=
  p.pivot && sub.pendingOfferingId == some sub.offeringId

def newRemaining (sub : SubscriptionRow) : ℤ :=
  if p.discount ∧ 0 < sub.discountPeriodsRemaining then sub.discountPeriodsRemaining - 1
  else sub.discountPeriodsRemaining

def writeBalances (existing : List String) (t : Balances) : Except ApiError Balances :=
  if p.pivot then
    insertBalances (p.newSpecs existing) p.now (periodEnd p.now) (p.reset existing t)
  else .ok (p.reset existing t)

def writeRow (sub : SubscriptionRow) (dest : SubState) :
    Except ApiError (SubscriptionRow → SubscriptionRow) :=
  if p.pivot then do
    let amount ← numeric10 p.price.amount
    return SubscriptionRow.setPivoted dest (p.newOfferingId sub) amount p.price.currency
      p.price.offeringPriceId p.now (periodEnd p.now)
  else
    return SubscriptionRow.setRenewed dest (p.newRemaining sub) p.now (periodEnd p.now)

def renewedPayload (sub : SubscriptionRow) (pay : PaymentResult) : Object :=
  [("subscriptionId", .str sub.id), ("offeringId", .str (p.newOfferingId sub)),
   ("paymentAttemptId", .str pay.attemptId), ("periodStart", .time p.now),
   ("periodEnd", .time (periodEnd p.now)),
   ("priceSnapshot", .object [("priceAmount", .dec p.price.amount),
     ("priceCurrency", .str p.price.currency),
     ("priceOfferingPriceId", .str p.price.offeringPriceId)]),
   ("amountCharged", .dec p.chargeAmount), ("discountApplied", .bool p.discount)]

def planChangedPayload (sub : SubscriptionRow) : Object :=
  [("subscriptionId", .str sub.id), ("previousOfferingId", .str sub.offeringId),
   ("newOfferingId", .str (p.newOfferingId sub)), ("newPriceAmount", .dec p.price.amount),
   ("newPriceCurrency", .str p.price.currency),
   ("newPriceOfferingPriceId", .str p.price.offeringPriceId)]

end RenewPlan

/-- The transaction of an approved renewal. `existing` are the types of the balances it
read when it began. -/
def renewApproved (sub : SubscriptionRow) (p : RenewPlan) (pay : PaymentResult)
    (existing : List String) (db : SubDb) : Except ApiError SubDb := do
  let balances ← p.writeBalances existing db.balances
  let dest ← nextState sub.state .renew
  let row ← p.writeRow sub dest
  let db := { db with balances }.updateSub row
  let db := db.addStateHistory sub.state dest "renewal_payment_approved"
  let db := db.stage "subscription.renewed" (p.renewedPayload sub pay)
  return if p.pivot then
      db.stage (if p.wasPriceMigration sub then "subscription.price_migrated"
        else "subscription.plan_changed") (p.planChangedPayload sub)
    else db

def renewCommit (sub : SubscriptionRow) (p : RenewPlan) (pay : PaymentResult)
    (existing : List String) (db : SubDb) : Except ApiError SubDb :=
  if pay.Approved then renewApproved sub p pay existing db else renewDeclined sub p pay db

/-! ## What each part has done when it went through -/

theorem renewPlan_eq_ok {env : RenewEnv} {now : Time} {sub : SubscriptionRow} {p : RenewPlan}
    (h : renewPlan env now sub = .ok p) :
    (sub.state = .active ∨ sub.state = .blocked) ∧ p.now = now ∧
      p.pivot = applyingPending sub now ∧ p.discount = applyingDiscount sub p.pivot ∧
      renewalPrice env sub p.pivot = .ok p.price ∧
      env.getOffering p.price.targetOfferingId = .ok p.offering ∧
      renewalCharge sub p.discount p.price.amount = .ok p.chargeAmount := by
  simp only [renewPlan, bind_eq_ok, orUpstream_eq_ok] at h
  obtain ⟨⟨⟩, hcheck, price, hprice, offering, hoffering, charge, hcharge, methods, -, hm⟩ := h
  split at hm
  · simp at hm
  · cases hm
    exact ⟨checkRenewAllowed_eq_ok.mp hcheck, rfl, rfl, rfl, hprice, hoffering, hcharge⟩

theorem renewDeclined_eq_ok {sub : SubscriptionRow} {p : RenewPlan} {pay : PaymentResult}
    {db db' : SubDb} (h : renewDeclined sub p pay db = .ok db') :
    sub.state = .active ∧ db'.sub = db.sub.setState .blocked "renewal_payment_declined" ∧
      db'.balances = db.balances := by
  simp only [renewDeclined, bind_eq_ok, nextState_renewFail] at h
  obtain ⟨dest, ⟨hs, rfl⟩, h⟩ := h
  cases h
  refine ⟨hs, ?_, ?_⟩ <;> split <;> rfl

theorem writeRow_eq_ok {p : RenewPlan} {sub : SubscriptionRow} {dest : SubState}
    {row : SubscriptionRow → SubscriptionRow} (h : p.writeRow sub dest = .ok row)
    (r : SubscriptionRow) :
    (row r).state = dest ∧ (row r).nextRenewalAt = some (periodEnd p.now) ∧
      (row r).terminatedAt = r.terminatedAt ∧ (row r).id = r.id ∧
      (row r).lastRenewalAttemptedAt = r.lastRenewalAttemptedAt ∧
      (row r).tenantId = r.tenantId ∧
      (row r).discountPeriodsRemaining = if p.pivot then 0 else p.newRemaining sub := by
  unfold RenewPlan.writeRow at h
  split at h
  · rename_i hp
    simp only [bind_eq_ok] at h
    obtain ⟨amount, -, h⟩ := h
    cases h
    exact ⟨rfl, rfl, rfl, rfl, rfl, rfl, (if_pos hp).symm⟩
  · rename_i hp
    cases h
    exact ⟨rfl, rfl, rfl, rfl, rfl, rfl, (if_neg hp).symm⟩

theorem renewApproved_eq_ok {sub : SubscriptionRow} {p : RenewPlan} {pay : PaymentResult}
    {existing : List String} {db db' : SubDb} (h : renewApproved sub p pay existing db = .ok db') :
    sub.state = .active ∧ (∃ row, p.writeRow sub .active = .ok row ∧ db'.sub = row db.sub) ∧
      p.writeBalances existing db.balances = .ok db'.balances := by
  simp only [renewApproved, bind_eq_ok, nextState_renew] at h
  obtain ⟨balances, hb, dest, ⟨hs, rfl⟩, row, hrow, h⟩ := h
  cases h
  refine ⟨hs, ⟨row, hrow, ?_⟩, ?_⟩
  · split <;> rfl
  · rw [hb]; split <;> rfl

/-! ## When the transaction goes through -/

/-- The ids of the balances and of the new plan's allowances are all different, and the new
price fits its column. -/
def RenewPlan.Storable (p : RenewPlan) (existing : List String) (t : Balances) : Prop :=
  p.pivot → (balIds t (p.newSpecs existing)).Nodup ∧ |roundDp2 p.price.amount| < 10 ^ 8

instance (p : RenewPlan) (existing : List String) (t : Balances) : Decidable (p.Storable existing t) :=
  inferInstanceAs (Decidable (_ → _ ∧ _))

theorem balIds_reset (p : RenewPlan) (existing : List String) (t : Balances) (specs : List AllowanceSpec) :
    balIds (p.reset existing t) specs = balIds t specs := by
  simp [balIds, RenewPlan.reset, Table.map, Function.comp_def]

theorem renewApproved_isOk {sub : SubscriptionRow} {p : RenewPlan} {pay : PaymentResult}
    {existing : List String} {db : SubDb} :
    (∃ db', renewApproved sub p pay existing db = .ok db') ↔
      sub.state = .active ∧ p.Storable existing db.balances := by
  constructor
  · rintro ⟨db', h⟩
    obtain ⟨hs, ⟨row, hrow, -⟩, hb⟩ := renewApproved_eq_ok h
    refine ⟨hs, fun hp => ⟨?_, ?_⟩⟩
    · rw [RenewPlan.writeBalances, if_pos hp] at hb
      rw [← balIds_reset p]
      exact (insertBalances_isOk ..).mp ⟨_, hb⟩
    · rw [RenewPlan.writeRow, if_pos hp, bind_eq_ok] at hrow
      obtain ⟨amount, hamount, -⟩ := hrow
      unfold numeric10 at hamount
      split at hamount
      · assumption
      · simp at hamount
  · rintro ⟨hs, hst⟩
    have hbal : ∃ t', p.writeBalances existing db.balances = .ok t' := by
      by_cases hp : p.pivot
      · have := (hst hp).1
        rw [← balIds_reset p] at this
        rw [RenewPlan.writeBalances, if_pos hp]
        exact (insertBalances_isOk ..).mpr this
      · rw [RenewPlan.writeBalances, if_neg hp]
        exact ⟨_, rfl⟩
    have hrow : ∃ row, p.writeRow sub .active = .ok row := by
      by_cases hp : p.pivot
      · rw [RenewPlan.writeRow, if_pos hp, numeric10, if_pos (hst hp).2]
        exact ⟨_, rfl⟩
      · rw [RenewPlan.writeRow, if_neg hp]
        exact ⟨_, rfl⟩
    obtain ⟨t', hbal⟩ := hbal
    obtain ⟨row, hrow⟩ := hrow
    have hdest : nextState sub.state .renew = .ok .active := nextState_renew.mpr ⟨hs, rfl⟩
    rw [renewApproved, hbal, hdest]
    simp only [bind, Except.bind, hrow]
    exact ⟨_, rfl⟩

theorem renewDeclined_isOk {sub : SubscriptionRow} {p : RenewPlan} {pay : PaymentResult} {db : SubDb} :
    (∃ db', renewDeclined sub p pay db = .ok db') ↔ sub.state = .active := by
  constructor
  · rintro ⟨db', h⟩
    exact (renewDeclined_eq_ok h).1
  · intro hs
    have hdest : nextState sub.state .renewFail = .ok .blocked := nextState_renewFail.mpr ⟨hs, rfl⟩
    rw [renewDeclined, hdest]
    exact ⟨_, rfl⟩

theorem renewCommit_isOk {sub : SubscriptionRow} {p : RenewPlan} {pay : PaymentResult}
    {existing : List String} {db : SubDb} :
    (∃ db', renewCommit sub p pay existing db = .ok db') ↔
      sub.state = .active ∧ (pay.Approved → p.Storable existing db.balances) := by
  unfold renewCommit
  split
  · rename_i happ
    rw [renewApproved_isOk]
    simp [happ]
  · rename_i happ
    rw [renewDeclined_isOk]
    simp [happ]

/-- A balance that was there is reset as the plan says, also when new ones come in. -/
theorem find_writeBalances {p : RenewPlan} {existing : List String} {t t' : Balances}
    (h : p.writeBalances existing t = .ok t') {ty : String} {b : BundleBalanceRow}
    (hb : t.find ty = some b) : t'.find ty = some (p.resetRead existing b) := by
  have hreset : (p.reset existing t).find ty = some (p.resetRead existing b) := by
    rw [RenewPlan.reset, Table.find_map, hb]; rfl
  unfold RenewPlan.writeBalances at h
  split at h
  · rw [find_insertBalances h, hreset]; rfl
  · cases h; exact hreset

end BssCli.Subscription

/-!
# `terminate`, plan changes, price migration

None of them charges. Termination writes the state, the others only the pending columns.
-/

namespace BssCli.Subscription

open Money

/-! ## Terminate -/

structure TerminatePlan where
  reason : String
  now : Time

def terminatePlan (reason : String) (now : Time) (sub : SubscriptionRow) :
    Except ApiError TerminatePlan := do
  checkTerminable sub.state
  return { reason, now }

def terminateCommit (sub : SubscriptionRow) (p : TerminatePlan) (db : SubDb) : Except ApiError SubDb := do
  let dest ← nextState sub.state .terminate
  let db := db.updateSub (·.setTerminated dest p.reason p.now)
  let db := db.addStateHistory sub.state dest p.reason
  return db.stage "subscription.terminated"
    [("subscriptionId", .str db.sub.id), ("customerId", .str sub.customerId),
     ("msisdn", .str sub.msisdn), ("iccid", .str sub.iccid), ("terminatedAt", .time p.now),
     ("reason", .str p.reason)]

theorem terminateCommit_eq_ok {sub : SubscriptionRow} {p : TerminatePlan} {db db' : SubDb}
    (h : terminateCommit sub p db = .ok db') :
    db'.sub = db.sub.setTerminated .terminated p.reason p.now ∧ db'.balances = db.balances := by
  simp only [terminateCommit, bind_eq_ok, nextState_terminate] at h
  obtain ⟨dest, ⟨-, rfl⟩, h⟩ := h
  cases h
  exact ⟨rfl, rfl⟩

/-! ## The pending columns -/

/-- One `UPDATE` of the pending columns, and the events staged with it. -/
structure PendingWrite where
  offeringId : Option String
  priceId : Option String
  effectiveAt : Option Time
  events : List (String × Object)

def pendingCommit (w : PendingWrite) (db : SubDb) : SubDb :=
  w.events.foldl (fun db e => db.stage e.1 e.2)
    (db.updateSub (·.setPending w.offeringId w.priceId w.effectiveAt))

theorem pendingCommit_rows (w : PendingWrite) (db : SubDb) :
    (pendingCommit w db).sub = db.sub.setPending w.offeringId w.priceId w.effectiveAt ∧
      (pendingCommit w db).balances = db.balances := by
  have hstage : ∀ (es : List (String × Object)) (db : SubDb),
      (es.foldl (fun db e => db.stage e.1 e.2) db).sub = db.sub ∧
        (es.foldl (fun db e => db.stage e.1 e.2) db).balances = db.balances := by
    intro es
    induction es with
    | nil => exact fun _ => ⟨rfl, rfl⟩
    | cons e es ih => exact fun db => ih (db.stage e.1 e.2)
  exact hstage w.events _

structure ScheduleEnv where
  activeOfferings : Except ClientError (List String)
  activePrice : Except ClientError PriceDoc

def schedulePlanChange (env : ScheduleEnv) (newOfferingId : String) (sub : SubscriptionRow) :
    Except ApiError PendingWrite := do
  checkSubscriptionActiveOrPendingRenewal sub.state
  checkNotSameOffering sub.offeringId newOfferingId
  checkNoPendingChange sub.pendingOfferingId
  checkOfferingSellableNow env.activeOfferings newOfferingId
  let newPrice ← fetchActivePriceForTarget env.activePrice newOfferingId
  return {
    offeringId := some newOfferingId
    priceId := some (newPrice.id.getD "")
    effectiveAt := sub.nextRenewalAt
    events := [("subscription.plan_change_scheduled",
      [("subscriptionId", .str sub.id), ("currentOfferingId", .str sub.offeringId),
       ("newOfferingId", .str newOfferingId), ("newPriceAmount", .str newPrice.valueText),
       ("newPriceCurrency", .str (newPrice.unit.getD "SGD")),
       ("effectiveAt", optValue .time sub.nextRenewalAt)])] }

/-- Nothing is written when nothing is pending. -/
def cancelPendingPlanChange (sub : SubscriptionRow) : Option PendingWrite :=
  if sub.pendingOfferingId.isNone then none
  else some {
    offeringId := none
    priceId := none
    effectiveAt := none
    events := [("subscription.plan_change_cancelled",
      [("subscriptionId", .str sub.id),
       ("previousPending", .object [("offeringId", optScalar .str sub.pendingOfferingId),
         ("offeringPriceId", optScalar .str sub.pendingOfferingPriceId),
         ("effectiveAt", optScalar .time sub.pendingEffectiveAt)])])] }

structure MigrateEnv where
  actor : String
  roles : List String
  newPrice : Except ClientError PriceDoc
  offering : Except ClientError OfferingDoc

structure MigrateCall where
  offeringId : String
  newPriceId : String
  effectiveFrom : Time
  noticeDays : ℤ
  initiatedBy : String

def checkAdminRole (actor : String) (roles : List String) : Except ApiError Unit :=
  require ("admin" ∈ roles)
    { rule := "subscription.admin_only"
      message := "This operation requires the admin role"
      context := [("actor", .str actor), ("roles", .array (roles.map .str))] }

def checkPriceOnOffering (offering : OfferingDoc) (offeringId newPriceId : String) :
    Except ApiError Unit :=
  require (∃ p ∈ offering.productOfferingPrice.getD [], p.id = some newPriceId)
    { rule := "subscription.migrate_price.price_not_on_offering"
      message := s!"Price {newPriceId} does not belong to offering {offeringId}"
      context := [("new_price_id", .str newPriceId), ("offering_id", .str offeringId)] }

/-- The part of `migrate_subscriptions_to_price` that one row sees. `none`: the row is
not among those on the offering. -/
def migrateSubscription (env : MigrateEnv) (c : MigrateCall) (sub : SubscriptionRow) :
    Except ApiError (Option PendingWrite) := do
  checkAdminRole env.actor env.roles
  let newPrice ← orNotFound
    { rule := "subscription.migrate_price.unknown_price"
      message := s!"Price {c.newPriceId} not found in catalog"
      context := [("new_price_id", .str c.newPriceId)] } env.newPrice
  let offering ← orUpstream env.offering
  checkPriceOnOffering offering c.offeringId c.newPriceId
  let newCurrency := newPrice.unit.getD "SGD"
  let effectiveAt := c.effectiveFrom + days c.noticeDays
  if sub.offeringId = c.offeringId ∧ (sub.state = .active ∨ sub.state = .blocked) then
    return some {
      offeringId := some sub.offeringId
      priceId := some c.newPriceId
      effectiveAt := some effectiveAt
      events := [("subscription.price_migration_scheduled",
        [("subscriptionId", .str sub.id), ("offeringId", .str sub.offeringId),
         ("oldAmount", .dec sub.priceAmount), ("newAmount", .str newPrice.valueText),
         ("newCurrency", .str newCurrency), ("effectiveAt", .time effectiveAt),
         ("initiatedBy", .str c.initiatedBy)]),
        ("notification.requested",
        [("customerId", .str sub.customerId), ("channel", .str "email"),
         ("template", .str "price_migration_notice"),
         ("templateArgs", .object [("subscriptionId", .str sub.id), ("offeringId", .str sub.offeringId),
           ("oldAmount", .dec sub.priceAmount), ("newAmount", .str newPrice.valueText),
           ("currency", .str newCurrency), ("effectiveAt", .time effectiveAt)])])] }
  else return none

end BssCli.Subscription
