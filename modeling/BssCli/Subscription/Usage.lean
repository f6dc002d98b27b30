import BssCli.Subscription.Policies

/-!
# `handle_usage_rated`

The consumer reads the row, locks the balance, writes the decrement and reads all balances
again, so that the line is blocked in the transaction that uses up its primary data.
-/

namespace BssCli.Subscription

structure UsageCall where
  allowanceType : String
  quantity : I64
  usageEventId : String

/-- What the transaction has decided when it holds the lock. -/
inductive UsageEffect
  | reject (pv : PolicyViolation)
  | missing
  | decrement (result : BalanceSnapshot) (exhausted : Bool)

/-- Usage for a line that is not active is dropped. -/
def UsageCall.accepted (sub : SubscriptionRow) : Bool := sub.state = .active

def roamingGate (u : UsageCall) (subId : String) (target : Option BundleBalanceRow) :
    Except PolicyViolation Unit :=
  if u.allowanceType = "data_roaming" then checkRoamingBalanceRequired subId target u.quantity
  else .ok ()

/-- From the lock to the second read of the balances. -/
def usageOpen (u : UsageCall) (db : SubDb) : Except ApiError UsageEffect :=
  let target := db.balances.find u.allowanceType
  match roamingGate u db.sub.id target with
  | .error pv => .ok (.reject pv)
  | .ok () =>
    match target with
    | none => .ok .missing
    | some b => do
      let result := consume b.snapshot u.quantity
      let all ← db.balances.write u.allowanceType (BundleBalanceRow.setConsumed result.consumed)
        fun _ => rfl
      return .decrement result (isExhausted all.snapshots primaryAllowanceType)

def usageRejected (u : UsageCall) (pv : PolicyViolation) (db : SubDb) : SubDb :=
  db.stage "usage.rejected"
    ([("subscriptionId", .str db.sub.id), ("allowanceType", .str u.allowanceType),
      ("usageEventId", .str u.usageEventId), ("reason", .str pv.rule)] ++ pv.context)

def usageExhausted (sub : SubscriptionRow) (u : UsageCall) (result : BalanceSnapshot) (db : SubDb) :
    Except ApiError SubDb := do
  let db := db.stage "subscription.exhausted"
    [("subscriptionId", .str db.sub.id), ("allowanceType", .str u.allowanceType),
     ("consumed", .int result.consumed), ("total", .int result.total),
     ("triggeringUsageEventId", .str u.usageEventId)]
  let dest ← nextState sub.state .exhaust
  let db := db.updateSub (·.setState dest "primary_allowance_exhausted")
  let db := db.addStateHistory sub.state dest "primary_allowance_exhausted"
  return db.stage "subscription.blocked"
    [("subscriptionId", .str db.sub.id), ("reason", .str "exhausted")]

def usageCommit (sub : SubscriptionRow) (u : UsageCall) (effect : UsageEffect) (db : SubDb) :
    Except ApiError SubDb :=
  match effect with
  | .reject pv => .ok (usageRejected u pv db)
  | .missing => .ok db
  | .decrement result exhausted => do
    let balances ← db.balances.write u.allowanceType (BundleBalanceRow.setConsumed result.consumed)
      fun _ => rfl
    let db := { db with balances }
    if exhausted then usageExhausted sub u result db else return db

/-! ## What each part has done when it went through -/

/-- A decrement that is on its way was worked out on the locked row. -/
theorem usageOpen_decrement {u : UsageCall} {db : SubDb} {result : BalanceSnapshot} {exhausted : Bool}
    (h : usageOpen u db = .ok (.decrement result exhausted)) :
    ∃ b all, db.balances.find u.allowanceType = some b ∧ result = consume b.snapshot u.quantity ∧
      db.balances.write u.allowanceType (BundleBalanceRow.setConsumed result.consumed)
        (fun _ => rfl) = .ok all ∧
      exhausted = isExhausted all.snapshots primaryAllowanceType := by
  unfold usageOpen at h
  simp only at h
  split at h
  · simp at h
  · split at h
    · simp at h
    · rename_i b hb
      simp only [bind_eq_ok] at h
      obtain ⟨all, hall, h⟩ := h
      cases h
      exact ⟨b, all, hb, rfl, hall, rfl⟩

theorem usageExhausted_eq_ok {sub : SubscriptionRow} {u : UsageCall} {result : BalanceSnapshot}
    {db db' : SubDb} (h : usageExhausted sub u result db = .ok db') :
    sub.state = .active ∧ db'.sub = db.sub.setState .blocked "primary_allowance_exhausted" ∧
      db'.balances = db.balances := by
  simp only [usageExhausted, bind_eq_ok, nextState_exhaust] at h
  obtain ⟨dest, ⟨hs, rfl⟩, h⟩ := h
  cases h
  exact ⟨hs, rfl, rfl⟩

def usageRow (effect : UsageEffect) (row : SubscriptionRow) : SubscriptionRow :=
  match effect with
  | .decrement _ true => row.setState .blocked "primary_allowance_exhausted"
  | _ => row

def usageBalances (u : UsageCall) (effect : UsageEffect) (t : Balances) : Except ApiError Balances :=
  match effect with
  | .decrement result _ =>
    t.write u.allowanceType (BundleBalanceRow.setConsumed result.consumed) fun _ => rfl
  | _ => .ok t

theorem usageCommit_eq_ok {sub : SubscriptionRow} {u : UsageCall} {effect : UsageEffect}
    {db db' : SubDb} (h : usageCommit sub u effect db = .ok db') :
    db'.sub = usageRow effect db.sub ∧ usageBalances u effect db.balances = .ok db'.balances := by
  unfold usageCommit at h
  split at h
  · cases h; exact ⟨rfl, rfl⟩
  · cases h; exact ⟨rfl, rfl⟩
  · rename_i result exhausted
    simp only [bind_eq_ok] at h
    obtain ⟨balances, hb, h⟩ := h
    cases exhausted with
    | false => cases h; exact ⟨rfl, hb⟩
    | true =>
      obtain ⟨-, hsub, hbal⟩ := usageExhausted_eq_ok h
      exact ⟨hsub, by rw [hbal]; exact hb⟩

/-- The events of a usage event, by what it came to. -/
def usageEvents : UsageEffect → List String
  | .reject _ => ["usage.rejected"]
  | .decrement _ true => ["subscription.exhausted", "subscription.blocked"]
  | _ => []

theorem usageCommit_events {sub : SubscriptionRow} {u : UsageCall} {effect : UsageEffect}
    {db db' : SubDb} (h : usageCommit sub u effect db = .ok db') :
    db'.events.map Event.eventType = db.events.map Event.eventType ++ usageEvents effect := by
  unfold usageCommit at h
  split at h
  · cases h; simp [usageRejected, usageEvents]
  · cases h; simp [usageEvents]
  · rename_i result exhausted
    simp only [bind_eq_ok] at h
    obtain ⟨balances, -, h⟩ := h
    cases exhausted with
    | false => cases h; simp [usageEvents]
    | true =>
      simp only [if_true, usageExhausted, bind_eq_ok] at h
      obtain ⟨dest, -, h⟩ := h
      cases h
      simp [usageEvents]

end BssCli.Subscription

/-!
# `purchase_vas`

The call in its parts: up to the charge, the opening of the transaction that reads the
balances, and the commit of what it writes. It takes no lock, and what it writes to the
balance is the total it read plus the quantity.
-/

namespace BssCli.Subscription

open Money

structure VasEnv where
  getVas : String → Except ClientError VasDoc
  listMethods : String → Except ClientError (List MethodDoc)

structure VasPlan where
  vasOfferingId : String
  vas : VasDoc
  method : String
  amount : Decimal

namespace VasPlan

variable (p : VasPlan)

def quantity : I64 := p.vas.allowanceQuantity.getD zeroI64

def allowanceType : String := p.vas.allowanceType.getD "data"

def unit : String := p.vas.allowanceUnit.getD "mb"

def request (sub : SubscriptionRow) : ChargeRequest :=
  ⟨sub.customerId, p.method, p.amount, p.vas.currency.getD "SGD", "vas"⟩

end VasPlan

def vasPlan (env : VasEnv) (vasOfferingId : String) (sub : SubscriptionRow) : Except ApiError VasPlan := do
  checkNotTerminated sub.state
  let vas ← checkVasOfferingSellable vasOfferingId (env.getVas vasOfferingId)
  let methods ← orUpstream (env.listMethods sub.customerId)
  match pickDefaultMethod methods with
  | none => .error (.policy
    { rule := "subscription.vas_purchase.requires_active_cof"
      message := "No active payment method found"
      context := [("customer_id", .str sub.customerId)] })
  | some method =>
    match vas.priceAmount.getD (.ok 0) with
    | .error e => .error (.internal s!"bad vas price: {e}")
    | .ok amount => .ok { vasOfferingId, vas, method, amount }

def vasDeclined (pay : PaymentResult) : ApiError :=
  .policy
    { rule := "subscription.vas_purchase.requires_active_cof"
      message := "VAS payment was declined"
      context := [("payment_status", optValue .str pay.status),
        ("decline_reason", optValue .str pay.declineReason)] }

/-! ## The transaction -/

/-- The balance the transaction finds when it reads them. -/
def vasTarget (p : VasPlan) (db : SubDb) : Option BundleBalanceRow := db.balances.find p.allowanceType

/-- What the purchase does to the balances, decided on the `target` it has read. -/
def vasBalances (sub : SubscriptionRow) (p : VasPlan) (now : Time) (target : Option BundleBalanceRow)
    (t : Balances) : Except ApiError Balances :=
  match target with
  | none =>
    if 0 < p.quantity.val then
      t.insertRow ⟨p.allowanceType, p.quantity, 0, p.unit, some now, sub.currentPeriodEnd⟩
    else .ok t
  | some b =>
    if 0 < p.quantity.val ∧ b.total ≠ -1 then
      t.write b.allowanceType (BundleBalanceRow.setTotal (addAllowance b.snapshot p.quantity).total)
        fun _ => rfl
    else .ok t

/-- The top-up transition, decided on the state read before the charge. -/
def vasTransition (sub : SubscriptionRow) (db : SubDb) : Except ApiError SubDb :=
  if sub.state = .blocked then do
    let dest ← nextState sub.state .topUp
    let db := db.updateSub (·.setState dest "vas_top_up")
    let db := db.addStateHistory sub.state dest "vas_top_up"
    return db.stage "subscription.unblocked"
      [("subscriptionId", .str db.sub.id), ("reason", .str "vas_top_up")]
  else if sub.state = .active then do
    let dest ← nextState sub.state .topUp
    let db := db.updateSub (·.setReason "vas_top_up")
    return db.addStateHistory sub.state dest "vas_top_up"
  else return db

def vasCommit (sub : SubscriptionRow) (p : VasPlan) (pay : PaymentResult) (now : Time)
    (target : Option BundleBalanceRow) (db : SubDb) : Except ApiError SubDb := do
  let purchase : VasPurchaseRow :=
    ⟨p.vasOfferingId, pay.id, now, p.vas.expiryHours.map fun h => now + hours h, p.quantity,
      p.allowanceType⟩
  let balances ← vasBalances sub p now target db.balances
  let db := { db with balances, vasPurchases := db.vasPurchases ++ [purchase] }
  let db := db.stage "subscription.vas_purchased"
    [("subscriptionId", .str db.sub.id), ("vasOfferingId", .str p.vasOfferingId),
     ("paymentAttemptId", .str pay.attemptId), ("allowanceType", .str p.allowanceType),
     ("allowanceAdded", .int p.quantity), ("previousState", .str sub.state.name)]
  vasTransition sub db

/-! ## What each part has done when it went through -/

def vasRow (sub : SubscriptionRow) (row : SubscriptionRow) : SubscriptionRow :=
  match sub.state with
  | .blocked => row.setState .active "vas_top_up"
  | .active => row.setReason "vas_top_up"
  | _ => row

theorem vasTransition_eq_ok {sub : SubscriptionRow} {db db' : SubDb}
    (h : vasTransition sub db = .ok db') :
    db'.sub = vasRow sub db.sub ∧ db'.balances = db.balances ∧
      db'.events = db.events ++ if sub.state = .blocked then
        [⟨"subscription.unblocked", "subscription", db.sub.id,
          [("subscriptionId", .str db.sub.id), ("reason", .str "vas_top_up")]⟩] else [] := by
  unfold vasTransition at h
  split at h
  · rename_i hs
    simp only [bind_eq_ok, nextState_topUp] at h
    obtain ⟨dest, ⟨-, rfl⟩, h⟩ := h
    cases h
    simp [vasRow, hs]
    exact ⟨rfl, rfl⟩
  · split at h
    · rename_i hb hs
      simp only [bind_eq_ok, nextState_topUp] at h
      obtain ⟨dest, ⟨-, rfl⟩, h⟩ := h
      cases h
      simp [vasRow, hs]
    · rename_i hb ha
      cases h
      simp only [vasRow, hb, if_false, List.append_nil, and_true]

theorem vasCommit_eq_ok {sub : SubscriptionRow} {p : VasPlan} {pay : PaymentResult} {now : Time}
    {target : Option BundleBalanceRow} {db db' : SubDb}
    (h : vasCommit sub p pay now target db = .ok db') :
    db'.sub = vasRow sub db.sub ∧ vasBalances sub p now target db.balances = .ok db'.balances := by
  simp only [vasCommit, bind_eq_ok] at h
  obtain ⟨balances, hb, h⟩ := h
  obtain ⟨hsub, hbal, -⟩ := vasTransition_eq_ok h
  exact ⟨hsub, by rw [hbal]; exact hb⟩

theorem vasCommit_events {sub : SubscriptionRow} {p : VasPlan} {pay : PaymentResult} {now : Time}
    {target : Option BundleBalanceRow} {db db' : SubDb}
    (h : vasCommit sub p pay now target db = .ok db') :
    db'.events.map Event.eventType = db.events.map Event.eventType ++
      "subscription.vas_purchased" :: if sub.state = .blocked then ["subscription.unblocked"] else [] := by
  simp only [vasCommit, bind_eq_ok] at h
  obtain ⟨balances, -, h⟩ := h
  obtain ⟨-, -, hevents⟩ := vasTransition_eq_ok h
  rw [hevents]
  split <;> simp

end BssCli.Subscription
