import BssCli.Subscription.Create
import BssCli.Subscription.Usage
import BssCli.Subscription.Renew

/-!
# One call after the other

Each operation as a whole, with nobody else at the rows: what it leaves stored, the
charges that got a reply, and what it returns.
-/

namespace BssCli.Subscription

structure Charge where
  request : ChargeRequest
  discounted : Bool
  approved : Bool
  deriving DecidableEq

/-- What a call leaves stored, the charges it made and what it returns. -/
structure Outcome (σ : Type) where
  db : σ
  charges : List Charge
  result : Except ApiError Unit

/-- One transaction. `txOk` is false when the database fails in it. What it has written is
kept only when all of it went through. -/
def inTx {σ : Type} (txOk : Bool) (db : σ) (charges : List Charge) (body : Except ApiError σ) :
    Outcome σ :=
  match txOk, body with
  | true, .ok db' => ⟨db', charges, .ok ()⟩
  | true, .error e => ⟨db, charges, .error e⟩
  | false, _ => ⟨db, charges, .error (dbError "transaction failed")⟩

/-- `BEGIN … COMMIT` loses nothing and keeps nothing by halves. -/
theorem inTx_db {σ : Type} (txOk : Bool) (db : σ) (charges : List Charge) (body : Except ApiError σ) :
    (inTx txOk db charges body).db = db ∨
      txOk = true ∧ body = .ok (inTx txOk db charges body).db := by
  unfold inTx
  split
  · exact Or.inr ⟨rfl, rfl⟩
  · exact Or.inl rfl
  · exact Or.inl rfl

@[simp]
theorem inTx_charges {σ : Type} (txOk : Bool) (db : σ) (charges : List Charge) (body : Except ApiError σ) :
    (inTx txOk db charges body).charges = charges := by
  unfold inTx; split <;> rfl

abbrev Payment := ChargeRequest → Except ClientError PaymentResult

def existingTypes (db : SubDb) : List String := db.balances.rows.map BundleBalanceRow.allowanceType

def renew (env : RenewEnv) (now : Time) (charge : Payment) (txOk : Bool) (db : SubDb) : Outcome SubDb :=
  match renewPlan env now db.sub with
  | .error e => ⟨db, [], .error e⟩
  | .ok p =>
    match charge (p.request db.sub) with
    | .error e => ⟨db, [], .error (upstream e)⟩
    | .ok pay =>
      inTx txOk db [⟨p.request db.sub, p.discount, pay.Approved⟩]
        (renewCommit db.sub p pay (existingTypes db) db)

def purchaseVas (env : VasEnv) (vasOfferingId : String) (now : Time) (charge : Payment) (txOk : Bool)
    (db : SubDb) : Outcome SubDb :=
  match vasPlan env vasOfferingId db.sub with
  | .error e => ⟨db, [], .error e⟩
  | .ok p =>
    match charge (p.request db.sub) with
    | .error e => ⟨db, [], .error (upstream e)⟩
    | .ok pay =>
      if pay.Approved then
        inTx txOk db [⟨p.request db.sub, false, true⟩]
          (vasCommit db.sub p pay now (vasTarget p db) db)
      else ⟨db, [⟨p.request db.sub, false, false⟩], .error (vasDeclined pay)⟩

def handleUsageRated (u : UsageCall) (txOk : Bool) (db : SubDb) : Outcome SubDb :=
  if UsageCall.accepted db.sub then
    inTx txOk db [] (usageOpen u db >>= fun effect => usageCommit db.sub u effect db)
  else ⟨db, [], .ok ()⟩

def terminate (reason : String) (now : Time) (txOk : Bool) (db : SubDb) : Outcome SubDb :=
  match terminatePlan reason now db.sub with
  | .error e => ⟨db, [], .error e⟩
  | .ok p => inTx txOk db [] (terminateCommit db.sub p db)

/-- No row is there before. The charge is for the first period. -/
def create (env : CreateEnv) (req : SubscriptionCreateRequest) (charge : Payment) (subId : String)
    (now : Time) (txOk : Bool) : Outcome (Option SubDb) :=
  match createPlan env req with
  | .error e => ⟨none, [], .error e⟩
  | .ok p =>
    match charge (p.request req) with
    | .error e => ⟨none, [], .error (upstream e)⟩
    | .ok pay =>
      let made : Charge := ⟨p.request req, p.discountType.isSome && p.discountValue.isSome, pay.Approved⟩
      if pay.Approved then
        inTx txOk none [made] (createCommit req p pay subId now >>= fun db => .ok (some db))
      else ⟨none, [made], .error (createDeclined pay)⟩

/-! ## What a call leaves stored -/

theorem renew_db (env : RenewEnv) (now : Time) (charge : Payment) (txOk : Bool) (db : SubDb) :
    (renew env now charge txOk db).db = db ∨
      ∃ p pay, renewPlan env now db.sub = .ok p ∧ charge (p.request db.sub) = .ok pay ∧
        renewCommit db.sub p pay (existingTypes db) db = .ok (renew env now charge txOk db).db := by
  unfold renew
  split
  · exact Or.inl rfl
  · rename_i p hp
    split
    · exact Or.inl rfl
    · rename_i pay hpay
      exact (inTx_db ..).imp_right fun h => ⟨p, pay, hp, hpay, h.2⟩

theorem purchaseVas_db (env : VasEnv) (id : String) (now : Time) (charge : Payment) (txOk : Bool)
    (db : SubDb) :
    (purchaseVas env id now charge txOk db).db = db ∨
      ∃ p pay, vasPlan env id db.sub = .ok p ∧ charge (p.request db.sub) = .ok pay ∧ pay.Approved ∧
        txOk = true ∧ vasCommit db.sub p pay now (vasTarget p db) db =
          .ok (purchaseVas env id now charge txOk db).db := by
  unfold purchaseVas
  split
  · exact Or.inl rfl
  · rename_i p hp
    split
    · exact Or.inl rfl
    · rename_i pay hpay
      split
      · rename_i happ
        exact (inTx_db ..).imp_right fun h => ⟨p, pay, hp, hpay, happ, h⟩
      · exact Or.inl rfl

theorem handleUsageRated_db (u : UsageCall) (txOk : Bool) (db : SubDb) :
    (handleUsageRated u txOk db).db = db ∨
      db.sub.state = .active ∧ ∃ effect, usageOpen u db = .ok effect ∧
        usageCommit db.sub u effect db = .ok (handleUsageRated u txOk db).db := by
  unfold handleUsageRated
  split
  · rename_i hs
    refine (inTx_db ..).imp_right fun h => ⟨by simpa [UsageCall.accepted] using hs, ?_⟩
    exact bind_eq_ok.mp h.2
  · exact Or.inl rfl

theorem terminate_db (reason : String) (now : Time) (txOk : Bool) (db : SubDb) :
    (terminate reason now txOk db).db = db ∨
      ∃ p, terminatePlan reason now db.sub = .ok p ∧
        terminateCommit db.sub p db = .ok (terminate reason now txOk db).db := by
  unfold terminate
  split
  · exact Or.inl rfl
  · rename_i p hp
    exact (inTx_db ..).imp_right fun h => ⟨p, hp, h.2⟩

theorem create_db {env : CreateEnv} {req : SubscriptionCreateRequest} {charge : Payment} {subId : String}
    {now : Time} {txOk : Bool} {db : SubDb}
    (h : (create env req charge subId now txOk).db = some db) :
    ∃ p pay, createPlan env req = .ok p ∧ charge (p.request req) = .ok pay ∧ pay.Approved ∧
      createCommit req p pay subId now = .ok db := by
  unfold create at h
  split at h
  · simp at h
  · rename_i p hp
    split at h
    · simp at h
    · rename_i pay hpay
      simp only at h
      split at h
      · rename_i happ
        rcases inTx_db txOk none _ (createCommit req p pay subId now >>= fun db => .ok (some db)) with
          hnone | ⟨-, hbody⟩
        · rw [hnone] at h
          cases h
        · rw [h] at hbody
          obtain ⟨db', hcommit, hdb⟩ := bind_eq_ok.mp hbody
          cases hdb
          exact ⟨p, pay, hp, hpay, happ, hcommit⟩
      · simp at h

/-! ## Calls in sequence -/

inductive Op
  | create (env : CreateEnv) (req : SubscriptionCreateRequest) (charge : Payment) (subId : String)
      (now : Time) (txOk : Bool)
  | usage (u : UsageCall) (txOk : Bool)
  | vas (env : VasEnv) (vasOfferingId : String) (now : Time) (charge : Payment) (txOk : Bool)
  | renew (env : RenewEnv) (now : Time) (charge : Payment) (txOk : Bool)
  | terminate (reason : String) (now : Time) (txOk : Bool)

/-- One line from before it exists, with the charges made for it. -/
structure Line where
  db : Option SubDb
  charges : List Charge

namespace Line

def new : Line := ⟨none, []⟩

def apply (s : Line) (f : SubDb → Outcome SubDb) : Line :=
  match s.db with
  | none => s
  | some db => ⟨some (f db).db, s.charges ++ (f db).charges⟩

/-- A call on a line that does not exist is refused. A second `create` is another line, or
the repeat of an order, which returns what is there. -/
def step (s : Line) : Op → Option Line
  | .create env req charge subId now txOk =>
    match s.db with
    | none =>
      let made := Subscription.create env req charge subId now txOk
      some ⟨made.db, s.charges ++ made.charges⟩
    | some _ => some s
  | .usage u txOk => some (s.apply (handleUsageRated u txOk))
  | .vas env id now charge txOk => some (s.apply (purchaseVas env id now charge txOk))
  | .renew env now charge txOk => some (s.apply (Subscription.renew env now charge txOk))
  | .terminate reason now txOk => some (s.apply (Subscription.terminate reason now txOk))

end Line

/-! ## One line -/

/-- A line with 100 MB of data, renewed every 30 days for 25 SGD. -/
def sampleRow (state : SubState) : SubscriptionRow where
  id := "SUB-0001"
  customerId := "CUST-1"
  offeringId := "PLAN_M"
  commercialOrderId := none
  msisdn := "90000042"
  iccid := "8965"
  state
  stateReason := none
  activatedAt := some 0
  currentPeriodStart := some 0
  currentPeriodEnd := some (periodEnd 0)
  nextRenewalAt := some (periodEnd 0)
  terminatedAt := none
  priceAmount := 25
  priceCurrency := "SGD"
  priceOfferingPriceId := "PRICE-1"
  pendingOfferingId := none
  pendingOfferingPriceId := none
  pendingEffectiveAt := none
  discountType := none
  discountValue := none
  discountPeriodsRemaining := 0
  promoCode := none
  promoOfferDefinitionId := none
  lastRenewalAttemptedAt := none
  tenantId := "DEFAULT"

def dataRow (total consumed : ℤ) : BundleBalanceRow :=
  ⟨"data", total, consumed, "mb", some 0, some (periodEnd 0)⟩

def sampleLine (state : SubState) (total consumed : ℤ) : SubDb :=
  ⟨sampleRow state, ⟨[dataRow total consumed], List.nodup_singleton _⟩, [], [], []⟩

def samplePlan : OfferingDoc :=
  ⟨some [⟨some "data", some ⟨100, by decide⟩, some "mb"⟩],
    some [⟨some "PRICE-1", some "recurring", "25.00", .ok 25, some "SGD"⟩]⟩

def hundredMb : I64 := ⟨100, by decide⟩

def fiftyMb : I64 := ⟨50, by decide⟩

def sampleRequest : SubscriptionCreateRequest :=
  ⟨"CUST-1", "PLAN_M", "90000042", "8965", "PM-1", none, none⟩

def sampleCreateEnv : CreateEnv :=
  ⟨.ok ⟨some "active"⟩, .ok ⟨some "reserved"⟩, .ok ⟨some "reserved"⟩, .ok samplePlan⟩

def sampleMethods : List MethodDoc := [⟨some "PM-1", some true⟩]

def sampleRenewEnv : RenewEnv :=
  ⟨fun _ => .error (.notFound "price"), fun _ => .ok samplePlan, fun _ => .ok sampleMethods⟩

def sampleVas (ty : String) (quantity : I64) : VasDoc :=
  ⟨some (.ok 5), some "SGD", none, some quantity, some ty, some "mb"⟩

def sampleVasEnv (ty : String) (quantity : I64) : VasEnv :=
  ⟨fun _ => .ok (sampleVas ty quantity), fun _ => .ok sampleMethods⟩

def approved : PaymentResult := ⟨some "PAY-1", some "approved", none⟩

def declined : PaymentResult := ⟨some "PAY-1", some "declined", some "insufficient_funds"⟩

end BssCli.Subscription
