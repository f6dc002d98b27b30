import BssCli.Lib.Table
import BssCli.Som.Decomposition

/-!
# Cards on file

The table of payment methods and the four operations that write it. What CRM and the
tokenizer answer is given with the call. The tenant is left out.
-/

namespace BssCli.Payment

/-! ## Rows -/

inductive MethodStatus
  | active
  | removed
  | expired
  deriving DecidableEq, Repr

def MethodStatus.name : MethodStatus → String
  | active => "active"
  | removed => "removed"
  | expired => "expired"

structure PaymentMethodRow where
  id : String
  customerId : String
  type : String
  token : String
  tokenProvider : String
  last4 : String
  brand : Option String
  expMonth : ℤ
  expYear : ℤ
  isDefault : Bool
  status : MethodStatus
  createdAt : Time
  deriving DecidableEq

abbrev Methods := Table PaymentMethodRow.id (fun id : String => id)

structure PaymentDb where
  methods : Methods
  events : List Event

/-- `UPDATE … SET status` of one row. -/
def PaymentMethodRow.setStatus (status : MethodStatus) (r : PaymentMethodRow) : PaymentMethodRow :=
  { r with status }

def PaymentMethodRow.setDefault (isDefault : Bool) (r : PaymentMethodRow) : PaymentMethodRow :=
  { r with isDefault }

/-- The default of `customerId` moves to `pmId`. -/
def PaymentMethodRow.moveDefault (customerId pmId : String) (r : PaymentMethodRow) : PaymentMethodRow :=
  if r.id = pmId then r.setDefault true
  else if r.customerId = customerId ∧ r.isDefault then r.setDefault false
  else r

theorem moveDefault_keeps (customerId pmId : String) (r : PaymentMethodRow) :
    (r.moveDefault customerId pmId).id = r.id ∧
      (r.moveDefault customerId pmId).customerId = r.customerId ∧
      (r.moveDefault customerId pmId).status = r.status := by
  unfold PaymentMethodRow.moveDefault
  split
  · exact ⟨rfl, rfl, rfl⟩
  · split <;> exact ⟨rfl, rfl, rfl⟩

namespace PaymentDb

def stage (eventType pmId : String) (payload : Object) (db : PaymentDb) : PaymentDb :=
  { db with events := db.events ++ [⟨eventType, "payment_method", pmId, payload⟩] }

def setMethodStatus (pmId : String) (status : MethodStatus) (db : PaymentDb) : PaymentDb :=
  { db with methods := db.methods.update pmId (·.setStatus status) fun _ => rfl }

def setDefault (customerId pmId : String) (db : PaymentDb) : PaymentDb :=
  { db with
    methods := db.methods.map (·.moveDefault customerId pmId) fun r =>
      (moveDefault_keeps customerId pmId r).1 }

def insertMethod (r : PaymentMethodRow) (db : PaymentDb) : Except ApiError PaymentDb :=
  match db.methods.insert r with
  | some methods => .ok { db with methods }
  | none => .error (dbError "duplicate key value violates unique constraint \"pk_payment_method\"")

def countActiveMethods (customerId : String) (db : PaymentDb) : ℕ :=
  db.methods.rows.countP fun r => r.customerId = customerId ∧ r.status = .active

def listActiveMockMethods (db : PaymentDb) : List PaymentMethodRow :=
  db.methods.rows.filter fun r => r.tokenProvider = "mock" ∧ r.status = .active

@[simp] theorem stage_methods (e id : String) (p : Object) (db : PaymentDb) :
    (db.stage e id p).methods = db.methods := rfl

end PaymentDb

/-! ## Policies -/

/-- `{n:02}` -/
def pad2 (n : ℤ) : String := if 0 ≤ n ∧ n < 10 then "0" ++ toString n else toString n

def maxMethodsPerCustomer : ℕ := 5

structure CustomerDoc where
  status : Option String
  firstEmailAddress : Option String
  email : Option String

def checkCustomerExists (customerId : String) :
    Except ClientError CustomerDoc → Except ApiError CustomerDoc
  | .ok c => .ok c
  | .error (.notFound _) => .error (.policy
    { rule := "payment_method.add.customer_exists"
      message := s!"Customer {customerId} does not exist"
      context := [("customer_id", .str customerId)] })
  | .error e => .error (.policy
    { rule := "payment_method.add.customer_lookup_failed"
      message := s!"Customer lookup failed: {e.display}"
      context := [("customer_id", .str customerId)] })

def checkCustomerActiveOrPending (c : CustomerDoc) : Except ApiError Unit :=
  let status := c.status.getD ""
  if status ≠ "active" ∧ status ≠ "pending" then .error (.policy
    { rule := "payment_method.add.customer_active_or_pending"
      message := s!"Customer status is '{status}', must be active or pending"
      context := [("status", .str status)] })
  else .ok ()

/-- The year and the month of the clock, as a card carries them. -/
def checkCardNotExpired (year month expMonth expYear : ℤ) : Except ApiError Unit :=
  if expYear < year ∨ expYear = year ∧ expMonth < month then .error (.policy
    { rule := "payment_method.add.card_not_expired"
      message := s!"Card expired: {pad2 expMonth}/{expYear}"
      context := [("exp_month", .int expMonth), ("exp_year", .int expYear)] })
  else .ok ()

def checkAtMostNMethods (customerId : String) (activeCount : ℕ) : Except ApiError Unit :=
  if maxMethodsPerCustomer ≤ activeCount then .error (.policy
    { rule := "payment_method.add.at_most_n_methods"
      message := s!"Customer {customerId} already has {activeCount} active payment methods " ++
        s!"(max {maxMethodsPerCustomer})"
      context := [("customer_id", .str customerId), ("current_count", .int activeCount),
        ("max", .int maxMethodsPerCustomer)] })
  else .ok ()

/-! ## The tokenizer -/

inductive TokenizerError
  | value (m : String)
  | transport (m : String)
  | notSupported

def TokenizerError.display : TokenizerError → String
  | value m => m
  | transport m => m
  | notSupported => "operation not supported by this adapter"

structure CardDetails where
  last4 : String
  brand : String
  expMonth : Option ℤ
  expYear : Option ℤ

structure Tokenizer where
  ensureCustomer : String → String → Except TokenizerError String
  attach : String → String → Except TokenizerError Unit
  retrieveCard : String → Except TokenizerError CardDetails

/-- `.map_err(internal)?` -/
def orInternal {α : Type} : Except TokenizerError α → Except ApiError α
  | .ok a => .ok a
  | .error e => .error (.internal e.display)

def customerEmail (c : CustomerDoc) (customerId : String) : String :=
  (c.firstEmailAddress.or c.email).getD s!"{customerId}@bss-cli.local"

structure CardSummary where
  brand : String
  last4 : String
  expMonth : ℤ
  expYear : ℤ

def orElse (s fallback : String) : String := if s = "" then fallback else s

def nonzero (n fallback : ℤ) : ℤ := if n = 0 then fallback else n

/-- Stripe holds the truth about the card. Without its answer, what the request says, with
placeholders for what is empty. -/
def stripeSummary (s : CardSummary) : Except TokenizerError CardDetails → CardSummary
  | .ok card =>
    { last4 := orElse card.last4 (orElse s.last4 "stripe")
      brand := orElse card.brand (orElse s.brand "card")
      expMonth := nonzero (card.expMonth.getD 0) s.expMonth
      expYear := nonzero (card.expYear.getD 0) s.expYear }
  | .error _ =>
    { last4 := orElse s.last4 "stripe"
      brand := orElse s.brand "card"
      expMonth := nonzero s.expMonth 12
      expYear := nonzero s.expYear 2099 }

/-! ## `register_method` -/

structure PaymentMethodCreateRequest where
  customerId : String
  type : String
  tokenizationProvider : String
  providerToken : String
  cardSummary : CardSummary

structure RegisterEnv where
  customer : Except ClientError CustomerDoc
  tokenizer : Tokenizer
  year : ℤ
  month : ℤ
  /-- What `nextval` of `payment_method_id_seq` gives. -/
  seq : ℕ
  now : Time

def methodId (seq : ℕ) : String := "PM-" ++ Som.pad4 seq

def tokenProvider (body : PaymentMethodCreateRequest) : String :=
  if body.tokenizationProvider = "stripe" then "stripe" else "mock"

def cardSummary (env : RegisterEnv) (body : PaymentMethodCreateRequest) (customer : CustomerDoc) :
    Except ApiError CardSummary :=
  if tokenProvider body = "stripe" then do
    let cusRef ← orInternal
      (env.tokenizer.ensureCustomer body.customerId (customerEmail customer body.customerId))
    orInternal (env.tokenizer.attach body.providerToken cusRef)
    return stripeSummary body.cardSummary (env.tokenizer.retrieveCard body.providerToken)
  else .ok body.cardSummary

def newMethod (env : RegisterEnv) (body : PaymentMethodCreateRequest) (card : CardSummary)
    (isDefault : Bool) : PaymentMethodRow where
  id := methodId env.seq
  customerId := body.customerId
  type := body.type
  token := body.providerToken
  tokenProvider := tokenProvider body
  last4 := card.last4
  brand := some card.brand
  expMonth := asI16 card.expMonth
  expYear := asI16 card.expYear
  isDefault
  status := .active
  createdAt := env.now

/-- The first active card of a customer is the default. -/
def registerMethod (env : RegisterEnv) (body : PaymentMethodCreateRequest) (db : PaymentDb) :
    Except ApiError PaymentDb := do
  let customer ← checkCustomerExists body.customerId env.customer
  checkCustomerActiveOrPending customer
  if body.tokenizationProvider ≠ "stripe" then
    checkCardNotExpired env.year env.month body.cardSummary.expMonth body.cardSummary.expYear
  let activeCount := db.countActiveMethods body.customerId
  checkAtMostNMethods body.customerId activeCount
  let isDefault := decide (activeCount = 0)
  let card ← cardSummary env body customer
  let db ← db.insertMethod (newMethod env body card isDefault)
  return db.stage "payment_method.added" (methodId env.seq)
    [("customer_id", .str body.customerId), ("brand", .str card.brand), ("last4", .str card.last4),
     ("tokenization_provider", .str body.tokenizationProvider),
     ("token_provider", .str (tokenProvider body))]

/-! ## The others -/

def methodNotFound (op pmId : String) : ApiError :=
  .policy
    { rule := s!"payment_method.{op}.not_found"
      message := s!"Payment method {pmId} not found"
      context := [("payment_method_id", .str pmId)] }

def getMethod (op pmId : String) (db : PaymentDb) : Except ApiError PaymentMethodRow :=
  match db.methods.find pmId with
  | some r => .ok r
  | none => .error (methodNotFound op pmId)

/-- A removed card is refused. A card that is not active for another reason is not. -/
def setDefaultMethod (pmId : String) (db : PaymentDb) : Except ApiError PaymentDb := do
  let pm ← getMethod "set_default" pmId db
  if pm.status = .removed then .error (.policy
    { rule := "payment_method.set_default.removed"
      message := s!"Payment method {pmId} has been removed"
      context := [("payment_method_id", .str pmId)] })
  else
    return (db.setDefault pm.customerId pmId).stage "payment_method.default_changed" pmId
      [("customer_id", .str pm.customerId), ("last4", .str pm.last4)]

/-- Only the status is written. -/
def removeMethod (pmId : String) (db : PaymentDb) : Except ApiError PaymentDb := do
  let pm ← getMethod "remove" pmId db
  if pm.status = .removed then .error (.policy
    { rule := "payment_method.remove.already_removed"
      message := s!"Payment method {pmId} is already removed"
      context := [("payment_method_id", .str pmId)] })
  else
    return (db.setMethodStatus pmId .removed).stage "payment_method.removed" pmId
      [("customer_id", .str pm.customerId), ("last4", .str pm.last4)]

def invalidate (db : PaymentDb) (r : PaymentMethodRow) : PaymentDb :=
  (db.setMethodStatus r.id .expired).stage "payment_method.cutover_invalidated" r.id
    [("customer_id", .str r.customerId), ("last4", .str r.last4), ("brand", optValue .str r.brand),
     ("token_provider", .str r.tokenProvider), ("reason", .str "operator_cutover")]

/-- What the operator gets back. -/
def cutoverReply (affected invalidated : List String) : Object :=
  [("candidate_count", .int affected.length), ("candidate_ids", .array (affected.map .str)),
   ("invalidated_count", .int invalidated.length), ("invalidated_ids", .array (invalidated.map .str))]

def cutoverInvalidateMockTokens (dryRun : Bool) (db : PaymentDb) : PaymentDb × Object :=
  let rows := db.listActiveMockMethods
  let affected := rows.map PaymentMethodRow.id
  if dryRun || affected.isEmpty then (db, cutoverReply affected [])
  else (rows.foldl invalidate db, cutoverReply affected affected)

/-! ## Replies -/

/-- The row of `pmId`, read again after the commit. -/
def replyWith (pmId op : String) (txOk : Bool) (body : Except ApiError PaymentDb) :
    Except ApiError PaymentMethodRow := do
  let db ← body
  if txOk then
    match db.methods.find pmId with
    | some r => .ok r
    | none => .error (.internal s!"payment_method vanished after {op}")
  else .error (dbError "transaction failed")

def registerReply (env : RegisterEnv) (body : PaymentMethodCreateRequest) (txOk : Bool) (db : PaymentDb) :
    Except ApiError PaymentMethodRow :=
  replyWith (methodId env.seq) "insert" txOk (registerMethod env body db)

def setDefaultReply (pmId : String) (txOk : Bool) (db : PaymentDb) : Except ApiError PaymentMethodRow :=
  replyWith pmId "set_default" txOk (setDefaultMethod pmId db)

def removeReply (pmId : String) (txOk : Bool) (db : PaymentDb) : Except ApiError PaymentMethodRow :=
  replyWith pmId "remove" txOk (removeMethod pmId db)

/-! ## One operation after the other -/

/-- `txOk` is false when the database fails in the transaction, which is then undone. -/
inductive MethodOp
  | register (env : RegisterEnv) (body : PaymentMethodCreateRequest) (txOk : Bool)
  | setDefault (pmId : String) (txOk : Bool)
  | remove (pmId : String) (txOk : Bool)
  | cutover (dryRun : Bool) (txOk : Bool)

def inTx (txOk : Bool) (db : PaymentDb) : Except ApiError PaymentDb → PaymentDb
  | .ok db' => if txOk then db' else db
  | .error _ => db

namespace PaymentDb

def empty : PaymentDb := ⟨.empty, []⟩

def after (db : PaymentDb) : MethodOp → PaymentDb
  | .register env body txOk => inTx txOk db (registerMethod env body db)
  | .setDefault pmId txOk => inTx txOk db (setDefaultMethod pmId db)
  | .remove pmId txOk => inTx txOk db (removeMethod pmId db)
  | .cutover dryRun txOk => inTx txOk db (.ok (cutoverInvalidateMockTokens dryRun db).1)

def step (db : PaymentDb) (op : MethodOp) : Option PaymentDb := some (db.after op)

end PaymentDb

end BssCli.Payment

/-!
# The guards of `charge`

What is checked before the gateway is asked for money. An amount comes with its text, which
the messages repeat.
-/

namespace BssCli.Payment

open Money

def checkMethodActive (method : PaymentMethodRow) : Except ApiError Unit :=
  if method.status ≠ .active then .error (.policy
    { rule := "payment.charge.method_active"
      message := s!"Payment method {method.id} status is '{method.status.name}', must be active"
      context := [("payment_method_id", .str method.id), ("status", .str method.status.name)] })
  else .ok ()

def checkPositiveAmount (amount : Decimal) (text : String) : Except ApiError Unit :=
  if amount ≤ 0 then .error (.policy
    { rule := "payment.charge.positive_amount"
      message := s!"Charge amount must be positive, got {text}"
      context := [("amount", .str text)] })
  else .ok ()

def checkCustomerMatchesMethod (customerId : String) (method : PaymentMethodRow) :
    Except ApiError Unit :=
  if method.customerId ≠ customerId then .error (.policy
    { rule := "payment.charge.customer_matches_method"
      message := s!"Payment method {method.id} belongs to {method.customerId}, not {customerId}"
      context := [("requested_customer_id", .str customerId),
        ("method_customer_id", .str method.customerId), ("payment_method_id", .str method.id)] })
  else .ok ()

/-- An adapter of another name does not trip the guard. -/
def expectedProvider (adapterClassName : String) : Option String :=
  if adapterClassName = "MockTokenizerAdapter" then some "mock"
  else if adapterClassName = "StripeTokenizerAdapter" then some "stripe"
  else none

def checkTokenProviderMatchesActive (method : PaymentMethodRow) (adapterClassName : String) :
    Except ApiError Unit :=
  match expectedProvider adapterClassName with
  | none => .ok ()
  | some expected =>
    let actual := orElse method.tokenProvider "mock"
    if actual ≠ expected then .error (.policy
      { rule := "payment.charge.token_provider_matches_active"
        message := s!"Payment method {method.id} has token_provider='{actual}', but the active " ++
          s!"tokenizer is {adapterClassName} (expects token_provider='{expected}'). Customer must " ++
          "re-add their card; see \x60docs/runbooks/stripe-cutover.md\x60."
        context := [("payment_method_id", .str method.id), ("row_token_provider", .str actual),
          ("active_adapter", .str adapterClassName), ("expected_token_provider", .str expected)] })
    else .ok ()

/-- Everything `charge` checks. It answers with the card that it may use. -/
def chargeGuards (customerId pmId adapterClassName : String) (amount : Decimal) (text : String)
    (db : PaymentDb) : Except ApiError PaymentMethodRow :=
  match db.methods.find pmId with
  | none => .error (.policy
    { rule := "payment.charge.method_not_found"
      message := s!"Payment method {pmId} not found"
      context := [("payment_method_id", .str pmId)] })
  | some method => do
    checkMethodActive method
    checkPositiveAmount amount text
    checkCustomerMatchesMethod customerId method
    checkTokenProviderMatchesActive method adapterClassName
    return method

theorem checkPositiveAmount_eq_ok {amount : Decimal} {text : String} :
    checkPositiveAmount amount text = .ok () ↔ 0 < amount := by
  unfold checkPositiveAmount
  split
  · simp_all
  · simp_all

/-- Money is asked for only in a positive amount, on an active card of the customer. -/
theorem chargeGuards_eq_ok {customerId pmId adapter text : String} {amount : Decimal} {db : PaymentDb}
    {method : PaymentMethodRow} (h : chargeGuards customerId pmId adapter amount text db = .ok method) :
    db.methods.find pmId = some method ∧ method.status = .active ∧ 0 < amount ∧
      method.customerId = customerId := by
  unfold chargeGuards at h
  split at h
  · cases h
  · rename_i r hfind
    simp only [bind_eq_ok] at h
    obtain ⟨⟨⟩, hactive, ⟨⟩, hpos, ⟨⟩, hcustomer, ⟨⟩, -, h⟩ := h
    cases h
    refine ⟨hfind, ?_, checkPositiveAmount_eq_ok.mp hpos, ?_⟩
    · unfold checkMethodActive at hactive
      split at hactive
      · cases hactive
      · rename_i hs
        exact not_not.mp hs
    · unfold checkCustomerMatchesMethod at hcustomer
      split at hcustomer
      · cases hcustomer
      · rename_i hc
        exact not_not.mp hc

end BssCli.Payment
