import BssCli.Common
import BssCli.Lib.Json
import BssCli.Lib.Text

/-!
# A signup session and its handlers

A handler takes a copy of the session, calls out, and writes its copy back over whatever is
stored by then. The session becomes known with the answer to the form, so its handlers are the
step routes.
-/

namespace BssCli.Signup

inductive SignupStep
  | pendingCustomer
  | pendingKyc
  | pendingKycHandoff
  | pendingCof
  | pendingCofElements
  | pendingOrder
  | pendingActivation
  | completed
  | failed
  deriving DecidableEq

/-- The order in which a signup goes through its steps. It can fail at any of them. -/
def SignupStep.rank : SignupStep → ℕ
  | .pendingCustomer => 0
  | .pendingKyc => 1
  | .pendingKycHandoff => 2
  | .pendingCof => 3
  | .pendingCofElements => 4
  | .pendingOrder => 5
  | .pendingActivation => 6
  | .completed => 7
  | .failed => 8

structure SignupSession where
  sessionId : String
  plan : String
  email : String
  msisdn : String
  cardPan : List Char
  promoCode : String
  skipAssignedOffer : Bool
  identityId : Option String
  createdAt : Time
  step : SignupStep
  stepError : Option String
  redirectArmed : Bool
  openOrderId : Option String
  customerId : Option String
  paymentMethodId : Option String
  orderId : Option String
  subscriptionId : Option String
  activationCode : Option String
  done : Bool
  kycProviderSessionId : Option String
  kycVerifyUrl : Option String
  kycVerifyQr : Option String

structure Settings where
  ttl : Time
  paymentProvider : String
  paymentStripeApiKey : String
  prebaked : Bool
  hasClients : Bool
  hasDb : Bool
  qrDataUri : String → String

/-! ## What comes back from outside -/

inductive KycError
  | capExhausted
  | corroborationTimeout
  | http

structure KycSession where
  sessionId : String
  redirectUrl : String

structure KycAttestation where
  provider : String
  providerReference : String
  documentType : String
  documentCountry : String
  documentNumberLast4 : String
  documentNumberHash : String
  dateOfBirth : String
  corroborationId : Option String

/-- `error` is a failure that is no policy violation. What was asked for may be done then. -/
inductive Reply
  | ok (body : Json)
  | policy (rule : String)
  | error (done : Bool)

inductive Response
  | kycSession (r : Except KycError KycSession)
  | decision (status : Option String)
  | attestation (r : Except KycError KycAttestation)
  | reply (r : Reply)
  | stripe (r : Except String Json)
  /-- The lock of the store. -/
  | locked

/-! ## Helpers of the handlers -/

structure TokenizedCard where
  cardToken : List Char
  last4 : List Char
  brand : String

def isInfix (s cs : List Char) : Bool := cs.tails.any fun t => s.isPrefixOf t

/-- `local_tokenize`, with the random part of the token. -/
def localTokenize (uid cardNumber : List Char) : Option TokenizedCard :=
  let digits := cardNumber.filter fun c => c ≠ ' ' ∧ c ≠ '-'
  if ¬ (digits.all Char.isDigit) ∨ digits.length < 12 then none
  else
    let bin2 := digits.take 2
    let brand :=
      if digits.head? = some '4' then "visa"
      else if bin2 ∈ ["51".toList, "52".toList, "53".toList, "54".toList, "55".toList] then "mastercard"
      else if bin2 = "34".toList ∨ bin2 = "37".toList then "amex"
      else "unknown"
    let upper := cardNumber.map Char.toUpper
    let mark := if isInfix "FAIL".toList upper then "FAIL_" else if isInfix "DECLINE".toList upper then "DECLINE_" else ""
    some ⟨"tok_".toList ++ mark.toList ++ uid, digits.drop (digits.length - 4), brand⟩

/-- A text under one of the keys, of the order or of one of its items. -/
def lift (keys : List String) (p : String → Bool) (order : Json) : Option String :=
  let here (v : Json) := keys.findSome? fun key => ((v.get key).bind Json.asStr).filter p
  (here order).or (((order.get "items").bind Json.asArray).bind fun items => items.findSome? here)

def extractSubscriptionId : Json → Option String :=
  lift ["targetSubscriptionId", "target_subscription_id", "subscriptionId", "subscription_id"]
    fun v => "SUB-".toList.isPrefixOf v.toList

def extractActivationCode : Json → Option String := lift ["activationCode", "activation_code", "lpa"] fun _ => true

/-! ## Handlers in progress -/

inductive Request
  | kyc
  | kycPoll
  | cof (uid : List Char)
  | checkoutInit
  | checkoutReturn (csId : String)
  | order
  | poll

/-- A handler, the session that it has read, and what it has been answered so far. -/
inductive SignupFlight
  | initiating (sig : SignupSession)
  | corroborating (sig : SignupSession) (psid : String)
  | fetching (sig : SignupSession) (kycSessionId : String)
  | attesting (sig : SignupSession) (attestation : KycAttestation)
  | addingCard (sig : SignupSession) (card : TokenizedCard)
  | ensuring (sig : SignupSession)
  | checkingOut (sig : SignupSession) (cusId : String)
  | retrieving (sig : SignupSession) (csId : String)
  | extracting (sig : SignupSession) (setupIntent : String)
  | registering (sig : SignupSession) (pmId : String)
  | ordering (sig : SignupSession)
  | submitting (sig : SignupSession) (orderId : String)
  | polling (sig : SignupSession) (orderId : String)
  /-- About to write the session back. `owes` is set when something was bought meanwhile. -/
  | storing (read : SignupStep) (sig : SignupSession) (owes : Bool)

/-- The session fails, once it is written back. -/
def fails (sig : SignupSession) (rule : String) (owes : Bool) : SignupFlight :=
  .storing sig.step { sig with step := .failed, stepError := some rule } owes

inductive Effect
  | card
  | order
  | submit
  deriving DecidableEq

structure Outcome where
  next : Option SignupFlight
  write : Option SignupSession
  effect : Option Effect

def goes (f : SignupFlight) : Outcome := ⟨some f, none, none⟩

def ends : Outcome := ⟨none, none, none⟩

/-- A request that failed on the way, with or without what it asked for. -/
def breaks (done : Bool) (e : Effect) : Outcome := ⟨none, none, if done then some e else none⟩

section Handlers

variable (s : Settings) (sig : SignupSession)

/-- What the handler of a request does with the session that it has read. -/
def Request.enter : Request → Option SignupFlight
  | .kyc => if sig.step = .pendingKyc then some (.initiating sig) else none
  | .kycPoll =>
    if sig.step = .pendingKycHandoff ∧ s.hasDb then
      (sig.kycProviderSessionId.filter (· ≠ "")).map (.corroborating sig)
    else none
  | .cof uid =>
    if s.paymentProvider = "stripe" ∨ sig.step ≠ .pendingCof then none
    else match localTokenize uid sig.cardPan with
      | none => some (fails sig "policy.payment.method.invalid_card" false)
      | some card => if s.hasClients then some (.addingCard sig card) else none
  | .checkoutInit =>
    if sig.step ≠ .pendingCof ∧ sig.step ≠ .pendingCofElements then none
    else if s.paymentStripeApiKey = "" then some (fails sig "policy.payment.checkout.stripe_unconfigured" false)
    else if s.hasClients then some (.ensuring sig) else none
  | .checkoutReturn csId =>
    if sig.step ≠ .pendingCof ∧ sig.step ≠ .pendingCofElements then none
    else if s.paymentStripeApiKey = "" ∨ ¬ "cs_".toList.isPrefixOf csId.toList then
      some (fails sig "policy.payment.checkout.bad_return" false)
    else some (.retrieving sig csId)
  | .order => if sig.step = .pendingOrder ∧ s.hasClients then some (.ordering sig) else none
  | .poll =>
    if sig.step = .pendingActivation ∧ s.hasClients then sig.orderId.map (.polling sig) else none

def initiated : Except KycError KycSession → Outcome
  | .error .capExhausted => goes (fails sig "kyc.cap_exhausted" false)
  | .error _ => goes (fails sig "kyc.initiate_failed" false)
  | .ok kyc =>
    if s.prebaked then goes (.fetching sig kyc.sessionId)
    else goes (.storing sig.step { sig with
      kycProviderSessionId := some kyc.sessionId
      kycVerifyUrl := some kyc.redirectUrl
      kycVerifyQr := some (s.qrDataUri kyc.redirectUrl)
      step := .pendingKycHandoff } false)

/-- Only a final status counts. -/
def decided (psid : String) (status : Option String) : Outcome :=
  if status = some "Declined" then goes (fails sig "kyc.declined" false)
  else if status = some "Expired" then goes (fails sig "kyc.expired" false)
  else if status = some "Approved" then goes (.fetching sig psid)
  else ends

def fetched : Except KycError KycAttestation → Outcome
  | .error .corroborationTimeout =>
    goes (.storing sig.step { sig with stepError := some "kyc.corroboration_timeout" } false)
  | .error _ => goes (.storing sig.step { sig with stepError := some "kyc.fetch_failed" } false)
  | .ok attestation => if s.hasClients then goes (.attesting sig attestation) else ends

def attested : Reply → Outcome
  | .ok _ => goes (.storing sig.step { sig with step := .pendingCof } false)
  | .policy rule => goes (fails sig rule false)
  | .error _ => ends

/-- The card that was added. The mock forgets the number of it. -/
def cardAdded (cardPan : List Char) : Reply → Outcome
  | .ok method =>
    let added := { sig with
      paymentMethodId := (method.get "id").bind Json.asStr, cardPan, step := SignupStep.pendingOrder }
    ⟨some (.storing sig.step added true), none, some .card⟩
  | .policy rule => goes (fails sig rule false)
  | .error done => breaks done .card

def ensured : Reply → Outcome
  | .ok v => goes (.checkingOut sig (((v.get "customer_external_ref").bind Json.asStr).getD ""))
  | .policy rule => goes (fails sig rule false)
  | .error _ => goes (fails sig "policy.payment.checkout.ensure_customer_failed" false)

def checkedOut (r : Except String Json) : Outcome :=
  match r.toOption.bind fun body => (body.get "url").bind Json.asStr with
  | some _ => goes (.storing sig.step { sig with step := .pendingCofElements } false)
  | none => goes (fails sig "policy.payment.checkout.session_create_failed" false)

def extracted (pm : Option String) : Outcome :=
  match pm.filter fun id => "pm_".toList.isPrefixOf id.toList with
  | some pmId => if s.hasClients then goes (.registering sig pmId) else ends
  | none => goes (fails sig "policy.payment.checkout.no_payment_method" false)

def retrieved : Except String Json → Outcome
  | .error _ => goes (fails sig "policy.payment.checkout.retrieve_failed" false)
  | .ok cs =>
    if (((cs.get "metadata").bind (·.get "bss_signup_session")).bind Json.asStr).getD "" ≠ sig.sessionId then
      goes (fails sig "policy.payment.checkout.metadata_mismatch" false)
    else match cs.get "setup_intent" with
      | some (.obj fields) => extracted s sig (((Json.obj fields).get "payment_method").bind Json.asStr)
      | some (.str setupIntent) => goes (.extracting sig setupIntent)
      | _ => extracted s sig none

/-- `create_order`, with the id that `submit_order` needs. -/
def created : Reply → Outcome
  | .ok body =>
    match (body.get "id").bind Json.asStr with
    | some orderId => ⟨some (.submitting sig orderId), none, some .order⟩
    | none => ⟨some (fails sig "signup.create_order.no_id" true), none, some .order⟩
  | .policy rule => goes (fails sig rule false)
  | .error done => breaks done .order

def submitted (orderId : String) : Reply → Outcome
  | .ok _ =>
    ⟨some (.storing sig.step { sig with orderId := some orderId, step := .pendingActivation } true), none, some .submit⟩
  | .policy rule => goes (fails sig rule true)
  | .error done => breaks done .submit

def polled : Reply → Outcome
  | .ok order =>
    let state := (order.get "state").bind Json.asStr
    if state = some "completed" then
      match extractSubscriptionId order with
      | none => ends
      | some subscriptionId =>
        goes (.storing sig.step { sig with
          subscriptionId := some subscriptionId
          activationCode := extractActivationCode order
          step := .completed
          done := true
          redirectArmed := true } false)
    else if state = some "failed" then goes (fails sig "order.failed" false)
    else if state = some "cancelled" then goes (fails sig "order.cancelled" false)
    else ends
  | .policy _ | .error _ => ends

/-- The next step of a handler, on what it is answered. -/
def SignupFlight.run : SignupFlight → Response → Option Outcome
  | .initiating sig, .kycSession r => some (initiated s sig r)
  | .corroborating sig psid, .decision status => some (decided sig psid status)
  | .fetching sig _, .attestation r => some (fetched s sig r)
  | .attesting sig _, .reply r => some (attested sig r)
  | .addingCard sig _, .reply r => some (cardAdded sig [] r)
  | .ensuring sig, .reply r => some (ensured sig r)
  | .checkingOut sig _, .stripe r => some (checkedOut sig r)
  | .retrieving sig _, .stripe r => some (retrieved s sig r)
  | .extracting sig _, .stripe r =>
    some (extracted s sig (r.toOption.bind fun si => (si.get "payment_method").bind Json.asStr))
  | .registering sig _, .reply r => some (cardAdded sig sig.cardPan r)
  | .ordering sig, .reply r => some (created sig r)
  | .submitting sig orderId, .reply r => some (submitted sig orderId r)
  | .polling sig _, .reply r => some (polled sig r)
  | .storing _ sig _, .locked => some ⟨none, some sig, none⟩
  | _, _ => none

end Handlers

end BssCli.Signup
