import BssCli.Lib.Json
import BssCli.Lib.Rounding
import BssCli.Payment.Methods
import Mathlib.Data.List.Infix

/-!
# The charge of the tokenizer

What is asked of Stripe for a charge, and what its answer comes to. `post` stands for the
request over HTTP. The record of the call is left out.
-/

namespace BssCli.Payment

open Money

inductive ChargeStatus
  | approved
  | declined
  | errored
  deriving DecidableEq

def ChargeStatus.name : ChargeStatus → String
  | approved => "approved"
  | declined => "declined"
  | errored => "errored"

structure ChargeResult where
  status : ChargeStatus
  gatewayRef : String
  reason : Option String
  providerCallId : String
  declineCode : Option String
  deriving DecidableEq

/-! ## The mock -/

def decideMockCharge (token : String) : ChargeStatus × Option String × Option String :=
  if "FAIL".toList <:+: token.toList ∨ "DECLINE".toList <:+: token.toList then
    (.declined, some "card_declined_by_issuer", some "card_declined")
  else (.approved, none, none)

/-- `uuid` is drawn for the call. -/
def mockCharge (token uuid : String) (amount : Decimal) : Except TokenizerError ChargeResult :=
  if amount ≤ 0 then .error (.value "amount must be positive")
  else
    let (status, reason, declineCode) := decideMockCharge token
    let gatewayRef := s!"mock_{uuid}"
    .ok { status, gatewayRef, reason, providerCallId := gatewayRef, declineCode }

/-! ## Stripe -/

/-- What is posted to `/v1/payment_intents`. -/
structure PaymentIntent where
  idempotencyKey : String
  amountMinor : ℤ
  currency : String
  customer : String
  paymentMethod : String
  purpose : String
  deriving DecidableEq

def PaymentIntent.form (intent : PaymentIntent) : List (String × String) :=
  [("amount", toString intent.amountMinor), ("currency", intent.currency), ("customer", intent.customer),
    ("payment_method", intent.paymentMethod), ("off_session", "true"), ("confirm", "true"),
    ("metadata[bss_purpose]", intent.purpose)]

/-- `round` takes a half to the even neighbour. A product that no `Decimal` holds ends the call
as well, by a panic. -/
def amountMinor (amount : Decimal) : Except TokenizerError ℤ :=
  if FitsI64 (Rounding.roundEven (amount * 100)) then .ok (Rounding.roundEven (amount * 100))
  else .error (.value "amount overflow")

/-- `stripe_charge` up to the request. A currency code is ASCII. -/
def paymentIntent (token : String) (amount : Decimal) (currency idempotencyKey purpose : String)
    (customerExternalRef : Option String) : Except TokenizerError PaymentIntent :=
  if amount ≤ 0 then .error (.value "amount must be positive")
  else
    match customerExternalRef.filter (· ≠ "") with
    | none => .error (.value ("StripeTokenizerAdapter.charge requires customer_external_ref; off-session " ++
        "confirm=True needs an attached Stripe customer"))
    | some customer => do
      let amountMinor ← amountMinor amount
      return { idempotencyKey, amountMinor, currency := currency.toLower, customer, paymentMethod := token, purpose }

def strAt (value : Json) (key : String) : Option String := (value.get key).bind Json.asStr

/-- A decline is an outcome. Any other error of Stripe is none. -/
def chargeOutcome (body : Json) : Except TokenizerError ChargeResult :=
  match body.get "error" with
  | some err =>
    let errType := (strAt err "type").getD ""
    if errType = "card_error" then
      let piId := (((err.get "payment_intent").bind fun pi => strAt pi "id")).getD "pi_unknown"
      let declineCode := (strAt err "code").getD "card_declined"
      let reason := (strAt err "message").getD "card declined"
      .ok { status := .declined, gatewayRef := piId, reason := some reason, providerCallId := piId
            declineCode := some declineCode }
    else
      let message := (strAt err "message").getD errType
      .error (.transport s!"stripe error: {message}")
  | none =>
    let piId := (strAt body "id").getD ""
    let status := (strAt body "status").getD ""
    if status = "succeeded" then
      .ok { status := .approved, gatewayRef := piId, reason := none, providerCallId := piId, declineCode := none }
    else
      .ok { status := .errored, gatewayRef := piId
            reason := some s!"unexpected sync status '{status}' on off-session confirm"
            providerCallId := piId, declineCode := none }

/-- The request that goes out, if one does, and what the call returns. -/
structure GatewayCall where
  sent : Option PaymentIntent
  result : Except TokenizerError ChargeResult

def stripeCharge (post : PaymentIntent → Except String Json) (token : String) (amount : Decimal)
    (currency idempotencyKey purpose : String) (customerExternalRef : Option String) : GatewayCall :=
  match paymentIntent token amount currency idempotencyKey purpose customerExternalRef with
  | .error e => { sent := none, result := .error e }
  | .ok intent =>
    match post intent with
    | .error m => { sent := some intent, result := .error (.transport m) }
    | .ok body => { sent := some intent, result := chargeOutcome body }

/-- What is sent is the amount in cents, for an amount that the guard lets through. -/
theorem stripeCharge_sent {post : PaymentIntent → Except String Json} {token currency key purpose : String}
    {amount : Decimal} {ref : Option String} {intent : PaymentIntent}
    (h : (stripeCharge post token amount currency key purpose ref).sent = some intent) :
    0 < amount ∧ FitsI64 (Rounding.roundEven (amount * 100)) ∧
      intent.amountMinor = Rounding.roundEven (amount * 100) := by
  unfold stripeCharge at h
  split at h
  · cases h
  · rename_i sent hsent
    have hintent : sent = intent := by
      split at h
      · exact Option.some.inj h
      · exact Option.some.inj h
    subst hintent
    unfold paymentIntent at hsent
    split at hsent
    · cases hsent
    rename_i hpos
    split at hsent
    · cases hsent
    obtain ⟨minor, hminor, hsent⟩ := bind_eq_ok.mp hsent
    unfold amountMinor at hminor
    split at hminor
    · rename_i hfits
      cases hminor
      cases hsent
      exact ⟨not_le.mp hpos, hfits, rfl⟩
    · cases hminor

inductive Adapter
  | mock
  | stripe
  deriving DecidableEq

namespace Adapter

def className : Adapter → String
  | mock => "MockTokenizerAdapter"
  | stripe => "StripeTokenizerAdapter"

def charge (adapter : Adapter) (post : PaymentIntent → Except String Json) (uuid token : String) (amount : Decimal)
    (currency idempotencyKey purpose : String) (customerExternalRef : Option String) : GatewayCall :=
  match adapter with
  | mock => { sent := none, result := mockCharge token uuid amount }
  | stripe => stripeCharge post token amount currency idempotencyKey purpose customerExternalRef

end Adapter

end BssCli.Payment
