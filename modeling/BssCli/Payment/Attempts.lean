import BssCli.Payment.Methods
import BssCli.Payment.Stripe
import BssCli.Subscription.Policies

/-!
# What is charged and what is recorded

`charge` asks the gateway first and writes the row after. The gateway gets the amount in
cents, the row has it in a `numeric(12,2)`, and each rounds in its own way.
-/

namespace BssCli.Payment

open Money
open Subscription (numeric12)

structure PaymentAttemptRow where
  id : String
  customerId : String
  paymentMethodId : String
  amount : Decimal
  currency : String
  purpose : String
  status : ChargeStatus
  gatewayRef : Option String
  declineReason : Option String
  attemptedAt : Time
  deriving DecidableEq

structure AttemptRecord extends PaymentAttemptRow where
  providerCallId : String
  declineCode : Option String
  idempotencyKey : String
  deriving DecidableEq

abbrev Attempts := Table (fun r : AttemptRecord => r.id) (fun id : String => id)

/-- A staged `audit.domain_event` row whose payload may repeat what Stripe sent. -/
structure StagedEvent where
  eventType : String
  aggregateType : String
  aggregateId : String
  payload : List (String × Json)

structure AttemptDb where
  attempts : Attempts
  nextAttempt : ℕ
  events : List StagedEvent

/-- `{seq:06}` -/
def pad6 (n : ℕ) : String :=
  let digits := Nat.toDigits 10 n
  .ofList (List.replicate (6 - digits.length) '0' ++ digits)

def attemptId (seq : ℕ) : String := "PAY-" ++ pad6 seq

def eventTypeForStatus : ChargeStatus → String
  | .approved => "payment.charged"
  | .declined => "payment.declined"
  | .errored => "payment.errored"

def optStrJson : Option String → Json
  | none => .null
  | some s => .str s

namespace AttemptDb

def stage (eventType id : String) (payload : List (String × Json)) (db : AttemptDb) : AttemptDb :=
  { db with events := db.events ++ [⟨eventType, "payment_attempt", id, payload⟩] }

/-- A `nextval` is not given back when the transaction is. -/
def draw (db : AttemptDb) : AttemptDb := { db with nextAttempt := db.nextAttempt + 1 }

def insertAttempt (r : AttemptRecord) (db : AttemptDb) : Except ApiError AttemptDb := do
  let amount ← numeric12 r.amount
  match db.attempts.insert { r with amount } with
  | some attempts => .ok { db with attempts }
  | none => .error (dbError "duplicate key value violates unique constraint \"pk_payment_attempt\"")

end AttemptDb

structure ChargeRequest where
  customerId : String
  paymentMethodId : String
  amount : Decimal
  amountText : String
  currency : String
  purpose : String

def chargedEvent (req : ChargeRequest) (r : ChargeResult) : List (String × Json) :=
  [("customer_id", .str req.customerId), ("payment_method_id", .str req.paymentMethodId),
    ("amount", .str req.amountText), ("currency", .str req.currency), ("purpose", .str req.purpose),
    ("status", .str r.status.name), ("gateway_ref", .str r.gatewayRef), ("provider_call_id", .str r.providerCallId),
    ("decline_code", optStrJson r.declineCode)]

/-- The request to Stripe that went out, the database after, and the answer. -/
structure ChargeRun where
  sent : Option PaymentIntent
  db : AttemptDb
  result : Except ApiError PaymentAttemptRow

/-- What surrounds a call: the adapter, what Stripe answers, the clock, the cached customer
references and the cards. -/
structure ChargeEnv where
  adapter : Adapter
  post : PaymentIntent → Except String Json
  uuid : String
  now : Time
  externalRef : String → Option String
  cards : PaymentDb

def charge (env : ChargeEnv) (req : ChargeRequest) (db : AttemptDb) : ChargeRun :=
  match chargeGuards req.customerId req.paymentMethodId env.adapter.className req.amount req.amountText env.cards with
  | .error e => { sent := none, db, result := .error e }
  | .ok method =>
    let id := attemptId db.nextAttempt
    let idempotencyKey := s!"ATT-{id}-r0"
    let call := env.adapter.charge env.post env.uuid method.token req.amount req.currency idempotencyKey req.purpose
      (env.externalRef req.customerId)
    match call.result with
    | .error e => { sent := call.sent, db := db.draw, result := .error (.internal e.display) }
    | .ok r =>
      let row : PaymentAttemptRow :=
        { id, customerId := req.customerId, paymentMethodId := req.paymentMethodId, amount := req.amount
          currency := req.currency, purpose := req.purpose, status := r.status, gatewayRef := some r.gatewayRef
          declineReason := r.reason, attemptedAt := env.now }
      match db.draw.insertAttempt { row with
          providerCallId := r.providerCallId, declineCode := r.declineCode, idempotencyKey } with
      | .error e => { sent := call.sent, db := db.draw, result := .error e }
      | .ok db' =>
        { sent := call.sent, db := db'.stage (eventTypeForStatus r.status) id (chargedEvent req r), result := .ok row }

/-! ## What a charge sends and writes -/

theorem charge_sent {env : ChargeEnv} {req : ChargeRequest} {db : AttemptDb} {intent : PaymentIntent}
    (h : (charge env req db).sent = some intent) :
    0 < req.amount ∧ FitsI64 (Rounding.roundEven (req.amount * 100)) ∧
      intent.amountMinor = Rounding.roundEven (req.amount * 100) := by
  have hcall : ∀ token key, (env.adapter.charge env.post env.uuid token req.amount req.currency key req.purpose
      (env.externalRef req.customerId)).sent = some intent →
      0 < req.amount ∧ FitsI64 (Rounding.roundEven (req.amount * 100)) ∧
        intent.amountMinor = Rounding.roundEven (req.amount * 100) := by
    intro token key hsent
    unfold Adapter.charge at hsent
    split at hsent
    · cases hsent
    · exact stripeCharge_sent hsent
  unfold charge at h
  split at h
  · cases h
  · dsimp only at h
    split at h
    · exact hcall _ _ h
    · split at h
      · exact hcall _ _ h
      · exact hcall _ _ h

theorem insertAttempt_eq_ok {r : AttemptRecord} {db db' : AttemptDb} (h : db.insertAttempt r = .ok db') :
    ∃ stored, numeric12 r.amount = .ok stored ∧ db'.attempts.find r.id = some { r with amount := stored } := by
  unfold AttemptDb.insertAttempt at h
  obtain ⟨stored, hstored, h⟩ := bind_eq_ok.mp h
  split at h
  · rename_i attempts hinsert
    cases h
    refine ⟨stored, hstored, ?_⟩
    rw [Table.find_insert hinsert, if_pos rfl]
  · cases h

/-- The row has the amount as its column rounds it. The answer has it as it was asked for. -/
theorem charge_records {env : ChargeEnv} {req : ChargeRequest} {db : AttemptDb} {row : PaymentAttemptRow}
    (h : (charge env req db).result = .ok row) :
    ∃ stored record, numeric12 req.amount = .ok stored ∧ (charge env req db).db.attempts.find row.id = some record ∧
      record.toPaymentAttemptRow = { row with amount := stored } := by
  unfold charge at h ⊢
  split at h
  · cases h
  · dsimp only at h ⊢
    split at h
    · cases h
    · split at h
      · cases h
      · rename_i db' hinsert
        cases h
        obtain ⟨stored, hstored, hfind⟩ := insertAttempt_eq_ok hinsert
        exact ⟨stored, _, hstored, hfind, rfl⟩

/-! ## The two roundings -/

theorem roundDp2_of_nonneg {x : Decimal} (h : 0 ≤ x) : roundDp2 x = Rounding.roundUp (x * 100) / 100 := by
  rw [roundDp2, if_neg (not_lt.mpr h), Rounding.roundUp]

/-- What goes to Stripe is the cents of the row, and there are some. -/
def ChargedAsRecorded (amount : Decimal) (intent : PaymentIntent) : Prop :=
  1 ≤ intent.amountMinor ∧ ∃ stored, numeric12 amount = .ok stored ∧ (intent.amountMinor : ℚ) = 100 * stored

/-- More than half a cent, no half cent above an even number of cents, and room in the column. -/
def RoundsAlike (amount : Decimal) : Prop :=
  1 / 2 < amount * 100 ∧ (∀ n : ℤ, amount * 100 ≠ 2 * n + 1 / 2) ∧ amount * 100 + 1 / 2 < 10 ^ 12

theorem column_fits_iff {x : Decimal} (h : 0 < x) : |roundDp2 x| < 10 ^ 10 ↔ x * 100 + 1 / 2 < 10 ^ 12 := by
  have hup : (0 : ℚ) ≤ Rounding.roundUp (x * 100) := by
    exact_mod_cast Int.floor_nonneg.mpr (by linarith)
  rw [roundDp2_of_nonneg h.le, abs_of_nonneg (div_nonneg hup (by norm_num)), div_lt_iff₀ (by norm_num),
    show (10 : ℚ) ^ 10 * 100 = (10 ^ 12 : ℤ) by norm_num, Int.cast_lt, Rounding.roundUp, Int.floor_lt]
  norm_num

section Roundings

variable {amount : Decimal} {intent : PaymentIntent}

theorem roundsAlike_of_recorded (hpos : 0 < amount) (hminor : intent.amountMinor = Rounding.roundEven (amount * 100))
    (h : ChargedAsRecorded amount intent) : RoundsAlike amount := by
  obtain ⟨hone, stored, hstored, heq⟩ := h
  unfold numeric12 at hstored
  split at hstored
  · rename_i hfits
    cases hstored
    have hsame : Rounding.roundEven (amount * 100) = Rounding.roundUp (amount * 100) := by
      rw [hminor, roundDp2_of_nonneg hpos.le, mul_div_cancel₀ _ (by norm_num)] at heq
      exact_mod_cast heq
    have hties := (Rounding.roundEven_eq_roundUp_iff _).mp hsame
    refine ⟨?_, hties, (column_fits_iff hpos).mp hfits⟩
    have hle : (1 : ℚ) ≤ amount * 100 + 1 / 2 := by
      rw [hminor, hsame, Rounding.roundUp, Int.le_floor] at hone
      exact_mod_cast hone
    rcases lt_or_eq_of_le hle with hlt | heq'
    · linarith
    · exact absurd (by push_cast; linarith) (hties 0)
  · cases hstored

theorem recorded_of_roundsAlike (hpos : 0 < amount) (hminor : intent.amountMinor = Rounding.roundEven (amount * 100))
    (h : RoundsAlike amount) : ChargedAsRecorded amount intent := by
  obtain ⟨hhalf, hties, hfits⟩ := h
  have hsame := (Rounding.roundEven_eq_roundUp_iff _).mpr hties
  refine ⟨?_, roundDp2 amount, if_pos ((column_fits_iff hpos).mpr hfits), ?_⟩
  · rw [hminor, hsame, Rounding.roundUp, Int.le_floor]
    push_cast
    linarith
  · rw [hminor, hsame, roundDp2_of_nonneg hpos.le, mul_div_cancel₀ _ (by norm_num)]

end Roundings

/-- Stripe is charged what is recorded exactly where the two roundings agree. -/
theorem charged_as_recorded_iff {env : ChargeEnv} {req : ChargeRequest} {db : AttemptDb} {intent : PaymentIntent}
    (hsent : (charge env req db).sent = some intent) :
    ChargedAsRecorded req.amount intent ↔ RoundsAlike req.amount := by
  obtain ⟨hpos, -, hminor⟩ := charge_sent hsent
  exact ⟨roundsAlike_of_recorded hpos hminor, recorded_of_roundsAlike hpos hminor⟩

/-! ## Half a cent -/

def sampleCard : PaymentMethodRow where
  id := "PM-0001"
  customerId := "CUST-001"
  type := "card"
  token := "pm_card"
  tokenProvider := "stripe"
  last4 := "4242"
  brand := some "visa"
  expMonth := 12
  expYear := 2030
  isDefault := true
  status := .active
  createdAt := 0

def sampleReply : Json := .obj [("id", .str "pi_1"), ("status", .str "succeeded")]

def sampleEnv : ChargeEnv where
  adapter := .stripe
  post := fun _ => .ok sampleReply
  uuid := ""
  now := 0
  externalRef := fun _ => some "cus_1"
  cards := ⟨.singleton sampleCard, []⟩

def sampleCharge (amount : Decimal) (text : String) : ChargeRequest where
  customerId := "CUST-001"
  paymentMethodId := "PM-0001"
  amount := amount
  amountText := text
  currency := "SGD"
  purpose := "recurring"

def noAttempts : AttemptDb := ⟨.empty, 1, []⟩

def sampleSent (amount : Decimal) (text : String) : Option PaymentIntent :=
  (charge sampleEnv (sampleCharge amount text) noAttempts).sent

def sampleIntent (amountMinor : ℤ) : PaymentIntent where
  idempotencyKey := "ATT-PAY-000001-r0"
  amountMinor := amountMinor
  currency := "sgd"
  customer := "cus_1"
  paymentMethod := "pm_card"
  purpose := "recurring"

theorem charged_as_recorded_dollars :
    sampleSent 25 "25.00" = some (sampleIntent 2500) ∧ ChargedAsRecorded 25 (sampleIntent 2500) := by
  have hsent : sampleSent 25 "25.00" = some (sampleIntent 2500) := by decide +kernel
  refine ⟨hsent, (charged_as_recorded_iff hsent).mpr ⟨by norm_num [sampleCharge], ?_, by norm_num [sampleCharge]⟩⟩
  intro n heq
  have htwice : (2 * (2 * n) + 1 : ℤ) = 5000 := by
    have : (2 * (2 * n) + 1 : ℚ) = 5000 := by
      norm_num [sampleCharge] at heq
      linarith
    exact_mod_cast this
  omega

/-- Half a cent is charged as nothing, twelve cents and a half as twelve, and an amount that
the column has no room for is charged and not recorded. -/
theorem charged_otherwise :
    (sampleSent (1 / 200) "0.005" = some (sampleIntent 0) ∧ ¬ ChargedAsRecorded (1 / 200) (sampleIntent 0)) ∧
      (sampleSent (1 / 8) "0.125" = some (sampleIntent 12) ∧ ¬ ChargedAsRecorded (1 / 8) (sampleIntent 12)) ∧
      sampleSent (10 ^ 10) "10000000000" = some (sampleIntent (10 ^ 12)) ∧
        ¬ ChargedAsRecorded (10 ^ 10) (sampleIntent (10 ^ 12)) := by
  refine ⟨⟨by decide +kernel, ?_⟩, ⟨by decide +kernel, ?_⟩, by decide +kernel, ?_⟩
  · rintro ⟨hone, -⟩
    exact absurd hone (by decide)
  · intro h
    have hminor : (sampleIntent 12).amountMinor = Rounding.roundEven (1 / 8 * 100) := by decide +kernel
    exact (roundsAlike_of_recorded (by norm_num) hminor h).2.1 6 (by norm_num)
  · intro h
    have hminor : (sampleIntent (10 ^ 12)).amountMinor = Rounding.roundEven (10 ^ 10 * 100) := by decide +kernel
    have hroom := (roundsAlike_of_recorded (by norm_num) hminor h).2.2
    norm_num at hroom

end BssCli.Payment
