import BssCli.Common

/-!
# Mediation: what is let in at the edge

The policies in front of a usage event, and the `usage.recorded` payload. Fields of the
event that nothing downstream reads are left out.
-/

namespace BssCli.Mediation

inductive ApiError
  | policy (pv : PolicyViolation)
  | upstream
  deriving DecidableEq

structure IngestRequest where
  msisdn : String
  eventType : String
  quantity : I64
  unit : String
  roamingIndicator : Bool

/-- The reply of `get_by_msisdn`. -/
structure LineDoc where
  id : Option String
  msisdn : Option String
  state : Option String
  offeringId : Option String

structure RecordedPayload where
  usageEventId : String
  subscriptionId : Option String
  msisdn : String
  eventType : String
  quantity : I64
  unit : String
  roamingIndicator : Bool
  offeringId : Option String
  deriving DecidableEq

def validEventTypes : List String := ["data", "voice", "voice_minutes", "sms"]

def check (condition : Prop) [Decidable condition] (pv : PolicyViolation) : Except ApiError Unit :=
  if condition then .ok () else .error (.policy pv)

theorem check_eq_ok {condition : Prop} [Decidable condition] {pv : PolicyViolation} :
    check condition pv = .ok () ↔ condition := by
  unfold check
  split <;> simp_all

def checkPositiveQuantity (quantity : ℤ) : Except ApiError Unit :=
  check (0 < quantity)
    { rule := "usage.record.positive_quantity"
      message := s!"Quantity must be positive, got {quantity}"
      context := [("quantity", .int quantity)] }

/-- The types are shown sorted. -/
def checkValidEventType (eventType : String) : Except ApiError Unit :=
  check (eventType ∈ validEventTypes)
    { rule := "usage.record.valid_event_type"
      message := s!"Invalid event type '{eventType}'"
      context := [("event_type", .str eventType),
        ("valid_types", .array [.str "data", .str "sms", .str "voice", .str "voice_minutes"])] }

def subscriptionNotFound (msisdn : String) : PolicyViolation where
  rule := "usage.record.subscription_must_exist"
  message := s!"No subscription for MSISDN {msisdn}"
  context := [("msisdn", .str msisdn)]

def checkMsisdnMatches (sub : LineDoc) (msisdn : String) : Except ApiError Unit :=
  let shown := sub.msisdn.getD "None"
  check (sub.msisdn = some msisdn)
    { rule := "usage.record.msisdn_belongs_to_subscription"
      message := s!"Enriched subscription MSISDN '{shown}' does not match request MSISDN '{msisdn}'"
      context := [("request_msisdn", .str msisdn),
        ("subscription_msisdn", optValue .str sub.msisdn), ("subscription_id", optValue .str sub.id)] }

def checkSubscriptionActive (sub : LineDoc) : Except ApiError Unit :=
  let id := sub.id.getD "None"
  let shown := sub.state.getD "None"
  check (sub.state = some "active")
    { rule := "usage.record.subscription_must_be_active"
      message := s!"Subscription {id} is {shown}, not active"
      context := [("subscription_id", optValue .str sub.id), ("state", optValue .str sub.state)] }

def usageRecordedPayload (req : IngestRequest) (sub : LineDoc) (id : String) : RecordedPayload :=
  ⟨id, sub.id, req.msisdn, req.eventType, req.quantity, req.unit, req.roamingIndicator, sub.offeringId⟩

/-- `ingest`, up to what it publishes under the `id` it has drawn. -/
def ingest (req : IngestRequest) (reply : Except ClientError LineDoc) (id : String) :
    Except ApiError RecordedPayload := do
  checkPositiveQuantity req.quantity
  checkValidEventType req.eventType
  match reply with
  | .error (.notFound _) => .error (.policy (subscriptionNotFound req.msisdn))
  | .error _ => .error .upstream
  | .ok sub =>
    checkMsisdnMatches sub req.msisdn
    checkSubscriptionActive sub
    return usageRecordedPayload req sub id

theorem ingest_eq_ok {req : IngestRequest} {reply : Except ClientError LineDoc} {id : String}
    {p : RecordedPayload} (h : ingest req reply id = .ok p) :
    0 < req.quantity.val ∧ req.eventType ∈ validEventTypes ∧
      ∃ sub, reply = .ok sub ∧ sub.state = some "active" ∧ p = usageRecordedPayload req sub id := by
  simp only [ingest, bind_eq_ok] at h
  obtain ⟨⟨⟩, hq, ⟨⟩, hty, h⟩ := h
  refine ⟨check_eq_ok.mp hq, check_eq_ok.mp hty, ?_⟩
  split at h
  · simp at h
  · simp at h
  · rename_i sub
    simp only [bind_eq_ok] at h
    obtain ⟨⟨⟩, -, ⟨⟩, hs, h⟩ := h
    cases h
    exact ⟨sub, rfl, check_eq_ok.mp hs, rfl⟩

end BssCli.Mediation
