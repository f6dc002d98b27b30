import BssCli.Mediation.Domain
import BssCli.Subscription.Policies

/-!
# Rating: what a usage event takes from which allowance

Bundled prepaid: nothing is charged, the whole quantity is decremented. Roaming data takes
from an allowance of its own, or is rejected.
-/

namespace BssCli.Rating

open Mediation Subscription

structure RatingError where
  message : String
  deriving DecidableEq

/-- The offering as the catalog replies, with its id as it is shown in an error. -/
structure Tariff where
  offering : OfferingDoc
  shownId : String

structure UsageInput where
  usageEventId : String
  subscriptionId : String
  msisdn : String
  eventType : String
  quantity : I64
  unit : String

structure RatingResult where
  usageEventId : String
  subscriptionId : String
  allowanceType : String
  consumedQuantity : I64
  unit : String
  chargeAmount : String
  currency : String

structure RatedPayload where
  usageEventId : String
  subscriptionId : String
  allowanceType : String
  consumedQuantity : I64
  unit : String
  chargeAmount : String
  currency : String
  offeringId : String
  deriving DecidableEq

structure RejectedPayload where
  usageEventId : String
  subscriptionId : String
  msisdn : String
  eventType : String
  reason : String
  offeringId : String
  deriving DecidableEq

inductive UsagePayload
  | rated (p : RatedPayload)
  | rejected (p : RejectedPayload)
  deriving DecidableEq

structure UsageOutcome where
  aggregateType : String
  aggregateId : String
  payload : UsagePayload
  deriving DecidableEq

def UsageOutcome.eventType (o : UsageOutcome) : String :=
  match o.payload with
  | .rated _ => "usage.rated"
  | .rejected _ => "usage.rejected"

def eventTypeToAllowance (eventType : String) : Option String :=
  if eventType = "data" then some "data"
  else if eventType = "voice" ∨ eventType = "voice_minutes" then some "voice"
  else if eventType = "sms" then some "sms"
  else none

def allowanceUnit (allowanceType : String) : Option String :=
  if allowanceType = "data" then some "mb"
  else if allowanceType = "voice" then some "minutes"
  else if allowanceType = "sms" then some "count"
  else none

namespace Tariff

def hasAllowance (t : Tariff) (allowanceType : String) : Bool :=
  (t.offering.bundleAllowance.getD []).any fun a => a.allowanceType = some allowanceType

/-- The first unit that is not empty. -/
def currency (t : Tariff) : String :=
  (((t.offering.productOfferingPrice.getD []).filterMap PriceDoc.unit).find? fun u => u ≠ "").getD "SGD"

end Tariff

def rateUsage (usage : UsageInput) (tariff : Tariff) : Except RatingError RatingResult :=
  match eventTypeToAllowance usage.eventType with
  | none => .error ⟨s!"No allowance mapping for event_type '{usage.eventType}'"⟩
  | some allowanceType =>
    if tariff.hasAllowance allowanceType then
      match allowanceUnit allowanceType with
      | none => .error ⟨s!"No canonical unit for '{allowanceType}'"⟩
      | some expectedUnit =>
        if usage.unit = expectedUnit then
          .ok ⟨usage.usageEventId, usage.subscriptionId, allowanceType, usage.quantity, usage.unit, "0",
            tariff.currency⟩
        else .error ⟨s!"Usage unit '{usage.unit}' does not match allowance unit '{expectedUnit}' for " ++
          s!"{allowanceType}"⟩
    else .error ⟨s!"Tariff '{tariff.shownId}' has no '{allowanceType}' allowance"⟩

def requireOfferingId (body : RecordedPayload) : Except RatingError String :=
  match body.offeringId.filter fun id => id ≠ "" with
  | some id => .ok id
  | none => .error
    ⟨s!"usage.recorded payload missing offeringId (usage_event_id={body.usageEventId})"⟩

/-- `str_field` of `subscriptionId`, the one field that mediation may send as null. -/
def subscriptionIdOf (body : RecordedPayload) : Except RatingError String :=
  match body.subscriptionId with
  | some id => .ok id
  | none => .error ⟨"usage.recorded payload missing 'subscriptionId'"⟩

def usageRated (r : RatingResult) (allowanceType offeringId : String) : UsageOutcome :=
  ⟨"usage", r.usageEventId, .rated ⟨r.usageEventId, r.subscriptionId, allowanceType,
    r.consumedQuantity, r.unit, r.chargeAmount, r.currency, offeringId⟩⟩

def usageRejected (usage : UsageInput) (r : RatingResult) (offeringId : String) : UsageOutcome :=
  ⟨"usage", r.usageEventId, .rejected ⟨r.usageEventId, r.subscriptionId, usage.msisdn,
    usage.eventType, "rating.no_roaming_allowance", offeringId⟩⟩

def decideUsageOutcome (body : RecordedPayload) (tariff : Tariff) (offeringId : String) :
    Except RatingError UsageOutcome := do
  let subscriptionId ← subscriptionIdOf body
  let usage : UsageInput :=
    ⟨body.usageEventId, subscriptionId, body.msisdn, body.eventType, body.quantity, body.unit⟩
  let result ← rateUsage usage tariff
  if body.roamingIndicator ∧ result.allowanceType = "data" then
    if tariff.hasAllowance "data_roaming" then return usageRated result "data_roaming" offeringId
    else return usageRejected usage result offeringId
  else return usageRated result result.allowanceType offeringId

inductive HandleError
  | rating (e : RatingError)
  | catalog (e : ClientError)

/-- `handle_usage_recorded`, up to what it stages and publishes. -/
def handleUsageRecorded (body : RecordedPayload) (getOffering : String → Except ClientError Tariff) :
    Except HandleError UsageOutcome :=
  match requireOfferingId body with
  | .error e => .error (.rating e)
  | .ok offeringId =>
    match getOffering offeringId with
    | .error e => .error (.catalog e)
    | .ok tariff =>
      match decideUsageOutcome body tariff offeringId with
      | .error e => .error (.rating e)
      | .ok outcome => .ok outcome

/-! ## What an outcome is about -/

theorem rateUsage_eq_ok {usage : UsageInput} {tariff : Tariff} {r : RatingResult}
    (h : rateUsage usage tariff = .ok r) :
    r.usageEventId = usage.usageEventId ∧ r.subscriptionId = usage.subscriptionId ∧
      r.consumedQuantity = usage.quantity ∧ r.chargeAmount = "0" ∧
      eventTypeToAllowance usage.eventType = some r.allowanceType := by
  unfold rateUsage at h
  split at h
  · simp at h
  · rename_i ty hty
    split at h
    · split at h
      · simp at h
      · split at h
        · cases h
          exact ⟨rfl, rfl, rfl, rfl, hty⟩
        · simp at h
    · simp at h

/-- The usage event an outcome takes from an allowance. -/
def UsageOutcome.decrements (o : UsageOutcome) : Option RatedPayload :=
  match o.payload with
  | .rated p => some p
  | .rejected _ => none

theorem handleUsageRecorded_eq_ok {body : RecordedPayload} {getOffering : String → Except ClientError Tariff}
    {o : UsageOutcome} : handleUsageRecorded body getOffering = .ok o ↔ ∃ offeringId tariff,
      requireOfferingId body = .ok offeringId ∧ getOffering offeringId = .ok tariff ∧
        decideUsageOutcome body tariff offeringId = .ok o := by
  unfold handleUsageRecorded
  constructor
  · intro h
    split at h
    · simp at h
    · rename_i offeringId hid
      split at h
      · simp at h
      · rename_i tariff htariff
        split at h
        · simp at h
        · rename_i outcome hdecide
          cases h
          exact ⟨offeringId, tariff, hid, htariff, hdecide⟩
  · rintro ⟨offeringId, tariff, hid, htariff, hdecide⟩
    simp only [hid, htariff, hdecide]

theorem decideUsageOutcome_about {body : RecordedPayload} {tariff : Tariff} {offeringId : String} {o : UsageOutcome}
    (h : decideUsageOutcome body tariff offeringId = .ok o) : o.aggregateId = body.usageEventId ∧
      ∀ p ∈ o.decrements, p.usageEventId = body.usageEventId ∧ p.consumedQuantity = body.quantity := by
  simp only [decideUsageOutcome, bind_eq_ok] at h
  obtain ⟨subscriptionId, -, r, hrate, h⟩ := h
  obtain ⟨hid, -, hq, -⟩ := rateUsage_eq_ok hrate
  have hrated : ∀ allowanceType, ∀ p ∈ (usageRated r allowanceType offeringId).decrements,
      p.usageEventId = body.usageEventId ∧ p.consumedQuantity = body.quantity := by
    rintro allowanceType p ⟨⟩
    exact ⟨hid, hq⟩
  split at h
  · split at h
    · cases h
      exact ⟨hid, hrated _⟩
    · cases h
      refine ⟨hid, fun p hp => ?_⟩
      simp [usageRejected, UsageOutcome.decrements] at hp
  · cases h
    exact ⟨hid, hrated _⟩

theorem handleUsageRecorded_about {body : RecordedPayload} {getOffering : String → Except ClientError Tariff}
    {o : UsageOutcome} (h : handleUsageRecorded body getOffering = .ok o) : o.aggregateId = body.usageEventId ∧
      ∀ p ∈ o.decrements, p.usageEventId = body.usageEventId ∧ p.consumedQuantity = body.quantity := by
  obtain ⟨offeringId, tariff, -, -, hdecide⟩ := handleUsageRecorded_eq_ok.mp h
  exact decideUsageOutcome_about hdecide

/-! ## Which usage is rated -/

/-- The plan has the allowance of the event type, and the unit is the one it is kept in. -/
structure Ratable (body : RecordedPayload) (getOffering : String → Except ClientError Tariff) : Prop where
  subscription : body.subscriptionId.isSome
  plan : ∃ offeringId ∈ body.offeringId, offeringId ≠ "" ∧ ∃ tariff, getOffering offeringId = .ok tariff ∧
    ∃ allowanceType ∈ eventTypeToAllowance body.eventType,
      tariff.hasAllowance allowanceType ∧ allowanceUnit allowanceType = some body.unit

theorem requireOfferingId_eq_ok {body : RecordedPayload} {offeringId : String} :
    requireOfferingId body = .ok offeringId ↔ body.offeringId = some offeringId ∧ offeringId ≠ "" := by
  unfold requireOfferingId
  split
  · rename_i id hid
    obtain ⟨hid, hne⟩ := Option.filter_eq_some_iff.mp hid
    have hne : id ≠ "" := by simpa using hne
    rw [hid, Except.ok.injEq, Option.some.injEq]
    exact ⟨fun h => ⟨h, h ▸ hne⟩, fun h => h.1⟩
  · rename_i hnone
    simp only [reduceCtorEq, false_iff, not_and, not_not]
    intro hid
    simpa [hid, Option.filter_eq_none_iff] using hnone

theorem rateUsage_isOk {usage : UsageInput} {tariff : Tariff} :
    (∃ r, rateUsage usage tariff = .ok r) ↔ ∃ allowanceType ∈ eventTypeToAllowance usage.eventType,
      tariff.hasAllowance allowanceType ∧ allowanceUnit allowanceType = some usage.unit := by
  unfold rateUsage
  split
  · rename_i hnone
    simp [hnone]
  · rename_i allowanceType hty
    simp only [hty, Option.mem_def, Option.some.injEq, exists_eq_left']
    split
    · rename_i hallowance
      split
      · rename_i hunit
        simp [hunit]
      · rename_i expectedUnit hunit
        rw [hunit]
        split
        · rename_i heq
          simp [hallowance, heq]
        · rename_i hne
          simp [Ne.symm hne]
    · rename_i hallowance
      simp [hallowance]

theorem subscriptionIdOf_eq_ok {body : RecordedPayload} {id : String} :
    subscriptionIdOf body = .ok id ↔ body.subscriptionId = some id := by
  unfold subscriptionIdOf
  split <;> simp_all

theorem decideUsageOutcome_isOk {body : RecordedPayload} {tariff : Tariff} {offeringId : String} :
    (∃ o, decideUsageOutcome body tariff offeringId = .ok o) ↔ body.subscriptionId.isSome ∧
      ∃ allowanceType ∈ eventTypeToAllowance body.eventType,
        tariff.hasAllowance allowanceType ∧ allowanceUnit allowanceType = some body.unit := by
  simp only [decideUsageOutcome, bind_eq_ok, subscriptionIdOf_eq_ok]
  constructor
  · rintro ⟨o, id, hid, r, hr, -⟩
    exact ⟨Option.isSome_of_eq_some hid, rateUsage_isOk.mp ⟨r, hr⟩⟩
  · rintro ⟨hid, hrate⟩
    obtain ⟨id, hid⟩ := Option.isSome_iff_exists.mp hid
    let usage : UsageInput := ⟨body.usageEventId, id, body.msisdn, body.eventType, body.quantity, body.unit⟩
    obtain ⟨r, hr⟩ := rateUsage_isOk.mpr (show ∃ allowanceType ∈ eventTypeToAllowance usage.eventType, _ from hrate)
    -- A result always comes to an event, rated or rejected.
    by_cases hroaming : body.roamingIndicator ∧ r.allowanceType = "data"
    · by_cases hallowance : tariff.hasAllowance "data_roaming"
      · exact ⟨usageRated r "data_roaming" offeringId, id, hid, r, hr, by rw [if_pos hroaming, if_pos hallowance]; rfl⟩
      · exact ⟨usageRejected usage r offeringId, id, hid, r, hr, by rw [if_pos hroaming, if_neg hallowance]; rfl⟩
    · exact ⟨usageRated r r.allowanceType offeringId, id, hid, r, hr, by rw [if_neg hroaming]; rfl⟩

theorem handleUsageRecorded_isOk {body : RecordedPayload} {getOffering : String → Except ClientError Tariff} :
    (∃ o, handleUsageRecorded body getOffering = .ok o) ↔ Ratable body getOffering := by
  simp only [handleUsageRecorded_eq_ok]
  constructor
  · rintro ⟨o, offeringId, tariff, hid, htariff, hdecide⟩
    obtain ⟨hid, hne⟩ := requireOfferingId_eq_ok.mp hid
    obtain ⟨hsub, hrate⟩ := decideUsageOutcome_isOk.mp ⟨o, hdecide⟩
    exact ⟨hsub, offeringId, hid, hne, tariff, htariff, hrate⟩
  · rintro ⟨hsub, offeringId, hid, hne, tariff, htariff, hrate⟩
    obtain ⟨o, hdecide⟩ := (@decideUsageOutcome_isOk body tariff offeringId).mpr ⟨hsub, hrate⟩
    exact ⟨o, offeringId, tariff, requireOfferingId_eq_ok.mpr ⟨hid, hne⟩, htariff, hdecide⟩

end BssCli.Rating
