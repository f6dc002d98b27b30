import BssCli.Lib.Table
import BssCli.Subscription.Domain

/-!
# The rows of one subscription

Everything the service stores for one subscription id, and the statements it runs on it.
A column that no statement below reads or writes is left out.
-/

namespace BssCli.Subscription

open Money

/-! ## Rows -/

structure SubscriptionRow where
  id : String
  customerId : String
  offeringId : String
  commercialOrderId : Option String
  msisdn : String
  iccid : String
  state : SubState
  stateReason : Option String
  activatedAt : Option Time
  currentPeriodStart : Option Time
  currentPeriodEnd : Option Time
  nextRenewalAt : Option Time
  terminatedAt : Option Time
  priceAmount : Decimal
  priceCurrency : String
  priceOfferingPriceId : String
  pendingOfferingId : Option String
  pendingOfferingPriceId : Option String
  pendingEffectiveAt : Option Time
  discountType : Option String
  discountValue : Option Decimal
  discountPeriodsRemaining : ℤ
  promoCode : Option String
  promoOfferDefinitionId : Option String
  lastRenewalAttemptedAt : Option Time
  tenantId : String
  deriving DecidableEq

structure BundleBalanceRow where
  allowanceType : String
  total : ℤ
  consumed : ℤ
  unit : String
  periodStart : Option Time
  periodEnd : Option Time
  deriving DecidableEq

structure VasPurchaseRow where
  vasOfferingId : String
  paymentAttemptId : Option String
  appliedAt : Time
  expiresAt : Option Time
  allowanceAdded : ℤ
  allowanceType : String
  deriving DecidableEq

structure StateHistoryRow where
  fromState : SubState
  toState : SubState
  reason : String
  deriving DecidableEq

/-- The part of a balance's id after the subscription id. Allowance types are ASCII. -/
def balId (allowanceType : String) : String := allowanceType.toUpper

abbrev Balances := Table BundleBalanceRow.allowanceType balId

structure SubDb where
  sub : SubscriptionRow
  balances : Balances
  vasPurchases : List VasPurchaseRow
  history : List StateHistoryRow
  events : List Event

/-! ## Balances -/

namespace BundleBalanceRow

def snapshot (b : BundleBalanceRow) : BalanceSnapshot := ⟨b.allowanceType, b.total, b.consumed, b.unit⟩

def setTotal (total : ℤ) (b : BundleBalanceRow) : BundleBalanceRow := { b with total }

def setConsumed (consumed : ℤ) (b : BundleBalanceRow) : BundleBalanceRow := { b with consumed }

def resetPeriod (total : ℤ) (now periodEnd : Time) (b : BundleBalanceRow) : BundleBalanceRow :=
  { b with total, consumed := 0, periodStart := some now, periodEnd := some periodEnd }

/-- The generated column `remaining` is a `bigint` too. -/
def Storable (b : BundleBalanceRow) : Prop := FitsI64 (b.total - b.consumed)

instance (b : BundleBalanceRow) : Decidable b.Storable := inferInstanceAs (Decidable (FitsI64 _))

end BundleBalanceRow

namespace Balances

def snapshots (t : Balances) : List BalanceSnapshot := t.rows.map BundleBalanceRow.snapshot

/-- `UPDATE … WHERE id = …` of one balance. No such row, nothing happens. -/
def write (t : Balances) (ty : String) (f : BundleBalanceRow → BundleBalanceRow)
    (hf : ∀ b, (f b).allowanceType = b.allowanceType) : Except ApiError Balances :=
  match t.find ty with
  | none => .ok t
  | some b =>
    if (f b).Storable then .ok (t.update ty f hf) else .error (dbError "bigint out of range")

def duplicateKey : ApiError :=
  dbError "duplicate key value violates unique constraint \"pk_bundle_balance\""

def insertRow (t : Balances) (b : BundleBalanceRow) : Except ApiError Balances :=
  match t.insert b with
  | none => .error duplicateKey
  | some t' => .ok t'

theorem isExhausted_snapshots (t : Balances) (ty : String) :
    isExhausted t.snapshots ty =
      match t.find ty with
      | none => true
      | some b => if b.total = unlimited then false else decide (b.snapshot.remaining ≤ 0) := by
  have h : t.snapshots.find? (fun b => b.allowanceType = ty) =
      (t.find ty).map BundleBalanceRow.snapshot := by
    rw [snapshots, List.find?_map]; rfl
  rw [isExhausted_eq, h]
  cases t.find ty <;> rfl

theorem write_eq_ok {t t' : Balances} {ty : String} {f : BundleBalanceRow → BundleBalanceRow}
    {hf : ∀ b, (f b).allowanceType = b.allowanceType} (h : t.write ty f hf = .ok t') :
    (∀ b, t.find ty = some b → (f b).Storable) ∧
      ∀ ty', t'.find ty' = if ty' = ty then (t.find ty').map f else t.find ty' := by
  unfold write at h
  split at h
  · rename_i hb
    cases h
    refine ⟨by simp [hb], fun ty' => ?_⟩
    split
    · rename_i he; rw [he, hb]; rfl
    · rfl
  · rename_i b hb
    split at h
    · rename_i hs
      cases h
      refine ⟨fun b' hb' => ?_, fun ty' => Table.find_update ..⟩
      rw [hb, Option.some.injEq] at hb'
      exact hb' ▸ hs
    · simp at h

theorem write_of_storable {t : Balances} {ty : String} {f : BundleBalanceRow → BundleBalanceRow}
    {hf : ∀ b, (f b).allowanceType = b.allowanceType} {b : BundleBalanceRow} (hb : t.find ty = some b)
    (hs : (f b).Storable) : t.write ty f hf = .ok (t.update ty f hf) := by
  unfold write
  simp only [hb, if_pos hs]

theorem insertRow_eq_ok {t t' : Balances} {b : BundleBalanceRow} (h : t.insertRow b = .ok t') :
    t.find b.allowanceType = none ∧
      ∀ ty, t'.find ty = if b.allowanceType = ty then some b else t.find ty := by
  unfold insertRow at h
  split at h
  · simp at h
  · rename_i t₁ hi
    cases h
    exact ⟨(Table.rows_insert hi).2, Table.find_insert hi⟩

end Balances

/-! ## The subscription row -/

namespace SubscriptionRow

/-- `SET state=$1, state_reason=$2`. -/
def setState (dest : SubState) (reason : String) (r : SubscriptionRow) : SubscriptionRow :=
  { r with state := dest, stateReason := some reason }

/-- `SET state_reason=$1`. -/
def setReason (reason : String) (r : SubscriptionRow) : SubscriptionRow :=
  { r with stateReason := some reason }

def setRenewed (dest : SubState) (remaining : ℤ) (now periodEnd : Time) (r : SubscriptionRow) :
    SubscriptionRow :=
  { r with
    state := dest
    stateReason := some "renewal_payment_approved"
    discountPeriodsRemaining := remaining
    currentPeriodStart := some now
    currentPeriodEnd := some periodEnd
    nextRenewalAt := some periodEnd }

/-- The `UPDATE` of an approved renewal that applies the pending offering. -/
def setPivoted (dest : SubState) (offeringId : String) (amount : Decimal) (currency priceId : String)
    (now periodEnd : Time) (r : SubscriptionRow) : SubscriptionRow :=
  { r with
    state := dest
    stateReason := some "renewal_payment_approved"
    offeringId
    priceAmount := amount
    priceCurrency := currency
    priceOfferingPriceId := priceId
    pendingOfferingId := none
    pendingOfferingPriceId := none
    pendingEffectiveAt := none
    discountType := none
    discountValue := none
    discountPeriodsRemaining := 0
    promoCode := none
    promoOfferDefinitionId := none
    currentPeriodStart := some now
    currentPeriodEnd := some periodEnd
    nextRenewalAt := some periodEnd }

def setTerminated (dest : SubState) (reason : String) (now : Time) (r : SubscriptionRow) :
    SubscriptionRow :=
  { r with state := dest, stateReason := some reason, terminatedAt := some now }

def setPending (offeringId priceId : Option String) (effectiveAt : Option Time) (r : SubscriptionRow) :
    SubscriptionRow :=
  { r with
    pendingOfferingId := offeringId
    pendingOfferingPriceId := priceId
    pendingEffectiveAt := effectiveAt }

def markRenewalAttempted (now : Time) (r : SubscriptionRow) : SubscriptionRow :=
  { r with lastRenewalAttemptedAt := some now }

/-- `last_renewal_attempted_at IS NULL OR last_renewal_attempted_at < next_renewal_at`. -/
def Unattempted (r : SubscriptionRow) : Prop :=
  ∀ last ∈ r.lastRenewalAttemptedAt, ∃ next ∈ r.nextRenewalAt, last < next

instance (r : SubscriptionRow) : Decidable r.Unattempted :=
  inferInstanceAs (Decidable (∀ last ∈ _, _))

/-- `next_renewal_at IS NOT NULL AND next_renewal_at <= now`. -/
def Overdue (now : Time) (r : SubscriptionRow) : Prop := ∃ next ∈ r.nextRenewalAt, next ≤ now

instance (now : Time) (r : SubscriptionRow) : Decidable (r.Overdue now) :=
  inferInstanceAs (Decidable (∃ next ∈ _, _))

/-- The `WHERE` clause of `due_for_renewal` and `overdue_blocked`. -/
def Sweepable (state : SubState) (now : Time) (tenantId : String) (r : SubscriptionRow) : Prop :=
  r.state = state ∧ r.Overdue now ∧ r.Unattempted ∧ r.tenantId = tenantId

instance (state : SubState) (now : Time) (tenantId : String) (r : SubscriptionRow) :
    Decidable (r.Sweepable state now tenantId) := inferInstanceAs (Decidable (_ ∧ _))

def DueForRenewal (now : Time) (tenantId : String) (r : SubscriptionRow) : Prop :=
  r.Sweepable .active now tenantId

instance (now : Time) (tenantId : String) (r : SubscriptionRow) :
    Decidable (r.DueForRenewal now tenantId) := inferInstanceAs (Decidable (r.Sweepable _ _ _))

def OverdueBlocked (now : Time) (tenantId : String) (r : SubscriptionRow) : Prop :=
  r.Sweepable .blocked now tenantId

instance (now : Time) (tenantId : String) (r : SubscriptionRow) :
    Decidable (r.OverdueBlocked now tenantId) := inferInstanceAs (Decidable (r.Sweepable _ _ _))

end SubscriptionRow

namespace SubDb

def updateSub (f : SubscriptionRow → SubscriptionRow) (db : SubDb) : SubDb := { db with sub := f db.sub }

def addStateHistory (fromState toState : SubState) (reason : String) (db : SubDb) : SubDb :=
  { db with history := db.history ++ [⟨fromState, toState, reason⟩] }

def stage (eventType : String) (payload : Object) (db : SubDb) : SubDb :=
  { db with events := db.events ++ [⟨eventType, "subscription", db.sub.id, payload⟩] }

def exhausted (db : SubDb) : Bool := isExhausted db.balances.snapshots primaryAllowanceType

variable (db : SubDb) (f : SubscriptionRow → SubscriptionRow) (s s' : SubState) (e : String) (p : Object)

@[simp] theorem updateSub_sub : (db.updateSub f).sub = f db.sub := rfl
@[simp] theorem updateSub_balances : (db.updateSub f).balances = db.balances := rfl
@[simp] theorem updateSub_events : (db.updateSub f).events = db.events := rfl
@[simp] theorem addStateHistory_sub : (db.addStateHistory s s' e).sub = db.sub := rfl
@[simp] theorem addStateHistory_balances : (db.addStateHistory s s' e).balances = db.balances := rfl
@[simp] theorem addStateHistory_events : (db.addStateHistory s s' e).events = db.events := rfl
@[simp] theorem stage_sub : (db.stage e p).sub = db.sub := rfl
@[simp] theorem stage_balances : (db.stage e p).balances = db.balances := rfl
@[simp] theorem stage_events :
    (db.stage e p).events = db.events ++ [⟨e, "subscription", db.sub.id, p⟩] := rfl

end SubDb

end BssCli.Subscription
