import BssCli.Subscription.Repo

/-!
# What catalog, CRM, inventory and payment reply

A reply keeps the fields the service reads, with the type the service reads them at. A
field that is missing or of another type is `none`. A money field is its text
and what `Decimal::from_str` makes of it.
-/

namespace BssCli.Subscription

open Money

structure AllowanceDoc where
  allowanceType : Option String
  quantity : Option I64
  unit : Option String

structure PriceDoc where
  id : Option String
  priceType : Option String
  valueText : String
  value : Except String Decimal
  unit : Option String

structure OfferingDoc where
  bundleAllowance : Option (List AllowanceDoc)
  productOfferingPrice : Option (List PriceDoc)

structure VasDoc where
  priceAmount : Option (Except String Decimal)
  currency : Option String
  expiryHours : Option ℤ
  allowanceQuantity : Option I64
  allowanceType : Option String
  allowanceUnit : Option String

structure MethodDoc where
  id : Option String
  isDefault : Option Bool

structure PaymentResult where
  id : Option String
  status : Option String
  declineReason : Option String
  deriving DecidableEq

namespace PaymentResult

def Approved (p : PaymentResult) : Prop := p.status = some "approved"

instance (p : PaymentResult) : Decidable p.Approved := inferInstanceAs (Decidable (_ = _))

/-- `payment_result.get("id")…unwrap_or("")`. -/
def attemptId (p : PaymentResult) : String := p.id.getD ""

end PaymentResult

def approvedReply : Except ClientError PaymentResult → Bool
  | .ok pay => pay.Approved
  | .error _ => false

structure ChargeRequest where
  customerId : String
  methodId : String
  amount : Decimal
  currency : String
  purpose : String
  deriving DecidableEq

structure AllowanceSpec where
  allowanceType : String
  quantity : I64
  unit : String
  deriving DecidableEq

def zeroI64 : I64 := ⟨0, by decide⟩

def AllowanceDoc.spec (a : AllowanceDoc) : AllowanceSpec :=
  ⟨a.allowanceType.getD "", a.quantity.getD zeroI64, a.unit.getD ""⟩

def allowanceSpecs (offering : OfferingDoc) : List AllowanceSpec :=
  (offering.bundleAllowance.getD []).map AllowanceDoc.spec

/-- The row that `INSERT INTO bundle_balance` adds for an allowance. -/
def AllowanceSpec.balance (s : AllowanceSpec) (now periodEnd : Time) : BundleBalanceRow :=
  ⟨s.allowanceType, s.quantity, 0, s.unit, some now, some periodEnd⟩

def insertBalances (specs : List AllowanceSpec) (now periodEnd : Time) (t : Balances) :
    Except ApiError Balances :=
  specs.foldlM (fun t s => t.insertRow (s.balance now periodEnd)) t

def balIds (t : Balances) (specs : List AllowanceSpec) : List String :=
  (t.rows.map fun b => balId b.allowanceType) ++ specs.map fun s => balId s.allowanceType

theorem insertBalances_isOk (specs : List AllowanceSpec) (now periodEnd : Time) (t : Balances) :
    (∃ t', insertBalances specs now periodEnd t = .ok t') ↔ (balIds t specs).Nodup := by
  induction specs generalizing t with
  | nil => simpa [insertBalances, balIds, pure, Except.pure] using t.nodup
  | cons s specs ih =>
    rw [insertBalances, List.foldlM_cons]
    cases hi : t.insert (s.balance now periodEnd) with
    | none =>
      have hrow : t.insertRow (s.balance now periodEnd) = .error Balances.duplicateKey := by
        unfold Balances.insertRow; rw [hi]
      have htaken := mt (Table.insert_isSome t).mpr (by rw [hi]; simp)
      simp only [not_forall, not_not] at htaken
      obtain ⟨b, hb, hid⟩ := htaken
      simp only [hrow, bind, Except.bind, reduceCtorEq, exists_false, false_iff, balIds,
        List.map_cons, List.nodup_append, not_and, not_forall, not_not]
      intro _ _
      exact ⟨_, List.mem_map_of_mem hb, _, List.mem_cons_self .., hid⟩
    | some t₁ =>
      have hrow : t.insertRow (s.balance now periodEnd) = .ok t₁ := by
        unfold Balances.insertRow; rw [hi]
      have hids : balIds t₁ specs = balIds t (s :: specs) := by
        simp [balIds, (Table.rows_insert hi).1, AllowanceSpec.balance]
      rw [hrow, ← hids]
      exact ih t₁

/-- A type that has a row keeps it, another gets the row of its first allowance. -/
theorem find_insertBalances {specs : List AllowanceSpec} {now periodEnd : Time} {t t' : Balances}
    (h : insertBalances specs now periodEnd t = .ok t') (ty : String) :
    t'.find ty = (t.find ty).or
      ((specs.find? fun s => s.allowanceType = ty).map fun s => s.balance now periodEnd) := by
  induction specs generalizing t with
  | nil => cases h; simp
  | cons s specs ih =>
    rw [insertBalances, List.foldlM_cons, bind_eq_ok] at h
    obtain ⟨t₁, hrow, h⟩ := h
    obtain ⟨hnone, hfind⟩ := Balances.insertRow_eq_ok hrow
    rw [ih h, hfind]
    by_cases hty : s.allowanceType = ty
    · have hnone' : t.find ty = none := hty ▸ hnone
      rw [List.find?_cons_of_pos (by simpa using hty), hnone']
      simp [AllowanceSpec.balance, hty]
    · rw [List.find?_cons_of_neg (by simpa using hty)]
      simp [AllowanceSpec.balance, hty]

/-- The default payment method, else the first. -/
def pickDefaultMethod (methods : List MethodDoc) : Option String :=
  match methods.find? fun m => m.isDefault = some true with
  | some m => m.id
  | none => methods.head?.bind MethodDoc.id

/-- Rounds for a `numeric(10,2)` column, or refuses. -/
def numeric10 (x : Decimal) : Except ApiError Decimal :=
  if |roundDp2 x| < 10 ^ 8 then .ok (roundDp2 x) else .error (dbError "numeric field overflow")

def numeric12 (x : Decimal) : Except ApiError Decimal :=
  if |roundDp2 x| < 10 ^ 10 then .ok (roundDp2 x) else .error (dbError "numeric field overflow")

end BssCli.Subscription

/-!
# The policies

Each check refuses with its rule, its message and the data it looked at. A rule is one
`require`, so what a check does is its condition and its violation.
-/

namespace BssCli.Subscription

def require (ok : Prop) [Decidable ok] (pv : PolicyViolation) : Except ApiError Unit :=
  if ok then .ok () else .error (.policy pv)

theorem require_eq_ok {ok : Prop} [Decidable ok] {pv : PolicyViolation} :
    require ok pv = .ok () ↔ ok := by
  unfold require; split <;> simp_all

/-! ## Create -/

structure CustomerDoc where
  status : Option String

structure MsisdnDoc where
  status : Option String

structure EsimDoc where
  profileState : Option String

/-- A 404 is a violation of its own, any other failure goes up as it is. -/
def orNotFound {α : Type} (pv : PolicyViolation) : Except ClientError α → Except ApiError α
  | .ok a => .ok a
  | .error (.notFound _) => .error (.policy pv)
  | .error e => .error (upstream e)

def checkCustomerExists (customerId : String) (reply : Except ClientError CustomerDoc) :
    Except ApiError Unit := do
  let customer ← orNotFound
    { rule := "subscription.create.requires_customer"
      message := s!"Customer {customerId} not found"
      context := [("customer_id", .str customerId)] } reply
  let status := customer.status.getD ""
  require (status = "active" ∨ status = "pending")
    { rule := "subscription.create.requires_customer"
      message := s!"Customer {customerId} is {status}, must be active or pending"
      context := [("customer_id", .str customerId), ("status", .str status)] }

def checkMsisdnAndEsimReserved (msisdn iccid : String) (msisdnInfo : Except ClientError MsisdnDoc)
    (esimInfo : Except ClientError EsimDoc) : Except ApiError Unit := do
  let rule := "subscription.create.msisdn_and_esim_reserved"
  let m ← orNotFound ⟨rule, s!"MSISDN {msisdn} not found", [("msisdn", .str msisdn)]⟩ msisdnInfo
  let shown := m.status.getD "null"
  require (m.status = some "reserved" ∨ m.status = some "assigned")
    { rule
      message := s!"MSISDN {msisdn} is {shown}, must be reserved"
      context := [("msisdn", .str msisdn), ("status", optValue .str m.status)] }
  let e ← orNotFound ⟨rule, s!"eSIM {iccid} not found", [("iccid", .str iccid)]⟩ esimInfo
  require (e.profileState = some "reserved" ∨ e.profileState = some "assigned")
    ⟨rule, s!"eSIM {iccid} is not reserved", [("iccid", .str iccid)]⟩

/-! ## Renew, top-up, terminate -/

def checkRenewAllowed (state : SubState) : Except ApiError Unit :=
  require (state = .active ∨ state = .blocked)
    { rule := "subscription.renew.only_if_active_or_blocked"
      message := s!"Cannot renew subscription in state '{state.name}'"
      context := [("state", .str state.name)] }

def checkNotTerminated (state : SubState) : Except ApiError Unit :=
  require (state ≠ .terminated)
    { rule := "subscription.vas_purchase.not_if_terminated"
      message := "Cannot purchase VAS on terminated subscription"
      context := [("state", .str state.name)] }

def checkVasOfferingSellable (vasOfferingId : String) (reply : Except ClientError VasDoc) :
    Except ApiError VasDoc :=
  orNotFound
    { rule := "subscription.vas_purchase.vas_offering_sellable"
      message := s!"VAS offering {vasOfferingId} not found"
      context := [("vas_offering_id", .str vasOfferingId)] } reply

/-- The `is_valid_transition` guard that `terminate` has of its own. -/
def checkTerminable (state : SubState) : Except ApiError Unit :=
  require (isValidTransition state .terminate = true)
    { rule := "subscription.terminate.invalid_state"
      message := s!"Cannot terminate subscription in state '{state.name}'"
      context := [("state", .str state.name)] }

/-! ## Plan change -/

def checkSubscriptionActiveOrPendingRenewal (state : SubState) : Except ApiError Unit :=
  require (state = .active)
    { rule := "subscription.plan_change.not_eligible_state"
      message := s!"Cannot schedule plan change in state '{state.name}'"
      context := [("state", .str state.name)] }

def checkNotSameOffering (current new : String) : Except ApiError Unit :=
  require (current ≠ new)
    { rule := "subscription.plan_change.same_offering"
      message := "Cannot schedule a plan change to the current plan"
      context := [("current_offering_id", .str current), ("new_offering_id", .str new)] }

def checkNoPendingChange (pendingOfferingId : Option String) : Except ApiError Unit :=
  match pendingOfferingId with
  | none => .ok ()
  | some pid => .error (.policy
    { rule := "subscription.plan_change.already_pending"
      message := "A plan change is already pending. Cancel it first if you want to schedule " ++
        "a different one."
      context := [("pending_offering_id", .str pid)] })

def checkOfferingSellableNow (active : Except ClientError (List String)) (newOfferingId : String) :
    Except ApiError Unit := do
  let ids ← orUpstream active
  require (newOfferingId ∈ ids)
    { rule := "subscription.plan_change.target_not_sellable_now"
      message := s!"Offering {newOfferingId} is not currently sellable and cannot be a " ++
        "plan-change target"
      context := [("new_offering_id", .str newOfferingId)] }

def fetchActivePriceForTarget (reply : Except ClientError PriceDoc) (newOfferingId : String) :
    Except ApiError PriceDoc :=
  match reply with
  | .ok price => .ok price
  | .error (.policy pv) => .error (.policy
    { rule := "subscription.plan_change.target_no_active_price"
      message := s!"No active price for {newOfferingId} at this moment"
      context := [("new_offering_id", .str newOfferingId), ("underlying", .str pv.rule)] })
  | .error e => .error (upstream e)

/-! ## Roaming usage -/

def checkRoamingBalanceRequired (subscriptionId : String) (balance : Option BundleBalanceRow)
    (consumedQuantity : ℤ) : Except PolicyViolation Unit :=
  let rule := "subscription.usage_rated.roaming_balance_required"
  match balance with
  | none => .error
    { rule
      message := s!"Subscription {subscriptionId} has no data_roaming allowance — roaming usage " ++
        "rejected"
      context := [("subscription_id", .str subscriptionId),
        ("consumed_quantity", .int consumedQuantity)] }
  | some b =>
    if b.total ≠ -1 ∧ i64 (b.total - b.consumed) ≤ 0 then .error
      { rule
        message := s!"Subscription {subscriptionId} data_roaming balance exhausted — roaming usage " ++
          "rejected"
        context := [("subscription_id", .str subscriptionId),
          ("remaining", .int (i64 (b.total - b.consumed))),
          ("consumed_quantity", .int consumedQuantity)] }
    else .ok ()

/-! ## What a check that went through has seen -/

theorem checkRenewAllowed_eq_ok {s : SubState} :
    checkRenewAllowed s = .ok () ↔ s = .active ∨ s = .blocked := require_eq_ok

end BssCli.Subscription
