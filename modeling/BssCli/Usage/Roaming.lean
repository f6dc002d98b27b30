import BssCli.Usage.Pipeline

/-!
# Roaming data

Rating looks at the plan, the subscription service at the balance. A top-up may make a
balance that the plan does not list, and only a plan that lists it sends usage there.
-/

namespace BssCli.Usage.Roaming

open Mediation Rating Subscription

def roamingType : String := "data_roaming"

/-- The plan under which the usage was recorded, as far as rating looks at it for data. -/
structure RatedUnder (p : RecordedPayload) (getOffering : String → Except ClientError Tariff)
    (tariff : Tariff) : Prop where
  subscription : p.subscriptionId.isSome
  plan : ∃ offeringId ∈ p.offeringId, offeringId ≠ "" ∧ getOffering offeringId = .ok tariff
  data : tariff.hasAllowance "data" = true
  unit : p.unit = "mb"

/-- `remaining > 0`, or no limit. -/
def Left (b : BundleBalanceRow) : Prop := b.total = unlimited ∨ 0 < b.total - b.consumed

/-- What was published for the recorded usage takes it from the roaming data of its line. -/
structure SentToRoaming (p : RecordedPayload) (o : UsageOutcome) (q : RatedPayload) : Prop where
  payload : o.payload = .rated q
  allowance : q.allowanceType = roamingType
  event : q.usageEventId = p.usageEventId
  line : p.subscriptionId = some q.subscriptionId
  quantity : q.consumedQuantity = p.quantity

structure Decremented (quantity : I64) (b : BundleBalanceRow) (db db' : SubDb) : Prop where
  roaming : db'.balances.find roamingType = some (b.setConsumed
    (if b.total = unlimited then b.consumed else min (b.consumed + quantity) b.total))
  others : ∀ ty, ty ≠ roamingType → db'.balances.find ty = db.balances.find ty

/-- Nothing but the event. -/
structure Rejected (db db' : SubDb) : Prop where
  row : db'.sub = db.sub
  balances : db'.balances = db.balances
  events : db'.events.map Event.eventType = db.events.map Event.eventType ++ ["usage.rejected"]

/-! ## In rating -/

section Rating

variable {p : RecordedPayload} {getOffering : String → Except ClientError Tariff} {tariff : Tariff}

theorem rateUsage_data {usage : UsageInput} (hdata : usage.eventType = "data")
    (htariff : tariff.hasAllowance "data" = true) (hunit : usage.unit = "mb") :
    rateUsage usage tariff = .ok ⟨usage.usageEventId, usage.subscriptionId, "data", usage.quantity,
      usage.unit, "0", tariff.currency⟩ := by
  have hty : eventTypeToAllowance usage.eventType = some "data" := by rw [hdata]; rfl
  have hmb : allowanceUnit "data" = some "mb" := rfl
  unfold rateUsage
  simp only [hty, htariff, if_true, hmb, hunit]

/-- The usage of `decide_usage_outcome`, and what `rate_usage` makes of it. -/
def usageOf (p : RecordedPayload) (id : String) : UsageInput :=
  ⟨p.usageEventId, id, p.msisdn, p.eventType, p.quantity, p.unit⟩

def ratedAsData (p : RecordedPayload) (id : String) (tariff : Tariff) : RatingResult :=
  ⟨p.usageEventId, id, "data", p.quantity, p.unit, "0", tariff.currency⟩

theorem decideUsageOutcome_roaming {id offeringId : String} (hroaming : p.roamingIndicator = true)
    (hdata : p.eventType = "data") (hid : p.subscriptionId = some id)
    (htariff : tariff.hasAllowance "data" = true) (hunit : p.unit = "mb") :
    decideUsageOutcome p tariff offeringId = .ok (if tariff.hasAllowance roamingType
      then usageRated (ratedAsData p id tariff) roamingType offeringId
      else Rating.usageRejected (usageOf p id) (ratedAsData p id tariff) offeringId) := by
  have hrate : rateUsage (usageOf p id) tariff = .ok (ratedAsData p id tariff) :=
    rateUsage_data hdata htariff hunit
  have hsub : subscriptionIdOf p = .ok id := subscriptionIdOf_eq_ok.mpr hid
  have hdecide : decideUsageOutcome p tariff offeringId =
      if p.roamingIndicator ∧ (ratedAsData p id tariff).allowanceType = "data" then
        if tariff.hasAllowance "data_roaming" then
          .ok (usageRated (ratedAsData p id tariff) "data_roaming" offeringId)
        else .ok (Rating.usageRejected (usageOf p id) (ratedAsData p id tariff) offeringId)
      else .ok (usageRated (ratedAsData p id tariff) (ratedAsData p id tariff).allowanceType offeringId) := by
    unfold decideUsageOutcome
    unfold usageOf at hrate
    simp only [hsub, bind, Except.bind, hrate]
    rfl
  rw [hdecide, if_pos ⟨hroaming, rfl⟩]
  unfold roamingType
  split <;> rfl

theorem handleUsageRecorded_roaming (hroaming : p.roamingIndicator = true) (hdata : p.eventType = "data")
    (h : RatedUnder p getOffering tariff) : ∃ o, handleUsageRecorded p getOffering = .ok o ∧
      if tariff.hasAllowance roamingType then ∃ q, SentToRoaming p o q
      else ∃ r, o.payload = .rejected r ∧ r.usageEventId = p.usageEventId ∧
        r.reason = "rating.no_roaming_allowance" := by
  obtain ⟨offeringId, hoffering, hne, hget⟩ := h.plan
  obtain ⟨id, hid⟩ := Option.isSome_iff_exists.mp h.subscription
  have hdecide : decideUsageOutcome p tariff offeringId = .ok _ :=
    decideUsageOutcome_roaming hroaming hdata hid h.data h.unit
  have hhandle : ∀ o, decideUsageOutcome p tariff offeringId = .ok o →
      handleUsageRecorded p getOffering = .ok o := fun o ho =>
    handleUsageRecorded_eq_ok.mpr ⟨offeringId, tariff, requireOfferingId_eq_ok.mpr ⟨hoffering, hne⟩, hget, ho⟩
  by_cases hallowance : tariff.hasAllowance roamingType = true
  · rw [if_pos hallowance] at hdecide
    refine ⟨_, hhandle _ hdecide, ?_⟩
    rw [if_pos hallowance]
    exact ⟨_, rfl, rfl, rfl, hid, rfl⟩
  · rw [if_neg hallowance] at hdecide
    refine ⟨_, hhandle _ hdecide, ?_⟩
    rw [if_neg hallowance]
    exact ⟨_, rfl, rfl, rfl⟩

theorem ratedUnder_of_ok {o : UsageOutcome} (hdata : p.eventType = "data")
    (h : handleUsageRecorded p getOffering = .ok o) : ∃ tariff, RatedUnder p getOffering tariff := by
  obtain ⟨hsub, offeringId, hoffering, hne, tariff, hget, ty, hty, hallowance, hunit⟩ :=
    handleUsageRecorded_isOk.mp ⟨o, h⟩
  rw [hdata] at hty
  obtain rfl : ty = "data" := Option.some.inj hty.symm
  exact ⟨tariff, hsub, ⟨offeringId, hoffering, hne, hget⟩, hallowance, Option.some.inj hunit.symm⟩

theorem rated_not_home {o : UsageOutcome} {q : RatedPayload} (hroaming : p.roamingIndicator = true)
    (h : handleUsageRecorded p getOffering = .ok o) (hq : o.decrements = some q) : q.allowanceType ≠ "data" := by
  obtain ⟨offeringId, tariff, -, -, hdecide⟩ := handleUsageRecorded_eq_ok.mp h
  simp only [decideUsageOutcome, bind_eq_ok] at hdecide
  obtain ⟨id, -, r, -, hdecide⟩ := hdecide
  split at hdecide
  · split at hdecide
    · cases hdecide
      cases hq
      exact show "data_roaming" ≠ "data" by decide
    · cases hdecide
      simp [Rating.usageRejected, UsageOutcome.decrements] at hq
  · rename_i hnot
    cases hdecide
    cases hq
    exact fun hr => hnot ⟨hroaming, hr⟩

end Rating

/-! ## At the balance -/

section Balance

variable {u : UsageCall} {db : SubDb} {b : BundleBalanceRow}

theorem roamingGate_eq_ok (hty : u.allowanceType = roamingType) (id : String) (target : Option BundleBalanceRow)
    (hstore : ∀ b ∈ target, b.Storable) :
    roamingGate u id target = .ok () ↔ ∃ b ∈ target, Left b := by
  have hroaming : u.allowanceType = "data_roaming" := hty
  unfold roamingGate checkRoamingBalanceRequired
  rw [if_pos hroaming]
  cases target with
  | none => simp
  | some b =>
    have hsub : i64 (b.total - b.consumed) = b.total - b.consumed := i64_of_fits (hstore b rfl)
    simp only [hsub, Option.mem_def, Option.some.injEq, exists_eq_left']
    unfold Left unlimited
    split
    · rename_i hnone
      simp only [reduceCtorEq, false_iff]
      omega
    · rename_i hsome
      simp only [true_iff]
      omega

/-- The balance after `consume`, when the sum is a `bigint`. -/
theorem consume_roaming {quantity : I64} (hq : 0 < quantity.val) (hfits : FitsI64 (b.consumed + quantity)) :
    (consume b.snapshot quantity).consumed =
      if b.total = unlimited then b.consumed else min (b.consumed + quantity) b.total := by
  have hsum : i64 (b.snapshot.consumed + quantity) = b.consumed + quantity := i64_of_fits hfits
  unfold consume
  rw [hsum]
  by_cases hlim : b.total = unlimited
  · have hcond : quantity.val ≤ 0 ∨ b.snapshot.total = unlimited := Or.inr hlim
    rw [if_pos hlim, if_pos hcond]
    rfl
  · have hcond : ¬(quantity.val ≤ 0 ∨ b.snapshot.total = unlimited) := by
      have : b.snapshot.total ≠ unlimited := hlim
      simp [this, hq]
    rw [if_neg hlim, if_neg hcond]
    rfl

theorem consumed_storable {quantity : I64} (hq : 0 < quantity.val) (hstore : b.Storable) (hleft : Left b) :
    (b.setConsumed (if b.total = unlimited then b.consumed
      else min (b.consumed + quantity) b.total)).Storable := by
  have hrange : FitsI64 (b.total - b.consumed) := hstore
  split
  · exact hstore
  · rename_i hlim
    have hpos : 0 < b.total - b.consumed := hleft.resolve_left hlim
    show FitsI64 (b.total - min (b.consumed + quantity) b.total)
    unfold FitsI64 at hrange ⊢
    omega

theorem usageCommit_isOk {result : BalanceSnapshot} {t : Balances} (exhausted : Bool)
    (hs : db.sub.state = .active)
    (ht : db.balances.write u.allowanceType (BundleBalanceRow.setConsumed result.consumed)
      (fun _ => rfl) = .ok t) :
    ∃ db', usageCommit db.sub u (.decrement result exhausted) db = .ok db' := by
  have hdest : nextState db.sub.state .exhaust = .ok .blocked := nextState_exhaust.mpr ⟨hs, rfl⟩
  cases exhausted with
  | false => exact ⟨_, by simp only [usageCommit, ht, bind, Except.bind]; rfl⟩
  | true => exact ⟨_, by simp only [usageCommit, ht, bind, Except.bind, usageExhausted, hdest]; rfl⟩

theorem handleUsageRated_left (hty : u.allowanceType = roamingType) (hq : 0 < u.quantity.val)
    (hs : db.sub.state = .active) (hfind : db.balances.find roamingType = some b) (hstore : b.Storable)
    (hleft : Left b) (hfits : FitsI64 (b.consumed + u.quantity)) :
    (handleUsageRated u true db).result = .ok () ∧
      Decremented u.quantity b db (handleUsageRated u true db).db := by
  have hconsume := consume_roaming (b := b) hq hfits
  have hfind' : db.balances.find u.allowanceType = some b := hty ▸ hfind
  have hgate : roamingGate u db.sub.id (some b) = .ok () :=
    (roamingGate_eq_ok hty _ _ fun _ hb => Option.some.inj hb ▸ hstore).mpr ⟨b, rfl, hleft⟩
  obtain ⟨t, ht⟩ : ∃ t, db.balances.write u.allowanceType
      (BundleBalanceRow.setConsumed (consume b.snapshot u.quantity).consumed) (fun _ => rfl) = .ok t :=
    ⟨_, Balances.write_of_storable hfind' (hconsume ▸ consumed_storable hq hstore hleft)⟩
  have hopen : usageOpen u db = .ok (.decrement (consume b.snapshot u.quantity)
      (isExhausted t.snapshots primaryAllowanceType)) := by
    unfold usageOpen
    simp only [hfind', hgate, ht, bind, Except.bind]
    rfl
  obtain ⟨db', hcommit⟩ := usageCommit_isOk (isExhausted t.snapshots primaryAllowanceType) hs ht
  have hout : handleUsageRated u true db = ⟨db', [], .ok ()⟩ := by
    rw [handleUsageRated, if_pos (by simp [UsageCall.accepted, hs]), hopen]
    simp only [bind, Except.bind, hcommit, inTx]
  have hbal := (usageCommit_eq_ok hcommit).2
  rw [usageBalances, ht, Except.ok.injEq] at hbal
  have hrows := (Balances.write_eq_ok ht).2
  rw [hout]
  refine ⟨rfl, ?_, fun ty hne => ?_⟩
  · rw [← hbal, hrows, if_pos hty.symm, hfind, hconsume]
    rfl
  · rw [← hbal, hrows, if_neg (hty ▸ hne)]

/-- `usage.rejected` is for a balance that is missing or used up. -/
theorem handleUsageRated_rejected (hty : u.allowanceType = roamingType) (hs : db.sub.state = .active)
    (hstore : ∀ b, db.balances.find roamingType = some b → b.Storable)
    (hleft : ∀ b, db.balances.find roamingType = some b → ¬ Left b) :
    (handleUsageRated u true db).result = .ok () ∧ Rejected db (handleUsageRated u true db).db := by
  have hgate : ¬ roamingGate u db.sub.id (db.balances.find u.allowanceType) = .ok () := by
    rw [roamingGate_eq_ok hty _ _ (by rw [hty]; exact hstore), hty]
    rintro ⟨b, hb, hl⟩
    exact hleft b hb hl
  obtain ⟨pv, hpv⟩ : ∃ pv, roamingGate u db.sub.id (db.balances.find u.allowanceType) = .error pv := by
    cases hg : roamingGate u db.sub.id (db.balances.find u.allowanceType) with
    | error pv => exact ⟨pv, rfl⟩
    | ok _ => exact absurd hg hgate
  have hopen : usageOpen u db = .ok (.reject pv) := by
    unfold usageOpen
    simp only [hpv]
  have hout : handleUsageRated u true db = ⟨Subscription.usageRejected u pv db, [], .ok ()⟩ := by
    rw [handleUsageRated, if_pos (by simp [UsageCall.accepted, hs]), hopen]
    rfl
  rw [hout]
  exact ⟨rfl, rfl, rfl, by simp [Subscription.usageRejected]⟩

theorem handleUsageRated_others (u : UsageCall) (txOk : Bool) (db : SubDb) {ty : String}
    (hne : ty ≠ u.allowanceType) :
    (handleUsageRated u txOk db).db.balances.find ty = db.balances.find ty := by
  rcases handleUsageRated_db u txOk db with h | ⟨-, effect, -, hcommit⟩
  · rw [h]
  · have hbal := (usageCommit_eq_ok hcommit).2
    cases effect with
    | reject pv => rw [Except.ok.inj hbal]
    | missing => rw [Except.ok.inj hbal]
    | decrement result exhausted => rw [(Balances.write_eq_ok hbal).2, if_neg hne]

end Balance

theorem ten_fits : FitsI64 10 := by decide

def tenMbAbroad : IngestRequest := ⟨"90000042", "data", ⟨10, ten_fits⟩, "mb", true⟩

def activeLine : LineDoc := ⟨some "SUB-0001", some "90000042", some "active", some "PLAN_M"⟩

def abroad : RecordedPayload :=
  ⟨"UE-1", some "SUB-0001", "90000042", "data", ⟨10, ten_fits⟩, "mb", true, some "PLAN_M"⟩

def planListing (types : List String) : Tariff :=
  ⟨⟨some (types.map fun ty => ⟨some ty, some zeroI64, some "mb"⟩), none⟩, "PLAN_M"⟩

/-- An active line that has bought a hundred megabytes, whatever its plan lists. -/
def toppedUp : SubDb :=
  (purchaseVas (sampleVasEnv roamingType hundredMb) "VAS_ROAMING_1GB" 0 (fun _ => .ok approved) true
    (sampleLine .active 100 0)).db

theorem toppedUp_roaming : toppedUp.sub.state = .active ∧ toppedUp.balances.find roamingType =
    some ⟨roamingType, 100, 0, "mb", some 0, some (periodEnd 0)⟩ := by
  decide +kernel

end BssCli.Usage.Roaming
