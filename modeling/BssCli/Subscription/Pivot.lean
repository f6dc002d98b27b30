import BssCli.Subscription.Service

/-!
# The balances after a plan change

The specification makes one fresh balance of each allowance of the new plan. A renewal that
applies a plan change works on the rows that are there, and never writes a unit to them.
-/

/-!
## What a renewal does once the card was charged

The check that lets a renewal in and the state machine it asks after the charge are two
tables. They agree on an active line.
-/

namespace BssCli.Subscription.RenewEffect

open Money

def stagedOf (eventType : String) (db : SubDb) : ℕ := db.events.countP fun e => e.eventType = eventType

/-- Exactly one period forward, with the balances of the plan. -/
structure PeriodAdvanced (p : RenewPlan) (db db' : SubDb) : Prop where
  state : db'.sub.state = .active
  next : db'.sub.nextRenewalAt = some (periodEnd p.now)
  reset : ∀ ty b s, db.balances.find ty = some b → p.specOf ty = some s →
    db'.balances.find ty = some (b.resetPeriod s.quantity p.now (periodEnd p.now))
  once : stagedOf "subscription.renewed" db' = stagedOf "subscription.renewed" db + 1

structure RenewalFailed (db db' : SubDb) : Prop where
  state : db'.sub.state = .blocked
  balances : db'.balances = db.balances
  once : stagedOf "subscription.renew_failed" db' = stagedOf "subscription.renew_failed" db + 1

/-- The call returns `Ok`, and what it has stored is what the reply to the charge allows. -/
def ChargeTakesEffect (o : Outcome SubDb) (db : SubDb) (p : RenewPlan) (pay : PaymentResult) : Prop :=
  o.result = .ok () ∧ if pay.Approved then PeriodAdvanced p db o.db else RenewalFailed db o.db

theorem renewApproved_advances {sub : SubscriptionRow} {p : RenewPlan} {pay : PaymentResult}
    {db db' : SubDb} (h : renewApproved sub p pay (existingTypes db) db = .ok db') :
    PeriodAdvanced p db db' := by
  obtain ⟨hs, ⟨row, hrow, hsub⟩, hbal⟩ := renewApproved_eq_ok h
  have hw := writeRow_eq_ok hrow db.sub
  refine ⟨by rw [hsub]; exact hw.1, by rw [hsub]; exact hw.2.1, ?_, ?_⟩
  · intro ty b s hb hspec
    have hty : b.allowanceType = ty := (Table.find_some _ hb).2
    have hmem : b.allowanceType ∈ existingTypes db := List.mem_map_of_mem (Table.find_some _ hb).1
    rw [find_writeBalances hbal hb, RenewPlan.resetRead, if_pos hmem, RenewPlan.resetRow, hty, hspec]
  · simp only [renewApproved, bind_eq_ok] at h
    obtain ⟨balances, -, dest, -, row, -, h⟩ := h
    cases h
    unfold stagedOf
    split
    · split <;> simp [List.countP_append]
    · simp [List.countP_append]

theorem renewDeclined_fails {sub : SubscriptionRow} {p : RenewPlan} {pay : PaymentResult}
    {db db' : SubDb} (h : renewDeclined sub p pay db = .ok db') : RenewalFailed db db' := by
  obtain ⟨-, hsub, hbal⟩ := renewDeclined_eq_ok h
  refine ⟨by rw [hsub]; rfl, hbal, ?_⟩
  simp only [renewDeclined, bind_eq_ok] at h
  obtain ⟨dest, -, h⟩ := h
  cases h
  unfold stagedOf
  split <;> simp [List.countP_append]

/-- Once the charge got its reply, the transaction is all there is to the outcome. -/
theorem renew_charged {env : RenewEnv} {now : Time} {charge : Payment} {db : SubDb} {p : RenewPlan}
    {pay : PaymentResult} (hp : renewPlan env now db.sub = .ok p)
    (hpay : charge (p.request db.sub) = .ok pay) :
    renew env now charge true db = inTx true db [⟨p.request db.sub, p.discount, pay.Approved⟩]
      (renewCommit db.sub p pay (existingTypes db) db) := by
  simp only [renew, hp, hpay]

theorem inTx_result {db : SubDb} {charges : List Charge} {body : Except ApiError SubDb} :
    (inTx true db charges body).result = .ok () ↔ body = .ok (inTx true db charges body).db := by
  cases body <;> simp [inTx]

/-- **A charged renewal takes effect exactly on an active line** whose due plan change, if
it has one, can be stored. -/
theorem renew_takes_effect_iff (env : RenewEnv) (now : Time) (charge : Payment) (db : SubDb)
    (p : RenewPlan) (pay : PaymentResult) (hp : renewPlan env now db.sub = .ok p)
    (hpay : charge (p.request db.sub) = .ok pay) :
    ChargeTakesEffect (renew env now charge true db) db p pay ↔
      db.sub.state = .active ∧ (pay.Approved → p.Storable (existingTypes db) db.balances) := by
  rw [ChargeTakesEffect, renew_charged hp hpay, inTx_result, ← renewCommit_isOk]
  constructor
  · rintro ⟨h, -⟩
    exact ⟨_, h⟩
  · rintro ⟨db', h⟩
    rw [h]
    refine ⟨rfl, ?_⟩
    unfold renewCommit at h
    split at h
    · rename_i happ
      rw [if_pos happ]
      exact renewApproved_advances h
    · rename_i happ
      rw [if_neg happ]
      exact renewDeclined_fails h

def samplePlanned : RenewPlan :=
  ⟨0, false, ⟨25, "SGD", "PRICE-1", "PLAN_M"⟩, samplePlan, false, 25, "PM-1"⟩

theorem renew_takes_effect_active :
    ChargeTakesEffect (renew sampleRenewEnv 0 (fun _ => .ok approved) true (sampleLine .active 100 70))
      (sampleLine .active 100 70) samplePlanned approved :=
  (renew_takes_effect_iff sampleRenewEnv 0 (fun _ => .ok approved) (sampleLine .active 100 70)
    samplePlanned approved rfl rfl).mpr ⟨rfl, fun _ h => absurd h (by decide)⟩

/-- A blocked line passes the check, is charged, and nothing comes of it. -/
theorem renew_blocked_charged_for_nothing :
    checkRenewAllowed (sampleLine .blocked 100 100).sub.state = .ok () ∧
      renewPlan sampleRenewEnv 0 (sampleLine .blocked 100 100).sub = .ok samplePlanned ∧
      (renew sampleRenewEnv 0 (fun _ => .ok approved) true (sampleLine .blocked 100 100)).charges =
        [⟨samplePlanned.request (sampleRow .blocked), false, true⟩] ∧
      ¬ ChargeTakesEffect
        (renew sampleRenewEnv 0 (fun _ => .ok approved) true (sampleLine .blocked 100 100))
        (sampleLine .blocked 100 100) samplePlanned approved := by
  refine ⟨rfl, rfl, rfl, fun h => ?_⟩
  have hresult := h.1
  cases hresult

end BssCli.Subscription.RenewEffect

namespace BssCli.Subscription.Pivot

/-- Renewal: fresh balances from plan specs. -/
def resetForNewPeriod (specs : List AllowanceSpec) : List BalanceSnapshot :=
  specs.map fun s => ⟨s.allowanceType, s.quantity, 0, s.unit⟩

structure Reset (p : RenewPlan) (t t' : Balances) : Prop where
  fresh : ∀ snap ∈ resetForNewPeriod p.specs, ∃ b : BundleBalanceRow,
    t'.rows.filter (fun r => r.allowanceType = snap.allowanceType) = [b] ∧ b.snapshot = snap ∧
      b.periodStart = some p.now ∧ b.periodEnd = some (periodEnd p.now)
  zeroed : ∀ b ∈ t.rows, b.allowanceType ∉ p.specs.map AllowanceSpec.allowanceType →
    ∃ b' ∈ t'.find b.allowanceType, b'.total = 0 ∧ b'.consumed = 0
  others : ∀ b ∈ t'.rows, b.allowanceType ∉ p.specs.map AllowanceSpec.allowanceType →
    b.total = 0 ∧ b.consumed = 0

/-- No allowance of the new plan counts in another unit than the balance of its type. -/
def SameUnits (specs : List AllowanceSpec) (t : Balances) : Prop :=
  ∀ s ∈ specs, ∀ b ∈ t.find s.allowanceType, b.unit = s.unit

instance (specs : List AllowanceSpec) (t : Balances) : Decidable (SameUnits specs t) :=
  inferInstanceAs (Decidable (∀ s ∈ specs, ∀ b ∈ _, _))

section Written

variable {p : RenewPlan} {db : SubDb} {t' : Balances} (hp : p.pivot = true)
  (h : p.writeBalances (existingTypes db) db.balances = .ok t')

include hp h

/-- A balance that was there is reset, another comes from the first spec of its type. -/
theorem find_written (ty : String) :
    t'.find ty = ((db.balances.find ty).map p.resetRow).or
      ((p.specOf ty).map fun s => s.balance p.now (periodEnd p.now)) := by
  cases hb : db.balances.find ty with
  | some b =>
    have hmem : b.allowanceType ∈ existingTypes db := List.mem_map_of_mem (Table.find_some _ hb).1
    rw [find_writeBalances h hb, RenewPlan.resetRead, if_pos hmem]
    rfl
  | none =>
    have hty : ty ∉ existingTypes db := Table.find_eq_none _ |>.mp hb
    rw [RenewPlan.writeBalances, if_pos hp] at h
    rw [find_insertBalances h, RenewPlan.reset, Table.find_map, hb, RenewPlan.newSpecs, List.find?_filter]
    simp only [Option.map_none, Option.none_or, RenewPlan.specOf]
    congr 2
    funext s
    by_cases hs : s.allowanceType = ty
    · simp [hs, hty]
    · simp [hs]

theorem find_written_spec {s : AllowanceSpec} (hs : p.specOf s.allowanceType = some s) :
    ∃ b, t'.find s.allowanceType = some b ∧ b.allowanceType = s.allowanceType ∧ b.total = s.quantity ∧
      b.consumed = 0 ∧ b.periodStart = some p.now ∧ b.periodEnd = some (periodEnd p.now) ∧
      b.unit = ((db.balances.find s.allowanceType).map BundleBalanceRow.unit).getD s.unit := by
  rw [find_written hp h, hs]
  cases hb : db.balances.find s.allowanceType with
  | none => exact ⟨_, rfl, rfl, rfl, rfl, rfl, rfl, rfl⟩
  | some b =>
    have hty := (Table.find_some _ hb).2
    refine ⟨b.resetPeriod s.quantity p.now (periodEnd p.now), ?_, hty, rfl, rfl, rfl, rfl, rfl⟩
    simp [RenewPlan.resetRow, hty, hs]

theorem find_written_other {ty : String} (hs : p.specOf ty = none) :
    t'.find ty = (db.balances.find ty).map (·.resetPeriod 0 p.now (periodEnd p.now)) := by
  rw [find_written hp h, hs, Option.map_none, Option.or_none]
  cases hb : db.balances.find ty with
  | none => rfl
  | some b => simp [RenewPlan.resetRow, (Table.find_some _ hb).2, hs, hp]

end Written

theorem specOf_eq_none {p : RenewPlan} {ty : String} :
    p.specOf ty = none ↔ ty ∉ p.specs.map AllowanceSpec.allowanceType := by
  simp [RenewPlan.specOf]

theorem specOf_of_mem {p : RenewPlan} (hd : (p.specs.map AllowanceSpec.allowanceType).Nodup)
    {s : AllowanceSpec} (hs : s ∈ p.specs) : p.specOf s.allowanceType = some s := by
  cases hf : p.specOf s.allowanceType with
  | none => exact absurd (List.mem_map_of_mem hs) (specOf_eq_none.mp hf)
  | some s' =>
    have hty : s'.allowanceType = s.allowanceType := by simpa using List.find?_some hf
    rw [List.inj_on_of_nodup_map hd (List.mem_of_find?_eq_some hf) hs hty]

/-- Everything is as specified except that a row keeps the unit it had. -/
theorem reset_iff {p : RenewPlan} {db : SubDb} {t' : Balances} (hp : p.pivot = true)
    (hd : (p.specs.map AllowanceSpec.allowanceType).Nodup)
    (h : p.writeBalances (existingTypes db) db.balances = .ok t') :
    Reset p db.balances t' ↔ SameUnits p.specs db.balances := by
  constructor
  · intro hr s hs b hb
    obtain ⟨b', hrows, hsnap, -⟩ := hr.fresh _ (List.mem_map_of_mem hs)
    obtain ⟨b₁, hfind, -, -, -, -, -, hunit⟩ := find_written_spec hp h (specOf_of_mem hd hs)
    rw [Table.filter_key, hfind] at hrows
    obtain rfl : b₁ = b' := by simpa using hrows
    rw [Option.mem_def.mp hb] at hunit
    have hspec : b₁.unit = s.unit := congrArg BalanceSnapshot.unit hsnap
    exact hunit.symm.trans hspec
  · intro hu
    have hother : ∀ {ty}, ty ∉ p.specs.map AllowanceSpec.allowanceType →
        t'.find ty = (db.balances.find ty).map (·.resetPeriod 0 p.now (periodEnd p.now)) :=
      fun hty => find_written_other hp h (specOf_eq_none.mpr hty)
    refine ⟨?_, ?_, ?_⟩
    · intro snap hsnap
      obtain ⟨s, hs, rfl⟩ := List.mem_map.mp hsnap
      obtain ⟨b, hfind, hty, htotal, hconsumed, hstart, hend, hunit⟩ :=
        find_written_spec hp h (specOf_of_mem hd hs)
      refine ⟨b, by rw [Table.filter_key, hfind]; rfl, ?_, hstart, hend⟩
      have hunit' : b.unit = s.unit := by
        cases hb : db.balances.find s.allowanceType with
        | none => rw [hunit, hb]; rfl
        | some old => rw [hunit, hb]; exact hu s hs old hb
      rw [BundleBalanceRow.snapshot, hty, htotal, hconsumed, hunit']
    · intro b hb hty
      exact ⟨_, by rw [hother hty, Table.find_of_mem _ hb]; rfl, rfl, rfl⟩
    · intro b hb hty
      have hfind := Table.find_of_mem _ hb
      rw [hother hty, Option.map_eq_some_iff] at hfind
      obtain ⟨old, -, rfl⟩ := hfind
      exact ⟨rfl, rfl⟩

/-- **A renewal that applies a due plan change leaves the specified balances exactly when it
is stored and no unit has changed.** -/
theorem pivot_resets_iff (env : RenewEnv) (now : Time) (charge : Payment) (txOk : Bool) (db : SubDb)
    (p : RenewPlan) (pay : PaymentResult) (hp : renewPlan env now db.sub = .ok p)
    (hdue : applyingPending db.sub now = true) (hpay : charge (p.request db.sub) = .ok pay)
    (happ : pay.Approved) (hd : (p.specs.map AllowanceSpec.allowanceType).Nodup) :
    ((renew env now charge txOk db).result = .ok () ∧
        Reset p db.balances (renew env now charge txOk db).db.balances) ↔
      txOk = true ∧ db.sub.state = .active ∧ p.Storable (existingTypes db) db.balances ∧
        SameUnits p.specs db.balances := by
  have hpivot : p.pivot = true := (renewPlan_eq_ok hp).2.2.1.trans hdue
  have hrenew : renew env now charge txOk db = inTx txOk db [⟨p.request db.sub, p.discount, pay.Approved⟩]
      (renewApproved db.sub p pay (existingTypes db) db) := by
    simp only [renew, hp, hpay, renewCommit, if_pos happ]
  rw [hrenew]
  cases txOk with
  | false => simp [inTx]
  | true =>
    cases hbody : renewApproved db.sub p pay (existingTypes db) db with
    | error e =>
      have hnot := mt renewApproved_isOk.mpr (by rw [hbody]; simp : ¬ ∃ db', _ = Except.ok db')
      simp only [inTx, reduceCtorEq, false_and, true_and, false_iff]
      rintro ⟨hs, hst, -⟩
      exact hnot ⟨hs, hst⟩
    | ok db' =>
      obtain ⟨hs, hst⟩ := renewApproved_isOk.mp ⟨db', hbody⟩
      obtain ⟨-, -, hbal⟩ := renewApproved_eq_ok hbody
      have := reset_iff hpivot hd hbal
      simp only [inTx, true_and, hs, hst, this]

/-- The line moves from 100 MB to `quantity` units of data and 50 roaming MB. -/
def pivotLine : SubDb :=
  { sampleLine .active 100 70 with
    sub := { sampleRow .active with
      pendingOfferingId := some "PLAN_G", pendingOfferingPriceId := some "PRICE-2",
      pendingEffectiveAt := some 0 } }

def newPlan (unit : String) : OfferingDoc :=
  ⟨some [⟨some "data", some ⟨5, by decide⟩, some unit⟩, ⟨some "data_roaming", some fiftyMb, some "mb"⟩],
    none⟩

def pivotEnv (unit : String) : RenewEnv :=
  ⟨fun _ => .ok ⟨some "PRICE-2", some "recurring", "30.00", .ok 30, some "SGD"⟩,
    fun _ => .ok (newPlan unit), fun _ => .ok sampleMethods⟩

def pivotPlan (unit : String) : RenewPlan :=
  ⟨0, true, ⟨30, "SGD", "PRICE-2", "PLAN_G"⟩, newPlan unit, false, 30, "PM-1"⟩

theorem pivot_resets_iff_same_unit :
    (renew (pivotEnv "mb") 0 (fun _ => .ok approved) true pivotLine).result = .ok () ∧
      Reset (pivotPlan "mb") pivotLine.balances
        (renew (pivotEnv "mb") 0 (fun _ => .ok approved) true pivotLine).db.balances :=
  (pivot_resets_iff (pivotEnv "mb") 0 (fun _ => .ok approved) true pivotLine (pivotPlan "mb") approved
    rfl rfl rfl rfl (by decide)).mpr ⟨rfl, rfl, by decide +kernel, by decide +kernel⟩

/-- Five gigabytes are stored as five megabytes. -/
theorem pivot_keeps_unit :
    (renew (pivotEnv "gb") 0 (fun _ => .ok approved) true pivotLine).result = .ok () ∧
      (renew (pivotEnv "gb") 0 (fun _ => .ok approved) true pivotLine).db.balances.find "data" =
        some ⟨"data", 5, 0, "mb", some 0, some (periodEnd 0)⟩ ∧
      ⟨"data", 5, 0, "gb"⟩ ∈ resetForNewPeriod (pivotPlan "gb").specs ∧
      ¬ Reset (pivotPlan "gb") pivotLine.balances
        (renew (pivotEnv "gb") 0 (fun _ => .ok approved) true pivotLine).db.balances := by
  have hfind : (renew (pivotEnv "gb") 0 (fun _ => .ok approved) true pivotLine).db.balances.find "data" =
      some ⟨"data", 5, 0, "mb", some 0, some (periodEnd 0)⟩ := by decide +kernel
  have hspec : ⟨"data", 5, 0, "gb"⟩ ∈ resetForNewPeriod (pivotPlan "gb").specs := by decide
  refine ⟨by decide +kernel, hfind, hspec, fun h => ?_⟩
  obtain ⟨b, hrows, hsnap, -⟩ := h.fresh _ hspec
  rw [Table.filter_key, hfind] at hrows
  obtain rfl : _ = b := by simpa using hrows
  exact absurd hsnap (by decide)

end BssCli.Subscription.Pivot
