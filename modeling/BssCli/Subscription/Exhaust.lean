import BssCli.Lib.Steps
import BssCli.Subscription.Service

/-!
# Block on exhaust

An active line has primary data left. Usage checks this in its own transaction. A top-up
does not look: it unblocks a line whatever allowance it adds.
-/

namespace BssCli.Subscription.Exhaust

open Steps

/-! ## The primary balance -/

/-- The plan has data, a positive quantity or without limit. -/
def CarriesData (offering : OfferingDoc) : Prop :=
  ∃ s ∈ (allowanceSpecs offering).find? fun s => s.allowanceType = primaryAllowanceType,
    0 < s.quantity.val ∨ s.quantity.val = unlimited

instance (offering : OfferingDoc) : Decidable (CarriesData offering) :=
  inferInstanceAs (Decidable (∃ s ∈ _, _))

/-- A data balance that was never used beyond its total, as Postgres stores it. -/
structure DataRow (b : BundleBalanceRow) : Prop where
  total : b.total = unlimited ∨ 0 ≤ b.total ∧ b.consumed ≤ b.total
  storable : b.Storable

theorem exhausted_iff {db : SubDb} {b : BundleBalanceRow}
    (hb : db.balances.find primaryAllowanceType = some b) (hst : b.Storable) :
    db.exhausted = true ↔ b.total ≠ unlimited ∧ b.total ≤ b.consumed := by
  rw [SubDb.exhausted, Balances.isExhausted_snapshots, hb]
  have hrem : b.total ≠ unlimited → b.snapshot.remaining = b.total - b.consumed := by
    intro h
    exact (if_neg h).trans (i64_of_fits hst)
  by_cases h : b.total = unlimited
  · simp [h]
  · simp only [h, if_false, decide_eq_true_eq, ne_eq, not_false_eq_true, true_and]
    rw [hrem h]
    omega

structure Covered (db : SubDb) : Prop where
  row : ∃ b, db.balances.find primaryAllowanceType = some b ∧ DataRow b
  active : db.sub.state = .active → db.exhausted = false

/-- What a plan's data makes of a balance that nobody has used yet. -/
theorem fresh_row {offering : OfferingDoc} (h : CarriesData offering) :
    ∃ s, (allowanceSpecs offering).find? (fun s => s.allowanceType = primaryAllowanceType) = some s ∧
      ∀ b : BundleBalanceRow, b.total = s.quantity → b.consumed = 0 →
        DataRow b ∧ (b.total = unlimited ∨ b.consumed < b.total) := by
  obtain ⟨s, hs, hq⟩ := h
  refine ⟨s, hs, fun b ht hc => ⟨⟨?_, ?_⟩, ?_⟩⟩
  · rw [ht, hc]; omega
  · have := s.quantity.property
    rw [BundleBalanceRow.Storable, ht, hc]
    simpa using this
  · rw [ht, hc]; omega

theorem covered_of_row {db : SubDb} {b : BundleBalanceRow}
    (hb : db.balances.find primaryAllowanceType = some b) (hrow : DataRow b)
    (hleft : db.sub.state = .active → b.total = unlimited ∨ b.consumed < b.total) : Covered db := by
  refine ⟨⟨b, hb, hrow⟩, fun hs => ?_⟩
  by_contra hne
  obtain ⟨h₁, h₂⟩ := (exhausted_iff hb hrow.storable).mp (by simpa using hne)
  rcases hleft hs with h | h
  · exact h₁ h
  · omega

theorem left_of_not_exhausted {db : SubDb} {b : BundleBalanceRow}
    (hb : db.balances.find primaryAllowanceType = some b) (hrow : DataRow b)
    (hex : db.exhausted = false) : b.total = unlimited ∨ b.consumed < b.total := by
  by_contra hne
  push Not at hne
  have := (exhausted_iff hb hrow.storable).mpr ⟨hne.1, hne.2⟩
  rw [hex] at this
  cases this

/-! ## The operations -/

theorem create_covers {req : SubscriptionCreateRequest} {p : CreatePlan} {pay : PaymentResult}
    {subId : String} {now : Time} {db : SubDb} (hdata : CarriesData p.offering)
    (h : createCommit req p pay subId now = .ok db) : Covered db := by
  obtain ⟨amount, value, -, -, -, hbal⟩ := createCommit_eq_ok h
  obtain ⟨s, hs, hfresh⟩ := fresh_row hdata
  have hfind := find_insertBalances hbal primaryAllowanceType
  rw [hs] at hfind
  obtain ⟨hrow, hleft⟩ := hfresh (s.balance now (periodEnd now)) rfl rfl
  exact covered_of_row hfind hrow fun _ => hleft

theorem renewApproved_covers {sub : SubscriptionRow} {p : RenewPlan} {pay : PaymentResult}
    {db db' : SubDb} (hi : Covered db) (hdata : CarriesData p.offering)
    (h : renewApproved sub p pay (existingTypes db) db = .ok db') : Covered db' := by
  obtain ⟨b, hb, -⟩ := hi.row
  obtain ⟨s, hs, hfresh⟩ := fresh_row hdata
  obtain ⟨hmem, hty⟩ := Table.find_some _ hb
  have hmem : b.allowanceType ∈ existingTypes db := List.mem_map_of_mem hmem
  have hfind := find_writeBalances (renewApproved_eq_ok h).2.2 hb
  rw [RenewPlan.resetRead, if_pos hmem, RenewPlan.resetRow, hty, RenewPlan.specOf, RenewPlan.specs, hs]
    at hfind
  obtain ⟨hrow, hleft⟩ := hfresh (b.resetPeriod s.quantity p.now (periodEnd p.now)) rfl rfl
  exact covered_of_row hfind hrow fun _ => hleft

theorem renewDeclined_covers {sub : SubscriptionRow} {p : RenewPlan} {pay : PaymentResult}
    {db db' : SubDb} (hi : Covered db) (h : renewDeclined sub p pay db = .ok db') : Covered db' := by
  obtain ⟨-, hsub, hbal⟩ := renewDeclined_eq_ok h
  refine ⟨by rw [hbal]; exact hi.row, fun hs => ?_⟩
  rw [hsub] at hs
  cases hs

theorem dataRow_consume {b : BundleBalanceRow} (h : DataRow b) (q : ℤ)
    (hst : (b.setConsumed (consume b.snapshot q).consumed).Storable) :
    DataRow (b.setConsumed (consume b.snapshot q).consumed) := by
  refine ⟨?_, hst⟩
  rcases h.total with h | ⟨h₁, h₂⟩
  · exact Or.inl h
  · have := consume_consumed_le (b := b.snapshot) q h₂
    rw [consume_total] at this
    exact Or.inr ⟨h₁, this⟩

theorem usage_covers {u : UsageCall} {effect : UsageEffect} {db db' : SubDb} (hi : Covered db)
    (ho : usageOpen u db = .ok effect) (h : usageCommit db.sub u effect db = .ok db') : Covered db' := by
  obtain ⟨hsub, hbal⟩ := usageCommit_eq_ok h
  have hsame : db'.sub = db.sub → db'.balances = db.balances → Covered db' := by
    intro h₁ h₂
    refine ⟨by rw [h₂]; exact hi.row, fun hs => ?_⟩
    rw [h₁] at hs
    rw [SubDb.exhausted, h₂]
    exact hi.active hs
  cases effect with
  | reject pv => exact hsame hsub (Except.ok.inj hbal).symm
  | missing => exact hsame hsub (Except.ok.inj hbal).symm
  | decrement result exhausted =>
    obtain ⟨b, all, hb, hres, hall, hex⟩ := usageOpen_decrement ho
    have hall' : all = db'.balances := by
      rw [usageBalances, hall, Except.ok.injEq] at hbal
      exact hbal
    have hexhausted : db'.exhausted = exhausted := by rw [hex, hall']; rfl
    obtain ⟨hst, hfind⟩ := Balances.write_eq_ok hall
    obtain ⟨d, hd, hdrow⟩ := hi.row
    refine ⟨?_, ?_⟩
    · rw [← hall', hfind]
      split
      · rename_i hty
        rw [← hty, hd, Option.some.injEq] at hb
        subst hb
        refine ⟨_, by rw [hd]; rfl, ?_⟩
        rw [hres]
        exact dataRow_consume hdrow _ (by rw [← hres]; exact hst _ (hty ▸ hd))
      · exact ⟨d, hd, hdrow⟩
    · intro hs
      rw [hexhausted]
      cases exhausted with
      | false => rfl
      | true => rw [hsub] at hs; cases hs

def ToppedUp (p : VasPlan) : Prop := p.allowanceType = primaryAllowanceType ∧ 0 < p.quantity.val

instance (p : VasPlan) : Decidable (ToppedUp p) := inferInstanceAs (Decidable (_ ∧ _))

/-- A line without data is topped up with data, and the new total is an `i64`. -/
def TopUpSuffices (p : VasPlan) (db : SubDb) : Prop :=
  (db.sub.state = .blocked → db.exhausted = true → ToppedUp p) ∧
    (ToppedUp p → ∀ b ∈ db.balances.find primaryAllowanceType, b.total ≠ unlimited →
      FitsI64 (b.total + p.quantity))

instance (p : VasPlan) (db : SubDb) : Decidable (TopUpSuffices p db) :=
  inferInstanceAs (Decidable ((_ → _ → _) ∧ (_ → ∀ b ∈ _, _ → _)))

theorem vasBalances_data {sub : SubscriptionRow} {p : VasPlan} {now : Time} {db : SubDb} {t : Balances}
    {b : BundleBalanceRow} (hb : db.balances.find primaryAllowanceType = some b) (hrow : DataRow b)
    (hfits : ToppedUp p → b.total ≠ unlimited → FitsI64 (b.total + p.quantity))
    (h : vasBalances sub p now (vasTarget p db) db.balances = .ok t) :
    ∃ b', t.find primaryAllowanceType = some b' ∧ DataRow b' ∧ b'.consumed = b.consumed ∧
      b'.total = if ToppedUp p ∧ b.total ≠ unlimited then b.total + p.quantity else b.total := by
  by_cases hty : p.allowanceType = primaryAllowanceType
  · rw [vasTarget, hty, hb] at h
    simp only [vasBalances] at h
    have hbty : b.allowanceType = primaryAllowanceType := (Table.find_some _ hb).2
    split at h
    · rename_i hq
      obtain ⟨hst, hfind⟩ := Balances.write_eq_ok h
      have htotal : (addAllowance b.snapshot p.quantity).total = b.total + p.quantity := by
        rw [addAllowance, if_neg (by push Not; exact hq)]
        exact i64_of_fits (hfits ⟨hty, hq.1⟩ hq.2)
      refine ⟨_, by rw [hfind, hbty, if_pos rfl, hb]; rfl, ⟨?_, hst b (hbty ▸ hb)⟩, rfl, ?_⟩
      · have := hrow.total.resolve_left hq.2
        simp only [BundleBalanceRow.setTotal, htotal]
        omega
      · rw [if_pos ⟨⟨hty, hq.1⟩, hq.2⟩]
        exact htotal
    · rename_i hq
      cases h
      refine ⟨b, hb, hrow, rfl, (if_neg ?_).symm⟩
      rintro ⟨⟨-, h₁⟩, h₂⟩
      exact hq ⟨h₁, h₂⟩
  · have hsame : t.find primaryAllowanceType = some b := by
      unfold vasBalances at h
      split at h
      · split at h
        · rw [(Balances.insertRow_eq_ok h).2, if_neg hty, hb]
        · cases h; exact hb
      · rename_i c hc
        have hcty : c.allowanceType = p.allowanceType := (Table.find_some _ hc).2
        split at h
        · rw [(Balances.write_eq_ok h).2, hcty, if_neg (Ne.symm hty), hb]
        · cases h; exact hb
    exact ⟨b, hsame, hrow, rfl, (if_neg (fun h => hty h.1.1)).symm⟩

theorem vas_covers {p : VasPlan} {pay : PaymentResult} {now : Time} {db db' : SubDb} (hi : Covered db)
    (hc : TopUpSuffices p db) (h : vasCommit db.sub p pay now (vasTarget p db) db = .ok db') :
    Covered db' := by
  obtain ⟨hsub, hbal⟩ := vasCommit_eq_ok h
  obtain ⟨b, hb, hrow⟩ := hi.row
  obtain ⟨b', hb', hrow', hcons, htot⟩ := vasBalances_data hb hrow (fun htop => hc.2 htop b hb) hbal
  apply covered_of_row hb' hrow'
  intro hs
  -- The line was active with data left, or it was blocked and is active again.
  have hleft : db.exhausted = false ∨ ToppedUp p := by
    rw [hsub, vasRow] at hs
    split at hs
    · rename_i hblocked
      by_cases hex : db.exhausted = true
      · exact Or.inr (hc.1 hblocked hex)
      · exact Or.inl (by simpa using hex)
    · rename_i hactive
      exact Or.inl (hi.active hactive)
    · exact Or.inl (hi.active hs)
  rw [htot, hcons]
  rcases hleft with hex | htop
  · rcases left_of_not_exhausted hb hrow hex with h | h
    · rw [if_neg (fun hn => hn.2 h)]
      exact Or.inl h
    · right
      split
      · rename_i hn
        have := hn.1.2
        omega
      · exact h
  · by_cases h : b.total = unlimited
    · rw [if_neg (fun hn => hn.2 h)]
      exact Or.inl h
    · rw [if_pos ⟨htop, h⟩]
      have := hrow.total.resolve_left h
      have := htop.2
      right
      omega

/-! ## Runs -/

/-- The plans carry data, and every top-up of a line without data adds data. -/
def Sufficient (s : Line) : Op → Prop
  | .create env req _ _ _ _ => ∀ p ∈ (createPlan env req).toOption, CarriesData p.offering
  | .renew env now _ _ =>
    ∀ db ∈ s.db, ∀ p ∈ (renewPlan env now db.sub).toOption, CarriesData p.offering
  | .vas env id _ charge txOk => ∀ db ∈ s.db, ∀ p ∈ (vasPlan env id db.sub).toOption,
    approvedReply (charge (p.request db.sub)) ∧ txOk → TopUpSuffices p db
  | .usage _ _ => True
  | .terminate _ _ _ => True

instance (s : Line) : ∀ op, Decidable (Sufficient s op)
  | .create env req _ _ _ _ =>
    inferInstanceAs (Decidable (∀ p ∈ (createPlan env req).toOption, CarriesData p.offering))
  | .renew env now _ _ => inferInstanceAs
      (Decidable (∀ db ∈ s.db, ∀ p ∈ (renewPlan env now db.sub).toOption, CarriesData p.offering))
  | .vas env id _ charge txOk => inferInstanceAs
      (Decidable (∀ db ∈ s.db, ∀ p ∈ (vasPlan env id db.sub).toOption,
        approvedReply (charge (p.request db.sub)) ∧ txOk → TopUpSuffices p db))
  | .usage _ _ => .isTrue trivial
  | .terminate _ _ _ => .isTrue trivial

theorem apply_covers {s : Line} {f : SubDb → Outcome SubDb} (hs : ∀ db ∈ s.db, Covered db)
    (hf : ∀ db ∈ s.db, Covered db → Covered (f db).db) : ∀ db ∈ (s.apply f).db, Covered db := by
  unfold Line.apply
  cases hdb : s.db with
  | none => simp [hdb]
  | some db =>
    intro db' hdb'
    simp only [Option.mem_def, Option.some.injEq] at hdb'
    rw [← hdb']
    exact hf db hdb (hs db hdb)

theorem step_covers {s s' : Line} {op : Op} (hs : ∀ db ∈ s.db, Covered db) (hc : Sufficient s op)
    (h : s.step op = some s') : ∀ db ∈ s'.db, Covered db := by
  cases op with
  | create env req charge subId now txOk =>
    simp only [Line.step] at h
    split at h
    · cases h
      intro db hdb
      obtain ⟨p, pay, hp, -, -, hcommit⟩ := create_db hdb
      exact create_covers (hc p (toOption_eq_some.mpr hp)) hcommit
    · cases h
      exact hs
  | usage u txOk =>
    cases h
    apply apply_covers hs
    intro db _ hi
    rcases handleUsageRated_db u txOk db with heq | ⟨-, effect, ho, hcommit⟩
    · rw [heq]; exact hi
    · exact usage_covers hi ho hcommit
  | vas env id now charge txOk =>
    cases h
    apply apply_covers hs
    intro db hdb hi
    rcases purchaseVas_db env id now charge txOk db with heq | ⟨p, pay, hp, hpay, happ, htx, hcommit⟩
    · rw [heq]; exact hi
    · have hreply : approvedReply (charge (p.request db.sub)) := by simpa [approvedReply, hpay] using happ
      exact vas_covers hi (hc db hdb p (toOption_eq_some.mpr hp) ⟨hreply, htx⟩) hcommit
  | renew env now charge txOk =>
    cases h
    apply apply_covers hs
    intro db hdb hi
    rcases renew_db env now charge txOk db with heq | ⟨p, pay, hp, -, hcommit⟩
    · rw [heq]; exact hi
    · unfold renewCommit at hcommit
      split at hcommit
      · exact renewApproved_covers hi (hc db hdb p (toOption_eq_some.mpr hp)) hcommit
      · exact renewDeclined_covers hi hcommit
  | terminate reason now txOk =>
    cases h
    apply apply_covers hs
    intro db _ hi
    rcases terminate_db reason now txOk db with heq | ⟨p, -, hcommit⟩
    · rw [heq]; exact hi
    · obtain ⟨hsub, hbal⟩ := terminateCommit_eq_ok hcommit
      refine ⟨by rw [hbal]; exact hi.row, fun hs => ?_⟩
      rw [hsub] at hs
      cases hs

/-- **An active line has data left** after every run in which each top-up of a line
without data adds data. -/
theorem active_not_exhausted (ops : List Op) (s : Line) (db : SubDb)
    (h : exec (guarded Sufficient Line.step) Line.new ops = some s) (hdb : s.db = some db)
    (hactive : db.sub.state = .active) : db.exhausted = false := by
  have hinv : ∀ db ∈ s.db, Covered db :=
    guarded_inv (P := fun s : Line => ∀ db ∈ s.db, Covered db) (fun _ _ _ => step_covers)
      (by simp [Line.new]) h
  exact (hinv db hdb).active hactive

/-- A line is made, its 100 MB are used up, then `ty` is topped up. -/
def usedUpThen (ty : String) : List Op :=
  [.create sampleCreateEnv sampleRequest (fun _ => .ok approved) "SUB-0001" 0 true,
   .usage ⟨"data", hundredMb, "UE-1"⟩ true,
   .vas (sampleVasEnv ty fiftyMb) "VAS-1" 1 (fun _ => .ok approved) true]

theorem active_not_exhausted_data_top_up :
    ((((exec (guarded Sufficient Line.step) Line.new (usedUpThen "data")).get (by decide +kernel)).db).get
      (by decide +kernel)).exhausted = false :=
  active_not_exhausted (usedUpThen "data") _ _ (Option.some_get _).symm (Option.some_get _).symm
    (by decide +kernel)

/-- A roaming top-up makes the line active with its data still used up. -/
theorem roaming_top_up_unblocks :
    ∃ s db, exec Line.step Line.new (usedUpThen "data_roaming") = some s ∧ s.db = some db ∧
      CarriesData samplePlan ∧ db.sub.state = .active ∧ db.exhausted = true :=
  ⟨(exec Line.step Line.new (usedUpThen "data_roaming")).get (by decide),
    (((exec Line.step Line.new (usedUpThen "data_roaming")).get (by decide)).db).get (by decide +kernel),
    (Option.some_get _).symm, (Option.some_get _).symm, by decide, by decide +kernel, by decide +kernel⟩

end BssCli.Subscription.Exhaust
