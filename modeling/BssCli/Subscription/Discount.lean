import BssCli.Catalog.Create
import BssCli.Lib.Steps
import BssCli.Subscription.Service

/-!
# The periods of a discount

The catalog counts the discounted periods, the activation uses the first, and each renewal
that is paid for uses one more.
-/

namespace BssCli.Subscription.Discount

open Steps Money Catalog.Promo

/-- What the promotion has promised for a line. -/
structure Terms where
  discountType : String
  discountValue : Decimal
  base : Decimal
  periods : ℤ

namespace Terms

variable (t : Terms)

/-- The right amount for the approved charge number `k`. -/
def Due (k : ℕ) (amount : Decimal) : Prop :=
  if t.periods = -1 ∨ (k : ℤ) ≤ t.periods then
    applyDiscount t.discountType t.discountValue t.base = .ok amount
  else amount = t.base

/-- The counter after `k` approved charges. -/
def remaining (k : ℕ) : ℤ := if t.periods = -1 then -1 else max (t.periods - k) 0

end Terms

def approvedCharges (cs : List Charge) : List Charge := cs.filter fun c => c.approved

/-- Each approved charge is of the amount that is due. -/
def Charged (t : Terms) (cs : List Charge) : Prop :=
  ∀ i c, (approvedCharges cs)[i]? = some c → t.Due (i + 1) c.request.amount

/-- The row after `k` approved charges. -/
structure OnTerms (t : Terms) (k : ℕ) (r : SubscriptionRow) : Prop where
  type : r.discountType = some t.discountType
  value : r.discountValue = some t.discountValue
  base : r.priceAmount = t.base
  pending : r.pendingOfferingId = none
  remaining : r.discountPeriodsRemaining = t.remaining k

theorem charged_append {t : Terms} {cs ds : List Charge} (h : Charged t cs)
    (hd : approvedCharges ds = [] ∨
      ∃ c, approvedCharges ds = [c] ∧ t.Due ((approvedCharges cs).length + 1) c.request.amount) :
    Charged t (cs ++ ds) := by
  intro i c hc
  rw [approvedCharges, List.filter_append] at hc
  rcases hd with hd | ⟨d, hd, hdue⟩
  · rw [show ds.filter _ = [] from hd, List.append_nil] at hc
    exact h i c hc
  · rw [show ds.filter _ = [d] from hd, List.getElem?_append] at hc
    split at hc
    · exact h i c hc
    · rename_i hi
      have hlen : (approvedCharges cs).length ≤ i := by simpa [approvedCharges] using hi
      rw [List.getElem?_singleton] at hc
      split at hc
      · rename_i h0
        cases hc
        have : i = (approvedCharges cs).length := by
          simp only [approvedCharges] at hlen ⊢
          omega
        rw [this]
        exact hdue
      · simp at hc

/-! ## A renewal -/

theorem applyingPending_none {sub : SubscriptionRow} {now : Time} (h : sub.pendingOfferingId = none) :
    applyingPending sub now = false := by
  simp [applyingPending, h]

theorem newRemaining_onTerms {t : Terms} {k : ℕ} {sub : SubscriptionRow} {p : RenewPlan}
    (hdisc : p.discount = (sub.discountPeriodsRemaining != 0))
    (h : sub.discountPeriodsRemaining = t.remaining k) : p.newRemaining sub = t.remaining (k + 1) := by
  unfold RenewPlan.newRemaining
  rw [hdisc, h]
  unfold Terms.remaining
  by_cases hper : t.periods = -1
  · simp [hper]
  · simp only [hper, if_false, bne_iff_ne, ne_eq]
    push_cast
    split <;> omega

/-- The amount a renewal on the terms charges is the one that is due next. -/
theorem renewal_due {t : Terms} {k : ℕ} {sub : SubscriptionRow} {env : RenewEnv} {now : Time}
    {p : RenewPlan} (hsub : OnTerms t k sub)
    (hp : renewPlan env now sub = .ok p) :
    p.pivot = false ∧ p.newRemaining sub = t.remaining (k + 1) ∧ t.Due (k + 1) p.chargeAmount := by
  obtain ⟨-, -, hpivot, hdisc, hprice, -, hcharge⟩ := renewPlan_eq_ok hp
  rw [applyingPending_none hsub.pending] at hpivot
  have hdisc : p.discount = (sub.discountPeriodsRemaining != 0) := by
    rw [hdisc, hpivot, applyingDiscount, hsub.type, hsub.value]
    simp
  have hamount : p.price.amount = t.base := by
    rw [hpivot, renewalPrice, if_neg (by simp)] at hprice
    rw [← Except.ok.inj hprice]
    exact hsub.base
  refine ⟨hpivot, newRemaining_onTerms hdisc hsub.remaining, ?_⟩
  rw [renewalCharge, hdisc, hamount, hsub.type, hsub.value, hsub.remaining] at hcharge
  have hlive : (t.remaining k != 0) = true ↔ t.periods = -1 ∨ ((k + 1 : ℕ) : ℤ) ≤ t.periods := by
    unfold Terms.remaining
    rw [bne_iff_ne]
    push_cast
    split <;> omega
  unfold Terms.Due
  by_cases hl : (t.remaining k != 0) = true
  · rw [if_pos (hlive.mp hl)]
    rw [if_pos hl] at hcharge
    simp only [Option.getD_some] at hcharge
    split at hcharge
    · cases hcharge; assumption
    · simp at hcharge
  · rw [if_neg (mt hlive.mpr hl)]
    rw [if_neg hl] at hcharge
    exact (Except.ok.inj hcharge).symm

/-- A renewal either approves nothing and leaves the terms where they are, or it approves
one charge of the amount due and moves them on. -/
theorem renew_onTerms {t : Terms} {k : ℕ} {db : SubDb} {env : RenewEnv} {now : Time} {charge : Payment}
    {txOk : Bool} (hdb : OnTerms t k db.sub)
    (hpaid : ∀ p ∈ (renewPlan env now db.sub).toOption, approvedReply (charge (p.request db.sub)) →
      db.sub.state = .active ∧ txOk = true) :
    (approvedCharges (renew env now charge txOk db).charges = [] ∧
        OnTerms t k (renew env now charge txOk db).db.sub) ∨
      ∃ c, approvedCharges (renew env now charge txOk db).charges = [c] ∧
        t.Due (k + 1) c.request.amount ∧ OnTerms t (k + 1) (renew env now charge txOk db).db.sub := by
  cases hp : renewPlan env now db.sub with
  | error e => exact Or.inl (by simpa [renew, hp, approvedCharges] using hdb)
  | ok p =>
    cases hpay : charge (p.request db.sub) with
    | error e => exact Or.inl (by simpa [renew, hp, hpay, approvedCharges] using hdb)
    | ok pay =>
      obtain ⟨hpivot, hrem, hdue⟩ := renewal_due hdb hp
      have hrun : renew env now charge txOk db = inTx txOk db
          [⟨p.request db.sub, p.discount, pay.Approved⟩]
          (renewCommit db.sub p pay (existingTypes db) db) := by
        simp only [renew, hp, hpay]
      rw [hrun]
      by_cases happ : pay.Approved
      · right
        obtain ⟨hs, htx⟩ := hpaid p (toOption_eq_some.mpr hp) (by simpa [approvedReply, hpay] using happ)
        obtain ⟨db', hok⟩ : ∃ db', renewApproved db.sub p pay (existingTypes db) db = .ok db' :=
          renewApproved_isOk.mpr ⟨hs, fun h => absurd h (by simp [hpivot])⟩
        obtain ⟨-, ⟨row, hrow, hsub⟩, -⟩ := renewApproved_eq_ok hok
        rw [RenewPlan.writeRow, if_neg (by simp [hpivot])] at hrow
        cases hrow
        rw [renewCommit, if_pos happ, hok, htx]
        refine ⟨⟨p.request db.sub, p.discount, true⟩, by simp [inTx, approvedCharges, happ], hdue, ?_⟩
        simp only [inTx, hsub]
        exact ⟨hdb.type, hdb.value, hdb.base, hdb.pending, hrem⟩
      · left
        refine ⟨by simp [approvedCharges, happ], ?_⟩
        rw [renewCommit, if_neg happ]
        rcases inTx_db txOk db [⟨p.request db.sub, p.discount, pay.Approved⟩]
          (renewDeclined db.sub p pay db) with heq | ⟨-, hok⟩
        · rw [heq]; exact hdb
        · rw [(renewDeclined_eq_ok hok).2.1]
          exact ⟨hdb.type, hdb.value, hdb.base, hdb.pending, hdb.remaining⟩

/-! ## The activation -/

theorem numeric10_twoPlaces {x y : Decimal} (hx : TwoPlaces x) (h : numeric10 x = .ok y) : y = x := by
  unfold numeric10 at h
  split at h
  · cases h; exact hx
  · simp at h

theorem discountColumn_twoPlaces {x : Decimal} {y : Option Decimal} (hx : TwoPlaces x)
    (h : discountColumn (some x) = .ok y) : y = some x := by
  simp only [discountColumn, bind_eq_ok] at h
  obtain ⟨z, hz, h⟩ := h
  cases h
  unfold numeric12 at hz
  split at hz
  · cases hz; rw [hx]
  · simp at hz

/-- The line as one `create` leaves it. -/
def created (env : CreateEnv) (req : SubscriptionCreateRequest) (charge : Payment) (subId : String)
    (now : Time) (txOk : Bool) : Line :=
  ⟨(create env req charge subId now txOk).db, (create env req charge subId now txOk).charges⟩

/-- The snapshot of an order whose promotion has these terms. -/
structure Snapshot (t : Terms) (ps : PriceSnapshot) : Prop where
  type : ps.discountType = some t.discountType
  value : ps.discountValue = some t.discountValue
  base : ps.priceAmount = t.base
  periods : ∃ n ∈ ps.discountPeriodsTotal, n.val = t.periods
  baseCents : TwoPlaces t.base
  valueCents : TwoPlaces t.discountValue

structure Inv (t : Terms) (s : Line) : Prop where
  charged : Charged t s.charges
  row : ∀ db ∈ s.db, OnTerms t (approvedCharges s.charges).length db.sub

/-- What a plan has from such a snapshot. -/
structure PlannedOn (t : Terms) (p : CreatePlan) : Prop where
  type : p.discountType = some t.discountType
  value : p.discountValue = some t.discountValue
  amount : p.price.amount = t.base
  periods : p.discountPeriodsTotal.map Subtype.val = some t.periods

variable {t : Terms} {env : CreateEnv} {req : SubscriptionCreateRequest} {charge : Payment} {pay : PaymentResult}
  {p : CreatePlan} {ps : PriceSnapshot} {subId : String} {now : Time} {txOk : Bool} {db : SubDb}

theorem createPlan_planned (hp : createPlan env req = .ok p) (hps : req.priceSnapshot = some ps)
    (hsnap : Snapshot t ps) : PlannedOn t p := by
  obtain ⟨-, -, htype, hvalue, hperiods, hbase⟩ := createPlan_eq_ok hp
  rw [hps] at htype hvalue hperiods
  obtain ⟨n, hn, hnt⟩ := hsnap.periods
  refine ⟨htype.trans hsnap.type, hvalue.trans hsnap.value, (hbase ps hps).trans hsnap.base, ?_⟩
  rw [hperiods, Option.bind_some, Option.mem_def.mp hn, Option.map_some, hnt]

theorem createPlan_due (hper : t.periods = -1 ∨ 1 ≤ t.periods) (hp : createPlan env req = .ok p)
    (h : PlannedOn t p) : t.Due 1 p.chargeAmount := by
  obtain ⟨-, hcharge, -⟩ := createPlan_eq_ok hp
  rw [h.type, h.value, h.amount] at hcharge
  simp only [activationCharge] at hcharge
  have hfirst : t.periods = -1 ∨ ((1 : ℕ) : ℤ) ≤ t.periods := by
    push_cast
    omega
  rw [Terms.Due, if_pos hfirst]
  split at hcharge
  · cases hcharge; assumption
  · simp at hcharge

theorem createCommit_onTerms (hper : t.periods = -1 ∨ 1 ≤ t.periods ∧ t.periods < 2 ^ 15) (hsnap : Snapshot t ps)
    (h : PlannedOn t p) (hcommit : createCommit req p pay subId now = .ok db) : OnTerms t 1 db.sub := by
  obtain ⟨amount, value, ha, hv, hsub, -⟩ := createCommit_eq_ok hcommit
  rw [h.amount] at ha
  rw [h.value] at hv
  rw [hsub]
  refine ⟨h.type, discountColumn_twoPlaces hsnap.valueCents hv, numeric10_twoPlaces hsnap.baseCents ha, rfl, ?_⟩
  have hrem : initialDiscountRemaining p.discountType (p.discountPeriodsTotal.map Subtype.val) = t.remaining 1 := by
    rw [h.type, h.periods]
    simp only [initialDiscountRemaining, Terms.remaining]
    push_cast
    split <;> split <;> omega
  show asI16 (initialDiscountRemaining _ _) = _
  rw [hrem]
  refine asI16_of_le ?_ ?_ <;> simp only [Terms.remaining] <;> push_cast <;> split <;> omega

theorem create_charges (hp : createPlan env req = .ok p) :
    (create env req charge subId now txOk).charges =
      (charge (p.request req)).toOption.toList.map fun pay =>
        ⟨p.request req, p.discountType.isSome && p.discountValue.isSome, pay.Approved⟩ := by
  cases hpay : charge (p.request req) with
  | error e => simp only [create, hp, hpay]; rfl
  | ok pay =>
    simp only [create, hp, hpay]
    split
    · exact inTx_charges ..
    · rfl

theorem create_inv (hper : t.periods = -1 ∨ 1 ≤ t.periods ∧ t.periods < 2 ^ 15) (hps : req.priceSnapshot = some ps)
    (hsnap : Snapshot t ps) : Inv t (created env req charge subId now txOk) := by
  unfold created
  have hnil : Charged t [] := by simp [Charged, approvedCharges]
  cases hp : createPlan env req with
  | error e =>
    have hnone : create env req charge subId now txOk = ⟨none, [], .error e⟩ := by simp only [create, hp]
    exact ⟨by rw [hnone]; exact hnil, by simp [hnone]⟩
  | ok p =>
    have hplanned := createPlan_planned hp hps hsnap
    refine ⟨?_, ?_⟩
    · have hdue := createPlan_due (by omega) hp hplanned
      rw [create_charges hp]
      refine charged_append hnil ?_
      cases charge (p.request req) with
      | error e => exact Or.inl rfl
      | ok pay =>
        by_cases happ : pay.Approved
        · exact Or.inr ⟨_, List.filter_cons_of_pos (by simpa using happ), hdue⟩
        · exact Or.inl (by simp [Except.toOption, approvedCharges, happ])
    · intro db hdb
      obtain ⟨p', pay, hp', hpay, happ, hcommit⟩ := create_db hdb
      obtain rfl : p' = p := Except.ok.inj (hp'.symm.trans hp)
      have hone : (approvedCharges (create env req charge subId now txOk).charges).length = 1 := by
        rw [create_charges hp, hpay]
        simp [Except.toOption, approvedCharges, happ]
      rw [hone]
      exact createCommit_onTerms hper hsnap hplanned hcommit

/-! ## Runs -/

/-- Only renewals, and each that is paid for runs on an active line and is stored. -/
def PaidOnActive (s : Line) : Op → Prop
  | .renew env now charge txOk => ∀ db ∈ s.db, ∀ p ∈ (renewPlan env now db.sub).toOption,
    approvedReply (charge (p.request db.sub)) → db.sub.state = .active ∧ txOk = true
  | _ => False

instance (s : Line) : ∀ op, Decidable (PaidOnActive s op)
  | .renew env now charge txOk => inferInstanceAs
      (Decidable (∀ db ∈ s.db, ∀ p ∈ (renewPlan env now db.sub).toOption,
        approvedReply (charge (p.request db.sub)) → db.sub.state = .active ∧ txOk = true))
  | .create _ _ _ _ _ _ | .usage _ _ | .vas _ _ _ _ _ | .terminate _ _ _ => .isFalse id

theorem step_inv {t : Terms} {s s' : Line} {op : Op}
    (hi : Inv t s) (hc : PaidOnActive s op) (h : s.step op = some s') : Inv t s' := by
  cases op with
  | create | usage | vas | terminate => exact absurd hc id
  | renew env now charge txOk =>
    cases h
    unfold Line.apply
    cases hdb : s.db with
    | none => exact hi
    | some db =>
      have hstep := renew_onTerms (hi.row db hdb) (hc db hdb)
      constructor
      · exact charged_append hi.charged (hstep.imp And.left fun ⟨c, hc, hdue, _⟩ => ⟨c, hc, hdue⟩)
      · intro db' hdb'
        simp only [Option.mem_def, Option.some.injEq] at hdb'
        rw [← hdb', approvedCharges, List.filter_append, List.length_append]
        rcases hstep with ⟨hnil, hrow⟩ | ⟨c, hone, -, hrow⟩
        · rw [show (renew env now charge txOk db).charges.filter _ = [] from hnil]
          exact hrow
        · rw [show (renew env now charge txOk db).charges.filter _ = [c] from hone]
          exact hrow

/-- **The first `n` approved charges are discounted and no other**, for the `n` that the
catalog counts, when every paid renewal ran on an active line and was stored. -/
theorem approved_charges_due (durationKind : String) (periodsTotal : Option I16)
    (hdur : validateDuration durationKind periodsTotal = .ok ()) (t : Terms)
    (hn : t.periods = discountPeriodsTotal durationKind periodsTotal) (env : CreateEnv)
    (req : SubscriptionCreateRequest) (ps : PriceSnapshot) (hps : req.priceSnapshot = some ps)
    (hsnap : Snapshot t ps) (charge : Payment) (subId : String) (now : Time) (txOk : Bool)
    (ops : List Op) (s : Line)
    (h : exec (guarded PaidOnActive Line.step) (created env req charge subId now txOk) ops = some s) :
    ∀ i c, (approvedCharges s.charges)[i]? = some c → t.Due (i + 1) c.request.amount := by
  have hrange := hn ▸ discountPeriodsTotal_range hdur
  have hinv : Inv t s := guarded_inv (fun _ _ _ => step_inv) (create_inv hrange hps hsnap) h
  exact hinv.charged

/-- 20 percent off 25 SGD for three periods. -/
def sampleTerms : Terms := ⟨"percent", 20, 25, 3⟩

def sampleSnapshot : PriceSnapshot :=
  ⟨25, "SGD", "PRICE-1", some "percent", some 20, some ⟨3, by decide⟩, some "WELCOME", some "OD_1"⟩

def promoRequest : SubscriptionCreateRequest := { sampleRequest with priceSnapshot := some sampleSnapshot }

def promoLine : Line := created sampleCreateEnv promoRequest (fun _ => .ok approved) "SUB-0001" 0 true

def paid (now : Time) : Op := .renew sampleRenewEnv now (fun _ => .ok approved) true

def fourPeriods : Line :=
  (exec (guarded PaidOnActive Line.step) promoLine [paid 1, paid 2, paid 3]).get (by decide +kernel)

/-- The fourth charge is the first at the full price. -/
theorem approved_charges_due_four_periods :
    ∃ c, (approvedCharges fourPeriods.charges)[3]? = some c ∧ sampleTerms.Due 4 c.request.amount := by
  have hcharge : (approvedCharges fourPeriods.charges)[3]? =
      some ⟨⟨"CUST-1", "PM-1", 25, "SGD", "renewal"⟩, false, true⟩ := by decide +kernel
  exact ⟨_, hcharge,
    approved_charges_due "multi" (some ⟨3, by decide⟩) (by decide) sampleTerms (by decide)
      sampleCreateEnv promoRequest sampleSnapshot rfl
      ⟨rfl, rfl, rfl, ⟨⟨3, by decide⟩, rfl, rfl⟩, by decide +kernel, by decide +kernel⟩
      (fun _ => .ok approved) "SUB-0001" 0 true [paid 1, paid 2, paid 3] _ (Option.some_get _).symm
      3 _ hcharge⟩

/-- After a declined renewal the line is blocked. Each paid renewal is charged the
discounted amount, and none is counted. -/
theorem blocked_renewals_discounted :
    ∃ s c, exec Line.step promoLine
        [.renew sampleRenewEnv 1 (fun _ => .ok declined) true, paid 2, paid 3, paid 4] = some s ∧
      (approvedCharges s.charges)[3]? = some c ∧ ¬ sampleTerms.Due 4 c.request.amount :=
  ⟨(exec Line.step promoLine
      [.renew sampleRenewEnv 1 (fun _ => .ok declined) true, paid 2, paid 3, paid 4]).get (by decide),
    ⟨⟨"CUST-1", "PM-1", 20, "SGD", "renewal"⟩, true, true⟩, (Option.some_get _).symm,
    by decide +kernel, by simp [Terms.Due, sampleTerms]⟩

end BssCli.Subscription.Discount
