import BssCli.Lib.Steps
import BssCli.Subscription.World

/-!
# The displayed renewal price

A response shows the amount of the next charge, worked out by a second copy of the discount
rule. The two copies differ on an unknown discount type, which no row has.
-/

namespace BssCli.Subscription.Displayed

open Steps Money

/-- The charge of this period: discounted while the counter is live, else the full base. -/
def effectiveAmount (sub : SubscriptionRow) : Decimal :=
  match sub.discountType, sub.discountValue with
  | some dtype, some dval =>
    if sub.discountPeriodsRemaining ≠ 0 then
      match applyDiscount dtype dval sub.priceAmount with
      | .ok x => x
      | .error _ => sub.priceAmount
    else sub.priceAmount
  | _, _ => sub.priceAmount

/-- A discount with a value is of a type that can be applied to any amount. -/
def KnownDiscount (sub : SubscriptionRow) : Prop :=
  ∀ dtype ∈ sub.discountType, sub.discountValue.isSome → dtype = "percent" ∨ dtype = "absolute"

theorem applyDiscount_isOk (dtype : String) (dval base : Decimal) :
    (∃ x, applyDiscount dtype dval base = .ok x) ↔ dtype = "percent" ∨ dtype = "absolute" := by
  unfold applyDiscount
  split
  · rename_i h
    simp [h]
  · rename_i h
    split
    · rename_i h'
      simp [h']
    · rename_i h'
      simp [h, h']

theorem renewalCharge_effective {sub : SubscriptionRow} (h : KnownDiscount sub) :
    renewalCharge sub (applyingDiscount sub false) sub.priceAmount = .ok (effectiveAmount sub) := by
  unfold effectiveAmount
  split
  · rename_i dtype dval htype hval
    have hknown := h dtype htype (by rw [hval]; rfl)
    obtain ⟨x, hx⟩ := (applyDiscount_isOk dtype dval sub.priceAmount).mpr hknown
    by_cases hlive : sub.discountPeriodsRemaining = 0
    · simp [renewalCharge, applyingDiscount, hlive]
    · simp [renewalCharge, applyingDiscount, hlive, htype, hval, hx]
  · rename_i hnone
    have hoff : applyingDiscount sub false = false := by
      cases htype : sub.discountType with
      | none => simp [applyingDiscount, htype]
      | some dtype =>
        cases hval : sub.discountValue with
        | none => simp [applyingDiscount, hval]
        | some dval => exact absurd hval (hnone dtype dval htype)
    rw [hoff]
    rfl

/-! ## Every row has a known discount -/

theorem known_of_same {r r' : SubscriptionRow} (htype : r'.discountType = r.discountType)
    (hval : r'.discountValue = r.discountValue) (hr : KnownDiscount r) : KnownDiscount r' := by
  unfold KnownDiscount
  rw [htype, hval]
  exact hr

/-- The activation was charged with the discount that the row gets. -/
theorem create_known {env : CreateEnv} {req : SubscriptionCreateRequest} {charge : Payment}
    {subId : String} {now : Time} {txOk : Bool} {db : SubDb}
    (h : (create env req charge subId now txOk).db = some db) : KnownDiscount db.sub := by
  obtain ⟨p, pay, hp, -, -, hcommit⟩ := create_db h
  obtain ⟨amount, value, -, hvalue, hsub, -⟩ := createCommit_eq_ok hcommit
  obtain ⟨-, hcharge, -⟩ := createPlan_eq_ok hp
  rw [hsub]
  intro dtype htype hsome
  have htype : p.discountType = some dtype := htype
  have hsome : value.isSome := hsome
  cases hval : p.discountValue with
  | none =>
    rw [hval] at hvalue
    cases hvalue
    simp at hsome
  | some dval =>
    unfold activationCharge at hcharge
    rw [htype, hval] at hcharge
    simp only at hcharge
    split at hcharge
    · rename_i x hx
      exact (applyDiscount_isOk ..).mp ⟨x, hx⟩
    · simp at hcharge

theorem rowWrite_known {f : Flight} {r r' : SubscriptionRow} (h : RowWrite f r r')
    (hr : KnownDiscount r) : KnownDiscount r' := by
  cases h with
  | @renewed p pay existing row _ _ _ hrow =>
    unfold RenewPlan.writeRow at hrow
    split at hrow
    · obtain ⟨amount, -, hrow⟩ := bind_eq_ok.mp hrow
      cases hrow
      intro dtype htype
      cases htype
    · cases hrow
      exact known_of_same rfl rfl hr
  | declined _ _ _ | blocked _ _ | terminated _ | changed _ => exact known_of_same rfl rfl hr
  | used _ _ => exact hr
  | bought _ =>
    refine known_of_same ?_ ?_ hr <;>
    · unfold vasRow
      split <;> rfl

theorem step_known {w w' : World} {l : Label} (hw : KnownDiscount w.db.sub) (h : w.step l = some w') :
    KnownDiscount w'.db.sub := by
  cases World.step_moved h with
  | commit _ _ hc => exact rowWrite_known (commit_rowWrite hc) hw
  | sweepDue _ _ | sweepSkipped _ _ => exact known_of_same (by simp; rfl) (by simp; rfl) hw
  | charge _ _ | openTx _ _ _ => simpa using hw
  | tick _ | read _ | dispatch _ _ | drop _ | rollback _ _ | fail _ => exact hw

/-- **The displayed amount is the amount that a renewal without a due plan change sends to
payment**, on every row that creation and any calls and worker ticks after it leave. -/
theorem displayed_charged (env : CreateEnv) (req : SubscriptionCreateRequest) (charge : Payment)
    (subId : String) (now : Time) (txOk : Bool) (db : SubDb)
    (hdb : (create env req charge subId now txOk).db = some db) (clock : Time) (ls : List Label)
    (w : World) (h : exec World.step (World.idle db clock) ls = some w) (renv : RenewEnv) (t : Time)
    (hdue : applyingPending w.db.sub t = false) :
    renewalCharge w.db.sub (applyingDiscount w.db.sub (applyingPending w.db.sub t)) w.db.sub.priceAmount =
        .ok (effectiveAmount w.db.sub) ∧
      ∀ p, renewPlan renv t w.db.sub = .ok p → (p.request w.db.sub).amount = effectiveAmount w.db.sub := by
  have hstart : KnownDiscount (World.idle db clock).db.sub := create_known hdb
  have hknown : KnownDiscount w.db.sub :=
    exec_inv (P := fun w => KnownDiscount w.db.sub) (fun _ _ _ => step_known) hstart h
  have hcharge := renewalCharge_effective hknown
  refine ⟨by rw [hdue]; exact hcharge, fun p hp => ?_⟩
  obtain ⟨-, -, hpivot, hdisc, hprice, -, hamount⟩ := renewPlan_eq_ok hp
  rw [hdue] at hpivot
  have hbase : p.price.amount = w.db.sub.priceAmount := by
    rw [hpivot, renewalPrice, if_neg (by simp)] at hprice
    exact congrArg RenewalPrice.amount (Except.ok.inj hprice).symm
  rw [hdisc, hpivot, hbase, hcharge] at hamount
  exact (Except.ok.inj hamount).symm

/-- 20 percent off 25 SGD, for the activation and one period more. -/
def twoPeriods : PriceSnapshot :=
  ⟨25, "SGD", "PRICE-1", some "percent", some 20, some ⟨2, by decide⟩, some "WELCOME", none⟩

def promoRequest : SubscriptionCreateRequest := { sampleRequest with priceSnapshot := some twoPeriods }

def promoDb : SubDb :=
  ((create sampleCreateEnv promoRequest (fun _ => .ok approved) "SUB-0001" 0 true).db).get (by decide +kernel)

def oneRenewal : List Label := [.read (.renew sampleRenewEnv), .charge 0 (.ok approved), .openTx 0, .commit 0]

def renewedWorld : World := (exec World.step (World.idle promoDb 0) oneRenewal).get (by decide +kernel)

/-- The counter is at zero then, and the full price is shown and charged. -/
theorem displayed_charged_renewed :
    effectiveAmount promoDb.sub = 20 ∧ effectiveAmount renewedWorld.db.sub = 25 ∧
      renewalCharge renewedWorld.db.sub
        (applyingDiscount renewedWorld.db.sub (applyingPending renewedWorld.db.sub 0))
        renewedWorld.db.sub.priceAmount = .ok (effectiveAmount renewedWorld.db.sub) :=
  ⟨by decide +kernel, by decide +kernel,
    (displayed_charged sampleCreateEnv promoRequest (fun _ => .ok approved) "SUB-0001" 0 true promoDb
      (Option.some_get _).symm 0 oneRenewal renewedWorld (Option.some_get _).symm sampleRenewEnv 0
      (by decide +kernel)).1⟩

end BssCli.Subscription.Displayed
