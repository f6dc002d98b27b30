import BssCli.Catalog.Offerings
import BssCli.Subscription.Policies

/-!
# Which offerings can be ordered

A new order asks for the offering and for its active price. A plan change asks for the listed
offerings, and then for the active price.
-/

namespace BssCli.Catalog.Sellable

open Offerings
open Subscription (PriceDoc checkOfferingSellableNow fetchActivePriceForTarget)

/-! ## The policies of a new order -/

def checkOfferingExists (offeringId : String) (reply : Except ClientError OfferingRow) :
    Except ApiError OfferingRow :=
  match reply with
  | .ok o => .ok o
  | .error (.notFound _) => .error (.policy
    { rule := "order.create.offering_not_found"
      message := s!"Offering {offeringId} not found"
      context := [("offering_id", .str offeringId)] })
  | .error e => .error (upstream e)

def checkOfferingCurrentlySellable (offeringId : String) (offering : Except ClientError OfferingRow)
    (price : Except ClientError PriceRow) : Except ApiError PriceRow := do
  let _ ← checkOfferingExists offeringId offering
  match price with
  | .ok price => .ok price
  | .error (.policy pv) => .error (.policy
    { rule := "policy.offering.not_sellable_now"
      message := s!"Offering {offeringId} is not sellable at this time"
      context := [("offering_id", .str offeringId), ("underlying", .str pv.rule)] })
  | .error e => .error (upstream e)

/-! ## Against the catalog -/

def Eligible (co : Collation) (c : CatalogDb) (offeringId : String) (moment : Time) : Prop :=
  Listed c offeringId moment ∧ (activePrice co c offeringId moment).isSome

def orderCheck (co : Collation) (iso : Time → String) (c : CatalogDb) (offeringId : String) (moment : Time) :
    Except ApiError PriceRow :=
  checkOfferingCurrentlySellable offeringId (getOffering c offeringId) (getActivePrice co c iso offeringId moment)

def targetCheck (co : Collation) (c : CatalogDb) (offeringId : String) (moment : Time) : Except ApiError Unit :=
  checkOfferingSellableNow (getActiveOfferings co c moment) offeringId

/-- The second, with the document that `doc` makes of a row. -/
def targetPrice (co : Collation) (iso : Time → String) (doc : PriceRow → PriceDoc) (c : CatalogDb)
    (offeringId : String) (moment : Time) : Except ApiError PriceDoc :=
  fetchActivePriceForTarget ((getActivePrice co c iso offeringId moment).map doc) offeringId

section

variable {co : Collation} {iso : Time → String} {doc : PriceRow → PriceDoc} {c : CatalogDb} {offeringId : String}
  {moment : Time}

theorem getActivePrice_eq_ok {p : PriceRow} :
    getActivePrice co c iso offeringId moment = .ok p ↔ activePrice co c offeringId moment = some p := by
  unfold getActivePrice
  split
  · rename_i h
    simp [h]
  · rename_i h
    simp [h]

theorem orderCheck_eq_ok {p : PriceRow} :
    orderCheck co iso c offeringId moment = .ok p ↔ activePrice co c offeringId moment = some p := by
  rw [← @getActivePrice_eq_ok co iso]
  unfold orderCheck checkOfferingCurrentlySellable
  constructor
  · intro h
    obtain ⟨-, -, h⟩ := bind_eq_ok.mp h
    split at h
    · rename_i hprice
      rw [hprice, Except.ok.inj h]
    · cases h
    · cases h
  · intro h
    obtain ⟨o, ho⟩ := exists_of_activePrice (getActivePrice_eq_ok.mp h)
    have hoffering : checkOfferingExists offeringId (getOffering c offeringId) = .ok o := by
      rw [getOffering, ho]
      rfl
    rw [hoffering, h]
    rfl

theorem targetCheck_eq_ok :
    targetCheck co c offeringId moment = .ok () ↔
      Listed c offeringId moment ∧ earlier co c offeringId moment < 20 := by
  have hspec : ∃ ids, getActiveOfferings co c moment = .ok ids ∧
      ∀ offeringId, offeringId ∈ ids ↔ Listed c offeringId moment ∧ earlier co c offeringId moment < 20 :=
    getActiveOfferings_spec
  obtain ⟨ids, hids, hmem⟩ := hspec
  rw [← hmem, targetCheck, hids]
  exact Subscription.require_eq_ok

theorem targetPrice_isOk : (∃ p, targetPrice co iso doc c offeringId moment = .ok p) ↔
    (activePrice co c offeringId moment).isSome := by
  unfold targetPrice getActivePrice
  split
  · rename_i h
    simp only [h, Option.isSome_some, iff_true]
    exact ⟨_, rfl⟩
  · rename_i h
    simp only [h, Option.isSome_none, Bool.false_eq_true, iff_false]
    rintro ⟨p, hp⟩
    cases hp

end

/-- **What makes an offering eligible.** A new order takes no offering without an active price,
and a listed one exactly when it is eligible. The first check of a plan change takes no
offering that is not listed, and of the first twenty each. The price is the business of the
second check: what both take is eligible, and of the first twenty they take what is. -/
theorem eligibility_follows_catalog (co : Collation) (iso : Time → String) (doc : PriceRow → PriceDoc)
    (c : CatalogDb) (offeringId : String) (moment : Time) :
    (∀ p, orderCheck co iso c offeringId moment = .ok p → activePrice co c offeringId moment = some p) ∧
    (Listed c offeringId moment →
      ((∃ p, orderCheck co iso c offeringId moment = .ok p) ↔ Eligible co c offeringId moment)) ∧
    (targetCheck co c offeringId moment = .ok () → Listed c offeringId moment) ∧
    (targetCheck co c offeringId moment = .ok () ∧ (∃ p, targetPrice co iso doc c offeringId moment = .ok p) →
      Eligible co c offeringId moment) ∧
    (earlier co c offeringId moment < 20 →
      (targetCheck co c offeringId moment = .ok () ↔ Listed c offeringId moment) ∧
      (targetCheck co c offeringId moment = .ok () ∧ (∃ p, targetPrice co iso doc c offeringId moment = .ok p) ↔
        Eligible co c offeringId moment)) := by
  rw [targetPrice_isOk, targetCheck_eq_ok]
  simp only [orderCheck_eq_ok, ← Option.isSome_iff_exists]
  refine ⟨fun _ => id, fun hlisted => ?_, And.left, fun h => ⟨h.1.1, h.2⟩, fun hearlier => ⟨?_, ?_⟩⟩
  · exact (and_iff_right hlisted).symm
  · exact and_iff_left hearlier
  · rw [and_iff_left hearlier]
    rfl

theorem one_fits : (-2 ^ 15 : ℤ) ≤ 1 ∧ (1 : ℤ) < 2 ^ 15 := by decide

/-- An offering of a few days, and its price for those days. -/
def festive : CatalogDb where
  offerings := .singleton
    { id := "PLAN_CNY", name := some "Festive", isBundle := true, isSellable := some true
      lifecycleStatus := some "active", window := ⟨some 0, some (days 15)⟩, specId := some "SPEC_MOBILE_PREPAID" }
  prices := .singleton
    { id := "PRICE_PLAN_CNY", offeringId := "PLAN_CNY", priceType := "recurring"
      recurringPeriodLength := some ⟨1, one_fits⟩, recurringPeriodType := some "month"
      amount := 20, currency := "SGD", window := ⟨some 0, some (days 15)⟩ }
  priced := by decide

/-- Within those days it can be ordered, and changed to. -/
theorem eligibility_follows_catalog_festive :
    (∃ p, orderCheck Collation.binary (fun _ => "") festive "PLAN_CNY" (days 5) = .ok p) ∧
    targetCheck Collation.binary festive "PLAN_CNY" (days 5) = .ok () := by
  let doc (p : PriceRow) : PriceDoc := ⟨some p.id, some p.priceType, "20.0", .ok p.amount, some p.currency⟩
  have h := eligibility_follows_catalog Collation.binary (fun _ => "") doc festive "PLAN_CNY" (days 5)
  have hlisted : Listed festive "PLAN_CNY" (days 5) := by decide +kernel
  have hprice : (activePrice Collation.binary festive "PLAN_CNY" (days 5)).isSome := by decide +kernel
  have hearlier : earlier Collation.binary festive "PLAN_CNY" (days 5) < 20 := by decide +kernel
  exact ⟨(h.2.1 hlisted).mpr ⟨hlisted, hprice⟩, (h.2.2.2.2 hearlier).1.mpr hlisted⟩

/-- The offering is prolonged, its price is not. A month later a plan change is let through
its first check, and a new order is not. -/
theorem target_without_price : ∃ c, setOfferingWindow "ops" "PLAN_CNY" ⟨some 0, none⟩ (days 10) festive = .ok c ∧
    targetCheck Collation.binary c "PLAN_CNY" (days 30) = .ok () ∧ ¬ Eligible Collation.binary c "PLAN_CNY" (days 30) := by
  refine ⟨_, rfl, ?_, ?_⟩
  · rw [targetCheck_eq_ok]
    decide +kernel
  · rintro ⟨-, hprice⟩
    revert hprice
    decide +kernel

end BssCli.Catalog.Sellable
