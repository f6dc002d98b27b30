import BssCli.Catalog.Create
import BssCli.Catalog.Offerings
import BssCli.Catalog.Resumed
import BssCli.Money
import Mathlib.Data.List.MinMax

/-!
# The arithmetic of a discount

The catalog previews a discounted price and the subscription service charges it. Each has its
own `apply_discount`.
-/

namespace BssCli.Catalog.Discount

open Money Promo

/-- The copy in the catalog. -/
def applyDiscount (discountType : String) (discountValue baseAmount : Decimal) :
    Except String Decimal := do
  let effective ← match discountType with
    | "percent" => pure (baseAmount * (100 - discountValue) / 100)
    | "absolute" => pure (baseAmount - discountValue)
    | other => throw s!"unknown discount_type '{other}'"
  let effective := if effective < 0 then 0 else effective
  pure (roundDp2 effective)

def Admitted (discountType : String) (discountValue : Decimal) : Prop :=
  ∃ req : CreatePromotion, validateCreate req = .ok () ∧
    req.discountType = discountType ∧ req.discountValue = discountValue

/-- What is left of the price, before it is rounded. -/
def remainder (discountType : String) (discountValue baseAmount : Decimal) : Decimal :=
  max (if discountType = "percent" then baseAmount * (100 - discountValue) / 100
    else baseAmount - discountValue) 0

theorem clamp_eq_max (x : Decimal) : (if x < 0 then 0 else x) = max x 0 := by
  split
  · rename_i h
    exact (max_eq_right h.le).symm
  · rename_i h
    exact (max_eq_left (not_lt.mp h)).symm

theorem applyDiscount_eq (discountType : String) (discountValue baseAmount : Decimal) :
    applyDiscount discountType discountValue baseAmount =
      Money.applyDiscount discountType discountValue baseAmount := by
  unfold applyDiscount Money.applyDiscount
  simp only [clamp_eq_max]
  split
  · rfl
  · rfl
  · rename_i hpercent habsolute
    rw [if_neg hpercent, if_neg habsolute]
    rfl

theorem admitted_bounds {discountType : String} {discountValue : Decimal}
    (h : Admitted discountType discountValue) :
    discountType ∈ discountTypes ∧ 0 < discountValue ∧
      (discountType = "percent" → discountValue ≤ 100) := by
  obtain ⟨req, hreq, rfl, rfl⟩ := h
  exact validateCreate_discount hreq

theorem applyDiscount_known {discountType : String} (h : discountType ∈ discountTypes)
    (discountValue baseAmount : Decimal) :
    applyDiscount discountType discountValue baseAmount =
      .ok (roundDp2 (remainder discountType discountValue baseAmount)) := by
  simp only [discountTypes, List.mem_cons, List.not_mem_nil, or_false] at h
  rw [applyDiscount_eq]
  unfold Money.applyDiscount remainder
  rcases h with rfl | rfl
  · rfl
  · rfl

theorem remainder_nonneg (discountType : String) (discountValue baseAmount : Decimal) :
    0 ≤ remainder discountType discountValue baseAmount := le_max_right _ _

theorem remainder_le_price {discountType : String} {discountValue price : Decimal}
    (hvalue : 0 < discountValue) (hprice : 0 ≤ price) :
    remainder discountType discountValue price ≤ price := by
  unfold remainder
  apply max_le _ hprice
  split
  · have := mul_nonneg hprice hvalue.le
    linarith
  · linarith

theorem remainder_antitone (discountType : String) {v w price : Decimal} (hprice : 0 ≤ price)
    (h : v ≤ w) : remainder discountType w price ≤ remainder discountType v price := by
  unfold remainder
  apply max_le_max _ le_rfl
  split
  · have := mul_le_mul_of_nonneg_left h hprice
    linarith
  · linarith

theorem remainder_mono {discountType : String} {v price price' : Decimal}
    (hv : discountType = "percent" → v ≤ 100) (h : price ≤ price') :
    remainder discountType v price ≤ remainder discountType v price' := by
  unfold remainder
  apply max_le_max _ le_rfl
  split
  · rename_i hpercent
    have hrest : 0 ≤ 100 - v := sub_nonneg.mpr (hv hpercent)
    have := mul_le_mul_of_nonneg_right h hrest
    linarith
  · linarith

/-- **The laws of a discount.** Both copies return the same on every input. For an accepted
discount and a price in cents the amount is in cents and between zero and the price, a larger
discount never gives a larger amount, and a larger price never a smaller one. -/
theorem applyDiscount_laws :
    (∀ discountType discountValue baseAmount,
      applyDiscount discountType discountValue baseAmount =
        Money.applyDiscount discountType discountValue baseAmount) ∧
    ∀ discountType v price, Admitted discountType v → 0 ≤ price → TwoPlaces price →
      ∃ amount, applyDiscount discountType v price = .ok amount ∧ TwoPlaces amount ∧
        0 ≤ amount ∧ amount ≤ price ∧
        (∀ w, Admitted discountType w → v ≤ w →
          ∃ less, applyDiscount discountType w price = .ok less ∧ less ≤ amount) ∧
        ∀ price', TwoPlaces price' → price ≤ price' →
          ∃ more, applyDiscount discountType v price' = .ok more ∧ amount ≤ more := by
  refine ⟨applyDiscount_eq, fun discountType v price hv hprice hcents => ?_⟩
  obtain ⟨hty, hpos, hlimit⟩ := admitted_bounds hv
  have hnonneg := remainder_nonneg discountType v price
  refine ⟨_, applyDiscount_known hty v price, roundDp2_twoPlaces _, roundDp2_nonneg hnonneg, ?_,
    ?_, ?_⟩
  · calc roundDp2 (remainder discountType v price)
        ≤ roundDp2 price := roundDp2_mono hnonneg (remainder_le_price hpos hprice)
      _ = price := hcents
  · intro w _ hvw
    refine ⟨_, applyDiscount_known hty w price, ?_⟩
    apply roundDp2_mono (remainder_nonneg discountType w price)
    exact remainder_antitone discountType hprice hvw
  · intro price' _ hle
    refine ⟨_, applyDiscount_known hty v price', ?_⟩
    apply roundDp2_mono hnonneg
    exact remainder_mono hlimit hle

def halfOff : CreatePromotion where
  promotionId := "PROMO_X"
  discountType := "percent"
  discountValue := 50
  durationKind := "single"
  audience := "public"
  currency := "SGD"
  code := some "CODE_X"
  promoCodeKind := some "single_use_shared"
  applicableOfferingIds := none
  periodsTotal := none
  validFrom := none
  validTo := none
  displayName := none

theorem halfOff_admitted : Admitted "percent" 50 :=
  ⟨halfOff, by decide +kernel, rfl, rfl⟩

/-- Half of 0.05 is a tie, and goes up to 0.03. -/
theorem applyDiscount_laws_tie : ∃ amount, applyDiscount "percent" 50 (5 / 100) = .ok amount ∧
    amount = 3 / 100 ∧ amount ≤ 5 / 100 := by
  obtain ⟨amount, hamount, -, -, hle, -⟩ := applyDiscount_laws.2 "percent" 50 (5 / 100)
    halfOff_admitted (by norm_num) (by decide +kernel)
  refine ⟨amount, hamount, ?_, hle⟩
  have : applyDiscount "percent" 50 (5 / 100) = .ok (3 / 100) := by
    rw [applyDiscount_known (by decide)]
    congr 1
    decide +kernel
  rw [this] at hamount
  exact (Except.ok.inj hamount).symm

end BssCli.Catalog.Discount

/-!
# Promotions for a customer

A typed code is resolved with loyalty and composed with the price of an offering. Without a
code the best promotion that the customer is assigned to is chosen.
-/

namespace BssCli.Catalog.Offers

open Money hiding applyDiscount
open Promo Offerings
open Discount (applyDiscount)

/-! ## Rows -/

/-- What every row has that a creation has written. -/
structure PromotionRow.Sound (p : PromotionRow) : Prop where
  discountType : p.discountType ∈ discountTypes
  code : ∃ code ∈ p.code, code ≠ ""
  offerDefinitionId : ∀ od ∈ p.offerDefinitionId, od = offerDefinitionIdFor p.id
  confirmed : p.state = .active → p.offerDefinitionId.isSome

theorem validateCreate_code {req : CreatePromotion} (h : validateCreate req = .ok ()) :
    ∃ code ∈ req.code, code ≠ "" := by
  simp only [validateCreate, bind_eq_ok] at h
  obtain ⟨-, -, -, -, -, -, hcode⟩ := h
  unfold validateCode at hcode
  split at hcode
  · cases hcode
  · rename_i hne
    cases hreq : req.code with
    | none => simp [hreq] at hne
    | some code => exact ⟨code, rfl, by simpa [hreq] using hne⟩

theorem pendingRow_sound {req : CreatePromotion} (h : validateCreate req = .ok ()) (actor : String)
    (discountValue : Decimal) : PromotionRow.Sound { pendingRow req actor with discountValue } where
  discountType := (validateCreate_discount h).1
  code := validateCreate_code h
  offerDefinitionId := nofun
  confirmed := nofun

theorem confirm_sound {p : PromotionRow} (h : PromotionRow.Sound p) : PromotionRow.Sound p.confirm where
  discountType := h.discountType
  code := h.code
  offerDefinitionId := by
    rintro od ⟨⟩
    rfl
  confirmed _ := rfl

theorem exhaust_sound {p : PromotionRow} (h : PromotionRow.Sound p) : PromotionRow.Sound p.exhaust where
  discountType := h.discountType
  code := h.code
  offerDefinitionId := h.offerDefinitionId
  confirmed := nofun

/-! ## What the creations leave -/

section Runs

variable {σ : Type} {R : Registry σ} {w w' : World σ}

/-- The rows are sound, and the requests under way are checked. -/
structure SoundWorld (w : World σ) : Prop where
  rows : ∀ p ∈ w.promotions.rows, PromotionRow.Sound p
  flights : ∀ f ∈ w.flights, validateCreate f.req = .ok ()

theorem SoundWorld.goes (h : SoundWorld w) (i : ℕ) {f : Flight} (hf : validateCreate f.req = .ok ()) (phase : Phase) :
    SoundWorld (w.goes i f phase) :=
  ⟨h.rows, Pool.forall_set (P := fun g : Flight => validateCreate g.req = .ok ()) h.flights hf⟩

theorem SoundWorld.ends (h : SoundWorld w) (i : ℕ) : SoundWorld (w.ends i) :=
  ⟨h.rows, Pool.forall_eraseIdx (P := fun g : Flight => validateCreate g.req = .ok ()) h.flights⟩

theorem SoundWorld.replies (h : SoundWorld w) (i : ℕ) (req : CreatePromotion) (r : Except ApiError PromotionRow) :
    SoundWorld (w.replies i req r) := ⟨h.rows, (h.ends i).flights⟩

theorem SoundWorld.loyalty (h : SoundWorld w) (s : σ) : SoundWorld { w with loyalty := s } := ⟨h.rows, h.flights⟩

theorem SoundWorld.update (h : SoundWorld w) (id : String) {f : PromotionRow → PromotionRow} (hid : ∀ r, (f r).id = r.id)
    (hf : ∀ r, PromotionRow.Sound r → PromotionRow.Sound (f r)) :
    SoundWorld { w with promotions := w.promotions.update id f hid } := by
  refine ⟨fun p hp => ?_, h.flights⟩
  obtain ⟨q, hq, rfl⟩ := List.mem_map.mp hp
  split
  · exact hf q (h.rows q hq)
  · exact h.rows q hq

theorem runFlight_sound (h : SoundWorld w) (i : ℕ) (d : Draw) {f : Flight} (hf : validateCreate f.req = .ok ()) :
    SoundWorld (w.runFlight R i d f) := by
  obtain ⟨req, actor, phase⟩ := f
  cases phase with
  | reading =>
    simp only [World.runFlight]
    split
    · split
      · split
        · exact h.goes i hf _
        · exact h.replies i _ _
      · exact h.goes i hf _
    · exact h.replies i _ _
  | checking =>
    simp only [World.runFlight]
    split
    · split
      · exact h.replies i _ _
      · exact h.goes i hf _
    · exact h.replies i _ _
  | inserting =>
    simp only [World.runFlight]
    split
    · exact h.replies i _ _
    · rename_i promotions hinsert
      split at hinsert
      · obtain ⟨discountValue, -, hrow⟩ := insertPromotion_eq_ok hinsert
        have hrows : SoundWorld { w with promotions } := by
          refine ⟨fun p hp => ?_, h.flights⟩
          rw [(Table.rows_insert hrow).1, List.mem_append, List.mem_singleton] at hp
          rcases hp with hp | rfl
          · exact h.rows p hp
          · exact pendingRow_sound hf actor discountValue
        exact hrows.goes i hf _
      · cases hinsert
  | defining =>
    simp only [World.runFlight, World.define]
    split
    · rename_i hcall
      obtain ⟨rfl, -⟩ := Prod.mk.inj hcall
      exact (h.loyalty _).replies i _ _
    · rename_i hcall
      obtain ⟨rfl, -⟩ := Prod.mk.inj hcall
      exact (h.loyalty _).goes i hf _
  | coding =>
    simp only [World.runFlight]
    split
    · exact h.goes i hf _
    · simp only [World.bindCode]
      split
      · rename_i hcall
        obtain ⟨rfl, -⟩ := Prod.mk.inj hcall
        exact (h.loyalty _).replies i _ _
      · rename_i hcall
        obtain ⟨rfl, -⟩ := Prod.mk.inj hcall
        exact (h.loyalty _).goes i hf _
  | confirming =>
    simp only [World.runFlight]
    split
    · exact (h.update _ confirm_id fun _ => confirm_sound).goes i hf _
    · exact h.replies i _ _
  | readingBack =>
    simp only [World.runFlight]
    split
    · split
      · exact h.replies i _ _
      · exact h.replies i _ _
    · exact h.replies i _ _

theorem step_sound (w : World σ) (l : Label) (w' : World σ) (h : SoundWorld w) (hstep : w.step R l = some w') :
    SoundWorld w' := by
  cases l with
  | create configured actor req =>
    simp only [World.step] at hstep
    split at hstep
    · rename_i req' hopen
      cases hstep
      refine ⟨h.rows, Pool.forall_concat (P := fun g : Flight => validateCreate g.req = .ok ()) h.flights ?_⟩
      obtain ⟨⟨⟩, -, hopen⟩ := bind_eq_ok.mp hopen
      split at hopen
      · obtain ⟨⟨⟩, hvalid, hopen⟩ := bind_eq_ok.mp hopen
        cases hopen
        exact hvalid
      · cases hopen
    · cases hstep
      exact ⟨h.rows, h.flights⟩
  | run i d =>
    simp only [World.step, Option.map_eq_some_iff] at hstep
    obtain ⟨f, hf, rfl⟩ := hstep
    exact runFlight_sound h i d (h.flights f (List.mem_of_getElem? hf))
  | drop i =>
    cases hstep
    exact h.ends i
  | exhaust promotionId =>
    simp only [World.step] at hstep
    split at hstep
    · cases hstep
      exact h.update _ exhaust_id fun _ => exhaust_sound
    · cases hstep
  | elsewhere key c =>
    cases hstep
    exact h.loyalty _

theorem promotions_sound {labels : List Label} (h : SoundWorld w) (hrun : Steps.exec (World.step R) w labels = some w') :
    ∀ p ∈ w'.promotions.rows, PromotionRow.Sound p :=
  (Steps.exec_inv (step_sound) h hrun).rows

end Runs

structure EligibilityRow where
  promotionId : String
  customerId : String
  loyaltyOfferId : Option String

def EligibilityRow.pair (e : EligibilityRow) : String × String := (e.promotionId, e.customerId)

structure PromoDb where
  catalog : CatalogDb
  promotions : Promotions
  eligibility : Table EligibilityRow.pair fun k : String × String => k
  sound : ∀ p ∈ promotions.rows, PromotionRow.Sound p

def getByOfferDefinitionId (odId : String) (promotions : Promotions) : Option PromotionRow :=
  promotions.rows.find? fun p => p.offerDefinitionId = some odId

def isEligible (db : PromoDb) (promotionId customerId : String) : Prop :=
  (db.eligibility.find (promotionId, customerId)).isSome

instance (db : PromoDb) (promotionId customerId : String) : Decidable (isEligible db promotionId customerId) :=
  inferInstanceAs (Decidable (_ = true))

def getLoyaltyOfferId (db : PromoDb) (promotionId customerId : String) : Option String :=
  (db.eligibility.find (promotionId, customerId)).bind EligibilityRow.loyaltyOfferId

def listEligiblePromotions (co : Collation) (db : PromoDb) (customerId : String) : List PromotionRow :=
  Page.ordered (fun p => co.key p.id) (db.promotions.rows.filter fun p =>
    isEligible db p.id customerId ∧ p.state = .active ∧ p.audience = "targeted")

/-! ## Loyalty -/

structure CodeDoc where
  offerDefinitionId : Option String

structure OfferDoc where
  state : Option String
  offerDefinitionId : Option String

/-- Loyalty as the catalog reads it, beside the offers that a customer has there. -/
structure Loyalty where
  offers : String → List OfferDoc
  showPromoCode : String → Except ClientError CodeDoc
  /-- The `rows` of the reply. -/
  listOffers : String → ℕ → Except ClientError (Option (List OfferDoc))

def OfferDoc.used (o : OfferDoc) : Bool := o.state = some "claimed" || o.state = some "redeemed"

def usedIn (rows : List OfferDoc) : List String := (rows.filter OfferDoc.used).filterMap OfferDoc.offerDefinitionId

def consumedOfferDefinitions (loyalty : Loyalty) (customerId : String) : List String :=
  match loyalty.listOffers customerId 100 with
  | .ok rows => usedIn (rows.getD [])
  | .error _ => []

/-! ## Terms -/

structure AmountText where
  normalized : Decimal → String
  cents : Decimal → String

def discountLabel (text : AmountText) (discountType : String) (discountValue : Decimal) (currency : String) :
    Except String String :=
  match discountType with
  | "percent" => .ok s!"{text.normalized discountValue}% off"
  | "absolute" => .ok s!"{currency} {text.cents discountValue} off"
  | other => .error s!"unknown discount_type '{other}'"

structure Terms where
  discountType : String
  discountValue : Decimal
  durationKind : String
  periodsTotal : Option I16
  discountPeriodsTotal : ℤ
  base : Decimal
  effective : Decimal
  label : String
  name : Option String
  deriving DecidableEq

inductive Composed
  | reason (r : String)
  | terms (t : Terms)

/-- `.map_err(ApiError::Internal)?` -/
def orInternal {α : Type} : Except String α → Except ApiError α
  | .ok a => .ok a
  | .error e => .error (.internal e)

section

variable (co : Collation) (text : AmountText) (now : Time) (db : PromoDb)

def compose (promo : PromotionRow) (offeringId : String) : Except ApiError Composed :=
  if ∃ ids ∈ promo.applicableOfferingIds, offeringId ∉ ids then .ok (.reason "not_applicable_to_offering")
  else if ∃ start ∈ promo.validFrom, now < start then .ok (.reason "not_yet_valid")
  else if ∃ stop ∈ promo.validTo, stop ≤ now then .ok (.reason "expired")
  else
    match activePrice co db.catalog offeringId now with
    | none => .ok (.reason "offering_not_priced")
    | some price => do
      let effective ← orInternal (applyDiscount promo.discountType promo.discountValue price.amount)
      let label ← orInternal (discountLabel text promo.discountType promo.discountValue promo.currency)
      return .terms
        { discountType := promo.discountType
          discountValue := promo.discountValue
          durationKind := promo.durationKind
          periodsTotal := promo.periodsTotal
          discountPeriodsTotal := discountPeriodsTotal promo.durationKind promo.periodsTotal
          base := price.amount
          effective
          label
          name := promo.name }

/-! ## A typed code -/

structure ValidateResult where
  valid : Bool
  code : String
  offeringId : String
  reason : Option String
  offerDefinitionId : Option String
  loyaltyOfferId : Option String
  terms : Option Terms

/-- From the promotion on: eligibility, applicability, window and price. -/
def validatePromo (promo : PromotionRow) (odId offeringId : String) (customerId : Option String)
    (r : ValidateResult) : Except ApiError ValidateResult :=
  if promo.audience = "targeted" ∧ ¬ ∃ cid ∈ customerId, isEligible db promo.id cid then
    .ok { r with reason := some "not_eligible" }
  else do
    let loyaltyOfferId :=
      if promo.audience = "targeted" then customerId.bind (getLoyaltyOfferId db promo.id) else r.loyaltyOfferId
    match ← compose co text now db promo offeringId with
    | .reason reason => return { r with loyaltyOfferId, reason := some reason }
    | .terms terms => return { r with
        loyaltyOfferId, valid := true, offerDefinitionId := some odId, terms := some terms }

def validateForOrder (loyalty : Option Loyalty) (code offeringId : String) (customerId : Option String) :
    Except ApiError ValidateResult :=
  let r : ValidateResult := ⟨false, code, offeringId, none, none, none, none⟩
  match loyalty with
  | none => .ok { r with reason := some "loyalty_not_configured" }
  | some loyalty =>
    match loyalty.showPromoCode code with
    | .error (.notFound _) => .ok { r with reason := some "unknown_code" }
    | .error (.policy pv) => .ok { r with reason := some pv.rule }
    | .error e => .error (.internal s!"loyalty show_promo_code: {e.display}")
    | .ok shown =>
      let odId := shown.offerDefinitionId.getD ""
      if odId = "" then .ok { r with reason := some "unlinked_code" }
      else
        match getByOfferDefinitionId odId db.promotions with
        | some promo =>
          if promo.state = .active then validatePromo co text now db promo odId offeringId customerId r
          else .ok { r with reason := some "no_active_promotion" }
        | none => .ok { r with reason := some "no_active_promotion" }

/-! ## Without a code -/

structure ResolveResult where
  valid : Bool
  reason : Option String
  code : Option String
  promotionId : Option String
  offerDefinitionId : Option String
  loyaltyOfferId : Option String
  terms : Option Terms

def ResolveResult.refused (reason : String) : ResolveResult := ⟨false, some reason, none, none, none, none, none⟩

def ResolveResult.effective (r : ResolveResult) : Option Decimal := r.terms.map Terms.effective

/-- `Option<Decimal>` in its order, where `None` is the least. -/
def less : Option Decimal → Option Decimal → Bool
  | some a, some b => a < b
  | none, some _ => true
  | _, none => false

def candidate (customerId : String) (promo : PromotionRow) (terms : Terms) : ResolveResult where
  valid := true
  reason := none
  code := promo.code
  promotionId := some promo.id
  offerDefinitionId := promo.offerDefinitionId
  loyaltyOfferId := getLoyaltyOfferId db promo.id customerId
  terms := some terms

/-- A candidate counts when it is the first or cheaper than the best before it. -/
def keepBetter (best : Option ResolveResult) (r : ResolveResult) : Option ResolveResult :=
  match best with
  | none => some r
  | some b => if less r.effective b.effective then some r else some b

def considerPromo (consumed : List String) (customerId offeringId : String) (best : Option ResolveResult)
    (promo : PromotionRow) : Except ApiError (Option ResolveResult) :=
  if ∃ od ∈ promo.offerDefinitionId, od ∈ consumed then .ok best
  else do
    match ← compose co text now db promo offeringId with
    | .reason _ => return best
    | .terms terms => return keepBetter best (candidate db customerId promo terms)

def resolveEligiblePromo (loyalty : Option Loyalty) (customerId offeringId : String) :
    Except ApiError ResolveResult :=
  match loyalty with
  | none => .ok (.refused "loyalty_not_configured")
  | some loyalty => do
    let consumed := consumedOfferDefinitions loyalty customerId
    let best ← (listEligiblePromotions co db customerId).foldlM
      (considerPromo co text now db consumed customerId offeringId) none
    return best.getD (.refused "no_eligible_promo")

end

end BssCli.Catalog.Offers
