import BssCli.Catalog.Create
import BssCli.Payment.Methods
import BssCli.Subscription.Create

/-!
# A promotion and the payment guard

The catalog checks a promotion on its own, before any price is known. The discount stops at
zero, and the payment service takes no charge of zero.
-/

namespace BssCli.Catalog.Promo

open Money Payment Subscription

/-- The discounted price passes the guard of the payment service. -/
def Chargeable (discountType : String) (discountValue price : Decimal) : Prop :=
  ∃ amount, applyDiscount discountType discountValue price = .ok amount ∧
    ∀ text, checkPositiveAmount amount text = .ok ()

/-- At least half a cent is left of the price. -/
def LeavesHalfCent (discountType : String) (discountValue price : Decimal) : Prop :=
  1 / 200 ≤
    if discountType = "percent" then price * (100 - discountValue) / 100 else price - discountValue

instance (discountType : String) (discountValue price : Decimal) :
    Decidable (LeavesHalfCent discountType discountValue price) := inferInstanceAs (Decidable (_ ≤ _))

theorem roundDp2_max_pos {x : Decimal} : 0 < roundDp2 (max x 0) ↔ 1 / 200 ≤ x := by
  have hnonneg : ¬ max x 0 < 0 := not_lt.mpr (le_max_right x 0)
  unfold roundDp2
  rw [if_neg hnonneg]
  constructor
  · intro h
    have hfloor : (0 : ℚ) < (⌊max x 0 * 100 + 1 / 2⌋ : ℤ) := by linarith
    have hone : (1 : ℤ) ≤ ⌊max x 0 * 100 + 1 / 2⌋ := by exact_mod_cast hfloor
    have hhalf := Int.le_floor.mp hone
    rcases le_total x 0 with hx | hx
    · rw [max_eq_right hx] at hhalf
      norm_num at hhalf
    · rw [max_eq_left hx] at hhalf
      push_cast at hhalf
      linarith
  · intro h
    have hx : (0 : ℚ) ≤ x := by linarith
    rw [max_eq_left hx]
    have hone : (1 : ℤ) ≤ ⌊x * 100 + 1 / 2⌋ := Int.le_floor.mpr (by push_cast; linarith)
    have hfloor : (1 : ℚ) ≤ (⌊x * 100 + 1 / 2⌋ : ℤ) := by exact_mod_cast hone
    linarith

theorem chargeable_iff {discountType : String} (h : discountType ∈ discountTypes)
    (discountValue price : Decimal) :
    Chargeable discountType discountValue price ↔
      LeavesHalfCent discountType discountValue price := by
  have hguard : ∀ amount : Decimal,
      (∀ text, checkPositiveAmount amount text = .ok ()) ↔ 0 < amount := by
    simp [checkPositiveAmount_eq_ok]
  unfold Chargeable LeavesHalfCent applyDiscount
  simp only [hguard]
  simp only [discountTypes, List.mem_cons, List.not_mem_nil, or_false] at h
  rcases h with rfl | rfl
  · simp [roundDp2_max_pos]
  · simp [roundDp2_max_pos]

theorem half_cent_le_sub {a b : Decimal} (ha : TwoPlaces a) (hb : TwoPlaces b) :
    1 / 200 ≤ a - b ↔ b < a := by
  obtain ⟨m, hm⟩ := roundDp2_eq_cents a
  obtain ⟨n, hn⟩ := roundDp2_eq_cents b
  rw [TwoPlaces] at ha hb
  rw [← ha, ← hb, hm, hn]
  constructor
  · intro h
    linarith
  · intro h
    have hlt : n < m := by
      have : (n : ℚ) < m := by linarith
      exact_mod_cast this
    have hle : (n : ℚ) + 1 ≤ m := by exact_mod_cast hlt
    linarith

/-- Activation and renewal charge what `apply_discount` says. -/
theorem discounted_charge {discountType : String} {discountValue price amount : Decimal}
    (h : applyDiscount discountType discountValue price = .ok amount) :
    activationCharge (some discountType) (some discountValue) price = .ok amount ∧
      ∀ sub : SubscriptionRow, sub.discountType = some discountType →
        sub.discountValue = some discountValue → renewalCharge sub true price = .ok amount := by
  constructor
  · simp [activationCharge, h]
  · intro sub hty hvalue
    simp [renewalCharge, hty, hvalue, h]

theorem numeric12_eq_ok {x stored : Decimal} (h : numeric12 x = .ok stored) : TwoPlaces stored := by
  unfold numeric12 at h
  split at h
  · cases h
    exact roundDp2_twoPlaces x
  · cases h

/-- **When a promotion can be charged.** For the value of an accepted request, as it came
and as it is stored, the discounted price passes the payment guard exactly when half a cent
of it is left. A stored amount has to be less than the price. -/
theorem promo_chargeable (req : CreatePromotion) (h : validateCreate req = .ok ()) :
    (∀ price, Chargeable req.discountType req.discountValue price ↔
      LeavesHalfCent req.discountType req.discountValue price) ∧
    ∀ stored price, numeric12 req.discountValue = .ok stored → TwoPlaces price →
      (Chargeable req.discountType stored price ↔
        if req.discountType = "percent" then 1 / 200 ≤ price * (100 - stored) / 100
        else stored < price) := by
  obtain ⟨hty, -, -⟩ := validateCreate_discount h
  refine ⟨chargeable_iff hty _, fun stored price hstored hprice => ?_⟩
  rw [chargeable_iff hty, LeavesHalfCent]
  split
  · exact Iff.rfl
  · exact half_cent_le_sub hprice (numeric12_eq_ok hstored)

def samplePromo (discountType : String) (discountValue : Decimal) : CreatePromotion where
  promotionId := "PROMO_X"
  discountType
  discountValue
  durationKind := "single"
  audience := "public"
  currency := "SGD"
  code := some "CODE_X"
  promoCodeKind := some "single_use_shared"
  applicableOfferingIds := none
  periodsTotal := none
  validFrom := none
  validTo := none
  displayName := none

theorem promo_chargeable_twenty : Chargeable "percent" 20 25 :=
  ((promo_chargeable (samplePromo "percent" 20) (by decide +kernel)).1 25).mpr (by decide +kernel)

/-- The catalog accepts a discount of the whole price, and of more than the price. -/
theorem promo_free_refused :
    validateCreate (samplePromo "percent" 100) = .ok () ∧ ¬ Chargeable "percent" 100 25 ∧
      validateCreate (samplePromo "absolute" 30) = .ok () ∧ ¬ Chargeable "absolute" 30 25 := by
  refine ⟨by decide +kernel, ?_, by decide +kernel, ?_⟩
  · rw [chargeable_iff (by decide)]
    decide +kernel
  · rw [chargeable_iff (by decide)]
    decide +kernel

end BssCli.Catalog.Promo
