import BssCli.Common

/-!
# What a new promotion has to be

`validate_create` and the defaults that a targeted promotion gets before it.
-/

/-!
## How long a promotion lasts

The duration of a promotion, as the catalog checks it and as it counts the discounted
periods for an order.
-/

namespace BssCli.Catalog.Promo

/-- A `smallint`. -/
abbrev I16 := {x : ℤ // -2 ^ 15 ≤ x ∧ x < 2 ^ 15}

def durationKinds : List String := ["single", "multi", "perpetual"]

def i16Scalar (x : I16) : Scalar := .int x.val

/-- The part of `validate_create` that is about the duration. -/
def validateDuration (durationKind : String) (periodsTotal : Option I16) : Except ApiError Unit :=
  if durationKind ∉ durationKinds then .error (.policy
    { rule := "catalog.promotion.invalid_duration_kind"
      message := "duration_kind must be one of [\"multi\", \"perpetual\", \"single\"]"
      context := [("duration_kind", .str durationKind)] })
  else if durationKind = "multi" then
    if ∃ p ∈ periodsTotal, 2 ≤ p.val then .ok ()
    else .error (.policy
      { rule := "catalog.promotion.invalid_periods_total"
        message := "multi-period promo requires periods_total >= 2"
        context := [("periods_total", optValue i16Scalar periodsTotal)] })
  else if periodsTotal.isSome then .error (.policy
    { rule := "catalog.promotion.invalid_periods_total"
      message := s!"{durationKind} promo must not set periods_total"
      context := [("duration_kind", .str durationKind),
        ("periods_total", optValue i16Scalar periodsTotal)] })
  else .ok ()

def discountPeriodsTotal (durationKind : String) (periodsTotal : Option I16) : ℤ :=
  match durationKind with
  | "perpetual" => -1
  | "multi" => (periodsTotal.map Subtype.val).getD 0
  | _ => 1

/-- A promotion that was let in counts -1 or at least one period, and fits a `smallint`. -/
theorem discountPeriodsTotal_range {durationKind : String} {periodsTotal : Option I16}
    (h : validateDuration durationKind periodsTotal = .ok ()) :
    discountPeriodsTotal durationKind periodsTotal = -1 ∨
      1 ≤ discountPeriodsTotal durationKind periodsTotal ∧
        discountPeriodsTotal durationKind periodsTotal < 2 ^ 15 := by
  unfold discountPeriodsTotal
  split
  · exact Or.inl rfl
  · right
    unfold validateDuration at h
    rw [if_neg (by decide), if_pos rfl] at h
    split at h
    · rename_i hp
      obtain ⟨p, hp, hle⟩ := hp
      have := p.property
      rw [Option.mem_def.mp hp]
      simp only [Option.map_some, Option.getD_some]
      omega
    · simp at h
  · right
    omega

end BssCli.Catalog.Promo

namespace BssCli.Catalog.Promo

open Money

def discountTypes : List String := ["percent", "absolute"]

def audiences : List String := ["public", "targeted"]

def promoCodeKinds : List String :=
  ["single_use_unique_per_customer", "single_use_shared", "multi_use"]

structure CreatePromotion where
  promotionId : String
  discountType : String
  discountValue : Decimal
  durationKind : String
  audience : String
  currency : String
  code : Option String
  promoCodeKind : Option String
  applicableOfferingIds : Option (List String)
  periodsTotal : Option I16
  validFrom : Option Time
  validTo : Option Time
  displayName : Option String

/-- A targeted promotion has its own id for a code, one for each customer. -/
def CreatePromotion.withDefaults (req : CreatePromotion) : CreatePromotion :=
  if req.audience = "targeted" then
    { req with
      code := req.code.or (some req.promotionId)
      promoCodeKind := req.promoCodeKind.or (some "single_use_unique_per_customer") }
  else req

def validateAudience (audience : String) : Except ApiError Unit :=
  if audience ∉ audiences then .error (.policy
    { rule := "catalog.promotion.invalid_audience"
      message := "audience must be one of [\"public\", \"targeted\"]"
      context := [("audience", .str audience)] })
  else .ok ()

def invalidValue (message : String) (discountValue : Decimal) : ApiError :=
  .policy
    { rule := "catalog.promotion.invalid_discount_value"
      message
      context := [("discount_value", .dec discountValue)] }

/-- The whole price can go, in percent or as an amount. -/
def validateDiscount (discountType : String) (discountValue : Decimal) : Except ApiError Unit :=
  if discountType ∉ discountTypes then .error (.policy
    { rule := "catalog.promotion.invalid_discount_type"
      message := "discount_type must be one of [\"absolute\", \"percent\"]"
      context := [("discount_type", .str discountType)] })
  else if discountValue ≤ 0 then .error (invalidValue "discount_value must be positive" discountValue)
  else if discountType = "percent" ∧ 100 < discountValue then
    .error (invalidValue "percent discount cannot exceed 100" discountValue)
  else .ok ()

def validateCode (audience : String) (code promoCodeKind : Option String) : Except ApiError Unit :=
  if code.getD "" = "" then .error (.policy
    { rule := "catalog.promotion.requires_code"
      message := "a promotion requires a code (targeted codes are derived if omitted)"
      context := [("audience", .str audience)] })
  else if promoCodeKind.getD "" ∉ promoCodeKinds then .error (.policy
    { rule := "catalog.promotion.invalid_promo_code_kind"
      message := "promo_code_kind must be one of [\"multi_use\", \"single_use_shared\", " ++
        "\"single_use_unique_per_customer\"]"
      context := [("promo_code_kind", optValue .str promoCodeKind)] })
  else .ok ()

def validateCreate (req : CreatePromotion) : Except ApiError Unit := do
  validateAudience req.audience
  validateDiscount req.discountType req.discountValue
  validateDuration req.durationKind req.periodsTotal
  validateCode req.audience req.code req.promoCodeKind

theorem validateDiscount_eq_ok {discountType : String} {discountValue : Decimal} :
    validateDiscount discountType discountValue = .ok () ↔
      discountType ∈ discountTypes ∧ 0 < discountValue ∧
        (discountType = "percent" → discountValue ≤ 100) := by
  unfold validateDiscount
  split
  · simp_all
  · split
    · simp_all
    · split
      · simp_all
      · simp_all

theorem validateCreate_discount {req : CreatePromotion} (h : validateCreate req = .ok ()) :
    req.discountType ∈ discountTypes ∧ 0 < req.discountValue ∧
      (req.discountType = "percent" → req.discountValue ≤ 100) := by
  simp only [validateCreate, bind_eq_ok] at h
  obtain ⟨-, -, ⟨⟩, hdiscount, -⟩ := h
  exact validateDiscount_eq_ok.mp hdiscount

/-- With the defaults, a targeted promotion is never refused for want of a code. -/
theorem withDefaults_code {req : CreatePromotion} (hid : req.promotionId ≠ "")
    (htargeted : req.audience = "targeted") (hcode : req.code = none) (hkind : req.promoCodeKind = none) :
    validateCode req.audience req.withDefaults.code req.withDefaults.promoCodeKind = .ok () := by
  unfold CreatePromotion.withDefaults
  rw [if_pos htargeted, hcode, hkind]
  unfold validateCode
  rw [if_neg (by simpa using hid), if_neg (by simp [promoCodeKinds])]

end BssCli.Catalog.Promo
