import Mathlib.Data.Rat.Floor
import Mathlib.Tactic.Linarith
import Mathlib.Tactic.NormNum
import Mathlib.Tactic.Push
import Mathlib.Tactic.Ring

/-!
# Money

A `rust_decimal::Decimal` is the exact number it stands for. The columns are
`numeric(10,2)` and `numeric(12,2)`, so a stored amount has two decimals.
-/

namespace BssCli.Money

abbrev Decimal := ℚ

/-- `round_dp_with_strategy(2, MidpointAwayFromZero)`. Postgres rounds a value for a
`numeric(_, 2)` column the same way. -/
def roundDp2 (x : Decimal) : Decimal :=
  if x < 0 then -((⌊-x * 100 + 1 / 2⌋ : ℤ) / 100) else (⌊x * 100 + 1 / 2⌋ : ℤ) / 100

/-- `apply_discount`, the effective price. -/
def applyDiscount (discountType : String) (discountValue baseAmount : Decimal) :
    Except String Decimal :=
  if discountType = "percent" then
    .ok (roundDp2 (max (baseAmount * (100 - discountValue) / 100) 0))
  else if discountType = "absolute" then .ok (roundDp2 (max (baseAmount - discountValue) 0))
  else .error s!"unknown discount_type '{discountType}'"

/-- Two decimals at most. -/
def TwoPlaces (x : Decimal) : Prop := roundDp2 x = x

instance (x : Decimal) : Decidable (TwoPlaces x) := inferInstanceAs (Decidable (_ = _))

theorem floor_cents (n : ℤ) : ⌊(n : ℚ) + 1 / 2⌋ = n := by
  rw [Int.floor_eq_iff]
  constructor <;> linarith

theorem roundDp2_cents (n : ℤ) : roundDp2 (n / 100) = n / 100 := by
  have hpos : (n : ℚ) / 100 * 100 = n := by ring
  have hneg : -((n : ℚ) / 100) * 100 = ((-n : ℤ) : ℚ) := by push_cast; ring
  unfold roundDp2
  split
  · rw [hneg, floor_cents]; push_cast; ring
  · rw [hpos, floor_cents]

theorem roundDp2_eq_cents (x : Decimal) : ∃ n : ℤ, roundDp2 x = n / 100 := by
  unfold roundDp2
  split
  · exact ⟨-⌊-x * 100 + 1 / 2⌋, by push_cast; ring⟩
  · exact ⟨_, rfl⟩

theorem roundDp2_twoPlaces (x : Decimal) : TwoPlaces (roundDp2 x) := by
  obtain ⟨n, hn⟩ := roundDp2_eq_cents x
  rw [TwoPlaces, hn, roundDp2_cents]

theorem roundDp2_of_nonneg {x : Decimal} (h : 0 ≤ x) : roundDp2 x = (⌊x * 100 + 1 / 2⌋ : ℤ) / 100 :=
  if_neg (not_lt.mpr h)

theorem roundDp2_nonneg {x : Decimal} (h : 0 ≤ x) : 0 ≤ roundDp2 x := by
  rw [roundDp2_of_nonneg h]
  have hfloor : (0 : ℤ) ≤ ⌊x * 100 + 1 / 2⌋ := Int.floor_nonneg.mpr (by linarith)
  have : (0 : ℚ) ≤ (⌊x * 100 + 1 / 2⌋ : ℤ) := by exact_mod_cast hfloor
  linarith

/-- Ties are rounded the same way on both sides, so the order of two amounts is kept. -/
theorem roundDp2_mono {x y : Decimal} (hx : 0 ≤ x) (h : x ≤ y) : roundDp2 x ≤ roundDp2 y := by
  rw [roundDp2_of_nonneg hx, roundDp2_of_nonneg (hx.trans h)]
  have hfloor : ⌊x * 100 + 1 / 2⌋ ≤ ⌊y * 100 + 1 / 2⌋ := Int.floor_le_floor (by linarith)
  have : ((⌊x * 100 + 1 / 2⌋ : ℤ) : ℚ) ≤ (⌊y * 100 + 1 / 2⌋ : ℤ) := by exact_mod_cast hfloor
  linarith

theorem applyDiscount_twoPlaces {ty : String} {v base x : Decimal}
    (h : applyDiscount ty v base = .ok x) : TwoPlaces x := by
  unfold applyDiscount at h
  split at h
  · cases h; exact roundDp2_twoPlaces _
  · split at h
    · cases h; exact roundDp2_twoPlaces _
    · simp at h

end BssCli.Money
