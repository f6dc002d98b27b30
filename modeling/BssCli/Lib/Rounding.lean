import Mathlib.Data.Int.Log
import Mathlib.Data.Rat.Floor
import Mathlib.Tactic.Linarith
import Mathlib.Tactic.NormNum
import Mathlib.Tactic.Ring

/-!
# Rounding

The nearest integer, ties to even, and with it the nearest number with a significand of 53
bits. The second is `f64` between the smallest normal number and the largest finite one.
-/

namespace Rounding

/-! ## The nearest integer -/

/-- The nearest integer. A tie goes to the even one. -/
def roundEven (x : ℚ) : ℤ :=
  if x + 1 / 2 = ⌊x + 1 / 2⌋ ∧ ⌊x + 1 / 2⌋ % 2 = 1 then ⌊x + 1 / 2⌋ - 1 else ⌊x + 1 / 2⌋

/-- The nearest integer. A tie goes up. -/
def roundUp (x : ℚ) : ℤ := ⌊x + 1 / 2⌋

/-- The two differ on the ties above an even number. -/
theorem roundEven_eq_roundUp_iff (x : ℚ) : roundEven x = roundUp x ↔ ∀ n : ℤ, x ≠ 2 * n + 1 / 2 := by
  unfold roundEven roundUp
  split
  · rename_i h
    refine iff_of_false (by omega) fun hne => hne ((⌊x + 1 / 2⌋ - 1) / 2) ?_
    have hodd : 2 * ((⌊x + 1 / 2⌋ - 1) / 2) = ⌊x + 1 / 2⌋ - 1 := by omega
    have hcast : (2 : ℚ) * ((⌊x + 1 / 2⌋ - 1) / 2 : ℤ) = ⌊x + 1 / 2⌋ - 1 := by exact_mod_cast hodd
    rw [hcast, ← h.1]
    ring
  · rename_i h
    refine iff_of_true rfl ?_
    rintro n rfl
    have hfloor : ⌊(2 * n + 1 / 2 : ℚ) + 1 / 2⌋ = 2 * n + 1 := by
      rw [Int.floor_eq_iff]
      push_cast
      constructor <;> linarith
    rw [hfloor] at h
    refine h ⟨?_, by omega⟩
    push_cast
    ring

theorem roundEven_intCast (n : ℤ) : roundEven n = n := by
  have hfloor : ⌊(n : ℚ) + 1 / 2⌋ = n := by
    rw [Int.floor_eq_iff]
    constructor <;> linarith
  unfold roundEven
  rw [hfloor, if_neg]
  rintro ⟨h, -⟩
  linarith

theorem roundEven_mono {x y : ℚ} (h : x ≤ y) : roundEven x ≤ roundEven y := by
  have hfloor : ⌊x + 1 / 2⌋ ≤ ⌊y + 1 / 2⌋ := Int.floor_le_floor (by linarith)
  rcases hfloor.lt_or_eq with hlt | heq
  · unfold roundEven
    split <;> split <;> omega
  · unfold roundEven
    rw [heq]
    by_cases hy : y + 1 / 2 = ⌊y + 1 / 2⌋ ∧ ⌊y + 1 / 2⌋ % 2 = 1
    · -- The larger one is the tie, so both are.
      have hx : x + 1 / 2 = ⌊y + 1 / 2⌋ := by
        have hle := Int.floor_le (x + 1 / 2)
        rw [heq] at hle
        linarith [hy.1]
      rw [if_pos hy, if_pos ⟨hx, hy.2⟩]
    · rw [if_neg hy]
      split <;> omega

theorem roundEven_nonneg {x : ℚ} (h : 0 ≤ x) : 0 ≤ roundEven x := by
  have := roundEven_mono h
  rwa [← Int.cast_zero, roundEven_intCast] at this

theorem roundEven_le {x : ℚ} {n : ℤ} (h : x ≤ n) : roundEven x ≤ n := by
  have := roundEven_mono h
  rwa [roundEven_intCast] at this

theorem le_roundEven {x : ℚ} {n : ℤ} (h : n ≤ x) : n ≤ roundEven x := by
  have := roundEven_mono h
  rwa [roundEven_intCast] at this

/-! ## The nearest number with 53 bits -/

def ulp (x : ℚ) : ℚ := 2 ^ (Int.log 2 x - 52)

theorem ulp_pos (x : ℚ) : 0 < ulp x := zpow_pos (by norm_num) _

def roundPos (x : ℚ) : ℚ := roundEven (x / ulp x) * ulp x

def roundF64 (x : ℚ) : ℚ := if x < 0 then -roundPos (-x) else roundPos x

theorem roundPos_zero : roundPos 0 = 0 := by
  rw [roundPos, zero_div, ← Int.cast_zero, roundEven_intCast, Int.cast_zero, zero_mul]

theorem roundPos_nonneg {x : ℚ} (h : 0 ≤ x) : 0 ≤ roundPos x := by
  have hround : (0 : ℚ) ≤ roundEven (x / ulp x) := by exact_mod_cast roundEven_nonneg (div_nonneg h (ulp_pos x).le)
  exact mul_nonneg hround (ulp_pos x).le

theorem ulp_mul (x : ℚ) (n : ℕ) : (2 : ℚ) ^ n * ulp x = 2 ^ (Int.log 2 x - 52 + n) := by
  rw [ulp, ← zpow_natCast, ← zpow_add₀ (by norm_num)]
  congr 1
  ring

theorem roundPos_le {x : ℚ} : roundPos x ≤ 2 ^ (Int.log 2 x + 1) := by
  have hlt : x < 2 ^ (Int.log 2 x + 1) := by exact_mod_cast Int.lt_zpow_succ_log_self (by norm_num) x
  have hscale : (2 : ℚ) ^ 53 * ulp x = 2 ^ (Int.log 2 x + 1) := by
    rw [ulp_mul]
    congr 1
    push_cast
    ring
  have hround : roundEven (x / ulp x) ≤ 2 ^ 53 := by
    refine roundEven_le ?_
    rw [div_le_iff₀ (ulp_pos x), Int.cast_pow, Int.cast_ofNat, hscale]
    exact hlt.le
  rw [roundPos, ← hscale]
  exact mul_le_mul_of_nonneg_right (by exact_mod_cast hround) (ulp_pos x).le

theorem le_roundPos {x : ℚ} (h : 0 < x) : 2 ^ Int.log 2 x ≤ roundPos x := by
  have hle : (2 : ℚ) ^ Int.log 2 x ≤ x := by exact_mod_cast Int.zpow_log_le_self (by norm_num) h
  have hscale : (2 : ℚ) ^ 52 * ulp x = 2 ^ Int.log 2 x := by
    rw [ulp_mul]
    congr 1
    push_cast
    ring
  have hround : 2 ^ 52 ≤ roundEven (x / ulp x) := by
    refine le_roundEven ?_
    rw [le_div_iff₀ (ulp_pos x), Int.cast_pow, Int.cast_ofNat, hscale]
    exact hle
  rw [roundPos, ← hscale]
  exact mul_le_mul_of_nonneg_right (by exact_mod_cast hround) (ulp_pos x).le

theorem roundPos_mono {x y : ℚ} (hx : 0 ≤ x) (h : x ≤ y) : roundPos x ≤ roundPos y := by
  rcases hx.lt_or_eq with hpos | rfl
  · rcases (Int.log_mono_right hpos h : Int.log 2 x ≤ Int.log 2 y).lt_or_eq with hlt | heq
    · calc roundPos x ≤ 2 ^ (Int.log 2 x + 1) := roundPos_le
        _ ≤ 2 ^ Int.log 2 y := zpow_le_zpow_right₀ (by norm_num) (by omega)
        _ ≤ roundPos y := le_roundPos (hpos.trans_le h)
    · have hulp : ulp x = ulp y := by rw [ulp, ulp, heq]
      have hround : roundEven (x / ulp y) ≤ roundEven (y / ulp y) :=
        roundEven_mono (div_le_div_of_nonneg_right h (ulp_pos y).le)
      rw [roundPos, roundPos, hulp]
      exact mul_le_mul_of_nonneg_right (by exact_mod_cast hround) (ulp_pos y).le
  · rw [roundPos_zero]
    exact roundPos_nonneg h

theorem roundF64_mono {x y : ℚ} (h : x ≤ y) : roundF64 x ≤ roundF64 y := by
  unfold roundF64
  split
  · rename_i hx
    split
    · rename_i hy
      exact neg_le_neg (roundPos_mono (by linarith) (by linarith))
    · rename_i hy
      have hneg := roundPos_nonneg (x := -x) (by linarith)
      have hpos := roundPos_nonneg (not_lt.mp hy)
      linarith
  · rename_i hx
    rw [if_neg (by linarith)]
    exact roundPos_mono (not_lt.mp hx) h

/-- A multiple of its last place is its own rounding. -/
theorem roundPos_of_mul {x : ℚ} (n : ℤ) (h : x = n * ulp x) : roundPos x = x := by
  have hquot : x / ulp x = n := by
    rw [div_eq_iff (ulp_pos x).ne']
    exact h
  rw [roundPos, hquot, roundEven_intCast]
  exact h.symm

theorem roundPos_lt {m : ℕ} {k : ℤ} (hm : m < 2 ^ 53) : roundPos (m * 2 ^ k) = m * 2 ^ k := by
  rcases m.eq_zero_or_pos with rfl | hpos
  · rw [Nat.cast_zero, zero_mul, roundPos_zero]
  · have hpow : (0 : ℚ) < 2 ^ k := zpow_pos (by norm_num) k
    have hx : (0 : ℚ) < m * 2 ^ k := mul_pos (by exact_mod_cast hpos) hpow
    have hlog : Int.log 2 ((m : ℚ) * 2 ^ k) < 53 + k := by
      rw [← Int.lt_zpow_iff_log_lt (by norm_num) hx, Nat.cast_ofNat, zpow_add₀ (by norm_num)]
      have hlt : (m : ℚ) < 2 ^ (53 : ℤ) := by exact_mod_cast hm
      exact mul_lt_mul_of_pos_right hlt hpow
    obtain ⟨j, hj⟩ := Int.eq_ofNat_of_zero_le (show 0 ≤ k - (Int.log 2 ((m : ℚ) * 2 ^ k) - 52) by omega)
    refine roundPos_of_mul (m * 2 ^ j) ?_
    have hk : k = (Int.log 2 ((m : ℚ) * 2 ^ k) - 52) + j := by omega
    calc (m : ℚ) * 2 ^ k = m * (2 ^ (Int.log 2 ((m : ℚ) * 2 ^ k) - 52) * 2 ^ (j : ℤ)) := by
          rw [← zpow_add₀ (by norm_num), ← hk]
      _ = _ := by
          rw [ulp, zpow_natCast]
          push_cast
          ring

theorem roundPos_exact {m : ℕ} {k : ℤ} (hm : m ≤ 2 ^ 53) : roundPos (m * 2 ^ k) = m * 2 ^ k := by
  rcases hm.lt_or_eq with hlt | rfl
  · exact roundPos_lt hlt
  · have hone : (((2 ^ 53 : ℕ) : ℚ) * 2 ^ k) = ((1 : ℕ) : ℚ) * 2 ^ (53 + k) := by
      rw [zpow_add₀ (by norm_num)]
      norm_num
    rw [hone]
    exact roundPos_lt (by norm_num)

/-- A number with 53 bits is its own rounding. -/
theorem roundF64_exact {m k : ℤ} (hm : |m| ≤ 2 ^ 53) : roundF64 (m * 2 ^ k) = m * 2 ^ k := by
  have hnat : m.natAbs ≤ 2 ^ 53 := by
    rw [Int.abs_eq_natAbs] at hm
    exact_mod_cast hm
  have h := roundPos_exact (k := k) hnat
  rw [Nat.cast_natAbs] at h
  have hpow : (0 : ℚ) < 2 ^ k := zpow_pos (by norm_num) k
  unfold roundF64
  rcases lt_or_ge m 0 with hneg | hpos
  · have hm' : (m : ℚ) < 0 := by exact_mod_cast hneg
    have hx : (m : ℚ) * 2 ^ k < 0 := mul_neg_of_neg_of_pos hm' hpow
    rw [abs_of_neg hneg] at h
    rw [if_pos hx, show -((m : ℚ) * 2 ^ k) = ((-m : ℤ) : ℚ) * 2 ^ k by push_cast; ring, h]
    push_cast
    ring
  · have hx : ¬ (m : ℚ) * 2 ^ k < 0 := not_lt.mpr (mul_nonneg (by exact_mod_cast hpos) hpow.le)
    rw [abs_of_nonneg hpos] at h
    rw [if_neg hx, h]

theorem roundF64_intCast {m : ℤ} (hm : |m| ≤ 2 ^ 53) : roundF64 m = m := by
  have h := roundF64_exact (k := 0) hm
  rwa [zpow_zero, mul_one] at h

theorem roundF64_le {x b : ℚ} (hb : roundF64 b = b) (h : x ≤ b) : roundF64 x ≤ b := by
  have := roundF64_mono h
  rwa [hb] at this

theorem le_roundF64 {x b : ℚ} (hb : roundF64 b = b) (h : b ≤ x) : b ≤ roundF64 x := by
  have := roundF64_mono h
  rwa [hb] at this

/-- A number that is its own rounding lies on the grid of its last place, so on every finer one. -/
theorem exists_grid {x : ℚ} {k : ℤ} (h : roundF64 x = x) (hx : 2 ^ (k + 52) ≤ x) : ∃ m : ℤ, x = m * 2 ^ k := by
  have hpos : 0 < x := (zpow_pos (by norm_num) _).trans_le hx
  have hlog : k + 52 ≤ Int.log 2 x := by
    rw [← Int.zpow_le_iff_le_log (by norm_num) hpos]
    exact_mod_cast hx
  obtain ⟨j, hj⟩ := Int.eq_ofNat_of_zero_le (show 0 ≤ Int.log 2 x - 52 - k by omega)
  rw [roundF64, if_neg (not_lt.mpr hpos.le), roundPos] at h
  have hulp : ulp x = 2 ^ j * 2 ^ k := by
    rw [ulp, ← zpow_natCast, ← zpow_add₀ (by norm_num)]
    congr 1
    omega
  refine ⟨roundEven (x / ulp x) * 2 ^ j, ?_⟩
  rw [hulp] at h
  push_cast
  rw [mul_assoc, hulp]
  exact h.symm

/-! On a grid with room for one more step, a bound holds of a number when it holds of its
rounding. -/

theorem grid_le_iff {m c k : ℤ} : (m : ℚ) * 2 ^ k ≤ c * 2 ^ k ↔ m ≤ c := by
  rw [mul_le_mul_iff_left₀ (zpow_pos (by norm_num) k), Int.cast_le]

theorem roundF64_le_iff {m c k : ℤ} (hc : |c| < 2 ^ 53) : roundF64 (m * 2 ^ k) ≤ c * 2 ^ k ↔ m ≤ c := by
  constructor
  · intro h
    by_contra hlt
    have hstep : |c + 1| ≤ 2 ^ 53 := abs_le.mpr (by rw [abs_lt] at hc; omega)
    have hround : ((c + 1 : ℤ) : ℚ) * 2 ^ k ≤ roundF64 (m * 2 ^ k) :=
      le_roundF64 (roundF64_exact hstep) (grid_le_iff.mpr (by omega))
    have := grid_le_iff.mp (hround.trans h)
    omega
  · exact fun h => roundF64_le (roundF64_exact hc.le) (grid_le_iff.mpr h)

theorem le_roundF64_iff {m c k : ℤ} (hc : |c| < 2 ^ 53) : c * 2 ^ k ≤ roundF64 (m * 2 ^ k) ↔ c ≤ m := by
  constructor
  · intro h
    by_contra hlt
    have hstep : |c - 1| ≤ 2 ^ 53 := abs_le.mpr (by rw [abs_lt] at hc; omega)
    have hround : roundF64 (m * 2 ^ k) ≤ ((c - 1 : ℤ) : ℚ) * 2 ^ k :=
      roundF64_le (roundF64_exact hstep) (grid_le_iff.mpr (by omega))
    have := grid_le_iff.mp (h.trans hround)
    omega
  · exact fun h => le_roundF64 (roundF64_exact hc.le) (grid_le_iff.mpr h)

theorem abs_roundF64_le_iff {m c k : ℤ} (hc : |c| < 2 ^ 53) :
    |roundF64 (m * 2 ^ k)| ≤ c * 2 ^ k ↔ |(m : ℚ) * 2 ^ k| ≤ c * 2 ^ k := by
  have hneg : |-c| < 2 ^ 53 := by rwa [abs_neg]
  have hcast : -((c : ℚ) * 2 ^ k) = ((-c : ℤ) : ℚ) * 2 ^ k := by
    push_cast
    ring
  rw [abs_le, abs_le, hcast, roundF64_le_iff hc, le_roundF64_iff hneg, grid_le_iff, grid_le_iff]

end Rounding
