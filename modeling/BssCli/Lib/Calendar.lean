import Mathlib.Algebra.BigOperators.Group.List.Basic
import Mathlib.Algebra.Ring.Nat
import Mathlib.Data.Int.Notation

/-!
# The calendar

The Gregorian calendar, carried back and forth without end. Day 0 is the first day of the year 0. Days are in the order of
their dates, year first.
-/

namespace Calendar

/-! ## Years -/

def isLeap (y : ℤ) : Bool := y % 4 = 0 && (y % 100 ≠ 0 || y % 400 = 0)

/-- The days before the year. -/
def yearStart (y : ℤ) : ℤ := 365 * y + (y + 3) / 4 - (y + 99) / 100 + (y + 399) / 400

theorem yearStart_succ (y : ℤ) : yearStart (y + 1) = yearStart y + if isLeap y then 366 else 365 := by
  unfold yearStart isLeap
  simp only [Bool.and_eq_true, Bool.or_eq_true, decide_eq_true_eq]
  split
  all_goals omega

theorem yearStart_mono {y z : ℤ} (h : y ≤ z) : yearStart y ≤ yearStart z := by
  unfold yearStart
  omega

/-- A year that is off by one at most, put right. -/
def yearOf (n : ℤ) : ℤ :=
  let g := 400 * n / 146097
  if n < yearStart g then g - 1 else if yearStart (g + 1) ≤ n then g + 1 else g

theorem yearOf_spec (n : ℤ) : yearStart (yearOf n) ≤ n ∧ n < yearStart (yearOf n + 1) := by
  have hguess : 146097 * (400 * n / 146097) ≤ 400 * n ∧ 400 * n < 146097 * (400 * n / 146097) + 146097 := by omega
  unfold yearOf
  dsimp only
  generalize 400 * n / 146097 = g at *
  split
  · rw [show g - 1 + 1 = g by omega]
    unfold yearStart at *
    omega
  · split
    · unfold yearStart at *
      omega
    · omega

theorem yearOf_eq {n y : ℤ} (h : yearStart y ≤ n) (h' : n < yearStart (y + 1)) : yearOf n = y := by
  obtain ⟨hlow, hhigh⟩ := yearOf_spec n
  have hle : yearOf n < y + 1 := by
    by_contra hcon
    have := yearStart_mono (Int.not_lt.mp hcon)
    omega
  have hge : y < yearOf n + 1 := by
    by_contra hcon
    have := yearStart_mono (Int.not_lt.mp hcon)
    omega
  omega

theorem yearOf_lt_iff {n y : ℤ} : yearOf n < y ↔ n < yearStart y := by
  obtain ⟨hlow, hhigh⟩ := yearOf_spec n
  constructor
  · intro h
    have := yearStart_mono (show yearOf n + 1 ≤ y from h)
    omega
  · intro h
    by_contra hcon
    have := yearStart_mono (Int.not_lt.mp hcon)
    omega

theorem yearOf_mono {n m : ℤ} (h : n ≤ m) : yearOf n ≤ yearOf m := by
  have hn := yearOf_spec n
  have hm := yearOf_spec m
  by_contra hcon
  have := yearStart_mono (show yearOf m + 1 ≤ yearOf n by omega)
  omega

/-! ## Places in a row of lengths -/

/-- In which of the lengths the number falls, and where. -/
def place : List ℕ → ℕ → ℕ × ℕ
  | [], k => (0, k)
  | l :: ls, k => if k < l then (0, k) else ((place ls (k - l)).1 + 1, (place ls (k - l)).2)

theorem place_spec {ls : List ℕ} {k : ℕ} (h : k < ls.sum) :
    ∃ l, ls[(place ls k).1]? = some l ∧ (place ls k).2 < l ∧ (ls.take (place ls k).1).sum + (place ls k).2 = k := by
  induction ls generalizing k with
  | nil => exact absurd h (Nat.not_lt_zero k)
  | cons l ls ih =>
    unfold place
    split
    · rename_i hk
      exact ⟨l, rfl, hk, by simp⟩
    · rename_i hk
      rw [List.sum_cons] at h
      obtain ⟨l', hl', hlt, hsum⟩ := ih (k := k - l) (by omega)
      refine ⟨l', hl', hlt, ?_⟩
      rw [List.take_succ_cons, List.sum_cons]
      omega

theorem place_eq {ls : List ℕ} {i r l : ℕ} (hl : ls[i]? = some l) (hr : r < l) : place ls ((ls.take i).sum + r) = (i, r) := by
  induction ls generalizing i with
  | nil => cases hl
  | cons l' ls ih =>
    cases i with
    | zero =>
      obtain rfl : l' = l := by simpa using hl
      simp [place, hr]
    | succ i =>
      have hnext := ih (i := i) hl
      rw [List.take_succ_cons, List.sum_cons, place, if_neg (by omega), show l' + (ls.take i).sum + r - l' = (ls.take i).sum + r by omega,
        hnext]

theorem place_lt (ls : List ℕ) {k k' : ℕ} (h : k < k') :
    (place ls k).1 < (place ls k').1 ∨ (place ls k).1 = (place ls k').1 ∧ (place ls k).2 < (place ls k').2 := by
  induction ls generalizing k k' with
  | nil => exact .inr ⟨rfl, h⟩
  | cons l ls ih =>
    unfold place
    split
    · split
      · exact .inr ⟨rfl, h⟩
      · exact .inl (Nat.succ_pos _)
    · split
      · omega
      · rcases ih (show k - l < k' - l by omega) with hlt | ⟨heq, hlt⟩
        · exact .inl (Nat.succ_lt_succ hlt)
        · exact .inr ⟨congrArg Nat.succ heq, hlt⟩

/-! ## Dates -/

/-- Months and days count from 1. -/
structure Date where
  year : ℤ
  month : ℕ
  day : ℕ
  deriving DecidableEq

def monthLengths (y : ℤ) : List ℕ := [31, if isLeap y then 29 else 28, 31, 30, 31, 30, 31, 31, 30, 31, 30, 31]

theorem sum_monthLengths (y : ℤ) : (monthLengths y).sum = if isLeap y then 366 else 365 := by
  unfold monthLengths
  split
  all_goals rfl

def dateOf (n : ℤ) : Date :=
  let p := place (monthLengths (yearOf n)) (n - yearStart (yearOf n)).toNat
  ⟨yearOf n, p.1 + 1, p.2 + 1⟩

def dayOf (d : Date) : ℤ := yearStart d.year + ((monthLengths d.year).take (d.month - 1)).sum + (d.day - 1)

/-- The month and its day exist. -/
structure Date.Valid (d : Date) : Prop where
  month : 1 ≤ d.month
  day : 1 ≤ d.day
  length : ∃ l, (monthLengths d.year)[d.month - 1]? = some l ∧ d.day ≤ l

theorem offset_lt (n : ℤ) : (n - yearStart (yearOf n)).toNat < (monthLengths (yearOf n)).sum := by
  have h := yearOf_spec n
  rw [yearStart_succ] at h
  rw [sum_monthLengths]
  split at h
  · rename_i hleap
    rw [if_pos hleap]
    omega
  · rename_i hleap
    rw [if_neg hleap]
    omega

theorem dateOf_valid (n : ℤ) : (dateOf n).Valid := by
  obtain ⟨l, hl, hlt, -⟩ := place_spec (offset_lt n)
  exact ⟨Nat.succ_pos _, Nat.succ_pos _, l, hl, hlt⟩

theorem dateOf_dayOf {d : Date} (h : d.Valid) : dateOf (dayOf d) = d := by
  obtain ⟨hmonth, hday, l, hl, hle⟩ := h
  obtain ⟨i, hi⟩ : ∃ i, d.month = i + 1 := ⟨d.month - 1, by omega⟩
  obtain ⟨r, hr⟩ : ∃ r, d.day = r + 1 := ⟨d.day - 1, by omega⟩
  rw [hi, Nat.add_sub_cancel] at hl
  have hplace := place_eq hl (show r < l by omega)
  have hday : dayOf d = yearStart d.year + (((monthLengths d.year).take i).sum + r : ℕ) := by
    unfold dayOf
    rw [hi, hr, Nat.add_sub_cancel]
    push_cast
    omega
  have hsplit : ((monthLengths d.year).take i).sum + l + ((monthLengths d.year).drop (i + 1)).sum = (monthLengths d.year).sum := by
    obtain ⟨hlt, hget⟩ := List.getElem?_eq_some_iff.mp hl
    rw [← List.sum_take_add_sum_drop (monthLengths d.year) i, List.drop_eq_getElem_cons hlt, List.sum_cons, hget, Nat.add_assoc]
  have hyear : yearOf (dayOf d) = d.year := by
    apply yearOf_eq
    · omega
    · rw [sum_monthLengths] at hsplit
      rw [yearStart_succ, hday]
      split
      · rename_i hleap
        rw [if_pos hleap] at hsplit
        omega
      · rename_i hleap
        rw [if_neg hleap] at hsplit
        omega
  unfold dateOf
  have hoffset : (dayOf d - yearStart d.year).toNat = ((monthLengths d.year).take i).sum + r := by omega
  rw [hyear, hoffset, hplace]
  dsimp only
  rw [← hi, ← hr]

/-- Days are in the order of their dates. -/
theorem dateOf_lt {n m : ℤ} (h : n < m) :
    (dateOf n).year < (dateOf m).year ∨ (dateOf n).year = (dateOf m).year ∧
      ((dateOf n).month < (dateOf m).month ∨ (dateOf n).month = (dateOf m).month ∧ (dateOf n).day < (dateOf m).day) := by
  rcases Int.lt_or_eq_of_le (yearOf_mono (Int.le_of_lt h)) with hlt | heq
  · exact .inl hlt
  · refine .inr ⟨heq, ?_⟩
    have hn := (yearOf_spec n).1
    unfold dateOf
    dsimp only
    rw [← heq]
    have hoffset : (n - yearStart (yearOf n)).toNat < (m - yearStart (yearOf n)).toNat := by omega
    rcases place_lt (monthLengths (yearOf n)) hoffset with hlt | ⟨heq, hlt⟩
    · exact .inl (Nat.succ_lt_succ hlt)
    · exact .inr ⟨congrArg Nat.succ heq, Nat.succ_lt_succ hlt⟩

theorem dateOf_month_le (n : ℤ) : (dateOf n).month ≤ 12 := by
  obtain ⟨l, hl, -⟩ := (dateOf_valid n).length
  have := (List.getElem?_eq_some_iff.mp hl).1
  have hlen : (monthLengths (dateOf n).year).length = 12 := rfl
  omega

theorem dateOf_day_le (n : ℤ) : (dateOf n).day ≤ 31 := by
  obtain ⟨l, hl, hle⟩ := (dateOf_valid n).length
  have hall : ∀ l ∈ monthLengths (dateOf n).year, l ≤ 31 := by
    unfold monthLengths
    split
    all_goals decide
  exact hle.trans (hall l (List.mem_of_getElem? hl))

end Calendar
