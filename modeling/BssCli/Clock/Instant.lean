import BssCli.Lib.Calendar
import Mathlib.Data.String.Basic

/-!
# Instants

A `DateTime<Utc>` is a number of nanoseconds from 1970 on, in the years that chrono can hold. What leaves them panics. Leap seconds are
not told apart.
-/

open Calendar

namespace BssCli.Clock

def nanosPerDay : ℤ := 86400000000000

def epochDay : ℤ := yearStart 1970

def date (t : ℤ) : Date := dateOf (t / nanosPerDay + epochDay)

def midnight (d : Date) : ℤ := (dayOf d - epochDay) * nanosPerDay

/-- `DateTime::MIN_UTC` and `DateTime::MAX_UTC` -/
def minUtc : ℤ := midnight ⟨-262143, 1, 1⟩

def maxUtc : ℤ := midnight ⟨262143, 1, 1⟩ - 1

def Fits (t : ℤ) : Prop := minUtc ≤ t ∧ t ≤ maxUtc

instance (t : ℤ) : Decidable (Fits t) := inferInstanceAs (Decidable (_ ∧ _))

/-- `+` and `-`, and `none` where they panic. -/
def plus (t delta : ℤ) : Option ℤ := if Fits (t + delta) then some (t + delta) else none

def minus (t delta : ℤ) : Option ℤ := if Fits (t - delta) then some (t - delta) else none

theorem plus_eq_some {t r delta : ℤ} : plus t delta = some r ↔ Fits (t + delta) ∧ t + delta = r := by
  unfold plus
  split
  · rename_i h
    simp [h]
  · rename_i h
    simp [h]

theorem date_midnight {d : Date} (h : d.Valid) : date (midnight d) = d := by
  unfold date midnight nanosPerDay
  rw [Int.mul_ediv_cancel _ (by decide), Int.sub_add_cancel]
  exact dateOf_dayOf h

theorem midnight_le_iff {d : Date} {t : ℤ} : midnight d ≤ t ↔ dayOf d ≤ t / nanosPerDay + epochDay := by
  unfold midnight
  rw [← Int.le_ediv_iff_mul_le (by decide)]
  omega

/-- The instants are those of the years that chrono has. -/
theorem fits_iff (t : ℤ) : Fits t ↔ -262143 ≤ (date t).year ∧ (date t).year < 262143 := by
  have hyear : (date t).year = yearOf (t / nanosPerDay + epochDay) := rfl
  have hfirst : ∀ y, dayOf ⟨y, 1, 1⟩ = yearStart y := by
    intro y
    simp [dayOf]
  have hlow : minUtc ≤ t ↔ ¬ (date t).year < -262143 := by
    rw [minUtc, midnight_le_iff, hfirst, hyear, yearOf_lt_iff, Int.not_lt]
  have hhigh : t ≤ maxUtc ↔ (date t).year < 262143 := by
    have hcut : t ≤ maxUtc ↔ ¬ midnight ⟨262143, 1, 1⟩ ≤ t := by
      unfold maxUtc
      omega
    rw [hcut, midnight_le_iff, hfirst, hyear, yearOf_lt_iff, Int.not_le]
  unfold Fits
  rw [hlow, hhigh, Int.not_lt]

theorem midnight_valid_first {y : ℤ} {m : ℕ} (h : 1 ≤ m) (h' : m ≤ 12) : (⟨y, m, 1⟩ : Date).Valid := by
  have hpos : ∀ i < 12, ∃ l, (monthLengths y)[i]? = some l ∧ 1 ≤ l := by
    intro i hi
    have hlen : (monthLengths y).length = 12 := rfl
    refine ⟨(monthLengths y)[i], List.getElem?_eq_getElem (by omega), ?_⟩
    have hall : ∀ l ∈ monthLengths y, 1 ≤ l := by
      unfold monthLengths
      split
      all_goals decide
    exact hall _ (List.getElem_mem _)
  exact ⟨h, le_rfl, hpos (m - 1) (by omega)⟩

end BssCli.Clock

/-!
## Times as texts

`isoformat`: microseconds, and no fraction where it is zero. From year 0 to year 9999 the texts are in the order of the times.
-/

namespace BssCli.Clock

/-- The last `w` digits. -/
def fixed : ℕ → ℕ → List Char
  | 0, _ => []
  | w + 1, n => Nat.digitChar (n / 10 ^ w % 10) :: fixed w n

/-- chrono's `%Y`, with a sign outside of four digits. -/
def yearText (y : ℤ) : List Char :=
  if 0 ≤ y ∧ y ≤ 9999 then fixed 4 y.toNat
  else (if y < 0 then '-' else '+') :: (Nat.toDigits 10 y.natAbs).leftpad 4 '0'

def offset : List Char := ['+', '0', '0', ':', '0', '0']

/-- `%.6f`, and nothing for zero. -/
def fraction (micros : ℕ) : List Char := if micros = 0 then offset else '.' :: (fixed 6 micros ++ offset)

def timeText (hour minute second micros : ℕ) : List Char :=
  fixed 2 hour ++ ':' :: (fixed 2 minute ++ ':' :: (fixed 2 second ++ fraction micros))

def dateText (year : List Char) (month day : ℕ) (time : List Char) : List Char :=
  year ++ '-' :: (fixed 2 month ++ '-' :: (fixed 2 day ++ 'T' :: time))

def secondOf (t : ℤ) : ℕ := (t % nanosPerDay / 1000000000).toNat

/-- `timestamp_subsec_micros` -/
def microsOf (t : ℤ) : ℕ := (t % 1000000000 / 1000).toNat

def isoformat (t : ℤ) : String :=
  let time := timeText (secondOf t / 3600) (secondOf t / 60 % 60) (secondOf t % 60) (microsOf t)
  String.ofList (dateText (yearText (date t).year) (date t).month (date t).day time)

/-! ## The order of digits -/

theorem digitChar_lt {d e : ℕ} (h : d < e) (he : e < 10) : Nat.digitChar d < Nat.digitChar e := by
  have hall : ∀ d e : Fin 10, d < e → Nat.digitChar d < Nat.digitChar e := by decide
  exact hall ⟨d, by omega⟩ ⟨e, he⟩ h

theorem append_lt_append {a x y : List Char} (h : x < y) : a ++ x < a ++ y := by
  induction a with
  | nil => exact h
  | cons c a ih => exact List.cons_lt_cons_self.mpr ih

theorem fixed_lt {w n m : ℕ} {x y : List Char} (h : n % 10 ^ w < m % 10 ^ w) : fixed w n ++ x < fixed w m ++ y := by
  induction w with
  | zero => simp [Nat.mod_one] at h
  | succ w ih =>
    rw [Nat.mod_pow_succ, Nat.mod_pow_succ] at h
    have hm : m % 10 ^ w < 10 ^ w := Nat.mod_lt _ (Nat.pow_pos (by decide))
    show _ :: (fixed w n ++ x) < _ :: (fixed w m ++ y)
    rw [List.cons_lt_cons_iff]
    rcases Nat.lt_trichotomy (n / 10 ^ w % 10) (m / 10 ^ w % 10) with hlt | heq | hgt
    · exact .inl (digitChar_lt hlt (Nat.mod_lt _ (by decide)))
    · rw [heq] at h
      exact .inr ⟨by rw [heq], ih (by omega)⟩
    · have hmul : 10 ^ w * (m / 10 ^ w % 10 + 1) ≤ 10 ^ w * (n / 10 ^ w % 10) := Nat.mul_le_mul_left _ hgt
      rw [Nat.mul_succ] at hmul
      omega

/-- Numbers of one width, and what comes behind them. -/
theorem fixed_append_lt {w n m : ℕ} {x y : List Char} (hn : n < 10 ^ w) (hm : m < 10 ^ w) (h : n < m ∨ n = m ∧ x < y) :
    fixed w n ++ x < fixed w m ++ y := by
  rcases h with h | ⟨rfl, h⟩
  · refine fixed_lt ?_
    rwa [Nat.mod_eq_of_lt hn, Nat.mod_eq_of_lt hm]
  · exact append_lt_append h

/-- The fraction's dot is behind the offset's sign. -/
theorem fraction_lt {n m : ℕ} (hm : m < 10 ^ 6) (h : n < m) : fraction n < fraction m := by
  unfold fraction
  rw [if_neg (show m ≠ 0 by omega)]
  split
  · exact List.cons_lt_cons_iff.mpr (.inl (by decide))
  · exact List.cons_lt_cons_self.mpr (fixed_append_lt (h.trans hm) hm (.inl h))

/-! ## The order of times -/

theorem timeText_lt {h h' m m' s s' f f' : ℕ} (hh : h < 10 ^ 2) (hh' : h' < 10 ^ 2) (hm : m < 10 ^ 2) (hm' : m' < 10 ^ 2)
    (hs : s < 10 ^ 2) (hs' : s' < 10 ^ 2) (hf' : f' < 10 ^ 6)
    (hlt : h < h' ∨ h = h' ∧ (m < m' ∨ m = m' ∧ (s < s' ∨ s = s' ∧ f < f'))) : timeText h m s f < timeText h' m' s' f' := by
  refine fixed_append_lt hh hh' (hlt.imp_right fun ⟨heq, hlt⟩ => ⟨heq, List.cons_lt_cons_self.mpr ?_⟩)
  refine fixed_append_lt hm hm' (hlt.imp_right fun ⟨heq, hlt⟩ => ⟨heq, List.cons_lt_cons_self.mpr ?_⟩)
  exact fixed_append_lt hs hs' (hlt.imp_right fun ⟨heq, hlt⟩ => ⟨heq, fraction_lt hf' hlt⟩)

theorem dateText_lt {y y' m m' d d' : ℕ} {time time' : List Char} (hy : y < 10 ^ 4) (hy' : y' < 10 ^ 4) (hm : m < 10 ^ 2)
    (hm' : m' < 10 ^ 2) (hd : d < 10 ^ 2) (hd' : d' < 10 ^ 2)
    (hlt : y < y' ∨ y = y' ∧ (m < m' ∨ m = m' ∧ (d < d' ∨ d = d' ∧ time < time'))) :
    dateText (fixed 4 y) m d time < dateText (fixed 4 y') m' d' time' := by
  refine fixed_append_lt hy hy' (hlt.imp_right fun ⟨heq, hlt⟩ => ⟨heq, List.cons_lt_cons_self.mpr ?_⟩)
  refine fixed_append_lt hm hm' (hlt.imp_right fun ⟨heq, hlt⟩ => ⟨heq, List.cons_lt_cons_self.mpr ?_⟩)
  exact fixed_append_lt hd hd' (hlt.imp_right fun ⟨heq, hlt⟩ => ⟨heq, List.cons_lt_cons_self.mpr hlt⟩)

/-- An instant in whole microseconds, in a year of four digits. -/
structure Micro (t : ℤ) : Prop where
  whole : t % 1000 = 0
  low : 0 ≤ (date t).year
  high : (date t).year ≤ 9999

theorem secondOf_lt (t : ℤ) : secondOf t < 86400 := by
  unfold secondOf nanosPerDay
  omega

theorem microsOf_lt (t : ℤ) : microsOf t < 10 ^ 6 := by
  unfold microsOf
  omega

/-- Two instants of one day. -/
theorem time_lt {t t' : ℤ} (h : Micro t) (h' : Micro t') (hday : t / nanosPerDay = t' / nanosPerDay) (hlt : t < t') :
    timeText (secondOf t / 3600) (secondOf t / 60 % 60) (secondOf t % 60) (microsOf t) <
      timeText (secondOf t' / 3600) (secondOf t' / 60 % 60) (secondOf t' % 60) (microsOf t') := by
  have hs := secondOf_lt t
  have hs' := secondOf_lt t'
  have horder : secondOf t < secondOf t' ∨ secondOf t = secondOf t' ∧ microsOf t < microsOf t' := by
    have hwhole := h.whole
    have hwhole' := h'.whole
    unfold secondOf microsOf nanosPerDay at *
    omega
  refine timeText_lt (by omega) (by omega) (by omega) (by omega) (by omega) (by omega) (microsOf_lt t') ?_
  omega

theorem isoformat_lt {t t' : ℤ} (h : Micro t) (h' : Micro t') (hlt : t < t') : isoformat t < isoformat t' := by
  have hyear : ∀ u, Micro u → yearText (date u).year = fixed 4 (date u).year.toNat := fun u hu => if_pos ⟨hu.low, hu.high⟩
  have hlow := h.low
  have hhigh := h.high
  have hlow' := h'.low
  have hhigh' := h'.high
  have hmonth : ∀ n, (dateOf n).month < 10 ^ 2 := fun n => (dateOf_month_le n).trans_lt (by decide)
  have hday : ∀ n, (dateOf n).day < 10 ^ 2 := fun n => (dateOf_day_le n).trans_lt (by decide)
  unfold isoformat
  dsimp only
  rw [hyear t h, hyear t' h', String.lt_iff_toList_lt, String.toList_ofList, String.toList_ofList]
  refine dateText_lt (by omega) (by omega) (hmonth _) (hmonth _) (hday _) (hday _) ?_
  rcases Int.lt_or_eq_of_le (Int.ediv_le_ediv (by decide : (0 : ℤ) < nanosPerDay) hlt.le) with hd | hd
  · have hdate := dateOf_lt (n := t / nanosPerDay + epochDay) (m := t' / nanosPerDay + epochDay) (by omega)
    unfold date at *
    omega
  · have htime := time_lt h h' hd hlt
    unfold date
    rw [hd]
    exact .inr ⟨rfl, .inr ⟨rfl, .inr ⟨rfl, htime⟩⟩⟩

theorem isoformat_lt_iff {t t' : ℤ} (h : Micro t) (h' : Micro t') : isoformat t < isoformat t' ↔ t < t' := by
  refine ⟨fun hlt => ?_, isoformat_lt h h'⟩
  rcases Int.lt_trichotomy t t' with hcase | rfl | hcase
  · exact hcase
  · exact absurd hlt (String.lt_irrefl _)
  · exact absurd (isoformat_lt h' h hcase) (String.lt_asymm hlt)

theorem isoformat_inj {t t' : ℤ} (h : Micro t) (h' : Micro t') : isoformat t = isoformat t' ↔ t = t' := by
  refine ⟨fun heq => ?_, fun heq => congrArg isoformat heq⟩
  rcases Int.lt_trichotomy t t' with hcase | hcase | hcase
  · exact absurd (heq ▸ isoformat_lt h h' hcase) (String.lt_irrefl _)
  · exact hcase
  · exact absurd (heq ▸ isoformat_lt h' h hcase) (String.lt_irrefl _)

theorem isoformat_le_iff {t t' : ℤ} (h : Micro t) (h' : Micro t') : isoformat t ≤ isoformat t' ↔ t ≤ t' := by
  rw [← not_lt, isoformat_lt_iff h' h, Int.not_lt]

example : isoformat 1000 = "1970-01-01T00:00:00.000001+00:00" := by decide +kernel

end BssCli.Clock
