import BssCli.Lib.Steps
import BssCli.Subscription.Policies

/-!
# One balance under machine arithmetic

A balance from the plan, and any sequence of usage, top-ups, checks and renewals on it. The
quantities are any `i64`, and a sum that leaves its range wraps.
-/

namespace BssCli.Subscription.Bounds

open Steps

/-- What a plan can grant: a quantity, or no limit. -/
abbrev PlanTotal := {x : ℤ // FitsI64 x ∧ (x = unlimited ∨ 0 ≤ x)}

inductive Op
  | consume (quantity : I64)
  | addAllowance (quantity : I64)
  | remaining
  | checkRoaming (subscriptionId : String) (quantity : I64)
  | reset (total : PlanTotal) (now periodEnd : Time)

/-- What the caller stores. A check stores nothing. -/
def step (b : BundleBalanceRow) : Op → Option BundleBalanceRow
  | .consume q => some (b.setConsumed (consume b.snapshot q).consumed)
  | .addAllowance q => some (b.setTotal (addAllowance b.snapshot q).total)
  | .remaining | .checkRoaming _ _ => some b
  | .reset total now periodEnd => some (b.resetPeriod total now periodEnd)

/-- The exact results of the sums and differences on the way. -/
def results (b : BundleBalanceRow) : Op → List ℤ
  | .consume q => if q.val ≤ 0 ∨ b.total = unlimited then [] else [b.consumed + q]
  | .addAllowance q => if q.val ≤ 0 ∨ b.total = unlimited then [] else [b.total + q]
  | .remaining | .checkRoaming _ _ => if b.total = unlimited then [] else [b.total - b.consumed]
  | .reset _ _ _ => []

def Overflows (b : BundleBalanceRow) (op : Op) : Prop := ∃ x ∈ results b op, ¬ FitsI64 x

structure Bounded (b : BundleBalanceRow) : Prop where
  fits : FitsI64 b.total
  finite : b.total ≠ unlimited → 0 ≤ b.consumed ∧ b.consumed ≤ b.total

/-- Only a renewal may lift the limit. -/
def KeepsLimit (b b' : BundleBalanceRow) : Op → Prop
  | .reset _ _ _ => True
  | _ => b.total ≠ unlimited → b'.total ≠ unlimited

/-- No sum leaves the range, and the balance stays in its bounds. -/
def Safe (b : BundleBalanceRow) (op : Op) : Prop :=
  ¬ Overflows b op ∧ ∀ b' ∈ step b op, Bounded b' ∧ KeepsLimit b b' op

/-- A positive quantity finds room above what is used, or above the total. -/
def Room (b : BundleBalanceRow) : Op → Prop
  | .consume q => 0 < q.val ∧ b.total ≠ unlimited → q.val < 2 ^ 63 - b.consumed
  | .addAllowance q => 0 < q.val ∧ b.total ≠ unlimited → q.val < 2 ^ 63 - b.total
  | _ => True

instance (b : BundleBalanceRow) : ∀ op, Decidable (Room b op)
  | .consume q => inferInstanceAs (Decidable (0 < q.val ∧ _ → _))
  | .addAllowance q => inferInstanceAs (Decidable (0 < q.val ∧ _ → _))
  | .remaining | .checkRoaming _ _ | .reset _ _ _ => inferInstanceAs (Decidable True)

def fresh (b : BundleBalanceRow) (total : PlanTotal) : BundleBalanceRow := { b with total, consumed := 0 }

theorem fresh_bounded (b : BundleBalanceRow) (total : PlanTotal) : Bounded (fresh b total) := by
  obtain ⟨x, hfits, hx⟩ := total
  refine ⟨hfits, fun hne => ⟨le_refl _, ?_⟩⟩
  have hne' : x ≠ unlimited := hne
  show 0 ≤ x
  tauto

/-! ## One step -/

theorem step_consume_idle {b : BundleBalanceRow} {q : I64} (h : q.val ≤ 0 ∨ b.total = unlimited) :
    step b (.consume q) = some b := by
  have hidle : consume b.snapshot q = b.snapshot := if_pos h
  rw [step, hidle]
  rfl

theorem step_addAllowance_idle {b : BundleBalanceRow} {q : I64} (h : q.val ≤ 0 ∨ b.total = unlimited) :
    step b (.addAllowance q) = some b := by
  have hidle : addAllowance b.snapshot q = b.snapshot := if_pos h
  rw [step, hidle]
  rfl

theorem step_consume {b : BundleBalanceRow} {q : I64} (h : ¬(q.val ≤ 0 ∨ b.total = unlimited))
    (hfits : FitsI64 (b.consumed + q)) :
    step b (.consume q) = some (b.setConsumed (min (b.consumed + q) b.total)) := by
  have hsum : consume b.snapshot q = { b.snapshot with consumed := min (i64 (b.consumed + q)) b.total } :=
    if_neg h
  rw [step, hsum, i64_of_fits hfits]

theorem step_addAllowance {b : BundleBalanceRow} {q : I64} (h : ¬(q.val ≤ 0 ∨ b.total = unlimited))
    (hfits : FitsI64 (b.total + q)) : step b (.addAllowance q) = some (b.setTotal (b.total + q)) := by
  have hsum : addAllowance b.snapshot q = { b.snapshot with total := i64 (b.total + q) } := if_neg h
  rw [step, hsum, i64_of_fits hfits]

/-- An operation that makes one sum is safe when the sum fits and what it stores is bounded. -/
theorem safe_of_sum {b b' : BundleBalanceRow} {op : Op} {x : ℤ} (hres : results b op = [x])
    (hstep : FitsI64 x → step b op = some b')
    (hnext : FitsI64 x → Bounded b' ∧ KeepsLimit b b' op) : Safe b op ↔ FitsI64 x := by
  constructor
  · rintro ⟨hover, -⟩
    by_contra hnot
    exact hover ⟨x, by rw [hres]; exact List.mem_singleton_self _, hnot⟩
  · intro hfits
    refine ⟨?_, fun b₁ hb₁ => ?_⟩
    · rintro ⟨y, hy, hnot⟩
      rw [hres, List.mem_singleton] at hy
      exact hnot (hy ▸ hfits)
    · rw [hstep hfits, Option.mem_some_iff] at hb₁
      exact hb₁ ▸ hnext hfits

section Step

variable {b : BundleBalanceRow} (hb : Bounded b)

include hb

theorem safe_of_unchanged {op : Op} (hres : results b op = []) (hstep : step b op = some b)
    (hkeep : KeepsLimit b b op) : Safe b op := by
  refine ⟨?_, fun b' hb' => ?_⟩
  · rintro ⟨x, hx, -⟩
    rw [hres] at hx
    simp at hx
  · rw [hstep, Option.mem_some_iff] at hb'
    exact hb' ▸ ⟨hb, hkeep⟩

theorem safe_check {op : Op} (hstep : step b op = some b)
    (hres : results b op = if b.total = unlimited then [] else [b.total - b.consumed])
    (hkeep : KeepsLimit b b op) : Safe b op := by
  by_cases hlim : b.total = unlimited
  · exact safe_of_unchanged hb (by rw [hres, if_pos hlim]) hstep hkeep
  · refine (safe_of_sum (by rw [hres, if_neg hlim]) (fun _ => hstep) (fun _ => ⟨hb, hkeep⟩)).mpr ?_
    have hfits := hb.fits
    have hfin := hb.finite hlim
    unfold FitsI64 at hfits ⊢
    omega

theorem safe_consume (q : I64) : Safe b (.consume q) ↔ Room b (.consume q) := by
  by_cases hidle : q.val ≤ 0 ∨ b.total = unlimited
  · refine iff_of_true ?_ fun ⟨hpos, hlim⟩ => absurd hidle (by simp [hlim, hpos])
    exact safe_of_unchanged hb (by simp only [results, if_pos hidle]) (step_consume_idle hidle) fun h => h
  · have hfits := hb.fits
    have hq := q.property
    obtain ⟨hpos, hlim⟩ : 0 < q.val ∧ b.total ≠ unlimited := by simpa using hidle
    have hfin := hb.finite hlim
    rw [safe_of_sum (by simp only [results, if_neg hidle]) (step_consume hidle)]
    · simp only [Room, hpos, hlim, ne_eq, not_false_eq_true, and_self, true_imp_iff]
      unfold FitsI64 at hfits hq ⊢
      omega
    · refine fun _ => ⟨⟨hb.fits, fun _ => ?_⟩, fun h => h⟩
      show 0 ≤ min (b.consumed + q.val) b.total ∧ min (b.consumed + q.val) b.total ≤ b.total
      omega

theorem safe_addAllowance (q : I64) : Safe b (.addAllowance q) ↔ Room b (.addAllowance q) := by
  by_cases hidle : q.val ≤ 0 ∨ b.total = unlimited
  · refine iff_of_true ?_ fun ⟨hpos, hlim⟩ => absurd hidle (by simp [hlim, hpos])
    exact safe_of_unchanged hb (by simp only [results, if_pos hidle]) (step_addAllowance_idle hidle)
      fun h => h
  · have hfits := hb.fits
    have hq := q.property
    obtain ⟨hpos, hlim⟩ : 0 < q.val ∧ b.total ≠ unlimited := by simpa using hidle
    have hfin := hb.finite hlim
    rw [safe_of_sum (by simp only [results, if_neg hidle]) (step_addAllowance hidle)]
    · simp only [Room, hpos, hlim, ne_eq, not_false_eq_true, and_self, true_imp_iff]
      unfold FitsI64 at hfits hq ⊢
      omega
    · intro hsum
      refine ⟨⟨hsum, fun _ => ?_⟩, fun _ => ?_⟩
      · show 0 ≤ b.consumed ∧ b.consumed ≤ b.total + q.val
        omega
      · show b.total + q.val ≠ unlimited
        unfold unlimited
        omega

theorem safe_iff_room (op : Op) : Safe b op ↔ Room b op := by
  cases op with
  | consume q => exact safe_consume hb q
  | addAllowance q => exact safe_addAllowance hb q
  | remaining => exact iff_of_true (safe_check hb rfl rfl fun h => h) trivial
  | checkRoaming id q => exact iff_of_true (safe_check hb rfl rfl fun h => h) trivial
  | reset total now periodEnd =>
    refine iff_of_true ⟨?_, ?_⟩ trivial
    · rintro ⟨x, hx, -⟩
      simp [results] at hx
    · rintro b' hb'
      rw [step, Option.mem_some_iff] at hb'
      subst hb'
      have hnew := fresh_bounded b total
      exact ⟨⟨hnew.fits, hnew.finite⟩, trivial⟩

end Step

/-! ## Runs -/

/-- **A balance stays in its bounds, its sums in range and its limit in place**, in every
run whose quantities find room. In each of its states a next step does so exactly when its
quantity finds room too. -/
theorem run_bounded (b : BundleBalanceRow) (total : PlanTotal) (ops : List Op) (b' : BundleBalanceRow)
    (h : exec (guarded Room step) (fresh b total) ops = some b') :
    (b'.total ≠ unlimited → 0 ≤ b'.consumed ∧ b'.consumed ≤ b'.total) ∧
      ∀ op, Safe b' op ↔ Room b' op := by
  have hstep : ∀ b₁ op b₂, Bounded b₁ → Room b₁ op → step b₁ op = some b₂ → Bounded b₂ :=
    fun b₁ op b₂ hb hroom hb₂ => (((safe_iff_room hb op).mpr hroom).2 b₂ hb₂).1
  have hb : Bounded b' := guarded_inv hstep (fresh_bounded b total) h
  exact ⟨hb.finite, safe_iff_room hb⟩

def maxI64 : I64 := ⟨2 ^ 63 - 1, by decide⟩

def oneUnit : I64 := ⟨1, by decide⟩

def sampleBalance (total : PlanTotal) : BundleBalanceRow :=
  fresh ⟨"data", 0, 0, "mb", none, none⟩ total

def hundred : PlanTotal := ⟨100, by decide⟩

def largest : PlanTotal := ⟨2 ^ 63 - 1, by decide⟩

theorem run_bounded_used_up :
    exec (guarded Room step) (sampleBalance hundred)
        [.consume oneUnit, .addAllowance oneUnit, .consume ⟨1000, by decide⟩] =
        some ⟨"data", 101, 101, "mb", none, none⟩ ∧
      Safe ⟨"data", 101, 101, "mb", none, none⟩ (.checkRoaming "SUB-0001" maxI64) := by
  have hrun : exec (guarded Room step) (sampleBalance hundred)
      [.consume oneUnit, .addAllowance oneUnit, .consume ⟨1000, by decide⟩] =
      some ⟨"data", 101, 101, "mb", none, none⟩ := by decide +kernel
  exact ⟨hrun, ((run_bounded _ hundred _ _ hrun).2 _).mpr trivial⟩

/-- One unit used and then all a usage event can report: the sum wraps below zero. Two
top-ups of the largest balance give a balance without limit. -/
theorem sums_wrap :
    Overflows ⟨"data", 100, 1, "mb", none, none⟩ (.consume maxI64) ∧
      exec step (sampleBalance hundred) [.consume oneUnit, .consume maxI64] =
        some ⟨"data", 100, -2 ^ 63, "mb", none, none⟩ ∧
      exec step (sampleBalance largest) [.addAllowance maxI64, .addAllowance oneUnit] =
        some ⟨"data", unlimited, 0, "mb", none, none⟩ :=
  ⟨⟨2 ^ 63, by decide, by decide⟩, by decide +kernel, by decide +kernel⟩

end BssCli.Subscription.Bounds
