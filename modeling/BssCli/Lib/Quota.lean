import Mathlib.Data.List.Basic
import Mathlib.Algebra.Order.Ring.Int

/-!
# A limiter that counts first and records later

An activity is let in when few enough were recorded in the window before. It starts after
that, and is recorded when it is done. Nothing is reserved in between. What is let in and not
yet recorded has to be counted in by whoever lets the next one in.
-/

@[ext]
structure Quota where
  clock : ℤ
  /-- Let in, not started. -/
  waiting : ℕ
  /-- Started, not recorded. -/
  running : ℕ
  starts : List ℤ
  records : List ℤ

namespace Quota

variable {window : ℤ} {cap : ℕ} {q q' : Quota}

/-- How many are at `t` or later. -/
def since (l : List ℤ) (t : ℤ) : ℕ := l.countP fun x => t ≤ x

/-- How many are in the window that begins at `t`. -/
def inWindow (window : ℤ) (l : List ℤ) (t : ℤ) : ℕ := l.countP fun x => t ≤ x ∧ x ≤ t + window

/-- There is room for one more, with all that is let in and not recorded. -/
def HasRoom (window : ℤ) (cap : ℕ) (q : Quota) : Prop :=
  since q.records (q.clock - window) + q.waiting + q.running < cap

instance : Decidable (HasRoom window cap q) := inferInstanceAs (Decidable (_ < _))

def letIn (q : Quota) : Quota := { q with waiting := q.waiting + 1 }

def start (q : Quota) : Quota :=
  { q with waiting := q.waiting - 1, running := q.running + 1, starts := q.starts ++ [q.clock] }

def record (q : Quota) : Quota := { q with running := q.running - 1, records := q.records ++ [q.clock] }

theorem since_append (l : List ℤ) (x t : ℤ) : since (l ++ [x]) t = since l t + if t ≤ x then 1 else 0 := by
  simp [since, List.countP_append, List.countP_cons]

theorem since_anti (l : List ℤ) {t t' : ℤ} (h : t ≤ t') : since l t' ≤ since l t :=
  List.countP_mono_left fun x _ hx => by simpa using h.trans (by simpa using hx)

theorem inWindow_le_since (l : List ℤ) (t : ℤ) : inWindow window l t ≤ since l t :=
  List.countP_mono_left fun x _ hx => by simp only [decide_eq_true_eq] at hx ⊢; exact hx.1

theorem since_eq_zero {l : List ℤ} {c t : ℤ} (h : ∀ x ∈ l, x ≤ c) (ht : c < t) : since l t = 0 := by
  rw [since, List.countP_eq_zero]
  intro x hx
  have := h x hx
  simp only [decide_eq_true_eq]
  omega

/-- What keeps the limiter within its bound. A window that the clock has left is settled. -/
structure Inv (window : ℤ) (cap : ℕ) (q : Quota) : Prop where
  past : ∀ x ∈ q.starts, x ≤ q.clock
  covered : ∀ t, q.clock ≤ t + window → since q.starts t ≤ since q.records t + q.running
  room : ∀ t, q.clock ≤ t + window → since q.starts t + q.waiting ≤ cap
  bounded : ∀ t, inWindow window q.starts t ≤ cap

theorem inv_of_nil (hstarts : q.starts = []) (hwaiting : q.waiting = 0) : Inv window cap q := by
  refine ⟨?_, ?_, ?_, ?_⟩ <;> simp [hstarts, hwaiting, since, inWindow]

/-- Nothing is let in or started, and no record of an open window is lost. -/
theorem Inv.mono (hi : Inv window cap q) (hstarts : q'.starts = q.starts) (hclock : q.clock ≤ q'.clock)
    (hwaiting : q'.waiting ≤ q.waiting)
    (hrecords : ∀ t, q'.clock ≤ t + window → since q.starts t ≤ since q.records t + q.running →
      since q.starts t ≤ since q'.records t + q'.running) : Inv window cap q' := by
  refine ⟨?_, ?_, ?_, ?_⟩
  · intro x hx
    rw [hstarts] at hx
    exact (hi.past x hx).trans hclock
  · intro t ht
    rw [hstarts]
    exact hrecords t ht (hi.covered t (hclock.trans ht))
  · intro t ht
    have := hi.room t (hclock.trans ht)
    rw [hstarts]
    omega
  · intro t
    rw [hstarts]
    exact hi.bounded t

theorem Inv.letIn (hi : Inv window cap q) (h : HasRoom window cap q) : Inv window cap q.letIn := by
  refine ⟨hi.past, hi.covered, ?_, hi.bounded⟩
  intro t (ht : q.clock ≤ t + window)
  have hcovered := hi.covered t ht
  have hanti : since q.records t ≤ since q.records (q.clock - window) := since_anti _ (by omega)
  unfold HasRoom at h
  simp only [Quota.letIn]
  omega

theorem Inv.start (hi : Inv window cap q) (h : 0 < q.waiting) : Inv window cap q.start := by
  refine ⟨?_, ?_, ?_, ?_⟩
  · intro x hx
    rcases List.mem_append.mp hx with hx | hx
    · exact hi.past x hx
    · rw [List.mem_singleton.mp hx]
      exact le_rfl
  · intro t ht
    have hcovered := hi.covered t ht
    simp only [Quota.start, since_append]
    split <;> omega
  · intro t ht
    have hroom := hi.room t ht
    simp only [Quota.start, since_append]
    split <;> omega
  · intro t
    have hold := hi.bounded t
    have happend : inWindow window (q.starts ++ [q.clock]) t =
        inWindow window q.starts t + if t ≤ q.clock ∧ q.clock ≤ t + window then 1 else 0 := by
      simp [inWindow, List.countP_append, List.countP_cons]
    simp only [Quota.start, happend]
    split
    · rename_i hin
      -- the window is still open, so everything in it was counted when this one was let in
      have hroom := hi.room t hin.2
      have hle : inWindow window q.starts t ≤ since q.starts t := inWindow_le_since _ _
      omega
    · exact hold

theorem Inv.record (hi : Inv window cap q) (h : 0 < q.running) : Inv window cap q.record := by
  refine hi.mono rfl le_rfl le_rfl fun t _ hcovered => ?_
  simp only [Quota.record, since_append]
  split
  · omega
  · have hzero : since q.starts t = 0 := since_eq_zero hi.past (by omega)
    omega

/-- A record more than there need be. -/
theorem Inv.note (hi : Inv window cap q) (x : ℤ) : Inv window cap { q with records := q.records ++ [x] } := by
  refine hi.mono rfl le_rfl le_rfl fun t _ hcovered => ?_
  simp only [since_append]
  omega

/-- One that was let in never starts. -/
theorem Inv.leave (hi : Inv window cap q) : Inv window cap { q with waiting := q.waiting - 1 } :=
  hi.mono rfl le_rfl (Nat.sub_le ..) fun _ _ hcovered => hcovered

theorem Inv.tick (hi : Inv window cap q) {now : ℤ} (h : q.clock ≤ now) : Inv window cap { q with clock := now } :=
  hi.mono rfl h le_rfl fun _ _ hcovered => hcovered

/-- Records that are older than the window are dropped. -/
theorem Inv.prune (hi : Inv window cap q) {records : List ℤ}
    (h : ∀ t, q.clock ≤ t + window → since records t = since q.records t) : Inv window cap { q with records } :=
  hi.mono rfl le_rfl le_rfl fun t ht hcovered => by simp only [h t ht]; exact hcovered

end Quota
