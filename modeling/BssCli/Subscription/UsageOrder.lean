import Mathlib.Algebra.Order.BigOperators.Group.List
import BssCli.Subscription.Service

/-!
# Usage in any order

Usage of the primary data on one active line. The event that uses the balance up blocks the
line, and every later one is dropped, so the rows depend on the sum alone.
-/

namespace BssCli.Subscription.UsageOrder

/-- One event after the other, each in a transaction of its own. -/
def process (us : List UsageCall) (db : SubDb) : SubDb :=
  us.foldl (fun db u => (handleUsageRated u true db).db) db

def used (us : List UsageCall) : ℤ := (us.map fun u => u.quantity.val).sum

def PrimaryUsage (u : UsageCall) : Prop := u.allowanceType = primaryAllowanceType ∧ 0 < u.quantity.val

/-- A finite balance with something left. -/
structure Running (b : BundleBalanceRow) : Prop where
  fits : FitsI64 b.total
  nonneg : 0 ≤ b.consumed
  left : b.consumed < b.total

/-- What `quantity` units of usage make of a line with the balance `b`. -/
structure Consumed (b : BundleBalanceRow) (quantity : ℤ) (db db' : SubDb) : Prop where
  balance : db'.balances.find primaryAllowanceType =
    some (b.setConsumed (min b.total (b.consumed + quantity)))
  state : db'.sub.state = if b.total ≤ b.consumed + quantity then .blocked else .active
  events : db'.events.map Event.eventType = db.events.map Event.eventType ++
    if b.total ≤ b.consumed + quantity then ["subscription.exhausted", "subscription.blocked"] else []

theorem Running.limited {b : BundleBalanceRow} (hb : Running b) : b.total ≠ unlimited := by
  have := hb.nonneg
  have := hb.left
  unfold unlimited
  omega

theorem used_cons (u : UsageCall) (us : List UsageCall) : used (u :: us) = u.quantity.val + used us := by simp [used]

theorem used_nonneg {us : List UsageCall} (h : ∀ u ∈ us, PrimaryUsage u) : 0 ≤ used us := by
  refine List.sum_nonneg fun q hq => ?_
  obtain ⟨u, hu, rfl⟩ := List.mem_map.mp hq
  exact (h u hu).2.le

section Step

variable {db : SubDb} {b : BundleBalanceRow} {u : UsageCall} (hb : Running b) (hu : PrimaryUsage u)
  (hfits : b.consumed + u.quantity.val < 2 ^ 63)

include hb hu hfits

theorem consume_running :
    (consume b.snapshot u.quantity).consumed = min b.total (b.consumed + u.quantity.val) := by
  have hnonneg := hb.nonneg
  have hpos := hu.2
  have hsum : i64 (b.consumed + u.quantity.val) = b.consumed + u.quantity.val := by
    apply i64_of_fits
    unfold FitsI64
    omega
  have hcond : ¬ (u.quantity.val ≤ 0 ∨ b.snapshot.total = unlimited) := by
    have hlim : b.snapshot.total ≠ unlimited := hb.limited
    simp [hlim, hpos]
  rw [consume, if_neg hcond, min_comm, ← hsum]
  rfl

theorem write_running (hfind : db.balances.find u.allowanceType = some b) :
    ∃ t, db.balances.write u.allowanceType
        (BundleBalanceRow.setConsumed (consume b.snapshot u.quantity).consumed) (fun _ => rfl) = .ok t ∧
      t.find primaryAllowanceType = some (b.setConsumed (min b.total (b.consumed + u.quantity.val))) := by
  rw [consume_running hb hu hfits]
  have hstore : (b.setConsumed (min b.total (b.consumed + u.quantity.val))).Storable := by
    have hbits := hb.fits
    have hnonneg := hb.nonneg
    have hleft := hb.left
    have hpos := hu.2
    show FitsI64 (b.total - min b.total (b.consumed + u.quantity.val))
    unfold FitsI64 at hbits ⊢
    omega
  obtain ⟨t, ht⟩ : ∃ t, db.balances.write u.allowanceType
      (BundleBalanceRow.setConsumed (min b.total (b.consumed + u.quantity.val))) (fun _ => rfl) = .ok t :=
    ⟨_, Balances.write_of_storable hfind hstore⟩
  refine ⟨t, ht, ?_⟩
  rw [(Balances.write_eq_ok ht).2, if_pos hu.1.symm, ← hu.1, hfind]
  rfl

theorem exhausted_running {t : Balances}
    (ht : t.find primaryAllowanceType = some (b.setConsumed (min b.total (b.consumed + u.quantity.val)))) :
    isExhausted t.snapshots primaryAllowanceType = decide (b.total ≤ b.consumed + u.quantity.val) := by
  have hbits := hb.fits
  have hnonneg := hb.nonneg
  have hleft := hb.left
  have hpos := hu.2
  have hrem : i64 (b.total - min b.total (b.consumed + u.quantity.val)) =
      b.total - min b.total (b.consumed + u.quantity.val) := by
    apply i64_of_fits
    unfold FitsI64 at hbits ⊢
    omega
  rw [Balances.isExhausted_snapshots, ht]
  simp only [BundleBalanceRow.setConsumed, BundleBalanceRow.snapshot, BalanceSnapshot.remaining,
    hb.limited, if_false, hrem]
  congr 1
  apply propext
  omega

/-- One event uses the balance, and blocks the line when nothing is left of it. -/
theorem handleUsageRated_consumed (hs : db.sub.state = .active)
    (hfind : db.balances.find primaryAllowanceType = some b) :
    Consumed b u.quantity db (handleUsageRated u true db).db := by
  have hfind' : db.balances.find u.allowanceType = some b := by rw [hu.1, hfind]
  obtain ⟨t, hwrite, ht⟩ := write_running hb hu hfits hfind'
  have hex := exhausted_running hb hu hfits ht
  have hgate : roamingGate u db.sub.id (some b) = .ok () := by
    rw [roamingGate, hu.1, if_neg (by decide)]
  have hopen : usageOpen u db = .ok (.decrement (consume b.snapshot u.quantity)
      (decide (b.total ≤ b.consumed + u.quantity.val))) := by
    unfold usageOpen
    simp only [hfind', hgate, hwrite, bind, Except.bind, hex]
    rfl
  have hcommit : ∃ db', usageCommit db.sub u (.decrement (consume b.snapshot u.quantity)
      (decide (b.total ≤ b.consumed + u.quantity.val))) db = .ok db' := by
    have hdest : nextState db.sub.state .exhaust = .ok .blocked := nextState_exhaust.mpr ⟨hs, rfl⟩
    simp only [usageCommit, hwrite, bind, Except.bind, usageExhausted, hdest]
    split <;> exact ⟨_, rfl⟩
  obtain ⟨db', hcommit⟩ := hcommit
  have hdb : (handleUsageRated u true db).db = db' := by
    rw [handleUsageRated, if_pos (by simp [UsageCall.accepted, hs]), hopen]
    simp only [bind, Except.bind, hcommit, inTx]
  obtain ⟨hsub, hbal⟩ := usageCommit_eq_ok hcommit
  rw [usageBalances, hwrite, Except.ok.injEq] at hbal
  rw [hdb]
  refine ⟨hbal ▸ ht, ?_, ?_⟩
  · rw [hsub]
    by_cases hblock : b.total ≤ b.consumed + u.quantity.val
    · rw [decide_eq_true hblock, if_pos hblock]
      rfl
    · rw [decide_eq_false hblock, if_neg hblock]
      exact hs
  · rw [usageCommit_events hcommit]
    by_cases hblock : b.total ≤ b.consumed + u.quantity.val
    · rw [decide_eq_true hblock, if_pos hblock]
      rfl
    · rw [decide_eq_false hblock, if_neg hblock]
      rfl

end Step

/-! ## The whole list -/

namespace Consumed

variable {b : BundleBalanceRow} {db db₁ db₂ : SubDb} {q q' : ℤ}

theorem nothing (hb : Running b) (hs : db.sub.state = .active)
    (hfind : db.balances.find primaryAllowanceType = some b) : Consumed b 0 db db := by
  have hleft := hb.left
  have hmin : min b.total (b.consumed + 0) = b.consumed := by omega
  have hopen : ¬ b.total ≤ b.consumed + 0 := by omega
  refine ⟨?_, ?_, ?_⟩
  · rw [hmin]
    exact hfind
  · rw [if_neg hopen]
    exact hs
  · rw [if_neg hopen, List.append_nil]

theorem more (h : Consumed b q db db₁) (hblock : b.total ≤ b.consumed + q) (hq' : 0 ≤ q') :
    Consumed b (q + q') db db₁ := by
  have hall : b.total ≤ b.consumed + (q + q') := by omega
  obtain ⟨hbal, hstate, hevents⟩ := h
  rw [min_eq_left hblock] at hbal
  rw [if_pos hblock] at hstate hevents
  refine ⟨?_, ?_, ?_⟩
  · rw [min_eq_left hall]
    exact hbal
  · rw [if_pos hall]
    exact hstate
  · rw [if_pos hall]
    exact hevents

theorem trans (h : Consumed b q db db₁) (hopen : ¬ b.total ≤ b.consumed + q)
    (h' : Consumed (b.setConsumed (b.consumed + q)) q' db₁ db₂) : Consumed b (q + q') db db₂ := by
  have hsum : b.consumed + (q + q') = (b.setConsumed (b.consumed + q)).consumed + q' := (Int.add_assoc ..).symm
  have hevents := h.events
  rw [if_neg hopen, List.append_nil] at hevents
  refine ⟨?_, ?_, ?_⟩
  · rw [hsum]
    exact h'.balance
  · rw [hsum]
    exact h'.state
  · rw [hsum, ← hevents]
    exact h'.events

end Consumed

theorem process_dropped {us : List UsageCall} {db : SubDb} (h : db.sub.state ≠ .active) :
    process us db = db := by
  induction us with
  | nil => rfl
  | cons u us ih =>
    have hdrop : (handleUsageRated u true db).db = db := by
      rw [handleUsageRated, if_neg (by simpa [UsageCall.accepted] using h)]
    rw [process, List.foldl_cons, hdrop]
    exact ih

theorem process_consumed {us : List UsageCall} (hus : ∀ u ∈ us, PrimaryUsage u) {db : SubDb}
    {b : BundleBalanceRow} (hb : Running b) (hs : db.sub.state = .active)
    (hfind : db.balances.find primaryAllowanceType = some b) (hfits : b.consumed + used us < 2 ^ 63) :
    Consumed b (used us) db (process us db) := by
  induction us generalizing db b with
  | nil => exact .nothing hb hs hfind
  | cons u us ih =>
    have hu := hus u (List.mem_cons_self ..)
    have hrest : ∀ v ∈ us, PrimaryUsage v := fun v hv => hus v (List.mem_cons_of_mem _ hv)
    have hnonneg := used_nonneg hrest
    have hpos := hu.2
    rw [used_cons] at hfits ⊢
    have hstep := handleUsageRated_consumed hb hu (by omega) hs hfind
    have hcons : process (u :: us) db = process us (handleUsageRated u true db).db := rfl
    rw [hcons]
    by_cases hblock : b.total ≤ b.consumed + u.quantity.val
    · -- The line is blocked, and what follows is dropped.
      have hstate := hstep.state
      rw [if_pos hblock] at hstate
      rw [process_dropped (by rw [hstate]; decide)]
      exact hstep.more hblock hnonneg
    · have hstate := hstep.state
      have hbal := hstep.balance
      rw [if_neg hblock] at hstate
      rw [min_eq_right (by omega)] at hbal
      have hnext : Running (b.setConsumed (b.consumed + u.quantity.val)) := by
        refine ⟨hb.fits, ?_, ?_⟩
        · have := hb.nonneg
          show 0 ≤ b.consumed + u.quantity.val
          omega
        · show b.consumed + u.quantity.val < b.total
          omega
      refine hstep.trans hblock (ih hrest hnext hstate hbal ?_)
      show b.consumed + u.quantity.val + used us < 2 ^ 63
      omega

/-- **Usage events give the same balance, the same state and the same event types in any
order**: the clamped sum, and one exhaustion and one block when nothing is left. -/
theorem usage_any_order (db : SubDb) (b : BundleBalanceRow) (hs : db.sub.state = .active)
    (hfind : db.balances.find primaryAllowanceType = some b) (hb : Running b) (us us' : List UsageCall)
    (hus : ∀ u ∈ us, PrimaryUsage u) (hfits : b.consumed + used us < 2 ^ 63) (hperm : us'.Perm us) :
    Consumed b (used us) db (process us' db) := by
  have hused : used us' = used us := (hperm.map _).sum_eq
  rw [← hused] at hfits ⊢
  exact process_consumed (fun u hu => hus u (hperm.mem_iff.mp hu)) hb hs hfind hfits

def dataUsage (quantity : I64) (usageEventId : String) : UsageCall := ⟨"data", quantity, usageEventId⟩

/-- 70 of 100 MB are used. Of 50 and 100 MB more, the second is dropped in either order. -/
theorem usage_any_order_overshoot :
    Consumed (dataRow 100 70) 150 (sampleLine .active 100 70)
      (process [dataUsage hundredMb "USG-2", dataUsage fiftyMb "USG-1"] (sampleLine .active 100 70)) :=
  usage_any_order (sampleLine .active 100 70) (dataRow 100 70) rfl rfl
    ⟨by decide, by decide, by decide⟩ [dataUsage fiftyMb "USG-1", dataUsage hundredMb "USG-2"]
    [dataUsage hundredMb "USG-2", dataUsage fiftyMb "USG-1"]
    (by simp [PrimaryUsage, dataUsage, primaryAllowanceType, fiftyMb, hundredMb]) (by decide)
    (List.Perm.swap ..)

end BssCli.Subscription.UsageOrder
