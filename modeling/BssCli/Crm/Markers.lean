import BssCli.Crm.Inventory
import BssCli.Lib.Steps

/-!
# The marks of a soft hold

A soft hold and a hard reserve have one status. They are told apart by the two marks of the
hold, which the operations on the pool set and clear. `assign_msisdn` and `release_msisdn`
do neither.
-/

namespace BssCli.Crm

open Steps

/-! ## One operation after the other -/

inductive PoolOp
  | reserve (msisdn : String) (now : Time)
  | reserveNext (preference : Option String) (now : Time)
  | hold (msisdn reservedFor : String) (ttl : ℤ) (now : Time)
  | releaseHolds (reservedFor : String)
  | assign (msisdn : String)
  | release (msisdn : String)
  | approvePort (port : PortRequestRow) (now : Time)

/-- The pool, and the numbers that were reserved hard or assigned since they were last
released or ported out. No column holds the second. -/
structure PoolState where
  pool : Numbers
  firm : List String

namespace PoolState

/-- A refused operation changes nothing. -/
def after (s : PoolState) : PoolOp → PoolState
  | .reserve m now =>
    match reserveMsisdn s.pool [] m now with
    | .ok pool => ⟨pool, m :: s.firm⟩
    | .error _ => s
  | .reserveNext preference now =>
    match pickMsisdn s.pool [] preference, reserveNextMsisdn s.pool [] preference now with
    | some m, .ok (pool, _) => ⟨pool, m :: s.firm⟩
    | _, _ => s
  | .hold m reservedFor ttl now =>
    match holdMsisdn s.pool m reservedFor ttl now with
    | .ok pool => ⟨pool, s.firm⟩
    | .error _ => s
  | .releaseHolds reservedFor => ⟨releaseHoldsFor s.pool reservedFor, s.firm⟩
  | .assign m =>
    match assignMsisdn s.pool m with
    | .ok pool => ⟨pool, m :: s.firm⟩
    | .error _ => s
  | .release m =>
    match readRelease s.pool m with
    | .ok () => ⟨writeRelease s.pool m, s.firm.filter (· ≠ m)⟩
    | .error _ => s
  | .approvePort port now =>
    match approvePortRequest port now s.pool with
    | .error _ => s
    | .ok (pool, _, _) =>
      match port.direction with
      | .portOut => ⟨pool, s.firm.filter (· ≠ port.donorMsisdn)⟩
      | .portIn =>
        ⟨pool, if (s.pool.insert (portedInRow port)).isSome ∧ port.targetSubscriptionId.isSome then
          port.donorMsisdn :: s.firm else s.firm⟩

theorem after_assign {s : PoolState} {m : String} {pool : Numbers} (h : assignMsisdn s.pool m = .ok pool) :
    s.after (.assign m) = ⟨pool, m :: s.firm⟩ := by
  simp only [after, h]

theorem after_release {s : PoolState} {m : String} (h : readRelease s.pool m = .ok ()) :
    s.after (.release m) = ⟨writeRelease s.pool m, s.firm.filter (· ≠ m)⟩ := by
  simp only [after, h]

def step (s : PoolState) (op : PoolOp) : Option PoolState := some (s.after op)

/-- The pool as the marks are added to it: no row has any. -/
def unmarked (pool : Numbers) : PoolState :=
  ⟨pool, (pool.rows.filter fun r => r.status = .reserved ∨ r.status = .assigned).map MsisdnRow.msisdn⟩

end PoolState

/-! ## What the marks say -/

def MsisdnRow.Unmarked (r : MsisdnRow) : Prop := r.reservedUntil = none ∧ r.reservedFor = none

instance (r : MsisdnRow) : Decidable r.Unmarked := inferInstanceAs (Decidable (_ ∧ _))

/-- No free number and no number that was reserved hard or assigned has a mark. -/
def Consistent (s : PoolState) : Prop :=
  ∀ r ∈ s.pool.rows, r.status = .available ∨ r.status = .assigned ∨ r.msisdn ∈ s.firm → r.Unmarked

instance (s : PoolState) : Decidable (Consistent s) := inferInstanceAs (Decidable (∀ r ∈ _, _))

/-- The status and the marks of a row, by what happened to its number. -/
def RowOk (firm : Prop) (r : MsisdnRow) : Prop :=
  match r.status with
  | .available => ¬ firm ∧ r.Unmarked
  | .reserved => (firm ∧ r.Unmarked) ∨ (¬ firm ∧ r.reservedUntil.isSome ∧ r.reservedFor.isSome)
  | .assigned => firm ∧ r.Unmarked
  | .portedOut => ¬ firm

/-- A number that the pool does not have is not firm. -/
def NumberOk (firm : Prop) : Option MsisdnRow → Prop
  | none => ¬ firm
  | some r => RowOk firm r

def MarkInv (s : PoolState) : Prop := ∀ m, NumberOk (m ∈ s.firm) (s.pool.find m)

theorem MarkInv.row {s : PoolState} (h : MarkInv s) {m : String} {r : MsisdnRow}
    (hr : s.pool.find m = some r) : RowOk (m ∈ s.firm) r := by
  have := h m
  rwa [hr] at this

theorem rowOk_consistent {firm : Prop} {r : MsisdnRow} (h : RowOk firm r)
    (hs : r.status = .available ∨ r.status = .assigned ∨ firm) : r.Unmarked := by
  unfold RowOk at h
  split at h <;> simp_all

theorem MarkInv.consistent {s : PoolState} (h : MarkInv s) : Consistent s := by
  intro r hr hs
  exact rowOk_consistent (h.row (s.pool.find_of_mem hr)) hs

theorem RowOk.taken {firm : Prop} {r : MsisdnRow} (h : RowOk firm r) (hfirm : firm) : r.Taken := by
  unfold RowOk at h
  split at h <;> simp_all [MsisdnRow.Taken, MsisdnRow.Unmarked]

/-! ## One operation -/

/-- What `assign_msisdn` and `release_msisdn` are called on has no soft hold. -/
def KeepsMarks (s : PoolState) : PoolOp → Prop
  | .assign m | .release m => ∀ r ∈ s.pool.find m, r.status = .reserved → r.reservedUntil = none
  | _ => True

instance (s : PoolState) : (op : PoolOp) → Decidable (KeepsMarks s op)
  | .assign _ | .release _ => inferInstanceAs (Decidable (∀ r ∈ _, _ → _))
  | .reserve _ _ | .reserveNext _ _ | .hold _ _ _ _ | .releaseHolds _ | .approvePort _ _ =>
    inferInstanceAs (Decidable True)

section

variable {pool : Numbers} {firm firm' : List String} {m : String} {f : MsisdnRow → MsisdnRow}
  {hf : ∀ r, (f r).msisdn = r.msisdn}

theorem update_inv {r : MsisdnRow} (hi : MarkInv ⟨pool, firm⟩)
    (hfirm : ∀ k, k ≠ m → (k ∈ firm' ↔ k ∈ firm)) (hr : pool.find m = some r)
    (hrow : RowOk (m ∈ firm') (f r)) : MarkInv ⟨pool.update m f hf, firm'⟩ := by
  intro k
  simp only [Table.find_update]
  split
  · rename_i hk
    subst hk
    rw [hr]
    exact hrow
  · rename_i hk
    rw [hfirm k hk]
    exact hi k

theorem mem_cons_ne {k : String} (h : k ≠ m) : k ∈ m :: firm ↔ k ∈ firm := by simp [h]

theorem mem_filter_ne {k : String} (h : k ≠ m) : k ∈ firm.filter (· ≠ m) ↔ k ∈ firm := by simp [h]

end

theorem reserve_inv {s : PoolState} (hi : MarkInv s) (m : String) (now : Time) :
    MarkInv (s.after (.reserve m now)) := by
  simp only [PoolState.after]
  split
  · rename_i pool h
    unfold reserveMsisdn at h
    split at h
    · rename_i hfree
      cases h
      obtain ⟨-, r, hr, hstatus⟩ := hfree
      refine update_inv hi (fun k hk => mem_cons_ne hk) hr ?_
      have hun := rowOk_consistent (hi.row hr) (Or.inl hstatus)
      exact Or.inl ⟨List.mem_cons_self .., hun⟩
    · cases h
  · exact hi

theorem reserveNext_inv {s : PoolState} (hi : MarkInv s) (preference : Option String) (now : Time) :
    MarkInv (s.after (.reserveNext preference now)) := by
  simp only [PoolState.after]
  split
  · rename_i m pool reply hpick h
    obtain ⟨r, hr, -⟩ := pickMsisdn_eq_some hpick
    unfold reserveNextMsisdn at h
    rw [hpick] at h
    simp only at h
    split at h
    · cases h
      exact update_inv hi (fun k hk => mem_cons_ne hk) hr (Or.inl ⟨List.mem_cons_self .., rfl, rfl⟩)
    · cases h
  · exact hi

theorem hold_inv {s : PoolState} (hi : MarkInv s) (m reservedFor : String) (ttl : ℤ) (now : Time) :
    MarkInv (s.after (.hold m reservedFor ttl now)) := by
  simp only [PoolState.after]
  split
  · rename_i pool h
    unfold holdMsisdn at h
    split at h
    · rename_i hfree
      cases h
      obtain ⟨r, hr, hholdable⟩ := hfree
      refine update_inv hi (fun _ _ => Iff.rfl) hr ?_
      -- A number that is firm cannot be held, so the hold is a soft one.
      have hnot : m ∉ s.firm := fun hfirm =>
        Taken.not_holdable ((hi.row hr).taken hfirm) reservedFor now hholdable
      exact Or.inr ⟨hnot, rfl, rfl⟩
    · cases h
  · exact hi

theorem releaseHolds_inv {s : PoolState} (hi : MarkInv s) (reservedFor : String) :
    MarkInv (s.after (.releaseHolds reservedFor)) := by
  intro m
  simp only [PoolState.after, releaseHoldsFor, Table.find_map]
  have hnumber := hi m
  revert hnumber
  cases s.pool.find m with
  | none => exact id
  | some r =>
  intro hrow
  simp only [Option.map_some, NumberOk]
  split
  · rename_i hsoft
    obtain ⟨-, hstatus, huntil⟩ := hsoft
    have hnot : m ∉ s.firm := by
      intro hfirm
      have := (RowOk.taken hrow hfirm).2.1
      simp [this] at huntil
    exact ⟨hnot, rfl, rfl⟩
  · exact hrow

/-- Past the condition, a row that is reserved or assigned is firm. -/
theorem unmarked_of_condition {firm : Prop} {r : MsisdnRow} (hrow : RowOk firm r)
    (hstatus : r.status = .reserved ∨ r.status = .assigned)
    (hc : r.status = .reserved → r.reservedUntil = none) : r.Unmarked := by
  rcases hstatus with hs | hs
  · unfold RowOk at hrow
    rw [hs] at hrow
    rcases hrow with ⟨-, hun⟩ | ⟨-, huntil, -⟩
    · exact hun
    · rw [hc hs] at huntil
      cases huntil
  · exact rowOk_consistent hrow (Or.inr (Or.inl hs))

theorem assign_inv {s : PoolState} (hi : MarkInv s) {m : String} (hc : KeepsMarks s (.assign m)) :
    MarkInv (s.after (.assign m)) := by
  simp only [PoolState.after]
  split
  · rename_i pool h
    unfold assignMsisdn at h
    split at h
    · cases h
    · rename_i r hr
      split at h
      · rename_i hstatus
        cases h
        have hun := unmarked_of_condition (hi.row hr) hstatus (hc r hr)
        exact update_inv hi (fun k hk => mem_cons_ne hk) hr ⟨List.mem_cons_self .., hun⟩
      · cases h
  · exact hi

theorem readRelease_eq_ok {pool : Numbers} {m : String} (h : readRelease pool m = .ok ()) :
    ∃ r, pool.find m = some r ∧ (r.status = .reserved ∨ r.status = .assigned) := by
  unfold readRelease at h
  split at h
  · cases h
  · rename_i r hr
    refine ⟨r, hr, ?_⟩
    unfold checkMsisdnReleasable at h
    split at h
    · cases h
    · split at h
      · cases h
      · rename_i hs
        by_cases hreserved : r.status = .reserved
        · exact Or.inl hreserved
        · exact Or.inr (not_not.mp fun ha => hs ⟨hreserved, ha⟩)

theorem release_inv {s : PoolState} (hi : MarkInv s) {m : String} (hc : KeepsMarks s (.release m)) :
    MarkInv (s.after (.release m)) := by
  simp only [PoolState.after]
  split
  · rename_i h
    obtain ⟨r, hr, hstatus⟩ := readRelease_eq_ok h
    have hun := unmarked_of_condition (hi.row hr) hstatus (hc r hr)
    exact update_inv hi (fun k hk => mem_filter_ne hk) hr ⟨by simp, hun⟩
  · exact hi

/-- A number that comes in is new to the pool, or it changes nothing. -/
theorem portIn_inv {s : PoolState} (hi : MarkInv s) (port : PortRequestRow) :
    MarkInv ⟨portIn port s.pool, if (s.pool.insert (portedInRow port)).isSome ∧
      port.targetSubscriptionId.isSome then port.donorMsisdn :: s.firm else s.firm⟩ := by
  unfold portIn
  cases hins : s.pool.insert (portedInRow port) with
  | none => simpa using hi
  | some pool =>
    have hnew : port.donorMsisdn ∉ s.firm := by
      have hnone : s.pool.find port.donorMsisdn = none := (Table.rows_insert hins).2
      have := hi port.donorMsisdn
      rwa [hnone] at this
    intro m
    simp only [Option.getD_some, Option.isSome_some, true_and, Table.find_insert hins]
    by_cases hm : (portedInRow port).msisdn = m
    · rw [if_pos hm, ← hm]
      cases htarget : port.targetSubscriptionId with
      | none => simp [NumberOk, RowOk, portedInRow, portInStatus, htarget, hnew, MsisdnRow.Unmarked]
      | some target => simp [NumberOk, RowOk, portedInRow, portInStatus, htarget, MsisdnRow.Unmarked]
    · rw [if_neg hm]
      have hother := hi m
      split
      · have hne : m ≠ port.donorMsisdn := Ne.symm hm
        rwa [mem_cons_ne hne]
      · exact hother

theorem approvePort_inv {s : PoolState} (hi : MarkInv s) (port : PortRequestRow) (now : Time) :
    MarkInv (s.after (.approvePort port now)) := by
  simp only [PoolState.after]
  split
  · exact hi
  · rename_i pool port' events h
    rcases approvePortRequest_eq_ok h with ⟨hin, rfl⟩ | ⟨hout, target, rfl⟩
    · rw [hin]
      exact portIn_inv hi port
    · rw [hout]
      simp only
      cases hr : s.pool.find port.donorMsisdn with
      | some r => exact update_inv hi (fun k hk => mem_filter_ne hk) hr (by simp [RowOk, MsisdnRow.portOut])
      | none =>
        intro k
        have hfind := s.pool.find_update port.donorMsisdn k (·.portOut target) fun _ => rfl
        simp only [hfind]
        split
        · rename_i hk
          subst hk
          simp [hr, NumberOk]
        · rename_i hk
          rw [mem_filter_ne hk]
          exact hi k

/-! ## Runs -/

theorem after_inv {s : PoolState} (hi : MarkInv s) {op : PoolOp} (hc : KeepsMarks s op) :
    MarkInv (s.after op) := by
  cases op with
  | reserve m now => exact reserve_inv hi m now
  | reserveNext preference now => exact reserveNext_inv hi preference now
  | hold m reservedFor ttl now => exact hold_inv hi m reservedFor ttl now
  | releaseHolds reservedFor => exact releaseHolds_inv hi reservedFor
  | assign m => exact assign_inv hi hc
  | release m => exact release_inv hi hc
  | approvePort port now => exact approvePort_inv hi port now

theorem keepsMarks_of_consistent {s : PoolState} {op : PoolOp} (h : Consistent (s.after op)) :
    KeepsMarks s op := by
  cases op with
  | assign m =>
    rintro r hr hstatus
    have hassign : assignMsisdn s.pool m =
        .ok (s.pool.update m (fun r => { r with status := .assigned }) fun _ => rfl) := by
      unfold assignMsisdn
      rw [Option.mem_def.mp hr]
      simp [hstatus]
    rw [PoolState.after_assign hassign] at h
    have hfind := s.pool.find_update m m (fun r => { r with status := .assigned }) fun _ => rfl
    rw [if_pos rfl, Option.mem_def.mp hr, Option.map_some] at hfind
    exact (h _ (Table.find_some _ hfind).1 (Or.inr (Or.inl rfl))).1
  | release m =>
    rintro r hr hstatus
    have hread : readRelease s.pool m = .ok () := by
      unfold readRelease
      rw [Option.mem_def.mp hr]
      simp [checkMsisdnReleasable, hstatus]
    rw [PoolState.after_release hread] at h
    have hfind := s.pool.find_update m m (fun r => { r with
      status := .available, reservedAt := none, assignedToSubscriptionId := none }) fun _ => rfl
    rw [if_pos rfl, Option.mem_def.mp hr, Option.map_some] at hfind
    exact (h _ (Table.find_some _ hfind).1 (Or.inl rfl)).1
  | _ => trivial

theorem unmarked_inv {pool : Numbers} (h : ∀ r ∈ pool.rows, r.Unmarked) :
    MarkInv (PoolState.unmarked pool) := by
  intro m
  cases hr : pool.find m with
  | none =>
    simp only [PoolState.unmarked, hr, NumberOk, List.mem_map, List.mem_filter]
    rintro ⟨r, ⟨hmem, -⟩, rfl⟩
    exact pool.find_eq_none.mp hr (List.mem_map_of_mem hmem)
  | some r =>
    obtain ⟨hmem, rfl⟩ := pool.find_some hr
    have hfirm : r.msisdn ∈ (PoolState.unmarked pool).firm ↔ r.status = .reserved ∨ r.status = .assigned := by
      simp only [PoolState.unmarked, List.mem_map, List.mem_filter, decide_eq_true_eq]
      constructor
      · rintro ⟨r', ⟨hmem', hs⟩, hkey⟩
        have hr' := pool.find_of_mem hmem'
        rw [hkey, hr, Option.some.injEq] at hr'
        exact hr' ▸ hs
      · exact fun hs => ⟨r, ⟨hmem, hs⟩, rfl⟩
    have hun := h r hmem
    have hrow : RowOk (r.msisdn ∈ (PoolState.unmarked pool).firm) r := by
      rw [hfirm]
      unfold RowOk
      cases r.status <;> simp [hun]
    exact (congrArg (NumberOk _) hr).mpr hrow

/-- **The marks are consistent** in a run in which no soft hold is assigned or released, from
any pool without marks. No sweep and no hold takes back a number that is firm, and an
operation that is otherwise breaks the marks. -/
theorem marks_consistent (pool : Numbers) (hpool : ∀ r ∈ pool.rows, r.Unmarked) (ops : List PoolOp)
    (s : PoolState)
    (h : exec (guarded KeepsMarks PoolState.step) (PoolState.unmarked pool) ops = some s) :
    Consistent s ∧ (∀ op, Consistent (s.after op) ↔ KeepsMarks s op) ∧
      ∀ m ∈ s.firm, ∀ holder, (releaseHoldsFor s.pool holder).find m = s.pool.find m ∧
        ∀ ttl now, s.after (.hold m holder ttl now) = s := by
  have hi : MarkInv s := by
    refine guarded_inv (P := MarkInv) ?_ (unmarked_inv hpool) h
    rintro s op s' hs hc ⟨⟩
    exact after_inv hs hc
  refine ⟨hi.consistent, fun op => ⟨keepsMarks_of_consistent, fun hc => (after_inv hi hc).consistent⟩, ?_⟩
  intro m hm holder
  obtain ⟨r, hr⟩ : ∃ r, s.pool.find m = some r := by
    cases hr : s.pool.find m with
    | none => exact absurd hm (by have := hi m; rwa [hr] at this)
    | some r => exact ⟨r, rfl⟩
  have htaken := (hi.row hr).taken hm
  refine ⟨?_, fun ttl now => ?_⟩
  · rw [hr]
    exact releaseHoldsFor_keeps s.pool holder m r hr htaken
  · simp only [PoolState.after]
    split
    · rename_i hhold
      unfold holdMsisdn at hhold
      split at hhold
      · rename_i hholdable
        obtain ⟨r', hr', hholdable⟩ := hholdable
        obtain rfl : r = r' := Option.some.inj (hr.symm.trans hr')
        exact absurd hholdable (Taken.not_holdable htaken holder now)
      · cases hhold
    · rfl

def samplePool : Numbers :=
  ⟨[⟨"90000001", .available, none, none, none, none⟩, ⟨"90000002", .assigned, none, some "SUB-1", none, none⟩],
    by decide⟩

/-- A number is held, promoted for the order, assigned and released. -/
theorem marks_consistent_promoted :
    let s := (exec (guarded KeepsMarks PoolState.step) (PoolState.unmarked samplePool)
      [.hold "90000001" "OO-1" 60 0, .reserveNext (some "90000001") 1, .assign "90000001",
       .releaseHolds "OO-1", .release "90000002"]).get (by decide)
    "90000001" ∈ s.firm ∧ "90000002" ∉ s.firm ∧ Consistent s :=
  ⟨by decide, by decide, (marks_consistent samplePool (by decide) _ _ (Option.some_get _).symm).1⟩

/-- A soft hold is assigned. The old holder takes the number back, and the sweep frees it. -/
theorem assigned_hold_swept :
    ∃ s s', exec PoolState.step (PoolState.unmarked samplePool)
        [.hold "90000001" "OO-1" 60 0, .assign "90000001"] = some s ∧ ¬ Consistent s ∧
      exec PoolState.step s [.hold "90000001" "OO-1" 60 90000000, .releaseHolds "OO-1"] = some s' ∧
      "90000001" ∈ s'.firm ∧ (s'.pool.find "90000001").map MsisdnRow.status = some .available :=
  ⟨_, _, rfl, by decide, rfl, by decide, by decide⟩

end BssCli.Crm
