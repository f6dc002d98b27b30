import BssCli.Som.World

/-!
# An order settles once

Completions, failures and stuck tasks of any orders, in any order. A permanent failure
leaves the RFS reserved, and is refused once the CFS is activated or failed. A stuck task
takes the mark of a completed one back. Without these an order settles once.
-/

namespace BssCli.Som.Settlement

open Steps Orchestrator

/-- The task is recorded as completed. -/
def Recorded (db : SomDb) (cfs taskType : String) : Prop :=
  ∃ row ∈ db.services.find cfs, Fields.get (pendingOf row.characteristics) taskType = some (.str "completed")

instance (db : SomDb) (cfs taskType : String) : Decidable (Recorded db cfs taskType) :=
  inferInstanceAs (Decidable (∃ row ∈ db.services.find cfs, _))

/-- No permanent failure is handled, and no task is stuck that is recorded as completed. -/
def Mild (w : Orchestrator) : Orchestrator.Label → Prop
  | .begin k body => k = .failed → ∀ ev ∈ (TaskEvent.ofBody body).toOption, ev.permanent = false
  | .commit i _ => ∀ f ∈ w.flights[i]?, f.kind = .stuck → ¬ Recorded w.db f.ev.serviceId f.ev.taskType
  | _ => True

instance (w : Orchestrator) : ∀ l, Decidable (Mild w l)
  | .begin k body => inferInstanceAs (Decidable (k = .failed →
      ∀ ev ∈ (TaskEvent.ofBody body).toOption, ev.permanent = false))
  | .commit i _ => inferInstanceAs (Decidable (∀ f ∈ w.flights[i]?, f.kind = .stuck → _))
  | .decompose .. | .call _ | .abandon _ => .isTrue trivial

/-! ## One order -/

def MildReport (p : Progress) (l : Report) : Prop :=
  l.taskType ∈ taskTypes ∧ (l.kind = .failed → l.permanent = false) ∧
    (l.kind = .stuck → Fields.get p.marks l.taskType ≠ some (.str "completed"))

instance (p : Progress) (l : Report) : Decidable (MildReport p l) := inferInstanceAs (Decidable (_ ∧ _))

/-- Reserved and in progress, or activated with every task completed. -/
structure Sound (p : Progress) : Prop where
  keys : p.marks.map Prod.fst = taskTypes
  state : p.state = .reserved ∧ p.order = .inProgress ∨
    p.state = .activated ∧ allCompleted p.marks = true ∧ p.order ≠ .failed

/-- A settled order stays as it is, and a completed task stays completed. -/
structure Kept (p p' : Progress) : Prop where
  order : soAllowed p.order = [] → p'.order = p.order
  marks : ∀ t, Fields.get p.marks t = some (.str "completed") → Fields.get p'.marks t = some (.str "completed")

variable {p p' p'' : Progress} {l : Report}

theorem Kept.refl (p : Progress) : Kept p p := ⟨fun _ => rfl, fun _ h => h⟩

theorem Kept.trans (h : Kept p p') (h' : Kept p' p'') : Kept p p'' := by
  refine ⟨fun hs => ?_, fun t ht => h'.marks t (h.marks t ht)⟩
  have heq := h.order hs
  rw [h'.order (heq ▸ hs), heq]

theorem sound_start : Sound .start := ⟨rfl, Or.inl ⟨rfl, rfl⟩⟩

theorem mark_completed_kept (p : Progress) (l : Report) : Kept p (p.mark l "completed") := by
  refine ⟨fun _ => rfl, fun t ht => ?_⟩
  rw [Progress.mark, Fields.get_insert]
  split
  · rfl
  · exact ht

theorem mark_stuck_kept (h : Fields.get p.marks l.taskType ≠ some (.str "completed")) :
    Kept p (p.mark l "stuck") := by
  refine ⟨fun _ => rfl, fun t ht => ?_⟩
  have hne : t ≠ l.taskType := fun heq => h (heq ▸ ht)
  rw [Progress.mark, Fields.get_insert_ne hne]
  exact ht

theorem complete_kept (hp : Sound p) (ht : l.taskType ∈ taskTypes) :
    ∃ p', p.complete l = some p' ∧ Sound p' ∧ Kept p p' := by
  unfold Progress.complete
  rcases hp.state with ⟨hstate, horder⟩ | ⟨hstate, -⟩
  · rw [if_neg (by simp [hstate])]
    split
    · rename_i hall
      rw [if_pos (by simp [hstate, svcAllowed])]
      have hsettle := Progress.settle_inProgress horder l (List.mem_cons_self ..)
      rw [hsettle]
      refine ⟨_, rfl, ⟨Progress.mark_keys hp.keys ht "completed", Or.inr ⟨rfl, hall, ?_⟩⟩, ?_⟩
      · dsimp only
        split <;> simp
      · exact ⟨by simp [horder, soAllowed], (mark_completed_kept p l).marks⟩
    · exact ⟨_, rfl, ⟨Progress.mark_keys hp.keys ht _, Or.inl ⟨hstate, horder⟩⟩, mark_completed_kept p l⟩
  · rw [if_pos hstate]
    exact ⟨p, rfl, hp, Kept.refl p⟩

theorem step_kept (hp : Sound p) (hl : MildReport p l) : ∃ p', p.step l = some p' ∧ Sound p' ∧ Kept p p' := by
  obtain ⟨ht, hfailed, hstuck⟩ := hl
  unfold Progress.step
  split
  · exact complete_kept hp ht
  · rename_i hk
    unfold Progress.fail
    rw [if_neg (by simp [hfailed hk])]
    exact ⟨p, rfl, hp, Kept.refl p⟩
  · rename_i hk
    have hopen : p.state = .reserved ∧ p.order = .inProgress := by
      rcases hp.state with hopen | ⟨-, hall, -⟩
      · exact hopen
      · exact absurd ((allCompleted_iff hp.keys).mp hall _ ht) (hstuck hk)
    exact ⟨_, rfl, ⟨Progress.mark_keys hp.keys ht _, Or.inl hopen⟩, mark_stuck_kept (hstuck hk)⟩

theorem exec_kept {ls : List Report} (hp : Sound p)
    (h : exec (guarded MildReport Progress.step) p ls = some p') : Sound p' ∧ Kept p p' := by
  induction ls generalizing p with
  | nil =>
    simp only [exec_nil, Option.some.injEq] at h
    exact h ▸ ⟨hp, Kept.refl p⟩
  | cons l ls ih =>
    obtain ⟨p₁, h₁, h₂⟩ := (exec_cons ..).mp h
    obtain ⟨hl, hstep⟩ := guarded_eq_some.mp h₁
    obtain ⟨q, hq, hsound, hkept⟩ := step_kept hp hl
    rw [hq, Option.some.injEq] at hstep
    subst hstep
    obtain ⟨hsound', hkept'⟩ := ih hsound h₂
    exact ⟨hsound', hkept.trans hkept'⟩

theorem step_isSome (hp : Sound p) (ht : l.taskType ∈ taskTypes) (hfailed : l.kind = .failed → l.permanent = false) :
    ∃ p', p.step l = some p' := by
  unfold Progress.step
  split
  · obtain ⟨p', h, -⟩ := complete_kept hp ht
    exact ⟨p', h⟩
  · rename_i hk
    unfold Progress.fail
    rw [if_neg (by simp [hfailed hk])]
    exact ⟨p, rfl⟩
  · exact ⟨_, rfl⟩

/-! ## All orders -/

/-- No permanent failure has been taken up. -/
def NoneFailed (w : Orchestrator) : Prop :=
  (∀ f ∈ w.flights, f.kind = .failed → f.ev.permanent = false) ∧
    ∀ h ∈ w.handled, h.kind = .failed → h.ev.permanent = false

variable {w w' : Orchestrator} {d : Decomposition}

theorem recorded_iff (hp : Shows w.db d p) (t : String) :
    Recorded w.db d.cfs t ↔ Fields.get p.marks t = some (.str "completed") := by
  obtain ⟨row, hrow, -, -, hmarks, -⟩ := hp.cfs
  unfold Recorded
  rw [hrow]
  simp [pendingOf_eq hmarks]

theorem mild_implies : Implies NoneFailed Mild MildReport where
  keeps w l w' hj hl h := by
    refine step_calls (P := fun k ev => k = .failed → ev.permanent = false) ?_ hj.1 hj.2 h
    rintro k body ev rfl hev hk
    exact hl hk ev (by simp [hev, Except.toOption])
  reports w i now f d p hj hl hf hfor hp := by
    refine ⟨hfor.2.1, hj.1 f (Pool.mem_of_getElem? hf), fun hk hmark => ?_⟩
    exact hl f hf hk (hfor.1 ▸ (recorded_iff hp _).mpr hmark)

/-- The states of the CFS and of the RFS below it. -/
def serviceStates (db : SomDb) (d : Decomposition) : List ServiceState :=
  ((db.services.find d.cfs).map fun row => row.state).toList ++ (db.services.childStates d.cfs).map Prod.snd

theorem serviceOrderState_eq (hp : Shows w.db d p) : w.db.serviceOrderState d.so = some p.order := by
  obtain ⟨row, hrow, hstate, -⟩ := hp.order
  rw [SomDb.serviceOrderState, hrow, Option.map_some, hstate]

/-- **Without permanent failures, and with no task stuck after it has completed, an order
settles once**: no handler call is refused, a settled service order keeps its state, a
completed task stays completed, and a failed order leaves no service open. -/
theorem settles_once (ls ms : List Orchestrator.Label) (w w' : Orchestrator)
    (h : exec (guarded Mild step) idle ls = some w) (h' : exec (guarded Mild step) w ms = some w') :
    (∀ f ∈ w'.flights, ∀ now, ∃ db', handleTask f.kind f.ev f.found now w'.db = .ok db') ∧
      ∀ d ∈ w.orders,
        (∀ s, w.db.serviceOrderState d.so = some s → soAllowed s = [] → w'.db.serviceOrderState d.so = some s) ∧
        (∀ t, Recorded w.db d.cfs t → Recorded w'.db d.cfs t) ∧
        (w'.db.serviceOrderState d.so = some .failed → ∀ s ∈ serviceStates w'.db d, svcAllowed s = []) := by
  have hidle : NoneFailed idle := by simp [NoneFailed, idle]
  have hall : exec (guarded Mild step) idle (ls ++ ms) = some w' := (exec_append ..).mpr ⟨w, h, h'⟩
  obtain ⟨hi', hj', hreplays'⟩ := idle_replays mild_implies hidle hall
  obtain ⟨hi, hj, hreplays⟩ := idle_replays mild_implies hidle h
  refine ⟨fun f hf now => ?_, fun d hd => ?_⟩
  · obtain ⟨d, hd, hfor, hfound⟩ := hi'.locked f hf
    obtain ⟨p, hrun, hp⟩ := hreplays' d hd
    obtain ⟨cfs, hcfs, -⟩ := hp.cfs
    obtain ⟨p', hstep⟩ := step_isSome (l := report f.kind f.ev d) (exec_kept sound_start hrun).1 hfor.2.1
      (hj'.1 f hf)
    have hshows := handleTask_shows now f.kind hp hcfs hfor hi'.unnamed
    rw [hstep] at hshows
    obtain ⟨db', hdb', -⟩ := hshows
    exact ⟨db', by rw [hfound, hcfs, hdb']⟩
  · obtain ⟨p, hrun, hp⟩ := hreplays d hd
    have hsound := (exec_kept sound_start hrun).1
    obtain ⟨-, ks, p', hrun', hp', -⟩ := (exec_replays mild_implies hi hj h').2.2 d hd p hp
    obtain ⟨hsound', hkept⟩ := exec_kept hsound hrun'
    refine ⟨fun s hs hterm => ?_, fun t ht => ?_, fun hs => ?_⟩
    · obtain rfl : p.order = s := Option.some.inj ((serviceOrderState_eq hp).symm.trans hs)
      rw [serviceOrderState_eq hp', hkept.order hterm]
    · exact (recorded_iff hp' t).mpr (hkept.marks t ((recorded_iff hp t).mp ht))
    · have hfailed : p'.order = .failed := Option.some.inj ((serviceOrderState_eq hp').symm.trans hs)
      rcases hsound'.state with ⟨-, horder⟩ | ⟨-, -, horder⟩
      · rw [hfailed] at horder
        simp at horder
      · exact absurd hfailed horder

/-! ## Runs -/

/-- One task is stuck and completes later, one fails for a time, and all complete. -/
def healed : Orchestrator :=
  (exec (guarded Mild step) idle
    [sampleDecompose, .begin .stuck (sampleTask "HLR_PROVISION"), .commit 0 1,
     .begin .failed (sampleTask "OCS_BALANCE_INIT" ++ [("permanent", .bool false)]), .commit 0 2,
     .begin .completed (sampleTask "OCS_BALANCE_INIT"), .commit 0 3,
     .begin .completed (sampleTask "ESIM_PROFILE_PREPARE"), .commit 0 4,
     .begin .completed (sampleTask "PCRF_POLICY_PUSH"), .commit 0 5,
     .begin .completed (sampleTask "HLR_PROVISION"), .commit 0 6]).get (by decide +kernel)

/-- Completions and a stuck event that come late. -/
def healedLater : Orchestrator :=
  (exec (guarded Mild step) healed
    [.begin .completed (sampleTask "HLR_PROVISION"), .commit 0 7,
     .begin .stuck (sampleTask "HLR_PROVISION")]).get (by decide +kernel)

theorem settles_once_healed :
    (∀ f ∈ healedLater.flights, ∀ now, ∃ db', handleTask f.kind f.ev f.found now healedLater.db = .ok db') ∧
      ∀ d ∈ healed.orders,
        (∀ s, healed.db.serviceOrderState d.so = some s → soAllowed s = [] →
          healedLater.db.serviceOrderState d.so = some s) ∧
        (∀ t, Recorded healed.db d.cfs t → Recorded healedLater.db d.cfs t) ∧
        (healedLater.db.serviceOrderState d.so = some .failed →
          ∀ s ∈ serviceStates healedLater.db d, svcAllowed s = []) :=
  settles_once _ _ healed healedLater (Option.some_get _).symm (Option.some_get _).symm

/-- Two tasks of one order fail for good, one after the other. -/
def failedTwice : Orchestrator :=
  (exec step idle
    [sampleDecompose, .begin .failed (sampleTask "HLR_PROVISION"), .call 0, .call 0, .commit 0 1,
     .begin .failed (sampleTask "PCRF_POLICY_PUSH")]).get (by decide +kernel)

/-- The order has failed and its RFS are still reserved, and the second failure is refused. -/
theorem failed_twice :
    failedTwice.db.serviceOrderState "SO-0001" = some .failed ∧
      (∃ s ∈ serviceStates failedTwice.db sampleDecomposition, svcAllowed s ≠ []) ∧
      (∃ f ∈ failedTwice.flights, (handleTask f.kind f.ev f.found 2 failedTwice.db).toOption.isNone) := by
  decide +kernel

end BssCli.Som.Settlement
