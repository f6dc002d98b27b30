import BssCli.Lib.Steps
import BssCli.Som.World

/-!
# An order is completed by the last of its tasks

Completions only, of any orders, in any order, again and again. For each order its tasks
are the keys of a gate, and the CFS is activated when the gate opens.
-/

namespace BssCli.Som.Completion

open Steps Orchestrator

/-! ## One order -/

/-- The progress of an order whose tasks only complete, beside the gate of its tasks. -/
structure Follows (p : Progress) (g : Gate.State String) : Prop where
  keys : p.marks.map Prod.fst = taskTypes
  state : p.state = if g.opened = 0 then .reserved else .activated
  order : g.opened = 0 → p.order = .inProgress
  completions : p.completions = g.opened
  marks : g.opened = 0 → ∀ t ∈ taskTypes, Fields.get p.marks t = some (.str "completed") ↔ t ∈ g.arrived

variable {p : Progress} {g : Gate.State String} {l : Report}

theorem follows_start : Follows .start Gate.closed :=
  ⟨rfl, rfl, fun _ => rfl, rfl, fun _ => by decide⟩

/-- After the mark, every task that has arrived is completed, and no other. -/
theorem marks_complete (h : Follows p g) (hopen : g.opened = 0) (ht : l.taskType ∈ taskTypes) :
    (p.mark l "completed").marks.map Prod.fst = taskTypes ∧
      (∀ t ∈ taskTypes, Fields.get (p.mark l "completed").marks t = some (.str "completed") ↔
        t ∈ g.arrived ++ [l.taskType]) ∧
      (allCompleted (p.mark l "completed").marks = true ↔
        Gate.Complete taskTypes (g.arrived ++ [l.taskType])) := by
  have hkeys := Progress.mark_keys h.keys ht "completed"
  have hmarks : ∀ t ∈ taskTypes, Fields.get (p.mark l "completed").marks t = some (.str "completed") ↔
      t ∈ g.arrived ++ [l.taskType] := by
    intro t htask
    rw [Progress.mark, Fields.get_insert, List.mem_append, List.mem_singleton]
    split
    · rename_i heq
      simp [heq]
    · rename_i hne
      rw [h.marks hopen t htask]
      simp [hne]
  refine ⟨hkeys, hmarks, ?_⟩
  rw [allCompleted_iff hkeys, Gate.Complete]
  exact forall₂_congr hmarks

theorem step_follows (h : Follows p g) (hk : l.kind = .completed) (ht : l.taskType ∈ taskTypes) :
    ∃ p' g', p.step l = some p' ∧ Gate.arrive taskTypes g l.taskType = some g' ∧ Follows p' g' := by
  rw [Progress.step, hk]
  unfold Gate.arrive
  dsimp only
  by_cases hopen : g.opened = 0
  · obtain ⟨hkeys, hmarks, hall⟩ := marks_complete h hopen ht
    have hstate : p.state = .reserved := by rw [h.state, if_pos hopen]
    have hact : p.state ≠ .activated := by simp [hstate]
    unfold Progress.complete
    rw [if_neg hact]
    by_cases hdone : Gate.Complete taskTypes (g.arrived ++ [l.taskType])
    · have hsvc : .activated ∈ svcAllowed p.state := by simp [hstate, svcAllowed]
      have hsettle := Progress.settle_inProgress (h.order hopen) l (List.mem_cons_self ..)
      rw [if_pos (hall.mpr hdone), if_pos hsvc, hsettle, if_pos (And.intro hopen hdone)]
      refine ⟨_, _, rfl, rfl, hkeys, ?_, ?_, ?_, ?_⟩
      · simp
      · simp
      · rw [h.completions]
      · simp
    · rw [if_neg (mt hall.mp hdone), if_neg fun hboth => hdone hboth.2]
      exact ⟨_, _, rfl, rfl, hkeys, h.state, h.order, h.completions, fun _ => hmarks⟩
  · have hstate : p.state = .activated := by rw [h.state, if_neg hopen]
    rw [Progress.complete, if_pos hstate, if_neg fun hboth => hopen hboth.1]
    exact ⟨_, _, rfl, rfl, h.keys, h.state, fun h0 => absurd h0 hopen, h.completions,
      fun h0 => absurd h0 hopen⟩

theorem exec_follows {ls : List Report}
    (h : exec (guarded (fun _ l => l.kind = .completed ∧ l.taskType ∈ taskTypes) Progress.step) .start ls = some p) :
    ∃ g, Follows p g ∧ g.opened = if Gate.Complete taskTypes (ls.map Report.taskType) then 1 else 0 := by
  obtain ⟨g, hg, hfollows⟩ := exec_simulates_map Report.taskType (R := Follows) (fun p l p' g hR hstep => by
    obtain ⟨hl, hstep⟩ := guarded_eq_some.mp hstep
    obtain ⟨q, g', hq, hg', hfollows⟩ := step_follows hR hl.1 hl.2
    rw [hq] at hstep
    exact ⟨g', hg', Option.some.inj hstep ▸ hfollows⟩) follows_start h
  exact ⟨g, hfollows, Gate.exec_opened (by simp [taskTypes]) hg⟩

/-! ## All orders -/

def OnlyCompletions (_ : Orchestrator) : Orchestrator.Label → Prop
  | .begin k _ => k = .completed
  | _ => True

instance (w : Orchestrator) : ∀ l, Decidable (OnlyCompletions w l)
  | .begin k _ => inferInstanceAs (Decidable (k = .completed))
  | .decompose .. | .call _ | .commit _ _ | .abandon _ => .isTrue trivial

/-- Every call is for a completed task. -/
def Completions (w : Orchestrator) : Prop :=
  (∀ f ∈ w.flights, f.kind = .completed) ∧ ∀ h ∈ w.handled, h.kind = .completed

variable {w : Orchestrator} {d : Decomposition}

theorem completions_implies :
    Implies Completions OnlyCompletions fun _ l => l.kind = .completed ∧ l.taskType ∈ taskTypes where
  keeps w l w' hj hl h :=
    step_calls (P := fun k _ => k = .completed) (fun k body ev heq _ => by subst heq; exact hl) hj.1 hj.2 h
  reports w i now f d p hj _ hf hfor _ := ⟨hj.1 f (Pool.mem_of_getElem? hf), hfor.2.1⟩

/-- The tasks of `d` whose completion was handled. -/
def HasCompleted (w : Orchestrator) (d : Decomposition) (taskType : String) : Prop :=
  ∃ h ∈ w.handled, h.kind = .completed ∧ h.ev.IsFor d ∧ h.ev.taskType = taskType

theorem complete_iff (hi : w.Inv) (hj : Completions w) (hd : d ∈ w.orders) :
    Gate.Complete taskTypes ((w.reports d).map Report.taskType) ↔ ∀ t ∈ taskTypes, HasCompleted w d t := by
  refine forall₂_congr fun t _ => ?_
  simp only [List.mem_map, mem_reports hi hd, HasCompleted]
  constructor
  · rintro ⟨l, ⟨h, hh, hfor, rfl⟩, rfl⟩
    exact ⟨h, hh, hj.2 h hh, hfor, rfl⟩
  · rintro ⟨h, hh, -, hfor, rfl⟩
    exact ⟨_, ⟨h, hh, hfor, rfl⟩, rfl⟩

/-- **The CFS of an order is activated once each of its tasks has completed, and
`service_order.completed` is staged then and not again.** No handler call is refused. -/
theorem completion_exact (ls : List Orchestrator.Label) (w : Orchestrator)
    (h : exec (guarded OnlyCompletions step) idle ls = some w) :
    ∀ d ∈ w.orders, ∃ cfs, w.db.services.find d.cfs = some cfs ∧
      (pendingOf cfs.characteristics).map Prod.fst = taskTypes ∧
      (cfs.state = .activated ↔ ∀ t ∈ taskTypes, HasCompleted w d t) ∧
      w.db.events.countP (isCompletion d.cfs) = (if cfs.state = .activated then 1 else 0) ∧
      ∀ f ∈ w.flights, f.ev.IsFor d → ∀ now, ∃ db', handleTask f.kind f.ev f.found now w.db = .ok db' := by
  obtain ⟨hi, hj, hreplays⟩ := idle_replays completions_implies (by simp [Completions, idle]) h
  intro d hd
  obtain ⟨p, hrun, hp⟩ := hreplays d hd
  obtain ⟨g, hfollows, hopened⟩ := exec_follows hrun
  obtain ⟨cfs, hcfs, -, hstate, hmarks, -⟩ := hp.cfs
  have hact : cfs.state = .activated ↔ ∀ t ∈ taskTypes, HasCompleted w d t := by
    rw [← complete_iff hi hj hd, hstate, hfollows.state, hopened]
    split <;> simp_all
  refine ⟨cfs, hcfs, ?_, hact, ?_, fun f hf hfor now => ?_⟩
  · rw [pendingOf_eq hmarks, hfollows.keys]
  · rw [hp.completions, hfollows.completions, hopened]
    exact if_congr ((complete_iff hi hj hd).trans hact.symm) rfl rfl
  · obtain ⟨d', hd', hfor', hfound⟩ := hi.locked f hf
    obtain rfl := eq_of_cfs hi hd' hd (hfor'.1.symm.trans hfor.1)
    obtain ⟨p', -, hstep, -⟩ := step_follows (l := report f.kind f.ev d') hfollows (hj.1 f hf) hfor.2.1
    have hshows := handleTask_shows now f.kind hp hcfs hfor hi.unnamed
    rw [hstep] at hshows
    obtain ⟨db', hdb', -⟩ := hshows
    exact ⟨db', by rw [hfound, hcfs, hdb']⟩

/-- Every task completes, one of them twice, and one call is rolled back. -/
def completed : Orchestrator :=
  (exec (guarded OnlyCompletions step) idle
    [sampleDecompose, .begin .completed (sampleTask "OCS_BALANCE_INIT"), .commit 0 1,
     .begin .completed (sampleTask "HLR_PROVISION"), .abandon 0,
     .begin .completed (sampleTask "HLR_PROVISION"), .commit 0 2,
     .begin .completed (sampleTask "OCS_BALANCE_INIT"), .commit 0 3,
     .begin .completed (sampleTask "ESIM_PROFILE_PREPARE"), .commit 0 4,
     .begin .completed (sampleTask "PCRF_POLICY_PUSH"), .commit 0 5,
     .begin .completed (sampleTask "HLR_PROVISION")]).get (by decide +kernel)

theorem completion_exact_completed :
    ∃ cfs, completed.db.services.find sampleDecomposition.cfs = some cfs ∧
      (pendingOf cfs.characteristics).map Prod.fst = taskTypes ∧
      (cfs.state = .activated ↔ ∀ t ∈ taskTypes, HasCompleted completed sampleDecomposition t) ∧
      completed.db.events.countP (isCompletion sampleDecomposition.cfs) = (if cfs.state = .activated then 1 else 0) ∧
      ∀ f ∈ completed.flights, f.ev.IsFor sampleDecomposition →
        ∀ now, ∃ db', handleTask f.kind f.ev f.found now completed.db = .ok db' :=
  completion_exact _ completed (Option.some_get _).symm sampleDecomposition (by decide +kernel)

end BssCli.Som.Completion
