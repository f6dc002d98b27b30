import BssCli.Provisioning.World
import BssCli.Som.Completion

/-!
# A repaired task heals its order

The event of a repaired task names no service order. An order that such an event finishes
is activated, and its service order stays in progress. Every other order is completed.
-/

namespace BssCli.Provisioning.Healing

open Steps
open Som (Progress Report Shows Decomposition Orchestrator TaskEvent TaskKind ServiceRow SomDb taskTypes
  allCompleted markPending pendingOf report isCompletion)
open Som.Completion (HasCompleted)

/-! ## One order -/

/-- The order is activated, or the report is none of these: a last completion that is not
named, a permanent failure, a stuck task that has completed before. -/
def HealingReport (p : Progress) (l : Report) : Prop :=
  l.taskType ∈ taskTypes ∧ (p.state = .activated ∨
    (l.kind = .completed → allCompleted (p.mark l "completed").marks = true → l.named = true) ∧
    (l.kind = .failed → l.permanent = false) ∧
    (l.kind = .stuck → Fields.get p.marks l.taskType ≠ some (.str "completed")))

instance (p : Progress) (l : Report) : Decidable (HealingReport p l) := inferInstanceAs (Decidable (_ ∧ _))

/-- The order after the reports `done`: some task has not completed, or all is well. -/
structure Healed (p : Progress) (done : List Report) : Prop where
  keys : p.marks.map Prod.fst = taskTypes
  phase : (p.state = .reserved ∧ p.order = .inProgress ∧ p.completions = 0 ∧ allCompleted p.marks = false ∧
      ∀ l ∈ done, l.kind = .completed → Fields.get p.marks l.taskType = some (.str "completed")) ∨
    p.state = .activated ∧ p.order = .completed ∧ p.completions = 1

variable {p p' : Progress} {l : Report} {done : List Report}

theorem healed_start : Healed .start [] := ⟨rfl, Or.inl ⟨rfl, rfl, rfl, by decide, by simp⟩⟩

theorem complete_healed (hp : Healed p done) (hl : HealingReport p l) (hk : l.kind = .completed) :
    ∃ p', p.step l = some p' ∧ Healed p' (done ++ [l]) := by
  obtain ⟨ht, hl⟩ := hl
  unfold Progress.step Progress.complete
  rw [hk]
  dsimp only
  have hkeys := Progress.mark_keys hp.keys ht "completed"
  rcases hp.phase with ⟨hstate, horder, hcompletions, -, hdone⟩ | hactivated
  · rw [if_neg (by simp [hstate])]
    by_cases hall : allCompleted (p.mark l "completed").marks = true
    · -- The last one: it is named, so that the service order is found.
      have hnamed : l.named = true := by
        rcases hl with hl | hl
        · simp [hstate] at hl
        · exact hl.1 hk hall
      have hsettle := Progress.settle_inProgress horder l (List.mem_cons_self ..)
      rw [if_pos hall, if_pos (by simp [hstate, Som.svcAllowed]), hsettle, if_pos hnamed]
      exact ⟨_, rfl, hkeys, Or.inr ⟨rfl, rfl, by simp [hcompletions]⟩⟩
    · rw [if_neg hall]
      refine ⟨_, rfl, hkeys, Or.inl ⟨hstate, horder, hcompletions, by simpa using hall, ?_⟩⟩
      refine Pool.forall_concat (fun m hm hmk => ?_) fun _ => Fields.get_insert_self ..
      rw [Progress.mark, Fields.get_insert]
      split
      · rfl
      · exact hdone m hm hmk
  · rw [if_pos hactivated.1]
    exact ⟨p, rfl, hp.keys, Or.inr hactivated⟩

theorem fail_healed (hp : Healed p done) (hl : HealingReport p l) (hk : l.kind = .failed)
    (h : p.step l = some p') : Healed p' (done ++ [l]) := by
  unfold Progress.step Progress.fail at h
  rw [hk] at h
  dsimp only at h
  rcases hp.phase with ⟨hstate, horder, hcompletions, hall, hdone⟩ | ⟨hstate, hsettled⟩
  · have hpermanent : l.permanent = false := by
      rcases hl.2 with hl | hl
      · simp [hstate] at hl
      · exact hl.2.1 hk
    rw [if_neg (by simp [hpermanent])] at h
    cases h
    refine ⟨hp.keys, Or.inl ⟨hstate, horder, hcompletions, hall, Pool.forall_concat hdone fun hk' => ?_⟩⟩
    simp [hk] at hk'
  · -- An activated order refuses a permanent failure.
    split at h
    · simp [hstate, Som.svcAllowed] at h
    · cases h
      exact ⟨hp.keys, Or.inr ⟨hstate, hsettled⟩⟩

theorem stuck_healed (hp : Healed p done) (hl : HealingReport p l) (hk : l.kind = .stuck)
    (h : p.step l = some p') : Healed p' (done ++ [l]) := by
  unfold Progress.step at h
  rw [hk] at h
  cases h
  have hkeys := Progress.mark_keys hp.keys hl.1 "stuck"
  rcases hp.phase with ⟨hstate, horder, hcompletions, hall, hdone⟩ | hactivated
  · have hopen : Fields.get p.marks l.taskType ≠ some (.str "completed") := by
      rcases hl.2 with hl | hl
      · simp [hstate] at hl
      · exact hl.2.2 hk
    refine ⟨hkeys, Or.inl ⟨hstate, horder, hcompletions, ?_, Pool.forall_concat (fun m hm hmk => ?_) fun hk' => ?_⟩⟩
    · rw [Bool.eq_false_iff, ne_eq, Som.allCompleted_iff hkeys]
      intro hcompleted
      have := hcompleted _ hl.1
      simp [Progress.mark, Fields.get_insert_self] at this
    · have hne : m.taskType ≠ l.taskType := fun heq => hopen (heq ▸ hdone m hm hmk)
      rw [Progress.mark, Fields.get_insert_ne hne]
      exact hdone m hm hmk
    · simp [hk] at hk'
  · exact ⟨hkeys, Or.inr hactivated⟩

theorem step_healed (hp : Healed p done) (hl : HealingReport p l) (h : p.step l = some p') :
    Healed p' (done ++ [l]) := by
  cases hk : l.kind with
  | completed =>
    obtain ⟨q, hq, hhealed⟩ := complete_healed hp hl hk
    rw [hq, Option.some.injEq] at h
    exact h ▸ hhealed
  | failed => exact fail_healed hp hl hk h
  | stuck => exact stuck_healed hp hl hk h

theorem exec_healed {ls : List Report} (hp : Healed p done)
    (h : exec (guarded HealingReport Progress.step) p ls = some p') : Healed p' (done ++ ls) := by
  induction ls generalizing p done with
  | nil =>
    simp only [exec_nil, Option.some.injEq] at h
    simpa [h] using hp
  | cons l ls ih =>
    obtain ⟨p₁, h₁, h₂⟩ := (exec_cons ..).mp h
    obtain ⟨hl, hstep⟩ := guarded_eq_some.mp h₁
    simpa using ih (step_healed hp hl hstep) h₂

theorem Healed.finished (hp : Healed p done)
    (h : ∀ t ∈ taskTypes, ∃ l ∈ done, l.kind = .completed ∧ l.taskType = t) :
    p.state = .activated ∧ p.order = .completed ∧ p.completions = 1 := by
  rcases hp.phase with ⟨-, -, -, hall, hdone⟩ | hactivated
  · rw [Bool.eq_false_iff, ne_eq, Som.allCompleted_iff hp.keys] at hall
    refine absurd (fun t ht => ?_) hall
    obtain ⟨l, hl, hk, rfl⟩ := h t ht
    exact hdone l hl hk
  · exact hactivated

/-! ## All orders -/

/-- The CFS is activated, or the call is none of these: a last completion that names no
service order, a permanent failure, a stuck task that is recorded as completed. -/
def HealingCall (k : TaskKind) (ev : TaskEvent) (cfs : ServiceRow) : Prop :=
  cfs.state = .activated ∨
    (k = .completed → allCompleted (markPending cfs.characteristics ev.taskType "completed").2 = true →
      ev.serviceOrderId ≠ "") ∧
    (k = .failed → ev.permanent = false) ∧
    (k = .stuck → Fields.get (pendingOf cfs.characteristics) ev.taskType ≠ some (.str "completed"))

instance (k : TaskKind) (ev : TaskEvent) (cfs : ServiceRow) : Decidable (HealingCall k ev cfs) :=
  inferInstanceAs (Decidable (_ ∨ _))

def Heals (w : Orchestrator) : Orchestrator.Label → Prop
  | .commit i _ => ∀ f ∈ w.flights[i]?, ∀ cfs ∈ f.found, HealingCall f.kind f.ev cfs
  | _ => True

instance (w : Orchestrator) : ∀ l, Decidable (Heals w l)
  | .commit i _ => inferInstanceAs (Decidable (∀ f ∈ w.flights[i]?, ∀ cfs ∈ f.found, _))
  | .decompose .. | .begin .. | .call _ | .abandon _ => .isTrue trivial

variable {w : Orchestrator} {d : Decomposition} {ev : TaskEvent} {cfs : ServiceRow} {k : TaskKind}

theorem healingReport_of_call (hp : Shows w.db d p) (hcfs : w.db.services.find d.cfs = some cfs)
    (hfor : ev.IsFor d) (hcall : HealingCall k ev cfs) : HealingReport p (report k ev d) := by
  obtain ⟨row, hrow, -, hstate, hmarks, -⟩ := hp.cfs
  obtain rfl : row = cfs := Option.some.inj (hrow.symm.trans hcfs)
  obtain ⟨hpending, -⟩ := Som.get_markPending hmarks ev.taskType "completed"
  refine ⟨hfor.2.1, hcall.imp (fun hact => hstate ▸ hact) fun ⟨hlast, hfailed, hstuck⟩ =>
    ⟨fun hk hall => ?_, hfailed, fun hk => ?_⟩⟩
  · have hnamed := hlast hk (hpending ▸ hall)
    rcases hfor.2.2 with h | h
    · simp [report, h.1]
    · exact absurd h.1 hnamed
  · rw [← Som.pendingOf_eq hmarks]
    exact hstuck hk

theorem heals_implies : Som.Implies Orchestrator.Inv Heals HealingReport where
  keeps _ _ _ hi _ h := Orchestrator.step_inv hi h
  reports w i now f d p hi hl hf hfor hp := by
    obtain ⟨d', hd', hfor', hfound⟩ := hi.locked f (Pool.mem_of_getElem? hf)
    obtain ⟨cfs, hcfs, -⟩ := hp.cfs
    have hfind : f.found = some cfs := by rw [hfound, ← hfor'.1, hfor.1, hcfs]
    exact healingReport_of_call hp hcfs hfor (hl f hf cfs hfind)

/-- The state an order is left in where no task gets stuck. -/
structure Finished (db : SomDb) (d : Decomposition) : Prop where
  serviceOrder : db.serviceOrderState d.so = some .completed
  cfs : (db.services.find d.cfs).map (fun row => row.state) = some .activated
  completions : db.events.countP (isCompletion d.cfs) = 1

theorem finished_of_shows (hp : Shows w.db d p)
    (h : p.state = .activated ∧ p.order = .completed ∧ p.completions = 1) : Finished w.db d := by
  obtain ⟨row, hrow, hstate, -⟩ := hp.order
  obtain ⟨cfs, hcfs, -, hcstate, -⟩ := hp.cfs
  refine ⟨?_, ?_, hp.completions.trans h.2.2⟩
  · rw [SomDb.serviceOrderState, hrow, Option.map_some, hstate, h.2.1]
  · rw [hcfs, Option.map_some, hcstate, h.1]

/-- **Once a completion of each of its tasks has been handled, an order is as if none had
been stuck**, however often tasks are resolved, retried and delivered again. Every emitted
event is taken up, and no completion is refused. -/
theorem repair_heals (ls : List Network.Label) (w : Network)
    (h : exec (guarded (OnSom Heals) Network.step) Network.idle ls = some w) :
    (∀ j e, w.emitted[j]? = some e → ∃ ev, TaskEvent.ofBody e.body = .ok ev ∧
      ((∀ f ∈ w.som.flights, f.ev.serviceId ≠ ev.serviceId) → (w.step (.begin j)).isSome)) ∧
    (∀ f ∈ w.som.flights, f.kind = .completed → (∀ cfs ∈ f.found, HealingCall f.kind f.ev cfs) →
      ∀ now, ∃ db', Som.handleTask f.kind f.ev f.found now w.som.db = .ok db') ∧
    ∀ d ∈ w.som.orders, (∀ t ∈ taskTypes, HasCompleted w.som d t) → Finished w.som.db d := by
  have hinv : w.Inv := guarded_inv (fun _ _ _ hi _ => Network.step_inv hi) idle_inv h
  obtain ⟨ms, hms⟩ := exec_som (fun _ _ _ => trivial) h
  obtain ⟨hi, -, hreplays⟩ := Som.idle_replays heals_implies Som.idle_inv hms
  refine ⟨fun j e he => begin_isSome hinv he, fun f hf hk hcall now => ?_, fun d hd hall => ?_⟩
  · obtain ⟨d, hd, hfor, hfound⟩ := hi.locked f hf
    obtain ⟨p, hrun, hp⟩ := hreplays d hd
    obtain ⟨cfs, hcfs, -⟩ := hp.cfs
    have hreport := healingReport_of_call hp hcfs hfor (hcall cfs (hfound.trans hcfs))
    obtain ⟨p', hstep, -⟩ := complete_healed (exec_healed healed_start hrun) hreport hk
    have hshows := Som.handleTask_shows now f.kind hp hcfs hfor hi.unnamed
    rw [hstep] at hshows
    obtain ⟨db', hdb', -⟩ := hshows
    exact ⟨db', by rw [hfound, hcfs, hdb']⟩
  · obtain ⟨p, hrun, hp⟩ := hreplays d hd
    refine finished_of_shows hp ((exec_healed healed_start hrun).finished fun t ht => ?_)
    obtain ⟨c, hc, hk, hfor, rfl⟩ := hall t ht
    exact ⟨report c.kind c.ev d, (Som.mem_reports hi hd).mpr ⟨c, hc, hfor, rfl⟩, hk, rfl⟩

/-! ## Runs -/

def calm : WorkerEnv := ⟨none, false, fun _ => false, .sim, 1⟩

def sticky : WorkerEnv := ⟨some "stuck", true, fun _ => false, .sim, 1⟩

/-- The `j`-th staged event is received, the run is committed, and its event is handled. -/
def complete (j : ℕ) : List Network.Label :=
  [.receive j true ⟨j, calm, true, true⟩, .begin (j - 1), .som (.commit 0 2)]

def stuckFirst : List Network.Label :=
  [.som Som.sampleDecompose, .receive 1 true ⟨1, sticky, true, true⟩, .begin 0, .som (.commit 0 2)]

def resolveFirst (j : ℕ) : List Network.Label :=
  [.resolve "PTK-0001" "profile reloaded", .reset 0, .reprocess 0 ⟨9, calm, true, true⟩, .begin j,
   .som (.commit 0 3)]

/-- The first task is resolved before the last one completes. -/
def repaired : Network :=
  (exec (guarded (OnSom Heals) Network.step) Network.idle
    (stuckFirst ++ complete 2 ++ complete 3 ++ resolveFirst 3 ++
      [.receive 4 true ⟨4, calm, true, true⟩, .begin 4, .som (.commit 0 4)])).get (by decide +kernel)

theorem repair_heals_repaired :
    (∀ j e, repaired.emitted[j]? = some e → ∃ ev, TaskEvent.ofBody e.body = .ok ev ∧
      ((∀ f ∈ repaired.som.flights, f.ev.serviceId ≠ ev.serviceId) → (repaired.step (.begin j)).isSome)) ∧
    (∀ f ∈ repaired.som.flights, f.kind = .completed → (∀ cfs ∈ f.found, HealingCall f.kind f.ev cfs) →
      ∀ now, ∃ db', Som.handleTask f.kind f.ev f.found now repaired.som.db = .ok db') ∧
    ∀ d ∈ repaired.som.orders, (∀ t ∈ taskTypes, HasCompleted repaired.som d t) → Finished repaired.som.db d :=
  repair_heals _ repaired (Option.some_get _).symm

/-- The first task is resolved when all others have completed. -/
def repairedLast : Network :=
  (exec Network.step Network.idle
    (stuckFirst ++ complete 2 ++ complete 3 ++ complete 4 ++ resolveFirst 4)).get (by decide +kernel)

/-- Every task has completed and the CFS is activated, and its service order is not found. -/
theorem repair_loses_order :
    (∀ t ∈ taskTypes, HasCompleted repairedLast.som Som.sampleDecomposition t) ∧
      (repairedLast.som.db.services.find "SVC-0001").map (fun row => row.state) = some .activated ∧
      repairedLast.som.db.serviceOrderState "SO-0001" = some .inProgress ∧
      ¬ Finished repairedLast.som.db Som.sampleDecomposition := by
  refine ⟨by unfold HasCompleted; decide +kernel, by decide +kernel, by decide +kernel, fun h => ?_⟩
  exact absurd h.serviceOrder (by decide +kernel)

end BssCli.Provisioning.Healing
