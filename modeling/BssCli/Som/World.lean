import BssCli.Lib.Pool
import BssCli.Som.Refinement

/-!
# All service orders, under any number of handlers

A handler locks its CFS and keeps the lock until it commits or is rolled back. The events
are those of the tasks that were created, in any order and any number of times. Whatever
the interleaving is, the tables show each order as if its committed calls had been made one
by one.
-/

namespace BssCli.Som

open Steps

/-- A handler between its read and its commit. -/
structure TaskCall where
  kind : TaskKind
  ev : TaskEvent
  found : Option ServiceRow
  /-- The release calls that it still has to make. -/
  calls : List Resource

structure Handled where
  kind : TaskKind
  ev : TaskEvent
  deriving DecidableEq

structure Orchestrator where
  db : SomDb
  flights : List TaskCall
  orders : List Decomposition
  /-- The calls that were committed. -/
  handled : List Handled

/-- The release calls a handler has to make before it may commit. -/
def callsOf (k : TaskKind) (ev : TaskEvent) (found : Option ServiceRow) : List Resource :=
  match k with
  | .failed => (failedReleases ev found).toOption.getD []
  | .completed | .stuck => []

namespace Orchestrator

inductive Label
  | decompose (body : Object) (ids : DecomposeIds) (msisdnResult esimResult : Object) (now : Time)
  | begin (k : TaskKind) (body : Object)
  | call (i : ℕ)
  | commit (i : ℕ) (now : Time)
  | abandon (i : ℕ)

def stepDecompose (w : Orchestrator) (body : Object) (ids : DecomposeIds) (msisdnResult esimResult : Object)
    (now : Time) : Except String Orchestrator := do
  let req ← DecomposeRequest.ofBody body
  let reserved ← Reserved.ofReplies msisdnResult esimResult
  let db ← decomposeOrder req ids reserved now w.db
  return { w with db, orders := w.orders ++ [⟨req, ids, reserved⟩] }

/-- The event is for a task of some order, and nobody else has the CFS locked. -/
def Free (w : Orchestrator) (ev : TaskEvent) : Prop :=
  (∃ d ∈ w.orders, ev.IsFor d) ∧ ∀ f ∈ w.flights, f.ev.serviceId ≠ ev.serviceId

instance (w : Orchestrator) (ev : TaskEvent) : Decidable (w.Free ev) := inferInstanceAs (Decidable (_ ∧ _))

def stepBegin (w : Orchestrator) (k : TaskKind) (ev : TaskEvent) : Option Orchestrator :=
  let found := w.db.services.find ev.serviceId
  if w.Free ev then some { w with flights := w.flights ++ [⟨k, ev, found, callsOf k ev found⟩] } else none

def stepCall (w : Orchestrator) (i : ℕ) (f : TaskCall) : Option Orchestrator :=
  match f.calls with
  | [] => none
  | _ :: calls => some { w with flights := w.flights.set i { f with calls } }

def stepCommit (w : Orchestrator) (i : ℕ) (f : TaskCall) (now : Time) : Option Orchestrator :=
  if f.calls = [] then (handleTask f.kind f.ev f.found now w.db).toOption.map fun db =>
    { w with db, flights := w.flights.eraseIdx i, handled := w.handled ++ [⟨f.kind, f.ev⟩] }
  else none

def step (w : Orchestrator) : Label → Option Orchestrator
  | .decompose body ids msisdnResult esimResult now =>
    (w.stepDecompose body ids msisdnResult esimResult now).toOption
  | .begin k body => (TaskEvent.ofBody body).toOption.bind (w.stepBegin k)
  | .call i => w.flights[i]?.bind (w.stepCall i)
  | .commit i now => w.flights[i]?.bind fun f => w.stepCommit i f now
  | .abandon i => w.flights[i]?.map fun _ => { w with flights := w.flights.eraseIdx i }

def idle : Orchestrator := ⟨SomDb.empty, [], [], []⟩

/-- The committed calls for the tasks of `d`. -/
def reports (w : Orchestrator) (d : Decomposition) : List Report :=
  (w.handled.filter fun h => h.ev.serviceId = d.cfs).map fun h => report h.kind h.ev d

end Orchestrator

open Orchestrator

/-! ## What holds in every state -/

structure Orchestrator.Inv (w : Orchestrator) : Prop where
  shows : ∀ d ∈ w.orders, ∃ p, Shows w.db d p
  apart : ∀ d ∈ w.orders, ∀ d' ∈ w.orders, d = d' ∨ Apart d d'
  unnamed : w.db.orders.find "" = none
  staged : ∀ c, (∀ d ∈ w.orders, d.cfs ≠ c) → w.db.events.countP (isCompletion c) = 0
  locked : ∀ f ∈ w.flights, ∃ d ∈ w.orders, f.ev.IsFor d ∧ f.found = w.db.services.find d.cfs
  single : (w.flights.map fun f => f.ev.serviceId).Nodup
  logged : ∀ h ∈ w.handled, ∃ d ∈ w.orders, h.ev.IsFor d

variable {w w' : Orchestrator} {i : ℕ} {f : TaskCall} {d : Decomposition} {p : Progress} {l : Orchestrator.Label}

theorem eq_of_cfs (hi : w.Inv) {d d' : Decomposition} (hd : d ∈ w.orders) (hd' : d' ∈ w.orders)
    (h : d.cfs = d'.cfs) : d = d' := by
  rcases hi.apart d hd d' hd' with heq | hapart
  · exact heq
  · exact absurd (h ▸ cfs_mem) (hapart.1 d.cfs cfs_mem)

/-- A decomposition adds an order that has nothing in common with the others. -/
theorem decompose_adds {body : Object} {ids : DecomposeIds} {msisdnResult esimResult : Object} {now : Time}
    (hi : w.Inv) (h : w.stepDecompose body ids msisdnResult esimResult now = .ok w') :
    ∃ d, w'.orders = w.orders ++ [d] ∧ w'.flights = w.flights ∧ w'.handled = w.handled ∧
      (∀ d' ∈ w.orders, Apart d d') ∧ Shows w'.db d .start ∧ Frame d w.db w'.db ∧
      DecomposeRequest.ofBody body = .ok d.req ∧ d.ids = ids ∧
      Reserved.ofReplies msisdnResult esimResult = .ok d.reserved := by
  simp only [stepDecompose, bind_eq_ok] at h
  obtain ⟨req, hreq, r, hr, db, hdb, h⟩ := h
  cases h
  obtain ⟨hnew, hso⟩ := decomposeOrder_new hdb
  have hcfs : ∀ d ∈ w.orders, d.cfs ≠ ids.cfs := by
    intro d hd heq
    obtain ⟨p, hp⟩ := hi.shows d hd
    exact hp.mem cfs_mem (heq ▸ hnew _ cfs_mem)
  obtain ⟨hstart, hframe⟩ := decomposeOrder_shows hdb (hi.staged _ hcfs)
  refine ⟨⟨req, ids, r⟩, rfl, rfl, rfl, fun d hd => ⟨fun k hk hk' => ?_, fun heq => ?_⟩, hstart, hframe, hreq,
    rfl, hr⟩
  · obtain ⟨p, hp⟩ := hi.shows d hd
    exact hp.mem hk' (hnew k hk)
  · obtain ⟨p, hp⟩ := hi.shows d hd
    obtain ⟨row, hrow, -⟩ := hp.order
    rw [← heq, show (⟨req, ids, r⟩ : Decomposition).so = ids.so from rfl, hso] at hrow
    simp at hrow

theorem decompose_inv {body : Object} {ids : DecomposeIds} {msisdnResult esimResult : Object} {now : Time}
    (hi : w.Inv) (h : w.stepDecompose body ids msisdnResult esimResult now = .ok w') : w'.Inv := by
  obtain ⟨d, horders, hflights, hhandled, hapart, hstart, hframe, -⟩ := decompose_adds hi h
  refine ⟨?_, ?_, ?_, fun c hc => ?_, fun f hf => ?_, hflights ▸ hi.single, fun h hh => ?_⟩
  · rw [horders]
    refine Pool.forall_concat (fun d' hd' => ?_) ⟨.start, hstart⟩
    obtain ⟨p, hp⟩ := hi.shows d' hd'
    exact ⟨p, hp.frame hframe (hapart d' hd')⟩
  · rw [horders]
    intro a ha b hb
    rcases List.mem_append.mp ha with ha | ha <;> rcases List.mem_append.mp hb with hb | hb
    · exact hi.apart a ha b hb
    · rw [List.mem_singleton.mp hb]
      exact Or.inr (hapart a ha).symm
    · rw [List.mem_singleton.mp ha]
      exact Or.inr (hapart b hb)
    · exact Or.inl ((List.mem_singleton.mp ha).trans (List.mem_singleton.mp hb).symm)
  · exact (hframe.orders "" d.so_ne_empty.symm).trans hi.unnamed
  · rw [horders] at hc
    have hne : d.cfs ≠ c := hc d (List.mem_append_right _ (List.mem_singleton_self d))
    rw [hframe.events c (Ne.symm hne)]
    exact hi.staged c fun d' hd' => hc d' (List.mem_append_left _ hd')
  · obtain ⟨d', hd', hfor, hfound⟩ := hi.locked f (hflights ▸ hf)
    refine ⟨d', horders ▸ List.mem_append_left _ hd', hfor, ?_⟩
    rw [hfound, hframe.services d'.cfs fun hmem => (hapart d' hd').1 _ hmem cfs_mem]
  · obtain ⟨d', hd', hfor⟩ := hi.logged h (hhandled ▸ hh)
    exact ⟨d', horders ▸ List.mem_append_left _ hd', hfor⟩

theorem begin_inv {k : TaskKind} {ev : TaskEvent} (hi : w.Inv) (h : w.stepBegin k ev = some w') : w'.Inv := by
  unfold stepBegin at h
  obtain ⟨⟨⟨d, hd, hfor⟩, hfree⟩, h⟩ := Option.ite_none_right_eq_some.mp h
  cases h
  refine ⟨hi.shows, hi.apart, hi.unnamed, hi.staged, Pool.forall_concat hi.locked ⟨d, hd, hfor, ?_⟩, ?_, hi.logged⟩
  · rw [← hfor.1]
  · rw [List.map_append, List.map_singleton, List.nodup_append]
    refine ⟨hi.single, List.nodup_singleton _, fun a ha b hb hab => ?_⟩
    obtain ⟨f, hf, rfl⟩ := List.mem_map.mp ha
    exact hfree f hf (hab.trans (List.mem_singleton.mp hb))

theorem call_inv (hi : w.Inv) (hf : w.flights[i]? = some f) (h : w.stepCall i f = some w') : w'.Inv := by
  unfold stepCall at h
  split at h
  · simp at h
  · rename_i calls hcalls
    cases h
    refine ⟨hi.shows, hi.apart, hi.unnamed, hi.staged, Pool.forall_set hi.locked ?_, ?_, hi.logged⟩
    · exact hi.locked f (Pool.mem_of_getElem? hf)
    · show ((w.flights.set i _).map fun g => g.ev.serviceId).Nodup
      rw [Pool.map_set hf (by rfl)]
      exact hi.single

theorem abandon_inv (hi : w.Inv) : Orchestrator.Inv { w with flights := w.flights.eraseIdx i } :=
  ⟨hi.shows, hi.apart, hi.unnamed, hi.staged, Pool.forall_eraseIdx hi.locked,
    hi.single.sublist ((List.eraseIdx_sublist ..).map _), hi.logged⟩

theorem commit_moves {now : Time} (hi : w.Inv) (hf : w.flights[i]? = some f) (hd : d ∈ w.orders)
    (hfor : f.ev.IsFor d) (hp : Shows w.db d p) (h : w.stepCommit i f now = some w') :
    ∃ p', p.step (report f.kind f.ev d) = some p' ∧ Shows w'.db d p' ∧ Frame d w.db w'.db := by
  unfold stepCommit at h
  obtain ⟨-, h⟩ := Option.ite_none_right_eq_some.mp h
  obtain ⟨db', hdb, rfl⟩ := Option.map_eq_some_iff.mp h
  obtain ⟨d', hd', hfor', hfound⟩ := hi.locked f (Pool.mem_of_getElem? hf)
  obtain rfl := eq_of_cfs hi hd hd' (hfor.1.symm.trans hfor'.1)
  obtain ⟨cfs, hcfs, -⟩ := hp.cfs
  rw [hfound, hcfs] at hdb
  exact handleTask_step hp hcfs hfor hi.unnamed (toOption_eq_some.mp hdb)

theorem commit_log {now : Time} (h : w.stepCommit i f now = some w') :
    w'.orders = w.orders ∧ w'.flights = w.flights.eraseIdx i ∧ w'.handled = w.handled ++ [⟨f.kind, f.ev⟩] := by
  unfold stepCommit at h
  obtain ⟨-, h⟩ := Option.ite_none_right_eq_some.mp h
  obtain ⟨db', -, rfl⟩ := Option.map_eq_some_iff.mp h
  exact ⟨rfl, rfl, rfl⟩

theorem commit_inv {now : Time} (hi : w.Inv) (hf : w.flights[i]? = some f)
    (h : w.stepCommit i f now = some w') : w'.Inv := by
  obtain ⟨d, hd, hfor, hfound⟩ := hi.locked f (Pool.mem_of_getElem? hf)
  obtain ⟨p, hp⟩ := hi.shows d hd
  obtain ⟨p', -, hp', hframe⟩ := commit_moves hi hf hd hfor hp h
  obtain ⟨horders, hflights, hhandled⟩ := commit_log h
  have hother : ∀ d' ∈ w.orders, d' ≠ d → Apart d d' := fun d' hd' hne =>
    (hi.apart d hd d' hd').resolve_left (Ne.symm hne)
  have hothers : ∀ g ∈ w.flights.eraseIdx i, g.ev.serviceId ≠ d.cfs := by
    have hperm := (Pool.perm_eraseIdx hf).map fun g => g.ev.serviceId
    have hnodup := hperm.nodup_iff.mp hi.single
    rw [List.map_cons, List.nodup_cons] at hnodup
    exact fun g hg heq => hnodup.1 (List.mem_map.mpr ⟨g, hg, heq.trans hfor.1.symm⟩)
  refine ⟨?_, horders ▸ hi.apart, ?_, fun c hc => ?_, fun g hg => ?_, ?_, ?_⟩
  · rw [horders]
    intro d' hd'
    by_cases heq : d' = d
    · exact ⟨p', heq ▸ hp'⟩
    · obtain ⟨q, hq⟩ := hi.shows d' hd'
      exact ⟨q, hq.frame hframe (hother d' hd' heq)⟩
  · exact (hframe.orders "" d.so_ne_empty.symm).trans hi.unnamed
  · rw [horders] at hc
    rw [hframe.events c (Ne.symm (hc d hd))]
    exact hi.staged c hc
  · rw [hflights] at hg
    obtain ⟨d', hd', hfor', hfound'⟩ := hi.locked g (List.mem_of_mem_eraseIdx hg)
    have hne : d' ≠ d := fun he => hothers g hg (he ▸ hfor'.1)
    refine ⟨d', horders ▸ hd', hfor', ?_⟩
    rw [hfound', hframe.services d'.cfs ((hother d' hd' hne).symm.1 _ cfs_mem)]
  · rw [hflights]
    exact hi.single.sublist ((List.eraseIdx_sublist ..).map _)
  · rw [hhandled, horders]
    exact Pool.forall_concat hi.logged ⟨d, hd, hfor⟩

theorem Orchestrator.step_inv (hi : w.Inv) (h : w.step l = some w') : w'.Inv := by
  cases l with
  | decompose body ids msisdnResult esimResult now => exact decompose_inv hi (toOption_eq_some.mp h)
  | begin k body =>
    obtain ⟨ev, -, h⟩ := Option.bind_eq_some_iff.mp h
    exact begin_inv hi h
  | call i =>
    obtain ⟨f, hf, h⟩ := Option.bind_eq_some_iff.mp h
    exact call_inv hi hf h
  | commit i now =>
    obtain ⟨f, hf, h⟩ := Option.bind_eq_some_iff.mp h
    exact commit_inv hi hf h
  | abandon i =>
    obtain ⟨f, -, rfl⟩ := Option.map_eq_some_iff.mp h
    exact abandon_inv hi

theorem idle_inv : idle.Inv := by
  refine ⟨?_, ?_, rfl, ?_, ?_, List.nodup_nil, ?_⟩ <;> simp [idle, SomDb.empty]

theorem step_quiet (h : w.step l = some w') :
    (∃ body ids msisdnResult esimResult now, l = .decompose body ids msisdnResult esimResult now) ∨
      (∃ i now, l = .commit i now) ∨ w'.db = w.db ∧ w'.orders = w.orders ∧ w'.handled = w.handled := by
  cases l with
  | decompose body ids msisdnResult esimResult now => exact Or.inl ⟨body, ids, msisdnResult, esimResult, now, rfl⟩
  | commit i now => exact Or.inr (Or.inl ⟨i, now, rfl⟩)
  | begin k body =>
    obtain ⟨ev, -, h⟩ := Option.bind_eq_some_iff.mp h
    obtain ⟨-, h⟩ := Option.ite_none_right_eq_some.mp h
    cases h
    exact Or.inr (Or.inr ⟨rfl, rfl, rfl⟩)
  | call i =>
    obtain ⟨f, -, h⟩ := Option.bind_eq_some_iff.mp h
    unfold stepCall at h
    split at h
    · simp at h
    · cases h
      exact Or.inr (Or.inr ⟨rfl, rfl, rfl⟩)
  | abandon i =>
    obtain ⟨f, -, rfl⟩ := Option.map_eq_some_iff.mp h
    exact Or.inr (Or.inr ⟨rfl, rfl, rfl⟩)

/-! ## The tables replay the committed calls -/

theorem reports_concat (w : Orchestrator) (h : Handled) (hs : w'.handled = w.handled ++ [h]) :
    w'.reports d = w.reports d ++ if h.ev.serviceId = d.cfs then [report h.kind h.ev d] else [] := by
  by_cases hcfs : h.ev.serviceId = d.cfs <;> simp [reports, hs, hcfs]

/-- What a step does to one order: nothing, or it commits a call for it. -/
inductive Moves (w : Orchestrator) (l : Orchestrator.Label) (w' : Orchestrator) (d : Decomposition) (p : Progress) : Prop
  | stays (hp : Shows w'.db d p) (hreports : w'.reports d = w.reports d)
  | reported (i : ℕ) (now : Time) (f : TaskCall) (p' : Progress) (hl : l = .commit i now)
      (hf : w.flights[i]? = some f) (hfor : f.ev.IsFor d) (hstep : p.step (report f.kind f.ev d) = some p')
      (hp' : Shows w'.db d p') (hreports : w'.reports d = w.reports d ++ [report f.kind f.ev d])

theorem step_moves (hi : w.Inv) (hd : d ∈ w.orders) (hp : Shows w.db d p) (h : w.step l = some w') :
    d ∈ w'.orders ∧ Moves w l w' d p := by
  rcases step_quiet h with ⟨body, ids, msisdnResult, esimResult, now, rfl⟩ | ⟨i, now, rfl⟩ | ⟨hdb, horders, hhandled⟩
  · obtain ⟨d', horders, -, hhandled, hapart, -, hframe, -⟩ := decompose_adds hi (toOption_eq_some.mp h)
    refine ⟨horders ▸ List.mem_append_left _ hd, .stays (hp.frame hframe (hapart d hd)) ?_⟩
    rw [reports, hhandled, reports]
  · obtain ⟨f, hf, h⟩ := Option.bind_eq_some_iff.mp h
    obtain ⟨d', hd', hfor, -⟩ := hi.locked f (Pool.mem_of_getElem? hf)
    obtain ⟨horders, -, hhandled⟩ := commit_log h
    refine ⟨horders ▸ hd, ?_⟩
    by_cases heq : d' = d
    · subst heq
      obtain ⟨p', hstep, hp', -⟩ := commit_moves hi hf hd hfor hp h
      refine .reported i now f p' rfl hf hfor hstep hp' ?_
      rw [reports_concat w _ hhandled, if_pos hfor.1]
    · obtain ⟨q, hq⟩ := hi.shows d' hd'
      obtain ⟨-, -, -, hframe⟩ := commit_moves hi hf hd' hfor hq h
      refine .stays (hp.frame hframe ((hi.apart d' hd' d hd).resolve_left heq)) ?_
      rw [reports_concat w _ hhandled, if_neg fun he => heq (eq_of_cfs hi hd' hd (hfor.1.symm.trans he)),
        List.append_nil]
  · refine ⟨horders ▸ hd, .stays (hdb ▸ hp) ?_⟩
    rw [reports, hhandled, reports]

theorem step_new (hi : w.Inv) (h : w.step l = some w') (hd : d ∈ w'.orders) (hnew : d ∉ w.orders) :
    Shows w'.db d .start ∧ w'.reports d = [] := by
  rcases step_quiet h with ⟨body, ids, msisdnResult, esimResult, now, rfl⟩ | ⟨i, now, rfl⟩ | ⟨-, horders, -⟩
  · obtain ⟨d', horders, -, hhandled, hapart, hstart, -⟩ := decompose_adds hi (toOption_eq_some.mp h)
    rw [horders] at hd
    obtain rfl := List.mem_singleton.mp ((List.mem_append.mp hd).resolve_left hnew)
    refine ⟨hstart, ?_⟩
    rw [reports, hhandled, List.map_eq_nil_iff, List.filter_eq_nil_iff]
    intro h hh heq
    obtain ⟨d', hd', hfor⟩ := hi.logged h hh
    have hcfs : d.cfs = d'.cfs := (of_decide_eq_true heq).symm.trans hfor.1
    exact (hapart d' hd').1 _ cfs_mem (hcfs ▸ cfs_mem)
  · obtain ⟨f, -, h⟩ := Option.bind_eq_some_iff.mp h
    exact absurd ((commit_log h).1 ▸ hd) hnew
  · exact absurd (horders ▸ hd) hnew

section Replay

variable {J : Orchestrator → Prop} {C : Orchestrator → Orchestrator.Label → Prop} [∀ w l, Decidable (C w l)]
  {K : Progress → Report → Prop} [∀ p l, Decidable (K p l)]

/-- Under the condition `C`, which keeps `J`, a commit is a step of its order under the
condition `K`. -/
structure Implies (J : Orchestrator → Prop) (C : Orchestrator → Orchestrator.Label → Prop)
    (K : Progress → Report → Prop) : Prop where
  keeps : ∀ w l w', J w → C w l → w.step l = some w' → J w'
  reports : ∀ w i now f d p, J w → C w (.commit i now) → w.flights[i]? = some f → f.ev.IsFor d →
    Shows w.db d p → K p (report f.kind f.ev d)

/-- Every run takes every order through the reports of its committed calls. -/
theorem exec_replays {ls : List Orchestrator.Label} (hC : Implies J C K) (hi : w.Inv) (hj : J w)
    (h : exec (guarded C step) w ls = some w') :
    w'.Inv ∧ J w' ∧ ∀ d ∈ w.orders, ∀ p, Shows w.db d p → d ∈ w'.orders ∧ ∃ ks p',
      exec (guarded K Progress.step) p ks = some p' ∧ Shows w'.db d p' ∧ w'.reports d = w.reports d ++ ks := by
  induction ls generalizing w with
  | nil =>
    simp only [exec_nil, Option.some.injEq] at h
    subst h
    exact ⟨hi, hj, fun d hd p hp => ⟨hd, [], p, rfl, hp, (List.append_nil _).symm⟩⟩
  | cons l ls ih =>
    obtain ⟨w₁, h₁, h₂⟩ := (exec_cons ..).mp h
    obtain ⟨hl, hstep⟩ := guarded_eq_some.mp h₁
    obtain ⟨hi', hj', hrest⟩ := ih (Orchestrator.step_inv hi hstep) (hC.keeps _ _ _ hj hl hstep) h₂
    refine ⟨hi', hj', fun d hd p hp => ?_⟩
    obtain ⟨hd₁, hmoves⟩ := step_moves hi hd hp hstep
    cases hmoves with
    | stays hp₁ hreports =>
      obtain ⟨hd', ks, p', hrun, hp', hks⟩ := hrest d hd₁ p hp₁
      exact ⟨hd', ks, p', hrun, hp', hreports ▸ hks⟩
    | reported i now f p₁ heq hf hfor hreport hp₁ hreports =>
      subst heq
      obtain ⟨hd', ks, p', hrun, hp', hks⟩ := hrest d hd₁ p₁ hp₁
      refine ⟨hd', report f.kind f.ev d :: ks, p', (exec_cons ..).mpr ⟨p₁, ?_, hrun⟩, hp', ?_⟩
      · exact guarded_eq_some.mpr ⟨hC.reports w i now f d p hj hl hf hfor hp, hreport⟩
      · rw [hks, hreports, List.append_assoc, List.singleton_append]

theorem idle_replays {ls : List Orchestrator.Label} (hC : Implies J C K) (hj : J idle)
    (h : exec (guarded C step) idle ls = some w) :
    w.Inv ∧ J w ∧
      ∀ d ∈ w.orders, ∃ p, exec (guarded K Progress.step) .start (w.reports d) = some p ∧ Shows w.db d p := by
  refine guarded_inv (P := fun w => w.Inv ∧ J w ∧ ∀ d ∈ w.orders, ∃ p,
    exec (guarded K Progress.step) .start (w.reports d) = some p ∧ Shows w.db d p) ?_
    ⟨idle_inv, hj, by simp [idle]⟩ h
  rintro s l s' ⟨hi, hj, hs⟩ hl hstep
  refine ⟨Orchestrator.step_inv hi hstep, hC.keeps _ _ _ hj hl hstep, fun d hd => ?_⟩
  by_cases hold : d ∈ s.orders
  · obtain ⟨p, hrun, hp⟩ := hs d hold
    cases (step_moves hi hold hp hstep).2 with
    | stays hp' hreports => exact ⟨p, by rw [hreports, hrun], hp'⟩
    | reported i now f p' heq hf hfor hreport hp' hreports =>
      subst heq
      refine ⟨p', ?_, hp'⟩
      rw [hreports]
      have hK := hC.reports s i now f d p hj hl hf hfor hp
      exact (exec_append ..).mpr ⟨p, hrun, by simp [exec, guarded, hK, hreport]⟩
  · obtain ⟨hstart, hreports⟩ := step_new hi hstep hd hold
    exact ⟨.start, by rw [hreports, exec_nil], hstart⟩

end Replay

/-- What is true of every event that a handler takes up is true of every call. -/
theorem step_calls {P : TaskKind → TaskEvent → Prop} {l : Orchestrator.Label}
    (hbegin : ∀ k body ev, l = .begin k body → TaskEvent.ofBody body = .ok ev → P k ev)
    (hflights : ∀ f ∈ w.flights, P f.kind f.ev) (hhandled : ∀ h ∈ w.handled, P h.kind h.ev)
    (h : w.step l = some w') :
    (∀ f ∈ w'.flights, P f.kind f.ev) ∧ ∀ h ∈ w'.handled, P h.kind h.ev := by
  cases l with
  | decompose body ids msisdnResult esimResult now =>
    have h' := toOption_eq_some.mp h
    simp only [stepDecompose, bind_eq_ok] at h'
    obtain ⟨req, -, r, -, db, -, h'⟩ := h'
    cases h'
    exact ⟨hflights, hhandled⟩
  | begin k body =>
    obtain ⟨ev, hev, h⟩ := Option.bind_eq_some_iff.mp h
    obtain ⟨-, h⟩ := Option.ite_none_right_eq_some.mp h
    cases h
    exact ⟨Pool.forall_concat hflights (hbegin k body ev rfl (toOption_eq_some.mp hev)), hhandled⟩
  | call i =>
    obtain ⟨f, hf, h⟩ := Option.bind_eq_some_iff.mp h
    unfold stepCall at h
    split at h
    · simp at h
    · cases h
      exact ⟨Pool.forall_set hflights (hflights f (Pool.mem_of_getElem? hf)), hhandled⟩
  | commit i now =>
    obtain ⟨f, hf, h⟩ := Option.bind_eq_some_iff.mp h
    obtain ⟨-, h⟩ := Option.ite_none_right_eq_some.mp h
    obtain ⟨db, -, rfl⟩ := Option.map_eq_some_iff.mp h
    exact ⟨Pool.forall_eraseIdx hflights,
      Pool.forall_concat hhandled (hflights f (Pool.mem_of_getElem? hf))⟩
  | abandon i =>
    obtain ⟨f, -, rfl⟩ := Option.map_eq_some_iff.mp h
    exact ⟨Pool.forall_eraseIdx hflights, hhandled⟩

theorem mem_reports (hi : w.Inv) {d : Decomposition} (hd : d ∈ w.orders) {l : Report} :
    l ∈ w.reports d ↔ ∃ h ∈ w.handled, h.ev.IsFor d ∧ report h.kind h.ev d = l := by
  simp only [reports, List.mem_map, List.mem_filter, decide_eq_true_eq]
  constructor
  · rintro ⟨h, ⟨hh, hcfs⟩, rfl⟩
    obtain ⟨d', hd', hfor⟩ := hi.logged h hh
    rw [eq_of_cfs hi hd hd' (hcfs.symm.trans hfor.1)]
    exact ⟨h, hh, hfor, rfl⟩
  · rintro ⟨h, hh, hfor, rfl⟩
    exact ⟨h, ⟨hh, hfor.1⟩, rfl⟩

/-! ## A sample order -/

def sampleBody : Object :=
  [("commercialOrderId", .str "ORD-0001"), ("customerId", .str "CUST-1"), ("offeringId", .str "PLAN_M"),
   ("paymentMethodId", .str "PM-1")]

def sampleDecompose : Orchestrator.Label :=
  .decompose sampleBody ⟨1, 1, 2, 3⟩ [("msisdn", .str "90000042")]
    [("iccid", .str "8965"), ("imsi", .str "525"), ("activationCode", .str "LPA:1")] 0

def sampleDecomposition : Decomposition :=
  ⟨⟨"ORD-0001", "CUST-1", "PLAN_M", none, "PM-1", none⟩, ⟨1, 1, 2, 3⟩, ⟨"90000042", "8965", "525", "LPA:1"⟩⟩

def sampleTask (taskType : String) : Object :=
  [("serviceId", .str "SVC-0001"), ("taskType", .str taskType), ("serviceOrderId", .str "SO-0001"),
   ("commercialOrderId", .str "ORD-0001")]

end BssCli.Som

/-!
# What the orchestrator stages

Every staged event belongs to one of the orders and names its commercial order, also where
the event that a handler was given names none.
-/

namespace BssCli.Som

open Orchestrator

/-- An event of the order `d`. -/
inductive Staged (d : Decomposition) : Event → Prop
  | progress : Staged d ⟨"service_order.in_progress", "ServiceOrder", d.so,
      [("serviceOrderId", .str d.so), ("commercialOrderId", .str d.req.commercialOrderId)]⟩
  | created (t : String) (ht : t ∈ taskTypes) : Staged d (taskCreated d.req d.ids d.reserved t)
  | completed (so : String) (payload : Object)
      (hcomm : strField payload "commercialOrderId" = some d.req.commercialOrderId) :
      Staged d ⟨"service_order.completed", "ServiceOrder", so, payload⟩
  | failed (so : String) (payload : Object)
      (hcomm : strField payload "commercialOrderId" = some d.req.commercialOrderId) :
      Staged d ⟨"service_order.failed", "ServiceOrder", so, payload⟩

variable {w w' : Orchestrator} {d : Decomposition} {p : Progress} {ev : TaskEvent} {cfs : ServiceRow}
  {l : Orchestrator.Label}

theorem get_characteristics_comm (req : DecomposeRequest) (r : Reserved) :
    Fields.get (characteristics req r) "commercialOrderId" = some (.str req.commercialOrderId) := by
  simp [characteristics, Fields.get_cons]

/-- A handler finds the commercial order, in its event or in the CFS. -/
theorem commercialOrderOf_eq {c : Object} (hfor : ev.IsFor d)
    (hc : Fields.get c "commercialOrderId" = Fields.get (characteristics d.req d.reserved) "commercialOrderId") :
    commercialOrderOf ev c = d.req.commercialOrderId := by
  unfold commercialOrderOf
  split
  · rw [optStr, strField, hc, get_characteristics_comm]
    rfl
  · rename_i hne
    rcases hfor.2.2 with h | h
    · exact h.2
    · exact absurd h.2 hne

theorem completedPayload_comm (ev : TaskEvent) (cfsId : String) (chars : Object) :
    strField (completedPayload ev cfsId chars) "commercialOrderId" = some (commercialOrderOf ev chars) := by
  simp [strField, completedPayload, Fields.get_cons, Value.asStr, Value.str]

theorem failedPayload_comm (ev : TaskEvent) (cfs : ServiceRow) :
    strField (failedPayload ev cfs) "commercialOrderId" =
      some (commercialOrderOf ev cfs.characteristics) := by
  simp [strField, failedPayload, Fields.get_cons, Value.asStr, Value.str]

theorem handleTask_staged {k : TaskKind} {now : Time} {db db' : SomDb} (hp : Shows db d p)
    (hcfs : db.services.find d.cfs = some cfs) (hfor : ev.IsFor d)
    (hok : handleTask k ev (some cfs) now db = .ok db') : ∀ e ∈ db'.events, e ∈ db.events ∨ Staged d e := by
  obtain ⟨row, hrow, -, -, hmarks, hothers⟩ := hp.cfs
  obtain rfl : row = cfs := Option.some.inj (hrow.symm.trans hcfs)
  obtain ⟨-, -, hkept⟩ := get_markPending hmarks ev.taskType "completed"
  have hchars := hothers "commercialOrderId" (by decide)
  intro e he
  rcases handleTask_events hok with heq | heq | heq <;> rw [heq] at he
  · exact Or.inl he
  · refine (List.mem_append.mp he).imp_right fun he => ?_
    rw [List.mem_singleton.mp he]
    refine .completed _ _ ((completedPayload_comm ..).trans (congrArg some ?_))
    exact commercialOrderOf_eq hfor ((hkept _ (by decide)).trans hchars)
  · refine (List.mem_append.mp he).imp_right fun he => ?_
    rw [List.mem_singleton.mp he]
    exact .failed _ _ ((failedPayload_comm ..).trans (congrArg some (commercialOrderOf_eq hfor hchars)))

theorem decompose_staged {body : Object} {ids : DecomposeIds} {msisdnResult esimResult : Object} {now : Time}
    (h : w.stepDecompose body ids msisdnResult esimResult now = .ok w') :
    (∀ d ∈ w.orders, d ∈ w'.orders) ∧ ∀ e ∈ w'.db.events, e ∈ w.db.events ∨ ∃ d ∈ w'.orders, Staged d e := by
  simp only [stepDecompose, bind_eq_ok] at h
  obtain ⟨req, -, r, -, db, hdb, h⟩ := h
  cases h
  refine ⟨fun d hd => List.mem_append_left _ hd, fun e he => ?_⟩
  rw [decomposeOrder_events hdb] at he
  refine (List.mem_append.mp he).imp_right fun he => ⟨⟨req, ids, r⟩, by simp, ?_⟩
  rcases List.mem_cons.mp he with rfl | he
  · exact .progress
  · obtain ⟨t, ht, rfl⟩ := List.mem_map.mp he
    exact .created t ht

theorem step_staged (hi : w.Inv) (h : w.step l = some w') :
    (∀ d ∈ w.orders, d ∈ w'.orders) ∧ ∀ e ∈ w'.db.events, e ∈ w.db.events ∨ ∃ d ∈ w'.orders, Staged d e := by
  rcases step_quiet h with ⟨body, ids, msisdnResult, esimResult, now, rfl⟩ | ⟨i, now, rfl⟩ | ⟨hdb, horders, -⟩
  · exact decompose_staged (toOption_eq_some.mp h)
  · obtain ⟨f, hf, h⟩ := Option.bind_eq_some_iff.mp h
    obtain ⟨d, hd, hfor, hfound⟩ := hi.locked f (Pool.mem_of_getElem? hf)
    obtain ⟨p, hp⟩ := hi.shows d hd
    obtain ⟨cfs, hcfs, -⟩ := hp.cfs
    obtain ⟨-, h⟩ := Option.ite_none_right_eq_some.mp h
    obtain ⟨db', hdb, rfl⟩ := Option.map_eq_some_iff.mp h
    rw [hfound, hcfs] at hdb
    refine ⟨fun d hd => hd, fun e he => ?_⟩
    exact (handleTask_staged hp hcfs hfor (toOption_eq_some.mp hdb) e he).imp_right fun hs => ⟨d, hd, hs⟩
  · exact ⟨fun d hd => horders ▸ hd, fun e he => Or.inl (hdb ▸ he)⟩

/-- What is staged is of an order that is there. -/
def AllStaged (w : Orchestrator) : Prop := ∀ e ∈ w.db.events, ∃ d ∈ w.orders, Staged d e

theorem step_allStaged (hi : w.Inv) (hs : AllStaged w) (h : w.step l = some w') : AllStaged w' := by
  obtain ⟨horders, hevents⟩ := step_staged hi h
  intro e he
  rcases hevents e he with he | hnew
  · obtain ⟨d, hd, hd'⟩ := hs e he
    exact ⟨d, horders d hd, hd'⟩
  · exact hnew

end BssCli.Som
