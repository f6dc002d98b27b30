import BssCli.Provisioning.World

/-!
# One `provisioning.task.created` event at its consumer

The consumer handles one delivery after the other. It publishes the report of a run before
its one transaction, and acks or rejects the delivery after it. A rejected delivery is
dropped, and what was neither acked nor rejected is delivered again.
-/

namespace BssCli.Provisioning

/-- A task row, with the event row of its transaction. -/
structure Stored where
  task : Task
  report : Emitted
  publishedToMq : Bool

inductive Stage
  | received
  | checked
  | drawn (task : Task) (report : Emitted)
  | published (task : Task) (report : Emitted) (accepted : Bool)
  | acking
  | rejecting

/-- Everything that one event brings about. -/
structure Intake where
  /-- `none`: the message is no JSON. -/
  body : Option Object
  queued : ℕ
  handling : Option Stage
  /-- The inbox row of the event. -/
  claimed : Bool
  stored : List Stored
  published : List Emitted

namespace Intake

inductive Label
  /-- The event is relayed again. -/
  | redeliver
  | take
  /-- `already_processed`. `false`: the read fails. -/
  | check (reads : Bool)
  /-- The run of the task, with the number and the fault that it draws. `false`: a read fails. -/
  | draw (n : ℕ) (env : WorkerEnv) (reads : Bool)
  | publish (accepted : Bool)
  /-- The transaction. `false`: a write fails. -/
  | commit (writes : Bool)
  /-- The ack or the reject. `false`: it does not reach the broker. -/
  | settle (reaches : Bool)
  | crash
  /-- The relay publishes the event of a stored row, and marks it or not. -/
  | relay (i : ℕ) (marked : Bool)

def initial (body : Option Object) : Intake := ⟨body, 1, none, false, [], []⟩

def request (w : Intake) : Option TaskRequest := w.body.bind TaskRequest.ofBody

/-- A failed read of the inbox does not stop the run, and a message that names no task is acked. -/
def step (w : Intake) : Label → Option Intake
  | .redeliver => some { w with queued := w.queued + 1 }
  | .take =>
    match w.handling with
    | none => if 0 < w.queued then some { w with queued := w.queued - 1, handling := some .received } else none
    | some _ => none
  | .check reads =>
    match w.handling with
    | some .received => some { w with handling := if reads ∧ w.claimed then some .acking else some .checked }
    | _ => none
  | .draw n env reads =>
    match w.handling, w.request with
    | some .checked, none => some { w with handling := some .acking }
    | some .checked, some req =>
      if reads then
        let o := processTask env (taskId n) req
        some { w with handling := some (.drawn o.task ⟨o.kind, o.payload req⟩) }
      else some { w with handling := some .rejecting }
    | _, _ => none
  | .publish accepted =>
    match w.handling with
    | some (.drawn task report) => some { w with
        handling := some (.published task report accepted)
        published := w.published ++ if accepted then [report] else [] }
    | _ => none
  | .commit writes =>
    match w.handling with
    | some (.published task report accepted) =>
      if writes then some { w with
        handling := some .acking, claimed := true, stored := w.stored ++ [⟨task, report, accepted⟩] }
      else some { w with handling := some .rejecting }
    | _ => none
  | .settle reaches =>
    match w.handling with
    | some .acking | some .rejecting =>
      some { w with handling := none, queued := if reaches then w.queued else w.queued + 1 }
    | _ => none
  | .crash => w.handling.map fun _ => { w with handling := none, queued := w.queued + 1 }
  | .relay i marked =>
    w.stored[i]?.bind fun r =>
      if r.publishedToMq then none
      else some { w with
        published := w.published ++ [r.report], stored := w.stored.set i { r with publishedToMq := marked } }

/-- No delivery is left and no event waits for the relay. -/
def Settled (w : Intake) : Prop :=
  w.queued = 0 ∧ w.handling.isNone ∧ ∀ r ∈ w.stored, r.publishedToMq

instance (w : Intake) : Decidable w.Settled := inferInstanceAs (Decidable (_ ∧ _ ∧ ∀ r ∈ _, _))

end Intake

/-! ## One outcome -/

namespace OneOutcome

open Steps Intake

/-- A report is out and its row is not committed. -/
def exposed : Option Stage → Bool
  | some (.published _ _ accepted) => accepted
  | _ => false

def isRejecting : Option Stage → Bool
  | some .rejecting => true
  | _ => false

/-- The inbox can be read when the event is claimed, the message names a task, a report that
is out gets its row, and the last delivery is not rejected. -/
def Undisturbed (w : Intake) : Label → Prop
  | .check reads => w.claimed → reads
  | .draw _ _ _ => w.request.isSome
  | .commit writes => exposed w.handling → writes
  | .settle reaches => isRejecting w.handling → reaches → 0 < w.queued
  | .crash => exposed w.handling = false
  | _ => True

instance (w : Intake) : (l : Label) → Decidable (Undisturbed w l)
  | .check _ | .commit _ => inferInstanceAs (Decidable (_ → _))
  | .settle _ => inferInstanceAs (Decidable (_ → _ → _))
  | .draw _ _ _ | .crash => inferInstanceAs (Decidable (_ = _))
  | .redeliver | .take | .publish _ | .relay _ _ => inferInstanceAs (Decidable True)

/-- What is out before the event is claimed. -/
def sent : Option Stage → List Emitted
  | some (.published _ report true) => [report]
  | _ => []

/-- Before the claim there is a delivery that can still make it. -/
def Alive (queued : ℕ) : Option Stage → Prop
  | none => 0 < queued
  | some .acking => False
  | _ => True

theorem Alive.more {queued : ℕ} {handling : Option Stage} (h : Alive queued handling) :
    Alive (queued + 1) handling := by
  cases handling with
  | none => exact Nat.succ_pos _
  | some stage => cases stage <;> exact h

/-- After the claim a delivery is only looked at. -/
def Idle : Option Stage → Prop
  | none | some .received | some .acking => True
  | _ => False

structure Unclaimed (w : Intake) : Prop where
  stored : w.stored = []
  published : w.published = sent w.handling
  alive : Alive w.queued w.handling

structure Claimed (w : Intake) (r : Stored) : Prop where
  stored : w.stored = [r]
  same : ∀ p ∈ w.published, p.kind = r.report.kind
  out : r.publishedToMq → w.published ≠ []
  idle : Idle w.handling

def Inv (w : Intake) : Prop := (w.claimed = false ∧ Unclaimed w) ∨ (w.claimed = true ∧ ∃ r, Claimed w r)

section Step

variable {w w' : Intake} {l : Label}

theorem unclaimed_moves {stage : Stage} (hclaimed : w.claimed = false) (hi : Unclaimed w)
    (hsent : sent w.handling = []) (hnext : sent (some stage) = []) (halive : Alive w.queued (some stage)) :
    Inv { w with handling := some stage } := by
  refine Or.inl ⟨hclaimed, hi.stored, ?_, halive⟩
  rw [hnext, ← hsent]
  exact hi.published

theorem unclaimed_returns (hclaimed : w.claimed = false) (hi : Unclaimed w) (hsent : sent w.handling = [])
    {queued : ℕ} (hq : 0 < queued) : Inv { w with handling := none, queued := queued } := by
  refine Or.inl ⟨hclaimed, hi.stored, ?_, hq⟩
  rw [show sent none = sent w.handling by rw [hsent]; rfl]
  exact hi.published

theorem sent_of_not_exposed {handling : Option Stage} (h : exposed handling = false) : sent handling = [] := by
  unfold exposed at h
  split at h
  · rename_i accepted
    rw [h]
    rfl
  · rename_i hnot
    unfold sent
    split
    · exact absurd rfl (hnot _ _ _)
    · rfl

theorem commit_unclaimed (hclaimed : w.claimed = false) (hi : Unclaimed w) {writes : Bool}
    (hc : Undisturbed w (.commit writes)) (h : w.step (.commit writes) = some w') : Inv w' := by
  simp only [step] at h
  split at h
  · rename_i task report accepted hh
    have hpublished := hi.published
    rw [hh] at hpublished
    split at h
    · cases h
      refine Or.inr ⟨rfl, ⟨task, report, accepted⟩, by simp [hi.stored], ?_, ?_, trivial⟩
      · rw [hpublished]
        cases accepted <;> simp [sent]
      · rintro rfl
        simp [hpublished, sent]
    · rename_i hwrites
      cases h
      have hnot : exposed w.handling = false := by
        rw [← Bool.not_eq_true]
        exact fun hexp => hwrites (hc hexp)
      exact unclaimed_moves hclaimed hi (sent_of_not_exposed hnot) rfl trivial
  · cases h

theorem settle_unclaimed (hclaimed : w.claimed = false) (hi : Unclaimed w) {reaches : Bool}
    (hc : Undisturbed w (.settle reaches)) (h : w.step (.settle reaches) = some w') : Inv w' := by
  simp only [step] at h
  split at h
  · rename_i hh
    have halive := hi.alive
    rw [hh] at halive
    exact halive.elim
  · rename_i hh
    cases h
    refine unclaimed_returns hclaimed hi (by rw [hh]; rfl) ?_
    cases reaches with
    | false => exact Nat.succ_pos _
    | true => exact hc (by rw [hh]; rfl) rfl
  · cases h

theorem step_unclaimed (hclaimed : w.claimed = false) (hi : Unclaimed w) (hc : Undisturbed w l)
    (h : w.step l = some w') : Inv w' := by
  cases l with
  | redeliver =>
    cases h
    exact Or.inl ⟨hclaimed, hi.stored, hi.published, hi.alive.more⟩
  | take =>
    simp only [step] at h
    split at h
    · rename_i hh
      obtain ⟨-, h⟩ := Option.ite_none_right_eq_some.mp h
      cases h
      refine Or.inl ⟨hclaimed, hi.stored, ?_, trivial⟩
      rw [hi.published, hh]
      rfl
    · cases h
  | check reads =>
    have hnot : ¬ (reads ∧ w.claimed) := by simp [hclaimed]
    simp only [step, if_neg hnot] at h
    split at h
    · rename_i hh
      cases h
      exact unclaimed_moves hclaimed hi (by rw [hh]; rfl) rfl trivial
    · cases h
  | draw n env reads =>
    simp only [step] at h
    split at h
    · rename_i hnone
      simp [Undisturbed, hnone] at hc
    · rename_i hh hreq
      have hsent : sent w.handling = [] := by
        rw [hh]
        rfl
      split at h
      · cases h
        exact unclaimed_moves hclaimed hi hsent rfl trivial
      · cases h
        exact unclaimed_moves hclaimed hi hsent rfl trivial
    · cases h
  | publish accepted =>
    simp only [step] at h
    split at h
    · rename_i hh
      cases h
      refine Or.inl ⟨hclaimed, hi.stored, ?_, trivial⟩
      rw [hi.published, hh]
      cases accepted <;> rfl
    · cases h
  | commit writes => exact commit_unclaimed hclaimed hi hc h
  | settle reaches => exact settle_unclaimed hclaimed hi hc h
  | crash =>
    obtain ⟨stage, hh, h⟩ := Option.map_eq_some_iff.mp h
    cases h
    exact unclaimed_returns hclaimed hi (sent_of_not_exposed hc) (Nat.succ_pos _)
  | relay i marked =>
    obtain ⟨r, hr, -⟩ := Option.bind_eq_some_iff.mp h
    rw [hi.stored] at hr
    cases hr

variable {r : Stored}

theorem claimed_moves (hclaimed : w.claimed = true) (hi : Claimed w r) {queued : ℕ} {handling : Option Stage}
    (hidle : Idle handling) : Inv { w with queued, handling } :=
  Or.inr ⟨hclaimed, r, hi.stored, hi.same, hi.out, hidle⟩

theorem relay_claimed (hclaimed : w.claimed = true) (hi : Claimed w r) {i : ℕ} {marked : Bool}
    (h : w.step (.relay i marked) = some w') : Inv w' := by
  obtain ⟨r', hr', h⟩ := Option.bind_eq_some_iff.mp h
  split at h
  · cases h
  · cases h
    rw [hi.stored] at hr'
    have hi0 : i = 0 := by
      by_contra hne
      rw [List.getElem?_eq_none (by simp; omega)] at hr'
      cases hr'
    subst hi0
    cases hr'
    refine Or.inr ⟨hclaimed, { r with publishedToMq := marked }, by simp [hi.stored], ?_, by simp, hi.idle⟩
    intro p hp
    rcases List.mem_append.mp hp with hp | hp
    · exact hi.same p hp
    · rw [List.mem_singleton.mp hp]

theorem step_claimed (hclaimed : w.claimed = true) (hi : Claimed w r) (hc : Undisturbed w l)
    (h : w.step l = some w') : Inv w' := by
  have hidle := hi.idle
  cases l with
  | redeliver =>
    cases h
    exact claimed_moves hclaimed hi hidle
  | take =>
    simp only [step] at h
    split at h
    · obtain ⟨-, h⟩ := Option.ite_none_right_eq_some.mp h
      cases h
      exact claimed_moves hclaimed hi trivial
    · cases h
  | check reads =>
    simp only [step] at h
    split at h
    · cases h
      have hreads : reads = true := hc hclaimed
      exact claimed_moves hclaimed hi (by simp [hreads, hclaimed, Idle])
    · cases h
  | draw n env reads =>
    simp only [step] at h
    split at h
    · rename_i hh _
      rw [hh] at hidle
      exact hidle.elim
    · rename_i hh _
      rw [hh] at hidle
      exact hidle.elim
    · cases h
  | publish accepted =>
    simp only [step] at h
    split at h
    · rename_i hh
      rw [hh] at hidle
      exact hidle.elim
    · cases h
  | commit writes =>
    simp only [step] at h
    split at h
    · rename_i hh
      rw [hh] at hidle
      exact hidle.elim
    · cases h
  | settle reaches =>
    simp only [step] at h
    split at h
    · cases h
      exact claimed_moves hclaimed hi trivial
    · rename_i hh
      rw [hh] at hidle
      exact hidle.elim
    · cases h
  | crash =>
    obtain ⟨stage, hh, h⟩ := Option.map_eq_some_iff.mp h
    cases h
    exact claimed_moves hclaimed hi trivial
  | relay i marked => exact relay_claimed hclaimed hi h

end Step

/-- **One outcome**, in every run in which the inbox can be read, a report that is out gets its
row, the last delivery is not rejected and the message names a task. -/
theorem one_outcome (body : Option Object) (ls : List Label) (w : Intake)
    (h : exec (guarded Undisturbed step) (initial body) ls = some w) (hs : w.Settled) :
    ∃ r, w.stored = [r] ∧ w.published ≠ [] ∧ ∀ p ∈ w.published, p.kind = r.report.kind := by
  have hi : Inv w := by
    have hinit : Inv (initial body) := Or.inl ⟨rfl, rfl, rfl, Nat.one_pos⟩
    refine guarded_inv (P := Inv) ?_ hinit h
    rintro s l s' (⟨hclaimed, hi⟩ | ⟨hclaimed, r, hi⟩) hc hstep
    · exact step_unclaimed hclaimed hi hc hstep
    · exact step_claimed hclaimed hi hc hstep
  obtain ⟨hqueued, hnone, hout⟩ := hs
  rcases hi with ⟨-, hi⟩ | ⟨-, r, hi⟩
  · have halive := hi.alive
    rw [Option.isNone_iff_eq_none.mp hnone, hqueued] at halive
    exact absurd halive (Nat.lt_irrefl 0)
  · refine ⟨r, hi.stored, hi.out (hout r ?_), hi.same⟩
    rw [hi.stored]
    exact List.mem_singleton_self r

def sampleBody : Object :=
  [("serviceId", .str "SVC-1"), ("serviceOrderId", .str "SO-1"), ("taskType", .str "HLR_PROVISION")]

def calm : WorkerEnv := ⟨none, false, fun _ => false, .sim, 0⟩

def sticking : WorkerEnv := ⟨some "stuck", true, fun _ => false, .sim, 0⟩

/-- The worker crashes before the ack, and the event is relayed again. The publish fails and is
made up by the relay. -/
def redelivered : List Label :=
  [.take, .check true, .draw 1 calm true, .publish false, .commit true, .crash, .take, .check true, .settle true,
   .relay 0 true, .redeliver, .take, .check true, .settle true]

theorem one_outcome_redelivered :
    let w := (exec (guarded Undisturbed step) (initial (some sampleBody)) redelivered).get (by decide)
    w.published.map Emitted.kind = [.completed] ∧ ∃ r, w.stored = [r] ∧ r.task.state = .completed := by
  intro w
  refine ⟨by decide, ?_⟩
  obtain ⟨r, hstored, -⟩ := one_outcome (some sampleBody) redelivered w (Option.some_get _).symm (by decide)
  have hstate : ∀ r ∈ w.stored, r.task.state = .completed := by decide
  exact ⟨r, hstored, hstate r (by rw [hstored]; exact List.mem_singleton_self r)⟩

/-- A crash after the publish brings a second report of another kind, and a failed write none. -/
theorem two_outcomes_or_none :
    (∃ w, exec step (initial (some sampleBody)) [.take, .check true, .draw 1 calm true, .publish true, .crash,
        .take, .check true, .draw 2 sticking true, .publish true, .commit true, .settle true] = some w ∧
      w.Settled ∧ w.published.map Emitted.kind = [.completed, .stuck]) ∧
    ∃ w, exec step (initial (some sampleBody)) [.take, .check true, .draw 1 calm true, .publish false,
        .commit false, .settle true] = some w ∧
      w.Settled ∧ w.published = [] ∧ w.stored = [] :=
  ⟨⟨_, rfl, by decide, rfl⟩, ⟨_, rfl, by decide, rfl, rfl⟩⟩

end OneOutcome

end BssCli.Provisioning
