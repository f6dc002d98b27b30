import BssCli.Agent.Trip
import BssCli.Cockpit.Turns

/-!
# Destructive tools run as authorised

A turn runs a destructive tool only when its message is a `/confirm` or its request has consumed a pending proposal. It
runs at most one, and a proposal goes to at most one turn.
-/

open Text BssCli.Agent Steps

namespace BssCli.Cockpit

namespace World

/-- How many destructive tools the turn has run. -/
def firedBy (w : World) (i : Nat) : Nat := w.executions.countP fun x => x.1 = i ∧ isDestructive x.2.name = true

end World

/-- The destructive tools of every run are authorised. -/
structure Authorised (w : World) : Prop where
  planned : ∀ t ∈ w.turns, planTurn t.transcript t.consumed.isSome = .drive t.drive
  confirmed : ∀ i tc, (i, tc) ∈ w.executions → isDestructive tc.name = true →
    ∃ t, w.turns[i]? = some t ∧ (t.drive.viaSlashConfirm = true ∨ t.consumed.isSome = true)
  once : ∀ i, w.firedBy i ≤ 1
  oneTurn : ∀ (i j : Nat) (t t' : Turn) (p : Proposal), w.turns[i]? = some t → w.turns[j]? = some t' →
    t.consumed = some p → t'.consumed = some p → i = j

/-! ## What a turn may do -/

/-- A turn with `n` destructive tools run. -/
structure TurnOk (n : Nat) (t : Turn) : Prop where
  planned : planTurn t.transcript t.consumed.isSome = .drive t.drive
  most : n ≤ 1
  allowed : n ≠ 0 → t.drive.allowDestructive = true
  counted : ∀ loop, t.stage.isRunning = some loop → loop.closed = false → n ≤ loop.fired

theorem planTurn_allow {transcript : List Char} {pending : Bool} {d : DriveTurn}
    (h : planTurn transcript pending = .drive d) : d.allowDestructive = (pending || d.viaSlashConfirm) := by
  unfold planTurn at h
  split at h
  · cases h
  · split at h
    · cases h
    · obtain rfl := TurnPlan.drive.inj h
      rfl

theorem TurnOk.stage {n : Nat} {t : Turn} (h : TurnOk n t) {s : Stage} (hs : s.isRunning = none) :
    TurnOk n { t with stage := s } :=
  ⟨h.planned, h.most, h.allowed, fun loop hloop => absurd (hs.symm.trans hloop) (by simp)⟩

theorem countP_executed (i j : Nat) (t : Turn) :
    (World.executed i t).countP (fun x => x.1 = j ∧ isDestructive x.2.name = true) =
      if i = j ∧ (t.stage.isRunning.bind Loop.running).any (fun tc => isDestructive tc.name) = true then 1 else 0 := by
  unfold World.executed
  cases t.stage.isRunning.bind Loop.running with
  | none => simp
  | some tc => simp [List.countP_cons]

variable {sf : Surface}

/-- A turn's next effect. Of the loop that it was in, it is one step or the end. -/
theorem Turn.advance_cases {t t' : Turn} {a : Answer} (h : t.advance sf a = some t') :
    ∃ loop, t.stage.isRunning = some loop ∧ t'.transcript = t.transcript ∧ t'.consumed = t.consumed ∧
      t'.drive = t.drive ∧
      (t'.stage.isRunning = none ∨
        ∃ b loop', loop.step sf.library t.drive.userMessage (t.config sf) b = some loop' ∧
          t'.stage.isRunning = some loop') := by
  unfold Turn.advance at h
  split at h
  · rename_i loop hstage
    refine ⟨loop, by rw [hstage]; rfl, ?_⟩
    split at h
    · obtain rfl := Option.some.inj h
      exact ⟨rfl, rfl, rfl, .inl rfl⟩
    · obtain ⟨loop', hstep, rfl⟩ := Option.map_eq_some_iff.mp h
      exact ⟨rfl, rfl, rfl, .inr ⟨_, loop', hstep, rfl⟩⟩
    · obtain ⟨loop', hstep, rfl⟩ := Option.map_eq_some_iff.mp h
      exact ⟨rfl, rfl, rfl, .inr ⟨_, loop', hstep, rfl⟩⟩
  · cases h

/-- What an effect makes of a turn, place by place. -/
inductive Turn.Advanced (sf : Surface) (t : Turn) (a : Answer) : Loop → Turn → Prop
  | prompted : Advanced sf t a .prompted
      { t with stage := .running (.thinking { messages := initialMessages t.drive.userMessage (t.config sf) }) }
  | thinking (l : Locals) (answer : AiTurn) (ha : a = .turn answer) :
      Advanced sf t a (.thinking l) { t with stage := .running (afterTurn l answer) }
  | starting (l : Locals) (tc : ToolCall) (rest : List ToolCall) : Advanced sf t a (.starting l tc rest)
      { t with
        collected := (t.collected.take sf (.toolCallStarted tc.name tc.args tc.id)).1
        stage := .running (execute sf.library (t.config sf) l tc rest) }
  | calling (l : Locals) (tc : ToolCall) (rest : List ToolCall) (result : List Char) (isError : Bool)
      (ha : a = .observed result isError) :
      Advanced sf t a (.calling l tc rest) { t with stage := .running (observe l tc rest result isError) }
  | completing (l : Locals) (tc : ToolCall) (rest : List ToolCall) (result : List Char) (isError : Bool) :
      Advanced sf t a (.completing l tc rest result isError)
        { t with
          collected := (t.collected.take sf (.toolCallCompleted tc.name tc.id (truncate result) isError result)).1
          stage := .running (afterCall sf.library (t.config sf) l tc rest result isError) }
  | auditing (v : OwnershipViolation) (ha : a = .recorded) : Advanced sf t a (.auditing v)
      { t with stage := .running (.failing ("AgentOwnershipViolation: " ++ v.toolName)) }
  | failing (message : String) : Advanced sf t a (.failing message)
      { t with collected := { t.collected with errored := true }, stage := .running .ended }
  | counting (l : Locals) : Advanced sf t a (.counting l) { t with stage := .running (.answering l) }
  | answering (l : Locals) : Advanced sf t a (.answering l)
      { t with
        collected := { t.collected with finalText := some (sf.stripReasoningLeakage l.lastAiText) }
        stage := .running .ended }
  | ended : Advanced sf t a .ended { t with stage := .persisting t.collected.toolRows }

theorem Turn.advanced {t t' : Turn} {a : Answer} {loop : Loop} (hstage : t.stage = .running loop)
    (h : t.advance sf a = some t') : Turn.Advanced sf t a loop t' := by
  unfold Turn.advance at h
  rw [hstage] at h
  dsimp only at h
  cases loop with
  | prompted =>
    obtain rfl := Option.some.inj h
    exact .prompted
  | thinking l =>
    obtain ⟨loop', hstep, rfl⟩ := Option.map_eq_some_iff.mp h
    cases a with
    | turn answer =>
      obtain rfl := Option.some.inj hstep
      exact .thinking l answer rfl
    | taken ok | observed result isError | recorded => cases hstep
  | starting l tc rest =>
    obtain rfl := Option.some.inj h
    exact .starting l tc rest
  | calling l tc rest =>
    obtain ⟨loop', hstep, rfl⟩ := Option.map_eq_some_iff.mp h
    cases a with
    | observed result isError =>
      obtain rfl := Option.some.inj hstep
      exact .calling l tc rest result isError rfl
    | taken ok | turn answer | recorded => cases hstep
  | completing l tc rest result isError =>
    obtain rfl := Option.some.inj h
    exact .completing l tc rest result isError
  | auditing v =>
    obtain ⟨loop', hstep, rfl⟩ := Option.map_eq_some_iff.mp h
    cases a with
    | recorded =>
      obtain rfl := Option.some.inj hstep
      exact .auditing v rfl
    | taken ok | turn answer | observed result isError => cases hstep
  | failing message =>
    obtain rfl := Option.some.inj h
    exact .failing message
  | counting l =>
    obtain rfl := Option.some.inj h
    exact .counting l
  | answering l =>
    obtain rfl := Option.some.inj h
    exact .answering l
  | ended =>
    obtain rfl := Option.some.inj h
    exact .ended

theorem TurnOk.advance {n : Nat} {t t' : Turn} {a : Answer} (h : TurnOk n t) (hadv : t.advance sf a = some t') :
    TurnOk (n + if (t'.stage.isRunning.bind Loop.running).any (fun tc => isDestructive tc.name) = true then 1 else 0)
      t' := by
  obtain ⟨loop, hloop, htr, hcons, hdrive, hnext⟩ := Turn.advance_cases hadv
  have hplanned : planTurn t'.transcript t'.consumed.isSome = .drive t'.drive := by rw [htr, hcons, hdrive]; exact h.planned
  rcases hnext with hnone | ⟨b, loop', hstep, hloop'⟩
  · rw [hnone]
    exact ⟨hplanned, h.most, fun hn => hdrive ▸ h.allowed hn, fun l hl => absurd (hnone.symm.trans hl) (by simp)⟩
  · rw [hloop', Option.bind_some]
    have hsame : ∀ l, t'.stage.isRunning = some l → l = loop' := fun l hl => Option.some.inj (hl.symm.trans hloop')
    rcases step_fired hstep with ⟨hclosed, hrun⟩ | ⟨hopen, hrun, hle⟩ | ⟨hopen, tc, hrun, hgate⟩
    · rw [hrun]
      refine ⟨hplanned, h.most, fun hn => hdrive ▸ h.allowed hn, fun l hl hl' => ?_⟩
      rw [hsame l hl, hclosed] at hl'
      cases hl'
    · rw [hrun]
      refine ⟨hplanned, h.most, fun hn => hdrive ▸ h.allowed hn, fun l hl _ => ?_⟩
      rw [hsame l hl]
      exact (h.counted loop hloop hopen).trans hle
    · have hcount := h.counted loop hloop hopen
      rw [hrun]
      rcases gateDestructive_eq hgate with ⟨hname, hfired⟩ | ⟨hname, hallow, hzero, hfired⟩
      · rw [Option.any_some, if_neg (by simp [hname])]
        refine ⟨hplanned, h.most, fun hn => hdrive ▸ h.allowed hn, fun l hl _ => ?_⟩
        rw [hsame l hl, hfired]
        exact hcount
      · rw [Option.any_some, if_pos hname]
        have hz : loop.fired = 0 := hzero rfl
        refine ⟨hplanned, by omega, fun _ => hdrive ▸ hallow, fun l hl _ => ?_⟩
        rw [hsame l hl, hfired]
        omega

/-! ## Where a proposal is -/

def bears (k : Nat) (p : Option Proposal) : Bool := p.any fun p => p.stamp = k

@[simp]
theorem bears_none (k : Nat) : bears k none = false := rfl

@[simp]
theorem bears_some (k : Nat) (p : Proposal) : bears k (some p) = decide (p.stamp = k) := rfl

@[simp]
theorem Handler.pending_opened : Handler.opened.pending = none := rfl

@[simp]
theorem Handler.pending_read (transcript : List Char) : (Handler.read transcript).pending = none := rfl

@[simp]
theorem Handler.pending_consumed (transcript : List Char) (p : Option Proposal) :
    (Handler.consumed transcript p).pending = p := rfl

/-- How many have the proposal with this stamp: the store, the requests, the turns. -/
def World.holders (w : World) (k : Nat) : Nat :=
  (bears k w.pending).toNat + w.handlers.countP (fun h => bears k h.pending) +
    w.turns.countP fun t => bears k t.consumed

theorem toNat_eq_ite (b : Bool) : b.toNat = if b = true then 1 else 0 := by
  cases b <;> rfl

theorem countP_bears_set {handlers : List Handler} {i : Nat} {x : Handler} (hx : handlers[i]? = some x) (y : Handler)
    (k : Nat) :
    (handlers.set i y).countP (fun h => bears k h.pending) + (bears k x.pending).toNat =
      handlers.countP (fun h => bears k h.pending) + (bears k y.pending).toNat := by
  rw [toNat_eq_ite, toNat_eq_ite]
  exact Pool.countP_set (fun h => bears k h.pending) hx y

theorem countP_bears_eraseIdx {handlers : List Handler} {i : Nat} {x : Handler} (hx : handlers[i]? = some x) (k : Nat) :
    handlers.countP (fun h => bears k h.pending) =
      (handlers.eraseIdx i).countP (fun h => bears k h.pending) + (bears k x.pending).toNat := by
  rw [toNat_eq_ite]
  exact Pool.countP_eraseIdx (fun h => bears k h.pending) hx

theorem countP_bears_consumed {turns : List Turn} {i : Nat} {t : Turn} (ht : turns[i]? = some t) (t' : Turn)
    (hcons : t'.consumed = t.consumed) (k : Nat) :
    (turns.set i t').countP (fun t => bears k t.consumed) = turns.countP fun t => bears k t.consumed := by
  have hcount := Pool.countP_set (fun t => bears k t.consumed) ht t'
  simp only [hcons] at hcount
  omega

/-! ## What a step does -/

/-- Of a turn whose loop is over, only the stage changes. A loop that goes on is one effect further. -/
inductive Goes (sf : Surface) (t : Turn) : Turn → Prop
  | rests (s : Stage) (h : s.isRunning = none) : Goes sf t { t with stage := s }
  | advances {t' : Turn} (a : Answer) (h : t.advance sf a = some t') : Goes sf t t'

/-- What a step does to the turns and the proposals. -/
inductive Moves (sf : Surface) (w w' : World) : Prop
  /-- No turn is touched, and a proposal at most goes from the store to a request, or is lost. -/
  | keeps (hturns : w'.turns = w.turns) (hexec : w'.executions = w.executions) (hstamps : w'.stamps = w.stamps)
      (hholders : ∀ k, w'.holders k ≤ w.holders k)
  | starts (t : Turn) (hplanned : planTurn t.transcript t.consumed.isSome = .drive t.drive)
      (hturns : w'.turns = w.turns ++ [t]) (hexec : w'.executions = w.executions) (hstamps : w'.stamps = w.stamps)
      (hholders : ∀ k, w'.holders k ≤ w.holders k)
  | goes (i : Nat) {t t' : Turn} (ht : w.turns[i]? = some t) (hgoes : Goes sf t t') (hturns : w'.turns = w.turns.set i t')
      (hexec : w'.executions = w.executions ++ World.executed i t') (hhandlers : w'.handlers = w.handlers)
      (hpending : w'.pending = w.pending) (hstamps : w'.stamps = w.stamps)
  | proposes (i : Nat) {t : Turn} {p : Proposal} (ht : w.turns[i]? = some t) (hstamp : p.stamp = w.stamps)
      (hturns : w'.turns = w.turns.set i { t with stage := .finished }) (hexec : w'.executions = w.executions)
      (hhandlers : w'.handlers = w.handlers) (hpending : w'.pending = some p) (hstamps : w'.stamps = w.stamps + 1)
  | restarts (hturns : w'.turns = w.turns.map fun t => { t with stage := .finished })
      (hexec : w'.executions = w.executions) (hhandlers : w'.handlers = []) (hpending : w'.pending = w.pending)
      (hstamps : w'.stamps = w.stamps)

theorem Goes.consumed {t t' : Turn} (h : Goes sf t t') : t'.consumed = t.consumed := by
  cases h with
  | rests s h => rfl
  | advances a h =>
    obtain ⟨-, -, -, hcons, -⟩ := Turn.advance_cases h
    exact hcons

theorem Moves.rests {w w' : World} {i : Nat} {t : Turn} {s : Stage} (ht : w.turns[i]? = some t) (hs : s.isRunning = none)
    (hturns : w'.turns = w.turns.set i { t with stage := s }) (hexec : w'.executions = w.executions)
    (hhandlers : w'.handlers = w.handlers) (hpending : w'.pending = w.pending) (hstamps : w'.stamps = w.stamps) :
    Moves sf w w' := by
  refine .goes i ht (.rests s hs) hturns ?_ hhandlers hpending hstamps
  rw [hexec, World.executed, hs]
  exact (List.append_nil _).symm

/-- The proposal goes from the store to the request, or is lost. -/
theorem World.consumePending_moves {w w' : World} {i : ℕ} {r : Reply} (h : w.step sf (.consumePending i r) = some w') :
    Moves sf w w' := by
  simp only [World.step] at h
  split at h
  · rename_i transcript hi
    obtain rfl := Option.some.inj h
    refine .keeps rfl rfl rfl fun k => ?_
    have hcount := countP_bears_set hi (.consumed transcript (if r = .done then w.pending else none)) k
    simp only [Handler.pending_read, Handler.pending_consumed, bears_none, Bool.toNat_false] at hcount
    simp only [World.holders]
    cases r
    all_goals
      simp only [reduceCtorEq, if_true, if_false, bears_none, Bool.toNat_false] at hcount ⊢
      omega
  · cases h

/-- The proposal goes from the request to the turn. -/
theorem World.plan_moves {w w' : World} {i : ℕ} (h : w.step sf (.plan i) = some w') : Moves sf w w' := by
  simp only [World.step] at h
  split at h
  · rename_i transcript pending hi
    have hcount := countP_bears_eraseIdx hi
    split at h
    · rename_i d hplan
      obtain rfl := Option.some.inj h
      refine .starts _ hplan rfl rfl rfl fun k => ?_
      have := hcount k
      simp only [Handler.pending_consumed, toNat_eq_ite] at this
      simp only [World.holders, List.countP_append, List.countP_singleton]
      omega
    · obtain rfl := Option.some.inj h
      refine .keeps rfl rfl rfl fun k => ?_
      have := hcount k
      simp only [World.holders]
      omega
  · cases h

theorem World.answer_moves {w w' : World} {i : ℕ} {r : Reply} (h : w.step sf (.answer i r) = some w') :
    Moves sf w w' := by
  simp only [World.step] at h
  split at h
  · rename_i t ht
    split at h
    · split at h
      · obtain rfl := Option.some.inj h
        exact .rests (s := .finished) ht rfl rfl rfl rfl rfl rfl
      · split at h
        · rename_i call hcall
          split at h
          · obtain rfl := Option.some.inj h
            exact .rests (s := .staging call) ht rfl rfl rfl rfl rfl rfl
          · obtain rfl := Option.some.inj h
            exact .rests (s := .finished) ht rfl rfl rfl rfl rfl rfl
        · obtain rfl := Option.some.inj h
          exact .rests (s := .finished) ht rfl rfl rfl rfl rfl rfl
    · cases h
  · cases h

theorem World.step_moves {w w' : World} {l : Step} (h : w.step sf l = some w') : Moves sf w w' := by
  cases l with
  | post message =>
    simp only [World.step] at h
    split at h
    all_goals
      obtain rfl := Option.some.inj h
      exact .keeps rfl rfl rfl fun k => Nat.le_refl _
  | reset =>
    obtain rfl := Option.some.inj h
    exact .keeps rfl rfl rfl fun k => Nat.le_refl _
  | resetPending =>
    obtain ⟨-, h⟩ := Option.ite_none_left_eq_some.mp h
    obtain rfl := Option.some.inj h
    refine .keeps rfl rfl rfl fun k => ?_
    simp only [World.holders, bears_none, Bool.toNat_false]
    omega
  | openStream =>
    simp only [World.step] at h
    split at h
    all_goals
      obtain rfl := Option.some.inj h
      refine .keeps rfl rfl rfl fun k => ?_
      simp [World.holders]
  | readTranscript i ok =>
    simp only [World.step] at h
    split at h
    · rename_i hi
      obtain rfl := Option.some.inj h
      refine .keeps rfl rfl rfl fun k => ?_
      have hcount := countP_bears_set hi (.read (if ok = true then transcriptText w.rows else [])) k
      simp only [Handler.pending_opened, Handler.pending_read, bears_none, Bool.toNat_false] at hcount
      simp only [World.holders]
      omega
    · cases h
  | consumePending i r => exact World.consumePending_moves h
  | plan i => exact World.plan_moves h
  | drop i =>
    obtain rfl := Option.some.inj h
    refine .keeps rfl rfl rfl fun k => ?_
    have := (List.eraseIdx_sublist w.handlers i).countP_le (p := fun h => bears k h.pending)
    simp only [World.holders]
    omega
  | loop i a =>
    obtain ⟨t, ht, h⟩ := Option.bind_eq_some_iff.mp h
    obtain ⟨t', hadv, rfl⟩ := Option.map_eq_some_iff.mp h
    exact .goes i ht (.advances a hadv) rfl rfl rfl rfl rfl
  | noModel i =>
    simp only [World.step] at h
    split at h
    · rename_i t ht
      split at h
      · obtain rfl := Option.some.inj h
        exact .rests (s := .finished) ht rfl rfl rfl rfl rfl rfl
      · cases h
    · cases h
  | persist i ok =>
    simp only [World.step] at h
    split at h
    · rename_i t ht
      split at h
      · obtain rfl := Option.some.inj h
        exact .rests (s := .answering) ht rfl rfl rfl rfl rfl rfl
      · rename_i name body rest hstage
        obtain rfl := Option.some.inj h
        exact .rests (s := .persisting rest) ht rfl rfl rfl rfl rfl rfl
      · cases h
    · cases h
  | answer i r => exact World.answer_moves h
  | stagePending i ok =>
    simp only [World.step] at h
    split at h
    · rename_i t ht
      split at h
      · split at h
        · obtain rfl := Option.some.inj h
          exact .proposes i ht rfl rfl rfl rfl rfl rfl
        · obtain rfl := Option.some.inj h
          exact .rests (s := .finished) ht rfl rfl rfl rfl rfl rfl
      · cases h
    · cases h
  | restart =>
    obtain rfl := Option.some.inj h
    exact .restarts rfl rfl rfl rfl rfl

/-! ## The turns of a run -/

structure TurnsOk (w : World) : Prop where
  turns : ∀ i t, w.turns[i]? = some t → TurnOk (w.firedBy i) t
  known : ∀ x ∈ w.executions, x.1 < w.turns.length

theorem World.firedBy_congr {w w' : World} (h : w'.executions = w.executions) (i : Nat) :
    w'.firedBy i = w.firedBy i := by
  unfold World.firedBy
  rw [h]

theorem TurnsOk.keep {w w' : World} (h : TurnsOk w) (hturns : w'.turns = w.turns)
    (hexec : w'.executions = w.executions) : TurnsOk w' := by
  refine ⟨fun i t ht => ?_, fun x hx => ?_⟩
  · rw [World.firedBy_congr hexec]
    exact h.turns i t (hturns ▸ ht)
  · rw [hturns]
    exact h.known x (hexec ▸ hx)

theorem TurnsOk.put {w w' : World} {i : Nat} {t t' : Turn} (h : TurnsOk w) (ht : w.turns[i]? = some t)
    (hturns : w'.turns = w.turns.set i t') (hexec : w'.executions = w.executions ++ World.executed i t')
    (hok : TurnOk (w.firedBy i +
      if (t'.stage.isRunning.bind Loop.running).any (fun tc => isDestructive tc.name) = true then 1 else 0) t') :
    TurnsOk w' := by
  have hlen : i < w.turns.length := (List.getElem?_eq_some_iff.mp ht).1
  have hfired : ∀ j, w'.firedBy j = w.firedBy j +
      if i = j ∧ (t'.stage.isRunning.bind Loop.running).any (fun tc => isDestructive tc.name) = true then 1 else 0 := by
    intro j
    unfold World.firedBy
    rw [hexec, List.countP_append, countP_executed]
  refine ⟨fun j u hu => ?_, fun x hx => ?_⟩
  · rw [hturns, List.getElem?_set] at hu
    rw [hfired]
    split at hu
    · rename_i hij
      subst hij
      obtain rfl : t' = u := by simpa [hlen] using hu
      simpa using hok
    · rename_i hij
      rw [if_neg fun h => hij h.1]
      exact h.turns j u hu
  · rw [hturns, List.length_set]
    rw [hexec] at hx
    rcases List.mem_append.mp hx with hx | hx
    · exact h.known x hx
    · unfold World.executed at hx
      obtain ⟨tc, -, rfl⟩ := Option.map_eq_some_iff.mp (Option.mem_toList.mp hx)
      exact hlen

theorem TurnsOk.rest {w w' : World} {i : Nat} {t : Turn} {s : Stage} (h : TurnsOk w) (ht : w.turns[i]? = some t)
    (hs : s.isRunning = none) (hturns : w'.turns = w.turns.set i { t with stage := s })
    (hexec : w'.executions = w.executions) : TurnsOk w' := by
  refine h.put ht hturns ?_ ?_
  · rw [hexec, World.executed, hs]
    exact (List.append_nil _).symm
  · rw [hs]
    exact (h.turns i t ht).stage hs

theorem TurnsOk.start {w w' : World} {t : Turn} (h : TurnsOk w)
    (hplanned : planTurn t.transcript t.consumed.isSome = .drive t.drive)
    (hturns : w'.turns = w.turns ++ [t]) (hexec : w'.executions = w.executions) : TurnsOk w' := by
  refine ⟨fun i u hu => ?_, fun x hx => ?_⟩
  · rw [World.firedBy_congr hexec]
    rw [hturns, List.getElem?_append] at hu
    split at hu
    · exact h.turns i u hu
    · rename_i hlen
      obtain ⟨hi, rfl⟩ := List.getElem?_eq_some_iff.mp hu
      have hnone : w.firedBy i = 0 := by
        rw [World.firedBy, List.countP_eq_zero]
        intro x hx
        have := h.known x hx
        simp only [decide_eq_true_eq]
        omega
      rw [hnone, List.getElem_singleton]
      exact ⟨hplanned, Nat.zero_le _, fun hn => absurd rfl hn, fun _ _ _ => Nat.zero_le _⟩
  · rw [hturns, List.length_append]
    have := h.known x (hexec ▸ hx)
    omega

theorem TurnsOk.step {w w' : World} {l : Step} (h : TurnsOk w) (hstep : w.step sf l = some w') : TurnsOk w' := by
  cases World.step_moves hstep with
  | keeps hturns hexec => exact h.keep hturns hexec
  | starts t hplanned hturns hexec => exact h.start hplanned hturns hexec
  | goes i ht hgoes hturns hexec =>
    cases hgoes with
    | rests s hs => exact h.put ht hturns hexec (by rw [hs]; exact (h.turns i _ ht).stage hs)
    | advances a hadv => exact h.put ht hturns hexec ((h.turns i _ ht).advance hadv)
  | proposes i ht hstamp hturns hexec => exact h.rest ht rfl hturns hexec
  | restarts hturns hexec =>
    refine ⟨fun i t ht => ?_, fun x hx => ?_⟩
    · rw [World.firedBy_congr hexec]
      rw [hturns, List.getElem?_map] at ht
      obtain ⟨u, hu, rfl⟩ := Option.map_eq_some_iff.mp ht
      exact (h.turns i u hu).stage rfl
    · rw [hturns, List.length_map]
      exact h.known x (hexec ▸ hx)

/-! ## The proposals of a run -/

/-- A stamp is given to one proposal, and that is in one place. -/
def Stamped (w : World) : Prop := ∀ k, w.holders k ≤ if k < w.stamps then 1 else 0

theorem Stamped.mono {w w' : World} (h : Stamped w) (hstamps : w'.stamps = w.stamps)
    (hle : ∀ k, w'.holders k ≤ w.holders k) : Stamped w' := fun k => by
  rw [hstamps]
  exact (hle k).trans (h k)

/-- The new proposal has a stamp that none had, and is put in place of the old one. -/
theorem Stamped.propose {w w' : World} {i : Nat} {t : Turn} {p : Proposal} (h : Stamped w) (ht : w.turns[i]? = some t)
    (hstamp : p.stamp = w.stamps) (hturns : w'.turns = w.turns.set i { t with stage := .finished })
    (hhandlers : w'.handlers = w.handlers) (hpending : w'.pending = some p) (hstamps : w'.stamps = w.stamps + 1) :
    Stamped w' := by
  intro k
  have hk := h k
  have hcount : (w.turns.set i { t with stage := .finished }).countP (fun t => bears k t.consumed) =
      w.turns.countP fun t => bears k t.consumed := countP_bears_consumed ht { t with stage := .finished } rfl k
  unfold World.holders at hk ⊢
  rw [hpending, hhandlers, hturns, hstamps, hcount, bears_some, hstamp]
  by_cases hlt : k < w.stamps
  · rw [if_pos hlt] at hk
    rw [decide_eq_false (by omega), if_pos (by omega), Bool.toNat_false]
    omega
  · rw [if_neg hlt] at hk
    by_cases heq : w.stamps = k
    · rw [decide_eq_true heq, if_pos (by omega), Bool.toNat_true]
      omega
    · rw [decide_eq_false heq, Bool.toNat_false]
      omega

theorem Stamped.step {w w' : World} {l : Step} (h : Stamped w) (hstep : w.step sf l = some w') : Stamped w' := by
  cases World.step_moves hstep with
  | keeps hturns hexec hstamps hholders => exact h.mono hstamps hholders
  | starts t hplanned hturns hexec hstamps hholders => exact h.mono hstamps hholders
  | goes i ht hgoes hturns hexec hhandlers hpending hstamps =>
    refine h.mono hstamps fun k => ?_
    unfold World.holders
    rw [hpending, hhandlers, hturns, countP_bears_consumed ht _ hgoes.consumed]
  | proposes i ht hstamp hturns hexec hhandlers hpending hstamps =>
    exact h.propose ht hstamp hturns hhandlers hpending hstamps
  | restarts hturns hexec hhandlers hpending hstamps =>
    refine h.mono hstamps fun k => ?_
    unfold World.holders
    rw [hpending, hhandlers, hturns, List.countP_map]
    simp only [List.countP_nil, Function.comp_def]
    omega

/-! ## Every run -/

/-- Along every run, whatever the operator sends, the model answers and the tools return, and in whatever order the
requests come. -/
theorem destructive_tools_authorised (sf : Surface) {ls : List Step} {w : World}
    (h : exec (World.step sf) {} ls = some w) : Authorised w := by
  have hturns : TurnsOk w :=
    exec_inv (fun _ _ _ hw hstep => hw.step hstep) ⟨fun i t ht => absurd ht (by simp), fun x hx => absurd hx (by simp)⟩ h
  have hstamped : Stamped w := exec_inv (fun _ _ _ hw hstep => hw.step hstep) (fun k => by simp [World.holders]) h
  refine ⟨fun t ht => ?_, fun i tc hx hd => ?_, fun i => ?_, fun i j t t' p ht ht' hp hp' => ?_⟩
  · obtain ⟨i, hi⟩ := List.mem_iff_getElem?.mp ht
    exact (hturns.turns i t hi).planned
  · have hlen : i < w.turns.length := hturns.known _ hx
    have ht : w.turns[i]? = some w.turns[i] := List.getElem?_eq_getElem hlen
    have hok := hturns.turns i _ ht
    have hfired : w.firedBy i ≠ 0 :=
      (List.countP_pos_iff.mpr ⟨_, hx, by simp [hd]⟩).ne'
    have hallow := hok.allowed hfired
    rw [planTurn_allow hok.planned, Bool.or_eq_true] at hallow
    exact ⟨_, ht, hallow.symm⟩
  · by_cases hlen : i < w.turns.length
    · exact (hturns.turns i _ (List.getElem?_eq_getElem hlen)).most
    · have hnone : w.firedBy i = 0 := by
        rw [World.firedBy, List.countP_eq_zero]
        intro x hx
        have := hturns.known x hx
        simp only [decide_eq_true_eq]
        omega
      omega
  · have hone : w.turns.countP (fun t => bears p.stamp t.consumed) ≤ 1 := by
      have := hstamped p.stamp
      unfold World.holders at this
      split at this
      all_goals omega
    exact Pool.index_unique _ hone ht ht' (by simp [hp]) (by simp [hp'])

def sampleSurface : Surface where
  library := {
    print := samplePrint
    parse := fun text => if text = "{}".toList then some (.obj []) else none
    debug := fun name => "\"" ++ name ++ "\"" }
  registry := isDestructive
  systemPrompt := fun _ => "You are the operator's cockpit.".toList
  renderToolResult := fun _ _ => none
  stripReasoningLeakage := id
  finalizeBubble := fun text _ => text

def sampleClose : ToolCall := ⟨"call-1", "case.close", .obj [("case_id", .str "CASE-1")]⟩

def sampleTerminate : ToolCall := ⟨"call-2", "subscription.terminate", .obj [("subscription_id", .str "SUB-1")]⟩

def sampleLoad : List Step := [.openStream, .readTranscript 0 true, .consumePending 0 .done, .plan 0]

/-- A turn up to the first tool that the model calls. -/
def sampleCall (i : Nat) (tc : ToolCall) : List Step :=
  [.loop i (.taken true), .loop i (.turn { toolCalls := [tc] }), .loop i (.taken true)]

/-- A turn that is refused a destructive tool, and leaves it as a proposal. -/
def sampleProposed : List Step :=
  .post "Close the case.".toList :: sampleLoad ++ sampleCall 0 sampleClose ++
    [.loop 0 (.taken true), .loop 0 (.turn { content := "Shall I close CASE-1?".toList }), .loop 0 (.taken true),
     .loop 0 (.taken true), .loop 0 (.taken true), .persist 0 true, .persist 0 true, .answer 0 .done,
     .stagePending 0 true]

theorem sample_run (s : World) (ls : List Step) {P : World → Prop} [DecidablePred P]
    (h : (exec (World.step sampleSurface) s ls).any (fun w => decide (P w)) = true) :
    ∃ w, exec (World.step sampleSurface) s ls = some w ∧ P w := by
  simpa using (Option.any_eq_true ..).mp h

/-- Every destructive tool is what a `/confirm` was for. -/
def World.RunsOnlyConfirmed (w : World) : Prop :=
  ∀ x ∈ w.executions, isDestructive x.2.name = true →
    ∃ t ∈ w.turns[x.1]?, t.drive.viaSlashConfirm = true ∧ ∀ p ∈ t.consumed, p.toolName = x.2.name ∧ p.args = x.2.args

/-- The same of the tools alone. -/
def World.RunsConfirmedTools (w : World) : Prop :=
  ∀ x ∈ w.executions, isDestructive x.2.name = true →
    ∃ t ∈ w.turns[x.1]?, t.drive.viaSlashConfirm = true ∧ ∀ p ∈ t.consumed, p.toolName = x.2.name

instance (w : World) : Decidable w.RunsConfirmedTools := inferInstanceAs (Decidable (∀ _ ∈ _, _))

theorem World.RunsOnlyConfirmed.tools {w : World} (h : w.RunsOnlyConfirmed) : w.RunsConfirmedTools := by
  intro x hx hd
  obtain ⟨t, ht, hconfirm, hp⟩ := h x hx hd
  exact ⟨t, ht, hconfirm, fun p hmem => (hp p hmem).1⟩

/-- The proposal, and what may come next: a page load, a `/confirm` with the call it is for or with another one, and a
message that is none. -/
theorem sample_after_proposed :
    ∃ w, exec (World.step sampleSurface) {} sampleProposed = some w ∧ w.pending.isSome = true ∧
      (exec (World.step sampleSurface) w sampleLoad).any (fun w' =>
        w'.pending.isSome = false ∧ w'.turns.length = 1 ∧ w'.executions.isEmpty = true) = true ∧
      (exec (World.step sampleSurface) w (.post "/confirm".toList :: sampleLoad ++ sampleCall 1 sampleClose)).any
        (fun w' => w'.executions.map (fun x => (x.1, x.2.name)) = [(1, "case.close")]) = true ∧
      (exec (World.step sampleSurface) w (.post "/confirm".toList :: sampleLoad ++ sampleCall 1 sampleTerminate)).any
        (fun w' => ¬ w'.RunsConfirmedTools) = true ∧
      (exec (World.step sampleSurface) w (.post "No, leave it.".toList :: sampleLoad ++ sampleCall 1 sampleTerminate)).any
        (fun w' => ¬ w'.RunsConfirmedTools) = true :=
  sample_run _ _ (by decide +kernel)

theorem sample_goes_on {s w : World} {ls ms ns : List Step} {P : World → Prop} [DecidablePred P]
    (hw : exec (World.step sampleSurface) s ls = some w)
    (h : (exec (World.step sampleSurface) w (ms ++ ns)).any (fun w => decide (P w)) = true) :
    ∃ w, exec (World.step sampleSurface) s (ls ++ ms ++ ns) = some w ∧ P w := by
  obtain ⟨w', hw', hP⟩ := sample_run w (ms ++ ns) h
  refine ⟨w', ?_, hP⟩
  rw [List.append_assoc, exec_append]
  exact ⟨w, hw, hw'⟩

theorem destructive_tools_authorised_confirmed :
    ∃ w, exec (World.step sampleSurface) {}
        (sampleProposed ++ .post "/confirm".toList :: sampleLoad ++ sampleCall 1 sampleClose) = some w ∧
      w.executions.map (fun x => (x.1, x.2.name)) = [(1, "case.close")] ∧ Authorised w := by
  obtain ⟨w₀, hw₀, -, -, hclose, -⟩ := sample_after_proposed
  obtain ⟨w, hw, hrun⟩ := sample_goes_on hw₀ hclose
  exact ⟨w, hw, hrun, destructive_tools_authorised sampleSurface hw⟩

/-- A turn on "No, leave it." runs a tool that was never proposed. A `/confirm` runs another tool than the proposed one. A
page load throws a proposal away. Two page loads at once run two tools for one `/confirm`. -/
theorem destructive_tools_unconfirmed :
    (∃ w, exec (World.step sampleSurface) {}
        (sampleProposed ++ .post "No, leave it.".toList :: sampleLoad ++ sampleCall 1 sampleTerminate) = some w ∧
      ¬ w.RunsOnlyConfirmed) ∧
    (∃ w, exec (World.step sampleSurface) {}
        (sampleProposed ++ .post "/confirm".toList :: sampleLoad ++ sampleCall 1 sampleTerminate) = some w ∧
      ¬ w.RunsOnlyConfirmed) ∧
    (∃ w, exec (World.step sampleSurface) {} sampleProposed = some w ∧ w.pending.isSome = true ∧
      ∃ w', exec (World.step sampleSurface) w sampleLoad = some w' ∧ w'.pending.isSome = false ∧ w'.turns.length = 1 ∧
        w'.executions.isEmpty = true) ∧
    ∃ w, exec (World.step sampleSurface) {}
        (.post "/confirm".toList :: [.openStream, .openStream, .readTranscript 0 true, .readTranscript 1 true,
          .consumePending 0 .done, .consumePending 1 .done, .plan 0, .plan 0] ++
          sampleCall 0 sampleClose ++ sampleCall 1 sampleTerminate) = some w ∧
      w.rows.map (·.role) = [.user] ∧ w.executions.countP (fun x => isDestructive x.2.name) = 2 := by
  obtain ⟨w₀, hw₀, hpending, hload, -, hother, hno⟩ := sample_after_proposed
  refine ⟨?_, ?_, ⟨w₀, hw₀, hpending, sample_run w₀ sampleLoad hload⟩, sample_run _ _ (by decide +kernel)⟩
  · obtain ⟨w, hw, hrun⟩ := sample_goes_on hw₀ hno
    exact ⟨w, hw, fun h => hrun h.tools⟩
  · obtain ⟨w, hw, hrun⟩ := sample_goes_on hw₀ hother
    exact ⟨w, hw, fun h => hrun h.tools⟩

end BssCli.Cockpit
