import BssCli.Cockpit.Confirmed

/-!
# What a turn reports of its tools

The sink of a turn sees the name and the text of a result. From these it works out which destructive tools have run and
which one is to be proposed. Beside it stands what became of each call.
-/

open Text BssCli.Agent Steps

namespace BssCli.Cockpit

/-! ## What became of a call -/

inductive ToolError
  | policy (rule : String) (detail : Json)
  | client (status : ℤ) (detail : Json)
  | other (kind detail : String)

namespace ToolError

def isElicitation : ToolError → Bool
  | .other kind _ => kind = "MISSING_REQUIRED_FIELDS"
  | _ => false

def toObservation (lib : Library) : ToolError → List Char
  | .policy rule detail => lib.print (.obj [("error", .str "POLICY_VIOLATION"), ("rule", .str rule), ("detail", detail)])
  | .client status detail =>
    lib.print (.obj [("error", .str "CLIENT_ERROR"), ("status", .int status), ("detail", detail)])
  | .other kind detail => lib.print (.obj [("error", .str kind), ("detail", .str detail)])

end ToolError

/-- How `execute_tool` goes out. -/
inductive Fate
  | refused
  | unknown
  | returned (value : Json)
  | failed (e : ToolError)

def Fate.ofResult : Except ToolError Json → Fate
  | .ok value => .returned value
  | .error e => .failed e

def unknownTool (lib : Library) (toolName : String) : ToolError :=
  .other "KeyError" ("Unknown tool: " ++ lib.debug toolName)

/-- The text that the loop gets. -/
def Fate.observation (lib : Library) (toolName : String) : Fate → List Char
  | .refused => lib.print (blockedResponse lib toolName)
  | .unknown => (unknownTool lib toolName).toObservation lib
  | .returned value => lib.print value
  | .failed e => e.toObservation lib

/-- The answer of a tool. An elicitation is no error for the loop. -/
def toolAnswer (lib : Library) : Except ToolError Json → Answer
  | .ok value => .observed (lib.print value) false
  | .error e => .observed (e.toObservation lib) (!e.isElicitation)

def destructiveCall (tc : ToolCall) : DestructiveCall := ⟨tc.name, tc.args⟩

def ran : ToolCall × Fate → Option DestructiveCall
  | (tc, .returned _) => if Guards.isDestructive tc.name then some (destructiveCall tc) else none
  | _ => none

def turnedAway : ToolCall × Fate → Option DestructiveCall
  | (tc, .refused) => some (destructiveCall tc)
  | _ => none

/-- What the sink has noted is what happened. -/
structure Settled (c : Collected) (fates : List (ToolCall × Fate)) : Prop where
  executed : c.executed = fates.filterMap ran
  proposed : c.lastProposal = (fates.filterMap turnedAway).getLast?

/-! ## A turn with its calls -/

/-- A turn, and beside it what became of each call so far. No step reads the list. -/
structure Watched where
  turn : Turn
  fates : List (ToolCall × Fate) := []

inductive Report
  | loop (a : Answer)
  | tool (result : Except ToolError Json)

/-- What becomes of a call before its tool is reached. -/
def atGate (cfg : Config) (l : Locals) (tc : ToolCall) : Option (ToolCall × Fate) :=
  match gateDestructive tc.name cfg.allowDestructive cfg.autonomy l.destructiveExecuted with
  | none => some (tc, .refused)
  | some _ => if cfg.registry tc.name then none else some (tc, .unknown)

section
variable (sf : Surface)

def Watched.outcome (s : Watched) (r : Report) : Option (ToolCall × Fate) :=
  match s.turn.stage, r with
  | .running (.starting l tc _), .loop _ => atGate (s.turn.config sf) l tc
  | .running (.calling _ tc _), .tool result => some (tc, .ofResult result)
  | _, _ => none

/-- One effect of the loop. A tool that is called, and only such a one, answers with a value or an error. -/
def Watched.step (s : Watched) (r : Report) : Option Watched :=
  match s.turn.stage, r with
  | .running (.calling _ _ _), .tool result =>
    (s.turn.advance sf (toolAnswer sf.library result)).map fun turn => ⟨turn, s.fates ++ (s.outcome sf r).toList⟩
  | .running (.calling _ _ _), .loop _ => none
  | _, .loop a => (s.turn.advance sf a).map fun turn => ⟨turn, s.fates ++ (s.outcome sf r).toList⟩
  | _, .tool _ => none

/-- The cockpit can tell what became of the call: what is refused can be staged, what does not run or fails is not on
its list, and what a listed tool returns does not have the mark in it. -/
def Plain (tc : ToolCall) : Fate → Prop
  | .refused => Guards.isAdmin tc.name = false
  | .unknown | .failed _ => Guards.isDestructive tc.name = false
  | .returned value => Guards.isDestructive tc.name = true → ¬ blockedMark <:+: sf.library.print value

instance (tc : ToolCall) : ∀ fate, Decidable (Plain sf tc fate)
  | .refused => inferInstanceAs (Decidable (_ = _))
  | .unknown | .failed _ => inferInstanceAs (Decidable (_ = _))
  | .returned _ => inferInstanceAs (Decidable (_ → _))

def Plainly (s : Watched) (r : Report) : Prop := ∀ f ∈ s.outcome sf r, Plain sf f.1 f.2

instance (s : Watched) (r : Report) : Decidable (Plainly sf s r) := inferInstanceAs (Decidable (∀ _ ∈ _, _))

def Stage.completes : Stage → Bool
  | .running (.completing ..) => true
  | _ => false

/-- The call under way is the last that the sink was told of. -/
def Announced (c : Collected) (tc : ToolCall) : Prop := c.captured.getLast? = some ⟨tc.id, tc.name, tc.args⟩

def Watched.Kept (s : Watched) : Prop :=
  match s.turn.stage with
  | .running (.calling _ tc _) => Settled s.turn.collected s.fates ∧ Announced s.turn.collected tc
  | .running (.completing _ tc _ result _) =>
    ∃ before fate, s.fates = before ++ [(tc, fate)] ∧ Settled s.turn.collected before ∧
      Announced s.turn.collected tc ∧ result = fate.observation sf.library tc.name ∧ Plain sf tc fate ∧
      (fate = .refused → Agent.isDestructive tc.name = true)
  | _ => Settled s.turn.collected s.fates

end

/-! ## The stages between calls -/

/-- No call is under way, or about to be. -/
def betweenCalls : Loop → Bool
  | .starting .. | .calling .. | .completing .. => false
  | _ => true

def Stage.quiet : Stage → Bool
  | .running (.calling ..) | .running (.completing ..) => false
  | _ => true

variable {sf : Surface}

theorem Watched.kept_of_quiet {s : Watched} (hq : s.turn.stage.quiet = true)
    (h : Settled s.turn.collected s.fates) : s.Kept sf := by
  unfold Watched.Kept
  split
  · rename_i hstage
    rw [hstage] at hq
    cases hq
  · rename_i hstage
    rw [hstage] at hq
    cases hq
  · exact h

theorem nextCall_quiet (l : Locals) (tcs : List ToolCall) : (Stage.running (nextCall l tcs)).quiet = true := by
  cases tcs <;> rfl

theorem afterTurn_quiet (l : Locals) (t : AiTurn) : (Stage.running (afterTurn l t)).quiet = true := by
  unfold afterTurn
  dsimp only
  split
  · rfl
  · exact nextCall_quiet ..

theorem afterCall_quiet (lib : Library) (cfg : Config) (l : Locals) (tc : ToolCall) (rest : List ToolCall)
    (result : List Char) (isError : Bool) :
    (Stage.running (afterCall lib cfg l tc rest result isError)).quiet = true := by
  unfold afterCall
  split
  · rfl
  · split
    · split <;> rfl
    · exact nextCall_quiet ..

theorem Settled.congr {c c' : Collected} {fates : List (ToolCall × Fate)} (h : Settled c fates)
    (hex : c'.executed = c.executed) (hprop : c'.lastProposal = c.lastProposal) : Settled c' fates :=
  ⟨hex.trans h.executed, hprop.trans h.proposed⟩

theorem advance_between {t t' : Turn} {loop : Loop} {a : Answer} (hstage : t.stage = .running loop)
    (hloop : betweenCalls loop = true) (h : t.advance sf a = some t') :
    t'.stage.quiet = true ∧ t'.collected.executed = t.collected.executed ∧
      t'.collected.lastProposal = t.collected.lastProposal := by
  cases Turn.advanced hstage h with
  | thinking l answer => exact ⟨afterTurn_quiet l answer, rfl, rfl⟩
  | starting | calling | completing => cases hloop
  | prompted | auditing | failing | counting | answering | ended => exact ⟨rfl, rfl, rfl⟩

/-! ## What the sink makes of a result -/

theorem raw_eq (result : List Char) : (if result = [] then truncate result else result) = result := by
  split
  · rename_i h
    rw [h]
    rfl
  · rfl

theorem announced_args {c : Collected} {tc : ToolCall} (h : Announced c tc) :
    ((c.captured.reverse.find? (·.id = tc.id)).map (·.args)).getD (.obj []) = tc.args := by
  obtain ⟨before, hcap⟩ := List.getLast?_eq_some_iff.mp h
  rw [hcap, List.reverse_append, List.reverse_singleton, List.singleton_append,
    List.find?_cons_of_pos (by simp)]
  rfl

/-- What the sink notes of a result, apart from the row it shows. -/
def Collected.noted (c : Collected) (tc : ToolCall) (raw : List Char) : Collected :=
  if Guards.isDestructive tc.name = true then
    if blockedMark <:+: raw then { c with lastProposal := some (destructiveCall tc) }
    else { c with executed := c.executed ++ [destructiveCall tc] }
  else c

section
variable {c : Collected} {tc : ToolCall}

theorem take_completed (sf : Surface) (hann : Announced c tc) (result : List Char) (isError : Bool) :
    ∃ rows, (c.take sf (.toolCallCompleted tc.name tc.id (truncate result) isError result)).1 =
      { c.noted tc result with toolRows := rows } := by
  have hname : (tc.name ≠ "" ∧ Guards.isDestructive tc.name = true) ↔ Guards.isDestructive tc.name = true :=
    and_iff_right_of_imp Guards.ne_empty_of_isDestructive
  unfold Collected.take Collected.noted
  dsimp only
  simp only [raw_eq, announced_args hann, hname]
  split
  · exact ⟨_, rfl⟩
  · exact ⟨_, rfl⟩

theorem Settled.noted {before : List (ToolCall × Fate)} {fate : Fate} (h : Settled c before)
    (hblocked : blockedMark <:+: sf.library.print (blockedResponse sf.library tc.name)) (hplain : Plain sf tc fate)
    (hgate : fate = .refused → Agent.isDestructive tc.name = true) :
    Settled (c.noted tc (fate.observation sf.library tc.name)) (before ++ [(tc, fate)]) := by
  unfold Collected.noted
  cases fate with
  | refused =>
    rw [if_pos (Guards.isDestructive_of_gated (hgate rfl) hplain), Fate.observation, if_pos hblocked]
    refine ⟨?_, ?_⟩
    · simp [List.filterMap_append, ran, h.executed]
    · simp [List.filterMap_append, turnedAway]
  | unknown =>
    have hname : Guards.isDestructive tc.name = false := hplain
    rw [if_neg (by simp [hname])]
    exact ⟨by simp [List.filterMap_append, ran, h.executed], by simp [List.filterMap_append, turnedAway, h.proposed]⟩
  | failed e =>
    have hname : Guards.isDestructive tc.name = false := hplain
    rw [if_neg (by simp [hname])]
    exact ⟨by simp [List.filterMap_append, ran, h.executed], by simp [List.filterMap_append, turnedAway, h.proposed]⟩
  | returned value =>
    by_cases hname : Guards.isDestructive tc.name = true
    · rw [if_pos hname, Fate.observation, if_neg (hplain hname)]
      refine ⟨?_, ?_⟩
      · simp [List.filterMap_append, ran, hname, h.executed]
      · simp [List.filterMap_append, turnedAway, h.proposed]
    · rw [if_neg hname]
      refine ⟨?_, ?_⟩
      · simp [List.filterMap_append, ran, hname, h.executed]
      · simp [List.filterMap_append, turnedAway, h.proposed]

end

/-! ## One step -/

theorem gate_refused {toolName : String} {allow : Bool} {autonomy : AutonomyMode} {executed : Nat}
    (h : gateDestructive toolName allow autonomy executed = none) : Agent.isDestructive toolName = true := by
  unfold gateDestructive at h
  split at h
  · cases h
  · rename_i hname
    simpa using hname

variable {s s' : Watched} {l : Locals} {tc : ToolCall} {rest : List ToolCall}

/-- The call is announced, and the gate and the registry say whether it runs. -/
theorem kept_starting {a : Answer} (hstage : s.turn.stage = .running (.starting l tc rest)) (h : s.Kept sf)
    (hplain : Plainly sf s (.loop a)) (hstep : s.step sf (.loop a) = some s') : s'.Kept sf := by
  have hset : Settled s.turn.collected s.fates := by
    unfold Watched.Kept at h
    rw [hstage] at h
    exact h
  unfold Plainly Watched.outcome at hplain
  unfold Watched.step Watched.outcome at hstep
  rw [hstage] at hplain hstep
  dsimp only at hplain hstep
  obtain ⟨turn, hturn, rfl⟩ := Option.map_eq_some_iff.mp hstep
  cases Turn.advanced hstage hturn
  have hann : Announced { s.turn.collected with captured := s.turn.collected.captured ++ [⟨tc.id, tc.name, tc.args⟩] } tc :=
    List.getLast?_concat
  unfold atGate at hplain ⊢
  unfold execute
  cases hgate : gateDestructive tc.name (s.turn.config sf).allowDestructive (s.turn.config sf).autonomy
      l.destructiveExecuted with
  | none =>
    rw [hgate] at hplain
    exact ⟨s.fates, .refused, rfl, hset.congr rfl rfl, hann, rfl, hplain _ rfl, fun _ => gate_refused hgate⟩
  | some n =>
    rw [hgate] at hplain
    by_cases hreg : (s.turn.config sf).registry tc.name = true
    · simp only [hreg, if_true, Option.toList_none, List.append_nil]
      exact ⟨hset.congr rfl rfl, hann⟩
    · simp only [hreg, if_false, Bool.false_eq_true] at hplain ⊢
      exact ⟨s.fates, .unknown, rfl, hset.congr rfl rfl, hann, rfl, hplain _ rfl, fun h => by cases h⟩

theorem kept_calling {result : Except ToolError Json} (hstage : s.turn.stage = .running (.calling l tc rest))
    (h : s.Kept sf) (hplain : Plainly sf s (.tool result)) (hstep : s.step sf (.tool result) = some s') :
    s'.Kept sf := by
  unfold Watched.Kept at h
  unfold Plainly Watched.outcome at hplain
  unfold Watched.step Watched.outcome Turn.advance at hstep
  rw [hstage] at h hplain hstep
  cases result with
  | ok value =>
    simp only [toolAnswer, Loop.effect, Loop.step, Option.map_some, Option.some.injEq] at hstep
    subst hstep
    exact ⟨s.fates, .returned value, rfl, h.1, h.2, rfl, hplain _ rfl, fun h => by cases h⟩
  | error e =>
    simp only [toolAnswer, Loop.effect, Loop.step, Option.map_some, Option.some.injEq] at hstep
    subst hstep
    exact ⟨s.fates, .failed e, rfl, h.1, h.2, rfl, hplain _ rfl, fun h => by cases h⟩

theorem kept_completing {a : Answer} {result : List Char} {isError : Bool}
    (hblocked : ∀ name, blockedMark <:+: sf.library.print (blockedResponse sf.library name))
    (hstage : s.turn.stage = .running (.completing l tc rest result isError)) (h : s.Kept sf)
    (hstep : s.step sf (.loop a) = some s') : s'.Kept sf := by
  unfold Watched.Kept at h
  unfold Watched.step Watched.outcome Turn.advance at hstep
  rw [hstage] at h hstep
  obtain ⟨before, fate, hfates, hset, hann, rfl, hplain, hgate⟩ := h
  obtain ⟨rows, htake⟩ := take_completed sf hann (fate.observation sf.library tc.name) isError
  have hnoted := hset.noted (hblocked tc.name) hplain hgate
  have hgo : (s.turn.collected.take sf (.toolCallCompleted tc.name tc.id
      (truncate (fate.observation sf.library tc.name)) isError (fate.observation sf.library tc.name))).2 = true := rfl
  simp only [Loop.effect, hgo, Loop.step, if_true, Option.map_some, Option.some.injEq] at hstep
  subst hstep
  refine Watched.kept_of_quiet (afterCall_quiet ..) ?_
  simp only [Option.toList_none, List.append_nil]
  rw [htake, hfates]
  exact hnoted.congr rfl rfl

theorem kept_between {loop : Loop} {a : Answer} (hstage : s.turn.stage = .running loop)
    (hloop : betweenCalls loop = true) (h : s.Kept sf) (hstep : s.step sf (.loop a) = some s') : s'.Kept sf := by
  have hset : Settled s.turn.collected s.fates := by
    unfold Watched.Kept at h
    rw [hstage] at h
    cases loop <;> first | exact h | cases hloop
  have hout : s.outcome sf (.loop a) = none := by
    unfold Watched.outcome
    rw [hstage]
    cases loop <;> first | rfl | cases hloop
  have hadv : (s.turn.advance sf a).map (fun turn => (⟨turn, s.fates⟩ : Watched)) = some s' := by
    unfold Watched.step at hstep
    rw [hstage, hout] at hstep
    simp only [Option.toList_none, List.append_nil] at hstep
    cases loop <;> first | exact hstep | cases hloop
  obtain ⟨turn, hturn, rfl⟩ := Option.map_eq_some_iff.mp hadv
  obtain ⟨hquiet, hex, hprop⟩ := advance_between hstage hloop hturn
  exact Watched.kept_of_quiet hquiet (hset.congr hex hprop)

theorem Watched.step_kept {r : Report}
    (hblocked : ∀ name, blockedMark <:+: sf.library.print (blockedResponse sf.library name)) (h : s.Kept sf)
    (hplain : Plainly sf s r) (hstep : s.step sf r = some s') : s'.Kept sf := by
  cases hstage : s.turn.stage with
  | running loop =>
    cases r with
    | tool result =>
      cases loop with
      | calling l tc rest => exact kept_calling hstage h hplain hstep
      | _ =>
        simp only [Watched.step, hstage] at hstep
        cases hstep
    | loop a =>
      cases loop with
      | starting l tc rest => exact kept_starting hstage h hplain hstep
      | calling l tc rest =>
        simp only [Watched.step, hstage] at hstep
        cases hstep
      | completing l tc rest result isError => exact kept_completing hblocked hstage h hstep
      | _ => exact kept_between hstage rfl h hstep
  | _ =>
    cases r <;> simp [Watched.step, Turn.advance, hstage] at hstep

/-! ## Every run -/

def Watched.start (transcript : List Char) (consumed : Option Proposal) (drive : DriveTurn) : Watched :=
  { turn := { transcript, consumed, drive } }

theorem intercalate_cons (sep x : List Char) (xs : List (List Char)) :
    ∃ rest, sep.intercalate (x :: xs) = x ++ rest := by
  cases xs with
  | nil => exact ⟨[], by simp [List.intercalate]⟩
  | cons y ys => exact ⟨sep ++ (List.intersperse sep (y :: ys)).flatten, by simp [List.intercalate, List.intersperse]⟩

theorem samplePrint_first (key text : String) (fields : List (String × Json)) :
    sampleQuote text <:+: samplePrint (.obj ((key, .str text) :: fields)) := by
  obtain ⟨rest, hrest⟩ := intercalate_cons [','] (sampleQuote key ++ [':'] ++ sampleQuote text)
    (fields.map fun f => sampleQuote f.1 ++ [':'] ++ sampleQuote (f.2.asStr.getD ""))
  have hprint : samplePrint (.obj ((key, .str text) :: fields)) =
      ['\x7b'] ++ (sampleQuote key ++ [':'] ++ sampleQuote text ++ rest) ++ ['\x7d'] := by
    rw [← hrest]
    rfl
  rw [hprint]
  exact ⟨['\x7b'] ++ sampleQuote key ++ [':'], rest ++ ['\x7d'], by simp⟩

theorem samplePrint_blocked (name : String) :
    blockedMark <:+: samplePrint (blockedResponse sampleSurface.library name) := by
  have hquote : blockedMark <:+: sampleQuote "DESTRUCTIVE_OPERATION_BLOCKED" := by decide +kernel
  exact hquote.trans (samplePrint_first ..)

def sampleDrive : DriveTurn := ⟨"Close the case and terminate.".toList, [], true, true⟩

def sampleToolCall (tc : ToolCall) (result : Except ToolError Json) : List Report :=
  [.loop (.turn { toolCalls := [tc] }), .loop (.taken true), .tool result, .loop (.taken true)]

def confirmedReports : List Report :=
  .loop (.taken true) :: sampleToolCall sampleClose (.ok (.obj [("state", .str "closed")])) ++
    [.loop (.turn { toolCalls := [sampleTerminate] }), .loop (.taken true), .loop (.taken true)]

/-- The names that a turn reports as run, and the one that it proposes. -/
def Watched.reported (s : Watched) : List String × Option String :=
  (s.turn.collected.executed.map (·.name), s.turn.collected.lastProposal.map (·.name))

def Watched.happened (s : Watched) : List String × Option String :=
  ((s.fates.filterMap ran).map (·.name), (s.fates.filterMap turnedAway).getLast?.map (·.name))

theorem Settled.names {s : Watched} (h : Settled s.turn.collected s.fates) : s.reported = s.happened := by
  unfold Watched.reported Watched.happened
  rw [h.executed, h.proposed]

def openSurface : Surface := { sampleSurface with registry := fun _ => true }

def sampleNote : ToolCall :=
  ⟨"call-3", "case.add_note", .obj [("case_id", .str "CASE-1"), ("body", .str "DESTRUCTIVE_OPERATION_BLOCKED")]⟩

theorem misreported {rs : List Report} {reported happened : List String × Option String} (hne : reported ≠ happened)
    (h : (exec (Watched.step openSurface) (.start [] none sampleDrive) rs).any (fun s => decide
      (s.turn.stage.completes = false ∧ s.reported = reported ∧ s.happened = happened)) = true) :
    ∃ s, exec (Watched.step openSurface) (.start [] none sampleDrive) rs = some s ∧ s.turn.stage.completes = false ∧
      s.reported = reported ∧ s.happened = happened ∧ ¬ Settled s.turn.collected s.fates := by
  obtain ⟨s, hs, hrun⟩ := (Option.any_eq_true ..).mp h
  obtain ⟨hstage, hreported, hhappened⟩ := of_decide_eq_true hrun
  refine ⟨s, hs, hstage, hreported, hhappened, fun hset => hne ?_⟩
  rw [← hreported, ← hhappened, hset.names]

end BssCli.Cockpit
