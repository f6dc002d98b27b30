import BssCli.Agent.Messages
import BssCli.Agent.Ownership
import BssCli.Lib.Steps

/-!
# The agent loop

`astream_once_to` of `agent.rs` with the gate of `safety.rs`, from one effect to the next. What the model answers, what a
tool returns and whether the consumer is still there come from outside, one answer for each effect.
-/

open Text

namespace BssCli.Agent

/-! ## The gate -/

def destructiveTools : List String :=
  ["customer.close", "customer.remove_contact_medium", "case.close", "ticket.cancel", "payment.remove_method",
   "order.cancel", "subscription.terminate", "subscription.terminate_mine", "provisioning.set_fault_injection",
   "admin.reset_operational_data", "admin.force_state", "catalog.add_offering", "catalog.add_price",
   "catalog.window_offering", "catalog.retire_offering"]

inductive AutonomyMode
  /-- One authorisation covers the whole loop. -/
  | batched
  /-- Each destructive tool is gated again after the first one. -/
  | granular
  deriving DecidableEq, Repr

def isDestructive (toolName : String) : Bool := toolName ∈ destructiveTools

/-- What the libraries print and read: `to_string` and `from_str` of a JSON value, and `{:?}` of a name. -/
structure Library where
  print : Json → List Char
  parse : List Char → Option Json
  debug : String → String

def blockedResponse (lib : Library) (toolName : String) : Json :=
  .obj [("error", .str "DESTRUCTIVE_OPERATION_BLOCKED"), ("tool", .str toolName),
    ("message", .str ("Tool " ++ lib.debug toolName ++ " is destructive and requires operator /confirm. " ++
      "Propose this tool to the operator by stopping after your proposal; " ++
      "the next /confirm-bracketed turn will execute it."))]

/-- How many destructive tools have fired when this one may, or that it may not. -/
def gateDestructive (toolName : String) (allowDestructive : Bool) (autonomy : AutonomyMode) (executed : Nat) :
    Option Nat :=
  if isDestructive toolName = false then
    some executed
  else if allowDestructive = false then
    none
  else if autonomy = .granular ∧ executed ≥ 1 then
    none
  else
    some (executed + 1)

/-! ## Events and answers -/

structure Usage where
  inputTokens : ℤ
  outputTokens : ℤ
  model : String

structure AiTurn where
  content : List Char := []
  toolCalls : List ToolCall := []
  usage : Option Usage := none

inductive AgentEvent
  | promptReceived (prompt : List Char)
  | toolCallStarted (name : String) (args : Json) (callId : String)
  | toolCallCompleted (name callId : String) (result : List Char) (isError : Bool) (resultFull : List Char)
  | finalMessage (text : List Char)
  | error (message : String)
  | turnUsage (promptTok completionTok : ℤ) (model : String)

structure Config where
  allowDestructive : Bool := false
  autonomy : AutonomyMode := .batched
  systemPrompt : List Char := []
  transcript : List Char := []
  actor : String := ""
  modelName : String := ""
  /-- There is a CRM client to audit a violation with. -/
  crmAudit : Bool := false
  /-- The tools that the registry has. -/
  registry : String → Bool
  ownership : List (String × List String) := ownershipPaths

/-- What the loop asks of the world around it. -/
inductive Effect
  | emit (event : AgentEvent)
  | generate (messages : List ChatMessage)
  | call (tc : ToolCall)
  | recordViolation (v : OwnershipViolation)

inductive Answer
  /-- The sink has taken the event, or the consumer has gone away. -/
  | taken (ok : Bool)
  | turn (t : AiTurn)
  /-- A tool's observation, and whether it counts as an error. -/
  | observed (result : List Char) (isError : Bool)
  | recorded

/-! ## The guards of the loop -/

def maxConsecutiveToolFailures : Nat := 3

def maxConsecutiveIdenticalToolCalls : Nat := 3

def resultTruncate : Nat := 500

def truncate (text : List Char) : List Char :=
  if text.length ≤ resultTruncate then text else text.take (resultTruncate - 1) ++ ['…']

def failureMarkers : List (List Char) :=
  ["\"error\":\"DESTRUCTIVE_OPERATION_BLOCKED\"".toList,
   "\"error\":\"POLICY_VIOLATION\"".toList,
   "\"error\":\"CLIENT_ERROR\"".toList]

def isFailureResult (content : List Char) (isError : Bool) : Bool :=
  isError || failureMarkers.any fun m => m <:+: content

/-- The last `(tool, args, result)`, and how often it came in a row. -/
structure IdenticalCallTracker where
  lastKey : Option (String × List Char × List Char) := none
  repeats : Nat := 0

def IdenticalCallTracker.record (t : IdenticalCallTracker) (name : String) (argsSig result : List Char) :
    IdenticalCallTracker :=
  if t.lastKey = some (name, argsSig, result) then
    { t with repeats := t.repeats + 1 }
  else
    ⟨some (name, argsSig, result), 1⟩

/-! ## The loop -/

structure Locals where
  messages : List ChatMessage
  destructiveExecuted : Nat := 0
  consecutiveFailures : Nat := 0
  stuck : IdenticalCallTracker := {}
  lastAiText : List Char := []
  usageIn : ℤ := 0
  usageOut : ℤ := 0
  usageModel : String := ""

/-- The turn in front of its next effect. -/
inductive Loop
  | prompted
  | thinking (l : Locals)
  | starting (l : Locals) (tc : ToolCall) (rest : List ToolCall)
  | calling (l : Locals) (tc : ToolCall) (rest : List ToolCall)
  | completing (l : Locals) (tc : ToolCall) (rest : List ToolCall) (result : List Char) (isError : Bool)
  | auditing (v : OwnershipViolation)
  | failing (message : String)
  | counting (l : Locals)
  | answering (l : Locals)
  | ended

section
variable (lib : Library) (prompt : List Char) (cfg : Config)

def initialMessages : List ChatMessage :=
  .system cfg.systemPrompt :: messagesFromTranscript cfg.transcript ++ [.user prompt]

def turnUsage (l : Locals) : AgentEvent :=
  .turnUsage l.usageIn l.usageOut (if l.usageModel = "" then cfg.modelName else l.usageModel)

def Loop.effect : Loop → Option Effect
  | .prompted => some (.emit (.promptReceived prompt))
  | .thinking l => some (.generate l.messages)
  | .starting _ tc _ => some (.emit (.toolCallStarted tc.name tc.args tc.id))
  | .calling _ tc _ => some (.call tc)
  | .completing _ tc _ result isError =>
    some (.emit (.toolCallCompleted tc.name tc.id (truncate result) isError result))
  | .auditing v => some (.recordViolation v)
  | .failing message => some (.emit (.error message))
  | .counting l => some (.emit (turnUsage cfg l))
  | .answering l => some (.emit (.finalMessage l.lastAiText))
  | .ended => none

/-- On to the next tool call, or to the model. -/
def nextCall (l : Locals) : List ToolCall → Loop
  | [] => .thinking l
  | tc :: rest => .starting l tc rest

def afterTurn (l : Locals) (t : AiTurn) : Loop :=
  let l := { l with
    messages := l.messages ++ [⟨.assistant, t.content, t.toolCalls, none, none⟩]
    usageIn := l.usageIn + (t.usage.map (·.inputTokens)).getD 0
    usageOut := l.usageOut + (t.usage.map (·.outputTokens)).getD 0
    usageModel := match t.usage with
      | some u => if u.model = "" then l.usageModel else u.model
      | none => l.usageModel
    lastAiText := if t.content = [] then l.lastAiText else t.content }
  if t.toolCalls = [] then .counting l else nextCall l t.toolCalls

/-- The result is in: it goes to the messages before it is emitted. -/
def observe (l : Locals) (tc : ToolCall) (rest : List ToolCall) (result : List Char) (isError : Bool) : Loop :=
  .completing { l with messages := l.messages ++ [.tool tc.name tc.id result] } tc rest result isError

/-- `execute_tool`, up to the tool's own code. -/
def execute (l : Locals) (tc : ToolCall) (rest : List ToolCall) : Loop :=
  match gateDestructive tc.name cfg.allowDestructive cfg.autonomy l.destructiveExecuted with
  | none => observe l tc rest (lib.print (blockedResponse lib tc.name)) false
  | some executed =>
    let l := { l with destructiveExecuted := executed }
    if cfg.registry tc.name then
      .calling l tc rest
    else
      observe l tc rest
        (lib.print (.obj [("error", .str "KeyError"), ("detail", .str ("Unknown tool: " ++ lib.debug tc.name))])) true

def failuresAfter (l : Locals) (result : List Char) (isError : Bool) : Nat :=
  if isFailureResult result isError then l.consecutiveFailures + 1 else 0

def stuckAfter (l : Locals) (tc : ToolCall) (result : List Char) : IdenticalCallTracker :=
  l.stuck.record tc.name (lib.print tc.args) result

/-- The failure bail, then the stuck bail. -/
def bailOut (l : Locals) (tc : ToolCall) (result : List Char) (isError : Bool) : Option String :=
  if failuresAfter l result isError ≥ maxConsecutiveToolFailures then
    some ("agent_loop_bailout: 3 consecutive tool failures (last tool: " ++ lib.debug tc.name ++
      "). The agent could not recover — send a fresh prompt or rephrase.")
  else if (stuckAfter lib l tc result).repeats ≥ maxConsecutiveIdenticalToolCalls then
    some ("agent_loop_bailout: 3 identical calls to " ++ lib.debug tc.name ++ " returned the identical result. " ++
      "The agent is stuck — rephrase, or give it a different identifier to work with.")
  else
    none

/-- The trip-wire is for a bound actor and results that are no errors. -/
def tripWire (tc : ToolCall) (result : List Char) (isError : Bool) : Option OwnershipViolation :=
  if cfg.actor ≠ "" ∧ isError = false ∧ tc.name ≠ "" then
    assertOwnedOutput cfg.ownership lib.parse tc.name result cfg.actor
  else
    none

/-- What stands behind a completed call: the two bails, the trip-wire, in this order. -/
def afterCall (l : Locals) (tc : ToolCall) (rest : List ToolCall) (result : List Char) (isError : Bool) : Loop :=
  match bailOut lib l tc result isError with
  | some message => .failing message
  | none =>
    match tripWire lib cfg tc result isError with
    | some v => if cfg.crmAudit then .auditing v else .failing ("AgentOwnershipViolation: " ++ v.toolName)
    | none =>
      nextCall { l with
        consecutiveFailures := failuresAfter l result isError
        stuck := stuckAfter lib l tc result } rest

/-- What the loop does with the answer to its effect. An answer of another kind is none. -/
def Loop.step : Loop → Answer → Option Loop
  | .prompted, .taken ok => some (if ok then .thinking { messages := initialMessages prompt cfg } else .ended)
  | .thinking l, .turn t => some (afterTurn l t)
  | .starting l tc rest, .taken ok => some (if ok then execute lib cfg l tc rest else .ended)
  | .calling l tc rest, .observed result isError => some (observe l tc rest result isError)
  | .completing l tc rest result isError, .taken ok =>
    some (if ok then afterCall lib cfg l tc rest result isError else .ended)
  | .auditing v, .recorded => some (.failing ("AgentOwnershipViolation: " ++ v.toolName))
  | .failing _, .taken _ => some .ended
  | .counting l, .taken ok => some (if ok then .answering l else .ended)
  | .answering _, .taken _ => some .ended
  | _, _ => none

/-! ## Destructive calls -/

def Loop.fired : Loop → Nat
  | .thinking l | .starting l _ _ | .calling l _ _ | .completing l _ _ _ _ | .counting l | .answering l =>
    l.destructiveExecuted
  | .prompted | .auditing _ | .failing _ | .ended => 0

def Loop.closed : Loop → Bool
  | .auditing _ | .failing _ | .counting _ | .answering _ | .ended => true
  | _ => false

def Loop.running : Loop → Option ToolCall
  | .calling _ tc _ => some tc
  | _ => none

variable {lib : Library} {prompt : List Char} {cfg : Config}

theorem nextCall_fired (l : Locals) (tcs : List ToolCall) :
    (nextCall l tcs).fired = l.destructiveExecuted ∧ (nextCall l tcs).running = none := by
  cases tcs <;> exact ⟨rfl, rfl⟩

theorem afterTurn_fired (l : Locals) (t : AiTurn) :
    (afterTurn l t).fired = l.destructiveExecuted ∧ (afterTurn l t).running = none := by
  unfold afterTurn
  dsimp only
  split
  · exact ⟨rfl, rfl⟩
  · exact nextCall_fired _ _

theorem afterCall_fired (lib : Library) (cfg : Config) (l : Locals) (tc : ToolCall) (rest : List ToolCall)
    (result : List Char) (isError : Bool) :
    ((afterCall lib cfg l tc rest result isError).closed = true ∨
      (afterCall lib cfg l tc rest result isError).fired = l.destructiveExecuted) ∧
      (afterCall lib cfg l tc rest result isError).running = none := by
  unfold afterCall
  split
  · exact ⟨.inl rfl, rfl⟩
  · split
    · split
      · exact ⟨.inl rfl, rfl⟩
      · exact ⟨.inl rfl, rfl⟩
    · exact ⟨.inr (nextCall_fired _ rest).1, (nextCall_fired _ rest).2⟩

theorem gateDestructive_eq {toolName : String} {allow : Bool} {autonomy : AutonomyMode} {executed n : Nat}
    (h : gateDestructive toolName allow autonomy executed = some n) :
    (isDestructive toolName = false ∧ n = executed) ∨
      (isDestructive toolName = true ∧ allow = true ∧ (autonomy = .granular → executed = 0) ∧ n = executed + 1) := by
  unfold gateDestructive at h
  split at h
  · rename_i hname
    exact .inl ⟨hname, (Option.some.inj h).symm⟩
  · rename_i hname
    split at h
    · cases h
    · rename_i hallow
      split at h
      · cases h
      · rename_i hauto
        refine .inr ⟨by simpa using hname, by simpa using hallow, fun hg => ?_, (Option.some.inj h).symm⟩
        by_contra hne
        exact hauto ⟨hg, Nat.pos_of_ne_zero hne⟩

theorem execute_cases (lib : Library) (cfg : Config) (l : Locals) (tc : ToolCall) (rest : List ToolCall) :
    (∃ l' result isError, execute lib cfg l tc rest = observe l' tc rest result isError ∧ l'.messages = l.messages ∧
        l.destructiveExecuted ≤ l'.destructiveExecuted) ∨
      ∃ l', execute lib cfg l tc rest = .calling l' tc rest ∧ l'.messages = l.messages ∧
        gateDestructive tc.name cfg.allowDestructive cfg.autonomy l.destructiveExecuted = some l'.destructiveExecuted := by
  unfold execute
  cases hgate : gateDestructive tc.name cfg.allowDestructive cfg.autonomy l.destructiveExecuted with
  | none => exact .inl ⟨l, _, _, rfl, rfl, Nat.le_refl _⟩
  | some n =>
    dsimp only
    split
    · exact .inr ⟨{ l with destructiveExecuted := n }, rfl, rfl, rfl⟩
    · refine .inl ⟨{ l with destructiveExecuted := n }, _, _, rfl, rfl, ?_⟩
      rcases gateDestructive_eq hgate with ⟨-, rfl⟩ | ⟨-, -, -, rfl⟩
      · exact Nat.le_refl _
      · exact Nat.le_succ _

/-- What a step of the loop does to the destructive count: the loop is closed, or no tool starts, or one starts that the
gate has let through. -/
theorem step_fired {s s' : Loop} {a : Answer} (h : s.step lib prompt cfg a = some s') :
    s'.closed = true ∧ s'.running = none ∨
      s.closed = false ∧ s'.running = none ∧ s.fired ≤ s'.fired ∨
      s.closed = false ∧ ∃ tc, s'.running = some tc ∧
        gateDestructive tc.name cfg.allowDestructive cfg.autonomy s.fired = some s'.fired := by
  unfold Loop.step at h
  split at h
  · obtain rfl := Option.some.inj h
    split
    · exact .inr (.inl ⟨rfl, rfl, Nat.le_refl _⟩)
    · exact .inl ⟨rfl, rfl⟩
  · rename_i l t
    obtain rfl := Option.some.inj h
    obtain ⟨hfired, hrunning⟩ := afterTurn_fired l t
    exact .inr (.inl ⟨rfl, hrunning, hfired.ge⟩)
  · rename_i l tc rest ok
    obtain rfl := Option.some.inj h
    split
    · rcases execute_cases lib cfg l tc rest with
        ⟨l', result, isError, heq, -, hle⟩ | ⟨l', heq, -, hgate⟩
      · rw [heq]
        exact .inr (.inl ⟨rfl, rfl, hle⟩)
      · rw [heq]
        exact .inr (.inr ⟨rfl, tc, rfl, hgate⟩)
    · exact .inl ⟨rfl, rfl⟩
  · obtain rfl := Option.some.inj h
    exact .inr (.inl ⟨rfl, rfl, Nat.le_refl _⟩)
  · rename_i l tc rest result isError ok
    obtain rfl := Option.some.inj h
    split
    · obtain ⟨hfired, hrunning⟩ := afterCall_fired lib cfg l tc rest result isError
      rcases hfired with hclosed | hfired
      · exact .inl ⟨hclosed, hrunning⟩
      · exact .inr (.inl ⟨rfl, hrunning, hfired.ge⟩)
    · exact .inl ⟨rfl, rfl⟩
  · obtain rfl := Option.some.inj h
    exact .inl ⟨rfl, rfl⟩
  · obtain rfl := Option.some.inj h
    exact .inl ⟨rfl, rfl⟩
  · rename_i l ok
    obtain rfl := Option.some.inj h
    split
    · exact .inl ⟨rfl, rfl⟩
    · exact .inl ⟨rfl, rfl⟩
  · obtain rfl := Option.some.inj h
    exact .inl ⟨rfl, rfl⟩
  · cases h

end

end BssCli.Agent
