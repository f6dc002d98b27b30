import BssCli.Agent.Loop
import BssCli.Cockpit.Planning
import BssCli.Lib.Pool

/-!
# The turns of one conversation

`cockpit.rs`: what the operator posts, the requests that open the event stream, and the turns that they start. Each
step is one statement of the store or one effect of an agent loop.
-/

/-!
## The cockpit's destructive tools

`guards.rs` has a list of its own: prefixes of the tools that the cockpit stages as a proposal or notes as executed. The
gate of the agent loop has another list, of whole names.
-/

open BssCli.Agent

namespace BssCli.Cockpit.Guards

def destructivePrefixes : List String :=
  ["subscription.terminate", "subscription.migrate_to_new_price", "subscription.purchase_vas",
   "subscription.schedule_plan_change", "subscription.cancel_pending_plan_change", "payment.add_card",
   "payment.remove_method", "payment.charge", "customer.create", "customer.update_contact", "customer.attest_kyc",
   "customer.close", "customer.add_contact_medium", "customer.remove_contact_medium", "case.open", "case.close",
   "case.add_note", "case.transition", "case.update_priority", "ticket.open", "ticket.assign", "ticket.transition",
   "ticket.resolve", "ticket.close", "ticket.cancel", "order.create", "order.cancel", "catalog.add_offering",
   "catalog.add_price", "catalog.window_offering", "catalog.retire_offering", "provisioning.resolve_stuck",
   "provisioning.retry_failed", "provisioning.set_fault_injection"]

def isDestructive (toolName : String) : Bool :=
  destructivePrefixes.any fun p => toolName = p ∨ p.toList <+: toolName.toList

/-- The tools that reset or force state. The cockpit's model is never offered them. -/
def isAdmin (toolName : String) : Bool := "admin.".toList <+: toolName.toList

/-- The gate refuses no other tool that the cockpit would not stage. -/
theorem isDestructive_of_gated {toolName : String} (h : Agent.isDestructive toolName = true)
    (hadmin : isAdmin toolName = false) : isDestructive toolName = true := by
  have hall : (destructiveTools.all fun name => isAdmin name || isDestructive name) = true := by decide +kernel
  have hone := List.all_eq_true.mp hall toolName (of_decide_eq_true h)
  rw [hadmin, Bool.false_or] at hone
  exact hone

theorem ne_empty_of_isDestructive {toolName : String} (h : isDestructive toolName = true) : toolName ≠ "" := by
  rintro rfl
  have hnone : "" ∉ destructivePrefixes := by simp [destructivePrefixes]
  obtain ⟨p, hp, hmatch⟩ := List.any_eq_true.mp h
  rcases of_decide_eq_true hmatch with rfl | hprefix
  · exact hnone hp
  · obtain rfl : p = "" := String.toList_eq_nil_iff.mp (List.prefix_nil.mp hprefix)
    exact hnone hp

end BssCli.Cockpit.Guards

open Text BssCli.Agent

namespace BssCli.Cockpit

/-- The row of `cockpit.pending_destructive`. The stamp tells one proposal from the next. -/
structure Proposal where
  stamp : Nat
  toolName : String
  args : Json

structure DestructiveCall where
  name : String
  args : Json

structure Collected where
  captured : List ToolCall := []
  lastProposal : Option DestructiveCall := none
  executed : List DestructiveCall := []
  finalText : Option (List Char) := none
  errored : Bool := false
  toolRows : List (String × List Char) := []

/-- What the cockpit makes of texts, and the prompt that it builds. -/
structure Surface where
  library : Library
  registry : String → Bool
  systemPrompt : Option Proposal → List Char
  renderToolResult : String → List Char → Option (List Char)
  stripReasoningLeakage : List Char → List Char
  finalizeBubble : List Char → Collected → List Char

/-- `args_map`: what is no object is stored as an empty one. -/
def argsMap : Json → Json
  | .obj fields => .obj fields
  | _ => .obj []

def operatorActor : String := "operator"

def blockedMark : List Char := "DESTRUCTIVE_OPERATION_BLOCKED".toList

section
variable (sf : Surface)

/-- The sink: what it keeps of an event, and whether the loop goes on. -/
def Collected.take (c : Collected) : AgentEvent → Collected × Bool
  | .toolCallStarted name args callId => ({ c with captured := c.captured ++ [⟨callId, name, args⟩] }, true)
  | .toolCallCompleted name callId result _ resultFull =>
    let raw := if resultFull = [] then result else resultFull
    let c :=
      if name ≠ "" ∧ Guards.isDestructive name = true then
        let args := ((c.captured.reverse.find? (·.id = callId)).map (·.args)).getD (.obj [])
        if blockedMark <:+: raw then
          { c with lastProposal := some ⟨name, args⟩ }
        else
          { c with executed := c.executed ++ [⟨name, args⟩] }
      else c
    let rendered := (sf.renderToolResult name raw).getD raw
    (if rendered = [] then c else { c with toolRows := c.toolRows ++ [(name, rendered)] }, true)
  | .error _ => ({ c with errored := true }, false)
  | .finalMessage text => ({ c with finalText := some (sf.stripReasoningLeakage text) }, false)
  | .promptReceived _ | .turnUsage .. => (c, true)

inductive Stage
  | running (loop : Loop)
  /-- The tool rows that are still to be stored. -/
  | persisting (rows : List (String × List Char))
  /-- The assistant's bubble is to be stored. -/
  | answering
  /-- The bubble is stored, the proposal is to be staged. -/
  | staging (call : DestructiveCall)
  | finished

structure Turn where
  transcript : List Char
  consumed : Option Proposal
  drive : DriveTurn
  collected : Collected := {}
  stage : Stage := .running .prompted

def Turn.config (t : Turn) : Config where
  allowDestructive := t.drive.allowDestructive
  autonomy := .granular
  systemPrompt := sf.systemPrompt t.consumed
  transcript := t.drive.priorTranscript
  actor := operatorActor
  crmAudit := true
  registry := sf.registry

/-- One effect of the loop. An event goes to the sink, which says whether the loop goes on. -/
def Turn.advance (t : Turn) (a : Answer) : Option Turn :=
  match t.stage with
  | .running loop =>
    match loop.effect t.drive.userMessage (t.config sf) with
    | none => some { t with stage := .persisting t.collected.toolRows }
    | some (.emit event) =>
      let taken := t.collected.take sf event
      (loop.step sf.library t.drive.userMessage (t.config sf) (.taken taken.2)).map fun loop =>
        { t with collected := taken.1, stage := .running loop }
    | some _ =>
      (loop.step sf.library t.drive.userMessage (t.config sf) a).map fun loop => { t with stage := .running loop }
  | _ => none

def errorText : List Char := "Sorry — something went wrong. Please try again.".toList

/-- The text of the assistant's bubble. Without a terminal event there is none. -/
def Collected.bubble (c : Collected) : Option (List Char) :=
  if c.errored then some errorText else c.finalText.map fun text => sf.finalizeBubble text c

/-- A request that opens the event stream, between its statements. -/
inductive Handler
  /-- No turn was running when it looked. -/
  | opened
  | read (transcript : List Char)
  | consumed (transcript : List Char) (pending : Option Proposal)

def Handler.pending : Handler → Option Proposal
  | .consumed _ p => p
  | _ => none

structure World where
  rows : List Row := []
  pending : Option Proposal := none
  /-- How many proposals were staged. -/
  stamps : Nat := 0
  /-- The turn that the registry of this process has for the conversation. -/
  inflight : Option Nat := none
  /-- Resets that have deleted the rows and not yet the proposal. -/
  resets : Nat := 0
  handlers : List Handler := []
  /-- Every turn that was started, in order. -/
  turns : List Turn := []
  /-- Every tool that was run, with its turn. -/
  executions : List (Nat × ToolCall) := []

inductive Reply
  | done
  | failed
  /-- It is carried out, and an error is reported. -/
  | lost
  deriving DecidableEq

inductive Step
  /-- `POST /cockpit/{id}/turn` -/
  | post (message : List Char)
  /-- `POST /cockpit/{id}/reset`, its two statements -/
  | reset
  | resetPending
  /-- `GET /cockpit/{id}/events`: the look at the registry, the transcript, the proposal, the plan -/
  | openStream
  | readTranscript (i : Nat) (ok : Bool)
  | consumePending (i : Nat) (r : Reply)
  | plan (i : Nat)
  /-- The client goes away before the turn is started, or there is no registry of tools. -/
  | drop (i : Nat)
  | loop (i : Nat) (a : Answer)
  /-- There is no model to drive the turn with. -/
  | noModel (i : Nat)
  | persist (i : Nat) (ok : Bool)
  | answer (i : Nat) (r : Reply)
  | stagePending (i : Nat) (ok : Bool)
  | restart

def Stage.isRunning : Stage → Option Loop
  | .running loop => some loop
  | _ => none

def Stage.isFinished : Stage → Bool
  | .finished => true
  | _ => false

namespace World

/-- `observe`: a turn is registered and its task is not finished. -/
def observes (w : World) : Bool :=
  (w.inflight.bind fun i => w.turns[i]?).any fun t => !t.stage.isFinished

/-- The turn is over, and with it the entry of the conversation. -/
def finish (w : World) (i : Nat) (t : Turn) : World :=
  { w with turns := w.turns.set i { t with stage := .finished }, inflight := none }

def executed (i : Nat) (t : Turn) : List (Nat × ToolCall) :=
  ((t.stage.isRunning.bind Loop.running).map fun tc => (i, tc)).toList

def step (w : World) : Step → Option World
  | .post message =>
    let text := trim message
    if text = [] then some w else some { w with rows := w.rows ++ [⟨.user, text, []⟩] }
  | .reset => some { w with rows := [], resets := w.resets + 1 }
  | .resetPending => if w.resets = 0 then none else some { w with pending := none, resets := w.resets - 1 }
  | .openStream => if w.observes then some w else some { w with handlers := w.handlers ++ [.opened] }
  | .readTranscript i ok =>
    match w.handlers[i]? with
    | some .opened =>
      some { w with handlers := w.handlers.set i (.read (if ok then transcriptText w.rows else [])) }
    | _ => none
  | .consumePending i r =>
    match w.handlers[i]? with
    | some (.read transcript) =>
      some { w with
        handlers := w.handlers.set i (.consumed transcript (if r = .done then w.pending else none))
        pending := if r = .failed then w.pending else none }
    | _ => none
  | .plan i =>
    match w.handlers[i]? with
    | some (.consumed transcript pending) =>
      match planTurn transcript pending.isSome with
      | .drive d =>
        some { w with
          handlers := w.handlers.eraseIdx i
          turns := w.turns ++ [{ transcript := transcript, consumed := pending, drive := d }]
          inflight := some w.turns.length }
      | _ => some { w with handlers := w.handlers.eraseIdx i }
    | _ => none
  | .drop i => some { w with handlers := w.handlers.eraseIdx i }
  | .loop i a =>
    w.turns[i]?.bind fun t => (t.advance sf a).map fun t' =>
      { w with turns := w.turns.set i t', executions := w.executions ++ executed i t' }
  | .noModel i =>
    match w.turns[i]? with
    | some t =>
      match t.stage with
      | .running .prompted => some (w.finish i t)
      | _ => none
    | none => none
  | .persist i ok =>
    match w.turns[i]? with
    | some t =>
      match t.stage with
      | .persisting [] => some { w with turns := w.turns.set i { t with stage := .answering } }
      | .persisting ((name, body) :: rest) =>
        some { w with
          turns := w.turns.set i { t with stage := .persisting rest }
          rows := if ok then w.rows ++ [⟨.tool, body, name.toList⟩] else w.rows }
      | _ => none
    | none => none
  | .answer i r =>
    match w.turns[i]? with
    | some t =>
      match t.stage with
      | .answering =>
        match t.collected.bubble sf with
        | none => some (w.finish i t)
        | some text =>
          let rows := if r = .failed then w.rows else w.rows ++ [⟨.assistant, text, []⟩]
          match t.collected.lastProposal with
          | some call =>
            if r = .done ∧ t.collected.errored = false then
              some { w with rows, turns := w.turns.set i { t with stage := .staging call } }
            else
              some { w.finish i t with rows }
          | none => some { w.finish i t with rows }
      | _ => none
    | none => none
  | .stagePending i ok =>
    match w.turns[i]? with
    | some t =>
      match t.stage with
      | .staging call =>
        if ok then
          some { w.finish i t with pending := some ⟨w.stamps, call.name, argsMap call.args⟩, stamps := w.stamps + 1 }
        else
          some (w.finish i t)
      | _ => none
    | none => none
  | .restart =>
    some { w with
      inflight := none
      resets := 0
      handlers := []
      turns := w.turns.map fun t => { t with stage := .finished } }

end World

end

end BssCli.Cockpit
