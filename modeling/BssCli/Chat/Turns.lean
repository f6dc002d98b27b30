import BssCli.Agent.Loop
import BssCli.Common
import BssCli.Lib.Pool
import BssCli.Lib.Quota

/-!
# The chat of one customer

`chat.rs` and `chat_caps.rs`: what the customer posts, the requests that open an event stream, and the agent runs that
they start. A step is one read or write of the caps, the store of turns or an effect of an agent loop.
-/

open Text BssCli.Agent

namespace BssCli.Chat

/-! ## The caps -/

structure CapLimits where
  ratePerCustomerPerHour : ℤ := 20
  costCapPerCustomerPerMonthCents : ℤ := 200

structure CapStatus where
  allowed : Bool
  reason : Option String
  deriving DecidableEq

def CapStatus.blocked (reason : String) : CapStatus := ⟨false, some reason⟩

/-- `decide` -/
def CapLimits.decide (limits : CapLimits) (hourlyCount monthCostCents : ℤ) : CapStatus :=
  if hourlyCount ≥ limits.ratePerCustomerPerHour then
    .blocked "hourly_rate_cap"
  else if monthCostCents ≥ limits.costCapPerCustomerPerMonthCents then
    .blocked "monthly_cost_cap"
  else
    ⟨true, none⟩

/-- The rest of `check_caps`, with the cost that was read. Without one the cap is closed. -/
def CapLimits.check (limits : CapLimits) (hourly : ℤ) (cost : Option ℤ) : CapStatus :=
  match cost with
  | some cost => limits.decide hourly cost
  | none => .blocked "cap_check_failed"

/-- `HourlyWindow::prune`: what is too old is dropped from the front. -/
def prune (now : Time) (bucket : List Time) : List Time := bucket.dropWhile fun t => t < now - hours 1

/-! ## Turns and runs -/

structure ChatTurn where
  question : List Char
  done : Bool := false
  /-- The store still has it. -/
  held : Bool := true
  /-- How many agent runs it has started. Nothing reads it. -/
  runs : Nat := 0

inductive Stage
  | running (loop : Loop)
  /-- The loop is over, the usage is to be recorded. -/
  | recording
  | closed

structure ChatRun where
  turn : Nat
  question : List Char
  config : Config
  startedAt : Time
  /-- The model was asked. -/
  invoked : Bool := false
  usage : Option Usage := none
  stage : Stage := .running .prompted

def usageAfter (usage : Option Usage) : AgentEvent → Option Usage
  | .turnUsage promptTok completionTok model => some ⟨promptTok, completionTok, model⟩
  | _ => usage

/-- What the sink answers. Only a tool's pill looks at the stream. -/
def goesOn (streaming : Bool) : AgentEvent → Bool
  | .error _ | .finalMessage _ => false
  | .toolCallStarted .. => streaming
  | .promptReceived _ | .toolCallCompleted .. | .turnUsage .. => true

def asksModel : Effect → Bool
  | .generate _ => true
  | _ => false

/-- One effect of the loop, or what stands behind it. -/
def ChatRun.advance (lib : Library) (r : ChatRun) (a : Answer) (streaming : Bool) : Option ChatRun :=
  match r.stage with
  | .running loop =>
    match loop.effect r.question r.config with
    | none => some { r with stage := if r.usage.isSome then .recording else .closed }
    | some (.emit event) =>
      (loop.step lib r.question r.config (.taken (goesOn streaming event))).map fun loop =>
        { r with usage := usageAfter r.usage event, stage := .running loop }
    | some effect =>
      (loop.step lib r.question r.config a).map fun loop =>
        { r with invoked := r.invoked || asksModel effect, stage := .running loop }
  | _ => none

/-- The run is about to give its answer. -/
def ChatRun.answers (r : ChatRun) : Bool :=
  match r.stage with
  | .running (.answering _) => true
  | _ => false

/-! ## Steps -/

structure Settings where
  limits : CapLimits
  library : Library
  registry : String → Bool
  /-- The customer, empty for one who only browses. -/
  actor : String

structure World where
  clock : Time
  /-- The recent runs, as the hourly window has them. -/
  bucket : List Time := []
  /-- Messages whose hourly count is read and whose cost is not. -/
  posts : List (List Char × ℤ) := []
  turns : List ChatTurn := []
  runs : List ChatRun := []
  /-- The runs that were recorded. -/
  ledger : List Nat := []

inductive Step
  | tick (now : Time)
  /-- `POST /chat/message`: the hourly count, then the cost of the month -/
  | post (message : List Char)
  | readCost (i : Nat) (cost : Option ℤ)
  /-- `GET /chat/events/{id}`. `serves`: the client is still there when the run starts, and there are tools and a model. -/
  | stream (i : Nat) (serves : Bool) (systemPrompt transcript : List Char)
  /-- The next effect of a run. `streaming`: the client is still there. -/
  | run (i : Nat) (a : Answer) (streaming : Bool)
  | record (i : Nat)
  /-- The store drops the turn. -/
  | expire (i : Nat)

variable (st : Settings)

def Settings.config (systemPrompt transcript : List Char) : Config where
  allowDestructive := true
  systemPrompt
  transcript
  actor := st.actor
  crmAudit := true
  registry := st.registry

namespace World

/-- The answer of a run ends its turn. -/
def turnsAfter (turns : List ChatTurn) (r : ChatRun) : List ChatTurn :=
  if r.answers then
    match turns[r.turn]? with
    | some t => turns.set r.turn { t with done := true }
    | none => turns
  else
    turns

def start (w : World) (i : Nat) (t : ChatTurn) (systemPrompt transcript : List Char) : World :=
  { w with
    turns := w.turns.set i { t with runs := t.runs + 1 }
    runs := w.runs ++ [{
      turn := i
      question := t.question
      config := st.config systemPrompt transcript
      startedAt := w.clock }] }

def step (w : World) : Step → Option World
  | .tick now => if w.clock ≤ now then some { w with clock := now } else none
  | .post message =>
    let text := trim message
    if text = [] then
      some w
    else
      let bucket := prune w.clock w.bucket
      if bucket.length ≥ st.limits.ratePerCustomerPerHour then
        some { w with bucket }
      else
        some { w with bucket, posts := w.posts ++ [(text, (bucket.length : ℤ))] }
  | .readCost i cost =>
    w.posts[i]?.map fun post =>
      let posts := w.posts.eraseIdx i
      if (st.limits.check post.2 cost).allowed then
        { w with posts, turns := w.turns ++ [{ question := post.1 }] }
      else
        { w with posts }
  | .stream i serves systemPrompt transcript =>
    match w.turns[i]? with
    | some t =>
      if t.held = true ∧ t.done = false ∧ serves = true then
        some (w.start st i t systemPrompt transcript)
      else
        some w
    | none => some w
  | .run i a streaming =>
    w.runs[i]?.bind fun r => (r.advance st.library a streaming).map fun r' =>
      { w with runs := w.runs.set i r', turns := turnsAfter w.turns r }
  | .record i =>
    match w.runs[i]? with
    | some r =>
      match r.stage with
      | .recording =>
        some { w with
          bucket := prune w.clock (w.bucket ++ [w.clock])
          runs := w.runs.set i { r with stage := .closed }
          ledger := w.ledger ++ [i] }
      | _ => none
    | none => none
  | .expire i =>
    w.turns[i]?.map fun t => { w with turns := w.turns.set i { t with held := false } }

end World

end BssCli.Chat
