import BssCli.Som.Decomposition

/-!
# Tasks, the reports about them, and the eSIM provider
-/

namespace BssCli.Provisioning

open Som (TaskKind)

inductive TaskState
  | pending
  | running
  | completed
  | failed
  | stuck
  deriving DecidableEq

def TaskState.name : TaskState → String
  | pending => "pending"
  | running => "running"
  | completed => "completed"
  | failed => "failed"
  | stuck => "stuck"

structure Task where
  id : String
  serviceId : String
  taskType : String
  state : TaskState
  attempts : ℕ
  maxAttempts : ℕ
  payload : Value
  lastError : Option String
  startedAt : Option Time
  completedAt : Option Time
  deriving DecidableEq

/-- `payload.get(key).and_then(Value::as_str).unwrap_or("")`. -/
def strOf (payload : Value) (key : String) : String :=
  match payload.asObject.bind fun fields => Fields.get fields key with
  | some (.str s) => s
  | _ => ""

/-! ## Reports -/

def eventType : TaskKind → String
  | .completed => "provisioning.task.completed"
  | .failed => "provisioning.task.failed"
  | .stuck => "provisioning.task.stuck"

/-- The fields that only some states have. -/
def stateFields (task : Task) (permanent : Bool) : Object :=
  match task.state with
  | .completed => [("completedAt", optValue .time task.completedAt)]
  | .failed => [("lastError", .str (task.lastError.getD "")), ("permanent", .bool permanent)]
  | .stuck => [("startedAt", optValue .time task.startedAt)]
  | .pending | .running => []

def taskEventPayload (task : Task) (serviceOrderId commercialOrderId : String) (permanent : Bool) : Object :=
  [("taskId", .str task.id), ("serviceId", .str task.serviceId), ("serviceOrderId", .str serviceOrderId),
   ("commercialOrderId", .str commercialOrderId), ("taskType", .str task.taskType),
   ("attempts", .int task.attempts), ("maxAttempts", .int task.maxAttempts)] ++
  stateFields task permanent

theorem ofBody_taskEventPayload (task : Task) (so comm : String) (permanent : Bool) :
    ∃ permanent', Som.TaskEvent.ofBody (taskEventPayload task so comm permanent) =
      .ok ⟨task.serviceId, task.taskType, so, comm, permanent'⟩ := by
  refine ⟨((Fields.get (stateFields task permanent) "permanent").bind Value.asBool).getD true, ?_⟩
  simp [Som.TaskEvent.ofBody, taskEventPayload, reqStr, optStr, strField, Fields.get_cons, Value.asStr, Value.str]
  rfl

/-! ## Policies -/

/-- `char::is_whitespace`: the Unicode property. -/
def isWhitespace (c : Char) : Bool :=
  (9 ≤ c.toNat && c.toNat ≤ 13) || c.toNat = 0x20 || c.toNat = 0x85 || c.toNat = 0xA0 || c.toNat = 0x1680 ||
  (0x2000 ≤ c.toNat && c.toNat ≤ 0x200A) || c.toNat = 0x2028 || c.toNat = 0x2029 || c.toNat = 0x202F ||
  c.toNat = 0x205F || c.toNat = 0x3000

def checkResolveHasNote (note taskId : String) : Except ApiError Unit :=
  if note.toList.all isWhitespace then .error (.policy {
    rule := "provisioning.resolve_stuck.requires_note"
    message := s!"Resolving stuck task {taskId} requires a non-empty note"
    context := [("task_id", .str taskId)] })
  else .ok ()

def checkRetryAllowed (task : Task) : Except ApiError Unit :=
  if task.maxAttempts ≤ task.attempts then .error (.policy {
    rule := "provisioning_task.retry.max_attempts"
    message := s!"Task {task.id} has exhausted all {task.maxAttempts} attempts"
    context := [("task_id", .str task.id), ("attempts", .int task.attempts),
      ("max_attempts", .int task.maxAttempts)] })
  else .ok ()

def notFound (taskId : String) : ApiError := .policy {
  rule := "provisioning_task.not_found"
  message := s!"Task {taskId} not found"
  context := [("task_id", .str taskId)] }

/-- Only a task in the state `required` is resolved or retried. -/
def checkState (rule : String) (required : TaskState) (task : Task) : Except ApiError Unit :=
  if task.state = required then .ok ()
  else .error (.policy {
    rule := rule
    message := s!"Task {task.id} is in state '{task.state.name}', not '{required.name}'"
    context := [("task_id", .str task.id), ("state", .str task.state.name)] })

/-! ## The eSIM provider -/

structure EsimOrderResult where
  success : Bool
  providerReference : Option String

inductive EsimProvider
  | sim
  | oneGlobal
  | esimAccess

def v016Pointer (name : String) : String :=
  s!"v0.16+: {name} adapter requires NDA + production credentials. " ++
  "Set BSS_ESIM_PROVIDER=sim until the integration ships."

def EsimProvider.orderProfile : EsimProvider → Except String EsimOrderResult
  | sim => .ok ⟨true, none⟩
  | oneGlobal => .error (v016Pointer "1GLOBAL Connect")
  | esimAccess => .error (v016Pointer "eSIM Access")

end BssCli.Provisioning

/-!
# One run of a task

Up to three attempts, with the faults that are set for the type of the task. The row and
the report are written once, at the end.
-/

namespace BssCli.Provisioning

open Som (TaskKind)

structure TaskRequest where
  serviceId : String
  serviceOrderId : String
  commercialOrderId : String
  taskType : String
  payload : Value

/-- A message without one of the three fields is dropped. -/
def TaskRequest.ofBody (body : Object) : Option TaskRequest := do
  return {
    serviceId := ← strField body "serviceId"
    serviceOrderId := ← strField body "serviceOrderId"
    commercialOrderId := optStr body "commercialOrderId"
    taskType := ← strField body "taskType"
    payload := (Fields.get body "payload").getD (.object []) }

/-- The fault that is active, and what the dice say: for `stuck`, and at each attempt. -/
structure WorkerEnv where
  faultType : Option String
  stuckFires : Bool
  fires : ℕ → Bool
  esim : EsimProvider
  now : Time

structure Outcome where
  kind : TaskKind
  task : Task
  permanent : Bool

/-- An attempt ends the task, or leaves it to the next attempt. -/
inductive Attempt
  | ended (o : Outcome)
  | again (task : Task)

/-- A failed attempt, the last one or not. -/
def failAttempt (task : Task) (lastError : String) : Attempt :=
  let task := { task with state := .failed, lastError := some lastError }
  if task.maxAttempts ≤ task.attempts then .ended ⟨.failed, task, true⟩ else .again task

/-- An attempt, once it is counted. -/
def attempt (env : WorkerEnv) (task : Task) : Attempt :=
  if env.faultType = some "fail_always" ∧ env.fires task.attempts then
    failAttempt task s!"Simulated fail_always for {task.taskType}"
  else if env.faultType = some "fail_first_attempt" ∧ task.attempts = 1 ∧ env.fires task.attempts then
    .again { task with
      state := .failed
      lastError := some s!"Simulated fail_first_attempt for {task.taskType}" }
  else
    let done := Attempt.ended ⟨.completed, { task with state := .completed, completedAt := some env.now }, false⟩
    if task.taskType = "ESIM_PROFILE_PREPARE" then
      match env.esim.orderProfile with
      | .ok result =>
        if result.success then done
        else
          let reference := result.providerReference.getD "no reference"
          failAttempt task s!"SM-DP+ provider declined profile order: {reference}"
      | .error msg => .ended ⟨.failed, { task with state := .failed, lastError := some msg }, true⟩
    else done

/-- The attempts that are left. After the last one the task has failed. -/
def runAttempts (env : WorkerEnv) : ℕ → Task → Outcome
  | 0, task => ⟨.failed, { task with state := .failed, lastError := some "max_attempts exhausted" }, true⟩
  | n + 1, task =>
    let task := { task with
      attempts := task.attempts + 1
      state := .running
      startedAt := task.startedAt.or (some env.now) }
    match attempt env task with
    | .ended o => o
    | .again task => runAttempts env n task

def newTask (id : String) (req : TaskRequest) : Task where
  id := id
  serviceId := req.serviceId
  taskType := req.taskType
  state := .pending
  attempts := 0
  maxAttempts := 3
  payload := req.payload
  lastError := none
  startedAt := none
  completedAt := none

/-- `process_task` up to its one transaction. -/
def processTask (env : WorkerEnv) (id : String) (req : TaskRequest) : Outcome :=
  let task := newTask id req
  if env.faultType = some "stuck" ∧ env.stuckFires then
    ⟨.stuck, { task with state := .stuck, startedAt := some env.now }, false⟩
  else runAttempts env task.maxAttempts task

def Outcome.payload (o : Outcome) (req : TaskRequest) : Object :=
  taskEventPayload o.task req.serviceOrderId req.commercialOrderId o.permanent

/-! ## What a run leaves alone -/

/-- The same work, at another stage. -/
structure SameWork (t t' : Task) : Prop where
  id : t'.id = t.id
  serviceId : t'.serviceId = t.serviceId
  taskType : t'.taskType = t.taskType
  payload : t'.payload = t.payload

theorem SameWork.trans {t t' t'' : Task} (h : SameWork t t') (h' : SameWork t' t'') : SameWork t t'' :=
  ⟨h'.id.trans h.id, h'.serviceId.trans h.serviceId, h'.taskType.trans h.taskType, h'.payload.trans h.payload⟩

def Attempt.task : Attempt → Task
  | .ended o => o.task
  | .again t => t

theorem failAttempt_same (t : Task) (e : String) : SameWork t (failAttempt t e).task := by
  unfold failAttempt
  dsimp only
  split <;> exact ⟨rfl, rfl, rfl, rfl⟩

theorem attempt_same (env : WorkerEnv) (t : Task) : SameWork t (attempt env t).task := by
  unfold attempt
  dsimp only
  split
  · exact failAttempt_same ..
  · split
    · exact ⟨rfl, rfl, rfl, rfl⟩
    · split
      · split
        · split
          · exact ⟨rfl, rfl, rfl, rfl⟩
          · exact failAttempt_same ..
        · exact ⟨rfl, rfl, rfl, rfl⟩
      · exact ⟨rfl, rfl, rfl, rfl⟩

theorem runAttempts_same (env : WorkerEnv) (n : ℕ) (t : Task) : SameWork t (runAttempts env n t).task := by
  induction n generalizing t with
  | zero => exact ⟨rfl, rfl, rfl, rfl⟩
  | succ n ih =>
    unfold runAttempts
    dsimp only
    have h := attempt_same env { t with
      attempts := t.attempts + 1, state := .running, startedAt := t.startedAt.or (some env.now) }
    have hcounted : SameWork t { t with
      attempts := t.attempts + 1, state := .running, startedAt := t.startedAt.or (some env.now) } :=
      ⟨rfl, rfl, rfl, rfl⟩
    split
    · rename_i o ho
      rw [ho] at h
      exact hcounted.trans h
    · rename_i t' ht'
      rw [ht'] at h
      exact (hcounted.trans h).trans (ih t')

theorem processTask_same (env : WorkerEnv) (id : String) (req : TaskRequest) :
    SameWork (newTask id req) (processTask env id req).task := by
  unfold processTask
  dsimp only
  split
  · exact ⟨rfl, rfl, rfl, rfl⟩
  · exact runAttempts_same ..

/-- The orchestrator reads the report as one on the task that was asked for. -/
theorem ofBody_payload (env : WorkerEnv) (id : String) (req : TaskRequest) :
    ∃ permanent, Som.TaskEvent.ofBody ((processTask env id req).payload req) =
      .ok ⟨req.serviceId, req.taskType, req.serviceOrderId, req.commercialOrderId, permanent⟩ := by
  obtain ⟨permanent, h⟩ := ofBody_taskEventPayload (processTask env id req).task req.serviceOrderId
    req.commercialOrderId (processTask env id req).permanent
  have hsame := processTask_same env id req
  exact ⟨permanent, by rw [Outcome.payload, h, hsame.serviceId, hsame.taskType]; rfl⟩

end BssCli.Provisioning
