import BssCli.Som.Repo

/-!
# An order becomes a service order

One CFS with two RFS below it, a number and an eSIM, and four tasks. The ids come from
sequences, which never give the same number twice. The inventory is called in the middle:
`Reserved` is what its two replies say.
-/

namespace BssCli.Som

/-- `{n:04}`. -/
def pad4 (n : ℕ) : String :=
  let digits := Nat.toDigits 10 n
  .ofList (List.replicate (4 - digits.length) '0' ++ digits)

def serviceOrderId (n : ℕ) : String := "SO-" ++ pad4 n

def serviceId (n : ℕ) : String := "SVC-" ++ pad4 n

theorem serviceOrderId_ne_empty (n : ℕ) : serviceOrderId n ≠ "" := by
  intro h
  have := congrArg String.toList h
  simp [serviceOrderId] at this

structure DecomposeRequest where
  commercialOrderId : String
  customerId : String
  offeringId : String
  msisdnPreference : Option String
  paymentMethodId : String
  priceSnapshot : Option Value
  deriving DecidableEq

def DecomposeRequest.ofBody (body : Object) : Except String DecomposeRequest := do
  return {
    commercialOrderId := ← reqStr body "commercialOrderId"
    customerId := ← reqStr body "customerId"
    offeringId := ← reqStr body "offeringId"
    msisdnPreference := strField body "msisdnPreference"
    paymentMethodId := ← reqStr body "paymentMethodId"
    priceSnapshot := (Fields.get body "priceSnapshot").filter fun v => v ≠ .scalar .null }

/-- What the sequences have given to one decomposition. -/
structure DecomposeIds where
  order : ℕ
  cfsNo : ℕ
  rfsDataNo : ℕ
  rfsVoiceNo : ℕ
  deriving DecidableEq

namespace DecomposeIds

variable (ids : DecomposeIds)

def so : String := serviceOrderId ids.order
def cfs : String := serviceId ids.cfsNo
def rfsData : String := serviceId ids.rfsDataNo
def rfsVoice : String := serviceId ids.rfsVoiceNo

end DecomposeIds

structure Reserved where
  msisdn : String
  iccid : String
  imsi : String
  activationCode : String
  deriving DecidableEq

/-- The replies of `reserve_next_msisdn` and `reserve_esim`. -/
def Reserved.ofReplies (msisdnResult esimResult : Object) : Except String Reserved := do
  let some msisdn := strField msisdnResult "msisdn" | .error "reserve_next_msisdn returned no msisdn"
  let some iccid := strField esimResult "iccid" | .error "reserve_esim returned no iccid"
  let code := (Fields.get esimResult "activationCode").or (Fields.get esimResult "activation_code")
  return ⟨msisdn, iccid, optStr esimResult "imsi", (code.bind Value.asStr).getD ""⟩

def pendingTasks : List (String × Scalar) := taskTypes.map fun t => (t, .str "pending")

def characteristics (req : DecomposeRequest) (r : Reserved) : Object :=
  [("msisdn", .str r.msisdn), ("iccid", .str r.iccid), ("imsi", .str r.imsi),
   ("activationCode", .str r.activationCode), ("pendingTasks", .object pendingTasks),
   ("commercialOrderId", .str req.commercialOrderId), ("customerId", .str req.customerId),
   ("offeringId", .str req.offeringId), ("paymentMethodId", .str req.paymentMethodId)] ++
  (req.priceSnapshot.map fun snap => ("priceSnapshot", snap)).toList

/-- What the network element needs to know. -/
def taskInput (req : DecomposeRequest) (r : Reserved) : List (String × Scalar) :=
  [("msisdn", .str r.msisdn), ("iccid", .str r.iccid), ("imsi", .str r.imsi),
   ("activationCode", .str r.activationCode), ("customerId", .str req.customerId),
   ("offeringId", .str req.offeringId)]

def taskCreatedPayload (req : DecomposeRequest) (ids : DecomposeIds) (r : Reserved) (taskType : String) : Object :=
  [("serviceId", .str ids.cfs), ("serviceOrderId", .str ids.so),
   ("commercialOrderId", .str req.commercialOrderId), ("taskType", .str taskType),
   ("payload", .object (taskInput req r))]

def taskCreated (req : DecomposeRequest) (ids : DecomposeIds) (r : Reserved) (taskType : String) : Event where
  eventType := "provisioning.task.created"
  aggregateType := "ProvisioningTask"
  aggregateId := ids.cfs ++ ":" ++ taskType
  payload := taskCreatedPayload req ids r taskType

/-- The service order and its three services, before anything is reserved. -/
def insertGraph (req : DecomposeRequest) (ids : DecomposeIds) (db : SomDb) : Except String SomDb := do
  let db ← db.insertServiceOrder ids.so req.commercialOrderId
  let db ← db.insertService ids.cfs "MobileBroadband" .cfs none
  let db ← db.insertService ids.rfsData "DataService" .rfs (some ids.cfs)
  let db ← db.insertService ids.rfsVoice "VoiceService" .rfs (some ids.cfs)
  checkServiceTransition .designed .reserved
  return (db.setServiceState ids.rfsData .reserved).setServiceState ids.rfsVoice .reserved

/-- `decompose_order`, given what the inventory has replied. -/
def decomposeOrder (req : DecomposeRequest) (ids : DecomposeIds) (r : Reserved) (now : Time) (db : SomDb) :
    Except String SomDb := do
  let db ← insertGraph req ids db
  let db := db.setServiceCharacteristics ids.cfs (characteristics req r)
  checkServiceTransition .designed .reserved
  let db := db.setServiceState ids.cfs .reserved
  checkServiceOrderTransition .acknowledged .inProgress
  let db := db.setServiceOrderState ids.so .inProgress (some now) none
  let db := db.stage "service_order.in_progress" "ServiceOrder" ids.so
    [("serviceOrderId", .str ids.so), ("commercialOrderId", .str req.commercialOrderId)]
  return { db with events := db.events ++ taskTypes.map (taskCreated req ids r) }

structure Decomposition where
  req : DecomposeRequest
  ids : DecomposeIds
  reserved : Reserved
  deriving DecidableEq

namespace Decomposition

variable (d : Decomposition)

def so : String := d.ids.so
def cfs : String := d.ids.cfs
def serviceIds : List String := [d.ids.cfs, d.ids.rfsData, d.ids.rfsVoice]

theorem so_ne_empty : d.so ≠ "" := serviceOrderId_ne_empty d.ids.order

end Decomposition

/-! ## What it leaves -/

theorem insertServiceOrder_eq_ok {db db' : SomDb} {id commercialOrderId : String}
    (h : db.insertServiceOrder id commercialOrderId = .ok db') :
    db.orders.insert ⟨id, commercialOrderId, .acknowledged, none, none⟩ = some db'.orders ∧
      db'.services = db.services ∧ db'.events = db.events := by
  unfold SomDb.insertServiceOrder at h
  split at h
  · simp at h
  · rename_i orders ho
    cases h
    exact ⟨ho, rfl, rfl⟩

theorem insertService_eq_ok {db db' : SomDb} {id specId : String} {type : ServiceType} {parent : Option String}
    (h : db.insertService id specId type parent = .ok db') :
    db.services.insert ⟨id, specId, type, parent, .designed, [], none⟩ = .ok db'.services ∧
      db'.orders = db.orders ∧ db'.events = db.events := by
  obtain ⟨services, hs, h⟩ := bind_eq_ok.mp h
  cases h
  exact ⟨hs, rfl, rfl⟩

end BssCli.Som

/-!
# What the task handlers do to a service order

Each handler has locked the CFS that its event names: `cfs` is what it has read. The rows
it reads after that are written under the same lock only.
-/

namespace BssCli.Som

/-- `provisioning.task.completed`, `.failed` or `.stuck`. -/
inductive TaskKind
  | completed
  | failed
  | stuck
  deriving DecidableEq

structure TaskEvent where
  serviceId : String
  taskType : String
  serviceOrderId : String
  commercialOrderId : String
  permanent : Bool
  deriving DecidableEq

/-- A missing `permanent` counts as true. -/
def TaskEvent.ofBody (body : Object) : Except String TaskEvent := do
  return {
    serviceId := ← reqStr body "serviceId"
    taskType := ← reqStr body "taskType"
    serviceOrderId := ← reqStr body "serviceOrderId"
    commercialOrderId := optStr body "commercialOrderId"
    permanent := ((Fields.get body "permanent").bind Value.asBool).getD true }

/-! ## The map of pending tasks -/

def pendingOf (characteristics : Object) : List (String × Scalar) :=
  ((Fields.get characteristics "pendingTasks").bind Value.asObject).getD []

/-- `pendingTasks[task_type] = status`. -/
def markPending (characteristics : Object) (taskType status : String) : Object × List (String × Scalar) :=
  let pending := Fields.insert (pendingOf characteristics) taskType (.str status)
  (Fields.insert characteristics "pendingTasks" (.object pending), pending)

def allCompleted (pending : List (String × Scalar)) : Bool := pending.all fun p => p.2 = .str "completed"

/-! ## A task has completed -/

def activateChildren (now : Time) : List (String × ServiceState) → SomDb → Except String SomDb
  | [], db => .ok db
  | (childId, childState) :: rest, db => do
    checkServiceTransition childState .activated
    activateChildren now rest (db.activateService childId now)

/-- Only a service order that is there is checked and written. -/
def settleServiceOrder (serviceOrderId : String) (state : ServiceOrderState) (now : Time) (db : SomDb) :
    Except String SomDb :=
  match db.serviceOrderState serviceOrderId with
  | none => .ok db
  | some current => do
    checkServiceOrderTransition current state
    return db.setServiceOrderState serviceOrderId state none (some now)

/-- `non_empty(commercial_order_id).unwrap_or_else(…)`. -/
def commercialOrderOf (ev : TaskEvent) (characteristics : Object) : String :=
  if ev.commercialOrderId = "" then optStr characteristics "commercialOrderId" else ev.commercialOrderId

def completedPayload (ev : TaskEvent) (cfsId : String) (chars : Object) : Object :=
  [("serviceOrderId", .str ev.serviceOrderId), ("commercialOrderId", .str (commercialOrderOf ev chars)),
   ("customerId", .str (optStr chars "customerId")), ("offeringId", .str (optStr chars "offeringId")),
   ("msisdn", .str (optStr chars "msisdn")), ("iccid", .str (optStr chars "iccid")),
   ("paymentMethodId", .str (optStr chars "paymentMethodId")), ("cfsServiceId", .str cfsId)] ++
  (((Fields.get chars "priceSnapshot").filter fun v => v ≠ .scalar .null).map fun snap =>
    ("priceSnapshot", snap)).toList

/-- Every task is done: the services and the order follow. -/
def completeOrder (ev : TaskEvent) (cfs : ServiceRow) (chars : Object) (now : Time) (db : SomDb) :
    Except String SomDb := do
  checkServiceTransition cfs.state .activated
  let db := db.setServiceCharacteristics ev.serviceId chars
  let db := db.activateService ev.serviceId now
  let db ← activateChildren now (db.services.childStates ev.serviceId) db
  let db ← settleServiceOrder ev.serviceOrderId .completed now db
  return db.stage "service_order.completed" "ServiceOrder" ev.serviceOrderId
    (completedPayload ev cfs.id chars)

/-- A CFS that is not there, or is activated already, is acknowledged and skipped. -/
def handleTaskCompleted (ev : TaskEvent) (cfs : Option ServiceRow) (now : Time) (db : SomDb) :
    Except String SomDb :=
  match cfs with
  | none => .ok db
  | some cfs =>
    if cfs.state = .activated then .ok db
    else
      let (chars, pending) := markPending cfs.characteristics ev.taskType "completed"
      if allCompleted pending then completeOrder ev cfs chars now db
      else .ok (db.setServiceCharacteristics ev.serviceId chars)

/-! ## A task has failed, or is stuck -/

inductive Resource
  | msisdn (number : String)
  | esim (iccid : String)
  deriving DecidableEq

def releases (cfs : ServiceRow) : List Resource :=
  ((strField cfs.characteristics "msisdn").map .msisdn).toList ++
  ((strField cfs.characteristics "iccid").map .esim).toList

/-- The calls that `handle_task_failed` makes, before its transaction is committed. -/
def failedReleases (ev : TaskEvent) (cfs : Option ServiceRow) : Except String (List Resource) :=
  match cfs with
  | none => .ok []
  | some cfs =>
    if ev.permanent then do
      checkServiceTransition cfs.state .failed
      return releases cfs
    else .ok []

def failureReason (ev : TaskEvent) : String := s!"provisioning task {ev.taskType} failed permanently"

def failedPayload (ev : TaskEvent) (cfs : ServiceRow) : Object :=
  [("serviceOrderId", .str ev.serviceOrderId),
   ("commercialOrderId", .str (commercialOrderOf ev cfs.characteristics)),
   ("reason", .str (failureReason ev))]

/-- The RFS below the CFS are left as they are. -/
def failOrder (ev : TaskEvent) (cfs : ServiceRow) (now : Time) (db : SomDb) : Except String SomDb := do
  let (chars, _) := markPending cfs.characteristics ev.taskType "failed"
  checkServiceTransition cfs.state .failed
  let db := db.setServiceCharacteristics ev.serviceId chars
  let db := db.setServiceState ev.serviceId .failed
  let db ← settleServiceOrder ev.serviceOrderId .failed now db
  return db.stage "service_order.failed" "ServiceOrder" ev.serviceOrderId (failedPayload ev cfs)

/-- A transient failure is only logged. -/
def handleTaskFailed (ev : TaskEvent) (cfs : Option ServiceRow) (now : Time) (db : SomDb) :
    Except String SomDb :=
  match cfs with
  | none => .ok db
  | some cfs => if ev.permanent then failOrder ev cfs now db else .ok db

def handleTaskStuck (ev : TaskEvent) (cfs : Option ServiceRow) (db : SomDb) : Except String SomDb :=
  match cfs with
  | none => .ok db
  | some cfs =>
    let (chars, _) := markPending cfs.characteristics ev.taskType "stuck"
    .ok (db.setServiceCharacteristics ev.serviceId chars)

def handleTask (k : TaskKind) (ev : TaskEvent) (cfs : Option ServiceRow) (now : Time) (db : SomDb) :
    Except String SomDb :=
  match k with
  | .completed => handleTaskCompleted ev cfs now db
  | .failed => handleTaskFailed ev cfs now db
  | .stuck => handleTaskStuck ev cfs db

end BssCli.Som
