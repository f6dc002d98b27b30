import BssCli.Common
import BssCli.Lib.Table

/-!
# Service orders and services: the state machines and the rows

A service is a CFS or one of the RFS below it.
-/

namespace BssCli.Som

def taskTypes : List String := ["HLR_PROVISION", "PCRF_POLICY_PUSH", "OCS_BALANCE_INIT", "ESIM_PROFILE_PREPARE"]

inductive ServiceOrderState
  | acknowledged
  | inProgress
  | completed
  | failed
  deriving DecidableEq, Repr

inductive ServiceState
  | designed
  | reserved
  | activated
  | terminated
  | failed
  deriving DecidableEq, Repr

def ServiceOrderState.name : ServiceOrderState → String
  | acknowledged => "acknowledged"
  | inProgress => "in_progress"
  | completed => "completed"
  | failed => "failed"

def ServiceState.name : ServiceState → String
  | designed => "designed"
  | reserved => "reserved"
  | activated => "activated"
  | terminated => "terminated"
  | failed => "failed"

def soAllowed : ServiceOrderState → List ServiceOrderState
  | .acknowledged => [.inProgress]
  | .inProgress => [.completed, .failed]
  | _ => []

def svcAllowed : ServiceState → List ServiceState
  | .designed => [.failed, .reserved]
  | .reserved => [.activated, .failed]
  | .activated => [.terminated]
  | _ => []

/-- `['a', 'b']`, or `none` for no state at all. The lists above are sorted. -/
def allowedDisplay (allowed : List String) : String :=
  if allowed.isEmpty then "none"
  else "[" ++ ", ".intercalate (allowed.map fun s => "'" ++ s ++ "'") ++ "]"

def transitionViolation (rule entity current target : String) (allowed : List String) : PolicyViolation where
  rule := rule
  message := s!"{entity} cannot transition from '{current}' to '{target}'. " ++
    s!"Allowed: {allowedDisplay allowed}."
  context := [("current_state", .str current), ("target_state", .str target),
    ("allowed", .array (allowed.map .str))]

/-- `.map_err(policy)?`: the handlers fail with a text. -/
def policy (pv : PolicyViolation) : String := s!"policy {pv.rule}: {pv.message}"

/-- `.map_err(db)?` of an insert whose primary key is taken. -/
def duplicateKey : String := "db error: duplicate key value violates unique constraint"

def checkServiceOrderTransition (current target : ServiceOrderState) : Except String Unit :=
  if target ∈ soAllowed current then .ok ()
  else .error (policy (transitionViolation "service_order.transition.invalid" "ServiceOrder" current.name
    target.name ((soAllowed current).map ServiceOrderState.name)))

def checkServiceTransition (current target : ServiceState) : Except String Unit :=
  if target ∈ svcAllowed current then .ok ()
  else .error (policy (transitionViolation "service.transition.invalid" "Service" current.name target.name
    ((svcAllowed current).map ServiceState.name)))

theorem checkServiceOrderTransition_eq_ok {current target : ServiceOrderState} :
    checkServiceOrderTransition current target = .ok () ↔ target ∈ soAllowed current := by
  unfold checkServiceOrderTransition
  split <;> simp_all

theorem checkServiceTransition_eq_ok {current target : ServiceState} :
    checkServiceTransition current target = .ok () ↔ target ∈ svcAllowed current := by
  unfold checkServiceTransition
  split <;> simp_all

/-! ## Rows -/

structure ServiceOrderRow where
  id : String
  commercialOrderId : String
  state : ServiceOrderState
  startedAt : Option Time
  completedAt : Option Time

inductive ServiceType
  | cfs
  | rfs
  deriving DecidableEq

structure ServiceRow where
  id : String
  specId : String
  type : ServiceType
  parentServiceId : Option String
  state : ServiceState
  characteristics : Object
  activatedAt : Option Time

end BssCli.Som

/-!
# The tables of the service inventory

A service names its parent by a foreign key, so no service is below one that is not there.
-/

namespace BssCli.Som

abbrev ServiceOrders := Table ServiceOrderRow.id (fun id : String => id)

/-- `service_inventory.service`. -/
structure Services where
  table : Table ServiceRow.id (fun id : String => id)
  parents : ∀ r ∈ table.rows, ∀ p ∈ r.parentServiceId, p ∈ table.rows.map ServiceRow.id

namespace Services

def empty : Services := ⟨Table.empty, by simp [Table.empty]⟩

def find (s : Services) (id : String) : Option ServiceRow := s.table.find id

/-- `(id, state)` of each service below `parentId`. -/
def childStates (s : Services) (parentId : String) : List (String × ServiceState) :=
  (s.table.rows.filter fun r => r.parentServiceId = some parentId).map fun r => (r.id, r.state)

/-- `UPDATE … WHERE id = $1`. No update of the code moves a service. -/
def update (s : Services) (id : String) (f : ServiceRow → ServiceRow) (hid : ∀ r, (f r).id = r.id)
    (hparent : ∀ r, (f r).parentServiceId = r.parentServiceId) : Services where
  table := s.table.update id f hid
  parents := by
    intro r hr p hp
    obtain ⟨q, hq, rfl⟩ := List.mem_map.mp hr
    have hkept : (if q.id = id then f q else q).parentServiceId = q.parentServiceId := by
      split <;> simp [hparent]
    rw [hkept] at hp
    rw [Table.update, Table.map, List.map_map]
    obtain ⟨q', hq', rfl⟩ := List.mem_map.mp (s.parents q hq p hp)
    refine List.mem_map.mpr ⟨q', hq', ?_⟩
    dsimp only [Function.comp_apply]
    split <;> simp [hid]

/-- `INSERT` under the primary key and the foreign key. -/
def insert (s : Services) (r : ServiceRow) : Except String Services :=
  if hp : ∀ p ∈ r.parentServiceId, p ∈ s.table.rows.map ServiceRow.id then
    match ht : s.table.insert r with
    | none => .error duplicateKey
    | some table => .ok ⟨table, by
        rw [(Table.rows_insert ht).1]
        intro q hq p hparent
        rw [List.map_append]
        refine List.mem_append_left _ ?_
        rcases List.mem_append.mp hq with hq | hq
        · exact s.parents q hq p hparent
        · exact hp p (List.mem_singleton.mp hq ▸ hparent)⟩
  else .error "db error: insert violates foreign key constraint"

/-! ## What the reads see after a write -/

theorem find_update (s : Services) (id k : String) (f : ServiceRow → ServiceRow) (hid) (hparent) :
    (s.update id f hid hparent).find k = if k = id then (s.find k).map f else s.find k :=
  s.table.find_update id k f hid

theorem childStates_update (s : Services) (id p : String) {f : ServiceRow → ServiceRow} (hid) (hparent)
    {g : ServiceState → ServiceState} (hg : ∀ r, (f r).state = g r.state) :
    (s.update id f hid hparent).childStates p =
      (s.childStates p).map fun c => if c.1 = id then (c.1, g c.2) else c := by
  simp only [childStates, update, Table.update, Table.map, List.filter_map, List.map_map]
  congr 1
  · funext r
    by_cases h : r.id = id <;> simp [h, hid, hg]
  · congr 1
    funext r
    by_cases h : r.id = id <;> simp [h, hparent]

theorem insert_eq_ok {s s' : Services} {r : ServiceRow} (h : s.insert r = .ok s') :
    s.table.insert r = some s'.table := by
  unfold insert at h
  split at h
  · split at h
    · simp at h
    · rename_i table ht
      cases h
      exact ht
  · simp at h

theorem find_insert {s s' : Services} {r : ServiceRow} (h : s.insert r = .ok s') (k : String) :
    s'.find k = if r.id = k then some r else s.find k :=
  Table.find_insert (insert_eq_ok h) k

theorem find_new {s s' : Services} {r : ServiceRow} (h : s.insert r = .ok s') : s.find r.id = none :=
  (Table.rows_insert (insert_eq_ok h)).2

theorem childStates_insert {s s' : Services} {r : ServiceRow} (h : s.insert r = .ok s') (p : String) :
    s'.childStates p =
      s.childStates p ++ if r.parentServiceId = some p then [(r.id, r.state)] else [] := by
  rw [childStates, (Table.rows_insert (insert_eq_ok h)).1, List.filter_append, List.map_append]
  congr 1
  by_cases hp : r.parentServiceId = some p <;> simp [hp]

theorem childStates_of_find_none {s : Services} {p : String} (h : s.find p = none) :
    s.childStates p = [] := by
  rw [childStates, List.map_eq_nil_iff, List.filter_eq_nil_iff]
  intro r hr hp
  exact s.table.find_eq_none.mp h (s.parents r hr p (by simpa using hp))

end Services

namespace ServiceRow

def setState (state : ServiceState) (r : ServiceRow) : ServiceRow := { r with state }

def setCharacteristics (characteristics : Object) (r : ServiceRow) : ServiceRow := { r with characteristics }

def activate (now : Time) (r : ServiceRow) : ServiceRow :=
  { r with state := .activated, activatedAt := some now }

end ServiceRow

/-- The times are kept where none is given. -/
def ServiceOrderRow.setState (state : ServiceOrderState) (startedAt completedAt : Option Time)
    (r : ServiceOrderRow) : ServiceOrderRow :=
  { r with state, startedAt := startedAt.or r.startedAt, completedAt := completedAt.or r.completedAt }

structure SomDb where
  orders : ServiceOrders
  services : Services
  events : List Event

namespace SomDb

def empty : SomDb := ⟨Table.empty, Services.empty, []⟩

variable (db : SomDb)

def insertServiceOrder (id commercialOrderId : String) : Except String SomDb :=
  match db.orders.insert ⟨id, commercialOrderId, .acknowledged, none, none⟩ with
  | none => .error duplicateKey
  | some orders => .ok { db with orders }

def insertService (id specId : String) (type : ServiceType) (parentServiceId : Option String) :
    Except String SomDb := do
  let services ← db.services.insert ⟨id, specId, type, parentServiceId, .designed, [], none⟩
  return { db with services }

def setServiceState (id : String) (state : ServiceState) : SomDb :=
  { db with services := db.services.update id (ServiceRow.setState state) (fun _ => rfl) fun _ => rfl }

def setServiceCharacteristics (id : String) (characteristics : Object) : SomDb :=
  { db with
    services := db.services.update id (ServiceRow.setCharacteristics characteristics) (fun _ => rfl)
      fun _ => rfl }

def activateService (id : String) (now : Time) : SomDb :=
  { db with services := db.services.update id (ServiceRow.activate now) (fun _ => rfl) fun _ => rfl }

def serviceOrderState (id : String) : Option ServiceOrderState := (db.orders.find id).map (·.state)

def setServiceOrderState (id : String) (state : ServiceOrderState) (startedAt completedAt : Option Time) :
    SomDb :=
  { db with orders := db.orders.update id (ServiceOrderRow.setState state startedAt completedAt) fun _ => rfl }

def stage (eventType aggregateType aggregateId : String) (payload : Object) : SomDb :=
  { db with events := db.events ++ [⟨eventType, aggregateType, aggregateId, payload⟩] }

/-! ## What each write leaves -/

section Writes

variable (id k p : String) (state : ServiceState) (c : Object) (now : Time)

@[simp]
theorem find_setServiceState : (db.setServiceState id state).services.find k =
    if k = id then (db.services.find k).map (ServiceRow.setState state) else db.services.find k :=
  db.services.find_update id k (ServiceRow.setState state) (fun _ => rfl) fun _ => rfl

@[simp]
theorem find_setServiceCharacteristics : (db.setServiceCharacteristics id c).services.find k =
    if k = id then (db.services.find k).map (ServiceRow.setCharacteristics c) else db.services.find k :=
  db.services.find_update id k (ServiceRow.setCharacteristics c) (fun _ => rfl) fun _ => rfl

@[simp]
theorem find_activateService : (db.activateService id now).services.find k =
    if k = id then (db.services.find k).map (ServiceRow.activate now) else db.services.find k :=
  db.services.find_update id k (ServiceRow.activate now) (fun _ => rfl) fun _ => rfl

@[simp]
theorem childStates_setServiceState : (db.setServiceState id state).services.childStates p =
    (db.services.childStates p).map fun c => if c.1 = id then (c.1, state) else c :=
  db.services.childStates_update id p (f := ServiceRow.setState state) (fun _ => rfl) (fun _ => rfl)
    (g := fun _ => state) fun _ => rfl

@[simp]
theorem childStates_setServiceCharacteristics :
    (db.setServiceCharacteristics id c).services.childStates p = db.services.childStates p := by
  refine (db.services.childStates_update id p (f := ServiceRow.setCharacteristics c) (fun _ => rfl)
    (fun _ => rfl) (g := fun s => s) fun _ => rfl).trans ?_
  simp

@[simp]
theorem childStates_activateService : (db.activateService id now).services.childStates p =
    (db.services.childStates p).map fun c => if c.1 = id then (c.1, .activated) else c :=
  db.services.childStates_update id p (f := ServiceRow.activate now) (fun _ => rfl) (fun _ => rfl)
    (g := fun _ => .activated) fun _ => rfl

@[simp]
theorem orders_setServiceState : (db.setServiceState id state).orders = db.orders := rfl

@[simp]
theorem orders_setServiceCharacteristics : (db.setServiceCharacteristics id c).orders = db.orders := rfl

@[simp]
theorem orders_activateService : (db.activateService id now).orders = db.orders := rfl

@[simp]
theorem events_setServiceState : (db.setServiceState id state).events = db.events := rfl

@[simp]
theorem events_setServiceCharacteristics : (db.setServiceCharacteristics id c).events = db.events := rfl

@[simp]
theorem events_activateService : (db.activateService id now).events = db.events := rfl

end Writes

section OrderWrites

variable (id k : String) (state : ServiceOrderState) (startedAt completedAt : Option Time)

@[simp]
theorem find_setServiceOrderState : (db.setServiceOrderState id state startedAt completedAt).orders.find k =
    if k = id then (db.orders.find k).map (ServiceOrderRow.setState state startedAt completedAt)
    else db.orders.find k :=
  db.orders.find_update id k (ServiceOrderRow.setState state startedAt completedAt) fun _ => rfl

@[simp]
theorem services_setServiceOrderState :
    (db.setServiceOrderState id state startedAt completedAt).services = db.services := rfl

@[simp]
theorem events_setServiceOrderState :
    (db.setServiceOrderState id state startedAt completedAt).events = db.events := rfl

end OrderWrites

section Stage

variable (eventType aggregateType aggregateId : String) (payload : Object)

@[simp]
theorem services_stage : (db.stage eventType aggregateType aggregateId payload).services = db.services := rfl

@[simp]
theorem orders_stage : (db.stage eventType aggregateType aggregateId payload).orders = db.orders := rfl

@[simp]
theorem events_stage : (db.stage eventType aggregateType aggregateId payload).events =
    db.events ++ [⟨eventType, aggregateType, aggregateId, payload⟩] := rfl

end Stage

end SomDb

end BssCli.Som
