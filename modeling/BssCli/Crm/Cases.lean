import BssCli.Common
import BssCli.Lib.Table
import BssCli.Lib.Walk
import Mathlib.Data.List.Sort

/-!
# Cases and tickets

Two state machines and the five operations that move them. A ticket may belong to a case,
and a case that is cancelled cancels its tickets. What the tables of customers and agents
say is given with the call.
-/

namespace BssCli.Crm.Cases

open Fsm

/-! ## The state machines -/

inductive CaseState
  | opened
  | inProgress
  | pendingCustomer
  | resolved
  | closed
  deriving DecidableEq, Repr

def CaseState.name : CaseState → String
  | opened => "open"
  | inProgress => "in_progress"
  | pendingCustomer => "pending_customer"
  | resolved => "resolved"
  | closed => "closed"

def caseTransitions : List (Rule String CaseState) :=
  [⟨"take", .opened, .inProgress⟩,
   ⟨"await_customer", .inProgress, .pendingCustomer⟩,
   ⟨"resume", .pendingCustomer, .inProgress⟩,
   ⟨"resolve", .inProgress, .resolved⟩,
   ⟨"resolve", .opened, .resolved⟩,
   ⟨"close", .resolved, .closed⟩,
   ⟨"cancel", .opened, .closed⟩,
   ⟨"cancel", .inProgress, .closed⟩,
   ⟨"cancel", .pendingCustomer, .closed⟩]

inductive TicketState
  | opened
  | acknowledged
  | inProgress
  | pending
  | resolved
  | closed
  | cancelled
  deriving DecidableEq, Repr

def TicketState.name : TicketState → String
  | opened => "open"
  | acknowledged => "acknowledged"
  | inProgress => "in_progress"
  | pending => "pending"
  | resolved => "resolved"
  | closed => "closed"
  | cancelled => "cancelled"

def ticketTransitions : List (Rule String TicketState) :=
  [⟨"ack", .opened, .acknowledged⟩,
   ⟨"start", .acknowledged, .inProgress⟩,
   ⟨"wait", .inProgress, .pending⟩,
   ⟨"resume", .pending, .inProgress⟩,
   ⟨"resolve", .inProgress, .resolved⟩,
   ⟨"close", .resolved, .closed⟩,
   ⟨"reopen", .resolved, .inProgress⟩,
   ⟨"cancel", .opened, .cancelled⟩,
   ⟨"cancel", .acknowledged, .cancelled⟩,
   ⟨"cancel", .inProgress, .cancelled⟩,
   ⟨"cancel", .pending, .cancelled⟩]

def cancellable : List TicketState := [.opened, .acknowledged, .inProgress, .pending]

def terminal : List TicketState := [.closed, .cancelled]

/-- The terminal states are those that no row of the table leads out of. -/
theorem mem_terminal_iff (s : TicketState) : s ∈ terminal ↔ Final ticketTransitions s := by
  cases s <;> decide

/-! ## Rows -/

structure CaseRow where
  id : String
  customerId : String
  subject : String
  description : Option String
  state : CaseState
  priority : Option String
  category : Option String
  resolutionCode : Option String
  openedByAgentId : Option String
  openedAt : Time
  closedAt : Option Time
  chatTranscriptHash : Option String
  deriving DecidableEq

structure TicketRow where
  id : String
  caseId : Option String
  customerId : String
  ticketType : Option String
  subject : String
  description : Option String
  state : TicketState
  priority : Option String
  assignedToAgentId : Option String
  resolutionNotes : Option String
  openedAt : Time
  resolvedAt : Option Time
  closedAt : Option Time
  deriving DecidableEq

structure TicketHistoryRow where
  ticketId : String
  fromState : Option TicketState
  toState : TicketState
  changedByAgentId : Option String
  reason : String
  deriving DecidableEq

structure InteractionRow where
  customerId : String
  summary : String
  relatedCaseId : Option String
  relatedTicketId : Option String
  deriving DecidableEq

abbrev CaseTable := Table CaseRow.id (fun id : String => id)

abbrev TicketTable := Table TicketRow.id (fun id : String => id)

structure CaseDb where
  cases : CaseTable
  tickets : TicketTable
  history : List TicketHistoryRow
  interactions : List InteractionRow
  events : List Event

/-- The status of each customer and of each agent. -/
structure Directory where
  customers : String → Option String
  agents : String → Option String

def TicketRow.OpenOn (caseId : String) (t : TicketRow) : Prop := t.caseId = some caseId ∧ t.state ∉ terminal

instance (caseId : String) : DecidablePred (TicketRow.OpenOn caseId) := fun _ => inferInstanceAs (Decidable (_ ∧ _))

def TicketRow.cancel (now : Time) (t : TicketRow) : TicketRow :=
  { t with state := .cancelled, closedAt := some now }

def CaseRow.write (state : CaseState) (resolutionCode : Option String) (closedAt : Option Time) (c : CaseRow) :
    CaseRow :=
  { c with state, resolutionCode, closedAt := closedAt.or c.closedAt }

theorem CaseRow.write_id (state : CaseState) (resolutionCode : Option String) (closedAt : Option Time) (c : CaseRow) :
    (c.write state resolutionCode closedAt).id = c.id := rfl

namespace CaseDb

def empty : CaseDb := ⟨.empty, .empty, [], [], []⟩

variable (db : CaseDb)

def stage (eventType aggregateType id : String) (payload : Object) : CaseDb :=
  { db with events := db.events ++ [⟨eventType, aggregateType, id, payload⟩] }

def logInteraction (customerId summary : String) (relatedCaseId relatedTicketId : Option String) : CaseDb :=
  { db with interactions := db.interactions ++ [⟨customerId, summary, relatedCaseId, relatedTicketId⟩] }

def ticketHistory (ticketId : String) (fromState : Option TicketState) (toState : TicketState)
    (changedBy : Option String) (reason : String) : CaseDb :=
  { db with history := db.history ++ [⟨ticketId, fromState, toState, changedBy, reason⟩] }

def findOpenByCase (caseId : String) : List TicketRow :=
  (db.tickets.rows.filter fun t => t.OpenOn caseId).insertionSort fun a b => a.id ≤ b.id

def updateCase (id : String) (state : CaseState) (resolutionCode : Option String) (closedAt : Option Time) : CaseDb :=
  { db with cases :=
      db.cases.update id (·.write state resolutionCode closedAt) (CaseRow.write_id state resolutionCode closedAt) }

def updateTicket (id : String) (f : TicketRow → TicketRow) (hf : ∀ t, (f t).id = t.id) : CaseDb :=
  { db with tickets := db.tickets.update id f hf }

theorem cancel_keeps (now : Time) (t : TicketRow) : (t.cancel now).id = t.id := rfl

def cancelTicket (now : Time) (t : TicketRow) : CaseDb := db.updateTicket t.id (·.cancel now) (cancel_keeps now)

def insertCase (c : CaseRow) : Except ApiError CaseDb :=
  match db.cases.insert c with
  | some cases => .ok { db with cases }
  | none => .error (dbError "duplicate key value violates unique constraint \"pk_case\"")

def insertTicket (t : TicketRow) : Except ApiError CaseDb :=
  match db.tickets.insert t with
  | some tickets => .ok { db with tickets }
  | none => .error (dbError "duplicate key value violates unique constraint \"pk_ticket\"")

end CaseDb

/-! ## Policies -/

def checkCaseTransition (state : CaseState) (trigger : String) : Except ApiError Unit :=
  if isValidTransition caseTransitions state trigger then .ok ()
  else .error (.policy
    { rule := "case.transition.valid_from_state"
      message := s!"Cannot '{trigger}' case from state '{state.name}'"
      context := [("current_state", .str state.name), ("trigger", .str trigger)] })

def checkResolutionCode (code : Option String) : Except ApiError Unit :=
  if code.getD "" = "" then .error (.policy
    { rule := "case.close.requires_resolution_code"
      message := "Resolution code is required to close a case"
      context := [] })
  else .ok ()

def checkTicketTransition (state : TicketState) (trigger : String) : Except ApiError Unit :=
  if isValidTransition ticketTransitions state trigger then .ok ()
  else .error (.policy
    { rule := "ticket.transition.valid_from_state"
      message := s!"Cannot '{trigger}' ticket from state '{state.name}'"
      context := [("current_state", .str state.name), ("trigger", .str trigger)] })

def checkTicketCancelAllowed (state : TicketState) : Except ApiError Unit :=
  if state ∈ cancellable then .ok ()
  else .error (.policy
    { rule := "ticket.cancel.not_if_resolved_or_closed"
      message := s!"Cannot cancel ticket in state '{state.name}'"
      context := [("current_state", .str state.name)] })

def checkResolutionNotes (notes : Option String) : Except ApiError Unit :=
  if notes.getD "" = "" then .error (.policy
    { rule := "ticket.resolve.requires_resolution_notes"
      message := "Resolution notes are required to resolve a ticket"
      context := [] })
  else .ok ()

def agentMustBeActive (message : String) (context : Object) : ApiError :=
  .policy { rule := "ticket.assign.agent_must_be_active", message, context }

def checkAgentActive (dir : Directory) (agentId : String) : Except ApiError Unit :=
  match dir.agents agentId with
  | none => .error (agentMustBeActive s!"Agent {agentId} does not exist" [("agent_id", .str agentId)])
  | some status =>
    if status = "active" then .ok ()
    else .error (agentMustBeActive s!"Agent {agentId} is not active (status={status})"
      [("agent_id", .str agentId), ("status", .str status)])

def customerMustBeActive (message : String) (context : Object) : ApiError :=
  .policy { rule := "case.open.customer_must_be_active", message, context }

def checkCustomerActive (dir : Directory) (customerId : String) : Except ApiError Unit :=
  match dir.customers customerId with
  | none => .error (customerMustBeActive s!"Customer {customerId} does not exist" [("customer_id", .str customerId)])
  | some status =>
    if status = "active" then .ok ()
    else .error (customerMustBeActive s!"Customer {customerId} is not active (status={status})"
      [("customer_id", .str customerId), ("status", .str status)])

/-- Every ticket has to be closed or cancelled. One that is only resolved is in the way. -/
def checkNoOpenTickets (caseId : String) (openTickets : List TicketRow) : Except ApiError Unit :=
  if openTickets = [] then .ok ()
  else
    let ids := openTickets.map TicketRow.id
    let listed := ", ".intercalate ids
    .error (.policy
      { rule := "case.close.requires_all_tickets_resolved"
        message := s!"Case {caseId} has {ids.length} open tickets: {listed}"
        context := [("case_id", .str caseId), ("open_tickets", .array (ids.map .str))] })

/-! ## Cases -/

structure OpenCase where
  customerId : String
  subject : String
  description : Option String
  priority : String
  category : String
  openedByAgentId : Option String
  chatTranscriptHash : Option String

def newCase (req : OpenCase) (id : String) (now : Time) : CaseRow where
  id
  customerId := req.customerId
  subject := req.subject
  description := req.description
  state := .opened
  priority := some req.priority
  category := some req.category
  resolutionCode := none
  openedByAgentId := req.openedByAgentId
  openedAt := now
  closedAt := none
  chatTranscriptHash := req.chatTranscriptHash

def openCase (dir : Directory) (req : OpenCase) (id : String) (now : Time) (db : CaseDb) : Except ApiError CaseDb := do
  checkCustomerActive dir req.customerId
  let db ← db.insertCase (newCase req id now)
  return (db.stage "case.opened" "case" id
    [("customer_id", .str req.customerId), ("subject", .str req.subject)]).logInteraction
      req.customerId s!"Case opened: {req.subject}" (some id) none

def getCase (caseId : String) (db : CaseDb) : Except ApiError CaseRow :=
  match db.cases.find caseId with
  | some c => .ok c
  | none => .error (.policy
    { rule := "case.not_found"
      message := s!"Case {caseId} not found"
      context := [("case_id", .str caseId)] })

/-- The guard of a trigger, and the resolution code that it leaves. -/
def caseGuard (c : CaseRow) (trigger : String) (resolutionCode : Option String) (db : CaseDb) :
    Except ApiError (Option String) :=
  if trigger = "resolve" then do
    checkNoOpenTickets c.id (db.findOpenByCase c.id)
    return c.resolutionCode
  else if trigger = "close" then do
    let code := resolutionCode.or c.resolutionCode
    checkResolutionCode code
    return code
  else return c.resolutionCode

def transitioned (c : CaseRow) (trigger : String) (newState : CaseState) (db : CaseDb) : CaseDb :=
  (db.stage s!"case.{trigger}" "case" c.id
    [("from_state", .str c.state.name), ("to_state", .str newState.name), ("trigger", .str trigger)]).logInteraction
      c.customerId s!"Case {trigger}: {c.state.name} → {newState.name}" (some c.id) none

/-- A case that is cancelled takes its open tickets with it. -/
def cancelOpenTickets (caseId : String) (now : Time) (db : CaseDb) : CaseDb :=
  (db.findOpenByCase caseId).foldl (CaseDb.cancelTicket · now) db

def transitionCase (caseId trigger : String) (resolutionCode : Option String) (now : Time) (db : CaseDb) :
    Except ApiError CaseDb := do
  let c ← getCase caseId db
  checkCaseTransition c.state trigger
  let resolution ← caseGuard c trigger resolutionCode db
  match getNextState caseTransitions c.state trigger with
  | none => .error (.internal "case transition produced no state")
  | some newState =>
    let db := db.updateCase caseId newState resolution (if newState = .closed then some now else none)
    let db := if newState = .closed ∧ trigger = "cancel" then cancelOpenTickets caseId now db else db
    return transitioned c trigger newState db

/-- A transaction that the database fails in is undone. -/
def runTx (txOk : Bool) (db : CaseDb) : Except ApiError CaseDb → CaseDb × Except ApiError Unit
  | .ok db' => if txOk then (db', .ok ()) else (db, .error (dbError "transaction failed"))
  | .error e => (db, .error e)

/-- Two transactions: a case that can be resolved is resolved first. -/
def closeCase (caseId resolutionCode : String) (resolveOk closeOk : Bool) (resolvedAt closedAt : Time) (db : CaseDb) :
    CaseDb × Except ApiError Unit :=
  match getCase caseId db with
  | .error e => (db, .error e)
  | .ok c =>
    if isValidTransition caseTransitions c.state "resolve" then
      match runTx resolveOk db (transitionCase caseId "resolve" none resolvedAt db) with
      | (db, .error e) => (db, .error e)
      | (db, .ok ()) => runTx closeOk db (transitionCase caseId "close" (some resolutionCode) closedAt db)
    else runTx closeOk db (transitionCase caseId "close" (some resolutionCode) closedAt db)

/-! ## Tickets -/

structure OpenTicket where
  customerId : String
  subject : String
  description : Option String
  ticketType : String
  priority : String
  caseId : Option String
  assignedToAgentId : Option String

def newTicket (req : OpenTicket) (id : String) (now : Time) : TicketRow where
  id
  caseId := req.caseId
  customerId := req.customerId
  ticketType := some req.ticketType
  subject := req.subject
  description := req.description
  state := .opened
  priority := some req.priority
  assignedToAgentId := req.assignedToAgentId
  resolutionNotes := none
  openedAt := now
  resolvedAt := none
  closedAt := none

/-- The case has to be there. Its state is not looked at. -/
def checkOpenTicket (dir : Directory) (req : OpenTicket) (db : CaseDb) : Except ApiError Unit := do
  if (dir.customers req.customerId).isNone then .error (.policy
    { rule := "ticket.open.requires_customer"
      message := s!"Customer {req.customerId} does not exist"
      context := [("customer_id", .str req.customerId)] })
  else
    match req.assignedToAgentId with
    | none => pure ()
    | some agentId => checkAgentActive dir agentId
    match req.caseId with
    | none => pure ()
    | some caseId =>
      if (db.cases.find caseId).isNone then .error (.policy
        { rule := "ticket.open.case_not_found"
          message := s!"Case {caseId} not found"
          context := [("case_id", .str caseId)] })
      else pure ()

def openTicket (dir : Directory) (req : OpenTicket) (id : String) (now : Time) (db : CaseDb) :
    Except ApiError CaseDb := do
  checkOpenTicket dir req db
  let db ← db.insertTicket (newTicket req id now)
  return ((db.ticketHistory id none .opened none "Ticket created").stage "ticket.opened" "ticket" id
    [("customer_id", .str req.customerId), ("case_id", optValue .str req.caseId),
     ("subject", .str req.subject)]).logInteraction
      req.customerId s!"Ticket opened: {req.subject}" req.caseId (some id)

def getTicket (ticketId : String) (db : CaseDb) : Except ApiError TicketRow :=
  match db.tickets.find ticketId with
  | some t => .ok t
  | none => .error (.policy
    { rule := "ticket.not_found"
      message := s!"Ticket {ticketId} not found"
      context := [("ticket_id", .str ticketId)] })

structure TransitionTicket where
  ticketId : String
  trigger : String
  assignedToAgentId : Option String
  resolutionNotes : Option String
  reason : Option String

def checkTicketTrigger (state : TicketState) (trigger : String) : Except ApiError Unit :=
  if trigger = "cancel" then checkTicketCancelAllowed state else checkTicketTransition state trigger

/-- A ticket that is acknowledged has an agent. -/
def newAssignee (dir : Directory) (req : TransitionTicket) (t : TicketRow) : Except ApiError (Option String) :=
  if req.trigger = "ack" ∧ t.assignedToAgentId.isNone then
    match req.assignedToAgentId.filter (· ≠ "") with
    | none => .error (.policy
      { rule := "ticket.ack.requires_agent"
        message := "Acknowledging requires an assigned agent"
        context := [("ticket_id", .str req.ticketId)] })
    | some agentId => do
      checkAgentActive dir agentId
      return some agentId
  else return t.assignedToAgentId

def newResolution (req : TransitionTicket) (t : TicketRow) (now : Time) :
    Except ApiError (Option String × Option Time) :=
  if req.trigger = "resolve" then do
    checkResolutionNotes req.resolutionNotes
    return (req.resolutionNotes, some now)
  else return (t.resolutionNotes, t.resolvedAt)

def TicketRow.write (state : TicketState) (assignee notes : Option String) (resolvedAt closedAt : Option Time)
    (t : TicketRow) : TicketRow :=
  { t with state, assignedToAgentId := assignee, resolutionNotes := notes, resolvedAt, closedAt }

theorem write_keeps (state : TicketState) (assignee notes : Option String) (resolvedAt closedAt : Option Time)
    (t : TicketRow) : (t.write state assignee notes resolvedAt closedAt).id = t.id := rfl

def transitionTicket (dir : Directory) (req : TransitionTicket) (now : Time) (db : CaseDb) :
    Except ApiError CaseDb := do
  let t ← getTicket req.ticketId db
  checkTicketTrigger t.state req.trigger
  let assignee ← newAssignee dir req t
  let (notes, resolvedAt) ← newResolution req t now
  match getNextState ticketTransitions t.state req.trigger with
  | none => .error (.internal "ticket transition produced no state")
  | some newState =>
    let closedAt := if newState = .closed ∨ newState = .cancelled then some now else t.closedAt
    let db := db.updateTicket req.ticketId (·.write newState assignee notes resolvedAt closedAt)
      (write_keeps newState assignee notes resolvedAt closedAt)
    let db := db.ticketHistory req.ticketId (some t.state) newState assignee
      (req.reason.getD s!"Trigger: {req.trigger}")
    return (db.stage s!"ticket.{req.trigger}" "ticket" req.ticketId
      [("from_state", .str t.state.name), ("to_state", .str newState.name),
       ("trigger", .str req.trigger)]).logInteraction
        t.customerId s!"Ticket {req.trigger}: {t.state.name} → {newState.name}" t.caseId (some req.ticketId)

/-- The ticket as it is read after the commit. -/
def ticketReply (ticketId : String) (txOk : Bool) (r : Except ApiError CaseDb) : Except ApiError TicketRow := do
  let db ← r
  if txOk then
    match db.tickets.find ticketId with
    | some t => .ok t
    | none => .error (.internal "ticket vanished")
  else .error (dbError "transaction failed")

/-! ## What each operation writes -/

section Writes

variable {dir : Directory} {db db' : CaseDb} {now : Time}

@[simp] theorem stage_cases (e a i : String) (p : Object) : (db.stage e a i p).cases = db.cases := rfl

@[simp] theorem stage_tickets (e a i : String) (p : Object) : (db.stage e a i p).tickets = db.tickets := rfl

@[simp] theorem stage_history (e a i : String) (p : Object) : (db.stage e a i p).history = db.history := rfl

@[simp]
theorem logInteraction_cases (c m : String) (k t : Option String) : (db.logInteraction c m k t).cases = db.cases := rfl

@[simp]
theorem logInteraction_tickets (c m : String) (k t : Option String) :
    (db.logInteraction c m k t).tickets = db.tickets := rfl

@[simp]
theorem logInteraction_history (c m : String) (k t : Option String) :
    (db.logInteraction c m k t).history = db.history := rfl

theorem openCase_eq_ok {req : OpenCase} {id : String} (h : openCase dir req id now db = .ok db') :
    db.cases.insert (newCase req id now) = some db'.cases ∧ db'.tickets = db.tickets ∧ db'.history = db.history := by
  simp only [openCase, bind_eq_ok] at h
  obtain ⟨⟨⟩, -, db₁, hins, h⟩ := h
  cases h
  unfold CaseDb.insertCase at hins
  split at hins
  · rename_i cases hcases
    cases hins
    exact ⟨hcases, rfl, rfl⟩
  · cases hins

theorem openTicket_eq_ok {req : OpenTicket} {id : String} (h : openTicket dir req id now db = .ok db') :
    checkOpenTicket dir req db = .ok () ∧ db.tickets.insert (newTicket req id now) = some db'.tickets ∧
      db'.cases = db.cases ∧ db'.history = db.history ++ [⟨id, none, .opened, none, "Ticket created"⟩] := by
  simp only [openTicket, bind_eq_ok] at h
  obtain ⟨⟨⟩, hcheck, db₁, hins, h⟩ := h
  cases h
  unfold CaseDb.insertTicket at hins
  split at hins
  · rename_i tickets htickets
    cases hins
    exact ⟨hcheck, htickets, rfl, rfl⟩
  · cases hins

theorem getCase_eq_ok {caseId : String} {c : CaseRow} : getCase caseId db = .ok c ↔ db.cases.find caseId = some c := by
  unfold getCase
  split <;> simp_all

theorem getTicket_eq_ok {ticketId : String} {t : TicketRow} :
    getTicket ticketId db = .ok t ↔ db.tickets.find ticketId = some t := by
  unfold getTicket
  split <;> simp_all

theorem find_updateCase (caseId k : String) (s : CaseState) (resolution : Option String) (closedAt : Option Time) :
    (db.updateCase caseId s resolution closedAt).cases.find k =
      if k = caseId then (db.cases.find k).map (·.write s resolution closedAt) else db.cases.find k :=
  db.cases.find_update caseId k _ (CaseRow.write_id s resolution closedAt)

theorem caseGuard_resolve {c : CaseRow} {code resolution : Option String}
    (h : caseGuard c "resolve" code db = .ok resolution) : db.findOpenByCase c.id = [] := by
  rw [caseGuard, if_pos rfl, bind_eq_ok] at h
  obtain ⟨⟨⟩, hcheck, -⟩ := h
  unfold checkNoOpenTickets at hcheck
  split at hcheck
  · assumption
  · cases hcheck

theorem mem_findOpenByCase {caseId : String} {t : TicketRow} :
    t ∈ db.findOpenByCase caseId ↔ t ∈ db.tickets.rows ∧ t.OpenOn caseId := by
  simp [CaseDb.findOpenByCase]

theorem findOpenByCase_eq_nil {caseId : String} :
    db.findOpenByCase caseId = [] ↔ ∀ t ∈ db.tickets.rows, ¬ t.OpenOn caseId := by
  rw [List.eq_nil_iff_forall_not_mem]
  simp only [mem_findOpenByCase, not_and]

/-- The open tickets of the case are cancelled, and nothing else is written. -/
theorem cancelOpenTickets_eq (caseId : String) (now : Time) (db : CaseDb) :
    (cancelOpenTickets caseId now db).tickets.rows =
        (db.tickets.rows.map fun t => if t.OpenOn caseId then t.cancel now else t) ∧
      (cancelOpenTickets caseId now db).cases = db.cases ∧
      (cancelOpenTickets caseId now db).history = db.history := by
  have hfold : ∀ (l : List TicketRow) (db : CaseDb),
      (l.foldl (CaseDb.cancelTicket · now) db).tickets =
          (l.map TicketRow.id).foldl (fun t k => t.update k (·.cancel now) (CaseDb.cancel_keeps now)) db.tickets ∧
        (l.foldl (CaseDb.cancelTicket · now) db).cases = db.cases ∧
        (l.foldl (CaseDb.cancelTicket · now) db).history = db.history := by
    intro l
    induction l with
    | nil => exact fun db => ⟨rfl, rfl, rfl⟩
    | cons t l ih => exact fun db => ih (db.cancelTicket now t)
  obtain ⟨htickets, hcases, hhistory⟩ := hfold (db.findOpenByCase caseId) db
  refine ⟨?_, hcases, hhistory⟩
  rw [cancelOpenTickets, htickets, Table.rows_foldl_update (CaseDb.cancel_keeps now) fun _ => rfl]
  refine List.map_congr_left fun t ht => ?_
  have hmem : t.id ∈ (db.findOpenByCase caseId).map TicketRow.id ↔ t.OpenOn caseId := by
    constructor
    · intro h
      obtain ⟨u, hu, hid⟩ := List.mem_map.mp h
      obtain ⟨hrow, hopen⟩ := mem_findOpenByCase.mp hu
      have hfind := db.tickets.find_of_mem hrow
      rw [hid, db.tickets.find_of_mem ht, Option.some.injEq] at hfind
      exact hfind ▸ hopen
    · exact fun h => List.mem_map_of_mem (mem_findOpenByCase.mpr ⟨ht, h⟩)
  simp only [hmem]

theorem transitionCase_eq_ok {caseId trigger : String} {code : Option String}
    (h : transitionCase caseId trigger code now db = .ok db') :
    ∃ c s resolution, db.cases.find caseId = some c ∧ caseGuard c trigger code db = .ok resolution ∧
      getNextState caseTransitions c.state trigger = some s ∧
      db'.cases = (db.updateCase caseId s resolution (if s = .closed then some now else none)).cases ∧
      db'.history = db.history ∧
      db'.tickets.rows = if s = .closed ∧ trigger = "cancel" then
        db.tickets.rows.map fun t => if t.OpenOn caseId then t.cancel now else t else db.tickets.rows := by
  simp only [transitionCase, bind_eq_ok] at h
  obtain ⟨c, hc, ⟨⟩, -, resolution, hguard, h⟩ := h
  split at h
  · cases h
  · rename_i s hs
    cases h
    refine ⟨c, s, resolution, getCase_eq_ok.mp hc, hguard, hs, ?_⟩
    simp only [transitioned, logInteraction_cases, stage_cases, logInteraction_history, stage_history,
      logInteraction_tickets, stage_tickets]
    split
    · obtain ⟨htickets, hcases, hhistory⟩ := cancelOpenTickets_eq caseId now
        (db.updateCase caseId s resolution (if s = .closed then some now else none))
      exact ⟨hcases, hhistory, htickets⟩
    · exact ⟨rfl, rfl, rfl⟩

theorem transitionTicket_eq_ok {req : TransitionTicket} (h : transitionTicket dir req now db = .ok db') :
    ∃ t s assignee notes resolvedAt reason, db.tickets.find req.ticketId = some t ∧
      getNextState ticketTransitions t.state req.trigger = some s ∧
      db'.tickets = (db.updateTicket req.ticketId (·.write s assignee notes resolvedAt
        (if s = .closed ∨ s = .cancelled then some now else t.closedAt)) (write_keeps _ _ _ _ _)).tickets ∧
      db'.cases = db.cases ∧
      db'.history = db.history ++ [⟨req.ticketId, some t.state, s, assignee, reason⟩] := by
  simp only [transitionTicket, bind_eq_ok] at h
  obtain ⟨t, ht, ⟨⟩, -, assignee, -, ⟨notes, resolvedAt⟩, -, h⟩ := h
  split at h
  · cases h
  · rename_i s hs
    cases h
    exact ⟨t, s, assignee, notes, resolvedAt, _, getTicket_eq_ok.mp ht, hs, rfl, rfl, rfl⟩

/-- A ticket that passes its check is stored under an id of its own. -/
theorem openTicket_isOk {req : OpenTicket} {id : String} (hcheck : checkOpenTicket dir req db = .ok ())
    (hfree : db.tickets.find id = none) (now : Time) : ∃ db', openTicket dir req id now db = .ok db' := by
  have hins : (db.tickets.insert (newTicket req id now)).isSome := by
    rw [Table.insert_isSome]
    exact fun t ht heq => db.tickets.find_eq_none.mp hfree (List.mem_map.mpr ⟨t, ht, heq⟩)
  obtain ⟨tickets, htickets⟩ := Option.isSome_iff_exists.mp hins
  simp only [openTicket, hcheck, CaseDb.insertTicket, htickets]
  exact ⟨_, rfl⟩

theorem closeResolved_eq_ok {caseId : String} {code : Option String} {c : CaseRow}
    (hfind : db.cases.find caseId = some c) (hresolved : c.state = .resolved)
    (hcode : (code.or c.resolutionCode).getD "" ≠ "") (now : Time) :
    transitionCase caseId "close" code now db = .ok (transitioned c "close" .closed
      (db.updateCase caseId .closed (code.or c.resolutionCode) (some now))) := by
  have hcheck : checkCaseTransition .resolved "close" = .ok () := if_pos rfl
  have hgiven : checkResolutionCode (code.or c.resolutionCode) = .ok () := if_neg hcode
  have hguard : caseGuard c "close" code db = .ok (code.or c.resolutionCode) := by
    rw [caseGuard, if_neg (by decide), if_pos rfl]
    exact bind_eq_ok.mpr ⟨(), hgiven, rfl⟩
  have hnext : getNextState caseTransitions .resolved "close" = some .closed := rfl
  refine bind_eq_ok.mpr ⟨c, getCase_eq_ok.mpr hfind, ?_⟩
  rw [hresolved]
  refine bind_eq_ok.mpr ⟨(), hcheck, bind_eq_ok.mpr ⟨_, hguard, ?_⟩⟩
  simp [hnext, pure, Except.pure]

theorem closed_by {s : CaseState} {trigger : String} (h : getNextState caseTransitions s trigger = some .closed) :
    s = .resolved ∧ trigger = "close" ∨ trigger = "cancel" := by
  have hmem := getNextState_mem h
  simp only [caseTransitions, List.mem_cons, List.not_mem_nil, or_false, Rule.mk.injEq] at hmem
  grind

theorem cancel_closes {s s' : CaseState} (h : getNextState caseTransitions s "cancel" = some s') : s' = .closed := by
  have hmem := getNextState_mem h
  simp only [caseTransitions, List.mem_cons, List.not_mem_nil, or_false, Rule.mk.injEq] at hmem
  grind

theorem cancelCase_isOk {caseId : String} {c : CaseRow} (hfind : db.cases.find caseId = some c)
    (hvalid : isValidTransition caseTransitions c.state "cancel") (code : Option String) (now : Time) :
    ∃ db', transitionCase caseId "cancel" code now db = .ok db' := by
  have hcheck : checkCaseTransition c.state "cancel" = .ok () := if_pos hvalid
  have hguard : caseGuard c "cancel" code db = .ok c.resolutionCode := by
    rw [caseGuard, if_neg (by decide), if_neg (by decide)]
    rfl
  obtain ⟨s, hs⟩ := Option.isSome_iff_exists.mp (getNextState_isSome.mpr hvalid)
  refine ⟨transitioned c "cancel" s (cancelOpenTickets caseId now
    (db.updateCase caseId s c.resolutionCode (some now))), ?_⟩
  refine bind_eq_ok.mpr ⟨c, getCase_eq_ok.mpr hfind, bind_eq_ok.mpr ⟨(), hcheck, bind_eq_ok.mpr ⟨_, hguard, ?_⟩⟩⟩
  simp [hs, cancel_closes hs, pure, Except.pure]

theorem runTx_keeps {P : CaseDb → Prop} {txOk : Bool} {r : Except ApiError CaseDb} (hsame : P db)
    (h : txOk → ∀ db', r = .ok db' → P db') : P (runTx txOk db r).1 := by
  cases r with
  | error e => exact hsame
  | ok db' =>
    unfold runTx
    cases txOk with
    | false => exact hsame
    | true => exact h rfl db' rfl

theorem closeCase_keeps {P : CaseDb → Prop} {caseId code : String} {resolveOk closeOk : Bool} {resolvedAt closedAt : Time}
    (hsame : P db)
    (hresolve : ∀ db', transitionCase caseId "resolve" none resolvedAt db = .ok db' →
      P db' ∧ ∀ db'', transitionCase caseId "close" (some code) closedAt db' = .ok db'' → P db'')
    (hclose : closeOk → ∀ db', transitionCase caseId "close" (some code) closedAt db = .ok db' → P db') :
    P (closeCase caseId code resolveOk closeOk resolvedAt closedAt db).1 := by
  unfold closeCase
  split
  · exact hsame
  · split
    · cases hres : transitionCase caseId "resolve" none resolvedAt db with
      | error e => exact hsame
      | ok db' =>
        cases resolveOk with
        | false => exact hsame
        | true => exact runTx_keeps (hresolve db' hres).1 fun _ => (hresolve db' hres).2
    · exact runTx_keeps hsame hclose

end Writes

/-! ## One operation after the other -/

inductive CaseOp
  | openCase (dir : Directory) (req : OpenCase) (id : String) (now : Time) (txOk : Bool)
  | transitionCase (caseId trigger : String) (resolutionCode : Option String) (now : Time) (txOk : Bool)
  | closeCase (caseId resolutionCode : String) (resolveOk closeOk : Bool) (resolvedAt closedAt : Time)
  | openTicket (dir : Directory) (req : OpenTicket) (id : String) (now : Time) (txOk : Bool)
  | transitionTicket (dir : Directory) (req : TransitionTicket) (now : Time) (txOk : Bool)

namespace CaseDb

def after (db : CaseDb) : CaseOp → CaseDb
  | .openCase dir req id now txOk => (runTx txOk db (openCase dir req id now db)).1
  | .transitionCase caseId trigger code now txOk => (runTx txOk db (Cases.transitionCase caseId trigger code now db)).1
  | .closeCase caseId code resolveOk closeOk resolvedAt closedAt =>
    (closeCase caseId code resolveOk closeOk resolvedAt closedAt db).1
  | .openTicket dir req id now txOk => (runTx txOk db (openTicket dir req id now db)).1
  | .transitionTicket dir req now txOk => (runTx txOk db (transitionTicket dir req now db)).1

def step (db : CaseDb) (op : CaseOp) : Option CaseDb := some (db.after op)

end CaseDb

/-! ## A sample -/

def sampleDirectory : Directory := ⟨fun _ => some "active", fun _ => some "active"⟩

def sampleCase : CaseOp :=
  .openCase sampleDirectory ⟨"CUST-1", "No signal", none, "high", "network", none, none⟩ "CASE-1" 0 true

def sampleTicket : CaseOp :=
  .openTicket sampleDirectory ⟨"CUST-1", "Check the antenna", none, "incident", "high", some "CASE-1", none⟩ "TKT-1" 10 true

def sampleTrigger (trigger : String) : CaseOp :=
  .transitionTicket sampleDirectory ⟨"TKT-1", trigger, some "AGT-1", some "Antenna replaced", none⟩ 20 true

def sampleCancel : CaseOp := .transitionCase "CASE-1" "cancel" none 30 true

end BssCli.Crm.Cases

/-!
# Closing a case

`close_case` resolves an open case in one transaction and closes it in another. The code is looked at in the second one
only, so what that one refuses stays resolved.
-/

namespace BssCli.Crm.Cases

open Fsm

/-- A call that fails leaves all tables and the staged events as they were. One that succeeds leaves the case closed,
with the code. -/
def Atomic (db : CaseDb) (caseId code : String) : CaseDb × Except ApiError Unit → Prop
  | (db', .error _) => db' = db
  | (db', .ok ()) => ∃ c, db'.cases.find caseId = some c ∧ c.state = .closed ∧ c.resolutionCode = some code

/-- The first transaction takes an open case without open tickets. The second one has no code, or the database fails in it. -/
def StopsHalfway (db : CaseDb) (caseId code : String) (resolveOk closeOk : Bool) : Prop :=
  ∃ c ∈ db.cases.find caseId, (c.state = .opened ∨ c.state = .inProgress) ∧ db.findOpenByCase caseId = [] ∧
    resolveOk = true ∧ (code = "" ∨ closeOk = false)

instance (db : CaseDb) (caseId code : String) (resolveOk closeOk : Bool) :
    Decidable (StopsHalfway db caseId code resolveOk closeOk) := inferInstanceAs (Decidable (∃ c ∈ _, _ ∧ _))

section

variable {db db' : CaseDb} {caseId code : String} {now : Time}

/-! ## The two transactions -/

theorem resolvable_iff {s : CaseState} :
    isValidTransition caseTransitions s "resolve" = true ↔ s = .opened ∨ s = .inProgress := by
  cases s <;> decide

theorem resolves {c : CaseRow} (hfind : db.cases.find caseId = some c)
    (hvalid : isValidTransition caseTransitions c.state "resolve") (hempty : db.findOpenByCase caseId = []) :
    transitionCase caseId "resolve" none now db =
      .ok (transitioned c "resolve" .resolved (db.updateCase caseId .resolved c.resolutionCode none)) := by
  have hcheck : checkCaseTransition c.state "resolve" = .ok () := if_pos hvalid
  have hopen : checkNoOpenTickets c.id (db.findOpenByCase c.id) = .ok () := by
    rw [(db.cases.find_some hfind).2, hempty]
    rfl
  have hguard : caseGuard c "resolve" none db = .ok c.resolutionCode := by
    rw [caseGuard, if_pos rfl]
    exact bind_eq_ok.mpr ⟨(), hopen, rfl⟩
  have hnext : getNextState caseTransitions c.state "resolve" = some .resolved := by
    rcases resolvable_iff.mp hvalid with h | h
    · rw [h]; rfl
    · rw [h]; rfl
  refine bind_eq_ok.mpr ⟨c, getCase_eq_ok.mpr hfind, bind_eq_ok.mpr ⟨(), hcheck, bind_eq_ok.mpr ⟨_, hguard, ?_⟩⟩⟩
  simp [hnext, pure, Except.pure]

theorem transitioned_ne (c : CaseRow) (trigger : String) (s s' : CaseState) (resolution : Option String)
    (closedAt : Option Time) : transitioned c trigger s (db.updateCase caseId s' resolution closedAt) ≠ db := by
  intro h
  have hlength : db.events.length + 1 = db.events.length := by
    conv_rhs => rw [← h]
    unfold transitioned CaseDb.logInteraction CaseDb.stage CaseDb.updateCase
    rw [List.length_append]
    rfl
  omega

/-- The case as the second transaction finds it. -/
theorem find_resolved {c : CaseRow} (hfind : db.cases.find caseId = some c) (now : Option Time) :
    (transitioned c "resolve" .resolved (db.updateCase caseId .resolved c.resolutionCode now)).cases.find caseId =
      some (c.write .resolved c.resolutionCode now) := by
  unfold transitioned
  rw [logInteraction_cases, stage_cases, find_updateCase, if_pos rfl, hfind]
  rfl

theorem close_needs_code (db : CaseDb) (caseId : String) (now : Time) :
    ∃ e, transitionCase caseId "close" (some "") now db = .error e := by
  cases h : transitionCase caseId "close" (some "") now db with
  | error e => exact ⟨e, rfl⟩
  | ok db' =>
    obtain ⟨c, s, resolution, -, hguard, -⟩ := transitionCase_eq_ok h
    rw [caseGuard, if_neg (by decide), if_pos rfl, bind_eq_ok] at hguard
    obtain ⟨⟨⟩, hcheck, -⟩ := hguard
    cases hcheck

theorem closed_with (h : transitionCase caseId "close" (some code) now db = .ok db') :
    ∃ c, db'.cases.find caseId = some c ∧ c.state = .closed ∧ c.resolutionCode = some code := by
  obtain ⟨c, s, resolution, hfind, hguard, hs, hcases, -, -⟩ := transitionCase_eq_ok h
  have hclosed : s = .closed := by
    have hmem := getNextState_mem hs
    simp only [caseTransitions, List.mem_cons, List.not_mem_nil, or_false, Rule.mk.injEq] at hmem
    grind
  have hcode : resolution = some code := by
    rw [caseGuard, if_neg (by decide), if_pos rfl, bind_eq_ok] at hguard
    obtain ⟨⟨⟩, -, hpure⟩ := hguard
    exact (Except.ok.inj hpure).symm
  rw [hcases, find_updateCase, if_pos rfl, hfind]
  exact ⟨_, rfl, hclosed, hcode⟩

theorem runTx_close_atomic (closeOk : Bool) :
    Atomic db caseId code (runTx closeOk db (transitionCase caseId "close" (some code) now db)) := by
  cases h : transitionCase caseId "close" (some code) now db with
  | error e => exact rfl
  | ok db' =>
    unfold runTx
    cases closeOk with
    | false => exact rfl
    | true => exact closed_with h

/-- Behind the first transaction the call succeeds, or it leaves what that one has written. -/
theorem runTx_close_resolved {c : CaseRow} (hfind : db.cases.find caseId = some c) (code : String) (closeOk : Bool) (now : Time)
    {db₁ : CaseDb} (hdb₁ : db₁ = transitioned c "resolve" .resolved (db.updateCase caseId .resolved c.resolutionCode none)) :
    Atomic db caseId code (runTx closeOk db₁ (transitionCase caseId "close" (some code) now db₁)) ↔
      ¬ (code = "" ∨ closeOk = false) := by
  have hne : db₁ ≠ db := hdb₁ ▸ transitioned_ne c "resolve" .resolved .resolved c.resolutionCode none
  have hfind₁ : db₁.cases.find caseId = some (c.write .resolved c.resolutionCode none) := hdb₁ ▸ find_resolved hfind none
  by_cases hcode : code = ""
  · obtain ⟨e, he⟩ := close_needs_code db₁ caseId now
    rw [hcode, he]
    simpa [runTx, Atomic] using hne
  · have hok := closeResolved_eq_ok hfind₁ rfl (show ((some code).or c.resolutionCode).getD "" ≠ "" from hcode) now
    cases closeOk with
    | false =>
      rw [hok]
      simpa [runTx, Atomic] using hne
    | true =>
      rw [hok]
      simp only [hcode, Bool.true_eq_false, or_self, not_false_eq_true, iff_true]
      exact closed_with hok

end

/-! ## The call -/

theorem closeCase_atomic_iff (db : CaseDb) (caseId code : String) (resolveOk closeOk : Bool) (resolvedAt closedAt : Time) :
    Atomic db caseId code (closeCase caseId code resolveOk closeOk resolvedAt closedAt db) ↔
      ¬ StopsHalfway db caseId code resolveOk closeOk := by
  unfold closeCase
  cases hget : getCase caseId db with
  | error e =>
    refine iff_of_true rfl ?_
    rintro ⟨c, hc, -⟩
    rw [getCase_eq_ok.mpr hc] at hget
    cases hget
  | ok c =>
    have hfind := getCase_eq_ok.mp hget
    have hhalf : StopsHalfway db caseId code resolveOk closeOk ↔
        isValidTransition caseTransitions c.state "resolve" = true ∧ db.findOpenByCase caseId = [] ∧ resolveOk = true ∧
          (code = "" ∨ closeOk = false) := by
      rw [resolvable_iff]
      simp [StopsHalfway, hfind]
    rw [hhalf]
    dsimp only
    split
    · rename_i hvalid
      by_cases hempty : db.findOpenByCase caseId = []
      · rw [resolves hfind hvalid hempty]
        cases resolveOk with
        | false => exact iff_of_true rfl (by simp)
        | true =>
          have hboth := runTx_close_resolved hfind code closeOk closedAt rfl
          refine hboth.trans (not_congr ?_)
          simp [hvalid, hempty]
      · cases hres : transitionCase caseId "resolve" none resolvedAt db with
        | error e => exact iff_of_true rfl fun h => hempty h.2.1
        | ok db' =>
          -- The guard of the first transaction has looked at the tickets.
          obtain ⟨c', s, resolution, hfind', hguard, -⟩ := transitionCase_eq_ok hres
          have hnone := caseGuard_resolve hguard
          rw [(db.cases.find_some hfind').2] at hnone
          exact absurd hnone hempty
    · rename_i hvalid
      exact iff_of_true (runTx_close_atomic closeOk) fun h => hvalid h.1

/-- An open case without tickets, and no code. -/
theorem closeCase_without_code :
    ∃ e db', closeCase "CASE-1" "" true true 10 10 (CaseDb.empty.after sampleCase) = (db', .error e) ∧
      (db'.cases.find "CASE-1").map CaseRow.state = some .resolved ∧
      ¬ Atomic (CaseDb.empty.after sampleCase) "CASE-1" "" (db', .error e) := by
  refine ⟨_, _, rfl, by decide +kernel, fun h => ?_⟩
  have hevents := congrArg (fun db => db.events.length) h
  exact absurd hevents (by decide +kernel)

end BssCli.Crm.Cases
