import BssCli.Crm.Inventory
import BssCli.Lib.Versions
import Mathlib.Data.List.Sort

/-!
# Open orders and the holds on their numbers

The statements of a call that picks a number, or works on an open order. An open order and
the hold on its number are two rows of two tables, and the hold names the order.
-/

namespace BssCli.Crm.OpenOrder

open Versions

structure OpenOrderRow where
  id : String
  ownerIdentity : String
  customerId : Option String
  planCode : String
  msisdn : Option String
  iccid : Option String
  step : String
  status : String
  reservedUntil : Option Time
  deriving DecidableEq

abbrev OpenOrders := Table OpenOrderRow.id (fun i : String => i)

structure Db where
  numbers : Numbers
  orders : OpenOrders
  events : List Event

def openOrderJson (o : OpenOrderRow) : Object :=
  [("id", .str o.id), ("owner_identity", .str o.ownerIdentity), ("customer_id", optValue .str o.customerId),
   ("plan_code", .str o.planCode), ("msisdn", optValue .str o.msisdn), ("iccid", optValue .str o.iccid),
   ("step", .str o.step), ("status", .str o.status), ("reserved_until", optValue .time o.reservedUntil)]

/-- `COALESCE` keeps what is not given. -/
def OpenOrderRow.setState (step status : Option String) (reservedUntil : Option Time) (o : OpenOrderRow) :
    OpenOrderRow :=
  { o with
    step := step.getD o.step, status := status.getD o.status, reservedUntil := reservedUntil.or o.reservedUntil }

def OpenOrderRow.link (customerId : String) (o : OpenOrderRow) : OpenOrderRow :=
  { o with customerId := some customerId }

/-- A soft hold of `reservedFor`. -/
def HeldFor (reservedFor : String) (r : MsisdnRow) : Prop :=
  r.reservedFor = some reservedFor ∧ r.status = .reserved ∧ r.reservedUntil.isSome

instance (reservedFor : String) : DecidablePred (HeldFor reservedFor) :=
  fun _ => inferInstanceAs (Decidable (_ ∧ _))

def freed (r : MsisdnRow) : MsisdnRow :=
  { r with status := .available, reservedAt := none, reservedUntil := none, reservedFor := none }

/-! ## Events and errors -/

def reservedEvent (msisdn reservedFor : String) (reservedUntil : Time) : Event :=
  ⟨"inventory.msisdn.reserved", "msisdn", msisdn,
    [("msisdn", .str msisdn), ("reserved_for", .str reservedFor), ("reserved_until", .time reservedUntil)]⟩

def releasedEvents (reservedFor : String) (released : List String) : List Event :=
  released.map fun m =>
    ⟨"inventory.msisdn.released", "msisdn", m, [("msisdn", .str m), ("reserved_for", .str reservedFor)]⟩

def openedEvent (id identity msisdn planCode : String) : Event :=
  ⟨"open_order.opened", "open_order", id,
    [("open_order_id", .str id), ("owner_identity", .str identity), ("msisdn", .str msisdn),
     ("plan_code", .str planCode)]⟩

def completedEvent (id : String) : Event :=
  ⟨"open_order.completed", "open_order", id, [("open_order_id", .str id)]⟩

def closedEvent (id status : String) (released : List String) : Event :=
  ⟨s!"open_order.{status}", "open_order", id,
    [("open_order_id", .str id), ("released", .array (released.map .str))]⟩

def holdUnavailable (msisdn : String) : ApiError := .policy {
  rule := "msisdn.hold.unavailable"
  message := s!"MSISDN {msisdn} is not available to hold"
  context := [("msisdn", .str msisdn)] }

def alreadyOpen (existing : OpenOrderRow) : ApiError :=
  let number := existing.msisdn.getD "your number"
  .policy {
    rule := "open_order.already_open"
    message := s!"You already have an open order for {number}. Complete or cancel it first."
    context := [("open_order_id", .str existing.id), ("msisdn", optValue .str existing.msisdn)] }

def justTaken (msisdn : String) : ApiError := .policy {
  rule := "inventory.msisdn.unavailable"
  message := s!"MSISDN {msisdn} was just taken — please pick another number"
  context := [("msisdn", .str msisdn)] }

def notAvailable (msisdn : String) : ApiError := .policy {
  rule := "msisdn.reserve.status_must_be_available"
  message := s!"MSISDN {msisdn} is not available for reservation"
  context := [("msisdn", .str msisdn)] }

def noAvailable (preference : Option String) : ApiError := .policy {
  rule := "msisdn.reserve.no_available"
  message := "No MSISDN available matching criteria"
  context := [("preference", optValue .str preference)] }

/-! ## Calls -/

/-- `create_or_resume_open_order`, with the id that a new order gets. -/
structure Create where
  id : String
  identity : String
  planCode : String
  msisdn : String
  ttl : ℤ

/-- What a call does next. A call that has committed may still have its reply to read. -/
inductive Task
  | hold (msisdn reservedFor : String) (ttl : ℤ)
  | releaseHold (reservedFor : String)
  | find (c : Create)
  | refresh (c : Create) (existing : String)
  | insert (c : Create)
  | take (c : Create)
  | cancel (id terminalStatus : String)
  | close (id terminalStatus : String) (released : List String)
  | complete (id : String)
  | advance (id step : String)
  | link (id customerId : String)
  | reserve (msisdn : String)
  | reserveNext (preference : Option String)
  | sweep
  | expire (ids : List String)
  | done (reply : Option (String × Bool))
  | replying (id : String) (resumed : Bool)

/-- A call under way: its clock, whose orders it works for, and what it has written. -/
structure Flight where
  task : Task
  now : Time
  flows : List String
  numbers : Numbers
  orders : OpenOrders
  events : List Event

def Flight.begin (task : Task) (now : Time) (flows : List String) : Flight :=
  ⟨task, now, flows, .empty, .empty, []⟩

inductive Ran
  | waits
  | fails (e : ApiError)
  | over
  | goes (f : Flight)

namespace Flight

variable (f : Flight) (db : Db) (others : List Flight)

def withTask (task : Task) : Flight := { f with task := task }

def stage (events : List Event) : Flight := { f with events := f.events ++ events }

def holdUntil (ttl : ℤ) : Time := f.now + ttl * 1000000

/-! ## Statements -/

def updateNumbers (p : MsisdnRow → Prop) [DecidablePred p] (w : MsisdnRow → MsisdnRow)
    (hw : ∀ r, (w r).msisdn = r.msisdn) : Option (Numbers × Flight) :=
  (update Flight.numbers others f.numbers db.numbers p w hw).map fun (rows, numbers) =>
    (rows, { f with numbers := numbers })

def updateOrders (p : OpenOrderRow → Prop) [DecidablePred p] (w : OpenOrderRow → OpenOrderRow)
    (hw : ∀ o, (w o).id = o.id) : Option (OpenOrders × Flight) :=
  (update Flight.orders others f.orders db.orders p w hw).map fun (rows, orders) =>
    (rows, { f with orders := orders })

/-- `true` when the hold was taken. -/
def holdMsisdn (msisdn reservedFor : String) (reservedUntil : Time) : Option (Bool × Flight) :=
  (f.updateNumbers db others (fun r => r.msisdn = msisdn ∧ r.Holdable reservedFor f.now)
    (MsisdnRow.softHold reservedFor reservedUntil f.now) fun _ => rfl).map fun (rows, f') =>
      (!rows.rows.isEmpty, f')

def releaseHoldsFor (reservedFor : String) : Option (List String × Flight) :=
  (f.updateNumbers db others (HeldFor reservedFor) freed fun _ => rfl).map fun (rows, f') =>
    (rows.rows.map MsisdnRow.msisdn, f')

def setOpenOrderState (id : String) (step status : Option String) (reservedUntil : Option Time) : Option Flight :=
  (f.updateOrders db others (fun o => o.id = id) (OpenOrderRow.setState step status reservedUntil)
    fun _ => rfl).map Prod.snd

def linkOpenOrderCustomer (id customerId : String) : Option Flight :=
  (f.updateOrders db others (fun o => o.id = id) (OpenOrderRow.link customerId) fun _ => rfl).map Prod.snd

/-- `SELECT … FOR UPDATE` of the open order. -/
def getOpenOrderByIdentity (identity : String) : Option (Option OpenOrderRow × Flight) :=
  (f.updateOrders db others (fun o => o.ownerIdentity = identity ∧ o.status = "open") id
    fun _ => rfl).map fun (rows, f') => (rows.rows.head?, f')

def newOrder (c : Create) : OpenOrderRow :=
  ⟨c.id, c.identity, none, c.planCode, some c.msisdn, none, "pending_customer", "open", some (f.holdUntil c.ttl)⟩

/-- Another call has an order of the same owner, or one with the same id. -/
def InsertWaits (c : Create) : Prop :=
  ∃ g ∈ others, (g.orders.find c.id).isSome ∨ ∃ o ∈ g.orders.rows, o.ownerIdentity = c.identity

instance (c : Create) : Decidable (InsertWaits others c) := inferInstanceAs (Decidable (∃ g ∈ _, _ ∨ ∃ o ∈ _, _))

/-- The partial unique index. -/
def OwnerOpen (c : Create) : Prop := ∃ o ∈ db.orders.rows, o.ownerIdentity = c.identity ∧ o.status = "open"

instance (c : Create) : Decidable (OwnerOpen db c) := inferInstanceAs (Decidable (∃ o ∈ _, _))

/-- The numbers that a `SKIP LOCKED` leaves out. -/
def locked : List String := others.flatMap fun g => g.numbers.rows.map MsisdnRow.msisdn

def lockExpiredOpenOrders (limit : ℕ) : List String :=
  let expired := db.orders.rows.filter fun o =>
    o.status = "open" ∧ (∃ t ∈ o.reservedUntil, t ≤ f.now) ∧ ∀ g ∈ others, g.orders.find o.id = none
  ((expired.insertionSort fun a b => a.reservedUntil.getD 0 ≤ b.reservedUntil.getD 0).take limit).map OpenOrderRow.id

end Flight

end BssCli.Crm.OpenOrder
