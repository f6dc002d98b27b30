import BssCli.Som.Inventory
import BssCli.Som.World

/-!
# The orchestrator and the inventory

A decomposition reserves before it commits, and a failure handler releases before it
commits. A call may arrive late or never, and its reply may be lost. Nothing in the
inventory says whose a resource is, so the model keeps this beside it.
-/

namespace BssCli.Som

open Crm

/-- Whose decomposition it is. -/
structure Owner where
  commercialOrderId : String
  cfsNo : ℕ
  deriving DecidableEq

/-- What the last reservation of a resource has become. -/
inductive Holding
  | free
  | attempt (o : Owner)
  | order (o : Owner)
  | leaving (o : Owner)
  deriving DecidableEq

def Holding.owner : Holding → Option Owner
  | free => none
  | attempt o | order o | leaving o => some o

def Decomposition.owner (d : Decomposition) : Owner := ⟨d.req.commercialOrderId, d.ids.cfsNo⟩

def Decomposition.resources (d : Decomposition) : List Resource :=
  [.msisdn d.reserved.msisdn, .esim d.reserved.iccid]

/-! ## Decompositions under way -/

inductive AttemptPhase
  | started
  | numbered (msisdnResult : Object)
  /-- `reserve_esim` has failed, and the number is to be given back. -/
  | refused (msisdnResult : Object)
  | ready (msisdnResult esimResult : Object)

structure Attempt where
  body : Object
  req : DecomposeRequest
  ids : DecomposeIds
  phase : AttemptPhase

def Attempt.owner (a : Attempt) : Owner := ⟨a.req.commercialOrderId, a.ids.cfsNo⟩

def Attempt.held (a : Attempt) : List Resource :=
  match a.phase with
  | .started => []
  | .numbered m | .refused m => (msisdnOf m).toList
  | .ready m e => (msisdnOf m).toList ++ (esimOf e).toList

/-- A release that was sent. `checked` says that the row was read and may be released. -/
structure ReleaseCall where
  owner : Owner
  resource : Resource
  checked : Bool

structure Fulfilment where
  som : Orchestrator
  inventory : Inventory
  attempts : List Attempt
  sent : List ReleaseCall
  holdings : List (Resource × Holding)

def put (holdings : List (Resource × Holding)) (r : Option Resource) (h : Holding) : List (Resource × Holding) :=
  match r with
  | some r => Fields.insert holdings r h
  | none => holdings

def holdingOf (holdings : List (Resource × Holding)) (r : Resource) : Holding :=
  (Fields.get holdings r).getD .free

def cfsState (db : SomDb) (d : Decomposition) : Option ServiceState :=
  (db.services.find d.cfs).map fun row => row.state

namespace Fulfilment

inductive Label
  | start (body : Object) (ids : DecomposeIds)
  | reserveMsisdn (i : ℕ) (locked : List String) (now : Time) (delivered : Bool)
  | reserveEsim (i : ℕ) (locked : List String) (now : Time) (delivered : Bool)
  | refuse (i : ℕ)
  | giveBack (i : ℕ)
  | decompose (i : ℕ) (now : Time)
  | giveUp (i : ℕ)
  | begin (k : TaskKind) (body : Object)
  | call (i : ℕ)
  | commit (i : ℕ) (now : Time)
  | abandon (i : ℕ)
  | arrive (j : ℕ)
  | apply (j : ℕ) (now : Time)
  | lose (j : ℕ)
  | assignMsisdn (k : ℕ)
  | assignEsim (k : ℕ)
  | elsewhere (op : InventoryOp)

variable (w : Fulfilment)

def holding (r : Resource) : Holding := holdingOf w.holdings r

/-- Two decompositions under way have different ids. -/
def stepStart (body : Object) (ids : DecomposeIds) : Option Fulfilment :=
  (DecomposeRequest.ofBody body).toOption.bind fun req =>
    if ∀ a ∈ w.attempts, a.ids.cfsNo ≠ ids.cfsNo then
      some { w with attempts := w.attempts ++ [⟨body, req, ids, .started⟩] }
    else none

/-- Without the reply the decomposition fails. -/
def stepReserveMsisdn (i : ℕ) (a : Attempt) (locked : List String) (now : Time) (delivered : Bool) :
    Option Fulfilment :=
  match a.phase with
  | .started =>
    (reserveNextMsisdn w.inventory.numbers locked a.req.msisdnPreference now).toOption.map fun r =>
      { w with
        inventory := { w.inventory with numbers := r.1 }
        holdings := put w.holdings (msisdnOf r.2) (.attempt a.owner)
        attempts :=
          if delivered then w.attempts.set i { a with phase := .numbered r.2 } else w.attempts.eraseIdx i }
  | _ => none

def stepReserveEsim (i : ℕ) (a : Attempt) (locked : List String) (now : Time) (delivered : Bool) :
    Option Fulfilment :=
  match a.phase with
  | .numbered m =>
    (Crm.reserveEsim w.inventory.profiles locked now).toOption.map fun r =>
      { w with
        inventory := { w.inventory with profiles := r.1 }
        holdings := put w.holdings (esimOf r.2) (.attempt a.owner)
        attempts := w.attempts.set i
          (if delivered then { a with phase := .ready m r.2 } else { a with phase := .refused m }) }
  | _ => none

def stepRefuse (i : ℕ) (a : Attempt) : Option Fulfilment :=
  match a.phase with
  | .numbered m => some { w with attempts := w.attempts.set i { a with phase := .refused m } }
  | _ => none

/-- The rollback of a decomposition releases its number. -/
def stepGiveBack (i : ℕ) (a : Attempt) : Option Fulfilment :=
  match a.phase with
  | .refused m => some { w with
      attempts := w.attempts.eraseIdx i
      sent := w.sent ++ ((msisdnOf m).map fun r => ⟨a.owner, r, false⟩).toList
      holdings := put w.holdings (msisdnOf m) (.leaving a.owner) }
  | _ => none

def stepDecompose (i : ℕ) (a : Attempt) (now : Time) : Option Fulfilment :=
  match a.phase with
  | .ready m e =>
    (w.som.stepDecompose a.body a.ids m e now).toOption.map fun som =>
      { w with
        som
        attempts := w.attempts.eraseIdx i
        holdings := put (put w.holdings (msisdnOf m) (.order a.owner)) (esimOf e) (.order a.owner) }
  | _ => none

/-- The release is on its way. If the order had the resource, it is leaving it. -/
def send (r : Resource) (d : Decomposition) (som : Orchestrator) : Fulfilment :=
  { w with
    som
    sent := w.sent ++ [⟨d.owner, r, false⟩]
    holdings :=
      if w.holding r = .order d.owner then put w.holdings (some r) (.leaving d.owner) else w.holdings }

def stepCall (i : ℕ) (f : TaskCall) : Option Fulfilment :=
  f.calls.head?.bind fun r => (w.som.orders.find? fun d => d.cfs = f.ev.serviceId).bind fun d =>
    (w.som.stepCall i f).map (w.send r d)

def stepArrive (j : ℕ) (c : ReleaseCall) : Option Fulfilment :=
  if c.checked then none
  else match w.inventory.readRelease c.resource with
    | .ok _ => some { w with sent := w.sent.set j { c with checked := true } }
    | .error _ => some { w with sent := w.sent.eraseIdx j }

def stepApply (j : ℕ) (c : ReleaseCall) (now : Time) : Option Fulfilment :=
  if c.checked then some { w with
    inventory := w.inventory.writeRelease now c.resource
    sent := w.sent.eraseIdx j
    holdings := put w.holdings (some c.resource) .free }
  else none

/-- The subscription of an activated order. -/
def stepAssignMsisdn (d : Decomposition) : Option Fulfilment :=
  if cfsState w.som.db d = some .activated then
    (assignMsisdn w.inventory.numbers d.reserved.msisdn).toOption.map fun numbers =>
      { w with inventory := { w.inventory with numbers } }
  else none

def stepAssignEsim (d : Decomposition) : Option Fulfilment :=
  if cfsState w.som.db d = some .activated then
    (assignMsisdnToEsim w.inventory.numbers w.inventory.profiles d.reserved.iccid d.reserved.msisdn).toOption.map
      fun profiles => { w with inventory := { w.inventory with profiles } }
  else none

def step : Label → Option Fulfilment
  | .start body ids => w.stepStart body ids
  | .reserveMsisdn i locked now delivered =>
    w.attempts[i]?.bind fun a => w.stepReserveMsisdn i a locked now delivered
  | .reserveEsim i locked now delivered => w.attempts[i]?.bind fun a => w.stepReserveEsim i a locked now delivered
  | .refuse i => w.attempts[i]?.bind (w.stepRefuse i)
  | .giveBack i => w.attempts[i]?.bind (w.stepGiveBack i)
  | .decompose i now => w.attempts[i]?.bind fun a => w.stepDecompose i a now
  | .giveUp i => w.attempts[i]?.map fun _ => { w with attempts := w.attempts.eraseIdx i }
  | .begin k body => (w.som.step (.begin k body)).map fun som => { w with som }
  | .call i => w.som.flights[i]?.bind (w.stepCall i)
  | .commit i now => (w.som.step (.commit i now)).map fun som => { w with som }
  | .abandon i => (w.som.step (.abandon i)).map fun som => { w with som }
  | .arrive j => w.sent[j]?.bind (w.stepArrive j)
  | .apply j now => w.sent[j]?.bind fun c => w.stepApply j c now
  | .lose j => w.sent[j]?.map fun _ => { w with sent := w.sent.eraseIdx j }
  | .assignMsisdn k => w.som.orders[k]?.bind w.stepAssignMsisdn
  | .assignEsim k => w.som.orders[k]?.bind w.stepAssignEsim
  | .elsewhere op => (w.inventory.apply op).toOption.map fun inventory => { w with inventory }

def idle (v : Inventory) : Fulfilment := ⟨Orchestrator.idle, v, [], [], []⟩

end Fulfilment

end BssCli.Som
