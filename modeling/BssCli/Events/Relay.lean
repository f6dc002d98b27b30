import BssCli.Common
import BssCli.Lib.Pool
import BssCli.Lib.Steps
import BssCli.Lib.Table
import Mathlib.Data.List.Sort

/-!
# The outbox relay

A tick selects a batch of unpublished rows under their locks, publishes them in order, and
marks each row after its publish. Any number of replicas tick at the same time.
-/

namespace BssCli.Events

/-- A row of `audit.domain_event`, with the columns the relay reads or writes. -/
structure DomainEvent where
  id : ℤ
  eventId : String
  eventType : String
  payload : Option Object
  traceId : Option String
  occurredAt : Time
  publishedToMq : Bool
  publishedAttempts : ℤ
  lastPublishError : Option String

abbrev DomainEvents := Table DomainEvent.id fun id : ℤ => id

structure OutboxRow where
  id : ℤ
  eventId : String
  eventType : String
  payload : Option Object
  traceId : Option String
  deriving DecidableEq

def DomainEvent.outboxRow (r : DomainEvent) : OutboxRow :=
  ⟨r.id, r.eventId, r.eventType, r.payload, r.traceId⟩

/-! ## One batch -/

structure Outgoing where
  routingKey : String
  messageId : String
  body : Object
  traceparent : Option String

inductive RowOutcome
  | published (id : ℤ)
  | failed (id : ℤ) (error : String)
  deriving DecidableEq

def RowOutcome.id : RowOutcome → ℤ
  | published id => id
  | failed id _ => id

def truncate (s : String) (max : ℕ) : String := String.ofList (s.toList.take max)

def isHexDigit (c : Char) : Bool := c.isDigit || ('a' ≤ c && c ≤ 'f') || ('A' ≤ c && c ≤ 'F')

/-- The span id is drawn at random. -/
def traceparentForTraceId (spanId traceId : String) : Option String :=
  if traceId.utf8ByteSize ≠ 32 ∨ ¬ traceId.toList.all isHexDigit then none
  else some s!"00-{traceId.toLower}-{spanId}-01"

def outgoing (spanId : String) (row : OutboxRow) : Outgoing :=
  ⟨row.eventType, row.eventId, row.payload.getD [], row.traceId.bind (traceparentForTraceId spanId)⟩

/-- The answer of the publisher to its `n`-th message. -/
abbrev Publisher := ℕ → Outgoing → Except String Unit

def drainRow (answer : Except String Unit) (row : OutboxRow) : RowOutcome :=
  match answer with
  | .ok () => .published row.id
  | .error e => .failed row.id (truncate e 500)

/-- `drain_batch`, after `n` messages. -/
def drainBatch (publish : Publisher) (spanId : ℕ → String) (n : ℕ) : List OutboxRow → List RowOutcome
  | [] => []
  | row :: rows =>
    drainRow (publish n (outgoing (spanId n) row)) row :: drainBatch publish spanId (n + 1) rows

/-! ## The statements of `drain_once` -/

def Before (r s : DomainEvent) : Prop :=
  r.occurredAt < s.occurredAt ∨ r.occurredAt = s.occurredAt ∧ r.id ≤ s.id

instance (r s : DomainEvent) : Decidable (Before r s) := inferInstanceAs (Decidable (_ ∨ _))

/-- `DRAIN_SQL`. A negative `LIMIT` is an error. -/
def drainSelect (t : DomainEvents) (locked : List ℤ) (batchSize : ℤ) : Option (List OutboxRow) :=
  if batchSize < 0 then none
  else
    let unpublished := t.rows.filter fun r => !r.publishedToMq && r.id ∉ locked
    some (((unpublished.insertionSort Before).take batchSize.toNat).map DomainEvent.outboxRow)

/-- `MARK_OK_SQL` and `MARK_FAIL_SQL`, on the row. -/
def RowOutcome.mark (o : RowOutcome) (r : DomainEvent) : DomainEvent :=
  match o with
  | published _ => { r with publishedToMq := true, publishedAttempts := r.publishedAttempts + 1 }
  | failed _ error =>
    { r with publishedAttempts := r.publishedAttempts + 1, lastPublishError := some error }

theorem RowOutcome.mark_id (o : RowOutcome) (r : DomainEvent) : (o.mark r).id = r.id := by
  cases o <;> rfl

def applyOutcome (t : DomainEvents) (o : RowOutcome) : DomainEvents := t.update o.id o.mark o.mark_id

def applyOutcomes (t : DomainEvents) (outcomes : List RowOutcome) : DomainEvents :=
  outcomes.foldl applyOutcome t

/-! ## Ticks -/

/-- A tick that holds its rows, and the answers to the publishes it has made. -/
structure Pass where
  rows : List OutboxRow
  answers : List (Except String Unit)

/-- What `drain_batch` returns once every row has an answer. -/
def Pass.outcomes (p : Pass) : List RowOutcome :=
  drainBatch (fun n _ => p.answers.getD n (.error "")) (fun _ => "") 0 p.rows

structure Outbox where
  table : DomainEvents
  passes : List Pass
  /-- The rows of which a publish has succeeded. -/
  sent : List ℤ
  /-- The rows that were inserted as published, by a service that publishes inline. -/
  inline : List ℤ

namespace Outbox

def locked (w : Outbox) : List ℤ := w.passes.flatMap fun p => p.rows.map OutboxRow.id

inductive Label
  | stage (row : DomainEvent)
  | select (batchSize : ℤ)
  | publish (i : ℕ) (answer : Except String Unit)
  | commit (i : ℕ)
  | abort (i : ℕ)

def stepPublish (w : Outbox) (i : ℕ) (p : Pass) (answer : Except String Unit) : Option Outbox :=
  p.rows[p.answers.length]?.map fun row => { w with
    passes := w.passes.set i { p with answers := p.answers ++ [answer] }
    sent := w.sent ++ if answer.isOk then [row.id] else [] }

/-- The marks are made and committed when every row has been tried. A crash, a failed
statement or a failed commit aborts the tick and undoes nothing that was published. -/
def step (w : Outbox) : Label → Option Outbox
  | .stage row => (w.table.insert row).map fun table => { w with
      table
      inline := w.inline ++ if row.publishedToMq then [row.id] else [] }
  | .select batchSize => (drainSelect w.table w.locked batchSize).map fun rows =>
    { w with passes := w.passes ++ [⟨rows, []⟩] }
  | .publish i answer => w.passes[i]?.bind fun p => w.stepPublish i p answer
  | .commit i => w.passes[i]?.bind fun p =>
    if p.answers.length = p.rows.length then some { w with
      table := applyOutcomes w.table p.outcomes
      passes := w.passes.eraseIdx i }
    else none
  | .abort i => w.passes[i]?.map fun _ => { w with passes := w.passes.eraseIdx i }

def empty : Outbox := ⟨Table.empty, [], [], []⟩

end Outbox

end BssCli.Events
