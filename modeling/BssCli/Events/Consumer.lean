import BssCli.Lib.Pool
import BssCli.Lib.Steps

/-!
# The safe consumer

One queue with its retry queue and its parked queue. A delivery claims the inbox and runs
the handler in one transaction. A failure is nacked to the retry queue until the retries
are used up, and is parked then.
-/

namespace BssCli.Events

/-! ## Retry or park -/

inductive RetryAction
  | retry (attempt : ℕ)
  | park
  deriving DecidableEq

def decideRetry (attempts maxRetries : ℕ) : RetryAction :=
  if maxRetries ≤ attempts then .park else .retry (attempts + 1)

/-- An entry of the `x-death` header. -/
structure XDeath where
  queue : String
  reason : String
  count : ℤ
  deriving DecidableEq

/-- `lapin_death_count`: the first entry, as a `u32`. -/
def deathCount : List XDeath → ℕ
  | [] => 0
  | first :: _ => first.count.toNat % 2 ^ 32

/-- What the broker makes of the header: the entry of the queue and the reason is counted
up, and comes first. -/
def deadLetter (queue reason : String) (xs : List XDeath) : List XDeath :=
  match xs.find? fun x => x.queue = queue ∧ x.reason = reason with
  | some x => { x with count := x.count + 1 } ::
      xs.filter fun x => ¬ (x.queue = queue ∧ x.reason = reason)
  | none => ⟨queue, reason, 1⟩ :: xs

def retryQueueName (queueName : String) : String := s!"{queueName}.retry"

/-- The header after `n` rounds through the retry queue. -/
def cycled (queueName : String) : ℕ → List XDeath
  | 0 => []
  | n + 1 => [⟨retryQueueName queueName, "expired", n + 1⟩, ⟨queueName, "rejected", n + 1⟩]

theorem deadLetter_cycled (queueName : String) (n : ℕ) :
    deadLetter (retryQueueName queueName) "expired" (deadLetter queueName "rejected" (cycled queueName n)) =
      cycled queueName (n + 1) := by
  cases n with
  | zero => simp [cycled, deadLetter]
  | succ n => simp [cycled, deadLetter]

theorem deathCount_cycled (queueName : String) {n : ℕ} (h : n < 2 ^ 32) :
    deathCount (cycled queueName n) = n := by
  cases n with
  | zero => rfl
  | succ n =>
    simp only [cycled, deathCount]
    omega

/-! ## Deliveries -/

/-- The settings are a `u32`, and `parseUuid` is that of the uuid crate. -/
structure Consumer where
  queueName : String
  maxRetries : ℕ
  fits : maxRetries < 2 ^ 32
  parseUuid : String → Option String

structure Message where
  /-- The broker's copies are told apart by their number. -/
  serial : ℕ
  messageId : Option String
  /-- The body is JSON. -/
  json : Bool
  xDeath : List XDeath
  /-- The attempts that have failed and were nacked. -/
  failed : ℕ

/-- How far the consumer is with a message of the main queue. -/
inductive Phase
  | ready
  | received
  | claimed
  | handled
  | failed
  | parked
  deriving DecidableEq

structure Delivery where
  message : Message
  phase : Phase

structure Queues where
  main : List Delivery
  retry : List Message
  parked : List Message
  /-- `processed_event` of this consumer. -/
  inbox : List String
  /-- The event ids whose effects have been committed, once for each time. -/
  effects : List String
  /-- The messages that `process_one` has returned `Ok` for or has committed. -/
  handled : List ℕ
  published : ℕ

def Consumer.eventId (c : Consumer) (m : Message) : Option String := m.messageId.bind c.parseUuid

/-- A transaction under way has inserted the inbox row of the event. -/
def Consumer.claims (c : Consumer) (u : String) (d : Delivery) : Bool :=
  d.phase = .claimed ∧ c.eventId d.message = some u

namespace Queues

inductive Label
  | publish (messageId : Option String) (json : Bool)
  | deliver (i : ℕ)
  | badJson (i : ℕ)
  | claim (i : ℕ)
  | commit (i : ℕ) (reported : Bool)
  | fail (i : ℕ)
  | nack (i : ℕ)
  | park (i : ℕ) (kept : Bool)
  | ack (i : ℕ)
  | redeliver (i : ℕ)
  | expire (j : ℕ)

def moved (w : Queues) (i : ℕ) (d : Delivery) (phase : Phase) : Queues :=
  { w with main := w.main.set i { d with phase } }

section

variable (w : Queues) (i : ℕ) (d : Delivery) (phase : Phase)

@[simp] theorem moved_main : (w.moved i d phase).main = w.main.set i { d with phase } := rfl
@[simp] theorem moved_retry : (w.moved i d phase).retry = w.retry := rfl
@[simp] theorem moved_parked : (w.moved i d phase).parked = w.parked := rfl
@[simp] theorem moved_inbox : (w.moved i d phase).inbox = w.inbox := rfl
@[simp] theorem moved_effects : (w.moved i d phase).effects = w.effects := rfl
@[simp] theorem moved_handled : (w.moved i d phase).handled = w.handled := rfl
@[simp] theorem moved_published : (w.moved i d phase).published = w.published := rfl

end

/-- The insert of the inbox row waits for one that is not committed yet. -/
def stepClaim (c : Consumer) (w : Queues) (i : ℕ) (d : Delivery) : Option Queues :=
  match c.eventId d.message with
  | none => some (w.moved i d .claimed)
  | some u =>
    if u ∈ w.inbox then
      some { w.moved i d .handled with handled := w.handled ++ [d.message.serial] }
    else if w.main.any (c.claims u) then none
    else some (w.moved i d .claimed)

/-- The commit takes effect, and may come back as an error all the same. -/
def stepCommit (c : Consumer) (w : Queues) (i : ℕ) (d : Delivery) (reported : Bool) : Queues :=
  { w.moved i d (if reported then .handled else .failed) with
    inbox := w.inbox ++ (c.eventId d.message).toList
    effects := w.effects ++ (c.eventId d.message).toList
    handled := w.handled ++ [d.message.serial] }

/-- Nacked without requeue, so dead-lettered to the retry queue. -/
def stepNack (c : Consumer) (w : Queues) (i : ℕ) (m : Message) : Option Queues :=
  match decideRetry (deathCount m.xDeath) c.maxRetries with
  | .retry _ => some { w with
      main := w.main.eraseIdx i
      retry := w.retry ++
        [{ m with xDeath := deadLetter c.queueName "rejected" m.xDeath, failed := m.failed + 1 }] }
  | .park => none

/-- The parked copy is published, and whatever comes of that the original is acked next. -/
def stepPark (c : Consumer) (w : Queues) (i : ℕ) (d : Delivery) (kept : Bool) : Option Queues :=
  match decideRetry (deathCount d.message.xDeath) c.maxRetries with
  | .retry _ => none
  | .park => some { w.moved i d .parked with
      parked := w.parked ++ if kept then [d.message] else [] }

/-- A body that is not JSON is acked. A crash or a lost channel redelivers what is not
acked. The retry queue sends a message back when its time is up. -/
def step (c : Consumer) (w : Queues) : Label → Option Queues
  | .publish messageId json => some { w with
      main := w.main ++ [⟨⟨w.published, messageId, json, [], 0⟩, .ready⟩]
      published := w.published + 1 }
  | .deliver i => w.main[i]?.bind fun d =>
    if d.phase = .ready then some (w.moved i d .received) else none
  | .badJson i => w.main[i]?.bind fun d =>
    if d.phase = .received ∧ d.message.json = false then some { w with main := w.main.eraseIdx i } else none
  | .claim i => w.main[i]?.bind fun d =>
    if d.phase = .received ∧ d.message.json = true then stepClaim c w i d else none
  | .commit i reported => w.main[i]?.bind fun d =>
    if d.phase = .claimed then some (stepCommit c w i d reported) else none
  | .fail i => w.main[i]?.bind fun d =>
    if d.phase = .claimed ∨ d.phase = .received ∧ d.message.json = true then some (w.moved i d .failed)
    else none
  | .nack i => w.main[i]?.bind fun d => if d.phase = .failed then stepNack c w i d.message else none
  | .park i kept => w.main[i]?.bind fun d => if d.phase = .failed then stepPark c w i d kept else none
  | .ack i => w.main[i]?.bind fun d =>
    if d.phase = .handled ∨ d.phase = .parked then some { w with main := w.main.eraseIdx i } else none
  | .redeliver i => w.main[i]?.map fun d => w.moved i d .ready
  | .expire j => w.retry[j]?.map fun m => { w with
      retry := w.retry.eraseIdx j
      main := w.main ++
        [⟨{ m with xDeath := deadLetter (retryQueueName c.queueName) "expired" m.xDeath }, .ready⟩] }

def idle : Queues := ⟨[], [], [], [], [], [], 0⟩

/-- Where a message may be. -/
def Safe (w : Queues) (serial : ℕ) : Prop :=
  serial ∈ w.handled ∨ (∃ d ∈ w.main, d.message.serial = serial) ∨
    (∃ m ∈ w.retry, m.serial = serial) ∨ ∃ m ∈ w.parked, m.serial = serial

instance (w : Queues) (serial : ℕ) : Decidable (w.Safe serial) :=
  inferInstanceAs (Decidable (_ ∨ _ ∨ _ ∨ _))

end Queues

end BssCli.Events
