import BssCli.Lib.Pool
import BssCli.Lib.Steps
import BssCli.Rating.Domain
import BssCli.Subscription.Fleet

/-!
# A usage event on its way to the balance

Mediation and rating publish inline, without a message id, and insert the outbox row after
that. The relay publishes the rows that are not marked, with the event id. The broker keeps
a message until it is acked, and delivers it as often as it likes. A publish may be kept or
not, and may come back as an error either way. Only the subscription service has an inbox.
-/

namespace BssCli.Usage

open Mediation Rating Subscription

/-! ## What is in flight -/

inductive Body
  | recorded (p : RecordedPayload)
  | outcome (o : UsageOutcome)
  deriving DecidableEq

structure Message where
  messageId : Option String
  body : Body
  /-- A delivery of it has been carried out. -/
  handled : Bool

def Message.rated (m : Message) : Option RatedPayload :=
  match m.body with
  | .recorded _ => none
  | .outcome o => o.decrements

def publish (messages : List Message) (messageId : Option String) (body : Body) (kept : Bool) :
    List Message :=
  if kept then messages ++ [⟨messageId, body, false⟩] else messages

/-- A row of `audit.domain_event`, with which of its publishes the broker has kept. -/
structure OutboxRow where
  eventId : String
  body : Body
  publishedToMq : Bool
  keptInline : Bool
  keptRelayed : Bool

/-- What was published inline and is still to be inserted. -/
structure Staged where
  body : Body
  published : Bool
  kept : Bool

def Staged.row (s : Staged) (eventId : String) : OutboxRow := ⟨eventId, s.body, s.published, s.kept, false⟩

structure Pipeline where
  lines : Lines
  messages : List Message
  staged : List Staged
  outbox : List OutboxRow
  /-- `processed_event` of the queue `subscription.usage.rated`. -/
  inbox : List String
  /-- The ids drawn from `usage_event_id_seq`. -/
  drawn : List String
  /-- The usage events that have decremented a balance, once for each time. -/
  decremented : List String

/-! ## The consumer of `usage.rated` -/

def ratedCall (p : RatedPayload) : UsageCall := ⟨p.allowanceType, p.consumedQuantity, p.usageEventId⟩

/-- The balance is there to be decremented, and the line is active. -/
def decrements (u : UsageCall) (db : SubDb) : Bool :=
  UsageCall.accepted db.sub && match usageOpen u db with
    | .ok (.decrement _ _) => true
    | _ => false

theorem handleUsageRated_id (u : UsageCall) (txOk : Bool) (db : SubDb) :
    (handleUsageRated u txOk db).db.sub.id = db.sub.id := by
  rcases handleUsageRated_db u txOk db with h | ⟨-, effect, -, h⟩
  · rw [h]
  · rw [(usageCommit_eq_ok h).1]
    unfold usageRow
    split <;> rfl

theorem handleUsageRated_balances {u : UsageCall} {db : SubDb} (txOk : Bool)
    (h : decrements u db = false) : (handleUsageRated u txOk db).db.balances = db.balances := by
  rcases handleUsageRated_db u txOk db with hdb | ⟨hactive, effect, hopen, hcommit⟩
  · rw [hdb]
  · have hbalances := (usageCommit_eq_ok hcommit).2
    cases effect with
    | reject pv => simpa [usageBalances] using hbalances.symm
    | missing => simpa [usageBalances] using hbalances.symm
    | decrement result exhausted => simp [decrements, UsageCall.accepted, hactive, hopen] at h

/-- The lines after the handler, and whether it has decremented. `none` is an error, and
the transaction is rolled back. -/
def usageRatedHandler (lines : Lines) (p : RatedPayload) : Option (Lines × Bool) :=
  match lines.find p.subscriptionId with
  | none => some (lines, false)
  | some db =>
    (handleUsageRated (ratedCall p) true db).result.toOption.map fun _ =>
      (lines.update p.subscriptionId (fun db => (handleUsageRated (ratedCall p) true db).db)
        (handleUsageRated_id (ratedCall p) true), decrements (ratedCall p) db)

def isUsage (f : Flight) : Bool :=
  match f.phase with
  | .using _ | .decrementing _ _ => true
  | _ => false

namespace Pipeline

inductive Label
  | ingest (req : IngestRequest) (reply : Except ClientError LineDoc) (id : String) (kept ok : Bool)
  | rate (i : ℕ) (getOffering : String → Except ClientError Tariff) (kept ok : Bool)
  | insert (j : ℕ) (eventId : String)
  | abandon (j : ℕ)
  | relay (k : ℕ) (kept ok marked : Bool)
  | consume (i : ℕ) (txOk : Bool)
  | ack (i : ℕ)
  | elsewhere (id : String) (f : Flight)

/-! ## Steps -/

/-- The inline publish of mediation. The sequence draws no id twice. -/
def stepIngest (w : Pipeline) (id : String) (kept ok : Bool) (p : RecordedPayload) : Option Pipeline :=
  if id ∈ w.drawn then none
  else some { w with
    messages := publish w.messages none (.recorded p) kept
    staged := w.staged ++ [⟨.recorded p, ok, kept⟩]
    drawn := w.drawn ++ [id] }

/-- The inline publish of rating. A body it cannot rate is only acked. -/
def stepRate (w : Pipeline) (i : ℕ) (m : Message) (getOffering : String → Except ClientError Tariff)
    (kept ok : Bool) : Option Pipeline :=
  match m.body with
  | .recorded p => (handleUsageRecorded p getOffering).toOption.map fun o => { w with
      messages := publish (w.messages.set i { m with handled := true }) none (.outcome o) kept
      staged := w.staged ++ [⟨.outcome o, ok, kept⟩] }
  | .outcome _ => none

/-- One row of a batch, under its lock: the publish, then the mark, if it is committed. -/
def stepRelay (w : Pipeline) (k : ℕ) (row : OutboxRow) (kept ok marked : Bool) : Option Pipeline :=
  if row.publishedToMq then none
  else some { w with
    messages := publish w.messages (some row.eventId) row.body kept
    outbox := w.outbox.set k { row with
      publishedToMq := ok && marked
      keptRelayed := row.keptRelayed || kept } }

/-- `process_one`: the claim, the handler and the commit. -/
def stepConsume (w : Pipeline) (i : ℕ) (m : Message) (p : RatedPayload) : Option Pipeline :=
  if ∃ eventId ∈ m.messageId, eventId ∈ w.inbox then some w
  else (usageRatedHandler w.lines p).map fun r => { w with
    lines := r.1
    messages := w.messages.set i { m with handled := true }
    inbox := w.inbox ++ m.messageId.toList
    decremented := w.decremented ++ if r.2 then [p.usageEventId] else [] }

/-- A message goes when it is acked. Calls other than usage commit on the lines at any time. -/
def step (w : Pipeline) : Label → Option Pipeline
  | .ingest req reply id kept ok => (ingest req reply id).toOption.bind (w.stepIngest id kept ok)
  | .rate i getOffering kept ok => w.messages[i]?.bind fun m => w.stepRate i m getOffering kept ok
  | .insert j eventId => w.staged[j]?.map fun s =>
    { w with staged := w.staged.eraseIdx j, outbox := w.outbox ++ [s.row eventId] }
  | .abandon j => w.staged[j]?.map fun _ => { w with staged := w.staged.eraseIdx j }
  | .relay k kept ok marked => w.outbox[k]?.bind fun row => w.stepRelay k row kept ok marked
  | .consume i txOk => w.messages[i]?.bind fun m => m.rated.bind fun p =>
    if txOk then w.stepConsume i m p else some w
  | .ack i => w.messages[i]?.map fun _ => { w with messages := w.messages.eraseIdx i }
  | .elsewhere id f =>
    if isUsage f then none
    else some { w with lines := w.lines.update id f.settle f.settle_id }

def idle (lines : Lines) : Pipeline := ⟨lines, [], [], [], [], [], []⟩

end Pipeline

end BssCli.Usage
