import BssCli.Lib.Spend
import BssCli.Lib.Steps
import BssCli.Payment.Attempts
import BssCli.Payment.Signature

/-!
# The webhook of Stripe

`POST /webhooks/stripe`. An event is written down once, by its id, and in the same transaction
it is compared with the attempt that it is about. The attempt is never written.
-/

namespace BssCli.Payment

def provider : String := "stripe"

def terminalChargeEvents : List String := ["charge.succeeded", "charge.failed", "payment_intent.payment_failed"]

def refundEvent : String := "charge.refunded"

def disputeEvent : String := "charge.dispute.created"

def driftEvent : String := "payment.attempt_state_drift"

/-- A row of `integrations.webhook_event`, which other services write as well. -/
structure WebhookEventRow where
  provider : String
  eventId : String
  eventType : String
  body : Json
  signatureValid : Bool
  processedAt : Option Time
  processOutcome : Option String

def WebhookEventRow.key (r : WebhookEventRow) : String × String := (r.provider, r.eventId)

abbrev WebhookEvents := Table WebhookEventRow.key (fun k : String × String => k)

structure WebhookDb extends AttemptDb where
  webhookEvents : WebhookEvents

/-- The row that a query without an order hands out. -/
structure RowChoice (α : Type) where
  pick : List α → Option α
  mem : ∀ {xs x}, pick xs = some x → x ∈ xs
  eq_nil : ∀ {xs}, pick xs = none → xs = []

/-! ## The event store -/

def WebhookEventRow.process (outcome : String) (at_ : Time) (r : WebhookEventRow) : WebhookEventRow :=
  { r with processOutcome := some outcome, processedAt := some at_ }

theorem process_key (outcome : String) (at_ : Time) (r : WebhookEventRow) : (r.process outcome at_).key = r.key := rfl

namespace WebhookDb

/-- `persist_event`, `none` when the id is there. -/
def persistEvent (eventId eventType : String) (body : Json) (db : WebhookDb) : Option WebhookDb :=
  (db.webhookEvents.insert
    { provider, eventId, eventType, body, signatureValid := true, processedAt := none, processOutcome := none }).map
    fun webhookEvents => { db with webhookEvents }

def markProcessed (eventId outcome : String) (now : Time) (db : WebhookDb) : WebhookDb :=
  { db with webhookEvents := db.webhookEvents.update (provider, eventId) (·.process outcome now) (process_key outcome now) }

def stage (staged : Option StagedEvent) (db : WebhookDb) : WebhookDb :=
  { db with events := db.events ++ staged.toList }

def getAttemptByProviderCallId (choice : RowChoice AttemptRecord) (providerCallId : String) (db : WebhookDb) :
    Option AttemptRecord :=
  choice.pick (db.attempts.rows.filter fun r => r.providerCallId = providerCallId)

end WebhookDb

/-! ## The routes -/

section Routes

variable (choice : RowChoice AttemptRecord) (eventType : String) (dataObject : Json) (db : WebhookDb)

def correlationId : Option String := (strAt dataObject "payment_intent").or (strAt dataObject "id")

def expectedStatus : ChargeStatus := if eventType = "charge.succeeded" then .approved else .declined

/-- The attempt that the event is about, as it is stored. -/
def storedAttempt : Option AttemptRecord :=
  (correlationId dataObject).bind fun piId => db.getAttemptByProviderCallId choice piId

def driftOf (piId : String) (attempt : AttemptRecord) : StagedEvent where
  eventType := driftEvent
  aggregateType := "payment_attempt"
  aggregateId := attempt.id
  payload := [("row_status", .str attempt.status.name), ("webhook_status", .str (expectedStatus eventType).name),
    ("stripe_event_type", .str eventType), ("provider_call_id", .str piId)]

def routeTerminalCharge : String × Option StagedEvent :=
  match correlationId dataObject with
  | none => ("noop", none)
  | some piId =>
    match db.getAttemptByProviderCallId choice piId with
    | none => ("noop", none)
    | some attempt =>
      if attempt.status = expectedStatus eventType then ("reconciled", none)
      else ("drift", some (driftOf eventType piId attempt))

def routeRefund : String × Option StagedEvent :=
  match correlationId dataObject with
  | none => ("noop", none)
  | some piId =>
    let amountRefunded := (dataObject.get "amount_refunded").getD (.int 0)
    let attemptId := (db.getAttemptByProviderCallId choice piId).map (·.id)
    let reason := (((((dataObject.get "refunds").bind fun r => r.get "data").bind Json.asArray).bind List.head?).bind
      fun r => r.get "reason").getD .null
    ("reconciled", some
      { eventType := "payment.refunded", aggregateType := "payment_attempt", aggregateId := attemptId.getD piId
        payload := [("provider_call_id", .str piId), ("amount_refunded_minor", amountRefunded),
          ("currency", (dataObject.get "currency").getD .null), ("reason", reason)] })

def routeDispute : String × Option StagedEvent :=
  let chargeId := strAt dataObject "charge"
  let piId := strAt dataObject "payment_intent"
  let disputeId := strAt dataObject "id"
  let attemptId := piId.bind fun pi => (db.getAttemptByProviderCallId choice pi).map (·.id)
  ("reconciled", some
    { eventType := "payment.dispute_opened", aggregateType := "payment_attempt"
      aggregateId := ((attemptId.or disputeId).or chargeId).getD "unknown"
      payload := [("stripe_dispute_id", optStrJson disputeId), ("stripe_charge_id", optStrJson chargeId),
        ("provider_call_id", optStrJson piId), ("amount_minor", (dataObject.get "amount").getD .null),
        ("currency", (dataObject.get "currency").getD .null), ("reason", (dataObject.get "reason").getD .null),
        ("status", (dataObject.get "status").getD .null)] })

def route : String × Option StagedEvent :=
  if eventType ∈ terminalChargeEvents then routeTerminalCharge choice eventType dataObject db
  else if eventType = refundEvent then routeRefund choice dataObject db
  else if eventType = disputeEvent then routeDispute choice dataObject db
  else ("noop", none)

/-- The route has a statement for the database. -/
def routeAsks : Bool :=
  ((eventType ∈ terminalChargeEvents ∨ eventType = refundEvent) ∧ (correlationId dataObject).isSome) ∨
    eventType = disputeEvent

end Routes

/-! ## The handler -/

/-- The statements of the transaction, each of which the database may refuse. -/
inductive Statement
  | begin
  | persist
  | route
  | mark
  | commit

structure Delivery where
  body : List UInt8
  sigHeader : Option (List Char)
  nowUnix : ℤ
  now : Time
  choice : RowChoice AttemptRecord
  fault : Statement → Option String

def Delivery.runs (d : Delivery) (s : Statement) : Except String Unit :=
  match d.fault s with
  | none => .ok ()
  | some m => .error m

/-- A route that asks nothing is not refused. -/
def Delivery.runsRoute (d : Delivery) (eventType : String) (dataObject : Json) : Except String Unit :=
  if routeAsks eventType dataObject then d.runs .route else .ok ()

structure Reply where
  status : ℕ
  body : List (String × Json)

/-- An event that took effect: what it said, the attempt it was compared with, and what it staged. -/
structure Effect where
  eventId : String
  eventType : String
  dataObject : Json
  stored : Option AttemptRecord
  staged : Option StagedEvent

/-- The transaction. `none` when the event was there before. -/
def takeEffect (d : Delivery) (eventId eventType : String) (dataObject payload : Json) (db : WebhookDb) :
    Except String (Option (WebhookDb × Effect)) := do
  d.runs .begin
  d.runs .persist
  match db.persistEvent eventId eventType payload with
  | none => return none
  | some inserted =>
    d.runsRoute eventType dataObject
    let routed := route d.choice eventType dataObject inserted
    d.runs .mark
    d.runs .commit
    return some ((inserted.stage routed.2).markProcessed eventId routed.1 d.now,
      { eventId, eventType, dataObject, stored := storedAttempt d.choice dataObject inserted, staged := routed.2 })

structure Handled where
  reply : Reply
  db : WebhookDb
  effect : Option Effect

def refused (status : ℕ) (code : String) (db : WebhookDb) : Handled :=
  { reply := { status, body := [("code", .str code)] }, db, effect := none }

variable (hmacSha256 : List UInt8 → List UInt8 → List UInt8) (fromSlice : List UInt8 → Option Json)
  (secret : List Char)

def webhookStripe (d : Delivery) (db : WebhookDb) : Handled :=
  if secret = [] then refused 401 "webhook_secret_unset" db
  else
    match verifyStripeSignature hmacSha256 secret d.body d.sigHeader d.nowUnix with
    | .error e => refused 401 e.code db
    | .ok () =>
      match fromSlice d.body with
      | none => refused 400 "malformed_body" db
      | some payload =>
        let eventType := (strAt payload "type").getD "unknown"
        let dataObject := ((payload.get "data").bind fun data => data.get "object").getD .null
        match strAt payload "id" with
        | none => refused 400 "missing_event_id" db
        | some eventId =>
          match takeEffect d eventId eventType dataObject payload db with
          | .error m => { reply := { status := 500, body := [("detail", .str m)] }, db, effect := none }
          | .ok none =>
            { reply := { status := 200, body := [("received", .bool true), ("deduped", .bool true)] }, db, effect := none }
          | .ok (some (db', effect)) =>
            { reply := { status := 200, body := [("received", .bool true)] }, db := db', effect := some effect }

/-! ## What one delivery does -/

/-- The event is a terminal one and the attempt says something else. -/
def Effect.Disagrees (e : Effect) : Prop :=
  e.eventType ∈ terminalChargeEvents ∧ ∃ attempt, e.stored = some attempt ∧ attempt.status ≠ expectedStatus e.eventType

def Effect.drifts (e : Effect) : Prop := ∃ staged, e.staged = some staged ∧ staged.eventType = driftEvent

theorem routeTerminalCharge_drifts {choice : RowChoice AttemptRecord} {eventType : String} {dataObject : Json}
    {db : WebhookDb} :
    (∃ staged, (routeTerminalCharge choice eventType dataObject db).2 = some staged ∧ staged.eventType = driftEvent) ↔
      ∃ attempt, storedAttempt choice dataObject db = some attempt ∧ attempt.status ≠ expectedStatus eventType := by
  unfold routeTerminalCharge storedAttempt
  cases correlationId dataObject with
  | none => simp
  | some piId =>
    rw [Option.bind_some]
    dsimp only
    cases db.getAttemptByProviderCallId choice piId with
    | none => simp
    | some attempt =>
      by_cases hstatus : attempt.status = expectedStatus eventType
      · simp [hstatus]
      · simp [hstatus, driftOf]

theorem route_drifts {choice : RowChoice AttemptRecord} {eventType : String} {dataObject : Json} {db : WebhookDb} :
    (∃ staged, (route choice eventType dataObject db).2 = some staged ∧ staged.eventType = driftEvent) ↔
      eventType ∈ terminalChargeEvents ∧
        ∃ attempt, storedAttempt choice dataObject db = some attempt ∧ attempt.status ≠ expectedStatus eventType := by
  unfold route
  split
  · rename_i hterminal
    rw [routeTerminalCharge_drifts, and_iff_right hterminal]
  · rename_i hterminal
    refine iff_of_false ?_ fun h => hterminal h.1
    rintro ⟨staged, hstaged, hdrift⟩
    split at hstaged
    · unfold routeRefund at hstaged
      split at hstaged
      · cases hstaged
      · cases hstaged
        exact absurd hdrift (show "payment.refunded" ≠ driftEvent by decide)
    · split at hstaged
      · cases hstaged
        exact absurd hdrift (show "payment.dispute_opened" ≠ driftEvent by decide)
      · cases hstaged

/-- What the event says about the row it was compared with. -/
def Effect.FoundIn (e : Effect) (attempts : List AttemptRecord) : Prop :=
  match e.stored with
  | some attempt => attempt ∈ attempts ∧ correlationId e.dataObject = some attempt.providerCallId
  | none => ∀ attempt ∈ attempts, correlationId e.dataObject ≠ some attempt.providerCallId

theorem storedAttempt_some {choice : RowChoice AttemptRecord} {dataObject : Json} {db : WebhookDb}
    {attempt : AttemptRecord} (h : storedAttempt choice dataObject db = some attempt) :
    attempt ∈ db.attempts.rows ∧ correlationId dataObject = some attempt.providerCallId := by
  obtain ⟨piId, hpi, hpick⟩ := Option.bind_eq_some_iff.mp h
  obtain ⟨hmem, hid⟩ := List.mem_filter.mp (choice.mem hpick)
  rw [hpi, of_decide_eq_true hid]
  exact ⟨hmem, rfl⟩

theorem storedAttempt_none {choice : RowChoice AttemptRecord} {dataObject : Json} {db : WebhookDb}
    (h : storedAttempt choice dataObject db = none) {attempt : AttemptRecord} (hmem : attempt ∈ db.attempts.rows) :
    correlationId dataObject ≠ some attempt.providerCallId := by
  intro hpi
  rw [storedAttempt, hpi, Option.bind_some] at h
  have hrow := choice.eq_nil h
  have hfilter : attempt ∈ db.attempts.rows.filter fun r => r.providerCallId = attempt.providerCallId :=
    List.mem_filter.mpr ⟨hmem, decide_eq_true rfl⟩
  rw [hrow] at hfilter
  cases hfilter

def WebhookDb.Has (db : WebhookDb) (eventId : String) : Prop := (provider, eventId) ∈ db.webhookEvents.rows.map (·.key)

structure Effect.Of (db db' : WebhookDb) (e : Effect) : Prop where
  new : ¬ db.Has e.eventId
  written : db'.Has e.eventId
  keeps : ∀ eventId, db.Has eventId → db'.Has eventId
  attempts : db'.attempts = db.attempts
  events : db'.events = db.events ++ e.staged.toList
  found : e.FoundIn db.attempts.rows
  drifts : e.drifts ↔ e.Disagrees

theorem persistEvent_eq_some {db inserted : WebhookDb} {eventId eventType : String} {payload : Json}
    (h : db.persistEvent eventId eventType payload = some inserted) :
    ¬ db.Has eventId ∧ inserted.toAttemptDb = db.toAttemptDb ∧
      ∀ id, inserted.Has id ↔ db.Has id ∨ id = eventId := by
  obtain ⟨events, hinsert, rfl⟩ := Option.map_eq_some_iff.mp h
  obtain ⟨hrows, hnone⟩ := Table.rows_insert hinsert
  refine ⟨(Table.find_eq_none _).mp hnone, rfl, fun id => ?_⟩
  unfold WebhookDb.Has
  dsimp only
  rw [hrows, List.map_append, List.mem_append]
  simp [WebhookEventRow.key]

theorem markProcessed_has {db : WebhookDb} {eventId outcome : String} {now : Time} (id : String) :
    (db.markProcessed eventId outcome now).Has id ↔ db.Has id := by
  unfold WebhookDb.Has WebhookDb.markProcessed
  rw [Table.keys_update]

theorem takeEffect_eq_ok {d : Delivery} {eventId eventType : String} {dataObject payload : Json} {db db' : WebhookDb}
    {e : Effect} (h : takeEffect d eventId eventType dataObject payload db = .ok (some (db', e))) :
    e.eventId = eventId ∧ e.Of db db' := by
  unfold takeEffect at h
  obtain ⟨_, -, h⟩ := bind_eq_ok.mp h
  obtain ⟨_, -, h⟩ := bind_eq_ok.mp h
  split at h
  · cases h
  · rename_i inserted hpersist
    obtain ⟨_, -, h⟩ := bind_eq_ok.mp h
    obtain ⟨_, -, h⟩ := bind_eq_ok.mp h
    obtain ⟨_, -, h⟩ := bind_eq_ok.mp h
    cases h
    obtain ⟨hnew, hsame, hhas⟩ := persistEvent_eq_some hpersist
    have hattempts : inserted.attempts = db.attempts := congrArg AttemptDb.attempts hsame
    refine ⟨rfl, hnew, ?_, fun id hid => ?_, hattempts, ?_, ?_, route_drifts⟩
    · exact (markProcessed_has _).mpr ((hhas _).mpr (.inr rfl))
    · exact (markProcessed_has _).mpr ((hhas _).mpr (.inl hid))
    · exact congrArg (· ++ _) (congrArg AttemptDb.events hsame)
    · unfold Effect.FoundIn
      rw [← hattempts]
      split
      · rename_i attempt hstored
        exact storedAttempt_some hstored
      · rename_i hstored
        exact fun attempt hmem => storedAttempt_none hstored hmem

theorem webhookStripe_cases (d : Delivery) (db : WebhookDb) :
    ((webhookStripe hmacSha256 fromSlice secret d db).effect = none ∧
        (webhookStripe hmacSha256 fromSlice secret d db).db = db) ∨
      ∃ e, (webhookStripe hmacSha256 fromSlice secret d db).effect = some e ∧
        e.Of db (webhookStripe hmacSha256 fromSlice secret d db).db := by
  unfold webhookStripe
  split
  · exact .inl ⟨rfl, rfl⟩
  split
  · exact .inl ⟨rfl, rfl⟩
  split
  · exact .inl ⟨rfl, rfl⟩
  dsimp only
  split
  · exact .inl ⟨rfl, rfl⟩
  split
  · exact .inl ⟨rfl, rfl⟩
  · exact .inl ⟨rfl, rfl⟩
  · rename_i db' e heffect
    exact .inr ⟨e, rfl, (takeEffect_eq_ok heffect).2⟩

theorem webhookStripe_attempts (d : Delivery) (db : WebhookDb) :
    (webhookStripe hmacSha256 fromSlice secret d db).db.attempts = db.attempts := by
  rcases webhookStripe_cases hmacSha256 fromSlice secret d db with ⟨-, hdb⟩ | ⟨e, -, hof⟩
  · rw [hdb]
  · exact hof.attempts

/-! ## Runs -/

open Steps

structure LedgerWorld where
  db : WebhookDb
  effects : List Effect

/-- `foreign` is an event that another service writes down, for a provider of its own. -/
inductive LedgerAction
  | charge (env : ChargeEnv) (req : ChargeRequest)
  | deliver (d : Delivery)
  | foreign (row : WebhookEventRow)

def LedgerWorld.step (w : LedgerWorld) : LedgerAction → Option LedgerWorld
  | .charge env req => some { w with db := { w.db with toAttemptDb := (charge env req w.db.toAttemptDb).db } }
  | .deliver d =>
    let handled := webhookStripe hmacSha256 fromSlice secret d w.db
    some { db := handled.db, effects := w.effects ++ handled.effect.toList }
  | .foreign row =>
    if row.provider = provider then none
    else (w.db.webhookEvents.insert row).map fun webhookEvents => { w with db := { w.db with webhookEvents } }

def drifts (events : List StagedEvent) : List StagedEvent := events.filter fun e => e.eventType = driftEvent

theorem drifts_append (xs ys : List StagedEvent) : drifts (xs ++ ys) = drifts xs ++ drifts ys := List.filter_append ..

theorem drifts_other {e : StagedEvent} (h : e.eventType ≠ driftEvent) : drifts [e] = [] := by
  simp [drifts, h]

theorem charge_db (env : ChargeEnv) (req : ChargeRequest) (db : AttemptDb) :
    db.attempts.rows <+: (charge env req db).db.attempts.rows ∧ drifts (charge env req db).db.events = drifts db.events := by
  unfold charge
  split
  · exact ⟨List.prefix_rfl, rfl⟩
  dsimp only
  split
  · exact ⟨List.prefix_rfl, rfl⟩
  split
  · exact ⟨List.prefix_rfl, rfl⟩
  · rename_i r _ _ db' hinsert
    unfold AttemptDb.insertAttempt at hinsert
    obtain ⟨stored, -, hinsert⟩ := bind_eq_ok.mp hinsert
    split at hinsert
    · rename_i attempts hrows
      cases hinsert
      refine ⟨?_, ?_⟩
      · rw [AttemptDb.stage]
        dsimp only
        rw [(Table.rows_insert hrows).1]
        exact List.prefix_append _ _
      · have hcharged : eventTypeForStatus r.status ≠ driftEvent := by
          cases r.status <;> decide
        rw [AttemptDb.stage]
        dsimp only
        rw [drifts_append, drifts_other hcharged, List.append_nil]
        rfl
    · cases hinsert

/-- What holds after every run from `db`. -/
structure LedgerInv (db : WebhookDb) (w : LedgerWorld) : Prop where
  spent : Spend.Inv w.db.Has (w.effects.map (·.eventId))
  before : ∀ eventId, db.Has eventId → w.db.Has eventId
  new : ∀ e ∈ w.effects, ¬ db.Has e.eventId
  kept : db.attempts.rows <+: w.db.attempts.rows
  found : ∀ e ∈ w.effects, ∃ rows, rows <+: w.db.attempts.rows ∧ e.FoundIn rows
  exact : ∀ e ∈ w.effects, e.drifts ↔ e.Disagrees
  staged : drifts w.db.events = drifts db.events ++ w.effects.flatMap fun e => drifts e.staged.toList

theorem ledger_start (db : WebhookDb) : LedgerInv db ⟨db, []⟩ where
  spent := Spend.inv_nil _
  before := fun _ h => h
  new := by simp
  kept := List.prefix_rfl
  found := by simp
  exact := by simp
  staged := by simp

variable {hmacSha256 fromSlice secret}

theorem ledger_deliver {db : WebhookDb} {w : LedgerWorld} {db' : WebhookDb} {e : Effect} (hi : LedgerInv db w)
    (h : e.Of w.db db') : LedgerInv db ⟨db', w.effects ++ [e]⟩ := by
  constructor
  · rw [List.map_append]
    refine hi.spent.append h.keeps (List.nodup_singleton _) ?_
    intro eventId hid
    obtain rfl := List.mem_singleton.mp hid
    exact ⟨h.new, h.written⟩
  · exact fun eventId hid => h.keeps _ (hi.before _ hid)
  · intro e' he'
    rcases List.mem_append.mp he' with he' | he'
    · exact hi.new e' he'
    · obtain rfl := List.mem_singleton.mp he'
      exact fun hid => h.new (hi.before _ hid)
  · rw [h.attempts]
    exact hi.kept
  · intro e' he'
    rw [h.attempts]
    rcases List.mem_append.mp he' with he' | he'
    · exact hi.found e' he'
    · obtain rfl := List.mem_singleton.mp he'
      exact ⟨_, List.prefix_rfl, h.found⟩
  · intro e' he'
    rcases List.mem_append.mp he' with he' | he'
    · exact hi.exact e' he'
    · obtain rfl := List.mem_singleton.mp he'
      exact h.drifts
  · rw [h.events, drifts_append, hi.staged, List.flatMap_append, List.append_assoc]
    simp

theorem ledger_step {db : WebhookDb} {w w' : LedgerWorld} {a : LedgerAction} (hi : LedgerInv db w)
    (h : w.step hmacSha256 fromSlice secret a = some w') : LedgerInv db w' := by
  cases a with
  | charge env req =>
    cases h
    obtain ⟨hrows, hevents⟩ := charge_db env req w.db.toAttemptDb
    refine ⟨hi.spent, hi.before, hi.new, hi.kept.trans hrows, fun e he => ?_, hi.exact, hevents.trans hi.staged⟩
    obtain ⟨rows, hpre, hfound⟩ := hi.found e he
    exact ⟨rows, hpre.trans hrows, hfound⟩
  | deliver d =>
    cases h
    rcases webhookStripe_cases hmacSha256 fromSlice secret d w.db with ⟨heffect, hdb⟩ | ⟨e, heffect, hof⟩
    · rw [heffect, hdb, Option.toList_none, List.append_nil]
      exact hi
    · rw [heffect]
      exact ledger_deliver hi hof
  | foreign row =>
    unfold LedgerWorld.step at h
    dsimp only at h
    split at h
    · cases h
    · obtain ⟨events, hinsert, rfl⟩ := Option.map_eq_some_iff.mp h
      have hkeeps : ∀ eventId, w.db.Has eventId → { w.db with webhookEvents := events : WebhookDb }.Has eventId := by
        intro eventId hid
        unfold WebhookDb.Has
        rw [(Table.rows_insert hinsert).1, List.map_append]
        exact List.mem_append_left _ hid
      exact ⟨hi.spent.mono hkeeps, fun _ hid => hkeeps _ (hi.before _ hid), hi.new, hi.kept, hi.found, hi.exact, hi.staged⟩

theorem head?_eq_nil {α : Type} {xs : List α} (h : xs.head? = none) : xs = [] := List.head?_eq_none_iff.mp h

def firstRow : RowChoice AttemptRecord := ⟨List.head?, List.mem_of_mem_head?, head?_eq_nil⟩

def noFault (_ : Statement) : Option String := none

def sampleDigest (key msg : List UInt8) : List UInt8 := key ++ msg

/-- Two failures of the charge `pi_1`, each the body of one byte. -/
def samplePayload (eventId : String) : Json :=
  .obj [("id", .str eventId), ("type", .str "charge.failed"), ("data", .obj [("object", .obj [("id", .str "pi_1")])])]

def sampleParse (body : List UInt8) : Option Json :=
  if body = [1] then some (samplePayload "evt_1") else if body = [2] then some (samplePayload "evt_2") else none

def sampleDelivery (body : List UInt8) : Delivery where
  body := body
  sigHeader := some (Webhooks.stripeHeader ['7'] (Webhooks.expectedHex sampleDigest ['k'] body ['7']))
  nowUnix := 7
  now := 0
  choice := firstRow
  fault := noFault

def emptyLedger : WebhookDb := { noAttempts with webhookEvents := .empty }

def sampleActions : List LedgerAction :=
  [.deliver (sampleDelivery [1]), .charge sampleEnv (sampleCharge 25 "25.00"), .deliver (sampleDelivery [1]),
    .deliver (sampleDelivery [2]), .deliver (sampleDelivery [2])]

def sampleLedger : LedgerWorld :=
  (exec (LedgerWorld.step sampleDigest sampleParse ['k']) ⟨emptyLedger, []⟩ sampleActions).get (by rfl)

theorem sampleLedger_run :
    exec (LedgerWorld.step sampleDigest sampleParse ['k']) ⟨emptyLedger, []⟩ sampleActions = some sampleLedger :=
  (Option.some_get _).symm

end BssCli.Payment
