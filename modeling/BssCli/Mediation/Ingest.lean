import BssCli.Mediation.Domain
import BssCli.Payment.Attempts

/-!
# `ingest` and the database

The event is published inside the transaction of its row, before the audit row is inserted
and before the commit. Any of the calls on the way may fail.
-/

namespace BssCli.Mediation.Ingest

/-- The body of the request, with what only the row and the payload keep. -/
structure Request extends IngestRequest where
  eventTime : Time
  source : Option String
  rawCdrRef : Option String

structure UsageEventRow where
  id : String
  msisdn : String
  subscriptionId : Option String
  eventType : String
  eventTime : Time
  quantity : I64
  unit : String
  source : Option String
  rawCdrRef : Option String
  processed : Bool
  processingError : Option String
  roamingIndicator : Bool
  tenantId : String
  deriving DecidableEq

structure RecordedBody extends RecordedPayload where
  eventTime : Time
  source : Option String
  rawCdrRef : Option String
  deriving DecidableEq

structure RejectedBody where
  msisdn : String
  subscriptionId : Option String
  state : Option String
  eventType : String
  eventTime : Time
  quantity : I64
  unit : String
  source : Option String
  rawCdrRef : Option String
  reason : String
  rejectedAt : Time
  deriving DecidableEq

/-- A payload, with the routing key it is published under. -/
inductive Payload
  | recorded (body : RecordedBody)
  | rejected (body : RejectedBody)
  deriving DecidableEq

def Payload.eventType : Payload → String
  | .recorded _ => "usage.recorded"
  | .rejected _ => "usage.rejected"

structure AuditRow where
  aggregateType : String
  aggregateId : String
  payload : Payload
  publishedToMq : Bool
  deriving DecidableEq

/-- A sequence keeps its value when a transaction is rolled back. -/
structure Db where
  usageEventIdSeq : ℕ
  usageEvents : List UsageEventRow
  audit : List AuditRow
  deriving DecidableEq

/-- What a `COMMIT` comes to. It may be carried out and its reply be lost. -/
inductive CommitReply
  | committed
  | rolledBack
  | lost
  deriving DecidableEq

/-- What becomes of each call that an ingest makes. It opens one transaction at most. -/
structure Calls where
  reply : Except ClientError LineDoc
  now : Time
  begun : Bool
  nextId : Bool
  inserted : Bool
  /-- There is a channel, the broker keeps the message, and the confirm comes back. -/
  mq : Bool
  kept : Bool
  confirmed : Bool
  audited : Bool
  commit : CommitReply

/-- What an ingest leaves stored, what the broker has kept of it, and what it returns. -/
structure Outcome where
  db : Db
  sent : List Payload
  result : Except ApiError UsageEventRow

/-! ## The call -/

def usageEventId (seq : ℕ) : String := "UE-" ++ Payment.pad6 seq

def usageEventRow (req : Request) (sub : LineDoc) (id tenantId : String) : UsageEventRow :=
  ⟨id, req.msisdn, sub.id, req.eventType, req.eventTime, req.quantity, req.unit, req.source,
    req.rawCdrRef, false, none, req.roamingIndicator, tenantId⟩

def recordedBody (req : Request) (sub : LineDoc) (id : String) : RecordedBody :=
  ⟨usageRecordedPayload req.toIngestRequest sub id, req.eventTime, req.source, req.rawCdrRef⟩

def rejectionPayload (req : Request) (subscriptionId state : Option String) (reason : String)
    (now : Time) : RejectedBody :=
  ⟨req.msisdn, subscriptionId, state, req.eventType, req.eventTime, req.quantity, req.unit,
    req.source, req.rawCdrRef, reason, now⟩

/-- The publish of `stage_publish_audit`: what the broker has of it. -/
def published (calls : Calls) (payload : Payload) : List Payload :=
  if calls.mq && calls.kept then [payload] else []

/-- Its `INSERT`, with the flag of the publish. -/
def auditRow (calls : Calls) (aggregateId : String) (payload : Payload) : AuditRow :=
  ⟨"usage", aggregateId, payload, calls.mq && calls.confirmed⟩

/-- The end of a transaction that has written `db'`. -/
def commit (calls : Calls) (db db' : Db) : Db :=
  match calls.commit with
  | .committed | .lost => db'
  | .rolledBack => db

/-- `record_rejection`. A failure of its own is only logged. -/
def recordRejection (calls : Calls) (req : Request) (subscriptionId state : Option String)
    (v : PolicyViolation) (db : Db) : Outcome :=
  let payload := .rejected (rejectionPayload req subscriptionId state v.rule calls.now)
  let result := .error (.policy v)
  if !calls.begun then ⟨db, [], result⟩
  else if !calls.audited then ⟨db, published calls payload, result⟩
  else
    let row := auditRow calls (subscriptionId.getD req.msisdn) payload
    ⟨commit calls db { db with audit := db.audit ++ [row] }, published calls payload, result⟩

/-- From `begin` to the end. -/
def persist (calls : Calls) (req : Request) (sub : LineDoc) (tenantId : String) (db : Db) : Outcome :=
  if !calls.begun then ⟨db, [], .error .upstream⟩
  else if !calls.nextId then ⟨db, [], .error .upstream⟩
  else
    let id := usageEventId (db.usageEventIdSeq + 1)
    let db := { db with usageEventIdSeq := db.usageEventIdSeq + 1 }
    -- The primary key of the table refuses an id that is there.
    if !calls.inserted ∨ ∃ row ∈ db.usageEvents, row.id = id then ⟨db, [], .error .upstream⟩
    else
      let row := usageEventRow req sub id tenantId
      let payload := .recorded (recordedBody req sub id)
      if !calls.audited then ⟨db, published calls payload, .error .upstream⟩
      else
        let db' := { db with
          usageEvents := db.usageEvents ++ [row]
          audit := db.audit ++ [auditRow calls id payload] }
        ⟨commit calls db db', published calls payload,
          if calls.commit = .committed then .ok row else .error .upstream⟩

def ingest (calls : Calls) (req : Request) (tenantId : String) (db : Db) : Outcome :=
  match checkPositiveQuantity req.quantity with
  | .error e => ⟨db, [], .error e⟩
  | .ok () =>
    match checkValidEventType req.eventType with
    | .error e => ⟨db, [], .error e⟩
    | .ok () =>
      match calls.reply with
      | .error (.notFound _) => recordRejection calls req none none (subscriptionNotFound req.msisdn) db
      | .error _ => ⟨db, [], .error .upstream⟩
      | .ok sub =>
        match checkMsisdnMatches sub req.msisdn with
        | .error e => ⟨db, [], .error e⟩
        | .ok () =>
          match checkSubscriptionActive sub with
          | .error (.policy v) => recordRejection calls req sub.id sub.state v db
          | .error e => ⟨db, [], .error e⟩
          | .ok () => persist calls req sub tenantId db

/-! ## What it comes to -/

/-- A `usage.recorded` is out only with its row, and an error leaves neither. -/
structure Atomic (db : Db) (out : Outcome) : Prop where
  published : ∀ body, .recorded body ∈ out.sent →
    ∃ row ∈ out.db.usageEvents, row.id = body.usageEventId
  failed : ∀ e, out.result = .error e →
    out.db.usageEvents = db.usageEvents ∧ ∀ body, .recorded body ∉ out.sent

/-- The request passes every policy, and the row is inserted. -/
structure Publishes (calls : Calls) (req : Request) (db : Db) : Prop where
  quantity : 0 < req.quantity.val
  eventType : req.eventType ∈ validEventTypes
  line : ∃ sub, calls.reply = .ok sub ∧ sub.msisdn = some req.msisdn ∧ sub.state = some "active"
  inserted : calls.begun = true ∧ calls.nextId = true ∧ calls.inserted = true
  fresh : ∀ row ∈ db.usageEvents, row.id ≠ usageEventId (db.usageEventIdSeq + 1)

/-- The broker has the event only when the rest goes well, and no commit loses its reply. -/
def RestGoesWell (calls : Calls) : Prop :=
  ((calls.mq && calls.kept) = true → calls.audited = true ∧ calls.commit = .committed) ∧
    (calls.audited = true → calls.commit ≠ .lost)

section

variable {calls : Calls} {req : Request} {tenantId : String} {db : Db}

/-- Nothing was recorded: an error, with the events of the table as they were. -/
def Refused (db : Db) (out : Outcome) : Prop :=
  out.db.usageEvents = db.usageEvents ∧ (∀ body, .recorded body ∉ out.sent) ∧
    ∃ e, out.result = .error e

theorem Refused.atomic {out : Outcome} (h : Refused db out) : Atomic db out :=
  ⟨fun body hbody => absurd hbody (h.2.1 body), fun _ _ => ⟨h.1, h.2.1⟩⟩

theorem refused_of_error (e : ApiError) : Refused db ⟨db, [], .error e⟩ :=
  ⟨rfl, fun _ => List.not_mem_nil, e, rfl⟩

theorem recordRejection_refused (subscriptionId state : Option String) (v : PolicyViolation) :
    Refused db (recordRejection calls req subscriptionId state v db) := by
  have hsent : ∀ (body : RecordedBody) (r : RejectedBody), .recorded body ∉ published calls (.rejected r) := by
    intro body r
    unfold published
    split <;> simp
  unfold recordRejection
  simp only
  split
  · exact refused_of_error _
  · split
    · exact ⟨rfl, fun body => hsent body _, _, rfl⟩
    · refine ⟨?_, fun body => hsent body _, _, rfl⟩
      unfold commit
      split <;> rfl

theorem ingest_cases (calls : Calls) (req : Request) (tenantId : String) (db : Db) :
    (Refused db (ingest calls req tenantId db) ∧ ¬ Publishes calls req db) ∨
      (0 < req.quantity.val ∧ req.eventType ∈ validEventTypes ∧ ∃ sub, calls.reply = .ok sub ∧
        sub.msisdn = some req.msisdn ∧ sub.state = some "active" ∧
        ingest calls req tenantId db = persist calls req sub tenantId db) := by
  unfold ingest
  split
  · rename_i e h
    refine Or.inl ⟨refused_of_error e, fun hp => ?_⟩
    rw [checkPositiveQuantity, check_eq_ok.mpr hp.quantity] at h
    cases h
  · rename_i hq
    split
    · rename_i e h
      refine Or.inl ⟨refused_of_error e, fun hp => ?_⟩
      rw [checkValidEventType, check_eq_ok.mpr hp.eventType] at h
      cases h
    · rename_i hty
      split
      · rename_i hreply
        refine Or.inl ⟨recordRejection_refused none none _, fun hp => ?_⟩
        obtain ⟨sub, hsub, -⟩ := hp.line
        rw [hsub] at hreply
        cases hreply
      · rename_i hreply
        refine Or.inl ⟨refused_of_error _, fun hp => ?_⟩
        obtain ⟨sub, hsub, -⟩ := hp.line
        rw [hsub] at hreply
        cases hreply
      · rename_i sub hsub
        -- The line that the policies look at is the one of the reply.
        have hline : Publishes calls req db → sub.msisdn = some req.msisdn ∧ sub.state = some "active" := by
          intro hp
          obtain ⟨sub', hsub', hline⟩ := hp.line
          rw [hsub, Except.ok.injEq] at hsub'
          exact hsub' ▸ hline
        split
        · rename_i e h
          refine Or.inl ⟨refused_of_error e, fun hp => ?_⟩
          rw [checkMsisdnMatches, check_eq_ok.mpr (hline hp).1] at h
          cases h
        · rename_i hmsisdn
          split
          · rename_i v h
            refine Or.inl ⟨recordRejection_refused _ _ v, fun hp => ?_⟩
            rw [checkSubscriptionActive, check_eq_ok.mpr (hline hp).2] at h
            cases h
          · rename_i e _ h
            refine Or.inl ⟨refused_of_error e, fun hp => ?_⟩
            rw [checkSubscriptionActive, check_eq_ok.mpr (hline hp).2] at h
            cases h
          · rename_i hactive
            exact Or.inr ⟨check_eq_ok.mp hq, check_eq_ok.mp hty, sub, hsub, check_eq_ok.mp hmsisdn,
              check_eq_ok.mp hactive, rfl⟩

theorem published_recorded {body : RecordedBody} :
    (∃ b, .recorded b ∈ published calls (.recorded body)) ↔ (calls.mq && calls.kept) = true := by
  unfold published
  split
  · rename_i h
    simp [h]
  · rename_i h
    simp [h]

theorem atomic_error_iff {db' : Db} {body : RecordedBody} {e : ApiError} :
    Atomic db ⟨db', published calls (.recorded body), .error e⟩ ↔
      db'.usageEvents = db.usageEvents ∧ ¬ (calls.mq && calls.kept) = true := by
  constructor
  · intro h
    refine ⟨(h.failed e rfl).1, fun hkept => ?_⟩
    obtain ⟨b, hb⟩ : ∃ b, .recorded b ∈ published calls (.recorded body) := published_recorded.mpr hkept
    exact (h.failed e rfl).2 b hb
  · rintro ⟨hrows, hkept⟩
    exact Refused.atomic ⟨hrows, fun b hb => hkept (published_recorded.mp ⟨b, hb⟩), e, rfl⟩

/-- The transaction that has inserted its row, with the publish behind it. -/
theorem persist_atomic_iff {sub : LineDoc}
    (hinserted : calls.begun = true ∧ calls.nextId = true ∧ calls.inserted = true)
    (hfresh : ∀ row ∈ db.usageEvents, row.id ≠ usageEventId (db.usageEventIdSeq + 1)) :
    Atomic db (persist calls req sub tenantId db) ↔ RestGoesWell calls := by
  obtain ⟨hbegun, hnext, hins⟩ := hinserted
  have hnot : ¬ (!calls.inserted ∨ ∃ row ∈ db.usageEvents, row.id = usageEventId (db.usageEventIdSeq + 1)) := by
    rintro (h | ⟨row, hrow, hid⟩)
    · simp [hins] at h
    · exact hfresh row hrow hid
  unfold persist RestGoesWell
  simp only [hbegun, hnext, Bool.not_true, Bool.false_eq_true, if_false, hnot]
  by_cases haudited : calls.audited = true
  · simp only [haudited, Bool.not_true, Bool.false_eq_true, if_false, true_and, true_imp_iff]
    cases hcommit : calls.commit with
    | committed =>
      refine iff_of_true
        ⟨fun body hbody =>
          ⟨usageEventRow req sub (usageEventId (db.usageEventIdSeq + 1)) tenantId, ?_, ?_⟩, nofun⟩ (by simp)
      · simp only [commit, hcommit]
        exact List.mem_append_right _ (List.mem_singleton_self _)
      · unfold published at hbody
        split at hbody
        · simp only [List.mem_singleton, Payload.recorded.injEq] at hbody
          rw [hbody]
          rfl
        · simp at hbody
    | rolledBack =>
      simp only [commit, hcommit, reduceCtorEq, if_false, atomic_error_iff]
      simp
    | lost =>
      simp only [commit, hcommit, reduceCtorEq, if_false, atomic_error_iff]
      simp
  · rw [Bool.not_eq_true] at haudited
    simp only [haudited, Bool.not_false, if_true, atomic_error_iff]
    simp

theorem persist_refused {sub : LineDoc}
    (h : (calls.begun = true ∧ calls.nextId = true ∧ calls.inserted = true) →
      ∃ row ∈ db.usageEvents, row.id = usageEventId (db.usageEventIdSeq + 1)) :
    Refused db (persist calls req sub tenantId db) := by
  unfold persist
  split
  · exact refused_of_error _
  · split
    · exact refused_of_error _
    · rename_i hbegun hnext
      have htaken : !calls.inserted ∨
          ∃ row ∈ db.usageEvents, row.id = usageEventId (db.usageEventIdSeq + 1) := by
        by_cases hins : calls.inserted = true
        · exact Or.inr (h ⟨by simpa using hbegun, by simpa using hnext, hins⟩)
        · exact Or.inl (by simpa using hins)
      simp only [htaken, if_true]
      exact ⟨rfl, fun _ => List.not_mem_nil, _, rfl⟩

theorem persist_sent {sub : LineDoc} {body : RecordedBody}
    (h : .recorded body ∈ (persist calls req sub tenantId db).sent) : ∃ id, body = recordedBody req sub id := by
  have hpub : ∀ b, .recorded body ∈ published calls (.recorded b) → body = b := by
    intro b hb
    unfold published at hb
    split at hb
    · simpa using hb
    · simp at hb
  unfold persist at h
  split at h
  · simp at h
  · split at h
    · simp at h
    · simp only at h
      split at h
      · simp at h
      · split at h
        · exact ⟨_, hpub _ h⟩
        · exact ⟨_, hpub _ h⟩

/-- What is published has passed the policies, and is the payload of `Mediation.ingest`. -/
theorem ingest_sent {body : RecordedBody} (h : .recorded body ∈ (ingest calls req tenantId db).sent) :
    Mediation.ingest req.toIngestRequest calls.reply body.usageEventId = .ok body.toRecordedPayload := by
  rcases ingest_cases calls req tenantId db with ⟨hrefused, -⟩ | ⟨hq, hty, sub, hsub, hmsisdn, hactive, heq⟩
  · exact absurd h (hrefused.2.1 body)
  · rw [heq] at h
    obtain ⟨id, rfl⟩ := persist_sent h
    have h₁ : checkPositiveQuantity req.quantity = .ok () := check_eq_ok.mpr hq
    have h₂ : checkValidEventType req.eventType = .ok () := check_eq_ok.mpr hty
    have h₃ : checkMsisdnMatches sub req.msisdn = .ok () := check_eq_ok.mpr hmsisdn
    have h₄ : checkSubscriptionActive sub = .ok () := check_eq_ok.mpr hactive
    unfold Mediation.ingest
    simp only [h₁, h₂, hsub, h₃, h₄, bind, Except.bind]
    rfl

end

/-- **What an ingest leaves behind.** Its event is out only with its row, and an error leaves
neither, exactly when a row that was inserted is followed by a publish that the broker does
not keep, or by an audit insert and a commit that both go through, and its commit never goes
through without a reply. -/
theorem ingest_atomic_iff (calls : Calls) (req : Request) (tenantId : String) (db : Db) :
    Atomic db (ingest calls req tenantId db) ↔ (Publishes calls req db → RestGoesWell calls) := by
  rcases ingest_cases calls req tenantId db with ⟨hrefused, hnot⟩ | ⟨hq, hty, sub, hsub, hmsisdn, hactive, heq⟩
  · exact iff_of_true hrefused.atomic fun h => absurd h hnot
  · rw [heq]
    by_cases hpub : Publishes calls req db
    · simp only [hpub, true_imp_iff]
      exact persist_atomic_iff hpub.inserted hpub.fresh
    · refine iff_of_true (Refused.atomic (persist_refused fun hins => ?_)) fun h => absurd h hpub
      by_contra hfresh
      refine hpub ⟨hq, hty, ⟨sub, hsub, hmsisdn, hactive⟩, hins, fun row hrow hid => ?_⟩
      exact hfresh ⟨row, hrow, hid⟩

theorem ten_fits : FitsI64 10 := by decide

def tenMb : Request := ⟨⟨"90000042", "data", ⟨10, ten_fits⟩, "mb", false⟩, 0, none, none⟩

def noUsage : Db := ⟨0, [], []⟩

/-- The line is active, and all calls but those named go well. -/
def calls (audited : Bool) (commit : CommitReply) : Calls :=
  ⟨.ok ⟨some "SUB-0001", some "90000042", some "active", some "PLAN_M"⟩, 0, true, true, true, true, true,
    true, audited, commit⟩

theorem ingest_atomic_iff_committed :
    Atomic noUsage (ingest (calls true .committed) tenMb "DEFAULT" noUsage) :=
  (ingest_atomic_iff ..).mpr fun _ => ⟨fun _ => ⟨rfl, rfl⟩, fun _ => by decide⟩

theorem not_atomic_of_sent {db : Db} {out : Outcome} {e : ApiError} (hresult : out.result = .error e)
    (hsent : out.sent.map Payload.eventType = ["usage.recorded"]) : ¬ Atomic db out := by
  intro h
  obtain ⟨payload, hpayload, hty⟩ := List.mem_map.mp (hsent ▸ List.mem_singleton_self "usage.recorded")
  cases payload with
  | recorded body => exact (h.failed e hresult).2 body hpayload
  | rejected body => exact absurd hty (show "usage.rejected" ≠ "usage.recorded" by decide)

/-- The audit insert fails, or the commit: the event is out and there is no row. -/
theorem published_without_row :
    let unaudited := ingest (calls false .committed) tenMb "DEFAULT" noUsage
    let uncommitted := ingest (calls true .rolledBack) tenMb "DEFAULT" noUsage
    (unaudited.sent.map Payload.eventType = ["usage.recorded"] ∧ unaudited.db.usageEvents = [] ∧
      ¬ Atomic noUsage unaudited) ∧
    uncommitted.sent.map Payload.eventType = ["usage.recorded"] ∧ uncommitted.db.usageEvents = [] ∧
      ¬ Atomic noUsage uncommitted :=
  ⟨⟨rfl, rfl, not_atomic_of_sent (rfl : _ = Except.error ApiError.upstream) rfl⟩, rfl, rfl,
    not_atomic_of_sent (rfl : _ = Except.error ApiError.upstream) rfl⟩

end BssCli.Mediation.Ingest
