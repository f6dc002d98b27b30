import BssCli.Usage.ChargedOnce

/-!
# Which usage gets a verdict

Rating acks every delivery, whatever came of it, and asks for nothing again. So an accepted
usage is rated or rejected when one of its deliveries is good for it, and never otherwise.
-/

namespace BssCli.Usage

open Steps Mediation Rating Subscription

/-- A call of `handle_usage_recorded`. -/
structure RatingCall where
  body : RecordedPayload
  getOffering : String → Except ClientError Tariff
  /-- The broker keeps what it publishes. -/
  kept : Bool
  /-- The database takes the `INSERT` at its end. -/
  dbOk : Bool

namespace RatingCall

def outcome (c : RatingCall) : Except HandleError UsageOutcome := handleUsageRecorded c.body c.getOffering

def Emits (c : RatingCall) (o : UsageOutcome) : Prop := c.outcome = .ok o ∧ (c.kept = true ∨ c.dbOk = true)

theorem emits_iff {c : RatingCall} :
    (∃ o, c.Emits o) ↔ (c.kept = true ∨ c.dbOk = true) ∧ Ratable c.body c.getOffering := by
  rw [← handleUsageRecorded_isOk]
  exact ⟨fun ⟨o, ho, hdb⟩ => ⟨hdb, o, ho⟩, fun ⟨hdb, o, ho⟩ => ⟨o, ho, hdb⟩⟩

end RatingCall

/-- The pipeline, with the calls that were made and the events of theirs that the broker got. -/
structure Metering where
  pipe : Pipeline
  calls : List RatingCall
  sent : List UsageOutcome

namespace Metering

inductive Label
  | rate (i : ℕ) (getOffering : String → Except ClientError Tariff) (kept ok : Bool) (eventId : String) (dbOk : Bool)
  | ack (i : ℕ)
  | pipe (l : Pipeline.Label)

/-- The `INSERT` after the publish. -/
def finish (q : Pipeline) (eventId : String) (dbOk : Bool) : Option Pipeline :=
  q.step (if dbOk then .insert (q.staged.length - 1) eventId else .abandon (q.staged.length - 1))

/-- The delivery of a usage event. An error leaves nothing but a line in the log. -/
def stepRate (w : Metering) (i : ℕ) (p : RecordedPayload) (getOffering : String → Except ClientError Tariff)
    (kept ok : Bool) (eventId : String) (dbOk : Bool) : Option Metering :=
  let calls := w.calls ++ [⟨p, getOffering, kept, dbOk⟩]
  match handleUsageRecorded p getOffering with
  | .error _ => some { w with calls }
  | .ok o => ((w.pipe.step (.rate i getOffering kept ok)).bind fun q => finish q eventId dbOk).map fun pipe =>
    ⟨pipe, calls, w.sent ++ if kept then [o] else []⟩

def recorded (m : Message) : Option RecordedPayload :=
  match m.body with
  | .recorded p => some p
  | .outcome _ => none

/-- The delivery comes before its ack. -/
def stepAck (w : Metering) (i : ℕ) (m : Message) : Option Metering :=
  if ∀ p ∈ recorded m, ∃ c ∈ w.calls, c.body = p then (w.pipe.step (.ack i)).map fun pipe => { w with pipe }
  else none

/-- Everything but the deliveries of rating, and the acks. -/
def stepPipe (w : Metering) (l : Pipeline.Label) : Option Metering :=
  match l with
  | .rate .. | .ack _ => none
  | l => (w.pipe.step l).map fun pipe => { w with pipe }

def step (w : Metering) : Label → Option Metering
  | .rate i getOffering kept ok eventId dbOk => w.pipe.messages[i]?.bind fun m => (recorded m).bind fun p =>
    w.stepRate i p getOffering kept ok eventId dbOk
  | .ack i => w.pipe.messages[i]?.bind (w.stepAck i)
  | .pipe l => w.stepPipe l

def start (lines : Lines) : Metering := ⟨Pipeline.idle lines, [], []⟩

/-- Mediation has accepted the usage, with the row of its event. -/
def Accepted (w : Metering) (p : RecordedPayload) : Prop := ∃ row ∈ w.pipe.outbox, row.body = .recorded p

/-- A `usage.rated` or `usage.rejected` is out, with its row or from the broker. -/
def Emitted (w : Metering) (o : UsageOutcome) : Prop := (∃ row ∈ w.pipe.outbox, row.body = .outcome o) ∨ o ∈ w.sent

def Verdict (w : Metering) (p : RecordedPayload) : Prop := ∃ o, w.Emitted o ∧ o.aggregateId = p.usageEventId

/-- The relay has still to publish it. -/
def Waits (w : Metering) (p : RecordedPayload) : Prop :=
  ∃ row ∈ w.pipe.outbox, row.body = .recorded p ∧ row.publishedToMq = false

def Queued (w : Metering) (p : RecordedPayload) : Prop := ∃ m ∈ w.pipe.messages, m.body = .recorded p

def Called (w : Metering) (p : RecordedPayload) : Prop := ∃ c ∈ w.calls, c.body = p

/-- The broker keeps what it has accepted. -/
def Keeps (_ : Metering) : Label → Prop
  | .pipe (.ingest _ _ _ kept ok) => ok = true → kept = true
  | .pipe (.relay _ kept ok _) => ok = true → kept = true
  | _ => True

instance (w : Metering) : ∀ l, Decidable (Keeps w l)
  | .pipe (.ingest _ _ _ kept ok) => inferInstanceAs (Decidable (ok = true → kept = true))
  | .pipe (.relay _ kept ok _) => inferInstanceAs (Decidable (ok = true → kept = true))
  | .rate .. | .ack _ | .pipe (.rate ..) | .pipe (.insert ..) | .pipe (.abandon _) | .pipe (.consume ..)
  | .pipe (.ack _) | .pipe (.elsewhere ..) => .isTrue trivial

/-! ## What holds in every state -/

/-- `recs` are the usage events that were drawn, accepted or not. -/
structure Inv (recs : List RecordedPayload) (w : Metering) : Prop where
  drawn : recs.map RecordedPayload.usageEventId = w.pipe.drawn
  nodup : w.pipe.drawn.Nodup
  messages : ∀ m ∈ w.pipe.messages, ∀ p, m.body = .recorded p → p ∈ recs
  staged : ∀ s ∈ w.pipe.staged, ∃ p ∈ recs, s.body = .recorded p ∧ (s.published = true → w.Queued p ∨ w.Called p)
  rows : ∀ row ∈ w.pipe.outbox, ∀ p, row.body = .recorded p →
    p ∈ recs ∧ (row.publishedToMq = true → w.Queued p ∨ w.Called p)
  calls : ∀ c ∈ w.calls, c.body ∈ recs
  verdicts : ∀ o, w.Emitted o → ∃ c ∈ w.calls, c.Emits o
  emitted : ∀ c ∈ w.calls, ∀ o, c.Emits o → w.Emitted o

variable {w w' : Metering} {recs : List RecordedPayload} {i j k : ℕ} {m : Message} {p : RecordedPayload}

theorem Inv.unique (hi : Inv recs w) {q : RecordedPayload} (hp : p ∈ recs) (hq : q ∈ recs)
    (h : p.usageEventId = q.usageEventId) : p = q :=
  List.inj_on_of_nodup_map (hi.drawn ▸ hi.nodup) hp hq h

theorem emitted_append {rows : List OutboxRow} {os : List UsageOutcome} {o : UsageOutcome}
    (hrows : w'.pipe.outbox = w.pipe.outbox ++ rows) (hsent : w'.sent = w.sent ++ os) :
    w'.Emitted o ↔ w.Emitted o ∨ (∃ row ∈ rows, row.body = .outcome o) ∨ o ∈ os := by
  simp only [Emitted, hrows, hsent, List.mem_append, or_and_right, exists_or]
  exact or_or_or_comm

theorem recorded_eq_some : recorded m = some p ↔ m.body = .recorded p := by
  unfold recorded
  split <;> simp_all

section Publish

variable {messageId : Option String} {body : Body} {kept : Bool}

theorem queued_publish (h : w'.pipe.messages = publish w.pipe.messages messageId body kept) (hq : w.Queued p) :
    w'.Queued p := by
  obtain ⟨m, hm, hbody⟩ := hq
  refine ⟨m, ?_, hbody⟩
  rw [h]
  cases kept with
  | false => exact hm
  | true => exact List.mem_append_left _ hm

theorem queued_new (h : w'.pipe.messages = publish w.pipe.messages messageId body kept) (hkept : kept = true)
    (hbody : body = .recorded p) : w'.Queued p := by
  rw [Queued, h, publish, if_pos hkept]
  exact ⟨_, List.mem_append_right _ (List.mem_singleton_self _), hbody⟩

end Publish

theorem inv_of_messages {pipe : Pipeline} (hi : Inv recs w) (hstaged : pipe.staged = w.pipe.staged)
    (houtbox : pipe.outbox = w.pipe.outbox) (hdrawn : pipe.drawn = w.pipe.drawn)
    (hmessages : ∀ m ∈ pipe.messages, ∀ p, m.body = .recorded p → p ∈ recs)
    (hcomes : ∀ p, w.Queued p → Queued { w with pipe } p ∨ w.Called p) : Inv recs { w with pipe } := by
  have hcoming : ∀ p, w.Queued p ∨ w.Called p → Queued { w with pipe } p ∨ w.Called p :=
    fun p h => h.elim (hcomes p) Or.inr
  have hemitted : ∀ o, Emitted { w with pipe } o ↔ w.Emitted o := fun o => by rw [Emitted, Emitted, houtbox]
  refine ⟨hdrawn ▸ hi.drawn, hdrawn ▸ hi.nodup, hmessages, fun s hs => ?_, fun row hrow p hp => ?_, hi.calls,
    fun o ho => hi.verdicts o ((hemitted o).mp ho), fun c hc o ho => (hemitted o).mpr (hi.emitted c hc o ho)⟩
  · obtain ⟨p, hp, hbody, hpublished⟩ := hi.staged s (hstaged ▸ hs)
    exact ⟨p, hp, hbody, fun h => hcoming p (hpublished h)⟩
  · obtain ⟨hp, hpublished⟩ := hi.rows row (houtbox ▸ hrow) p hp
    exact ⟨hp, fun h => hcoming p (hpublished h)⟩

/-! ## Steps -/

theorem ingest_inv {req : IngestRequest} {reply : Except ClientError LineDoc} {id : String} {kept ok : Bool}
    {pipe : Pipeline} (hi : Inv recs w) (hkeeps : ok = true → kept = true) (hp : ingest req reply id = .ok p)
    (h : w.pipe.stepIngest id kept ok p = some pipe) : Inv (recs ++ [p]) { w with pipe } := by
  simp only [Pipeline.stepIngest, Option.ite_none_left_eq_some, Option.some.injEq] at h
  obtain ⟨hfresh, rfl⟩ := h
  have hid : p.usageEventId = id := by
    obtain ⟨-, -, sub, -, -, rfl⟩ := ingest_eq_ok hp
    rfl
  refine ⟨by simp [hi.drawn, hid], ?_, ?_, Pool.forall_concat (fun s hs => ?_) ⟨p, by simp, rfl, fun h => Or.inl ?_⟩,
    fun row hrow q hq => ?_, fun c hc => List.mem_append_left _ (hi.calls c hc), hi.verdicts, hi.emitted⟩
  · refine List.nodup_append.mpr ⟨hi.nodup, List.nodup_singleton _, ?_⟩
    rintro a ha b hb rfl
    exact hfresh (List.mem_singleton.mp hb ▸ ha)
  · refine ChargedOnce.forall_publish (fun m hm q hq => List.mem_append_left _ (hi.messages m hm q hq)) fun q hq => ?_
    cases hq
    simp
  · obtain ⟨q, hq, hbody, hpublished⟩ := hi.staged s hs
    exact ⟨q, List.mem_append_left _ hq, hbody, fun h => (hpublished h).imp_left (queued_publish rfl)⟩
  · exact queued_new rfl (hkeeps h) rfl
  · obtain ⟨hmem, hpublished⟩ := hi.rows row hrow q hq
    exact ⟨List.mem_append_left _ hmem, fun h => (hpublished h).imp_left (queued_publish rfl)⟩

theorem insert_inv {s : Staged} (eventId : String) (hi : Inv recs w) (hs : w.pipe.staged[j]? = some s) :
    Inv recs { w with pipe := { w.pipe with
      staged := w.pipe.staged.eraseIdx j, outbox := w.pipe.outbox ++ [s.row eventId] } } := by
  obtain ⟨p, hp, hbody, hpublished⟩ := hi.staged s (Pool.mem_of_getElem? hs)
  have hemitted : ∀ o, Emitted { w with pipe := { w.pipe with
      staged := w.pipe.staged.eraseIdx j, outbox := w.pipe.outbox ++ [s.row eventId] } } o ↔ w.Emitted o := by
    simp [Emitted, Staged.row, hbody, or_and_right, exists_or]
  refine ⟨hi.drawn, hi.nodup, hi.messages, Pool.forall_eraseIdx hi.staged, Pool.forall_concat hi.rows fun q hq => ?_,
    hi.calls, fun o ho => hi.verdicts o ((hemitted o).mp ho), fun c hc o ho => (hemitted o).mpr (hi.emitted c hc o ho)⟩
  have hq' : s.body = .recorded q := hq
  rw [hbody] at hq'
  cases hq'
  exact ⟨hp, hpublished⟩

theorem abandon_inv (hi : Inv recs w) :
    Inv recs { w with pipe := { w.pipe with staged := w.pipe.staged.eraseIdx j } } :=
  ⟨hi.drawn, hi.nodup, hi.messages, Pool.forall_eraseIdx hi.staged, hi.rows, hi.calls, hi.verdicts, hi.emitted⟩

theorem relay_inv {row : OutboxRow} {kept ok marked : Bool} {pipe : Pipeline} (hi : Inv recs w)
    (hkeeps : ok = true → kept = true) (hrow : w.pipe.outbox[k]? = some row)
    (h : w.pipe.stepRelay k row kept ok marked = some pipe) : Inv recs { w with pipe } := by
  simp only [Pipeline.stepRelay, Option.ite_none_left_eq_some, Option.some.injEq] at h
  obtain ⟨-, rfl⟩ := h
  have hmem := Pool.mem_of_getElem? hrow
  refine ⟨hi.drawn, hi.nodup, ChargedOnce.forall_publish hi.messages fun q hq => (hi.rows row hmem q hq).1,
    fun s hs => ?_, Pool.forall_set (fun r hr q hq => ?_) fun q hq => ⟨(hi.rows row hmem q hq).1, fun h => Or.inl ?_⟩,
    hi.calls, fun o ho => hi.verdicts o ?_, fun c hc o ho => ?_⟩
  · obtain ⟨q, hq, hbody, hpublished⟩ := hi.staged s hs
    exact ⟨q, hq, hbody, fun h => (hpublished h).imp_left (queued_publish rfl)⟩
  · obtain ⟨hq, hpublished⟩ := hi.rows r hr q hq
    exact ⟨hq, fun h => (hpublished h).imp_left (queued_publish rfl)⟩
  · rw [Bool.and_eq_true] at h
    exact queued_new rfl (hkeeps h.1) hq
  · rcases ho with ⟨r, hr, hbody⟩ | hsent
    · rcases List.mem_or_eq_of_mem_set hr with hr | rfl
      · exact Or.inl ⟨r, hr, hbody⟩
      · exact Or.inl ⟨row, hmem, hbody⟩
    · exact Or.inr hsent
  · exact (hi.emitted c hc o ho).imp_left fun h => Pool.exists_set h hrow fun h => h

theorem consume_inv {q : RatedPayload} {pipe : Pipeline} (hi : Inv recs w) (hm : w.pipe.messages[i]? = some m)
    (h : w.pipe.stepConsume i m q = some pipe) : Inv recs { w with pipe } := by
  unfold Pipeline.stepConsume at h
  split at h
  · cases h
    exact hi
  · obtain ⟨r, -, rfl⟩ := Option.map_eq_some_iff.mp h
    refine inv_of_messages hi rfl rfl rfl (Pool.forall_set hi.messages ?_) fun p hp => Or.inl ?_
    · exact hi.messages m (Pool.mem_of_getElem? hm)
    · exact Pool.exists_set hp hm fun h => h

theorem stepAck_inv (hi : Inv recs w) (hm : w.pipe.messages[i]? = some m) (h : w.stepAck i m = some w') :
    Inv recs w' := by
  unfold stepAck at h
  obtain ⟨hdelivered, h⟩ := Option.ite_none_right_eq_some.mp h
  obtain ⟨pipe, hpipe, rfl⟩ := Option.map_eq_some_iff.mp h
  obtain ⟨n, hn, rfl⟩ := Option.map_eq_some_iff.mp hpipe
  refine inv_of_messages hi rfl rfl rfl (Pool.forall_eraseIdx hi.messages) fun p hp => ?_
  obtain ⟨n, hn, hbody⟩ := hp
  rcases List.mem_cons.mp ((Pool.perm_eraseIdx hm).mem_iff.mp hn) with rfl | hrest
  · exact Or.inr (hdelivered p (recorded_eq_some.mpr hbody))
  · exact Or.inl ⟨n, hrest, hbody⟩

theorem finish_eq {q : Pipeline} {staged : List Staged} {s : Staged} (eventId : String) (dbOk : Bool)
    (hq : q.staged = staged ++ [s]) : finish q eventId dbOk =
      some { q with staged, outbox := q.outbox ++ if dbOk then [s.row eventId] else [] } := by
  have hlast : q.staged[q.staged.length - 1]? = some s := by simp [hq]
  have hrest : q.staged.eraseIdx (q.staged.length - 1) = staged := by
    rw [hq, List.length_append, List.length_singleton, Nat.add_sub_cancel, List.eraseIdx_append_of_length_le le_rfl,
      Nat.sub_self, List.eraseIdx_zero, List.tail_cons, List.append_nil]
  unfold finish
  cases dbOk with
  | false =>
    rw [if_neg Bool.false_ne_true, Pipeline.step, hlast, Option.map_some, hrest]
    simp
  | true =>
    rw [if_pos rfl, Pipeline.step, hlast, Option.map_some, hrest]
    rfl

/-- A call, with the row that it has inserted and what the broker has got of it. -/
theorem called_inv {c : RatingCall} {rows : List OutboxRow} {os : List UsageOutcome} (hi : Inv recs w)
    (hc : c.body ∈ recs) (hrows : ∀ row ∈ rows, ∃ o, row.body = .outcome o)
    (hemits : ∀ o, c.Emits o ↔ (∃ row ∈ rows, row.body = .outcome o) ∨ o ∈ os) :
    Inv recs ⟨{ w.pipe with outbox := w.pipe.outbox ++ rows }, w.calls ++ [c], w.sent ++ os⟩ := by
  have hmore : ∀ p, w.Queued p ∨ w.Called p → w.Queued p ∨ ∃ c' ∈ w.calls ++ [c], c'.body = p :=
    fun p h => h.imp_right fun ⟨c, hc, hbody⟩ => ⟨c, List.mem_append_left _ hc, hbody⟩
  refine ⟨hi.drawn, hi.nodup, hi.messages, fun s hs => ?_, fun row hrow p hp => ?_, Pool.forall_concat hi.calls hc,
    fun o ho => ?_, Pool.forall_concat (fun c' hc' o ho => ?_) fun o ho => ?_⟩
  · obtain ⟨p, hp, hbody, hpublished⟩ := hi.staged s hs
    exact ⟨p, hp, hbody, fun h => hmore p (hpublished h)⟩
  · rcases List.mem_append.mp hrow with hrow | hrow
    · obtain ⟨hp, hpublished⟩ := hi.rows row hrow p hp
      exact ⟨hp, fun h => hmore p (hpublished h)⟩
    · obtain ⟨o, ho⟩ := hrows row hrow
      rw [hp] at ho
      cases ho
  · rcases (emitted_append rfl rfl).mp ho with ho | hnew
    · obtain ⟨c', hc', hout⟩ := hi.verdicts o ho
      exact ⟨c', List.mem_append_left _ hc', hout⟩
    · exact ⟨c, List.mem_append_right _ (List.mem_singleton_self _), (hemits o).mpr hnew⟩
  · exact (emitted_append rfl rfl).mpr (Or.inl (hi.emitted c' hc' o ho))
  · exact (emitted_append rfl rfl).mpr (Or.inr ((hemits o).mp ho))

/-- The delivery, the publish and the row of a usage that is rated or rejected. -/
theorem rate_finish {getOffering : String → Except ClientError Tariff} {kept ok dbOk : Bool} {eventId : String}
    {o : UsageOutcome} {q : Pipeline} {messageId : Option String} {handled : Bool}
    (hm : q.messages[i]? = some ⟨messageId, .recorded p, handled⟩) (ho : handleUsageRecorded p getOffering = .ok o) :
    ((q.step (.rate i getOffering kept ok)).bind fun q => finish q eventId dbOk) = some { q with
      messages := publish (q.messages.set i ⟨messageId, .recorded p, true⟩) none (.outcome o) kept
      outbox := q.outbox ++ if dbOk then [Staged.row ⟨.outcome o, ok, kept⟩ eventId] else [] } := by
  rw [Pipeline.step, hm, Option.bind_some]
  simp only [Pipeline.stepRate, ho, Except.toOption, Option.map_some, Option.bind_some]
  rw [finish_eq eventId dbOk rfl]

theorem stepRate_inv {getOffering : String → Except ClientError Tariff} {kept ok dbOk : Bool} {eventId : String}
    {messageId : Option String} {handled : Bool} (hi : Inv recs w)
    (hm : w.pipe.messages[i]? = some ⟨messageId, .recorded p, handled⟩)
    (h : w.stepRate i p getOffering kept ok eventId dbOk = some w') : Inv recs w' := by
  have hp : p ∈ recs := hi.messages _ (Pool.mem_of_getElem? hm) p rfl
  unfold stepRate at h
  split at h
  · rename_i e herror
    cases h
    have hnone : ∀ o, ¬ RatingCall.Emits ⟨p, getOffering, kept, dbOk⟩ o := by
      rintro o ⟨ho, -⟩
      rw [RatingCall.outcome, herror] at ho
      cases ho
    have hcalled : Inv recs ⟨{ w.pipe with outbox := w.pipe.outbox ++ [] }, w.calls ++ [⟨p, getOffering, kept, dbOk⟩],
        w.sent ++ []⟩ := called_inv hi hp (by simp) fun o => by simp [hnone o]
    simpa using hcalled
  · rename_i o ho
    rw [rate_finish hm ho, Option.map_some, Option.some.injEq] at h
    subst h
    let w₁ : Metering := { w with pipe := { w.pipe with
      messages := w.pipe.messages.set i ⟨messageId, .recorded p, true⟩ } }
    have hset : Inv recs w₁ := by
      refine inv_of_messages hi rfl rfl rfl (Pool.forall_set hi.messages ?_) fun q hq => Or.inl ?_
      · rintro q ⟨⟩
        exact hp
      · exact Pool.exists_set hq hm fun h => h
    have hpublish : Inv recs { w₁ with pipe := { w₁.pipe with
        messages := publish w₁.pipe.messages none (.outcome o) kept } } := by
      refine inv_of_messages hset rfl rfl rfl (ChargedOnce.forall_publish hset.messages ?_) fun q hq =>
        Or.inl (queued_publish rfl hq)
      rintro q ⟨⟩
    refine called_inv hpublish hp (fun row hrow => ?_) fun o' => ?_
    · obtain ⟨-, hrow⟩ := List.mem_ite_nil_right.mp hrow
      exact ⟨o, List.mem_singleton.mp hrow ▸ rfl⟩
    · simp only [RatingCall.Emits, RatingCall.outcome, ho, Except.ok.injEq]
      cases kept <;> cases dbOk <;> simp [Staged.row, eq_comm]

/-! ## All runs -/

theorem stepPipe_inv {l : Pipeline.Label} (hi : Inv recs w) (hkeeps : Keeps w (.pipe l)) (h : w.stepPipe l = some w') :
    ∃ recs', Inv recs' w' := by
  cases l with
  | rate i getOffering kept ok => simp [stepPipe] at h
  | ack i => simp [stepPipe] at h
  | ingest req reply id kept ok =>
    obtain ⟨pipe, hpipe, rfl⟩ := Option.map_eq_some_iff.mp h
    obtain ⟨p, hp, hpipe⟩ := Option.bind_eq_some_iff.mp hpipe
    exact ⟨recs ++ [p], ingest_inv hi hkeeps (toOption_eq_some.mp hp) hpipe⟩
  | insert j eventId =>
    obtain ⟨pipe, hpipe, rfl⟩ := Option.map_eq_some_iff.mp h
    obtain ⟨s, hs, rfl⟩ := Option.map_eq_some_iff.mp hpipe
    exact ⟨recs, insert_inv eventId hi hs⟩
  | abandon j =>
    obtain ⟨pipe, hpipe, rfl⟩ := Option.map_eq_some_iff.mp h
    obtain ⟨s, -, rfl⟩ := Option.map_eq_some_iff.mp hpipe
    exact ⟨recs, abandon_inv hi⟩
  | relay k kept ok marked =>
    obtain ⟨pipe, hpipe, rfl⟩ := Option.map_eq_some_iff.mp h
    obtain ⟨row, hrow, hpipe⟩ := Option.bind_eq_some_iff.mp hpipe
    exact ⟨recs, relay_inv hi hkeeps hrow hpipe⟩
  | consume i txOk =>
    obtain ⟨pipe, hpipe, rfl⟩ := Option.map_eq_some_iff.mp h
    obtain ⟨m, hm, hpipe⟩ := Option.bind_eq_some_iff.mp hpipe
    obtain ⟨q, -, hpipe⟩ := Option.bind_eq_some_iff.mp hpipe
    split at hpipe
    · exact ⟨recs, consume_inv hi hm hpipe⟩
    · cases hpipe
      exact ⟨recs, hi⟩
  | elsewhere id f =>
    obtain ⟨pipe, hpipe, rfl⟩ := Option.map_eq_some_iff.mp h
    obtain ⟨-, hpipe⟩ := Option.ite_none_left_eq_some.mp hpipe
    cases hpipe
    exact ⟨recs, hi.drawn, hi.nodup, hi.messages, hi.staged, hi.rows, hi.calls, hi.verdicts, hi.emitted⟩

theorem step_inv {l : Label} (hi : Inv recs w) (hkeeps : Keeps w l) (h : w.step l = some w') :
    ∃ recs', Inv recs' w' := by
  cases l with
  | rate i getOffering kept ok eventId dbOk =>
    obtain ⟨m, hm, h⟩ := Option.bind_eq_some_iff.mp h
    obtain ⟨p, hp, h⟩ := Option.bind_eq_some_iff.mp h
    obtain ⟨messageId, body, handled⟩ := m
    obtain rfl : body = .recorded p := recorded_eq_some.mp hp
    exact ⟨recs, stepRate_inv hi hm h⟩
  | ack i =>
    obtain ⟨m, hm, h⟩ := Option.bind_eq_some_iff.mp h
    exact ⟨recs, stepAck_inv hi hm h⟩
  | pipe l => exact stepPipe_inv hi hkeeps h

/-- A step is one of the pipeline, the publish and the row of a call, or nothing. -/
theorem step_pipe {l : Label} (h : w.step l = some w') : ∃ ks, exec Pipeline.step w.pipe ks = some w'.pipe := by
  have hone : ∀ {q q' : Pipeline} {k : Pipeline.Label}, q.step k = some q' → exec Pipeline.step q [k] = some q' :=
    fun hk => (exec_cons ..).mpr ⟨_, hk, rfl⟩
  cases l with
  | rate i getOffering kept ok eventId dbOk =>
    obtain ⟨m, -, h⟩ := Option.bind_eq_some_iff.mp h
    obtain ⟨p, -, h⟩ := Option.bind_eq_some_iff.mp h
    unfold stepRate at h
    split at h
    · cases h
      exact ⟨[], rfl⟩
    · obtain ⟨pipe, hpipe, rfl⟩ := Option.map_eq_some_iff.mp h
      obtain ⟨q, hq, hfinish⟩ := Option.bind_eq_some_iff.mp hpipe
      exact ⟨_, (exec_cons ..).mpr ⟨q, hq, hone hfinish⟩⟩
  | ack i =>
    obtain ⟨m, -, h⟩ := Option.bind_eq_some_iff.mp h
    obtain ⟨-, h⟩ := Option.ite_none_right_eq_some.mp h
    obtain ⟨pipe, hpipe, rfl⟩ := Option.map_eq_some_iff.mp h
    exact ⟨_, hone hpipe⟩
  | pipe l =>
    obtain ⟨pipe, hpipe, rfl⟩ : ∃ pipe, w.pipe.step l = some pipe ∧ { w with pipe } = w' := by
      change w.stepPipe l = some w' at h
      unfold stepPipe at h
      split at h
      · cases h
      · cases h
      · exact Option.map_eq_some_iff.mp h
    exact ⟨_, hone hpipe⟩

theorem exec_pipe {ls : List Label} (h : exec step w ls = some w') :
    ∃ ks, exec Pipeline.step w.pipe ks = some w'.pipe := by
  have hsim : ∀ (s : Metering) (l : Label) (s' : Metering) (q : Pipeline), s.pipe = q → s.step l = some s' →
      ∃ ks q', exec Pipeline.step q ks = some q' ∧ s'.pipe = q' := by
    rintro s l s' _ rfl hl
    obtain ⟨ks, hks⟩ := step_pipe hl
    exact ⟨ks, s'.pipe, hks, rfl⟩
  obtain ⟨ks, q, hks, rfl⟩ := exec_simulates hsim rfl h
  exact ⟨ks, hks⟩

/-- **An accepted usage is rated or rejected exactly when a delivery of it can be**: the
record names a plan and a subscription, the catalog answers, the plan has the allowance in
its unit, and the database takes the row. Until its first delivery it waits. -/
theorem usage_verdict (lines : Lines) (ls : List Label) (w : Metering) (p : RecordedPayload)
    (h : exec (guarded Keeps step) (start lines) ls = some w) (hp : w.Accepted p) :
    (w.Verdict p ↔ ∃ c ∈ w.calls, c.body = p ∧ (c.kept = true ∨ c.dbOk = true) ∧ Ratable p c.getOffering) ∧
      (w.Waits p ∨ w.Queued p ∨ w.Called p) := by
  have hstart : Inv [] (start lines) := by
    refine ⟨rfl, List.nodup_nil, ?_, ?_, ?_, ?_, ?_, ?_⟩ <;> simp [start, Pipeline.idle, Emitted]
  obtain ⟨recs, hi⟩ : ∃ recs, Inv recs w := by
    refine guarded_inv (P := fun w => ∃ recs, Inv recs w) ?_ ⟨[], hstart⟩ h
    rintro w l w' ⟨recs, hi⟩ hl hstep
    exact step_inv hi hl hstep
  obtain ⟨row, hrow, hbody⟩ := hp
  obtain ⟨hmem, hpublished⟩ := hi.rows row hrow p hbody
  refine ⟨⟨?_, ?_⟩, ?_⟩
  · rintro ⟨o, ho, hid⟩
    obtain ⟨c, hc, hemits⟩ := hi.verdicts o ho
    have habout := (handleUsageRecorded_about hemits.1).1
    obtain rfl : c.body = p := hi.unique (hi.calls c hc) hmem (habout.symm.trans hid)
    exact ⟨c, hc, rfl, RatingCall.emits_iff.mp ⟨o, hemits⟩⟩
  · rintro ⟨c, hc, rfl, hgood⟩
    obtain ⟨o, hemits⟩ := RatingCall.emits_iff.mpr hgood
    exact ⟨o, hi.emitted c hc o hemits, (handleUsageRecorded_about hemits.1).1⟩
  · cases hpub : row.publishedToMq with
    | false => exact Or.inl ⟨row, hrow, hbody, hpub⟩
    | true => exact Or.inr (hpublished hpub)

def noCatalog (_ : String) : Except ClientError Tariff := .error (.timeout "catalog")

def sampleRecorded : RecordedPayload :=
  ⟨"UE-1", some "SUB-0001", "90000042", "data", ChargedOnce.sampleUsage.quantity, "mb", false, some "PLAN_M"⟩

/-- The catalog is down, then the broker and the database are, and the third delivery is good. -/
def thirdDelivery : Metering :=
  (exec (guarded Keeps step) (start ChargedOnce.usageLines)
    [.pipe (.ingest ChargedOnce.sampleUsage ChargedOnce.sampleReply "UE-1" true true), .pipe (.insert 0 "EV-1"),
     .rate 0 noCatalog true true "EV-2" true, .rate 0 ChargedOnce.sampleCatalog false false "EV-2" false,
     .rate 0 ChargedOnce.sampleCatalog true true "EV-2" true, .ack 0]).get (by decide +kernel)

theorem usage_verdict_third_delivery :
    (thirdDelivery.Verdict sampleRecorded ↔ ∃ c ∈ thirdDelivery.calls, c.body = sampleRecorded ∧
      (c.kept = true ∨ c.dbOk = true) ∧ Ratable sampleRecorded c.getOffering) ∧
      (thirdDelivery.Waits sampleRecorded ∨ thirdDelivery.Queued sampleRecorded ∨ thirdDelivery.Called sampleRecorded) :=
  usage_verdict ChargedOnce.usageLines _ thirdDelivery sampleRecorded (Option.some_get _).symm (by
    unfold Accepted
    decide +kernel)

theorem not_verdict (hrows : ∀ row ∈ w.pipe.outbox, ChargedOnce.isRecorded row.body = true) (hsent : w.sent = []) :
    ¬ w.Verdict p := by
  rintro ⟨o, ⟨row, hrow, hbody⟩ | ho, -⟩
  · have hrecorded := hrows row hrow
    rw [hbody] at hrecorded
    cases hrecorded
  · rw [hsent] at ho
    cases ho

/-- Mediation takes any unit. -/
def wrongUnit : Metering :=
  (exec (guarded Keeps step) (start ChargedOnce.usageLines)
    [.pipe (.ingest { ChargedOnce.sampleUsage with unit := "gb" } ChargedOnce.sampleReply "UE-1" true true),
     .pipe (.insert 0 "EV-1"), .rate 0 ChargedOnce.sampleCatalog true true "EV-2" true, .ack 0]).get
    (by decide +kernel)

def catalogDown : Metering :=
  (exec (guarded Keeps step) (start ChargedOnce.usageLines)
    [.pipe (.ingest ChargedOnce.sampleUsage ChargedOnce.sampleReply "UE-1" true true), .pipe (.insert 0 "EV-1"),
     .rate 0 noCatalog true true "EV-2" true, .ack 0]).get (by decide +kernel)

/-- Nothing of either usage is on its way any more. -/
theorem accepted_without_verdict :
    (wrongUnit.Accepted { sampleRecorded with unit := "gb" } ∧ wrongUnit.pipe.messages.isEmpty ∧
        wrongUnit.pipe.staged.isEmpty ∧ (∀ row ∈ wrongUnit.pipe.outbox, row.publishedToMq = true) ∧
        ¬ wrongUnit.Verdict { sampleRecorded with unit := "gb" }) ∧
      catalogDown.Accepted sampleRecorded ∧ catalogDown.pipe.messages.isEmpty ∧ catalogDown.pipe.staged.isEmpty ∧
        (∀ row ∈ catalogDown.pipe.outbox, row.publishedToMq = true) ∧ ¬ catalogDown.Verdict sampleRecorded := by
  refine ⟨⟨?_, ?_, ?_, ?_, not_verdict ?_ ?_⟩, ?_, ?_, ?_, ?_, not_verdict ?_ ?_⟩ <;> try unfold Accepted
  all_goals decide +kernel

end Metering

end BssCli.Usage
