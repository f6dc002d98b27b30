import BssCli.Lib.Register
import BssCli.Webhooks.Didit

/-!
# Didit's decisions

`webhook_didit` of the self-serve portal. A signed delivery leaves its event and, where it has a status, the decision for
its session.
-/

namespace BssCli.Webhooks

def providerDidit : String := "didit"

/-- A row of `integrations.webhook_event`. -/
structure WebhookEvent where
  provider : String
  eventId : String
  eventType : String
  body : Json

/-- A row of `integrations.kyc_webhook_corroboration`. -/
structure Corroboration where
  id : String
  provider : String
  providerSessionId : String
  webhookEventId : String
  decisionStatus : String
  decisionBodyDigest : String
  receivedAt : ℚ

structure Store where
  events : List WebhookEvent := []
  corroborations : List Corroboration := []

structure DiditDelivery where
  headers : String → Option (List Char)
  body : List UInt8
  now : Reading
  /-- What `gen_random_uuid()` would give to a new row. -/
  newId : String

/-- The secret, the hash functions, and what the JSON library reads and prints. -/
structure DiditEnv where
  secret : List Char
  hmacSha256 : List UInt8 → List UInt8 → List UInt8
  sha256 : List UInt8 → List UInt8
  fromSlice : List UInt8 → Option Json
  toVec : Json → Option (List UInt8)
  print : Json → List UInt8

/-- How the database serves a delivery. -/
inductive Database
  | missing
  /-- A statement fails, and nothing is kept. -/
  | failing
  | serving
  /-- All is carried out, and an error is reported. -/
  | losing
  deriving DecidableEq

structure Response where
  status : Nat
  body : Json

def codeResponse (status : Nat) (code : String) : Response := ⟨status, .obj [("code", .str code)]⟩

/-! ## The payload -/

/-- A string at the top, or else under `data`. -/
def strAt (payload : Json) (top nested : String) : String :=
  (((payload.get top).bind Json.asStr).or (((payload.get "data").bind (·.get nested)).bind Json.asStr)).getD ""

def sessionId (payload : Json) : String := strAt payload "session_id" "session_id"

def decisionStatus (payload : Json) : String := strAt payload "status" "status"

def eventType (payload : Json) : String :=
  ((((payload.get "webhook_type").or (payload.get "type")).or (payload.get "event")).bind Json.asStr).getD "unknown"

/-- The moment of the dispatch, where there is a number. -/
def timestamp (payload : Json) : Option ℚ :=
  (payload.get "timestamp").bind fun v =>
    match v with
    | .int n => some n
    | .float x => some x
    | _ => none

mutual

def sortJsonKeys : Json → Json
  | .obj fields => .obj ((sortJsonFields fields).mergeSort fun a b => a.1 ≤ b.1)
  | .arr values => .arr (sortJsonValues values)
  | .null => .null
  | .bool b => .bool b
  | .int n => .int n
  | .float x => .float x
  | .str s => .str s

def sortJsonFields : List (String × Json) → List (String × Json)
  | [] => []
  | (k, v) :: fields => (k, sortJsonKeys v) :: sortJsonFields fields

def sortJsonValues : List Json → List Json
  | [] => []
  | v :: values => sortJsonKeys v :: sortJsonValues values

end

def withoutTimestamp : Json → Json
  | .obj fields => .obj (fields.filter fun f => f.1 ≠ "timestamp")
  | v => v

section
variable (env : DiditEnv)

/-- The content, without the timestamp that a retry refreshes. -/
def contentId (payload : Json) : String :=
  sessionId payload ++ ":" ++ eventType payload ++ ":" ++
    String.ofList (Text.hexLower (env.sha256 (env.print (sortJsonKeys (withoutTimestamp payload)))))

def eventId (payload : Json) : String :=
  ((((payload.get "event_id").or (payload.get "id")).bind Json.asStr).filter (· ≠ "")).getD (contentId env payload)

/-! ## The transaction -/

def Store.hasEvent (st : Store) (id : String) : Bool := st.events.any fun e => e.provider = providerDidit ∧ e.eventId = id

def Corroboration.isFor (sid : String) (row : Corroboration) : Bool :=
  row.provider = providerDidit ∧ row.providerSessionId = sid

/-- `ON CONFLICT (provider, provider_session_id) DO UPDATE` -/
def upsert (rows : List Corroboration) (row : Corroboration) : List Corroboration :=
  if rows.any (·.isFor row.providerSessionId) then
    rows.map fun r =>
      if r.isFor row.providerSessionId then
        { r with
          decisionStatus := row.decisionStatus
          webhookEventId := row.webhookEventId
          decisionBodyDigest := row.decisionBodyDigest
          receivedAt := row.receivedAt }
      else r
  else
    rows ++ [row]

/-- The event, and the decision where there is a status. An event that was there leaves all as it is. -/
def Store.record (st : Store) (event : WebhookEvent) (row : Corroboration) : Option Store :=
  if st.hasEvent event.eventId then
    none
  else
    some {
      events := st.events ++ [event]
      corroborations := if row.decisionStatus = "" then st.corroborations else upsert st.corroborations row }

def bodyDigest (body : List UInt8) : String := String.ofList (Text.hexLower (env.sha256 body))

/-- Only the envelope is kept. -/
def storedEnvelope (payload : Json) (body : List UInt8) : Json :=
  .obj [("session_id", .str (sessionId payload)), ("event_id", .str (eventId env payload)),
    ("webhook_type", .str (eventType payload)), ("status", .str (decisionStatus payload)),
    ("timestamp", (payload.get "timestamp").getD .null), ("body_digest", .str (bodyDigest env body))]

def eventOf (payload : Json) (body : List UInt8) : WebhookEvent :=
  ⟨providerDidit, eventId env payload, eventType payload, storedEnvelope env payload body⟩

def corroborationOf (payload : Json) (d : DiditDelivery) : Corroboration :=
  ⟨d.newId, providerDidit, sessionId payload, eventId env payload, decisionStatus payload, bodyDigest env d.body, d.now.val⟩

def unavailable : Response := codeResponse 503 "database_unavailable"

def webhookDidit (db : Database) (st : Store) (d : DiditDelivery) : Store × Response :=
  if env.secret = [] then
    (st, codeResponse 401 "webhook_secret_unset")
  else
    match verifyDiditHmac env.hmacSha256 env.fromSlice env.toVec env.secret d.body d.headers defaultMaxSkewSeconds d.now.val
    with
    | .error e => (st, codeResponse 401 e.code)
    | .ok () =>
      match env.fromSlice d.body with
      | none => (st, codeResponse 400 "malformed_body")
      | some payload =>
        if sessionId payload = "" then
          (st, codeResponse 400 "missing_session_id")
        else if db = .missing ∨ db = .failing then
          (st, unavailable)
        else
          match st.record (eventOf env payload d.body) (corroborationOf env payload d) with
          | none => (st, ⟨200, .obj [("received", .bool true), ("deduped", .bool true)]⟩)
          | some st' => (st', if db = .losing then unavailable else ⟨200, .obj [("received", .bool true)]⟩)

/-! ## The decision for a session -/

def Store.decision (st : Store) (sid : String) : Option String :=
  (st.corroborations.find? (·.isFor sid)).map (·.decisionStatus)

def DiditDelivery.payload (d : DiditDelivery) : Json := (env.fromSlice d.body).getD .null

/-- A delivery that the route accepts, for this session. -/
structure Authentic (sid : String) (d : DiditDelivery) : Prop where
  configured : env.secret ≠ []
  accepted : DiditAccepts env.hmacSha256 env.fromSlice env.toVec env.secret d.body d.headers d.now
  parsed : (env.fromSlice d.body).isSome
  forSession : sessionId (d.payload env) = sid
  named : sid ≠ ""

def DiditDelivery.eventId (d : DiditDelivery) : String := Webhooks.eventId env (d.payload env)

def DiditDelivery.status (d : DiditDelivery) : Option String :=
  if decisionStatus (d.payload env) = "" then none else some (decisionStatus (d.payload env))

def arrive (st : Store) (ds : List DiditDelivery) : Store :=
  ds.foldl (fun st d => (webhookDidit env .serving st d).1) st

end

/-! ## One delivery -/

section
variable {env : DiditEnv} {sid : String} {st : Store} {d : DiditDelivery}

theorem isFor_iff {row : Corroboration} : row.isFor sid = true ↔ row.provider = providerDidit ∧ row.providerSessionId = sid := by
  unfold Corroboration.isFor
  exact decide_eq_true_iff

theorem find_upsert (rows : List Corroboration) {row : Corroboration} (h : row.isFor sid = true) :
    ((upsert rows row).find? (·.isFor sid)).map (·.decisionStatus) = some row.decisionStatus := by
  have hsid := (isFor_iff.mp h).2
  subst hsid
  unfold upsert
  split
  · rename_i hany
    induction rows with
    | nil => simp at hany
    | cons r rows ih =>
      by_cases hr : r.isFor row.providerSessionId = true
      · have hkept : ∀ st id dig at', ({ r with
            decisionStatus := st, webhookEventId := id, decisionBodyDigest := dig, receivedAt := at' } :
            Corroboration).isFor row.providerSessionId = true := fun _ _ _ _ => hr
        rw [List.map_cons, if_pos hr, List.find?_cons_of_pos (hkept _ _ _ _)]
        rfl
      · rw [List.map_cons, if_neg hr, List.find?_cons_of_neg hr]
        exact ih (by simpa [hr] using hany)
  · rename_i hany
    have hnone : rows.find? (·.isFor row.providerSessionId) = none := by
      rw [List.find?_eq_none]
      intro r hr hfor
      exact hany (List.any_eq_true.mpr ⟨r, hr, hfor⟩)
    rw [List.find?_append, hnone, Option.none_or, List.find?_cons_of_pos h]
    rfl

theorem webhookDidit_authentic (h : Authentic env sid d) :
    (webhookDidit env .serving st d).1 =
      (st.record (eventOf env (d.payload env) d.body) (corroborationOf env (d.payload env) d)).getD st := by
  obtain ⟨payload, hpayload⟩ := Option.isSome_iff_exists.mp h.parsed
  have hd : d.payload env = payload := by rw [DiditDelivery.payload, hpayload, Option.getD_some]
  have hsession : sessionId payload ≠ "" := by
    rw [← hd, h.forSession]
    exact h.named
  have haccepted := h.accepted
  unfold DiditAccepts at haccepted
  unfold webhookDidit
  rw [if_neg h.configured, haccepted]
  dsimp only
  rw [hpayload, hd]
  dsimp only
  rw [if_neg hsession, if_neg (by decide)]
  cases st.record (eventOf env payload d.body) (corroborationOf env payload d) <;> rfl

theorem arrive_again (h : Authentic env sid d) (hold : st.hasEvent (d.eventId env) = true) :
    (webhookDidit env .serving st d).1 = st := by
  have hevent : (eventOf env (d.payload env) d.body).eventId = d.eventId env := rfl
  rw [webhookDidit_authentic h, Store.record, hevent, if_pos hold, Option.getD_none]

theorem arrive_new (h : Authentic env sid d) (hnew : st.hasEvent (d.eventId env) = false) :
    (∀ id, (webhookDidit env .serving st d).1.hasEvent id = true ↔ st.hasEvent id = true ∨ d.eventId env = id) ∧
      (webhookDidit env .serving st d).1.decision sid = (d.status env).or (st.decision sid) := by
  have hevent : (eventOf env (d.payload env) d.body).eventId = d.eventId env := rfl
  have hfor : (corroborationOf env (d.payload env) d).isFor sid = true := isFor_iff.mpr ⟨rfl, h.forSession⟩
  rw [webhookDidit_authentic h, Store.record, hevent, if_neg (by simp [hnew]), Option.getD_some]
  constructor
  · intro id
    unfold Store.hasEvent
    rw [List.any_append, Bool.or_eq_true, List.any_cons, List.any_nil, Bool.or_false]
    exact or_congr_right (decide_eq_true_iff.trans (and_iff_right rfl))
  · unfold Store.decision DiditDelivery.status
    have hstatus : (corroborationOf env (d.payload env) d).decisionStatus = decisionStatus (d.payload env) := rfl
    dsimp only
    rw [hstatus]
    split
    · rfl
    · rw [find_upsert _ hfor, hstatus]
      rfl

/-! ## Many deliveries -/

/-- What the store says of one session is a register that takes each event once. -/
def Mirrors (sid : String) (st : Store) (r : KeyedRegister String String) : Prop :=
  (∀ id, id ∈ r.seen ↔ st.hasEvent id = true) ∧ r.value = st.decision sid

theorem Mirrors.step {r : KeyedRegister String String} (hm : Mirrors sid st r) (h : Authentic env sid d) :
    Mirrors sid (webhookDidit env .serving st d).1 (r.apply (·.eventId env) (·.status env) d) := by
  obtain ⟨hseen, hvalue⟩ := hm
  cases hold : st.hasEvent (d.eventId env) with
  | true =>
    rw [arrive_again h hold, KeyedRegister.apply_seen ((hseen _).mpr hold)]
    exact ⟨hseen, hvalue⟩
  | false =>
    obtain ⟨hevents, hdecision⟩ := arrive_new h hold
    refine ⟨fun id => ?_, ?_⟩
    · rw [KeyedRegister.mem_seen_apply, hevents, hseen]
    · rw [hdecision, KeyedRegister.apply, if_neg, hvalue]
      rw [hseen, hold]
      exact Bool.false_ne_true

theorem Mirrors.run {r : KeyedRegister String String} (hm : Mirrors sid st r) {ds : List DiditDelivery}
    (h : ∀ d ∈ ds, Authentic env sid d) :
    Mirrors sid (arrive env st ds) (r.run (·.eventId env) (·.status env) ds) := by
  induction ds generalizing st r with
  | nil => exact hm
  | cons d ds ih => exact ih (hm.step (h d List.mem_cons_self)) fun e he => h e (List.mem_cons_of_mem d he)

def Store.register (st : Store) (sid : String) : KeyedRegister String String :=
  ⟨(st.events.filter fun e => e.provider = providerDidit).map (·.eventId), st.decision sid⟩

theorem mirrors_register (st : Store) (sid : String) : Mirrors sid st (st.register sid) := by
  refine ⟨fun id => ?_, rfl⟩
  unfold Store.register Store.hasEvent
  simp [and_assoc]

theorem arrive_decision (st : Store) {ds : List DiditDelivery} (h : ∀ d ∈ ds, Authentic env sid d) :
    (arrive env st ds).decision sid = ((st.register sid).run (·.eventId env) (·.status env) ds).value :=
  ((mirrors_register st sid).run h).2.symm

theorem arrive_hasEvent (st : Store) {ds : List DiditDelivery} (h : ∀ d ∈ ds, Authentic env sid d) (id : String) :
    (arrive env st ds).hasEvent id = true ↔ st.hasEvent id = true ∨ ∃ d ∈ ds, d.eventId env = id := by
  rw [← ((mirrors_register st sid).run h).1, KeyedRegister.mem_seen_run, (mirrors_register st sid).1]

theorem arrive_concat (st : Store) (ds : List DiditDelivery) (d : DiditDelivery) :
    arrive env st (ds ++ [d]) = (webhookDidit env .serving (arrive env st ds) d).1 := by
  unfold arrive
  rw [List.foldl_append]
  rfl

/-- The deliveries with a status carry the same one, and if there are any, one event has a status in all of its own. -/
def OneDecision (env : DiditEnv) (ds : List DiditDelivery) : Prop :=
  (∀ d ∈ ds, ∀ e ∈ ds, d.status env ≠ none → e.status env ≠ none → d.status env = e.status env) ∧
    ((∃ d ∈ ds, d.status env ≠ none) → ∃ d ∈ ds, ∀ e ∈ ds, e.eventId env = d.eventId env → e.status env ≠ none)

theorem same_in_any_order_iff {ds : List DiditDelivery} (h : ∀ d ∈ ds, Authentic env sid d) (hnone : st.decision sid = none)
    (hnew : ∀ d ∈ ds, st.hasEvent (d.eventId env) = false) :
    (∀ ds', ds'.Perm ds → (arrive env st ds').decision sid = (arrive env st ds).decision sid) ↔ OneDecision env ds := by
  have hfresh : ∀ d ∈ ds, d.eventId env ∉ (st.register sid).seen := by
    intro d hd
    rw [(mirrors_register st sid).1, hnew d hd]
    exact Bool.false_ne_true
  calc (∀ ds', ds'.Perm ds → (arrive env st ds').decision sid = (arrive env st ds).decision sid)
      ↔ ∀ ds', ds'.Perm ds → ((st.register sid).run (·.eventId env) (·.status env) ds').value =
          ((st.register sid).run (·.eventId env) (·.status env) ds).value := by
        refine forall₂_congr fun ds' hperm => ?_
        rw [arrive_decision st h, arrive_decision st fun d hd => h d (hperm.mem_iff.mp hd)]
    _ ↔ OneDecision env ds := KeyedRegister.same_in_any_order_iff hnone hfresh

end

/-- A redelivery changes nothing. A new event with a status replaces the decision, whatever its timestamp. So the order
makes no difference exactly when there is one decision. -/
theorem decision_last_write {env : DiditEnv} {sid : String} {ds : List DiditDelivery} (h : ∀ d ∈ ds, Authentic env sid d)
    (st : Store) :
    (∀ pre d post, ds = pre ++ d :: post → (∃ e ∈ pre, e.eventId env = d.eventId env) →
        arrive env st (pre ++ [d]) = arrive env st pre) ∧
      (∀ pre d post, ds = pre ++ d :: post → st.hasEvent (d.eventId env) = false →
        (∀ e ∈ pre, e.eventId env ≠ d.eventId env) →
        (arrive env st (pre ++ [d])).decision sid = (d.status env).or ((arrive env st pre).decision sid)) ∧
      (st.decision sid = none → (∀ d ∈ ds, st.hasEvent (d.eventId env) = false) →
        ((∀ ds', ds'.Perm ds → (arrive env st ds').decision sid = (arrive env st ds).decision sid) ↔
          OneDecision env ds)) := by
  refine ⟨?_, ?_, fun hnone hnew => same_in_any_order_iff h hnone hnew⟩
  · rintro pre d post rfl ⟨e, he, hid⟩
    have hpre : ∀ d' ∈ pre, Authentic env sid d' := fun d' hd' => h d' (List.mem_append_left _ hd')
    rw [arrive_concat]
    exact arrive_again (h d (by simp)) ((arrive_hasEvent st hpre _).mpr (.inr ⟨e, he, hid⟩))
  · rintro pre d post rfl hnew hdiff
    have hpre : ∀ d' ∈ pre, Authentic env sid d' := fun d' hd' => h d' (List.mem_append_left _ hd')
    rw [arrive_concat]
    refine (arrive_new (h d (by simp)) ?_).2
    rw [← Bool.not_eq_true, arrive_hasEvent st hpre, hnew]
    rintro (hold | ⟨e, he, hid⟩)
    · exact Bool.false_ne_true hold
    · exact hdiff e he hid

/-! ## Two statuses -/

def sampleDidit : DiditEnv where
  secret := ['k']
  hmacSha256 := sampleHmac
  sha256 := sampleHmac []
  fromSlice := fun body =>
    if body = [1] then
      some (.obj [("event_id", .str "e-1"), ("session_id", .str "s-1"), ("status", .str "In Progress"), ("timestamp", .int 100)])
    else if body = [2] then
      some (.obj [("event_id", .str "e-2"), ("session_id", .str "s-1"), ("status", .str "Approved"), ("timestamp", .int 200)])
    else
      none
  toVec := fun _ => none
  print := fun _ => []

def sampleDelivery (body : List UInt8) : DiditDelivery where
  headers := diditHeaders (Text.ofI64 signedAt.val) (Text.hexLower (sampleHmac (Text.utf8 ['k']) body))
  body := body
  now := readingAt signedAt (by decide)
  newId := "row-1"

theorem sampleDelivery_accepted (body : List UInt8) :
    DiditAccepts sampleHmac sampleDidit.fromSlice sampleDidit.toVec ['k'] body (sampleDelivery body).headers
      (sampleDelivery body).now := by
  have hne : sampleHmac (Text.utf8 ['k']) body ≠ [] := by
    intro hnil
    have := sampleHmac_length (Text.utf8 ['k']) body
    rw [hnil] at this
    cases this
  refine (diditAccepts_iff (diditHeaders_states signedAt _) _).mpr ⟨diditHeaders_signsBody hne _, ?_⟩
  unfold sampleDelivery
  rw [readingAt, sub_self, abs_zero]
  norm_num

theorem sampleDelivery_authentic {body : List UInt8} (h : body = [1] ∨ body = [2]) :
    Authentic sampleDidit "s-1" (sampleDelivery body) := by
  refine ⟨by decide, sampleDelivery_accepted body, ?_, ?_, by decide⟩
  all_goals rcases h with rfl | rfl <;> decide +kernel

theorem samples_authentic {ds : List DiditDelivery} (h : ∀ d ∈ ds, d = sampleDelivery [1] ∨ d = sampleDelivery [2]) :
    ∀ d ∈ ds, Authentic sampleDidit "s-1" d := by
  intro d hd
  rcases h d hd with rfl | rfl
  · exact sampleDelivery_authentic (.inl rfl)
  · exact sampleDelivery_authentic (.inr rfl)

/-- The older event arrives second, and its status replaces the newer one's `Approved`. -/
theorem decision_of_older_event :
    (∀ d ∈ [sampleDelivery [2], sampleDelivery [1]], Authentic sampleDidit "s-1" d) ∧
      timestamp ((sampleDelivery [1]).payload sampleDidit) = some 100 ∧
      timestamp ((sampleDelivery [2]).payload sampleDidit) = some 200 ∧
      (arrive sampleDidit {} [sampleDelivery [2]]).decision "s-1" = some "Approved" ∧
      (arrive sampleDidit {} [sampleDelivery [2], sampleDelivery [1]]).decision "s-1" = some "In Progress" ∧
      (arrive sampleDidit {} [sampleDelivery [1], sampleDelivery [2]]).decision "s-1" = some "Approved" := by
  have h₂ : ∀ d ∈ [sampleDelivery [2]], Authentic sampleDidit "s-1" d := samples_authentic (by simp)
  have h₂₁ : ∀ d ∈ [sampleDelivery [2], sampleDelivery [1]], Authentic sampleDidit "s-1" d := samples_authentic (by simp)
  have h₁₂ : ∀ d ∈ [sampleDelivery [1], sampleDelivery [2]], Authentic sampleDidit "s-1" d := samples_authentic (by simp)
  refine ⟨h₂₁, by decide +kernel, by decide +kernel, ?_, ?_, ?_⟩
  · rw [arrive_decision {} h₂]
    decide +kernel
  · rw [arrive_decision {} h₂₁]
    decide +kernel
  · rw [arrive_decision {} h₁₂]
    decide +kernel

theorem decision_last_write_redelivered :
    (∀ d ∈ [sampleDelivery [2], sampleDelivery [1], sampleDelivery [2]], Authentic sampleDidit "s-1" d) ∧
      arrive sampleDidit {} ([sampleDelivery [2], sampleDelivery [1]] ++ [sampleDelivery [2]]) =
        arrive sampleDidit {} [sampleDelivery [2], sampleDelivery [1]] := by
  have h : ∀ d ∈ [sampleDelivery [2], sampleDelivery [1], sampleDelivery [2]], Authentic sampleDidit "s-1" d :=
    samples_authentic (by simp)
  exact ⟨h, (decision_last_write h {}).1 [sampleDelivery [2], sampleDelivery [1]] (sampleDelivery [2]) [] rfl
    ⟨sampleDelivery [2], List.mem_cons_self, rfl⟩⟩

end BssCli.Webhooks
