import BssCli.Lib.Steps
import BssCli.Lib.Walk
import BssCli.Subscription.Service

/-!
# The state history and the block events

State, history row and event are written side by side in every branch. The rows are a walk
through the transition table, and each row that enters or leaves the blocked state has its
event in the same transaction.
-/

namespace BssCli.Subscription

namespace Line

/-- A line is pending until its row is there. -/
def state (s : Line) : SubState := (s.db.map (·.sub.state)).getD .pending

def history (s : Line) : List StateHistoryRow := (s.db.map (·.history)).getD []

def events (s : Line) : List Event := (s.db.map (·.events)).getD []

end Line

end BssCli.Subscription

namespace BssCli.Subscription.History

open Steps Walk

/-! ## What a row calls for -/

inductive Announcement
  | blocked
  | unblocked
  deriving DecidableEq, Repr

/-- The announcement that an event makes. -/
def ofType (eventType : String) : Option Announcement :=
  if eventType = "subscription.blocked" then some .blocked
  else if eventType = "subscription.unblocked" then some .unblocked
  else none

def announcements (events : List Event) : List Announcement :=
  events.filterMap fun e => ofType e.eventType

/-- The announcement that a history row calls for. -/
def ofRow (r : StateHistoryRow) : Option Announcement :=
  if r.toState = .blocked then some .blocked
  else if r.fromState = .blocked ∧ r.toState = .active then some .unblocked
  else none

/-- The only announcement that can come next in a state. -/
def upcoming : SubState → Option Announcement
  | .pending => some .blocked
  | .active => some .blocked
  | .blocked => some .unblocked
  | .terminated => none

def Legal (r : StateHistoryRow) : Prop := ∃ t, (t, r.fromState, r.toState) ∈ transitions

abbrev IsPath : SubState → List StateHistoryRow → SubState → Prop :=
  IsWalk StateHistoryRow.fromState StateHistoryRow.toState

theorem legal_paced {r : StateHistoryRow} (h : Legal r) :
    Paced ofRow upcoming StateHistoryRow.fromState StateHistoryRow.toState r := by
  obtain ⟨t, ht⟩ := h
  obtain ⟨a, b, reason⟩ := r
  simp only [transitions, List.mem_cons, List.not_mem_nil, or_false, Prod.mk.injEq] at ht
  rcases ht with ⟨-, rfl, rfl⟩ | ⟨-, rfl, rfl⟩ | ⟨-, rfl, rfl⟩ | ⟨-, rfl, rfl⟩ | ⟨-, rfl, rfl⟩ |
    ⟨-, rfl, rfl⟩ | ⟨-, rfl, rfl⟩ | ⟨-, rfl, rfl⟩ | ⟨-, rfl, rfl⟩ <;>
  constructor <;> simp [ofRow, upcoming]

theorem nextState_legal {s dest : SubState} {t : Trigger} (reason : String)
    (h : nextState s t = .ok dest) : Legal ⟨s, dest, reason⟩ := ⟨t, nextState_eq_ok.mp h⟩

/-! ## One transaction -/

/-- What a transaction adds: rows that lead from the old state to the new one, and the
events that these rows call for. -/
structure Adds (state : SubState) (rows : List StateHistoryRow) (staged : List Event)
    (state' : SubState) : Prop where
  path : IsPath state rows state'
  legal : ∀ r ∈ rows, Legal r
  announced : announcements staged = rows.filterMap ofRow

/-- The step from `s` to `s'` as a transaction. -/
def Records (s s' : Line) : Prop :=
  ∃ rows staged, s'.history = s.history ++ rows ∧ s'.events = s.events ++ staged ∧
    Adds s.state rows staged s'.state

/-- `db'` has the events of `db`, and then some that announce `as`. -/
def Stages (db db' : SubDb) (as : List Announcement) : Prop :=
  ∃ staged, db'.events = db.events ++ staged ∧ announcements staged = as

theorem Stages.none {db db' : SubDb} (h : db'.events = db.events) : Stages db db' [] :=
  ⟨[], by simp [h], rfl⟩

theorem Stages.stage {db db' : SubDb} {as : List Announcement} (h : Stages db db' as) (ty : String)
    (payload : Object) : Stages db (db'.stage ty payload) (as ++ (ofType ty).toList) := by
  obtain ⟨staged, hev, has⟩ := h
  refine ⟨staged ++ [⟨ty, "subscription", db'.sub.id, payload⟩], by simp [hev], ?_⟩
  unfold announcements at has ⊢
  rw [List.filterMap_append, has]
  cases h : ofType ty <;> simp [h]

theorem records_refl (s : Line) : Records s s := by
  refine ⟨[], [], by simp, by simp, ?_⟩
  constructor
  · rfl
  · simp
  · rfl

theorem records_quiet {db db' : SubDb} {made made' : List Charge} (hstate : db'.sub.state = db.sub.state)
    (hrows : db'.history = db.history) (hstages : Stages db db' []) :
    Records ⟨some db, made⟩ ⟨some db', made'⟩ := by
  obtain ⟨staged, hev, hann⟩ := hstages
  refine ⟨[], staged, by simpa [Line.history] using hrows, hev, ?_⟩
  constructor
  · exact hstate.symm
  · simp
  · exact hann

theorem records_row {db db' : SubDb} {made made' : List Charge} {r : StateHistoryRow}
    (hrows : db'.history = db.history ++ [r]) (hfrom : db.sub.state = r.fromState)
    (hto : db'.sub.state = r.toState) (h : Legal r) (hstages : Stages db db' (ofRow r).toList) :
    Records ⟨some db, made⟩ ⟨some db', made'⟩ := by
  obtain ⟨staged, hev, hann⟩ := hstages
  refine ⟨[r], staged, hrows, hev, ?_⟩
  constructor
  · exact ⟨hfrom.symm, hto.symm⟩
  · simpa using h
  · rw [hann]
    cases hr : ofRow r <;> simp [hr]

/-! ## Each commit -/

section

variable {db db' : SubDb} {made made' : List Charge}

def activation : StateHistoryRow := ⟨.pending, .active, "activation_payment_approved"⟩

theorem create_history {req : SubscriptionCreateRequest} {p : CreatePlan} {pay : PaymentResult}
    {subId : String} {now : Time} (h : createCommit req p pay subId now = .ok db') :
    db'.history = [activation] := by
  simp only [createCommit, bind_eq_ok] at h
  obtain ⟨amount, -, value, -, balances, -, h⟩ := h
  cases h
  rfl

theorem create_records {req : SubscriptionCreateRequest} {p : CreatePlan} {pay : PaymentResult}
    {subId : String} {now : Time} (h : createCommit req p pay subId now = .ok db') :
    Records ⟨none, made⟩ ⟨some db', made'⟩ := by
  simp only [createCommit, bind_eq_ok] at h
  obtain ⟨amount, -, value, -, balances, -, h⟩ := h
  cases h
  refine ⟨[activation], _, rfl, rfl, ?_⟩
  constructor
  · exact ⟨rfl, rfl⟩
  · simpa using ⟨.activate, by decide⟩
  · rfl

theorem renewDeclined_records {p : RenewPlan} {pay : PaymentResult}
    (h : renewDeclined db.sub p pay db = .ok db') : Records ⟨some db, made⟩ ⟨some db', made'⟩ := by
  simp only [renewDeclined, bind_eq_ok] at h
  obtain ⟨dest, hdest, h⟩ := h
  have hlegal := nextState_legal "renewal_payment_declined" hdest
  obtain ⟨-, rfl⟩ := nextState_renewFail.mp hdest
  cases h
  have hfailed : ∀ db₁ : SubDb, db₁.events = db.events → ∀ payload,
      Stages db (db₁.stage "subscription.renew_failed" payload) [] :=
    fun db₁ h₁ payload => (Stages.none h₁).stage _ payload
  by_cases hp : p.pivot
  · simp only [hp, if_true]
    exact records_row rfl rfl rfl hlegal (((hfailed _ rfl _).stage _ _).stage _ _)
  · simp only [hp, Bool.false_eq_true, if_false]
    exact records_row rfl rfl rfl hlegal ((hfailed _ rfl _).stage _ _)

theorem renewApproved_records {p : RenewPlan} {pay : PaymentResult} {existing : List String}
    (h : renewApproved db.sub p pay existing db = .ok db') :
    Records ⟨some db, made⟩ ⟨some db', made'⟩ := by
  simp only [renewApproved, bind_eq_ok] at h
  obtain ⟨balances, -, dest, hdest, row, hrow, h⟩ := h
  have hlegal := nextState_legal "renewal_payment_approved" hdest
  obtain ⟨hs, rfl⟩ := nextState_renew.mp hdest
  have hstate := (writeRow_eq_ok hrow db.sub).1
  have hquiet : ofRow ⟨db.sub.state, .active, "renewal_payment_approved"⟩ = none := by
    rw [hs]
    rfl
  cases h
  by_cases hp : p.pivot
  · simp only [hp, if_true]
    refine records_row rfl rfl hstate hlegal ?_
    rw [hquiet]
    split <;> exact ((Stages.none rfl).stage _ _).stage _ _
  · simp only [hp, Bool.false_eq_true, if_false]
    refine records_row rfl rfl hstate hlegal ?_
    rw [hquiet]
    exact (Stages.none rfl).stage _ _

theorem vas_records {p : VasPlan} {pay : PaymentResult} {now : Time} {target : Option BundleBalanceRow}
    (h : vasCommit db.sub p pay now target db = .ok db') :
    Records ⟨some db, made⟩ ⟨some db', made'⟩ := by
  simp only [vasCommit, bind_eq_ok] at h
  obtain ⟨balances, -, h⟩ := h
  unfold vasTransition at h
  split at h
  · rename_i hs
    simp only [bind_eq_ok] at h
    obtain ⟨dest, hdest, h⟩ := h
    have hlegal := nextState_legal "vas_top_up" hdest
    obtain ⟨-, rfl⟩ := nextState_topUp.mp hdest
    cases h
    refine records_row rfl rfl rfl hlegal ?_
    rw [hs]
    exact ((Stages.none rfl).stage _ _).stage _ _
  · split at h
    · rename_i hs
      simp only [bind_eq_ok] at h
      obtain ⟨dest, hdest, h⟩ := h
      have hlegal := nextState_legal "vas_top_up" hdest
      obtain ⟨-, rfl⟩ := nextState_topUp.mp hdest
      cases h
      refine records_row rfl rfl hs hlegal ?_
      rw [hs]
      exact (Stages.none rfl).stage _ _
    · cases h
      exact records_quiet rfl rfl ((Stages.none rfl).stage _ _)

theorem usage_records {u : UsageCall} {effect : UsageEffect}
    (h : usageCommit db.sub u effect db = .ok db') :
    Records ⟨some db, made⟩ ⟨some db', made'⟩ := by
  unfold usageCommit at h
  split at h
  · cases h
    exact records_quiet rfl rfl ((Stages.none rfl).stage _ _)
  · cases h
    exact records_quiet rfl rfl (Stages.none rfl)
  · rename_i result exhausted
    simp only [bind_eq_ok] at h
    obtain ⟨balances, -, h⟩ := h
    cases exhausted with
    | false =>
      cases h
      exact records_quiet rfl rfl (Stages.none rfl)
    | true =>
      simp only [if_true, usageExhausted, bind_eq_ok] at h
      obtain ⟨dest, hdest, h⟩ := h
      have hlegal := nextState_legal "primary_allowance_exhausted" hdest
      obtain ⟨-, rfl⟩ := nextState_exhaust.mp hdest
      cases h
      exact records_row rfl rfl rfl hlegal (((Stages.none rfl).stage _ _).stage _ _)

theorem terminate_records {p : TerminatePlan} (h : terminateCommit db.sub p db = .ok db') :
    Records ⟨some db, made⟩ ⟨some db', made'⟩ := by
  simp only [terminateCommit, bind_eq_ok] at h
  obtain ⟨dest, hdest, h⟩ := h
  have hlegal := nextState_legal p.reason hdest
  obtain ⟨-, rfl⟩ := nextState_terminate.mp hdest
  cases h
  refine records_row rfl rfl rfl hlegal ?_
  rw [show ofRow ⟨db.sub.state, .terminated, p.reason⟩ = none by simp [ofRow]]
  exact (Stages.none rfl).stage _ _

end

/-! ## Runs -/

theorem step_records {s s' : Line} {op : Op} (h : s.step op = some s') : Records s s' := by
  obtain ⟨stored, made⟩ := s
  cases stored with
  | none =>
    cases op with
    | create env req charge subId now txOk =>
      cases h
      cases hdb : (create env req charge subId now txOk).db with
      | none => exact ⟨[], [], rfl, rfl, rfl, by simp, rfl⟩
      | some db' =>
        obtain ⟨p, pay, -, -, -, hcommit⟩ := create_db hdb
        exact create_records hcommit
    | _ => cases h; exact records_refl _
  | some db =>
    cases op with
    | create _ _ _ _ _ _ => cases h; exact records_refl _
    | usage u txOk =>
      cases h
      rcases handleUsageRated_db u txOk db with hsame | ⟨-, effect, -, hcommit⟩
      · exact records_quiet (by rw [hsame]) (by rw [hsame]) (Stages.none (by rw [hsame]))
      · exact usage_records hcommit
    | vas env id now charge txOk =>
      cases h
      rcases purchaseVas_db env id now charge txOk db with hsame | ⟨p, pay, -, -, -, -, hcommit⟩
      · exact records_quiet (by rw [hsame]) (by rw [hsame]) (Stages.none (by rw [hsame]))
      · exact vas_records hcommit
    | renew env now charge txOk =>
      cases h
      rcases renew_db env now charge txOk db with hsame | ⟨p, pay, -, -, hcommit⟩
      · exact records_quiet (by rw [hsame]) (by rw [hsame]) (Stages.none (by rw [hsame]))
      · unfold renewCommit at hcommit
        split at hcommit
        · exact renewApproved_records hcommit
        · exact renewDeclined_records hcommit
    | terminate reason now txOk =>
      cases h
      rcases terminate_db reason now txOk db with hsame | ⟨p, -, hcommit⟩
      · exact records_quiet (by rw [hsame]) (by rw [hsame]) (Stages.none (by rw [hsame]))
      · exact terminate_records hcommit

/-- The whole history, from before the line is there. -/
def Mirrored (s : Line) : Prop := Adds .pending s.history s.events s.state

theorem adds_trans {a b c : SubState} {rows rows' : List StateHistoryRow} {staged staged' : List Event}
    (h : Adds a rows staged b) (h' : Adds b rows' staged' c) :
    Adds a (rows ++ rows') (staged ++ staged') c := by
  constructor
  · exact isWalk_append h.path h'.path
  · intro r hr
    rcases List.mem_append.mp hr with hr | hr
    · exact h.legal r hr
    · exact h'.legal r hr
  · unfold announcements at *
    rw [List.filterMap_append, List.filterMap_append, ← h'.announced, ← h.announced]
    rfl

theorem mirrored {s : Line} {ops : List Op} (h : exec Line.step Line.new ops = some s) : Mirrored s := by
  refine exec_inv (P := Mirrored) ?_ ?_ h
  · intro s l s' hs hl
    obtain ⟨rows, staged, hrows, hstaged, hadds⟩ := step_records hl
    unfold Mirrored
    rw [hrows, hstaged]
    exact adds_trans hs hadds
  · exact ⟨rfl, by simp [Line.history, Line.new], rfl⟩

/-- The line is there from its activation on. -/
def Begun (s : Line) : Prop := s.db.isSome → s.history.head? = some activation

theorem begun {s : Line} {ops : List Op} (h : exec Line.step Line.new ops = some s) : Begun s := by
  refine exec_inv (P := Begun) ?_ ?_ h
  · intro s l s' hs hl
    obtain ⟨rows, staged, hrows, -, -⟩ := step_records hl
    obtain ⟨stored, made⟩ := s
    intro hsome
    cases stored with
    | some db =>
      rw [hrows, List.head?_append, hs rfl]
      rfl
    | none =>
      cases l with
      | create env req charge subId now txOk =>
        cases hl
        obtain ⟨db', hdb⟩ := Option.isSome_iff_exists.mp hsome
        obtain ⟨p, pay, -, -, -, hcommit⟩ := create_db hdb
        simp only at hdb
        simp [Line.history, hdb, create_history hcommit]
      | _ => cases hl; cases hsome
  · intro hsome
    cases hsome

/-- **The history is a path from the activation to the current state**, and each entry into
the blocked state and each way back has its event in the same transaction. -/
theorem block_events_mirror_state (ops : List Op) (s : Line)
    (h : exec Line.step Line.new ops = some s) :
    (∀ db, s.db = some db →
      db.history.head? = some activation ∧ IsPath .pending db.history db.sub.state ∧
        (∀ r ∈ db.history, Legal r) ∧ (announcements db.events).IsChain (· ≠ ·) ∧
        ∀ a ∈ (announcements db.events).head?, a = .blocked) ∧
      ∀ op s', s.step op = some s' → Records s s' := by
  refine ⟨fun db hdb => ?_, fun op s' hop => step_records hop⟩
  obtain ⟨stored, made⟩ := s
  obtain rfl : stored = some db := hdb
  have hadds := mirrored h
  obtain ⟨hfirst, hchain⟩ := labels_isChain hadds.path fun r hr => legal_paced (hadds.legal r hr)
  have hann : announcements db.events = db.history.filterMap ofRow := hadds.announced
  rw [hann]
  refine ⟨begun h rfl, hadds.path, hadds.legal, hchain, fun a ha => ?_⟩
  have := hfirst a ha
  simpa [upcoming] using this.symm

/-- Usage blocks the line, a top-up brings it back, and usage blocks it again. -/
def sampleOps : List Op :=
  [.create sampleCreateEnv sampleRequest (fun _ => .ok approved) "SUB-0001" 0 true,
   .usage ⟨"data", hundredMb, "UE-1"⟩ true,
   .vas (sampleVasEnv "data" fiftyMb) "VAS-1" 0 (fun _ => .ok approved) true,
   .usage ⟨"data", fiftyMb, "UE-2"⟩ true,
   .terminate "customer_request" 0 true]

theorem block_events_mirror_state_sample :
    let s := (exec Line.step Line.new sampleOps).get (by decide)
    let db := s.db.get (by decide +kernel)
    db.sub.state = .terminated ∧ announcements db.events = [.blocked, .unblocked, .blocked] ∧
      db.history.head? = some activation ∧ IsPath .pending db.history db.sub.state := by
  intro s db
  obtain ⟨hfirst, hpath, -⟩ :=
    (block_events_mirror_state sampleOps s (Option.some_get _).symm).1 db (Option.some_get _).symm
  refine ⟨?_, ?_, hfirst, hpath⟩
  · decide +kernel
  · decide +kernel

end BssCli.Subscription.History
