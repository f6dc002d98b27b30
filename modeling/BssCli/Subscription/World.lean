import BssCli.Lib.Pool
import BssCli.Lib.Steps
import BssCli.Subscription.Service

/-!
# Calls that run at the same time

One line, and any number of calls and worker ticks on it. A call reads the row, calls out,
opens its transaction and commits. Anything may happen between two of these. Every
statement sees what was committed before it (READ COMMITTED), and what a transaction
writes is seen when it commits.
-/

/-!
## The two sweeps of the renewal worker

Both select overdue rows whose mark is older than the date, and mark them before they
commit. One is about active lines, which it then renews, the other about blocked ones.
-/

namespace BssCli.Subscription

def batchLimit : ℕ := 100

inductive Sweep
  | due
  | skipped
  deriving DecidableEq

namespace Sweep

def Selects (s : Sweep) (now : Time) (tenantId : String) (r : SubscriptionRow) : Prop :=
  match s with
  | due => r.DueForRenewal now tenantId
  | skipped => r.OverdueBlocked now tenantId

instance (s : Sweep) (now : Time) (tenantId : String) (r : SubscriptionRow) :
    Decidable (s.Selects now tenantId r) :=
  match s with
  | due => inferInstanceAs (Decidable (r.DueForRenewal now tenantId))
  | skipped => inferInstanceAs (Decidable (r.OverdueBlocked now tenantId))

/-- What the transaction writes to a row it has selected. -/
def mark (s : Sweep) (now : Time) (db : SubDb) : SubDb :=
  match s with
  | due => db.updateSub (·.markRenewalAttempted now)
  | skipped => (db.stage "subscription.renewal_skipped"
      [("subscriptionId", .str db.sub.id), ("reason", .str "blocked"),
       ("skippedAt", .time now)]).updateSub (·.markRenewalAttempted now)

theorem selects_overdue {s : Sweep} {now : Time} {tenantId : String} {r : SubscriptionRow}
    (h : s.Selects now tenantId r) : r.Overdue now ∧ r.Unattempted := by
  cases s with
  | due => exact ⟨h.2.1, h.2.2.1⟩
  | skipped => exact ⟨h.2.1, h.2.2.1⟩

@[simp]
theorem mark_sub (s : Sweep) (now : Time) (db : SubDb) :
    (s.mark now db).sub = db.sub.markRenewalAttempted now := by
  cases s <;> rfl

end Sweep

end BssCli.Subscription

namespace BssCli.Subscription

inductive Call
  | renew (env : RenewEnv)
  | vas (env : VasEnv) (vasOfferingId : String)
  | usage (u : UsageCall)
  | terminate (reason : String)
  | schedule (env : ScheduleEnv) (newOfferingId : String)
  | cancel
  | migrate (env : MigrateEnv) (call : MigrateCall)

/-- How far a call has come, with what it has decided so far. -/
inductive Phase
  | renewing (p : RenewPlan)
  | renewed (p : RenewPlan) (pay : PaymentResult)
  | resetting (p : RenewPlan) (pay : PaymentResult) (existing : List String)
  | buying (p : VasPlan)
  | bought (p : VasPlan) (pay : PaymentResult) (now : Time)
  | adding (p : VasPlan) (pay : PaymentResult) (now : Time) (target : Option BundleBalanceRow)
  | using (u : UsageCall)
  | decrementing (u : UsageCall) (effect : UsageEffect)
  | terminating (p : TerminatePlan)
  | changing (write : PendingWrite)

structure Flight where
  found : SubscriptionRow
  phase : Phase

/-! ## The parts of a call -/

/-- The phase a call is in once it has read the row. A refused call is over. -/
def Call.start (now : Time) (sub : SubscriptionRow) : Call → Option Phase
  | .renew env => (renewPlan env now sub).toOption.map .renewing
  | .vas env id => (vasPlan env id sub).toOption.map .buying
  | .usage u => if UsageCall.accepted sub then some (.using u) else none
  | .terminate reason => (terminatePlan reason now sub).toOption.map .terminating
  | .schedule env id => (schedulePlanChange env id sub).toOption.map .changing
  | .cancel => (cancelPendingPlanChange sub).map .changing
  | .migrate env call => ((migrateSubscription env call sub).toOption.bind id).map .changing

/-- What a charge has made of a call: the next phase or its end. -/
structure Charged where
  next : Option Phase
  charges : List Charge

namespace Flight

def charge (f : Flight) (now : Time) (reply : Except ClientError PaymentResult) : Option Charged :=
  match f.phase, reply with
  | .renewing p, .ok pay =>
    some ⟨some (.renewed p pay), [⟨p.request f.found, p.discount, pay.Approved⟩]⟩
  | .renewing _, .error _ => some ⟨none, []⟩
  | .buying p, .ok pay =>
    some ⟨if pay.Approved then some (.bought p pay now) else none,
      [⟨p.request f.found, false, pay.Approved⟩]⟩
  | .buying _, .error _ => some ⟨none, []⟩
  | _, _ => none

/-- What the transaction reads when it begins. -/
def openTx (f : Flight) (db : SubDb) : Option (Option Phase) :=
  match f.phase with
  | .renewed p pay => some (some (.resetting p pay (existingTypes db)))
  | .bought p pay now => some (some (.adding p pay now (vasTarget p db)))
  | .using u => some ((usageOpen u db).toOption.map (.decrementing u))
  | _ => none

/-- The rows as the transaction leaves them. `none` before it has begun. -/
def commit (f : Flight) (db : SubDb) : Option (Except ApiError SubDb) :=
  match f.phase with
  | .resetting p pay existing => some (renewCommit f.found p pay existing db)
  | .adding p pay now target => some (vasCommit f.found p pay now target db)
  | .decrementing u effect => some (usageCommit f.found u effect db)
  | .terminating p => some (terminateCommit f.found p db)
  | .changing write => some (.ok (pendingCommit write db))
  | _ => none

def renewal (f : Flight) : Option RenewPlan :=
  match f.phase with
  | .renewing p => some p
  | .renewed p _ => some p
  | .resetting p _ _ => some p
  | _ => none

/-- The renewal whose charge was approved and is not stored yet. -/
def paid (f : Flight) : Option RenewPlan :=
  match f.phase with
  | .renewed p pay => if pay.Approved then some p else none
  | .resetting p pay _ => if pay.Approved then some p else none
  | _ => none

/-- The balance row it keeps locked from its read to its commit. -/
def holds (f : Flight) : Option String :=
  match f.phase with
  | .decrementing u (.decrement _ _) => some u.allowanceType
  | _ => none

/-- The balance rows it wants to lock next. -/
def wants (f : Flight) : List String :=
  match f.phase with
  | .resetting p pay existing =>
    if pay.Approved then existing.filter fun ty => p.pivot || (p.specOf ty).isSome else []
  | .adding p _ _ (some b) => if 0 < p.quantity.val ∧ b.total ≠ -1 then [b.allowanceType] else []
  | .using u => [u.allowanceType]
  | .decrementing u (.decrement _ _) => [u.allowanceType]
  | _ => []

end Flight

/-! ## What a call can do -/

inductive Started (now : Time) (sub : SubscriptionRow) : Call → Phase → Prop
  | renewing {env p} : renewPlan env now sub = .ok p → Started now sub (.renew env) (.renewing p)
  | buying {env id p} : vasPlan env id sub = .ok p → Started now sub (.vas env id) (.buying p)
  | used {u} : UsageCall.accepted sub = true → Started now sub (.usage u) (.using u)
  | terminating {reason p} : terminatePlan reason now sub = .ok p →
      Started now sub (.terminate reason) (.terminating p)
  | scheduled {env id write} : Started now sub (.schedule env id) (.changing write)
  | cancelled {write} : Started now sub .cancel (.changing write)
  | migrated {env call write} : Started now sub (.migrate env call) (.changing write)

theorem start_started {c : Call} {now : Time} {sub : SubscriptionRow} {phase : Phase}
    (h : c.start now sub = some phase) : Started now sub c phase := by
  cases c with
  | renew env =>
    obtain ⟨p, hp, rfl⟩ := Option.map_eq_some_iff.mp h
    exact .renewing (toOption_eq_some.mp hp)
  | vas env id =>
    obtain ⟨p, hp, rfl⟩ := Option.map_eq_some_iff.mp h
    exact .buying (toOption_eq_some.mp hp)
  | usage u =>
    simp only [Call.start, Option.ite_none_right_eq_some, Option.some.injEq] at h
    obtain ⟨haccepted, rfl⟩ := h
    exact .used haccepted
  | terminate reason =>
    obtain ⟨p, hp, rfl⟩ := Option.map_eq_some_iff.mp h
    exact .terminating (toOption_eq_some.mp hp)
  | schedule env id =>
    obtain ⟨write, -, rfl⟩ := Option.map_eq_some_iff.mp h
    exact .scheduled
  | cancel =>
    obtain ⟨write, -, rfl⟩ := Option.map_eq_some_iff.mp h
    exact .cancelled
  | migrate env call =>
    obtain ⟨write, -, rfl⟩ := Option.map_eq_some_iff.mp h
    exact .migrated

/-- A reply to a charge ends the call, or lets it go on. -/
inductive Replied (f : Flight) (now : Time) : Except ClientError PaymentResult → Charged → Prop
  | renewed {p pay} : f.phase = .renewing p → Replied f now (.ok pay)
      ⟨some (.renewed p pay), [⟨p.request f.found, p.discount, pay.Approved⟩]⟩
  | bought {p pay} : f.phase = .buying p → pay.Approved → Replied f now (.ok pay)
      ⟨some (.bought p pay now), [⟨p.request f.found, false, true⟩]⟩
  | declined {p pay} : f.phase = .buying p → ¬ pay.Approved → Replied f now (.ok pay)
      ⟨none, [⟨p.request f.found, false, false⟩]⟩
  | failed {e} : f.paid = none → Replied f now (.error e) ⟨none, []⟩

theorem charge_replied {f : Flight} {now : Time} {reply : Except ClientError PaymentResult} {c : Charged}
    (h : f.charge now reply = some c) : Replied f now reply c := by
  unfold Flight.charge at h
  split at h <;> simp only [Option.some.injEq, reduceCtorEq] at h <;> subst h
  · rename_i p pay hf
    exact .renewed hf
  · rename_i p e hf
    exact .failed (by simp [Flight.paid, hf])
  · rename_i p pay hf
    by_cases happ : pay.Approved
    · simp only [happ, if_true, decide_true]
      exact .bought hf happ
    · simp only [happ, if_false, decide_false]
      exact .declined hf happ
  · rename_i p e hf
    exact .failed (by simp [Flight.paid, hf])

inductive Opened (f : Flight) (db : SubDb) : Option Phase → Prop
  | resetting {p pay} : f.phase = .renewed p pay →
      Opened f db (some (.resetting p pay (existingTypes db)))
  | adding {p pay now} : f.phase = .bought p pay now →
      Opened f db (some (.adding p pay now (vasTarget p db)))
  | decrementing {u effect} : f.phase = .using u → usageOpen u db = .ok effect →
      Opened f db (some (.decrementing u effect))
  | refused {u e} : f.phase = .using u → usageOpen u db = .error e → Opened f db none

theorem openTx_opened {f : Flight} {db : SubDb} {next : Option Phase} (h : f.openTx db = some next) :
    Opened f db next := by
  unfold Flight.openTx at h
  split at h <;> simp only [Option.some.injEq, reduceCtorEq] at h <;> subst h
  · rename_i p pay hf
    exact .resetting hf
  · rename_i p pay now hf
    exact .adding hf
  · rename_i u hf
    cases ho : usageOpen u db with
    | error e => exact .refused hf ho
    | ok effect => exact .decrementing hf ho

/-- The row before and after a commit. A call that writes the state has read a row from
which the table allows it. -/
inductive RowWrite (f : Flight) (r : SubscriptionRow) : SubscriptionRow → Prop
  | renewed {p pay existing row} : f.phase = .resetting p pay existing → pay.Approved →
      f.found.state = .active → p.writeRow f.found .active = .ok row → RowWrite f r (row r)
  | declined {p pay existing} : f.phase = .resetting p pay existing → ¬ pay.Approved →
      f.found.state = .active → RowWrite f r (r.setState .blocked "renewal_payment_declined")
  | bought {p pay now target} : f.phase = .adding p pay now target → RowWrite f r (vasRow f.found r)
  | blocked {u result} : f.phase = .decrementing u (.decrement result true) →
      f.found.state = .active → RowWrite f r (r.setState .blocked "primary_allowance_exhausted")
  | used {u effect} : f.phase = .decrementing u effect → (∀ result, effect ≠ .decrement result true) →
      RowWrite f r r
  | terminated {p} : f.phase = .terminating p → RowWrite f r (r.setTerminated .terminated p.reason p.now)
  | changed {c} : f.phase = .changing c → RowWrite f r (r.setPending c.offeringId c.priceId c.effectiveAt)

theorem usageCommit_rowWrite {f : Flight} {u : UsageCall} {effect : UsageEffect} {db db' : SubDb}
    (hf : f.phase = .decrementing u effect) (h : usageCommit f.found u effect db = .ok db') :
    RowWrite f db.sub db'.sub := by
  obtain ⟨hsub, -⟩ := usageCommit_eq_ok h
  rw [hsub]
  cases effect with
  | reject pv => exact .used hf (by simp)
  | missing => exact .used hf (by simp)
  | decrement result exhausted =>
    cases exhausted with
    | false => exact .used hf (by simp)
    | true =>
      simp only [usageCommit, bind_eq_ok, if_true] at h
      obtain ⟨balances, -, h⟩ := h
      exact .blocked hf (usageExhausted_eq_ok h).1

theorem commit_rowWrite {f : Flight} {db db' : SubDb} (h : f.commit db = some (.ok db')) :
    RowWrite f db.sub db'.sub := by
  unfold Flight.commit at h
  split at h <;> simp only [Option.some.injEq, reduceCtorEq] at h
  · rename_i p pay existing hf
    unfold renewCommit at h
    split at h
    · rename_i happ
      obtain ⟨hs, ⟨row, hrow, hsub⟩, -⟩ := renewApproved_eq_ok h
      rw [hsub]
      exact .renewed hf happ hs hrow
    · rename_i happ
      obtain ⟨hs, hsub, -⟩ := renewDeclined_eq_ok h
      rw [hsub]
      exact .declined hf happ hs
  · rename_i p pay now target hf
    rw [(vasCommit_eq_ok h).1]
    exact .bought hf
  · rename_i u effect hf
    exact usageCommit_rowWrite hf h
  · rename_i p hf
    rw [(terminateCommit_eq_ok h).1]
    exact .terminated hf
  · rename_i c hf
    cases h
    rw [(pendingCommit_rows c db).1]
    exact .changed hf

theorem rowWrite_same {f : Flight} {r r' : SubscriptionRow} (h : RowWrite f r r') :
    r'.id = r.id ∧ r'.lastRenewalAttemptedAt = r.lastRenewalAttemptedAt := by
  cases h with
  | renewed _ _ _ hrow =>
    obtain ⟨-, -, -, hid, hlast, -⟩ := writeRow_eq_ok hrow r
    exact ⟨hid, hlast⟩
  | bought _ =>
    unfold vasRow
    split <;> exact ⟨rfl, rfl⟩
  | declined _ _ _ | blocked _ _ | used _ _ | terminated _ | changed _ => exact ⟨rfl, rfl⟩

/-! ## The world -/

/-- A commit, with the row it found and the row it left. -/
structure Commit where
  row : SubscriptionRow
  after : SubscriptionRow
  flight : Flight

structure World where
  db : SubDb
  flights : List Flight
  clock : Time
  /-- Times the line is in a batch that a worker still has to dispatch. -/
  dispatching : ℕ
  charges : List Charge
  committed : List Commit

inductive Label
  | tick (now : Time)
  | read (c : Call)
  | dispatch (env : RenewEnv)
  | drop
  | charge (i : ℕ) (reply : Except ClientError PaymentResult)
  | openTx (i : ℕ)
  | commit (i : ℕ)
  | fail (i : ℕ)
  | sweepDue (now : Time) (tenantId : String)
  | sweepSkipped (now : Time) (tenantId : String)

def Label.reads : Label → Option Call
  | .read c => some c
  | .dispatch env => some (.renew env)
  | _ => none

/-- Nobody else holds a row that the flight at `i` wants. -/
def Free (flights : List Flight) (i : ℕ) (f : Flight) : Prop :=
  ∀ g ∈ flights.eraseIdx i, ∀ ty ∈ g.holds, ty ∉ f.wants

instance (flights : List Flight) (i : ℕ) (f : Flight) : Decidable (Free flights i f) :=
  inferInstanceAs (Decidable (∀ g ∈ flights.eraseIdx i, ∀ ty ∈ g.holds, ty ∉ f.wants))

namespace World

def launch (w : World) (phase : Phase) : World :=
  { w with flights := w.flights ++ [⟨w.db.sub, phase⟩] }

/-- The flight at `i` goes on, or is over. -/
def goOn (w : World) (i : ℕ) (f : Flight) : Option Phase → World
  | some phase => { w with flights := w.flights.set i ⟨f.found, phase⟩ }
  | none => { w with flights := w.flights.eraseIdx i }

def stepCharge (w : World) (i : ℕ) (f : Flight) (reply : Except ClientError PaymentResult) : Option World :=
  (f.charge w.clock reply).map fun c =>
    { w.goOn i f c.next with charges := w.charges ++ c.charges }

def stepOpen (w : World) (i : ℕ) (f : Flight) : Option World :=
  if Free w.flights i f then (f.openTx w.db).map (w.goOn i f) else none

def stepCommit (w : World) (i : ℕ) (f : Flight) : Option World :=
  if Free w.flights i f then
    (f.commit w.db).map fun
      | .ok db => { w with
          db
          flights := w.flights.eraseIdx i
          committed := w.committed ++ [⟨w.db.sub, db.sub, f⟩] }
      | .error _ => { w with flights := w.flights.eraseIdx i }
  else none

/-- The worker marks the row before it dispatches it. -/
def stepSweepDue (w : World) (now : Time) (tenantId : String) : Option World :=
  if now ≤ w.clock ∧ Sweep.due.Selects now tenantId w.db.sub then
    some { w with db := Sweep.due.mark now w.db, dispatching := w.dispatching + 1 }
  else none

def stepSweepSkipped (w : World) (now : Time) (tenantId : String) : Option World :=
  if now ≤ w.clock ∧ Sweep.skipped.Selects now tenantId w.db.sub then
    some { w with db := Sweep.skipped.mark now w.db }
  else none

def step (w : World) : Label → Option World
  | .tick now => if w.clock ≤ now then some { w with clock := now } else none
  | .read c => (c.start w.clock w.db.sub).map w.launch
  | .dispatch env =>
    if 0 < w.dispatching then
      (Call.start w.clock w.db.sub (.renew env)).map fun phase =>
        { w.launch phase with dispatching := w.dispatching - 1 }
    else none
  | .drop => if 0 < w.dispatching then some { w with dispatching := w.dispatching - 1 } else none
  | .charge i reply => w.flights[i]?.bind fun f => w.stepCharge i f reply
  | .openTx i => w.flights[i]?.bind fun f => w.stepOpen i f
  | .commit i => w.flights[i]?.bind fun f => w.stepCommit i f
  | .fail i => w.flights[i]?.map fun _ => { w with flights := w.flights.eraseIdx i }
  | .sweepDue now tenantId => w.stepSweepDue now tenantId
  | .sweepSkipped now tenantId => w.stepSweepSkipped now tenantId

def committing (w : World) : Label → Option Flight
  | .commit i => w.flights[i]?
  | _ => none

def idle (db : SubDb) (clock : Time) : World := ⟨db, [], clock, 0, [], []⟩

/-! ## What a step can do -/

/-- Every step, with what it found and what it leaves. -/
inductive Moved (w : World) : Label → World → Prop
  | tick {now} : w.clock ≤ now → Moved w (.tick now) { w with clock := now }
  | read {c phase} : c.start w.clock w.db.sub = some phase → Moved w (.read c) (w.launch phase)
  | dispatch {env phase} : 0 < w.dispatching →
      Call.start w.clock w.db.sub (.renew env) = some phase →
      Moved w (.dispatch env) { w.launch phase with dispatching := w.dispatching - 1 }
  | drop : 0 < w.dispatching → Moved w .drop { w with dispatching := w.dispatching - 1 }
  | charge {i f reply c} : w.flights[i]? = some f → f.charge w.clock reply = some c →
      Moved w (.charge i reply) { w.goOn i f c.next with charges := w.charges ++ c.charges }
  | openTx {i f next} : w.flights[i]? = some f → Free w.flights i f → f.openTx w.db = some next →
      Moved w (.openTx i) (w.goOn i f next)
  | commit {i f db} : w.flights[i]? = some f → Free w.flights i f → f.commit w.db = some (.ok db) →
      Moved w (.commit i) { w with
        db, flights := w.flights.eraseIdx i, committed := w.committed ++ [⟨w.db.sub, db.sub, f⟩] }
  | rollback {i f e} : w.flights[i]? = some f → f.commit w.db = some (.error e) →
      Moved w (.commit i) { w with flights := w.flights.eraseIdx i }
  | fail {i f} : w.flights[i]? = some f →
      Moved w (.fail i) { w with flights := w.flights.eraseIdx i }
  | sweepDue {now tenantId} : now ≤ w.clock → Sweep.due.Selects now tenantId w.db.sub →
      Moved w (.sweepDue now tenantId) { w with
        db := Sweep.due.mark now w.db, dispatching := w.dispatching + 1 }
  | sweepSkipped {now tenantId} : now ≤ w.clock → Sweep.skipped.Selects now tenantId w.db.sub →
      Moved w (.sweepSkipped now tenantId) { w with db := Sweep.skipped.mark now w.db }

theorem step_moved {w w' : World} {l : Label} (h : w.step l = some w') : Moved w l w' := by
  cases l with
  | tick now =>
    simp only [step, Option.ite_none_right_eq_some, Option.some.injEq] at h
    obtain ⟨hle, rfl⟩ := h
    exact .tick hle
  | read c =>
    obtain ⟨phase, hs, rfl⟩ := Option.map_eq_some_iff.mp h
    exact .read hs
  | dispatch env =>
    simp only [step, Option.ite_none_right_eq_some] at h
    obtain ⟨hpos, h⟩ := h
    obtain ⟨phase, hs, rfl⟩ := Option.map_eq_some_iff.mp h
    exact .dispatch hpos hs
  | drop =>
    simp only [step, Option.ite_none_right_eq_some, Option.some.injEq] at h
    obtain ⟨hpos, rfl⟩ := h
    exact .drop hpos
  | charge i reply =>
    obtain ⟨f, hf, h⟩ := Option.bind_eq_some_iff.mp h
    obtain ⟨c, hc, rfl⟩ := Option.map_eq_some_iff.mp h
    exact .charge hf hc
  | openTx i =>
    obtain ⟨f, hf, h⟩ := Option.bind_eq_some_iff.mp h
    simp only [stepOpen, Option.ite_none_right_eq_some] at h
    obtain ⟨hfree, h⟩ := h
    obtain ⟨next, hn, rfl⟩ := Option.map_eq_some_iff.mp h
    exact .openTx hf hfree hn
  | commit i =>
    obtain ⟨f, hf, h⟩ := Option.bind_eq_some_iff.mp h
    simp only [stepCommit, Option.ite_none_right_eq_some] at h
    obtain ⟨hfree, h⟩ := h
    obtain ⟨r, hr, rfl⟩ := Option.map_eq_some_iff.mp h
    cases r with
    | ok db => exact .commit hf hfree hr
    | error e => exact .rollback hf hr
  | fail i =>
    obtain ⟨f, hf, rfl⟩ := Option.map_eq_some_iff.mp h
    exact .fail hf
  | sweepDue now tenantId =>
    simp only [step, stepSweepDue, Option.ite_none_right_eq_some, Option.some.injEq] at h
    obtain ⟨⟨hle, hdue⟩, rfl⟩ := h
    exact .sweepDue hle hdue
  | sweepSkipped now tenantId =>
    simp only [step, stepSweepSkipped, Option.ite_none_right_eq_some, Option.some.injEq] at h
    obtain ⟨⟨hle, hdue⟩, rfl⟩ := h
    exact .sweepSkipped hle hdue

/-! ## Rules for invariants -/

section Rules

variable {w : World} {i : ℕ} {f : Flight}

@[simp] theorem goOn_db (n : Option Phase) : (w.goOn i f n).db = w.db := by cases n <;> rfl
@[simp] theorem goOn_clock (n : Option Phase) : (w.goOn i f n).clock = w.clock := by cases n <;> rfl
@[simp] theorem goOn_charges (n : Option Phase) : (w.goOn i f n).charges = w.charges := by
  cases n <;> rfl
@[simp] theorem goOn_committed (n : Option Phase) : (w.goOn i f n).committed = w.committed := by
  cases n <;> rfl
@[simp] theorem goOn_dispatching (n : Option Phase) : (w.goOn i f n).dispatching = w.dispatching := by
  cases n <;> rfl

theorem forall_goOn {P : Flight → Prop} {n : Option Phase} (h : ∀ g ∈ w.flights, P g)
    (hn : ∀ phase ∈ n, P ⟨f.found, phase⟩) : ∀ g ∈ (w.goOn i f n).flights, P g := by
  cases n with
  | none => exact Pool.forall_eraseIdx h
  | some phase => exact Pool.forall_set h (hn phase rfl)

end Rules

theorem countP_goOn (q : Flight → Bool) {w : World} {i : ℕ} {f : Flight} (hf : w.flights[i]? = some f)
    (n : Option Phase) :
    (w.goOn i f n).flights.countP q + (if q f then 1 else 0) =
      w.flights.countP q + if n.any fun phase => q ⟨f.found, phase⟩ then 1 else 0 := by
  cases n with
  | none =>
    simp only [goOn, Option.any_none, Bool.false_eq_true, if_false, Pool.countP_eraseIdx q hf]
    omega
  | some phase => exact Pool.countP_set q hf _

/-- What holds of a call once it has read the row, and is kept by its charge and by the
opening of its transaction, holds of all calls under way, whatever is committed meanwhile. -/
theorem flights_inv {Q : Flight → Prop} {w w' : World} {l : Label} (h : w.step l = some w')
    (hread : ∀ c ∈ l.reads, ∀ phase, c.start w.clock w.db.sub = some phase → Q ⟨w.db.sub, phase⟩)
    (hcharge : ∀ f reply c phase, Q f → f.charge w.clock reply = some c → c.next = some phase →
      Q ⟨f.found, phase⟩)
    (hopen : ∀ f phase, Q f → f.openTx w.db = some (some phase) → Q ⟨f.found, phase⟩)
    (hQ : ∀ f ∈ w.flights, Q f) : ∀ f ∈ w'.flights, Q f := by
  cases step_moved h with
  | tick _ | drop _ | sweepDue _ _ | sweepSkipped _ _ => exact hQ
  | read hs | dispatch _ hs => exact Pool.forall_concat hQ (hread _ rfl _ hs)
  | charge hf hc =>
    exact forall_goOn hQ fun phase hp => hcharge _ _ _ phase (hQ _ (Pool.mem_of_getElem? hf)) hc hp
  | openTx hf _ ho =>
    exact forall_goOn hQ fun phase hp =>
      hopen _ phase (hQ _ (Pool.mem_of_getElem? hf)) (by rw [ho, Option.mem_def.mp hp])
  | commit _ _ _ | rollback _ _ | fail _ => exact Pool.forall_eraseIdx hQ

theorem found_inv {P : SubscriptionRow → Prop} {w w' : World} {l : Label} (h : w.step l = some w')
    (hread : P w.db.sub) (hP : ∀ f ∈ w.flights, P f.found) : ∀ f ∈ w'.flights, P f.found :=
  flights_inv h (fun _ _ _ _ => hread) (fun _ _ _ _ hf _ _ => hf) (fun _ _ hf _ => hf) hP

/-! ## Renewals under way -/

/-- A renewal carries the plan made from the row it has read. -/
def Planned (f : Flight) : Prop := ∀ p ∈ f.renewal, ∃ env, renewPlan env p.now f.found = .ok p

theorem start_planned {c : Call} {now : Time} {sub : SubscriptionRow} {phase : Phase}
    (h : c.start now sub = some phase) : Planned ⟨sub, phase⟩ := by
  intro p hp
  cases start_started h with
  | renewing hplan =>
    cases hp
    exact ⟨_, by rw [(renewPlan_eq_ok hplan).2.1, hplan]⟩
  | buying _ | used _ | terminating _ | scheduled | cancelled | migrated => cases hp

theorem charge_renewal {f : Flight} {now : Time} {reply : Except ClientError PaymentResult} {c : Charged}
    {phase : Phase} (h : f.charge now reply = some c) (hp : c.next = some phase) :
    (⟨f.found, phase⟩ : Flight).renewal = f.renewal := by
  cases charge_replied h with
  | renewed hf | bought hf _ =>
    cases hp
    simp [Flight.renewal, hf]
  | declined _ _ | failed _ => cases hp

theorem openTx_renewal {f : Flight} {db : SubDb} {phase : Phase} (h : f.openTx db = some (some phase)) :
    (⟨f.found, phase⟩ : Flight).renewal = f.renewal := by
  cases openTx_opened h with
  | resetting hf | adding hf | decrementing hf _ => simp [Flight.renewal, hf]

theorem planned_inv {w w' : World} {l : Label} (h : w.step l = some w')
    (hP : ∀ f ∈ w.flights, Planned f) : ∀ f ∈ w'.flights, Planned f :=
  flights_inv h (fun _ _ _ hs => start_planned hs)
    (fun f _ _ _ hf hc hp p hmem => hf p (by rwa [charge_renewal hc hp] at hmem))
    (fun f _ hf ho p hmem => hf p (by rwa [openTx_renewal ho] at hmem)) hP

end World

end BssCli.Subscription

/-!
# A terminated line

A call writes the state it has worked out from the row it read, whatever has been
committed since. So termination is final only while no call carries an older row across it.
-/

namespace BssCli.Subscription.Terminated

open Steps

/-- `terminated_at` is set exactly on a terminated row. -/
def Stamped (r : SubscriptionRow) : Prop := r.state = .terminated ↔ r.terminatedAt.isSome

instance (r : SubscriptionRow) : Decidable (Stamped r) := inferInstanceAs (Decidable (_ ↔ _))

/-- The commit sets the `state` column to something that is not terminated. -/
def writesState (f : Flight) : Bool :=
  match f.phase with
  | .resetting _ _ _ => true
  | .adding _ _ _ _ => f.found.state = .blocked
  | .decrementing _ (.decrement _ exhausted) => exhausted
  | _ => false

/-- A commit that writes the state finds the row still terminated or not as it was read. -/
def NoneTerminatedSince (w : World) (l : Label) : Prop :=
  ∀ f ∈ w.committing l, writesState f → w.db.sub.terminatedAt = f.found.terminatedAt

instance (w : World) (l : Label) : Decidable (NoneTerminatedSince w l) :=
  inferInstanceAs (Decidable (∀ f ∈ w.committing l, writesState f → _ = _))

theorem create_stamped {req : SubscriptionCreateRequest} {p : CreatePlan} {pay : PaymentResult}
    {subId : String} {now : Time} {db : SubDb} (h : createCommit req p pay subId now = .ok db) :
    Stamped db.sub := by
  obtain ⟨amount, value, -, -, hsub, -⟩ := createCommit_eq_ok h
  rw [hsub]
  simp [Stamped, createRow]

theorem Stamped.live {r : SubscriptionRow} (h : Stamped r) (hs : r.state ≠ .terminated) :
    r.terminatedAt = none := by
  by_contra hne
  exact hs (h.mpr (Option.isSome_iff_ne_none.mpr hne))

/-- The row after a commit is as stamped as it was, and terminated if it was. -/
theorem rowWrite_keeps {f : Flight} {r r' : SubscriptionRow} (h : RowWrite f r r') (hr : Stamped r)
    (hfound : Stamped f.found) (hsince : writesState f → r.terminatedAt = f.found.terminatedAt) :
    Stamped r' ∧ (r.state = .terminated → r'.state = .terminated) := by
  -- A write of the state starts from a live row, and nobody has terminated it since.
  have hlive : writesState f → f.found.state ≠ .terminated →
      r.terminatedAt = none ∧ r.state ≠ .terminated := by
    intro hw hs
    have hnone : r.terminatedAt = none := (hsince hw).trans (hfound.live hs)
    refine ⟨hnone, fun ht => ?_⟩
    have := hr.mp ht
    rw [hnone] at this
    cases this
  cases h with
  | renewed hf _ hs hrow =>
    obtain ⟨hnone, hne⟩ := hlive (by simp [writesState, hf]) (by simp [hs])
    obtain ⟨hstate, -, hterm, -⟩ := writeRow_eq_ok hrow r
    refine ⟨?_, fun h => absurd h hne⟩
    rw [Stamped, hstate, hterm, hnone]
    simp
  | declined hf _ hs =>
    obtain ⟨hnone, hne⟩ := hlive (by simp [writesState, hf]) (by simp [hs])
    exact ⟨by simp [Stamped, SubscriptionRow.setState, hnone], fun h => absurd h hne⟩
  | blocked hf hs =>
    obtain ⟨hnone, hne⟩ := hlive (by simp [writesState, hf]) (by simp [hs])
    exact ⟨by simp [Stamped, SubscriptionRow.setState, hnone], fun h => absurd h hne⟩
  | bought hf =>
    unfold vasRow
    split
    · rename_i hs
      obtain ⟨hnone, hne⟩ := hlive (by simp [writesState, hf, hs]) (by simp [hs])
      exact ⟨by simp [Stamped, SubscriptionRow.setState, hnone], fun h => absurd h hne⟩
    · exact ⟨hr, id⟩
    · exact ⟨hr, id⟩
  | used _ _ => exact ⟨hr, id⟩
  | terminated _ => exact ⟨by simp [Stamped, SubscriptionRow.setTerminated], fun _ => rfl⟩
  | changed _ => exact ⟨hr, id⟩

structure Inv (w : World) : Prop where
  row : Stamped w.db.sub
  found : ∀ f ∈ w.flights, Stamped f.found

theorem step_keeps {w w' : World} {l : Label} (hi : Inv w) (hc : NoneTerminatedSince w l)
    (h : w.step l = some w') :
    Inv w' ∧ (w.db.sub.state = .terminated → w'.db.sub.state = .terminated) := by
  have hfound := World.found_inv h hi.row hi.found
  cases World.step_moved h with
  | tick _ | read _ | dispatch _ _ | drop _ | rollback _ _ | fail _ => exact ⟨⟨hi.row, hfound⟩, id⟩
  | charge _ _ | openTx _ _ _ => exact ⟨⟨by simpa using hi.row, hfound⟩, by simp⟩
  | sweepDue _ _ | sweepSkipped _ _ => exact ⟨⟨hi.row, hfound⟩, id⟩
  | commit hf _ hcommit =>
    have hkeep := rowWrite_keeps (commit_rowWrite hcommit) hi.row
      (hi.found _ (Pool.mem_of_getElem? hf)) (hc _ hf)
    exact ⟨⟨hkeep.1, hfound⟩, hkeep.2⟩

theorem run_inv {w w' : World} {ls : List Label} (hi : Inv w)
    (h : exec (guarded NoneTerminatedSince World.step) w ls = some w') : Inv w' :=
  guarded_inv (fun _ _ _ hi hc h => (step_keeps hi hc h).1) hi h

/-- **Terminated is final** in every run in which no termination is committed between the
read and the commit of a call that writes the state. -/
theorem terminated_absorbing (db : SubDb) (clock : Time) (hdb : Stamped db.sub) (ls ls' : List Label)
    (w w' : World) (h : exec (guarded NoneTerminatedSince World.step) (World.idle db clock) ls = some w)
    (hw : w.db.sub.state = .terminated)
    (h' : exec (guarded NoneTerminatedSince World.step) w ls' = some w') :
    w'.db.sub.state = .terminated := by
  have hi : Inv w := run_inv ⟨hdb, by simp [World.idle]⟩ h
  have hstep : ∀ s l s', (Inv s ∧ s.db.sub.state = .terminated) → NoneTerminatedSince s l →
      s.step l = some s' → Inv s' ∧ s'.db.sub.state = .terminated := by
    rintro s l s' ⟨hs, ht⟩ hc hl
    obtain ⟨hs', ht'⟩ := step_keeps hs hc hl
    exact ⟨hs', ht' ht⟩
  exact (guarded_inv hstep ⟨hi, hw⟩ h').2

/-- A line is terminated while a top-up on it is under way. The top-up read it active, so
it leaves the state alone. -/
theorem terminated_absorbing_top_up :
    ((exec (guarded NoneTerminatedSince World.step)
        ((exec (guarded NoneTerminatedSince World.step) (World.idle (sampleLine .active 100 70) 0)
          [.read (.vas (sampleVasEnv "data" ⟨50, by decide⟩) "VAS-1"), .read (.terminate "port_out"),
           .charge 0 (.ok approved), .commit 1]).get (by decide))
        [.openTx 0, .commit 0]).get (by decide +kernel)).db.sub.state = .terminated :=
  terminated_absorbing (sampleLine .active 100 70) 0 (by decide) _ _ _ _ (Option.some_get _).symm
    (by decide) (Option.some_get _).symm

/-- A renewal reads the line, the line is terminated, the renewal commits: active again. -/
theorem terminated_renewed :
    ∃ w w', exec World.step (World.idle (sampleLine .active 100 70) 0)
        [.read (.renew sampleRenewEnv), .read (.terminate "port_out"), .commit 1] = some w ∧
      w.db.sub.state = .terminated ∧
      exec World.step w [.charge 0 (.ok approved), .openTx 0, .commit 0] = some w' ∧
      w'.db.sub.state = .active :=
  ⟨_, _, rfl, rfl, rfl, rfl⟩

end BssCli.Subscription.Terminated
