import BssCli.Lib.Pool
import BssCli.Subscription.World

/-!
# The worker on every replica

All lines, and any number of ticks on any number of replicas. A sweep takes its rows with
`FOR UPDATE SKIP LOCKED`: what matched when the statement began, in order, is locked row by
row, a row that somebody else has locked is left out, and a row is looked at again once it
is locked. The locks go with the commit of the marks. Then the renewals are dispatched one
by one.
-/

namespace BssCli.Subscription

abbrev Lines := Table (fun db : SubDb => db.sub.id) (fun id : String => id)

/-- How far a sweep has come. A batch has each id with the date it was selected for. -/
inductive TickPhase
  | scanning (candidates : List String) (batch : List (String × Time))
  | dispatching (queue : List (String × Time))

structure Tick where
  sweep : Sweep
  now : Time
  tenantId : String
  phase : TickPhase

namespace Tick

def locks (t : Tick) : List String :=
  match t.phase with
  | .scanning _ batch => batch.map Prod.fst
  | .dispatching _ => []

def queue (t : Tick) : List (String × Time) :=
  match t.phase with
  | .scanning _ _ => []
  | .dispatching queue => queue

end Tick

structure Fleet where
  lines : Lines
  ticks : List Tick
  dispatched : List (String × Time)

def locked (ticks : List Tick) : List String := ticks.flatMap Tick.locks

namespace Flight

/-- A line after the transaction, committed or rolled back. -/
def settle (f : Flight) (db : SubDb) : SubDb :=
  match f.commit db with
  | some (.ok db') => db'
  | _ => db

theorem settle_same (f : Flight) (db : SubDb) :
    (f.settle db).sub.id = db.sub.id ∧
      (f.settle db).sub.lastRenewalAttemptedAt = db.sub.lastRenewalAttemptedAt := by
  unfold settle
  split
  · rename_i h
    exact rowWrite_same (commit_rowWrite h)
  · exact ⟨rfl, rfl⟩

theorem settle_id (f : Flight) (db : SubDb) : (f.settle db).sub.id = db.sub.id := (f.settle_same db).1

end Flight

namespace Fleet

inductive Label
  | create (req : SubscriptionCreateRequest) (p : CreatePlan) (pay : PaymentResult) (subId : String)
      (now : Time)
  | commit (id : String) (f : Flight)
  | select (sweep : Sweep) (now : Time) (tenantId : String) (candidates : List String)
  | lock (i : ℕ)
  | skip (i : ℕ)
  | mark (i : ℕ)
  | dispatch (i : ℕ)
  | abort (i : ℕ)

/-! ## One sweep -/

/-- The ids that the statement finds when it begins. -/
def selectedIds (lines : Lines) (sweep : Sweep) (now : Time) (tenantId : String) : List String :=
  (lines.rows.filter fun db => sweep.Selects now tenantId db.sub).map fun db => db.sub.id

/-- `ORDER BY next_renewal_at`. -/
def InOrder (lines : Lines) (ids : List String) : Prop :=
  ids.Pairwise fun a b => ∀ x ∈ (lines.find a).bind (·.sub.nextRenewalAt),
    ∀ y ∈ (lines.find b).bind (·.sub.nextRenewalAt), x ≤ y

instance (lines : Lines) (ids : List String) : Decidable (InOrder lines ids) :=
  inferInstanceAs (Decidable (ids.Pairwise fun _ _ => ∀ x ∈ _, ∀ y ∈ _, x ≤ y))

/-- The row once it is locked: its date, when nobody else holds it and it still matches. -/
def pick (lines : Lines) (others : List Tick) (t : Tick) (id : String) : Option Time :=
  if id ∈ locked others then none
  else (lines.find id).bind fun db =>
    if t.sweep.Selects t.now t.tenantId db.sub then db.sub.nextRenewalAt else none

/-- The next candidate, until the batch is full. -/
def lockNext (lines : Lines) (others : List Tick) (t : Tick) : Option Tick :=
  match t.phase with
  | .scanning (id :: rest) batch =>
    some { t with phase := match pick lines others t id with
      | some next =>
        .scanning (if batch.length + 1 < batchLimit then rest else []) (batch ++ [(id, next)])
      | none => .scanning rest batch }
  | _ => none

/-- The next candidate is left out while a call has its row locked. -/
def skipNext (t : Tick) : Option Tick :=
  match t.phase with
  | .scanning (_ :: rest) batch => some { t with phase := .scanning rest batch }
  | _ => none

/-- `UPDATE … WHERE id = ANY(ids)`. -/
def markAll (lines : Lines) (sweep : Sweep) (now : Time) (ids : List String) : Lines :=
  lines.map (fun db => if db.sub.id ∈ ids then sweep.mark now db else db) fun db => by
    split
    · rw [Sweep.mark_sub]; rfl
    · rfl

/-- The commit of the marks. Only `sweep_due` goes on, with what it has marked. -/
def markTick (fl : Fleet) (i : ℕ) (t : Tick) : Option Fleet :=
  match t.phase with
  | .scanning [] batch =>
    some { fl with
      lines := markAll fl.lines t.sweep t.now (batch.map Prod.fst)
      ticks := match t.sweep with
        | .due => fl.ticks.set i { t with phase := .dispatching batch }
        | .skipped => fl.ticks.eraseIdx i }
  | _ => none

def dispatchNext (fl : Fleet) (i : ℕ) (t : Tick) : Option Fleet :=
  match t.phase with
  | .dispatching (p :: rest) =>
    some { fl with
      ticks := fl.ticks.set i { t with phase := .dispatching rest }
      dispatched := fl.dispatched ++ [p] }
  | _ => none

/-! ## Steps -/

/-- A call commits on one line whatever it has read, also one that was dispatched. It
waits for the lock of a sweep. -/
def step (fl : Fleet) : Label → Option Fleet
  | .create req p pay subId now => (createCommit req p pay subId now).toOption.bind fun db =>
    (fl.lines.insert db).map fun lines => { fl with lines }
  | .commit id f =>
    if id ∈ locked fl.ticks then none
    else some { fl with lines := fl.lines.update id f.settle f.settle_id }
  | .select sweep now tenantId candidates =>
    if candidates.Perm (selectedIds fl.lines sweep now tenantId) ∧ InOrder fl.lines candidates then
      some { fl with ticks := fl.ticks ++ [⟨sweep, now, tenantId, .scanning candidates []⟩] }
    else none
  | .lock i => fl.ticks[i]?.bind fun t =>
    (lockNext fl.lines (fl.ticks.eraseIdx i) t).map fun t' => { fl with ticks := fl.ticks.set i t' }
  | .skip i => fl.ticks[i]?.bind fun t =>
    (skipNext t).map fun t' => { fl with ticks := fl.ticks.set i t' }
  | .mark i => fl.ticks[i]?.bind fun t => fl.markTick i t
  | .dispatch i => fl.ticks[i]?.bind fun t => fl.dispatchNext i t
  | .abort i => fl.ticks[i]?.map fun _ => { fl with ticks := fl.ticks.eraseIdx i }

def idle (lines : Lines) : Fleet := ⟨lines, [], []⟩

end Fleet

end BssCli.Subscription
