import BssCli.Com.Service
import BssCli.Lib.Pool
import BssCli.Lib.Steps

/-!
# One order under many hands

Any number of submits, cancels and deliveries of the two events. An event handler has the
row locked, and nobody else commits on it then. Submit and cancel lock it only to write.
-/

namespace BssCli.Com

/-- What is decided and not committed yet. -/
inductive Phase
  | submitting (payload : Object)
  | cancelling
  | completing (p : ServiceOrderCompleted) (c : Completion)
  | failing (reason : String)

structure Flight where
  found : OrderRow
  item : Option ItemRow
  phase : Phase

namespace Flight

/-- It has read the row `FOR UPDATE`. -/
def holds (f : Flight) : Bool :=
  match f.phase with
  | .submitting _ | .cancelling => false
  | .completing _ _ | .failing _ => true

def target (f : Flight) : OrderState :=
  match f.phase with
  | .submitting _ => .inProgress
  | .cancelling => .cancelled
  | .completing _ _ => .completed
  | .failing _ => .failed

/-- `subscriptionId` is what `subscription.create` has replied. -/
def commit (f : Flight) (now : Time) (subscriptionId : Option String) (db : OrderDb) : Except ApiError OrderDb :=
  match f.phase with
  | .submitting payload => .ok (submitCommit f.found payload db)
  | .cancelling => .ok (cancelCommit f.found now db)
  | .completing p c => completedCommit p c f.found f.item subscriptionId now db
  | .failing reason => failedCommit f.found f.item reason now db

end Flight

structure Orders where
  db : OrderDb
  flights : List Flight

namespace Orders

inductive Label
  | submit (methods : Except ClientError (List MethodDoc))
  | cancel (serviceOrders : Except ClientError (List ServiceOrderDoc))
  | completed (p : ServiceOrderCompleted) (loyalty : Option Loyalty)
  | failed (reason : String)
  | commit (i : ℕ) (now : Time) (subscriptionId : Option String)
  | abandon (i : ℕ)

def start (w : Orders) (phase : Phase) : Orders :=
  { w with flights := w.flights ++ [⟨w.db.order, w.db.item, phase⟩] }

/-- A handler takes the lock, and skips an order that is not in progress. -/
def stepLock (w : Orders) (phase : Phase) : Option Orders :=
  if w.flights.any Flight.holds then none
  else if w.db.order.state = .inProgress then some (w.start phase)
  else some w

def stepCommit (w : Orders) (i : ℕ) (f : Flight) (now : Time) (subscriptionId : Option String) :
    Option Orders :=
  if !f.holds && w.flights.any Flight.holds then none
  else (f.commit now subscriptionId w.db).toOption.map fun db => { db, flights := w.flights.eraseIdx i }

def step (w : Orders) : Label → Option Orders
  | .submit methods =>
    (submitPlan methods w.db.order w.db.item).toOption.map fun payload => w.start (.submitting payload)
  | .cancel serviceOrders => (cancelPlan serviceOrders w.db.order).toOption.map fun _ => w.start .cancelling
  | .completed p loyalty => w.stepLock (.completing p (completion loyalty p w.db.order w.db.item))
  | .failed reason => w.stepLock (.failing reason)
  | .commit i now subscriptionId => w.flights[i]?.bind fun f => w.stepCommit i f now subscriptionId
  | .abandon i => w.flights[i]?.map fun _ => { w with flights := w.flights.eraseIdx i }

/-- The order as `create_order` has left it. -/
def placed (id customerId : String) (msisdnPreference : Option String) (items : List ItemRow)
    (events : List Event) : Orders where
  db :=
    { order := ⟨id, customerId, .acknowledged, none, msisdnPreference⟩
      items
      history := [⟨none, .acknowledged, "order created"⟩]
      events }
  flights := []

end Orders

/-! ## What a commit writes -/

theorem commit_order {f : Flight} {now : Time} {subscriptionId : Option String} {db db' : OrderDb}
    (h : f.commit now subscriptionId db = .ok db') :
    db'.order.state = f.target ∧
      db'.order.completedDate = (if f.target = .inProgress then db.order.completedDate else some now) := by
  unfold Flight.commit at h
  unfold Flight.target
  split at h
  · cases h
    exact ⟨rfl, rfl⟩
  · cases h
    exact ⟨rfl, rfl⟩
  · obtain ⟨horder, -⟩ := completedCommit_eq_ok h
    rw [horder]
    exact ⟨rfl, rfl⟩
  · obtain ⟨horder, -⟩ := failedCommit_eq_ok h
    rw [horder]
    exact ⟨rfl, rfl⟩

theorem commit_id {f : Flight} {now : Time} {subscriptionId : Option String} {db db' : OrderDb}
    (h : f.commit now subscriptionId db = .ok db') : db'.order.id = db.order.id := by
  unfold Flight.commit at h
  split at h
  · cases h
    rfl
  · cases h
    rfl
  · rw [(completedCommit_eq_ok h).1]
  · rw [(failedCommit_eq_ok h).1]

/-- The history says that the state went from the one that was read. -/
theorem commit_history {f : Flight} {now : Time} {subscriptionId : Option String} {db db' : OrderDb}
    (hlocked : f.holds → f.found.state = .inProgress) (h : f.commit now subscriptionId db = .ok db') :
    ∃ reason, db'.history = db.history ++ [⟨some f.found.state, f.target, reason⟩] := by
  unfold Flight.commit at h
  unfold Flight.target
  split at h
  · cases h
    exact ⟨_, rfl⟩
  · cases h
    exact ⟨_, rfl⟩
  · rename_i hphase
    rw [hlocked (by simp [Flight.holds, hphase])]
    exact ⟨_, (completedCommit_eq_ok h).2⟩
  · rename_i hphase
    rw [hlocked (by simp [Flight.holds, hphase])]
    exact ⟨_, (failedCommit_eq_ok h).2⟩

theorem submitPlan_eq_ok {methods : Except ClientError (List MethodDoc)} {order : OrderRow}
    {item : Option ItemRow} {payload : Object} (h : submitPlan methods order item = .ok payload) :
    .inProgress ∈ allowedTargets order.state := by
  simp only [submitPlan, bind_eq_ok] at h
  obtain ⟨⟨⟩, hcheck, -⟩ := h
  exact checkOrderTransition_eq_ok.mp hcheck

theorem cancelPlan_eq_ok {serviceOrders : Except ClientError (List ServiceOrderDoc)} {order : OrderRow}
    (h : cancelPlan serviceOrders order = .ok ()) :
    .cancelled ∈ allowedTargets order.state ∧
      (order.state = .inProgress → checkCancelAllowedAfterSom order.id serviceOrders = .ok ()) := by
  simp only [cancelPlan, bind_eq_ok] at h
  obtain ⟨⟨⟩, hcheck, h⟩ := h
  refine ⟨checkOrderTransition_eq_ok.mp hcheck, fun hs => ?_⟩
  rwa [if_pos hs] at h

end BssCli.Com
