import BssCli.Lib.Steps
import BssCli.Som.Decomposition

/-!
# One order, report by report

What the tables say about one order, without the tables: the marks of its tasks, the state
of its CFS and of its service order, and how often its completion was staged.
-/

namespace BssCli.Som

/-- A handler call for a task of the order. It is `named` if its event has the id of the
service order, and the event of a repaired task does not. -/
structure Report where
  kind : TaskKind
  taskType : String
  permanent : Bool
  named : Bool
  deriving DecidableEq

structure Progress where
  marks : List (String × Scalar)
  state : ServiceState
  order : ServiceOrderState
  completions : ℕ

namespace Progress

def start : Progress := ⟨pendingTasks, .reserved, .inProgress, 0⟩

variable (p : Progress) (l : Report)

def mark (status : String) : Progress := { p with marks := Fields.insert p.marks l.taskType (.str status) }

/-- The next state of the service order, `none` where the handler refuses it. -/
def settle (state : ServiceOrderState) : Option ServiceOrderState :=
  if l.named then if state ∈ soAllowed p.order then some state else none else some p.order

def complete : Option Progress :=
  if p.state = .activated then some p
  else if allCompleted (p.mark l "completed").marks then
    if .activated ∈ svcAllowed p.state then
      (p.settle l .completed).map fun order =>
        { p.mark l "completed" with state := .activated, order, completions := p.completions + 1 }
    else none
  else some (p.mark l "completed")

def fail : Option Progress :=
  if l.permanent then
    if .failed ∈ svcAllowed p.state then
      (p.settle l .failed).map fun order => { p.mark l "failed" with state := .failed, order }
    else none
  else some p

/-- `none` where the handler returns an error. -/
def step : Option Progress :=
  match l.kind with
  | .completed => p.complete l
  | .failed => p.fail l
  | .stuck => some (p.mark l "stuck")

/-- The state of the RFS: they follow an activation, and nothing else. -/
def childState : ServiceState := if p.state = .activated then .activated else .reserved

end Progress

theorem Progress.settle_inProgress {p : Progress} (h : p.order = .inProgress) (l : Report)
    {state : ServiceOrderState} (hs : state ∈ soAllowed .inProgress) :
    p.settle l state = some (if l.named then state else .inProgress) := by
  unfold settle
  rw [h, if_pos hs]
  split <;> rfl

theorem taskTypes_nodup : taskTypes.Nodup := by decide

theorem Progress.mark_keys {p : Progress} {l : Report} (hp : p.marks.map Prod.fst = taskTypes)
    (ht : l.taskType ∈ taskTypes) (status : String) : (p.mark l status).marks.map Prod.fst = taskTypes :=
  (Fields.keys_insert (hp ▸ ht) _).trans hp

theorem allCompleted_iff {marks : List (String × Scalar)} (hm : marks.map Prod.fst = taskTypes) :
    allCompleted marks = true ↔ ∀ t ∈ taskTypes, Fields.get marks t = some (.str "completed") := by
  unfold allCompleted
  simp only [List.all_eq_true, decide_eq_true_eq]
  rw [Fields.forall_value_iff (hm ▸ taskTypes_nodup), hm]

/-! ## What the tables say -/

theorem cfs_mem {d : Decomposition} : d.cfs ∈ d.serviceIds := List.mem_cons_self ..

theorem distinct_ids {d : Decomposition} (h : d.serviceIds.Nodup) :
    d.ids.rfsData ≠ d.cfs ∧ d.ids.rfsVoice ≠ d.cfs ∧ d.ids.rfsVoice ≠ d.ids.rfsData := by
  simp only [Decomposition.serviceIds, List.nodup_cons, List.mem_cons, List.not_mem_nil, or_false,
    not_or] at h
  exact ⟨Ne.symm h.1.1, Ne.symm h.1.2, Ne.symm h.2.1⟩

def isCompletion (cfs : String) (e : Event) : Bool :=
  e.eventType = "service_order.completed" && strField e.payload "cfsServiceId" = some cfs

/-- The tables show the order `d` with the progress `p`. -/
structure Shows (db : SomDb) (d : Decomposition) (p : Progress) : Prop where
  distinct : d.serviceIds.Nodup
  cfs : ∃ row, db.services.find d.cfs = some row ∧ row.id = d.cfs ∧ row.state = p.state ∧
    Fields.get row.characteristics "pendingTasks" = some (.object p.marks) ∧
    ∀ k ≠ "pendingTasks", Fields.get row.characteristics k =
      Fields.get (characteristics d.req d.reserved) k
  children : db.services.childStates d.cfs =
    [(d.ids.rfsData, p.childState), (d.ids.rfsVoice, p.childState)]
  order : ∃ row, db.orders.find d.so = some row ∧ row.state = p.order ∧
    row.commercialOrderId = d.req.commercialOrderId
  completions : db.events.countP (isCompletion d.cfs) = p.completions

/-- `ev` reports on a task of `d`. The repair of a task loses the ids of both orders. -/
def TaskEvent.IsFor (ev : TaskEvent) (d : Decomposition) : Prop :=
  ev.serviceId = d.cfs ∧ ev.taskType ∈ taskTypes ∧
    (ev.serviceOrderId = d.so ∧ ev.commercialOrderId = d.req.commercialOrderId ∨
      ev.serviceOrderId = "" ∧ ev.commercialOrderId = "")

instance (ev : TaskEvent) (d : Decomposition) : Decidable (ev.IsFor d) :=
  inferInstanceAs (Decidable (_ ∧ _))

def report (k : TaskKind) (ev : TaskEvent) (d : Decomposition) : Report :=
  ⟨k, ev.taskType, ev.permanent, ev.serviceOrderId = d.so⟩

/-! ## What the other orders see -/

/-- Nothing of another order than `d` differs. -/
structure Frame (d : Decomposition) (db db' : SomDb) : Prop where
  services : ∀ k ∉ d.serviceIds, db'.services.find k = db.services.find k
  children : ∀ p ≠ d.cfs, (∀ c ∈ db.services.childStates p, c.1 ∉ d.serviceIds) →
    db'.services.childStates p = db.services.childStates p
  orders : ∀ k ≠ d.so, db'.orders.find k = db.orders.find k
  events : ∀ c ≠ d.cfs, db'.events.countP (isCompletion c) = db.events.countP (isCompletion c)

def Apart (d d' : Decomposition) : Prop := (∀ k ∈ d.serviceIds, k ∉ d'.serviceIds) ∧ d.so ≠ d'.so

theorem Apart.symm {d d' : Decomposition} (h : Apart d d') : Apart d' d :=
  ⟨fun k hk hk' => h.1 k hk' hk, fun heq => h.2 heq.symm⟩

namespace Frame

variable {d : Decomposition} {db db' db'' : SomDb}

theorem refl (d : Decomposition) (db : SomDb) : Frame d db db :=
  ⟨fun _ _ => rfl, fun _ _ _ => rfl, fun _ _ => rfl, fun _ _ => rfl⟩

theorem trans (h : Frame d db db') (h' : Frame d db' db'') : Frame d db db'' := by
  refine ⟨fun k hk => ?_, fun p hne hp => ?_, fun k hk => ?_, fun c hc => ?_⟩
  · rw [h'.services k hk, h.services k hk]
  · have heq := h.children p hne hp
    rw [h'.children p hne (heq ▸ hp), heq]
  · rw [h'.orders k hk, h.orders k hk]
  · rw [h'.events c hc, h.events c hc]

theorem setCharacteristics {id : String} (hid : id ∈ d.serviceIds) (c : Object) :
    Frame d db (db.setServiceCharacteristics id c) := by
  refine ⟨fun k hk => ?_, fun p _ _ => ?_, fun _ _ => rfl, fun _ _ => rfl⟩
  · have hne : k ≠ id := fun heq => hk (heq ▸ hid)
    simp [hne]
  · simp

theorem children_setState {id : String} (hid : id ∈ d.serviceIds) (state : ServiceState)
    {cs : List (String × ServiceState)} (hcs : ∀ c ∈ cs, c.1 ∉ d.serviceIds) :
    (cs.map fun c => if c.1 = id then (c.1, state) else c) = cs := by
  refine (List.map_congr_left fun c hc => ?_).trans (List.map_id cs)
  have hne : c.1 ≠ id := fun heq => hcs c hc (heq ▸ hid)
  simp [hne]

theorem setState {id : String} (hid : id ∈ d.serviceIds) (state : ServiceState) :
    Frame d db (db.setServiceState id state) := by
  refine ⟨fun k hk => ?_, fun p _ hp => ?_, fun _ _ => rfl, fun _ _ => rfl⟩
  · have hne : k ≠ id := fun heq => hk (heq ▸ hid)
    simp [hne]
  · rw [SomDb.childStates_setServiceState, children_setState hid state hp]

theorem activate {id : String} (hid : id ∈ d.serviceIds) (now : Time) :
    Frame d db (db.activateService id now) := by
  refine ⟨fun k hk => ?_, fun p _ hp => ?_, fun _ _ => rfl, fun _ _ => rfl⟩
  · have hne : k ≠ id := fun heq => hk (heq ▸ hid)
    simp [hne]
  · rw [SomDb.childStates_activateService, children_setState hid .activated hp]

theorem setOrder (state : ServiceOrderState) (startedAt completedAt : Option Time) :
    Frame d db (db.setServiceOrderState d.so state startedAt completedAt) := by
  refine ⟨fun _ _ => rfl, fun _ _ _ => rfl, fun k hk => ?_, fun _ _ => rfl⟩
  simp [hk]

theorem stage {eventType aggregateType aggregateId : String} {payload : Object}
    (h : ∀ c ≠ d.cfs, isCompletion c ⟨eventType, aggregateType, aggregateId, payload⟩ = false) :
    Frame d db (db.stage eventType aggregateType aggregateId payload) := by
  refine ⟨fun _ _ => rfl, fun _ _ _ => rfl, fun _ _ => rfl, fun c hc => ?_⟩
  simp [h c hc]

end Frame

variable {db db' : SomDb} {d d' : Decomposition} {p : Progress}

theorem Shows.mem (h : Shows db d p) {k : String} (hk : k ∈ d.serviceIds) : db.services.find k ≠ none := by
  have hchild : ∀ c ∈ db.services.childStates d.cfs, db.services.find c.1 ≠ none := by
    intro c hc hnone
    obtain ⟨r, hr, rfl⟩ := List.mem_map.mp hc
    exact db.services.table.find_eq_none.mp hnone (List.mem_map_of_mem (List.mem_of_mem_filter hr))
  rw [h.children] at hchild
  simp only [Decomposition.serviceIds, List.mem_cons, List.not_mem_nil, or_false] at hk
  rcases hk with rfl | rfl | rfl
  · obtain ⟨row, hrow, -⟩ := h.cfs
    rw [show d.ids.cfs = d.cfs from rfl, hrow]
    simp
  · exact hchild _ (List.mem_cons_self ..)
  · exact hchild _ (List.mem_cons_of_mem _ (List.mem_cons_self ..))

theorem Shows.frame (h : Shows db d' p) (hf : Frame d db db') (ha : Apart d d') : Shows db' d' p := by
  obtain ⟨hdistinct, hcfs, hchildren, horder, hcompletions⟩ := h
  have hout : ∀ k ∈ d'.serviceIds, k ∉ d.serviceIds := fun k hk hk' => ha.1 k hk' hk
  have hne : d'.cfs ≠ d.cfs := fun heq =>
    ha.1 d.cfs (List.mem_cons_self ..) (heq ▸ List.mem_cons_self ..)
  refine ⟨hdistinct, ?_, ?_, ?_, ?_⟩
  · rwa [hf.services d'.cfs (hout _ (List.mem_cons_self ..))]
  · rw [hf.children _ hne, hchildren]
    rw [hchildren]
    intro c hc
    simp only [List.mem_cons, List.not_mem_nil, or_false] at hc
    rcases hc with rfl | rfl
    · exact hout _ (by simp [Decomposition.serviceIds])
    · exact hout _ (by simp [Decomposition.serviceIds])
  · rwa [hf.orders d'.so (Ne.symm ha.2)]
  · rw [hf.events d'.cfs hne, hcompletions]

end BssCli.Som
