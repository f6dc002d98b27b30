import BssCli.Som.Progress

/-!
# A handler call is one step of its order

Where the step is refused, the handler returns an error.
-/

namespace BssCli.Som

variable {db db' : SomDb} {d : Decomposition} {p p' : Progress} {ev : TaskEvent} {cfs : ServiceRow} {now : Time}

theorem pendingOf_eq {c : Object} {marks : List (String × Scalar)}
    (h : Fields.get c "pendingTasks" = some (.object marks)) : pendingOf c = marks := by
  rw [pendingOf, h]
  rfl

theorem get_markPending {c : Object} {marks : List (String × Scalar)}
    (h : Fields.get c "pendingTasks" = some (.object marks)) (taskType status : String) :
    (markPending c taskType status).2 = Fields.insert marks taskType (.str status) ∧
      Fields.get (markPending c taskType status).1 "pendingTasks" =
        some (.object (Fields.insert marks taskType (.str status))) ∧
      ∀ k ≠ "pendingTasks", Fields.get (markPending c taskType status).1 k = Fields.get c k := by
  unfold markPending
  rw [pendingOf_eq h]
  exact ⟨rfl, Fields.get_insert_self .., fun k hk => Fields.get_insert_ne hk ..⟩

/-! ## A new order -/

/-- The rows that `insertGraph` adds, and no other. -/
theorem insertGraph_eq_ok {req : DecomposeRequest} {ids : DecomposeIds} (r : Reserved)
    (h : insertGraph req ids db = .ok db') :
    (∀ k ∈ (⟨req, ids, r⟩ : Decomposition).serviceIds, db.services.find k = none) ∧
      (⟨req, ids, r⟩ : Decomposition).serviceIds.Nodup ∧ db.orders.find ids.so = none ∧
      Frame ⟨req, ids, r⟩ db db' ∧ db'.events = db.events ∧
      db'.services.find ids.cfs = some ⟨ids.cfs, "MobileBroadband", .cfs, none, .designed, [], none⟩ ∧
      db'.services.childStates ids.cfs = [(ids.rfsData, .reserved), (ids.rfsVoice, .reserved)] ∧
      db'.orders.find ids.so = some ⟨ids.so, req.commercialOrderId, .acknowledged, none, none⟩ := by
  simp only [insertGraph, bind_eq_ok] at h
  obtain ⟨db₁, h₁, db₂, h₂, db₃, h₃, db₄, h₄, ⟨⟩, -, h⟩ := h
  obtain ⟨hso, hs₁, he₁⟩ := insertServiceOrder_eq_ok h₁
  obtain ⟨hcfs, ho₂, he₂⟩ := insertService_eq_ok h₂
  obtain ⟨hdata, ho₃, he₃⟩ := insertService_eq_ok h₃
  obtain ⟨hvoice, ho₄, he₄⟩ := insertService_eq_ok h₄
  cases h
  -- The three ids are new, one after the other.
  have hnew₂ := Services.find_new hcfs
  have hnew₃ := Services.find_new hdata
  have hnew₄ := Services.find_new hvoice
  simp only [hs₁, Services.find_insert hcfs, Services.find_insert hdata] at hnew₂ hnew₃ hnew₄
  obtain ⟨hne₃, hnew₃⟩ : ids.cfs ≠ ids.rfsData ∧ db.services.find ids.rfsData = none := by
    split at hnew₃ <;> simp_all
  obtain ⟨hne₄, hne₄', hnew₄⟩ :
      ids.rfsData ≠ ids.rfsVoice ∧ ids.cfs ≠ ids.rfsVoice ∧ db.services.find ids.rfsVoice = none := by
    split at hnew₄
    · simp at hnew₄
    · split at hnew₄ <;> simp_all
  have hfind : ∀ k, db₄.services.find k = _ := Services.find_insert hvoice
  simp only [Services.find_insert hdata, Services.find_insert hcfs, hs₁] at hfind
  have hchildren : ∀ p, db₄.services.childStates p = _ := Services.childStates_insert hvoice
  simp only [Services.childStates_insert hdata, Services.childStates_insert hcfs, hs₁] at hchildren
  refine ⟨?_, ?_, (Table.rows_insert hso).2, ⟨fun k hk => ?_, fun p hp hcs => ?_, fun k hk => ?_, fun c _ => ?_⟩,
    ?_, ?_, ?_, ?_⟩
  · intro k hk
    simp only [Decomposition.serviceIds, List.mem_cons, List.not_mem_nil, or_false] at hk
    rcases hk with rfl | rfl | rfl
    · exact hnew₂
    · exact hnew₃
    · exact hnew₄
  · simp [Decomposition.serviceIds, hne₃, hne₄, hne₄']
  · simp only [Decomposition.serviceIds, List.mem_cons, List.not_mem_nil, or_false, not_or] at hk
    simp [hfind, hk, Ne.symm hk.1, Ne.symm hk.2.1, Ne.symm hk.2.2]
  · have hnone : ∀ s : ServiceState, ((db.services.childStates p).map fun c =>
        if c.1 = ids.rfsData then (c.1, s) else c) = db.services.childStates p := fun s =>
      Frame.children_setState (by simp [Decomposition.serviceIds]) s hcs
    have hnone' : ∀ s : ServiceState, ((db.services.childStates p).map fun c =>
        if c.1 = ids.rfsVoice then (c.1, s) else c) = db.services.childStates p := fun s =>
      Frame.children_setState (by simp [Decomposition.serviceIds]) s hcs
    have hp' : ids.cfs ≠ p := Ne.symm hp
    simp [hchildren, hp', hnone, hnone']
  · have hk' : ids.so ≠ k := Ne.symm hk
    simp [ho₄, ho₃, ho₂, Table.find_insert hso, hk']
  · simp [he₄, he₃, he₂, he₁]
  · simp [he₄, he₃, he₂, he₁]
  · simp [hfind, hne₃, hne₄', Ne.symm hne₃, Ne.symm hne₄']
  · simp [hchildren, Services.childStates_of_find_none hnew₂, hne₄, Ne.symm hne₄]
  · simp [ho₄, ho₃, ho₂, Table.find_insert hso]

theorem decomposeOrder_new {req : DecomposeRequest} {ids : DecomposeIds} {r : Reserved}
    (h : decomposeOrder req ids r now db = .ok db') :
    (∀ k ∈ (⟨req, ids, r⟩ : Decomposition).serviceIds, db.services.find k = none) ∧
      db.orders.find ids.so = none := by
  simp only [decomposeOrder, bind_eq_ok] at h
  obtain ⟨db₁, h₁, -⟩ := h
  obtain ⟨hnew, -, hso, -⟩ := insertGraph_eq_ok r h₁
  exact ⟨hnew, hso⟩

theorem decomposeOrder_shows {req : DecomposeRequest} {ids : DecomposeIds} {r : Reserved}
    (h : decomposeOrder req ids r now db = .ok db')
    (hevents : db.events.countP (isCompletion ids.cfs) = 0) :
    Shows db' ⟨req, ids, r⟩ .start ∧ Frame ⟨req, ids, r⟩ db db' := by
  simp only [decomposeOrder, bind_eq_ok] at h
  obtain ⟨db₁, h₁, ⟨⟩, -, ⟨⟩, -, h⟩ := h
  cases h
  obtain ⟨-, hdistinct, -, hframe, hevents₁, hcfs, hchildren, horder⟩ := insertGraph_eq_ok r h₁
  have hmem : ids.cfs ∈ (⟨req, ids, r⟩ : Decomposition).serviceIds := List.mem_cons_self ..
  obtain ⟨hdata, hvoice, -⟩ := distinct_ids hdistinct
  have hcreated : ∀ c, (taskTypes.map (taskCreated req ids r)).countP (isCompletion c) = 0 := by
    intro c
    simp [List.countP_eq_zero, isCompletion, taskCreated]
  refine ⟨⟨hdistinct, ⟨⟨ids.cfs, "MobileBroadband", .cfs, none, .reserved, characteristics req r,
    none⟩, ?_, rfl, rfl, ?_, fun _ _ => rfl⟩, ?_, ⟨⟨ids.so, req.commercialOrderId, .inProgress, some now,
    none⟩, ?_, rfl, rfl⟩, ?_⟩, ?_⟩
  · simp [Decomposition.cfs, hcfs, ServiceRow.setState, ServiceRow.setCharacteristics]
  · simp [characteristics, Fields.get_cons, Progress.start]
  · have hdata' : ids.rfsData ≠ ids.cfs := hdata
    have hvoice' : ids.rfsVoice ≠ ids.cfs := hvoice
    simp [Decomposition.cfs, hchildren, hdata', hvoice', Progress.childState, Progress.start]
  · simp [Decomposition.so, horder, ServiceOrderRow.setState]
  · simp [hevents₁, hcreated, hevents, isCompletion, Decomposition.cfs, Progress.start]
  · refine hframe.trans ?_
    refine (Frame.setCharacteristics hmem (characteristics req r)).trans ?_
    refine (Frame.setState hmem .reserved).trans ?_
    refine (Frame.setOrder .inProgress (some now) none).trans ?_
    refine ⟨fun _ _ => rfl, fun _ _ _ => rfl, fun _ _ => rfl, fun c _ => ?_⟩
    simp [hcreated, isCompletion, Decomposition.so]

/-! ## The pieces -/

theorem settleServiceOrder_frame {id : String} {state : ServiceOrderState} (hid : id = d.so ∨ db.orders.find id = none)
    (h : settleServiceOrder id state now db = .ok db') :
    Frame d db db' ∧ db'.services = db.services ∧ db'.events = db.events := by
  unfold settleServiceOrder at h
  split at h
  · cases h
    exact ⟨Frame.refl d db, rfl, rfl⟩
  · rename_i current hcurrent
    obtain ⟨⟨⟩, -, h⟩ := bind_eq_ok.mp h
    cases h
    rcases hid with rfl | hnone
    · exact ⟨Frame.setOrder .., rfl, rfl⟩
    · simp [SomDb.serviceOrderState, hnone] at hcurrent

/-- The service order follows `settle`, where the event has its id or none at all. -/
theorem settleServiceOrder_settles {row : ServiceOrderRow} {id : String} {l : Report} {state : ServiceOrderState}
    (hrow : db.orders.find d.so = some row) (hstate : row.state = p.order)
    (hid : id = d.so ∨ db.orders.find id = none) (hl : l.named = decide (id = d.so)) :
    match p.settle l state with
    | some order => ∃ db', settleServiceOrder id state now db = .ok db' ∧
        ∃ row', db'.orders.find d.so = some row' ∧ row'.state = order ∧
          row'.commercialOrderId = row.commercialOrderId
    | none => ∃ e, settleServiceOrder id state now db = .error e := by
  unfold Progress.settle settleServiceOrder SomDb.serviceOrderState
  by_cases hnamed : id = d.so
  · subst hnamed
    rw [hl, hrow, Option.map_some, hstate]
    by_cases hallowed : state ∈ soAllowed p.order
    · simp only [checkServiceOrderTransition_eq_ok.mpr hallowed]
      simp only [decide_true, if_true, hallowed]
      refine ⟨_, rfl, row.setState state none (some now), ?_, rfl, rfl⟩
      rw [SomDb.find_setServiceOrderState, if_pos rfl, hrow]
      rfl
    · simp only [decide_true, if_true, hallowed, if_false]
      rw [checkServiceOrderTransition, if_neg hallowed]
      exact ⟨_, rfl⟩
  · have hnone := hid.resolve_left hnamed
    simp only [hl, hnamed, decide_false, Bool.false_eq_true, if_false, hnone, Option.map_none]
    exact ⟨db, rfl, row, hrow, hstate, rfl⟩

/-- The service order of `d` is settled in `db₁`, where only services of `db` were written. -/
theorem settle_shows (now : Time) (db₁ : SomDb) (k : TaskKind) (state : ServiceOrderState)
    (h : Shows db d p) (hfor : ev.IsFor d)
    (hempty : db.orders.find "" = none) (horders : db₁.orders = db.orders) :
    match p.settle (report k ev d) state with
    | some order => ∃ db', settleServiceOrder ev.serviceOrderId state now db₁ = .ok db' ∧
        (∃ row, db'.orders.find d.so = some row ∧ row.state = order ∧
          row.commercialOrderId = d.req.commercialOrderId) ∧
        Frame d db₁ db' ∧ db'.services = db₁.services ∧ db'.events = db₁.events
    | none => ∃ e, settleServiceOrder ev.serviceOrderId state now db₁ = .error e := by
  obtain ⟨row, hrow, hstate, hcomm⟩ := h.order
  rw [← horders] at hrow hempty
  have hid : ev.serviceOrderId = d.so ∨ db₁.orders.find ev.serviceOrderId = none := by
    refine hfor.2.2.imp And.left fun he => ?_
    rw [he.1, hempty]
  have hsettle := @settleServiceOrder_settles db₁ d p now row ev.serviceOrderId (report k ev d) state hrow hstate hid rfl
  cases hs : p.settle (report k ev d) state with
  | none =>
    rw [hs] at hsettle
    exact hsettle
  | some order =>
    rw [hs] at hsettle
    obtain ⟨db', hdb', row', hrow', hstate', hcomm'⟩ := hsettle
    exact ⟨db', hdb', ⟨row', hrow', hstate', hcomm'.trans hcomm⟩, settleServiceOrder_frame hid hdb'⟩

/-! ## Marks -/

theorem mark_shows {l : Report} (status : String) (h : Shows db d p) (hcfs : db.services.find d.cfs = some cfs)
    (ht : ev.taskType = l.taskType) :
    Shows (db.setServiceCharacteristics d.cfs (markPending cfs.characteristics ev.taskType status).1) d
      (p.mark l status) := by
  obtain ⟨hdistinct, ⟨row, hrow, hid, hstate, hmarks, hothers⟩, hchildren, horder, hcompletions⟩ := h
  obtain rfl : row = cfs := Option.some.inj (hrow.symm.trans hcfs)
  obtain ⟨-, hmarked, hkept⟩ := get_markPending hmarks ev.taskType status
  refine ⟨hdistinct, ⟨ServiceRow.setCharacteristics (markPending row.characteristics ev.taskType status).1 row,
    ?_, hid, hstate, ?_, ?_⟩, ?_, horder, hcompletions⟩
  · simp [hrow]
  · rw [Progress.mark, ← ht]
    exact hmarked
  · exact fun k hk => (hkept k hk).trans (hothers k hk)
  · rw [SomDb.childStates_setServiceCharacteristics]
    exact hchildren

theorem mark_frame (chars : Object) : Frame d db (db.setServiceCharacteristics d.cfs chars) :=
  Frame.setCharacteristics cfs_mem chars

/-! ## Activation -/

/-- The three services after an activation. -/
def activateGraph (d : Decomposition) (chars : Object) (now : Time) (db : SomDb) : SomDb :=
  let db := (db.setServiceCharacteristics d.cfs chars).activateService d.cfs now
  (db.activateService d.ids.rfsData now).activateService d.ids.rfsVoice now

theorem activateGraph_frame (chars : Object) : Frame d db (activateGraph d chars now db) := by
  have hdata : d.ids.rfsData ∈ d.serviceIds := by simp [Decomposition.serviceIds]
  have hvoice : d.ids.rfsVoice ∈ d.serviceIds := by simp [Decomposition.serviceIds]
  refine (Frame.setCharacteristics cfs_mem chars).trans ?_
  refine (Frame.activate cfs_mem now).trans ?_
  exact (Frame.activate hdata now).trans (Frame.activate hvoice now)

theorem find_activateGraph (h : d.serviceIds.Nodup) (chars : Object) :
    (activateGraph d chars now db).services.find d.cfs =
      (db.services.find d.cfs).map fun r => (r.setCharacteristics chars).activate now := by
  obtain ⟨hdata, hvoice, -⟩ := distinct_ids h
  simp only [activateGraph, SomDb.find_activateService, SomDb.find_setServiceCharacteristics, if_true,
    if_neg (Ne.symm hdata), if_neg (Ne.symm hvoice), Option.map_map]
  rfl

theorem children_activateGraph {s s' : ServiceState} (h : d.serviceIds.Nodup) (chars : Object)
    (hchildren : db.services.childStates d.cfs = [(d.ids.rfsData, s), (d.ids.rfsVoice, s')]) :
    (activateGraph d chars now db).services.childStates d.cfs =
      [(d.ids.rfsData, .activated), (d.ids.rfsVoice, .activated)] := by
  obtain ⟨hdata, hvoice, hne⟩ := distinct_ids h
  simp [activateGraph, hchildren, hdata, hvoice, hne]

theorem completeOrder_eq {chars : Object} (h : Shows db d p) (hstate : p.state ≠ .activated)
    (hallowed : .activated ∈ svcAllowed cfs.state) (hid : ev.serviceId = d.cfs) :
    completeOrder ev cfs chars now db = (do
      let db' ← settleServiceOrder ev.serviceOrderId .completed now (activateGraph d chars now db)
      return db'.stage "service_order.completed" "ServiceOrder" ev.serviceOrderId
        (completedPayload ev cfs.id chars)) := by
  obtain ⟨hdata, hvoice, -⟩ := distinct_ids h.distinct
  have hchildren := h.children
  rw [Progress.childState, if_neg hstate] at hchildren
  simp only [completeOrder, checkServiceTransition_eq_ok.mpr hallowed, hid]
  simp only [SomDb.childStates_activateService, SomDb.childStates_setServiceCharacteristics, hchildren,
    List.map_cons, List.map_nil, if_neg hdata, if_neg hvoice]
  rfl

theorem completedPayload_cfs (ev : TaskEvent) (cfsId : String) (chars : Object) :
    strField (completedPayload ev cfsId chars) "cfsServiceId" = some cfsId := by
  simp [strField, completedPayload, Fields.get_cons, Value.asStr, Value.str]

/-- The order after its activation, once its service order is settled. -/
theorem activate_shows {chars : Object} {marks : List (String × Scalar)} {order : ServiceOrderState}
    (h : Shows db d p)
    (hmarked : Fields.get chars "pendingTasks" = some (.object marks))
    (hkept : ∀ k ≠ "pendingTasks", Fields.get chars k = Fields.get (characteristics d.req d.reserved) k)
    (hservices : db'.services = (activateGraph d chars now db).services) (hevents : db'.events = db.events)
    (horder : ∃ row, db'.orders.find d.so = some row ∧ row.state = order ∧
      row.commercialOrderId = d.req.commercialOrderId) (aggregateId : String) :
    Shows (db'.stage "service_order.completed" "ServiceOrder" aggregateId (completedPayload ev d.cfs chars)) d
      ⟨marks, .activated, order, p.completions + 1⟩ := by
  obtain ⟨row, hrow, hid, -, -, -⟩ := h.cfs
  refine ⟨h.distinct, ⟨(row.setCharacteristics chars).activate now, ?_, hid, rfl, hmarked, hkept⟩, ?_, horder, ?_⟩
  · rw [SomDb.services_stage, hservices, find_activateGraph h.distinct, hrow]
    rfl
  · rw [SomDb.services_stage, hservices, children_activateGraph h.distinct chars h.children]
    rfl
  · rw [SomDb.events_stage, hevents, List.countP_append, List.countP_singleton,
      if_pos (by simp [isCompletion, completedPayload_cfs])]
    exact congrArg (· + 1) h.completions

theorem complete_shows (h : Shows db d p) (hcfs : db.services.find d.cfs = some cfs) (hfor : ev.IsFor d)
    (hempty : db.orders.find "" = none) :
    match p.complete (report .completed ev d) with
    | some p' => ∃ db', handleTaskCompleted ev (some cfs) now db = .ok db' ∧ Shows db' d p' ∧ Frame d db db'
    | none => ∃ e, handleTaskCompleted ev (some cfs) now db = .error e := by
  have hsid := hfor.1
  obtain ⟨row, hrow, hid, hstate, hmarks, hothers⟩ := h.cfs
  obtain rfl : row = cfs := Option.some.inj (hrow.symm.trans hcfs)
  obtain ⟨hpending, hmarked, hkept⟩ := get_markPending hmarks ev.taskType "completed"
  have hmark := mark_shows (l := report .completed ev d) "completed" h hrow rfl
  unfold Progress.complete handleTaskCompleted
  by_cases hact : p.state = .activated
  · simp only [hact, hstate, if_true]
    exact ⟨db, rfl, h, Frame.refl d db⟩
  have hact' : row.state ≠ .activated := hstate ▸ hact
  simp only [if_neg hact, if_neg hact']
  generalize markPending row.characteristics ev.taskType "completed" = marked at *
  obtain ⟨chars, pending⟩ := marked
  dsimp only at hpending hmarked hkept hmark ⊢
  subst hpending
  rw [show (p.mark (report .completed ev d) "completed").marks =
    Fields.insert p.marks ev.taskType (.str "completed") from rfl]
  by_cases hall : allCompleted (Fields.insert p.marks ev.taskType (.str "completed")) = true
  · simp only [if_pos hall]
    by_cases hallowed : .activated ∈ svcAllowed p.state
    · rw [if_pos hallowed, completeOrder_eq h hact (hstate ▸ hallowed) hsid, hid]
      have hsettle := settle_shows now (activateGraph d chars now db) .completed .completed h hfor hempty rfl
      cases hs : p.settle (report .completed ev d) .completed with
      | none =>
        rw [hs] at hsettle
        obtain ⟨e, he⟩ := hsettle
        exact ⟨e, by rw [he]; rfl⟩
      | some order =>
        rw [hs] at hsettle
        obtain ⟨db', hdb', horder, hframe, hservices, hevents⟩ := hsettle
        refine ⟨_, by rw [hdb']; rfl, ?_, ?_⟩
        · exact activate_shows h hmarked (fun k hk => (hkept k hk).trans (hothers k hk)) hservices hevents horder _
        · refine ((activateGraph_frame chars).trans hframe).trans (Frame.stage fun c hc => ?_)
          simp [isCompletion, completedPayload_cfs, Ne.symm hc]
    · rw [if_neg hallowed, completeOrder, checkServiceTransition, if_neg (hstate ▸ hallowed)]
      exact ⟨_, rfl⟩
  · simp only [if_neg hall, hsid]
    exact ⟨_, rfl, hmark, mark_frame _⟩

/-! ## Failure -/

def failGraph (d : Decomposition) (chars : Object) (db : SomDb) : SomDb :=
  (db.setServiceCharacteristics d.cfs chars).setServiceState d.cfs .failed

theorem failGraph_frame (chars : Object) : Frame d db (failGraph d chars db) :=
  (Frame.setCharacteristics cfs_mem chars).trans (Frame.setState cfs_mem .failed)

theorem failed_shows {chars : Object} {marks : List (String × Scalar)} {order : ServiceOrderState}
    {payload : Object} (h : Shows db d p) (hstate : p.state ≠ .activated)
    (hmarked : Fields.get chars "pendingTasks" = some (.object marks))
    (hkept : ∀ k ≠ "pendingTasks", Fields.get chars k = Fields.get (characteristics d.req d.reserved) k)
    (hservices : db'.services = (failGraph d chars db).services) (hevents : db'.events = db.events)
    (horder : ∃ row, db'.orders.find d.so = some row ∧ row.state = order ∧
      row.commercialOrderId = d.req.commercialOrderId) (aggregateId : String) :
    Shows (db'.stage "service_order.failed" "ServiceOrder" aggregateId payload) d
      ⟨marks, .failed, order, p.completions⟩ := by
  obtain ⟨row, hrow, hid, -, -, -⟩ := h.cfs
  obtain ⟨hdata, hvoice, -⟩ := distinct_ids h.distinct
  refine ⟨h.distinct, ⟨(row.setCharacteristics chars).setState .failed, ?_, hid, rfl, hmarked, hkept⟩, ?_,
    horder, ?_⟩
  · simp [hservices, failGraph, hrow]
  · simp [hservices, failGraph, h.children, hdata, hvoice, Progress.childState, hstate]
  · simp [hevents, h.completions, isCompletion]

theorem fail_shows (h : Shows db d p) (hcfs : db.services.find d.cfs = some cfs) (hfor : ev.IsFor d)
    (hempty : db.orders.find "" = none) :
    match p.fail (report .failed ev d) with
    | some p' => ∃ db', handleTaskFailed ev (some cfs) now db = .ok db' ∧ Shows db' d p' ∧ Frame d db db'
    | none => ∃ e, handleTaskFailed ev (some cfs) now db = .error e := by
  have hsid := hfor.1
  obtain ⟨row, hrow, hid, hstate, hmarks, hothers⟩ := h.cfs
  obtain rfl : row = cfs := Option.some.inj (hrow.symm.trans hcfs)
  obtain ⟨-, hmarked, hkept⟩ := get_markPending hmarks ev.taskType "failed"
  unfold Progress.fail handleTaskFailed
  by_cases hperm : (report .failed ev d).permanent = true
  · have hperm' : ev.permanent = true := hperm
    simp only [if_pos hperm, if_pos hperm', failOrder]
    generalize markPending row.characteristics ev.taskType "failed" = marked at *
    obtain ⟨chars, pending⟩ := marked
    dsimp only at hmarked hkept ⊢
    by_cases hallowed : .failed ∈ svcAllowed p.state
    · have hallowed' : .failed ∈ svcAllowed row.state := hstate ▸ hallowed
      have hact : p.state ≠ .activated := fun hact => by simp [hact, svcAllowed] at hallowed
      rw [if_pos hallowed, checkServiceTransition_eq_ok.mpr hallowed', hsid]
      have hsettle := settle_shows now (failGraph d chars db) .failed .failed h hfor hempty rfl
      cases hs : p.settle (report .failed ev d) .failed with
      | none =>
        rw [hs] at hsettle
        obtain ⟨e, he⟩ := hsettle
        rw [failGraph] at he
        exact ⟨e, by simp only [he, bind, Except.bind]⟩
      | some order =>
        rw [hs] at hsettle
        obtain ⟨db', hdb', horder, hframe, hservices, hevents⟩ := hsettle
        rw [failGraph] at hdb'
        refine ⟨_, by simp only [hdb', bind, Except.bind]; rfl, ?_, ?_⟩
        · exact failed_shows h hact hmarked (fun k hk => (hkept k hk).trans (hothers k hk)) hservices hevents horder _
        · refine ((failGraph_frame chars).trans hframe).trans (Frame.stage fun c _ => ?_)
          simp [isCompletion]
    · rw [if_neg hallowed, checkServiceTransition, if_neg (hstate ▸ hallowed)]
      exact ⟨_, rfl⟩
  · have hperm' : ¬ ev.permanent = true := hperm
    simp only [if_neg hperm, if_neg hperm']
    exact ⟨db, rfl, h, Frame.refl d db⟩

/-! ## All handlers -/

theorem handleTask_shows (now : Time) (k : TaskKind) (h : Shows db d p) (hcfs : db.services.find d.cfs = some cfs)
    (hfor : ev.IsFor d) (hempty : db.orders.find "" = none) :
    match p.step (report k ev d) with
    | some p' => ∃ db', handleTask k ev (some cfs) now db = .ok db' ∧ Shows db' d p' ∧ Frame d db db'
    | none => ∃ e, handleTask k ev (some cfs) now db = .error e := by
  cases k with
  | completed => exact complete_shows h hcfs hfor hempty
  | failed => exact fail_shows h hcfs hfor hempty
  | stuck =>
    have hmark := mark_shows (l := report .stuck ev d) "stuck" h hcfs rfl
    refine ⟨_, ?_, hmark, mark_frame _⟩
    rw [← hfor.1]
    rfl

/-- A handler that returns has taken one step of its order, and touched no other. -/
theorem handleTask_step {k : TaskKind} (h : Shows db d p) (hcfs : db.services.find d.cfs = some cfs)
    (hfor : ev.IsFor d) (hempty : db.orders.find "" = none)
    (hok : handleTask k ev (some cfs) now db = .ok db') :
    ∃ p', p.step (report k ev d) = some p' ∧ Shows db' d p' ∧ Frame d db db' := by
  have hshows := handleTask_shows now k h hcfs hfor hempty
  cases hs : p.step (report k ev d) with
  | none =>
    rw [hs] at hshows
    obtain ⟨e, he⟩ := hshows
    rw [he] at hok
    simp at hok
  | some p' =>
    rw [hs] at hshows
    obtain ⟨db₁, hdb₁, hp', hframe⟩ := hshows
    obtain rfl : db₁ = db' := by simpa [hdb₁] using hok
    exact ⟨p', rfl, hp', hframe⟩

/-! ## What is staged -/

theorem decomposeOrder_events {req : DecomposeRequest} {ids : DecomposeIds} {r : Reserved}
    (h : decomposeOrder req ids r now db = .ok db') :
    db'.events = db.events ++ ⟨"service_order.in_progress", "ServiceOrder", ids.so,
      [("serviceOrderId", .str ids.so), ("commercialOrderId", .str req.commercialOrderId)]⟩ ::
      taskTypes.map (taskCreated req ids r) := by
  simp only [decomposeOrder, bind_eq_ok] at h
  obtain ⟨db₁, h₁, ⟨⟩, -, ⟨⟩, -, h⟩ := h
  cases h
  obtain ⟨-, -, -, -, hevents, -⟩ := insertGraph_eq_ok r h₁
  simp [hevents]

theorem settleServiceOrder_events {id : String} {state : ServiceOrderState}
    (h : settleServiceOrder id state now db = .ok db') : db'.events = db.events := by
  unfold settleServiceOrder at h
  split at h
  · cases h
    rfl
  · obtain ⟨⟨⟩, -, h⟩ := bind_eq_ok.mp h
    cases h
    rfl

theorem activateChildren_events {cs : List (String × ServiceState)} (h : activateChildren now cs db = .ok db') :
    db'.events = db.events := by
  induction cs generalizing db with
  | nil =>
    cases h
    rfl
  | cons c cs ih =>
    obtain ⟨⟨⟩, -, h⟩ := bind_eq_ok.mp h
    exact (ih h).trans (SomDb.events_activateService ..)

theorem completeOrder_events {chars : Object} (h : completeOrder ev cfs chars now db = .ok db') :
    db'.events = db.events ++ [⟨"service_order.completed", "ServiceOrder", ev.serviceOrderId,
      completedPayload ev cfs.id chars⟩] := by
  simp only [completeOrder, bind_eq_ok] at h
  obtain ⟨⟨⟩, -, db₁, h₁, db₂, h₂, h⟩ := h
  cases h
  rw [SomDb.events_stage, settleServiceOrder_events h₂, activateChildren_events h₁,
    SomDb.events_activateService, SomDb.events_setServiceCharacteristics]

theorem failOrder_events (h : failOrder ev cfs now db = .ok db') :
    db'.events = db.events ++ [⟨"service_order.failed", "ServiceOrder", ev.serviceOrderId,
      failedPayload ev cfs⟩] := by
  simp only [failOrder, bind_eq_ok] at h
  obtain ⟨⟨⟩, -, db₁, h₁, h⟩ := h
  cases h
  rw [SomDb.events_stage, settleServiceOrder_events h₁, SomDb.events_setServiceState,
    SomDb.events_setServiceCharacteristics]

theorem handleTask_events {k : TaskKind} (hok : handleTask k ev (some cfs) now db = .ok db') :
    db'.events = db.events ∨
      db'.events = db.events ++ [⟨"service_order.completed", "ServiceOrder", ev.serviceOrderId,
        completedPayload ev cfs.id (markPending cfs.characteristics ev.taskType "completed").1⟩] ∨
      db'.events = db.events ++ [⟨"service_order.failed", "ServiceOrder", ev.serviceOrderId,
        failedPayload ev cfs⟩] := by
  cases k with
  | completed =>
    simp only [handleTask, handleTaskCompleted] at hok
    split at hok
    · cases hok
      exact Or.inl rfl
    · split at hok
      · exact Or.inr (Or.inl (completeOrder_events hok))
      · cases hok
        exact Or.inl rfl
  | failed =>
    simp only [handleTask, handleTaskFailed] at hok
    split at hok
    · exact Or.inr (Or.inr (failOrder_events hok))
    · cases hok
      exact Or.inl rfl
  | stuck =>
    cases hok
    exact Or.inl rfl

end BssCli.Som
