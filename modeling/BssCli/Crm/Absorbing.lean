import BssCli.Crm.OpenWorld

/-!
# The end of an open order

The sweep ends an order that it has locked as an open one. A cancellation and a completion
end the order that they name, whatever its status.
-/

namespace BssCli.Crm.OpenOrder

open Steps Versions

def terminalStatuses : List String := ["completed", "cancelled", "expired"]

def Terminal (status : String) : Prop := status ∈ terminalStatuses

instance : DecidablePred Terminal := fun _ => inferInstanceAs (Decidable (_ ∈ terminalStatuses))

/-- The event says that the order has ended. -/
def Ends (id : String) (e : Event) : Prop :=
  e.aggregateId = id ∧ e.eventType ∈ terminalStatuses.map ("open_order." ++ ·)

instance (id : String) : DecidablePred (Ends id) := fun _ => inferInstanceAs (Decidable (_ ∧ _))

def endings (events : List Event) (id : String) : ℕ := events.countP fun e => Ends id e

def Task.closes : Task → Option String
  | .close id _ _ | .complete id => some id
  | _ => none

/-- What is cancelled or completed is there and has not ended. -/
def ClosesOpen (w : World) : Label → Prop
  | .run i => ∀ f ∈ w.flights[i]?, ∀ id ∈ f.task.closes, ∃ o ∈ f.order w.db id, ¬ Terminal o.status
  | _ => True

instance (w : World) : (l : Label) → Decidable (ClosesOpen w l)
  | .run _ => inferInstanceAs (Decidable (∀ f ∈ _, ∀ id ∈ _, ∃ o ∈ _, _))
  | .tick _ | .begin _ | .commit _ | .reply _ | .abort _ => inferInstanceAs (Decidable True)

/-! ## Events -/

section Events

variable {events events' : List Event} {id : String}

theorem endings_append : endings (events ++ events') id = endings events id + endings events' id :=
  List.countP_append

theorem endings_eq_zero (h : ∀ e ∈ events', e.eventType ∉ terminalStatuses.map ("open_order." ++ ·)) :
    endings events' id = 0 := by
  unfold endings
  rw [List.countP_eq_zero]
  intro e he hends
  exact h e he (of_decide_eq_true hends).2

theorem endings_append_other (h : endings events' id = 0) : endings (events ++ events') id = endings events id := by
  rw [endings_append, h, Nat.add_zero]

theorem endings_reserved (m reservedFor : String) (t : Time) : endings [reservedEvent m reservedFor t] id = 0 := by
  apply endings_eq_zero
  intro e he
  rw [List.mem_singleton.mp he]
  have htype : "inventory.msisdn.reserved" ∉ terminalStatuses.map ("open_order." ++ ·) := by decide
  exact htype

theorem endings_opened (c : Create) : endings [openedEvent c.id c.identity c.msisdn c.planCode] id = 0 := by
  apply endings_eq_zero
  intro e he
  rw [List.mem_singleton.mp he]
  have htype : "open_order.opened" ∉ terminalStatuses.map ("open_order." ++ ·) := by decide
  exact htype

theorem endings_released (reservedFor : String) (names : List String) :
    endings (releasedEvents reservedFor names) id = 0 := by
  apply endings_eq_zero
  intro e he
  obtain ⟨m, -, rfl⟩ := List.mem_map.mp he
  have htype : "inventory.msisdn.released" ∉ terminalStatuses.map ("open_order." ++ ·) := by decide
  exact htype

theorem endings_closed (oid status : String) (names : List String) :
    endings [closedEvent oid status names] id = if id = oid ∧ Terminal status then 1 else 0 := by
  have hends : Ends id (closedEvent oid status names) ↔ id = oid ∧ Terminal status := by
    have htype : (closedEvent oid status names).eventType = "open_order." ++ status := rfl
    simp only [Ends, htype, List.mem_map, String.append_right_inj, exists_eq_right, Terminal]
    exact and_congr_left fun _ => eq_comm
  simp only [endings, List.countP_singleton, decide_eq_true_eq, hends]

theorem endings_completed (oid : String) :
    endings [completedEvent oid] id = if id = oid ∧ Terminal "completed" then 1 else 0 := by
  have hends : Ends id (completedEvent oid) ↔ id = oid ∧ Terminal "completed" := by
    have hmem : "open_order.completed" ∈ terminalStatuses.map ("open_order." ++ ·) := by decide
    have htype : (completedEvent oid).eventType ∈ terminalStatuses.map ("open_order." ++ ·) := hmem
    have hterminal : Terminal "completed" := by decide
    simp only [Ends, htype, hterminal, and_true]
    exact eq_comm
  simp only [endings, List.countP_singleton, decide_eq_true_eq, hends]

end Events

/-! ## One call -/

/-- An order ends once, and is in a terminal status then. -/
def Ended (events : List Event) (orders : OpenOrders) : Prop :=
  ∀ id, endings events id ≤ 1 ∧ (0 < endings events id → ∃ o ∈ orders.find id, Terminal o.status)

/-- A version of an order that has ended keeps its status and ends it no more. -/
def Settled (f : Flight) (stored : Option OpenOrderRow) (v : OpenOrderRow) : Prop :=
  ∀ o ∈ stored, Terminal o.status → v.status = o.status ∧ endings f.events v.id = 0

/-- What a sweep has locked is still to be ended, and a call that creates has staged nothing. -/
def Flight.Ready (f : Flight) : Prop :=
  match f.task with
  | .find _ | .insert _ => f.events = []
  | .sweep => ∀ k, f.orders.find k = none
  | .expire ids => ids.Nodup ∧ ∀ id ∈ ids, ∃ v ∈ f.orders.find id, ¬ Terminal v.status
  | _ => True

structure Flight.Closes (f : Flight) (db : Db) : Prop where
  ended : Ended f.events f.orders
  settled : ∀ k v, f.orders.find k = some v → Settled f (db.orders.find k) v
  ready : f.Ready

section Moved

variable {db : Db} {clock : Time} {others : List Flight} {f f' : Flight} {p : OpenOrderRow → Prop} [DecidablePred p]
  {w : OpenOrderRow → OpenOrderRow}

theorem closes_quiet (hf : f.Closes db) (ho : WroteOrders f db others p w f'.orders)
    (hw : ∀ o, (w o).status = o.status) (hevents : ∀ id, endings f'.events id = endings f.events id)
    (hs : f'.Ready) : f'.Closes db := by
  refine ⟨?_, ?_, hs⟩
  · intro id
    rw [hevents]
    refine ⟨(hf.ended id).1, fun hpos => ?_⟩
    obtain ⟨v, hv, hterminal⟩ := (hf.ended id).2 hpos
    rw [Option.mem_def] at hv
    have hseen : (f.orders.find id).or (db.orders.find id) = some v := by simp [hv]
    by_cases hp : p v
    · exact ⟨w v, ho.meets hseen hp, by rwa [hw]⟩
    · refine ⟨v, ?_, hterminal⟩
      rw [ho.misses fun r hr => ?_]
      · exact hv
      · rw [hseen, Option.some.injEq] at hr
        exact hr ▸ hp
  · intro k v hv o hstored hterminal
    rw [hevents, (Table.find_some _ hv).2]
    rcases ho.cases hv with ⟨seen, hseen, -, rfl⟩ | hown
    · rw [hw]
      rcases Option.or_eq_some_iff.mp hseen with hown | ⟨hnone, hdb⟩
      · have hsettled := hf.settled k seen hown o hstored hterminal
        rwa [(Table.find_some _ hown).2] at hsettled
      · -- An order that this call had no version of has no event of this call.
        obtain rfl : seen = o := Option.some.inj (hdb.symm.trans hstored)
        refine ⟨rfl, ?_⟩
        by_contra hpos
        obtain ⟨v, hv, -⟩ := (hf.ended k).2 (Nat.pos_of_ne_zero hpos)
        rw [hnone] at hv
        cases hv
    · have hsettled := hf.settled k v hown o hstored hterminal
      rwa [(Table.find_some _ hown).2] at hsettled

theorem closes_keep (hf : f.Closes db) (heq : f'.orders = f.orders)
    (hevents : ∀ id, endings f'.events id = endings f.events id) (hs : f'.Ready) : f'.Closes db := by
  refine ⟨?_, ?_, hs⟩
  · intro id
    rw [heq, hevents]
    exact hf.ended id
  · intro k v hv o hstored hterminal
    rw [heq] at hv
    rw [hevents]
    exact hf.settled k v hv o hstored hterminal

theorem closes_closing {oid status : String} (hf : f.Closes db)
    (ho : WroteOrders f db others (fun o => o.id = oid) w f'.orders) (hw : ∀ o, (w o).status = status)
    (hseen : ∃ o ∈ f.order db oid, ¬ Terminal o.status)
    (hevents : ∀ id, endings f'.events id = endings f.events id + if id = oid ∧ Terminal status then 1 else 0)
    (hs : f'.Ready) : f'.Closes db := by
  obtain ⟨o, ho', hopen⟩ := hseen
  have hid : o.id = oid := by
    rcases Option.or_eq_some_iff.mp ho' with hown | ⟨-, hdb⟩
    · exact (Table.find_some _ hown).2
    · exact (Table.find_some _ hdb).2
  have hzero : endings f.events oid = 0 := by
    by_contra hpos
    obtain ⟨v, hv, hterminal⟩ := (hf.ended oid).2 (Nat.pos_of_ne_zero hpos)
    rw [Option.mem_def, Flight.order, Option.mem_def.mp hv, Option.some_or, Option.some.injEq] at ho'
    exact hopen (ho' ▸ hterminal)
  have hstored : ∀ s ∈ db.orders.find oid, ¬ Terminal s.status := by
    intro s hs hterminal
    rcases Option.or_eq_some_iff.mp ho' with hown | ⟨-, hdb⟩
    · rw [← (hf.settled oid o hown s hs hterminal).1] at hterminal
      exact hopen hterminal
    · obtain rfl : o = s := Option.some.inj (hdb.symm.trans hs)
      exact hopen hterminal
  have hother : ∀ k, k ≠ oid → f'.orders.find k = f.orders.find k := by
    intro k hk
    apply ho.misses
    rintro r hr rfl
    rcases Option.or_eq_some_iff.mp hr with hown | ⟨-, hdb⟩
    · exact hk (Table.find_some _ hown).2.symm
    · exact hk (Table.find_some _ hdb).2.symm
  refine ⟨?_, ?_, hs⟩
  · intro id
    rw [hevents]
    by_cases hk : id = oid
    · subst hk
      rw [hzero]
      constructor
      · split <;> omega
      · intro hpos
        split at hpos
        · rename_i hterminal
          exact ⟨w o, ho.meets ho' hid, by rw [hw]; exact hterminal.2⟩
        · omega
    · rw [if_neg fun h => hk h.1, Nat.add_zero, hother id hk]
      exact hf.ended id
  · intro k v hv s hs hterminal
    by_cases hk : k = oid
    · exact absurd hterminal (hstored s (hk ▸ hs))
    · rw [hother k hk] at hv
      have hvk := (Table.find_some _ hv).2
      rw [hevents, if_neg fun h => hk (hvk ▸ h.1), Nat.add_zero]
      exact hf.settled k v hv s hs hterminal

theorem lockExpired_nodup (f : Flight) (db : Db) (others : List Flight) (limit : ℕ) :
    (f.lockExpiredOpenOrders db others limit).Nodup := by
  unfold Flight.lockExpiredOpenOrders
  refine List.Nodup.sublist ((List.take_sublist ..).map _) ?_
  refine ((List.perm_insertionSort _ _).map _).nodup_iff.mpr ?_
  exact db.orders.key_nodup.sublist (List.filter_sublist.map _)

theorem lockExpired_open {limit : ℕ} {id : String} (h : id ∈ f.lockExpiredOpenOrders db others limit) :
    ∃ o, db.orders.find id = some o ∧ o.status = "open" := by
  unfold Flight.lockExpiredOpenOrders at h
  obtain ⟨o, ho, rfl⟩ := List.mem_map.mp h
  have hmem := (List.perm_insertionSort _ _).mem_iff.mp (List.mem_of_mem_take ho)
  rw [List.mem_filter] at hmem
  exact ⟨o, db.orders.find_of_mem hmem.1, (of_decide_eq_true hmem.2).1⟩

theorem begin_closes {task : Task} {now : Time} {flows : List String}
    (h : (Flight.begin task now flows).Ready) : (Flight.begin task now flows).Closes db := by
  refine ⟨fun id => ?_, fun k v hv => ?_, h⟩
  · simp [Flight.begin, endings]
  · cases hv

theorem Moved.closes (h : Moved db clock others f f') (hf : f.Closes db)
    (hc : ∀ id ∈ f.task.closes, ∃ o ∈ f.order db id, ¬ Terminal o.status) : f'.Closes db := by
  cases h with
  | held ht hn => exact closes_keep hf rfl (fun _ => endings_append_other (endings_reserved ..)) trivial
  | released ht hn =>
    refine closes_keep hf rfl (fun _ => endings_append_other (endings_released ..)) ?_
    rcases ht with ⟨-, rfl⟩ | ⟨status, -, rfl⟩ <;> trivial
  | found ht ho hfind hm => exact closes_quiet hf ho (fun _ => rfl) (fun _ => rfl) trivial
  | missed ht ho =>
    have hready := hf.ready
    rw [Flight.Ready, ht] at hready
    exact closes_quiet hf ho (fun _ => rfl) (fun _ => rfl) hready
  | refreshed ht hn ho => exact closes_quiet hf ho (fun _ => rfl) (fun _ => rfl) trivial
  | restarted ht => exact begin_closes rfl
  | @inserted c ht hfree hnew =>
    have hready := hf.ready
    rw [Flight.Ready, ht] at hready
    refine ⟨?_, ?_, trivial⟩
    · intro id
      simp [hready, endings]
    · intro k v hv o hstored hterminal
      simp only [Table.find_put string_injective] at hv
      split at hv
      · rename_i hid
        have hk : c.id = k := hid
        rw [← hk, hnew] at hstored
        cases hstored
      · exact hf.settled k v hv o hstored hterminal
  | took ht hn hheld => exact closes_keep hf rfl (fun _ => endings_append_other (endings_opened ..)) trivial
  | closed ht ho =>
    refine closes_closing hf ho (fun _ => rfl) (hc _ (by simp [ht, Task.closes])) ?_ trivial
    intro id
    rw [endings_append, endings_closed]
  | completed ht ho =>
    refine closes_closing hf ho (fun _ => rfl) (hc _ (by simp [ht, Task.closes])) ?_ trivial
    intro id
    rw [endings_append, endings_completed]
  | noted ht hw ho => exact closes_quiet hf ho (fun o => (hw o).2.2) (fun _ => rfl) trivial
  | reserved ht hfree hn => exact closes_keep hf rfl (fun _ => rfl) trivial
  | picked ht hpick hn => exact closes_keep hf rfl (fun _ => rfl) trivial
  | @listed ids orders ht hids ho =>
    have hready := hf.ready
    rw [Flight.Ready, ht] at hready
    refine closes_quiet hf ho (fun _ => rfl) (fun _ => rfl) ⟨hids ▸ lockExpired_nodup .., ?_⟩
    intro id hid
    obtain ⟨o, hstored, hopen⟩ := lockExpired_open (hids ▸ hid)
    have hseen : (f.orders.find id).or (db.orders.find id) = some o := by rw [hready id, Option.none_or, hstored]
    refine ⟨o, ho.meets hseen ?_, ?_⟩
    · rwa [(Table.find_some _ hstored).2]
    · rw [hopen]
      decide
  | @expired oid ids names numbers orders ht hn ho =>
    have hready := hf.ready
    rw [Flight.Ready, ht] at hready
    obtain ⟨hnodup, hlocked⟩ := hready
    obtain ⟨hnotin, hnodup⟩ := List.nodup_cons.mp hnodup
    obtain ⟨v, hv, hopen⟩ := hlocked oid (List.mem_cons_self ..)
    rw [Option.mem_def] at hv
    refine closes_closing hf ho (fun _ => rfl) ⟨v, by simp [Flight.order, hv], hopen⟩ ?_ ⟨hnodup, ?_⟩
    · intro id
      rw [endings_append, endings_append, endings_released, endings_closed, Nat.zero_add]
    · intro id hid
      obtain ⟨v', hv', hopen'⟩ := hlocked id (List.mem_cons_of_mem _ hid)
      rw [Option.mem_def] at hv'
      refine ⟨v', ?_, hopen'⟩
      rw [Option.mem_def, ho.misses]
      · exact hv'
      · rintro r hr rfl
        simp only [hv', Option.some_or, Option.some.injEq] at hr
        rw [← hr, (Table.find_some _ hv').2] at hnotin
        exact hnotin hid
  | swept ht => exact closes_keep hf rfl (fun _ => rfl) trivial

end Moved

theorem Call.start_closes (c : Call) (now : Time) (db : Db) : (c.start now).Closes db := by
  cases c with
  | createOrResume c => exact begin_closes rfl
  | sweep => exact begin_closes fun _ => rfl
  | _ => exact begin_closes trivial

/-! ## Runs -/

structure EndInv (w : World) : Prop where
  locks : Locks w.flights
  ended : Ended w.db.events w.db.orders
  closes : ∀ f ∈ w.flights, f.Closes w.db

section Step

variable {w w' : World} {l : Label}

theorem commit_ended (hi : EndInv w) {f : Flight} (hf : f ∈ w.flights) :
    Ended (w.db.commit f).events (w.db.commit f).orders := by
  have hcloses := hi.closes f hf
  intro id
  simp only [Db.commit, endings_append, Table.find_overlay string_injective]
  by_cases hzero : endings f.events id = 0
  · rw [hzero, Nat.add_zero]
    refine ⟨(hi.ended id).1, fun hpos => ?_⟩
    obtain ⟨o, ho, hterminal⟩ := (hi.ended id).2 hpos
    cases hv : f.orders.find id with
    | none => exact ⟨o, ho, hterminal⟩
    | some v =>
      have hsame := (hcloses.settled id v hv o ho hterminal).1
      exact ⟨v, rfl, by rwa [hsame]⟩
  · obtain ⟨v, hv, hterminal⟩ := (hcloses.ended id).2 (Nat.pos_of_ne_zero hzero)
    have hnone : endings w.db.events id = 0 := by
      by_contra hpos
      obtain ⟨o, ho, hstored⟩ := (hi.ended id).2 (Nat.pos_of_ne_zero hpos)
      have hsettled := (hcloses.settled id v hv o ho hstored).2
      rw [(Table.find_some _ hv).2] at hsettled
      exact hzero hsettled
    rw [hnone, Nat.zero_add, Option.mem_def.mp hv]
    exact ⟨(hcloses.ended id).1, fun _ => ⟨v, rfl, hterminal⟩⟩

/-- The others see the orders that they have versions of as before. -/
theorem commit_closes (hi : EndInv w) {i : ℕ} {f : Flight} (hf : w.flights[i]? = some f) :
    ∀ g ∈ w.flights.eraseIdx i, g.Closes (w.db.commit f) := by
  intro g hg
  have hcloses := hi.closes g (List.mem_of_mem_eraseIdx hg)
  have hsettled : Justified Flight.orders Settled w.db.orders w.flights := fun g hg => (hi.closes g hg).settled
  exact ⟨hcloses.ended, hsettled.commit string_injective hi.locks.orders hf g hg, hcloses.ready⟩

theorem stepped_endInv (hi : EndInv w) (hc : ClosesOpen w l) (hs : Stepped w l w') : EndInv w' := by
  have hlocks := hi.locks.step hs
  cases hs with
  | ticked d => exact ⟨hlocks, hi.ended, hi.closes⟩
  | began c => exact ⟨hlocks, hi.ended, Pool.forall_concat hi.closes (c.start_closes ..)⟩
  | @moved i f f' hf hm =>
    have hcloses := hm.closes (hi.closes f (Pool.mem_of_getElem? hf)) (hc f hf)
    exact ⟨hlocks, hi.ended, Pool.forall_set hi.closes hcloses⟩
  | ended hl => exact ⟨hlocks, hi.ended, Pool.forall_eraseIdx hi.closes⟩
  | committed hf ht => exact ⟨hlocks, commit_ended hi (Pool.mem_of_getElem? hf), commit_closes hi hf⟩
  | answered hf ht =>
    exact ⟨hlocks, commit_ended hi (Pool.mem_of_getElem? hf),
      Pool.forall_set_rest hf (commit_closes hi hf) (begin_closes trivial)⟩

theorem stepped_terminal (hi : EndInv w) (hs : Stepped w l w') {id status : String} (hterminal : Terminal status)
    (h : ∃ o ∈ w.db.orders.find id, o.status = status) : ∃ o ∈ w'.db.orders.find id, o.status = status := by
  obtain ⟨o, ho, rfl⟩ := h
  have hcommit : ∀ f ∈ w.flights, ∃ o' ∈ (w.db.commit f).orders.find id, o'.status = o.status := by
    intro f hf
    simp only [Db.commit, Table.find_overlay string_injective]
    cases hv : f.orders.find id with
    | none => exact ⟨o, ho, rfl⟩
    | some v => exact ⟨v, rfl, ((hi.closes f hf).settled id v hv o ho hterminal).1⟩
  cases hs with
  | committed hf ht => exact hcommit _ (Pool.mem_of_getElem? hf)
  | answered hf ht => exact hcommit _ (Pool.mem_of_getElem? hf)
  | _ => exact ⟨o, ho, rfl⟩

end Step

/-- **An open order ends once** in a run in which nothing is cancelled or completed that has
ended: one terminal event at most, and a terminal status stays. -/
theorem open_order_ends_once (numbers : Numbers) (orders : OpenOrders) (clock : Time) (ls : List Label) (w : World)
    (h : exec (guarded ClosesOpen World.step) (World.initial numbers orders clock) ls = some w) :
    (∀ id, endings w.db.events id ≤ 1) ∧
    ∀ id o, w.db.orders.find id = some o → Terminal o.status →
      ∀ ms w', exec (guarded ClosesOpen World.step) w ms = some w' →
        ∃ o', w'.db.orders.find id = some o' ∧ o'.status = o.status := by
  have hinit : EndInv (World.initial numbers orders clock) :=
    ⟨⟨List.Pairwise.nil, List.Pairwise.nil⟩, fun id => by simp [World.initial, endings], by simp [World.initial]⟩
  have hstep : ∀ s l s', EndInv s → ClosesOpen s l → World.step s l = some s' → EndInv s' :=
    fun s l s' hs hc hstep => stepped_endInv hs hc (step_eq_some hstep)
  have hi : EndInv w := guarded_inv (P := EndInv) hstep hinit h
  refine ⟨fun id => (hi.ended id).1, ?_⟩
  intro id o ho hterminal ms w' hms
  have hkeep := guarded_inv (P := fun s => EndInv s ∧ ∃ o' ∈ s.db.orders.find id, o'.status = o.status)
    (fun s l s' hs hc hsl => ⟨hstep s l s' hs.1 hc hsl, stepped_terminal hs.1 (step_eq_some hsl) hterminal hs.2⟩)
    ⟨hi, o, ho, rfl⟩ hms
  exact hkeep.2

/-- An order is created, completed and looked at by a sweep. -/
theorem open_order_ends_once_completed :
    let w := (exec (guarded ClosesOpen World.step) (World.initial sampleNumbers .empty 0)
      [.begin (.createOrResume ⟨"OO-A", "a@x", "PLAN", "90000001", 60⟩), .run 0, .run 0, .run 0, .commit 0, .reply 0,
       .begin (.complete "OO-A"), .run 0, .commit 0]).get (by decide)
    let w' := (exec (guarded ClosesOpen World.step) w [.tick 61000000, .begin .sweep, .run 0]).get (by decide)
    endings w.db.events "OO-A" = 1 ∧ ∃ o, w'.db.orders.find "OO-A" = some o ∧ o.status = "completed" := by
  intro w w'
  refine ⟨by decide, ?_⟩
  exact (open_order_ends_once sampleNumbers .empty 0 _ w (Option.some_get _).symm).2 "OO-A"
    ⟨"OO-A", "a@x", none, "PLAN", some "90000001", none, "completed", "completed", some 60000000⟩
    (by decide) (by decide) _ w' (Option.some_get _).symm

/-- An order that is completed is cancelled. -/
theorem completed_order_cancelled :
    ∃ w, exec World.step (World.initial sampleNumbers .empty 0)
        [.begin (.createOrResume ⟨"OO-A", "a@x", "PLAN", "90000001", 60⟩), .run 0, .run 0, .run 0, .commit 0, .reply 0,
         .begin (.complete "OO-A"), .run 0, .commit 0,
         .begin (.cancel "OO-A" "cancelled"), .run 0, .run 0, .commit 0] = some w ∧
      (w.db.orders.find "OO-A").map OpenOrderRow.status = some "cancelled" ∧ endings w.db.events "OO-A" = 2 :=
  ⟨_, rfl, by decide, by decide⟩

end BssCli.Crm.OpenOrder
