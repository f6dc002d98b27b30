import BssCli.Crm.OpenOrder
import BssCli.Lib.Steps

/-!
# Calls on open orders at the same time

A call runs one statement after the other and commits. A statement sees what is committed
and what its own call has written. It waits while another call has written, or has locked,
a row that it meets.
-/

namespace BssCli.Crm.OpenOrder

open Versions

def batchLimit : ℕ := 100

/-! ## One statement of a call -/

namespace Flight

variable (f : Flight) (db : Db) (clock : Time) (others : List Flight)

theorem reserve_keeps (r : MsisdnRow) :
    ({ r with status := .reserved, reservedAt := some clock } : MsisdnRow).msisdn = r.msisdn := rfl

theorem hardReserve_keeps (r : MsisdnRow) : (r.hardReserve clock).msisdn = r.msisdn := rfl

theorem id_keeps (o : OpenOrderRow) : (id o).id = o.id := rfl

/-- The hold of a new order has to be taken. -/
def runTake (c : Create) : Ran :=
  match f.holdMsisdn db others c.msisdn c.id (f.holdUntil c.ttl) with
  | none => .waits
  | some (false, _) => .fails (justTaken c.msisdn)
  | some (true, f) =>
    .goes ((f.stage [openedEvent c.id c.identity c.msisdn c.planCode]).withTask (.done (some (c.id, false))))

/-- An order that is there is resumed. Whether its hold was taken is not looked at. -/
def runRefresh (c : Create) (existing : String) : Ran :=
  match f.holdMsisdn db others c.msisdn existing (f.holdUntil c.ttl) with
  | none => .waits
  | some (_, f) =>
    match f.setOpenOrderState db others existing none none (some (f.holdUntil c.ttl)) with
    | none => .waits
    | some f => .goes (f.withTask (.done (some (existing, true))))

def runFind (c : Create) : Ran :=
  match f.getOpenOrderByIdentity db others c.identity with
  | none => .waits
  | some (none, f) => .goes (f.withTask (.insert c))
  | some (some existing, f) =>
    if existing.msisdn = some c.msisdn then .goes { f with task := .refresh c existing.id, flows := existing.id :: f.flows }
    else .fails (alreadyOpen existing)

/-- `ON CONFLICT (owner_identity) WHERE status='open' DO NOTHING`. After a conflict the call starts again. -/
def runInsert (c : Create) : Ran :=
  if InsertWaits others c then .waits
  else if OwnerOpen db c then .goes (.begin (.find c) clock [])
  else match db.orders.find c.id with
    | some _ => .fails (dbError "duplicate key value violates unique constraint \"open_order_pkey\"")
    | none => .goes { f with task := .take c, flows := c.id :: f.flows, orders := f.orders.put (f.newOrder c) }

/-- One of the rows is another order of the owner of `id`. -/
def OwnerHas (id : String) (rows : List OpenOrderRow) : Prop :=
  ∃ o ∈ f.orders.find id, ∃ g ∈ rows, g.id ≠ id ∧ g.ownerIdentity = o.ownerIdentity

instance (id : String) (rows : List OpenOrderRow) : Decidable (f.OwnerHas id rows) :=
  inferInstanceAs (Decidable (∃ o ∈ _, ∃ g ∈ _, _))

/-- The status is the caller's. An order that is opened again meets the partial unique index. -/
def runClose (id terminalStatus : String) (released : List String) : Ran :=
  match f.setOpenOrderState db others id none (some terminalStatus) none with
  | none => .waits
  | some f =>
    if terminalStatus = "open" ∧ f.OwnerHas id (others.flatMap (·.orders.rows)) then .waits
    else if terminalStatus = "open" ∧ f.OwnerHas id (db.orders.rows.filter fun o => o.status = "open") then
      .fails (dbError "duplicate key value violates unique constraint \"uq_open_order_owner_open\"")
    else .goes ((f.stage [closedEvent id terminalStatus released]).withTask (.done none))

/-- The pick locks the row, so its `UPDATE` is part of the same step. -/
def runReserve (msisdn : String) : Ran :=
  if msisdn ∉ locked others ∧ ∃ r ∈ db.numbers.find msisdn, r.status = .available then
    match f.updateNumbers db others (fun r => r.msisdn = msisdn)
      (fun r => { r with status := .reserved, reservedAt := some clock }) (reserve_keeps clock) with
    | none => .waits
    | some (_, f) => .goes (f.withTask (.done none))
  else .fails (notAvailable msisdn)

def runReserveNext (preference : Option String) : Ran :=
  match pickMsisdn db.numbers (locked others) preference with
  | none => .fails (noAvailable preference)
  | some msisdn =>
    match f.updateNumbers db others (fun r => r.msisdn = msisdn) (MsisdnRow.hardReserve clock) (hardReserve_keeps clock) with
    | none => .waits
    | some (_, f) => .goes (f.withTask (.done none))

/-- The batch of a sweep. A sweep that finds none is over. -/
def runSweep : Ran :=
  let ids := f.lockExpiredOpenOrders db others batchLimit
  if ids = [] then .over
  else match f.updateOrders db others (fun o => o.id ∈ ids) id id_keeps with
    | none => .waits
    | some (_, f) => .goes { f with task := .expire ids, flows := ids ++ f.flows }

def runExpire : List String → Ran
  | [] => .goes (f.withTask (.done none))
  | id :: ids =>
    match f.releaseHoldsFor db others id with
    | none => .waits
    | some (released, f) =>
      match f.setOpenOrderState db others id none (some "expired") none with
      | none => .waits
      | some f =>
        .goes ((f.stage (releasedEvents id released ++ [closedEvent id "expired" released])).withTask (.expire ids))

def run : Ran :=
  match f.task with
  | .hold msisdn reservedFor ttl =>
    match f.holdMsisdn db others msisdn reservedFor (f.holdUntil ttl) with
    | none => .waits
    | some (false, _) => .fails (holdUnavailable msisdn)
    | some (true, f) => .goes ((f.stage [reservedEvent msisdn reservedFor (f.holdUntil ttl)]).withTask (.done none))
  | .releaseHold reservedFor =>
    match f.releaseHoldsFor db others reservedFor with
    | none => .waits
    | some (released, f) => .goes ((f.stage (releasedEvents reservedFor released)).withTask (.done none))
  | .find c => f.runFind db others c
  | .refresh c existing => f.runRefresh db others c existing
  | .insert c => f.runInsert db clock others c
  | .take c => f.runTake db others c
  | .cancel id terminalStatus =>
    match f.releaseHoldsFor db others id with
    | none => .waits
    | some (released, f) =>
      .goes ((f.stage (releasedEvents id released)).withTask (.close id terminalStatus released))
  | .close id terminalStatus released => f.runClose db others id terminalStatus released
  | .complete id =>
    match f.setOpenOrderState db others id (some "completed") (some "completed") none with
    | none => .waits
    | some f => .goes ((f.stage [completedEvent id]).withTask (.done none))
  | .advance id step =>
    match f.setOpenOrderState db others id (some step) none none with
    | none => .waits
    | some f => .goes (f.withTask (.done none))
  | .link id customerId =>
    match f.linkOpenOrderCustomer db others id customerId with
    | none => .waits
    | some f => .goes (f.withTask (.done none))
  | .reserve msisdn => f.runReserve db clock others msisdn
  | .reserveNext preference => f.runReserveNext db clock others preference
  | .sweep => f.runSweep db others
  | .expire ids => f.runExpire db others ids
  | .done _ | .replying _ _ => .waits

end Flight

/-! ## The world -/

/-- A request. A reservation comes from the flow of an order that it does not name. -/
inductive Call
  | hold (msisdn reservedFor : String) (ttl : ℤ)
  | releaseHold (reservedFor : String)
  | createOrResume (c : Create)
  | cancel (id terminalStatus : String)
  | complete (id : String)
  | advance (id step : String)
  | link (id customerId : String)
  | reserve (msisdn flow : String)
  | reserveNext (preference : Option String) (flow : String)
  | sweep

def Call.start (now : Time) : Call → Flight
  | .hold msisdn reservedFor ttl => .begin (.hold msisdn reservedFor ttl) now [reservedFor]
  | .releaseHold reservedFor => .begin (.releaseHold reservedFor) now [reservedFor]
  | .createOrResume c => .begin (.find c) now []
  | .cancel id terminalStatus => .begin (.cancel id terminalStatus) now [id]
  | .complete id => .begin (.complete id) now [id]
  | .advance id step => .begin (.advance id step) now [id]
  | .link id customerId => .begin (.link id customerId) now [id]
  | .reserve msisdn flow => .begin (.reserve msisdn) now [flow]
  | .reserveNext preference flow => .begin (.reserveNext preference) now [flow]
  | .sweep => .begin .sweep now []

structure World where
  db : Db
  clock : Time
  flights : List Flight

inductive Label
  | tick (d : ℕ)
  | begin (c : Call)
  | run (i : ℕ)
  | commit (i : ℕ)
  | reply (i : ℕ)
  | abort (i : ℕ)

def Db.commit (db : Db) (f : Flight) : Db :=
  ⟨db.numbers.overlay f.numbers, db.orders.overlay f.orders, db.events ++ f.events⟩

/-- The order that `create_or_resume_open_order` replies with, read after its commit. -/
def replyOf (db : Db) (id : String) (resumed : Bool) : Except ApiError Object :=
  match db.orders.find id with
  | some o => .ok (openOrderJson o ++ [("resumed", .bool resumed)])
  | none => .error (.internal "open_order vanished")

def sampleNumbers : Numbers :=
  ⟨[⟨"90000001", .available, none, none, none, none⟩, ⟨"90000002", .available, none, none, none, none⟩], by decide⟩

namespace World

def initial (numbers : Numbers) (orders : OpenOrders) (clock : Time) : World := ⟨⟨numbers, orders, []⟩, clock, []⟩

def step (w : World) : Label → Option World
  | .tick d => some { w with clock := w.clock + d }
  | .begin c => some { w with flights := w.flights ++ [c.start w.clock] }
  | .run i => w.flights[i]?.bind fun f =>
    match f.run w.db w.clock (w.flights.eraseIdx i) with
    | .waits => none
    | .fails _ | .over => some { w with flights := w.flights.eraseIdx i }
    | .goes f => some { w with flights := w.flights.set i f }
  | .commit i => w.flights[i]?.bind fun f =>
    match f.task with
    | .done none => some { w with db := w.db.commit f, flights := w.flights.eraseIdx i }
    | .done (some (id, resumed)) =>
      some { w with db := w.db.commit f, flights := w.flights.set i (.begin (.replying id resumed) f.now f.flows) }
    | _ => none
  | .reply i => w.flights[i]?.bind fun f =>
    match f.task with
    | .replying _ _ => some { w with flights := w.flights.eraseIdx i }
    | _ => none
  | .abort i => w.flights[i]?.map fun _ => { w with flights := w.flights.eraseIdx i }

end World

/-! ## What a statement can do -/

section Inversion

variable {f f' : Flight} {db : Db} {clock : Time} {others : List Flight}

theorem string_injective : Function.Injective fun s : String => s := fun _ _ h => h

abbrev WroteNumbers (f : Flight) (db : Db) (others : List Flight) (p : MsisdnRow → Prop) [DecidablePred p]
    (w : MsisdnRow → MsisdnRow) (numbers : Numbers) : Prop :=
  Wrote Flight.numbers others db.numbers p w f.numbers numbers

abbrev WroteOrders (f : Flight) (db : Db) (others : List Flight) (p : OpenOrderRow → Prop) [DecidablePred p]
    (w : OpenOrderRow → OpenOrderRow) (orders : OpenOrders) : Prop :=
  Wrote Flight.orders others db.orders p w f.orders orders

/-- What a hold of `reservedFor` can be put on. -/
def HoldOn (msisdn reservedFor : String) (now : Time) (r : MsisdnRow) : Prop :=
  r.msisdn = msisdn ∧ r.Holdable reservedFor now

instance (msisdn reservedFor : String) (now : Time) : DecidablePred (HoldOn msisdn reservedFor now) :=
  fun _ => inferInstanceAs (Decidable (_ ∧ _))

/-- The number and the order as a call sees them. -/
def Flight.number (f : Flight) (db : Db) (m : String) : Option MsisdnRow := (f.numbers.find m).or (db.numbers.find m)

def Flight.order (f : Flight) (db : Db) (id : String) : Option OpenOrderRow := (f.orders.find id).or (db.orders.find id)

theorem updateNumbers_eq_some {p : MsisdnRow → Prop} [DecidablePred p] {w : MsisdnRow → MsisdnRow}
    {hw : ∀ r, (w r).msisdn = r.msisdn} {rows : Numbers} (h : f.updateNumbers db others p w hw = some (rows, f')) :
    rows = met f.numbers db.numbers p ∧ ∃ numbers, f' = { f with numbers := numbers } ∧
      WroteNumbers f db others p w numbers := by
  unfold Flight.updateNumbers at h
  obtain ⟨⟨rows', numbers⟩, hup, h⟩ := Option.map_eq_some_iff.mp h
  cases h
  obtain ⟨hrows, hwrote⟩ := update_eq_some string_injective hup
  exact ⟨hrows, numbers, rfl, hwrote⟩

theorem updateOrders_eq_some {p : OpenOrderRow → Prop} [DecidablePred p] {w : OpenOrderRow → OpenOrderRow}
    {hw : ∀ o, (w o).id = o.id} {rows : OpenOrders} (h : f.updateOrders db others p w hw = some (rows, f')) :
    rows = met f.orders db.orders p ∧ ∃ orders, f' = { f with orders := orders } ∧
      WroteOrders f db others p w orders := by
  unfold Flight.updateOrders at h
  obtain ⟨⟨rows', orders⟩, hup, h⟩ := Option.map_eq_some_iff.mp h
  cases h
  obtain ⟨hrows, hwrote⟩ := update_eq_some string_injective hup
  exact ⟨hrows, orders, rfl, hwrote⟩

theorem holdMsisdn_eq_some {m reservedFor : String} {t : Time} {held : Bool}
    (h : f.holdMsisdn db others m reservedFor t = some (held, f')) :
    ∃ numbers, f' = { f with numbers := numbers } ∧
      WroteNumbers f db others (HoldOn m reservedFor f.now) (MsisdnRow.softHold reservedFor t f.now) numbers ∧
      (held = true → ∃ r, f.number db m = some r ∧ r.Holdable reservedFor f.now) := by
  unfold Flight.holdMsisdn at h
  obtain ⟨⟨rows, f₁⟩, hup, h⟩ := Option.map_eq_some_iff.mp h
  cases h
  obtain ⟨rfl, numbers, rfl, hwrote⟩ := updateNumbers_eq_some hup
  refine ⟨numbers, rfl, hwrote, ?_⟩
  intro hheld
  obtain ⟨r, hr⟩ : ∃ r, r ∈ (met f.numbers db.numbers fun r => r.msisdn = m ∧ r.Holdable reservedFor f.now).rows := by
    rw [Bool.not_eq_true', List.isEmpty_eq_false_iff_exists_mem] at hheld
    exact hheld
  have hfind := Table.find_of_mem _ hr
  rw [find_met string_injective, Option.filter_eq_some_iff] at hfind
  obtain ⟨hseen, hp⟩ := hfind
  obtain ⟨rfl, hholdable⟩ := of_decide_eq_true hp
  exact ⟨r, hseen, hholdable⟩

theorem releaseHoldsFor_eq_some {reservedFor : String} {released : List String}
    (h : f.releaseHoldsFor db others reservedFor = some (released, f')) :
    ∃ numbers, f' = { f with numbers := numbers } ∧ WroteNumbers f db others (HeldFor reservedFor) freed numbers := by
  unfold Flight.releaseHoldsFor at h
  obtain ⟨⟨rows, f₁⟩, hup, h⟩ := Option.map_eq_some_iff.mp h
  cases h
  exact (updateNumbers_eq_some hup).2

theorem setOpenOrderState_eq_some {id : String} {step status : Option String} {t : Option Time}
    (h : f.setOpenOrderState db others id step status t = some f') :
    ∃ orders, f' = { f with orders := orders } ∧
      WroteOrders f db others (fun o => o.id = id) (OpenOrderRow.setState step status t) orders := by
  unfold Flight.setOpenOrderState at h
  obtain ⟨⟨rows, f₁⟩, hup, h⟩ := Option.map_eq_some_iff.mp h
  cases h
  exact (updateOrders_eq_some hup).2

theorem linkOpenOrderCustomer_eq_some {id customerId : String}
    (h : f.linkOpenOrderCustomer db others id customerId = some f') :
    ∃ orders, f' = { f with orders := orders } ∧
      WroteOrders f db others (fun o => o.id = id) (OpenOrderRow.link customerId) orders := by
  unfold Flight.linkOpenOrderCustomer at h
  obtain ⟨⟨rows, f₁⟩, hup, h⟩ := Option.map_eq_some_iff.mp h
  cases h
  exact (updateOrders_eq_some hup).2

theorem getOpenOrderByIdentity_eq_some {identity : String} {found : Option OpenOrderRow}
    (h : f.getOpenOrderByIdentity db others identity = some (found, f')) :
    ∃ orders, f' = { f with orders := orders } ∧
      WroteOrders f db others (fun o => o.ownerIdentity = identity ∧ o.status = "open") id orders ∧
      ∀ o ∈ found, orders.find o.id = some o := by
  unfold Flight.getOpenOrderByIdentity at h
  obtain ⟨⟨rows, f₁⟩, hup, h⟩ := Option.map_eq_some_iff.mp h
  cases h
  obtain ⟨rfl, orders, rfl, hwrote⟩ := updateOrders_eq_some hup
  refine ⟨orders, rfl, hwrote, ?_⟩
  intro o ho
  have hfind := Table.find_of_mem _ (List.mem_of_mem_head? ho)
  rw [find_met string_injective, Option.filter_eq_some_iff] at hfind
  obtain ⟨hseen, hp⟩ := hfind
  exact hwrote.meets hseen (of_decide_eq_true hp)

/-- The statements that a call can have run, and what each has made of the call. -/
inductive Moved (db : Db) (clock : Time) (others : List Flight) (f : Flight) : Flight → Prop
  | held {m reservedFor : String} {ttl : ℤ} {numbers : Numbers} (ht : f.task = .hold m reservedFor ttl)
      (hn : WroteNumbers f db others (HoldOn m reservedFor f.now)
        (MsisdnRow.softHold reservedFor (f.holdUntil ttl) f.now) numbers) :
      Moved db clock others f { f with
        task := .done none, numbers := numbers
        events := f.events ++ [reservedEvent m reservedFor (f.holdUntil ttl)] }
  | released {reservedFor : String} {numbers : Numbers} {names : List String} {task : Task}
      (ht : f.task = .releaseHold reservedFor ∧ task = .done none ∨
        ∃ status, f.task = .cancel reservedFor status ∧ task = .close reservedFor status names)
      (hn : WroteNumbers f db others (HeldFor reservedFor) freed numbers) :
      Moved db clock others f { f with
        task := task, numbers := numbers, events := f.events ++ releasedEvents reservedFor names }
  | found {c : Create} {existing : OpenOrderRow} {orders : OpenOrders} (ht : f.task = .find c)
      (ho : WroteOrders f db others (fun o => o.ownerIdentity = c.identity ∧ o.status = "open") id orders)
      (hfind : orders.find existing.id = some existing) (hm : existing.msisdn = some c.msisdn) :
      Moved db clock others f { f with task := .refresh c existing.id, flows := existing.id :: f.flows, orders := orders }
  | missed {c : Create} {orders : OpenOrders} (ht : f.task = .find c)
      (ho : WroteOrders f db others (fun o => o.ownerIdentity = c.identity ∧ o.status = "open") id orders) :
      Moved db clock others f { f with task := .insert c, orders := orders }
  | refreshed {c : Create} {existing : String} {numbers : Numbers} {orders : OpenOrders}
      (ht : f.task = .refresh c existing)
      (hn : WroteNumbers f db others (HoldOn c.msisdn existing f.now)
        (MsisdnRow.softHold existing (f.holdUntil c.ttl) f.now) numbers)
      (ho : WroteOrders f db others (fun o => o.id = existing)
        (OpenOrderRow.setState none none (some (f.holdUntil c.ttl))) orders) :
      Moved db clock others f { f with
        task := .done (some (existing, true)), numbers := numbers, orders := orders }
  | restarted {c : Create} (ht : f.task = .insert c) : Moved db clock others f (.begin (.find c) clock [])
  | inserted {c : Create} (ht : f.task = .insert c) (hfree : ∀ g ∈ others, g.orders.find c.id = none)
      (hnew : db.orders.find c.id = none) :
      Moved db clock others f { f with
        task := .take c, flows := c.id :: f.flows, orders := f.orders.put (f.newOrder c) }
  | took {c : Create} {numbers : Numbers} (ht : f.task = .take c)
      (hn : WroteNumbers f db others (HoldOn c.msisdn c.id f.now)
        (MsisdnRow.softHold c.id (f.holdUntil c.ttl) f.now) numbers)
      (hheld : ∃ r, f.number db c.msisdn = some r ∧ r.Holdable c.id f.now) :
      Moved db clock others f { f with
        task := .done (some (c.id, false)), numbers := numbers
        events := f.events ++ [openedEvent c.id c.identity c.msisdn c.planCode] }
  | closed {oid status : String} {names : List String} {orders : OpenOrders} (ht : f.task = .close oid status names)
      (ho : WroteOrders f db others (fun o => o.id = oid) (OpenOrderRow.setState none (some status) none) orders) :
      Moved db clock others f { f with
        task := .done none, orders := orders, events := f.events ++ [closedEvent oid status names] }
  | completed {oid : String} {orders : OpenOrders} (ht : f.task = .complete oid)
      (ho : WroteOrders f db others (fun o => o.id = oid)
        (OpenOrderRow.setState (some "completed") (some "completed") none) orders) :
      Moved db clock others f { f with
        task := .done none, orders := orders, events := f.events ++ [completedEvent oid] }
  | noted {oid : String} {orders : OpenOrders} {w : OpenOrderRow → OpenOrderRow}
      (ht : (∃ step, f.task = .advance oid step) ∨ ∃ customerId, f.task = .link oid customerId)
      (hw : ∀ o, (w o).msisdn = o.msisdn ∧ (w o).reservedUntil = o.reservedUntil ∧ (w o).status = o.status)
      (ho : WroteOrders f db others (fun o => o.id = oid) w orders) :
      Moved db clock others f { f with task := .done none, orders := orders }
  | reserved {m : String} {numbers : Numbers} (ht : f.task = .reserve m)
      (hfree : ∃ r, db.numbers.find m = some r ∧ r.status = .available)
      (hn : WroteNumbers f db others (fun r => r.msisdn = m)
        (fun r => { r with status := .reserved, reservedAt := some clock }) numbers) :
      Moved db clock others f { f with task := .done none, numbers := numbers }
  | picked {preference : Option String} {m : String} {numbers : Numbers} (ht : f.task = .reserveNext preference)
      (hpick : pickMsisdn db.numbers (Flight.locked others) preference = some m)
      (hn : WroteNumbers f db others (fun r => r.msisdn = m) (MsisdnRow.hardReserve clock) numbers) :
      Moved db clock others f { f with task := .done none, numbers := numbers }
  | listed {ids : List String} {orders : OpenOrders} (ht : f.task = .sweep)
      (hids : ids = f.lockExpiredOpenOrders db others batchLimit)
      (ho : WroteOrders f db others (fun o => o.id ∈ ids) id orders) :
      Moved db clock others f { f with task := .expire ids, flows := ids ++ f.flows, orders := orders }
  | expired {oid : String} {ids names : List String} {numbers : Numbers} {orders : OpenOrders}
      (ht : f.task = .expire (oid :: ids)) (hn : WroteNumbers f db others (HeldFor oid) freed numbers)
      (ho : WroteOrders f db others (fun o => o.id = oid)
        (OpenOrderRow.setState none (some "expired") none) orders) :
      Moved db clock others f { f with
        task := .expire ids, numbers := numbers, orders := orders
        events := f.events ++ (releasedEvents oid names ++ [closedEvent oid "expired" names]) }
  | swept (ht : f.task = .expire []) : Moved db clock others f { f with task := .done none }

theorem runFind_goes {c : Create} (ht : f.task = .find c) (h : f.runFind db others c = .goes f') :
    Moved db clock others f f' := by
  unfold Flight.runFind at h
  split at h
  · cases h
  · rename_i hget
    obtain ⟨orders, rfl, ho, -⟩ := getOpenOrderByIdentity_eq_some hget
    cases h
    exact .missed ht ho
  · rename_i existing f₁ hget
    obtain ⟨orders, rfl, ho, hfind⟩ := getOpenOrderByIdentity_eq_some hget
    split at h
    · rename_i hm
      cases h
      exact .found ht ho (hfind existing rfl) hm
    · cases h

theorem runInsert_goes {c : Create} (ht : f.task = .insert c) (h : f.runInsert db clock others c = .goes f') :
    Moved db clock others f f' := by
  unfold Flight.runInsert at h
  split at h
  · cases h
  · rename_i hfree
    split at h
    · cases h
      exact .restarted ht
    · split at h
      · cases h
      · rename_i hnew
        cases h
        refine .inserted ht (fun g hg => ?_) hnew
        by_contra hsome
        exact hfree ⟨g, hg, Or.inl (Option.isSome_iff_ne_none.mpr hsome)⟩

theorem runTake_goes {c : Create} (ht : f.task = .take c) (h : f.runTake db others c = .goes f') :
    Moved db clock others f f' := by
  unfold Flight.runTake at h
  split at h
  · cases h
  · cases h
  · rename_i hhold
    obtain ⟨numbers, rfl, hn, hheld⟩ := holdMsisdn_eq_some hhold
    cases h
    exact .took ht hn (hheld rfl)

theorem runRefresh_goes {c : Create} {existing : String} (ht : f.task = .refresh c existing)
    (h : f.runRefresh db others c existing = .goes f') : Moved db clock others f f' := by
  unfold Flight.runRefresh at h
  split at h
  · cases h
  · rename_i hhold
    obtain ⟨numbers, rfl, hn, -⟩ := holdMsisdn_eq_some hhold
    split at h
    · cases h
    · rename_i hset
      obtain ⟨orders, rfl, ho⟩ := setOpenOrderState_eq_some hset
      cases h
      exact .refreshed ht hn ho

theorem runClose_goes {id status : String} {names : List String} (ht : f.task = .close id status names)
    (h : f.runClose db others id status names = .goes f') : Moved db clock others f f' := by
  unfold Flight.runClose at h
  split at h
  · cases h
  · rename_i hset
    obtain ⟨orders, rfl, ho⟩ := setOpenOrderState_eq_some hset
    split at h
    · cases h
    · split at h
      · cases h
      · cases h
        exact .closed ht ho

theorem runReserve_goes {m : String} (ht : f.task = .reserve m) (h : f.runReserve db clock others m = .goes f') :
    Moved db clock others f f' := by
  unfold Flight.runReserve at h
  split at h
  · rename_i hfree
    split at h
    · cases h
    · rename_i hup
      obtain ⟨-, numbers, rfl, hn⟩ := updateNumbers_eq_some hup
      cases h
      exact .reserved ht hfree.2 hn
  · cases h

theorem runReserveNext_goes {preference : Option String} (ht : f.task = .reserveNext preference)
    (h : f.runReserveNext db clock others preference = .goes f') : Moved db clock others f f' := by
  unfold Flight.runReserveNext at h
  split at h
  · cases h
  · rename_i m hpick
    split at h
    · cases h
    · rename_i hup
      obtain ⟨-, numbers, rfl, hn⟩ := updateNumbers_eq_some hup
      cases h
      exact .picked ht hpick hn

theorem runSweep_goes (ht : f.task = .sweep) (h : f.runSweep db others = .goes f') :
    Moved db clock others f f' := by
  unfold Flight.runSweep at h
  simp only at h
  split at h
  · cases h
  · split at h
    · cases h
    · rename_i hup
      obtain ⟨-, orders, rfl, ho⟩ := updateOrders_eq_some hup
      cases h
      exact .listed ht rfl ho

theorem runExpire_goes {ids : List String} (ht : f.task = .expire ids) (h : f.runExpire db others ids = .goes f') :
    Moved db clock others f f' := by
  cases ids with
  | nil =>
    cases h
    exact .swept ht
  | cons id ids =>
    simp only [Flight.runExpire] at h
    split at h
    · cases h
    · rename_i hrelease
      obtain ⟨numbers, rfl, hn⟩ := releaseHoldsFor_eq_some hrelease
      split at h
      · cases h
      · rename_i hset
        obtain ⟨orders, rfl, ho⟩ := setOpenOrderState_eq_some hset
        cases h
        exact .expired ht hn ho

theorem run_goes (h : f.run db clock others = .goes f') : Moved db clock others f f' := by
  unfold Flight.run at h
  split at h <;> rename_i ht
  · split at h
    · cases h
    · cases h
    · rename_i hhold
      obtain ⟨numbers, rfl, hn, -⟩ := holdMsisdn_eq_some hhold
      cases h
      exact .held ht hn
  · split at h
    · cases h
    · rename_i hrelease
      obtain ⟨numbers, rfl, hn⟩ := releaseHoldsFor_eq_some hrelease
      cases h
      exact .released (Or.inl ⟨ht, rfl⟩) hn
  · exact runFind_goes ht h
  · exact runRefresh_goes ht h
  · exact runInsert_goes ht h
  · exact runTake_goes ht h
  · split at h
    · cases h
    · rename_i hrelease
      obtain ⟨numbers, rfl, hn⟩ := releaseHoldsFor_eq_some hrelease
      cases h
      exact .released (Or.inr ⟨_, ht, rfl⟩) hn
  · exact runClose_goes ht h
  · split at h
    · cases h
    · rename_i hset
      obtain ⟨orders, rfl, ho⟩ := setOpenOrderState_eq_some hset
      cases h
      exact .completed ht ho
  · split at h
    · cases h
    · rename_i hset
      obtain ⟨orders, rfl, ho⟩ := setOpenOrderState_eq_some hset
      cases h
      refine .noted (Or.inl ⟨_, ht⟩) ?_ ho
      exact fun _ => ⟨rfl, rfl, rfl⟩
  · split at h
    · cases h
    · rename_i hlink
      obtain ⟨orders, rfl, ho⟩ := linkOpenOrderCustomer_eq_some hlink
      cases h
      refine .noted (Or.inr ⟨_, ht⟩) ?_ ho
      exact fun _ => ⟨rfl, rfl, rfl⟩
  · exact runReserve_goes ht h
  · exact runReserveNext_goes ht h
  · exact runSweep_goes ht h
  · exact runExpire_goes ht h
  · cases h
  · cases h

end Inversion

/-- What a step can do. A call that ends without a commit leaves nothing. -/
inductive Stepped (w : World) : Label → World → Prop
  | ticked (d : ℕ) : Stepped w (.tick d) { w with clock := w.clock + d }
  | began (c : Call) : Stepped w (.begin c) { w with flights := w.flights ++ [c.start w.clock] }
  | moved {i : ℕ} {f f' : Flight} (hf : w.flights[i]? = some f)
      (hm : Moved w.db w.clock (w.flights.eraseIdx i) f f') :
      Stepped w (.run i) { w with flights := w.flights.set i f' }
  | ended {l : Label} {i : ℕ} (hl : l = .run i ∨ l = .reply i ∨ l = .abort i) :
      Stepped w l { w with flights := w.flights.eraseIdx i }
  | committed {i : ℕ} {f : Flight} (hf : w.flights[i]? = some f) (ht : f.task = .done none) :
      Stepped w (.commit i) { w with db := w.db.commit f, flights := w.flights.eraseIdx i }
  | answered {i : ℕ} {f : Flight} {id : String} {resumed : Bool} (hf : w.flights[i]? = some f)
      (ht : f.task = .done (some (id, resumed))) :
      Stepped w (.commit i) { w with
        db := w.db.commit f, flights := w.flights.set i (.begin (.replying id resumed) f.now f.flows) }

theorem step_eq_some {w w' : World} {l : Label} (h : w.step l = some w') : Stepped w l w' := by
  cases l with
  | tick d =>
    cases h
    exact .ticked d
  | begin c =>
    cases h
    exact .began c
  | run i =>
    obtain ⟨f, hf, h⟩ := Option.bind_eq_some_iff.mp h
    split at h
    · cases h
    · cases h
      exact .ended (Or.inl rfl)
    · cases h
      exact .ended (Or.inl rfl)
    · rename_i hrun
      cases h
      exact .moved hf (run_goes hrun)
  | commit i =>
    obtain ⟨f, hf, h⟩ := Option.bind_eq_some_iff.mp h
    split at h
    · rename_i ht
      cases h
      exact .committed hf ht
    · rename_i ht
      cases h
      exact .answered hf ht
    · cases h
  | reply i =>
    obtain ⟨f, hf, h⟩ := Option.bind_eq_some_iff.mp h
    split at h
    · cases h
      exact .ended (Or.inr (Or.inl rfl))
    · cases h
  | abort i =>
    obtain ⟨f, hf, h⟩ := Option.map_eq_some_iff.mp h
    cases h
    exact .ended (Or.inr (Or.inr rfl))

/-! ## No row is written by two calls -/

structure Locks (flights : List Flight) : Prop where
  numbers : Exclusive Flight.numbers flights
  orders : Exclusive Flight.orders flights

section Locks

variable {w w' : World} {l : Label} {i : ℕ} {f f' : Flight} {flights : List Flight} {db : Db} {clock : Time}

theorem Locks.erase (h : Locks flights) (i : ℕ) : Locks (flights.eraseIdx i) :=
  ⟨h.numbers.erase i, h.orders.erase i⟩

theorem Locks.moved (h : Locks flights) (hf : flights[i]? = some f)
    (hm : Moved db clock (flights.eraseIdx i) f f') : Locks (flights.set i f') := by
  have hnumbers : f'.numbers = f.numbers → Exclusive Flight.numbers (flights.set i f') := by
    intro heq
    apply h.numbers.set hf
    rw [heq]
    exact fun _ hk => Or.inl hk
  have horders : f'.orders = f.orders → Exclusive Flight.orders (flights.set i f') := by
    intro heq
    apply h.orders.set hf
    rw [heq]
    exact fun _ hk => Or.inl hk
  cases hm with
  | held ht hn => exact ⟨h.numbers.wrote hf hn, horders rfl⟩
  | released ht hn => exact ⟨h.numbers.wrote hf hn, horders rfl⟩
  | found ht ho hfind hm => exact ⟨hnumbers rfl, h.orders.wrote hf ho⟩
  | missed ht ho => exact ⟨hnumbers rfl, h.orders.wrote hf ho⟩
  | refreshed ht hn ho => exact ⟨h.numbers.wrote hf hn, h.orders.wrote hf ho⟩
  | restarted ht => exact ⟨h.numbers.set hf fun _ hk => absurd rfl hk, h.orders.set hf fun _ hk => absurd rfl hk⟩
  | @inserted c ht hfree hnew =>
    refine ⟨hnumbers rfl, h.orders.set hf fun k hk => ?_⟩
    simp only [Table.find_put string_injective] at hk
    split at hk
    · rename_i hid
      exact Or.inr (hid ▸ hfree)
    · exact Or.inl hk
  | took ht hn hheld => exact ⟨h.numbers.wrote hf hn, horders rfl⟩
  | closed ht ho => exact ⟨hnumbers rfl, h.orders.wrote hf ho⟩
  | completed ht ho => exact ⟨hnumbers rfl, h.orders.wrote hf ho⟩
  | noted ht hw ho => exact ⟨hnumbers rfl, h.orders.wrote hf ho⟩
  | reserved ht hfree hn => exact ⟨h.numbers.wrote hf hn, horders rfl⟩
  | picked ht hpick hn => exact ⟨h.numbers.wrote hf hn, horders rfl⟩
  | listed ht hids ho => exact ⟨hnumbers rfl, h.orders.wrote hf ho⟩
  | expired ht hn ho => exact ⟨h.numbers.wrote hf hn, h.orders.wrote hf ho⟩
  | swept ht => exact ⟨hnumbers rfl, horders rfl⟩

theorem Call.start_find (c : Call) (now : Time) :
    (∀ k, (c.start now).numbers.find k = none) ∧ ∀ k, (c.start now).orders.find k = none := by
  cases c <;> exact ⟨fun _ => rfl, fun _ => rfl⟩

theorem Locks.step (h : Locks w.flights) (hs : Stepped w l w') : Locks w'.flights := by
  cases hs with
  | ticked d => exact h
  | began c =>
    obtain ⟨hn, ho⟩ := c.start_find w.clock
    exact ⟨h.numbers.concat hn, h.orders.concat ho⟩
  | moved hf hm => exact h.moved hf hm
  | ended hl => exact h.erase _
  | committed hf ht => exact h.erase _
  | answered hf ht =>
    exact ⟨h.numbers.set hf fun _ hk => absurd rfl hk, h.orders.set hf fun _ hk => absurd rfl hk⟩

end Locks

end BssCli.Crm.OpenOrder
