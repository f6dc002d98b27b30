import BssCli.Crm.OpenOrder

/-!
# Open orders of several tenants

`create_or_resume_open_order` with nobody else writing. The lookup asks for the caller's tenant. The partial unique index,
which is the conflict target of the insert, does not.
-/

namespace BssCli.Crm.TenantOrders

open OpenOrder

/-! ## Rows of every tenant -/

structure TenantOrder where
  tenantId : String
  order : OpenOrderRow
  deriving DecidableEq

structure TenantNumber where
  tenantId : String
  number : MsisdnRow
  deriving DecidableEq

abbrev OrderTable := Table (fun o : TenantOrder => o.order.id) (fun i : String => i)

abbrev NumberTable := Table (fun n : TenantNumber => n.number.msisdn) (fun m : String => m)

def TenantOrder.OpenFor (identity : String) (o : TenantOrder) : Prop :=
  o.order.ownerIdentity = identity ∧ o.order.status = "open"

instance (identity : String) : DecidablePred (TenantOrder.OpenFor identity) :=
  fun _ => inferInstanceAs (Decidable (_ ∧ _))

def TenantNumber.softHold (reservedFor : String) (reservedUntil now : Time) (n : TenantNumber) : TenantNumber :=
  { n with number := n.number.softHold reservedFor reservedUntil now }

def TenantOrder.setState (step status : Option String) (reservedUntil : Option Time) (o : TenantOrder) : TenantOrder :=
  { o with order := o.order.setState step status reservedUntil }

theorem TenantNumber.softHold_msisdn (reservedFor : String) (reservedUntil now : Time) (n : TenantNumber) :
    (n.softHold reservedFor reservedUntil now).number.msisdn = n.number.msisdn := rfl

theorem TenantOrder.setState_id (step status : Option String) (reservedUntil : Option Time) (o : TenantOrder) :
    (o.setState step status reservedUntil).order.id = o.order.id := rfl

/-- The order table with its partial unique index. -/
structure Orders where
  table : OrderTable
  uqOwnerOpen : ∀ o ∈ table.rows, ∀ o' ∈ table.rows, ∀ identity, o.OpenFor identity → o'.OpenFor identity → o = o'

structure Db where
  numbers : NumberTable
  orders : OrderTable
  events : List Event

/-- What a call is asked for, and by whom. -/
structure Request where
  tenant : String
  identity : String
  planCode : String
  msisdn : String
  ttl : ℤ

/-- A call takes a new id and reads the clock. -/
structure Attempt where
  id : String
  now : Time

def Attempt.holdUntil (a : Attempt) (ttl : ℤ) : Time := a.now + ttl * 1000000

/-! ## Statements -/

namespace Db

variable (db : Db)

def getOpenOrderByIdentity (identity tenant : String) : Option TenantOrder :=
  db.orders.rows.find? fun o => o.OpenFor identity ∧ o.tenantId = tenant

/-- `true` when the hold was taken. -/
def holdMsisdn (msisdn reservedFor : String) (reservedUntil now : Time) (tenant : String) : Bool × Db :=
  if ∃ n ∈ db.numbers.find msisdn, n.tenantId = tenant ∧ n.number.Holdable reservedFor now then
    (true, { db with
      numbers := db.numbers.update msisdn (·.softHold reservedFor reservedUntil now)
        (TenantNumber.softHold_msisdn reservedFor reservedUntil now) })
  else (false, db)

def setOpenOrderState (id : String) (step status : Option String) (reservedUntil : Option Time) : Db :=
  { db with
    orders := db.orders.update id (·.setState step status reservedUntil)
      (TenantOrder.setState_id step status reservedUntil) }

inductive Inserted
  | row (db : Db)
  /-- `ON CONFLICT (owner_identity) WHERE status='open' DO NOTHING` -/
  | conflict
  | fails (e : ApiError)

def insertOpenOrder (o : TenantOrder) : Inserted :=
  if ∃ r ∈ db.orders.rows, r.OpenFor o.order.ownerIdentity then .conflict
  else match db.orders.insert o with
    | some orders => .row { db with orders }
    | none => .fails (dbError "duplicate key value violates unique constraint \"open_order_pkey\"")

end Db

/-! ## One call -/

/-- A call returns with its reply, or it calls itself. -/
inductive Outcome
  | returns (db : Db) (reply : Except ApiError Object)
  | again

def reply (db : Db) (id : String) (resumed : Bool) : Except ApiError Object :=
  match db.orders.find id with
  | some o => .ok (openOrderJson o.order ++ [("resumed", .bool resumed)])
  | none => .error (.internal "open_order vanished")

def newOrder (req : Request) (a : Attempt) : TenantOrder :=
  ⟨req.tenant, ⟨a.id, req.identity, none, req.planCode, some req.msisdn, none, "pending_customer", "open",
    some (a.holdUntil req.ttl)⟩⟩

/-- The owner has an open order. Whether its hold is taken again is not looked at. -/
def resume (req : Request) (a : Attempt) (existing : OpenOrderRow) (db : Db) : Outcome :=
  if existing.msisdn ≠ some req.msisdn then .returns db (.error (alreadyOpen existing))
  else
    let db := (db.holdMsisdn req.msisdn existing.id (a.holdUntil req.ttl) a.now req.tenant).2
    let db := db.setOpenOrderState existing.id none none (some (a.holdUntil req.ttl))
    .returns db (reply db existing.id true)

/-- What is refused behind the insert takes the insert back. -/
def openNew (req : Request) (a : Attempt) (db : Db) : Outcome :=
  match db.insertOpenOrder (newOrder req a) with
  | .conflict => .again
  | .fails e => .returns db (.error e)
  | .row inserted =>
    match inserted.holdMsisdn req.msisdn a.id (a.holdUntil req.ttl) a.now req.tenant with
    | (false, _) => .returns db (.error (justTaken req.msisdn))
    | (true, held) =>
      let held := { held with events := held.events ++ [openedEvent a.id req.identity req.msisdn req.planCode] }
      .returns held (reply held a.id false)

def attempt (req : Request) (a : Attempt) (db : Db) : Outcome :=
  match db.getOpenOrderByIdentity req.identity req.tenant with
  | some existing => resume req a existing.order db
  | none => openNew req a db

/-- The call and those that it makes of itself, as many as there are attempts. `none` when the last one is not the end. -/
def createOrResumeOpenOrder (req : Request) (db : Db) : List Attempt → Option (Db × Except ApiError Object)
  | [] => none
  | a :: attempts =>
    match attempt req a db with
    | .returns db reply => some (db, reply)
    | .again => createOrResumeOpenOrder req db attempts

/-! ## When it returns -/

/-- Another tenant has an open order of the same identity. -/
def OpenElsewhere (req : Request) (db : Db) : Prop :=
  ∃ o ∈ db.orders.rows, o.OpenFor req.identity ∧ o.tenantId ≠ req.tenant

instance (req : Request) (db : Db) : Decidable (OpenElsewhere req db) := inferInstanceAs (Decidable (∃ o ∈ _, _))

section

variable {req : Request} {db : Db}

theorem getOpenOrder_some {identity tenant : String} {o : TenantOrder}
    (h : db.getOpenOrderByIdentity identity tenant = some o) :
    o ∈ db.orders.rows ∧ o.OpenFor identity ∧ o.tenantId = tenant := by
  unfold Db.getOpenOrderByIdentity at h
  exact ⟨List.mem_of_find?_eq_some h, by simpa using List.find?_some h⟩

theorem getOpenOrder_eq_none_iff {identity tenant : String} :
    db.getOpenOrderByIdentity identity tenant = none ↔
      ∀ o ∈ db.orders.rows, o.OpenFor identity → o.tenantId ≠ tenant := by
  simp [Db.getOpenOrderByIdentity, List.find?_eq_none]

theorem resume_returns (req : Request) (a : Attempt) (existing : OpenOrderRow) (db : Db) :
    resume req a existing db ≠ .again := by
  unfold resume
  split
  · exact Outcome.noConfusion
  · exact Outcome.noConfusion

theorem openNew_again_iff {a : Attempt} :
    openNew req a db = .again ↔ ∃ o ∈ db.orders.rows, o.OpenFor req.identity := by
  unfold openNew Db.insertOpenOrder
  by_cases h : ∃ o ∈ db.orders.rows, o.OpenFor (newOrder req a).order.ownerIdentity
  · rw [if_pos h]
    exact iff_of_true rfl h
  · rw [if_neg h]
    refine iff_of_false ?_ h
    cases db.orders.insert (newOrder req a) with
    | none => exact Outcome.noConfusion
    | some orders =>
      dsimp only
      split
      · exact Outcome.noConfusion
      · exact Outcome.noConfusion

/-- The index has room for one open order of an identity, so an order elsewhere is the one. -/
theorem attempt_again_iff
    (huq : ∀ o ∈ db.orders.rows, ∀ o' ∈ db.orders.rows, ∀ identity, o.OpenFor identity → o'.OpenFor identity → o = o')
    {a : Attempt} : attempt req a db = .again ↔ OpenElsewhere req db := by
  unfold attempt
  cases hfind : db.getOpenOrderByIdentity req.identity req.tenant with
  | some existing =>
    refine iff_of_false (resume_returns req a existing.order db) ?_
    rintro ⟨o, ho, hopen, htenant⟩
    obtain ⟨hmem, hexisting, heq⟩ := getOpenOrder_some hfind
    rw [huq o ho existing hmem req.identity hopen hexisting] at htenant
    exact htenant heq
  | none =>
    rw [getOpenOrder_eq_none_iff] at hfind
    dsimp only
    rw [openNew_again_iff]
    constructor
    · rintro ⟨o, ho, hopen⟩
      exact ⟨o, ho, hopen, hfind o ho hopen⟩
    · rintro ⟨o, ho, hopen, -⟩
      exact ⟨o, ho, hopen⟩

theorem never_returns (h : ∀ a, attempt req a db = .again) (attempts : List Attempt) :
    createOrResumeOpenOrder req db attempts = none := by
  induction attempts with
  | nil => rfl
  | cons a attempts ih =>
    unfold createOrResumeOpenOrder
    rw [h a]
    exact ih

end

/-- A call that may call itself once. Where it does not return then, it never does. -/
theorem createOrResume_returns_iff (numbers : NumberTable) (orders : Orders) (events : List Event) (req : Request) :
    ((∀ first second, (createOrResumeOpenOrder req ⟨numbers, orders.table, events⟩ [first, second]).isSome) ↔
      ¬ OpenElsewhere req ⟨numbers, orders.table, events⟩) ∧
    (OpenElsewhere req ⟨numbers, orders.table, events⟩ →
      ∀ attempts, createOrResumeOpenOrder req ⟨numbers, orders.table, events⟩ attempts = none) := by
  have hagain : ∀ a, attempt req a ⟨numbers, orders.table, events⟩ = .again ↔
      OpenElsewhere req ⟨numbers, orders.table, events⟩ := fun a => attempt_again_iff orders.uqOwnerOpen
  have hnever : OpenElsewhere req ⟨numbers, orders.table, events⟩ →
      ∀ attempts, createOrResumeOpenOrder req ⟨numbers, orders.table, events⟩ attempts = none :=
    fun h => never_returns fun a => (hagain a).mpr h
  refine ⟨⟨fun h helse => ?_, fun h first second => ?_⟩, hnever⟩
  · have hsome := h ⟨"", 0⟩ ⟨"", 0⟩
    rw [hnever helse] at hsome
    cases hsome
  · unfold createOrResumeOpenOrder
    cases hattempt : attempt req first ⟨numbers, orders.table, events⟩ with
    | again => exact absurd ((hagain first).mp hattempt) h
    | returns db reply => rfl

/-! ## Two tenants -/

def sampleOrder : TenantOrder :=
  ⟨"DEFAULT", ⟨"OO-1", "ada@example.com", none, "PLAN_M", some "91234567", none, "pending_customer", "open", some 900⟩⟩

def sampleOrders : Orders where
  table := .singleton sampleOrder
  uqOwnerOpen := by
    intro o ho o' ho' _ _ _
    rw [List.mem_singleton.mp ho, List.mem_singleton.mp ho']

def sampleRequest (tenant : String) : Request := ⟨tenant, "ada@example.com", "PLAN_M", "91234567", 900⟩

/-- The identity has an open order with one tenant, and asks with another one. -/
theorem other_tenant_never_returns :
    createOrResumeOpenOrder (sampleRequest "staging") ⟨.empty, sampleOrders.table, []⟩ [⟨"OO-2", 0⟩, ⟨"OO-3", 0⟩] = none ∧
      (createOrResumeOpenOrder (sampleRequest "DEFAULT") ⟨.empty, sampleOrders.table, []⟩ [⟨"OO-2", 0⟩]).isSome := by
  decide +kernel

end BssCli.Crm.TenantOrders
