import BssCli.Lib.Table
import BssCli.Mediation.Domain
import BssCli.Subscription.Fleet

/-!
# Whose usage it is

Mediation knows a line by its number. The number of a terminated line is given out again,
and both rows stay in the table. The unique index is about the rows that are not terminated.
-/

namespace BssCli.Usage.Attribution

open Heap Mediation Steps Subscription

def Live (db : SubDb) : Prop := db.sub.state ≠ .terminated

instance : DecidablePred Live := fun db => inferInstanceAs (Decidable (db.sub.state ≠ .terminated))

/-- `uq_subscription_msisdn`, `uq_subscription_iccid` and `uq_subscription_commercial_order`. -/
structure Indexed (lines : Lines) : Prop where
  msisdn : UniqueIndex (fun db : SubDb => db.sub.msisdn) Live lines.rows
  iccid : UniqueIndex (fun db : SubDb => db.sub.iccid) Live lines.rows
  commercialOrder : UniqueIndex (fun db : SubDb => db.sub.commercialOrderId)
    (fun db => db.sub.commercialOrderId.isSome) lines.rows

instance (lines : Lines) : Decidable (Indexed lines) :=
  decidable_of_iff
    (UniqueIndex (fun db : SubDb => db.sub.msisdn) Live lines.rows ∧
      UniqueIndex (fun db : SubDb => db.sub.iccid) Live lines.rows ∧
      UniqueIndex (fun db : SubDb => db.sub.commercialOrderId)
        (fun db => db.sub.commercialOrderId.isSome) lines.rows)
    ⟨fun h => ⟨h.1, h.2.1, h.2.2⟩, fun h => ⟨h.msisdn, h.iccid, h.commercialOrder⟩⟩

structure Registry where
  lines : Lines
  indexed : Indexed lines

namespace Registry

def empty : Registry := ⟨Table.empty, by decide⟩

/-- A statement goes through when every index takes its rows. -/
def store (lines : Lines) : Option Registry := if h : Indexed lines then some ⟨lines, h⟩ else none

inductive Label
  | create (req : SubscriptionCreateRequest) (p : CreatePlan) (pay : PaymentResult) (subId : String)
      (now : Time)
  | commit (id : String) (f : Flight)

/-- A new line, or the commit of any call on a line, whatever that call has read. -/
def step (w : Registry) : Label → Option Registry
  | .create req p pay subId now => (createCommit req p pay subId now).toOption.bind fun db =>
    (w.lines.insert db).bind store
  | .commit id f => store (w.lines.update id f.settle f.settle_id)

end Registry

/-! ## The lookup -/

/-- `WHERE msisdn = $1 LIMIT 1`, over the rows as they lie. -/
def getByMsisdn (heap : List SubDb) (msisdn : String) : Option SubDb :=
  heap.find? fun db => db.sub.msisdn = msisdn

def lineDoc (db : SubDb) : LineDoc :=
  ⟨some db.sub.id, some db.sub.msisdn, some db.sub.state.name, some db.sub.offeringId⟩

def reply (heap : List SubDb) (msisdn : String) : Except ClientError LineDoc :=
  match getByMsisdn heap msisdn with
  | some db => .ok (lineDoc db)
  | none => .error (.notFound s!"No subscription for MSISDN {msisdn}")

theorem getByMsisdn_some {heap : List SubDb} {msisdn : String} {db : SubDb}
    (h : getByMsisdn heap msisdn = some db) : db ∈ heap ∧ db.sub.msisdn = msisdn :=
  ⟨List.mem_of_find?_eq_some h, by simpa using List.find?_some h⟩

theorem getByMsisdn_isSome {heap : List SubDb} {msisdn : String} :
    (getByMsisdn heap msisdn).isSome ↔ ∃ db ∈ heap, db.sub.msisdn = msisdn := by
  simp [getByMsisdn]

theorem name_active {s : SubState} : s.name = "active" ↔ s = .active := by cases s <;> decide

theorem ingest_reply {heap : List SubDb} {req : IngestRequest} (hquantity : 0 < req.quantity.val)
    (hty : req.eventType ∈ validEventTypes) (id : String) :
    (∃ p, ingest req (reply heap req.msisdn) id = .ok p) ↔
      ∃ db, getByMsisdn heap req.msisdn = some db ∧ db.sub.state = .active := by
  constructor
  · rintro ⟨p, hp⟩
    obtain ⟨-, -, sub, hreply, hstate, -⟩ := ingest_eq_ok hp
    unfold reply at hreply
    split at hreply
    · rename_i db hdb
      cases hreply
      exact ⟨db, hdb, name_active.mp (Option.some.inj hstate)⟩
    · simp at hreply
  · rintro ⟨db, hdb, hstate⟩
    refine ⟨usageRecordedPayload req (lineDoc db) id, ?_⟩
    have h₁ : checkPositiveQuantity req.quantity = .ok () := check_eq_ok.mpr hquantity
    have h₂ : checkValidEventType req.eventType = .ok () := check_eq_ok.mpr hty
    have h₃ : checkMsisdnMatches (lineDoc db) req.msisdn = .ok () :=
      check_eq_ok.mpr (congrArg some (getByMsisdn_some hdb).2)
    have h₄ : checkSubscriptionActive (lineDoc db) = .ok () :=
      check_eq_ok.mpr (congrArg some (name_active.mpr hstate))
    unfold ingest reply
    simp only [h₁, h₂, hdb, h₃, h₄, bind, Except.bind]
    rfl

theorem ingest_about {heap : List SubDb} {req : IngestRequest} {id : String} {p : RecordedPayload}
    (h : ingest req (reply heap req.msisdn) id = .ok p) :
    ∃ db, getByMsisdn heap req.msisdn = some db ∧ p.subscriptionId = some db.sub.id := by
  obtain ⟨-, -, sub, hreply, -, rfl⟩ := ingest_eq_ok h
  unfold reply at hreply
  split at hreply
  · rename_i db hdb
    cases hreply
    exact ⟨db, hdb, rfl⟩
  · simp at hreply

variable {w : Registry} {db : SubDb}

/-- A row is live or terminated, and a number has one live row at most. -/
theorem same_number (hdb : db ∈ w.lines.rows) (hlive : Live db) {other : SubDb}
    (hother : other ∈ w.lines.rows) (hnumber : other.sub.msisdn = db.sub.msisdn) :
    other = db ∨ other.sub.state = .terminated := by
  by_cases h : Live other
  · exact Or.inl (w.indexed.msisdn.eq hother hdb h hlive hnumber)
  · exact Or.inr (not_not.mp h)

/-- **Which line a number finds.** For every table that its indexes take, and so after every
history, and in every physical order of its rows, the lookup gives a row with the number
whenever there is one. It gives the row that is not terminated exactly when no terminated row
with the number lies before it, and in every order exactly when there is no such row. Usage is
let in for the row that was found exactly when it is active. -/
theorem usage_attributed (w : Registry) (heap : List SubDb) (hheap : heap.Perm w.lines.rows)
    (msisdn : String) :
    ((∀ db, getByMsisdn heap msisdn = some db → db ∈ w.lines.rows ∧ db.sub.msisdn = msisdn) ∧
      ((getByMsisdn heap msisdn).isSome ↔ ∃ db ∈ w.lines.rows, db.sub.msisdn = msisdn)) ∧
    (∀ db ∈ w.lines.rows, Live db → db.sub.msisdn = msisdn →
      (∀ before after, heap = before ++ db :: after → (getByMsisdn heap msisdn = some db ↔
        ∀ other ∈ before, other.sub.state = .terminated → other.sub.msisdn ≠ msisdn)) ∧
      ((∀ heap, heap.Perm w.lines.rows → getByMsisdn heap msisdn = some db) ↔
        ∀ other ∈ w.lines.rows, other.sub.msisdn = msisdn → other.sub.state ≠ .terminated)) ∧
    ∀ req id, req.msisdn = msisdn → 0 < req.quantity.val → req.eventType ∈ validEventTypes →
      ((∃ p, ingest req (reply heap msisdn) id = .ok p) ↔
        ∃ db, getByMsisdn heap msisdn = some db ∧ db.sub.state = .active) ∧
      ∀ p, ingest req (reply heap msisdn) id = .ok p →
        ∃ db, getByMsisdn heap msisdn = some db ∧ p.subscriptionId = some db.sub.id := by
  refine ⟨⟨fun db hdb => ?_, ?_⟩, fun db hdb hlive hnumber => ⟨?_, ?_⟩, ?_⟩
  · obtain ⟨hmem, hnumber⟩ := getByMsisdn_some hdb
    exact ⟨hheap.subset hmem, hnumber⟩
  · rw [getByMsisdn_isSome]
    simp only [hheap.mem_iff]
  · rintro before after rfl
    have hnodup := (w.lines.key_nodup.of_map).perm hheap.symm
    have honly : ∀ s ∈ before, s ≠ db := by
      rintro s hs rfl
      exact (List.nodup_append.mp hnodup).2.2 s hs s (List.mem_cons_self ..) rfl
    rw [getByMsisdn, find_of_split (by simpa using hnumber) fun s hs _ => honly s hs]
    constructor
    · intro hread s hs _ hs'
      simpa [hs'] using hread s hs
    · intro hread s hs
      simp only [decide_eq_false_iff_not]
      intro hs'
      rcases same_number hdb hlive (hheap.subset (List.mem_append_left _ hs)) (hs'.trans hnumber.symm)
        with rfl | hterm
      · exact honly s hs rfl
      · exact hread s hs hterm hs'
  · have hevery := find_in_every_order (p := fun db : SubDb => decide (db.sub.msisdn = msisdn)) hdb
      (by simpa using hnumber)
    unfold getByMsisdn
    rw [hevery]
    constructor
    · intro honly other hother hnumber' hterm
      obtain rfl := honly other hother (by simpa using hnumber')
      exact hlive hterm
    · intro hnone other hother hnumber'
      have hnumber' : other.sub.msisdn = msisdn := by simpa using hnumber'
      exact (same_number hdb hlive hother (hnumber'.trans hnumber.symm)).resolve_right
        (hnone other hother hnumber')
  · rintro req id rfl hquantity hty
    exact ⟨ingest_reply hquantity hty id, fun p => ingest_about⟩

def plainPlan : CreatePlan := ⟨⟨25, "SGD", "PRICE-1"⟩, none, none, none, none, none, samplePlan, 25⟩

/-- The line is terminated, and its number goes to the next customer. -/
def recycled : List Registry.Label :=
  [.create sampleRequest plainPlan approved "SUB-0001" 0,
   .commit "SUB-0001" ⟨sampleRow .active, .terminating ⟨"customer_requested", 1⟩⟩,
   .create { sampleRequest with customerId := "CUST-2", iccid := "8966" } plainPlan approved "SUB-0002" 2]

theorem ten_fits : FitsI64 10 := by decide

def tenMb : IngestRequest := ⟨"90000042", "data", ⟨10, ten_fits⟩, "mb", false⟩

def reused : Registry := (exec Registry.step Registry.empty recycled).get (by decide +kernel)

theorem reused_found :
    (getByMsisdn reused.lines.rows "90000042").map (fun db => (db.sub.id, db.sub.state)) =
        some ("SUB-0001", .terminated) ∧
      (getByMsisdn reused.lines.rows.reverse "90000042").map (fun db => (db.sub.id, db.sub.state)) =
        some ("SUB-0002", .active) := by
  decide +kernel

/-- With the rows the other way round the new line is found. -/
theorem usage_attributed_recycled :
    ∃ p, ingest tenMb (reply reused.lines.rows.reverse "90000042") "UE-1" = .ok p := by
  obtain ⟨db, hdb, hfound⟩ := Option.map_eq_some_iff.mp reused_found.2
  obtain ⟨-, hactive⟩ := Prod.mk.inj hfound
  exact ((usage_attributed reused _ reused.lines.rows.reverse_perm "90000042").2.2 tenMb "UE-1" rfl
    (by decide) (by decide)).1.mpr ⟨db, hdb, hactive⟩

/-- As they were inserted, the number finds the terminated line, and the usage is refused. -/
theorem recycled_number_refused :
    exec Registry.step Registry.empty recycled = some reused ∧
      (∃ db ∈ reused.lines.rows, db.sub.msisdn = "90000042" ∧ db.sub.state = .active) ∧
      (getByMsisdn reused.lines.rows "90000042").map (·.sub.id) = some "SUB-0001" ∧
      ∀ p, ingest tenMb (reply reused.lines.rows "90000042") "UE-1" ≠ .ok p := by
  obtain ⟨hfound, hnew⟩ := reused_found
  obtain ⟨new, hget, hnew⟩ := Option.map_eq_some_iff.mp hnew
  obtain ⟨old, hold, hterm⟩ := Option.map_eq_some_iff.mp hfound
  obtain ⟨hid, hterm⟩ := Prod.mk.inj hterm
  obtain ⟨hmem, hnumber⟩ := getByMsisdn_some hget
  refine ⟨(Option.some_get _).symm, ⟨new, List.mem_reverse.mp hmem, hnumber, (Prod.mk.inj hnew).2⟩,
    by rw [hold, Option.map_some, hid], fun p hp => ?_⟩
  have hquantity : 0 < tenMb.quantity.val := by decide
  have hty : tenMb.eventType ∈ validEventTypes := by decide
  obtain ⟨db, hdb, hstate⟩ := (ingest_reply hquantity hty "UE-1").mp ⟨p, hp⟩
  rw [show tenMb.msisdn = "90000042" from rfl, hold, Option.some.injEq] at hdb
  rw [← hdb, hterm] at hstate
  cases hstate

end BssCli.Usage.Attribution
