import BssCli.Catalog.Creation
import BssCli.Lib.Window
import Mathlib.Data.Prod.Lex
import Mathlib.Data.String.Basic

/-!
# Offerings and their prices

The rows, with `valid_from` and `valid_to` as one window, the reads that depend on the moment,
and the admin verbs that move the windows. The reads answer over HTTP.
-/

namespace BssCli.Catalog.Offerings

open Money
open Promo (I16 checkAdmin)
open Subscription (numeric12 zeroI64)

/-- The order of texts in the database. -/
structure Collation where
  Key : Type
  order : LinearOrder Key
  key : String → Key
  inj : Function.Injective key

attribute [instance] Collation.order

def Collation.binary : Collation := ⟨String, inferInstance, id, Function.injective_id⟩

structure OfferingRow where
  id : String
  name : Option String
  isBundle : Bool
  isSellable : Option Bool
  lifecycleStatus : Option String
  window : Window Time
  specId : Option String

structure PriceRow where
  id : String
  offeringId : String
  priceType : String
  recurringPeriodLength : Option I16
  recurringPeriodType : Option String
  amount : Decimal
  currency : String
  window : Window Time
  deriving DecidableEq

structure CatalogDb where
  offerings : Table OfferingRow.id fun id : String => id
  prices : Table PriceRow.id fun id : String => id
  priced : ∀ p ∈ prices.rows, p.offeringId ∈ offerings.rows.map OfferingRow.id

/-! ## Reads -/

/-- `is_sellable`, the lifecycle and the window. -/
def OfferingRow.SellableAt (o : OfferingRow) (moment : Time) : Prop :=
  o.isSellable = some true ∧ o.lifecycleStatus = some "active" ∧ o.window.Holds moment

instance (o : OfferingRow) (moment : Time) : Decidable (o.SellableAt moment) :=
  inferInstanceAs (Decidable (_ ∧ _ ∧ _))

section

variable (co : Collation) (c : CatalogDb)

/-- `ORDER BY amount ASC, id ASC` -/
def priceKey (p : PriceRow) : Decimal ×ₗ co.Key := toLex (p.amount, co.key p.id)

def recurring (prices : List PriceRow) (offeringId : String) : List PriceRow :=
  prices.filter fun p => p.offeringId = offeringId ∧ p.priceType = "recurring"

def activePrice (offeringId : String) (moment : Time) : Option PriceRow :=
  Window.current (priceKey co) PriceRow.window (recurring c.prices.rows offeringId) moment

/-- The key that the page is sorted by once it is read. -/
def sortKey (moment : Time) (o : OfferingRow) : ℕ ×ₗ Decimal ×ₗ String :=
  match activePrice co c o.id moment with
  | some p => toLex (0, toLex (p.amount, o.id))
  | none => toLex (1, toLex (0, o.id))

def sellable (moment : Time) : List OfferingRow := c.offerings.rows.filter fun o => o.SellableAt moment

def listActiveOfferings (moment : Time) (limit offset : I64) : Except ApiError (List OfferingRow) :=
  if limit.val < 0 then .error (dbError "LIMIT must not be negative")
  else if offset.val < 0 then .error (dbError "OFFSET must not be negative")
  else .ok (Page.ordered (sortKey co c moment)
    (Page.page (fun o => co.key o.id) limit.val.toNat offset.val.toNat (sellable c moment)))

/-! ## Replies -/

def def20 : I64 := ⟨20, by decide⟩

/-- `GET productOffering?activeAt=`, with the defaults of the route for the page. -/
def getActiveOfferings (moment : Time) : Except ClientError (List String) :=
  match listActiveOfferings co c moment def20 zeroI64 with
  | .ok rows => .ok (rows.map OfferingRow.id)
  | .error _ => .error (.server 500 "internal error")

/-- `GET productOffering/{id}` -/
def getOffering (offeringId : String) : Except ClientError OfferingRow :=
  match c.offerings.find offeringId with
  | some o => .ok o
  | none => .error (.notFound s!"ProductOffering {offeringId} not found")

/-- `GET productOfferingPrice/active/{id}`, with the text that `iso` gives the moment. -/
def getActivePrice (iso : Time → String) (offeringId : String) (moment : Time) : Except ClientError PriceRow :=
  match activePrice co c offeringId moment with
  | some p => .ok p
  | none => .error (.policy
    { rule := "catalog.price.no_active_row"
      message := s!"No active recurring price for offering {offeringId} at {iso moment}"
      context := [("offering_id", .str offeringId), ("at", .str (iso moment))] })

end

/-! ## Admin verbs -/

def offeringNotFound (offeringId : String) : ApiError :=
  .policy
    { rule := "catalog.offering.not_found"
      message := s!"Offering {offeringId} not found"
      context := [("offering_id", .str offeringId)] }

/-- `UPDATE catalog.product_offering … WHERE id = $1` -/
def CatalogDb.updateOffering (c : CatalogDb) (offeringId : String) (f : OfferingRow → OfferingRow)
    (hf : ∀ o, (f o).id = o.id) : CatalogDb where
  offerings := c.offerings.update offeringId f hf
  prices := c.prices
  priced := by
    intro p hp
    rw [Table.keys_update]
    exact c.priced p hp

theorem updateOffering_offerings (c : CatalogDb) (offeringId : String) (f : OfferingRow → OfferingRow)
    (hf : ∀ o, (f o).id = o.id) :
    (c.updateOffering offeringId f hf).offerings = c.offerings.update offeringId f hf := rfl

def setOfferingWindow (actor offeringId : String) (window : Window Time) (now : Time) (c : CatalogDb) :
    Except ApiError CatalogDb := do
  checkAdmin actor
  if (c.offerings.find offeringId).isNone then .error (offeringNotFound offeringId)
  -- A window that has ended already retires the offering.
  else if ∃ stop ∈ window.stop, stop ≤ now then
    .ok (c.updateOffering offeringId
      (fun o => { o with window, lifecycleStatus := some "retired", isSellable := some false }) fun _ => rfl)
  else .ok (c.updateOffering offeringId (fun o => { o with window }) fun _ => rfl)

/-- The window stops now, when it has not stopped before. -/
def OfferingRow.retire (now : Time) (o : OfferingRow) : OfferingRow :=
  { o with
    lifecycleStatus := some "retired"
    isSellable := some false
    window := { o.window with
      stop := if ∀ stop ∈ o.window.stop, now < stop then some now else o.window.stop } }

theorem retire_id (now : Time) (o : OfferingRow) : (o.retire now).id = o.id := rfl

def retireOffering (actor offeringId : String) (now : Time) (c : CatalogDb) : Except ApiError CatalogDb := do
  checkAdmin actor
  match c.offerings.find offeringId with
  | none => throw (offeringNotFound offeringId)
  | some existing =>
    if existing.lifecycleStatus = some "retired" then .error (.policy
      { rule := "catalog.offering.already_retired"
        message := s!"Offering {offeringId} is already retired"
        context := [("offering_id", .str offeringId)] })
    else .ok (c.updateOffering offeringId (OfferingRow.retire now) (retire_id now))

/-! ## What a moment shows -/

/-- The offering is there, and sellable but for its price. -/
def Listed (c : CatalogDb) (offeringId : String) (moment : Time) : Prop :=
  ∃ o ∈ c.offerings.find offeringId, o.SellableAt moment

instance (c : CatalogDb) (offeringId : String) (moment : Time) : Decidable (Listed c offeringId moment) :=
  inferInstanceAs (Decidable (∃ o ∈ _, _))

/-- How many of the listed offerings have an id before this one. -/
def earlier (co : Collation) (c : CatalogDb) (offeringId : String) (moment : Time) : ℕ :=
  (sellable c moment).countP fun o => co.key o.id < co.key offeringId

section

variable {co : Collation} {c c' : CatalogDb} {offeringId : String} {moment : Time}

theorem mem_recurring {prices : List PriceRow} {p : PriceRow} :
    p ∈ recurring prices offeringId ↔ p ∈ prices ∧ p.offeringId = offeringId ∧ p.priceType = "recurring" := by
  rw [recurring, List.mem_filter, decide_eq_true_eq]

theorem exists_of_activePrice {p : PriceRow} (h : activePrice co c offeringId moment = some p) :
    ∃ o, c.offerings.find offeringId = some o := by
  obtain ⟨hmem, -⟩ := Page.first_least h
  obtain ⟨hp, rfl, -⟩ := mem_recurring.mp (Window.mem_held.mp hmem).1
  obtain ⟨o, ho, hid⟩ := List.mem_map.mp (c.priced p hp)
  exact ⟨o, hid ▸ c.offerings.find_of_mem ho⟩

theorem sellable_nodup : ((sellable c moment).map fun o => co.key o.id).Nodup := by
  have hids : ((sellable c moment).map OfferingRow.id).Nodup :=
    c.offerings.key_nodup.sublist ((List.filter_sublist ..).map _)
  simpa [Function.comp_def] using hids.map co.inj

theorem mem_sellable {o : OfferingRow} : o ∈ sellable c moment ↔ o ∈ c.offerings.rows ∧ o.SellableAt moment := by
  rw [sellable, List.mem_filter, decide_eq_true_eq]

theorem getActiveOfferings_spec : ∃ ids, getActiveOfferings co c moment = .ok ids ∧
    ∀ offeringId, offeringId ∈ ids ↔ Listed c offeringId moment ∧ earlier co c offeringId moment < 20 := by
  refine ⟨_, rfl, fun offeringId => ?_⟩
  rw [List.mem_map]
  constructor
  · rintro ⟨o, ho, rfl⟩
    have ho := Page.ordered_perm.subset ho
    obtain ⟨hmem, -, hrank⟩ := (Page.mem_page sellable_nodup).mp ho
    obtain ⟨hrow, hsellable⟩ := mem_sellable.mp hmem
    exact ⟨⟨o, c.offerings.find_of_mem hrow, hsellable⟩, hrank⟩
  · rintro ⟨⟨o, ho, hsellable⟩, hrank⟩
    obtain ⟨hrow, rfl⟩ := c.offerings.find_some ho
    refine ⟨o, Page.ordered_perm.symm.subset ?_, rfl⟩
    exact (Page.mem_page sellable_nodup).mpr ⟨mem_sellable.mpr ⟨hrow, hsellable⟩, Nat.zero_le _, hrank⟩

/-- A retired offering is never listed again by its window, and nothing else changes. -/
theorem retireOffering_spec {actor : String} {now : Time} (h : retireOffering actor offeringId now c = .ok c') :
    c'.prices = c.prices ∧ ¬ Listed c' offeringId moment ∧
      ∀ other, other ≠ offeringId → (Listed c' other moment ↔ Listed c other moment) := by
  obtain ⟨⟨⟩, -, h⟩ := bind_eq_ok.mp h
  split at h
  · cases h
  · split at h
    · cases h
    · cases h
      refine ⟨rfl, ?_, fun other hne => ?_⟩
      · rintro ⟨o, ho, hsellable, -⟩
        have ho := Option.mem_def.mp ho
        rw [updateOffering_offerings, Table.find_update, if_pos rfl] at ho
        obtain ⟨o, -, rfl⟩ := Option.map_eq_some_iff.mp ho
        cases hsellable
      · unfold Listed
        rw [updateOffering_offerings, Table.find_update_ne _ hne]

end

end BssCli.Catalog.Offerings
