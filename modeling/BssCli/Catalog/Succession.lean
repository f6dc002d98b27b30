import BssCli.Catalog.Offerings

/-!
# A price after a price

`add_price` with `retire_current` ends the open prices of the offering where the new one
starts. A price that has an end of its own keeps it.
-/

namespace BssCli.Catalog.Succession

open Money Offerings
open Promo (checkAdmin)
open Subscription (numeric12)

structure AddPrice where
  priceId : String
  amount : Decimal
  currency : String
  window : Window Time
  retireCurrent : Bool

/-- `SET valid_to = $2 … WHERE offering_id = $1 AND valid_to IS NULL` -/
def closePrice (offeringId : String) (cut : Time) (p : PriceRow) : PriceRow :=
  if p.offeringId = offeringId then { p with window := p.window.closeAt cut } else p

def newPrice (offeringId : String) (req : AddPrice) (amount : Decimal) : PriceRow where
  id := req.priceId
  offeringId := offeringId
  priceType := "recurring"
  recurringPeriodLength := some ⟨1, by decide⟩
  recurringPeriodType := some "month"
  amount := amount
  currency := req.currency
  window := req.window

section

variable {offeringId : String} {cut : Time}

theorem closePrice_id (p : PriceRow) : (closePrice offeringId cut p).id = p.id := by
  unfold closePrice
  split <;> rfl

theorem closePrice_offeringId (p : PriceRow) : (closePrice offeringId cut p).offeringId = p.offeringId := by
  unfold closePrice
  split <;> rfl

theorem closePrice_priceType (p : PriceRow) : (closePrice offeringId cut p).priceType = p.priceType := by
  unfold closePrice
  split <;> rfl

theorem closePrice_key (co : Collation) (p : PriceRow) : priceKey co (closePrice offeringId cut p) = priceKey co p := by
  unfold closePrice
  split <;> rfl

end

def closePrices (offeringId : String) (cut : Time) (c : CatalogDb) : CatalogDb where
  offerings := c.offerings
  prices := c.prices.map (closePrice offeringId cut) closePrice_id
  priced := by
    intro p hp
    obtain ⟨q, hq, rfl⟩ := List.mem_map.mp hp
    rw [closePrice_offeringId]
    exact c.priced q hq

def retirePrices (offeringId : String) (req : AddPrice) (now : Time) (c : CatalogDb) : CatalogDb :=
  if req.retireCurrent then closePrices offeringId (req.window.start.getD now) c else c

def insertPrice (row : PriceRow) (c : CatalogDb) : Except ApiError CatalogDb :=
  if hoffering : row.offeringId ∈ c.offerings.rows.map OfferingRow.id then
    match hrows : c.prices.insert row with
    | some prices => .ok
      { offerings := c.offerings
        prices := prices
        priced := by
          intro p hp
          rw [(Table.rows_insert hrows).1, List.mem_append, List.mem_singleton] at hp
          rcases hp with hp | rfl
          · exact c.priced p hp
          · exact hoffering }
    | none => .error (dbError "duplicate key value violates unique constraint \"pk_product_offering_price\"")
  else .error (dbError "violates foreign key constraint \"fk_product_offering_price_offering_id_product_offering\"")

def addPrice (actor offeringId : String) (req : AddPrice) (now : Time) (c : CatalogDb) :
    Except ApiError (CatalogDb × PriceRow) := do
  checkAdmin actor
  if (c.offerings.find offeringId).isNone then .error (offeringNotFound offeringId)
  else if (c.prices.find req.priceId).isSome then .error (.policy
    { rule := "catalog.price.already_exists"
      message := s!"Price {req.priceId} already exists"
      context := [("price_id", .str req.priceId)] })
  else do
    let amount ← numeric12 req.amount
    let c' ← insertPrice (newPrice offeringId req amount) (retirePrices offeringId req now c)
    match c'.prices.find req.priceId with
    | some row => .ok (c', row)
    | none => .error (.internal "price vanished after insert")

/-! ## What the call leaves -/

section

variable {co : Collation} {c c' : CatalogDb} {offeringId : String} {row : PriceRow}

theorem insertPrice_eq_ok (h : insertPrice row c = .ok c') :
    c'.prices.rows = c.prices.rows ++ [row] ∧ c'.prices.find row.id = some row := by
  unfold insertPrice at h
  split at h
  · split at h
    · rename_i prices hrows
      cases h
      exact ⟨(Table.rows_insert hrows).1, by rw [Table.find_insert hrows, if_pos rfl]⟩
    · cases h
  · cases h

theorem addPrice_eq_ok {actor : String} {req : AddPrice} {now : Time} {cut : Time}
    (hretire : req.retireCurrent = true) (hcut : req.window.start = some cut)
    (h : addPrice actor offeringId req now c = .ok (c', row)) :
    (∃ amount, numeric12 req.amount = .ok amount ∧ row = newPrice offeringId req amount) ∧
      c'.prices.rows = c.prices.rows.map (closePrice offeringId cut) ++ [row] := by
  obtain ⟨⟨⟩, -, h⟩ := bind_eq_ok.mp h
  split at h
  · cases h
  · split at h
    · cases h
    · obtain ⟨amount, hamount, h⟩ := bind_eq_ok.mp h
      obtain ⟨c'', hinsert, h⟩ := bind_eq_ok.mp h
      rw [retirePrices, if_pos hretire, hcut] at hinsert
      obtain ⟨hrows, hfind⟩ := insertPrice_eq_ok hinsert
      have hfind : c''.prices.find req.priceId = some (newPrice offeringId req amount) := hfind
      rw [hfind] at h
      cases h
      exact ⟨⟨amount, hamount, rfl⟩, hrows⟩

theorem priceKey_nodup (t : Table PriceRow.id fun id : String => id) :
    ((recurring t.rows offeringId).map (priceKey co)).Nodup := by
  have hids : ((recurring t.rows offeringId).map PriceRow.id).Nodup :=
    t.key_nodup.sublist ((List.filter_sublist ..).map _)
  apply List.Nodup.of_map fun k => (ofLex k).2
  simpa [Function.comp_def, priceKey] using hids.map co.inj

theorem recurring_closed (cut : Time) (prices : List PriceRow) (other : String) :
    recurring (prices.map (closePrice offeringId cut)) other =
      (recurring prices other).map (closePrice offeringId cut) := by
  unfold recurring
  rw [List.filter_map]
  simp only [Function.comp_def, closePrice_offeringId, closePrice_priceType]

theorem recurring_other (cut : Time) (prices : List PriceRow) {other : String} (hne : other ≠ offeringId) :
    recurring (prices.map (closePrice offeringId cut)) other = recurring prices other := by
  rw [recurring_closed]
  conv_rhs => rw [← List.map_id (recurring prices other)]
  refine List.map_congr_left fun p hp => ?_
  rw [closePrice, if_neg]
  · rfl
  · rw [(mem_recurring.mp hp).2.1]
    exact hne

theorem closePrice_window {cut : Time} {prices : List PriceRow} :
    ∀ p ∈ recurring prices offeringId, (closePrice offeringId cut p).window = p.window.closeAt cut := by
  intro p hp
  rw [closePrice, if_pos (mem_recurring.mp hp).2.1]

end

/-- **What the call changes.** The row is the one asked for. Before its start every moment has
the price it had, whose open end is closed. From its start on, the new price is the active one
in its window, except where a price with an end of its own comes first. Other offerings keep
their prices. -/
theorem price_succession (co : Collation) {actor offeringId : String} {req : AddPrice} {now v : Time}
    {c c' : CatalogDb} {row : PriceRow} (hretire : req.retireCurrent = true)
    (hv : req.window.start = some v) (h : addPrice actor offeringId req now c = .ok (c', row)) :
    (∃ amount, numeric12 req.amount = .ok amount ∧ row = newPrice offeringId req amount) ∧
    (∀ m, m < v → activePrice co c' offeringId m =
      (activePrice co c offeringId m).map (closePrice offeringId v)) ∧
    (∀ m, v ≤ m → row.window.Holds m → (activePrice co c' offeringId m).isSome ∧
      (activePrice co c' offeringId m = some row ↔
        ∀ p ∈ recurring c.prices.rows offeringId, p.window.stop ≠ none → p.window.Holds m →
          priceKey co row ≤ priceKey co p)) ∧
    ∀ other, other ≠ offeringId → ∀ m, activePrice co c' other m = activePrice co c other m := by
  obtain ⟨⟨amount, hamount, rfl⟩, hrows⟩ := addPrice_eq_ok hretire hv h
  have hrecurring : recurring c'.prices.rows offeringId =
      (recurring c.prices.rows offeringId).map (closePrice offeringId v) ++ [newPrice offeringId req amount] := by
    rw [← recurring_closed, hrows]
    simp [recurring, newPrice]
  have hkeys : ((recurring c.prices.rows offeringId).map (priceKey co)).Nodup := priceKey_nodup c.prices
  refine ⟨⟨amount, hamount, rfl⟩, fun m hm => ?_, fun m hm hheld => ⟨?_, ?_⟩, fun other hne m => ?_⟩
  · rw [activePrice, hrecurring]
    exact Window.current_succession_before hkeys (closePrice_key co) closePrice_window hv hm
  · rw [activePrice, hrecurring, Window.current_isSome]
    exact ⟨_, List.mem_append_right _ (List.mem_singleton_self _), hheld⟩
  · rw [activePrice, hrecurring]
    refine Window.current_succession_after ?_ (closePrice_key co) closePrice_window hm hheld
    rw [← hrecurring]
    exact priceKey_nodup c'.prices
  · have hother : recurring c'.prices.rows other = recurring c.prices.rows other := by
      rw [← recurring_other v c.prices.rows hne, hrows]
      simp [recurring, newPrice, Ne.symm hne]
    rw [activePrice, hother]
    rfl

def planM (window : Window Time) (id : String) (amount : Decimal) : PriceRow :=
  ⟨id, "PLAN_M", "recurring", some ⟨1, by decide⟩, some "month", amount, "SGD", window⟩

def plans : Table OfferingRow.id (fun id : String => id) :=
  .singleton ⟨"PLAN_M", some "M", true, some true, some "active", ⟨none, none⟩, some "SPEC_MOBILE_PREPAID"⟩

def standing : CatalogDb where
  offerings := plans
  prices := .singleton (planM ⟨none, none⟩ "PRICE_PLAN_M" 25)
  priced := by decide

/-- Beside it a lower one, for thirty days. -/
def promoted : CatalogDb where
  offerings := plans
  prices := ⟨[planM ⟨none, none⟩ "PRICE_PLAN_M" 25, planM ⟨some 0, some (days 30)⟩ "PRICE_PROMO" 15], by decide⟩
  priced := by decide

def listPrice : AddPrice := ⟨"PRICE_2", 28, "SGD", ⟨some (days 10), none⟩, true⟩

theorem price_succession_standing : ∃ c' row, addPrice "ops" "PLAN_M" listPrice 0 standing = .ok (c', row) ∧
    activePrice .binary c' "PLAN_M" (days 10) = some row := by
  have hok : (addPrice "ops" "PLAN_M" listPrice 0 standing).toOption.isSome := by decide +kernel
  cases h : addPrice "ops" "PLAN_M" listPrice 0 standing with
  | error e => rw [h] at hok; cases hok
  | ok made =>
    obtain ⟨c', row⟩ := made
    obtain ⟨⟨amount, -, rfl⟩, -, hafter, -⟩ := price_succession .binary rfl rfl h
    have hheld : listPrice.window.Holds (days 10) := by decide
    have hopen : ∀ p ∈ recurring standing.prices.rows "PLAN_M", p.window.stop = none := by decide
    exact ⟨c', _, rfl, (hafter (days 10) le_rfl hheld).2.mpr fun p hp hstop => absurd (hopen p hp) hstop⟩

/-- The promotional price stays the active one. -/
theorem promo_price_stays : ∃ c' row, addPrice "ops" "PLAN_M" listPrice 0 promoted = .ok (c', row) ∧
    row.window.Holds (days 20) ∧
    (activePrice .binary c' "PLAN_M" (days 20)).map PriceRow.id = some "PRICE_PROMO" := by
  have hok : (addPrice "ops" "PLAN_M" listPrice 0 promoted).toOption.any (fun made =>
      decide (made.2.window.Holds (days 20) ∧
        (activePrice .binary made.1 "PLAN_M" (days 20)).map PriceRow.id = some "PRICE_PROMO")) := by
    decide +kernel
  cases h : addPrice "ops" "PLAN_M" listPrice 0 promoted with
  | error e => rw [h] at hok; cases hok
  | ok made =>
    obtain ⟨c', row⟩ := made
    rw [h] at hok
    exact ⟨c', row, rfl, of_decide_eq_true hok⟩

end BssCli.Catalog.Succession
