import BssCli.Catalog.Offers
import BssCli.Catalog.Succession

/-!
# The best promotion for a customer

The loop over the promotions of a customer keeps the cheapest that applies. What it chooses
passes the checks of a typed code.
-/

namespace BssCli.Catalog.Offers

open Money hiding applyDiscount
open Promo Offerings
open Discount (applyDiscount applyDiscount_known)

section

variable (co : Collation) (text : AmountText) (now : Time) (db : PromoDb)

/-- The promotion is for the offering, now, and the offering has a price. -/
structure Applies (promo : PromotionRow) (offeringId : String) : Prop where
  offering : ∀ ids ∈ promo.applicableOfferingIds, offeringId ∈ ids
  window : (Window.mk promo.validFrom promo.validTo).Holds now
  priced : (activePrice co db.catalog offeringId now).isSome

def Discounts (promo : PromotionRow) (offeringId : String) (amount : Decimal) : Prop :=
  ∃ price, activePrice co db.catalog offeringId now = some price ∧
    applyDiscount promo.discountType promo.discountValue price.amount = .ok amount

/-- A promotion that can be chosen, when the offer definitions in `consumed` are used up. -/
structure Candidate (consumed : List String) (customerId offeringId : String) (p : PromotionRow) : Prop where
  row : p ∈ db.promotions.rows
  active : p.state = .active
  targeted : p.audience = "targeted"
  eligible : isEligible db p.id customerId
  unused : ∀ od ∈ p.offerDefinitionId, od ∉ consumed
  applies : Applies co now db p offeringId

def offerOf (consumed : List String) (offeringId : String) (p : PromotionRow) : Option (PromotionRow × Terms) :=
  if ∃ od ∈ p.offerDefinitionId, od ∈ consumed then none
  else
    match compose co text now db p offeringId with
    | .ok (.terms t) => some (p, t)
    | _ => none

def offersFor (consumed : List String) (customerId offeringId : String) : List (PromotionRow × Terms) :=
  (listEligiblePromotions co db customerId).filterMap (offerOf co text now db consumed offeringId)

def cost (offer : PromotionRow × Terms) : Decimal := offer.2.effective

def result (customerId : String) (offer : PromotionRow × Terms) : ResolveResult :=
  candidate db customerId offer.1 offer.2

variable {co text now db} {promo p : PromotionRow} {offeringId customerId : String} {consumed : List String}

/-! ## Terms -/

theorem discountLabel_known (h : promo.discountType ∈ discountTypes) :
    ∃ label, discountLabel text promo.discountType promo.discountValue promo.currency = .ok label := by
  simp only [discountTypes, List.mem_cons, List.not_mem_nil, or_false] at h
  rcases h with h | h
  · rw [h]
    exact ⟨_, rfl⟩
  · rw [h]
    exact ⟨_, rfl⟩

theorem compose_cases (h : promo.discountType ∈ discountTypes) :
    (Applies co now db promo offeringId ∧ ∃ t, compose co text now db promo offeringId = .ok (.terms t) ∧
      Discounts co now db promo offeringId t.effective) ∨
    (¬ Applies co now db promo offeringId ∧ ∃ r, compose co text now db promo offeringId = .ok (.reason r)) := by
  unfold compose
  split
  · rename_i hids
    obtain ⟨ids, hids, hnot⟩ := hids
    exact Or.inr ⟨fun happlies => hnot (happlies.offering ids hids), _, rfl⟩
  · rename_i hids
    split
    · rename_i hstart
      obtain ⟨start, hstart, hlt⟩ := hstart
      exact Or.inr ⟨fun happlies => not_le.mpr hlt (happlies.window.1 start hstart), _, rfl⟩
    · rename_i hstart
      split
      · rename_i hstop
        obtain ⟨stop, hstop, hle⟩ := hstop
        exact Or.inr ⟨fun happlies => not_le.mpr (happlies.window.2 stop hstop) hle, _, rfl⟩
      · rename_i hstop
        split
        · rename_i hprice
          refine Or.inr ⟨fun happlies => ?_, _, rfl⟩
          have := happlies.priced
          rw [hprice] at this
          cases this
        · rename_i price hprice
          obtain ⟨label, hlabel⟩ := @discountLabel_known text promo h
          have hdiscount := applyDiscount_known h promo.discountValue price.amount
          simp only [hdiscount, hlabel]
          refine Or.inl ⟨⟨?_, ⟨?_, ?_⟩, by rw [hprice]; rfl⟩, _, rfl, price, hprice, hdiscount⟩
          · intro ids hmem
            by_contra hnot
            exact hids ⟨ids, hmem, hnot⟩
          · intro start hmem
            exact not_lt.mp fun hlt => hstart ⟨start, hmem, hlt⟩
          · intro stop hmem
            exact not_le.mp fun hle => hstop ⟨stop, hmem, hle⟩

/-! ## The loop -/

theorem keepBetter_result (acc : Option (PromotionRow × Terms)) (offer : PromotionRow × Terms) :
    keepBetter (acc.map (result db customerId)) (result db customerId offer) =
      (List.argAux (fun b c => cost b < cost c) acc offer).map (result db customerId) := by
  cases acc with
  | none => rfl
  | some best =>
    simp only [keepBetter, List.argAux, Option.map_some]
    have hless : less (result db customerId offer).effective (result db customerId best).effective =
        decide (cost offer < cost best) := rfl
    rw [hless]
    by_cases hlt : cost offer < cost best
    · simp [hlt]
    · simp [hlt]

theorem considerPromo_eq (h : promo.discountType ∈ discountTypes) (acc : Option (PromotionRow × Terms)) :
    considerPromo co text now db consumed customerId offeringId (acc.map (result db customerId)) promo =
      .ok ((match offerOf co text now db consumed offeringId promo with
        | some offer => List.argAux (fun b c => cost b < cost c) acc offer
        | none => acc).map (result db customerId)) := by
  unfold considerPromo offerOf
  split
  · rfl
  · rcases @compose_cases co text now db promo offeringId h with
      ⟨-, t, hcompose, -⟩ | ⟨-, r, hcompose⟩
    · rw [hcompose]
      exact congrArg Except.ok (keepBetter_result acc (promo, t))
    · rw [hcompose]
      rfl

theorem foldlM_considerPromo {l : List PromotionRow} (h : ∀ p ∈ l, p.discountType ∈ discountTypes)
    (acc : Option (PromotionRow × Terms)) :
    l.foldlM (considerPromo co text now db consumed customerId offeringId) (acc.map (result db customerId)) =
      .ok (((l.filterMap (offerOf co text now db consumed offeringId)).foldl
        (List.argAux fun b c => cost b < cost c) acc).map (result db customerId)) := by
  induction l generalizing acc with
  | nil => rfl
  | cons p l ih =>
    have hrest : ∀ q ∈ l, q.discountType ∈ discountTypes := fun q hq => h q (List.mem_cons_of_mem _ hq)
    rw [List.foldlM_cons, considerPromo_eq (h p (List.mem_cons_self ..))]
    simp only [bind, Except.bind]
    cases hoffer : offerOf co text now db consumed offeringId p with
    | none =>
      rw [List.filterMap_cons_none hoffer]
      exact ih hrest acc
    | some offer =>
      rw [List.filterMap_cons_some hoffer, List.foldl_cons]
      exact ih hrest _

theorem mem_listEligiblePromotions : p ∈ listEligiblePromotions co db customerId ↔
    p ∈ db.promotions.rows ∧ isEligible db p.id customerId ∧ p.state = .active ∧ p.audience = "targeted" := by
  have hperm : (listEligiblePromotions co db customerId).Perm (db.promotions.rows.filter fun p =>
      isEligible db p.id customerId ∧ p.state = .active ∧ p.audience = "targeted") := Page.ordered_perm
  rw [hperm.mem_iff, List.mem_filter, decide_eq_true_eq]

theorem mem_offersFor {offer : PromotionRow × Terms} :
    offer ∈ offersFor co text now db consumed customerId offeringId ↔
      Candidate co now db consumed customerId offeringId offer.1 ∧
        compose co text now db offer.1 offeringId = .ok (.terms offer.2) := by
  rw [offersFor, List.mem_filterMap]
  constructor
  · rintro ⟨p, hp, hoffer⟩
    obtain ⟨hrow, heligible, hactive, htargeted⟩ := mem_listEligiblePromotions.mp hp
    unfold offerOf at hoffer
    split at hoffer
    · cases hoffer
    · rename_i hunused
      split at hoffer
      · rename_i t hcompose
        cases hoffer
        have hunused : ∀ od ∈ p.offerDefinitionId, od ∉ consumed := fun od hod hmem => hunused ⟨od, hod, hmem⟩
        rcases @compose_cases co text now db p offeringId (db.sound p hrow).discountType with
          ⟨happlies, -⟩ | ⟨-, r, hreason⟩
        · exact ⟨⟨hrow, hactive, htargeted, heligible, hunused, happlies⟩, hcompose⟩
        · rw [hreason] at hcompose
          cases hcompose
      · cases hoffer
  · rintro ⟨hc, hcompose⟩
    refine ⟨offer.1, mem_listEligiblePromotions.mpr ⟨hc.row, hc.eligible, hc.active, hc.targeted⟩, ?_⟩
    have hunused : ¬ ∃ od ∈ offer.1.offerDefinitionId, od ∈ consumed := by
      rintro ⟨od, hod, hmem⟩
      exact hc.unused od hod hmem
    unfold offerOf
    rw [if_neg hunused, hcompose]

theorem resolveEligiblePromo_eq (loyalty : Loyalty) :
    resolveEligiblePromo co text now db (some loyalty) customerId offeringId =
      .ok ((((offersFor co text now db (consumedOfferDefinitions loyalty customerId) customerId offeringId).argmin
        cost).map (result db customerId)).getD (.refused "no_eligible_promo")) := by
  have hknown : ∀ p ∈ listEligiblePromotions co db customerId, p.discountType ∈ discountTypes :=
    fun p hp => (db.sound p (mem_listEligiblePromotions.mp hp).1).discountType
  unfold resolveEligiblePromo
  have hloop := @foldlM_considerPromo co text now db offeringId customerId
    (consumedOfferDefinitions loyalty customerId) _ hknown none
  rw [Option.map_none] at hloop
  simp only [hloop]
  rfl

/-! ## The checks of a typed code -/

theorem offerDefinitionIdFor_eq (promotionId : String) : offerDefinitionIdFor promotionId = "OD_" ++ promotionId := rfl

theorem offerDefinitionIdFor_inj {a b : String} (h : offerDefinitionIdFor a = offerDefinitionIdFor b) : a = b := by
  rw [offerDefinitionIdFor_eq, offerDefinitionIdFor_eq] at h
  simpa using h

theorem offerDefinitionIdFor_ne (promotionId : String) : offerDefinitionIdFor promotionId ≠ "" := by
  rw [offerDefinitionIdFor_eq]
  simp

theorem getByOfferDefinitionId_own (h : p ∈ db.promotions.rows) {od : String} (hod : p.offerDefinitionId = some od) :
    getByOfferDefinitionId od db.promotions = some p := by
  have hown : od = offerDefinitionIdFor p.id := (db.sound p h).offerDefinitionId od hod
  cases hfind : getByOfferDefinitionId od db.promotions with
  | none =>
    have := List.find?_eq_none.mp hfind p h
    simp [hod] at this
  | some q =>
    have hq : q ∈ db.promotions.rows := List.mem_of_find?_eq_some hfind
    have hqod : q.offerDefinitionId = some od := by simpa using List.find?_some hfind
    have hid := offerDefinitionIdFor_inj (((db.sound q hq).offerDefinitionId od hqod).symm.trans hown)
    rw [List.inj_on_of_nodup_map db.promotions.key_nodup hq h hid]

theorem validateForOrder_candidate (hc : Candidate co now db consumed customerId offeringId p) {t : Terms}
    (hcompose : compose co text now db p offeringId = .ok (.terms t)) {loyalty : Loyalty} {code : String}
    {shown : CodeDoc} (hshown : loyalty.showPromoCode code = .ok shown)
    (hod : shown.offerDefinitionId = p.offerDefinitionId) :
    validateForOrder co text now db (some loyalty) code offeringId (some customerId) =
      .ok ⟨true, code, offeringId, none, p.offerDefinitionId, getLoyaltyOfferId db p.id customerId, some t⟩ := by
  have hsound := db.sound p hc.row
  obtain ⟨od, hown⟩ := Option.isSome_iff_exists.mp (hsound.confirmed hc.active)
  have hne : od ≠ "" := (hsound.offerDefinitionId od hown) ▸ offerDefinitionIdFor_ne p.id
  have heligible : ¬ (p.audience = "targeted" ∧ ¬ ∃ cid ∈ some customerId, isEligible db p.id cid) :=
    fun h => h.2 ⟨customerId, rfl, hc.eligible⟩
  unfold validateForOrder
  simp only [hshown, hod, hown, Option.getD_some, if_neg hne, getByOfferDefinitionId_own hc.row hown, hc.active, if_true]
  unfold validatePromo
  rw [if_neg heligible, if_pos hc.targeted, hcompose]
  rfl

/-! ## The choice -/

def Consumed (loyalty : Loyalty) (customerId od : String) : Prop :=
  ∃ o ∈ loyalty.offers customerId, o.used = true ∧ o.offerDefinitionId = some od

theorem mem_usedIn {rows : List OfferDoc} {od : String} :
    od ∈ usedIn rows ↔ ∃ o ∈ rows, o.used = true ∧ o.offerDefinitionId = some od := by
  rw [usedIn, List.mem_filterMap]
  simp only [List.mem_filter, and_assoc]

/-- A page that holds all the offers of the customer shows what is used. -/
theorem consumed_known {loyalty : Loyalty} {od : String}
    (hpage : loyalty.listOffers customerId 100 = .ok (some ((loyalty.offers customerId).take 100)))
    (hlength : (loyalty.offers customerId).length ≤ 100) :
    od ∈ consumedOfferDefinitions loyalty customerId ↔ Consumed loyalty customerId od := by
  have hall : (loyalty.offers customerId).take 100 = loyalty.offers customerId := List.take_of_length_le hlength
  unfold consumedOfferDefinitions
  rw [hpage, hall]
  exact mem_usedIn

variable (co text now db) in
/-- The result is for this promotion: none that can be chosen is cheaper, and its code is taken
for the same terms once loyalty leads from the code to it. -/
structure Chosen (loyalty : Loyalty) (customerId offeringId : String) (r : ResolveResult) (p : PromotionRow) :
    Prop where
  candidate : Candidate co now db (consumedOfferDefinitions loyalty customerId) customerId offeringId p
  promotion : r.promotionId = some p.id
  cheapest : ∃ amount, r.effective = some amount ∧ Discounts co now db p offeringId amount ∧
    ∀ q, Candidate co now db (consumedOfferDefinitions loyalty customerId) customerId offeringId q →
      ∀ other, Discounts co now db q offeringId other → amount ≤ other
  validates : ∃ code ∈ r.code, ∀ shown, loyalty.showPromoCode code = .ok shown →
    shown.offerDefinitionId = p.offerDefinitionId →
      ∃ v, validateForOrder co text now db (some loyalty) code offeringId (some customerId) = .ok v ∧
        v.valid = true ∧ v.terms = r.terms ∧ v.offerDefinitionId = r.offerDefinitionId ∧
        v.loyaltyOfferId = r.loyaltyOfferId

variable (text) in
theorem Candidate.terms (hc : Candidate co now db consumed customerId offeringId p) :
    ∃ t, compose co text now db p offeringId = .ok (.terms t) ∧ Discounts co now db p offeringId t.effective := by
  rcases @compose_cases co text now db p offeringId (db.sound p hc.row).discountType with ⟨-, h⟩ | ⟨hnot, -⟩
  · exact h
  · exact absurd hc.applies hnot

theorem Discounts.unique {a b : Decimal} (ha : Discounts co now db p offeringId a)
    (hb : Discounts co now db p offeringId b) : a = b := by
  obtain ⟨price, hprice, ha⟩ := ha
  obtain ⟨price', hprice', hb⟩ := hb
  obtain rfl := Option.some.inj (hprice.symm.trans hprice')
  exact Except.ok.inj (ha.symm.trans hb)

theorem chosen_of_argmin {loyalty : Loyalty} {offer : PromotionRow × Terms}
    (h : offer ∈ (offersFor co text now db (consumedOfferDefinitions loyalty customerId) customerId
      offeringId).argmin cost) :
    Chosen co text now db loyalty customerId offeringId (result db customerId offer) offer.1 := by
  obtain ⟨hc, hcompose⟩ := mem_offersFor.mp (List.argmin_mem h)
  have hamount : Discounts co now db offer.1 offeringId (cost offer) := by
    obtain ⟨t, ht, hdiscounts⟩ := hc.terms text
    rw [hcompose] at ht
    cases ht
    exact hdiscounts
  refine ⟨hc, rfl, ⟨cost offer, rfl, hamount, fun q hq other hother => ?_⟩, ?_⟩
  · obtain ⟨t, ht, hdiscounts⟩ := hq.terms text
    have hmem : (q, t) ∈ offersFor co text now db (consumedOfferDefinitions loyalty customerId) customerId offeringId :=
      mem_offersFor.mpr ⟨hq, ht⟩
    calc cost offer ≤ cost (q, t) := List.le_of_mem_argmin hmem h
      _ = other := hdiscounts.unique hother
  · obtain ⟨code, hcode, -⟩ := (db.sound offer.1 hc.row).code
    exact ⟨code, hcode, fun shown hshown hod =>
      ⟨_, validateForOrder_candidate hc hcompose hshown hod, rfl, rfl, rfl, rfl⟩⟩

end

/-- **The best promotion is chosen.** Without loyalty there is none. With it there is one
exactly when some promotion can be chosen: assigned to the customer, active, for the offering and
the moment, and not used up as far as loyalty shows. It is the cheapest of them, and its code
validates. What loyalty shows is what is used, when it answers and has no more than a page. -/
theorem best_offer_chosen (co : Collation) (text : AmountText) (now : Time) (db : PromoDb)
    (customerId offeringId : String) :
    (∃ r, resolveEligiblePromo co text now db none customerId offeringId = .ok r ∧ r.valid = false) ∧
    ∀ loyalty : Loyalty,
      (∃ r, resolveEligiblePromo co text now db (some loyalty) customerId offeringId = .ok r ∧
        (r.valid = true ↔
          ∃ p, Candidate co now db (consumedOfferDefinitions loyalty customerId) customerId offeringId p) ∧
        (r.valid = true → ∃ p, Chosen co text now db loyalty customerId offeringId r p)) ∧
      (loyalty.listOffers customerId 100 = .ok (some ((loyalty.offers customerId).take 100)) →
        (loyalty.offers customerId).length ≤ 100 →
          ∀ od, od ∈ consumedOfferDefinitions loyalty customerId ↔ Consumed loyalty customerId od) := by
  refine ⟨⟨_, rfl, rfl⟩, fun loyalty => ⟨⟨_, resolveEligiblePromo_eq loyalty, ?_⟩,
    fun hpage hlength od => consumed_known hpage hlength⟩⟩
  cases hmin : (offersFor co text now db (consumedOfferDefinitions loyalty customerId) customerId
    offeringId).argmin cost with
  | none =>
    have hempty := List.argmin_eq_none.mp hmin
    have hnone : ¬ ∃ p, Candidate co now db (consumedOfferDefinitions loyalty customerId) customerId offeringId p := by
      rintro ⟨p, hp⟩
      obtain ⟨t, ht, -⟩ := hp.terms text
      have hmem : (p, t) ∈ offersFor co text now db (consumedOfferDefinitions loyalty customerId) customerId
          offeringId := mem_offersFor.mpr ⟨hp, ht⟩
      rw [hempty] at hmem
      cases hmem
    exact ⟨iff_of_false Bool.false_ne_true hnone, fun h => absurd h Bool.false_ne_true⟩
  | some offer =>
    have hchosen := chosen_of_argmin hmin
    exact ⟨iff_of_true rfl ⟨offer.1, hchosen.candidate⟩, fun _ => ⟨offer.1, hchosen⟩⟩

def targeted (id : String) (discountValue : Decimal) : PromotionRow :=
  ⟨id, some id, none, "targeted", some (offerDefinitionIdFor id), "percent", discountValue, "SGD", none, "single", none,
    none, none, .active, "ops"⟩

theorem targeted_sound {id : String} (h : id ≠ "") (discountValue : Decimal) :
    PromotionRow.Sound (targeted id discountValue) where
  discountType := List.mem_cons_self ..
  code := ⟨id, rfl, h⟩
  offerDefinitionId := by
    rintro od ⟨⟩
    rfl
  confirmed _ := rfl

def assigned : PromoDb where
  catalog := Succession.standing
  promotions := .singleton (targeted "VIP20" 20)
  eligibility := .singleton ⟨"VIP20", "CUST-1", none⟩
  sound := by
    intro p hp
    obtain rfl := List.mem_singleton.mp hp
    exact targeted_sound (by decide) 20

def plain : AmountText := ⟨fun _ => "20", fun _ => "20.00"⟩

/-- Loyalty, where the customer has used the offer already. -/
def usedUp (listOffers : String → ℕ → Except ClientError (Option (List OfferDoc))) : Loyalty where
  offers _ := [⟨some "redeemed", some (offerDefinitionIdFor "VIP20")⟩]
  showPromoCode _ := .ok ⟨some (offerDefinitionIdFor "VIP20")⟩
  listOffers := listOffers

/-- Loyalty does not answer, and the offer is chosen again. -/
theorem used_offer_chosen :
    let loyalty := usedUp fun _ _ => .error (.timeout "offer.list")
    (∀ p ∈ assigned.promotions.rows, ∀ od ∈ p.offerDefinitionId, Consumed loyalty "CUST-1" od) ∧
      ∃ r, resolveEligiblePromo .binary plain 0 assigned (some loyalty) "CUST-1" "PLAN_M" = .ok r ∧
        r.valid = true := by
  intro loyalty
  constructor
  · intro p hp od hod
    obtain rfl := List.mem_singleton.mp hp
    exact ⟨_, List.mem_singleton_self _, rfl, hod⟩
  · have hvalid : (resolveEligiblePromo .binary plain 0 assigned (some loyalty) "CUST-1" "PLAN_M").toOption.any
        ResolveResult.valid = true := by decide +kernel
    obtain ⟨r, hr, hvalid⟩ := (Option.any_eq_true ..).mp hvalid
    exact ⟨r, toOption_eq_some.mp hr, hvalid⟩

end BssCli.Catalog.Offers
