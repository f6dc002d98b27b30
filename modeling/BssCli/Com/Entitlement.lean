import BssCli.Com.Attempts
import BssCli.Com.Loyalty

/-!
# The entitlement follows the order

The redeem and the revoke are made once each and no failure of them is made up for, and the
claim is granted again under its key whatever the offer has become. So the last attempt
decides, with what it finds at loyalty and at the subscription service.
-/

namespace BssCli.Com.Entitlement

open Keyed PromoOrder

variable {σ : Type} {L : LoyaltyService σ}

variable {id : String} {pre : Option String} {s : σ} {e : Option OfferState} {c : LoyaltyCall}

/-! ## What an attempt depends on -/

section Told

variable (L) (w : PromoOrder σ) (p : ServiceOrderCompleted) (a : Answers)

/-- Loyalty grants the claim of the order, or has granted it. -/
def Grants : Prop :=
  ∃ c ∈ claimCall w.db.order w.db.item, (L.call (claimKey w.db.order.id) c w.loyalty).2.isOk

instance : Decidable (Grants L w) := inferInstanceAs (Decidable (∃ c ∈ _, _))

/-- The claim is granted, and the handler is told. -/
def Heard : Prop := a.configured ∧ a.claim = .answered ∧ Grants L w

instance : Decidable (Heard L w a) := inferInstanceAs (Decidable (_ ∧ _ ∧ _))

/-- The claim is granted, and the handler may be told or not. -/
def Claims : Prop := a.configured ∧ a.claim.arrives ∧ Grants L w

instance : Decidable (Claims L w a) := inferInstanceAs (Decidable (_ ∧ _ ∧ _))

/-- The price of the message, else of the item. -/
def quoted : Option Snapshot := p.priceSnapshot.or (w.db.item.bind itemPriceSnapshot)

/-- The subscription that the order has, or gets now, is discounted. -/
def endsDiscounted : Bool :=
  match w.subscription with
  | some s => s.discounted
  | none =>
    if Heard L w a then (quoted w p).isSome && w.db.item.any fun it => it.discountValue.isSome
    else (quoted w p).any discounts

/-- With a discount the claim is heard, the offer was not revoked before and the redeem
arrives, or all of it is done. At full price nothing is claimed, or it is revoked. -/
def CompletedTold : Prop :=
  if endsDiscounted L w p a then
    w.entitlement L = some .redeemed ∨ Heard L w a ∧ w.entitlement L ≠ some .revoked ∧ a.settle.arrives
  else w.entitlement L = some .revoked ∨ w.entitlement L = none ∧ ¬ Claims L w a

/-- A failed order must not have an offer then. -/
def Told : Label σ → Prop
  | .completed p a _ => CompletedTold L w p a
  | .failed _ _ _ _ => w.entitlement L ≠ some .redeemed ∧ w.entitlement L ≠ some .claimed
  | .elsewhere _ => True

/-- The offer is redeemed if and only if the order is completed with a discount, and at full
price or with a failed order it is not claimed either. -/
def Follows : Prop :=
  ((w.db.order.state = .completed ∧ ∃ s ∈ w.subscription, s.discounted) ↔ w.entitlement L = some .redeemed) ∧
    (w.db.order.state = .failed ∨ (∃ s ∈ w.subscription, ¬ s.discounted) →
      w.entitlement L ≠ some .redeemed ∧ w.entitlement L ≠ some .claimed)

instance : Decidable (CompletedTold L w p a) :=
  inferInstanceAs (Decidable (if endsDiscounted L w p a then _ ∨ Heard L w a ∧ _ else _ ∨ _ ∧ ¬ Claims L w a))

instance : ∀ l, Decidable (Told L w l)
  | .completed p a _ => inferInstanceAs (Decidable (CompletedTold L w p a))
  | .failed _ _ _ _ => inferInstanceAs (Decidable (_ ∧ _))
  | .elsewhere _ => .isTrue trivial

instance : Decidable (Follows L w) :=
  inferInstanceAs (Decidable ((_ ∧ (∃ s ∈ _, _) ↔ _) ∧ (_ ∨ (∃ s ∈ _, _) → _)))

end Told

/-! ## One attempt -/

section Attempt

variable {w w' : PromoOrder σ} {p : ServiceOrderCompleted} {a : Answers} {now : Time}

def Stands (L : LoyaltyService σ) (w : PromoOrder σ) (e : Option OfferState) : Prop :=
  Standing L w.db.order.id (preOffer w.db.item) w.loyalty e

theorem Stands.entitlement (h : Stands L w e) : w.entitlement L = e := by
  show (L.replied w.loyalty _).bind _ = e
  cases h with
  | unclaimed hclaim hsettle => rw [hclaim, Option.bind_none]
  | held hnamed hoffer hst hsettle =>
    obtain ⟨r, hr, ho⟩ := Option.bind_eq_some_iff.mp hnamed
    rw [hr, Option.bind_some, ho]
    exact hoffer

/-- What the claim of an attempt leaves. -/
def claimedState (L : LoyaltyService σ) (w : PromoOrder σ) (a : Answers) (e : Option OfferState) : Option OfferState :=
  e.or (if Claims L w a then some .claimed else none)

def committedState (L : LoyaltyService σ) (w : PromoOrder σ) (a : Answers) (e : Option OfferState) :
    Option OfferState :=
  if Heard L w a ∧ a.settle.arrives ∧ claimedState L w a e = some .claimed then some .redeemed
  else claimedState L w a e

theorem Stands.ne_issued (h : Stands L w e) : e ≠ some .issued := by
  cases h with
  | unclaimed hclaim hsettle => simp
  | held hnamed hoffer hst hsettle => simpa using hst

theorem Stands.apart {loyalty : σ} (h : Stands L w e) (hapart : w.Apart L loyalty) :
    Stands L { w with loyalty } e := by
  obtain ⟨hkeys, hsame⟩ := hapart
  have hclaimKey := hkeys (claimKey w.db.order.id) (by simp [keys])
  have hsettleKey : ∀ made, L.replied loyalty (settleKey w.db.order.id made) =
      L.replied w.loyalty (settleKey w.db.order.id made) := by
    intro made
    cases made <;> exact hkeys _ (by simp [keys, settleKey])
  have hentitlement := hsame.trans h.entitlement
  cases h with
  | unclaimed hclaim hsettle => exact .unclaimed (hclaimKey.trans hclaim) fun made => (hsettleKey made).trans (hsettle made)
  | @held o st hnamed hoffer hst hsettle =>
    have hnamed' : named L w.db.order.id (preOffer w.db.item) loyalty = some o := by
      rw [named, hclaimKey]
      exact hnamed
    refine .held hnamed' ?_ hst fun made => by rw [hsettleKey made, hsettle made]
    obtain ⟨r, hr, ho⟩ := Option.bind_eq_some_iff.mp hnamed'
    change (L.replied loyalty _).bind _ = _ at hentitlement
    rw [hr, Option.bind_some, ho] at hentitlement
    exact hentitlement

theorem call_claim (hL : L.Lawful) (h : Stands L w e) (hcall : claimCall w.db.order w.db.item = some c) :
    (∃ r o, (L.call (claimKey w.db.order.id) c w.loyalty).2 = .ok r ∧ (preOffer w.db.item).or r = some o ∧
        named L w.db.order.id (preOffer w.db.item) (L.call (claimKey w.db.order.id) c w.loyalty).1 = some o ∧
        Standing L w.db.order.id (preOffer w.db.item) (L.call (claimKey w.db.order.id) c w.loyalty).1
          (e.or (some .claimed)) ∧ Grants L w) ∨
      e = none ∧ (∃ x, (L.call (claimKey w.db.order.id) c w.loyalty).2 = .error x) ∧
        (L.call (claimKey w.db.order.id) c w.loyalty).1 = w.loyalty ∧ ¬ Grants L w := by
  rcases Standing.claim hL h (claimCall_isClaim hcall) (claimCall_claims hcall) with
    ⟨r, o, hreply, ho, hnamed, hst⟩ | ⟨he, ⟨x, hx⟩, hsame⟩
  · exact Or.inl ⟨r, o, hreply, ho, hnamed, hst, c, hcall, by rw [hreply]; rfl⟩
  · refine Or.inr ⟨he, ⟨x, hx⟩, hsame, ?_⟩
    rintro ⟨c', hc', hok⟩
    obtain rfl : c = c' := Option.some.inj (hcall.symm.trans hc')
    rw [hx] at hok
    cases hok

theorem afterClaim_stands (hL : L.Lawful) (h : Stands L w e) :
    Standing L w.db.order.id (preOffer w.db.item) (w.afterClaim L a).loyalty (claimedState L w a e) := by
  unfold afterClaim claimedState
  cases hcall : claimCall w.db.order w.db.item with
  | none =>
    have hnot : ¬ Claims L w a := by
      rintro ⟨-, -, c, hc, -⟩
      rw [hcall] at hc
      cases hc
    rwa [if_neg hnot, Option.or_none]
  | some c =>
    dsimp only
    by_cases hconfigured : a.configured = true
    · rw [if_pos hconfigured]
      show Standing L _ _ (L.send _ _ _ _ _).1 _
      rw [Service.send_fst]
      by_cases harrives : a.claim.arrives = true
      · rw [if_pos harrives]
        rcases call_claim hL h hcall with ⟨r, o, -, -, -, hst, hgrants⟩ | ⟨he, -, hsame, hnot⟩
        · rwa [if_pos (show Claims L w a from ⟨hconfigured, harrives, hgrants⟩)]
        · rw [if_neg (show ¬ Claims L w a from fun hc => hnot hc.2.2), Option.or_none, hsame]
          exact h
      · rw [if_neg harrives, if_neg (show ¬ Claims L w a from fun hc => harrives hc.2.1), Option.or_none]
        exact h
    · rw [if_neg hconfigured, if_neg (show ¬ Claims L w a from fun hc => hconfigured hc.1), Option.or_none]
      exact h

theorem gate_offerId (hL : L.Lawful) (h : Stands L w e) (hheard : Heard L w a) :
    ∃ it o, w.db.item = some it ∧ it.discountType.isSome ∧
      named L w.db.order.id (preOffer w.db.item) (w.afterClaim L a).loyalty = some o ∧
      w.gate L p a = ⟨some o, false, (quoted w p).map (withPromo it)⟩ := by
  obtain ⟨hconfigured, hanswered, c, hcall, hok⟩ := hheard
  obtain ⟨it, hit, hoffer⟩ := Option.bind_eq_some_iff.mp hcall
  obtain ⟨hboth, -⟩ := Option.ite_none_left_eq_some.mp hoffer
  rcases call_claim hL h hcall with ⟨r, o, hreply, ho, hnamed, -, -⟩ | ⟨-, ⟨x, hx⟩, -⟩
  · have hclaim : claimEntitlement (some (L.client a.claim w.loyalty)) w.db.order w.db.item = .ok (some o) := by
      rw [claimEntitlement_client, Option.mem_def.mp hcall]
      show Except.map _ (L.send _ _ _ _ _).2 = _
      rw [Service.send_snd, if_pos hanswered, hreply]
      exact congrArg Except.ok ho
    refine ⟨it, o, hit, ?_, ?_, ?_⟩
    · exact Option.isSome_iff_ne_none.mpr fun hnone => hboth (Or.inl (by rw [hnone]; rfl))
    · rw [afterClaim, Option.mem_def.mp hcall]
      dsimp only
      rw [if_pos hconfigured]
      show named L _ _ (L.send _ _ _ _ _).1 = some o
      rw [Service.send_fst, hanswered]
      exact hnamed
    · rw [hit] at hclaim
      simp only [gate, completion, if_pos hconfigured, quoted, hit, hclaim]
  · rw [hx] at hok
    cases hok

theorem gate_unheard (hL : L.Lawful) (h : Stands L w e) (hunheard : ¬ Heard L w a) :
    (w.gate L p a).offerId = none ∧ (w.gate L p a).priceSnapshot = quoted w p := by
  have hclaim : ∀ o, claimEntitlement (if a.configured then some (L.client a.claim w.loyalty) else none)
      w.db.order w.db.item ≠ .ok (some o) := by
    intro o heq
    by_cases hconfigured : a.configured = true
    · rw [if_pos hconfigured, claimEntitlement_client] at heq
      cases hcall : claimCall w.db.order w.db.item with
      | none =>
        rw [hcall] at heq
        cases heq
      | some c =>
        rw [hcall] at heq
        change Except.map _ (L.send _ _ _ _ _).2 = _ at heq
        rw [Service.send_snd] at heq
        split at heq
        · rename_i hanswered
          rcases call_claim hL h hcall with ⟨r, o, -, -, -, -, hgrants⟩ | ⟨-, ⟨x, hx⟩, -⟩
          · exact hunheard ⟨hconfigured, hanswered, hgrants⟩
          · rw [hx] at heq
            cases heq
        · cases heq
    · rw [if_neg hconfigured] at heq
      cases hitem : w.db.item <;> rw [hitem] at heq <;> cases heq
  unfold gate completion
  dsimp only
  split
  · exact ⟨rfl, rfl⟩
  · exact ⟨rfl, rfl⟩
  · rename_i o heq
    exact absurd heq (hclaim o)

/-- The redeem, or the revoke, of the offer that the gate has claimed. -/
theorem settle_stands (made : Bool) {gate : Completion} (hL : L.Lawful)
    (h : Standing L w.db.order.id pre w.loyalty e)
    (hnamed : ∀ o ∈ gate.offerId, named L w.db.order.id pre w.loyalty = some o) :
    Standing L w.db.order.id pre (if made then w.afterRedeem L gate a else w.afterRevoke L gate a).loyalty
      (if gate.offerId.isSome ∧ a.settle.arrives ∧ e = some .claimed then some (settledAs made) else e) := by
  unfold afterRedeem afterRevoke
  cases hoffer : gate.offerId with
  | none => cases made <;> exact h
  | some o =>
    have hnamed := hnamed o hoffer
    cases h with
    | unclaimed hclaim hsettle =>
      rw [named, hclaim] at hnamed
      cases hnamed
    | @held _ st hheld hoffer hst hsettle =>
      have hstands : Standing L w.db.order.id pre w.loyalty (some st) := .held hheld hoffer hst hsettle
      have hstate : (if (some o).isSome ∧ a.settle.arrives ∧ some st = some .claimed then some (settledAs made)
          else some st) = some (if a.settle.arrives ∧ st = .claimed then settledAs made else st) := by
        split <;> simp_all
      rw [hstate]
      cases made
      · exact request_settles false a.settle hL hstands hnamed rfl
      · exact request_settles true a.settle hL hstands hnamed rfl

/-! ### The subscription that is created -/

theorem createBody_priceSnapshot (gate : Completion) :
    (Fields.get (createBody p gate) "priceSnapshot").bind Value.asObject = gate.priceSnapshot := by
  unfold createBody
  cases gate.priceSnapshot <;> rfl

theorem discounts_withPromo {it : ItemRow} (h : it.discountType.isSome) (ps : Snapshot) :
    discounts (withPromo it ps) = it.discountValue.isSome := by
  obtain ⟨t, ht⟩ := Option.isSome_iff_exists.mp h
  simp only [discounts, present, withPromo, Fields.get_insert, ht]
  cases it.discountValue <;> simp [optScalar]

theorem created_discounted (hL : L.Lawful) (h : Stands L w e) {created : Created}
    (hcreated : ((w.afterClaim L a).afterCreate p (w.gate L p a) a).subscription = some created) :
    created.discounted = endsDiscounted L w p a := by
  unfold endsDiscounted
  simp only [afterCreate, afterClaim_subscription] at hcreated
  cases hold : w.subscription with
  | some old =>
    rw [hold] at hcreated
    rw [Option.some.inj hcreated]
  | none =>
    rw [hold, Option.none_or] at hcreated
    obtain ⟨-, hnew⟩ := Option.ite_none_right_eq_some.mp hcreated
    obtain rfl := Option.some.inj hnew
    show ((Fields.get (createBody p (w.gate L p a)) "priceSnapshot").bind Value.asObject).any discounts = _
    rw [createBody_priceSnapshot]
    dsimp only
    split
    · rename_i hheard
      obtain ⟨it, o, hit, htype, -, hgate⟩ := gate_offerId (p := p) hL h hheard
      rw [hgate, hit]
      cases quoted w p with
      | none => rfl
      | some ps => simp [discounts_withPromo htype]
    · rename_i hheard
      rw [(gate_unheard (p := p) hL h hheard).2]

/-! ### How an attempt ends -/

theorem gate_named (hL : L.Lawful) (h : Stands L w e) :
    ∀ o ∈ (w.gate L p a).offerId,
      named L w.db.order.id (preOffer w.db.item) (w.afterClaim L a).loyalty = some o := by
  intro o ho
  by_cases hheard : Heard L w a
  · obtain ⟨it, o', -, -, hnamed, hgate⟩ := gate_offerId (p := p) hL h hheard
    rw [hgate] at ho
    cases ho
    exact hnamed
  · rw [(gate_unheard (p := p) hL h hheard).1] at ho
    cases ho

theorem stands_of_db {w₁ : PromoOrder σ} (hdb : w₁.db = w.db)
    (h : Standing L w.db.order.id (preOffer w.db.item) w₁.loyalty e) : Stands L w₁ e := by
  unfold Stands
  rw [hdb]
  exact h

theorem handleCompleted_cases (p : ServiceOrderCompleted) (a : Answers) (now : Time) (hL : L.Lawful)
    (h : Stands L w e) :
    ((w.handleCompleted L p a now).db = w.db ∧ ∃ e', Stands L (w.handleCompleted L p a now) e') ∨
      ∃ created db, ((w.afterClaim L a).afterCreate p (w.gate L p a) a).subscription = some created ∧
        completedCommit p (w.gate L p a) w.db.order w.db.item (some created.id) now w.db = .ok db ∧
        w.handleCompleted L p a now =
          { ((w.afterClaim L a).afterCreate p (w.gate L p a) a).afterRedeem L (w.gate L p a) a with db } := by
  have hdb : ((w.afterClaim L a).afterCreate p (w.gate L p a) a).db = w.db := afterClaim_db
  have hclaimed := afterClaim_stands (a := a) hL h
  have hsettled := fun made => settle_stands (w := (w.afterClaim L a).afterCreate p (w.gate L p a) a) (a := a) made
    hL (hdb ▸ hclaimed) (hdb ▸ gate_named (p := p) hL h)
  rw [hdb] at hsettled
  unfold handleCompleted
  split
  · dsimp only
    split
    · exact Or.inl ⟨afterClaim_db, _, stands_of_db afterClaim_db hclaimed⟩
    · unfold activate
      dsimp only
      split
      · exact Or.inl ⟨hdb, _, stands_of_db hdb hclaimed⟩
      · split
        · exact Or.inl ⟨by rw [afterRevoke_db, hdb], _, stands_of_db (by rw [afterRevoke_db, hdb]) (hsettled false)⟩
        · rename_i created hreply
          have hredeem : (((w.afterClaim L a).afterCreate p (w.gate L p a) a).afterRedeem L (w.gate L p a) a).db = w.db := by
            rw [afterRedeem_db, hdb]
          split
          · exact Or.inl ⟨hredeem, _, stands_of_db hredeem (hsettled true)⟩
          · split
            · rename_i db hcommit
              rw [afterClaim_db] at hcommit
              obtain ⟨-, hcreated⟩ := Option.ite_none_right_eq_some.mp hreply
              exact Or.inr ⟨created, db, hcreated, hcommit, rfl⟩
            · exact Or.inl ⟨hredeem, _, stands_of_db hredeem (hsettled true)⟩
  · exact Or.inl ⟨rfl, _, h⟩

theorem gate_isSome (hL : L.Lawful) (h : Stands L w e) : (w.gate L p a).offerId.isSome ↔ Heard L w a := by
  by_cases hheard : Heard L w a
  · obtain ⟨it, o, -, -, -, hgate⟩ := gate_offerId (p := p) hL h hheard
    rw [hgate]
    exact iff_of_true rfl hheard
  · rw [(gate_unheard (p := p) hL h hheard).1]
    exact iff_of_false (by simp) hheard

theorem commit_stands {created : Created} {db : OrderDb} (hL : L.Lawful) (h : Stands L w e)
    (hcommit : completedCommit p (w.gate L p a) w.db.order w.db.item (some created.id) now w.db = .ok db) :
    Stands L { ((w.afterClaim L a).afterCreate p (w.gate L p a) a).afterRedeem L (w.gate L p a) a with db }
      (committedState L w a e) := by
  have hdb : ((w.afterClaim L a).afterCreate p (w.gate L p a) a).db = w.db := afterClaim_db
  have hclaimed := afterClaim_stands (a := a) hL h
  have hnamed := gate_named (p := p) (a := a) hL h
  have hid : db.order.id = w.db.order.id := by rw [(completedCommit_eq_ok hcommit).1]
  have hoffer : preOffer db.item = (w.gate L p a).offerId.or (preOffer w.db.item) := by
    rw [completedCommit_preOffer hcommit]
    cases hitem : w.db.item with
    | some it => rfl
    | none =>
      have hunheard : ¬ Heard L w a := by
        rintro ⟨-, -, c, hc, -⟩
        rw [hitem] at hc
        cases hc
      rw [(gate_unheard (p := p) hL h hunheard).1]
      rfl
  have hnamed' : ∀ o ∈ (w.gate L p a).offerId,
      named L w.db.order.id ((w.gate L p a).offerId.or (preOffer w.db.item)) (w.afterClaim L a).loyalty = some o := by
    intro o ho
    rw [Option.mem_def.mp ho]
    exact named_rename (hnamed o ho)
  have hsettled := settle_stands (w := (w.afterClaim L a).afterCreate p (w.gate L p a) a) (a := a) true hL
    (hdb ▸ hclaimed.rename hnamed) (hdb ▸ hnamed')
  rw [hdb] at hsettled
  simp only [gate_isSome hL h] at hsettled
  unfold Stands
  rw [hid, hoffer]
  exact hsettled

/-! ## All runs -/

theorem committedState_iff {discounted : Bool} (he : e ≠ some .issued) :
    ((discounted ↔ committedState L w a e = some .redeemed) ∧
        (¬ discounted → committedState L w a e ≠ some .redeemed ∧ committedState L w a e ≠ some .claimed)) ↔
      if discounted then e = some .redeemed ∨ Heard L w a ∧ e ≠ some .revoked ∧ a.settle.arrives
      else e = some .revoked ∨ e = none ∧ ¬ Claims L w a := by
  have hclaims : Heard L w a → Claims L w a := fun ⟨hconfigured, hanswered, hgrants⟩ =>
    ⟨hconfigured, by rw [hanswered]; rfl, hgrants⟩
  unfold committedState claimedState
  by_cases hheard : Heard L w a <;> by_cases hclaim : Claims L w a <;> cases discounted <;>
    rcases e with _ | _ | _ | _ | _ <;> simp_all

theorem completed_follows {created : Created} {db : OrderDb} (hL : L.Lawful) (h : Stands L w e)
    (hcreated : ((w.afterClaim L a).afterCreate p (w.gate L p a) a).subscription = some created)
    (hcommit : completedCommit p (w.gate L p a) w.db.order w.db.item (some created.id) now w.db = .ok db)
    (hw' : w' = { ((w.afterClaim L a).afterCreate p (w.gate L p a) a).afterRedeem L (w.gate L p a) a with db }) :
    w'.db.order.state = .completed ∧ (Follows L w' ↔ CompletedTold L w p a) := by
  have hstate : w'.db.order.state = .completed := by
    rw [hw', (completedCommit_eq_ok hcommit).1]
  have hsubscription : w'.subscription = some created := by
    rw [hw']
    exact afterRedeem_subscription.trans hcreated
  have hentitlement : w'.entitlement L = committedState L w a e := hw' ▸ (commit_stands hL h hcommit).entitlement
  refine ⟨hstate, ?_⟩
  unfold Follows CompletedTold
  rw [hstate, hsubscription, hentitlement, h.entitlement, ← created_discounted hL h hcreated,
    ← committedState_iff h.ne_issued]
  simp

theorem failed_follows {reason : String} {db : OrderDb} (h : Stands L w e)
    (hcommit : failedCommit w.db.order w.db.item reason now w.db = .ok db) :
    db.order.state = .failed ∧
      (Follows L { w with db } ↔ w.entitlement L ≠ some .redeemed ∧ w.entitlement L ≠ some .claimed) := by
  obtain ⟨horder, -⟩ := failedCommit_eq_ok hcommit
  have hstate : db.order.state = .failed := by rw [horder]
  have hstands : Stands L { w with db } e := by
    unfold Stands
    rw [horder, failedCommit_preOffer hcommit]
    exact h
  refine ⟨hstate, ?_⟩
  unfold Follows
  rw [hstands.entitlement, h.entitlement, hstate]
  simp only [reduceCtorEq, false_and, true_or, forall_const, false_iff]
  tauto

theorem step_cases (hL : L.Lawful) (h : Stands L w e) (l : Label σ) :
    ((w.step L l).db = w.db ∧ ∃ e', Stands L (w.step L l) e') ∨
      (w.step L l).db.order.state.Terminal ∧ (Follows L (w.step L l) ↔ Told L w l) := by
  cases l with
  | completed p a now =>
    rcases handleCompleted_cases p a now hL h with hstays | ⟨created, db, hcreated, hcommit, hw'⟩
    · exact Or.inl hstays
    · obtain ⟨hstate, hfollows⟩ := completed_follows hL h hcreated hcommit hw'
      refine Or.inr ⟨?_, hfollows⟩
      rw [step, hstate]
      decide
  | failed commercialOrderId reason now commits =>
    simp only [step, handleFailed]
    split
    · split
      · rename_i db hcommit
        obtain ⟨hstate, hfollows⟩ := failed_follows h hcommit
        refine Or.inr ⟨?_, hfollows⟩
        rw [hstate]
        decide
      · exact Or.inl ⟨rfl, e, h⟩
    · exact Or.inl ⟨rfl, e, h⟩
  | elsewhere loyalty =>
    simp only [step]
    split
    · rename_i hapart
      exact Or.inl ⟨rfl, e, h.apart hapart⟩
    · exact Or.inl ⟨rfl, e, h⟩

theorem step_settled (hterm : w.db.order.state.Terminal) (l : Label σ) :
    (w.step L l).db = w.db ∧ (w.step L l).subscription = w.subscription ∧
      (w.step L l).entitlement L = w.entitlement L := by
  have hnot : w.db.order.state ≠ .inProgress := by
    intro hstate
    rw [hstate] at hterm
    exact absurd hterm (by decide)
  cases l with
  | completed p a now =>
    rw [step, handleCompleted, if_neg fun hawaits => hnot hawaits.1]
    exact ⟨rfl, rfl, rfl⟩
  | failed commercialOrderId reason now commits =>
    rw [step, handleFailed, if_neg fun hboth => hnot hboth.1.1]
    exact ⟨rfl, rfl, rfl⟩
  | elsewhere loyalty =>
    simp only [step]
    split
    · rename_i hapart
      exact ⟨rfl, rfl, hapart.2⟩
    · exact ⟨rfl, rfl, rfl⟩

theorem run_settled (hterm : w.db.order.state.Terminal) (ls : List (Label σ)) :
    (run L w ls).db = w.db ∧ (run L w ls).subscription = w.subscription ∧
      (run L w ls).entitlement L = w.entitlement L := by
  induction ls generalizing w with
  | nil => exact ⟨rfl, rfl, rfl⟩
  | cons l ls ih =>
    obtain ⟨hdb, hsubscription, hentitlement⟩ := step_settled (L := L) hterm l
    obtain ⟨hdb', hsubscription', hentitlement'⟩ := ih (w := w.step L l) (hdb ▸ hterm)
    exact ⟨hdb'.trans hdb, hsubscription'.trans hsubscription, hentitlement'.trans hentitlement⟩

theorem run_stands (hL : L.Lawful) (h : Stands L w e) (ls : List (Label σ))
    (hlive : ¬ (run L w ls).db.order.state.Terminal) : ∃ e', Stands L (run L w ls) e' := by
  induction ls generalizing w e with
  | nil => exact ⟨e, h⟩
  | cons l ls ih =>
    rcases step_cases hL h l with ⟨-, e', h'⟩ | ⟨hterm, -⟩
    · exact ih h' hlive
    · rw [show run L w (l :: ls) = run L (w.step L l) ls from rfl, (run_settled hterm ls).1] at hlive
      exact absurd hterm hlive

end Attempt

/-- **The entitlement follows the order if and only if the step that settled the order was
told what it needs**, in every run, however it goes on. -/
theorem entitlement_follows (L : LoyaltyService σ) (hL : L.Lawful) (w₀ w w' : PromoOrder σ)
    (hfresh : ∀ k ∈ w₀.keys, L.replied w₀.loyalty k = none) (ls ms : List (Label σ)) (l : Label σ)
    (hw : run L w₀ ls = w) (hw' : w.step L l = w') (hlive : ¬ w.db.order.state.Terminal)
    (hsettled : w'.db.order.state.Terminal) : Follows L (run L w' ms) ↔ Told L w l := by
  have h₀ : Stands L w₀ none := by
    refine .unclaimed (hfresh _ (by simp [keys])) fun made => ?_
    cases made <;> exact hfresh _ (by simp [keys, settleKey])
  obtain ⟨e, h⟩ : ∃ e, Stands L w e := hw ▸ run_stands hL h₀ ls (hw ▸ hlive)
  obtain ⟨hdb, hsubscription, hentitlement⟩ := run_settled (L := L) hsettled ms
  unfold Follows
  rw [hdb, hsubscription, hentitlement]
  rcases step_cases hL h l with ⟨hsame, -⟩ | ⟨-, hfollows⟩
  · rw [← hw', hsame] at hsettled
    exact absurd hsettled hlive
  · rw [hw'] at hfollows
    exact hfollows

/-! ## A loyalty service -/

/-- What each call does the first time. A typed code is good for one offer to each customer. -/
def sampleAct (c : LoyaltyCall) (offers : String → Option OfferState) :
    Except ClientError ((String → Option OfferState) × Option String) :=
  let move (o : String) (source : Option OfferState) (target : OfferState) :=
    if offers o = source then .ok (Function.update offers o (some target), some o)
    else .error (.policy ⟨"loyalty.refused", "", []⟩)
  match c with
  | .advanceToClaimed o _ => move o (some .issued) .claimed
  | .claim customerId code => move s!"OFR-{customerId}-{code}" none .claimed
  | .redeem o _ => move o (some .claimed) .redeemed
  | .revoke o _ => move o (some .claimed) .revoked

def sampleLoyalty : LoyaltyService (Ledger String (Option String) (String → Option OfferState)) :=
  { serve sampleAct with offer := fun s o => s.state o }

theorem sampleLoyalty_lawful : sampleLoyalty.Lawful where
  idempotent := serve_idempotent sampleAct
  claims {s k c r} hc hfresh h := by
    change s.replies k = none at hfresh
    change ((serve sampleAct).call k c s).2 = .ok r at h
    show ∃ o, c.claims r = some o ∧ ((serve sampleAct).call k c s).1.state o = some .claimed
    cases c with
    | advanceToClaimed o orderRef =>
      simp only [serve, hfresh, sampleAct] at h ⊢
      by_cases hissued : s.state o = some .issued
      · simp only [if_pos hissued] at h ⊢
        exact ⟨o, rfl, Function.update_self ..⟩
      · simp [hissued] at h
    | claim customerId code =>
      simp only [serve, hfresh, sampleAct] at h ⊢
      by_cases hnone : s.state s!"OFR-{customerId}-{code}" = none
      · simp only [if_pos hnone] at h ⊢
        exact ⟨_, (Except.ok.inj h).symm, Function.update_self ..⟩
      · simp [hnone] at h
    | redeem o orderRef => cases hc
    | revoke o reason => cases hc
  settles {s k c o st} hc hfresh hoffer := by
    change s.replies k = none at hfresh
    change s.state o = _ at hoffer
    show (∃ r, ((serve sampleAct).call k c s).2 = .ok r) ∧ ((serve sampleAct).call k c s).1.state o = some st
    cases c with
    | advanceToClaimed o orderRef => cases hc
    | claim customerId code => cases hc
    | redeem o orderRef =>
      cases hc
      simp [serve, hfresh, sampleAct, hoffer]
    | revoke o reason =>
      cases hc
      simp [serve, hfresh, sampleAct, hoffer]
  settled {s k c o st} hc hfresh hoffer := by
    change s.replies k = none at hfresh
    change s.state o = _ ∨ s.state o = _ at hoffer
    show ∃ e, ((serve sampleAct).call k c s).2 = .error e
    cases c with
    | advanceToClaimed o orderRef => cases hc
    | claim customerId code => cases hc
    | redeem o orderRef =>
      cases hc
      rcases hoffer with hoffer | hoffer <;> simp [serve, hfresh, sampleAct, hoffer]
    | revoke o reason =>
      cases hc
      rcases hoffer with hoffer | hoffer <;> simp [serve, hfresh, sampleAct, hoffer]

def sampleItem : ItemRow :=
  ⟨"OI-0001", "PLAN_M", .acknowledged, none, some 25, some "SGD", some "POP-1", some "SUMMER25",
    some "OD-1", some "percent", some 25, some 3, none⟩

def sampleOrder : PromoOrder (Ledger String (Option String) (String → Option OfferState)) where
  db := ⟨⟨"ORD-0001", "CUST-1", .inProgress, none, none⟩, [sampleItem], [], []⟩
  loyalty := ⟨fun _ => none, fun _ => none⟩
  subscription := none

def sampleCompleted : ServiceOrderCompleted :=
  ⟨"ORD-0001", "CUST-1", "PLAN_M", "90000042", "8965", "PM-1", "SVC-0001", none⟩

def calm : Answers := ⟨true, .answered, .answered, true, "SUB-0001", .answered, .commit⟩

def attempt (a : Answers) : Label (Ledger String (Option String) (String → Option OfferState)) :=
  .completed sampleCompleted a 5

/-- The worker crashes after the subscription is created, and the event is delivered again. -/
theorem entitlement_follows_redelivered :
    let w := run sampleLoyalty sampleOrder [attempt { calm with last := .create }, attempt calm]
    w.db.order.state = .completed ∧ w.entitlement sampleLoyalty = some .redeemed ∧ Follows sampleLoyalty w := by
  refine ⟨by decide +kernel, by decide +kernel, ?_⟩
  have hfollows := entitlement_follows sampleLoyalty sampleLoyalty_lawful sampleOrder _ _ (by decide)
    [attempt { calm with last := .create }] [] (attempt calm) rfl rfl (by decide +kernel) (by decide +kernel)
  exact hfollows.mpr (by decide +kernel)

/-- The entitlement is revoked when the first create fails, and the second attempt claims it
again. A redeem is lost. The reply to a claim is lost. A crash comes before the failure of
the service order. -/
theorem entitlement_left :
    sampleLoyalty.Lawful ∧
      (∃ w, run sampleLoyalty sampleOrder [attempt { calm with creates := false }, attempt calm] = w ∧
        w.db.order.state = .completed ∧ (∃ s ∈ w.subscription, s.discounted) ∧
        w.entitlement sampleLoyalty = some .revoked ∧ ¬ Follows sampleLoyalty w) ∧
      (∃ w, run sampleLoyalty sampleOrder [attempt { calm with settle := .requestLost }] = w ∧
        w.db.order.state = .completed ∧ (∃ s ∈ w.subscription, s.discounted) ∧
        w.entitlement sampleLoyalty = some .claimed ∧ ¬ Follows sampleLoyalty w) ∧
      (∃ w, run sampleLoyalty sampleOrder [attempt { calm with claim := .replyLost }] = w ∧
        w.db.order.state = .completed ∧ (∃ s ∈ w.subscription, ¬ s.discounted) ∧
        w.entitlement sampleLoyalty = some .claimed ∧ ¬ Follows sampleLoyalty w) ∧
      ∃ w, run sampleLoyalty sampleOrder [attempt { calm with last := .claim }, .failed "ORD-0001" "late" 6 true] = w ∧
        w.db.order.state = .failed ∧ w.entitlement sampleLoyalty = some .claimed ∧ ¬ Follows sampleLoyalty w :=
  ⟨sampleLoyalty_lawful, ⟨_, rfl, by decide +kernel⟩, ⟨_, rfl, by decide +kernel⟩, ⟨_, rfl, by decide +kernel⟩,
    ⟨_, rfl, by decide +kernel⟩⟩

end BssCli.Com.Entitlement
