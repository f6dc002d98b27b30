import BssCli.Com.Service
import BssCli.Lib.Keyed

/-!
# The entitlement of an order

Loyalty is a service of its own. The order service claims an offer for an order, and then
redeems or revokes it. Each of the three calls has one key for each order.
-/

namespace BssCli.Com

open Keyed

inductive LoyaltyCall
  | advanceToClaimed (offerId orderRef : String)
  | claim (customerId code : String)
  | redeem (offerId orderRef : String)
  | revoke (offerId reason : String)

inductive OfferState
  | issued
  | claimed
  | redeemed
  | revoked
  deriving DecidableEq

namespace LoyaltyCall

def tool : LoyaltyCall → String
  | .advanceToClaimed _ _ => "offer.advance_to_claimed"
  | .claim _ _ => "offer.claim"
  | .redeem _ _ => "offer.redeem"
  | .revoke _ _ => "offer.revoke"

/-- The offer that a granted claim is for. `r` is the offer id of the reply. -/
def claims : LoyaltyCall → Option String → Option String
  | .advanceToClaimed offerId _, _ => some offerId
  | .claim _ _, r => r
  | .redeem _ _, _ | .revoke _ _, _ => none

def isClaim : LoyaltyCall → Bool
  | .advanceToClaimed _ _ | .claim _ _ => true
  | .redeem _ _ | .revoke _ _ => false

/-- What a claimed offer becomes. -/
def settles : LoyaltyCall → Option (String × OfferState)
  | .redeem offerId _ => some (offerId, .redeemed)
  | .revoke offerId _ => some (offerId, .revoked)
  | .advanceToClaimed _ _ | .claim _ _ => none

end LoyaltyCall

structure LoyaltyService (σ : Type) extends Service σ String LoyaltyCall (Option String) ClientError where
  offer : σ → String → Option OfferState

namespace LoyaltyService

variable {σ : Type} (L : LoyaltyService σ)

/-- A claim that is granted leaves its offer claimed. A claimed offer can be redeemed or
revoked, and stays as it is then. -/
structure Lawful : Prop where
  idempotent : L.Idempotent
  claims : ∀ {s k c r}, c.isClaim → L.replied s k = none → (L.call k c s).2 = .ok r →
    ∃ o, c.claims r = some o ∧ L.offer (L.call k c s).1 o = some .claimed
  settles : ∀ {s k c o st}, c.settles = some (o, st) → L.replied s k = none → L.offer s o = some .claimed →
    (∃ r, (L.call k c s).2 = .ok r) ∧ L.offer (L.call k c s).1 o = some st
  settled : ∀ {s k c o st}, c.settles = some (o, st) → L.replied s k = none →
    L.offer s o = some .redeemed ∨ L.offer s o = some .revoked → ∃ e, (L.call k c s).2 = .error e

/-! ## The calls of the order service -/

def request (reach : Reach) (key : String) (c : LoyaltyCall) (s : σ) : σ × Except ClientError (Option String) :=
  L.send reach (.timeout s!"POST /v1/tools/{c.tool} timed out") key c s

/-- Loyalty as a handler finds it. -/
def client (reach : Reach) (s : σ) : Loyalty where
  advanceOfferToClaimed offerId key orderId :=
    (L.request reach key (.advanceToClaimed offerId orderId) s).2.map fun _ => ()
  claimOffer customerId code key := (L.request reach key (.claim customerId code) s).2

def redeemEntitlement (reach : Reach) (offerId orderId : String) (s : σ) : σ :=
  (L.request reach s!"{orderId}:redeem" (.redeem offerId orderId) s).1

def revokeEntitlement (reach : Reach) (offerId orderId : String) (s : σ) : σ :=
  (L.request reach s!"{orderId}:revoke" (.revoke offerId "order_cancelled") s).1

end LoyaltyService

def claimKey (orderId : String) : String := s!"{orderId}:claim"

/-- The call that `claim_entitlement` makes. -/
def claimCall (order : OrderRow) (item : Option ItemRow) : Option LoyaltyCall :=
  item.bind fun item =>
    if item.discountType.isNone ∨ item.discountCode.isNone then none
    else some (match item.promoOfferId with
      | some preOffer => .advanceToClaimed preOffer order.id
      | none => .claim order.customerId (item.discountCode.getD ""))

/-- The offer that was paired with the customer in advance. -/
def preOffer (item : Option ItemRow) : Option String := item.bind ItemRow.promoOfferId

section Claim

variable {σ : Type} {L : LoyaltyService σ} {order : OrderRow} {item : Option ItemRow} {c : LoyaltyCall}

theorem claimCall_isClaim (h : claimCall order item = some c) : c.isClaim := by
  obtain ⟨it, -, h⟩ := Option.bind_eq_some_iff.mp h
  obtain ⟨-, h⟩ := Option.ite_none_left_eq_some.mp h
  cases h
  cases it.promoOfferId <;> rfl

theorem claimCall_claims (h : claimCall order item = some c) (r : Option String) :
    c.claims r = (preOffer item).or r := by
  obtain ⟨it, rfl, h⟩ := Option.bind_eq_some_iff.mp h
  obtain ⟨-, h⟩ := Option.ite_none_left_eq_some.mp h
  cases h
  show _ = it.promoOfferId.or r
  cases it.promoOfferId <;> rfl

theorem claimEntitlement_client (reach : Reach) (s : σ) :
    claimEntitlement (some (L.client reach s)) order item =
      match claimCall order item with
      | none => .ok none
      | some c => (L.request reach (claimKey order.id) c s).2.map (preOffer item).or := by
  cases item with
  | none => rfl
  | some it =>
    simp only [claimEntitlement, claimCall, preOffer, Option.bind_some]
    split
    · rfl
    · simp only [LoyaltyService.client, claimKey]
      cases it.promoOfferId with
      | none =>
        dsimp only
        cases (L.request reach s!"{order.id}:claim" (.claim order.customerId (it.discountCode.getD "")) s).2 <;> rfl
      | some o =>
        dsimp only
        cases (L.request reach s!"{order.id}:claim" (.advanceToClaimed o order.id) s).2 <;> rfl

end Claim

end BssCli.Com

/-!
# What loyalty has of one order

Nothing is claimed under the key of the order, or the offer that was claimed is claimed
still, redeemed or revoked. A call under one of the three keys goes from one of these to the
next.
-/

namespace BssCli.Com.Entitlement

open Keyed

variable {σ : Type} {L : LoyaltyService σ}

/-- The key of the redeem, or of the revoke. -/
def settleKey (id : String) (made : Bool) : String := if made then s!"{id}:redeem" else s!"{id}:revoke"

def settledAs (made : Bool) : OfferState := if made then .redeemed else .revoked

theorem settledAs_inj {made made' : Bool} : settledAs made = settledAs made' ↔ made' = made := by
  cases made <;> cases made' <;> decide

theorem settledAs_ne_claimed (made : Bool) : settledAs made ≠ .claimed := by cases made <;> decide

/-- The offer that was claimed for the order. -/
def named (L : LoyaltyService σ) (id : String) (pre : Option String) (s : σ) : Option String :=
  (L.replied s (claimKey id)).bind fun r => pre.or r

inductive Standing (L : LoyaltyService σ) (id : String) (pre : Option String) (s : σ) : Option OfferState → Prop
  | unclaimed (hclaim : L.replied s (claimKey id) = none) (hsettle : ∀ made, L.replied s (settleKey id made) = none) :
    Standing L id pre s none
  | held {o : String} {st : OfferState} (hnamed : named L id pre s = some o) (hoffer : L.offer s o = some st)
    (hst : st ≠ .issued) (hsettle : ∀ made, (L.replied s (settleKey id made)).isSome ↔ st = settledAs made) :
    Standing L id pre s (some st)

theorem claimKey_ne (id : String) (made : Bool) : claimKey id ≠ settleKey id made := by
  cases made <;> simp [claimKey, settleKey] <;> decide

theorem settleKey_ne {id : String} {made made' : Bool} (h : made' ≠ made) : settleKey id made' ≠ settleKey id made := by
  cases made <;> cases made' <;> simp_all [settleKey] <;> decide

variable {id : String} {pre : Option String} {s : σ} {e : Option OfferState} {c : LoyaltyCall}

theorem Standing.claim (hL : L.Lawful) (h : Standing L id pre s e) (hc : c.isClaim)
    (hclaims : ∀ r, c.claims r = pre.or r) :
    (∃ r o, (L.call (claimKey id) c s).2 = .ok r ∧ pre.or r = some o ∧
        named L id pre (L.call (claimKey id) c s).1 = some o ∧
        Standing L id pre (L.call (claimKey id) c s).1 (e.or (some .claimed))) ∨
      e = none ∧ (∃ x, (L.call (claimKey id) c s).2 = .error x) ∧ (L.call (claimKey id) c s).1 = s := by
  cases h with
  | @held o st hnamed hoffer hst hsettle =>
    obtain ⟨r, hr, ho⟩ := Option.bind_eq_some_iff.mp hnamed
    rw [hL.idempotent.repeats c hr]
    exact Or.inl ⟨r, o, rfl, ho, hnamed, .held hnamed hoffer hst hsettle⟩
  | unclaimed hclaim hsettle =>
    cases hreply : (L.call (claimKey id) c s).2 with
    | error x => exact Or.inr ⟨rfl, ⟨x, rfl⟩, hL.idempotent.refuses hreply⟩
    | ok r =>
      obtain ⟨o, ho, hoffer⟩ := hL.claims hc hclaim hreply
      rw [hclaims] at ho
      have hnamed : named L id pre (L.call (claimKey id) c s).1 = some o := by
        rw [named, hL.idempotent.keeps hreply]
        exact ho
      refine Or.inl ⟨r, o, rfl, ho, hnamed, .held hnamed hoffer (by decide) fun made => ?_⟩
      rw [hL.idempotent.others c (claimKey_ne id made).symm, hsettle made]
      exact iff_of_false (by simp) (settledAs_ne_claimed made).symm

theorem Standing.settle {o : String} {st : OfferState} (made : Bool) (hL : L.Lawful)
    (h : Standing L id pre s (some st)) (hnamed : named L id pre s = some o)
    (hc : c.settles = some (o, settledAs made)) :
    Standing L id pre (L.call (settleKey id made) c s).1 (some (if st = .claimed then settledAs made else st)) := by
  cases h with
  | @held o' _ hnamed' hoffer hst hsettle =>
    obtain rfl : o = o' := Option.some.inj (hnamed.symm.trans hnamed')
    cases hreplied : L.replied s (settleKey id made) with
    | some r =>
      have hdone : st = settledAs made := (hsettle made).mp (by rw [hreplied]; rfl)
      have hnot : st ≠ .claimed := hdone ▸ settledAs_ne_claimed made
      rw [hL.idempotent.repeats c hreplied, if_neg hnot]
      exact .held hnamed hoffer hst hsettle
    | none =>
      have hnotyet : st ≠ settledAs made := fun hdone => by
        have := (hsettle made).mpr hdone
        rw [hreplied] at this
        simp at this
      by_cases hclaimed : st = .claimed
      · rw [if_pos hclaimed]
        obtain ⟨⟨r, hr⟩, hbecomes⟩ := hL.settles hc hreplied (hclaimed ▸ hoffer)
        have hothers := fun k (hk : k ≠ settleKey id made) => hL.idempotent.others (s := s) c hk
        refine .held (o := o) ?_ hbecomes ?_ fun made' => ?_
        · rw [named, hothers _ (claimKey_ne id made)]
          exact hnamed
        · cases made <;> decide
        · by_cases hmade : made' = made
          · rw [hmade, hL.idempotent.keeps hr]
            simp
          · rw [hothers _ (settleKey_ne hmade), hsettle made', hclaimed, settledAs_inj]
            exact iff_of_false (settledAs_ne_claimed made').symm hmade
      · rw [if_neg hclaimed]
        have hfinal : L.offer s o = some .redeemed ∨ L.offer s o = some .revoked := by
          rw [hoffer]
          cases st with
          | issued => exact absurd rfl hst
          | claimed => exact absurd rfl hclaimed
          | redeemed => exact Or.inl rfl
          | revoked => exact Or.inr rfl
        obtain ⟨x, hx⟩ := hL.settled hc hreplied hfinal
        rw [hL.idempotent.refuses hx]
        exact .held hnamed hoffer hst hsettle

theorem named_rename {o : String} (h : named L id pre s = some o) : named L id ((some o).or pre) s = some o := by
  obtain ⟨r, hr, -⟩ := Option.bind_eq_some_iff.mp h
  rw [named, hr]
  rfl

theorem Standing.rename {off : Option String} (h : Standing L id pre s e)
    (hnamed : ∀ o ∈ off, named L id pre s = some o) : Standing L id (off.or pre) s e := by
  cases off with
  | none => exact h
  | some o =>
    have ho := hnamed o rfl
    cases h with
    | unclaimed hclaim hsettle => exact .unclaimed hclaim hsettle
    | @held o' st hheld hoffer hst hsettle =>
      obtain rfl : o = o' := Option.some.inj (ho.symm.trans hheld)
      exact .held (named_rename ho) hoffer hst hsettle

theorem request_settles {o : String} {st : OfferState} (made : Bool) (reach : Reach) (hL : L.Lawful)
    (h : Standing L id pre s (some st)) (hnamed : named L id pre s = some o)
    (hc : c.settles = some (o, settledAs made)) :
    Standing L id pre (L.request reach (settleKey id made) c s).1
      (some (if reach.arrives ∧ st = .claimed then settledAs made else st)) := by
  show Standing L id pre (L.send _ _ _ _ _).1 _
  rw [Service.send_fst]
  by_cases harrives : reach.arrives = true
  · rw [if_pos harrives]
    simpa [harrives] using Standing.settle made hL h hnamed hc
  · rw [if_neg harrives, if_neg (fun hboth => harrives hboth.1)]
    exact h

end BssCli.Com.Entitlement
