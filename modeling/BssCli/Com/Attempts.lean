import BssCli.Com.Loyalty

/-!
# An order with a promo, attempt by attempt

A handler holds the row of the order from its read to its commit, so the attempts on one
order come one after the other. What an attempt did at loyalty and at the subscription
service stays, however the attempt ends.
-/

namespace BssCli.Com

open Keyed

/-! ## What was created -/

/-- The field is there and is not `null`. -/
def present (ps : Snapshot) (key : String) : Bool := (Fields.get ps key).any fun v => v ≠ .null

/-- The charge is lower with a type and a value. -/
def discounts (ps : Snapshot) : Bool := present ps "discountType" && present ps "discountValue"

/-- The subscription of an order, and the request that created it. -/
structure Created where
  id : String
  request : Object

def Created.discounted (s : Created) : Bool :=
  ((Fields.get s.request "priceSnapshot").bind Value.asObject).any discounts

structure PromoOrder (σ : Type) where
  db : OrderDb
  loyalty : σ
  subscription : Option Created

/-- The last thing that an attempt does before it crashes or a write of it fails. -/
inductive Last
  | claim
  | create
  | settle
  | commit
  deriving DecidableEq

structure Answers where
  /-- There is a loyalty client. -/
  configured : Bool
  claim : Reach
  create : Reach
  /-- The checks pass and the charge is approved. -/
  creates : Bool
  subscriptionId : String
  /-- Of the redeem or the revoke. -/
  settle : Reach
  last : Last

namespace PromoOrder

variable {σ : Type} (L : LoyaltyService σ) (w : PromoOrder σ)

/-! ## The service order has completed -/

def gate (p : ServiceOrderCompleted) (a : Answers) : Completion :=
  completion (if a.configured then some (L.client a.claim w.loyalty) else none) p w.db.order w.db.item

def afterClaim (a : Answers) : PromoOrder σ :=
  match claimCall w.db.order w.db.item with
  | none => w
  | some c =>
    if a.configured then { w with loyalty := (L.request a.claim (claimKey w.db.order.id) c w.loyalty).1 } else w

/-- `subscription.create` returns the subscription that the order has, else it creates one. -/
def afterCreate (p : ServiceOrderCompleted) (c : Completion) (a : Answers) : PromoOrder σ :=
  let new := if a.create.arrives ∧ a.creates then some ⟨a.subscriptionId, createBody p c⟩ else none
  { w with subscription := w.subscription.or new }

def reply (a : Answers) : Option Created := if a.create = .answered then w.subscription else none

def afterRedeem (c : Completion) (a : Answers) : PromoOrder σ :=
  match c.offerId with
  | none => w
  | some o => { w with loyalty := L.redeemEntitlement a.settle o w.db.order.id w.loyalty }

def afterRevoke (c : Completion) (a : Answers) : PromoOrder σ :=
  match c.offerId with
  | none => w
  | some o => { w with loyalty := L.revokeEntitlement a.settle o w.db.order.id w.loyalty }

/-- An order in progress, and a message about it. -/
def Awaits (commercialOrderId : String) : Prop :=
  w.db.order.state = .inProgress ∧ w.db.order.id = commercialOrderId

instance (commercialOrderId : String) : Decidable (w.Awaits commercialOrderId) := inferInstanceAs (Decidable (_ ∧ _))

/-- `handle_service_order_completed`, past the promo gate. -/
def activate (p : ServiceOrderCompleted) (c : Completion) (a : Answers) (now : Time) : PromoOrder σ :=
  let created := w.afterCreate p c a
  if a.last = .create then created
  else
    match created.reply a with
    | none => created.afterRevoke L c a
    | some s =>
      let redeemed := created.afterRedeem L c a
      if a.last = .settle then redeemed
      else
        match completedCommit p c w.db.order w.db.item (some s.id) now w.db with
        | .ok db => { redeemed with db }
        | .error _ => redeemed

def handleCompleted (p : ServiceOrderCompleted) (a : Answers) (now : Time) : PromoOrder σ :=
  if w.Awaits p.commercialOrderId then
    let claimed := w.afterClaim L a
    if a.last = .claim then claimed else claimed.activate L p (w.gate L p a) a now
  else w

section Frame

variable {L w} {p : ServiceOrderCompleted} {c : Completion} {a : Answers}

@[simp]
theorem afterClaim_db : (w.afterClaim L a).db = w.db := by
  unfold afterClaim
  split
  · rfl
  · split <;> rfl

@[simp]
theorem afterClaim_subscription : (w.afterClaim L a).subscription = w.subscription := by
  unfold afterClaim
  split
  · rfl
  · split <;> rfl

@[simp]
theorem afterRedeem_db : (w.afterRedeem L c a).db = w.db := by
  unfold afterRedeem
  split <;> rfl

@[simp]
theorem afterRedeem_subscription : (w.afterRedeem L c a).subscription = w.subscription := by
  unfold afterRedeem
  split <;> rfl

@[simp]
theorem afterRevoke_db : (w.afterRevoke L c a).db = w.db := by
  unfold afterRevoke
  split <;> rfl

end Frame

/-! ## The service order has failed -/

def handleFailed (commercialOrderId reason : String) (now : Time) (commits : Bool) : PromoOrder σ :=
  if w.Awaits commercialOrderId ∧ commits then
    match failedCommit w.db.order w.db.item reason now w.db with
    | .ok db => { w with db }
    | .error _ => w
  else w

/-! ## Runs -/

/-- What loyalty has of the offer that was claimed for the order. -/
def entitlement : Option OfferState :=
  (L.replied w.loyalty (claimKey w.db.order.id)).bind fun r => ((preOffer w.db.item).or r).bind (L.offer w.loyalty)

def keys : List String :=
  [claimKey w.db.order.id, s!"{w.db.order.id}:redeem", s!"{w.db.order.id}:revoke"]

inductive Label (σ : Type)
  | completed (p : ServiceOrderCompleted) (a : Answers) (now : Time)
  | failed (commercialOrderId reason : String) (now : Time) (commits : Bool)
  /-- The calls of everyone else, under other keys and for other offers. -/
  | elsewhere (loyalty : σ)

def Apart (loyalty : σ) : Prop :=
  (∀ k ∈ w.keys, L.replied loyalty k = L.replied w.loyalty k) ∧
    { w with loyalty }.entitlement L = w.entitlement L

instance (loyalty : σ) : Decidable (w.Apart L loyalty) := inferInstanceAs (Decidable ((∀ k ∈ _, _) ∧ _))

def step : Label σ → PromoOrder σ
  | .completed p a now => w.handleCompleted L p a now
  | .failed commercialOrderId reason now commits => w.handleFailed commercialOrderId reason now commits
  | .elsewhere loyalty => if w.Apart L loyalty then { w with loyalty } else w

def run (ls : List (Label σ)) : PromoOrder σ := ls.foldl (step L) w

end PromoOrder

/-! ## The item that a commit leaves -/

theorem item_updateItem (db : OrderDb) (id : String) (f : ItemRow → ItemRow) :
    (db.updateItem id f).item = db.item.map fun it => if it.id = id then f it else it := List.head?_map ..

theorem completedCommit_preOffer {p : ServiceOrderCompleted} {c : Completion} {order : OrderRow}
    {subscriptionId : Option String} {now : Time} {db db' : OrderDb}
    (h : completedCommit p c order db.item subscriptionId now db = .ok db') :
    preOffer db'.item = db.item.bind fun it => c.offerId.or it.promoOfferId := by
  simp only [completedCommit, bind_eq_ok] at h
  obtain ⟨⟨⟩, -, h⟩ := h
  cases h
  have hrefused : (if c.refused = true then
      db.stage "order.promo_not_applied" (promoNotAppliedPayload p order db.item) else db).item = db.item := by
    split <;> rfl
  cases hitem : db.item with
  | none => exact congrArg preOffer (hitem ▸ hrefused)
  | some it =>
    refine (congrArg preOffer ((item_updateItem ..).trans (congrArg _ (hitem ▸ hrefused)))).trans ?_
    simp [preOffer]

theorem failedCommit_preOffer {order : OrderRow} {reason : String} {now : Time} {db db' : OrderDb}
    (h : failedCommit order db.item reason now db = .ok db') : preOffer db'.item = preOffer db.item := by
  simp only [failedCommit, bind_eq_ok] at h
  obtain ⟨⟨⟩, -, h⟩ := h
  cases h
  cases hitem : db.item with
  | none => exact congrArg preOffer hitem
  | some it =>
    refine (congrArg preOffer (item_updateItem ..)).trans ?_
    show preOffer (db.item.map _) = _
    simp [preOffer, hitem]

end BssCli.Com
