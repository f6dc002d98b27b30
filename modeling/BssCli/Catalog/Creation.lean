import BssCli.Catalog.Create
import BssCli.Lib.Keyed
import BssCli.Lib.Pool
import BssCli.Lib.Steps
import BssCli.Lib.Table
import BssCli.Subscription.Policies

/-!
# The creation of a promotion

`create_promotion` writes a pending row, registers the offer and its code with loyalty, and
confirms the row. A call that finds a pending row goes on from there. It may stop anywhere, and
calls run side by side.
-/

namespace BssCli.Catalog.Promo

open Money Keyed
open Subscription (numeric12)

inductive PromotionState
  | pendingLink
  | active
  | retired
  | exhausted
  deriving DecidableEq

def PromotionState.name : PromotionState → String
  | pendingLink => "pending_link"
  | active => "active"
  | retired => "retired"
  | exhausted => "exhausted"

structure PromotionRow where
  id : String
  code : Option String
  name : Option String
  audience : String
  offerDefinitionId : Option String
  discountType : String
  discountValue : Decimal
  currency : String
  applicableOfferingIds : Option (List String)
  durationKind : String
  periodsTotal : Option I16
  validFrom : Option Time
  validTo : Option Time
  state : PromotionState
  createdBy : String

abbrev Promotions := Table PromotionRow.id (fun id : String => id)

def getByCode (code : String) (promotions : Promotions) : Option PromotionRow :=
  promotions.rows.find? fun r => r.code = some code

/-- The columns and the two unique indexes. -/
def insertPromotion (row : PromotionRow) (promotions : Promotions) : Except ApiError Promotions := do
  let discountValue ← numeric12 row.discountValue
  if ∃ code ∈ row.code, (getByCode code promotions).isSome then
    .error (dbError "duplicate key value violates unique constraint \"uq_promotion_code\"")
  else
    match promotions.insert { row with discountValue } with
    | some promotions => .ok promotions
    | none => .error (dbError "duplicate key value violates unique constraint \"pk_promotion\"")

def pendingRow (req : CreatePromotion) (actor : String) : PromotionRow where
  id := req.promotionId
  code := req.code
  name := req.displayName
  audience := req.audience
  offerDefinitionId := none
  discountType := req.discountType
  discountValue := req.discountValue
  currency := req.currency
  applicableOfferingIds := req.applicableOfferingIds
  durationKind := req.durationKind
  periodsTotal := req.periodsTotal
  validFrom := req.validFrom
  validTo := req.validTo
  state := .pendingLink
  createdBy := actor

def offerDefinitionIdFor (promotionId : String) : String := s!"OD_{promotionId}"

def PromotionRow.confirm (r : PromotionRow) : PromotionRow :=
  { r with offerDefinitionId := some (offerDefinitionIdFor r.id), state := .active }

theorem confirm_id (r : PromotionRow) : r.confirm.id = r.id := rfl

def PromotionRow.exhaust (r : PromotionRow) : PromotionRow := { r with state := .exhausted }

theorem exhaust_id (r : PromotionRow) : r.exhaust.id = r.id := rfl

/-! ## Loyalty -/

structure OfferDefinition where
  id : String
  displayName : String
  kind : String
  deriving DecidableEq

structure PromoCode where
  code : String
  offerDefinitionId : String
  kind : String
  deriving DecidableEq

inductive Registration
  | offerDefinition (od : OfferDefinition)
  | promoCode (pc : PromoCode)

/-- Loyalty, and what is registered there. -/
structure Registry (σ : Type) extends Service σ String Registration Unit ClientError where
  offerDefinition : σ → String → Option OfferDefinition
  promoCode : σ → String → Option PromoCode

namespace Registry

variable {σ : Type} (R : Registry σ)

def Has (s : σ) : Registration → Prop
  | .offerDefinition od => R.offerDefinition s od.id = some od
  | .promoCode pc => R.promoCode s pc.code = some pc

instance (s : σ) : (c : Registration) → Decidable (R.Has s c)
  | .offerDefinition _ => inferInstanceAs (Decidable (_ = _))
  | .promoCode _ => inferInstanceAs (Decidable (_ = _))

/-- A registration under a new key does what it says when it is granted, and none undoes
another. -/
structure Lawful : Prop where
  idempotent : R.Idempotent
  registers : ∀ {s k c r}, R.replied s k = none → (R.call k c s).2 = .ok r → R.Has (R.call k c s).1 c
  keeps : ∀ {s k c c'}, R.Has s c' → R.Has (R.call k c s).1 c'

end Registry

def definitionOf (req : CreatePromotion) : Registration :=
  .offerDefinition
    { id := offerDefinitionIdFor req.promotionId
      displayName := req.displayName.getD req.promotionId
      kind := "regular" }

def codeOf (req : CreatePromotion) (code : String) : Registration :=
  .promoCode
    { code, offerDefinitionId := offerDefinitionIdFor req.promotionId, kind := req.promoCodeKind.getD "" }

def definitionKey (req : CreatePromotion) : String := s!"{req.promotionId}:od"

def codeKey (req : CreatePromotion) : String := s!"{req.promotionId}:code"

/-! ## Refusals -/

def checkAdmin (actor : String) : Except ApiError Unit :=
  if actor = "" ∨ actor = "anonymous" then .error (.policy
    { rule := "catalog.admin_only"
      message := "Catalog write operations require an authenticated admin actor"
      context := [("actor", .str actor)] })
  else .ok ()

def alreadyExists (promotionId : String) (state : PromotionState) : ApiError :=
  .policy
    { rule := "catalog.promotion.already_exists"
      message := s!"Promotion {promotionId} already exists (state={state.name})"
      context := [("promotion_id", .str promotionId), ("state", .str state.name)] }

def codeInUse (code promotionId : String) : ApiError :=
  .policy
    { rule := "catalog.promotion.code_in_use"
      message := s!"Promo code {code} is already bound to promotion {promotionId}"
      context := [("code", .str code), ("promotion_id", .str promotionId)] }

def loyaltyRefused (promotionId : String) (e : ClientError) : ApiError :=
  let (rule, detail) := match e with
    | .policy pv => (pv.rule, pv.message)
    | e => ("", e.display)
  .policy
    { rule := "catalog.promotion.loyalty_refused"
      message := s!"loyalty refused: {detail}"
      context := [("promotion_id", .str promotionId), ("loyalty_rule", .str rule)] }

/-- What is checked before anything is read. It answers with the request that is worked on. -/
def openCreate (configured : Bool) (actor : String) (req : CreatePromotion) : Except ApiError CreatePromotion := do
  checkAdmin actor
  if configured then
    validateCreate req.withDefaults
    return req.withDefaults
  else .error (.policy
    { rule := "catalog.promotion.loyalty_not_configured"
      message := "Promotions require loyalty-cli (BSS_LOYALTY_API_TOKEN is unset)"
      context := [("promotion_id", .str req.promotionId)] })

/-! ## Calls side by side -/

inductive Phase
  | reading
  | checking
  | inserting
  | defining
  | coding
  | confirming
  | readingBack
  deriving DecidableEq

structure Flight where
  req : CreatePromotion
  actor : String
  phase : Phase

/-- How far a request to loyalty comes, and whether a statement is refused. -/
structure Draw where
  reach : Reach
  dbOk : Bool

structure World (σ : Type) where
  promotions : Promotions
  loyalty : σ
  flights : List Flight
  answers : List (CreatePromotion × Except ApiError PromotionRow)

inductive Label
  | create (configured : Bool) (actor : String) (req : CreatePromotion)
  | run (i : ℕ) (d : Draw)
  /-- The request is given up, the process dies. -/
  | drop (i : ℕ)
  /-- The `UPDATE` of a call that has read the row as active. -/
  | exhaust (promotionId : String)
  /-- Another client of loyalty. -/
  | elsewhere (key : String) (c : Registration)

namespace World

variable {σ : Type} (R : Registry σ)

def goes (w : World σ) (i : ℕ) (f : Flight) (phase : Phase) : World σ :=
  { w with flights := w.flights.set i { f with phase } }

def ends (w : World σ) (i : ℕ) : World σ := { w with flights := w.flights.eraseIdx i }

def replies (w : World σ) (i : ℕ) (req : CreatePromotion) (r : Except ApiError PromotionRow) : World σ :=
  { w.ends i with answers := w.answers ++ [(req, r)] }

def timedOut (tool : String) : ClientError := .timeout s!"POST /v1/tools/{tool} timed out"

def define (w : World σ) (d : Draw) (req : CreatePromotion) : World σ × Except ClientError Unit :=
  let (loyalty, r) := R.send d.reach (timedOut "offer_definition.register") (definitionKey req) (definitionOf req) w.loyalty
  ({ w with loyalty }, r)

def bindCode (w : World σ) (d : Draw) (req : CreatePromotion) (code : String) : World σ × Except ClientError Unit :=
  let (loyalty, r) := R.send d.reach (timedOut "promo_code.register") (codeKey req) (codeOf req code) w.loyalty
  ({ w with loyalty }, r)

def confirm (w : World σ) (promotionId : String) : World σ :=
  { w with promotions := w.promotions.update promotionId PromotionRow.confirm confirm_id }

def runFlight (w : World σ) (i : ℕ) (d : Draw) (f : Flight) : World σ :=
  let lost : Except ApiError PromotionRow := .error (dbError "statement failed")
  match f.phase with
  | .reading =>
    if d.dbOk then
      match w.promotions.find f.req.promotionId with
      | some existing =>
        if existing.state = .pendingLink then w.goes i f .defining
        else w.replies i f.req (.error (alreadyExists f.req.promotionId existing.state))
      | none => w.goes i f .checking
    else w.replies i f.req lost
  | .checking =>
    if d.dbOk then
      match f.req.code.bind fun code => (getByCode code w.promotions).map fun clash => (code, clash.id) with
      | some (code, id) => w.replies i f.req (.error (codeInUse code id))
      | none => w.goes i f .inserting
    else w.replies i f.req lost
  | .inserting =>
    match if d.dbOk then insertPromotion (pendingRow f.req f.actor) w.promotions else .error (dbError "statement failed") with
    | .error e => w.replies i f.req (.error e)
    | .ok promotions => { w with promotions }.goes i f .defining
  | .defining =>
    match w.define R d f.req with
    | (w, .error e) => w.replies i f.req (.error (loyaltyRefused f.req.promotionId e))
    | (w, .ok ()) => w.goes i f .coding
  | .coding =>
    match f.req.code with
    | none => w.goes i f .confirming
    | some code =>
      match w.bindCode R d f.req code with
      | (w, .error e) => w.replies i f.req (.error (loyaltyRefused f.req.promotionId e))
      | (w, .ok ()) => w.goes i f .confirming
  | .confirming => if d.dbOk then (w.confirm f.req.promotionId).goes i f .readingBack else w.replies i f.req lost
  | .readingBack =>
    if d.dbOk then
      match w.promotions.find f.req.promotionId with
      | some row => w.replies i f.req (.ok row)
      | none => w.replies i f.req (.error (.internal "promotion vanished after create"))
    else w.replies i f.req lost

def step (w : World σ) : Label → Option (World σ)
  | .create configured actor req =>
    match openCreate configured actor req with
    | .ok req => some { w with flights := w.flights ++ [⟨req, actor, .reading⟩] }
    | .error e => some { w with answers := w.answers ++ [(req, .error e)] }
  | .run i d => w.flights[i]?.map (w.runFlight R i d)
  | .drop i => some (w.ends i)
  | .exhaust promotionId =>
    if ∃ r ∈ w.promotions.find promotionId, r.state ≠ .pendingLink then
      some { w with promotions := w.promotions.update promotionId PromotionRow.exhaust exhaust_id }
    else none
  | .elsewhere key c => some { w with loyalty := (R.call key c w.loyalty).1 }

end World

end BssCli.Catalog.Promo
