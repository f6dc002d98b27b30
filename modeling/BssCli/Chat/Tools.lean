import BssCli.Cockpit.Reported
import BssCli.Lib.Fields
import BssCli.Lib.Program
import BssCli.Usage.History

/-!
# The tools of the chat

`register_customer_self_serve_tools` of `mine.rs`, and the catalog reads that are registered beside them. A tool is a program that
calls the typed clients. It gets its arguments from the model and the actor from the session.
-/

open BssCli.Agent BssCli.Usage

namespace BssCli.Chat.Tools

/-! ## Clients -/

/-- One call of a typed client. -/
inductive ClientCall
  | listOfferings
  | getOffering (offeringId : String)
  | listVas
  | getVas (vasOfferingId : String)
  | listActiveOfferings (at_ : String)
  | getActivePriceAt (offeringId : String) (at_ : Option String)
  | getSubscription (subscriptionId : String)
  | listForCustomer (customerId : String)
  | getBalance (subscriptionId : String)
  | purchaseVas (subscriptionId vasOfferingId : String)
  | schedulePlanChange (subscriptionId newOfferingId : String)
  | cancelPlanChange (subscriptionId : String)
  | terminateWithReason (subscriptionId : String) (reason : Option String) (releaseInventory : Bool)
  | listUsage (subscriptionId msisdn eventType since : Option String) (limit : ℤ)
  | getCustomer (customerId : String)
  | listMethods (customerId : String)
  | listPayments (customerId paymentMethodId : Option String) (limit offset : ℤ)
  | listCases (customerId state agentId : Option String)
  | storeChatTranscript (hash customerId body : String)
  | openCase (customerId subject category priority : String) (description openedByAgentId chatTranscriptHash : Option String)

abbrev Reply := Except ToolError Json

abbrev Said := List (ClientCall × Reply)

abbrev Tool := ExceptT ToolError (Program ClientCall Reply)

def call (c : ClientCall) : Tool Json := ExceptT.mk (Program.call c)

/-! ## What every tool reads -/

structure ToolCtx where
  actor : String
  transcript : List Char

/-- What comes from the libraries: a value as text, a decimal that is read and printed again, digests, the clock. -/
structure Outside where
  library : Library
  /-- `Decimal::from_str`, `unwrap_or_default`, `normalize` and `{}` -/
  normalized : String → String
  /-- the same with `{:.2}` -/
  twoPlaces : String → String
  sha256Hex : List Char → String
  /-- `bss_clock::isoformat(bss_clock::now())` -/
  now : String

def reqStr (debug : String → String) (args : Json) (key : String) : Except ToolError String :=
  match (args.get key).bind Json.asStr with
  | some s => .ok s
  | none => .error (.other "BadArgs" ("missing required argument " ++ debug key))

def ownerOf (s : Json) : Option String := ((s.get "customerId").or (s.get "customer_id")).bind Json.asStr

def notOwned (subscriptionId : String) : ToolError :=
  .other "_NotOwnedByActor" ("policy.subscription.not_owned_by_actor: subscription " ++ subscriptionId ++ " is not yours")

def checkOwner (subscriptionId actor : String) (s : Json) : Except ToolError Json :=
  if ownerOf s ≠ some actor then .error (notOwned subscriptionId) else .ok s

def assertSubscriptionOwned (subscriptionId actor : String) : Tool Json := do
  let s ← call (.getSubscription subscriptionId)
  Program.ofExcept (checkOwner subscriptionId actor s)

/-! ## Pricing -/

section
variable (o : Outside)

def renderMoney : Json → String
  | .str s => s
  | v => String.ofList (o.library.print v)

def discountLabel (dtype : String) (dval : Json) (currency : String) : String :=
  if dtype = "percent" then
    o.normalized (renderMoney o dval) ++ "% off"
  else
    currency ++ " " ++ o.twoPlaces (renderMoney o dval) ++ " off"

def isNull : Json → Bool
  | .null => true
  | _ => false

def nonEmptyStr (v : Option Json) : Option String := (v.bind Json.asStr).filter fun s => s ≠ ""

def activeDiscount (fields : List (String × Json)) (price : Json) (currency : String) : Json :=
  let dval := (Fields.get fields "discountValue").getD .null
  let remaining := ((Fields.get fields "discountPeriodsRemaining").bind asI64).getD 0
  match nonEmptyStr (Fields.get fields "discountType") with
  | none => .null
  | some dt =>
    if isNull dval || remaining = 0 then .null
    else
      let label := discountLabel o dt dval currency
      if remaining = -1 then .str (label ++ " (ongoing)")
      else
        let plural := if remaining = 1 then "" else "s"
        .str (label ++ " — " ++ String.ofList (Text.ofI64 remaining) ++ " more renewal" ++ plural ++ " at this price, then " ++
          currency ++ " " ++ renderMoney o price ++ "/mo")

def annotatePricing : Json → Json
  | .obj fields =>
    let price := (Fields.get fields "priceAmount").getD .null
    let effective := (Fields.get fields "effectiveAmount").getD .null
    let currency := (nonEmptyStr (Fields.get fields "priceCurrency")).getD "SGD"
    let current := if isNull effective then price else effective
    let cmc := if isNull current then .null else .str (currency ++ " " ++ renderMoney o current)
    let discount := activeDiscount o fields price currency
    .obj (Fields.insert (Fields.insert fields "currentMonthlyCharge" cmc) "activeDiscount" discount)
  | v => v

/-! ## Tools of one call -/

/-- `require_actor`, then the call that it keys. -/
def keyed (ctx : ToolCtx) (c : String → ClientCall) : Tool Json := do
  let actor ← Program.ofExcept (requireActor ctx.actor)
  call (c actor)

def limitOr (args : Json) (default : ℤ) : ℤ := ((args.get "limit").bind asI64).getD default

def customerGetMine (ctx : ToolCtx) : Tool Json := keyed ctx .getCustomer

def paymentMethodListMine (ctx : ToolCtx) : Tool Json := keyed ctx .listMethods

def paymentChargeHistoryMine (args : Json) (ctx : ToolCtx) : Tool Json :=
  keyed ctx fun actor => .listPayments (some actor) none (limitOr args 20) 0

def caseListForMe (args : Json) (ctx : ToolCtx) : Tool Json :=
  keyed ctx fun actor => .listCases (some actor) (Usage.optStr args "state") none

def subscriptionListMine (ctx : ToolCtx) : Tool Json := do
  let subs ← keyed ctx .listForCustomer
  pure (.arr ((subs.asArray.getD []).map (annotatePricing o)))

/-! ## Tools behind the ownership check -/

/-- `require_actor`, the arguments, the ownership check, and the rest. -/
def checked {β : Type} (args : Json) (ctx : ToolCtx) (extra : Except ToolError β) (rest : String → β → Json → Tool Json) :
    Tool Json := do
  let actor ← Program.ofExcept (requireActor ctx.actor)
  let id ← Program.ofExcept (reqStr o.library.debug args "subscription_id")
  let b ← Program.ofExcept extra
  let sub ← assertSubscriptionOwned id actor
  rest id b sub

def subscriptionGetMine (args : Json) (ctx : ToolCtx) : Tool Json :=
  checked o args ctx (.ok ()) fun _ _ sub => pure (annotatePricing o sub)

def subscriptionGetBalanceMine (args : Json) (ctx : ToolCtx) : Tool Json :=
  checked o args ctx (.ok ()) fun id _ _ => call (.getBalance id)

/-- `get_esim_activation`, which reads the subscription once more. -/
def getEsimActivation (subscriptionId : String) : Tool Json := do
  let sub ← call (.getSubscription subscriptionId)
  let field := fun k => (sub.get k).getD .null
  pure (.obj [("subscriptionId", .str subscriptionId), ("iccid", field "iccid"), ("msisdn", field "msisdn"),
    ("activationCode", field "activationCode"), ("imsi", field "imsi")])

def subscriptionGetLpaMine (args : Json) (ctx : ToolCtx) : Tool Json :=
  checked o args ctx (.ok ()) fun id _ _ => getEsimActivation id

def vasPurchaseForMe (args : Json) (ctx : ToolCtx) : Tool Json :=
  checked o args ctx (reqStr o.library.debug args "vas_offering_id") fun id vas _ => call (.purchaseVas id vas)

def subscriptionSchedulePlanChangeMine (args : Json) (ctx : ToolCtx) : Tool Json :=
  checked o args ctx (reqStr o.library.debug args "new_offering_id") fun id newOffering _ =>
    call (.schedulePlanChange id newOffering)

def subscriptionCancelPendingPlanChangeMine (args : Json) (ctx : ToolCtx) : Tool Json :=
  checked o args ctx (.ok ()) fun id _ _ => call (.cancelPlanChange id)

def subscriptionTerminateMine (args : Json) (ctx : ToolCtx) : Tool Json :=
  checked o args ctx (.ok ()) fun id _ _ => call (.terminateWithReason id (some "customer_chat") true)

/-! ## Usage of one line, or of all -/

def fanOut (eventType since : Option String) (limit : ℤ) : List Json → List Json → Tool (List Json)
  | [], results => pure results
  | sub :: subs, results =>
    match subId sub with
    | none => fanOut eventType since limit subs results
    | some id => do
      let rows ← call (.listUsage (some id) none eventType since limit)
      fanOut eventType since limit subs (results ++ rows.asArray.getD [])

def usageHistoryMine (args : Json) (ctx : ToolCtx) : Tool Json := do
  let actor ← Program.ofExcept (requireActor ctx.actor)
  let eventType := Usage.optStr args "event_type"
  let since := Usage.optStr args "since"
  let limit := limitOr args 100
  match Usage.optStr args "subscription_id" with
  | some sid =>
    let _ ← assertSubscriptionOwned sid actor
    call (.listUsage (some sid) none eventType since limit)
  | none =>
    let subs ← call (.listForCustomer actor)
    let results ← fanOut eventType since limit (subs.asArray.getD []) []
    pure (.arr ((results.mergeSort laterFirst).take limit.toNat))

/-! ## Escalation -/

def escalationCategory (category : String) : String :=
  if category ∈ ["fraud", "regulator_complaint", "identity_recovery", "bereavement"] then "account"
  else if category = "billing_dispute" then "billing"
  else "information"

def escalationPriority (category : String) : String :=
  if category ∈ ["fraud", "regulator_complaint", "identity_recovery"] then "high" else "medium"

def caseOpenForMe (args : Json) (ctx : ToolCtx) : Tool Json := do
  let actor ← Program.ofExcept (requireActor ctx.actor)
  let category ← Program.ofExcept (reqStr o.library.debug args "category")
  let subject ← Program.ofExcept (reqStr o.library.debug args "subject")
  let description ← Program.ofExcept (reqStr o.library.debug args "description")
  let hash := o.sha256Hex ctx.transcript
  let _ ← call (.storeChatTranscript hash actor (String.ofList ctx.transcript))
  call (.openCase actor subject (escalationCategory category) (escalationPriority category)
    (some ("[" ++ category ++ "] " ++ description)) none (some hash))

/-! ## Catalog reads -/

def catalogGetOffering (args : Json) : Tool Json := do
  let id ← Program.ofExcept (reqStr o.library.debug args "offering_id")
  call (.getOffering id)

def catalogGetVas (args : Json) : Tool Json := do
  let id ← Program.ofExcept (reqStr o.library.debug args "vas_offering_id")
  call (.getVas id)

def catalogListActiveOfferings (args : Json) : Tool Json :=
  call (.listActiveOfferings ((Usage.optStr args "at").getD o.now))

def catalogGetActivePrice (args : Json) : Tool Json := do
  let id ← Program.ofExcept (reqStr o.library.debug args "offering_id")
  call (.getActivePriceAt id (Usage.optStr args "at"))

/-! ## The registry -/

/-- `build_chat_registry` -/
def chatRegistry : List (String × (Json → ToolCtx → Tool Json)) :=
  [("catalog.list_offerings", fun _ _ => call .listOfferings),
   ("catalog.get_offering", fun args _ => catalogGetOffering o args),
   ("catalog.list_vas", fun _ _ => call .listVas),
   ("catalog.get_vas", fun args _ => catalogGetVas o args),
   ("catalog.list_active_offerings", fun args _ => catalogListActiveOfferings o args),
   ("catalog.get_active_price", fun args _ => catalogGetActivePrice o args),
   ("subscription.list_mine", fun _ ctx => subscriptionListMine o ctx),
   ("subscription.get_mine", subscriptionGetMine o),
   ("subscription.get_balance_mine", subscriptionGetBalanceMine o),
   ("subscription.get_lpa_mine", subscriptionGetLpaMine o),
   ("usage.history_mine", usageHistoryMine),
   ("customer.get_mine", fun _ ctx => customerGetMine ctx),
   ("payment.method_list_mine", fun _ ctx => paymentMethodListMine ctx),
   ("payment.charge_history_mine", paymentChargeHistoryMine),
   ("vas.purchase_for_me", vasPurchaseForMe o),
   ("subscription.schedule_plan_change_mine", subscriptionSchedulePlanChangeMine o),
   ("subscription.cancel_pending_plan_change_mine", subscriptionCancelPendingPlanChangeMine o),
   ("subscription.terminate_mine", subscriptionTerminateMine o),
   ("case.list_for_me", caseListForMe),
   ("case.open_for_me", caseOpenForMe o)]

def toolNamed (name : String) : Option (Json → ToolCtx → Tool Json) := ((chatRegistry o).find? (·.1 = name)).map (·.2)

end

end BssCli.Chat.Tools
