import Mathlib.Data.List.Nodup
import BssCli.Lib.Program
import BssCli.Lib.Template
import BssCli.Onboard.EnvFile

/-!
# The wizard

`onboard.rs` asks for the providers of email, KYC and payment, and the services choose theirs at startup from what was written. A
wizard that ends well leaves nothing that a service refuses.
-/

open Text Template Stateful

namespace BssCli.Onboard

/-! ## Settings -/

/-- The settings that the wizard knows. -/
inductive Setting
  | emailProvider
  | emailAdapter
  | emailResendApiKey
  | emailFrom
  | emailResendWebhookSecret
  | kycProvider
  | kycDiditApiKey
  | kycDiditWorkflowId
  | kycDiditWebhookSecret
  | paymentProvider
  | paymentStripeApiKey
  | paymentStripePublishableKey
  | paymentStripeWebhookSecret
  | paymentAllowTestCardReuse
  | bssEnv
  deriving DecidableEq

def settings : List Setting :=
  [.emailProvider, .emailAdapter, .emailResendApiKey, .emailFrom, .emailResendWebhookSecret, .kycProvider, .kycDiditApiKey,
    .kycDiditWorkflowId, .kycDiditWebhookSecret, .paymentProvider, .paymentStripeApiKey, .paymentStripePublishableKey,
    .paymentStripeWebhookSecret, .paymentAllowTestCardReuse, .bssEnv]

def Setting.name : Setting → String
  | .emailProvider => "BSS_PORTAL_EMAIL_PROVIDER"
  | .emailAdapter => "BSS_PORTAL_EMAIL_ADAPTER"
  | .emailResendApiKey => "BSS_PORTAL_EMAIL_RESEND_API_KEY"
  | .emailFrom => "BSS_PORTAL_EMAIL_FROM"
  | .emailResendWebhookSecret => "BSS_PORTAL_EMAIL_RESEND_WEBHOOK_SECRET"
  | .kycProvider => "BSS_PORTAL_KYC_PROVIDER"
  | .kycDiditApiKey => "BSS_PORTAL_KYC_DIDIT_API_KEY"
  | .kycDiditWorkflowId => "BSS_PORTAL_KYC_DIDIT_WORKFLOW_ID"
  | .kycDiditWebhookSecret => "BSS_PORTAL_KYC_DIDIT_WEBHOOK_SECRET"
  | .paymentProvider => "BSS_PAYMENT_PROVIDER"
  | .paymentStripeApiKey => "BSS_PAYMENT_STRIPE_API_KEY"
  | .paymentStripePublishableKey => "BSS_PAYMENT_STRIPE_PUBLISHABLE_KEY"
  | .paymentStripeWebhookSecret => "BSS_PAYMENT_STRIPE_WEBHOOK_SECRET"
  | .paymentAllowTestCardReuse => "BSS_PAYMENT_ALLOW_TEST_CARD_REUSE"
  | .bssEnv => "BSS_ENV"

def Setting.key (s : Setting) : List Char := s.name.toList

theorem mem_settings (s : Setting) : s ∈ settings := by
  cases s <;> decide

theorem name_injective : Function.Injective Setting.name := fun s t h =>
  List.inj_on_of_nodup_map (f := Setting.name) (by decide +kernel) (mem_settings s) (mem_settings t) h

@[simp]
theorem key_inj {s t : Setting} : s.key = t.key ↔ s = t := by
  refine ⟨fun h => name_injective (String.toList_inj.mp h), congrArg _⟩

theorem keyOk_of_isNameChar {k : List Char} (h : k.all isNameChar = true) : KeyOk k := by
  have hne : ∀ c, isNameChar c = false → c ∉ k := fun c hc hmem => by simp [List.all_eq_true.mp h c hmem] at hc
  refine ⟨trim_eq_self fun c hc => ?_, hne _ (by decide), hne _ (by decide), fun hhead => ?_⟩
  · exact (not_blank_of_name (List.all_eq_true.mp h c hc)).1
  · exact hne '#' (by decide) (List.mem_of_mem_head? hhead)

theorem Setting.keyOk (s : Setting) : KeyOk s.key := by
  refine keyOk_of_isNameChar ?_
  cases s <;> decide +kernel

/-! ## Prompts -/

/-- A line of the input, and what comes of it. -/
structure Line where
  chars : List Char
  oneLine : '\n' ∉ chars

/-- A value for a setting, or none. -/
structure Edit where
  setting : Setting
  value : Option Line

def Edit.apply (env : Env) (e : Edit) : Env :=
  match e.value with
  | some v => Fields.insert env e.setting.key v.chars
  | none => env.filter fun kv => kv.1 ≠ e.setting.key

theorem Edit.apply_ok {env : Env} (h : EnvOk env) (e : Edit) : EnvOk (e.apply env) := by
  unfold Edit.apply
  cases e.value with
  | some v =>
    refine ⟨Fields.nodup_insert h.nodup _ _, fun kv hkv => ?_, fun kv hkv => ?_⟩
    · rcases Fields.mem_insert.mp hkv with rfl | ⟨hkv, -⟩
      · exact e.setting.keyOk
      · exact h.keys kv hkv
    · rcases Fields.mem_insert.mp hkv with rfl | ⟨hkv, -⟩
      · exact v.oneLine
      · exact h.values kv hkv
  | none =>
    have hsub : ∀ kv ∈ env.filter (fun kv => kv.1 ≠ e.setting.key), kv ∈ env := fun kv hkv => (List.mem_filter.mp hkv).1
    exact ⟨(List.filter_sublist.map _).nodup h.nodup, fun kv hkv => h.keys kv (hsub kv hkv), fun kv hkv => h.values kv (hsub kv hkv)⟩

/-- The input that is left, and the map, which can always be written. -/
structure Console where
  stdin : List Line
  env : Env
  ok : EnvOk env

/-- What a provider says of its credentials. -/
structure Probes where
  resend : List Char → List Char → List Char → Bool
  didit : List Char → List Char → Bool
  stripe : List Char → Bool

/-- A wizard ends well, or with an exit code. -/
abbrev Wizard (α : Type) := Stateful ℕ Console α

def emptyLine : Line := ⟨[], List.not_mem_nil⟩

def lineText (l : Line) : Line := ⟨l.chars.rdropWhile (· = '\r'), fun h => l.oneLine ((List.rdropWhile_prefix ..).subset h)⟩

/-- Behind the end of the input every line is empty. -/
def readLine : Wizard Line := ExceptT.mk fun c =>
  match c.stdin with
  | [] => (.ok emptyLine, c)
  | l :: stdin => (.ok (lineText l), { c with stdin := stdin })

def Console.get (c : Console) (s : Setting) : Option Line :=
  match h : Fields.get c.env s.key with
  | some v => some ⟨v, c.ok.values _ (Fields.mem_of_get h)⟩
  | none => none

def getEnv (s : Setting) : Wizard (Option Line) := ExceptT.mk fun c => (.ok (c.get s), c)

def edit (e : Edit) : Wizard Unit := ExceptT.mk fun c => (.ok (), ⟨c.stdin, e.apply c.env, e.apply_ok c.ok⟩)

def insert (s : Setting) (v : Line) : Wizard Unit := edit ⟨s, some v⟩

/-- `shift_remove` -/
def remove (s : Setting) : Wizard Unit := edit ⟨s, none⟩

def orDefault (default got : Line) : Line := if got.chars = [] then default else got

def askDefault (default : Line) : Wizard Line := do
  let got ← readLine
  pure (orDefault default got)

def askSecret (s : Setting) : Wizard Line := do
  let default ← getEnv s
  askDefault (default.getD emptyLine)

/-- Asks again until the line is one of the choices. -/
def choiceOf (choices : List (List Char)) (default : List Char) : List Line → List Char × List Line
  | [] => (default, [])
  | l :: stdin =>
    if (lineText l).chars = [] then (default, stdin)
    else if (lineText l).chars ∈ choices then ((lineText l).chars, stdin)
    else choiceOf choices default stdin

def askChoice (choices : List (List Char)) (default : List Char) : Wizard (List Char) := ExceptT.mk fun c =>
  (.ok (choiceOf choices default c.stdin).1, { c with stdin := (choiceOf choices default c.stdin).2 })

def confirmed (default : Bool) (got : List Char) : Bool :=
  if got = [] then default else got.map Char.toLower ∈ ["y".toList, "yes".toList]

def confirm (default : Bool) : Wizard Bool := do
  let got ← readLine
  pure (confirmed default got.chars)

/-! ## Domains -/

def test : List Char := "test".toList
def production : List Char := "production".toList

def logging : Line := ⟨"logging".toList, by decide⟩
def resend : Line := ⟨"resend".toList, by decide⟩
def prebaked : Line := ⟨"prebaked".toList, by decide⟩
def didit : Line := ⟨"didit".toList, by decide⟩
def mock : Line := ⟨"mock".toList, by decide⟩
def stripe : Line := ⟨"stripe".toList, by decide⟩
def trueText : Line := ⟨"true".toList, by decide⟩

def startsWith (p s : List Char) : Bool := p.isPrefixOf s

def isTestSecret (key : List Char) : Bool := startsWith "sk_test_".toList key
def isLiveSecret (key : List Char) : Bool := startsWith "sk_live_".toList key
def isTestPub (key : List Char) : Bool := startsWith "pk_test_".toList key
def isLivePub (key : List Char) : Bool := startsWith "pk_live_".toList key

/-- The text of a value, and nothing where there is none. -/
def charsOf (v : Option Line) : List Char := (v.getD emptyLine).chars

def askMode (inProduction : Bool) : Wizard (List Char) := askChoice [test, production] (if inProduction then production else test)

variable (probes : Probes)

/-- The provider that the file has, under the old name where the new one is empty. -/
def currentEmail (provider adapter : Option Line) : List Char := charsOf ((provider.filter fun v => v.chars ≠ []).or adapter)

def probeEmail (apiKey fromAddr : List Char) : Wizard Unit := do
  let probe ← confirm true
  if probe = true then do
    let recipient ← askDefault emptyLine
    ensure (probes.resend apiKey fromAddr recipient.chars = true) 2
  else pure ()

def configureResend : Wizard Unit := do
  insert .emailProvider resend
  let apiKey ← askSecret .emailResendApiKey
  ensure (startsWith "re_".toList apiKey.chars = true) 2
  insert .emailResendApiKey apiKey
  let current ← getEnv .emailFrom
  let fromAddr ← askDefault (current.getD emptyLine)
  ensure (fromAddr.chars ≠ [] ∧ '@' ∈ fromAddr.chars) 2
  insert .emailFrom fromAddr
  let webhook ← askSecret .emailResendWebhookSecret
  insert .emailResendWebhookSecret webhook
  probeEmail probes apiKey.chars fromAddr.chars

def configureLogging : Wizard Unit := do
  insert .emailProvider logging
  remove .emailResendApiKey

def configureEmail : Wizard Unit := do
  let provider ← getEnv .emailProvider
  let adapter ← getEnv .emailAdapter
  let mode ← askMode (currentEmail provider adapter = resend.chars)
  if mode = test then configureLogging else configureResend probes

/-- `^[0-9a-fA-F]{8}-[0-9a-fA-F]{4}-[0-9a-fA-F]{4}-[0-9a-fA-F]{4}-[0-9a-fA-F]{12}$`, where `$` is the end of the text. -/
def isHexDigit (c : Char) : Bool := c.isDigit || ('a' ≤ c && c ≤ 'f') || ('A' ≤ c && c ≤ 'F')

def isUuid (s : List Char) : Bool :=
  (splitChar '-' s).map List.length = [8, 4, 4, 4, 12] && s.all fun c => isHexDigit c || c = '-'

def probeKyc (apiKey workflowId : List Char) : Wizard Unit := do
  let probe ← confirm true
  if probe = true then ensure (probes.didit apiKey workflowId = true) 2 else pure ()

def configureDidit : Wizard Unit := do
  insert .kycProvider didit
  let apiKey ← askSecret .kycDiditApiKey
  ensure (apiKey.chars ≠ []) 2
  insert .kycDiditApiKey apiKey
  let current ← getEnv .kycDiditWorkflowId
  let workflowId ← askDefault (current.getD emptyLine)
  ensure (isUuid workflowId.chars = true) 2
  insert .kycDiditWorkflowId workflowId
  let webhook ← askSecret .kycDiditWebhookSecret
  ensure (webhook.chars ≠ []) 2
  insert .kycDiditWebhookSecret webhook
  probeKyc probes apiKey.chars workflowId.chars

def configurePrebaked : Wizard Unit := do
  insert .kycProvider prebaked
  remove .kycDiditApiKey
  remove .kycDiditWorkflowId
  remove .kycDiditWebhookSecret

def configureKyc : Wizard Unit := do
  let current ← getEnv .kycProvider
  let mode ← askMode (charsOf current = didit.chars)
  if mode = test then configurePrebaked else configureDidit probes

/-- Only a test key may reuse its cards. -/
def configureReuse (apiKey : List Char) : Wizard Unit := do
  if isTestSecret apiKey = true then do
    let current ← getEnv .paymentAllowTestCardReuse
    let reuse ← confirm (current.any fun v => v.chars.map Char.toLower = trueText.chars)
    if reuse = true then insert .paymentAllowTestCardReuse trueText else remove .paymentAllowTestCardReuse
  else remove .paymentAllowTestCardReuse

def probePayment (apiKey : List Char) : Wizard Unit := do
  let probe ← confirm true
  if probe = true then ensure (probes.stripe apiKey = true) 2 else pure ()

def configureStripe : Wizard Unit := do
  insert .paymentProvider stripe
  let apiKey ← askSecret .paymentStripeApiKey
  ensure (isTestSecret apiKey.chars = true ∨ isLiveSecret apiKey.chars = true) 2
  insert .paymentStripeApiKey apiKey
  let current ← getEnv .paymentStripePublishableKey
  let pubKey ← askDefault (current.getD emptyLine)
  ensure (isTestPub pubKey.chars = true ∨ isLivePub pubKey.chars = true) 2
  ensure (isTestSecret apiKey.chars = isTestPub pubKey.chars) 2
  insert .paymentStripePublishableKey pubKey
  let env ← getEnv .bssEnv
  ensure (¬ (charsOf env = production ∧ isTestSecret apiKey.chars = true)) 2
  let webhook ← askSecret .paymentStripeWebhookSecret
  ensure (startsWith "whsec_".toList webhook.chars = true) 2
  insert .paymentStripeWebhookSecret webhook
  configureReuse apiKey.chars
  probePayment probes apiKey.chars

def configureMock : Wizard Unit := do
  insert .paymentProvider mock
  remove .paymentStripeApiKey
  remove .paymentStripePublishableKey
  remove .paymentStripeWebhookSecret
  remove .paymentAllowTestCardReuse

def configurePayment : Wizard Unit := do
  let current ← getEnv .paymentProvider
  let mode ← askMode (charsOf current = stripe.chars)
  if mode = test then configureMock else configureStripe probes

inductive Domain
  | email
  | kyc
  | payment
  deriving DecidableEq

def configure : Domain → Wizard Unit
  | .email => configureEmail probes
  | .kyc => configureKyc probes
  | .payment => configurePayment probes

def configureAll : List Domain → Wizard Unit
  | [] => pure ()
  | d :: ds => do
    configure probes d
    configureAll ds

/-- All three where none is named. `lower` is `to_lowercase`. -/
def domainsToConfigure (lower : List Char → List Char) : Option (List Char) → Option (List Domain)
  | none => some [.email, .kyc, .payment]
  | some d =>
    if lower d = "email".toList then some [.email]
    else if lower d = "kyc".toList then some [.kyc]
    else if lower d = "payment".toList then some [.payment]
    else none

/-- A run leaves the file as it is where it does not end well. -/
def onboard (domains : List Domain) (stdin : List Line) (text : Option (List Char)) : Option (List Char) :=
  match (configureAll probes domains).run.run ⟨stdin, readEnvFile (text.getD []), envOk_readEnvFile _⟩ with
  | (.ok _, c) => some (writeEnvFile text c.env)
  | (.error _, _) => text

/-! ## At startup -/

/-- `env_or`: a variable that is empty is one that is not there. -/
def envOr (env : Env) (s : Setting) (default : List Char) : List Char :=
  ((Fields.get env s.key).filter (· ≠ [])).getD default

def envBool (env : Env) (s : Setting) (default : Bool) : Bool :=
  match Fields.get env s.key with
  | some v => v.map Char.toLower ∈ ["1".toList, "true".toList, "yes".toList, "on".toList]
  | none => default

structure StripeConfig where
  apiKey : List Char
  publishableKey : List Char
  webhookSecret : List Char
  allowTestCardReuse : Bool

inductive Tokenizer
  | mock
  | stripe (config : StripeConfig)

/-- The settings of the payment service that choose its tokenizer. -/
structure PaymentSettings where
  env : List Char
  paymentProvider : List Char
  apiKey : List Char
  publishableKey : List Char
  webhookSecret : List Char
  allowTestCardReuse : Bool

def PaymentSettings.fromEnv (env : Env) : PaymentSettings where
  env := envOr env .bssEnv "development".toList
  paymentProvider := envOr env .paymentProvider "mock".toList
  apiKey := envOr env .paymentStripeApiKey []
  publishableKey := envOr env .paymentStripePublishableKey []
  webhookSecret := envOr env .paymentStripeWebhookSecret []
  allowTestCardReuse := envBool env .paymentAllowTestCardReuse false

def isRestrictedTest (key : List Char) : Bool := startsWith "rk_test_".toList key
def isRestrictedLive (key : List Char) : Bool := startsWith "rk_live_".toList key

/-- `client` is the HTTP client, which is built last. -/
def buildStripe (client : Except String Unit) (s : PaymentSettings) : Except String Tokenizer :=
  let testSecret := isTestSecret s.apiKey || isRestrictedTest s.apiKey
  let liveSecret := isLiveSecret s.apiKey || isRestrictedLive s.apiKey
  if s.apiKey = [] then .error "BSS_PAYMENT_PROVIDER=stripe requires BSS_PAYMENT_STRIPE_API_KEY"
  else if s.publishableKey = [] then .error "BSS_PAYMENT_PROVIDER=stripe requires BSS_PAYMENT_STRIPE_PUBLISHABLE_KEY"
  else if s.webhookSecret = [] then
    .error ("BSS_PAYMENT_PROVIDER=stripe requires BSS_PAYMENT_STRIPE_WEBHOOK_SECRET (without it the webhook receiver would silently " ++
      "401 every Stripe delivery and charge reconciliation would never happen)")
  else if !(testSecret || liveSecret) then
    .error "BSS_PAYMENT_STRIPE_API_KEY must start with rk_test_, sk_test_, rk_live_ or sk_live_"
  else if !(isTestPub s.publishableKey || isLivePub s.publishableKey) then
    .error "BSS_PAYMENT_STRIPE_PUBLISHABLE_KEY must start with pk_test_ or pk_live_"
  else if testSecret ≠ isTestPub s.publishableKey then
    .error ("Stripe key mode mismatch: secret and publishable keys must both be test (sk_test_/pk_test_) or both be live " ++
      "(sk_live_/pk_live_); refusing to start with mixed mode")
  else if s.env = production ∧ testSecret then
    .error "BSS_PAYMENT_STRIPE_API_KEY=sk_test_* refused in BSS_ENV=production; production must use sk_live_*"
  else if s.allowTestCardReuse ∧ liveSecret then
    .error ("BSS_PAYMENT_ALLOW_TEST_CARD_REUSE=true is sandbox-only and refused with sk_live_*; setting it would let one real " ++
      "customer's payment_method re-attach to a different real customer (security disaster)")
  else match client with
    | .error e => .error ("stripe http client build failed: " ++ e)
    | .ok _ => .ok (.stripe ⟨s.apiKey, s.publishableKey, s.webhookSecret, s.allowTestCardReuse⟩)

def selectTokenizer (client : Except String Unit) (s : PaymentSettings) : Except String Tokenizer :=
  if s.paymentProvider = mock.chars then .ok .mock
  else if s.paymentProvider = stripe.chars then buildStripe client s
  else .error ("Unknown BSS_PAYMENT_PROVIDER='" ++ String.ofList s.paymentProvider ++ "'; expected 'mock' | 'stripe'")

/-- `to_lowercase`, and `{:?}` of a text. -/
structure Texts where
  lower : List Char → List Char
  debug : List Char → String

inductive EmailAdapter
  | logging
  | noop
  | resend (apiKey fromAddress : List Char)

/-- The new name, and the old one where the new one is empty. -/
def resolveProviderName (provider legacyAdapter : List Char) : List Char :=
  if trim provider = [] ∧ trim legacyAdapter = [] then "logging".toList
  else if trim provider = [] then trim legacyAdapter
  else trim provider

def selectAdapter (t : Texts) (name resendApiKey fromAddress : List Char) : Except String EmailAdapter :=
  if t.lower name = logging.chars then .ok .logging
  else if t.lower name = "noop".toList then .ok .noop
  else if t.lower name = resend.chars then
    if resendApiKey = [] then .error "BSS_PORTAL_EMAIL_PROVIDER=resend requires BSS_PORTAL_EMAIL_RESEND_API_KEY"
    else if fromAddress = [] then
      .error "BSS_PORTAL_EMAIL_PROVIDER=resend requires BSS_PORTAL_EMAIL_FROM (e.g. 'BSS-CLI <noreply@mail.example.com>')"
    else .ok (.resend resendApiKey fromAddress)
  else if t.lower name = "smtp".toList then .error "smtp email adapter is reserved (post-v0.16)"
  else .error ("Unknown BSS_PORTAL_EMAIL_PROVIDER=" ++ t.debug (t.lower name) ++ "; expected 'logging', 'noop', 'resend', or 'smtp'")

def emailAdapterOf (t : Texts) (env : Env) : Except String EmailAdapter :=
  selectAdapter t (resolveProviderName (envOr env .emailProvider []) (envOr env .emailAdapter []))
    (envOr env .emailResendApiKey []) (envOr env .emailFrom [])

inductive KycAdapter
  | prebaked
  | didit (apiKey workflowId : List Char)

/-- The adapter of a portal with a database. Wrong credentials keep it on the prebaked one. -/
def kycAdapterOf (env : Env) : KycAdapter :=
  if (envOr env .kycProvider prebaked.chars).map Char.toLower = didit.chars then
    if envOr env .kycDiditApiKey [] = [] ∨ envOr env .kycDiditWorkflowId [] = [] then .prebaked
    else .didit (envOr env .kycDiditApiKey []) (envOr env .kycDiditWorkflowId [])
  else .prebaked

/-! ## What a wizard writes -/

/-- What the wizard writes of a domain. -/
def Domain.settings : Domain → List Setting
  | .email => [.emailProvider, .emailResendApiKey, .emailFrom, .emailResendWebhookSecret]
  | .kyc => [.kycProvider, .kycDiditApiKey, .kycDiditWorkflowId, .kycDiditWebhookSecret]
  | .payment =>
    [.paymentProvider, .paymentStripeApiKey, .paymentStripePublishableKey, .paymentStripeWebhookSecret, .paymentAllowTestCardReuse]

/-- A provider for a domain, with its credentials. -/
inductive Choice
  | logging
  | resend (apiKey fromAddr webhook : Line)
  | prebaked
  | didit (apiKey workflowId webhook : Line)
  | mock
  | stripe (apiKey pubKey webhook : Line) (reuse : Bool)

def Choice.domain : Choice → Domain
  | .logging | .resend .. => .email
  | .prebaked | .didit .. => .kyc
  | .mock | .stripe .. => .payment

def reuseText (reuse : Bool) : Option Line := if reuse = true then some trueText else none

def Choice.edits : Choice → List Edit
  | .logging => [⟨.emailProvider, some BssCli.Onboard.logging⟩, ⟨.emailResendApiKey, none⟩]
  | .resend apiKey fromAddr webhook =>
    [⟨.emailProvider, some BssCli.Onboard.resend⟩, ⟨.emailResendApiKey, some apiKey⟩, ⟨.emailFrom, some fromAddr⟩,
      ⟨.emailResendWebhookSecret, some webhook⟩]
  | .prebaked =>
    [⟨.kycProvider, some BssCli.Onboard.prebaked⟩, ⟨.kycDiditApiKey, none⟩, ⟨.kycDiditWorkflowId, none⟩, ⟨.kycDiditWebhookSecret, none⟩]
  | .didit apiKey workflowId webhook =>
    [⟨.kycProvider, some BssCli.Onboard.didit⟩, ⟨.kycDiditApiKey, some apiKey⟩, ⟨.kycDiditWorkflowId, some workflowId⟩,
      ⟨.kycDiditWebhookSecret, some webhook⟩]
  | .mock =>
    [⟨.paymentProvider, some BssCli.Onboard.mock⟩, ⟨.paymentStripeApiKey, none⟩, ⟨.paymentStripePublishableKey, none⟩,
      ⟨.paymentStripeWebhookSecret, none⟩, ⟨.paymentAllowTestCardReuse, none⟩]
  | .stripe apiKey pubKey webhook reuse =>
    [⟨.paymentProvider, some BssCli.Onboard.stripe⟩, ⟨.paymentStripeApiKey, some apiKey⟩, ⟨.paymentStripePublishableKey, some pubKey⟩,
      ⟨.paymentStripeWebhookSecret, some webhook⟩, ⟨.paymentAllowTestCardReuse, reuseText reuse⟩]

/-- The text of a setting, and nothing where it is not there. -/
def textOf (env : Env) (s : Setting) : List Char := (Fields.get env s.key).getD []

/-- What the wizard asks of the credentials. -/
def Choice.Ok (env : Env) : Choice → Prop
  | .logging | .prebaked | .mock => True
  | .resend apiKey fromAddr _ => startsWith "re_".toList apiKey.chars = true ∧ fromAddr.chars ≠ [] ∧ '@' ∈ fromAddr.chars
  | .didit apiKey workflowId webhook => apiKey.chars ≠ [] ∧ isUuid workflowId.chars = true ∧ webhook.chars ≠ []
  | .stripe apiKey pubKey webhook reuse =>
    (isTestSecret apiKey.chars = true ∨ isLiveSecret apiKey.chars = true) ∧
      (isTestPub pubKey.chars = true ∨ isLivePub pubKey.chars = true) ∧ isTestSecret apiKey.chars = isTestPub pubKey.chars ∧
      ¬ (textOf env .bssEnv = production ∧ isTestSecret apiKey.chars = true) ∧ startsWith "whsec_".toList webhook.chars = true ∧
      (reuse = true → isTestSecret apiKey.chars = true)

/-- The map has what was written of a choice, which was right to take. -/
structure Choice.Holds (env : Env) (ch : Choice) : Prop where
  written : ∀ e ∈ ch.edits, Fields.get env e.setting.key = e.value.map Line.chars
  ok : ch.Ok env

/-- What the provider says of the credentials, of the letter to nobody for Resend. -/
def Choice.Probed (probes : Probes) : Choice → Prop
  | .logging | .prebaked | .mock => True
  | .resend apiKey fromAddr _ => probes.resend apiKey.chars fromAddr.chars [] = true
  | .didit apiKey workflowId _ => probes.didit apiKey.chars workflowId.chars = true
  | .stripe apiKey _ _ _ => probes.stripe apiKey.chars = true

/-- The services start, with the provider that was taken. -/
def Choice.Runs (t : Texts) (env : Env) : Choice → Prop
  | .logging => emailAdapterOf t env = .ok .logging
  | .resend apiKey fromAddr _ => emailAdapterOf t env = .ok (.resend apiKey.chars fromAddr.chars)
  | .prebaked => kycAdapterOf env = .prebaked
  | .didit apiKey workflowId _ => kycAdapterOf env = .didit apiKey.chars workflowId.chars
  | .mock => selectTokenizer (.ok ()) (.fromEnv env) = .ok .mock
  | .stripe apiKey pubKey webhook reuse =>
    selectTokenizer (.ok ()) (.fromEnv env) = .ok (.stripe ⟨apiKey.chars, pubKey.chars, webhook.chars, reuse⟩)

section

variable {probes : Probes} {c c' : Console} {u : Unit} {env : Env}

theorem get_apply (env : Env) (e : Edit) (k : List Char) :
    Fields.get (e.apply env) k = if k = e.setting.key then e.value.map Line.chars else Fields.get env k := by
  unfold Edit.apply
  cases e.value with
  | some v => exact Fields.get_insert ..
  | none =>
    by_cases hk : k = e.setting.key
    · rw [if_pos hk, Option.map_none, Fields.get_eq_none]
      rintro hmem
      obtain ⟨kv, hkv, rfl⟩ := List.mem_map.mp hmem
      simp [hk] at hkv
    · rw [if_neg hk]
      exact Fields.get_filter (by simp [hk]) env

theorem get_foldl_apply_other {es : List Edit} {k : List Char} (h : ∀ e ∈ es, k ≠ e.setting.key) :
    Fields.get (es.foldl Edit.apply env) k = Fields.get env k := by
  induction es generalizing env with
  | nil => rfl
  | cons e es ih =>
    rw [List.forall_mem_cons] at h
    rw [List.foldl_cons, ih h.2, get_apply, if_neg h.1]

theorem get_foldl_apply {es : List Edit} (hnodup : (es.map Edit.setting).Nodup) {e : Edit} (he : e ∈ es) :
    Fields.get (es.foldl Edit.apply env) e.setting.key = e.value.map Line.chars := by
  induction es generalizing env with
  | nil => exact absurd he List.not_mem_nil
  | cons e' es ih =>
    rw [List.map_cons, List.nodup_cons] at hnodup
    rw [List.foldl_cons]
    rcases List.mem_cons.mp he with rfl | he
    · rw [get_foldl_apply_other, get_apply, if_pos rfl]
      intro e' he' heq
      rw [key_inj] at heq
      exact hnodup.1 (heq ▸ List.mem_map_of_mem he')
    · exact ih hnodup.2 he

/-- An edit that says what is there changes nothing. -/
theorem apply_eq_self (h : EnvOk env) {e : Edit} (he : Fields.get env e.setting.key = e.value.map Line.chars) : e.apply env = env := by
  unfold Edit.apply
  cases hv : e.value with
  | some v =>
    rw [hv] at he
    have hmem : e.setting.key ∈ env.map Prod.fst := List.mem_map_of_mem (Fields.mem_of_get he)
    show Fields.insert env e.setting.key v.chars = env
    unfold Fields.insert
    rw [if_pos hmem]
    refine (List.map_congr_left fun kv hkv => ?_).trans (List.map_id env)
    split_ifs with hk
    · have hget := Fields.get_of_mem h.nodup hkv
      rw [hk, he] at hget
      exact Prod.ext hk.symm (Option.some.inj hget)
    · rfl
  | none =>
    rw [hv, Option.map_none, Fields.get_eq_none] at he
    refine List.filter_eq_self.mpr fun kv hkv => ?_
    have hne : kv.1 ≠ e.setting.key := fun heq => he (heq ▸ List.mem_map_of_mem hkv)
    simp [hne]

theorem edits_settings (ch : Choice) : ∀ e ∈ ch.edits, e.setting ∈ ch.domain.settings := by
  cases ch <;> simp [Choice.edits, Choice.domain, Domain.settings]

theorem nodup_edits (ch : Choice) : (ch.edits.map Edit.setting).Nodup := by
  cases ch <;> simp [Choice.edits]

/-! ## What a wizard does -/

theorem goes_edit {e : Edit} : Goes (edit e) c u c' ↔ c' = ⟨c.stdin, e.apply c.env, e.apply_ok c.ok⟩ := by
  constructor
  · rintro ⟨⟩
    rfl
  · rintro rfl
    rfl

theorem goes_getEnv {s : Setting} {v : Option Line} : Goes (getEnv s) c v c' ↔ v = c.get s ∧ c' = c := by
  constructor
  · rintro ⟨⟩
    exact ⟨rfl, rfl⟩
  · rintro ⟨rfl, rfl⟩
    rfl

theorem map_get (c : Console) (s : Setting) : (c.get s).map Line.chars = Fields.get c.env s.key := by
  unfold Console.get
  split <;> rename_i h <;> exact h.symm

theorem charsOf_get (c : Console) (s : Setting) : charsOf (c.get s) = textOf c.env s := by
  unfold textOf charsOf
  rw [← map_get]
  cases c.get s <;> rfl

theorem env_readLine {l : Line} (h : Goes readLine c l c') : c'.env = c.env := by
  obtain ⟨stdin, env, hok⟩ := c
  cases stdin <;> cases h <;> rfl

theorem env_askDefault {default v : Line} (h : Goes (askDefault default) c v c') : c'.env = c.env := by
  obtain ⟨l, c₁, hl, hv⟩ := goes_bind.mp h
  obtain ⟨-, rfl⟩ := goes_pure.mp hv
  exact env_readLine hl

theorem env_askSecret {s : Setting} {v : Line} (h : Goes (askSecret s) c v c') : c'.env = c.env := by
  obtain ⟨d, c₁, hd, hv⟩ := goes_bind.mp h
  obtain ⟨-, rfl⟩ := goes_getEnv.mp hd
  exact env_askDefault hv

theorem env_confirm {default b : Bool} (h : Goes (confirm default) c b c') : c'.env = c.env := by
  obtain ⟨l, c₁, hl, hv⟩ := goes_bind.mp h
  obtain ⟨-, rfl⟩ := goes_pure.mp hv
  exact env_readLine hl

theorem env_askMode {inProduction : Bool} {mode : List Char} (h : Goes (askMode inProduction) c mode c') : c'.env = c.env := by
  cases h
  rfl

theorem env_probeEmail {apiKey fromAddr : List Char} (h : Goes (probeEmail probes apiKey fromAddr) c u c') : c'.env = c.env := by
  obtain ⟨probe, c₁, hprobe, hrest⟩ := goes_bind.mp h
  split_ifs at hrest
  · obtain ⟨recipient, c₂, hr, hensure⟩ := goes_bind.mp hrest
    obtain ⟨-, rfl⟩ := goes_ensure.mp hensure
    exact (env_askDefault hr).trans (env_confirm hprobe)
  · obtain ⟨-, rfl⟩ := goes_pure.mp hrest
    exact env_confirm hprobe

theorem env_probeKyc {apiKey workflowId : List Char} (h : Goes (probeKyc probes apiKey workflowId) c u c') : c'.env = c.env := by
  obtain ⟨probe, c₁, hprobe, hrest⟩ := goes_bind.mp h
  split_ifs at hrest
  · obtain ⟨-, rfl⟩ := goes_ensure.mp hrest
    exact env_confirm hprobe
  · obtain ⟨-, rfl⟩ := goes_pure.mp hrest
    exact env_confirm hprobe

theorem env_probePayment {apiKey : List Char} (h : Goes (probePayment probes apiKey) c u c') : c'.env = c.env := by
  obtain ⟨probe, c₁, hprobe, hrest⟩ := goes_bind.mp h
  split_ifs at hrest
  · obtain ⟨-, rfl⟩ := goes_ensure.mp hrest
    exact env_confirm hprobe
  · obtain ⟨-, rfl⟩ := goes_pure.mp hrest
    exact env_confirm hprobe

/-- A wizard that has taken `ch`. -/
def Took (ch : Choice) (c c' : Console) : Prop := ch.Ok c.env ∧ c'.env = ch.edits.foldl Edit.apply c.env

theorem goes_configureLogging (h : Goes configureLogging c u c') : Took .logging c c' := by
  obtain ⟨u₁, c₁, h₁, h₂⟩ := goes_bind.mp h
  obtain rfl := goes_edit.mp h₁
  obtain rfl := goes_edit.mp h₂
  exact ⟨trivial, rfl⟩

theorem goes_configureResend (h : Goes (configureResend probes) c u c') :
    ∃ apiKey fromAddr webhook : Line, Took (.resend apiKey fromAddr webhook) c c' := by
  unfold configureResend insert at h
  simp only [goes_bind, goes_edit, goes_ensure, goes_getEnv] at h
  obtain ⟨-, c₁, rfl, apiKey, c₂, hkey, -, c₃, ⟨hre, rfl⟩, -, c₄, rfl, cur, c₅, ⟨rfl, rfl⟩, fromAddr, c₆, hfrom, -, c₇,
    ⟨⟨hne, hat⟩, rfl⟩, -, c₈, rfl, webhook, c₉, hwebhook, -, c₁₀, rfl, hprobe⟩ := h
  refine ⟨apiKey, fromAddr, webhook, ⟨hre, hne, hat⟩, ?_⟩
  have hkeyEnv := env_askSecret hkey
  have hfromEnv := env_askDefault hfrom
  have hwebhookEnv := env_askSecret hwebhook
  simp only at hkeyEnv hfromEnv hwebhookEnv
  rw [env_probeEmail hprobe]
  simp only [hwebhookEnv, hfromEnv, hkeyEnv]
  rfl

theorem goes_configureEmail (h : Goes (configureEmail probes) c u c') : ∃ ch : Choice, ch.domain = .email ∧ Took ch c c' := by
  unfold configureEmail at h
  simp only [goes_bind, goes_getEnv] at h
  obtain ⟨provider, c₁, ⟨-, rfl⟩, adapter, c₂, ⟨-, rfl⟩, mode, c₃, hmode, h⟩ := h
  have henv := env_askMode hmode
  unfold Took
  rw [← henv]
  split_ifs at h
  · exact ⟨.logging, rfl, goes_configureLogging h⟩
  · obtain ⟨apiKey, fromAddr, webhook, htook⟩ := goes_configureResend h
    exact ⟨.resend apiKey fromAddr webhook, rfl, htook⟩

theorem goes_configurePrebaked (h : Goes configurePrebaked c u c') : Took .prebaked c c' := by
  unfold configurePrebaked insert remove at h
  simp only [goes_bind, goes_edit] at h
  obtain ⟨-, c₁, rfl, -, c₂, rfl, -, c₃, rfl, rfl⟩ := h
  exact ⟨trivial, rfl⟩

theorem goes_configureDidit (h : Goes (configureDidit probes) c u c') :
    ∃ apiKey workflowId webhook : Line, Took (.didit apiKey workflowId webhook) c c' := by
  unfold configureDidit insert at h
  simp only [goes_bind, goes_edit, goes_ensure, goes_getEnv] at h
  obtain ⟨-, c₁, rfl, apiKey, c₂, hkey, -, c₃, ⟨hne, rfl⟩, -, c₄, rfl, cur, c₅, ⟨rfl, rfl⟩, workflowId, c₆, hworkflow, -, c₇,
    ⟨huuid, rfl⟩, -, c₈, rfl, webhook, c₉, hwebhook, -, c₁₀, ⟨hsecret, rfl⟩, -, c₁₁, rfl, hprobe⟩ := h
  refine ⟨apiKey, workflowId, webhook, ⟨hne, huuid, hsecret⟩, ?_⟩
  have hkeyEnv := env_askSecret hkey
  have hworkflowEnv := env_askDefault hworkflow
  have hwebhookEnv := env_askSecret hwebhook
  simp only at hkeyEnv hworkflowEnv hwebhookEnv
  rw [env_probeKyc hprobe]
  simp only [hwebhookEnv, hworkflowEnv, hkeyEnv]
  rfl

theorem goes_configureKyc (h : Goes (configureKyc probes) c u c') : ∃ ch : Choice, ch.domain = .kyc ∧ Took ch c c' := by
  unfold configureKyc at h
  simp only [goes_bind, goes_getEnv] at h
  obtain ⟨current, c₁, ⟨-, rfl⟩, mode, c₂, hmode, h⟩ := h
  have henv := env_askMode hmode
  unfold Took
  rw [← henv]
  split_ifs at h
  · exact ⟨.prebaked, rfl, goes_configurePrebaked h⟩
  · obtain ⟨apiKey, workflowId, webhook, htook⟩ := goes_configureDidit h
    exact ⟨.didit apiKey workflowId webhook, rfl, htook⟩

theorem goes_configureMock (h : Goes configureMock c u c') : Took .mock c c' := by
  unfold configureMock insert remove at h
  simp only [goes_bind, goes_edit] at h
  obtain ⟨-, c₁, rfl, -, c₂, rfl, -, c₃, rfl, -, c₄, rfl, rfl⟩ := h
  exact ⟨trivial, rfl⟩

theorem goes_configureReuse {apiKey : List Char} (h : Goes (configureReuse apiKey) c u c') : ∃ reuse : Bool,
    (reuse = true → isTestSecret apiKey = true) ∧ c'.env = Edit.apply c.env ⟨.paymentAllowTestCardReuse, reuseText reuse⟩ := by
  unfold configureReuse insert remove at h
  split_ifs at h with htest
  · simp only [goes_bind, goes_getEnv] at h
    obtain ⟨current, c₁, ⟨-, rfl⟩, reuse, c₂, hreuse, h⟩ := h
    refine ⟨reuse, fun _ => htest, ?_⟩
    rw [← env_confirm hreuse]
    cases reuse <;> exact congrArg Console.env (goes_edit.mp h)
  · exact ⟨false, nofun, congrArg Console.env (goes_edit.mp h)⟩

theorem textOf_foldl {es : List Edit} {s : Setting} (h : ∀ e ∈ es, s ≠ e.setting) : textOf (es.foldl Edit.apply env) s = textOf env s := by
  unfold textOf
  rw [get_foldl_apply_other fun e he heq => h e he (key_inj.mp heq)]

theorem goes_configureStripe (h : Goes (configureStripe probes) c u c') :
    ∃ (apiKey pubKey webhook : Line) (reuse : Bool), Took (.stripe apiKey pubKey webhook reuse) c c' := by
  unfold configureStripe insert at h
  simp only [goes_bind, goes_edit, goes_ensure, goes_getEnv] at h
  obtain ⟨-, c₁, rfl, apiKey, c₂, hkey, -, c₃, ⟨hsecret, rfl⟩, -, c₄, rfl, cur, c₅, ⟨rfl, rfl⟩, pubKey, c₆, hpub, -, c₇,
    ⟨hpublic, rfl⟩, -, c₈, ⟨hmode, rfl⟩, -, c₉, rfl, bssEnv, c₁₀, ⟨rfl, rfl⟩, -, c₁₁, ⟨hproduction, rfl⟩, webhook, c₁₂, hwebhook, -, c₁₃,
    ⟨hwhsec, rfl⟩, -, c₁₄, rfl, u₁, c₁₅, hreuse, hprobe⟩ := h
  obtain ⟨reuse, htest, hreuse⟩ := goes_configureReuse hreuse
  have hkeyEnv := env_askSecret hkey
  have hpubEnv := env_askDefault hpub
  have hwebhookEnv := env_askSecret hwebhook
  simp only at hkeyEnv hpubEnv hwebhookEnv hreuse
  have henv : c'.env = (Choice.stripe apiKey pubKey webhook reuse).edits.foldl Edit.apply c.env := by
    rw [env_probePayment hprobe, hreuse]
    simp only [hwebhookEnv, hpubEnv, hkeyEnv]
    rfl
  refine ⟨apiKey, pubKey, webhook, reuse, ⟨hsecret, hpublic, hmode, ?_, hwhsec, htest⟩, henv⟩
  rw [charsOf_get] at hproduction
  simp only [hpubEnv, hkeyEnv] at hproduction
  have hsame : textOf c.env .bssEnv = textOf (([⟨.paymentProvider, some stripe⟩, ⟨.paymentStripeApiKey, some apiKey⟩,
      ⟨.paymentStripePublishableKey, some pubKey⟩] : List Edit).foldl Edit.apply c.env) .bssEnv := (textOf_foldl (by simp)).symm
  rw [hsame]
  exact hproduction

theorem goes_configurePayment (h : Goes (configurePayment probes) c u c') : ∃ ch : Choice, ch.domain = .payment ∧ Took ch c c' := by
  unfold configurePayment at h
  simp only [goes_bind, goes_getEnv] at h
  obtain ⟨current, c₁, ⟨-, rfl⟩, mode, c₂, hmode, h⟩ := h
  have henv := env_askMode hmode
  unfold Took
  rw [← henv]
  split_ifs at h
  · exact ⟨.mock, rfl, goes_configureMock h⟩
  · obtain ⟨apiKey, pubKey, webhook, reuse, htook⟩ := goes_configureStripe h
    exact ⟨.stripe apiKey pubKey webhook reuse, rfl, htook⟩

/-- A domain that is done has one of its providers. -/
theorem goes_configure {d : Domain} (h : Goes (configure probes d) c u c') : ∃ ch : Choice, ch.domain = d ∧ Took ch c c' :=
  match d with
  | .email => goes_configureEmail h
  | .kyc => goes_configureKyc h
  | .payment => goes_configurePayment h

/-! ## What holds of the choices -/

theorem domain_of_mem {s : Setting} {d d' : Domain} (h : s ∈ d.settings) (h' : s ∈ d'.settings) : d = d' := by
  revert s
  cases d <;> cases d' <;> decide

theorem bssEnv_not_mem (d : Domain) : Setting.bssEnv ∉ d.settings := by
  cases d <;> decide

theorem textOf_edits {ch : Choice} {s : Setting} (h : s ∉ ch.domain.settings) : textOf (ch.edits.foldl Edit.apply env) s = textOf env s :=
  textOf_foldl fun e he heq => h (heq ▸ edits_settings ch e he)

theorem ok_edits {ch ch' : Choice} (h : ch.Ok env) : ch.Ok (ch'.edits.foldl Edit.apply env) := by
  cases ch with
  | stripe apiKey pubKey webhook reuse =>
    unfold Choice.Ok
    rw [textOf_edits (bssEnv_not_mem _)]
    exact h
  | _ => exact h

theorem Took.holds {ch : Choice} (h : Took ch c c') : ch.Holds c'.env := by
  obtain ⟨hok, henv⟩ := h
  rw [henv]
  exact ⟨fun e he => get_foldl_apply (nodup_edits ch) he, ok_edits hok⟩

/-- A domain leaves the settings of the others alone. -/
theorem Choice.Holds.of_took {ch ch' : Choice} (h : ch.Holds c.env) (hd : ch.domain ≠ ch'.domain) (htook : Took ch' c c') :
    ch.Holds c'.env := by
  rw [htook.2]
  refine ⟨fun e he => ?_, ok_edits h.ok⟩
  rw [get_foldl_apply_other, h.written e he]
  intro e' he' heq
  have hmem' := edits_settings ch' e' he'
  rw [← key_inj.mp heq] at hmem'
  exact hd (domain_of_mem (edits_settings ch e he) hmem')

theorem Took.get_other {ch : Choice} (h : Took ch c c') {k : List Char} (hk : ∀ s ∈ ch.domain.settings, k ≠ s.key) :
    Fields.get c'.env k = Fields.get c.env k := by
  rw [h.2]
  exact get_foldl_apply_other fun e he => hk _ (edits_settings ch e he)

theorem envOr_some {s : Setting} {v : List Char} (h : Fields.get env s.key = some v) (hv : v ≠ []) (default : List Char) :
    envOr env s default = v := by
  unfold envOr
  rw [h, Option.filter_some, if_pos (by simpa using hv), Option.getD_some]

theorem envOr_textOf (s : Setting) : envOr env s [] = textOf env s := by
  unfold envOr textOf
  cases Fields.get env s.key with
  | none => rfl
  | some v => by_cases hv : v = [] <;> simp [Option.filter_some, hv]

theorem textOf_some {s : Setting} {v : List Char} (h : Fields.get env s.key = some v) : textOf env s = v := by
  unfold textOf
  rw [h, Option.getD_some]

variable {t : Texts}

theorem emailAdapterOf_eq (hlower : ∀ s, (∀ x ∈ s, x.isLower = true) → t.lower s = s) {name : List Char}
    (hname : Fields.get env Setting.emailProvider.key = some name) (hne : name ≠ []) (hlow : ∀ x ∈ name, x.isLower = true)
    (htrim : trim name = name) :
    emailAdapterOf t env = selectAdapter t name (textOf env .emailResendApiKey) (textOf env .emailFrom) ∧ t.lower name = name := by
  refine ⟨?_, hlower name hlow⟩
  unfold emailAdapterOf resolveProviderName
  rw [envOr_some hname hne, htrim, if_neg fun h => hne h.1, if_neg hne, envOr_textOf, envOr_textOf]

theorem ne_nil_of_startsWith {p s : List Char} (hp : p ≠ []) (h : startsWith p s = true) : s ≠ [] := by
  rintro rfl
  exact hp (List.prefix_nil.mp (List.isPrefixOf_iff_prefix.mp h))

/-- A text starts with one of the prefixes of a length. -/
theorem startsWith_other {p q s : List Char} (hlen : p.length = q.length) (hne : p ≠ q) (hp : startsWith p s = true) :
    startsWith q s = false := by
  refine Bool.eq_false_iff.mpr fun hq => hne ?_
  have hp' := List.isPrefixOf_iff_prefix.mp hp
  exact (List.prefix_of_prefix_length_le hp' (List.isPrefixOf_iff_prefix.mp hq) hlen.le).eq_of_length hlen

/-- The keys that the wizard takes are not restricted ones. -/
theorem not_restricted {key : List Char} (h : isTestSecret key = true ∨ isLiveSecret key = true) :
    isRestrictedTest key = false ∧ isRestrictedLive key = false := by
  rcases h with h | h <;> exact ⟨startsWith_other (by decide) (by decide) h, startsWith_other (by decide) (by decide) h⟩

theorem not_live {key : List Char} (h : isTestSecret key = true) : isLiveSecret key = false :=
  startsWith_other (by decide) (by decide) h

theorem selectTokenizer_stripe {apiKey pubKey webhook : Line} {reuse : Bool} (h : (Choice.stripe apiKey pubKey webhook reuse).Holds env) :
    selectTokenizer (.ok ()) (.fromEnv env) = .ok (.stripe ⟨apiKey.chars, pubKey.chars, webhook.chars, reuse⟩) := by
  obtain ⟨hwritten, hsecret, hpublic, hmode, hproduction, hwebhook, hreuse⟩ := h
  simp only [Choice.edits, List.forall_mem_cons, Option.map_some] at hwritten
  obtain ⟨hprovider, hkey, hpub, hsecretText, hallow, -⟩ := hwritten
  obtain ⟨hrt, hrl⟩ := not_restricted hsecret
  have hkeyNe : apiKey.chars ≠ [] := by
    rcases hsecret with h | h <;> exact ne_nil_of_startsWith (by decide) h
  have hpubNe : pubKey.chars ≠ [] := by
    rcases hpublic with h | h <;> exact ne_nil_of_startsWith (by decide) h
  have hwebhookNe : webhook.chars ≠ [] := ne_nil_of_startsWith (by decide) hwebhook
  have henv : (envOr env .bssEnv "development".toList = production) ↔ textOf env .bssEnv = production := by
    unfold envOr textOf
    cases Fields.get env Setting.bssEnv.key with
    | none => exact iff_of_false (by decide) (by decide)
    | some v =>
      by_cases hv : v = []
      · subst hv
        exact iff_of_false (by decide) (by decide)
      · simp [Option.filter_some, hv]
  have hallowed : envBool env .paymentAllowTestCardReuse false = reuse := by
    unfold envBool
    rw [hallow]
    cases reuse <;> rfl
  have hsettings : PaymentSettings.fromEnv env = ⟨envOr env .bssEnv "development".toList, stripe.chars, apiKey.chars, pubKey.chars,
      webhook.chars, reuse⟩ := by
    unfold PaymentSettings.fromEnv
    rw [envOr_some hprovider (by decide), envOr_textOf, envOr_textOf, envOr_textOf, textOf_some hkey, textOf_some hpub,
      textOf_some hsecretText, hallowed]
  rw [hsettings]
  unfold selectTokenizer
  rw [if_neg (show ¬ stripe.chars = mock.chars by decide), if_pos rfl]
  unfold buildStripe
  simp only [hrt, hrl, Bool.or_false, henv]
  rw [if_neg hkeyNe, if_neg hpubNe, if_neg hwebhookNe, if_neg (by simpa [or_iff_not_imp_left] using hsecret),
    if_neg (by simpa [or_iff_not_imp_left] using hpublic), if_neg (not_not_intro hmode), if_neg hproduction,
    if_neg fun h => by simp [not_live (hreuse h.1)] at h]

theorem Choice.Holds.runs (hlower : ∀ s, (∀ x ∈ s, x.isLower = true) → t.lower s = s) {ch : Choice} (h : ch.Holds env) :
    ch.Runs t env := by
  cases ch with
  | logging =>
    obtain ⟨hwritten, -⟩ := h
    obtain ⟨hadapter, hlow⟩ := emailAdapterOf_eq hlower (hwritten _ List.mem_cons_self) (by decide) (List.all_eq_true.mp (by decide)) (by decide)
    unfold Choice.Runs
    rw [hadapter, selectAdapter, if_pos hlow]
  | resend apiKey fromAddr webhook =>
    obtain ⟨hwritten, hkey, hfrom, -⟩ := h
    simp only [Choice.edits, List.forall_mem_cons, Option.map_some] at hwritten
    obtain ⟨hprovider, hapiKey, hfromAddr, -, -⟩ := hwritten
    obtain ⟨hadapter, hlow⟩ := emailAdapterOf_eq hlower hprovider (by decide) (List.all_eq_true.mp (by decide)) (by decide)
    unfold Choice.Runs
    rw [hadapter, selectAdapter, hlow, if_neg (by decide), if_neg (by decide), if_pos rfl, textOf_some hapiKey, textOf_some hfromAddr,
      if_neg (ne_nil_of_startsWith (by decide) hkey), if_neg hfrom]
  | prebaked =>
    obtain ⟨hwritten, -⟩ := h
    unfold Choice.Runs kycAdapterOf
    rw [envOr_some (hwritten _ List.mem_cons_self) (by decide), if_neg (by decide)]
  | didit apiKey workflowId webhook =>
    obtain ⟨hwritten, hkey, huuid, -⟩ := h
    simp only [Choice.edits, List.forall_mem_cons, Option.map_some] at hwritten
    obtain ⟨hprovider, hapiKey, hworkflow, -, -⟩ := hwritten
    have hne : workflowId.chars ≠ [] := fun hnil => by
      rw [hnil] at huuid
      exact absurd huuid (by decide)
    unfold Choice.Runs kycAdapterOf
    rw [envOr_some hprovider (by decide), if_pos (by decide), envOr_textOf, envOr_textOf, textOf_some hapiKey, textOf_some hworkflow,
      if_neg (not_or.mpr ⟨hkey, hne⟩)]
  | mock =>
    obtain ⟨hwritten, -⟩ := h
    unfold Choice.Runs selectTokenizer PaymentSettings.fromEnv
    rw [if_pos (envOr_some (hwritten _ List.mem_cons_self) (by decide) _)]
  | stripe apiKey pubKey webhook reuse => exact selectTokenizer_stripe h

theorem goes_configureAll {ds : List Domain} (h : Goes (configureAll probes ds) c u c') :
    (∀ ch : Choice, ch.Holds c.env → ch.domain ∉ ds → ch.Holds c'.env) ∧ (∀ d ∈ ds, ∃ ch : Choice, ch.domain = d ∧ ch.Holds c'.env) ∧
      ∀ k, (∀ d ∈ ds, ∀ s ∈ d.settings, k ≠ s.key) → Fields.get c'.env k = Fields.get c.env k := by
  induction ds generalizing c with
  | nil =>
    obtain ⟨-, rfl⟩ := goes_pure.mp h
    exact ⟨fun ch hch _ => hch, nofun, fun k _ => rfl⟩
  | cons d ds ih =>
    obtain ⟨u₁, c₁, hd, hds⟩ := goes_bind.mp h
    obtain ⟨ch, rfl, htook⟩ := goes_configure hd
    obtain ⟨hstays, hdone, hother⟩ := ih hds
    refine ⟨fun ch' hch' hnot => ?_, fun d' hd' => ?_, fun k hk => ?_⟩
    · rw [List.mem_cons, not_or] at hnot
      exact hstays ch' (hch'.of_took hnot.1 htook) hnot.2
    · -- the last time that a domain is asked for is the one that counts
      by_cases hagain : d' ∈ ds
      · exact hdone d' hagain
      · obtain rfl | hmem := List.mem_cons.mp hd'
        · exact ⟨ch, rfl, hstays ch htook.holds hagain⟩
        · exact absurd hmem hagain
    · rw [List.forall_mem_cons] at hk
      rw [hother k hk.2, htook.get_other hk.1]

/-- Test keys of Stripe, whose cards may be used again, and no probe. -/
def sampleStart : Console where
  stdin := [⟨production, by decide⟩, ⟨"sk_test_1".toList, by decide⟩, ⟨"pk_test_1".toList, by decide⟩, ⟨"whsec_1".toList, by decide⟩,
    ⟨['y'], by decide⟩, ⟨['n'], by decide⟩]
  env := []
  ok := ⟨List.nodup_nil, nofun, nofun⟩

def sampleProbes : Probes := ⟨fun _ _ _ => true, fun _ _ => true, fun _ => false⟩

def sampleTexts : Texts := ⟨List.map Char.toLower, String.ofList⟩

def sampleEnd : Console := ((configureAll sampleProbes [.payment]).run.run sampleStart).2

theorem goes_sample : Goes (configureAll sampleProbes [.payment]) sampleStart () sampleEnd := by rfl

theorem lower_sample (s : List Char) (h : ∀ x ∈ s, x.isLower = true) : sampleTexts.lower s = s := by
  refine (List.map_congr_left fun x hx => ?_).trans (List.map_id s)
  have hlower : 'a'.val ≤ x.val ∧ x.val ≤ 'z'.val := by
    obtain ⟨hfirst, hlast⟩ := Bool.and_eq_true_iff.mp (h x hx)
    exact ⟨of_decide_eq_true hfirst, of_decide_eq_true hlast⟩
  refine dif_neg fun hupper => ?_
  exact absurd (UInt32.le_trans hlower.1 hupper.2) (by decide)

end

/-! ## Enter at every prompt -/

/-- Nothing but Enter is left. -/
def Quiet (c : Console) : Prop := ∀ l ∈ c.stdin, (lineText l).chars = []

/-- With Enter at every prompt `m` leaves the map `env` as it is, and it ends well, with `a`, just where `P` is. -/
def Keeps {α : Type} (m : Wizard α) (env : Env) (P : Prop) (a : α) : Prop := ∀ c, Quiet c → c.env = env → ∃ c₁, Quiet c₁ ∧ c₁.env = env ∧
  ∀ b c₂, Goes m c b c₂ ↔ P ∧ b = a ∧ c₂ = c₁

section

variable {α β : Type} {m : Wizard α} {f : α → Wizard β} {env : Env} {P Q : Prop} {a : α} {b : β} {e : Edit} {s : Setting}

theorem keeps_pure : Keeps (pure a) env True a :=
  fun c hc henv => ⟨c, hc, henv, fun _ _ => goes_pure.trans (iff_of_eq (true_and _)).symm⟩

theorem Keeps.bind (hm : Keeps m env P a) (hf : Keeps (f a) env Q b) : Keeps (m >>= f) env (P ∧ Q) b := by
  intro c hc henv
  obtain ⟨c₁, hc₁, henv₁, h₁⟩ := hm c hc henv
  obtain ⟨c₂, hc₂, henv₂, h₂⟩ := hf c₁ hc₁ henv₁
  refine ⟨c₂, hc₂, henv₂, fun b' c₃ => ?_⟩
  rw [goes_bind]
  constructor
  · rintro ⟨a', c', ha, hb⟩
    obtain ⟨hP, rfl, rfl⟩ := (h₁ _ _).mp ha
    obtain ⟨hQ, hrest⟩ := (h₂ _ _).mp hb
    exact ⟨⟨hP, hQ⟩, hrest⟩
  · rintro ⟨⟨hP, hQ⟩, hrest⟩
    exact ⟨a, c₁, (h₁ _ _).mpr ⟨hP, rfl, rfl⟩, (h₂ _ _).mpr ⟨hQ, hrest⟩⟩

theorem Keeps.congr (h : Keeps m env P a) (hPQ : P ↔ Q) : Keeps m env Q a := by
  rwa [← propext hPQ]

theorem Keeps.andThen (hm : Keeps m env True a) (hf : Keeps (f a) env Q b) : Keeps (m >>= f) env Q b :=
  (hm.bind hf).congr (iff_of_eq (true_and Q))

theorem keeps_ensure {code : ℕ} [Decidable P] : Keeps (ensure P code) env P () :=
  fun c hc henv => ⟨c, hc, henv, fun b c₂ => goes_ensure.trans (by simp)⟩

theorem keeps_ensured {code : ℕ} [Decidable P] (h : P) : Keeps (ensure P code) env True () := keeps_ensure.congr (iff_true_intro h)

theorem keeps_edit (h : Fields.get env e.setting.key = e.value.map Line.chars) : Keeps (edit e) env True () := by
  rintro ⟨stdin, env', hok⟩ hc rfl
  refine ⟨⟨stdin, env', hok⟩, hc, rfl, fun b c₂ => ?_⟩
  rw [goes_edit]
  simp [apply_eq_self hok h]

theorem keeps_insert {v : Line} (h : Fields.get env s.key = some v.chars) : Keeps (insert s v) env True () := keeps_edit (e := ⟨s, some v⟩) h

theorem keeps_remove (h : Fields.get env s.key = none) : Keeps (remove s) env True () := keeps_edit (e := ⟨s, none⟩) h

theorem chars_injective : Function.Injective Line.chars := by
  rintro ⟨a, ha⟩ ⟨b, hb⟩ rfl
  rfl

theorem keeps_getEnv {v : Option Line} (h : v.map Line.chars = Fields.get env s.key) : Keeps (getEnv s) env True v := by
  rintro c hc rfl
  refine ⟨c, hc, rfl, fun b c₂ => ?_⟩
  rw [goes_getEnv, ← Option.map_injective chars_injective (h.trans (map_get c s).symm), true_and]

theorem exists_line (h : EnvOk env) (s : Setting) : ∃ v : Option Line, v.map Line.chars = Fields.get env s.key :=
  ⟨Console.get ⟨[], env, h⟩ s, map_get _ s⟩

theorem keeps_readLine : Keeps readLine env True emptyLine := by
  rintro ⟨stdin, env', hok⟩ hc rfl
  cases stdin with
  | nil =>
    refine ⟨⟨[], env', hok⟩, hc, rfl, fun b c₂ => ?_⟩
    constructor
    · rintro ⟨⟩
      exact ⟨trivial, rfl, rfl⟩
    · rintro ⟨-, rfl, rfl⟩
      rfl
  | cons l stdin =>
    have hl : lineText l = emptyLine := chars_injective (hc l List.mem_cons_self)
    refine ⟨⟨stdin, env', hok⟩, fun l' hl' => hc l' (List.mem_cons_of_mem _ hl'), rfl, fun b c₂ => ?_⟩
    rw [← hl]
    constructor
    · rintro ⟨⟩
      exact ⟨trivial, rfl, rfl⟩
    · rintro ⟨-, rfl, rfl⟩
      rfl

theorem keeps_askDefault (default : Line) : Keeps (askDefault default) env True default := keeps_readLine.andThen keeps_pure

theorem keeps_askSecret {v : Line} (h : Fields.get env s.key = some v.chars) : Keeps (askSecret s) env True v :=
  (keeps_getEnv (v := some v) h.symm).andThen (keeps_askDefault v)

theorem keeps_confirm (default : Bool) : Keeps (confirm default) env True default := keeps_readLine.andThen keeps_pure

theorem choiceOf_quiet {choices : List (List Char)} {default : List Char} {stdin : List Line}
    (h : ∀ l ∈ stdin, (lineText l).chars = []) : choiceOf choices default stdin = (default, stdin.tail) := by
  cases stdin with
  | nil => rfl
  | cons l stdin => rw [choiceOf, if_pos (h l List.mem_cons_self), List.tail_cons]

theorem keeps_askMode (inProduction : Bool) : Keeps (askMode inProduction) env True (if inProduction then production else test) := by
  intro c hc henv
  refine ⟨{ c with stdin := c.stdin.tail }, fun l hl => hc l (List.mem_of_mem_tail hl), henv, fun b c₂ => ?_⟩
  have hchoice : choiceOf [test, production] (if inProduction then production else test) c.stdin = (_, c.stdin.tail) := choiceOf_quiet hc
  have hrun : (askMode inProduction).run.run c = (.ok (if inProduction then production else test), { c with stdin := c.stdin.tail }) := by
    show (Except.ok (choiceOf _ _ c.stdin).1, { c with stdin := (choiceOf _ _ c.stdin).2 }) = _
    rw [hchoice]
  unfold Goes
  rw [hrun]
  constructor
  · rintro ⟨⟩
    exact ⟨trivial, rfl, rfl⟩
  · rintro ⟨-, rfl, rfl⟩
    rfl

variable {probes : Probes}

theorem keeps_probeEmail (apiKey fromAddr : List Char) :
    Keeps (probeEmail probes apiKey fromAddr) env (probes.resend apiKey fromAddr [] = true) () := by
  refine (keeps_confirm true).andThen ?_
  rw [if_pos rfl]
  exact (keeps_askDefault emptyLine).andThen keeps_ensure

theorem keeps_probeKyc (apiKey workflowId : List Char) :
    Keeps (probeKyc probes apiKey workflowId) env (probes.didit apiKey workflowId = true) () := by
  refine (keeps_confirm true).andThen ?_
  rw [if_pos rfl]
  exact keeps_ensure

theorem keeps_probePayment (apiKey : List Char) : Keeps (probePayment probes apiKey) env (probes.stripe apiKey = true) () := by
  refine (keeps_confirm true).andThen ?_
  rw [if_pos rfl]
  exact keeps_ensure

theorem currentEmail_some {v : Line} (h : v.chars ≠ []) (adapter : Option Line) : currentEmail (some v) adapter = v.chars := by
  unfold currentEmail charsOf
  rw [Option.filter_some, if_pos (by simpa using h), Option.some_or, Option.getD_some]

theorem keeps_configureResend {apiKey fromAddr webhook : Line} (h : (Choice.resend apiKey fromAddr webhook).Holds env) :
    Keeps (configureResend probes) env (probes.resend apiKey.chars fromAddr.chars [] = true) () := by
  obtain ⟨hwritten, hkey, hfrom, hat⟩ := h
  simp only [Choice.edits, List.forall_mem_cons, Option.map_some] at hwritten
  obtain ⟨hprovider, hapiKey, hfromAddr, hwebhook, -⟩ := hwritten
  unfold configureResend
  apply (keeps_insert hprovider).andThen
  apply (keeps_askSecret hapiKey).andThen
  apply (keeps_ensured hkey).andThen
  apply (keeps_insert hapiKey).andThen
  apply (keeps_getEnv (v := some fromAddr) hfromAddr.symm).andThen
  apply (keeps_askDefault fromAddr).andThen
  apply (keeps_ensured ⟨hfrom, hat⟩).andThen
  apply (keeps_insert hfromAddr).andThen
  apply (keeps_askSecret hwebhook).andThen
  apply (keeps_insert hwebhook).andThen
  exact keeps_probeEmail apiKey.chars fromAddr.chars

theorem keeps_configureEmail (hok : EnvOk env) {ch : Choice} (hd : ch.domain = .email) (h : ch.Holds env) :
    Keeps (configureEmail probes) env (ch.Probed probes) () := by
  obtain ⟨adapter, hadapter⟩ := exists_line hok .emailAdapter
  have hwritten := h.written
  cases ch with
  | logging =>
    simp only [Choice.edits, List.forall_mem_cons, Option.map_some, Option.map_none] at hwritten
    unfold configureEmail
    apply (keeps_getEnv (v := some logging) hwritten.1.symm).andThen
    apply (keeps_getEnv hadapter).andThen
    rw [currentEmail_some (by decide)]
    apply (keeps_askMode _).andThen
    rw [if_pos (by decide)]
    exact (keeps_insert hwritten.1).andThen (keeps_remove hwritten.2.1)
  | resend apiKey fromAddr webhook =>
    simp only [Choice.edits, List.forall_mem_cons, Option.map_some] at hwritten
    unfold configureEmail
    apply (keeps_getEnv (v := some resend) hwritten.1.symm).andThen
    apply (keeps_getEnv hadapter).andThen
    rw [currentEmail_some (by decide)]
    apply (keeps_askMode _).andThen
    rw [if_neg (by decide)]
    exact keeps_configureResend h
  | _ => cases hd

theorem keeps_configureDidit {apiKey workflowId webhook : Line} (h : (Choice.didit apiKey workflowId webhook).Holds env) :
    Keeps (configureDidit probes) env (probes.didit apiKey.chars workflowId.chars = true) () := by
  obtain ⟨hwritten, hkey, huuid, hsecret⟩ := h
  simp only [Choice.edits, List.forall_mem_cons, Option.map_some] at hwritten
  obtain ⟨hprovider, hapiKey, hworkflow, hwebhook, -⟩ := hwritten
  unfold configureDidit
  apply (keeps_insert hprovider).andThen
  apply (keeps_askSecret hapiKey).andThen
  apply (keeps_ensured hkey).andThen
  apply (keeps_insert hapiKey).andThen
  apply (keeps_getEnv (v := some workflowId) hworkflow.symm).andThen
  apply (keeps_askDefault workflowId).andThen
  apply (keeps_ensured huuid).andThen
  apply (keeps_insert hworkflow).andThen
  apply (keeps_askSecret hwebhook).andThen
  apply (keeps_ensured hsecret).andThen
  apply (keeps_insert hwebhook).andThen
  exact keeps_probeKyc apiKey.chars workflowId.chars

theorem keeps_configureKyc {ch : Choice} (hd : ch.domain = .kyc) (h : ch.Holds env) :
    Keeps (configureKyc probes) env (ch.Probed probes) () := by
  have hwritten := h.written
  cases ch with
  | prebaked =>
    simp only [Choice.edits, List.forall_mem_cons, Option.map_some, Option.map_none] at hwritten
    obtain ⟨hprovider, hapiKey, hworkflow, hwebhook, -⟩ := hwritten
    unfold configureKyc
    apply (keeps_getEnv (v := some prebaked) hprovider.symm).andThen
    apply (keeps_askMode _).andThen
    rw [if_pos (by decide)]
    apply (keeps_insert hprovider).andThen
    apply (keeps_remove hapiKey).andThen
    apply (keeps_remove hworkflow).andThen
    exact keeps_remove hwebhook
  | didit apiKey workflowId webhook =>
    simp only [Choice.edits, List.forall_mem_cons, Option.map_some] at hwritten
    unfold configureKyc
    apply (keeps_getEnv (v := some didit) hwritten.1.symm).andThen
    apply (keeps_askMode _).andThen
    rw [if_neg (by decide)]
    exact keeps_configureDidit h
  | _ => cases hd

theorem keeps_configureReuse {apiKey : List Char} {reuse : Bool} (htest : reuse = true → isTestSecret apiKey = true)
    (h : Fields.get env Setting.paymentAllowTestCardReuse.key = (reuseText reuse).map Line.chars) :
    Keeps (configureReuse apiKey) env True () := by
  unfold configureReuse
  cases reuse with
  | true =>
    rw [if_pos (htest rfl)]
    apply (keeps_getEnv (v := some trueText) h.symm).andThen
    apply (keeps_confirm _).andThen
    rw [if_pos (by decide)]
    exact keeps_insert h
  | false =>
    split_ifs
    · apply (keeps_getEnv (v := none) h.symm).andThen
      apply (keeps_confirm _).andThen
      rw [if_neg (by decide)]
      exact keeps_remove h
    · exact keeps_remove h

theorem keeps_configureStripe (hok : EnvOk env) {apiKey pubKey webhook : Line} {reuse : Bool}
    (h : (Choice.stripe apiKey pubKey webhook reuse).Holds env) :
    Keeps (configureStripe probes) env (probes.stripe apiKey.chars = true) () := by
  obtain ⟨hwritten, hsecret, hpublic, hmode, hproduction, hwhsec, hreuse⟩ := h
  simp only [Choice.edits, List.forall_mem_cons, Option.map_some] at hwritten
  obtain ⟨hprovider, hapiKey, hpubKey, hwebhook, hallow, -⟩ := hwritten
  obtain ⟨bssEnv, hbssEnv⟩ := exists_line hok .bssEnv
  have htext : charsOf bssEnv = textOf env .bssEnv := by
    unfold textOf charsOf
    rw [← hbssEnv]
    cases bssEnv <;> rfl
  unfold configureStripe
  apply (keeps_insert hprovider).andThen
  apply (keeps_askSecret hapiKey).andThen
  apply (keeps_ensured hsecret).andThen
  apply (keeps_insert hapiKey).andThen
  apply (keeps_getEnv (v := some pubKey) hpubKey.symm).andThen
  apply (keeps_askDefault pubKey).andThen
  apply (keeps_ensured hpublic).andThen
  apply (keeps_ensured hmode).andThen
  apply (keeps_insert hpubKey).andThen
  apply (keeps_getEnv hbssEnv).andThen
  rw [htext]
  apply (keeps_ensured hproduction).andThen
  apply (keeps_askSecret hwebhook).andThen
  apply (keeps_ensured hwhsec).andThen
  apply (keeps_insert hwebhook).andThen
  apply (keeps_configureReuse hreuse hallow).andThen
  exact keeps_probePayment apiKey.chars

theorem keeps_configurePayment (hok : EnvOk env) {ch : Choice} (hd : ch.domain = .payment) (h : ch.Holds env) :
    Keeps (configurePayment probes) env (ch.Probed probes) () := by
  have hwritten := h.written
  cases ch with
  | mock =>
    simp only [Choice.edits, List.forall_mem_cons, Option.map_some, Option.map_none] at hwritten
    obtain ⟨hprovider, hapiKey, hpubKey, hwebhook, hallow, -⟩ := hwritten
    unfold configurePayment
    apply (keeps_getEnv (v := some mock) hprovider.symm).andThen
    apply (keeps_askMode _).andThen
    rw [if_pos (by decide)]
    apply (keeps_insert hprovider).andThen
    apply (keeps_remove hapiKey).andThen
    apply (keeps_remove hpubKey).andThen
    apply (keeps_remove hwebhook).andThen
    exact keeps_remove hallow
  | stripe apiKey pubKey webhook reuse =>
    simp only [Choice.edits, List.forall_mem_cons, Option.map_some] at hwritten
    unfold configurePayment
    apply (keeps_getEnv (v := some stripe) hwritten.1.symm).andThen
    apply (keeps_askMode _).andThen
    rw [if_neg (by decide)]
    exact keeps_configureStripe hok h
  | _ => cases hd

theorem keeps_configure (hok : EnvOk env) {ch : Choice} (h : ch.Holds env) :
    Keeps (configure probes ch.domain) env (ch.Probed probes) () := by
  cases hd : ch.domain with
  | email => exact keeps_configureEmail hok hd h
  | kyc => exact keeps_configureKyc hd h
  | payment => exact keeps_configurePayment hok hd h

theorem keeps_configureAll (hok : EnvOk env) {choice : Domain → Choice} {ds : List Domain}
    (h : ∀ d ∈ ds, (choice d).domain = d ∧ (choice d).Holds env) :
    Keeps (configureAll probes ds) env (∀ d ∈ ds, (choice d).Probed probes) () := by
  induction ds with
  | nil => exact keeps_pure.congr (by simp)
  | cons d ds ih =>
    rw [List.forall_mem_cons] at h
    have hd : Keeps (configure probes (choice d).domain) env _ () := keeps_configure hok h.1.2
    rw [h.1.1] at hd
    exact (hd.bind (ih h.2)).congr (List.forall_mem_cons (p := fun d => (choice d).Probed probes)).symm

end

/-! ## Over many runs -/

/-- One run of the wizard: what it is asked to do, what is typed and what the providers say. -/
structure Session where
  domains : List Domain
  stdin : List Line
  probes : Probes

/-- How the wizard ends on a file. -/
def Session.ends (s : Session) (text : Option (List Char)) : Except ℕ Unit × Console :=
  (configureAll s.probes s.domains).run.run ⟨s.stdin, readEnvFile (text.getD []), envOk_readEnvFile _⟩

def Session.file (s : Session) (text : Option (List Char)) : Option (List Char) := onboard s.probes s.domains s.stdin text

/-- The file after some runs. -/
def files (text : Option (List Char)) (sessions : List Session) : Option (List Char) := sessions.foldl (fun text s => s.file text) text

/-- The runs that ended well. -/
def wellRuns (text : Option (List Char)) : List Session → ℕ
  | [] => 0
  | s :: sessions => (if (s.ends text).1.isOk then 1 else 0) + wellRuns (s.file text) sessions

/-- A run that does not end well leaves the file as it is, and one that does reads and writes it once. -/
theorem file_eq (s : Session) (text : Option (List Char)) : ((s.ends text).1.isOk = false ∧ s.file text = text) ∨
    (s.ends text).1.isOk = true ∧ ∃ c' : Console, Goes (configureAll s.probes s.domains)
      ⟨s.stdin, readEnvFile (text.getD []), envOk_readEnvFile _⟩ () c' ∧ s.file text = some (writeEnvFile text c'.env) := by
  unfold Session.file onboard
  rcases hends : s.ends text with ⟨e | u, c'⟩
  · exact .inl ⟨rfl, by rw [show (configureAll s.probes s.domains).run.run _ = _ from hends]⟩
  · exact .inr ⟨rfl, c', hends, by rw [show (configureAll s.probes s.domains).run.run _ = _ from hends]⟩

theorem get_file {s : Session} {text : Option (List Char)} {k : List Char} (hk : ∀ d ∈ s.domains, ∀ t ∈ d.settings, k ≠ t.key) :
    Fields.get (readEnvFile ((s.file text).getD [])) k =
      (Fields.get (readEnvFile (text.getD [])) k).map readBack^[if (s.ends text).1.isOk then 1 else 0] := by
  obtain ⟨hends, hfile⟩ | ⟨hends, c', hgoes, hfile⟩ := file_eq s text
  · rw [hfile, if_neg (by simp [hends])]
    exact (Option.map_id_apply).symm
  · obtain ⟨-, -, hother⟩ := goes_configureAll hgoes
    rw [hfile, if_pos hends, Option.getD_some, get_readEnvFile c'.ok, hother k hk]
    rfl

theorem comments_file (s : Session) (text : Option (List Char)) : comments (lines ((s.file text).getD [])) = comments (lines (text.getD [])) ∨
    (s.ends text).1.isOk = true ∧ comments (lines ((s.file text).getD [])) = comments (lines (text.getD [])) ++ [trim banner] := by
  obtain ⟨-, hfile⟩ | ⟨hends, c', -, hfile⟩ := file_eq s text
  · rw [hfile]
    exact .inl rfl
  · rw [hfile, Option.getD_some, comments_written text c'.ok]
    split_ifs
    · exact .inl (List.append_nil _)
    · exact .inr ⟨hends, rfl⟩

/-- Over many runs, a setting that no domain has is read back once for each run that ends well, so that its backslashes double each
time where it has to stand in quotes. The comments stay, and no run adds more than one. -/
theorem wizard_rewrites_the_file (text : Option (List Char)) (sessions : List Session) :
    (∀ k, (∀ s ∈ sessions, ∀ d ∈ s.domains, ∀ t ∈ d.settings, k ≠ t.key) →
      Fields.get (readEnvFile ((files text sessions).getD [])) k =
        (Fields.get (readEnvFile (text.getD [])) k).map readBack^[wellRuns text sessions]) ∧
      (∀ v, readBack^[wellRuns text sessions] v = v ↔ wellRuns text sessions = 0 ∨ readBack v = v) ∧
      (∀ v, needsQuotes v = true → 2 ^ wellRuns text sessions * v.count '\\' ≤ (readBack^[wellRuns text sessions] v).count '\\') ∧
      ∃ n ≤ wellRuns text sessions, comments (lines ((files text sessions).getD [])) =
        comments (lines (text.getD [])) ++ List.replicate n (trim banner) := by
  refine ⟨fun k hk => ?_, fun v => ?_, fun v hv => count_readBack_iterate hv _, ?_⟩
  · induction sessions generalizing text with
    | nil => exact (Option.map_id_apply).symm
    | cons s sessions ih =>
      rw [List.forall_mem_cons] at hk
      have hrest := ih (s.file text) hk.2
      rw [get_file hk.1, Option.map_map, ← Function.iterate_add, Nat.add_comm] at hrest
      exact hrest
  · cases wellRuns text sessions with
    | zero => simp
    | succ n => rw [readBack_iterate_eq_self_iff, or_iff_right (Nat.succ_ne_zero n)]
  · induction sessions generalizing text with
    | nil => exact ⟨0, le_rfl, (List.append_nil _).symm⟩
    | cons s sessions ih =>
      obtain ⟨n, hn, hrest⟩ := ih (s.file text)
      obtain hsame | ⟨hends, hadded⟩ := comments_file s text
      · exact ⟨n, hn.trans (Nat.le_add_left _ _), by rw [← hsame]; exact hrest⟩
      · refine ⟨n + 1, ?_, ?_⟩
        · rw [wellRuns, if_pos hends]
          omega
        · rw [show files text (s :: sessions) = files (s.file text) sessions from rfl, hrest, hadded, List.append_assoc]
          rfl

end BssCli.Onboard
