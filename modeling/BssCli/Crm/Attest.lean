import BssCli.Crm.Cases
import BssCli.Lib.Steps
import BssCli.Lib.Utf8
import BssCli.Webhooks.Corroboration

/-!
# The attestation of a customer

`attest_kyc`. The checks read what is committed at that moment. The transaction that
follows meets the unique keys of `customer_identity`, which other calls may have written.
-/

namespace BssCli.Crm.Attest

open Cases (InteractionRow)
open Utf8 Webhooks

inductive ApiError
  | policy (pv : PolicyViolation)
  | badRequest (detail : String)
  | internal (detail : String)

/-- The environment of the process, and the libraries. -/
structure Env where
  vars : String → Option String
  toUppercase : List Char → List Char
  toLowercase : String → String
  sha256 : List UInt8 → List UInt8
  /-- In days. -/
  parseDate : String → Except String ℤ
  parseRfc3339 : String → Except String Time
  parseUuid : String → Except String String

structure Call where
  tenant : String
  customerId : String
  provider : String
  providerReference : String
  documentType : String
  documentNumber : Option String
  documentNumberLast4 : Option String
  documentNumberHash : Option String
  documentCountry : String
  dateOfBirth : String
  nationality : Option String
  verifiedAt : String
  attestationPayload : Json
  corroborationId : Option String

/-! ## The tables -/

/-- The columns of `crm.customer` that are about the attestation. -/
structure CustomerRow where
  id : String
  kycStatus : String
  kycVerifiedAt : Option Time
  kycVerificationMethod : Option String
  kycReference : Option String

abbrev CustomerTable := Table CustomerRow.id (fun id : String => id)

/-- The type, the hash and the tenant. -/
abbrev Document := String × String × String

/-- A row of `crm.customer_identity`. -/
structure Identity where
  customerId : String
  documentType : String
  documentNumberHash : String
  documentNumberLast4 : List UInt8
  documentCountry : String
  dateOfBirth : ℤ
  nationality : Option String
  verifiedBy : String
  attestationPayload : Json
  verifiedAt : Time
  corroborationId : Option String
  tenantId : String

def Identity.document (r : Identity) : Document := (r.documentType, r.documentNumberHash, r.tenantId)

/-- One row for each customer, and one for each document. -/
structure Identities where
  rows : List Identity
  customers : (rows.map (·.customerId)).Nodup
  documents : (rows.map (·.document)).Nodup

structure KycDb where
  customers : CustomerTable
  identities : Identities
  corroborations : List Corroboration
  events : List Event
  interactions : List InteractionRow

def duplicateKey (constraint : String) : ApiError :=
  .internal s!"duplicate key value violates unique constraint \"{constraint}\""

def missingKey (constraint : String) : ApiError :=
  .internal s!"insert or update on table \"customer_identity\" violates foreign key constraint \"{constraint}\""

namespace Identities

variable (t : Identities)

def remove (d : Document) : Identities where
  rows := t.rows.filter fun r => r.document ≠ d
  customers := t.customers.sublist (List.filter_sublist.map _)
  documents := t.documents.sublist (List.filter_sublist.map _)

theorem nodup_snoc {α : Type} {f : Identity → α} {r : Identity} (h : (t.rows.map f).Nodup) (hr : f r ∉ t.rows.map f) :
    ((t.rows ++ [r]).map f).Nodup := by
  rw [List.map_append, List.map_singleton]
  exact h.append (List.nodup_singleton _) (by simpa using hr)

def insert (r : Identity) : Except ApiError Identities :=
  if hc : r.customerId ∈ t.rows.map (·.customerId) then .error (duplicateKey "pk_customer_identity")
  else if hd : r.document ∈ t.rows.map (·.document) then .error (duplicateKey "uq_customer_identity_doc")
  else .ok ⟨t.rows ++ [r], t.nodup_snoc t.customers hc, t.nodup_snoc t.documents hd⟩

end Identities

/-- What is longer is cut off where it is all spaces. -/
def varchar (n : ℕ) (s : List UInt8) : Except ApiError (List UInt8) :=
  let chars (s : List UInt8) := s.countP fun b => !(isCont b)
  let kept := s.rdropWhile fun b => b = 0x20
  if chars s ≤ n then .ok s
  else if chars kept ≤ n then .ok (kept ++ List.replicate (n - chars kept) 0x20)
  else .error (.internal s!"value too long for type character varying({n})")

def refuse (rule message : String) (context : Object) : ApiError := .policy ⟨rule, message, context⟩

section

variable (env : Env)

/-! ## The environment -/

def isYes (v : String) : Bool := env.toLowercase v ∈ ["1", "true", "yes"]

def allowPrebaked : Bool :=
  match (env.vars "BSS_KYC_ALLOW_PREBAKED").filter (· ≠ "") with
  | some v => isYes env v
  | none => env.toLowercase ((env.vars "BSS_ENV").getD "") ≠ "production"

def allowDocReuse : Bool := (env.vars "BSS_KYC_ALLOW_DOC_REUSE").any (isYes env)

/-! ## The document -/

def normalized (raw : String) : List Char := Text.trim (env.toUppercase raw.toList)

/-- The last four bytes. `none` where they start inside a character, and the slice panics. -/
def last4Of (number : List Char) : Option (List UInt8) :=
  let bytes := Text.utf8 number
  if bytes.length ≥ 4 then sliceFrom bytes (bytes.length - 4) else some bytes

def hashOf (number : List Char) (country provider : String) : String :=
  String.ofList (Text.hexLower (env.sha256 (Text.utf8
    (number ++ "|".toList ++ country.toList ++ "|".toList ++ provider.toList))))

variable (call : Call)

/-- The last four and the hash, as they are given or from the number. `none` is a panic. -/
def reduceDocument : Option (Except ApiError (List UInt8 × String)) :=
  match call.documentNumberLast4, call.documentNumberHash with
  | some l, some h => some (.ok (Text.utf8 l.toList, h))
  | _, _ =>
    match call.documentNumber with
    | none =>
      some (.error (refuse "customer.attest_kyc.document_required"
        "Either document_number (legacy) or (document_number_last4 + document_number_hash) must be supplied"
        [("provider", .str call.provider)]))
    | some raw =>
      let number := normalized env raw
      (last4Of number).map fun last4 => .ok (last4, hashOf env number call.documentCountry call.provider)

/-! ## The policies -/

variable (db : KycDb) (now : Time)

def checkCustomer : Except ApiError Unit :=
  if (db.customers.find call.customerId).isSome then .ok ()
  else .error (refuse "customer.attest_kyc.customer_exists" s!"Customer {call.customerId} does not exist"
    [("customer_id", .str call.customerId)])

def uncorroborated (message : String) (context : Object) : ApiError :=
  refuse "kyc.attestation.uncorroborated" message context

/-- In seconds. -/
def age (row : Corroboration) : ℚ := now / 1000000 - row.receivedAt

def checkCorroboration (cid : String) : Except ApiError Unit :=
  match db.corroborations.find? fun row => row.id = cid ∧ row.provider = providerDidit with
  | none =>
    .error (uncorroborated "No corroborating webhook delivery found for the supplied corroboration_id"
      [("corroboration_id", .str cid)])
  | some row =>
    if row.decisionStatus ≠ "Approved" then
      .error (uncorroborated
        s!"Corroborating webhook reports status '{row.decisionStatus}'; only 'Approved' attestations are acceptable"
        [("decision_status", .str row.decisionStatus)])
    else if age now row > 1800 then
      .error (uncorroborated "Corroborating webhook is older than the freshness window (0:30:00)"
        [("age_seconds", .int ⌊age now row⌋)])
    else .ok ()

def checkAttestationSignature : Except ApiError Unit :=
  if call.provider = providerDidit then
    match call.corroborationId with
    | none =>
      .error (uncorroborated "Didit attestation requires corroboration_id" [("provider", .str call.provider)])
    | some cid =>
      match env.parseUuid cid with
      | .error e => .error (uncorroborated s!"Malformed corroboration_id: {e}" [("provider", .str call.provider)])
      | .ok cid => checkCorroboration db now cid
  else if !(allowPrebaked env) then
    .error (uncorroborated
      s!"Provider '{call.provider}' not accepted in this environment. Production requires BSS_KYC_ALLOW_PREBAKED=true to accept prebaked / legacy attestations."
      [("provider", .str call.provider)])
  else if (call.attestationPayload.get "signature").isNone then
    .error (uncorroborated "Attestation payload missing signature" [])
  else .ok ()

def kycFindByHash (d : Document) : Option String := (db.identities.rows.find? (·.document = d)).map (·.customerId)

def checkDocument (hash : String) : Except ApiError Unit :=
  if allowDocReuse env then .ok ()
  else if (kycFindByHash db (call.documentType, hash, call.tenant)).isSome then
    .error (refuse "customer.attest_kyc.document_hash_unique_per_tenant"
      "This identity document is already registered" [("document_type", .str call.documentType)])
  else .ok ()

/-! ## A call -/

/-- A call that has passed the checks, before its transaction. -/
structure Pending where
  call : Call
  last4 : List UInt8
  hash : String
  now : Time
  dateOfBirth : ℤ
  verifiedAt : Time
  corroborationId : Option String

def orBadRequest {α : Type} (field : String) : Except String α → Except ApiError α
  | .ok a => .ok a
  | .error e => .error (.badRequest s!"bad {field}: {e}")

def parseCorroboration : Except ApiError (Option String) :=
  match call.corroborationId with
  | none => .ok none
  | some c => (orBadRequest "corroboration_id" (env.parseUuid c)).map some

def passChecks (last4 : List UInt8) (hash : String) : Except ApiError Pending := do
  checkCustomer call db
  checkAttestationSignature env call db now
  checkDocument env call db hash
  let dateOfBirth ← orBadRequest "date_of_birth" (env.parseDate call.dateOfBirth)
  let verifiedAt ← orBadRequest "verified_at" (env.parseRfc3339 call.verifiedAt)
  let corroborationId ← parseCorroboration env call
  return { call, last4, hash, now, dateOfBirth, verifiedAt, corroborationId }

/-- All that comes before the transaction. `none` is a panic. -/
def ask : Option (Except ApiError Pending) :=
  (reduceDocument env call).map fun reduced => do
    let (last4, hash) ← reduced
    passChecks env call db now last4 hash

def Pending.identity (p : Pending) : Identity where
  customerId := p.call.customerId
  documentType := p.call.documentType
  documentNumberHash := p.hash
  documentNumberLast4 := p.last4
  documentCountry := p.call.documentCountry
  dateOfBirth := p.dateOfBirth
  nationality := p.call.nationality
  verifiedBy := p.call.provider
  attestationPayload := p.call.attestationPayload
  verifiedAt := p.verifiedAt
  corroborationId := p.corroborationId
  tenantId := p.call.tenant

def Pending.verify (p : Pending) (c : CustomerRow) : CustomerRow :=
  { c with
    kycStatus := "verified"
    kycVerifiedAt := some p.now
    kycVerificationMethod := some p.call.provider
    kycReference := some p.call.providerReference }

theorem Pending.verify_id (p : Pending) (c : CustomerRow) : (p.verify c).id = c.id := rfl

def Pending.event (p : Pending) : Event :=
  ⟨"customer.kyc_attested", "customer", p.call.customerId,
    [("provider", .str p.call.provider), ("document_type", .str p.call.documentType),
      ("document_country", .str p.call.documentCountry), ("kyc_status", .str "verified")]⟩

def foreignKeys (p : Pending) : Except ApiError Unit :=
  if ∃ id ∈ p.corroborationId, id ∉ db.corroborations.map (·.id) then
    .error (missingKey "fk_customer_identity_corroboration_id_kyc_webhook_corroboration")
  else if (db.customers.find p.call.customerId).isNone then
    .error (missingKey "fk_customer_identity_customer_id_customer")
  else .ok ()

def transact (p : Pending) : Except ApiError KycDb := do
  let last4 ← varchar 4 p.last4
  let free := if allowDocReuse env then db.identities.remove p.identity.document else db.identities
  let identities ← free.insert { p.identity with documentNumberLast4 := last4 }
  foreignKeys db p
  return { db with
    identities
    customers := db.customers.update p.call.customerId p.verify p.verify_id
    events := db.events ++ [p.event]
    interactions := db.interactions ++ [⟨p.call.customerId, s!"KYC attested via {p.call.provider}", none, none⟩] }

def attested (p : Pending) : Object :=
  [("customer_id", .str p.call.customerId), ("kyc_status", .str "verified"), ("provider", .str p.call.provider),
    ("verified_at", .time p.now)]

def transacted (p : Pending) : KycDb × Except ApiError Object :=
  match transact env db p with
  | .error e => (db, .error e)
  | .ok db' => (db', .ok (attested p))

/-- A call on its own. `none` is a panic. -/
def attestKyc : Option (KycDb × Except ApiError Object) :=
  (ask env call db now).map fun asked =>
    match asked with
    | .error e => (db, .error e)
    | .ok p => transacted env db p

end

/-! ## Calls at the same time -/

structure World where
  db : KycDb
  now : Time
  pending : List Pending

inductive Label
  | clock (now : Time)
  | received (row : Corroboration)
  | created (id : String)
  | ask (call : Call)
  | commit (i : ℕ)
  /-- The call ends before its transaction is committed. -/
  | abort (i : ℕ)

def newCustomer (id : String) : CustomerRow := ⟨id, "not_verified", none, none, none⟩

variable (env : Env)

/-- A call that is refused, and one that panics, leave nothing. -/
def step (w : World) : Label → Option World
  | .clock now => some { w with now }
  | .received row => some { w with db := { w.db with corroborations := upsert w.db.corroborations row } }
  | .created id => (w.db.customers.insert (newCustomer id)).map fun customers => { w with db := { w.db with customers } }
  | .ask call =>
    match ask env call w.db w.now with
    | some (.ok p) => some { w with pending := w.pending ++ [p] }
    | _ => some w
  | .commit i => w.pending[i]?.map fun p => { w with db := (transacted env w.db p).1, pending := w.pending.eraseIdx i }
  | .abort i => w.pending[i]?.map fun _ => { w with pending := w.pending.eraseIdx i }

end BssCli.Crm.Attest
