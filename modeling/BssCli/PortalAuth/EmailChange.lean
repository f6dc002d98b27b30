import BssCli.PortalAuth.Service

/-!
# Changing the email

A change is started, verified and cancelled. The verify reads its pending row, finds the
customer's email medium, and writes both schemas in one transaction. It locks nothing before
it writes. The unique indexes are checked on what the transaction leaves.
-/

namespace BssCli.PortalAuth

/-! ## Rows -/

inductive ChangeStatus
  | pending
  | consumed
  | cancelled
  | expired
  deriving DecidableEq

structure EmailChangePendingRow where
  id : String
  identityId : String
  newEmail : String
  codeHash : String
  issuedAt : Time
  expiresAt : Time
  status : ChangeStatus
  consumedAt : Option Time
  deriving DecidableEq

structure CustomerRow where
  id : String
  partyId : String
  deriving DecidableEq

structure ContactMediumRow where
  id : String
  partyId : String
  mediumType : String
  value : String
  validTo : Option Time
  deriving DecidableEq

/-- `crm` and `portal_auth`, as far as a change of the email reads and writes them. -/
structure AccountDb where
  portal : Db
  changes : Table EmailChangePendingRow.id (fun id : String => id)
  customers : Table CustomerRow.id (fun id : String => id)
  media : Table ContactMediumRow.id (fun id : String => id)

/-- `trim` and `to_lowercase` are those of the standard library. -/
structure ChangeSettings extends Settings where
  trim : String → String
  toLowercase : String → String

/-! ## Writes -/

def EmailChangePendingRow.cancel (identityId : String) (r : EmailChangePendingRow) : EmailChangePendingRow :=
  if r.identityId = identityId ∧ r.status = .pending then { r with status := .cancelled } else r

def EmailChangePendingRow.expire (r : EmailChangePendingRow) : EmailChangePendingRow := { r with status := .expired }

def EmailChangePendingRow.consume (now : Time) (r : EmailChangePendingRow) : EmailChangePendingRow :=
  { r with status := .consumed, consumedAt := some now }

def ContactMediumRow.setValue (value : String) (r : ContactMediumRow) : ContactMediumRow := { r with value }

def IdentityRow.setEmail (email : String) (r : IdentityRow) : IdentityRow := { r with email }

theorem EmailChangePendingRow.cancel_id (identityId : String) (r : EmailChangePendingRow) :
    (r.cancel identityId).id = r.id := by
  unfold cancel
  split <;> rfl

theorem EmailChangePendingRow.expire_id (r : EmailChangePendingRow) : r.expire.id = r.id := rfl

theorem EmailChangePendingRow.consume_id (now : Time) (r : EmailChangePendingRow) : (r.consume now).id = r.id := rfl

theorem ContactMediumRow.setValue_id (value : String) (r : ContactMediumRow) : (r.setValue value).id = r.id := rfl

theorem IdentityRow.setEmail_id (email : String) (r : IdentityRow) : (r.setEmail email).id = r.id := rfl

def ContactMediumRow.ActiveEmail (r : ContactMediumRow) : Prop := r.mediumType = "email" ∧ r.validTo = none

instance (r : ContactMediumRow) : Decidable r.ActiveEmail := inferInstanceAs (Decidable (_ ∧ _))

namespace AccountDb

variable (db : AccountDb)

def pendingChanges (identityId : String) : List EmailChangePendingRow :=
  db.changes.rows.filter fun r => r.identityId = identityId ∧ r.status = .pending

def activeEmails (partyId : String) : List ContactMediumRow :=
  db.media.rows.filter fun r => r.partyId = partyId ∧ r.ActiveEmail

/-- `uq_contact_medium_email_active`. -/
def UniqueMedia : Prop := ((db.media.rows.filter fun r => r.ActiveEmail).map ContactMediumRow.value).Nodup

/-- `uq_identity_email_active`. -/
def UniqueIdentities : Prop :=
  ((db.portal.identities.rows.filter fun r => r.status ≠ "deleted").map IdentityRow.email).Nodup

/-- `uq_email_change_pending_identity_active`. -/
def UniquePending : Prop :=
  ((db.changes.rows.filter fun r => r.status = .pending).map EmailChangePendingRow.identityId).Nodup

instance : Decidable db.UniqueMedia := inferInstanceAs (Decidable (List.Nodup _))

instance : Decidable db.UniqueIdentities := inferInstanceAs (Decidable (List.Nodup _))

instance : Decidable db.UniquePending := inferInstanceAs (Decidable (List.Nodup _))

def cancelPending (identityId : String) : AccountDb :=
  { db with changes := db.changes.map (·.cancel identityId) (EmailChangePendingRow.cancel_id identityId) }

/-- The pending rows of an identity are voided, and a fresh one is inserted. -/
def startChange (r : EmailChangePendingRow) : Option AccountDb :=
  ((db.cancelPending r.identityId).changes.insert r).bind fun changes =>
    if { db with changes }.UniquePending then some { db with changes } else none

def expireChange (id : String) : AccountDb :=
  { db with changes := db.changes.update id EmailChangePendingRow.expire EmailChangePendingRow.expire_id }

def setMedium (mediumId value : String) : AccountDb :=
  { db with media := db.media.update mediumId (·.setValue value) (ContactMediumRow.setValue_id value) }

def setEmail (identityId email : String) : AccountDb :=
  let identities := db.portal.identities.update identityId (·.setEmail email) (IdentityRow.setEmail_id email)
  { db with portal := { db.portal with identities } }

def consumeChange (id : String) (now : Time) : AccountDb :=
  { db with changes := db.changes.update id (·.consume now) (EmailChangePendingRow.consume_id now) }

/-- The medium, the identity and the pending row, each by its id. -/
def applied (identityId mediumId changeId newEmail : String) (now : Time) : AccountDb :=
  ((db.setMedium mediumId newEmail).setEmail identityId newEmail).consumeChange changeId now

def applyChange (identityId mediumId changeId newEmail : String) (now : Time) : Option AccountDb :=
  let db' := db.applied identityId mediumId changeId newEmail now
  if db'.UniqueMedia ∧ db'.UniqueIdentities then some db' else none

end AccountDb

/-! ## Calls -/

inductive ChangeCall
  | start (identityId newEmail : String)
  | verify (identityId code : String)
  | cancel (identityId : String)

inductive ChangeFlight
  | called (c : ChangeCall)
  | emailFree (identityId newEmail : String)
  | pendingExpired (change : EmailChangePendingRow)
  | codeRight (identityId : String) (now : Time) (change : EmailChangePendingRow)
  | customerFound (identityId : String) (now : Time) (change : EmailChangePendingRow) (customerId : String)
  | partyFound (identityId : String) (now : Time) (change : EmailChangePendingRow) (partyId : String)
  | mediumFound (identityId : String) (now : Time) (change : EmailChangePendingRow) (mediumId : String)

inductive ChangeAnswer
  | started (pendingId newEmail : String)
  | failed (reason : String)
  | applied (newEmail : String)
  | cancelled (any : Bool)
  | dbError
  deriving DecidableEq

/-- The end of a pending change: how, and when. -/
structure Closing where
  changeId : String
  identityId : String
  how : ChangeStatus
  time : Time
  expiresAt : Time
  deriving DecidableEq

def EmailChangePendingRow.close (how : ChangeStatus) (time : Time) (r : EmailChangePendingRow) : Closing :=
  ⟨r.id, r.identityId, how, time, r.expiresAt⟩

/-- `closed` is what the step ends. -/
structure ChangeOutcome where
  db : AccountDb
  next : Option ChangeFlight
  answer : Option ChangeAnswer
  closed : List Closing

section Steps

variable (s : ChangeSettings) (d : Draw) (db : AccountDb)

def changeGoes (f : ChangeFlight) : ChangeOutcome := ⟨db, some f, none, []⟩

def changeFails (reason : String) : ChangeOutcome := ⟨db, none, some (.failed reason), []⟩

/-- A write that commits. Its answer may be lost. -/
def commits (db' : AccountDb) (a : ChangeAnswer) (closed : List Closing) : ChangeOutcome :=
  ⟨db', none, some (if d.heard then a else .dbError), closed⟩

/-! ## `start_email_change` -/

def checkFree (identityId newEmail : String) : ChangeOutcome :=
  let email := s.toLowercase (s.trim newEmail)
  if ∃ r ∈ db.media.rows, r.ActiveEmail ∧ r.value = email then changeFails db "email_in_use"
  else changeGoes db (.emailFree identityId email)

def changeRow (identityId newEmail : String) : EmailChangePendingRow where
  id := d.freshId
  identityId
  newEmail
  codeHash := s.hashToken d.freshSecret
  issuedAt := d.now
  expiresAt := d.now + seconds (24 * 60 * 60)
  status := .pending
  consumedAt := none

def commitStart (identityId newEmail : String) : ChangeOutcome :=
  match db.startChange (changeRow s d identityId newEmail) with
  | none => ⟨db, none, some .dbError, []⟩
  | some db' =>
    commits d db' (.started d.freshId newEmail) ((db.pendingChanges identityId).map (·.close .cancelled d.now))

/-! ## `verify_email_change` -/

def readPending (identityId code : String) : ChangeOutcome :=
  match (db.pendingChanges identityId).head? with
  | none => changeFails db "no_active_pending"
  | some change =>
    if change.expiresAt ≤ d.now then changeGoes db (.pendingExpired change)
    else if s.verifyToken (s.trim code) change.codeHash then changeGoes db (.codeRight identityId d.now change)
    else changeFails db "wrong_code"

/-- By its id, whatever has become of the row. -/
def expirePending (change : EmailChangePendingRow) : ChangeOutcome :=
  commits d (db.expireChange change.id) (.failed "expired") [change.close .expired d.now]

def findCustomer (identityId : String) (now : Time) (change : EmailChangePendingRow) : ChangeOutcome :=
  match (db.portal.identities.find identityId).bind IdentityRow.customerId with
  | none => changeFails db "no_active_pending"
  | some customerId => changeGoes db (.customerFound identityId now change customerId)

def findParty (identityId : String) (now : Time) (change : EmailChangePendingRow) (customerId : String) :
    ChangeOutcome :=
  match db.customers.find customerId with
  | none => changeFails db "no_active_pending"
  | some customer => changeGoes db (.partyFound identityId now change customer.partyId)

def findMedium (identityId : String) (now : Time) (change : EmailChangePendingRow) (partyId : String) :
    Option ChangeOutcome :=
  (inOrder ContactMediumRow.id d.order (db.activeEmails partyId)).map fun rows =>
    match rows.head? with
    | none => changeFails db "no_active_pending"
    | some medium => changeGoes db (.mediumFound identityId now change medium.id)

/-- The pending row is consumed by its id, whatever has become of it. -/
def commitChange (identityId : String) (now : Time) (change : EmailChangePendingRow) (mediumId : String) :
    ChangeOutcome :=
  match db.applyChange identityId mediumId change.id change.newEmail now with
  | none => ⟨db, none, some .dbError, []⟩
  | some db' => commits d db' (.applied change.newEmail) [{ change.close .consumed d.now with identityId }]

/-! ## `cancel_pending_email_change` -/

def cancelChange (identityId : String) : ChangeOutcome :=
  let pending := db.pendingChanges identityId
  commits d (db.cancelPending identityId) (.cancelled (pending ≠ [])) (pending.map (·.close .cancelled d.now))

/-! ## The next step of a flight -/

def ChangeFlight.next : ChangeFlight → Option ChangeOutcome
  | .called (.start identityId newEmail) => some (checkFree s db identityId newEmail)
  | .emailFree identityId newEmail => some (commitStart s d db identityId newEmail)
  | .called (.verify identityId code) => some (readPending s d db identityId code)
  | .pendingExpired change => some (expirePending d db change)
  | .codeRight identityId now change => some (findCustomer db identityId now change)
  | .customerFound identityId now change customerId => some (findParty db identityId now change customerId)
  | .partyFound identityId now change partyId => findMedium d db identityId now change partyId
  | .mediumFound identityId now change mediumId => some (commitChange d db identityId now change mediumId)
  | .called (.cancel identityId) => some (cancelChange d db identityId)

def ChangeFlight.run (f : ChangeFlight) : Option ChangeOutcome :=
  if d.dbOk then f.next s d db else some ⟨db, none, some .dbError, []⟩

end Steps

end BssCli.PortalAuth
