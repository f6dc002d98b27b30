import BssCli.PortalAuth.Domain

/-!
# The calls of the portal

A call is a sequence of statements. Each `SELECT` reads what is committed at its moment and
takes no lock. The `UPDATE` of a transaction waits for the row, so it counts as made with the
commit. What a call has read is kept in its flight.
-/

namespace BssCli.PortalAuth

/-! ## Answers -/

structure SessionView where
  id : String
  identityId : String
  issuedAt : Time
  expiresAt : Time
  lastSeenAt : Time
  deriving DecidableEq

def sessionView (r : SessionRow) (lastSeenAt : Time) : SessionView :=
  ⟨r.id, r.identityId, r.issuedAt, r.expiresAt, lastSeenAt⟩

structure PendingActionView where
  id : String
  sessionId : String
  actionLabel : String
  targetUrl : String
  payload : List (String × String)
  expiresAt : Time
  deriving DecidableEq

def pendingActionView (r : PendingActionRow) : PendingActionView :=
  ⟨r.id, r.sessionId, r.actionLabel, r.targetUrl, r.payload, r.expiresAt⟩

/-- What a call answers, with the row that it used up. -/
inductive Answer
  | session (tokenId : String) (view : SessionView)
  | loginFailed (reason : String)
  | rateLimited (retryAfterSeconds : ℤ) (scope : String)
  | stepUpToken (otpId token : String) (expiresAt : Time) (actionLabel : String)
  | stepUpFailed (reason : String)
  | consumed (grantId : Option String)
  | pendingAction (view : Option PendingActionView)
  | rotated (old : String) (view : SessionView)
  | loggedOut (sessionId : String)
  | page (session : Option SessionView)
  | dbError
  deriving DecidableEq

/-! ## Calls in progress -/

structure VerifyLogin where
  email : String
  code : String
  ip : Option String
  userAgent : Option String

inductive Call
  | verifyEmailLogin (req : VerifyLogin)
  | verifyStepUp (sessionId code actionLabel : String)
  | consumeStepUpToken (sessionId token actionLabel : String)
  | consumePendingAction (sessionId actionLabel : String)
  | sessionLayer (cookie : Option String) (logout : Bool)

inductive Flight
  | called (c : Call)
  | loginAllowed (req : VerifyLogin)
  | loginIdentified (req : VerifyLogin) (now : Time) (ident : IdentityRow)
  | loginMatched (req : VerifyLogin) (now : Time) (ident : IdentityRow) (token : LoginTokenRow)
  | stepUpActive (code actionLabel : String) (now : Time) (identityId : String)
  | stepUpMatched (actionLabel : String) (now : Time) (identityId : String) (token : LoginTokenRow)
  | grantActive (token actionLabel : String) (now : Time) (identityId : String)
  | grantMatched (now : Time) (grant : LoginTokenRow)
  | actionFound (now : Time) (action : PendingActionRow)
  | sessionFound (logout : Bool) (now : Time) (sess : SessionRow)
  | sessionIdentified (logout : Bool) (now : Time) (sess : SessionRow)
  | sessionCurrent (logout : Bool) (sess : SessionView)
  | sessionDue (logout : Bool) (sess : SessionView) (now : Time) (row : SessionRow)
  | leaving (sess : SessionView)

/-- What a step takes from outside: the clock, whether its statements succeed and its commit is
heard of, the order of the rows, the customer that has the email, and what is drawn at random. -/
structure Draw where
  now : Time
  dbOk : Bool
  heard : Bool
  order : List String
  customerId : Option String
  freshId : String
  freshSecret : String

structure Outcome where
  db : Db
  next : Option Flight
  answer : Option Answer

def goes (db : Db) (f : Flight) : Outcome := ⟨db, some f, none⟩

def ends (db : Db) (a : Answer) : Outcome := ⟨db, none, some a⟩

section Steps

variable (s : Settings) (d : Draw) (db : Db)

/-! ## `verify_email_login` -/

def countInWindow (email stage : String) (windowS : ℤ) (until' : Time) : List LoginAttemptRow :=
  db.attempts.filter fun a => a.email = some email ∧ a.stage = stage ∧ until' - seconds windowS ≤ a.ts

def retryAfterS (oldest : Option Time) (now : Time) (windowS : ℤ) : ℤ :=
  match oldest with
  | none => windowS
  | some o => max (windowS - numSeconds (now - o)) 1

def enforceLoginVerify (req : VerifyLogin) : Outcome :=
  let attempts := countInWindow db req.email "login_verify" s.verifyPerEmailWindowS d.now
  if s.verifyPerEmailMax ≤ attempts.length then
    ends db (.rateLimited (retryAfterS (attempts.map LoginAttemptRow.ts).min? d.now s.verifyPerEmailWindowS)
      "login_verify_per_email")
  else goes db (.loginAllowed req)

def failLogin (req : VerifyLogin) (reason : String) : Outcome :=
  ends (db.recordAttempt (some req.email) req.ip d.now "login_verify" reason) (.loginFailed reason)

def identify (req : VerifyLogin) : Option Outcome :=
  (inOrder IdentityRow.id d.order (db.identities.rows.filter fun r => r.email = req.email)).map fun rows =>
    match rows.head? with
    | none => failLogin d db req "no_such_identity"
    | some ident => goes db (.loginIdentified req d.now ident)

def matchLogin (req : VerifyLogin) (now : Time) (ident : IdentityRow) : Option Outcome :=
  (inOrder LoginTokenRow.id d.order (db.activeLogins ident.id)).map fun rows =>
    match matchToken s req.code now rows with
    | none => failLogin d db req (unmatchedReason now rows)
    | some token => goes db (.loginMatched req now ident token)

/-- The status that a verified identity goes on with. -/
def newStatus (ident : IdentityRow) (customerId : Option String) : String :=
  if ident.emailVerifiedAt.isNone then if customerId.isSome then "registered" else "verified"
  else if customerId.isSome ∧ ident.status ≠ "registered" then "registered"
  else ident.status

def loginSession (req : VerifyLogin) (now : Time) (ident : IdentityRow) : SessionRow where
  id := d.freshId
  identityId := ident.id
  issuedAt := now
  expiresAt := now + seconds s.sessionTtlS
  lastSeenAt := now
  ip := req.ip
  userAgent := req.userAgent
  revokedAt := none
  tenantId := "DEFAULT"

/-- The token is consumed by its id, whether it is consumed already or not. -/
def commitLogin (req : VerifyLogin) (now : Time) (ident : IdentityRow) (token : LoginTokenRow) : Outcome :=
  let customerId := ident.customerId.or d.customerId
  let verified := (db.consumeToken token.id now).logIn ident.id customerId (ident.emailVerifiedAt.or (some now))
    (newStatus ident customerId) now
  match verified.insertSession (loginSession s d req now ident) with
  | none => ends db .dbError
  | some db' =>
    ends (db'.recordAttempt (some req.email) req.ip d.now "login_verify" "success")
      (.session token.id (sessionView (loginSession s d req now ident) now))

/-! ## `verify_step_up` -/

def sessionIdentityIfActive (sessionId : String) : Option String :=
  ((db.sessions.find sessionId).filter fun r => r.revokedAt.isNone).map SessionRow.identityId

def beginStepUp (sessionId code actionLabel : String) : Outcome :=
  match sessionIdentityIfActive db sessionId with
  | none => ends db (.stepUpFailed "no_active_token")
  | some identityId => goes db (.stepUpActive code actionLabel d.now identityId)

def matchStepUp (code actionLabel : String) (now : Time) (identityId : String) : Option Outcome :=
  (inOrder LoginTokenRow.id d.order (db.activeTokens identityId .stepUp actionLabel)).map fun rows =>
    match matchToken s code now rows with
    | none => ends db (.stepUpFailed (unmatchedReason now rows))
    | some token => goes db (.stepUpMatched actionLabel now identityId token)

def grantRow (actionLabel : String) (now : Time) (identityId : String) : LoginTokenRow where
  id := d.freshId
  identityId
  kind := .stepUpGrant
  codeHash := s.hashToken d.freshSecret
  actionLabel := some actionLabel
  issuedAt := now
  expiresAt := now + seconds s.stepupGrantTtlS
  consumedAt := none

def commitStepUp (actionLabel : String) (now : Time) (identityId : String) (token : LoginTokenRow) : Outcome :=
  match (db.consumeToken token.id now).insertToken (grantRow s d actionLabel now identityId) with
  | none => ends db .dbError
  | some db' => ends db' (.stepUpToken token.id d.freshSecret (now + seconds s.stepupGrantTtlS) actionLabel)

/-! ## `consume_step_up_token` -/

def beginConsume (sessionId token actionLabel : String) : Outcome :=
  match sessionIdentityIfActive db sessionId with
  | none => ends db (.consumed none)
  | some identityId => goes db (.grantActive token actionLabel d.now identityId)

def matchGrant (token actionLabel : String) (now : Time) (identityId : String) : Option Outcome :=
  (inOrder LoginTokenRow.id d.order (db.activeTokens identityId .stepUpGrant actionLabel)).map fun rows =>
    match matchToken s token now rows with
    | none => ends db (.consumed none)
    | some grant => goes db (.grantMatched now grant)

def consumeGrant (now : Time) (grant : LoginTokenRow) : Outcome :=
  ends (db.consumeToken grant.id now) (.consumed (some grant.id))

/-! ## `consume_pending_action` -/

def findAction (sessionId actionLabel : String) : Option Outcome :=
  (inOrder PendingActionRow.id d.order (db.activeActions sessionId actionLabel)).map fun rows =>
    match rows.find? fun r => d.now < r.expiresAt with
    | none => ends db (.pendingAction none)
    | some action => goes db (.actionFound d.now action)

def takeAction (now : Time) (action : PendingActionRow) : Outcome :=
  ends (db.consumeAction action.id now) (.pendingAction (some (pendingActionView action)))

/-! ## The session layer -/

/-- The handler behind the layer: a logout, or any page. -/
def handle (logout : Bool) (sess : SessionView) : Outcome :=
  if logout then goes db (.leaving sess) else ends db (.page (some sess))

/-- `current_session`, up to the session. -/
def findSession (cookie : Option String) (logout : Bool) : Outcome :=
  match (cookie.filter (· ≠ "")).bind db.sessions.find with
  | none => ends db (.page none)
  | some sess =>
    if sess.revokedAt = none ∧ d.now < sess.expiresAt then goes db (.sessionFound logout d.now sess)
    else ends db (.page none)

def findIdentity (logout : Bool) (now : Time) (sess : SessionRow) : Outcome :=
  match (db.identities.find sess.identityId).filter fun i => i.status ≠ "deleted" with
  | none => ends db (.page none)
  | some _ => goes db (.sessionIdentified logout now sess)

def touchSession (logout : Bool) (now : Time) (sess : SessionRow) : Outcome :=
  goes (db.see sess.id now) (.sessionCurrent logout (sessionView sess now))

/-- Past half of its time. The comparison of the two as floats is exact. -/
def RotationDue (now : Time) (sess : SessionRow) : Prop := s.sessionTtlS ≤ 2 * numSeconds (now - sess.issuedAt)

instance (now : Time) (sess : SessionRow) : Decidable (RotationDue s now sess) := inferInstanceAs (Decidable (_ ≤ _))

/-- `rotate_if_due`, up to the session. -/
def checkRotation (logout : Bool) (sess : SessionView) : Outcome :=
  match (db.sessions.find sess.id).filter fun r => r.revokedAt.isNone with
  | none => handle db logout sess
  | some row =>
    if RotationDue s d.now row then goes db (.sessionDue logout sess d.now row) else handle db logout sess

def rotatedSession (now : Time) (row : SessionRow) : SessionRow :=
  { row with
    id := d.freshId, issuedAt := now, expiresAt := now + seconds s.sessionTtlS, lastSeenAt := now, revokedAt := none }

/-- The old session is revoked by its id, whether it is revoked already or not. -/
def commitRotation (logout : Bool) (sess : SessionView) (now : Time) (row : SessionRow) : Outcome :=
  match db.insertSession (rotatedSession s d now row) with
  | none => handle db logout sess
  | some db' =>
    let rotated := sessionView (rotatedSession s d now row) now
    { handle (db'.revoke sess.id now) logout (if d.heard then rotated else sess) with
      answer := some (.rotated sess.id rotated) }

/-- `revoke_session`. -/
def revokeSession (sess : SessionView) : Outcome := ends (db.revokeActive sess.id d.now) (.loggedOut sess.id)

/-! ## The next step of a flight -/

/-- A statement fails. The session layer goes on with what it has. -/
def Flight.fail : Flight → Outcome
  | .called (.sessionLayer ..) | .sessionFound .. | .sessionIdentified .. => ends db (.page none)
  | .sessionCurrent logout sess | .sessionDue logout sess _ _ => handle db logout sess
  | .leaving _ => ends db (.page none)
  | _ => ends db .dbError

def Flight.next : Flight → Option Outcome
  | .called (.verifyEmailLogin req) => some (enforceLoginVerify s d db req)
  | .loginAllowed req => identify d db req
  | .loginIdentified req now ident => matchLogin s d db req now ident
  | .loginMatched req now ident token => some (commitLogin s d db req now ident token)
  | .called (.verifyStepUp sessionId code actionLabel) => some (beginStepUp d db sessionId code actionLabel)
  | .stepUpActive code actionLabel now identityId => matchStepUp s d db code actionLabel now identityId
  | .stepUpMatched actionLabel now identityId token => some (commitStepUp s d db actionLabel now identityId token)
  | .called (.consumeStepUpToken sessionId token actionLabel) => some (beginConsume d db sessionId token actionLabel)
  | .grantActive token actionLabel now identityId => matchGrant s d db token actionLabel now identityId
  | .grantMatched now grant => some (consumeGrant db now grant)
  | .called (.consumePendingAction sessionId actionLabel) => findAction d db sessionId actionLabel
  | .actionFound now action => some (takeAction db now action)
  | .called (.sessionLayer cookie logout) => some (findSession d db cookie logout)
  | .sessionFound logout now sess => some (findIdentity db logout now sess)
  | .sessionIdentified logout now sess => some (touchSession db logout now sess)
  | .sessionCurrent logout sess => some (checkRotation s d db logout sess)
  | .sessionDue logout sess now row => some (commitRotation s d db logout sess now row)
  | .leaving sess => some (revokeSession d db sess)

def Flight.run (f : Flight) : Option Outcome := if d.dbOk then f.next s d db else some (f.fail db)

end Steps

end BssCli.PortalAuth
