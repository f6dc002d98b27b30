import BssCli.PortalAuth.Grants
import BssCli.PortalAuth.Links

/-!
# The calls of an account

Every call that reads or writes an identity, its sessions and its tokens, side by side. A login is started for an email, and
the identity that has the email is used again. `current_session` and `rotate_if_due` are calls of their own here.
-/

namespace BssCli.PortalAuth

open Steps

structure AccountSettings extends GrantSettings where
  loginPerEmailMax : ℤ
  loginPerEmailWindowS : ℤ
  loginPerIpMax : ℤ
  loginPerIpWindowS : ℤ
  loginTokenTtlS : ℤ

/-- What a login draws at random besides its code. -/
structure AccountDraw extends Draw where
  freshIdentity : String
  magicId : String
  magicToken : String

structure IdentityView where
  id : String
  email : String
  customerId : Option String
  emailVerifiedAt : Option Time
  status : String
  deriving DecidableEq

def identityView (r : IdentityRow) : IdentityView := ⟨r.id, r.email, r.customerId, r.emailVerifiedAt, r.status⟩

structure LoginMail where
  email : String
  otp : String
  magicToken : String
  deriving DecidableEq

inductive AccountCall
  | startEmailLogin (email : String) (ip : Option String)
  | verifyEmailLogin (req : VerifyLogin)
  | linkToCustomer (identityId customerId : String)
  | relinkOrphaned (identityId orphanedCustomerId newCustomerId : String)
  | startStepUp (sessionId actionLabel : String)
  | verifyStepUp (sessionId code actionLabel : String)
  | consumeStepUpToken (sessionId token actionLabel : String)
  | rotateIfDue (sessionId : String)
  | currentSession (cookie : String)

inductive AccountFlight
  | starting (email : String) (ip : Option String)
  | counted (email ip : String) (now : Time)
  | admitted (email : String) (ip : Option String)
  | addressed (email : String) (ip : Option String) (now : Time) (existing : Option String)
  /-- A login, a link, or a step-up that was started. -/
  | link (f : LinkFlight)
  | stepUp (f : StartFlight)
  | rotating (sessionId : String)
  | due (sessionId : String) (now : Time) (row : SessionRow)
  | resuming (cookie : String)
  | resumed (now : Time) (sess : SessionRow)
  | identified (now : Time) (sess : SessionRow) (identity : IdentityRow)

def AccountCall.flight : AccountCall → AccountFlight
  | .startEmailLogin email ip => .starting email ip
  | .verifyEmailLogin req => .link (.login (.called (.verifyEmailLogin req)))
  | .linkToCustomer identityId customerId => .link (.linking identityId customerId)
  | .relinkOrphaned identityId orphanedCustomerId newCustomerId =>
    .link (.relinking identityId orphanedCustomerId newCustomerId)
  | .startStepUp sessionId actionLabel => .stepUp (.called sessionId actionLabel)
  | .verifyStepUp sessionId code actionLabel => .link (.login (.called (.verifyStepUp sessionId code actionLabel)))
  | .consumeStepUpToken sessionId token actionLabel =>
    .link (.login (.called (.consumeStepUpToken sessionId token actionLabel)))
  | .rotateIfDue sessionId => .rotating sessionId
  | .currentSession cookie => .resuming cookie

inductive AccountAnswer
  | challenge (identityId : String) (expiresAt : Time) (mail : LoginMail)
  | rateLimited (retryAfterSeconds : ℤ) (scope : String)
  | link (a : LinkAnswer)
  | stepUp (a : StartAnswer)
  | rotated (view : Option SessionView)
  | session (view : Option (SessionView × IdentityView))
  | dbError
  deriving DecidableEq

/-- `taken` is the grant that a sensitive write was let through with. -/
structure AccountOutcome where
  db : Db
  next : Option AccountFlight
  answer : Option AccountAnswer
  taken : Option LoginTokenRow

section Steps

variable (s : AccountSettings) (d : AccountDraw) (db : Db)

def accountEnds (a : AccountAnswer) : AccountOutcome := ⟨db, none, some a, none⟩

def accountGoes (f : AccountFlight) : AccountOutcome := ⟨db, some f, none, none⟩

/-! ## `start_email_login` -/

def enforcePerEmail (email : String) (ip : Option String) : AccountOutcome :=
  let attempts := countInWindow db email "login_start" s.loginPerEmailWindowS d.now
  if s.loginPerEmailMax ≤ attempts.length then
    accountEnds db (.rateLimited (retryAfterS (attempts.map LoginAttemptRow.ts).min? d.now s.loginPerEmailWindowS)
      "login_start_per_email")
  else match ip with
    | none => accountGoes db (.admitted email none)
    | some ip => accountGoes db (.counted email ip d.now)

def enforcePerIp (email ip : String) (now : Time) : AccountOutcome :=
  let attempts := db.attempts.filter fun a => a.ip = some ip ∧ a.stage = "login_start" ∧ now - seconds s.loginPerIpWindowS ≤ a.ts
  if s.loginPerIpMax ≤ attempts.length then
    accountEnds db (.rateLimited (retryAfterS (attempts.map LoginAttemptRow.ts).min? now s.loginPerIpWindowS) "login_start_per_ip")
  else accountGoes db (.admitted email (some ip))

/-- The identity with the email, whatever its status. -/
def findAddressee (email : String) (ip : Option String) : Option AccountOutcome :=
  (inOrder IdentityRow.id d.order (db.identities.rows.filter fun r => r.email = email)).map fun rows =>
    accountGoes db (.addressed email ip d.now (rows.head?.map IdentityRow.id))

/-- `INSERT`, refused when the id is taken, or the email by an identity that is not deleted. -/
def Db.insertIdentity (r : IdentityRow) : Option Db :=
  if db.identities.rows.any fun r' => r'.email = r.email ∧ r'.status ≠ "deleted" then none
  else (db.identities.insert r).map fun identities => { db with identities }

def newIdentity (email : String) : IdentityRow := ⟨d.freshIdentity, email, none, none, "unverified", none⟩

def loginToken (id : String) (kind : TokenKind) (code identityId : String) (now : Time) : LoginTokenRow where
  id
  identityId
  kind
  codeHash := s.hashToken code
  actionLabel := none
  issuedAt := now
  expiresAt := now + seconds s.loginTokenTtlS
  consumedAt := none

def addressee (email : String) (existing : Option String) : Option (String × Db) :=
  match existing with
  | some id => some (id, db)
  | none => (db.insertIdentity (newIdentity d email)).map fun db => (d.freshIdentity, db)

def issueTokens (identityId : String) (now : Time) : Option Db :=
  (db.insertToken (loginToken s d.freshId .otp d.freshSecret identityId now)).bind fun db =>
    db.insertToken (loginToken s d.magicId .magicLink d.magicToken identityId now)

/-- One transaction, and then the mail. -/
def commitLoginStart (email : String) (ip : Option String) (now : Time) (existing : Option String) : AccountOutcome :=
  match (addressee d db email existing).bind fun p => (issueTokens s d p.2 p.1 now).map fun db => (p.1, db) with
  | none => accountEnds db .dbError
  | some (identityId, db') =>
    accountEnds (db'.recordAttempt (some email) ip d.now "login_start" "issued")
      (if d.heard then .challenge identityId (now + seconds s.loginTokenTtlS) ⟨email, d.freshSecret, d.magicToken⟩ else .dbError)

/-! ## `rotate_if_due` -/

def checkDue (sessionId : String) : AccountOutcome :=
  match (db.sessions.find sessionId).filter fun r => r.revokedAt.isNone with
  | none => accountEnds db (.rotated none)
  | some row =>
    if RotationDue s.toSettings d.now row then accountGoes db (.due sessionId d.now row) else accountEnds db (.rotated none)

def commitDue (sessionId : String) (now : Time) (row : SessionRow) : AccountOutcome :=
  match db.insertSession (rotatedSession s.toSettings d.toDraw now row) with
  | none => accountEnds db .dbError
  | some db' =>
    accountEnds (db'.revoke sessionId now)
      (if d.heard then .rotated (some (sessionView (rotatedSession s.toSettings d.toDraw now row) now)) else .dbError)

/-! ## `current_session` -/

def resume (cookie : String) : AccountOutcome :=
  match ((some cookie).filter (· ≠ "")).bind db.sessions.find with
  | none => accountEnds db (.session none)
  | some sess =>
    if sess.revokedAt = none ∧ d.now < sess.expiresAt then accountGoes db (.resumed d.now sess)
    else accountEnds db (.session none)

def resumeIdentity (now : Time) (sess : SessionRow) : AccountOutcome :=
  match (db.identities.find sess.identityId).filter fun i => i.status ≠ "deleted" with
  | none => accountEnds db (.session none)
  | some identity => accountGoes db (.identified now sess identity)

def answerSession (now : Time) (sess : SessionRow) (identity : IdentityRow) : AccountOutcome :=
  accountEnds (db.see sess.id now)
    (if d.heard then .session (some (sessionView sess now, identityView identity)) else .dbError)

/-! ## The next step -/

def takenGrant : LinkFlight → LinkOutcome → Option LoginTokenRow
  | .login (.grantMatched _ grant), ⟨_, _, some (.login (.consumed (some _))), _⟩ => some grant
  | _, _ => none

def AccountFlight.next : AccountFlight → Option AccountOutcome
  | .starting email ip => some (enforcePerEmail s d db email ip)
  | .counted email ip now => some (enforcePerIp s db email ip now)
  | .admitted email ip => findAddressee d db email ip
  | .addressed email ip now existing => some (commitLoginStart s d db email ip now existing)
  | .link f => (f.run s.toSettings d.toDraw db).map fun o => ⟨o.db, o.next.map .link, o.answer.map .link, takenGrant f o⟩
  | .stepUp f =>
    let o := f.run s.toGrantSettings d.toDraw db
    some ⟨o.db, o.next.map .stepUp, o.answer.map .stepUp, none⟩
  | .rotating sessionId => some (checkDue s d db sessionId)
  | .due sessionId now row => some (commitDue s d db sessionId now row)
  | .resuming cookie => some (resume d db cookie)
  | .resumed now sess => some (resumeIdentity db now sess)
  | .identified now sess identity => some (answerSession d db now sess identity)

/-- A statement fails. A link and a step-up fail by themselves. -/
def AccountFlight.run : AccountFlight → Option AccountOutcome
  | .link f => (AccountFlight.link f).next s d db
  | .stepUp f => (AccountFlight.stepUp f).next s d db
  | f => if d.dbOk then f.next s d db else some (accountEnds db .dbError)

end Steps

/-! ## Calls side by side -/

structure AccountWorld where
  db : Db
  flights : List AccountFlight
  answers : List AccountAnswer
  taken : List LoginTokenRow

inductive AccountLabel
  | begin (c : AccountCall)
  | run (i : ℕ) (d : AccountDraw)
  | drop (i : ℕ)

namespace AccountWorld

def initial (db : Db) : AccountWorld := ⟨db, [], [], []⟩

def settle (w : AccountWorld) (i : ℕ) (o : AccountOutcome) : AccountWorld where
  db := o.db
  flights := Pool.move w.flights i o.next
  answers := w.answers ++ o.answer.toList
  taken := w.taken ++ o.taken.toList

def step (s : AccountSettings) (w : AccountWorld) : AccountLabel → Option AccountWorld
  | .begin c => some { w with flights := w.flights ++ [c.flight] }
  | .run i d => w.flights[i]?.bind fun f => (f.run s d w.db).map (w.settle i)
  | .drop i => some { w with flights := w.flights.eraseIdx i }

end AccountWorld

end BssCli.PortalAuth
