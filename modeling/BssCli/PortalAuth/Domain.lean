import BssCli.Common
import BssCli.Lib.Table

/-!
# The `portal_auth` schema

Identities, sessions, login tokens and stashed actions. A token is kept as its hash, and the
hash is a parameter. A `SELECT` without `ORDER BY` returns its rows in any order.
-/

namespace BssCli.PortalAuth

/-- The settings that the calls below read. The pepper is in the hash. -/
structure Settings where
  hashToken : String → String
  stepupGrantTtlS : ℤ
  sessionTtlS : ℤ
  verifyPerEmailMax : ℤ
  verifyPerEmailWindowS : ℤ

def Settings.verifyToken (s : Settings) (token expectedHash : String) : Bool := s.hashToken token = expectedHash

/-- `Duration::seconds`. -/
def seconds (n : ℤ) : Time := n * 1000000

/-- `num_seconds`, which truncates. -/
def numSeconds (d : Time) : ℤ := d.tdiv 1000000

/-! ## Rows -/

structure IdentityRow where
  id : String
  email : String
  customerId : Option String
  emailVerifiedAt : Option Time
  status : String
  lastLoginAt : Option Time
  deriving DecidableEq

structure SessionRow where
  id : String
  identityId : String
  issuedAt : Time
  expiresAt : Time
  lastSeenAt : Time
  ip : Option String
  userAgent : Option String
  revokedAt : Option Time
  tenantId : String
  deriving DecidableEq

inductive TokenKind
  | otp
  | magicLink
  | stepUp
  | stepUpGrant
  deriving DecidableEq

structure LoginTokenRow where
  id : String
  identityId : String
  kind : TokenKind
  codeHash : String
  actionLabel : Option String
  issuedAt : Time
  expiresAt : Time
  consumedAt : Option Time
  deriving DecidableEq

structure PendingActionRow where
  id : String
  sessionId : String
  actionLabel : String
  targetUrl : String
  payload : List (String × String)
  expiresAt : Time
  consumedAt : Option Time
  deriving DecidableEq

structure LoginAttemptRow where
  email : Option String
  ip : Option String
  ts : Time
  outcome : String
  stage : String
  deriving DecidableEq

abbrev Identities := Table IdentityRow.id (fun id : String => id)

abbrev Sessions := Table SessionRow.id (fun id : String => id)

abbrev LoginTokens := Table LoginTokenRow.id (fun id : String => id)

abbrev PendingActions := Table PendingActionRow.id (fun id : String => id)

structure Db where
  identities : Identities
  sessions : Sessions
  tokens : LoginTokens
  pending : PendingActions
  attempts : List LoginAttemptRow

/-! ## Writes -/

def SessionRow.revoke (now : Time) (r : SessionRow) : SessionRow := { r with revokedAt := some now }

/-- The guarded `UPDATE` of a logout. -/
def SessionRow.revokeActive (now : Time) (r : SessionRow) : SessionRow := { r with revokedAt := r.revokedAt.or (some now) }

def SessionRow.see (now : Time) (r : SessionRow) : SessionRow := { r with lastSeenAt := now }

def LoginTokenRow.consume (now : Time) (r : LoginTokenRow) : LoginTokenRow := { r with consumedAt := some now }

def PendingActionRow.consume (now : Time) (r : PendingActionRow) : PendingActionRow := { r with consumedAt := some now }

/-- A stash takes the place of what is stashed under its key. -/
def PendingActionRow.supersede (sessionId actionLabel : String) (now : Time) (r : PendingActionRow) : PendingActionRow :=
  if r.sessionId = sessionId ∧ r.actionLabel = actionLabel then { r with consumedAt := r.consumedAt.or (some now) } else r

def IdentityRow.logIn (customerId : Option String) (verifiedAt : Option Time) (status : String) (now : Time)
    (r : IdentityRow) : IdentityRow :=
  { r with customerId, emailVerifiedAt := verifiedAt, status, lastLoginAt := some now }

section Keys

variable (now : Time)

theorem SessionRow.revoke_id (r : SessionRow) : (r.revoke now).id = r.id := rfl

theorem SessionRow.revokeActive_id (r : SessionRow) : (r.revokeActive now).id = r.id := rfl

theorem SessionRow.see_id (r : SessionRow) : (r.see now).id = r.id := rfl

theorem LoginTokenRow.consume_id (r : LoginTokenRow) : (r.consume now).id = r.id := rfl

theorem PendingActionRow.consume_id (r : PendingActionRow) : (r.consume now).id = r.id := rfl

theorem PendingActionRow.supersede_id (sessionId actionLabel : String) (r : PendingActionRow) :
    (r.supersede sessionId actionLabel now).id = r.id := by
  unfold supersede
  split <;> rfl

theorem IdentityRow.logIn_id (customerId : Option String) (verifiedAt : Option Time) (status : String)
    (r : IdentityRow) : (r.logIn customerId verifiedAt status now).id = r.id := rfl

end Keys

namespace Db

variable (db : Db)

def recordAttempt (email ip : Option String) (ts : Time) (stage outcome : String) : Db :=
  { db with attempts := db.attempts ++ [⟨email, ip, ts, outcome, stage⟩] }

def consumeToken (id : String) (now : Time) : Db :=
  { db with tokens := db.tokens.update id (·.consume now) (LoginTokenRow.consume_id now) }

def consumeAction (id : String) (now : Time) : Db :=
  { db with pending := db.pending.update id (·.consume now) (PendingActionRow.consume_id now) }

def revoke (id : String) (now : Time) : Db :=
  { db with sessions := db.sessions.update id (·.revoke now) (SessionRow.revoke_id now) }

def revokeActive (id : String) (now : Time) : Db :=
  { db with sessions := db.sessions.update id (·.revokeActive now) (SessionRow.revokeActive_id now) }

def see (id : String) (now : Time) : Db :=
  { db with sessions := db.sessions.update id (·.see now) (SessionRow.see_id now) }

def logIn (id : String) (customerId : Option String) (verifiedAt : Option Time) (status : String) (now : Time) : Db :=
  let identities := db.identities.update id (·.logIn customerId verifiedAt status now)
    (IdentityRow.logIn_id now customerId verifiedAt status)
  { db with identities }

/-- `INSERT`, refused when the id is taken. -/
def insertSession (r : SessionRow) : Option Db := (db.sessions.insert r).map fun sessions => { db with sessions }

def insertToken (r : LoginTokenRow) : Option Db := (db.tokens.insert r).map fun tokens => { db with tokens }

/-- A stash: what is there under its key is superseded, and the new row is inserted. -/
def stash (r : PendingActionRow) (now : Time) : Option Db :=
  let superseded := db.pending.map (·.supersede r.sessionId r.actionLabel now)
    (PendingActionRow.supersede_id now r.sessionId r.actionLabel)
  (superseded.insert r).map fun pending => { db with pending }

end Db

/-! ## Reads -/

/-- Rows in the order in which the database returns them. `none` when it is no order of them. -/
def inOrder {ρ : Type} [DecidableEq ρ] (key : ρ → String) (order : List String) (rows : List ρ) : Option (List ρ) :=
  let found := order.filterMap fun k => rows.find? fun r => key r = k
  if found.Perm rows then some found else none

theorem perm_of_inOrder {ρ : Type} [DecidableEq ρ] {key : ρ → String} {order : List String} {rows found : List ρ}
    (h : inOrder key order rows = some found) : found.Perm rows := by
  unfold inOrder at h
  dsimp only at h
  split at h
  · rename_i hperm
    cases h
    exact hperm
  · cases h

def Db.activeLogins (db : Db) (identityId : String) : List LoginTokenRow :=
  db.tokens.rows.filter fun r =>
    r.identityId = identityId ∧ (r.kind = .otp ∨ r.kind = .magicLink) ∧ r.consumedAt = none

def Db.activeTokens (db : Db) (identityId : String) (kind : TokenKind) (actionLabel : String) : List LoginTokenRow :=
  db.tokens.rows.filter fun r =>
    r.identityId = identityId ∧ r.kind = kind ∧ r.actionLabel = some actionLabel ∧ r.consumedAt = none

def Db.activeActions (db : Db) (sessionId actionLabel : String) : List PendingActionRow :=
  db.pending.rows.filter fun r => r.sessionId = sessionId ∧ r.actionLabel = actionLabel ∧ r.consumedAt = none

/-- The first row that has not expired and that the code fits. -/
def matchToken (s : Settings) (code : String) (now : Time) (rows : List LoginTokenRow) : Option LoginTokenRow :=
  rows.find? fun r => now < r.expiresAt ∧ s.verifyToken code r.codeHash

def unmatchedReason (now : Time) (rows : List LoginTokenRow) : String :=
  if rows = [] then "no_active_token"
  else if rows.any fun r => now < r.expiresAt then "wrong_code"
  else "expired"

end BssCli.PortalAuth
