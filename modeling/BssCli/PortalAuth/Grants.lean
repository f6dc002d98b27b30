import BssCli.PortalAuth.Lanes
import BssCli.PortalAuth.Rotation

/-!
# Step-up grants

A step-up begins with a code, and the code is given for a grant. Both are kept under the
identity and the action. A call names its session, and looks at nothing but whether it is revoked.
-/

namespace BssCli.PortalAuth

open Steps Relation

structure GrantSettings extends Settings where
  stepupPerSessionMax : ℤ
  stepupPerSessionWindowS : ℤ
  stepupTokenTtlS : ℤ

/-! ## `start_step_up` -/

inductive StartFlight
  | called (sessionId actionLabel : String)
  | counted (sessionId actionLabel : String) (now : Time)
  | active (actionLabel : String) (now : Time) (sess : SessionRow)
  | addressed (actionLabel : String) (now : Time) (sess : SessionRow) (email : String)

inductive StartAnswer
  | challenge (sessionId actionLabel : String) (expiresAt : Time)
  | rateLimited (retryAfterSeconds : ℤ) (scope : String)
  | sessionInvalid
  | dbError
  deriving DecidableEq

/-- A code that was sent out, for the session as it was read. -/
structure Issue where
  tokenId : String
  session : SessionRow
  actionLabel : String

structure StartOutcome where
  db : Db
  next : Option StartFlight
  answer : Option StartAnswer
  issued : Option Issue

section Start

variable (s : GrantSettings) (d : Draw) (db : Db)

def startEnds (a : StartAnswer) : StartOutcome := ⟨db, none, some a, none⟩

def startGoes (f : StartFlight) : StartOutcome := ⟨db, some f, none, none⟩

def sessionKey (sessionId : String) : String := "session:" ++ sessionId

/-- The attempts of a session are counted in the column of the address. -/
def countForSession (sessionId : String) : List LoginAttemptRow :=
  db.attempts.filter fun a =>
    a.ip = some (sessionKey sessionId) ∧ a.stage = "step_up_start" ∧ d.now - seconds s.stepupPerSessionWindowS ≤ a.ts

def enforceStart (sessionId actionLabel : String) : StartOutcome :=
  let attempts := countForSession s d db sessionId
  if s.stepupPerSessionMax ≤ attempts.length then
    startEnds db (.rateLimited (retryAfterS (attempts.map LoginAttemptRow.ts).min? d.now s.stepupPerSessionWindowS)
      "step_up_per_session")
  else startGoes db (.counted sessionId actionLabel d.now)

def readSession (sessionId actionLabel : String) (now : Time) : StartOutcome :=
  match (db.sessions.find sessionId).filter fun r => r.revokedAt.isNone with
  | none => startEnds db .sessionInvalid
  | some sess => startGoes db (.active actionLabel now sess)

def readEmail (actionLabel : String) (now : Time) (sess : SessionRow) : StartOutcome :=
  match db.identities.find sess.identityId with
  | none => startEnds db .sessionInvalid
  | some ident => startGoes db (.addressed actionLabel now sess ident.email)

def codeRow (actionLabel : String) (now : Time) (sess : SessionRow) : LoginTokenRow where
  id := d.freshId
  identityId := sess.identityId
  kind := .stepUp
  codeHash := s.hashToken d.freshSecret
  actionLabel := some actionLabel
  issuedAt := now
  expiresAt := now + seconds s.stepupTokenTtlS
  consumedAt := none

def commitStepUpStart (actionLabel : String) (now : Time) (sess : SessionRow) (email : String) : StartOutcome :=
  match db.insertToken (codeRow s d actionLabel now sess) with
  | none => startEnds db .dbError
  | some db' =>
    let challenge := StartAnswer.challenge sess.id actionLabel (now + seconds s.stepupTokenTtlS)
    ⟨db'.recordAttempt (some email) (some (sessionKey sess.id)) d.now "step_up_start" "issued", none,
      some (if d.heard then challenge else .dbError), some ⟨d.freshId, sess, actionLabel⟩⟩

def StartFlight.next : StartFlight → StartOutcome
  | .called sessionId actionLabel => enforceStart s d db sessionId actionLabel
  | .counted sessionId actionLabel now => readSession db sessionId actionLabel now
  | .active actionLabel now sess => readEmail db actionLabel now sess
  | .addressed actionLabel now sess email => commitStepUpStart s d db actionLabel now sess email

def StartFlight.run (f : StartFlight) : StartOutcome := if d.dbOk then f.next s d db else startEnds db .dbError

end Start

/-! ## `check_step_up` -/

structure SensitiveRequest where
  headers : List (String × String)
  form : List (String × String)
  cookies : List (String × String)

def GRANT_COOKIE : String := "bss_portal_step_up"

/-- The header, then the form field, then the cookie. -/
def grantToken (req : SensitiveRequest) : Option String :=
  (req.headers.lookup "x-bss-stepup-token").or <| (req.headers.lookup "x-bss-step-up-token").or <|
    (req.form.lookup "step_up_token").or <| req.cookies.lookup GRANT_COOKIE

/-- The call that the gate makes for a session. Without a token it makes none. -/
def checkStepUp (req : SensitiveRequest) (sessionId actionLabel : String) : Option Call :=
  ((grantToken req).filter (· ≠ "")).map fun token => .consumeStepUpToken sessionId token actionLabel

/-! ## Calls side by side -/

/-- A grant that was minted, and the code that was given for it. -/
structure Mint where
  grantId : String
  otpId : String
  session : SessionRow
  actionLabel : String

/-- A grant that was taken, with what the call had read. -/
structure Use where
  grant : LoginTokenRow
  session : SessionRow
  actionLabel : String
  time : Time

/-- A call of the portal is kept with the session that it has read. -/
inductive GrantFlight
  | start (f : StartFlight)
  | portal (c : Call) (seen : Option SessionRow) (f : Flight)

def Call.session : Call → Option String
  | .verifyStepUp sessionId _ _ | .consumeStepUpToken sessionId _ _ => some sessionId
  | .verifyEmailLogin _ | .consumePendingAction .. | .sessionLayer .. => none

structure GrantWorld where
  clock : Time
  db : Db
  flights : List GrantFlight
  issued : List Issue
  minted : List Mint
  rotations : List (String × String)
  uses : List Use

inductive GrantLabel
  | start (sessionId actionLabel : String)
  | begin (c : Call)
  | check (req : SensitiveRequest) (sessionId actionLabel : String)
  /-- A step, at a time that is not before the last. -/
  | run (i : ℕ) (d : Draw)
  | drop (i : ℕ)
  /-- A login code is sent out. -/
  | issue (r : LoginTokenRow)
  | stash (r : PendingActionRow) (now : Time)
  | identities (t : Identities)

namespace GrantWorld

def initial (clock : Time) (db : Db) : GrantWorld := ⟨clock, { db with tokens := .empty }, [], [], [], [], []⟩

/-- What the call sees of its session, in its first read. -/
def look (db : Db) (c : Call) (seen : Option SessionRow) : Flight → Option SessionRow
  | .called _ => c.session.bind db.sessions.find
  | _ => seen

def mintOf (d : Draw) (c : Call) (seen : Option SessionRow) (a : Answer) : Option Mint :=
  match c, seen, a with
  | .verifyStepUp _ _ actionLabel, some sess, .stepUpToken otpId _ _ _ => some ⟨d.freshId, otpId, sess, actionLabel⟩
  | _, _, _ => none

def useOf (c : Call) (seen : Option SessionRow) (f : Flight) (a : Answer) : Option Use :=
  match c, seen, f, a with
  | .consumeStepUpToken _ _ actionLabel, some sess, .grantMatched now grant, .consumed (some _) =>
    some ⟨grant, sess, actionLabel, now⟩
  | _, _, _, _ => none

def rotationOf : Answer → Option (String × String)
  | .rotated old view => some (old, view.id)
  | _ => none

def runStart (s : GrantSettings) (w : GrantWorld) (i : ℕ) (d : Draw) (f : StartFlight) : GrantWorld :=
  let o := f.run s d w.db
  { w with
    clock := d.now
    db := o.db
    flights := Pool.move w.flights i (o.next.map .start)
    issued := w.issued ++ o.issued.toList }

def settle (w : GrantWorld) (i : ℕ) (d : Draw) (c : Call) (seen : Option SessionRow) (f : Flight) (o : Outcome) :
    GrantWorld :=
  { w with
    clock := d.now
    db := o.db
    flights := Pool.move w.flights i (o.next.map (.portal c (look w.db c seen f)))
    minted := w.minted ++ (o.answer.bind (mintOf d c seen)).toList
    rotations := w.rotations ++ (o.answer.bind rotationOf).toList
    uses := w.uses ++ (o.answer.bind (useOf c seen f)).toList }

def runFlight (s : GrantSettings) (w : GrantWorld) (i : ℕ) (d : Draw) : GrantFlight → Option GrantWorld
  | .start f => some (w.runStart s i d f)
  | .portal c seen f => (f.run s.toSettings d w.db).map (w.settle i d c seen f)

def step (s : GrantSettings) (w : GrantWorld) : GrantLabel → Option GrantWorld
  | .start sessionId actionLabel => some { w with flights := w.flights ++ [.start (.called sessionId actionLabel)] }
  | .begin c => some { w with flights := w.flights ++ [.portal c none (.called c)] }
  | .check req sessionId actionLabel =>
    let calls := (checkStepUp req sessionId actionLabel).toList
    some { w with flights := w.flights ++ calls.map fun c => .portal c none (.called c) }
  | .run i d => if w.clock ≤ d.now then w.flights[i]?.bind (w.runFlight s i d) else none
  | .drop i => some { w with flights := w.flights.eraseIdx i }
  | .issue r =>
    if r.kind = .otp ∨ r.kind = .magicLink then (w.db.insertToken r).map fun db => { w with db } else none
  | .stash r now => (w.db.stash r now).map fun db => { w with db }
  | .identities t => some { w with db := { w.db with identities := t } }

/-- A session that came out of another by rotation, in any number of steps. -/
def Descends (w : GrantWorld) : String → String → Prop := ReflTransGen fun old new => (old, new) ∈ w.rotations

theorem eq_of_descends {w : GrantWorld} (h : w.rotations = []) {a b : String} (hline : w.Descends a b) : b = a :=
  (reflTransGen_iff_eq (by simp [h])).mp hline

/-- A grant is taken in the line of sessions in which its code was sent out, for one action
throughout, while the session and the grant are in force. -/
structure Bound (w : GrantWorld) (now : Time) (u : Use) : Prop where
  session : Live w.db u.session.id now
  grant : now < u.grant.expiresAt
  minted : ∃ m ∈ w.minted, m.grantId = u.grant.id ∧ m.actionLabel = u.actionLabel ∧ w.Descends m.session.id u.session.id ∧
    ∃ g ∈ w.issued, g.tokenId = m.otpId ∧ g.actionLabel = u.actionLabel ∧ w.Descends g.session.id m.session.id

def GrantsBound (s : GrantSettings) (w : GrantWorld) : Prop :=
  ∀ i d w' u, step s w (.run i d) = some w' → w'.uses = w.uses ++ [u] → w.Bound d.now u

/-- A grant is taken by the identity that its code was sent to, for one action throughout. No
session was revoked when its call read it, and the grant was in force then. -/
structure Scoped (w : GrantWorld) (u : Use) : Prop where
  session : u.session.revokedAt = none
  grant : u.grant.consumedAt = none ∧ u.time < u.grant.expiresAt
  minted : ∃ m ∈ w.minted, m.grantId = u.grant.id ∧ m.actionLabel = u.actionLabel ∧
    m.session.identityId = u.session.identityId ∧ m.session.revokedAt = none ∧
    ∃ g ∈ w.issued, g.tokenId = m.otpId ∧ g.actionLabel = u.actionLabel ∧
      g.session.identityId = u.session.identityId ∧ g.session.revokedAt = none

/-! ## What is known of a token -/

/-- The code was sent out, for the identity and the action that it is kept under. -/
def Issued (w : GrantWorld) (r : LoginTokenRow) : Prop :=
  ∃ g ∈ w.issued, g.tokenId = r.id ∧ some g.actionLabel = r.actionLabel ∧ g.session.identityId = r.identityId ∧
    g.session.revokedAt = none

def Minted (w : GrantWorld) (r : LoginTokenRow) : Prop :=
  ∃ m ∈ w.minted, m.grantId = r.id ∧ some m.actionLabel = r.actionLabel ∧ m.session.identityId = r.identityId ∧
    m.session.revokedAt = none ∧ ∃ g ∈ w.issued, g.tokenId = m.otpId ∧ g.actionLabel = m.actionLabel ∧
      g.session.identityId = m.session.identityId ∧ g.session.revokedAt = none

/-- The session that the call has read. -/
def Seen (seen : Option SessionRow) (identityId : String) : Prop :=
  ∃ sess ∈ seen, sess.identityId = identityId ∧ sess.revokedAt = none

/-- What a flight has read agrees with the call. -/
def Reads (w : GrantWorld) (c : Call) (seen : Option SessionRow) : Flight → Prop
  | .called c' => c' = c
  | .stepUpActive _ actionLabel _ identityId =>
    (∃ id code, c = .verifyStepUp id code actionLabel) ∧ Seen seen identityId
  | .stepUpMatched actionLabel _ identityId token =>
    (∃ id code, c = .verifyStepUp id code actionLabel) ∧ Seen seen identityId ∧ token.identityId = identityId ∧
      token.actionLabel = some actionLabel ∧ w.Issued token
  | .grantActive _ actionLabel _ identityId =>
    (∃ id token, c = .consumeStepUpToken id token actionLabel) ∧ Seen seen identityId
  | .grantMatched now grant =>
    (∃ id token actionLabel, c = .consumeStepUpToken id token actionLabel ∧ grant.actionLabel = some actionLabel) ∧
      Seen seen grant.identityId ∧ grant.consumedAt = none ∧ now < grant.expiresAt ∧ w.Minted grant
  | f => f.lane = c.lane

def Knows (w : GrantWorld) : GrantFlight → Prop
  | .start (.active _ _ sess) | .start (.addressed _ _ sess _) => sess.revokedAt = none
  | .start _ => True
  | .portal c seen f => w.Reads c seen f

structure Inv (w : GrantWorld) : Prop where
  codes : ∀ r ∈ w.db.tokens.rows, r.kind = .stepUp → w.Issued r
  grants : ∀ r ∈ w.db.tokens.rows, r.kind = .stepUpGrant → w.Minted r
  knows : ∀ f ∈ w.flights, w.Knows f
  uses : ∀ u ∈ w.uses, w.Scoped u

/-- What was sent out and minted is not forgotten. -/
structure Grows (w w' : GrantWorld) : Prop where
  issued : w.issued ⊆ w'.issued
  minted : w.minted ⊆ w'.minted

section Grows

variable {w w' : GrantWorld} {r r' : LoginTokenRow}

theorem Issued.grows (h : w.Issued r) (hg : Grows w w') : w'.Issued r := by
  obtain ⟨g, hmem, hrest⟩ := h
  exact ⟨g, hg.issued hmem, hrest⟩

theorem Minted.grows (h : w.Minted r) (hg : Grows w w') : w'.Minted r := by
  obtain ⟨m, hmem, hid, haction, hidentity, hsession, g, hissued, hrest⟩ := h
  exact ⟨m, hg.minted hmem, hid, haction, hidentity, hsession, g, hg.issued hissued, hrest⟩

theorem Scoped.grows {u : Use} (h : w.Scoped u) (hg : Grows w w') : w'.Scoped u := by
  obtain ⟨m, hmem, hid, haction, hidentity, hsession, g, hissued, hrest⟩ := h.minted
  exact ⟨h.session, h.grant, m, hg.minted hmem, hid, haction, hidentity, hsession, g, hg.issued hissued, hrest⟩

theorem Reads.grows {c : Call} {seen : Option SessionRow} {f : Flight} (h : w.Reads c seen f) (hg : Grows w w') :
    w'.Reads c seen f := by
  cases f with
  | stepUpMatched actionLabel now identityId token =>
    obtain ⟨hcall, hseen, hidentity, haction, hissued⟩ := h
    exact ⟨hcall, hseen, hidentity, haction, hissued.grows hg⟩
  | grantMatched now grant =>
    obtain ⟨hcall, hseen, hopen, htime, hminted⟩ := h
    exact ⟨hcall, hseen, hopen, htime, hminted.grows hg⟩
  | _ => exact h

theorem Knows.grows {f : GrantFlight} (h : w.Knows f) (hg : Grows w w') : w'.Knows f := by
  cases f with
  | start f => cases f <;> exact h
  | portal c seen f => exact Reads.grows h hg

theorem Issued.same (h : w.Issued r) (hsame : r.Same r') : w.Issued r' := by
  obtain ⟨hid, -, hidentity, haction⟩ := hsame
  unfold Issued
  rw [← hid, ← hidentity, ← haction]
  exact h

theorem Minted.same (h : w.Minted r) (hsame : r.Same r') : w.Minted r' := by
  obtain ⟨hid, -, hidentity, haction⟩ := hsame
  unfold Minted
  rw [← hid, ← hidentity, ← haction]
  exact h

theorem Inv.codes_from (hi : Inv w) {db : Db} (h : TokensFrom w.db db) :
    ∀ r ∈ db.tokens.rows, r.kind = .stepUp → w.Issued r := by
  intro r hr hkind
  obtain ⟨r₀, hr₀, hsame⟩ := h r hr
  exact (hi.codes r₀ hr₀ (hsame.2.1.trans hkind)).same hsame

theorem Inv.grants_from (hi : Inv w) {db : Db} (h : TokensFrom w.db db) :
    ∀ r ∈ db.tokens.rows, r.kind = .stepUpGrant → w.Minted r := by
  intro r hr hkind
  obtain ⟨r₀, hr₀, hsame⟩ := h r hr
  exact (hi.grants r₀ hr₀ (hsame.2.1.trans hkind)).same hsame

end Grows

/-! ## What a step keeps -/

section Keeps

variable {s : GrantSettings} {w w' : GrantWorld} {i : ℕ} {d : Draw}

theorem Inv.of_start (hi : Inv w) {f : StartFlight} (htokens : (f.run s d w.db).db.tokens = w.db.tokens)
    (hnext : ∀ f' ∈ (f.run s d w.db).next, w.Knows (.start f')) : Inv (w.runStart s i d f) := by
  have hg : Grows w (w.runStart s i d f) := ⟨List.subset_append_left .., fun _ h => h⟩
  refine ⟨?_, ?_, ?_, fun u hu => (hi.uses u hu).grows hg⟩
  · intro r hr hkind
    exact (hi.codes r (htokens ▸ hr) hkind).grows hg
  · intro r hr hkind
    exact (hi.grants r (htokens ▸ hr) hkind).grows hg
  · refine Pool.forall_move (fun f hf => (hi.knows f hf).grows hg) fun f' hf' => ?_
    obtain ⟨f, hf, rfl⟩ := Option.map_eq_some_iff.mp hf'
    exact (hnext f hf).grows hg

theorem Inv.codeSent (hi : Inv w) {actionLabel email : String} {now : Time} {sess : SessionRow}
    (hsess : sess.revokedAt = none) (hok : d.dbOk) : Inv (w.runStart s i d (.addressed actionLabel now sess email)) := by
  have hrun : (StartFlight.addressed actionLabel now sess email).run s d w.db = commitStepUpStart s d w.db actionLabel now sess email :=
    if_pos hok
  cases hins : w.db.insertToken (codeRow s d actionLabel now sess) with
  | none =>
    have ho : (StartFlight.addressed actionLabel now sess email).run s d w.db = startEnds w.db .dbError := by
      rw [hrun, commitStepUpStart, hins]
    refine hi.of_start ?_ ?_ <;> simp [ho, startEnds]
  | some db' =>
    obtain ⟨tokens, htokens, hdb⟩ := Option.map_eq_some_iff.mp hins
    have hrows : tokens.rows = w.db.tokens.rows ++ [codeRow s d actionLabel now sess] := (Table.rows_insert htokens).1
    unfold runStart
    rw [hrun, commitStepUpStart, hins]
    dsimp only
    set w' : GrantWorld := { w with
      clock := d.now
      db := db'.recordAttempt (some email) (some (sessionKey sess.id)) d.now "step_up_start" "issued"
      flights := Pool.move w.flights i none
      issued := w.issued ++ [⟨d.freshId, sess, actionLabel⟩] } with hw'
    have hg : Grows w w' := ⟨List.subset_append_left .., fun _ h => h⟩
    change Inv w'
    have hknows : ∀ f ∈ Pool.move w.flights i none, w'.Knows f := Pool.forall_move (fun f hf => (hi.knows f hf).grows hg) (by simp)
    refine ⟨?_, ?_, hknows, fun u hu => (hi.uses u hu).grows hg⟩
    · intro r hr hkind
      rw [hw', Db.recordAttempt, ← hdb, hrows] at hr
      rcases List.mem_append.mp hr with hr | hr
      · exact (hi.codes r hr hkind).grows hg
      · rw [List.mem_singleton.mp hr]
        exact ⟨_, List.mem_append_right _ (List.mem_singleton_self _), rfl, rfl, rfl, hsess⟩
    · intro r hr hkind
      rw [hw', Db.recordAttempt, ← hdb, hrows] at hr
      rcases List.mem_append.mp hr with hr | hr
      · exact (hi.grants r hr hkind).grows hg
      · rw [List.mem_singleton.mp hr] at hkind
        cases hkind

theorem Inv.runStart (hi : Inv w) {f : StartFlight} (hf : .start f ∈ w.flights) : Inv (w.runStart s i d f) := by
  by_cases hok : d.dbOk
  · have hrun : f.run s d w.db = f.next s d w.db := if_pos hok
    cases f with
    | called sessionId actionLabel =>
      refine hi.of_start ?_ ?_ <;>
      · rw [hrun, StartFlight.next]
        unfold enforceStart
        dsimp only
        split <;> simp [startEnds, startGoes, Knows]
    | counted sessionId actionLabel now =>
      refine hi.of_start ?_ ?_ <;>
      · rw [hrun, StartFlight.next]
        unfold readSession
        split
        · simp [startEnds]
        · rename_i sess hsess
          have hopen := (Option.filter_eq_some_iff.mp hsess).2
          simp_all [startGoes, Knows]
    | active actionLabel now sess =>
      have hknows : sess.revokedAt = none := hi.knows _ hf
      refine hi.of_start ?_ ?_ <;>
      · rw [hrun, StartFlight.next]
        unfold readEmail
        split <;> simp [startEnds, startGoes, Knows, hknows]
    | addressed actionLabel now sess email => exact hi.codeSent (hi.knows _ hf) hok
  · have hrun : f.run s d w.db = startEnds w.db .dbError := if_neg hok
    refine hi.of_start ?_ ?_ <;> simp [hrun, startEnds]

theorem Reads.lane {c : Call} {seen : Option SessionRow} {f : Flight} (h : w.Reads c seen f) : f.lane = c.lane := by
  cases f with
  | called c' => rw [show c' = c from h]; rfl
  | stepUpActive | stepUpMatched | grantActive =>
    obtain ⟨⟨id, code, rfl⟩, -⟩ := h
    rfl
  | grantMatched now grant =>
    obtain ⟨⟨id, token, actionLabel, rfl, -⟩, -⟩ := h
    rfl
  | _ => exact h

theorem reads_of_lane {c : Call} {seen : Option SessionRow} {f : Flight} (h : f.lane = c.lane) (hstepUp : c.lane ≠ .stepUp)
    (hgrant : c.lane ≠ .grant) (hcalled : ∀ c', f ≠ .called c') : w.Reads c seen f := by
  cases f with
  | called c' => exact absurd rfl (hcalled c')
  | stepUpActive | stepUpMatched => exact absurd h.symm hstepUp
  | grantActive | grantMatched => exact absurd h.symm hgrant
  | _ => exact h

theorem Inv.of_settle (hi : Inv w) {c : Call} {seen : Option SessionRow} {f : Flight} {o : Outcome}
    (htokens : TokensFrom w.db o.db) (hnext : ∀ f' ∈ o.next, w.Reads c (look w.db c seen f) f')
    (huses : ∀ a ∈ o.answer, ∀ u ∈ useOf c seen f a, w.Scoped u) : Inv (w.settle i d c seen f o) := by
  have hg : Grows w (w.settle i d c seen f o) := ⟨fun _ h => h, List.subset_append_left ..⟩
  refine ⟨?_, ?_, ?_, ?_⟩
  · intro r hr hkind
    exact (hi.codes_from htokens r hr hkind).grows hg
  · intro r hr hkind
    exact (hi.grants_from htokens r hr hkind).grows hg
  · refine Pool.forall_move (fun f hf => (hi.knows f hf).grows hg) fun f' hf' => ?_
    obtain ⟨f, hf, rfl⟩ := Option.map_eq_some_iff.mp hf'
    exact (hnext f hf).grows hg
  · intro u hu
    rcases List.mem_append.mp hu with hu | hu
    · exact (hi.uses u hu).grows hg
    · obtain ⟨a, ha, hu⟩ := Option.bind_eq_some_iff.mp (Option.mem_toList.mp hu)
      exact (huses a ha u hu).grows hg

theorem Inv.of_keeps (hi : Inv w) {c : Call} {seen : Option SessionRow} {f : Flight} {o : Outcome}
    (hreads : w.Reads c seen f) (hstepUp : c.lane ≠ .stepUp) (hgrant : c.lane ≠ .grant) (hkeeps : Keeps w.db f.lane o) :
    Inv (w.settle i d c seen f o) := by
  refine hi.of_settle (hkeeps.tokens (hreads.lane ▸ hstepUp)) (fun f' hf' => ?_) fun a ha u hu => ?_
  · exact reads_of_lane ((hkeeps.next f' hf').trans hreads.lane) hstepUp hgrant (hkeeps.goesOn f' hf')
  · cases c with
    | consumeStepUpToken => simp [Call.lane] at hgrant
    | _ => simp [useOf] at hu

theorem Inv.of_goes (hi : Inv w) {c : Call} {seen : Option SessionRow} {f f' : Flight}
    (h : w.Reads c (look w.db c seen f) f') : Inv (w.settle i d c seen f (goes w.db f')) :=
  hi.of_settle (tokensFrom_of_eq rfl) (by simpa [goes] using h) (by simp [goes])

theorem Inv.of_ends (hi : Inv w) {c : Call} {seen : Option SessionRow} {f : Flight} {a : Answer}
    (ha : ∀ id, a ≠ .consumed (some id)) : Inv (w.settle i d c seen f (ends w.db a)) := by
  refine hi.of_settle (tokensFrom_of_eq rfl) (by simp [ends]) fun a' ha' u hu => ?_
  cases ha'
  unfold useOf at hu
  split at hu
  · exact absurd rfl (ha _)
  · cases hu

theorem seen_of_active {sessionId identityId : String} (h : sessionIdentityIfActive w.db sessionId = some identityId) :
    Seen (w.db.sessions.find sessionId) identityId := by
  obtain ⟨sess, hsess, rfl⟩ := Option.map_eq_some_iff.mp h
  obtain ⟨hfind, hopen⟩ := Option.filter_eq_some_iff.mp hsess
  exact ⟨sess, hfind, rfl, by simpa using hopen⟩

theorem matched {order : List String} {rows found : List LoginTokenRow} {code : String} {now : Time} {r : LoginTokenRow}
    (hrows : inOrder LoginTokenRow.id order rows = some found) (h : matchToken s.toSettings code now found = some r) :
    r ∈ rows ∧ now < r.expiresAt := by
  have hfits := List.find?_some h
  simp only [decide_eq_true_eq] at hfits
  exact ⟨(perm_of_inOrder hrows).mem_iff.mp (List.mem_of_find?_eq_some h), hfits.1⟩

theorem Inv.minted_grant (hi : Inv w) {c : Call} {seen : Option SessionRow} {actionLabel identityId : String} {now : Time}
    {token : LoginTokenRow} (hreads : w.Reads c seen (.stepUpMatched actionLabel now identityId token)) :
    Inv (w.settle i d c seen (.stepUpMatched actionLabel now identityId token)
      (commitStepUp s.toSettings d w.db actionLabel now identityId token)) := by
  obtain ⟨⟨id, code, rfl⟩, ⟨sess, rfl, rfl, hsess⟩, hidentity, haction, g, hg, hid, hlabel, hgidentity, hgsession⟩ := hreads
  unfold commitStepUp
  split
  · exact hi.of_ends (by simp)
  · rename_i db' hins
    obtain ⟨tokens, htokens, rfl⟩ := Option.map_eq_some_iff.mp hins
    have hrows : tokens.rows = (w.db.consumeToken token.id now).tokens.rows ++ [grantRow s.toSettings d actionLabel now sess.identityId] :=
      (Table.rows_insert htokens).1
    set w' := w.settle i d (.verifyStepUp id code actionLabel) (some sess) (.stepUpMatched actionLabel now sess.identityId token)
      (ends { w.db.consumeToken token.id now with tokens } (.stepUpToken token.id d.freshSecret
        (now + seconds s.stepupGrantTtlS) actionLabel)) with hw'
    have hgrows : Grows w w' := ⟨fun _ h => h, List.subset_append_left ..⟩
    have hfrom : TokensFrom w.db (w.db.consumeToken token.id now) :=
      tokensFrom_consume w.db token.id now
    have hknows : ∀ f ∈ Pool.move w.flights i none, w'.Knows f := Pool.forall_move (fun f hf => (hi.knows f hf).grows hgrows) (by simp)
    refine ⟨?_, ?_, hknows, fun u hu => ?_⟩
    · intro r hr hkind
      rcases List.mem_append.mp (hrows ▸ hr) with hr | hr
      · exact (hi.codes_from hfrom r hr hkind).grows hgrows
      · rw [List.mem_singleton.mp hr] at hkind
        cases hkind
    · intro r hr hkind
      rcases List.mem_append.mp (hrows ▸ hr) with hr | hr
      · exact (hi.grants_from hfrom r hr hkind).grows hgrows
      · rw [List.mem_singleton.mp hr]
        have hlabel' : g.actionLabel = actionLabel := by rw [haction] at hlabel; exact Option.some.inj hlabel
        exact ⟨⟨d.freshId, token.id, sess, actionLabel⟩, List.mem_append_right _ (List.mem_singleton_self _), rfl, rfl, rfl,
          hsess, g, hg, hid, hlabel', hgidentity.trans hidentity, hgsession⟩
    · have hold : u ∈ w.uses := by simpa [hw', settle, useOf, ends] using hu
      exact (hi.uses u hold).grows hgrows

theorem Inv.taken_grant (hi : Inv w) {c : Call} {seen : Option SessionRow} {now : Time} {grant : LoginTokenRow}
    (hreads : w.Reads c seen (.grantMatched now grant)) :
    Inv (w.settle i d c seen (.grantMatched now grant) (consumeGrant w.db now grant)) := by
  obtain ⟨⟨id, token, actionLabel, rfl, haction⟩, ⟨sess, rfl, hidentity, hsess⟩, hopen, htime, hminted⟩ := hreads
  refine hi.of_settle (tokensFrom_consume w.db grant.id now) (by simp [consumeGrant, ends]) fun a ha u hu => ?_
  cases ha
  cases hu
  obtain ⟨m, hm, hid, hlabel, hmidentity, hmsession, g, hg, hotp, hglabel, hgidentity, hgsession⟩ := hminted
  have hlabel' : m.actionLabel = actionLabel := by
    rw [haction] at hlabel
    exact Option.some.inj hlabel
  exact ⟨hsess, ⟨hopen, htime⟩, m, hm, hid, hlabel', hmidentity.trans hidentity.symm, hmsession, g, hg, hotp,
    hglabel.trans hlabel', (hgidentity.trans hmidentity).trans hidentity.symm, hgsession⟩

theorem fail_ends {f : Flight} (h : f.lane ≠ .session) : ∃ a, f.fail w.db = ends w.db a ∧ ∀ id, a ≠ .consumed (some id) := by
  unfold Flight.fail
  split
  case h_7 => exact ⟨_, rfl, by simp⟩
  all_goals exact absurd rfl h

theorem Inv.failed (hi : Inv w) {c : Call} {seen : Option SessionRow} {f : Flight} (hreads : w.Reads c seen f) :
    Inv (w.settle i d c seen f (f.fail w.db)) := by
  by_cases hsession : f.lane = .session
  · have hlane : c.lane = .session := hreads.lane ▸ hsession
    exact hi.of_keeps hreads (by simp [hlane]) (by simp [hlane]) (keeps_fail f)
  · obtain ⟨a, ha, hconsumed⟩ := fail_ends (w := w) hsession
    rw [ha]
    exact hi.of_ends hconsumed

theorem Inv.next (hi : Inv w) {c : Call} {seen : Option SessionRow} {f : Flight} {o : Outcome}
    (hreads : w.Reads c seen f) (ho : f.next s.toSettings d w.db = some o) : Inv (w.settle i d c seen f o) := by
  by_cases hstepUp : c.lane = .stepUp
  · cases f with
    | called c' =>
      obtain rfl : c' = c := hreads
      cases c' with
      | verifyStepUp id code actionLabel =>
        cases ho
        unfold beginStepUp
        split
        · exact hi.of_ends (by simp)
        · rename_i identityId hactive
          exact hi.of_goes ⟨⟨id, code, rfl⟩, seen_of_active hactive⟩
      | _ => simp [Call.lane] at hstepUp
    | stepUpActive code actionLabel now identityId =>
      obtain ⟨rows, hrows, rfl⟩ := Option.map_eq_some_iff.mp ho
      split
      · exact hi.of_ends (by simp)
      · rename_i token htoken
        obtain ⟨hmem, -⟩ := matched hrows htoken
        obtain ⟨hrow, hkept⟩ := List.mem_filter.mp hmem
        obtain ⟨hidentity, hkind, haction, -⟩ := of_decide_eq_true hkept
        exact hi.of_goes ⟨hreads.1, hreads.2, hidentity, haction, hi.codes token hrow hkind⟩
    | stepUpMatched actionLabel now identityId token =>
      cases ho
      exact hi.minted_grant hreads
    | _ => exact absurd (hreads.lane.trans hstepUp) (by simp [Flight.lane])
  · by_cases hgrant : c.lane = .grant
    · cases f with
      | called c' =>
        obtain rfl : c' = c := hreads
        cases c' with
        | consumeStepUpToken id token actionLabel =>
          cases ho
          unfold beginConsume
          split
          · exact hi.of_ends (by simp)
          · rename_i identityId hactive
            exact hi.of_goes ⟨⟨id, token, rfl⟩, seen_of_active hactive⟩
        | _ => simp [Call.lane] at hgrant
      | grantActive token actionLabel now identityId =>
        obtain ⟨rows, hrows, rfl⟩ := Option.map_eq_some_iff.mp ho
        split
        · exact hi.of_ends (by simp)
        · rename_i grant hfound
          obtain ⟨hmem, htime⟩ := matched hrows hfound
          obtain ⟨hrow, hkept⟩ := List.mem_filter.mp hmem
          obtain ⟨hidentity, hkind, haction, hopen⟩ := of_decide_eq_true hkept
          obtain ⟨⟨id, code, hcall⟩, hseen⟩ := hreads
          exact hi.of_goes ⟨⟨id, code, actionLabel, hcall, haction⟩, hidentity ▸ hseen, hopen, htime, hi.grants grant hrow hkind⟩
      | grantMatched now grant =>
        cases ho
        exact hi.taken_grant hreads
      | _ => exact absurd (hreads.lane.trans hgrant) (by simp [Flight.lane])
    · exact hi.of_keeps hreads hstepUp hgrant (keeps_next ho)

theorem Inv.of_same (hi : Inv w) (hissued : w'.issued = w.issued) (hminted : w'.minted = w.minted) (huses : w'.uses = w.uses)
    (htokens : ∀ r ∈ w'.db.tokens.rows, r ∈ w.db.tokens.rows ∨ r.kind = .otp ∨ r.kind = .magicLink)
    (hknows : ∀ f ∈ w'.flights, w.Knows f) : Inv w' := by
  have hg : Grows w w' := ⟨hissued ▸ fun _ h => h, hminted ▸ fun _ h => h⟩
  refine ⟨fun r hr hkind => ?_, fun r hr hkind => ?_, fun f hf => (hknows f hf).grows hg, fun u hu => ?_⟩
  · rcases htokens r hr with hr | hlogin
    · exact (hi.codes r hr hkind).grows hg
    · simp [hkind] at hlogin
  · rcases htokens r hr with hr | hlogin
    · exact (hi.grants r hr hkind).grows hg
    · simp [hkind] at hlogin
  · exact (hi.uses u (huses ▸ hu)).grows hg

theorem Inv.step (hi : Inv w) {l : GrantLabel} (h : GrantWorld.step s w l = some w') : Inv w' := by
  cases l with
  | start sessionId actionLabel =>
    cases h
    exact hi.of_same rfl rfl rfl (fun r hr => Or.inl hr) (Pool.forall_concat hi.knows trivial)
  | begin c =>
    cases h
    exact hi.of_same rfl rfl rfl (fun r hr => Or.inl hr) (Pool.forall_concat hi.knows rfl)
  | check req sessionId actionLabel =>
    cases h
    refine hi.of_same rfl rfl rfl (fun r hr => Or.inl hr) fun f hf => ?_
    rcases List.mem_append.mp hf with hf | hf
    · exact hi.knows f hf
    · obtain ⟨c, -, rfl⟩ := List.mem_map.mp hf
      exact rfl
  | drop i =>
    cases h
    exact hi.of_same rfl rfl rfl (fun r hr => Or.inl hr) (Pool.forall_eraseIdx hi.knows)
  | stash r now =>
    obtain ⟨db, hdb, rfl⟩ := Option.map_eq_some_iff.mp h
    obtain ⟨pending, -, rfl⟩ := Option.map_eq_some_iff.mp hdb
    exact hi.of_same rfl rfl rfl (fun r hr => Or.inl hr) hi.knows
  | identities t =>
    cases h
    exact hi.of_same rfl rfl rfl (fun r hr => Or.inl hr) hi.knows
  | issue r =>
    obtain ⟨hlogin, h⟩ := Option.ite_none_right_eq_some.mp h
    obtain ⟨db, hdb, rfl⟩ := Option.map_eq_some_iff.mp h
    obtain ⟨tokens, htokens, rfl⟩ := Option.map_eq_some_iff.mp hdb
    have hrows : tokens.rows = w.db.tokens.rows ++ [r] := (Table.rows_insert htokens).1
    refine hi.of_same rfl rfl rfl (fun r' hr' => ?_) hi.knows
    rcases List.mem_append.mp (hrows ▸ hr') with hr' | hr'
    · exact Or.inl hr'
    · rw [List.mem_singleton.mp hr']
      exact Or.inr hlogin
  | run i d =>
    obtain ⟨-, h⟩ := Option.ite_none_right_eq_some.mp h
    obtain ⟨f, hf, h⟩ := Option.bind_eq_some_iff.mp h
    have hmem := Pool.mem_of_getElem? hf
    cases f with
    | start f =>
      cases h
      exact hi.runStart hmem
    | portal c seen f =>
      obtain ⟨o, ho, rfl⟩ := Option.map_eq_some_iff.mp h
      unfold Flight.run at ho
      split at ho
      · exact hi.next (hi.knows _ hmem) ho
      · cases ho
        exact hi.failed (hi.knows _ hmem)

end Keeps

end GrantWorld

/-- In every run, a grant that is taken was minted for the same action and identity, out of a
code that was sent out for them. -/
theorem grants_scoped (s : GrantSettings) (clock : Time) (db : Db) (ls : List GrantLabel) (w : GrantWorld)
    (h : exec (GrantWorld.step s) (GrantWorld.initial clock db) ls = some w) : ∀ u ∈ w.uses, w.Scoped u := by
  have hinit : GrantWorld.Inv (GrantWorld.initial clock db) := by
    refine ⟨?_, ?_, ?_, ?_⟩ <;> simp [GrantWorld.initial, Table.empty]
  exact (exec_inv (fun w l w' hi hs => hi.step hs) hinit h).uses

def sampleGrantSettings : GrantSettings :=
  { sampleSettings with stepupPerSessionMax := 5, stepupPerSessionWindowS := 900, stepupTokenTtlS := 300 }

def sampleGrantDb : Db :=
  { sampleDb with
    sessions := ⟨[⟨"SES-1", "IDN-1", 0, seconds 86400, 0, none, none, none, "DEFAULT"⟩,
      ⟨"SES-2", "IDN-1", 0, seconds 86400, 0, none, none, none, "DEFAULT"⟩], by decide⟩ }

/-- A code sent out in the first session, and given for a grant. -/
def sampleMinted (now : ℤ) : List GrantLabel :=
  .start "SES-1" "vas_purchase" :: List.replicate 4 (.run 0 (sampleDraw now [] "LTK-1")) ++
    [.begin (.verifyStepUp "SES-1" "secret" "vas_purchase"), .run 0 (sampleDraw now [] ""),
     .run 0 (sampleDraw now ["LTK-1"] ""), .run 0 (sampleDraw now [] "LTK-2")]

def sampleGate (sessionId : String) (now : ℤ) : List GrantLabel :=
  [.check ⟨[("x-bss-stepup-token", "secret")], [], []⟩ sessionId "vas_purchase", .run 0 (sampleDraw now [] ""),
   .run 0 (sampleDraw now ["LTK-2"] "")]

theorem grants_scoped_taken :
    let w := (exec (GrantWorld.step sampleGrantSettings) (GrantWorld.initial 0 sampleGrantDb)
      (sampleMinted 1 ++ sampleGate "SES-1" 2 ++ [.run 0 (sampleDraw 2 [] "")])).get (by decide +kernel)
    w.uses.map (fun u => (u.grant.id, u.session.id, u.actionLabel)) = [("LTK-2", "SES-1", "vas_purchase")] ∧
      ∀ u ∈ w.uses, w.Scoped u := by
  intro w
  exact ⟨by decide +kernel, grants_scoped sampleGrantSettings 0 sampleGrantDb _ w (Option.some_get _).symm⟩

def sampleLogout (now : ℤ) : List GrantLabel :=
  .begin (.sessionLayer (some "SES-1") true) :: List.replicate 5 (.run 1 (sampleDraw now [] ""))

/-- A grant is taken in another session, after the session has run out, after it was revoked, and
after the grant itself has run out. -/
theorem grants_unbound :
    (∃ w, exec (GrantWorld.step sampleGrantSettings) (GrantWorld.initial 0 sampleGrantDb)
        (sampleMinted 1 ++ sampleGate "SES-2" 2) = some w ∧ ¬ w.GrantsBound sampleGrantSettings) ∧
    (∃ w, exec (GrantWorld.step sampleGrantSettings) (GrantWorld.initial 0 sampleGrantDb)
        (sampleMinted 86390 ++ sampleGate "SES-1" 86405) = some w ∧ ¬ w.GrantsBound sampleGrantSettings) ∧
    (∃ w, exec (GrantWorld.step sampleGrantSettings) (GrantWorld.initial 0 sampleGrantDb)
        (sampleMinted 1 ++ sampleGate "SES-1" 2 ++ sampleLogout 2) = some w ∧ ¬ w.GrantsBound sampleGrantSettings) ∧
    ∃ w, exec (GrantWorld.step sampleGrantSettings) (GrantWorld.initial 0 sampleGrantDb)
        (sampleMinted 1 ++ sampleGate "SES-1" 2) = some w ∧ ¬ w.GrantsBound sampleGrantSettings := by
  refine ⟨⟨_, rfl, fun h => ?_⟩, ⟨_, rfl, fun h => ?_⟩, ⟨_, rfl, fun h => ?_⟩, _, rfl, fun h => ?_⟩
  · obtain ⟨m, hm, -, -, hline, -⟩ := (h 0 (sampleDraw 2 [] "") _ _ rfl rfl).minted
    have heq := GrantWorld.eq_of_descends rfl hline
    clear hline
    revert m
    decide +kernel
  · have hlive := (h 0 (sampleDraw 86405 [] "") _ _ rfl rfl).session
    revert hlive
    decide +kernel
  · have hlive := (h 0 (sampleDraw 2 [] "") _ _ rfl rfl).session
    revert hlive
    decide +kernel
  · have hgrant := (h 0 (sampleDraw 70 [] "") _ _ rfl rfl).grant
    revert hgrant
    decide +kernel

end BssCli.PortalAuth
