import BssCli.PortalAuth.World

/-!
# What a call leaves alone

A call stays in its lane. Only a login writes to identities and attempts, and only a step-up
adds a token.
-/

namespace BssCli.PortalAuth

inductive Lane
  | login
  | stepUp
  | grant
  | action
  | session
  deriving DecidableEq

def Call.lane : Call → Lane
  | .verifyEmailLogin _ => .login
  | .verifyStepUp .. => .stepUp
  | .consumeStepUpToken .. => .grant
  | .consumePendingAction .. => .action
  | .sessionLayer .. => .session

def Flight.lane : Flight → Lane
  | .called c => c.lane
  | .loginAllowed _ | .loginIdentified .. | .loginMatched .. => .login
  | .stepUpActive .. | .stepUpMatched .. => .stepUp
  | .grantActive .. | .grantMatched .. => .grant
  | .actionFound .. => .action
  | .sessionFound .. | .sessionIdentified .. | .sessionCurrent .. | .sessionDue .. | .leaving _ => .session

/-- What a token is for, whether it is consumed or not. -/
def LoginTokenRow.Same (r r' : LoginTokenRow) : Prop :=
  r.id = r'.id ∧ r.kind = r'.kind ∧ r.identityId = r'.identityId ∧ r.actionLabel = r'.actionLabel

/-- No token is new. -/
def TokensFrom (db db' : Db) : Prop := ∀ r' ∈ db'.tokens.rows, ∃ r ∈ db.tokens.rows, r.Same r'

theorem tokensFrom_of_eq {db db' : Db} (h : db'.tokens = db.tokens) : TokensFrom db db' :=
  fun r hr => ⟨r, h ▸ hr, rfl, rfl, rfl, rfl⟩

theorem tokensFrom_consume (db : Db) (id : String) (now : Time) : TokensFrom db (db.consumeToken id now) := by
  intro r' hr'
  obtain ⟨r, hr, rfl⟩ := List.mem_map.mp hr'
  refine ⟨r, hr, ?_⟩
  split <;> exact ⟨rfl, rfl, rfl, rfl⟩

/-- What a step in a lane leaves as it is. -/
structure Keeps (db : Db) (lane : Lane) (o : Outcome) : Prop where
  next : ∀ f' ∈ o.next, f'.lane = lane
  goesOn : ∀ f' ∈ o.next, ∀ c, f' ≠ .called c
  identities : lane ≠ .login → o.db.identities = db.identities
  attempts : lane ≠ .login → o.db.attempts = db.attempts
  tokens : lane ≠ .stepUp → TokensFrom db o.db

section

variable {s : Settings} {d : Draw} {db db' : Db} {lane : Lane} {f f' : Flight} {a : Answer} {o : Outcome}

theorem keeps_ends : Keeps db lane (ends db a) :=
  ⟨by simp [ends], by simp [ends], fun _ => rfl, fun _ => rfl, fun _ => tokensFrom_of_eq rfl⟩

theorem keeps_goes (h : f'.lane = lane) (hgoes : ∀ c, f' ≠ .called c) : Keeps db lane (goes db f') :=
  ⟨by simpa [goes] using h, by simpa [goes] using hgoes, fun _ => rfl, fun _ => rfl, fun _ => tokensFrom_of_eq rfl⟩

theorem Keeps.of_db (h : Keeps db' lane o) (hidentities : db'.identities = db.identities)
    (hattempts : db'.attempts = db.attempts) (htokens : db'.tokens = db.tokens) : Keeps db lane o := by
  refine ⟨h.next, h.goesOn, ?_, ?_, ?_⟩
  · rw [← hidentities]
    exact h.identities
  · rw [← hattempts]
    exact h.attempts
  · unfold TokensFrom
    rw [← htokens]
    exact h.tokens

theorem keeps_handle (logout : Bool) (sess : SessionView) : Keeps db .session (handle db logout sess) := by
  unfold handle
  split
  · exact keeps_goes rfl (by simp)
  · exact keeps_ends

theorem keeps_fail (f : Flight) : Keeps db f.lane (f.fail db) := by
  unfold Flight.fail
  split
  case h_4 | h_5 => exact keeps_handle ..
  all_goals exact keeps_ends

theorem keeps_failLogin (req : VerifyLogin) (reason : String) : Keeps db .login (failLogin d db req reason) :=
  ⟨by simp [failLogin, ends], by simp [failLogin, ends], by simp, by simp, fun _ => tokensFrom_of_eq rfl⟩

theorem keeps_commitLogin (req : VerifyLogin) (now : Time) (ident : IdentityRow) (token : LoginTokenRow) :
    Keeps db .login (commitLogin s d db req now ident token) := by
  unfold commitLogin
  dsimp only
  split
  · exact keeps_ends
  · rename_i db' hins
    obtain ⟨sessions, -, rfl⟩ := Option.map_eq_some_iff.mp hins
    exact ⟨by simp [ends], by simp [ends], by simp, by simp, fun _ => tokensFrom_consume db token.id now⟩

theorem keeps_commitStepUp (actionLabel : String) (now : Time) (identityId : String) (token : LoginTokenRow) :
    Keeps db .stepUp (commitStepUp s d db actionLabel now identityId token) := by
  unfold commitStepUp
  split
  · exact keeps_ends
  · rename_i db' hins
    obtain ⟨tokens, -, rfl⟩ := Option.map_eq_some_iff.mp hins
    exact ⟨by simp [ends], by simp [ends], fun _ => rfl, fun _ => rfl, by simp⟩

theorem keeps_commitRotation (logout : Bool) (sess : SessionView) (now : Time) (row : SessionRow) :
    Keeps db .session (commitRotation s d db logout sess now row) := by
  unfold commitRotation
  split
  · exact keeps_handle ..
  · rename_i db' hins
    obtain ⟨sessions, -, rfl⟩ := Option.map_eq_some_iff.mp hins
    set db' := ({ db with sessions } : Db).revoke sess.id now with hdb'
    have hhandle : ∀ sess', Keeps db' .session (handle db' logout sess') := fun sess' => keeps_handle ..
    have hhandled : Keeps db .session (handle db' logout (if d.heard then sessionView (rotatedSession s d now row) now else sess)) :=
      (hhandle _).of_db rfl rfl rfl
    exact ⟨hhandled.next, hhandled.goesOn, hhandled.identities, hhandled.attempts, hhandled.tokens⟩

theorem keeps_next (h : f.next s d db = some o) : Keeps db f.lane o := by
  cases f with
  | called c =>
    cases c with
    | verifyEmailLogin req =>
      cases h
      unfold enforceLoginVerify
      dsimp only
      split
      · exact keeps_ends
      · exact keeps_goes rfl (by simp)
    | verifyStepUp sessionId code actionLabel =>
      cases h
      unfold beginStepUp
      split
      · exact keeps_ends
      · exact keeps_goes rfl (by simp)
    | consumeStepUpToken sessionId token actionLabel =>
      cases h
      unfold beginConsume
      split
      · exact keeps_ends
      · exact keeps_goes rfl (by simp)
    | consumePendingAction sessionId actionLabel =>
      obtain ⟨rows, -, rfl⟩ := Option.map_eq_some_iff.mp h
      split
      · exact keeps_ends
      · exact keeps_goes rfl (by simp)
    | sessionLayer cookie logout =>
      cases h
      unfold findSession
      split
      · exact keeps_ends
      · split
        · exact keeps_goes rfl (by simp)
        · exact keeps_ends
  | loginAllowed req =>
    obtain ⟨rows, -, rfl⟩ := Option.map_eq_some_iff.mp h
    split
    · exact keeps_failLogin ..
    · exact keeps_goes rfl (by simp)
  | loginIdentified req now ident =>
    obtain ⟨rows, -, rfl⟩ := Option.map_eq_some_iff.mp h
    split
    · exact keeps_failLogin ..
    · exact keeps_goes rfl (by simp)
  | loginMatched req now ident token => cases h; exact keeps_commitLogin ..
  | stepUpActive code actionLabel now identityId =>
    obtain ⟨rows, -, rfl⟩ := Option.map_eq_some_iff.mp h
    split
    · exact keeps_ends
    · exact keeps_goes rfl (by simp)
  | stepUpMatched actionLabel now identityId token => cases h; exact keeps_commitStepUp ..
  | grantActive token actionLabel now identityId =>
    obtain ⟨rows, -, rfl⟩ := Option.map_eq_some_iff.mp h
    split
    · exact keeps_ends
    · exact keeps_goes rfl (by simp)
  | grantMatched now grant =>
    cases h
    exact ⟨by simp [consumeGrant, ends], by simp [consumeGrant, ends], fun _ => rfl, fun _ => rfl, fun _ => tokensFrom_consume db grant.id now⟩
  | actionFound now action => cases h; exact keeps_ends.of_db rfl rfl rfl
  | sessionFound logout now sess =>
    cases h
    unfold findIdentity
    split
    · exact keeps_ends
    · exact keeps_goes rfl (by simp)
  | sessionIdentified logout now sess =>
    cases h
    have hgoes : Keeps (db.see sess.id now) .session (goes (db.see sess.id now) (.sessionCurrent logout (sessionView sess now))) :=
      keeps_goes rfl (by simp)
    exact hgoes.of_db rfl rfl rfl
  | sessionCurrent logout sess =>
    cases h
    unfold checkRotation
    split
    · exact keeps_handle ..
    · split
      · exact keeps_goes rfl (by simp)
      · exact keeps_handle ..
  | sessionDue logout sess now row => cases h; exact keeps_commitRotation ..
  | leaving sess => cases h; exact keeps_ends.of_db rfl rfl rfl

theorem keeps_run (h : f.run s d db = some o) : Keeps db f.lane o := by
  unfold Flight.run at h
  split at h
  · exact keeps_next h
  · cases h
    exact keeps_fail f

end

end BssCli.PortalAuth
