import BssCli.PortalAuth.Account

/-!
# Deleted identities

`current_session` is the only call that looks at the status `deleted`. The others write a status from what else the identity
has: a login, a link and a repair bring it back, and a session that it still has takes a grant. Without these it stays out.
-/

namespace BssCli.PortalAuth

open Steps

def IsDeleted (db : Db) (id : String) : Prop := ∃ r ∈ db.identities.find id, r.status = "deleted"

/-- The identity stays deleted, no session of it is answered with, and no grant of it was taken. -/
structure StaysOut (id : String) (w : AccountWorld) : Prop where
  status : IsDeleted w.db id
  answers : ∀ sess identity, AccountAnswer.session (some (sess, identity)) ∈ w.answers → identity.id ≠ id
  taken : ∀ g ∈ w.taken, g.identityId ≠ id

/-- The step leaves the identity alone: a login of it finds it verified and no customer for it, it is linked when it is to be
linked, to another customer when it is to be moved, and no grant of it fits. -/
def AccountFlight.spares (s : AccountSettings) (id : String) (d : AccountDraw) (db : Db) : AccountFlight → Bool
  | .link (.login (.loginMatched _ _ ident _)) =>
    ident.id ≠ id || (ident.emailVerifiedAt.isSome && (ident.customerId.or d.customerId).isNone)
  | .link (.linking identityId _) => identityId ≠ id || (db.linkOf id).isSome
  | .link (.relinking identityId orphanedCustomerId _) => identityId ≠ id || db.linkOf id ≠ some orphanedCustomerId
  | .link (.login (.grantActive token actionLabel now identityId)) =>
    identityId ≠ id || (matchToken s.toSettings token now (db.activeTokens id .stepUpGrant actionLabel)).isNone
  | _ => true

def AccountWorld.Spares (s : AccountSettings) (id : String) (w : AccountWorld) : AccountLabel → Prop
  | .run i d => d.dbOk → ∀ f ∈ w.flights[i]?, f.spares s id d w.db = true
  | _ => True

instance (s : AccountSettings) (id : String) (w : AccountWorld) : (l : AccountLabel) → Decidable (w.Spares s id l)
  | .run .. => inferInstanceAs (Decidable (_ → ∀ f ∈ _, _))
  | .begin _ | .drop _ => inferInstanceAs (Decidable True)

/-! ## What the calls know -/

/-- What a call has read of the identity. -/
def AccountFlight.Outside (id : String) : AccountFlight → Prop
  | .link (.login (.loginIdentified _ _ ident)) | .link (.login (.loginMatched _ _ ident _)) =>
    ident.id = id → ident.status = "deleted"
  | .link (.unlinked identityId _) => identityId ≠ id
  | .link (.login (.grantMatched _ grant)) => grant.identityId ≠ id
  | .identified _ _ identity => identity.id ≠ id
  | _ => True

/-- What a step leaves as it is. -/
structure SparedBy (id : String) (o : AccountOutcome) : Prop where
  status : IsDeleted o.db id
  next : ∀ f ∈ o.next, f.Outside id
  answer : ∀ sess identity, o.answer ≠ some (.session (some (sess, identity))) ∨ identity.id ≠ id
  taken : ∀ g ∈ o.taken, g.identityId ≠ id

section Steps

variable {s : AccountSettings} {d : AccountDraw} {db db' : Db} {id : String}

theorem isDeleted_congr (h : IsDeleted db id) (hdb : db'.identities = db.identities) : IsDeleted db' id := by
  unfold IsDeleted
  rw [hdb]
  exact h

theorem spared_ends (h : IsDeleted db id) (hdb : db'.identities = db.identities) {a : AccountAnswer}
    (ha : ∀ sess identity, a ≠ .session (some (sess, identity))) : SparedBy id (accountEnds db' a) :=
  ⟨isDeleted_congr h hdb, by simp [accountEnds], fun sess identity => Or.inl (by simpa [accountEnds] using ha sess identity), by simp [accountEnds]⟩

theorem spared_goes (h : IsDeleted db id) {f : AccountFlight} (hf : f.Outside id) : SparedBy id (accountGoes db f) :=
  ⟨h, by simpa [accountGoes] using hf, by simp [accountGoes], by simp [accountGoes]⟩

theorem deleted_of_mem (h : IsDeleted db id) {r : IdentityRow} (hr : r ∈ db.identities.rows) (hid : r.id = id) :
    r.status = "deleted" := by
  obtain ⟨r', hr', hdeleted⟩ := h
  have hfind := db.identities.find_of_mem hr
  rw [hid, Option.mem_def.mp hr'] at hfind
  rw [← Option.some.inj hfind, hdeleted]

/-! ## Logins that are started -/

theorem spared_commitLoginStart (h : IsDeleted db id) (email : String) (ip : Option String) (now : Time) (existing : Option String) :
    SparedBy id (commitLoginStart s d db email ip now existing) := by
  have haddressee : ∀ p, addressee d db email existing = some p → IsDeleted p.2 id := by
    intro p hp
    unfold addressee at hp
    split at hp
    · cases hp
      exact h
    · obtain ⟨db', hins, rfl⟩ := Option.map_eq_some_iff.mp hp
      unfold Db.insertIdentity at hins
      split at hins
      · cases hins
      · obtain ⟨identities, hinsert, rfl⟩ := Option.map_eq_some_iff.mp hins
        exact Table.exists_find_insert hinsert h
  have htoken : ∀ (db db' : Db) (r : LoginTokenRow), db.insertToken r = some db' → db'.identities = db.identities := by
    intro db db' r hins
    obtain ⟨tokens, -, rfl⟩ := Option.map_eq_some_iff.mp hins
    rfl
  unfold commitLoginStart
  split
  · exact spared_ends h rfl (by simp)
  · rename_i identityId db' hcommit
    obtain ⟨p, hp, hissued⟩ := Option.bind_eq_some_iff.mp hcommit
    obtain ⟨db'', hissue, heq⟩ := Option.map_eq_some_iff.mp hissued
    obtain ⟨rfl, rfl⟩ := Prod.mk.inj heq
    obtain ⟨db₁, hotp, hmagic⟩ := Option.bind_eq_some_iff.mp hissue
    have hdb : db''.identities = p.2.identities := (htoken _ _ _ hmagic).trans (htoken _ _ _ hotp)
    refine spared_ends (haddressee p hp) ?_ fun sess identity => ?_
    · exact hdb
    · split <;> simp

theorem spared_enforcePerEmail (h : IsDeleted db id) (email : String) (ip : Option String) :
    SparedBy id (enforcePerEmail s d db email ip) := by
  unfold enforcePerEmail
  dsimp only
  split
  · exact spared_ends h rfl (by simp)
  · split
    · exact spared_goes h trivial
    · exact spared_goes h trivial

theorem spared_enforcePerIp (h : IsDeleted db id) (email ip : String) (now : Time) :
    SparedBy id (enforcePerIp s db email ip now) := by
  unfold enforcePerIp
  dsimp only
  split
  · exact spared_ends h rfl (by simp)
  · exact spared_goes h trivial

/-! ## Sessions -/

theorem spared_checkDue (h : IsDeleted db id) (sessionId : String) : SparedBy id (checkDue s d db sessionId) := by
  unfold checkDue
  split
  · exact spared_ends h rfl (by simp)
  · split
    · exact spared_goes h trivial
    · exact spared_ends h rfl (by simp)

theorem spared_commitDue (h : IsDeleted db id) (sessionId : String) (now : Time) (row : SessionRow) :
    SparedBy id (commitDue s d db sessionId now row) := by
  unfold commitDue
  split
  · exact spared_ends h rfl (by simp)
  · rename_i db' hins
    obtain ⟨sessions, -, rfl⟩ := Option.map_eq_some_iff.mp hins
    refine spared_ends h ?_ fun sess identity => ?_
    · rfl
    · split <;> simp

theorem spared_resume (h : IsDeleted db id) (cookie : String) : SparedBy id (resume d db cookie) := by
  unfold resume
  split
  · exact spared_ends h rfl (by simp)
  · split
    · exact spared_goes h trivial
    · exact spared_ends h rfl (by simp)

theorem spared_resumeIdentity (h : IsDeleted db id) (now : Time) (sess : SessionRow) :
    SparedBy id (resumeIdentity db now sess) := by
  unfold resumeIdentity
  split
  · exact spared_ends h rfl (by simp)
  · rename_i identity hidentity
    obtain ⟨hfind, hactive⟩ := Option.filter_eq_some_iff.mp hidentity
    refine spared_goes h fun hid => ?_
    have hdeleted := deleted_of_mem h (db.identities.find_some hfind).1 hid
    simp [hdeleted] at hactive

theorem spared_answerSession (h : IsDeleted db id) (now : Time) (sess : SessionRow) {identity : IdentityRow}
    (hidentity : identity.id ≠ id) : SparedBy id (answerSession d db now sess identity) := by
  refine ⟨isDeleted_congr h rfl, by simp [answerSession, accountEnds], fun sess' identity' => ?_, by simp [answerSession, accountEnds]⟩
  by_cases heq : identity' = identityView identity
  · exact Or.inr (heq ▸ hidentity)
  · refine Or.inl fun hanswer => heq ?_
    unfold answerSession accountEnds at hanswer
    dsimp only at hanswer
    split at hanswer
    · simp only [Option.some.injEq, AccountAnswer.session.injEq, Prod.mk.injEq] at hanswer
      exact hanswer.2.symm
    · simp at hanswer

/-! ## Logins, links and step-ups -/

theorem isDeleted_logIn {ident : IdentityRow} {customerId : Option String} {verifiedAt : Option Time} {now : Time}
    (h : IsDeleted db id) (hident : ident.id = id → newStatus ident customerId = "deleted") :
    IsDeleted (db.logIn ident.id customerId verifiedAt (newStatus ident customerId) now) id := by
  by_cases hid : ident.id = id
  · rw [hid]
    exact db.identities.exists_find_update_self _ (IdentityRow.logIn_id now customerId verifiedAt _) (fun _ _ => hident hid) h
  · unfold IsDeleted Db.logIn
    rw [Table.find_update_ne _ (Ne.symm hid)]
    exact h

theorem isDeleted_link {identityId customerId : String} (h : IsDeleted db id) (hid : identityId ≠ id) :
    IsDeleted (db.link identityId customerId) id := by
  unfold IsDeleted Db.link
  rw [Table.find_update_ne _ hid.symm]
  exact h

/-- A verified identity without a customer keeps its status. -/
theorem newStatus_spared {ident : IdentityRow} {customerId : Option String} (hverified : ident.emailVerifiedAt.isSome = true)
    (hcustomer : customerId.isNone = true) : newStatus ident customerId = ident.status := by
  rw [Option.isNone_iff_eq_none] at hcustomer
  unfold newStatus
  rw [if_neg (by simp [Option.isNone_iff_eq_none, Option.isSome_iff_ne_none.mp hverified]), if_neg (by simp [hcustomer])]

theorem isDeleted_commitLogin {req : VerifyLogin} {now : Time} {ident : IdentityRow} {token : LoginTokenRow}
    (h : IsDeleted db id) (hident : ident.id = id → ident.status = "deleted")
    (hspares : AccountFlight.spares s id d db (.link (.login (.loginMatched req now ident token))) = true) :
    IsDeleted (commitLogin s.toSettings d.toDraw db req now ident token).db id := by
  have hstatus : ident.id = id → newStatus ident (ident.customerId.or d.customerId) = "deleted" := by
    intro hid
    simp only [AccountFlight.spares, hid, ne_eq, not_true_eq_false, decide_false, Bool.false_or, Bool.and_eq_true] at hspares
    rw [newStatus_spared hspares.1 hspares.2, hident hid]
  unfold commitLogin
  dsimp only
  split
  · exact h
  · rename_i db' hins
    obtain ⟨sessions, -, rfl⟩ := Option.map_eq_some_iff.mp hins
    exact isDeleted_congr (isDeleted_logIn h hstatus) rfl

theorem outside_of_lane {f : Flight} (hlogin : f.lane ≠ .login) (hgrant : f.lane ≠ .grant) :
    (AccountFlight.link (.login f)).Outside id := by
  cases f with
  | loginIdentified | loginMatched => exact absurd rfl hlogin
  | grantMatched => exact absurd rfl hgrant
  | _ => trivial

theorem outside_identify {req : VerifyLogin} {o : Outcome} (h : IsDeleted db id) (ho : identify d.toDraw db req = some o) :
    ∀ f ∈ o.next, (AccountFlight.link (.login f)).Outside id := by
  obtain ⟨rows, hrows, rfl⟩ := Option.map_eq_some_iff.mp ho
  cases hhead : rows.head? with
  | none => simp [failLogin, ends]
  | some ident =>
    rintro f ⟨⟩
    have hmem := (perm_of_inOrder hrows).mem_iff.mp (List.mem_of_head? hhead)
    exact deleted_of_mem h (List.mem_filter.mp hmem).1

theorem outside_matchLogin {req : VerifyLogin} {now : Time} {ident : IdentityRow} {o : Outcome}
    (hident : ident.id = id → ident.status = "deleted") (ho : matchLogin s.toSettings d.toDraw db req now ident = some o) :
    ∀ f ∈ o.next, (AccountFlight.link (.login f)).Outside id := by
  obtain ⟨rows, -, rfl⟩ := Option.map_eq_some_iff.mp ho
  split
  · simp [failLogin, ends]
  · rintro f ⟨⟩
    exact hident

/-- Where no grant of the identity fits, the one that is found is of another. -/
theorem outside_matchGrant {token actionLabel identityId : String} {now : Time} {o : Outcome}
    (hspares : AccountFlight.spares s id d db (.link (.login (.grantActive token actionLabel now identityId))) = true)
    (ho : matchGrant s.toSettings d.toDraw db token actionLabel now identityId = some o) :
    ∀ f ∈ o.next, (AccountFlight.link (.login f)).Outside id := by
  obtain ⟨rows, hrows, rfl⟩ := Option.map_eq_some_iff.mp ho
  cases hmatch : matchToken s.toSettings token now rows with
  | none => simp [ends]
  | some grant =>
    rintro f ⟨⟩
    have hmem := (perm_of_inOrder hrows).mem_iff.mp (List.mem_of_find?_eq_some hmatch)
    have hidentity : grant.identityId = identityId := (of_decide_eq_true (List.mem_filter.mp hmem).2).1
    show grant.identityId ≠ id
    rw [hidentity]
    rintro rfl
    simp only [AccountFlight.spares, ne_eq, not_true_eq_false, decide_false, Bool.false_or, Option.isNone_iff_eq_none] at hspares
    unfold matchToken at hspares hmatch
    have hfits := List.find?_some hmatch
    exact List.find?_eq_none.mp hspares grant hmem hfits

theorem outside_called {c : Call} {o : Outcome} (ho : (Flight.called c).next s.toSettings d.toDraw db = some o) :
    ∀ f ∈ o.next, (AccountFlight.link (.login f)).Outside id := by
  intro f hf
  cases c with
  | verifyEmailLogin req =>
    cases ho
    unfold enforceLoginVerify at hf
    dsimp only at hf
    split at hf <;> cases hf
    exact trivial
  | consumeStepUpToken sessionId token actionLabel =>
    cases ho
    unfold beginConsume at hf
    split at hf <;> cases hf
    exact trivial
  | _ =>
    have hlane := (keeps_next ho).next f hf
    exact outside_of_lane (by rw [hlane]; simp [Flight.lane, Call.lane]) (by rw [hlane]; simp [Flight.lane, Call.lane])

/-- What a call goes on with has read the identity as deleted, and no grant of it. -/
theorem outside_next {f : Flight} {o : Outcome} (h : IsDeleted db id) (hf : (AccountFlight.link (.login f)).Outside id)
    (hspares : AccountFlight.spares s id d db (.link (.login f)) = true) (ho : f.next s.toSettings d.toDraw db = some o) :
    ∀ f' ∈ o.next, (AccountFlight.link (.login f')).Outside id := by
  cases f with
  | called c => exact outside_called ho
  | loginAllowed req => exact outside_identify h ho
  | loginIdentified req now ident => exact outside_matchLogin hf ho
  | grantActive token actionLabel now identityId => exact outside_matchGrant hspares ho
  | loginMatched req now ident token =>
    cases ho
    unfold commitLogin
    dsimp only
    split <;> simp [ends]
  | grantMatched now grant =>
    cases ho
    simp [consumeGrant, ends]
  | _ =>
    intro f' hf'
    have hlane := (keeps_next ho).next f' hf'
    exact outside_of_lane (by rw [hlane]; simp [Flight.lane]) (by rw [hlane]; simp [Flight.lane])

theorem outside_fail (f : Flight) : ∀ f' ∈ (f.fail db).next, (AccountFlight.link (.login f')).Outside id := by
  intro f' hf'
  have hhandle : ∀ logout sess, f' ∈ (handle db logout sess).next → (AccountFlight.link (.login f')).Outside id := by
    intro logout sess hnext
    unfold handle at hnext
    split at hnext <;> cases hnext
    exact trivial
  unfold Flight.fail at hf'
  split at hf'
  case h_4 | h_5 => exact hhandle _ _ hf'
  all_goals cases hf'

theorem taken_outside {f : LinkFlight} {o : LinkOutcome} (hf : (AccountFlight.link f).Outside id) :
    ∀ g ∈ takenGrant f o, g.identityId ≠ id := by
  intro g hg
  unfold takenGrant at hg
  split at hg <;> cases hg
  exact hf

theorem spared_of_link {f : LinkFlight} {o : LinkOutcome} (hf : (AccountFlight.link f).Outside id)
    (hstatus : IsDeleted o.db id) (hnext : ∀ f' ∈ o.next, (AccountFlight.link f').Outside id) :
    SparedBy id ⟨o.db, o.next.map .link, o.answer.map .link, takenGrant f o⟩ := by
  refine ⟨hstatus, fun f' hf' => ?_, fun sess identity => Or.inl (by simp), taken_outside hf⟩
  obtain ⟨g, hg, rfl⟩ := Option.map_eq_some_iff.mp hf'
  exact hnext g hg

theorem spared_login {f : Flight} {o : AccountOutcome} (h : IsDeleted db id) (hf : (AccountFlight.link (.login f)).Outside id)
    (hspares : d.dbOk → AccountFlight.spares s id d db (.link (.login f)) = true)
    (ho : (AccountFlight.link (.login f)).run s d db = some o) : SparedBy id o := by
  obtain ⟨lo, hlo, rfl⟩ := Option.map_eq_some_iff.mp ho
  obtain ⟨fo, hfo, rfl⟩ := Option.map_eq_some_iff.mp hlo
  have hrun : IsDeleted fo.db id ∧ ∀ f' ∈ fo.next, (AccountFlight.link (.login f')).Outside id := by
    unfold Flight.run at hfo
    split at hfo
    · rename_i hok
      refine ⟨?_, outside_next h hf (hspares hok) hfo⟩
      by_cases hmatched : ∃ req now ident token, f = .loginMatched req now ident token
      · obtain ⟨req, now, ident, token, rfl⟩ := hmatched
        cases hfo
        exact isDeleted_commitLogin h hf (hspares hok)
      · exact isDeleted_congr h (identities_next hfo fun req now ident token heq => hmatched ⟨req, now, ident, token, heq⟩)
    · cases hfo
      exact ⟨isDeleted_congr h (congrArg Db.identities (fail_db f)), outside_fail f⟩
  refine spared_of_link hf hrun.1 fun f' hf' => ?_
  obtain ⟨g, hg, rfl⟩ := Option.map_eq_some_iff.mp hf'
  exact hrun.2 g hg

/-- The steps of a link that are no login. -/
theorem spared_statement {f : LinkFlight} {o : LinkOutcome} (h : IsDeleted db id) (hf : (AccountFlight.link f).Outside id)
    {lo : LinkOutcome} (hlo : (if d.dbOk then some lo else some (linkEnds db .dbError)) = some o)
    (hran : d.dbOk → IsDeleted lo.db id ∧ ∀ f' ∈ lo.next, (AccountFlight.link f').Outside id) :
    SparedBy id ⟨o.db, o.next.map .link, o.answer.map .link, takenGrant f o⟩ := by
  split at hlo
  · rename_i hok
    cases hlo
    exact spared_of_link hf (hran hok).1 (hran hok).2
  · cases hlo
    exact spared_of_link hf h (by simp [linkEnds])

theorem outside_readLink {identityId : String} (customerId : String) (hlinked : identityId ≠ id ∨ (db.linkOf id).isSome = true) :
    (readLink db identityId customerId).db = db ∧
      ∀ f' ∈ (readLink db identityId customerId).next, (AccountFlight.link f').Outside id := by
  unfold readLink
  split
  · exact ⟨rfl, by simp [linkEnds]⟩
  · rename_i r hr
    split
    · split <;> exact ⟨rfl, by simp [linkEnds]⟩
    · rename_i hnone
      refine ⟨rfl, fun f' hf' => ?_⟩
      cases hf'
      rintro rfl
      rcases hlinked with hne | hlinked
      · exact hne rfl
      · simp [Db.linkOf, hr, hnone] at hlinked

theorem spared_swapLink {identityId orphan customerId : String} (h : IsDeleted db id)
    (hmoved : identityId ≠ id ∨ db.linkOf id ≠ some orphan) :
    IsDeleted (swapLink d.toDraw db identityId orphan customerId).db id ∧
      ∀ f' ∈ (swapLink d.toDraw db identityId orphan customerId).next, (AccountFlight.link f').Outside id := by
  unfold swapLink
  split
  · rename_i hfound
    refine ⟨isDeleted_link h ?_, by simp⟩
    rintro rfl
    rcases hmoved with hne | hmoved
    · exact hne rfl
    · exact hmoved hfound
  · split
    · refine ⟨h, fun f' hf' => ?_⟩
      cases hf'
      exact trivial
    · exact ⟨h, by simp [linkEnds]⟩

theorem outside_explainMiss (db : Db) (id identityId customerId : String) :
    (explainMiss db identityId customerId).db = db ∧
      ∀ f' ∈ (explainMiss db identityId customerId).next, (AccountFlight.link f').Outside id := by
  unfold explainMiss
  split
  · exact ⟨rfl, by simp [linkEnds]⟩
  · split
    · exact ⟨rfl, by simp [linkEnds]⟩
    · refine ⟨rfl, fun f' hf' => ?_⟩
      cases hf'
      exact trivial

theorem spared_link {f : LinkFlight} {o : AccountOutcome} (h : IsDeleted db id) (hf : (AccountFlight.link f).Outside id)
    (hspares : d.dbOk → AccountFlight.spares s id d db (.link f) = true)
    (ho : (AccountFlight.link f).run s d db = some o) : SparedBy id o := by
  cases f with
  | login f => exact spared_login h hf hspares ho
  | linking identityId customerId =>
    obtain ⟨lo, hlo, rfl⟩ := Option.map_eq_some_iff.mp ho
    refine spared_statement h hf hlo fun hok => ?_
    have hlinked := hspares hok
    simp only [AccountFlight.spares, Bool.or_eq_true, decide_eq_true_eq] at hlinked
    obtain ⟨hdb, hnext⟩ := outside_readLink customerId hlinked
    exact ⟨hdb.symm ▸ h, hnext⟩
  | unlinked identityId customerId =>
    obtain ⟨lo, hlo, rfl⟩ := Option.map_eq_some_iff.mp ho
    exact spared_statement h hf hlo fun _ => ⟨isDeleted_link h hf, by simp [writeLink, linkEnds]⟩
  | relinking identityId orphan customerId =>
    obtain ⟨lo, hlo, rfl⟩ := Option.map_eq_some_iff.mp ho
    refine spared_statement h hf hlo fun hok => spared_swapLink h ?_
    simpa [AccountFlight.spares] using hspares hok
  | missed identityId customerId =>
    obtain ⟨lo, hlo, rfl⟩ := Option.map_eq_some_iff.mp ho
    refine spared_statement h hf hlo fun _ => ?_
    obtain ⟨hdb, hnext⟩ := outside_explainMiss db id identityId customerId
    exact ⟨hdb.symm ▸ h, hnext⟩

theorem identities_start (f : StartFlight) : (f.run s.toGrantSettings d.toDraw db).db.identities = db.identities := by
  unfold StartFlight.run
  split
  · cases f with
    | called sessionId actionLabel =>
      unfold StartFlight.next enforceStart
      dsimp only
      split <;> rfl
    | counted sessionId actionLabel now =>
      unfold StartFlight.next readSession
      dsimp only
      split <;> rfl
    | active actionLabel now sess =>
      unfold StartFlight.next readEmail
      dsimp only
      split <;> rfl
    | addressed actionLabel now sess email =>
      unfold StartFlight.next commitStepUpStart
      dsimp only
      split
      · rfl
      · rename_i db' hins
        obtain ⟨tokens, -, rfl⟩ := Option.map_eq_some_iff.mp hins
        rfl
  · rfl

theorem spared_stepUp (h : IsDeleted db id) (f : StartFlight) {o : AccountOutcome}
    (ho : (AccountFlight.stepUp f).run s d db = some o) : SparedBy id o := by
  obtain rfl := Option.some.inj ho
  refine ⟨isDeleted_congr h (identities_start f), fun f' hf' => ?_, fun sess identity => Or.inl (by simp), by simp⟩
  obtain ⟨g, -, rfl⟩ := Option.map_eq_some_iff.mp hf'
  exact trivial

theorem spared_findAddressee (h : IsDeleted db id) {email : String} {ip : Option String} {o : AccountOutcome}
    (ho : findAddressee d db email ip = some o) : SparedBy id o := by
  obtain ⟨rows, -, rfl⟩ := Option.map_eq_some_iff.mp ho
  exact spared_goes h trivial

/-- A statement that fails leaves everything as it is. -/
theorem spared_or_fails {o : AccountOutcome} {next : Option AccountOutcome} (h : IsDeleted db id)
    (ho : (if d.dbOk then next else some (accountEnds db .dbError)) = some o) (hnext : ∀ o, next = some o → SparedBy id o) :
    SparedBy id o := by
  split at ho
  · exact hnext o ho
  · cases ho
    exact spared_ends h rfl (by simp)

theorem spared_step {o o' : AccountOutcome} (h : IsDeleted db id)
    (ho : (if d.dbOk then some o' else some (accountEnds db .dbError)) = some o) (hstep : SparedBy id o') : SparedBy id o :=
  spared_or_fails h ho fun _ heq => Option.some.inj heq ▸ hstep

theorem spared_run {f : AccountFlight} {o : AccountOutcome} (h : IsDeleted db id) (hf : f.Outside id)
    (hspares : d.dbOk → f.spares s id d db = true) (ho : f.run s d db = some o) : SparedBy id o := by
  cases f with
  | link f => exact spared_link h hf hspares ho
  | stepUp f => exact spared_stepUp h f ho
  | admitted email ip => exact spared_or_fails h ho fun o ho => spared_findAddressee h ho
  | starting email ip => exact spared_step h ho (spared_enforcePerEmail h email ip)
  | counted email ip now => exact spared_step h ho (spared_enforcePerIp h email ip now)
  | addressed email ip now existing => exact spared_step h ho (spared_commitLoginStart h email ip now existing)
  | rotating sessionId => exact spared_step h ho (spared_checkDue h sessionId)
  | due sessionId now row => exact spared_step h ho (spared_commitDue h sessionId now row)
  | resuming cookie => exact spared_step h ho (spared_resume h cookie)
  | resumed now sess => exact spared_step h ho (spared_resumeIdentity h now sess)
  | identified now sess identity => exact spared_step h ho (spared_answerSession h now sess hf)

end Steps

/-! ## Every run -/

structure AccountWorld.Inv (id : String) (w : AccountWorld) : Prop where
  out : StaysOut id w
  flights : ∀ f ∈ w.flights, f.Outside id

theorem AccountCall.outside (id : String) (c : AccountCall) : c.flight.Outside id := by
  cases c <;> exact trivial

theorem AccountWorld.Inv.step {s : AccountSettings} {id : String} {w w' : AccountWorld} {l : AccountLabel} (hi : w.Inv id)
    (hspares : w.Spares s id l) (h : AccountWorld.step s w l = some w') : w'.Inv id := by
  obtain ⟨hout, hflights⟩ := hi
  cases l with
  | begin c =>
    cases h
    exact ⟨⟨hout.status, hout.answers, hout.taken⟩, Pool.forall_concat hflights (c.outside id)⟩
  | drop i =>
    cases h
    exact ⟨⟨hout.status, hout.answers, hout.taken⟩, Pool.forall_eraseIdx hflights⟩
  | run i d =>
    obtain ⟨f, hf, h⟩ := Option.bind_eq_some_iff.mp h
    obtain ⟨o, ho, rfl⟩ := Option.map_eq_some_iff.mp h
    have hspared := spared_run hout.status (hflights f (Pool.mem_of_getElem? hf)) (fun hok => hspares hok f hf) ho
    refine ⟨⟨hspared.status, fun sess identity hmem => ?_, fun g hg => ?_⟩, Pool.forall_move hflights hspared.next⟩
    · rcases List.mem_append.mp hmem with hmem | hmem
      · exact hout.answers sess identity hmem
      · exact (hspared.answer sess identity).resolve_left (not_not_intro (Option.mem_toList.mp hmem))
    · rcases List.mem_append.mp hg with hg | hg
      · exact hout.taken g hg
      · exact hspared.taken g (Option.mem_toList.mp hg)

/-- In every run whose steps spare it, a deleted identity stays out. -/
theorem deleted_stays_out (s : AccountSettings) (id : String) (db : Db) (hdeleted : IsDeleted db id) (ls : List AccountLabel)
    (w : AccountWorld)
    (h : exec (guarded (AccountWorld.Spares s id) (AccountWorld.step s)) (AccountWorld.initial db) ls = some w) :
    StaysOut id w := by
  have hinit : (AccountWorld.initial db).Inv id :=
    ⟨⟨hdeleted, by simp [AccountWorld.initial], by simp [AccountWorld.initial]⟩, by simp [AccountWorld.initial]⟩
  exact (guarded_inv (fun w l w' hi hspares hstep => hi.step hspares hstep) hinit h).out

def sampleAccountSettings : AccountSettings :=
  { sampleGrantSettings with
    loginPerEmailMax := 5, loginPerEmailWindowS := 900, loginPerIpMax := 20, loginPerIpWindowS := 900, loginTokenTtlS := 900 }

/-- A deleted identity with a session, a code of each kind and a grant. -/
def sampleDeletedDb (verifiedAt : Option Time) : Db :=
  { sampleDb with identities := .singleton ⟨"IDN-1", "ada@x", none, verifiedAt, "deleted", none⟩ }

def sampleStep (now : ℤ) (order : List String) (freshId : String) : AccountLabel :=
  .run 0 { sampleDraw now order freshId with freshIdentity := "IDN-2", magicId := "LTK-5", magicToken := "magic" }

/-- A login with a code that is left, and a look at the session that it opens. -/
def sampleLogsIn : List AccountLabel :=
  [.begin (.verifyEmailLogin ⟨"ada@x", "424242", none, none⟩), sampleStep 1 [] "", sampleStep 1 ["IDN-1"] "",
   sampleStep 1 ["LTK-1"] "", sampleStep 1 [] "SES-2", .begin (.currentSession "SES-2"), sampleStep 2 [] "", sampleStep 2 [] "",
   sampleStep 2 [] ""]

def sampleTakesGrant : List AccountLabel :=
  [.begin (.consumeStepUpToken "SES-1" "424242" "vas_purchase"), sampleStep 1 [] "", sampleStep 1 ["LTK-3"] "", sampleStep 1 [] ""]

/-- Verified, and without a customer, it logs in and is still deleted. -/
theorem deleted_stays_out_verified :
    let w := (exec (guarded (AccountWorld.Spares sampleAccountSettings "IDN-1") (AccountWorld.step sampleAccountSettings))
      (AccountWorld.initial (sampleDeletedDb (some 0))) (sampleLogsIn.take 8)).get (by decide +kernel)
    w.answers.length = 2 ∧ StaysOut "IDN-1" w := by
  intro w
  exact ⟨by decide +kernel, deleted_stays_out sampleAccountSettings "IDN-1" (sampleDeletedDb (some 0))
    ⟨_, rfl, rfl⟩ _ w (Option.some_get _).symm⟩

/-- Not verified, it comes back with a login. Before that, its old session takes a grant. -/
theorem deleted_comes_back :
    IsDeleted (sampleDeletedDb none) "IDN-1" ∧
      ∃ w, exec (AccountWorld.step sampleAccountSettings) (AccountWorld.initial (sampleDeletedDb none))
          (sampleTakesGrant ++ sampleLogsIn) = some w ∧
        ¬ IsDeleted w.db "IDN-1" ∧
        (∃ sess identity, .session (some (sess, identity)) ∈ w.answers ∧ identity.id = "IDN-1") ∧
        ∃ g ∈ w.taken, g.identityId = "IDN-1" := by
  refine ⟨⟨_, rfl, rfl⟩, _, rfl, ?_, ⟨_, _, List.mem_of_getLast? rfl, rfl⟩, ⟨_, List.mem_of_getLast? rfl, rfl⟩⟩
  rintro ⟨r, hr, hdeleted⟩
  cases hr
  exact absurd hdeleted (by decide)

end BssCli.PortalAuth
