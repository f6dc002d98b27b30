import BssCli.Lib.Pool
import BssCli.Lib.Spend
import BssCli.Lib.Steps
import BssCli.PortalAuth.Service

/-!
# Calls side by side

Any number of calls, and the writers that issue tokens and stash actions. A credential is a
row that can be used up: a token, a stashed action, or a session that is rotated away.
-/

namespace BssCli.PortalAuth

open Steps

structure World where
  db : Db
  flights : List Flight
  answers : List Answer

inductive Label
  | begin (c : Call)
  | run (i : ℕ) (d : Draw)
  /-- The request is given up, the process dies. -/
  | drop (i : ℕ)
  /-- A code is sent out. -/
  | issue (r : LoginTokenRow)
  | stash (r : PendingActionRow) (now : Time)
  /-- Another write to the identities. -/
  | identities (t : Identities)

namespace World

def initial (db : Db) : World := ⟨db, [], []⟩

def settle (w : World) (i : ℕ) (o : Outcome) : World where
  db := o.db
  flights := match o.next with
    | some f => w.flights.set i f
    | none => w.flights.eraseIdx i
  answers := w.answers ++ o.answer.toList

def step (s : Settings) (w : World) : Label → Option World
  | .begin c => some { w with flights := w.flights ++ [.called c] }
  | .run i d => w.flights[i]?.bind fun f => (f.run s d w.db).map (w.settle i)
  | .drop i => some { w with flights := w.flights.eraseIdx i }
  | .issue r => if r.consumedAt = none then (w.db.insertToken r).map fun db => { w with db } else none
  | .stash r now => if r.consumedAt = none then (w.db.stash r now).map fun db => { w with db } else none
  | .identities t => some { w with db := { w.db with identities := t } }

end World

/-! ## Credentials -/

inductive Credential
  | token (id : String)
  | action (id : String)
  | session (id : String)
  deriving DecidableEq

def Spent (db : Db) : Credential → Prop
  | .token id => ∃ r ∈ db.tokens.find id, r.consumedAt.isSome
  | .action id => ∃ r ∈ db.pending.find id, r.consumedAt.isSome
  | .session id => ∃ r ∈ db.sessions.find id, r.revokedAt.isSome

def Unspent (db : Db) : Credential → Prop
  | .token id => ∃ r ∈ db.tokens.find id, r.consumedAt = none
  | .action id => ∃ r ∈ db.pending.find id, r.consumedAt = none
  | .session id => ∃ r ∈ db.sessions.find id, r.revokedAt = none

instance (db : Db) : (c : Credential) → Decidable (Unspent db c)
  | .token _ | .action _ | .session _ => inferInstanceAs (Decidable (∃ r ∈ _, _))

theorem Unspent.not_spent {db : Db} {c : Credential} (h : Unspent db c) : ¬ Spent db c := by
  intro hspent
  cases c <;>
  · obtain ⟨r, hr, hnone⟩ := h
    obtain ⟨r', hr', hsome⟩ := hspent
    rw [Option.mem_def] at hr hr'
    rw [hr, Option.some.injEq] at hr'
    simp [← hr', hnone] at hsome

/-- The row that the next write of the flight uses up. -/
def Flight.consumes : Flight → Option Credential
  | .loginMatched _ _ _ token => some (.token token.id)
  | .stepUpMatched _ _ _ token => some (.token token.id)
  | .grantMatched _ grant => some (.token grant.id)
  | .actionFound _ action => some (.action action.id)
  | .sessionDue _ sess _ _ => some (.session sess.id)
  | _ => none

/-- The row that the write inserts is new. -/
def Flight.IdFree (d : Draw) (db : Db) : Flight → Prop
  | .loginMatched .. | .sessionDue .. => db.sessions.find d.freshId = none
  | .stepUpMatched .. => db.tokens.find d.freshId = none
  | _ => True

instance (d : Draw) (db : Db) : (f : Flight) → Decidable (f.IdFree d db)
  | .loginMatched .. | .sessionDue .. => inferInstanceAs (Decidable (_ = _))
  | .stepUpMatched .. => inferInstanceAs (Decidable (_ = _))
  | .called _ | .loginAllowed _ | .loginIdentified .. | .stepUpActive .. | .grantActive .. | .grantMatched ..
  | .actionFound .. | .sessionFound .. | .sessionIdentified .. | .sessionCurrent .. | .leaving _ =>
    inferInstanceAs (Decidable True)

def Answer.spends : Answer → Option Credential
  | .session tokenId _ => some (.token tokenId)
  | .stepUpToken otpId _ _ _ => some (.token otpId)
  | .consumed grantId => grantId.map .token
  | .pendingAction view => view.map fun v => .action v.id
  | .rotated old _ => some (.session old)
  | _ => none

/-- The credentials of a kind that were used up, in order. -/
def World.spent (p : Credential → Bool) (w : World) : List Credential :=
  w.answers.filterMap fun a => a.spends.filter p

/-- A row of this kind that is used up now is found as it was read: there, and not used up. -/
def FindsUnspent (p : Credential → Bool) (w : World) : Label → Prop
  | .run i d => ∀ f ∈ w.flights[i]?, d.dbOk → f.IdFree d w.db → ∀ c ∈ f.consumes, p c → Unspent w.db c
  | _ => True

instance (p : Credential → Bool) (w : World) : (l : Label) → Decidable (FindsUnspent p w l)
  | .run .. => inferInstanceAs (Decidable (∀ f ∈ _, _ → _ → ∀ c ∈ _, _ → _))
  | .begin _ | .drop _ | .issue _ | .stash .. | .identities _ => inferInstanceAs (Decidable True)

/-! ## What a write keeps -/

def HasSession (db : Db) (id : String) : Prop := ∃ r ∈ db.sessions.find id, True

/-- What is used up stays used up, and no session goes away. -/
structure Follows (db db' : Db) : Prop where
  spent : ∀ c, Spent db c → Spent db' c
  sessions : ∀ id, HasSession db id → HasSession db' id

section Writes

variable {db db' db'' : Db} {now : Time}

theorem Follows.refl (db : Db) : Follows db db := ⟨fun _ h => h, fun _ h => h⟩

theorem Follows.trans (h : Follows db db') (h' : Follows db' db'') : Follows db db'' :=
  ⟨fun c hc => h'.spent c (h.spent c hc), fun id hid => h'.sessions id (h.sessions id hid)⟩

theorem follows_recordAttempt (email ip : Option String) (ts : Time) (stage outcome : String) :
    Follows db (db.recordAttempt email ip ts stage outcome) :=
  ⟨fun c h => by cases c <;> exact h, fun _ h => h⟩

theorem follows_logIn (id : String) (customerId : Option String) (verifiedAt : Option Time) (status : String) :
    Follows db (db.logIn id customerId verifiedAt status now) :=
  ⟨fun c h => by cases c <;> exact h, fun _ h => h⟩

theorem follows_consumeToken (id : String) : Follows db (db.consumeToken id now) := by
  refine ⟨fun c h => ?_, fun _ h => h⟩
  cases c with
  | token k => exact db.tokens.exists_find_update id _ (LoginTokenRow.consume_id now) (fun _ _ => rfl) h
  | action k => exact h
  | session k => exact h

theorem follows_consumeAction (id : String) : Follows db (db.consumeAction id now) := by
  refine ⟨fun c h => ?_, fun _ h => h⟩
  cases c with
  | token k => exact h
  | action k => exact db.pending.exists_find_update id _ (PendingActionRow.consume_id now) (fun _ _ => rfl) h
  | session k => exact h

/-- An `UPDATE` of a session that clears no mark. -/
theorem follows_sessions {id : String} {f : SessionRow → SessionRow} (hf : ∀ r, (f r).id = r.id)
    (h : ∀ r : SessionRow, r.revokedAt.isSome → (f r).revokedAt.isSome) :
    Follows db { db with sessions := db.sessions.update id f hf } := by
  refine ⟨fun c hc => ?_, fun k hk => db.sessions.exists_find_update id f hf (fun _ h => h) hk⟩
  cases c with
  | token k => exact hc
  | action k => exact hc
  | session k => exact db.sessions.exists_find_update id f hf h hc

theorem follows_revoke (id : String) : Follows db (db.revoke id now) :=
  follows_sessions (SessionRow.revoke_id now) fun _ _ => rfl

theorem follows_revokeActive (id : String) : Follows db (db.revokeActive id now) :=
  follows_sessions (SessionRow.revokeActive_id now) fun r hr => by simp [SessionRow.revokeActive]

theorem follows_see (id : String) : Follows db (db.see id now) :=
  follows_sessions (SessionRow.see_id now) fun _ hr => hr

theorem follows_insertSession {r : SessionRow} (h : db.insertSession r = some db') : Follows db db' := by
  obtain ⟨sessions, hins, rfl⟩ := Option.map_eq_some_iff.mp h
  refine ⟨fun c hc => ?_, fun k hk => Table.exists_find_insert hins hk⟩
  cases c with
  | token k => exact hc
  | action k => exact hc
  | session k => exact Table.exists_find_insert hins hc

theorem follows_insertToken {r : LoginTokenRow} (h : db.insertToken r = some db') : Follows db db' := by
  obtain ⟨tokens, hins, rfl⟩ := Option.map_eq_some_iff.mp h
  refine ⟨fun c hc => ?_, fun k hk => hk⟩
  cases c with
  | token k => exact Table.exists_find_insert hins hc
  | action k => exact hc
  | session k => exact hc

theorem follows_stash {r : PendingActionRow} (h : db.stash r now = some db') : Follows db db' := by
  obtain ⟨pending, hins, rfl⟩ := Option.map_eq_some_iff.mp h
  refine ⟨fun c hc => ?_, fun k hk => hk⟩
  cases c with
  | token k => exact hc
  | action k =>
    refine Table.exists_find_insert hins
      (db.pending.exists_find_map _ (PendingActionRow.supersede_id now r.sessionId r.actionLabel) (fun q hq => ?_) hc)
    unfold PendingActionRow.supersede
    split
    · simp
    · exact hq
  | session k => exact hc

theorem spent_consumeToken {id : String} (h : Unspent db (.token id)) : Spent (db.consumeToken id now) (.token id) :=
  db.tokens.exists_find_update_self _ (LoginTokenRow.consume_id now) (fun _ _ => rfl) h

theorem spent_consumeAction {id : String} (h : Unspent db (.action id)) :
    Spent (db.consumeAction id now) (.action id) :=
  db.pending.exists_find_update_self _ (PendingActionRow.consume_id now) (fun _ _ => rfl) h

theorem spent_revoke {id : String} (h : HasSession db id) : Spent (db.revoke id now) (.session id) :=
  db.sessions.exists_find_update_self _ (SessionRow.revoke_id now) (fun _ _ => rfl) h

theorem spent_revokeActive {id : String} (h : HasSession db id) :
    Spent (db.revokeActive id now) (.session id) :=
  db.sessions.exists_find_update_self _ (SessionRow.revokeActive_id now)
    (fun r _ => by simp [SessionRow.revokeActive]) h

end Writes

/-! ## What a step of a flight does -/

def Flight.session : Flight → Option String
  | .sessionFound _ _ r | .sessionIdentified _ _ r => some r.id
  | .sessionCurrent _ sess | .sessionDue _ sess _ _ | .leaving sess => some sess.id
  | _ => none

/-- Only the write that uses a row up answers with it, and the row is used up then. -/
structure Sound (d : Draw) (db : Db) (f : Flight) (o : Outcome) : Prop where
  follows : Follows db o.db
  spends : ∀ a ∈ o.answer, ∀ c ∈ a.spends, c ∈ f.consumes ∧ f.IdFree d db ∧ (Unspent db c → Spent o.db c)
  session : ∀ f' ∈ o.next, ∀ id ∈ f'.session, id ∈ f.session ∨ HasSession o.db id

section Sound

variable {s : Settings} {d : Draw} {db db' : Db} {f f' : Flight} {a : Answer}

theorem sound_goes (hfollows : Follows db db') (h : ∀ id ∈ f'.session, id ∈ f.session ∨ HasSession db' id) :
    Sound d db f (goes db' f') :=
  ⟨hfollows, by simp [goes], by simpa [goes] using h⟩

theorem sound_ends (hfollows : Follows db db') (h : a.spends = none) : Sound d db f (ends db' a) :=
  ⟨hfollows, by simp [ends, h], by simp [ends]⟩

/-- The last write of a call, which uses up what the call has found. -/
theorem sound_spends {c : Credential} (hfollows : Follows db db') (ha : a.spends = some c) (hc : f.consumes = some c)
    (hid : f.IdFree d db) (hspent : Unspent db c → Spent db' c) : Sound d db f (ends db' a) := by
  refine ⟨hfollows, ?_, by simp [ends]⟩
  intro a' ha' c' hc'
  cases ha'
  rw [ha] at hc'
  cases hc'
  exact ⟨hc, hid, hspent⟩

theorem sound_handle {logout : Bool} {sess : SessionView} (hfollows : Follows db db')
    (h : sess.id ∈ f.session ∨ HasSession db' sess.id) : Sound d db f (handle db' logout sess) := by
  unfold handle
  split
  · refine sound_goes hfollows fun id hid => ?_
    cases hid
    exact h
  · exact sound_ends hfollows rfl

theorem handle_db {logout : Bool} {sess : SessionView} : (handle db logout sess).db = db := by
  unfold handle
  split <;> rfl

theorem sound_fail (f : Flight) : Sound d db f (f.fail db) := by
  unfold Flight.fail
  split
  case h_1 | h_2 | h_3 | h_6 | h_7 => exact sound_ends (.refl db) rfl
  case h_4 | h_5 => exact sound_handle (.refl db) (Or.inl rfl)

theorem sound_goes_on (h : f'.session = none) : Sound d db f (goes db f') :=
  sound_goes (.refl db) fun id hid => by simp [h] at hid

theorem sound_failLogin (req : VerifyLogin) (reason : String) : Sound d db f (failLogin d db req reason) :=
  sound_ends (follows_recordAttempt ..) rfl

theorem sound_commitLogin (req : VerifyLogin) (now : Time) (ident : IdentityRow) (token : LoginTokenRow) :
    Sound d db (.loginMatched req now ident token) (commitLogin s d db req now ident token) := by
  unfold commitLogin
  dsimp only
  split
  · exact sound_ends (.refl db) rfl
  · rename_i db' hins
    have hconsumed : Follows db (db.consumeToken token.id now) := follows_consumeToken token.id
    have hlater := (follows_insertSession hins).trans (follows_recordAttempt (some req.email) req.ip d.now
      "login_verify" "success")
    refine sound_spends ((hconsumed.trans (follows_logIn ..)).trans hlater) rfl rfl ?_ fun hu => ?_
    · obtain ⟨sessions, hsessions, -⟩ := Option.map_eq_some_iff.mp hins
      exact (Table.rows_insert hsessions).2
    · exact hlater.spent _ ((follows_logIn ..).spent _ (spent_consumeToken hu))

theorem sound_commitStepUp (actionLabel : String) (now : Time) (identityId : String) (token : LoginTokenRow) :
    Sound d db (.stepUpMatched actionLabel now identityId token) (commitStepUp s d db actionLabel now identityId token) := by
  unfold commitStepUp
  split
  · exact sound_ends (.refl db) rfl
  · rename_i db' hins
    have hlater := follows_insertToken hins
    refine sound_spends ((follows_consumeToken token.id).trans hlater) rfl rfl ?_ fun hu => ?_
    · obtain ⟨tokens, htokens, -⟩ := Option.map_eq_some_iff.mp hins
      have hfree : (db.consumeToken token.id now).tokens.find d.freshId = none := (Table.rows_insert htokens).2
      rw [Db.consumeToken, Table.find_update] at hfree
      split at hfree
      · exact Option.map_eq_none_iff.mp hfree
      · exact hfree
    · exact hlater.spent _ (spent_consumeToken hu)

theorem sound_consumeGrant (now : Time) (grant : LoginTokenRow) :
    Sound d db (.grantMatched now grant) (consumeGrant db now grant) :=
  sound_spends (follows_consumeToken grant.id) rfl rfl trivial spent_consumeToken

theorem sound_takeAction (now : Time) (action : PendingActionRow) :
    Sound d db (.actionFound now action) (takeAction db now action) :=
  sound_spends (follows_consumeAction action.id) rfl rfl trivial spent_consumeAction

theorem sound_commitRotation (logout : Bool) (sess : SessionView) (now : Time) (row : SessionRow) :
    Sound d db (.sessionDue logout sess now row) (commitRotation s d db logout sess now row) := by
  unfold commitRotation
  split
  · exact sound_handle (.refl db) (Or.inl rfl)
  · rename_i db' hins
    obtain ⟨sessions, hsessions, hdb'⟩ := Option.map_eq_some_iff.mp hins
    have hrevoked : Follows db' (db'.revoke sess.id now) := follows_revoke sess.id
    have hfollows := (follows_insertSession hins).trans hrevoked
    have hnew : HasSession (db'.revoke sess.id now) (rotatedSession s d now row).id := by
      refine (follows_revoke sess.id).sessions _ ⟨rotatedSession s d now row, ?_, trivial⟩
      rw [← hdb', Table.find_insert hsessions, if_pos rfl]
      rfl
    have hnext : ∀ v : SessionView, v = sess ∨ v.id = (rotatedSession s d now row).id →
        Sound d db (.sessionDue logout sess now row) (handle (db'.revoke sess.id now) logout v) := by
      rintro v (rfl | hv)
      · exact sound_handle hfollows (Or.inl rfl)
      · exact sound_handle hfollows (Or.inr (hv ▸ hnew))
    refine ⟨by rw [handle_db]; exact hfollows, ?_, (hnext _ ?_).session⟩
    · rintro a ha c hc
      cases ha
      cases hc
      refine ⟨rfl, (Table.rows_insert hsessions).2, fun hu => ?_⟩
      rw [handle_db]
      obtain ⟨r, hr, -⟩ := hu
      exact spent_revoke ((follows_insertSession hins).sessions _ ⟨r, hr, trivial⟩)
    · split
      · exact Or.inr rfl
      · exact Or.inl rfl

theorem sound_findSession (cookie : Option String) (logout : Bool) :
    Sound d db (.called (.sessionLayer cookie logout)) (findSession d db cookie logout) := by
  unfold findSession
  split
  · exact sound_ends (.refl db) rfl
  · rename_i sess hsess
    split
    · refine sound_goes (.refl db) fun id hid => Or.inr ?_
      cases hid
      obtain ⟨k, -, hk⟩ := Option.bind_eq_some_iff.mp hsess
      exact ⟨sess, (db.sessions.find_some hk).2 ▸ hk, trivial⟩
    · exact sound_ends (.refl db) rfl

theorem sound_checkRotation (logout : Bool) (sess : SessionView) :
    Sound d db (.sessionCurrent logout sess) (checkRotation s d db logout sess) := by
  unfold checkRotation
  split
  · exact sound_handle (.refl db) (Or.inl rfl)
  · split
    · exact sound_goes (.refl db) fun id hid => Or.inl hid
    · exact sound_handle (.refl db) (Or.inl rfl)

theorem next_sound {o : Outcome} (h : f.next s d db = some o) : Sound d db f o := by
  cases f with
  | called c =>
    cases c with
    | verifyEmailLogin req =>
      cases h
      unfold enforceLoginVerify
      dsimp only
      split
      · exact sound_ends (.refl db) rfl
      · exact sound_goes_on rfl
    | verifyStepUp sessionId code actionLabel =>
      cases h
      unfold beginStepUp
      split
      · exact sound_ends (.refl db) rfl
      · exact sound_goes_on rfl
    | consumeStepUpToken sessionId token actionLabel =>
      cases h
      unfold beginConsume
      split
      · exact sound_ends (.refl db) rfl
      · exact sound_goes_on rfl
    | consumePendingAction sessionId actionLabel =>
      obtain ⟨rows, -, rfl⟩ := Option.map_eq_some_iff.mp h
      split
      · exact sound_ends (.refl db) rfl
      · exact sound_goes_on rfl
    | sessionLayer cookie logout => cases h; exact sound_findSession cookie logout
  | loginAllowed req =>
    obtain ⟨rows, -, rfl⟩ := Option.map_eq_some_iff.mp h
    split
    · exact sound_failLogin ..
    · exact sound_goes_on rfl
  | loginIdentified req now ident =>
    obtain ⟨rows, -, rfl⟩ := Option.map_eq_some_iff.mp h
    split
    · exact sound_failLogin ..
    · exact sound_goes_on rfl
  | loginMatched req now ident token => cases h; exact sound_commitLogin ..
  | stepUpActive code actionLabel now identityId =>
    obtain ⟨rows, -, rfl⟩ := Option.map_eq_some_iff.mp h
    split
    · exact sound_ends (.refl db) rfl
    · exact sound_goes_on rfl
  | stepUpMatched actionLabel now identityId token => cases h; exact sound_commitStepUp ..
  | grantActive token actionLabel now identityId =>
    obtain ⟨rows, -, rfl⟩ := Option.map_eq_some_iff.mp h
    split
    · exact sound_ends (.refl db) rfl
    · exact sound_goes_on rfl
  | grantMatched now grant => cases h; exact sound_consumeGrant now grant
  | actionFound now action => cases h; exact sound_takeAction now action
  | sessionFound logout now sess =>
    cases h
    unfold findIdentity
    split
    · exact sound_ends (.refl db) rfl
    · exact sound_goes (.refl db) fun id hid => Or.inl hid
  | sessionIdentified logout now sess =>
    cases h
    exact sound_goes (follows_see ..) fun id hid => Or.inl hid
  | sessionCurrent logout sess => cases h; exact sound_checkRotation logout sess
  | sessionDue logout sess now row => cases h; exact sound_commitRotation ..
  | leaving sess => cases h; exact sound_ends (follows_revokeActive ..) rfl

theorem run_sound {o : Outcome} (h : f.run s d db = some o) : Sound d db f o := by
  unfold Flight.run at h
  split at h
  · exact next_sound h
  · cases h
    exact sound_fail f

theorem run_dbOk {o : Outcome} (h : f.run s d db = some o) {c : Credential} (ha : a ∈ o.answer) (hc : c ∈ a.spends) :
    d.dbOk := by
  unfold Flight.run at h
  split at h
  · assumption
  · cases h
    have hnone : a.spends = none := by
      unfold Flight.fail handle at ha
      split at ha
      case h_1 | h_2 | h_3 | h_6 | h_7 => cases ha; rfl
      case h_4 | h_5 =>
        split at ha
        · cases ha
        · cases ha; rfl
    rw [hnone] at hc
    cases hc

end Sound

/-! ## Steps of the world -/

/-- What a step of the world is. -/
inductive Stepped (s : Settings) (w : World) : Label → World → Prop
  | began (c : Call) : Stepped s w (.begin c) { w with flights := w.flights ++ [.called c] }
  | ran {i : ℕ} {d : Draw} {f : Flight} {o : Outcome} (hf : w.flights[i]? = some f) (hrun : f.run s d w.db = some o) :
    Stepped s w (.run i d) (w.settle i o)
  | dropped (i : ℕ) : Stepped s w (.drop i) { w with flights := w.flights.eraseIdx i }
  | wrote {l : Label} {db : Db} (hdb : Follows w.db db) : Stepped s w l { w with db }

section World

variable {s : Settings} {w w' : World} {l : Label}

theorem step_eq_some (h : World.step s w l = some w') : Stepped s w l w' := by
  cases l with
  | begin c =>
    cases h
    exact .began c
  | run i d =>
    obtain ⟨f, hf, h⟩ := Option.bind_eq_some_iff.mp h
    obtain ⟨o, ho, rfl⟩ := Option.map_eq_some_iff.mp h
    exact .ran hf ho
  | drop i =>
    cases h
    exact .dropped i
  | issue r =>
    obtain ⟨-, h⟩ := Option.ite_none_right_eq_some.mp h
    obtain ⟨db, hdb, rfl⟩ := Option.map_eq_some_iff.mp h
    exact .wrote (follows_insertToken hdb)
  | stash r now =>
    obtain ⟨-, h⟩ := Option.ite_none_right_eq_some.mp h
    obtain ⟨db, hdb, rfl⟩ := Option.map_eq_some_iff.mp h
    exact .wrote (follows_stash hdb)
  | identities t =>
    cases h
    exact .wrote ⟨fun c hc => by cases c <;> exact hc, fun _ h => h⟩

theorem Stepped.follows (h : Stepped s w l w') : Follows w.db w'.db := by
  cases h with
  | began c => exact .refl _
  | ran hf hrun => exact (run_sound hrun).follows
  | dropped i => exact .refl _
  | wrote hdb => exact hdb

/-- What is used up in a step was unspent, if the step meets the condition. -/
theorem Stepped.spent (h : Stepped s w l w') (p : Credential → Bool) (hc : FindsUnspent p w l) :
    ∃ new : List Credential, w'.spent p = w.spent p ++ new ∧ new.Nodup ∧ ∀ c ∈ new, Unspent w.db c ∧ Spent w'.db c := by
  cases h with
  | @ran i d f o hf hrun =>
    refine ⟨o.answer.toList.filterMap fun a => a.spends.filter p, ?_, ?_, ?_⟩
    · simp [World.spent, World.settle, List.filterMap_append]
    · cases o.answer with
      | none => simp
      | some a => cases ha : a.spends.filter p <;> simp [ha]
    · intro c hmem
      obtain ⟨a, ha, hac⟩ := List.mem_filterMap.mp hmem
      have ha' : a ∈ o.answer := by simpa using ha
      obtain ⟨hspends, hp⟩ := Option.filter_eq_some_iff.mp hac
      obtain ⟨hconsumes, hfree, hspent⟩ := (run_sound hrun).spends a ha' c hspends
      have hunspent := hc f hf (run_dbOk hrun ha' hspends) hfree c hconsumes hp
      exact ⟨hunspent, hspent hunspent⟩
  | _ => exact ⟨[], by simp [World.spent], by simp, by simp⟩

/-- What the flights go on with is in the table. -/
def World.KnowsSessions (w : World) : Prop := ∀ f ∈ w.flights, ∀ id ∈ f.session, HasSession w.db id

theorem Stepped.knowsSessions (h : Stepped s w l w') (hi : w.KnowsSessions) : w'.KnowsSessions := by
  have hold : ∀ f ∈ w.flights, ∀ id ∈ f.session, HasSession w'.db id :=
    fun f hf id hid => h.follows.sessions id (hi f hf id hid)
  cases h with
  | began c => exact Pool.forall_concat hi (by simp [Flight.session])
  | @ran i d f o hf hrun =>
    unfold World.KnowsSessions World.settle
    dsimp only
    split
    · rename_i f' hnext
      refine Pool.forall_set hold fun id hid => ?_
      rcases (run_sound hrun).session f' hnext id hid with hmem | hnew
      · exact hold f (Pool.mem_of_getElem? hf) id hmem
      · exact hnew
    · exact Pool.forall_eraseIdx hold
  | dropped i => exact Pool.forall_eraseIdx hi
  | wrote hdb => exact hold

/-- In a run whose steps meet the condition, each credential of the kind is used up once. -/
theorem run_spent {p : Credential → Bool} {ls : List Label}
    (h : exec (guarded (FindsUnspent p) (World.step s)) w ls = some w') (hi : Spend.Inv (Spent w.db) (w.spent p)) :
    Spend.Inv (Spent w'.db) (w'.spent p) := by
  refine guarded_inv (P := fun w => Spend.Inv (Spent w.db) (w.spent p)) ?_ hi h
  intro w l w' hi hc hstep
  have hs := step_eq_some hstep
  obtain ⟨new, hnew, hnodup, hspent⟩ := hs.spent p hc
  rw [hnew]
  exact hi.append hs.follows.spent hnodup fun c hmem => ⟨(hspent c hmem).1.not_spent, (hspent c hmem).2⟩

end World

/-! ## A sample -/

def sampleSettings : Settings where
  hashToken t := "pepper:" ++ t
  stepupGrantTtlS := 60
  sessionTtlS := 86400
  verifyPerEmailMax := 10
  verifyPerEmailWindowS := 900

def sampleToken (id : String) (kind : TokenKind) (actionLabel : Option String) : LoginTokenRow :=
  ⟨id, "IDN-1", kind, "pepper:424242", actionLabel, 0, seconds 900, none⟩

/-- An identity with a session, a code of each kind and a stashed action. -/
def sampleDb : Db where
  identities := .singleton ⟨"IDN-1", "ada@x", none, none, "unverified", none⟩
  sessions := .singleton ⟨"SES-1", "IDN-1", 0, seconds 86400, 0, none, none, none, "DEFAULT"⟩
  tokens := ⟨[sampleToken "LTK-1" .otp none, sampleToken "LTK-2" .stepUp (some "vas_purchase"),
    sampleToken "LTK-3" .stepUpGrant (some "vas_purchase")], by decide⟩
  pending := .singleton ⟨"SUP-1", "SES-1", "vas_purchase", "/top-up", [("vas", "VAS-1")], seconds 600, none⟩
  attempts := []

def sampleDraw (now : ℤ) (order : List String) (freshId : String) : Draw :=
  ⟨seconds now, true, true, order, none, freshId, "secret"⟩

end BssCli.PortalAuth

/-!
# One-shot credentials

An OTP, a magic link, a step-up grant and a stashed action are good for one use. Each is read
as unconsumed in one statement and marked in another, which does not look at the mark. So two
calls that have both read it both use it.
-/

namespace BssCli.PortalAuth

open Steps

/-- The credentials that are consumed. A session is not. -/
def consumable : Credential → Bool
  | .token _ | .action _ => true
  | .session _ => false

def Answer.mintsSession (tokenId : String) : Answer → Bool
  | .session t _ => t = tokenId
  | _ => false

def Answer.mintsGrant (otpId : String) : Answer → Bool
  | .stepUpToken t _ _ _ => t = otpId
  | _ => false

/-- The grant lets a sensitive write through. -/
def Answer.passes (grantId : String) : Answer → Bool
  | .consumed g => g = some grantId
  | _ => false

def Answer.handsOut (actionId : String) : Answer → Bool
  | .pendingAction v => v.map PendingActionView.id = some actionId
  | _ => false

structure OneShot (answers : List Answer) : Prop where
  login : ∀ tokenId, answers.countP (·.mintsSession tokenId) ≤ 1
  stepUp : ∀ otpId, answers.countP (·.mintsGrant otpId) ≤ 1
  grant : ∀ grantId, answers.countP (·.passes grantId) ≤ 1
  action : ∀ actionId, answers.countP (·.handsOut actionId) ≤ 1

theorem oneShot_of_nodup {answers : List Answer}
    (h : (answers.filterMap fun a => a.spends.filter consumable).Nodup) : OneShot answers := by
  refine ⟨fun id => Spend.countP_le_one h (k := .token id) ?_, fun id => Spend.countP_le_one h (k := .token id) ?_,
    fun id => Spend.countP_le_one h (k := .token id) ?_, fun id => Spend.countP_le_one h (k := .action id) ?_⟩
  · intro a ha
    cases a <;> simp_all [Answer.mintsSession, Answer.spends, consumable]
  · intro a ha
    cases a <;> simp_all [Answer.mintsGrant, Answer.spends, consumable]
  · intro a ha
    cases a <;> simp_all [Answer.passes, Answer.spends, consumable]
  · intro a ha
    cases a <;> simp_all [Answer.handsOut, Answer.spends, consumable]

def sampleLogin : Call := .verifyEmailLogin ⟨"ada@x", "424242", none, none⟩

/-- Two calls that have both read before either writes. -/
def bothRead (c : Call) (reads : List Draw) (first second : Draw) : List Label :=
  (.begin c :: reads.map (.run 0)) ++ (.begin c :: reads.map (.run 1)) ++ [.run 0 first, .run 0 second]

end BssCli.PortalAuth
