import BssCli.Lib.Pool
import BssCli.Lib.Steps
import BssCli.PortalAuth.EmailChange
import BssCli.PortalAuth.World

/-!
# Login and CRM agree on the email

Any number of changes side by side, with no other writer. A verify that writes late writes over
whatever has become of its pending row.
-/

namespace BssCli.PortalAuth

open Steps

structure ChangeWorld where
  db : AccountDb
  flights : List ChangeFlight
  answers : List ChangeAnswer
  closings : List Closing

inductive ChangeLabel
  | begin (c : ChangeCall)
  | run (i : ℕ) (d : Draw)
  /-- The request is given up. -/
  | drop (i : ℕ)

namespace ChangeWorld

def initial (db : AccountDb) : ChangeWorld := ⟨db, [], [], []⟩

def settle (w : ChangeWorld) (i : ℕ) (o : ChangeOutcome) : ChangeWorld where
  db := o.db
  flights := match o.next with
    | some f => w.flights.set i f
    | none => w.flights.eraseIdx i
  answers := w.answers ++ o.answer.toList
  closings := w.closings ++ o.closed

def step (s : ChangeSettings) (w : ChangeWorld) : ChangeLabel → Option ChangeWorld
  | .begin c => some { w with flights := w.flights ++ [.called c] }
  | .run i d => w.flights[i]?.bind fun f => (f.run s d w.db).map (w.settle i)
  | .drop i => some { w with flights := w.flights.eraseIdx i }

end ChangeWorld

namespace AccountDb

variable (db : AccountDb)

def customerOf (identityId : String) : Option String := (db.portal.identities.find identityId).bind IdentityRow.customerId

def partyOf (identityId : String) : Option String :=
  ((db.customerOf identityId).bind db.customers.find).map CustomerRow.partyId

/-- The email of the identity is the active email medium of its customer. -/
def Agrees (identityId : String) : Prop :=
  ∃ r ∈ db.portal.identities.find identityId, ∃ p ∈ db.partyOf identityId,
    (db.activeEmails p).map ContactMediumRow.value = [r.email]

instance (identityId : String) : Decidable (db.Agrees identityId) := inferInstanceAs (Decidable (∃ r ∈ _, ∃ p ∈ _, _))

def IsPending (changeId : String) : Prop := ∃ r ∈ db.changes.find changeId, r.status = .pending

instance (changeId : String) : Decidable (db.IsPending changeId) := inferInstanceAs (Decidable (∃ r ∈ _, _))

/-- The party of the identity has no other identity, and no deleted identity is in the way. -/
def HasOwnParty (identityId newEmail : String) : Prop :=
  ∀ r ∈ db.portal.identities.rows,
    (r.id ≠ identityId → (db.partyOf r.id).isSome → db.partyOf r.id ≠ db.partyOf identityId) ∧
    (r.status = "deleted" → r.id ≠ identityId ∧ r.email ≠ newEmail)

instance (identityId newEmail : String) : Decidable (db.HasOwnParty identityId newEmail) :=
  inferInstanceAs (Decidable (∀ r ∈ _, _))

/-- Each customer has one active email, and addresses are not shared. -/
structure Starts : Prop where
  oneEmail : ∀ c ∈ db.customers.rows, (db.activeEmails c.partyId).length = 1
  media : db.UniqueMedia
  identities : (db.portal.identities.rows.map IdentityRow.email).Nodup

end AccountDb

/-- A pending row is still pending when it is written to. Where it is applied, it has not run
out, and the identity has its party for itself. -/
def ChangeFlight.WritesPending (db : AccountDb) (d : Draw) : ChangeFlight → Prop
  | .pendingExpired change => db.IsPending change.id
  | .mediumFound identityId _ change _ =>
    db.IsPending change.id ∧ d.now < change.expiresAt ∧ db.HasOwnParty identityId change.newEmail
  | _ => True

instance (db : AccountDb) (d : Draw) : (f : ChangeFlight) → Decidable (f.WritesPending db d)
  | .pendingExpired _ => inferInstanceAs (Decidable (AccountDb.IsPending ..))
  | .mediumFound .. => inferInstanceAs (Decidable (_ ∧ _))
  | .called _ | .emailFree .. | .codeRight .. | .customerFound .. | .partyFound .. => inferInstanceAs (Decidable True)

def ChangeWorld.WritesPending (w : ChangeWorld) : ChangeLabel → Prop
  | .run i d => ∀ f ∈ w.flights[i]?, f.WritesPending w.db d
  | _ => True

instance (w : ChangeWorld) : (l : ChangeLabel) → Decidable (w.WritesPending l)
  | .run .. => inferInstanceAs (Decidable (∀ f ∈ _, _))
  | .begin _ | .drop _ => inferInstanceAs (Decidable True)

/-! ## The law -/

def Closing.Applies (c : Closing) : Prop := c.how = .consumed

instance (c : Closing) : Decidable c.Applies := inferInstanceAs (Decidable (_ = _))

/-- A change that has ended is not applied after that. -/
structure EmailsAgree (w : ChangeWorld) : Prop where
  agrees : ∀ c ∈ w.closings, c.Applies → w.db.Agrees c.identityId
  identities : ∀ r ∈ w.db.portal.identities.rows, ∀ r' ∈ w.db.portal.identities.rows, r.email = r'.email → r = r'
  media : ∀ m ∈ w.db.media.rows, ∀ m' ∈ w.db.media.rows, m.ActiveEmail → m'.ActiveEmail → m.value = m'.value → m = m'
  neverAgain : w.closings.Pairwise fun a b => b.Applies → a.changeId ≠ b.changeId
  inTime : ∀ c ∈ w.closings, c.Applies → c.time < c.expiresAt

/-- Nothing is written, except that the pending row of the call is marked as expired. -/
structure OnlyExpires (f : ChangeFlight) (db db' : AccountDb) : Prop where
  portal : db'.portal = db.portal
  customers : db'.customers = db.customers
  media : db'.media = db.media
  changes : ∀ id, db'.changes.find id = db.changes.find id ∨
    ∃ change, f = .pendingExpired change ∧ id = change.id ∧ db.IsPending id ∧
      db'.changes.find id = (db.changes.find id).map EmailChangePendingRow.expire

def FailsQuietly (s : ChangeSettings) (w : ChangeWorld) : Prop :=
  ∀ i d f w' reason, w.flights[i]? = some f → guarded ChangeWorld.WritesPending (ChangeWorld.step s) w (.run i d) = some w' →
    w'.answers = w.answers ++ [.failed reason] → OnlyExpires f w.db w'.db

/-! ## What each write keeps -/

def AccountDb.Ended (db : AccountDb) (changeId : String) : Prop := ∃ r ∈ db.changes.find changeId, r.status ≠ .pending

section Ended

variable {db db' : AccountDb} {id : String}

theorem AccountDb.IsPending.not_ended (h : db.IsPending id) : ¬ db.Ended id := by
  rintro ⟨r, hr, hne⟩
  obtain ⟨r', hr', hpending⟩ := h
  rw [Option.mem_def] at hr hr'
  rw [hr, Option.some.injEq] at hr'
  exact hne (hr' ▸ hpending)

theorem ended_cancelPending (identityId : String) (h : db.Ended id) : (db.cancelPending identityId).Ended id := by
  refine db.changes.exists_find_map _ (EmailChangePendingRow.cancel_id identityId) (fun r hr => ?_) h
  unfold EmailChangePendingRow.cancel
  split
  · simp
  · exact hr

theorem ended_of_cancelled {identityId : String} {r : EmailChangePendingRow} (h : r ∈ db.pendingChanges identityId) :
    (db.cancelPending identityId).Ended r.id := by
  obtain ⟨hr, hcond⟩ := List.mem_filter.mp h
  simp only [decide_eq_true_eq] at hcond
  refine ⟨r.cancel identityId, ?_, ?_⟩
  · rw [Option.mem_def, AccountDb.cancelPending, Table.find_map, db.changes.find_of_mem hr]
    rfl
  · simp [EmailChangePendingRow.cancel, hcond]

theorem startChange_eq_some {r : EmailChangePendingRow} (h : db.startChange r = some db') :
    ∃ changes, (db.cancelPending r.identityId).changes.insert r = some changes ∧ db' = { db with changes } := by
  obtain ⟨changes, hins, h⟩ := Option.bind_eq_some_iff.mp h
  obtain ⟨-, h⟩ := Option.ite_none_right_eq_some.mp h
  exact ⟨changes, hins, (Option.some.inj h).symm⟩

theorem ended_startChange {r : EmailChangePendingRow} (h : db.startChange r = some db')
    (hid : (db.cancelPending r.identityId).Ended id) : db'.Ended id := by
  obtain ⟨changes, hins, rfl⟩ := startChange_eq_some h
  exact Table.exists_find_insert hins hid

theorem ended_expireChange (changeId : String) (h : db.Ended id) : (db.expireChange changeId).Ended id :=
  db.changes.exists_find_update changeId _ EmailChangePendingRow.expire_id (fun r _ => by
    simp [EmailChangePendingRow.expire]) h

theorem ended_of_expired (h : db.IsPending id) : (db.expireChange id).Ended id :=
  db.changes.exists_find_update_self _ EmailChangePendingRow.expire_id (fun r _ => by
    simp [EmailChangePendingRow.expire]) h

theorem ended_applied (identityId mediumId changeId newEmail : String) (now : Time) (h : db.Ended id) :
    (db.applied identityId mediumId changeId newEmail now).Ended id :=
  db.changes.exists_find_update changeId _ (EmailChangePendingRow.consume_id now) (fun r _ => by
    simp [EmailChangePendingRow.consume]) h

theorem ended_of_applied (identityId mediumId newEmail : String) (now : Time) (h : db.IsPending id) :
    (db.applied identityId mediumId id newEmail now).Ended id :=
  db.changes.exists_find_update_self _ (EmailChangePendingRow.consume_id now) (fun r _ => by
    simp [EmailChangePendingRow.consume]) h

end Ended

section Applied

variable {db : AccountDb} {identityId mediumId changeId newEmail : String} {now : Time}

theorem identities_applied (id : String) :
    (db.applied identityId mediumId changeId newEmail now).portal.identities.find id =
      if id = identityId then (db.portal.identities.find id).map (·.setEmail newEmail)
      else db.portal.identities.find id :=
  db.portal.identities.find_update identityId id _ (IdentityRow.setEmail_id newEmail)

theorem customerOf_applied (id : String) :
    (db.applied identityId mediumId changeId newEmail now).customerOf id = db.customerOf id := by
  rw [AccountDb.customerOf, identities_applied, AccountDb.customerOf]
  split
  · cases db.portal.identities.find id <;> rfl
  · rfl

theorem partyOf_applied (id : String) :
    (db.applied identityId mediumId changeId newEmail now).partyOf id = db.partyOf id := by
  rw [AccountDb.partyOf, customerOf_applied]
  rfl

theorem activeEmails_applied (p : String) :
    (db.applied identityId mediumId changeId newEmail now).activeEmails p =
      (db.activeEmails p).map fun m => if m.id = mediumId then m.setValue newEmail else m := by
  change List.filter _ (db.media.rows.map _) = _
  rw [List.filter_map, AccountDb.activeEmails]
  congr 1
  refine List.filter_congr fun m _ => ?_
  simp only [Function.comp_apply]
  split <;> rfl

theorem party_of_mem {p q : String} {m : ContactMediumRow} (hp : mediumId ∈ (db.activeEmails p).map ContactMediumRow.id)
    (hq : m ∈ db.activeEmails q) (hm : m.id = mediumId) : q = p := by
  obtain ⟨m', hm', hid⟩ := List.mem_map.mp hp
  obtain ⟨hrow', hcond'⟩ := List.mem_filter.mp hm'
  obtain ⟨hrow, hcond⟩ := List.mem_filter.mp hq
  have heq : m = m' := List.inj_on_of_nodup_map db.media.key_nodup hrow hrow' (hm.trans hid.symm)
  simp only [decide_eq_true_eq] at hcond hcond'
  rw [← hcond.1, ← hcond'.1, heq]

theorem agrees_applied_self {p : String} (hp : db.partyOf identityId = some p) (hlen : (db.activeEmails p).length = 1)
    (hm : mediumId ∈ (db.activeEmails p).map ContactMediumRow.id) :
    (db.applied identityId mediumId changeId newEmail now).Agrees identityId := by
  obtain ⟨m, hone⟩ := List.length_eq_one_iff.mp hlen
  have hid : m.id = mediumId := by simpa [hone, eq_comm] using hm
  have hidentity : ∃ r, db.portal.identities.find identityId = some r := by
    cases hr : db.portal.identities.find identityId with
    | none => simp [AccountDb.partyOf, AccountDb.customerOf, hr] at hp
    | some r => exact ⟨r, rfl⟩
  obtain ⟨r, hr⟩ := hidentity
  refine ⟨r.setEmail newEmail, ?_, p, ?_, ?_⟩
  · rw [identities_applied, if_pos rfl, hr]
    rfl
  · rw [Option.mem_def, partyOf_applied, hp]
  · rw [activeEmails_applied, hone]
    simp [hid, ContactMediumRow.setValue, IdentityRow.setEmail]

theorem agrees_applied_other {id p : String} (h : db.Agrees id) (hne : id ≠ identityId) (hparty : db.partyOf id ≠ some p)
    (hm : mediumId ∈ (db.activeEmails p).map ContactMediumRow.id) :
    (db.applied identityId mediumId changeId newEmail now).Agrees id := by
  obtain ⟨r, hr, q, hq, hvalue⟩ := h
  refine ⟨r, ?_, q, ?_, ?_⟩
  · rw [identities_applied, if_neg hne]
    exact hr
  · rw [partyOf_applied]
    exact hq
  · have hsame : ∀ m ∈ db.activeEmails q, (if m.id = mediumId then m.setValue newEmail else m) = m :=
      fun m hmem => if_neg fun hid => hparty (party_of_mem hm hmem hid ▸ hq)
    rw [activeEmails_applied, List.map_congr_left hsame, List.map_id']
    exact hvalue

/-- The index leaves deleted identities out, and there are none in the way. -/
theorem identities_nodup_applied (h : (db.portal.identities.rows.map IdentityRow.email).Nodup)
    (hown : db.HasOwnParty identityId newEmail)
    (hunique : (db.applied identityId mediumId changeId newEmail now).UniqueIdentities) :
    ((db.applied identityId mediumId changeId newEmail now).portal.identities.rows.map IdentityRow.email).Nodup := by
  let write : IdentityRow → IdentityRow := fun r => if r.id = identityId then r.setEmail newEmail else r
  have hkeys : (db.portal.identities.rows.map write).Nodup :=
    List.Nodup.of_map _ (db.applied identityId mediumId changeId newEmail now).portal.identities.key_nodup
  have hunique : (((db.portal.identities.rows.map write).filter fun r => r.status ≠ "deleted").map IdentityRow.email).Nodup :=
    hunique
  change ((db.portal.identities.rows.map write).map IdentityRow.email).Nodup
  refine hkeys.map_on fun r hr r' hr' heq => ?_
  obtain ⟨o, ho, rfl⟩ := List.mem_map.mp hr
  obtain ⟨o', ho', rfl⟩ := List.mem_map.mp hr'
  by_cases hid : o.id = identityId ∨ o'.id = identityId
  · -- one of the two has the new address, so the other has it too, and the index knows both
    have hnew : ∀ x : IdentityRow, x.id = identityId → (write x).email = newEmail := fun x hx => by
      simp [write, hx, IdentityRow.setEmail]
    have hlive : ∀ x ∈ db.portal.identities.rows, (write x).email = newEmail →
        write x ∈ (db.portal.identities.rows.map write).filter fun r => r.status ≠ "deleted" := by
      intro x hx hemail
      refine List.mem_filter.mpr ⟨List.mem_map_of_mem hx, ?_⟩
      have hstatus : x.status ≠ "deleted" := by
        intro hdeleted
        obtain ⟨hne, hfree⟩ := (hown x hx).2 hdeleted
        simp only [write, if_neg hne] at hemail
        exact hfree hemail
      simp only [write]
      split <;> exact decide_eq_true hstatus
    have hboth : (write o).email = newEmail := by
      rcases hid with hid | hid
      · exact hnew o hid
      · exact heq.trans (hnew o' hid)
    exact List.inj_on_of_nodup_map hunique (hlive o ho hboth) (hlive o' ho' (heq ▸ hboth)) heq
  · obtain ⟨hne, hne'⟩ := not_or.mp hid
    simp only [write, if_neg hne, if_neg hne'] at heq ⊢
    exact List.inj_on_of_nodup_map h ho ho' heq

end Applied

/-! ## What a step does -/

/-- What a flight has read of its account is so. -/
def ChangeFlight.Resolves (db : AccountDb) : ChangeFlight → Prop
  | .customerFound identityId _ _ customerId => db.customerOf identityId = some customerId
  | .partyFound identityId _ _ partyId => db.partyOf identityId = some partyId
  | .mediumFound identityId _ _ mediumId =>
    ∃ p, db.partyOf identityId = some p ∧ mediumId ∈ (db.activeEmails p).map ContactMediumRow.id
  | _ => True

/-- The five things that a step can do. Only the last two end a row that the step before read. -/
inductive ChangeRan (db : AccountDb) (d : Draw) : ChangeFlight → ChangeOutcome → Prop
  | read {f : ChangeFlight} {o : ChangeOutcome} (hdb : o.db = db) (hclosed : o.closed = [])
      (hnext : ∀ f' ∈ o.next, f.Resolves db → f'.Resolves db) : ChangeRan db d f o
  | cancelled {f : ChangeFlight} (identityId : String) (a : ChangeAnswer) (ha : ∀ reason, a ≠ .failed reason) :
      ChangeRan db d f ⟨db.cancelPending identityId, none, some a, (db.pendingChanges identityId).map (·.close .cancelled d.now)⟩
  | started {f : ChangeFlight} {r : EmailChangePendingRow} {db' : AccountDb} (a : ChangeAnswer)
      (ha : ∀ reason, a ≠ .failed reason) (hdb : db.startChange r = some db') :
      ChangeRan db d f ⟨db', none, some a, (db.pendingChanges r.identityId).map (·.close .cancelled d.now)⟩
  | expired (change : EmailChangePendingRow) (a : ChangeAnswer) :
      ChangeRan db d (.pendingExpired change) ⟨db.expireChange change.id, none, some a, [change.close .expired d.now]⟩
  | applied {identityId mediumId : String} {now : Time} {change : EmailChangePendingRow} (a : ChangeAnswer)
      (ha : ∀ reason, a ≠ .failed reason)
      (hmedia : (db.applied identityId mediumId change.id change.newEmail now).UniqueMedia)
      (hidentities : (db.applied identityId mediumId change.id change.newEmail now).UniqueIdentities) :
      ChangeRan db d (.mediumFound identityId now change mediumId)
        ⟨db.applied identityId mediumId change.id change.newEmail now, none, some a,
          [{ change.close .consumed d.now with identityId }]⟩

section Ran

variable {s : ChangeSettings} {d : Draw} {db : AccountDb} {f f' : ChangeFlight} {o : ChangeOutcome}

theorem ran_fails (reason : String) : ChangeRan db d f (changeFails db reason) :=
  .read rfl rfl (by simp [changeFails])

theorem ran_goes (h : f.Resolves db → f'.Resolves db) : ChangeRan db d f (changeGoes db f') :=
  .read rfl rfl (by simpa [changeGoes] using h)

theorem heard_ne_failed {a : ChangeAnswer} (ha : ∀ reason, a ≠ .failed reason) (reason : String) :
    (if d.heard then a else .dbError) ≠ .failed reason := by
  split
  · exact ha reason
  · simp

theorem ran_findMedium {identityId partyId : String} {now : Time} {change : EmailChangePendingRow}
    (h : findMedium d db identityId now change partyId = some o) :
    ChangeRan db d (.partyFound identityId now change partyId) o := by
  obtain ⟨rows, hrows, rfl⟩ := Option.map_eq_some_iff.mp h
  split
  · exact ran_fails _
  · rename_i medium hmedium
    refine ran_goes fun hparty => ⟨partyId, hparty, List.mem_map_of_mem ?_⟩
    exact (perm_of_inOrder hrows).mem_iff.mp (List.mem_of_head? hmedium)

theorem next_ran (h : f.next s d db = some o) : ChangeRan db d f o := by
  cases f with
  | called c =>
    cases c with
    | start identityId newEmail =>
      cases h
      unfold checkFree
      dsimp only
      split
      · exact ran_fails _
      · exact ran_goes fun _ => trivial
    | verify identityId code =>
      cases h
      unfold readPending
      split
      · exact ran_fails _
      · split
        · exact ran_goes fun _ => trivial
        · split
          · exact ran_goes fun _ => trivial
          · exact ran_fails _
    | cancel identityId =>
      cases h
      exact .cancelled identityId _ (heard_ne_failed (by simp))
  | emailFree identityId newEmail =>
    cases h
    unfold commitStart
    split
    · exact .read rfl rfl (by simp)
    · rename_i db' hdb
      exact .started _ (heard_ne_failed (by simp)) hdb
  | pendingExpired change =>
    cases h
    exact .expired change _
  | codeRight identityId now change =>
    cases h
    unfold findCustomer
    split
    · exact ran_fails _
    · rename_i customerId hcustomer
      exact ran_goes fun _ => hcustomer
  | customerFound identityId now change customerId =>
    cases h
    unfold findParty
    split
    · exact ran_fails _
    · rename_i customer hfound
      refine ran_goes fun hcustomer => ?_
      have hcustomer : db.customerOf identityId = some customerId := hcustomer
      simp [ChangeFlight.Resolves, AccountDb.partyOf, hcustomer, hfound]
  | partyFound identityId now change partyId => exact ran_findMedium h
  | mediumFound identityId now change mediumId =>
    cases h
    unfold commitChange
    split
    · exact .read rfl rfl (by simp)
    · rename_i db' happly
      obtain ⟨⟨hmedia, hidentities⟩, hdb⟩ := Option.ite_none_right_eq_some.mp happly
      cases hdb
      exact .applied _ (heard_ne_failed (by simp)) hmedia hidentities

theorem change_ran (h : f.run s d db = some o) : ChangeRan db d f o := by
  unfold ChangeFlight.run at h
  split at h
  · exact next_ran h
  · cases h
    exact .read rfl rfl (by simp)

/-! ## Histories -/

/-- Each change that has ended is known as ended, and it was not applied after that. -/
structure History (db : AccountDb) (closings : List Closing) : Prop where
  ended : ∀ c ∈ closings, db.Ended c.changeId
  neverAgain : closings.Pairwise fun a b => b.Applies → a.changeId ≠ b.changeId
  inTime : ∀ c ∈ closings, c.Applies → c.time < c.expiresAt

theorem History.append {db db' : AccountDb} {closings new : List Closing} (hi : History db closings)
    (hkeep : ∀ id, db.Ended id → db'.Ended id) (hended : ∀ c ∈ new, db'.Ended c.changeId)
    (hpending : ∀ c ∈ new, c.Applies → db.IsPending c.changeId ∧ c.time < c.expiresAt)
    (hnew : new.Pairwise fun a b => b.Applies → a.changeId ≠ b.changeId) : History db' (closings ++ new) := by
  refine ⟨?_, ?_, ?_⟩
  · intro c hc
    rcases List.mem_append.mp hc with hc | hc
    · exact hkeep _ (hi.ended c hc)
    · exact hended c hc
  · refine List.pairwise_append.mpr ⟨hi.neverAgain, hnew, fun a ha b hb happlies heq => ?_⟩
    exact (hpending b hb happlies).1.not_ended (heq ▸ hi.ended a ha)
  · intro c hc happlies
    rcases List.mem_append.mp hc with hc | hc
    · exact hi.inTime c hc happlies
    · exact (hpending c hc happlies).2

theorem cancelled_not_applies (identityId : String) (time : Time) {c : Closing}
    (h : c ∈ (db.pendingChanges identityId).map (·.close .cancelled time)) : ¬ c.Applies := by
  obtain ⟨r, -, rfl⟩ := List.mem_map.mp h
  simp [EmailChangePendingRow.close, Closing.Applies]

theorem History.cancel {closings : List Closing} {db' : AccountDb} (hi : History db closings) {identityId : String}
    {time : Time} (hkeep : ∀ id, (db.cancelPending identityId).Ended id → db'.Ended id) :
    History db' (closings ++ (db.pendingChanges identityId).map (·.close .cancelled time)) := by
  refine hi.append (fun id h => hkeep id (ended_cancelPending identityId h)) (fun c hc => ?_)
    (fun c hc happlies => absurd happlies (cancelled_not_applies identityId time hc)) ?_
  · obtain ⟨r, hr, rfl⟩ := List.mem_map.mp hc
    exact hkeep _ (ended_of_cancelled hr)
  · rw [List.pairwise_map]
    exact List.pairwise_of_forall fun a b happlies => by simp [EmailChangePendingRow.close, Closing.Applies] at happlies

theorem ChangeRan.history (h : ChangeRan db d f o) (hc : f.WritesPending db d) {closings : List Closing}
    (hi : History db closings) : History o.db (closings ++ o.closed) := by
  cases h with
  | read hdb hclosed =>
    rw [hdb, hclosed, List.append_nil]
    exact hi
  | cancelled identityId a ha => exact hi.cancel fun _ h => h
  | started a ha hdb => exact hi.cancel fun _ h => ended_startChange hdb h
  | expired change a =>
    have hpending : db.IsPending change.id := hc
    refine hi.append (fun id h => ended_expireChange change.id h) ?_ ?_ (List.pairwise_singleton ..)
    · intro c hmem
      rw [List.mem_singleton.mp hmem]
      exact ended_of_expired hpending
    · intro c hmem happlies
      rw [List.mem_singleton.mp hmem] at happlies
      simp [EmailChangePendingRow.close, Closing.Applies] at happlies
  | @applied identityId mediumId now change a ha hmedia hidentities =>
    obtain ⟨hpending, htime, -⟩ : db.IsPending change.id ∧ d.now < change.expiresAt ∧ _ := hc
    refine hi.append (fun id h => ended_applied _ _ _ _ _ h) ?_ ?_ (List.pairwise_singleton ..)
    · intro c hmem
      rw [List.mem_singleton.mp hmem]
      exact ended_of_applied _ _ _ _ hpending
    · intro c hmem happlies
      rw [List.mem_singleton.mp hmem]
      exact ⟨hpending, htime⟩

/-! ## Accounts -/

structure Accounts (db : AccountDb) (closings : List Closing) : Prop where
  starts : db.Starts
  agrees : ∀ c ∈ closings, c.Applies → db.Agrees c.identityId

theorem Accounts.of_same {db' : AccountDb} {closings new : List Closing} (hi : Accounts db closings)
    (hportal : db'.portal = db.portal) (hcustomers : db'.customers = db.customers) (hmedia : db'.media = db.media)
    (hnew : ∀ c ∈ new, ¬ c.Applies) : Accounts db' (closings ++ new) := by
  have hdb : db' = { db with changes := db'.changes } := by
    cases db
    cases db'
    simp_all
  rw [hdb]
  refine ⟨⟨hi.starts.oneEmail, hi.starts.media, hi.starts.identities⟩, fun c hc happlies => ?_⟩
  rcases List.mem_append.mp hc with hc | hc
  · exact hi.agrees c hc happlies
  · exact absurd happlies (hnew c hc)

theorem partyOf_customer {id p : String} (h : db.partyOf id = some p) : ∃ c ∈ db.customers.rows, c.partyId = p := by
  obtain ⟨c, hc, hp⟩ := Option.map_eq_some_iff.mp h
  obtain ⟨customerId, -, hfind⟩ := Option.bind_eq_some_iff.mp hc
  exact ⟨c, (db.customers.find_some hfind).1, hp⟩

theorem ChangeRan.accounts (h : ChangeRan db d f o) (hc : f.WritesPending db d) (hf : f.Resolves db)
    {closings : List Closing} (hi : Accounts db closings) : Accounts o.db (closings ++ o.closed) := by
  cases h with
  | read hdb hclosed =>
    rw [hdb, hclosed, List.append_nil]
    exact hi
  | cancelled identityId a ha => exact hi.of_same rfl rfl rfl fun c => cancelled_not_applies identityId d.now
  | started a ha hdb =>
    obtain ⟨changes, -, rfl⟩ := startChange_eq_some hdb
    exact hi.of_same rfl rfl rfl fun c => cancelled_not_applies _ d.now
  | expired change a =>
    refine hi.of_same rfl rfl rfl fun c hmem => ?_
    rw [List.mem_singleton.mp hmem]
    simp [EmailChangePendingRow.close, Closing.Applies]
  | @applied identityId mediumId now change a ha hmedia hidentities =>
    obtain ⟨p, hp, hm⟩ := hf
    obtain ⟨-, -, hown⟩ : db.IsPending change.id ∧ d.now < change.expiresAt ∧ db.HasOwnParty identityId change.newEmail := hc
    obtain ⟨customer, hcustomer, rfl⟩ := partyOf_customer hp
    refine ⟨⟨fun c hrow => ?_, hmedia, identities_nodup_applied hi.starts.identities hown hidentities⟩, fun c hmem happlies => ?_⟩
    · rw [activeEmails_applied, List.length_map]
      exact hi.starts.oneEmail c hrow
    · by_cases hid : c.identityId = identityId
      · rw [hid]
        exact agrees_applied_self hp (hi.starts.oneEmail customer hcustomer) hm
      · rcases List.mem_append.mp hmem with hold | hnew
        · have hagrees := hi.agrees c hold happlies
          refine agrees_applied_other hagrees hid (fun hsame => ?_) hm
          obtain ⟨r, hr, -⟩ := hagrees
          obtain ⟨hrow, hkey⟩ := db.portal.identities.find_some hr
          refine (hown r hrow).1 (by rw [hkey]; exact hid) ?_ ?_ <;> simp [hkey, hsame, hp]
        · rw [List.mem_singleton.mp hnew] at hid
          exact absurd rfl hid

theorem ChangeRan.resolves {g : ChangeFlight} (h : ChangeRan db d f o) (hg : g.Resolves db) : g.Resolves o.db := by
  cases h with
  | read hdb => rw [hdb]; exact hg
  | cancelled identityId a ha => cases g <;> exact hg
  | started a ha hdb =>
    obtain ⟨changes, -, rfl⟩ := startChange_eq_some hdb
    cases g <;> exact hg
  | expired change a => cases g <;> exact hg
  | applied a ha hmedia hidentities =>
    cases g with
    | customerFound identityId now change customerId => exact (customerOf_applied identityId).trans hg
    | partyFound identityId now change partyId => exact (partyOf_applied identityId).trans hg
    | mediumFound identityId now change mediumId =>
      obtain ⟨p, hp, hm⟩ := hg
      refine ⟨p, (partyOf_applied identityId).trans hp, ?_⟩
      rw [activeEmails_applied, List.map_map]
      convert hm using 2
      funext m
      simp only [Function.comp_apply]
      split <;> rfl
    | _ => trivial

theorem ChangeRan.next (h : ChangeRan db d f o) (hf : f.Resolves db) : ∀ f' ∈ o.next, f'.Resolves o.db := by
  intro f' hnext
  cases h with
  | read hdb hclosed hread => rw [hdb]; exact hread f' hnext hf
  | _ => cases hnext

theorem ChangeRan.onlyExpires {reason : String} (h : ChangeRan db d f o) (hc : f.WritesPending db d)
    (ha : o.answer = some (.failed reason)) : OnlyExpires f db o.db := by
  cases h with
  | read hdb => rw [hdb]; exact ⟨rfl, rfl, rfl, fun id => Or.inl rfl⟩
  | cancelled identityId a hne => exact absurd (Option.some.inj ha) (hne reason)
  | started a hne hdb => exact absurd (Option.some.inj ha) (hne reason)
  | applied a hne hmedia hidentities => exact absurd (Option.some.inj ha) (hne reason)
  | expired change a =>
    refine ⟨rfl, rfl, rfl, fun id => ?_⟩
    by_cases hid : id = change.id
    · refine Or.inr ⟨change, rfl, hid, hid ▸ hc, ?_⟩
      rw [AccountDb.expireChange, Table.find_update, if_pos hid]
    · refine Or.inl ?_
      rw [AccountDb.expireChange, Table.find_update_ne _ hid]

end Ran

/-! ## Runs -/

structure ChangeInv (w : ChangeWorld) : Prop where
  history : History w.db w.closings
  accounts : Accounts w.db w.closings
  resolves : ∀ f ∈ w.flights, f.Resolves w.db

section Runs

variable {s : ChangeSettings} {w w' : ChangeWorld}

theorem ChangeInv.step (hi : ChangeInv w) {l : ChangeLabel} (hc : w.WritesPending l)
    (h : ChangeWorld.step s w l = some w') : ChangeInv w' := by
  cases l with
  | begin c =>
    cases h
    exact ⟨hi.history, hi.accounts, Pool.forall_concat hi.resolves trivial⟩
  | drop i =>
    cases h
    exact ⟨hi.history, hi.accounts, Pool.forall_eraseIdx hi.resolves⟩
  | run i d =>
    obtain ⟨f, hf, h⟩ := Option.bind_eq_some_iff.mp h
    obtain ⟨o, ho, rfl⟩ := Option.map_eq_some_iff.mp h
    have hran : ChangeRan w.db d f o := change_ran ho
    have hguard : f.WritesPending w.db d := hc f hf
    have hresolves : f.Resolves w.db := hi.resolves f (Pool.mem_of_getElem? hf)
    refine ⟨hran.history hguard hi.history, hran.accounts hguard hresolves hi.accounts, ?_⟩
    have hrest : ∀ g ∈ w.flights, g.Resolves o.db := fun g hg => hran.resolves (hi.resolves g hg)
    unfold ChangeWorld.settle
    dsimp only
    split
    · rename_i f' hnext
      exact Pool.forall_set hrest (hran.next hresolves f' hnext)
    · exact Pool.forall_eraseIdx hrest

theorem ChangeInv.emailsAgree (hi : ChangeInv w) : EmailsAgree w := by
  refine ⟨hi.accounts.agrees, ?_, ?_, hi.history.neverAgain, hi.history.inTime⟩
  · intro r hr r' hr' heq
    exact List.inj_on_of_nodup_map hi.accounts.starts.identities hr hr' heq
  · intro m hm m' hm' hactive hactive' heq
    refine List.inj_on_of_nodup_map hi.accounts.starts.media ?_ ?_ heq
    · exact List.mem_filter.mpr ⟨hm, decide_eq_true hactive⟩
    · exact List.mem_filter.mpr ⟨hm', decide_eq_true hactive'⟩

theorem fails_quietly (w : ChangeWorld) : FailsQuietly s w := by
  intro i d f w' reason hf hstep hanswers
  obtain ⟨hc, hstep⟩ := guarded_eq_some.mp hstep
  obtain ⟨g, hg, hstep⟩ := Option.bind_eq_some_iff.mp hstep
  obtain ⟨o, ho, rfl⟩ := Option.map_eq_some_iff.mp hstep
  rw [hf, Option.some.injEq] at hg
  subst hg
  have hlast : o.answer.toList = [.failed reason] := List.append_cancel_left hanswers
  have hanswer : o.answer = some (.failed reason) := by
    cases ha : o.answer with
    | none => simp [ha] at hlast
    | some a => simpa [ha] using hlast
  exact (change_ran ho).onlyExpires (hc f hf) hanswer

end Runs

def sampleChangeSettings : ChangeSettings := { sampleSettings with trim := id, toLowercase := id }

def sampleIdentity (id email customerId : String) : IdentityRow := ⟨id, email, some customerId, none, "registered", none⟩

def sampleMedium (id partyId value : String) : ContactMediumRow := ⟨id, partyId, "email", value, none⟩

def sampleAccounts : AccountDb where
  portal := { sampleDb with
    identities := ⟨[sampleIdentity "IDN-1" "ada@x" "CUST-1", sampleIdentity "IDN-2" "bob@x" "CUST-2",
      sampleIdentity "IDN-3" "ada@old" "CUST-1"], by decide⟩ }
  changes := .empty
  customers := ⟨[⟨"CUST-1", "PTY-1"⟩, ⟨"CUST-2", "PTY-2"⟩], by decide⟩
  media := ⟨[sampleMedium "CM-1" "PTY-1" "ada@x", sampleMedium "CM-2" "PTY-2" "bob@x"], by decide⟩

/-- A start, in the flight at `i`. -/
def sampleStart (i : ℕ) (identityId newEmail pendingId : String) : List ChangeLabel :=
  [.begin (.start identityId newEmail), .run i (sampleDraw 1 [] ""), .run i (sampleDraw 1 [] pendingId)]

def sampleVerify (identityId mediumId : String) : List ChangeLabel :=
  .begin (.verify identityId "secret") :: List.replicate 4 (.run 0 (sampleDraw 2 [mediumId] ""))

end BssCli.PortalAuth
