import BssCli.PortalAuth.World

/-!
# Rotation and logout

A session that is rotated makes a successor and is revoked. The rotation decides on a row that
it read before, and revokes without looking again. A logout revokes the session it has read.
-/

namespace BssCli.PortalAuth

open Steps Relation

/-- The credentials that are rotated away. -/
def rotating : Credential → Bool
  | .session _ => true
  | .token _ | .action _ => false

def World.Rotated (w : World) (old new : String) : Prop := ∃ v, .rotated old v ∈ w.answers ∧ v.id = new

/-- A session that came out of another by rotation, in any number of steps. -/
def World.Descends (w : World) : String → String → Prop := ReflTransGen w.Rotated

def Live (db : Db) (id : String) (now : Time) : Prop := ∃ r ∈ db.sessions.find id, r.revokedAt = none ∧ now < r.expiresAt

instance (db : Db) (id : String) (now : Time) : Decidable (Live db id now) := inferInstanceAs (Decidable (∃ r ∈ _, _))

theorem Live.not_spent {db : Db} {id : String} {now : Time} (h : Live db id now) : ¬ Spent db (.session id) := by
  obtain ⟨r, hr, hnone, -⟩ := h
  exact Unspent.not_spent ⟨r, hr, hnone⟩

section

variable {s : Settings} {w w' : World} {l : Label} {ls : List Label}

/-- A session has one successor, and is revoked when it has one. -/
structure Line (w : World) : Prop where
  inv : Spend.Inv (Spent w.db) (w.spent rotating)
  knows : w.KnowsSessions

theorem Line.unique (hi : Line w) : Relator.RightUnique w.Rotated := by
  rintro a b c ⟨v, hv, rfl⟩ ⟨v', hv', rfl⟩
  have heq := Spend.eq_of_nodup (k := .session a) hi.inv.nodup hv hv' rfl rfl
  cases heq
  rfl

theorem Line.revoked (hi : Line w) {a b : String} (h : w.Rotated a b) : Spent w.db (.session a) := by
  obtain ⟨v, hv, -⟩ := h
  exact hi.inv.spent _ (List.mem_filterMap.mpr ⟨_, hv, rfl⟩)

theorem Stepped.line (h : Stepped s w l w') (hc : FindsUnspent rotating w l) (hi : Line w) : Line w' := by
  obtain ⟨new, hnew, hnodup, hspent⟩ := h.spent rotating hc
  refine ⟨?_, h.knowsSessions hi.knows⟩
  rw [hnew]
  exact hi.inv.append h.follows.spent hnodup fun c hmem => ⟨(hspent c hmem).1.not_spent, (hspent c hmem).2⟩

theorem Stepped.ended (h : Stepped s w l w') (hc : FindsUnspent rotating w l) {id : String}
    (hspent : Spent w.db (.session id)) (hend : ∀ b, ¬ w.Rotated id b) : ∀ b, ¬ w'.Rotated id b := by
  rintro b ⟨v, hv, -⟩
  cases h with
  | @ran i d f o hf hrun =>
    rcases List.mem_append.mp hv with hv | hv
    · exact hend v.id ⟨v, hv, rfl⟩
    · have ha : Answer.rotated id v ∈ o.answer := by simpa using hv
      obtain ⟨hconsumes, hfree, -⟩ := (run_sound hrun).spends _ ha _ rfl
      exact (hc f hf (run_dbOk hrun ha rfl) hfree _ hconsumes rfl).not_spent hspent
  | began c => exact hend v.id ⟨v, hv, rfl⟩
  | dropped i => exact hend v.id ⟨v, hv, rfl⟩
  | wrote hdb => exact hend v.id ⟨v, hv, rfl⟩

theorem Stepped.descends (h : Stepped s w l w') {a b : String} (hab : w.Descends a b) : w'.Descends a b := by
  refine ReflTransGen.mono (fun x y hxy => ?_) _ _ hab
  obtain ⟨v, hv, rfl⟩ := hxy
  refine ⟨v, ?_, rfl⟩
  cases h with
  | ran hf hrun => exact List.mem_append_left _ hv
  | began c => exact hv
  | dropped i => exact hv
  | wrote hdb => exact hv

theorem initial_line (db : Db) : Line (World.initial db) := ⟨Spend.inv_nil _, by simp [World.KnowsSessions, World.initial]⟩

/-- The sessions that came out of one, after the last of them is revoked. -/
def LoggedOut (root id : String) (w : World) : Prop :=
  Line w ∧ Spent w.db (.session id) ∧ (∀ b, ¬ w.Rotated id b) ∧ w.Descends root id

theorem LoggedOut.not_live {root id : String} (h : LoggedOut root id w) {b : String} (hb : w.Descends root b)
    (now : Time) : ¬ Live w.db b now := by
  obtain ⟨hi, hspent, hend, hid⟩ := h
  have hb' : Spent w.db (.session b) :=
    Spend.spent_of_end (fun id => Spent w.db (.session id)) hi.unique (fun _ _ => hi.revoked) hid hend hspent hb
  exact fun hlive => hlive.not_spent hb'

theorem Stepped.loggedOut (h : Stepped s w l w') (hc : FindsUnspent rotating w l) {root id : String}
    (hout : LoggedOut root id w) : LoggedOut root id w' := by
  obtain ⟨hi, hspent, hend, hid⟩ := hout
  exact ⟨h.line hc hi, h.follows.spent _ hspent, h.ended hc hspent hend, h.descends hid⟩

theorem revoke_loggedOut (hi : Line w) {i : ℕ} {d : Draw} {sess : SessionView} (hf : w.flights[i]? = some (.leaving sess))
    (hok : d.dbOk) (hend : ∀ b, ¬ w.Rotated sess.id b) {root : String} (hid : w.Descends root sess.id)
    (hc : FindsUnspent rotating w (.run i d)) (h : World.step s w (.run i d) = some w') : LoggedOut root sess.id w' := by
  have hstep := step_eq_some h
  have hsess : HasSession w.db sess.id := hi.knows _ (Pool.mem_of_getElem? hf) sess.id rfl
  have hw' : w' = w.settle i (revokeSession d w.db sess) := by
    rw [World.step, hf, Option.bind_some, Flight.run, if_pos hok] at h
    exact (Option.some.inj h).symm
  refine ⟨hstep.line hc hi, ?_, ?_, hstep.descends hid⟩
  · rw [hw']
    exact spent_revokeActive hsess
  · rintro b ⟨v, hv, -⟩
    rw [hw'] at hv
    have hold : Answer.rotated sess.id v ∈ w.answers := by
      simpa [World.settle, revokeSession, ends] using hv
    exact hend v.id ⟨v, hold, rfl⟩

end

def samplePage (logout : Bool) : Call := .sessionLayer (some "SES-1") logout

/-- What a request reads before it looks whether a rotation is due. -/
def current (i : ℕ) (now : ℤ) : List Label := List.replicate 3 (.run i (sampleDraw now [] ""))

end BssCli.PortalAuth
