import BssCli.Lib.Fields
import BssCli.Lib.Text
import BssCli.PortalAuth.World
import Mathlib.Data.List.Sort

/-!
# Stashed actions

What `stash_pending_action` keeps of a form, and which stash a call of `consume_pending_action` hands out.
-/

namespace BssCli.PortalAuth

open Steps

/-! ## The payload -/

abbrev Form := List (String × String)

/-- `STRIP_FIELDS` -/
def stripFields : List String := ["step_up_token"]

/-- `Map::insert` for each pair. -/
def objectOf (pairs : Form) : Form := pairs.foldl (fun obj e => Fields.insert obj e.1 e.2) []

def payloadOf (form : Form) : Form := objectOf (form.filter fun e => e.1 ∉ stripFields)

def hasNul (s : String) : Bool := s.toList.contains (Char.ofNat 0)

/-- Neither `text` nor `jsonb` holds a NUL. -/
def storable (targetUrl : String) (payload : Form) : Bool :=
  !hasNul targetUrl && payload.all fun e => !hasNul e.1 && !hasNul e.2

/-- The order of keys in `jsonb`: shorter ones first. -/
def jsonbBefore (a b : String × String) : Bool :=
  let m := (Text.utf8 a.1.toList).length
  let n := (Text.utf8 b.1.toList).length
  m < n || m = n && !(b.1.toList < a.1.toList)

def jsonb (obj : Form) : Form := obj.mergeSort jsonbBefore

theorem nodup_objectOf (pairs : Form) : ((objectOf pairs).map Prod.fst).Nodup := by
  apply Fields.nodup_foldl_insert
  exact List.nodup_nil

theorem get_objectOf (pairs : Form) (k : String) : Fields.get (objectOf pairs) k = Fields.get pairs.reverse k := by
  unfold objectOf
  rw [Fields.get_foldl_insert, Fields.get_nil, Option.or_none]

/-- The last value of a key is kept. -/
theorem get_jsonb_payloadOf {k : String} (hk : k ∉ stripFields) (form : Form) :
    Fields.get (jsonb (payloadOf form)) k = Fields.get form.reverse k := by
  have hperm : (payloadOf form).Perm (jsonb (payloadOf form)) := (List.mergeSort_perm _ _).symm
  have hnodup : ((payloadOf form).map Prod.fst).Nodup := nodup_objectOf _
  rw [← Fields.get_perm hperm hnodup, payloadOf, get_objectOf, ← List.filter_reverse, Fields.get_filter fun v => by simpa using hk]

theorem nodup_jsonb_payloadOf (form : Form) : ((jsonb (payloadOf form)).map Prod.fst).Nodup := by
  have hperm : (jsonb (payloadOf form)).Perm (payloadOf form) := List.mergeSort_perm _ _
  exact (hperm.map Prod.fst).nodup_iff.mpr (nodup_objectOf _)

/-! ## The stash -/

def stashRow (id sessionId actionLabel targetUrl : String) (form : Form) (now : Time) (ttlS : ℤ) : Option PendingActionRow :=
  let payload := payloadOf form
  if storable targetUrl payload then some ⟨id, sessionId, actionLabel, targetUrl, jsonb payload, now + seconds ttlS, none⟩ else none

/-- `none` where the session is gone, a text has a NUL or the id is taken. -/
def Db.stashPendingAction (db : Db) (id sessionId actionLabel targetUrl : String) (form : Form) (now : Time) (ttlS : ℤ) : Option Db :=
  match db.sessions.find sessionId with
  | none => none
  | some sess =>
    if sess.revokedAt = none then (stashRow id sessionId actionLabel targetUrl form now ttlS).bind fun row => db.stash row now
    else none

/-- What is in flight under the key of a stash is the stash. -/
theorem activeActions_stash {db db' : Db} {r : PendingActionRow} {now : Time} (hr : r.consumedAt = none)
    (h : db.stash r now = some db') : db'.activeActions r.sessionId r.actionLabel = [r] := by
  obtain ⟨pending, hins, rfl⟩ := Option.map_eq_some_iff.mp h
  unfold Db.activeActions
  rw [(Table.rows_insert hins).1, List.filter_append, List.filter_eq_nil_iff.mpr, List.nil_append, List.filter_cons_of_pos (by simp [hr])]
  · rfl
  · intro q hq
    obtain ⟨q', -, rfl⟩ := List.mem_map.mp hq
    unfold PendingActionRow.supersede
    split
    · simp
    · rename_i hkey
      simp only [decide_eq_true_eq]
      rintro ⟨hsession, haction, -⟩
      exact hkey ⟨hsession, haction⟩

/-- A consume in time finds the last stash under its key. -/
theorem findAction_stash {db db' : Db} {id sessionId actionLabel targetUrl : String} {form : Form} {now : Time} {ttlS : ℤ} {d : Draw}
    (h : db.stashPendingAction id sessionId actionLabel targetUrl form now ttlS = some db') (hnow : d.now < now + seconds ttlS)
    (horder : d.order = [id]) :
    ∃ r, stashRow id sessionId actionLabel targetUrl form now ttlS = some r ∧
      findAction d db' sessionId actionLabel = some (goes db' (.actionFound d.now r)) := by
  unfold Db.stashPendingAction at h
  split at h
  · exact nomatch h
  · obtain ⟨-, h⟩ := Option.ite_none_right_eq_some.mp h
    obtain ⟨r, hr, hstash⟩ := Option.bind_eq_some_iff.mp h
    refine ⟨r, hr, ?_⟩
    unfold stashRow at hr
    obtain ⟨-, hr⟩ := Option.ite_none_right_eq_some.mp hr
    obtain rfl := Option.some.inj hr
    have hactive := activeActions_stash rfl hstash
    unfold findAction inOrder
    rw [hactive, horder]
    simp [hnow]

/-! ## What is handed out -/

/-- The stash that the flight has found. -/
def Flight.action : Flight → Option PendingActionRow
  | .actionFound _ action => some action
  | _ => none

def Answer.view : Answer → Option PendingActionView
  | .pendingAction view => view
  | _ => none

/-- No stash comes in, and what is found or handed out is one. -/
structure Passes (db : Db) (f : Flight) (o : Outcome) : Prop where
  rows : ∀ r ∈ o.db.pending.rows, ∃ q ∈ db.pending.rows, pendingActionView r = pendingActionView q
  found : ∀ f' ∈ o.next, ∀ r ∈ f'.action, r ∈ db.pending.rows
  view : ∀ a ∈ o.answer, ∀ v ∈ a.view, ∃ r ∈ f.action, v = pendingActionView r

section Passes

variable {s : Settings} {d : Draw} {db db' : Db} {f f' : Flight} {a : Answer} {o : Outcome}

theorem rows_of_eq (h : db'.pending = db.pending) :
    ∀ r ∈ db'.pending.rows, ∃ q ∈ db.pending.rows, pendingActionView r = pendingActionView q := by
  intro r hr
  rw [h] at hr
  exact ⟨r, hr, rfl⟩

theorem passes_goes (h : db'.pending = db.pending) (hf' : f'.action = none) : Passes db f (goes db' f') :=
  ⟨rows_of_eq h, by simp [goes, hf'], by simp [goes]⟩

theorem passes_ends (h : db'.pending = db.pending) (ha : a.view = none) : Passes db f (ends db' a) :=
  ⟨rows_of_eq h, by simp [ends], by simp [ends, ha]⟩

theorem passes_handle (h : db'.pending = db.pending) (logout : Bool) (sess : SessionView) : Passes db f (handle db' logout sess) := by
  unfold handle
  split
  · exact passes_goes h rfl
  · exact passes_ends h rfl

theorem passes_fail (f : Flight) : Passes db f (f.fail db) := by
  unfold Flight.fail
  split
  case h_4 | h_5 => exact passes_handle rfl ..
  all_goals exact passes_ends rfl rfl

theorem passes_takeAction (now : Time) (action : PendingActionRow) :
    Passes db (.actionFound now action) (takeAction db now action) := by
  refine ⟨?_, by simp [takeAction, ends], ?_⟩
  · intro r hr
    obtain ⟨q, hq, rfl⟩ := List.mem_map.mp hr
    refine ⟨q, hq, ?_⟩
    split <;> rfl
  · intro a ha v hv
    obtain rfl : Answer.pendingAction (some (pendingActionView action)) = a := Option.some.inj ha
    obtain rfl : pendingActionView action = v := Option.some.inj hv
    exact ⟨action, rfl, rfl⟩

theorem passes_findAction (sessionId actionLabel : String) (h : findAction d db sessionId actionLabel = some o) :
    Passes db (.called (.consumePendingAction sessionId actionLabel)) o := by
  obtain ⟨rows, hrows, rfl⟩ := Option.map_eq_some_iff.mp h
  split
  · exact passes_ends rfl rfl
  · rename_i action hfind
    refine ⟨rows_of_eq rfl, ?_, by simp [goes]⟩
    intro f' hf' r hr
    obtain rfl : Flight.actionFound d.now action = f' := Option.some.inj hf'
    obtain rfl : action = r := Option.some.inj hr
    obtain ⟨hperm, hfound⟩ := Option.ite_none_right_eq_some.mp hrows
    rw [Option.some.inj hfound] at hperm
    exact List.mem_of_mem_filter (hperm.mem_iff.mp (List.mem_of_find?_eq_some hfind))

theorem passes_commitLogin (req : VerifyLogin) (now : Time) (ident : IdentityRow) (token : LoginTokenRow) :
    Passes db f (commitLogin s d db req now ident token) := by
  unfold commitLogin
  dsimp only
  split
  · exact passes_ends rfl rfl
  · rename_i db' hins
    obtain ⟨sessions, -, rfl⟩ := Option.map_eq_some_iff.mp hins
    exact passes_ends rfl rfl

theorem passes_commitStepUp (actionLabel : String) (now : Time) (identityId : String) (token : LoginTokenRow) :
    Passes db f (commitStepUp s d db actionLabel now identityId token) := by
  unfold commitStepUp
  split
  · exact passes_ends rfl rfl
  · rename_i db' hins
    obtain ⟨tokens, -, rfl⟩ := Option.map_eq_some_iff.mp hins
    exact passes_ends rfl rfl

theorem passes_commitRotation (logout : Bool) (sess : SessionView) (now : Time) (row : SessionRow) :
    Passes db f (commitRotation s d db logout sess now row) := by
  unfold commitRotation
  split
  · exact passes_handle rfl ..
  · rename_i db' hins
    obtain ⟨sessions, -, rfl⟩ := Option.map_eq_some_iff.mp hins
    have hhandle : ∀ sess', Passes db f (handle (({ db with sessions } : Db).revoke sess.id now) logout sess') := by
      intro sess'
      apply passes_handle
      rfl
    exact ⟨(hhandle _).rows, (hhandle _).found, by simp [Answer.view]⟩

theorem passes_next (h : f.next s d db = some o) : Passes db f o := by
  cases f with
  | called c =>
    cases c with
    | verifyEmailLogin req =>
      cases h
      unfold enforceLoginVerify
      dsimp only
      split
      · exact passes_ends rfl rfl
      · exact passes_goes rfl rfl
    | verifyStepUp sessionId code actionLabel =>
      cases h
      unfold beginStepUp
      split
      · exact passes_ends rfl rfl
      · exact passes_goes rfl rfl
    | consumeStepUpToken sessionId token actionLabel =>
      cases h
      unfold beginConsume
      split
      · exact passes_ends rfl rfl
      · exact passes_goes rfl rfl
    | consumePendingAction sessionId actionLabel => exact passes_findAction sessionId actionLabel h
    | sessionLayer cookie logout =>
      cases h
      unfold findSession
      split
      · exact passes_ends rfl rfl
      · split
        · exact passes_goes rfl rfl
        · exact passes_ends rfl rfl
  | loginAllowed req =>
    obtain ⟨rows, -, rfl⟩ := Option.map_eq_some_iff.mp h
    split
    · exact passes_ends rfl rfl
    · exact passes_goes rfl rfl
  | loginIdentified req now ident =>
    obtain ⟨rows, -, rfl⟩ := Option.map_eq_some_iff.mp h
    split
    · exact passes_ends rfl rfl
    · exact passes_goes rfl rfl
  | loginMatched req now ident token => cases h; exact passes_commitLogin ..
  | stepUpActive code actionLabel now identityId =>
    obtain ⟨rows, -, rfl⟩ := Option.map_eq_some_iff.mp h
    split
    · exact passes_ends rfl rfl
    · exact passes_goes rfl rfl
  | stepUpMatched actionLabel now identityId token => cases h; exact passes_commitStepUp ..
  | grantActive token actionLabel now identityId =>
    obtain ⟨rows, -, rfl⟩ := Option.map_eq_some_iff.mp h
    split
    · exact passes_ends rfl rfl
    · exact passes_goes rfl rfl
  | grantMatched now grant => cases h; exact passes_ends rfl rfl
  | actionFound now action => cases h; exact passes_takeAction now action
  | sessionFound logout now sess =>
    cases h
    unfold findIdentity
    split
    · exact passes_ends rfl rfl
    · exact passes_goes rfl rfl
  | sessionIdentified logout now sess => cases h; exact passes_goes rfl rfl
  | sessionCurrent logout sess =>
    cases h
    unfold checkRotation
    split
    · exact passes_handle rfl ..
    · split
      · exact passes_goes rfl rfl
      · exact passes_handle rfl ..
  | sessionDue logout sess now row => cases h; exact passes_commitRotation ..
  | leaving sess => cases h; exact passes_ends rfl rfl

theorem passes_run (h : f.run s d db = some o) : Passes db f o := by
  unfold Flight.run at h
  split at h
  · exact passes_next h
  · cases h
    exact passes_fail f

end Passes

/-- Every stash, found or handed out or waiting, is one of these. -/
structure Stems (P : PendingActionView → Prop) (w : World) : Prop where
  rows : ∀ r ∈ w.db.pending.rows, P (pendingActionView r)
  flights : ∀ f ∈ w.flights, ∀ r ∈ f.action, P (pendingActionView r)
  answers : ∀ a ∈ w.answers, ∀ v ∈ a.view, P v

theorem stems_stash {db db' : Db} {r : PendingActionRow} {now : Time} {P : PendingActionView → Prop}
    (hi : ∀ q ∈ db.pending.rows, P (pendingActionView q)) (hr : P (pendingActionView r)) (h : db.stash r now = some db') :
    ∀ q ∈ db'.pending.rows, P (pendingActionView q) := by
  obtain ⟨pending, hins, rfl⟩ := Option.map_eq_some_iff.mp h
  intro q hq
  rw [(Table.rows_insert hins).1, List.mem_append, List.mem_singleton] at hq
  rcases hq with hq | rfl
  · obtain ⟨q', hq', rfl⟩ := List.mem_map.mp hq
    have hview : pendingActionView (q'.supersede r.sessionId r.actionLabel now) = pendingActionView q' := by
      unfold PendingActionRow.supersede
      split <;> rfl
    rw [hview]
    exact hi q' hq'
  · exact hr

theorem stems_step {s : Settings} {w w' : World} {l : Label} {P : PendingActionView → Prop} (h : World.step s w l = some w')
    (hi : Stems P w) (hl : ∀ r now, l = .stash r now → P (pendingActionView r)) : Stems P w' := by
  cases l with
  | begin c =>
    cases h
    exact ⟨hi.rows, Pool.forall_concat hi.flights (by simp [Flight.action]), hi.answers⟩
  | run i d =>
    obtain ⟨f, hf, h⟩ := Option.bind_eq_some_iff.mp h
    obtain ⟨o, ho, rfl⟩ := Option.map_eq_some_iff.mp h
    have hpasses := passes_run ho
    have hflight := hi.flights f (Pool.mem_of_getElem? hf)
    refine ⟨?_, ?_, ?_⟩
    · intro r hr
      obtain ⟨q, hq, hview⟩ := hpasses.rows r hr
      rw [hview]
      exact hi.rows q hq
    · unfold World.settle
      dsimp only
      split
      · rename_i f' hnext
        refine Pool.forall_set hi.flights fun r hr => ?_
        exact hi.rows r (hpasses.found f' hnext r hr)
      · exact Pool.forall_eraseIdx hi.flights
    · intro a ha v hv
      rcases List.mem_append.mp ha with ha | ha
      · exact hi.answers a ha v hv
      · obtain ⟨r, hr, rfl⟩ := hpasses.view a (by simpa using ha) v hv
        exact hflight r hr
  | drop i =>
    cases h
    exact ⟨hi.rows, Pool.forall_eraseIdx hi.flights, hi.answers⟩
  | issue r =>
    obtain ⟨-, h⟩ := Option.ite_none_right_eq_some.mp h
    obtain ⟨db, hdb, rfl⟩ := Option.map_eq_some_iff.mp h
    obtain ⟨tokens, -, rfl⟩ := Option.map_eq_some_iff.mp hdb
    exact ⟨hi.rows, hi.flights, hi.answers⟩
  | stash r now =>
    obtain ⟨-, h⟩ := Option.ite_none_right_eq_some.mp h
    obtain ⟨db, hdb, rfl⟩ := Option.map_eq_some_iff.mp h
    exact ⟨stems_stash hi.rows (hl r now rfl) hdb, hi.flights, hi.answers⟩
  | identities t =>
    cases h
    exact ⟨hi.rows, hi.flights, hi.answers⟩

/-- In every run a stash that is handed out was there at the start or was stashed in the run. -/
theorem stems_run {s : Settings} {w w' : World} {ls : List Label} {P : PendingActionView → Prop}
    (h : exec (World.step s) w ls = some w') (hi : Stems P w) (hls : ∀ r now, .stash r now ∈ ls → P (pendingActionView r)) :
    Stems P w' := by
  induction ls generalizing w with
  | nil =>
    obtain rfl := Option.some.inj h
    exact hi
  | cons l ls ih =>
    obtain ⟨w₁, hstep, hrest⟩ := (exec_cons ..).mp h
    apply ih hrest
    · exact stems_step hstep hi fun r now hl => hls r now (hl ▸ List.mem_cons_self)
    · intro r now hmem
      exact hls r now (List.mem_cons_of_mem _ hmem)

end BssCli.PortalAuth
