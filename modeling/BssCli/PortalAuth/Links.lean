import BssCli.PortalAuth.Lanes

/-!
# The customer of an identity

A login that matches writes back the customer that it read first, or the one that it found by
email. A signup links an identity that it read as unlinked. A repair swaps a customer that is
gone for another. Each reads in one statement and writes in another.
-/

namespace BssCli.PortalAuth

open Steps

/-! ## The two calls of a signup -/

def IdentityRow.link (customerId : String) (r : IdentityRow) : IdentityRow :=
  { r with customerId := some customerId, status := "registered" }

theorem IdentityRow.link_id (customerId : String) (r : IdentityRow) : (r.link customerId).id = r.id := rfl

/-- `UPDATE … WHERE id = $2`. -/
def Db.link (db : Db) (identityId customerId : String) : Db :=
  { db with identities := db.identities.update identityId (·.link customerId) (IdentityRow.link_id customerId) }

inductive LinkCall
  | verifyEmailLogin (req : VerifyLogin)
  | linkToCustomer (identityId customerId : String)
  | relinkOrphaned (identityId orphanedCustomerId newCustomerId : String)

inductive LinkFlight
  | login (f : Flight)
  | linking (identityId customerId : String)
  | unlinked (identityId customerId : String)
  | relinking (identityId orphanedCustomerId newCustomerId : String)
  | missed (identityId newCustomerId : String)

def LinkCall.flight : LinkCall → LinkFlight
  | .verifyEmailLogin req => .login (.called (.verifyEmailLogin req))
  | .linkToCustomer identityId customerId => .linking identityId customerId
  | .relinkOrphaned identityId orphanedCustomerId newCustomerId => .relinking identityId orphanedCustomerId newCustomerId

inductive LinkAnswer
  | ok (identityId customerId : String)
  | unknownIdentity
  | alreadyLinked (existing : String)
  | dbError
  | login (a : Answer)
  deriving DecidableEq

/-- `relinked` is the identity that a repair moved, and the customer that it moved it from. -/
structure LinkOutcome where
  db : Db
  next : Option LinkFlight
  answer : Option LinkAnswer
  relinked : Option (String × String)

section Steps

variable (s : Settings) (d : Draw) (db : Db)

def linkEnds (a : LinkAnswer) : LinkOutcome := ⟨db, none, some a, none⟩

def linkGoes (f : LinkFlight) : LinkOutcome := ⟨db, some f, none, none⟩

/-- The read of `link_to_customer`. -/
def readLink (identityId customerId : String) : LinkOutcome :=
  match db.identities.find identityId with
  | none => linkEnds db .unknownIdentity
  | some r =>
    match r.customerId with
    | some current => if current = customerId then linkEnds db (.ok identityId customerId) else linkEnds db (.alreadyLinked current)
    | none => linkGoes db (.unlinked identityId customerId)

/-- The write of `link_to_customer`, whatever the identity is linked to by now. -/
def writeLink (identityId customerId : String) : LinkOutcome :=
  linkEnds (db.link identityId customerId) (if d.heard then .ok identityId customerId else .dbError)

/-- The compare-and-swap of `relink_orphaned_to_customer`. -/
def swapLink (identityId orphanedCustomerId newCustomerId : String) : LinkOutcome :=
  if (db.identities.find identityId).bind IdentityRow.customerId = some orphanedCustomerId then
    ⟨db.link identityId newCustomerId, none, some (if d.heard then .ok identityId newCustomerId else .dbError),
      some (identityId, orphanedCustomerId)⟩
  else if d.heard then linkGoes db (.missed identityId newCustomerId) else linkEnds db .dbError

/-- After a swap that missed. An identity that is unlinked goes on to `link_to_customer`. -/
def explainMiss (identityId newCustomerId : String) : LinkOutcome :=
  match db.identities.find identityId with
  | none => linkEnds db .unknownIdentity
  | some r =>
    match r.customerId with
    | some current => linkEnds db (.alreadyLinked current)
    | none => linkGoes db (.linking identityId newCustomerId)

def LinkFlight.next : LinkFlight → Option LinkOutcome
  | .login f => (f.run s d db).map fun o => ⟨o.db, o.next.map .login, o.answer.map .login, none⟩
  | .linking identityId customerId => some (readLink db identityId customerId)
  | .unlinked identityId customerId => some (writeLink d db identityId customerId)
  | .relinking identityId orphanedCustomerId newCustomerId =>
    some (swapLink d db identityId orphanedCustomerId newCustomerId)
  | .missed identityId newCustomerId => some (explainMiss db identityId newCustomerId)

/-- A statement fails. A login fails by itself. -/
def LinkFlight.run : LinkFlight → Option LinkOutcome
  | .login f => (LinkFlight.login f).next s d db
  | f => if d.dbOk then f.next s d db else some (linkEnds db .dbError)

end Steps

/-! ## Calls side by side -/

structure LinkWorld where
  db : Db
  flights : List LinkFlight
  answers : List LinkAnswer
  relinks : List (String × String)

inductive LinkLabel
  | begin (c : LinkCall)
  | run (i : ℕ) (d : Draw)
  | drop (i : ℕ)
  /-- A code is sent out. -/
  | issue (r : LoginTokenRow)

namespace LinkWorld

def initial (db : Db) : LinkWorld := ⟨db, [], [], []⟩

def settle (w : LinkWorld) (i : ℕ) (o : LinkOutcome) : LinkWorld where
  db := o.db
  flights := Pool.move w.flights i o.next
  answers := w.answers ++ o.answer.toList
  relinks := w.relinks ++ o.relinked.toList

def step (s : Settings) (w : LinkWorld) : LinkLabel → Option LinkWorld
  | .begin c => some { w with flights := w.flights ++ [c.flight] }
  | .run i d => w.flights[i]?.bind fun f => (f.run s d w.db).map (w.settle i)
  | .drop i => some { w with flights := w.flights.eraseIdx i }
  | .issue r => (w.db.insertToken r).map fun db => { w with db }

end LinkWorld

def Db.linkOf (db : Db) (identityId : String) : Option String := (db.identities.find identityId).bind IdentityRow.customerId

/-- The link is as the call has read it, when the call writes it. -/
def LinkFlight.Fresh (db : Db) : LinkFlight → Prop
  | .login (.loginMatched _ _ ident _) => db.linkOf ident.id = ident.customerId
  | .unlinked identityId _ => db.linkOf identityId = none
  | _ => True

instance (db : Db) : (f : LinkFlight) → Decidable (f.Fresh db)
  | .login (.loginMatched ..) | .unlinked .. => inferInstanceAs (Decidable (_ = _))
  | .login (.called _) | .login (.loginAllowed _) | .login (.loginIdentified ..) | .login (.stepUpActive ..)
  | .login (.stepUpMatched ..) | .login (.grantActive ..) | .login (.grantMatched ..) | .login (.actionFound ..)
  | .login (.sessionFound ..) | .login (.sessionIdentified ..) | .login (.sessionCurrent ..) | .login (.sessionDue ..)
  | .login (.leaving _) | .linking .. | .relinking .. | .missed .. => inferInstanceAs (Decidable True)

def LinkWorld.WritesFresh (w : LinkWorld) : LinkLabel → Prop
  | .run i d => d.dbOk → ∀ f ∈ w.flights[i]?, f.Fresh w.db
  | _ => True

instance (w : LinkWorld) : (l : LinkLabel) → Decidable (w.WritesFresh l)
  | .run .. => inferInstanceAs (Decidable (_ → ∀ f ∈ _, _))
  | .begin _ | .drop _ | .issue _ => inferInstanceAs (Decidable True)

/-- What is linked stays linked, until a repair moves it away from exactly that customer. -/
def WriteOnce (step : LinkWorld → LinkLabel → Option LinkWorld) (w : LinkWorld) : Prop :=
  ∀ id c ls w', w.db.linkOf id = some c → exec step w ls = some w' → (id, c) ∉ w'.relinks.drop w.relinks.length →
    w'.db.linkOf id = some c

/-- A call that answers Ok leaves the identity linked to its customer. -/
def OkLinks (s : Settings) (w : LinkWorld) : Prop :=
  ∀ i d w' id c, LinkWorld.step s w (.run i d) = some w' → w'.answers = w.answers ++ [.ok id c] →
    w'.db.linkOf id = some c

/-! ## What a step does to a link -/

/-- What a step does to the identities, and what it answers then. -/
inductive LinkRan (d : Draw) (db : Db) : LinkFlight → LinkOutcome → Prop
  | same {f o} (hdb : o.db.identities = db.identities) (hrelinked : o.relinked = none)
      (hanswer : ∀ id c, o.answer = some (.ok id c) → db.linkOf id = some c)
      (hnext : ∀ id c, o.next = some (.unlinked id c) → (db.identities.find id).isSome) : LinkRan d db f o
  | login {req now ident token status o} (hok : d.dbOk)
      (hdb : o.db.identities =
        (db.logIn ident.id (ident.customerId.or d.customerId) (ident.emailVerifiedAt.or (some now)) status now).identities)
      (hrelinked : o.relinked = none) (hanswer : ∀ id c, o.answer ≠ some (.ok id c)) (hnext : o.next = none) :
      LinkRan d db (.login (.loginMatched req now ident token)) o
  | linked {id c} (hok : d.dbOk) : LinkRan d db (.unlinked id c) (writeLink d db id c)
  | swapped {id orphan c} (hfound : db.linkOf id = some orphan) :
      LinkRan d db (.relinking id orphan c)
        ⟨db.link id c, none, some (if d.heard then .ok id c else .dbError), some (id, orphan)⟩

section Ran

variable {s : Settings} {d : Draw} {db : Db} {id c : String}

theorem linkOf_congr {db' : Db} (h : db'.identities = db.identities) (id : String) : db'.linkOf id = db.linkOf id := by
  rw [Db.linkOf, h, Db.linkOf]

theorem linkOf_link_ne {id' : String} (h : id' ≠ id) : (db.link id c).linkOf id' = db.linkOf id' := by
  rw [Db.linkOf, Db.link, Table.find_update_ne _ h, Db.linkOf]

theorem linkOf_link (h : (db.identities.find id).isSome) : (db.link id c).linkOf id = some c := by
  obtain ⟨r, hr⟩ := Option.isSome_iff_exists.mp h
  rw [Db.linkOf, Db.link, Table.find_update, if_pos rfl, hr]
  rfl

theorem linkOf_logIn_ne {id' : String} {customerId : Option String} {verifiedAt : Option Time} {status : String}
    {now : Time} (h : id' ≠ id) : (db.logIn id customerId verifiedAt status now).linkOf id' = db.linkOf id' := by
  rw [Db.linkOf, Db.logIn, Table.find_update_ne _ h, Db.linkOf]

theorem linkOf_logIn {customerId : Option String} {verifiedAt : Option Time} {status : String} {now : Time}
    (h : (db.identities.find id).isSome) : (db.logIn id customerId verifiedAt status now).linkOf id = customerId := by
  obtain ⟨r, hr⟩ := Option.isSome_iff_exists.mp h
  rw [Db.linkOf, Db.logIn, Table.find_update, if_pos rfl, hr]
  rfl

theorem isSome_of_linkOf (h : db.linkOf id = some c) : (db.identities.find id).isSome := by
  obtain ⟨r, hr, -⟩ := Option.bind_eq_some_iff.mp h
  simp [hr]

theorem fail_db (f : Flight) : (f.fail db).db = db := by
  unfold Flight.fail
  split
  case h_4 | h_5 => exact handle_db
  all_goals rfl

theorem identities_next {f : Flight} {o : Outcome} (h : f.next s d db = some o)
    (hf : ∀ req now ident token, f ≠ .loginMatched req now ident token) : o.db.identities = db.identities := by
  by_cases hlane : f.lane = .login
  · cases f with
    | called c =>
      cases c with
      | verifyEmailLogin req =>
        cases h
        unfold enforceLoginVerify
        dsimp only
        split <;> rfl
      | _ => simp [Flight.lane, Call.lane] at hlane
    | loginAllowed | loginIdentified =>
      obtain ⟨rows, -, rfl⟩ := Option.map_eq_some_iff.mp h
      split <;> rfl
    | loginMatched req now ident token => exact absurd rfl (hf req now ident token)
    | _ => simp [Flight.lane] at hlane
  · exact (keeps_next h).identities hlane

theorem linkRan_ends (f : LinkFlight) {a : LinkAnswer} (h : ∀ id c, a = .ok id c → db.linkOf id = some c) :
    LinkRan d db f (linkEnds db a) :=
  .same rfl rfl (fun id c ha => h id c (Option.some.inj ha)) (by simp [linkEnds])

theorem linkRan_goes (f : LinkFlight) {f' : LinkFlight}
    (h : ∀ id c, f' = .unlinked id c → (db.identities.find id).isSome) : LinkRan d db f (linkGoes db f') :=
  .same rfl rfl (by simp [linkGoes]) fun id c hnext => h id c (Option.some.inj hnext)

theorem linkRan_login {f : Flight} {o : Outcome} (h : f.run s d db = some o) :
    LinkRan d db (.login f) ⟨o.db, o.next.map .login, o.answer.map .login, none⟩ := by
  unfold Flight.run at h
  split at h
  · rename_i hok
    cases f with
    | loginMatched req now ident token =>
      cases h
      unfold commitLogin
      dsimp only
      split
      · exact .same rfl rfl (by simp [ends]) (by simp [ends])
      · rename_i db' hins
        obtain ⟨sessions, -, rfl⟩ := Option.map_eq_some_iff.mp hins
        exact .login hok rfl rfl (by simp [ends]) rfl
    | _ => exact .same (identities_next h (by simp)) rfl (by simp) (by simp)
  · cases h
    exact .same (by rw [fail_db]) rfl (by simp) (by simp)

theorem linkRan_readLink (f : LinkFlight) : LinkRan d db f (readLink db id c) := by
  unfold readLink
  split
  · exact linkRan_ends f (by simp)
  · rename_i r hr
    split
    · rename_i current hcurrent
      split
      · rename_i heq
        refine linkRan_ends f fun id' c' ha => ?_
        obtain ⟨rfl, rfl⟩ := LinkAnswer.ok.inj ha
        rw [Db.linkOf, hr, ← heq]
        exact hcurrent
      · exact linkRan_ends f (by simp)
    · refine linkRan_goes f fun id' c' hnext => ?_
      obtain ⟨rfl, rfl⟩ := LinkFlight.unlinked.inj hnext
      simp [hr]

theorem linkRan_swapLink {orphan : String} : LinkRan d db (.relinking id orphan c) (swapLink d db id orphan c) := by
  unfold swapLink
  split
  · rename_i hfound
    exact .swapped hfound
  · split
    · exact linkRan_goes _ (by simp)
    · exact linkRan_ends _ (by simp)

theorem linkRan_explainMiss (f : LinkFlight) : LinkRan d db f (explainMiss db id c) := by
  unfold explainMiss
  split
  · exact linkRan_ends f (by simp)
  · split
    · exact linkRan_ends f (by simp)
    · exact linkRan_goes f (by simp)

theorem linkRan_statement {f : LinkFlight} {o o' : LinkOutcome}
    (h : (if d.dbOk then some o' else some (linkEnds db .dbError)) = some o) (hran : d.dbOk → LinkRan d db f o') :
    LinkRan d db f o := by
  split at h
  · rename_i hok
    cases h
    exact hran hok
  · cases h
    exact linkRan_ends f (by simp)

theorem link_ran {f : LinkFlight} {o : LinkOutcome} (h : f.run s d db = some o) : LinkRan d db f o := by
  cases f with
  | login f =>
    obtain ⟨o, ho, rfl⟩ := Option.map_eq_some_iff.mp h
    exact linkRan_login ho
  | linking id c => exact linkRan_statement h fun _ => linkRan_readLink _
  | unlinked id c => exact linkRan_statement h .linked
  | relinking id orphan c => exact linkRan_statement h fun _ => linkRan_swapLink
  | missed id c => exact linkRan_statement h fun _ => linkRan_explainMiss _

theorem LinkRan.kept {f : LinkFlight} {o : LinkOutcome} (h : LinkRan d db f o) (hf : d.dbOk → f.Fresh db)
    (hlink : db.linkOf id = some c) : o.db.linkOf id = some c ∨ o.relinked = some (id, c) := by
  cases h with
  | same hdb => exact Or.inl ((linkOf_congr hdb id).trans hlink)
  | @login req now ident token status o hok hdb =>
    refine Or.inl ((linkOf_congr hdb id).trans ?_)
    by_cases hid : id = ident.id
    · have hfresh : db.linkOf ident.id = ident.customerId := hf hok
      have hread : ident.customerId = some c := by rw [← hfresh, ← hid, hlink]
      rw [hid, linkOf_logIn (hid ▸ isSome_of_linkOf hlink), hread]
      rfl
    · rw [linkOf_logIn_ne hid, hlink]
  | @linked id' c' hok =>
    have hfresh : db.linkOf id' = none := hf hok
    have hid : id ≠ id' := fun heq => by simp [← heq, hlink] at hfresh
    exact Or.inl ((linkOf_link_ne hid).trans hlink)
  | @swapped id' orphan c' hfound =>
    by_cases hid : id = id'
    · refine Or.inr ?_
      rw [← hid, hlink] at hfound
      rw [← hid, Option.some.inj hfound]
    · exact Or.inl ((linkOf_link_ne hid).trans hlink)

theorem isSome_update {db : Db} {id' : String} {g : IdentityRow → IdentityRow} (hg : ∀ r, (g r).id = r.id)
    (h : (db.identities.find id).isSome) : ((db.identities.update id' g hg).find id).isSome := by
  rw [Table.find_update]
  split
  · rw [Option.isSome_map, h]
  · exact h

theorem LinkRan.stays {f : LinkFlight} {o : LinkOutcome} (h : LinkRan d db f o)
    (hid : (db.identities.find id).isSome) : (o.db.identities.find id).isSome := by
  cases h with
  | same hdb => rw [hdb]; exact hid
  | login hok hdb => rw [hdb]; exact isSome_update (IdentityRow.logIn_id _ _ _ _) hid
  | linked hok => exact isSome_update (IdentityRow.link_id _) hid
  | swapped hfound => exact isSome_update (IdentityRow.link_id _) hid

/-- The identity that the next write of the call links is there. -/
def LinkFlight.Known (db : Db) : LinkFlight → Prop
  | .unlinked id _ => (db.identities.find id).isSome
  | _ => True

theorem LinkRan.known {f g : LinkFlight} {o : LinkOutcome} (h : LinkRan d db f o) (hg : g.Known db) : g.Known o.db := by
  cases g with
  | unlinked id c => exact h.stays hg
  | _ => trivial

theorem LinkRan.next {f f' : LinkFlight} {o : LinkOutcome} (h : LinkRan d db f o) (hnext : o.next = some f') :
    f'.Known o.db := by
  cases h with
  | same hdb hrelinked hanswer hunlinked =>
    cases f' with
    | unlinked id c =>
      change (o.db.identities.find id).isSome
      rw [hdb]
      exact hunlinked id c hnext
    | _ => trivial
  | login hok hdb hrelinked hanswer hends => simp [hends] at hnext
  | linked hok => simp [writeLink, linkEnds] at hnext
  | swapped hfound => simp at hnext

theorem LinkRan.ok {f : LinkFlight} {o : LinkOutcome} (h : LinkRan d db f o) (hf : f.Known db)
    (ha : o.answer = some (.ok id c)) : o.db.linkOf id = some c := by
  cases h with
  | same hdb hrelinked hanswer => exact (linkOf_congr hdb id).trans (hanswer id c ha)
  | login hok hdb hrelinked hanswer => exact absurd ha (hanswer id c)
  | @linked id' c' hok =>
    simp only [writeLink, linkEnds, Option.some.injEq] at ha
    split at ha
    · obtain ⟨rfl, rfl⟩ := LinkAnswer.ok.inj ha
      exact linkOf_link hf
    · cases ha
  | @swapped id' orphan c' hfound =>
    simp only [Option.some.injEq] at ha
    split at ha
    · obtain ⟨rfl, rfl⟩ := LinkAnswer.ok.inj ha
      exact linkOf_link (isSome_of_linkOf hfound)
    · cases ha

end Ran

/-! ## Runs -/

section Runs

variable {s : Settings} {w w' : LinkWorld}

theorem identities_insertToken {db db' : Db} {r : LoginTokenRow} (h : db.insertToken r = some db') :
    db'.identities = db.identities := by
  obtain ⟨tokens, -, rfl⟩ := Option.map_eq_some_iff.mp h
  rfl

theorem step_link {l : LinkLabel} (hc : w.WritesFresh l) (h : LinkWorld.step s w l = some w') :
    ∃ relinked, w'.relinks = w.relinks ++ relinked ∧
      ∀ id c, w.db.linkOf id = some c → (id, c) ∉ relinked → w'.db.linkOf id = some c := by
  cases l with
  | begin c =>
    cases h
    exact ⟨[], by simp, fun id c hlink _ => hlink⟩
  | drop i =>
    cases h
    exact ⟨[], by simp, fun id c hlink _ => hlink⟩
  | issue r =>
    obtain ⟨db, hdb, rfl⟩ := Option.map_eq_some_iff.mp h
    exact ⟨[], by simp, fun id c hlink _ => (linkOf_congr (identities_insertToken hdb) id).trans hlink⟩
  | run i d =>
    obtain ⟨f, hf, h⟩ := Option.bind_eq_some_iff.mp h
    obtain ⟨o, ho, rfl⟩ := Option.map_eq_some_iff.mp h
    refine ⟨o.relinked.toList, rfl, fun id c hlink hnot => ?_⟩
    have hfresh : d.dbOk → f.Fresh w.db := fun hok => hc hok f hf
    rcases (link_ran ho).kept hfresh hlink with hkept | hrelinked
    · exact hkept
    · simp [hrelinked] at hnot

theorem write_once (w : LinkWorld) : WriteOnce (guarded LinkWorld.WritesFresh (LinkWorld.step s)) w := by
  intro id c ls w' hlink h hnot
  have hinv : ∃ relinked, w'.relinks = w.relinks ++ relinked ∧ ((id, c) ∉ relinked → w'.db.linkOf id = some c) := by
    refine guarded_inv (P := fun w' => ∃ relinked, w'.relinks = w.relinks ++ relinked ∧
      ((id, c) ∉ relinked → w'.db.linkOf id = some c)) ?_ ⟨[], by simp, fun _ => hlink⟩ h
    rintro v l v' ⟨old, hold, hkept⟩ hc hstep
    obtain ⟨new, hnew, hlater⟩ := step_link hc hstep
    refine ⟨old ++ new, by rw [hnew, hold, List.append_assoc], fun hnone => ?_⟩
    rw [List.mem_append, not_or] at hnone
    exact hlater id c (hkept hnone.1) hnone.2
  obtain ⟨relinked, hrelinks, hkept⟩ := hinv
  rw [hrelinks, List.drop_left] at hnot
  exact hkept hnot

def LinkWorld.Known (w : LinkWorld) : Prop := ∀ f ∈ w.flights, f.Known w.db

theorem LinkWorld.Known.step (hi : w.Known) {l : LinkLabel} (h : LinkWorld.step s w l = some w') : w'.Known := by
  cases l with
  | begin c =>
    cases h
    exact Pool.forall_concat hi (by cases c <;> trivial)
  | drop i =>
    cases h
    exact Pool.forall_eraseIdx hi
  | issue r =>
    obtain ⟨db, hdb, rfl⟩ := Option.map_eq_some_iff.mp h
    intro f hf
    have hknown := hi f hf
    cases f with
    | unlinked id c =>
      change (db.identities.find id).isSome
      rw [identities_insertToken hdb]
      exact hknown
    | _ => trivial
  | run i d =>
    obtain ⟨f, hf, h⟩ := Option.bind_eq_some_iff.mp h
    obtain ⟨o, ho, rfl⟩ := Option.map_eq_some_iff.mp h
    have hran := link_ran ho
    have hrest : ∀ g ∈ w.flights, g.Known o.db := fun g hg => hran.known (hi g hg)
    exact Pool.forall_move hrest fun f' hnext => hran.next hnext

theorem LinkWorld.Known.okLinks (hi : w.Known) : OkLinks s w := by
  intro i d w' id c hstep hanswers
  obtain ⟨f, hf, hstep⟩ := Option.bind_eq_some_iff.mp hstep
  obtain ⟨o, ho, rfl⟩ := Option.map_eq_some_iff.mp hstep
  have hlast : o.answer.toList = [.ok id c] := List.append_cancel_left hanswers
  refine (link_ran ho).ok (hi f (Pool.mem_of_getElem? hf)) ?_
  cases ha : o.answer with
  | none => simp [ha] at hlast
  | some a => simpa [ha] using hlast

end Runs

/-- The reads of a login, with no customer known by the email. -/
def sampleLoginReads : List LinkLabel :=
  [.begin (.verifyEmailLogin ⟨"ada@x", "424242", none, none⟩), .run 0 (sampleDraw 1 [] ""),
   .run 0 (sampleDraw 1 ["IDN-1"] ""), .run 0 (sampleDraw 1 ["LTK-1"] "")]

def sampleLink (i : ℕ) (customerId : String) : List LinkLabel :=
  [.begin (.linkToCustomer "IDN-1" customerId), .run i (sampleDraw 1 [] "")]

end BssCli.PortalAuth
