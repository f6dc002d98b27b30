import BssCli.Lib.Quota
import BssCli.PortalAuth.Agreement
import BssCli.PortalAuth.Lanes

/-!
# Guessing codes

Logins, step-ups and email changes side by side. A login counts the attempts on its email
first and records its own when it has compared the code. The other two count nothing.
-/

namespace BssCli.PortalAuth

open Steps

/-- What a guess is made against. -/
inductive Subject
  | login (email : String)
  | stepUp (identityId : String)
  | emailChange (identityId : String)
  deriving DecidableEq

structure Guess where
  subject : Subject
  time : Time
  deriving DecidableEq

abbrev Verification := Flight ⊕ ChangeFlight

/-- The comparison with a live code that the next step of the call makes. A step whose statement
fails may have made it before that. -/
def guessesOf (d : Draw) (db : AccountDb) : Verification → List Guess
  | .inl (.loginIdentified req now ident) =>
    if (db.portal.activeLogins ident.id).any fun r => now < r.expiresAt then [⟨.login req.email, d.now⟩] else []
  | .inl (.stepUpActive _ actionLabel now identityId) =>
    if (db.portal.activeTokens identityId .stepUp actionLabel).any fun r => now < r.expiresAt then
      [⟨.stepUp identityId, d.now⟩] else []
  | .inr (.called (.verify identityId _)) =>
    if (db.pendingChanges identityId).head?.any fun r => d.now < r.expiresAt then [⟨.emailChange identityId, d.now⟩] else []
  | _ => []

structure GuessWorld where
  clock : Time
  db : AccountDb
  flights : List Verification
  guesses : List Guess

inductive GuessLabel
  | begin (c : Call)
  | beginChange (c : ChangeCall)
  /-- A step, at a time that is not before the last. -/
  | run (i : ℕ) (d : Draw)
  | drop (i : ℕ)
  /-- A code is sent out. -/
  | issue (r : LoginTokenRow)

namespace GuessWorld

def initial (clock : Time) (db : AccountDb) : GuessWorld := ⟨clock, db, [], []⟩

def settle (w : GuessWorld) (i : ℕ) (d : Draw) (f : Verification) (db : AccountDb) (next : Option Verification) :
    GuessWorld where
  clock := d.now
  db
  flights := Pool.move w.flights i next
  guesses := w.guesses ++ guessesOf d w.db f

def runFlight (s : ChangeSettings) (w : GuessWorld) (i : ℕ) (d : Draw) : Verification → Option GuessWorld
  | .inl f => (f.run s.toSettings d w.db.portal).map fun o =>
    w.settle i d (.inl f) { w.db with portal := o.db } (o.next.map .inl)
  | .inr f => (f.run s d w.db).map fun o => w.settle i d (.inr f) o.db (o.next.map .inr)

def step (s : ChangeSettings) (w : GuessWorld) : GuessLabel → Option GuessWorld
  | .begin c => some { w with flights := w.flights ++ [.inl (.called c)] }
  | .beginChange c => some { w with flights := w.flights ++ [.inr (.called c)] }
  | .run i d => if w.clock ≤ d.now then w.flights[i]?.bind (w.runFlight s i d) else none
  | .drop i => some { w with flights := w.flights.eraseIdx i }
  | .issue r => (w.db.portal.insertToken r).map fun portal => { w with db := { w.db with portal } }

/-! ## The limiter of an email -/

/-- Past the count, and before the comparison. -/
def waits (email : String) : Verification → Bool
  | .inl (.loginAllowed req) | .inl (.loginIdentified req _ _) => req.email = email
  | _ => false

/-- Past the comparison, with the attempt not recorded. -/
def guessed (email : String) : Verification → Bool
  | .inl (.loginMatched req _ _ _) => req.email = email
  | _ => false

def attemptsAt (email : String) (attempts : List LoginAttemptRow) : List Time :=
  (attempts.filter fun a => a.email = some email ∧ a.stage = "login_verify").map LoginAttemptRow.ts

def timesOf (subject : Subject) (guesses : List Guess) : List Time :=
  (guesses.filter fun g => g.subject = subject).map Guess.time

def quota (w : GuessWorld) (email : String) : Quota where
  clock := w.clock
  waiting := w.flights.countP (waits email)
  running := w.flights.countP (guessed email)
  starts := timesOf (.login email) w.guesses
  records := attemptsAt email w.db.portal.attempts

/-- The email that a login counts the attempts on. -/
def entering : Verification → Option String
  | .inl (.called (.verifyEmailLogin req)) => some req.email
  | _ => none

def evaluated : Verification → Option String
  | .inl (.loginMatched req _ _ _) => some req.email
  | _ => none

def isLogin : Subject → Bool
  | .login _ => true
  | _ => false

/-- A login is let in only where there is room for it beside the ones that are let in and not
recorded, what it compares is recorded, and no other code is compared. -/
def Counts (s : ChangeSettings) (w : GuessWorld) : GuessLabel → Prop
  | .run i d => ∀ f ∈ w.flights[i]?,
    (∀ email ∈ entering f,
      ((countInWindow w.db.portal email "login_verify" s.verifyPerEmailWindowS d.now).length : ℤ) < s.verifyPerEmailMax →
      Quota.HasRoom (seconds s.verifyPerEmailWindowS) s.verifyPerEmailMax.toNat { w.quota email with clock := d.now }) ∧
    (∀ g ∈ guessesOf d w.db f, isLogin g.subject ∧ d.dbOk) ∧
    (∀ _ ∈ evaluated f, d.dbOk ∧ w.db.portal.sessions.find d.freshId = none)
  | .drop i => ∀ f ∈ w.flights[i]?, evaluated f = none
  | _ => True

instance (s : ChangeSettings) (w : GuessWorld) : (l : GuessLabel) → Decidable (w.Counts s l)
  | .run .. => inferInstanceAs (Decidable (∀ f ∈ _, (∀ email ∈ _, _ → _) ∧ (∀ g ∈ _, _) ∧ (∀ _ ∈ _, _)))
  | .drop _ => inferInstanceAs (Decidable (∀ f ∈ _, _ = _))
  | .begin _ | .beginChange _ | .issue _ => inferInstanceAs (Decidable True)

/-! ## The law -/

/-- The records that a guess counts in. A step-up and an email change have none. -/
def recordsOf (w : GuessWorld) : Subject → List Time
  | .login email => attemptsAt email w.db.portal.attempts
  | _ => []

/-- Guesses that are made and about to be recorded. -/
def evaluating (w : GuessWorld) : Subject → ℕ
  | .login email => w.flights.countP (guessed email)
  | _ => 0

/-- No window has more guesses than there may be, and each guess of an open window counts. -/
structure GuessesBounded (s : ChangeSettings) (w : GuessWorld) : Prop where
  bounded : ∀ subject t,
    Quota.inWindow (seconds s.verifyPerEmailWindowS) (timesOf subject w.guesses) t ≤ s.verifyPerEmailMax.toNat
  counted : ∀ subject t, w.clock ≤ t + seconds s.verifyPerEmailWindowS →
    Quota.since (timesOf subject w.guesses) t ≤ Quota.since (w.recordsOf subject) t + w.evaluating subject

/-! ## What a step does to the limiter -/

section Settle

variable {w : GuessWorld} {i : ℕ} {d : Draw} {f : Verification} {db : AccountDb} {next : Option Verification}
  {email : String}

theorem timesOf_append (subject : Subject) (guesses new : List Guess) :
    timesOf subject (guesses ++ new) = timesOf subject guesses ++ timesOf subject new := by
  simp [timesOf]

theorem quota_settle (hf : w.flights[i]? = some f) :
    (w.settle i d f db next).quota email =
      { clock := d.now
        waiting := (w.quota email).waiting + (if next.any (waits email) then 1 else 0) - if waits email f then 1 else 0
        running := (w.quota email).running + (if next.any (guessed email) then 1 else 0) - if guessed email f then 1 else 0
        starts := (w.quota email).starts ++ timesOf (.login email) (guessesOf d w.db f)
        records := attemptsAt email db.portal.attempts } := by
  have hwait := Pool.countP_move (o := next) (waits email) hf
  have hrun := Pool.countP_move (o := next) (guessed email) hf
  refine Quota.ext rfl ?_ ?_ (timesOf_append ..) rfl
  · change List.countP _ (Pool.move w.flights i next) = List.countP _ w.flights + _ - _
    omega
  · change List.countP _ (Pool.move w.flights i next) = List.countP _ w.flights + _ - _
    omega

theorem waiting_pos (hf : w.flights[i]? = some f) (h : waits email f) : 0 < (w.quota email).waiting :=
  List.countP_pos_iff.mpr ⟨f, Pool.mem_of_getElem? hf, h⟩

theorem running_pos (hf : w.flights[i]? = some f) (h : guessed email f) : 0 < (w.quota email).running :=
  List.countP_pos_iff.mpr ⟨f, Pool.mem_of_getElem? hf, h⟩

end Settle

/-! ### Steps that no limiter sees -/

def loginEmail : Verification → Option String
  | .inl (.called (.verifyEmailLogin req)) | .inl (.loginAllowed req) | .inl (.loginIdentified req _ _)
  | .inl (.loginMatched req _ _ _) => some req.email
  | _ => none

section Other

variable {s : Settings} {d : Draw} {db : Db} {f : Flight} {o : Outcome}

theorem lane_of_loginEmail (h : loginEmail (.inl f) = none) : f.lane ≠ .login := by
  cases f with
  | called c => cases c <;> simp_all [loginEmail, Flight.lane, Call.lane]
  | _ => simp_all [loginEmail, Flight.lane]

theorem loginEmail_of_lane (h : f.lane ≠ .login) : loginEmail (.inl f) = none := by
  cases f with
  | called c => cases c <;> simp_all [loginEmail, Flight.lane, Call.lane]
  | _ => simp_all [loginEmail, Flight.lane]

/-- Nothing is recorded, and no login comes of it. -/
structure Unseen (db : Db) (o : Outcome) : Prop where
  attempts : o.db.attempts = db.attempts
  next : ∀ f' ∈ o.next, loginEmail (.inl f') = none

theorem unseen_of_keeps (hf : loginEmail (.inl f) = none) (h : Keeps db f.lane o) : Unseen db o := by
  have hlane : f.lane ≠ .login := lane_of_loginEmail hf
  refine ⟨h.attempts hlane, fun f' hf' => loginEmail_of_lane ?_⟩
  rw [h.next f' hf']
  exact hlane

end Other

section Steps

variable {s : ChangeSettings} {w w' : GuessWorld} {i : ℕ} {d : Draw}

theorem waits_of_ne {f : Verification} {email : String} (h : loginEmail f ≠ some email) : waits email f = false := by
  unfold waits
  split <;> simp_all [loginEmail]

theorem guessed_of_ne {f : Verification} {email : String} (h : loginEmail f ≠ some email) : guessed email f = false := by
  unfold guessed
  split <;> simp_all [loginEmail]

/-- Of a call that is no login of the email, only the clock is seen. -/
theorem quota_unseen {f : Verification} {db : AccountDb} {next : Option Verification} {email : String}
    (hf : w.flights[i]? = some f) (hlogin : loginEmail f ≠ some email)
    (hattempts : attemptsAt email db.portal.attempts = attemptsAt email w.db.portal.attempts)
    (hnext : ∀ f' ∈ next, loginEmail f' ≠ some email) :
    (w.settle i d f db next).quota email = { w.quota email with clock := d.now } := by
  have hnextWaits : next.any (waits email) = false := by
    cases next with
    | none => rfl
    | some f' => exact waits_of_ne (hnext f' rfl)
  have hnextGuessed : next.any (guessed email) = false := by
    cases next with
    | none => rfl
    | some f' => exact guessed_of_ne (hnext f' rfl)
  have hguesses : timesOf (.login email) (guessesOf d w.db f) = [] := by
    unfold guessesOf
    split <;> (try split) <;> simp_all [timesOf, loginEmail]
  rw [quota_settle hf, waits_of_ne hlogin, guessed_of_ne hlogin, hnextWaits, hnextGuessed, hguesses, hattempts]
  simp [quota]

/-! ### Steps of a login -/

def Within (s : ChangeSettings) (w : GuessWorld) : Prop :=
  ∀ email, Quota.Inv (seconds s.verifyPerEmailWindowS) s.verifyPerEmailMax.toNat (w.quota email)

theorem Within.unseen (hi : Within s w) (hclock : w.clock ≤ d.now) {f : Verification} {db : AccountDb}
    {next : Option Verification} (hf : w.flights[i]? = some f) (hlogin : loginEmail f = none)
    (hattempts : db.portal.attempts = w.db.portal.attempts) (hnext : ∀ f' ∈ next, loginEmail f' = none) :
    Within s (w.settle i d f db next) := by
  intro email
  rw [quota_unseen hf (by simp [hlogin]) (by rw [hattempts]) fun f' hf' => by simp [hnext f' hf']]
  exact (hi email).tick hclock

theorem Within.of_own (hi : Within s w) (hclock : w.clock ≤ d.now) {f : Verification} {db : AccountDb}
    {next : Option Verification} {own : String} (hf : w.flights[i]? = some f) (hlogin : loginEmail f = some own)
    (hattempts : ∀ email, own ≠ email → attemptsAt email db.portal.attempts = attemptsAt email w.db.portal.attempts)
    (hnext : ∀ f' ∈ next, loginEmail f' = some own)
    (hown : Quota.Inv (seconds s.verifyPerEmailWindowS) s.verifyPerEmailMax.toNat ((w.settle i d f db next).quota own)) :
    Within s (w.settle i d f db next) := by
  intro email
  by_cases he : own = email
  · exact he ▸ hown
  · rw [quota_unseen hf (by simpa [hlogin] using he) (hattempts email he) fun f' hf' => by simpa [hnext f' hf'] using he]
    exact (hi email).tick hclock

theorem attemptsAt_record (email email' : String) (ip : Option String) (ts : Time) (reason : String)
    (attempts : List LoginAttemptRow) :
    attemptsAt email (attempts ++ [⟨some email', ip, ts, reason, "login_verify"⟩]) =
      attemptsAt email attempts ++ if email' = email then [ts] else [] := by
  simp only [attemptsAt, List.filter_append, List.map_append, List.filter_cons, List.filter_nil]
  by_cases h : email' = email <;> simp [h]

theorem countInWindow_length (db : Db) (email : String) (windowS : ℤ) (now : Time) :
    (countInWindow db email "login_verify" windowS now).length =
      Quota.since (attemptsAt email db.attempts) (now - seconds windowS) := by
  rw [countInWindow, Quota.since, attemptsAt, List.countP_map, List.countP_filter, ← List.countP_eq_length_filter]
  refine List.countP_congr fun a _ => ?_
  simp only [Function.comp_apply, decide_eq_true_eq, Bool.and_eq_true]
  tauto

section Login

variable {req : VerifyLogin} {now : Time} {ident : IdentityRow}

/-- The limiter of the login's email, at the time of the step. -/
def ownQuota (w : GuessWorld) (req : VerifyLogin) (d : Draw) : Quota := { w.quota req.email with clock := d.now }

theorem Within.entered (hi : Within s w) (hclock : w.clock ≤ d.now)
    (hf : w.flights[i]? = some (.inl (.called (.verifyEmailLogin req))))
    (hroom : (countInWindow w.db.portal req.email "login_verify" s.verifyPerEmailWindowS d.now).length <
        s.verifyPerEmailMax →
      Quota.HasRoom (seconds s.verifyPerEmailWindowS) s.verifyPerEmailMax.toNat (w.ownQuota req d)) :
    ∀ o, o = enforceLoginVerify s.toSettings d w.db.portal req →
      Within s (w.settle i d (.inl (.called (.verifyEmailLogin req))) { w.db with portal := o.db } (o.next.map .inl)) := by
  rintro o rfl
  have htick := (hi req.email).tick hclock
  unfold enforceLoginVerify
  dsimp only
  split
  · refine hi.of_own hclock hf rfl (fun _ _ => rfl) (by simp [ends]) ?_
    rw [quota_settle hf]
    simpa [ends, waits, guessed, guessesOf, timesOf, quota] using htick
  · rename_i hlt
    refine hi.of_own hclock hf rfl (fun _ _ => rfl) (by simp [goes, loginEmail]) ?_
    rw [quota_settle hf]
    simpa [goes, waits, guessed, guessesOf, timesOf, quota, Quota.letIn] using htick.letIn (hroom (by omega))

theorem Within.left (hi : Within s w) (hclock : w.clock ≤ d.now) {f : Verification} (hf : w.flights[i]? = some f)
    (hlogin : loginEmail f = some req.email) (hwaits : waits req.email f) (hguessed : guessed req.email f = false)
    (hguesses : guessesOf d w.db f = []) : Within s (w.settle i d f w.db none) := by
  refine hi.of_own hclock hf hlogin (fun _ _ => rfl) (by simp) ?_
  rw [quota_settle hf]
  simpa [hwaits, hguessed, hguesses, timesOf, quota] using ((hi req.email).tick hclock).leave

theorem Within.noted (hi : Within s w) (hclock : w.clock ≤ d.now) {f : Verification} (hf : w.flights[i]? = some f)
    (hlogin : loginEmail f = some req.email) (hwaits : waits req.email f) (hguessed : guessed req.email f = false)
    (hguesses : guessesOf d w.db f = []) (reason : String) :
    Within s (w.settle i d f { w.db with portal := (failLogin d w.db.portal req reason).db } none) := by
  refine hi.of_own hclock hf hlogin (fun email he => ?_) (by simp) ?_
  · simp [failLogin, ends, Db.recordAttempt, attemptsAt_record, he]
  · rw [quota_settle hf]
    simpa [hwaits, hguessed, hguesses, timesOf, quota, failLogin, ends, Db.recordAttempt, attemptsAt_record] using
      ((hi req.email).tick hclock).leave.note d.now

theorem Within.identified (hi : Within s w) (hclock : w.clock ≤ d.now)
    (hf : w.flights[i]? = some (.inl (.loginAllowed req))) {o : Outcome} (ho : identify d w.db.portal req = some o) :
    Within s (w.settle i d (.inl (.loginAllowed req)) { w.db with portal := o.db } (o.next.map .inl)) := by
  obtain ⟨rows, -, rfl⟩ := Option.map_eq_some_iff.mp ho
  split
  · exact hi.noted hclock hf rfl (by simp [waits]) rfl rfl _
  · refine hi.of_own hclock hf rfl (fun _ _ => rfl) (by simp [goes, loginEmail]) ?_
    rw [quota_settle hf]
    simpa [goes, waits, guessed, guessesOf, timesOf, quota] using (hi req.email).tick hclock

theorem guesses_identified (h : guessesOf d w.db (.inl (.loginIdentified req now ident)) ≠ []) :
    guessesOf d w.db (.inl (.loginIdentified req now ident)) = [⟨.login req.email, d.now⟩] := by
  simp only [guessesOf, ne_eq, ite_eq_right_iff, reduceCtorEq, imp_false, not_not] at h ⊢
  rw [if_pos h]

theorem Within.compared (hi : Within s w) (hclock : w.clock ≤ d.now)
    (hf : w.flights[i]? = some (.inl (.loginIdentified req now ident))) {o : Outcome}
    (ho : matchLogin s.toSettings d w.db.portal req now ident = some o) :
    Within s (w.settle i d (.inl (.loginIdentified req now ident)) { w.db with portal := o.db } (o.next.map .inl)) := by
  obtain ⟨rows, hrows, rfl⟩ := Option.map_eq_some_iff.mp ho
  have hwaits : waits req.email (.inl (.loginIdentified req now ident)) := by simp [waits]
  have hpos : 0 < (w.ownQuota req d).waiting := waiting_pos hf hwaits
  have hstarted := ((hi req.email).tick hclock).start hpos
  split
  · by_cases hguesses : guessesOf d w.db (.inl (.loginIdentified req now ident)) = []
    · exact hi.noted hclock hf rfl hwaits rfl hguesses _
    · refine hi.of_own hclock hf rfl (fun email he => ?_) (by simp [failLogin, ends]) ?_
      · simp [failLogin, ends, Db.recordAttempt, attemptsAt_record, he]
      · rw [quota_settle hf, guesses_identified hguesses]
        simpa [failLogin, ends, Db.recordAttempt, attemptsAt_record, waits, guessed, timesOf, quota, Quota.start,
          Quota.record] using hstarted.record (Nat.succ_pos _)
  · rename_i token htoken
    have hguesses : guessesOf d w.db (.inl (.loginIdentified req now ident)) ≠ [] := by
      have hmem := List.mem_of_find?_eq_some htoken
      have hlive := List.find?_some htoken
      simp only [Bool.decide_and, Bool.and_eq_true, decide_eq_true_eq] at hlive
      have hany : ((w.db.portal.activeLogins ident.id).any fun r => now < r.expiresAt) = true :=
        List.any_eq_true.mpr ⟨token, (perm_of_inOrder hrows).mem_iff.mp hmem, by simpa using hlive.1⟩
      simp [guessesOf, hany]
    refine hi.of_own hclock hf rfl (fun _ _ => rfl) (by simp [goes, loginEmail]) ?_
    rw [quota_settle hf, guesses_identified hguesses]
    simpa [goes, waits, guessed, timesOf, quota, Quota.start] using hstarted

theorem Within.committed (hi : Within s w) (hclock : w.clock ≤ d.now) {token : LoginTokenRow}
    (hf : w.flights[i]? = some (.inl (.loginMatched req now ident token)))
    (hfree : w.db.portal.sessions.find d.freshId = none) :
    ∀ o, o = commitLogin s.toSettings d w.db.portal req now ident token →
      Within s (w.settle i d (.inl (.loginMatched req now ident token)) { w.db with portal := o.db } (o.next.map .inl)) := by
  rintro o rfl
  have hpos : 0 < (w.ownQuota req d).running := running_pos hf (by simp [guessed])
  have hrecorded := ((hi req.email).tick hclock).record hpos
  unfold commitLogin
  dsimp only
  split
  · rename_i hnone
    have hins := Option.map_eq_none_iff.mp hnone
    have hsome := (w.db.portal.sessions.insert_isSome (r := loginSession s.toSettings d req now ident)).mpr
      fun r hr heq => by
        have := w.db.portal.sessions.find_eq_none.mp hfree
        exact this (List.mem_map.mpr ⟨r, hr, heq⟩)
    rw [show w.db.portal.sessions.insert _ = none from hins] at hsome
    simp at hsome
  · rename_i db' hins
    obtain ⟨sessions, -, rfl⟩ := Option.map_eq_some_iff.mp hins
    refine hi.of_own hclock hf rfl (fun email he => ?_) (by simp [ends]) ?_
    · simp [ends, Db.recordAttempt, attemptsAt_record, he, Db.logIn, Db.consumeToken]
    · rw [quota_settle hf]
      simpa [ends, Db.recordAttempt, attemptsAt_record, waits, guessed, guessesOf, timesOf, quota, Quota.record,
        Db.logIn, Db.consumeToken] using hrecorded

theorem Within.failed (hi : Within s w) (hclock : w.clock ≤ d.now) {f : Flight} (hf : w.flights[i]? = some (.inl f))
    (hguesses : guessesOf d w.db (.inl f) = []) (hevaluated : evaluated (.inl f) = none) :
    Within s (w.settle i d (.inl f) { w.db with portal := (f.fail w.db.portal).db } ((f.fail w.db.portal).next.map .inl)) := by
  cases hlogin : loginEmail (.inl f) with
  | none =>
    have hunseen : Unseen w.db.portal (f.fail w.db.portal) := unseen_of_keeps hlogin (keeps_fail f)
    refine hi.unseen hclock hf hlogin hunseen.attempts ?_
    simpa using hunseen.next
  | some email =>
    cases f with
    | called c =>
      cases c with
      | verifyEmailLogin req =>
        refine hi.of_own hclock hf rfl (fun _ _ => rfl) (by simp [Flight.fail, ends]) ?_
        rw [quota_settle hf]
        simpa [Flight.fail, ends, waits, guessed, guessesOf, timesOf, quota] using (hi req.email).tick hclock
      | _ => simp [loginEmail] at hlogin
    | loginAllowed req => exact hi.left hclock hf rfl (by simp [waits]) rfl rfl
    | loginIdentified req now ident => exact hi.left hclock hf rfl (by simp [waits]) rfl hguesses
    | loginMatched req now ident token => simp [evaluated] at hevaluated
    | _ => simp [loginEmail] at hlogin

end Login

theorem Within.run (hi : Within s w) (hclock : w.clock ≤ d.now) {f : Flight} (hf : w.flights[i]? = some (.inl f))
    (hc : w.Counts s (.run i d)) {o : Outcome} (ho : f.run s.toSettings d w.db.portal = some o) :
    Within s (w.settle i d (.inl f) { w.db with portal := o.db } (o.next.map .inl)) := by
  obtain ⟨hroom, hguesses, hcommit⟩ := hc _ hf
  unfold Flight.run at ho
  split at ho
  · cases hlogin : loginEmail (.inl f) with
    | none =>
      have hunseen := unseen_of_keeps hlogin (keeps_next ho)
      refine hi.unseen hclock hf hlogin hunseen.attempts ?_
      simpa using hunseen.next
    | some email =>
      cases f with
      | called c =>
        cases c with
        | verifyEmailLogin req => exact hi.entered hclock hf (hroom req.email rfl) o (Option.some.inj ho).symm
        | _ => simp [loginEmail] at hlogin
      | loginAllowed req => exact hi.identified hclock hf ho
      | loginIdentified req now ident => exact hi.compared hclock hf ho
      | loginMatched req now ident token =>
        exact hi.committed hclock hf (hcommit req.email rfl).2 o (Option.some.inj ho).symm
      | _ => simp [loginEmail] at hlogin
  · rename_i hok
    cases ho
    refine hi.failed hclock hf ?_ ?_
    · exact List.eq_nil_iff_forall_not_mem.mpr fun g hg => hok (hguesses g hg).2
    · exact Option.eq_none_iff_forall_not_mem.mpr fun email hemail => hok (hcommit email hemail).1

theorem Within.runChange (hi : Within s w) (hclock : w.clock ≤ d.now) {f : ChangeFlight}
    (hf : w.flights[i]? = some (.inr f)) {o : ChangeOutcome} (ho : f.run s d w.db = some o) :
    Within s (w.settle i d (.inr f) o.db (o.next.map .inr)) := by
  refine hi.unseen hclock hf rfl ?_ (by simp [loginEmail])
  cases change_ran ho with
  | read hdb => rw [hdb]
  | started a ha hdb =>
    obtain ⟨changes, -, rfl⟩ := startChange_eq_some hdb
    rfl
  | _ => rfl

def OnlyLogins (w : GuessWorld) : Prop := ∀ g ∈ w.guesses, isLogin g.subject

theorem step_within (hi : Within s w) (hlogins : w.OnlyLogins) {l : GuessLabel} (hc : w.Counts s l)
    (h : step s w l = some w') : Within s w' ∧ w'.OnlyLogins := by
  cases l with
  | begin c =>
    cases h
    refine ⟨fun email => ?_, hlogins⟩
    have hsame : quota { w with flights := w.flights ++ [.inl (.called c)] } email = w.quota email := by
      simp [quota, waits, guessed]
    exact hsame ▸ hi email
  | beginChange c =>
    cases h
    refine ⟨fun email => ?_, hlogins⟩
    have hsame : quota { w with flights := w.flights ++ [.inr (.called c)] } email = w.quota email := by
      simp [quota, waits, guessed]
    exact hsame ▸ hi email
  | issue r =>
    obtain ⟨portal, hportal, rfl⟩ := Option.map_eq_some_iff.mp h
    obtain ⟨tokens, -, rfl⟩ := Option.map_eq_some_iff.mp hportal
    exact ⟨hi, hlogins⟩
  | drop i =>
    cases h
    refine ⟨fun email => ?_, hlogins⟩
    cases hf : w.flights[i]? with
    | none =>
      have hsame : w.flights.eraseIdx i = w.flights := List.eraseIdx_of_length_le (List.getElem?_eq_none_iff.mp hf)
      rw [hsame]
      exact hi email
    | some f =>
      have hwait := Pool.countP_eraseIdx (waits email) hf
      have hrun := Pool.countP_eraseIdx (guessed email) hf
      have hnot : guessed email f = false := by
        have := hc f hf
        unfold guessed
        split <;> simp_all [evaluated]
      simp only [hnot, Bool.false_eq_true, if_false, Nat.add_zero] at hrun
      refine (hi email).mono rfl le_rfl ?_ fun t _ hcovered => ?_
      · change List.countP _ (w.flights.eraseIdx i) ≤ List.countP _ w.flights
        omega
      · change _ ≤ _ + List.countP _ (w.flights.eraseIdx i)
        rw [← hrun]
        exact hcovered
  | run i d =>
    obtain ⟨hclock, h⟩ := Option.ite_none_right_eq_some.mp h
    obtain ⟨f, hf, h⟩ := Option.bind_eq_some_iff.mp h
    have hmore : ∀ db next, (w.settle i d f db next).OnlyLogins := by
      intro db next g hg
      rcases List.mem_append.mp hg with hg | hg
      · exact hlogins g hg
      · exact ((hc f hf).2.1 g hg).1
    cases f with
    | inl f =>
      obtain ⟨o, ho, rfl⟩ := Option.map_eq_some_iff.mp h
      exact ⟨hi.run hclock hf hc ho, hmore _ _⟩
    | inr f =>
      obtain ⟨o, ho, rfl⟩ := Option.map_eq_some_iff.mp h
      exact ⟨hi.runChange hclock hf ho, hmore _ _⟩

theorem Within.bounded (hi : Within s w) (hlogins : w.OnlyLogins) : w.GuessesBounded s := by
  have hnone : ∀ subject, isLogin subject = false → timesOf subject w.guesses = [] := by
    intro subject hsubject
    rw [timesOf, List.map_eq_nil_iff, List.filter_eq_nil_iff]
    intro g hg heq
    have := hlogins g hg
    simp_all
  refine ⟨fun subject t => ?_, fun subject t ht => ?_⟩
  · cases subject with
    | login email => exact (hi email).bounded t
    | stepUp id => simp [hnone (.stepUp id) rfl, Quota.inWindow]
    | emailChange id => simp [hnone (.emailChange id) rfl, Quota.inWindow]
  · cases subject with
    | login email => exact (hi email).covered t ht
    | stepUp id => simp [hnone (.stepUp id) rfl, Quota.since]
    | emailChange id => simp [hnone (.emailChange id) rfl, Quota.since]

end Steps

end GuessWorld

/-- In every run in which each login that is let in finds room beside the ones before it, what
it compares is recorded, and nothing else is compared, the guesses of every window are bounded. -/
theorem guesses_bounded (s : ChangeSettings) (clock : Time) (db : AccountDb) (ls : List GuessLabel) (w : GuessWorld)
    (h : exec (guarded (GuessWorld.Counts s) (GuessWorld.step s)) (GuessWorld.initial clock db) ls = some w) :
    w.GuessesBounded s := by
  have hinit : GuessWorld.Within s (GuessWorld.initial clock db) ∧ (GuessWorld.initial clock db).OnlyLogins :=
    ⟨fun email => Quota.inv_of_nil rfl rfl, by simp [GuessWorld.OnlyLogins, GuessWorld.initial]⟩
  obtain ⟨hi, hlogins⟩ := guarded_inv (P := fun w => GuessWorld.Within s w ∧ w.OnlyLogins)
    (fun w l w' hi hc hs => GuessWorld.step_within hi.1 hi.2 hc hs) hinit h
  exact hi.bounded hlogins

/-- One attempt in a quarter of an hour. -/
def strictSettings : ChangeSettings := { sampleChangeSettings with verifyPerEmailMax := 1 }

def sampleGuess (code : String) : Call := .verifyEmailLogin ⟨"ada@x", code, none, none⟩

def sampleGuessDb : AccountDb := { sampleAccounts with portal := sampleDb }

/-- A wrong code, and a second guess that is refused. -/
theorem guesses_bounded_refused :
    let w := (exec (guarded (GuessWorld.Counts strictSettings) (GuessWorld.step strictSettings))
      (GuessWorld.initial 0 sampleGuessDb)
      [.begin (sampleGuess "1"), .run 0 (sampleDraw 1 [] ""), .run 0 (sampleDraw 2 ["IDN-1"] ""),
       .run 0 (sampleDraw 3 ["LTK-1"] ""), .begin (sampleGuess "2"), .run 0 (sampleDraw 4 [] "")]).get (by decide +kernel)
    w.guesses = [⟨.login "ada@x", seconds 3⟩] ∧ w.flights.length = 0 ∧ w.GuessesBounded strictSettings := by
  intro w
  exact ⟨by decide +kernel, by decide +kernel, guesses_bounded strictSettings 0 sampleGuessDb _ w (Option.some_get _).symm⟩

/-- A guess at the step-up code, and one at the code of an email change. -/
def guessStepUp (now : ℤ) : List GuessLabel :=
  [.begin (.verifyStepUp "SES-1" "0" "vas_purchase"), .run 0 (sampleDraw now [] ""), .run 0 (sampleDraw now ["LTK-2"] "")]

def guessChange (now : ℤ) : List GuessLabel := [.beginChange (.verify "IDN-1" "0"), .run 0 (sampleDraw now [] "")]

/-- Two logins count before either is recorded. Eleven guesses at a step-up, and at an email
change, where ten are allowed. -/
theorem guesses_unbounded :
    (∃ w, exec (GuessWorld.step strictSettings) (GuessWorld.initial 0 sampleGuessDb)
        [.begin (sampleGuess "1"), .begin (sampleGuess "2"), .run 0 (sampleDraw 1 [] ""), .run 1 (sampleDraw 1 [] ""),
         .run 0 (sampleDraw 2 ["IDN-1"] ""), .run 1 (sampleDraw 2 ["IDN-1"] ""), .run 0 (sampleDraw 3 ["LTK-1"] ""),
         .run 0 (sampleDraw 3 ["LTK-1"] "")] = some w ∧ ¬ w.GuessesBounded strictSettings) ∧
    (∃ w, exec (GuessWorld.step sampleChangeSettings) (GuessWorld.initial 0 sampleGuessDb)
        ((List.replicate 11 (guessStepUp 1)).flatten) = some w ∧ ¬ w.GuessesBounded sampleChangeSettings) ∧
    ∃ w, exec (GuessWorld.step sampleChangeSettings) (GuessWorld.initial 0 sampleGuessDb)
        ([.beginChange (.start "IDN-1" "ada@y"), .run 0 (sampleDraw 1 [] ""), .run 0 (sampleDraw 1 [] "ECP-1")] ++
          (List.replicate 11 (guessChange 2)).flatten) = some w ∧ ¬ w.GuessesBounded sampleChangeSettings := by
  refine ⟨⟨_, rfl, fun h => ?_⟩, ⟨_, rfl, fun h => ?_⟩, _, rfl, fun h => ?_⟩
  · have hbound := h.bounded (.login "ada@x") (seconds 1)
    revert hbound
    decide +kernel
  · have hbound := h.bounded (.stepUp "IDN-1") (seconds 1)
    revert hbound
    decide +kernel
  · have hbound := h.bounded (.emailChange "IDN-1") (seconds 1)
    revert hbound
    decide +kernel

end BssCli.PortalAuth
