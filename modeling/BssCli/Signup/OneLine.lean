import BssCli.Lib.Pool
import BssCli.Lib.Steps
import BssCli.Signup.Session

/-!
# One signup, one line

Handlers of one session side by side. Each checks the step on its copy.
-/

namespace BssCli.Signup

open Steps

/-- The store, up to this session. -/
structure SignupWorld where
  stored : Option SignupSession
  flights : List SignupFlight
  effects : List Effect
  /-- The steps that were stored, in order. -/
  steps : List SignupStep

inductive SignupLabel
  | request (r : Request) (identityId : String) (now : Time)
  | run (i : ℕ) (r : Response)
  /-- The client goes away, the process dies. -/
  | drop (i : ℕ)
  /-- Any other read of the store, which drops what has run out. -/
  | look (now : Time)

namespace SignupWorld

def initial (sig : SignupSession) : SignupWorld := ⟨some sig, [], [], [sig.step]⟩

def prune (s : Settings) (now : Time) (w : SignupWorld) : SignupWorld :=
  { w with stored := w.stored.filter fun sig => now - sig.createdAt < s.ttl }

/-- `resolve`, with the check of the owner. -/
def resolve (w : SignupWorld) (identityId : String) : Option SignupSession :=
  w.stored.filter fun sig => sig.identityId = none ∨ sig.identityId = some identityId

def settle (w : SignupWorld) (i : ℕ) (o : Outcome) : SignupWorld where
  stored := o.write.or w.stored
  flights := Pool.move w.flights i o.next
  effects := w.effects ++ o.effect.toList
  steps := w.steps ++ (o.write.map SignupSession.step).toList

def step (s : Settings) (w : SignupWorld) : SignupLabel → Option SignupWorld
  | .request r identityId now =>
    let pruned := w.prune s now
    let flights := ((pruned.resolve identityId).bind fun sig => r.enter s sig).toList
    some { pruned with flights := pruned.flights ++ flights }
  | .run i r => w.flights[i]?.bind fun f => (f.run s r).map (w.settle i)
  | .drop i => some { w with flights := w.flights.eraseIdx i }
  | .look now => some (w.prune s now)

end SignupWorld

/-! ## One at a time -/

/-- The step of the session when the handler read it. -/
def SignupFlight.readStep : SignupFlight → SignupStep
  | .initiating sig | .corroborating sig _ | .fetching sig _ | .attesting sig _ | .addingCard sig _ | .ensuring sig
  | .checkingOut sig _ | .retrieving sig _ | .extracting sig _ | .registering sig _ | .ordering sig | .submitting sig _
  | .polling sig _ => sig.step
  | .storing read _ _ => read

/-- How far the session is when the handler has written back what it has bought. -/
def SignupFlight.brings : SignupFlight → ℕ
  | .submitting .. => SignupStep.pendingActivation.rank
  | .storing _ sig owes => if owes then sig.step.rank else 0
  | _ => 0

/-- The next step buys something, or writes. -/
def SignupFlight.commits : SignupFlight → Bool
  | .addingCard .. | .registering .. | .ordering _ | .submitting .. | .storing .. => true
  | _ => false

/-- What is bought is answered. An order that is placed is submitted, or refused. -/
def SignupFlight.answered : SignupFlight → Response → Bool
  | .addingCard .., .reply (.error done) | .registering .., .reply (.error done) | .ordering _, .reply (.error done) => ! done
  | .submitting .., .reply (.error _) => false
  | _, _ => true

/-- A handler buys and writes while the session is at the step that it has read, and no other
handler has something bought to write back. What it has bought it does write back. -/
def SignupWorld.OneAtATime (w : SignupWorld) : SignupLabel → Prop
  | .run i r => ∀ f ∈ w.flights[i]?, f.commits →
    w.stored.map SignupSession.step = some f.readStep ∧ (∀ g ∈ w.flights.eraseIdx i, g.brings = 0) ∧ f.answered r
  | .drop i => ∀ f ∈ w.flights[i]?, f.brings = 0
  | _ => True

instance (w : SignupWorld) : (l : SignupLabel) → Decidable (w.OneAtATime l)
  | .run .. => inferInstanceAs (Decidable (∀ f ∈ _, _ → _))
  | .drop _ => inferInstanceAs (Decidable (∀ f ∈ _, _))
  | .request .. | .look _ => inferInstanceAs (Decidable True)

structure OneLine (w : SignupWorld) : Prop where
  cards : w.effects.count .card ≤ 1
  orders : w.effects.count .order ≤ 1
  submitted : w.effects.count .submit ≤ 1
  forward : w.steps.Pairwise fun a b => a.rank ≤ b.rank

/-! ## What a handler does -/

/-- The handler is at a place that its step lets it come to. -/
def SignupFlight.Consistent : SignupFlight → Prop
  | .initiating sig => sig.step = .pendingKyc
  | .corroborating sig _ => sig.step = .pendingKycHandoff
  | .fetching sig _ | .attesting sig _ => sig.step.rank ≤ SignupStep.pendingKycHandoff.rank
  | .addingCard sig _ | .ensuring sig | .checkingOut sig _ | .retrieving sig _ | .extracting sig _ | .registering sig _ =>
    sig.step.rank ≤ SignupStep.pendingCofElements.rank
  | .ordering sig | .submitting sig _ => sig.step = .pendingOrder
  | .polling sig _ => sig.step = .pendingActivation
  | .storing read sig _ => read.rank ≤ sig.step.rank

def SignupFlight.isSubmitting : SignupFlight → Bool
  | .submitting .. => true
  | _ => false

/-- A place with nothing bought. -/
structure Free (f : SignupFlight) : Prop where
  consistent : f.Consistent
  brings : f.brings = 0
  submitting : f.isSubmitting = false

inductive SignupRan : SignupFlight → Outcome → Prop
  | free {f next} (hf : f.brings = 0) (hsub : f.isSubmitting = false) (hnext : ∀ f' ∈ next, Free f') :
      SignupRan f ⟨next, none, none⟩
  | card {f sig} (hf : f.brings = 0) (hsub : f.isSubmitting = false) (hcommits : f.commits)
      (hread : f.readStep.rank ≤ SignupStep.pendingCofElements.rank) (hsig : sig.step = .pendingOrder) :
      SignupRan f ⟨some (.storing f.readStep sig true), none, some .card⟩
  | order {sig orderId} (hread : sig.step = .pendingOrder) :
      SignupRan (.ordering sig) ⟨some (.submitting sig orderId), none, some .order⟩
  | unnamed {sig} (hread : sig.step = .pendingOrder) :
      SignupRan (.ordering sig) ⟨some (fails sig "signup.create_order.no_id" true), none, some .order⟩
  | submit {sig sig' orderId} (hread : sig.step = .pendingOrder) (hsig : sig'.step = .pendingActivation) :
      SignupRan (.submitting sig orderId) ⟨some (.storing sig.step sig' true), none, some .submit⟩
  | refused {sig orderId rule} (hread : sig.step = .pendingOrder) :
      SignupRan (.submitting sig orderId) (goes (fails sig rule true))
  | write {read sig owes} (hread : read.rank ≤ sig.step.rank) : SignupRan (.storing read sig owes) ⟨none, some sig, none⟩

section Ran

variable {s : Settings} {sig : SignupSession} {f f' : SignupFlight} {r : Response} {o : Outcome}

theorem free_stores {sig' : SignupSession} (h : sig.step.rank ≤ sig'.step.rank) : Free (.storing sig.step sig' false) :=
  ⟨h, rfl, rfl⟩

theorem rank_le_failed (step : SignupStep) : step.rank ≤ SignupStep.failed.rank := by
  cases step <;> decide

theorem free_fails (rule : String) : Free (fails sig rule false) := free_stores (rank_le_failed sig.step)

theorem ran_goes (hf : f.brings = 0) (hsub : f.isSubmitting = false) (h : Free f') : SignupRan f (goes f') :=
  .free hf hsub fun _ hg => Option.some.inj hg ▸ h

theorem ran_ends (hf : f.brings = 0) (hsub : f.isSubmitting = false) : SignupRan f ends := .free hf hsub (by simp)

theorem ran_fails (hf : f.brings = 0) (hsub : f.isSubmitting = false) (rule : String) :
    SignupRan f (goes (fails sig rule false)) :=
  ran_goes hf hsub (free_fails rule)

theorem free_enter {req : Request} (h : req.enter s sig = some f) : Free f := by
  cases req with
  | kyc =>
    obtain ⟨hstep, h⟩ := Option.ite_none_right_eq_some.mp h
    cases h
    exact ⟨hstep, rfl, rfl⟩
  | kycPoll =>
    obtain ⟨hstep, h⟩ := Option.ite_none_right_eq_some.mp h
    obtain ⟨psid, -, rfl⟩ := Option.map_eq_some_iff.mp h
    exact ⟨hstep.1, rfl, rfl⟩
  | cof uid =>
    obtain ⟨hstep, h⟩ := Option.ite_none_left_eq_some.mp h
    rw [not_or, not_not] at hstep
    split at h
    · cases h
      exact free_fails _
    · obtain ⟨-, h⟩ := Option.ite_none_right_eq_some.mp h
      cases h
      refine ⟨?_, rfl, rfl⟩
      change sig.step.rank ≤ _
      rw [hstep.2]
      decide
  | checkoutInit =>
    obtain ⟨hstep, h⟩ := Option.ite_none_left_eq_some.mp h
    split at h
    · cases h
      exact free_fails _
    · obtain ⟨-, h⟩ := Option.ite_none_right_eq_some.mp h
      cases h
      refine ⟨?_, rfl, rfl⟩
      change sig.step.rank ≤ _
      revert hstep
      cases sig.step <;> decide
  | checkoutReturn csId =>
    obtain ⟨hstep, h⟩ := Option.ite_none_left_eq_some.mp h
    split at h
    · cases h
      exact free_fails _
    · cases h
      refine ⟨?_, rfl, rfl⟩
      change sig.step.rank ≤ _
      revert hstep
      cases sig.step <;> decide
  | order =>
    obtain ⟨hstep, h⟩ := Option.ite_none_right_eq_some.mp h
    cases h
    exact ⟨hstep.1, rfl, rfl⟩
  | poll =>
    obtain ⟨hstep, h⟩ := Option.ite_none_right_eq_some.mp h
    obtain ⟨orderId, -, rfl⟩ := Option.map_eq_some_iff.mp h
    exact ⟨hstep.1, rfl, rfl⟩

theorem ran_cardAdded (hf : f.brings = 0) (hsub : f.isSubmitting = false) (hcommits : f.commits)
    (hread : f.readStep = sig.step) (hstep : sig.step.rank ≤ SignupStep.pendingCofElements.rank) (cardPan : List Char)
    {reply : Reply} (hdone : reply ≠ .error true) : SignupRan f (cardAdded sig cardPan reply) := by
  unfold cardAdded
  split
  · rw [← hread]
    exact .card hf hsub hcommits (hread ▸ hstep) rfl
  · exact ran_fails hf hsub _
  · rename_i done
    cases done with
    | true => exact absurd rfl hdone
    | false => exact ran_ends hf hsub

theorem ran_extracted (hf : f.brings = 0) (hsub : f.isSubmitting = false)
    (hstep : sig.step.rank ≤ SignupStep.pendingCofElements.rank) (pm : Option String) : SignupRan f (extracted s sig pm) := by
  unfold extracted
  split
  · split
    · exact ran_goes hf hsub ⟨hstep, rfl, rfl⟩
    · exact ran_ends hf hsub
  · exact ran_fails hf hsub _

theorem ran_created (hstep : sig.step = .pendingOrder) {reply : Reply} (hdone : reply ≠ .error true) :
    SignupRan (.ordering sig) (created sig reply) := by
  unfold created
  split
  · split
    · exact .order hstep
    · exact .unnamed hstep
  · exact ran_fails rfl rfl _
  · rename_i done
    cases done with
    | true => exact absurd rfl hdone
    | false => exact ran_ends rfl rfl

theorem ran_polled (hstep : sig.step = .pendingActivation) {orderId : String} (reply : Reply) :
    SignupRan (.polling sig orderId) (polled sig reply) := by
  unfold polled
  split
  · dsimp only
    split
    · split
      · exact ran_ends rfl rfl
      · exact ran_goes rfl rfl (free_stores (by simp [hstep, SignupStep.rank]))
    · split
      · exact ran_fails rfl rfl _
      · split
        · exact ran_fails rfl rfl _
        · exact ran_ends rfl rfl
  · exact ran_ends rfl rfl
  · exact ran_ends rfl rfl

theorem signup_ran (hf : f.Consistent) (hanswered : f.commits → f.answered r) (h : f.run s r = some o) :
    SignupRan f o := by
  unfold SignupFlight.run at h
  split at h
  case h_1 sig r =>
    cases h
    have hstep : sig.step = .pendingKyc := hf
    unfold initiated
    split
    · exact ran_fails rfl rfl _
    · exact ran_fails rfl rfl _
    · split
      · refine ran_goes rfl rfl ⟨?_, rfl, rfl⟩
        change sig.step.rank ≤ _
        rw [hstep]
        decide
      · exact ran_goes rfl rfl (free_stores (by simp [hstep, SignupStep.rank]))
  case h_2 sig psid status =>
    cases h
    have hstep : sig.step = .pendingKycHandoff := hf
    unfold decided
    split
    · exact ran_fails rfl rfl _
    · split
      · exact ran_fails rfl rfl _
      · split
        · refine ran_goes rfl rfl ⟨?_, rfl, rfl⟩
          change sig.step.rank ≤ _
          rw [hstep]
        · exact ran_ends rfl rfl
  case h_3 sig kycSessionId r =>
    cases h
    unfold fetched
    split
    · exact ran_goes rfl rfl (free_stores le_rfl)
    · exact ran_goes rfl rfl (free_stores le_rfl)
    · split
      · exact ran_goes rfl rfl ⟨hf, rfl, rfl⟩
      · exact ran_ends rfl rfl
  case h_4 sig attestation r =>
    cases h
    have hstep : sig.step.rank ≤ SignupStep.pendingKycHandoff.rank := hf
    unfold attested
    split
    · exact ran_goes rfl rfl (free_stores (hstep.trans (by simp [SignupStep.rank])))
    · exact ran_fails rfl rfl _
    · exact ran_ends rfl rfl
  case h_5 sig card r =>
    cases h
    exact ran_cardAdded rfl rfl rfl rfl hf [] fun hr => by simpa [hr, SignupFlight.answered] using hanswered rfl
  case h_6 sig r =>
    cases h
    unfold ensured
    split
    · exact ran_goes rfl rfl ⟨hf, rfl, rfl⟩
    · exact ran_fails rfl rfl _
    · exact ran_fails rfl rfl _
  case h_7 sig cusId r =>
    cases h
    unfold checkedOut
    split
    · exact ran_goes rfl rfl ⟨hf, rfl, rfl⟩
    · exact ran_fails rfl rfl _
  case h_8 sig csId r =>
    cases h
    unfold retrieved
    split
    · exact ran_fails rfl rfl _
    · split
      · exact ran_fails rfl rfl _
      · split
        · exact ran_extracted rfl rfl hf _
        · exact ran_goes rfl rfl ⟨hf, rfl, rfl⟩
        · exact ran_extracted rfl rfl hf _
  case h_9 sig setupIntent r =>
    cases h
    exact ran_extracted rfl rfl hf _
  case h_10 sig pmId r =>
    cases h
    exact ran_cardAdded rfl rfl rfl rfl hf _ fun hr => by simpa [hr, SignupFlight.answered] using hanswered rfl
  case h_11 sig r =>
    cases h
    exact ran_created hf fun hr => by simpa [hr, SignupFlight.answered] using hanswered rfl
  case h_12 sig orderId r =>
    cases h
    unfold submitted
    split
    · exact .submit hf rfl
    · exact .refused hf
    · simpa [SignupFlight.answered] using hanswered rfl
  case h_13 sig orderId r =>
    cases h
    exact ran_polled hf _
  case h_14 read sig owes =>
    cases h
    exact .write hf
  case h_15 => cases h

end Ran

/-! ## Runs -/

/-- The session has come this far, or has when a handler has written back. -/
def SignupWorld.Reached (w : SignupWorld) (n : ℕ) : Prop :=
  (∃ step ∈ w.steps, n ≤ step.rank) ∨ ∃ f ∈ w.flights, n ≤ f.brings

structure SignupInv (w : SignupWorld) : Prop where
  last : ∀ sig ∈ w.stored, ∀ step ∈ w.steps, step.rank ≤ sig.step.rank
  forward : w.steps.Pairwise fun a b => a.rank ≤ b.rank
  consistent : ∀ f ∈ w.flights, f.Consistent
  cards : w.effects.count .card ≤ 1
  orders : w.effects.count .order ≤ 1
  submits : w.effects.count .submit + w.flights.countP (·.isSubmitting) ≤ w.effects.count .order
  carded : 0 < w.effects.count .card → w.Reached SignupStep.pendingOrder.rank
  ordered : 0 < w.effects.count .order → w.Reached SignupStep.pendingActivation.rank

section Runs

variable {s : Settings} {w w' : SignupWorld} {i : ℕ} {f : SignupFlight} {o : Outcome}

theorem SignupWorld.Reached.settle {n : ℕ} (h : w.Reached n) (hf : w.flights[i]? = some f)
    (hkeep : n ≤ f.brings → (∃ g ∈ o.next, n ≤ g.brings) ∨ ∃ sig ∈ o.write, n ≤ sig.step.rank) :
    (w.settle i o).Reached n := by
  rcases h with ⟨step, hstep, hn⟩ | hflight
  · exact Or.inl ⟨step, List.mem_append_left _ hstep, hn⟩
  · rcases Pool.exists_move (o := o.next) hflight hf with hrest | hself
    · exact Or.inr hrest
    · rcases hkeep hself with ⟨g, hg, hn⟩ | ⟨sig, hsig, hn⟩
      · exact Or.inr ⟨g, Pool.mem_move hf hg, hn⟩
      · refine Or.inl ⟨sig.step, List.mem_append_right _ ?_, hn⟩
        rw [Option.mem_def.mp hsig]
        exact List.mem_singleton_self _

/-- Where no other handler has something to write back, it is the stored step that has come far. -/
theorem SignupInv.reached_read (hi : SignupInv w) {n : ℕ} (h : w.Reached n) (hf : w.flights[i]? = some f)
    (hread : w.stored.map SignupSession.step = some f.readStep) (hrest : ∀ g ∈ w.flights.eraseIdx i, g.brings = 0)
    (hself : f.brings < n) : n ≤ f.readStep.rank := by
  obtain ⟨sig, hsig, hstep⟩ := Option.map_eq_some_iff.mp hread
  rcases h with ⟨step, hmem, hn⟩ | ⟨g, hg, hn⟩
  · have := hi.last sig hsig step hmem
    rw [← hstep]
    omega
  · rcases List.mem_cons.mp ((Pool.perm_eraseIdx hf).mem_iff.mp hg) with rfl | hmem
    · omega
    · have := hrest g hmem
      omega

/-- What the store has seen stays in order, when nothing is written. -/
theorem SignupInv.unwritten (hi : SignupInv w) (h : o.write = none) :
    (∀ sig ∈ (w.settle i o).stored, ∀ step ∈ (w.settle i o).steps, step.rank ≤ sig.step.rank) ∧
      (w.settle i o).steps.Pairwise fun a b => a.rank ≤ b.rank := by
  have hstored : (w.settle i o).stored = w.stored := by simp [SignupWorld.settle, h]
  have hsteps : (w.settle i o).steps = w.steps := by simp [SignupWorld.settle, h]
  rw [hstored, hsteps]
  exact ⟨hi.last, hi.forward⟩

theorem SignupInv.consistent_settle (hi : SignupInv w) (h : ∀ g ∈ o.next, g.Consistent) :
    ∀ g ∈ (w.settle i o).flights, g.Consistent :=
  Pool.forall_move hi.consistent h

theorem SignupInv.of_free (hi : SignupInv w) {next : Option SignupFlight} (hf : w.flights[i]? = some f)
    (hbrings : f.brings = 0) (hsub : f.isSubmitting = false) (hnext : ∀ f' ∈ next, Free f') :
    SignupInv (w.settle i ⟨next, none, none⟩) := by
  have hcount := Pool.countP_move (o := next) (·.isSubmitting) hf
  have hnone : next.any (·.isSubmitting) = false := by
    cases next with
    | none => rfl
    | some f' => exact (hnext f' rfl).submitting
  have hreach : ∀ n, 0 < n → w.Reached n → (w.settle i ⟨next, none, none⟩).Reached n :=
    fun n hn h => h.settle hf fun hle => by omega
  simp only [hsub, hnone, Bool.false_eq_true, if_false, Nat.add_zero] at hcount
  obtain ⟨hlast, hforward⟩ := hi.unwritten (i := i) (o := ⟨next, none, none⟩) rfl
  refine ⟨hlast, hforward, hi.consistent_settle fun f' hf' => (hnext f' hf').consistent, ?_, ?_, ?_, ?_, ?_⟩
  · simpa [SignupWorld.settle] using hi.cards
  · simpa [SignupWorld.settle] using hi.orders
  · simpa [SignupWorld.settle, hcount] using hi.submits
  · intro h
    exact hreach _ (by decide) (hi.carded (by simpa [SignupWorld.settle] using h))
  · intro h
    exact hreach _ (by decide) (hi.ordered (by simpa [SignupWorld.settle] using h))

theorem SignupInv.of_card (hi : SignupInv w) {sig : SignupSession} (hf : w.flights[i]? = some f) (hbrings : f.brings = 0)
    (hsub : f.isSubmitting = false) (hread : w.stored.map SignupSession.step = some f.readStep)
    (hrest : ∀ g ∈ w.flights.eraseIdx i, g.brings = 0)
    (hstep : f.readStep.rank ≤ SignupStep.pendingCofElements.rank) (hsig : sig.step = .pendingOrder) :
    SignupInv (w.settle i ⟨some (.storing f.readStep sig true), none, some .card⟩) := by
  have hnone : w.effects.count .card = 0 := by
    by_contra hcard
    have hle := hi.reached_read (hi.carded (Nat.pos_of_ne_zero hcard)) hf hread hrest (by rw [hbrings]; decide)
    exact absurd (hle.trans hstep) (by decide)
  have hcount := Pool.countP_move (o := some (.storing f.readStep sig true)) (·.isSubmitting) hf
  have hnot : (SignupFlight.storing f.readStep sig true).isSubmitting = false := rfl
  simp only [hsub, Option.any_some, hnot, Bool.false_eq_true, if_false, Nat.add_zero] at hcount
  obtain ⟨hlast, hforward⟩ := hi.unwritten (i := i) (o := ⟨some (.storing f.readStep sig true), none, some .card⟩) rfl
  refine ⟨hlast, hforward, hi.consistent_settle ?_, ?_, ?_, ?_, ?_, ?_⟩
  · intro g hg
    cases hg
    change f.readStep.rank ≤ sig.step.rank
    rw [hsig]
    exact hstep.trans (by decide)
  · simp [SignupWorld.settle, hnone]
  · simpa [SignupWorld.settle] using hi.orders
  · simpa [SignupWorld.settle, hcount] using hi.submits
  · intro _
    refine Or.inr ⟨_, Pool.mem_move hf rfl, ?_⟩
    simp [SignupFlight.brings, hsig]
  · intro h
    refine (hi.ordered (by simpa [SignupWorld.settle] using h)).settle hf fun hle => ?_
    rw [hbrings] at hle
    exact absurd hle (by decide)

theorem SignupInv.of_order (hi : SignupInv w) {sig : SignupSession} {g : SignupFlight}
    (hf : w.flights[i]? = some (.ordering sig)) (hread : w.stored.map SignupSession.step = some sig.step)
    (hrest : ∀ g ∈ w.flights.eraseIdx i, g.brings = 0) (hstep : sig.step = .pendingOrder) (hg : g.Consistent)
    (hbrings : SignupStep.pendingActivation.rank ≤ g.brings) : SignupInv (w.settle i ⟨some g, none, some .order⟩) := by
  have hnone : w.effects.count .order = 0 := by
    by_contra horder
    have hle := hi.reached_read (hi.ordered (Nat.pos_of_ne_zero horder)) hf hread hrest (Nat.zero_lt_succ 5)
    rw [show (SignupFlight.ordering sig).readStep = .pendingOrder from hstep] at hle
    exact absurd hle (by decide)
  have hcount := Pool.countP_move (o := some g) (·.isSubmitting) hf
  have hnot : (SignupFlight.ordering sig).isSubmitting = false := rfl
  simp only [hnot, Option.any_some, Bool.false_eq_true, if_false, Nat.add_zero] at hcount
  have hsubmits := hi.submits
  rw [hnone] at hsubmits
  obtain ⟨hlast, hforward⟩ := hi.unwritten (i := i) (o := ⟨some g, none, some .order⟩) rfl
  refine ⟨hlast, hforward, hi.consistent_settle fun g' hg' => Option.some.inj hg' ▸ hg, ?_, ?_, ?_, ?_, ?_⟩
  · simpa [SignupWorld.settle] using hi.cards
  · simp [SignupWorld.settle, hnone]
  · have hone : (if g.isSubmitting then 1 else 0) ≤ 1 := by split <;> omega
    have hsame : [Effect.order].count .submit = 0 := rfl
    have hmore : [Effect.order].count .order = 1 := rfl
    simp only [SignupWorld.settle, Option.toList_some, List.count_append]
    omega
  · intro h
    refine (hi.carded (by simpa [SignupWorld.settle] using h)).settle hf fun hle => ?_
    exact Or.inl ⟨g, rfl, le_trans (by decide) hbrings⟩
  · intro _
    exact Or.inr ⟨g, Pool.mem_move hf rfl, hbrings⟩

theorem SignupInv.of_submit (hi : SignupInv w) {sig sig' : SignupSession} {orderId : String} {e : Option Effect}
    (hf : w.flights[i]? = some (.submitting sig orderId)) (hstep : sig.step = .pendingOrder)
    (hsig : SignupStep.pendingActivation.rank ≤ sig'.step.rank) (he : e = some .submit ∨ e = none) :
    SignupInv (w.settle i ⟨some (.storing sig.step sig' true), none, e⟩) := by
  have hcount := Pool.countP_move (o := some (.storing sig.step sig' true)) (·.isSubmitting) hf
  have hold : (SignupFlight.submitting sig orderId).isSubmitting = true := rfl
  have hnew : (SignupFlight.storing sig.step sig' true).isSubmitting = false := rfl
  simp only [hold, hnew, Option.any_some, Bool.false_eq_true, if_false, if_true, Nat.add_zero] at hcount
  have hcard : (w.effects ++ e.toList).count .card = w.effects.count .card := by rcases he with rfl | rfl <;> simp
  have horder : (w.effects ++ e.toList).count .order = w.effects.count .order := by rcases he with rfl | rfl <;> simp
  have hsubmit : (w.effects ++ e.toList).count .submit ≤ w.effects.count .submit + 1 := by
    rcases he with rfl | rfl <;> simp
  have hsubmits := hi.submits
  have hkeep : ∀ n, w.Reached n → (w.settle i ⟨some (.storing sig.step sig' true), none, e⟩).Reached n := by
    intro n h
    refine h.settle hf fun hle => Or.inl ⟨_, rfl, ?_⟩
    exact hle.trans hsig
  obtain ⟨hlast, hforward⟩ := hi.unwritten (i := i) (o := ⟨some (.storing sig.step sig' true), none, e⟩) rfl
  refine ⟨hlast, hforward, hi.consistent_settle ?_, ?_, ?_, ?_, ?_, ?_⟩
  · intro g hg
    cases hg
    change sig.step.rank ≤ sig'.step.rank
    rw [hstep]
    exact le_trans (by decide) hsig
  · exact hcard ▸ hi.cards
  · exact horder ▸ hi.orders
  · simp only [SignupWorld.settle]
    omega
  · exact fun h => hkeep _ (hi.carded (hcard ▸ h))
  · exact fun h => hkeep _ (hi.ordered (horder ▸ h))

theorem SignupInv.of_write (hi : SignupInv w) {sig : SignupSession} {read : SignupStep} {owes : Bool}
    (hf : w.flights[i]? = some (.storing read sig owes)) (hread : w.stored.map SignupSession.step = some read)
    (hstep : read.rank ≤ sig.step.rank) : SignupInv (w.settle i ⟨none, some sig, none⟩) := by
  obtain ⟨old, hold, hreadStep⟩ := Option.map_eq_some_iff.mp hread
  have hcount := Pool.countP_move (o := none) (·.isSubmitting) hf
  have hnot : (SignupFlight.storing read sig owes).isSubmitting = false := rfl
  simp only [hnot, Option.any_none, Bool.false_eq_true, if_false, Nat.add_zero] at hcount
  have hle : ∀ step ∈ w.steps, step.rank ≤ sig.step.rank := by
    intro step hmem
    have := hi.last old hold step hmem
    rw [hreadStep] at this
    exact this.trans hstep
  have hkeep : ∀ n, w.Reached n → (w.settle i ⟨none, some sig, none⟩).Reached n := by
    intro n h
    refine h.settle hf fun hn => ?_
    cases owes with
    | true => exact Or.inr ⟨sig, rfl, hn⟩
    | false => exact Or.inr ⟨sig, rfl, le_trans hn (Nat.zero_le _)⟩
  refine ⟨?_, ?_, hi.consistent_settle (by simp), ?_, ?_, ?_, ?_, ?_⟩
  · intro sig' hsig' step hmem
    have heq : sig' = sig := by simpa [SignupWorld.settle] using hsig'.symm
    rcases List.mem_append.mp hmem with hmem | hmem
    · exact heq ▸ hle step hmem
    · rw [List.mem_singleton.mp hmem, heq]
  · refine List.pairwise_append.mpr ⟨hi.forward, List.pairwise_singleton .., fun a ha b hb => ?_⟩
    rw [List.mem_singleton.mp hb]
    exact hle a ha
  · simpa [SignupWorld.settle] using hi.cards
  · simpa [SignupWorld.settle] using hi.orders
  · simpa [SignupWorld.settle, hcount] using hi.submits
  · exact fun h => hkeep _ (hi.carded (by simpa [SignupWorld.settle] using h))
  · exact fun h => hkeep _ (hi.ordered (by simpa [SignupWorld.settle] using h))

theorem SignupInv.ran (hi : SignupInv w) (hf : w.flights[i]? = some f) (h : SignupRan f o)
    (hc : f.commits → w.stored.map SignupSession.step = some f.readStep ∧ ∀ g ∈ w.flights.eraseIdx i, g.brings = 0) :
    SignupInv (w.settle i o) := by
  cases h with
  | free hbrings hsub hnext => exact hi.of_free hf hbrings hsub hnext
  | card hbrings hsub hcommits hread hsig => exact hi.of_card hf hbrings hsub (hc hcommits).1 (hc hcommits).2 hread hsig
  | order hread => exact hi.of_order hf (hc rfl).1 (hc rfl).2 hread hread le_rfl
  | unnamed hread =>
    refine hi.of_order hf (hc rfl).1 (hc rfl).2 hread (rank_le_failed _) ?_
    change SignupStep.pendingActivation.rank ≤ SignupStep.failed.rank
    decide
  | submit hread hsig => exact hi.of_submit hf hread (by rw [hsig]) (Or.inl rfl)
  | refused hread => exact hi.of_submit hf hread (rank_le_failed _) (Or.inr rfl)
  | write hread => exact hi.of_write hf (hc rfl).1 hread

theorem SignupInv.pruned (hi : SignupInv w) (now : Time) : SignupInv (w.prune s now) := by
  refine ⟨fun sig hsig => hi.last sig ?_, hi.forward, hi.consistent, hi.cards, hi.orders, hi.submits, hi.carded, hi.ordered⟩
  exact (Option.filter_eq_some_iff.mp hsig).1

theorem submitting_of_brings (h : f.brings = 0) : f.isSubmitting = false := by
  cases f with
  | submitting sig orderId => exact absurd h (Nat.succ_ne_zero 5)
  | _ => rfl

theorem SignupInv.dropped (hi : SignupInv w) (h : ∀ f ∈ w.flights[i]?, f.brings = 0) :
    SignupInv { w with flights := w.flights.eraseIdx i } := by
  cases hf : w.flights[i]? with
  | none =>
    rw [List.eraseIdx_of_length_le (List.getElem?_eq_none_iff.mp hf)]
    exact hi
  | some f =>
    have hbrings : f.brings = 0 := h f hf
    have hended := hi.of_free hf hbrings (submitting_of_brings hbrings) (by simp : ∀ f' ∈ none, Free f')
    simpa [SignupWorld.settle, Pool.move] using hended

theorem SignupInv.entered (hi : SignupInv w) {l : List SignupFlight} (h : ∀ f ∈ l, Free f) :
    SignupInv { w with flights := w.flights ++ l } := by
  have hnone : l.countP (·.isSubmitting) = 0 := List.countP_eq_zero.mpr fun f hf => by simp [(h f hf).submitting]
  have hreach : ∀ n, w.Reached n → SignupWorld.Reached { w with flights := w.flights ++ l } n := by
    intro n hn
    rcases hn with hstep | ⟨f, hf, hle⟩
    · exact Or.inl hstep
    · exact Or.inr ⟨f, List.mem_append_left _ hf, hle⟩
  refine ⟨hi.last, hi.forward, ?_, hi.cards, hi.orders, ?_, fun hn => hreach _ (hi.carded hn), fun hn => hreach _ (hi.ordered hn)⟩
  · intro f hf
    rcases List.mem_append.mp hf with hf | hf
    · exact hi.consistent f hf
    · exact (h f hf).consistent
  · rw [List.countP_append, hnone]
    exact hi.submits

theorem SignupInv.step (hi : SignupInv w) {l : SignupLabel} (hc : w.OneAtATime l)
    (h : SignupWorld.step s w l = some w') : SignupInv w' := by
  cases l with
  | look now =>
    cases h
    exact hi.pruned now
  | drop i =>
    cases h
    exact hi.dropped hc
  | request r identityId now =>
    cases h
    refine (hi.pruned now).entered fun f hf => ?_
    obtain ⟨sig, -, hf⟩ := Option.bind_eq_some_iff.mp (Option.mem_toList.mp hf)
    exact free_enter hf
  | run i r =>
    obtain ⟨f, hf, h⟩ := Option.bind_eq_some_iff.mp h
    obtain ⟨o, ho, rfl⟩ := Option.map_eq_some_iff.mp h
    have hguard := hc f hf
    refine hi.ran hf (signup_ran (hi.consistent f (Pool.mem_of_getElem? hf)) (fun hcommits => (hguard hcommits).2.2) ho) ?_
    exact fun hcommits => ⟨(hguard hcommits).1, (hguard hcommits).2.1⟩

end Runs

/-- In every run in which a handler buys and writes at the step that it has read, with no other
in between, and writes back what it has bought, a signup buys one line and goes forward. -/
theorem signup_buys_one_line (s : Settings) (sig : SignupSession) (ls : List SignupLabel) (w : SignupWorld)
    (h : exec (guarded SignupWorld.OneAtATime (SignupWorld.step s)) (SignupWorld.initial sig) ls = some w) : OneLine w := by
  have hinit : SignupInv (SignupWorld.initial sig) := by
    refine ⟨?_, List.pairwise_singleton .., ?_, ?_, ?_, ?_, ?_, ?_⟩ <;> simp [SignupWorld.initial]
  have hi : SignupInv w := guarded_inv (fun w l w' hi hc hs => SignupInv.step hi hc hs) hinit h
  have hsubmits := hi.submits
  have horders := hi.orders
  exact ⟨hi.cards, horders, by omega, hi.forward⟩

def sampleSession (step : SignupStep) : SignupSession where
  sessionId := "s1"
  plan := "PLAN_M"
  email := "ada@x"
  msisdn := "80001111"
  cardPan := "4111 1111 1111 1111".toList
  promoCode := ""
  skipAssignedOffer := false
  identityId := some "IDN-1"
  createdAt := 0
  step
  stepError := none
  redirectArmed := false
  openOrderId := some "OPO-1"
  customerId := some "CUST-1"
  paymentMethodId := none
  orderId := none
  subscriptionId := none
  activationCode := none
  done := false
  kycProviderSessionId := none
  kycVerifyUrl := none
  kycVerifyQr := none

def mockSettings : Settings := ⟨1800, "mock", "", true, true, true, id⟩

def stripeSettings : Settings := { mockSettings with paymentProvider := "stripe", paymentStripeApiKey := "sk_test" }

def sampleOk (id : String) : Response := .reply (.ok (.obj [("id", .str id)]))

def sampleRequest (r : Request) : SignupLabel := .request r "IDN-1" 1

/-- A card, an order, and a second press that comes too late. -/
theorem signup_buys_one_line_twice_pressed :
    let w := (exec (guarded SignupWorld.OneAtATime (SignupWorld.step mockSettings))
      (SignupWorld.initial (sampleSession .pendingCof))
      [sampleRequest (.cof ['1']), .run 0 (sampleOk "PM-1"), .run 0 .locked, sampleRequest .order, .run 0 (sampleOk "ORD-1"),
       .run 0 (sampleOk "ORD-1"), .run 0 .locked, sampleRequest .order]).get (by decide +kernel)
    w.effects = [.card, .order, .submit] ∧ w.steps = [.pendingCof, .pendingOrder, .pendingActivation] ∧ OneLine w := by
  intro w
  exact ⟨by decide +kernel, by decide +kernel,
    signup_buys_one_line mockSettings (sampleSession .pendingCof) _ w (Option.some_get _).symm⟩

/-- Two presses that both read the step before. An order whose submit fails on the way, and is
placed again. A card added twice. A checkout that begins, and is written back after the return of another. -/
theorem signup_buys_two_lines :
    (∃ w, exec (SignupWorld.step mockSettings) (SignupWorld.initial (sampleSession .pendingOrder))
        [sampleRequest .order, sampleRequest .order, .run 0 (sampleOk "ORD-1"), .run 1 (sampleOk "ORD-2"),
         .run 0 (sampleOk "ORD-1"), .run 1 (sampleOk "ORD-2")] = some w ∧ w.effects.count .submit = 2 ∧ ¬ OneLine w) ∧
    (∃ w, exec (SignupWorld.step mockSettings) (SignupWorld.initial (sampleSession .pendingOrder))
        [sampleRequest .order, .run 0 (sampleOk "ORD-1"), .run 0 (.reply (.error false)), sampleRequest .order,
         .run 0 (sampleOk "ORD-2")] = some w ∧ ¬ OneLine w) ∧
    (∃ w, exec (SignupWorld.step mockSettings) (SignupWorld.initial (sampleSession .pendingCof))
        [sampleRequest (.cof ['1']), .run 0 (.reply (.error true)), sampleRequest (.cof ['2']), .run 0 (sampleOk "PM-2")] =
          some w ∧ ¬ OneLine w) ∧
    ∃ w, exec (SignupWorld.step stripeSettings) (SignupWorld.initial (sampleSession .pendingCof))
        [sampleRequest .checkoutInit, .run 0 (.reply (.ok (.obj [("customer_external_ref", .str "cus_1")]))),
         .run 0 (.stripe (.ok (.obj [("url", .str "https://checkout")]))), sampleRequest (.checkoutReturn "cs_1"),
         .run 1 (.stripe (.ok (.obj [("metadata", .obj [("bss_signup_session", .str "s1")]),
           ("setup_intent", .obj [("payment_method", .str "pm_1")])]))),
         .run 1 (sampleOk "PM-1"), .run 1 .locked, .run 0 .locked] = some w ∧
      w.steps = [.pendingCof, .pendingOrder, .pendingCofElements] ∧ ¬ OneLine w := by
  refine ⟨⟨_, rfl, by decide +kernel, fun h => ?_⟩, ⟨_, rfl, fun h => ?_⟩, ⟨_, rfl, fun h => ?_⟩,
    _, rfl, by decide +kernel, fun h => ?_⟩
  · have horders := h.orders
    revert horders
    decide +kernel
  · have horders := h.orders
    revert horders
    decide +kernel
  · have hcards := h.cards
    revert hcards
    decide +kernel
  · have hforward := h.forward
    revert hforward
    decide +kernel

end BssCli.Signup
