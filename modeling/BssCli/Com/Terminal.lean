import BssCli.Com.World

/-!
# A settled order stays settled

The handlers work under the row lock. Submit and cancel write over whatever was committed
since they read, so a terminal state is final only while none was committed in between.
-/

namespace BssCli.Com.Terminal

open Steps Orders

/-- No commit has settled the order since it was read, or the write leaves it in its state. -/
def NoneSettledSince (w : Orders) : Orders.Label → Prop
  | .commit i _ _ => ∀ f ∈ w.flights[i]?,
      w.db.order.completedDate = f.found.completedDate ∨ w.db.order.state = f.target
  | _ => True

instance (w : Orders) : ∀ l, Decidable (NoneSettledSince w l)
  | .commit i _ _ => inferInstanceAs (Decidable (∀ f ∈ w.flights[i]?, _ ∨ _))
  | .submit _ | .cancel _ | .completed _ _ | .failed _ | .abandon _ => .isTrue trivial

/-- A terminal state comes with a completion date. -/
def Stamped (r : OrderRow) : Prop := r.state.Terminal ↔ r.completedDate.isSome

/-- What a flight has read and means to write. -/
structure Sound (w : Orders) (f : Flight) : Prop where
  live : f.found.completedDate = none
  edge : f.target ∈ allowedTargets f.found.state
  locked : f.holds → w.db.order = f.found ∧ f.found.state = .inProgress

structure Inv (w : Orders) : Prop where
  stamped : Stamped w.db.order
  sound : ∀ f ∈ w.flights, Sound w f
  single : w.flights.countP Flight.holds ≤ 1
  history : ∀ h ∈ w.db.history, ∀ s ∈ h.fromState, h.toState ∈ allowedTargets s

variable {w w' : Orders}

theorem Stamped.live {r : OrderRow} (h : Stamped r) (hs : ¬ r.state.Terminal) : r.completedDate = none := by
  rw [Stamped] at h
  cases hdate : r.completedDate with
  | none => rfl
  | some t => exact absurd (h.mpr (by rw [hdate]; rfl)) hs

theorem not_terminal {s t : OrderState} (h : t ∈ allowedTargets s) : ¬ s.Terminal :=
  fun hterm => by
    rw [show allowedTargets s = [] from hterm] at h
    simp at h

theorem start_inv {phase : Phase} (hi : Inv w)
    (hedge : (⟨w.db.order, w.db.item, phase⟩ : Flight).target ∈ allowedTargets w.db.order.state)
    (hlock : (⟨w.db.order, w.db.item, phase⟩ : Flight).holds →
      w.db.order.state = .inProgress ∧ w.flights.any Flight.holds = false) : Inv (w.start phase) := by
  refine ⟨hi.stamped, Pool.forall_concat (fun f hf => ?_) ?_, ?_, hi.history⟩
  · obtain ⟨hlive, hedge, hlocked⟩ := hi.sound f hf
    exact ⟨hlive, hedge, hlocked⟩
  · exact ⟨hi.stamped.live (not_terminal hedge), hedge, fun h => ⟨rfl, (hlock h).1⟩⟩
  · have hsingle := hi.single
    rw [start, List.countP_append, List.countP_singleton]
    split
    · rename_i h
      have hnone : w.flights.countP Flight.holds = 0 := by
        rw [List.countP_eq_zero]
        simpa using (hlock h).2
      omega
    · omega

theorem stepLock_inv {phase : Phase} (hi : Inv w)
    (hphase : (⟨w.db.order, w.db.item, phase⟩ : Flight).target ∈ allowedTargets .inProgress)
    (h : w.stepLock phase = some w') : Inv w' := by
  unfold stepLock at h
  obtain ⟨hfree, h⟩ := Option.ite_none_left_eq_some.mp h
  split at h
  · rename_i hs
    cases h
    exact start_inv hi (hs ▸ hphase) fun _ => ⟨hs, Bool.eq_false_iff.mpr hfree⟩
  · exact Option.some.inj h ▸ hi

/-- Who commits is the holder of the lock, or finds nobody holding it. -/
theorem commit_alone {i : ℕ} {f : Flight} (hi : Inv w) (hf : w.flights[i]? = some f)
    (hlock : ¬ (!f.holds && w.flights.any Flight.holds) = true) :
    ∀ g ∈ w.flights.eraseIdx i, g.holds = false := by
  have hcount := Pool.countP_eraseIdx Flight.holds hf
  have hsingle := hi.single
  have hzero : (w.flights.eraseIdx i).countP Flight.holds = 0 := by
    cases hholds : f.holds with
    | true =>
      rw [hholds, if_pos rfl] at hcount
      omega
    | false =>
      have hnone : w.flights.countP Flight.holds = 0 := by
        rw [List.countP_eq_zero]
        simpa [hholds] using hlock
      omega
  simpa [List.countP_eq_zero] using hzero

theorem stepCommit_inv {i : ℕ} {f : Flight} {now : Time} {subscriptionId : Option String} (hi : Inv w)
    (hf : w.flights[i]? = some f)
    (hsince : w.db.order.completedDate = f.found.completedDate ∨ w.db.order.state = f.target)
    (h : w.stepCommit i f now subscriptionId = some w') :
    Inv w' ∧ (w.db.order.state.Terminal → w'.db.order.state = w.db.order.state) := by
  unfold stepCommit at h
  obtain ⟨hlock, h⟩ := Option.ite_none_left_eq_some.mp h
  obtain ⟨db', hdb, rfl⟩ := Option.map_eq_some_iff.mp h
  have hcommit := toOption_eq_some.mp hdb
  have hsound := hi.sound f (Pool.mem_of_getElem? hf)
  obtain ⟨hstate, hdate⟩ := commit_order hcommit
  obtain ⟨reason, hhistory⟩ := commit_history (fun hh => (hsound.locked hh).2) hcommit
  have hkeeps : w.db.order.state.Terminal → f.target = w.db.order.state := by
    intro hterm
    rcases hsince with hsame | hsame
    · have := hi.stamped.mp hterm
      rw [hsame, hsound.live] at this
      simp at this
    · exact hsame.symm
  refine ⟨⟨?_, fun g hg => ?_, ?_, ?_⟩, fun hterm => hstate.trans (hkeeps hterm)⟩
  · -- Only a submit leaves the date, and it finds a live order.
    show Stamped db'.order
    rw [Stamped, hstate, hdate]
    by_cases htarget : f.target = .inProgress
    · have hlive : ¬ w.db.order.state.Terminal := by
        intro hterm
        rw [← hkeeps hterm, htarget] at hterm
        exact absurd hterm (by decide)
      rw [if_pos htarget, htarget, hi.stamped.live hlive]
      decide
    · rw [if_neg htarget]
      have hterm : f.target.Terminal := by
        unfold Flight.target at htarget ⊢
        split <;> simp_all [OrderState.Terminal, allowedTargets]
      simp [hterm]
  · obtain ⟨hlive, hedge, -⟩ := hi.sound g (List.mem_of_mem_eraseIdx hg)
    exact ⟨hlive, hedge, fun hh => by simp [commit_alone hi hf hlock g hg] at hh⟩
  · exact (List.Sublist.countP_le (List.eraseIdx_sublist ..)).trans hi.single
  · intro row hrow s hs
    rw [hhistory] at hrow
    rcases List.mem_append.mp hrow with hrow | hrow
    · exact hi.history row hrow s hs
    · rw [List.mem_singleton.mp hrow] at hs ⊢
      cases hs
      exact hsound.edge

theorem step_inv {l : Orders.Label} (hi : Inv w) (hsince : NoneSettledSince w l) (h : step w l = some w') :
    Inv w' ∧ (w.db.order.state.Terminal → w'.db.order.state = w.db.order.state) := by
  cases l with
  | submit methods =>
    obtain ⟨payload, hplan, rfl⟩ := Option.map_eq_some_iff.mp h
    have hedge := submitPlan_eq_ok (toOption_eq_some.mp hplan)
    exact ⟨start_inv hi hedge (by simp [Flight.holds]), fun _ => rfl⟩
  | cancel serviceOrders =>
    obtain ⟨⟨⟩, hplan, rfl⟩ := Option.map_eq_some_iff.mp h
    have hedge := (cancelPlan_eq_ok (toOption_eq_some.mp hplan)).1
    exact ⟨start_inv hi hedge (by simp [Flight.holds]), fun _ => rfl⟩
  | completed p loyalty =>
    refine ⟨stepLock_inv hi (by simp [Flight.target, allowedTargets]) h, fun _ => ?_⟩
    unfold step stepLock at h
    obtain ⟨-, h⟩ := Option.ite_none_left_eq_some.mp h
    split at h <;> cases h <;> rfl
  | failed reason =>
    refine ⟨stepLock_inv hi (by simp [Flight.target, allowedTargets]) h, fun _ => ?_⟩
    unfold step stepLock at h
    obtain ⟨-, h⟩ := Option.ite_none_left_eq_some.mp h
    split at h <;> cases h <;> rfl
  | commit i now subscriptionId =>
    obtain ⟨f, hf, h⟩ := Option.bind_eq_some_iff.mp h
    exact stepCommit_inv hi hf (hsince f hf) h
  | abandon i =>
    obtain ⟨f, hf, rfl⟩ := Option.map_eq_some_iff.mp h
    refine ⟨⟨hi.stamped, fun g hg => ?_, ?_, hi.history⟩, fun _ => rfl⟩
    · obtain ⟨hlive, hedge, hlocked⟩ := hi.sound g (List.mem_of_mem_eraseIdx hg)
      exact ⟨hlive, hedge, hlocked⟩
    · exact (List.Sublist.countP_le (List.eraseIdx_sublist ..)).trans hi.single

theorem exec_terminal {ls : List Orders.Label} (hi : Inv w)
    (h : exec (guarded NoneSettledSince step) w ls = some w') :
    Inv w' ∧ (w.db.order.state.Terminal → w'.db.order.state = w.db.order.state) := by
  induction ls generalizing w with
  | nil =>
    rw [exec_nil, Option.some.injEq] at h
    exact h ▸ ⟨hi, fun _ => rfl⟩
  | cons l ls ih =>
    obtain ⟨w₁, h₁, h₂⟩ := (exec_cons ..).mp h
    obtain ⟨hsince, hstep⟩ := guarded_eq_some.mp h₁
    obtain ⟨hi₁, hkeep⟩ := step_inv hi hsince hstep
    obtain ⟨hi', hkeep'⟩ := ih hi₁ h₂
    refine ⟨hi', fun hterm => ?_⟩
    have heq := hkeep hterm
    rw [hkeep' (heq ▸ hterm), heq]

/-- **A terminal order state is absorbing and every step of the history is allowed**, in
every run in which no write of submit or cancel finds an order settled since it was read. -/
theorem order_terminal (id customerId : String) (msisdnPreference : Option String) (items : List ItemRow)
    (events : List Event) (ls ms : List Orders.Label) (w w' : Orders)
    (h : exec (guarded NoneSettledSince step) (placed id customerId msisdnPreference items events) ls = some w)
    (h' : exec (guarded NoneSettledSince step) w ms = some w') :
    (w.db.order.state.Terminal → w'.db.order.state = w.db.order.state) ∧
      ∀ row ∈ w'.db.history, ∀ s ∈ row.fromState, row.toState ∈ allowedTargets s := by
  have hplaced : Inv (placed id customerId msisdnPreference items events) :=
    ⟨by simp [Stamped, placed, OrderState.Terminal, allowedTargets], by simp [placed], by simp [placed],
      by simp [placed]⟩
  have hi := (exec_terminal hplaced h).1
  obtain ⟨hi', hkeep⟩ := exec_terminal hi h'
  exact ⟨hkeep, hi'.history⟩

def sampleOrder : Orders := placed "ORD-0001" "CUST-1" none [] []

def sampleCompleted : ServiceOrderCompleted :=
  ⟨"ORD-0001", "CUST-1", "PLAN_M", "90000042", "8965", "PM-1", "SVC-0001", none⟩

def submitted : Orders :=
  (exec (guarded NoneSettledSince step) sampleOrder [.submit (.ok []), .commit 0 0 none]).get
    (by decide +kernel)

/-- The completion, a cancel that read before it and was given up, and redeliveries. -/
def completedTwice : Orders :=
  (exec (guarded NoneSettledSince step) submitted
    [.cancel (.ok []), .completed sampleCompleted none, .commit 1 5 (some "SUB-0001"), .abandon 0,
     .completed sampleCompleted none, .failed "late"]).get (by decide +kernel)

theorem order_terminal_completed :
    (submitted.db.order.state.Terminal →
        completedTwice.db.order.state = submitted.db.order.state) ∧
      ∀ row ∈ completedTwice.db.history, ∀ s ∈ row.fromState, row.toState ∈ allowedTargets s :=
  order_terminal "ORD-0001" "CUST-1" none [] [] _ _ submitted completedTwice
    (Option.some_get _).symm (Option.some_get _).symm

/-- A submit and a cancel have read the acknowledged order, and the cancel has committed. -/
def cancelledFirst : Orders :=
  (exec step sampleOrder [.submit (.ok []), .cancel (.ok []), .commit 1 5 none]).get (by decide +kernel)

/-- The submit then commits as well. -/
def submittedLast : Orders :=
  (exec step cancelledFirst [.commit 0 6 none]).get (by decide +kernel)

theorem cancelled_submitted :
    exec step sampleOrder [.submit (.ok []), .cancel (.ok []), .commit 1 5 none] = some cancelledFirst ∧
      exec step cancelledFirst [.commit 0 6 none] = some submittedLast ∧
      cancelledFirst.db.order.state.Terminal ∧
      cancelledFirst.db.order.state = .cancelled ∧ submittedLast.db.order.state = .inProgress :=
  ⟨(Option.some_get _).symm, (Option.some_get _).symm, by decide +kernel⟩

end BssCli.Com.Terminal
