import BssCli.Subscription.World

/-!
# Renewals that the worker does not try again

A sweep marks the row before it dispatches the renewal, and skips a row whose mark is not
older than `next_renewal_at`. Only a renewal that goes through moves that date.
-/

namespace BssCli.Subscription.Lost

open Steps

/-- The attempt for the period that has ended is still to be made. -/
def Untried (r : SubscriptionRow) : Prop := r.state = .active → r.Unattempted

instance (r : SubscriptionRow) : Decidable (Untried r) := inferInstanceAs (Decidable (_ → _))

def isRenewal (f : Flight) : Bool := f.renewal.isSome

/-- No renewal is under way, and the worker has none to dispatch. -/
def AtRest (w : World) : Prop := w.dispatching = 0 ∧ ∀ f ∈ w.flights, isRenewal f = false

instance (w : World) : Decidable (AtRest w) := inferInstanceAs (Decidable (_ ∧ _))

/-! ## The condition -/

/-- A renewal ends with its commit, within a period of its start, or leaves a row that was
not marked. A purchase unblocks only a row that was not marked. -/
def CommitKeeps (w : World) (f : Flight) : Prop :=
  match f.phase with
  | .resetting p pay existing => (pay.Approved → w.clock < periodEnd p.now) ∧
      (Untried w.db.sub ∨
        f.found.state = .active ∧ (pay.Approved → p.Storable existing w.db.balances))
  | .adding _ _ _ _ => f.found.state = .blocked → w.db.sub.Unattempted
  | _ => True

instance (w : World) (f : Flight) : Decidable (CommitKeeps w f) :=
  match hf : f.phase with
  | .resetting p pay existing => decidable_of_iff ((pay.Approved → w.clock < periodEnd p.now) ∧
      (Untried w.db.sub ∨
        f.found.state = .active ∧ (pay.Approved → p.Storable existing w.db.balances)))
      (by simp only [CommitKeeps, hf])
  | .adding _ _ _ _ => decidable_of_iff (f.found.state = .blocked → w.db.sub.Unattempted)
      (by simp only [CommitKeeps, hf])
  | .renewing _ | .renewed _ _ | .buying _ | .bought _ _ _ | .using _ | .decrementing _ _
  | .terminating _ | .changing _ => .isTrue (by simp only [CommitKeeps, hf])

def NoneLost (w : World) : Label → Prop
  | .drop => Untried w.db.sub
  | .charge i (.error _) => ∀ f ∈ w.flights[i]?, isRenewal f → Untried w.db.sub
  | .fail i => ∀ f ∈ w.flights[i]?, isRenewal f → Untried w.db.sub
  | .commit i => ∀ f ∈ w.flights[i]?, CommitKeeps w f
  | _ => True

instance (w : World) : ∀ l, Decidable (NoneLost w l)
  | .drop => inferInstanceAs (Decidable (Untried w.db.sub))
  | .charge i (.error _) =>
    inferInstanceAs (Decidable (∀ f ∈ w.flights[i]?, isRenewal f → Untried w.db.sub))
  | .fail i => inferInstanceAs (Decidable (∀ f ∈ w.flights[i]?, isRenewal f → Untried w.db.sub))
  | .commit i => inferInstanceAs (Decidable (∀ f ∈ w.flights[i]?, CommitKeeps w f))
  | .tick _ | .read _ | .dispatch _ | .charge _ (.ok _) | .openTx _ | .sweepDue _ _
  | .sweepSkipped _ _ => .isTrue trivial

/-! ## The invariant -/

def Marked (w : World) : Prop := ∀ last ∈ w.db.sub.lastRenewalAttemptedAt, last ≤ w.clock

/-- Somebody is still to renew a marked row. -/
def Pending (w : World) : Prop :=
  Untried w.db.sub ∨ 0 < w.dispatching ∨ ∃ f ∈ w.flights, isRenewal f

structure Inv (w : World) : Prop where
  marked : Marked w
  pending : Pending w

/-! ## Renewals in the pool -/

theorem renewal_goOn {w : World} {i : ℕ} {f : Flight} {next : Option Phase}
    (hf : w.flights[i]? = some f) (hnext : isRenewal f → next.any fun phase => isRenewal ⟨f.found, phase⟩)
    (h : ∃ g ∈ w.flights, isRenewal g) : ∃ g ∈ (w.goOn i f next).flights, isRenewal g := by
  have hcount := World.countP_goOn isRenewal hf next
  rw [← List.countP_pos_iff] at h ⊢
  by_cases hr : isRenewal f
  · rw [if_pos hr, if_pos (hnext hr)] at hcount
    omega
  · rw [if_neg hr] at hcount
    omega

theorem renewal_erase {w : World} {i : ℕ} {f : Flight} (hf : w.flights[i]? = some f)
    (hr : isRenewal f = false) (h : ∃ g ∈ w.flights, isRenewal g) :
    ∃ g ∈ w.flights.eraseIdx i, isRenewal g :=
  show ∃ g ∈ (w.goOn i f none).flights, isRenewal g from renewal_goOn hf (by simp [hr]) h

theorem charge_keeps {f : Flight} {now : Time} {pay : PaymentResult} {c : Charged}
    (h : f.charge now (.ok pay) = some c) (hr : isRenewal f) :
    c.next.any fun phase => isRenewal ⟨f.found, phase⟩ := by
  cases charge_replied h with
  | renewed _ => rfl
  | bought hf _ | declined hf _ => simp [isRenewal, Flight.renewal, hf] at hr

theorem openTx_keeps {f : Flight} {db : SubDb} {next : Option Phase} (h : f.openTx db = some next)
    (hr : isRenewal f) : next.any fun phase => isRenewal ⟨f.found, phase⟩ := by
  cases openTx_opened h with
  | resetting _ => rfl
  | adding hf | decrementing hf _ | refused hf _ => simp [isRenewal, Flight.renewal, hf] at hr

/-- A renewal that read an active row and can store what it writes is committed. -/
theorem rollback_untried {w : World} {f : Flight} {e : ApiError} (hr : isRenewal f)
    (hc : CommitKeeps w f) (h : f.commit w.db = some (.error e)) : Untried w.db.sub := by
  cases hphase : f.phase with
  | resetting p pay existing =>
    simp only [CommitKeeps, hphase] at hc
    rcases hc.2 with hun | hok
    · exact hun
    · simp only [Flight.commit, hphase, Option.some.injEq] at h
      obtain ⟨db', hok⟩ := renewCommit_isOk.mpr hok
      rw [hok] at h
      cases h
  | renewing p | renewed p pay => simp [Flight.commit, hphase] at h
  | _ => simp [isRenewal, Flight.renewal, hphase] at hr

/-! ## Steps -/

/-- What a commit leaves: nothing to try, or a marked row as it was and the same renewals. -/
theorem commit_pending {w : World} {i : ℕ} {f : Flight} {r' : SubscriptionRow} (hi : Inv w)
    (hf : w.flights[i]? = some f) (hc : CommitKeeps w f) (h : RowWrite f w.db.sub r') :
    r'.lastRenewalAttemptedAt = w.db.sub.lastRenewalAttemptedAt ∧
      (Untried r' ∨ 0 < w.dispatching ∨ ∃ g ∈ w.flights.eraseIdx i, isRenewal g) := by
  -- Whoever leaves state, mark and date alone and is no renewal changes nothing here.
  have hsame : isRenewal f = false → (Untried w.db.sub → Untried r') →
      Untried r' ∨ 0 < w.dispatching ∨ ∃ g ∈ w.flights.eraseIdx i, isRenewal g := by
    intro hr hrow
    rcases hi.pending with hun | hdis | hren
    · exact .inl (hrow hun)
    · exact .inr (.inl hdis)
    · exact .inr (.inr (renewal_erase hf hr hren))
  cases h with
  | renewed hphase happ _ hrow =>
    obtain ⟨-, hnext, -, -, hlast, -⟩ := writeRow_eq_ok hrow w.db.sub
    refine ⟨hlast, .inl fun _ last hmem => ?_⟩
    rw [hlast] at hmem
    simp only [CommitKeeps, hphase] at hc
    exact ⟨_, hnext, lt_of_le_of_lt (hi.marked last hmem) (hc.1 happ)⟩
  | declined _ _ _ | blocked _ _ =>
    refine ⟨rfl, .inl fun hs => ?_⟩
    cases hs
  | terminated _ =>
    refine ⟨rfl, .inl fun hs => ?_⟩
    cases hs
  | used hphase _ | changed hphase =>
    exact ⟨rfl, hsame (by simp [isRenewal, Flight.renewal, hphase]) id⟩
  | bought hphase =>
    simp only [CommitKeeps, hphase] at hc
    refine ⟨by unfold vasRow; split <;> rfl, ?_⟩
    by_cases hs : f.found.state = .blocked
    · left
      intro _
      rw [vasRow, hs]
      exact hc hs
    · apply hsame (by simp [isRenewal, Flight.renewal, hphase])
      intro h
      unfold vasRow
      split
      · contradiction
      · exact h
      · exact h

/-- A renewal that ends without a commit leaves a row that was not marked. -/
theorem erase_pending {w : World} {i : ℕ} {f : Flight} (hi : Inv w) (hf : w.flights[i]? = some f)
    (hend : isRenewal f → Untried w.db.sub) : Pending { w with flights := w.flights.eraseIdx i } := by
  by_cases hr : isRenewal f
  · exact .inl (hend hr)
  · rcases hi.pending with hun | hdis | hren
    · exact .inl hun
    · exact .inr (.inl hdis)
    · exact .inr (.inr (renewal_erase hf (by simpa using hr) hren))

theorem goOn_pending {w : World} {i : ℕ} {f : Flight} {next : Option Phase} (hi : Inv w)
    (hf : w.flights[i]? = some f)
    (hnext : isRenewal f → next.any fun phase => isRenewal ⟨f.found, phase⟩) :
    Pending (w.goOn i f next) := by
  rcases hi.pending with hun | hdis | hren
  · exact .inl (by simpa using hun)
  · exact .inr (.inl (by simpa using hdis))
  · exact .inr (.inr (renewal_goOn hf hnext hren))

theorem charge_pending {w : World} {i : ℕ} {f : Flight} {reply : Except ClientError PaymentResult}
    {c : Charged} (hi : Inv w) (hc : NoneLost w (.charge i reply)) (hf : w.flights[i]? = some f)
    (hcharge : f.charge w.clock reply = some c) : Pending (w.goOn i f c.next) := by
  cases reply with
  | ok pay => exact goOn_pending hi hf (charge_keeps hcharge)
  | error e =>
    cases charge_replied hcharge
    exact erase_pending hi hf (hc f hf)

theorem step_inv {w w' : World} {l : Label} (hi : Inv w) (hc : NoneLost w l) (h : w.step l = some w') :
    Inv w' := by
  cases World.step_moved h with
  | tick hle => exact ⟨fun last hmem => (hi.marked last hmem).trans hle, hi.pending⟩
  | drop _ => exact ⟨hi.marked, .inl hc⟩
  | read hs =>
    refine ⟨hi.marked, ?_⟩
    rcases hi.pending with hun | hdis | ⟨f, hf, hr⟩
    · exact .inl hun
    · exact .inr (.inl hdis)
    · exact .inr (.inr ⟨f, List.mem_append_left _ hf, hr⟩)
  | dispatch _ hs =>
    refine ⟨hi.marked, .inr (.inr ⟨_, List.mem_append_right _ (List.mem_singleton_self _), ?_⟩)⟩
    obtain ⟨p, -, rfl⟩ := Option.map_eq_some_iff.mp hs
    rfl
  | charge hf hcharge =>
    exact ⟨by simpa [Marked] using hi.marked, charge_pending hi hc hf hcharge⟩
  | openTx hf _ ho =>
    exact ⟨by simpa [Marked] using hi.marked, goOn_pending hi hf (openTx_keeps ho)⟩
  | commit hf _ hcommit =>
    obtain ⟨hlast, hpending⟩ := commit_pending hi hf (hc _ hf) (commit_rowWrite hcommit)
    refine ⟨fun last hmem => hi.marked last ?_, hpending⟩
    rw [← hlast]
    exact hmem
  | rollback hf hcommit =>
    exact ⟨hi.marked, erase_pending hi hf fun hr => rollback_untried hr (hc _ hf) hcommit⟩
  | fail hf => exact ⟨hi.marked, erase_pending hi hf (hc _ hf)⟩
  | sweepDue hle hdue =>
    refine ⟨fun last hmem => ?_, .inr (.inl (Nat.succ_pos _))⟩
    cases hmem
    exact hle
  | sweepSkipped hle hdue =>
    refine ⟨fun last hmem => ?_, .inl fun hs => ?_⟩
    · cases hmem
      exact hle
    · have hblocked := hdue.1
      rw [show w.db.sub.state = .active from hs] at hblocked
      cases hblocked

/-- **An overdue active line is due for the worker** whenever no renewal is under way, in
every run in which a renewal of a marked line ends only with its commit, and only a line
that is not marked is unblocked. -/
theorem overdue_due (db : SubDb) (clock : Time) (huntried : Untried db.sub)
    (hmarked : ∀ last ∈ db.sub.lastRenewalAttemptedAt, last ≤ clock) (ls : List Label) (w : World)
    (h : exec (guarded NoneLost World.step) (World.idle db clock) ls = some w) (hrest : AtRest w)
    (hactive : w.db.sub.state = .active) (hover : w.db.sub.Overdue w.clock) :
    w.db.sub.DueForRenewal w.clock w.db.sub.tenantId := by
  have hidle : Inv (World.idle db clock) := ⟨hmarked, .inl huntried⟩
  have hi : Inv w := guarded_inv (fun _ _ _ => step_inv) hidle h
  refine ⟨hactive, hover, ?_, rfl⟩
  rcases hi.pending with hun | hdis | ⟨f, hf, hr⟩
  · exact hun hactive
  · exact absurd hrest.1 (by omega)
  · rw [hrest.2 f hf] at hr
    cases hr

def dueWorld : World := World.idle (sampleLine .active 100 70) (periodEnd 0)

/-- The worker renews the line, and a period later the line is due again. -/
theorem overdue_due_next_period :
    let w := (exec (guarded NoneLost World.step) dueWorld
      [.sweepDue (periodEnd 0) "DEFAULT", .dispatch sampleRenewEnv, .charge 0 (.ok approved),
       .openTx 0, .commit 0, .tick (2 * periodEnd 0)]).get (by decide)
    w.db.sub.DueForRenewal w.clock w.db.sub.tenantId :=
  overdue_due (sampleLine .active 100 70) (periodEnd 0) (by decide) (by decide) _ _
    (Option.some_get _).symm (by decide) (by decide) (by decide)

/-- The payment service is down when the worker dispatches: the line stays active and
overdue, and no later sweep picks it up. -/
theorem renewal_lost :
    ∃ w, exec World.step dueWorld
        [.sweepDue (periodEnd 0) "DEFAULT", .dispatch sampleRenewEnv,
         .charge 0 (.error (.transport "connection refused"))] = some w ∧
      AtRest w ∧ w.db.sub.state = .active ∧ w.db.sub.Overdue w.clock ∧
      ∀ now tenantId, ¬ w.db.sub.DueForRenewal now tenantId :=
  ⟨_, rfl, by decide, rfl, by decide, fun _ _ hdue => absurd hdue.2.2.1 (by decide)⟩

end BssCli.Subscription.Lost
