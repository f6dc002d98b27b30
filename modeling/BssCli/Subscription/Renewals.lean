import BssCli.Subscription.World

/-!
# Renewals at the same time

A renewal writes the counter and the next date that follow from the row it read. Two that
read the same row both charge, and the second writes what the first has written.
-/

namespace BssCli.Subscription.Renewals

open Steps Money

/-! ## What is counted -/

def renewalPaid (c : Charge) : Bool := c.request.purpose = "renewal" && c.approved

def discountPaid (c : Charge) : Bool := renewalPaid c && c.discounted

def approvedRenewals (w : World) : ℕ := w.charges.countP renewalPaid

def discountedRenewals (w : World) : ℕ := w.charges.countP discountPaid

/-- The commit moved the next renewal strictly forward, one period from its own clock. -/
def isAdvance (c : Commit) : Bool :=
  match c.flight.phase with
  | .resetting p _ _ => decide (c.after.nextRenewalAt = some (periodEnd p.now) ∧
      ∃ next ∈ c.row.nextRenewalAt, next < periodEnd p.now)
  | _ => false

def advances (w : World) : ℕ := w.committed.countP isAdvance

def isPaid (f : Flight) : Bool := f.paid.isSome

def isPaidDiscount (f : Flight) : Bool := f.paid.any RenewPlan.discount

/-! ## The condition -/

/-- The renewal finds what it read, it moves the date forward, and Postgres takes it. -/
def Undisturbed (db : SubDb) (f : Flight) : Prop :=
  match f.phase with
  | .resetting p pay existing => pay.Approved →
      db.sub.nextRenewalAt = f.found.nextRenewalAt ∧
      db.sub.discountPeriodsRemaining = f.found.discountPeriodsRemaining ∧
      (∃ next ∈ db.sub.nextRenewalAt, next < periodEnd p.now) ∧ p.Storable existing db.balances
  | _ => True

instance (db : SubDb) (f : Flight) : Decidable (Undisturbed db f) :=
  match hf : f.phase with
  | .resetting p pay existing => decidable_of_iff (pay.Approved →
      db.sub.nextRenewalAt = f.found.nextRenewalAt ∧
      db.sub.discountPeriodsRemaining = f.found.discountPeriodsRemaining ∧
      (∃ next ∈ db.sub.nextRenewalAt, next < periodEnd p.now) ∧ p.Storable existing db.balances)
      (by simp only [Undisturbed, hf])
  | .renewing _ | .renewed _ _ | .buying _ | .bought _ _ _ | .adding _ _ _ _ | .using _
  | .decrementing _ _ | .terminating _ | .changing _ => .isTrue (by simp only [Undisturbed, hf])

/-- A paid renewal has read an active row, is stored, and nobody else renews before it is. -/
def OneAtATime (w : World) : Label → Prop
  | .charge i reply => ∀ f ∈ w.flights[i]?, f.renewal.isSome → approvedReply reply →
      f.found.state = .active
  | .commit i => ∀ f ∈ w.flights[i]?, Undisturbed w.db f
  | .fail i => ∀ f ∈ w.flights[i]?, f.paid = none
  | _ => True

instance (w : World) : ∀ l, Decidable (OneAtATime w l)
  | .charge i reply => inferInstanceAs (Decidable (∀ f ∈ w.flights[i]?, f.renewal.isSome →
      approvedReply reply → f.found.state = .active))
  | .commit i => inferInstanceAs (Decidable (∀ f ∈ w.flights[i]?, Undisturbed w.db f))
  | .fail i => decidable_of_iff (∀ f ∈ w.flights[i]?, f.paid.isNone) (by simp [OneAtATime])
  | .tick _ | .read _ | .dispatch _ | .drop | .openTx _ | .sweepDue _ _ | .sweepSkipped _ _ =>
    .isTrue trivial

/-! ## Steps of a call -/

theorem start_paid {c : Call} {now : Time} {sub : SubscriptionRow} {phase : Phase}
    (h : c.start now sub = some phase) : (⟨sub, phase⟩ : Flight).paid = none := by
  cases start_started h <;> rfl

/-- A charge makes a paid renewal of a renewal, once, when it is approved. -/
theorem charge_paid {f : Flight} {now : Time} {reply : Except ClientError PaymentResult} {c : Charged}
    (h : f.charge now reply = some c) :
    f.paid = none ∧
      c.charges.countP renewalPaid = (if c.next.any fun p => isPaid ⟨f.found, p⟩ then 1 else 0) ∧
      c.charges.countP discountPaid =
        (if c.next.any fun p => isPaidDiscount ⟨f.found, p⟩ then 1 else 0) ∧
      ∀ phase ∈ c.next, ∀ p ∈ (⟨f.found, phase⟩ : Flight).paid,
        f.renewal.isSome ∧ approvedReply reply := by
  cases charge_replied h with
  | @renewed p pay hf =>
    refine ⟨by simp [Flight.paid, hf], ?_, ?_, ?_⟩
    · by_cases happ : pay.Approved <;>
        simp [renewalPaid, RenewPlan.request, isPaid, Flight.paid, happ]
    · by_cases happ : pay.Approved <;>
        simp [discountPaid, renewalPaid, RenewPlan.request, isPaidDiscount, Flight.paid, happ]
    · intro phase hphase q hq
      cases hphase
      refine ⟨by simp [Flight.renewal, hf], ?_⟩
      simp only [Flight.paid, Option.mem_def, Option.ite_none_right_eq_some] at hq
      simpa [approvedReply] using hq.1
  | bought hf _ =>
    refine ⟨by simp [Flight.paid, hf], ?_, ?_, ?_⟩
    · simp [renewalPaid, VasPlan.request, isPaid, Flight.paid]
    · simp [discountPaid, isPaidDiscount, Flight.paid]
    · intro phase hphase q hq
      cases hphase
      cases hq
  | declined hf _ =>
    exact ⟨by simp [Flight.paid, hf], by simp [renewalPaid], by simp [discountPaid], by simp⟩
  | failed hnone => exact ⟨hnone, by simp, by simp, by simp⟩

theorem openTx_paid {f : Flight} {db : SubDb} {next : Option Phase} (h : f.openTx db = some next) :
    (∀ phase ∈ next, (⟨f.found, phase⟩ : Flight).paid = f.paid) ∧ (next = none → f.paid = none) := by
  cases openTx_opened h with
  | resetting hf | adding hf | decrementing hf _ | refused hf _ => simp [Flight.paid, hf]

/-- A commit that stores no paid renewal is no advance and leaves the counter alone. -/
theorem rowWrite_unpaid {f : Flight} {r r' : SubscriptionRow} (h : RowWrite f r r')
    (hf : f.paid = none) :
    isAdvance ⟨r, r', f⟩ = false ∧ r'.discountPeriodsRemaining = r.discountPeriodsRemaining := by
  cases h with
  | renewed hphase happ => simp [Flight.paid, hphase, happ] at hf
  | declined hphase _ _ =>
    refine ⟨?_, rfl⟩
    simp only [isAdvance, hphase, decide_eq_false_iff_not, not_and, not_exists]
    intro hafter next hnext hlt
    have hafter : r.nextRenewalAt = some _ := hafter
    rw [Option.mem_def.mp hnext, Option.some.injEq] at hafter
    exact absurd hafter (ne_of_lt hlt)
  | bought hphase =>
    refine ⟨by simp [isAdvance, hphase], ?_⟩
    unfold vasRow
    split <;> rfl
  | blocked hphase _ | used hphase _ | terminated hphase | changed hphase =>
    exact ⟨by simp [isAdvance, hphase], rfl⟩

/-- The commit of a paid renewal that finds what it read is an advance, and a discounted
one uses up a period. -/
theorem rowWrite_paid {f : Flight} {r r' : SubscriptionRow} {p : RenewPlan} (h : RowWrite f r r')
    (hf : f.paid = some p) (hplan : ∃ env, renewPlan env p.now f.found = .ok p)
    (hrem : r.discountPeriodsRemaining = f.found.discountPeriodsRemaining)
    (hnext : ∃ next ∈ r.nextRenewalAt, next < periodEnd p.now)
    (hpos : 0 ≤ r.discountPeriodsRemaining) :
    isAdvance ⟨r, r', f⟩ = true ∧ 0 ≤ r'.discountPeriodsRemaining ∧
      r'.discountPeriodsRemaining + (if p.discount then 1 else 0) ≤ r.discountPeriodsRemaining := by
  cases h with
  | @renewed q pay existing row hphase happ _ hrow =>
    have hq : q = p := by simpa [Flight.paid, hphase, happ] using hf
    rw [hq] at hphase hrow
    obtain ⟨-, hnew, -, -, -, -, hnewrem⟩ := writeRow_eq_ok hrow r
    refine ⟨?_, ?_⟩
    · simp only [isAdvance, hphase, decide_eq_true_eq]
      exact ⟨hnew, hnext⟩
    · obtain ⟨env, hplan⟩ := hplan
      obtain ⟨-, -, -, hdisc, -⟩ := renewPlan_eq_ok hplan
      rw [hnewrem]
      by_cases hpivot : p.pivot
      · have : p.discount = false := by rw [hdisc, hpivot]; rfl
        simp only [hpivot, this, if_true, Bool.false_eq_true, if_false]
        omega
      · simp only [hpivot, Bool.false_eq_true, if_false]
        have hlive : p.discount = true → f.found.discountPeriodsRemaining ≠ 0 := by
          intro hd
          rw [hd, applyingDiscount] at hdisc
          simpa using (Bool.and_eq_true_iff.mp hdisc.symm).2
        unfold RenewPlan.newRemaining
        by_cases hd : p.discount = true
        · have := hlive hd
          simp only [hd, true_and, if_true]
          split <;> omega
        · simp only [hd, Bool.false_eq_true, false_and, if_false]
          omega
  | declined hphase happ | bought hphase | blocked hphase | used hphase | terminated hphase
  | changed hphase => simp [Flight.paid, hphase] at hf <;> exact absurd hf.1 happ

/-! ## The invariant -/

/-- Every approved renewal charge is stored or under way, and every discounted one has
used up a period or is going to. -/
structure Inv (n : ℤ) (w : World) : Prop where
  planned : ∀ f ∈ w.flights, World.Planned f
  active : ∀ f ∈ w.flights, ∀ p ∈ f.paid, f.found.state = .active
  count : approvedRenewals w = advances w + w.flights.countP isPaid
  nonneg : 0 ≤ w.db.sub.discountPeriodsRemaining
  discounted : (discountedRenewals w : ℤ) + w.db.sub.discountPeriodsRemaining ≤
    n + (w.flights.countP isPaidDiscount : ℕ)

theorem inv_idle {db : SubDb} {clock : Time} (h : 0 ≤ db.sub.discountPeriodsRemaining) :
    Inv db.sub.discountPeriodsRemaining (World.idle db clock) := by
  refine ⟨by simp [World.idle], by simp [World.idle], rfl, h, ?_⟩
  simp [World.idle, discountedRenewals]

theorem isPaid_eq {f g : Flight} (h : f.paid = g.paid) :
    isPaid f = isPaid g ∧ isPaidDiscount f = isPaidDiscount g := by
  simp [isPaid, isPaidDiscount, h]

theorem unpaid_eq {f : Flight} (h : f.paid = none) : isPaid f = false ∧ isPaidDiscount f = false := by
  simp [isPaid, isPaidDiscount, h]

theorem active_step {w w' : World} {l : Label} (h : w.step l = some w') (hc : OneAtATime w l)
    (hi : ∀ f ∈ w.flights, ∀ p ∈ f.paid, f.found.state = .active) :
    ∀ f ∈ w'.flights, ∀ p ∈ f.paid, f.found.state = .active := by
  cases World.step_moved h with
  | tick _ | drop _ | sweepDue _ _ | sweepSkipped _ _ => exact hi
  | read hs | dispatch _ hs =>
    refine Pool.forall_concat hi ?_
    rw [start_paid hs]
    simp
  | charge hf hcharge =>
    apply World.forall_goOn hi
    intro phase hphase p hp
    obtain ⟨hren, happ⟩ := (charge_paid hcharge).2.2.2 phase hphase p hp
    have := hc _ hf hren happ
    exact this
  | openTx hf _ ho =>
    apply World.forall_goOn hi
    intro phase hphase p hp
    rw [(openTx_paid ho).1 phase hphase] at hp
    have := hi _ (Pool.mem_of_getElem? hf) p hp
    exact this
  | commit _ _ _ | rollback _ _ | fail _ => exact Pool.forall_eraseIdx hi

theorem inv_charge {n : ℤ} {w : World} {i : ℕ} {f : Flight} {c : Charged}
    {reply : Except ClientError PaymentResult} (hi : Inv n w) (hf : w.flights[i]? = some f)
    (hc : f.charge w.clock reply = some c) :
    (w.charges ++ c.charges).countP renewalPaid =
        advances w + (w.goOn i f c.next).flights.countP isPaid ∧
      ((w.charges ++ c.charges).countP discountPaid : ℤ) + w.db.sub.discountPeriodsRemaining ≤
        n + ((w.goOn i f c.next).flights.countP isPaidDiscount : ℕ) := by
  obtain ⟨hnone, hcount, hdisc, -⟩ := charge_paid hc
  obtain ⟨hp, hd⟩ := unpaid_eq hnone
  have h₁ := World.countP_goOn isPaid hf c.next
  have h₂ := World.countP_goOn isPaidDiscount hf c.next
  rw [hp] at h₁
  rw [hd] at h₂
  have hi₁ := hi.count
  have hi₂ := hi.discounted
  unfold approvedRenewals at hi₁
  unfold discountedRenewals at hi₂
  simp only [Bool.false_eq_true, if_false] at h₁ h₂
  rw [List.countP_append, List.countP_append, hcount, hdisc]
  constructor <;> omega

theorem inv_openTx {w : World} {i : ℕ} {f : Flight} {next : Option Phase}
    (hf : w.flights[i]? = some f) (ho : f.openTx w.db = some next) :
    (w.goOn i f next).flights.countP isPaid = w.flights.countP isPaid ∧
      (w.goOn i f next).flights.countP isPaidDiscount = w.flights.countP isPaidDiscount := by
  have h₁ := World.countP_goOn isPaid hf next
  have h₂ := World.countP_goOn isPaidDiscount hf next
  obtain ⟨hsame, hend⟩ := openTx_paid ho
  cases next with
  | none =>
    obtain ⟨hp, hd⟩ := unpaid_eq (hend rfl)
    simp only [hp, hd, Option.any_none, Bool.false_eq_true, if_false] at h₁ h₂
    omega
  | some phase =>
    obtain ⟨hp, hd⟩ := isPaid_eq (hsame phase rfl)
    simp only [Option.any_some, hp, hd] at h₁ h₂
    omega

theorem paid_not_rollback {db : SubDb} {f : Flight} {e : ApiError} (hu : Undisturbed db f)
    (hactive : ∀ p ∈ f.paid, f.found.state = .active) (h : f.commit db = some (.error e)) :
    f.paid = none := by
  unfold Flight.commit at h
  split at h <;> simp only [Option.some.injEq, reduceCtorEq] at h
  · rename_i p pay existing hphase
    by_cases happ : pay.Approved
    · simp only [Undisturbed, hphase] at hu
      have hs := hactive p (by simp [Flight.paid, hphase, happ])
      obtain ⟨db', hok⟩ : ∃ db', renewApproved f.found p pay existing db = .ok db' :=
        renewApproved_isOk.mpr ⟨hs, (hu happ).2.2.2⟩
      rw [renewCommit, if_pos happ, hok] at h
      cases h
    · simp [Flight.paid, hphase, happ]
  all_goals
    rename_i hphase
    simp [Flight.paid, hphase]

theorem undisturbed_paid {db : SubDb} {f : Flight} {p : RenewPlan} {r : Except ApiError SubDb}
    (hu : Undisturbed db f) (hf : f.paid = some p) (h : f.commit db = some r) :
    db.sub.discountPeriodsRemaining = f.found.discountPeriodsRemaining ∧
      ∃ next ∈ db.sub.nextRenewalAt, next < periodEnd p.now := by
  unfold Flight.paid at hf
  split at hf
  · rename_i hphase
    simp [Flight.commit, hphase] at h
  · rename_i q pay existing hphase
    simp only [Option.ite_none_right_eq_some, Option.some.injEq] at hf
    obtain ⟨happ, rfl⟩ := hf
    simp only [Undisturbed, hphase] at hu
    exact ⟨(hu happ).2.1, (hu happ).2.2.1⟩
  · simp at hf

theorem commit_counts {w : World} {i : ℕ} {f : Flight} {db : SubDb} {n : ℤ} (hi : Inv n w)
    (hf : w.flights[i]? = some f) (hu : Undisturbed w.db f) (hcommit : f.commit w.db = some (.ok db)) :
    approvedRenewals w = (w.committed ++ [(⟨w.db.sub, db.sub, f⟩ : Commit)]).countP isAdvance +
        (w.flights.eraseIdx i).countP isPaid ∧
      0 ≤ db.sub.discountPeriodsRemaining ∧
      (discountedRenewals w : ℤ) + db.sub.discountPeriodsRemaining ≤
        n + ((w.flights.eraseIdx i).countP isPaidDiscount : ℕ) := by
  have hwrite := commit_rowWrite hcommit
  have h₁ := Pool.countP_eraseIdx isPaid hf
  have h₂ := Pool.countP_eraseIdx isPaidDiscount hf
  have hi₁ := hi.count
  have hi₂ := hi.discounted
  have hi₃ := hi.nonneg
  unfold advances at hi₁
  rw [List.countP_append, List.countP_singleton]
  cases hpaid : f.paid with
  | none =>
    obtain ⟨hadv, hrem⟩ := rowWrite_unpaid hwrite hpaid
    obtain ⟨hp, hd⟩ := unpaid_eq hpaid
    simp only [hp, hd, Bool.false_eq_true, if_false] at h₁ h₂
    rw [hadv, hrem]
    simp only [Bool.false_eq_true, if_false]
    omega
  | some p =>
    have hmem := Pool.mem_of_getElem? hf
    have hplan := hi.planned f hmem p (by
      unfold Flight.paid at hpaid
      unfold Flight.renewal
      split at hpaid <;> simp_all)
    obtain ⟨hsame, hnext⟩ := undisturbed_paid hu hpaid hcommit
    obtain ⟨hadv, hpos, hrem⟩ := rowWrite_paid hwrite hpaid hplan hsame hnext hi₃
    have hp : isPaid f = true := by simp [isPaid, hpaid]
    have hd : isPaidDiscount f = p.discount := by simp [isPaidDiscount, hpaid]
    rw [hp] at h₁
    rw [hd] at h₂
    rw [hadv]
    simp only [if_true] at h₁ ⊢
    refine ⟨by omega, hpos, ?_⟩
    split at h₂ <;> split at hrem <;> simp_all <;> omega

theorem step_inv {n : ℤ} {w w' : World} {l : Label} (hi : Inv n w) (hc : OneAtATime w l)
    (h : w.step l = some w') : Inv n w' := by
  have hplanned := World.planned_inv h hi.planned
  have hactive := active_step h hc hi.active
  cases World.step_moved h with
  | tick _ | drop _ | sweepDue _ _ | sweepSkipped _ _ =>
    exact ⟨hplanned, hactive, hi.count, hi.nonneg, hi.discounted⟩
  | read hs | dispatch _ hs =>
    obtain ⟨hp, hd⟩ := unpaid_eq (start_paid hs)
    refine ⟨hplanned, hactive, ?_, hi.nonneg, ?_⟩
    · simp only [World.launch, List.countP_append, List.countP_singleton, hp]
      exact hi.count
    · simp only [World.launch, List.countP_append, List.countP_singleton, hd]
      exact hi.discounted
  | charge hf hcharge =>
    obtain ⟨h₁, h₂⟩ := inv_charge hi hf hcharge
    refine ⟨hplanned, hactive, ?_, by simpa using hi.nonneg, ?_⟩
    · simpa [approvedRenewals, advances] using h₁
    · simpa [discountedRenewals] using h₂
  | openTx hf _ ho =>
    obtain ⟨h₁, h₂⟩ := inv_openTx hf ho
    refine ⟨hplanned, hactive, ?_, by simpa using hi.nonneg, ?_⟩
    · rw [h₁]
      simpa [approvedRenewals, advances] using hi.count
    · rw [h₂]
      simpa [discountedRenewals] using hi.discounted
  | commit hf _ hcommit =>
    obtain ⟨h₁, h₂, h₃⟩ := commit_counts hi hf (hc _ hf) hcommit
    exact ⟨hplanned, hactive, h₁, h₂, h₃⟩
  | rollback hf hcommit =>
    have hnone := paid_not_rollback (hc _ hf) (hi.active _ (Pool.mem_of_getElem? hf)) hcommit
    obtain ⟨hp, hd⟩ := unpaid_eq hnone
    have h₁ := Pool.countP_eraseIdx isPaid hf
    have h₂ := Pool.countP_eraseIdx isPaidDiscount hf
    simp only [hp, hd, Bool.false_eq_true, if_false, Nat.add_zero] at h₁ h₂
    exact ⟨hplanned, hactive, by rw [← h₁]; exact hi.count, hi.nonneg, by rw [← h₂]; exact hi.discounted⟩
  | fail hf =>
    obtain ⟨hp, hd⟩ := unpaid_eq (hc _ hf)
    have h₁ := Pool.countP_eraseIdx isPaid hf
    have h₂ := Pool.countP_eraseIdx isPaidDiscount hf
    simp only [hp, hd, Bool.false_eq_true, if_false, Nat.add_zero] at h₁ h₂
    exact ⟨hplanned, hactive, by rw [← h₁]; exact hi.count, hi.nonneg, by rw [← h₂]; exact hi.discounted⟩

/-- **Every approved renewal is one advance, and at most `n` were discounted,** once no
paid renewal is under way, in every run in which the renewals do not overlap. -/
theorem renewals_accounted (db : SubDb) (clock : Time) (hn : 0 ≤ db.sub.discountPeriodsRemaining)
    (ls : List Label) (w : World)
    (h : exec (guarded OneAtATime World.step) (World.idle db clock) ls = some w)
    (hrest : ∀ f ∈ w.flights, f.paid = none) :
    approvedRenewals w = advances w ∧ (discountedRenewals w : ℤ) ≤ db.sub.discountPeriodsRemaining := by
  have hi : Inv db.sub.discountPeriodsRemaining w := guarded_inv (fun _ _ _ => step_inv) (inv_idle hn) h
  have hzero : ∀ q : Flight → Bool, (∀ f, f.paid = none → q f = false) → w.flights.countP q = 0 := by
    intro q hq
    apply List.countP_eq_zero.mpr
    intro f hf
    rw [hq f (hrest f hf)]
    simp
  have h₁ := hi.count
  have h₂ := hi.discounted
  rw [hzero _ fun f hf => (unpaid_eq hf).1] at h₁
  rw [hzero _ fun f hf => (unpaid_eq hf).2] at h₂
  have := hi.nonneg
  exact ⟨by omega, by omega⟩

/-- The sample line with one discounted period to go, due now. -/
def discountedLine : SubDb := (sampleLine .active 100 70).updateSub fun r =>
  { r with discountType := some "percent", discountValue := some 20, discountPeriodsRemaining := 1 }

def dueWorld : World := World.idle discountedLine (periodEnd 0)

def payAndStore (i : ℕ) : List Label := [.charge i (.ok approved), .openTx i, .commit i]

theorem renewals_accounted_in_turn :
    let w := (exec (guarded OneAtATime World.step) dueWorld
      (.read (.renew sampleRenewEnv) :: payAndStore 0 ++
        [.tick (2 * periodEnd 0), .read (.renew sampleRenewEnv)] ++ payAndStore 0)).get (by decide +kernel)
    approvedRenewals w = advances w ∧
      (discountedRenewals w : ℤ) ≤ discountedLine.sub.discountPeriodsRemaining :=
  renewals_accounted discountedLine (periodEnd 0) (by decide) _ _ (Option.some_get _).symm
    (by decide +kernel)

/-- Two renewals read the same row: two charges, both discounted, and one period. -/
theorem renewals_overlapping :
    ∃ w, exec World.step dueWorld
        ([.read (.renew sampleRenewEnv), .read (.renew sampleRenewEnv), .charge 0 (.ok approved),
          .charge 1 (.ok approved), .openTx 0, .commit 0, .openTx 0, .commit 0]) = some w ∧
      w.flights.length = 0 ∧ approvedRenewals w = 2 ∧ advances w = 1 ∧
      discountedLine.sub.discountPeriodsRemaining < discountedRenewals w :=
  ⟨(exec World.step dueWorld
      ([.read (.renew sampleRenewEnv), .read (.renew sampleRenewEnv), .charge 0 (.ok approved),
        .charge 1 (.ok approved), .openTx 0, .commit 0, .openTx 0, .commit 0])).get (by decide +kernel),
    (Option.some_get _).symm, by decide +kernel, by decide +kernel, by decide +kernel, by decide +kernel⟩

end BssCli.Subscription.Renewals
