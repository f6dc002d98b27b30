import BssCli.Subscription.World

/-!
# Top-ups and usage on one balance

Usage locks the balance it decrements. A top-up does not: it writes the total it read plus
its quantity. Run alone, each does to the balance what its entry in a ledger says.
-/

/-!
## What the row lock of a usage event is worth

From the read under the lock to the commit nobody else changes the balance. So the
decrement that is written is the decrement of the row that is there.
-/

namespace BssCli.Subscription.Locks

/-- The target of a top-up has the type that is topped up. -/
def Aimed (f : Flight) : Prop :=
  ∀ p pay now t, f.phase = .adding p pay now (some t) → t.allowanceType = p.allowanceType

theorem start_phase {c : Call} {now : Time} {sub : SubscriptionRow} {phase : Phase}
    (h : c.start now sub = some phase) :
    (∀ p pay now t, phase ≠ .adding p pay now t) ∧ ∀ u effect, phase ≠ .decrementing u effect := by
  cases start_started h <;> simp

theorem charge_phase {f : Flight} {now : Time} {reply : Except ClientError PaymentResult} {c : Charged}
    {phase : Phase} (h : f.charge now reply = some c) (hp : c.next = some phase) :
    (∀ p pay now t, phase ≠ .adding p pay now t) ∧ ∀ u effect, phase ≠ .decrementing u effect := by
  cases charge_replied h with
  | renewed _ | bought _ _ =>
    cases hp
    simp
  | declined _ _ | failed _ => cases hp

theorem openTx_aimed {f : Flight} {db : SubDb} {phase : Phase} (h : f.openTx db = some (some phase)) :
    Aimed ⟨f.found, phase⟩ := by
  intro p pay now t hphase
  simp only at hphase
  cases openTx_opened h with
  | resetting _ | decrementing _ _ => cases hphase
  | adding _ =>
    rw [Phase.adding.injEq] at hphase
    obtain ⟨rfl, -, -, ht⟩ := hphase
    exact (Table.find_some _ ht).2

theorem aimed_inv {w w' : World} {l : Label} (h : w.step l = some w')
    (hA : ∀ f ∈ w.flights, Aimed f) : ∀ f ∈ w'.flights, Aimed f :=
  World.flights_inv h (fun _ _ _ hs p pay now _ hp => absurd hp ((start_phase hs).1 p pay now _))
    (fun _ _ _ _ _ hc hp p pay now _ hq => absurd hq ((charge_phase hc hp).1 p pay now _))
    (fun _ _ _ ho => openTx_aimed ho) hA

/-! ## A commit changes only what it locks -/

theorem resetRead_same {p : RenewPlan} {existing : List String} {b : BundleBalanceRow}
    (h : b.allowanceType ∉ existing.filter fun ty => p.pivot || (p.specOf ty).isSome) :
    p.resetRead existing b = b := by
  unfold RenewPlan.resetRead
  split
  · rename_i hmem
    simp only [List.mem_filter, hmem, true_and, Bool.or_eq_true, not_or, Bool.not_eq_true,
      Option.isSome_eq_false_iff, Option.isNone_iff_eq_none] at h
    simp [RenewPlan.resetRow, h.1, h.2]
  · rfl

theorem vasBalances_same {sub : SubscriptionRow} {p : VasPlan} {now : Time}
    {target : Option BundleBalanceRow} {t t' : Balances} {ty : String} {b : BundleBalanceRow}
    (h : vasBalances sub p now target t = .ok t') (hb : t.find ty = some b)
    (hty : ∀ r ∈ target, 0 < p.quantity.val ∧ r.total ≠ -1 → ty ≠ r.allowanceType) :
    t'.find ty = some b := by
  unfold vasBalances at h
  split at h
  · split at h
    · obtain ⟨hnone, hfind⟩ := Balances.insertRow_eq_ok h
      rw [hfind, if_neg ?_, hb]
      rintro rfl
      simp only at hnone
      rw [hb] at hnone
      cases hnone
    · cases h; exact hb
  · rename_i r
    split at h
    · rename_i hq
      rw [(Balances.write_eq_ok h).2, if_neg (hty r rfl hq), hb]
    · cases h; exact hb

theorem commit_same {f : Flight} {db db' : SubDb} {ty : String} {b : BundleBalanceRow}
    (h : f.commit db = some (.ok db')) (hb : db.balances.find ty = some b) (hty : ty ∉ f.wants) :
    db'.balances.find ty = some b := by
  have hbty : b.allowanceType = ty := (Table.find_some _ hb).2
  unfold Flight.commit at h
  split at h <;> simp only [Option.some.injEq, reduceCtorEq] at h
  · rename_i p pay existing hphase
    unfold renewCommit at h
    split at h
    · rename_i happ
      rw [find_writeBalances (renewApproved_eq_ok h).2.2 hb, resetRead_same]
      simpa [Flight.wants, hphase, happ, hbty] using hty
    · rw [(renewDeclined_eq_ok h).2.2, hb]
  · rename_i p pay now target hphase
    refine vasBalances_same (vasCommit_eq_ok h).2 hb fun r hr hq heq => hty ?_
    rw [Option.mem_def.mp hr] at hphase
    simp [Flight.wants, hphase, hq, heq]
  · rename_i u effect hphase
    have hbal := (usageCommit_eq_ok h).2
    cases effect with
    | reject pv => rw [← Except.ok.inj hbal, hb]
    | missing => rw [← Except.ok.inj hbal, hb]
    | decrement result exhausted =>
      rw [(Balances.write_eq_ok hbal).2, if_neg ?_, hb]
      simpa [Flight.wants, hphase] using hty
  · rw [(terminateCommit_eq_ok h).2, hb]
  · cases h
    rw [(pendingCommit_rows _ db).2, hb]

/-! ## The invariant -/

/-- A decrement under way is the decrement of the row as it is now. -/
def Held (db : SubDb) (f : Flight) : Prop :=
  ∀ u result exhausted, f.phase = .decrementing u (.decrement result exhausted) →
    ∃ b, db.balances.find u.allowanceType = some b ∧ result = consume b.snapshot u.quantity

theorem held_of_phase {db : SubDb} {r : SubscriptionRow} {phase : Phase}
    (h : ∀ u effect, phase ≠ .decrementing u effect) : Held db ⟨r, phase⟩ :=
  fun u _ _ hp => absurd hp (h u _)

theorem openTx_held {f : Flight} {db : SubDb} {phase : Phase} (h : f.openTx db = some (some phase)) :
    Held db ⟨f.found, phase⟩ := by
  intro u result exhausted hphase
  simp only at hphase
  cases openTx_opened h with
  | resetting _ | adding _ => cases hphase
  | decrementing _ ho =>
    rw [Phase.decrementing.injEq] at hphase
    obtain ⟨rfl, rfl⟩ := hphase
    obtain ⟨b, all, hb, hres, -⟩ := usageOpen_decrement ho
    exact ⟨b, hb, hres⟩

theorem held_inv {w w' : World} {l : Label} (h : w.step l = some w')
    (hH : ∀ f ∈ w.flights, Held w.db f) : ∀ f ∈ w'.flights, Held w'.db f := by
  cases World.step_moved h with
  | tick _ | drop _ | sweepDue _ _ | sweepSkipped _ _ => exact hH
  | read hs | dispatch _ hs => exact Pool.forall_concat hH (held_of_phase (start_phase hs).2)
  | charge hf hc =>
    simp only [World.goOn_db]
    exact World.forall_goOn hH fun phase hp => held_of_phase (charge_phase hc hp).2
  | openTx hf _ ho =>
    simp only [World.goOn_db]
    refine World.forall_goOn hH fun phase hp => openTx_held ?_
    rw [ho, Option.mem_def.mp hp]
  | rollback _ _ | fail _ => exact Pool.forall_eraseIdx hH
  | commit hf hfree hcommit =>
    intro g hg u result exhausted hphase
    obtain ⟨b, hb, hres⟩ := hH g (List.mem_of_mem_eraseIdx hg) u result exhausted hphase
    have hty := hfree g hg u.allowanceType (by simp [Flight.holds, hphase])
    exact ⟨b, commit_same hcommit hb hty, hres⟩

end BssCli.Subscription.Locks

namespace BssCli.Subscription.TopUp

open Steps Locks

/-! ## The ledger -/

inductive Entry
  | topUp (quantity : ℤ)
  | usage (quantity : ℤ)

namespace Entry

def apply (b : BalanceSnapshot) : Entry → BalanceSnapshot
  | topUp quantity => { b with total := b.total + quantity }
  | usage quantity => consume b quantity

def added : Entry → ℤ
  | topUp quantity => quantity
  | usage _ => 0

end Entry

/-- One entry after the other, with nobody in between. -/
def serial (b : BalanceSnapshot) (es : List Entry) : BalanceSnapshot := es.foldl Entry.apply b

def purchased (es : List Entry) : ℤ := (es.map Entry.added).sum

theorem serial_total (b : BalanceSnapshot) (es : List Entry) :
    (serial b es).total = b.total + purchased es := by
  induction es generalizing b with
  | nil => simp [serial, purchased]
  | cons e es ih =>
    rw [serial, List.foldl_cons, ← serial, ih, purchased, purchased, List.map_cons, List.sum_cons]
    cases e with
    | topUp q => simp only [Entry.apply, Entry.added]; omega
    | usage q => simp only [Entry.apply, Entry.added, consume_total]; omega

/-- The entry of a commit on the balances of type `ty`. -/
def entry (ty : String) (f : Flight) : Option Entry :=
  match f.phase with
  | .adding p _ _ _ => if p.allowanceType = ty then some (.topUp p.quantity) else none
  | .decrementing u (.decrement _ _) => if u.allowanceType = ty then some (.usage u.quantity) else none
  | _ => none

/-- The entries in the order of their commits. -/
def entries (ty : String) (w : World) : List Entry := w.committed.filterMap fun c => entry ty c.flight

/-! ## The condition -/

/-- The total is still the one the top-up has read, and the new one is a finite `i64`. -/
def TotalAsRead (ty : String) (db : SubDb) (p : VasPlan) (target : Option BundleBalanceRow) : Prop :=
  p.allowanceType = ty → 0 ≤ p.quantity.val ∧ (0 < p.quantity.val → ∀ b ∈ db.balances.find ty,
    (∃ t ∈ target, t.total = b.total) ∧ FitsI64 (b.total + p.quantity) ∧
      b.total + p.quantity ≠ unlimited)

instance (ty : String) (db : SubDb) (p : VasPlan) (target : Option BundleBalanceRow) :
    Decidable (TotalAsRead ty db p target) :=
  inferInstanceAs (Decidable (_ → _ ∧ (_ → ∀ b ∈ _, (∃ t ∈ _, _) ∧ _ ∧ _)))

def isRenew : Call → Bool
  | .renew _ => true
  | _ => false

def purchase (f : Flight) : Option (VasPlan × Option BundleBalanceRow) :=
  match f.phase with
  | .adding p _ _ target => some (p, target)
  | _ => none

/-- No renewal, and no total changes between the read and the commit of a top-up of `ty`. -/
def NoLostTopUp (ty : String) (w : World) (l : Label) : Prop :=
  (∀ c ∈ l.reads, isRenew c = false) ∧
    ∀ f ∈ w.committing l, ∀ x ∈ purchase f, TotalAsRead ty w.db x.1 x.2

instance (ty : String) (w : World) (l : Label) : Decidable (NoLostTopUp ty w l) :=
  inferInstanceAs (Decidable ((∀ c ∈ l.reads, isRenew c = false) ∧
    ∀ f ∈ w.committing l, ∀ x ∈ purchase f, TotalAsRead ty w.db x.1 x.2))

/-! ## One commit -/

theorem setConsumed_snapshot (b : BundleBalanceRow) (q : ℤ) :
    (b.setConsumed (consume b.snapshot q).consumed).snapshot = consume b.snapshot q := by
  unfold consume BundleBalanceRow.setConsumed
  split <;> rfl

theorem vas_applies {sub : SubscriptionRow} {p : VasPlan} {now : Time} {target : Option BundleBalanceRow}
    {t t' : Balances} {b : BundleBalanceRow}
    (h : vasBalances sub p now target t = .ok t') (hb : t.find p.allowanceType = some b)
    (haim : ∀ r ∈ target, r.allowanceType = p.allowanceType) (hfin : b.total ≠ unlimited)
    (hpos : 0 ≤ p.quantity.val)
    (hread : 0 < p.quantity.val → (∃ r ∈ target, r.total = b.total) ∧ FitsI64 (b.total + p.quantity) ∧
      b.total + p.quantity ≠ unlimited) :
    ∃ b', t'.find p.allowanceType = some b' ∧ b'.total ≠ unlimited ∧
      b'.snapshot = Entry.apply b.snapshot (.topUp p.quantity) := by
  by_cases hq : 0 < p.quantity.val
  · obtain ⟨⟨r, hr, htotal⟩, hfits, hfin'⟩ := hread hq
    rw [Option.mem_def] at hr
    subst hr
    have hrty : r.allowanceType = p.allowanceType := haim r rfl
    have hrfin : r.total ≠ -1 := fun h => hfin (htotal.symm.trans h)
    rw [vasBalances, if_pos ⟨hq, hrfin⟩] at h
    have hnew : (addAllowance r.snapshot p.quantity).total = b.total + p.quantity := by
      rw [addAllowance, if_neg (by push Not; exact ⟨hq, hrfin⟩)]
      rw [← htotal] at hfits ⊢
      exact i64_of_fits hfits
    refine ⟨b.setTotal (b.total + p.quantity), ?_, hfin', rfl⟩
    rw [(Balances.write_eq_ok h).2, hrty, if_pos rfl, hb, hnew]
    rfl
  · refine ⟨b, vasBalances_same h hb fun _ _ hn => absurd hn.1 hq, hfin, ?_⟩
    have h0 : p.quantity.val = 0 := by omega
    simp [Entry.apply, h0]

theorem usage_applies {u : UsageCall} {result : BalanceSnapshot} {exhausted : Bool} {t t' : Balances}
    {b : BundleBalanceRow} (h : usageBalances u (.decrement result exhausted) t = .ok t')
    (hb : t.find u.allowanceType = some b) (hres : result = consume b.snapshot u.quantity) :
    ∃ b', t'.find u.allowanceType = some b' ∧ b'.total = b.total ∧
      b'.snapshot = Entry.apply b.snapshot (.usage u.quantity) := by
  refine ⟨b.setConsumed result.consumed, ?_, rfl, ?_⟩
  · rw [(Balances.write_eq_ok h).2, if_pos rfl, hb]
    rfl
  · rw [hres, setConsumed_snapshot]
    rfl

/-- A commit does to the balance what its entry says, and nothing without one. -/
theorem commit_applies {f : Flight} {db db' : SubDb} {ty : String} {b : BundleBalanceRow}
    (h : f.commit db = some (.ok db')) (hb : db.balances.find ty = some b) (hfin : b.total ≠ unlimited)
    (haim : Aimed f) (hheld : Held db f) (hren : f.renewal = none)
    (hc : ∀ x ∈ purchase f, TotalAsRead ty db x.1 x.2) :
    ∃ b', db'.balances.find ty = some b' ∧ b'.total ≠ unlimited ∧
      b'.snapshot = serial b.snapshot (entry ty f).toList := by
  have hsame : entry ty f = none → ty ∉ f.wants → ∃ b', db'.balances.find ty = some b' ∧
      b'.total ≠ unlimited ∧ b'.snapshot = serial b.snapshot (entry ty f).toList := by
    intro hentry hty
    exact ⟨b, commit_same h hb hty, hfin, by rw [hentry]; rfl⟩
  unfold Flight.commit at h
  split at h <;> simp only [Option.some.injEq, reduceCtorEq] at h
  · rename_i hphase
    simp [Flight.renewal, hphase] at hren
  · rename_i p pay now target hphase
    have haim' : ∀ r ∈ target, r.allowanceType = p.allowanceType := by
      intro r hr
      rw [Option.mem_def] at hr
      exact haim p pay now r (hr ▸ hphase)
    by_cases hty : p.allowanceType = ty
    · subst hty
      obtain ⟨hpos, hread⟩ := hc (p, target) (by simp [purchase, hphase]) rfl
      obtain ⟨b', hb', hfin', hsnap⟩ :=
        vas_applies (vasCommit_eq_ok h).2 hb haim' hfin hpos fun hq => hread hq b hb
      exact ⟨b', hb', hfin', by rw [hsnap]; simp [entry, hphase, serial]⟩
    · refine hsame (by simp [entry, hphase, hty]) ?_
      cases target with
      | none => simp [Flight.wants, hphase]
      | some r =>
        simp only [Flight.wants, hphase, haim' r rfl]
        split
        · simpa using Ne.symm hty
        · simp
  · rename_i u effect hphase
    cases effect with
    | reject pv => exact hsame (by simp [entry, hphase]) (by simp [Flight.wants, hphase])
    | missing => exact hsame (by simp [entry, hphase]) (by simp [Flight.wants, hphase])
    | decrement result exhausted =>
      by_cases hty : u.allowanceType = ty
      · subst hty
        obtain ⟨c, hcfind, hres⟩ := hheld u result exhausted hphase
        obtain rfl : b = c := Option.some.inj (hb.symm.trans hcfind)
        obtain ⟨b', hb', htotal, hsnap⟩ := usage_applies (usageCommit_eq_ok h).2 hb hres
        exact ⟨b', hb', htotal ▸ hfin, by rw [hsnap]; simp [entry, hphase, serial]⟩
      · exact hsame (by simp [entry, hphase, hty])
          (by simpa [Flight.wants, hphase] using Ne.symm hty)
  · rename_i hphase
    exact hsame (by simp [entry, hphase]) (by simp [Flight.wants, hphase])
  · rename_i hphase
    exact hsame (by simp [entry, hphase]) (by simp [Flight.wants, hphase])

/-! ## Runs -/

structure Inv (ty : String) (start : BalanceSnapshot) (w : World) : Prop where
  aimed : ∀ f ∈ w.flights, Aimed f
  held : ∀ f ∈ w.flights, Held w.db f
  renewal : ∀ f ∈ w.flights, f.renewal = none
  balance : ∃ b, w.db.balances.find ty = some b ∧ b.total ≠ unlimited ∧
    b.snapshot = serial start (entries ty w)

theorem start_renewal {c : Call} {now : Time} {sub : SubscriptionRow} {phase : Phase}
    (h : c.start now sub = some phase) (hc : isRenew c = false) :
    (⟨sub, phase⟩ : Flight).renewal = none := by
  cases start_started h with
  | renewing _ => cases hc
  | buying _ | used _ | terminating _ | scheduled | cancelled | migrated => rfl

theorem step_inv {ty : String} {start : BalanceSnapshot} {w w' : World} {l : Label}
    (hi : Inv ty start w) (hc : NoLostTopUp ty w l) (h : w.step l = some w') : Inv ty start w' := by
  have haimed := aimed_inv h hi.aimed
  have hheld := held_inv h hi.held
  have hrenewal : ∀ f ∈ w'.flights, f.renewal = none :=
    World.flights_inv h (fun c hread _ hs => start_renewal hs (hc.1 c hread))
      (fun f _ _ _ hf hcharge hp => by rw [World.charge_renewal hcharge hp]; exact hf)
      (fun f _ hf ho => by rw [World.openTx_renewal ho]; exact hf) hi.renewal
  refine ⟨haimed, hheld, hrenewal, ?_⟩
  cases World.step_moved h with
  | tick _ | drop _ | sweepDue _ _ | sweepSkipped _ _ | read _ | dispatch _ _ | rollback _ _ | fail _ =>
    exact hi.balance
  | charge _ _ | openTx _ _ _ => simpa [entries] using hi.balance
  | commit hf _ hcommit =>
    obtain ⟨b, hb, hfin, hsnap⟩ := hi.balance
    have hmem := Pool.mem_of_getElem? hf
    obtain ⟨b', hb', hfin', hsnap'⟩ := commit_applies hcommit hb hfin (hi.aimed _ hmem)
      (hi.held _ hmem) (hi.renewal _ hmem) (hc.2 _ hf)
    refine ⟨b', hb', hfin', ?_⟩
    rw [hsnap', hsnap, serial, serial, ← List.foldl_append, ← serial]
    congr 1
    simp only [entries, List.filterMap_append, List.filterMap_cons, List.filterMap_nil]
    cases entry ty _ <;> rfl

/-- **No top-up and no usage is lost** in a run in which the total a top-up has read is
still there when it commits: the balance is what the commits make of it one by one. -/
theorem balance_serial (ty : String) (db : SubDb) (clock : Time) (b : BundleBalanceRow)
    (hb : db.balances.find ty = some b) (hfin : b.total ≠ unlimited) (ls : List Label) (w : World)
    (h : exec (guarded (NoLostTopUp ty) World.step) (World.idle db clock) ls = some w) :
    ∃ b', w.db.balances.find ty = some b' ∧ b'.total = b.total + purchased (entries ty w) ∧
      b'.consumed = (serial b.snapshot (entries ty w)).consumed := by
  have hi : Inv ty b.snapshot w := guarded_inv (fun _ _ _ => step_inv)
    ⟨by simp [World.idle], by simp [World.idle], by simp [World.idle], b, hb, hfin, rfl⟩ h
  obtain ⟨b', hb', -, hsnap⟩ := hi.balance
  refine ⟨b', hb', ?_, by rw [← hsnap]; rfl⟩
  rw [show b'.total = b'.snapshot.total from rfl, hsnap, serial_total]
  rfl

def dataTopUp (quantity : I64) : Label := .read (.vas (sampleVasEnv "data" quantity) "VAS-1")

def dataUsage (quantity : I64) : Label := .read (.usage ⟨"data", quantity, "UE-1"⟩)

def sampleWorld : World := World.idle (sampleLine .active 100 0) 0

/-- A top-up is read, charged and opened while usage holds the lock, and commits after it. -/
theorem balance_serial_top_up_and_usage :
    let w := (exec (guarded (NoLostTopUp "data") World.step) sampleWorld
      [dataTopUp ⟨50, by decide⟩, dataUsage ⟨70, by decide⟩, .charge 0 (.ok approved), .openTx 1,
       .openTx 0, .commit 1, .commit 0]).get (by decide)
    ∃ b', w.db.balances.find "data" = some b' ∧ b'.total = 100 + purchased (entries "data" w) ∧
      b'.consumed = (serial (dataRow 100 0).snapshot (entries "data" w)).consumed :=
  balance_serial "data" (sampleLine .active 100 0) 0 (dataRow 100 0) rfl (by decide) _ _
    (Option.some_get _).symm

/-- Two top-ups read the same total. The second writes over the first. -/
theorem top_up_lost :
    ∃ w b, exec World.step sampleWorld
        [dataTopUp ⟨50, by decide⟩, dataTopUp ⟨30, by decide⟩, .charge 0 (.ok approved),
         .charge 1 (.ok approved), .openTx 0, .openTx 1, .commit 0, .commit 0] = some w ∧
      w.flights.length = 0 ∧ w.db.balances.find "data" = some b ∧
      purchased (entries "data" w) = 80 ∧ b.total = 100 + 30 :=
  ⟨_, _, rfl, rfl, rfl, rfl, rfl⟩

end BssCli.Subscription.TopUp
