import BssCli.Subscription.Exhaust
import BssCli.Subscription.TopUp

/-!
# Top-ups and the block

A top-up decides whether to unblock on the state it read before the charge. Usage decides
whether to block on the balances it read under its lock.
-/

namespace BssCli.Subscription.Block

open Steps Locks Exhaust TopUp

/-! ## The state and its events -/

/-- The blocked and unblocked events, in the order they were staged. -/
def stateEvents (types : List String) : List String :=
  types.filter fun t => t = "subscription.blocked" ∨ t = "subscription.unblocked"

def lastStateEvent (db : SubDb) : Option String := (stateEvents (db.events.map Event.eventType)).getLast?

/-- The state is what the last of these events says. -/
def Announced (db : SubDb) : Prop :=
  (db.sub.state = .blocked → lastStateEvent db = some "subscription.blocked") ∧
    (db.sub.state = .active → lastStateEvent db ≠ some "subscription.blocked")

/-- A blocked line has no primary data left. -/
def BlockedExhausted (db : SubDb) : Prop := db.sub.state = .blocked → db.exhausted = true

instance (db : SubDb) : Decidable (Announced db) := inferInstanceAs (Decidable ((_ → _) ∧ (_ → _)))

instance (db : SubDb) : Decidable (BlockedExhausted db) := inferInstanceAs (Decidable (_ → _))

/-! ## The condition -/

def isTopUpOrUsage : Call → Bool
  | .vas _ _ => true
  | .usage _ => true
  | _ => false

/-- The top-up that adds data at its commit. -/
def addsData (f : Flight) : Bool :=
  match f.phase with
  | .adding p _ _ _ => p.allowanceType = primaryAllowanceType && decide (0 < p.quantity.val)
  | _ => false

/-- Usage of another allowance that found the data used up and is about to block. -/
def blocksAside (f : Flight) : Bool :=
  match f.phase with
  | .decrementing u (.decrement _ exhausted) => exhausted && u.allowanceType != primaryAllowanceType
  | _ => false

/-- The usage of data that locks its balance next. -/
def dataUse (f : Flight) : Option UsageCall :=
  match f.phase with
  | .using u => if u.allowanceType = primaryAllowanceType then some u else none
  | _ => none

def UsedFits (db : SubDb) (u : UsageCall) : Prop :=
  0 < u.quantity.val → ∀ b ∈ db.balances.find primaryAllowanceType, FitsI64 (b.consumed + u.quantity)

instance (db : SubDb) (u : UsageCall) : Decidable (UsedFits db u) :=
  inferInstanceAs (Decidable (_ → ∀ b ∈ _, FitsI64 _))

/-- Top-ups and usage only. No data is added to a blocked line by a top-up that did not
read it blocked, nor while usage of another allowance is about to block. -/
def NoSwallow (w : World) : Label → Prop
  | .read c => isTopUpOrUsage c
  | .dispatch _ => False
  | .commit i => ∀ f ∈ w.flights[i]?, addsData f →
      (w.db.sub.state = .blocked → f.found.state = .blocked) ∧
        ∀ g ∈ w.flights.eraseIdx i, blocksAside g = false
  | .openTx i => ∀ f ∈ w.flights[i]?, ∀ u ∈ dataUse f, UsedFits w.db u
  | _ => True

instance (w : World) : ∀ l, Decidable (NoSwallow w l)
  | .read c => inferInstanceAs (Decidable (isTopUpOrUsage c = true))
  | .dispatch _ => .isFalse id
  | .commit i => inferInstanceAs (Decidable (∀ f ∈ w.flights[i]?, addsData f →
      (w.db.sub.state = .blocked → f.found.state = .blocked) ∧
        ∀ g ∈ w.flights.eraseIdx i, blocksAside g = false))
  | .openTx i => inferInstanceAs (Decidable (∀ f ∈ w.flights[i]?, ∀ u ∈ dataUse f, UsedFits w.db u))
  | .tick _ | .drop | .charge _ _ | .fail _ | .sweepDue _ _ | .sweepSkipped _ _ => .isTrue trivial

/-! ## Usage of data -/

def Empty (b : BalanceSnapshot) : Prop := b.total ≠ unlimited ∧ b.total ≤ b.consumed

theorem consume_empty {b : BalanceSnapshot} {q : ℤ} (h : Empty b)
    (hfits : 0 < q → FitsI64 (b.consumed + q)) :
    Empty (consume b q) := by
  refine ⟨by rw [consume_total]; exact h.1, ?_⟩
  unfold consume
  split
  · exact h.2
  · rename_i hq
    push Not at hq
    have := h.2
    simp only [i64_of_fits (hfits hq.1)]
    omega

/-- What a decrement of data under way knows of the row. -/
structure DataUse (b : BundleBalanceRow) (u : UsageCall) (result : BalanceSnapshot) (exhausted : Bool) :
    Prop where
  consumed : result = consume b.snapshot u.quantity
  fits : 0 < u.quantity.val → FitsI64 (b.consumed + u.quantity)
  empty : exhausted = true → Empty result

/-- What the flights know of the data balance `b`. -/
def Knows (b : BundleBalanceRow) (f : Flight) : Prop :=
  ∀ u result exhausted, f.phase = .decrementing u (.decrement result exhausted) →
    if u.allowanceType = primaryAllowanceType then DataUse b u result exhausted
    else exhausted = true → Empty b.snapshot

theorem exhausted_iff_empty {db : SubDb} {b : BundleBalanceRow}
    (hb : db.balances.find primaryAllowanceType = some b) (hst : b.Storable) :
    db.exhausted = true ↔ Empty b.snapshot := exhausted_iff hb hst

theorem knows_of_phase {b : BundleBalanceRow} {r : SubscriptionRow} {phase : Phase}
    (h : ∀ u effect, phase ≠ .decrementing u effect) : Knows b ⟨r, phase⟩ :=
  fun u _ _ hp => absurd hp (h u _)

theorem openTx_knows {f : Flight} {db : SubDb} {b : BundleBalanceRow} {phase : Phase}
    (hb : db.balances.find primaryAllowanceType = some b) (hst : b.Storable)
    (hfits : ∀ u ∈ dataUse f, UsedFits db u) (h : f.openTx db = some (some phase)) :
    Knows b ⟨f.found, phase⟩ := by
  intro u result exhausted hphase
  simp only at hphase
  cases openTx_opened h with
  | resetting _ | adding _ => cases hphase
  | @decrementing v _ hv ho =>
    rw [Phase.decrementing.injEq] at hphase
    obtain ⟨rfl, rfl⟩ := hphase
    obtain ⟨c, all, hc, hres, hall, hex⟩ := usageOpen_decrement ho
    obtain ⟨hstored, hfind⟩ := Balances.write_eq_ok hall
    -- The balances it has read are those of a line with `all` stored.
    have hread : ∀ d, all.find primaryAllowanceType = some d → d.Storable → exhausted = true →
        Empty d.snapshot := by
      intro d hd hdst hexh
      rw [hexh] at hex
      exact (@exhausted_iff_empty { db with balances := all } d hd hdst).mp hex.symm
    split
    · rename_i hty
      rw [hty, hb, Option.some.injEq] at hc
      subst hc
      refine ⟨hres, fun hq => hfits v (by simp [dataUse, hv, hty]) hq b hb, fun hexh => ?_⟩
      have := hread (b.setConsumed result.consumed) (by rw [hfind, hty, if_pos rfl, hb]; rfl)
        (hstored b (hty ▸ hb)) hexh
      rwa [hres, setConsumed_snapshot, ← hres] at this
    · rename_i hty
      exact hread b (by rw [hfind, if_neg (Ne.symm hty), hb]) hst

/-! ## The invariant -/

def onLine (f : Flight) : Bool :=
  match f.phase with
  | .buying _ => true
  | .bought _ _ _ => true
  | .adding _ _ _ _ => true
  | .using _ => true
  | .decrementing _ _ => true
  | _ => false

structure Inv (w : World) : Prop where
  onLine : ∀ f ∈ w.flights, onLine f
  aimed : ∀ f ∈ w.flights, Aimed f
  row : ∃ b, w.db.balances.find primaryAllowanceType = some b ∧ b.Storable ∧ ∀ f ∈ w.flights, Knows b f
  exhausted : BlockedExhausted w.db
  announced : Announced w.db

theorem start_onLine {c : Call} {now : Time} {sub : SubscriptionRow} {phase : Phase}
    (h : c.start now sub = some phase) (hc : isTopUpOrUsage c) : onLine ⟨sub, phase⟩ = true := by
  cases start_started h with
  | buying _ | used _ => rfl
  | renewing _ | terminating _ | scheduled | cancelled | migrated => cases hc

theorem charge_onLine {f : Flight} {now : Time} {reply : Except ClientError PaymentResult} {c : Charged}
    {phase : Phase} (hf : onLine f) (h : f.charge now reply = some c) (hp : c.next = some phase) :
    onLine ⟨f.found, phase⟩ = true := by
  cases charge_replied h with
  | renewed hphase => simp [onLine, hphase] at hf
  | bought _ _ =>
    cases hp
    rfl
  | declined _ _ | failed _ => cases hp

theorem openTx_onLine {f : Flight} {db : SubDb} {phase : Phase} (hf : onLine f)
    (h : f.openTx db = some (some phase)) : onLine ⟨f.found, phase⟩ = true := by
  cases openTx_opened h with
  | resetting hphase => simp [onLine, hphase] at hf
  | adding _ | decrementing _ _ => rfl

/-! ## A commit -/

theorem lastStateEvent_append {db db' : SubDb} {types : List String}
    (h : db'.events.map Event.eventType = db.events.map Event.eventType ++ types) :
    lastStateEvent db' = ((stateEvents types).getLast?).or (lastStateEvent db) := by
  rw [lastStateEvent, h, stateEvents, List.filter_append, List.getLast?_append]
  rfl

theorem announced_of_quiet {db db' : SubDb} {types : List String} (hi : Announced db)
    (hstate : db'.sub.state = db.sub.state)
    (h : db'.events.map Event.eventType = db.events.map Event.eventType ++ types)
    (hquiet : stateEvents types = []) : Announced db' := by
  rw [Announced, lastStateEvent_append h, hstate, hquiet]
  exact hi

theorem vas_announced {sub : SubscriptionRow} {p : VasPlan} {pay : PaymentResult} {now : Time}
    {target : Option BundleBalanceRow} {db db' : SubDb} (hi : Announced db)
    (h : vasCommit sub p pay now target db = .ok db') : Announced db' := by
  have hevents := vasCommit_events h
  have hsub := (vasCommit_eq_ok h).1
  by_cases hs : sub.state = .blocked
  · have hlast : lastStateEvent db' = some "subscription.unblocked" := by
      rw [lastStateEvent_append hevents, if_pos hs]; rfl
    have hstate : db'.sub.state = .active := by rw [hsub, vasRow, hs]; rfl
    refine ⟨fun h => ?_, fun _ => by rw [hlast]; decide⟩
    rw [hstate] at h
    cases h
  · refine announced_of_quiet hi ?_ hevents (by rw [if_neg hs]; rfl)
    rw [hsub, vasRow]
    split
    · contradiction
    · rfl
    · rfl

theorem usage_announced {sub : SubscriptionRow} {u : UsageCall} {effect : UsageEffect} {db db' : SubDb}
    (hi : Announced db) (h : usageCommit sub u effect db = .ok db') : Announced db' := by
  have hevents := usageCommit_events h
  have hsub := (usageCommit_eq_ok h).1
  cases effect with
  | reject pv => exact announced_of_quiet hi (by rw [hsub]; rfl) hevents rfl
  | missing => exact announced_of_quiet hi (by rw [hsub]; rfl) hevents rfl
  | decrement result exhausted =>
    cases exhausted with
    | false => exact announced_of_quiet hi (by rw [hsub]; rfl) hevents rfl
    | true =>
      have hlast : lastStateEvent db' = some "subscription.blocked" := by
        rw [lastStateEvent_append hevents]; rfl
      have hstate : db'.sub.state = .blocked := by rw [hsub]; rfl
      refine ⟨fun _ => hlast, fun h => ?_⟩
      rw [hstate] at h
      cases h

inductive DataWrite (f : Flight) (b : BundleBalanceRow) : BundleBalanceRow → Prop
  | same : primaryAllowanceType ∉ f.wants → DataWrite f b b
  | topped {b'} : addsData f → primaryAllowanceType ∈ f.wants → DataWrite f b b'
  | used {u result exhausted b'} : f.phase = .decrementing u (.decrement result exhausted) →
      u.allowanceType = primaryAllowanceType → DataUse b u result exhausted → b'.snapshot = result →
      DataWrite f b b'

theorem vas_dataWrite {f : Flight} {p : VasPlan} {pay : PaymentResult} {now : Time}
    {target : Option BundleBalanceRow} {db db' : SubDb} {b : BundleBalanceRow}
    (hf : f.phase = .adding p pay now target) (haim : Aimed f)
    (h : f.commit db = some (.ok db')) (hb : db.balances.find primaryAllowanceType = some b)
    (hst : b.Storable) :
    ∃ b', db'.balances.find primaryAllowanceType = some b' ∧ b'.Storable ∧ DataWrite f b b' := by
  by_cases hwants : primaryAllowanceType ∈ f.wants
  · cases target with
    | none => simp [Flight.wants, hf] at hwants
    | some t =>
      have haim := haim p pay now t hf
      simp only [Flight.wants, hf] at hwants
      split at hwants
      · rename_i hq
        have hty : t.allowanceType = primaryAllowanceType := (List.mem_singleton.mp hwants).symm
        have hadds : addsData f := by simp [addsData, hf, ← haim, hty, hq.1]
        have hbal : vasBalances f.found p now (some t) db.balances = .ok db'.balances := by
          simp only [Flight.commit, hf, Option.some.injEq] at h
          exact (vasCommit_eq_ok h).2
        simp only [vasBalances, if_pos hq] at hbal
        obtain ⟨hstored, hfind⟩ := Balances.write_eq_ok hbal
        rw [hty] at hstored hfind
        exact ⟨_, by rw [hfind, if_pos rfl, hb]; rfl, hstored b hb,
          .topped hadds (by simp [Flight.wants, hf, hq, hty])⟩
      · simp at hwants
  · exact ⟨b, commit_same h hb hwants, hst, .same hwants⟩

theorem usage_dataWrite {f : Flight} {u : UsageCall} {effect : UsageEffect} {db db' : SubDb}
    {b : BundleBalanceRow} (hf : f.phase = .decrementing u effect) (hknows : Knows b f)
    (h : f.commit db = some (.ok db')) (hb : db.balances.find primaryAllowanceType = some b)
    (hst : b.Storable) :
    ∃ b', db'.balances.find primaryAllowanceType = some b' ∧ b'.Storable ∧ DataWrite f b b' := by
  by_cases hwants : primaryAllowanceType ∈ f.wants
  · cases effect with
    | reject pv => simp [Flight.wants, hf] at hwants
    | missing => simp [Flight.wants, hf] at hwants
    | decrement result exhausted =>
      have hty : u.allowanceType = primaryAllowanceType := by
        simpa [Flight.wants, hf, eq_comm] using hwants
      have huse := hknows u result exhausted hf
      rw [if_pos hty] at huse
      have hbal : usageBalances u (.decrement result exhausted) db.balances = .ok db'.balances := by
        simp only [Flight.commit, hf, Option.some.injEq] at h
        exact (usageCommit_eq_ok h).2
      obtain ⟨hstored, hfind⟩ := Balances.write_eq_ok hbal
      rw [hty] at hstored hfind
      refine ⟨_, by rw [hfind, if_pos rfl, hb]; rfl, hstored b hb, .used hf hty huse ?_⟩
      rw [huse.consumed, setConsumed_snapshot]
  · exact ⟨b, commit_same h hb hwants, hst, .same hwants⟩

theorem dataWrite_knows {flights : List Flight} {i : ℕ} {f g : Flight} {b b' : BundleBalanceRow}
    (hw : DataWrite f b b') (hfree : Free flights i f) (hg : g ∈ flights.eraseIdx i)
    (haside : addsData f → blocksAside g = false) (hknows : Knows b g) : Knows b' g := by
  intro u result exhausted hphase
  have huse := hknows u result exhausted hphase
  have hlock : primaryAllowanceType ∈ f.wants → u.allowanceType ≠ primaryAllowanceType := by
    intro hwants hty
    exact hfree g hg u.allowanceType (by simp [Flight.holds, hphase]) (hty ▸ hwants)
  cases hw with
  | same _ => exact huse
  | topped hadds hwants =>
    rw [if_neg (hlock hwants)]
    rintro rfl
    have := haside hadds
    simp [blocksAside, hphase, hlock hwants] at this
  | used hf hty hown hsnap =>
    have hne := hlock (by simp [Flight.wants, hf, hty])
    rw [if_neg hne] at huse ⊢
    intro hexh
    rw [hsnap, hown.consumed]
    exact consume_empty (huse hexh) hown.fits

theorem dataWrite_empty {f : Flight} {b b' : BundleBalanceRow} (hw : DataWrite f b b')
    (hadds : addsData f = false) (h : Empty b.snapshot) : Empty b'.snapshot := by
  cases hw with
  | same _ => exact h
  | topped hadds' _ => rw [hadds] at hadds'; cases hadds'
  | used _ _ huse hsnap =>
    rw [hsnap, huse.consumed]
    exact consume_empty h huse.fits

section

variable {f : Flight} {db db' : SubDb} {b b' : BundleBalanceRow}

theorem vas_exhausted {p : VasPlan} {pay : PaymentResult} {now : Time} {target : Option BundleBalanceRow}
    (h : vasCommit f.found p pay now target db = .ok db') (hi : BlockedExhausted db)
    (hb : db.balances.find primaryAllowanceType = some b) (hst : b.Storable)
    (hb' : db'.balances.find primaryAllowanceType = some b') (hst' : b'.Storable)
    (hw : DataWrite f b b') (hread : addsData f → db.sub.state = .blocked → f.found.state = .blocked) :
    BlockedExhausted db' := by
  intro hs'
  have hs : db.sub.state = .blocked ∧ f.found.state ≠ .blocked := by
    rw [(vasCommit_eq_ok h).1, vasRow] at hs'
    split at hs'
    · cases hs'
    · rename_i hsub; exact ⟨hs', by rw [hsub]; decide⟩
    · rename_i hne _; exact ⟨hs', hne⟩
  have hadds : addsData f = false := by
    by_contra hadds
    exact hs.2 (hread (by simpa using hadds) hs.1)
  rw [exhausted_iff_empty hb' hst']
  exact dataWrite_empty hw hadds ((exhausted_iff_empty hb hst).mp (hi hs.1))

theorem usage_exhausted {u : UsageCall} {effect : UsageEffect} (hf : f.phase = .decrementing u effect)
    (h : usageCommit f.found u effect db = .ok db') (hi : BlockedExhausted db)
    (hb : db.balances.find primaryAllowanceType = some b) (hst : b.Storable)
    (hb' : db'.balances.find primaryAllowanceType = some b') (hst' : b'.Storable)
    (hw : DataWrite f b b') (hknows : Knows b f) : BlockedExhausted db' := by
  intro hs'
  have hadds : addsData f = false := by simp [addsData, hf]
  rw [exhausted_iff_empty hb' hst']
  rw [(usageCommit_eq_ok h).1] at hs'
  unfold usageRow at hs'
  split at hs'
  · rename_i result
    have huse := hknows u result true hf
    cases hw with
    | topped hadds' _ => rw [hadds] at hadds'; cases hadds'
    | same hwants =>
      rw [if_neg (by simpa [Flight.wants, hf, eq_comm] using hwants)] at huse
      exact huse rfl
    | used hf' hty huse hsnap =>
      rw [hf, Phase.decrementing.injEq, UsageEffect.decrement.injEq] at hf'
      obtain ⟨-, -, rfl⟩ := hf'
      rw [hsnap]
      exact huse.empty rfl
  · exact dataWrite_empty hw hadds ((exhausted_iff_empty hb hst).mp (hi hs'))

end

theorem commit_exhausted {w : World} {i : ℕ} {f : Flight} {db : SubDb} (hi : Inv w)
    (hf : w.flights[i]? = some f) (hc : NoSwallow w (.commit i)) (hfree : Free w.flights i f)
    (h : f.commit w.db = some (.ok db)) :
    BlockedExhausted db ∧ Announced db ∧
      ∃ b, db.balances.find primaryAllowanceType = some b ∧ b.Storable ∧
        ∀ g ∈ w.flights.eraseIdx i, Knows b g := by
  have hmem := Pool.mem_of_getElem? hf
  obtain ⟨b, hb, hst, hknows⟩ := hi.row
  have hon := hi.onLine f hmem
  have hread := hc f hf
  have hothers : ∀ b', DataWrite f b b' → ∀ g ∈ w.flights.eraseIdx i, Knows b' g := by
    intro b' hw g hg
    exact dataWrite_knows hw hfree hg (fun hadds => (hread hadds).2 g hg)
      (hknows g (List.mem_of_mem_eraseIdx hg))
  cases hphase : f.phase with
  | adding p pay now target =>
    obtain ⟨b', hb', hst', hw⟩ := vas_dataWrite hphase (hi.aimed f hmem) h hb hst
    simp only [Flight.commit, hphase, Option.some.injEq] at h
    exact ⟨vas_exhausted h hi.exhausted hb hst hb' hst' hw fun hadds => (hread hadds).1,
      vas_announced hi.announced h, b', hb', hst', hothers b' hw⟩
  | decrementing u effect =>
    obtain ⟨b', hb', hst', hw⟩ := usage_dataWrite hphase (hknows f hmem) h hb hst
    simp only [Flight.commit, hphase, Option.some.injEq] at h
    exact ⟨usage_exhausted hphase h hi.exhausted hb hst hb' hst' hw (hknows f hmem),
      usage_announced hi.announced h, b', hb', hst', hothers b' hw⟩
  | renewing p | renewed p pay | resetting p pay existing | terminating p | changing c =>
    simp [Block.onLine, hphase] at hon
  | _ => simp [Flight.commit, hphase] at h

/-! ## Runs -/

theorem step_inv {w w' : World} {l : Label} (hi : Inv w) (hc : NoSwallow w l) (h : w.step l = some w') :
    Inv w' := by
  have haimed := aimed_inv h hi.aimed
  have honLine : ∀ f ∈ w'.flights, onLine f := by
    refine World.flights_inv h ?_ (fun _ _ _ _ hf => charge_onLine hf) (fun _ _ hf => openTx_onLine hf)
      hi.onLine
    intro c hread phase hs
    cases l with
    | read c' => cases hread; exact start_onLine hs hc
    | dispatch env => exact hc.elim
    | _ => cases hread
  obtain ⟨b, hb, hst, hknows⟩ := hi.row
  cases World.step_moved h with
  | tick _ | drop _ => exact ⟨honLine, haimed, hi.row, hi.exhausted, hi.announced⟩
  | sweepDue _ _ => exact ⟨honLine, haimed, hi.row, hi.exhausted, hi.announced⟩
  | sweepSkipped _ _ =>
    exact ⟨honLine, haimed, hi.row, hi.exhausted,
      announced_of_quiet hi.announced rfl (List.map_append ..) rfl⟩
  | dispatch _ _ => exact hc.elim
  | read hs =>
    exact ⟨honLine, haimed, ⟨b, hb, hst, Pool.forall_concat hknows (knows_of_phase (start_phase hs).2)⟩,
      hi.exhausted, hi.announced⟩
  | charge _ hcharge =>
    refine ⟨honLine, haimed, ⟨b, by simpa using hb, hst, ?_⟩, by simpa using hi.exhausted,
      by simpa using hi.announced⟩
    exact World.forall_goOn hknows fun phase hp => knows_of_phase (charge_phase hcharge hp).2
  | openTx hf _ ho =>
    refine ⟨honLine, haimed, ⟨b, by simpa using hb, hst, ?_⟩, by simpa using hi.exhausted,
      by simpa using hi.announced⟩
    refine World.forall_goOn hknows fun phase hp => openTx_knows hb hst (hc _ hf) ?_
    rw [ho, Option.mem_def.mp hp]
  | rollback _ _ | fail _ =>
    exact ⟨honLine, haimed, ⟨b, hb, hst, Pool.forall_eraseIdx hknows⟩, hi.exhausted, hi.announced⟩
  | commit hf hfree hcommit =>
    obtain ⟨hex, hann, hrow⟩ := commit_exhausted hi hf hc hfree hcommit
    exact ⟨honLine, haimed, hrow, hex, hann⟩

/-- **A blocked line has no data left**, and the state is what the last of its events says,
in a run in which no top-up adds data to a block it has not seen. -/
theorem blocked_exhausted_announced (db : SubDb) (clock : Time) (b : BundleBalanceRow)
    (hb : db.balances.find primaryAllowanceType = some b) (hst : b.Storable)
    (hex : BlockedExhausted db) (hann : Announced db) (ls : List Label) (w : World)
    (h : exec (guarded NoSwallow World.step) (World.idle db clock) ls = some w) :
    BlockedExhausted w.db ∧ Announced w.db := by
  have hi : Inv w := guarded_inv (fun _ _ _ => step_inv)
    ⟨by simp [World.idle], by simp [World.idle], ⟨b, hb, hst, by simp [World.idle]⟩, hex, hann⟩ h
  exact ⟨hi.exhausted, hi.announced⟩

/-- Usage blocks the line, and a top-up that reads it blocked brings it back. -/
theorem blocked_exhausted_announced_top_up :
    let w := (exec (guarded NoSwallow World.step) sampleWorld
      [dataUsage ⟨100, by decide⟩, .openTx 0, .commit 0, dataTopUp ⟨50, by decide⟩,
       .charge 0 (.ok approved), .openTx 0, .commit 0]).get (by decide)
    BlockedExhausted w.db ∧ Announced w.db :=
  blocked_exhausted_announced (sampleLine .active 100 0) 0 (dataRow 100 0) rfl (by decide) (by decide)
    (by decide) _ _ (Option.some_get _).symm

/-- A top-up reads the line active, usage blocks it, and the top-up leaves it blocked. -/
theorem top_up_swallowed :
    ∃ w b, exec World.step sampleWorld
        [dataTopUp ⟨50, by decide⟩, dataUsage ⟨100, by decide⟩, .openTx 1, .commit 1,
         .charge 0 (.ok approved), .openTx 0, .commit 0] = some w ∧
      w.flights.length = 0 ∧ w.db.sub.state = .blocked ∧ w.db.exhausted = false ∧
      w.db.balances.find primaryAllowanceType = some b ∧ b.total = 150 ∧ b.consumed = 100 :=
  ⟨_, _, rfl, rfl, rfl, by decide, rfl, rfl, rfl⟩

end BssCli.Subscription.Block
