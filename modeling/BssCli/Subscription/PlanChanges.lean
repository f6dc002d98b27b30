import BssCli.Subscription.World

/-!
# Scheduled plan changes

A change is announced, and then applied, cancelled or ended with the line. The calls write
the pending columns from a row they have read before, and a price migration writes them
without a look at what is pending.
-/

namespace BssCli.Subscription.PlanChanges

open Steps

/-! ## The life of a change -/

/-- What the events of a line say about its changes. -/
inductive Mark
  | scheduled
  | migrating
  | changed
  | migrated
  | cancelled
  | terminated
  deriving DecidableEq

/-- A change of which the line has a record. `ended`: the line is terminated. -/
inductive Life
  | idle
  | announced
  | migrating
  | ended
  deriving DecidableEq

/-- One change at a time. Nothing replaces an announced change, and nothing follows a termination. -/
def Life.step : Life → Mark → Option Life
  | .idle, .scheduled => some .announced
  | .idle, .migrating | .migrating, .migrating => some .migrating
  | .announced, .changed | .announced, .cancelled => some .idle
  | .migrating, .changed | .migrating, .migrated | .migrating, .cancelled => some .idle
  | .idle, .terminated | .announced, .terminated | .migrating, .terminated => some .ended
  | _, _ => none

def Mark.Records (m : Mark) : Prop := m = .scheduled ∨ m = .migrating

instance : DecidablePred Mark.Records := fun _ => inferInstanceAs (Decidable (_ ∨ _))

section Life

variable {l : Life} {m : Mark} {pre seg post : List Mark}

theorem from_ended (h : exec Life.step .ended seg = some l) : seg = [] := by
  cases seg with
  | nil => rfl
  | cons m seg =>
    obtain ⟨l', hl, -⟩ := (exec_cons ..).mp h
    cases m <;> cases hl

/-- With nothing pending and nothing recorded, only the line can end. -/
theorem from_idle (h : exec Life.step .idle seg = some l) (hseg : ∀ m ∈ seg, ¬ m.Records) :
    ∀ m ∈ seg, m = .terminated := by
  cases seg with
  | nil => simp
  | cons m seg =>
    obtain ⟨l', hl, h⟩ := (exec_cons ..).mp h
    have hm := hseg m (List.mem_cons_self ..)
    cases m with
    | terminated =>
      cases hl
      rw [from_ended h]
      simp
    | scheduled => exact absurd (Or.inl rfl) hm
    | migrating => exact absurd (Or.inr rfl) hm
    | changed | migrated | cancelled => cases hl

theorem cancelled_stays (h : exec Life.step .idle (pre ++ .cancelled :: seg) = some l)
    (hseg : ∀ m ∈ seg, ¬ m.Records) : .changed ∉ seg ∧ .migrated ∉ seg := by
  obtain ⟨l₁, -, h⟩ := (exec_append ..).mp h
  obtain ⟨l₂, hl, h⟩ := (exec_cons ..).mp h
  have hidle : l₂ = .idle := by
    cases l₁ <;> cases hl <;> rfl
  subst hidle
  have hall := from_idle h hseg
  constructor
  · intro hm
    cases hall _ hm
  · intro hm
    cases hall _ hm

/-- An announced change is pending still, or it has ended in exactly one way. -/
def EndsOnce (seg : List Mark) : Prop :=
  ∃ m rest, seg = m :: rest ∧ (m = .changed ∨ m = .cancelled ∨ m = .terminated) ∧
    (∀ x ∈ rest, x = .terminated) ∧ (m = .terminated → rest = [])

theorem announced_ends (h : exec Life.step .idle (pre ++ .scheduled :: (seg ++ post)) = some l)
    (hseg : ∀ m ∈ seg, ¬ m.Records) (hpost : ∀ m ∈ post.head?, m.Records) :
    (seg = [] ∧ post = []) ∨ EndsOnce seg := by
  obtain ⟨l₁, -, h⟩ := (exec_append ..).mp h
  obtain ⟨l₂, hl, h⟩ := (exec_cons ..).mp h
  have hannounced : l₂ = .announced := by
    cases l₁ <;> cases hl
    rfl
  subst hannounced
  obtain ⟨l₃, hseg', h⟩ := (exec_append ..).mp h
  cases seg with
  | nil =>
    cases hseg'
    cases post with
    | nil => exact Or.inl ⟨rfl, rfl⟩
    | cons m post =>
      -- Nothing can be recorded while the change is pending.
      obtain ⟨l₄, hl, -⟩ := (exec_cons ..).mp h
      rcases hpost m rfl with rfl | rfl <;> cases hl
  | cons m rest =>
    obtain ⟨l₄, hl, hrest⟩ := (exec_cons ..).mp hseg'
    have hquiet : ∀ x ∈ rest, ¬ x.Records := fun x hx => hseg x (List.mem_cons_of_mem _ hx)
    refine Or.inr ⟨m, rest, rfl, ?_⟩
    cases m with
    | changed =>
      cases hl
      exact ⟨Or.inl rfl, from_idle hrest hquiet, by simp⟩
    | cancelled =>
      cases hl
      exact ⟨Or.inr (Or.inl rfl), from_idle hrest hquiet, by simp⟩
    | terminated =>
      cases hl
      rw [from_ended hrest]
      exact ⟨Or.inr (Or.inr rfl), by simp, fun _ => rfl⟩
    | scheduled | migrating | migrated => cases hl

/-- A change is announced and pending when its announcement is the last mark. -/
theorem announced_iff_last {ms : List Mark} (h : exec Life.step .idle ms = some l) :
    l = .announced ↔ ms.getLast? = some .scheduled := by
  rcases ms.eq_nil_or_concat with rfl | ⟨ms, m, rfl⟩
  · cases h
    simp
  · rw [List.concat_eq_append] at h ⊢
    obtain ⟨l₁, -, h⟩ := (exec_append ..).mp h
    obtain ⟨l₂, hl, h⟩ := (exec_cons ..).mp h
    cases h
    rw [List.getLast?_concat, Option.some.injEq]
    cases l₁ <;> cases m <;> cases hl <;> simp

end Life

/-! ## Events -/

def Mark.ofType (eventType : String) : Option Mark :=
  if eventType = "subscription.plan_change_scheduled" then some .scheduled
  else if eventType = "subscription.price_migration_scheduled" then some .migrating
  else if eventType = "subscription.plan_changed" then some .changed
  else if eventType = "subscription.price_migrated" then some .migrated
  else if eventType = "subscription.plan_change_cancelled" then some .cancelled
  else if eventType = "subscription.terminated" then some .terminated
  else none

attribute [grind =] Mark.ofType

def marks (events : List Event) : List Mark := events.filterMap fun e => Mark.ofType e.eventType

@[simp]
theorem marks_append (events events' : List Event) : marks (events ++ events') = marks events ++ marks events' :=
  List.filterMap_append ..

@[simp]
theorem marks_cons (e : Event) (events : List Event) :
    marks (e :: events) = (Mark.ofType e.eventType).toList ++ marks events := by
  unfold marks
  cases h : Mark.ofType e.eventType <;> simp [h]

@[simp] theorem marks_nil : marks [] = [] := rfl

/-- The marks of a write to the pending columns. -/
def writeMarks (write : PendingWrite) : List Mark := write.events.filterMap fun e => Mark.ofType e.1

theorem pendingCommit_marks (write : PendingWrite) (db : SubDb) :
    marks (pendingCommit write db).events = marks db.events ++ writeMarks write := by
  have hstage : ∀ (es : List (String × Object)) (db : SubDb),
      marks (es.foldl (fun db e => db.stage e.1 e.2) db).events =
        marks db.events ++ es.filterMap fun e => Mark.ofType e.1 := by
    intro es
    induction es with
    | nil => simp
    | cons e es ih =>
      intro db
      rw [List.foldl_cons, ih, SubDb.stage_events, marks_append, marks_cons, marks_nil]
      cases h : Mark.ofType e.1 <;> simp [h]
  exact hstage write.events _

theorem marks_of_types {events events' : List Event} {types : List String}
    (h : events'.map Event.eventType = events.map Event.eventType ++ types) :
    marks events' = marks events ++ types.filterMap Mark.ofType := by
  have hmap : ∀ es : List Event, marks es = (es.map Event.eventType).filterMap Mark.ofType := by
    intro es
    rw [List.filterMap_map]
    rfl
  rw [hmap, hmap, h, List.filterMap_append]

/-! ## Commits -/

/-- The pending columns are all empty, or the offering and the price are both there. -/
def PendingSet (r : SubscriptionRow) : Prop :=
  (r.pendingOfferingId = none ∧ r.pendingOfferingPriceId = none ∧ r.pendingEffectiveAt = none) ∨
    r.pendingOfferingId.isSome ∧ r.pendingOfferingPriceId.isSome

instance (r : SubscriptionRow) : Decidable (PendingSet r) := inferInstanceAs (Decidable (_ ∨ _))

/-- The row has the offering and the pending change that were read. -/
def SamePending (r found : SubscriptionRow) : Prop :=
  r.offeringId = found.offeringId ∧ r.pendingOfferingId = found.pendingOfferingId ∧
    r.pendingOfferingPriceId = found.pendingOfferingPriceId ∧ r.pendingEffectiveAt = found.pendingEffectiveAt

instance (r found : SubscriptionRow) : Decidable (SamePending r found) := inferInstanceAs (Decidable (_ ∧ _))

/-- The commit writes the state or the pending columns. -/
def rewrites (f : Flight) : Bool :=
  match f.phase with
  | .resetting _ _ _ | .terminating _ | .changing _ => true
  | .adding _ _ _ _ => f.found.state = .blocked
  | .decrementing _ (.decrement _ exhausted) => exhausted
  | _ => false

def changes (f : Flight) : Bool :=
  match f.phase with
  | .changing write => .migrating ∉ writeMarks write
  | .resetting p pay _ => p.pivot ∧ pay.Approved
  | _ => false

def migrates (f : Flight) : Bool :=
  match f.phase with
  | .changing write => .migrating ∈ writeMarks write
  | _ => false

/-- The row is still as it was read, and a migration finds no announced change. -/
def CommitsCurrent (w : World) (l : Label) : Prop :=
  ∀ f ∈ w.committing l, (rewrites f → w.db.sub.state ≠ .terminated) ∧
    (changes f → SamePending w.db.sub f.found) ∧
    (migrates f → (marks w.db.events).getLast? ≠ some .scheduled)

instance (w : World) (l : Label) : Decidable (CommitsCurrent w l) :=
  inferInstanceAs (Decidable (∀ f ∈ w.committing l, (_ → _) ∧ (_ → _) ∧ (_ → _)))

/-- What a row says about its change. -/
def Matches : Life → SubscriptionRow → Prop
  | .idle, r => r.state ≠ .terminated ∧ r.pendingOfferingId = none
  | .announced, r => r.state ≠ .terminated ∧ ∃ o, r.pendingOfferingId = some o ∧ o ≠ r.offeringId
  | .migrating, r => r.state ≠ .terminated ∧ r.pendingOfferingId.isSome
  | .ended, r => r.state = .terminated

/-- What the three calls write, by the row they have read. -/
inductive Wrote (found : SubscriptionRow) (write : PendingWrite) : Prop
  | scheduled {o price} (ho : write.offeringId = some o) (hp : write.priceId = some price)
      (hne : o ≠ found.offeringId) (hfound : found.pendingOfferingId = none)
      (hm : writeMarks write = [.scheduled])
  | cancelled (ho : write.offeringId = none) (hp : write.priceId = none) (he : write.effectiveAt = none)
      (hfound : found.pendingOfferingId.isSome) (hm : writeMarks write = [.cancelled])
  | migrating {o price} (ho : write.offeringId = some o) (hp : write.priceId = some price)
      (hm : writeMarks write = [.migrating])

theorem checkNoPendingChange_eq_ok {o : Option String} : checkNoPendingChange o = .ok () ↔ o = none := by
  cases o <;> simp [checkNoPendingChange]

theorem schedule_wrote {env : ScheduleEnv} {id : String} {sub : SubscriptionRow} {write : PendingWrite}
    (h : schedulePlanChange env id sub = .ok write) : Wrote sub write := by
  simp only [schedulePlanChange, bind_eq_ok] at h
  obtain ⟨⟨⟩, -, ⟨⟩, hne, ⟨⟩, hnone, ⟨⟩, -, price, -, h⟩ := h
  cases h
  refine .scheduled rfl rfl ?_ (checkNoPendingChange_eq_ok.mp hnone) rfl
  exact Ne.symm (require_eq_ok.mp hne)

theorem cancel_wrote {sub : SubscriptionRow} {write : PendingWrite}
    (h : cancelPendingPlanChange sub = some write) : Wrote sub write := by
  unfold cancelPendingPlanChange at h
  split at h
  · cases h
  · rename_i hsome
    cases h
    refine .cancelled rfl rfl rfl ?_ rfl
    rwa [← Option.not_isNone, Bool.not_eq_true', ← Bool.not_eq_true]

theorem migrate_wrote {env : MigrateEnv} {call : MigrateCall} {sub : SubscriptionRow} {write : PendingWrite}
    (h : migrateSubscription env call sub = .ok (some write)) : Wrote sub write := by
  simp only [migrateSubscription, bind_eq_ok] at h
  obtain ⟨⟨⟩, -, price, -, offering, -, ⟨⟩, -, h⟩ := h
  split at h
  · cases h
    exact .migrating rfl rfl rfl
  · cases h

/-- A write that is under way was made by one of the three calls. -/
def Made (f : Flight) : Prop := ∀ write, f.phase = .changing write → Wrote f.found write

theorem start_made {c : Call} {now : Time} {sub : SubscriptionRow} {phase : Phase}
    (h : c.start now sub = some phase) : Made ⟨sub, phase⟩ := by
  rintro write rfl
  cases c with
  | schedule env id =>
    obtain ⟨write', hw, hphase⟩ := Option.map_eq_some_iff.mp h
    cases hphase
    exact schedule_wrote (toOption_eq_some.mp hw)
  | cancel =>
    obtain ⟨write', hw, hphase⟩ := Option.map_eq_some_iff.mp h
    cases hphase
    exact cancel_wrote hw
  | migrate env call =>
    obtain ⟨write', hw, hphase⟩ := Option.map_eq_some_iff.mp h
    cases hphase
    obtain ⟨o, ho, hid⟩ := Option.bind_eq_some_iff.mp hw
    rw [id_eq] at hid
    exact migrate_wrote (hid ▸ toOption_eq_some.mp ho)
  | renew env | vas env id | usage u | terminate reason => cases start_started h

theorem made_inv {w w' : World} {l : Label} (h : w.step l = some w') (hm : ∀ f ∈ w.flights, Made f) :
    ∀ f ∈ w'.flights, Made f := by
  refine World.flights_inv h (fun _ _ _ hs => start_made hs) ?_ ?_ hm
  · rintro f reply c phase - hc hp write rfl
    cases charge_replied hc with
    | renewed _ | bought _ _ => cases hp
    | declined _ _ | failed _ => cases hp
  · rintro f phase - ho write rfl
    cases openTx_opened ho

theorem Matches.quiet {life : Life} {r r' : SubscriptionRow} (h : Matches life r)
    (hoffering : r'.offeringId = r.offeringId) (hpending : r'.pendingOfferingId = r.pendingOfferingId)
    (hstate : r'.state = .terminated ↔ r.state = .terminated) : Matches life r' := by
  cases life with
  | idle => exact ⟨fun ht => h.1 (hstate.mp ht), hpending.trans h.2⟩
  | announced =>
    obtain ⟨hlive, o, ho, hne⟩ := h
    exact ⟨fun ht => hlive (hstate.mp ht), o, hpending.trans ho, by rwa [hoffering]⟩
  | migrating => exact ⟨fun ht => h.1 (hstate.mp ht), by rw [hpending]; exact h.2⟩
  | ended => exact hstate.mpr h

/-- The log goes on with `ms`, and the row matches it. -/
def GoesOn (life : Life) (db db' : SubDb) : Prop :=
  ∃ ms life', marks db'.events = marks db.events ++ ms ∧ exec Life.step life ms = some life' ∧
    Matches life' db'.sub

section Commit

variable {life : Life} {db db' : SubDb} {found : SubscriptionRow}

theorem goesOn_quiet (h : Matches life db.sub) (hmarks : marks db'.events = marks db.events)
    (hoffering : db'.sub.offeringId = db.sub.offeringId)
    (hpending : db'.sub.pendingOfferingId = db.sub.pendingOfferingId)
    (hstate : db'.sub.state = .terminated ↔ db.sub.state = .terminated) : GoesOn life db db' :=
  ⟨[], life, by simp [hmarks], rfl, h.quiet hoffering hpending hstate⟩

theorem goesOn_one {m : Mark} (life' : Life) (hmarks : marks db'.events = marks db.events ++ [m])
    (hl : life.step m = some life') (h : Matches life' db'.sub) : GoesOn life db db' :=
  ⟨[m], life', hmarks, (exec_cons ..).mpr ⟨life', hl, rfl⟩, h⟩

theorem write_goesOn {write : PendingWrite} (h : Matches life db.sub) (hw : Wrote found write)
    (hlive : db.sub.state ≠ .terminated)
    (hsame : .migrating ∉ writeMarks write → SamePending db.sub found)
    (hfree : .migrating ∈ writeMarks write → life ≠ .announced) : GoesOn life db (pendingCommit write db) := by
  have hmarks := pendingCommit_marks write db
  obtain ⟨hsub, -⟩ := pendingCommit_rows write db
  cases hw with
  | @scheduled o price ho hp hne hfound hm =>
    rw [hm] at hmarks hsame
    obtain ⟨hoffering, hpending, -⟩ := hsame (by simp)
    rw [hfound] at hpending
    refine goesOn_one .announced hmarks ?_ ?_
    · cases life with
      | idle => rfl
      | announced =>
        obtain ⟨-, o', ho', -⟩ := h
        rw [hpending] at ho'
        cases ho'
      | migrating =>
        have := h.2
        rw [hpending] at this
        cases this
      | ended => exact absurd h hlive
    · rw [hsub]
      exact ⟨hlive, o, ho, by rw [← hoffering] at hne; exact hne⟩
  | cancelled ho hp he hfound hm =>
    rw [hm] at hmarks hsame
    obtain ⟨-, hpending, -⟩ := hsame (by simp)
    rw [← hpending] at hfound
    refine goesOn_one .idle hmarks ?_ ?_
    · cases life with
      | idle =>
        rw [h.2] at hfound
        cases hfound
      | announced => rfl
      | migrating => rfl
      | ended => exact absurd h hlive
    · rw [hsub]
      exact ⟨hlive, ho⟩
  | migrating ho hp hm =>
    rw [hm] at hmarks hfree
    refine goesOn_one .migrating hmarks ?_ ?_
    · cases life with
      | idle => rfl
      | announced => exact absurd rfl (hfree (by simp))
      | migrating => rfl
      | ended => exact absurd h hlive
    · rw [hsub]
      exact ⟨hlive, by simp [SubscriptionRow.setPending, ho]⟩

theorem declined_marks {p : RenewPlan} {pay : PaymentResult} (h : renewDeclined found p pay db = .ok db') :
    marks db'.events = marks db.events := by
  simp only [renewDeclined, bind_eq_ok] at h
  obtain ⟨dest, -, h⟩ := h
  cases h
  by_cases hp : p.pivot <;> simp [hp, Mark.ofType]

theorem declined_goesOn {p : RenewPlan} {pay : PaymentResult} (h : Matches life db.sub)
    (hlive : db.sub.state ≠ .terminated) (hcommit : renewDeclined found p pay db = .ok db') :
    GoesOn life db db' := by
  obtain ⟨-, hsub, -⟩ := renewDeclined_eq_ok hcommit
  apply goesOn_quiet h (declined_marks hcommit)
  · rw [hsub]
    rfl
  · rw [hsub]
    rfl
  · rw [hsub]
    simp [SubscriptionRow.setState, hlive]

theorem approved_goesOn {p : RenewPlan} {pay : PaymentResult} {existing : List String} (h : Matches life db.sub)
    (hlive : db.sub.state ≠ .terminated) (hpending : p.pivot → found.pendingOfferingId.isSome)
    (hsame : p.pivot → SamePending db.sub found)
    (hcommit : renewApproved found p pay existing db = .ok db') : GoesOn life db db' := by
  simp only [renewApproved, bind_eq_ok, nextState_renew] at hcommit
  obtain ⟨balances, -, dest, ⟨-, rfl⟩, row, hrow, hcommit⟩ := hcommit
  cases hcommit
  unfold RenewPlan.writeRow at hrow
  by_cases hp : p.pivot
  · -- The change that is pending is applied.
    simp only [hp, if_true, bind_eq_ok] at hrow ⊢
    obtain ⟨amount, -, hrow⟩ := hrow
    cases hrow
    obtain ⟨hoffering, heq, -⟩ := hsame hp
    have hsome := hpending hp
    rw [← heq] at hsome
    cases life with
    | idle =>
      rw [h.2] at hsome
      cases hsome
    | announced =>
      obtain ⟨-, o, ho, hne⟩ := h
      have hnot : p.wasPriceMigration found = false := by
        rw [RenewPlan.wasPriceMigration, ← heq, ho, ← hoffering]
        simp [hne]
      refine goesOn_one (m := .changed) .idle ?_ rfl ⟨by simp [SubscriptionRow.setPivoted], rfl⟩
      simp [hnot, Mark.ofType]
    | migrating =>
      cases hmigrated : p.wasPriceMigration found with
      | true =>
        refine goesOn_one (m := .migrated) .idle ?_ rfl ⟨by simp [SubscriptionRow.setPivoted], rfl⟩
        simp [Mark.ofType]
      | false =>
        refine goesOn_one (m := .changed) .idle ?_ rfl ⟨by simp [SubscriptionRow.setPivoted], rfl⟩
        simp [Mark.ofType]
    | ended => exact absurd h hlive
  · simp only [hp, Bool.false_eq_true, if_false] at hrow ⊢
    cases hrow
    exact goesOn_quiet h (by simp [Mark.ofType]) rfl rfl (by simp [SubscriptionRow.setRenewed, hlive])

theorem vas_goesOn {p : VasPlan} {pay : PaymentResult} {now : Time} {target : Option BundleBalanceRow}
    (h : Matches life db.sub) (hlive : found.state = .blocked → db.sub.state ≠ .terminated)
    (hcommit : vasCommit found p pay now target db = .ok db') : GoesOn life db db' := by
  obtain ⟨hsub, -⟩ := vasCommit_eq_ok hcommit
  have hmarks : marks db'.events = marks db.events := by
    rw [marks_of_types (vasCommit_events hcommit)]
    split <;> simp [Mark.ofType]
  refine goesOn_quiet h hmarks ?_ ?_ ?_
  · rw [hsub, vasRow]
    split <;> rfl
  · rw [hsub, vasRow]
    split <;> rfl
  · rw [hsub, vasRow]
    split
    · rename_i hs
      simp [SubscriptionRow.setState, hlive hs]
    · rfl
    · rfl

theorem usage_goesOn {u : UsageCall} {effect : UsageEffect} (h : Matches life db.sub)
    (hlive : ∀ result, effect = .decrement result true → db.sub.state ≠ .terminated)
    (hcommit : usageCommit found u effect db = .ok db') : GoesOn life db db' := by
  have hmarks : marks db'.events = marks db.events := by
    rw [marks_of_types (usageCommit_events hcommit)]
    unfold usageEvents
    split <;> simp [Mark.ofType]
  obtain ⟨hsub, -⟩ := usageCommit_eq_ok hcommit
  apply goesOn_quiet h hmarks
  · rw [hsub]
    unfold usageRow
    split <;> rfl
  · rw [hsub]
    unfold usageRow
    split <;> rfl
  · rw [hsub]
    unfold usageRow
    split
    · simp [SubscriptionRow.setState, hlive _ rfl]
    · rfl

theorem terminate_goesOn {p : TerminatePlan} (h : Matches life db.sub) (hlive : db.sub.state ≠ .terminated)
    (hcommit : terminateCommit found p db = .ok db') : GoesOn life db db' := by
  obtain ⟨hsub, -⟩ := terminateCommit_eq_ok hcommit
  refine goesOn_one (m := .terminated) .ended ?_ ?_ ?_
  · simp only [terminateCommit, bind_eq_ok] at hcommit
    obtain ⟨dest, -, hcommit⟩ := hcommit
    cases hcommit
    simp [Mark.ofType]
  · cases life with
    | idle => rfl
    | announced => rfl
    | migrating => rfl
    | ended => exact absurd h hlive
  · rw [hsub]
    rfl

theorem commit_goesOn {f : Flight} (hmade : Made f) (hplanned : World.Planned f) (h : Matches life db.sub)
    (hlive : rewrites f → db.sub.state ≠ .terminated) (hsame : changes f → SamePending db.sub f.found)
    (hfree : migrates f → life ≠ .announced) (hcommit : f.commit db = some (.ok db')) : GoesOn life db db' := by
  unfold Flight.commit at hcommit
  split at hcommit <;> simp only [Option.some.injEq, reduceCtorEq] at hcommit <;> rename_i hf
  · rename_i p pay existing
    have hrewrites := hlive (by simp [rewrites, hf])
    unfold renewCommit at hcommit
    split at hcommit
    · rename_i happ
      have hpending : p.pivot → f.found.pendingOfferingId.isSome := by
        intro hp
        obtain ⟨env, hplan⟩ := hplanned p (by simp [Flight.renewal, hf])
        have hpivot := (renewPlan_eq_ok hplan).2.2.1
        rw [hp, applyingPending, eq_comm, Bool.and_eq_true] at hpivot
        exact hpivot.1
      exact approved_goesOn h hrewrites hpending (fun hp => hsame (by simp [changes, hf, hp, happ])) hcommit
    · exact declined_goesOn h hrewrites hcommit
  · exact vas_goesOn h (fun hs => hlive (by simp [rewrites, hf, hs])) hcommit
  · refine usage_goesOn h (fun result heffect => hlive ?_) hcommit
    subst heffect
    simp [rewrites, hf]
  · exact terminate_goesOn h (hlive (by simp [rewrites, hf])) hcommit
  · cases hcommit
    refine write_goesOn h (hmade _ hf) (hlive (by simp [rewrites, hf])) (fun hm => hsame ?_) fun hm => hfree ?_
    · simpa [changes, hf] using hm
    · simpa [migrates, hf] using hm

theorem rowWrite_pendingSet {f : Flight} {r r' : SubscriptionRow} (hmade : Made f) (h : PendingSet r)
    (hw : RowWrite f r r') : PendingSet r' := by
  cases hw with
  | @renewed p pay existing row hf happ hs hrow =>
    unfold RenewPlan.writeRow at hrow
    split at hrow
    · obtain ⟨amount, -, hrow⟩ := bind_eq_ok.mp hrow
      cases hrow
      exact Or.inl ⟨rfl, rfl, rfl⟩
    · cases hrow
      exact h
  | declined hf happ hs => exact h
  | bought hf =>
    unfold vasRow
    split <;> exact h
  | blocked hf hs => exact h
  | used hf hne => exact h
  | terminated hf => exact h
  | changed hf =>
    cases hmade _ hf with
    | scheduled ho hp _ _ _ | migrating ho hp _ =>
      exact Or.inr ⟨Option.isSome_iff_exists.mpr ⟨_, ho⟩, Option.isSome_iff_exists.mpr ⟨_, hp⟩⟩
    | cancelled ho hp he _ _ => exact Or.inl ⟨ho, hp, he⟩

end Commit

/-! ## Runs -/

/-- A live line without a change, now or before. -/
def Fresh (db : SubDb) : Prop :=
  db.sub.state ≠ .terminated ∧ db.sub.pendingOfferingId = none ∧ db.sub.pendingOfferingPriceId = none ∧
    db.sub.pendingEffectiveAt = none ∧ marks db.events = []

instance (db : SubDb) : Decidable (Fresh db) := inferInstanceAs (Decidable (_ ∧ _))

theorem create_fresh {req : SubscriptionCreateRequest} {p : CreatePlan} {pay : PaymentResult} {subId : String}
    {now : Time} {db : SubDb} (h : createCommit req p pay subId now = .ok db) : Fresh db := by
  simp only [createCommit, bind_eq_ok] at h
  obtain ⟨amount, -, value, -, balances, -, h⟩ := h
  cases h
  exact ⟨by simp [createRow], rfl, rfl, rfl, by simp [Mark.ofType]⟩

structure SetInv (w : World) : Prop where
  row : PendingSet w.db.sub
  made : ∀ f ∈ w.flights, Made f

structure LifeInv (w : World) : Prop where
  set : SetInv w
  planned : ∀ f ∈ w.flights, World.Planned f
  life : ∃ life, exec Life.step .idle (marks w.db.events) = some life ∧ Matches life w.db.sub

section Step

variable {w w' : World} {l : Label}

theorem step_setInv (hi : SetInv w) (h : w.step l = some w') : SetInv w' := by
  refine ⟨?_, made_inv h hi.made⟩
  cases World.step_moved h with
  | commit hf _ hcommit =>
    exact rowWrite_pendingSet (hi.made _ (Pool.mem_of_getElem? hf)) hi.row (commit_rowWrite hcommit)
  | charge _ _ | openTx _ _ _ => simpa using hi.row
  | sweepDue _ _ | sweepSkipped _ _ => exact hi.row
  | tick _ | read _ | dispatch _ _ | drop _ | rollback _ _ | fail _ => exact hi.row

theorem step_goesOn (hi : LifeInv w) (hc : CommitsCurrent w l) (h : w.step l = some w') {life : Life}
    (hlog : exec Life.step .idle (marks w.db.events) = some life) (hm : Matches life w.db.sub) :
    GoesOn life w.db w'.db := by
  have hquiet : ∀ db', db' = w.db → GoesOn life w.db db' := by
    rintro db' rfl
    exact goesOn_quiet hm rfl rfl rfl Iff.rfl
  cases World.step_moved h with
  | @commit i f db hf _ hcommit =>
    have hmem := Pool.mem_of_getElem? hf
    obtain ⟨hlive, hsame, hfree⟩ := hc f hf
    refine commit_goesOn (hi.set.made f hmem) (hi.planned f hmem) hm hlive hsame (fun hmig heq => ?_) hcommit
    exact hfree hmig ((announced_iff_last hlog).mp heq)
  | charge _ _ | openTx _ _ _ => exact hquiet _ (by simp)
  | sweepDue _ _ => exact goesOn_quiet hm rfl rfl rfl Iff.rfl
  | sweepSkipped _ _ => exact goesOn_quiet hm (by simp [Sweep.mark, Mark.ofType]) rfl rfl Iff.rfl
  | tick _ | read _ | dispatch _ _ | drop _ | rollback _ _ | fail _ => exact hquiet _ rfl

theorem step_lifeInv (hi : LifeInv w) (hc : CommitsCurrent w l) (h : w.step l = some w') : LifeInv w' := by
  refine ⟨step_setInv hi.set h, World.planned_inv h hi.planned, ?_⟩
  obtain ⟨life, hlog, hm⟩ := hi.life
  obtain ⟨ms, life', hmarks, hms, hm'⟩ := step_goesOn hi hc h hlog hm
  refine ⟨life', ?_, hm'⟩
  rw [hmarks]
  exact (exec_append ..).mpr ⟨life, hlog, hms⟩

end Step

/-- **A plan change ends once** in a run in which what schedules, cancels or applies a change
finds the row as it was read, no price migration meets an announced change, and nothing is
written to a terminated line. The pending columns are set together in every run. -/
theorem plan_changes_end (db : SubDb) (clock : Time) (hdb : Fresh db) :
    (∀ ls w, exec World.step (World.idle db clock) ls = some w → PendingSet w.db.sub) ∧
    ∀ ls w, exec (guarded CommitsCurrent World.step) (World.idle db clock) ls = some w →
      (∀ pre seg, marks w.db.events = pre ++ .cancelled :: seg → (∀ m ∈ seg, ¬ m.Records) →
        .changed ∉ seg ∧ .migrated ∉ seg) ∧
      ∀ pre seg post, marks w.db.events = pre ++ .scheduled :: (seg ++ post) → (∀ m ∈ seg, ¬ m.Records) →
        (∀ m ∈ post.head?, m.Records) → (seg = [] ∧ post = []) ∨ EndsOnce seg := by
  obtain ⟨hlive, hoffering, hprice, heffective, hmarks⟩ := hdb
  have hset : SetInv (World.idle db clock) := ⟨Or.inl ⟨hoffering, hprice, heffective⟩, by simp [World.idle]⟩
  refine ⟨fun ls w h => (exec_inv (P := SetInv) (fun s l s' hs hl => step_setInv hs hl) hset h).row, ?_⟩
  intro ls w h
  have hinit : LifeInv (World.idle db clock) := by
    refine ⟨hset, by simp [World.idle], .idle, ?_, hlive, hoffering⟩
    rw [World.idle, hmarks]
    rfl
  have hi := guarded_inv (P := LifeInv) (fun s l s' hs hc hl => step_lifeInv hs hc hl) hinit h
  obtain ⟨life, hlog, -⟩ := hi.life
  constructor
  · intro pre seg heq hseg
    rw [heq] at hlog
    exact cancelled_stays hlog hseg
  · intro pre seg post heq hseg hpost
    rw [heq] at hlog
    exact announced_ends hlog hseg hpost

def newPrice : PriceDoc := ⟨some "PRICE-2", some "recurring", "30.00", .ok 30, some "SGD"⟩

def scheduleEnv : ScheduleEnv := ⟨.ok ["PLAN_M", "PLAN_L"], .ok newPrice⟩

def pivotEnv : RenewEnv := ⟨fun _ => .ok newPrice, fun _ => .ok samplePlan, fun _ => .ok sampleMethods⟩

def scheduled : List Label := [.read (.schedule scheduleEnv "PLAN_L"), .commit 0]

/-- A change is scheduled and cancelled, and one that is scheduled after it is applied. -/
theorem plan_changes_end_applied :
    let w := (exec (guarded CommitsCurrent World.step) (World.idle (sampleLine .active 100 70) 0)
      (scheduled ++ [.read .cancel, .commit 0] ++ scheduled ++
        [.tick (periodEnd 0), .read (.renew pivotEnv), .charge 0 (.ok approved), .openTx 0, .commit 0])).get
      (by decide +kernel)
    w.db.sub.offeringId = "PLAN_L" ∧ PendingSet w.db.sub ∧
      marks w.db.events = [.scheduled, .cancelled, .scheduled, .changed] ∧ EndsOnce [.changed] := by
  intro w
  have hmarks : marks w.db.events = [.scheduled, .cancelled, .scheduled, .changed] := by decide +kernel
  have hpending : PendingSet w.db.sub := by decide +kernel
  obtain ⟨-, hends⟩ := (plan_changes_end (sampleLine .active 100 70) 0 (by decide)).2 _ w (Option.some_get _).symm
  refine ⟨by decide +kernel, hpending, hmarks, ?_⟩
  exact (hends [.scheduled, .cancelled] [.changed] [] hmarks (by decide) (by simp)).resolve_left (by simp)

/-- A renewal reads the change, the change is cancelled, and the renewal goes on. -/
def cancelRace : List Label :=
  scheduled ++ [.tick (periodEnd 0), .read (.renew pivotEnv), .read .cancel, .commit 1, .charge 0 (.ok approved),
    .openTx 0, .commit 0]

/-- A price migration comes while a change is announced. -/
def replaced : List Label :=
  scheduled ++ [.read (.migrate ⟨"ops", ["admin"], .ok newPrice, .ok samplePlan⟩ ⟨"PLAN_M", "PRICE-1", 0, 30, "ops"⟩),
    .commit 0]

/-- The cancelled change is applied, and the announced change is dropped. -/
theorem cancelled_change_applied :
    (∃ w, exec World.step (World.idle (sampleLine .active 100 70) 0) cancelRace = some w ∧
      w.db.sub.offeringId = "PLAN_L" ∧ marks w.db.events = [.scheduled, .cancelled, .changed]) ∧
    ∃ w, exec World.step (World.idle (sampleLine .active 100 70) 0) replaced = some w ∧
      w.db.sub.pendingOfferingId = some "PLAN_M" ∧ marks w.db.events = [.scheduled, .migrating] := by
  constructor
  · exact ⟨(exec World.step (World.idle (sampleLine .active 100 70) 0) cancelRace).get (by decide +kernel),
      (Option.some_get _).symm, by decide +kernel, by decide +kernel⟩
  · exact ⟨(exec World.step (World.idle (sampleLine .active 100 70) 0) replaced).get (by decide +kernel),
      (Option.some_get _).symm, by decide +kernel, by decide +kernel⟩

end BssCli.Subscription.PlanChanges
