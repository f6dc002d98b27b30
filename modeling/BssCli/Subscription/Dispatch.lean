import BssCli.Lib.Once
import BssCli.Subscription.Fleet

/-!
# The worker dispatches a renewal once

The mark on a row is a register: a sweep takes the date of a row that is above its mark,
and raises the mark to its own clock, which is not before the date. So the fleet refines
`Once.Register`, and the clocks of the replicas do not matter.
-/

namespace BssCli.Subscription.Dispatch

open Steps Once Fleet

/-! ## What holds of a sweep -/

/-- The ids a sweep has locked and still looks at are different, and the rows it has locked
are as it found them. -/
def Intact (lines : Lines) (t : Tick) : Prop :=
  ∀ candidates batch, t.phase = .scanning candidates batch →
    (batch.map Prod.fst ++ candidates).Nodup ∧
      ∀ p ∈ batch, ∃ db, lines.find p.1 = some db ∧ db.sub.nextRenewalAt = some p.2 ∧
        t.sweep.Selects t.now t.tenantId db.sub

def markOf (lines : Lines) (id : String) : Option Time :=
  (lines.find id).bind (·.sub.lastRenewalAttemptedAt)

/-- The fleet beside the register it keeps in its rows. -/
structure Refines (fl : Fleet) (reg : Register String Time) : Prop where
  mark : reg.mark = markOf fl.lines
  intact : ∀ t ∈ fl.ticks, Intact fl.lines t
  locks : (locked fl.ticks).Nodup
  claimed : (fl.dispatched ++ fl.ticks.flatMap Tick.queue).Subperm reg.claimed

theorem intact_frame {lines lines' : Lines} {t : Tick} (h : Intact lines t)
    (hframe : ∀ id ∈ t.locks, ∀ db, lines.find id = some db → lines'.find id = some db) :
    Intact lines' t := by
  intro candidates batch hphase
  obtain ⟨hnodup, hrows⟩ := h candidates batch hphase
  refine ⟨hnodup, fun p hp => ?_⟩
  obtain ⟨db, hdb, hrest⟩ := hrows p hp
  have hlock : p.1 ∈ t.locks := by
    simp only [Tick.locks, hphase]
    exact List.mem_map_of_mem hp
  exact ⟨db, hframe p.1 hlock db hdb, hrest⟩

theorem mem_locked {ticks : List Tick} {t : Tick} {id : String} (ht : t ∈ ticks) (hid : id ∈ t.locks) :
    id ∈ locked ticks := List.mem_flatMap.mpr ⟨t, ht, hid⟩

/-! ## The steps that take nothing -/

section

variable {fl fl' : Fleet} {reg : Register String Time}

theorem create_refines {db : SubDb} {lines : Lines} (hR : Refines fl reg)
    (hmark : db.sub.lastRenewalAttemptedAt = none) (h : fl.lines.insert db = some lines) :
    Refines { fl with lines } reg := by
  have hfind := Table.find_insert h
  obtain ⟨-, hnone⟩ := Table.rows_insert h
  refine ⟨?_, fun t ht => ?_, hR.locks, hR.claimed⟩
  · rw [hR.mark]
    funext id
    simp only [markOf, hfind]
    split
    · rename_i hid
      simp [← hid, hnone, hmark]
    · rfl
  · apply intact_frame (hR.intact t ht)
    intro id _ db' hdb'
    rw [hfind, if_neg, hdb']
    rintro rfl
    rw [hnone] at hdb'
    cases hdb'

theorem commit_refines {id : String} {f : Flight} (hR : Refines fl reg) (hfree : id ∉ locked fl.ticks) :
    Refines { fl with lines := fl.lines.update id f.settle f.settle_id } reg := by
  refine ⟨?_, fun t ht => ?_, hR.locks, hR.claimed⟩
  · rw [hR.mark]
    funext id'
    simp only [markOf, Table.find_update]
    split
    · cases fl.lines.find id' with
      | none => rfl
      | some db => exact (f.settle_same db).2.symm
    · rfl
  · apply intact_frame (hR.intact t ht)
    intro id' hid' db hdb
    rw [Table.find_update_ne, hdb]
    rintro rfl
    exact hfree (mem_locked ht hid')

theorem select_refines {sweep : Sweep} {now : Time} {tenantId : String} {candidates : List String}
    (hR : Refines fl reg) (hperm : candidates.Perm (selectedIds fl.lines sweep now tenantId)) :
    Refines { fl with ticks := fl.ticks ++ [⟨sweep, now, tenantId, .scanning candidates []⟩] } reg := by
  have hnodup : candidates.Nodup := by
    rw [hperm.nodup_iff, selectedIds]
    exact (List.filter_sublist.map _).nodup fl.lines.key_nodup
  refine ⟨hR.mark, Pool.forall_concat hR.intact ?_, ?_, ?_⟩
  · rintro _ _ ⟨⟩
    exact ⟨by simpa using hnodup, by simp⟩
  · simpa [locked, Tick.locks] using hR.locks
  · simpa [Tick.queue] using hR.claimed

theorem set_refines {i : ℕ} {t t' : Tick} (hR : Refines fl reg) (ht : fl.ticks[i]? = some t)
    (hintact : Intact fl.lines t') (hqueue : t'.queue = t.queue)
    (hlocks : (t'.locks ++ locked (fl.ticks.eraseIdx i)).Nodup) :
    Refines { fl with ticks := fl.ticks.set i t' } reg := by
  refine ⟨hR.mark, Pool.forall_set hR.intact hintact, ?_, ?_⟩
  · exact (Pool.flatMap_set Tick.locks ht t').nodup_iff.mpr hlocks
  · have hsame : ((fl.ticks.set i t').flatMap Tick.queue).Perm (fl.ticks.flatMap Tick.queue) := by
      refine (Pool.flatMap_set Tick.queue ht t').trans ?_
      rw [hqueue]
      exact (Pool.flatMap_eraseIdx Tick.queue ht).symm
    exact ((hsame.append_left fl.dispatched).subperm).trans hR.claimed

theorem locks_split {i : ℕ} {t : Tick} (hR : Refines fl reg) (ht : fl.ticks[i]? = some t) :
    (t.locks ++ locked (fl.ticks.eraseIdx i)).Nodup :=
  (Pool.flatMap_eraseIdx Tick.locks ht).nodup_iff.mp hR.locks

theorem skip_refines {i : ℕ} {t : Tick} {id : String} {rest : List String} {batch : List (String × Time)}
    (hR : Refines fl reg) (ht : fl.ticks[i]? = some t) (hphase : t.phase = .scanning (id :: rest) batch) :
    Refines { fl with ticks := fl.ticks.set i { t with phase := .scanning rest batch } } reg := by
  obtain ⟨hnodup, hrows⟩ := hR.intact t (Pool.mem_of_getElem? ht) _ _ hphase
  have hlocks := locks_split hR ht
  refine set_refines hR ht ?_ (by simp [Tick.queue, hphase]) (by simpa [Tick.locks, hphase] using hlocks)
  rintro _ _ ⟨⟩
  exact ⟨hnodup.sublist ((List.sublist_cons_self id rest).append_left _), hrows⟩

/-- A row is picked when nobody else holds it and it matches as it is now. -/
theorem pick_eq_some {lines : Lines} {others : List Tick} {t : Tick} {id : String} {next : Time}
    (h : pick lines others t id = some next) :
    id ∉ locked others ∧ ∃ db, lines.find id = some db ∧ db.sub.nextRenewalAt = some next ∧
      t.sweep.Selects t.now t.tenantId db.sub := by
  unfold pick at h
  split at h
  · simp at h
  · rename_i hfree
    obtain ⟨db, hdb, hnext⟩ := Option.bind_eq_some_iff.mp h
    simp only [Option.ite_none_right_eq_some] at hnext
    exact ⟨hfree, db, hdb, hnext.2, hnext.1⟩

theorem lock_refines {i : ℕ} {t t' : Tick} (hR : Refines fl reg) (ht : fl.ticks[i]? = some t)
    (h : lockNext fl.lines (fl.ticks.eraseIdx i) t = some t') :
    Refines { fl with ticks := fl.ticks.set i t' } reg := by
  unfold lockNext at h
  split at h
  · rename_i id rest batch hphase
    cases hpick : pick fl.lines (fl.ticks.eraseIdx i) t id with
    | none =>
      rw [hpick] at h
      cases h
      exact skip_refines hR ht hphase
    | some next =>
      rw [hpick] at h
      cases h
      obtain ⟨hfree, db, hdb, hnext, hselects⟩ := pick_eq_some hpick
      obtain ⟨hnodup, hrows⟩ := hR.intact t (Pool.mem_of_getElem? ht) _ _ hphase
      have hlocks := locks_split hR ht
      have hids : ((batch ++ [(id, next)]).map Prod.fst ++ rest).Nodup := by simpa using hnodup
      refine set_refines hR ht ?_ (by simp [Tick.queue, hphase]) ?_
      · rintro _ _ ⟨⟩
        refine ⟨?_, fun p hp => ?_⟩
        · split
          · exact hids
          · simpa using (List.nodup_append.mp hids).1
        · rcases List.mem_append.mp hp with hp | hp
          · exact hrows p hp
          · rw [List.mem_singleton.mp hp]
            exact ⟨db, hdb, hnext, hselects⟩
      · simp only [Tick.locks, hphase] at hlocks ⊢
        obtain ⟨-, hothers, hdisjoint⟩ := List.nodup_append.mp hlocks
        refine List.nodup_append.mpr ⟨(List.nodup_append.mp hids).1, hothers, ?_⟩
        rintro a ha b hb rfl
        rw [List.map_append, List.mem_append] at ha
        rcases ha with ha | ha
        · exact hdisjoint a ha a hb rfl
        · rw [List.mem_singleton.mp ha] at hb
          exact hfree hb
  · simp at h

theorem abort_refines {i : ℕ} {t : Tick} (hR : Refines fl reg) (ht : fl.ticks[i]? = some t) :
    Refines { fl with ticks := fl.ticks.eraseIdx i } reg := by
  refine ⟨hR.mark, Pool.forall_eraseIdx hR.intact, ?_, ?_⟩
  · exact (List.nodup_append.mp (locks_split hR ht)).2.1
  · have hsub := (Pool.flatMap_eraseIdx Tick.queue ht).symm.subperm
    have hrest : ((fl.ticks.eraseIdx i).flatMap Tick.queue).Subperm (fl.ticks.flatMap Tick.queue) :=
      (List.sublist_append_right _ _).subperm.trans hsub
    exact ((List.subperm_append_left _).mpr hrest).trans hR.claimed

theorem dispatch_refines {i : ℕ} {t : Tick} (hR : Refines fl reg) (ht : fl.ticks[i]? = some t)
    (h : fl.dispatchNext i t = some fl') : Refines fl' reg := by
  have hlocks := locks_split hR ht
  unfold dispatchNext at h
  split at h
  · rename_i p rest hphase
    cases h
    refine ⟨hR.mark, Pool.forall_set hR.intact ?_, ?_, ?_⟩
    · rintro _ _ ⟨⟩
    · refine (Pool.flatMap_set Tick.locks ht _).nodup_iff.mpr ?_
      simpa [locked, Tick.locks, hphase] using hlocks
    · have h₁ := Pool.flatMap_eraseIdx Tick.queue ht
      have h₂ := Pool.flatMap_set Tick.queue ht { t with phase := .dispatching rest }
      simp only [Tick.queue, hphase] at h₁ h₂
      have hsame : (fl.dispatched ++ [p] ++ (fl.ticks.set i { t with phase := .dispatching rest }).flatMap
          Tick.queue).Perm (fl.dispatched ++ fl.ticks.flatMap Tick.queue) := by
        refine (h₂.append_left _).trans ?_
        simpa using h₁.symm.append_left fl.dispatched
      exact hsame.subperm.trans hR.claimed
  · simp at h

/-! ## The commit of the marks -/

theorem find_markAll (lines : Lines) (sweep : Sweep) (now : Time) (ids : List String) (id : String) :
    (markAll lines sweep now ids).find id =
      (lines.find id).map fun db => if id ∈ ids then sweep.mark now db else db := by
  rw [markAll, Table.find_map]
  cases hdb : lines.find id with
  | none => rfl
  | some db => simp [(Table.find_some _ hdb).2]

theorem intact_markAll {i : ℕ} {t t' : Tick} {batch : List (String × Time)} (hR : Refines fl reg)
    (ht : fl.ticks[i]? = some t) (hlocks : t.locks = batch.map Prod.fst)
    (ht' : t' ∈ fl.ticks.eraseIdx i) :
    Intact (markAll fl.lines t.sweep t.now (batch.map Prod.fst)) t' := by
  have hdisjoint := (List.nodup_append.mp (locks_split hR ht)).2.2
  apply intact_frame (hR.intact t' (List.mem_of_mem_eraseIdx ht'))
  intro id hid db hdb
  have hother : id ∉ batch.map Prod.fst := by
    intro hmem
    exact hdisjoint id (hlocks ▸ hmem) id (mem_locked ht' hid) rfl
  rw [find_markAll, hdb, Option.map_some, if_neg hother]

/-- The marks of a batch are takings of its dates, counted when they will be dispatched. -/
theorem exec_mark {i : ℕ} {t : Tick} {batch : List (String × Time)} (counted : Bool)
    (hR : Refines fl reg) (ht : fl.ticks[i]? = some t) (hphase : t.phase = .scanning [] batch) :
    exec Register.step reg (batch.map fun p => ⟨p.1, p.2, t.now, counted⟩) =
        some (reg.takeAll batch t.now counted) ∧
      (reg.takeAll batch t.now counted).mark =
        markOf (markAll fl.lines t.sweep t.now (batch.map Prod.fst)) := by
  obtain ⟨hnodup, hrows⟩ := hR.intact t (Pool.mem_of_getElem? ht) _ _ hphase
  refine ⟨Register.exec_batch counted (by simpa using hnodup) fun p hp => ?_, ?_⟩
  · obtain ⟨db, hdb, hnext, hselects⟩ := hrows p hp
    obtain ⟨⟨next, hmem, hle⟩, hun⟩ := Sweep.selects_overdue hselects
    refine ⟨fun last hlast => ?_, ?_⟩
    · rw [hR.mark, markOf, hdb] at hlast
      obtain ⟨next', hnext', hlt⟩ := hun last hlast
      rw [hnext, Option.mem_def, Option.some.injEq] at hnext'
      exact hnext' ▸ hlt
    · rw [hnext, Option.mem_def, Option.some.injEq] at hmem
      exact hmem ▸ hle
  · funext id
    simp only [Register.takeAll, markOf, find_markAll, hR.mark]
    by_cases hid : id ∈ batch.map Prod.fst
    · obtain ⟨p, hp, rfl⟩ := List.mem_map.mp hid
      obtain ⟨db, hdb, -⟩ := hrows p hp
      simp [hid, hdb, SubscriptionRow.markRenewalAttempted]
    · cases fl.lines.find id <;> simp [hid]

theorem mark_refines {i : ℕ} {t : Tick} (hR : Refines fl reg) (ht : fl.ticks[i]? = some t)
    (h : fl.markTick i t = some fl') :
    ∃ takes reg', exec Register.step reg takes = some reg' ∧ Refines fl' reg' := by
  unfold markTick at h
  split at h
  · rename_i batch hphase
    have hlocks : t.locks = batch.map Prod.fst := by simp [Tick.locks, hphase]
    have hothers : ∀ t' ∈ fl.ticks.eraseIdx i,
        Intact (markAll fl.lines t.sweep t.now (batch.map Prod.fst)) t' :=
      fun _ ht' => intact_markAll hR ht hlocks ht'
    have hnodup := (List.nodup_append.mp (locks_split hR ht)).2.1
    have hqueue := Pool.flatMap_eraseIdx Tick.queue ht
    obtain ⟨sweep, now, tenantId, phase⟩ := t
    subst hphase
    cases h
    cases sweep with
    | due =>
      obtain ⟨hexec, hmark⟩ := exec_mark true hR ht rfl
      refine ⟨_, _, hexec, hmark, fun t' ht' => ?_, ?_, ?_⟩
      · rw [(Pool.perm_set ht _).mem_iff, List.mem_cons] at ht'
        rcases ht' with rfl | ht'
        · rintro _ _ ⟨⟩
        · exact hothers t' ht'
      · exact (Pool.flatMap_set Tick.locks ht _).nodup_iff.mpr hnodup
      · have hset := Pool.flatMap_set Tick.queue ht ⟨.due, now, tenantId, .dispatching batch⟩
        have hrest := (hqueue.symm.append_left fl.dispatched).subperm.trans hR.claimed
        have hmoved : (fl.dispatched ++ (batch ++ (fl.ticks.eraseIdx i).flatMap Tick.queue)).Perm
            (fl.dispatched ++ (fl.ticks.eraseIdx i).flatMap Tick.queue ++ batch) := by
          rw [List.append_assoc]
          exact List.perm_append_comm.append_left _
        refine ((hset.append_left _).trans hmoved).subperm.trans ?_
        exact (List.subperm_append_right batch).mpr hrest
    | skipped =>
      obtain ⟨hexec, hmark⟩ := exec_mark false hR ht rfl
      refine ⟨_, _, hexec, hmark, hothers, hnodup, ?_⟩
      have hrest := (hqueue.symm.append_left fl.dispatched).subperm.trans hR.claimed
      simpa [Register.takeAll, Tick.queue] using hrest
  · simp at h

end

/-! ## Runs -/

theorem step_refines {fl fl' : Fleet} {l : Fleet.Label} {reg : Register String Time} (hR : Refines fl reg)
    (h : fl.step l = some fl') :
    ∃ takes reg', exec Register.step reg takes = some reg' ∧ Refines fl' reg' := by
  have hstay : ∀ fl', Refines fl' reg → ∃ takes reg', exec Register.step reg takes = some reg' ∧
      Refines fl' reg' := fun _ h => ⟨[], reg, exec_nil reg, h⟩
  cases l with
  | create req p pay subId now =>
    obtain ⟨db, hdb, h⟩ := Option.bind_eq_some_iff.mp h
    obtain ⟨lines, hlines, rfl⟩ := Option.map_eq_some_iff.mp h
    refine hstay _ (create_refines hR ?_ hlines)
    obtain ⟨amount, value, -, -, hsub, -⟩ := createCommit_eq_ok (toOption_eq_some.mp hdb)
    rw [hsub]
    rfl
  | commit id f =>
    simp only [step, Option.ite_none_left_eq_some, Option.some.injEq] at h
    obtain ⟨hfree, rfl⟩ := h
    exact hstay _ (commit_refines hR hfree)
  | select sweep now tenantId candidates =>
    simp only [step, Option.ite_none_right_eq_some, Option.some.injEq] at h
    obtain ⟨⟨hperm, -⟩, rfl⟩ := h
    exact hstay _ (select_refines hR hperm)
  | lock i =>
    obtain ⟨t, ht, h⟩ := Option.bind_eq_some_iff.mp h
    obtain ⟨t', ht', rfl⟩ := Option.map_eq_some_iff.mp h
    exact hstay _ (lock_refines hR ht ht')
  | skip i =>
    obtain ⟨t, ht, h⟩ := Option.bind_eq_some_iff.mp h
    obtain ⟨t', ht', rfl⟩ := Option.map_eq_some_iff.mp h
    unfold skipNext at ht'
    split at ht'
    · rename_i hphase
      cases ht'
      exact hstay _ (skip_refines hR ht hphase)
    · simp at ht'
  | mark i =>
    obtain ⟨t, ht, h⟩ := Option.bind_eq_some_iff.mp h
    exact mark_refines hR ht h
  | dispatch i =>
    obtain ⟨t, ht, h⟩ := Option.bind_eq_some_iff.mp h
    exact hstay _ (dispatch_refines hR ht h)
  | abort i =>
    obtain ⟨t, ht, rfl⟩ := Option.map_eq_some_iff.mp h
    exact hstay _ (abort_refines hR ht)

/-- **No renewal is dispatched twice for the same date** of a line, in every run of any
number of ticks on any number of replicas, whatever their clocks. -/
theorem dispatched_once (lines : Lines) (ls : List Fleet.Label) (fl : Fleet)
    (h : exec step (Fleet.idle lines) ls = some fl) : fl.dispatched.Nodup := by
  have hR : Refines (Fleet.idle lines) ⟨markOf lines, []⟩ :=
    ⟨rfl, by simp [Fleet.idle], by simp [Fleet.idle, locked], by simp [Fleet.idle]⟩
  obtain ⟨takes, reg, hexec, hreg⟩ := exec_simulates (fun _ _ _ _ => step_refines) hR h
  obtain ⟨l, hperm, hsub⟩ := hreg.claimed
  have hall := hperm.nodup_iff.mp (hsub.nodup (Register.claimed_nodup hexec))
  exact (List.nodup_append.mp hall).1

def dueLines : Lines := .singleton (sampleLine .active 100 70)

/-- Two replicas select the same row. The first locks and marks it, and dispatches. The
second was in time to find it locked, and its next tick finds it marked. -/
theorem dispatched_once_two_replicas :
    ((exec step (Fleet.idle dueLines)
      [.select .due (periodEnd 0) "DEFAULT" ["SUB-0001"], .select .due (periodEnd 0) "DEFAULT" ["SUB-0001"],
       .lock 0, .lock 1, .mark 1, .mark 0, .dispatch 0,
       .select .due (periodEnd 0) "DEFAULT" []]).get (by decide)).dispatched.Nodup :=
  dispatched_once dueLines _ _ (Option.some_get _).symm

end BssCli.Subscription.Dispatch
