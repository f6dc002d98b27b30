import BssCli.Events.Relay

/-!
# A row is published before it is marked, and none is skipped

A mark follows a publish that has succeeded and is never taken back. Ticks without a
failure leave nothing behind once as many have started as there were rows to take.
-/

namespace BssCli.Events.AtLeastOnce

open Steps Outbox

/-! ## One batch -/

theorem drainRow_id (answer : Except String Unit) (row : OutboxRow) : (drainRow answer row).id = row.id := by
  unfold drainRow
  split <;> rfl

theorem drainBatch_ids (publish : Publisher) (spanId : ℕ → String) (n : ℕ) (rows : List OutboxRow) :
    (drainBatch publish spanId n rows).map RowOutcome.id = rows.map OutboxRow.id := by
  induction rows generalizing n with
  | nil => rfl
  | cons row rows ih => simp [drainBatch, drainRow_id, ih]

theorem drainRow_published {answer : Except String Unit} {row : OutboxRow} {id : ℤ} :
    drainRow answer row = .published id ↔ answer = .ok () ∧ row.id = id := by
  unfold drainRow
  split <;> simp

theorem published_mem_drainBatch {publish : Publisher} {spanId : ℕ → String} {n : ℕ}
    {rows : List OutboxRow} {id : ℤ} :
    .published id ∈ drainBatch publish spanId n rows ↔
      ∃ (k : ℕ) (row : OutboxRow), rows[k]? = some row ∧ row.id = id ∧
        publish (n + k) (outgoing (spanId (n + k)) row) = .ok () := by
  induction rows generalizing n with
  | nil => simp [drainBatch]
  | cons row rows ih =>
    rw [drainBatch, List.mem_cons, eq_comm, drainRow_published, ih]
    constructor
    · rintro (⟨hok, hid⟩ | ⟨k, r, hr, hid, hok⟩)
      · exact ⟨0, row, rfl, hid, hok⟩
      · exact ⟨k + 1, r, hr, hid, by rwa [Nat.add_comm k 1, ← Nat.add_assoc]⟩
    · rintro ⟨k, r, hr, hid, hok⟩
      cases k with
      | zero =>
        cases hr
        exact Or.inl ⟨hok, hid⟩
      | succ k => exact Or.inr ⟨k, r, hr, hid, by rwa [Nat.add_comm k 1, ← Nat.add_assoc] at hok⟩

theorem published_mem_outcomes {p : Pass} {id : ℤ} :
    .published id ∈ p.outcomes ↔
      ∃ (k : ℕ) (row : OutboxRow), p.rows[k]? = some row ∧ row.id = id ∧
        p.answers[k]? = some (.ok ()) := by
  rw [Pass.outcomes, published_mem_drainBatch]
  refine exists_congr fun k => exists_congr fun row => and_congr_right fun _ => and_congr_right fun _ => ?_
  rw [Nat.zero_add, List.getD_eq_getElem?_getD]
  cases p.answers[k]? <;> simp

/-! ## The marks -/

/-- What the marks of a batch make of one row. -/
def markAll (outcomes : List RowOutcome) (r : DomainEvent) : DomainEvent :=
  outcomes.foldl (fun r o => if r.id = o.id then o.mark r else r) r

theorem rows_applyOutcomes (t : DomainEvents) (outcomes : List RowOutcome) :
    (applyOutcomes t outcomes).rows = t.rows.map (markAll outcomes) := by
  induction outcomes generalizing t with
  | nil => simp [applyOutcomes, show markAll [] = id from rfl]
  | cons o os ih =>
    rw [applyOutcomes, List.foldl_cons, ← applyOutcomes, ih, applyOutcome, Table.update, Table.map]
    simp [markAll, Function.comp_def]

theorem markAll_id (outcomes : List RowOutcome) (r : DomainEvent) : (markAll outcomes r).id = r.id := by
  induction outcomes generalizing r with
  | nil => rfl
  | cons o os ih =>
    rw [markAll, List.foldl_cons, ← markAll, ih]
    split
    · exact o.mark_id r
    · rfl

theorem markAll_published (outcomes : List RowOutcome) (r : DomainEvent) :
    (markAll outcomes r).publishedToMq = true ↔
      r.publishedToMq = true ∨ .published r.id ∈ outcomes := by
  induction outcomes generalizing r with
  | nil => simp [markAll]
  | cons o os ih =>
    rw [markAll, List.foldl_cons, ← markAll, ih, List.mem_cons]
    split
    · rename_i hid
      rw [o.mark_id]
      cases o with
      | published id => simp [RowOutcome.mark, show r.id = id from hid]
      | failed id e => simp [RowOutcome.mark]
    · rename_i hid
      have hne : RowOutcome.published r.id ≠ o := fun h => hid (h ▸ rfl)
      simp [hne]

/-! ## Marked only after a publish -/

/-- A row of the pass whose publish has succeeded is among `sent`. -/
def Covered (sent : List ℤ) (p : Pass) : Prop :=
  ∀ (k : ℕ) (row : OutboxRow), p.rows[k]? = some row → p.answers[k]? = some (.ok ()) → row.id ∈ sent

structure Inv (w : Outbox) : Prop where
  marked : ∀ r ∈ w.table.rows, r.publishedToMq = true → r.id ∈ w.sent ∨ r.id ∈ w.inline
  covered : ∀ p ∈ w.passes, Covered w.sent p

theorem covered_mono {sent : List ℤ} (more : List ℤ) {p : Pass} (h : Covered sent p) :
    Covered (sent ++ more) p :=
  fun k row hrow hok => List.mem_append_left _ (h k row hrow hok)

theorem publish_inv {w w' : Outbox} {i : ℕ} {p : Pass} {answer : Except String Unit} (hi : Inv w)
    (hp : w.passes[i]? = some p) (h : w.stepPublish i p answer = some w') : Inv w' := by
  obtain ⟨row, hrow, rfl⟩ := Option.map_eq_some_iff.mp h
  refine ⟨fun r hr hpub => ?_, ?_⟩
  · exact (hi.marked r hr hpub).imp_left (List.mem_append_left _)
  · apply Pool.forall_set
    · exact fun q hq => covered_mono _ (hi.covered q hq)
    · intro k r hr hok
      rw [List.getElem?_append] at hok
      split at hok
      · exact List.mem_append_left _ (hi.covered p (Pool.mem_of_getElem? hp) k r hr hok)
      · rename_i hk
        have hlast : k = p.answers.length := by
          have := (List.getElem?_eq_some_iff.mp hok).1
          simp only [List.length_singleton] at this
          omega
        subst hlast
        rw [hrow, Option.some.injEq] at hr
        simp only [Nat.sub_self, List.getElem?_cons_zero, Option.some.injEq] at hok
        simp [hok, hr, Except.isOk, Except.toBool]

theorem commit_inv {w : Outbox} {i : ℕ} {p : Pass} (hi : Inv w) (hp : w.passes[i]? = some p) :
    Inv { w with table := applyOutcomes w.table p.outcomes, passes := w.passes.eraseIdx i } := by
  refine ⟨?_, Pool.forall_eraseIdx hi.covered⟩
  intro r hr hpub
  rw [rows_applyOutcomes] at hr
  obtain ⟨old, hold, rfl⟩ := List.mem_map.mp hr
  rw [markAll_id]
  rcases (markAll_published ..).mp hpub with hpub | hpub
  · exact hi.marked old hold hpub
  · obtain ⟨k, row, hrow, hid, hok⟩ := published_mem_outcomes.mp hpub
    exact Or.inl (hid ▸ hi.covered p (Pool.mem_of_getElem? hp) k row hrow hok)

theorem step_inv {w w' : Outbox} {l : Label} (hi : Inv w) (h : step w l = some w') : Inv w' := by
  cases l with
  | stage row =>
    obtain ⟨table, ht, rfl⟩ := Option.map_eq_some_iff.mp h
    refine ⟨fun r hr hpub => ?_, hi.covered⟩
    rw [(Table.rows_insert ht).1, List.mem_append, List.mem_singleton] at hr
    rcases hr with hr | rfl
    · exact (hi.marked r hr hpub).imp_right (List.mem_append_left _)
    · simp [hpub]
  | select batchSize =>
    obtain ⟨rows, -, rfl⟩ := Option.map_eq_some_iff.mp h
    exact ⟨hi.marked, Pool.forall_concat hi.covered fun k row _ hok => by simp at hok⟩
  | publish i answer =>
    obtain ⟨p, hp, h⟩ := Option.bind_eq_some_iff.mp h
    exact publish_inv hi hp h
  | commit i =>
    obtain ⟨p, hp, h⟩ := Option.bind_eq_some_iff.mp h
    simp only [Option.ite_none_right_eq_some, Option.some.injEq] at h
    obtain ⟨-, rfl⟩ := h
    exact commit_inv hi hp
  | abort i =>
    obtain ⟨p, -, rfl⟩ := Option.map_eq_some_iff.mp h
    exact ⟨hi.marked, Pool.forall_eraseIdx hi.covered⟩

/-! ## A mark stays -/

def Marked (w : Outbox) (id : ℤ) : Prop := ∃ r ∈ w.table.rows, r.id = id ∧ r.publishedToMq = true

theorem step_marked {w w' : Outbox} {l : Label} {id : ℤ} (hm : Marked w id) (h : step w l = some w') :
    Marked w' id := by
  obtain ⟨r, hr, hid, hpub⟩ := hm
  cases l with
  | stage row =>
    obtain ⟨table, ht, rfl⟩ := Option.map_eq_some_iff.mp h
    exact ⟨r, by simp [(Table.rows_insert ht).1, hr], hid, hpub⟩
  | select batchSize =>
    obtain ⟨rows, -, rfl⟩ := Option.map_eq_some_iff.mp h
    exact ⟨r, hr, hid, hpub⟩
  | publish i answer =>
    obtain ⟨p, -, h⟩ := Option.bind_eq_some_iff.mp h
    obtain ⟨row, -, rfl⟩ := Option.map_eq_some_iff.mp h
    exact ⟨r, hr, hid, hpub⟩
  | commit i =>
    obtain ⟨p, -, h⟩ := Option.bind_eq_some_iff.mp h
    simp only [Option.ite_none_right_eq_some, Option.some.injEq] at h
    obtain ⟨-, rfl⟩ := h
    refine ⟨markAll p.outcomes r, ?_, (markAll_id ..).trans hid, (markAll_published ..).mpr (Or.inl hpub)⟩
    rw [rows_applyOutcomes]
    exact List.mem_map_of_mem hr
  | abort i =>
    obtain ⟨p, -, rfl⟩ := Option.map_eq_some_iff.mp h
    exact ⟨r, hr, hid, hpub⟩

/-! ## Nothing is skipped -/

/-- A row that is not published and that no tick holds. -/
def isFree (w : Outbox) (r : DomainEvent) : Bool := !r.publishedToMq && r.id ∉ w.locked

theorem isFree_iff {w : Outbox} {r : DomainEvent} :
    isFree w r = true ↔ r.publishedToMq = false ∧ r.id ∉ w.locked := by
  simp [isFree]

def free (w : Outbox) : ℕ := w.table.rows.countP (isFree w)

/-- Every publish of the ticks under way has succeeded so far. -/
def Clean (w : Outbox) : Prop := ∀ p ∈ w.passes, ∀ a ∈ p.answers, a = .ok ()

/-- A step of a tick without a failure, with a positive batch size. -/
def FailureFree : Label → Prop
  | .select batchSize => 0 < batchSize
  | .publish _ answer => answer = .ok ()
  | .commit _ => True
  | .stage _ | .abort _ => False

def isSelect : Label → Bool
  | .select _ => true
  | _ => false

/-- A row of a clean pass that has tried them all is published by its marks. -/
theorem clean_published {p : Pass} (hclean : ∀ a ∈ p.answers, a = .ok ())
    (hlen : p.answers.length = p.rows.length) {id : ℤ} (hid : id ∈ p.rows.map OutboxRow.id) :
    .published id ∈ p.outcomes := by
  obtain ⟨row, hrow, rfl⟩ := List.mem_map.mp hid
  obtain ⟨k, hk, rfl⟩ := List.getElem_of_mem hrow
  refine published_mem_outcomes.mpr ⟨k, p.rows[k], List.getElem?_eq_getElem hk, rfl, ?_⟩
  have hk' : k < p.answers.length := hlen ▸ hk
  rw [List.getElem?_eq_getElem hk', hclean _ (List.getElem_mem hk')]

theorem filter_batch_le {rows : List DomainEvent} {n : ℕ} (hn : 0 < n) :
    (rows.filter fun r => r.id ∉ ((rows.insertionSort Before).take n).map DomainEvent.id).length ≤
      rows.length - 1 := by
  cases hrows : rows.insertionSort Before with
  | nil =>
    have hlen := congrArg List.length hrows
    rw [List.length_insertionSort] at hlen
    simp [List.eq_nil_of_length_eq_zero hlen]
  | cons r rest =>
    have hr : r ∈ rows := (List.mem_insertionSort Before).mp (hrows ▸ List.mem_cons_self ..)
    apply Nat.le_sub_one_of_lt
    refine List.length_filter_lt_length_iff_exists.mpr ⟨r, hr, ?_⟩
    rw [List.take_cons hn]
    simp

theorem isFree_concat (w : Outbox) (rows : List DomainEvent) (r : DomainEvent) :
    isFree { w with passes := w.passes ++ [⟨rows.map DomainEvent.outboxRow, []⟩] } r =
      (decide (r.id ∉ rows.map DomainEvent.id) && isFree w r) := by
  have hids : (rows.map DomainEvent.outboxRow).map OutboxRow.id = rows.map DomainEvent.id := by
    rw [List.map_map]
    rfl
  simp only [isFree, locked, List.flatMap_append, List.flatMap_singleton, hids, List.mem_append, not_or,
    Bool.decide_and]
  cases r.publishedToMq <;> simp [Bool.and_comm]

theorem select_free {w : Outbox} {batchSize : ℤ} {rows : List OutboxRow} (hpos : 0 < batchSize)
    (h : drainSelect w.table w.locked batchSize = some rows) :
    free { w with passes := w.passes ++ [⟨rows, []⟩] } ≤ free w - 1 := by
  simp only [drainSelect, Option.ite_none_left_eq_some, Option.some.injEq] at h
  obtain ⟨-, rfl⟩ := h
  have hle := @filter_batch_le (w.table.rows.filter (isFree w)) batchSize.toNat (by omega)
  rw [List.filter_filter, ← List.countP_eq_length_filter, ← List.countP_eq_length_filter] at hle
  refine le_of_eq_of_le (List.countP_congr fun r _ => ?_) hle
  rw [isFree_concat]
  rfl

theorem commit_free {w : Outbox} {i : ℕ} {p : Pass} (hp : w.passes[i]? = some p)
    (hclean : ∀ a ∈ p.answers, a = .ok ()) (hlen : p.answers.length = p.rows.length) :
    free { w with table := applyOutcomes w.table p.outcomes, passes := w.passes.eraseIdx i } = free w := by
  have hlocked : ∀ id, id ∈ w.locked ↔ id ∈ p.rows.map OutboxRow.id ∨
      id ∈ (w.passes.eraseIdx i).flatMap fun p => p.rows.map OutboxRow.id := by
    intro id
    rw [locked, (Pool.flatMap_eraseIdx _ hp).mem_iff, List.mem_append]
  rw [free, free, rows_applyOutcomes, List.countP_map]
  refine List.countP_congr fun r _ => ?_
  rw [Function.comp_apply, isFree_iff, isFree_iff, markAll_id, hlocked, ← Bool.not_eq_true,
    ← Bool.not_eq_true, markAll_published]
  by_cases hid : r.id ∈ p.rows.map OutboxRow.id
  · have hpub := clean_published hclean hlen hid
    simp [hpub, hid]
  · have hnot : RowOutcome.published r.id ∉ p.outcomes := by
      intro h
      have := List.mem_map_of_mem (f := RowOutcome.id) h
      rw [Pass.outcomes, drainBatch_ids] at this
      exact hid this
    simp only [hnot, hid, or_false, false_or]
    rfl

/-- A step without a failure leaves no more free rows, and a new batch one less. -/
theorem step_free {w w' : Outbox} {l : Label} (hc : Clean w) (hl : FailureFree l)
    (h : step w l = some w') : Clean w' ∧ free w' ≤ free w - if isSelect l then 1 else 0 := by
  cases l with
  | stage row => exact hl.elim
  | abort i => exact hl.elim
  | select batchSize =>
    obtain ⟨rows, hrows, rfl⟩ := Option.map_eq_some_iff.mp h
    exact ⟨Pool.forall_concat hc (by simp), select_free hl hrows⟩
  | publish i answer =>
    obtain ⟨p, hp, h⟩ := Option.bind_eq_some_iff.mp h
    obtain ⟨row, -, rfl⟩ := Option.map_eq_some_iff.mp h
    have hanswers : ∀ a ∈ p.answers ++ [answer], a = .ok () := by
      intro a ha
      rcases List.mem_append.mp ha with ha | ha
      · exact hc p (Pool.mem_of_getElem? hp) a ha
      · exact List.mem_singleton.mp ha ▸ hl
    refine ⟨Pool.forall_set hc hanswers, le_of_eq ?_⟩
    refine List.countP_congr fun r _ => ?_
    have hmem : r.id ∈ (w.passes.set i { p with answers := p.answers ++ [answer] }).flatMap
        (fun p => p.rows.map OutboxRow.id) ↔ r.id ∈ w.locked := by
      rw [(Pool.flatMap_set _ hp _).mem_iff, locked, (Pool.flatMap_eraseIdx _ hp).mem_iff]
    rw [isFree_iff, isFree_iff]
    exact and_congr_right fun _ => not_congr hmem
  | commit i =>
    obtain ⟨p, hp, h⟩ := Option.bind_eq_some_iff.mp h
    simp only [Option.ite_none_right_eq_some, Option.some.injEq] at h
    obtain ⟨hlen, rfl⟩ := h
    exact ⟨Pool.forall_eraseIdx hc, le_of_eq (commit_free hp (hc p (Pool.mem_of_getElem? hp)) hlen)⟩

theorem exec_free {w w' : Outbox} {ls : List Label} (hc : Clean w) (hl : ∀ l ∈ ls, FailureFree l)
    (h : exec step w ls = some w') : free w' ≤ free w - ls.countP isSelect := by
  induction ls generalizing w with
  | nil =>
    rw [exec_nil, Option.some.injEq] at h
    simp [h]
  | cons l ls ih =>
    obtain ⟨w₁, h₁, h₂⟩ := (exec_cons ..).mp h
    obtain ⟨hc₁, hfree⟩ := step_free hc (hl l (List.mem_cons_self ..)) h₁
    have hrest := ih hc₁ (fun l' hl' => hl l' (List.mem_cons_of_mem _ hl')) h₂
    rw [List.countP_cons]
    omega

theorem all_published {w : Outbox} (hpasses : w.passes = []) (hfree : free w = 0) :
    ∀ r ∈ w.table.rows, r.publishedToMq = true := by
  intro r hr
  have := List.countP_eq_zero.mp hfree r hr
  simpa [isFree, locked, hpasses] using this

/-- **The relay is at least once and skips nothing.** A row is marked only after one of its
publishes has succeeded, a mark stays, and a batch has one outcome for each row, in order.
From any state, ticks of positive batch size without a failure leave no row unpublished
when as many have started as there were rows to take, and all have ended. -/
theorem relay_at_least_once (ls : List Label) (w : Outbox) (h : exec step empty ls = some w) :
    (∀ r ∈ w.table.rows, r.publishedToMq = true → r.id ∈ w.sent ∨ r.id ∈ w.inline) ∧
    (∀ ms w', exec step w ms = some w' →
      (∀ id, Marked w id → Marked w' id) ∧
      (Clean w → (∀ l ∈ ms, FailureFree l) → free w ≤ ms.countP isSelect → w'.passes = [] →
        ∀ r ∈ w'.table.rows, r.publishedToMq = true)) ∧
    (∀ publish spanId rows,
      (drainBatch publish spanId 0 rows).map RowOutcome.id = rows.map OutboxRow.id) := by
  have hempty : Inv empty := ⟨by simp [empty, Table.empty], by simp [empty]⟩
  have hi : Inv w := exec_inv (fun _ _ _ => step_inv) hempty h
  refine ⟨hi.marked, fun ms w' hms => ⟨fun id hm => ?_, fun hc hl hn hpasses => ?_⟩, ?_⟩
  · exact exec_inv (fun _ _ _ => step_marked) hm hms
  · have hfree := exec_free hc hl hms
    exact all_published hpasses (by omega)
  · exact fun publish spanId rows => drainBatch_ids publish spanId 0 rows

def sampleEvent (id : ℤ) (occurredAt : Time) : DomainEvent :=
  ⟨id, "EV", "order.in_progress", none, none, occurredAt, false, 0, none⟩

/-- Two replicas with batches of one: a failed publish, and a crash after a publish. -/
def relayRun : Outbox :=
  (exec step empty
    [.stage (sampleEvent 1 5), .stage (sampleEvent 2 4), .select 1, .select 1, .publish 0 (.error "down"),
     .publish 1 (.ok ()), .commit 0, .abort 0]).get (by decide +kernel)

def relayDrain : List Label :=
  [.select 1, .select 1, .publish 1 (.ok ()), .publish 0 (.ok ()), .commit 1, .commit 0]

def relayDrained : Outbox := (exec step relayRun relayDrain).get (by decide +kernel)

theorem relay_at_least_once_after_crash : relayDrained.table.rows.all (·.publishedToMq) = true := by
  have h := ((relay_at_least_once _ relayRun (Option.some_get _).symm).2.1 relayDrain relayDrained
    (Option.some_get _).symm).2
  refine List.all_eq_true.mpr (h ?_ ?_ (by decide +kernel) (by decide +kernel))
  · rw [Clean, show relayRun.passes = [] by decide +kernel]
    simp
  · simp [relayDrain, FailureFree]

theorem empty_pass {w : Outbox} (h : w.passes = []) : exec step w [.select 0, .commit 0] = some w := by
  obtain ⟨table, passes, sent, inline⟩ := w
  subst h
  simp [exec, step, drainSelect, applyOutcomes, Pass.outcomes, drainBatch]

/-- Batches of size zero, which the settings let in, leave a row behind for ever. -/
theorem relay_batch_zero :
    ∃ w, exec step empty [.stage (sampleEvent 1 5)] = some w ∧
      ¬ ∃ n, ∀ w', exec step w (List.replicate n [.select 0, .commit 0]).flatten = some w' →
        w'.passes = [] → ∀ r ∈ w'.table.rows, r.publishedToMq = true := by
  refine ⟨(exec step empty [.stage (sampleEvent 1 5)]).get (by decide +kernel), (Option.some_get _).symm, ?_⟩
  generalize hw : (exec step empty [.stage (sampleEvent 1 5)]).get _ = w
  have hpasses : w.passes = [] := by rw [← hw]; decide +kernel
  have hsame : ∀ n, exec step w (List.replicate n [.select 0, .commit 0]).flatten = some w := by
    intro n
    induction n with
    | zero => rfl
    | succ n ih =>
      rw [List.replicate_succ, List.flatten_cons]
      exact (exec_append ..).mpr ⟨w, empty_pass hpasses, ih⟩
  rintro ⟨n, hn⟩
  have hall := List.all_eq_true.mpr (hn w (hsame n) hpasses)
  rw [← hw] at hall
  revert hall
  decide +kernel

end BssCli.Events.AtLeastOnce
