import BssCli.Events.Consumer
import Mathlib.Data.List.Nodup

/-!
# No message is lost, and no event takes effect twice

The inbox row is in the transaction of the handler, so an event commits once. The retries
are counted by the header. A message leaves the main queue into the retry queue, or acked:
handled, or with its copy in the parked queue.
-/

namespace BssCli.Events.Delivery

open Steps Queues

variable {c : Consumer} {w w' : Queues}

/-! ## Counting -/

theorem decideRetry_park {attempts maxRetries : ℕ} :
    decideRetry attempts maxRetries = .park ↔ maxRetries ≤ attempts := by
  unfold decideRetry
  split <;> simp_all

theorem decideRetry_retry {attempts maxRetries k : ℕ} (h : decideRetry attempts maxRetries = .retry k) :
    attempts < maxRetries := by
  unfold decideRetry at h
  split at h
  · simp at h
  · omega

/-- A message of the main queue has come back once for each failed attempt. -/
def Counted (c : Consumer) (m : Message) : Prop :=
  m.xDeath = cycled c.queueName m.failed ∧ m.failed ≤ c.maxRetries

theorem Counted.deathCount {m : Message} (h : Counted c m) : deathCount m.xDeath = m.failed := by
  rw [h.1, deathCount_cycled _ (Nat.lt_of_le_of_lt h.2 c.fits)]

/-- A message of the retry queue is on its next round. -/
def Waiting (c : Consumer) (m : Message) : Prop :=
  ∃ n < c.maxRetries, m.failed = n + 1 ∧
    m.xDeath = deadLetter c.queueName "rejected" (cycled c.queueName n)

theorem Waiting.expire {m : Message} (h : Waiting c m) :
    Counted c { m with xDeath := deadLetter (retryQueueName c.queueName) "expired" m.xDeath } := by
  obtain ⟨n, hn, hfailed, hx⟩ := h
  refine ⟨?_, ?_⟩
  · dsimp only
    rw [hx, deadLetter_cycled, hfailed]
  · show m.failed ≤ c.maxRetries
    omega

structure Inv (c : Consumer) (w : Queues) : Prop where
  counted : ∀ d ∈ w.main, Counted c d.message
  waiting : ∀ m ∈ w.retry, Waiting c m
  parked : ∀ m ∈ w.parked, m.failed = c.maxRetries
  inbox : w.effects = w.inbox
  once : ∀ u, w.effects.count u + w.main.countP (c.claims u) ≤ 1

section

variable {i : ℕ} {d : Delivery}

theorem counted_moved (hi : Inv c w) (hd : w.main[i]? = some d) (phase : Phase) :
    ∀ d' ∈ (w.moved i d phase).main, Counted c d'.message :=
  Pool.forall_set hi.counted (hi.counted d (Pool.mem_of_getElem? hd))

theorem claims_moved {phase : Phase} (hphase : phase ≠ .claimed) (hd : w.main[i]? = some d) (u : String) :
    (w.moved i d phase).main.countP (c.claims u) + (if c.claims u d then 1 else 0) =
      w.main.countP (c.claims u) := by
  have hcount := Pool.countP_set (c.claims u) hd { d with phase }
  simp only [Consumer.claims, hphase, false_and, decide_false, Bool.false_eq_true, if_false] at hcount ⊢
  exact hcount

theorem moved_inv {phase : Phase} (hphase : phase ≠ .claimed) (hi : Inv c w) (hd : w.main[i]? = some d) :
    Inv c (w.moved i d phase) := by
  refine ⟨counted_moved hi hd phase, hi.waiting, hi.parked, hi.inbox, fun u => ?_⟩
  have hcount := claims_moved (c := c) hphase hd u
  have honce := hi.once u
  dsimp only [moved] at hcount ⊢
  omega

theorem erase_inv (hi : Inv c w) (hd : w.main[i]? = some d) :
    Inv c { w with main := w.main.eraseIdx i } := by
  refine ⟨Pool.forall_eraseIdx hi.counted, hi.waiting, hi.parked, hi.inbox, fun u => ?_⟩
  have hcount := Pool.countP_eraseIdx (c.claims u) hd
  have honce := hi.once u
  dsimp only
  omega

theorem claims_received (hphase : d.phase = .received) (hd : w.main[i]? = some d) (u : String) :
    (w.moved i d .claimed).main.countP (c.claims u) =
      w.main.countP (c.claims u) + if c.eventId d.message = some u then 1 else 0 := by
  have hcount := Pool.countP_set (c.claims u) hd { d with phase := .claimed }
  simpa [Consumer.claims, hphase, moved] using hcount

theorem claim_inv (hi : Inv c w) (hd : w.main[i]? = some d) (hphase : d.phase = .received)
    (h : stepClaim c w i d = some w') : Inv c w' := by
  unfold stepClaim at h
  split at h
  · rename_i hid
    cases h
    refine ⟨counted_moved hi hd _, hi.waiting, hi.parked, hi.inbox, fun u => ?_⟩
    rw [claims_received hphase hd, hid]
    simpa using hi.once u
  · rename_i v hid
    split at h
    · cases h
      have := @moved_inv c w i d .handled (by simp) hi hd
      exact ⟨this.counted, this.waiting, this.parked, this.inbox, this.once⟩
    · rename_i hfresh
      split at h
      · simp at h
      · rename_i hfree
        cases h
        refine ⟨counted_moved hi hd _, hi.waiting, hi.parked, hi.inbox, fun u => ?_⟩
        rw [claims_received hphase hd, hid]
        by_cases hu : v = u
        · -- Nobody else holds the event, committed or not.
          subst hu
          have hzero : w.main.countP (c.claims v) = 0 := by
            rw [List.countP_eq_zero]
            simpa using hfree
          have hout : w.effects.count v = 0 := by
            rw [hi.inbox]
            exact List.count_eq_zero.mpr hfresh
          simp only [moved, hzero, hout, if_true]
          omega
        · simpa [hu] using hi.once u

theorem commit_inv (reported : Bool) (hi : Inv c w) (hd : w.main[i]? = some d) (hphase : d.phase = .claimed) :
    Inv c (stepCommit c w i d reported) := by
  have hne : (if reported then Phase.handled else .failed) ≠ .claimed := by cases reported <;> simp
  refine ⟨counted_moved hi hd _, hi.waiting, hi.parked, ?_, fun u => ?_⟩
  · simp [stepCommit, hi.inbox]
  · have hcount := claims_moved (c := c) hne hd u
    have honce := hi.once u
    have hadd : (c.eventId d.message).toList.count u = if c.claims u d then 1 else 0 := by
      simp only [Consumer.claims, hphase, true_and, decide_eq_true_eq]
      cases c.eventId d.message <;> simp [List.count_singleton]
    simp only [stepCommit, List.count_append, hadd]
    dsimp only [moved] at hcount ⊢
    omega

theorem nack_inv (hi : Inv c w) (hd : w.main[i]? = some d) (h : stepNack c w i d.message = some w') :
    Inv c w' := by
  unfold stepNack at h
  split at h
  · rename_i k hretry
    cases h
    have hc := hi.counted d (Pool.mem_of_getElem? hd)
    have hlt := decideRetry_retry hretry
    rw [hc.deathCount] at hlt
    have hi' := erase_inv hi hd
    refine ⟨hi'.counted, Pool.forall_concat hi.waiting ?_, hi.parked, hi.inbox, hi'.once⟩
    exact ⟨d.message.failed, hlt, rfl, by dsimp only; rw [hc.1]⟩
  · simp at h

theorem park_inv {kept : Bool} (hi : Inv c w) (hd : w.main[i]? = some d)
    (h : stepPark c w i d kept = some w') : Inv c w' := by
  unfold stepPark at h
  split at h
  · simp at h
  · rename_i hpark
    cases h
    have hc := hi.counted d (Pool.mem_of_getElem? hd)
    rw [decideRetry_park, hc.deathCount] at hpark
    have hi' := @moved_inv c w i d .parked (by simp) hi hd
    refine ⟨hi'.counted, hi'.waiting, ?_, hi'.inbox, hi'.once⟩
    cases kept with
    | false => simpa using hi.parked
    | true => exact Pool.forall_concat hi.parked (Nat.le_antisymm hc.2 hpark)

end

theorem step_inv {l : Label} (hi : Inv c w) (h : step c w l = some w') : Inv c w' := by
  cases l with
  | publish messageId json =>
    cases h
    refine ⟨Pool.forall_concat hi.counted ⟨rfl, Nat.zero_le _⟩, hi.waiting, hi.parked, hi.inbox, fun u => ?_⟩
    have := hi.once u
    simpa [List.countP_append, Consumer.claims] using this
  | redeliver i =>
    obtain ⟨d, hd, rfl⟩ := Option.map_eq_some_iff.mp h
    exact moved_inv (by simp) hi hd
  | expire j =>
    obtain ⟨m, hm, rfl⟩ := Option.map_eq_some_iff.mp h
    refine ⟨Pool.forall_concat hi.counted (hi.waiting m (Pool.mem_of_getElem? hm)).expire,
      Pool.forall_eraseIdx hi.waiting, hi.parked, hi.inbox, fun u => ?_⟩
    have := hi.once u
    simpa [List.countP_append, Consumer.claims] using this
  | deliver i =>
    obtain ⟨d, hd, h⟩ := Option.bind_eq_some_iff.mp h
    obtain ⟨-, h⟩ := Option.ite_none_right_eq_some.mp h
    exact Option.some.inj h ▸ moved_inv (by simp) hi hd
  | badJson i =>
    obtain ⟨d, hd, h⟩ := Option.bind_eq_some_iff.mp h
    obtain ⟨-, h⟩ := Option.ite_none_right_eq_some.mp h
    exact Option.some.inj h ▸ erase_inv hi hd
  | claim i =>
    obtain ⟨d, hd, h⟩ := Option.bind_eq_some_iff.mp h
    obtain ⟨⟨hphase, -⟩, h⟩ := Option.ite_none_right_eq_some.mp h
    exact claim_inv hi hd hphase h
  | commit i reported =>
    obtain ⟨d, hd, h⟩ := Option.bind_eq_some_iff.mp h
    obtain ⟨hphase, h⟩ := Option.ite_none_right_eq_some.mp h
    exact Option.some.inj h ▸ commit_inv reported hi hd hphase
  | fail i =>
    obtain ⟨d, hd, h⟩ := Option.bind_eq_some_iff.mp h
    obtain ⟨-, h⟩ := Option.ite_none_right_eq_some.mp h
    exact Option.some.inj h ▸ moved_inv (by simp) hi hd
  | nack i =>
    obtain ⟨d, hd, h⟩ := Option.bind_eq_some_iff.mp h
    obtain ⟨-, h⟩ := Option.ite_none_right_eq_some.mp h
    exact nack_inv hi hd h
  | park i kept =>
    obtain ⟨d, hd, h⟩ := Option.bind_eq_some_iff.mp h
    obtain ⟨-, h⟩ := Option.ite_none_right_eq_some.mp h
    exact park_inv hi hd h
  | ack i =>
    obtain ⟨d, hd, h⟩ := Option.bind_eq_some_iff.mp h
    obtain ⟨-, h⟩ := Option.ite_none_right_eq_some.mp h
    exact Option.some.inj h ▸ erase_inv hi hd

/-! ## Kept -/

/-- Every body is JSON, and the broker keeps every parked copy. -/
def Kept : Label → Prop
  | .publish _ json => json = true
  | .park _ kept => kept = true
  | _ => True

/-- What the phases of a delivery promise. -/
def Settled (w : Queues) (d : Delivery) : Prop :=
  (d.phase = .handled → d.message.serial ∈ w.handled) ∧
    (d.phase = .parked → ∃ m ∈ w.parked, m.serial = d.message.serial)

structure Held (w : Queues) : Prop where
  mainJson : ∀ d ∈ w.main, d.message.json = true
  retryJson : ∀ m ∈ w.retry, m.json = true
  settled : ∀ d ∈ w.main, Settled w d
  safe : ∀ s < w.published, w.Safe s

section

variable {i : ℕ} {d : Delivery}

theorem exists_moved {s : ℕ} (hd : w.main[i]? = some d) (phase : Phase)
    (h : ∃ d' ∈ w.main, d'.message.serial = s) :
    ∃ d' ∈ w.main.set i { d with phase }, d'.message.serial = s :=
  Pool.exists_set h hd id

theorem safe_moved {s : ℕ} (hd : w.main[i]? = some d) (phase : Phase) (h : w.Safe s) :
    (w.moved i d phase).Safe s :=
  h.imp_right (Or.imp_left (exists_moved hd phase))

theorem settled_ready (w : Queues) {d : Delivery} (h : d.phase ≠ .handled) (h' : d.phase ≠ .parked) :
    Settled w d :=
  ⟨fun hp => absurd hp h, fun hp => absurd hp h'⟩

theorem moved_held {phase : Phase} (hh : Held w) (hd : w.main[i]? = some d)
    (h : Settled w { d with phase }) : Held (w.moved i d phase) := by
  refine ⟨Pool.forall_set hh.mainJson (hh.mainJson d (Pool.mem_of_getElem? hd)), hh.retryJson,
    Pool.forall_set hh.settled h, fun s hs => safe_moved hd phase (hh.safe s hs)⟩

theorem handled_held (hh : Held w) (serial : ℕ) : Held { w with handled := w.handled ++ [serial] } := by
  refine ⟨hh.mainJson, hh.retryJson, fun d hd => ?_, fun s hs => ?_⟩
  · exact (hh.settled d hd).imp_left fun h hp => List.mem_append_left _ (h hp)
  · exact (hh.safe s hs).imp_left (List.mem_append_left _)

theorem handled_moved {phase : Phase} (hphase : phase ≠ .parked) (hh : Held w) (hd : w.main[i]? = some d) :
    Held { w.moved i d phase with handled := w.handled ++ [d.message.serial] } := by
  refine moved_held (handled_held hh d.message.serial) hd ⟨fun _ => ?_, fun hp => absurd hp hphase⟩
  exact List.mem_append_right _ (List.mem_singleton.mpr rfl)

theorem ack_held (hh : Held w) (hd : w.main[i]? = some d) (hphase : d.phase = .handled ∨ d.phase = .parked) :
    Held { w with main := w.main.eraseIdx i } := by
  refine ⟨Pool.forall_eraseIdx hh.mainJson, hh.retryJson, Pool.forall_eraseIdx hh.settled, fun s hs => ?_⟩
  obtain ⟨hhandled, hparked⟩ := hh.settled d (Pool.mem_of_getElem? hd)
  rcases hh.safe s hs with h | ⟨d', hd', rfl⟩ | h | h
  · exact Or.inl h
  · rcases List.mem_cons.mp ((Pool.perm_eraseIdx hd).mem_iff.mp hd') with rfl | hrest
    · exact hphase.elim (fun hp => Or.inl (hhandled hp)) fun hp => Or.inr (Or.inr (Or.inr (hparked hp)))
    · exact Or.inr (Or.inl ⟨d', hrest, rfl⟩)
  · exact Or.inr (Or.inr (Or.inl h))
  · exact Or.inr (Or.inr (Or.inr h))

theorem claim_held (hh : Held w) (hd : w.main[i]? = some d) (h : stepClaim c w i d = some w') : Held w' := by
  have hclaimed : Held (w.moved i d .claimed) := moved_held hh hd (settled_ready w (by simp) (by simp))
  unfold stepClaim at h
  split at h
  · exact Option.some.inj h ▸ hclaimed
  · split at h
    · exact Option.some.inj h ▸ handled_moved (by simp) hh hd
    · split at h
      · simp at h
      · exact Option.some.inj h ▸ hclaimed

theorem commit_held (reported : Bool) (hh : Held w) (hd : w.main[i]? = some d) :
    Held (stepCommit c w i d reported) := by
  have hne : (if reported then Phase.handled else .failed) ≠ .parked := by cases reported <;> simp
  have := handled_moved hne hh hd
  exact ⟨this.mainJson, this.retryJson, this.settled, this.safe⟩

theorem nack_held (hh : Held w) (hd : w.main[i]? = some d) (h : stepNack c w i d.message = some w') :
    Held w' := by
  unfold stepNack at h
  split at h
  · cases h
    have hjson := hh.mainJson d (Pool.mem_of_getElem? hd)
    refine ⟨Pool.forall_eraseIdx hh.mainJson, Pool.forall_concat hh.retryJson hjson,
      Pool.forall_eraseIdx hh.settled, fun s hs => ?_⟩
    rcases hh.safe s hs with h | ⟨d', hd', rfl⟩ | ⟨m, hm, rfl⟩ | h
    · exact Or.inl h
    · rcases List.mem_cons.mp ((Pool.perm_eraseIdx hd).mem_iff.mp hd') with rfl | hrest
      · exact Or.inr (Or.inr (Or.inl ⟨_, List.mem_append_right _ (List.mem_singleton.mpr rfl), rfl⟩))
      · exact Or.inr (Or.inl ⟨d', hrest, rfl⟩)
    · exact Or.inr (Or.inr (Or.inl ⟨m, List.mem_append_left _ hm, rfl⟩))
    · exact Or.inr (Or.inr (Or.inr h))
  · simp at h

theorem park_held (hh : Held w) (hd : w.main[i]? = some d) (h : stepPark c w i d true = some w') :
    Held w' := by
  unfold stepPark at h
  split at h
  · simp at h
  · cases h
    have hparked : Held { w with parked := w.parked ++ [d.message] } := by
      refine ⟨hh.mainJson, hh.retryJson, fun d' hd' => ?_, fun s hs => ?_⟩
      · refine (hh.settled d' hd').imp_right fun h hp => ?_
        obtain ⟨m, hm, hserial⟩ := h hp
        exact ⟨m, List.mem_append_left _ hm, hserial⟩
      · refine (hh.safe s hs).imp_right (Or.imp_right (Or.imp_right ?_))
        rintro ⟨m, hm, hserial⟩
        exact ⟨m, List.mem_append_left _ hm, hserial⟩
    refine moved_held hparked hd ⟨fun hp => by simp at hp, fun _ => ⟨d.message, ?_, rfl⟩⟩
    exact List.mem_append_right _ (List.mem_singleton.mpr rfl)

theorem publish_held (hh : Held w) (messageId : Option String) :
    Held { w with main := w.main ++ [⟨⟨w.published, messageId, true, [], 0⟩, .ready⟩]
                  published := w.published + 1 } := by
  refine ⟨Pool.forall_concat hh.mainJson rfl, hh.retryJson,
    Pool.forall_concat hh.settled (settled_ready w (by simp) (by simp)), fun s hs => ?_⟩
  rcases Nat.lt_succ_iff_lt_or_eq.mp hs with hs | rfl
  · refine (hh.safe s hs).imp_right (Or.imp_left ?_)
    rintro ⟨d, hd, hserial⟩
    exact ⟨d, List.mem_append_left _ hd, hserial⟩
  · exact Or.inr (Or.inl ⟨_, List.mem_append_right _ (List.mem_singleton.mpr rfl), rfl⟩)

theorem expire_held {j : ℕ} {m : Message} (xs : List XDeath) (hh : Held w) (hm : w.retry[j]? = some m) :
    Held { w with retry := w.retry.eraseIdx j, main := w.main ++ [⟨{ m with xDeath := xs }, .ready⟩] } := by
  have hjson := hh.retryJson m (Pool.mem_of_getElem? hm)
  refine ⟨Pool.forall_concat hh.mainJson hjson, Pool.forall_eraseIdx hh.retryJson,
    Pool.forall_concat hh.settled (settled_ready w (by simp) (by simp)), fun s hs => ?_⟩
  rcases hh.safe s hs with h | ⟨d, hd, rfl⟩ | ⟨m', hm', rfl⟩ | h
  · exact Or.inl h
  · exact Or.inr (Or.inl ⟨d, List.mem_append_left _ hd, rfl⟩)
  · rcases List.mem_cons.mp ((Pool.perm_eraseIdx hm).mem_iff.mp hm') with rfl | hrest
    · exact Or.inr (Or.inl ⟨_, List.mem_append_right _ (List.mem_singleton.mpr rfl), rfl⟩)
    · exact Or.inr (Or.inr (Or.inl ⟨m', hrest, rfl⟩))
  · exact Or.inr (Or.inr (Or.inr h))

end

theorem step_held {l : Label} (hh : Held w) (hl : Kept l) (h : step c w l = some w') : Held w' := by
  cases l with
  | publish messageId json =>
    cases h
    rw [show json = true from hl]
    exact publish_held hh messageId
  | redeliver i =>
    obtain ⟨d, hd, rfl⟩ := Option.map_eq_some_iff.mp h
    exact moved_held hh hd (settled_ready w (by simp) (by simp))
  | expire j =>
    obtain ⟨m, hm, rfl⟩ := Option.map_eq_some_iff.mp h
    exact expire_held _ hh hm
  | deliver i =>
    obtain ⟨d, hd, h⟩ := Option.bind_eq_some_iff.mp h
    obtain ⟨-, h⟩ := Option.ite_none_right_eq_some.mp h
    exact Option.some.inj h ▸ moved_held hh hd (settled_ready w (by simp) (by simp))
  | badJson i =>
    obtain ⟨d, hd, h⟩ := Option.bind_eq_some_iff.mp h
    obtain ⟨⟨-, hjson⟩, -⟩ := Option.ite_none_right_eq_some.mp h
    simp [hh.mainJson d (Pool.mem_of_getElem? hd)] at hjson
  | claim i =>
    obtain ⟨d, hd, h⟩ := Option.bind_eq_some_iff.mp h
    obtain ⟨-, h⟩ := Option.ite_none_right_eq_some.mp h
    exact claim_held hh hd h
  | commit i reported =>
    obtain ⟨d, hd, h⟩ := Option.bind_eq_some_iff.mp h
    obtain ⟨-, h⟩ := Option.ite_none_right_eq_some.mp h
    exact Option.some.inj h ▸ commit_held reported hh hd
  | fail i =>
    obtain ⟨d, hd, h⟩ := Option.bind_eq_some_iff.mp h
    obtain ⟨-, h⟩ := Option.ite_none_right_eq_some.mp h
    exact Option.some.inj h ▸ moved_held hh hd (settled_ready w (by simp) (by simp))
  | nack i =>
    obtain ⟨d, hd, h⟩ := Option.bind_eq_some_iff.mp h
    obtain ⟨-, h⟩ := Option.ite_none_right_eq_some.mp h
    exact nack_held hh hd h
  | park i kept =>
    obtain ⟨d, hd, h⟩ := Option.bind_eq_some_iff.mp h
    obtain ⟨-, h⟩ := Option.ite_none_right_eq_some.mp h
    rw [show kept = true from hl] at h
    exact park_held hh hd h
  | ack i =>
    obtain ⟨d, hd, h⟩ := Option.bind_eq_some_iff.mp h
    obtain ⟨hphase, h⟩ := Option.ite_none_right_eq_some.mp h
    exact Option.some.inj h ▸ ack_held hh hd hphase

instance : ∀ l, Decidable (Kept l)
  | .publish _ json => inferInstanceAs (Decidable (json = true))
  | .park _ kept => inferInstanceAs (Decidable (kept = true))
  | .deliver _ | .badJson _ | .claim _ | .commit _ _ | .fail _ | .nack _ | .ack _ | .redeliver _
  | .expire _ => .isTrue trivial

/-- **No message is lost, its effects are committed once, and it is parked after the retries
are used up**, in every run in which the broker keeps the parked copies. -/
theorem delivery_safe (c : Consumer) (ls : List Label) (w : Queues)
    (h : exec (guarded (fun _ l => Kept l) (step c)) idle ls = some w) :
    (∀ s < w.published, w.Safe s) ∧ w.effects.Nodup ∧ ∀ m ∈ w.parked, m.failed = c.maxRetries := by
  have hidle : Inv c idle ∧ Held idle :=
    ⟨⟨by simp [idle], by simp [idle], by simp [idle], rfl, by simp [idle]⟩,
      ⟨by simp [idle], by simp [idle], by simp [idle], by simp [idle]⟩⟩
  have hstep : ∀ s l s', Inv c s ∧ Held s → Kept l → step c s l = some s' → Inv c s' ∧ Held s' :=
    fun s l s' hp hl hs => ⟨step_inv hp.1 hs, step_held hp.2 hl hs⟩
  obtain ⟨hi, hh⟩ := guarded_inv hstep hidle h
  refine ⟨hh.safe, List.nodup_iff_count_le_one.mpr fun u => ?_, hi.parked⟩
  have := hi.once u
  omega

def sampleConsumer (maxRetries : ℕ) (fits : maxRetries < 2 ^ 32) : Consumer :=
  ⟨"com.service_order.completed", maxRetries, fits, some⟩

/-- A crash after the commit, a duplicate, and a poison message that is parked. -/
theorem delivery_safe_parked :
    let w := (exec (guarded (fun _ l => Kept l) (step (sampleConsumer 1 (by decide)))) idle
      [.publish (some "EV-1") true, .deliver 0, .claim 0, .commit 0 true, .redeliver 0, .deliver 0, .claim 0,
       .ack 0, .publish (some "EV-2") true, .deliver 0, .claim 0, .fail 0, .nack 0, .expire 0, .deliver 0,
       .claim 0, .fail 0, .park 0 true, .ack 0]).get (by decide +kernel)
    (∀ s < w.published, w.Safe s) ∧ w.effects.Nodup ∧ ∀ m ∈ w.parked, m.failed = 1 :=
  delivery_safe (sampleConsumer 1 (by decide)) _ _ (Option.some_get _).symm

/-- The parked copy is not published, and the original is acked all the same. -/
theorem delivery_lost :
    ∃ w, exec (step (sampleConsumer 1 (by decide))) idle
        [.publish (some "EV-1") true, .deliver 0, .claim 0, .fail 0, .nack 0, .expire 0, .deliver 0, .claim 0,
         .fail 0, .park 0 false, .ack 0] = some w ∧
      0 < w.published ∧ ¬ w.Safe 0 := by
  decide +kernel

end BssCli.Events.Delivery
