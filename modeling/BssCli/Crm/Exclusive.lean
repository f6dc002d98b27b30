import BssCli.Crm.OpenWorld

/-!
# A live hold is exclusive

A hold, a reservation by number and a release each look at who has the hold. A reservation
of a preferred number takes any hold there is.
-/

namespace BssCli.Crm.OpenOrder

open Steps Versions

/-- A soft hold that has not expired. -/
def Live (holder : String) (now : Time) (r : MsisdnRow) : Prop :=
  r.status = .reserved ∧ r.reservedFor = some holder ∧ ∃ t ∈ r.reservedUntil, now < t

instance (holder : String) (now : Time) (r : MsisdnRow) : Decidable (Live holder now r) :=
  inferInstanceAs (Decidable (_ ∧ _))

theorem Live.earlier {holder : String} {now now' : Time} {r : MsisdnRow} (h : Live holder now' r)
    (hle : now ≤ now') : Live holder now r := by
  obtain ⟨hstatus, hfor, t, ht, hlt⟩ := h
  exact ⟨hstatus, hfor, t, ht, lt_of_le_of_lt hle hlt⟩

theorem Live.holdable {holder other : String} {now clock : Time} {r : MsisdnRow} (h : Live holder clock r)
    (hnow : now ≤ clock) (hr : r.Holdable other now) : other = holder := by
  obtain ⟨hstatus, hfor, t, ht, hlt⟩ := h
  rcases hr with havailable | hother | ⟨-, t', ht', hexpired⟩
  · rw [hstatus] at havailable
    cases havailable
  · rw [hfor, Option.some.injEq] at hother
    exact hother.symm
  · obtain rfl : t = t' := Option.some.inj (ht.symm.trans ht')
    exact absurd (lt_of_lt_of_le hexpired hnow) (lt_asymm hlt)

theorem Live.holder_eq {holder other : String} {clock : Time} {r : MsisdnRow} (h : Live holder clock r)
    (hr : HeldFor other r) : holder = other := Option.some.inj (h.2.1.symm.trans hr.1)

def Task.preferred : Task → Option String
  | .reserveNext preference => preference
  | _ => none

/-- A number that a reservation asks for by preference is not held live for another flow. -/
def TakesOwn (w : World) : Label → Prop
  | .run i => ∀ f ∈ w.flights[i]?, ∀ m ∈ f.task.preferred, ∀ r ∈ w.db.numbers.find m, ∀ holder ∈ r.reservedFor,
      Live holder w.clock r → holder ∈ f.flows
  | _ => True

instance (w : World) : (l : Label) → Decidable (TakesOwn w l)
  | .run _ => inferInstanceAs (Decidable (∀ f ∈ _, ∀ m ∈ _, ∀ r ∈ _, ∀ holder ∈ _, _ → _))
  | .tick _ | .begin _ | .commit _ | .reply _ | .abort _ => inferInstanceAs (Decidable True)

/-! ## Whom a call works for -/

/-- The holders that the next statements name. -/
def Task.holders : Task → List String
  | .hold _ reservedFor _ | .releaseHold reservedFor => [reservedFor]
  | .refresh _ existing => [existing]
  | .take c => [c.id]
  | .cancel id _ => [id]
  | .expire ids => ids
  | _ => []

theorem Call.start_flows (c : Call) (now : Time) : (c.start now).task.holders ⊆ (c.start now).flows := by
  cases c <;> simp [Call.start, Flight.begin, Task.holders]

section Moved

variable {db : Db} {clock : Time} {others : List Flight} {f f' : Flight}

theorem Moved.flows (h : Moved db clock others f f') (hf : f.task.holders ⊆ f.flows) :
    f'.task.holders ⊆ f'.flows := by
  cases h with
  | released ht hn => rcases ht with ⟨-, rfl⟩ | ⟨status, -, rfl⟩ <;> simp [Task.holders]
  | expired ht hn ho =>
    rw [ht] at hf
    exact fun x hx => hf (List.mem_cons_of_mem _ hx)
  | _ => simp [Task.holders, Flight.begin]

theorem Moved.now (h : Moved db clock others f f') (hf : f.now ≤ clock) : f'.now ≤ clock := by
  cases h <;> first | exact hf | exact le_refl clock

/-- A version of a number beside the row that is stored. -/
def Respects (clock : Time) (f : Flight) (stored : Option MsisdnRow) (v : MsisdnRow) : Prop :=
  ∀ r ∈ stored, ∀ holder, Live holder clock r → holder ∈ f.flows ∨ v = r

/-- A statement that only meets live holds of the flows it works for. -/
theorem respects_wrote {p : MsisdnRow → Prop} [DecidablePred p] {w : MsisdnRow → MsisdnRow}
    (hn : WroteNumbers f db others p w f'.numbers)
    (hf : ∀ k v, f.numbers.find k = some v → Respects clock f (db.numbers.find k) v)
    (hflows : f.flows ⊆ f'.flows)
    (hp : ∀ k r, db.numbers.find k = some r → p r → ∀ holder, Live holder clock r → holder ∈ f'.flows) :
    ∀ k v, f'.numbers.find k = some v → Respects clock f' (db.numbers.find k) v := by
  intro k v hv r hr holder hlive
  rcases hn.cases hv with ⟨seen, hseen, hmet, -⟩ | hown
  · -- What was seen is the stored row, or a version of it that respects it.
    have hsame : holder ∈ f.flows ∨ seen = r := by
      rcases Option.or_eq_some_iff.mp hseen with hown | ⟨-, hstored⟩
      · exact hf k seen hown r hr holder hlive
      · exact Or.inr (Option.some.inj (hstored.symm.trans hr))
    rcases hsame with hmem | rfl
    · exact Or.inl (hflows hmem)
    · exact Or.inl (hp k seen hr hmet holder hlive)
  · rcases hf k v hown r hr holder hlive with hmem | heq
    · exact Or.inl (hflows hmem)
    · exact Or.inr heq

theorem respects_keep (heq : f'.numbers = f.numbers) (hflows : f.flows ⊆ f'.flows)
    (hf : ∀ k v, f.numbers.find k = some v → Respects clock f (db.numbers.find k) v) :
    ∀ k v, f'.numbers.find k = some v → Respects clock f' (db.numbers.find k) v := by
  intro k v hv r hr holder hlive
  rw [heq] at hv
  rcases hf k v hv r hr holder hlive with hmem | hsame
  · exact Or.inl (hflows hmem)
  · exact Or.inr hsame

theorem available_not_live {holder : String} {r : MsisdnRow} (h : r.status = .available) : ¬ Live holder clock r := by
  rintro ⟨hstatus, -⟩
  rw [h] at hstatus
  cases hstatus

/-- What a reservation picks: a free number, or the one that is preferred. -/
theorem pickMsisdn_cases {pool : Numbers} {locked : List String} {preference : Option String} {m : String}
    (h : pickMsisdn pool locked preference = some m) :
    preference = some m ∨ ∃ r, pool.find m = some r ∧ r.status = .available := by
  unfold pickMsisdn at h
  split at h
  · obtain ⟨-, h⟩ := Option.ite_none_right_eq_some.mp h
    exact Or.inl h
  · obtain ⟨r, hr, rfl⟩ := List.mem_map.mp (least_mem h)
    rw [List.mem_filter] at hr
    exact Or.inr ⟨r, pool.find_of_mem hr.1, (of_decide_eq_true hr.2).1⟩

theorem Moved.respects (h : Moved db clock others f f') (hnow : f.now ≤ clock) (hflows : f.task.holders ⊆ f.flows)
    (hf : ∀ k v, f.numbers.find k = some v → Respects clock f (db.numbers.find k) v)
    (hc : ∀ m ∈ f.task.preferred, ∀ r ∈ db.numbers.find m, ∀ holder ∈ r.reservedFor,
      Live holder clock r → holder ∈ f.flows) :
    ∀ k v, f'.numbers.find k = some v → Respects clock f' (db.numbers.find k) v := by
  cases h with
  | held ht hn | refreshed ht hn ho | took ht hn hheld =>
    refine respects_wrote hn hf (List.Subset.refl _) fun k r hr hp holder hlive => ?_
    rw [← hlive.holdable hnow hp.2]
    exact hflows (by simp [ht, Task.holders])
  | released ht hn =>
    refine respects_wrote hn hf (List.Subset.refl _) fun k r hr hp holder hlive => ?_
    rw [hlive.holder_eq hp]
    apply hflows
    rcases ht with ⟨ht, -⟩ | ⟨status, ht, -⟩ <;> simp [ht, Task.holders]
  | expired ht hn ho =>
    refine respects_wrote hn hf (List.Subset.refl _) fun k r hr hp holder hlive => ?_
    rw [hlive.holder_eq hp]
    exact hflows (by simp [ht, Task.holders])
  | reserved ht hfree hn =>
    refine respects_wrote hn hf (List.Subset.refl _) fun k r hr hp holder hlive => ?_
    obtain ⟨free, hfree, havailable⟩ := hfree
    have hkey := (Table.find_some _ hr).2
    rw [← hp, hkey, hr, Option.some.injEq] at hfree
    exact absurd hlive (available_not_live (hfree ▸ havailable))
  | picked ht hpick hn =>
    refine respects_wrote hn hf (List.Subset.refl _) fun k r hr hp holder hlive => ?_
    have hkey := (Table.find_some _ hr).2
    have hrow : db.numbers.find r.msisdn = some r := hkey ▸ hr
    rw [← hp] at hpick
    rcases pickMsisdn_cases hpick with rfl | ⟨free, hfree, havailable⟩
    · exact hc r.msisdn (by simp [ht, Task.preferred]) r hrow holder hlive.2.1 hlive
    · rw [hrow, Option.some.injEq] at hfree
      exact absurd hlive (available_not_live (hfree ▸ havailable))
  | restarted ht =>
    intro k v hv
    cases hv
  | found ht ho hfind hm => exact respects_keep (f := f) rfl (List.subset_cons_self ..) hf
  | inserted ht hfree hnew => exact respects_keep (f := f) rfl (List.subset_cons_self ..) hf
  | listed ht hids ho => exact respects_keep (f := f) rfl (List.subset_append_right ..) hf
  | missed ht ho | closed ht ho | completed ht ho | noted ht hw ho | swept ht =>
    exact respects_keep (f := f) rfl (List.Subset.refl _) hf

end Moved

/-! ## Runs -/

structure HoldInv (w : World) : Prop where
  locks : Locks w.flights
  clocks : ∀ f ∈ w.flights, f.now ≤ w.clock
  flows : ∀ f ∈ w.flights, f.task.holders ⊆ f.flows
  versions : Justified Flight.numbers (Respects w.clock) w.db.numbers w.flights

section Step

variable {w w' : World} {l : Label}

theorem Call.start_now (c : Call) (now : Time) : (c.start now).now = now := by
  cases c <;> rfl

theorem stepped_holdInv (hi : HoldInv w) (hc : TakesOwn w l) (hs : Stepped w l w') : HoldInv w' := by
  have hlocks := hi.locks.step hs
  cases hs with
  | ticked d =>
    refine ⟨hlocks, fun f hf => ?_, hi.flows, fun f hf k v hv r hr holder hlive => ?_⟩
    · exact (hi.clocks f hf).trans (by simp)
    · exact hi.versions f hf k v hv r hr holder (hlive.earlier (by simp))
  | began c =>
    refine ⟨hlocks, Pool.forall_concat hi.clocks (c.start_now w.clock).le,
      Pool.forall_concat hi.flows (c.start_flows w.clock), Pool.forall_concat hi.versions ?_⟩
    intro k v hv
    rw [(c.start_find w.clock).1 k] at hv
    cases hv
  | @moved i f f' hf hm =>
    have hmem := Pool.mem_of_getElem? hf
    have hnow := hi.clocks f hmem
    have hflows := hi.flows f hmem
    exact ⟨hlocks, Pool.forall_set hi.clocks (hm.now hnow), Pool.forall_set hi.flows (hm.flows hflows),
      Pool.forall_set hi.versions (hm.respects hnow hflows (hi.versions f hmem) (hc f hf))⟩
  | ended hl =>
    exact ⟨hlocks, Pool.forall_eraseIdx hi.clocks, Pool.forall_eraseIdx hi.flows, Pool.forall_eraseIdx hi.versions⟩
  | committed hf ht =>
    exact ⟨hlocks, Pool.forall_eraseIdx hi.clocks, Pool.forall_eraseIdx hi.flows,
      hi.versions.commit string_injective hi.locks.numbers hf⟩
  | @answered i f id resumed hf ht =>
    have hmem := Pool.mem_of_getElem? hf
    refine ⟨hlocks, Pool.forall_set hi.clocks (hi.clocks f hmem),
      Pool.forall_set hi.flows (by simp [Flight.begin, Task.holders]),
      Pool.forall_set_rest hf (hi.versions.commit string_injective hi.locks.numbers hf) ?_⟩
    intro k v hv
    cases hv

/-- A step that changes the row of a live hold is the commit of a call that works for its holder. -/
theorem stepped_live (hi : HoldInv w) (hs : Stepped w l w') {m holder : String} {r : MsisdnRow}
    (hr : w.db.numbers.find m = some r) (hlive : Live holder w.clock r) :
    w'.db.numbers.find m = some r ∨ ∃ i f, l = .commit i ∧ w.flights[i]? = some f ∧ holder ∈ f.flows := by
  have hcommit : ∀ i f, w.flights[i]? = some f → l = .commit i →
      (w.db.commit f).numbers.find m = some r ∨
        ∃ i f, l = .commit i ∧ w.flights[i]? = some f ∧ holder ∈ f.flows := by
    intro i f hf hl
    simp only [Db.commit, Table.find_overlay string_injective]
    cases hv : f.numbers.find m with
    | none => exact Or.inl hr
    | some v =>
      rcases hi.versions f (Pool.mem_of_getElem? hf) m v hv r hr holder hlive with hmem | rfl
      · exact Or.inr ⟨i, f, hl, hf, hmem⟩
      · exact Or.inl rfl
  cases hs with
  | ticked d => exact Or.inl hr
  | began c => exact Or.inl hr
  | moved hf hm => exact Or.inl hr
  | ended hl => exact Or.inl hr
  | committed hf ht => exact hcommit _ _ hf rfl
  | answered hf ht => exact hcommit _ _ hf rfl

end Step

/-- **A live hold is exclusive** in a run in which no reservation asks for a number that is
held for another flow. The row changes only when a call of the holder's flow commits. -/
theorem hold_exclusive (numbers : Numbers) (orders : OpenOrders) (clock : Time) (ls : List Label) (w : World)
    (h : exec (guarded TakesOwn World.step) (World.initial numbers orders clock) ls = some w) (l : Label) (w' : World)
    (hl : guarded TakesOwn World.step w l = some w') (m holder : String) (r : MsisdnRow)
    (hr : w.db.numbers.find m = some r) (hlive : Live holder w.clock r) :
    w'.db.numbers.find m = some r ∨ ∃ i f, l = .commit i ∧ w.flights[i]? = some f ∧ holder ∈ f.flows := by
  have hinit : HoldInv (World.initial numbers orders clock) :=
    ⟨⟨List.Pairwise.nil, List.Pairwise.nil⟩, by simp [World.initial], by simp [World.initial],
      by simp [World.initial, Justified]⟩
  have hi : HoldInv w :=
    guarded_inv (P := HoldInv) (fun s l s' hs hc hstep => stepped_holdInv hs hc (step_eq_some hstep)) hinit h
  exact stepped_live hi (step_eq_some (guarded_eq_some.mp hl).2) hr hlive

def heldRun : List Label := [.begin (.hold "90000001" "OO-A" 60), .run 0, .commit 0]

/-- A reservation for another flow takes the next number, and the hold stays. -/
theorem hold_exclusive_next :
    let w := (exec (guarded TakesOwn World.step) (World.initial sampleNumbers .empty 0)
      (heldRun ++ [.begin (.reserveNext none "OO-B"), .run 0])).get (by decide)
    let w' := (guarded TakesOwn World.step w (.commit 0)).get (by decide)
    w'.db.numbers.find "90000001" = w.db.numbers.find "90000001" ∧
      (w'.db.numbers.find "90000002").map MsisdnRow.status = some .reserved := by
  intro w w'
  refine ⟨?_, by decide⟩
  rcases hold_exclusive sampleNumbers .empty 0 _ w (Option.some_get _).symm (.commit 0) w' (Option.some_get _).symm
    "90000001" "OO-A" ⟨"90000001", .reserved, some 0, none, some 60000000, some "OO-A"⟩ (by decide) (by decide)
    with hsame | ⟨i, f, hl, hf, hmem⟩
  · exact hsame
  · cases hl
    cases hf
    exact absurd hmem (by decide)

/-- A reservation for another flow asks for the number that is held, and takes it. -/
theorem hold_taken_by_preference :
    ∃ w w' r f, exec World.step (World.initial sampleNumbers .empty 0)
        (heldRun ++ [.begin (.reserveNext (some "90000001") "OO-B"), .run 0]) = some w ∧
      w.db.numbers.find "90000001" = some r ∧ Live "OO-A" w.clock r ∧
      w.flights = [f] ∧ f.flows = ["OO-B"] ∧ World.step w (.commit 0) = some w' ∧
      w'.db.numbers.find "90000001" = some (r.hardReserve 0) :=
  ⟨_, _, _, _, rfl, rfl, by decide, rfl, rfl, rfl, rfl⟩

end BssCli.Crm.OpenOrder
