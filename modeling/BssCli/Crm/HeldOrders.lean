import BssCli.Crm.OpenWorld

/-!
# An open order holds its number

A new order is rolled back when its number cannot be held. An order that is resumed has its
window moved on in any case. The reply is read after the commit.
-/

namespace BssCli.Crm.OpenOrder

open Steps Versions

/-- The pool has the number of the order reserved for it, for as long as the order says. -/
def Backed (db : Db) (o : OpenOrderRow) : Prop :=
  ∃ m ∈ o.msisdn, ∃ u ∈ o.reservedUntil, ∃ r ∈ db.numbers.find m,
    r.status = .reserved ∧ r.reservedFor = some o.id ∧ r.reservedUntil = some u

instance (db : Db) (o : OpenOrderRow) : Decidable (Backed db o) :=
  inferInstanceAs (Decidable (∃ m ∈ _, ∃ u ∈ _, ∃ r ∈ _, _))

theorem Backed.unique {db : Db} {a b : OpenOrderRow} (ha : Backed db a) (hb : Backed db b)
    (h : a.msisdn = b.msisdn) : a.id = b.id := by
  obtain ⟨m, hm, -, -, r, hr, -, hfor, -⟩ := ha
  obtain ⟨m', hm', -, -, r', hr', -, hfor', -⟩ := hb
  rw [Option.mem_def] at hm hm' hr hr'
  rw [h, hm', Option.some.injEq] at hm
  subst hm
  obtain rfl : r = r' := Option.some.inj (hr.symm.trans hr')
  exact Option.some.inj (hfor.symm.trans hfor')

/-- The number and the order of a resumption. -/
def Task.resumes : Task → Option (String × String)
  | .refresh c existing => some (c.msisdn, existing)
  | _ => none

/-- The order of a create or a resumption that is to commit. -/
def Task.answers : Task → Option String
  | .done (some (id, _)) => some id
  | _ => none

def Task.replies : Task → Option String
  | .replying id _ => some id
  | _ => none

/-- A resumption can hold its number, and nobody else writes the number of an order before a
reply about it is read. -/
def HoldsOwn (w : World) : Label → Prop
  | .run i => ∀ f ∈ w.flights[i]?, ∀ q ∈ f.task.resumes, ∃ r ∈ f.number w.db q.1, r.Holdable q.2 f.now
  | .commit i => ∀ f ∈ w.flights[i]?, ∀ g ∈ w.flights.eraseIdx i, ∀ id ∈ g.task.replies,
      ∀ o ∈ w.db.orders.find id, ∀ m ∈ o.msisdn, (f.numbers.find m).isSome → f.task.answers = some id
  | _ => True

instance (w : World) : (l : Label) → Decidable (HoldsOwn w l)
  | .run _ => inferInstanceAs (Decidable (∀ f ∈ _, ∀ q ∈ _, ∃ r ∈ _, _))
  | .commit _ => inferInstanceAs (Decidable (∀ f ∈ _, ∀ g ∈ _, ∀ id ∈ _, ∀ o ∈ _, ∀ m ∈ _, _ → _))
  | .tick _ | .begin _ | .reply _ | .abort _ => inferInstanceAs (Decidable True)

/-! ## What a call has written -/

/-- The two rows are written together before a call may answer. -/
def Flight.Holds (f : Flight) : Prop :=
  match f.task with
  | .refresh c existing => ∃ o, f.orders.find existing = some o ∧ o.msisdn = some c.msisdn
  | .take c => ∃ o, f.orders.find c.id = some o ∧ o.msisdn = some c.msisdn ∧
      o.reservedUntil = some (f.holdUntil c.ttl)
  | .done (some (id, _)) => ∃ o m u r, f.orders.find id = some o ∧ o.msisdn = some m ∧ o.reservedUntil = some u ∧
      f.numbers.find m = some r ∧ r.status = .reserved ∧ r.reservedFor = some id ∧ r.reservedUntil = some u
  | _ => True

/-- No version of an order has another number, and only an answer has another window. -/
def SameHold (f : Flight) (stored : Option OpenOrderRow) (v : OpenOrderRow) : Prop :=
  ∀ o ∈ stored, v.msisdn = o.msisdn ∧ (v.reservedUntil = o.reservedUntil ∨ f.task.answers = some v.id)

section Moved

variable {db : Db} {clock : Time} {others : List Flight} {f f' : Flight}

theorem Moved.unanswered (h : Moved db clock others f f') : f.task.answers = none := by
  cases h with
  | released ht hn => rcases ht with ⟨ht, -⟩ | ⟨status, ht, -⟩ <;> simp [ht, Task.answers]
  | noted ht hw ho => rcases ht with ⟨step, ht⟩ | ⟨customerId, ht⟩ <;> simp [ht, Task.answers]
  | _ => simp [*, Task.answers]

theorem Moved.holds (h : Moved db clock others f f') (hf : f.Holds)
    (hc : ∀ q ∈ f.task.resumes, ∃ r ∈ f.number db q.1, r.Holdable q.2 f.now) : f'.Holds := by
  cases h with
  | released ht hn => rcases ht with ⟨-, rfl⟩ | ⟨status, -, rfl⟩ <;> trivial
  | found ht ho hfind hm => exact ⟨_, hfind, hm⟩
  | @refreshed c existing numbers orders ht hn ho =>
    simp only [Flight.Holds, ht] at hf
    obtain ⟨o, hfind, hm⟩ := hf
    obtain ⟨r, hr, hholdable⟩ := hc (c.msisdn, existing) (by simp [ht, Task.resumes])
    have hkey : r.msisdn = c.msisdn := by
      rcases Option.or_eq_some_iff.mp hr with hr | ⟨-, hr⟩ <;> exact (Table.find_some _ hr).2
    have horder := ho.meets (k := existing) (r := o) (by simp [hfind]) (Table.find_some _ hfind).2
    exact ⟨_, c.msisdn, _, _, horder, hm, rfl, hn.meets hr ⟨hkey, hholdable⟩, rfl, rfl, rfl⟩
  | @inserted c ht hfree hnew =>
    exact ⟨f.newOrder c, by simp [Table.find_put string_injective, Flight.newOrder], rfl, rfl⟩
  | @took c numbers ht hn hheld =>
    simp only [Flight.Holds, ht] at hf
    obtain ⟨o, hfind, hm, hu⟩ := hf
    obtain ⟨r, hr, hholdable⟩ := hheld
    have hkey : r.msisdn = c.msisdn := by
      rcases Option.or_eq_some_iff.mp hr with hr | ⟨-, hr⟩ <;> exact (Table.find_some _ hr).2
    exact ⟨o, c.msisdn, _, _, hfind, hm, hu, hn.meets hr ⟨hkey, hholdable⟩, rfl, rfl, rfl⟩
  | _ => trivial

theorem sameHold_wrote {p : OpenOrderRow → Prop} [DecidablePred p] {w : OpenOrderRow → OpenOrderRow}
    (ho : WroteOrders f db others p w f'.orders) (hnone : f.task.answers = none)
    (hf : ∀ k v, f.orders.find k = some v → SameHold f (db.orders.find k) v) (hm : ∀ o, (w o).msisdn = o.msisdn)
    (hu : ∀ o, p o → (w o).reservedUntil = o.reservedUntil ∨ f'.task.answers = some (w o).id) :
    ∀ k v, f'.orders.find k = some v → SameHold f' (db.orders.find k) v := by
  -- A version that this call had before has the number and the window of the stored row.
  have hown : ∀ k v, f.orders.find k = some v → ∀ o ∈ db.orders.find k,
      v.msisdn = o.msisdn ∧ v.reservedUntil = o.reservedUntil := by
    intro k v hv o hstored
    obtain ⟨hmsisdn, huntil⟩ := hf k v hv o hstored
    rw [hnone] at huntil
    exact ⟨hmsisdn, huntil.resolve_right (by simp)⟩
  intro k v hv o hstored
  rcases ho.cases hv with ⟨seen, hseen, hmet, rfl⟩ | hold
  · have hsame : seen.msisdn = o.msisdn ∧ seen.reservedUntil = o.reservedUntil := by
      rcases Option.or_eq_some_iff.mp hseen with hold | ⟨-, hdb⟩
      · exact hown k seen hold o hstored
      · obtain rfl : seen = o := Option.some.inj (hdb.symm.trans hstored)
        exact ⟨rfl, rfl⟩
    rw [hm, hsame.1, ← hsame.2]
    exact ⟨rfl, hu seen hmet⟩
  · obtain ⟨hmsisdn, huntil⟩ := hown k v hold o hstored
    exact ⟨hmsisdn, Or.inl huntil⟩

theorem sameHold_keep (heq : f'.orders = f.orders) (hnone : f.task.answers = none)
    (hf : ∀ k v, f.orders.find k = some v → SameHold f (db.orders.find k) v) :
    ∀ k v, f'.orders.find k = some v → SameHold f' (db.orders.find k) v := by
  intro k v hv o hstored
  rw [heq] at hv
  obtain ⟨hmsisdn, huntil⟩ := hf k v hv o hstored
  rw [hnone] at huntil
  exact ⟨hmsisdn, Or.inl (huntil.resolve_right (by simp))⟩

theorem Moved.sameHold (h : Moved db clock others f f')
    (hf : ∀ k v, f.orders.find k = some v → SameHold f (db.orders.find k) v) :
    ∀ k v, f'.orders.find k = some v → SameHold f' (db.orders.find k) v := by
  have hnone := h.unanswered
  cases h with
  | found ht ho _ _ | missed ht ho | listed ht _ ho | closed ht ho | completed ht ho | expired ht _ ho =>
    exact sameHold_wrote ho hnone hf (fun _ => rfl) fun _ _ => Or.inl rfl
  | noted ht hw ho => exact sameHold_wrote ho hnone hf (fun o => (hw o).1) fun o _ => Or.inl (hw o).2.1
  | refreshed ht hn ho =>
    exact sameHold_wrote ho hnone hf (fun _ => rfl) fun o hid => Or.inr (congrArg some hid.symm)
  | restarted ht =>
    intro k v hv
    cases hv
  | @inserted c ht hfree hnew =>
    intro k v hv o hstored
    simp only [Table.find_put string_injective] at hv
    split at hv
    · rename_i hid
      have hk : c.id = k := hid
      rw [← hk, hnew] at hstored
      cases hstored
    · have hkeep : ∀ k v, ({ f with task := .take c } : Flight).orders.find k = some v →
          SameHold { f with task := .take c } (db.orders.find k) v := sameHold_keep (f := f) rfl hnone hf
      exact hkeep k v hv o hstored
  | held _ _ | released _ _ | took _ _ _ | reserved _ _ _ | picked _ _ _ | swept _ =>
    exact sameHold_keep (f := f) rfl hnone hf

end Moved

/-! ## Commits and replies -/

theorem Flight.Holds.backed {f : Flight} {db : Db} {id : String} (h : f.Holds) (ha : f.task.answers = some id) :
    ∃ o ∈ (db.commit f).orders.find id, Backed (db.commit f) o := by
  obtain ⟨resumed, ht⟩ : ∃ resumed, f.task = .done (some (id, resumed)) := by
    unfold Task.answers at ha
    split at ha
    · rename_i ht
      cases ha
      exact ⟨_, ht⟩
    · cases ha
  simp only [Flight.Holds, ht] at h
  obtain ⟨o, m, u, r, ho, hm, hu, hr, hrow⟩ := h
  refine ⟨o, ?_, m, hm, u, hu, r, ?_, ?_⟩
  · simp [Db.commit, Table.find_overlay string_injective, ho]
  · simp [Db.commit, Table.find_overlay string_injective, hr]
  · rw [(Table.find_some _ ho).2]
    exact hrow

theorem commit_backed {f : Flight} {db : Db} {id : String} {o : OpenOrderRow} (ho : db.orders.find id = some o)
    (hb : Backed db o) (hf : ∀ k v, f.orders.find k = some v → SameHold f (db.orders.find k) v)
    (ha : f.task.answers ≠ some id) (hm : ∀ m ∈ o.msisdn, f.numbers.find m = none) :
    ∃ o ∈ (db.commit f).orders.find id, Backed (db.commit f) o := by
  obtain ⟨m, hmsisdn, u, hu, r, hr, hrow⟩ := hb
  have hnumber : (db.commit f).numbers.find m = some r := by
    simp only [Db.commit, Table.find_overlay string_injective, hm m hmsisdn]
    exact hr
  have hid := (Table.find_some _ ho).2
  cases hv : f.orders.find id with
  | none =>
    refine ⟨o, ?_, m, hmsisdn, u, hu, r, hnumber, hrow⟩
    simp only [Db.commit, Table.find_overlay string_injective, hv]
    exact ho
  | some v =>
    have hvid := (Table.find_some _ hv).2
    obtain ⟨hsame, huntil⟩ := hf id v hv o ho
    rw [hvid] at huntil
    refine ⟨v, ?_, m, hsame ▸ hmsisdn, u, huntil.resolve_right ha ▸ hu, r, hnumber, ?_⟩
    · simp [Db.commit, Table.find_overlay string_injective, hv]
    · rw [hvid, ← hid]
      exact hrow

structure BackInv (w : World) : Prop where
  locks : Locks w.flights
  holds : ∀ f ∈ w.flights, f.Holds
  versions : Justified Flight.orders SameHold w.db.orders w.flights
  replies : ∀ f ∈ w.flights, ∀ id ∈ f.task.replies, ∃ o ∈ w.db.orders.find id, Backed w.db o

section Step

variable {w w' : World} {l : Label}

theorem Call.start_task (c : Call) (now : Time) : (c.start now).Holds ∧ (c.start now).task.replies = none := by
  cases c <;> exact ⟨trivial, rfl⟩

theorem Moved.replies {db : Db} {clock : Time} {others : List Flight} {f f' : Flight}
    (h : Moved db clock others f f') : f'.task.replies = none := by
  cases h with
  | released ht hn => rcases ht with ⟨-, rfl⟩ | ⟨status, -, rfl⟩ <;> rfl
  | _ => rfl

theorem commit_replies (hi : BackInv w) {i : ℕ} {f : Flight} (hf : w.flights[i]? = some f)
    (hc : HoldsOwn w (.commit i)) : ∀ g ∈ w.flights.eraseIdx i, ∀ id ∈ g.task.replies,
      ∃ o ∈ (w.db.commit f).orders.find id, Backed (w.db.commit f) o := by
  intro g hg id hid
  have hmem := Pool.mem_of_getElem? hf
  obtain ⟨o, ho, hb⟩ := hi.replies g (List.mem_of_mem_eraseIdx hg) id hid
  by_cases ha : f.task.answers = some id
  · exact (hi.holds f hmem).backed ha
  · refine commit_backed ho hb (hi.versions f hmem) ha fun m hm => ?_
    by_contra hsome
    exact ha (hc f hf g hg id hid o ho m hm (Option.isSome_iff_ne_none.mpr hsome))

theorem stepped_backInv (hi : BackInv w) (hc : HoldsOwn w l) (hs : Stepped w l w') : BackInv w' := by
  have hlocks := hi.locks.step hs
  cases hs with
  | ticked d => exact ⟨hlocks, hi.holds, hi.versions, hi.replies⟩
  | began c =>
    obtain ⟨hholds, hreplies⟩ := c.start_task w.clock
    refine ⟨hlocks, Pool.forall_concat hi.holds hholds, Pool.forall_concat hi.versions ?_,
      Pool.forall_concat hi.replies (by simp [hreplies])⟩
    intro k v hv
    rw [(c.start_find w.clock).2 k] at hv
    cases hv
  | @moved i f f' hf hm =>
    have hmem := Pool.mem_of_getElem? hf
    exact ⟨hlocks, Pool.forall_set hi.holds (hm.holds (hi.holds f hmem) (hc f hf)),
      Pool.forall_set hi.versions (hm.sameHold (hi.versions f hmem)),
      Pool.forall_set hi.replies (by simp [hm.replies])⟩
  | ended hl =>
    exact ⟨hlocks, Pool.forall_eraseIdx hi.holds, Pool.forall_eraseIdx hi.versions, Pool.forall_eraseIdx hi.replies⟩
  | committed hf ht =>
    exact ⟨hlocks, Pool.forall_eraseIdx hi.holds, hi.versions.commit string_injective hi.locks.orders hf,
      commit_replies hi hf hc⟩
  | @answered i f id resumed hf ht =>
    have hmem := Pool.mem_of_getElem? hf
    refine ⟨hlocks, Pool.forall_set hi.holds trivial,
      Pool.forall_set_rest hf (hi.versions.commit string_injective hi.locks.orders hf) ?_,
      Pool.forall_set_rest hf (commit_replies hi hf hc) ?_⟩
    · intro k v hv
      cases hv
    · rintro _ ⟨⟩
      exact (hi.holds f hmem).backed (by simp [ht, Task.answers])

end Step

/-- **An open order holds its number** when a reply about it is read, in a run in which each
resumption can hold its number and no other call writes the number before the reply. -/
theorem open_order_holds (numbers : Numbers) (orders : OpenOrders) (clock : Time) (ls : List Label) (w : World)
    (h : exec (guarded HoldsOwn World.step) (World.initial numbers orders clock) ls = some w) :
    (∀ f ∈ w.flights, ∀ id resumed, f.task = .replying id resumed →
      ∃ o, replyOf w.db id resumed = .ok (openOrderJson o ++ [("resumed", .bool resumed)]) ∧ o.id = id ∧
        Backed w.db o) ∧
    ∀ a b, Backed w.db a → Backed w.db b → a.msisdn = b.msisdn → a.id = b.id := by
  have hinit : BackInv (World.initial numbers orders clock) :=
    ⟨⟨List.Pairwise.nil, List.Pairwise.nil⟩, by simp [World.initial], by simp [World.initial, Justified],
      by simp [World.initial]⟩
  have hi : BackInv w :=
    guarded_inv (P := BackInv) (fun s l s' hs hc hstep => stepped_backInv hs hc (step_eq_some hstep)) hinit h
  refine ⟨?_, fun a b => Backed.unique⟩
  intro f hf id resumed ht
  obtain ⟨o, ho, hb⟩ := hi.replies f hf id (by simp [ht, Task.replies])
  refine ⟨o, ?_, (Table.find_some _ ho).2, hb⟩
  simp only [replyOf, Option.mem_def.mp ho]

def createOf (id identity : String) : Call := .createOrResume ⟨id, identity, "PLAN", "90000001", 60⟩

def created (id identity : String) : List Label :=
  [.begin (createOf id identity), .run 0, .run 0, .run 0, .commit 0]

/-- A resumption runs two. -/
def resumed (id identity : String) : List Label := [.begin (createOf id identity), .run 0, .run 0, .commit 0]

/-- An order is created, and resumed before its hold has expired. -/
theorem open_order_holds_resumed :
    let w := (exec (guarded HoldsOwn World.step) (World.initial sampleNumbers .empty 0)
      (created "OO-A" "a@x" ++ [.reply 0, .tick 30000000] ++ resumed "OO-X" "a@x")).get (by decide)
    ∃ o, replyOf w.db "OO-A" true = .ok (openOrderJson o ++ [("resumed", .bool true)]) ∧ o.id = "OO-A" ∧
      Backed w.db o := by
  intro w
  exact (open_order_holds sampleNumbers .empty 0 _ w (Option.some_get _).symm).1 _ (List.mem_cons_self ..) _ _ rfl

/-- The hold expires, another order gets the number, and the first order is resumed all the same. -/
theorem resumed_without_number :
    ∃ w o, exec World.step (World.initial sampleNumbers .empty 0)
        (created "OO-A" "a@x" ++ [.reply 0, .tick 61000000] ++ created "OO-B" "b@x" ++ [.reply 0] ++
          resumed "OO-X" "a@x") = some w ∧
      w.flights.map Flight.task = [.replying "OO-A" true] ∧
      replyOf w.db "OO-A" true = .ok (openOrderJson o ++ [("resumed", .bool true)]) ∧
      o.status = "open" ∧ o.reservedUntil = some 121000000 ∧ ¬ Backed w.db o ∧
      ∃ b ∈ w.db.orders.find "OO-B", b.status = "open" ∧ b.msisdn = o.msisdn ∧ Backed w.db b :=
  ⟨_, _, rfl, rfl, rfl, rfl, rfl, by decide, _, rfl, rfl, rfl, by decide⟩

end BssCli.Crm.OpenOrder
