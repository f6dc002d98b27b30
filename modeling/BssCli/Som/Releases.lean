import BssCli.Som.Fulfilment

/-!
# Who has a resource

An attempt has what it has reserved, and its order after it. A handler that calls makes
the order leave the resource, and the order must then fail.
-/

namespace BssCli.Som

open Steps Crm Fulfilment

/-! ## What a commit does to the state of a CFS -/

variable {o o' : Orchestrator} {d d' : Decomposition} {p p' : Progress} {l : Report} {f : TaskCall} {i : ℕ}
  {r : Resource} {k : TaskKind} {ev : TaskEvent} {now : Time}

/-- A failed or activated order stays so, and a permanent failure is not survived. -/
theorem Progress.step_state (h : p.step l = some p') :
    (p.state = .failed → p'.state = .failed) ∧ (p.state = .activated → p'.state = .activated) ∧
      (l.kind = .failed → p'.state ≠ .failed → l.permanent = false) := by
  unfold Progress.step at h
  split at h
  · rename_i hk
    unfold Progress.complete at h
    split at h
    · cases h
      simp_all
    · rename_i hstate
      split at h
      · obtain ⟨hallowed, h⟩ := Option.ite_none_right_eq_some.mp h
        obtain ⟨order, -, rfl⟩ := Option.map_eq_some_iff.mp h
        refine ⟨fun hs => ?_, fun _ => rfl, fun hk' => ?_⟩
        · simp [hs, svcAllowed] at hallowed
        · simp [hk] at hk'
      · cases h
        refine ⟨fun hs => hs, fun hs => hs, fun hk' => ?_⟩
        simp [hk] at hk'
  · unfold Progress.fail at h
    split at h
    · obtain ⟨hallowed, h⟩ := Option.ite_none_right_eq_some.mp h
      obtain ⟨order, -, rfl⟩ := Option.map_eq_some_iff.mp h
      refine ⟨fun _ => rfl, fun hs => ?_, fun _ hne => absurd rfl hne⟩
      simp [hs, svcAllowed] at hallowed
    · rename_i hpermanent
      cases h
      exact ⟨fun hs => hs, fun hs => hs, fun _ _ => by simpa using hpermanent⟩
  · rename_i hk
    cases h
    refine ⟨fun hs => hs, fun hs => hs, fun hk' => ?_⟩
    simp [hk] at hk'

theorem cfsState_eq {db : SomDb} (hp : Shows db d p) : cfsState db d = some p.state := by
  obtain ⟨cfs, hcfs, -, hstate, -⟩ := hp.cfs
  rw [cfsState, hcfs, Option.map_some, hstate]

theorem mem_callsOf {found : Option ServiceRow} (h : r ∈ callsOf k ev found) :
    ∃ cfs, found = some cfs ∧ k = .failed ∧ ev.permanent = true ∧ .failed ∈ svcAllowed cfs.state ∧
      callsOf k ev found = releases cfs := by
  unfold callsOf at h ⊢
  cases k with
  | completed => simp at h
  | stuck => simp at h
  | failed =>
    cases found with
    | none => simp [failedReleases, Except.toOption] at h
    | some cfs =>
      unfold failedReleases at h ⊢
      by_cases hpermanent : ev.permanent = true
      · simp only [hpermanent, if_true] at h ⊢
        by_cases hallowed : .failed ∈ svcAllowed cfs.state
        · rw [checkServiceTransition_eq_ok.mpr hallowed] at h ⊢
          exact ⟨cfs, rfl, trivial, trivial, hallowed, rfl⟩
        · rw [checkServiceTransition, if_neg hallowed] at h
          simp [bind, Except.bind, Except.toOption] at h
      · simp [if_neg hpermanent, Except.toOption] at h

theorem callsOf_nodup (k : TaskKind) (ev : TaskEvent) (found : Option ServiceRow) : (callsOf k ev found).Nodup := by
  cases h : callsOf k ev found with
  | nil => exact List.nodup_nil
  | cons r rs =>
    have hmem : r ∈ callsOf k ev found := by simp [h]
    obtain ⟨cfs, -, -, -, -, heq⟩ := mem_callsOf hmem
    rw [← h, heq, releases]
    cases strField cfs.characteristics "msisdn" <;> cases strField cfs.characteristics "iccid" <;> simp

theorem releases_eq {cfs : ServiceRow} {db : SomDb} (hp : Shows db d p) (hcfs : db.services.find d.cfs = some cfs) :
    releases cfs = d.resources := by
  obtain ⟨row, hrow, -, -, -, hothers⟩ := hp.cfs
  obtain rfl : row = cfs := Option.some.inj (hrow.symm.trans hcfs)
  have hm := hothers "msisdn" (by decide)
  have hi := hothers "iccid" (by decide)
  simp only [characteristics, Fields.get_append, Fields.get_cons] at hm hi
  simp only [releases, strField, hm, hi]
  rfl

/-- What the commit of `f` leaves of the states. -/
theorem commit_state (hi : o.Inv) (hf : o.flights[i]? = some f) (h : o.stepCommit i f now = some o') (hd : d ∈ o.orders) :
    (cfsState o'.db d ≠ some .failed → cfsState o.db d ≠ some .failed) ∧
      (cfsState o'.db d ≠ some .activated → cfsState o.db d ≠ some .activated) ∧
      (f.ev.serviceId = d.cfs → cfsState o'.db d ≠ some .failed → callsOf f.kind f.ev f.found = []) := by
  obtain ⟨d', hd', hfor, -⟩ := hi.locked f (Pool.mem_of_getElem? hf)
  obtain ⟨q, hq⟩ := hi.shows d' hd'
  obtain ⟨q', hstep, hq', hframe⟩ := commit_moves hi hf hd' hfor hq h
  by_cases heq : d' = d
  · subst heq
    obtain ⟨hfailed, hactivated, hpermanent⟩ := Progress.step_state hstep
    rw [cfsState_eq hq, cfsState_eq hq']
    simp only [ne_eq, Option.some.injEq]
    refine ⟨mt hfailed, mt hactivated, fun _ hne => ?_⟩
    rw [List.eq_nil_iff_forall_not_mem]
    intro r hr
    obtain ⟨-, -, hk, hperm, -⟩ := mem_callsOf hr
    have hfalse : f.ev.permanent = false := hpermanent hk hne
    simp [hperm] at hfalse
  · obtain ⟨p, hp⟩ := hi.shows d hd
    have hp' := hp.frame hframe ((hi.apart d' hd' d hd).resolve_left heq)
    rw [cfsState_eq hp, cfsState_eq hp']
    exact ⟨id, id, fun hcfs => absurd (eq_of_cfs hi hd' hd (hfor.1.symm.trans hcfs)) heq⟩

/-! ## What holds in every state -/

/-- No handler of the order has asked to release `r`. -/
def Unasked (flights : List TaskCall) (d : Decomposition) (r : Resource) : Prop :=
  ∀ f ∈ flights, f.ev.serviceId = d.cfs → r ∈ callsOf f.kind f.ev f.found → r ∈ f.calls

structure Fulfilment.Inv (w : Fulfilment) : Prop where
  som : w.som.Inv
  calls : ∀ f ∈ w.som.flights, f.calls <:+ callsOf f.kind f.ev f.found
  parsed : ∀ a ∈ w.attempts, DecomposeRequest.ofBody a.body = .ok a.req
  ids : (w.attempts.map fun a => a.ids.cfsNo).Nodup
  attempts : ∀ a ∈ w.attempts, ∀ r ∈ a.held, w.holding r = .attempt a.owner ∧ w.inventory.Reserved r
  orders : ∀ d ∈ w.som.orders, cfsState w.som.db d ≠ some .failed → ∀ r ∈ d.resources, Unasked w.som.flights d r →
    w.holding r = .order d.owner ∧ w.inventory.Taken r ∧
      (cfsState w.som.db d ≠ some .activated → w.inventory.Reserved r)
  sent : ∀ c ∈ w.sent, w.holding c.resource = .leaving c.owner ∧ w.inventory.Reserved c.resource
  once : (w.sent.map ReleaseCall.resource).Nodup

variable {w w' : Fulfilment} {a b : Attempt} {c : ReleaseCall}

theorem idle_inv' (v : Inventory) : (idle v).Inv := by
  refine ⟨Som.idle_inv, ?_, ?_, ?_, ?_, ?_, ?_, ?_⟩ <;> simp [idle, Orchestrator.idle]

/-- The row of `r` is what it was, and so is who has it. -/
structure Kept (w w' : Fulfilment) (r : Resource) : Prop where
  holding : w'.holding r = w.holding r
  taken : w.inventory.Taken r → w'.inventory.Taken r
  reserved : w.inventory.Reserved r → w'.inventory.Reserved r

theorem put_ne {holdings : List (Resource × Holding)} {s : Option Resource} {h : Holding} (hne : s ≠ some r) :
    holdingOf (put holdings s h) r = holdingOf holdings r := by
  cases s with
  | none => rfl
  | some s =>
    have hne' : r ≠ s := fun heq => hne (congrArg some heq.symm)
    rw [holdingOf, put, Fields.get_insert_ne hne', holdingOf]

theorem put_self (holdings : List (Resource × Holding)) (h : Holding) : holdingOf (put holdings (some r) h) r = h := by
  rw [holdingOf, put, Fields.get_insert_self]
  rfl

theorem attempts_kept (hi : w.Inv) {as : List Attempt} (hk : ∀ a ∈ as, a ∈ w.attempts ∧ ∀ r ∈ a.held, Kept w w' r) :
    ∀ a ∈ as, ∀ r ∈ a.held, w'.holding r = .attempt a.owner ∧ w'.inventory.Reserved r := by
  intro a ha r hr
  obtain ⟨hmem, hkept⟩ := hk a ha
  obtain ⟨hholding, hreserved⟩ := hi.attempts a hmem r hr
  exact ⟨(hkept r hr).holding.trans hholding, (hkept r hr).reserved hreserved⟩

theorem orders_kept (hi : w.Inv) (hsom : w'.som = w.som)
    (hk : ∀ r o, w.holding r = .order o → w.inventory.Taken r → Kept w w' r) :
    ∀ d ∈ w'.som.orders, cfsState w'.som.db d ≠ some .failed → ∀ r ∈ d.resources, Unasked w'.som.flights d r →
      w'.holding r = .order d.owner ∧ w'.inventory.Taken r ∧
        (cfsState w'.som.db d ≠ some .activated → w'.inventory.Reserved r) := by
  rw [hsom]
  intro d hd hstate r hr hunasked
  obtain ⟨hholding, htaken, hreserved⟩ := hi.orders d hd hstate r hr hunasked
  have hkept := hk r d.owner hholding htaken
  exact ⟨hkept.holding.trans hholding, hkept.taken htaken, fun hs => hkept.reserved (hreserved hs)⟩

theorem sent_kept (hi : w.Inv) {cs : List ReleaseCall} (hk : ∀ c ∈ cs, c ∈ w.sent ∧ Kept w w' c.resource) :
    ∀ c ∈ cs, w'.holding c.resource = .leaving c.owner ∧ w'.inventory.Reserved c.resource := by
  intro c hc
  obtain ⟨hmem, hkept⟩ := hk c hc
  obtain ⟨hholding, hreserved⟩ := hi.sent c hmem
  exact ⟨hkept.holding.trans hholding, hkept.reserved hreserved⟩

theorem not_sent (hi : w.Inv) (hr : ∀ o, w.holding r ≠ .leaving o) : ∀ c ∈ w.sent, c.resource ≠ r := by
  rintro c hc rfl
  exact hr c.owner (hi.sent c hc).1

theorem once_concat (hi : w.Inv) {c : ReleaseCall} (hnew : ∀ b ∈ w.sent, b.resource ≠ c.resource) :
    ((w.sent ++ [c]).map ReleaseCall.resource).Nodup := by
  rw [List.map_append, List.map_singleton, List.nodup_append]
  refine ⟨hi.once, List.nodup_singleton _, fun x hx y hy hxy => ?_⟩
  obtain ⟨b, hb, rfl⟩ := List.mem_map.mp hx
  exact hnew b hb (hxy.trans (List.mem_singleton.mp hy))

theorem eq_of_owner (hi : w.Inv) {d' : Decomposition} (hd : d ∈ w.som.orders) (hd' : d' ∈ w.som.orders)
    (h : d.owner = d'.owner) : d = d' := by
  have hno : d.ids.cfsNo = d'.ids.cfsNo := congrArg Owner.cfsNo h
  exact eq_of_cfs hi.som hd hd' (congrArg serviceId hno)

/-! ## Decompositions -/

theorem start_inv {body : Object} {ids : DecomposeIds} (hi : w.Inv) (h : w.stepStart body ids = some w') : w'.Inv := by
  obtain ⟨req, hreq, h⟩ := Option.bind_eq_some_iff.mp h
  obtain ⟨hnew, h⟩ := Option.ite_none_right_eq_some.mp h
  cases h
  refine ⟨hi.som, hi.calls, Pool.forall_concat hi.parsed (toOption_eq_some.mp hreq), ?_,
    Pool.forall_concat hi.attempts (by simp [Attempt.held]), hi.orders, hi.sent, hi.once⟩
  rw [List.map_append, List.map_singleton, List.nodup_append]
  refine ⟨hi.ids, List.nodup_singleton _, fun x hx y hy hxy => ?_⟩
  obtain ⟨a, ha, rfl⟩ := List.mem_map.mp hx
  exact hnew a ha (hxy.trans (List.mem_singleton.mp hy))

theorem kept_of_new {v : Inventory} {r₀ : Resource} {h₀ : Holding} (hnew : ¬ w.inventory.Taken r₀)
    (hkeeps : w.inventory.Keeps v) (hv : w'.inventory = v) (hh : w'.holdings = put w.holdings (some r₀) h₀)
    (ht : w.inventory.Taken r) : Kept w w' r := by
  have hne : r₀ ≠ r := fun heq => hnew (heq ▸ ht)
  refine ⟨?_, fun ht => hv ▸ hkeeps.taken ht, fun hr => hv ▸ hkeeps.reserved hr⟩
  rw [Fulfilment.holding, hh, put_ne (by simpa using hne), Fulfilment.holding]

theorem reserveMsisdn_inv {locked : List String} {delivered : Bool} (hi : w.Inv) (ha : w.attempts[i]? = some a)
    (h : w.stepReserveMsisdn i a locked now delivered = some w') : w'.Inv := by
  unfold stepReserveMsisdn at h
  split at h
  · rename_i hphase
    obtain ⟨⟨numbers, reply⟩, hreply, rfl⟩ := Option.map_eq_some_iff.mp h
    obtain ⟨r₀, hr₀, hnew, hreserved, hkeeps⟩ := Inventory.reserveNext_new (toOption_eq_some.mp hreply)
    have hmem := Pool.mem_of_getElem? ha
    dsimp only
    rw [hr₀]
    have hkept : ∀ r, w.inventory.Taken r → Kept w { w with
        inventory := { w.inventory with numbers }
        holdings := put w.holdings (some r₀) (.attempt a.owner)
        attempts :=
          if delivered then w.attempts.set i { a with phase := .numbered reply } else w.attempts.eraseIdx i } r :=
      fun r ht => kept_of_new hnew hkeeps rfl rfl ht
    have hold : ∀ b ∈ w.attempts, ∀ r ∈ b.held, _ := fun b hb r hr =>
      hkept r (hi.attempts b hb r hr).2.taken
    refine ⟨hi.som, hi.calls, ?_, ?_, ?_, orders_kept hi rfl fun r _ _ ht => hkept r ht,
      sent_kept hi fun c hc => ⟨hc, hkept _ (hi.sent c hc).2.taken⟩, hi.once⟩
    · dsimp only
      split
      · exact Pool.forall_set hi.parsed (hi.parsed a hmem)
      · exact Pool.forall_eraseIdx hi.parsed
    · dsimp only
      split
      · rw [Pool.map_set ha (by rfl)]
        exact hi.ids
      · exact hi.ids.sublist ((List.eraseIdx_sublist ..).map _)
    · have hall := attempts_kept hi fun b hb => ⟨hb, hold b hb⟩
      dsimp only
      split
      · refine Pool.forall_set hall fun r hr => ?_
        simp only [Attempt.held, hr₀, Option.toList_some, List.mem_singleton] at hr
        rw [hr]
        exact ⟨put_self .., hreserved⟩
      · exact Pool.forall_eraseIdx hall
  · simp at h

theorem reserveEsim_inv {locked : List String} {delivered : Bool} (hi : w.Inv) (ha : w.attempts[i]? = some a)
    (h : w.stepReserveEsim i a locked now delivered = some w') : w'.Inv := by
  unfold stepReserveEsim at h
  split at h
  · rename_i m hphase
    obtain ⟨⟨profiles, reply⟩, hreply, rfl⟩ := Option.map_eq_some_iff.mp h
    obtain ⟨r₀, hr₀, hnew, hreserved, hkeeps⟩ := Inventory.reserveEsim_new (toOption_eq_some.mp hreply)
    have hmem := Pool.mem_of_getElem? ha
    dsimp only
    rw [hr₀]
    have hkept : ∀ r, w.inventory.Taken r → Kept w { w with
        inventory := { w.inventory with profiles }
        holdings := put w.holdings (some r₀) (.attempt a.owner)
        attempts := w.attempts.set i
          (if delivered then { a with phase := .ready m reply } else { a with phase := .refused m }) } r :=
      fun r ht => kept_of_new hnew hkeeps rfl rfl ht
    have hall := attempts_kept hi fun b hb => ⟨hb, fun r hr => hkept r (hi.attempts b hb r hr).2.taken⟩
    have hnumber : ∀ r ∈ (msisdnOf m).toList, r ∈ a.held := by simp [Attempt.held, hphase]
    refine ⟨hi.som, hi.calls, Pool.forall_set hi.parsed ?_, ?_, Pool.forall_set hall fun r hr => ?_,
      orders_kept hi rfl fun r _ _ ht => hkept r ht,
      sent_kept hi fun c hc => ⟨hc, hkept _ (hi.sent c hc).2.taken⟩, hi.once⟩
    · split <;> exact hi.parsed a hmem
    · rw [Pool.map_set ha (by split <;> rfl)]
      exact hi.ids
    · have howner : ∀ b : Bool, Attempt.owner (if b then { a with phase := .ready m reply }
          else { a with phase := .refused m }) = a.owner := by
        intro b
        cases b <;> rfl
      rw [howner]
      split at hr
      · rcases List.mem_append.mp hr with hr | hr
        · exact hall a hmem r (hnumber r hr)
        · simp only [hr₀, Option.toList_some, List.mem_singleton] at hr
          rw [hr]
          exact ⟨put_self .., hreserved⟩
      · exact hall a hmem r (hnumber r hr)
  · simp at h

theorem refuse_inv (hi : w.Inv) (ha : w.attempts[i]? = some a) (h : w.stepRefuse i a = some w') : w'.Inv := by
  unfold stepRefuse at h
  split at h
  · rename_i m hphase
    cases h
    have hmem := Pool.mem_of_getElem? ha
    refine ⟨hi.som, hi.calls, Pool.forall_set hi.parsed (hi.parsed a hmem), ?_, Pool.forall_set hi.attempts ?_,
      hi.orders, hi.sent, hi.once⟩
    · rw [Pool.map_set ha (by rfl)]
      exact hi.ids
    · intro r hr
      exact hi.attempts a hmem r (by rwa [Attempt.held, hphase])
  · simp at h

theorem giveUp_inv (hi : w.Inv) : Fulfilment.Inv { w with attempts := w.attempts.eraseIdx i } :=
  ⟨hi.som, hi.calls, Pool.forall_eraseIdx hi.parsed, hi.ids.sublist ((List.eraseIdx_sublist ..).map _),
    Pool.forall_eraseIdx hi.attempts, hi.orders, hi.sent, hi.once⟩

theorem other_owner (hi : w.Inv) (ha : w.attempts[i]? = some a) (hb : b ∈ w.attempts.eraseIdx i) :
    b.owner ≠ a.owner := by
  have hnodup := ((Pool.perm_eraseIdx ha).map fun a => a.ids.cfsNo).nodup_iff.mp hi.ids
  rw [List.map_cons, List.nodup_cons] at hnodup
  exact fun heq => hnodup.1 (List.mem_map.mpr ⟨b, hb, congrArg Owner.cfsNo heq⟩)

theorem giveBack_inv (hi : w.Inv) (ha : w.attempts[i]? = some a) (h : w.stepGiveBack i a = some w') : w'.Inv := by
  unfold stepGiveBack at h
  split at h
  · rename_i m hphase
    cases h
    have hmem := Pool.mem_of_getElem? ha
    cases hm : msisdnOf m with
    | none =>
      have := giveUp_inv (i := i) hi
      simpa [hm, put] using this
    | some r₀ =>
      obtain ⟨hholding, hreserved⟩ := hi.attempts a hmem r₀ (by simp [Attempt.held, hphase, hm])
      have hkept : ∀ r, w.holding r ≠ .attempt a.owner → Kept w { w with
          attempts := w.attempts.eraseIdx i
          sent := w.sent ++ ((some r₀).map fun r => (⟨a.owner, r, false⟩ : ReleaseCall)).toList
          holdings := put w.holdings (some r₀) (.leaving a.owner) } r := by
        intro r hne
        have hne' : some r₀ ≠ some r := fun heq => hne (Option.some.inj heq ▸ hholding)
        exact ⟨put_ne hne', id, id⟩
      refine ⟨hi.som, hi.calls, Pool.forall_eraseIdx hi.parsed, hi.ids.sublist ((List.eraseIdx_sublist ..).map _),
        attempts_kept hi fun b hb => ⟨List.mem_of_mem_eraseIdx hb, fun r hr => hkept r ?_⟩,
        orders_kept hi rfl fun r o ho _ => hkept r (by simp [ho]), ?_,
        once_concat hi (not_sent hi fun o => by simp [hholding])⟩
      · rw [(hi.attempts b (List.mem_of_mem_eraseIdx hb) r hr).1]
        simpa using other_owner hi ha hb
      · refine Pool.forall_concat (sent_kept hi fun c hc => ⟨hc, hkept _ ?_⟩) ⟨put_self .., hreserved⟩
        simp [(hi.sent c hc).1]
  · simp at h

/-- The decomposition that is committed has what its attempt has reserved. -/
theorem decompose_resources {m e : Object} {r : Reserved} (h : Reserved.ofReplies m e = .ok r) :
    msisdnOf m = some (.msisdn r.msisdn) ∧ esimOf e = some (.esim r.iccid) := by
  unfold Reserved.ofReplies at h
  split at h
  · rename_i msisdn hm
    split at h
    · rename_i iccid he
      cases h
      exact ⟨by rw [msisdnOf, hm]; rfl, by rw [esimOf, he]; rfl⟩
    · simp at h
  · simp at h

theorem stepDecompose_inv (hi : w.Inv) (ha : w.attempts[i]? = some a) (h : w.stepDecompose i a now = some w') :
    w'.Inv := by
  unfold stepDecompose at h
  split at h
  · rename_i m e hphase
    obtain ⟨o, ho, rfl⟩ := Option.map_eq_some_iff.mp h
    have ho := toOption_eq_some.mp ho
    obtain ⟨d, horders, hflights, -, hapart, hstart, hframe, hreq, hids, hreserved⟩ := decompose_adds hi.som ho
    obtain ⟨hm, he⟩ := decompose_resources hreserved
    have hmem := Pool.mem_of_getElem? ha
    have howner : d.owner = a.owner := by
      have hreq' : d.req = a.req := by
        rw [hi.parsed a hmem] at hreq
        exact (Except.ok.inj hreq).symm
      rw [Decomposition.owner, Attempt.owner, hreq', hids]
    have hheld : a.held = d.resources := by simp [Attempt.held, hphase, hm, he, Decomposition.resources]
    have hnew := hi.attempts a hmem
    rw [hheld] at hnew
    have hkept : ∀ r, w.holding r ≠ .attempt a.owner → Kept w { w with
        som := o
        attempts := w.attempts.eraseIdx i
        holdings := put (put w.holdings (msisdnOf m) (.order a.owner)) (esimOf e) (.order a.owner) } r := by
      intro r hne
      have hnumber := (hnew (.msisdn d.reserved.msisdn) (by simp [Decomposition.resources])).1
      have hprofile := (hnew (.esim d.reserved.iccid) (by simp [Decomposition.resources])).1
      have hnumber_ne : some (.msisdn d.reserved.msisdn) ≠ some r := fun heq => hne (Option.some.inj heq ▸ hnumber)
      have hprofile_ne : some (.esim d.reserved.iccid) ≠ some r := fun heq => hne (Option.some.inj heq ▸ hprofile)
      refine ⟨?_, id, id⟩
      rw [hm, he]
      exact (put_ne hprofile_ne).trans (put_ne hnumber_ne)
    refine ⟨Som.decompose_inv hi.som ho, hflights ▸ hi.calls, Pool.forall_eraseIdx hi.parsed,
      hi.ids.sublist ((List.eraseIdx_sublist ..).map _),
      attempts_kept hi fun b hb => ⟨List.mem_of_mem_eraseIdx hb, fun r hr => hkept r ?_⟩, ?_,
      sent_kept hi fun c hc => ⟨hc, hkept _ (by simp [(hi.sent c hc).1])⟩, hi.once⟩
    · rw [(hi.attempts b (List.mem_of_mem_eraseIdx hb) r hr).1]
      simpa using other_owner hi ha hb
    · dsimp only
      rw [horders, hflights]
      refine Pool.forall_concat (fun d' hd' hstate r hr hunasked => ?_) fun _ r hr _ => ?_
      · obtain ⟨q, hq⟩ := hi.som.shows d' hd'
        have hstates : cfsState o.db d' = cfsState w.som.db d' := by
          rw [cfsState_eq hq, cfsState_eq (hq.frame hframe (hapart d' hd'))]
        rw [hstates] at hstate ⊢
        obtain ⟨hholding, htaken, hres⟩ := hi.orders d' hd' hstate r hr hunasked
        have hk := hkept r (by simp [hholding])
        exact ⟨hk.holding.trans hholding, htaken, hres⟩
      · refine ⟨?_, (hnew r hr).2.taken, fun _ => (hnew r hr).2⟩
        rw [hm, he, howner]
        simp only [Decomposition.resources, List.mem_cons, List.not_mem_nil, or_false] at hr
        rcases hr with rfl | rfl
        · have hne : some (Resource.esim d.reserved.iccid) ≠ some (.msisdn d.reserved.msisdn) := by simp
          exact (put_ne hne).trans (put_self ..)
        · exact put_self ..
  · simp at h

/-! ## Handlers -/

theorem begin_inv' {body : Object} (hi : w.Inv) {o : Orchestrator} (h : w.som.step (.begin k body) = some o) :
    Fulfilment.Inv { w with som := o } := by
  have hinv := Orchestrator.step_inv hi.som h
  obtain ⟨ev, -, h⟩ := Option.bind_eq_some_iff.mp h
  obtain ⟨-, h⟩ := Option.ite_none_right_eq_some.mp h
  cases h
  refine ⟨hinv, Pool.forall_concat hi.calls (List.suffix_refl _), hi.parsed, hi.ids, hi.attempts,
    fun d hd hstate r hr hunasked => ?_, hi.sent, hi.once⟩
  exact hi.orders d hd hstate r hr fun f hf => hunasked f (List.mem_append_left _ hf)

theorem unasked_of_rest (hf : o.flights[i]? = some f) {fs : List TaskCall}
    (hfs : ∀ g ∈ o.flights.eraseIdx i, g ∈ fs)
    (hasked : f.ev.serviceId = d.cfs → r ∈ callsOf f.kind f.ev f.found → r ∈ f.calls)
    (h : Unasked fs d r) : Unasked o.flights d r := by
  intro g hg
  rcases List.mem_cons.mp ((Pool.perm_eraseIdx hf).mem_iff.mp hg) with rfl | hg
  · exact hasked
  · exact h g (hfs g hg)

theorem commit_inv' (hi : w.Inv) (hf : w.som.flights[i]? = some f) (h : w.som.stepCommit i f now = some o) :
    Fulfilment.Inv { w with som := o } := by
  obtain ⟨horders, hflights, -⟩ := commit_log h
  refine ⟨Som.commit_inv hi.som hf h, ?_, hi.parsed, hi.ids, hi.attempts, fun d hd hstate r hr hunasked => ?_,
    hi.sent, hi.once⟩
  · rw [hflights]
    exact Pool.forall_eraseIdx hi.calls
  · rw [horders] at hd
    rw [hflights] at hunasked
    obtain ⟨hfailed, hactivated, hcalls⟩ := commit_state hi.som hf h hd
    have hasked : f.ev.serviceId = d.cfs → r ∈ callsOf f.kind f.ev f.found → r ∈ f.calls := by
      intro hcfs hmem
      rw [hcalls hcfs hstate] at hmem
      simp at hmem
    obtain ⟨hholding, htaken, hreserved⟩ := hi.orders d hd (hfailed hstate) r hr
      (unasked_of_rest hf (fun g hg => hg) hasked hunasked)
    exact ⟨hholding, htaken, fun hs => hreserved (hactivated hs)⟩

theorem abandon_inv' (hi : w.Inv) (hf : w.som.flights[i]? = some f) (hcalls : f.calls = callsOf f.kind f.ev f.found) :
    Fulfilment.Inv { w with som := { w.som with flights := w.som.flights.eraseIdx i } } := by
  refine ⟨Som.abandon_inv hi.som, Pool.forall_eraseIdx hi.calls, hi.parsed, hi.ids, hi.attempts,
    fun d hd hstate r hr hunasked => ?_, hi.sent, hi.once⟩
  exact hi.orders d hd hstate r hr
    (unasked_of_rest hf (fun g hg => hg) (fun _ hmem => hcalls ▸ hmem) hunasked)

theorem call_hits (hi : w.Inv) (hf : w.som.flights[i]? = some f) (hr : r ∈ f.calls) (hd : d ∈ w.som.orders)
    (hcfs : d.cfs = f.ev.serviceId) : w.holding r = .order d.owner ∧ w.inventory.Reserved r ∧ r ∈ d.resources := by
  have hmem := Pool.mem_of_getElem? hf
  obtain ⟨d', hd', hfor, hfound⟩ := hi.som.locked f hmem
  obtain rfl := eq_of_cfs hi.som hd hd' (hcfs.trans hfor.1)
  obtain ⟨p, hp⟩ := hi.som.shows d hd
  obtain ⟨cfs, hcfs', hstate⟩ : ∃ cfs, w.som.db.services.find d.cfs = some cfs ∧ cfs.state = p.state := by
    obtain ⟨cfs, hcfs', -, hstate, -⟩ := hp.cfs
    exact ⟨cfs, hcfs', hstate⟩
  obtain ⟨cfs', hsome, -, -, hallowed, hcallsOf⟩ := mem_callsOf ((hi.calls f hmem).mem hr)
  obtain rfl : cfs' = cfs := Option.some.inj (hsome.symm.trans (hfound.trans hcfs'))
  have hfailed : cfsState w.som.db d ≠ some .failed := by
    rw [cfsState_eq hp, ← hstate]
    intro heq
    simp [Option.some.inj heq, svcAllowed] at hallowed
  have hactivated : cfsState w.som.db d ≠ some .activated := by
    rw [cfsState_eq hp, ← hstate]
    intro heq
    simp [Option.some.inj heq, svcAllowed] at hallowed
  have hres : r ∈ d.resources := by
    rw [← releases_eq hp hcfs', ← hcallsOf]
    exact (hi.calls f hmem).mem hr
  have hunasked : Unasked w.som.flights d r := by
    intro g hg hgcfs _
    have heq : g = f := List.inj_on_of_nodup_map hi.som.single hg hmem (hgcfs.trans hcfs)
    exact heq ▸ hr
  obtain ⟨hholding, -, hreserved⟩ := hi.orders d hd hfailed r hres hunasked
  exact ⟨hholding, hreserved hactivated, hres⟩

end BssCli.Som
