import BssCli.Lib.Steps
import BssCli.Payment.Methods

/-!
# The default card

A customer with an active card has one default among the active cards, and no other card is
a default. Registration keeps this. Retiring a card leaves its flag, and `set_default` only
refuses a removed card.
-/

namespace BssCli.Payment

open Steps

def PaymentDb.cardsOf (db : PaymentDb) (customerId : String) : List PaymentMethodRow :=
  db.methods.rows.filter fun r => r.customerId = customerId

/-- One of the active cards is the default, when there are any, and no other card is. -/
def OneDefault (cards : List PaymentMethodRow) : Prop :=
  ((∃ r ∈ cards, r.status = .active) →
    ∃ r ∈ cards, (r.status = .active ∧ r.isDefault) ∧
      ∀ r' ∈ cards, r'.status = .active ∧ r'.isDefault → r' = r) ∧
  ∀ r ∈ cards, r.isDefault → r.status = .active

instance (cards : List PaymentMethodRow) : Decidable (OneDefault cards) :=
  inferInstanceAs (Decidable ((_ → _) ∧ _))

def DefaultInv (db : PaymentDb) : Prop := ∀ customerId, OneDefault (db.cardsOf customerId)

/-! ## Retiring cards -/

def retire (p : PaymentMethodRow → Prop) [DecidablePred p] (status : MethodStatus)
    (r : PaymentMethodRow) : PaymentMethodRow :=
  if p r then r.setStatus status else r

section

variable {p : PaymentMethodRow → Prop} [DecidablePred p] {status : MethodStatus}

theorem retire_keeps (r : PaymentMethodRow) :
    (retire p status r).id = r.id ∧ (retire p status r).customerId = r.customerId ∧
      (retire p status r).isDefault = r.isDefault := by
  unfold retire
  split <;> exact ⟨rfl, rfl, rfl⟩

theorem retire_active {r : PaymentMethodRow} (hs : status ≠ .active)
    (h : (retire p status r).status = .active) : ¬ p r ∧ r.status = .active := by
  unfold retire at h
  split at h
  · exact absurd h hs
  · exact ⟨‹_›, h⟩

/-- Retiring keeps the invariant when no retired card is the default. -/
theorem retire_oneDefault {cards : List PaymentMethodRow} (hs : status ≠ .active)
    (hi : OneDefault cards) :
    OneDefault (cards.map (retire p status)) ↔ ∀ r ∈ cards, p r → r.isDefault = false := by
  obtain ⟨hone, honly⟩ := hi
  constructor
  · rintro ⟨-, honly'⟩ r hr hp
    by_contra hd
    have hactive := honly' _ (List.mem_map_of_mem hr) (by simpa [(retire_keeps r).2.2] using hd)
    exact (retire_active hs hactive).1 hp
  · intro h
    have hkept : ∀ r ∈ cards, r.isDefault → retire p status r = r := by
      intro r hr hd
      refine if_neg fun hp => ?_
      rw [h r hr hp] at hd
      cases hd
    refine ⟨?_, ?_⟩
    · rintro ⟨r', hr', hactive⟩
      obtain ⟨r, hr, rfl⟩ := List.mem_map.mp hr'
      obtain ⟨d, hd, ⟨hdactive, hdefault⟩, huniq⟩ := hone ⟨r, hr, (retire_active hs hactive).2⟩
      refine ⟨d, List.mem_map.mpr ⟨d, hd, hkept d hd hdefault⟩, ⟨hdactive, hdefault⟩, ?_⟩
      rintro s' hs' ⟨hsactive, hsdefault⟩
      obtain ⟨s, hs₀, rfl⟩ := List.mem_map.mp hs'
      rw [(retire_keeps s).2.2] at hsdefault
      rw [hkept s hs₀ hsdefault] at hsactive ⊢
      exact huniq s hs₀ ⟨hsactive, hsdefault⟩
    · intro r' hr' hd
      obtain ⟨r, hr, rfl⟩ := List.mem_map.mp hr'
      rw [(retire_keeps r).2.2] at hd
      rw [hkept r hr hd]
      exact honly r hr hd

end

/-! ## The rows after each operation -/

theorem cardsOf_map {db db' : PaymentDb} {f : PaymentMethodRow → PaymentMethodRow}
    (hf : ∀ r, (f r).customerId = r.customerId) (h : db'.methods.rows = db.methods.rows.map f)
    (c : String) : db'.cardsOf c = (db.cardsOf c).map f := by
  unfold PaymentDb.cardsOf
  rw [h, List.filter_map]
  congr 2
  funext r
  simp [hf]

theorem setMethodStatus_rows (pmId : String) (status : MethodStatus) (db : PaymentDb) :
    (db.setMethodStatus pmId status).methods.rows =
      db.methods.rows.map (retire (fun r => r.id = pmId) status) := rfl

theorem foldl_invalidate_rows (listed : List PaymentMethodRow) (db : PaymentDb) :
    (listed.foldl invalidate db).methods.rows =
      db.methods.rows.map (retire (fun r => r.id ∈ listed.map PaymentMethodRow.id) .expired) := by
  induction listed generalizing db with
  | nil => exact (List.map_id'' (fun r => if_neg List.not_mem_nil) _).symm
  | cons l ls ih =>
    rw [List.foldl_cons, ih, invalidate, PaymentDb.stage_methods, setMethodStatus_rows, List.map_map]
    refine List.map_congr_left fun r _ => ?_
    by_cases hl : r.id = l.id
    · simp [retire, hl, PaymentMethodRow.setStatus]
    · simp [retire, hl]

theorem mem_listActiveMockMethods {db : PaymentDb} {r : PaymentMethodRow} (hr : r ∈ db.methods.rows) :
    r.id ∈ db.listActiveMockMethods.map PaymentMethodRow.id ↔ r ∈ db.listActiveMockMethods := by
  constructor
  · intro h
    obtain ⟨s, hs, hid⟩ := List.mem_map.mp h
    have hfind := db.methods.find_of_mem (List.mem_of_mem_filter hs)
    rw [hid, db.methods.find_of_mem hr, Option.some.injEq] at hfind
    exact hfind ▸ hs
  · exact List.mem_map_of_mem

/-! ## One operation -/

/-- When an operation that is stored keeps the invariant: the cards it retires are no
default, and the new default is active. -/
def KeepsDefault (db : PaymentDb) : MethodOp → Prop
  | .register _ _ _ => True
  | .setDefault pmId txOk => txOk → ∀ pm ∈ db.methods.find pmId, pm.status ≠ .expired
  | .remove pmId txOk => txOk → ∀ pm ∈ db.methods.find pmId, pm.isDefault = false
  | .cutover dryRun txOk =>
    txOk → dryRun = false → ∀ r ∈ db.listActiveMockMethods, r.isDefault = false

instance (db : PaymentDb) : (op : MethodOp) → Decidable (KeepsDefault db op)
  | .register _ _ _ => inferInstanceAs (Decidable True)
  | .setDefault _ _ => inferInstanceAs (Decidable (_ → ∀ pm ∈ _, _))
  | .remove _ _ => inferInstanceAs (Decidable (_ → ∀ pm ∈ _, _))
  | .cutover _ _ => inferInstanceAs (Decidable (_ → _ → ∀ r ∈ _, _))

theorem retired_inv {db db' : PaymentDb} {p : PaymentMethodRow → Prop} [DecidablePred p]
    {status : MethodStatus} (hs : status ≠ .active) (hi : DefaultInv db)
    (h : db'.methods.rows = db.methods.rows.map (retire p status)) :
    DefaultInv db' ↔ ∀ r ∈ db.methods.rows, p r → r.isDefault = false := by
  have hcards := cardsOf_map (fun r => (retire_keeps r).2.1) h
  constructor
  · intro hinv r hr hp
    have hc := hinv r.customerId
    rw [hcards, retire_oneDefault hs (hi _)] at hc
    exact hc r (List.mem_filter.mpr ⟨hr, by simp⟩) hp
  · intro h c
    rw [hcards, retire_oneDefault hs (hi c)]
    exact fun r hr => h r (List.mem_of_mem_filter hr)

theorem oneDefault_append {cards : List PaymentMethodRow} {r : PaymentMethodRow} (hi : OneDefault cards)
    (hactive : r.status = .active) (hd : r.isDefault ↔ ∀ s ∈ cards, s.status ≠ .active) :
    OneDefault (cards ++ [r]) := by
  obtain ⟨hone, honly⟩ := hi
  refine ⟨fun _ => ?_, ?_⟩
  · by_cases hany : ∃ s ∈ cards, s.status = .active
    · obtain ⟨d, hd', hdd, huniq⟩ := hone hany
      refine ⟨d, by simp [hd'], hdd, ?_⟩
      rintro s hs ⟨hsa, hsd⟩
      rcases List.mem_append.mp hs with hs | hs
      · exact huniq s hs ⟨hsa, hsd⟩
      · rw [List.mem_singleton.mp hs] at hsd
        exact absurd hdd.1 (hd.mp hsd d hd')
    · have hnone : ∀ s ∈ cards, s.status ≠ .active := by simpa using hany
      refine ⟨r, by simp, ⟨hactive, hd.mpr hnone⟩, ?_⟩
      rintro s hs ⟨hsa, -⟩
      rcases List.mem_append.mp hs with hs | hs
      · exact absurd hsa (hnone s hs)
      · exact List.mem_singleton.mp hs
  · intro s hs hsd
    rcases List.mem_append.mp hs with hs | hs
    · exact honly s hs hsd
    · exact List.mem_singleton.mp hs ▸ hactive

theorem registerMethod_eq_ok {env : RegisterEnv} {body : PaymentMethodCreateRequest} {db db' : PaymentDb}
    (h : registerMethod env body db = .ok db') :
    ∃ card, db'.methods.rows =
      db.methods.rows ++ [newMethod env body card (db.countActiveMethods body.customerId = 0)] := by
  simp only [registerMethod, bind_eq_ok] at h
  obtain ⟨customer, -, -, -, h⟩ := h
  split at h
  · simp only [bind_eq_ok] at h
    obtain ⟨-, -, -, -, card, -, db₁, hins, h⟩ := h
    cases h
    unfold PaymentDb.insertMethod at hins
    split at hins
    · cases hins
      exact ⟨card, (Table.rows_insert ‹_›).1⟩
    · cases hins
  · simp only [bind_eq_ok] at h
    obtain ⟨-, -, card, -, db₁, hins, h⟩ := h
    cases h
    unfold PaymentDb.insertMethod at hins
    split at hins
    · cases hins
      exact ⟨card, (Table.rows_insert ‹_›).1⟩
    · cases hins

theorem countActiveMethods_eq_zero {db : PaymentDb} {c : String} :
    db.countActiveMethods c = 0 ↔ ∀ s ∈ db.cardsOf c, s.status ≠ .active := by
  simp [PaymentDb.countActiveMethods, PaymentDb.cardsOf, List.countP_eq_zero]

theorem registerMethod_inv {env : RegisterEnv} {body : PaymentMethodCreateRequest} {db db' : PaymentDb}
    (hi : DefaultInv db) (h : registerMethod env body db = .ok db') : DefaultInv db' := by
  obtain ⟨card, hrows⟩ := registerMethod_eq_ok h
  intro c
  unfold PaymentDb.cardsOf
  rw [hrows, List.filter_append]
  by_cases hc : body.customerId = c
  · rw [List.filter_cons_of_pos (by rw [newMethod]; exact decide_eq_true hc)]
    refine oneDefault_append (hi c) rfl ?_
    exact (decide_eq_true_iff).trans (hc ▸ countActiveMethods_eq_zero)
  · rw [List.filter_cons_of_neg (by rw [newMethod]; simpa using hc), List.filter_nil, List.append_nil]
    exact hi c

/-- All cards of the customer but `pmId` lose the flag. -/
theorem moveDefault_oneDefault {cards : List PaymentMethodRow} {c : String} {pm : PaymentMethodRow}
    (hpm : pm ∈ cards) (hcards : ∀ r ∈ cards, r.customerId = c ∧ (r.id = pm.id → r = pm)) :
    OneDefault (cards.map (·.moveDefault c pm.id)) ↔ pm.status = .active := by
  have hmoved : ∀ r ∈ cards, (r.moveDefault c pm.id).isDefault = true ↔ r = pm := by
    intro r hr
    obtain ⟨hc, hid⟩ := hcards r hr
    unfold PaymentMethodRow.moveDefault
    split
    · simp [PaymentMethodRow.setDefault, hid ‹_›]
    · have hne : r ≠ pm := fun he => by simp_all
      split
      · simpa [PaymentMethodRow.setDefault] using hne
      · simp_all
  constructor
  · rintro ⟨-, honly⟩
    have := honly _ (List.mem_map_of_mem hpm) ((hmoved pm hpm).mpr rfl)
    rwa [(moveDefault_keeps c pm.id pm).2.2] at this
  · intro hactive
    refine ⟨fun _ => ⟨_, List.mem_map_of_mem hpm, ⟨?_, (hmoved pm hpm).mpr rfl⟩, ?_⟩, ?_⟩
    · rwa [(moveDefault_keeps c pm.id pm).2.2]
    · rintro r' hr' ⟨-, hd⟩
      obtain ⟨r, hr, rfl⟩ := List.mem_map.mp hr'
      rw [(hmoved r hr).mp hd]
    · intro r' hr' hd
      obtain ⟨r, hr, rfl⟩ := List.mem_map.mp hr'
      rw [(moveDefault_keeps c pm.id r).2.2, (hmoved r hr).mp hd]
      exact hactive

theorem moveDefault_other {c pmId : String} {r : PaymentMethodRow} (hc : r.customerId ≠ c)
    (hid : r.id ≠ pmId) : r.moveDefault c pmId = r := by
  unfold PaymentMethodRow.moveDefault
  simp [hc, hid]

theorem eq_of_find {db : PaymentDb} {pmId : String} {r pm : PaymentMethodRow}
    (hfind : db.methods.find pmId = some pm) (hr : r ∈ db.methods.rows) (hid : r.id = pmId) : r = pm := by
  have h := db.methods.find_of_mem hr
  rw [hid, hfind, Option.some.injEq] at h
  exact h.symm

theorem setDefault_inv {db db' : PaymentDb} {pm : PaymentMethodRow} (hi : DefaultInv db)
    (hpm : db.methods.find pm.id = some pm)
    (h : db'.methods.rows = db.methods.rows.map (·.moveDefault pm.customerId pm.id)) :
    DefaultInv db' ↔ pm.status = .active := by
  have hcards := cardsOf_map (fun r => (moveDefault_keeps pm.customerId pm.id r).2.1) h
  have hown : OneDefault (db'.cardsOf pm.customerId) ↔ pm.status = .active := by
    rw [hcards]
    refine moveDefault_oneDefault (List.mem_filter.mpr ⟨(db.methods.find_some hpm).1, by simp⟩) ?_
    intro r hr
    obtain ⟨hr, hc⟩ := List.mem_filter.mp hr
    exact ⟨by simpa using hc, eq_of_find hpm hr⟩
  refine ⟨fun hinv => hown.mp (hinv _), fun hactive c => ?_⟩
  by_cases hc : c = pm.customerId
  · exact hc ▸ hown.mpr hactive
  · rw [hcards, List.map_congr_left (g := id), List.map_id]
    · exact hi c
    · intro r hr
      obtain ⟨hr, hrc⟩ := List.mem_filter.mp hr
      have hrc : r.customerId = c := by simpa using hrc
      refine moveDefault_other (hrc ▸ hc) fun hid => hc ?_
      rw [← hrc, eq_of_find hpm hr hid]

theorem getMethod_eq_ok {op pmId : String} {db : PaymentDb} {pm : PaymentMethodRow}
    (h : getMethod op pmId db = .ok pm) : db.methods.find pmId = some pm ∧ pm.id = pmId := by
  unfold getMethod at h
  split at h
  · rename_i hfind
    cases h
    exact ⟨hfind, (db.methods.find_some hfind).2⟩
  · cases h

theorem setDefaultMethod_inv {pmId : String} {db db' : PaymentDb} (hi : DefaultInv db)
    (h : setDefaultMethod pmId db = .ok db') :
    DefaultInv db' ↔ ∀ pm ∈ db.methods.find pmId, pm.status ≠ .expired := by
  simp only [setDefaultMethod, bind_eq_ok] at h
  obtain ⟨pm, hget, h⟩ := h
  obtain ⟨hfind, rfl⟩ := getMethod_eq_ok hget
  split at h
  · cases h
  · rename_i hremoved
    cases h
    rw [setDefault_inv hi hfind rfl, hfind]
    cases hs : pm.status <;> simp_all

theorem removeMethod_inv {pmId : String} {db db' : PaymentDb} (hi : DefaultInv db)
    (h : removeMethod pmId db = .ok db') :
    DefaultInv db' ↔ ∀ pm ∈ db.methods.find pmId, pm.isDefault = false := by
  simp only [removeMethod, bind_eq_ok] at h
  obtain ⟨pm, hget, h⟩ := h
  obtain ⟨hfind, rfl⟩ := getMethod_eq_ok hget
  split at h
  · cases h
  · cases h
    have hrows := setMethodStatus_rows pm.id .removed db
    rw [← PaymentDb.stage_methods "payment_method.removed" pm.id
      [("customer_id", .str pm.customerId), ("last4", .str pm.last4)]] at hrows
    rw [retired_inv (by decide) hi hrows, hfind]
    constructor
    · rintro hall _ ⟨⟩
      exact hall pm (db.methods.find_some hfind).1 rfl
    · intro hpm r hr hid
      rw [eq_of_find hfind hr hid]
      exact hpm pm rfl

theorem cutover_inv {dryRun : Bool} {db : PaymentDb} (hi : DefaultInv db) :
    DefaultInv (cutoverInvalidateMockTokens dryRun db).1 ↔
      (dryRun = false → ∀ r ∈ db.listActiveMockMethods, r.isDefault = false) := by
  unfold cutoverInvalidateMockTokens
  cases dryRun with
  | true => simpa using hi
  | false =>
    simp only [Bool.false_or, List.isEmpty_map, true_imp_iff]
    split
    · rename_i hnone
      have : db.listActiveMockMethods = [] := by simpa using hnone
      simpa [this] using hi
    · rw [retired_inv (by decide) hi (foldl_invalidate_rows _ db)]
      constructor
      · intro h r hr
        exact h r (List.mem_of_mem_filter hr) (List.mem_map_of_mem hr)
      · intro h r hr hlisted
        exact h r ((mem_listActiveMockMethods hr).mp hlisted)

/-- A refused operation and a failed transaction leave what is stored. -/
theorem inTx_inv {txOk : Bool} {db : PaymentDb} {body : Except ApiError PaymentDb} {C : Prop}
    (hi : DefaultInv db) (hok : ∀ db', body = .ok db' → (DefaultInv db' ↔ C))
    (hrefused : ∀ e, body = .error e → C) : DefaultInv (inTx txOk db body) ↔ (txOk → C) := by
  unfold inTx
  split
  · rename_i db'
    cases txOk with
    | true => simpa using hok db' rfl
    | false => simpa using hi
  · rename_i e
    exact ⟨fun _ _ => hrefused e rfl, fun _ => hi⟩

/-- An operation keeps the invariant exactly when it meets the condition. -/
theorem after_inv {db : PaymentDb} (hi : DefaultInv db) (op : MethodOp) :
    DefaultInv (db.after op) ↔ KeepsDefault db op := by
  cases op with
  | register env body txOk =>
    rw [PaymentDb.after, inTx_inv (C := True) hi]
    · simp [KeepsDefault]
    · intro db' h
      simpa using registerMethod_inv hi h
    · exact fun _ _ => trivial
  | setDefault pmId txOk =>
    refine inTx_inv hi (fun db' h => setDefaultMethod_inv hi h) ?_
    rintro e h pm hfind hexpired
    simp [setDefaultMethod, getMethod, Option.mem_def.mp hfind, bind, Except.bind, hexpired] at h
    cases h
  | remove pmId txOk =>
    refine inTx_inv hi (fun db' h => removeMethod_inv hi h) ?_
    rintro e h pm hfind
    by_contra hd
    obtain ⟨hmem, -⟩ := db.methods.find_some (Option.mem_def.mp hfind)
    have hactive := (hi pm.customerId).2 pm (List.mem_filter.mpr ⟨hmem, by simp⟩) (by simpa using hd)
    simp [removeMethod, getMethod, Option.mem_def.mp hfind, bind, Except.bind, hactive] at h
    cases h
  | cutover dryRun txOk =>
    refine inTx_inv hi (fun db' h => ?_) (fun _ h => by cases h)
    cases h
    exact cutover_inv hi

/-! ## Runs -/

/-- **One default card**: in a run in which no default card is retired and no expired card
is made the default, each customer with an active card has exactly one default among them.
An operation that is otherwise breaks it. -/
theorem one_default_card (ops : List MethodOp) (db : PaymentDb)
    (h : exec (guarded KeepsDefault PaymentDb.step) PaymentDb.empty ops = some db) :
    DefaultInv db ∧ ∀ op, DefaultInv (db.after op) ↔ KeepsDefault db op := by
  have hi : DefaultInv db := by
    refine guarded_inv (P := DefaultInv) ?_ ?_ h
    · rintro s op s' hs hc ⟨⟩
      exact (after_inv hs op).mpr hc
    · intro c
      exact ⟨by simp [PaymentDb.cardsOf, PaymentDb.empty, Table.empty],
        by simp [PaymentDb.cardsOf, PaymentDb.empty, Table.empty]⟩
  exact ⟨hi, after_inv hi⟩

def sampleTokenizer : Tokenizer :=
  ⟨fun c _ => .ok s!"cus_mock_{c}", fun _ _ => .ok (), fun _ => .error .notSupported⟩

def sampleRegister (seq : ℕ) (last4 : String) : MethodOp :=
  .register ⟨.ok ⟨some "active", none, none⟩, sampleTokenizer, 2026, 6, seq, seq⟩
    ⟨"CUST-1", "card", "mock", "tok", ⟨"visa", last4, 12, 2030⟩⟩ true

/-- A second card becomes the default before the first is removed. -/
theorem one_default_card_moved :
    let db := (exec (guarded KeepsDefault PaymentDb.step) PaymentDb.empty
      [sampleRegister 1 "4242", sampleRegister 2 "1111", .setDefault "PM-0002" true,
       .remove "PM-0001" true]).get (by decide +kernel)
    (db.cardsOf "CUST-1").map (fun r => (r.id, r.isDefault, r.status)) =
        [("PM-0001", false, .removed), ("PM-0002", true, .active)] ∧
      OneDefault (db.cardsOf "CUST-1") := by
  refine ⟨by decide +kernel, ?_⟩
  exact (one_default_card _ _ (Option.some_get _).symm).1 "CUST-1"

/-- The default card is removed. It keeps the flag, and the card that is left has none. -/
theorem default_card_removed :
    ∃ db, exec PaymentDb.step PaymentDb.empty
        [sampleRegister 1 "4242", sampleRegister 2 "1111", .remove "PM-0001" true] = some db ∧
      (db.cardsOf "CUST-1").map (fun r => (r.id, r.isDefault, r.status)) =
        [("PM-0001", true, .removed), ("PM-0002", false, .active)] ∧
      ¬ OneDefault (db.cardsOf "CUST-1") :=
  ⟨_, rfl, by decide +kernel, by decide +kernel⟩

end BssCli.Payment
