import BssCli.Subscription.Fleet

/-!
# An order is charged for once

Any number of `create` calls at the same time. A call looks the order up, checks, charges
and inserts. The unique index stands behind the charge: it stops a second row, not a second
charge. So an order is charged once while its calls do not overlap from charge to commit,
and none that was charged is lost.
-/

namespace BssCli.Subscription.Activation

open Steps

/-! ## Calls under way -/

inductive CreatePhase
  | lookedUp
  | planned (p : CreatePlan)
  | charged (p : CreatePlan) (pay : PaymentResult)

structure CreateCall where
  req : SubscriptionCreateRequest
  phase : CreatePhase

/-- A charge the payment service has made, with the order it was for. -/
structure OrderCharge where
  order : Option String
  charge : Charge
  deriving DecidableEq

structure Activations where
  lines : Lines
  calls : List CreateCall
  charges : List OrderCharge

/-- `get_by_commercial_order` finds a row. -/
def hasOrder (lines : Lines) (order : String) : Bool :=
  lines.rows.any fun db => db.sub.commercialOrderId = some order

/-- The row has the other's value, and neither is terminated. -/
def clashes (a b : SubscriptionRow) : Bool :=
  a.state ≠ .terminated && b.state ≠ .terminated && (a.msisdn = b.msisdn || a.iccid = b.iccid)

/-- `INSERT` under the primary key and the three unique indexes. -/
def insertLine (lines : Lines) (db : SubDb) : Option Lines :=
  if (∃ order ∈ db.sub.commercialOrderId, hasOrder lines order) ∨
      lines.rows.any (fun other => clashes other.sub db.sub) then none
  else lines.insert db

namespace Activations

inductive Label
  | lookup (req : SubscriptionCreateRequest)
  | check (i : ℕ) (env : CreateEnv)
  | charge (i : ℕ) (pay : PaymentResult) (delivered : Bool)
  | commit (i : ℕ) (subId : String) (now : Time)
  | abandon (i : ℕ)
  | elsewhere (id : String) (f : Flight)

def stepLookup (w : Activations) (req : SubscriptionCreateRequest) : Activations :=
  if ∃ order ∈ req.commercialOrderId, hasOrder w.lines order then w
  else { w with calls := w.calls ++ [⟨req, .lookedUp⟩] }

def stepCheck (w : Activations) (i : ℕ) (c : CreateCall) (env : CreateEnv) : Option Activations :=
  match c.phase with
  | .lookedUp => (createPlan env c.req).toOption.map fun p =>
    { w with calls := w.calls.set i { c with phase := .planned p } }
  | _ => none

/-- The charge is made, and its reply may be lost. A declined call is over. -/
def stepCharge (w : Activations) (i : ℕ) (c : CreateCall) (pay : PaymentResult) (delivered : Bool) :
    Option Activations :=
  match c.phase with
  | .planned p => some { w with
      calls := if delivered ∧ pay.Approved then w.calls.set i { c with phase := .charged p pay }
        else w.calls.eraseIdx i
      charges := w.charges ++ [⟨c.req.commercialOrderId,
        ⟨p.request c.req, p.discountType.isSome && p.discountValue.isSome, pay.Approved⟩⟩] }
  | _ => none

def stepCommit (w : Activations) (i : ℕ) (c : CreateCall) (subId : String) (now : Time) :
    Option Activations :=
  match c.phase with
  | .charged p pay => (createCommit c.req p pay subId now).toOption.bind fun db =>
    (insertLine w.lines db).map fun lines => { w with lines, calls := w.calls.eraseIdx i }
  | _ => none

/-- A call may end anywhere: refused, with an error, rolled back or in a crash. The other
operations commit on the lines at any time. -/
def step (w : Activations) : Label → Option Activations
  | .lookup req => some (w.stepLookup req)
  | .check i env => w.calls[i]?.bind fun c => w.stepCheck i c env
  | .charge i pay delivered => w.calls[i]?.bind fun c => w.stepCharge i c pay delivered
  | .commit i subId now => w.calls[i]?.bind fun c => w.stepCommit i c subId now
  | .abandon i => w.calls[i]?.map fun _ => { w with calls := w.calls.eraseIdx i }
  | .elsewhere id f =>
    some { w with lines := w.lines.update id f.settle f.settle_id }

def idle : Activations := ⟨Table.empty, [], []⟩

end Activations

open Activations

/-! ## The condition -/

/-- Its charge was approved, and its row is not committed yet. -/
def paidFor (order : String) (c : CreateCall) : Bool :=
  match c.phase with
  | .charged _ _ => c.req.commercialOrderId = some order
  | _ => false

/-- A call of an order charges only while the order has no row and no other call of it is
between charge and commit. An approved charge gets its reply, and its call commits. -/
def OneAtATime (w : Activations) : Activations.Label → Prop
  | .charge i pay delivered => ∀ c ∈ w.calls[i]?, ∀ order ∈ c.req.commercialOrderId, pay.Approved →
      delivered = true ∧ hasOrder w.lines order = false ∧ w.calls.any (paidFor order) = false
  | .abandon i => ∀ c ∈ w.calls[i]?, ∀ order ∈ c.req.commercialOrderId, paidFor order c = false
  | _ => True

instance (w : Activations) : ∀ l, Decidable (OneAtATime w l)
  | .charge i pay delivered => inferInstanceAs (Decidable (∀ c ∈ w.calls[i]?,
      ∀ order ∈ c.req.commercialOrderId, pay.Approved →
        delivered = true ∧ hasOrder w.lines order = false ∧ w.calls.any (paidFor order) = false))
  | .abandon i => inferInstanceAs (Decidable (∀ c ∈ w.calls[i]?, ∀ order ∈ c.req.commercialOrderId,
      paidFor order c = false))
  | .lookup _ | .check _ _ | .commit _ _ _ | .elsewhere _ _ => .isTrue trivial

/-! ## What is paid for -/

def approvedFor (order : String) (c : OrderCharge) : Bool :=
  c.order = some order && c.charge.approved && c.charge.request.purpose = "activation"

def ofOrder (order : String) (db : SubDb) : Bool := db.sub.commercialOrderId = some order

/-- Each approved charge has its call or its row. -/
structure Inv (w : Activations) : Prop where
  paid : ∀ order, w.charges.countP (approvedFor order) ≤
    w.calls.countP (paidFor order) + w.lines.rows.countP (ofOrder order)
  single : ∀ order, w.calls.countP (paidFor order) + w.lines.rows.countP (ofOrder order) ≤ 1

theorem hasOrder_eq_false {lines : Lines} {order : String} :
    hasOrder lines order = false ↔ lines.rows.countP (ofOrder order) = 0 := by
  simp [hasOrder, List.countP_eq_zero, ofOrder]

/-! ## Steps -/

theorem writeRow_order {p : RenewPlan} {sub : SubscriptionRow} {dest : SubState}
    {row : SubscriptionRow → SubscriptionRow} (h : p.writeRow sub dest = .ok row) (r : SubscriptionRow) :
    (row r).commercialOrderId = r.commercialOrderId := by
  unfold RenewPlan.writeRow at h
  split at h
  · simp only [bind_eq_ok] at h
    obtain ⟨amount, -, h⟩ := h
    cases h
    rfl
  · cases h
    rfl

theorem rowWrite_order {f : Flight} {r r' : SubscriptionRow} (h : RowWrite f r r') :
    r'.commercialOrderId = r.commercialOrderId := by
  cases h with
  | renewed _ _ _ hrow => exact writeRow_order hrow r
  | bought _ =>
    unfold vasRow
    split <;> rfl
  | declined _ _ _ | blocked _ _ | used _ _ | terminated _ | changed _ => rfl

theorem settle_order (f : Flight) (db : SubDb) :
    (f.settle db).sub.commercialOrderId = db.sub.commercialOrderId := by
  unfold Flight.settle
  split
  · rename_i h
    exact rowWrite_order (commit_rowWrite h)
  · rfl

section

variable {w w' : Activations} {i : ℕ} {c : CreateCall}

theorem check_inv {env : CreateEnv} (hi : Inv w) (hc : w.calls[i]? = some c)
    (h : w.stepCheck i c env = some w') : Inv w' := by
  unfold stepCheck at h
  split at h
  · rename_i hphase
    obtain ⟨p, -, rfl⟩ := Option.map_eq_some_iff.mp h
    have hcount := fun order => Pool.countP_set (paidFor order) hc { c with phase := .planned p }
    simp only [paidFor, hphase, Bool.false_eq_true, if_false] at hcount
    refine ⟨fun order => ?_, fun order => ?_⟩
    · have := hi.paid order
      have := hcount order
      dsimp only [paidFor] at *
      omega
    · have := hi.single order
      have := hcount order
      dsimp only [paidFor] at *
      omega
  · simp at h

/-- A charge adds a call that is paid for when it adds an approved charge, and then the
order had neither a call nor a row that is. -/
theorem charge_counts {pay : PaymentResult} {delivered : Bool} (hc : w.calls[i]? = some c)
    (hone : ∀ order ∈ c.req.commercialOrderId, pay.Approved →
      delivered = true ∧ hasOrder w.lines order = false ∧ w.calls.any (paidFor order) = false)
    (h : w.stepCharge i c pay delivered = some w') (order : String) :
    w'.lines = w.lines ∧ ∃ k, w'.calls.countP (paidFor order) = w.calls.countP (paidFor order) + k ∧
      w'.charges.countP (approvedFor order) ≤ w.charges.countP (approvedFor order) + k ∧
      (k = 0 ∨ k = 1 ∧ w.calls.countP (paidFor order) + w.lines.rows.countP (ofOrder order) = 0) := by
  unfold stepCharge at h
  split at h
  · rename_i p hphase
    cases h
    refine ⟨rfl, ?_⟩
    have hnot : paidFor order c = false := by simp [paidFor, hphase]
    have hset := Pool.countP_set (paidFor order) hc { c with phase := .charged p pay }
    have herase := Pool.countP_eraseIdx (paidFor order) hc
    rw [hnot] at hset herase
    simp only [Bool.false_eq_true, if_false, Nat.add_zero] at hset herase
    simp only [List.countP_append, List.countP_singleton]
    by_cases hfor : c.req.commercialOrderId = some order ∧ pay.Approved
    · obtain ⟨horder, happ⟩ := hfor
      obtain ⟨hdelivered, hrow, hcall⟩ := hone order horder happ
      rw [hasOrder_eq_false] at hrow
      have hnone : w.calls.countP (paidFor order) = 0 := by
        rw [List.countP_eq_zero]
        simpa using hcall
      have hthis : paidFor order { c with phase := .charged p pay } = true := by simp [paidFor, horder]
      rw [hthis, if_pos rfl] at hset
      refine ⟨1, ?_, ?_, Or.inr ⟨rfl, by omega⟩⟩
      · rw [if_pos ⟨hdelivered, happ⟩, hset]
      · split <;> omega
    · refine ⟨0, ?_, ?_, Or.inl rfl⟩
      · split
        · rename_i hdel
          have hthis : paidFor order { c with phase := .charged p pay } = false := by
            simpa [paidFor] using fun horder => hfor ⟨horder, hdel.2⟩
          rw [hset, hthis]
          rfl
        · exact herase.symm
      · rw [if_neg]
        simp only [approvedFor, Bool.and_eq_true, decide_eq_true_eq]
        exact fun h => hfor h.1
  · simp at h

theorem charge_inv {pay : PaymentResult} {delivered : Bool} (hi : Inv w) (hc : w.calls[i]? = some c)
    (hone : ∀ order ∈ c.req.commercialOrderId, pay.Approved →
      delivered = true ∧ hasOrder w.lines order = false ∧ w.calls.any (paidFor order) = false)
    (h : w.stepCharge i c pay delivered = some w') : Inv w' := by
  refine ⟨fun order => ?_, fun order => ?_⟩
  · obtain ⟨hlines, k, hcalls, hcharges, -⟩ := charge_counts hc hone h order
    have := hi.paid order
    rw [hlines]
    omega
  · obtain ⟨hlines, k, hcalls, -, hk⟩ := charge_counts hc hone h order
    have := hi.single order
    rw [hlines]
    omega

theorem insertLine_rows {lines lines' : Lines} {db : SubDb} (h : insertLine lines db = some lines') :
    lines'.rows = lines.rows ++ [db] := by
  unfold insertLine at h
  obtain ⟨-, h⟩ := Option.ite_none_left_eq_some.mp h
  exact (Table.rows_insert h).1

theorem commit_inv {subId : String} {now : Time} (hi : Inv w) (hc : w.calls[i]? = some c)
    (h : w.stepCommit i c subId now = some w') : Inv w' := by
  unfold stepCommit at h
  split at h
  · rename_i p pay hphase
    obtain ⟨db, hdb, h⟩ := Option.bind_eq_some_iff.mp h
    obtain ⟨lines, hlines, rfl⟩ := Option.map_eq_some_iff.mp h
    obtain ⟨amount, value, -, -, hsub, -⟩ := createCommit_eq_ok (toOption_eq_some.mp hdb)
    have hrows := insertLine_rows hlines
    -- The call's token becomes the row's.
    have hmove : ∀ order, paidFor order c = ofOrder order db := by
      simp [paidFor, hphase, ofOrder, hsub, createRow]
    have herase := fun order => Pool.countP_eraseIdx (paidFor order) hc
    refine ⟨fun order => ?_, fun order => ?_⟩
    all_goals
      have hpaid := hi.paid order
      have hsingle := hi.single order
      have he := herase order
      rw [hmove order] at he
      simp only [hrows, List.countP_append, List.countP_singleton]
      omega
  · simp at h

theorem abandon_inv (hi : Inv w) (hc : w.calls[i]? = some c)
    (hnot : ∀ order ∈ c.req.commercialOrderId, paidFor order c = false) :
    Inv { w with calls := w.calls.eraseIdx i } := by
  have hfalse : ∀ order, paidFor order c = false := by
    intro order
    by_cases horder : c.req.commercialOrderId = some order
    · exact hnot order horder
    · unfold paidFor
      split <;> simp [horder]
  have herase := fun order => Pool.countP_eraseIdx (paidFor order) hc
  simp only [hfalse, Bool.false_eq_true, if_false, Nat.add_zero] at herase
  refine ⟨fun order => ?_, fun order => ?_⟩
  · exact herase order ▸ hi.paid order
  · exact herase order ▸ hi.single order

theorem step_inv {l : Activations.Label} (hi : Inv w) (hone : OneAtATime w l) (h : step w l = some w') :
    Inv w' := by
  cases l with
  | lookup req =>
    cases h
    unfold stepLookup
    split
    · exact hi
    · refine ⟨fun order => ?_, fun order => ?_⟩
      · simpa [List.countP_append, paidFor] using hi.paid order
      · simpa [List.countP_append, paidFor] using hi.single order
  | check i env =>
    obtain ⟨c, hc, h⟩ := Option.bind_eq_some_iff.mp h
    exact check_inv hi hc h
  | charge i pay delivered =>
    obtain ⟨c, hc, h⟩ := Option.bind_eq_some_iff.mp h
    exact charge_inv hi hc (hone c hc) h
  | commit i subId now =>
    obtain ⟨c, hc, h⟩ := Option.bind_eq_some_iff.mp h
    exact commit_inv hi hc h
  | abandon i =>
    obtain ⟨c, hc, rfl⟩ := Option.map_eq_some_iff.mp h
    exact abandon_inv hi hc (hone c hc)
  | elsewhere id f =>
    cases h
    have hrows : ∀ order, (w.lines.update id f.settle f.settle_id).rows.countP
        (ofOrder order) = w.lines.rows.countP (ofOrder order) := by
      intro order
      rw [Table.update, Table.map, List.countP_map]
      refine List.countP_congr fun db _ => ?_
      rw [Function.comp_apply]
      split
      · rw [ofOrder, settle_order, ofOrder]
      · rfl
    exact ⟨fun order => (hrows order).symm ▸ hi.paid order, fun order => (hrows order).symm ▸ hi.single order⟩

end

def orderRequest : SubscriptionCreateRequest := { sampleRequest with commercialOrderId := some "ORD-0001" }

end BssCli.Subscription.Activation
