import BssCli.Crm.Cases
import BssCli.Subscription.Domain

/-!
# Customers that are deactivated

`update_customer` takes any status. When it takes an active customer out of `active`, it asks the subscription service
for the customer's lines and looks for active and pending ones.
-/

namespace BssCli.Crm.Deactivation

open Cases (InteractionRow)
open Subscription (SubState Trigger)

/-! ## Rows -/

structure CustomerRow where
  id : String
  partyId : String
  status : String
  statusReason : Option String
  deriving DecidableEq

abbrev Customers := Table CustomerRow.id (fun id : String => id)

/-- What the guard reads of a subscription. -/
structure Line where
  id : String
  customerId : String
  state : SubState
  deriving DecidableEq

abbrev Lines := Table Line.id (fun id : String => id)

/-- A status that was changed, with the customer's lines at that moment. No step reads it. -/
structure Move where
  customerId : String
  fromStatus : String
  toStatus : String
  lines : List Line
  deriving DecidableEq

structure World where
  customers : Customers
  interactions : List InteractionRow
  events : List Event
  lines : Lines
  moves : List Move

namespace World

def start (customers : Customers) (lines : Lines) : World := ⟨customers, [], [], lines, []⟩

/-- `ORDER BY created_at DESC` -/
def listForCustomer (w : World) (customerId : String) : List Line :=
  (w.lines.rows.filter fun l => l.customerId = customerId).reverse

end World

/-! ## The update -/

structure UpdateCustomer where
  customerId : String
  status : Option String
  statusReason : Option String

def customerNotFound (customerId : String) : ApiError := .policy {
  rule := "customer.update.not_found"
  message := s!"Customer {customerId} not found"
  context := [("customer_id", .str customerId)] }

def noActiveSubscriptions (customerId : String) (active : List String) : ApiError :=
  let listed := ", ".intercalate active
  .policy {
    rule := "customer.close.no_active_subscriptions"
    message := s!"Customer {customerId} has {active.length} active subscription(s): {listed}. Terminate them first."
    context := [("customer_id", .str customerId), ("active_subscriptions", .array (active.map .str))] }

def Line.activeOrPending (l : Line) : Bool := l.state = .active ∨ l.state = .pending

/-- `listed` is what the subscription service answers. -/
def checkDeactivation (listed : Except ClientError (List Line)) (req : UpdateCustomer) (cust : CustomerRow) :
    Except ApiError Unit :=
  match req.status with
  | none => .ok ()
  | some newStatus =>
    if newStatus ≠ "active" ∧ cust.status = "active" then do
      let subs ← orUpstream listed
      let active := (subs.filter Line.activeOrPending).map Line.id
      if active = [] then .ok () else .error (noActiveSubscriptions req.customerId active)
    else .ok ()

def CustomerRow.write (status statusReason : Option String) (c : CustomerRow) : CustomerRow :=
  { c with status := status.getD c.status, statusReason := statusReason.or c.statusReason }

theorem CustomerRow.write_id (status statusReason : Option String) (c : CustomerRow) :
    (c.write status statusReason).id = c.id := rfl

def UpdateCustomer.fields (req : UpdateCustomer) : List String :=
  (if req.status.isSome then ["status"] else []) ++ if req.statusReason.isSome then ["status_reason"] else []

def UpdateCustomer.moved (req : UpdateCustomer) (cust : CustomerRow) (lines : List Line) : List Move :=
  match req.status with
  | none => []
  | some newStatus => if newStatus = cust.status then [] else [⟨cust.id, cust.status, newStatus, lines⟩]

def updateCustomer (listed : Except ClientError (List Line)) (req : UpdateCustomer) (w : World) :
    Except ApiError World :=
  match w.customers.find req.customerId with
  | none => .error (customerNotFound req.customerId)
  | some cust => do
    checkDeactivation listed req cust
    let fields := ", ".intercalate req.fields
    return { w with
      customers := w.customers.update req.customerId (·.write req.status req.statusReason)
        (CustomerRow.write_id req.status req.statusReason)
      events := w.events ++ [⟨"customer.updated", "customer", req.customerId,
        [("fields_updated", .array (req.fields.map .str))]⟩]
      interactions := w.interactions ++ [⟨req.customerId, s!"Customer updated: {fields}", none, none⟩]
      moves := w.moves ++ req.moved cust (w.listForCustomer req.customerId) }

/-! ## Updates and lines -/

inductive Op
  /-- The subscription service is down, or the transaction fails. -/
  | updateCustomer (req : UpdateCustomer) (down : Option ClientError) (txOk : Bool)
  | createLine (id customerId : String)
  | transition (lineId : String) (trigger : Trigger)

namespace World

def listed (w : World) (customerId : String) : Option ClientError → Except ClientError (List Line)
  | some e => .error e
  | none => .ok (w.listForCustomer customerId)

theorem setState_id (s : SubState) (l : Line) : ({ l with state := s } : Line).id = l.id := rfl

def after (w : World) : Op → World
  | .updateCustomer req down txOk =>
    match updateCustomer (w.listed req.customerId down) req w with
    | .ok w' => if txOk then w' else w
    | .error _ => w
  | .createLine id customerId =>
    match w.lines.insert ⟨id, customerId, .pending⟩ with
    | some lines => { w with lines }
    | none => w
  | .transition lineId trigger =>
    match (w.lines.find lineId).bind fun l => Subscription.getNextState l.state trigger with
    | some s => { w with lines := w.lines.update lineId (fun l => { l with state := s }) (setState_id s) }
    | none => w

def run : World → List Op → World
  | w, [] => w
  | w, op :: ops => (w.after op).run ops

/-! ## The law -/

def Live (l : Line) : Prop := l.state ≠ .terminated

instance : DecidablePred Live := fun _ => inferInstanceAs (Decidable (_ ≠ _))

/-- No customer was taken to a status other than `active` with a live line. -/
def Lawful (w : World) : Prop := ∀ m ∈ w.moves, m.toStatus ≠ "active" → ∀ l ∈ m.lines, ¬ Live l

instance (w : World) : Decidable w.Lawful := inferInstanceAs (Decidable (∀ m ∈ _, _ → ∀ l ∈ _, _))

/-- The lines of a customer that an update takes to `newStatus`. An active customer has no blocked line beside those that
the guard finds. One that is not active any more has no live line. -/
def Clear (w : World) (cust : CustomerRow) (down : Option ClientError) : Prop :=
  if cust.status = "active" then
    down = none → (∀ l ∈ w.listForCustomer cust.id, l.activeOrPending = false) →
      ∀ l ∈ w.listForCustomer cust.id, l.state ≠ .blocked
  else
    ∀ l ∈ w.listForCustomer cust.id, ¬ Live l

/-- An update that is stored and takes a customer to another status than `active` finds the lines clear. -/
def Keeps (w : World) : Op → Prop
  | .updateCustomer req down txOk =>
    ∀ cust ∈ w.customers.find req.customerId, ∀ newStatus ∈ req.status,
      newStatus ≠ "active" → newStatus ≠ cust.status → txOk = true → w.Clear cust down
  | .createLine .. | .transition .. => True

def AllKeep : World → List Op → Prop
  | _, [] => True
  | w, op :: ops => w.Keeps op ∧ (w.after op).AllKeep ops

end World

/-! ## One step -/

section

variable {w : World} {cust : CustomerRow} {req : UpdateCustomer}

theorem live_iff (l : Line) : World.Live l ↔ l.activeOrPending = true ∨ l.state = .blocked := by
  unfold World.Live Line.activeOrPending
  cases l.state <;> decide

theorem checkDeactivation_ok_iff (listed : Except ClientError (List Line)) :
    checkDeactivation listed req cust = .ok () ↔
      ∀ newStatus ∈ req.status, newStatus ≠ "active" → cust.status = "active" →
        ∃ subs, listed = .ok subs ∧ ∀ l ∈ subs, l.activeOrPending = false := by
  unfold checkDeactivation
  cases req.status with
  | none => simp
  | some newStatus =>
    dsimp only
    split
    · rename_i h
      rw [bind_eq_ok]
      simp only [Option.mem_def, Option.some.injEq, forall_eq', h.1, h.2, ne_eq, not_false_eq_true, forall_const]
      refine exists_congr fun subs => ?_
      rw [orUpstream_eq_ok]
      refine and_congr_right fun _ => ?_
      split
      · rename_i hnone
        simpa [List.filter_eq_nil_iff] using hnone
      · rename_i hsome
        simpa [List.filter_eq_nil_iff] using hsome
    · rename_i h
      refine iff_of_true rfl ?_
      rintro _ ⟨⟩ hne hactive
      exact absurd ⟨hne, hactive⟩ h

theorem updateCustomer_eq_ok {listed : Except ClientError (List Line)} {w' : World}
    (hfind : w.customers.find req.customerId = some cust) :
    updateCustomer listed req w = .ok w' →
      checkDeactivation listed req cust = .ok () ∧
        w'.moves = w.moves ++ req.moved cust (w.listForCustomer req.customerId) := by
  intro h
  unfold updateCustomer at h
  rw [hfind] at h
  obtain ⟨⟨⟩, hcheck, h⟩ := bind_eq_ok.mp h
  cases h
  exact ⟨hcheck, rfl⟩

/-- What a committed update leaves. One that is refused leaves everything. -/
theorem after_updateCustomer (w : World) (req : UpdateCustomer) (down : Option ClientError) (txOk : Bool) :
    w.after (.updateCustomer req down txOk) =
      match updateCustomer (w.listed req.customerId down) req w with
      | .ok w' => if txOk then w' else w
      | .error _ => w := rfl

theorem updateCustomer_isOk {listed : Except ClientError (List Line)}
    (hfind : w.customers.find req.customerId = some cust) (hcheck : checkDeactivation listed req cust = .ok ()) :
    ∃ w', updateCustomer listed req w = .ok w' := by
  unfold updateCustomer
  rw [hfind]
  exact ⟨_, bind_eq_ok.mpr ⟨(), hcheck, rfl⟩⟩

/-- What a status that is changed does to the law. -/
theorem moved_lawful_iff (lines : List Line) :
    (∀ m ∈ req.moved cust lines, m.toStatus ≠ "active" → ∀ l ∈ m.lines, ¬ World.Live l) ↔
      ∀ newStatus ∈ req.status, newStatus ≠ "active" → newStatus ≠ cust.status → ∀ l ∈ lines, ¬ World.Live l := by
  unfold UpdateCustomer.moved
  cases req.status with
  | none => simp
  | some newStatus =>
    dsimp only
    split
    · rename_i heq
      simp [heq]
    · rename_i hne
      simp [hne]

/-- The guard has seen to the active and the pending lines of an active customer. -/
theorem clear_iff {down : Option ClientError} {newStatus : String} (hstatus : req.status = some newStatus)
    (hne : newStatus ≠ "active") (hid : cust.id = req.customerId) :
    w.Clear cust down ↔
      (checkDeactivation (w.listed req.customerId down) req cust = .ok () →
        ∀ l ∈ w.listForCustomer req.customerId, ¬ World.Live l) := by
  rw [checkDeactivation_ok_iff, World.Clear, hstatus, hid]
  simp only [Option.mem_def, Option.some.injEq, forall_eq']
  split
  · rename_i hactive
    cases down with
    | some e => simp [World.listed, hne, hactive]
    | none =>
      simp only [World.listed, hne, hactive, ne_eq, not_false_eq_true, forall_const, Except.ok.injEq, exists_eq_left']
      refine imp_congr_right fun hpassed => forall₂_congr fun l hl => ?_
      rw [live_iff, hpassed l hl]
      simp
  · rename_i hother
    simp [hother]

theorem after_moves (w : World) {op : Op} (h : ∀ req down txOk, op ≠ .updateCustomer req down txOk) :
    (w.after op).moves = w.moves := by
  cases op with
  | updateCustomer req down txOk => exact absurd rfl (h req down txOk)
  | createLine id customerId =>
    unfold World.after
    dsimp only
    split <;> rfl
  | transition lineId trigger =>
    unfold World.after
    dsimp only
    split <;> rfl

theorem updateCustomer_lawful_iff (w : World) (req : UpdateCustomer) (down : Option ClientError) :
    (w.after (.updateCustomer req down true)).Lawful ↔ w.Lawful ∧ w.Keeps (.updateCustomer req down true) := by
  cases hfind : w.customers.find req.customerId with
  | none =>
    have hrefused : updateCustomer (w.listed req.customerId down) req w = .error (customerNotFound req.customerId) := by
      unfold updateCustomer
      rw [hfind]
    rw [after_updateCustomer, hrefused]
    exact (and_iff_left fun cust hcust => by rw [hfind] at hcust; cases hcust).symm
  | some cust =>
    have hid := (w.customers.find_some hfind).2
    have hkeeps : w.Keeps (.updateCustomer req down true) ↔
        (checkDeactivation (w.listed req.customerId down) req cust = .ok () →
          ∀ m ∈ req.moved cust (w.listForCustomer req.customerId), m.toStatus ≠ "active" →
            ∀ l ∈ m.lines, ¬ World.Live l) := by
      rw [moved_lawful_iff]
      unfold World.Keeps
      simp only [hfind, Option.mem_def, Option.some.injEq, forall_eq', forall_const]
      constructor
      · intro h hcheck newStatus hstatus hne hmoves
        exact (clear_iff hstatus hne hid).mp (h newStatus hstatus hne hmoves) hcheck
      · intro h newStatus hstatus hne hmoves
        exact (clear_iff hstatus hne hid).mpr fun hcheck => h hcheck newStatus hstatus hne hmoves
    rw [hkeeps]
    cases hup : updateCustomer (w.listed req.customerId down) req w with
    | ok w' =>
      obtain ⟨hcheck, hmoves⟩ := updateCustomer_eq_ok hfind hup
      rw [after_updateCustomer, hup]
      dsimp only
      rw [if_pos rfl, World.Lawful, hmoves, List.forall_mem_append]
      exact and_congr_right fun _ => ⟨fun h _ => h, fun h => h hcheck⟩
    | error e =>
      rw [after_updateCustomer, hup]
      refine (and_iff_left fun hcheck => ?_).symm
      obtain ⟨w', hok⟩ := updateCustomer_isOk hfind hcheck
      rw [hup] at hok
      cases hok

theorem after_lawful_iff (w : World) (op : Op) : (w.after op).Lawful ↔ w.Lawful ∧ w.Keeps op := by
  cases op with
  | updateCustomer req down txOk =>
    cases txOk with
    | true => exact updateCustomer_lawful_iff w req down
    | false =>
      have hafter : w.after (.updateCustomer req down false) = w := by
        rw [after_updateCustomer]
        split <;> rfl
      rw [hafter]
      exact (and_iff_left fun _ _ _ _ _ _ htx => by cases htx).symm
  | createLine id customerId =>
    rw [World.Lawful, after_moves w (by simp)]
    exact (and_iff_left trivial).symm
  | transition lineId trigger =>
    rw [World.Lawful, after_moves w (by simp)]
    exact (and_iff_left trivial).symm

theorem run_lawful_iff (w : World) (ops : List Op) : (w.run ops).Lawful ↔ w.Lawful ∧ w.AllKeep ops := by
  induction ops generalizing w with
  | nil => exact (and_iff_left trivial).symm
  | cons op ops ih =>
    unfold World.run World.AllKeep
    rw [ih, after_lawful_iff, and_assoc]

end

/-! ## Runs -/

theorem deactivation_lawful_iff (customers : Customers) (lines : Lines) (ops : List Op) :
    ((World.start customers lines).run ops).Lawful ↔ (World.start customers lines).AllKeep ops := by
  rw [run_lawful_iff]
  exact and_iff_right fun m hm => absurd hm List.not_mem_nil

def sampleCustomers : Customers := .singleton ⟨"CUST-1", "PTY-1", "active", none⟩

def sampleUpdate (status : String) : Op := .updateCustomer ⟨"CUST-1", some status, none⟩ none true

/-- A line that has run out of data is blocked, and its customer is closed. -/
theorem closed_with_blocked_line :
    ¬ ((World.start sampleCustomers .empty).run
      [.createLine "SUB-1" "CUST-1", .transition "SUB-1" .activate, .transition "SUB-1" .exhaust,
        sampleUpdate "closed"]).Lawful := by
  decide +kernel

/-- The guard is for active customers, so a suspended one is closed with an active line. -/
example :
    ¬ ((World.start sampleCustomers .empty).run
      [sampleUpdate "suspended", .createLine "SUB-1" "CUST-1", .transition "SUB-1" .activate,
        sampleUpdate "closed"]).Lawful := by
  decide +kernel

end BssCli.Crm.Deactivation
