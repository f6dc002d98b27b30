import BssCli.Common

/-!
# The pure domain logic: allowances and the state machine

The four states, the transition table, and the arithmetic of one allowance balance.
-/

namespace BssCli.Subscription

/-! ## Allowances -/

def unlimited : ℤ := -1

def primaryAllowanceType : String := "data"

structure BalanceSnapshot where
  allowanceType : String
  total : ℤ
  consumed : ℤ
  unit : String
  deriving DecidableEq

namespace BalanceSnapshot

def remaining (b : BalanceSnapshot) : ℤ :=
  if b.total = unlimited then unlimited else i64 (b.total - b.consumed)

end BalanceSnapshot

def consume (balance : BalanceSnapshot) (quantity : ℤ) : BalanceSnapshot :=
  if quantity ≤ 0 ∨ balance.total = unlimited then balance
  else { balance with consumed := min (i64 (balance.consumed + quantity)) balance.total }

/-- The first balance of the primary type decides. No such balance means exhausted. -/
def isExhausted : List BalanceSnapshot → String → Bool
  | [], _ => true
  | b :: bs, primaryType =>
    if b.allowanceType = primaryType then
      if b.total = unlimited then false else decide (b.remaining ≤ 0)
    else isExhausted bs primaryType

def addAllowance (balance : BalanceSnapshot) (quantity : ℤ) : BalanceSnapshot :=
  if quantity ≤ 0 ∨ balance.total = unlimited then balance
  else { balance with total := i64 (balance.total + quantity) }

@[simp]
theorem consume_allowanceType (b : BalanceSnapshot) (q : ℤ) :
    (consume b q).allowanceType = b.allowanceType := by
  unfold consume; split <;> rfl

@[simp]
theorem consume_total (b : BalanceSnapshot) (q : ℤ) : (consume b q).total = b.total := by
  unfold consume; split <;> rfl

theorem consume_consumed_le {b : BalanceSnapshot} (q : ℤ) (h : b.consumed ≤ b.total) :
    (consume b q).consumed ≤ (consume b q).total := by
  unfold consume
  split
  · exact h
  · exact min_le_right _ _

theorem isExhausted_eq (bs : List BalanceSnapshot) (ty : String) :
    isExhausted bs ty =
      match bs.find? fun b => b.allowanceType = ty with
      | none => true
      | some b => if b.total = unlimited then false else decide (b.remaining ≤ 0) := by
  induction bs with
  | nil => rfl
  | cons b bs ih =>
    unfold isExhausted
    by_cases hb : b.allowanceType = ty
    · rw [if_pos hb, List.find?_cons_of_pos (by simpa using hb)]
    · rw [if_neg hb, List.find?_cons_of_neg (by simpa using hb), ih]

/-! ## The state machine -/

inductive SubState
  | pending
  | active
  | blocked
  | terminated
  deriving DecidableEq, Repr

namespace SubState

def name : SubState → String
  | pending => "pending"
  | active => "active"
  | blocked => "blocked"
  | terminated => "terminated"

end SubState

inductive Trigger
  | activate
  | failActivate
  | exhaust
  | topUp
  | renew
  | renewFail
  | terminate
  deriving DecidableEq, Repr

namespace Trigger

def name : Trigger → String
  | activate => "activate"
  | failActivate => "fail_activate"
  | exhaust => "exhaust"
  | topUp => "top_up"
  | renew => "renew"
  | renewFail => "renew_fail"
  | terminate => "terminate"

end Trigger

def transitions : List (Trigger × SubState × SubState) :=
  [(.activate, .pending, .active),
   (.failActivate, .pending, .terminated),
   (.exhaust, .active, .blocked),
   (.topUp, .blocked, .active),
   (.topUp, .active, .active),
   (.renew, .active, .active),
   (.renewFail, .active, .blocked),
   (.terminate, .active, .terminated),
   (.terminate, .blocked, .terminated)]

def isValidTransition (fromState : SubState) (trigger : Trigger) : Bool :=
  transitions.any fun (t, src, _) => t = trigger ∧ src = fromState

def getNextState (fromState : SubState) (trigger : Trigger) : Option SubState :=
  (transitions.find? fun (t, src, _) => t = trigger ∧ src = fromState).map fun (_, _, dest) => dest

/-- The service's guard around the table. -/
def nextState (fromState : SubState) (trigger : Trigger) : Except ApiError SubState :=
  if isValidTransition fromState trigger then
    match getNextState fromState trigger with
    | some dest => .ok dest
    | none => .error (.internal "transition produced no state")
  else
    .error (.policy {
      rule := "subscription.transition.invalid"
      message := s!"Cannot trigger '{trigger.name}' from state '{fromState.name}'"
      context := [("state", .str fromState.name), ("trigger", .str trigger.name)] })

theorem nextState_eq_ok {fromState dest : SubState} {trigger : Trigger} :
    nextState fromState trigger = .ok dest ↔ (trigger, fromState, dest) ∈ transitions := by
  cases fromState <;> cases trigger <;> cases dest <;> decide

theorem nextState_renew {s dest : SubState} :
    nextState s .renew = .ok dest ↔ s = .active ∧ dest = .active := by
  rw [nextState_eq_ok]; cases s <;> cases dest <;> decide

theorem nextState_renewFail {s dest : SubState} :
    nextState s .renewFail = .ok dest ↔ s = .active ∧ dest = .blocked := by
  rw [nextState_eq_ok]; cases s <;> cases dest <;> decide

theorem nextState_exhaust {s dest : SubState} :
    nextState s .exhaust = .ok dest ↔ s = .active ∧ dest = .blocked := by
  rw [nextState_eq_ok]; cases s <;> cases dest <;> decide

theorem nextState_topUp {s dest : SubState} :
    nextState s .topUp = .ok dest ↔ (s = .active ∨ s = .blocked) ∧ dest = .active := by
  rw [nextState_eq_ok]; cases s <;> cases dest <;> decide

theorem nextState_terminate {s dest : SubState} :
    nextState s .terminate = .ok dest ↔ (s = .active ∨ s = .blocked) ∧ dest = .terminated := by
  rw [nextState_eq_ok]; cases s <;> cases dest <;> decide

/-! ## The discount counter -/

/-- The counter after the activation charge, which is period 1. -/
def initialDiscountRemaining (discountType : Option String) (discountPeriodsTotal : Option ℤ) : ℤ :=
  match discountType, discountPeriodsTotal with
  | some _, some total => if total < 0 then -1 else max (total - 1) 0
  | _, _ => 0

end BssCli.Subscription
