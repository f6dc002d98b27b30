import BssCli.Lib.Fields
import BssCli.Money

/-!
# What every service shares

Errors, event payloads and machine integers. A payload keeps its field names and its
order. A time is a number of microseconds, and an amount or a time in a payload stands
for its text.
-/

namespace BssCli

open Money

/-! ## Machine integers -/

def FitsI64 (x : ℤ) : Prop := -2 ^ 63 ≤ x ∧ x < 2 ^ 63

instance (x : ℤ) : Decidable (FitsI64 x) := inferInstanceAs (Decidable (_ ∧ _))

/-- An `i64` off the wire. -/
abbrev I64 := {x : ℤ // FitsI64 x}

/-- `i64` arithmetic of the release build, which wraps. -/
def i64 (x : ℤ) : ℤ := x.bmod (2 ^ 64)

/-- `as i16`. -/
def asI16 (x : ℤ) : ℤ := x.bmod (2 ^ 16)

theorem i64_of_fits {x : ℤ} (h : FitsI64 x) : i64 x = x := by
  unfold FitsI64 at h
  rw [i64, Int.bmod_def]
  omega

theorem asI16_of_le {x : ℤ} (h : -2 ^ 15 ≤ x) (h' : x < 2 ^ 15) : asI16 x = x := by
  rw [asI16, Int.bmod_def]
  omega

/-! ## Time -/

abbrev Time := ℤ

/-- `Duration::days(n)`. -/
def days (n : ℤ) : Time := n * 86400000000

def hours (n : ℤ) : Time := n * 3600000000

/-! ## Payloads -/

inductive Scalar
  | null
  | bool (b : Bool)
  | int (n : ℤ)
  | str (s : String)
  | dec (d : Decimal)
  | time (t : Time)
  deriving DecidableEq

inductive Value
  | scalar (s : Scalar)
  | array (xs : List Scalar)
  | object (fields : List (String × Scalar))
  deriving DecidableEq

abbrev Object := List (String × Value)

namespace Value

def str (s : String) : Value := .scalar (.str s)
def int (n : ℤ) : Value := .scalar (.int n)
def bool (b : Bool) : Value := .scalar (.bool b)
def dec (d : Decimal) : Value := .scalar (.dec d)
def time (t : Time) : Value := .scalar (.time t)

def asStr : Value → Option String
  | .scalar (.str s) => some s
  | _ => none

def asBool : Value → Option Bool
  | .scalar (.bool b) => some b
  | _ => none

def asObject : Value → Option (List (String × Scalar))
  | .object fields => some fields
  | _ => none

end Value

/-- `body.get(key).and_then(Value::as_str)`. -/
def strField (body : Object) (key : String) : Option String := (Fields.get body key).bind Value.asStr

/-- A required field of a message. -/
def reqStr (body : Object) (key : String) : Except String String :=
  match strField body key with
  | some s => .ok s
  | none => .error s!"missing required field '{key}'"

def optStr (body : Object) (key : String) : String := (strField body key).getD ""

/-- `json!(Option<T>)`. -/
def optScalar {α : Type} (f : α → Scalar) : Option α → Scalar
  | none => .null
  | some a => f a

def optValue {α : Type} (f : α → Scalar) (o : Option α) : Value := .scalar (optScalar f o)

/-- A staged `audit.domain_event` row. Its envelope is not read by the code below. -/
structure Event where
  eventType : String
  aggregateType : String
  aggregateId : String
  payload : Object
  deriving DecidableEq

/-! ## Errors -/

structure PolicyViolation where
  rule : String
  message : String
  context : Object
  deriving DecidableEq

/-- `ApiError`, the variants the service layer returns. -/
inductive ApiError
  | policy (pv : PolicyViolation)
  | internal (msg : String)
  deriving DecidableEq

inductive ClientError
  | notFound (detail : String)
  | policy (pv : PolicyViolation)
  | server (status : ℕ) (detail : String)
  | http (status : ℕ) (detail : String)
  | timeout (detail : String)
  | transport (detail : String)
  deriving DecidableEq

namespace ClientError

def display : ClientError → String
  | notFound d => s!"not found: {d}"
  | policy pv => s!"policy violation: {pv.message}"
  | server status detail => s!"server error {status}: {detail}"
  | http status detail => s!"http {status}: {detail}"
  | timeout d => s!"timeout: {d}"
  | transport d => s!"transport error: {d}"

end ClientError

def upstream (e : ClientError) : ApiError := .internal s!"upstream error: {e.display}"

/-- `.map_err(upstream)?` -/
def orUpstream {α : Type} : Except ClientError α → Except ApiError α
  | .ok a => .ok a
  | .error e => .error (upstream e)

/-- What a statement that Postgres refuses comes back as. -/
def dbError (msg : String) : ApiError := .internal msg

theorem orUpstream_eq_ok {α : Type} {r : Except ClientError α} {a : α} :
    orUpstream r = .ok a ↔ r = .ok a := by
  cases r <;> simp [orUpstream]

theorem reqStr_eq_ok {body : Object} {key s : String} :
    reqStr body key = .ok s ↔ strField body key = some s := by
  unfold reqStr
  split <;> simp_all

theorem toOption_eq_some {ε α : Type} {r : Except ε α} {a : α} : r.toOption = some a ↔ r = .ok a := by
  cases r <;> simp [Except.toOption]

theorem bind_eq_ok {ε α β : Type} {x : Except ε α} {f : α → Except ε β} {b : β} :
    x >>= f = .ok b ↔ ∃ a, x = .ok a ∧ f a = .ok b := by
  cases x with
  | error e => simp [bind, Except.bind]
  | ok a => simp [bind, Except.bind]

end BssCli
