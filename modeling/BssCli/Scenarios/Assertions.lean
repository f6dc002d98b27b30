import BssCli.Lib.Rounding
import BssCli.Scenarios.Context

/-!
# Expectations of a scenario

`assertions.rs`: what a step expects of a value, path by path, and what it means that the value meets it.
-/

open Text

namespace Json

/-! ## Equal values -/

mutual

/-- `==` of two values. The fields of an object have no order. -/
def same : Json → Json → Bool
  | .obj fs, .obj gs => fs.length = gs.length && sameFields fs gs
  | .arr xs, .arr ys => sameValues xs ys
  | .null, .null => true
  | .bool a, .bool b => a = b
  | .int a, .int b => a = b
  | .float a, .float b => a = b
  | .str a, .str b => a = b
  | _, _ => false

def sameValues : List Json → List Json → Bool
  | [], [] => true
  | x :: xs, y :: ys => same x y && sameValues xs ys
  | _, _ => false

def sameFields : List (String × Json) → List (String × Json) → Bool
  | [], _ => true
  | (k, v) :: fs, gs =>
    (match Fields.get gs k with
      | some w => same v w
      | none => false) && sameFields fs gs

end

def isObject : Json → Bool
  | .obj _ => true
  | _ => false

/-- `as_f64` -/
def asF64 : Json → Option ℚ
  | .int n => some (Rounding.roundF64 n)
  | .float x => some x
  | _ => none

end Json

namespace BssCli.Scenarios

/-! ## Paths -/

def listKeyCandidates : List String := ["allowanceType", "type", "id", "name", "channel"]

/-- `parse::<usize>` -/
def parseUsize (s : List Char) : Option ℕ :=
  (parseDigits (if s.head? = some '+' then s.drop 1 else s)).filter fun n => n < 2 ^ 64

def segments (path : String) : List String := (splitChar '.' path.toList).map String.ofList

/-- The item of a list that has the text under one of the keys. -/
def named (seg : String) (item : Json) : Bool :=
  item.isObject && listKeyCandidates.any fun k => (item.get k).bind Json.asStr = some seg

def resolveSegment (cur : Json) (seg : String) : Option Json :=
  match cur with
  | .arr items =>
    match parseUsize seg.toList with
    | some idx => items[idx]?
    | none => items.find? (named seg)
  | .obj _ => cur.get seg
  | _ => none

def resolvePath (obj : Json) (path : String) : Option Json := (segments path).foldlM resolveSegment obj

/-! ## Operators -/

/-- Python truthiness. -/
def truthy : Json → Bool
  | .bool b => b
  | .null => false
  | .int n => n ≠ 0
  | .float x => x ≠ 0
  | .str s => s ≠ ""
  | .arr values => !values.isEmpty
  | .obj fields => !fields.isEmpty

def isNull : Json → Bool
  | .null => true
  | _ => false

/-- `actual` against `expected`, where both are numbers. -/
def numCmp (r : ℚ → ℚ → Bool) (actual expected : Json) : Bool :=
  match actual.asF64, expected.asF64 with
  | some a, some e => r a e
  | _, _ => false

def contains : Json → Json → Bool
  | .str s, expected => expected.asStr.any fun e => e.toList <:+: s.toList
  | .arr values, expected => values.any fun v => v.same expected
  | .obj fields, expected => expected.asStr.any fun e => e ∈ fields.map Prod.fst
  | _, _ => false

def isContainer : Json → Bool
  | .str _ | .arr _ | .obj _ => true
  | _ => false

inductive Operator
  | eq
  | ne
  | gt
  | gte
  | lt
  | lte
  | isIn
  | notIn
  | startsWith
  | contains
  | notNull

def operators : List (String × Operator) :=
  [("eq", .eq), ("ne", .ne), ("gt", .gt), ("gte", .gte), ("lt", .lt), ("lte", .lte), ("in", .isIn), ("not_in", .notIn),
    ("starts_with", .startsWith), ("contains", .contains), ("not_null", .notNull)]

def Operator.holds (expected actual : Json) : Operator → Bool
  | .eq => actual.same expected
  | .ne => !actual.same expected
  | .gt => numCmp (fun a e => e < a) actual expected
  | .gte => numCmp (fun a e => e ≤ a) actual expected
  | .lt => numCmp (fun a e => a < e) actual expected
  | .lte => numCmp (fun a e => a ≤ e) actual expected
  | .isIn => expected.asArray.any fun arr => arr.any fun v => v.same actual
  | .notIn => expected.asArray.any fun arr => !arr.any fun v => v.same actual
  | .startsWith => actual.asStr.any fun a => expected.asStr.any fun e => e.toList <+: a.toList
  | .contains => Scenarios.contains actual expected
  | .notNull => (!isNull actual) == truthy expected

/-- Whether the operator holds, and the word for it. An error for a name that is no operator. -/
def applyOp (p : Printer) (op : String) (expected actual : Json) : Except String (Bool × String) :=
  match Fields.get operators op with
  | none => .error ("unknown operator: " ++ p.debug op)
  | some .contains =>
    .ok (Operator.contains.holds expected actual, if isContainer actual then op else "contains on non-container")
  | some o => .ok (o.holds expected actual, op)

/-- The first operator that does not hold, with its reason. -/
def matchOperator (p : Printer) (actual : Json) : List (String × Json) → Option String
  | [] => none
  | (op, expected) :: ops =>
    match applyOp p op expected actual with
    | .ok (true, _) => matchOperator p actual ops
    | .ok (false, why) => some why
    | .error e => some e

/-- Why the value does not match. -/
def matchValue (p : Printer) (expected actual : Json) : Option String :=
  match expected with
  | .obj ops => matchOperator p actual ops
  | _ =>
    if expected.same actual then none
    else if expected.asArray.isSome && actual.asArray.isSome then some "list inequality"
    else some "inequality"

/-! ## Expectations -/

structure AssertionFailure where
  path : String
  expected : Json
  actual : Json
  reason : String

/-- `py_repr` -/
def pyRepr (p : Printer) : Json → String
  | .str s => "'" ++ s ++ "'"
  | v => String.ofList (p.json v)

def AssertionFailure.format (p : Printer) (f : AssertionFailure) : String :=
  "  ✗ " ++ f.path ++ ": expected " ++ pyRepr p f.expected ++ " got " ++ pyRepr p f.actual ++ " (" ++ f.reason ++ ")"

/-- A path of its own, against what it resolves to. -/
def evalPath (p : Printer) (path : String) (expected actual : Json) : Option AssertionFailure :=
  match resolvePath actual path with
  | none => some ⟨path, expected, .null, "path did not resolve"⟩
  | some v => (matchValue p expected v).map fun why => ⟨path, expected, v, why⟩

def noneMatched (items : List Json) : Json :=
  .str ("<" ++ String.ofList (Nat.toDigits 10 items.length) ++ " items, none matched>")

mutual

/-- `evaluate_expect`: the failures. There are none where all is as expected. -/
def evaluateExpect (p : Printer) : List (String × Json) → Json → List AssertionFailure
  | [], _ => []
  | (path, expected) :: expect, actual => (evalEntry p path expected actual).toList ++ evaluateExpect p expect actual

/-- One path, or the elements of a list for `any_match`. -/
def evalEntry (p : Printer) (path : String) : Json → Json → Option AssertionFailure
  | .obj sub, actual =>
    if path = "any_match" then
      match actual with
      | .arr items =>
        if items.any fun item => (evaluateExpect p sub item).isEmpty then none
        else some ⟨path, .obj sub, noneMatched items, "no element satisfied all sub-expectations"⟩
      | actual => some ⟨path, .obj sub, actual, "target is not a list"⟩
    else evalPath p path (.obj sub) actual
  | expected, actual =>
    if path = "any_match" then
      some ⟨path, expected, actual, if actual.asArray.isSome then "any_match value must be a mapping" else "target is not a list"⟩
    else evalPath p path expected actual

end

/-! ## What it means -/

/-- The value has all operators, or is the one expected. -/
def Matches : Json → Json → Prop
  | .obj ops, v => ∀ op ∈ ops, ∃ o, Fields.get operators op.1 = some o ∧ o.holds op.2 v = true
  | expected, v => expected.same v = true

mutual

/-- Every path leads to a value that matches, and `any_match` to an element that meets what is below it. -/
inductive Meets : List (String × Json) → Json → Prop
  | nil {v : Json} : Meets [] v
  | cons {path : String} {expected v : Json} {expect : List (String × Json)} (h : MeetsAt path expected v)
      (hs : Meets expect v) : Meets ((path, expected) :: expect) v

inductive MeetsAt : String → Json → Json → Prop
  | some {path : String} {sub : List (String × Json)} {items : List Json} {item : Json} (hpath : path = "any_match")
      (hitem : item ∈ items) (h : Meets sub item) : MeetsAt path (.obj sub) (.arr items)
  | value {path : String} {expected v w : Json} (hpath : path ≠ "any_match") (hw : resolvePath v path = some w)
      (h : Matches expected w) : MeetsAt path expected v

end

section

variable {p : Printer}

theorem applyOp_of_unknown {op : String} {expected v : Json} (h : Fields.get operators op = none) :
    applyOp p op expected v = .error ("unknown operator: " ++ p.debug op) := by
  unfold applyOp
  rw [h]

theorem applyOp_of_operator {op : String} {expected v : Json} {o : Operator} (h : Fields.get operators op = some o) :
    ∃ why, applyOp p op expected v = .ok (o.holds expected v, why) := by
  unfold applyOp
  rw [h]
  cases o <;> exact ⟨_, rfl⟩

theorem matchOperator_eq_none_iff {ops : List (String × Json)} {v : Json} :
    matchOperator p v ops = none ↔ ∀ op ∈ ops, ∃ o, Fields.get operators op.1 = some o ∧ o.holds op.2 v = true := by
  induction ops with
  | nil => simp [matchOperator]
  | cons op ops ih =>
    rw [List.forall_mem_cons, ← ih, matchOperator]
    cases h : Fields.get operators op.1 with
    | none => simp [applyOp_of_unknown h]
    | some o =>
      obtain ⟨why, hwhy⟩ : ∃ why, applyOp p op.1 op.2 v = .ok (o.holds op.2 v, why) := applyOp_of_operator h
      rw [hwhy]
      cases ho : o.holds op.2 v <;> simp [ho]

theorem matchValue_eq_none_iff {expected v : Json} : matchValue p expected v = none ↔ Matches expected v := by
  cases expected with
  | obj ops => exact matchOperator_eq_none_iff
  | _ =>
    unfold matchValue Matches
    dsimp only
    split_ifs <;> simp_all

theorem evalPath_eq_none_iff {path : String} {expected v : Json} :
    evalPath p path expected v = none ↔ ∃ w, resolvePath v path = some w ∧ Matches expected w := by
  unfold evalPath
  cases hw : resolvePath v path with
  | none => simp
  | some w => simp [matchValue_eq_none_iff]

theorem evalEntry_value {path : String} (hpath : path ≠ "any_match") (expected v : Json) :
    evalEntry p path expected v = none ↔ MeetsAt path expected v := by
  have heq : evalEntry p path expected v = evalPath p path expected v := by
    cases expected <;> simp [evalEntry, hpath]
  rw [heq, evalPath_eq_none_iff]
  constructor
  · rintro ⟨w, hw, h⟩
    exact .value hpath hw h
  · rintro (⟨h, -, -⟩ | ⟨-, hw, h⟩)
    · exact absurd h hpath
    · exact ⟨_, hw, h⟩

/-- `any_match` of what is no mapping, or against what is no list. -/
theorem evalEntry_mismatch {expected v : Json} (h : ∀ sub items, expected = .obj sub → v ≠ .arr items) :
    evalEntry p "any_match" expected v = none ↔ MeetsAt "any_match" expected v := by
  refine iff_of_false ?_ ?_
  · cases expected with
    | obj sub =>
      cases v with
      | arr items => exact absurd rfl (h sub items rfl)
      | _ => simp [evalEntry]
    | _ => simp [evalEntry]
  · rintro (⟨-, -, -⟩ | ⟨hpath, -, -⟩)
    · exact h _ _ rfl rfl
    · exact hpath rfl

theorem evalEntry_some (sub : List (String × Json)) (items : List Json) :
    evalEntry p "any_match" (.obj sub) (.arr items) = none ↔ ∃ item ∈ items, evaluateExpect p sub item = [] := by
  rw [evalEntry, if_pos rfl]
  simp

theorem meetsAt_some_iff {sub : List (String × Json)} {items : List Json} :
    MeetsAt "any_match" (.obj sub) (.arr items) ↔ ∃ item ∈ items, Meets sub item := by
  constructor
  · rintro (⟨-, hitem, h⟩ | ⟨hpath, -, -⟩)
    · exact ⟨_, hitem, h⟩
    · exact absurd rfl hpath
  · rintro ⟨item, hitem, h⟩
    exact .some rfl hitem h

mutual

/-- The failures are none exactly where the value meets what is expected. -/
theorem evaluateExpect_eq_nil_iff : ∀ (expect : List (String × Json)) (v : Json), evaluateExpect p expect v = [] ↔ Meets expect v
  | [], v => ⟨fun _ => .nil, fun _ => by rw [evaluateExpect]⟩
  | (path, expected) :: expect, v => by
    rw [evaluateExpect, List.append_eq_nil_iff, Option.toList_eq_nil_iff, evalEntry_eq_none_iff path expected v,
      evaluateExpect_eq_nil_iff expect v]
    constructor
    · rintro ⟨h, hs⟩
      exact .cons h hs
    · rintro ⟨⟩
      exact ⟨by assumption, by assumption⟩

theorem evalEntry_eq_none_iff (path : String) : ∀ expected v : Json, evalEntry p path expected v = none ↔ MeetsAt path expected v
  | .obj sub, v => by
    by_cases hpath : path = "any_match"
    · subst hpath
      cases v with
      | arr items =>
        rw [evalEntry_some, meetsAt_some_iff]
        exact exists_congr fun item => and_congr_right fun _ => evaluateExpect_eq_nil_iff sub item
      | _ => exact evalEntry_mismatch (by simp)
    · exact evalEntry_value hpath _ v
  | .null, v | .bool _, v | .int _, v | .float _, v | .str _, v | .arr _, v => by
    by_cases hpath : path = "any_match"
    · subst hpath
      exact evalEntry_mismatch (by simp)
    · exact evalEntry_value hpath _ v

end

end

end BssCli.Scenarios
