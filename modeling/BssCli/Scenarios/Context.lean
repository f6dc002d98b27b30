import BssCli.Lib.Fields
import BssCli.Lib.Json
import BssCli.Lib.Lines
import BssCli.Lib.Template

/-!
# Variables of a scenario

`context.rs`: the variables that a scenario has, where they go in the arguments of a step, and what a step captures for the next ones.
-/

open Text Template

namespace BssCli.Scenarios

abbrev Vars := List (String × Json)

/-- The text of a value on one line, and `{:?}` of a text. -/
structure Printer where
  json : Json → List Char
  debug : String → String

/-! ## Interpolation -/

section

variable (p : Printer) (vars : Vars)

/-- A text without its quotes, and everything else as JSON. -/
def valueToString : Json → List Char
  | .str s => s.toList
  | .null => "null".toList
  | .bool b => if b then "true".toList else "false".toList
  | v => p.json v

def undefinedVariable (name : List Char) : String := "undefined scenario variable: " ++ p.debug (String.ofList name)

def resolve (name : List Char) : Except String Json :=
  match Fields.get vars (String.ofList name) with
  | some v => .ok v
  | none => .error (undefinedVariable p name)

/-- Each match in its place as text. -/
def fillPieces : List Piece → Except String (List Char)
  | [] => .ok []
  | .lit c :: ps => (fillPieces ps).map (c :: ·)
  | .var name :: ps => do
    let v ← resolve p vars name
    let rest ← fillPieces ps
    .ok (valueToString p v ++ rest)

/-- A text that is one placeholder, but for blanks around it, is the value itself. -/
def interpolateStr (s : List Char) : Except String Json :=
  match matchAt (trim s) with
  | some (name, []) => resolve p vars name
  | _ => (fillPieces p vars (parse s)).map fun out => .str (String.ofList out)

mutual

def interpolate : Json → Except String Json
  | .str s => interpolateStr p vars s.toList
  | .arr values => (interpolateValues values).map .arr
  | .obj fields => (interpolateFields fields).map .obj
  | .null => .ok .null
  | .bool b => .ok (.bool b)
  | .int n => .ok (.int n)
  | .float x => .ok (.float x)

def interpolateValues : List Json → Except String (List Json)
  | [] => .ok []
  | v :: values => do
    let w ← interpolate v
    let ws ← interpolateValues values
    .ok (w :: ws)

def interpolateFields : List (String × Json) → Except String (List (String × Json))
  | [] => .ok []
  | (k, v) :: fields => do
    let w ← interpolate v
    let ws ← interpolateFields fields
    .ok ((k, w) :: ws)

end

/-! ## What it means -/

mutual

/-- The value with the variables in their places. Keys and what is no text stay as they are. -/
inductive Filled : Json → Json → Prop
  | whole {s : String} {name : List Char} {v : Json} (hs : Placeholder name (trim s.toList))
      (hv : Fields.get vars (String.ofList name) = some v) : Filled (.str s) v
  | text {s : String} {w : Written} {f : List Char → List Char} (hw : w.Sound) (hs : w.text = s.toList)
      (hnot : ∀ name, ¬ Placeholder name (trim s.toList))
      (hf : ∀ name ∈ w.names, ∃ v, Fields.get vars (String.ofList name) = some v ∧ f name = valueToString p v) :
      Filled (.str s) (.str (String.ofList (w.fill f)))
  | arr {values ws : List Json} (h : FilledValues values ws) : Filled (.arr values) (.arr ws)
  | obj {fields ws : List (String × Json)} (h : FilledFields fields ws) : Filled (.obj fields) (.obj ws)
  | null : Filled .null .null
  | bool (b : Bool) : Filled (.bool b) (.bool b)
  | int (n : ℤ) : Filled (.int n) (.int n)
  | float (x : ℚ) : Filled (.float x) (.float x)

inductive FilledValues : List Json → List Json → Prop
  | nil : FilledValues [] []
  | cons {v w : Json} {vs ws : List Json} (h : Filled v w) (hs : FilledValues vs ws) : FilledValues (v :: vs) (w :: ws)

inductive FilledFields : List (String × Json) → List (String × Json) → Prop
  | nil : FilledFields [] []
  | cons {k : String} {v w : Json} {vs ws : List (String × Json)} (h : Filled v w) (hs : FilledFields vs ws) :
      FilledFields ((k, v) :: vs) ((k, w) :: ws)

end

mutual

/-- The names in a value, in reading order. -/
def mentions : Json → List (List Char)
  | .str s => names s.toList
  | .arr values => mentionsValues values
  | .obj fields => mentionsFields fields
  | .null | .bool _ | .int _ | .float _ => []

def mentionsValues : List Json → List (List Char)
  | [] => []
  | v :: values => mentions v ++ mentionsValues values

def mentionsFields : List (String × Json) → List (List Char)
  | [] => []
  | (_, v) :: fields => mentions v ++ mentionsFields fields

end

def Unbound (name : List Char) : Prop := Fields.get vars (String.ofList name) = none

instance (name : List Char) : Decidable (Unbound vars name) := decidable_of_iff (_ = true) Option.isNone_iff_eq_none

def firstUnbound (ns : List (List Char)) : Option (List Char) := ns.find? fun name => Unbound vars name

end

/-! ## Texts -/

section

variable {p : Printer} {vars : Vars}

theorem exists_blanks (s : List Char) :
    ∃ a b, (∀ c ∈ a, isWhitespace c = true) ∧ (∀ c ∈ b, isWhitespace c = true) ∧ s = a ++ (trim s ++ b) := by
  refine ⟨s.takeWhile isWhitespace, (s.dropWhile isWhitespace).rtakeWhile isWhitespace,
    fun c hc => List.mem_takeWhile_imp hc, fun c hc => List.mem_rtakeWhile_imp hc, ?_⟩
  have hback : ∀ t : List Char, t.rdropWhile isWhitespace ++ t.rtakeWhile isWhitespace = t := by
    intro t
    unfold List.rdropWhile List.rtakeWhile
    rw [← List.reverse_append, List.takeWhile_append_dropWhile, List.reverse_reverse]
  rw [trim_eq_rdropWhile, hback, List.takeWhile_append_dropWhile]

theorem matchAt_trim_iff {s name : List Char} : matchAt (trim s) = some (name, []) ↔ Placeholder name (trim s) := by
  rw [matchAt_eq_some_iff]
  constructor
  · rintro ⟨text, htext, heq⟩
    rwa [heq, List.append_nil]
  · intro h
    exact ⟨_, h, (List.append_nil _).symm⟩

theorem names_of_whole {s name : List Char} (h : Placeholder name (trim s)) : names s = [name] := by
  obtain ⟨a, b, ha, hb, hs⟩ := exists_blanks s
  have hparse := parse_blanks h ha hb
  rw [← hs] at hparse
  unfold names
  rw [hparse, List.filterMap_append, filterMap_lits, List.nil_append, List.filterMap_cons, filterMap_lits]
  rfl

theorem fillPieces_lits (lit : List Char) (ps : List Piece) :
    fillPieces p vars (lit.map .lit ++ ps) = (fillPieces p vars ps).map (lit ++ ·) := by
  induction lit with
  | nil =>
    show fillPieces p vars ps = _
    cases fillPieces p vars ps <;> rfl
  | cons c lit ih =>
    rw [List.map_cons, List.cons_append, fillPieces, ih]
    cases fillPieces p vars ps <;> rfl

theorem fillPieces_var {name : List Char} {v : Json} (hv : Fields.get vars (String.ofList name) = some v) (ps : List Piece) :
    fillPieces p vars (.var name :: ps) = (fillPieces p vars ps).map (valueToString p v ++ ·) := by
  rw [fillPieces, resolve, hv]
  cases fillPieces p vars ps <;> rfl

/-- With every name bound the text is filled as it is written. -/
theorem fillPieces_written {w : Written} {f : List Char → List Char}
    (hf : ∀ name ∈ w.names, ∃ v, Fields.get vars (String.ofList name) = some v ∧ f name = valueToString p v) :
    fillPieces p vars w.pieces = .ok (w.fill f) := by
  obtain ⟨first, rest⟩ := w
  unfold Written.pieces Written.fill
  rw [fillPieces_lits]
  suffices h : fillPieces p vars (rest.flatMap fun e => .var e.1 :: e.2.2.map .lit) =
      .ok (rest.flatMap fun e => f e.1 ++ e.2.2) by
    rw [h]
    rfl
  unfold Written.names at hf
  dsimp only at hf
  induction rest with
  | nil => rfl
  | cons e rest ih =>
    rw [List.map_cons, List.forall_mem_cons] at hf
    obtain ⟨⟨v, hv, hfv⟩, hf⟩ := hf
    rw [List.flatMap_cons, List.cons_append, fillPieces_var hv, fillPieces_lits, ih hf, List.flatMap_cons, hfv, List.append_assoc]
    rfl

theorem firstUnbound_cons_none {name : List Char} (h : Fields.get vars (String.ofList name) = none) (ns : List (List Char)) :
    firstUnbound vars (name :: ns) = some name := List.find?_cons_of_pos (decide_eq_true (show Unbound vars name from h))

theorem firstUnbound_cons_some {name : List Char} {v : Json} (h : Fields.get vars (String.ofList name) = some v)
    (ns : List (List Char)) : firstUnbound vars (name :: ns) = firstUnbound vars ns :=
  List.find?_cons_of_neg (by simp [Unbound, h])

/-- The first name that is not bound stops it. -/
theorem fillPieces_unbound {name : List Char} {ps : List Piece}
    (h : firstUnbound vars (ps.filterMap Piece.name?) = some name) :
    fillPieces p vars ps = .error (undefinedVariable p name) := by
  induction ps with
  | nil => cases h
  | cons q ps ih =>
    cases q with
    | lit c =>
      rw [fillPieces, ih h]
      rfl
    | var name' =>
      rw [List.filterMap_cons_some (show Piece.name? (.var name') = some name' from rfl)] at h
      cases hv : Fields.get vars (String.ofList name') with
      | none =>
        rw [firstUnbound_cons_none hv] at h
        obtain rfl := Option.some.inj h
        rw [fillPieces, resolve, hv]
        rfl
      | some v =>
        rw [firstUnbound_cons_some hv] at h
        rw [fillPieces_var hv, ih h]
        rfl

/-! ## Values -/

/-- What is expected of a result: the error of the first name that is not bound, or a value with `R`. -/
def Expected (p : Printer) (vars : Vars) {α : Type} (ns : List (List Char)) (R : α → Prop) (r : Except String α) : Prop :=
  match firstUnbound vars ns with
  | some name => r = .error (undefinedVariable p name)
  | none => ∃ w, r = .ok w ∧ R w

theorem firstUnbound_append (ns ms : List (List Char)) :
    firstUnbound vars (ns ++ ms) = (firstUnbound vars ns).or (firstUnbound vars ms) := List.find?_append

theorem Expected.bind {α β γ : Type} {ns ms : List (List Char)} {R : α → Prop} {S : β → Prop} {T : γ → Prop} {r : Except String α}
    {s : Except String β} {g : α → β → γ} (hr : Expected p vars ns R r) (hs : Expected p vars ms S s)
    (hT : ∀ a b, R a → S b → T (g a b)) :
    Expected p vars (ns ++ ms) T (r.bind fun a => s.bind fun b => .ok (g a b)) := by
  unfold Expected at *
  rw [firstUnbound_append]
  cases hn : firstUnbound vars ns with
  | some name =>
    rw [hn] at hr
    rw [hr]
    rfl
  | none =>
    rw [hn] at hr
    obtain ⟨a, rfl, ha⟩ := hr
    cases hm : firstUnbound vars ms with
    | some name =>
      rw [hm] at hs
      rw [hs]
      rfl
    | none =>
      rw [hm] at hs
      obtain ⟨b, rfl, hb⟩ := hs
      exact ⟨g a b, rfl, hT a b ha hb⟩

theorem Expected.map {α β : Type} {ns : List (List Char)} {R : α → Prop} {S : β → Prop} {r : Except String α} {g : α → β}
    (hr : Expected p vars ns R r) (hS : ∀ a, R a → S (g a)) : Expected p vars ns S (r.map g) := by
  unfold Expected at *
  cases hn : firstUnbound vars ns with
  | some name =>
    rw [hn] at hr
    rw [hr]
    rfl
  | none =>
    rw [hn] at hr
    obtain ⟨a, rfl, ha⟩ := hr
    exact ⟨g a, rfl, hS a ha⟩

theorem expected_interpolateStr (s : String) :
    Expected p vars (names s.toList) (Filled p vars (.str s)) (interpolateStr p vars s.toList) := by
  unfold Expected interpolateStr
  by_cases hwhole : ∃ name, Placeholder name (trim s.toList)
  · obtain ⟨name, hname⟩ := hwhole
    rw [names_of_whole hname, matchAt_trim_iff.mpr hname]
    dsimp only
    unfold resolve
    cases hv : Fields.get vars (String.ofList name) with
    | none => rw [firstUnbound_cons_none hv]
    | some v =>
      rw [firstUnbound_cons_some hv]
      exact ⟨v, rfl, .whole hname hv⟩
  · rw [not_exists] at hwhole
    have hmatch : ∀ name, matchAt (trim s.toList) ≠ some (name, []) := fun name h => hwhole name (matchAt_trim_iff.mp h)
    have hpieces : (match matchAt (trim s.toList) with
        | some (name, []) => resolve p vars name
        | _ => (fillPieces p vars (parse s.toList)).map fun out => .str (String.ofList out)) =
        (fillPieces p vars (parse s.toList)).map fun out => .str (String.ofList out) := by
      split
      · rename_i name hname
        exact absurd hname (hmatch name)
      · rfl
    rw [hpieces]
    cases hunbound : firstUnbound vars (names s.toList) with
    | some name =>
      dsimp only
      rw [fillPieces_unbound hunbound]
      rfl
    | none =>
      obtain ⟨w, hw, htext⟩ := exists_written s.toList
      have hbound : ∀ name ∈ w.names, ∃ v, Fields.get vars (String.ofList name) = some v := by
        intro name hname
        rw [← names_text hw, htext] at hname
        have hnot := List.find?_eq_none.mp hunbound name hname
        exact Option.ne_none_iff_exists'.mp fun hv => hnot (decide_eq_true hv)
      have hf : ∀ name ∈ w.names, ∃ v, Fields.get vars (String.ofList name) = some v ∧
          (fun name => valueToString p ((Fields.get vars (String.ofList name)).getD .null)) name = valueToString p v := by
        intro name hname
        obtain ⟨v, hv⟩ := hbound name hname
        exact ⟨v, hv, by simp [hv]⟩
      refine ⟨_, ?_, .text hw htext hwhole hf⟩
      rw [← htext, parse_text hw, fillPieces_written hf]
      rfl

mutual

theorem expected_interpolate : ∀ v : Json, Expected p vars (mentions v) (Filled p vars v) (interpolate p vars v)
  | .str s => by
    unfold mentions interpolate
    exact expected_interpolateStr s
  | .arr values => by
    unfold mentions interpolate
    exact (expected_interpolateValues values).map fun _ h => .arr h
  | .obj fields => by
    unfold mentions interpolate
    exact (expected_interpolateFields fields).map fun _ h => .obj h
  | .null => ⟨_, rfl, .null⟩
  | .bool b => ⟨_, rfl, .bool b⟩
  | .int n => ⟨_, rfl, .int n⟩
  | .float x => ⟨_, rfl, .float x⟩

theorem expected_interpolateValues : ∀ values : List Json,
    Expected p vars (mentionsValues values) (FilledValues p vars values) (interpolateValues p vars values)
  | [] => ⟨_, rfl, .nil⟩
  | v :: values => by
    unfold mentionsValues interpolateValues
    exact (expected_interpolate v).bind (expected_interpolateValues values) fun _ _ h hs => .cons h hs

theorem expected_interpolateFields : ∀ fields : List (String × Json),
    Expected p vars (mentionsFields fields) (FilledFields p vars fields) (interpolateFields p vars fields)
  | [] => ⟨_, rfl, .nil⟩
  | (k, v) :: fields => by
    unfold mentionsFields interpolateFields
    exact (expected_interpolate v).bind (expected_interpolateFields fields) fun _ _ h hs => .cons h hs

end

mutual

/-- There is only one way to fill a value. -/
theorem interpolate_of_filled : ∀ {v w : Json}, Filled p vars v w → interpolate p vars v = .ok w
  | _, _, .whole hs hv => by
    unfold interpolate interpolateStr resolve
    rw [matchAt_trim_iff.mpr hs]
    dsimp only
    rw [hv]
  | _, _, .text (s := s) hw hs hnot hf => by
    unfold interpolate interpolateStr
    rw [← hs] at hnot ⊢
    split
    · rename_i name hname
      exact absurd (matchAt_trim_iff.mp hname) (hnot name)
    · rw [parse_text hw, fillPieces_written hf]
      rfl
  | _, _, .arr h => by
    unfold interpolate
    rw [interpolateValues_of_filled h]
    rfl
  | _, _, .obj h => by
    unfold interpolate
    rw [interpolateFields_of_filled h]
    rfl
  | _, _, .null => rfl
  | _, _, .bool _ => rfl
  | _, _, .int _ => rfl
  | _, _, .float _ => rfl

theorem interpolateValues_of_filled : ∀ {vs ws : List Json}, FilledValues p vars vs ws → interpolateValues p vars vs = .ok ws
  | _, _, .nil => rfl
  | _, _, .cons h hs => by
    unfold interpolateValues
    rw [interpolate_of_filled h, interpolateValues_of_filled hs]
    rfl

theorem interpolateFields_of_filled : ∀ {vs ws : List (String × Json)}, FilledFields p vars vs ws →
    interpolateFields p vars vs = .ok ws
  | _, _, .nil => rfl
  | _, _, .cons h hs => by
    unfold interpolateFields
    rw [interpolate_of_filled h, interpolateFields_of_filled hs]
    rfl

end

theorem interpolate_eq_ok_iff {v w : Json} : interpolate p vars v = .ok w ↔ Filled p vars v w := by
  refine ⟨fun h => ?_, interpolate_of_filled⟩
  have hexpected : Expected p vars (mentions v) (Filled p vars v) (interpolate p vars v) := expected_interpolate v
  unfold Expected at hexpected
  split at hexpected
  · rw [h] at hexpected
    cases hexpected
  · obtain ⟨w', hw', hfilled⟩ := hexpected
    rw [h] at hw'
    exact Except.ok.inj hw' ▸ hfilled

theorem interpolate_eq_error_iff {v : Json} {e : String} :
    interpolate p vars v = .error e ↔ ∃ name, firstUnbound vars (mentions v) = some name ∧ e = undefinedVariable p name := by
  have hexpected : Expected p vars (mentions v) (Filled p vars v) (interpolate p vars v) := expected_interpolate v
  unfold Expected at hexpected
  split at hexpected
  · rename_i name hname
    rw [hexpected, hname]
    simp [eq_comm]
  · rename_i hname
    obtain ⟨w', hw', -⟩ := hexpected
    rw [hw', hname]
    simp

/-- What goes into a step is the value with every variable in its place, and it goes wrong at the first name that is not bound. -/
theorem interpolation_is_exact (p : Printer) (vars : Vars) (v : Json) :
    (∀ w, interpolate p vars v = .ok w ↔ Filled p vars v w) ∧
      ∀ e, interpolate p vars v = .error e ↔
        ∃ name, firstUnbound vars (mentions v) = some name ∧ e = undefinedVariable p name :=
  ⟨fun _ => interpolate_eq_ok_iff, fun _ => interpolate_eq_error_iff⟩

end

end BssCli.Scenarios
