import BssCli.Lib.Json

/-!
# Documents rewritten under some of their keys

A rule says which values are replaced, by their key. What two documents have to agree on for the rewritten ones to agree.
-/

namespace Json

/-! ## Equal but for some values -/

mutual

/-- The documents are equal, except that values under one key may be related by `R` instead. -/
def UpTo (R : String → Json → Json → Prop) : Json → Json → Prop
  | .obj fields, w => ∃ fields', w = .obj fields' ∧ FieldsUpTo R fields fields'
  | .arr values, w => ∃ values', w = .arr values' ∧ ValuesUpTo R values values'
  | .null, w => w = .null
  | .bool b, w => w = .bool b
  | .int n, w => w = .int n
  | .float x, w => w = .float x
  | .str s, w => w = .str s

def FieldsUpTo (R : String → Json → Json → Prop) : List (String × Json) → List (String × Json) → Prop
  | [], fields' => fields' = []
  | (k, v) :: fields, fields' =>
    ∃ w rest, fields' = (k, w) :: rest ∧ (R k v w ∨ UpTo R v w) ∧ FieldsUpTo R fields rest

def ValuesUpTo (R : String → Json → Json → Prop) : List Json → List Json → Prop
  | [], values' => values' = []
  | v :: values, values' => ∃ w rest, values' = w :: rest ∧ UpTo R v w ∧ ValuesUpTo R values rest

end

/-! ## Rewriting -/

mutual

/-- The rule replaces a value under a key, or lets the walk go on into it. -/
def rewrite (f : String → Json → Option Json) : Json → Json
  | .obj fields => .obj (rewriteFields f fields)
  | .arr values => .arr (rewriteValues f values)
  | .null => .null
  | .bool b => .bool b
  | .int n => .int n
  | .float x => .float x
  | .str s => .str s

def rewriteFields (f : String → Json → Option Json) : List (String × Json) → List (String × Json)
  | [] => []
  | (k, v) :: fields => (k, (f k v).getD (rewrite f v)) :: rewriteFields f fields

def rewriteValues (f : String → Json → Option Json) : List Json → List Json
  | [] => []
  | v :: values => rewrite f v :: rewriteValues f values

end

variable {R S : String → Json → Json → Prop} {f : String → Json → Option Json}

mutual

/-- Outside the values that the rule replaces a document stays as it is. -/
theorem upTo_rewrite (h : ∀ k v w, f k v = some w → R k v w) : ∀ v : Json, UpTo R v (rewrite f v)
  | .obj fields => by
    unfold UpTo rewrite
    exact ⟨_, rfl, fieldsUpTo_rewrite h fields⟩
  | .arr values => by
    unfold UpTo rewrite
    exact ⟨_, rfl, valuesUpTo_rewrite h values⟩
  | .null | .bool _ | .int _ | .float _ | .str _ => by
    simp [UpTo, rewrite]

theorem fieldsUpTo_rewrite (h : ∀ k v w, f k v = some w → R k v w) :
    ∀ fields : List (String × Json), FieldsUpTo R fields (rewriteFields f fields)
  | [] => by
    simp [FieldsUpTo, rewriteFields]
  | (k, v) :: fields => by
    unfold FieldsUpTo rewriteFields
    refine ⟨_, _, rfl, ?_, fieldsUpTo_rewrite h fields⟩
    cases hf : f k v with
    | none => exact .inr (upTo_rewrite h v)
    | some w => exact .inl (h k v w hf)

theorem valuesUpTo_rewrite (h : ∀ k v w, f k v = some w → R k v w) :
    ∀ values : List Json, ValuesUpTo R values (rewriteValues f values)
  | [] => by
    simp [ValuesUpTo, rewriteValues]
  | v :: values => by
    unfold ValuesUpTo rewriteValues
    exact ⟨_, _, rfl, upTo_rewrite h v, valuesUpTo_rewrite h values⟩

end

mutual

theorem upTo_false : ∀ {v w : Json}, UpTo (fun _ _ _ => False) v w ↔ v = w
  | .obj fields, w => by
    unfold UpTo
    simp only [fieldsUpTo_false]
    exact ⟨fun ⟨_, hw, h⟩ => h ▸ hw.symm, fun h => ⟨fields, h.symm, rfl⟩⟩
  | .arr values, w => by
    unfold UpTo
    simp only [valuesUpTo_false]
    exact ⟨fun ⟨_, hw, h⟩ => h ▸ hw.symm, fun h => ⟨values, h.symm, rfl⟩⟩
  | .null, w | .bool _, w | .int _, w | .float _, w | .str _, w => by
    unfold UpTo
    exact eq_comm

theorem fieldsUpTo_false : ∀ {fields fields' : List (String × Json)},
    FieldsUpTo (fun _ _ _ => False) fields fields' ↔ fields = fields'
  | [], fields' => by
    unfold FieldsUpTo
    exact eq_comm
  | (k, v) :: fields, fields' => by
    unfold FieldsUpTo
    simp only [false_or, upTo_false, fieldsUpTo_false]
    constructor
    · rintro ⟨w, rest, rfl, rfl, rfl⟩
      rfl
    · intro h
      exact ⟨v, fields, h.symm, rfl, rfl⟩

theorem valuesUpTo_false : ∀ {values values' : List Json},
    ValuesUpTo (fun _ _ _ => False) values values' ↔ values = values'
  | [], values' => by
    unfold ValuesUpTo
    exact eq_comm
  | v :: values, values' => by
    unfold ValuesUpTo
    simp only [upTo_false, valuesUpTo_false]
    constructor
    · rintro ⟨w, rest, rfl, rfl, rfl⟩
      rfl
    · intro h
      exact ⟨v, values, h.symm, rfl, rfl⟩

end

/-- What the rule makes of two values under one key agrees exactly when the values are related or agree further inside. -/
def Decides (f : String → Json → Option Json) (R S : String → Json → Json → Prop) : Prop :=
  ∀ k v w, (S k ((f k v).getD (rewrite f v)) ((f k w).getD (rewrite f w)) ∨
      UpTo S ((f k v).getD (rewrite f v)) ((f k w).getD (rewrite f w))) ↔
    (R k v w ∨ UpTo S (rewrite f v) (rewrite f w))

mutual

/-- The rewritten documents agree exactly when the documents do. -/
theorem rewrite_upTo_iff (h : Decides f R S) :
    ∀ v w : Json, UpTo S (rewrite f v) (rewrite f w) ↔ UpTo R v w
  | .obj fields, w => by
    unfold UpTo
    cases w with
    | obj fields' => simp [rewrite, ← rewriteFields_upTo_iff h fields]
    | _ => simp [rewrite]
  | .arr values, w => by
    unfold UpTo
    cases w with
    | arr values' => simp [rewrite, ← rewriteValues_upTo_iff h values]
    | _ => simp [rewrite]
  | .null, w | .bool _, w | .int _, w | .float _, w | .str _, w => by
    cases w <;> simp [UpTo, rewrite]

theorem rewriteFields_upTo_iff (h : Decides f R S) :
    ∀ fields fields' : List (String × Json),
      FieldsUpTo S (rewriteFields f fields) (rewriteFields f fields') ↔ FieldsUpTo R fields fields'
  | [], fields' => by
    cases fields' <;> simp [FieldsUpTo, rewriteFields]
  | (k, v) :: fields, [] => by
    simp [FieldsUpTo, rewriteFields]
  | (k, v) :: fields, (k', w) :: fields' => by
    have hv := h k v w
    rw [rewrite_upTo_iff h v w] at hv
    have hrest := rewriteFields_upTo_iff h fields fields'
    simp only [FieldsUpTo, rewriteFields, List.cons.injEq, Prod.mk.injEq]
    constructor
    · rintro ⟨_, _, ⟨⟨rfl, rfl⟩, rfl⟩, hfirst, hfields⟩
      exact ⟨w, fields', ⟨⟨rfl, rfl⟩, rfl⟩, hv.mp hfirst, hrest.mp hfields⟩
    · rintro ⟨_, _, ⟨⟨rfl, rfl⟩, rfl⟩, hfirst, hfields⟩
      exact ⟨_, _, ⟨⟨rfl, rfl⟩, rfl⟩, hv.mpr hfirst, hrest.mpr hfields⟩

theorem rewriteValues_upTo_iff (h : Decides f R S) :
    ∀ values values' : List Json,
      ValuesUpTo S (rewriteValues f values) (rewriteValues f values') ↔ ValuesUpTo R values values'
  | [], values' => by
    cases values' <;> simp [ValuesUpTo, rewriteValues]
  | v :: values, [] => by
    simp [ValuesUpTo, rewriteValues]
  | v :: values, w :: values' => by
    have hv := rewrite_upTo_iff h v w
    have hrest := rewriteValues_upTo_iff h values values'
    simp only [ValuesUpTo, rewriteValues, List.cons.injEq]
    constructor
    · rintro ⟨_, _, ⟨rfl, rfl⟩, hfirst, hvalues⟩
      exact ⟨w, values', ⟨rfl, rfl⟩, hv.mp hfirst, hrest.mp hvalues⟩
    · rintro ⟨_, _, ⟨rfl, rfl⟩, hfirst, hvalues⟩
      exact ⟨_, _, ⟨rfl, rfl⟩, hv.mpr hfirst, hrest.mpr hvalues⟩

end

end Json
