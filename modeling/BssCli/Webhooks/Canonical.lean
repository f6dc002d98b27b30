import BssCli.Lib.JsonText
import BssCli.Webhooks.Didit
import Mathlib.Data.List.Perm.Basic

/-!
# The canonical text of a Didit body

What `X-Signature-V2` signs: the text of the body after `canonicalize_didit`. Two bodies have the same one when they differ in
the order of keys, or in how an integer that fits an `i64` is written. The reader is the JSON library's, and blanks end with it.
`-0.0` is the float 0: both become the integer.
-/

open Json

namespace BssCli.Webhooks

/-- A `serde_json::Value`. -/
abbrev Value := {v : Json // v.WellFormed}

mutual

/-- Equal up to the order of keys, and up to writing an integer of `loose` as a float. -/
def Same (loose : ℤ → Prop) : Json → Json → Prop
  | .obj fields, w =>
    ∃ fields' fields'', w = .obj fields'' ∧ fields'.Perm fields'' ∧ SameFields loose fields fields'
  | .arr values, w => ∃ values', w = .arr values' ∧ SameValues loose values values'
  | .int n, w => w = .int n ∨ (loose n ∧ w = .float n)
  | .float x, w => w = .float x ∨ ∃ n : ℤ, loose n ∧ x = n ∧ w = .int n
  | .null, w => w = .null
  | .bool b, w => w = .bool b
  | .str s, w => w = .str s

def SameFields (loose : ℤ → Prop) : List (String × Json) → List (String × Json) → Prop
  | [], fields' => fields' = []
  | (k, v) :: fields, fields' => ∃ w rest, fields' = (k, w) :: rest ∧ Same loose v w ∧ SameFields loose fields rest

def SameValues (loose : ℤ → Prop) : List Json → List Json → Prop
  | [], values' => values' = []
  | v :: values, values' => ∃ w rest, values' = w :: rest ∧ Same loose v w ∧ SameValues loose values rest

end

/-- `i64::MIN as f64 <= f < i64::MAX as f64` -/
def FitsI64 (n : ℤ) : Prop := -2 ^ 63 ≤ n ∧ n < 2 ^ 63

/-! ## Fields -/

theorem canonicalizeFields_eq_map (fields : List (String × Json)) :
    canonicalizeFields fields = fields.map fun field => (field.1, canonicalizeDidit field.2) := by
  induction fields with
  | nil => rfl
  | cons field fields ih =>
    rw [canonicalizeFields, ih]
    rfl

theorem canonicalizeFields_keys (fields : List (String × Json)) :
    (canonicalizeFields fields).map Prod.fst = fields.map Prod.fst := by
  rw [canonicalizeFields_eq_map, List.map_map]
  rfl

theorem fieldsWellFormed_iff {fields : List (String × Json)} :
    FieldsWellFormed fields ↔ ∀ field ∈ fields, field.2.WellFormed := by
  induction fields with
  | nil => exact iff_of_true trivial fun _ h => by cases h
  | cons field fields ih => rw [FieldsWellFormed, ih, List.forall_mem_cons]

theorem fieldsWellFormed_of_perm {fields fields' : List (String × Json)} (h : FieldsWellFormed fields)
    (hperm : fields'.Perm fields) : FieldsWellFormed fields' :=
  fieldsWellFormed_iff.mpr fun field hfield => fieldsWellFormed_iff.mp h field (hperm.mem_iff.mp hfield)

def keyLe (a b : String × Json) : Bool := a.1 ≤ b.1

theorem keyLe_iff {a b : String × Json} : keyLe a b = true ↔ a.1 ≤ b.1 := decide_eq_true_iff

theorem sorted_byKey (fields : List (String × Json)) : (fields.mergeSort keyLe).Pairwise (keyLe · ·) := by
  refine List.pairwise_mergeSort (fun a b c hab hbc => ?_) (fun a b => ?_) fields
  · exact decide_eq_true (String.le_trans (keyLe_iff.mp hab) (keyLe_iff.mp hbc))
  · rw [Bool.or_eq_true, keyLe_iff, keyLe_iff]
    exact String.le_total a.1 b.1

theorem perm_of_mergeSort_eq {fields fields' : List (String × Json)}
    (h : fields.mergeSort keyLe = fields'.mergeSort keyLe) : fields.Perm fields' := by
  have hsorted := (List.mergeSort_perm fields keyLe).symm
  rw [h] at hsorted
  exact hsorted.trans (List.mergeSort_perm fields' keyLe)

/-- No key stands twice, so that the order is lost. -/
theorem mergeSort_eq_of_perm {fields fields' : List (String × Json)} (hkeys : (fields.map Prod.fst).Nodup)
    (hperm : fields.Perm fields') : fields.mergeSort keyLe = fields'.mergeSort keyLe := by
  refine List.Perm.eq_of_pairwise (fun a b ha hb hab hba => ?_) (sorted_byKey fields) (sorted_byKey fields')
    ((List.mergeSort_perm fields _).trans (hperm.trans (List.mergeSort_perm fields' _).symm))
  have hkey : a.1 = b.1 := String.le_antisymm (keyLe_iff.mp hab) (keyLe_iff.mp hba)
  have ha' := (List.mergeSort_perm fields _).mem_iff.mp ha
  have hb' := hperm.mem_iff.mpr ((List.mergeSort_perm fields' _).mem_iff.mp hb)
  exact List.inj_on_of_nodup_map hkeys ha' hb' hkey

/-- A list that is a mapped one in another order is one in another order, mapped. -/
theorem exists_perm_of_map {α β : Type*} {f : α → β} {l : List β} {m : List α} (h : l.Perm (m.map f)) :
    ∃ m' : List α, l = m'.map f ∧ m'.Perm m :=
  (congrFun (congrFun (List.eq_map_comp_perm f) l) m).mpr h

theorem canonicalizeDidit_obj (fields : List (String × Json)) :
    canonicalizeDidit (.obj fields) = .obj ((canonicalizeFields fields).mergeSort keyLe) := by
  rw [canonicalizeDidit]
  rfl

theorem canonicalizeDidit_float (x : ℚ) :
    (∃ n : ℤ, FitsI64 n ∧ x = n ∧ canonicalizeDidit (.float x) = .int n) ∨
      ((∀ n : ℤ, FitsI64 n → x ≠ n) ∧ canonicalizeDidit (.float x) = .float x) := by
  rw [canonicalizeDidit]
  split
  · rename_i h
    obtain ⟨hx, hlow, hhigh⟩ := h
    refine .inl ⟨⌊x⌋, ⟨?_, ?_⟩, hx, rfl⟩
    · exact Int.le_floor.mpr (by push_cast; exact hlow)
    · exact Int.floor_lt.mpr (by push_cast; exact hhigh)
  · rename_i h
    refine .inr ⟨?_, rfl⟩
    rintro n ⟨hlow, hhigh⟩ rfl
    rw [Int.floor_intCast] at h
    exact h ⟨rfl, by exact_mod_cast hlow, by exact_mod_cast hhigh⟩

theorem canonicalizeDidit_lead (v : Json) : (canonicalizeDidit v).lead = v.lead := by
  cases v with
  | obj fields =>
    rw [canonicalizeDidit_obj]
    rfl
  | arr values =>
    rw [canonicalizeDidit]
    rfl
  | float x =>
    rcases canonicalizeDidit_float x with ⟨n, -, -, h⟩ | ⟨-, h⟩
    · rw [h]
      rfl
    · rw [h]
  | _ => rw [canonicalizeDidit]

theorem lead_of_canonicalizeDidit_eq {v w : Json} (h : canonicalizeDidit v = canonicalizeDidit w) : v.lead = w.lead := by
  rw [← canonicalizeDidit_lead v, h, canonicalizeDidit_lead]

theorem canonicalizeDidit_int (n : ℤ) : canonicalizeDidit (.int n) = .int n := by
  rw [canonicalizeDidit]

/-! ## Which bodies have the same canonical value -/

mutual

theorem same_of_canonicalizeDidit_eq : ∀ {v w : Json}, canonicalizeDidit v = canonicalizeDidit w → Same FitsI64 v w
  | .obj fields, w, h => by
    have hlead := lead_of_canonicalizeDidit_eq h
    cases w with
    | obj fields' =>
      rw [canonicalizeDidit_obj, canonicalizeDidit_obj] at h
      have hsorted := perm_of_mergeSort_eq (obj.inj h)
      rw [canonicalizeFields_eq_map fields'] at hsorted
      obtain ⟨middle, hmiddle, hperm⟩ := exists_perm_of_map hsorted
      rw [← canonicalizeFields_eq_map] at hmiddle
      exact ⟨middle, fields', rfl, hperm, sameFields_of_canonicalizeFields_eq hmiddle⟩
    | bool b => cases b <;> cases hlead
    | _ => cases hlead
  | .arr values, w, h => by
    have hlead := lead_of_canonicalizeDidit_eq h
    cases w with
    | arr values' =>
      rw [canonicalizeDidit, canonicalizeDidit] at h
      exact ⟨values', rfl, sameValues_of_canonicalizeValues_eq (arr.inj h)⟩
    | bool b => cases b <;> cases hlead
    | _ => cases hlead
  | .int n, w, h => by
    have hlead := lead_of_canonicalizeDidit_eq h
    cases w with
    | int m =>
      rw [canonicalizeDidit_int, canonicalizeDidit_int] at h
      exact .inl h.symm
    | float y =>
      rw [canonicalizeDidit_int] at h
      rcases canonicalizeDidit_float y with ⟨m, hfits, rfl, hm⟩ | ⟨-, hm⟩
      · obtain rfl := int.inj (h.trans hm)
        exact .inr ⟨hfits, rfl⟩
      · cases h.trans hm
    | bool b => cases b <;> cases hlead
    | _ => cases hlead
  | .float x, w, h => by
    have hlead := lead_of_canonicalizeDidit_eq h
    cases w with
    | int m =>
      rw [canonicalizeDidit_int] at h
      rcases canonicalizeDidit_float x with ⟨n, hfits, rfl, hn⟩ | ⟨-, hn⟩
      · obtain rfl := int.inj (hn.symm.trans h)
        exact .inr ⟨n, hfits, rfl, rfl⟩
      · cases hn.symm.trans h
    | float y =>
      rcases canonicalizeDidit_float x with ⟨n, -, rfl, hn⟩ | ⟨-, hn⟩ <;>
        rcases canonicalizeDidit_float y with ⟨m, -, rfl, hm⟩ | ⟨-, hm⟩ <;>
        have heq := hn.symm.trans (h.trans hm)
      · obtain rfl := int.inj heq
        exact .inl rfl
      · cases heq
      · cases heq
      · exact .inl heq.symm
    | bool b => cases b <;> cases hlead
    | _ => cases hlead
  | .null, w, h => by
    have hlead := lead_of_canonicalizeDidit_eq h
    cases w with
    | null => rfl
    | bool b => cases b <;> cases hlead
    | _ => cases hlead
  | .bool b, w, h => by
    have hlead := lead_of_canonicalizeDidit_eq h
    cases w with
    | bool b' => cases b <;> cases b' <;> first | rfl | cases hlead
    | _ => cases b <;> cases hlead
  | .str s, w, h => by
    have hlead := lead_of_canonicalizeDidit_eq h
    cases w with
    | str t =>
      rw [canonicalizeDidit, canonicalizeDidit] at h
      exact h.symm
    | bool b => cases b <;> cases hlead
    | _ => cases hlead

theorem sameFields_of_canonicalizeFields_eq : ∀ {fields fields' : List (String × Json)},
    canonicalizeFields fields = canonicalizeFields fields' → SameFields FitsI64 fields fields'
  | [], fields', h => by
    cases fields' with
    | nil => rfl
    | cons field fields' => cases h
  | (k, v) :: fields, fields', h => by
    cases fields' with
    | nil => cases h
    | cons field fields' =>
      obtain ⟨k', w⟩ := field
      rw [canonicalizeFields, canonicalizeFields] at h
      obtain ⟨hfield, hrest⟩ := List.cons.inj h
      obtain ⟨rfl, hvalue⟩ := Prod.mk.inj hfield
      exact ⟨w, fields', rfl, same_of_canonicalizeDidit_eq hvalue, sameFields_of_canonicalizeFields_eq hrest⟩

theorem sameValues_of_canonicalizeValues_eq : ∀ {values values' : List Json},
    canonicalizeValues values = canonicalizeValues values' → SameValues FitsI64 values values'
  | [], values', h => by
    cases values' with
    | nil => rfl
    | cons w values' => cases h
  | v :: values, values', h => by
    cases values' with
    | nil => cases h
    | cons w values' =>
      rw [canonicalizeValues, canonicalizeValues] at h
      obtain ⟨hvalue, hrest⟩ := List.cons.inj h
      exact ⟨w, values', rfl, same_of_canonicalizeDidit_eq hvalue, sameValues_of_canonicalizeValues_eq hrest⟩

end

theorem canonicalizeDidit_float_of_fits {n : ℤ} (h : FitsI64 n) : canonicalizeDidit (.float n) = .int n := by
  rcases canonicalizeDidit_float n with ⟨m, -, hm, heq⟩ | ⟨hne, -⟩
  · rw [heq, Int.cast_injective hm]
  · exact absurd rfl (hne n h)

mutual

theorem canonicalizeDidit_eq_of_same : ∀ {v w : Json}, v.WellFormed → Same FitsI64 v w →
    canonicalizeDidit v = canonicalizeDidit w
  | .obj fields, w, hv, h => by
    obtain ⟨middle, fields', rfl, hperm, hsame⟩ := h
    have hfields := canonicalizeFields_eq_of_same hv.2 hsame
    rw [canonicalizeDidit_obj, canonicalizeDidit_obj]
    refine congrArg obj (mergeSort_eq_of_perm ?_ ?_)
    · rw [canonicalizeFields_keys]
      exact hv.1
    · rw [hfields, canonicalizeFields_eq_map, canonicalizeFields_eq_map]
      exact hperm.map _
  | .arr values, w, hv, h => by
    obtain ⟨values', rfl, hsame⟩ := h
    rw [canonicalizeDidit, canonicalizeDidit, canonicalizeValues_eq_of_same hv hsame]
  | .int n, w, hv, h => by
    rcases h with rfl | ⟨hfits, rfl⟩
    · rfl
    · rw [canonicalizeDidit_float_of_fits hfits, canonicalizeDidit_int]
  | .float x, w, hv, h => by
    rcases h with rfl | ⟨n, hfits, rfl, rfl⟩
    · rfl
    · rw [canonicalizeDidit_float_of_fits hfits, canonicalizeDidit_int]
  | .null, w, hv, h => by rw [show w = .null from h]
  | .bool b, w, hv, h => by rw [show w = .bool b from h]
  | .str s, w, hv, h => by rw [show w = .str s from h]

theorem canonicalizeFields_eq_of_same : ∀ {fields fields' : List (String × Json)}, FieldsWellFormed fields →
    SameFields FitsI64 fields fields' → canonicalizeFields fields = canonicalizeFields fields'
  | [], fields', hv, h => by rw [show fields' = [] from h]
  | (k, v) :: fields, fields', hv, h => by
    obtain ⟨w, rest, rfl, hvalue, hrest⟩ := h
    rw [canonicalizeFields, canonicalizeFields, canonicalizeDidit_eq_of_same hv.1 hvalue,
      canonicalizeFields_eq_of_same hv.2 hrest]

theorem canonicalizeValues_eq_of_same : ∀ {values values' : List Json}, ValuesWellFormed values →
    SameValues FitsI64 values values' → canonicalizeValues values = canonicalizeValues values'
  | [], values', hv, h => by rw [show values' = [] from h]
  | v :: values, values', hv, h => by
    obtain ⟨w, rest, rfl, hvalue, hrest⟩ := h
    rw [canonicalizeValues, canonicalizeValues, canonicalizeDidit_eq_of_same hv.1 hvalue,
      canonicalizeValues_eq_of_same hv.2 hrest]

end

/-! ## The canonical value is a value -/

mutual

theorem wellFormed_canonicalizeDidit : ∀ {v : Json}, v.WellFormed → (canonicalizeDidit v).WellFormed
  | .obj fields, hv => by
    rw [canonicalizeDidit_obj]
    have hperm := List.mergeSort_perm (canonicalizeFields fields) keyLe
    refine ⟨?_, fieldsWellFormed_of_perm (fieldsWellFormed_canonicalizeFields hv.2) hperm⟩
    rw [(hperm.map Prod.fst).nodup_iff, canonicalizeFields_keys]
    exact hv.1
  | .arr values, hv => by
    rw [canonicalizeDidit]
    exact valuesWellFormed_canonicalizeValues hv
  | .int n, hv => by
    rw [canonicalizeDidit_int]
    exact hv
  | .float x, hv => by
    rcases canonicalizeDidit_float x with ⟨n, ⟨hlow, hhigh⟩, -, h⟩ | ⟨-, h⟩
    · rw [h]
      exact ⟨hlow, by omega⟩
    · rw [h]
      exact hv
  | .null, hv | .bool _, hv | .str _, hv => by
    rw [canonicalizeDidit]
    exact hv

theorem fieldsWellFormed_canonicalizeFields : ∀ {fields : List (String × Json)}, FieldsWellFormed fields →
    FieldsWellFormed (canonicalizeFields fields)
  | [], _ => trivial
  | (_, _) :: _, hv => ⟨wellFormed_canonicalizeDidit hv.1, fieldsWellFormed_canonicalizeFields hv.2⟩

theorem valuesWellFormed_canonicalizeValues : ∀ {values : List Json}, ValuesWellFormed values →
    ValuesWellFormed (canonicalizeValues values)
  | [], _ => trivial
  | _ :: _, hv => ⟨wellFormed_canonicalizeDidit hv.1, valuesWellFormed_canonicalizeValues hv.2⟩

end

/-! ## Once is enough -/

/-- The fields of a canonical object stay as they are when each value does. -/
theorem canonicalizeFields_eq_self_iff {fields : List (String × Json)} :
    canonicalizeFields fields = fields ↔ ∀ field ∈ fields, canonicalizeDidit field.2 = field.2 := by
  rw [canonicalizeFields_eq_map]
  constructor
  · intro h field hfield
    have hfixed := List.map_inj_left.mp (h.trans (List.map_id' fields).symm) field hfield
    exact congrArg Prod.snd hfixed
  · intro h
    conv_rhs => rw [← List.map_id' fields]
    exact List.map_congr_left fun field hfield => Prod.ext rfl (h field hfield)

mutual

theorem canonicalizeDidit_idem : ∀ v : Json, canonicalizeDidit (canonicalizeDidit v) = canonicalizeDidit v
  | .obj fields => by
    have hfixed : canonicalizeFields ((canonicalizeFields fields).mergeSort keyLe) =
        (canonicalizeFields fields).mergeSort keyLe := by
      refine canonicalizeFields_eq_self_iff.mpr fun field hfield => ?_
      exact canonicalizeFields_eq_self_iff.mp (canonicalizeFields_idem fields) field
        ((List.mergeSort_perm _ _).mem_iff.mp hfield)
    rw [canonicalizeDidit_obj, canonicalizeDidit_obj, hfixed, List.mergeSort_of_pairwise (sorted_byKey _)]
  | .arr values => by
    rw [canonicalizeDidit, canonicalizeDidit, canonicalizeValues_idem values]
  | .int n => by
    rw [canonicalizeDidit_int, canonicalizeDidit_int]
  | .float x => by
    rcases canonicalizeDidit_float x with ⟨n, -, -, h⟩ | ⟨-, h⟩
    · rw [h, canonicalizeDidit_int]
    · rw [h, h]
  | .null | .bool _ | .str _ => by
    rw [canonicalizeDidit, canonicalizeDidit]

theorem canonicalizeFields_idem : ∀ fields : List (String × Json),
    canonicalizeFields (canonicalizeFields fields) = canonicalizeFields fields
  | [] => rfl
  | (k, v) :: fields => by
    rw [canonicalizeFields, canonicalizeFields, canonicalizeDidit_idem v, canonicalizeFields_idem fields]

theorem canonicalizeValues_idem : ∀ values : List Json,
    canonicalizeValues (canonicalizeValues values) = canonicalizeValues values
  | [] => rfl
  | v :: values => by
    rw [canonicalizeValues, canonicalizeValues, canonicalizeDidit_idem v, canonicalizeValues_idem values]

end

/-! ## The canonical text -/

namespace Value

def canonicalize (v : Value) : Value := ⟨canonicalizeDidit v.val, wellFormed_canonicalizeDidit v.property⟩

/-- `serde_json::to_vec` of the canonical value. -/
def canonicalText (ofF64 : ℚ → List Char) (v : Value) : List Char := write ofF64 v.canonicalize.val

end Value

/-- Any injective text of the floats will do, where it is right about one of them. -/
def sampleF64 (x : ℚ) : List Char :=
  if x = 10 ^ 19 then "1e19".toList else Text.ofI64 x.num ++ '.' :: Text.ofI64 x.den

theorem sampleF64_writes : WritesFloats sampleF64 := by
  have hpoint : ∀ n : ℤ, ∀ r, "1e19".toList ≠ Text.ofI64 n ++ '.' :: r := by
    intro n r h
    have hmem : '.' ∈ "1e19".toList := h ▸ List.mem_append_right _ List.mem_cons_self
    revert hmem
    decide
  have hends : ∀ r, ∀ c ∈ ('.' :: r).head?, (c.isDigit || c = '-') = false := by
    intro r c hc
    obtain rfl := Option.some.inj hc
    rfl
  have hdigits : ∀ n : ℤ, ∀ c ∈ Text.ofI64 n, (c.isDigit || c = '-') = true := by
    intro n c hc
    rcases Text.mem_ofI64 hc with rfl | hdigit
    · rfl
    · rw [hdigit, Bool.true_or]
  refine ⟨fun x y _ _ h => ?_, fun x c hc => ?_, fun x => ?_⟩
  · unfold sampleF64 at h
    split at h <;> split at h
    · rename_i hx hy
      rw [hx, hy]
    · exact absurd h (hpoint _ _)
    · exact absurd h.symm (hpoint _ _)
    · obtain ⟨hnum, hrest⟩ := run_append_inj (hdigits _) (hdigits _) (hends _) (hends _) h
      have hden := ofI64_inj (List.cons.inj hrest).2
      exact Rat.ext (ofI64_inj hnum) (by exact_mod_cast hden)
  · unfold sampleF64 at hc
    split at hc
    · revert c
      simp [isNumberChar]
    · rcases List.mem_append.mp hc with hc | hc
      · exact isNumberChar_ofI64 c hc
      · rcases List.mem_cons.mp hc with rfl | hc
        · rfl
        · exact isNumberChar_ofI64 c hc
  · unfold sampleF64
    split
    · exact .inr (by decide)
    · exact .inl (List.mem_append_right _ List.mem_cons_self)

theorem roundF64_wholeFloat : Rounding.roundF64 (10 ^ 19) = 10 ^ 19 := by
  have h := Rounding.roundF64_exact (m := 5 ^ 19) (k := 19) (by norm_num)
  have hwhole : ((5 ^ 19 : ℤ) : ℚ) * 2 ^ (19 : ℤ) = 10 ^ 19 := by norm_num
  rwa [hwhole] at h

def wholeInt : Value := ⟨.int (10 ^ 19), by norm_num [WellFormed]⟩

def wholeFloat : Value := ⟨.float (10 ^ 19), roundF64_wholeFloat⟩

/-- `{"timestamp":1000.0,"scores":[1e19]}` -/
def sampleBody : Value :=
  ⟨.obj [("timestamp", .float 1000), ("scores", .arr [wholeFloat.val])],
    by decide, Rounding.roundF64_intCast (m := 1000) (by norm_num), ⟨roundF64_wholeFloat, trivial⟩, trivial⟩

/-- `{"scores":[1e19],"timestamp":1000}` -/
def sampleSorted : Value :=
  ⟨.obj [("scores", .arr [wholeFloat.val]), ("timestamp", .int 1000)],
    by decide, ⟨roundF64_wholeFloat, trivial⟩, by norm_num [WellFormed], trivial⟩

end BssCli.Webhooks
