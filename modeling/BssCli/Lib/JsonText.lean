import BssCli.Lib.Json
import BssCli.Lib.Rounding
import BssCli.Lib.Text

/-!
# The text of a JSON value

The compact text, with no space between its tokens. How a float is written is a parameter. A text is the text of one value only.
-/

/-! ## Texts that end -/

section Ends

variable {α β : Type*} {p : β → Bool} {f : α → List β} {stop : β}

/-- Two runs of one kind, each up to where the kind ends, are told apart by what follows. -/
theorem run_append_inj {s t r r' : List β} (hs : ∀ b ∈ s, p b = true) (ht : ∀ b ∈ t, p b = true)
    (hr : ∀ b ∈ r.head?, p b = false) (hr' : ∀ b ∈ r'.head?, p b = false) (h : s ++ r = t ++ r') : s = t ∧ r = r' := by
  have hrun : ∀ {r : List β}, (∀ b ∈ r.head?, p b = false) → r.takeWhile p = [] ∧ r.dropWhile p = r := by
    intro r hr
    cases r with
    | nil => exact ⟨rfl, rfl⟩
    | cons b r =>
      have hb := hr b rfl
      exact ⟨by rw [List.takeWhile_cons, hb]; rfl, by rw [List.dropWhile_cons, hb]; rfl⟩
  have htake := congrArg (List.takeWhile p) h
  have hdrop := congrArg (List.dropWhile p) h
  rw [List.takeWhile_append_of_pos hs, List.takeWhile_append_of_pos ht, (hrun hr).1, (hrun hr').1] at htake
  rw [List.dropWhile_append_of_pos hs, List.dropWhile_append_of_pos ht, (hrun hr).2, (hrun hr').2] at hdrop
  rw [List.append_nil, List.append_nil] at htake
  exact ⟨htake, hdrop⟩

/-- Code words that are read one by one, up to a mark that starts none of them. -/
theorem flatMap_stop_inj {read : List β → Option (α × List β)} (hread : ∀ a x, read (f a ++ x) = some (a, x))
    (hstop : ∀ a x y, f a ++ x ≠ stop :: y) {s t : List α} {r r' : List β}
    (h : s.flatMap f ++ stop :: r = t.flatMap f ++ stop :: r') : s = t ∧ r = r' := by
  induction s generalizing t with
  | nil =>
    cases t with
    | nil => exact ⟨rfl, (List.cons.inj h).2⟩
    | cons b t =>
      rw [List.flatMap_cons, List.append_assoc] at h
      exact absurd h.symm (hstop b _ r)
  | cons a s ih =>
    cases t with
    | nil =>
      rw [List.flatMap_cons, List.append_assoc] at h
      exact absurd h (hstop a _ r')
    | cons b t =>
      rw [List.flatMap_cons, List.flatMap_cons, List.append_assoc, List.append_assoc] at h
      have hab := congrArg read h
      rw [hread, hread] at hab
      obtain ⟨rfl, hrest⟩ := Prod.mk.inj (Option.some.inj hab)
      obtain ⟨rfl, hr⟩ := ih hrest
      exact ⟨rfl, hr⟩

end Ends

namespace Json

/-! ## Strings -/

def escapeChar (c : Char) : List Char :=
  if c = '"' then ['\\', '"']
  else if c = '\\' then ['\\', '\\']
  else if c = '\x08' then ['\\', 'b']
  else if c = '\t' then ['\\', 't']
  else if c = '\n' then ['\\', 'n']
  else if c = '\x0c' then ['\\', 'f']
  else if c = '\r' then ['\\', 'r']
  else if c.toNat < 0x20 then ['\\', 'u', '0', '0', Text.hexDigit (c.toNat / 16), Text.hexDigit (c.toNat % 16)]
  else [c]

def quote (s : String) : List Char := '"' :: (s.toList.flatMap escapeChar ++ ['"'])

def hexValue (c : Char) : ℕ := if c.isDigit then c.toNat - 48 else c.toNat - 87

def unescape (c : Char) : Char :=
  if c = 'b' then '\x08' else if c = 't' then '\t' else if c = 'n' then '\n' else if c = 'f' then '\x0c'
  else if c = 'r' then '\r' else c

/-- One character of a string, and what is behind it. -/
def readChar : List Char → Option (Char × List Char)
  | '\\' :: 'u' :: _ :: _ :: high :: low :: rest => some (Char.ofNat (16 * hexValue high + hexValue low), rest)
  | '\\' :: c :: rest => some (unescape c, rest)
  | c :: rest => some (c, rest)
  | [] => none

theorem readChar_escapeChar (c : Char) (x : List Char) : readChar (escapeChar c ++ x) = some (c, x) := by
  have hcontrol : ∀ n : Fin 32, 16 * hexValue (Text.hexDigit (n / 16)) + hexValue (Text.hexDigit (n % 16)) = n := by decide
  unfold escapeChar
  iterate 7
    split
    · subst c
      rfl
  split
  · rename_i hlow
    show some (Char.ofNat _, x) = some (c, x)
    rw [hcontrol ⟨c.toNat, hlow⟩, Char.ofNat_toNat]
  · rename_i hne _ _ _ _ _ _
    rw [List.singleton_append]
    unfold readChar
    split <;> simp_all

theorem escapeChar_append_ne (c : Char) (x y : List Char) : escapeChar c ++ x ≠ '"' :: y := by
  intro h
  have hread := readChar_escapeChar c x
  rw [h] at hread
  -- A quotation mark is read as itself, and is not written so.
  have hpair : ('"', y) = (c, x) := Option.some.inj hread
  obtain rfl : '"' = c := congrArg Prod.fst hpair
  exact absurd (List.cons.inj h).1 (by decide)

theorem quote_append_inj {s t : String} {r r' : List Char} (h : quote s ++ r = quote t ++ r') : s = t ∧ r = r' := by
  unfold quote at h
  rw [List.cons_append, List.cons_append, List.append_assoc, List.append_assoc] at h
  obtain ⟨hst, hr⟩ := flatMap_stop_inj readChar_escapeChar escapeChar_append_ne (List.cons.inj h).2
  exact ⟨String.toList_inj.mp hst, hr⟩

/-! ## Values -/

section Write

variable (ofF64 : ℚ → List Char)

mutual

def write : Json → List Char
  | .null => "null".toList
  | .bool b => if b then "true".toList else "false".toList
  | .int n => Text.ofI64 n
  | .float x => ofF64 x
  | .str s => quote s
  | .arr values => '[' :: writeValues true values
  | .obj fields => '\x7b' :: writeFields true fields

/-- The rest of an array. A comma stands before every value but the first. -/
def writeValues : Bool → List Json → List Char
  | _, [] => [']']
  | first, v :: values => (if first then [] else [',']) ++ (write v ++ writeValues false values)

def writeFields : Bool → List (String × Json) → List Char
  | _, [] => ['\x7d']
  | first, (k, v) :: fields => (if first then [] else [',']) ++ (quote k ++ ':' :: (write v ++ writeFields false fields))

end

def isNumberChar (c : Char) : Bool := c.isDigit || c = '-' || c = '+' || c = '.' || c = 'e'

/-- A float has its shortest text, and no text of an integer: it has a point or an exponent. -/
structure WritesFloats : Prop where
  inj : ∀ x y, Rounding.roundF64 x = x → Rounding.roundF64 y = y → ofF64 x = ofF64 y → x = y
  number : ∀ x, ∀ c ∈ ofF64 x, isNumberChar c = true
  marked : ∀ x, '.' ∈ ofF64 x ∨ 'e' ∈ ofF64 x

end Write

mutual

/-- What a reader builds: no key twice, numbers that fit their type. -/
def WellFormed : Json → Prop
  | .obj fields => (fields.map Prod.fst).Nodup ∧ FieldsWellFormed fields
  | .arr values => ValuesWellFormed values
  | .int n => -2 ^ 63 ≤ n ∧ n < 2 ^ 64
  | .float x => Rounding.roundF64 x = x
  | .null | .bool _ | .str _ => True

def FieldsWellFormed : List (String × Json) → Prop
  | [] => True
  | (_, v) :: fields => WellFormed v ∧ FieldsWellFormed fields

def ValuesWellFormed : List Json → Prop
  | [] => True
  | v :: values => WellFormed v ∧ ValuesWellFormed values

end

/-! ## A text is the text of one value -/

section Unique

variable {ofF64 : ℚ → List Char}

theorem ofI64_inj {n m : ℤ} (h : Text.ofI64 n = Text.ofI64 m) : n = m := by
  have hinj : ∀ {a b : ℕ}, Nat.toDigits 10 a = Nat.toDigits 10 b → a = b := by
    intro a b hab
    have hparse := congrArg Text.parseDigits hab
    rw [Text.parseDigits_toDigits, Text.parseDigits_toDigits] at hparse
    exact Option.some.inj hparse
  have hsign : ∀ {a b : ℕ}, Nat.toDigits 10 a ≠ '-' :: Nat.toDigits 10 b := by
    intro a b hab
    have hdigit := Nat.isDigit_of_mem_toDigits (n := a) (b := 10) (by norm_num) (by norm_num)
      (hab ▸ List.mem_cons_self : '-' ∈ Nat.toDigits 10 a)
    cases hdigit
  unfold Text.ofI64 at h
  split at h <;> split at h
  · have hab := hinj (List.cons.inj h).2
    omega
  · exact absurd h.symm hsign
  · exact absurd h hsign
  · have hab := hinj h
    omega

theorem isNumberChar_ofI64 {n : ℤ} : ∀ c ∈ Text.ofI64 n, isNumberChar c = true := by
  intro c hc
  rcases Text.mem_ofI64 hc with rfl | hdigit
  · rfl
  · unfold isNumberChar
    rw [hdigit]
    rfl

theorem ofI64_ne_nil (n : ℤ) : Text.ofI64 n ≠ [] := by
  unfold Text.ofI64
  split
  · exact List.cons_ne_nil _ _
  · exact Nat.toDigits_ne_nil

theorem ofI64_ne_ofF64 (hfloat : WritesFloats ofF64) (n : ℤ) (x : ℚ) : Text.ofI64 n ≠ ofF64 x := by
  intro h
  rcases hfloat.marked x with hmark | hmark
  all_goals
    rw [← h] at hmark
    rcases Text.mem_ofI64 hmark with hc | hc <;> cases hc

/-- What may follow a value: nothing that a number could go on with. -/
def Ends (r : List Char) : Prop := ∀ c ∈ r.head?, isNumberChar c = false

theorem ends_writeValues (values : List Json) (r : List Char) : Ends (writeValues ofF64 false values ++ r) := by
  cases values <;> (intro c hc; obtain rfl := Option.some.inj hc; rfl)

theorem ends_writeFields (fields : List (String × Json)) (r : List Char) : Ends (writeFields ofF64 false fields ++ r) := by
  cases fields <;> (intro c hc; obtain rfl := Option.some.inj hc; rfl)

/-- The first character says what kind of value it is. -/
def lead : Json → Option Char
  | .null => some 'n'
  | .bool b => if b then some 't' else some 'f'
  | .int _ | .float _ => none
  | .str _ => some '"'
  | .arr _ => some '['
  | .obj _ => some '\x7b'

theorem head_of_number {s r : List Char} (hs : ∀ c ∈ s, isNumberChar c = true) (hne : s ≠ []) :
    ∃ c, (s ++ r).head? = some c ∧ isNumberChar c = true := by
  obtain ⟨c, s, rfl⟩ := List.exists_cons_of_ne_nil hne
  exact ⟨c, rfl, hs c List.mem_cons_self⟩

theorem ofF64_ne_nil (hfloat : WritesFloats ofF64) (x : ℚ) : ofF64 x ≠ [] := by
  rcases hfloat.marked x with hmark | hmark <;> exact List.ne_nil_of_mem hmark

/-- The head of a text is the lead of its value, or of a number. -/
theorem head_write (hfloat : WritesFloats ofF64) (v : Json) (r : List Char) :
    ∃ c, (write ofF64 v ++ r).head? = some c ∧
      ((v.lead = some c ∧ isNumberChar c = false) ∨ (v.lead = none ∧ isNumberChar c = true)) := by
  cases v with
  | null => exact ⟨'n', rfl, .inl ⟨rfl, rfl⟩⟩
  | bool b =>
    cases b with
    | true => exact ⟨'t', rfl, .inl ⟨rfl, rfl⟩⟩
    | false => exact ⟨'f', rfl, .inl ⟨rfl, rfl⟩⟩
  | int n =>
    obtain ⟨c, hc, hnumber⟩ := head_of_number (r := r) isNumberChar_ofI64 (ofI64_ne_nil n)
    exact ⟨c, hc, .inr ⟨rfl, hnumber⟩⟩
  | float x =>
    obtain ⟨c, hc, hnumber⟩ := head_of_number (r := r) (hfloat.number x) (ofF64_ne_nil hfloat x)
    exact ⟨c, hc, .inr ⟨rfl, hnumber⟩⟩
  | str s => exact ⟨'"', rfl, .inl ⟨rfl, rfl⟩⟩
  | arr values => exact ⟨'[', rfl, .inl ⟨rfl, rfl⟩⟩
  | obj fields => exact ⟨'\x7b', rfl, .inl ⟨rfl, rfl⟩⟩

theorem lead_eq (hfloat : WritesFloats ofF64) {v w : Json} {r r' : List Char}
    (h : write ofF64 v ++ r = write ofF64 w ++ r') : v.lead = w.lead := by
  obtain ⟨c, hc, hv⟩ := head_write hfloat v r
  obtain ⟨d, hd, hw⟩ := head_write hfloat w r'
  obtain rfl := Option.some.inj (hc.symm.trans ((congrArg List.head? h).trans hd))
  rcases hv with ⟨hv, hcv⟩ | ⟨hv, hcv⟩ <;> rcases hw with ⟨hw, hcw⟩ | ⟨hw, hcw⟩
  · rw [hv, hw]
  · rw [hcv] at hcw
    cases hcw
  · rw [hcv] at hcw
    cases hcw
  · rw [hv, hw]

theorem number_append_inj (hfloat : WritesFloats ofF64) {v w : Json} {r r' : List Char} (hv : v.lead = none)
    (hw : w.lead = none) (hvf : v.WellFormed) (hwf : w.WellFormed) (hr : Ends r) (hr' : Ends r')
    (h : write ofF64 v ++ r = write ofF64 w ++ r') : v = w ∧ r = r' := by
  have hnumber : ∀ {v : Json}, v.lead = none → ∀ c ∈ write ofF64 v, isNumberChar c = true := by
    intro v hv
    cases v with
    | int n => exact isNumberChar_ofI64
    | float x => exact hfloat.number x
    | bool b => cases b <;> cases hv
    | _ => cases hv
  obtain ⟨htext, hrest⟩ := run_append_inj (hnumber hv) (hnumber hw) hr hr' h
  refine ⟨?_, hrest⟩
  cases v with
  | int n =>
    cases w with
    | int m => exact congrArg int (ofI64_inj htext)
    | float y => exact absurd htext (ofI64_ne_ofF64 hfloat n y)
    | bool b => cases b <;> cases hw
    | _ => cases hw
  | float x =>
    cases w with
    | int m => exact absurd htext.symm (ofI64_ne_ofF64 hfloat m x)
    | float y => exact congrArg float (hfloat.inj x y hvf hwf htext)
    | bool b => cases b <;> cases hw
    | _ => cases hw
  | bool b => cases b <;> cases hv
  | _ => cases hv

theorem writeValues_cons (first : Bool) (v : Json) (values : List Json) (r : List Char) :
    writeValues ofF64 first (v :: values) ++ r =
      (if first then [] else [',']) ++ (write ofF64 v ++ (writeValues ofF64 false values ++ r)) := by
  rw [writeValues, List.append_assoc, List.append_assoc]

theorem writeFields_cons (first : Bool) (k : String) (v : Json) (fields : List (String × Json)) (r : List Char) :
    writeFields ofF64 first ((k, v) :: fields) ++ r =
      (if first then [] else [',']) ++ (quote k ++ ':' :: (write ofF64 v ++ (writeFields ofF64 false fields ++ r))) := by
  rw [writeFields, List.append_assoc, List.append_assoc, List.cons_append, List.append_assoc]

/-- A value is no end of an array. -/
theorem writeValues_cons_ne (hfloat : WritesFloats ofF64) {first : Bool} {v : Json} {values : List Json} {r r' : List Char} :
    writeValues ofF64 first (v :: values) ++ r ≠ ']' :: r' := by
  rw [writeValues_cons]
  intro h
  cases first with
  | false => cases (List.cons.inj h).1
  | true =>
    obtain ⟨c, hc, hlead⟩ := head_write hfloat v (writeValues ofF64 false values ++ r)
    obtain rfl : c = ']' := Option.some.inj (hc.symm.trans (congrArg List.head? h))
    rcases hlead with ⟨hlead, -⟩ | ⟨-, hnumber⟩
    · cases v with
      | bool b => cases b <;> cases hlead
      | _ => cases hlead
    · cases hnumber

theorem writeFields_cons_ne {first : Bool} {k : String} {v : Json} {fields : List (String × Json)} {r r' : List Char} :
    writeFields ofF64 first ((k, v) :: fields) ++ r ≠ '\x7d' :: r' := by
  rw [writeFields_cons]
  intro h
  cases first <;> cases (List.cons.inj h).1

mutual

theorem write_append_inj (hfloat : WritesFloats ofF64) : ∀ {v w : Json} {r r' : List Char}, v.WellFormed →
    w.WellFormed → Ends r → Ends r' → write ofF64 v ++ r = write ofF64 w ++ r' → v = w ∧ r = r'
  | .null, w, r, r', hv, hw, hr, hr', h => by
    have hlead := lead_eq hfloat h
    cases w with
    | null => exact ⟨rfl, List.append_cancel_left h⟩
    | bool b => cases b <;> cases hlead
    | _ => cases hlead
  | .bool true, w, r, r', hv, hw, hr, hr', h => by
    have hlead := lead_eq hfloat h
    cases w with
    | bool b =>
      cases b with
      | true => exact ⟨rfl, List.append_cancel_left h⟩
      | false => cases hlead
    | _ => cases hlead
  | .bool false, w, r, r', hv, hw, hr, hr', h => by
    have hlead := lead_eq hfloat h
    cases w with
    | bool b =>
      cases b with
      | true => cases hlead
      | false => exact ⟨rfl, List.append_cancel_left h⟩
    | _ => cases hlead
  | .int n, w, r, r', hv, hw, hr, hr', h =>
    number_append_inj hfloat rfl (lead_eq hfloat h).symm hv hw hr hr' h
  | .float x, w, r, r', hv, hw, hr, hr', h =>
    number_append_inj hfloat rfl (lead_eq hfloat h).symm hv hw hr hr' h
  | .str s, w, r, r', hv, hw, hr, hr', h => by
    have hlead := lead_eq hfloat h
    cases w with
    | str t =>
      obtain ⟨rfl, hrest⟩ := quote_append_inj h
      exact ⟨rfl, hrest⟩
    | bool b => cases b <;> cases hlead
    | _ => cases hlead
  | .arr values, w, r, r', hv, hw, hr, hr', h => by
    have hlead := lead_eq hfloat h
    cases w with
    | arr values' =>
      obtain ⟨rfl, hrest⟩ := writeValues_append_inj hfloat hv hw (List.cons.inj h).2
      exact ⟨rfl, hrest⟩
    | bool b => cases b <;> cases hlead
    | _ => cases hlead
  | .obj fields, w, r, r', hv, hw, hr, hr', h => by
    have hlead := lead_eq hfloat h
    cases w with
    | obj fields' =>
      obtain ⟨rfl, hrest⟩ := writeFields_append_inj hfloat hv.2 hw.2 (List.cons.inj h).2
      exact ⟨rfl, hrest⟩
    | bool b => cases b <;> cases hlead
    | _ => cases hlead

theorem writeValues_append_inj (hfloat : WritesFloats ofF64) : ∀ {first : Bool} {values values' : List Json}
    {r r' : List Char}, ValuesWellFormed values → ValuesWellFormed values' →
    writeValues ofF64 first values ++ r = writeValues ofF64 first values' ++ r' → values = values' ∧ r = r'
  | first, [], values', r, r', hv, hw, h => by
    cases values' with
    | nil => exact ⟨rfl, (List.cons.inj h).2⟩
    | cons w values' => exact absurd h.symm (writeValues_cons_ne hfloat)
  | first, v :: values, values', r, r', hv, hw, h => by
    cases values' with
    | nil => exact absurd h (writeValues_cons_ne hfloat)
    | cons w values' =>
      rw [writeValues_cons, writeValues_cons] at h
      obtain ⟨rfl, hrest⟩ := write_append_inj hfloat hv.1 hw.1 (ends_writeValues values r) (ends_writeValues values' r')
        (List.append_cancel_left h)
      obtain ⟨rfl, hend⟩ := writeValues_append_inj hfloat hv.2 hw.2 hrest
      exact ⟨rfl, hend⟩

theorem writeFields_append_inj (hfloat : WritesFloats ofF64) : ∀ {first : Bool} {fields fields' : List (String × Json)}
    {r r' : List Char}, FieldsWellFormed fields → FieldsWellFormed fields' →
    writeFields ofF64 first fields ++ r = writeFields ofF64 first fields' ++ r' → fields = fields' ∧ r = r'
  | first, [], fields', r, r', hv, hw, h => by
    cases fields' with
    | nil => exact ⟨rfl, (List.cons.inj h).2⟩
    | cons field fields' => exact absurd h.symm writeFields_cons_ne
  | first, (k, v) :: fields, fields', r, r', hv, hw, h => by
    cases fields' with
    | nil => exact absurd h writeFields_cons_ne
    | cons field fields' =>
      obtain ⟨k', w⟩ := field
      rw [writeFields_cons, writeFields_cons] at h
      obtain ⟨rfl, hvalue⟩ := quote_append_inj (List.append_cancel_left h)
      obtain ⟨rfl, hrest⟩ := write_append_inj hfloat hv.1 hw.1 (ends_writeFields fields r) (ends_writeFields fields' r')
        (List.cons.inj hvalue).2
      obtain ⟨rfl, hend⟩ := writeFields_append_inj hfloat hv.2 hw.2 hrest
      exact ⟨rfl, hend⟩

end

theorem write_inj (hfloat : WritesFloats ofF64) {v w : Json} (hv : v.WellFormed) (hw : w.WellFormed)
    (h : write ofF64 v = write ofF64 w) : v = w := by
  have hnil : Ends [] := fun _ hc => by cases hc
  exact (write_append_inj hfloat hv hw hnil hnil (congrArg (· ++ []) h)).1

end Unique

end Json
