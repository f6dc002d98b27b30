import BssCli.Lib.UrlEncoded

/-!
# Form bodies

`parse_form` and `urldecode` of the self-serve portal. A string is its bytes. The decoder looks at the two bytes behind a `%` as a
piece of the string, and a piece that ends inside a character panics.
-/

open Utf8 UrlEncoded

namespace BssCli.Portal

/-! ## The decoder -/

/-- `&s[a..b]`, and `none` where it panics. -/
def slice (s : List UInt8) (a b : ℕ) : Option (List UInt8) :=
  if isCharBoundary s a && isCharBoundary s b then some ((s.drop a).take (b - a)) else none

/-- `u8::from_str_radix(.., 16)`: a sign, then digits whose value fits. -/
def fromStrRadix16 (s : List UInt8) : Option UInt8 :=
  let digits := if 1 < s.length && s.head? = some plusSign then s.tail else s
  if digits = [] then none
  else
    (digits.mapM hexVal).bind fun values =>
      let value := values.foldl (fun acc v => 16 * acc + v) 0
      if value < 256 then some (UInt8.ofNat value) else none

/-- From one index on. `none` after a panic. -/
def urldecodeFrom : List UInt8 → Option (List UInt8)
  | b :: h :: l :: rest =>
    if b = percent then
      (slice (b :: h :: l :: rest) 1 3).bind fun hex =>
        match fromStrRadix16 hex with
        | some v => (urldecodeFrom rest).map (v :: ·)
        | none => (urldecodeFrom (h :: l :: rest)).map (b :: ·)
    else (urldecodeFrom (h :: l :: rest)).map (b :: ·)
  | b :: rest => (urldecodeFrom rest).map (b :: ·)
  | [] => some []

def urldecode (s : List UInt8) : Option (List UInt8) := (urldecodeFrom (plusToSpace s)).map lossy

def parseForm (bytes : List UInt8) : Option (List (List UInt8 × List UInt8)) :=
  (pairsOf (lossy bytes)).mapM fun p => (urldecode p.1).bind fun k => (urldecode p.2).map fun v => (k, v)

/-- The value of the first field with the key. -/
def field (form : List (List UInt8 × List UInt8)) (key : List UInt8) : Option (List UInt8) :=
  (form.find? fun p => p.1 = key).map Prod.snd

/-! ## Where it panics -/

/-- A character goes on behind the two bytes, or has begun before them. -/
def cutsPair (h : UInt8) (rest : List UInt8) : Bool := isCont h || rest.head?.any isCont

/-- The two bytes behind a `%` are not whole characters. -/
def Cuts (s : List UInt8) : Prop := ∃ pre h l rest, s = pre ++ percent :: h :: l :: rest ∧ cutsPair h rest = true

theorem slice_two (h l : UInt8) (rest : List UInt8) :
    slice (percent :: h :: l :: rest) 1 3 = if cutsPair h rest then none else some [h, l] := by
  have hfirst : isCharBoundary (percent :: h :: l :: rest) 1 = !isCont h := by
    simp [isCharBoundary]
  have hlast : isCharBoundary (percent :: h :: l :: rest) 3 = !rest.head?.any isCont := by
    cases rest with
    | nil => simp [isCharBoundary]
    | cons b rest => simp [isCharBoundary]
  have hboth : (!isCont h && !rest.head?.any isCont) = !cutsPair h rest := by
    unfold cutsPair
    rw [Bool.not_or]
  unfold slice
  rw [hfirst, hlast, hboth]
  cases cutsPair h rest <;> rfl

theorem hexVal_lt {b : UInt8} {x : ℕ} (h : hexVal b = some x) : x < 16 := by
  unfold hexVal at h
  dsimp only at h
  split_ifs at h
  all_goals
    obtain rfl := Option.some.inj h
    omega

/-- Two bytes that are no sign and a digit. -/
theorem fromStrRadix16_two {h l : UInt8} (hplus : h ≠ plusSign) : fromStrRadix16 [h, l] = hexByte h l := by
  have hdigits : (if 1 < [h, l].length && [h, l].head? = some plusSign then [h, l].tail else [h, l]) = [h, l] := by
    rw [if_neg]
    simp [hplus]
  unfold fromStrRadix16 hexByte
  dsimp only
  rw [hdigits, if_neg (List.cons_ne_nil _ _), List.mapM_cons, List.mapM_cons, List.mapM_nil]
  cases hh : hexVal h with
  | none => rfl
  | some x =>
    cases hl : hexVal l with
    | none => rfl
    | some y =>
      have hx := hexVal_lt hh
      have hy := hexVal_lt hl
      have hvalue : 16 * (16 * 0 + x) + y = 16 * x + y := by omega
      show (if 16 * (16 * 0 + x) + y < 256 then some (UInt8.ofNat (16 * (16 * 0 + x) + y)) else none) = _
      rw [hvalue, if_pos (by omega)]
      rfl

theorem urldecodeFrom_cons_of_ne {b : UInt8} (h : b ≠ percent) (rest : List UInt8) :
    urldecodeFrom (b :: rest) = (urldecodeFrom rest).map (b :: ·) := by
  cases rest with
  | nil => rfl
  | cons x rest =>
    cases rest with
    | nil => rfl
    | cons y rest => rw [urldecodeFrom, if_neg h]

theorem urldecodeFrom_percent {h l : UInt8} (hplus : h ≠ plusSign) (rest : List UInt8) :
    urldecodeFrom (percent :: h :: l :: rest) =
      if cutsPair h rest then none
      else
        match hexByte h l with
        | some v => (urldecodeFrom rest).map (v :: ·)
        | none => (urldecodeFrom (h :: l :: rest)).map (percent :: ·) := by
  rw [urldecodeFrom, if_pos rfl, slice_two]
  split
  · rfl
  · rw [Option.bind_some, fromStrRadix16_two hplus]

theorem cuts_cons {b : UInt8} {s : List UInt8} :
    Cuts (b :: s) ↔ (∃ h l rest, b = percent ∧ s = h :: l :: rest ∧ cutsPair h rest = true) ∨ Cuts s := by
  constructor
  · rintro ⟨pre, h, l, rest, heq, hcut⟩
    cases pre with
    | nil =>
      obtain ⟨rfl, rfl⟩ := List.cons.inj heq
      exact .inl ⟨h, l, rest, rfl, rfl, hcut⟩
    | cons c pre =>
      obtain ⟨rfl, rfl⟩ := List.cons.inj heq
      exact .inr ⟨pre, h, l, rest, rfl, hcut⟩
  · rintro (⟨h, l, rest, rfl, rfl, hcut⟩ | ⟨pre, h, l, rest, rfl, hcut⟩)
    · exact ⟨[], h, l, rest, rfl, hcut⟩
    · exact ⟨b :: pre, h, l, rest, rfl, hcut⟩

/-- A hex digit is no `%`. -/
theorem hexByte_ne {h l v : UInt8} (hv : hexByte h l = some v) : h ≠ percent ∧ l ≠ percent := by
  obtain ⟨x, hx, hy⟩ := Option.bind_eq_some_iff.mp hv
  obtain ⟨y, hy, -⟩ := Option.map_eq_some_iff.mp hy
  constructor
  · rintro rfl
    cases hx
  · rintro rfl
    cases hy

theorem cuts_cons_of_ne {b : UInt8} {s : List UInt8} (h : b ≠ percent) : Cuts (b :: s) ↔ Cuts s := by
  rw [cuts_cons]
  refine or_iff_right ?_
  rintro ⟨-, -, -, hb, -⟩
  exact h hb

theorem cuts_percent {h l : UInt8} {rest : List UInt8} :
    Cuts (percent :: h :: l :: rest) ↔ cutsPair h rest = true ∨ Cuts (h :: l :: rest) := by
  rw [cuts_cons]
  refine or_congr_left ⟨?_, fun hcut => ⟨h, l, rest, rfl, rfl, hcut⟩⟩
  rintro ⟨h', l', rest', -, heq, hcut⟩
  simp only [List.cons.injEq] at heq
  obtain ⟨rfl, rfl, rfl⟩ := heq
  exact hcut

theorem not_cuts_short {b : UInt8} {s : List UInt8} (h : s.length < 2) : ¬ Cuts (b :: s) := by
  rintro ⟨pre, x, y, rest, heq, -⟩
  have hlen := congrArg List.length heq
  simp only [List.length_append, List.length_cons] at hlen
  omega

section Decided

/-! An index that panics when `P` holds, and reads `a` when it does not. -/

variable {α β : Type} {P : Prop} {o : Option α} {a : α}

theorem decided_map (f : α → β) (h : (P → o = none) ∧ (¬ P → o = some a)) :
    (P → o.map f = none) ∧ (¬ P → o.map f = some (f a)) := by
  refine ⟨fun hp => ?_, fun hp => ?_⟩
  · rw [h.1 hp]
    rfl
  · rw [h.2 hp]
    rfl

theorem decided_pair (pair : Bool) (h : (P → o = none) ∧ (¬ P → o = some a)) :
    (pair = true ∨ P → (if pair then none else o) = none) ∧ (¬ (pair = true ∨ P) → (if pair then none else o) = some a) := by
  by_cases hpair : pair = true
  · rw [if_pos hpair]
    exact ⟨fun _ => rfl, fun hcon => absurd (.inl hpair) hcon⟩
  · rw [if_neg hpair, or_iff_right hpair]
    exact h

end Decided

/-- Without a plus sign in it, a text panics, or what it says in percent signs is read. -/
theorem urldecodeFrom_eq {s : List UInt8} (hplus : plusSign ∉ s) :
    (Cuts s → urldecodeFrom s = none) ∧ (¬ Cuts s → urldecodeFrom s = some (percentDecode s)) := by
  induction s using percentDecode.induct with
  | case1 h l rest v hv ih =>
    have htail := List.not_mem_of_not_mem_cons hplus
    have hh : h ≠ plusSign := fun he => htail (by simp [he])
    have hrest := ih (List.not_mem_of_not_mem_cons (List.not_mem_of_not_mem_cons htail))
    have hne := hexByte_ne hv
    have hcuts : Cuts (percent :: h :: l :: rest) ↔ cutsPair h rest = true ∨ Cuts rest := by
      rw [cuts_percent, cuts_cons_of_ne hne.1, cuts_cons_of_ne hne.2]
    rw [hcuts, urldecodeFrom_percent hh, percentDecode_hex hv, hv]
    exact decided_pair _ (decided_map (v :: ·) hrest)
  | case2 h l rest hv ih =>
    have htail := List.not_mem_of_not_mem_cons hplus
    have hh : h ≠ plusSign := fun he => htail (by simp [he])
    rw [cuts_percent, urldecodeFrom_percent hh, percentDecode_of_not_hex hv, hv]
    exact decided_pair _ (decided_map (percent :: ·) (ih htail))
  | case3 b h l rest hb ih =>
    rw [cuts_cons_of_ne hb, urldecodeFrom_cons_of_ne hb, percentDecode_cons_of_ne hb]
    exact decided_map (b :: ·) (ih (List.not_mem_of_not_mem_cons hplus))
  | case4 b rest hshort ih =>
    clear ih hplus
    rcases rest with _ | ⟨h, _ | ⟨l, rest⟩⟩
    · exact ⟨fun hcut => absurd hcut (not_cuts_short (by simp)), fun _ => rfl⟩
    · exact ⟨fun hcut => absurd hcut (not_cuts_short (by simp)), fun _ => rfl⟩
    · exact (hshort h l rest rfl).elim
  | case5 =>
    refine ⟨?_, fun _ => rfl⟩
    rintro ⟨pre, h, l, rest, heq, -⟩
    simp at heq

theorem plusSign_not_mem (s : List UInt8) : plusSign ∉ plusToSpace s := by
  intro h
  obtain ⟨b, -, hb⟩ := List.mem_map.mp h
  split at hb
  · exact absurd hb (by decide)
  · rename_i hne
    exact hne hb

/-- A field panics, or is read. -/
theorem urldecode_eq (s : List UInt8) :
    (Cuts (plusToSpace s) → urldecode s = none) ∧ (¬ Cuts (plusToSpace s) → urldecode s = some (decodeField s)) := by
  obtain ⟨hnone, hsome⟩ := urldecodeFrom_eq (plusSign_not_mem s)
  unfold urldecode decodeField
  exact ⟨fun h => by rw [hnone h]; rfl, fun h => by rw [hsome h]; rfl⟩

/-! ## What a form is read as -/

/-- A key or a value of the body has a `%` that does not stand before whole characters. -/
def Broken (bytes : List UInt8) : Prop :=
  ∃ p ∈ pairsOf (lossy bytes), Cuts (plusToSpace p.1) ∨ Cuts (plusToSpace p.2)

theorem mapM_eq_some_of_forall {α β : Type*} {f : α → Option β} {g : α → β} {l : List α} (h : ∀ a ∈ l, f a = some (g a)) :
    l.mapM f = some (l.map g) := by
  induction l with
  | nil => rfl
  | cons a l ih =>
    rw [List.mapM_cons, h a List.mem_cons_self, ih fun b hb => h b (List.mem_cons_of_mem a hb)]
    rfl

theorem mapM_eq_none_of_mem {α β : Type*} {f : α → Option β} {l : List α} {a : α} (ha : a ∈ l) (h : f a = none) :
    l.mapM f = none := by
  induction l with
  | nil => cases ha
  | cons b l ih =>
    rw [List.mapM_cons]
    rcases List.mem_cons.mp ha with rfl | ha
    · rw [h]
      rfl
    · rw [ih ha]
      cases f b <;> rfl

theorem parseForm_eq (bytes : List UInt8) :
    (Broken bytes → parseForm bytes = none) ∧ (¬ Broken bytes → parseForm bytes = some (formDecode (lossy bytes))) := by
  unfold parseForm
  constructor
  · rintro ⟨p, hp, hcut⟩
    refine mapM_eq_none_of_mem hp ?_
    rcases hcut with hcut | hcut
    · rw [(urldecode_eq p.1).1 hcut]
      rfl
    · rw [(urldecode_eq p.2).1 hcut]
      cases urldecode p.1 <;> rfl
  · intro h
    refine mapM_eq_some_of_forall fun p hp => ?_
    have hkey : ¬ Cuts (plusToSpace p.1) := fun hcut => h ⟨p, hp, .inl hcut⟩
    have hvalue : ¬ Cuts (plusToSpace p.2) := fun hcut => h ⟨p, hp, .inr hcut⟩
    rw [(urldecode_eq p.1).2 hkey, (urldecode_eq p.2).2 hvalue]
    rfl

/-! ## Serialised forms -/

def isUnreserved (b : UInt8) : Bool :=
  let n := b.toNat
  (48 ≤ n && n ≤ 57) || (65 ≤ n && n ≤ 90) || (97 ≤ n && n ≤ 122) || n = 45 || n = 46 || n = 95 || n = 126

/-- Unreserved bytes are kept, a blank is a plus sign, and every other byte has its percent sign. -/
def serialiseByte (b : UInt8) : List UInt8 :=
  if isUnreserved b then [b] else if b = space then [plusSign] else percentByte b

theorem unreserved_ne {b c : UInt8} (h : isUnreserved b = true) (hc : isUnreserved c = false) : b ≠ c := by
  rintro rfl
  rw [h] at hc
  cases hc

def serialised : Escape where
  enc := serialiseByte
  decodes b rest := by
    unfold serialiseByte
    split
    · rename_i h
      exact decodes_self (unreserved_ne h (by decide)) (unreserved_ne h (by decide)) rest
    · split
      · rename_i h
        have hread := percentDecode_cons_of_ne (show space ≠ percent by decide) (plusToSpace rest)
        rw [h]
        exact hread
      · exact decodes_percentByte b rest
  apart b c hc := by
    unfold serialiseByte at hc
    split at hc
    · rename_i h
      obtain rfl := List.mem_singleton.mp hc
      exact ⟨unreserved_ne h (by decide), unreserved_ne h (by decide)⟩
    · split at hc
      · obtain rfl := List.mem_singleton.mp hc
        exact ⟨by decide, by decide⟩
      · exact (percentByte_plain hc).2

theorem hexUpper_ascii (n : Fin 16) : (hexUpper n).toNat < 0x80 := by
  revert n
  decide

theorem serialiseByte_ascii {b c : UInt8} (h : c ∈ serialiseByte b) : c.toNat < 0x80 := by
  have hb := b.toNat_lt
  unfold serialiseByte at h
  split at h
  · rename_i hplain
    obtain rfl := List.mem_singleton.mp h
    simp [isUnreserved] at hplain
    omega
  · split at h
    · obtain rfl := List.mem_singleton.mp h
      decide
    · simp only [percentByte, List.mem_cons, List.not_mem_nil, or_false] at h
      rcases h with rfl | rfl | rfl
      · decide
      · exact hexUpper_ascii ⟨b.toNat / 16, by omega⟩
      · exact hexUpper_ascii ⟨b.toNat % 16, by omega⟩

theorem text_ascii {t : List UInt8} {c : UInt8} (h : c ∈ serialised.text t) : c.toNat < 0x80 := by
  obtain ⟨b, -, hc⟩ := List.mem_flatMap.mp h
  exact serialiseByte_ascii hc

theorem mem_intercalate {α : Type*} {sep : List α} {ts : List (List α)} {a : α} (h : a ∈ sep.intercalate ts) :
    a ∈ sep ∨ ∃ t ∈ ts, a ∈ t := by
  induction ts with
  | nil => cases h
  | cons t ts ih =>
    cases ts with
    | nil => exact .inr ⟨t, List.mem_cons_self, by simpa using h⟩
    | cons u ts =>
      rw [List.intercalate_cons_cons, List.mem_append, List.mem_append] at h
      rcases h with (h | h) | h
      · exact .inr ⟨t, List.mem_cons_self, h⟩
      · exact .inl h
      · rcases ih h with h | ⟨v, hv, ha⟩
        · exact .inl h
        · exact .inr ⟨v, List.mem_cons_of_mem t hv, ha⟩

theorem form_ascii {pairs : List (List UInt8 × List UInt8)} {c : UInt8} (h : c ∈ serialised.form pairs) : c.toNat < 0x80 := by
  rcases mem_intercalate h with h | ⟨t, ht, hc⟩
  · obtain rfl := List.mem_singleton.mp h
    decide
  · obtain ⟨p, -, rfl⟩ := List.mem_map.mp ht
    rcases List.mem_append.mp hc with hc | hc
    · exact text_ascii hc
    · rcases List.mem_cons.mp hc with rfl | hc
      · decide
      · exact text_ascii hc

theorem not_isCont_ascii {b : UInt8} (h : b.toNat < 0x80) : isCont b = false := by
  simp [isCont]
  omega

/-- ASCII characters are single bytes. -/
theorem not_cuts_ascii {s : List UInt8} (h : ∀ b ∈ s, b.toNat < 0x80) : ¬ Cuts (plusToSpace s) := by
  have hplus : ∀ b ∈ plusToSpace s, isCont b = false := by
    intro b hb
    obtain ⟨c, hc, rfl⟩ := List.mem_map.mp hb
    have hlt := h c hc
    split
    · decide
    · exact not_isCont_ascii hlt
  rintro ⟨pre, x, y, rest, heq, hcut⟩
  rw [heq] at hplus
  have hx : isCont x = false := hplus x (by simp)
  have hhead : rest.head?.any isCont = false := by
    cases rest with
    | nil => rfl
    | cons b rest => exact hplus b (by simp)
  rw [cutsPair, hx, hhead] at hcut
  cases hcut

theorem not_broken_form (pairs : List (List UInt8 × List UInt8)) : ¬ Broken (serialised.form pairs) := by
  rintro ⟨p, hp, hcut⟩
  rw [lossy_ascii fun b hb => form_ascii hb, serialised.pairsOf_form] at hp
  obtain ⟨q, -, rfl⟩ := List.mem_map.mp hp
  rcases hcut with hcut | hcut
  · exact not_cuts_ascii (fun b hb => text_ascii hb) hcut
  · exact not_cuts_ascii (fun b hb => text_ascii hb) hcut

/-! ## Percent signs that stay -/

/-- No escape goes over a `%`. -/
theorem percentDecode_append (pre s : List UInt8) :
    percentDecode (pre ++ percent :: s) = percentDecode pre ++ percentDecode (percent :: s) := by
  induction pre using percentDecode.induct with
  | case1 h l rest v hv ih =>
    rw [List.cons_append, List.cons_append, List.cons_append, percentDecode_hex hv, percentDecode_hex hv, ih,
      List.cons_append]
  | case2 h l rest hv ih =>
    rw [List.cons_append, List.cons_append, List.cons_append, percentDecode_of_not_hex hv, percentDecode_of_not_hex hv,
      ← List.cons_append, ← List.cons_append, ih, List.cons_append]
  | case3 b h l rest hb ih =>
    rw [List.cons_append, percentDecode_cons_of_ne hb, percentDecode_cons_of_ne hb, ih, List.cons_append]
  | case4 b rest hshort ih =>
    have hpre : ¬ StartsHex rest := by
      rintro ⟨h, l, rest', -, rfl, -⟩
      exact hshort h l rest' rfl
    have hwhole : ¬ StartsHex (rest ++ percent :: s) := by
      rintro ⟨h, l, rest', v, heq, hv⟩
      obtain ⟨hh, hl⟩ := hexByte_ne hv
      rcases rest with _ | ⟨x, _ | ⟨y, rest⟩⟩
      · exact hh (List.cons.inj heq).1.symm
      · exact hl (List.cons.inj (List.cons.inj heq).2).1.symm
      · exact hshort x y rest rfl
    rw [List.cons_append]
    by_cases hb : b = percent
    · rw [hb, percentDecode_percent_of_not_hex hwhole, percentDecode_percent_of_not_hex hpre, ih, List.cons_append]
    · rw [percentDecode_cons_of_ne hb, percentDecode_cons_of_ne hb, ih, List.cons_append]
  | case5 => rfl

theorem percent_kept {s : List UInt8} (pre : List UInt8) (h : ¬ StartsHex s) :
    percentDecode (pre ++ percent :: s) = percentDecode pre ++ percent :: percentDecode s := by
  rw [percentDecode_append, percentDecode_percent_of_not_hex h]

theorem startsHex_of_plusToSpace {s : List UInt8} (h : StartsHex (plusToSpace s)) : StartsHex s := by
  obtain ⟨x, l, rest, v, heq, hv⟩ := h
  have hkept : ∀ b : UInt8, (if b = plusSign then space else b) ≠ space → (if b = plusSign then space else b) = b := by
    intro b hb
    rw [if_neg]
    rintro rfl
    exact hb rfl
  obtain ⟨hx, hl⟩ : x ≠ space ∧ l ≠ space := by
    constructor
    · rintro rfl
      cases hv
    · rintro rfl
      cases hdigit : hexVal x with
      | none => simp [hexByte, hdigit] at hv
      | some y =>
        have hspace : hexVal space = none := rfl
        simp [hexByte, hdigit, hspace] at hv
  match s with
  | [] => cases heq
  | [_] => cases heq
  | b :: c :: s =>
    simp only [plusToSpace, List.map_cons, List.cons.injEq] at heq
    obtain ⟨rfl, rfl, -⟩ := heq
    rw [hkept b hx, hkept c hl] at hv
    exact ⟨b, c, s, v, rfl, hv⟩

theorem urldecode_percent {pre s : List UInt8} (hcuts : ¬ Cuts (plusToSpace (pre ++ percent :: s))) (h : ¬ StartsHex s) :
    urldecode (pre ++ percent :: s) =
      some (lossy (percentDecode (plusToSpace pre) ++ percent :: percentDecode (plusToSpace s))) := by
  have hfield := (urldecode_eq (pre ++ percent :: s)).2 hcuts
  have hplus : plusToSpace (pre ++ percent :: s) = plusToSpace pre ++ percent :: plusToSpace s := plusToSpace_append _ _
  rw [hfield, decodeField, hplus, percent_kept _ fun hhex => h (startsHex_of_plusToSpace hhex)]

/-! ## What the portal reads -/

theorem parseForm_serialised (pairs : List (List Char × List Char)) :
    parseForm (serialised.form (utf8Pairs pairs)) = some (utf8Pairs pairs) := by
  have hread := (parseForm_eq (serialised.form (utf8Pairs pairs))).2 (not_broken_form _)
  rw [lossy_ascii fun b hb => form_ascii hb] at hread
  exact hread.trans (congrArg some (serialised.formDecode_form pairs))

/-- A body is read unless a `%` stands before part of a character. What is serialised is read back, and a `%` without two hex digits
stays. -/
theorem parse_form_total_iff (bytes : List UInt8) :
    (parseForm bytes ≠ none ↔ ¬ Broken bytes) ∧
    (¬ Broken bytes → parseForm bytes = some (formDecode (lossy bytes))) ∧
    (∀ pairs, parseForm (serialised.form (utf8Pairs pairs)) = some (utf8Pairs pairs)) ∧
    ∀ pre s, ¬ Cuts (plusToSpace (pre ++ percent :: s)) → ¬ StartsHex s →
      urldecode (pre ++ percent :: s) =
        some (lossy (percentDecode (plusToSpace pre) ++ percent :: percentDecode (plusToSpace s))) := by
  refine ⟨?_, (parseForm_eq bytes).2, parseForm_serialised, fun pre s => urldecode_percent⟩
  obtain ⟨hnone, hsome⟩ := parseForm_eq bytes
  constructor
  · intro hread hbroken
    exact hread (hnone hbroken)
  · intro hwhole
    rw [hsome hwhole]
    exact Option.some_ne_none _

/-- The body is `%€`. -/
theorem parse_form_panics : ¬ ∀ bytes, parseForm bytes ≠ none := by
  intro h
  exact h [0x25, 0xE2, 0x82, 0xAC] (by decide)

end BssCli.Portal
