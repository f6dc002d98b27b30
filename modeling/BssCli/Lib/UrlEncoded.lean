import BssCli.Lib.Utf8
import Mathlib.Data.List.DropRight

/-!
# Form-encoded pairs

`application/x-www-form-urlencoded`, in bytes. Pairs are written with an escape of their own for each byte, and read back whatever
the escape is, as long as it is read as its byte and stands for neither separator.
-/

/-!
## What remains of a list

A list is cut down. Only cuts that take a marked element away change it, so where as many marked elements remain nothing has changed.
-/

section

variable {α : Type*} {p : α → Bool}

/-- No marked element comes in, and where none goes nothing has changed. -/
structure Remains (p : α → Bool) (a b : List α) : Prop where
  le : a.countP p ≤ b.countP p
  eq : a.countP p = b.countP p → a = b

namespace Remains

theorem trans {a b c : List α} (hab : Remains p a b) (hbc : Remains p b c) : Remains p a c := by
  refine ⟨hab.le.trans hbc.le, ?_⟩
  intro h
  have hle := hab.le
  have hle' := hbc.le
  rw [hab.eq (by omega), hbc.eq (by omega)]

theorem cons {a b : List α} (h : Remains p a b) (x : α) : Remains p (x :: a) (x :: b) := by
  have hle := h.le
  refine ⟨?_, ?_⟩
  · rw [List.countP_cons, List.countP_cons]
    omega
  · intro heq
    rw [List.countP_cons, List.countP_cons] at heq
    rw [h.eq (by omega)]

/-- A marked element is missing. -/
theorem of_lt {a b : List α} (h : a.countP p < b.countP p) : Remains p a b := ⟨h.le, fun heq => absurd heq h.ne⟩

theorem filter {q : α → Bool} (h : ∀ x, q x = false → p x = true) (l : List α) : Remains p (l.filter q) l := by
  have hsplit := List.countP_eq_countP_filter_add l p q
  refine ⟨by omega, ?_⟩
  intro heq
  rw [List.filter_eq_self]
  intro x hx
  by_contra hq
  have hmem : x ∈ l.filter fun x => !q x := List.mem_filter.mpr ⟨hx, by simpa using hq⟩
  have hpos := List.countP_pos_iff.mpr ⟨x, hmem, h x (by simpa using hq)⟩
  omega

/-- The element at the cut is marked. -/
theorem takeWhile {q : α → Bool} (h : ∀ x, q x = false → p x = true) (l : List α) : Remains p (l.takeWhile q) l := by
  have hsplit : (l.takeWhile q).countP p + (l.dropWhile q).countP p = l.countP p := by
    rw [← List.countP_append, List.takeWhile_append_dropWhile]
  refine ⟨by omega, ?_⟩
  intro heq
  cases hrest : l.dropWhile q with
  | nil =>
    have hwhole := List.takeWhile_append_dropWhile (p := q) (l := l)
    rwa [hrest, List.append_nil] at hwhole
  | cons x rest =>
    have hx : q x = false := by
      have hhead := List.head?_dropWhile_not q l
      rw [hrest] at hhead
      simpa using hhead
    rw [hrest, List.countP_cons_of_pos (h x hx)] at hsplit
    omega

theorem dropWhile {q : α → Bool} (h : ∀ x, q x = true → p x = true) (l : List α) : Remains p (l.dropWhile q) l := by
  induction l with
  | nil => exact ⟨le_rfl, fun _ => rfl⟩
  | cons x l ih =>
    by_cases hx : q x = true
    · rw [List.dropWhile_cons_of_pos hx]
      apply of_lt
      rw [List.countP_cons_of_pos (h x hx)]
      exact Nat.lt_succ_of_le ih.le
    · rw [List.dropWhile_cons_of_neg hx]
      exact ⟨le_rfl, fun _ => rfl⟩

theorem rdropWhile {q : α → Bool} (h : ∀ x, q x = true → p x = true) (l : List α) : Remains p (l.rdropWhile q) l := by
  have hrev := dropWhile h l.reverse
  unfold List.rdropWhile
  refine ⟨?_, ?_⟩
  · simpa using hrev.le
  · intro heq
    rw [hrev.eq (by simpa using heq), List.reverse_reverse]

end Remains

end

namespace UrlEncoded

open Utf8

def percent : UInt8 := 0x25

def ampersand : UInt8 := 0x26

def plusSign : UInt8 := 0x2B

def equals : UInt8 := 0x3D

def space : UInt8 := 0x20

/-! ## Reading -/

def hexVal (b : UInt8) : Option ℕ :=
  let n := b.toNat
  if 48 ≤ n ∧ n ≤ 57 then some (n - 48)
  else if 65 ≤ n ∧ n ≤ 70 then some (n - 55)
  else if 97 ≤ n ∧ n ≤ 102 then some (n - 87)
  else none

/-- The byte that two hex digits stand for. -/
def hexByte (h l : UInt8) : Option UInt8 := (hexVal h).bind fun x => (hexVal l).map fun y => UInt8.ofNat (16 * x + y)

/-- A `%` without two hex digits behind it stays. -/
def percentDecode : List UInt8 → List UInt8
  | b :: h :: l :: rest =>
    if b = percent then
      match hexByte h l with
      | some v => v :: percentDecode rest
      | none => b :: percentDecode (h :: l :: rest)
    else b :: percentDecode (h :: l :: rest)
  | b :: rest => b :: percentDecode rest
  | [] => []

attribute [grind =] percentDecode

def plusToSpace (t : List UInt8) : List UInt8 := t.map fun b => if b = plusSign then space else b

/-- `split_once('=')`, with an empty value where there is none. -/
def splitPair (p : List UInt8) : List UInt8 × List UInt8 :=
  (p.takeWhile fun b => b != equals, (p.dropWhile fun b => b != equals).tail)

def pairsOf (t : List UInt8) : List (List UInt8 × List UInt8) :=
  ((t.splitOn ampersand).filter fun p => !p.isEmpty).map splitPair

def decodeField (t : List UInt8) : List UInt8 := lossy (percentDecode (plusToSpace t))

/-- Pairs of texts, in bytes. -/
def utf8Pairs (pairs : List (List Char × List Char)) : List (List UInt8 × List UInt8) :=
  pairs.map fun p => (Text.utf8 p.1, Text.utf8 p.2)

def formDecode (t : List UInt8) : List (List UInt8 × List UInt8) :=
  (pairsOf t).map fun p => (decodeField p.1, decodeField p.2)

theorem percentDecode_cons_of_ne {b : UInt8} (h : b ≠ percent) (rest : List UInt8) :
    percentDecode (b :: rest) = b :: percentDecode rest := by
  cases rest with
  | nil => rfl
  | cons x rest =>
    cases rest with
    | nil => rfl
    | cons y rest => rw [percentDecode, if_neg h]

theorem percentDecode_hex {h l v : UInt8} (hv : hexByte h l = some v) (rest : List UInt8) :
    percentDecode (percent :: h :: l :: rest) = v :: percentDecode rest := by
  rw [percentDecode, if_pos rfl, hv]

theorem percentDecode_of_not_hex {h l : UInt8} (hv : hexByte h l = none) (rest : List UInt8) :
    percentDecode (percent :: h :: l :: rest) = percent :: percentDecode (h :: l :: rest) := by
  rw [percentDecode, if_pos rfl, hv]

/-- Two hex digits come first. -/
def StartsHex (s : List UInt8) : Prop := ∃ h l rest v, s = h :: l :: rest ∧ hexByte h l = some v

theorem percentDecode_percent_of_not_hex {s : List UInt8} (h : ¬ StartsHex s) :
    percentDecode (percent :: s) = percent :: percentDecode s := by
  match s with
  | [] => rfl
  | [_] => rfl
  | x :: l :: rest =>
    have hnone : hexByte x l = none := by
      cases hv : hexByte x l with
      | none => rfl
      | some v => exact (h ⟨x, l, rest, v, rfl, hv⟩).elim
    exact percentDecode_of_not_hex hnone rest

theorem percentDecode_cons {b : UInt8} {s : List UInt8} (h : ¬ (b = percent ∧ StartsHex s)) :
    percentDecode (b :: s) = b :: percentDecode s := by
  by_cases hb : b = percent
  · rw [hb]
    exact percentDecode_percent_of_not_hex fun hs => h ⟨hb, hs⟩
  · exact percentDecode_cons_of_ne hb s

/-- A text is an escape and what comes behind it, or a byte that stays and what comes behind it. -/
theorem escape_induction {motive : List UInt8 → Prop} (nil : motive [])
    (escape : ∀ {h l v rest}, hexByte h l = some v → motive rest → motive (percent :: h :: l :: rest))
    (kept : ∀ {b s}, ¬ (b = percent ∧ StartsHex s) → motive s → motive (b :: s)) (t : List UInt8) : motive t := by
  induction t using percentDecode.induct with
  | case1 h l rest v hv ih => exact escape hv ih
  | case2 h l rest hv ih =>
    refine kept ?_ ih
    rintro ⟨-, h', l', rest', v, heq, hv'⟩
    simp only [List.cons.injEq] at heq
    obtain ⟨rfl, rfl, -⟩ := heq
    rw [hv] at hv'
    exact nomatch hv'
  | case3 b h l rest hb ih => exact kept (fun hescape => hb hescape.1) ih
  | case4 b rest hshort ih =>
    refine kept ?_ ih
    rintro ⟨-, h, l, rest', -, rfl, -⟩
    exact hshort h l rest' rfl
  | case5 => exact nil

theorem splitPair_append {name : List UInt8} (h : ∀ b ∈ name, b ≠ equals) (value : List UInt8) :
    splitPair (name ++ equals :: value) = (name, value) := by
  have hall : ∀ b ∈ name, (b != equals) = true := fun b hb => by simpa using h b hb
  unfold splitPair
  rw [List.takeWhile_append_of_pos hall, List.dropWhile_append_of_pos hall, List.takeWhile_cons_of_neg (by simp),
    List.dropWhile_cons_of_neg (by simp), List.append_nil, List.tail_cons]

/-! ## Escapes -/

/-- How each byte is written. -/
structure Escape where
  enc : UInt8 → List UInt8
  decodes : ∀ b rest, percentDecode (plusToSpace (enc b ++ rest)) = b :: percentDecode (plusToSpace rest)
  apart : ∀ b, ∀ c ∈ enc b, c ≠ ampersand ∧ c ≠ equals

namespace Escape

variable (e : Escape)

def text (t : List UInt8) : List UInt8 := t.flatMap e.enc

def pair (p : List UInt8 × List UInt8) : List UInt8 := e.text p.1 ++ equals :: e.text p.2

/-- The pairs, with `&` between them. -/
def form (pairs : List (List UInt8 × List UInt8)) : List UInt8 := [ampersand].intercalate (pairs.map e.pair)

theorem percentDecode_text (t rest : List UInt8) :
    percentDecode (plusToSpace (e.text t ++ rest)) = t ++ percentDecode (plusToSpace rest) := by
  induction t with
  | nil => rfl
  | cons b t ih =>
    unfold text at ih ⊢
    rw [List.flatMap_cons, List.append_assoc, e.decodes, ih]
    rfl

theorem decodeField_text (cs : List Char) : decodeField (e.text (Text.utf8 cs)) = Text.utf8 cs := by
  have hdecode := e.percentDecode_text (Text.utf8 cs) []
  rw [List.append_nil] at hdecode
  rw [decodeField, hdecode]
  exact (congrArg lossy (List.append_nil _)).trans (lossy_utf8 cs)

theorem mem_text {t : List UInt8} {c : UInt8} (h : c ∈ e.text t) : c ≠ ampersand ∧ c ≠ equals := by
  obtain ⟨b, -, hc⟩ := List.mem_flatMap.mp h
  exact e.apart b c hc

theorem not_mem_pair (p : List UInt8 × List UInt8) : ampersand ∉ e.pair p := by
  intro h
  rcases List.mem_append.mp h with h | h
  · exact (e.mem_text h).1 rfl
  · rcases List.mem_cons.mp h with h | h
    · exact absurd h (by decide)
    · exact (e.mem_text h).1 rfl

theorem pairsOf_form (pairs : List (List UInt8 × List UInt8)) :
    pairsOf (e.form pairs) = pairs.map fun p => (e.text p.1, e.text p.2) := by
  cases pairs with
  | nil => rfl
  | cons p pairs =>
    have hsplit : (e.form (p :: pairs)).splitOn ampersand = (p :: pairs).map e.pair := by
      unfold form
      refine List.splitOn_intercalate _ (fun t ht => ?_) (by simp)
      obtain ⟨q, -, rfl⟩ := List.mem_map.mp ht
      exact e.not_mem_pair q
    unfold pairsOf
    rw [hsplit, List.filter_eq_self.mpr, List.map_map]
    · refine List.map_congr_left fun q _ => ?_
      exact splitPair_append (fun b hb => (e.mem_text hb).2) _
    · intro t ht
      obtain ⟨q, -, rfl⟩ := List.mem_map.mp ht
      simp [pair]

/-- What is written so is read back. -/
theorem formDecode_form (pairs : List (List Char × List Char)) : formDecode (e.form (utf8Pairs pairs)) = utf8Pairs pairs := by
  unfold formDecode utf8Pairs
  rw [e.pairsOf_form, List.map_map, List.map_map]
  refine List.map_congr_left fun p _ => ?_
  exact Prod.ext (e.decodeField_text p.1) (e.decodeField_text p.2)

end Escape

/-! ## Percent signs -/

def hexUpper (n : ℕ) : UInt8 := UInt8.ofNat (if n < 10 then 48 + n else 55 + n)

def percentByte (b : UInt8) : List UInt8 := [percent, hexUpper (b.toNat / 16), hexUpper (b.toNat % 16)]

theorem hexVal_hexUpper (n : Fin 16) : hexVal (hexUpper n) = some n.val := by
  revert n
  decide

theorem hexUpper_plain (n : Fin 16) : hexUpper n ≠ plusSign ∧ hexUpper n ≠ ampersand ∧ hexUpper n ≠ equals := by
  revert n
  decide

theorem hexByte_percentByte (b : UInt8) : hexByte (hexUpper (b.toNat / 16)) (hexUpper (b.toNat % 16)) = some b := by
  have hb := b.toNat_lt
  have hhigh := hexVal_hexUpper ⟨b.toNat / 16, by omega⟩
  have hlow := hexVal_hexUpper ⟨b.toNat % 16, by omega⟩
  have hsum : 16 * (b.toNat / 16) + b.toNat % 16 = b.toNat := by omega
  unfold hexByte
  rw [hhigh, hlow, Option.bind_some, Option.map_some, hsum, UInt8.ofNat_toNat]

theorem percentByte_plain {b c : UInt8} (h : c ∈ percentByte b) : c ≠ plusSign ∧ c ≠ ampersand ∧ c ≠ equals := by
  have hb := b.toNat_lt
  simp only [percentByte, List.mem_cons, List.not_mem_nil, or_false] at h
  rcases h with rfl | rfl | rfl
  · decide
  · exact hexUpper_plain ⟨b.toNat / 16, by omega⟩
  · exact hexUpper_plain ⟨b.toNat % 16, by omega⟩

theorem plusToSpace_of_not_mem {t : List UInt8} (h : ∀ b ∈ t, b ≠ plusSign) : plusToSpace t = t := by
  unfold plusToSpace
  rw [List.map_congr_left fun b hb => if_neg (h b hb), List.map_id']

theorem plusToSpace_append (s t : List UInt8) : plusToSpace (s ++ t) = plusToSpace s ++ plusToSpace t := List.map_append

theorem decodes_percentByte (b : UInt8) (rest : List UInt8) :
    percentDecode (plusToSpace (percentByte b ++ rest)) = b :: percentDecode (plusToSpace rest) := by
  rw [plusToSpace_append, plusToSpace_of_not_mem fun c hc => (percentByte_plain hc).1]
  exact percentDecode_hex (hexByte_percentByte b) _

theorem decodes_self {b : UInt8} (hpercent : b ≠ percent) (hplus : b ≠ plusSign) (rest : List UInt8) :
    percentDecode (plusToSpace ([b] ++ rest)) = b :: percentDecode (plusToSpace rest) := by
  rw [plusToSpace_append, plusToSpace_of_not_mem (by simpa using hplus)]
  exact percentDecode_cons_of_ne hpercent _

/-! ## Texts without escapes -/

def HasEscape (t : List UInt8) : Prop := ∃ pre s, t = pre ++ percent :: s ∧ StartsHex s

theorem hasEscape_cons {b : UInt8} {s : List UInt8} : HasEscape (b :: s) ↔ (b = percent ∧ StartsHex s) ∨ HasEscape s := by
  constructor
  · rintro ⟨pre, t, heq, ht⟩
    cases pre with
    | nil =>
      obtain ⟨rfl, rfl⟩ := List.cons.inj heq
      exact Or.inl ⟨rfl, ht⟩
    | cons c pre =>
      obtain ⟨rfl, rfl⟩ := List.cons.inj heq
      exact Or.inr ⟨pre, t, rfl, ht⟩
  · rintro (⟨rfl, hs⟩ | ⟨pre, t, rfl, ht⟩)
    · exact ⟨[], s, rfl, hs⟩
    · exact ⟨b :: pre, t, rfl, ht⟩

theorem isAscii_of_hexVal {b : UInt8} {x : ℕ} (h : hexVal b = some x) : isAscii b = true := by
  unfold hexVal at h
  dsimp only at h
  rw [isAscii, decide_eq_true_iff]
  split_ifs at h <;> omega

theorem hexByte_eq_some {h l v : UInt8} (hv : hexByte h l = some v) : ∃ x y, hexVal h = some x ∧ hexVal l = some y := by
  unfold hexByte at hv
  obtain ⟨x, hx, hv⟩ := Option.bind_eq_some_iff.mp hv
  obtain ⟨y, hy, -⟩ := Option.map_eq_some_iff.mp hv
  exact ⟨x, y, hx, hy⟩

/-- An escape is three ASCII bytes and stands for one. -/
theorem percentDecode_hex_countP {h l v : UInt8} (hv : hexByte h l = some v) {rest : List UInt8}
    (hle : (percentDecode rest).countP isAscii ≤ rest.countP isAscii) :
    (v :: percentDecode rest).countP isAscii < (percent :: h :: l :: rest).countP isAscii := by
  obtain ⟨x, y, hx, hy⟩ := hexByte_eq_some hv
  have hpercent : isAscii percent = true := by decide
  have hone : (v :: percentDecode rest).countP isAscii ≤ (percentDecode rest).countP isAscii + 1 := by
    rw [List.countP_cons]
    split <;> omega
  rw [List.countP_cons_of_pos hpercent, List.countP_cons_of_pos (isAscii_of_hexVal hx), List.countP_cons_of_pos (isAscii_of_hexVal hy)]
  omega

theorem percentDecode_remains (t : List UInt8) : Remains isAscii (percentDecode t) t := by
  induction t using escape_induction with
  | nil => exact ⟨le_rfl, fun _ => rfl⟩
  | escape hv ih =>
    rw [percentDecode_hex hv]
    exact Remains.of_lt (percentDecode_hex_countP hv ih.le)
  | kept hb ih =>
    rw [percentDecode_cons hb]
    exact ih.cons _

theorem percentDecode_eq_self_iff {t : List UInt8} : percentDecode t = t ↔ ¬ HasEscape t := by
  induction t using escape_induction with
  | nil =>
    refine ⟨fun _ => ?_, fun _ => rfl⟩
    rintro ⟨pre, s, heq, -⟩
    simp at heq
  | @escape h l v rest hv ih =>
    rw [percentDecode_hex hv]
    constructor
    · intro heq
      have hlt := percentDecode_hex_countP hv (percentDecode_remains rest).le
      exact absurd (congrArg (List.countP isAscii) heq) hlt.ne
    · intro hnone
      exact absurd (hasEscape_cons.mpr (Or.inl ⟨rfl, h, l, rest, v, rfl, hv⟩)) hnone
  | kept hb ih =>
    rw [percentDecode_cons hb, hasEscape_cons, List.cons_inj_right, ih]
    exact not_congr (or_iff_right hb).symm

/-! ## Encodings that leave escapes alone -/

/-- A byte that an escape may have. -/
def inEscape (b : UInt8) : Bool := b = percent || (hexVal b).isSome

/-- Each byte is written as `g` of it, or as an escape of that. What an escape may have is written as it is. -/
structure Transparent (e : UInt8 → List UInt8) (g : UInt8 → UInt8) : Prop where
  fixed : ∀ b, inEscape b = true → e b = [b] ∧ g b = b
  other : ∀ b, inEscape b = false → (e b = [g b] ∨ e b = percentByte (g b)) ∧ inEscape (g b) = false

namespace Transparent

variable {e : UInt8 → List UInt8} {g : UInt8 → UInt8} (h : Transparent e g)

include h

/-- What is written with a hex digit in front is that digit. -/
theorem cons_of_hexVal {b x : UInt8} {y : ℕ} {s t : List UInt8} (hx : hexVal x = some y) (heq : e b ++ s = x :: t) :
    b = x ∧ g b = b ∧ s = t := by
  cases hb : inEscape b with
  | true =>
    obtain ⟨hwritten, hg⟩ := h.fixed b hb
    rw [hwritten, List.singleton_append, List.cons.injEq] at heq
    exact ⟨heq.1, hg, heq.2⟩
  | false =>
    obtain ⟨hwritten, hg⟩ := h.other b hb
    rcases hwritten with hwritten | hwritten
    · rw [hwritten, List.singleton_append, List.cons.injEq] at heq
      obtain ⟨rfl, -⟩ := heq
      simp [inEscape, hx] at hg
    · rw [hwritten] at heq
      obtain ⟨rfl, -⟩ := List.cons.inj heq
      exact nomatch hx

theorem startsHex_flatMap {s : List UInt8} (hs : StartsHex (s.flatMap e)) : StartsHex (s.map g) := by
  obtain ⟨x, l, rest, v, heq, hv⟩ := hs
  obtain ⟨y, z, hy, hz⟩ := hexByte_eq_some hv
  match s with
  | [] => simp at heq
  | b :: s =>
    obtain ⟨rfl, hb, htail⟩ := h.cons_of_hexVal hy heq
    match s with
    | [] => simp at htail
    | c :: s =>
      obtain ⟨rfl, hc, -⟩ := h.cons_of_hexVal hz htail
      exact ⟨b, c, s.map g, v, by rw [List.map_cons, List.map_cons, hb, hc], hv⟩

theorem eq_of_inEscape {b : UInt8} (hb : inEscape (g b) = true) : g b = b := by
  cases hin : inEscape b with
  | true => exact (h.fixed b hin).2
  | false =>
    rw [(h.other b hin).2] at hb
    exact nomatch hb

theorem startsHex_of_map {s : List UInt8} (hs : StartsHex (s.map g)) : StartsHex s := by
  obtain ⟨x, l, rest, v, heq, hv⟩ := hs
  obtain ⟨y, z, hy, hz⟩ := hexByte_eq_some hv
  match s with
  | [] => simp at heq
  | [_] => simp at heq
  | b :: c :: s =>
    simp only [List.map_cons, List.cons.injEq] at heq
    obtain ⟨rfl, rfl, -⟩ := heq
    rw [h.eq_of_inEscape (by simp [inEscape, hy]), h.eq_of_inEscape (by simp [inEscape, hz])] at hv
    exact ⟨b, c, s, v, rfl, hv⟩

/-- A percent decoder undoes the encoding. -/
theorem percentDecode_flatMap (t : List UInt8) : percentDecode (t.flatMap e) = percentDecode (t.map g) := by
  induction t using escape_induction with
  | nil => rfl
  | @escape x l v rest hv ih =>
    obtain ⟨y, z, hy, hz⟩ := hexByte_eq_some hv
    obtain ⟨hpercent, hpercent'⟩ := h.fixed percent (by decide)
    obtain ⟨hx, hx'⟩ := h.fixed x (by simp [inEscape, hy])
    obtain ⟨hl, hl'⟩ := h.fixed l (by simp [inEscape, hz])
    have hleft : (percent :: x :: l :: rest).flatMap e = percent :: x :: l :: rest.flatMap e := by
      simp [hpercent, hx, hl]
    rw [hleft, List.map_cons, List.map_cons, List.map_cons, hpercent', hx', hl', percentDecode_hex hv, percentDecode_hex hv, ih]
  | @kept b s hb ih =>
    rw [List.flatMap_cons, List.map_cons]
    by_cases hpercent : b = percent
    · obtain ⟨hwritten, hg⟩ := h.fixed b (by simp [hpercent, inEscape])
      have hplain : ¬ StartsHex (s.map g) := fun hs => hb ⟨hpercent, h.startsHex_of_map hs⟩
      have hplain' : ¬ StartsHex (s.flatMap e) := fun hs => hplain (h.startsHex_flatMap hs)
      rw [hwritten, hg, List.singleton_append, percentDecode_cons fun hescape => hplain' hescape.2,
        percentDecode_cons fun hescape => hplain hescape.2, ih]
    · cases hin : inEscape b with
      | true =>
        obtain ⟨hwritten, hg⟩ := h.fixed b hin
        rw [hwritten, hg, List.singleton_append, percentDecode_cons_of_ne hpercent, percentDecode_cons_of_ne hpercent, ih]
      | false =>
        obtain ⟨hwritten, hg⟩ := h.other b hin
        have hne : g b ≠ percent := by
          intro heq
          rw [heq] at hg
          exact nomatch hg
        rcases hwritten with hwritten | hwritten
        · rw [hwritten, List.singleton_append, percentDecode_cons_of_ne hne, percentDecode_cons_of_ne hne, ih]
        · rw [hwritten, percentDecode_cons_of_ne hne, ← ih]
          exact percentDecode_hex (hexByte_percentByte (g b)) _

end Transparent

end UrlEncoded
