import Mathlib.Data.Int.Notation
import Mathlib.Data.List.DropRight
import Mathlib.Tactic.NormNum

/-!
# Text

What Rust's `str` does, on lists of characters: whitespace, `trim` and the ways to split,
`i64` read from a text and written as one.
-/

namespace Text

instance lawfulBEq_chars : LawfulBEq (List Char) := inferInstance

/-- `char::is_whitespace`, the property White_Space of Unicode. -/
def isWhitespace (c : Char) : Bool :=
  (0x09 ≤ c.toNat && c.toNat ≤ 0x0D) || c.toNat = 0x20 || c.toNat = 0x85 || c.toNat = 0xA0 || c.toNat = 0x1680 ||
    (0x2000 ≤ c.toNat && c.toNat ≤ 0x200A) || c.toNat = 0x2028 || c.toNat = 0x2029 || c.toNat = 0x202F ||
    c.toNat = 0x205F || c.toNat = 0x3000

def trim (cs : List Char) : List Char := ((cs.dropWhile isWhitespace).reverse.dropWhile isWhitespace).reverse

theorem trim_trim (cs : List Char) : trim (trim cs) = trim cs := by
  have hback : ∀ xs : List Char, trim xs = (xs.dropWhile isWhitespace).rdropWhile isWhitespace := fun _ => rfl
  have hfront : (trim cs).dropWhile isWhitespace = trim cs := by
    rw [hback, List.dropWhile_eq_self_iff]
    intro hpos
    -- The first character that is left is the first one that `dropWhile` kept.
    have hstart := List.rdropWhile_prefix isWhitespace (cs.dropWhile isWhitespace)
    have hlen := hpos.trans_le hstart.length_le
    have hself := List.dropWhile_idempotent isWhitespace cs
    rw [hstart.getElem hpos]
    exact List.dropWhile_eq_self_iff.mp hself hlen
  rw [hback (trim cs), hfront, hback]
  exact List.rdropWhile_idempotent isWhitespace _

theorem trim_eq_self {cs : List Char} (h : ∀ c ∈ cs, isWhitespace c = false) : trim cs = cs := by
  have hdrop : ∀ xs : List Char, (∀ c ∈ xs, isWhitespace c = false) → xs.dropWhile isWhitespace = xs := by
    intro xs hxs
    rw [List.dropWhile_eq_self_iff]
    intro hpos
    rw [hxs _ (List.getElem_mem hpos)]
    exact Bool.false_ne_true
  rw [trim, hdrop cs h, hdrop _ fun c hc => h c (List.mem_reverse.mp hc), List.reverse_reverse]

/-- `split_once`: before and after the first occurrence. -/
def splitOnce (sep : Char) : List Char → Option (List Char × List Char)
  | [] => none
  | c :: cs => if c = sep then some ([], cs) else (splitOnce sep cs).map fun p => (c :: p.1, p.2)

/-- `as_bytes` -/
def utf8 (cs : List Char) : List UInt8 := cs.flatMap String.utf8EncodeChar

theorem utf8_append (a b : List Char) : utf8 (a ++ b) = utf8 a ++ utf8 b := List.flatMap_append

/-! ## Bytes in hex -/

def hexDigit (n : Nat) : Char := if n < 10 then Char.ofNat (48 + n) else Char.ofNat (87 + n)

def hexLower (bytes : List UInt8) : List Char := bytes.flatMap fun b => [hexDigit (b.toNat / 16), hexDigit (b.toNat % 16)]

theorem mem_hexLower {bytes : List UInt8} {c : Char} (h : c ∈ hexLower bytes) : ∃ n : Fin 16, c = hexDigit n := by
  obtain ⟨b, -, hc⟩ := List.mem_flatMap.mp h
  have hb := b.toNat_lt
  rcases List.mem_cons.mp hc with rfl | hc
  · exact ⟨⟨b.toNat / 16, by omega⟩, rfl⟩
  · obtain rfl := List.mem_singleton.mp hc
    exact ⟨⟨b.toNat % 16, by omega⟩, rfl⟩

theorem hexDigit_injective {m n : Nat} (hm : m < 16) (hn : n < 16) (h : hexDigit m = hexDigit n) : m = n := by
  have hall : ∀ m n : Fin 16, hexDigit m = hexDigit n → m = n := by decide
  exact congrArg Fin.val (hall ⟨m, hm⟩ ⟨n, hn⟩ h)

theorem hexLower_cons (b : UInt8) (bytes : List UInt8) :
    hexLower (b :: bytes) = hexDigit (b.toNat / 16) :: hexDigit (b.toNat % 16) :: hexLower bytes := rfl

theorem hexLower_injective : Function.Injective hexLower := by
  intro xs ys h
  induction xs generalizing ys with
  | nil =>
    cases ys with
    | nil => rfl
    | cons y ys => exact absurd h (by simp [hexLower])
  | cons x xs ih =>
    cases ys with
    | nil => exact absurd h (by simp [hexLower])
    | cons y ys =>
      rw [hexLower_cons, hexLower_cons] at h
      obtain ⟨hhigh, h⟩ := List.cons.inj h
      obtain ⟨hlow, hrest⟩ := List.cons.inj h
      have hx := x.toNat_lt
      have hy := y.toNat_lt
      have hdiv := hexDigit_injective (by omega) (by omega) hhigh
      have hmod := hexDigit_injective (by omega) (by omega) hlow
      have hbyte : x = y := UInt8.toNat_inj.mp (by omega)
      rw [hbyte, ih hrest]

/-! ## Numbers -/

/-- The value of a digit string, or `none` for a non-digit. -/
def digitsVal (cs : List Char) : Option Nat :=
  cs.foldl (fun acc c => acc.bind fun v => if c.isDigit then some (10 * v + (c.toNat - 48)) else none) (some 0)

def parseDigits (cs : List Char) : Option Nat := if cs = [] then none else digitsVal cs

def checkI64 (n : ℤ) : Option ℤ := if -2 ^ 63 ≤ n ∧ n < 2 ^ 63 then some n else none

/-- `parse::<i64>`: a sign, one digit or more, and a value that fits. -/
def parseI64 : List Char → Option ℤ
  | '-' :: cs => (parseDigits cs).bind fun n => checkI64 (-n)
  | '+' :: cs => (parseDigits cs).bind fun n => checkI64 n
  | cs => (parseDigits cs).bind fun n => checkI64 n

/-- `{}` of an `i64`. -/
def ofI64 (n : ℤ) : List Char := if n < 0 then '-' :: Nat.toDigits 10 n.natAbs else Nat.toDigits 10 n.natAbs

theorem checkI64_range {n m : ℤ} (h : checkI64 n = some m) : -2 ^ 63 ≤ m ∧ m < 2 ^ 63 := by
  unfold checkI64 at h
  split at h
  · obtain rfl := Option.some.inj h
    assumption
  · cases h

theorem parseI64_range {cs : List Char} {m : ℤ} (h : parseI64 cs = some m) : -2 ^ 63 ≤ m ∧ m < 2 ^ 63 := by
  unfold parseI64 at h
  split at h
  all_goals
    obtain ⟨n, -, hn⟩ := Option.bind_eq_some_iff.mp h
    exact checkI64_range hn

/-! A number is read back from its text. -/

theorem digitsVal_append_one (cs : List Char) (c : Char) :
    digitsVal (cs ++ [c]) =
      (digitsVal cs).bind fun v => if c.isDigit then some (10 * v + (c.toNat - 48)) else none := by
  rw [digitsVal, List.foldl_append]
  rfl

theorem digitsVal_toDigits (n : ℕ) : digitsVal (Nat.toDigits 10 n) = some n := by
  have hdigit : ∀ d : Fin 10, (Nat.digitChar d).isDigit = true ∧ (Nat.digitChar d).toNat - 48 = d := by decide
  induction n using Nat.strong_induction_on with
  | _ n ih =>
    rw [Nat.toDigits_eq_if (by norm_num)]
    split
    · rename_i hn
      have h := hdigit ⟨n, hn⟩
      rw [← List.nil_append [n.digitChar], digitsVal_append_one, digitsVal, List.foldl_nil, Option.bind_some,
        if_pos h.1, h.2, Nat.mul_zero, Nat.zero_add]
    · rename_i hn
      have h := hdigit ⟨n % 10, Nat.mod_lt _ (by norm_num)⟩
      rw [digitsVal_append_one, ih (n / 10) (by omega), Option.bind_some, if_pos h.1, h.2, Nat.div_add_mod]

theorem parseDigits_toDigits (n : ℕ) : parseDigits (Nat.toDigits 10 n) = some n := by
  rw [parseDigits, if_neg Nat.toDigits_ne_nil, digitsVal_toDigits]

theorem parseI64_of_isDigit {cs : List Char} (h : ∀ c ∈ cs, c.isDigit = true) :
    parseI64 cs = (parseDigits cs).bind fun n => checkI64 n := by
  unfold parseI64
  split
  · exact absurd (h '-' (List.mem_cons_self ..)) (by decide)
  · exact absurd (h '+' (List.mem_cons_self ..)) (by decide)
  · rfl

theorem parseI64_ofI64 {n : ℤ} (hlow : -2 ^ 63 ≤ n) (hhigh : n < 2 ^ 63) : parseI64 (ofI64 n) = some n := by
  have hcheck : checkI64 n = some n := if_pos ⟨hlow, hhigh⟩
  unfold ofI64
  split
  · rename_i hneg
    have hvalue : (parseDigits (Nat.toDigits 10 n.natAbs)).bind (fun m => checkI64 (-m)) = some n := by
      rw [parseDigits_toDigits, Option.bind_some, ← hcheck]
      congr 1
      omega
    exact hvalue
  · rename_i hpos
    rw [parseI64_of_isDigit fun c hc => Nat.isDigit_of_mem_toDigits (by norm_num) (by norm_num) hc,
      parseDigits_toDigits, Option.bind_some, ← hcheck]
    congr 1
    omega

theorem mem_ofI64 {n : ℤ} {c : Char} (h : c ∈ ofI64 n) : c = '-' ∨ c.isDigit = true := by
  have hdigits : ∀ m, c ∈ Nat.toDigits 10 m → c.isDigit = true :=
    fun m hc => Nat.isDigit_of_mem_toDigits (by norm_num) (by norm_num) hc
  unfold ofI64 at h
  split at h
  · rcases List.mem_cons.mp h with rfl | hc
    · exact .inl rfl
    · exact .inr (hdigits _ hc)
  · exact .inr (hdigits _ h)

end Text
