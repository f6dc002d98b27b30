import BssCli.Lib.Text

/-!
# Templates

A text with names in double braces, as a search from the left finds them. What is written as literals and placeholders is read as
these, as long as no literal has a placeholder in it.
-/

open Text

namespace Template

/-! ## Placeholders -/

def isNameStart (c : Char) : Bool := c.isAlpha || c = '_'

def isNameChar (c : Char) : Bool := c.isAlphanum || c = '_'

/-- A name at the start, and what is behind it. -/
structure IsName (name : List Char) : Prop where
  start : name.head?.any isNameStart = true
  chars : ∀ c ∈ name, isNameChar c = true

/-- The name in double braces, with blanks around it or without. -/
def Placeholder (name text : List Char) : Prop :=
  IsName name ∧ ∃ a b, (∀ c ∈ a, isWhitespace c = true) ∧ (∀ c ∈ b, isWhitespace c = true) ∧
    text = '{' :: '{' :: (a ++ (name ++ (b ++ ['}', '}'])))

/-- `\{\{\s*([a-zA-Z_][a-zA-Z0-9_]*)\s*\}\}` at the start of a text: the name, and the rest of the text. -/
def matchAt : List Char → Option (List Char × List Char)
  | '{' :: '{' :: cs =>
    let inside := cs.dropWhile isWhitespace
    if inside.head?.any isNameStart then
      match (inside.dropWhile isNameChar).dropWhile isWhitespace with
      | '}' :: '}' :: rest => some (inside.takeWhile isNameChar, rest)
      | _ => none
    else none
  | _ => none

theorem not_blank_of_name {c : Char} (h : isNameChar c = true) : isWhitespace c = false ∧ c ≠ '{' ∧ c ≠ '}' := by
  have hall : ∀ n : Fin 0x80, isNameChar (Char.ofNat n) = true →
      isWhitespace (Char.ofNat n) = false ∧ Char.ofNat n ≠ '{' ∧ Char.ofNat n ≠ '}' := by decide +kernel
  have hsmall : c.toNat < 0x80 := by
    rcases Bool.or_eq_true_iff.mp h with h | h
    · rcases Bool.or_eq_true_iff.mp h with h | hdigit
      · rcases Bool.or_eq_true_iff.mp h with hupper | hlower
        · exact Nat.lt_of_le_of_lt (of_decide_eq_true hupper).2 (by decide)
        · exact Nat.lt_of_le_of_lt (of_decide_eq_true (Bool.and_eq_true_iff.mp hlower).2) (by decide)
      · exact Nat.lt_of_le_of_lt (of_decide_eq_true (Bool.and_eq_true_iff.mp hdigit).2) (by decide)
    · obtain rfl := of_decide_eq_true h
      decide
  have hchar := hall ⟨c.toNat, hsmall⟩
  rw [Char.ofNat_toNat] at hchar
  exact hchar h

theorem isNameChar_of_start {c : Char} (h : isNameStart c = true) : isNameChar c = true := by
  simp only [isNameStart, isNameChar, Char.isAlphanum, Bool.or_eq_true] at h ⊢
  rcases h with h | h
  · exact .inl (.inl h)
  · exact .inr h

theorem matchAt_braces (cs : List Char) :
    matchAt ('{' :: '{' :: cs) =
      if (cs.dropWhile isWhitespace).head?.any isNameStart then
        match ((cs.dropWhile isWhitespace).dropWhile isNameChar).dropWhile isWhitespace with
        | '}' :: '}' :: rest => some ((cs.dropWhile isWhitespace).takeWhile isNameChar, rest)
        | _ => none
      else none := rfl

/-- A run of characters that meet `p` ends where the next one does not. -/
theorem run_append {p : Char → Bool} {a b : List Char} (ha : ∀ c ∈ a, p c = true) (hb : ∀ c ∈ b.head?, p c = false) :
    (a ++ b).takeWhile p = a ∧ (a ++ b).dropWhile p = b := by
  have hnone : b.takeWhile p = [] ∧ b.dropWhile p = b := by
    cases b with
    | nil => exact ⟨rfl, rfl⟩
    | cons c b => exact ⟨List.takeWhile_cons_of_neg (by simp [hb c rfl]), List.dropWhile_cons_of_neg (by simp [hb c rfl])⟩
  rw [List.takeWhile_append_of_pos ha, List.dropWhile_append_of_pos ha, hnone.1, hnone.2, List.append_nil]
  exact ⟨rfl, rfl⟩

theorem matchAt_of_placeholder {name text : List Char} (h : Placeholder name text) (rest : List Char) :
    matchAt (text ++ rest) = some (name, rest) := by
  obtain ⟨hname, a, b, ha, hb, rfl⟩ := h
  have htext : '{' :: '{' :: (a ++ (name ++ (b ++ ['}', '}']))) ++ rest =
      '{' :: '{' :: (a ++ (name ++ (b ++ '}' :: '}' :: rest))) := by simp
  have hfirst : ∀ c ∈ (name ++ (b ++ '}' :: '}' :: rest)).head?, isNameStart c = true ∧ isWhitespace c = false := by
    intro c hc
    have hstart := hname.start
    cases hcons : name with
    | nil => simp [hcons] at hstart
    | cons d ds =>
      rw [hcons] at hc hstart
      obtain rfl : d = c := Option.some.inj hc
      have hd : isNameStart d = true := by simpa using hstart
      exact ⟨hd, (not_blank_of_name (isNameChar_of_start hd)).1⟩
  have hbehind : ∀ c ∈ (b ++ '}' :: '}' :: rest).head?, isNameChar c = false := by
    intro c hc
    by_contra hchar
    have hplain := not_blank_of_name (by simpa using hchar)
    cases b with
    | nil => exact hplain.2.2 (Option.some.inj hc).symm
    | cons d b =>
      obtain rfl : d = c := Option.some.inj hc
      rw [hb d List.mem_cons_self] at hplain
      cases hplain.1
  have hclose : ∀ c ∈ ('}' :: '}' :: rest).head?, isWhitespace c = false := by
    intro c hc
    obtain rfl : '}' = c := Option.some.inj hc
    decide
  rw [htext, matchAt_braces, (run_append ha fun c hc => (hfirst c hc).2).2, (run_append hname.chars hbehind).1,
    (run_append hname.chars hbehind).2, (run_append hb hclose).2]
  refine if_pos ?_
  cases hcons : name with
  | nil => simpa [hcons] using hname.start
  | cons c cs => simpa [hcons] using hname.start

theorem placeholder_of_matchAt {s name rest : List Char} (h : matchAt s = some (name, rest)) :
    ∃ text, Placeholder name text ∧ s = text ++ rest := by
  unfold matchAt at h
  split at h
  · rename_i cs
    dsimp only at h
    split at h
    · rename_i hstart
      split at h
      · rename_i rest' hclose
        obtain ⟨rfl, rfl⟩ := Prod.mk.inj (Option.some.inj h)
        set inside := cs.dropWhile isWhitespace with hinside
        have hcs : cs.takeWhile isWhitespace ++ inside = cs := List.takeWhile_append_dropWhile
        have hname : inside.takeWhile isNameChar ++ inside.dropWhile isNameChar = inside := List.takeWhile_append_dropWhile
        have hblanks := List.takeWhile_append_dropWhile (p := isWhitespace) (l := inside.dropWhile isNameChar)
        rw [hclose] at hblanks
        refine ⟨_, ⟨⟨?_, fun c hc => List.mem_takeWhile_imp hc⟩, cs.takeWhile isWhitespace,
          (inside.dropWhile isNameChar).takeWhile isWhitespace, fun c hc => List.mem_takeWhile_imp hc,
          fun c hc => List.mem_takeWhile_imp hc, rfl⟩, ?_⟩
        · cases hcons : inside with
          | nil => simp [hcons] at hstart
          | cons c ds =>
            rw [hcons] at hstart
            have hc : isNameStart c = true := by simpa using hstart
            rw [List.takeWhile_cons_of_pos (isNameChar_of_start hc)]
            exact hstart
        · simp only [List.cons_append, List.append_assoc, List.nil_append]
          rw [hblanks, hname, hcs]
      · cases h
    · cases h
  · cases h

theorem matchAt_eq_some_iff {s name rest : List Char} :
    matchAt s = some (name, rest) ↔ ∃ text, Placeholder name text ∧ s = text ++ rest := by
  refine ⟨placeholder_of_matchAt, ?_⟩
  rintro ⟨text, htext, rfl⟩
  exact matchAt_of_placeholder htext rest

/-! ## Reading -/

inductive Piece
  | lit (c : Char)
  | var (name : List Char)

/-- The matches from the left, and the characters between them. The first `n` characters belong to a match. -/
def scan : ℕ → List Char → List Piece
  | _, [] => []
  | n + 1, _ :: cs => scan n cs
  | 0, c :: cs =>
    match matchAt (c :: cs) with
    | some (name, rest) => .var name :: scan (cs.length - rest.length) cs
    | none => .lit c :: scan 0 cs

def parse (s : List Char) : List Piece := scan 0 s

theorem scan_eq_drop (n : ℕ) (s : List Char) : scan n s = parse (s.drop n) := by
  induction s generalizing n with
  | nil => cases n <;> rfl
  | cons c s ih =>
    cases n with
    | zero => rfl
    | succ n => exact ih n

@[simp]
theorem parse_nil : parse [] = [] := rfl

theorem parse_cons_of_none {c : Char} {cs : List Char} (h : matchAt (c :: cs) = none) : parse (c :: cs) = .lit c :: parse cs := by
  unfold parse
  rw [scan, h]

theorem placeholder_cons {name text : List Char} (h : Placeholder name text) :
    ∃ c body, text = '{' :: '{' :: c :: body ∧ '{' ∉ c :: body := by
  obtain ⟨hname, a, b, ha, hb, rfl⟩ := h
  obtain ⟨c, body, hbody⟩ := List.exists_cons_of_ne_nil (l := a ++ (name ++ (b ++ ['}', '}']))) (by simp)
  refine ⟨c, body, by rw [hbody], ?_⟩
  rw [← hbody]
  intro hmem
  simp only [List.mem_append, List.mem_cons, List.not_mem_nil, or_false] at hmem
  rcases hmem with hmem | hmem | hmem | hmem
  · exact absurd (ha _ hmem) (by decide)
  · exact (not_blank_of_name (hname.chars _ hmem)).2.1 rfl
  · exact absurd (hb _ hmem) (by decide)
  · exact absurd hmem (by decide)

theorem parse_placeholder {name text : List Char} (h : Placeholder name text) (rest : List Char) :
    parse (text ++ rest) = .var name :: parse rest := by
  have hmatch := matchAt_of_placeholder h rest
  obtain ⟨c, body, rfl, -⟩ := placeholder_cons h
  unfold parse
  rw [List.cons_append] at hmatch ⊢
  rw [scan, hmatch]
  dsimp only
  rw [scan_eq_drop]
  have hlength : ('{' :: c :: body ++ rest).length - rest.length = ('{' :: c :: body).length := by
    rw [List.length_append, Nat.add_sub_cancel]
  rw [hlength, List.drop_left]
  rfl

/-! ## Writing -/

/-- No placeholder is in the text. -/
def Clean (text : List Char) : Prop := ∀ name ph, Placeholder name ph → ¬ ph <:+: text

/-- A literal, and then a placeholder with its name and a literal in turn. -/
structure Written where
  first : List Char
  rest : List (List Char × List Char × List Char)

namespace Written

structure Sound (w : Written) : Prop where
  first : Clean w.first
  rest : ∀ e ∈ w.rest, Placeholder e.1 e.2.1 ∧ Clean e.2.2

def text (w : Written) : List Char := w.first ++ w.rest.flatMap fun e => e.2.1 ++ e.2.2

/-- With something else for each name. -/
def fill (f : List Char → List Char) (w : Written) : List Char := w.first ++ w.rest.flatMap fun e => f e.1 ++ e.2.2

def names (w : Written) : List (List Char) := w.rest.map Prod.fst

def pieces (w : Written) : List Piece := w.first.map .lit ++ w.rest.flatMap fun e => .var e.1 :: e.2.2.map .lit

end Written

/-- A literal in front of a placeholder, or at the end, has no match in it. -/
theorem matchAt_clean {c : Char} {cs tail : List Char} (hclean : Clean (c :: cs))
    (htail : tail = [] ∨ ∃ name ph rest, Placeholder name ph ∧ tail = ph ++ rest) : matchAt (c :: cs ++ tail) = none := by
  rw [Option.eq_none_iff_forall_ne_some]
  rintro ⟨name, r⟩ hmatch
  obtain ⟨ph, hph, heq⟩ := placeholder_of_matchAt hmatch
  rcases List.append_eq_append_iff.mp heq with ⟨x, hx, htail'⟩ | ⟨x, hx, -⟩
  · cases x with
    | nil =>
      rw [List.append_nil] at hx
      exact hclean name ph hph (hx ▸ List.infix_rfl)
    | cons d x =>
      -- The match would have to end in the next placeholder, and its opening braces are one too many.
      rcases htail with rfl | ⟨name', ph', rest, hph', rfl⟩
      · cases htail'
      · obtain ⟨e, body, rfl, hbody⟩ := placeholder_cons hph
        obtain ⟨e', body', rfl, hbody'⟩ := placeholder_cons hph'
        obtain ⟨rfl, hrest⟩ := List.cons.inj htail'
        obtain ⟨hc, hcs⟩ := List.cons.inj hx
        cases cs with
        | nil =>
          obtain ⟨-, rfl⟩ := List.cons.inj hcs
          exact hbody (by rw [← (List.cons.inj hrest).1]; exact List.mem_cons_self)
        | cons c' cs =>
          apply hbody
          rw [(List.cons.inj hcs).2]
          simp
  · exact hclean name ph hph ⟨[], x, by rw [List.nil_append, hx]⟩

theorem Clean.tail {c : Char} {cs : List Char} (h : Clean (c :: cs)) : Clean cs :=
  fun name ph hph hin => h name ph hph (hin.trans (List.suffix_cons c cs).isInfix)

theorem parse_clean {lit tail : List Char} (hclean : Clean lit)
    (htail : tail = [] ∨ ∃ name ph rest, Placeholder name ph ∧ tail = ph ++ rest) :
    parse (lit ++ tail) = lit.map .lit ++ parse tail := by
  induction lit with
  | nil => rfl
  | cons c lit ih =>
    have hnone := matchAt_clean hclean htail
    rw [List.cons_append] at hnone ⊢
    rw [parse_cons_of_none hnone, ih hclean.tail]
    rfl

/-- What is written is read. -/
theorem parse_text {w : Written} (h : w.Sound) : parse w.text = w.pieces := by
  obtain ⟨first, rest⟩ := w
  obtain ⟨hfirst, hrest⟩ := h
  unfold Written.text Written.pieces
  dsimp only at hfirst hrest ⊢
  induction rest generalizing first with
  | nil => exact parse_clean hfirst (.inl rfl)
  | cons e rest ih =>
    rw [List.forall_mem_cons] at hrest
    obtain ⟨⟨hph, hlit⟩, hrest⟩ := hrest
    rw [List.flatMap_cons, List.flatMap_cons, List.append_assoc, parse_clean hfirst (.inr ⟨_, _, _, hph, rfl⟩),
      parse_placeholder hph, ih e.2.2 hlit hrest]
    simp

/-- Every text is written in this way. -/
theorem exists_written (s : List Char) : ∃ w : Written, w.Sound ∧ w.text = s := by
  induction h : s.length using Nat.strong_induction_on generalizing s with
  | _ n ih =>
    cases s with
    | nil =>
      refine ⟨⟨[], []⟩, ⟨?_, by simp⟩, rfl⟩
      intro name ph hph hin
      obtain ⟨c, body, rfl, -⟩ := placeholder_cons hph
      simp at hin
    | cons c cs =>
      cases hmatch : matchAt (c :: cs) with
      | some p =>
        obtain ⟨name, rest⟩ := p
        obtain ⟨ph, hph, heq⟩ := placeholder_of_matchAt hmatch
        have hlength : rest.length < n := by
          obtain ⟨d, body, rfl, -⟩ := placeholder_cons hph
          rw [← h, heq]
          simp
          omega
        obtain ⟨w, hw, htext⟩ := ih _ hlength rest rfl
        refine ⟨⟨[], (name, ph, w.first) :: w.rest⟩, ⟨?_, ?_⟩, ?_⟩
        · intro name' ph' hph' hin
          obtain ⟨d, body, rfl, -⟩ := placeholder_cons hph'
          simp at hin
        · rw [List.forall_mem_cons]
          exact ⟨⟨hph, hw.first⟩, hw.rest⟩
        · rw [heq, ← htext]
          simp [Written.text]
      | none =>
        obtain ⟨w, hw, htext⟩ := ih cs.length (by rw [← h]; simp) cs rfl
        refine ⟨⟨c :: w.first, w.rest⟩, ⟨?_, hw.rest⟩, by rw [← htext]; rfl⟩
        intro name ph hph hin
        rcases List.infix_cons_iff.mp hin with hprefix | hin
        · obtain ⟨x, hx⟩ := hprefix
          have hsome := matchAt_of_placeholder hph (x ++ w.rest.flatMap fun e => e.2.1 ++ e.2.2)
          rw [← List.append_assoc, hx, List.cons_append] at hsome
          rw [← htext] at hmatch
          rw [show c :: w.text = c :: (w.first ++ w.rest.flatMap fun e => e.2.1 ++ e.2.2) from rfl, hsome] at hmatch
          cases hmatch
        · exact hw.first name ph hph hin

/-! ## Names -/

def Piece.name? : Piece → Option (List Char)
  | .lit _ => none
  | .var name => some name

/-- The names of a text, from the left. -/
def names (s : List Char) : List (List Char) := (parse s).filterMap Piece.name?

theorem filterMap_lits (lit : List Char) : (lit.map Piece.lit).filterMap Piece.name? = [] := by
  induction lit with
  | nil => rfl
  | cons c lit ih => exact ih

theorem names_text {w : Written} (h : w.Sound) : names w.text = w.names := by
  unfold names Written.names
  rw [parse_text h, Written.pieces, List.filterMap_append, filterMap_lits, List.nil_append]
  induction w.rest with
  | nil => rfl
  | cons e rest ih =>
    rw [List.flatMap_cons, List.filterMap_append, List.filterMap_cons, filterMap_lits, ih]
    rfl

/-- One placeholder with blanks around it. -/
theorem parse_blanks {name ph a b : List Char} (hph : Placeholder name ph) (ha : ∀ c ∈ a, isWhitespace c = true)
    (hb : ∀ c ∈ b, isWhitespace c = true) : parse (a ++ (ph ++ b)) = a.map .lit ++ .var name :: b.map .lit := by
  have hclean : ∀ {t : List Char}, (∀ c ∈ t, isWhitespace c = true) → Clean t := by
    intro t ht name' ph' hph' hin
    obtain ⟨d, body, rfl, -⟩ := placeholder_cons hph'
    exact absurd (ht '{' (hin.subset List.mem_cons_self)) (by decide)
  have hsound : Written.Sound ⟨a, [(name, ph, b)]⟩ := ⟨hclean ha, by simpa using ⟨hph, hclean hb⟩⟩
  have hparse := parse_text hsound
  simpa [Written.text, Written.pieces] using hparse

end Template
