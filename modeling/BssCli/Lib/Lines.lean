import BssCli.Lib.Text
import Mathlib.Data.List.Infix

/-!
# Lines

What Rust's `str::lines` does, the ink of a text (what is left of it without the blanks), and texts that are
read in sections, each under a header line.
-/

namespace Text

theorem trim_eq_rdropWhile (cs : List Char) : trim cs = (cs.dropWhile isWhitespace).rdropWhile isWhitespace := rfl

/-- `trim_end` -/
def trimEnd (cs : List Char) : List Char := cs.rdropWhile isWhitespace

/-! ## The ends of lines -/

/-- A carriage return before a line feed belongs to the end of the line. -/
def crlf : List Char → List Char
  | [] => []
  | c :: cs => if c = '\r' ∧ cs.head? = some '\n' then crlf cs else c :: crlf cs

def pushLine (c : Char) : List (List Char) → List (List Char)
  | [] => [[c]]
  | l :: ls => (c :: l) :: ls

/-- The pieces between line feeds. A line feed at the end opens no further piece. -/
def pieces : List Char → List (List Char)
  | [] => []
  | c :: cs => if c = '\n' then [] :: pieces cs else pushLine c (pieces cs)

/-- `split` at a character. -/
def splitChar (sep : Char) : List Char → List (List Char)
  | [] => [[]]
  | c :: cs => if c = sep then [] :: splitChar sep cs else pushLine c (splitChar sep cs)

theorem mem_pushLine {c x : Char} {ls : List (List Char)} {l : List Char} (hl : l ∈ pushLine c ls) (hx : x ∈ l) :
    x = c ∨ ∃ m ∈ ls, x ∈ m := by
  cases ls with
  | nil =>
    obtain rfl := List.mem_singleton.mp hl
    exact .inl (List.mem_singleton.mp hx)
  | cons m ls =>
    rcases List.mem_cons.mp hl with rfl | hl
    · exact (List.mem_cons.mp hx).imp_right fun hx => ⟨m, List.mem_cons_self, hx⟩
    · exact .inr ⟨l, List.mem_cons_of_mem _ hl, hx⟩

theorem splitChar_ne_nil (sep : Char) (cs : List Char) : splitChar sep cs ≠ [] := by
  cases cs with
  | nil => exact List.cons_ne_nil _ _
  | cons c cs =>
    unfold splitChar
    split_ifs
    · exact List.cons_ne_nil _ _
    · unfold pushLine
      split <;> exact List.cons_ne_nil _ _

/-- A piece has what the text has, but for the separator. -/
theorem mem_splitChar {sep : Char} {s : List Char} : ∀ l ∈ splitChar sep s, ∀ x ∈ l, x ∈ s ∧ x ≠ sep := by
  induction s with
  | nil =>
    intro l hl x hx
    rw [splitChar, List.mem_singleton] at hl
    rw [hl] at hx
    cases hx
  | cons c s ih =>
    intro l hl x hx
    unfold splitChar at hl
    split at hl
    · rcases List.mem_cons.mp hl with rfl | hl
      · cases hx
      · exact (ih l hl x hx).imp_left (List.mem_cons_of_mem c)
    · rename_i hc
      rcases mem_pushLine hl hx with rfl | ⟨m, hm, hx⟩
      · exact ⟨List.mem_cons_self, hc⟩
      · exact (ih m hm x hx).imp_left (List.mem_cons_of_mem c)

/-- `lines` -/
def lines (cs : List Char) : List (List Char) := pieces (crlf cs)

/-- `join("\n")` -/
def joinLines (ls : List (List Char)) : List Char := ['\n'].intercalate ls

/-- A text of whole lines. -/
def Whole (cs : List Char) : Prop := cs = [] ∨ ∃ a, cs = a ++ ['\n']

theorem Whole.append {a b : List Char} (ha : Whole a) (hb : Whole b) : Whole (a ++ b) := by
  rcases hb with rfl | ⟨b, rfl⟩
  · rwa [List.append_nil]
  · exact .inr ⟨a ++ b, by rw [List.append_assoc]⟩

theorem Whole.suffix {a b : List Char} (hb : Whole b) (h : a <:+ b) : Whole a := by
  rcases hb with rfl | ⟨b, rfl⟩
  · exact .inl (List.suffix_nil.mp h)
  · rcases List.suffix_concat_iff.mp h with rfl | ⟨t, rfl, -⟩
    · exact .inl rfl
    · exact .inr ⟨t, rfl⟩

theorem crlf_of_not_mem {a : List Char} (h : '\n' ∉ a) : crlf a = a := by
  induction a with
  | nil => rfl
  | cons c cs ih =>
    have hc : ¬ (c = '\r' ∧ cs.head? = some '\n') :=
      fun hc => h (List.mem_cons_of_mem c (List.mem_of_head? hc.2))
    rw [crlf, if_neg hc, ih fun hn => h (List.mem_cons_of_mem c hn)]

theorem crlf_append {a : List Char} (h : Whole a) (b : List Char) : crlf (a ++ b) = crlf a ++ crlf b := by
  rcases h with rfl | ⟨a, rfl⟩
  · rfl
  · induction a with
    | nil =>
      show crlf ('\n' :: b) = crlf ['\n'] ++ crlf b
      simp [crlf]
    | cons c cs ih =>
      have hhead : (cs ++ ['\n'] ++ b).head? = (cs ++ ['\n']).head? := by
        cases cs <;> rfl
      simp only [List.cons_append] at ih ⊢
      rw [crlf, crlf, hhead, ih]
      split <;> rfl

theorem pushLine_append (c : Char) {ls : List (List Char)} (h : ls ≠ []) (ms : List (List Char)) :
    pushLine c (ls ++ ms) = pushLine c ls ++ ms := by
  cases ls with
  | nil => exact absurd rfl h
  | cons l ls => rfl

theorem pieces_ne_nil {cs : List Char} (h : cs ≠ []) : pieces cs ≠ [] := by
  cases cs with
  | nil => exact absurd rfl h
  | cons c cs =>
    unfold pieces
    split
    · exact List.cons_ne_nil _ _
    · cases pieces cs <;> exact List.cons_ne_nil _ _

theorem pieces_append {a : List Char} (h : Whole a) (b : List Char) : pieces (a ++ b) = pieces a ++ pieces b := by
  rcases h with rfl | ⟨a, rfl⟩
  · rfl
  · induction a with
    | nil =>
      show pieces ('\n' :: b) = pieces ['\n'] ++ pieces b
      simp [pieces]
    | cons c cs ih =>
      rw [List.append_assoc] at ih
      rw [List.cons_append, List.cons_append, pieces, pieces, List.append_assoc, ih]
      split
      · rfl
      · exact pushLine_append c (pieces_ne_nil (by simp)) _

theorem Whole.crlf {a : List Char} (h : Whole a) : Whole (crlf a) := by
  rcases h with rfl | ⟨a, rfl⟩
  · exact .inl rfl
  · refine .inr ?_
    induction a with
    | nil => exact ⟨[], rfl⟩
    | cons c cs ih =>
      obtain ⟨t, ht⟩ := ih
      rw [List.cons_append, Text.crlf, ht]
      split
      · exact ⟨t, rfl⟩
      · exact ⟨c :: t, rfl⟩

/-- Lines are read one text of whole lines after the other. -/
theorem lines_append {a : List Char} (h : Whole a) (b : List Char) : lines (a ++ b) = lines a ++ lines b := by
  rw [lines, crlf_append h, pieces_append h.crlf]
  rfl

theorem pieces_cons_of_not_mem {l : List Char} (h : '\n' ∉ l) (cs : List Char) :
    pieces (l ++ '\n' :: cs) = l :: pieces cs := by
  induction l with
  | nil => rfl
  | cons c l ih =>
    have hc : c ≠ '\n' := fun hc => h (hc ▸ List.mem_cons_self ..)
    rw [List.cons_append, pieces, if_neg hc, ih fun hn => h (List.mem_cons_of_mem c hn)]
    rfl

/-- A line of its own, which no carriage return ends. -/
theorem lines_singleton {l : List Char} (h : '\n' ∉ l) (hcr : l.getLast? ≠ some '\r') :
    lines (l ++ ['\n']) = [l] := by
  have hcrlf : crlf (l ++ ['\n']) = l ++ ['\n'] := by
    induction l with
    | nil => rfl
    | cons c cs ih =>
      have hc : ¬ (c = '\r' ∧ (cs ++ ['\n']).head? = some '\n') := by
        rintro ⟨rfl, hhead⟩
        cases cs with
        | nil => exact hcr rfl
        | cons d cs => exact h (by simp_all)
      have hlast : cs.getLast? ≠ some '\r' := by
        cases cs with
        | nil => simp
        | cons d cs => rwa [List.getLast?_cons_cons] at hcr
      rw [List.cons_append, crlf, if_neg hc, ih (fun hn => h (List.mem_cons_of_mem c hn)) hlast]
  rw [lines, hcrlf, pieces_cons_of_not_mem h]
  rfl

theorem lines_crlf {l : List Char} (h : '\n' ∉ l) : lines (l ++ ['\r', '\n']) = [l] := by
  have hcrlf : crlf (l ++ ['\r', '\n']) = l ++ ['\n'] := by
    induction l with
    | nil => rfl
    | cons c cs ih =>
      have hc : ¬ (c = '\r' ∧ (cs ++ ['\r', '\n']).head? = some '\n') := by
        rintro ⟨-, hhead⟩
        cases cs with
        | nil => exact absurd hhead (by simp)
        | cons d ds => exact h (by simp_all)
      rw [List.cons_append, crlf, if_neg hc, ih fun hn => h (List.mem_cons_of_mem c hn)]
      rfl
  rw [lines, hcrlf, pieces_cons_of_not_mem h]
  rfl

theorem lines_of_not_mem {l : List Char} (hne : l ≠ []) (h : '\n' ∉ l) : lines l = [l] := by
  rw [lines, crlf_of_not_mem h]
  induction l with
  | nil => exact absurd rfl hne
  | cons c cs ih =>
    have hc : c ≠ '\n' := fun hc => h (hc ▸ List.mem_cons_self ..)
    rw [pieces, if_neg hc]
    rcases eq_or_ne cs [] with rfl | hcs
    · rfl
    · rw [ih hcs fun hn => h (List.mem_cons_of_mem c hn)]
      rfl

theorem exists_last_line (cs : List Char) : ∃ a l, cs = a ++ l ∧ Whole a ∧ '\n' ∉ l := by
  induction cs using List.reverseRecOn with
  | nil => exact ⟨[], [], rfl, .inl rfl, List.not_mem_nil⟩
  | append_singleton cs c ih =>
    obtain ⟨a, l, rfl, ha, hl⟩ := ih
    by_cases hc : c = '\n'
    · exact ⟨a ++ l ++ [c], [], (List.append_nil _).symm, .inr ⟨a ++ l, by rw [hc]⟩, List.not_mem_nil⟩
    · refine ⟨a, l ++ [c], List.append_assoc .., ha, fun h => ?_⟩
      rcases List.mem_append.mp h with h | h
      · exact hl h
      · exact hc (List.mem_singleton.mp h).symm

/-- One more line feed opens no line with ink: there is an empty line more, or the last line has lost a carriage
return, or nothing is different. -/
theorem lines_append_newline (cs : List Char) :
    lines (cs ++ ['\n']) = lines cs ++ [[]] ∨ lines (cs ++ ['\n']) = lines cs ∨
      ∃ ls l, lines cs = ls ++ [l ++ ['\r']] ∧ lines (cs ++ ['\n']) = ls ++ [l] := by
  obtain ⟨a, l, rfl, ha, hl⟩ := exists_last_line cs
  rw [List.append_assoc, lines_append ha, lines_append ha]
  rcases eq_or_ne l [] with rfl | hne
  · exact .inl (by rw [show lines [] = [] from rfl, List.append_nil]; rfl)
  · refine .inr ?_
    rw [lines_of_not_mem hne hl]
    by_cases hcr : l.getLast? = some '\r'
    · have hend := List.dropLast_append_getLast? _ hcr
      have hlast : lines (l ++ ['\n']) = [l.dropLast] := by
        rw [← hend, List.append_assoc, List.dropLast_concat]
        exact lines_crlf fun h => hl (List.mem_of_mem_dropLast h)
      exact .inr ⟨lines a, l.dropLast, by rw [hend], by rw [hlast]⟩
    · exact .inl (by rw [lines_singleton hl hcr])

theorem not_mem_of_mem_pieces {cs l : List Char} (h : l ∈ pieces cs) : '\n' ∉ l := by
  induction cs generalizing l with
  | nil => exact absurd h List.not_mem_nil
  | cons c cs ih =>
    unfold pieces at h
    split at h
    · rcases List.mem_cons.mp h with rfl | h
      · exact List.not_mem_nil
      · exact ih h
    · rename_i hc
      cases hp : pieces cs with
      | nil =>
        rw [hp, pushLine, List.mem_singleton] at h
        subst h
        simpa using fun h => hc h.symm
      | cons p ps =>
        rw [hp, pushLine, List.mem_cons] at h
        rcases h with rfl | h
        · have := ih (hp ▸ List.mem_cons_self ..)
          simp only [List.mem_cons, not_or]
          exact ⟨fun h => hc h.symm, this⟩
        · exact ih (hp ▸ List.mem_cons_of_mem p h)

theorem not_mem_of_mem_lines {cs l : List Char} (h : l ∈ lines cs) : '\n' ∉ l := not_mem_of_mem_pieces h

/-- A text that begins with no blank has that character in front of its first line. -/
theorem exists_lines_cons {c : Char} (h : isWhitespace c = false) (cs : List Char) :
    ∃ l ls, lines (c :: cs) = (c :: l) :: ls := by
  have hcr : ¬ (c = '\r' ∧ cs.head? = some '\n') := fun hc => absurd (hc.1 ▸ h) (by decide)
  have hn : c ≠ '\n' := fun hc => absurd (hc ▸ h) (by decide)
  rw [lines, crlf, if_neg hcr, pieces, if_neg hn]
  cases pieces (crlf cs) with
  | nil => exact ⟨[], [], rfl⟩
  | cons l ls => exact ⟨l, ls, rfl⟩

/-! ## Ink -/

/-- How many characters are not blank. -/
def ink (cs : List Char) : Nat := cs.countP fun c => !isWhitespace c

@[simp] theorem ink_nil : ink [] = 0 := rfl

@[simp] theorem ink_append (a b : List Char) : ink (a ++ b) = ink a + ink b := List.countP_append

theorem ink_cons (c : Char) (cs : List Char) : ink (c :: cs) = ink [c] + ink cs := ink_append [c] cs

theorem ink_blank {c : Char} (h : isWhitespace c = true) : ink [c] = 0 := by
  simp [ink, h]

theorem ink_pos {c : Char} (h : isWhitespace c = false) (cs : List Char) : 0 < ink (c :: cs) := by
  rw [ink_cons]
  simp [ink, h]

theorem ink_dropWhile (cs : List Char) : ink (cs.dropWhile isWhitespace) = ink cs := by
  induction cs with
  | nil => rfl
  | cons c cs ih =>
    rw [List.dropWhile_cons]
    split
    · rename_i hc
      rw [ih, ink_cons c cs, ink_blank hc, Nat.zero_add]
    · rfl

theorem ink_trimEnd (cs : List Char) : ink (trimEnd cs) = ink cs := by
  induction cs using List.reverseRecOn with
  | nil => rfl
  | append_singleton cs c ih =>
    rw [trimEnd, List.rdropWhile_concat]
    split
    · rename_i hc
      rw [ink_append, ink_blank hc, Nat.add_zero]
      exact ih
    · rfl

@[simp] theorem ink_trim (cs : List Char) : ink (trim cs) = ink cs := by
  rw [trim_eq_rdropWhile]
  exact (ink_trimEnd _).trans (ink_dropWhile cs)

theorem ink_crlf (cs : List Char) : ink (crlf cs) = ink cs := by
  induction cs with
  | nil => rfl
  | cons c cs ih =>
    rw [crlf]
    split
    · rename_i hc
      rw [ih, hc.1, ink_cons '\r' cs, ink_blank rfl, Nat.zero_add]
    · rw [ink_cons, ih, ← ink_cons]

def inkOf (ls : List (List Char)) : Nat := (ls.map ink).sum

@[simp] theorem inkOf_nil : inkOf [] = 0 := rfl

@[simp] theorem inkOf_cons (l : List Char) (ls : List (List Char)) : inkOf (l :: ls) = ink l + inkOf ls := by
  simp [inkOf]

@[simp] theorem inkOf_append (ls ms : List (List Char)) : inkOf (ls ++ ms) = inkOf ls + inkOf ms := by
  simp [inkOf]

theorem le_inkOf_of_mem {l : List Char} {ls : List (List Char)} (h : l ∈ ls) : ink l ≤ inkOf ls := by
  obtain ⟨xs, ys, rfl⟩ := List.append_of_mem h
  rw [inkOf_append, inkOf_cons]
  omega

theorem inkOf_pieces (cs : List Char) : inkOf (pieces cs) = ink cs := by
  induction cs with
  | nil => rfl
  | cons c cs ih =>
    rw [pieces, ink_cons, ← ih]
    split
    · rename_i hc
      rw [hc, ink_blank rfl, inkOf_cons, ink_nil]
    · cases pieces cs with
      | nil => rfl
      | cons l ls => rw [pushLine, inkOf_cons, inkOf_cons, ink_cons, Nat.add_assoc]

@[simp] theorem inkOf_lines (cs : List Char) : inkOf (lines cs) = ink cs := (inkOf_pieces _).trans (ink_crlf cs)

@[simp] theorem ink_joinLines (ls : List (List Char)) : ink (joinLines ls) = inkOf ls := by
  induction ls with
  | nil => rfl
  | cons l ls ih =>
    cases ls with
    | nil => simp [joinLines, List.intercalate]
    | cons m ls =>
      have hsplit : joinLines (l :: m :: ls) = l ++ '\n' :: joinLines (m :: ls) := by
        simp [joinLines, List.intercalate]
      rw [hsplit, ink_append, ink_cons, ink_blank rfl, ih, inkOf_cons l, Nat.zero_add]

/-! ## Lines joined again -/

theorem joinLines_cons {l : List Char} {ls : List (List Char)} (h : ls ≠ []) :
    joinLines (l :: ls) = l ++ '\n' :: joinLines ls := by
  obtain ⟨m, ls, rfl⟩ := List.exists_cons_of_ne_nil h
  simp [joinLines, List.intercalate]

theorem joinLines_append {xs ys : List (List Char)} (hx : xs ≠ []) (hy : ys ≠ []) :
    joinLines (xs ++ ys) = joinLines xs ++ '\n' :: joinLines ys := by
  induction xs with
  | nil => exact absurd rfl hx
  | cons x xs ih =>
    rcases eq_or_ne xs [] with rfl | hxs
    · rw [List.singleton_append, joinLines_cons hy]
      simp [joinLines, List.intercalate]
    · rw [List.cons_append, joinLines_cons (List.append_ne_nil_of_left_ne_nil hxs ys), ih hxs, joinLines_cons hxs,
        List.append_assoc]
      rfl

theorem joinLines_singleton (l : List Char) : joinLines [l] = l := by
  simp [joinLines, List.intercalate]

theorem joinLines_concat_append (ls : List (List Char)) (l m : List Char) :
    joinLines (ls ++ [l ++ m]) = joinLines (ls ++ [l]) ++ m := by
  rcases eq_or_ne ls [] with rfl | hne
  · rw [List.nil_append, List.nil_append, joinLines_singleton, joinLines_singleton]
  · rw [joinLines_append hne (List.cons_ne_nil _ _), joinLines_append hne (List.cons_ne_nil _ _), joinLines_singleton,
      joinLines_singleton, List.append_assoc]
    rfl

theorem joinLines_concat_nil {ls : List (List Char)} (h : ls ≠ []) : joinLines (ls ++ [[]]) = joinLines ls ++ ['\n'] := by
  rw [joinLines_append h (List.cons_ne_nil _ _), joinLines_singleton]

/-- Joined again, the pieces are the text without a line feed at its end. -/
theorem joinLines_pieces (cs : List Char) : cs = joinLines (pieces cs) ∨ cs = joinLines (pieces cs) ++ ['\n'] := by
  induction cs with
  | nil => exact .inl rfl
  | cons c cs ih =>
    rcases eq_or_ne cs [] with rfl | hcs
    · by_cases hc : c = '\n'
      · exact .inr (by rw [hc]; rfl)
      · exact .inl (by rw [pieces, if_neg hc]; rfl)
    · have hjoin : joinLines (pieces (c :: cs)) = c :: joinLines (pieces cs) := by
        obtain ⟨p, ps, hp⟩ := List.exists_cons_of_ne_nil (pieces_ne_nil hcs)
        rw [pieces]
        split
        · rename_i hc
          rw [joinLines_cons (pieces_ne_nil hcs), hc]
          rfl
        · rw [hp, pushLine]
          rcases eq_or_ne ps [] with rfl | hps
          · simp [joinLines, List.intercalate]
          · rw [joinLines_cons hps, joinLines_cons hps]
            rfl
      rw [hjoin]
      rcases ih with h | h
      · exact .inl (by rw [← h])
      · exact .inr (by rw [List.cons_append, ← h])

theorem trim_append_blank (cs : List Char) {c : Char} (h : isWhitespace c = true) : trim (cs ++ [c]) = trim cs := by
  rw [trim_eq_rdropWhile, trim_eq_rdropWhile, List.dropWhile_append]
  split
  · rename_i hnil
    rw [List.isEmpty_iff.mp hnil, List.dropWhile_cons_of_pos h]
    rfl
  · rw [List.rdropWhile_concat, if_pos h]

theorem trimEnd_append_blank (cs : List Char) {c : Char} (h : isWhitespace c = true) :
    trimEnd (cs ++ [c]) = trimEnd cs := by
  rw [trimEnd, List.rdropWhile_concat, if_pos h]
  rfl

theorem crlf_dropWhile (cs : List Char) : (crlf cs).dropWhile isWhitespace = crlf (cs.dropWhile isWhitespace) := by
  induction cs with
  | nil => rfl
  | cons c cs ih =>
    by_cases hc : isWhitespace c = true
    · rw [List.dropWhile_cons_of_pos hc, ← ih, crlf]
      split
      · rfl
      · rw [List.dropWhile_cons_of_pos hc]
    · have hcr : ¬ (c = '\r' ∧ cs.head? = some '\n') := fun h => hc (h.1 ▸ rfl)
      rw [List.dropWhile_cons_of_neg hc, crlf, if_neg hcr, List.dropWhile_cons_of_neg hc]

theorem crlf_eq_nil {cs : List Char} (h : crlf cs = []) : cs = [] := by
  induction cs with
  | nil => rfl
  | cons c cs ih =>
    rw [crlf] at h
    split at h
    · rename_i hc
      rw [ih h] at hc
      exact absurd hc.2 (by simp)
    · exact absurd h (List.cons_ne_nil _ _)

theorem rdropWhile_cons (p : Char → Bool) (c : Char) (cs : List Char) :
    (c :: cs).rdropWhile p = if cs.rdropWhile p = [] then (if p c then [] else [c]) else c :: cs.rdropWhile p := by
  simp only [List.rdropWhile, List.reverse_cons, List.dropWhile_append, List.reverse_eq_nil_iff, List.isEmpty_iff]
  split
  · rw [List.dropWhile_cons, List.dropWhile_nil]
    split <;> rfl
  · rw [List.reverse_append]
    rfl

theorem crlf_rdropWhile (cs : List Char) : (crlf cs).rdropWhile isWhitespace = crlf (cs.rdropWhile isWhitespace) := by
  induction cs with
  | nil => rfl
  | cons c cs ih =>
    -- What is left of `cs` begins as `cs` does.
    have hhead : cs.rdropWhile isWhitespace ≠ [] → (cs.rdropWhile isWhitespace).head? = cs.head? := by
      intro hne
      obtain ⟨t, ht⟩ := List.rdropWhile_prefix isWhitespace cs
      rw [← congrArg List.head? ht, List.head?_append_of_ne_nil _ hne]
    rw [rdropWhile_cons, crlf]
    split
    · rename_i hc
      rw [ih]
      split
      · rename_i hnil
        rw [hnil, hc.1]
        rfl
      · rename_i hne
        rw [crlf, if_pos ⟨hc.1, (hhead hne).trans hc.2⟩]
    · rename_i hc
      rw [rdropWhile_cons, ih]
      split
      · rename_i hnil
        rw [if_pos (crlf_eq_nil hnil)]
        split
        · rfl
        · simp [crlf]
      · rename_i hne
        have hne' : cs.rdropWhile isWhitespace ≠ [] := fun h => hne (by rw [h]; rfl)
        rw [if_neg hne', crlf, if_neg (by rwa [hhead hne'])]

/-- The lines of a text, joined again, lose the carriage returns before line feeds and no more, but for blanks at
both ends. -/
theorem trim_joinLines_lines (cs : List Char) : trim (joinLines (lines cs)) = crlf (trim cs) := by
  have hjoin : trim (joinLines (lines cs)) = trim (crlf cs) := by
    rcases joinLines_pieces (crlf cs) with h | h
    · rw [lines, ← h]
    · rw [lines, ← trim_append_blank _ (show isWhitespace '\n' = true from rfl), ← h]
  rw [hjoin, trim_eq_rdropWhile, trim_eq_rdropWhile, crlf_dropWhile, crlf_rdropWhile]

theorem crlf_length_le (cs : List Char) : (crlf cs).length ≤ cs.length := by
  induction cs with
  | nil => exact le_rfl
  | cons c cs ih =>
    rw [crlf]
    split
    · exact ih.trans (Nat.le_succ _)
    · exact Nat.succ_le_succ ih

theorem crlf_eq_self_iff (cs : List Char) : crlf cs = cs ↔ ¬ ['\r', '\n'] <:+: cs := by
  induction cs with
  | nil => simp [crlf]
  | cons c cs ih =>
    rw [crlf, List.infix_cons_iff]
    split
    · rename_i hc
      constructor
      · intro h
        have := crlf_length_le cs
        rw [h, List.length_cons] at this
        omega
      · intro h
        obtain ⟨d, ds, rfl⟩ : ∃ d ds, cs = d :: ds := by
          cases cs with
          | nil => exact absurd hc.2 (by simp)
          | cons d ds => exact ⟨d, ds, rfl⟩
        obtain rfl : d = '\n' := by simpa using hc.2
        exact absurd (.inl ⟨ds, by rw [hc.1]; rfl⟩) h
    · rename_i hc
      have hfront : ¬ ['\r', '\n'] <+: c :: cs := by
        rintro ⟨t, ht⟩
        obtain ⟨rfl, rfl⟩ := List.cons.inj ht
        exact hc ⟨rfl, rfl⟩
      rw [List.cons_inj_right, ih]
      simp [hfront]

/-! ## Sections -/

section
variable {α β : Type} (header : α → Option β)

/-- Every header line with the lines under it, up to the next one. What stands before the first is left out. -/
def sections : List α → List (β × List α)
  | [] => []
  | l :: ls =>
    match header l with
    | some b => (b, ls.takeWhile fun x => (header x).isNone) :: sections ls
    | none => sections ls

variable {header}

theorem sections_eq_nil {ls : List α} (h : ∀ l ∈ ls, header l = none) : sections header ls = [] := by
  induction ls with
  | nil => rfl
  | cons l ls ih =>
    rw [sections, h l (List.mem_cons_self ..)]
    exact ih fun m hm => h m (List.mem_cons_of_mem l hm)

/-- A header closes what stands before it. -/
theorem sections_append {l : α} {b : β} (h : header l = some b) (xs ls : List α) :
    sections header (xs ++ l :: ls) = sections header xs ++ sections header (l :: ls) := by
  induction xs with
  | nil => rfl
  | cons x xs ih =>
    have hstop : (xs ++ l :: ls).takeWhile (fun x => (header x).isNone) = xs.takeWhile fun x => (header x).isNone := by
      rw [List.takeWhile_append, List.takeWhile_cons, h]
      split
      · rename_i hlen
        rw [(List.takeWhile_prefix _).eq_of_length hlen]
        exact List.append_nil xs
      · rfl
    rw [List.cons_append, sections, ih, hstop]
    cases hx : header x <;> simp [sections, hx]

theorem sections_last {l : α} {b : β} (h : header l = some b) {ls : List α} (hls : ∀ m ∈ ls, header m = none) :
    sections header (l :: ls) = [(b, ls)] := by
  have hall : ls.takeWhile (fun x => (header x).isNone) = ls := by
    rw [List.takeWhile_eq_self_iff]
    intro m hm
    rw [hls m hm]
    rfl
  rw [sections, h, sections_eq_nil hls, hall]

/-- The last header, when there is one. -/
theorem exists_last_header (header : α → Option β) (ls : List α) :
    (∀ l ∈ ls, header l = none) ∨
      ∃ xs l b ys, ls = xs ++ l :: ys ∧ header l = some b ∧ ∀ m ∈ ys, header m = none := by
  induction ls with
  | nil => exact .inl fun l hl => absurd hl List.not_mem_nil
  | cons l ls ih =>
    rcases ih with hnone | ⟨xs, m, b, ys, rfl, hb, hys⟩
    · cases hl : header l with
      | none => exact .inl (List.forall_mem_cons.mpr ⟨hl, hnone⟩)
      | some b => exact .inr ⟨[], l, b, ls, rfl, hl, hnone⟩
    · exact .inr ⟨l :: xs, m, b, ys, rfl, hb, hys⟩

end

end Text
