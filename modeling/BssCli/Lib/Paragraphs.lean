import BssCli.Lib.Lines

/-!
# Paragraphs

A text split at its blank lines, without the line feeds at both ends of a piece and without empty pieces.
-/

namespace Text

def blankLine : List Char := ['\n', '\n']

theorem isWhitespace_of_mem_blankLine {c : Char} (h : c ∈ blankLine) : isWhitespace c = true := by
  unfold blankLine at h
  obtain rfl : c = '\n' := by simpa using h
  rfl

/-- `split("\n\n")`, from the left. -/
def splitBlank : List Char → List (List Char)
  | [] => [[]]
  | [c] => [[c]]
  | c :: d :: cs => if c = '\n' ∧ d = '\n' then [] :: splitBlank cs else pushLine c (splitBlank (d :: cs))

/-- `trim_matches('\n')` -/
def trimNewlines (cs : List Char) : List Char := (cs.dropWhile (· = '\n')).rdropWhile (· = '\n')

def paragraphs (cs : List Char) : List (List Char) := ((splitBlank cs).map trimNewlines).filter fun p => p ≠ []

theorem splitBlank_ne_nil (cs : List Char) : splitBlank cs ≠ [] := by
  fun_induction splitBlank cs with
  | case1 => exact List.cons_ne_nil _ _
  | case2 => exact List.cons_ne_nil _ _
  | case3 => exact List.cons_ne_nil _ _
  | case4 c d cs _ ih =>
    obtain ⟨l, ls, h⟩ := List.exists_cons_of_ne_nil ih
    rw [h]
    exact List.cons_ne_nil _ _

theorem trimNewlines_cons (cs : List Char) : trimNewlines ('\n' :: cs) = trimNewlines cs := by
  rw [trimNewlines, List.dropWhile_cons_of_pos (by simp)]
  rfl

theorem trimNewlines_concat (cs : List Char) : trimNewlines (cs ++ ['\n']) = trimNewlines cs := by
  rw [trimNewlines, trimNewlines, List.dropWhile_append]
  split
  · rename_i hnil
    rw [List.isEmpty_iff.mp hnil]
    rfl
  · rw [List.rdropWhile_concat, if_pos (by simp)]

/-- Where a blank line stands, the text is split, or the split takes the line feed in front of it and leaves one. -/
theorem splitBlank_append (a b : List Char) :
    splitBlank (a ++ blankLine ++ b) = splitBlank a ++ splitBlank b ∨
      ∃ xs p, splitBlank a = xs ++ [p ++ ['\n']] ∧
        splitBlank (a ++ blankLine ++ b) = xs ++ p :: splitBlank ('\n' :: b) := by
  fun_induction splitBlank a with
  | case1 => exact .inl (by simp [blankLine, splitBlank])
  | case2 c =>
    by_cases hc : c = '\n'
    · exact .inr ⟨[], [], by rw [hc]; rfl, by simp [hc, blankLine, splitBlank]⟩
    · exact .inl (by simp [hc, blankLine, splitBlank, pushLine])
  | case3 c d cs h ih =>
    obtain ⟨rfl, rfl⟩ := h
    have hstep : ∀ x, splitBlank ('\n' :: '\n' :: x) = [] :: splitBlank x := fun x => by simp [splitBlank]
    simp only [List.cons_append, hstep]
    rcases ih with h | ⟨xs, p, ha, h⟩
    · exact .inl (by rw [h])
    · exact .inr ⟨[] :: xs, p, by rw [ha]; rfl, by rw [h]; rfl⟩
  | case4 c d cs h ih =>
    have hstep : ∀ x, splitBlank (c :: d :: x) = pushLine c (splitBlank (d :: x)) := fun x => by simp [splitBlank, h]
    simp only [List.cons_append, hstep] at ih ⊢
    rcases ih with h | ⟨xs, p, ha, h⟩
    · exact .inl (by rw [h, pushLine_append c (splitBlank_ne_nil _)])
    · rw [ha, h]
      cases xs with
      | nil => exact .inr ⟨[], c :: p, rfl, rfl⟩
      | cons x xs => exact .inr ⟨(c :: x) :: xs, p, rfl, rfl⟩

theorem paragraphs_cons_newline (b : List Char) : paragraphs ('\n' :: b) = paragraphs b := by
  induction b with
  | nil => rfl
  | cons c cs ih =>
    unfold paragraphs at ih ⊢
    by_cases hc : c = '\n'
    · rw [hc, ih, splitBlank, if_pos ⟨rfl, rfl⟩, List.map_cons, List.filter_cons_of_neg (by simp [trimNewlines])]
    · rw [splitBlank, if_neg fun h => hc h.2]
      obtain ⟨p, ps, hp⟩ := List.exists_cons_of_ne_nil (splitBlank_ne_nil (c :: cs))
      rw [hp, pushLine, List.map_cons, List.map_cons, trimNewlines_cons]

/-- The paragraphs on both sides of a blank line, one after the other. -/
theorem paragraphs_append (a b : List Char) : paragraphs (a ++ blankLine ++ b) = paragraphs a ++ paragraphs b := by
  rcases splitBlank_append a b with h | ⟨xs, p, ha, h⟩
  · rw [paragraphs, h, List.map_append, List.filter_append]
    rfl
  · have hb := paragraphs_cons_newline b
    unfold paragraphs at hb ⊢
    rw [h, ha, List.append_cons, List.map_append, List.filter_append, hb, List.map_append, List.map_append,
      List.map_singleton, List.map_singleton, trimNewlines_concat]

theorem paragraphs_of_unbroken {a : List Char} (h : ¬ blankLine <:+: a) (hne : trimNewlines a ≠ []) :
    paragraphs a = [trimNewlines a] := by
  have hsplit : splitBlank a = [a] := by
    clear hne
    fun_induction splitBlank a with
    | case1 => rfl
    | case2 => rfl
    | case3 c d cs hcd ih => exact absurd ⟨[], cs, by rw [hcd.1, hcd.2]; rfl⟩ h
    | case4 c d cs hcd ih =>
      rw [ih fun hi => h (hi.trans (List.suffix_cons c _).isInfix)]
      rfl
  rw [paragraphs, hsplit, List.map_singleton, List.filter_cons_of_pos (by simpa using hne), List.filter_nil]

/-- The first blank line. -/
theorem exists_first_blankLine {a : List Char} (h : blankLine <:+: a) :
    ∃ u v, a = u ++ blankLine ++ v ∧ ¬ blankLine <:+: u := by
  induction a with
  | nil => exact absurd (List.infix_nil.mp h) (List.cons_ne_nil _ _)
  | cons c cs ih =>
    by_cases hfront : blankLine <+: c :: cs
    · obtain ⟨v, hv⟩ := hfront
      exact ⟨[], v, hv.symm, by decide⟩
    · obtain ⟨u, v, rfl, hu⟩ := ih ((List.infix_cons_iff.mp h).resolve_left hfront)
      refine ⟨c :: u, v, rfl, fun hi => ?_⟩
      rcases List.infix_cons_iff.mp hi with hp | hi
      · exact hfront (hp.trans ⟨blankLine ++ v, by simp⟩)
      · exact hu hi

theorem rdropWhile_append (p : Char → Bool) (a b : List Char) :
    (a ++ b).rdropWhile p = if b.rdropWhile p = [] then a.rdropWhile p else a ++ b.rdropWhile p := by
  induction b using List.reverseRecOn with
  | nil => rw [List.append_nil, List.rdropWhile_nil, if_pos rfl]
  | append_singleton b c ih =>
    rw [← List.append_assoc, List.rdropWhile_concat, List.rdropWhile_concat]
    split
    · exact ih
    · rw [if_neg (by simp), List.append_assoc]

theorem rdropWhile_append_of_eq {p : Char → Bool} {a : List Char} (ha : a.rdropWhile p = a) (w : List Char) :
    (a ++ w).rdropWhile p = a ++ w.rdropWhile p := by
  rw [rdropWhile_append]
  split
  · rename_i hnil
    rw [ha, hnil, List.append_nil]
  · rfl

theorem trimNewlines_append {a : List Char} (hne : a ≠ []) (ha : '\n' ∉ a) (w : List Char) :
    trimNewlines (a ++ w) = a ++ w.rdropWhile (· = '\n') := by
  have hend : a.rdropWhile (· = '\n') = a := by
    rw [List.rdropWhile_eq_self_iff]
    intro h
    simpa using fun hn : a.getLast h = '\n' => ha (hn ▸ List.getLast_mem h)
  obtain ⟨c, cs, rfl⟩ := List.exists_cons_of_ne_nil hne
  have hc : c ≠ '\n' := fun hn => ha (hn ▸ List.mem_cons_self ..)
  rw [trimNewlines, List.cons_append, List.dropWhile_cons_of_neg (by simpa using hc)]
  exact rdropWhile_append_of_eq hend w

/-- A text that begins with a line `a` has a first paragraph that does. -/
theorem exists_first_paragraph {a : List Char} (hne : a ≠ []) (ha : '\n' ∉ a) (x : List Char) :
    ∃ w rest, paragraphs (a ++ x) = (a ++ w.rdropWhile (· = '\n')) :: rest ∧
      (x = w ∧ rest = [] ∨ ∃ v, x = w ++ blankLine ++ v ∧ rest = paragraphs v) := by
  have hfirst : ∀ w, ¬ blankLine <:+: a ++ w → paragraphs (a ++ w) = [a ++ w.rdropWhile (· = '\n')] := by
    intro w hw
    have htrim := trimNewlines_append hne ha w
    rw [paragraphs_of_unbroken hw (by rw [htrim]; exact List.append_ne_nil_of_left_ne_nil hne _), htrim]
  by_cases hblank : blankLine <:+: a ++ x
  · obtain ⟨u, v, huv, hu⟩ := exists_first_blankLine hblank
    rw [List.append_assoc] at huv
    rcases List.append_eq_append_iff.mp huv with ⟨w, rfl, hx⟩ | ⟨w, haw, hv⟩
    · refine ⟨w, paragraphs v, ?_, .inr ⟨v, by rw [hx, List.append_assoc], rfl⟩⟩
      rw [huv, ← List.append_assoc, paragraphs_append, hfirst w hu]
      rfl
    · cases w with
      | nil =>
        rw [List.append_nil] at haw
        subst haw
        refine ⟨[], paragraphs v, ?_, .inr ⟨v, hv.symm, rfl⟩⟩
        have hxv : x = blankLine ++ v := hv.symm
        rw [hxv, ← List.append_assoc, paragraphs_append]
        have := hfirst [] (by rwa [List.append_nil])
        rw [List.append_nil] at this
        rw [this]
        rfl
      | cons c cs =>
        rw [List.cons_append] at hv
        have hc : '\n' = c := (List.cons.inj hv).1
        exact absurd (haw ▸ List.mem_append_right u (hc ▸ List.mem_cons_self ..)) ha
  · exact ⟨x, [], hfirst x hblank, .inl ⟨rfl, rfl⟩⟩

theorem ink_rdropWhile_le (p : Char → Bool) (cs : List Char) : ink (cs.rdropWhile p) ≤ ink cs :=
  (List.rdropWhile_prefix p cs).sublist.countP_le

theorem inkOf_splitBlank (cs : List Char) : inkOf (splitBlank cs) = ink cs := by
  fun_induction splitBlank cs with
  | case1 => rfl
  | case2 => rfl
  | case3 c d cs h ih =>
    rw [inkOf_cons, ih, h.1, h.2, ink_cons, ink_cons '\n' cs, ink_blank rfl, ink_nil, Nat.zero_add, Nat.zero_add]
  | case4 c d cs _ ih =>
    obtain ⟨l, ls, hl⟩ := List.exists_cons_of_ne_nil (splitBlank_ne_nil (d :: cs))
    rw [hl] at ih ⊢
    rw [pushLine, inkOf_cons, ink_cons, ink_cons c (d :: cs), ← ih, inkOf_cons, Nat.add_assoc]

/-- The paragraphs of a blank text are blank. -/
theorem ink_paragraph {cs p : List Char} (h : p ∈ paragraphs cs) : ink p ≤ ink cs := by
  obtain ⟨q, hq, rfl⟩ := List.mem_map.mp (List.mem_filter.mp h).1
  calc ink (trimNewlines q) ≤ ink (q.dropWhile (· = '\n')) := ink_rdropWhile_le _ _
    _ ≤ ink q := (List.dropWhile_sublist _).countP_le
    _ ≤ inkOf (splitBlank cs) := le_inkOf_of_mem hq
    _ = ink cs := inkOf_splitBlank cs

theorem trim_append_blanks (cs : List Char) {v : List Char} (h : ∀ c ∈ v, isWhitespace c = true) :
    trim (cs ++ v) = trim cs := by
  induction v using List.reverseRecOn with
  | nil => rw [List.append_nil]
  | append_singleton v c ih =>
    rw [← List.append_assoc, trim_append_blank _ (h c (by simp)), ih fun d hd => h d (List.mem_append_left _ hd)]

theorem trim_cons_blank {c : Char} (h : isWhitespace c = true) (cs : List Char) : trim (c :: cs) = trim cs := by
  rw [trim, List.dropWhile_cons_of_pos h]
  rfl

theorem trim_eq_nil {cs : List Char} (h : ink cs = 0) : trim cs = [] := by
  rw [ink, List.countP_eq_zero] at h
  exact trim_append_blanks [] fun c hc => by simpa using h c hc

theorem trim_rdropWhile_newline (cs : List Char) : trim (cs.rdropWhile (· = '\n')) = trim cs := by
  have hsplit : cs.rdropWhile (· = '\n') ++ cs.rtakeWhile (· = '\n') = cs := List.rdropWhile_append_rtakeWhile
  have hblank : ∀ c ∈ cs.rtakeWhile (· = '\n'), isWhitespace c = true := fun c hc => by
    have hn : c = '\n' := by simpa using List.mem_rtakeWhile_imp hc
    rw [hn]
    rfl
  rw [← trim_append_blanks _ hblank, hsplit]

/-- A text without the separator only adds to the first half. -/
theorem splitOnce_append {sep : Char} {a : List Char} (h : sep ∉ a) (b : List Char) :
    splitOnce sep (a ++ b) = (splitOnce sep b).map fun p => (a ++ p.1, p.2) := by
  induction a with
  | nil => simp
  | cons c a ih =>
    have hc : c ≠ sep := fun hc => h (hc ▸ List.mem_cons_self ..)
    rw [List.cons_append, splitOnce, if_neg hc, ih fun hs => h (List.mem_cons_of_mem c hs), Option.map_map]
    rfl

theorem splitOnce_eq {sep : Char} {cs a b : List Char} (h : splitOnce sep cs = some (a, b)) : cs = a ++ sep :: b := by
  induction cs generalizing a with
  | nil => cases h
  | cons c cs ih =>
    unfold splitOnce at h
    split at h
    · rename_i hc
      obtain ⟨rfl, rfl⟩ := Prod.mk.inj (Option.some.inj h)
      rw [hc]
      rfl
    · obtain ⟨p, hp, hpair⟩ := Option.map_eq_some_iff.mp h
      obtain ⟨rfl, rfl⟩ := Prod.mk.inj hpair
      rw [ih hp]
      rfl

end Text
