import BssCli.Lib.Markup
import BssCli.PortalUi.Document
import BssCli.PortalUi.Escaped

/-!
# How the tags of the chat nest

Four passes put tags into a line, each without a look at the tags that are there. Elements of one name always balance. Elements of
two names nest when no mark stands inside the marks of another pass with its partner outside.
-/

open Text Markup

namespace BssCli.PortalUi

/-! ## The text between marks -/

/-- What stands between the marks of each match. -/
def inners (sp : Span) (prev : Option Char) : List Char → List (List Char)
  | [] => []
  | c :: cs =>
    match _h : sp.find prev (c :: cs) with
    | some (inner, rest) => inner :: inners sp sp.mark.getLast? rest
    | none => inners sp (some c) cs
termination_by cs => cs.length
decreasing_by
  · exact Span.find_shorter _h
  · simp

theorem inners_match {sp : Span} {prev : Option Char} {c : Char} {cs inner rest : List Char}
    (h : sp.find prev (c :: cs) = some (inner, rest)) :
    inners sp prev (c :: cs) = inner :: inners sp sp.mark.getLast? rest := by
  rw [inners]
  split
  · rename_i heq
    obtain ⟨rfl, rfl⟩ := Prod.mk.inj (Option.some.inj (h.symm.trans heq))
    rfl
  · rename_i heq
    rw [h] at heq
    cases heq

theorem inners_none {sp : Span} {prev : Option Char} {c : Char} {cs : List Char} (h : sp.find prev (c :: cs) = none) :
    inners sp prev (c :: cs) = inners sp (some c) cs := by
  rw [inners]
  split
  · rename_i heq
    rw [h] at heq
    cases heq
  · rfl

/-! ## Tags and other characters -/

def IsText (p : List Char) : Prop := p ∈ tags ∨ ∃ c, c ≠ '<' ∧ p = [c]

theorem element_eq (name : String) (body : List Char) : element name body = Markup.element name.toList body := by
  simp [element, openTag, closeTag, Markup.element]

theorem named_of_mem {name : String} (h : name ∈ tagNames) : Named name.toList := by
  have hall : tagNames.all (fun n => !n.toList.contains '>' && n.toList.head? != some '/') = true := by decide
  have hname := List.all_eq_true.mp hall name h
  rw [Bool.and_eq_true] at hname
  exact ⟨by simpa using hname.1, by simpa using hname.2⟩

theorem text_lone {m : Char} (h : m ∉ tags.flatten) : Lone IsText m := by
  rintro p (hp | ⟨c, -, rfl⟩) hm
  · exact absurd (List.mem_flatten.mpr ⟨p, hp, hm⟩) h
  · rw [List.mem_singleton] at hm
    rw [hm]

theorem text_element {name : String} (hname : name ∈ tagNames) {body : List Char} (h : MadeOf IsText body) :
    MadeOf IsText (element name body) := by
  have htag : ∀ t ∈ [openTag name.toList, closeTag name.toList], t ∈ tags := fun t ht =>
    List.mem_cons_of_mem _ (List.mem_flatMap.mpr ⟨name, hname, ht⟩)
  exact ((MadeOf.of_piece (.inl (htag _ (by simp)))).append h).append (.of_piece (.inl (htag _ (by simp))))

theorem text_plain {s : List Char} (h : '<' ∉ s) : MadeOf IsText s := by
  refine ⟨s.map fun c => [c], by rw [← List.flatMap_def, List.flatMap_singleton'], fun p hp => ?_⟩
  obtain ⟨c, hc, rfl⟩ := List.mem_map.mp hp
  exact .inr ⟨c, fun heq => h (heq ▸ hc), rfl⟩

theorem text_ended {keep : List Char → Bool} {s : List Char} (h : MadeOf IsText s) : Ended keep s := by
  refine ended_madeOf (fun p hp => ?_) h
  rcases hp with hp | ⟨c, hc, rfl⟩
  · rcases List.mem_cons.mp hp with rfl | hp
    · exact ended_tag (show '>' ∉ "br".toList by decide)
    · obtain ⟨name, hname, hp⟩ := List.mem_flatMap.mp hp
      have hnamed := named_of_mem hname
      rcases List.mem_cons.mp hp with rfl | hp
      · exact ended_tag hnamed.ends
      · obtain rfl := List.mem_singleton.mp hp
        have hends : '>' ∉ '/' :: name.toList := by
          rw [List.mem_cons, not_or]
          exact ⟨by decide, hnamed.ends⟩
        exact ended_tag hends
  · exact ended_plain fun hmem => hc (List.mem_singleton.mp hmem).symm

/-! ## One pass -/

variable {keep : List Char → Bool}

/-- A pass leaves open what was open, when each of its elements does what its content does. -/
theorem scan_wrapAll {sp : Span} {name : String} (hname : name ∈ tagNames) (hmark : ∀ m ∈ sp.mark, Lone IsText m)
    (hne : sp.mark ≠ []) (hplain : '<' ∉ sp.mark) (prev : Option Char) (s before : List Char) (h : MadeOf IsText (before ++ s))
    (hwraps : ∀ inner ∈ inners sp prev s, Wraps keep name.toList inner) {opened opened' : List (List Char)}
    (hkept : Kept keep opened) (hscan : scan keep opened none (before ++ s) = some opened') :
    scan keep opened none (before ++ wrapAll sp name prev s) = some opened' := by
  fun_induction wrapAll sp name prev s generalizing before opened with
  | case1 => exact hscan
  | case2 prev c cs inner rest hfind ih =>
    rw [inners_match hfind, List.forall_mem_cons] at hwraps
    rw [(Span.find_eq hfind).1, List.append_assoc, List.append_assoc] at h hscan
    obtain ⟨hbefore, hopen⟩ := made_cut hmark hne h
    obtain ⟨hinner, hrest⟩ := made_cut hmark hne hopen
    rw [text_ended hbefore] at hscan ⊢
    obtain ⟨o, ho, hscan⟩ := Option.bind_eq_some_iff.mp hscan
    rw [scan_plain hplain, text_ended hinner] at hscan
    obtain ⟨o', ho', hscan⟩ := Option.bind_eq_some_iff.mp hscan
    rw [scan_plain hplain] at hscan
    have hkept' := scan_kept ho hkept
    rw [ho, Option.bind_some, text_ended (text_element hname hinner), element_eq, hwraps.1 o o' hkept' ho', Option.bind_some]
    exact ih [] hrest hwraps.2 (scan_kept ho' hkept') hscan
  | case3 prev c cs hfind ih =>
    rw [inners_none hfind] at hwraps
    rw [← List.singleton_append, ← List.append_assoc]
    refine ih (before ++ [c]) ?_ hwraps hkept ?_
    · simpa using h
    · simpa using hscan

theorem text_inners {sp : Span} (hmark : ∀ m ∈ sp.mark, Lone IsText m) (hne : sp.mark ≠ []) (prev : Option Char)
    (s before : List Char) (h : MadeOf IsText (before ++ s)) : ∀ inner ∈ inners sp prev s, MadeOf IsText inner := by
  fun_induction inners sp prev s generalizing before with
  | case1 => exact fun _ hinner => by cases hinner
  | case2 prev c cs inner rest hfind ih =>
    rw [(Span.find_eq hfind).1, List.append_assoc, List.append_assoc] at h
    obtain ⟨hinner, hrest⟩ := made_cut hmark hne (made_cut hmark hne h).2
    exact List.forall_mem_cons.mpr ⟨hinner, ih [] hrest⟩
  | case3 prev c cs hfind ih => exact ih (before ++ [c]) (by simpa using h)

theorem infix_of_inner {sp : Span} (prev : Option Char) (s : List Char) : ∀ inner ∈ inners sp prev s, inner <:+: s := by
  fun_induction inners sp prev s with
  | case1 => exact fun _ hinner => by cases hinner
  | case2 prev c cs inner rest hfind ih =>
    have hsplit := (Span.find_eq hfind).1
    refine List.forall_mem_cons.mpr ⟨⟨sp.mark, sp.mark ++ rest, ?_⟩, fun i hi => (ih i hi).trans ⟨sp.mark ++ inner ++ sp.mark, [], ?_⟩⟩
    · rw [hsplit]
      simp only [List.append_assoc]
    · rw [hsplit, List.append_nil]
  | case3 prev c cs hfind ih => exact fun i hi => (ih i hi).trans (List.infix_cons List.infix_rfl)

/-! ## A line -/

section
variable (cc : CharClasses)

def coded (line : List Char) : List Char := wrapAll reCode "code" none line

def bolded (line : List Char) : List Char := wrapAll reBold "strong" none (coded line)

def starred (line : List Char) : List Char := wrapAll reItalicAst "em" none (bolded line)

/-- Every element but the one that has no content. -/
def counts (name : List Char) : Bool := name ≠ "br".toList

/-- No pair of marks takes in one end of an element that is there, and leaves out the other. -/
structure Uncrossed (line : List Char) : Prop where
  bold : ∀ inner ∈ inners reBold none (coded line), Neutral counts inner
  star : ∀ inner ∈ inners reItalicAst none (bolded line), Neutral counts inner
  under : ∀ inner ∈ inners (reItalicUnd cc) none (starred line), Neutral counts inner

variable {cc} {line : List Char}

theorem star_lone : Lone IsText '*' := text_lone (by decide)

theorem tick_lone : Lone IsText backtick := text_lone (by decide)

theorem under_lone : Lone IsText '_' := text_lone (by decide)

theorem text_coded (h : '<' ∉ line) : MadeOf IsText (coded line) :=
  made_wrapAll reCode (text_element (by decide)) (by simpa [reCode] using tick_lone) (by simp [reCode]) none line [] (text_plain h)

theorem text_bolded (h : '<' ∉ line) : MadeOf IsText (bolded line) :=
  made_wrapAll reBold (text_element (by decide)) (by simpa [reBold] using star_lone) (by simp [reBold]) none _ [] (text_coded h)

theorem text_starred (h : '<' ∉ line) : MadeOf IsText (starred line) :=
  made_wrapAll reItalicAst (text_element (by decide)) (by simpa [reItalicAst] using star_lone) (by simp [reItalicAst]) none _ []
    (text_bolded h)

/-- A line leaves open what was open, when the elements of each pass do. -/
theorem sound_renderInline (h : '<' ∉ line)
    (hbold : ∀ inner ∈ inners reBold none (coded line), Wraps keep "strong".toList inner)
    (hstar : ∀ inner ∈ inners reItalicAst none (bolded line), Wraps keep "em".toList inner)
    (hunder : ∀ inner ∈ inners (reItalicUnd cc) none (starred line), Wraps keep "em".toList inner) :
    Sound keep (renderInline cc line) := by
  have hcode : ∀ inner ∈ inners reCode none line, Wraps keep "code".toList inner := by
    intro inner hinner
    have hplain : '<' ∉ inner := fun hmem => h ((infix_of_inner none line inner hinner).subset hmem)
    exact wraps_of_neutral (named_of_mem (by decide)) (ended_plain hplain) (neutral_plain hplain)
  refine ⟨fun opened hkept => ?_, ?_⟩
  · have hcoded := scan_wrapAll (show "code" ∈ tagNames by decide) (by simpa [reCode] using tick_lone) (by simp [reCode])
      (by decide) none line [] (text_plain h) hcode hkept (neutral_plain h opened hkept)
    have hbolded := scan_wrapAll (show "strong" ∈ tagNames by decide) (by simpa [reBold] using star_lone)
      (by simp [reBold]) (by decide) none (coded line) [] (text_coded h) hbold hkept hcoded
    have hstarred := scan_wrapAll (show "em" ∈ tagNames by decide) (by simpa [reItalicAst] using star_lone)
      (by simp [reItalicAst]) (by decide) none (bolded line) [] (text_bolded h) hstar hkept hbolded
    exact scan_wrapAll (show "em" ∈ tagNames by decide) (by simpa [reItalicUnd] using under_lone)
      (by simp [reItalicUnd]) (by simp [reItalicUnd]) none (starred line) [] (text_starred h) hunder hkept hstarred
  · exact text_ended (made_wrapAll (reItalicUnd cc) (text_element (by decide)) (by simpa [reItalicUnd] using under_lone)
      (by simp [reItalicUnd]) none _ [] (text_starred h))

theorem sound_of_uncrossed (h : '<' ∉ line) (hcross : Uncrossed cc line) : Sound counts (renderInline cc line) := by
  have hstrong : Named "strong".toList := named_of_mem (by decide)
  have hem : Named "em".toList := named_of_mem (by decide)
  refine sound_renderInline h (fun inner hinner => ?_) (fun inner hinner => ?_) fun inner hinner => ?_
  · exact wraps_of_neutral hstrong (text_ended (text_inners (by simpa [reBold] using star_lone) (by simp [reBold]) none _ []
      (text_coded h) inner hinner)) (hcross.bold inner hinner)
  · exact wraps_of_neutral hem (text_ended (text_inners (by simpa [reItalicAst] using star_lone) (by simp [reItalicAst]) none _ []
      (text_bolded h) inner hinner)) (hcross.star inner hinner)
  · exact wraps_of_neutral hem (text_ended (text_inners (by simpa [reItalicUnd] using under_lone) (by simp [reItalicUnd]) none _ []
      (text_starred h) inner hinner)) (hcross.under inner hinner)

/-- Only elements of this name count. -/
def only (name n : List Char) : Bool := n = name

theorem wraps_only (name : List Char) {n : String} (hn : n ∈ tagNames) {inner : List Char} (hended : Ended (only name) inner) :
    Wraps (only name) n.toList inner := by
  by_cases heq : n.toList = name
  · subst heq
    exact wraps_of_only (named_of_mem hn) hended fun x => decide_eq_true_iff
  · exact wraps_of_left_out (named_of_mem hn) hended (decide_eq_false heq)

theorem sound_only (h : '<' ∉ line) (name : List Char) : Sound (only name) (renderInline cc line) := by
  refine sound_renderInline h (fun inner hinner => ?_) (fun inner hinner => ?_) fun inner hinner => ?_
  · exact wraps_only name (by decide) (text_ended (text_inners (by simpa [reBold] using star_lone) (by simp [reBold]) none _ []
      (text_coded h) inner hinner))
  · exact wraps_only name (by decide) (text_ended (text_inners (by simpa [reItalicAst] using star_lone) (by simp [reItalicAst])
      none _ [] (text_bolded h) inner hinner))
  · exact wraps_only name (by decide) (text_ended (text_inners (by simpa [reItalicUnd] using under_lone) (by simp [reItalicUnd])
      none _ [] (text_starred h) inner hinner))

end

/-! ## The blocks -/

section
variable {cc : CharClasses}

theorem sound_element {name : String} (hname : name ∈ tagNames) {body : List Char} (h : Sound keep body) :
    Sound keep (element name body) := by
  rw [element_eq]
  exact h.element (named_of_mem hname)

theorem sound_mapped {f : List Char → List Char} {vs : List (List Char)} (h : ∀ v ∈ vs, Sound keep (f v)) :
    ∀ w ∈ vs.map f, Sound keep w := by
  intro w hw
  obtain ⟨v, hv, rfl⟩ := List.mem_map.mp hw
  exact h v hv

theorem sound_cells {name : String} (hname : name ∈ tagNames) {row : List (List Char)}
    (h : ∀ cell ∈ row, Sound keep (renderInline cc cell)) : Sound keep (cells cc name row) :=
  .flatten (sound_mapped fun cell hcell => sound_element hname (h cell hcell))

/-- A block is sound when its lines are. -/
theorem sound_html {block : Block} (hbr : keep "br".toList = false)
    (hinline : ∀ line, .inline line ∈ block.parts → Sound keep (renderInline cc line))
    (hpre : ∀ lines, .pre lines ∈ block.parts → ∀ l ∈ lines, '<' ∉ l) : Sound keep (block.html cc) := by
  have hlines : ∀ {lines : List (List Char)}, block.parts = lines.map .inline → ∀ l ∈ lines, Sound keep (renderInline cc l) :=
    fun hparts l hl => hinline l (hparts ▸ List.mem_map_of_mem hl)
  cases block with
  | para lines =>
    have hbreak : Sound keep "<br>".toList := Sound.void (show Named "br".toList from ⟨by decide, by decide⟩) hbr
    exact sound_element (by decide) (hbreak.intercalate (sound_mapped (hlines rfl)))
  | ul items => exact sound_element (by decide) (sound_cells (by decide) (hlines rfl))
  | ol items => exact sound_element (by decide) (sound_cells (by decide) (hlines rfl))
  | heading depth body => exact sound_element (headingName_mem depth) (hinline body (List.mem_singleton_self _))
  | pre lines =>
    have hplain := hpre lines (List.mem_singleton_self _)
    refine sound_element (by decide) (sound_element (by decide) ?_)
    exact Sound.intercalate (.plain (by decide)) fun l hl => .plain (hplain l hl)
  | table header rows =>
    have hcells := hlines rfl
    refine sound_element (by decide) ((sound_element (by decide) (sound_element (by decide) ?_)).append
      (sound_element (by decide) (.flatten fun v hv => ?_)))
    · exact sound_cells (by decide) fun cell hcell => hcells cell (List.mem_append_left _ hcell)
    · obtain ⟨row, hrow, rfl⟩ := List.mem_map.mp hv
      exact sound_element (by decide) (sound_cells (by decide) fun cell hcell =>
        hcells cell (List.mem_append_right _ (List.mem_flatten.mpr ⟨row, hrow, hcell⟩)))

variable {stripLeakage : List Char → List Char} {text : List Char} {allowTables : Bool}

theorem sound_renderChatMarkdown (hbr : keep "br".toList = false)
    (hinline : ∀ line, .inline line ∈ textParts cc allowTables stripLeakage text → Sound keep (renderInline cc line)) :
    Sound keep (renderChatMarkdown cc stripLeakage text allowTables) := by
  obtain ⟨doc, hhtml, hparts⟩ := renderChatMarkdown_document cc stripLeakage text allowTables
  have hdoc : Sound keep (doc.map (Block.html cc)).flatten := by
    refine .flatten fun v hv => ?_
    obtain ⟨block, hblock, rfl⟩ := List.mem_map.mp hv
    have hpart : ∀ q ∈ block.parts, q ∈ textParts cc allowTables stripLeakage text :=
      fun q hq => (hparts q).mp (List.mem_flatMap.mpr ⟨block, hblock, hq⟩)
    exact sound_html hbr (fun line hline => hinline line (hpart _ hline)) fun lines hlines l hl hmem =>
      (textParts_chars _ (hpart _ hlines) l hl '<' hmem).1 rfl
  rw [hhtml]
  split
  · exact .plain (by decide)
  · exact hdoc

/-! ## What stays as it is -/

theorem prefix_of_cons {m : Char} {e x y : List Char} (hm : m ∉ e) (h : e <+: x ++ m :: y) : e <+: x := by
  have hx : x ++ [m] <+: x ++ m :: y := ⟨y, by simp⟩
  rcases List.prefix_or_prefix_of_prefix h hx with h | h
  · rcases List.prefix_concat_iff.mp h with rfl | h
    · exact absurd (List.mem_append_right x (List.mem_singleton_self m)) hm
    · exact h
  · exact absurd (h.subset (List.mem_append_right x (List.mem_singleton_self m))) hm

theorem infix_of_cons {m : Char} {e x y : List Char} (hm : m ∉ e) (h : e <:+: x ++ m :: y) : e <:+: x ∨ e <:+: y := by
  induction x with
  | nil =>
    rcases List.infix_cons_iff.mp h with h | h
    · exact .inl (prefix_of_cons (x := []) hm h).isInfix
    · exact .inr h
  | cons c x ih =>
    rw [List.cons_append] at h
    rcases List.infix_cons_iff.mp h with h | h
    · exact .inl (prefix_of_cons (x := c :: x) hm h).isInfix
    · exact (ih h).imp_left fun h => h.trans (List.infix_cons List.infix_rfl)

theorem infix_of_append {w e x y : List Char} (hw : ∀ m ∈ w, m ∉ e) (hne : w ≠ []) (h : e <:+: x ++ (w ++ y)) :
    e <:+: x ∨ e <:+: y := by
  induction w generalizing x with
  | nil => exact absurd rfl hne
  | cons m w ih =>
    obtain ⟨hm, hw⟩ := List.forall_mem_cons.mp hw
    rcases infix_of_cons hm h with h | h
    · exact .inl h
    · rcases eq_or_ne w [] with rfl | hnil
      · exact .inr h
      · rcases ih hw hnil (x := []) h with h | h
        · exact .inl (h.trans List.nil_infix)
        · exact .inr h

theorem find_none {sp : Span} (hsome : sp.mark ≠ []) {prev : Option Char} {c : Char} (h : c ∉ sp.mark) (cs : List Char) :
    sp.find prev (c :: cs) = none := by
  cases hfind : sp.find prev (c :: cs) with
  | none => rfl
  | some found =>
    obtain ⟨m, ms, hms⟩ := List.exists_cons_of_ne_nil hsome
    have hsplit := (Span.find_eq (show sp.find prev (c :: cs) = some (found.1, found.2) from hfind)).1
    rw [hms] at hsplit
    exact absurd (hms ▸ (List.cons.inj hsplit).1 ▸ List.mem_cons_self) h

/-- Up to the first mark a pass leaves the text as it is. -/
theorem prefix_wrapAll {sp : Span} (name : String) {e : List Char} (hmark : ∀ m ∈ sp.mark, m ∉ e) (hsome : sp.mark ≠ [])
    (prev : Option Char) {s : List Char} (h : e <+: s) : e <+: wrapAll sp name prev s := by
  induction e generalizing prev s with
  | nil => exact List.nil_prefix
  | cons c e ih =>
    obtain ⟨t, rfl⟩ := h
    have hc : c ∉ sp.mark := fun hmem => hmark c hmem List.mem_cons_self
    rw [List.cons_append, wrapAll]
    split
    · rename_i heq
      rw [find_none hsome hc] at heq
      cases heq
    · exact List.prefix_cons_inj c |>.mpr
        (ih (fun m hm hmem => hmark m hm (List.mem_cons_of_mem c hmem)) (some c) (List.prefix_append e t))

/-- A text without a mark is not cut by a pass. -/
theorem infix_wrapAll (sp : Span) (name : String) {e : List Char} (hne : e ≠ []) (hmark : ∀ m ∈ sp.mark, m ∉ e)
    (hsome : sp.mark ≠ []) (prev : Option Char) (s : List Char) (h : e <:+: s) : e <:+: wrapAll sp name prev s := by
  fun_induction wrapAll sp name prev s with
  | case1 => exact h
  | case2 prev c cs inner rest hfind ih =>
    rw [(Span.find_eq hfind).1, List.append_assoc, List.append_assoc] at h
    have hbody : e <:+: inner ++ (sp.mark ++ rest) :=
      (infix_of_append (x := []) hmark hsome h).resolve_left fun h => hne (List.infix_nil.mp h)
    rcases infix_of_append hmark hsome hbody with h | h
    · exact h.trans ⟨openTag name.toList, closeTag name.toList ++ wrapAll sp name sp.mark.getLast? rest, by
        simp [element]⟩
    · exact (ih h).trans (List.suffix_append _ _).isInfix
  | case3 prev c cs hfind ih =>
    rcases List.infix_cons_iff.mp h with h | h
    · cases e with
      | nil => exact absurd rfl hne
      | cons d e =>
        obtain ⟨rfl, htail⟩ := List.cons_prefix_cons.mp h
        have hrest := prefix_wrapAll name (fun m hm hmem => hmark m hm (List.mem_cons_of_mem d hmem)) hsome (some d)
          htail
        exact (List.cons_prefix_cons.mpr ⟨rfl, hrest⟩).isInfix
    · exact (ih h).trans (List.infix_cons List.infix_rfl)

theorem element_infix_wrapAll (sp : Span) (name : String) (prev : Option Char) (s : List Char) :
    ∀ inner ∈ inners sp prev s, element name inner <:+: wrapAll sp name prev s := by
  fun_induction wrapAll sp name prev s with
  | case1 => rw [inners]; exact fun _ hinner => by cases hinner
  | case2 prev c cs inner rest hfind ih =>
    rw [inners_match hfind]
    exact List.forall_mem_cons.mpr ⟨(List.prefix_append _ _).isInfix, fun i hi => (ih i hi).trans (List.suffix_append _ _).isInfix⟩
  | case3 prev c cs hfind ih =>
    rw [inners_none hfind]
    exact fun i hi => (ih i hi).trans (List.infix_cons List.infix_rfl)

/-- What stands between backticks is left alone by the later passes, when none of their marks is in it. -/
theorem code_infix_renderInline {line inner : List Char} (h : inner ∈ inners reCode none line) (hstar : '*' ∉ inner)
    (hunder : '_' ∉ inner) : element "code" inner <:+: renderInline cc line := by
  have hne : element "code" inner ≠ [] := List.cons_ne_nil _ _
  have hmem : ∀ {c : Char}, c ∉ inner → c ∉ openTag "code".toList → c ∉ closeTag "code".toList → c ∉ element "code" inner := by
    intro c hinner hopen hclose
    simp only [element, List.mem_append, not_or]
    exact ⟨⟨hopen, hinner⟩, hclose⟩
  have hstars : '*' ∉ element "code" inner := hmem hstar (by decide) (by decide)
  have hunders : '_' ∉ element "code" inner := hmem hunder (by decide) (by decide)
  have hcode := element_infix_wrapAll reCode "code" none line inner h
  have hbold := infix_wrapAll reBold "strong" hne (by simpa [reBold] using hstars) (by simp [reBold]) none _ hcode
  have hstar := infix_wrapAll reItalicAst "em" hne (by simpa [reItalicAst] using hstars) (by simp [reItalicAst]) none _ hbold
  exact infix_wrapAll (reItalicUnd cc) "em" hne (by simpa [reItalicUnd] using hunders) (by simp [reItalicUnd]) none _ hstar

/-! ## What a part becomes -/

theorem infix_element (name : String) {body : List Char} : body <:+: element name body :=
  ⟨openTag name.toList, closeTag name.toList, rfl⟩

theorem infix_intercalate {sep v : List Char} {vs : List (List Char)} (h : v ∈ vs) : v <:+: sep.intercalate vs := by
  induction vs with
  | nil => cases h
  | cons w vs ih =>
    cases vs with
    | nil =>
      obtain rfl := List.mem_singleton.mp h
      rw [List.intercalate_singleton]
    | cons x vs =>
      rw [List.intercalate_cons_cons]
      rcases List.mem_cons.mp h with rfl | h
      · exact ⟨[], sep ++ sep.intercalate (x :: vs), by simp⟩
      · exact (ih h).trans (List.suffix_append _ _).isInfix

theorem infix_cells {name : String} {cell : List Char} {row : List (List Char)} (h : cell ∈ row) :
    renderInline cc cell <:+: cells cc name row :=
  (infix_element name).trans (List.infix_of_mem_flatten (List.mem_map_of_mem h))

theorem inline_infix_html {block : Block} {line : List Char} (h : Part.inline line ∈ block.parts) :
    renderInline cc line <:+: block.html cc := by
  have hline : ∀ {lines : List (List Char)}, Part.inline line ∈ lines.map Part.inline → line ∈ lines := by
    intro lines hmem
    simpa using hmem
  cases block with
  | para lines => exact (infix_intercalate (List.mem_map_of_mem (hline h))).trans (infix_element _)
  | ul items => exact (infix_cells (hline h)).trans (infix_element _)
  | ol items => exact (infix_cells (hline h)).trans (infix_element _)
  | heading depth body =>
    obtain rfl : line = body := by simpa [Block.parts] using h
    exact infix_element _
  | pre lines => simp [Block.parts] at h
  | table header rows =>
    refine List.IsInfix.trans ?_ (infix_element _)
    rcases List.mem_append.mp (hline h) with hcell | hcell
    · exact (((infix_cells hcell).trans (infix_element _)).trans (infix_element _)).trans (List.prefix_append _ _).isInfix
    · obtain ⟨row, hrow, hcell⟩ := List.mem_flatten.mp hcell
      have hmem : element "tr" (cells cc "td" row) ∈ rows.map fun row => element "tr" (cells cc "td" row) :=
        List.mem_map_of_mem hrow
      have hbody := (infix_element "tr").trans (List.infix_of_mem_flatten hmem)
      exact (((infix_cells hcell).trans hbody).trans (infix_element _)).trans (List.suffix_append _ _).isInfix

theorem pre_html {block : Block} {lines : List (List Char)} (h : Part.pre lines ∈ block.parts) :
    block.html cc = preBlock lines := by
  cases block with
  | pre lines' =>
    obtain rfl : lines = lines' := by simpa [Block.parts] using h
    rfl
  | _ => simp [Block.parts] at h

/-- Every block of the document is in the HTML. -/
theorem infix_of_html {doc : List Block} {block : Block} (h : block ∈ doc) {html : List Char}
    (hhtml : html = if (doc.map (Block.html cc)).flatten = [] then nbsp else (doc.map (Block.html cc)).flatten) :
    block.html cc <:+: html := by
  have hin : block.html cc <:+: (doc.map (Block.html cc)).flatten := List.infix_of_mem_flatten (List.mem_map_of_mem h)
  rw [hhtml]
  split
  · rename_i hempty
    rw [hempty] at hin
    rw [List.infix_nil.mp hin]
    exact List.nil_infix
  · exact hin

theorem splitChar_joinLines {lines : List (List Char)} (hne : lines ≠ []) (h : ∀ l ∈ lines, '\n' ∉ l) :
    splitChar '\n' (joinLines lines) = lines := by
  induction lines with
  | nil => exact absurd rfl hne
  | cons l lines ih =>
    obtain ⟨hl, hlines⟩ := List.forall_mem_cons.mp h
    unfold joinLines
    cases lines with
    | nil =>
      rw [List.intercalate_singleton]
      exact (splitChar_cons_of_not_mem hl []).2
    | cons m lines =>
      rw [List.intercalate_cons_cons, List.append_assoc, List.singleton_append, (splitChar_cons_of_not_mem hl _).1]
      exact congrArg (l :: ·) (ih (List.cons_ne_nil _ _) hlines)

theorem filter_joinLines {lines : List (List Char)} (h : ∀ l ∈ lines, '\n' ∉ l) :
    (joinLines lines).filter (· ≠ '\n') = lines.flatten := by
  have hkeep : ∀ {l : List Char}, '\n' ∉ l → l.filter (· ≠ '\n') = l := by
    intro l hl
    refine List.filter_eq_self.mpr fun c hc => ?_
    exact decide_eq_true fun heq => hl (heq ▸ hc)
  unfold joinLines
  induction lines with
  | nil => rfl
  | cons l lines ih =>
    obtain ⟨hl, hlines⟩ := List.forall_mem_cons.mp h
    cases lines with
    | nil =>
      rw [List.intercalate_singleton, hkeep hl]
      simp
    | cons m lines =>
      have hsep : ['\n'].filter (· ≠ '\n') = [] := rfl
      rw [List.intercalate_cons_cons, List.filter_append, List.filter_append, ih hlines, hkeep hl, hsep, List.append_nil]
      rfl

/-- The lines of a fence or a panel stay one behind the other in the HTML. The bubble takes the line feeds out between them. -/
theorem pre_lines {lines : List (List Char)} (h : Part.pre lines ∈ textParts cc allowTables stripLeakage text) :
    preBlock lines <:+: renderChatMarkdown cc stripLeakage text allowTables ∧
      (lines ≠ [] → splitChar '\n' (joinLines lines) = lines) ∧
      ∀ error, element "pre" (element "code" lines.flatten) <:+: renderAssistantBubble cc stripLeakage text error allowTables := by
  have hfeed : ∀ l ∈ lines, '\n' ∉ l := fun l hl hmem => (textParts_chars _ h l hl '\n' hmem).2 rfl
  obtain ⟨doc, hhtml, hparts⟩ := renderChatMarkdown_document cc stripLeakage text allowTables
  obtain ⟨block, hblock, hpart⟩ := List.mem_flatMap.mp ((hparts _).mpr h)
  have hin := infix_of_html hblock hhtml
  rw [pre_html hpart] at hin
  refine ⟨hin, fun hne => splitChar_joinLines hne hfeed, fun error => ?_⟩
  have hfiltered : (preBlock lines).filter (· ≠ '\n') = element "pre" (element "code" lines.flatten) := by
    rw [← filter_joinLines hfeed]
    simp only [preBlock, element, openTag, closeTag, List.filter_append]
    rfl
  obtain ⟨a, b, hab⟩ := hin
  refine ⟨bubbleTag error ++ a.filter (· ≠ '\n'), b.filter (· ≠ '\n') ++ closeTag "div".toList, ?_⟩
  unfold renderAssistantBubble
  rw [← hab, List.filter_append, List.filter_append, hfiltered]
  simp only [List.append_assoc]

theorem inline_code {line inner : List Char} (h : Part.inline line ∈ textParts cc allowTables stripLeakage text)
    (hinner : inner ∈ inners reCode none line) (hstar : '*' ∉ inner) (hunder : '_' ∉ inner) :
    element "code" inner <:+: renderChatMarkdown cc stripLeakage text allowTables := by
  obtain ⟨doc, hhtml, hparts⟩ := renderChatMarkdown_document cc stripLeakage text allowTables
  obtain ⟨block, hblock, hpart⟩ := List.mem_flatMap.mp ((hparts _).mpr h)
  exact ((code_infix_renderInline hinner hstar hunder).trans (inline_infix_html hpart)).trans (infix_of_html hblock hhtml)

end

/-! ## The HTML of a text -/

/-- Each closing tag has an element of its name to close, and none stays open. -/
def Balanced (name html : List Char) : Prop := scan (only name) [] none html = some []

/-- Each closing tag closes the innermost open element, and none stays open. -/
def WellNested (html : List Char) : Prop := scan counts [] none html = some []

def nestedLine : List Char := "**a _b_** `c`".toList

def nestedText : List Char := nestedLine ++ "\n```\nd\n```".toList

theorem nestedText_parts : textParts asciiClasses false id nestedText = [.inline nestedLine, .pre [['d']]] := by
  decide +kernel

theorem uncrossed_nestedLine : Uncrossed asciiClasses nestedLine := by
  have hbold : inners reBold none (coded nestedLine) = ["a _b_".toList] := by decide +kernel
  have hstar : inners reItalicAst none (bolded nestedLine) = [] := by decide +kernel
  have hunder : inners (reItalicUnd asciiClasses) none (starred nestedLine) = [['b']] := by decide +kernel
  have hone : ∀ {e : List Char}, '<' ∉ e → ∀ inner ∈ [e], Neutral counts inner := by
    intro e he inner hinner
    obtain rfl := List.mem_singleton.mp hinner
    exact neutral_plain he
  refine ⟨?_, ?_, ?_⟩
  · rw [hbold]
    exact hone (by decide)
  · rw [hstar]
    exact fun _ h => by cases h
  · rw [hunder]
    exact hone (by decide)

end BssCli.PortalUi
