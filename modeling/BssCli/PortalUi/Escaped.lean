import BssCli.Lib.Pieces
import BssCli.PortalUi.Markdown

/-!
# What the chat's HTML is made of

Escaped characters of the text and fixed tags, whatever marks overlap. No mark is part of a tag or of an entity, so cutting
at marks, blanks and line feeds never cuts either.
-/

open Text

namespace BssCli.PortalUi

/-! ## The pieces -/

def tagNames : List String :=
  ["p", "ul", "ol", "li", "pre", "code", "strong", "em", "h3", "h4", "h5", "h6", "table", "thead", "tbody", "tr", "th", "td"]

def tags : List (List Char) := "<br>".toList :: tagNames.flatMap fun n => [openTag n.toList, closeTag n.toList]

def entities : List (List Char) :=
  ["&amp;".toList, "&lt;".toList, "&gt;".toList, "&quot;".toList, "&#x27;".toList]

def escapeChar (c : Char) : List Char := htmlEscape [c]

/-- A tag, the blank of an empty message, the line feed in a block of code, or a character of the text as it is escaped. -/
def IsPiece (src p : List Char) : Prop := p ∈ tags ∨ p = nbsp ∨ p = ['\n'] ∨ ∃ c ∈ src, p = escapeChar c

/-- The pieces of more than one character. -/
def fixedPieces : List (List Char) := nbsp :: entities ++ tags

theorem replaceChar_append (c : Char) (entity a b : List Char) :
    replaceChar c entity (a ++ b) = replaceChar c entity a ++ replaceChar c entity b := by
  unfold replaceChar
  exact List.flatMap_append

theorem replaceChar_other {c x : Char} (h : x ≠ c) (entity : List Char) : replaceChar c entity [x] = [x] := by
  unfold replaceChar
  rw [List.flatMap_singleton, if_neg h]

theorem htmlEscape_eq (s : List Char) : htmlEscape s = s.flatMap escapeChar := by
  induction s with
  | nil => rfl
  | cons c s ih =>
    rw [List.flatMap_cons, ← ih, ← List.singleton_append]
    unfold escapeChar htmlEscape
    simp only [replaceChar_append]

theorem escapeChar_cases (c : Char) :
    escapeChar c ∈ entities ∨ escapeChar c = [c] ∧ c ∉ ['<', '>', '"', '\''] := by
  by_cases hamp : c = '&'
  · subst hamp; exact .inl (by decide)
  by_cases hlt : c = '<'
  · subst hlt; exact .inl (by decide)
  by_cases hgt : c = '>'
  · subst hgt; exact .inl (by decide)
  by_cases hquot : c = '"'
  · subst hquot; exact .inl (by decide)
  by_cases hapos : c = '\''
  · subst hapos; exact .inl (by decide)
  · refine .inr ⟨?_, by simp [hlt, hgt, hquot, hapos]⟩
    unfold escapeChar htmlEscape
    rw [replaceChar_other hamp, replaceChar_other hlt, replaceChar_other hgt, replaceChar_other hquot,
      replaceChar_other hapos]

/-- No character is left as it was that a browser could read as markup. -/
theorem escapeChar_safe (c : Char) : ∀ x ∈ escapeChar c, x ∉ ['<', '>', '"', '\''] := by
  intro x hx
  rcases escapeChar_cases c with h | ⟨h, hc⟩
  · have hall : entities.all (fun e => e.all fun x => !(['<', '>', '"', '\''].contains x)) = true := by decide
    have := List.all_eq_true.mp (List.all_eq_true.mp hall _ h) x hx
    simpa using this
  · rw [h, List.mem_singleton] at hx
    rw [hx]
    exact hc

section
variable {src : List Char}

theorem piece_cases {p : List Char} (h : IsPiece src p) : p ∈ fixedPieces ∨ ∃ c, p = [c] := by
  rcases h with h | rfl | rfl | ⟨c, -, rfl⟩
  · exact .inl (List.mem_append_right _ h)
  · exact .inl List.mem_cons_self
  · exact .inr ⟨'\n', rfl⟩
  · rcases escapeChar_cases c with h | ⟨h, -⟩
    · exact .inl (List.mem_append_left _ (List.mem_cons_of_mem _ h))
    · exact .inr ⟨c, h⟩

/-! ## Marks stand alone -/

theorem lone_of_not_mem {m : Char} (h : m ∉ fixedPieces.flatten) : Lone (IsPiece src) m := by
  intro p hp hm
  rcases piece_cases hp with hfixed | ⟨c, rfl⟩
  · exact absurd (List.mem_flatten.mpr ⟨p, hfixed, hm⟩) h
  · rw [List.mem_singleton] at hm
    rw [hm]

/-- The characters that mark a span, an item or a cell. -/
def marks : List Char := ['*', backtick, '_', '-', '.', ')', '|']

theorem lone_mark {m : Char} (h : m ∈ marks) : Lone (IsPiece src) m := by
  apply lone_of_not_mem
  have hall : marks.all (fun m => !fixedPieces.flatten.contains m) = true := by decide +kernel
  have := List.all_eq_true.mp hall m h
  simpa using this

theorem lone_blank (m : Char) (h : isWhitespace m = true) : Lone (IsPiece src) m := by
  apply lone_of_not_mem
  intro hm
  have hall : fixedPieces.flatten.all (fun c => !isWhitespace c) = true := by decide +kernel
  have := List.all_eq_true.mp hall m hm
  simp [h] at this

/-- The apostrophe's entity has a `#` inside, and no piece ends with one. -/
theorem hash_ends {p : List Char} (h : IsPiece src p) (hlast : p.getLast? = some '#') : p = ['#'] := by
  rcases piece_cases h with hfixed | ⟨c, rfl⟩
  · have hall : fixedPieces.all (fun q => q.getLast? != some '#') = true := by decide +kernel
    have := List.all_eq_true.mp hall p hfixed
    simp [hlast] at this
  · simpa using hlast

theorem made_escape (s : List Char) : MadeOf (IsPiece s) (htmlEscape s) := by
  rw [htmlEscape_eq, List.flatMap_def]
  apply MadeOf.flatten
  intro p hp
  obtain ⟨c, hc, rfl⟩ := List.mem_map.mp hp
  exact .of_piece (.inr (.inr (.inr ⟨c, hc, rfl⟩)))

theorem made_element {name : String} (hname : name ∈ tagNames) {body : List Char} (h : MadeOf (IsPiece src) body) :
    MadeOf (IsPiece src) (element name body) := by
  have htag : ∀ t ∈ [openTag name.toList, closeTag name.toList], t ∈ tags := fun t ht =>
    List.mem_cons_of_mem _ (List.mem_flatMap.mpr ⟨name, hname, ht⟩)
  exact ((MadeOf.of_piece (.inl (htag _ (by simp)))).append h).append (.of_piece (.inl (htag _ (by simp))))

/-! ## Cutting -/

theorem made_trimEnd {v : List Char} (h : MadeOf (IsPiece src) v) : MadeOf (IsPiece src) (trimEnd v) :=
  h.rdropWhile lone_blank

theorem made_trim {v : List Char} (h : MadeOf (IsPiece src) v) : MadeOf (IsPiece src) (trim v) := by
  rw [trim_eq_rdropWhile]
  exact (h.dropWhile lone_blank).rdropWhile lone_blank

theorem splitChar_cons_of_not_mem {sep : Char} {a : List Char} (h : sep ∉ a) (b : List Char) :
    splitChar sep (a ++ sep :: b) = a :: splitChar sep b ∧ splitChar sep a = [a] := by
  induction a with
  | nil => simp [splitChar]
  | cons c a ih =>
    have hc : c ≠ sep := fun hc => h (hc ▸ List.mem_cons_self)
    obtain ⟨hcut, hself⟩ := ih fun ha => h (List.mem_cons_of_mem c ha)
    simp [splitChar, hc, hcut, hself, pushLine]

theorem made_splitChar {sep : Char} (hsep : Lone (IsPiece src) sep) {v : List Char} (h : MadeOf (IsPiece src) v) :
    ∀ l ∈ splitChar sep v, MadeOf (IsPiece src) l := by
  induction hn : v.length using Nat.strong_induction_on generalizing v with
  | _ n ih =>
    by_cases hmem : sep ∈ v
    · obtain ⟨a, b, ha, rfl⟩ : ∃ a b, sep ∉ a ∧ v = a ++ sep :: b := by
        obtain ⟨a, b, rfl, ha⟩ := List.eq_append_cons_of_mem hmem
        exact ⟨a, b, ha, rfl⟩
      obtain ⟨hleft, hright⟩ := h.cut hsep
      rw [(splitChar_cons_of_not_mem ha b).1, List.forall_mem_cons]
      refine ⟨hleft, ih b.length ?_ hright rfl⟩
      simp only [List.length_append, List.length_cons] at hn
      omega
    · rw [(splitChar_cons_of_not_mem hmem []).2]
      simpa using h

theorem made_cut {piece : List Char → Prop} {w : List Char} (hw : ∀ m ∈ w, Lone piece m) (hne : w ≠ []) {a b : List Char}
    (h : MadeOf piece (a ++ (w ++ b))) : MadeOf piece a ∧ MadeOf piece b := by
  cases w with
  | nil => exact absurd rfl hne
  | cons m w =>
    obtain ⟨hleft, hright⟩ := h.cut (hw m List.mem_cons_self)
    refine ⟨hleft, ?_⟩
    clear h hne
    induction w with
    | nil => exact hright
    | cons x w ih =>
      refine ih (fun y hy => hw y ?_) (hright.tail (hw x (by simp)))
      rcases List.mem_cons.mp hy with rfl | hy
      · exact List.mem_cons_self
      · exact List.mem_cons_of_mem _ (List.mem_cons_of_mem _ hy)

/-! ## Inside a line -/

theorem made_wrapAll {piece : List Char → Prop} (sp : Span) {name : String}
    (helement : ∀ {v}, MadeOf piece v → MadeOf piece (element name v)) (hmark : ∀ m ∈ sp.mark, Lone piece m)
    (hne : sp.mark ≠ []) (prev : Option Char) (s : List Char) (before : List Char) (h : MadeOf piece (before ++ s)) :
    MadeOf piece (before ++ wrapAll sp name prev s) := by
  fun_induction wrapAll sp name prev s generalizing before with
  | case1 => exact h
  | case2 prev c cs inner rest hfind ih =>
    rw [(Span.find_eq hfind).1, List.append_assoc, List.append_assoc] at h
    obtain ⟨hbefore, hopen⟩ := made_cut hmark hne h
    obtain ⟨hinner, hrest⟩ := made_cut hmark hne hopen
    exact hbefore.append ((helement hinner).append (ih [] hrest))
  | case3 prev c cs hfind ih =>
    rw [← List.singleton_append, ← List.append_assoc]
    apply ih
    simpa using h

theorem made_renderInline (cc : CharClasses) {line : List Char} (h : MadeOf (IsPiece src) line) :
    MadeOf (IsPiece src) (renderInline cc line) := by
  have hstar : Lone (IsPiece src) '*' := lone_mark (by simp [marks])
  have htick : Lone (IsPiece src) backtick := lone_mark (by simp [marks])
  have hund : Lone (IsPiece src) '_' := lone_mark (by simp [marks])
  have hcode := made_wrapAll reCode (made_element (show "code" ∈ tagNames by decide)) (by simpa [reCode] using htick) (by simp [reCode])
    none line [] h
  have hbold := made_wrapAll reBold (made_element (show "strong" ∈ tagNames by decide)) (by simpa [reBold] using hstar) (by simp [reBold])
    none _ [] hcode
  have hast := made_wrapAll reItalicAst (made_element (show "em" ∈ tagNames by decide)) (by simpa [reItalicAst] using hstar)
    (by simp [reItalicAst]) none _ [] hbold
  exact made_wrapAll (reItalicUnd cc) (made_element (show "em" ∈ tagNames by decide)) (by simpa [reItalicUnd] using hund)
    (by simp [reItalicUnd]) none _ [] hast

/-! ## Lines -/

theorem made_behind {p : Char → Bool} {v : List Char} {m : Char} (hm : Lone (IsPiece src) m) {rest : List Char}
    (hrest : v.dropWhile p = m :: rest) (h : MadeOf (IsPiece src) v) : MadeOf (IsPiece src) rest := by
  rw [← List.takeWhile_append_dropWhile (p := p) (l := v), hrest] at h
  exact (h.cut hm).2

theorem closesHeading_mem {tail : List Char} (h : closesHeading tail = true) : ∀ m ∈ tail, isWhitespace m = true ∨ m = '#' := by
  intro m hm
  unfold closesHeading at h
  have hnil : ∀ x ∈ (tail.dropWhile isWhitespace).dropWhile (· = '#'), isWhitespace x = true :=
    List.dropWhile_eq_nil_iff.mp (of_decide_eq_true h)
  rw [← List.takeWhile_append_dropWhile (p := isWhitespace) (l := tail)] at hm
  rcases List.mem_append.mp hm with hm | hm
  · exact .inl (List.mem_takeWhile_imp hm)
  · rw [← List.takeWhile_append_dropWhile (p := fun c => decide (c = '#')) (l := tail.dropWhile isWhitespace)] at hm
    rcases List.mem_append.mp hm with hm | hm
    · have hhash := List.mem_takeWhile_imp hm
      exact .inr (by simpa using hhash)
    · exact .inl (hnil m hm)

theorem headingBody_eq {s body : List Char} (h : headingBody s = some body) :
    ∃ tail, s = body ++ tail ∧ closesHeading tail = true := by
  induction s generalizing body with
  | nil => cases h
  | cons c s ih =>
    unfold headingBody at h
    split at h
    · rename_i hclose
      obtain rfl := Option.some.inj h
      exact ⟨s, rfl, hclose⟩
    · obtain ⟨rest, hrest, rfl⟩ := Option.map_eq_some_iff.mp h
      obtain ⟨tail, rfl, hclose⟩ := ih hrest
      exact ⟨tail, rfl, hclose⟩

/-- The hashes in front are cut off at a blank, those behind one by one. -/
theorem made_heading {line body : List Char} {depth : Nat} (h : heading line = some (depth, body))
    (hline : MadeOf (IsPiece src) line) : MadeOf (IsPiece src) body := by
  unfold heading at h
  dsimp only at h
  split at h
  · rename_i hcond
    obtain ⟨body', hbody, hpair⟩ := Option.map_eq_some_iff.mp h
    obtain ⟨-, rfl⟩ := Prod.mk.inj hpair
    obtain ⟨tail, hsplit, hclose⟩ := headingBody_eq hbody
    cases hrest : line.dropWhile (· = '#') with
    | nil => simp [hrest] at hcond
    | cons w rest =>
      have hw : isWhitespace w = true := by simpa [hrest] using hcond.2.2
      have hmade := (made_behind (lone_blank w hw) hrest hline).dropWhile lone_blank
      rw [hrest, List.dropWhile_cons_of_pos hw] at hsplit
      rw [hsplit] at hmade
      refine MadeOf.of_append (fun m hm p hp hlast => ?_) hmade
      rcases closesHeading_mem hclose m hm with hblank | rfl
      · exact lone_blank m hblank p hp (List.mem_of_getLast? hlast)
      · exact hash_ends hp hlast
  · cases h

theorem made_afterBlanks {s body : List Char} (h : afterBlanks s = some body) (hs : MadeOf (IsPiece src) s) :
    MadeOf (IsPiece src) body := by
  unfold afterBlanks at h
  split at h
  · rw [← Option.some.inj h]
    exact hs.dropWhile lone_blank
  · cases h

theorem made_listItem {line body : List Char} (h : listItem line = some body) (hline : MadeOf (IsPiece src) line) :
    MadeOf (IsPiece src) body := by
  unfold listItem at h
  split at h
  · rename_i rest hrest
    exact made_afterBlanks h (made_behind (lone_mark (by simp [marks])) hrest hline)
  · rename_i rest hrest
    exact made_afterBlanks h (made_behind (lone_mark (by simp [marks])) hrest hline)
  · cases h

theorem made_olItem {cc : CharClasses} {line body : List Char} (h : olItem cc line = some body)
    (hline : MadeOf (IsPiece src) line) : MadeOf (IsPiece src) body := by
  have hblanks := hline.dropWhile lone_blank
  unfold olItem at h
  dsimp only at h
  split at h
  · cases h
  · split at h
    · rename_i rest hrest
      exact made_afterBlanks h (made_behind (lone_mark (by simp [marks])) hrest hblanks)
    · rename_i rest hrest
      exact made_afterBlanks h (made_behind (lone_mark (by simp [marks])) hrest hblanks)
    · cases h

theorem made_splitTableRow {row : List Char} (h : MadeOf (IsPiece src) row) :
    ∀ c ∈ splitTableRow row, MadeOf (IsPiece src) c := by
  have hpipe : Lone (IsPiece src) '|' := lone_mark (by simp [marks])
  have hfront : MadeOf (IsPiece src) ((afterPrefix ['|'] (trim row)).getD (trim row)) := by
    cases hp : afterPrefix ['|'] (trim row) with
    | none => exact made_trim h
    | some rest =>
      have htrim := made_trim h
      rw [afterPrefix_eq hp] at htrim
      exact htrim.tail hpipe
  have hback : ∀ {v : List Char}, MadeOf (IsPiece src) v →
      MadeOf (IsPiece src) (if v.getLast? = some '|' then v.dropLast else v) := by
    intro v hv
    split
    · rename_i hlast
      rw [← List.dropLast_append_getLast? '|' hlast] at hv
      exact hv.of_concat fun p hp hend => hpipe p hp (List.mem_of_getLast? hend)
    · exact hv
  intro c hc
  obtain ⟨cell, hcell, rfl⟩ := List.mem_map.mp hc
  exact made_trim (made_splitChar hpipe (hback hfront) cell hcell)

/-! ## Blocks -/

/-- All that the blocks hold is made of the pieces. -/
structure Blocks.Made (src : List Char) (b : Blocks) : Prop where
  out : ∀ v ∈ b.out, MadeOf (IsPiece src) v
  para : ∀ v ∈ b.para, MadeOf (IsPiece src) v
  ul : ∀ v ∈ b.ul, MadeOf (IsPiece src) v
  ol : ∀ v ∈ b.ol, MadeOf (IsPiece src) v

theorem forall_concat {P : List Char → Prop} {vs : List (List Char)} {v : List Char} (hvs : ∀ w ∈ vs, P w) (hv : P v) :
    ∀ w ∈ vs ++ [v], P w := by
  simpa [or_imp, forall_and] using ⟨hvs, hv⟩

theorem Blocks.Made.push {b : Blocks} (hb : b.Made src) {html : List Char} (h : MadeOf (IsPiece src) html) :
    (b.push html).Made src := ⟨forall_concat hb.out h, hb.para, hb.ul, hb.ol⟩

theorem made_mapped {f : List Char → List Char} (hf : ∀ v, MadeOf (IsPiece src) v → MadeOf (IsPiece src) (f v))
    {vs : List (List Char)} (h : ∀ v ∈ vs, MadeOf (IsPiece src) v) : ∀ w ∈ vs.map f, MadeOf (IsPiece src) w := by
  intro w hw
  obtain ⟨v, hv, rfl⟩ := List.mem_map.mp hw
  exact hf v (h v hv)

variable {cc : CharClasses}

theorem made_cells (cc : CharClasses) {name : String} (hname : name ∈ tagNames) {vs : List (List Char)}
    (h : ∀ v ∈ vs, MadeOf (IsPiece src) v) : MadeOf (IsPiece src) (cells cc name vs) :=
  .flatten (made_mapped (fun _ hv => made_element hname (made_renderInline cc hv)) h)

theorem Blocks.Made.flushUl {b : Blocks} (hb : b.Made src) : (b.flushUl cc).Made src := by
  unfold Blocks.flushUl
  split
  · exact hb
  · have h := hb.push (made_element (show "ul" ∈ tagNames by decide)
      (made_cells cc (show "li" ∈ tagNames by decide) hb.ul))
    exact ⟨h.out, h.para, by simp, h.ol⟩

theorem Blocks.Made.flushOl {b : Blocks} (hb : b.Made src) : (b.flushOl cc).Made src := by
  unfold Blocks.flushOl
  split
  · exact hb
  · have h := hb.push (made_element (show "ol" ∈ tagNames by decide)
      (made_cells cc (show "li" ∈ tagNames by decide) hb.ol))
    exact ⟨h.out, h.para, h.ul, by simp⟩

theorem Blocks.Made.flushPara {b : Blocks} (hb : b.Made src) : (b.flushPara cc).Made src := by
  unfold Blocks.flushPara
  split
  · exact hb
  · have hbr : MadeOf (IsPiece src) "<br>".toList := .of_piece (.inl List.mem_cons_self)
    have hlines := made_mapped (fun _ hv => made_renderInline cc hv) hb.para
    have h := hb.push (made_element (show "p" ∈ tagNames by decide) (hbr.intercalate hlines))
    exact ⟨h.out, by simp, h.ul, h.ol⟩

theorem Blocks.Made.flushBlocks {b : Blocks} (hb : b.Made src) : (b.flushBlocks cc).Made src :=
  ((hb.flushUl).flushOl).flushPara

theorem made_preBlock {vs : List (List Char)} (h : ∀ v ∈ vs, MadeOf (IsPiece src) v) :
    MadeOf (IsPiece src) (preBlock vs) := by
  have hfeed : MadeOf (IsPiece src) ['\n'] := .of_piece (.inr (.inr (.inl rfl)))
  exact made_element (by decide) (made_element (by decide) (hfeed.intercalate h))

theorem made_tableBlock {header : List (List Char)} {body : List (List (List Char))}
    (hheader : ∀ v ∈ header, MadeOf (IsPiece src) v) (hbody : ∀ row ∈ body, ∀ v ∈ row, MadeOf (IsPiece src) v) :
    MadeOf (IsPiece src) (tableBlock cc header body) := by
  refine made_element (by decide) ((made_element (by decide) (made_element (by decide) (made_cells cc (by decide) hheader))).append
    (made_element (by decide) (.flatten fun v hv => ?_)))
  obtain ⟨row, hrow, rfl⟩ := List.mem_map.mp hv
  exact made_element (by decide) (made_cells cc (by decide) (hbody row hrow))

theorem headingName_mem (depth : Nat) : headingName depth ∈ tagNames := by
  unfold headingName
  have hdepth : max 3 (min 6 (2 + depth)) = 3 ∨ max 3 (min 6 (2 + depth)) = 4 ∨ max 3 (min 6 (2 + depth)) = 5 ∨
      max 3 (min 6 (2 + depth)) = 6 := by omega
  rcases hdepth with h | h | h | h <;> rw [h] <;> decide

/-! ## The run over the lines -/

structure Cursor.Made (src : List Char) (c : Cursor) : Prop where
  rest : ∀ v ∈ c.rest, MadeOf (IsPiece src) v
  fence : ∀ buf, c.fence = some buf → ∀ v ∈ buf, MadeOf (IsPiece src) v
  blocks : c.blocks.Made src

theorem made_step {allowTables : Bool} {raw : List Char} {rest : List (List Char)} {fence : Option (List (List Char))}
    {b : Blocks} (hraw : MadeOf (IsPiece src) raw) (hrest : ∀ v ∈ rest, MadeOf (IsPiece src) v)
    (hfence : ∀ buf, fence = some buf → ∀ v ∈ buf, MadeOf (IsPiece src) v) (hb : b.Made src) :
    (step cc allowTables raw rest fence b).Made src := by
  have hline := made_trimEnd hraw
  have hflush : (b.flushBlocks cc).Made src := hb.flushBlocks
  have hno : ∀ buf, (none : Option (List (List Char))) = some buf → ∀ v ∈ buf, MadeOf (IsPiece src) v := by simp
  unfold step
  dsimp only
  split
  · rename_i buf
    split
    · exact ⟨hrest, hno, hb.push (made_preBlock (hfence buf rfl))⟩
    · refine ⟨hrest, fun buf' hbuf => ?_, hb⟩
      obtain rfl := Option.some.inj hbuf
      exact forall_concat (hfence buf rfl) hline
  · split
    · refine ⟨hrest, fun buf hbuf => ?_, hflush⟩
      obtain rfl := Option.some.inj hbuf
      simp
    split
    · -- A panel: this line, and those that follow.
      have hlines := made_mapped (fun _ hv => made_trimEnd hv) fun v hv => hrest v ((List.takeWhile_prefix isPanelLine).subset hv)
      refine ⟨fun v hv => hrest v ((List.dropWhile_suffix isPanelLine).subset hv), hno, hflush.push (made_preBlock ?_)⟩
      rw [List.forall_mem_cons]
      exact ⟨hline, hlines⟩
    split
    · -- A table: the header, the separator, and the rows that follow.
      have htail : ∀ v ∈ rest.tail, MadeOf (IsPiece src) v := fun v hv => hrest v (List.mem_of_mem_tail hv)
      refine ⟨fun v hv => htail v ((List.dropWhile_suffix isTableRow).subset hv), hno, hflush.push ?_⟩
      refine made_tableBlock (made_splitTableRow hline) fun row hrow => ?_
      obtain ⟨v, hv, rfl⟩ := List.mem_map.mp hrow
      exact made_splitTableRow (htail v ((List.takeWhile_prefix isTableRow).subset hv))
    split
    · rename_i depth body hheading
      exact ⟨hrest, hno, hflush.push (made_element (headingName_mem depth) (made_renderInline cc (made_heading hheading hline)))⟩
    split
    · rename_i body hitem
      have h : ((b.flushPara cc).flushOl cc).Made src := hb.flushPara.flushOl
      exact ⟨hrest, hno, h.out, h.para, forall_concat h.ul (made_listItem hitem hline), h.ol⟩
    split
    · rename_i body hitem
      have h : ((b.flushPara cc).flushUl cc).Made src := hb.flushPara.flushUl
      exact ⟨hrest, hno, h.out, h.para, h.ul, forall_concat h.ol (made_olItem hitem hline)⟩
    split
    · exact ⟨hrest, hno, hflush⟩
    · have h : ((b.flushUl cc).flushOl cc).Made src := hb.flushUl.flushOl
      exact ⟨hrest, hno, h.out, forall_concat h.para hline, h.ul, h.ol⟩

theorem made_renderLines (cc : CharClasses) (allowTables : Bool) {c : Cursor} (hc : c.Made src) : (renderLines cc allowTables c).Made src := by
  induction hn : c.rest.length using Nat.strong_induction_on generalizing c with
  | _ n ih =>
    unfold renderLines
    split
    · exact hc
    · rename_i raw rest hrest
      have hall := hc.rest
      rw [hrest, List.forall_mem_cons] at hall
      have hlen := step_shorter cc allowTables raw rest c.fence c.blocks
      refine ih _ ?_ (made_step hall.1 hall.2 hc.fence hc.blocks) rfl
      rw [hrest, List.length_cons] at hn
      omega

theorem Cursor.Made.finish (cc : CharClasses) {c : Cursor} (hc : c.Made src) : (c.finish cc).Made src := by
  unfold Cursor.finish
  split
  · rename_i buf hbuf
    exact (hc.blocks.push (made_preBlock (hc.fence buf hbuf))).flushBlocks
  · exact hc.blocks.flushBlocks

theorem made_renderChatMarkdown (cc : CharClasses) (stripLeakage : List Char → List Char) (text : List Char) (allowTables : Bool) :
    MadeOf (IsPiece (stripLeakage text)) (renderChatMarkdown cc stripLeakage text allowTables) := by
  have hlines := made_splitChar (lone_blank '\n' (by decide)) (made_escape (stripLeakage text))
  have hrun := (made_renderLines cc allowTables (c := ⟨_, none, {}⟩)
    ⟨hlines, by simp, ⟨by simp, by simp, by simp, by simp⟩⟩).finish cc
  unfold renderChatMarkdown
  dsimp only
  split
  · exact .of_piece (.inr (.inl rfl))
  · exact .flatten hrun.out

/-! ## Where a `<` is, a tag starts -/

def bubbleTags : List (List Char) := [bubbleTag false, bubbleTag true, closeTag "div".toList]

/-- A bubble has its own tag around it. -/
def IsBubblePiece (src p : List Char) : Prop := p ∈ bubbleTags ∨ IsPiece src p

theorem made_bubble (cc : CharClasses) (stripLeakage : List Char → List Char) (text : List Char) (error allowTables : Bool) :
    MadeOf (IsBubblePiece (stripLeakage text)) (renderAssistantBubble cc stripLeakage text error allowTables) := by
  have hopen : bubbleTag error ∈ bubbleTags := by
    cases error
    · exact List.mem_cons_self
    · exact List.mem_cons_of_mem _ List.mem_cons_self
  have hclose : closeTag "div".toList ∈ bubbleTags := List.mem_cons_of_mem _ (List.mem_cons_of_mem _ List.mem_cons_self)
  have hbody := (made_renderChatMarkdown cc stripLeakage text allowTables).filter (· ≠ '\n')
    fun m hm => lone_blank m (by rw [show m = '\n' by simpa using hm]; decide)
  unfold renderAssistantBubble
  exact ((MadeOf.of_piece (.inl hopen)).append (hbody.mono fun p hp => .inr hp)).append
    (.of_piece (.inl hclose))

theorem tag_starts {p x y : List Char} (h : p ∈ bubbleTags ++ tags) (hp : p = x ++ '<' :: y) : x = [] := by
  have hall : (bubbleTags ++ tags).all (fun t => !t.tail.contains '<') = true := by decide +kernel
  have htail := List.all_eq_true.mp hall p h
  cases x with
  | nil => rfl
  | cons c x =>
    subst hp
    simp at htail

theorem piece_starts {p x y : List Char} (h : IsPiece src p) (hp : p = x ++ '<' :: y) : x = [] ∧ p ∈ tags := by
  have hlt : '<' ∈ p := by simp [hp]
  rcases h with h | rfl | rfl | ⟨c, -, rfl⟩
  · exact ⟨tag_starts (List.mem_append_right _ h) hp, h⟩
  · exact absurd hlt (by decide)
  · exact absurd hlt (by decide)
  · exact absurd (List.mem_cons_self) (escapeChar_safe c '<' hlt)

theorem bubble_starts {p x y : List Char} (h : IsBubblePiece src p) (hp : p = x ++ '<' :: y) :
    x = [] ∧ p ∈ bubbleTags ++ tags := by
  rcases h with h | h
  · exact ⟨tag_starts (List.mem_append_left _ h) hp, List.mem_append_left _ h⟩
  · exact (piece_starts h hp).imp_right (List.mem_append_right _)

end

/-- Whatever the text and its marks, the HTML consists of fixed tags and escaped characters of the text, and every `<`
starts one of the tags. -/
theorem chat_markdown_escaped (cc : CharClasses) (stripLeakage : List Char → List Char) (text : List Char)
    (error allowTables : Bool) :
    (MadeOf (IsPiece (stripLeakage text)) (renderChatMarkdown cc stripLeakage text allowTables) ∧
        ∀ a b, renderChatMarkdown cc stripLeakage text allowTables = a ++ '<' :: b → ∃ t ∈ tags, t <+: '<' :: b) ∧
      (MadeOf (IsBubblePiece (stripLeakage text)) (renderAssistantBubble cc stripLeakage text error allowTables) ∧
        ∀ a b, renderAssistantBubble cc stripLeakage text error allowTables = a ++ '<' :: b →
          ∃ t ∈ bubbleTags ++ tags, t <+: '<' :: b) ∧
      ∀ c, ∀ x ∈ escapeChar c, x ∉ ['<', '>', '"', '\''] := by
  have hhtml := made_renderChatMarkdown cc stripLeakage text allowTables
  have hbubble := made_bubble cc stripLeakage text error allowTables
  refine ⟨⟨hhtml, fun a b heq => ?_⟩, ⟨hbubble, fun a b heq => ?_⟩, escapeChar_safe⟩
  · rw [heq] at hhtml
    exact hhtml.starts fun p x y hp => piece_starts hp
  · rw [heq] at hbubble
    exact hbubble.starts fun p x y hp => bubble_starts hp

end BssCli.PortalUi
