import BssCli.PortalUi.Escaped

/-!
# The document behind the chat's HTML

What the lines of a text say, and the blocks that they are shown in. The HTML is the blocks', and the blocks hold all that the
lines say.
-/

open Text

namespace BssCli.PortalUi

/-- A line that is rendered with its marks, or the lines of a fence or a panel. -/
inductive Part
  | inline (line : List Char)
  | pre (lines : List (List Char))
  deriving DecidableEq

def Part.lines : Part → List (List Char)
  | .inline line => [line]
  | .pre lines => lines

section
variable (cc : CharClasses) (allowTables : Bool)

/-! ## What the lines say -/

/-- A line outside fences, panels and tables. -/
def partsOfLine (line : List Char) : List Part :=
  match heading line with
  | some (_, body) => [.inline body]
  | none =>
    match listItem line with
    | some body => [.inline body]
    | none =>
      match olItem cc line with
      | some body => [.inline body]
      | none => if trim line = [] then [] else [.inline line]

/-- The lines, each without the blanks at its end. A fence that is open takes in lines up to the closing one, or all. -/
def parts (fence : Option (List (List Char))) (lines : List (List Char)) : List Part :=
  match lines, fence with
  | [], none => []
  | [], some buf => [.pre buf]
  | raw :: rest, some buf =>
    let line := trimEnd raw
    if isCodeFence line then .pre buf :: parts none rest else parts (some (buf ++ [line])) rest
  | raw :: rest, none =>
    let line := trimEnd raw
    if isCodeFence line then
      parts (some []) rest
    else if isPanelLine line then
      .pre (line :: (rest.takeWhile isPanelLine).map trimEnd) :: parts none (rest.dropWhile isPanelLine)
    else if allowTables ∧ isTableRow line ∧ rest.head?.any isTableSeparator then
      (splitTableRow line ++ ((rest.tail.takeWhile isTableRow).map splitTableRow).flatten).map .inline ++
        parts none (rest.tail.dropWhile isTableRow)
    else
      partsOfLine cc line ++ parts none rest
termination_by lines.length
decreasing_by
  · exact Nat.lt_succ_self _
  · exact Nat.lt_succ_self _
  · exact Nat.lt_succ_self _
  · exact Nat.lt_succ_of_le (List.dropWhile_sublist isPanelLine (l := rest)).length_le
  · exact Nat.lt_succ_of_le (((List.dropWhile_sublist isTableRow (l := rest.tail)).trans (List.tail_sublist rest)).length_le)
  · exact Nat.lt_succ_self _

/-- What the lines of a text say, without the blanks that a block drops. -/
def textParts (stripLeakage : List Char → List Char) (text : List Char) : List Part :=
  parts cc allowTables none (splitChar '\n' (htmlEscape (stripLeakage text)))

/-! What the lines say is taken from them. -/

variable {cc allowTables}

theorem heading_subset {line body : List Char} {depth : ℕ} (h : heading line = some (depth, body)) : body ⊆ line := by
  unfold heading at h
  dsimp only at h
  split at h
  · obtain ⟨body', hbody, hpair⟩ := Option.map_eq_some_iff.mp h
    obtain ⟨-, rfl⟩ := Prod.mk.inj hpair
    obtain ⟨tail, hsplit, -⟩ := headingBody_eq hbody
    have hrest : (line.dropWhile (· = '#')).dropWhile isWhitespace ⊆ line :=
      ((List.dropWhile_suffix _).trans (List.dropWhile_suffix _)).subset
    rw [hsplit] at hrest
    exact fun c hc => hrest (List.mem_append_left _ hc)
  · cases h

theorem afterBlanks_subset {s body : List Char} (h : afterBlanks s = some body) : body ⊆ s := by
  unfold afterBlanks at h
  split at h
  · obtain rfl := Option.some.inj h
    exact (List.dropWhile_suffix _).subset
  · cases h

theorem listItem_subset {line body : List Char} (h : listItem line = some body) : body ⊆ line := by
  have hline : line.dropWhile isWhitespace ⊆ line := (List.dropWhile_suffix _).subset
  unfold listItem at h
  split at h
  · rename_i rest hrest
    rw [hrest] at hline
    exact fun c hc => hline (List.mem_cons_of_mem _ (afterBlanks_subset h hc))
  · rename_i rest hrest
    rw [hrest] at hline
    exact fun c hc => hline (List.mem_cons_of_mem _ (afterBlanks_subset h hc))
  · cases h

theorem olItem_subset {line body : List Char} (h : olItem cc line = some body) : body ⊆ line := by
  have hline : (line.dropWhile isWhitespace).dropWhile cc.isDigit ⊆ line :=
    ((List.dropWhile_suffix _).trans (List.dropWhile_suffix _)).subset
  unfold olItem at h
  dsimp only at h
  split at h
  · cases h
  · split at h
    · rename_i rest hrest
      rw [hrest] at hline
      exact fun c hc => hline (List.mem_cons_of_mem _ (afterBlanks_subset h hc))
    · rename_i rest hrest
      rw [hrest] at hline
      exact fun c hc => hline (List.mem_cons_of_mem _ (afterBlanks_subset h hc))
    · cases h

theorem partsOfLine_subset {line : List Char} : ∀ q ∈ partsOfLine cc line, ∀ l ∈ q.lines, l ⊆ line := by
  have hone : ∀ {body : List Char}, body ⊆ line → ∀ q ∈ [Part.inline body], ∀ l ∈ q.lines, l ⊆ line := by
    intro body hbody q hq l hl
    obtain rfl := List.mem_singleton.mp hq
    obtain rfl := List.mem_singleton.mp hl
    exact hbody
  unfold partsOfLine
  split
  · rename_i hheading
    exact hone (heading_subset hheading)
  split
  · rename_i hitem
    exact hone (listItem_subset hitem)
  split
  · rename_i hitem
    exact hone (olItem_subset hitem)
  split
  · exact fun q hq => by cases hq
  · exact hone (List.Subset.refl line)

theorem trim_subset (s : List Char) : trim s ⊆ s := by
  rw [trim_eq_rdropWhile]
  exact fun c hc => (List.dropWhile_suffix _).subset ((List.rdropWhile_prefix _ _).subset hc)

theorem splitTableRow_subset {row : List Char} : ∀ cell ∈ splitTableRow row, cell ⊆ row := by
  have hfront : (afterPrefix ['|'] (trim row)).getD (trim row) ⊆ row := by
    cases hp : afterPrefix ['|'] (trim row) with
    | none => exact trim_subset row
    | some rest =>
      have htrim := trim_subset row
      rw [afterPrefix_eq hp] at htrim
      exact fun c hc => htrim (List.mem_cons_of_mem _ hc)
  have hback : ∀ v : List Char, (if v.getLast? = some '|' then v.dropLast else v) ⊆ v := by
    intro v
    split
    · exact (List.dropLast_prefix v).subset
    · exact List.Subset.refl v
  intro cell hcell c hc
  obtain ⟨piece, hpiece, rfl⟩ := List.mem_map.mp hcell
  exact hfront (hback _ (mem_splitChar piece hpiece c (trim_subset piece hc)).1)

/-- What holds of the characters of the lines holds of those of the parts. -/
theorem parts_chars {P : Char → Prop} {fence : Option (List (List Char))} {lines : List (List Char)}
    (hfence : ∀ buf ∈ fence, ∀ v ∈ buf, ∀ c ∈ v, P c) (hlines : ∀ raw ∈ lines, ∀ c ∈ raw, P c) :
    ∀ q ∈ parts cc allowTables fence lines, ∀ l ∈ q.lines, ∀ c ∈ l, P c := by
  have htrim : ∀ {raw : List Char}, (∀ c ∈ raw, P c) → ∀ c ∈ trimEnd raw, P c :=
    fun hraw c hc => hraw c ((List.rdropWhile_prefix _ _).subset hc)
  fun_induction parts cc allowTables fence lines with
  | case1 => exact fun q hq => by cases hq
  | case2 buf =>
    intro q hq
    obtain rfl := List.mem_singleton.mp hq
    exact hfence buf rfl
  | case3 raw rest buf line hcode ih =>
    obtain ⟨hraw, hrest⟩ := List.forall_mem_cons.mp hlines
    refine List.forall_mem_cons.mpr ⟨hfence buf rfl, ih (fun _ hb => by cases hb) hrest⟩
  | case4 raw rest buf line hcode ih =>
    obtain ⟨hraw, hrest⟩ := List.forall_mem_cons.mp hlines
    refine ih (fun b hb => ?_) hrest
    obtain rfl := Option.some.inj hb
    exact forall_concat (hfence buf rfl) (htrim hraw)
  | case5 raw rest line hcode ih =>
    refine ih (fun buf hbuf => ?_) (List.forall_mem_cons.mp hlines).2
    obtain rfl := Option.some.inj hbuf
    exact fun v hv => by cases hv
  | case6 raw rest line hcode hpanel ih =>
    obtain ⟨hraw, hrest⟩ := List.forall_mem_cons.mp hlines
    refine List.forall_mem_cons.mpr ⟨List.forall_mem_cons.mpr ⟨htrim hraw, fun l hl => ?_⟩,
      ih (fun _ hb => by cases hb) fun v hv => hrest v ((List.dropWhile_suffix _).subset hv)⟩
    obtain ⟨v, hv, rfl⟩ := List.mem_map.mp hl
    exact htrim (hrest v ((List.takeWhile_prefix _).subset hv))
  | case7 raw rest line hcode hpanel htable ih =>
    obtain ⟨hraw, hrest⟩ := List.forall_mem_cons.mp hlines
    have htail : ∀ v ∈ rest.tail, ∀ c ∈ v, P c := fun v hv => hrest v (List.mem_of_mem_tail hv)
    have hcell : ∀ {row : List Char}, (∀ c ∈ row, P c) → ∀ cell ∈ splitTableRow row, ∀ c ∈ cell, P c :=
      fun hrow cell hcell c hc => hrow c (splitTableRow_subset cell hcell hc)
    intro q hq
    rcases List.mem_append.mp hq with hq | hq
    · obtain ⟨cell, hmem, rfl⟩ := List.mem_map.mp hq
      intro l hl
      obtain rfl := List.mem_singleton.mp hl
      rcases List.mem_append.mp hmem with hmem | hmem
      · exact hcell (htrim hraw) l hmem
      · obtain ⟨cells, hcells, hmem⟩ := List.mem_flatten.mp hmem
        obtain ⟨row, hrow, rfl⟩ := List.mem_map.mp hcells
        exact hcell (htail row ((List.takeWhile_prefix _).subset hrow)) l hmem
    · exact ih (fun _ hb => by cases hb) (fun v hv => htail v ((List.dropWhile_suffix _).subset hv)) q hq
  | case8 raw rest line hcode hpanel htable ih =>
    obtain ⟨hraw, hrest⟩ := List.forall_mem_cons.mp hlines
    intro q hq
    rcases List.mem_append.mp hq with hq | hq
    · exact fun l hl c hc => htrim hraw c (partsOfLine_subset q hq l hl hc)
    · exact ih (fun _ hb => by cases hb) hrest q hq

theorem textParts_chars {stripLeakage : List Char → List Char} {text : List Char} :
    ∀ q ∈ textParts cc allowTables stripLeakage text, ∀ l ∈ q.lines, ∀ c ∈ l, c ≠ '<' ∧ c ≠ '\n' := by
  refine parts_chars (P := fun c => c ≠ '<' ∧ c ≠ '\n') (fun _ hb => by cases hb) fun raw hraw c hc => ?_
  obtain ⟨hmem, hfeed⟩ := mem_splitChar raw hraw c hc
  refine ⟨?_, hfeed⟩
  rintro rfl
  rw [htmlEscape_eq] at hmem
  obtain ⟨x, -, hx⟩ := List.mem_flatMap.mp hmem
  exact escapeChar_safe x '<' hx List.mem_cons_self

variable (cc allowTables)

/-! ## Blocks -/

inductive Block
  | para (lines : List (List Char))
  | ul (items : List (List Char))
  | ol (items : List (List Char))
  | heading (depth : Nat) (body : List Char)
  | pre (lines : List (List Char))
  | table (header : List (List Char)) (rows : List (List (List Char)))

namespace Block

def html : Block → List Char
  | .para lines => element "p" ("<br>".toList.intercalate (lines.map (renderInline cc)))
  | .ul items => element "ul" (cells cc "li" items)
  | .ol items => element "ol" (cells cc "li" items)
  | .heading depth body => element (headingName depth) (renderInline cc body)
  | .pre lines => preBlock lines
  | .table header rows => tableBlock cc header rows

def parts : Block → List Part
  | .para lines | .ul lines | .ol lines => lines.map .inline
  | .heading _ body => [.inline body]
  | .pre lines => [.pre lines]
  | .table header rows => (header ++ rows.flatten).map .inline

end Block

/-! ## The walk over the lines -/

def Blocks.waiting (b : Blocks) : List Part := (b.para ++ b.ul ++ b.ol).map .inline

/-- What is out is the HTML of blocks. They and the lines that wait hold these parts, and no others. -/
def Blocks.Holds (b : Blocks) (held : Part → Prop) : Prop :=
  ∃ doc : List Block, b.out = doc.map (Block.html cc) ∧ ∀ q, held q ↔ q ∈ doc.flatMap Block.parts ∨ q ∈ b.waiting

variable {cc allowTables}

namespace Blocks

variable {b : Blocks} {held : Part → Prop}

theorem Holds.of_iff {held' : Part → Prop} (h : b.Holds cc held) (hiff : ∀ q, held' q ↔ held q) : b.Holds cc held' := by
  obtain ⟨doc, hout, hheld⟩ := h
  exact ⟨doc, hout, fun q => (hiff q).trans (hheld q)⟩

theorem holds_nil : ({} : Blocks).Holds cc fun _ => False := ⟨[], rfl, fun q => by simp [waiting]⟩

theorem Holds.push (h : b.Holds cc held) (block : Block) :
    (b.push (block.html cc)).Holds cc fun q => held q ∨ q ∈ block.parts := by
  obtain ⟨doc, hdoc, hheld⟩ := h
  refine ⟨doc ++ [block], by rw [Blocks.push, hdoc, List.map_append]; rfl, fun q => ?_⟩
  dsimp only
  rw [hheld, List.flatMap_append, List.flatMap_singleton, List.mem_append]
  exact or_right_comm

/-- The lines of the block waited until now. -/
theorem Holds.flush (h : b.Holds cc held) {b' : Blocks} (block : Block) (hout : b'.out = b.out ++ [block.html cc])
    (hwait : ∀ q, q ∈ b.waiting ↔ q ∈ block.parts ∨ q ∈ b'.waiting) : b'.Holds cc held := by
  obtain ⟨doc, hdoc, hheld⟩ := h
  refine ⟨doc ++ [block], by rw [hout, hdoc, List.map_append]; rfl, fun q => ?_⟩
  rw [hheld, hwait, List.flatMap_append, List.flatMap_singleton, List.mem_append, or_assoc]

theorem Holds.wait (h : b.Holds cc held) {b' : Blocks} (line : List Char) (hout : b'.out = b.out)
    (hwait : ∀ q, q ∈ b'.waiting ↔ q ∈ b.waiting ∨ q ∈ [Part.inline line]) :
    b'.Holds cc fun q => held q ∨ q ∈ [Part.inline line] := by
  obtain ⟨doc, hdoc, hheld⟩ := h
  refine ⟨doc, hout.trans hdoc, fun q => ?_⟩
  dsimp only
  rw [hheld, hwait, or_assoc]

theorem mem_waiting {q : Part} :
    q ∈ b.waiting ↔ q ∈ b.para.map Part.inline ∨ q ∈ b.ul.map Part.inline ∨ q ∈ b.ol.map Part.inline := by
  unfold waiting
  rw [List.map_append, List.map_append, List.mem_append, List.mem_append, or_assoc]

theorem Holds.flushUl (h : b.Holds cc held) : (b.flushUl cc).Holds cc held := by
  unfold Blocks.flushUl
  split
  · exact h
  · refine h.flush (.ul b.ul) rfl fun q => ?_
    simp only [mem_waiting, Block.parts, Blocks.push, List.map_nil, List.not_mem_nil, false_or]
    exact or_left_comm

theorem Holds.flushOl (h : b.Holds cc held) : (b.flushOl cc).Holds cc held := by
  unfold Blocks.flushOl
  split
  · exact h
  · refine h.flush (.ol b.ol) rfl fun q => ?_
    simp only [mem_waiting, Block.parts, Blocks.push, List.map_nil, List.not_mem_nil, or_false]
    rw [← or_assoc, or_comm]

theorem Holds.flushPara (h : b.Holds cc held) : (b.flushPara cc).Holds cc held := by
  unfold Blocks.flushPara
  split
  · exact h
  · refine h.flush (.para b.para) rfl fun q => ?_
    simp only [mem_waiting, Block.parts, Blocks.push, List.map_nil, List.not_mem_nil, false_or]

theorem Holds.addPara (h : b.Holds cc held) (line : List Char) :
    ({ b with para := b.para ++ [line] } : Blocks).Holds cc fun q => held q ∨ q ∈ [Part.inline line] := by
  refine h.wait line rfl fun q => ?_
  rw [mem_waiting, mem_waiting, List.map_append, List.mem_append]
  exact or_right_comm

theorem Holds.addUl (h : b.Holds cc held) (line : List Char) :
    ({ b with ul := b.ul ++ [line] } : Blocks).Holds cc fun q => held q ∨ q ∈ [Part.inline line] := by
  refine h.wait line rfl fun q => ?_
  rw [mem_waiting, mem_waiting, List.map_append, List.mem_append]
  exact (or_congr_right or_right_comm).trans or_assoc.symm

theorem Holds.addOl (h : b.Holds cc held) (line : List Char) :
    ({ b with ol := b.ol ++ [line] } : Blocks).Holds cc fun q => held q ∨ q ∈ [Part.inline line] := by
  refine h.wait line rfl fun q => ?_
  rw [mem_waiting, mem_waiting, List.map_append, List.mem_append, or_assoc, or_assoc]
  exact Iff.rfl

theorem Holds.flushBlocks (h : b.Holds cc held) : (b.flushBlocks cc).Holds cc held := h.flushUl.flushOl.flushPara

theorem flushBlocks_waiting (cc : CharClasses) (b : Blocks) : (b.flushBlocks cc).waiting = [] := by
  unfold flushBlocks Blocks.flushPara Blocks.flushOl Blocks.flushUl
  repeat' split
  all_goals simp_all [waiting, Blocks.push]

end Blocks

variable (allowTables) in
/-- A step lets the blocks hold what its lines say. -/
theorem holds_step {b : Blocks} {held : Part → Prop} (h : b.Holds cc held) (raw : List Char) (rest : List (List Char))
    (fence : Option (List (List Char))) :
    ∃ held' : Part → Prop, (step cc allowTables raw rest fence b).blocks.Holds cc held' ∧
      ∀ q, (held' q ∨ q ∈ parts cc allowTables (step cc allowTables raw rest fence b).fence
          (step cc allowTables raw rest fence b).rest) ↔
        held q ∨ q ∈ parts cc allowTables fence (raw :: rest) := by
  have hflush := h.flushBlocks
  unfold step
  dsimp only
  cases fence with
  | some buf =>
    rw [parts]
    dsimp only
    split
    · refine ⟨_, h.push (.pre buf), fun q => ?_⟩
      simp only [Block.parts, List.mem_cons, List.not_mem_nil, or_false]
      exact or_assoc
    · exact ⟨held, h, fun q => Iff.rfl⟩
  | none =>
    rw [parts]
    dsimp only
    split
    · exact ⟨held, hflush, fun q => Iff.rfl⟩
    split
    · refine ⟨_, hflush.push (.pre _), fun q => ?_⟩
      simp only [Block.parts, List.mem_cons, List.not_mem_nil, or_false]
      exact or_assoc
    split
    · refine ⟨_, hflush.push (.table _ _), fun q => ?_⟩
      simp only [Block.parts, List.mem_append]
      exact or_assoc
    · unfold partsOfLine
      cases heading (trimEnd raw) with
      | some found =>
        obtain ⟨depth, body⟩ := found
        refine ⟨_, hflush.push (.heading depth body), fun q => ?_⟩
        simp only [Block.parts, List.mem_append]
        exact or_assoc
      | none =>
        cases listItem (trimEnd raw) with
        | some body =>
          refine ⟨_, h.flushPara.flushOl.addUl body, fun q => ?_⟩
          simp only [List.mem_append]
          exact or_assoc
        | none =>
          cases olItem cc (trimEnd raw) with
          | some body =>
            refine ⟨_, h.flushPara.flushUl.addOl body, fun q => ?_⟩
            simp only [List.mem_append]
            exact or_assoc
          | none =>
            dsimp only
            split
            · exact ⟨held, hflush, fun q => by rw [List.nil_append]⟩
            · refine ⟨_, h.flushUl.flushOl.addPara (trimEnd raw), fun q => ?_⟩
              simp only [List.mem_append]
              exact or_assoc

variable (cc allowTables) in
theorem holds_renderLines {c : Cursor} {held : Part → Prop} (h : c.blocks.Holds cc held) :
    ((renderLines cc allowTables c).finish cc).Holds cc fun q => held q ∨ q ∈ parts cc allowTables c.fence c.rest := by
  induction hn : c.rest.length using Nat.strong_induction_on generalizing c held with
  | _ n ih =>
    unfold renderLines
    split
    · rename_i hrest
      rw [hrest]
      unfold Cursor.finish
      cases hfence : c.fence with
      | none =>
        refine h.flushBlocks.of_iff fun q => ?_
        rw [parts]
        simp
      | some buf =>
        refine (h.push (.pre buf)).flushBlocks.of_iff fun q => ?_
        rw [parts]
        exact Iff.rfl
    · rename_i raw rest hrest
      have hlen := step_shorter cc allowTables raw rest c.fence c.blocks
      rw [hrest, List.length_cons] at hn
      obtain ⟨held', hstep, hiff⟩ := holds_step allowTables h raw rest c.fence
      refine (ih _ (by omega) hstep rfl).of_iff fun q => ?_
      rw [hrest]
      exact (hiff q).symm

theorem finish_waiting (cc : CharClasses) (c : Cursor) : (c.finish cc).waiting = [] := by
  unfold Cursor.finish
  split <;> exact Blocks.flushBlocks_waiting cc _

/-- The HTML is a document's, and the document holds what the lines of the text say. -/
theorem renderChatMarkdown_document (cc : CharClasses) (stripLeakage : List Char → List Char) (text : List Char)
    (allowTables : Bool) :
    ∃ doc : List Block,
      renderChatMarkdown cc stripLeakage text allowTables =
          (if (doc.map (Block.html cc)).flatten = [] then nbsp else (doc.map (Block.html cc)).flatten) ∧
        ∀ q, q ∈ doc.flatMap Block.parts ↔ q ∈ textParts cc allowTables stripLeakage text := by
  obtain ⟨doc, hdoc, hheld⟩ := holds_renderLines cc allowTables
    (c := ⟨splitChar '\n' (htmlEscape (stripLeakage text)), none, {}⟩) Blocks.holds_nil
  refine ⟨doc, ?_, fun q => ?_⟩
  · unfold renderChatMarkdown
    dsimp only
    rw [hdoc]
  · have hq := hheld q
    rw [finish_waiting] at hq
    unfold textParts
    simpa using hq.symm

end

/-- The classes, as far as ASCII goes. -/
def asciiClasses : CharClasses := ⟨fun c => c.isAlphanum || c = '_', Char.isDigit⟩

end BssCli.PortalUi
