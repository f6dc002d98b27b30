import BssCli.Agent.Messages
import BssCli.Cockpit.Conversation
import BssCli.Lib.Paragraphs

/-!
# The plan of a turn

`turn.rs`: what opening the event stream of a conversation does, from the transcript and from whether a pending
proposal was consumed. The planner splits the transcript at blank lines.
-/

open Text BssCli.Agent

namespace BssCli.Cockpit

structure Block where
  role : RowRole
  toolName : List Char
  body : List Char
  deriving DecidableEq

/-- One `role:\ncontent` block. An unknown role gives none. -/
def readBlock (block : List Char) : Option Block :=
  let p := (splitOnce '\n' block).getD (block, [])
  let head := (trim p.1).rdropWhile (· = ':')
  let body := trim p.2
  if head = [] then
    none
  else if "tool".toList <+: head then
    some ⟨.tool, toolNameOf head, body⟩
  else if head = "user".toList then
    some ⟨.user, [], body⟩
  else if head = "assistant".toList then
    some ⟨.assistant, [], body⟩
  else
    none

def splitTranscriptBlocks (transcript : List Char) : List Block :=
  if trim transcript = [] then
    []
  else
    (splitBlank transcript).filterMap fun piece =>
      let block := trimNewlines piece
      if block = [] then none else readBlock block

def Block.text (b : Block) : List Char :=
  let head :=
    match b.role with
    | .tool => if b.toolName = [] then "tool".toList else "tool[".toList ++ b.toolName ++ [']']
    | .user => "user".toList
    | .assistant => "assistant".toList
  head ++ ":\n".toList ++ b.body

def joinBlocks (blocks : List Block) : List Char := "\n\n".toList.intercalate (blocks.map Block.text)

def confirmPrompt : List Char :=
  "(operator typed /confirm — proceed with the prior destructive proposal now; call the tool)".toList

/-- The resolved inputs of one agent turn. -/
structure DriveTurn where
  userMessage : List Char
  priorTranscript : List Char
  allowDestructive : Bool
  viaSlashConfirm : Bool
  deriving DecidableEq

inductive TurnPlan
  | nothing
  | replay
  | drive (d : DriveTurn)
  deriving DecidableEq

/-- `rposition`, with what stands before and behind. -/
def splitLast {α : Type} (p : α → Bool) : List α → Option (List α × α × List α)
  | [] => none
  | a :: as =>
    match splitLast p as with
    | some (xs, u, ys) => some (a :: xs, u, ys)
    | none => if p a then some ([], a, as) else none

/-- `raw.trim_start().to_lowercase().starts_with("/confirm")`. Of the letters in it, only ASCII ones are lower
cases of others. -/
def isConfirm (raw : List Char) : Bool := "/confirm".toList.isPrefixOf ((raw.dropWhile isWhitespace).map Char.toLower)

def planTurn (transcript : List Char) (pendingConsumed : Bool) : TurnPlan :=
  match splitLast (fun b => b.role = .user) (splitTranscriptBlocks transcript) with
  | none => .nothing
  | some (prior, user, later) =>
    if later.any fun b => b.role = .assistant then
      .replay
    else
      let raw := user.body
      .drive {
        userMessage := if isConfirm raw then confirmPrompt else raw
        priorTranscript := joinBlocks prior
        allowDestructive := pendingConsumed || isConfirm raw
        viaSlashConfirm := isConfirm raw }

/-! ## The blocks of a row -/

def Row.blocks (r : Row) : List Block := (paragraphs r.block).filterMap readBlock

/-- The row as one block, with what of its content is `text`. -/
def Row.asBlock (r : Row) (text : List Char) : Block :=
  ⟨r.role, if r.role = .tool then r.toolName else [], trim text⟩

/-- Only blanks stand behind a blank line, and a tool's name is one line: the row is split into one block. -/
structure Row.OneParagraph (r : Row) : Prop where
  name : r.role = .tool → '\n' ∉ r.toolName
  content : ¬ blankLine <:+: trimEnd ('\n' :: r.content)

/-- No later paragraph of the row is headed `user` or `assistant`. -/
def Row.Quiet (r : Row) : Prop :=
  ∀ p ∈ (paragraphs r.block).tail, ∀ b, readBlock p = some b → b.role = .tool

instance (r : Row) : Decidable r.Quiet :=
  decidable_of_iff (∀ b ∈ (paragraphs r.block).tail.filterMap readBlock, b.role = .tool)
    ⟨fun h p hp b hb => h b (List.mem_filterMap.mpr ⟨p, hp, hb⟩), fun h b hb => by
      obtain ⟨p, hp, hb⟩ := List.mem_filterMap.mp hb
      exact h p hp b hb⟩

theorem readBlock_blank {p : List Char} (h : ink p = 0) : readBlock p = none := by
  have hline : ink ((splitOnce '\n' p).getD (p, [])).1 = 0 := by
    cases hs : splitOnce '\n' p with
    | none => exact h
    | some q =>
      have hp := splitOnce_eq (b := q.2) (a := q.1) hs
      rw [hp, ink_append] at h
      show ink q.1 = 0
      omega
  unfold readBlock
  dsimp only
  rw [trim_eq_nil hline]
  rfl

theorem trim_head (r : Row) : trim (r.head ++ [':']) = r.head ++ [':'] := by
  obtain ⟨c, cs, hhead, hc⟩ := r.exists_head_cons
  rw [trim_eq_rdropWhile, hhead, List.cons_append, List.dropWhile_cons_of_neg (by simp [hc]), ← List.cons_append,
    List.rdropWhile_concat, if_neg (by decide)]

theorem rdropWhile_colon_head (r : Row) : (r.head ++ [':']).rdropWhile (· = ':') = r.head := by
  rw [List.rdropWhile_concat, if_pos (by simp), List.rdropWhile_eq_self_iff]
  intro h
  have := r.head_getLast
  rw [List.getLast?_eq_some_getLast h] at this
  simpa using this

theorem readBlock_head (r : Row) (hname : r.role = .tool → '\n' ∉ r.toolName) {w : List Char}
    (hw : w <+: '\n' :: r.content) : readBlock (r.head ++ [':'] ++ w) = some (r.asBlock w) := by
  have hsplit : (splitOnce '\n' (r.head ++ [':'] ++ w)).getD (r.head ++ [':'] ++ w, []) =
      (r.head ++ [':'], w.tail) := by
    rw [splitOnce_append (Row.head_newline hname)]
    rcases List.prefix_cons_iff.mp hw with rfl | ⟨t, rfl, -⟩
    · simp [splitOnce]
    · simp [splitOnce]
  have hbody : trim w.tail = trim w := by
    rcases List.prefix_cons_iff.mp hw with rfl | ⟨t, rfl, -⟩
    · rfl
    · exact (trim_cons_blank rfl t).symm
  unfold readBlock Row.asBlock
  dsimp only
  rw [hsplit]
  dsimp only
  rw [trim_head, rdropWhile_colon_head, hbody]
  unfold Row.head
  cases hr : r.role with
  | user => rfl
  | assistant => rfl
  | tool =>
    dsimp only
    split
    · rename_i hempty
      rw [hempty]
      rfl
    · rw [if_neg (by simp), if_pos (by simp), toolNameOf_bracket, if_pos rfl]

theorem Row.asBlock_rdropWhile (r : Row) (w : List Char) : r.asBlock (w.rdropWhile (· = '\n')) = r.asBlock w := by
  unfold Row.asBlock
  rw [trim_rdropWhile_newline]

/-- A row whose head is one line: its own block, with its first paragraph, and what is read of the others. -/
theorem Row.blocks_eq {r : Row} (hname : r.role = .tool → '\n' ∉ r.toolName) :
    ∃ w rest, paragraphs r.block = (r.head ++ [':'] ++ w.rdropWhile (· = '\n')) :: rest ∧
      readBlock (r.head ++ [':'] ++ w.rdropWhile (· = '\n')) = some (r.asBlock w) ∧
      ('\n' :: r.content = w ∧ rest = [] ∨ ∃ v, '\n' :: r.content = w ++ blankLine ++ v ∧ rest = paragraphs v) := by
  have hblock : r.block = r.head ++ [':'] ++ ('\n' :: r.content) := by simp [Row.block]
  obtain ⟨w, rest, hpar, hrest⟩ :=
    exists_first_paragraph (List.append_ne_nil_of_right_ne_nil _ (List.cons_ne_nil _ _)) (Row.head_newline hname)
      ('\n' :: r.content)
  have hw : w.rdropWhile (· = '\n') <+: '\n' :: r.content := by
    refine (List.rdropWhile_prefix _ w).trans ?_
    rcases hrest with ⟨rfl, -⟩ | ⟨v, hv, -⟩
    · exact List.prefix_rfl
    · exact ⟨blankLine ++ v, by rw [hv, List.append_assoc]⟩
  exact ⟨w, rest, hblock ▸ hpar, by rw [readBlock_head r hname hw, r.asBlock_rdropWhile], hrest⟩

theorem Row.OneParagraph.blocks {r : Row} (h : r.OneParagraph) : r.blocks = [r.asBlock r.content] := by
  obtain ⟨w, rest, hpar, hread, hrest⟩ := Row.blocks_eq h.name
  have hcontent : r.asBlock ('\n' :: r.content) = r.asBlock r.content := by
    unfold Row.asBlock
    rw [trim_cons_blank rfl]
  rw [Row.blocks, hpar, List.filterMap_cons_some hread, ← hcontent]
  rcases hrest with ⟨rfl, rfl⟩ | ⟨v, hv, rfl⟩
  · rfl
  · -- What stands behind the blank line is blank.
    have hblank : ∀ c ∈ v, isWhitespace c = true := by
      by_contra hn
      have hne : v.rdropWhile isWhitespace ≠ [] := fun hnil => hn (List.rdropWhile_eq_nil_iff.mp hnil)
      refine h.content ?_
      rw [hv, trimEnd, Text.rdropWhile_append, if_neg hne]
      exact ⟨w, _, rfl⟩
    have hnone : (paragraphs v).filterMap readBlock = [] := by
      rw [List.filterMap_eq_nil_iff]
      intro p hp
      have hink : ink v = 0 := by
        rw [ink, List.countP_eq_zero]
        intro c hc
        simp [hblank c hc]
      exact readBlock_blank (Nat.eq_zero_of_le_zero (hink ▸ ink_paragraph hp))
    have htrim : trim ('\n' :: r.content) = trim w := by
      rw [hv, trim_append_blanks _ hblank, trim_append_blanks w fun _ => isWhitespace_of_mem_blankLine]
    rw [hnone]
    unfold Row.asBlock
    rw [htrim]

/-- Every row has a block of its role, whatever its content and its tool's name. -/
theorem Row.exists_blocks_cons (r : Row) :
    ∃ b, r.blocks = b :: (paragraphs r.block).tail.filterMap readBlock ∧ b.role = r.role := by
  by_cases hr : r.role = .tool
  · obtain ⟨x, hx⟩ : ∃ x, r.block = "tool".toList ++ x := by
      unfold Row.block Row.head
      rw [hr]
      dsimp only
      split
      · exact ⟨_, List.append_assoc ..⟩
      · exact ⟨"[".toList ++ r.toolName ++ [']'] ++ ":\n".toList ++ r.content, by simp⟩
    obtain ⟨w, rest, hpar, -⟩ := exists_first_paragraph (a := "tool".toList) (by decide) (by decide) x
    have hread : ∃ b, readBlock ("tool".toList ++ w.rdropWhile (· = '\n')) = some b ∧ b.role = .tool := by
      obtain ⟨y, z, hyz⟩ : ∃ y z, (splitOnce '\n' ("tool".toList ++ w.rdropWhile (· = '\n'))).getD
          ("tool".toList ++ w.rdropWhile (· = '\n'), []) = ("tool".toList ++ y, z) := by
        rw [splitOnce_append (by decide)]
        cases splitOnce '\n' (w.rdropWhile (· = '\n')) with
        | none => exact ⟨_, _, rfl⟩
        | some q => exact ⟨_, _, rfl⟩
      have hhead : (trim ("tool".toList ++ y)).rdropWhile (· = ':') =
          "tool".toList ++ (y.rdropWhile isWhitespace).rdropWhile (· = ':') := by
        have htrim : trim ("tool".toList ++ y) = "tool".toList ++ y.rdropWhile isWhitespace :=
          Text.rdropWhile_append_of_eq (a := "tool".toList) rfl y
        rw [htrim, Text.rdropWhile_append_of_eq rfl]
      refine ⟨⟨.tool, toolNameOf ((trim ("tool".toList ++ y)).rdropWhile (· = ':')), trim z⟩, ?_, rfl⟩
      unfold readBlock
      dsimp only
      rw [hyz]
      dsimp only
      rw [hhead, if_neg (by simp), if_pos (List.prefix_append ..)]
    obtain ⟨b, hb, hrole⟩ := hread
    exact ⟨b, by rw [Row.blocks, hx, hpar, List.filterMap_cons_some hb]; rfl, hrole.trans hr.symm⟩
  · obtain ⟨w, rest, hpar, hread, -⟩ := Row.blocks_eq fun h => absurd h hr
    exact ⟨r.asBlock w, by rw [Row.blocks, hpar, List.filterMap_cons_some hread]; rfl, rfl⟩

theorem splitTranscriptBlocks_eq {transcript : List Char} (h : trim transcript ≠ []) :
    splitTranscriptBlocks transcript = (paragraphs transcript).filterMap readBlock := by
  rw [splitTranscriptBlocks, if_neg h, paragraphs, List.filterMap_filter, List.filterMap_map]
  congr 1
  funext p
  by_cases hp : trimNewlines p = [] <;> simp [hp]

theorem paragraphs_renderRows (rows : List Row) : paragraphs (renderRows rows) = rows.flatMap fun r => paragraphs r.block := by
  induction rows with
  | nil => rfl
  | cons r rows ih =>
    rcases eq_or_ne rows [] with rfl | hne
    · simp [renderRows, List.intercalate]
    · obtain ⟨s, rows, rfl⟩ := List.exists_cons_of_ne_nil hne
      rw [List.flatMap_cons, ← ih, ← paragraphs_append]
      rw [renderRows, List.map_cons, List.map_cons, List.intercalate_cons_cons]
      rfl

theorem ink_renderRows_pos {rows : List Row} (h : rows ≠ []) : 0 < ink (renderRows rows) := by
  obtain ⟨r, rows, rfl⟩ := List.exists_cons_of_ne_nil h
  obtain ⟨c, cs, hhead, hc⟩ := r.exists_head_cons
  have hblock : 0 < ink r.block := by
    rw [Row.block, hhead]
    exact ink_pos hc _
  rw [renderRows, List.map_cons]
  cases rows with
  | nil => simpa [List.intercalate] using hblock
  | cons s rows =>
    rw [List.map_cons, List.intercalate_cons_cons, ink_append, ink_append]
    omega

/-- The planner reads a conversation row by row: a blank line that the writer puts is one that it splits at. -/
theorem splitTranscriptBlocks_transcriptText (rows : List Row) :
    splitTranscriptBlocks (transcriptText rows) = (shownRows rows).flatMap Row.blocks := by
  rcases eq_or_ne (shownRows rows) [] with h | h
  · rw [transcriptText, h]
    rfl
  · have hink := ink_renderRows_pos h
    rw [transcriptText, splitTranscriptBlocks_eq, paragraphs_renderRows, List.filterMap_flatMap]
    · rfl
    · intro hnil
      rw [← ink_trim, hnil, ink_nil] at hink
      omega

/-! ## The last user row -/

theorem splitLast_eq_none {α : Type} {p : α → Bool} {as : List α} (h : ∀ a ∈ as, p a = false) :
    splitLast p as = none := by
  induction as with
  | nil => rfl
  | cons a as ih => rw [splitLast, ih fun b hb => h b (List.mem_cons_of_mem a hb), h a (List.mem_cons_self ..)]; rfl

theorem splitLast_append {α : Type} {p : α → Bool} (xs : List α) {u : α} {ys : List α} (hu : p u = true)
    (hys : ∀ y ∈ ys, p y = false) : splitLast p (xs ++ u :: ys) = some (xs, u, ys) := by
  induction xs with
  | nil => rw [List.nil_append, splitLast, splitLast_eq_none hys, if_pos hu]
  | cons x xs ih => rw [List.cons_append, splitLast, ih]

theorem exists_splitLast {α : Type} (p : α → Bool) (as : List α) :
    (∀ a ∈ as, p a = false) ∨ ∃ xs u ys, as = xs ++ u :: ys ∧ p u = true ∧ ∀ y ∈ ys, p y = false := by
  induction as with
  | nil => exact .inl fun a ha => absurd ha List.not_mem_nil
  | cons a as ih =>
    rcases ih with hnone | ⟨xs, u, ys, rfl, hu, hys⟩
    · cases ha : p a with
      | false => exact .inl (List.forall_mem_cons.mpr ⟨ha, hnone⟩)
      | true => exact .inr ⟨[], a, as, rfl, ha, hnone⟩
    · exact .inr ⟨a :: xs, u, ys, rfl, hu, hys⟩

/-- The row without the blanks at both ends of its content. -/
def Row.trimmed (r : Row) : Row := { r with content := trim r.content }

/-- What a turn is driven on for the user's row `u` behind the rows `xs`. -/
structure DriveTurn.Follows (d : DriveTurn) (pending : Bool) (xs : List Row) (u : Row) : Prop where
  prompt : u.OneParagraph →
    d.userMessage = (if isConfirm (trim u.content) then confirmPrompt else trim u.content) ∧
      d.allowDestructive = (pending || isConfirm (trim u.content)) ∧ d.viaSlashConfirm = isConfirm (trim u.content)
  prior : (∀ x ∈ xs, x.OneParagraph) → d.priorTranscript = renderRows (xs.map Row.trimmed)

/-- The plan is that of the rows: nothing without a user row, a replay when the last one is answered, and else a turn on
it. -/
structure TurnPlan.Follows (plan : TurnPlan) (pending : Bool) (rows : List Row) : Prop where
  nothing : plan = .nothing ↔ ∀ r ∈ rows, r.role ≠ .user
  replay : plan = .replay ↔
    ∃ xs u ys, rows = xs ++ u :: ys ∧ u.role = .user ∧ (∀ y ∈ ys, y.role ≠ .user) ∧ ∃ y ∈ ys, y.role = .assistant
  drive : (∃ d, plan = .drive d) ↔
    ∃ xs u ys, rows = xs ++ u :: ys ∧ u.role = .user ∧ ∀ y ∈ ys, y.role = .tool
  turn : ∀ d, plan = .drive d → ∀ xs u ys, rows = xs ++ u :: ys → u.role = .user → (∀ y ∈ ys, y.role = .tool) →
    d.Follows pending xs u

theorem Row.OneParagraph.quiet {r : Row} (h : r.OneParagraph) : r.Quiet := by
  obtain ⟨b, hb, -⟩ := r.exists_blocks_cons
  have hnone := (List.cons.inj (hb.symm.trans h.blocks)).2
  intro p hp b hread
  exact absurd (List.mem_filterMap.mpr ⟨p, hp, hread⟩) (hnone ▸ List.not_mem_nil)

/-- Quiet rows have no block of a user or an assistant but their own. -/
theorem exists_block_iff {rows : List Row} (h : ∀ r ∈ rows, r.Quiet) {k : RowRole} (hk : k ≠ .tool) :
    (∃ b ∈ rows.flatMap Row.blocks, b.role = k) ↔ ∃ r ∈ rows, r.role = k := by
  constructor
  · rintro ⟨b, hb, hrole⟩
    obtain ⟨r, hr, hb⟩ := List.mem_flatMap.mp hb
    obtain ⟨b₀, hblocks, hrole₀⟩ := r.exists_blocks_cons
    rw [hblocks] at hb
    rcases List.mem_cons.mp hb with rfl | hb
    · exact ⟨r, hr, hrole₀.symm.trans hrole⟩
    · obtain ⟨p, hp, hread⟩ := List.mem_filterMap.mp hb
      exact absurd (hrole.symm.trans (h r hr p hp b hread)) hk
  · rintro ⟨r, hr, hrole⟩
    obtain ⟨b, hblocks, hb⟩ := r.exists_blocks_cons
    exact ⟨b, List.mem_flatMap.mpr ⟨r, hr, hblocks ▸ List.mem_cons_self ..⟩, hb.trans hrole⟩

theorem joinBlocks_eq {rows : List Row} (h : ∀ r ∈ rows, r.OneParagraph) :
    joinBlocks (rows.flatMap Row.blocks) = renderRows (rows.map Row.trimmed) := by
  have hblocks : rows.flatMap Row.blocks = rows.map fun r => r.asBlock r.content := by
    induction rows with
    | nil => rfl
    | cons r rows ih =>
      rw [List.forall_mem_cons] at h
      rw [List.flatMap_cons, h.1.blocks, ih h.2, List.map_cons]
      rfl
  have htext : ∀ r : Row, (r.asBlock r.content).text = r.trimmed.block := by
    intro r
    unfold Row.asBlock Block.text Row.block Row.head Row.trimmed
    cases r.role <;> rfl
  rw [joinBlocks, renderRows, hblocks, List.map_map, List.map_map]
  exact congrArg _ (List.map_congr_left fun r _ => htext r)

/-- What the planner finds: the blocks before the last user row's, that row's first block, and the rest. -/
theorem planTurn_eq {rows xs ys : List Row} {u : Row} (hrows : shownRows rows = xs ++ u :: ys)
    (hquiet : ∀ r ∈ shownRows rows, r.Quiet) (hu : u.role = .user) (hys : ∀ y ∈ ys, y.role ≠ .user) (pending : Bool) :
    ∃ b, u.blocks = b :: (paragraphs u.block).tail.filterMap readBlock ∧
      planTurn (transcriptText rows) pending =
        if ∃ y ∈ ys, y.role = .assistant then .replay
        else .drive ⟨if isConfirm b.body then confirmPrompt else b.body, joinBlocks (xs.flatMap Row.blocks),
          pending || isConfirm b.body, isConfirm b.body⟩ := by
  obtain ⟨b, hblocks, hb⟩ := u.exists_blocks_cons
  rw [hrows, List.forall_mem_append, List.forall_mem_cons] at hquiet
  obtain ⟨-, huquiet, hyquiet⟩ := hquiet
  set strays := (paragraphs u.block).tail.filterMap readBlock with hstrays
  have hstray : ∀ c ∈ strays, c.role = .tool := by
    intro c hc
    obtain ⟨p, hp, hread⟩ := List.mem_filterMap.mp hc
    exact huquiet p hp c hread
  have hlater : ∀ {k : RowRole}, k ≠ .tool →
      ((∃ c ∈ strays ++ ys.flatMap Row.blocks, c.role = k) ↔ ∃ y ∈ ys, y.role = k) := by
    intro k hk
    rw [← exists_block_iff hyquiet hk]
    constructor
    · rintro ⟨c, hc, hrole⟩
      rcases List.mem_append.mp hc with hc | hc
      · exact absurd (hrole.symm.trans (hstray c hc)) hk
      · exact ⟨c, hc, hrole⟩
    · rintro ⟨c, hc, hrole⟩
      exact ⟨c, List.mem_append_right _ hc, hrole⟩
  have hsplit : splitLast (fun b => b.role = .user) (splitTranscriptBlocks (transcriptText rows)) =
      some (xs.flatMap Row.blocks, b, strays ++ ys.flatMap Row.blocks) := by
    rw [splitTranscriptBlocks_transcriptText, hrows, List.flatMap_append, List.flatMap_cons, hblocks, List.cons_append]
    refine splitLast_append _ (by simpa using hb.trans hu) fun c hc => ?_
    by_contra hcu
    obtain ⟨y, hy, hyu⟩ := (hlater (k := .user) (by decide)).mp ⟨c, hc, by simpa using hcu⟩
    exact hys y hy hyu
  refine ⟨b, hblocks, ?_⟩
  unfold planTurn
  rw [hsplit]
  dsimp only
  by_cases hans : ∃ y ∈ ys, y.role = .assistant
  · rw [if_pos hans, if_pos]
    obtain ⟨c, hc, hrole⟩ := (hlater (by decide)).mpr hans
    exact List.any_eq_true.mpr ⟨c, hc, by simpa using hrole⟩
  · rw [if_neg hans, if_neg]
    intro hany
    obtain ⟨c, hc, hrole⟩ := List.any_eq_true.mp hany
    exact hans ((hlater (by decide)).mp ⟨c, hc, by simpa using hrole⟩)

end BssCli.Cockpit
