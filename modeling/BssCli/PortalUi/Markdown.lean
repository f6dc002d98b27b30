import BssCli.Lib.Lines

/-!
# Markdown of the chat

`chat_html.rs`. The text is escaped as a whole, then a few marks are turned into tags, line by line and inside the lines.
-/

open Text

namespace BssCli.PortalUi

/-! ## Escaping -/

def replaceChar (c : Char) (entity : List Char) (s : List Char) : List Char :=
  s.flatMap fun x => if x = c then entity else [x]

/-- `&` first, for the others bring one in. -/
def htmlEscape (s : List Char) : List Char :=
  replaceChar '\'' "&#x27;".toList
    (replaceChar '"' "&quot;".toList
      (replaceChar '>' "&gt;".toList (replaceChar '<' "&lt;".toList (replaceChar '&' "&amp;".toList s))))

/-! ## Tags -/

def openTag (name : List Char) : List Char := '<' :: name ++ ['>']

def closeTag (name : List Char) : List Char := '<' :: '/' :: name ++ ['>']

def element (name : String) (body : List Char) : List Char := openTag name.toList ++ body ++ closeTag name.toList

/-! ## Marks inside a line -/

/-- `\w` and `\d` of the regex engine. -/
structure CharClasses where
  isWord : Char → Bool
  isDigit : Char → Bool

def afterPrefix (p s : List Char) : Option (List Char) := if p <+: s then some (s.drop p.length) else none

/-- The mark, some characters that are no mark, the mark again, with what may stand beside the two. -/
structure Span where
  mark : List Char
  inner : Char → Bool
  before : Option Char → Bool
  after : Option Char → Bool

/-- A match that starts here: the part inside, and what is left behind. -/
def Span.find (sp : Span) (prev : Option Char) (s : List Char) : Option (List Char × List Char) :=
  if sp.before prev then
    (afterPrefix sp.mark s).bind fun body =>
      (afterPrefix sp.mark (body.dropWhile sp.inner)).bind fun rest =>
        if body.takeWhile sp.inner ≠ [] ∧ sp.after rest.head? then some (body.takeWhile sp.inner, rest) else none
  else
    none

theorem afterPrefix_eq {p s t : List Char} (h : afterPrefix p s = some t) : s = p ++ t := by
  unfold afterPrefix at h
  split at h
  · rename_i hp
    obtain ⟨u, rfl⟩ := hp
    rw [List.drop_left] at h
    rw [Option.some.inj h]
  · cases h

theorem Span.find_eq {sp : Span} {prev : Option Char} {s inner rest : List Char} (h : sp.find prev s = some (inner, rest)) :
    s = sp.mark ++ inner ++ sp.mark ++ rest ∧ inner ≠ [] := by
  unfold Span.find at h
  split at h
  · obtain ⟨body, hbody, h⟩ := Option.bind_eq_some_iff.mp h
    obtain ⟨rest', hrest, h⟩ := Option.bind_eq_some_iff.mp h
    split at h
    · rename_i hne
      obtain ⟨rfl, rfl⟩ := Prod.mk.inj (Option.some.inj h)
      refine ⟨?_, hne.1⟩
      rw [afterPrefix_eq hbody, List.append_assoc, List.append_assoc, ← afterPrefix_eq hrest,
        List.takeWhile_append_dropWhile]
    · cases h
  · cases h

theorem Span.find_shorter {sp : Span} {prev : Option Char} {s inner rest : List Char}
    (h : sp.find prev s = some (inner, rest)) : rest.length < s.length := by
  obtain ⟨rfl, hne⟩ := Span.find_eq h
  have := List.length_pos_of_ne_nil hne
  simp only [List.length_append]
  omega

/-- Every match, from left to right. -/
def wrapAll (sp : Span) (name : String) (prev : Option Char) : List Char → List Char
  | [] => []
  | c :: cs =>
    match _h : sp.find prev (c :: cs) with
    | some (inner, rest) => element name inner ++ wrapAll sp name sp.mark.getLast? rest
    | none => c :: wrapAll sp name (some c) cs
termination_by cs => cs.length
decreasing_by
  · exact Span.find_shorter _h
  · simp

section
variable (cc : CharClasses)

def anything (_ : Option Char) : Bool := true

def backtick : Char := Char.ofNat 96

def reCode : Span := ⟨[backtick], fun c => c ≠ backtick ∧ c ≠ '\n', anything, anything⟩

def reBold : Span := ⟨['*', '*'], fun c => c ≠ '*' ∧ c ≠ '\n', anything, anything⟩

def reItalicAst : Span := ⟨['*'], fun c => c ≠ '*' ∧ c ≠ '\n', (· ≠ some '*'), (· ≠ some '*')⟩

def reItalicUnd : Span := ⟨['_'], fun c => c ≠ '_' ∧ c ≠ '\n', fun c => !c.any cc.isWord, fun c => !c.any cc.isWord⟩

def renderInline (line : List Char) : List Char :=
  wrapAll (reItalicUnd cc) "em" none
    (wrapAll reItalicAst "em" none (wrapAll reBold "strong" none (wrapAll reCode "code" none line)))

/-! ## Lines -/

def isCodeFence (line : List Char) : Bool := [backtick, backtick, backtick] <+: line.dropWhile isWhitespace

def boxChars : List Char := "─━│┃┌┐└┘├┤┬┴┼═║╔╗╚╝".toList

def isPanelLine (line : List Char) : Bool := line.any (· ∈ boxChars)

/-- A `|`, something, and a `|` at the end. -/
def isTableRow (line : List Char) : Bool :=
  match trim line with
  | '|' :: rest => rest.getLast? = some '|' ∧ rest.dropLast ≠ []
  | _ => false

def splitTableRow (row : List Char) : List (List Char) :=
  let trimmed := trim row
  let trimmed := (afterPrefix ['|'] trimmed).getD trimmed
  let trimmed := if trimmed.getLast? = some '|' then trimmed.dropLast else trimmed
  (splitChar '|' trimmed).map trim

/-- Dashes, with a `:` on either side or none. -/
def isSeparatorCell (cell : List Char) : Bool :=
  let cell := trim cell
  let cell := (afterPrefix [':'] cell).getD cell
  2 ≤ (cell.takeWhile (· = '-')).length ∧ (cell.dropWhile (· = '-') = [] ∨ cell.dropWhile (· = '-') = [':'])

def isTableSeparator (row : List Char) : Bool :=
  let cells := splitTableRow row
  cells ≠ [] ∧ cells.all isSeparatorCell

/-- Nothing but blanks, hashes and blanks is left. -/
def closesHeading (s : List Char) : Bool := ((s.dropWhile isWhitespace).dropWhile (· = '#')).dropWhile isWhitespace = []

/-- The shortest body with nothing but the closing hashes behind. -/
def headingBody : List Char → Option (List Char)
  | [] => none
  | c :: cs => if closesHeading cs then some [c] else (headingBody cs).map (c :: ·)

/-- The line has no blank at its end, so there is a body where there is a blank behind the hashes. -/
def heading (line : List Char) : Option (Nat × List Char) :=
  let hashes := line.takeWhile (· = '#')
  let rest := line.dropWhile (· = '#')
  if 1 ≤ hashes.length ∧ hashes.length ≤ 4 ∧ rest.head?.any isWhitespace then
    (headingBody (rest.dropWhile isWhitespace)).map fun body => (hashes.length, body)
  else
    none

/-- What stands behind at least one blank, and behind all of them. -/
def afterBlanks (s : List Char) : Option (List Char) :=
  if s.head?.any isWhitespace then some (s.dropWhile isWhitespace) else none

def listItem (line : List Char) : Option (List Char) :=
  match line.dropWhile isWhitespace with
  | '*' :: rest => afterBlanks rest
  | '-' :: rest => afterBlanks rest
  | _ => none

def olItem (line : List Char) : Option (List Char) :=
  let line := line.dropWhile isWhitespace
  if line.takeWhile cc.isDigit = [] then
    none
  else
    match line.dropWhile cc.isDigit with
    | '.' :: rest => afterBlanks rest
    | ')' :: rest => afterBlanks rest
    | _ => none

/-! ## Blocks -/

structure Blocks where
  out : List (List Char) := []
  para : List (List Char) := []
  ul : List (List Char) := []
  ol : List (List Char) := []

namespace Blocks

def push (b : Blocks) (html : List Char) : Blocks := { b with out := b.out ++ [html] }

def listItems (items : List (List Char)) : List Char := (items.map fun it => element "li" (renderInline cc it)).flatten

def flushUl (b : Blocks) : Blocks :=
  if b.ul = [] then b else { b.push (element "ul" (listItems cc b.ul)) with ul := [] }

def flushOl (b : Blocks) : Blocks :=
  if b.ol = [] then b else { b.push (element "ol" (listItems cc b.ol)) with ol := [] }

def flushPara (b : Blocks) : Blocks :=
  if b.para = [] then b
  else { b.push (element "p" ("<br>".toList.intercalate (b.para.map (renderInline cc)))) with para := [] }

def flushBlocks (b : Blocks) : Blocks := ((b.flushUl cc).flushOl cc).flushPara cc

end Blocks

def preBlock (lines : List (List Char)) : List Char := element "pre" (element "code" (joinLines lines))

def cells (name : String) (row : List (List Char)) : List Char :=
  (row.map fun c => element name (renderInline cc c)).flatten

def tableBlock (header : List (List Char)) (body : List (List (List Char))) : List Char :=
  element "table"
    (element "thead" (element "tr" (cells cc "th" header)) ++
      element "tbody" ((body.map fun row => element "tr" (cells cc "td" row)).flatten))

def headingName (depth : Nat) : String := String.ofList ['h', Nat.digitChar (max 3 (min 6 (2 + depth)))]

/-- What is still to be read, the open fence, and the blocks so far. -/
structure Cursor where
  rest : List (List Char)
  fence : Option (List (List Char)) := none
  blocks : Blocks

/-- One line, or the panel or the table that starts with it. -/
def step (allowTables : Bool) (raw : List Char) (rest : List (List Char)) (fence : Option (List (List Char))) (b : Blocks) :
    Cursor :=
  let line := trimEnd raw
  match fence with
  | some buf =>
    if isCodeFence line then ⟨rest, none, b.push (preBlock buf)⟩ else ⟨rest, some (buf ++ [line]), b⟩
  | none =>
    if isCodeFence line then
      ⟨rest, some [], b.flushBlocks cc⟩
    else if isPanelLine line then
      ⟨rest.dropWhile isPanelLine, none,
        (b.flushBlocks cc).push (preBlock (line :: (rest.takeWhile isPanelLine).map trimEnd))⟩
    else if allowTables ∧ isTableRow line ∧ rest.head?.any isTableSeparator then
      ⟨rest.tail.dropWhile isTableRow, none,
        (b.flushBlocks cc).push (tableBlock cc (splitTableRow line) ((rest.tail.takeWhile isTableRow).map splitTableRow))⟩
    else
      match heading line with
      | some (depth, body) => ⟨rest, none, (b.flushBlocks cc).push (element (headingName depth) (renderInline cc body))⟩
      | none =>
        match listItem line with
        | some body => ⟨rest, none, let b := (b.flushPara cc).flushOl cc; { b with ul := b.ul ++ [body] }⟩
        | none =>
          match olItem cc line with
          | some body => ⟨rest, none, let b := (b.flushPara cc).flushUl cc; { b with ol := b.ol ++ [body] }⟩
          | none =>
            if trim line = [] then
              ⟨rest, none, b.flushBlocks cc⟩
            else
              ⟨rest, none, let b := (b.flushUl cc).flushOl cc; { b with para := b.para ++ [line] }⟩

theorem step_shorter (allowTables : Bool) (raw : List Char) (rest : List (List Char)) (fence : Option (List (List Char)))
    (b : Blocks) : (step cc allowTables raw rest fence b).rest.length ≤ rest.length := by
  have hpanel := (List.dropWhile_sublist isPanelLine (l := rest)).length_le
  have htable := ((List.dropWhile_sublist isTableRow (l := rest.tail)).trans (List.tail_sublist rest)).length_le
  unfold step
  dsimp only
  repeat' split
  all_goals first
    | exact Nat.le_refl _
    | exact hpanel
    | exact htable

def renderLines (allowTables : Bool) (c : Cursor) : Cursor :=
  match _h : c.rest with
  | [] => c
  | raw :: rest => renderLines allowTables (step cc allowTables raw rest c.fence c.blocks)
termination_by c.rest.length
decreasing_by
  rw [_h]
  exact Nat.lt_succ_of_le (step_shorter cc allowTables raw rest c.fence c.blocks)

/-- An open fence is closed, and the last blocks come out. -/
def Cursor.finish (c : Cursor) : Blocks :=
  match c.fence with
  | some buf => (c.blocks.push (preBlock buf)).flushBlocks cc
  | none => c.blocks.flushBlocks cc

def nbsp : List Char := "&nbsp;".toList

variable (stripLeakage : List Char → List Char)

def renderChatMarkdown (text : List Char) (allowTables : Bool) : List Char :=
  let lines := splitChar '\n' (htmlEscape (stripLeakage text))
  let joined := ((renderLines cc allowTables ⟨lines, none, {}⟩).finish cc).out.flatten
  if joined = [] then nbsp else joined

def bubbleTag (error : Bool) : List Char :=
  "<div class=\"".toList ++ "chat-bubble chat-bubble-assistant".toList ++
    (if error then " chat-bubble-error".toList else []) ++ "\">".toList

def renderAssistantBubble (text : List Char) (error allowTables : Bool) : List Char :=
  bubbleTag error ++ (renderChatMarkdown cc stripLeakage text allowTables).filter (· ≠ '\n') ++ closeTag "div".toList

end

end BssCli.PortalUi
