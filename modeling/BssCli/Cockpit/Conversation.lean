import BssCli.Lib.Lines

/-!
# The stored conversation

The rows of `cockpit.message`, in the order `created_at, id`, and the text that the model and the turn planner
are given of them.
-/

open Text

namespace BssCli.Cockpit

inductive RowRole
  | user
  | assistant
  | tool
  deriving DecidableEq, Repr

/-- A row of `cockpit.message`. `toolName` is what `tool_calls_json` names, empty without one. -/
structure Row where
  role : RowRole
  content : List Char
  toolName : List Char := []
  deriving DecidableEq

/-- What the cockpit itself says in an assistant's bubble begins with one of these. -/
def assistantChromePrefixes : List (List Char) :=
  ["Sorry — something went wrong".toList,
   "(The model called ".toList,
   "(no reply)".toList,
   "I don't have a citation for that".toList]

def isCockpitChrome (content : List Char) : Bool :=
  trim content = [] || assistantChromePrefixes.any fun p => p.isPrefixOf content

/-- A row that the model never said. -/
def Row.chrome (r : Row) : Bool := r.role = .assistant && isCockpitChrome r.content

def Row.head (r : Row) : List Char :=
  match r.role with
  | .user => "user".toList
  | .assistant => "assistant".toList
  | .tool => if r.toolName = [] then "tool".toList else "tool[".toList ++ r.toolName ++ [']']

def Row.block (r : Row) : List Char := r.head ++ ":\n".toList ++ r.content

def shownRows (rows : List Row) : List Row := rows.filter fun r => !r.chrome

/-- Blocks, a blank line between two of them. -/
def renderRows (rows : List Row) : List Char := "\n\n".toList.intercalate (rows.map Row.block)

def transcriptText (rows : List Row) : List Char := renderRows (shownRows rows)

@[simp] theorem renderRows_nil : renderRows [] = [] := rfl

theorem Row.head_newline {r : Row} (h : r.role = .tool → '\n' ∉ r.toolName) : '\n' ∉ r.head ++ [':'] := by
  unfold Row.head
  cases hr : r.role with
  | user => exact of_decide_eq_true rfl
  | assistant => exact of_decide_eq_true rfl
  | tool =>
    have hname := h hr
    dsimp only
    split
    · decide
    · simp [hname]

theorem Row.exists_head_cons (r : Row) : ∃ c cs, r.head = c :: cs ∧ isWhitespace c = false := by
  unfold Row.head
  cases r.role with
  | user => exact ⟨_, _, rfl, rfl⟩
  | assistant => exact ⟨_, _, rfl, rfl⟩
  | tool =>
    dsimp only
    split
    · exact ⟨_, _, rfl, rfl⟩
    · exact ⟨_, _, rfl, rfl⟩

theorem Row.head_getLast (r : Row) : r.head.getLast? ≠ some ':' := by
  unfold Row.head
  cases r.role with
  | user => exact of_decide_eq_true rfl
  | assistant => exact of_decide_eq_true rfl
  | tool =>
    dsimp only
    split
    · decide
    · rw [List.getLast?_concat]
      decide

/-- Every block with the blank line that would follow it. -/
def rowsText (rows : List Row) : List Char := rows.flatMap fun r => r.block ++ "\n\n".toList

theorem rowsText_append (xs ys : List Row) : rowsText (xs ++ ys) = rowsText xs ++ rowsText ys :=
  List.flatMap_append ..

theorem rowsText_singleton (r : Row) : rowsText [r] = r.block ++ "\n\n".toList := List.flatMap_singleton ..

theorem rowsText_eq {rows : List Row} (h : rows ≠ []) : rowsText rows = renderRows rows ++ "\n\n".toList := by
  induction rows with
  | nil => exact absurd rfl h
  | cons r rows ih =>
    cases rows with
    | nil => simp [rowsText, renderRows, List.intercalate]
    | cons s rows =>
      have hrest := ih (List.cons_ne_nil s rows)
      have hrender : renderRows (r :: s :: rows) = r.block ++ "\n\n".toList ++ renderRows (s :: rows) := by
        simp [renderRows, List.intercalate]
      rw [hrender, List.append_assoc, ← hrest]
      rfl

theorem whole_rowsText (rows : List Row) : Whole (rowsText rows) := by
  rcases eq_or_ne rows [] with rfl | h
  · exact .inl rfl
  · exact .inr ⟨renderRows rows ++ ['\n'], by rw [rowsText_eq h, List.append_assoc]; rfl⟩

end BssCli.Cockpit
