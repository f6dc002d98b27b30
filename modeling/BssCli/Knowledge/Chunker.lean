import BssCli.Lib.Regex
import BssCli.Lib.Text

/-!
# Chunks of a document

`chunk_markdown`. A heading of a level that the file is split at ends the chunk before it. What is lost at the end of a chunk is white
space.
-/

open Regex Text

namespace BssCli.Knowledge

/-! ## The expressions -/

/-- What Unicode says of case and of `\w`. -/
structure Unicode where
  toLowercase : List Char → List Char
  isWord : Char → Bool

/-- `[^\w\- ]+` -/
def anchorStrip (lang : Unicode) : Pattern := ⟨plus fun c => !(lang.isWord c || c = '-' || c = ' '), Nat.one_pos⟩

/-- `\s+` -/
def wsRun : Pattern := ⟨plus isWhitespace, Nat.one_pos⟩

/-- `\A---\s*\n(.*?\n)?---\s*\n`, where the dot is any character. -/
def frontmatter : Regex :=
  let fence := [char '-', char '-', char '-', many true isWhitespace, char '\n']
  cat (look (fun prev _ => prev.isNone) :: fence ++ [opt (seq (many false fun _ => true) (char '\n'))] ++ fence)

/-- `p{0,n}` -/
def upTo : ℕ → (Char → Bool) → Regex
  | 0, _ => empty
  | n + 1, p => opt (seq (set p) (upTo n p))

/-- `#{1,6}`, `\s+`, `.+?` and `\s*$` -/
def hashes : Regex := seq (char '#') (upTo 5 fun c => c = '#')

def gap : Regex := plus isWhitespace

def words : Regex := seq (set fun c => c ≠ '\n') (many false fun c => c ≠ '\n')

def lineEnd : Regex := seq (many true isWhitespace) (look fun _ next => next.isNone)

/-- The level and the text of a heading, as the first match has them. -/
def captures (line : List Char) : Option (ℕ × List Char) :=
  ((hashes.ends [] line).flatMap fun n =>
    (gap.ends (line.take n).reverse (line.drop n)).flatMap fun m =>
      (words.ends (line.take (n + m)).reverse (line.drop (n + m))).flatMap fun k =>
        (lineEnd.ends (line.take (n + m + k)).reverse (line.drop (n + m + k))).map fun _ =>
          (n, (line.drop (n + m)).take k)).head?

/-! ## Anchors -/

def trimMatches (c : Char) (cs : List Char) : List Char := (cs.dropWhile fun x => x = c).rdropWhile fun x => x = c

def toAnchor (lang : Unicode) (headingText : List Char) : List Char :=
  let s := lang.toLowercase (trim headingText)
  let s := (anchorStrip lang).replaceAll id [] s
  trimMatches '-' (wsRun.replaceAll id ['-'] s)

/-- The expression matches at the start of the text, or not at all. -/
def stripFrontmatter (text : List Char) : List Char :=
  match (frontmatter.ends [] text).head? with
  | some n => text.drop n
  | none => text

def headingChunkLevels (sourcePath : List Char) : List ℕ :=
  if sourcePath = "docs/HANDBOOK.md".toList ∨ sourcePath = "ARCHITECTURE.md".toList then [2, 3] else [2]

def splitlinesKeepends : List Char → List (List Char)
  | [] => []
  | c :: cs =>
    if c = '\n' then [c] :: splitlinesKeepends cs
    else
      match splitlinesKeepends cs with
      | [] => [[c]]
      | l :: ls => (c :: l) :: ls

/-! ## The chunks -/

structure Chunk where
  sourcePath : List Char
  anchor : List Char
  headingPath : List Char
  content : List Char
  deriving DecidableEq

/-- The loop's variables. The stack has the headings by level. -/
structure Scan where
  chunks : List Chunk
  currentLines : List (List Char)
  current : Option (ℕ × List Char)
  headingStack : List (ℕ × List Char)

def trimEnd (cs : List Char) : List Char := cs.rdropWhile isWhitespace

def place (lang : Unicode) (sourcePath : List Char) (stack : List (ℕ × List Char)) :
    Option (ℕ × List Char) → List Char × List Char
  | none => (toAnchor lang (sourcePath.map fun c => if c = '/' then '-' else c), sourcePath)
  | some (level, heading) =>
    (toAnchor lang heading,
      " → ".toList.intercalate ((stack.filter fun h => h.1 < level).map Prod.snd ++ [heading]))

/-- Nothing is flushed of white space alone. -/
def Scan.flush (lang : Unicode) (sourcePath : List Char) (s : Scan) : List Chunk :=
  let body := trimEnd s.currentLines.flatten
  if body = [] then s.chunks
  else
    let (anchor, headingPath) := place lang sourcePath s.headingStack s.current
    s.chunks ++ [⟨sourcePath, anchor, headingPath, body⟩]

/-- The stack takes the heading before the chunk above it is flushed. -/
def Scan.feed (lang : Unicode) (sourcePath : List Char) (s : Scan) (line : List Char) : Scan :=
  match captures line with
  | some (level, text) =>
    let stack := (s.headingStack.filter fun h => h.1 < level) ++ [(level, text)]
    let s : Scan := { s with headingStack := stack }
    if level ∈ headingChunkLevels sourcePath then
      ⟨s.flush lang sourcePath, [line], some (level, text), s.headingStack⟩
    else { s with currentLines := s.currentLines ++ [line] }
  | none => { s with currentLines := s.currentLines ++ [line] }

def chunkMarkdown (lang : Unicode) (sourcePath text : List Char) : List Chunk :=
  ((splitlinesKeepends (stripFrontmatter text)).foldl (Scan.feed lang sourcePath) ⟨[], [], none, []⟩).flush lang sourcePath

/-! ## What the chunks hold -/

/-- A text is the contents in order, with white space before and behind them. -/
inductive Joined : List (List Char) → List Char → Prop
  | empty : Joined [] []
  | space {contents text w} : Joined contents text → (∀ c ∈ w, isWhitespace c = true) → Joined contents (text ++ w)
  | chunk {contents text content} : Joined contents text → Joined (contents ++ [content]) (text ++ content)

theorem splitlinesKeepends_flatten (cs : List Char) : (splitlinesKeepends cs).flatten = cs := by
  induction cs with
  | nil => rfl
  | cons c cs ih =>
    unfold splitlinesKeepends
    split
    · rw [List.flatten_cons, ih]
      rfl
    · split
      · rename_i hnil
        rw [hnil] at ih
        rw [← ih]
        rfl
      · rename_i l ls hcons
        rw [hcons] at ih
        rw [← ih]
        rfl

theorem trimEnd_append (cs : List Char) : ∃ w, cs = trimEnd cs ++ w ∧ ∀ c ∈ w, isWhitespace c = true :=
  ⟨cs.rtakeWhile isWhitespace, (List.rdropWhile_append_rtakeWhile ..).symm, fun _ hc => List.mem_rtakeWhile_imp hc⟩

variable {lang : Unicode} {sourcePath : List Char}

theorem Scan.joined_flush {s : Scan} {text : List Char} (h : Joined (s.chunks.map Chunk.content) text) :
    Joined ((s.flush lang sourcePath).map Chunk.content) (text ++ s.currentLines.flatten) := by
  obtain ⟨w, hw, hspace⟩ := trimEnd_append s.currentLines.flatten
  unfold Scan.flush
  dsimp only
  split
  · rename_i hempty
    rw [hempty, List.nil_append] at hw
    rw [hw]
    exact h.space hspace
  · rw [List.map_append, List.map_singleton]
    conv => arg 2; rw [hw, ← List.append_assoc]
    exact h.chunk.space hspace

/-- The chunks and the lines that wait are what was read. -/
def Scan.Reads (s : Scan) (read : List Char) : Prop :=
  ∃ text, Joined (s.chunks.map Chunk.content) text ∧ text ++ s.currentLines.flatten = read

theorem Scan.reads_line {s s' : Scan} {read line : List Char} (h : s.Reads read) (hchunks : s'.chunks = s.chunks)
    (hlines : s'.currentLines = s.currentLines ++ [line]) : s'.Reads (read ++ line) := by
  obtain ⟨text, hjoined, rfl⟩ := h
  refine ⟨text, hchunks ▸ hjoined, ?_⟩
  rw [hlines, List.flatten_append, List.append_assoc]
  simp

theorem Scan.reads_feed {s : Scan} {read : List Char} (h : s.Reads read) (line : List Char) :
    (s.feed lang sourcePath line).Reads (read ++ line) := by
  unfold Scan.feed
  split
  · rename_i level heading _
    dsimp only
    split
    · obtain ⟨text, hjoined, rfl⟩ := h
      exact ⟨_, Scan.joined_flush (s := { s with headingStack := _ }) hjoined, by simp⟩
    · exact Scan.reads_line h rfl rfl
  · exact Scan.reads_line h rfl rfl

theorem Scan.reads_foldl {s : Scan} {read : List Char} (h : s.Reads read) (lines : List (List Char)) :
    (lines.foldl (Scan.feed lang sourcePath) s).Reads (read ++ lines.flatten) := by
  induction lines generalizing s read with
  | nil => simpa using h
  | cons line lines ih =>
    rw [List.flatten_cons, ← List.append_assoc]
    exact ih (Scan.reads_feed h line)

/-- The chunks are the text behind the frontmatter. -/
theorem chunkMarkdown_joined (lang : Unicode) (sourcePath text : List Char) :
    Joined ((chunkMarkdown lang sourcePath text).map Chunk.content) (stripFrontmatter text) := by
  have hstart : (⟨[], [], none, []⟩ : Scan).Reads [] := ⟨[], .empty, rfl⟩
  have hend : ((splitlinesKeepends (stripFrontmatter text)).foldl (Scan.feed lang sourcePath) ⟨[], [], none, []⟩).Reads
      ([] ++ (splitlinesKeepends (stripFrontmatter text)).flatten) := Scan.reads_foldl hstart _
  obtain ⟨read, hjoined, hread⟩ := hend
  rw [List.nil_append, splitlinesKeepends_flatten] at hread
  rw [← hread]
  exact Scan.joined_flush hjoined

theorem chunk_sourcePath (lang : Unicode) (sourcePath text : List Char) :
    ∀ c ∈ chunkMarkdown lang sourcePath text, c.sourcePath = sourcePath := by
  have hflush : ∀ s : Scan, (∀ c ∈ s.chunks, c.sourcePath = sourcePath) →
      ∀ c ∈ s.flush lang sourcePath, c.sourcePath = sourcePath := by
    intro s hs c hc
    unfold Scan.flush at hc
    dsimp only at hc
    split at hc
    · exact hs c hc
    · rcases List.mem_append.mp hc with hc | hc
      · exact hs c hc
      · rw [List.mem_singleton.mp hc]
  have hfeed : ∀ (lines : List (List Char)) (s : Scan), (∀ c ∈ s.chunks, c.sourcePath = sourcePath) →
      ∀ c ∈ (lines.foldl (Scan.feed lang sourcePath) s).chunks, c.sourcePath = sourcePath := by
    intro lines
    induction lines with
    | nil => exact fun s hs => hs
    | cons line lines ih =>
      intro s hs
      refine ih _ ?_
      unfold Scan.feed
      split
      · dsimp only
        split
        · exact hflush _ hs
        · exact hs
      · exact hs
  exact hflush _ (hfeed _ _ fun c hc => absurd hc List.not_mem_nil)

end BssCli.Knowledge
