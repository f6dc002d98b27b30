import BssCli.Lib.Json
import BssCli.Lib.Lines

/-!
# The messages of the chat model

`chat_model.rs`, and the reader of a stored conversation in `agent.rs`.
-/

open Text

namespace BssCli.Agent

inductive Role
  | system
  | user
  | assistant
  | tool
  deriving DecidableEq, Repr

structure ToolCall where
  id : String
  name : String
  args : Json

structure ChatMessage where
  role : Role
  content : List Char
  toolCalls : List ToolCall
  toolCallId : Option String
  name : Option String

namespace ChatMessage

def plain (role : Role) (content : List Char) : ChatMessage := ⟨role, content, [], none, none⟩

def system (content : List Char) : ChatMessage := plain .system content

def user (content : List Char) : ChatMessage := plain .user content

def assistant (content : List Char) : ChatMessage := plain .assistant content

def tool (name callId : String) (content : List Char) : ChatMessage := ⟨.tool, content, [], some callId, some name⟩

end ChatMessage

/-! ## `messages_from_transcript` -/

def transcriptMaxChars : Nat := 32000

/-- `role_header`: the role of a header line, without the colon. Blanks at its end do not count. -/
def roleHeader (line : List Char) : Option (List Char) :=
  let l := trimEnd line
  if l.getLast? = some ':' then
    let token := l.dropLast
    if token = "user".toList ∨ token = "assistant".toList ∨ token = "tool".toList then
      some token
    else if "tool[".toList <+: token ∧ token.getLast? = some ']' then
      some token
    else
      none
  else
    none

/-- The name in `tool[NAME]`, empty without one. -/
def toolNameOf (role : List Char) : List Char :=
  if "tool[".toList <+: role then
    let s := role.drop 5
    if s.getLast? = some ']' then s.dropLast else []
  else
    []

/-- What a prior tool result is told as. -/
def toolNote (toolName text : List Char) : List Char :=
  let label := if toolName = [] then "prior tool result".toList else "prior tool result for ".toList ++ toolName
  "(".toList ++ label ++ "):\n".toList ++ text

/-- The message of one record. Unknown roles give none. -/
def recordMessage (role : List Char) (body : List (List Char)) : Option ChatMessage :=
  let text := trim (joinLines body)
  if role = "user".toList then
    some (.user text)
  else if role = "assistant".toList then
    some (.assistant text)
  else if "tool".toList <+: role then
    some (.system (toolNote (toolNameOf role) text))
  else
    none

structure Reading where
  head : Option (List Char) := none
  body : List (List Char) := []
  out : List ChatMessage := []

namespace Reading

def flush (st : Reading) : Reading :=
  match st.head with
  | none => st
  | some role => ⟨none, [], st.out ++ (recordMessage role st.body).toList⟩

def line (st : Reading) (l : List Char) : Reading :=
  match roleHeader l with
  | some role => { st.flush with head := some role }
  | none => if st.head.isSome then { st with body := st.body ++ [l] } else st

end Reading

def elisionNote : List Char :=
  "[…earlier turns elided to keep prompt within 32000 chars; ask the operator to /reset if continuity matters…]".toList

/-- What is kept of a long transcript is its end, behind a note. -/
def keptTranscript (transcript : List Char) : List Char :=
  if transcript.length > transcriptMaxChars then
    elisionNote ++ "\n\n".toList ++ transcript.drop (transcript.length - transcriptMaxChars)
  else
    transcript

def messagesFromTranscript (transcript : List Char) : List ChatMessage :=
  if trim transcript = [] then
    []
  else
    ((lines (keptTranscript transcript)).foldl Reading.line {}).flush.out

/-! ## The reader reads sections -/

def messagesOf (ls : List (List Char)) : List ChatMessage :=
  (sections roleHeader ls).filterMap fun r => recordMessage r.1 r.2

theorem messagesOf_header {l role : List Char} (h : roleHeader l = some role) (ls : List (List Char)) :
    messagesOf (l :: ls) =
      (recordMessage role (ls.takeWhile fun x => (roleHeader x).isNone)).toList ++ messagesOf ls := by
  rw [messagesOf, sections, h, List.filterMap_cons]
  cases recordMessage role (ls.takeWhile fun x => (roleHeader x).isNone) <;> rfl

theorem messagesOf_body {l : List Char} (h : roleHeader l = none) (ls : List (List Char)) :
    messagesOf (l :: ls) = messagesOf ls := by
  rw [messagesOf, sections, h]
  rfl

namespace Reading

/-- The record that is open, read on with the lines `ls`. -/
def openRecord (st : Reading) (ls : List (List Char)) : List ChatMessage :=
  match st.head with
  | none => []
  | some role => (recordMessage role (st.body ++ ls)).toList

theorem flush_out {st : Reading} : st.flush.out = st.out ++ st.openRecord [] := by
  unfold flush openRecord
  cases st.head with
  | none => exact (List.append_nil _).symm
  | some role => rw [List.append_nil]

theorem flush_body {st : Reading} (h : st.head = none → st.body = []) : st.flush.body = [] := by
  unfold flush
  cases hhead : st.head with
  | none => exact h hhead
  | some role => rfl

/-- From any point on, what comes out is the open record and then the sections. -/
theorem foldl_out (ls : List (List Char)) (st : Reading) (h : st.head = none → st.body = []) :
    (ls.foldl line st).flush.out =
      st.out ++ st.openRecord (ls.takeWhile fun l => (roleHeader l).isNone) ++ messagesOf ls := by
  induction ls generalizing st with
  | nil => rw [List.foldl_nil, flush_out, List.takeWhile_nil, messagesOf, sections, List.filterMap_nil, List.append_nil]
  | cons l ls ih =>
    rw [List.foldl_cons, List.takeWhile_cons]
    cases hl : roleHeader l with
    | some role =>
      have hline : st.line l = { st.flush with head := some role } := by rw [line, hl]
      rw [hline, ih _ fun hn => absurd hn (by simp), messagesOf_header hl, flush_out]
      simp [openRecord, flush_body h]
    | none =>
      rw [messagesOf_body hl]
      cases hhead : st.head with
      | none =>
        have hline : st.line l = st := by simp [line, hl, hhead]
        rw [hline, ih st h]
        simp [openRecord, hhead]
      | some role =>
        have hline : st.line l = { st with body := st.body ++ [l] } := by simp [line, hl, hhead]
        rw [hline, ih ⟨st.head, st.body ++ [l], st.out⟩ fun hn => absurd (hhead.symm.trans hn) (by simp)]
        simp [openRecord, hhead]

end Reading

/-! ## Role headers -/

theorem toolNameOf_bracket {name : List Char} : toolNameOf ("tool[".toList ++ name ++ [']']) = name := by
  have hdrop : ("tool[".toList ++ name ++ [']']).drop 5 = name ++ [']'] := rfl
  rw [toolNameOf, if_pos (by rw [List.append_assoc]; exact List.prefix_append ..), hdrop]
  simp

/-- The role lines are `user:`, `assistant:`, `tool:` and `tool[NAME]:`, with blanks behind them or not. -/
theorem roleHeader_eq {line role : List Char} (h : roleHeader line = some role) :
    (∃ blank, line = role ++ ':' :: blank ∧ ∀ c ∈ blank, isWhitespace c = true) ∧
      (role = "user".toList ∨ role = "assistant".toList ∨ role = "tool".toList ∨
        ∃ name, role = "tool[".toList ++ name ++ [']']) := by
  have hline : trimEnd line ++ line.rtakeWhile isWhitespace = line := List.rdropWhile_append_rtakeWhile ..
  unfold roleHeader at h
  dsimp only at h
  split at h
  · rename_i hcolon
    have hend := List.dropLast_append_getLast? _ hcolon
    have hblank : ∃ blank, line = (trimEnd line).dropLast ++ ':' :: blank ∧ ∀ c ∈ blank, isWhitespace c = true := by
      refine ⟨line.rtakeWhile isWhitespace, ?_, fun c hc => List.mem_rtakeWhile_imp hc⟩
      rw [← List.singleton_append, ← List.append_assoc, hend, hline]
    split at h
    · rename_i hrole
      obtain rfl := Option.some.inj h
      refine ⟨hblank, ?_⟩
      rcases hrole with h | h | h
      · exact .inl h
      · exact .inr (.inl h)
      · exact .inr (.inr (.inl h))
    · split at h
      · rename_i hrole
        obtain rfl := Option.some.inj h
        refine ⟨hblank, .inr (.inr (.inr ?_))⟩
        obtain ⟨⟨rest, hrest⟩, hlast⟩ := hrole
        rw [← hrest] at hlast ⊢
        have hne : rest ≠ [] := by
          rintro rfl
          exact absurd hlast (by decide)
        rw [List.getLast?_append_of_ne_nil _ hne] at hlast
        exact ⟨rest.dropLast, by rw [List.append_assoc, List.dropLast_append_getLast? _ hlast]⟩
      · cases h
  · cases h

theorem ink_header {line role : List Char} (h : roleHeader line = some role) : ink line = ink role + 1 := by
  obtain ⟨⟨blank, hline, hblank⟩, -⟩ := roleHeader_eq h
  have hzero : ink blank = 0 := by
    rw [ink, List.countP_eq_zero]
    intro c hc
    simp [hblank c hc]
  rw [hline, ink_append, ink_cons, hzero]
  rfl

theorem recordMessage_bracket (name : List Char) (body : List (List Char)) :
    recordMessage ("tool[".toList ++ name ++ [']']) body = some (.system (toolNote name (trim (joinLines body)))) := by
  unfold recordMessage
  rw [if_neg (by simp), if_neg (by simp), if_pos (by simp), toolNameOf_bracket]

theorem five_le_ink_header {line role : List Char} (h : roleHeader line = some role) : 5 ≤ ink line := by
  rw [ink_header h]
  rcases (roleHeader_eq h).2 with rfl | rfl | rfl | ⟨name, rfl⟩
  · decide
  · decide
  · decide
  · have hbracket : ink "tool[".toList = 5 := rfl
    rw [ink_append, ink_append, hbracket]
    omega

theorem recordMessage_eq {line role : List Char} (h : roleHeader line = some role) (body : List (List Char)) :
    (role = "user".toList ∧ recordMessage role body = some (.user (trim (joinLines body)))) ∨
      (role = "assistant".toList ∧ recordMessage role body = some (.assistant (trim (joinLines body)))) ∨
      ∃ name, (role = "tool".toList ∧ name = [] ∨ role = "tool[".toList ++ name ++ [']']) ∧
        recordMessage role body = some (.system (toolNote name (trim (joinLines body)))) := by
  rcases (roleHeader_eq h).2 with rfl | rfl | rfl | ⟨name, rfl⟩
  · exact .inl ⟨rfl, rfl⟩
  · exact .inr (.inl ⟨rfl, rfl⟩)
  · exact .inr (.inr ⟨[], .inl ⟨rfl, rfl⟩, rfl⟩)
  · exact .inr (.inr ⟨name, .inr rfl, recordMessage_bracket name body⟩)

theorem exists_recordMessage {line role : List Char} (h : roleHeader line = some role) (body : List (List Char)) :
    ∃ m, recordMessage role body = some m := by
  rcases recordMessage_eq h body with ⟨-, h⟩ | ⟨-, h⟩ | ⟨name, -, h⟩
  all_goals exact ⟨_, h⟩

theorem messagesOf_append {l role : List Char} (h : roleHeader l = some role) (xs ls : List (List Char)) :
    messagesOf (xs ++ l :: ls) = messagesOf xs ++ messagesOf (l :: ls) := by
  rw [messagesOf, sections_append h, List.filterMap_append]
  rfl

theorem messagesOf_last {l role : List Char} (h : roleHeader l = some role) {ls : List (List Char)}
    (hls : ∀ m ∈ ls, roleHeader m = none) : messagesOf (l :: ls) = (recordMessage role ls).toList := by
  rw [messagesOf, sections_last h hls, List.filterMap_cons]
  cases recordMessage role ls <;> rfl

theorem messagesOf_no_header {ls : List (List Char)} (h : ∀ l ∈ ls, roleHeader l = none) : messagesOf ls = [] := by
  rw [messagesOf, sections_eq_nil h]
  rfl

theorem exists_last_record {ls : List (List Char)} {m : ChatMessage} (h : [m] <:+ messagesOf ls) :
    ∃ xs l role ys, ls = xs ++ l :: ys ∧ roleHeader l = some role ∧ (∀ y ∈ ys, roleHeader y = none) ∧
      recordMessage role ys = some m := by
  rcases exists_last_header roleHeader ls with hnone | ⟨xs, l, role, ys, rfl, hl, hys⟩
  · rw [messagesOf_no_header hnone] at h
    exact absurd (List.suffix_nil.mp h) (List.cons_ne_nil _ _)
  · obtain ⟨m', hm'⟩ := exists_recordMessage hl ys
    rw [messagesOf_append hl, messagesOf_last hl hys, hm'] at h
    obtain ⟨t, ht⟩ := h
    obtain rfl := (List.cons.inj (List.append_inj' ht rfl).2).1
    exact ⟨xs, l, role, ys, rfl, hl, hys, hm'⟩

theorem messagesOf_eq_nil_iff {ls : List (List Char)} : messagesOf ls = [] ↔ ∀ l ∈ ls, roleHeader l = none := by
  refine ⟨fun hnil => ?_, messagesOf_no_header⟩
  rcases exists_last_header roleHeader ls with hnone | ⟨xs, l, role, ys, rfl, hl, hys⟩
  · exact hnone
  · rw [messagesOf_append hl, messagesOf_last hl hys] at hnil
    obtain ⟨m, hm⟩ := exists_recordMessage hl ys
    rw [hm] at hnil
    exact absurd (List.append_eq_nil_iff.mp hnil).2 (List.cons_ne_nil _ _)

/-- A carriage return at the end of the last line makes no difference. -/
theorem messagesOf_last_cr (ls : List (List Char)) (l : List Char) :
    messagesOf (ls ++ [l ++ ['\r']]) = messagesOf (ls ++ [l]) := by
  have hrole : roleHeader (l ++ ['\r']) = roleHeader l := by
    unfold roleHeader
    rw [trimEnd_append_blank l rfl]
  cases hl : roleHeader l with
  | some role =>
    rw [messagesOf_append (hrole.trans hl), messagesOf_append hl, messagesOf_header (hrole.trans hl),
      messagesOf_header hl]
  | none =>
    rw [hl] at hrole
    rcases exists_last_header roleHeader ls with hnone | ⟨xs, h, role, ys, rfl, hh, hys⟩
    · rw [messagesOf_no_header (List.forall_mem_append.mpr ⟨hnone, List.forall_mem_singleton.mpr hrole⟩),
        messagesOf_no_header (List.forall_mem_append.mpr ⟨hnone, List.forall_mem_singleton.mpr hl⟩)]
    · have hbody : recordMessage role (ys ++ [l ++ ['\r']]) = recordMessage role (ys ++ [l]) := by
        unfold recordMessage
        rw [joinLines_concat_append, trim_append_blank _ rfl]
      rw [List.append_assoc, List.append_assoc, List.cons_append, List.cons_append, messagesOf_append hh,
        messagesOf_append hh,
        messagesOf_last hh (List.forall_mem_append.mpr ⟨hys, List.forall_mem_singleton.mpr hrole⟩),
        messagesOf_last hh (List.forall_mem_append.mpr ⟨hys, List.forall_mem_singleton.mpr hl⟩), hbody]

theorem messagesOf_last_empty (ls : List (List Char)) : messagesOf (ls ++ [[]]) = messagesOf ls := by
  rcases exists_last_header roleHeader ls with hnone | ⟨xs, h, role, ys, rfl, hh, hys⟩
  · rw [messagesOf_no_header hnone]
    exact messagesOf_no_header (List.forall_mem_append.mpr ⟨hnone, List.forall_mem_singleton.mpr rfl⟩)
  · have hbody : recordMessage role (ys ++ [[]]) = recordMessage role ys := by
      unfold recordMessage
      rcases eq_or_ne ys [] with rfl | hne
      · rfl
      · rw [joinLines_concat_nil hne, trim_append_blank _ rfl]
    rw [List.append_assoc, List.cons_append, messagesOf_append hh, messagesOf_append hh, messagesOf_last hh hys,
      messagesOf_last hh (List.forall_mem_append.mpr ⟨hys, List.forall_mem_singleton.mpr rfl⟩), hbody]

theorem messagesOf_lines_newline (cs : List Char) : messagesOf (lines (cs ++ ['\n'])) = messagesOf (lines cs) := by
  rcases lines_append_newline cs with h | h | ⟨ls, l, hcr, h⟩
  · rw [h, messagesOf_last_empty]
  · rw [h]
  · rw [h, hcr, messagesOf_last_cr]

theorem no_header_of_blank {cs : List Char} (h : ink cs = 0) : ∀ l ∈ lines cs, roleHeader l = none := by
  intro l hl
  cases hrole : roleHeader l with
  | none => rfl
  | some role =>
    have hink := ink_header hrole
    have hle := le_inkOf_of_mem hl
    rw [inkOf_lines, h] at hle
    omega

theorem lines_note (cs : List Char) : lines (elisionNote ++ "\n\n".toList ++ cs) = elisionNote :: [] :: lines cs := by
  have hnote : lines (elisionNote ++ "\n\n".toList) = [elisionNote, []] := by decide +kernel
  rw [lines_append (.inr ⟨elisionNote ++ ['\n'], by rw [List.append_assoc]; rfl⟩), hnote]
  rfl

theorem roleHeader_note : roleHeader elisionNote = none := by
  decide +kernel

/-- The reader is its loop on every text: a blank one has no record. -/
theorem messagesFromTranscript_eq (transcript : List Char) :
    messagesFromTranscript transcript = messagesOf (lines (keptTranscript transcript)) := by
  unfold messagesFromTranscript
  split
  · rename_i hblank
    have hink : ink transcript = 0 := by rw [← ink_trim, hblank, ink_nil]
    have hdrop : ∀ n, ink (transcript.drop n) = 0 := fun n =>
      Nat.eq_zero_of_le_zero (hink ▸ (List.drop_sublist n transcript).countP_le)
    symm
    unfold keptTranscript
    split
    · rw [lines_note, messagesOf_body roleHeader_note, messagesOf_body rfl]
      exact messagesOf_no_header (no_header_of_blank (hdrop _))
    · exact messagesOf_no_header (no_header_of_blank hink)
  · rw [Reading.foldl_out _ _ fun _ => rfl]
    rfl

/-- A prior turn's tool result comes back as a note, not as a tool's message. -/
theorem messagesFromTranscript_role {transcript : List Char} {m : ChatMessage}
    (h : m ∈ messagesFromTranscript transcript) : m.role ≠ .tool := by
  rw [messagesFromTranscript_eq, messagesOf] at h
  obtain ⟨r, -, hm⟩ := List.mem_filterMap.mp h
  unfold recordMessage at hm
  dsimp only at hm
  split at hm
  · obtain rfl := Option.some.inj hm
    exact Role.noConfusion
  · split at hm
    · obtain rfl := Option.some.inj hm
      exact Role.noConfusion
    · split at hm
      · obtain rfl := Option.some.inj hm
        exact Role.noConfusion
      · cases hm

end BssCli.Agent
