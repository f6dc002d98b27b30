import BssCli.Lib.EventStream
import BssCli.PortalUi.Document
import BssCli.PortalUi.Escaped

/-!
# The frames of the chat

`format_frame` and what is sent in it. A frame has one `data:` line, so it is one event when the HTML is one line. The bubble
takes the line feeds out, the tool row those of its body, the pill none. A carriage return stays where it is.
-/

open Text EventStream

namespace BssCli.PortalUi

/-! ## The frame -/

def formatFrame (eventName htmlLine : List Char) : List UInt8 :=
  Text.utf8 ("event: ".toList ++ eventName ++ "\ndata: ".toList ++ htmlLine ++ "\n\n".toList)

theorem oneLine_of_all {s : List Char} (h : s.all (fun c => !isTerminator c) = true) : OneLine s :=
  fun c hc => by simpa using List.all_eq_true.mp h c hc

/-- `message` and `status` are such names. -/
abbrev EventName := {name : List Char // name ≠ [] ∧ OneLine name}

def messageName : EventName := ⟨"message".toList, by decide, oneLine_of_all rfl⟩

/-- Between whatever was sent before and whatever comes, the frame is the one event. -/
def OneEvent (name : EventName) (html : List Char) : Prop :=
  ∀ (r : Reader) (s : List Char), r.Idle →
    r.feedBytes (formatFrame name html ++ Text.utf8 s) = (r.push ⟨name, html⟩).feedBytes (Text.utf8 s)

theorem oneEvent_iff (name : EventName) (html : List Char) : OneEvent name html ↔ OneLine html := by
  have hnamed : (⟨name, html⟩ : EventStream.Event).Named := ⟨name.property.1, name.property.2⟩
  have hframe : formatFrame name html = Text.utf8 (frame ⟨name, html⟩) := rfl
  constructor
  · intro h
    have hone := h {} [] ⟨rfl, rfl⟩
    rw [hframe, ← Text.utf8_append, List.append_nil, Reader.feedBytes_utf8, Reader.feedBytes_utf8] at hone
    exact oneLine_of_feed_frame hnamed (Option.some.inj hone)
  · intro hline r s hr
    rw [hframe, ← Text.utf8_append, Reader.feedBytes_utf8, Reader.feedBytes_utf8, feed_frame hnamed hline hr]

/-! ## The pill and the tool row -/

def renderToolPill (toolName : List Char) : List Char :=
  "<div class=\"chat-tool-pill\"><span class=\"chat-tool-icon\">≈</span>".toList ++
    "<span class=\"chat-tool-name\">".toList ++ htmlEscape toolName ++ "</span></div>".toList

namespace ToolRow

def escapeOnce (c : Char) : List Char :=
  if c = '&' then "&amp;".toList
  else if c = '<' then "&lt;".toList
  else if c = '>' then "&gt;".toList
  else if c = '"' then "&quot;".toList
  else if c = '\'' then "&#x27;".toList
  else [c]

/-- `html_escape` of the tool row, in one pass. -/
def htmlEscape (s : List Char) : List Char := s.flatMap escapeOnce

end ToolRow

section
variable (renderToolResult : List Char → List Char → Option (List Char))

def looksLikeJson (body : List Char) : Bool :=
  match body.dropWhile isWhitespace with
  | '\x7b' :: _ => true
  | '[' :: _ => true
  | _ => false

/-- JSON is rendered again where the tool has a renderer. -/
def renderedBody (toolName body : List Char) : List Char :=
  if looksLikeJson body ∧ toolName ≠ [] then (renderToolResult toolName body).getD body else body

def renderToolRowAsPre (toolName body : List Char) : List Char :=
  let escaped := replaceChar '\n' "&#10;".toList (ToolRow.htmlEscape (renderedBody renderToolResult toolName body))
  let nameHtml := ToolRow.htmlEscape (if toolName = [] then "tool".toList else toolName)
  "<details class=\"tool-row\" open><summary class=\"tool-row-summary\"><span class=\"tool-row-icon\">≈</span>".toList ++
    "<span class=\"tool-row-name\">".toList ++ nameHtml ++ "</span></summary><pre class=\"tool-row-body\">".toList ++
    escaped ++ "</pre></details>".toList

end

/-! ## What is on one line -/

theorem escapeOnce_eq (c : Char) : ToolRow.escapeOnce c = escapeChar c := by
  unfold ToolRow.escapeOnce
  iterate 5
    split
    · subst c
      rfl
  unfold escapeChar htmlEscape
  rename_i hamp hlt hgt hquot hapos
  rw [replaceChar_other hamp, replaceChar_other hlt, replaceChar_other hgt, replaceChar_other hquot, replaceChar_other hapos]

/-- The escape in one pass is the other one. -/
theorem toolRow_htmlEscape_eq (s : List Char) : ToolRow.htmlEscape s = htmlEscape s := by
  rw [htmlEscape_eq]
  exact List.flatMap_congr fun c _ => escapeOnce_eq c

theorem isTerminator_cases {x : Char} (h : isTerminator x = true) : x = '\n' ∨ x = '\r' := by
  unfold isTerminator at h
  rwa [Bool.or_eq_true, decide_eq_true_iff, decide_eq_true_iff] at h

theorem oneLine_iff {s : List Char} : OneLine s ↔ '\n' ∉ s ∧ '\r' ∉ s := by
  constructor
  · exact fun h => ⟨fun hmem => absurd (h _ hmem) (by decide), fun hmem => absurd (h _ hmem) (by decide)⟩
  · rintro ⟨hfeed, hreturn⟩ c hc
    by_contra hterm
    rw [Bool.not_eq_false] at hterm
    rcases isTerminator_cases hterm with rfl | rfl
    · exact hfeed hc
    · exact hreturn hc

/-- An entity ends no line, so the escaped text ends one where the text does. -/
theorem mem_htmlEscape_iff {x : Char} (hx : isTerminator x = true) (s : List Char) : x ∈ htmlEscape s ↔ x ∈ s := by
  have hentities : entities.all (fun e => e.all fun c => !isTerminator c) = true := by decide
  rw [htmlEscape_eq, List.mem_flatMap]
  constructor
  · rintro ⟨c, hc, hmem⟩
    rcases escapeChar_cases c with hentity | ⟨heq, -⟩
    · have hbad := List.all_eq_true.mp (List.all_eq_true.mp hentities _ hentity) x hmem
      rw [hx] at hbad
      cases hbad
    · rw [heq, List.mem_singleton] at hmem
      exact hmem ▸ hc
  · intro hmem
    refine ⟨x, hmem, ?_⟩
    rw [← escapeOnce_eq]
    rcases isTerminator_cases hx with rfl | rfl <;> exact List.mem_cons_self

theorem oneLine_htmlEscape (s : List Char) : OneLine (htmlEscape s) ↔ OneLine s := by
  rw [oneLine_iff, oneLine_iff, mem_htmlEscape_iff (by decide), mem_htmlEscape_iff (by decide)]

theorem oneLine_append_iff {s t : List Char} : OneLine (s ++ t) ↔ OneLine s ∧ OneLine t := List.forall_mem_append

/-- The pill is one line when the name of the tool is. -/
theorem oneLine_renderToolPill (toolName : List Char) : OneLine (renderToolPill toolName) ↔ OneLine toolName := by
  have hopen : OneLine "<div class=\"chat-tool-pill\"><span class=\"chat-tool-icon\">≈</span>".toList := oneLine_of_all rfl
  have hname : OneLine "<span class=\"chat-tool-name\">".toList := oneLine_of_all rfl
  have hclose : OneLine "</span></div>".toList := oneLine_of_all rfl
  unfold renderToolPill
  simp only [oneLine_append_iff, oneLine_htmlEscape, hopen, hname, hclose, true_and, and_true]

theorem oneLine_replace_newline (s : List Char) : OneLine (replaceChar '\n' "&#10;".toList s) ↔ '\r' ∉ s := by
  have hentity : OneLine "&#10;".toList := oneLine_of_all rfl
  induction s with
  | nil => exact iff_of_true (fun _ hc => by cases hc) List.not_mem_nil
  | cons c s ih =>
    have hcons : replaceChar '\n' "&#10;".toList (c :: s) =
        (if c = '\n' then "&#10;".toList else [c]) ++ replaceChar '\n' "&#10;".toList s := List.flatMap_cons
    rw [hcons, oneLine_append_iff, List.mem_cons, not_or]
    refine (and_congr_right fun _ => ih).trans ?_
    refine and_congr_left fun _ => ?_
    split
    · rename_i hc
      subst hc
      exact iff_of_true hentity (by decide)
    · rename_i hc
      rw [oneLine_iff, List.mem_singleton, List.mem_singleton]
      exact and_iff_right fun heq => hc heq.symm

theorem oneLine_renderToolRowAsPre (renderToolResult : List Char → List Char → Option (List Char)) (toolName body : List Char) :
    OneLine (renderToolRowAsPre renderToolResult toolName body) ↔
      OneLine toolName ∧ '\r' ∉ renderedBody renderToolResult toolName body := by
  have hopen : OneLine
      "<details class=\"tool-row\" open><summary class=\"tool-row-summary\"><span class=\"tool-row-icon\">≈</span>".toList := oneLine_of_all rfl
  have hname : OneLine "<span class=\"tool-row-name\">".toList := oneLine_of_all rfl
  have hmiddle : OneLine "</span></summary><pre class=\"tool-row-body\">".toList := oneLine_of_all rfl
  have hclose : OneLine "</pre></details>".toList := oneLine_of_all rfl
  have hshown : OneLine (if toolName = [] then "tool".toList else toolName) ↔ OneLine toolName := by
    split
    · rename_i hnil
      subst hnil
      exact iff_of_true (oneLine_of_all rfl) fun _ hc => by cases hc
    · exact Iff.rfl
  unfold renderToolRowAsPre
  simp only [oneLine_append_iff, toolRow_htmlEscape_eq, oneLine_htmlEscape, oneLine_replace_newline,
    mem_htmlEscape_iff (x := '\r') (by decide), hopen, hname, hmiddle, hclose, hshown, true_and, and_true]

/-! ## The bubble -/

/-- A carriage return is somewhere in these. -/
def Carries (vs : List (List Char)) : Prop := ∃ v ∈ vs, '\r' ∈ v

theorem carries_append {vs ws : List (List Char)} : Carries (vs ++ ws) ↔ Carries vs ∨ Carries ws := by
  simp [Carries, or_and_right, exists_or]

theorem carries_nil : ¬ Carries [] := by
  rintro ⟨v, hv, -⟩
  cases hv

theorem carries_singleton {v : List Char} : Carries [v] ↔ '\r' ∈ v := by
  simp [Carries]

theorem carries_cons {v : List Char} {vs : List (List Char)} : Carries (v :: vs) ↔ '\r' ∈ v ∨ Carries vs := by
  simp [Carries]

theorem mem_flatten_iff {vs : List (List Char)} : '\r' ∈ vs.flatten ↔ Carries vs := by
  simp [Carries, List.mem_flatten]

theorem mem_intercalate_iff {sep : List Char} (hsep : '\r' ∉ sep) (vs : List (List Char)) :
    '\r' ∈ sep.intercalate vs ↔ Carries vs := by
  induction vs with
  | nil => exact iff_of_false List.not_mem_nil carries_nil
  | cons v vs ih =>
    cases vs with
    | nil =>
      rw [List.intercalate_singleton, carries_singleton]
    | cons w vs =>
      rw [List.intercalate_cons_cons, List.mem_append, List.mem_append, ih, carries_cons (v := v)]
      tauto

theorem mem_element_iff {name : String} (hname : '\r' ∉ name.toList) (body : List Char) :
    '\r' ∈ element name body ↔ '\r' ∈ body := by
  unfold element openTag closeTag
  simp [hname]

theorem mem_wrapAll_iff {sp : Span} {name : String} (hmark : '\r' ∉ sp.mark) (hname : '\r' ∉ name.toList)
    (prev : Option Char) (s : List Char) : '\r' ∈ wrapAll sp name prev s ↔ '\r' ∈ s := by
  fun_induction wrapAll sp name prev s with
  | case1 => exact Iff.rfl
  | case2 prev c cs inner rest hfind ih =>
    rw [(Span.find_eq hfind).1, List.mem_append, mem_element_iff hname, ih]
    simp [hmark]
  | case3 prev c cs hfind ih => rw [List.mem_cons, List.mem_cons, ih]

section
variable (cc : CharClasses)

/-- Marks and tags carry none. -/
theorem mem_renderInline_iff (line : List Char) : '\r' ∈ renderInline cc line ↔ '\r' ∈ line := by
  unfold renderInline
  rw [mem_wrapAll_iff (by simp [reItalicUnd]) (by decide), mem_wrapAll_iff (by decide) (by decide),
    mem_wrapAll_iff (by decide) (by decide), mem_wrapAll_iff (by decide) (by decide)]

theorem carries_map_iff {f : List Char → List Char} (hf : ∀ v, '\r' ∈ f v ↔ '\r' ∈ v) (vs : List (List Char)) :
    Carries (vs.map f) ↔ Carries vs := by
  simp [Carries, hf]

theorem mem_cells_iff {name : String} (hname : '\r' ∉ name.toList) (row : List (List Char)) :
    '\r' ∈ cells cc name row ↔ Carries row := by
  unfold cells
  rw [mem_flatten_iff]
  exact carries_map_iff (fun v => (mem_element_iff hname _).trans (mem_renderInline_iff cc v)) row

theorem mem_tableBlock_iff (header : List (List Char)) (rows : List (List (List Char))) :
    '\r' ∈ tableBlock cc header rows ↔ Carries (header ++ rows.flatten) := by
  have hrows : '\r' ∈ (rows.map fun row => element "tr" (cells cc "td" row)).flatten ↔ Carries rows.flatten := by
    induction rows with
    | nil => exact iff_of_false List.not_mem_nil carries_nil
    | cons row rows ih =>
      rw [List.map_cons, List.flatten_cons, List.mem_append, ih, mem_element_iff (by decide),
        mem_cells_iff cc (by decide), List.flatten_cons, carries_append]
  unfold tableBlock
  rw [mem_element_iff (by decide), List.mem_append, mem_element_iff (by decide), mem_element_iff (by decide),
    mem_cells_iff cc (by decide), mem_element_iff (by decide), hrows, carries_append]

theorem headingName_plain (depth : Nat) : '\r' ∉ (headingName depth).toList := by
  have hall : tagNames.all (fun name => !name.toList.contains '\r') = true := by decide
  have hname := List.all_eq_true.mp hall _ (headingName_mem depth)
  simpa using hname

/-- A block carries one when a line of its parts does. -/
theorem mem_html_iff (block : Block) : '\r' ∈ block.html cc ↔ ∃ q ∈ block.parts, Carries q.lines := by
  have hinline : ∀ lines : List (List Char), (∃ q ∈ lines.map Part.inline, Carries q.lines) ↔ Carries lines := by
    intro lines
    simp [Carries, Part.lines]
  cases block with
  | para lines =>
    rw [Block.html, mem_element_iff (by decide), mem_intercalate_iff (by decide), carries_map_iff (mem_renderInline_iff cc)]
    exact (hinline lines).symm
  | ul items =>
    rw [Block.html, mem_element_iff (by decide), mem_cells_iff cc (by decide)]
    exact (hinline items).symm
  | ol items =>
    rw [Block.html, mem_element_iff (by decide), mem_cells_iff cc (by decide)]
    exact (hinline items).symm
  | heading depth body =>
    rw [Block.html, mem_element_iff (headingName_plain depth), mem_renderInline_iff]
    simp [Block.parts, Part.lines, Carries]
  | pre lines =>
    rw [Block.html, preBlock, mem_element_iff (by decide), mem_element_iff (by decide), joinLines, mem_intercalate_iff (by decide)]
    simp [Block.parts, Part.lines]
  | table header rows =>
    rw [Block.html, mem_tableBlock_iff]
    exact (hinline _).symm

variable (allowTables : Bool) (stripLeakage : List Char → List Char) (text : List Char)

theorem mem_renderChatMarkdown_iff : '\r' ∈ renderChatMarkdown cc stripLeakage text allowTables ↔
    ∃ q ∈ textParts cc allowTables stripLeakage text, Carries q.lines := by
  obtain ⟨doc, hhtml, hparts⟩ := renderChatMarkdown_document cc stripLeakage text allowTables
  have hdoc : '\r' ∈ (doc.map (Block.html cc)).flatten ↔ ∃ q ∈ textParts cc allowTables stripLeakage text, Carries q.lines := by
    simp only [← hparts, List.mem_flatten, List.mem_map, List.mem_flatMap]
    constructor
    · rintro ⟨v, ⟨block, hblock, rfl⟩, hmem⟩
      obtain ⟨q, hq, hcarries⟩ := (mem_html_iff cc block).mp hmem
      exact ⟨q, ⟨block, hblock, hq⟩, hcarries⟩
    · rintro ⟨q, ⟨block, hblock, hq⟩, hcarries⟩
      exact ⟨_, ⟨block, hblock, rfl⟩, (mem_html_iff cc block).mpr ⟨q, hq, hcarries⟩⟩
  rw [hhtml, ← hdoc]
  split
  · rename_i hempty
    rw [hempty]
    exact iff_of_false (by decide) List.not_mem_nil
  · exact Iff.rfl

theorem oneLine_renderAssistantBubble (error : Bool) :
    OneLine (renderAssistantBubble cc stripLeakage text error allowTables) ↔
      ∀ q ∈ textParts cc allowTables stripLeakage text, ∀ line ∈ q.lines, '\r' ∉ line := by
  have hopen : OneLine (bubbleTag error) := by
    cases error <;> exact oneLine_of_all rfl
  have hclose : OneLine (closeTag "div".toList) := oneLine_of_all rfl
  have hfeed : '\n' ∉ (renderChatMarkdown cc stripLeakage text allowTables).filter (· ≠ '\n') := by simp
  have hreturn : '\r' ∈ (renderChatMarkdown cc stripLeakage text allowTables).filter (· ≠ '\n') ↔
      '\r' ∈ renderChatMarkdown cc stripLeakage text allowTables := by
    rw [List.mem_filter]
    exact and_iff_left (by decide)
  have hcarries : (∀ q ∈ textParts cc allowTables stripLeakage text, ∀ line ∈ q.lines, '\r' ∉ line) ↔
      ¬ ∃ q ∈ textParts cc allowTables stripLeakage text, Carries q.lines := by
    simp [Carries]
  unfold renderAssistantBubble
  rw [oneLine_append_iff, oneLine_append_iff, oneLine_iff (s := List.filter _ _), hreturn, mem_renderChatMarkdown_iff, hcarries]
  exact ⟨fun h => h.1.2.2, fun h => ⟨⟨hopen, hfeed, h⟩, hclose⟩⟩

end

/-! ## One event a frame -/

/-- Each renderer is read back as one event on exactly the texts that leave it no end of a line. -/
theorem one_event_iff (cc : CharClasses) (stripLeakage : List Char → List Char)
    (renderToolResult : List Char → List Char → Option (List Char)) (name : EventName) :
    (∀ text error allowTables, OneEvent name (renderAssistantBubble cc stripLeakage text error allowTables) ↔
        ∀ q ∈ textParts cc allowTables stripLeakage text, ∀ line ∈ q.lines, '\r' ∉ line) ∧
      (∀ toolName, OneEvent name (renderToolPill toolName) ↔ '\n' ∉ toolName ∧ '\r' ∉ toolName) ∧
      ∀ toolName body, OneEvent name (renderToolRowAsPre renderToolResult toolName body) ↔
        ('\n' ∉ toolName ∧ '\r' ∉ toolName) ∧ '\r' ∉ renderedBody renderToolResult toolName body := by
  refine ⟨fun text error allowTables => ?_, fun toolName => ?_, fun toolName body => ?_⟩
  · rw [oneEvent_iff, oneLine_renderAssistantBubble]
  · rw [oneEvent_iff, oneLine_renderToolPill, oneLine_iff]
  · rw [oneEvent_iff, oneLine_renderToolRowAsPre, oneLine_iff]

def brokenText : List Char := "a\rb".toList

theorem textParts_brokenText : textParts asciiClasses false id brokenText = [.inline brokenText] := by
  have hlines : splitChar '\n' (htmlEscape (id brokenText)) = [brokenText] := by decide
  rw [textParts, hlines, parts, parts]
  rfl

/-- A carriage return in a reply or in a tool's result, a line feed in the name that the model calls a tool by: the event is
over there, and the rest of the HTML is no field. -/
theorem frame_cut_short :
    ¬ OneEvent messageName (renderAssistantBubble asciiClasses id brokenText false false) ∧
      ¬ OneEvent messageName (renderToolRowAsPre (fun _ _ => none) "case.list".toList brokenText) ∧
      ¬ OneEvent messageName (renderToolPill "a\nb".toList) ∧
      ({} : Reader).feedBytes (formatFrame messageName (renderToolPill "a\nb".toList)) =
        some { events := [⟨"message".toList,
          "<div class=\"chat-tool-pill\"><span class=\"chat-tool-icon\">≈</span><span class=\"chat-tool-name\">a".toList⟩] } := by
  refine ⟨?_, ?_, ?_, ?_⟩
  · rw [oneEvent_iff, oneLine_renderAssistantBubble, textParts_brokenText]
    intro h
    exact h _ List.mem_cons_self brokenText List.mem_cons_self (by decide)
  · rw [oneEvent_iff, oneLine_renderToolRowAsPre]
    exact fun h => h.2 (by decide)
  · rw [oneEvent_iff, oneLine_renderToolPill, oneLine_iff]
    exact fun h => h.1 (by decide)
  · rw [formatFrame, Reader.feedBytes_utf8]
    exact congrArg some (by decide +kernel)

end BssCli.PortalUi
