import BssCli.Cockpit.Scrubber
import BssCli.Lib.Json

/-!
# The final bubble

`bubble.rs` and the guards that it runs: what the operator reads at the end of a turn. The passes are functions of their own
here, in the order in which `finalize_bubble` runs them.
-/

open Text Regex

namespace BssCli.Cockpit.Bubble

/-! ## The guards -/

section

variable (cc : WordClasses)

/-- `\b` -/
def wordBoundary : Regex := look fun prev next => prev.any cc.isWord != next.any cc.isWord

def reRecapPreTag : Pattern where
  re := cat [textStart, spaces, text "<pre", many true (· ≠ '>'), char '>']
  consumes := by decide

def reRecapHeadered : Pattern where
  re := cat [wordBoundary cc,
    oneOf [text "customer", text "status", text "kyc", text "since", text "contact", cat [text "subscription", opt (text "s")],
      cat [text "open", spaces1, text "case", opt (text "s")], cat [text "recent", spaces1, text "interaction", opt (text "s")],
      text "msisdn", text "plan", text "state", text "activated", text "renews", text "bundle", text "balance"],
    spaces, set fun c => c = ':' || c = '|']
  consumes := Nat.le_of_ble_eq_true rfl

def reKnowledgeClaim : Pattern where
  re := cat [wordBoundary cc,
    oneOf [
      cat [oneOf [text "per", cat [text "according", spaces1, text "to"], cat [text "as", spaces1, text "per"]], spaces1,
        opt (cat [text "the", spaces1]),
        oneOf (["handbook", "runbook", "doctrine", "claude.md", "architecture.md", "decisions.md", "tool_surface.md",
          "handbook.md"].map text)],
      cat [oneOf [text "the", cat [text "in", spaces1, text "the"]], spaces1,
        oneOf (["handbook", "runbook", "doctrine"].map text), spaces1,
        oneOf (["says", "states", "specifies", "mentions", "requires", "forbids", "allows"].map text)],
      cat [text "the", spaces1, text "doc", opt (text "s"), spaces1,
        oneOf (["say", "state", "specify", "mention", "require", "forbid"].map text)]],
    wordBoundary cc]
  consumes := Nat.le_of_ble_eq_true rfl

def knowledgeHallucinationFallback : List Char :=
  "I don't have a citation for that. Run `bss admin knowledge search \"<your query>\"` or open `docs/HANDBOOK.md` for the authoritative answer.".toList

def claimsHandbook (t : List Char) : Bool := (reKnowledgeClaim cc).isMatch id t

/-- `RENDERED_TOOLS` of `renderers/dispatch.rs`. -/
def renderedTools : List String :=
  ["subscription.get", "customer.get", "customer.find_by_msisdn", "order.get", "catalog.get_offering",
   "inventory.esim.get_activation", "subscription.get_esim_activation", "subscription.list_for_customer", "customer.list",
   "order.list", "catalog.list_offerings", "catalog.list_active_offerings", "catalog.list_vas",
   "inventory.msisdn.list_available", "inventory.msisdn.count", "port_request.list", "port_request.get",
   "subscription.get_balance"]

def looksLikeToolRecap (t : List Char) : Bool :=
  if t.isEmpty then false
  else if reRecapPreTag.isMatch id t then true
  else 2 ≤ (reRecapHeadered cc).count id t

def calledName (call : Json) : Option String := (call.get "name").bind Json.asStr

def suppressToolRecap (t : List Char) (capturedToolCalls : List Json) : List Char :=
  if capturedToolCalls.isEmpty then t
  else
    let renderedToolFired := capturedToolCalls.any fun call => (calledName call).any fun n => n ∈ renderedTools
    if !renderedToolFired then t
    else if !looksLikeToolRecap cc t then t
    else "(see above)".toList

end

/-- A plain string stands for a name, too. -/
def knowledgeCalled (capturedToolCalls : List Json) : Bool :=
  capturedToolCalls.any fun entry =>
    let name := match entry with
      | .str s => s
      | .obj _ => (calledName entry).getD ""
      | _ => ""
    "knowledge.".toList <+: name.toList

/-! ## What it is given -/

structure DestructiveCall where
  name : String
  args : Json

structure BubbleCtx where
  capturedToolCalls : List Json
  lastProposal : Option DestructiveCall
  executedDestructive : List DestructiveCall

structure BubbleOutcome where
  text : List Char
  emptyFinalAfterToolCalls : Bool
  antiMimicryStall : Bool
  knowledgeHallucination : Bool

/-- `to_lowercase`, and how a float is written. -/
structure BubbleEnv where
  cc : WordClasses
  toLowercase : List Char → List Char
  ofF64 : ℚ → List Char

/-! ## Arguments as Python writes them -/

def comma : List Char := ", ".toList

def pyEscape (quote : Char) : Char → List Char
  | '\\' => "\\\\".toList
  | '\n' => "\\n".toList
  | '\r' => "\\r".toList
  | '\t' => "\\t".toList
  | c => if c = quote then ['\\', c] else [c]

def pyReprStr (s : List Char) : List Char :=
  let quote := if s.contains '\'' && !s.contains '"' then '"' else '\''
  quote :: s.flatMap (pyEscape quote) ++ [quote]

section

variable (env : BubbleEnv)

mutual

def pyRepr : Json → List Char
  | .str s => pyReprStr s.toList
  | .bool true => "True".toList
  | .bool false => "False".toList
  | .null => "None".toList
  | .int n => ofI64 n
  | .float x => env.ofF64 x
  | .arr values => '[' :: comma.intercalate (pyReprValues values) ++ [']']
  | .obj fields => '\x7b' :: comma.intercalate (pyReprFields fields) ++ ['\x7d']

def pyReprValues : List Json → List (List Char)
  | [] => []
  | v :: values => pyRepr v :: pyReprValues values

def pyReprFields : List (String × Json) → List (List Char)
  | [] => []
  | (k, v) :: fields => (pyReprStr k.toList ++ ": ".toList ++ pyRepr v) :: pyReprFields fields

end

def argsPreview : Json → List Char
  | .obj map => comma.intercalate ((map.take 3).map fun field => field.1.toList ++ '=' :: pyRepr env field.2)
  | _ => []

def toolNames (calls : List Json) : List (List Char) := calls.filterMap fun call => (calledName call).map String.toList

/-! ## The passes -/

def fillEmpty (t : List Char) (capturedToolCalls : List Json) : List Char × Bool :=
  if !t.isEmpty then (t, false)
  else if !capturedToolCalls.isEmpty then
    ("(The model called `".toList ++ comma.intercalate (toolNames capturedToolCalls) ++
      "` but did not synthesise a final answer. Send the same question again or rephrase to retry.)".toList, true)
  else ("(no reply)".toList, false)

def stallText : List Char :=
  "(The model wrote a propose banner as text instead of calling the tool — no pending action. Rephrase the request or be more direct.)".toList

def mentionsConfirm (t : List Char) : Bool :=
  let lower := env.toLowercase t
  "/confirm".toList <:+: lower || "type confirm".toList <:+: lower

def flagMimicry (t : List Char) (capturedToolCalls : List Json) : List Char × Bool :=
  let stripped := stripFakePropose id env.cc id t
  if capturedToolCalls.isEmpty && (stripped.2 || mentionsConfirm env stripped.1) then (stallText, true) else (stripped.1, false)

def proposedLine (p : DestructiveCall) : List Char :=
  "Proposed ".toList ++ p.name.toList ++ '(' :: argsPreview env p.args ++ "). Type /confirm to authorise.".toList

/-- `last` is the last one of `n`. -/
def executedLine (last : DestructiveCall) (n : ℕ) : List Char :=
  let preview := argsPreview env last.args
  if n = 1 then "Executed ".toList ++ last.name.toList ++ '(' :: preview ++ ").".toList
  else
    "Executed ".toList ++ Nat.toDigits 10 n ++ " destructive actions, last was ".toList ++ last.name.toList ++ '(' :: preview ++
      ").".toList

def overrideOutcome (t : List Char) (ctx : BubbleCtx) : List Char :=
  match ctx.lastProposal, ctx.executedDestructive.getLast? with
  | some p, _ => proposedLine env p
  | none, some last => executedLine env last ctx.executedDestructive.length
  | none, none => t

def guardCitation (t : List Char) (capturedToolCalls : List Json) : List Char × Bool :=
  if !t.isEmpty && claimsHandbook env.cc t && !knowledgeCalled capturedToolCalls then (knowledgeHallucinationFallback, true)
  else (t, false)

def finalizeBubble (t : List Char) (ctx : BubbleCtx) : BubbleOutcome :=
  let (t, emptyFinalAfterToolCalls) := fillEmpty t ctx.capturedToolCalls
  let t := suppressToolRecap env.cc t ctx.capturedToolCalls
  let (t, antiMimicryStall) := flagMimicry env t ctx.capturedToolCalls
  let t := overrideOutcome env t ctx
  let (t, knowledgeHallucination) := guardCitation env t ctx.capturedToolCalls
  { text := t, emptyFinalAfterToolCalls, antiMimicryStall, knowledgeHallucination }

end

/-! ## What the operator reads -/

/-- The scrubbed text. What was not put in keeps the place that it had before. -/
def scrubbed (cc : WordClasses) (t : List Char) : List (Char × Option ℕ) :=
  (stripFakePropose Prod.fst cc (fun c => (c, none)) (marked t)).1

theorem scrubbed_map (cc : WordClasses) (t : List Char) :
    (scrubbed cc t).map Prod.fst = (stripFakePropose id cc id t).1 := by
  have hplain : (marked t).map Prod.fst = t := by
    unfold marked
    rw [List.map_map]
    exact placed_map_fst t
  rw [scrubbed, stripFakePropose_map cc (fun _ => rfl), hplain]

theorem not_mem_scrubbed {cc : WordClasses} {t : List Char} {x : Char × Option ℕ} (h : Mimics cc Prod.fst (marked t) x) :
    x ∉ scrubbed cc t := by
  have hplace : ∀ c, x ≠ (c, none) := by
    rintro c rfl
    obtain ⟨a, w, b, ht, -⟩ := h
    have hmem : (c, none) ∈ marked t := by
      rw [ht]
      simp
    obtain ⟨p, -, hp⟩ := List.mem_map.mp hmem
    cases hp
  exact mimics_scrubbed (marked_nodup t) (hplace ' ') (hplace '\n') h

section

variable (env : BubbleEnv)

/-- What the scrubber is given. -/
def shownText (t : List Char) (ctx : BubbleCtx) : List Char :=
  suppressToolRecap env.cc (fillEmpty t ctx.capturedToolCalls).1 ctx.capturedToolCalls

def cleanedText (t : List Char) (ctx : BubbleCtx) : List Char := (stripFakePropose id env.cc id (shownText env t ctx)).1

/-- There is a banner or a narrated call in the text that the scrubber is given, or a /confirm in what it leaves, and no tool
was called. -/
def Stalls (t : List Char) (ctx : BubbleCtx) : Prop :=
  ctx.capturedToolCalls = [] ∧
    (¬ ((fakeProposeLineRe env.cc).Free [] (shownText env t ctx) ∧ (narratedCallRe env.cc).Free [] (shownText env t ctx)) ∨
      mentionsConfirm env (cleanedText env t ctx) = true)

/-- The text claims the handbook, and no knowledge tool was called. -/
def Uncited (t : List Char) (ctx : BubbleCtx) : Prop :=
  claimsHandbook env.cc t = true ∧ knowledgeCalled ctx.capturedToolCalls = false

variable {env} {t : List Char} {ctx : BubbleCtx}

theorem finalizeBubble_text :
    (finalizeBubble env t ctx).text =
      (guardCitation env (overrideOutcome env (flagMimicry env (shownText env t ctx) ctx.capturedToolCalls).1 ctx)
        ctx.capturedToolCalls).1 := rfl

theorem guardCitation_cited (h : ¬ Uncited env t ctx) : (guardCitation env t ctx.capturedToolCalls).1 = t := by
  unfold guardCitation
  split
  · rename_i hc
    simp only [Bool.and_eq_true, Bool.not_eq_true'] at hc
    exact absurd ⟨hc.1.2, hc.2⟩ h
  · rfl

theorem guardCitation_uncited (h : Uncited env t ctx) :
    (guardCitation env t ctx.capturedToolCalls).1 = knowledgeHallucinationFallback := by
  have hne : t.isEmpty = false := by
    cases t with
    | nil => cases h.1
    | cons c t => rfl
  unfold guardCitation
  rw [if_pos]
  simp [hne, h.1, h.2]

/-- The warning claims nothing, whatever counts as a letter. -/
theorem stallText_cited : ¬ Uncited env stallText ctx := by
  have hloose : ((reKnowledgeClaim asciiWords).loose.isMatch id stallText) = false := by decide +kernel
  have hnone : claimsHandbook env.cc stallText = false := Pattern.isMatch_eq_false_of_loose hloose
  rintro ⟨hclaim, -⟩
  rw [hnone] at hclaim
  cases hclaim

theorem flagMimicry_stalls (h : Stalls env t ctx) :
    (flagMimicry env (shownText env t ctx) ctx.capturedToolCalls).1 = stallText := by
  obtain ⟨hcalls, hsignal⟩ := h
  unfold flagMimicry
  dsimp only
  rw [hcalls, if_pos]
  rw [List.isEmpty_nil, Bool.true_and, Bool.or_eq_true, stripFakePropose_flag]
  exact hsignal

theorem flagMimicry_passes (h : ¬ Stalls env t ctx) :
    (flagMimicry env (shownText env t ctx) ctx.capturedToolCalls).1 = cleanedText env t ctx := by
  unfold Stalls cleanedText at h
  unfold flagMimicry cleanedText
  dsimp only
  rw [if_neg]
  rw [Bool.and_eq_true, Bool.or_eq_true, stripFakePropose_flag, List.isEmpty_iff]
  exact h

end

def asciiEnv : BubbleEnv := ⟨asciiWords, List.map Char.toLower, fun _ => []⟩

end BssCli.Cockpit.Bubble
