import BssCli.Lib.Regex
import BssCli.Lib.Text

/-!
# The sanitisers of the cockpit

`postprocess.rs` and the scrubber of `chrome_filter.rs`: what is taken out of a model's text before it is shown. The functions
run on lists of anything that has a character, so that the characters of a text can carry their places through them.
-/

open Text Regex

namespace BssCli.Cockpit

/-! ## The expressions -/

/-- `\w` and `\d` of the regex engine. -/
structure WordClasses where
  isWord : Char → Bool
  isDigit : Char → Bool
  newline : isWord '\n' = false

/-- `^`, and with it `(?m)^` and `(?m)$` -/
def textStart : Regex := look fun prev _ => prev.isNone

def lineStart : Regex := look fun prev _ => prev.all (· = '\n')

def lineEnd : Regex := look fun _ next => next.all (· = '\n')

/-- `\s*` and `\s+` -/
def spaces : Regex := many true isWhitespace

def spaces1 : Regex := plus isWhitespace

def backtick : Char := Char.ofNat 96

def channelTag : Regex :=
  alt (cat [char '<', opt (char '|'), text "channel", opt (char '|'), char '>'])
    (cat [char '<', char '/', spaces, text "channel", spaces, char '>'])

def assistantFinal : Regex := cat [lineStart, spaces, text "assistantfinal", spaces, opt (char '\n')]

def reChannelMarkup : Pattern where
  re := alt channelTag assistantFinal
  consumes := by decide

def reThinkBlock : Pattern where
  re := cat [text "<think", opt (text "ing"), char '>', many false fun _ => true, text "</think", opt (text "ing"), char '>']
  consumes := by decide

def reLeadingThought : Pattern where
  re := cat [textStart, spaces, oneOf [text "thought", text "thinking"], spaces, opt (set fun c => c = ':' || c = '-'), spaces,
    plus (· = '\n')]
  consumes := by decide

def reInlineThoughtPrefix : Pattern where
  re := cat [textStart, spaces, oneOf [text "thought", text "thinking"], spaces1,
    look fun _ next => next.any fun c => !isWhitespace c]
  consumes := by decide

section

variable (cc : WordClasses)

def bannerParts : List Regex :=
  [lineStart, many true fun c => c = ' ' || c = '\t', opt (cat [char '⚠', spaces]), text "propose", spaces,
   opt (cat [char '[', spaces, text "step", spaces, plus cc.isDigit, spaces, char ']']), spaces, char ':',
   many false (· ≠ '\n')]

def fakeProposeLineRe : Pattern where
  re := cat (bannerParts cc ++ [oneOf [char '\n', lineEnd]])
  consumes := Nat.le_of_ble_eq_true rfl

/-- `[a-z][a-z0-9_]*` -/
def lowerName : Regex := cat [set Char.isLower, many true fun c => c.isLower || c.isDigit || c = '_']

def callShape : Regex :=
  cat [lowerName, char '.', lowerName, char '(', many true fun c => c ≠ ')' && c ≠ '\n', char ')']

/-- One to three backticks. -/
def ticks : Regex := cat [char backtick, opt (cat [char backtick, opt (char backtick)])]

def narratedCallRe : Pattern where
  re := oneOf [cat [ticks, callShape, ticks], cat [look fun prev next => prev.any cc.isWord != next.any cc.isWord, callShape]]
  consumes := Nat.le_of_ble_eq_true rfl

def narrationLeadRe : Pattern where
  re := cat [oneOf [textStart, behind fun before => match before with
      | s :: m :: _ => isWhitespace s && (m = '.' || m = '!' || m = '?')
      | _ => false],
    spaces, text "i",
    oneOf [text "'ll", cat [spaces1, text "will"], cat [spaces1, text "would", spaces1, text "like"],
      cat [spaces1, text "intend"], cat [spaces1, text "propose"], cat [text "'m", spaces1, text "going"]],
    spaces1, text "to", spaces1,
    oneOf (["propose", "call", "invoke", "terminate", "cancel", "close", "remove", "refund", "revoke"].map text),
    look fun prev next => prev.any cc.isWord != next.any cc.isWord,
    many true fun c => c ≠ '.' && c ≠ '!' && c ≠ '?' && c ≠ '\n', opt (set fun c => c = '.' || c = '!' || c = '?')]
  consumes := Nat.le_of_ble_eq_true rfl

end

def emptyBacktickRe : Pattern where
  re := cat [char backtick, char backtick, opt (char backtick), spaces, many true (· = backtick)]
  consumes := by decide

def pleaseConfirmRe : Pattern where
  re := cat [oneOf [textStart, char '\n'], spaces, opt (cat [text "please", spaces1]), text "type", spaces1,
    opt (char backtick), text "/confirm", opt (char backtick), many true fun c => c ≠ '\n' && c ≠ '.', opt (char '.'), spaces]
  consumes := by decide

def wsRunRe : Pattern where
  re := plus fun c => c = ' ' || c = '\t'
  consumes := by decide

def blankRunRe : Pattern where
  re := cat [char '\n', spaces, char '\n', spaces, plus (· = '\n')]
  consumes := by decide

/-! ## The functions -/

section

variable {α : Type*} (ch : α → Char)

def trimStartOf (l : List α) : List α := l.dropWhile fun a => isWhitespace (ch a)

def trimOf (l : List α) : List α := (trimStartOf ch l).rdropWhile fun a => isWhitespace (ch a)

def stripChannelMarkup (text : List α) : List α :=
  if text.isEmpty then [] else trimStartOf ch (reChannelMarkup.replaceAll ch [] text)

def stripReasoningLeakage (text : List α) : List α :=
  if text.isEmpty then []
  else
    let cleaned := reThinkBlock.replaceAll ch [] text
    let cleaned := reLeadingThought.deleteFirst ch [] cleaned
    let cleaned := reInlineThoughtPrefix.deleteFirst ch [] cleaned
    trimStartOf ch cleaned

/-- `strip_leakage` of `chat_html.rs`. -/
def stripLeakage (text : List α) : List α := stripReasoningLeakage ch (stripChannelMarkup ch text)

/-- `ins` makes an element of a character that is put in. -/
def stripFakePropose (cc : WordClasses) (ins : Char → α) (text : List α) : List α × Bool :=
  let nBanner := (fakeProposeLineRe cc).count ch text
  let cleaned := (fakeProposeLineRe cc).replaceAll ch [] text
  let nCalls := (narratedCallRe cc).count ch cleaned
  let cleaned := (narratedCallRe cc).replaceAll ch [] cleaned
  let cleaned :=
    if 0 < nCalls then emptyBacktickRe.replaceAll ch [] ((narrationLeadRe cc).replaceAll ch [] cleaned) else cleaned
  let cleaned := pleaseConfirmRe.replaceAll ch [ins ' '] cleaned
  let cleaned := wsRunRe.replaceAll ch [ins ' '] cleaned
  let cleaned := blankRunRe.replaceAll ch [ins '\n', ins '\n'] cleaned
  (trimOf ch cleaned, 0 < nBanner + nCalls)

end

end BssCli.Cockpit

/-!
# Where the sanitisers come to rest

Each of them is one pass over a text, and what a pass takes out may leave something to take out behind. A text stays exactly
when nothing is left to take out; every other pass makes it lighter.
-/

namespace BssCli.Cockpit

/-! ## One pass -/

/-- A tabulator weighs two, for it may become a blank. -/
def weight (c : Char) : ℕ := if c = '\t' then 2 else 1

theorem one_le_weight (c : Char) : 1 ≤ weight c := by
  unfold weight
  split <;> decide

theorem length_le_load (l : List Char) : l.length ≤ Pattern.load weight l := by
  induction l with
  | nil => exact Nat.zero_le _
  | cons c l ih =>
    have hload : Pattern.load weight (c :: l) = weight c + Pattern.load weight l := rfl
    have := one_le_weight c
    rw [hload, List.length_cons]
    omega

theorem load_le_length (l : List Char) : Pattern.load weight l ≤ 2 * l.length := by
  induction l with
  | nil => exact Nat.zero_le _
  | cons c l ih =>
    have hload : Pattern.load weight (c :: l) = weight c + Pattern.load weight l := rfl
    have : weight c ≤ 2 := by
      unfold weight
      split <;> decide
    rw [hload, List.length_cons]
    omega

/-- The text is the same, or it got lighter. -/
def Lighter (a b : List Char) : Prop := a = b ∨ Pattern.load weight a < Pattern.load weight b

namespace Lighter

theorem refl (a : List Char) : Lighter a a := .inl rfl

theorem trans {a b c : List Char} (hab : Lighter a b) (hbc : Lighter b c) : Lighter a c := by
  rcases hab with rfl | hab
  · exact hbc
  · rcases hbc with rfl | hbc
    · exact .inr hab
    · exact .inr (hab.trans hbc)

theorem eq_of_both {a b : List Char} (hab : Lighter a b) (hba : Lighter b a) : a = b := by
  rcases hab with hab | hab
  · exact hab
  · rcases hba with hba | hba
    · exact hba.symm
    · exact absurd (hab.trans hba) (Nat.lt_irrefl _)

/-- A text that two passes leave as it is, one after the other, each of them leaves as it is. -/
theorem comp_eq_iff {f g : List Char → List Char} (hf : ∀ s, Lighter (f s) s) (hg : ∀ s, Lighter (g s) s) (t : List Char) :
    f (g t) = t ↔ g t = t ∧ f t = t := by
  constructor
  · intro h
    have hfirst := hf (g t)
    rw [h] at hfirst
    have heq := (hg t).eq_of_both hfirst
    rw [heq] at h
    exact ⟨heq, h⟩
  · rintro ⟨hfirst, hsecond⟩
    rw [hfirst, hsecond]

theorem of_sublist {a b : List Char} (h : a.Sublist b) : Lighter a b := by
  induction h with
  | slnil => exact refl _
  | @cons a b c _ ih =>
    have hload : Pattern.load weight (c :: b) = weight c + Pattern.load weight b := rfl
    have := one_le_weight c
    right
    rcases ih with rfl | ih <;> omega
  | @cons_cons a b c _ ih => exact ih.imp (congrArg (c :: ·)) fun h => Nat.add_lt_add_left h _

end Lighter

/-- A pass that makes every text lighter that it changes comes to rest. -/
theorem exists_rest {f : List Char → List Char} (h : ∀ t, Lighter (f t) t) (t : List Char) :
    ∃ n ≤ Pattern.load weight t, f (f^[n] t) = f^[n] t := by
  induction hn : Pattern.load weight t using Nat.strong_induction_on generalizing t with
  | _ n ih =>
    rcases h t with hrest | hlt
    · exact ⟨0, Nat.zero_le _, hrest⟩
    · obtain ⟨k, hk, hrest⟩ := ih _ (hn ▸ hlt) (f t) rfl
      exact ⟨k + 1, by omega, hrest⟩

/-! ## What only deletes -/

section

variable {α : Type*} (ch : α → Char)

theorem trimStartOf_sublist (l : List α) : (trimStartOf ch l).Sublist l := List.dropWhile_sublist _

theorem stripChannelMarkup_sublist (t : List α) : (stripChannelMarkup ch t).Sublist t := by
  unfold stripChannelMarkup
  split
  · exact List.nil_sublist _
  · exact (trimStartOf_sublist ch _).trans (reChannelMarkup.replaceAll_sublist ch t)

/-- What the reasoning pass makes of a text, step by step. -/
theorem stripReasoningLeakage_eq (t : List α) :
    stripReasoningLeakage ch t = trimStartOf ch (reInlineThoughtPrefix.deleteFirst ch []
      (reLeadingThought.deleteFirst ch [] (reThinkBlock.replaceAll ch [] t))) := by
  cases t <;> rfl

theorem stripChannelMarkup_eq (t : List α) :
    stripChannelMarkup ch t = trimStartOf ch (reChannelMarkup.replaceAll ch [] t) := by
  cases t <;> rfl

theorem stripReasoningLeakage_sublist (t : List α) : (stripReasoningLeakage ch t).Sublist t := by
  rw [stripReasoningLeakage_eq]
  exact (trimStartOf_sublist ch _).trans (((reInlineThoughtPrefix.deleteFirst_sublist [] _).trans
    (reLeadingThought.deleteFirst_sublist [] _)).trans (reThinkBlock.replaceAll_sublist ch t))

theorem stripLeakage_sublist (t : List α) : (stripLeakage ch t).Sublist t :=
  (stripReasoningLeakage_sublist ch _).trans (stripChannelMarkup_sublist ch t)

end

/-! ## Texts that stay -/

/-- No whitespace at the front. -/
def Started (t : List Char) : Prop := ∀ c ∈ t.head?, isWhitespace c = false

/-- No whitespace at either end. -/
def Trimmed (t : List Char) : Prop := Started t ∧ ∀ c ∈ t.getLast?, isWhitespace c = false

theorem trimStartOf_eq_self_iff (t : List Char) : trimStartOf id t = t ↔ Started t := by
  unfold trimStartOf Started
  rw [List.dropWhile_eq_self_iff]
  cases t <;> simp

theorem trimOf_sublist (t : List Char) : (trimOf id t).Sublist t :=
  (List.rdropWhile_prefix _ _).sublist.trans (trimStartOf_sublist id t)

theorem trimOf_eq_self_iff (t : List Char) : trimOf id t = t ↔ Trimmed t := by
  have hend : ∀ s : List Char, s.rdropWhile (fun c => isWhitespace (id c)) = s ↔ ∀ c ∈ s.getLast?, isWhitespace c = false := by
    intro s
    rw [List.rdropWhile_eq_self_iff]
    cases s using List.reverseRecOn with
    | nil => simp
    | append_singleton s c => simp
  have hcomp := Lighter.comp_eq_iff (f := fun s => s.rdropWhile fun c => isWhitespace (id c)) (g := trimStartOf id)
    (fun s => .of_sublist (List.rdropWhile_prefix _ _).sublist) (fun s => .of_sublist (trimStartOf_sublist id s)) t
  exact hcomp.trans (and_congr (trimStartOf_eq_self_iff t) (hend t))

theorem lighter_replaceAll (P : Pattern) (s : List Char) : Lighter (P.replaceAll id [] s) s :=
  .of_sublist (P.replaceAll_sublist id s)

theorem lighter_deleteFirst (P : Pattern) (s : List Char) : Lighter (P.deleteFirst id [] s) s :=
  .of_sublist (P.deleteFirst_sublist [] s)

theorem lighter_trimStartOf (s : List Char) : Lighter (trimStartOf id s) s := .of_sublist (trimStartOf_sublist id s)

/-- The parts of a text that a search deletes, when it deletes all that it finds. -/
theorem deleteAll_id (P : Pattern) (t : List Char) : P.replaceAll id [] t = t ↔ P.Free [] t := by
  rw [Pattern.deleteAll_eq_self_iff, List.map_id]

theorem deleteFirst_id (P : Pattern) (t : List Char) : P.deleteFirst id [] t = t ↔ P.Free [] t := by
  rw [Pattern.deleteFirst_eq_self_iff, List.map_id]

theorem stripChannelMarkup_eq_self_iff (t : List Char) :
    stripChannelMarkup id t = t ↔ reChannelMarkup.Free [] t ∧ Started t := by
  rw [stripChannelMarkup_eq, Lighter.comp_eq_iff lighter_trimStartOf (lighter_replaceAll reChannelMarkup), deleteAll_id,
    trimStartOf_eq_self_iff]

/-- No block, no header and no prefix of a model that thinks aloud. -/
def Thoughtless (t : List Char) : Prop :=
  reThinkBlock.Free [] t ∧ reLeadingThought.Free [] t ∧ reInlineThoughtPrefix.Free [] t

theorem stripReasoningLeakage_eq_self_iff (t : List Char) :
    stripReasoningLeakage id t = t ↔ Thoughtless t ∧ Started t := by
  have hfirst := lighter_replaceAll reThinkBlock
  have hsecond := fun s => (lighter_deleteFirst reLeadingThought _).trans (hfirst s)
  have hthird := fun s => (lighter_deleteFirst reInlineThoughtPrefix _).trans (hsecond s)
  rw [stripReasoningLeakage_eq, Lighter.comp_eq_iff lighter_trimStartOf hthird, trimStartOf_eq_self_iff,
    Lighter.comp_eq_iff (lighter_deleteFirst reInlineThoughtPrefix) hsecond,
    Lighter.comp_eq_iff (lighter_deleteFirst reLeadingThought) hfirst, deleteAll_id, deleteFirst_id, deleteFirst_id]
  simp only [Thoughtless, and_assoc]

theorem stripLeakage_eq_self_iff (t : List Char) :
    stripLeakage id t = t ↔ reChannelMarkup.Free [] t ∧ Thoughtless t ∧ Started t := by
  unfold stripLeakage
  rw [Lighter.comp_eq_iff (fun s => .of_sublist (stripReasoningLeakage_sublist id s))
      (fun s => .of_sublist (stripChannelMarkup_sublist id s)), stripChannelMarkup_eq_self_iff,
    stripReasoningLeakage_eq_self_iff]
  constructor
  · exact fun h => ⟨h.1.1, h.2.1, h.2.2⟩
  · exact fun h => ⟨⟨h.1, h.2.2⟩, h.2⟩

/-! ## The scrubber -/

theorem load_lt {P : Pattern} {rep : List Char} (h : Pattern.load weight rep < P.re.least) {before w after : List Char}
    (hw : P.re.Matches before w after) : Pattern.load weight rep < Pattern.load weight w :=
  h.trans_le (hw.least_le.trans (length_le_load w))

theorem lighter_replace {P : Pattern} {rep : List Char} (h : Pattern.load weight rep < P.re.least) (s : List Char) :
    Lighter (P.replaceAll id rep s) s :=
  Pattern.replaceAll_eq_or_lt (fun before w after hw _ => load_lt h (by simpa using hw)) s

theorem replace_eq_self_iff {P : Pattern} {rep : List Char} (h : Pattern.load weight rep < P.re.least) (s : List Char) :
    P.replaceAll id rep s = s ↔ P.Free [] s := by
  rw [Pattern.replaceAll_eq_self_iff_free (fun before w after hw => load_lt h (by simpa using hw)), List.map_id]

/-- A run of blanks is a blank already, or heavier than one. -/
theorem load_wsRun {before w after : List Char} (h : wsRunRe.re.Matches before (w.map id) after) (hne : w ≠ [' ']) :
    Pattern.load weight [' '] < Pattern.load weight w := by
  rw [List.map_id] at h
  obtain ⟨u, v, rfl, ⟨c, rfl, hc⟩, -⟩ := h
  cases v with
  | nil =>
    have htab : c = '\t' := by
      have hor : c = ' ' ∨ c = '\t' := by simpa using hc
      exact hor.resolve_left fun h => hne (by rw [h]; rfl)
    rw [htab]
    decide
  | cons d v =>
    have hlen := length_le_load ([c] ++ d :: v)
    have hone : Pattern.load weight [' '] = 1 := rfl
    rw [List.length_append, List.length_cons, List.length_cons] at hlen
    omega

section

variable (cc : WordClasses)

/-- The calls are taken out, and what was written around them. -/
def withoutCalls (t : List Char) : List Char :=
  if 0 < (narratedCallRe cc).count id t then
    emptyBacktickRe.replaceAll id [] ((narrationLeadRe cc).replaceAll id [] ((narratedCallRe cc).replaceAll id [] t))
  else (narratedCallRe cc).replaceAll id [] t

theorem stripFakePropose_eq (t : List Char) :
    (stripFakePropose id cc id t).1 = trimOf id (blankRunRe.replaceAll id ['\n', '\n'] (wsRunRe.replaceAll id [' ']
      (pleaseConfirmRe.replaceAll id [' '] (withoutCalls cc ((fakeProposeLineRe cc).replaceAll id [] t))))) := by
  unfold stripFakePropose withoutCalls
  simp only [id_eq]

theorem lighter_withoutCalls (t : List Char) : Lighter (withoutCalls cc t) t := by
  unfold withoutCalls
  split
  · exact (lighter_replaceAll _ _).trans ((lighter_replaceAll _ _).trans (lighter_replaceAll _ _))
  · exact lighter_replaceAll _ _

theorem withoutCalls_eq_self_iff (t : List Char) : withoutCalls cc t = t ↔ (narratedCallRe cc).Free [] t := by
  have hcount : 0 < (narratedCallRe cc).count id t ↔ ¬ (narratedCallRe cc).Free [] t := by
    rw [Pattern.count_pos_iff, List.map_id]
  unfold withoutCalls
  split
  · rename_i hpos
    refine iff_of_false (fun heq => hcount.mp hpos ?_) (hcount.mp hpos)
    have hcalls := lighter_replaceAll (narratedCallRe cc)
    have hlead := fun s => (lighter_replaceAll (narrationLeadRe cc) _).trans (hcalls s)
    have hboth := (Lighter.comp_eq_iff (lighter_replaceAll emptyBacktickRe) hlead t).mp heq
    exact (deleteAll_id _ t).mp ((Lighter.comp_eq_iff (lighter_replaceAll (narrationLeadRe cc)) hcalls t).mp hboth.1).1
  · exact deleteAll_id _ t

theorem confirm_shortens : Pattern.load weight [' '] < pleaseConfirmRe.re.least := by decide

theorem blanks_shorten : Pattern.load weight ['\n', '\n'] < blankRunRe.re.least := by decide

theorem lighter_wsRun (s : List Char) : Lighter (wsRunRe.replaceAll id [' '] s) s :=
  Pattern.replaceAll_eq_or_lt (fun _ _ _ => load_wsRun) s

/-- Blanks are single spaces. -/
def Spaced (t : List Char) : Prop := '\t' ∉ t ∧ ¬ [' ', ' '] <:+: t

def isBlank (c : Char) : Bool := c = ' ' || c = '\t'

theorem isBlank_iff (c : Char) : isBlank c = true ↔ c = ' ' ∨ c = '\t' := by simp [isBlank]

theorem find_wsRun (before : List Char) (c : Char) (rest : List Char) :
    wsRunRe.find before (c :: rest) = if isBlank c then some (1 + (rest.takeWhile isBlank).length) else none := by
  cases hc : isBlank c with
  | false =>
    have hset : (Regex.set isBlank).ends before (c :: rest) = [] := by simp [ends, hc]
    have hends : wsRunRe.re.ends before (c :: rest) = [] := by
      show ((Regex.set isBlank).ends before (c :: rest)).flatMap _ = []
      rw [hset]
      rfl
    rw [Pattern.find, hends]
    rfl
  | true =>
    have hset : (Regex.set isBlank).ends before (c :: rest) = [1] := by simp [ends, hc]
    have hends : wsRunRe.re.ends before (c :: rest) =
        (List.range ((rest.takeWhile isBlank).length + 1)).reverse.map (1 + ·) := by
      show ((Regex.set isBlank).ends before (c :: rest)).flatMap _ = _
      rw [hset, List.flatMap_singleton]
      rfl
    rw [Pattern.find, hends, List.range_succ, List.reverse_append]
    rfl

theorem spaced_cons {c : Char} (hc : isBlank c = false) (t : List Char) : Spaced (c :: t) ↔ Spaced t := by
  have hnot : c ≠ ' ' ∧ c ≠ '\t' := by
    rw [← not_or, ← isBlank_iff, hc]
    exact Bool.false_ne_true
  unfold Spaced
  rw [List.mem_cons, List.infix_cons_iff, List.cons_prefix_cons]
  simp [hnot.1.symm, hnot.2.symm]

/-- A single space, and no blank behind it. -/
theorem spaced_space {t : List Char} (hnext : t.takeWhile isBlank = []) : Spaced (' ' :: t) ↔ Spaced t := by
  unfold Spaced
  rw [List.mem_cons, List.infix_cons_iff, List.cons_prefix_cons]
  have hpre : ¬ [' '] <+: t := by
    rintro ⟨s, rfl⟩
    cases hnext
  simp [hpre]

/-- A run of blanks that is no single space. -/
theorem not_spaced {w t : List Char} (hne : w ≠ []) (hall : ∀ c ∈ w, isBlank c = true) (hw : w ≠ [' ']) : ¬ Spaced (w ++ t) := by
  rintro ⟨htab, hdouble⟩
  have hspace : ∀ c ∈ w, c = ' ' := fun c hc =>
    ((isBlank_iff c).mp (hall c hc)).resolve_right fun h => htab (h ▸ List.mem_append_left t hc)
  obtain ⟨c, w, rfl⟩ := List.exists_cons_of_ne_nil hne
  obtain rfl := hspace c List.mem_cons_self
  cases w with
  | nil => exact hw rfl
  | cons d w =>
    obtain rfl := hspace d (List.mem_cons_of_mem _ List.mem_cons_self)
    exact hdouble (List.prefix_append [' ', ' '] (w ++ t)).isInfix

theorem spaced_iff (before t : List Char) :
    (∀ m, Piece.found m ∈ wsRunRe.pieces id 0 before t → m = [' ']) ↔ Spaced t := by
  induction before, t using Pattern.search_induction wsRunRe id with
  | nil => exact iff_of_true (fun m hm => absurd hm List.not_mem_nil) (by simp [Spaced])
  | kept before a l hfind ih =>
    have ha : isBlank a = false := by
      rw [List.map_id, find_wsRun] at hfind
      exact Bool.eq_false_iff.mpr fun h => by simp [h] at hfind
    rw [Pattern.pieces_kept hfind, spaced_cons ha, ← ih]
    exact forall_congr' fun m => imp_congr_left (by simp)
  | found before w l hne hfind ih =>
    rw [Pattern.pieces_found hne hfind]
    rw [List.map_id] at hfind
    obtain ⟨c, v, rfl⟩ := List.exists_cons_of_ne_nil hne
    rw [List.cons_append, find_wsRun] at hfind
    have hc : isBlank c = true := by
      by_contra h
      rw [if_neg h] at hfind
      cases hfind
    rw [if_pos hc, Option.some.injEq, List.length_cons, Nat.add_comm, Nat.add_right_cancel_iff] at hfind
    have hv : (v ++ l).takeWhile isBlank = v :=
      (List.prefix_of_prefix_length_le (List.takeWhile_prefix _) (List.prefix_append v l) hfind.le).eq_of_length hfind
    have hall : ∀ d ∈ c :: v, isBlank d = true :=
      List.forall_mem_cons.mpr ⟨hc, fun d hd => List.mem_takeWhile_imp (hv ▸ hd)⟩
    by_cases hw : c :: v = [' ']
    · obtain ⟨rfl, rfl⟩ := List.cons.inj hw
      have hnext : l.takeWhile isBlank = [] := by simpa using hv
      rw [List.singleton_append, spaced_space hnext, ← ih]
      constructor
      · exact fun h m hm => h m (List.mem_cons_of_mem _ hm)
      · intro h m hm
        rcases List.mem_cons.mp hm with hm | hm
        · exact Piece.found.inj hm
        · exact h m hm
    · exact iff_of_false (fun h => hw (h _ List.mem_cons_self)) (not_spaced hne hall hw)

theorem wsRun_eq_self_iff (t : List Char) : wsRunRe.replaceAll id [' '] t = t ↔ Spaced t := by
  rw [Pattern.replaceAll_eq_self_iff (fun _ _ _ => load_wsRun), spaced_iff]

/-- No banner, no call, no sentence that asks for `/confirm`, no blanks too many. -/
def Scrubbed (t : List Char) : Prop :=
  ((fakeProposeLineRe cc).Free [] t ∧ (narratedCallRe cc).Free [] t ∧ pleaseConfirmRe.Free [] t) ∧
    Spaced t ∧ blankRunRe.Free [] t ∧ Trimmed t

theorem lighter_stripFakePropose (t : List Char) : Lighter (stripFakePropose id cc id t).1 t := by
  rw [stripFakePropose_eq]
  have hscrubbed := (lighter_withoutCalls cc _).trans (lighter_replaceAll (fakeProposeLineRe cc) t)
  have hspaced := (lighter_wsRun _).trans ((lighter_replace confirm_shortens _).trans hscrubbed)
  exact (Lighter.of_sublist (trimOf_sublist _)).trans ((lighter_replace blanks_shorten _).trans hspaced)

theorem stripFakePropose_eq_self_iff (t : List Char) : (stripFakePropose id cc id t).1 = t ↔ Scrubbed cc t := by
  have hbanner := lighter_replaceAll (fakeProposeLineRe cc)
  have hcalls := fun s => (lighter_withoutCalls cc _).trans (hbanner s)
  have hconfirm := fun s => (lighter_replace confirm_shortens _).trans (hcalls s)
  have hspaces := fun s => (lighter_wsRun _).trans (hconfirm s)
  have hblanks := fun s => (lighter_replace blanks_shorten _).trans (hspaces s)
  rw [stripFakePropose_eq, Lighter.comp_eq_iff (fun s => .of_sublist (trimOf_sublist s)) hblanks, trimOf_eq_self_iff,
    Lighter.comp_eq_iff (lighter_replace blanks_shorten) hspaces, replace_eq_self_iff blanks_shorten,
    Lighter.comp_eq_iff lighter_wsRun hconfirm, wsRun_eq_self_iff,
    Lighter.comp_eq_iff (lighter_replace confirm_shortens) hcalls, replace_eq_self_iff confirm_shortens,
    Lighter.comp_eq_iff (lighter_withoutCalls cc) hbanner, withoutCalls_eq_self_iff, deleteAll_id]
  simp only [Scrubbed, and_assoc]

end

end BssCli.Cockpit
