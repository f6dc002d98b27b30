import BssCli.Chat.Transcript
import BssCli.Lib.Pool
import BssCli.Lib.Steps

/-!
# What a chat turn is told of the conversation

`chat_message` and `chat_events` of one customer. A turn keeps its question and not its place, and the stream takes the messages
with its text out of the conversation as it stands then.
-/

open Text Steps

namespace BssCli.Chat.Prior

/-! ## The conversation -/

/-- `before` is the conversation that the turn's own message was appended to. Nothing reads it. -/
structure ChatTurn where
  question : List Char
  before : List ConversationMessage
  done : Bool := false
  /-- The store still has it. -/
  held : Bool := true

/-- `posting` are the messages that are appended and whose turn is not created yet, `running` the turns that an agent answers,
and `told` what the model was given as prior context, turn by turn. -/
structure World where
  messages : List ConversationMessage := []
  posting : List ChatTurn := []
  turns : List ChatTurn := []
  running : List ℕ := []
  told : List (ChatTurn × List ConversationMessage) := []

inductive Step
  /-- `POST /chat/message` up to the append, and the creation of its turn -/
  | append (message : List Char) (allowed : Bool)
  | create (i : ℕ)
  /-- `GET /chat/events/{id}` -/
  | stream (i : ℕ)
  /-- The answer of a run, or its error. -/
  | reply (k : ℕ) (final : Bool) (body : List Char)
  /-- The store drops the turn. -/
  | expire (i : ℕ)

def isQuestion (question : List Char) (m : ConversationMessage) : Bool := m.role = .user && m.body = question

def priorMessages (question : List Char) (messages : List ConversationMessage) : List ConversationMessage :=
  messages.filter fun m => !isQuestion question m

namespace World

def finish (turns : List ChatTurn) (i : ℕ) : List ChatTurn :=
  match turns[i]? with
  | some t => turns.set i { t with done := true }
  | none => turns

def step (w : World) : Step → Option World
  | .append message allowed =>
    let text := trim message
    if text = [] ∨ allowed = false then
      some w
    else
      some { w with
        messages := w.messages ++ [⟨.user, text⟩]
        posting := w.posting ++ [{ question := text, before := w.messages }] }
  | .create i =>
    w.posting[i]?.map fun t => { w with posting := w.posting.eraseIdx i, turns := w.turns ++ [t] }
  | .stream i =>
    match w.turns[i]? with
    | some t =>
      if t.held = true ∧ t.done = false then
        some { w with running := w.running ++ [i], told := w.told ++ [(t, priorMessages t.question w.messages)] }
      else
        some w
    | none => some w
  | .reply k final body =>
    w.running[k]?.map fun i =>
      { w with
        messages := w.messages ++ [⟨.assistant, body⟩]
        turns := if final then finish w.turns i else w.turns
        running := w.running.eraseIdx k }
  | .expire i =>
    w.turns[i]?.map fun t => { w with turns := w.turns.set i { t with held := false } }

end World

/-! ## Where a turn stands -/

/-- Its own message follows what stood before it. -/
def Placed (messages : List ConversationMessage) (t : ChatTurn) : Prop :=
  ∃ after, messages = t.before ++ ⟨.user, t.question⟩ :: after

theorem Placed.append {messages : List ConversationMessage} {t : ChatTurn} (h : Placed messages t)
    (more : List ConversationMessage) : Placed (messages ++ more) t := by
  obtain ⟨after, rfl⟩ := h
  exact ⟨after ++ more, by simp⟩

structure Inv (w : World) : Prop where
  posting : ∀ t ∈ w.posting, Placed w.messages t
  turns : ∀ t ∈ w.turns, Placed w.messages t

theorem finish_placed {messages : List ConversationMessage} {turns : List ChatTurn} (h : ∀ t ∈ turns, Placed messages t) (i : ℕ) :
    ∀ t ∈ World.finish turns i, Placed messages t := by
  unfold World.finish
  split
  · rename_i t ht
    exact Pool.forall_set h (h t (List.mem_of_getElem? ht))
  · exact h

theorem step_inv {w w' : World} {s : Step} (h : w.step s = some w') (hi : Inv w) : Inv w' := by
  cases s with
  | append message allowed =>
    unfold World.step at h
    dsimp only at h
    split at h
    · exact Option.some.inj h ▸ hi
    · obtain rfl := Option.some.inj h
      refine ⟨fun t ht => ?_, fun t ht => (hi.turns t ht).append _⟩
      rcases List.mem_append.mp ht with ht | ht
      · exact (hi.posting t ht).append _
      · obtain rfl := List.mem_singleton.mp ht
        exact ⟨[], rfl⟩
  | create i =>
    obtain ⟨t, ht, rfl⟩ := Option.map_eq_some_iff.mp h
    refine ⟨fun u hu => hi.posting u (List.mem_of_mem_eraseIdx hu), fun u hu => ?_⟩
    rcases List.mem_append.mp hu with hu | hu
    · exact hi.turns u hu
    · obtain rfl := List.mem_singleton.mp hu
      exact hi.posting u (List.mem_of_getElem? ht)
  | stream i =>
    unfold World.step at h
    dsimp only at h
    split at h
    · split at h
      · obtain rfl := Option.some.inj h
        exact ⟨hi.posting, hi.turns⟩
      · exact Option.some.inj h ▸ hi
    · exact Option.some.inj h ▸ hi
  | reply k final body =>
    obtain ⟨i, -, rfl⟩ := Option.map_eq_some_iff.mp h
    refine ⟨fun t ht => (hi.posting t ht).append _, ?_⟩
    have hturns : ∀ t ∈ w.turns, Placed (w.messages ++ [⟨.assistant, body⟩]) t := fun t ht => (hi.turns t ht).append _
    dsimp only
    split
    · exact finish_placed hturns i
    · exact hturns
  | expire i =>
    obtain ⟨t, ht, rfl⟩ := Option.map_eq_some_iff.mp h
    exact ⟨hi.posting, Pool.forall_set hi.turns (hi.turns t (List.mem_of_getElem? ht))⟩

theorem run_inv {ls : List Step} {w : World} (h : exec World.step {} ls = some w) : Inv w :=
  exec_inv (fun _ _ _ hi hs => step_inv hs hi) ⟨by simp, by simp⟩ h

/-! ## What the model is told -/

/-- No message before the turn's own asks its question, and each one behind it does. -/
def Undisturbed (t : ChatTurn) (messages : List ConversationMessage) : Prop :=
  (∀ m ∈ t.before, isQuestion t.question m = false) ∧ ∀ m ∈ messages.drop (t.before.length + 1), isQuestion t.question m = true

instance (t : ChatTurn) (messages : List ConversationMessage) : Decidable (Undisturbed t messages) :=
  inferInstanceAs (Decidable (_ ∧ _))

/-- What the filter leaves of both parts is the first one as it was: none of it is lost, and nothing of the second is left. -/
theorem filter_append_eq_left_iff {α : Type*} {p : α → Bool} {a b : List α} :
    a.filter p ++ b.filter p = a ↔ (∀ x ∈ a, p x = true) ∧ ∀ x ∈ b, p x = false := by
  constructor
  · intro h
    have hall : ∀ x ∈ a, p x = true := by
      intro x hx
      rw [← h, ← List.filter_append] at hx
      exact (List.mem_filter.mp hx).2
    refine ⟨hall, fun x hx => ?_⟩
    rw [List.filter_eq_self.mpr hall, List.append_right_eq_self, List.filter_eq_nil_iff] at h
    simpa using h x hx
  · rintro ⟨ha, hb⟩
    rw [List.filter_eq_self.mpr ha, List.filter_eq_nil_iff.mpr (by simpa using hb), List.append_nil]

theorem priorMessages_eq_iff {t : ChatTurn} {messages : List ConversationMessage} (h : Placed messages t) :
    priorMessages t.question messages = t.before ↔ Undisturbed t messages := by
  obtain ⟨after, rfl⟩ := h
  have hown : isQuestion t.question ⟨.user, t.question⟩ = true := by simp [isQuestion]
  have hdrop : (t.before ++ ⟨.user, t.question⟩ :: after).drop (t.before.length + 1) = after := by
    rw [List.drop_append, List.drop_of_length_le (Nat.le_succ _), Nat.add_sub_cancel_left]
    rfl
  unfold priorMessages Undisturbed
  rw [hdrop, List.filter_append, List.filter_cons_of_neg (by simp [hown]), filter_append_eq_left_iff]
  simp only [Bool.not_eq_true', Bool.not_eq_false']

/-- Each turn was told what stood before its own message. -/
def Exact (w : World) : Prop := ∀ c ∈ w.told, c.2 = c.1.before

/-- A stream that starts a run finds the conversation undisturbed. -/
def Steady (w : World) : Step → Prop
  | .stream i => ∀ t ∈ w.turns[i]?, t.held = true ∧ t.done = false → Undisturbed t w.messages
  | _ => True

instance (w : World) (s : Step) : Decidable (Steady w s) := by
  unfold Steady
  split
  · exact inferInstanceAs (Decidable (∀ t ∈ _, _))
  · exact inferInstanceAs (Decidable True)

theorem step_exact {w w' : World} {s : Step} (h : w.step s = some w') (hi : Inv w) (hs : Steady w s) (he : Exact w) :
    Exact w' := by
  cases s with
  | append message allowed =>
    unfold World.step at h
    dsimp only at h
    split at h
    all_goals
      obtain rfl := Option.some.inj h
      exact he
  | create i =>
    obtain ⟨t, -, rfl⟩ := Option.map_eq_some_iff.mp h
    exact he
  | stream i =>
    unfold World.step at h
    dsimp only at h
    split at h
    · rename_i t ht
      split at h
      · rename_i hserved
        obtain rfl := Option.some.inj h
        refine Pool.forall_concat he ?_
        exact (priorMessages_eq_iff (hi.turns t (List.mem_of_getElem? ht))).mpr (hs t ht hserved)
      · exact Option.some.inj h ▸ he
    · exact Option.some.inj h ▸ he
  | reply k final body =>
    obtain ⟨i, -, rfl⟩ := Option.map_eq_some_iff.mp h
    exact he
  | expire i =>
    obtain ⟨t, -, rfl⟩ := Option.map_eq_some_iff.mp h
    exact he

/-- Whatever was posted and streamed before, a turn is told exactly what stood before its own message when nothing else asks its
question and nothing but its question was said since. -/
theorem prior_context_exact_iff (ls : List Step) :
    (∀ w, exec World.step {} ls = some w →
      ∀ t ∈ w.turns, priorMessages t.question w.messages = t.before ↔ Undisturbed t w.messages) ∧
    ∀ w, exec (guarded Steady World.step) {} ls = some w → Exact w := by
  refine ⟨fun w h t ht => priorMessages_eq_iff ((run_inv h).turns t ht), fun w h => ?_⟩
  have hinit : Inv {} ∧ Exact {} := ⟨⟨by simp, by simp⟩, by simp [Exact]⟩
  have hstep : ∀ w s w', Inv w ∧ Exact w → Steady w s → World.step w s = some w' → Inv w' ∧ Exact w' :=
    fun w s w' hw hs hstep => ⟨step_inv hstep hw.1, step_exact hstep hw.1 hs hw.2⟩
  exact (guarded_inv hstep hinit h).2

def sampleRun : List Step :=
  [.append "hi".toList true, .create 0, .stream 0, .reply 0 true "hello".toList, .append "hi".toList true, .create 0,
   .append "bye".toList true, .create 0, .stream 1]

/-- The same words again: the first time is gone, and what was posted since is there. -/
theorem prior_context_departs :
    ∃ w, exec World.step {} sampleRun = some w ∧
      w.told.map (fun c => (c.1.before, c.2)) = [([], []),
        ([⟨.user, "hi".toList⟩, ⟨.assistant, "hello".toList⟩], [⟨.assistant, "hello".toList⟩, ⟨.user, "bye".toList⟩])] :=
  ⟨_, rfl, by decide⟩

end BssCli.Chat.Prior
