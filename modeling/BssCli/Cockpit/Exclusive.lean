import BssCli.Cockpit.Confirmed

/-!
# One turn at a time

`inflight.rs` and the requests that open the event stream. A request looks at the registry, reads, plans and starts a
turn, and only then registers it. A turn that completes removes what the registry has for the conversation.
-/

open Text BssCli.Agent Steps

namespace BssCli.Cockpit

/-! ## Stages -/

def Stage.prompted : Stage → Bool
  | .running .prompted => true
  | _ => false

def Stage.owes : Stage → Bool
  | .running _ | .persisting _ | .answering => true
  | .staging _ | .finished => false

/-- The last user row has no assistant row behind it. -/
def unanswered (rows : List Row) : Bool :=
  rows.foldl (fun u r => match r.role with
    | .user => true
    | .assistant => false
    | .tool => u) false

theorem unanswered_concat (rows : List Row) (r : Row) :
    unanswered (rows ++ [r]) = match r.role with
      | .user => true
      | .assistant => false
      | .tool => unanswered rows := by
  unfold unanswered
  rw [List.foldl_append]
  rfl

/-! ## The conversation with its requests -/

/-- What was there when a request read the transcript. -/
structure Look where
  turns : Nat
  /-- Every turn that was started had finished. -/
  clear : Bool
  unanswered : Bool
  /-- The number of the last message. -/
  post : Nat

/-- The conversation, the turns that are started and not yet registered, and what no step reads: the number of messages,
what each request saw, the message of each turn, and the messages that a model was asked about. -/
structure Floor where
  world : World := {}
  inserting : List Nat := []
  posts : Nat := 0
  looks : List (Option Look) := []
  messages : List Nat := []
  driven : List Nat := []

inductive FloorStep
  | store (l : Step)
  /-- `inflight.insert`, after the turn was spawned. -/
  | insert (k : Nat)

namespace Floor

def glance (f : Floor) : Look :=
  ⟨f.world.turns.length, f.world.turns.all fun t => t.stage.isFinished, unanswered f.world.rows, f.posts⟩

def asks (f : Floor) (i : Nat) : List Nat :=
  if f.world.turns[i]?.any (fun t => t.stage.prompted) then f.messages[i]?.toList else []

def after (f : Floor) (w : World) : Step → Floor
  | .post message => { f with world := w, posts := if trim message = [] then f.posts else f.posts + 1 }
  | .openStream => { f with world := w, looks := if f.world.observes then f.looks else f.looks ++ [none] }
  | .readTranscript i _ => { f with world := w, looks := f.looks.set i (some f.glance) }
  | .plan i =>
    if w.turns.length = f.world.turns.length then
      { f with world := w, looks := f.looks.eraseIdx i }
    else
      { f with
        world := { w with inflight := f.world.inflight }
        inserting := f.inserting ++ [f.world.turns.length]
        looks := f.looks.eraseIdx i
        messages := f.messages ++ [((f.looks[i]?.bind id).map Look.post).getD 0] }
  | .drop i => { f with world := w, looks := f.looks.eraseIdx i }
  | .loop i _ => { f with world := w, driven := f.driven ++ f.asks i }
  | .restart => { f with world := w, inserting := [], looks := [] }
  | _ => { f with world := w }

def step (sf : Surface) (f : Floor) : FloorStep → Option Floor
  | .store l => (f.world.step sf l).map fun w => f.after w l
  | .insert k =>
    if k ∈ f.inserting then
      some { f with world := { f.world with inflight := some k }, inserting := f.inserting.erase k }
    else none

/-- What the request at `i` read asks for a turn. -/
def drives (f : Floor) (i : Nat) : Bool :=
  match f.world.handlers[i]? with
  | some (.consumed transcript pending) =>
    match planTurn transcript pending.isSome with
    | .drive _ => true
    | _ => false
  | _ => false

/-- Nothing was going on when the request at `i` read the transcript, no turn was started since, and what it read had a
message without an answer. -/
def Alone (f : Floor) (i : Nat) : Prop :=
  ∃ look ∈ f.looks[i]?.bind id, look.clear = true ∧ look.turns = f.world.turns.length ∧ look.unanswered = true

instance (f : Floor) (i : Nat) : Decidable (f.Alone i) := inferInstanceAs (Decidable (∃ _ ∈ _, _))

/-- Requests that start turns do not overlap, answers are stored, and a restart finds nothing running. -/
def Orderly (f : Floor) : FloorStep → Prop
  | .store (.plan i) => f.drives i = true → f.Alone i
  | .store (.answer _ r) => r ≠ .failed
  | .store .restart => ∀ t ∈ f.world.turns, t.stage.isFinished = true
  | _ => True

instance (f : Floor) : ∀ l, Decidable (f.Orderly l)
  | .store (.plan _) => inferInstanceAs (Decidable (_ → _))
  | .store (.answer _ r) => inferInstanceAs (Decidable (r ≠ .failed))
  | .store .restart => inferInstanceAs (Decidable (∀ t ∈ f.world.turns, _))
  | .store (.post _) | .store .reset | .store .resetPending | .store .openStream | .store (.readTranscript _ _)
  | .store (.consumePending _ _) | .store (.drop _) | .store (.loop _ _) | .store (.noModel _) | .store (.persist _ _)
  | .store (.stagePending _ _) | .insert _ => .isTrue trivial

end Floor

/-! ## What an effect does to a turn -/

/-- A turn that is through with its loop has something to say. -/
def Turn.Spoken (t : Turn) : Prop :=
  match t.stage with
  | .running .ended | .persisting _ | .answering => t.collected.errored = true ∨ t.collected.finalText.isSome = true
  | _ => True

/-- Neither at the start nor at the end. -/
def inside : Loop → Bool
  | .prompted | .ended => false
  | _ => true

theorem nextCall_inside (l : Locals) (tcs : List ToolCall) : inside (nextCall l tcs) = true := by
  cases tcs <;> rfl

theorem afterTurn_inside (l : Locals) (t : AiTurn) : inside (afterTurn l t) = true := by
  unfold afterTurn
  dsimp only
  split
  · rfl
  · exact nextCall_inside ..

theorem execute_inside (lib : Library) (cfg : Config) (l : Locals) (tc : ToolCall) (rest : List ToolCall) :
    inside (execute lib cfg l tc rest) = true := by
  unfold execute
  split
  · rfl
  · dsimp only
    split <;> rfl

theorem afterCall_inside (lib : Library) (cfg : Config) (l : Locals) (tc : ToolCall) (rest : List ToolCall)
    (result : List Char) (isError : Bool) : inside (afterCall lib cfg l tc rest result isError) = true := by
  unfold afterCall
  split
  · rfl
  · split
    · split <;> rfl
    · exact nextCall_inside ..

theorem Turn.spoken_of_inside {t : Turn} {loop : Loop} (hstage : t.stage = .running loop) (h : inside loop = true) :
    t.Spoken := by
  unfold Turn.Spoken
  rw [hstage]
  cases loop <;> trivial

variable {sf : Surface} {t t' : Turn} {a : Answer}

/-- An effect leads on inside the loop, or out of it with the error or the answer in the sink. -/
theorem Turn.advance_inside {loop : Loop} (hstage : t.stage = .running loop) (h : t.advance sf a = some t') :
    (∃ loop', t'.stage = .running loop' ∧ inside loop' = true) ∨
      t'.stage = .running .ended ∧ (t'.collected.errored = true ∨ t'.collected.finalText.isSome = true) ∨
      loop = .ended ∧ t'.stage = .persisting t.collected.toolRows ∧ t'.collected = t.collected := by
  cases Turn.advanced hstage h with
  | prompted | counting | auditing | calling => exact .inl ⟨_, rfl, rfl⟩
  | thinking l answer => exact .inl ⟨_, rfl, afterTurn_inside l answer⟩
  | starting => exact .inl ⟨_, rfl, execute_inside ..⟩
  | completing => exact .inl ⟨_, rfl, afterCall_inside ..⟩
  | failing => exact .inr (.inl ⟨rfl, .inl rfl⟩)
  | answering => exact .inr (.inl ⟨rfl, .inr rfl⟩)
  | ended => exact .inr (.inr ⟨rfl, rfl, rfl⟩)

theorem Turn.advance_running (h : t.advance sf a = some t') : ∃ loop, t.stage = .running loop := by
  unfold Turn.advance at h
  split at h
  · exact ⟨_, by assumption⟩
  · cases h

theorem advance_stage (h : t.advance sf a = some t') :
    t.stage.owes = true ∧ t'.stage.owes = true ∧ t'.stage.prompted = false ∧ (t.Spoken → t'.Spoken) := by
  obtain ⟨loop, hstage⟩ := Turn.advance_running h
  refine ⟨by rw [hstage]; rfl, ?_⟩
  rcases Turn.advance_inside hstage h with ⟨loop', hstage', hin⟩ | ⟨hstage', hsaid⟩ | ⟨rfl, hstage', hcoll⟩
  · refine ⟨by rw [hstage']; rfl, ?_, fun _ => Turn.spoken_of_inside hstage' hin⟩
    rw [hstage']
    cases loop' <;> first | rfl | cases hin
  · refine ⟨by rw [hstage']; rfl, by rw [hstage']; rfl, fun _ => ?_⟩
    unfold Turn.Spoken
    rw [hstage']
    exact hsaid
  · refine ⟨by rw [hstage']; rfl, by rw [hstage']; rfl, fun hs => ?_⟩
    unfold Turn.Spoken at hs ⊢
    rw [hstage] at hs
    rw [hstage', hcoll]
    exact hs

/-! ## What a step does -/

/-- A step in the turns, their messages, the looks, and whether the rows ask for an answer. -/
inductive Shifts (f f' : Floor) : Prop
  /-- No turn is touched. A request may look. -/
  | rests (hturns : f'.world.turns = f.world.turns) (hmessages : f'.messages = f.messages) (hdriven : f'.driven = f.driven)
      (hposts : f'.posts = f.posts) (hrows : unanswered f'.world.rows = true → unanswered f.world.rows = true)
      (hlooks : ∀ look, some look ∈ f'.looks → some look ∈ f.looks ∨ look = f.glance)
      (hinflight : f'.world.inflight = none → f.world.inflight = none)
  | posts (hturns : f'.world.turns = f.world.turns) (hmessages : f'.messages = f.messages) (hdriven : f'.driven = f.driven)
      (hposts : f'.posts = f.posts + 1) (hlooks : f'.looks = f.looks)
      (hinflight : f'.world.inflight = f.world.inflight)
  | starts (t : Turn) (look : Look) (ht : t.stage = .running .prompted) (hlook : some look ∈ f.looks)
      (hclear : look.clear = true) (hcount : look.turns = f.world.turns.length) (hunanswered : look.unanswered = true)
      (hturns : f'.world.turns = f.world.turns ++ [t]) (hmessages : f'.messages = f.messages ++ [look.post])
      (hdriven : f'.driven = f.driven) (hposts : f'.posts = f.posts) (hrows : f'.world.rows = f.world.rows)
      (hlooks : ∀ look, some look ∈ f'.looks → some look ∈ f.looks) (hinflight : f'.world.inflight = f.world.inflight)
  /-- A turn that has still to answer is one step further. -/
  | goes (i : Nat) {t t' : Turn} (ht : f.world.turns[i]? = some t) (howes : t.stage.owes = true)
      (howes' : t'.stage.owes = true) (hprompted : t'.stage.prompted = false) (hspoken : t.Spoken → t'.Spoken)
      (hturns : f'.world.turns = f.world.turns.set i t') (hmessages : f'.messages = f.messages)
      (hdriven : f'.driven = f.driven ++ f.asks i) (hposts : f'.posts = f.posts)
      (hrows : unanswered f'.world.rows = true → unanswered f.world.rows = true) (hlooks : f'.looks = f.looks)
      (hinflight : f'.world.inflight = f.world.inflight)
  /-- A turn answers, or it is over. If it had still to answer, it has answered, or it never came to the model. -/
  | ends (i : Nat) {t t' : Turn} (ht : f.world.turns[i]? = some t) (hopen : t.stage.isFinished = false)
      (howes' : t'.stage.owes = false)
      (hanswers : t.stage.owes = true → t.stage.prompted = true ∨ unanswered f'.world.rows = false)
      (hturns : f'.world.turns = f.world.turns.set i t') (hmessages : f'.messages = f.messages)
      (hdriven : f'.driven = f.driven) (hposts : f'.posts = f.posts)
      (hrows : unanswered f'.world.rows = true → unanswered f.world.rows = true) (hlooks : f'.looks = f.looks)
      (hinflight : f'.world.inflight = none → f.world.inflight = none ∨ t'.stage.isFinished = true)
  | restarts (hfinished : ∀ t ∈ f.world.turns, t.stage.isFinished = true)
      (hturns : f'.world.turns = f.world.turns.map fun t => { t with stage := .finished })
      (hmessages : f'.messages = f.messages) (hdriven : f'.driven = f.driven) (hposts : f'.posts = f.posts)
      (hrows : f'.world.rows = f.world.rows) (hlooks : f'.looks = [])

theorem Turn.spoken_bubble (sf : Surface) (hstage : t.stage = .answering) (h : t.Spoken) : (t.collected.bubble sf).isSome = true := by
  unfold Turn.Spoken at h
  rw [hstage] at h
  unfold Collected.bubble
  split
  · rfl
  · rename_i herr
    rw [Option.isSome_map]
    exact h.resolve_left herr

variable {f f' : Floor}

theorem mem_looks_eraseIdx {i : Nat} {look : Look} (h : some look ∈ f.looks.eraseIdx i) : some look ∈ f.looks :=
  List.mem_of_mem_eraseIdx h

theorem plan_shifts {i : Nat} {w : World} (hc : f.drives i = true → f.Alone i) (h : f.world.step sf (.plan i) = some w) :
    Shifts f (f.after w (.plan i)) := by
  simp only [World.step] at h
  split at h
  · rename_i transcript pending hi
    split at h
    · rename_i d hplan
      obtain rfl := Option.some.inj h
      have hdrives : f.drives i = true := by
        unfold Floor.drives
        rw [hi]
        dsimp only
        rw [hplan]
      obtain ⟨look, hlook, hclear, hcount, hun⟩ := hc hdrives
      have hget : f.looks[i]? = some (some look) := by
        obtain ⟨o, ho, rfl⟩ := Option.bind_eq_some_iff.mp (Option.mem_def.mp hlook)
        exact ho
      simp only [Floor.after, List.length_append, List.length_singleton, Nat.add_eq_left, one_ne_zero, if_false]
      refine .starts _ look rfl (List.mem_of_getElem? hget) hclear hcount hun rfl ?_ rfl rfl rfl
        (fun _ => mem_looks_eraseIdx) rfl
      simp [hget]
    · obtain rfl := Option.some.inj h
      simp only [Floor.after, if_true]
      exact .rests rfl rfl rfl rfl id (fun _ hl => .inl (mem_looks_eraseIdx hl)) id
  · cases h

theorem answer_shifts {i : Nat} {r : Reply} {w : World} (hspoken : ∀ t ∈ f.world.turns, t.Spoken) (hc : r ≠ .failed)
    (h : f.world.step sf (.answer i r) = some w) : Shifts f (f.after w (.answer i r)) := by
  simp only [World.step] at h
  split at h
  · rename_i t ht
    split at h
    · rename_i hstage
      have hsaid := Turn.spoken_bubble sf hstage (hspoken t (List.mem_of_getElem? ht))
      split at h
      · rename_i hnone
        rw [hnone] at hsaid
        cases hsaid
      · rename_i text htext
        have hrow : unanswered (f.world.rows ++ [⟨.assistant, text, []⟩]) = false := unanswered_concat ..
        have hopen : t.stage.isFinished = false := by rw [hstage]; rfl
        simp only [if_neg hc] at h
        split at h
        · split at h
          · obtain rfl := Option.some.inj h
            exact .ends i ht hopen rfl (fun _ => .inr hrow) rfl rfl rfl rfl (fun hu => by simp [Floor.after, hrow] at hu)
              rfl .inl
          · obtain rfl := Option.some.inj h
            exact .ends i ht hopen rfl (fun _ => .inr hrow) rfl rfl rfl rfl
              (fun hu => by simp [Floor.after, hrow] at hu) rfl fun _ => .inr rfl
        · obtain rfl := Option.some.inj h
          exact .ends i ht hopen rfl (fun _ => .inr hrow) rfl rfl rfl rfl
            (fun hu => by simp [Floor.after, hrow] at hu) rfl fun _ => .inr rfl
    · cases h
  · cases h

theorem persist_shifts {i : Nat} {ok : Bool} {w : World} (h : f.world.step sf (.persist i ok) = some w) :
    Shifts f (f.after w (.persist i ok)) := by
  simp only [World.step] at h
  split at h
  · rename_i t ht
    have hasks : t.stage.prompted = false → f.asks i = [] := by
      intro hp
      unfold Floor.asks
      rw [ht, Option.any_some, if_neg (by simp [hp])]
    split at h
    · rename_i hstage
      obtain rfl := Option.some.inj h
      refine .goes i ht (by rw [hstage]; rfl) rfl rfl ?_ rfl rfl ?_ rfl id rfl rfl
      · unfold Turn.Spoken
        rw [hstage]
        exact id
      · rw [hasks (by rw [hstage]; rfl), List.append_nil]
        rfl
    · rename_i name body rest hstage
      obtain rfl := Option.some.inj h
      refine .goes i ht (by rw [hstage]; rfl) rfl rfl ?_ rfl rfl ?_ rfl ?_ rfl rfl
      · unfold Turn.Spoken
        rw [hstage]
        exact id
      · rw [hasks (by rw [hstage]; rfl), List.append_nil]
        rfl
      · intro hu
        simp only [Floor.after] at hu
        split at hu
        · rwa [unanswered_concat] at hu
        · exact hu
    · cases h
  · cases h

theorem Floor.step_shifts {l : FloorStep} (hspoken : ∀ t ∈ f.world.turns, t.Spoken) (hc : f.Orderly l)
    (h : f.step sf l = some f') : Shifts f f' := by
  cases l with
  | insert k =>
    simp only [Floor.step, Option.ite_none_right_eq_some, Option.some.injEq] at h
    obtain ⟨-, rfl⟩ := h
    exact .rests rfl rfl rfl rfl id (fun _ => .inl) (fun hnone => by cases hnone)
  | store l =>
    obtain ⟨w, hw, rfl⟩ := Option.map_eq_some_iff.mp h
    cases l with
    | plan i => exact plan_shifts hc hw
    | answer i r => exact answer_shifts hspoken hc hw
    | persist i ok => exact persist_shifts hw
    | post message =>
      simp only [World.step] at hw
      split at hw
      · rename_i hblank
        obtain rfl := Option.some.inj hw
        refine .rests rfl rfl rfl ?_ id (fun _ => .inl) id
        simp [Floor.after, hblank]
      · rename_i hblank
        obtain rfl := Option.some.inj hw
        refine .posts rfl rfl rfl ?_ rfl rfl
        simp [Floor.after, hblank]
    | reset =>
      obtain rfl := Option.some.inj hw
      exact .rests rfl rfl rfl rfl (fun hu => by cases hu) (fun _ => .inl) id
    | resetPending =>
      obtain ⟨-, hw⟩ := Option.ite_none_left_eq_some.mp hw
      obtain rfl := Option.some.inj hw
      exact .rests rfl rfl rfl rfl id (fun _ => .inl) id
    | openStream =>
      simp only [World.step] at hw
      split at hw
      · rename_i hobs
        obtain rfl := Option.some.inj hw
        refine .rests rfl rfl rfl rfl id (fun look hl => .inl ?_) id
        simpa [Floor.after, hobs] using hl
      · rename_i hobs
        obtain rfl := Option.some.inj hw
        refine .rests rfl rfl rfl rfl id (fun look hl => .inl ?_) id
        simpa [Floor.after, hobs] using hl
    | readTranscript i ok =>
      simp only [World.step] at hw
      split at hw
      · obtain rfl := Option.some.inj hw
        refine .rests rfl rfl rfl rfl id (fun look hl => ?_) id
        rcases List.mem_or_eq_of_mem_set hl with hl | hl
        · exact .inl hl
        · exact .inr (Option.some.inj hl)
      · cases hw
    | consumePending i r =>
      simp only [World.step] at hw
      split at hw
      · obtain rfl := Option.some.inj hw
        exact .rests rfl rfl rfl rfl id (fun _ => .inl) id
      · cases hw
    | drop i =>
      obtain rfl := Option.some.inj hw
      exact .rests rfl rfl rfl rfl id (fun _ hl => .inl (mem_looks_eraseIdx hl)) id
    | loop i a =>
      obtain ⟨t, ht, hw⟩ := Option.bind_eq_some_iff.mp hw
      obtain ⟨t', hadv, rfl⟩ := Option.map_eq_some_iff.mp hw
      obtain ⟨howes, howes', hprompted, hsp⟩ := advance_stage hadv
      exact .goes i ht howes howes' hprompted hsp rfl rfl rfl rfl id rfl rfl
    | noModel i =>
      simp only [World.step] at hw
      split at hw
      · rename_i t ht
        split at hw
        · rename_i hstage
          obtain rfl := Option.some.inj hw
          exact .ends i ht (by rw [hstage]; rfl) rfl (fun _ => .inl (by rw [hstage]; rfl)) rfl rfl rfl rfl id rfl
            fun _ => .inr rfl
        · cases hw
      · cases hw
    | stagePending i ok =>
      simp only [World.step] at hw
      split at hw
      · rename_i t ht
        split at hw
        · rename_i call hstage
          have hfinish : ∀ f', f'.world.turns = f.world.turns.set i { t with stage := .finished } →
              f'.messages = f.messages → f'.driven = f.driven → f'.posts = f.posts → f'.world.rows = f.world.rows →
              f'.looks = f.looks → Shifts f f' := fun f' h₁ h₂ h₃ h₄ h₅ h₆ =>
            .ends i ht (by rw [hstage]; rfl) rfl (fun ho => by rw [hstage] at ho; cases ho) h₁ h₂ h₃ h₄
              (by rw [h₅]; exact id) h₆ fun _ => .inr rfl
          split at hw
          · obtain rfl := Option.some.inj hw
            exact hfinish _ rfl rfl rfl rfl rfl rfl
          · obtain rfl := Option.some.inj hw
            exact hfinish _ rfl rfl rfl rfl rfl rfl
        · cases hw
      · cases hw
    | restart =>
      obtain rfl := Option.some.inj hw
      exact .restarts hc rfl rfl rfl rfl rfl rfl

/-! ## The invariant -/

def Turn.unfinished (t : Turn) : Bool := !t.stage.isFinished

theorem Stage.unfinished_of_owes {s : Stage} (h : s.owes = true) : s.isFinished = false := by
  cases s <;> first | rfl | cases h

theorem Stage.owes_of_prompted {s : Stage} (h : s.prompted = true) : s.owes = true := by
  cases s <;> first | rfl | cases h

/-- One turn at most is unfinished, and what was asked of a model is answered in the rows, or will be by that turn. -/
structure Tidy (f : Floor) : Prop where
  one : f.world.turns.countP Turn.unfinished ≤ 1
  aligned : f.messages.length = f.world.turns.length
  once : f.driven.Nodup
  drivenBound : ∀ m ∈ f.driven, m ≤ f.posts
  messageBound : ∀ m ∈ f.messages, m ≤ f.posts
  lookBound : ∀ look, some look ∈ f.looks → look.post ≤ f.posts ∧ look.turns ≤ f.world.turns.length
  waiting : ∀ (i : Nat) (t : Turn) (m : Nat), f.world.turns[i]? = some t → t.stage.prompted = true →
    f.messages[i]? = some m → m ∉ f.driven
  answered : f.posts ∈ f.driven → unanswered f.world.rows = true →
    ∃ (i : Nat) (t : Turn), f.world.turns[i]? = some t ∧ t.stage.owes = true ∧ f.messages[i]? = some f.posts
  looked : ∀ look, some look ∈ f.looks → look.clear = true → look.turns = f.world.turns.length →
    (∀ t ∈ f.world.turns, t.stage.isFinished = true) ∧ (look.unanswered = true → look.post ∉ f.driven)
  spoken : ∀ t ∈ f.world.turns, t.Spoken

namespace Tidy

variable (h : Tidy f)

include h

theorem index_eq {i j : Nat} {t t' : Turn} (ht : f.world.turns[i]? = some t) (ht' : f.world.turns[j]? = some t')
    (hopen : t.stage.isFinished = false) (hopen' : t'.stage.isFinished = false) : i = j :=
  Pool.index_unique Turn.unfinished h.one ht ht' (by simp [Turn.unfinished, hopen]) (by simp [Turn.unfinished, hopen'])

/-- With all turns finished, a message without an answer was not asked of a model. -/
theorem unasked (hfin : ∀ t ∈ f.world.turns, t.stage.isFinished = true) (hun : unanswered f.world.rows = true) :
    f.posts ∉ f.driven := by
  intro hmem
  obtain ⟨i, t, ht, howes, -⟩ := h.answered hmem hun
  have := hfin t (List.mem_of_getElem? ht)
  rw [Stage.unfinished_of_owes howes] at this
  cases this

theorem rests (hturns : f'.world.turns = f.world.turns) (hmessages : f'.messages = f.messages)
    (hdriven : f'.driven = f.driven) (hposts : f'.posts = f.posts)
    (hrows : unanswered f'.world.rows = true → unanswered f.world.rows = true)
    (hlooks : ∀ look, some look ∈ f'.looks → some look ∈ f.looks ∨ look = f.glance) : Tidy f' := by
  refine ⟨?_, ?_, ?_, ?_, ?_, ?_, ?_, ?_, ?_, ?_⟩
  · rw [hturns]; exact h.one
  · rw [hturns, hmessages]; exact h.aligned
  · rw [hdriven]; exact h.once
  · rw [hdriven, hposts]; exact h.drivenBound
  · rw [hmessages, hposts]; exact h.messageBound
  · rw [hturns, hposts]
    intro look hlook
    rcases hlooks look hlook with hlook | rfl
    · exact h.lookBound look hlook
    · exact ⟨Nat.le_refl _, Nat.le_refl _⟩
  · rw [hturns, hmessages, hdriven]; exact h.waiting
  · rw [hturns, hmessages, hdriven, hposts]
    exact fun hmem hun => h.answered hmem (hrows hun)
  · rw [hturns, hdriven]
    intro look hlook hclear hcount
    rcases hlooks look hlook with hlook | rfl
    · exact h.looked look hlook hclear hcount
    · have hfin : ∀ t ∈ f.world.turns, t.stage.isFinished = true := List.all_eq_true.mp hclear
      exact ⟨hfin, h.unasked hfin⟩
  · rw [hturns]; exact h.spoken

theorem posts (hturns : f'.world.turns = f.world.turns) (hmessages : f'.messages = f.messages)
    (hdriven : f'.driven = f.driven) (hposts : f'.posts = f.posts + 1) (hlooks : f'.looks = f.looks) : Tidy f' := by
  refine ⟨?_, ?_, ?_, ?_, ?_, ?_, ?_, ?_, ?_, ?_⟩
  · rw [hturns]; exact h.one
  · rw [hturns, hmessages]; exact h.aligned
  · rw [hdriven]; exact h.once
  · rw [hdriven, hposts]
    exact fun m hm => (h.drivenBound m hm).trans (Nat.le_succ _)
  · rw [hmessages, hposts]
    exact fun m hm => (h.messageBound m hm).trans (Nat.le_succ _)
  · rw [hturns, hposts, hlooks]
    exact fun look hlook => ⟨(h.lookBound look hlook).1.trans (Nat.le_succ _), (h.lookBound look hlook).2⟩
  · rw [hturns, hmessages, hdriven]; exact h.waiting
  · rw [hdriven, hposts]
    intro hmem
    have := h.drivenBound _ hmem
    omega
  · rw [hturns, hdriven, hlooks]; exact h.looked
  · rw [hturns]; exact h.spoken

theorem starts {t : Turn} {look : Look} (ht : t.stage = .running .prompted) (hlook : some look ∈ f.looks)
    (hclear : look.clear = true) (hcount : look.turns = f.world.turns.length) (hunanswered : look.unanswered = true)
    (hturns : f'.world.turns = f.world.turns ++ [t]) (hmessages : f'.messages = f.messages ++ [look.post])
    (hdriven : f'.driven = f.driven) (hposts : f'.posts = f.posts) (hrows : f'.world.rows = f.world.rows)
    (hlooks : ∀ look, some look ∈ f'.looks → some look ∈ f.looks) : Tidy f' := by
  obtain ⟨hfin, hfresh⟩ := h.looked look hlook hclear hcount
  have hbound := (h.lookBound look hlook).1
  refine ⟨?_, ?_, ?_, ?_, ?_, ?_, ?_, ?_, ?_, ?_⟩
  · have hnone : f.world.turns.countP Turn.unfinished = 0 := by
      rw [List.countP_eq_zero]
      intro t ht
      simp [Turn.unfinished, hfin t ht]
    rw [hturns, List.countP_append, hnone, List.countP_singleton]
    split <;> omega
  · rw [hturns, hmessages, List.length_append, List.length_append, h.aligned]
    rfl
  · rw [hdriven]; exact h.once
  · rw [hdriven, hposts]; exact h.drivenBound
  · rw [hmessages, hposts]
    exact Pool.forall_concat h.messageBound hbound
  · rw [hturns, hposts, List.length_append, List.length_singleton]
    intro look' hlook'
    have := h.lookBound look' (hlooks look' hlook')
    exact ⟨this.1, by omega⟩
  · rw [hturns, hmessages, hdriven]
    intro i t' m ht' hprompted hm
    by_cases hi : i < f.world.turns.length
    · rw [List.getElem?_append_left hi] at ht'
      have := hfin t' (List.mem_of_getElem? ht')
      rw [Stage.unfinished_of_owes (Stage.owes_of_prompted hprompted)] at this
      cases this
    · have hlen := (List.getElem?_eq_some_iff.mp ht').1
      rw [List.length_append, List.length_singleton] at hlen
      obtain rfl : i = f.messages.length := by rw [h.aligned]; omega
      rw [List.getElem?_concat_length, Option.some.injEq] at hm
      exact hm ▸ hfresh hunanswered
  · rw [hturns, hmessages, hdriven, hposts, hrows]
    exact fun hmem hun => absurd hmem (h.unasked hfin hun)
  · rw [hturns, hdriven, List.length_append, List.length_singleton]
    intro look' hlook' _ hcount'
    have := (h.lookBound look' (hlooks look' hlook')).2
    omega
  · rw [hturns]
    refine Pool.forall_concat h.spoken ?_
    unfold Turn.Spoken
    rw [ht]
    trivial

theorem goes {i : Nat} {t t' : Turn} (ht : f.world.turns[i]? = some t) (howes : t.stage.owes = true)
    (howes' : t'.stage.owes = true) (hprompted : t'.stage.prompted = false) (hspoken : t.Spoken → t'.Spoken)
    (hturns : f'.world.turns = f.world.turns.set i t') (hmessages : f'.messages = f.messages)
    (hdriven : f'.driven = f.driven ++ f.asks i) (hposts : f'.posts = f.posts)
    (hrows : unanswered f'.world.rows = true → unanswered f.world.rows = true) (hlooks : f'.looks = f.looks) :
    Tidy f' := by
  have hopen := Stage.unfinished_of_owes howes
  have hopen' := Stage.unfinished_of_owes howes'
  have hlen : i < f.world.turns.length := (List.getElem?_eq_some_iff.mp ht).1
  have hasks : ∀ m ∈ f.asks i, t.stage.prompted = true ∧ f.messages[i]? = some m := by
    intro m hm
    unfold Floor.asks at hm
    rw [ht, Option.any_some] at hm
    split at hm
    · rename_i hp
      exact ⟨hp, by simpa using hm⟩
    · cases hm
  refine ⟨?_, ?_, ?_, ?_, ?_, ?_, ?_, ?_, ?_, ?_⟩
  · have hcount := Pool.countP_set Turn.unfinished ht t'
    have := h.one
    rw [if_pos (by simp [Turn.unfinished, hopen]), if_pos (by simp [Turn.unfinished, hopen'])] at hcount
    rw [hturns]
    omega
  · rw [hturns, hmessages, List.length_set]; exact h.aligned
  · rw [hdriven, List.nodup_append]
    refine ⟨h.once, ?_, ?_⟩
    · unfold Floor.asks
      split
      · cases f.messages[i]? <;> simp
      · exact List.nodup_nil
    · rintro m hm m' hm' rfl
      obtain ⟨hp, hmsg⟩ := hasks m hm'
      exact h.waiting i t m ht hp hmsg hm
  · rw [hdriven, hposts]
    intro m hm
    rcases List.mem_append.mp hm with hm | hm
    · exact h.drivenBound m hm
    · exact h.messageBound m (List.mem_of_getElem? (hasks m hm).2)
  · rw [hmessages, hposts]; exact h.messageBound
  · rw [hturns, hposts, hlooks, List.length_set]; exact h.lookBound
  · rw [hturns, hmessages, hdriven]
    intro j t₁ m ht₁ hp hm
    by_cases hne : i = j
    · subst hne
      rw [List.getElem?_set_self hlen, Option.some.injEq] at ht₁
      rw [← ht₁, hprompted] at hp
      cases hp
    · rw [List.getElem?_set_ne hne] at ht₁
      exact absurd (h.index_eq ht ht₁ hopen (Stage.unfinished_of_owes (Stage.owes_of_prompted hp))) hne
  · rw [hturns, hmessages, hdriven, hposts]
    intro hmem hun
    refine ⟨i, t', by rw [List.getElem?_set_self hlen], howes', ?_⟩
    rcases List.mem_append.mp hmem with hmem | hmem
    · obtain ⟨j, t₁, ht₁, howes₁, hmsg⟩ := h.answered hmem (hrows hun)
      rwa [h.index_eq ht ht₁ hopen (Stage.unfinished_of_owes howes₁)]
    · exact (hasks _ hmem).2
  · rw [hturns, hdriven, hlooks, List.length_set]
    intro look hlook hclear hcount
    have := (h.looked look hlook hclear hcount).1 t (List.mem_of_getElem? ht)
    rw [hopen] at this
    cases this
  · rw [hturns]
    exact Pool.forall_set h.spoken (hspoken (h.spoken t (List.mem_of_getElem? ht)))

theorem ends {i : Nat} {t t' : Turn} (ht : f.world.turns[i]? = some t) (hopen : t.stage.isFinished = false)
    (howes' : t'.stage.owes = false)
    (hanswers : t.stage.owes = true → t.stage.prompted = true ∨ unanswered f'.world.rows = false)
    (hturns : f'.world.turns = f.world.turns.set i t') (hmessages : f'.messages = f.messages)
    (hdriven : f'.driven = f.driven) (hposts : f'.posts = f.posts)
    (hrows : unanswered f'.world.rows = true → unanswered f.world.rows = true) (hlooks : f'.looks = f.looks) :
    Tidy f' := by
  have hlen : i < f.world.turns.length := (List.getElem?_eq_some_iff.mp ht).1
  have hnot : t'.stage.prompted = false := by
    cases hp : t'.stage.prompted with
    | false => rfl
    | true =>
      rw [Stage.owes_of_prompted hp] at howes'
      cases howes'
  refine ⟨?_, ?_, ?_, ?_, ?_, ?_, ?_, ?_, ?_, ?_⟩
  · have hcount := Pool.countP_set Turn.unfinished ht t'
    have := h.one
    rw [if_pos (by simp [Turn.unfinished, hopen])] at hcount
    rw [hturns]
    split at hcount <;> omega
  · rw [hturns, hmessages, List.length_set]; exact h.aligned
  · rw [hdriven]; exact h.once
  · rw [hdriven, hposts]; exact h.drivenBound
  · rw [hmessages, hposts]; exact h.messageBound
  · rw [hturns, hposts, hlooks, List.length_set]; exact h.lookBound
  · rw [hturns, hmessages, hdriven]
    intro j t₁ m ht₁ hp hm
    by_cases hne : i = j
    · subst hne
      rw [List.getElem?_set_self hlen, Option.some.injEq] at ht₁
      rw [← ht₁, hnot] at hp
      cases hp
    · rw [List.getElem?_set_ne hne] at ht₁
      exact h.waiting j t₁ m ht₁ hp hm
  · rw [hdriven, hposts]
    intro hmem hun
    -- The turn that was to answer the last message is the one that ends.
    obtain ⟨j, t₁, ht₁, howes₁, hmsg⟩ := h.answered hmem (hrows hun)
    obtain rfl := h.index_eq ht ht₁ hopen (Stage.unfinished_of_owes howes₁)
    obtain rfl : t = t₁ := Option.some.inj (ht.symm.trans ht₁)
    rcases hanswers howes₁ with hp | hun'
    · exact absurd hmem (h.waiting i t _ ht hp hmsg)
    · rw [hun'] at hun
      cases hun
  · rw [hturns, hdriven, hlooks, List.length_set]
    intro look hlook hclear hcount
    have := (h.looked look hlook hclear hcount).1 t (List.mem_of_getElem? ht)
    rw [hopen] at this
    cases this
  · rw [hturns]
    refine Pool.forall_set h.spoken ?_
    unfold Turn.Spoken
    split
    all_goals first | trivial | (rename_i hstage; rw [hstage] at howes'; cases howes')

theorem restarts (hfinished : ∀ t ∈ f.world.turns, t.stage.isFinished = true)
    (hturns : f'.world.turns = f.world.turns.map fun t => { t with stage := .finished })
    (hmessages : f'.messages = f.messages) (hdriven : f'.driven = f.driven) (hposts : f'.posts = f.posts)
    (hrows : f'.world.rows = f.world.rows) (hlooks : f'.looks = []) : Tidy f' := by
  refine ⟨?_, ?_, ?_, ?_, ?_, ?_, ?_, ?_, ?_, ?_⟩
  · rw [hturns, List.countP_map, List.countP_eq_zero.mpr (fun _ _ => by simp [Turn.unfinished, Stage.isFinished])]
    exact Nat.zero_le _
  · rw [hturns, hmessages, List.length_map]; exact h.aligned
  · rw [hdriven]; exact h.once
  · rw [hdriven, hposts]; exact h.drivenBound
  · rw [hmessages, hposts]; exact h.messageBound
  · rw [hlooks]
    intro look hlook
    cases hlook
  · rw [hturns]
    intro i t m ht hp
    rw [List.getElem?_map, Option.map_eq_some_iff] at ht
    obtain ⟨t₀, -, rfl⟩ := ht
    cases hp
  · rw [hdriven, hposts, hrows]
    exact fun hmem hun => absurd hmem (h.unasked hfinished hun)
  · rw [hlooks]
    intro look hlook
    cases hlook
  · rw [hturns]
    intro t ht
    obtain ⟨t₀, -, rfl⟩ := List.mem_map.mp ht
    trivial

theorem step {l : FloorStep} (hc : f.Orderly l) (hstep : f.step sf l = some f') : Tidy f' := by
  cases Floor.step_shifts h.spoken hc hstep with
  | rests h₁ h₂ h₃ h₄ h₅ h₆ _ => exact h.rests h₁ h₂ h₃ h₄ h₅ h₆
  | posts h₁ h₂ h₃ h₄ h₅ _ => exact h.posts h₁ h₂ h₃ h₄ h₅
  | starts t look ht h₁ h₂ h₃ h₄ h₅ h₆ h₇ h₈ h₉ h₁₀ _ => exact h.starts ht h₁ h₂ h₃ h₄ h₅ h₆ h₇ h₈ h₉ h₁₀
  | goes i ht h₁ h₂ h₃ h₄ h₅ h₆ h₇ h₈ h₉ h₁₀ _ => exact h.goes ht h₁ h₂ h₃ h₄ h₅ h₆ h₇ h₈ h₉ h₁₀
  | ends i ht h₁ h₂ h₃ h₄ h₅ h₆ h₇ h₈ h₉ _ => exact h.ends ht h₁ h₂ h₃ h₄ h₅ h₆ h₇ h₈ h₉
  | restarts h₁ h₂ h₃ h₄ h₅ h₆ h₇ => exact h.restarts h₁ h₂ h₃ h₄ h₅ h₆ h₇

end Tidy

theorem Tidy.start : Tidy {} := by
  refine ⟨Nat.zero_le _, rfl, List.nodup_nil, ?_, ?_, ?_, ?_, ?_, ?_, ?_⟩
  all_goals simp

/-! ## Every run -/

/-- One turn at most is not finished, no message is asked of a model twice, and the registry forgets a turn only when
that turn is over. -/
structure Exclusive (sf : Surface) (f : Floor) : Prop where
  one : ∀ (i j : Nat) (t t' : Turn), f.world.turns[i]? = some t → f.world.turns[j]? = some t' →
    t.stage.isFinished = false → t'.stage.isFinished = false → i = j
  once : f.driven.Nodup
  own : ∀ l f' e, f.Orderly l → f.step sf l = some f' → f.world.inflight = some e → f'.world.inflight = none →
    ∀ t ∈ f'.world.turns[e]?, t.stage.isFinished = true

theorem Tidy.forgets {l : FloorStep} {e : Nat} (h : Tidy f) (hc : f.Orderly l) (hstep : f.step sf l = some f')
    (he : f.world.inflight = some e) (hnone : f'.world.inflight = none) :
    ∀ t ∈ f'.world.turns[e]?, t.stage.isFinished = true := by
  intro t₁ ht₁
  cases Floor.step_shifts h.spoken hc hstep with
  | rests _ _ _ _ _ _ hinflight => cases he.symm.trans (hinflight hnone)
  | posts _ _ _ _ _ hinflight | starts _ _ _ _ _ _ _ _ _ _ _ _ _ hinflight
  | goes _ _ _ _ _ _ _ _ _ _ _ _ hinflight => cases he.symm.trans (hinflight.symm.trans hnone)
  | @ends i t t' ht hopen _ _ hturns _ _ _ _ _ hinflight =>
    have hfin := (hinflight hnone).resolve_left (by rw [he]; simp)
    rw [hturns, Option.mem_def] at ht₁
    by_cases hie : i = e
    · subst hie
      rw [List.getElem?_set_self (List.getElem?_eq_some_iff.mp ht).1, Option.some.injEq] at ht₁
      exact ht₁ ▸ hfin
    · rw [List.getElem?_set_ne hie] at ht₁
      by_contra hun
      exact hie (h.index_eq ht ht₁ hopen (by simpa using hun))
  | restarts _ hturns _ _ _ _ _ =>
    rw [hturns, List.getElem?_map, Option.mem_def, Option.map_eq_some_iff] at ht₁
    obtain ⟨t₀, -, rfl⟩ := ht₁
    rfl

def sampleAnswered (i : Nat) : List Step :=
  [.loop i (.taken true), .loop i (.turn { content := "Done.".toList }), .loop i (.taken true), .loop i (.taken true),
   .loop i (.taken true), .persist i true, .answer i .done]

/-- One message, one turn, and a page that is loaded again when it is answered. -/
def sampleOrderly : List FloorStep :=
  .store (.post "Close the case.".toList) :: sampleLoad.map .store ++ .insert 0 :: .store .openStream ::
    (sampleAnswered 0).map .store ++ sampleLoad.map .store

def sampleOverlap : List FloorStep :=
  .store (.post "Close the case.".toList) ::
    ([.openStream, .openStream, .readTranscript 0 true, .readTranscript 1 true, .consumePending 0 .done,
      .consumePending 1 .done] : List Step).map .store ++
    [.store (.plan 0), .insert 0, .store (.plan 0), .insert 1, .store (.loop 0 (.taken true)),
     .store (.loop 1 (.taken true))]

end BssCli.Cockpit
