import BssCli.Agent.Loop

/-!
# The trip-wire ends the turn

What a turn asks of the world, in order. A tool's result with a leaf that is not the acting customer is the last thing in
front of the error that ends the turn.
-/

open Text Steps

namespace BssCli.Agent

/-! ## Runs with their effects -/

/-- A turn, with everything that it has asked for. -/
structure Run where
  asked : List Effect
  loop : Loop

section
variable (lib : Library) (prompt : List Char) (cfg : Config)

def Run.ask (asked : List Effect) (s : Loop) : Run := ⟨asked ++ (s.effect prompt cfg).toList, s⟩

def Run.start : Run := .ask prompt cfg [] .prompted

def Run.step (r : Run) (a : Answer) : Option Run := (r.loop.step lib prompt cfg a).map (.ask prompt cfg r.asked)

/-- The result of a call that the trip-wire looks at has a leaf of somebody else. -/
def Foreign (tc : ToolCall) (result : List Char) (isError : Bool) : Prop :=
  cfg.actor ≠ "" ∧ isError = false ∧ tc.name ≠ "" ∧ HasForeignLeaf cfg.ownership lib.parse tc.name result cfg.actor

/-- A violation of the call: the tool, the actor, and a leaf that is not the actor. -/
structure Violates (tc : ToolCall) (result : List Char) (v : OwnershipViolation) : Prop where
  tool : v.toolName = tc.name
  actor : v.actor = cfg.actor
  leaf : ∃ paths parsed, pathsFor cfg.ownership tc.name = some paths ∧ lib.parse result = some parsed ∧
    ∃ path ∈ paths, Leaf (pathParts path) parsed v.found ∧ foreign cfg.actor v.found = true

/-- The audit of a violation, and the error that ends the turn. -/
def violationEffects (v : OwnershipViolation) : List Effect :=
  (if cfg.crmAudit then [.recordViolation v] else []) ++ [.emit (.error ("AgentOwnershipViolation: " ++ v.toolName))]

/-- What ends a turn behind a foreign result: the error of a bail-out that fires on this very call, or the violation. -/
def EndsWith (l : Locals) (tc : ToolCall) (result : List Char) (ending : List Effect) : Prop :=
  (∃ message, bailOut lib l tc result false = some message ∧ ending = [.emit (.error message)]) ∨
    bailOut lib l tc result false = none ∧ ∃ v, Violates lib cfg tc result v ∧ ending = violationEffects cfg v

/-- A tool's message that the model may see: its result was shown before, and it is not a foreign one. -/
def Harmless (asked : List Effect) (m : ChatMessage) : Prop :=
  ∃ tc result shown isError, .emit (.toolCallCompleted tc.name tc.id shown isError result) ∈ asked ∧
    m = .tool tc.name tc.id result ∧ ¬ Foreign lib cfg tc result isError

/-- No foreign result goes to the model, and a foreign result ends the turn. -/
structure Run.Guarded (r : Run) : Prop where
  sent : ∀ pre messages post, r.asked = pre ++ .generate messages :: post →
    ∀ m ∈ messages, m.role = .tool → Harmless lib cfg pre m
  ends : ∀ l tc rest result isError, r.loop = .completing l tc rest result isError → Foreign lib cfg tc result isError →
    ∀ as r', exec (Run.step lib prompt cfg) r as = some r' →
      ∃ ending behind, EndsWith lib cfg l tc result ending ∧ r'.asked = r.asked ++ behind ∧ behind <+: ending ∧
        (as.head? = some (.taken true) → r'.loop = .ended → behind = ending)

variable {lib : Library} {prompt : List Char} {cfg : Config}

/-! ## What the trip-wire sees -/

theorem tripWire_isSome_iff {tc : ToolCall} {result : List Char} {isError : Bool} :
    (tripWire lib cfg tc result isError).isSome = true ↔ Foreign lib cfg tc result isError := by
  unfold tripWire Foreign
  split
  · rename_i h
    rw [assertOwnedOutput_isSome_iff]
    exact ⟨fun hleaf => ⟨h.1, h.2.1, h.2.2, hleaf⟩, fun h => h.2.2.2⟩
  · rename_i h
    exact iff_of_false (by simp) fun hf => h ⟨hf.1, hf.2.1, hf.2.2.1⟩

theorem violates_of_assertOwnedOutput {tc : ToolCall} {result : List Char} {v : OwnershipViolation}
    (h : assertOwnedOutput cfg.ownership lib.parse tc.name result cfg.actor = some v) : Violates lib cfg tc result v := by
  unfold assertOwnedOutput at h
  split at h
  · rename_i paths parsed hpaths hparsed
    obtain ⟨path, hpath, hv⟩ := List.exists_of_findSome?_eq_some h
    obtain ⟨leaf, hleaf, rfl⟩ := Option.map_eq_some_iff.mp hv
    have hforeign : foreign cfg.actor leaf.2 = true := by simpa using List.find?_some hleaf
    refine ⟨rfl, rfl, paths, parsed, hpaths, hparsed, path, hpath, ?_, hforeign⟩
    exact exists_walk_iff.mp ⟨leaf, List.mem_of_find?_eq_some hleaf, rfl⟩
  · cases h

theorem violates_of_tripWire {tc : ToolCall} {result : List Char} {isError : Bool} {v : OwnershipViolation}
    (h : tripWire lib cfg tc result isError = some v) : Violates lib cfg tc result v := by
  unfold tripWire at h
  split at h
  · exact violates_of_assertOwnedOutput h
  · cases h

/-! ## The end of a turn -/

/-- What a turn that has failed asks for, from where it is. -/
def Loop.ending : Loop → Option (List Effect)
  | .auditing v => some [.recordViolation v, .emit (.error ("AgentOwnershipViolation: " ++ v.toolName))]
  | .failing message => some [.emit (.error message)]
  | .ended => some []
  | _ => none

theorem Loop.ending_step {s s' : Loop} {a : Answer} {es : List Effect} (hes : s.ending = some es)
    (h : s.step lib prompt cfg a = some s') :
    ∃ es', s'.ending = some es' ∧ es = (s.effect prompt cfg).toList ++ es' := by
  cases s with
  | auditing v =>
    obtain rfl := Option.some.inj hes
    cases a with
    | recorded =>
      obtain rfl := Option.some.inj h
      exact ⟨_, rfl, rfl⟩
    | _ => cases h
  | failing message =>
    obtain rfl := Option.some.inj hes
    cases a with
    | taken ok =>
      obtain rfl := Option.some.inj h
      exact ⟨_, rfl, rfl⟩
    | _ => cases h
  | ended => cases a <;> cases h
  | _ => cases hes

theorem Loop.ending_effect (prompt : List Char) (cfg : Config) {s : Loop} {es : List Effect} (hes : s.ending = some es) :
    (s.effect prompt cfg).toList <+: es ∧ (s = .ended → es = []) := by
  cases s with
  | auditing v =>
    obtain rfl := Option.some.inj hes
    exact ⟨⟨_, rfl⟩, fun h => nomatch h⟩
  | failing message =>
    obtain rfl := Option.some.inj hes
    exact ⟨⟨_, rfl⟩, fun h => nomatch h⟩
  | ended =>
    obtain rfl := Option.some.inj hes
    exact ⟨⟨_, rfl⟩, fun _ => rfl⟩
  | _ => cases hes

/-- A run of a failed turn asks for the rest of its ending, and for no more. -/
theorem exec_ending {as : List Answer} {s : Loop} {asked es : List Effect} {r' : Run} (hes : s.ending = some es)
    (h : exec (Run.step lib prompt cfg) ⟨asked ++ (s.effect prompt cfg).toList, s⟩ as = some r') :
    ∃ behind, r'.asked = asked ++ behind ∧ behind <+: es ∧ (r'.loop = .ended → behind = es) := by
  induction as generalizing s asked es with
  | nil =>
    obtain rfl := Option.some.inj h
    obtain ⟨hpre, hended⟩ := Loop.ending_effect prompt cfg hes
    refine ⟨_, rfl, hpre, fun hs => ?_⟩
    rw [hended hs] at hpre ⊢
    exact List.prefix_nil.mp hpre
  | cons a as ih =>
    obtain ⟨r₁, hstep, hrest⟩ := (exec_cons ..).mp h
    obtain ⟨s', hs', rfl⟩ := Option.map_eq_some_iff.mp hstep
    obtain ⟨es', hes', rfl⟩ := Loop.ending_step hes hs'
    obtain ⟨behind, hasked, hpre, hended⟩ := ih hes' hrest
    refine ⟨(s.effect prompt cfg).toList ++ behind, ?_, ?_, fun hs => ?_⟩
    · rw [hasked, List.append_assoc]
    · exact (List.prefix_append_right_inj _).mpr hpre
    · rw [hended hs]

theorem afterCall_ending (l : Locals) {tc : ToolCall} (rest : List ToolCall) {result : List Char} {isError : Bool}
    (h : Foreign lib cfg tc result isError) :
    ∃ ending, EndsWith lib cfg l tc result ending ∧ (afterCall lib cfg l tc rest result isError).ending = some ending := by
  have herror : isError = false := h.2.1
  subst herror
  unfold afterCall
  cases hbail : bailOut lib l tc result false with
  | some message => exact ⟨_, .inl ⟨message, hbail, rfl⟩, rfl⟩
  | none =>
    obtain ⟨v, hv⟩ := Option.isSome_iff_exists.mp (tripWire_isSome_iff.mpr h)
    rw [hv]
    refine ⟨_, .inr ⟨hbail, v, violates_of_tripWire hv, rfl⟩, ?_⟩
    unfold violationEffects
    dsimp only
    split
    · rfl
    · rfl

theorem foreign_ends {l : Locals} {tc : ToolCall} {rest : List ToolCall} {result : List Char} {isError : Bool}
    {asked : List Effect} {as : List Answer} {r' : Run} (hforeign : Foreign lib cfg tc result isError)
    (h : exec (Run.step lib prompt cfg) ⟨asked, .completing l tc rest result isError⟩ as = some r') :
    ∃ ending behind, EndsWith lib cfg l tc result ending ∧ r'.asked = asked ++ behind ∧ behind <+: ending ∧
      (as.head? = some (.taken true) → r'.loop = .ended → behind = ending) := by
  obtain ⟨ending, hending, hafter⟩ := afterCall_ending l rest hforeign
  cases as with
  | nil =>
    obtain rfl := Option.some.inj h
    exact ⟨ending, [], hending, (List.append_nil _).symm, List.nil_prefix, fun hhead => nomatch hhead⟩
  | cons a as =>
    obtain ⟨r₁, hstep, hrest⟩ := (exec_cons ..).mp h
    obtain ⟨s', hs', rfl⟩ := Option.map_eq_some_iff.mp hstep
    cases a with
    | taken ok =>
      obtain rfl := Option.some.inj hs'
      cases ok with
      | true =>
        obtain ⟨behind, hasked, hpre, hended⟩ := exec_ending hafter hrest
        exact ⟨ending, behind, hending, hasked, hpre, fun _ => hended⟩
      | false =>
        obtain ⟨behind, hasked, hpre, -⟩ := exec_ending (s := .ended) rfl hrest
        rw [List.prefix_nil.mp hpre] at hasked
        exact ⟨ending, [], hending, hasked, List.nil_prefix, fun hhead => by simp at hhead⟩
    | _ => cases hs'

/-! ## What the model is sent -/

section
variable (lib : Library) (cfg : Config)

def AllHarmless (asked : List Effect) (messages : List ChatMessage) : Prop :=
  ∀ m ∈ messages, m.role = .tool → Harmless lib cfg asked m

/-- The messages of the turn, but for the result that is not yet looked at. -/
def Carries (asked : List Effect) : Loop → Prop
  | .thinking l | .starting l _ _ | .calling l _ _ => AllHarmless lib cfg asked l.messages
  | .completing l tc _ result _ =>
    ∃ messages, l.messages = messages ++ [.tool tc.name tc.id result] ∧ AllHarmless lib cfg asked messages
  | _ => True

def Sent (asked : List Effect) : Prop :=
  ∀ pre messages post, asked = pre ++ .generate messages :: post → AllHarmless lib cfg pre messages

end

theorem AllHarmless.mono {asked asked' : List Effect} {messages : List ChatMessage}
    (h : AllHarmless lib cfg asked messages) (hsub : asked ⊆ asked') : AllHarmless lib cfg asked' messages := by
  intro m hm hrole
  obtain ⟨tc, result, shown, isError, hmem, heq, hforeign⟩ := h m hm hrole
  exact ⟨tc, result, shown, isError, hsub hmem, heq, hforeign⟩

theorem AllHarmless.append {asked : List Effect} {xs ys : List ChatMessage} (hx : AllHarmless lib cfg asked xs)
    (hy : AllHarmless lib cfg asked ys) : AllHarmless lib cfg asked (xs ++ ys) := by
  intro m hm
  rcases List.mem_append.mp hm with hm | hm
  · exact hx m hm
  · exact hy m hm

theorem allHarmless_initial (asked : List Effect) : AllHarmless lib cfg asked (initialMessages prompt cfg) := by
  intro m hm hrole
  unfold initialMessages at hm
  rcases List.mem_append.mp hm with hm | hm
  · rcases List.mem_cons.mp hm with rfl | hm
    · cases hrole
    · exact absurd hrole (messagesFromTranscript_role hm)
  · rw [List.mem_singleton.mp hm] at hrole
    cases hrole

theorem Carries.mono {asked asked' : List Effect} {s : Loop} (h : Carries lib cfg asked s) (hsub : asked ⊆ asked') :
    Carries lib cfg asked' s := by
  cases s with
  | thinking l => exact AllHarmless.mono h hsub
  | starting l tc rest => exact AllHarmless.mono h hsub
  | calling l tc rest => exact AllHarmless.mono h hsub
  | completing l tc rest result isError =>
    obtain ⟨messages, heq, hall⟩ := h
    exact ⟨messages, heq, hall.mono hsub⟩
  | _ => trivial

theorem carries_nextCall {asked : List Effect} {l : Locals} (h : AllHarmless lib cfg asked l.messages)
    (tcs : List ToolCall) : Carries lib cfg asked (nextCall l tcs) := by
  cases tcs with
  | nil => exact h
  | cons tc rest => exact h

theorem carries_afterTurn {asked : List Effect} {l : Locals} (h : AllHarmless lib cfg asked l.messages) (t : AiTurn) :
    Carries lib cfg asked (afterTurn l t) := by
  unfold afterTurn
  dsimp only
  split
  · trivial
  · refine carries_nextCall (h.append fun m hm hrole => ?_) _
    rw [List.mem_singleton.mp hm] at hrole
    cases hrole

/-- The result joins the others only when the trip-wire lets it through. -/
theorem carries_afterCall {asked : List Effect} {l : Locals} {tc : ToolCall} {rest : List ToolCall}
    {result shown : List Char} {isError : Bool} {messages : List ChatMessage}
    (hmessages : l.messages = messages ++ [.tool tc.name tc.id result]) (hall : AllHarmless lib cfg asked messages)
    (hshown : .emit (.toolCallCompleted tc.name tc.id shown isError result) ∈ asked) :
    Carries lib cfg asked (afterCall lib cfg l tc rest result isError) := by
  unfold afterCall
  split
  · trivial
  · split
    · split
      · trivial
      · trivial
    · rename_i hnone
      have hforeign : ¬ Foreign lib cfg tc result isError := fun h => by
        rw [← tripWire_isSome_iff, hnone] at h
        cases h
      refine carries_nextCall ?_ rest
      show AllHarmless lib cfg asked l.messages
      rw [hmessages]
      refine hall.append fun m hm _ => ?_
      rw [List.mem_singleton.mp hm]
      exact ⟨tc, result, shown, isError, hshown, rfl, hforeign⟩

theorem Carries.step {asked : List Effect} {s s' : Loop} {a : Answer} (h : Carries lib cfg asked s)
    (heffect : ∀ e, s.effect prompt cfg = some e → e ∈ asked) (hstep : s.step lib prompt cfg a = some s') :
    Carries lib cfg asked s' := by
  unfold Loop.step at hstep
  split at hstep
  · obtain rfl := Option.some.inj hstep
    split
    · exact allHarmless_initial asked
    · trivial
  · obtain rfl := Option.some.inj hstep
    exact carries_afterTurn h _
  · rename_i l tc rest ok
    obtain rfl := Option.some.inj hstep
    split
    · rcases execute_cases lib cfg l tc rest with
        ⟨l', result, isError, heq, hmessages, -⟩ | ⟨l', heq, hmessages, -⟩
      · rw [heq]
        exact ⟨l'.messages, rfl, hmessages ▸ h⟩
      · rw [heq]
        show AllHarmless lib cfg asked l'.messages
        exact hmessages ▸ h
    · trivial
  · obtain rfl := Option.some.inj hstep
    exact ⟨_, rfl, h⟩
  · rename_i l tc rest result isError ok
    obtain rfl := Option.some.inj hstep
    obtain ⟨messages, hmessages, hall⟩ := h
    split
    · exact carries_afterCall hmessages hall (heffect _ rfl)
    · trivial
  · obtain rfl := Option.some.inj hstep
    trivial
  · obtain rfl := Option.some.inj hstep
    trivial
  · obtain rfl := Option.some.inj hstep
    split
    · trivial
    · trivial
  · obtain rfl := Option.some.inj hstep
    trivial
  · cases hstep

theorem Sent.concat {asked : List Effect} {e : Effect} (h : Sent lib cfg asked)
    (he : ∀ messages, e = .generate messages → AllHarmless lib cfg asked messages) : Sent lib cfg (asked ++ [e]) := by
  intro pre messages post heq
  rcases List.eq_nil_or_concat post with rfl | ⟨rest, x, rfl⟩
  · obtain ⟨rfl, hlast⟩ := List.append_inj' heq rfl
    exact he messages (List.cons.inj hlast).1
  · rw [List.concat_eq_append, ← List.cons_append, ← List.append_assoc] at heq
    exact h pre messages rest (List.append_inj' heq rfl).1

/-- What a run keeps. -/
structure Accounted (lib : Library) (prompt : List Char) (cfg : Config) (r : Run) : Prop where
  sent : Sent lib cfg r.asked
  carries : Carries lib cfg r.asked r.loop
  effect : ∀ e, r.loop.effect prompt cfg = some e → e ∈ r.asked

theorem Accounted.ask {asked : List Effect} {s : Loop} (hsent : Sent lib cfg asked) (hcarries : Carries lib cfg asked s) :
    Accounted lib prompt cfg (.ask prompt cfg asked s) := by
  unfold Run.ask
  cases he : s.effect prompt cfg with
  | none =>
    rw [Option.toList_none, List.append_nil]
    exact ⟨hsent, hcarries, fun e heff => by rw [he] at heff; cases heff⟩
  | some e =>
    refine ⟨hsent.concat fun messages hgen => ?_, hcarries.mono (List.subset_append_left ..), fun e' heff => ?_⟩
    · subst hgen
      cases s with
      | thinking l =>
        obtain rfl := Effect.generate.inj (Option.some.inj he)
        exact hcarries
      | _ => cases he
    · obtain rfl := Option.some.inj (he.symm.trans heff)
      exact List.mem_append_right _ (List.mem_singleton_self _)

theorem Accounted.step {r r' : Run} {a : Answer} (h : Accounted lib prompt cfg r)
    (hstep : r.step lib prompt cfg a = some r') : Accounted lib prompt cfg r' := by
  obtain ⟨s', hs', rfl⟩ := Option.map_eq_some_iff.mp hstep
  exact .ask h.sent (h.carries.step h.effect hs')

/-- Whatever the model answers and the tools return, and whatever paths are configured. -/
theorem foreign_results_guarded (lib : Library) (prompt : List Char) (cfg : Config) {as : List Answer} {r : Run}
    (h : exec (Run.step lib prompt cfg) (.start prompt cfg) as = some r) : r.Guarded lib prompt cfg := by
  have hstart : Accounted lib prompt cfg (.start prompt cfg) :=
    .ask (fun pre messages post heq => by simp at heq) trivial
  have hr : Accounted lib prompt cfg r := exec_inv (fun _ _ _ hr hstep => hr.step hstep) hstart h
  refine ⟨hr.sent, fun l tc rest result isError hloop hforeign bs r' hrest => ?_⟩
  obtain ⟨asked, loop⟩ := r
  obtain rfl : loop = .completing l tc rest result isError := hloop
  exact foreign_ends hforeign hrest

end

def sampleQuote (s : String) : List Char :=
  ['\"'] ++ s.toList.flatMap (fun c => if c = '\"' then ['\\', c] else [c]) ++ ['\"']

def samplePrint : Json → List Char
  | .obj fields =>
    ['\x7b'] ++ [','].intercalate (fields.map fun f => sampleQuote f.1 ++ [':'] ++ sampleQuote (f.2.asStr.getD "")) ++
      ['\x7d']
  | _ => "null".toList

def sampleLeak : Json := .obj [("id", .str "CUST-2")]

def sampleFailedLeak : Json := .obj [("error", .str "CLIENT_ERROR"), ("id", .str "CUST-2")]

def sampleUnknown : Json := .obj [("error", .str "KeyError"), ("detail", .str "Unknown tool: \"customer.get_mine\"")]

def sampleLibrary : Library where
  print := samplePrint
  parse := fun text => [sampleLeak, sampleFailedLeak, sampleUnknown].find? fun v => samplePrint v = text
  debug := fun name => "\"" ++ name ++ "\""

def sampleConfig : Config where
  actor := "CUST-1"
  crmAudit := true
  registry := fun _ => true

def sampleGet : ToolCall := ⟨"call-1", "customer.get_mine", .obj []⟩

def sampleReturn (result : List Char) (isError : Bool) : List Answer :=
  [.turn { toolCalls := [sampleGet] }, .taken true, .observed result isError]

def sampleAudited : List Answer :=
  .taken true :: sampleReturn (samplePrint sampleLeak) false ++ [.taken true, .recorded, .taken true]

theorem foreign_results_guarded_audited :
    ∃ r v, exec (Run.step sampleLibrary [] sampleConfig) (.start [] sampleConfig) sampleAudited = some r ∧
      r.asked[5]? = some (.recordViolation v) ∧ v.path = "id" ∧ r.Guarded sampleLibrary [] sampleConfig := by
  obtain ⟨r, v, hrun, hasked, hpath⟩ :
      ∃ r v, exec (Run.step sampleLibrary [] sampleConfig) (.start [] sampleConfig) sampleAudited = some r ∧
        r.asked[5]? = some (.recordViolation v) ∧ v.path = "id" := ⟨_, _, rfl, rfl, rfl⟩
  exact ⟨r, v, hrun, hasked, hpath, foreign_results_guarded sampleLibrary [] sampleConfig hrun⟩

section
variable (lib : Library) (cfg : Config) (r : Run)

def Run.ShowsNothing : Prop :=
  ∀ name id shown isError result, .emit (.toolCallCompleted name id shown isError result) ∈ r.asked →
    ¬ HasForeignLeaf cfg.ownership lib.parse name result cfg.actor

def Run.SendsNothing : Prop :=
  ∀ messages name id result, .generate messages ∈ r.asked → .tool name id result ∈ messages →
    ¬ HasForeignLeaf cfg.ownership lib.parse name result cfg.actor

def Effect.audits : Effect → Bool
  | .recordViolation _ => true
  | _ => false

/-- A turn that had a foreign result ends audited. -/
def Run.Audits : Prop :=
  ∀ name id shown isError result, .emit (.toolCallCompleted name id shown isError result) ∈ r.asked →
    HasForeignLeaf cfg.ownership lib.parse name result cfg.actor → r.loop = .ended → r.asked.any Effect.audits = true

end

/-- Two failures, and a third one with a foreign leaf. -/
def sampleStrikes : List Answer :=
  .taken true :: sampleReturn "{}".toList true ++ .taken true :: sampleReturn "{}".toList true ++
    .taken true :: sampleReturn (samplePrint sampleFailedLeak) false ++ [.taken true, .taken true]

/-- The texts of errors are configured to be the customer's. -/
def sampleErrorConfig : Config :=
  { sampleConfig with registry := fun _ => false, ownership := [("customer.get_mine", ["error"])] }

/-- A foreign result is shown before it is looked at. The third failure in a row ends the turn without the audit. An error
is not looked at, and goes to the model. -/
theorem foreign_results_leak :
    (∃ r, exec (Run.step sampleLibrary [] sampleConfig) (.start [] sampleConfig) sampleAudited = some r ∧
      ¬ r.ShowsNothing sampleLibrary sampleConfig) ∧
    (∃ r, exec (Run.step sampleLibrary [] sampleConfig) (.start [] sampleConfig) sampleStrikes = some r ∧
      ¬ r.Audits sampleLibrary sampleConfig) ∧
    ∃ r, exec (Run.step sampleLibrary [] sampleErrorConfig) (.start [] sampleErrorConfig)
        [.taken true, .turn { toolCalls := [sampleGet] }, .taken true, .taken true] = some r ∧
      ¬ r.SendsNothing sampleLibrary sampleErrorConfig := by
  refine ⟨⟨_, rfl, fun h => ?_⟩, ⟨_, rfl, fun h => ?_⟩, _, rfl, fun h => ?_⟩
  · refine h "customer.get_mine" "call-1" _ false (samplePrint sampleLeak) (List.mem_of_getElem? (i := 4) rfl) ?_
    exact assertOwnedOutput_isSome_iff.mp rfl
  · have haudit := h "customer.get_mine" "call-1" _ false (samplePrint sampleFailedLeak) (List.mem_of_getElem? (i := 12) rfl)
      (assertOwnedOutput_isSome_iff.mp rfl) rfl
    exact absurd haudit (by decide +kernel)
  · refine h _ "customer.get_mine" "call-1" (samplePrint sampleUnknown) (List.mem_of_getElem? (i := 4) rfl)
      (List.mem_of_getElem? (i := 3) rfl) ?_
    exact assertOwnedOutput_isSome_iff.mp rfl

end BssCli.Agent
