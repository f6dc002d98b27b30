import BssCli.Agent.Trip

/-!
# How long a turn goes on

The loop has no limit of its own. A turn ends when the model calls no tool, when three calls in a row fail, or when three
calls in a row are the same. So the calls that succeed, and nothing else, bound a turn.
-/

open Text Steps

namespace BssCli.Agent

/-! ## What a turn asks for -/

namespace Effect

def thinks : Effect → Bool
  | .generate _ => true
  | _ => false

def starts : Effect → Bool
  | .emit (.toolCallStarted ..) => true
  | _ => false

/-- A call that is no failure for the bail-out. -/
def succeeds : Effect → Bool
  | .emit (.toolCallCompleted _ _ _ isError result) => !isFailureResult result isError
  | _ => false

def terminal : Effect → Bool
  | .emit (.error _) | .emit (.finalMessage _) => true
  | _ => false

end Effect

namespace Run

variable (r : Run)

def modelCalls : Nat := r.asked.countP Effect.thinks

/-- Also those that the gate refuses and those of a tool that is not there. -/
def toolCalls : Nat := r.asked.countP Effect.starts

def successes : Nat := r.asked.countP Effect.succeeds

end Run

/-! ## The account of a turn -/

/-- How much was asked for, at each point of the loop. The failures in a row are behind the last success. -/
def Paced (asked : List Effect) (s : Loop) : Prop :=
  let models := asked.countP Effect.thinks
  let calls := asked.countP Effect.starts
  let successes := asked.countP Effect.succeeds
  match s with
  | .prompted => models = 0 ∧ calls = 0 ∧ asked.length = 1
  | .thinking l =>
    models ≤ calls + 1 ∧ calls ≤ 3 * successes + l.consecutiveFailures ∧ l.consecutiveFailures ≤ 2 ∧
      asked.length ≤ 1 + models + 3 * calls
  | .starting l _ _ =>
    models ≤ calls ∧ calls ≤ 3 * successes + l.consecutiveFailures + 1 ∧ l.consecutiveFailures ≤ 2 ∧
      asked.length + 1 ≤ models + 3 * calls
  | .calling l _ _ =>
    models ≤ calls ∧ calls ≤ 3 * successes + l.consecutiveFailures + 1 ∧ l.consecutiveFailures ≤ 2 ∧
      asked.length ≤ models + 3 * calls
  | .completing l _ _ result isError =>
    models ≤ calls ∧ l.consecutiveFailures ≤ 2 ∧ asked.length ≤ 1 + models + 3 * calls ∧
      calls + (if isFailureResult result isError then 0 else 3) ≤ 3 * successes + l.consecutiveFailures + 1
  | .auditing _ | .counting _ =>
    models ≤ calls + 1 ∧ calls ≤ 3 * (successes + 1) ∧ asked.length ≤ 2 + models + 3 * calls
  | .failing _ | .answering _ | .ended =>
    models ≤ calls + 1 ∧ calls ≤ 3 * (successes + 1) ∧ asked.length ≤ 3 + models + 3 * calls

section

variable {lib : Library} {prompt : List Char} {cfg : Config} {asked : List Effect}

theorem counts_concat (p : Effect → Bool) (asked : List Effect) (e : Effect) :
    (asked ++ [e]).countP p = asked.countP p + if p e then 1 else 0 := by
  rw [List.countP_append, List.countP_singleton]

variable (prompt cfg) in
/-- What asking for one more effect does to the account. -/
theorem asked_counts (asked : List Effect) (s : Loop) {e : Effect} (h : s.effect prompt cfg = some e) :
    (Run.ask prompt cfg asked s).asked.length = asked.length + 1 ∧
      ∀ p : Effect → Bool, (Run.ask prompt cfg asked s).asked.countP p = asked.countP p + if p e then 1 else 0 := by
  have hasked : (Run.ask prompt cfg asked s).asked = asked ++ [e] := by
    rw [Run.ask, h]
    rfl
  rw [hasked]
  exact ⟨by simp, fun p => counts_concat p asked e⟩

/-- A call has ended and the loop goes on: to the next call, or to the model. -/
theorem paced_nextCall {l : Locals} (tcs : List ToolCall)
    (hmodels : asked.countP Effect.thinks ≤ asked.countP Effect.starts + (if tcs = [] then 0 else 1))
    (hcalls : asked.countP Effect.starts ≤ 3 * asked.countP Effect.succeeds + l.consecutiveFailures)
    (hfailures : l.consecutiveFailures ≤ 2)
    (hlength : asked.length ≤ 1 + asked.countP Effect.thinks + 3 * asked.countP Effect.starts) :
    Paced (Run.ask prompt cfg asked (nextCall l tcs)).asked (nextCall l tcs) := by
  cases tcs with
  | nil =>
    obtain ⟨hlen, hcount⟩ := asked_counts prompt cfg asked (.thinking l) rfl
    rw [if_pos rfl] at hmodels
    unfold nextCall Paced
    simp only [hlen, hcount, Effect.thinks, Effect.starts, Effect.succeeds, Bool.false_eq_true, if_true, if_false]
    omega
  | cons tc rest =>
    obtain ⟨hlen, hcount⟩ := asked_counts prompt cfg asked (.starting l tc rest) rfl
    rw [if_neg (List.cons_ne_nil tc rest)] at hmodels
    unfold nextCall Paced
    simp only [hlen, hcount, Effect.thinks, Effect.starts, Effect.succeeds, Bool.false_eq_true, if_true, if_false]
    omega

theorem paced_counting (l : Locals) (hmodels : asked.countP Effect.thinks ≤ asked.countP Effect.starts + 1)
    (hcalls : asked.countP Effect.starts ≤ 3 * (asked.countP Effect.succeeds + 1))
    (hlength : asked.length ≤ 1 + asked.countP Effect.thinks + 3 * asked.countP Effect.starts) :
    Paced (Run.ask prompt cfg asked (.counting l)).asked (.counting l) := by
  obtain ⟨hlen, hcount⟩ := asked_counts prompt cfg asked (.counting l) rfl
  unfold Paced
  simp only [hlen, hcount, Effect.thinks, Effect.starts, Effect.succeeds, turnUsage, Bool.false_eq_true, if_false]
  omega

theorem paced_afterTurn {l : Locals} (h : Paced asked (.thinking l)) (t : AiTurn) :
    Paced (Run.ask prompt cfg asked (afterTurn l t)).asked (afterTurn l t) := by
  obtain ⟨hmodels, hcalls, hfailures, hlength⟩ := h
  unfold afterTurn
  dsimp only
  split
  · exact paced_counting _ hmodels (by omega) hlength
  · rename_i hne
    refine paced_nextCall _ ?_ hcalls hfailures hlength
    rw [if_neg hne]
    exact hmodels

theorem paced_observe {l : Locals} {tc : ToolCall} {rest : List ToolCall} (result : List Char) (isError : Bool)
    (hmodels : asked.countP Effect.thinks ≤ asked.countP Effect.starts)
    (hcalls : asked.countP Effect.starts ≤ 3 * asked.countP Effect.succeeds + l.consecutiveFailures + 1)
    (hfailures : l.consecutiveFailures ≤ 2)
    (hlength : asked.length ≤ asked.countP Effect.thinks + 3 * asked.countP Effect.starts) :
    Paced (Run.ask prompt cfg asked (observe l tc rest result isError)).asked (observe l tc rest result isError) := by
  obtain ⟨hlen, hcount⟩ := asked_counts prompt cfg asked (observe l tc rest result isError) rfl
  unfold Paced observe
  unfold observe at hlen hcount
  cases hfail : isFailureResult result isError with
  | true =>
    simp only [hlen, hcount, hfail, Effect.thinks, Effect.starts, Effect.succeeds, Bool.not_true, Bool.false_eq_true,
      if_true, if_false]
    omega
  | false =>
    simp only [hlen, hcount, hfail, Effect.thinks, Effect.starts, Effect.succeeds, Bool.not_false, Bool.false_eq_true,
      if_true, if_false]
    omega

theorem execute_failures (lib : Library) (cfg : Config) (l : Locals) (tc : ToolCall) (rest : List ToolCall) :
    (∃ l' result isError, execute lib cfg l tc rest = observe l' tc rest result isError ∧
        l'.consecutiveFailures = l.consecutiveFailures) ∨
      ∃ l', execute lib cfg l tc rest = .calling l' tc rest ∧ l'.consecutiveFailures = l.consecutiveFailures := by
  unfold execute
  split
  · exact .inl ⟨l, _, _, rfl, rfl⟩
  · dsimp only
    split
    · exact .inr ⟨_, rfl, rfl⟩
    · exact .inl ⟨_, _, _, rfl, rfl⟩

theorem paced_execute {l : Locals} {tc : ToolCall} {rest : List ToolCall} (h : Paced asked (.starting l tc rest)) :
    Paced (Run.ask prompt cfg asked (execute lib cfg l tc rest)).asked (execute lib cfg l tc rest) := by
  obtain ⟨hmodels, hcalls, hfailures, hlength⟩ := h
  rcases execute_failures lib cfg l tc rest with ⟨l', result, isError, heq, hl'⟩ | ⟨l', heq, hl'⟩
  · rw [heq]
    exact paced_observe result isError hmodels (hl' ▸ hcalls) (hl' ▸ hfailures) (by omega)
  · rw [heq]
    obtain ⟨hlen, hcount⟩ := asked_counts prompt cfg asked (.calling l' tc rest) rfl
    unfold Paced
    simp only [hlen, hcount, Effect.thinks, Effect.starts, Effect.succeeds, Bool.false_eq_true, if_false]
    omega

/-- A loop that fails asks for one more effect, the error, or for two. -/
theorem paced_failing {message : String}
    (hmodels : asked.countP Effect.thinks ≤ asked.countP Effect.starts + 1)
    (hcalls : asked.countP Effect.starts ≤ 3 * (asked.countP Effect.succeeds + 1))
    (hlength : asked.length ≤ 2 + asked.countP Effect.thinks + 3 * asked.countP Effect.starts) :
    Paced (Run.ask prompt cfg asked (.failing message)).asked (.failing message) := by
  obtain ⟨hlen, hcount⟩ := asked_counts prompt cfg asked (.failing message) rfl
  unfold Paced
  simp only [hlen, hcount, Effect.thinks, Effect.starts, Effect.succeeds, Bool.false_eq_true, if_false]
  omega

/-- The third failure in a row does not get past the bail-out. -/
theorem failuresAfter_of_bailOut {l : Locals} {tc : ToolCall} {result : List Char} {isError : Bool}
    (h : bailOut lib l tc result isError = none) : failuresAfter l result isError ≤ 2 := by
  unfold bailOut at h
  split at h
  · cases h
  · rename_i hfew
    unfold maxConsecutiveToolFailures at hfew
    omega

theorem paced_afterCall {l : Locals} {tc : ToolCall} {rest : List ToolCall} {result : List Char} {isError : Bool}
    (h : Paced asked (.completing l tc rest result isError)) :
    Paced (Run.ask prompt cfg asked (afterCall lib cfg l tc rest result isError)).asked
      (afterCall lib cfg l tc rest result isError) := by
  obtain ⟨hmodels, hfailures, hlength, hcalls⟩ := h
  have hcalls' : asked.countP Effect.starts ≤ 3 * (asked.countP Effect.succeeds + 1) := by
    split at hcalls <;> omega
  unfold afterCall
  split
  · exact paced_failing (by omega) hcalls' (by omega)
  · rename_i hbail
    split
    · rename_i v _
      split
      · obtain ⟨hlen, hcount⟩ := asked_counts prompt cfg asked (.auditing v) rfl
        unfold Paced
        simp only [hlen, hcount, Effect.thinks, Effect.starts, Effect.succeeds, Bool.false_eq_true, if_false]
        omega
      · exact paced_failing (by omega) hcalls' (by omega)
    · refine paced_nextCall rest (by omega) ?_ (failuresAfter_of_bailOut hbail) hlength
      show asked.countP Effect.starts ≤ 3 * asked.countP Effect.succeeds + failuresAfter l result isError
      unfold failuresAfter
      split <;> rename_i hfail
      · rw [if_pos hfail] at hcalls
        omega
      · rw [if_neg hfail] at hcalls
        omega

theorem paced_ended (h : asked.countP Effect.thinks ≤ asked.countP Effect.starts + 1 ∧
      asked.countP Effect.starts ≤ 3 * (asked.countP Effect.succeeds + 1) ∧
      asked.length ≤ 3 + asked.countP Effect.thinks + 3 * asked.countP Effect.starts) :
    Paced (Run.ask prompt cfg asked .ended).asked .ended := by
  unfold Run.ask Loop.effect
  rw [Option.toList_none, List.append_nil]
  exact h

theorem paced_step {s s' : Loop} {a : Answer} (hp : Paced asked s) (h : s.step lib prompt cfg a = some s') :
    Paced (Run.ask prompt cfg asked s').asked s' := by
  unfold Loop.step at h
  split at h
  · obtain rfl := Option.some.inj h
    obtain ⟨hmodels, hcalls, hlength⟩ := hp
    split
    · exact paced_nextCall (l := { messages := initialMessages prompt cfg }) [] (by simp; omega) (by omega) (by simp)
        (by omega)
    · exact paced_ended (by omega)
  · obtain rfl := Option.some.inj h
    exact paced_afterTurn hp _
  · obtain rfl := Option.some.inj h
    split
    · exact paced_execute hp
    · obtain ⟨hmodels, hcalls, hfailures, hlength⟩ := hp
      exact paced_ended (by omega)
  · obtain rfl := Option.some.inj h
    obtain ⟨hmodels, hcalls, hfailures, hlength⟩ := hp
    exact paced_observe _ _ hmodels hcalls hfailures hlength
  · rename_i l tc rest result isError ok
    obtain rfl := Option.some.inj h
    split
    · exact paced_afterCall hp
    · obtain ⟨hmodels, hfailures, hlength, hcalls⟩ := hp
      refine paced_ended ⟨by omega, ?_, by omega⟩
      split at hcalls <;> omega
  · obtain rfl := Option.some.inj h
    obtain ⟨hmodels, hcalls, hlength⟩ := hp
    exact paced_failing hmodels hcalls hlength
  · obtain rfl := Option.some.inj h
    exact paced_ended hp
  · rename_i l ok
    obtain rfl := Option.some.inj h
    obtain ⟨hmodels, hcalls, hlength⟩ := hp
    split
    · obtain ⟨hlen, hcount⟩ := asked_counts prompt cfg asked (.answering l) rfl
      unfold Paced
      simp only [hlen, hcount, Effect.thinks, Effect.starts, Effect.succeeds, Bool.false_eq_true, if_false]
      omega
    · exact paced_ended (by omega)
  · obtain rfl := Option.some.inj h
    exact paced_ended hp
  · cases h

theorem run_paced {as : List Answer} {r : Run} (h : exec (Run.step lib prompt cfg) (.start prompt cfg) as = some r) :
    Paced r.asked r.loop := by
  have hstart : Paced (Run.start prompt cfg).asked (Run.start prompt cfg).loop := ⟨rfl, rfl, rfl⟩
  refine exec_inv (P := fun r => Paced r.asked r.loop) (fun r a r' hr hstep => ?_) hstart h
  obtain ⟨s', hs', rfl⟩ := Option.map_eq_some_iff.mp hstep
  exact paced_step hr hs'

theorem paced_bounds {s : Loop} (h : Paced asked s) :
    asked.countP Effect.thinks ≤ asked.countP Effect.starts + 1 ∧
      asked.countP Effect.starts ≤ 3 * (asked.countP Effect.succeeds + 1) ∧
      asked.length ≤ 3 + asked.countP Effect.thinks + 3 * asked.countP Effect.starts := by
  unfold Paced at h
  cases s with
  | completing l tc rest result isError =>
    obtain ⟨hmodels, hfailures, hlength, hcalls⟩ := h
    refine ⟨by omega, ?_, by omega⟩
    split at hcalls <;> omega
  | _ => omega

/-! ## The end of a turn -/

/-- The last effect is the one that the loop stands in front of. Behind the end it is a terminal event, or the consumer
has gone away. -/
def Closes (prompt : List Char) (cfg : Config) (as : List Answer) (r : Run) : Prop :=
  (∀ e, r.loop.effect prompt cfg = some e → r.asked.getLast? = some e) ∧
    (r.loop = .ended → .taken false ∈ as ∨ ∃ e ∈ r.asked.getLast?, e.terminal = true)

theorem ask_last (asked : List Effect) (s : Loop) (e : Effect) (h : s.effect prompt cfg = some e) :
    (Run.ask prompt cfg asked s).asked.getLast? = some e := by
  rw [Run.ask, h]
  exact List.getLast?_concat

/-- A loop ends in front of a terminal event, or when the sink says that nobody listens. -/
theorem step_ended {s : Loop} {a : Answer} (h : s.step lib prompt cfg a = some .ended) :
    a = .taken false ∨ ∃ e, s.effect prompt cfg = some e ∧ e.terminal = true := by
  have hcall : ∀ (l : Locals) (tcs : List ToolCall), nextCall l tcs ≠ .ended := by
    intro l tcs
    cases tcs <;> exact Loop.noConfusion
  unfold Loop.step at h
  split at h
  · split at h
    · cases h
    · rename_i ok hok
      exact .inl (by rw [Bool.not_eq_true] at hok; rw [hok])
  · rename_i l t
    have hafter : afterTurn l t ≠ .ended := by
      unfold afterTurn
      dsimp only
      split
      · exact Loop.noConfusion
      · exact hcall _ _
    exact absurd (Option.some.inj h) hafter
  · rename_i l tc rest ok
    split at h
    · rcases execute_failures lib cfg l tc rest with ⟨l', result, isError, heq, -⟩ | ⟨l', heq, -⟩
      · rw [heq] at h
        cases h
      · rw [heq] at h
        cases h
    · rename_i hok
      exact .inl (by rw [Bool.not_eq_true] at hok; rw [hok])
  · cases h
  · rename_i l tc rest result isError ok
    split at h
    · have hafter : afterCall lib cfg l tc rest result isError ≠ .ended := by
        unfold afterCall
        split
        · exact Loop.noConfusion
        · split
          · split <;> exact Loop.noConfusion
          · exact hcall _ _
      exact absurd (Option.some.inj h) hafter
    · rename_i hok
      exact .inl (by rw [Bool.not_eq_true] at hok; rw [hok])
  · cases h
  · exact .inr ⟨_, rfl, rfl⟩
  · split at h
    · cases h
    · rename_i ok hok
      exact .inl (by rw [Bool.not_eq_true] at hok; rw [hok])
  · exact .inr ⟨_, rfl, rfl⟩
  · cases h

theorem run_closes {as : List Answer} {r : Run} (h : exec (Run.step lib prompt cfg) (.start prompt cfg) as = some r) :
    Closes prompt cfg as r := by
  have hstart : Closes prompt cfg [] (.start prompt cfg) :=
    ⟨fun e he => ask_last [] _ e he, fun hended => by cases hended⟩
  refine exec_history (P := Closes prompt cfg) (fun as r a r' _ hr hstep => ?_) hstart h
  obtain ⟨s', hs', rfl⟩ := Option.map_eq_some_iff.mp hstep
  refine ⟨fun e he => ask_last _ _ e he, fun hended => ?_⟩
  obtain rfl : s' = .ended := hended
  rcases step_ended hs' with rfl | ⟨e, he, hterminal⟩
  · exact .inl (by simp)
  · refine .inr ⟨e, ?_, hterminal⟩
    rw [Run.ask, Loop.effect, Option.toList_none, List.append_nil]
    exact hr.1 e he

/-- Every step but the last one asks for an effect. -/
theorem run_length {as : List Answer} {r : Run} (h : exec (Run.step lib prompt cfg) (.start prompt cfg) as = some r) :
    as.length ≤ r.asked.length := by
  have hall : as.length ≤ r.asked.length ∧ (r.loop ≠ .ended → as.length + 1 ≤ r.asked.length) := by
    refine exec_history (P := fun as r => as.length ≤ r.asked.length ∧ (r.loop ≠ .ended → as.length + 1 ≤ r.asked.length))
      (fun as r a r' _ hr hstep => ?_) ⟨Nat.zero_le _, fun _ => Nat.le_refl 1⟩ h
    obtain ⟨s', hs', rfl⟩ := Option.map_eq_some_iff.mp hstep
    have hbefore : as.length + 1 ≤ r.asked.length := by
      refine hr.2 fun hended => ?_
      rw [hended] at hs'
      cases a <;> cases hs'
    rw [List.length_append, List.length_singleton]
    cases he : s'.effect prompt cfg with
    | none =>
      have hended : s' = .ended := by
        cases s' <;> first | rfl | cases he
      rw [hended, Run.ask, Loop.effect, Option.toList_none, List.append_nil]
      exact ⟨hbefore, fun hgoes => absurd rfl hgoes⟩
    | some e =>
      rw [(asked_counts _ _ r.asked _ he).1]
      exact ⟨by omega, fun _ => by omega⟩
  exact hall.1

/-- A turn that is not over waits for an answer, and for nothing else. -/
theorem step_isSome (lib : Library) (prompt : List Char) (cfg : Config) {s : Loop} (h : s ≠ .ended) :
    ∃ a s', s.step lib prompt cfg a = some s' := by
  cases s with
  | prompted => exact ⟨.taken true, _, rfl⟩
  | thinking l => exact ⟨.turn {}, _, rfl⟩
  | starting l tc rest => exact ⟨.taken true, _, rfl⟩
  | calling l tc rest => exact ⟨.observed [] false, _, rfl⟩
  | completing l tc rest result isError => exact ⟨.taken true, _, rfl⟩
  | auditing v => exact ⟨.recorded, _, rfl⟩
  | failing message => exact ⟨.taken true, _, rfl⟩
  | counting l => exact ⟨.taken true, _, rfl⟩
  | answering l => exact ⟨.taken true, _, rfl⟩
  | ended => exact absurd rfl h

/-! ## Calls that are the same -/

theorem record_same (t : IdenticalCallTracker) (name : String) (argsSig result : List Char) :
    ((t.record name argsSig result).record name argsSig result).repeats = (t.record name argsSig result).repeats + 1 := by
  have hlast : (t.record name argsSig result).lastKey = some (name, argsSig, result) := by
    unfold IdenticalCallTracker.record
    split
    · assumption
    · rfl
  conv_lhs => rw [IdenticalCallTracker.record, if_pos hlast]

/-- The third call with the same tool, arguments and result is the last one. -/
theorem afterCall_third {l : Locals} {t : IdenticalCallTracker} {tc : ToolCall} {result : List Char}
    (h : l.stuck = (t.record tc.name (lib.print tc.args) result).record tc.name (lib.print tc.args) result)
    (rest : List ToolCall) (isError : Bool) : ∃ message, afterCall lib cfg l tc rest result isError = .failing message := by
  have hpos : ∀ t : IdenticalCallTracker, 1 ≤ (t.record tc.name (lib.print tc.args) result).repeats := by
    intro t
    unfold IdenticalCallTracker.record
    split
    · exact Nat.le_add_left 1 _
    · exact Nat.le_refl 1
  have hthree : (stuckAfter lib l tc result).repeats ≥ maxConsecutiveIdenticalToolCalls := by
    have h1 := hpos t
    have h2 := record_same t tc.name (lib.print tc.args) result
    have h3 := record_same (t.record tc.name (lib.print tc.args) result) tc.name (lib.print tc.args) result
    unfold stuckAfter maxConsecutiveIdenticalToolCalls
    rw [h]
    omega
  unfold afterCall
  cases hbail : bailOut lib l tc result isError with
  | some message => exact ⟨message, rfl⟩
  | none =>
    unfold bailOut at hbail
    split at hbail
    · cases hbail
    · cases hbail

end

/-! ## A turn -/

/-- A turn is as long as its successful calls let it be, and its end is a terminal event. -/
theorem turn_bounded (lib : Library) (prompt : List Char) (cfg : Config) {as : List Answer} {r : Run}
    (h : exec (Run.step lib prompt cfg) (.start prompt cfg) as = some r) :
    (r.modelCalls ≤ r.toolCalls + 1 ∧ r.toolCalls ≤ 3 * (r.successes + 1) ∧ as.length ≤ 12 * r.successes + 16) ∧
      (r.loop ≠ .ended → ∃ a r', r.step lib prompt cfg a = some r') ∧
      (r.loop = .ended → .taken false ∈ as ∨ ∃ e ∈ r.asked.getLast?, e.terminal = true) ∧
      ∀ (t : IdenticalCallTracker) tc result,
        ((t.record tc.name (lib.print tc.args) result).record tc.name (lib.print tc.args) result).repeats =
            (t.record tc.name (lib.print tc.args) result).repeats + 1 ∧
          ∀ l rest isError,
            l.stuck = (t.record tc.name (lib.print tc.args) result).record tc.name (lib.print tc.args) result →
              ∃ message, afterCall lib cfg l tc rest result isError = .failing message := by
  obtain ⟨hmodels, hcalls, hasked⟩ := paced_bounds (run_paced h)
  have hlength := run_length h
  refine ⟨⟨hmodels, hcalls, ?_⟩, fun hgoes => ?_, (run_closes h).2, fun t tc result => ?_⟩
  · unfold Run.successes
    omega
  · obtain ⟨a, s', hs'⟩ := step_isSome lib prompt cfg hgoes
    exact ⟨a, _, Option.map_eq_some_iff.mpr ⟨s', hs', rfl⟩⟩
  · exact ⟨record_same t _ _ _, fun l rest isError hstuck => afterCall_third hstuck rest isError⟩

def sampleIdle : Config := { registry := fun _ => true }

/-- A call that succeeds, and a reply. -/
def sampleAnswered : List Answer :=
  .taken true :: sampleReturn "{}".toList false ++ [.taken true, .turn {}, .taken true, .taken true]

theorem turn_bounded_answered :
    ∃ r, exec (Run.step sampleLibrary [] sampleIdle) (.start [] sampleIdle) sampleAnswered = some r ∧
      r.loop = .ended ∧ r.successes = 1 ∧ r.toolCalls ≤ 6 ∧ sampleAnswered.length ≤ 28 := by
  obtain ⟨r, hrun, hended, hone⟩ :
      ∃ r, exec (Run.step sampleLibrary [] sampleIdle) (.start [] sampleIdle) sampleAnswered = some r ∧
        r.loop = .ended ∧ r.successes = 1 := ⟨_, rfl, rfl, by decide +kernel⟩
  obtain ⟨⟨-, hcalls, hlength⟩, -⟩ := turn_bounded sampleLibrary [] sampleIdle hrun
  rw [hone] at hcalls hlength
  exact ⟨r, hrun, hended, hone, hcalls, hlength⟩

/-! ## A model that goes on -/

section

variable {lib : Library} {prompt : List Char} {cfg : Config} {asked : List Effect} {l : Locals} {tc : ToolCall}
  {result : List Char}

variable (lib prompt asked l) in
/-- A call that succeeds, and is not the last one again, hands on to the next. -/
theorem goes_on (hactor : cfg.actor = "") (hknown : cfg.registry tc.name = true) (hread : isDestructive tc.name = false)
    (hfine : isFailureResult result false = false)
    (hfresh : l.stuck.lastKey ≠ some (tc.name, lib.print tc.args, result)) (rest : List ToolCall) :
    ∃ asked' l', exec (Run.step lib prompt cfg) ⟨asked, .starting l tc rest⟩
        [.taken true, .observed result false, .taken true] = some (.ask prompt cfg asked' (nextCall l' rest)) ∧
      l'.stuck.lastKey = some (tc.name, lib.print tc.args, result) ∧
      asked'.countP Effect.thinks = asked.countP Effect.thinks := by
  have hexecute : execute lib cfg l tc rest = .calling l tc rest := by
    unfold execute gateDestructive
    rw [if_pos hread]
    dsimp only
    rw [if_pos hknown]
  let key := (tc.name, lib.print tc.args, result)
  let observed : Locals := { l with messages := l.messages ++ [.tool tc.name tc.id result] }
  have hstuck : stuckAfter lib observed tc result = ⟨some key, 1⟩ := if_neg hfresh
  have hfailures : failuresAfter observed result false = 0 := by
    unfold failuresAfter
    rw [hfine]
    rfl
  have hafter : afterCall lib cfg observed tc rest result false =
      nextCall { observed with consecutiveFailures := 0, stuck := ⟨some key, 1⟩ } rest := by
    unfold afterCall bailOut tripWire
    rw [hstuck, hfailures, if_neg (by decide), if_neg (by simp [maxConsecutiveIdenticalToolCalls]),
      if_neg fun h => h.1 hactor]
  let completed : Effect := .emit (.toolCallCompleted tc.name tc.id (truncate result) false result)
  refine ⟨asked ++ [.call tc] ++ [completed], { observed with consecutiveFailures := 0, stuck := ⟨some key, 1⟩ }, ?_, ?_, ?_⟩
  · have hstart : Loop.step lib prompt cfg (.starting l tc rest) (.taken true) = some (.calling l tc rest) :=
      congrArg some hexecute
    have hcomplete : Loop.step lib prompt cfg (.completing observed tc rest result false) (.taken true) =
        some (nextCall { observed with consecutiveFailures := 0, stuck := ⟨some key, 1⟩ } rest) := congrArg some hafter
    rw [exec_cons]
    refine ⟨⟨asked ++ [.call tc], .calling l tc rest⟩, Option.map_eq_some_iff.mpr ⟨_, hstart, rfl⟩, ?_⟩
    rw [exec_cons]
    refine ⟨⟨asked ++ [.call tc] ++ [completed], .completing observed tc rest result false⟩, rfl, ?_⟩
    rw [exec_cons]
    exact ⟨_, Option.map_eq_some_iff.mpr ⟨_, hcomplete, rfl⟩, rfl⟩
  · rfl
  · rw [counts_concat, counts_concat]
    rfl

end

def sampleList : ToolCall := ⟨"call-2", "case.list_for_me", .obj []⟩

/-- Two calls in turn, again and again. -/
def sampleRound : List Answer :=
  [.turn { toolCalls := [sampleGet, sampleList] }, .taken true, .observed "{}".toList false, .taken true, .taken true,
    .observed "{}".toList false, .taken true]

def getKey : Option (String × List Char × List Char) := some (sampleGet.name, samplePrint sampleGet.args, "{}".toList)

theorem sampleRound_goes (asked : List Effect) {l : Locals} (hfresh : l.stuck.lastKey ≠ getKey) :
    ∃ asked' l', exec (Run.step sampleLibrary [] sampleIdle) (.ask [] sampleIdle asked (.thinking l)) sampleRound =
        some (.ask [] sampleIdle asked' (.thinking l')) ∧
      l'.stuck.lastKey ≠ getKey ∧ asked'.countP Effect.thinks = asked.countP Effect.thinks + 1 := by
  have hfine : isFailureResult "{}".toList false = false := by decide
  obtain ⟨l₁, hturn, hstuck₁⟩ : ∃ l₁, Loop.step sampleLibrary [] sampleIdle (.thinking l)
      (.turn { toolCalls := [sampleGet, sampleList] }) = some (.starting l₁ sampleGet [sampleList]) ∧ l₁.stuck = l.stuck :=
    ⟨_, rfl, rfl⟩
  obtain ⟨asked₂, l₂, hget, hkey₂, hcount₂⟩ := goes_on sampleLibrary []
    (asked ++ [.generate l.messages] ++ [.emit (.toolCallStarted sampleGet.name sampleGet.args sampleGet.id)]) l₁
    (show sampleIdle.actor = "" from rfl) rfl (show isDestructive sampleGet.name = false by decide) hfine
    (by rw [hstuck₁]; exact hfresh) [sampleList]
  obtain ⟨asked₃, l₃, hlist, hkey₃, hcount₃⟩ := goes_on sampleLibrary []
    (asked₂ ++ [.emit (.toolCallStarted sampleList.name sampleList.args sampleList.id)]) l₂
    (show sampleIdle.actor = "" from rfl) rfl (show isDestructive sampleList.name = false by decide) hfine
    (by rw [hkey₂]; decide) []
  refine ⟨asked₃, l₃, ?_, by rw [hkey₃]; decide, ?_⟩
  · have hround : sampleRound = [Answer.turn { toolCalls := [sampleGet, sampleList] }] ++
        ([.taken true, .observed "{}".toList false, .taken true] ++
          [.taken true, .observed "{}".toList false, .taken true]) := rfl
    rw [hround, exec_append]
    refine ⟨_, ?_, (exec_append ..).mpr ⟨_, hget, hlist⟩⟩
    rw [exec_cons]
    exact ⟨_, Option.map_eq_some_iff.mpr ⟨_, hturn, rfl⟩, rfl⟩
  · rw [hcount₃, counts_concat, hcount₂, counts_concat, counts_concat]
    rfl

theorem sampleRounds_go (n : Nat) : ∃ as asked l,
    exec (Run.step sampleLibrary [] sampleIdle) (.start [] sampleIdle) as = some (.ask [] sampleIdle asked (.thinking l)) ∧
      l.stuck.lastKey ≠ getKey ∧ asked.countP Effect.thinks = n := by
  induction n with
  | zero => exact ⟨[.taken true], _, _, rfl, by decide, rfl⟩
  | succ n ih =>
    obtain ⟨as, asked, l, hrun, hfresh, hcount⟩ := ih
    obtain ⟨asked', l', hround, hfresh', hcount'⟩ := sampleRound_goes asked hfresh
    exact ⟨as ++ sampleRound, asked', l', (exec_append ..).mpr ⟨_, hrun, hround⟩, hfresh', hcount' ▸ congrArg (· + 1) hcount⟩

def argsAB : Json := .obj [("a", .str "1"), ("b", .str "2")]

def argsBA : Json := .obj [("b", .str "2"), ("a", .str "1")]

/-- No bound on the calls of a turn. Arguments that are the same but for the order of their keys do not count as the same. -/
theorem turn_unbounded :
    (¬ ∃ bound, ∀ as r, exec (Run.step sampleLibrary [] sampleIdle) (.start [] sampleIdle) as = some r →
      r.modelCalls ≤ bound) ∧
    ((({} : IdenticalCallTracker).record "customer.get" (samplePrint argsAB) []).record "customer.get"
      (samplePrint argsBA) []).repeats = 1 := by
  refine ⟨?_, by decide⟩
  rintro ⟨bound, hbound⟩
  obtain ⟨as, asked, l, hrun, -, hcount⟩ := sampleRounds_go bound
  have hle := hbound as _ hrun
  unfold Run.modelCalls at hle
  rw [(asked_counts _ _ asked _ rfl).2, hcount] at hle
  simp [Effect.thinks] at hle

end BssCli.Agent
