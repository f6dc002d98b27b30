import BssCli.Agent.Trip
import BssCli.Chat.Turns
import BssCli.Lib.Steps

/-!
# The chat caps

The hourly count is read when a message is posted, the run starts when its stream is opened, and is recorded when it has
answered.
-/

open BssCli.Agent Steps

namespace BssCli.Chat

/-! ## The law -/

/-- The turn can still start its run. -/
def ChatTurn.waits (t : ChatTurn) : Bool := t.held && t.runs = 0

def Stage.isOver : Stage → Bool
  | .closed => true
  | _ => false

def ChatRun.live (r : ChatRun) : Bool := !r.stage.isOver

def World.quota (w : World) : Quota where
  clock := w.clock
  waiting := w.turns.countP ChatTurn.waits
  running := w.runs.countP ChatRun.live
  starts := w.runs.map ChatRun.startedAt
  records := w.bucket

def cap (st : Settings) : Nat := st.limits.ratePerCustomerPerHour.toNat

/-- No hour has more runs than the cap, a turn starts one at most, and what has asked the model is recorded. -/
structure Capped (st : Settings) (w : World) : Prop where
  rate : ∀ t, Quota.inWindow (hours 1) (w.runs.map ChatRun.startedAt) t ≤ cap st
  once : ∀ t ∈ w.turns, t.runs ≤ 1
  recorded : ∀ (i : Nat) (r : ChatRun), w.runs[i]? = some r → r.stage.isOver = true → r.invoked = true → i ∈ w.ledger

/-- The client is there when a tool is started, and a result neither bails the loop out nor trips the wire. -/
def ChatRun.proceeds (lib : Library) (r : ChatRun) (streaming : Bool) : Bool :=
  match r.stage with
  | .running (.starting ..) => streaming
  | .running (.completing l tc _ result isError) =>
    (bailOut lib l tc result isError).isNone && (tripWire lib r.config tc result isError).isNone
  | _ => true

/-- A message is let in only when there is room for it beside what is let in and not recorded, a stream starts no second
run, and a run goes on to its answer. -/
def Meets (st : Settings) (w : World) : Step → Prop
  | .readCost i cost => ∀ post ∈ w.posts[i]?, (st.limits.check post.2 cost).allowed = true →
    Quota.HasRoom (hours 1) (cap st) w.quota
  | .stream i serves _ _ => ∀ t ∈ w.turns[i]?, t.held = true ∧ t.done = false ∧ serves = true → t.runs = 0
  | .run i _ streaming => ∀ r ∈ w.runs[i]?, r.proceeds st.library streaming = true
  | _ => True

instance (st : Settings) (w : World) : (l : Step) → Decidable (Meets st w l)
  | .readCost .. => inferInstanceAs (Decidable (∀ post ∈ _, _ → _))
  | .stream .. => inferInstanceAs (Decidable (∀ t ∈ _, _ → _))
  | .run .. => inferInstanceAs (Decidable (∀ r ∈ _, _))
  | .tick _ | .post _ | .record _ | .expire _ => inferInstanceAs (Decidable True)

/-! ## One run -/

/-- In front of the usage event. -/
def beforeUsage : Loop → Bool
  | .auditing _ | .failing _ | .answering _ | .ended => false
  | _ => true

/-- Behind it. -/
def afterUsage : Loop → Bool
  | .answering _ | .ended => true
  | _ => false

/-- A run on its way to its record. -/
def ChatRun.Sound (ledger : List Nat) (i : Nat) (r : ChatRun) : Prop :=
  match r.stage with
  | .running loop => beforeUsage loop = true ∨ afterUsage loop = true ∧ r.usage.isSome = true
  | .recording => True
  | .closed => i ∈ ledger

section Run

variable {lib : Library} {cfg : Config} {r r' : ChatRun} {a : Answer} {streaming : Bool} {ledger : List Nat} {i : Nat}

theorem beforeUsage_nextCall (l : Locals) (tcs : List ToolCall) : beforeUsage (nextCall l tcs) = true := by
  cases tcs with
  | nil => rfl
  | cons tc rest => rfl

theorem beforeUsage_afterTurn (l : Locals) (t : AiTurn) : beforeUsage (afterTurn l t) = true := by
  unfold afterTurn
  dsimp only
  split
  · rfl
  · exact beforeUsage_nextCall _ _

theorem beforeUsage_execute (l : Locals) (tc : ToolCall) (rest : List ToolCall) :
    beforeUsage (execute lib cfg l tc rest) = true := by
  rcases execute_cases lib cfg l tc rest with ⟨l', result, isError, heq, -⟩ | ⟨l', heq, -⟩
  · rw [heq]
    rfl
  · rw [heq]
    rfl

theorem beforeUsage_afterCall {l : Locals} {tc : ToolCall} {rest : List ToolCall} {result : List Char} {isError : Bool}
    (hbail : (bailOut lib l tc result isError).isNone = true)
    (htrip : (tripWire lib cfg tc result isError).isNone = true) :
    beforeUsage (afterCall lib cfg l tc rest result isError) = true := by
  unfold afterCall
  rw [Option.isNone_iff_eq_none.mp hbail, Option.isNone_iff_eq_none.mp htrip]
  exact beforeUsage_nextCall _ rest

theorem ChatRun.Sound.mono {ledger' : List Nat} (h : r.Sound ledger i) (hsub : ledger ⊆ ledger') : r.Sound ledger' i := by
  unfold ChatRun.Sound at *
  cases hstage : r.stage with
  | running loop => simpa only [hstage] using h
  | recording => trivial
  | closed =>
    rw [hstage] at h
    exact hsub h

/-- A run that proceeds is not over, and comes a step nearer to its record. -/
theorem ChatRun.Sound.advance (h : r.Sound ledger i) (hproceeds : r.proceeds lib streaming = true)
    (hadv : r.advance lib a streaming = some r') :
    r'.Sound ledger i ∧ r.live = true ∧ r'.live = true ∧ r'.startedAt = r.startedAt := by
  unfold ChatRun.advance at hadv
  unfold ChatRun.Sound at h
  unfold ChatRun.proceeds at hproceeds
  unfold ChatRun.live
  cases hstage : r.stage with
  | recording => simp only [hstage, reduceCtorEq] at hadv
  | closed => simp only [hstage, reduceCtorEq] at hadv
  | running loop =>
    rw [hstage] at hadv h hproceeds
    cases loop with
    | prompted =>
      obtain rfl := Option.some.inj hadv
      exact ⟨.inl rfl, rfl, rfl, rfl⟩
    | thinking l =>
      obtain ⟨loop', hstep, rfl⟩ := Option.map_eq_some_iff.mp hadv
      cases a with
      | turn t =>
        obtain rfl := Option.some.inj hstep
        exact ⟨.inl (beforeUsage_afterTurn l t), rfl, rfl, rfl⟩
      | _ => cases hstep
    | starting l tc rest =>
      obtain rfl : streaming = true := hproceeds
      obtain rfl := Option.some.inj hadv
      exact ⟨.inl (beforeUsage_execute l tc rest), rfl, rfl, rfl⟩
    | calling l tc rest =>
      obtain ⟨loop', hstep, rfl⟩ := Option.map_eq_some_iff.mp hadv
      cases a with
      | observed result isError =>
        obtain rfl := Option.some.inj hstep
        exact ⟨.inl rfl, rfl, rfl, rfl⟩
      | _ => cases hstep
    | completing l tc rest result isError =>
      obtain rfl := Option.some.inj hadv
      obtain ⟨hbail, htrip⟩ := (Bool.and_eq_true ..).mp hproceeds
      exact ⟨.inl (beforeUsage_afterCall hbail htrip), rfl, rfl, rfl⟩
    | auditing v => simp [beforeUsage, afterUsage] at h
    | failing message => simp [beforeUsage, afterUsage] at h
    | counting l =>
      obtain rfl := Option.some.inj hadv
      exact ⟨.inr ⟨rfl, rfl⟩, rfl, rfl, rfl⟩
    | answering l =>
      have husage : r.usage.isSome = true := by simpa [beforeUsage, afterUsage] using h
      obtain rfl := Option.some.inj hadv
      exact ⟨.inr ⟨rfl, husage⟩, rfl, rfl, rfl⟩
    | ended =>
      have husage : r.usage.isSome = true := by simpa [beforeUsage, afterUsage] using h
      obtain rfl := Option.some.inj hadv
      rw [husage]
      exact ⟨trivial, rfl, rfl, rfl⟩

end Run

/-! ## Every run -/

theorem since_prune {now t : Time} (h : now ≤ t + hours 1) (bucket : List Time) :
    Quota.since (prune now bucket) t = Quota.since bucket t := by
  induction bucket with
  | nil => rfl
  | cons x bucket ih =>
    unfold prune at ih ⊢
    rw [List.dropWhile_cons]
    split
    · rename_i hold
      have hx : x < now - hours 1 := by simpa using hold
      have hneg : ¬ t ≤ x := not_le.mpr (hx.trans_le (sub_le_iff_le_add.mpr h))
      rw [ih, Quota.since, Quota.since, List.countP_cons_of_neg (by simpa using hneg)]
    · rfl

/-- What a run of steps keeps. -/
structure CapInv (st : Settings) (w : World) : Prop where
  quota : Quota.Inv (hours 1) (cap st) w.quota
  once : ∀ t ∈ w.turns, t.runs ≤ 1
  runs : ∀ (i : Nat) (r : ChatRun), w.runs[i]? = some r → r.Sound w.ledger i

theorem CapInv.capped {st : Settings} {w : World} (h : CapInv st w) : Capped st w := by
  refine ⟨h.quota.bounded, h.once, fun i r hr hover _ => ?_⟩
  have hsound := h.runs i r hr
  unfold ChatRun.Sound at hsound
  cases hstage : r.stage with
  | closed => simpa only [hstage] using hsound
  | running loop =>
    rw [hstage] at hover
    cases hover
  | recording =>
    rw [hstage] at hover
    cases hover

section World

variable {st : Settings} {w : World} {i : Nat}

theorem World.countP_turnsAfter (turns : List ChatTurn) (r : ChatRun) :
    (World.turnsAfter turns r).countP ChatTurn.waits = turns.countP ChatTurn.waits := by
  unfold World.turnsAfter
  split
  · split
    · rename_i t ht
      exact Nat.add_right_cancel (Pool.countP_set ChatTurn.waits ht { t with done := true })
    · rfl
  · rfl

theorem World.once_turnsAfter {turns : List ChatTurn} (h : ∀ t ∈ turns, t.runs ≤ 1) (r : ChatRun) :
    ∀ t ∈ World.turnsAfter turns r, t.runs ≤ 1 := by
  unfold World.turnsAfter
  split
  · split
    · rename_i t ht
      exact Pool.forall_set h (h t (Pool.mem_of_getElem? ht))
    · exact h
  · exact h

theorem CapInv.start (h : CapInv st w) {t : ChatTurn} (ht : w.turns[i]? = some t) (hheld : t.held = true) (hruns : t.runs = 0)
    (systemPrompt transcript : List Char) : CapInv st (w.start st i t systemPrompt transcript) := by
  have hwaits : t.waits = true := by simp [ChatTurn.waits, hheld, hruns]
  have hcount := Pool.countP_set ChatTurn.waits ht { t with runs := t.runs + 1 }
  rw [if_pos hwaits, if_neg (by simp [ChatTurn.waits])] at hcount
  have hpos : 0 < w.quota.waiting := List.countP_pos_iff.mpr ⟨t, Pool.mem_of_getElem? ht, hwaits⟩
  have hquota : (w.start st i t systemPrompt transcript).quota = w.quota.start := by
    refine Quota.ext rfl ?_ ?_ ?_ rfl
    · show List.countP _ (w.turns.set i _) = List.countP _ w.turns - 1
      omega
    · simp [World.quota, World.start, Quota.start, ChatRun.live, Stage.isOver]
    · simp [World.quota, World.start, Quota.start]
  refine ⟨hquota ▸ h.quota.start hpos, Pool.forall_set h.once ?_, fun j r hr => ?_⟩
  · show t.runs + 1 ≤ 1
    omega
  · rcases List.getElem?_append .. ▸ hr with hr
    split at hr
    · exact h.runs j r hr
    · obtain ⟨-, rfl⟩ := List.getElem?_eq_some_iff.mp hr
      rw [List.getElem_singleton]
      exact .inl rfl

theorem CapInv.run (h : CapInv st w) {r r' : ChatRun} {a : Answer} {streaming : Bool} (hr : w.runs[i]? = some r)
    (hproceeds : r.proceeds st.library streaming = true) (hadv : r.advance st.library a streaming = some r') :
    CapInv st { w with runs := w.runs.set i r', turns := World.turnsAfter w.turns r } := by
  obtain ⟨hsound, hlive, hlive', hstart⟩ := (h.runs i r hr).advance hproceeds hadv
  have hruns := Pool.countP_set ChatRun.live hr r'
  rw [if_pos hlive, if_pos hlive'] at hruns
  have hquota : World.quota { w with runs := w.runs.set i r', turns := World.turnsAfter w.turns r } = w.quota :=
    Quota.ext rfl (World.countP_turnsAfter ..) (Nat.add_right_cancel hruns) (Pool.map_set hr hstart) rfl
  refine ⟨hquota ▸ h.quota, World.once_turnsAfter h.once r, fun j u hu => ?_⟩
  rw [List.getElem?_set] at hu
  split at hu
  · rename_i hij
    subst hij
    have hlen : i < w.runs.length := (List.getElem?_eq_some_iff.mp hr).1
    obtain rfl : r' = u := by simpa [hlen] using hu
    exact hsound
  · exact h.runs j u hu

theorem CapInv.record (h : CapInv st w) {r : ChatRun} (hr : w.runs[i]? = some r) (hstage : r.stage = .recording) :
    CapInv st { w with
      bucket := prune w.clock (w.bucket ++ [w.clock])
      runs := w.runs.set i { r with stage := .closed }
      ledger := w.ledger ++ [i] } := by
  have hlive : r.live = true := by simp [ChatRun.live, hstage, Stage.isOver]
  have hruns := Pool.countP_set ChatRun.live hr { r with stage := .closed }
  rw [if_pos hlive, if_neg (by simp [ChatRun.live, Stage.isOver])] at hruns
  have hpos : 0 < w.quota.running := List.countP_pos_iff.mpr ⟨r, Pool.mem_of_getElem? hr, hlive⟩
  have hquota : World.quota { w with
      bucket := prune w.clock (w.bucket ++ [w.clock])
      runs := w.runs.set i { r with stage := .closed }
      ledger := w.ledger ++ [i] } =
        { w.quota.record with records := prune w.clock w.quota.record.records } := by
    refine Quota.ext rfl rfl ?_ (Pool.map_set hr rfl) rfl
    show List.countP _ (w.runs.set i _) = List.countP _ w.runs - 1
    omega
  refine ⟨hquota ▸ (h.quota.record hpos).prune fun t ht => since_prune ht _, h.once, fun j u hu => ?_⟩
  rw [List.getElem?_set] at hu
  split at hu
  · rename_i hij
    subst hij
    have hlen : i < w.runs.length := (List.getElem?_eq_some_iff.mp hr).1
    obtain rfl : { r with stage := .closed } = u := by simpa [hlen] using hu
    exact List.mem_append_right _ (List.mem_singleton_self _)
  · exact (h.runs j u hu).mono (List.subset_append_left ..)

theorem CapInv.quiet {w' : World} (h : CapInv st w) (hquota : Quota.Inv (hours 1) (cap st) w'.quota)
    (hturns : ∀ t ∈ w'.turns, t.runs ≤ 1) (hruns : w'.runs = w.runs) (hledger : w'.ledger = w.ledger) : CapInv st w' := by
  refine ⟨hquota, hturns, fun i r hr => ?_⟩
  rw [hledger]
  exact h.runs i r (hruns ▸ hr)

theorem CapInv.step {w' : World} {l : Step} (h : CapInv st w) (hmeets : Meets st w l) (hstep : w.step st l = some w') :
    CapInv st w' := by
  cases l with
  | tick now =>
    obtain ⟨hnow, hstep⟩ := Option.ite_none_right_eq_some.mp hstep
    obtain rfl := Option.some.inj hstep
    exact h.quiet (h.quota.tick hnow) h.once rfl rfl
  | post message =>
    have hpruned : Quota.Inv (hours 1) (cap st) { w.quota with records := prune w.clock w.bucket } :=
      h.quota.prune fun t ht => since_prune ht _
    simp only [World.step] at hstep
    split at hstep
    · obtain rfl := Option.some.inj hstep
      exact h
    · split at hstep
      all_goals
        obtain rfl := Option.some.inj hstep
        exact h.quiet hpruned h.once rfl rfl
  | readCost i cost =>
    obtain ⟨post, hpost, rfl⟩ := Option.map_eq_some_iff.mp hstep
    dsimp only
    split
    · rename_i hallowed
      have hletIn := h.quota.letIn (hmeets post hpost hallowed)
      refine h.quiet ?_ (Pool.forall_concat h.once (Nat.zero_le _)) rfl rfl
      convert hletIn using 1
      refine Quota.ext rfl ?_ rfl rfl rfl
      simp [World.quota, Quota.letIn, ChatTurn.waits]
    · exact h.quiet h.quota h.once rfl rfl
  | stream i serves systemPrompt transcript =>
    simp only [World.step] at hstep
    split at hstep
    · rename_i t ht
      split at hstep
      · rename_i hstarts
        obtain rfl := Option.some.inj hstep
        exact h.start ht hstarts.1 (hmeets t ht hstarts) systemPrompt transcript
      · obtain rfl := Option.some.inj hstep
        exact h
    · obtain rfl := Option.some.inj hstep
      exact h
  | run i a streaming =>
    obtain ⟨r, hr, hstep⟩ := Option.bind_eq_some_iff.mp hstep
    obtain ⟨r', hadv, rfl⟩ := Option.map_eq_some_iff.mp hstep
    exact h.run hr (hmeets r hr) hadv
  | record i =>
    simp only [World.step] at hstep
    split at hstep
    · rename_i r hr
      split at hstep
      · rename_i hstage
        obtain rfl := Option.some.inj hstep
        exact h.record hr hstage
      · cases hstep
    · cases hstep
  | expire i =>
    obtain ⟨t, ht, rfl⟩ := Option.map_eq_some_iff.mp hstep
    have hcount := Pool.countP_set ChatTurn.waits ht { t with held := false }
    have hgone : ChatTurn.waits { t with held := false } = false := by simp [ChatTurn.waits]
    simp only [hgone, Bool.false_eq_true, if_false] at hcount
    refine h.quiet ?_ (Pool.forall_set h.once (h.once t (Pool.mem_of_getElem? ht))) rfl rfl
    refine h.quota.mono rfl le_rfl ?_ fun _ _ hcovered => hcovered
    show List.countP _ (w.turns.set i _) ≤ List.countP _ w.turns
    omega

end World

def sampleSettings : Settings where
  limits := { ratePerCustomerPerHour := 1 }
  library := sampleLibrary
  registry := fun _ => true
  actor := "CUST-1"

def samplePost : List Step := [.post "Hello".toList, .readCost 0 (some 0)]

/-- A stream, and a run that answers at once and is recorded. -/
def sampleAnswered (i : Nat) : List Step :=
  [.stream i true [] [], .run i (.taken true) true, .run i (.turn { content := "Hi".toList }) true,
   .run i (.taken true) true, .run i (.taken true) true, .run i (.taken true) true, .record i]

theorem sample_exec {step : World → Step → Option World} {P : World → Prop} [DecidablePred P] {ls : List Step}
    (h : (exec step { clock := 0 } ls).any (fun w => decide (P w)) = true) :
    ∃ w, exec step { clock := 0 } ls = some w ∧ P w := by
  simpa using (Option.any_eq_true ..).mp h

end BssCli.Chat
