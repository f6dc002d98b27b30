import BssCli.Scenarios.Steps

/-!
# What it takes for a step to pass

A step passes from one world to another, with what it captured. The runner ends a step without an error exactly there.
-/

open Text Program Stateful

namespace BssCli.Scenarios

variable {σ : Type}

/-- The first attempt that is good, of those that the deadline leaves. `T` is one attempt. -/
inductive Polled {α : Type} (T : σ → α → σ → Prop) (good : α → Prop) (sleep : σ → σ) : ℕ → σ → α → σ → Prop
  | good {n : ℕ} {s s' : σ} {a : α} (h : T s a s') (ha : good a) : Polled T good sleep n s a s'
  | again {n : ℕ} {s s' s'' : σ} {a b : α} (h : T s a s') (ha : ¬ good a) (hb : Polled T good sleep n (sleep s') b s'') :
      Polled T good sleep (n + 1) s b s''

/-- Each path of a capture leads somewhere. -/
def Captured (result : Json) : List (String × Json) → Vars → Prop :=
  List.Forall₂ fun c found => c.1 = found.1 ∧ ∃ path, c.2 = .str path ∧ jsonpathFirst result path = some found.2

section

variable (o : Outside σ)

/-- Each pattern has its group in its source. -/
def CapturedRegex (result : Json) (lastMatch : Bool) : List (String × HttpRegexCapture) → Vars → Prop :=
  List.Forall₂ fun c found => c.1 = found.1 ∧ ∃ source re caps group,
    resolveSource result c.2.source = some (.str source) ∧ o.regex c.2.pattern = .ok re ∧
      re.captures lastMatch source = some caps ∧ caps c.2.group.toNat = some group ∧ found.2 = .str group

/-- A reading that has all captures. -/
def HasCaptures (s : FileReadStep) (path : String) (b : Option String) : Prop :=
  ∃ text more, b = some text ∧ CapturedRegex o (fileResult path text) true s.captureRegex more

/-- A text to look for counts where all its variables are bound. -/
structure HttpMeets (vars : Vars) (expect : HttpExpect) (r : HttpResult) : Prop where
  status : ∀ spec, expect.status = some spec → (statusOf r : ℤ) ∈ spec.codes
  contains : ∀ raw ∈ expect.bodyContains, ∀ needle, interpToString o vars (.str raw) = .ok needle →
    needle.toList <:+: r.bodyText.toList
  notContains : ∀ raw ∈ expect.bodyNotContains, ∀ needle, interpToString o vars (.str raw) = .ok needle →
    ¬ needle.toList <:+: r.bodyText.toList
  headers : ∀ h ∈ expect.headersMatch, Fields.get r.headers (o.toLowercase h.1) = some (wantedHeader o vars h.2)
  fields : ∀ f ∈ expect.bodyJsonEquals, ∃ body v, r.value.get "body" = some body ∧ body.get f.1 = some v ∧
    v.same (wantedField o vars f.2) = true

def sleepOf (poll : Option Poll) (s : σ) : σ := poll.elim s fun q => o.sleep q s

inductive StepPasses (mode : LlmMode) : Step → World σ → Vars → World σ → Prop
  | action {s : ActionStep} {vs found : Vars} {args : List (String × Json)} {result : Json} {w w' : σ}
      (hknown : isKnown o s.action = true) (hargs : FilledFields o.printer vs s.args args)
      (hrun : o.run s.action args w = (.ok result, w')) (hfound : Captured result s.capture found) :
      StepPasses mode (.action s) ⟨vs, w⟩ found ⟨merge vs found, w'⟩
  | assert {s : AssertStep} {vs : Vars} {args expect : List (String × Json)} {v : Json} {w w' : σ}
      (hknown : isKnown o s.assertCall.tool = true) (hargs : FilledFields o.printer vs s.assertCall.args args)
      (hexpect : FilledFields o.printer vs s.assertCall.expect expect)
      (hpoll : Polled (fun w v w' => o.run s.assertCall.tool args w = (.ok v, w')) (Meets expect) (sleepOf o s.assertCall.poll)
        (evaluations o s.assertCall.poll w) w v w') : StepPasses mode (.assert s) ⟨vs, w⟩ [] ⟨vs, w'⟩
  | http {s : HttpStep} {vs found more : Vars} {r : Response} {w w' : σ}
      (hpoll : Polled (fun w r w' => ∃ req, request o vs s = .ok req ∧ o.send req w = (.ok r, w'))
        (fun r => HttpMeets o vs s.expect (httpResult o r)) (sleepOf o s.poll) (evaluations o s.poll w) w r w')
      (hfound : Captured (httpResult o r).value s.capture found)
      (hmore : CapturedRegex o (httpResult o r).value false s.captureRegex more) :
      StepPasses mode (.http s) ⟨vs, w⟩ (merge found more) ⟨merge vs (merge found more), w'⟩
  | file {s : FileReadStep} {vs found : Vars} {path : Json} {body : String} {w w' : σ}
      (hpath : Filled o.printer vs (.str s.file) path)
      (hpoll : Polled (fun w b w' => o.readToString (textOf o path) w = (b, w')) (HasCaptures o s (textOf o path))
        (sleepOf o s.poll) (evaluations o s.poll w) w (some body) w')
      (hfound : CapturedRegex o (fileResult (textOf o path) body) true s.captureRegex found) :
      StepPasses mode (.file s) ⟨vs, w⟩ found ⟨merge vs found, w'⟩
  | ask {s : AskStep} {vs : Vars} {prompt : Json} {t : Turn} {w w' : σ} (hmode : mode ≠ .disabled)
      (hmodel : o.llmModel = .ok ()) (hprompt : Filled o.printer vs (.str s.ask) prompt)
      (hturn : o.turn (textOf o prompt) w = (.ok t, w')) (hended : t.finalMessages ≠ [] ∨ t.errors = [])
      (hcalled : ∀ tool ∈ s.expectToolsCalledInclude, tool ∈ t.completed ∧ tool ≠ "")
      (hnot : ∀ tool ∈ s.expectToolsNotCalled, tool ∈ t.completed → tool = "") (hfinal : s.expectFinalState = []) :
      StepPasses mode (.ask s) ⟨vs, w⟩ [] ⟨vs, w'⟩

end

/-! ## The parts of a step -/

section

variable {o : Outside σ} {w w' : World σ}

theorem goes_vars {vs : Vars} : Goes (vars : StepM σ Vars) w vs w' ↔ vs = w.vars ∧ w' = w := by
  constructor
  · rintro ⟨⟩
    exact ⟨rfl, rfl⟩
  · rintro ⟨rfl, rfl⟩
    rfl

theorem goes_keep {captured : Vars} {u : Unit} :
    Goes (keep captured : StepM σ Unit) w u w' ↔ w' = ⟨merge w.vars captured, w.outside⟩ := by
  constructor
  · rintro ⟨⟩
    rfl
  · rintro rfl
    rfl

theorem goes_outside {α : Type} {f : σ → Except String α × σ} {a : α} :
    Goes (outside f) w a w' ↔ ∃ s, f w.outside = (.ok a, s) ∧ w' = ⟨w.vars, s⟩ := by
  constructor
  · intro h
    obtain ⟨hok, rfl⟩ := Prod.mk.inj h
    exact ⟨(f w.outside).2, Prod.ext hok rfl, rfl⟩
  · rintro ⟨s, hf, rfl⟩
    show ((f w.outside).1, (⟨w.vars, (f w.outside).2⟩ : World σ)) = _
    rw [hf]

theorem goes_remaining {poll : Option Poll} {n : ℕ} :
    Goes (remaining o poll) w n w' ↔ n = evaluations o poll w.outside ∧ w' = w := by
  constructor
  · rintro ⟨⟩
    exact ⟨rfl, rfl⟩
  · rintro ⟨rfl, rfl⟩
    rfl

theorem goes_sleep {poll : Option Poll} {u : Unit} :
    Goes (sleep o poll) w u w' ↔ w' = ⟨w.vars, sleepOf o poll w.outside⟩ := by
  constructor
  · rintro ⟨⟩
    rfl
  · rintro rfl
    rfl

/-! ## Polls -/

section

variable {β α γ : Type} {attempt : StepM σ (List β × γ)} {T : σ → α → σ → Prop} {fails : α → List β} {out : α → γ} {vs : Vars}
  {poll : Option Poll}

/-- After an attempt: the end, or a pause and the next one. -/
theorem goes_after {n : ℕ} {r : List β × γ} {s : σ} {c : γ} :
    Goes (if r.1 = [] then pure r else do sleep o poll; pollUntil o poll attempt n) ⟨vs, s⟩ ([], c) w' ↔
      (r = ([], c) ∧ w' = ⟨vs, s⟩) ∨
        r.1 ≠ [] ∧ Goes (pollUntil o poll attempt n) ⟨vs, sleepOf o poll s⟩ ([], c) w' := by
  obtain ⟨errors, a⟩ := r
  cases errors with
  | nil =>
    rw [if_pos (by rfl), goes_pure, eq_comm]
    simp
  | cons e errors =>
    rw [if_neg (by simp), goes_bind]
    simp [goes_sleep]

/-- A poll ends with nothing to complain of where an attempt in time is good. -/
theorem goes_pollUntil {good : α → Prop} (hgood : ∀ a, fails a = [] ↔ good a)
    (h : ∀ s r w', Goes attempt ⟨vs, s⟩ r w' ↔ ∃ a s', T s a s' ∧ r = (fails a, out a) ∧ w' = ⟨vs, s'⟩) {n : ℕ} {s : σ} {c : γ} :
    Goes (pollUntil o poll attempt n) ⟨vs, s⟩ ([], c) w' ↔
      ∃ a s', Polled T good (sleepOf o poll) n s a s' ∧ c = out a ∧ w' = ⟨vs, s'⟩ := by
  induction n generalizing s with
  | zero =>
    rw [pollUntil, h]
    constructor
    · rintro ⟨a, s', hT, heq, rfl⟩
      obtain ⟨hfails, rfl⟩ := Prod.mk.inj heq
      exact ⟨a, s', .good hT ((hgood a).mp hfails.symm), rfl, rfl⟩
    · rintro ⟨a, s', ⟨hT, ha⟩, rfl, rfl⟩
      exact ⟨a, s', hT, Prod.ext ((hgood a).mpr ha).symm rfl, rfl⟩
  | succ n ih =>
    rw [pollUntil, goes_bind]
    constructor
    · rintro ⟨r, w₁, hr, hafter⟩
      obtain ⟨a, s', hT, rfl, rfl⟩ := (h ..).mp hr
      rcases goes_after.mp hafter with ⟨heq, rfl⟩ | ⟨hne, hrest⟩
      · obtain ⟨hfails, rfl⟩ := Prod.mk.inj heq
        exact ⟨a, s', .good hT ((hgood a).mp hfails), rfl, rfl⟩
      · obtain ⟨b, s'', hb, rfl, rfl⟩ := ih.mp hrest
        exact ⟨b, s'', .again hT (fun ha => hne ((hgood a).mpr ha)) hb, rfl, rfl⟩
    · rintro ⟨a, s', hpolled, rfl, rfl⟩
      cases hpolled with
      | good hT ha => exact ⟨_, _, (h ..).mpr ⟨a, s', hT, rfl, rfl⟩, goes_after.mpr (.inl ⟨by rw [(hgood a).mpr ha], rfl⟩)⟩
      | again hT ha hb =>
        refine ⟨_, _, (h ..).mpr ⟨_, _, hT, rfl, rfl⟩, goes_after.mpr (.inr ⟨fun hne => ha ((hgood _).mp hne), ?_⟩)⟩
        exact ih.mpr ⟨a, s', hb, rfl, rfl⟩

end

/-! ## Captures -/

theorem collect_eq_ok_iff {κ : Type} {f : String → κ → Except String Json} {captures : List (String × κ)} {found : Vars} :
    collect f captures = .ok found ↔ List.Forall₂ (fun c v => c.1 = v.1 ∧ f c.1 c.2 = .ok v.2) captures found := by
  induction captures generalizing found with
  | nil => simp [collect, eq_comm]
  | cons c captures ih =>
    rw [List.forall₂_cons_left_iff]
    have hcollect : collect f (c :: captures) = (f c.1 c.2).bind fun v => (collect f captures).bind fun vs => .ok ((c.1, v) :: vs) := rfl
    rw [hcollect]
    cases hv : f c.1 c.2 with
    | error e => exact iff_of_false nofun fun ⟨_, _, ⟨_, h⟩, _⟩ => nomatch h
    | ok v =>
      constructor
      · intro h
        cases hvs : collect f captures with
        | error e =>
          rw [hvs] at h
          cases h
        | ok vs =>
          rw [hvs] at h
          exact ⟨(c.1, v), vs, ⟨rfl, rfl⟩, ih.mp hvs, (Except.ok.inj h).symm⟩
      · rintro ⟨⟨k, w⟩, vs, ⟨rfl, hw⟩, hvs, rfl⟩
        rw [ih.mpr hvs]
        obtain rfl := Except.ok.inj hw
        rfl

theorem captureOne_eq_ok_iff {source : String} {result : Json} {varName : String} {pathExpr v : Json} :
    captureOne o source result varName pathExpr = .ok v ↔ ∃ path, pathExpr = .str path ∧ jsonpathFirst result path = some v := by
  unfold captureOne
  cases pathExpr with
  | str path =>
    dsimp only [Json.asStr]
    cases hpath : jsonpathFirst result path <;> simp [hpath]
  | _ => simp [Json.asStr]

theorem captureRegexOne_eq_ok_iff {result v : Json} {lastMatch : Bool} {varName : String} {cfg : HttpRegexCapture} :
    captureRegexOne o result lastMatch varName cfg = .ok v ↔ ∃ source re caps group,
      resolveSource result cfg.source = some (.str source) ∧ o.regex cfg.pattern = .ok re ∧
        re.captures lastMatch source = some caps ∧ caps cfg.group.toNat = some group ∧ v = .str group := by
  have hsource : ∀ source, (resolveSource result cfg.source).bind Json.asStr = some source ↔
      resolveSource result cfg.source = some (.str source) := by
    intro source
    cases resolveSource result cfg.source with
    | none => simp
    | some u => cases u <;> simp [Json.asStr]
  unfold captureRegexOne
  cases hs : (resolveSource result cfg.source).bind Json.asStr with
  | none =>
    refine iff_of_false (by simp) ?_
    rintro ⟨source, re, caps, group, h, -⟩
    rw [(hsource source).mpr h] at hs
    cases hs
  | some source =>
    rw [hsource] at hs
    dsimp only
    cases hre : o.regex cfg.pattern with
    | error e => simp
    | ok re =>
      dsimp only
      cases hgroup : (re.captures lastMatch source).bind fun caps => caps cfg.group.toNat with
      | none =>
        refine iff_of_false (by simp) ?_
        rintro ⟨source', re', caps, group, hs', hre', hcaps, hg, -⟩
        obtain rfl := Json.str.inj (Option.some.inj (hs.symm.trans hs'))
        obtain rfl := Except.ok.inj hre'
        rw [hcaps, Option.bind_some, hg] at hgroup
        cases hgroup
      | some group =>
        obtain ⟨caps, hcaps, hg⟩ := Option.bind_eq_some_iff.mp hgroup
        constructor
        · intro h
          exact ⟨source, re, caps, group, hs, rfl, hcaps, hg, (Except.ok.inj h).symm⟩
        · rintro ⟨source', re', caps', group', hs', hre', hcaps', hg', rfl⟩
          obtain rfl := Json.str.inj (Option.some.inj (hs.symm.trans hs'))
          obtain rfl := Except.ok.inj hre'
          obtain rfl := Option.some.inj (hcaps.symm.trans hcaps')
          obtain rfl := Option.some.inj (hg.symm.trans hg')
          rfl

theorem goes_applyCaptures {result : Json} {captures : List (String × Json)} {found : Vars} :
    Goes (applyCaptures o result captures) w found w' ↔ Captured result captures found ∧ w' = ⟨merge w.vars found, w.outside⟩ := by
  induction captures generalizing w w' found with
  | nil =>
    rw [applyCaptures, goes_pure]
    unfold Captured
    rw [List.forall₂_nil_left_iff]
    exact and_congr_right fun h => by rw [h]; rfl
  | cons c captures ih =>
    unfold Captured at ih ⊢
    rw [applyCaptures, goes_bind, List.forall₂_cons_left_iff]
    simp only [goes_bind, goes_ofExcept, goes_keep, goes_pure, captureOne_eq_ok_iff, ih]
    constructor
    · rintro ⟨v, w₁, ⟨⟨path, hpath, hv⟩, rfl⟩, -, w₂, rfl, vs, w₃, ⟨hvs, rfl⟩, rfl, rfl⟩
      exact ⟨⟨(c.1, v), vs, ⟨rfl, path, hpath, hv⟩, hvs, rfl⟩, rfl⟩
    · rintro ⟨⟨⟨k, v⟩, vs, ⟨rfl, path, hpath, hv⟩, hvs, rfl⟩, rfl⟩
      exact ⟨v, _, ⟨⟨path, hpath, hv⟩, rfl⟩, ⟨⟩, _, rfl, vs, _, ⟨hvs, rfl⟩, rfl, rfl⟩

/-! ## Action and assert steps -/

theorem interpolateArgs_eq_ok_iff {vs : Vars} {args fields : List (String × Json)} :
    interpolateArgs o vs args = .ok fields ↔ FilledFields o.printer vs args fields := by
  have hobj : ∀ v, interpolate o.printer vs (.obj args) = .ok v ↔ ∃ fields, v = .obj fields ∧ FilledFields o.printer vs args fields := by
    intro v
    rw [interpolate_eq_ok_iff]
    constructor
    · rintro ⟨⟩
      exact ⟨_, rfl, by assumption⟩
    · rintro ⟨fields, rfl, h⟩
      exact .obj h
  unfold interpolateArgs
  cases h : interpolate o.printer vs (.obj args) with
  | error e =>
    refine iff_of_false nofun fun hf => ?_
    rw [(hobj _).mpr ⟨fields, rfl, hf⟩] at h
    cases h
  | ok v =>
    obtain ⟨fields', rfl, hf⟩ := (hobj v).mp h
    constructor
    · intro heq
      exact Except.ok.inj heq ▸ hf
    · intro hf'
      rw [(hobj _).mpr ⟨fields, rfl, hf'⟩] at h
      exact congrArg _ (Json.obj.inj (Except.ok.inj h)).symm

theorem goes_runAction {mode : LlmMode} {s : ActionStep} {found : Vars} :
    Goes (runAction o s) w found w' ↔ StepPasses o mode (.action s) w found w' := by
  unfold runAction
  simp only [goes_bind, goes_ensure, goes_vars, goes_ofExcept, goes_outside, goes_applyCaptures, interpolateArgs_eq_ok_iff]
  constructor
  · rintro ⟨-, w₁, ⟨hknown, rfl⟩, vs, w₂, ⟨rfl, rfl⟩, args, w₃, ⟨hargs, rfl⟩, result, w₄, ⟨s', hrun, rfl⟩, hfound, rfl⟩
    exact .action hknown hargs hrun hfound
  · rintro ⟨hknown, hargs, hrun, hfound⟩
    exact ⟨⟨⟩, _, ⟨hknown, rfl⟩, _, _, ⟨rfl, rfl⟩, _, _, ⟨hargs, rfl⟩, _, _, ⟨_, hrun, rfl⟩, hfound, rfl⟩

theorem goes_attemptAssert {tool : String} {args expect : List (String × Json)} {vs : Vars} {s : σ}
    {r : List AssertionFailure × Unit} :
    Goes (attemptAssert o tool args expect) ⟨vs, s⟩ r w' ↔
      ∃ v s', o.run tool args s = (.ok v, s') ∧ r = (evaluateExpect o.printer expect v, ()) ∧ w' = ⟨vs, s'⟩ := by
  unfold attemptAssert
  simp only [goes_bind, goes_outside, goes_pure]
  constructor
  · rintro ⟨v, w₁, ⟨s', hrun, rfl⟩, rfl, rfl⟩
    exact ⟨v, s', hrun, rfl, rfl⟩
  · rintro ⟨v, s', hrun, rfl, rfl⟩
    exact ⟨v, _, ⟨s', hrun, rfl⟩, rfl, rfl⟩

theorem goes_pollAssert {tool : String} {args expect : List (String × Json)} {poll : Option Poll} {n : ℕ} {vs : Vars} {s : σ}
    {u : Unit} :
    Goes (pollUntil o poll (attemptAssert o tool args expect) n) ⟨vs, s⟩ ([], u) w' ↔
      ∃ v s', Polled (fun w v w' => o.run tool args w = (.ok v, w')) (Meets expect) (sleepOf o poll) n s v s' ∧ w' = ⟨vs, s'⟩ := by
  rw [goes_pollUntil (evaluateExpect_eq_nil_iff expect) fun _ _ _ => goes_attemptAssert]
  simp

theorem goes_runAssert {mode : LlmMode} {s : AssertStep} {found : Vars} :
    Goes (runAssert o s) w found w' ↔ StepPasses o mode (.assert s) w found w' := by
  unfold runAssert
  simp only [goes_bind, goes_ensure, goes_vars, goes_ofExcept, goes_remaining, goes_pure, interpolateArgs_eq_ok_iff]
  constructor
  · rintro ⟨-, w₁, ⟨hknown, rfl⟩, vs, w₂, ⟨rfl, rfl⟩, args, w₃, ⟨hargs, rfl⟩, expect, w₄, ⟨hexpect, rfl⟩, n, w₅, ⟨rfl, rfl⟩,
      ⟨failures, ⟨⟩⟩, w₆, hattempts, -, w₇, ⟨hempty, rfl⟩, rfl, rfl⟩
    dsimp only at hempty
    subst hempty
    obtain ⟨v, s', hpolled, rfl⟩ := goes_pollAssert.mp hattempts
    exact .assert hknown hargs hexpect hpolled
  · intro h
    cases h with
    | assert hknown hargs hexpect hpolled =>
      exact ⟨⟨⟩, _, ⟨hknown, rfl⟩, _, _, ⟨rfl, rfl⟩, _, _, ⟨hargs, rfl⟩, _, _, ⟨hexpect, rfl⟩, _, _, ⟨rfl, rfl⟩, ([], ()), _,
        goes_pollAssert.mpr ⟨_, _, hpolled, rfl⟩, ⟨⟩, _, ⟨rfl, rfl⟩, rfl, rfl⟩

/-! ## Http steps -/

theorem checkStatus_eq_nil_iff {spec : Option StatusSpec} {r : HttpResult} :
    checkStatus spec r = [] ↔ ∀ spec', spec = some spec' → (statusOf r : ℤ) ∈ spec'.codes := by
  cases spec <;> simp [checkStatus]

theorem checkContains_eq_nil_iff {vs : Vars} {r : HttpResult} {raw : String} :
    checkContains o vs r raw = [] ↔ ∀ needle, interpToString o vs (.str raw) = .ok needle → needle.toList <:+: r.bodyText.toList := by
  unfold checkContains
  cases interpToString o vs (.str raw) <;> simp

theorem checkNotContains_eq_nil_iff {vs : Vars} {r : HttpResult} {raw : String} :
    checkNotContains o vs r raw = [] ↔
      ∀ needle, interpToString o vs (.str raw) = .ok needle → ¬ needle.toList <:+: r.bodyText.toList := by
  unfold checkNotContains
  cases interpToString o vs (.str raw) <;> simp

theorem checkHeader_eq_nil_iff {vs : Vars} {r : HttpResult} {key : String} {want : Json} :
    checkHeader o vs r key want = [] ↔ Fields.get r.headers (o.toLowercase key) = some (wantedHeader o vs want) := by
  unfold checkHeader
  dsimp only
  split_ifs with h <;> simp [h]

theorem checkField_eq_nil_iff {vs : Vars} {r : HttpResult} {key : String} {want : Json} :
    checkField o vs r key want = [] ↔
      ∃ body v, r.value.get "body" = some body ∧ body.get key = some v ∧ v.same (wantedField o vs want) = true := by
  unfold checkField
  dsimp only
  cases hbody : r.value.get "body" with
  | none => simp
  | some body => cases hv : body.get key <;> simp [hv]

theorem checkExpect_eq_nil_iff {expect : HttpExpect} {r : HttpResult} {vs : Vars} :
    checkExpect o expect r vs = [] ↔ HttpMeets o vs expect r := by
  unfold checkExpect
  simp only [List.append_eq_nil_iff, List.flatMap_eq_nil_iff, checkStatus_eq_nil_iff, checkContains_eq_nil_iff,
    checkNotContains_eq_nil_iff, checkHeader_eq_nil_iff, checkField_eq_nil_iff]
  constructor
  · rintro ⟨⟨⟨⟨hstatus, hcontains⟩, hnot⟩, hheaders⟩, hfields⟩
    exact ⟨hstatus, hcontains, hnot, hheaders, hfields⟩
  · rintro ⟨hstatus, hcontains, hnot, hheaders, hfields⟩
    exact ⟨⟨⟨⟨hstatus, hcontains⟩, hnot⟩, hheaders⟩, hfields⟩

theorem goes_doRequest {s : HttpStep} {vs : Vars} {w₀ : σ} {r : HttpResult} :
    Goes (doRequest o s) ⟨vs, w₀⟩ r w' ↔
      ∃ req a s', request o vs s = .ok req ∧ o.send req w₀ = (.ok a, s') ∧ r = httpResult o a ∧ w' = ⟨vs, s'⟩ := by
  unfold doRequest
  simp only [goes_bind, goes_vars, goes_ofExcept, goes_outside, goes_pure]
  constructor
  · rintro ⟨vs', w₂, ⟨rfl, rfl⟩, req, w₃, ⟨hreq, rfl⟩, a, w₄, ⟨s', hsend, rfl⟩, rfl, rfl⟩
    exact ⟨req, a, s', hreq, hsend, rfl, rfl⟩
  · rintro ⟨req, a, s', hreq, hsend, rfl, rfl⟩
    exact ⟨_, _, ⟨rfl, rfl⟩, req, _, ⟨hreq, rfl⟩, a, _, ⟨s', hsend, rfl⟩, rfl, rfl⟩

theorem goes_attemptHttp {s : HttpStep} {vs : Vars} {w₀ : σ} {r : List String × HttpResult} :
    Goes (attemptHttp o s) ⟨vs, w₀⟩ r w' ↔ ∃ a s', (∃ req, request o vs s = .ok req ∧ o.send req w₀ = (.ok a, s')) ∧
      r = (checkExpect o s.expect (httpResult o a) vs, httpResult o a) ∧ w' = ⟨vs, s'⟩ := by
  unfold attemptHttp
  simp only [goes_bind, goes_vars, goes_pure, goes_doRequest]
  constructor
  · rintro ⟨r', w₁, ⟨req, a, s', hreq, hsend, rfl, rfl⟩, vs', w₂, ⟨rfl, rfl⟩, rfl, rfl⟩
    exact ⟨a, s', ⟨req, hreq, hsend⟩, rfl, rfl⟩
  · rintro ⟨a, s', ⟨req, hreq, hsend⟩, rfl, rfl⟩
    exact ⟨_, _, ⟨req, a, s', hreq, hsend, rfl, rfl⟩, vs, _, ⟨rfl, rfl⟩, rfl, rfl⟩

theorem goes_pollHttp {s : HttpStep} {poll : Option Poll} {n : ℕ} {vs : Vars} {w₀ : σ} {r : HttpResult} :
    Goes (pollUntil o poll (attemptHttp o s) n) ⟨vs, w₀⟩ ([], r) w' ↔
      ∃ a s', Polled (fun w a w' => ∃ req, request o vs s = .ok req ∧ o.send req w = (.ok a, w'))
        (fun a => HttpMeets o vs s.expect (httpResult o a)) (sleepOf o poll) n w₀ a s' ∧ r = httpResult o a ∧ w' = ⟨vs, s'⟩ :=
  goes_pollUntil (fun _ => checkExpect_eq_nil_iff) fun _ _ _ => goes_attemptHttp

theorem collect_captureOne_iff {source : String} {result : Json} {captures : List (String × Json)} {found : Vars} :
    collect (captureOne o source result) captures = .ok found ↔ Captured result captures found := by
  rw [collect_eq_ok_iff]
  unfold Captured
  simp only [captureOne_eq_ok_iff]

theorem captureRegex_eq_ok_iff {result : Json} {lastMatch : Bool} {captures : List (String × HttpRegexCapture)} {found : Vars} :
    captureRegex o result lastMatch captures = .ok found ↔ CapturedRegex o result lastMatch captures found := by
  unfold captureRegex CapturedRegex
  rw [collect_eq_ok_iff]
  simp only [captureRegexOne_eq_ok_iff]

theorem goes_runHttpStep {mode : LlmMode} {s : HttpStep} {found : Vars} :
    Goes (runHttpStep o s) w found w' ↔ StepPasses o mode (.http s) w found w' := by
  unfold runHttpStep
  simp only [goes_bind, goes_remaining, goes_ensure, goes_ofExcept, goes_keep, goes_pure, collect_captureOne_iff,
    captureRegex_eq_ok_iff]
  constructor
  · rintro ⟨n, w₁, ⟨rfl, rfl⟩, ⟨fails, r⟩, w₂, hattempts, -, w₃, ⟨hempty, rfl⟩, found', w₄, ⟨hfound, rfl⟩, more, w₅, ⟨hmore, rfl⟩,
      -, w₆, rfl, rfl, rfl⟩
    dsimp only at hempty
    subst hempty
    obtain ⟨a, s', hpolled, rfl, rfl⟩ := goes_pollHttp.mp hattempts
    exact .http hpolled hfound hmore
  · intro h
    cases h with
    | http hpolled hfound hmore =>
      exact ⟨_, _, ⟨rfl, rfl⟩, ([], _), _, goes_pollHttp.mpr ⟨_, _, hpolled, rfl, rfl⟩, ⟨⟩, _, ⟨rfl, rfl⟩, _, _, ⟨hfound, rfl⟩, _, _,
        ⟨hmore, rfl⟩, ⟨⟩, _, rfl, rfl, rfl⟩

/-! ## File steps -/

/-- Nothing was found as yet. -/
structure Reading.Open (s : FileReadStep) (k : Reading) : Prop where
  captured : k.captured = []
  gotBody : s.captureRegex = [] → k.gotBody = false

theorem Reading.Open.not_done {s : FileReadStep} {k : Reading} (h : k.Open s) : ¬ k.Done s := by
  rintro ⟨hbody, hregex | hcaptured⟩
  · rw [h.gotBody hregex] at hbody
    cases hbody
  · exact hcaptured h.captured

theorem readResult_good {s : FileReadStep} {path text : String} {found : Vars} {k : Reading} (h : k.Open s)
    (hfound : CapturedRegex o (fileResult path text) true s.captureRegex found) :
    ∃ k', readResult o s path k (some text) = (true, k') ∧ k'.Done s ∧ k'.captured = found := by
  unfold readResult
  dsimp only
  split_ifs with hregex
  · rw [hregex] at hfound
    obtain rfl := List.forall₂_nil_left_iff.mp hfound
    exact ⟨_, rfl, ⟨rfl, .inl hregex⟩, h.captured⟩
  · rw [captureRegex_eq_ok_iff.mpr hfound]
    refine ⟨_, rfl, ⟨rfl, .inr ?_⟩, rfl⟩
    rintro rfl
    exact hregex (List.forall₂_nil_right_iff.mp hfound)

theorem readResult_bad {s : FileReadStep} {path : String} {b : Option String} {k : Reading} (h : k.Open s)
    (hb : ¬ HasCaptures o s path b) : ∃ k', readResult o s path k b = (false, k') ∧ k'.Open s := by
  cases b with
  | none => exact ⟨_, rfl, h.captured, h.gotBody⟩
  | some text =>
    have hregex : s.captureRegex ≠ [] := by
      intro hregex
      refine hb ⟨text, [], rfl, ?_⟩
      rw [hregex]
      exact .nil
    unfold readResult
    dsimp only
    rw [if_neg hregex]
    cases hc : captureRegex o (fileResult path text) true s.captureRegex with
    | ok c => exact absurd ⟨text, c, rfl, captureRegex_eq_ok_iff.mp hc⟩ hb
    | error e => exact ⟨_, rfl, h.captured, fun hnil => absurd hnil hregex⟩

theorem goes_readOnce {s : FileReadStep} {path : String} {k : Reading} {vs : Vars} {w₀ : σ} {r : Bool × Reading} :
    Goes (readOnce o s path k) ⟨vs, w₀⟩ r w' ↔
      ∃ b s', o.readToString path w₀ = (b, s') ∧ r = readResult o s path k b ∧ w' = ⟨vs, s'⟩ := by
  unfold readOnce
  simp only [goes_bind, goes_outside, goes_pure]
  constructor
  · rintro ⟨b, w₁, ⟨s', hread, rfl⟩, rfl, rfl⟩
    obtain ⟨hb, hs⟩ := Prod.mk.inj hread
    exact ⟨b, s', Prod.ext (Except.ok.inj hb) hs, rfl, rfl⟩
  · rintro ⟨b, s', hread, rfl, rfl⟩
    exact ⟨b, _, ⟨s', by rw [hread], rfl⟩, rfl, rfl⟩

theorem goes_readUntil {s : FileReadStep} {path : String} {n : ℕ} {k : Reading} (h : k.Open s) {vs : Vars} {w₀ : σ} {found : Vars} :
    (∃ k', Goes (readUntil o s path n k) ⟨vs, w₀⟩ k' w' ∧ k'.Done s ∧ k'.captured = found) ↔
      ∃ body s', Polled (fun w b w' => o.readToString path w = (b, w')) (HasCaptures o s path) (sleepOf o s.poll) n w₀ (some body) s' ∧
        CapturedRegex o (fileResult path body) true s.captureRegex found ∧ w' = ⟨vs, s'⟩ := by
  induction n generalizing k w₀ with
  | zero =>
    simp only [readUntil, goes_bind, goes_readOnce, goes_pure]
    constructor
    · rintro ⟨k', ⟨r, w₁, ⟨b, s', hread, rfl, rfl⟩, rfl, rfl⟩, hdone, rfl⟩
      by_cases hb : HasCaptures o s path b
      · obtain ⟨text, more, rfl, hmore⟩ := hb
        obtain ⟨k', hk, -, rfl⟩ := readResult_good h hmore
        rw [hk]
        exact ⟨text, s', .good hread ⟨text, _, rfl, hmore⟩, hmore, rfl⟩
      · obtain ⟨k', hk, hopen⟩ := readResult_bad h hb
        rw [hk] at hdone
        exact absurd hdone hopen.not_done
    · rintro ⟨body, s', ⟨hread, -⟩, hfound, rfl⟩
      obtain ⟨k', hk, hdone, hcaptured⟩ := readResult_good h hfound
      exact ⟨k', ⟨_, _, ⟨_, s', hread, hk.symm, rfl⟩, rfl, rfl⟩, hdone, hcaptured⟩
  | succ n ih =>
    simp only [readUntil, goes_bind, goes_readOnce]
    constructor
    · rintro ⟨k', ⟨r, w₁, ⟨b, s', hread, rfl, rfl⟩, hrest⟩, hdone, rfl⟩
      by_cases hb : HasCaptures o s path b
      · obtain ⟨text, more, rfl, hmore⟩ := hb
        obtain ⟨k'', hk, -, rfl⟩ := readResult_good h hmore
        rw [hk, if_pos rfl, goes_pure] at hrest
        obtain ⟨rfl, rfl⟩ := hrest
        exact ⟨text, s', .good hread ⟨text, _, rfl, hmore⟩, hmore, rfl⟩
      · obtain ⟨k'', hk, hopen⟩ := readResult_bad h hb
        rw [hk, if_neg (by simp), goes_bind] at hrest
        obtain ⟨u, w₂, hsleep, hrest⟩ := hrest
        obtain rfl := goes_sleep.mp hsleep
        obtain ⟨body, s'', hpolled, hfound, rfl⟩ := (ih hopen).mp ⟨k', hrest, hdone, rfl⟩
        exact ⟨body, s'', .again hread hb hpolled, hfound, rfl⟩
    · rintro ⟨body, s', hpolled, hfound, rfl⟩
      cases hpolled with
      | good hread ha =>
        obtain ⟨k', hk, hdone, hcaptured⟩ := readResult_good h hfound
        refine ⟨k', ⟨_, _, ⟨_, s', hread, hk.symm, rfl⟩, ?_⟩, hdone, hcaptured⟩
        rw [if_pos rfl, goes_pure]
        exact ⟨rfl, rfl⟩
      | again hread ha hb =>
        obtain ⟨k'', hk, hopen⟩ := readResult_bad h ha
        obtain ⟨k', hrest, hdone, hcaptured⟩ := (ih hopen).mpr ⟨body, s', hb, hfound, rfl⟩
        refine ⟨k', ⟨_, _, ⟨_, _, hread, hk.symm, rfl⟩, ?_⟩, hdone, hcaptured⟩
        rw [if_neg (by simp), goes_bind]
        exact ⟨⟨⟩, _, goes_sleep.mpr rfl, hrest⟩

theorem goes_runFileStep {mode : LlmMode} {s : FileReadStep} {found : Vars} :
    Goes (runFileStep o s) w found w' ↔ StepPasses o mode (.file s) w found w' := by
  have hopen : Reading.Open s {} := ⟨rfl, fun _ => rfl⟩
  unfold runFileStep
  simp only [goes_bind, goes_vars, goes_ofExcept, goes_remaining, goes_ensure, goes_keep, goes_pure, interpolate_eq_ok_iff]
  constructor
  · rintro ⟨vs, w₁, ⟨rfl, rfl⟩, path, w₂, ⟨hpath, rfl⟩, n, w₃, ⟨rfl, rfl⟩, k, w₄, hread, -, w₅, ⟨hdone, rfl⟩, -, w₆, rfl, rfl, rfl⟩
    obtain ⟨body, s', hpolled, hfound, rfl⟩ := (goes_readUntil hopen).mp ⟨k, hread, hdone, rfl⟩
    exact .file hpath hpolled hfound
  · intro h
    cases h with
    | file hpath hpolled hfound =>
      obtain ⟨k, hread, hdone, rfl⟩ := (goes_readUntil hopen).mpr ⟨_, _, hpolled, hfound, rfl⟩
      exact ⟨_, _, ⟨rfl, rfl⟩, _, _, ⟨hpath, rfl⟩, _, _, ⟨rfl, rfl⟩, k, _, hread, ⟨⟩, _, ⟨hdone, rfl⟩, ⟨⟩, _, rfl, rfl, rfl⟩

/-! ## Ask steps -/

theorem resolvePath_probe (path : String) : resolvePath finalStateProbe path = none := by
  unfold resolvePath segments
  cases h : splitChar '.' path.toList with
  | nil => exact absurd h (splitChar_ne_nil _ _)
  | cons seg segs => rfl

/-- Nothing can be expected of the empty state. -/
theorem meets_probe_iff {expect : List (String × Json)} : Meets expect finalStateProbe ↔ expect = [] := by
  constructor
  · rintro (_ | ⟨h, -⟩)
    · rfl
    · cases h with
      | value hpath hw _ =>
        rw [resolvePath_probe] at hw
        cases hw
  · rintro rfl
    exact .nil

theorem askFailures_eq_nil_iff {s : AskStep} {toolsCalled : List String} :
    askFailures o s toolsCalled = [] ↔ (∀ tool ∈ s.expectToolsCalledInclude, tool ∈ toolsCalled) ∧
      (∀ tool ∈ s.expectToolsNotCalled, tool ∉ toolsCalled) ∧ s.expectFinalState = [] := by
  have hfinal : s.expectFinalState = [] ∨ (evaluateExpect o.printer s.expectFinalState finalStateProbe).isEmpty = true ↔
      s.expectFinalState = [] := by
    rw [List.isEmpty_iff, evaluateExpect_eq_nil_iff, meets_probe_iff, or_self]
  unfold askFailures
  dsimp only
  rw [List.append_eq_nil_iff, List.append_eq_nil_iff, and_assoc]
  refine and_congr ?_ (and_congr ?_ ?_)
  · split_ifs with h
    · exact iff_of_true rfl (by simpa using h)
    · exact iff_of_false (by simp) (by simpa using h)
  · split_ifs with h
    · exact iff_of_true rfl (by simpa using h)
    · exact iff_of_false (by simp) (by simpa using h)
  · split_ifs with h
    · exact iff_of_true rfl (hfinal.mp h)
    · exact iff_of_false (by simp) fun hnil => h (hfinal.mpr hnil)

theorem turnTools_eq_ok_iff {t : Turn} {tools : List String} :
    turnTools t = .ok tools ↔ (t.finalMessages ≠ [] ∨ t.errors = []) ∧ tools = t.completed.filter (· ≠ "") := by
  have hended : turnError t = none ↔ t.finalMessages ≠ [] ∨ t.errors = [] := by
    unfold turnError
    cases t.finalMessages <;> simp
  rw [← hended]
  unfold turnTools
  cases turnError t <;> simp [eq_comm]

theorem goes_executeAskStep {s : AskStep} {allowLlm : Bool} {tools : List String} :
    Goes (executeAskStep o s allowLlm) w tools w' ↔ allowLlm = true ∧ o.llmModel = .ok () ∧ ∃ prompt t s',
      Filled o.printer w.vars (.str s.ask) prompt ∧ o.turn (textOf o prompt) w.outside = (.ok t, s') ∧
        (t.finalMessages ≠ [] ∨ t.errors = []) ∧ tools = t.completed.filter (· ≠ "") ∧ w' = ⟨w.vars, s'⟩ := by
  unfold executeAskStep
  simp only [goes_bind, goes_ensure, goes_ofExcept, goes_vars, goes_outside, interpolate_eq_ok_iff, turnTools_eq_ok_iff]
  constructor
  · rintro ⟨-, w₁, ⟨hllm, rfl⟩, u, w₂, ⟨hmodel, rfl⟩, vs, w₃, ⟨rfl, rfl⟩, prompt, w₄, ⟨hprompt, rfl⟩, t, w₅, ⟨s', hturn, rfl⟩,
      ⟨hend, htools⟩, rfl⟩
    exact ⟨hllm, hmodel, prompt, t, s', hprompt, hturn, hend, htools, rfl⟩
  · rintro ⟨hllm, hmodel, prompt, t, s', hprompt, hturn, hend, htools, rfl⟩
    exact ⟨⟨⟩, _, ⟨hllm, rfl⟩, ⟨⟩, _, ⟨hmodel, rfl⟩, _, _, ⟨rfl, rfl⟩, prompt, _, ⟨hprompt, rfl⟩, t, _, ⟨s', hturn, rfl⟩,
      ⟨hend, htools⟩, rfl⟩

theorem goes_runAsk {mode : LlmMode} {s : AskStep} {found : Vars} :
    Goes (runAsk o s mode) w found w' ↔ StepPasses o mode (.ask s) w found w' := by
  unfold runAsk
  simp only [goes_bind, goes_ensure, goes_pure, goes_executeAskStep, askFailures_eq_nil_iff, decide_eq_true_iff]
  constructor
  · rintro ⟨tools, w₁, ⟨hmode, hmodel, prompt, t, s', hprompt, hturn, hend, rfl, rfl⟩, -, w₂, ⟨⟨hcalled, hnot, hfinal⟩, rfl⟩, rfl, rfl⟩
    refine .ask hmode hmodel hprompt hturn hend (fun tool htool => ?_) (fun tool htool hmem => ?_) hfinal
    · simpa using hcalled tool htool
    · simpa [hmem] using hnot tool htool
  · intro h
    cases h with
    | ask hmode hmodel hprompt hturn hend hcalled hnot hfinal =>
      refine ⟨_, _, ⟨hmode, hmodel, _, _, _, hprompt, hturn, hend, rfl, rfl⟩, ⟨⟩, _, ⟨⟨fun tool htool => ?_, fun tool htool => ?_, hfinal⟩, rfl⟩,
        rfl, rfl⟩
      · simpa using hcalled tool htool
      · simpa using hnot tool htool

theorem goes_stepBody {mode : LlmMode} {step : Step} {found : Vars} :
    Goes (stepBody o mode step) w found w' ↔ StepPasses o mode step w found w' := by
  cases step with
  | action s => exact goes_runAction
  | assert s => exact goes_runAssert
  | http s => exact goes_runHttpStep
  | file s => exact goes_runFileStep
  | ask s => exact goes_runAsk

end

/-! ## The run -/

section

variable (o : Outside σ)

/-- Each seed with the ones before it in its places. -/
inductive Seeded : Vars → List (String × Json) → Vars → Prop
  | nil {vs : Vars} : Seeded vs [] vs
  | cons {vs vs' : Vars} {k : String} {v resolved : Json} {seed : List (String × Json)} (h : Filled o.printer vs v resolved)
      (hs : Seeded (Fields.insert vs k resolved) seed vs') : Seeded vs ((k, v) :: seed) vs'

/-- The data is reset, and then the clock frozen, each where it is asked for. -/
structure SetUp (setup : Setup) (vs : Vars) (s s₁ s' : σ) : Prop where
  reset : if setup.resetOperationalData then
    ∃ r, o.run "admin.reset_operational_data" [("reset_sequences", .bool setup.resetSequences)] s = (.ok r, s₁) else s₁ = s
  freeze : match setup.freezeClockAt with
    | some freezeAt => ∃ resolved r, Filled o.printer vs (.str freezeAt) resolved ∧
        o.run "clock.freeze" [("at", resolved)] s₁ = (.ok r, s')
    | none => s' = s₁

/-- The world in which the steps begin. -/
def Ready (runId : String) (sc : Scenario) (s : σ) (w : World σ) : Prop :=
  Seeded o [("run_id", .str runId)] sc.seed w.vars ∧ ∃ s₁, SetUp o sc.setup w.vars s s₁ w.outside

def TornDown (teardown : Teardown) (s s' : σ) : Prop :=
  if teardown.unfreezeClock then ∃ r, o.run "clock.unfreeze" [] s = (.ok r, s') else s' = s

/-- One step after the other passes. -/
inductive Passes (mode : LlmMode) : List Step → World σ → List StepResult → World σ → Prop
  | nil {w : World σ} : Passes mode [] w [] w
  | cons {step : Step} {steps : List Step} {found : Vars} {results : List StepResult} {w w' w'' : World σ}
      (h : StepPasses o mode step w found w') (hs : Passes mode steps w' results w'') :
      Passes mode (step :: steps) w (passed step found :: results) w''

/-- A step that cannot pass, the error of it, and the world that it leaves. -/
def Stuck (mode : LlmMode) (step : Step) (w : World σ) (e : String) (w' : World σ) : Prop :=
  (∀ found w₁, ¬ StepPasses o mode step w found w₁) ∧ (stepBody o mode step).run.run w = (.error e, w')

/-- All steps pass, or those before one that cannot. -/
inductive Went (mode : LlmMode) (steps : List Step) (w : World σ) : List StepResult → World σ → Prop
  | all {results : List StepResult} {w' : World σ} (h : Passes o mode steps w results w') : Went mode steps w results w'
  | upTo {done rest : List Step} {step : Step} {results : List StepResult} {e : String} {w' w'' : World σ}
      (hsteps : steps = done ++ step :: rest) (h : Passes o mode done w results w') (hstuck : Stuck o mode step w' e w'') :
      Went mode steps w (results ++ [failed step e]) w''

end

section

variable {o : Outside σ} {mode : LlmMode} {w w' : World σ}

theorem seedInto_eq_ok_iff {seed : List (String × Json)} {vs vs' : Vars} : seedInto o vs seed = .ok vs' ↔ Seeded o vs seed vs' := by
  induction seed generalizing vs with
  | nil =>
    constructor
    · rintro ⟨⟩
      exact .nil
    · rintro ⟨⟩
      rfl
  | cons kv seed ih =>
    have hseed : seedInto o vs (kv :: seed) =
        (interpolate o.printer vs kv.2).bind fun resolved => seedInto o (Fields.insert vs kv.1 resolved) seed := rfl
    rw [hseed]
    constructor
    · intro h
      cases hv : interpolate o.printer vs kv.2 with
      | error e =>
        rw [hv] at h
        cases h
      | ok resolved =>
        rw [hv] at h
        exact .cons (interpolate_eq_ok_iff.mp hv) (ih.mp h)
    · rintro (_ | ⟨h, hs⟩)
      rw [interpolate_of_filled h]
      exact ih.mpr hs

theorem world_ext {w w' : World σ} : w' = w ↔ w'.outside = w.outside ∧ w'.vars = w.vars := by
  obtain ⟨vs, s⟩ := w
  obtain ⟨vs', s'⟩ := w'
  rw [World.mk.injEq, and_comm]

/-- A call whose reply is not looked at. -/
theorem goes_call {name : String} {args : List (String × Json)} {u : Unit} :
    Goes (do let _ ← outside (o.run name args); pure () : StepM σ Unit) w u w' ↔
      (∃ r, o.run name args w.outside = (.ok r, w'.outside)) ∧ w'.vars = w.vars := by
  simp only [goes_bind, goes_outside, goes_pure]
  constructor
  · rintro ⟨r, w₁, ⟨s, hrun, rfl⟩, -, rfl⟩
    exact ⟨⟨r, hrun⟩, rfl⟩
  · rintro ⟨⟨r, hrun⟩, hvars⟩
    exact ⟨r, _, ⟨_, hrun, rfl⟩, trivial, world_ext.mpr ⟨rfl, hvars⟩⟩

theorem goes_nothing {u : Unit} : Goes (pure () : StepM σ Unit) w u w' ↔ w'.outside = w.outside ∧ w'.vars = w.vars := by
  rw [goes_pure, ← world_ext]
  simp

theorem goes_resetData {setup : Setup} {u : Unit} :
    Goes (resetData o setup) w u w' ↔ (if setup.resetOperationalData then
      ∃ r, o.run "admin.reset_operational_data" [("reset_sequences", .bool setup.resetSequences)] w.outside = (.ok r, w'.outside)
      else w'.outside = w.outside) ∧ w'.vars = w.vars := by
  unfold resetData
  split_ifs
  · exact goes_call
  · exact goes_nothing

theorem goes_freezeClock {setup : Setup} {u : Unit} :
    Goes (freezeClock o setup) w u w' ↔ (match setup.freezeClockAt with
      | some freezeAt => ∃ resolved r, Filled o.printer w.vars (.str freezeAt) resolved ∧
          o.run "clock.freeze" [("at", resolved)] w.outside = (.ok r, w'.outside)
      | none => w'.outside = w.outside) ∧ w'.vars = w.vars := by
  unfold freezeClock
  cases setup.freezeClockAt with
  | none => exact goes_nothing
  | some freezeAt =>
    dsimp only
    rw [goes_bind]
    simp only [goes_vars, goes_bind, goes_ofExcept, interpolate_eq_ok_iff]
    constructor
    · rintro ⟨vs, w₁, ⟨rfl, rfl⟩, resolved, w₂, ⟨hfilled, rfl⟩, hcall⟩
      obtain ⟨⟨r, hrun⟩, hvars⟩ := goes_call.mp (goes_bind.mpr hcall)
      exact ⟨⟨resolved, r, hfilled, hrun⟩, hvars⟩
    · rintro ⟨⟨resolved, r, hfilled, hrun⟩, hvars⟩
      exact ⟨_, w, ⟨rfl, rfl⟩, resolved, w, ⟨hfilled, rfl⟩, goes_bind.mp (goes_call.mpr ⟨⟨r, hrun⟩, hvars⟩)⟩

theorem goes_runSetup {setup : Setup} {u : Unit} :
    Goes (runSetup o setup) w u w' ↔ (∃ s₁, SetUp o setup w.vars w.outside s₁ w'.outside) ∧ w'.vars = w.vars := by
  unfold runSetup
  rw [goes_bind]
  simp only [goes_resetData, goes_freezeClock]
  constructor
  · rintro ⟨-, w₁, ⟨hreset, hvars⟩, hfreeze, hvars'⟩
    rw [hvars] at hfreeze
    exact ⟨⟨w₁.outside, hreset, hfreeze⟩, hvars'.trans hvars⟩
  · rintro ⟨⟨s₁, hreset, hfreeze⟩, hvars⟩
    exact ⟨⟨⟩, ⟨w.vars, s₁⟩, ⟨hreset, rfl⟩, hfreeze, hvars⟩

theorem goes_runTeardown {teardown : Teardown} {u : Unit} :
    Goes (runTeardown o teardown) w u w' ↔ TornDown o teardown w.outside w'.outside ∧ w'.vars = w.vars := by
  unfold runTeardown TornDown
  split_ifs
  · exact goes_call
  · exact goes_nothing

theorem runStep_passes {step : Step} {found : Vars} (h : StepPasses o mode step w found w') :
    runStep o mode step w = (passed step found, w') := by
  have hgoes := goes_stepBody.mpr h
  unfold Goes at hgoes
  unfold runStep
  rw [hgoes]

theorem runStep_stuck {step : Step} {e : String} (h : Stuck o mode step w e w') : runStep o mode step w = (failed step e, w') := by
  unfold runStep
  rw [h.2]

theorem passes_or_stuck (o : Outside σ) (mode : LlmMode) (step : Step) (w : World σ) :
    (∃ found w', StepPasses o mode step w found w') ∨ ∃ e w', Stuck o mode step w e w' := by
  rcases hrun : (stepBody o mode step).run.run w with ⟨e | found, w'⟩
  · refine .inr ⟨e, w', fun found w₁ h => ?_, hrun⟩
    cases hrun.symm.trans (goes_stepBody.mpr h)
  · exact .inl ⟨found, w', goes_stepBody.mp hrun⟩

theorem Went.cons {step : Step} {steps : List Step} {found : Vars} {results : List StepResult} {w'' : World σ}
    (h : StepPasses o mode step w found w') (hs : Went o mode steps w' results w'') :
    Went o mode (step :: steps) w (passed step found :: results) w'' := by
  cases hs with
  | all hs => exact .all (.cons h hs)
  | upTo hsteps hs hstuck => exact .upTo (congrArg (step :: ·) hsteps) (.cons h hs) hstuck

/-- The steps that pass are reported, and the first that cannot. -/
theorem went_runSteps (o : Outside σ) (mode : LlmMode) (steps : List Step) (w : World σ) :
    Went o mode steps w (runSteps o mode steps w).1 (runSteps o mode steps w).2 := by
  induction steps generalizing w with
  | nil => exact .all .nil
  | cons step steps ih =>
    rcases passes_or_stuck o mode step w with ⟨found, w₁, h⟩ | ⟨e, w₁, h⟩
    · have hruns : runSteps o mode (step :: steps) w =
          (passed step found :: (runSteps o mode steps w₁).1, (runSteps o mode steps w₁).2) := by
        rw [runSteps, runStep_passes h]
        rfl
      rw [hruns]
      exact (ih w₁).cons h
    · have hruns : runSteps o mode (step :: steps) w = ([failed step e], w₁) := by
        rw [runSteps, runStep_stuck h]
        rfl
      rw [hruns]
      exact .upTo rfl .nil h

/-- Where all steps pass, that is how it went. -/
theorem Passes.runSteps_eq {steps : List Step} {results : List StepResult} (h : Passes o mode steps w results w') :
    runSteps o mode steps w = (results, w') := by
  induction h with
  | nil => rfl
  | cons hstep _ ih =>
    rw [runSteps, runStep_passes hstep]
    dsimp only
    rw [ih]
    rfl

theorem Passes.ok {steps : List Step} {results : List StepResult} (h : Passes o mode steps w results w') :
    results.all StepResult.ok = true := by
  induction h with
  | nil => rfl
  | cons _ _ ih => exact ih

/-- What was captured is there for the steps that follow. -/
theorem Passes.vars {steps : List Step} {results : List StepResult} (h : Passes o mode steps w results w') :
    w'.vars = results.foldl (fun vs r => merge vs r.captured) w.vars := by
  induction h with
  | nil => rfl
  | cons hstep _ ih =>
    rw [ih]
    cases hstep <;> rfl

theorem runScenario_of_ready {runId : String} {sc : Scenario} {s : σ} (h : Ready o runId sc s w) :
    runScenario o mode runId sc s = finish o sc (runSteps o mode sc.steps w) := by
  obtain ⟨hseeded, hsetup⟩ := h
  have hgoes : Goes (runSetup o sc.setup) ⟨w.vars, s⟩ ⟨⟩ w := goes_runSetup.mpr ⟨hsetup, rfl⟩
  unfold Goes at hgoes
  unfold runScenario newContext
  rw [seedInto_eq_ok_iff.mpr hseeded]
  dsimp only
  rw [hgoes]

theorem runScenario_of_not_ready (mode : LlmMode) {runId : String} {sc : Scenario} {s : σ}
    (h : ∀ w, ¬ Ready o runId sc s w) :
    ∃ e vs s', runScenario o mode runId sc s = (⟨sc.name, false, [], some e, none, vs⟩, s') := by
  unfold runScenario newContext
  cases hseed : seedInto o [("run_id", .str runId)] sc.seed with
  | error e => exact ⟨e, [], s, rfl⟩
  | ok vs =>
    dsimp only
    rcases hrun : (runSetup o sc.setup).run.run ⟨vs, s⟩ with ⟨e | u, w⟩
    · exact ⟨e, _, _, rfl⟩
    · obtain ⟨hsetup, hvars⟩ := goes_runSetup.mp (show Goes (runSetup o sc.setup) ⟨vs, s⟩ u w from hrun)
      refine absurd ?_ (h w)
      unfold Ready
      rw [hvars]
      exact ⟨seedInto_eq_ok_iff.mp hseed, hsetup⟩

theorem TornDown.unique {teardown : Teardown} {s s₁ s₂ : σ} (h₁ : TornDown o teardown s s₁) (h₂ : TornDown o teardown s s₂) :
    s₁ = s₂ := by
  unfold TornDown at h₁ h₂
  split_ifs at h₁ h₂
  · obtain ⟨r, hr⟩ := h₁
    obtain ⟨r', hr'⟩ := h₂
    exact (Prod.mk.inj (hr.symm.trans hr')).2
  · rw [h₁, h₂]

theorem finish_torn {sc : Scenario} {results : List StepResult} {s' : σ} (h : TornDown o sc.teardown w.outside s') :
    finish o sc (results, w) = (⟨sc.name, results.all StepResult.ok, results, none, none, w.vars⟩, s') := by
  have hgoes : Goes (runTeardown o sc.teardown) w ⟨⟩ ⟨w.vars, s'⟩ := goes_runTeardown.mpr ⟨h, rfl⟩
  unfold Goes at hgoes
  unfold finish
  rw [hgoes]
  simp [errorOf]

theorem finish_not_torn {sc : Scenario} (results : List StepResult) (h : ∀ s', ¬ TornDown o sc.teardown w.outside s') :
    ∃ e vs s', finish o sc (results, w) = (⟨sc.name, false, results, none, some e, vs⟩, s') := by
  unfold finish
  rcases hrun : (runTeardown o sc.teardown).run.run w with ⟨e | u, w'⟩
  · exact ⟨e, w'.vars, w'.outside, by simp [errorOf]⟩
  · exact absurd (goes_runTeardown.mp (show Goes (runTeardown o sc.teardown) w u w' from hrun)).1 (h _)

theorem Went.ok_iff {steps : List Step} {results : List StepResult} (h : Went o mode steps w results w') :
    results.all StepResult.ok = true ↔ Passes o mode steps w results w' := by
  refine ⟨fun hok => ?_, Passes.ok⟩
  cases h with
  | all h => exact h
  | upTo _ _ _ => simp [failed] at hok

end

end BssCli.Scenarios
