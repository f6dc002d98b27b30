import Mathlib.Data.List.Basic
import Mathlib.Tactic.SplitIfs

/-!
# Programs that call

A program is done, or it calls and goes on with the reply. Nothing is known of the replies. A rule says what each call and the
result have to be, given the calls and replies before them.
-/

universe u v w

/-- `ι` are the calls, `ρ` the replies. -/
inductive Program (ι : Type u) (ρ : Type v) (α : Type w) : Type (max u v w)
  | done (a : α)
  | ask (c : ι) (next : ρ → Program ι ρ α)

namespace Program

variable {ι : Type u} {ρ : Type v} {α β ε : Type w}

def bind : Program ι ρ α → (α → Program ι ρ β) → Program ι ρ β
  | .done a, f => f a
  | .ask c next, f => .ask c fun r => (next r).bind f

instance instMonad : Monad (Program ι ρ) where
  pure := .done
  bind := bind

/-- A call whose reply is the result. -/
def call (c : ι) : Program ι ρ ρ := .ask c .done

/-! ## What a program says -/

/-- Every call meets `P` and every result `Q`, whatever is replied. Both may look at what was said before. -/
inductive Says (P : List (ι × ρ) → ι → Prop) (Q : List (ι × ρ) → α → Prop) : List (ι × ρ) → Program ι ρ α → Prop
  | done {said : List (ι × ρ)} {a : α} (h : Q said a) : Says P Q said (.done a)
  | ask {said : List (ι × ρ)} {c : ι} {next : ρ → Program ι ρ α} (hc : P said c)
      (h : ∀ r, Says P Q (said ++ [(c, r)]) (next r)) : Says P Q said (.ask c next)

variable {P : List (ι × ρ) → ι → Prop} {Q Q' : List (ι × ρ) → α → Prop} {said : List (ι × ρ)}

theorem says_done {a : α} : Says P Q said (.done a : Program ι ρ α) ↔ Q said a := by
  refine ⟨?_, .done⟩
  rintro ⟨h⟩
  exact h

theorem says_ask {c : ι} {next : ρ → Program ι ρ α} :
    Says P Q said (.ask c next) ↔ P said c ∧ ∀ r, Says P Q (said ++ [(c, r)]) (next r) := by
  refine ⟨?_, fun h => .ask h.1 h.2⟩
  rintro ⟨⟩
  exact ⟨by assumption, by assumption⟩

theorem says_bind {p : Program ι ρ α} {f : α → Program ι ρ β} {R : List (ι × ρ) → β → Prop} :
    Says P R said (p.bind f) ↔ Says P (fun said a => Says P R said (f a)) said p := by
  induction p generalizing said with
  | done a =>
    rw [says_done]
    rfl
  | ask c next ih =>
    rw [says_ask, bind, says_ask]
    exact and_congr_right fun _ => forall_congr' fun r => ih r

theorem Says.mono {p : Program ι ρ α} (h : Says P Q said p) (hQ : ∀ said a, Q said a → Q' said a) : Says P Q' said p := by
  induction h with
  | done h => exact .done (hQ _ _ h)
  | ask hc _ ih => exact .ask hc ih

/-! ## Programs that may fail -/

section

variable {x : ExceptT ε (Program ι ρ) α} {f : α → ExceptT ε (Program ι ρ) β} {R : List (ι × ρ) → Except ε β → Prop}

/-- What is to be said after the first part: the rest where it went well, and the result where it failed. -/
def after (P : List (ι × ρ) → ι → Prop) (R : List (ι × ρ) → Except ε β → Prop) (f : α → ExceptT ε (Program ι ρ) β)
    (said : List (ι × ρ)) : Except ε α → Prop
  | .ok a => Says P R said (f a).run
  | .error e => R said (.error e)

theorem says_bind_run : Says P R said (x >>= f).run ↔ Says P (after P R f) said x.run := by
  refine says_bind.trans ?_
  suffices h : (fun said a => Says P R said (ExceptT.bindCont f a)) = after P R f by rw [h]; rfl
  funext said a
  cases a with
  | ok a => rfl
  | error e => exact propext says_done

theorem says_pure_run {a : α} {R : List (ι × ρ) → Except ε α → Prop} :
    Says P R said (pure a : ExceptT ε (Program ι ρ) α).run ↔ R said (.ok a) := says_done

/-- What needs no call. -/
def ofExcept (e : Except ε α) : ExceptT ε (Program ι ρ) α := ExceptT.mk (.done e)

theorem says_ofExcept {e : Except ε α} {R : List (ι × ρ) → Except ε α → Prop} :
    Says P R said (ofExcept e : ExceptT ε (Program ι ρ) α).run ↔ R said e := says_done

end

/-! ## Runs -/

/-- What was said, and the program that is left. -/
structure Run (ι : Type u) (ρ : Type v) (α : Type w) where
  said : List (ι × ρ)
  rest : Program ι ρ α

def Run.step (s : Run ι ρ α) (r : ρ) : Option (Run ι ρ α) :=
  match s.rest with
  | .done _ => none
  | .ask c next => some ⟨s.said ++ [(c, r)], next r⟩

def Run.Says (P : List (ι × ρ) → ι → Prop) (Q : List (ι × ρ) → α → Prop) (s : Run ι ρ α) : Prop := s.rest.Says P Q s.said

theorem Run.Says.step {s s' : Run ι ρ α} {r : ρ} (h : s.Says P Q) (hstep : s.step r = some s') : s'.Says P Q := by
  unfold Run.step at hstep
  split at hstep
  · cases hstep
  · rename_i c next hrest
    obtain rfl := Option.some.inj hstep
    unfold Run.Says at h
    rw [hrest] at h
    exact (says_ask.mp h).2 r

/-- The calls that were made, each with what was said before it, and the one that waits for its reply. -/
def Run.Asked (s : Run ι ρ α) (before : List (ι × ρ)) (c : ι) : Prop :=
  (∃ r after, s.said = before ++ (c, r) :: after) ∨ s.said = before ∧ ∃ next, s.rest = .ask c next

/-- The calls of a run of a program are those that it may make. -/
structure Run.Sound (P : List (ι × ρ) → ι → Prop) (Q : List (ι × ρ) → α → Prop) (s : Run ι ρ α) : Prop where
  past : ∀ before c r after, s.said = before ++ (c, r) :: after → P before c
  future : s.Says P Q

theorem Run.Sound.start {p : Program ι ρ α} (h : p.Says P Q []) : Run.Sound P Q ⟨[], p⟩ :=
  ⟨fun before c r after hsaid => absurd hsaid (by simp), h⟩

theorem Run.Sound.step {s s' : Run ι ρ α} {r : ρ} (h : s.Sound P Q) (hstep : s.step r = some s') : s'.Sound P Q := by
  refine ⟨?_, h.future.step hstep⟩
  have hfuture := h.future
  unfold Run.step at hstep
  split at hstep
  · cases hstep
  · rename_i c next hrest
    obtain rfl := Option.some.inj hstep
    unfold Run.Says at hfuture
    rw [hrest] at hfuture
    intro before c' r' after hsaid
    rcases List.eq_nil_or_concat after with rfl | ⟨after, last, rfl⟩
    · obtain ⟨hbefore, hlast⟩ := List.append_inj' hsaid rfl
      have hc : c = c' := congrArg Prod.fst (List.cons.inj hlast).1
      rw [← hbefore, ← hc]
      exact (says_ask.mp hfuture).1
    · rw [List.concat_eq_append, ← List.cons_append, ← List.append_assoc] at hsaid
      exact h.past before c' r' after (List.append_inj' hsaid rfl).1

theorem Run.Sound.asked {s : Run ι ρ α} {before : List (ι × ρ)} {c : ι} (h : s.Sound P Q) (hc : s.Asked before c) :
    P before c := by
  rcases hc with ⟨r, after, hsaid⟩ | ⟨rfl, next, hrest⟩
  · exact h.past before c r after hsaid
  · have hfuture := h.future
    unfold Run.Says at hfuture
    rw [hrest] at hfuture
    exact (says_ask.mp hfuture).1

theorem Run.Sound.result {s : Run ι ρ α} {a : α} (h : s.Sound P Q) (ha : s.rest = .done a) : Q s.said a := by
  have hfuture := h.future
  unfold Run.Says at hfuture
  rw [ha] at hfuture
  exact says_done.mp hfuture

/-! ## Replies that are known -/

/-- The result where every call is answered by a function. -/
def handle (f : ι → ρ) : Program ι ρ α → α
  | .done a => a
  | .ask c next => (next (f c)).handle f

theorem handle_bind (f : ι → ρ) (p : Program ι ρ α) (g : α → Program ι ρ β) :
    (p.bind g).handle f = (g (p.handle f)).handle f := by
  induction p with
  | done a => rfl
  | ask c next ih => exact ih (f c)

end Program

/-! ## Programs that change a state -/

/-- A program that may fail keeps its state: what was done before the error stays done. -/
abbrev Stateful (ε σ α : Type u) := ExceptT ε (StateM σ) α

namespace Stateful

variable {ε σ α β : Type u}

/-- From one state to another, with a result. -/
def Goes (m : Stateful ε σ α) (s : σ) (a : α) (s' : σ) : Prop := m.run.run s = (.ok a, s')

variable {m : Stateful ε σ α} {f : α → Stateful ε σ β} {s s' : σ} {a : α} {b : β} {e : ε}

theorem goes_pure {b : α} : Goes (pure a : Stateful ε σ α) s b s' ↔ b = a ∧ s' = s := by
  constructor
  · rintro ⟨⟩
    exact ⟨rfl, rfl⟩
  · rintro ⟨rfl, rfl⟩
    rfl

theorem goes_throw : ¬ Goes (throw e : Stateful ε σ α) s a s' := nofun

theorem goes_bind : Goes (m >>= f) s b s' ↔ ∃ a s₁, Goes m s a s₁ ∧ Goes (f a) s₁ b s' := by
  have hrun : (m >>= f).run.run s =
      match m.run.run s with
      | (.ok a, s₁) => (f a).run.run s₁
      | (.error e, s₁) => (.error e, s₁) := by
    show (ExceptT.bindCont f (m.run.run s).1).run (m.run.run s).2 = _
    rcases m.run.run s with ⟨_ | _, s₁⟩ <;> rfl
  unfold Goes
  rw [hrun]
  rcases m.run.run s with ⟨e | a, s₁⟩
  · refine iff_of_false nofun ?_
    rintro ⟨a, s', h, -⟩
    cases h
  · constructor
    · intro h
      exact ⟨a, s₁, rfl, h⟩
    · rintro ⟨a', s', ha, h⟩
      cases ha
      exact h

/-- What leaves the state as it is. -/
def ofExcept (r : Except ε α) : Stateful ε σ α := ExceptT.mk fun s => (r, s)

theorem goes_ofExcept {r : Except ε α} : Goes (ofExcept r) s a s' ↔ r = .ok a ∧ s' = s :=
  Prod.ext_iff.trans (and_congr_right fun _ => eq_comm)

def ensure (c : Prop) [Decidable c] (e : ε) : Stateful ε σ PUnit := if c then pure ⟨⟩ else throw e

theorem goes_ensure {c : Prop} [Decidable c] {u : PUnit} : Goes (ensure c e : Stateful ε σ PUnit) s u s' ↔ c ∧ s' = s := by
  unfold ensure
  split_ifs with hc
  · rw [goes_pure]
    simp [hc]
  · exact iff_of_false goes_throw fun h => hc h.1

end Stateful
