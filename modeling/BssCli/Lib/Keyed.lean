import Mathlib.Logic.Basic

/-!
# Requests under a key

A service keeps the reply to a request under the key of the request. Under the same key it
gives that reply again and does nothing. A refused request is not kept and changes nothing.
-/

namespace Keyed

variable {σ κ γ ρ ε : Type*}

structure Service (σ κ γ ρ ε : Type*) where
  call : κ → γ → σ → σ × Except ε ρ
  /-- The reply that is kept for a key. -/
  replied : σ → κ → Option ρ

/-- How far a request and its reply come. -/
inductive Reach
  | answered
  | replyLost
  | requestLost
  deriving DecidableEq

def Reach.arrives : Reach → Bool
  | .answered | .replyLost => true
  | .requestLost => false

namespace Service

variable (S : Service σ κ γ ρ ε)

structure Idempotent : Prop where
  repeats : ∀ {s k r} (c : γ), S.replied s k = some r → S.call k c s = (s, .ok r)
  keeps : ∀ {s k c r}, (S.call k c s).2 = .ok r → S.replied (S.call k c s).1 k = some r
  others : ∀ {s k k'} (c : γ), k' ≠ k → S.replied (S.call k c s).1 k' = S.replied s k'
  refuses : ∀ {s k c e}, (S.call k c s).2 = .error e → (S.call k c s).1 = s

/-- What the caller is told. `e` stands for no reply. -/
def send (reach : Reach) (e : ε) (k : κ) (c : γ) (s : σ) : σ × Except ε ρ :=
  match reach with
  | .answered => S.call k c s
  | .replyLost => ((S.call k c s).1, .error e)
  | .requestLost => (s, .error e)

variable {S}

theorem send_fst (reach : Reach) (e : ε) (k : κ) (c : γ) (s : σ) :
    (S.send reach e k c s).1 = if reach.arrives then (S.call k c s).1 else s := by
  cases reach <;> rfl

theorem send_snd (reach : Reach) (e : ε) (k : κ) (c : γ) (s : σ) :
    (S.send reach e k c s).2 = if reach = .answered then (S.call k c s).2 else .error e := by
  cases reach <;> rfl

end Service

/-! ## A service that keeps its replies in a table -/

structure Ledger (κ ρ α : Type*) where
  replies : κ → Option ρ
  state : α

variable {α : Type*} [DecidableEq κ]

/-- `act` is what a request does the first time. -/
def serve (act : γ → α → Except ε (α × ρ)) : Service (Ledger κ ρ α) κ γ ρ ε where
  call k c s :=
    match s.replies k with
    | some r => (s, .ok r)
    | none =>
      match act c s.state with
      | .ok (state, r) => (⟨fun k' => if k' = k then some r else s.replies k', state⟩, .ok r)
      | .error e => (s, .error e)
  replied s k := s.replies k

theorem serve_idempotent (act : γ → α → Except ε (α × ρ)) :
    (serve act : Service (Ledger κ ρ α) κ γ ρ ε).Idempotent where
  repeats {s k r} c h := by
    simp only [serve] at h ⊢
    rw [h]
  keeps {s k c r} h := by
    simp only [serve] at h ⊢
    split at h
    · rename_i hk
      rw [hk]
      exact congrArg some (Except.ok.inj h)
    · split at h
      · simpa using h
      · cases h
  others {s k k'} c h := by
    simp only [serve]
    split
    · rfl
    · split
      · exact if_neg h
      · rfl
  refuses {s k c e} h := by
    simp only [serve] at h ⊢
    split at h
    · cases h
    · split at h
      · cases h
      · rfl

end Keyed
