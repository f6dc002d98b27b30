import Mathlib.Data.List.Basic
import Mathlib.Data.List.Chain

/-!
# Transition tables

A table of triggers, each with a source and a target. The first row that fits a state and a
trigger says where they lead.
-/

namespace Fsm

variable {τ σ : Type*}

structure Rule (τ σ : Type*) where
  trigger : τ
  source : σ
  target : σ

/-- A row of the table leads from one state to the other. -/
def Edge (rules : List (Rule τ σ)) (s s' : σ) : Prop := ∃ r ∈ rules, r.source = s ∧ r.target = s'

instance [DecidableEq σ] (rules : List (Rule τ σ)) (s s' : σ) : Decidable (Edge rules s s') :=
  inferInstanceAs (Decidable (∃ r ∈ rules, _))

/-- No row leads out of the state. -/
def Final (rules : List (Rule τ σ)) (s : σ) : Prop := ∀ r ∈ rules, r.source ≠ s

instance [DecidableEq σ] (rules : List (Rule τ σ)) (s : σ) : Decidable (Final rules s) :=
  inferInstanceAs (Decidable (∀ r ∈ rules, _))

theorem Edge.not_final {rules : List (Rule τ σ)} {s s' : σ} (h : Edge rules s s') : ¬ Final rules s := by
  obtain ⟨r, hr, hs, -⟩ := h
  exact fun hfinal => hfinal r hr hs

variable [DecidableEq τ] [DecidableEq σ]

def fits (s : σ) (t : τ) (r : Rule τ σ) : Bool := r.trigger = t ∧ r.source = s

def isValidTransition (rules : List (Rule τ σ)) (s : σ) (t : τ) : Bool := rules.any (fits s t)

def getNextState (rules : List (Rule τ σ)) (s : σ) (t : τ) : Option σ :=
  (rules.find? (fits s t)).map Rule.target

theorem getNextState_isSome {rules : List (Rule τ σ)} {s : σ} {t : τ} :
    (getNextState rules s t).isSome ↔ isValidTransition rules s t := by
  simp [getNextState, isValidTransition]

theorem getNextState_mem {rules : List (Rule τ σ)} {s s' : σ} {t : τ}
    (h : getNextState rules s t = some s') : ⟨t, s, s'⟩ ∈ rules := by
  obtain ⟨r, hr, rfl⟩ := Option.map_eq_some_iff.mp h
  have hfits : r.trigger = t ∧ r.source = s := by simpa [fits] using List.find?_some hr
  obtain ⟨rfl, rfl⟩ := hfits
  exact List.mem_of_find?_eq_some hr

theorem getNextState_edge {rules : List (Rule τ σ)} {s s' : σ} {t : τ}
    (h : getNextState rules s t = some s') : Edge rules s s' :=
  ⟨_, getNextState_mem h, rfl, rfl⟩

end Fsm

/-!
## Walks and their labels

A walk is a list of edges, each starting where the one before ended. Some edges carry a
label. When each state knows the only label that can come next, no label of a walk comes
twice in a row.
-/

namespace Walk

variable {σ ε κ : Type*} {src dst : ε → σ}

/-- The edges lead from the first state to the last. -/
def IsWalk (src dst : ε → σ) : σ → List ε → σ → Prop
  | a, [], b => a = b
  | a, e :: es, b => src e = a ∧ IsWalk src dst (dst e) es b

@[simp] theorem isWalk_nil {a b : σ} : IsWalk src dst a [] b ↔ a = b := Iff.rfl

@[simp]
theorem isWalk_cons {a b : σ} {e : ε} {es : List ε} :
    IsWalk src dst a (e :: es) b ↔ src e = a ∧ IsWalk src dst (dst e) es b := Iff.rfl

def decidableIsWalk [DecidableEq σ] (src dst : ε → σ) (b : σ) : (a : σ) → (es : List ε) → Decidable (IsWalk src dst a es b)
  | a, [] => inferInstanceAs (Decidable (a = b))
  | a, e :: es =>
    have := decidableIsWalk src dst b (dst e) es
    inferInstanceAs (Decidable (src e = a ∧ IsWalk src dst (dst e) es b))

instance [DecidableEq σ] {a b : σ} {es : List ε} : Decidable (IsWalk src dst a es b) := decidableIsWalk src dst b a es

theorem isWalk_append {a b c : σ} {es fs : List ε} (h : IsWalk src dst a es b)
    (h' : IsWalk src dst b fs c) : IsWalk src dst a (es ++ fs) c := by
  induction es generalizing a with
  | nil => rw [isWalk_nil] at h; exact h ▸ h'
  | cons e es ih =>
    obtain ⟨he, hes⟩ := isWalk_cons.mp h
    exact isWalk_cons.mpr ⟨he, ih hes⟩

/-- A walk ends in one place. -/
theorem isWalk_unique {a b b' : σ} {es : List ε} (h : IsWalk src dst a es b) (h' : IsWalk src dst a es b') :
    b = b' := by
  induction es generalizing a with
  | nil =>
    rw [isWalk_nil] at h h'
    exact h.symm.trans h'
  | cons e es ih => exact ih (isWalk_cons.mp h).2 (isWalk_cons.mp h').2

/-! ## Labels -/

/-- `next` is the only label that can come after a state. An edge with a label takes it
away, and an edge without one does not bring a new one. -/
structure Paced (label : ε → Option κ) (next : σ → Option κ) (src dst : ε → σ) (e : ε) : Prop where
  labelled : ∀ k, label e = some k → next (src e) = some k ∧ next (dst e) ≠ some k
  silent : ∀ k, label e = none → next (dst e) = some k → next (src e) = some k

/-- The first label of a walk is the one its start allows, and no label repeats at once. -/
theorem labels_isChain {label : ε → Option κ} {next : σ → Option κ} {a b : σ} {es : List ε}
    (h : IsWalk src dst a es b) (hpaced : ∀ e ∈ es, Paced label next src dst e) :
    (∀ k ∈ (es.filterMap label).head?, next a = some k) ∧
      (es.filterMap label).IsChain (· ≠ ·) := by
  induction es generalizing a with
  | nil => simp
  | cons e es ih =>
    obtain ⟨rfl, hes⟩ := isWalk_cons.mp h
    obtain ⟨he, hrest⟩ := List.forall_mem_cons.mp hpaced
    obtain ⟨hhead, hchain⟩ := ih hes hrest
    cases hl : label e with
    | none =>
      rw [List.filterMap_cons_none hl]
      exact ⟨fun k hk => he.silent k hl (hhead k hk), hchain⟩
    | some k =>
      obtain ⟨hsrc, hdst⟩ := he.labelled k hl
      rw [List.filterMap_cons_some hl]
      refine ⟨by simpa using hsrc, hchain.cons fun k' hk' heq => ?_⟩
      exact hdst (heq ▸ hhead k' hk')

end Walk
