import Mathlib.Data.List.Induction

/-!
# Runs of a step function

A system is a partial function from a state and a label to the next state. A run
takes a list of labels in order. Everything here is about any such system.
-/

namespace Steps

variable {σ τ ι : Type*} {step : σ → ι → Option σ}

/-- Takes the labels in order. `none` when one of them cannot be taken. -/
def exec (step : σ → ι → Option σ) : σ → List ι → Option σ
  | s, [] => some s
  | s, l :: ls => (step s l).bind fun s' => exec step s' ls

@[simp]
theorem exec_nil (s : σ) : exec step s [] = some s := rfl

theorem exec_cons (s s'' : σ) (l : ι) (ls : List ι) :
    exec step s (l :: ls) = some s'' ↔ ∃ s', step s l = some s' ∧ exec step s' ls = some s'' := by
  simp [exec, Option.bind_eq_some_iff]

theorem exec_append (s s'' : σ) (ls ms : List ι) :
    exec step s (ls ++ ms) = some s'' ↔
      ∃ s', exec step s ls = some s' ∧ exec step s' ms = some s'' := by
  induction ls generalizing s with
  | nil => simp
  | cons l ls ih =>
    simp only [List.cons_append, exec_cons, ih]
    constructor
    · rintro ⟨s₁, h₁, s₂, h₂, h₃⟩
      exact ⟨s₂, ⟨s₁, h₁, h₂⟩, h₃⟩
    · rintro ⟨s₂, ⟨s₁, h₁, h₂⟩, h₃⟩
      exact ⟨s₁, h₁, s₂, h₂, h₃⟩

/-- What every step keeps, every run keeps. -/
theorem exec_inv {P : σ → Prop} (hstep : ∀ s l s', P s → step s l = some s' → P s')
    {s s' : σ} {ls : List ι} (hs : P s) (h : exec step s ls = some s') : P s' := by
  induction ls generalizing s with
  | nil => simp only [exec_nil, Option.some.injEq] at h; exact h ▸ hs
  | cons l ls ih =>
    obtain ⟨s₁, h₁, h₂⟩ := (exec_cons ..).mp h
    exact ih (hstep _ _ _ hs h₁) h₂

/-- The same, of a state and the labels that led to it. -/
theorem exec_history {P : List ι → σ → Prop} {s s' : σ} {ls : List ι}
    (hstep : ∀ ms t l t', exec step s ms = some t → P ms t → step t l = some t' → P (ms ++ [l]) t')
    (hs : P [] s) (h : exec step s ls = some s') : P ls s' := by
  induction ls using List.reverseRecOn generalizing s' with
  | nil => simp only [exec_nil, Option.some.injEq] at h; exact h ▸ hs
  | append_singleton ls l ih =>
    obtain ⟨t, ht, hl⟩ := (exec_append ..).mp h
    obtain ⟨t', ht', hnil⟩ := (exec_cons ..).mp hl
    obtain rfl := Option.some.inj hnil
    exact hstep ls t l _ ht (ih ht) ht'

/-! ## Steps under a condition -/

/-- The steps that meet `C` in the state before them. -/
def guarded (C : σ → ι → Prop) [∀ s l, Decidable (C s l)] (step : σ → ι → Option σ) (s : σ) (l : ι) :
    Option σ :=
  if C s l then step s l else none

variable {C : σ → ι → Prop} [∀ s l, Decidable (C s l)]

theorem guarded_eq_some {s s' : σ} {l : ι} :
    guarded C step s l = some s' ↔ C s l ∧ step s l = some s' := by
  simp [guarded]

/-- What every step that meets the condition keeps, every run of such steps keeps. -/
theorem guarded_inv {P : σ → Prop} (hstep : ∀ s l s', P s → C s l → step s l = some s' → P s')
    {s s' : σ} {ls : List ι} (hs : P s) (h : exec (guarded C step) s ls = some s') : P s' := by
  refine exec_inv ?_ hs h
  intro s l s' hP hg
  obtain ⟨hC, hl⟩ := guarded_eq_some.mp hg
  exact hstep s l s' hP hC hl

/-! ## Simulation -/

/-- If every concrete step is a run of the abstract system, so is every concrete run. -/
theorem exec_simulates {κ : Type*} {astep : τ → κ → Option τ} {R : σ → τ → Prop}
    (hstep : ∀ s l s' t, R s t → step s l = some s' → ∃ ks t', exec astep t ks = some t' ∧ R s' t')
    {s s' : σ} {t : τ} {ls : List ι} (hR : R s t) (h : exec step s ls = some s') :
    ∃ ks t', exec astep t ks = some t' ∧ R s' t' := by
  induction ls generalizing s t with
  | nil =>
    simp only [exec_nil, Option.some.injEq] at h
    exact ⟨[], t, rfl, h ▸ hR⟩
  | cons l ls ih =>
    obtain ⟨s₁, h₁, h₂⟩ := (exec_cons ..).mp h
    obtain ⟨ks, t₁, hk, hR₁⟩ := hstep _ _ _ _ hR h₁
    obtain ⟨ks', t', hk', hR'⟩ := ih hR₁ h₂
    exact ⟨ks ++ ks', t', (exec_append ..).mpr ⟨t₁, hk, hk'⟩, hR'⟩

/-- The same, where the abstract step of a label is known. -/
theorem exec_simulates_map {κ : Type*} {astep : τ → κ → Option τ} {R : σ → τ → Prop} (f : ι → κ)
    (hstep : ∀ s l s' t, R s t → step s l = some s' → ∃ t', astep t (f l) = some t' ∧ R s' t')
    {s s' : σ} {t : τ} {ls : List ι} (hR : R s t) (h : exec step s ls = some s') :
    ∃ t', exec astep t (ls.map f) = some t' ∧ R s' t' := by
  induction ls generalizing s t with
  | nil =>
    simp only [exec_nil, Option.some.injEq] at h
    exact ⟨t, rfl, h ▸ hR⟩
  | cons l ls ih =>
    obtain ⟨s₁, h₁, h₂⟩ := (exec_cons ..).mp h
    obtain ⟨t₁, ht₁, hR₁⟩ := hstep _ _ _ _ hR h₁
    obtain ⟨t', ht', hR'⟩ := ih hR₁ h₂
    exact ⟨t', (exec_cons ..).mpr ⟨t₁, ht₁, ht'⟩, hR'⟩

end Steps

/-!
## A gate that waits for everybody

A list of keys is required. They arrive in any order, again and again. The gate opens at the
arrival that completes the list, and at no other.
-/

namespace Gate

open Steps

variable {κ : Type*} [DecidableEq κ]

/-- Who has arrived, and how often the gate was opened. -/
structure State (κ : Type*) where
  arrived : List κ
  opened : ℕ

def closed : State κ := ⟨[], 0⟩

def Complete (required arrived : List κ) : Prop := ∀ k ∈ required, k ∈ arrived

instance (required arrived : List κ) : Decidable (Complete required arrived) :=
  inferInstanceAs (Decidable (∀ k ∈ required, k ∈ arrived))

/-- An open gate stays as it is. -/
def arrive (required : List κ) (g : State κ) (k : κ) : Option (State κ) :=
  some
    { arrived := g.arrived ++ [k]
      opened := if g.opened = 0 ∧ Complete required (g.arrived ++ [k]) then g.opened + 1 else g.opened }

omit [DecidableEq κ] in
theorem Complete.append {required arrived : List κ} (h : Complete required arrived) (ks : List κ) :
    Complete required (arrived ++ ks) :=
  fun k hk => List.mem_append_left _ (h k hk)

variable {required : List κ} {g g' : State κ}

theorem exec_arrived {ks : List κ} (h : exec (arrive required) g ks = some g') :
    g'.arrived = g.arrived ++ ks := by
  induction ks generalizing g with
  | nil => simp_all
  | cons k ks ih =>
    obtain ⟨g₁, h₁, h₂⟩ := (exec_cons ..).mp h
    rw [ih h₂, ← Option.some.inj h₁]
    simp

/-- The gate is open once everybody is there, and was opened once then. -/
theorem exec_opened {ks : List κ} (hr : required ≠ []) (h : exec (arrive required) closed ks = some g) :
    g.opened = if Complete required ks then 1 else 0 := by
  have hinv : g.opened = if Complete required g.arrived then 1 else 0 := by
    refine exec_inv (P := fun s => s.opened = if Complete required s.arrived then 1 else 0) ?_ ?_ h
    · intro s k s' hs hstep
      cases hstep
      dsimp only
      by_cases hold : Complete required s.arrived
      · rw [if_pos hold] at hs
        rw [if_pos (hold.append [k]), if_neg (by omega), hs]
      · rw [if_neg hold] at hs
        rw [hs]
        simp
    · obtain ⟨k, hk⟩ := List.exists_mem_of_ne_nil required hr
      rw [if_neg fun hall => absurd (hall k hk) (by simp [closed])]
      rfl
  rwa [exec_arrived h, show (closed : State κ).arrived = [] from rfl, List.nil_append] at hinv

end Gate
