/-!
# Values that are loaded again

A reader keeps the last value that it could load, with the stamp that its source had. Where the stamp of the source still passes, it does
not load. A source that changes only under stamps that do not pass cannot tell it from the reader that loads every time.
-/

universe u

/-- What was loaded last, and under which stamp. -/
structure Kept (τ α : Type u) where
  stamp : τ
  value : α

/-- Answers from the stamp of the source, from what a load would give, and from what it keeps. -/
structure Reloader (τ ε α κ : Type u) where
  empty : κ
  read : τ → Except ε α → κ → Except ε α × κ

namespace Reloader

variable {τ ε α : Type u} (passes : τ → τ → Bool) (fallback : ε → Option α)

/-- `fallback` is for a load that fails where nothing is kept. -/
def caching : Reloader τ ε α (Option (Kept τ α)) where
  empty := none
  read stamp load kept :=
    match kept with
    | some k =>
      if passes k.stamp stamp then (.ok k.value, some k)
      else match load with
        | .ok a => (.ok a, some ⟨stamp, a⟩)
        | .error _ => (.ok k.value, some k)
    | none =>
      match load with
      | .ok a => (.ok a, some ⟨stamp, a⟩)
      | .error e => ((fallback e).elim (.error e) .ok, (fallback e).map (Kept.mk stamp))

/-- Loads every time, and keeps the last value that it could load. -/
def plain : Reloader τ ε α (Option α) where
  empty := none
  read _ load last :=
    match load with
    | .ok a => (.ok a, some a)
    | .error e => ((last.or (fallback e)).elim (.error e) .ok, last.or (fallback e))

/-- What is kept under a stamp that passes is what a load would give. A load that fails gives nothing. -/
def Current (stamp : τ) (load : Except ε α) (kept : Option (Kept τ α)) : Prop :=
  ∀ k ∈ kept, passes k.stamp stamp = true → ∀ a, load = .ok a → a = k.value

variable {passes fallback} {stamp : τ} {load : Except ε α} {kept : Option (Kept τ α)}

theorem caching_read (h : Current passes stamp load kept) :
    ((caching passes fallback).read stamp load kept).1 = ((plain fallback).read stamp load (kept.map Kept.value)).1 ∧
      ((caching passes fallback).read stamp load kept).2.map Kept.value = ((plain fallback).read stamp load (kept.map Kept.value)).2 := by
  unfold caching plain
  cases kept with
  | none =>
    cases load with
    | ok a => exact ⟨rfl, rfl⟩
    | error e => cases he : fallback e <;> simp [he]
  | some k =>
    by_cases hpass : passes k.stamp stamp = true
    · cases load with
      | ok a => simp [hpass, h k rfl hpass a rfl]
      | error e => simp [hpass]
    · cases load <;> simp [hpass]

/-- What is kept afterwards: what was kept, or what was loaded now. -/
theorem caching_keeps {k : Kept τ α} (h : ((caching passes fallback).read stamp load kept).2 = some k) :
    kept = some k ∨ k.stamp = stamp ∧ (load = .ok k.value ∨ ∃ e, load = .error e ∧ fallback e = some k.value) := by
  unfold caching at h
  cases kept with
  | none =>
    cases load with
    | ok a =>
      obtain rfl := Option.some.inj h
      exact .inr ⟨rfl, .inl rfl⟩
    | error e =>
      obtain ⟨a, ha, rfl⟩ := Option.map_eq_some_iff.mp h
      exact .inr ⟨rfl, .inr ⟨e, rfl, ha⟩⟩
  | some k' =>
    by_cases hpass : passes k'.stamp stamp = true
    · simp only [hpass, if_true] at h
      exact .inl h
    · cases load with
      | ok a =>
        simp only [hpass] at h
        obtain rfl := Option.some.inj h
        exact .inr ⟨rfl, .inl rfl⟩
      | error e =>
        simp only [hpass] at h
        exact .inl h

/-- What is true of everything that is kept, loaded or put in its place is true of what is kept and answered. -/
theorem caching_forall {P : α → Prop} (hkept : ∀ k ∈ kept, P k.value) (hload : ∀ a, load = .ok a → P a)
    (hfallback : ∀ e a, fallback e = some a → P a) : (∀ a, ((caching passes fallback).read stamp load kept).1 = .ok a → P a) ∧
      ∀ k ∈ ((caching passes fallback).read stamp load kept).2, P k.value := by
  constructor
  · unfold caching
    cases kept with
    | none =>
      cases load with
      | ok a => exact fun b hb => hload b hb
      | error e =>
        intro b hb
        cases he : fallback e with
        | none => simp [he] at hb
        | some a =>
          obtain rfl : a = b := by simpa [he] using hb
          exact hfallback e a he
    | some k =>
      have hk := hkept k rfl
      by_cases hpass : passes k.stamp stamp = true
      · simpa [hpass] using hk
      · cases load with
        | ok a => simpa [hpass] using hload
        | error e => simpa [hpass] using hk
  · intro k hk
    rcases caching_keeps hk with hold | ⟨-, hnew | ⟨e, -, hnew⟩⟩
    · exact hkept k hold
    · exact hload _ hnew
    · exact hfallback e _ hnew

/-- Where there is always something to put in its place, nothing fails. -/
theorem caching_isOk (hfallback : ∀ e, (fallback e).isSome) : ∃ a, ((caching passes fallback).read stamp load kept).1 = .ok a := by
  unfold caching
  cases kept with
  | none =>
    cases load with
    | ok a => exact ⟨a, rfl⟩
    | error e =>
      obtain ⟨a, ha⟩ := Option.isSome_iff_exists.mp (hfallback e)
      exact ⟨a, by simp [ha]⟩
  | some k => by_cases hpass : passes k.stamp stamp = true <;> cases load <;> simp [hpass]

end Reloader
