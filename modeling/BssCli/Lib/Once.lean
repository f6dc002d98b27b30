import Mathlib.Data.List.Nodup
import Mathlib.Order.Lattice
import BssCli.Lib.Steps

/-!
# Claims that are made once

Each key has a mark. A value above the mark may be taken, at a time that is not before the
value, and the mark is raised to that time. So nobody takes a value of a key again,
whatever the times are.
-/

namespace Once

open Steps

variable {κ τ : Type*} [DecidableEq κ] [LinearOrder τ]

/-- The marks, and the takings that were counted as claims. -/
structure Register (κ τ : Type*) where
  mark : κ → Option τ
  claimed : List (κ × τ)

structure Take (κ τ : Type*) where
  key : κ
  value : τ
  time : τ
  counted : Bool

namespace Register

def Above (r : Register κ τ) (k : κ) (v : τ) : Prop := ∀ u ∈ r.mark k, u < v

instance (r : Register κ τ) (k : κ) (v : τ) : Decidable (r.Above k v) :=
  inferInstanceAs (Decidable (∀ u ∈ _, u < v))

def step (r : Register κ τ) (l : Take κ τ) : Option (Register κ τ) :=
  if r.Above l.key l.value ∧ l.value ≤ l.time then
    some ⟨Function.update r.mark l.key (some l.time),
      r.claimed ++ if l.counted then [(l.key, l.value)] else []⟩
  else none

/-! ## Once -/

/-- The mark has passed every claim. -/
structure Inv (r : Register κ τ) : Prop where
  nodup : r.claimed.Nodup
  passed : ∀ p ∈ r.claimed, ∃ u ∈ r.mark p.1, p.2 ≤ u

theorem step_inv {r r' : Register κ τ} {l : Take κ τ} (hi : r.Inv) (h : r.step l = some r') : r'.Inv := by
  simp only [step, Option.ite_none_right_eq_some, Option.some.injEq] at h
  obtain ⟨⟨habove, hle⟩, rfl⟩ := h
  have hnew : (l.key, l.value) ∉ r.claimed := by
    intro hmem
    obtain ⟨u, hu, hvu⟩ := hi.passed _ hmem
    exact absurd (habove u hu) (not_lt.mpr hvu)
  have hpassed : ∀ p ∈ r.claimed, ∃ u ∈ Function.update r.mark l.key (some l.time) p.1, p.2 ≤ u := by
    intro p hp
    obtain ⟨u, hu, hpu⟩ := hi.passed p hp
    by_cases hkey : p.1 = l.key
    · rw [hkey] at hu ⊢
      exact ⟨l.time, Function.update_self .., (hpu.trans (le_of_lt (habove u hu))).trans hle⟩
    · exact ⟨u, by rwa [Function.update_of_ne hkey], hpu⟩
  cases l.counted with
  | false => exact ⟨by simpa using hi.nodup, by simpa using hpassed⟩
  | true =>
    refine ⟨?_, fun p hp => ?_⟩
    · refine List.nodup_append.mpr ⟨hi.nodup, List.nodup_singleton _, ?_⟩
      rintro a ha b hb rfl
      exact hnew (List.mem_singleton.mp hb ▸ ha)
    · rcases List.mem_append.mp hp with hp | hp
      · exact hpassed p hp
      · rw [List.mem_singleton.mp hp]
        exact ⟨l.time, Function.update_self .., hle⟩

theorem claimed_nodup {mark : κ → Option τ} {ls : List (Take κ τ)} {r : Register κ τ}
    (h : exec step ⟨mark, []⟩ ls = some r) : r.claimed.Nodup :=
  (exec_inv (fun _ _ _ => step_inv) (⟨List.nodup_nil, by simp⟩ : Inv ⟨mark, []⟩) h).nodup

/-! ## Many keys at one time -/

/-- All of `batch` are taken at `t`. -/
def takeAll (r : Register κ τ) (batch : List (κ × τ)) (t : τ) (counted : Bool) : Register κ τ :=
  ⟨fun k => if k ∈ batch.map Prod.fst then some t else r.mark k,
    r.claimed ++ if counted then batch else []⟩

theorem exec_batch {r : Register κ τ} {batch : List (κ × τ)} {t : τ} (counted : Bool)
    (hnodup : (batch.map Prod.fst).Nodup) (h : ∀ p ∈ batch, r.Above p.1 p.2 ∧ p.2 ≤ t) :
    exec step r (batch.map fun p => ⟨p.1, p.2, t, counted⟩) = some (r.takeAll batch t counted) := by
  induction batch generalizing r with
  | nil => simp [takeAll]
  | cons p batch ih =>
    rw [List.map_cons, List.nodup_cons] at hnodup
    rw [List.map_cons, exec_cons]
    refine ⟨r.takeAll [p] t counted, ?_, ?_⟩
    · rw [step, if_pos (h p (List.mem_cons_self ..))]
      congr 2
      funext k
      by_cases hk : k = p.1 <;> simp [Function.update, hk]
    · have hothers : ∀ q ∈ batch, (r.takeAll [p] t counted).Above q.1 q.2 ∧ q.2 ≤ t := by
        intro q hq
        have hne : q.1 ≠ p.1 := fun he => hnodup.1 (he ▸ List.mem_map_of_mem hq)
        obtain ⟨habove, hle⟩ := h q (List.mem_cons_of_mem _ hq)
        refine ⟨fun u hu => habove u ?_, hle⟩
        simpa [takeAll, hne] using hu
      rw [ih hnodup.2 hothers]
      congr 1
      simp only [takeAll, List.map_cons, List.map_nil, List.mem_cons, List.not_mem_nil, or_false,
        List.append_assoc]
      congr 1
      · funext k
        by_cases hk : k = p.1 <;> by_cases hb : k ∈ batch.map Prod.fst <;> simp [hk, hb]
      · cases counted <;> simp

end Register

end Once
