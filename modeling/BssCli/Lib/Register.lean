import Mathlib.Data.List.Perm.Basic
import Mathlib.Tactic.ByContra

/-!
# A register that takes each key once

A write has a key and may carry a value. The first write of a key counts, a later one is dropped. Which value is left
when the writes come in any order?
-/

structure KeyedRegister (κ ν : Type*) where
  seen : List κ
  value : Option ν

namespace KeyedRegister

variable {κ ν δ : Type*} [DecidableEq κ] (key : δ → κ) (val : δ → Option ν)

def apply (r : KeyedRegister κ ν) (w : δ) : KeyedRegister κ ν :=
  if key w ∈ r.seen then r else ⟨key w :: r.seen, (val w).or r.value⟩

def run (r : KeyedRegister κ ν) (ws : List δ) : KeyedRegister κ ν := ws.foldl (apply key val) r

variable {key val}

@[simp]
theorem run_nil (r : KeyedRegister κ ν) : run key val r [] = r := rfl

@[simp]
theorem run_cons (r : KeyedRegister κ ν) (w : δ) (ws : List δ) :
    run key val r (w :: ws) = run key val (apply key val r w) ws := rfl

theorem run_append (r : KeyedRegister κ ν) (ws us : List δ) : run key val r (ws ++ us) = run key val (run key val r ws) us := by
  unfold run
  rw [List.foldl_append]

theorem apply_seen {r : KeyedRegister κ ν} {w : δ} (h : key w ∈ r.seen) : apply key val r w = r := if_pos h

theorem mem_seen_apply {r : KeyedRegister κ ν} {w : δ} {k : κ} : k ∈ (apply key val r w).seen ↔ k ∈ r.seen ∨ key w = k := by
  unfold apply
  split
  · rename_i h
    exact ⟨.inl, fun hk => hk.elim id fun hw => hw ▸ h⟩
  · rw [List.mem_cons, or_comm, eq_comm]

theorem mem_seen_run {r : KeyedRegister κ ν} {ws : List δ} {k : κ} :
    k ∈ (run key val r ws).seen ↔ k ∈ r.seen ∨ ∃ w ∈ ws, key w = k := by
  induction ws generalizing r with
  | nil => simp
  | cons w ws ih => simp [ih, mem_seen_apply, or_assoc]

/-- Writes of keys that were there leave the register as it is. -/
theorem run_seen {r : KeyedRegister κ ν} {ws : List δ} (h : ∀ w ∈ ws, key w ∈ r.seen) : run key val r ws = r := by
  induction ws with
  | nil => rfl
  | cons w ws ih =>
    rw [run_cons, apply_seen (h w List.mem_cons_self)]
    exact ih fun u hu => h u (List.mem_cons_of_mem w hu)

theorem apply_value (r : KeyedRegister κ ν) (w : δ) :
    (apply key val r w).value = r.value ∨ (apply key val r w).value = val w ∧ val w ≠ none := by
  unfold apply
  split
  · exact .inl rfl
  · cases val w with
    | none => exact .inl rfl
    | some v => exact .inr ⟨rfl, Option.some_ne_none v⟩

/-- What is left is what was there, or comes from a write. -/
theorem run_value (r : KeyedRegister κ ν) (ws : List δ) :
    (run key val r ws).value = r.value ∨ ∃ w ∈ ws, (run key val r ws).value = val w ∧ val w ≠ none := by
  induction ws generalizing r with
  | nil => exact .inl rfl
  | cons w ws ih =>
    rw [run_cons]
    rcases ih (apply key val r w) with h | ⟨u, hu, h⟩
    · rw [h]
      exact (apply_value r w).imp_right fun hw => ⟨w, List.mem_cons_self, hw⟩
    · exact .inr ⟨u, List.mem_cons_of_mem w hu, h⟩

theorem run_silent {r : KeyedRegister κ ν} {ws : List δ} (h : ∀ w ∈ ws, val w = none) : (run key val r ws).value = r.value := by
  rcases run_value r ws with hv | ⟨w, hw, -, hne⟩
  · exact hv
  · exact absurd (h w hw) hne

/-! ## In any order -/

/-- Every value that a new key carries can be the one that is left. -/
theorem exists_perm_value {r : KeyedRegister κ ν} {ws : List δ} {w : δ} {v : ν} (hw : w ∈ ws) (hv : val w = some v)
    (hnew : key w ∉ r.seen) : ∃ ws', ws'.Perm ws ∧ (run key val r ws').value = some v := by
  obtain ⟨xs, ys, rfl⟩ := List.append_of_mem hw
  -- The other keys first, then this write, then the others of its key.
  let others := (xs ++ ys).filter fun u => !decide (key u = key w)
  let same := (xs ++ ys).filter fun u => decide (key u = key w)
  refine ⟨others ++ w :: same, ?_, ?_⟩
  · have hparts : (same ++ others).Perm (xs ++ ys) := List.filter_append_perm _ _
    calc (others ++ w :: same).Perm (w :: (others ++ same)) := List.perm_middle
      _ |>.Perm (w :: (same ++ others)) := .cons w List.perm_append_comm
      _ |>.Perm (w :: (xs ++ ys)) := .cons w hparts
      _ |>.Perm (xs ++ w :: ys) := List.perm_middle.symm
  · have hfresh : key w ∉ (run key val r others).seen := by
      rw [mem_seen_run]
      rintro (hk | ⟨u, hu, hk⟩)
      · exact hnew hk
      · have := (List.mem_filter.mp hu).2
        simp [hk] at this
    rw [run_append, run_cons, run_seen]
    · rw [apply, if_neg hfresh, hv]
      rfl
    · intro u hu
      have hk : key u = key w := by simpa using (List.mem_filter.mp hu).2
      rw [hk, mem_seen_apply]
      exact .inr rfl

/-- When no key carries a value in each of its writes, there may be nothing left of them. -/
theorem exists_perm_silent {r : KeyedRegister κ ν} {ws : List δ}
    (h : ∀ w ∈ ws, val w ≠ none → ∃ u ∈ ws, key u = key w ∧ val u = none) :
    ∃ ws', ws'.Perm ws ∧ (run key val r ws').value = r.value := by
  let silent := ws.filter fun w => (val w).isNone
  let speaking := ws.filter fun w => !(val w).isNone
  refine ⟨silent ++ speaking, List.filter_append_perm _ _, ?_⟩
  rw [run_append, run_seen, run_silent]
  · intro w hw
    simpa using (List.mem_filter.mp hw).2
  · intro w hw
    obtain ⟨hmem, hval⟩ := List.mem_filter.mp hw
    obtain ⟨u, hu, hkey, hnone⟩ := h w hmem fun hnone => by simp [hnone] at hval
    exact mem_seen_run.mpr (.inr ⟨u, List.mem_filter.mpr ⟨hu, by simp [hnone]⟩, hkey⟩)

/-- With one value among the writes, and a new key that carries it in each of its writes, it is left. -/
theorem run_lands {r : KeyedRegister κ ν} {ws : List δ} {v : ν} {k : κ} (hr : r.value = none ∨ r.value = some v)
    (hone : ∀ w ∈ ws, val w = none ∨ val w = some v) (hnew : k ∉ r.seen) (hmem : ∃ w ∈ ws, key w = k)
    (hkey : ∀ w ∈ ws, key w = k → val w = some v) : (run key val r ws).value = some v := by
  induction ws generalizing r with
  | nil => simp at hmem
  | cons w ws ih =>
    have hone' : ∀ u ∈ ws, val u = none ∨ val u = some v := fun u hu => hone u (List.mem_cons_of_mem w hu)
    rw [run_cons]
    by_cases hw : key w = k
    · have hnow : (apply key val r w).value = some v := by
        rw [apply, if_neg (hw ▸ hnew), hkey w List.mem_cons_self hw]
        rfl
      rcases run_value (apply key val r w) ws with h | ⟨u, hu, h, hne⟩
      · rw [h, hnow]
      · rw [h]
        exact (hone' u hu).resolve_left hne
    · refine ih ?_ hone' ?_ ?_ fun u hu => hkey u (List.mem_cons_of_mem w hu)
      · rcases apply_value r w with h | ⟨h, hne⟩
        · rwa [h]
        · rw [h]
          exact .inr ((hone w List.mem_cons_self).resolve_left hne)
      · rw [mem_seen_apply]
        exact fun h => h.elim hnew hw
      · obtain ⟨u, hu, hk⟩ := hmem
        rcases List.mem_cons.mp hu with rfl | hu
        · exact absurd hk hw
        · exact ⟨u, hu, hk⟩

/-- The writes that carry a value carry the same one, and if there are any, one key has it in each of its writes. -/
def OneValue (key : δ → κ) (val : δ → Option ν) (ws : List δ) : Prop :=
  (∀ w ∈ ws, ∀ u ∈ ws, val w ≠ none → val u ≠ none → val w = val u) ∧
    ((∃ w ∈ ws, val w ≠ none) → ∃ w ∈ ws, ∀ u ∈ ws, key u = key w → val u ≠ none)

omit [DecidableEq κ] in
theorem OneValue.perm {ws ws' : List δ} (hperm : ws'.Perm ws) (h : OneValue key val ws) : OneValue key val ws' := by
  unfold OneValue at h ⊢
  simpa only [hperm.mem_iff] using h

/-- With one value at most, it is left, unless no write carries it. -/
theorem OneValue.run_value {r : KeyedRegister κ ν} {ws : List δ} (h : OneValue key val ws) (hnone : r.value = none)
    (hnew : ∀ w ∈ ws, key w ∉ r.seen) {w : δ} (hw : w ∈ ws) (hv : val w ≠ none) : (run key val r ws).value = val w := by
  obtain ⟨u, hu, hevery⟩ := h.2 ⟨w, hw, hv⟩
  obtain ⟨v, hval⟩ := Option.ne_none_iff_exists'.mp hv
  have honly : ∀ x ∈ ws, val x = none ∨ val x = some v := by
    intro x hx
    by_cases hxv : val x = none
    · exact .inl hxv
    · exact .inr ((h.1 x hx w hw hxv hv).trans hval)
  rw [hval]
  exact run_lands (.inl hnone) honly (hnew u hu) ⟨u, hu, rfl⟩ fun x hx hkey =>
    (honly x hx).resolve_left (hevery x hx hkey)

/-- From nothing, the writes leave the same value in every order exactly when there is one value. -/
theorem same_in_any_order_iff {r : KeyedRegister κ ν} {ws : List δ} (hnone : r.value = none)
    (hnew : ∀ w ∈ ws, key w ∉ r.seen) :
    (∀ ws', ws'.Perm ws → (run key val r ws').value = (run key val r ws).value) ↔ OneValue key val ws := by
  constructor
  · intro hsame
    -- Any value can be the last one, so it is the one that is left.
    have hlast : ∀ w ∈ ws, val w ≠ none → (run key val r ws).value = val w := by
      intro w hw hwv
      obtain ⟨v, hv⟩ := Option.ne_none_iff_exists'.mp hwv
      obtain ⟨ws', hperm, hval⟩ := exists_perm_value hw hv (hnew w hw)
      rw [← hsame ws' hperm, hval, hv]
    constructor
    · intro w hw u hu hwv huv
      rw [← hlast w hw hwv, hlast u hu huv]
    · rintro ⟨w, hw, hwv⟩
      by_contra hno
      push Not at hno
      obtain ⟨ws', hperm, hval⟩ := exists_perm_silent (r := r) fun u hu _ => hno u hu
      rw [hsame ws' hperm, hlast w hw hwv, hnone] at hval
      exact hwv hval
  · intro hone ws' hperm
    by_cases hany : ∃ w ∈ ws, val w ≠ none
    · obtain ⟨w, hw, hwv⟩ := hany
      rw [hone.run_value hnone hnew hw hwv]
      exact (hone.perm hperm).run_value hnone (fun u hu => hnew u (hperm.mem_iff.mp hu)) (hperm.mem_iff.mpr hw) hwv
    · push Not at hany
      rw [run_silent hany, run_silent fun u hu => hany u (hperm.mem_iff.mp hu)]

end KeyedRegister
