import Mathlib.Data.List.Nodup
import Mathlib.Logic.Relation

/-!
# Credentials that are spent once

A log of events, some of which use up a credential. What is spent stays spent. When every
credential is unspent before the event that uses it up, no credential is used up twice. Where
each event also makes a successor, the successors of a credential are a line with one end.
-/

namespace Spend

variable {α κ : Type*}

/-! ## Once in a log -/

/-- The credentials that were used up are spent, each was used up once. -/
structure Inv (Spent : κ → Prop) (log : List κ) : Prop where
  nodup : log.Nodup
  spent : ∀ k ∈ log, Spent k

theorem inv_nil (Spent : κ → Prop) : Inv Spent [] := ⟨List.nodup_nil, by simp⟩

theorem Inv.mono {Spent Spent' : κ → Prop} {log : List κ} (hi : Inv Spent log)
    (hmono : ∀ k, Spent k → Spent' k) : Inv Spent' log :=
  ⟨hi.nodup, fun k hk => hmono k (hi.spent k hk)⟩

theorem Inv.append {Spent Spent' : κ → Prop} {log new : List κ} (hi : Inv Spent log)
    (hmono : ∀ k, Spent k → Spent' k) (hnodup : new.Nodup) (hnew : ∀ k ∈ new, ¬ Spent k ∧ Spent' k) :
    Inv Spent' (log ++ new) := by
  refine ⟨List.nodup_append.mpr ⟨hi.nodup, hnodup, ?_⟩, ?_⟩
  · rintro a ha b hb rfl
    exact (hnew a hb).1 (hi.spent a ha)
  · intro k hk
    rcases List.mem_append.mp hk with hk | hk
    · exact hmono k (hi.spent k hk)
    · exact (hnew k hk).2

variable {f : α → Option κ} {log : List α}

theorem eq_of_nodup (h : (log.filterMap f).Nodup) {a b : α} {k : κ} (ha : a ∈ log) (hb : b ∈ log)
    (hfa : f a = some k) (hfb : f b = some k) : a = b := by
  induction log with
  | nil => simp at ha
  | cons c log ih =>
    have hrest : (log.filterMap f).Nodup := by
      cases hc : f c with
      | none => rwa [List.filterMap_cons_none hc] at h
      | some k' => rw [List.filterMap_cons_some hc] at h; exact h.of_cons
    have hhead : ∀ x ∈ log, f c = some k → f x ≠ some k := by
      intro x hx hc hfx
      rw [List.filterMap_cons_some hc, List.nodup_cons] at h
      exact h.1 (List.mem_filterMap.mpr ⟨x, hx, hfx⟩)
    rcases List.mem_cons.mp ha with rfl | ha'
    · rcases List.mem_cons.mp hb with rfl | hb'
      · rfl
      · exact absurd hfb (hhead b hb' hfa)
    · rcases List.mem_cons.mp hb with rfl | hb'
      · exact absurd hfa (hhead a ha' hfb)
      · exact ih hrest ha' hb'

theorem countP_le_one (h : (log.filterMap f).Nodup) {p : α → Bool} {k : κ} (hp : ∀ a, p a → f a = some k) :
    log.countP p ≤ 1 := by
  induction log with
  | nil => simp
  | cons c log ih =>
    rw [List.countP_cons]
    cases hc : f c with
    | none =>
      have hpc : ¬ p c := fun hpc => by simp [hp c hpc] at hc
      rw [List.filterMap_cons_none hc] at h
      simpa [hpc] using ih h
    | some k' =>
      rw [List.filterMap_cons_some hc, List.nodup_cons] at h
      by_cases hpc : p c
      · rw [hp c hpc, Option.some.injEq] at hc
        have hnone : log.countP p = 0 := by
          rw [List.countP_eq_zero]
          exact fun a ha hpa => h.1 (List.mem_filterMap.mpr ⟨a, ha, hc ▸ hp a hpa⟩)
        simp [hnone, hpc]
      · simpa [hpc] using ih h.2

/-! ## Successors -/

open Relation

variable {Child : κ → κ → Prop} {root s t : κ}

/-- An unspent credential is the end of its line. -/
theorem eq_of_unspent (Spent : κ → Prop) (hunique : Relator.RightUnique Child) (hspent : ∀ a b, Child a b → Spent a)
    (hs : ReflTransGen Child root s) (ht : ReflTransGen Child root t) (hns : ¬ Spent s) (hnt : ¬ Spent t) : s = t := by
  have hend : ∀ a b, ReflTransGen Child a b → ¬ Spent a → a = b := by
    intro a b hab hna
    rcases ReflTransGen.cases_head hab with rfl | ⟨c, hac, -⟩
    · rfl
    · exact absurd (hspent a c hac) hna
  rcases ReflTransGen.total_of_right_unique hunique hs ht with h | h
  · exact hend s t h hns
  · exact (hend t s h hnt).symm

/-- When the end of a line is spent, the whole line is. -/
theorem spent_of_end (Spent : κ → Prop) (hunique : Relator.RightUnique Child) (hspent : ∀ a b, Child a b → Spent a)
    (hs : ReflTransGen Child root s) (hend : ∀ b, ¬ Child s b) (h : Spent s) (ht : ReflTransGen Child root t) :
    Spent t := by
  rcases ReflTransGen.total_of_right_unique hunique hs ht with hst | hts
  · rcases ReflTransGen.cases_head hst with rfl | ⟨c, hsc, -⟩
    · exact h
    · exact absurd hsc (hend c)
  · rcases ReflTransGen.cases_head hts with rfl | ⟨c, htc, -⟩
    · exact h
    · exact hspent t c htc

end Spend
