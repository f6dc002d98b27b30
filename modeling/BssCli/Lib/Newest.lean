import Mathlib.Data.List.Perm.Basic
import Mathlib.Order.Lattice

/-!
# The newest rows

`k` rows of a list, no row left out being newer than one that is taken. The newest of the newest rows of several lists are the newest
of all.
-/

variable {α β : Type*} [LinearOrder β] {key : α → β} {k : ℕ}

/-- `taken` has `k` rows of `rows`, or all of them. -/
structure Newest (key : α → β) (k : ℕ) (rows taken : List α) : Prop where
  length : taken.length = min k rows.length
  rest : ∃ left, (taken ++ left).Perm rows ∧ ∀ a ∈ taken, ∀ b ∈ left, key b ≤ key a

/-- Newest first. -/
def NewestFirst (key : α → β) (rows : List α) : Prop := rows.Pairwise fun a b => key b ≤ key a

namespace Newest

/-- Where a row is left out, all `k` are taken. -/
theorem full {rows taken left : List α} (h : taken.length = min k rows.length) (hperm : (taken ++ left).Perm rows)
    (hleft : left ≠ []) : taken.length = k := by
  have hlen := hperm.length_eq
  rw [List.length_append] at hlen
  have hpos := List.length_pos_iff.mpr hleft
  omega

/-- No `k` rows are newer than one of the first `k`. -/
theorem countP_lt_of_mem_take {rows : List α} (hsorted : NewestFirst key rows) {a : α} (ha : a ∈ rows.take k) :
    rows.countP (fun b => key a < key b) < k := by
  induction rows generalizing k with
  | nil => simp at ha
  | cons b rows ih =>
    obtain ⟨hfirst, hrest⟩ := List.pairwise_cons.mp hsorted
    cases k with
    | zero => simp at ha
    | succ k =>
      rw [List.take_succ_cons, List.mem_cons] at ha
      rcases ha with rfl | ha
      · have hnone : (a :: rows).countP (fun b => key a < key b) = 0 := by
          rw [List.countP_eq_zero]
          intro b hb
          rcases List.mem_cons.mp hb with rfl | hb
          · simp
          · simpa using hfirst b hb
        omega
      · have hlt := ih hrest ha
        have hone := List.countP_cons (p := fun b => decide (key a < key b)) (a := b) (l := rows)
        rw [hone]
        split <;> omega

/-- What is taken of several lists, taken together. -/
theorem flatten {lines : List (List α × List α)} (h : ∀ line ∈ lines, Newest key k line.1 line.2) :
    min k (lines.map Prod.snd).flatten.length = min k (lines.map Prod.fst).flatten.length ∧
      ∃ left, ((lines.map Prod.snd).flatten ++ left).Perm (lines.map Prod.fst).flatten ∧
        ∀ b ∈ left, k ≤ (lines.map Prod.snd).flatten.countP fun a => key b ≤ key a := by
  induction lines with
  | nil => exact ⟨rfl, [], by simp, by simp⟩
  | cons line lines ih =>
    obtain ⟨hlen, left, hperm, hnewer⟩ := ih fun other hother => h other (List.mem_cons_of_mem _ hother)
    obtain ⟨hfirst, rest, hrest, hkept⟩ := h line List.mem_cons_self
    simp only [List.map_cons, List.flatten_cons, List.length_append]
    refine ⟨by omega, rest ++ left, ?_, ?_⟩
    · have hshuffle : (line.2 ++ (lines.map Prod.snd).flatten ++ (rest ++ left)).Perm
          (line.2 ++ rest ++ ((lines.map Prod.snd).flatten ++ left)) := by
        rw [List.append_assoc, List.append_assoc]
        refine List.Perm.append_left _ ?_
        rw [← List.append_assoc, ← List.append_assoc]
        exact List.Perm.append_right _ List.perm_append_comm
      exact hshuffle.trans (hrest.append hperm)
    · intro b hb
      rw [List.countP_append]
      rcases List.mem_append.mp hb with hb | hb
      · have hall : line.2.countP (fun a => key b ≤ key a) = line.2.length := by
          rw [List.countP_eq_length]
          intro a ha
          simpa using hkept a ha b hb
        have hfull := full hfirst hrest (List.ne_nil_of_mem hb)
        omega
      · have hcount := hnewer b hb
        omega

/-- The newest of what is taken is the newest of all. -/
theorem merge {lines : List (List α × List α)} (h : ∀ line ∈ lines, Newest key k line.1 line.2) {sorted : List α}
    (hperm : sorted.Perm (lines.map Prod.snd).flatten) (hsorted : NewestFirst key sorted) :
    Newest key k (lines.map Prod.fst).flatten (sorted.take k) := by
  obtain ⟨hlen, left, hleft, hnewer⟩ := flatten h
  refine ⟨?_, sorted.drop k ++ left, ?_, ?_⟩
  · rw [List.length_take, hperm.length_eq, hlen]
  · rw [← List.append_assoc, List.take_append_drop]
    exact (hperm.append_right left).trans hleft
  · intro a ha b hb
    rcases List.mem_append.mp hb with hb | hb
    · have hsplit : NewestFirst key (sorted.take k ++ sorted.drop k) := by rwa [List.take_append_drop]
      exact (List.pairwise_append.mp hsplit).2.2 a ha b hb
    · by_contra hlt
      have hfew := countP_lt_of_mem_take hsorted ha
      have hmany : k ≤ sorted.countP fun c => key a < key c := by
        refine Nat.le_trans (hnewer b hb) ?_
        rw [← hperm.countP_eq]
        refine List.countP_mono_left fun c _ hc => ?_
        simp only [decide_eq_true_eq] at hc ⊢
        exact (not_le.mp hlt).trans_le hc
      omega

end Newest
