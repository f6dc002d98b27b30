import Mathlib.Data.List.Perm.Basic
import Mathlib.Algebra.BigOperators.Group.List.Basic

/-!
# A pool of running activities

The pool is a list. An activity is started at the end, replaced in place while it moves
on, and removed when it ends. Sums and counts over the pool follow each of these.
-/

namespace Pool

variable {α : Type*} {l : List α} {i : Nat} {a b : α}

theorem mem_of_getElem? (h : l[i]? = some a) : a ∈ l := List.mem_of_getElem? h

/-- The rest of the pool, beside the activity at `i`. -/
theorem perm_eraseIdx (h : l[i]? = some a) : l.Perm (a :: l.eraseIdx i) := by
  obtain ⟨hi, rfl⟩ := List.getElem?_eq_some_iff.mp h
  exact (List.getElem_cons_eraseIdx_perm hi).symm

theorem perm_set (h : l[i]? = some a) (b : α) : (l.set i b).Perm (b :: l.eraseIdx i) := by
  obtain ⟨hi, rfl⟩ := List.getElem?_eq_some_iff.mp h
  have hb : (l.set i b)[i]? = some b := by simp [hi]
  have := perm_eraseIdx hb
  rwa [List.eraseIdx_set_eq] at this

theorem flatMap_eraseIdx {β : Type*} (f : α → List β) (h : l[i]? = some a) :
    (l.flatMap f).Perm (f a ++ (l.eraseIdx i).flatMap f) :=
  (perm_eraseIdx h).flatMap_right f

theorem flatMap_set {β : Type*} (f : α → List β) (h : l[i]? = some a) (b : α) :
    ((l.set i b).flatMap f).Perm (f b ++ (l.eraseIdx i).flatMap f) :=
  (perm_set h b).flatMap_right f

/-- What the activity that moves on keeps, the pool keeps. -/
theorem map_set {β : Type*} {g : α → β} (h : l[i]? = some a) (hb : g b = g a) :
    (l.set i b).map g = l.map g := by
  obtain ⟨hi, rfl⟩ := List.getElem?_eq_some_iff.mp h
  rw [List.map_set, hb, ← List.getElem_map g (h := by simpa using hi), List.set_getElem_self]

section Counts

variable (p : α → Bool)

theorem countP_eraseIdx (h : l[i]? = some a) :
    l.countP p = (l.eraseIdx i).countP p + if p a then 1 else 0 := by
  rw [(perm_eraseIdx h).countP_eq, List.countP_cons]

theorem countP_set (h : l[i]? = some a) (b : α) :
    (l.set i b).countP p + (if p a then 1 else 0) = l.countP p + if p b then 1 else 0 := by
  rw [(perm_set h b).countP_eq, countP_eraseIdx p h, List.countP_cons]
  omega

/-- Where at most one is counted, all that are counted are the same one. -/
theorem index_unique {j : Nat} (h : l.countP p ≤ 1) (ha : l[i]? = some a) (hb : l[j]? = some b) (hpa : p a = true)
    (hpb : p b = true) : i = j := by
  by_contra hne
  have hmem : b ∈ l.eraseIdx i := List.mem_eraseIdx_iff_getElem?.mpr ⟨j, fun hji => hne hji.symm, hb⟩
  have hpos : 0 < (l.eraseIdx i).countP p := List.countP_pos_iff.mpr ⟨b, hmem, hpb⟩
  have hcount := countP_eraseIdx p ha
  rw [if_pos hpa] at hcount
  omega

end Counts

section Forall

variable {P : α → Prop}

theorem forall_eraseIdx (h : ∀ x ∈ l, P x) : ∀ x ∈ l.eraseIdx i, P x :=
  fun x hx => h x (List.mem_of_mem_eraseIdx hx)

theorem forall_set (h : ∀ x ∈ l, P x) (hb : P b) : ∀ x ∈ l.set i b, P x := by
  intro x hx
  rcases List.mem_or_eq_of_mem_set hx with hx | rfl
  · exact h x hx
  · exact hb

/-- The same, where only the others are known to keep it. -/
theorem forall_set_rest (ha : l[i]? = some a) (h : ∀ x ∈ l.eraseIdx i, P x) (hb : P b) : ∀ x ∈ l.set i b, P x := by
  intro x hx
  rcases List.mem_cons.mp ((perm_set ha b).mem_iff.mp hx) with rfl | hx
  · exact hb
  · exact h x hx

theorem forall_concat (h : ∀ x ∈ l, P x) (hb : P b) : ∀ x ∈ l ++ [b], P x := by
  intro x hx
  rcases List.mem_append.mp hx with hx | hx
  · exact h x hx
  · rw [List.mem_singleton.mp hx]; exact hb

theorem exists_set (h : ∃ x ∈ l, P x) (ha : l[i]? = some a) (hb : P a → P b) :
    ∃ x ∈ l.set i b, P x := by
  obtain ⟨x, hx, hp⟩ := h
  rcases List.mem_cons.mp ((perm_eraseIdx ha).mem_iff.mp hx) with rfl | hrest
  · exact ⟨b, (perm_set ha b).mem_iff.mpr (List.mem_cons_self ..), hb hp⟩
  · exact ⟨x, (perm_set ha b).mem_iff.mpr (List.mem_cons_of_mem _ hrest), hp⟩

end Forall

/-! ## An activity that moves on, or ends -/

def move (l : List α) (i : Nat) : Option α → List α
  | some b => l.set i b
  | none => l.eraseIdx i

section Move

variable {P : α → Prop} {o : Option α}

theorem forall_move (h : ∀ x ∈ l, P x) (hb : ∀ b ∈ o, P b) : ∀ x ∈ move l i o, P x := by
  cases o with
  | none => exact forall_eraseIdx h
  | some b => exact forall_set h (hb b rfl)

theorem mem_move_of_rest (ha : l[i]? = some a) {x : α} (hx : x ∈ l.eraseIdx i) : x ∈ move l i o := by
  cases o with
  | none => exact hx
  | some b => exact (perm_set ha b).mem_iff.mpr (List.mem_cons_of_mem _ hx)

theorem mem_move (ha : l[i]? = some a) (hb : b ∈ o) : b ∈ move l i o := by
  cases hb
  exact (perm_set ha b).mem_iff.mpr (List.mem_cons_self ..)

/-- The one that is known of is another, or the one that moves. -/
theorem exists_move (h : ∃ x ∈ l, P x) (ha : l[i]? = some a) : (∃ x ∈ move l i o, P x) ∨ P a := by
  obtain ⟨x, hx, hp⟩ := h
  rcases List.mem_cons.mp ((perm_eraseIdx ha).mem_iff.mp hx) with rfl | hrest
  · exact Or.inr hp
  · exact Or.inl ⟨x, mem_move_of_rest ha hrest, hp⟩

theorem countP_move (p : α → Bool) (ha : l[i]? = some a) :
    (move l i o).countP p + (if p a then 1 else 0) = l.countP p + if o.any p then 1 else 0 := by
  cases o with
  | none =>
    have := countP_eraseIdx p ha
    simp only [move, Option.any_none, Bool.false_eq_true, if_false]
    omega
  | some b =>
    have := countP_set p ha b
    simpa [move] using this

end Move

end Pool
