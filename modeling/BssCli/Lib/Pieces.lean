import Mathlib.Data.List.DropRight

/-!
# Lists made of pieces

A list that is cut where an element is a piece of its own is made of pieces on both sides.
-/

variable {α : Type*} {piece : List α → Prop}

/-- Every element comes in a good piece. -/
def MadeOf (piece : List α → Prop) (v : List α) : Prop := ∃ ps : List (List α), v = ps.flatten ∧ ∀ p ∈ ps, piece p

/-- The element comes as a piece of its own only. -/
def Lone (piece : List α → Prop) (m : α) : Prop := ∀ p, piece p → m ∈ p → p = [m]

namespace MadeOf

theorem nil : MadeOf piece [] := ⟨[], rfl, fun _ hp => absurd hp List.not_mem_nil⟩

theorem of_piece {p : List α} (h : piece p) : MadeOf piece p := by
  refine ⟨[p], by simp, ?_⟩
  intro q hq
  rw [List.mem_singleton] at hq
  rw [hq]
  exact h

theorem append {v w : List α} (hv : MadeOf piece v) (hw : MadeOf piece w) : MadeOf piece (v ++ w) := by
  obtain ⟨ps, rfl, hps⟩ := hv
  obtain ⟨qs, rfl, hqs⟩ := hw
  refine ⟨ps ++ qs, List.flatten_append.symm, ?_⟩
  intro p hp
  rcases List.mem_append.mp hp with hp | hp
  · exact hps p hp
  · exact hqs p hp

theorem flatten {vs : List (List α)} (h : ∀ v ∈ vs, MadeOf piece v) : MadeOf piece vs.flatten := by
  induction vs with
  | nil => exact nil
  | cons v vs ih =>
    rw [List.flatten_cons]
    exact (h v List.mem_cons_self).append (ih fun w hw => h w (List.mem_cons_of_mem v hw))

theorem intercalate {sep : List α} {vs : List (List α)} (hsep : MadeOf piece sep) (h : ∀ v ∈ vs, MadeOf piece v) :
    MadeOf piece (sep.intercalate vs) := by
  induction vs with
  | nil => exact nil
  | cons v vs ih =>
    have hv := h v List.mem_cons_self
    have hvs := ih fun w hw => h w (List.mem_cons_of_mem v hw)
    cases vs with
    | nil => simpa using hv
    | cons w vs =>
      rw [List.intercalate_cons_cons]
      exact (hv.append hsep).append hvs

theorem mono {piece' : List α → Prop} {v : List α} (h : ∀ p, piece p → piece' p) (hv : MadeOf piece v) : MadeOf piece' v := by
  obtain ⟨ps, hps, hall⟩ := hv
  exact ⟨ps, hps, fun p hp => h p (hall p hp)⟩

theorem cons_iff {p : List α} {ps : List (List α)} : (∀ q ∈ p :: ps, piece q) ↔ piece p ∧ ∀ q ∈ ps, piece q :=
  List.forall_mem_cons

/-- A cut before and behind an element that stands alone. -/
theorem cut {a b : List α} {m : α} (hm : Lone piece m) (h : MadeOf piece (a ++ m :: b)) : MadeOf piece a ∧ MadeOf piece b := by
  obtain ⟨ps, hps, hall⟩ := h
  induction ps generalizing a with
  | nil => simp at hps
  | cons p ps ih =>
    obtain ⟨hp, hrest⟩ := cons_iff.mp hall
    rw [List.flatten_cons] at hps
    rcases List.append_eq_append_iff.mp hps with ⟨c, rfl, hc⟩ | ⟨c, rfl, hc⟩
    · -- The piece ends behind the cut's left side.
      cases c with
      | nil =>
        obtain ⟨-, hb⟩ := ih (a := []) (by simpa using hc) hrest
        exact ⟨by simpa using of_piece hp, hb⟩
      | cons x c =>
        obtain ⟨rfl, rfl⟩ := List.cons.inj hc
        have hone := hm _ hp (by simp)
        obtain ⟨rfl, rfl⟩ : a = [] ∧ c = [] := by
          cases a with
          | nil => simpa using hone
          | cons y a => simp at hone
        exact ⟨nil, ⟨ps, rfl, hrest⟩⟩
    · obtain ⟨hleft, hright⟩ := ih hc.symm hrest
      exact ⟨(of_piece hp).append hleft, hright⟩

theorem tail {m : α} {b : List α} (hm : Lone piece m) (h : MadeOf piece (m :: b)) : MadeOf piece b := (cut (a := []) hm h).2

theorem dropWhile {p : α → Bool} {v : List α} (hp : ∀ m, p m = true → Lone piece m) (h : MadeOf piece v) :
    MadeOf piece (v.dropWhile p) := by
  induction v with
  | nil => exact h
  | cons c v ih =>
    rw [List.dropWhile_cons]
    split
    · rename_i hc
      exact ih (h.tail (hp c hc))
    · exact h

/-- An element that ends no longer piece can be taken from the end. -/
theorem of_concat {v : List α} {m : α} (hm : ∀ p, piece p → p.getLast? = some m → p = [m]) (h : MadeOf piece (v ++ [m])) :
    MadeOf piece v := by
  obtain ⟨ps, hps, hall⟩ := h
  induction ps using List.reverseRecOn generalizing v with
  | nil => simp at hps
  | append_singleton ps p ih =>
    have hp : piece p := hall p (by simp)
    rw [List.flatten_append, List.flatten_singleton] at hps
    by_cases hne : p = []
    · subst hne
      exact ih (by simpa using hps) fun q hq => hall q (List.mem_append_left _ hq)
    · have hlast : p.getLast? = some m := by
        have := congrArg List.getLast? hps
        rw [List.getLast?_append, List.getLast?_append] at this
        rw [List.getLast?_eq_some_getLast hne] at this ⊢
        simpa using this.symm
      obtain rfl := hm p hp hlast
      obtain rfl := List.append_cancel_right hps
      exact ⟨ps, rfl, fun q hq => hall q (List.mem_append_left _ hq)⟩

theorem of_append {v w : List α} (hw : ∀ m ∈ w, ∀ p, piece p → p.getLast? = some m → p = [m])
    (h : MadeOf piece (v ++ w)) : MadeOf piece v := by
  induction w using List.reverseRecOn with
  | nil => simpa using h
  | append_singleton w m ih =>
    rw [← List.append_assoc] at h
    exact ih (fun x hx => hw x (List.mem_append_left _ hx)) (of_concat (hw m (by simp)) h)

theorem rdropWhile {p : α → Bool} {v : List α} (hp : ∀ m, p m = true → Lone piece m) (h : MadeOf piece v) :
    MadeOf piece (v.rdropWhile p) := by
  rw [← List.rdropWhile_append_rtakeWhile (p := p) (l := v)] at h
  refine of_append (fun m hm q hq hlast => ?_) h
  exact hp m (List.mem_rtakeWhile_imp hm) q hq (List.mem_of_getLast? hlast)

/-- Elements that stand alone can be left out. -/
theorem filter (keep : α → Bool) {v : List α} (hk : ∀ m, keep m = false → Lone piece m) (h : MadeOf piece v) :
    MadeOf piece (v.filter keep) := by
  obtain ⟨ps, rfl, hall⟩ := h
  rw [List.filter_flatten]
  apply flatten
  intro q hq
  obtain ⟨p, hp, rfl⟩ := List.mem_map.mp hq
  by_cases hdrop : ∃ m ∈ p, keep m = false
  · obtain ⟨m, hm, hkeep⟩ := hdrop
    rw [hk m hkeep p (hall p hp) hm, List.filter_cons_of_neg (by simp [hkeep])]
    exact nil
  · have hall' : p.filter keep = p := by
      rw [List.filter_eq_self]
      intro m hm
      by_contra hkeep
      exact hdrop ⟨m, hm, by simpa using hkeep⟩
    rw [hall']
    exact of_piece (hall p hp)

/-- Where an element is, there a piece starts that has it in front. -/
theorem starts {T : List α → Prop} {m : α} (hm : ∀ p x y, piece p → p = x ++ m :: y → x = [] ∧ T p) {a b : List α}
    (h : MadeOf piece (a ++ m :: b)) : ∃ p, T p ∧ p <+: m :: b := by
  obtain ⟨ps, hps, hall⟩ := h
  induction ps generalizing a with
  | nil => simp at hps
  | cons p ps ih =>
    obtain ⟨hp, hrest⟩ := cons_iff.mp hall
    rw [List.flatten_cons] at hps
    rcases List.append_eq_append_iff.mp hps with ⟨c, rfl, hc⟩ | ⟨c, rfl, hc⟩
    · cases c with
      | nil => exact ih (a := []) (by simpa using hc) hrest
      | cons x c =>
        obtain ⟨rfl, rfl⟩ := List.cons.inj hc
        obtain ⟨rfl, hT⟩ := hm _ a c hp rfl
        exact ⟨_, hT, List.prefix_append _ _⟩
    · exact ih hc.symm hrest

end MadeOf
