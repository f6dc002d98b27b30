import Mathlib.Data.List.Basic

/-!
# The fields of a JSON object

A list of keys and values. An insert replaces the value of a key that is there, in its
place, and appends it else.
-/

namespace Fields

variable {κ α : Type*} [DecidableEq κ]

def get (m : List (κ × α)) (k : κ) : Option α := (m.find? fun p => p.1 = k).map Prod.snd

def insert (m : List (κ × α)) (k : κ) (v : α) : List (κ × α) :=
  if k ∈ m.map Prod.fst then m.map fun p => if p.1 = k then (k, v) else p else m ++ [(k, v)]

theorem mem_insert {m : List (κ × α)} {k : κ} {v : α} {p : κ × α} :
    p ∈ insert m k v ↔ p = (k, v) ∨ p ∈ m ∧ p.1 ≠ k := by
  unfold insert
  split
  · rename_i hk
    obtain ⟨q, hq, hqk⟩ := List.mem_map.mp hk
    rw [List.mem_map]
    constructor
    · rintro ⟨r, hr, rfl⟩
      split
      · exact Or.inl rfl
      · rename_i hne
        exact Or.inr ⟨hr, hne⟩
    · rintro (rfl | ⟨hp, hne⟩)
      · exact ⟨q, hq, if_pos hqk⟩
      · exact ⟨p, hp, if_neg hne⟩
  · rename_i hk
    rw [List.mem_append, List.mem_singleton, or_comm]
    refine or_congr_right (iff_self_and.mpr fun hp heq => hk ?_)
    exact List.mem_map.mpr ⟨p, hp, heq⟩

@[simp]
theorem get_nil (k : κ) : get ([] : List (κ × α)) k = none := rfl

theorem get_cons (p : κ × α) (m : List (κ × α)) (k : κ) :
    get (p :: m) k = if p.1 = k then some p.2 else get m k := by
  unfold get
  by_cases h : p.1 = k
  · rw [List.find?_cons_of_pos (by simpa using h), if_pos h]
    rfl
  · rw [List.find?_cons_of_neg (by simpa using h), if_neg h]

theorem get_replace_self {m : List (κ × α)} {k : κ} (h : k ∈ m.map Prod.fst) (v : α) :
    get (m.map fun p => if p.1 = k then (k, v) else p) k = some v := by
  induction m with
  | nil => simp at h
  | cons p m ih =>
    rw [List.map_cons, get_cons]
    by_cases hp : p.1 = k
    · simp [hp]
    · rw [if_neg hp, if_neg hp]
      rw [List.map_cons, List.mem_cons] at h
      exact ih (h.resolve_left (Ne.symm hp))

theorem get_replace_ne {k k' : κ} (h : k' ≠ k) (m : List (κ × α)) (v : α) :
    get (m.map fun p => if p.1 = k then (k, v) else p) k' = get m k' := by
  induction m with
  | nil => rfl
  | cons p m ih =>
    rw [List.map_cons, get_cons, ih, get_cons]
    by_cases hp : p.1 = k
    · rw [if_pos hp, if_neg (Ne.symm h), if_neg (hp ▸ Ne.symm h)]
    · rw [if_neg hp]

theorem get_append (m n : List (κ × α)) (k : κ) : get (m ++ n) k = (get m k).or (get n k) := by
  induction m with
  | nil => simp
  | cons p m ih =>
    rw [List.cons_append, get_cons, ih, get_cons]
    split <;> rfl

theorem get_eq_none {m : List (κ × α)} {k : κ} : get m k = none ↔ k ∉ m.map Prod.fst := by
  induction m with
  | nil => simp
  | cons p m ih =>
    rw [get_cons, List.map_cons, List.mem_cons, not_or, ← ih]
    split
    · rename_i h
      simp [h]
    · rename_i h
      simp [Ne.symm h]

theorem get_insert_self (m : List (κ × α)) (k : κ) (v : α) : get (insert m k v) k = some v := by
  unfold insert
  split
  · rename_i hk
    exact get_replace_self hk v
  · rename_i hk
    rw [get_append, get_eq_none.mpr hk, get_cons, if_pos rfl, Option.none_or]

theorem get_insert_ne {k k' : κ} (h : k' ≠ k) (m : List (κ × α)) (v : α) :
    get (insert m k v) k' = get m k' := by
  unfold insert
  split
  · exact get_replace_ne h m v
  · rw [get_append, get_cons, if_neg (Ne.symm h), get_nil, Option.or_none]

theorem get_insert (m : List (κ × α)) (k : κ) (v : α) (k' : κ) :
    get (insert m k v) k' = if k' = k then some v else get m k' := by
  split
  · rename_i h
    rw [h, get_insert_self]
  · rename_i h
    exact get_insert_ne h m v

theorem keys_insert {m : List (κ × α)} {k : κ} (h : k ∈ m.map Prod.fst) (v : α) :
    (insert m k v).map Prod.fst = m.map Prod.fst := by
  rw [insert, if_pos h, List.map_map]
  refine List.map_congr_left fun p _ => ?_
  by_cases hp : p.1 = k <;> simp [hp]

theorem mem_of_get {m : List (κ × α)} {k : κ} {v : α} (h : get m k = some v) : (k, v) ∈ m := by
  obtain ⟨p, hp, rfl⟩ := Option.map_eq_some_iff.mp h
  have hkey : p.1 = k := by simpa using List.find?_some hp
  exact hkey ▸ List.mem_of_find?_eq_some hp

theorem get_of_mem {m : List (κ × α)} (hm : (m.map Prod.fst).Nodup) {p : κ × α} (h : p ∈ m) :
    get m p.1 = some p.2 := by
  induction m with
  | nil => simp at h
  | cons q m ih =>
    rw [List.map_cons, List.nodup_cons] at hm
    rw [get_cons]
    rcases List.mem_cons.mp h with rfl | h
    · rw [if_pos rfl]
    · have hne : q.1 ≠ p.1 := fun heq => hm.1 (heq ▸ List.mem_map_of_mem h)
      rw [if_neg hne]
      exact ih hm.2 h

theorem nodup_insert {m : List (κ × α)} (hm : (m.map Prod.fst).Nodup) (k : κ) (v : α) : ((insert m k v).map Prod.fst).Nodup := by
  by_cases hk : k ∈ m.map Prod.fst
  · rwa [keys_insert hk]
  · rw [insert, if_neg hk, List.map_append, List.nodup_append]
    refine ⟨hm, by simp, ?_⟩
    rintro a ha b hb rfl
    obtain rfl : a = k := by simpa using hb
    exact hk ha

/-- The last value of a key is the one that stays. -/
theorem get_foldl_insert (l m : List (κ × α)) (k : κ) :
    get (l.foldl (fun m p => insert m p.1 p.2) m) k = (get l.reverse k).or (get m k) := by
  induction l generalizing m with
  | nil => rfl
  | cons p l ih =>
    have hone : get (insert m p.1 p.2) k = (get [p] k).or (get m k) := by
      rw [get_insert, get_cons, get_nil]
      by_cases hk : p.1 = k
      · rw [if_pos hk, if_pos hk.symm, Option.some_or]
      · rw [if_neg hk, if_neg (Ne.symm hk), Option.none_or]
    rw [List.foldl_cons, ih, hone, List.reverse_cons, get_append, Option.or_assoc]

theorem nodup_foldl_insert {m : List (κ × α)} (hm : (m.map Prod.fst).Nodup) (l : List (κ × α)) :
    ((l.foldl (fun m p => insert m p.1 p.2) m).map Prod.fst).Nodup := by
  induction l generalizing m with
  | nil => exact hm
  | cons p l ih => exact ih (nodup_insert hm p.1 p.2)

theorem get_filter {q : κ × α → Bool} {k : κ} (h : ∀ v, q (k, v) = true) (m : List (κ × α)) : get (m.filter q) k = get m k := by
  induction m with
  | nil => rfl
  | cons p m ih =>
    rw [get_cons, ← ih]
    by_cases hk : p.1 = k
    · have hq := h p.2
      rw [← hk] at hq
      rw [List.filter_cons_of_pos hq, get_cons]
    · rw [if_neg hk, List.filter_cons]
      split
      · rw [get_cons, if_neg hk]
      · rfl

/-- Where no key comes twice, the order does not matter. -/
theorem get_perm {m n : List (κ × α)} (h : m.Perm n) (hm : (m.map Prod.fst).Nodup) (k : κ) : get m k = get n k := by
  have hn : (n.map Prod.fst).Nodup := (h.map Prod.fst).nodup_iff.mp hm
  cases hget : get m k with
  | none =>
    rw [get_eq_none, (h.map Prod.fst).mem_iff] at hget
    exact (get_eq_none.mpr hget).symm
  | some v => exact (get_of_mem hn (h.mem_iff.mp (mem_of_get hget))).symm

/-- Where no key comes twice, every value is `v` if every key has it. -/
theorem forall_value_iff {m : List (κ × α)} (hm : (m.map Prod.fst).Nodup) (v : α) :
    (∀ p ∈ m, p.2 = v) ↔ ∀ k ∈ m.map Prod.fst, get m k = some v := by
  constructor
  · intro h k hk
    obtain ⟨p, hp, rfl⟩ := List.mem_map.mp hk
    rw [get_of_mem hm hp, h p hp]
  · intro h p hp
    have := h p.1 (List.mem_map_of_mem hp)
    rw [get_of_mem hm hp] at this
    exact Option.some.inj this

end Fields
