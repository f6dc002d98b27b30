import Mathlib.Data.List.Nodup
import Mathlib.Data.List.Perm.Basic

/-!
# A table with a primary key

Rows in insertion order. A row is looked up by its key, and the primary key is computed
from it. `INSERT` refuses a primary key that is there, `UPDATE` keeps the keys.
-/

/-!
## Rows without an order

A table keeps its rows in some physical order that every statement may change. A read of one
match takes the first in that order. A partial unique index looks at some of the rows only.
-/

namespace Heap

variable {ρ κ : Type*}

/-- No two rows that meet `p` have the same key. -/
def UniqueIndex (key : ρ → κ) (p : ρ → Prop) [DecidablePred p] (rows : List ρ) : Prop :=
  ((rows.filter p).map key).Nodup

instance [DecidableEq κ] (key : ρ → κ) (p : ρ → Prop) [DecidablePred p] (rows : List ρ) :
    Decidable (UniqueIndex key p rows) := inferInstanceAs (Decidable (List.Nodup _))

theorem UniqueIndex.eq {key : ρ → κ} {p : ρ → Prop} [DecidablePred p] {rows : List ρ}
    (h : UniqueIndex key p rows) {r s : ρ} (hr : r ∈ rows) (hs : s ∈ rows) (hpr : p r) (hps : p s)
    (hkey : key r = key s) : r = s := by
  apply List.inj_on_of_nodup_map h _ _ hkey
  · exact List.mem_filter.mpr ⟨hr, by simpa using hpr⟩
  · exact List.mem_filter.mpr ⟨hs, by simpa using hps⟩

/-- A match is read when nothing before it matches. -/
theorem find_of_split {p : ρ → Bool} {before after : List ρ} {r : ρ} (hr : p r = true)
    (honly : ∀ s ∈ before, p s = true → s ≠ r) :
    (before ++ r :: after).find? p = some r ↔ ∀ s ∈ before, p s = false := by
  constructor
  · intro h s hs
    by_contra hps
    obtain ⟨b, hb⟩ : ∃ b, before.find? p = some b :=
      Option.isSome_iff_exists.mp (List.find?_isSome.mpr ⟨s, hs, by simpa using hps⟩)
    rw [List.find?_append, hb, Option.some_or, Option.some.injEq] at h
    exact honly b (List.mem_of_find?_eq_some hb) (List.find?_some hb) h
  · intro h
    have hnone : before.find? p = none := List.find?_eq_none.mpr fun s hs => by simp [h s hs]
    rw [List.find?_append, hnone, Option.none_or, List.find?_cons_of_pos hr]

/-- A row is read in every order when it is the only match. -/
theorem find_in_every_order {p : ρ → Bool} {rows : List ρ} {r : ρ} (hmem : r ∈ rows) (hr : p r = true) :
    (∀ heap : List ρ, heap.Perm rows → heap.find? p = some r) ↔ ∀ s ∈ rows, p s = true → s = r := by
  constructor
  · intro h s hs hps
    obtain ⟨before, after, rfl⟩ := List.append_of_mem hs
    have hread := h (s :: (before ++ after)) List.perm_middle.symm
    rw [List.find?_cons_of_pos hps, Option.some.injEq] at hread
    exact hread
  · intro h heap hperm
    obtain ⟨s, hs⟩ : ∃ s, heap.find? p = some s :=
      Option.isSome_iff_exists.mp (List.find?_isSome.mpr ⟨r, hperm.symm.subset hmem, hr⟩)
    rw [hs, h s (hperm.subset (List.mem_of_find?_eq_some hs)) (List.find?_some hs)]

end Heap

variable {ρ κ ι : Type*}

/-- Rows with distinct primary keys. -/
structure Table (key : ρ → κ) (pk : κ → ι) where
  rows : List ρ
  nodup : (rows.map fun r => pk (key r)).Nodup

namespace Table

variable {key : ρ → κ} {pk : κ → ι} (t : Table key pk)

def empty : Table key pk := ⟨[], List.nodup_nil⟩

def singleton (r : ρ) : Table key pk := ⟨[r], List.nodup_singleton _⟩

theorem key_nodup : (t.rows.map key).Nodup := by
  have h := t.nodup
  rw [show (fun r => pk (key r)) = pk ∘ key from rfl, ← List.map_map] at h
  exact h.of_map

/-- `SELECT … WHERE key = k`. -/
def find [DecidableEq κ] (k : κ) : Option ρ := t.rows.find? fun r => key r = k

/-- `INSERT`, refused when the primary key is taken. -/
def insert [DecidableEq ι] (r : ρ) : Option (Table key pk) :=
  if h : pk (key r) ∈ t.rows.map fun r => pk (key r) then none
  else some ⟨t.rows ++ [r], by
    rw [List.map_append, List.nodup_append]
    refine ⟨t.nodup, by simp, ?_⟩
    rintro a ha b hb rfl
    simp only [List.map_cons, List.map_nil, List.mem_singleton] at hb
    exact h (hb ▸ ha)⟩

/-- `UPDATE` of every row, by a function that keeps the key. -/
def map (f : ρ → ρ) (hf : ∀ r, key (f r) = key r) : Table key pk :=
  ⟨t.rows.map f, by
    rw [List.map_map, show (fun r => pk (key r)) ∘ f = fun r => pk (key r) from
      funext fun r => congrArg pk (hf r)]
    exact t.nodup⟩

/-- `UPDATE … WHERE key = k`. -/
def update [DecidableEq κ] (k : κ) (f : ρ → ρ) (hf : ∀ r, key (f r) = key r) : Table key pk :=
  t.map (fun r => if key r = k then f r else r) fun r => by split <;> simp [hf]

/-! ## What a row lookup sees after a write -/

theorem insert_isSome [DecidableEq ι] {r : ρ} :
    (t.insert r).isSome ↔ ∀ s ∈ t.rows, pk (key s) ≠ pk (key r) := by
  unfold insert
  split
  · rename_i h
    obtain ⟨s, hs, hpk⟩ := List.mem_map.mp h
    simp only [Option.isSome_none, Bool.false_eq_true, false_iff, not_forall]
    exact ⟨s, hs, not_not.mpr hpk⟩
  · rename_i h
    simp only [Option.isSome_some, true_iff]
    exact fun s hs hpk => h (List.mem_map.mpr ⟨s, hs, hpk⟩)

section Find

variable [DecidableEq κ]

theorem find_some {k : κ} {r : ρ} (h : t.find k = some r) : r ∈ t.rows ∧ key r = k :=
  ⟨List.mem_of_find?_eq_some h, by simpa using List.find?_some h⟩

theorem find_eq_none {k : κ} : t.find k = none ↔ k ∉ t.rows.map key := by
  simp only [find, List.find?_eq_none, decide_eq_true_eq, List.mem_map, not_exists, not_and]

theorem find_of_mem {r : ρ} (h : r ∈ t.rows) : t.find (key r) = some r := by
  cases hfind : t.find (key r) with
  | none => exact absurd (List.mem_map_of_mem h) (t.find_eq_none.mp hfind)
  | some s =>
    obtain ⟨hs, hkey⟩ := t.find_some hfind
    rw [List.inj_on_of_nodup_map t.key_nodup hs h hkey]

/-- A key picks one row at most. -/
theorem filter_key (k : κ) : t.rows.filter (fun r => key r = k) = (t.find k).toList := by
  unfold find
  have h := t.key_nodup
  generalize t.rows = rows at h ⊢
  induction rows with
  | nil => rfl
  | cons r rs ih =>
    rw [List.map_cons, List.nodup_cons] at h
    by_cases hk : key r = k
    · rw [List.filter_cons_of_pos (by simpa using hk), List.find?_cons_of_pos (by simpa using hk),
        List.filter_eq_nil_iff.mpr]
      · rfl
      · intro s hs
        simp only [decide_eq_true_eq]
        rintro rfl
        exact h.1 (hk ▸ List.mem_map_of_mem hs)
    · rw [List.filter_cons_of_neg (by simpa using hk), List.find?_cons_of_neg (by simpa using hk)]
      exact ih h.2

theorem rows_insert [DecidableEq ι] {t t' : Table key pk} {r : ρ} (h : t.insert r = some t') :
    t'.rows = t.rows ++ [r] ∧ t.find (key r) = none := by
  unfold insert at h
  split at h
  · simp at h
  · rename_i hr
    cases h
    refine ⟨rfl, t.find_eq_none.mpr fun hk => ?_⟩
    obtain ⟨s, hs, hkey⟩ := List.mem_map.mp hk
    exact hr (List.mem_map.mpr ⟨s, hs, congrArg pk hkey⟩)

theorem find_insert [DecidableEq ι] {t t' : Table key pk} {r : ρ} (h : t.insert r = some t') (k : κ) :
    t'.find k = if key r = k then some r else t.find k := by
  obtain ⟨hrows, hnone⟩ := rows_insert h
  simp only [find, hrows, List.find?_append, List.find?_singleton, decide_eq_true_eq]
  split_ifs with hk
  · rw [← find, ← hk, hnone]; rfl
  · simp

theorem keys_update (k : κ) (f : ρ → ρ) (hf : ∀ r, key (f r) = key r) :
    (t.update k f hf).rows.map key = t.rows.map key := by
  rw [update, map, List.map_map]
  refine List.map_congr_left fun r _ => ?_
  rw [Function.comp_apply]
  split
  · exact hf r
  · rfl

theorem find_map (f : ρ → ρ) (hf : ∀ r, key (f r) = key r) (k : κ) :
    (t.map f hf).find k = (t.find k).map f := by
  simp only [find, map, List.find?_map]
  congr 2
  funext r
  simp [hf]

theorem find_update (k k' : κ) (f : ρ → ρ) (hf : ∀ r, key (f r) = key r) :
    (t.update k f hf).find k' = if k' = k then (t.find k').map f else t.find k' := by
  rw [update, find_map]
  cases hk : t.find k' with
  | none => simp
  | some r => simp [(t.find_some hk).2]; split <;> rfl

theorem find_update_ne {k k' : κ} (h : k' ≠ k) (f : ρ → ρ) (hf : ∀ r, key (f r) = key r) :
    (t.update k f hf).find k' = t.find k' := by
  rw [find_update, if_neg h]

/-! ### What is known of a row -/

section Known

variable {p q : ρ → Prop} {k : κ}

theorem exists_find_map (f : ρ → ρ) (hf : ∀ r, key (f r) = key r) (hpq : ∀ r, p r → q (f r))
    (h : ∃ r ∈ t.find k, p r) : ∃ r ∈ (t.map f hf).find k, q r := by
  obtain ⟨r, hr, hp⟩ := h
  exact ⟨f r, by rw [find_map, Option.mem_def.mp hr]; rfl, hpq r hp⟩

theorem exists_find_update (k' : κ) (f : ρ → ρ) (hf : ∀ r, key (f r) = key r) (hp : ∀ r, p r → p (f r))
    (h : ∃ r ∈ t.find k, p r) : ∃ r ∈ (t.update k' f hf).find k, p r := by
  refine t.exists_find_map _ _ (fun r hr => ?_) h
  split
  · exact hp r hr
  · exact hr

theorem exists_find_update_self (f : ρ → ρ) (hf : ∀ r, key (f r) = key r) (hpq : ∀ r, p r → q (f r))
    (h : ∃ r ∈ t.find k, p r) : ∃ r ∈ (t.update k f hf).find k, q r := by
  obtain ⟨r, hr, hp⟩ := h
  exact ⟨f r, by rw [find_update, if_pos rfl, Option.mem_def.mp hr]; rfl, hpq r hp⟩

theorem exists_find_insert [DecidableEq ι] {t t' : Table key pk} {r : ρ} (hins : t.insert r = some t')
    (h : ∃ s ∈ t.find k, p s) : ∃ s ∈ t'.find k, p s := by
  obtain ⟨s, hs, hp⟩ := h
  obtain ⟨-, hnone⟩ := rows_insert hins
  refine ⟨s, ?_, hp⟩
  rw [find_insert hins, if_neg]
  · exact hs
  · rintro rfl
    rw [hnone] at hs
    cases hs

end Known

/-- A row that is updated again and again, with the same effect as once. -/
theorem rows_foldl_update {f : ρ → ρ} (hf : ∀ r, key (f r) = key r) (hidem : ∀ r, f (f r) = f r)
    (ks : List κ) (t : Table key pk) :
    (ks.foldl (fun t k => t.update k f hf) t).rows = t.rows.map fun r => if key r ∈ ks then f r else r := by
  induction ks generalizing t with
  | nil => simp
  | cons k ks ih =>
    rw [List.foldl_cons, ih]
    simp only [update, map, List.map_map]
    refine List.map_congr_left fun r _ => ?_
    by_cases hk : key r = k
    · by_cases hks : k ∈ ks <;> simp [hk, hks, hf, hidem]
    · simp [hk]

end Find

end Table
