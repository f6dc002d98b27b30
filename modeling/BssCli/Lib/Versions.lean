import BssCli.Lib.Pool
import BssCli.Lib.Table

/-!
# Row versions of open transactions

A transaction that writes a row, or locks it, has its own version of it until it commits.
Nobody else can have one of the same row then. A commit puts the versions over the table.
-/

namespace Table

variable {ρ κ ι : Type*} {key : ρ → κ} {pk : κ → ι} [DecidableEq κ]

/-- The row in the place of the one with its key, or as a new one. -/
def put [DecidableEq ι] (t : Table key pk) (r : ρ) : Table key pk :=
  match t.insert r with
  | some t' => t'
  | none => t.map (fun s => if key s = key r then r else s) fun s => by
      split
      · rename_i h
        exact h.symm
      · rfl

/-- The rows that meet `p`. -/
def filter (t : Table key pk) (p : ρ → Prop) [DecidablePred p] : Table key pk :=
  ⟨t.rows.filter fun r => p r, t.nodup.sublist (List.filter_sublist.map _)⟩

/-- The rows of `vs` in place of those of `t`. -/
def overlay [DecidableEq ι] (t vs : Table key pk) : Table key pk := vs.rows.foldl put t

theorem find_put [DecidableEq ι] (hpk : Function.Injective pk) (t : Table key pk) (r : ρ) (k : κ) :
    (t.put r).find k = if key r = k then some r else t.find k := by
  unfold put
  split
  · rename_i t' h
    exact find_insert h k
  · rename_i h
    have hin : ∃ s ∈ t.rows, key s = key r := by
      have hnot : ¬ (t.insert r).isSome := by simp [h]
      rw [insert_isSome] at hnot
      push Not at hnot
      obtain ⟨s, hs, heq⟩ := hnot
      exact ⟨s, hs, hpk heq⟩
    obtain ⟨s, hs, heq⟩ := hin
    rw [find_map]
    split
    · rename_i hk
      rw [← hk, ← heq, t.find_of_mem hs, Option.map_some, if_pos rfl]
    · rename_i hk
      cases hfind : t.find k with
      | none => rfl
      | some s' =>
        have hkey := (t.find_some hfind).2
        rw [Option.map_some, if_neg]
        rw [hkey]
        exact fun h => hk h.symm

theorem find_filter (t : Table key pk) (p : ρ → Prop) [DecidablePred p] (k : κ) :
    (t.filter p).find k = (t.find k).filter fun r => p r := by
  cases hfind : t.find k with
  | none =>
    rw [Option.filter_none, find_eq_none]
    intro h
    obtain ⟨r, hr, hkey⟩ := List.mem_map.mp h
    exact t.find_eq_none.mp hfind (List.mem_map.mpr ⟨r, List.mem_of_mem_filter hr, hkey⟩)
  | some r =>
    obtain ⟨hr, hkey⟩ := t.find_some hfind
    by_cases hp : p r
    · rw [Option.filter_some_pos (by simpa using hp), ← hkey]
      exact (t.filter p).find_of_mem (List.mem_filter.mpr ⟨hr, by simpa using hp⟩)
    · rw [Option.filter_some_neg (by simpa using hp), find_eq_none]
      intro h
      obtain ⟨s, hs, hskey⟩ := List.mem_map.mp h
      obtain ⟨hs, hps⟩ := List.mem_filter.mp hs
      obtain rfl : s = r := by
        have := t.find_of_mem hs
        rw [hskey, hfind, Option.some.injEq] at this
        exact this.symm
      exact hp (by simpa using hps)

theorem find_overlay [DecidableEq ι] (hpk : Function.Injective pk) (t vs : Table key pk) (k : κ) :
    (t.overlay vs).find k = (vs.find k).or (t.find k) := by
  have hlist : ∀ (l : List ρ) (t : Table key pk), (l.map key).Nodup →
      (l.foldl put t).find k = (l.find? fun r => key r = k).or (t.find k) := by
    intro l
    induction l with
    | nil => intro t _; rfl
    | cons r rs ih =>
      intro t hnodup
      rw [List.map_cons, List.nodup_cons] at hnodup
      rw [List.foldl_cons, ih _ hnodup.2, find_put hpk]
      by_cases hk : key r = k
      · have hrest : rs.find? (fun r => key r = k) = none := by
          rw [List.find?_eq_none]
          intro s hs hkey
          refine hnodup.1 (List.mem_map.mpr ⟨s, hs, ?_⟩)
          rw [hk]
          simpa using hkey
        rw [if_pos hk, hrest, List.find?_cons_of_pos (by simpa using hk)]
        rfl
      · rw [if_neg hk, List.find?_cons_of_neg (by simpa using hk)]
  exact hlist vs.rows t vs.key_nodup

end Table

namespace Versions

variable {ρ κ ι φ : Type*} {key : ρ → κ} {pk : κ → ι} [DecidableEq κ]
  {vs : φ → Table key pk} {flights : List φ} {t : Table key pk} {i : ℕ} {f g : φ}

/-! ## No row has two versions -/

def Apart (vs : φ → Table key pk) (f g : φ) : Prop := ∀ k, (vs f).find k = none ∨ (vs g).find k = none

theorem Apart.symm (h : Apart vs f g) : Apart vs g f := fun k => (h k).symm

def Exclusive (vs : φ → Table key pk) (flights : List φ) : Prop := flights.Pairwise (Apart vs)

/-- Nobody but the flight at `i` has a version of the row. -/
def Free (vs : φ → Table key pk) (flights : List φ) (i : ℕ) (k : κ) : Prop :=
  ∀ g ∈ flights.eraseIdx i, (vs g).find k = none

theorem exclusive_perm {l l' : List φ} (hp : l.Perm l') : Exclusive vs l ↔ Exclusive vs l' :=
  hp.pairwise_iff fun h => h.symm

theorem Exclusive.erase (h : Exclusive vs flights) (i : ℕ) : Exclusive vs (flights.eraseIdx i) :=
  h.sublist (List.eraseIdx_sublist ..)

/-- What a flight has a version of is free for nobody else. -/
theorem Exclusive.free (h : Exclusive vs flights) (hf : flights[i]? = some f) {k : κ} {v : ρ}
    (hv : (vs f).find k = some v) : Free vs flights i k := by
  intro g hg
  have hcons := (exclusive_perm (Pool.perm_eraseIdx hf)).mp h
  rcases (List.pairwise_cons.mp hcons).1 g hg k with hnone | hnone
  · rw [hv] at hnone
    cases hnone
  · exact hnone

theorem Exclusive.concat (h : Exclusive vs flights) (hg : ∀ k, (vs g).find k = none) :
    Exclusive vs (flights ++ [g]) := by
  unfold Exclusive
  rw [List.pairwise_append]
  refine ⟨h, List.pairwise_singleton .., ?_⟩
  intro a _ b hb k
  rw [List.mem_singleton.mp hb]
  exact Or.inr (hg k)

/-- A flight takes versions of rows that are free. -/
theorem Exclusive.set (h : Exclusive vs flights) (hf : flights[i]? = some f)
    (hg : ∀ k, (vs g).find k ≠ none → (vs f).find k ≠ none ∨ Free vs flights i k) :
    Exclusive vs (flights.set i g) := by
  refine (exclusive_perm (Pool.perm_set hf g)).mpr (List.pairwise_cons.mpr ⟨?_, h.erase i⟩)
  intro a ha k
  by_cases hk : (vs g).find k = none
  · exact Or.inl hk
  · rcases hg k hk with hown | hfree
    · obtain ⟨v, hv⟩ := Option.ne_none_iff_exists'.mp hown
      exact Or.inr (h.free hf hv a ha)
    · exact Or.inr (hfree a ha)

/-! ## One statement -/

section Statement

variable {own stored : Table key pk} {p : ρ → Prop} [DecidablePred p] {w : ρ → ρ}
  {hw : ∀ r, key (w r) = key r} {others : List φ}

/-- What a `WHERE` meets: the own versions, and the stored rows that have none. -/
def met [DecidableEq ι] (own stored : Table key pk) (p : ρ → Prop) [DecidablePred p] : Table key pk :=
  (stored.overlay own).filter p

/-- Somebody else has a version of one of the rows. -/
def Waits (vs : φ → Table key pk) (others : List φ) (rows : Table key pk) : Prop :=
  ∃ g ∈ others, ∃ r ∈ rows.rows, ((vs g).find (key r)).isSome

instance (vs : φ → Table key pk) (others : List φ) (rows : Table key pk) : Decidable (Waits vs others rows) :=
  inferInstanceAs (Decidable (∃ g ∈ _, ∃ r ∈ _, _))

/-- `UPDATE … WHERE`: the rows it met and the own versions after it. `none` while it waits. -/
def update [DecidableEq ι] (vs : φ → Table key pk) (others : List φ) (own stored : Table key pk) (p : ρ → Prop)
    [DecidablePred p] (w : ρ → ρ) (hw : ∀ r, key (w r) = key r) : Option (Table key pk × Table key pk) :=
  if Waits vs others (met own stored p) then none
  else some (met own stored p, own.overlay ((met own stored p).map w hw))

/-- What an `UPDATE` has made of the own versions. -/
structure Wrote (vs : φ → Table key pk) (others : List φ) (stored : Table key pk) (p : ρ → Prop) [DecidablePred p]
    (w : ρ → ρ) (own own' : Table key pk) : Prop where
  free : ∀ k r, (own.find k).or (stored.find k) = some r → p r → ∀ g ∈ others, (vs g).find k = none
  find : ∀ k, own'.find k = ((((own.find k).or (stored.find k)).filter fun r => p r).map w).or (own.find k)

theorem find_met [DecidableEq ι] (hpk : Function.Injective pk) (k : κ) :
    (met own stored p).find k = ((own.find k).or (stored.find k)).filter fun r => p r := by
  unfold met
  rw [Table.find_filter, Table.find_overlay hpk]

theorem update_eq_some [DecidableEq ι] (hpk : Function.Injective pk) {rows own' : Table key pk}
    (h : update vs others own stored p w hw = some (rows, own')) :
    rows = met own stored p ∧ Wrote vs others stored p w own own' := by
  unfold update at h
  split at h
  · cases h
  · rename_i hfree
    cases h
    refine ⟨rfl, ?_, ?_⟩
    · intro k r hr hp g hg
      by_contra hsome
      have hmet : (met own stored p).find k = some r := by
        rw [find_met hpk, hr, Option.filter_some_pos (by simpa using hp)]
      obtain ⟨hmem, rfl⟩ := Table.find_some _ hmet
      exact hfree ⟨g, hg, r, hmem, Option.isSome_iff_ne_none.mpr hsome⟩
    · intro k
      rw [Table.find_overlay hpk, Table.find_map, find_met hpk]

/-- Each version after an `UPDATE` is one it wrote, or one from before. -/
theorem Wrote.cases {own' : Table key pk} (h : Wrote vs others stored p w own own') {k : κ} {v : ρ}
    (hv : own'.find k = some v) :
    (∃ r, (own.find k).or (stored.find k) = some r ∧ p r ∧ v = w r) ∨ own.find k = some v := by
  rw [h.find, Option.or_eq_some_iff] at hv
  rcases hv with hv | ⟨-, hv⟩
  · obtain ⟨r, hr, rfl⟩ := Option.map_eq_some_iff.mp hv
    obtain ⟨hseen, hp⟩ := Option.filter_eq_some_iff.mp hr
    exact Or.inl ⟨r, hseen, by simpa using hp, rfl⟩
  · exact Or.inr hv

/-- What the `WHERE` meets is written. -/
theorem Wrote.meets {own' : Table key pk} (h : Wrote vs others stored p w own own') {k : κ} {r : ρ}
    (hr : (own.find k).or (stored.find k) = some r) (hp : p r) : own'.find k = some (w r) := by
  rw [h.find, hr, Option.filter_some_pos (by simpa using hp)]
  rfl

/-- What it does not meet stays. -/
theorem Wrote.misses {own' : Table key pk} (h : Wrote vs others stored p w own own') {k : κ}
    (hp : ∀ r, (own.find k).or (stored.find k) = some r → ¬ p r) : own'.find k = own.find k := by
  rw [h.find]
  have hnone : (((own.find k).or (stored.find k)).filter fun r => p r) = none := by
    rw [Option.filter_eq_none_iff]
    intro r hr
    simpa using hp r hr
  rw [hnone]
  rfl

theorem Exclusive.wrote (h : Exclusive vs flights) (hf : flights[i]? = some f)
    (hw : Wrote vs (flights.eraseIdx i) stored p w (vs f) (vs g)) : Exclusive vs (flights.set i g) := by
  apply h.set hf
  intro k hk
  obtain ⟨v, hv⟩ := Option.ne_none_iff_exists'.mp hk
  rcases hw.cases hv with ⟨r, hr, hp, -⟩ | hown
  · exact Or.inr fun a ha => hw.free k r hr hp a ha
  · exact Or.inl (by simp [hown])

end Statement

/-! ## What versions are to the stored rows -/

/-- Each version stands in the relation `P` to the row that is stored. -/
def Justified (vs : φ → Table key pk) (P : φ → Option ρ → ρ → Prop) (t : Table key pk)
    (flights : List φ) : Prop :=
  ∀ f ∈ flights, ∀ k v, (vs f).find k = some v → P f (t.find k) v

variable {P : φ → Option ρ → ρ → Prop}

/-- A commit changes no row of which somebody else has a version. -/
theorem Justified.commit [DecidableEq ι] (hpk : Function.Injective pk) (h : Justified vs P t flights)
    (hx : Exclusive vs flights) (hf : flights[i]? = some f) :
    Justified vs P (t.overlay (vs f)) (flights.eraseIdx i) := by
  intro g hg k v hv
  rw [Table.find_overlay hpk]
  cases hown : (vs f).find k with
  | none => exact h g (List.mem_of_mem_eraseIdx hg) k v hv
  | some w =>
    have hnone := hx.free hf hown g hg
    rw [hv] at hnone
    cases hnone

end Versions
