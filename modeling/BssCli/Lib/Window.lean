import Mathlib.Data.List.Nodup
import Mathlib.Data.List.Sort

/-!
# Rows with a window

A half-open window, open at an end that is not set. Of the rows whose window holds the moment
the first counts. Closing every open row at a cut and adding one that starts there.
-/

/-!
## The pages of an ordered query

`ORDER BY key LIMIT n OFFSET m`, for a key that no two rows share. The row that comes first,
and which rows are on a page.
-/

namespace Page

variable {ρ κ : Type*} [LinearOrder κ] (key : ρ → κ)

/-- `ORDER BY key`. -/
def ordered (rows : List ρ) : List ρ := rows.insertionSort fun a b => key a ≤ key b

/-- `LIMIT limit OFFSET offset`. -/
def page (limit offset : ℕ) (rows : List ρ) : List ρ := ((ordered key rows).drop offset).take limit

/-- `LIMIT 1`. -/
def first (rows : List ρ) : Option ρ := (ordered key rows).head?

/-- The rows that come before. -/
def rank (rows : List ρ) (r : ρ) : ℕ := rows.countP fun s => key s < key r

variable {key} {rows : List ρ} {r : ρ}

theorem ordered_perm : (ordered key rows).Perm rows := List.perm_insertionSort ..

theorem pairwise_ordered : (ordered key rows).Pairwise fun a b => key a ≤ key b := by
  have : Std.Total fun a b : ρ => key a ≤ key b := ⟨fun a b => le_total (key a) (key b)⟩
  have : IsTrans ρ fun a b => key a ≤ key b := ⟨fun _ _ _ h h' => le_trans h h'⟩
  exact List.pairwise_insertionSort ..

theorem pairwise_ordered_lt (h : (rows.map key).Nodup) :
    (ordered key rows).Pairwise fun a b => key a < key b := by
  have hnodup : ((ordered key rows).map key).Nodup := (ordered_perm.map key).nodup_iff.mpr h
  have hne : (ordered key rows).Pairwise fun a b => key a ≠ key b := List.pairwise_map.mp hnodup
  exact (pairwise_ordered.and hne).imp fun h => lt_of_le_of_ne h.1 h.2

/-! ## The first row -/

theorem first_eq_none : first key rows = none ↔ rows = [] := by
  rw [first, List.head?_eq_none_iff]
  exact ⟨fun h => (h ▸ ordered_perm : [].Perm rows).nil_eq.symm, fun h => by rw [h]; rfl⟩

theorem first_isSome : (first key rows).isSome ↔ ∃ r, r ∈ rows := by
  rw [Option.isSome_iff_ne_none, ne_eq, first_eq_none]
  cases rows <;> simp

theorem first_least (h : first key rows = some r) : r ∈ rows ∧ ∀ s ∈ rows, key r ≤ key s := by
  obtain ⟨rest, hrest⟩ : ∃ rest, ordered key rows = r :: rest := List.head?_eq_some_iff.mp h
  have hperm : (r :: rest).Perm rows := hrest ▸ ordered_perm
  have hleast : ∀ s ∈ rest, key r ≤ key s := (List.pairwise_cons.mp (hrest ▸ pairwise_ordered)).1
  refine ⟨hperm.subset (List.mem_cons_self ..), fun s hs => ?_⟩
  rcases List.mem_cons.mp (hperm.symm.subset hs) with rfl | hs
  · exact le_refl _
  · exact hleast s hs

theorem first_eq_some (h : (rows.map key).Nodup) :
    first key rows = some r ↔ r ∈ rows ∧ ∀ s ∈ rows, key r ≤ key s := by
  refine ⟨first_least, ?_⟩
  rintro ⟨hr, hleast⟩
  obtain ⟨s, hs⟩ : ∃ s, first key rows = some s := Option.isSome_iff_exists.mp (first_isSome.mpr ⟨r, hr⟩)
  obtain ⟨hmem, hs'⟩ := first_least hs
  rw [hs, List.inj_on_of_nodup_map h hmem hr (le_antisymm (hs' r hr) (hleast s hmem))]

/-! ## The rows of a page -/

/-- In an ordered list a row stands behind as many as are less than it. -/
theorem rank_of_getElem? {l : List ρ} (h : l.Pairwise fun a b => key a < key b) {i : ℕ} (hi : l[i]? = some r) :
    rank key l r = i := by
  obtain ⟨before, after, rfl, rfl⟩ : ∃ before after, l = before ++ r :: after ∧ before.length = i := by
    obtain ⟨hlt, rfl⟩ := List.getElem?_eq_some_iff.mp hi
    refine ⟨l.take i, l.drop (i + 1), ?_, by rw [List.length_take]; omega⟩
    rw [← List.drop_eq_getElem_cons, List.take_append_drop]
  obtain ⟨-, hafter, hbefore⟩ := List.pairwise_append.mp h
  have hall : before.countP (fun s => key s < key r) = before.length := by
    rw [List.countP_eq_length]
    intro s hs
    simpa using hbefore s hs r (List.mem_cons_self ..)
  have hnone : (r :: after).countP (fun s => key s < key r) = 0 := by
    rw [List.countP_eq_zero]
    intro s hs
    simp only [decide_eq_true_eq, not_lt]
    rcases List.mem_cons.mp hs with rfl | hs
    · exact le_refl _
    · exact ((List.pairwise_cons.mp hafter).1 s hs).le
  rw [rank, List.countP_append, hall, hnone, Nat.add_zero]

/-- A row is on a page by the number of the rows before it. -/
theorem mem_page (h : (rows.map key).Nodup) {limit offset : ℕ} :
    r ∈ page key limit offset rows ↔
      r ∈ rows ∧ offset ≤ rank key rows r ∧ rank key rows r < offset + limit := by
  have hrank : rank key (ordered key rows) r = rank key rows r := ordered_perm.countP_eq _
  have hsorted := pairwise_ordered_lt h
  rw [← hrank, page, List.mem_iff_getElem?]
  constructor
  · rintro ⟨i, hi⟩
    rw [List.getElem?_take, Option.ite_none_right_eq_some, List.getElem?_drop] at hi
    obtain ⟨hlt, hi⟩ := hi
    have hmem : r ∈ ordered key rows := List.mem_of_getElem? hi
    rw [rank_of_getElem? hsorted hi]
    have hperm : (ordered key rows).Perm rows := ordered_perm
    exact ⟨hperm.subset hmem, by omega, by omega⟩
  · rintro ⟨hmem, hle, hlt⟩
    have hmem : r ∈ ordered key rows := ordered_perm.symm.subset hmem
    obtain ⟨i, hi⟩ := List.mem_iff_getElem?.mp hmem
    rw [rank_of_getElem? hsorted hi] at hle hlt
    refine ⟨i - offset, ?_⟩
    rw [List.getElem?_take, if_pos (by omega), List.getElem?_drop, Nat.add_sub_cancel' hle]
    exact hi

end Page

/-- From `start` on, and before `stop`. -/
structure Window (τ : Type*) where
  start : Option τ
  stop : Option τ
  deriving DecidableEq

namespace Window

variable {τ : Type*} [LinearOrder τ]

def Holds (w : Window τ) (m : τ) : Prop := (∀ a ∈ w.start, a ≤ m) ∧ ∀ b ∈ w.stop, m < b

instance (w : Window τ) (m : τ) : Decidable (w.Holds m) := inferInstanceAs (Decidable (_ ∧ _))

/-- An open window stops at the cut. -/
def closeAt (cut : τ) (w : Window τ) : Window τ :=
  if w.stop = none then { w with stop := some cut } else w

variable {w : Window τ} {cut m : τ}

theorem closeAt_holds : (w.closeAt cut).Holds m ↔ w.Holds m ∧ (w.stop = none → m < cut) := by
  unfold closeAt
  split
  · rename_i h
    simp [Holds, h]
  · rename_i h
    simp [h]

theorem closeAt_before (h : m < cut) : (w.closeAt cut).Holds m ↔ w.Holds m := by
  rw [closeAt_holds]
  exact and_iff_left fun _ => h

/-- At the cut and after it only what had an end is left. -/
theorem closeAt_after (h : cut ≤ m) : (w.closeAt cut).Holds m ↔ w.Holds m ∧ w.stop ≠ none := by
  rw [closeAt_holds]
  exact and_congr_right fun _ => imp_congr_right fun _ => iff_false_intro (not_lt.mpr h)

/-! ## The row that counts -/

section Current

variable {ρ κ : Type*} [LinearOrder κ] (key : ρ → κ) (window : ρ → Window τ)

def held (rows : List ρ) (m : τ) : List ρ := rows.filter fun r => (window r).Holds m

def current (rows : List ρ) (m : τ) : Option ρ := Page.first key (held window rows m)

variable {key window} {rows : List ρ} {r new : ρ}

theorem mem_held : r ∈ held window rows m ↔ r ∈ rows ∧ (window r).Holds m := by
  rw [held, List.mem_filter, decide_eq_true_eq]

theorem current_isSome : (current key window rows m).isSome ↔ ∃ r ∈ rows, (window r).Holds m := by
  rw [current, Page.first_isSome]
  simp only [mem_held]

theorem current_eq_some (h : (rows.map key).Nodup) : current key window rows m = some r ↔
    (r ∈ rows ∧ (window r).Holds m) ∧ ∀ s ∈ rows, (window s).Holds m → key r ≤ key s := by
  have hheld : ((held window rows m).map key).Nodup := h.sublist ((List.filter_sublist ..).map key)
  rw [current, Page.first_eq_some hheld]
  simp only [mem_held, and_imp]

/-- A change that keeps every key and, at the moment, every window shows the same row. -/
theorem current_map {f : ρ → ρ} (h : (rows.map key).Nodup) (hkey : ∀ r, key (f r) = key r)
    (hwindow : ∀ r ∈ rows, (window (f r)).Holds m ↔ (window r).Holds m) :
    current key window (rows.map f) m = (current key window rows m).map f := by
  have hkeys : (rows.map f).map key = rows.map key := by
    rw [List.map_map]
    exact List.map_congr_left fun r _ => hkey r
  cases hcur : current key window rows m with
  | none =>
    rw [← Option.not_isSome_iff_eq_none, current_isSome] at hcur
    rw [Option.map_none, ← Option.not_isSome_iff_eq_none, current_isSome]
    rintro ⟨s, hs, hheld⟩
    obtain ⟨r, hr, rfl⟩ := List.mem_map.mp hs
    exact hcur ⟨r, hr, (hwindow r hr).mp hheld⟩
  | some r =>
    obtain ⟨⟨hr, hheld⟩, hleast⟩ := (current_eq_some h).mp hcur
    rw [Option.map_some, current_eq_some (hkeys ▸ h)]
    refine ⟨⟨List.mem_map_of_mem hr, (hwindow r hr).mpr hheld⟩, ?_⟩
    rintro s' hs' hheld'
    obtain ⟨s, hs, rfl⟩ := List.mem_map.mp hs'
    rw [hkey, hkey]
    exact hleast s hs ((hwindow s hs).mp hheld')

/-- A row whose window does not hold the moment is not seen. -/
theorem current_append_of_not (h : ¬ (window new).Holds m) :
    current key window (rows ++ [new]) m = current key window rows m := by
  simp [current, held, List.filter_append, h]

/-! ### Succession -/

variable {f : ρ → ρ}

/-- Before the cut the same row counts as before. -/
theorem current_succession_before (h : (rows.map key).Nodup) (hkey : ∀ r, key (f r) = key r)
    (hclose : ∀ r ∈ rows, window (f r) = (window r).closeAt cut) (hnew : (window new).start = some cut)
    (hm : m < cut) : current key window (rows.map f ++ [new]) m = (current key window rows m).map f := by
  have hnot : ¬ (window new).Holds m := fun hholds => not_le.mpr hm (hholds.1 cut hnew)
  rw [current_append_of_not hnot]
  refine current_map h hkey fun r hr => ?_
  rw [hclose r hr]
  exact closeAt_before hm

/-- From the cut on the new row competes with those that had an end. -/
theorem current_succession_after (h : ((rows.map f ++ [new]).map key).Nodup) (hkey : ∀ r, key (f r) = key r)
    (hclose : ∀ r ∈ rows, window (f r) = (window r).closeAt cut) (hm : cut ≤ m)
    (hnew : (window new).Holds m) : current key window (rows.map f ++ [new]) m = some new ↔
      ∀ r ∈ rows, (window r).stop ≠ none → (window r).Holds m → key new ≤ key r := by
  have hholds : ∀ r ∈ rows, (window (f r)).Holds m ↔ (window r).Holds m ∧ (window r).stop ≠ none := by
    intro r hr
    rw [hclose r hr]
    exact closeAt_after hm
  rw [current_eq_some h, and_iff_right ⟨List.mem_append_right _ (List.mem_singleton_self _), hnew⟩]
  constructor
  · intro hleast r hr hstop hr'
    rw [← hkey r]
    apply hleast (f r) (List.mem_append_left _ (List.mem_map_of_mem hr))
    exact (hholds r hr).mpr ⟨hr', hstop⟩
  · intro hleast s hs hs'
    rcases List.mem_append.mp hs with hs | hs
    · obtain ⟨r, hr, rfl⟩ := List.mem_map.mp hs
      rw [hkey]
      obtain ⟨hr', hstop⟩ := (hholds r hr).mp hs'
      exact hleast r hr hstop hr'
    · rw [List.mem_singleton.mp hs]

end Current

end Window
