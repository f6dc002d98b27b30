import Mathlib.Data.List.Nodup

/-!
# Walks through a forest

Nodes name themselves and their parent. A walk goes from a parent to its children and below each of them before the next one, and marks
the names that it has seen, so that it ends on whatever the nodes say.
-/

namespace Forest

variable {ι κ : Type*} (children : Option κ → List ι) (name : ι → κ)

/-- The nodes in the order of the walk, and the names that were seen. -/
structure Walked (ι κ : Type*) where
  out : List ι
  guard : List κ

def Walked.push (name : ι → κ) (st : Walked ι κ) (i : ι) : Walked ι κ := ⟨st.out ++ [i], name i :: st.guard⟩

/-- Nodes with what is below them, each before its children, and its children before the next one. A node that was seen is left out. -/
inductive Listed : List ι → List ι → Prop
  | nil : Listed [] []
  | seen {i : ι} {siblings l : List ι} (h : Listed siblings l) : Listed (i :: siblings) l
  | node {i : ι} {siblings sub l : List ι} (hsub : Listed (children (some (name i))) sub) (h : Listed siblings l) :
      Listed (i :: siblings) (i :: (sub ++ l))

/-- What a walk adds. -/
structure Adds (siblings : List ι) (st st' : Walked ι κ) (l : List ι) : Prop where
  out : st'.out = st.out ++ l
  guard : st'.guard = (l.map name).reverse ++ st.guard
  listed : Listed children name siblings l
  fresh : ∀ i ∈ l, name i ∉ st.guard
  nodup : (l.map name).Nodup
  top : ∀ i ∈ siblings, name i ∈ st'.guard
  closed : ∀ i ∈ l, ∀ j ∈ children (some (name i)), name j ∈ st'.guard

section

variable [DecidableEq κ]

/-- One child, and what is below it. -/
def visit (walk : Option κ → Walked ι κ → Walked ι κ) (st : Walked ι κ) (i : ι) : Walked ι κ :=
  if name i ∈ st.guard then st else walk (some (name i)) (st.push name i)

/-- The walk goes no deeper than there are names. -/
def walk : ℕ → Option κ → Walked ι κ → Walked ι κ
  | 0, _, st => st
  | fuel + 1, key, st => (children key).foldl (visit name (walk fuel)) st

/-- The nodes that can still be seen. -/
def unseen (nodes : List ι) (guard : List κ) : ℕ := nodes.countP fun i => name i ∉ guard

end

variable {children name} {nodes : List ι} {st st' : Walked ι κ}

theorem Listed.append {siblings siblings' l l' : List ι} (h : Listed children name siblings l) (h' : Listed children name siblings' l') :
    Listed children name (siblings ++ siblings') (l ++ l') := by
  induction h with
  | nil => exact h'
  | seen _ ih => exact .seen ih
  | node hsub _ _ ih =>
    rw [List.cons_append, List.cons_append, List.append_assoc]
    exact .node hsub ih

theorem Adds.mem_guard {siblings l : List ι} (h : Adds children name siblings st st' l) {k : κ} :
    k ∈ st'.guard ↔ (∃ i ∈ l, name i = k) ∨ k ∈ st.guard := by
  rw [h.guard, List.mem_append, List.mem_reverse, List.mem_map]

theorem Adds.append {siblings siblings' l l' : List ι} {st'' : Walked ι κ} (h : Adds children name siblings st st' l)
    (h' : Adds children name siblings' st' st'' l') : Adds children name (siblings ++ siblings') st st'' (l ++ l') where
  out := by rw [h'.out, h.out, List.append_assoc]
  guard := by rw [h'.guard, h.guard, List.map_append, List.reverse_append, List.append_assoc]
  listed := h.listed.append h'.listed
  fresh := List.forall_mem_append.mpr ⟨h.fresh, fun i hi hseen => h'.fresh i hi (h.mem_guard.mpr (.inr hseen))⟩
  nodup := by
    rw [List.map_append, List.nodup_append]
    refine ⟨h.nodup, h'.nodup, ?_⟩
    rintro a ha b hb rfl
    obtain ⟨i, hi, rfl⟩ := List.mem_map.mp ha
    obtain ⟨j, hj, heq⟩ := List.mem_map.mp hb
    exact h'.fresh j hj (h.mem_guard.mpr (.inl ⟨i, hi, heq.symm⟩))
  top := List.forall_mem_append.mpr ⟨fun i hi => h'.mem_guard.mpr (.inr (h.top i hi)), h'.top⟩
  closed := List.forall_mem_append.mpr ⟨fun i hi j hj => h'.mem_guard.mpr (.inr (h.closed i hi j hj)), h'.closed⟩

section

variable [DecidableEq κ]

theorem unseen_le {g g' : List κ} (h : g ⊆ g') : unseen name nodes g' ≤ unseen name nodes g :=
  List.countP_mono_left fun i _ hi => by
    simp only [decide_eq_true_eq] at hi ⊢
    exact fun hmem => hi (h hmem)

theorem unseen_push {i : ι} (hi : i ∈ nodes) (hseen : name i ∉ st.guard) :
    unseen name nodes (st.push name i).guard < unseen name nodes st.guard := by
  obtain ⟨a, b, rfl⟩ := List.append_of_mem hi
  have hle : ∀ l : List ι, unseen name l (st.push name i).guard ≤ unseen name l st.guard := fun l =>
    unseen_le (List.subset_cons_of_subset _ (List.Subset.refl _))
  have ha := hle a
  have hb := hle b
  unfold unseen at *
  rw [List.countP_append, List.countP_append, List.countP_cons_of_neg (by simp [Walked.push]),
    List.countP_cons_of_pos (by simpa using hseen)]
  omega

theorem adds_visit {fuel : ℕ} {i : ι} (hi : i ∈ nodes)
    (hwalk : ∀ key st, unseen name nodes st.guard < fuel → ∃ l, Adds children name (children key) st (walk children name fuel key st) l)
    (hfuel : unseen name nodes st.guard < fuel + 1) :
    ∃ l, Adds children name [i] st (visit name (walk children name fuel) st i) l := by
  unfold visit
  split_ifs with hseen
  · exact ⟨[], ⟨by simp, by simp, .seen .nil, nofun, List.nodup_nil, by simpa using hseen, nofun⟩⟩
  · have hlt := unseen_push hi hseen
    obtain ⟨l, hadds⟩ := hwalk (some (name i)) (st.push name i) (by omega)
    have hi' : name i ∈ (walk children name fuel (some (name i)) (st.push name i)).guard := hadds.mem_guard.mpr (.inr List.mem_cons_self)
    refine ⟨i :: l, ?_, ?_, ?_, ?_, ?_, ?_, ?_⟩
    · rw [hadds.out]
      simp [Walked.push]
    · rw [hadds.guard]
      simp [Walked.push]
    · rw [← List.append_nil l]
      exact .node hadds.listed .nil
    · exact List.forall_mem_cons.mpr ⟨hseen, fun j hj hmem => hadds.fresh j hj (List.mem_cons_of_mem _ hmem)⟩
    · rw [List.map_cons, List.nodup_cons]
      refine ⟨fun hmem => ?_, hadds.nodup⟩
      obtain ⟨j, hj, heq⟩ := List.mem_map.mp hmem
      exact hadds.fresh j hj (heq ▸ List.mem_cons_self)
    · exact List.forall_mem_singleton.mpr hi'
    · exact List.forall_mem_cons.mpr ⟨hadds.top, hadds.closed⟩

theorem adds_foldl {fuel : ℕ} {siblings : List ι} (hsiblings : ∀ i ∈ siblings, i ∈ nodes)
    (hwalk : ∀ key st, unseen name nodes st.guard < fuel → ∃ l, Adds children name (children key) st (walk children name fuel key st) l)
    (hfuel : unseen name nodes st.guard < fuel + 1) :
    ∃ l, Adds children name siblings st (siblings.foldl (visit name (walk children name fuel)) st) l := by
  induction siblings generalizing st with
  | nil => exact ⟨[], ⟨by simp, by simp, .nil, nofun, List.nodup_nil, nofun, nofun⟩⟩
  | cons i siblings ih =>
    rw [List.forall_mem_cons] at hsiblings
    obtain ⟨l, hadds⟩ := adds_visit hsiblings.1 hwalk hfuel
    have hgrows : unseen name nodes (visit name (walk children name fuel) st i).guard ≤ unseen name nodes st.guard :=
      unseen_le fun k hk => hadds.mem_guard.mpr (.inr hk)
    obtain ⟨l', hadds'⟩ := ih hsiblings.2 (Nat.lt_of_le_of_lt hgrows hfuel)
    exact ⟨l ++ l', hadds.append hadds'⟩

/-- With more fuel than there are nodes to see, a walk lists all that is below its key and was not seen. -/
theorem adds_walk (hnodes : ∀ key, ∀ i ∈ children key, i ∈ nodes) {fuel : ℕ} (key : Option κ)
    (hfuel : unseen name nodes st.guard < fuel) : ∃ l, Adds children name (children key) st (walk children name fuel key st) l := by
  induction fuel generalizing st key with
  | zero => omega
  | succ fuel ih => exact adds_foldl (hnodes key) (fun key st h => ih key h) hfuel

end

/-! ## What is listed -/

variable {parent : ι → Option κ}

/-- The nodes that are there are the children of their parents, each under a name of its own. -/
structure Named (nodes : List ι) (children : Option κ → List ι) (name : ι → κ) (parent : ι → Option κ) : Prop where
  mem : ∀ key i, i ∈ children key ↔ i ∈ nodes ∧ parent i = key
  inj : ∀ i ∈ nodes, ∀ j ∈ nodes, name i = name j → i = j

/-- A chain of parents leads to a node that has none. -/
inductive Rooted (nodes : List ι) (name : ι → κ) (parent : ι → Option κ) : ι → Prop
  | root {i : ι} (hi : i ∈ nodes) (h : parent i = none) : Rooted nodes name parent i
  | child {i j : ι} (hi : i ∈ nodes) (hj : Rooted nodes name parent j) (h : parent i = some (name j)) : Rooted nodes name parent i

variable {siblings l : List ι} {key : Option κ}

theorem Named.of_mem (h : Named nodes children name parent) {i : ι} (hi : i ∈ children key) : i ∈ nodes ∧ parent i = key := (h.mem key i).mp hi

/-- A listed node is one of the siblings, or its parent is listed. -/
theorem Listed.mem (hnamed : Named nodes children name parent) (h : Listed children name siblings l) :
    ∀ i ∈ l, i ∈ siblings ∨ i ∈ nodes ∧ ∃ j ∈ l, parent i = some (name j) := by
  induction h with
  | nil => nofun
  | seen _ ih => exact fun j hj => (ih j hj).imp_left (List.mem_cons_of_mem _)
  | @node i siblings sub l _ _ ihsub ih =>
    intro j hj
    rcases List.mem_cons.mp hj with rfl | hj
    · exact .inl List.mem_cons_self
    rcases List.mem_append.mp hj with hj | hj
    · rcases ihsub j hj with hchild | ⟨hnode, k, hk, hparent⟩
      · exact .inr ⟨(hnamed.of_mem hchild).1, i, List.mem_cons_self, (hnamed.of_mem hchild).2⟩
      · exact .inr ⟨hnode, k, List.mem_cons_of_mem _ (List.mem_append_left _ hk), hparent⟩
    · rcases ih j hj with hsibling | ⟨hnode, k, hk, hparent⟩
      · exact .inl (List.mem_cons_of_mem _ hsibling)
      · exact .inr ⟨hnode, k, List.mem_cons_of_mem _ (List.mem_append_right _ hk), hparent⟩

theorem Listed.subset (hnodes : ∀ key, ∀ i ∈ children key, i ∈ nodes) (h : Listed children name siblings l)
    (hsiblings : ∀ i ∈ siblings, i ∈ nodes) : ∀ i ∈ l, i ∈ nodes := by
  induction h with
  | nil => nofun
  | seen _ ih => exact ih (List.forall_mem_cons.mp hsiblings).2
  | node _ _ ihsub ih =>
    rw [List.forall_mem_cons] at hsiblings
    exact List.forall_mem_cons.mpr ⟨hsiblings.1, List.forall_mem_append.mpr ⟨ihsub (hnodes _), ih hsiblings.2⟩⟩

theorem Listed.rooted (hnamed : Named nodes children name parent) (h : Listed children name siblings l)
    (hsiblings : ∀ i ∈ siblings, Rooted nodes name parent i) : ∀ i ∈ l, Rooted nodes name parent i := by
  induction h with
  | nil => nofun
  | seen _ ih => exact ih (List.forall_mem_cons.mp hsiblings).2
  | node _ _ ihsub ih =>
    rw [List.forall_mem_cons] at hsiblings
    refine List.forall_mem_cons.mpr ⟨hsiblings.1, List.forall_mem_append.mpr ⟨ihsub fun j hj => ?_, ih hsiblings.2⟩⟩
    exact .child (hnamed.of_mem hj).1 hsiblings.1 (hnamed.of_mem hj).2

theorem append_eq_split {sub l a b : List ι} {r : ι} (h : sub ++ l = a ++ r :: b) :
    (∃ b', sub = a ++ r :: b') ∨ ∃ a', a = sub ++ a' ∧ l = a' ++ r :: b := by
  rcases List.append_eq_append_iff.mp h with ⟨a', rfl, hl⟩ | ⟨b', rfl, hb⟩
  · exact .inr ⟨a', rfl, hl⟩
  · cases b' with
    | nil => exact .inr ⟨[], by simp, hb.symm⟩
    | cons r' b' =>
      obtain ⟨rfl, -⟩ := List.cons.inj hb
      exact .inl ⟨b', rfl⟩

/-- Where a depth goes up by one from a parent to its child, the parent of a node is the nearest one before it that is less deep. -/
theorem Listed.indent (hnamed : Named nodes children name parent) {depth : ι → ℕ}
    (hdepth : ∀ i j, Rooted nodes name parent j → i ∈ nodes → parent i = some (name j) → depth i = depth j + 1)
    (h : Listed children name siblings l) {d : ℕ} (hsiblings : ∀ i ∈ siblings, Rooted nodes name parent i ∧ depth i = d) :
    (∀ i ∈ l, d ≤ depth i) ∧ ∀ a i b, l = a ++ i :: b → i ∈ siblings ∨
      ∃ a₁ j a₂, a = a₁ ++ j :: a₂ ∧ parent i = some (name j) ∧ depth i = depth j + 1 ∧ ∀ k ∈ a₂, depth i ≤ depth k := by
  induction h generalizing d with
  | nil => exact ⟨nofun, fun a i b hsplit => absurd hsplit (by simp)⟩
  | seen _ ih =>
    rw [List.forall_mem_cons] at hsiblings
    obtain ⟨hle, hparents⟩ := ih hsiblings.2
    exact ⟨hle, fun a i b hsplit => (hparents a i b hsplit).imp_left (List.mem_cons_of_mem _)⟩
  | @node i siblings sub l _ _ ihsub ih =>
    rw [List.forall_mem_cons] at hsiblings
    obtain ⟨⟨hrooted, hd⟩, hsiblings⟩ := hsiblings
    have hchildren : ∀ j ∈ children (some (name i)), Rooted nodes name parent j ∧ depth j = d + 1 := fun j hj =>
      ⟨.child (hnamed.of_mem hj).1 hrooted (hnamed.of_mem hj).2, hd ▸ hdepth j i hrooted (hnamed.of_mem hj).1 (hnamed.of_mem hj).2⟩
    obtain ⟨hlesub, hsub⟩ := ihsub hchildren
    obtain ⟨hle, hrest⟩ := ih hsiblings
    refine ⟨List.forall_mem_cons.mpr ⟨Nat.le_of_eq hd.symm, List.forall_mem_append.mpr ⟨fun j hj => ?_, hle⟩⟩, fun a r b hsplit => ?_⟩
    · exact Nat.le_of_succ_le (hlesub j hj)
    · cases a with
      | nil =>
        obtain ⟨rfl, -⟩ := List.cons.inj hsplit
        exact .inl List.mem_cons_self
      | cons i' a =>
        obtain ⟨rfl, htail⟩ := List.cons.inj hsplit
        rcases append_eq_split htail with ⟨b', hsub'⟩ | ⟨a', rfl, hl⟩
        · -- in the part below `i`: a child of `i`, or one whose parent is there too
          rcases hsub a r b' hsub' with hchild | ⟨a₁, j, a₂, rfl, hparent, hr, hbetween⟩
          · refine .inr ⟨[], i, a, rfl, (hnamed.of_mem hchild).2, by rw [(hchildren r hchild).2, hd], fun k hk => ?_⟩
            rw [(hchildren r hchild).2]
            exact hlesub k (hsub' ▸ List.mem_append_left _ hk)
          · exact .inr ⟨i :: a₁, j, a₂, rfl, hparent, hr, hbetween⟩
        · rcases hrest a' r b hl with hsibling | ⟨a₁, j, a₂, rfl, hparent, hr, hbetween⟩
          · exact .inl (List.mem_cons_of_mem _ hsibling)
          · exact .inr ⟨i :: (sub ++ a₁), j, a₂, by simp, hparent, hr, hbetween⟩

/-- Siblings come in the order that the children are given in. -/
theorem Listed.sorted (hnamed : Named nodes children name parent) {R : ι → ι → Prop} (hR : ∀ key, (children key).Pairwise R)
    (h : Listed children name siblings l) (hsiblings : ∀ i ∈ siblings, parent i = key) (hsorted : siblings.Pairwise R)
    (hnodup : (l.map name).Nodup) (hkey : ∀ i ∈ l, some (name i) ≠ key) : l.Pairwise fun i j => parent i = parent j → R i j := by
  induction h generalizing key with
  | nil => exact .nil
  | seen _ ih => exact ih (List.forall_mem_cons.mp hsiblings).2 (List.pairwise_cons.mp hsorted).2 hnodup hkey
  | @node i siblings sub l hsub hl ihsub ih =>
    rw [List.forall_mem_cons] at hsiblings hkey
    rw [List.pairwise_cons] at hsorted
    rw [List.map_cons, List.map_append, List.nodup_cons, List.mem_append, not_or, List.nodup_append] at hnodup
    rw [List.forall_mem_append] at hkey
    obtain ⟨⟨hisub, hil⟩, hnodupsub, hnodupl, hdisjoint⟩ := hnodup
    obtain ⟨hkeyi, hkeysub, hkeyl⟩ := hkey
    -- what is below `i` has its parent there
    have hbelow : ∀ j ∈ sub, ∃ k ∈ i :: sub, parent j = some (name k) := by
      intro j hj
      rcases hsub.mem hnamed j hj with hchild | ⟨-, k, hk, hparent⟩
      · exact ⟨i, List.mem_cons_self, (hnamed.of_mem hchild).2⟩
      · exact ⟨k, List.mem_cons_of_mem _ hk, hparent⟩
    have hnotkey : ∀ j ∈ sub, parent j ≠ key := by
      intro j hj heq
      obtain ⟨k, hk, hparent⟩ := hbelow j hj
      rcases List.mem_cons.mp hk with rfl | hk
      · exact hkeyi (hparent.symm.trans heq)
      · exact hkeysub k hk (hparent.symm.trans heq)
    rw [List.pairwise_cons, List.pairwise_append]
    refine ⟨fun j hj heq => ?_, ?_, ?_, fun j hj k hk heq => ?_⟩
    · rw [hsiblings.1] at heq
      rcases List.mem_append.mp hj with hj | hj
      · exact absurd heq.symm (hnotkey j hj)
      · rcases hl.mem hnamed j hj with hsibling | ⟨-, k, hk, hparent⟩
        · exact hsorted.1 j hsibling
        · exact absurd (hparent.symm.trans heq.symm) (hkeyl k hk)
    · refine ihsub (fun j hj => (hnamed.of_mem hj).2) (hR _) hnodupsub fun j hj heq => hisub ?_
      rw [← Option.some.inj heq]
      exact List.mem_map_of_mem hj
    · exact ih hsiblings.2 hsorted.2 hnodupl hkeyl
    · obtain ⟨p, hp, hparent⟩ := hbelow j hj
      rcases hl.mem hnamed k hk with hsibling | ⟨-, q, hq, hparent'⟩
      · exact absurd (heq.trans (hsiblings.2 k hsibling)) (hnotkey j hj)
      · have hsame : name p = name q := Option.some.inj (hparent.symm.trans (heq.trans hparent'))
        rcases List.mem_cons.mp hp with rfl | hp
        · exact absurd (hsame ▸ List.mem_map_of_mem hq) hil
        · exact absurd hsame (hdisjoint _ (List.mem_map_of_mem hp) _ (List.mem_map_of_mem hq))

/-! ## From the roots -/

section

variable [DecidableEq κ]

/-- A walk from the roots adds what is listed below them, to nothing. -/
theorem adds_roots (hnodes : ∀ key, ∀ i ∈ children key, i ∈ nodes) {fuel : ℕ} (hfuel : nodes.length < fuel) :
    Adds children name (children none) ⟨[], []⟩ (walk children name fuel none ⟨[], []⟩) (walk children name fuel none ⟨[], []⟩).out := by
  have hlt : unseen name nodes ([] : List κ) < fuel := Nat.lt_of_le_of_lt List.countP_le_length hfuel
  obtain ⟨l, hadds⟩ : ∃ l, Adds children name (children none) ⟨[], []⟩ (walk children name fuel none ⟨[], []⟩) l :=
    adds_walk hnodes none hlt
  rwa [show (walk children name fuel none ⟨[], []⟩).out = l from hadds.out]

/-- What has a root is listed, and nothing else. -/
theorem mem_walk (hnamed : Named nodes children name parent) {fuel : ℕ} (hfuel : nodes.length < fuel) {i : ι} :
    i ∈ (walk children name fuel none ⟨[], []⟩).out ↔ Rooted nodes name parent i := by
  have hnodes : ∀ key, ∀ i ∈ children key, i ∈ nodes := fun key i hi => (hnamed.of_mem hi).1
  have hadds : Adds children name (children none) ⟨[], []⟩ _ _ := adds_roots hnodes hfuel
  have hsubset := hadds.listed.subset hnodes (hnodes none)
  have hout : ∀ i ∈ nodes, name i ∈ (walk children name fuel none ⟨[], []⟩).guard → i ∈ (walk children name fuel none ⟨[], []⟩).out := by
    intro i hi hmem
    rcases hadds.mem_guard.mp hmem with ⟨j, hj, heq⟩ | hmem
    · exact hnamed.inj j (hsubset j hj) i hi heq ▸ hj
    · exact absurd hmem List.not_mem_nil
  constructor
  · exact hadds.listed.rooted hnamed (fun j hj => .root (hnamed.of_mem hj).1 (hnamed.of_mem hj).2) i
  · intro h
    induction h with
    | root hi h => exact hout _ hi (hadds.top _ ((hnamed.mem _ _).mpr ⟨hi, h⟩))
    | child hi _ h ih => exact hout _ hi (hadds.closed _ ih _ ((hnamed.mem _ _).mpr ⟨hi, h⟩))

end

end Forest
