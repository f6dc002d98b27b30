import BssCli.Cockpit.Leftovers

/-!
# Banners and calls that are scrubbed

A call has no line feed and a banner ends with its line, so taking the banners out leaves every other call as it was.
-/

open Text Regex

namespace BssCli.Cockpit

/-! ## The shapes -/

/-- A narrated call stands on one line. -/
theorem call_within (cc : WordClasses) : (narratedCallRe cc).re.within fun c => c ≠ '\n' := by
  have hlower : ∀ c : Char, c.isLower = true → decide (c ≠ '\n') = true := by
    intro c hc
    refine decide_eq_true fun h => ?_
    rw [h] at hc
    exact absurd hc (by decide)
  have hname : lowerName.within fun c => c ≠ '\n' := by
    refine ⟨hlower, fun c hc => ?_, trivial⟩
    refine decide_eq_true fun h => ?_
    rw [h] at hc
    exact absurd hc (by decide)
  have hchar : ∀ d : Char, d ≠ '\n' → (char d).within fun c => c ≠ '\n' := by
    intro d hd c hc
    obtain rfl : c = d := by simpa using hc
    exact decide_eq_true hd
  have hargs : (many true fun c => c ≠ ')' && c ≠ '\n').within fun c => c ≠ '\n' := by
    intro c hc
    exact (Bool.and_eq_true_iff.mp hc).2
  have hcall : callShape.within fun c => c ≠ '\n' :=
    ⟨hname, hchar _ (by decide), hname, hchar _ (by decide), hargs, hchar _ (by decide), trivial⟩
  have hticks : ticks.within fun c => c ≠ '\n' :=
    ⟨hchar _ (by decide), ⟨⟨hchar _ (by decide), ⟨hchar _ (by decide), trivial⟩, trivial⟩, trivial⟩, trivial⟩
  exact ⟨⟨hticks, hcall, hticks, trivial⟩, trivial, hcall, trivial⟩

/-- A banner begins at the start of a line and takes the end of its line with it, or stops in front of it. -/
theorem banner_line {cc : WordClasses} {before w after : List Char} (h : (fakeProposeLineRe cc).re.Matches before w after) :
    before.head?.all (· = '\n') = true ∧ ((w.reverse ++ before).head? = some '\n' ∨ after.head?.all (· = '\n') = true) := by
  obtain ⟨u, v, hw, hend⟩ := matches_cat_last (bannerParts cc) h
  refine ⟨(matches_seq_look.mp h).1, ?_⟩
  rcases hend with ⟨c, hc, hp⟩ | ⟨-, hp⟩
  · obtain rfl : c = '\n' := by simpa using hp
    left
    rw [hw, hc]
    simp
  · exact .inr hp

/-! ## Calls without the banners -/

/-- What an assertion sees before `rest` in the text that is left, `done`, and in the whole one, `before`: the same character, or
ends of lines. -/
def Agree (done before rest : List Char) : Prop :=
  done.head? = before.head? ∨
    done.head?.all (· = '\n') = true ∧ (before.head? = some '\n' ∨ rest.head?.all (· = '\n') = true)

section

variable {α : Type*} {ch : α → Char} {cc : WordClasses}

/-- A character that the search for banners keeps, what was kept before it, and the rest of the search. -/
theorem banner_kept {x : α} {a b l : List α} {before done : List Char} (hagree : Agree done before (l.map ch))
    (hl : l = a ++ x :: b) (hnodup : l.Nodup) (hkept : Piece.kept x ∈ (fakeProposeLineRe cc).pieces ch 0 before l) :
    ∃ c, ((fakeProposeLineRe cc).pieces ch 0 before l).flatMap (Piece.put []) =
        c ++ x :: ((fakeProposeLineRe cc).pieces ch 0 (ch x :: ((a.map ch).reverse ++ before)) b).flatMap (Piece.put []) ∧
      Agree ((c.map ch).reverse ++ done) ((a.map ch).reverse ++ before) ((x :: b).map ch) := by
  induction before, l using Pattern.search_induction (fakeProposeLineRe cc) ch generalizing a done with
  | nil => cases hkept
  | kept before y l hfind ih =>
    rw [Pattern.pieces_kept hfind] at hkept ⊢
    cases a with
    | nil =>
      obtain ⟨rfl, rfl⟩ := List.cons.inj hl
      exact ⟨[], rfl, hagree⟩
    | cons z a =>
      obtain ⟨rfl, rfl⟩ := List.cons.inj hl
      obtain ⟨hnot, hnodup⟩ := List.nodup_cons.mp hnodup
      have hrest : Piece.kept x ∈ (fakeProposeLineRe cc).pieces ch 0 (ch y :: before) (a ++ x :: b) := by
        refine (List.mem_cons.mp hkept).resolve_left fun h => hnot ?_
        rw [← Piece.kept.inj h]
        exact List.mem_append_right _ List.mem_cons_self
      obtain ⟨c, hc, hagree⟩ := @ih a (ch y :: done) (.inl rfl) rfl hnodup hrest
      refine ⟨y :: c, ?_, by simpa using hagree⟩
      rw [List.flatMap_cons, hc]
      simp [Piece.put]
  | found before w l hne hfind ih =>
    rw [Pattern.pieces_found hne hfind] at hkept ⊢
    have hrest := (List.mem_cons.mp hkept).resolve_left fun h => by cases h
    obtain ⟨-, hright, hapart⟩ := List.nodup_append.mp hnodup
    have hx : x ∈ l := by
      rw [← Pattern.pieces_whole (fakeProposeLineRe cc) ch ((w.map ch).reverse ++ before) l]
      exact List.mem_flatMap.mpr ⟨_, hrest, List.mem_singleton_self x⟩
    obtain ⟨a, rfl, rfl⟩ : ∃ a', a = w ++ a' ∧ l = a' ++ x :: b := by
      rcases List.append_eq_append_iff.mp hl with ⟨a', rfl, h⟩ | ⟨c, rfl, h⟩
      · exact ⟨a', rfl, h⟩
      · cases c with
        | nil => exact ⟨[], by simp, h.symm⟩
        | cons d c =>
          obtain ⟨rfl, -⟩ := List.cons.inj h
          exact absurd rfl (hapart x (by simp) x hx)
    have hbanner := banner_line (Pattern.found_of_find List.map_append (by rw [hfind, List.length_map]))
    have hstart : done.head?.all (· = '\n') = true := by
      rcases hagree with h | h
      · rw [h]
        exact hbanner.1
      · exact h.1
    obtain ⟨c, hc, hagree⟩ := @ih a done (.inr ⟨hstart, hbanner.2⟩) rfl hright hrest
    refine ⟨c, ?_, by simpa using hagree⟩
    rw [List.flatMap_cons, hc]
    simp [Piece.put]

/-- A call that is not taken out with a banner is a call of what the banners leave. -/
theorem call_kept {x : α} {a w b : List α} (hnodup : (a ++ x :: w ++ b).Nodup)
    (hcall : (narratedCallRe cc).re.Matches (a.map ch).reverse ((x :: w).map ch) (b.map ch))
    (hkept : Piece.kept x ∈ (fakeProposeLineRe cc).pieces ch 0 [] (a ++ x :: w ++ b)) :
    ∃ c d, (fakeProposeLineRe cc).replaceAll ch [] (a ++ x :: w ++ b) = c ++ x :: w ++ d ∧
      (narratedCallRe cc).re.Matches (c.map ch).reverse ((x :: w).map ch) (d.map ch) := by
  have hline : ∀ c ∈ (x :: w).map ch, c ≠ '\n' := fun c hc => of_decide_eq_true (hcall.within (call_within cc) c hc)
  have hquiet : (fakeProposeLineRe cc).pieces ch 0 (ch x :: ((a.map ch).reverse ++ [])) (w ++ b) = w.map Piece.kept ++
      (fakeProposeLineRe cc).pieces ch 0 ((w.map ch).reverse ++ ch x :: ((a.map ch).reverse ++ [])) b := by
    refine Pattern.pieces_append_kept fun u d v hw => ?_
    rintro ⟨m, after, -, hm⟩
    -- A banner would begin behind a line feed of the call.
    have hstart := (banner_line hm).1
    cases u using List.reverseRecOn with
    | nil => exact hline (ch x) (by simp) (by simpa using hstart)
    | append_singleton u y => exact hline (ch y) (by simp [hw]) (by simpa using hstart)
  have hsplit : a ++ x :: w ++ b = a ++ x :: (w ++ b) := by simp
  have hstays : w.flatMap (fun y => Piece.put [] (Piece.kept y)) = w := List.flatMap_singleton' w
  obtain ⟨c, hc, hagree⟩ := banner_kept (.inl rfl) hsplit hnodup hkept
  rw [hquiet, List.flatMap_append, List.flatMap_map, hstays] at hc
  refine ⟨c, _, by rw [Pattern.replaceAll, hc, List.append_assoc, List.cons_append], ?_⟩
  rcases hcall with hticked | hbare
  · exact .inl (hticked.of_plain rfl _ _)
  · obtain ⟨hboundary, hshape⟩ := matches_seq_look.mp hbare
    refine .inr (matches_seq_look.mpr ⟨?_, hshape.of_plain rfl _ _⟩)
    rw [List.append_nil, List.append_nil] at hagree
    have hprev : (c.map ch).reverse.head?.any cc.isWord = (a.map ch).reverse.head?.any cc.isWord := by
      rcases hagree with hsame | ⟨hdone, hbefore | hnext⟩
      · rw [hsame]
      · rw [hbefore, Option.any_some, cc.newline]
        cases hhead : (c.map ch).reverse.head? with
        | none => rfl
        | some d =>
          rw [hhead] at hdone
          obtain rfl : d = '\n' := by simpa using hdone
          exact cc.newline
      · exact absurd (by simpa using hnext) (hline (ch x) (by simp))
    rw [hprev]
    exact hboundary

/-- What is left and was not put in comes from what banners and calls leave. -/
theorem mem_stripFakePropose {ins : Char → α} {l : List α} {x : α} (h : x ∈ (stripFakePropose ch cc ins l).1)
    (hspace : x ≠ ins ' ') (hnewline : x ≠ ins '\n') :
    x ∈ (narratedCallRe cc).replaceAll ch [] ((fakeProposeLineRe cc).replaceAll ch [] l) := by
  unfold stripFakePropose at h
  dsimp only at h
  have htrimmed := (List.rdropWhile_prefix _ _).subset h
  have hblanks := Pattern.mem_of_mem_replaceAll ((List.dropWhile_sublist _).subset htrimmed) (by simp [hnewline])
  have hspaces := Pattern.mem_of_mem_replaceAll hblanks (by simp [hspace])
  have hconfirm := Pattern.mem_of_mem_replaceAll hspaces (by simp [hspace])
  split at hconfirm
  · exact (Pattern.replaceAll_sublist ..).subset ((Pattern.replaceAll_sublist ..).subset hconfirm)
  · exact hconfirm

/-- A banner line or a narrated call begins with `x`. -/
def Mimics (cc : WordClasses) (ch : α → Char) (l : List α) (x : α) : Prop :=
  ∃ a w b, l = a ++ x :: w ++ b ∧
    ((fakeProposeLineRe cc).re.Matches (a.map ch).reverse ((x :: w).map ch) (b.map ch) ∨
      (narratedCallRe cc).re.Matches (a.map ch).reverse ((x :: w).map ch) (b.map ch))

theorem mimics_scrubbed {ins : Char → α} {l : List α} (hnodup : l.Nodup) {x : α} (hspace : x ≠ ins ' ')
    (hnewline : x ≠ ins '\n') (h : Mimics cc ch l x) : x ∉ (stripFakePropose ch cc ins l).1 := by
  intro hleft
  have hcalls := mem_stripFakePropose hleft hspace hnewline
  have hbanners := (Pattern.replaceAll_sublist ..).subset hcalls
  obtain ⟨a, w, b, rfl, hbanner | hcall⟩ := h
  · have hbegins : (fakeProposeLineRe cc).Begins (a.map ch).reverse ((x :: (w ++ b)).map ch) :=
      ⟨(x :: w).map ch, b.map ch, by simp, hbanner⟩
    have hsplit : a ++ x :: w ++ b = a ++ x :: (w ++ b) := by simp
    rw [hsplit] at hnodup hbanners
    exact Pattern.not_mem_of_begins hnodup List.not_mem_nil hbegins hbanners
  · obtain ⟨c, d, hcd, hmatch⟩ := call_kept hnodup hcall ((Pattern.mem_replaceAll hbanners).resolve_left List.not_mem_nil)
    have hbegins : (narratedCallRe cc).Begins (c.map ch).reverse ((x :: (w ++ d)).map ch) :=
      ⟨(x :: w).map ch, d.map ch, by simp, hmatch⟩
    have hsplit : c ++ x :: w ++ d = c ++ x :: (w ++ d) := by simp
    have hsub := (fakeProposeLineRe cc).replaceAll_sublist ch (a ++ x :: w ++ b)
    rw [hcd, hsplit] at hsub hcalls
    exact Pattern.not_mem_of_begins (hnodup.sublist hsub) List.not_mem_nil hbegins hcalls

/-- The flag is set when there is a banner or a call in the text. -/
theorem stripFakePropose_flag (t : List Char) :
    (stripFakePropose id cc id t).2 = true ↔ ¬ ((fakeProposeLineRe cc).Free [] t ∧ (narratedCallRe cc).Free [] t) := by
  have hflag : (stripFakePropose id cc id t).2 = true ↔ 0 < (fakeProposeLineRe cc).count id t ∨
      0 < (narratedCallRe cc).count id ((fakeProposeLineRe cc).replaceAll id [] t) := by
    unfold stripFakePropose
    rw [decide_eq_true_eq]
    omega
  rw [hflag, Pattern.count_pos_iff, Pattern.count_pos_iff, List.map_id, List.map_id]
  by_cases hfree : (fakeProposeLineRe cc).Free [] t
  · rw [(deleteAll_id _ t).mpr hfree]
    simp [hfree]
  · simp [hfree]

end

/-! ## Places -/

/-- The characters of a text with their places. What is put in has none. -/
def marked (t : List Char) : List (Char × Option ℕ) := (placed t).map fun p => (p.1, some p.2)

theorem marked_nodup (t : List Char) : (marked t).Nodup := by
  refine (placed_nodup t).map fun p q h => ?_
  simp only [Prod.mk.injEq, Option.some.injEq] at h
  exact Prod.ext h.1 h.2

theorem trimOf_map {α : Type*} (ch : α → Char) (l : List α) : (trimOf ch l).map ch = trimOf id (l.map ch) := by
  unfold trimOf trimStartOf List.rdropWhile
  rw [List.dropWhile_map, ← List.map_reverse, List.dropWhile_map, ← List.map_reverse]
  rfl

/-- The scrubber reads the characters of a text, not what they carry. -/
theorem stripFakePropose_map {α : Type*} (cc : WordClasses) {ch : α → Char} {ins : Char → α} (hins : ∀ c, ch (ins c) = c)
    (l : List α) : (stripFakePropose ch cc ins l).1.map ch = (stripFakePropose id cc id (l.map ch)).1 := by
  have hall : ∀ (P : Pattern) (rep : List Char) (l : List α),
      (P.replaceAll ch (rep.map ins) l).map ch = P.replaceAll id rep (l.map ch) := by
    intro P rep l
    have hrep : (rep.map ins).map ch = rep := by
      rw [List.map_map, show ch ∘ ins = id from funext hins, List.map_id]
    have hmap : (P.replaceAll (id ∘ ch) (rep.map ins) l).map ch = _ := P.replaceAll_map ch (rep.map ins) l
    rw [hrep] at hmap
    exact hmap
  have hdelete : ∀ (P : Pattern) (l : List α), (P.replaceAll ch [] l).map ch = P.replaceAll id [] (l.map ch) :=
    fun P l => hall P [] l
  have hspace : ∀ (P : Pattern) (l : List α),
      (P.replaceAll ch [ins ' '] l).map ch = P.replaceAll id [id ' '] (l.map ch) := fun P l => hall P [' '] l
  have hlines : ∀ (P : Pattern) (l : List α),
      (P.replaceAll ch [ins '\n', ins '\n'] l).map ch = P.replaceAll id [id '\n', id '\n'] (l.map ch) :=
    fun P l => hall P ['\n', '\n'] l
  have hcount : (narratedCallRe cc).count ch ((fakeProposeLineRe cc).replaceAll ch [] l) =
      (narratedCallRe cc).count id ((fakeProposeLineRe cc).replaceAll id [] (l.map ch)) := by
    rw [← hdelete]
    exact show (narratedCallRe cc).count (id ∘ ch) _ = _ from (narratedCallRe cc).count_map ch _
  unfold stripFakePropose
  dsimp only
  rw [trimOf_map, hlines, hspace, hspace, hcount]
  split
  · rw [hdelete, hdelete, hdelete, hdelete]
  · rw [hdelete, hdelete]

end BssCli.Cockpit
