import Mathlib.Data.List.Basic
import Mathlib.Data.List.Nodup
import Mathlib.Data.List.Infix
import Mathlib.Data.List.Perm.Subperm
import Mathlib.Data.List.TakeWhile
import Mathlib.Algebra.BigOperators.Group.List.Basic
import Mathlib.Algebra.Ring.Nat

/-!
# Regular expressions

Matched as a backtracking engine does it: the first match in the order of preference. A search replaces the leftmost match, goes
on behind it, and keeps every character at which none begins.
-/

/-- `look` is an assertion about the characters on its two sides, `behind` one about all that was read, last first. -/
inductive Regex
  | empty
  | set (p : Char → Bool)
  | many (greedy : Bool) (p : Char → Bool)
  | seq (a b : Regex)
  | alt (a b : Regex)
  | look (p : Option Char → Option Char → Bool)
  | behind (p : List Char → Bool)

namespace Regex

/-! ## Ways to write one -/

def char (c : Char) : Regex := set (· = c)

def opt (a : Regex) : Regex := alt a empty

def plus (p : Char → Bool) : Regex := seq (set p) (many true p)

def cat (parts : List Regex) : Regex := parts.foldr seq empty

def oneOf : List Regex → Regex
  | [] => set fun _ => false
  | [a] => a
  | a :: as => alt a (oneOf as)

/-- A letter of either case. Case folding has two letters outside ASCII for `s` and `k`. -/
def letter (c : Char) : Regex := set fun x => x.toLower = c || (c = 's' && x = 'ſ') || (c = 'k' && x = 'K')

/-- The text, which is in lower case, in any case. -/
def text (s : String) : Regex := cat (s.toList.map letter)

/-! ## Matching -/

/-- The lengths of the matches at the front of `rest`, the preferred one first. What stands before it is given last first. -/
def ends : Regex → List Char → List Char → List ℕ
  | empty, _, _ => [0]
  | set _, _, [] => []
  | set p, _, c :: _ => if p c then [1] else []
  | many greedy p, _, rest =>
    let lengths := List.range ((rest.takeWhile p).length + 1)
    if greedy then lengths.reverse else lengths
  | seq a b, before, rest =>
    (a.ends before rest).flatMap fun n => (b.ends ((rest.take n).reverse ++ before) (rest.drop n)).map (n + ·)
  | alt a b, before, rest => a.ends before rest ++ b.ends before rest
  | look p, before, rest => if p before.head? rest.head? then [0] else []
  | behind p, before, _ => if p before then [0] else []

attribute [grind =] ends

/-- The expression matches `w` between the two texts. -/
def Matches : Regex → List Char → List Char → List Char → Prop
  | empty, _, w, _ => w = []
  | set p, _, w, _ => ∃ c, w = [c] ∧ p c = true
  | many _ p, _, w, _ => ∀ c ∈ w, p c = true
  | seq a b, before, w, after =>
    ∃ u v, w = u ++ v ∧ a.Matches before u (v ++ after) ∧ b.Matches (u.reverse ++ before) v after
  | alt a b, before, w, after => a.Matches before w after ∨ b.Matches before w after
  | look p, before, w, after => w = [] ∧ p before.head? after.head? = true
  | behind p, before, w, _ => w = [] ∧ p before = true

theorem mem_range_takeWhile_iff {p : Char → Bool} {rest : List Char} {n : ℕ} :
    n < (rest.takeWhile p).length + 1 ↔ ∃ w after, rest = w ++ after ∧ w.length = n ∧ ∀ c ∈ w, p c = true := by
  constructor
  · intro h
    refine ⟨rest.take n, rest.drop n, (List.take_append_drop n rest).symm, ?_, fun c hc => ?_⟩
    · have := (List.takeWhile_prefix p (l := rest)).length_le
      rw [List.length_take]
      omega
    · have hpre : rest.take n <+: rest.takeWhile p :=
        List.prefix_of_prefix_length_le (List.take_prefix n rest) (List.takeWhile_prefix p) (by rw [List.length_take]; omega)
      exact List.mem_takeWhile_imp (hpre.subset hc)
  · rintro ⟨w, after, rfl, rfl, hall⟩
    rw [List.takeWhile_append_of_pos hall, List.length_append]
    omega

/-- The matcher finds what the expression matches. -/
theorem mem_ends_iff {re : Regex} {before rest : List Char} {n : ℕ} :
    n ∈ re.ends before rest ↔ ∃ w after, rest = w ++ after ∧ w.length = n ∧ re.Matches before w after := by
  induction re generalizing before rest n with
  | empty =>
    simp only [ends, Matches, List.mem_singleton]
    constructor
    · rintro rfl
      exact ⟨[], rest, rfl, rfl, rfl⟩
    · rintro ⟨w, after, -, rfl, rfl⟩
      rfl
  | set p =>
    simp only [Matches]
    cases rest with
    | nil =>
      simp only [ends, List.not_mem_nil, false_iff]
      rintro ⟨w, after, hw, -, c, rfl, -⟩
      cases hw
    | cons d rest =>
      unfold ends
      constructor
      · intro h
        split at h
        · rename_i hd
          obtain rfl := List.mem_singleton.mp h
          exact ⟨[d], rest, rfl, rfl, d, rfl, hd⟩
        · cases h
      · rintro ⟨w, after, hw, rfl, c, rfl, hc⟩
        obtain ⟨rfl, -⟩ := List.cons.inj hw
        rw [if_pos hc]
        exact List.mem_singleton_self _
  | many greedy p =>
    have hlen : n ∈ (many greedy p).ends before rest ↔ n < (rest.takeWhile p).length + 1 := by
      cases greedy <;> simp [ends]
    rw [hlen, mem_range_takeWhile_iff]
    rfl
  | seq a b iha ihb =>
    simp only [ends, Matches, List.mem_flatMap, List.mem_map]
    constructor
    · rintro ⟨k, hk, m, hm, rfl⟩
      obtain ⟨u, after, rfl, rfl, hu⟩ := iha.mp hk
      rw [List.take_left, List.drop_left] at hm
      obtain ⟨v, after, rfl, rfl, hv⟩ := ihb.mp hm
      exact ⟨u ++ v, after, by rw [List.append_assoc], List.length_append, u, v, rfl, hu, hv⟩
    · rintro ⟨w, after, rfl, rfl, u, v, rfl, hu, hv⟩
      refine ⟨u.length, iha.mpr ⟨u, v ++ after, List.append_assoc .., rfl, hu⟩, v.length, ?_, List.length_append.symm⟩
      rw [List.append_assoc, List.take_left, List.drop_left]
      exact ihb.mpr ⟨v, after, rfl, rfl, hv⟩
  | alt a b iha ihb =>
    simp only [ends, Matches, List.mem_append, iha, ihb]
    constructor
    · rintro (⟨w, after, h⟩ | ⟨w, after, h⟩)
      · exact ⟨w, after, h.1, h.2.1, .inl h.2.2⟩
      · exact ⟨w, after, h.1, h.2.1, .inr h.2.2⟩
    · rintro ⟨w, after, hrest, hlen, h | h⟩
      · exact .inl ⟨w, after, hrest, hlen, h⟩
      · exact .inr ⟨w, after, hrest, hlen, h⟩
  | look p =>
    simp only [ends, Matches]
    constructor
    · intro h
      split at h
      · rename_i hp
        obtain rfl := List.mem_singleton.mp h
        exact ⟨[], rest, rfl, rfl, rfl, hp⟩
      · cases h
    · rintro ⟨w, after, rfl, rfl, rfl, hp⟩
      rw [List.nil_append, if_pos hp]
      exact List.mem_singleton_self _
  | behind p =>
    simp only [ends, Matches]
    constructor
    · intro h
      split at h
      · rename_i hp
        obtain rfl := List.mem_singleton.mp h
        exact ⟨[], rest, rfl, rfl, rfl, hp⟩
      · cases h
    · rintro ⟨w, after, rfl, rfl, rfl, hp⟩
      rw [if_pos hp]
      exact List.mem_singleton_self _

/-! ## Assertions -/

/-- No assertion is in it. -/
def plain : Regex → Bool
  | empty | set _ | many _ _ => true
  | seq a b | alt a b => a.plain && b.plain
  | look _ | behind _ => false

/-- Without assertions a word is matched or not, wherever it stands. -/
theorem Matches.of_plain {re : Regex} (h : re.plain = true) {before w after : List Char} (hm : re.Matches before w after)
    (before' after' : List Char) : re.Matches before' w after' := by
  induction re generalizing before w after before' after' with
  | empty | set | many => exact hm
  | seq a b iha ihb =>
    obtain ⟨ha, hb⟩ := Bool.and_eq_true_iff.mp h
    obtain ⟨u, v, rfl, hu, hv⟩ := hm
    exact ⟨u, v, rfl, iha ha hu _ _, ihb hb hv _ _⟩
  | alt a b iha ihb =>
    obtain ⟨ha, hb⟩ := Bool.and_eq_true_iff.mp h
    exact hm.imp (fun hm => iha ha hm _ _) fun hm => ihb hb hm _ _
  | look | behind => cases h

/-- Nothing in it looks further back than one character. -/
def near : Regex → Bool
  | empty | set _ | many _ _ | look _ => true
  | seq a b | alt a b => a.near && b.near
  | behind _ => false

/-- Then a word is matched or not, whatever stands beyond its neighbours. -/
theorem Matches.of_near {re : Regex} (h : re.near = true) {before w after before' after' : List Char}
    (hm : re.Matches before w after) (hprev : before.head? = before'.head?) (hnext : after.head? = after'.head?) :
    re.Matches before' w after' := by
  induction re generalizing before w after before' after' with
  | empty | set | many => exact hm
  | seq a b iha ihb =>
    obtain ⟨ha, hb⟩ := Bool.and_eq_true_iff.mp h
    obtain ⟨u, v, rfl, hu, hv⟩ := hm
    refine ⟨u, v, rfl, iha ha hu hprev ?_, ihb hb hv ?_ hnext⟩
    · rw [List.head?_append, List.head?_append, hnext]
    · rw [List.head?_append, List.head?_append, hprev]
  | alt a b iha ihb =>
    obtain ⟨ha, hb⟩ := Bool.and_eq_true_iff.mp h
    exact hm.imp (fun hm => iha ha hm hprev hnext) fun hm => ihb hb hm hprev hnext
  | look p => exact ⟨hm.1, by rw [← hprev, ← hnext]; exact hm.2⟩
  | behind => cases h

theorem matches_seq_look {p : Option Char → Option Char → Bool} {re : Regex} {before w after : List Char} :
    (seq (look p) re).Matches before w after ↔ p before.head? (w ++ after).head? = true ∧ re.Matches before w after := by
  constructor
  · rintro ⟨u, v, rfl, ⟨rfl, hp⟩, hre⟩
    exact ⟨hp, hre⟩
  · rintro ⟨hp, hre⟩
    exact ⟨[], w, rfl, ⟨rfl, hp⟩, hre⟩

/-! ## Expressions that consume -/

/-- A length that no match falls short of. -/
def least : Regex → ℕ
  | empty | many _ _ | look _ | behind _ => 0
  | set _ => 1
  | seq a b => a.least + b.least
  | alt a b => min a.least b.least

theorem Matches.least_le {re : Regex} {before w after : List Char} (h : re.Matches before w after) : re.least ≤ w.length := by
  induction re generalizing before w after with
  | empty | many | look | behind => exact Nat.zero_le _
  | set p =>
    obtain ⟨c, rfl, -⟩ := h
    exact le_rfl
  | seq a b iha ihb =>
    obtain ⟨u, v, rfl, hu, hv⟩ := h
    rw [least, List.length_append]
    exact Nat.add_le_add (iha hu) (ihb hv)
  | alt a b iha ihb =>
    rcases h with h | h
    · exact (min_le_left ..).trans (iha h)
    · exact (min_le_right ..).trans (ihb h)

/-- Each match has a character of the kind. -/
def marks (kind : Char → Bool) : Regex → Prop
  | set p => ∀ c, p c = true → kind c = true
  | seq a b => a.marks kind ∨ b.marks kind
  | alt a b => a.marks kind ∧ b.marks kind
  | empty | many _ _ | look _ | behind _ => False

theorem Matches.exists_mark {kind : Char → Bool} {re : Regex} (h : re.marks kind) {before w after : List Char}
    (hm : re.Matches before w after) : ∃ c ∈ w, kind c = true := by
  induction re generalizing before w after with
  | empty | many | look | behind => exact h.elim
  | set p =>
    obtain ⟨c, rfl, hc⟩ := hm
    exact ⟨c, List.mem_singleton_self c, h c hc⟩
  | seq a b iha ihb =>
    obtain ⟨u, v, rfl, hu, hv⟩ := hm
    rcases h with h | h
    · obtain ⟨c, hc, hkind⟩ := iha h hu
      exact ⟨c, List.mem_append_left _ hc, hkind⟩
    · obtain ⟨c, hc, hkind⟩ := ihb h hv
      exact ⟨c, List.mem_append_right _ hc, hkind⟩
  | alt a b iha ihb => exact hm.elim (iha h.1) (ihb h.2)

/-- Each character of a match is of the kind. -/
def within (kind : Char → Bool) : Regex → Prop
  | set p | many _ p => ∀ c, p c = true → kind c = true
  | seq a b | alt a b => a.within kind ∧ b.within kind
  | empty | look _ | behind _ => True

theorem Matches.within {kind : Char → Bool} {re : Regex} (h : re.within kind) {before w after : List Char}
    (hm : re.Matches before w after) : ∀ c ∈ w, kind c = true := by
  induction re generalizing before w after with
  | empty | look | behind =>
    intro c hc
    have hnil : w = [] := by first | exact hm | exact hm.1
    rw [hnil] at hc
    cases hc
  | set p =>
    obtain ⟨c, rfl, hp⟩ := hm
    intro d hd
    obtain rfl := List.mem_singleton.mp hd
    exact h d hp
  | many greedy p => exact fun c hc => h c (hm c hc)
  | seq a b iha ihb =>
    obtain ⟨u, v, rfl, hu, hv⟩ := hm
    exact fun c hc => (List.mem_append.mp hc).elim (iha h.1 hu c) (ihb h.2 hv c)
  | alt a b iha ihb => exact hm.elim (iha h.1) (ihb h.2)

/-- The expression without its assertions. -/
def loose : Regex → Regex
  | empty | look _ | behind _ => empty
  | set p => set p
  | many greedy p => many greedy p
  | seq a b => seq a.loose b.loose
  | alt a b => alt a.loose b.loose

theorem Matches.loose {re : Regex} {before w after : List Char} (hm : re.Matches before w after) :
    re.loose.Matches before w after := by
  induction re generalizing before w after with
  | empty | set | many => exact hm
  | look | behind => exact hm.1
  | seq a b iha ihb =>
    obtain ⟨u, v, rfl, hu, hv⟩ := hm
    exact ⟨u, v, rfl, iha hu, ihb hv⟩
  | alt a b iha ihb => exact hm.imp iha ihb

theorem least_loose (re : Regex) : re.loose.least = re.least := by
  induction re with
  | empty | set | many | look | behind => rfl
  | seq a b iha ihb | alt a b iha ihb => rw [loose, least, least, iha, ihb]

/-- A match of several parts ends in a match of the last one. -/
theorem matches_cat_last (parts : List Regex) {last : Regex} {before w after : List Char}
    (h : (cat (parts ++ [last])).Matches before w after) : ∃ u v, w = u ++ v ∧ last.Matches (u.reverse ++ before) v after := by
  induction parts generalizing before w with
  | nil =>
    obtain ⟨u, v, rfl, hu, rfl⟩ := h
    exact ⟨[], u, List.append_nil u, hu⟩
  | cons part parts ih =>
    obtain ⟨u, v, rfl, -, hv⟩ := h
    obtain ⟨x, y, rfl, hy⟩ := ih hv
    exact ⟨u ++ x, y, (List.append_assoc ..).symm, by rwa [List.reverse_append, List.append_assoc]⟩

end Regex

/-! ## Searching -/

/-- An expression that matches no empty text. -/
structure Pattern where
  re : Regex
  consumes : 0 < re.least

/-- What a search makes of a text: characters that are kept, and matches. -/
inductive Piece (α : Type*)
  | kept (a : α)
  | found (m : List α)

namespace Piece

variable {α β : Type*}

/-- The piece with every match replaced. -/
def put (rep : List α) : Piece α → List α
  | kept a => [a]
  | found _ => rep

def whole : Piece α → List α
  | kept a => [a]
  | found m => m

def isFound : Piece α → Bool
  | kept _ => false
  | found _ => true

def map (g : α → β) : Piece α → Piece β
  | kept a => kept (g a)
  | found m => found (m.map g)

end Piece

namespace Pattern

variable {α β : Type*} (P : Pattern) (ch : α → Char)

/-- The length of the match at the front, if there is one. -/
def find (before rest : List Char) : Option ℕ := (P.re.ends before rest).head?

/-- The pieces of a text behind `before`. The first `skip` characters belong to the last match. -/
def pieces : ℕ → List Char → List α → List (Piece α)
  | _, _, [] => []
  | skip + 1, before, a :: l => pieces skip (ch a :: before) l
  | 0, before, a :: l =>
    match P.find before ((a :: l).map ch) with
    | some n => .found ((a :: l).take n) :: pieces (n - 1) (ch a :: before) l
    | none => .kept a :: pieces 0 (ch a :: before) l

attribute [grind =] pieces

/-- `replace_all`. The characters may carry something with them. -/
def replaceAll (rep l : List α) : List α := (P.pieces ch 0 [] l).flatMap (Piece.put rep)

/-- `find_iter().count()` -/
def count (l : List α) : ℕ := (P.pieces ch 0 [] l).countP Piece.isFound

/-- `is_match` -/
def isMatch (l : List α) : Bool := 0 < P.count ch l

/-- `replacen(text, 1, "")` -/
def deleteFirst : List Char → List α → List α
  | _, [] => []
  | before, a :: l =>
    match P.find before ((a :: l).map ch) with
    | some n => (a :: l).drop n
    | none => a :: deleteFirst (ch a :: before) l

attribute [grind =] deleteFirst

/-- A match begins here. -/
def Begins (before rest : List Char) : Prop := ∃ w after, rest = w ++ after ∧ P.re.Matches before w after

/-- No match begins anywhere in the text. -/
def Free (before text : List Char) : Prop := ∀ a b, text = a ++ b → ¬ P.Begins (a.reverse ++ before) b

variable {P ch} {before rest : List Char} {l : List α}

theorem find_eq_none_iff : P.find before rest = none ↔ ¬ P.Begins before rest := by
  unfold find Begins
  rw [List.head?_eq_none_iff, List.eq_nil_iff_forall_not_mem]
  constructor
  · rintro h ⟨w, after, hrest, hw⟩
    exact h w.length (Regex.mem_ends_iff.mpr ⟨w, after, hrest, rfl, hw⟩)
  · intro h n hn
    obtain ⟨w, after, hrest, -, hw⟩ := Regex.mem_ends_iff.mp hn
    exact h ⟨w, after, hrest, hw⟩

theorem matches_ne_nil {w after : List Char} (h : P.re.Matches before w after) : w ≠ [] :=
  List.ne_nil_of_length_pos (P.consumes.trans_le h.least_le)

theorem find_eq_some {n : ℕ} (h : P.find before rest = some n) :
    ∃ w after, rest = w ++ after ∧ w.length = n ∧ P.re.Matches before w after :=
  Regex.mem_ends_iff.mp (List.mem_of_mem_head? h)

/-! ### Piece by piece -/

theorem pieces_skip (before : List Char) (w l : List α) :
    P.pieces ch w.length before (w ++ l) = P.pieces ch 0 ((w.map ch).reverse ++ before) l := by
  induction w generalizing before with
  | nil => rfl
  | cons a w ih =>
    rw [List.length_cons, List.cons_append, pieces, ih, List.map_cons, List.reverse_cons, List.append_assoc]
    rfl

theorem pieces_kept {a : α} (h : P.find before ((a :: l).map ch) = none) :
    P.pieces ch 0 before (a :: l) = .kept a :: P.pieces ch 0 (ch a :: before) l := by
  rw [pieces, h]

theorem pieces_found {w : List α} (hne : w ≠ []) (h : P.find before ((w ++ l).map ch) = some w.length) :
    P.pieces ch 0 before (w ++ l) = .found w :: P.pieces ch 0 ((w.map ch).reverse ++ before) l := by
  obtain ⟨a, w, rfl⟩ := List.exists_cons_of_ne_nil hne
  have hskip : P.pieces ch w.length (ch a :: before) (w ++ l) = P.pieces ch 0 ((w.map ch).reverse ++ ch a :: before) l :=
    pieces_skip ..
  rw [List.cons_append, pieces, ← List.cons_append, h]
  dsimp only
  rw [List.take_left]
  simp only [List.length_cons, Nat.add_sub_cancel, hskip, List.map_cons, List.reverse_cons, List.append_assoc,
    List.cons_append, List.nil_append]

/-- A text is searched from its front: a character at which no match begins, or the match that begins there. -/
theorem search_induction (P : Pattern) (ch : α → Char) {motive : List Char → List α → Prop} (nil : ∀ before, motive before [])
    (kept : ∀ before a l, P.find before ((a :: l).map ch) = none → motive (ch a :: before) l → motive before (a :: l))
    (found : ∀ before w l, w ≠ [] → P.find before ((w ++ l).map ch) = some w.length →
      motive ((w.map ch).reverse ++ before) l → motive before (w ++ l))
    (before : List Char) (l : List α) : motive before l := by
  induction hn : l.length using Nat.strong_induction_on generalizing before l with
  | _ n ih =>
    cases l with
    | nil => exact nil before
    | cons a l =>
      cases hfind : P.find before ((a :: l).map ch) with
      | none => exact kept before a l hfind (ih l.length (by rw [← hn]; simp) _ _ rfl)
      | some k =>
        obtain ⟨w, after, hsplit, hlen, hw⟩ := find_eq_some hfind
        obtain ⟨u, v, huv, rfl, rfl⟩ := List.map_eq_append_iff.mp hsplit
        have hne : u ≠ [] := fun h => matches_ne_nil hw (by rw [h]; rfl)
        rw [List.length_map] at hlen
        rw [huv] at hfind hn ⊢
        refine found before u v hne (by rw [hfind, hlen]) (ih v.length ?_ _ _ rfl)
        have := List.length_pos_of_ne_nil hne
        rw [← hn, List.length_append]
        omega

theorem found_of_find {before rest : List Char} {w : List Char} {after : List Char} (hrest : rest = w ++ after)
    (h : P.find before rest = some w.length) : P.re.Matches before w after := by
  obtain ⟨u, v, huv, hlen, hu⟩ := find_eq_some h
  obtain ⟨rfl, rfl⟩ := List.append_inj (huv.symm.trans hrest) hlen
  exact hu

theorem pieces_whole (P : Pattern) (ch : α → Char) (before : List Char) (l : List α) :
    (P.pieces ch 0 before l).flatMap Piece.whole = l := by
  induction before, l using search_induction P ch with
  | nil => rfl
  | kept before a l h ih => rw [pieces_kept h, List.flatMap_cons, ih]; rfl
  | found before w l hne h ih => rw [pieces_found hne h, List.flatMap_cons, ih]; rfl

/-- A match that was found is one. -/
theorem exists_of_found {m : List α} {before : List Char} (h : Piece.found m ∈ P.pieces ch 0 before l) :
    ∃ before' after, P.re.Matches before' (m.map ch) after := by
  induction before, l using search_induction P ch with
  | nil => cases h
  | kept before a l hfind ih =>
    rw [pieces_kept hfind] at h
    exact ih ((List.mem_cons.mp h).resolve_left fun h => by cases h)
  | found before w l hne hfind ih =>
    rw [pieces_found hne hfind] at h
    rcases List.mem_cons.mp h with h | h
    · cases h
      exact ⟨before, _, found_of_find List.map_append (by rw [hfind, List.length_map])⟩
    · exact ih h

/-- At a character that is kept no match begins. -/
theorem exists_of_kept {x : α} {before : List Char} (h : Piece.kept x ∈ P.pieces ch 0 before l) :
    ∃ a b, l = a ++ x :: b ∧ ¬ P.Begins ((a.map ch).reverse ++ before) ((x :: b).map ch) := by
  induction before, l using search_induction P ch with
  | nil => cases h
  | kept before a l hfind ih =>
    rw [pieces_kept hfind] at h
    rcases List.mem_cons.mp h with h | h
    · cases h
      exact ⟨[], l, rfl, find_eq_none_iff.mp hfind⟩
    · obtain ⟨b, c, rfl, hbegins⟩ := ih h
      exact ⟨a :: b, c, rfl, by simpa using hbegins⟩
  | found before w l hne hfind ih =>
    rw [pieces_found hne hfind] at h
    obtain ⟨b, c, rfl, hbegins⟩ := ih ((List.mem_cons.mp h).resolve_left fun h => by cases h)
    exact ⟨w ++ b, c, (List.append_assoc ..).symm, by simpa using hbegins⟩

/-- A stretch at whose characters no match begins is kept. -/
theorem pieces_append_kept {before : List Char} {w l : List α} (h : ∀ u c v, w = u ++ c :: v →
    ¬ P.Begins ((u.map ch).reverse ++ before) ((c :: v ++ l).map ch)) :
    P.pieces ch 0 before (w ++ l) = w.map Piece.kept ++ P.pieces ch 0 ((w.map ch).reverse ++ before) l := by
  induction w generalizing before with
  | nil => rfl
  | cons a w ih =>
    have hfind : P.find before ((a :: (w ++ l)).map ch) = none := find_eq_none_iff.mpr (h [] a w rfl)
    have hrest := @ih (ch a :: before) fun u c v hw => by
      have hcons := h (a :: u) c v (by rw [hw]; rfl)
      rwa [List.map_cons, List.reverse_cons, List.append_assoc] at hcons
    rw [List.cons_append, pieces_kept hfind, hrest, List.map_cons, List.map_cons, List.reverse_cons, List.append_assoc]
    rfl

/-! ### Texts without a match -/

theorem Free.tail {c : Char} (h : P.Free before (c :: rest)) : P.Free (c :: before) rest := by
  intro a b hrest
  have hcons := h (c :: a) b (by rw [hrest]; rfl)
  rwa [List.reverse_cons, List.append_assoc] at hcons

theorem pieces_of_free {before : List Char} {l : List α} (h : P.Free before (l.map ch)) :
    P.pieces ch 0 before l = l.map Piece.kept := by
  induction l generalizing before with
  | nil => rfl
  | cons a l ih =>
    have hfind : P.find before ((a :: l).map ch) = none := find_eq_none_iff.mpr (h [] _ rfl)
    rw [pieces_kept hfind, ih h.tail]
    rfl

theorem free_iff {before : List Char} {l : List α} :
    P.Free before (l.map ch) ↔ ∀ m, Piece.found m ∉ P.pieces ch 0 before l := by
  constructor
  · intro h m hm
    rw [pieces_of_free h] at hm
    obtain ⟨a, -, ha⟩ := List.mem_map.mp hm
    cases ha
  · intro h
    induction before, l using search_induction P ch with
    | nil before =>
      intro a b hnil
      obtain ⟨rfl, rfl⟩ := List.append_eq_nil_iff.mp hnil.symm
      rintro ⟨w, after, hw, hmatch⟩
      exact matches_ne_nil hmatch (List.append_eq_nil_iff.mp hw.symm).1
    | kept before a l hfind ih =>
      rw [pieces_kept hfind] at h
      have hfree := ih fun m hm => h m (List.mem_cons_of_mem _ hm)
      intro b c hsplit
      cases b with
      | nil =>
        obtain rfl : List.map ch (a :: l) = c := hsplit
        exact find_eq_none_iff.mp hfind
      | cons d b =>
        obtain ⟨rfl, hrest⟩ := List.cons.inj hsplit
        have := hfree b c hrest
        rwa [List.reverse_cons, List.append_assoc]
    | found before w l hne hfind ih =>
      rw [pieces_found hne hfind] at h
      exact absurd List.mem_cons_self (h w)

theorem count_pos_iff {l : List α} : 0 < P.count ch l ↔ ¬ P.Free [] (l.map ch) := by
  rw [count, List.countP_pos_iff, free_iff, not_forall]
  constructor
  · rintro ⟨p, hp, hfound⟩
    cases p with
    | kept a => cases hfound
    | found m => exact ⟨m, not_not.mpr hp⟩
  · rintro ⟨m, hm⟩
    exact ⟨.found m, not_not.mp hm, rfl⟩

/-- The pattern without its assertions. -/
def loose (P : Pattern) : Pattern := ⟨P.re.loose, P.re.least_loose ▸ P.consumes⟩

theorem isMatch_eq_false_of_loose {l : List α} (h : P.loose.isMatch ch l = false) : P.isMatch ch l = false := by
  unfold isMatch at h ⊢
  rw [decide_eq_false_iff_not, count_pos_iff, not_not] at h ⊢
  rintro a b hl ⟨w, after, hb, hw⟩
  exact h a b hl ⟨w, after, hb, hw.loose⟩

/-! ### What is left -/

theorem mem_replaceAll {rep : List α} {x : α} (h : x ∈ P.replaceAll ch rep l) : x ∈ rep ∨ Piece.kept x ∈ P.pieces ch 0 [] l := by
  obtain ⟨p, hp, hx⟩ := List.mem_flatMap.mp h
  cases p with
  | kept a =>
    obtain rfl := List.mem_singleton.mp hx
    exact .inr hp
  | found m => exact .inl hx

theorem flatMap_put_sublist (P : Pattern) (ch : α → Char) (before : List Char) (l : List α) :
    ((P.pieces ch 0 before l).flatMap (Piece.put [])).Sublist l := by
  have hpieces : ∀ ps : List (Piece α), (ps.flatMap (Piece.put [])).Sublist (ps.flatMap Piece.whole) := by
    intro ps
    induction ps with
    | nil => exact List.Sublist.refl _
    | cons p ps ih =>
      rw [List.flatMap_cons, List.flatMap_cons]
      cases p with
      | kept a => exact ih.cons_cons a
      | found m => exact ih.trans (List.sublist_append_right m _)
  have hl := pieces_whole P ch before l
  conv_rhs => rw [← hl]
  exact hpieces _

theorem replaceAll_sublist (P : Pattern) (ch : α → Char) (l : List α) : (P.replaceAll ch [] l).Sublist l :=
  flatMap_put_sublist P ch [] l

theorem mem_of_mem_replaceAll {rep : List α} {x : α} (h : x ∈ P.replaceAll ch rep l) (hrep : x ∉ rep) : x ∈ l := by
  have hkept := (mem_replaceAll h).resolve_left hrep
  rw [← pieces_whole P ch [] l]
  exact List.mem_flatMap.mpr ⟨_, hkept, List.mem_singleton_self x⟩

/-- A character at which a match begins is not left, when each character is there once. -/
theorem not_mem_of_begins {rep a b : List α} {x : α} (hnodup : (a ++ x :: b).Nodup) (hrep : x ∉ rep)
    (h : P.Begins (a.map ch).reverse ((x :: b).map ch)) : x ∉ P.replaceAll ch rep (a ++ x :: b) := by
  intro hmem
  obtain ⟨a', b', hsplit, hkept⟩ := exists_of_kept ((mem_replaceAll hmem).resolve_left hrep)
  rw [hsplit] at hnodup
  obtain ⟨-, hright, hapart⟩ := List.nodup_append.mp hnodup
  have hnot : x ∉ a' ∧ x ∉ b' := ⟨fun hx => hapart x hx x List.mem_cons_self rfl, (List.nodup_cons.mp hright).1⟩
  obtain ⟨rfl, -, rfl⟩ := (List.append_cons_inj_of_notMem hnot.1 hnot.2).mp hsplit.symm
  rw [List.append_nil] at hkept
  exact hkept h

/-- A stretch that matches is not left whole. -/
theorem not_sublist_of_matches {a w b : List α} (hnodup : (a ++ w ++ b).Nodup)
    (h : P.re.Matches (a.map ch).reverse (w.map ch) (b.map ch)) : ¬ w.Sublist (P.replaceAll ch [] (a ++ w ++ b)) := by
  intro hleft
  have hne : w ≠ [] := fun hw => matches_ne_nil h (by rw [hw]; rfl)
  obtain ⟨x, w, rfl⟩ := List.exists_cons_of_ne_nil hne
  rw [List.append_assoc, List.cons_append] at hnodup hleft
  refine not_mem_of_begins hnodup List.not_mem_nil ⟨(x :: w).map ch, b.map ch, ?_, h⟩ (hleft.subset List.mem_cons_self)
  rw [← List.cons_append, List.map_append]

/-- Of a text that begins with a match, the match is not left. -/
theorem replaceAll_of_begins (h : P.Begins [] (l.map ch)) :
    ∃ w after, l = w ++ after ∧ P.re.Matches [] (w.map ch) (after.map ch) ∧ (P.replaceAll ch [] l).Sublist after := by
  cases hfind : P.find [] (l.map ch) with
  | none => exact absurd h (find_eq_none_iff.mp hfind)
  | some n =>
    obtain ⟨u, v, huv, hlen, hu⟩ := find_eq_some hfind
    obtain ⟨w, after, rfl, rfl, rfl⟩ := List.map_eq_append_iff.mp huv
    refine ⟨w, after, rfl, hu, ?_⟩
    have hne : w ≠ [] := fun hw => matches_ne_nil hu (by rw [hw]; rfl)
    have hpieces : P.pieces ch 0 [] (w ++ after) = .found w :: P.pieces ch 0 ((w.map ch).reverse ++ []) after :=
      pieces_found hne (by rw [hfind, ← hlen, List.length_map])
    unfold replaceAll
    rw [hpieces, List.flatMap_cons]
    exact flatMap_put_sublist P ch _ after

/-! ### Rounds -/

section

variable {rep : List α} (weight : α → ℕ)

def load (l : List α) : ℕ := (l.map weight).sum

variable {weight}

theorem load_append (a b : List α) : load weight (a ++ b) = load weight a + load weight b := by
  rw [load, List.map_append, List.sum_append]
  rfl

theorem replaceAll_of_all (h : ∀ m, Piece.found m ∈ P.pieces ch 0 [] l → m = rep) : P.replaceAll ch rep l = l := by
  conv_rhs => rw [← pieces_whole P ch [] l]
  refine List.flatMap_congr fun p hp => ?_
  cases p with
  | kept a => rfl
  | found m => exact (h m hp).symm

/-- A text gets lighter, or every match is its replacement already. -/
theorem load_pieces (h : ∀ before w after, P.re.Matches before (w.map ch) after → w ≠ rep → load weight rep < load weight w)
    (before : List Char) (l : List α) :
    (∀ m, Piece.found m ∈ P.pieces ch 0 before l → m = rep) ∧
        load weight ((P.pieces ch 0 before l).flatMap (Piece.put rep)) = load weight l ∨
      load weight ((P.pieces ch 0 before l).flatMap (Piece.put rep)) < load weight l := by
  induction before, l using search_induction P ch with
  | nil => exact .inl ⟨fun m hm => absurd hm List.not_mem_nil, rfl⟩
  | kept before a l hfind ih =>
    rw [pieces_kept hfind, List.flatMap_cons, load_append, ← List.singleton_append (x := a), load_append]
    rcases ih with ⟨hall, heq⟩ | hlt
    · refine .inl ⟨fun m hm => hall m ((List.mem_cons.mp hm).resolve_left fun h => by cases h), ?_⟩
      rw [heq]
      rfl
    · exact .inr (Nat.add_lt_add_left hlt _)
  | found before w l hne hfind ih =>
    rw [pieces_found hne hfind, List.flatMap_cons, load_append, load_append, Piece.put]
    by_cases hw : w = rep
    · subst hw
      rcases ih with ⟨hall, heq⟩ | hlt
      · refine .inl ⟨fun m hm => ?_, by rw [heq]⟩
        rcases List.mem_cons.mp hm with hm | hm
        · exact Piece.found.inj hm
        · exact hall m hm
      · exact .inr (Nat.add_lt_add_left hlt _)
    · have hlt := h _ _ _ (found_of_find List.map_append (by rw [hfind, List.length_map])) hw
      refine .inr (Nat.add_lt_add_of_lt_of_le hlt ?_)
      exact ih.elim (fun h => h.2.le) Nat.le_of_lt

theorem replaceAll_eq_or_lt
    (h : ∀ before w after, P.re.Matches before (w.map ch) after → w ≠ rep → load weight rep < load weight w) (l : List α) :
    P.replaceAll ch rep l = l ∨ load weight (P.replaceAll ch rep l) < load weight l :=
  (load_pieces h [] l).imp_left fun hall => replaceAll_of_all hall.1

/-- A text stays exactly when every match is its replacement already. -/
theorem replaceAll_eq_self_iff
    (h : ∀ before w after, P.re.Matches before (w.map ch) after → w ≠ rep → load weight rep < load weight w) (l : List α) :
    P.replaceAll ch rep l = l ↔ ∀ m, Piece.found m ∈ P.pieces ch 0 [] l → m = rep := by
  refine ⟨fun heq => ?_, replaceAll_of_all⟩
  refine (load_pieces h [] l).elim And.left fun hlt => ?_
  have hload : load weight (P.replaceAll ch rep l) < load weight l := hlt
  rw [heq] at hload
  exact absurd hload (Nat.lt_irrefl _)

/-- Where no match is its replacement, a text stays exactly when no match begins in it. -/
theorem replaceAll_eq_self_iff_free
    (h : ∀ before w after, P.re.Matches before (w.map ch) after → load weight rep < load weight w) (l : List α) :
    P.replaceAll ch rep l = l ↔ P.Free [] (l.map ch) := by
  rw [replaceAll_eq_self_iff (fun before w after hw _ => h before w after hw), free_iff]
  refine forall_congr' fun m => ⟨fun hm hfound => ?_, fun hm hfound => absurd hfound hm⟩
  obtain ⟨before, after, hmatch⟩ := exists_of_found hfound
  have hlt := h before m after hmatch
  rw [hm hfound] at hlt
  exact Nat.lt_irrefl _ hlt

end

/-- What is only deleted stays exactly when no match begins in the text. -/
theorem deleteAll_eq_self_iff {l : List α} : P.replaceAll ch [] l = l ↔ P.Free [] (l.map ch) := by
  have hlight : ∀ before w after, P.re.Matches before (w.map ch) after → load (fun _ : α => 1) [] < load (fun _ => 1) w := by
    intro before w after hw
    have hlen := P.consumes.trans_le hw.least_le
    cases w with
    | nil => exact absurd hlen (Nat.lt_irrefl 0)
    | cons x w =>
      unfold load
      rw [List.map_nil, List.sum_nil, List.map_cons, List.sum_cons]
      omega
  exact replaceAll_eq_self_iff_free hlight l

/-! ### The first match -/

theorem deleteFirst_sublist (before : List Char) (l : List α) : (P.deleteFirst ch before l).Sublist l := by
  induction l generalizing before with
  | nil => exact List.Sublist.refl _
  | cons a l ih =>
    unfold deleteFirst
    split
    · exact List.drop_sublist _ _
    · exact (ih _).cons_cons a

theorem deleteFirst_of_begins (h : P.Begins before (l.map ch)) :
    ∃ w after, l = w ++ after ∧ P.re.Matches before (w.map ch) (after.map ch) ∧ P.deleteFirst ch before l = after := by
  cases hfind : P.find before (l.map ch) with
  | none => exact absurd h (find_eq_none_iff.mp hfind)
  | some n =>
    obtain ⟨u, v, huv, hlen, hu⟩ := find_eq_some hfind
    obtain ⟨w, after, rfl, rfl, rfl⟩ := List.map_eq_append_iff.mp huv
    refine ⟨w, after, rfl, hu, ?_⟩
    have hne : w ≠ [] := fun hw => matches_ne_nil hu (by rw [hw]; rfl)
    obtain ⟨a, w, rfl⟩ := List.exists_cons_of_ne_nil hne
    rw [List.cons_append, deleteFirst, ← List.cons_append, hfind]
    dsimp only
    rw [← hlen, List.length_map, List.drop_left]

theorem deleteFirst_eq_self_iff : P.deleteFirst ch before l = l ↔ P.Free before (l.map ch) := by
  induction l generalizing before with
  | nil =>
    refine iff_of_true rfl fun a b hnil => ?_
    obtain ⟨rfl, rfl⟩ := List.append_eq_nil_iff.mp hnil.symm
    rintro ⟨w, after, hw, hmatch⟩
    exact matches_ne_nil hmatch (List.append_eq_nil_iff.mp hw.symm).1
  | cons a l ih =>
    by_cases hbegins : P.Begins before ((a :: l).map ch)
    · refine iff_of_false (fun heq => ?_) fun hfree => hfree [] _ rfl hbegins
      obtain ⟨w, after, hl, hw, hdelete⟩ := deleteFirst_of_begins hbegins
      have hne : w ≠ [] := fun h => matches_ne_nil hw (by rw [h]; rfl)
      have hafter : after = w ++ after := (hdelete.symm.trans heq).trans hl
      exact hne (List.self_eq_append_left.mp hafter)
    · rw [deleteFirst, find_eq_none_iff.mpr hbegins]
      dsimp only
      rw [List.cons.injEq, ih]
      constructor
      · rintro ⟨-, hfree⟩ b c hsplit
        cases b with
        | nil =>
          obtain rfl : List.map ch (a :: l) = c := hsplit
          exact hbegins
        | cons d b =>
          obtain ⟨rfl, hrest⟩ := List.cons.inj hsplit
          have := hfree b c hrest
          rwa [List.reverse_cons, List.append_assoc]
      · exact fun hfree => ⟨rfl, hfree.tail⟩

/-! ### What the characters carry -/

theorem pieces_map (g : β → α) (skip : ℕ) (before : List Char) (l : List β) :
    (P.pieces (ch ∘ g) skip before l).map (Piece.map g) = P.pieces ch skip before (l.map g) := by
  induction l generalizing skip before with
  | nil => cases skip <;> rfl
  | cons b l ih =>
    cases skip with
    | succ skip => exact ih skip _
    | zero =>
      have hmap : (b :: l).map (ch ∘ g) = ((b :: l).map g).map ch := (List.map_map ..).symm
      rw [pieces, hmap, List.map_cons (f := g), pieces]
      cases P.find before ((g b :: l.map g).map ch) with
      | none => exact congrArg (Piece.kept (g b) :: ·) (ih 0 _)
      | some n =>
        have htake : ((b :: l).take n).map g = (g b :: l.map g).take n := by rw [List.map_take, List.map_cons]
        rw [List.map_cons, Piece.map, htake, ih]
        rfl

theorem replaceAll_map (g : β → α) (rep l : List β) :
    (P.replaceAll (ch ∘ g) rep l).map g = P.replaceAll ch (rep.map g) (l.map g) := by
  unfold replaceAll
  rw [← pieces_map, List.map_flatMap, List.flatMap_map]
  refine List.flatMap_congr fun p _ => ?_
  cases p <;> rfl

theorem count_map (g : β → α) (l : List β) : P.count (ch ∘ g) l = P.count ch (l.map g) := by
  unfold count
  rw [← pieces_map, List.countP_map]
  refine List.countP_congr fun p _ => ?_
  cases p <;> rfl

theorem deleteFirst_map (g : β → α) (before : List Char) (l : List β) :
    (P.deleteFirst (ch ∘ g) before l).map g = P.deleteFirst ch before (l.map g) := by
  induction l generalizing before with
  | nil => rfl
  | cons b l ih =>
    have hmap : (b :: l).map (ch ∘ g) = ((b :: l).map g).map ch := (List.map_map ..).symm
    rw [deleteFirst, hmap, List.map_cons (f := g), deleteFirst]
    cases P.find before ((g b :: l.map g).map ch) with
    | none => exact congrArg (g b :: ·) (ih _)
    | some n => rw [List.map_drop, List.map_cons]

end Pattern

/-! ## Stretches -/

/-- A stretch of a list that is left in a part of it is a stretch of that part, when each element is there once. -/
theorem exists_stretch {α : Type*} {a z b l : List α} (hnodup : (a ++ z ++ b).Nodup) (hzl : z.Sublist l)
    (hl : l.Sublist (a ++ z ++ b)) : ∃ la lb, l = la ++ z ++ lb ∧ la.Sublist a ∧ lb.Sublist b := by
  obtain ⟨u, lb, rfl, hu, hlb⟩ := List.sublist_append_iff.mp hl
  obtain ⟨la, lz, rfl, hla, hlz⟩ := List.sublist_append_iff.mp hu
  obtain ⟨hfront, -, hback⟩ := List.nodup_append.mp hnodup
  obtain ⟨-, hmid, hleft⟩ := List.nodup_append.mp hfront
  have hall : ∀ x ∈ z, x ∈ lz := by
    intro x hx
    rcases List.mem_append.mp (hzl.subset hx) with hmem | hmem
    · rcases List.mem_append.mp hmem with hmem | hmem
      · exact absurd rfl (hleft x (hla.subset hmem) x hx)
      · exact hmem
    · exact absurd rfl (hback x (List.mem_append_right _ hx) x (hlb.subset hmem))
  have heq : lz = z := hlz.eq_of_length_le (List.subperm_of_subset hmid hall).length_le
  rw [heq]
  exact ⟨la, lb, rfl, hla, hlb⟩

/-- What is left behind a front part that reaches into a stretch is not the whole stretch. -/
theorem not_sublist_of_front {α : Type*} {a z b m after out : List α} (hnodup : (a ++ z ++ b).Nodup) (hne : z ≠ [])
    (hsplit : a ++ z ++ b = m ++ after) (hlong : ¬ m <+: a) (hout : out.Sublist after) : ¬ z.Sublist out := by
  intro hleft
  obtain ⟨x, z, rfl⟩ := List.exists_cons_of_ne_nil hne
  have hx : x ∈ after := hout.subset (hleft.subset List.mem_cons_self)
  have hwhole : a ++ [x] <+: m ++ after := by
    rw [← hsplit]
    exact ⟨z ++ b, by simp⟩
  have hfront : a ++ [x] <+: m := by
    refine List.prefix_of_prefix_length_le hwhole (List.prefix_append m after) ?_
    by_contra hlen
    refine hlong (List.prefix_of_prefix_length_le (List.prefix_append m after) ⟨x :: z ++ b, ?_⟩ ?_)
    · rw [← hsplit, List.append_assoc]
    · rw [List.length_append, List.length_singleton] at hlen
      omega
  rw [hsplit] at hnodup
  exact (List.nodup_append.mp hnodup).2.2 x (hfront.subset (by simp)) x hx rfl
