import BssCli.Agent.Ownership
import Mathlib.Data.List.Forall2
import Mathlib.Data.List.Lex

/-!
# Where a walk ends

A position is the keys and indices that lead to a value. A path denotes positions: a key denotes
itself, and `[*]` any index. The walk is compared with that.
-/

namespace BssCli.Agent

inductive Hop
  | key (k : String)
  | index (i : ℕ)

def Hop.into : Hop → Json → Option Json
  | .key k, v => v.get k
  | .index i, v => v.asArray.bind (·[i]?)

/-- The value at a position. -/
def valueAt (v : Json) : List Hop → Option Json
  | [] => some v
  | h :: pos => (h.into v).bind (valueAt · pos)

/-- The part of a path that denotes the hop. -/
def Hop.Fits (part : String) : Hop → Prop
  | .key k => k = part ∧ part ≠ "[*]"
  | .index _ => part = "[*]"

/-- A key is set off by a dot from what is written before it. -/
def Hop.write (written : String) : Hop → String
  | .key k => if written = "" then k else written ++ "." ++ k
  | .index i => written ++ "[" ++ toString i ++ "]"

def positionText (pos : List Hop) : String := pos.foldl Hop.write ""

/-- The order of a document. Two positions of one path part at an index. -/
def Hop.Before : Hop → Hop → Prop
  | .index i, .index j => i < j
  | _, _ => False

/-- A leaf that the path denotes in a value. -/
def IsLeaf (path : String) (obj : Json) (pos : List Hop) (v : Json) : Prop :=
  List.Forall₂ Hop.Fits (pathParts path) pos ∧ valueAt obj pos = some v

/-- The walk gives the leaves of the path, each once and in order. -/
structure Exact (obj : Json) (path : String) (leaves : List (List Hop × Json)) : Prop where
  walked : walk obj path = leaves.map fun leaf => (positionText leaf.1, leaf.2)
  mem : ∀ pos v, (pos, v) ∈ leaves ↔ IsLeaf path obj pos v
  order : leaves.Pairwise fun a b => List.Lex Hop.Before a.1 b.1
  texts : (leaves.map fun leaf => positionText leaf.1).Nodup

/-- Every leaf of the path is the actor. -/
def Owned (actor : String) (obj : Json) (path : String) : Prop := ∀ pos v, IsLeaf path obj pos v → v = .str actor

/-- The first leaf that is not the actor: no path before has one, and none is before it on its path. -/
structure FirstForeign (actor : String) (obj : Json) (paths : List String) (path : String) (pos : List Hop) (v : Json) :
    Prop where
  leaf : IsLeaf path obj pos v
  foreign : v ≠ .str actor
  earlier : ∀ pos' v', IsLeaf path obj pos' v' → List.Lex Hop.Before pos' pos → v' = .str actor
  paths : ∃ before after, paths = before ++ path :: after ∧ ∀ p ∈ before, Owned actor obj p

/-! ## The order -/

instance : Std.Asymm Hop.Before where
  asymm a b h h' := by
    cases a <;> cases b <;> simp only [Hop.Before] at h h'
    omega

theorem lex_ne {pos pos' : List Hop} (h : List.Lex Hop.Before pos pos') : pos ≠ pos' := by
  rintro rfl
  exact asymm h h

/-! ## Texts of positions -/

theorem append_dot_ne (written k : String) : written ++ "." ++ k ≠ k := by
  intro heq
  have hlen := congrArg String.length heq
  simp only [String.length_append] at hlen
  have hdot : ".".length = 1 := rfl
  omega

/-- The last of a mark cuts a text in one way. -/
theorem append_mark_inj {m : Char} {a a' b b' : List Char} (hb : m ∉ b) (hb' : m ∉ b')
    (h : a ++ m :: b = a' ++ m :: b') : a = a' ∧ b = b' := by
  rcases List.append_eq_append_iff.mp h with ⟨d, rfl, hd⟩ | ⟨d, rfl, hd⟩
  all_goals
    cases d with
    | nil => exact ⟨by simp, by simpa [eq_comm] using hd⟩
    | cons c d =>
      obtain ⟨rfl, rfl⟩ := List.cons.inj hd
      simp at hb hb'

theorem index_inj {t t' : String} {i j : ℕ}
    (h : t ++ "[" ++ toString i ++ "]" = t' ++ "[" ++ toString j ++ "]") : t = t' ∧ i = j := by
  have hchars := congrArg String.toList h
  simp only [String.toList_append, Nat.toString_eq_repr, Nat.toList_repr] at hchars
  have hbracket : ∀ n, '[' ∉ Nat.toDigits 10 n := by
    intro n hmem
    exact absurd (Nat.isDigit_of_mem_toDigits (by norm_num) (by norm_num) hmem) (by decide)
  have hcut : t.toList ++ '[' :: (Nat.toDigits 10 i ++ [']']) = t'.toList ++ '[' :: (Nat.toDigits 10 j ++ [']']) := by
    simpa using hchars
  have hmark : ∀ n, '[' ∉ Nat.toDigits 10 n ++ [']'] := by
    intro n hmem
    rcases List.mem_append.mp hmem with hmem | hmem
    · exact hbracket n hmem
    · exact absurd hmem (by decide)
  obtain ⟨hwritten, hdigits⟩ := append_mark_inj (hmark i) (hmark j) hcut
  refine ⟨String.toList_inj.mp hwritten, ?_⟩
  have hvalue := congrArg (Nat.ofDigitChars 10 · 0) (List.append_cancel_right hdigits)
  simpa only [Nat.ofDigitChars_ten_toDigits] using hvalue

theorem write_inj {part t t' : String} {a b : Hop} (ha : a.Fits part) (hb : b.Fits part) (h : a.write t = b.write t') :
    t = t' ∧ a = b := by
  cases a with
  | key k =>
    cases b with
    | key k' =>
      obtain rfl : k = k' := ha.1.trans hb.1.symm
      refine ⟨?_, rfl⟩
      simp only [Hop.write] at h
      split at h <;> split at h
      · rename_i ht ht'
        rw [ht, ht']
      · exact absurd h.symm (append_dot_ne t' k)
      · exact absurd h (append_dot_ne t k)
      · simpa [String.append_assoc] using h
    | index j => exact absurd hb ha.2
  | index i =>
    cases b with
    | key k => exact absurd ha hb.2
    | index j =>
      obtain ⟨rfl, rfl⟩ := index_inj h
      exact ⟨rfl, rfl⟩

/-- On one path the text tells the position. -/
theorem foldl_write_inj {parts : List String} {pos pos' : List Hop} (h : List.Forall₂ Hop.Fits parts pos)
    (h' : List.Forall₂ Hop.Fits parts pos') {t t' : String} (heq : pos.foldl Hop.write t = pos'.foldl Hop.write t') :
    t = t' ∧ pos = pos' := by
  induction h generalizing pos' t t' with
  | nil =>
    cases h'
    exact ⟨heq, rfl⟩
  | cons ha _ ih =>
    cases h' with
    | cons hb h' =>
      obtain ⟨hwritten, rfl⟩ := ih h' heq
      obtain ⟨rfl, rfl⟩ := write_inj ha hb hwritten
      exact ⟨rfl, rfl⟩

/-! ## The leaves, hop by hop -/

def hopsOf (part : String) (v : Json) : List (Hop × Json) :=
  if part = "[*]" then
    match v.asArray with
    | some values => values.zipIdx.map fun e => (.index e.2, e.1)
    | none => []
  else
    match v.get part with
    | some w => [(.key part, w)]
    | none => []

def leavesOf : List String → Json → List (List Hop × Json)
  | [], v => [([], v)]
  | part :: parts, v => (hopsOf part v).flatMap fun hop => (leavesOf parts hop.2).map fun leaf => (hop.1 :: leaf.1, leaf.2)

theorem walkPart_eq (part : String) (p : String × Json) :
    walkPart part p = (hopsOf part p.2).map fun hop => (hop.1.write p.1, hop.2) := by
  unfold walkPart hopsOf
  split
  · cases p.2.asArray with
    | some values =>
      dsimp only
      rw [List.map_map]
      rfl
    | none => rfl
  · cases p.2.get part <;> rfl

theorem foldl_walkPart (parts : List String) (frontier : List (String × Json)) :
    parts.foldl (fun frontier part => frontier.flatMap (walkPart part)) frontier =
      frontier.flatMap fun p => (leavesOf parts p.2).map fun leaf => (leaf.1.foldl Hop.write p.1, leaf.2) := by
  induction parts generalizing frontier with
  | nil => simp [leavesOf]
  | cons part parts ih =>
    rw [List.foldl_cons, ih, List.flatMap_assoc]
    refine List.flatMap_congr fun p _ => ?_
    rw [walkPart_eq, List.flatMap_map, leavesOf, List.map_flatMap]
    refine List.flatMap_congr fun hop _ => ?_
    rw [List.map_map]
    rfl

theorem mem_hopsOf {part : String} {v w : Json} {hop : Hop} :
    (hop, w) ∈ hopsOf part v ↔ hop.Fits part ∧ hop.into v = some w := by
  unfold hopsOf
  cases hop with
  | key k =>
    simp only [Hop.Fits, Hop.into]
    split
    · rename_i hpart
      split <;> simp [hpart]
    · rename_i hpart
      split
      · rename_i u hu
        rw [List.mem_singleton, Prod.mk.injEq, Hop.key.injEq]
        constructor
        · rintro ⟨rfl, rfl⟩
          exact ⟨⟨rfl, hpart⟩, hu⟩
        · rintro ⟨⟨rfl, -⟩, hw⟩
          rw [hu] at hw
          exact ⟨rfl, (Option.some.inj hw).symm⟩
      · rename_i hnone
        simp only [List.not_mem_nil, false_iff, not_and]
        rintro ⟨rfl, -⟩ hw
        rw [hnone] at hw
        exact nomatch hw
  | index i =>
    simp only [Hop.Fits, Hop.into]
    split
    · rename_i hpart
      split
      · rename_i values hvalues
        rw [hvalues, Option.bind_some, ← List.mk_mem_zipIdx_iff_getElem?]
        simp [hpart]
      · rename_i hnone
        simp [hnone]
    · rename_i hpart
      split <;> simp [hpart]

theorem mem_leavesOf {parts : List String} {v u : Json} {pos : List Hop} :
    (pos, u) ∈ leavesOf parts v ↔ List.Forall₂ Hop.Fits parts pos ∧ valueAt v pos = some u := by
  induction parts generalizing v pos with
  | nil =>
    rw [leavesOf, List.mem_singleton, Prod.mk.injEq, List.forall₂_nil_left_iff]
    constructor
    · rintro ⟨rfl, rfl⟩
      exact ⟨rfl, rfl⟩
    · rintro ⟨rfl, hvalue⟩
      exact ⟨rfl, (Option.some.inj hvalue).symm⟩
  | cons part parts ih =>
    rw [leavesOf, List.mem_flatMap]
    constructor
    · rintro ⟨⟨hop, w⟩, hhop, hleaf⟩
      obtain ⟨⟨pos', u'⟩, hrest, heq⟩ := List.mem_map.mp hleaf
      obtain ⟨rfl, rfl⟩ := Prod.mk.inj heq
      rw [mem_hopsOf] at hhop
      obtain ⟨hfits, hinto⟩ := hhop
      obtain ⟨hparts, hvalue⟩ := ih.mp hrest
      refine ⟨.cons hfits hparts, ?_⟩
      rw [valueAt, hinto, Option.bind_some, hvalue]
    · rintro ⟨hparts, hvalue⟩
      cases hparts with
      | cons hfits hparts =>
        obtain ⟨w, hinto, hvalue⟩ := Option.bind_eq_some_iff.mp hvalue
        refine ⟨(_, w), ?_, List.mem_map_of_mem (ih.mpr ⟨hparts, hvalue⟩)⟩
        rw [mem_hopsOf]
        exact ⟨hfits, hinto⟩

theorem pairwise_hopsOf (part : String) (v : Json) : (hopsOf part v).Pairwise fun a b => a.1.Before b.1 := by
  unfold hopsOf
  split
  · split
    · rename_i values _
      have hindices : (values.zipIdx.map Prod.snd).Pairwise (· < ·) := by
        rw [List.zipIdx_map_snd]
        exact List.pairwise_lt_range'
      rw [List.pairwise_map] at hindices ⊢
      exact hindices
    · exact .nil
  · split
    · exact List.pairwise_singleton ..
    · exact .nil

theorem pairwise_leavesOf (parts : List String) (v : Json) :
    (leavesOf parts v).Pairwise fun a b => List.Lex Hop.Before a.1 b.1 := by
  induction parts generalizing v with
  | nil => exact List.pairwise_singleton ..
  | cons part parts ih =>
    rw [leavesOf, List.pairwise_flatMap]
    constructor
    · intro hop _
      rw [List.pairwise_map]
      exact (ih hop.2).imp fun h => .cons h
    · refine (pairwise_hopsOf part v).imp fun hbefore a ha b hb => ?_
      obtain ⟨leaf, -, rfl⟩ := List.mem_map.mp ha
      obtain ⟨leaf', -, rfl⟩ := List.mem_map.mp hb
      exact .rel hbefore

theorem exact_leavesOf (obj : Json) (path : String) : Exact obj path (leavesOf (pathParts path) obj) := by
  refine ⟨?_, fun pos v => mem_leavesOf, pairwise_leavesOf .., ?_⟩
  · unfold walk
    rw [foldl_walkPart, List.flatMap_singleton]
    rfl
  · rw [List.nodup_iff_pairwise_ne, List.pairwise_map]
    refine (pairwise_leavesOf (pathParts path) obj).imp_of_mem fun ha hb hbefore htexts => ?_
    rw [mem_leavesOf] at ha hb
    exact lex_ne hbefore (foldl_write_inj ha.1 hb.1 htexts).2

/-! ## The check -/

theorem foreign_iff {actor : String} {v : Json} : foreign actor v = true ↔ v ≠ .str actor := by
  unfold foreign
  cases v <;> simp [Json.asStr]

section Check

variable {actor path : String} {obj : Json}

theorem find?_walk {leaves : List (List Hop × Json)} (h : Exact obj path leaves) :
    (walk obj path).find? (fun leaf => foreign actor leaf.2) =
      (leaves.find? fun leaf => foreign actor leaf.2).map fun leaf => (positionText leaf.1, leaf.2) := by
  rw [h.walked, List.find?_map]
  rfl

theorem find?_eq_none_iff_owned : (walk obj path).find? (fun leaf => foreign actor leaf.2) = none ↔ Owned actor obj path := by
  have hexact := exact_leavesOf obj path
  rw [find?_walk hexact, Option.map_eq_none_iff, List.find?_eq_none]
  constructor
  · intro h pos v hleaf
    have hkept := h _ ((hexact.mem pos v).mpr hleaf)
    rw [foreign_iff] at hkept
    exact not_not.mp hkept
  · rintro h ⟨pos, v⟩ hmem hforeign
    rw [foreign_iff] at hforeign
    exact hforeign (h pos v ((hexact.mem pos v).mp hmem))

theorem first_of_find? {leaf : String × Json} (h : (walk obj path).find? (fun leaf => foreign actor leaf.2) = some leaf) :
    ∃ pos v, leaf = (positionText pos, v) ∧ IsLeaf path obj pos v ∧ v ≠ .str actor ∧
      ∀ pos' v', IsLeaf path obj pos' v' → List.Lex Hop.Before pos' pos → v' = .str actor := by
  have hexact := exact_leavesOf obj path
  rw [find?_walk hexact] at h
  obtain ⟨⟨pos, v⟩, hfound, rfl⟩ := Option.map_eq_some_iff.mp h
  obtain ⟨hforeign, before, after, heq, hbefore⟩ := List.find?_eq_some_iff_append.mp hfound
  rw [foreign_iff] at hforeign
  refine ⟨pos, v, rfl, (hexact.mem pos v).mp (List.mem_of_find?_eq_some hfound), hforeign, ?_⟩
  intro pos' v' hleaf hearlier
  have hmem := (hexact.mem pos' v').mpr hleaf
  have horder := hexact.order
  rw [heq] at hmem horder
  rcases List.mem_append.mp hmem with hmem | hmem
  · by_contra hne
    have howned := hbefore _ hmem
    rw [foreign_iff.mpr hne] at howned
    exact nomatch howned
  · rcases List.mem_cons.mp hmem with heq | hmem
    · exact absurd (congrArg Prod.fst heq) (lex_ne hearlier)
    · have hlater := (List.pairwise_cons.mp (List.pairwise_append.mp horder).2.1).1 _ hmem
      exact absurd hearlier (asymm hlater)

end Check

theorem assertOwnedOutput_eq {table : List (String × List String)} {parse : List Char → Option Json} {toolName : String}
    {resultJson : List Char} {paths : List String} {parsed : Json} (hpaths : pathsFor table toolName = some paths)
    (hparsed : parse resultJson = some parsed) (actor : String) :
    assertOwnedOutput table parse toolName resultJson actor = paths.findSome? fun path =>
      ((walk parsed path).find? fun leaf => foreign actor leaf.2).map fun leaf =>
        ⟨toolName, actor, if leaf.1 = "" then path else leaf.1, leaf.2⟩ := by
  unfold assertOwnedOutput
  rw [hpaths, hparsed]

/-- The walk is exact, and the check passes exactly the results whose leaves are all the actor. Else it reports the first that is not. -/
theorem ownership_exact :
    (∀ obj path, ∃ leaves, Exact obj path leaves) ∧
      ∀ table parse toolName resultJson actor paths parsed, pathsFor table toolName = some paths →
        parse resultJson = some parsed →
        (assertOwnedOutput table parse toolName resultJson actor = none ↔ ∀ path ∈ paths, Owned actor parsed path) ∧
          ∀ violation, assertOwnedOutput table parse toolName resultJson actor = some violation →
            ∃ path pos v, FirstForeign actor parsed paths path pos v ∧
              violation = ⟨toolName, actor, if positionText pos = "" then path else positionText pos, v⟩ := by
  refine ⟨fun obj path => ⟨_, exact_leavesOf obj path⟩, ?_⟩
  intro table parse toolName resultJson actor paths parsed hpaths hparsed
  rw [assertOwnedOutput_eq hpaths hparsed]
  constructor
  · rw [List.findSome?_eq_none_iff]
    refine forall₂_congr fun path _ => ?_
    rw [Option.map_eq_none_iff, find?_eq_none_iff_owned]
  · intro violation hviolation
    obtain ⟨before, path, after, rfl, hfound, hbefore⟩ := List.findSome?_eq_some_iff.mp hviolation
    obtain ⟨leaf, hfind, rfl⟩ := Option.map_eq_some_iff.mp hfound
    obtain ⟨pos, v, rfl, hleaf, hforeign, hearlier⟩ := first_of_find? hfind
    refine ⟨path, pos, v, ⟨hleaf, hforeign, hearlier, before, after, rfl, fun p hp => ?_⟩, rfl⟩
    exact find?_eq_none_iff_owned.mp (Option.map_eq_none_iff.mp (hbefore p hp))

/-- The second of two lines belongs to another customer. -/
def sampleLines : Json :=
  .arr [.obj [("id", .str "SUB-1"), ("customerId", .str "CUST-1")], .obj [("id", .str "SUB-2"), ("customerId", .str "CUST-2")]]

def sampleViolation : OwnershipViolation := ⟨"subscription.list_mine", "CUST-1", "[1].customerId", .str "CUST-2"⟩

theorem ownership_exact_lines :
    assertOwnedOutput ownershipPaths (fun _ => some sampleLines) "subscription.list_mine" [] "CUST-1" = some sampleViolation ∧
      ∃ path pos v, FirstForeign "CUST-1" sampleLines ["[*].customerId"] path pos v ∧
        sampleViolation = ⟨"subscription.list_mine", "CUST-1", if positionText pos = "" then path else positionText pos, v⟩ := by
  have hreport := (ownership_exact.2 ownershipPaths (fun _ => some sampleLines) "subscription.list_mine" [] "CUST-1"
    ["[*].customerId"] sampleLines (by decide) rfl).2
  have hfound : assertOwnedOutput ownershipPaths (fun _ => some sampleLines) "subscription.list_mine" [] "CUST-1" =
      some sampleViolation := by rfl
  exact ⟨hfound, hreport _ hfound⟩

end BssCli.Agent
