import BssCli.Lib.UrlEncoded
import Mathlib.Data.List.DropRight

/-!
# Queries of a URL

What a URL library makes of the query of a text. The edges are trimmed, tabs and newlines are dropped, a fragment is cut, and bytes
that a query does not carry get percent signs.
-/

open Text UrlEncoded

namespace Url

/-- A C0 control or a blank. -/
def isEdge (c : Char) : Bool := c.toNat ≤ 0x20

def isTabOrNewline (c : Char) : Bool := c = '\t' || c = '\n' || c = '\r'

def visible (cs : List Char) : List Char := cs.filter fun c => !isTabOrNewline c

/-- The special-query percent-encode set. -/
def inQuerySet (b : UInt8) : Bool :=
  let n := b.toNat
  n ≤ 0x20 || n = 0x22 || n = 0x23 || n = 0x27 || n = 0x3C || n = 0x3E || 0x7F ≤ n

def queryByte (b : UInt8) : List UInt8 := if inQuerySet b then percentByte b else [b]

def encodeQuery (q : List Char) : List UInt8 := (utf8 q).flatMap queryByte

def query (url : List Char) : Option (List UInt8) :=
  let input := visible ((url.dropWhile isEdge).rdropWhile isEdge)
  match (input.takeWhile fun c => c != '#').dropWhile fun c => c != '?' with
  | [] => none
  | _ :: q => some (encodeQuery q)

/-- What goes on the wire of a query that ends the text. -/
def carried (q : List Char) : List Char := (visible (q.rdropWhile isEdge)).takeWhile fun c => c != '#'

theorem visible_append (a b : List Char) : visible (a ++ b) = visible a ++ visible b := List.filter_append ..

/-- Trimming stops at a character that is no edge. -/
theorem rdropWhile_append_cons {a b : List Char} {c : Char} (hc : isEdge c = false) :
    (a ++ c :: b).rdropWhile isEdge = a ++ c :: b.rdropWhile isEdge := by
  have hkeep : (c :: a.reverse).dropWhile isEdge = c :: a.reverse := List.dropWhile_cons_of_neg (by simp [hc])
  have hrev : (a ++ c :: b).reverse = b.reverse ++ c :: a.reverse := by simp
  unfold List.rdropWhile
  rw [hrev, List.dropWhile_append, hkeep]
  split
  · rename_i hempty
    rw [List.isEmpty_iff.mp hempty]
    simp
  · simp

theorem trim_append {front : List Char} (hhead : ∀ c ∈ front.head?, isEdge c = false) (q : List Char) :
    ((front ++ '?' :: q).dropWhile isEdge).rdropWhile isEdge = front ++ '?' :: q.rdropWhile isEdge := by
  have hstart : (front ++ '?' :: q).dropWhile isEdge = front ++ '?' :: q := by
    cases front with
    | nil => exact List.dropWhile_cons_of_neg (by decide)
    | cons c front => exact List.dropWhile_cons_of_neg (by simp [hhead c rfl])
  rw [hstart, rdropWhile_append_cons (by decide)]

/-- Where a URL has one `?` of its own, the query is what comes behind it. -/
theorem query_append {front : List Char} (hhead : ∀ c ∈ front.head?, isEdge c = false)
    (hplain : ∀ c ∈ front, c ≠ '?' ∧ c ≠ '#') (q : List Char) : query (front ++ '?' :: q) = some (encodeQuery (carried q)) := by
  have hvisible : visible (front ++ '?' :: q.rdropWhile isEdge) = visible front ++ '?' :: visible (q.rdropWhile isEdge) :=
    visible_append _ _
  have hfront : ∀ c ∈ visible front, c ≠ '?' ∧ c ≠ '#' := fun c hc => hplain c (List.mem_of_mem_filter hc)
  have hcut : (visible front ++ '?' :: visible (q.rdropWhile isEdge)).takeWhile (fun c => c != '#') =
      visible front ++ '?' :: carried q := by
    rw [List.takeWhile_append_of_pos fun c hc => by simpa using (hfront c hc).2, List.takeWhile_cons_of_pos (by decide)]
    rfl
  have hmark : (visible front ++ '?' :: carried q).dropWhile (fun c => c != '?') = '?' :: carried q := by
    rw [List.dropWhile_append_of_pos fun c hc => by simpa using (hfront c hc).1, List.dropWhile_cons_of_neg (by decide)]
  unfold query
  rw [trim_append hhead, hvisible]
  dsimp only
  rw [hcut, hmark]

theorem carried_append_cons {a b : List Char} {c : Char} (ha : '#' ∉ a) (hedge : isEdge c = false)
    (htab : isTabOrNewline c = false) (hfragment : c ≠ '#') : carried (a ++ c :: b) = visible a ++ c :: carried b := by
  have hvisible : visible (a ++ c :: b.rdropWhile isEdge) = visible a ++ c :: visible (b.rdropWhile isEdge) := by
    rw [visible_append]
    exact congrArg (visible a ++ ·) (List.filter_cons_of_pos (by simp [htab]))
  have hplain : ∀ d ∈ visible a, (d != '#') = true := by
    intro d hd
    have hne : d ≠ '#' := fun heq => ha (heq ▸ List.mem_of_mem_filter hd)
    simpa using hne
  unfold carried
  rw [rdropWhile_append_cons hedge, hvisible, List.takeWhile_append_of_pos hplain,
    List.takeWhile_cons_of_pos (by simpa using hfragment)]

theorem carried_of_not_mem {q : List Char} (h : '#' ∉ q) : carried q = visible (q.rdropWhile isEdge) := by
  unfold carried
  rw [List.takeWhile_eq_self_iff.mpr]
  intro c hc
  have hne : c ≠ '#' := fun heq => h (heq ▸ (List.rdropWhile_prefix _ _).subset (List.mem_of_mem_filter hc))
  simpa using hne

theorem encodeQuery_append (a b : List Char) : encodeQuery (a ++ b) = encodeQuery a ++ encodeQuery b := by
  unfold encodeQuery utf8
  rw [List.flatMap_append, List.flatMap_append]

theorem rdropWhile_eq_self_iff_getLast? {p : Char → Bool} {s : List Char} :
    s.rdropWhile p = s ↔ ∀ c ∈ s.getLast?, p c = false := by
  rw [List.rdropWhile_eq_self_iff]
  constructor
  · intro h c hc
    obtain ⟨init, rfl⟩ := List.getLast?_eq_some_iff.mp hc
    simpa using h (by simp)
  · intro h hne
    simpa using h _ (List.getLast?_eq_some_getLast hne)

/-! ## Nothing but ASCII is taken away -/

def isAsciiChar (c : Char) : Bool := c.toNat < 0x80

theorem visible_remains (cs : List Char) : Remains isAsciiChar (visible cs) cs := by
  refine Remains.filter ?_ cs
  intro c hc
  simp only [isTabOrNewline, Bool.not_eq_false', Bool.or_eq_true, decide_eq_true_eq] at hc
  rcases hc with (rfl | rfl) | rfl <;> decide

theorem isAsciiChar_of_isEdge (c : Char) (h : isEdge c = true) : isAsciiChar c = true := by
  simp only [isEdge, decide_eq_true_eq] at h
  simp only [isAsciiChar, decide_eq_true_eq]
  omega

theorem carried_remains_trimmed (q : List Char) : Remains isAsciiChar (carried q) (q.rdropWhile isEdge) := by
  have hcut : ∀ c : Char, (c != '#') = false → isAsciiChar c = true := by
    intro c hc
    obtain rfl : c = '#' := by simpa using hc
    decide
  exact (Remains.takeWhile hcut _).trans (visible_remains _)

theorem carried_remains (q : List Char) : Remains isAsciiChar (carried q) q :=
  (carried_remains_trimmed q).trans (Remains.rdropWhile isAsciiChar_of_isEdge q)

/-! ## What a server decodes -/

theorem queryByte_transparent :
    Transparent (fun b => plusToSpace (queryByte b)) (fun b => if b = plusSign then space else b) := by
  have hfixed : ∀ n : Fin 256, inEscape (UInt8.ofNat n) = true →
      plusToSpace (queryByte (UInt8.ofNat n)) = [UInt8.ofNat n] ∧
        (if UInt8.ofNat n = plusSign then space else UInt8.ofNat n) = UInt8.ofNat n := by decide +kernel
  have hother : ∀ n : Fin 256, inEscape (UInt8.ofNat n) = false →
      (plusToSpace (queryByte (UInt8.ofNat n)) = [if UInt8.ofNat n = plusSign then space else UInt8.ofNat n] ∨
        plusToSpace (queryByte (UInt8.ofNat n)) = percentByte (if UInt8.ofNat n = plusSign then space else UInt8.ofNat n)) ∧
      inEscape (if UInt8.ofNat n = plusSign then space else UInt8.ofNat n) = false := by decide +kernel
  constructor
  · intro b hb
    simpa using hfixed ⟨b.toNat, b.toNat_lt⟩ (by simpa using hb)
  · intro b hb
    simpa using hother ⟨b.toNat, b.toNat_lt⟩ (by simpa using hb)

theorem decodeField_encodeQuery (q : List Char) : decodeField (encodeQuery q) = decodeField (utf8 q) := by
  have hplus : plusToSpace (encodeQuery q) = (utf8 q).flatMap fun b => plusToSpace (queryByte b) := by
    unfold encodeQuery plusToSpace
    rw [List.map_flatMap]
  unfold decodeField
  rw [hplus, queryByte_transparent.percentDecode_flatMap]
  rfl

theorem utf8_cons (c : Char) (cs : List Char) : utf8 (c :: cs) = String.utf8EncodeChar c ++ utf8 cs := rfl

theorem plusToSpace_utf8 (cs : List Char) : plusToSpace (utf8 cs) = utf8 (cs.map fun c => if c = '+' then ' ' else c) := by
  induction cs with
  | nil => rfl
  | cons c cs ih =>
    have hchar : plusToSpace (String.utf8EncodeChar c) = String.utf8EncodeChar (if c = '+' then ' ' else c) := by
      by_cases hplus : c = '+'
      · rw [hplus]
        decide
      · rw [if_neg hplus]
        apply plusToSpace_of_not_mem
        rintro b hb rfl
        exact hplus (Char.toNat_inj.mp (Utf8.mem_utf8EncodeChar (by decide) hb))
    rw [List.map_cons, utf8_cons, utf8_cons, plusToSpace_append, ih, hchar]

theorem countP_plusToSpace (t : List UInt8) : (plusToSpace t).countP Utf8.isAscii = t.countP Utf8.isAscii := by
  unfold plusToSpace
  rw [List.countP_map]
  refine List.countP_congr fun b _ => ?_
  by_cases hb : b = plusSign
  · rw [Function.comp_apply, if_pos hb, hb]
    decide
  · rw [Function.comp_apply, if_neg hb]

/-- What is left of a value is read as the value where nothing is taken away and nothing in it is read as something else. -/
theorem decodeField_encodeQuery_eq_iff {w v : List Char} (h : Remains isAsciiChar w v) :
    decodeField (encodeQuery w) = utf8 v ↔ w = v ∧ '+' ∉ v ∧ ¬ HasEscape (utf8 v) := by
  rw [decodeField_encodeQuery]
  constructor
  · intro heq
    have hcount := congrArg (List.countP Utf8.isAscii) heq
    have hw := Utf8.countP_utf8 w
    have hv := Utf8.countP_utf8 v
    have hle : w.countP isAsciiChar ≤ v.countP isAsciiChar := h.le
    have hplus := countP_plusToSpace (utf8 w)
    have hdecoded := (percentDecode_remains (plusToSpace (utf8 w))).le
    unfold decodeField at hcount
    rw [Utf8.countP_lossy] at hcount
    have hwv : w = v := h.eq (show w.countP (fun c => decide (c.toNat < 0x80)) = v.countP fun c => decide (c.toNat < 0x80) by
      unfold isAsciiChar at hle
      omega)
    subst hwv
    have hself : percentDecode (plusToSpace (utf8 w)) = plusToSpace (utf8 w) := (percentDecode_remains _).eq (by omega)
    have hspaces : (w.map fun c => if c = '+' then ' ' else c) = w := by
      unfold decodeField at heq
      rw [hself, plusToSpace_utf8, Utf8.lossy_utf8] at heq
      exact Utf8.utf8_injective heq
    have hnone : '+' ∉ w := by
      intro hmem
      rw [← hspaces, List.mem_map] at hmem
      obtain ⟨c, -, hc⟩ := hmem
      split at hc
      · exact absurd hc (by decide)
      · contradiction
    refine ⟨rfl, hnone, ?_⟩
    rw [plusToSpace_utf8, hspaces] at hself
    exact percentDecode_eq_self_iff.mp hself
  · rintro ⟨rfl, hplus, hescape⟩
    have hspaces : (w.map fun c => if c = '+' then ' ' else c) = w := by
      have hne : ∀ c ∈ w, (if c = '+' then ' ' else c) = c := by
        rintro c hc
        rw [if_neg]
        rintro rfl
        exact hplus hc
      rw [List.map_congr_left hne, List.map_id']
    unfold decodeField
    rw [plusToSpace_utf8, hspaces, percentDecode_eq_self_iff.mpr hescape, Utf8.lossy_utf8]

/-! ## A query of one value -/

theorem visible_self {cs : List Char} (h : ∀ c ∈ cs, isTabOrNewline c = false) : visible cs = cs := by
  unfold visible
  rw [List.filter_eq_self]
  intro c hc
  rw [h c hc]
  rfl

/-- A letter, a digit or a hyphen. -/
def isPlain (c : Char) : Bool := c.isAlphanum || c = '-'

theorem not_mem_of_plain {n : List Char} (hn : n.all isPlain = true) {d : Char} (hd : isPlain d = false) : d ∉ n := by
  intro hmem
  rw [List.all_eq_true.mp hn d hmem] at hd
  exact nomatch hd

theorem visible_of_plain {n : List Char} (hn : n.all isPlain = true) : ∀ c ∈ n, isTabOrNewline c = false := by
  intro c hc
  by_contra htab
  simp only [isTabOrNewline, Bool.not_eq_false, Bool.or_eq_true, decide_eq_true_eq] at htab
  rcases htab with (rfl | rfl) | rfl <;> exact not_mem_of_plain hn (by decide) hc

theorem not_hasEscape {cs : List Char} (h : '%' ∉ cs) : ¬ HasEscape (utf8 cs) := by
  rintro ⟨pre, s, heq, -⟩
  have hmem : percent ∈ utf8 cs := by
    rw [heq]
    simp
  exact h (Utf8.mem_of_mem_utf8 (by decide) (by decide) hmem)

theorem not_mem_encodeQuery {q : List Char} {b : UInt8} {d : Char} (hb : b = ampersand ∨ b = equals) (hd : d.toNat = b.toNat)
    (h : d ∉ q) : b ∉ encodeQuery q := by
  intro hmem
  obtain ⟨x, hx, hbyte⟩ := List.mem_flatMap.mp hmem
  unfold queryByte at hbyte
  split at hbyte
  · obtain ⟨-, hamp, heq⟩ := percentByte_plain hbyte
    rcases hb with rfl | rfl
    · exact hamp rfl
    · exact heq rfl
  · rw [List.mem_singleton] at hbyte
    have hlow : b.toNat < 0x80 := by rcases hb with rfl | rfl <;> decide
    exact h (Utf8.mem_of_mem_utf8 hlow hd (hbyte ▸ hx))

theorem formDecode_append (a b : List UInt8) :
    formDecode (a ++ ampersand :: b) = formDecode a ++ formDecode b := by
  unfold formDecode pairsOf
  rw [List.splitOn_append_cons_self, List.filter_append, List.map_append, List.map_append]

theorem formDecode_single {a : List UInt8} (hne : a ≠ []) (ha : ampersand ∉ a) :
    formDecode a = [(decodeField (splitPair a).1, decodeField (splitPair a).2)] := by
  unfold formDecode pairsOf
  rw [List.splitOn_eq_singleton ha]
  simp [hne]

/-- One name and its value, up to the next `&`. -/
theorem formDecode_value {n w : List Char} (hn : n.all isPlain = true) (hw : '&' ∉ w) :
    formDecode (encodeQuery (n ++ '=' :: w)) = [(utf8 n, decodeField (encodeQuery w))] := by
  have hcut : encodeQuery (n ++ '=' :: w) = encodeQuery n ++ equals :: encodeQuery w := encodeQuery_append n ('=' :: w)
  have hsplit : splitPair (encodeQuery n ++ equals :: encodeQuery w) = (encodeQuery n, encodeQuery w) := by
    apply splitPair_append
    rintro b hb rfl
    exact not_mem_encodeQuery (Or.inr rfl) (by decide : '='.toNat = equals.toNat) (not_mem_of_plain hn (by decide)) hb
  have hamp : ampersand ∉ encodeQuery n ++ equals :: encodeQuery w := by
    rw [List.mem_append, List.mem_cons]
    rintro (hmem | hmem | hmem)
    · exact not_mem_encodeQuery (Or.inl rfl) (by decide : '&'.toNat = ampersand.toNat) (not_mem_of_plain hn (by decide)) hmem
    · exact absurd hmem (by decide)
    · exact not_mem_encodeQuery (Or.inl rfl) (by decide : '&'.toNat = ampersand.toNat) hw hmem
  have hname : decodeField (encodeQuery n) = utf8 n :=
    (decodeField_encodeQuery_eq_iff ⟨le_rfl, fun _ => rfl⟩).mpr
      ⟨rfl, not_mem_of_plain hn (by decide), not_hasEscape (not_mem_of_plain hn (by decide))⟩
  rw [hcut, formDecode_single (by simp) hamp, hsplit, hname]

/-- A value that ends the query is read back exactly where all of it is carried and none of it is read as something else. -/
structure SafeValue (v : List Char) : Prop where
  fragment : '#' ∉ v
  separator : '&' ∉ v
  plus : '+' ∉ v
  visible : ∀ c ∈ v, isTabOrNewline c = false
  last : ∀ c ∈ v.getLast?, isEdge c = false
  escapes : ¬ HasEscape (utf8 v)

theorem carried_value {n : List Char} (hn : n.all isPlain = true) (v : List Char) : carried (n ++ '=' :: v) = n ++ '=' :: carried v := by
  rw [carried_append_cons (not_mem_of_plain hn (by decide)) (by decide) (by decide) (by decide), visible_self (visible_of_plain hn)]

theorem carried_eq_self_iff {v : List Char} :
    carried v = v ↔ '#' ∉ v ∧ (∀ c ∈ v, isTabOrNewline c = false) ∧ ∀ c ∈ v.getLast?, isEdge c = false := by
  constructor
  · intro h
    have hcarried : ∀ c ∈ v, c ≠ '#' ∧ isTabOrNewline c = false := by
      intro c hc
      rw [← h] at hc
      have hmark := List.mem_takeWhile_imp hc
      have hvisible := (List.mem_filter.mp ((List.takeWhile_prefix _).subset hc)).2
      exact ⟨by simpa using hmark, by simpa using hvisible⟩
    refine ⟨fun hmem => (hcarried _ hmem).1 rfl, fun c hc => (hcarried c hc).2, ?_⟩
    have htrim : v.rdropWhile isEdge = v := by
      have hremains : Remains isAsciiChar (v.rdropWhile isEdge) v := Remains.rdropWhile isAsciiChar_of_isEdge v
      have hle := (carried_remains_trimmed v).le
      have hle' := hremains.le
      rw [h] at hle
      exact hremains.eq (by omega)
    exact rdropWhile_eq_self_iff_getLast?.mp htrim
  · rintro ⟨hfragment, hvisible, hlast⟩
    rw [carried_of_not_mem hfragment, rdropWhile_eq_self_iff_getLast?.mpr hlast, visible_self hvisible]

/-- The value of a name that begins the query, and what comes behind it. -/
theorem formDecode_first {n : List Char} (hn : n.all isPlain = true) (w : List Char) :
    formDecode (encodeQuery (n ++ '=' :: w)) =
      (utf8 n, decodeField (encodeQuery (w.takeWhile fun c => c != '&'))) ::
        formDecode (encodeQuery (w.dropWhile fun c => c != '&').tail) := by
  have hfirst : '&' ∉ w.takeWhile fun c => c != '&' := fun hmem => absurd (List.mem_takeWhile_imp hmem) (by decide)
  have hwhole := List.takeWhile_append_dropWhile (p := fun c => c != '&') (l := w)
  cases hrest : w.dropWhile fun c => c != '&' with
  | nil =>
    rw [hrest, List.append_nil] at hwhole
    rw [hwhole] at hfirst ⊢
    rw [formDecode_value hn hfirst]
    rfl
  | cons c rest =>
    obtain rfl : c = '&' := by
      have hhead := List.head?_dropWhile_not (fun c => c != '&') w
      rw [hrest] at hhead
      simpa using hhead
    have hcut : encodeQuery (n ++ '=' :: w) =
        encodeQuery (n ++ '=' :: w.takeWhile fun c => c != '&') ++ ampersand :: encodeQuery rest := by
      have hchars : n ++ '=' :: w = (n ++ '=' :: w.takeWhile fun c => c != '&') ++ '&' :: rest := by
        rw [List.append_assoc, List.cons_append, ← hrest, hwhole]
      rw [hchars, encodeQuery_append]
      rfl
    rw [hcut, formDecode_append, formDecode_value hn hfirst]
    rfl

theorem first_value_iff {v : List Char} :
    decodeField (encodeQuery ((carried v).takeWhile fun c => c != '&')) = utf8 v ↔ SafeValue v := by
  have hcut : ∀ c : Char, (c != '&') = false → isAsciiChar c = true := by
    intro c hc
    obtain rfl : c = '&' := by simpa using hc
    decide
  have hfirst : Remains isAsciiChar ((carried v).takeWhile fun c => c != '&') (carried v) := Remains.takeWhile hcut _
  rw [decodeField_encodeQuery_eq_iff (hfirst.trans (carried_remains v))]
  constructor
  · rintro ⟨hsame, hplus, hescapes⟩
    have hcarried : carried v = v := by
      have hle := hfirst.le
      have hle' := (carried_remains v).le
      rw [hsame] at hle
      exact (carried_remains v).eq (by omega)
    obtain ⟨hfragment, hvisible, hlast⟩ := carried_eq_self_iff.mp hcarried
    rw [hcarried] at hsame
    have hseparator : '&' ∉ v := by
      intro hmem
      rw [← hsame] at hmem
      exact absurd (List.mem_takeWhile_imp hmem) (by decide)
    exact ⟨hfragment, hseparator, hplus, hvisible, hlast, hescapes⟩
  · intro hsafe
    have hwhole : (v.takeWhile fun c => c != '&') = v := by
      rw [List.takeWhile_eq_self_iff]
      rintro c hc
      have hne : c ≠ '&' := fun heq => hsafe.separator (heq ▸ hc)
      simpa using hne
    rw [carried_eq_self_iff.mpr ⟨hsafe.fragment, hsafe.visible, hsafe.last⟩]
    exact ⟨hwhole, hsafe.plus, hsafe.escapes⟩

theorem safeValue_of_plain {v : List Char} (h : v.all isPlain = true) : SafeValue v := by
  refine ⟨not_mem_of_plain h (by decide), not_mem_of_plain h (by decide), not_mem_of_plain h (by decide), visible_of_plain h, ?_,
    not_hasEscape (not_mem_of_plain h (by decide))⟩
  intro c hc
  have hlow : ∀ n : Fin 0x21, isPlain (Char.ofNat n) = false := by decide
  by_contra hedge
  have hle : c.toNat ≤ 0x20 := by simpa [isEdge] using hedge
  have hplain := hlow ⟨c.toNat, by omega⟩
  rw [Char.ofNat_toNat] at hplain
  exact not_mem_of_plain h hplain (List.mem_of_getLast? hc)

end Url
