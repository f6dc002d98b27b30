import BssCli.Lib.Url

/-!
# Paths of a URL

What a URL library makes of the path of a text, and what a server decodes of it. Slashes of both kinds separate the segments, and dot
segments are resolved.
-/

open Text UrlEncoded

namespace Url

def isSlash (c : Char) : Bool := c = '/' || c = '\\'

/-- The path ends before it. -/
def isMark (c : Char) : Bool := c = '?' || c = '#'

def isSingleDot (p : List Char) : Bool := p.map Char.toLower ∈ [".".toList, "%2e".toList]

def isDoubleDot (p : List Char) : Bool :=
  p.map Char.toLower ∈ ["..".toList, ".%2e".toList, "%2e.".toList, "%2e%2e".toList]

/-- The path percent-encode set. -/
def inPathSet (b : UInt8) : Bool :=
  let n := b.toNat
  n ≤ 0x20 || n = 0x22 || n = 0x23 || n = 0x3C || n = 0x3E || n = 0x3F || n = 0x5E || n = 0x60 || n = 0x7B || n = 0x7D || 0x7F ≤ n

def pathByte (b : UInt8) : List UInt8 := if inPathSet b then percentByte b else [b]

def encodeSegment (p : List Char) : List UInt8 := (utf8 p).flatMap pathByte

/-- The segments that are left. Two dots take the one before them away, and dots at the end leave an empty one. -/
def walk (stack : List (List Char)) : List (List Char) → List (List Char)
  | [] => stack
  | p :: ps =>
    let closing := if ps = [] then [[]] else []
    if isDoubleDot p then walk (stack.dropLast ++ closing) ps
    else if isSingleDot p then walk (stack ++ closing) ps
    else walk (stack ++ [p]) ps

def pathText (url : List Char) : List Char :=
  (visible ((url.dropWhile isEdge).rdropWhile isEdge)).takeWhile fun c => !isMark c

/-- The path of a text that starts at the root of the host, in segments. -/
def path (url : List Char) : Option (List (List UInt8)) :=
  match pathText url with
  | [] => none
  | c :: rest =>
    if isSlash c && !rest.head?.any isSlash then some ((walk [] (rest.splitOnP isSlash)).map encodeSegment) else none

/-- The segments as a server decodes them. -/
def decodedPath (url : List Char) : Option (List (List UInt8)) := (path url).map fun segments => segments.map percentDecode

theorem pathByte_transparent : Transparent pathByte id := by
  have hfixed : ∀ n : Fin 256, inEscape (UInt8.ofNat n) = true → pathByte (UInt8.ofNat n) = [UInt8.ofNat n] := by decide +kernel
  constructor
  · intro b hb
    exact ⟨by simpa using hfixed ⟨b.toNat, b.toNat_lt⟩ (by simpa using hb), rfl⟩
  · intro b hb
    refine ⟨?_, hb⟩
    unfold pathByte
    split
    · exact Or.inr rfl
    · exact Or.inl rfl

theorem percentDecode_encodeSegment (p : List Char) : percentDecode (encodeSegment p) = percentDecode (utf8 p) := by
  unfold encodeSegment
  rw [pathByte_transparent.percentDecode_flatMap, List.map_id]

/-- The ASCII characters of the pieces, and one more for each. -/
def weight (ps : List (List Char)) : ℕ := (ps.map fun p => p.countP isAsciiChar + 1).sum

theorem weight_append (ps qs : List (List Char)) : weight (ps ++ qs) = weight ps + weight qs := by
  unfold weight
  rw [List.map_append, List.sum_append]

theorem weight_cons (p : List Char) (ps : List (List Char)) : weight (p :: ps) = p.countP isAsciiChar + 1 + weight ps := rfl

theorem weight_dropLast_le (ps : List (List Char)) : weight ps.dropLast ≤ weight ps := by
  rcases List.eq_nil_or_concat ps with rfl | ⟨init, p, rfl⟩
  · exact le_rfl
  · rw [List.concat_eq_append, List.dropLast_concat, weight_append]
    omega

theorem weight_splitOnP (cs : List Char) : weight (cs.splitOnP isSlash) = cs.countP isAsciiChar + 1 := by
  induction cs with
  | nil => rfl
  | cons c cs ih =>
    rw [List.splitOnP_cons_eq_if_modifyHead]
    split
    · rename_i hslash
      have hascii : isAsciiChar c = true := by
        simp only [isSlash, Bool.or_eq_true, decide_eq_true_eq] at hslash
        rcases hslash with rfl | rfl <;> decide
      rw [weight_cons, ih, List.countP_nil, List.countP_cons_of_pos hascii]
      omega
    · obtain ⟨p, ps, hsplit⟩ := List.exists_cons_of_ne_nil (List.splitOnP_ne_nil isSlash cs)
      rw [hsplit, weight_cons] at ih
      rw [hsplit, List.modifyHead_cons, weight_cons, List.countP_cons, List.countP_cons]
      omega

theorem eq_of_toLower {c : Char} (h : c.toLower = '.' ∨ c.toLower = '%') : c = '.' ∨ c = '%' := by
  have hall : ∀ n : Fin 0x80, (Char.ofNat n).toLower = '.' ∨ (Char.ofNat n).toLower = '%' →
      Char.ofNat n = '.' ∨ Char.ofNat n = '%' := by decide +kernel
  by_cases hc : c.toNat < 0x80
  · have hchar := hall ⟨c.toNat, hc⟩
    rw [Char.ofNat_toNat] at hchar
    exact hchar h
  · unfold Char.toLower at h
    rw [dif_neg] at h
    · exact h
    · intro hupper
      have hle : c.toNat ≤ 90 := hupper.2
      omega

/-- A dot segment has a dot or a percent sign. -/
theorem head_of_dots {p : List Char} (h : isDoubleDot p = true ∨ isSingleDot p = true) : ∃ c ∈ p, c = '.' ∨ c = '%' := by
  cases p with
  | nil => simp [isDoubleDot, isSingleDot] at h
  | cons c p =>
    refine ⟨c, List.mem_cons_self, eq_of_toLower ?_⟩
    simp only [isDoubleDot, isSingleDot, List.map_cons, decide_eq_true_eq, List.mem_cons, List.not_mem_nil, or_false] at h
    rcases h with (h | h | h | h) | (h | h)
    · exact Or.inl (List.cons.inj h).1
    · exact Or.inl (List.cons.inj h).1
    · exact Or.inr (List.cons.inj h).1
    · exact Or.inr (List.cons.inj h).1
    · exact Or.inl (List.cons.inj h).1
    · exact Or.inr (List.cons.inj h).1

theorem countP_pos_of_dots {p : List Char} (h : isDoubleDot p = true ∨ isSingleDot p = true) : 0 < p.countP isAsciiChar := by
  obtain ⟨c, hc, heq⟩ := head_of_dots h
  rw [List.countP_pos_iff]
  refine ⟨c, hc, ?_⟩
  rcases heq with rfl | rfl <;> decide

theorem walk_weight (stack ps : List (List Char)) :
    weight (walk stack ps) ≤ weight stack + weight ps ∧
      (weight (walk stack ps) = weight stack + weight ps →
        walk stack ps = stack ++ ps ∧ ∀ p ∈ ps, isDoubleDot p = false ∧ isSingleDot p = false) := by
  induction ps generalizing stack with
  | nil => exact ⟨by simp [walk, weight], fun _ => by simp [walk]⟩
  | cons p ps ih =>
    have hclosing : weight (if ps = [] then [[]] else []) ≤ 1 := by
      split <;> simp [weight]
    unfold walk
    dsimp only
    rw [weight_cons]
    split
    · rename_i hdots
      have hpos := countP_pos_of_dots (Or.inl hdots)
      have hle := (ih (stack.dropLast ++ if ps = [] then [[]] else [])).1
      have hdrop := weight_dropLast_le stack
      rw [weight_append] at hle
      exact ⟨by omega, fun heq => by omega⟩
    · rename_i hdouble
      split
      · rename_i hdot
        have hpos := countP_pos_of_dots (Or.inr hdot)
        have hle := (ih (stack ++ if ps = [] then [[]] else [])).1
        rw [weight_append] at hle
        exact ⟨by omega, fun heq => by omega⟩
      · rename_i hsingle
        obtain ⟨hle, heq⟩ := ih (stack ++ [p])
        have hone : weight (stack ++ [p]) = weight stack + (p.countP isAsciiChar + 1) := by
          rw [weight_append, weight_cons]
          rfl
        rw [hone] at hle heq
        refine ⟨by omega, ?_⟩
        intro htotal
        obtain ⟨hwalk, hplain⟩ := heq (by omega)
        refine ⟨by rw [hwalk, List.append_assoc, List.singleton_append], ?_⟩
        rw [List.forall_mem_cons]
        exact ⟨⟨by simpa using hdouble, by simpa using hsingle⟩, hplain⟩

theorem walk_plain {ps : List (List Char)} (h : ∀ p ∈ ps, isDoubleDot p = false ∧ isSingleDot p = false) (stack : List (List Char)) :
    walk stack ps = stack ++ ps := by
  induction ps generalizing stack with
  | nil => simp [walk]
  | cons p ps ih =>
    rw [List.forall_mem_cons] at h
    unfold walk
    dsimp only
    rw [if_neg (by simp [h.1.1]), if_neg (by simp [h.1.2]), ih h.2, List.append_assoc, List.singleton_append]

/-! ## Paths that are kept -/

/-- The pieces, a slash before each. -/
def joined (ps : List (List Char)) : List Char := ps.flatMap fun p => '/' :: p

structure SafeSegment (p : List Char) : Prop where
  slashes : ∀ c ∈ p, isSlash c = false
  marks : ∀ c ∈ p, isMark c = false
  visible : ∀ c ∈ p, isTabOrNewline c = false
  dots : isDoubleDot p = false ∧ isSingleDot p = false
  escapes : ¬ HasEscape (utf8 p)

theorem joined_cons (p : List Char) (ps : List (List Char)) : joined (p :: ps) = '/' :: (p ++ joined ps) := rfl

theorem countP_joined (ps : List (List Char)) : (joined ps).countP isAsciiChar = weight ps := by
  induction ps with
  | nil => rfl
  | cons p ps ih =>
    rw [joined_cons, weight_cons, List.countP_cons_of_pos (by decide), List.countP_append, ih]
    omega

theorem mem_joined {ps : List (List Char)} {c : Char} (h : c ∈ joined ps) : c = '/' ∨ ∃ p ∈ ps, c ∈ p := by
  obtain ⟨p, hp, hc⟩ := List.mem_flatMap.mp h
  rcases List.mem_cons.mp hc with rfl | hc
  · exact Or.inl rfl
  · exact Or.inr ⟨p, hp, hc⟩

theorem mem_joined_of_mem {ps : List (List Char)} {p : List Char} (hp : p ∈ ps) {c : Char} (hc : c ∈ p) : c ∈ joined ps :=
  List.mem_flatMap.mpr ⟨p, hp, List.mem_cons_of_mem _ hc⟩

theorem splitOnP_joined {p : List Char} {ps : List (List Char)} (h : ∀ q ∈ p :: ps, ∀ c ∈ q, isSlash c = false) :
    (p ++ joined ps).splitOnP isSlash = p :: ps := by
  induction ps generalizing p with
  | nil =>
    have hp := h p List.mem_cons_self
    rw [show p ++ joined [] = p from List.append_nil p, List.splitOnP_eq_singleton hp]
  | cons q ps ih =>
    rw [joined_cons, List.splitOnP_append_cons_of_forall_mem (h p List.mem_cons_self) '/' (by decide),
      ih fun r hr => h r (List.mem_cons_of_mem _ hr)]

theorem not_slash_of_mem_splitOnP {cs p : List Char} (h : p ∈ cs.splitOnP isSlash) : ∀ c ∈ p, isSlash c = false := by
  induction cs generalizing p with
  | nil =>
    rw [List.splitOnP_nil, List.mem_singleton] at h
    simp [h]
  | cons d cs ih =>
    rw [List.splitOnP_cons_eq_if_modifyHead] at h
    split at h
    · rcases List.mem_cons.mp h with rfl | h
      · simp
      · exact ih h
    · rename_i hd
      obtain ⟨q, qs, hsplit⟩ := List.exists_cons_of_ne_nil (List.splitOnP_ne_nil isSlash cs)
      rw [hsplit, List.modifyHead_cons] at h
      rw [hsplit] at ih
      rcases List.mem_cons.mp h with rfl | h
      · rw [List.forall_mem_cons]
        exact ⟨by simpa using hd, ih List.mem_cons_self⟩
      · exact ih (List.mem_cons_of_mem _ h)

theorem pathText_remains (url : List Char) : Remains isAsciiChar (pathText url) url := by
  have hcut : ∀ c : Char, (!isMark c) = false → isAsciiChar c = true := by
    intro c hc
    simp only [isMark, Bool.not_eq_false', Bool.or_eq_true, decide_eq_true_eq] at hc
    rcases hc with rfl | rfl <;> decide
  exact (((Remains.takeWhile hcut _).trans (visible_remains _)).trans (Remains.rdropWhile isAsciiChar_of_isEdge _)).trans
    (Remains.dropWhile isAsciiChar_of_isEdge url)

theorem mem_pathText {url : List Char} {c : Char} (h : c ∈ pathText url) : isMark c = false ∧ isTabOrNewline c = false := by
  have hmark := List.mem_takeWhile_imp h
  have hvisible := (List.mem_filter.mp ((List.takeWhile_prefix _).subset h)).2
  exact ⟨by simpa using hmark, by simpa using hvisible⟩

/-- Pieces that decode to others weigh no less, and as much where they are those and have no escape. -/
theorem weight_of_decoded {qs ps : List (List Char)} (h : (qs.map fun q => percentDecode (utf8 q)) = ps.map utf8) :
    weight ps ≤ weight qs ∧ (weight ps = weight qs → qs = ps ∧ ∀ p ∈ ps, ¬ HasEscape (utf8 p)) := by
  induction qs generalizing ps with
  | nil =>
    obtain rfl : ps = [] := by simpa using h.symm
    exact ⟨le_rfl, fun _ => ⟨rfl, by simp⟩⟩
  | cons q qs ih =>
    cases ps with
    | nil => simp at h
    | cons p ps =>
      rw [List.map_cons, List.map_cons] at h
      obtain ⟨hhead, htail⟩ := List.cons.inj h
      obtain ⟨hle, heq⟩ := ih htail
      have hremains := percentDecode_remains (utf8 q)
      have hcount := hremains.le
      have hp : (utf8 p).countP Utf8.isAscii = p.countP isAsciiChar := Utf8.countP_utf8 p
      have hq : (utf8 q).countP Utf8.isAscii = q.countP isAsciiChar := Utf8.countP_utf8 q
      rw [hhead, hp, hq] at hcount
      rw [weight_cons, weight_cons]
      refine ⟨by omega, ?_⟩
      intro htotal
      obtain ⟨hrest, hplain⟩ := heq (by omega)
      have hself := hremains.eq (by rw [hhead, hp, hq]; omega)
      have hpq : q = p := Utf8.utf8_injective (hself.symm.trans hhead)
      refine ⟨by rw [hpq, hrest], ?_⟩
      rw [List.forall_mem_cons]
      exact ⟨percentDecode_eq_self_iff.mp (hpq ▸ hself), hplain⟩

theorem decodedPath_eq_some {url : List Char} {segments : List (List UInt8)} (h : decodedPath url = some segments) :
    ∃ c rest, pathText url = c :: rest ∧ isSlash c = true ∧
      (walk [] (rest.splitOnP isSlash)).map (fun q => percentDecode (utf8 q)) = segments := by
  unfold decodedPath path at h
  obtain ⟨encoded, hpath, rfl⟩ := Option.map_eq_some_iff.mp h
  split at hpath
  · exact nomatch hpath
  · rename_i c rest htext
    split at hpath
    · rename_i hslash
      obtain rfl := Option.some.inj hpath
      refine ⟨c, rest, htext, (Bool.and_eq_true _ _ ▸ hslash).1, ?_⟩
      rw [List.map_map]
      exact List.map_congr_left fun q _ => (percentDecode_encodeSegment q).symm
    · exact nomatch hpath

/-- A text that is read as the pieces it is made of has safe ones only. -/
theorem safe_of_decodedPath {ps : List (List Char)} (h : decodedPath (joined ps) = some (ps.map utf8)) :
    ∀ p ∈ ps, SafeSegment p := by
  obtain ⟨c, rest, htext, hslash, hdecoded⟩ := decodedPath_eq_some h
  have hremains := pathText_remains (joined ps)
  have htotal := hremains.le
  have hascii : isAsciiChar c = true := by
    simp only [isSlash, Bool.or_eq_true, decide_eq_true_eq] at hslash
    rcases hslash with rfl | rfl <;> decide
  obtain ⟨hwalkle, hwalk⟩ := walk_weight [] (rest.splitOnP isSlash)
  obtain ⟨hle, heq⟩ := weight_of_decoded hdecoded
  have hnil : weight [] = 0 := rfl
  rw [hnil, weight_splitOnP] at hwalkle hwalk
  rw [countP_joined, htext, List.countP_cons_of_pos hascii] at htotal
  have hsame : pathText (joined ps) = joined ps := by
    apply hremains.eq
    rw [countP_joined, htext, List.countP_cons_of_pos hascii]
    omega
  obtain ⟨hpieces, hdots⟩ := hwalk (by omega)
  obtain ⟨hps, hescapes⟩ := heq (by omega)
  have hsplit : rest.splitOnP isSlash = ps := hpieces.symm.trans hps
  intro p hp
  have hchars : ∀ d ∈ p, isMark d = false ∧ isTabOrNewline d = false := by
    intro d hd
    have hmem := mem_joined_of_mem hp hd
    rw [← hsame] at hmem
    exact mem_pathText hmem
  rw [hsplit] at hdots
  exact ⟨not_slash_of_mem_splitOnP (hsplit ▸ hp), fun d hd => (hchars d hd).1, fun d hd => (hchars d hd).2, hdots p hp, hescapes p hp⟩

theorem decodedPath_of_safe {p : List Char} {ps : List (List Char)} (hfirst : p ≠ []) (hsafe : ∀ q ∈ p :: ps, SafeSegment q)
    {url : List Char} (htext : pathText url = joined (p :: ps)) : decodedPath url = some ((p :: ps).map utf8) := by
  have hhead : (p ++ joined ps).head?.any isSlash = false := by
    cases p with
    | nil => exact absurd rfl hfirst
    | cons c p => simpa using (hsafe _ List.mem_cons_self).slashes c List.mem_cons_self
  unfold decodedPath path
  rw [htext, joined_cons]
  dsimp only
  rw [hhead, if_pos (by decide), splitOnP_joined fun q hq => (hsafe q hq).slashes, walk_plain fun q hq => (hsafe q hq).dots,
    List.nil_append, Option.map_some, List.map_map]
  refine congrArg some (List.map_congr_left fun q hq => ?_)
  rw [Function.comp_apply, percentDecode_encodeSegment, percentDecode_eq_self_iff.mpr (hsafe q hq).escapes]

theorem pathText_self {cs : List Char} (hhead : ∀ c ∈ cs.head?, isEdge c = false) (hlast : cs.rdropWhile isEdge = cs)
    (hplain : ∀ c ∈ cs, isMark c = false ∧ isTabOrNewline c = false) : pathText cs = cs := by
  have hstart : cs.dropWhile isEdge = cs := by
    cases cs with
    | nil => rfl
    | cons c cs => exact List.dropWhile_cons_of_neg (by simp [hhead c rfl])
  unfold pathText
  rw [hstart, hlast, visible_self fun c hc => (hplain c hc).2, List.takeWhile_eq_self_iff]
  intro c hc
  rw [(hplain c hc).1]
  rfl

theorem pathText_append {front : List Char} (hhead : ∀ c ∈ front.head?, isEdge c = false)
    (hplain : ∀ c ∈ front, isMark c = false ∧ isTabOrNewline c = false) (q : List Char) : pathText (front ++ '?' :: q) = front := by
  have hvisible : visible (front ++ '?' :: q.rdropWhile isEdge) = front ++ '?' :: visible (q.rdropWhile isEdge) := by
    rw [visible_append, visible_self fun c hc => (hplain c hc).2]
    rfl
  have hkept : ∀ c ∈ front, (!isMark c) = true := by
    intro c hc
    rw [(hplain c hc).1]
    rfl
  unfold pathText
  rw [trim_append hhead, hvisible, List.takeWhile_append_of_pos hkept, List.takeWhile_cons_of_neg (by decide), List.append_nil]

theorem joined_plain {ps : List (List Char)} (h : ∀ p ∈ ps, SafeSegment p) :
    (∀ c ∈ (joined ps).head?, isEdge c = false) ∧ ∀ c ∈ joined ps, isMark c = false ∧ isTabOrNewline c = false := by
  constructor
  · intro c hc
    cases ps with
    | nil => exact nomatch hc
    | cons p ps =>
      obtain rfl : '/' = c := Option.some.inj hc
      decide
  · intro c hc
    rcases mem_joined hc with rfl | ⟨p, hp, hc⟩
    · decide
    · exact ⟨(h p hp).marks c hc, (h p hp).visible c hc⟩

/-- Pieces behind slashes are read back exactly where all of them are safe. -/
theorem decodedPath_joined_iff {p : List Char} {ps : List (List Char)} (hfirst : p ≠ [])
    (hlast : (joined (p :: ps)).rdropWhile isEdge = joined (p :: ps)) :
    decodedPath (joined (p :: ps)) = some ((p :: ps).map utf8) ↔ ∀ q ∈ p :: ps, SafeSegment q := by
  constructor
  · exact safe_of_decodedPath
  · intro hsafe
    obtain ⟨hhead, hplain⟩ := joined_plain hsafe
    exact decodedPath_of_safe hfirst hsafe (pathText_self hhead hlast hplain)

theorem decodedPath_query {p : List Char} {ps : List (List Char)} (hfirst : p ≠ []) (hsafe : ∀ q ∈ p :: ps, SafeSegment q)
    (q : List Char) : decodedPath (joined (p :: ps) ++ '?' :: q) = some ((p :: ps).map utf8) := by
  obtain ⟨hhead, hplain⟩ := joined_plain hsafe
  exact decodedPath_of_safe hfirst hsafe (pathText_append hhead hplain q)

theorem safe_of_plain {p : List Char} (h : p.all isPlain = true) : SafeSegment p := by
  have hdots : ¬ (isDoubleDot p = true ∨ isSingleDot p = true) := by
    intro hdots
    obtain ⟨c, hc, heq⟩ := head_of_dots hdots
    rcases heq with rfl | rfl <;> exact not_mem_of_plain h (by decide) hc
  refine ⟨?_, ?_, visible_of_plain h, by simpa using hdots, not_hasEscape (not_mem_of_plain h (by decide))⟩
  · intro c hc
    by_contra hslash
    simp only [isSlash, Bool.not_eq_false, Bool.or_eq_true, decide_eq_true_eq] at hslash
    rcases hslash with rfl | rfl <;> exact not_mem_of_plain h (by decide) hc
  · intro c hc
    by_contra hmark
    simp only [isMark, Bool.not_eq_false, Bool.or_eq_true, decide_eq_true_eq] at hmark
    rcases hmark with rfl | rfl <;> exact not_mem_of_plain h (by decide) hc

/-! ## The last segment -/

/-- The segments that are left while more of them follow. -/
def resolved (stack : List (List Char)) : List (List Char) → List (List Char)
  | [] => stack
  | p :: ps =>
    if isDoubleDot p then resolved stack.dropLast ps
    else if isSingleDot p then resolved stack ps
    else resolved (stack ++ [p]) ps

theorem resolved_append (stack ps qs : List (List Char)) : resolved stack (ps ++ qs) = resolved (resolved stack ps) qs := by
  induction ps generalizing stack with
  | nil => rfl
  | cons p ps ih =>
    rw [List.cons_append, resolved, resolved]
    split
    · exact ih _
    · split <;> exact ih _

theorem resolved_single (stack : List (List Char)) (p : List Char) :
    resolved stack [p] = if isDoubleDot p then stack.dropLast else if isSingleDot p then stack else stack ++ [p] := by
  unfold resolved resolved
  rfl

theorem walk_append {qs : List (List Char)} (hqs : qs ≠ []) (stack ps : List (List Char)) :
    walk stack (ps ++ qs) = walk (resolved stack ps) qs := by
  induction ps generalizing stack with
  | nil => rfl
  | cons p ps ih =>
    have hmore : ps ++ qs ≠ [] := by simp [hqs]
    rw [List.cons_append, walk, resolved]
    rw [if_neg hmore, List.append_nil, List.append_nil]
    split
    · exact ih _
    · split <;> exact ih _

theorem walk_single (stack : List (List Char)) (p : List Char) :
    walk stack [p] =
      if isDoubleDot p then stack.dropLast ++ [[]] else if isSingleDot p then stack ++ [[]] else stack ++ [p] := by
  unfold walk walk
  rfl

theorem splitOnP_append_slash (a b : List Char) :
    (a ++ '/' :: b).splitOnP isSlash = a.splitOnP isSlash ++ b.splitOnP isSlash := by
  induction a with
  | nil => simp [List.splitOnP_cons_eq_if_modifyHead, isSlash]
  | cons c a ih =>
    rw [List.cons_append, List.splitOnP_cons_eq_if_modifyHead, List.splitOnP_cons_eq_if_modifyHead, ih]
    split
    · rfl
    · obtain ⟨p, ps, hsplit⟩ := List.exists_cons_of_ne_nil (List.splitOnP_ne_nil isSlash a)
      rw [hsplit]
      rfl

/-- What has no slash goes to the last piece. -/
theorem splitOnP_append_plain (a : List Char) {e : List Char} (he : ∀ c ∈ e, isSlash c = false) :
    ∃ init l, a.splitOnP isSlash = init ++ [l] ∧ (a ++ e).splitOnP isSlash = init ++ [l ++ e] := by
  induction a with
  | nil => exact ⟨[], [], by simp, by simpa using List.splitOnP_eq_singleton he⟩
  | cons c a ih =>
    obtain ⟨init, l, hsplit, happend⟩ := ih
    rw [List.cons_append, List.splitOnP_cons_eq_if_modifyHead, List.splitOnP_cons_eq_if_modifyHead, hsplit, happend]
    split
    · exact ⟨[] :: init, l, rfl, rfl⟩
    · cases init with
      | nil => exact ⟨[], c :: l, rfl, rfl⟩
      | cons p init => exact ⟨(c :: p) :: init, l, rfl, rfl⟩

end Url

/-!
# Where a reference leads

The origin that a URL parser makes of a reference on a page of a site with a special scheme, such as `https`. A slash can be of either
kind there, and two of them begin the name of a host. What an authority says, and what a text with a scheme of its own denotes, are
parameters.
-/

namespace Url

structure Origin where
  scheme : List Char
  host : List Char
  port : ℕ
  deriving DecidableEq

structure Hosts where
  /-- Host and port. `none` where the authority is no valid one. -/
  authority : List Char → Option (List Char × ℕ)
  absolute : Origin → List Char → Option Origin

/-- What the parser reads: the edges are trimmed, tabs and newlines are dropped. -/
def cleaned (text : List Char) : List Char := visible ((text.dropWhile isEdge).rdropWhile isEdge)

def isSchemeChar (c : Char) : Bool := c.isAlphanum || c = '+' || c = '-' || c = '.'

def hasScheme : List Char → Bool
  | [] => false
  | c :: cs => c.isAlpha && (cs.dropWhile isSchemeChar).head? = some ':'

/-- Slashes before it are ignored. -/
def authorityText (cs : List Char) : List Char := (cs.dropWhile isSlash).takeWhile fun c => !(isSlash c || isMark c)

/-- The origin of a reference on a page of the origin `base`. `none` where it is no valid reference. -/
def originOf (hosts : Hosts) (base : Origin) (text : List Char) : Option Origin :=
  let input := cleaned text
  if hasScheme input then hosts.absolute base input
  else match input with
    | c :: d :: rest =>
      if isSlash c && isSlash d then (hosts.authority (authorityText rest)).map fun h => ⟨base.scheme, h.1, h.2⟩ else some base
    | _ => some base

section

variable {hosts : Hosts} {base : Origin}

theorem cleaned_slash (cs : List Char) : cleaned ('/' :: cs) = '/' :: visible (cs.rdropWhile isEdge) := by
  have hstart : ('/' :: cs).dropWhile isEdge = '/' :: cs := List.dropWhile_cons_of_neg (by decide)
  have hend : ('/' :: cs).rdropWhile isEdge = '/' :: cs.rdropWhile isEdge := rdropWhile_append_cons (a := []) (by decide)
  unfold cleaned
  rw [hstart, hend]
  exact List.filter_cons_of_pos (by decide)

theorem hasScheme_slash (cs : List Char) : hasScheme ('/' :: cs) = false := rfl

/-- With a slash of either kind behind the first one, the reference names a host. -/
theorem originOf_authority {cs rest : List Char} {d : Char} (h : visible (cs.rdropWhile isEdge) = d :: rest)
    (hd : isSlash d = true) :
    originOf hosts base ('/' :: cs) = (hosts.authority (authorityText rest)).map fun h => ⟨base.scheme, h.1, h.2⟩ := by
  unfold originOf
  dsimp only
  rw [cleaned_slash, h, hasScheme_slash, if_neg Bool.false_ne_true]
  exact if_pos (by rw [hd]; rfl)

theorem originOf_path {cs : List Char} (h : ∀ d ∈ (visible (cs.rdropWhile isEdge)).head?, isSlash d = false) :
    originOf hosts base ('/' :: cs) = some base := by
  unfold originOf
  dsimp only
  rw [cleaned_slash, hasScheme_slash, if_neg Bool.false_ne_true]
  cases hcs : visible (cs.rdropWhile isEdge) with
  | nil => rfl
  | cons d rest =>
    rw [hcs] at h
    exact if_neg (by simp [h d rfl])

theorem map_authority_eq_some_iff {cs : List Char} :
    (hosts.authority cs).map (fun h => (⟨base.scheme, h.1, h.2⟩ : Origin)) = some base ↔
      hosts.authority cs = some (base.host, base.port) := by
  rw [Option.map_eq_some_iff]
  constructor
  · rintro ⟨h, hauthority, heq⟩
    rw [hauthority, ← heq]
  · intro hauthority
    exact ⟨_, hauthority, rfl⟩

end

end Url
