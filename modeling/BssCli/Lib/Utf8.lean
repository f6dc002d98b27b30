import BssCli.Lib.Text

/-!
# Text in bytes

A text is the bytes of its characters one after the other. It can be cut where a character
ends, and nowhere else. Bytes that are no text become one, with a replacement character for
each part that does not fit.
-/

namespace Utf8

def isCont (b : UInt8) : Bool := 0x80 ≤ b.toNat && b.toNat ≤ 0xBF

/-- The bytes of a character: one that starts it, and those that go on. -/
def Whole (p : List UInt8) : Prop := ∃ lead rest, p = lead :: rest ∧ isCont lead = false ∧ ∀ b ∈ rest, isCont b = true

/-! ## Where a text can be cut -/

/-- `is_char_boundary` -/
def isCharBoundary (s : List UInt8) (i : ℕ) : Bool :=
  i = 0 || match s[i]? with
    | some b => !(isCont b)
    | none => i = s.length

/-- `&s[..n]`, and `none` where it panics. -/
def sliceTo (s : List UInt8) (n : ℕ) : Option (List UInt8) := if isCharBoundary s n then some (s.take n) else none

/-- `&s[n..]`. -/
def sliceFrom (s : List UInt8) (n : ℕ) : Option (List UInt8) := if isCharBoundary s n then some (s.drop n) else none

theorem boundary_inside {p rest : List UInt8} (hp : Whole p) {n : ℕ} (hpos : 0 < n) (hlt : n < p.length) :
    isCharBoundary (p ++ rest) n = false := by
  obtain ⟨lead, tail, rfl, -, htail⟩ := hp
  obtain ⟨m, rfl⟩ : ∃ m, n = m + 1 := ⟨n - 1, by omega⟩
  have hm : m < tail.length := by simpa using hlt
  unfold isCharBoundary
  rw [List.cons_append, List.getElem?_cons_succ, List.getElem?_append_left hm, List.getElem?_eq_getElem hm]
  simp [htail _ (List.getElem_mem hm)]

theorem boundary_beyond {p rest : List UInt8} {n : ℕ} (hrest : ∀ b ∈ rest.head?, isCont b = false)
    (hle : p.length ≤ n) : isCharBoundary (p ++ rest) n = isCharBoundary rest (n - p.length) := by
  obtain ⟨m, rfl⟩ : ∃ m, n = p.length + m := ⟨n - p.length, by omega⟩
  unfold isCharBoundary
  rw [List.getElem?_append_right (by omega), Nat.add_sub_cancel_left, List.length_append]
  cases m with
  | succ m => simp
  | zero =>
    cases rest with
    | nil => simp
    | cons b rest => simp [hrest b rfl]

theorem head?_flatten {ps : List (List UInt8)} (h : ∀ p ∈ ps, Whole p) : ∀ b ∈ ps.flatten.head?, isCont b = false := by
  cases ps with
  | nil => simp
  | cons p ps =>
    obtain ⟨lead, tail, rfl, hlead, -⟩ := h p (List.mem_cons_self ..)
    intro b hb
    obtain rfl : lead = b := by simpa using hb
    exact hlead

/-- A cut is a boundary exactly when whole characters stand before it. -/
theorem boundary_iff {ps : List (List UInt8)} (h : ∀ p ∈ ps, Whole p) (n : ℕ) :
    isCharBoundary ps.flatten n = true ↔ ∃ k, (ps.take k).flatten.length = n := by
  induction ps generalizing n with
  | nil => simp [isCharBoundary, eq_comm]
  | cons p ps ih =>
    have hp : Whole p := h p (List.mem_cons_self ..)
    have hps : ∀ q ∈ ps, Whole q := fun q hq => h q (List.mem_cons_of_mem _ hq)
    rw [List.flatten_cons]
    by_cases hle : p.length ≤ n
    · rw [boundary_beyond (head?_flatten hps) hle, ih hps]
      constructor
      · rintro ⟨k, hk⟩
        exact ⟨k + 1, by rw [List.take_succ_cons, List.flatten_cons, List.length_append]; omega⟩
      · rintro ⟨k, hk⟩
        have hpos : 0 < p.length := by
          obtain ⟨lead, tail, rfl, -⟩ := hp
          exact Nat.succ_pos _
        cases k with
        | zero =>
          simp only [List.take_zero, List.flatten_nil, List.length_nil] at hk
          omega
        | succ k =>
          rw [List.take_succ_cons, List.flatten_cons, List.length_append] at hk
          exact ⟨k, by omega⟩
    · rcases Nat.eq_zero_or_pos n with rfl | hpos
      · exact iff_of_true rfl ⟨0, rfl⟩
      · rw [boundary_inside hp hpos (by omega)]
        refine iff_of_false Bool.false_ne_true ?_
        rintro ⟨k, hk⟩
        cases k with
        | zero => simp at hk; omega
        | succ k =>
          rw [List.take_succ_cons, List.flatten_cons, List.length_append] at hk
          omega

/-- A text of one-byte characters can be cut anywhere. -/
theorem boundary_ascii {s : List UInt8} (h : ∀ b ∈ s, isCont b = false) {n : ℕ} (hle : n ≤ s.length) :
    isCharBoundary s n = true := by
  unfold isCharBoundary
  cases hb : s[n]? with
  | none =>
    have := List.getElem?_eq_none_iff.mp hb
    simp [show n = s.length by omega]
  | some b => simp [h b (List.mem_of_getElem? hb)]

/-! ## The characters of a text -/

theorem isCont_ofNat {n : ℕ} (hlow : 0x80 ≤ n) (hhigh : n ≤ 0xBF) : isCont (UInt8.ofNat n) = true := by
  have hn : n % 2 ^ 8 = n := Nat.mod_eq_of_lt (by omega)
  simp only [isCont, UInt8.toNat_ofNat', hn, Bool.and_eq_true, decide_eq_true_eq]
  exact ⟨hlow, hhigh⟩

theorem not_isCont_ofNat {n : ℕ} (h : n < 0x80 ∨ 0xC0 ≤ n) (hhigh : n < 256) : isCont (UInt8.ofNat n) = false := by
  have hn : n % 2 ^ 8 = n := Nat.mod_eq_of_lt (by omega)
  simp only [isCont, UInt8.toNat_ofNat', hn, Bool.and_eq_false_iff, decide_eq_false_iff_not]
  omega

theorem whole_utf8EncodeChar (c : Char) : Whole (String.utf8EncodeChar c) := by
  have hc : c.val.toNat < 0x110000 := by
    have := c.valid
    rcases this with h | h
    · exact h.trans (by decide)
    · exact h.2
  unfold String.utf8EncodeChar
  dsimp only
  split
  · exact ⟨_, [], rfl, not_isCont_ofNat (by omega) (by omega), by simp⟩
  · split
    · refine ⟨_, _, rfl, not_isCont_ofNat (by omega) (by omega), ?_⟩
      simp only [List.mem_cons, List.not_mem_nil, or_false, forall_eq]
      exact isCont_ofNat (by omega) (by omega)
    · split
      · refine ⟨_, _, rfl, not_isCont_ofNat (by omega) (by omega), ?_⟩
        simp only [List.mem_cons, List.not_mem_nil, or_false, forall_eq_or_imp, forall_eq]
        exact ⟨isCont_ofNat (by omega) (by omega), isCont_ofNat (by omega) (by omega)⟩
      · refine ⟨_, _, rfl, not_isCont_ofNat (by omega) (by omega), ?_⟩
        simp only [List.mem_cons, List.not_mem_nil, or_false, forall_eq_or_imp, forall_eq]
        exact ⟨isCont_ofNat (by omega) (by omega), isCont_ofNat (by omega) (by omega),
          isCont_ofNat (by omega) (by omega)⟩

/-! ## From bytes to a text -/

/-- How many bytes the character has that this byte starts, and 0 where it starts none. -/
def width (lead : UInt8) : ℕ :=
  if lead.toNat < 0x80 then 1 else if lead.toNat < 0xC2 then 0 else if lead.toNat < 0xE0 then 2
  else if lead.toNat < 0xF0 then 3 else if lead.toNat < 0xF5 then 4 else 0

/-- The second byte of a character that this byte starts. -/
def isSecond (lead b : UInt8) : Bool :=
  if lead.toNat = 0xE0 then 0xA0 ≤ b.toNat && b.toNat ≤ 0xBF
  else if lead.toNat = 0xED then 0x80 ≤ b.toNat && b.toNat ≤ 0x9F
  else if lead.toNat = 0xF0 then 0x90 ≤ b.toNat && b.toNat ≤ 0xBF
  else if lead.toNat = 0xF4 then 0x80 ≤ b.toNat && b.toNat ≤ 0x8F
  else isCont b

/-- The byte goes on with a character that has begun with these. -/
def goesOn (lead : UInt8) (rest : List UInt8) (b : UInt8) : Bool := if rest = [] then isSecond lead b else isCont b

/-- U+FFFD. -/
def replacement : List UInt8 := [0xEF, 0xBF, 0xBD]

/-- The characters so far, and the start of one that is not complete. -/
structure Scan where
  done : List (List UInt8)
  pending : List UInt8

/-- A byte between characters. -/
def Scan.start (done : List (List UInt8)) (b : UInt8) : Scan :=
  if width b = 1 then ⟨done ++ [[b]], []⟩
  else if width b = 0 then ⟨done ++ [replacement], []⟩
  else ⟨done, [b]⟩

/-- The byte goes on with the character, or stands for the next one. -/
def Scan.feed (s : Scan) (b : UInt8) : Scan :=
  match s.pending with
  | [] => .start s.done b
  | lead :: rest =>
    if goesOn lead rest b then
      if rest.length + 2 = width lead then ⟨s.done ++ [s.pending ++ [b]], []⟩ else ⟨s.done, s.pending ++ [b]⟩
    else .start (s.done ++ [replacement]) b

def Scan.finish (s : Scan) : List (List UInt8) := if s.pending = [] then s.done else s.done ++ [replacement]

/-- `String::from_utf8_lossy`, character by character. -/
def lossyChars (bs : List UInt8) : List (List UInt8) := (bs.foldl Scan.feed ⟨[], []⟩).finish

def lossy (bs : List UInt8) : List UInt8 := (lossyChars bs).flatten

/-- What is done is whole, and what is pending may still become so. -/
structure Scan.Good (s : Scan) : Prop where
  done : ∀ p ∈ s.done, Whole p
  pending : s.pending = [] ∨ Whole s.pending

theorem isCont_of_isSecond {lead b : UInt8} (h : isSecond lead b = true) : isCont b = true := by
  unfold isSecond at h
  unfold isCont at h ⊢
  split_ifs at h
  all_goals
    simp only [Bool.and_eq_true, decide_eq_true_eq] at h ⊢
    omega

theorem isCont_of_goesOn {lead b : UInt8} {rest : List UInt8} (h : goesOn lead rest b = true) : isCont b = true := by
  unfold goesOn at h
  split at h
  · exact isCont_of_isSecond h
  · exact h

theorem not_isCont_of_width {b : UInt8} (h : width b ≠ 0) : isCont b = false := by
  unfold width at h
  simp only [isCont, Bool.and_eq_false_iff, decide_eq_false_iff_not]
  split_ifs at h
  all_goals omega

theorem whole_replacement : Whole replacement := ⟨0xEF, [0xBF, 0xBD], rfl, by decide, by simp [isCont]⟩

theorem Scan.start_good {done : List (List UInt8)} (h : ∀ p ∈ done, Whole p) (b : UInt8) : (Scan.start done b).Good := by
  have hconcat : ∀ q, Whole q → ∀ p ∈ done ++ [q], Whole p := by
    intro q hq p hp
    rcases List.mem_append.mp hp with hp | hp
    · exact h p hp
    · exact List.mem_singleton.mp hp ▸ hq
  unfold Scan.start
  split
  · rename_i hone
    have hlead := not_isCont_of_width (b := b) (by omega)
    exact ⟨hconcat _ ⟨b, [], rfl, hlead, by simp⟩, Or.inl rfl⟩
  · split
    · exact ⟨hconcat _ whole_replacement, Or.inl rfl⟩
    · rename_i hzero
      exact ⟨h, Or.inr ⟨b, [], rfl, not_isCont_of_width hzero, by simp⟩⟩

theorem Scan.feed_good {s : Scan} (h : s.Good) (b : UInt8) : (s.feed b).Good := by
  have hconcat : ∀ q, Whole q → ∀ p ∈ s.done ++ [q], Whole p := by
    intro q hq p hp
    rcases List.mem_append.mp hp with hp | hp
    · exact h.done p hp
    · exact List.mem_singleton.mp hp ▸ hq
  unfold Scan.feed
  split
  · exact Scan.start_good h.done b
  · rename_i lead rest hpending
    split
    · rename_i hnext
      have hb : isCont b = true := isCont_of_goesOn hnext
      have hwhole : Whole (s.pending ++ [b]) := by
        obtain ⟨lead', rest', heq, hlead, hrest⟩ := h.pending.resolve_left (by simp [hpending])
        refine ⟨lead', rest' ++ [b], by rw [heq, List.cons_append], hlead, fun c hc => ?_⟩
        rcases List.mem_append.mp hc with hc | hc
        · exact hrest c hc
        · exact List.mem_singleton.mp hc ▸ hb
      split
      · exact ⟨hconcat _ hwhole, Or.inl rfl⟩
      · exact ⟨h.done, Or.inr hwhole⟩
    · exact Scan.start_good (hconcat _ whole_replacement) b

theorem foldl_feed_good (bs : List UInt8) {s : Scan} (h : s.Good) : (bs.foldl Scan.feed s).Good := by
  induction bs generalizing s with
  | nil => exact h
  | cons b bs ih => exact ih (Scan.feed_good h b)

/-- Every character of the text is whole. -/
theorem whole_lossyChars (bs : List UInt8) : ∀ p ∈ lossyChars bs, Whole p := by
  have hgood := foldl_feed_good bs (s := ⟨[], []⟩) ⟨by simp, Or.inl rfl⟩
  unfold lossyChars Scan.finish
  split
  · exact hgood.done
  · intro p hp
    rcases List.mem_append.mp hp with hp | hp
    · exact hgood.done p hp
    · exact List.mem_singleton.mp hp ▸ whole_replacement

/-- Bytes below 0x80 are characters of their own. -/
theorem foldl_feed_ascii {bs : List UInt8} (h : ∀ b ∈ bs, b.toNat < 0x80) (done : List (List UInt8)) :
    bs.foldl Scan.feed ⟨done, []⟩ = ⟨done ++ bs.map fun b => [b], []⟩ := by
  induction bs generalizing done with
  | nil => simp
  | cons b bs ih =>
    have hb : width b = 1 := by
      unfold width
      rw [if_pos (h b (List.mem_cons_self ..))]
    have hfeed : Scan.feed ⟨done, []⟩ b = ⟨done ++ [[b]], []⟩ := by
      show Scan.start done b = _
      rw [Scan.start, if_pos hb]
    rw [List.foldl_cons, hfeed, ih fun c hc => h c (List.mem_cons_of_mem _ hc), List.map_cons, List.append_assoc,
      List.singleton_append]

theorem lossy_ascii {bs : List UInt8} (h : ∀ b ∈ bs, b.toNat < 0x80) : lossy bs = bs := by
  unfold lossy lossyChars
  rw [foldl_feed_ascii h, Scan.finish, if_pos rfl, List.nil_append, ← List.flatMap_def, List.flatMap_singleton']

/-! ## Characters stay -/

theorem toNat_ofNat_of_lt {n : ℕ} (h : n < 256) : (UInt8.ofNat n).toNat = n := by
  rw [UInt8.toNat_ofNat']
  exact Nat.mod_eq_of_lt h

theorem Scan.feed_lead {done : List (List UInt8)} {b : UInt8} (hzero : width b ≠ 0) (hone : width b ≠ 1) :
    Scan.feed ⟨done, []⟩ b = ⟨done, [b]⟩ := by
  show Scan.start done b = _
  rw [Scan.start, if_neg hone, if_neg hzero]

theorem Scan.feed_next {done : List (List UInt8)} {lead b : UInt8} {rest : List UInt8} (h : goesOn lead rest b = true)
    (hlen : rest.length + 2 ≠ width lead) : Scan.feed ⟨done, lead :: rest⟩ b = ⟨done, lead :: rest ++ [b]⟩ := by
  unfold Scan.feed
  dsimp only
  rw [if_pos h, if_neg hlen]

theorem Scan.feed_last {done : List (List UInt8)} {lead b : UInt8} {rest : List UInt8} (h : goesOn lead rest b = true)
    (hlen : rest.length + 2 = width lead) : Scan.feed ⟨done, lead :: rest⟩ b = ⟨done ++ [lead :: rest ++ [b]], []⟩ := by
  unfold Scan.feed
  dsimp only
  rw [if_pos h, if_pos hlen]

/-- The bytes that go on with a character, up to its last one. -/
theorem Scan.foldl_feed_rest {done : List (List UInt8)} {lead : UInt8} {p r : List UInt8} (hne : r ≠ [])
    (hlen : p.length + r.length + 1 = width lead) (h : ∀ q b r', r = q ++ b :: r' → goesOn lead (p ++ q) b = true) :
    r.foldl Scan.feed ⟨done, lead :: p⟩ = ⟨done ++ [lead :: (p ++ r)], []⟩ := by
  induction r generalizing p with
  | nil => exact absurd rfl hne
  | cons b r ih =>
    have hb : goesOn lead p b = true := by simpa using h [] b r rfl
    rw [List.foldl_cons]
    rw [List.length_cons] at hlen
    by_cases hr : r = []
    · rw [hr] at hlen ⊢
      rw [Scan.feed_last hb (by simpa using hlen)]
      rfl
    · have hpos := List.length_pos_iff.mpr hr
      rw [Scan.feed_next hb (by omega), List.cons_append, ih hr (by simp; omega)]
      · simp
      · intro q c r' hq
        simpa using h (b :: q) c r' (by rw [hq]; rfl)

/-- A lead byte and what goes on with it. -/
theorem foldl_feed_whole {done : List (List UInt8)} {lead b : UInt8} {r : List UInt8} (hlen : r.length + 2 = width lead)
    (hb : isSecond lead b = true) (hr : ∀ c ∈ r, isCont c = true) :
    (lead :: b :: r).foldl Scan.feed ⟨done, []⟩ = ⟨done ++ [lead :: b :: r], []⟩ := by
  rw [List.foldl_cons, Scan.feed_lead (by omega) (by omega), Scan.foldl_feed_rest (List.cons_ne_nil _ _) (by simp; omega)]
  · rfl
  · intro q c r' hq
    unfold goesOn
    rw [List.nil_append]
    split
    · rename_i hnil
      rw [hnil] at hq
      exact (List.cons.inj hq).1 ▸ hb
    · rename_i hne
      obtain ⟨d, q, rfl⟩ := List.exists_cons_of_ne_nil hne
      exact hr c ((List.cons.inj hq).2 ▸ by simp)

/-- A character is scanned as one. -/
theorem foldl_feed_char (c : Char) (done : List (List UInt8)) :
    (String.utf8EncodeChar c).foldl Scan.feed ⟨done, []⟩ = ⟨done ++ [String.utf8EncodeChar c], []⟩ := by
  have hvalid : c.val.toNat < 0xD800 ∨ (0xDFFF < c.val.toNat ∧ c.val.toNat < 0x110000) := c.valid
  unfold String.utf8EncodeChar
  dsimp only
  generalize c.val.toNat = v at *
  have hcont : ∀ k, isCont (UInt8.ofNat (k % 64 + 128)) = true := fun k => isCont_ofNat (by omega) (by omega)
  split
  · have hlead : width (UInt8.ofNat v) = 1 := by
      unfold width
      rw [toNat_ofNat_of_lt (by omega), if_pos (by omega)]
    show Scan.start done _ = _
    rw [Scan.start, if_pos hlead]
  · split
    · apply foldl_feed_whole
      · unfold width
        rw [toNat_ofNat_of_lt (by omega), if_neg (by omega), if_neg (by omega), if_pos (by omega)]
        rfl
      · unfold isSecond
        rw [toNat_ofNat_of_lt (by omega), if_neg (by omega), if_neg (by omega), if_neg (by omega), if_neg (by omega)]
        exact hcont v
      · simp
    · split
      · apply foldl_feed_whole
        · unfold width
          rw [toNat_ofNat_of_lt (by omega), if_neg (by omega), if_neg (by omega), if_neg (by omega), if_pos (by omega)]
          rfl
        · unfold isSecond
          rw [toNat_ofNat_of_lt (by omega), toNat_ofNat_of_lt (by omega)]
          split_ifs
          all_goals first
            | simp only [Bool.and_eq_true, decide_eq_true_eq]; omega
            | exact hcont _
        · simp only [List.mem_singleton, forall_eq]
          exact hcont v
      · apply foldl_feed_whole
        · unfold width
          rw [toNat_ofNat_of_lt (by omega), if_neg (by omega), if_neg (by omega), if_neg (by omega), if_neg (by omega),
            if_pos (by omega)]
          rfl
        · unfold isSecond
          rw [toNat_ofNat_of_lt (by omega), toNat_ofNat_of_lt (by omega)]
          split_ifs
          all_goals first
            | simp only [Bool.and_eq_true, decide_eq_true_eq]; omega
            | exact hcont _
        · simp only [List.mem_cons, List.not_mem_nil, or_false, forall_eq_or_imp, forall_eq]
          exact ⟨hcont _, hcont v⟩

theorem lossyChars_flatMap (cs : List Char) :
    lossyChars (cs.flatMap String.utf8EncodeChar) = cs.map String.utf8EncodeChar := by
  have hscan : ∀ done : List (List UInt8), (cs.flatMap String.utf8EncodeChar).foldl Scan.feed ⟨done, []⟩ =
      ⟨done ++ cs.map String.utf8EncodeChar, []⟩ := by
    induction cs with
    | nil => simp
    | cons c cs ih =>
      intro done
      rw [List.flatMap_cons, List.foldl_append, foldl_feed_char, ih]
      simp
  unfold lossyChars Scan.finish
  rw [hscan]
  rfl

/-- A text stays as it is when its bytes are made a text. -/
theorem lossy_utf8 (cs : List Char) : lossy (Text.utf8 cs) = Text.utf8 cs := by
  unfold lossy Text.utf8
  rw [lossyChars_flatMap, List.flatMap_def]

/-! ## Bytes of a text -/

theorem utf8EncodeChar_ascii {c : Char} (h : c.toNat < 0x80) : String.utf8EncodeChar c = [UInt8.ofNat c.toNat] := by
  have hval : c.val.toNat ≤ 127 := by
    show c.toNat ≤ 127
    omega
  unfold String.utf8EncodeChar
  dsimp only
  rw [if_pos hval]
  rfl

/-- Every other character has at least two bytes, and none of them is ASCII. -/
theorem utf8EncodeChar_wide {c : Char} (h : 0x80 ≤ c.toNat) :
    2 ≤ (String.utf8EncodeChar c).length ∧ ∀ b ∈ String.utf8EncodeChar c, 0x80 ≤ b.toNat := by
  have hval : ¬ c.val.toNat ≤ 127 := by
    show ¬ c.toNat ≤ 127
    omega
  have hvalid : c.val.toNat < 0xD800 ∨ (0xDFFF < c.val.toNat ∧ c.val.toNat < 0x110000) := c.valid
  unfold String.utf8EncodeChar
  dsimp only
  rw [if_neg hval]
  generalize c.val.toNat = v at *
  have hhigh : ∀ k, 0x80 ≤ k → k < 256 → 0x80 ≤ (UInt8.ofNat k).toNat := fun k hk hlt => by
    rw [toNat_ofNat_of_lt hlt]
    exact hk
  split
  · simp only [List.length_cons, List.mem_cons, List.not_mem_nil, or_false, forall_eq_or_imp, forall_eq]
    exact ⟨by simp, hhigh _ (by omega) (by omega), hhigh _ (by omega) (by omega)⟩
  · split
    · simp only [List.length_cons, List.mem_cons, List.not_mem_nil, or_false, forall_eq_or_imp, forall_eq]
      exact ⟨by simp, hhigh _ (by omega) (by omega), hhigh _ (by omega) (by omega), hhigh _ (by omega) (by omega)⟩
    · simp only [List.length_cons, List.mem_cons, List.not_mem_nil, or_false, forall_eq_or_imp, forall_eq]
      exact ⟨by simp, hhigh _ (by omega) (by omega), hhigh _ (by omega) (by omega), hhigh _ (by omega) (by omega),
        hhigh _ (by omega) (by omega)⟩

theorem utf8_injective : Function.Injective Text.utf8 := by
  intro a b h
  have hread : ∀ s : List Char, (Text.utf8 s).toByteArray.utf8Decode? = some s.toArray := by
    intro s
    have hdecode := List.utf8Decode?_utf8Encode (l := s)
    unfold List.utf8Encode at hdecode
    exact hdecode
  have harray : a.toArray = b.toArray := Option.some.inj ((hread a).symm.trans (h ▸ hread b))
  simpa using harray

/-- An ASCII byte is a character of its own. -/
theorem mem_utf8EncodeChar {c : Char} {b : UInt8} (hb : b.toNat < 0x80) (h : b ∈ String.utf8EncodeChar c) : c.toNat = b.toNat := by
  by_cases hc : c.toNat < 0x80
  · rw [utf8EncodeChar_ascii hc, List.mem_singleton] at h
    rw [h, toNat_ofNat_of_lt (by omega)]
  · have hwide := (utf8EncodeChar_wide (by omega)).2 b h
    omega

theorem mem_of_mem_utf8 {cs : List Char} {b : UInt8} {d : Char} (hb : b.toNat < 0x80) (hd : d.toNat = b.toNat)
    (h : b ∈ Text.utf8 cs) : d ∈ cs := by
  obtain ⟨c, hc, hmem⟩ := List.mem_flatMap.mp h
  have heq : c = d := Char.toNat_inj.mp ((mem_utf8EncodeChar hb hmem).trans hd.symm)
  exact heq ▸ hc

/-! ## ASCII -/

def isAscii (b : UInt8) : Bool := b.toNat < 0x80

theorem isAscii_iff_width {b : UInt8} : isAscii b = true ↔ width b = 1 := by
  unfold isAscii width
  rw [decide_eq_true_iff]
  by_cases hb : b.toNat < 0x80
  · simp [hb]
  · rw [if_neg hb]
    split_ifs <;> simp [hb]

theorem isAscii_of_isCont {b : UInt8} (h : isCont b = true) : isAscii b = false := by
  simp only [isCont, Bool.and_eq_true, decide_eq_true_eq] at h
  simp only [isAscii, decide_eq_false_iff_not]
  omega

theorem countP_utf8 (cs : List Char) : (Text.utf8 cs).countP isAscii = cs.countP fun c => c.toNat < 0x80 := by
  induction cs with
  | nil => rfl
  | cons c cs ih =>
    have hcons : Text.utf8 (c :: cs) = String.utf8EncodeChar c ++ Text.utf8 cs := rfl
    rw [hcons, List.countP_append, ih]
    by_cases hc : c.toNat < 0x80
    · have hbyte : isAscii (UInt8.ofNat c.toNat) = true := by
        unfold isAscii
        rw [toNat_ofNat_of_lt (by omega)]
        simpa using hc
      rw [utf8EncodeChar_ascii hc, List.countP_singleton, if_pos hbyte, List.countP_cons_of_pos (by simpa using hc), Nat.add_comm]
    · have hnone : (String.utf8EncodeChar c).countP isAscii = 0 := by
        rw [List.countP_eq_zero]
        intro b hb
        have hwide := (utf8EncodeChar_wide (by omega)).2 b hb
        simp only [isAscii, decide_eq_true_eq]
        omega
      rw [hnone, List.countP_cons_of_neg (by simpa using hc), Nat.zero_add]

theorem Scan.start_countP (done : List (List UInt8)) (b : UInt8) :
    (Scan.start done b).pending.countP isAscii = 0 ∧
      (Scan.start done b).done.flatten.countP isAscii = done.flatten.countP isAscii + [b].countP isAscii := by
  unfold Scan.start
  split
  · exact ⟨rfl, by simp⟩
  · rename_i hwidth
    have hb : isAscii b = false := Bool.eq_false_iff.mpr fun hascii => hwidth (isAscii_iff_width.mp hascii)
    split
    · have hreplacement : replacement.countP isAscii = 0 := by decide
      exact ⟨rfl, by simp [hreplacement, hb]⟩
    · exact ⟨by simp [hb], by simp [hb]⟩

theorem Scan.feed_countP {s : Scan} (h : s.pending.countP isAscii = 0) (b : UInt8) :
    (s.feed b).pending.countP isAscii = 0 ∧
      (s.feed b).done.flatten.countP isAscii = s.done.flatten.countP isAscii + [b].countP isAscii := by
  unfold Scan.feed
  split
  · exact Scan.start_countP _ b
  · rename_i lead rest hpending
    split
    · rename_i hnext
      have hb : isAscii b = false := isAscii_of_isCont (isCont_of_goesOn hnext)
      split
      · exact ⟨rfl, by simp [h, hb]⟩
      · exact ⟨by simp [h, hb], by simp [hb]⟩
    · have hreplacement : replacement.countP isAscii = 0 := by decide
      have hstart := Scan.start_countP (s.done ++ [replacement]) b
      exact ⟨hstart.1, by simpa [hreplacement] using hstart.2⟩

theorem foldl_feed_countP (bs : List UInt8) {s : Scan} (h : s.pending.countP isAscii = 0) :
    (bs.foldl Scan.feed s).pending.countP isAscii = 0 ∧
      (bs.foldl Scan.feed s).done.flatten.countP isAscii = s.done.flatten.countP isAscii + bs.countP isAscii := by
  induction bs generalizing s with
  | nil => exact ⟨h, rfl⟩
  | cons b bs ih =>
    obtain ⟨hpending, hdone⟩ := Scan.feed_countP h b
    obtain ⟨hpending', hdone'⟩ := ih hpending
    refine ⟨hpending', ?_⟩
    have hcons : ([b] ++ bs).countP isAscii = [b].countP isAscii + bs.countP isAscii := List.countP_append
    rw [List.foldl_cons, hdone', hdone, Nat.add_assoc, ← hcons, List.singleton_append]

/-- Every ASCII byte stays, and no other comes in. -/
theorem countP_lossy (bs : List UInt8) : (lossy bs).countP isAscii = bs.countP isAscii := by
  obtain ⟨-, hdone⟩ := foldl_feed_countP bs (s := ⟨[], []⟩) rfl
  have hreplacement : replacement.countP isAscii = 0 := by decide
  unfold lossy lossyChars Scan.finish
  split
  · simpa using hdone
  · rw [List.flatten_append, List.countP_append, hdone]
    simp [hreplacement]

/-! ## A text cut at a byte -/

/-- The text before and after the byte `n`. `none` where `n` is inside a character, or behind the end. -/
def splitAtByte : List Char → ℕ → Option (List Char × List Char)
  | cs, 0 => some ([], cs)
  | [], _ + 1 => none
  | c :: cs, n + 1 =>
    if (String.utf8EncodeChar c).length ≤ n + 1 then
      (splitAtByte cs (n + 1 - (String.utf8EncodeChar c).length)).map fun cut => (c :: cut.1, cut.2)
    else none

theorem length_utf8_cons (c : Char) (cs : List Char) :
    (Text.utf8 (c :: cs)).length = (String.utf8EncodeChar c).length + (Text.utf8 cs).length := by
  unfold Text.utf8
  rw [List.flatMap_cons, List.length_append]

theorem length_utf8EncodeChar_pos (c : Char) : 0 < (String.utf8EncodeChar c).length := by
  obtain ⟨lead, rest, h, -⟩ := whole_utf8EncodeChar c
  rw [h]
  exact Nat.succ_pos _

theorem length_utf8_eq_zero_iff {cs : List Char} : (Text.utf8 cs).length = 0 ↔ cs = [] := by
  cases cs with
  | nil => simp [Text.utf8]
  | cons c cs =>
    have hpos := length_utf8EncodeChar_pos c
    rw [length_utf8_cons]
    exact iff_of_false (by omega) (by simp)

theorem splitAtByte_eq_some_iff {cs a b : List Char} {n : ℕ} :
    splitAtByte cs n = some (a, b) ↔ a ++ b = cs ∧ (Text.utf8 a).length = n := by
  induction cs generalizing a n with
  | nil =>
    cases n with
    | zero =>
      rw [splitAtByte, length_utf8_eq_zero_iff, Option.some.injEq, Prod.mk.injEq, List.append_eq_nil_iff]
      constructor
      · rintro ⟨rfl, rfl⟩
        exact ⟨⟨rfl, rfl⟩, rfl⟩
      · rintro ⟨⟨rfl, rfl⟩, -⟩
        exact ⟨rfl, rfl⟩
    | succ n =>
      refine iff_of_false (by simp [splitAtByte]) ?_
      rintro ⟨hnil, hlen⟩
      rw [(List.append_eq_nil_iff.mp hnil).1] at hlen
      exact absurd hlen (by simp [Text.utf8])
  | cons c cs ih =>
    cases n with
    | zero =>
      rw [splitAtByte, length_utf8_eq_zero_iff, Option.some.injEq, Prod.mk.injEq]
      constructor
      · rintro ⟨rfl, rfl⟩
        exact ⟨rfl, rfl⟩
      · rintro ⟨happend, rfl⟩
        exact ⟨rfl, happend.symm⟩
    | succ n =>
      rw [splitAtByte]
      constructor
      · intro h
        obtain ⟨hle, h⟩ := Option.ite_none_right_eq_some.mp h
        obtain ⟨⟨a', b'⟩, hcut, heq⟩ := Option.map_eq_some_iff.mp h
        obtain ⟨rfl, rfl⟩ := Prod.mk.inj heq
        obtain ⟨rfl, hlen⟩ := ih.mp hcut
        refine ⟨rfl, ?_⟩
        rw [length_utf8_cons]
        dsimp only
        omega
      · rintro ⟨happend, hlen⟩
        cases a with
        | nil => exact absurd hlen (by simp [Text.utf8])
        | cons d a =>
          obtain ⟨rfl, rfl⟩ := List.cons.inj happend
          rw [length_utf8_cons] at hlen
          rw [if_pos (by omega), ih.mpr ⟨rfl, by omega⟩, Option.map_some]

theorem splitAtByte_isSome_iff {cs : List Char} {n : ℕ} :
    (splitAtByte cs n).isSome = true ↔ ∃ a b, a ++ b = cs ∧ (Text.utf8 a).length = n := by
  rw [Option.isSome_iff_exists]
  constructor
  · rintro ⟨⟨a, b⟩, hcut⟩
    exact ⟨a, b, splitAtByte_eq_some_iff.mp hcut⟩
  · rintro ⟨a, b, h⟩
    exact ⟨(a, b), splitAtByte_eq_some_iff.mpr h⟩

theorem isCharBoundary_utf8 (cs : List Char) (n : ℕ) : isCharBoundary (Text.utf8 cs) n = (splitAtByte cs n).isSome := by
  have hwhole : ∀ p ∈ cs.map String.utf8EncodeChar, Whole p := by
    intro p hp
    obtain ⟨c, -, rfl⟩ := List.mem_map.mp hp
    exact whole_utf8EncodeChar c
  rw [Bool.eq_iff_iff, splitAtByte_isSome_iff, Text.utf8, List.flatMap_def, boundary_iff hwhole]
  constructor
  · rintro ⟨k, hk⟩
    refine ⟨cs.take k, cs.drop k, List.take_append_drop .., ?_⟩
    rw [Text.utf8, List.flatMap_def, List.map_take, hk]
  · rintro ⟨a, b, rfl, hlen⟩
    refine ⟨a.length, ?_⟩
    rw [← List.map_take, List.take_left, ← List.flatMap_def]
    exact hlen

/-- The bytes of a cut text are the slices at the same byte. -/
theorem slices_utf8 (cs : List Char) (n : ℕ) :
    sliceTo (Text.utf8 cs) n = (splitAtByte cs n).map (fun cut => Text.utf8 cut.1) ∧
      sliceFrom (Text.utf8 cs) n = (splitAtByte cs n).map fun cut => Text.utf8 cut.2 := by
  unfold sliceTo sliceFrom
  rw [isCharBoundary_utf8]
  cases hcut : splitAtByte cs n with
  | none => exact ⟨rfl, rfl⟩
  | some cut =>
    obtain ⟨rfl, rfl⟩ := splitAtByte_eq_some_iff.mp hcut
    rw [Text.utf8_append, List.take_left, List.drop_left]
    exact ⟨rfl, rfl⟩

end Utf8
