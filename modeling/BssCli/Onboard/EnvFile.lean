import BssCli.Lib.Fields
import BssCli.Lib.Paragraphs

/-!
# The .env file

`onboard.rs` reads the file into a map and writes a map back over it, and `main.rs` puts it into the environment. What is written is
read again, but for values that the quotes do not hold.
-/

open Text

namespace Text

/-! ## Both ends of a text -/

/-- `trim_matches` -/
def strip (p : Char → Bool) (s : List Char) : List Char := (s.dropWhile p).rdropWhile p

theorem strip_sublist (p : Char → Bool) (s : List Char) : (strip p s).Sublist s :=
  (List.rdropWhile_prefix p _).sublist.trans (List.dropWhile_sublist p)

theorem trim_sublist (s : List Char) : (trim s).Sublist s := strip_sublist isWhitespace s

/-- Nothing at either end goes. -/
theorem strip_eq_self_iff {p : Char → Bool} {s : List Char} :
    strip p s = s ↔ (∀ c ∈ s.head?, p c = false) ∧ ∀ c ∈ s.getLast?, p c = false := by
  have hfront : s.dropWhile p = s ↔ ∀ c ∈ s.head?, p c = false := by
    rw [List.dropWhile_eq_self_iff]
    cases s <;> simp
  have hback : s.rdropWhile p = s ↔ ∀ c ∈ s.getLast?, p c = false := by
    rw [List.rdropWhile_eq_self_iff]
    cases s using List.reverseRecOn <;> simp
  rw [← hfront, ← hback]
  constructor
  · intro h
    have hdrop : s.dropWhile p = s := by
      refine (List.dropWhile_sublist p).antisymm ?_
      nth_rewrite 1 [← h]
      exact (List.rdropWhile_prefix p _).sublist
    rw [strip, hdrop] at h
    exact ⟨hdrop, h⟩
  · rintro ⟨hdrop, hrdrop⟩
    rw [strip, hdrop, hrdrop]

theorem trim_eq_self_iff {s : List Char} :
    trim s = s ↔ (∀ c ∈ s.head?, isWhitespace c = false) ∧ ∀ c ∈ s.getLast?, isWhitespace c = false := strip_eq_self_iff

/-- A text with no blank at either end stays, whatever blanks are around it. -/
theorem trim_framed {a m b : List Char} (ha : ∀ c ∈ a, isWhitespace c = true) (hb : ∀ c ∈ b, isWhitespace c = true)
    (hm : trim m = m) : trim (a ++ m ++ b) = m := by
  rw [trim_append_blanks _ hb]
  induction a with
  | nil => exact hm
  | cons c a ih =>
    rw [List.cons_append, trim_cons_blank (ha c List.mem_cons_self)]
    exact ih fun d hd => ha d (List.mem_cons_of_mem c hd)

theorem strip_cons {p : Char → Bool} {c : Char} (h : p c = true) (s : List Char) : strip p (c :: s) = strip p s := by
  rw [strip, List.dropWhile_cons_of_pos h]
  rfl

theorem strip_concat {p : Char → Bool} {c : Char} (h : p c = true) (s : List Char) : strip p (s ++ [c]) = strip p s := by
  unfold strip
  rw [List.dropWhile_append]
  split_ifs with hnil
  · rw [List.isEmpty_iff.mp hnil, List.dropWhile_cons_of_pos h]
    rfl
  · exact List.rdropWhile_concat_pos _ _ _ h

theorem count_strip {p : Char → Bool} {c : Char} (h : p c = false) (s : List Char) : (strip p s).count c = s.count c := by
  have hzero : ∀ t : List Char, (∀ d ∈ t, p d = true) → t.count c = 0 := fun t ht =>
    List.count_eq_zero.mpr fun hc => by simp [ht c hc] at h
  have hfront : (s.dropWhile p).count c = s.count c := by
    conv_rhs => rw [← List.takeWhile_append_dropWhile (p := p) (l := s)]
    rw [List.count_append, hzero _ fun d hd => List.mem_takeWhile_imp hd, Nat.zero_add]
  have hback : ∀ t : List Char, (t.rdropWhile p).count c = t.count c := fun t => by
    conv_rhs => rw [← List.rdropWhile_append_rtakeWhile (p := p) (l := t)]
    rw [List.count_append, hzero _ fun d hd => List.mem_rtakeWhile_imp hd, Nat.add_zero]
  rw [strip, hback, hfront]

/-- A line is read with the blanks it had, but for a carriage return at its end. -/
theorem map_trim_lines {l : List Char} (h : '\n' ∉ l) : (lines (l ++ ['\n'])).map trim = [trim l] := by
  by_cases hcr : l.getLast? = some '\r'
  · obtain ⟨m, rfl⟩ : ∃ m, l = m ++ ['\r'] := ⟨_, (List.dropLast_append_getLast? _ hcr).symm⟩
    rw [List.append_assoc, show ['\r'] ++ ['\n'] = ['\r', '\n'] from rfl, lines_crlf fun hn => h (List.mem_append_left _ hn),
      trim_append_blank m (by decide)]
    rfl
  · rw [lines_singleton h hcr]
    rfl

theorem map_trim_lines_joinLines {ls : List (List Char)} (hne : ls ≠ []) (h : ∀ l ∈ ls, '\n' ∉ l) :
    (lines (joinLines ls ++ ['\n'])).map trim = ls.map trim := by
  induction ls with
  | nil => exact absurd rfl hne
  | cons l ls ih =>
    rw [List.forall_mem_cons] at h
    rcases eq_or_ne ls [] with rfl | hls
    · rw [joinLines_singleton]
      exact map_trim_lines h.1
    · have htext : joinLines (l :: ls) ++ ['\n'] = (l ++ ['\n']) ++ (joinLines ls ++ ['\n']) := by
        rw [joinLines_cons hls]
        simp
      rw [htext, lines_append (.inr ⟨l, rfl⟩), List.map_append, map_trim_lines h.1, ih hls h.2]
      rfl

end Text

namespace BssCli.Onboard

abbrev Env := List (List Char × List Char)

/-! ## Reading -/

/-- The key and the value of a line. A comment has none. -/
def settingOf (raw : List Char) : Option (List Char × List Char) :=
  let line := trim raw
  if line = [] ∨ line.head? = some '#' then none else (splitOnce '=' line).map fun kv => (trim kv.1, trim kv.2)

/-- A value without the quotes around it. -/
def unquote : List Char → List Char
  | [] => []
  | q :: rest => if (q = '"' ∨ q = '\'') ∧ rest.getLast? = some q then rest.dropLast else q :: rest

/-- The last line of a key counts. -/
def readEnvFile (text : List Char) : Env :=
  ((lines text).filterMap settingOf).foldl (fun env kv => Fields.insert env kv.1 (unquote kv.2)) []

def bootValue (v : List Char) : List Char := strip (· = '\'') (strip (· = '"') v)

/-- What is set stays, so the first line of a key counts. -/
def setVar (env : Env) (kv : List Char × List Char) : Env :=
  if kv.1 ≠ [] ∧ Fields.get env kv.1 = none then Fields.insert env kv.1 (bootValue kv.2) else env

def bootstrapEnvFromDotenv (env : Env) (text : List Char) : Env := ((lines text).filterMap settingOf).foldl setVar env

/-! ## Writing -/

def needsQuotes (v : List Char) : Bool := v.any fun c => c ∈ [' ', '\t', '#', '$', '\'', '`']

def escapeBackslash (c : Char) : List Char := if c = '\\' then ['\\', '\\'] else [c]

def escapeQuote (c : Char) : List Char := if c = '"' then ['\\', '"'] else [c]

def escaped (v : List Char) : List Char := (v.flatMap escapeBackslash).flatMap escapeQuote

def quoteIfNeeded (v : List Char) : List Char := if needsQuotes v then '"' :: escaped v ++ ['"'] else v

def settingLine (key v : List Char) : List Char := key ++ '=' :: quoteIfNeeded v

/-- A comment as it is, a setting with its value, and nothing for a key that is gone. -/
def keptLine (env : Env) (raw : List Char) : Option (List Char) :=
  match settingOf raw with
  | none => some raw
  | some (key, _) => (Fields.get env key).map (settingLine key)

def banner : List Char := "# Added by `bss onboard` (v0.14+)".toList

def newKeys (env : Env) (existing : List Char) : Env :=
  env.filter fun kv => kv.1 ∉ ((lines existing).filterMap settingOf).map Prod.fst

def addedLines (added : Env) : List (List Char) :=
  if added = [] then [] else [] :: banner :: added.map fun kv => settingLine kv.1 kv.2

def writtenLines (existing : List Char) (env : Env) : List (List Char) :=
  (lines existing).filterMap (keptLine env) ++ addedLines (newKeys env existing)

/-- The text of the file. -/
def writeEnvFile (existing : Option (List Char)) (env : Env) : List Char :=
  joinLines (writtenLines (existing.getD []) env) ++ ['\n']

/-! ## Lines -/

/-- A key that a line can hold. -/
structure KeyOk (k : List Char) : Prop where
  trimmed : trim k = k
  noEquals : '=' ∉ k
  oneLine : '\n' ∉ k
  noComment : k.head? ≠ some '#'

theorem settingOf_trim (l : List Char) : settingOf (trim l) = settingOf l := by
  unfold settingOf
  rw [trim_trim]

theorem filterMap_settingOf_trim (ls : List (List Char)) : (ls.map trim).filterMap settingOf = ls.filterMap settingOf := by
  rw [List.filterMap_map]
  exact List.filterMap_congr fun l _ => settingOf_trim l

theorem exists_trimEnd (q : List Char) : ∃ b, (∀ c ∈ b, isWhitespace c = true) ∧ q = trimEnd q ++ b :=
  ⟨q.rtakeWhile isWhitespace, fun _ hc => List.mem_rtakeWhile_imp hc, List.rdropWhile_append_rtakeWhile.symm⟩

theorem trim_trimEnd (q : List Char) : trim (trimEnd q) = trim q := by
  obtain ⟨b, hb, hq⟩ := exists_trimEnd q
  nth_rewrite 2 [hq]
  rw [trim_append_blanks _ hb]

theorem trimEnd_cons {c : Char} (h : isWhitespace c = false) (a q : List Char) : trimEnd (a ++ c :: q) = a ++ c :: trimEnd q := by
  unfold trimEnd
  induction q using List.reverseRecOn with
  | nil => exact List.rdropWhile_concat_neg _ _ _ (by simp [h])
  | append_singleton q d ih =>
    rw [← List.cons_append, ← List.append_assoc, List.rdropWhile_concat, List.rdropWhile_concat, ih]
    split_ifs <;> simp

theorem trim_setting {k : List Char} (hk : trim k = k) (q : List Char) : trim (k ++ '=' :: q) = k ++ '=' :: trimEnd q := by
  have hfront : (k ++ '=' :: q).dropWhile isWhitespace = k ++ '=' :: q := by
    cases k with
    | nil => rfl
    | cons c k => exact List.dropWhile_cons_of_neg (by simp [(trim_eq_self_iff.mp hk).1 c rfl])
  rw [trim_eq_rdropWhile, hfront]
  exact trimEnd_cons (by decide) k q

theorem settingOf_line {k : List Char} (h : KeyOk k) (q : List Char) : settingOf (k ++ '=' :: q) = some (k, trim q) := by
  have hhead : (k ++ '=' :: trimEnd q).head? ≠ some '#' := by
    cases k with
    | nil => simp
    | cons c k => exact h.noComment
  unfold settingOf
  dsimp only
  rw [trim_setting h.trimmed, if_neg (by simpa using hhead), splitOnce_append h.noEquals, splitOnce, if_pos rfl, Option.map_some,
    Option.map_some, List.append_nil, h.trimmed, trim_trimEnd]

theorem not_mem_of_splitOnce {sep : Char} {cs a b : List Char} (h : splitOnce sep cs = some (a, b)) : sep ∉ a := by
  induction cs generalizing a b with
  | nil => cases h
  | cons c cs ih =>
    unfold splitOnce at h
    split_ifs at h with hc
    · obtain ⟨rfl, -⟩ := Prod.mk.inj (Option.some.inj h)
      exact List.not_mem_nil
    · obtain ⟨p, hp, heq⟩ := Option.map_eq_some_iff.mp h
      obtain ⟨rfl, -⟩ := Prod.mk.inj heq
      rw [List.mem_cons, not_or]
      exact ⟨fun heq => hc heq.symm, ih hp⟩

/-- What a line says can be a line again. -/
theorem keyOk_of_settingOf {raw k v : List Char} (hraw : '\n' ∉ raw) (h : settingOf raw = some (k, v)) :
    KeyOk k ∧ '\n' ∉ v := by
  unfold settingOf at h
  dsimp only at h
  split_ifs at h with hcomment
  rw [not_or] at hcomment
  obtain ⟨⟨k₀, v₀⟩, hsplit, heq⟩ := Option.map_eq_some_iff.mp h
  obtain ⟨rfl, rfl⟩ := Prod.mk.inj heq
  have hline := splitOnce_eq hsplit
  have hsub : ∀ c ∈ trim raw, c ∈ raw := fun c hc => (trim_sublist raw).subset hc
  refine ⟨⟨trim_trim k₀, fun hc => not_mem_of_splitOnce hsplit ((trim_sublist k₀).subset hc), fun hc => ?_, ?_⟩, fun hc => ?_⟩
  · refine hraw (hsub _ ?_)
    rw [hline]
    exact List.mem_append_left _ ((trim_sublist k₀).subset hc)
  · cases k₀ with
    | nil => nofun
    | cons c k₀ =>
      have hhead : (trim raw).head? = some c := by
        rw [hline]
        rfl
      have hfront : (c :: k₀).dropWhile isWhitespace = c :: k₀ :=
        List.dropWhile_cons_of_neg (by simp [(trim_eq_self_iff.mp (trim_trim raw)).1 c hhead])
      have hprefix : trim (c :: k₀) <+: c :: k₀ := by
        rw [trim_eq_rdropWhile, hfront]
        exact List.rdropWhile_prefix ..
      intro hk
      obtain ⟨rest, hrest⟩ := hprefix
      cases hcut : trim (c :: k₀) with
      | nil =>
        rw [hcut] at hk
        cases hk
      | cons d t =>
        rw [hcut] at hk hrest
        obtain rfl := (List.cons.inj hrest).1
        rw [hhead] at hcomment
        exact hcomment.2 hk
  · refine hraw (hsub _ ?_)
    rw [hline]
    exact List.mem_append_right _ (List.mem_cons_of_mem _ ((trim_sublist v₀).subset hc))

/-! ## What is written -/

/-- A map that came from lines. -/
structure EnvOk (env : Env) : Prop where
  nodup : (env.map Prod.fst).Nodup
  keys : ∀ kv ∈ env, KeyOk kv.1
  values : ∀ kv ∈ env, '\n' ∉ kv.2

theorem mem_escapeBackslash {c d : Char} (h : c ∈ escapeBackslash d) : c = d ∨ c = '\\' := by
  unfold escapeBackslash at h
  split_ifs at h <;> simp_all

theorem mem_escapeQuote {c d : Char} (h : c ∈ escapeQuote d) : c = d ∨ c = '\\' := by
  unfold escapeQuote at h
  split_ifs at h <;> simp_all [or_comm]

theorem mem_escaped {c : Char} {v : List Char} (h : c ∈ escaped v) : c ∈ v ∨ c = '\\' := by
  obtain ⟨d, hd, hc⟩ := List.mem_flatMap.mp h
  obtain ⟨e, he, hd⟩ := List.mem_flatMap.mp hd
  rcases mem_escapeQuote hc with rfl | rfl
  · rcases mem_escapeBackslash hd with rfl | rfl
    · exact .inl he
    · exact .inr rfl
  · exact .inr rfl

theorem newline_not_mem_settingLine {k v : List Char} (hk : KeyOk k) (hv : '\n' ∉ v) : '\n' ∉ settingLine k v := by
  unfold settingLine quoteIfNeeded
  rw [List.mem_append, List.mem_cons]
  rintro (h | h | h)
  · exact hk.oneLine h
  · exact absurd h (by decide)
  · split_ifs at h
    · rw [List.cons_append, List.mem_cons, List.mem_append, List.mem_singleton] at h
      rcases h with h | h | h
      · exact absurd h (by decide)
      · exact (mem_escaped h).elim hv (by decide)
      · exact absurd h (by decide)
    · exact hv h

section

variable {existing : List Char} {env : Env}

theorem settingOf_banner : settingOf banner = none := by
  unfold settingOf
  rw [if_pos (.inr (by decide))]

theorem settingOf_settingLine {k : List Char} (hk : KeyOk k) (v : List Char) :
    settingOf (settingLine k v) = some (k, trim (quoteIfNeeded v)) := settingOf_line hk _

theorem newline_not_mem_writtenLines (h : EnvOk env) : ∀ l ∈ writtenLines existing env, '\n' ∉ l := by
  intro l hl
  rcases List.mem_append.mp hl with hl | hl
  · obtain ⟨raw, hraw, hkept⟩ := List.mem_filterMap.mp hl
    unfold keptLine at hkept
    split at hkept
    · obtain rfl := Option.some.inj hkept
      exact not_mem_of_mem_lines hraw
    · rename_i key w hsetting
      obtain ⟨v, hv, rfl⟩ := Option.map_eq_some_iff.mp hkept
      exact newline_not_mem_settingLine (keyOk_of_settingOf (not_mem_of_mem_lines hraw) hsetting).1 (h.values _ (Fields.mem_of_get hv))
  · unfold addedLines at hl
    split_ifs at hl
    · exact absurd hl List.not_mem_nil
    · rcases List.mem_cons.mp hl with rfl | hl
      · exact List.not_mem_nil
      · rcases List.mem_cons.mp hl with rfl | hl
        · decide
        · obtain ⟨kv, hkv, rfl⟩ := List.mem_map.mp hl
          have hmem := (List.mem_filter.mp hkv).1
          exact newline_not_mem_settingLine (h.keys kv hmem) (h.values kv hmem)

/-- A line that is kept has the value of the map. -/
theorem mem_settings_kept {k w : List Char} :
    (k, w) ∈ ((lines existing).filterMap (keptLine env)).filterMap settingOf ↔
      k ∈ ((lines existing).filterMap settingOf).map Prod.fst ∧ ∃ v, Fields.get env k = some v ∧ w = trim (quoteIfNeeded v) := by
  rw [List.filterMap_filterMap, List.mem_filterMap]
  constructor
  · rintro ⟨raw, hraw, hkept⟩
    obtain ⟨l, hl, hsetting⟩ := Option.bind_eq_some_iff.mp hkept
    unfold keptLine at hl
    split at hl
    · rename_i hnone
      obtain rfl := Option.some.inj hl
      rw [hnone] at hsetting
      cases hsetting
    · rename_i key w' hsome
      obtain ⟨v, hv, rfl⟩ := Option.map_eq_some_iff.mp hl
      rw [settingOf_settingLine (keyOk_of_settingOf (not_mem_of_mem_lines hraw) hsome).1] at hsetting
      obtain ⟨rfl, rfl⟩ := Prod.mk.inj (Option.some.inj hsetting)
      exact ⟨List.mem_map_of_mem (List.mem_filterMap.mpr ⟨raw, hraw, hsome⟩), v, hv, rfl⟩
  · rintro ⟨hk, v, hv, rfl⟩
    obtain ⟨⟨k', w'⟩, hkw, rfl⟩ := List.mem_map.mp hk
    obtain ⟨raw, hraw, hsome⟩ := List.mem_filterMap.mp hkw
    refine ⟨raw, hraw, ?_⟩
    have hkept : keptLine env raw = some (settingLine k' v) := by
      unfold keptLine
      rw [hsome]
      dsimp only at hv ⊢
      rw [hv]
      rfl
    rw [hkept, Option.bind_some, settingOf_settingLine (keyOk_of_settingOf (not_mem_of_mem_lines hraw) hsome).1]

theorem mem_settings_added (h : EnvOk env) {added : Env} (hadded : ∀ kv ∈ added, kv ∈ env) {k w : List Char} :
    (k, w) ∈ (addedLines added).filterMap settingOf ↔ ∃ v, (k, v) ∈ added ∧ w = trim (quoteIfNeeded v) := by
  unfold addedLines
  split_ifs with hnil
  · simp [hnil]
  · rw [List.filterMap_cons_none (by rfl), List.filterMap_cons_none settingOf_banner, List.filterMap_map, List.mem_filterMap]
    constructor
    · rintro ⟨⟨k', v⟩, hkv, hsetting⟩
      rw [Function.comp_apply, settingOf_settingLine (h.keys _ (hadded _ hkv))] at hsetting
      obtain ⟨rfl, rfl⟩ := Prod.mk.inj (Option.some.inj hsetting)
      exact ⟨v, hkv, rfl⟩
    · rintro ⟨v, hkv, rfl⟩
      exact ⟨(k, v), hkv, settingOf_settingLine (h.keys _ (hadded _ hkv)) v⟩

theorem mem_newKeys {kv : List Char × List Char} (h : kv ∈ newKeys env existing) : kv ∈ env := (List.mem_filter.mp h).1

/-- The settings of the written lines are those of the map. -/
theorem mem_settings_written (h : EnvOk env) {k w : List Char} :
    (k, w) ∈ (writtenLines existing env).filterMap settingOf ↔ ∃ v, Fields.get env k = some v ∧ w = trim (quoteIfNeeded v) := by
  unfold writtenLines
  rw [List.filterMap_append, List.mem_append, mem_settings_kept,
    mem_settings_added h (fun kv hkv => mem_newKeys hkv)]
  constructor
  · rintro (⟨-, hv⟩ | ⟨v, hkv, rfl⟩)
    · exact hv
    · exact ⟨v, Fields.get_of_mem h.nodup (mem_newKeys hkv), rfl⟩
  · rintro ⟨v, hv, rfl⟩
    by_cases hk : k ∈ ((lines existing).filterMap settingOf).map Prod.fst
    · exact .inl ⟨hk, v, hv, rfl⟩
    · exact .inr ⟨v, List.mem_filter.mpr ⟨Fields.mem_of_get hv, by simpa using hk⟩, rfl⟩

/-- What is read of the written text is what the written lines say. -/
theorem settings_writeEnvFile (h : EnvOk env) :
    (lines (writeEnvFile (some existing) env)).filterMap settingOf = (writtenLines existing env).filterMap settingOf := by
  unfold writeEnvFile
  rw [Option.getD_some]
  rcases eq_or_ne (writtenLines existing env) [] with hnil | hne
  · rw [hnil]
    rfl
  · rw [← filterMap_settingOf_trim, map_trim_lines_joinLines hne (newline_not_mem_writtenLines h), filterMap_settingOf_trim]

end

/-! ## What comes back -/

/-- A value behind a write and a read. -/
def readBack (v : List Char) : List Char := unquote (trim (quoteIfNeeded v))

def bootBack (v : List Char) : List Char := bootValue (trim (quoteIfNeeded v))

section

variable {kvs : List (List Char × List Char)} {k v : List Char} {f : List Char → List Char}

theorem get_foldl_insert (m : Env) (h : ∀ kv ∈ kvs, kv.1 = k → f kv.2 = v) :
    Fields.get (kvs.foldl (fun env kv => Fields.insert env kv.1 (f kv.2)) m) k =
      if k ∈ kvs.map Prod.fst then some v else Fields.get m k := by
  induction kvs generalizing m with
  | nil => rfl
  | cons kv kvs ih =>
    rw [List.forall_mem_cons] at h
    rw [List.foldl_cons, ih _ h.2, Fields.get_insert, List.map_cons]
    by_cases hk : k ∈ kvs.map Prod.fst
    · rw [if_pos hk, if_pos (List.mem_cons_of_mem _ hk)]
    · rw [if_neg hk]
      by_cases hkv : k = kv.1
      · rw [if_pos hkv, if_pos (hkv ▸ List.mem_cons_self), h.1 hkv.symm]
      · rw [if_neg hkv, if_neg (by simp [hkv, hk])]

theorem get_foldl_setVar {m : Env} (hk : k ≠ []) (h : ∀ kv ∈ kvs, kv.1 = k → bootValue kv.2 = v) :
    Fields.get (kvs.foldl setVar m) k = (Fields.get m k).or (if k ∈ kvs.map Prod.fst then some v else none) := by
  induction kvs generalizing m with
  | nil => simp
  | cons kv kvs ih =>
    rw [List.forall_mem_cons] at h
    rw [List.foldl_cons, ih h.2, List.map_cons]
    unfold setVar
    by_cases hkv : k = kv.1
    · subst hkv
      rw [if_pos List.mem_cons_self]
      cases hm : Fields.get m kv.1 with
      | some w => simp [hm]
      | none =>
        rw [if_pos ⟨hk, rfl⟩, Fields.get_insert_self, h.1 rfl]
        simp
    · have hget : Fields.get (if kv.1 ≠ [] ∧ Fields.get m kv.1 = none then Fields.insert m kv.1 (bootValue kv.2) else m) k =
          Fields.get m k := by
        split_ifs
        · exact Fields.get_insert_ne hkv ..
        · rfl
      rw [hget]
      simp only [List.mem_cons, hkv, false_or]

end

/-! ## Values -/

theorem escaped_cons (c : Char) (v : List Char) :
    escaped (c :: v) = (if c = '\\' then ['\\', '\\'] else if c = '"' then ['\\', '"'] else [c]) ++ escaped v := by
  unfold escaped
  rw [List.flatMap_cons, List.flatMap_append]
  unfold escapeBackslash escapeQuote
  split_ifs <;> simp_all

theorem count_escaped (v : List Char) : (escaped v).count '\\' = 2 * v.count '\\' + v.count '"' := by
  induction v with
  | nil => rfl
  | cons c v ih =>
    rw [escaped_cons, List.count_append, ih]
    split_ifs with hb hq
    · subst hb
      simp
      omega
    · subst hq
      simp
      omega
    · simp [hb, hq]

theorem count_quote_escaped (v : List Char) : (escaped v).count '"' = v.count '"' := by
  induction v with
  | nil => rfl
  | cons c v ih =>
    rw [escaped_cons, List.count_append, ih]
    split_ifs with hb hq
    · subst hb
      simp
    · subst hq
      simp
      omega
    · simp [hq]

/-- A value that the quotes around it do not change. -/
def Plain (v : List Char) : Prop := '\\' ∉ v ∧ '"' ∉ v

theorem escaped_of_plain {v : List Char} (h : Plain v) : escaped v = v := by
  obtain ⟨hb, hq⟩ := h
  induction v with
  | nil => rfl
  | cons c v ih =>
    rw [List.mem_cons, not_or] at hb hq
    rw [escaped_cons, if_neg (Ne.symm hb.1), if_neg (Ne.symm hq.1), ih hb.2 hq.2]
    rfl

theorem plain_of_count {v : List Char} (h : 2 * v.count '\\' + v.count '"' = v.count '\\') : Plain v :=
  ⟨List.count_eq_zero.mp (by omega), List.count_eq_zero.mp (by omega)⟩

theorem escaped_eq_self_iff {v : List Char} : escaped v = v ↔ Plain v := by
  refine ⟨fun h => plain_of_count ?_, escaped_of_plain⟩
  rw [← count_escaped, h]

/-- Of two functions that only delete, each leaves what both leave. -/
theorem fixed_of_sublist {f g : List Char → List Char} (hf : ∀ s, (f s).Sublist s) (hg : ∀ s, (g s).Sublist s) {s : List Char} :
    f (g s) = s ↔ g s = s ∧ f s = s := by
  constructor
  · intro h
    have hgs : g s = s := (hg s).antisymm (by nth_rewrite 1 [← h]; exact hf _)
    rw [hgs] at h
    exact ⟨hgs, h⟩
  · rintro ⟨hg, hf⟩
    rw [hg, hf]

theorem trim_quoted (v : List Char) : trim ('"' :: v ++ ['"']) = '"' :: v ++ ['"'] := by
  rw [trim_eq_self_iff, List.getLast?_concat]
  simp [show isWhitespace '"' = false from by decide]

theorem unquote_cons (q : Char) (rest : List Char) :
    unquote (q :: rest) = if (q = '"' ∨ q = '\'') ∧ rest.getLast? = some q then rest.dropLast else q :: rest := rfl

theorem unquote_sublist (v : List Char) : (unquote v).Sublist v := by
  cases v with
  | nil => exact List.Sublist.refl _
  | cons q rest =>
    rw [unquote_cons]
    split_ifs
    · exact (List.dropLast_sublist rest).trans (List.sublist_cons_self ..)
    · exact List.Sublist.refl _

theorem unquote_eq_self_iff {v : List Char} (h : '\'' ∉ v) :
    unquote v = v ↔ ¬ (2 ≤ v.length ∧ v.head? = some '"' ∧ v.getLast? = some '"') := by
  cases v with
  | nil => simp [unquote]
  | cons q rest =>
    have hq : q ≠ '\'' := fun hq => h (hq ▸ List.mem_cons_self)
    rw [unquote_cons]
    split_ifs with hquoted
    · refine iff_of_false (fun heq => ?_) (not_not.mpr ?_)
      · have hlength := congrArg List.length heq
        rw [List.length_dropLast, List.length_cons] at hlength
        omega
      · obtain ⟨rfl | hq', hlast⟩ := hquoted
        · cases rest with
          | nil => cases hlast
          | cons c rest => exact ⟨by simp, rfl, by rw [List.getLast?_cons_cons, hlast]⟩
        · exact absurd hq' hq
    · refine iff_of_true rfl ?_
      rintro ⟨hlength, hhead, hlast⟩
      obtain rfl := Option.some.inj hhead
      cases rest with
      | nil => simp at hlength
      | cons c rest => exact hquoted ⟨.inl rfl, by rwa [List.getLast?_cons_cons] at hlast⟩

theorem single_quote_not_mem {v : List Char} (h : needsQuotes v = false) : '\'' ∉ v := by
  intro hc
  have hany := List.any_eq_false.mp h '\'' hc
  exact hany (by decide)

theorem readBack_eq_self_iff (v : List Char) : readBack v = v ↔
    if needsQuotes v then Plain v else trim v = v ∧ ¬ (2 ≤ v.length ∧ v.head? = some '"' ∧ v.getLast? = some '"') := by
  unfold readBack quoteIfNeeded
  split_ifs with hneeds
  · rw [trim_quoted, ← escaped_eq_self_iff]
    have hunquote : unquote ('"' :: escaped v ++ ['"']) = escaped v := by
      rw [List.cons_append, unquote, if_pos ⟨.inl rfl, List.getLast?_concat⟩, List.dropLast_concat]
    rw [hunquote]
  · rw [fixed_of_sublist unquote_sublist trim_sublist, unquote_eq_self_iff (single_quote_not_mem (by simpa using hneeds))]

/-- Neither end of the text is the character. -/
def NotAtEnds (q : Char) (v : List Char) : Prop := v.head? ≠ some q ∧ v.getLast? ≠ some q

theorem strip_char_eq_self_iff {q : Char} {v : List Char} : strip (· = q) v = v ↔ NotAtEnds q v := by
  have hopt : ∀ o : Option Char, (∀ c ∈ o, decide (c = q) = false) ↔ o ≠ some q := by
    rintro (_ | c) <;> simp [eq_comm]
  rw [strip_eq_self_iff, hopt, hopt]
  rfl

theorem bootValue_eq_self_iff {v : List Char} : bootValue v = v ↔ NotAtEnds '"' v ∧ NotAtEnds '\'' v := by
  unfold bootValue
  rw [fixed_of_sublist (strip_sublist _) (strip_sublist _), strip_char_eq_self_iff, strip_char_eq_self_iff]

theorem bootValue_sublist (v : List Char) : (bootValue v).Sublist v := (strip_sublist _ _).trans (strip_sublist _ _)

theorem bootBack_eq_self_iff (v : List Char) : bootBack v = v ↔
    (if needsQuotes v then Plain v else trim v = v) ∧ NotAtEnds '"' v ∧ NotAtEnds '\'' v := by
  unfold bootBack quoteIfNeeded
  rw [← bootValue_eq_self_iff]
  split_ifs with hneeds
  · have hframe : bootValue (trim ('"' :: escaped v ++ ['"'])) = bootValue (escaped v) := by
      rw [trim_quoted]
      unfold bootValue
      rw [strip_concat (by decide), strip_cons (by decide)]
    rw [hframe]
    constructor
    · intro h
      have hplain : Plain v := by
        refine plain_of_count ?_
        rw [← count_escaped]
        conv_rhs => rw [← h]
        unfold bootValue
        rw [count_strip (by decide), count_strip (by decide)]
      rw [escaped_of_plain hplain] at h
      exact ⟨hplain, h⟩
    · rintro ⟨hplain, h⟩
      rwa [escaped_of_plain hplain]
  · exact fixed_of_sublist bootValue_sublist trim_sublist

/-! ## The round trip -/

section

variable {existing : Option (List Char)} {env : Env}

theorem mem_keys_written (h : EnvOk env) {text k : List Char} :
    k ∈ ((writtenLines text env).filterMap settingOf).map Prod.fst ↔ (Fields.get env k).isSome = true := by
  rw [List.mem_map, Option.isSome_iff_exists]
  constructor
  · rintro ⟨⟨k, w⟩, hkw, rfl⟩
    obtain ⟨v, hv, -⟩ := (mem_settings_written h).mp hkw
    exact ⟨v, hv⟩
  · rintro ⟨v, hv⟩
    exact ⟨(k, _), (mem_settings_written h).mpr ⟨v, hv, rfl⟩, rfl⟩

theorem get_readEnvFile (h : EnvOk env) (k : List Char) :
    Fields.get (readEnvFile (writeEnvFile existing env)) k = (Fields.get env k).map readBack := by
  unfold readEnvFile
  rw [show writeEnvFile existing env = writeEnvFile (some (existing.getD [])) env from rfl, settings_writeEnvFile h]
  cases hv : Fields.get env k with
  | none =>
    rw [get_foldl_insert (v := []) []]
    · rw [if_neg (by rw [mem_keys_written h, hv]; simp)]
      rfl
    · rintro kv hkv rfl
      obtain ⟨v, hv', -⟩ := (mem_settings_written h).mp hkv
      rw [hv] at hv'
      cases hv'
  | some v =>
    rw [get_foldl_insert (v := readBack v) []]
    · rw [if_pos (by rw [mem_keys_written h, hv]; rfl)]
      rfl
    · rintro kv hkv rfl
      obtain ⟨v', hv', hw⟩ := (mem_settings_written h).mp hkv
      obtain rfl := Option.some.inj (hv.symm.trans hv')
      rw [hw]
      rfl

theorem get_bootstrapEnvFromDotenv (h : EnvOk env) (m : Env) {k : List Char} (hk : k ≠ []) :
    Fields.get (bootstrapEnvFromDotenv m (writeEnvFile existing env)) k = (Fields.get m k).or ((Fields.get env k).map bootBack) := by
  unfold bootstrapEnvFromDotenv
  rw [show writeEnvFile existing env = writeEnvFile (some (existing.getD [])) env from rfl, settings_writeEnvFile h]
  cases hv : Fields.get env k with
  | none =>
    rw [get_foldl_setVar (v := []) hk]
    · rw [if_neg (by rw [mem_keys_written h, hv]; simp)]
      rfl
    · rintro kv hkv rfl
      obtain ⟨v, hv', -⟩ := (mem_settings_written h).mp hkv
      rw [hv] at hv'
      cases hv'
  | some v =>
    rw [get_foldl_setVar (v := bootBack v) hk]
    · rw [if_pos (by rw [mem_keys_written h, hv]; rfl)]
      rfl
    · rintro kv hkv rfl
      obtain ⟨v', hv', hw⟩ := (mem_settings_written h).mp hkv
      obtain rfl := Option.some.inj (hv.symm.trans hv')
      rw [hw]
      rfl

/-- A map is read back where each of its values is. -/
theorem forall_get_map_iff (h : (env.map Prod.fst).Nodup) {f : List Char → List Char} {P : List Char → Prop} :
    (∀ k, P k → (Fields.get env k).map f = Fields.get env k) ↔ ∀ kv ∈ env, P kv.1 → f kv.2 = kv.2 := by
  constructor
  · intro hall kv hkv hP
    have hget := hall kv.1 hP
    rw [Fields.get_of_mem h hkv] at hget
    exact Option.some.inj hget
  · intro hall k hP
    cases hv : Fields.get env k with
    | none => rfl
    | some v => exact congrArg some (hall (k, v) (Fields.mem_of_get hv) hP)

/-- The lines that set nothing and are not empty, without their blanks. -/
def comments (ls : List (List Char)) : List (List Char) := (ls.filter fun l => (settingOf l).isNone && trim l ≠ []).map trim

theorem comments_trim (ls : List (List Char)) : comments (ls.map trim) = comments ls := by
  unfold comments
  rw [List.filter_map, List.map_map]
  simp [Function.comp_def, settingOf_trim, trim_trim]

theorem comments_append (ls ms : List (List Char)) : comments (ls ++ ms) = comments ls ++ comments ms := by
  unfold comments
  rw [List.filter_append, List.map_append]

theorem keptLine_comment {raw : List Char} (h : settingOf raw = none) : keptLine env raw = some raw := by
  unfold keptLine
  rw [h]

theorem keptLine_setting {raw key w : List Char} (h : settingOf raw = some (key, w)) :
    keptLine env raw = (Fields.get env key).map (settingLine key) := by
  unfold keptLine
  rw [h]

/-- The comments of the file stay. -/
theorem comments_kept {ls : List (List Char)} (h : ∀ l ∈ ls, '\n' ∉ l) : comments (ls.filterMap (keptLine env)) = comments ls := by
  induction ls with
  | nil => rfl
  | cons raw ls ih =>
    rw [List.forall_mem_cons] at h
    cases hsetting : settingOf raw with
    | none =>
      rw [List.filterMap_cons_some (keptLine_comment hsetting)]
      show comments ([raw] ++ _) = comments ([raw] ++ ls)
      rw [comments_append, comments_append, ih h.2]
    | some kw =>
      have hdrop : comments (raw :: ls) = comments ls := by
        unfold comments
        rw [List.filter_cons_of_neg (by simp [hsetting])]
      rw [hdrop, ← ih h.2]
      cases hv : Fields.get env kw.1 with
      | none => rw [List.filterMap_cons_none (by rw [keptLine_setting hsetting, hv]; rfl)]
      | some v =>
        rw [List.filterMap_cons_some (show keptLine env raw = some (settingLine kw.1 v) by rw [keptLine_setting hsetting, hv]; rfl)]
        unfold comments
        rw [List.filter_cons_of_neg (by simp [settingOf_settingLine (keyOk_of_settingOf h.1 hsetting).1])]

theorem comments_added {added : Env} (h : ∀ kv ∈ added, KeyOk kv.1) :
    comments (addedLines added) = if added = [] then [] else [trim banner] := by
  unfold addedLines
  split_ifs
  · rfl
  · have hnone : (added.map fun kv => settingLine kv.1 kv.2).filter (fun l => (settingOf l).isNone && trim l ≠ []) = [] := by
      rw [List.filter_eq_nil_iff]
      intro l hl
      obtain ⟨kv, hkv, rfl⟩ := List.mem_map.mp hl
      simp [settingOf_settingLine (h kv hkv)]
    unfold comments
    rw [List.filter_cons_of_neg (by decide), List.filter_cons_of_pos (by rw [settingOf_banner]; decide), hnone]
    rfl

/-- The keys of the file that are still there, in their order. -/
theorem keys_kept {ls : List (List Char)} (h : ∀ l ∈ ls, '\n' ∉ l) : ((ls.filterMap (keptLine env)).filterMap settingOf).map Prod.fst =
    ((ls.filterMap settingOf).map Prod.fst).filter fun k => (Fields.get env k).isSome := by
  induction ls with
  | nil => rfl
  | cons raw ls ih =>
    rw [List.forall_mem_cons] at h
    cases hsetting : settingOf raw with
    | none => rw [List.filterMap_cons_some (keptLine_comment hsetting), List.filterMap_cons_none hsetting, ih h.2, List.filterMap_cons_none hsetting]
    | some kw =>
      rw [List.filterMap_cons_some (f := settingOf) hsetting, List.map_cons]
      cases hv : Fields.get env kw.1 with
      | none => rw [List.filterMap_cons_none (by rw [keptLine_setting hsetting, hv]; rfl), ih h.2, List.filter_cons_of_neg (by simp [hv])]
      | some v =>
        rw [List.filterMap_cons_some (show keptLine env raw = some (settingLine kw.1 v) by rw [keptLine_setting hsetting, hv]; rfl),
          List.filterMap_cons_some (settingOf_settingLine (keyOk_of_settingOf h.1 hsetting).1 v), List.map_cons, ih h.2,
          List.filter_cons_of_pos (by simp [hv])]

theorem keys_added {added : Env} (h : ∀ kv ∈ added, KeyOk kv.1) : ((addedLines added).filterMap settingOf).map Prod.fst = added.map Prod.fst := by
  unfold addedLines
  split_ifs with hnil
  · rw [hnil]
    rfl
  · rw [List.filterMap_cons_none (by rfl), List.filterMap_cons_none settingOf_banner, List.filterMap_map, List.map_filterMap]
    clear hnil
    induction added with
    | nil => rfl
    | cons kv added ih =>
      rw [List.forall_mem_cons] at h
      rw [List.filterMap_cons_some (b := kv.1) (by simp [settingOf_settingLine h.1]), ih h.2, List.map_cons]

theorem comments_writeEnvFile (h : EnvOk env) :
    comments (lines (writeEnvFile existing env)) = comments (writtenLines (existing.getD []) env) := by
  unfold writeEnvFile
  rcases eq_or_ne (writtenLines (existing.getD []) env) [] with hnil | hne
  · rw [hnil]
    rfl
  · rw [← comments_trim, map_trim_lines_joinLines hne (newline_not_mem_writtenLines h), comments_trim]

theorem comments_written (existing : Option (List Char)) (h : EnvOk env) :
    comments (lines (writeEnvFile existing env)) = comments (lines (existing.getD [])) ++
      (if newKeys env (existing.getD []) = [] then [] else [trim banner]) := by
  have hkeys : ∀ kv ∈ newKeys env (existing.getD []), KeyOk kv.1 := fun kv hkv => h.keys kv (mem_newKeys hkv)
  rw [comments_writeEnvFile h]
  unfold writtenLines
  rw [comments_append, comments_kept fun l hl => not_mem_of_mem_lines hl, comments_added hkeys]

/-- Both readers of the file find the map that was written, but for the values that the quotes or the ends of a line change. The
comments stay, the keys keep their order, the ones that are gone are gone, and the new ones stand at the end. -/
theorem env_file_round_trip (existing : Option (List Char)) {env : Env} (h : EnvOk env) :
    ((∀ k, Fields.get (readEnvFile (writeEnvFile existing env)) k = Fields.get env k) ↔ ∀ kv ∈ env,
      if needsQuotes kv.2 then Plain kv.2
      else trim kv.2 = kv.2 ∧ ¬ (2 ≤ kv.2.length ∧ kv.2.head? = some '"' ∧ kv.2.getLast? = some '"')) ∧
      (∀ m k, k ≠ [] → Fields.get (bootstrapEnvFromDotenv m (writeEnvFile existing env)) k =
        (Fields.get m k).or (Fields.get (bootstrapEnvFromDotenv [] (writeEnvFile existing env)) k)) ∧
      ((∀ k, k ≠ [] → Fields.get (bootstrapEnvFromDotenv [] (writeEnvFile existing env)) k = Fields.get env k) ↔
        ∀ kv ∈ env, kv.1 ≠ [] → (if needsQuotes kv.2 then Plain kv.2 else trim kv.2 = kv.2) ∧
          NotAtEnds '"' kv.2 ∧ NotAtEnds '\'' kv.2) ∧
      comments (lines (writeEnvFile existing env)) = comments (lines (existing.getD [])) ++
        (if newKeys env (existing.getD []) = [] then [] else [trim banner]) ∧
      ((lines (writeEnvFile existing env)).filterMap settingOf).map Prod.fst =
        (((lines (existing.getD [])).filterMap settingOf).map Prod.fst).filter (fun k => (Fields.get env k).isSome) ++
          (newKeys env (existing.getD [])).map Prod.fst := by
  have hkeys : ∀ kv ∈ newKeys env (existing.getD []), KeyOk kv.1 := fun kv hkv => h.keys kv (mem_newKeys hkv)
  have hraw : ∀ l ∈ lines (existing.getD []), '\n' ∉ l := fun l hl => not_mem_of_mem_lines hl
  refine ⟨?_, fun m k hk => ?_, ?_, comments_written existing h, ?_⟩
  · simp only [get_readEnvFile h, ← readBack_eq_self_iff]
    have hall := forall_get_map_iff h.nodup (f := readBack) (P := fun _ => True)
    simpa using hall
  · rw [get_bootstrapEnvFromDotenv h m hk, get_bootstrapEnvFromDotenv h [] hk, Fields.get_nil, Option.none_or]
  · simp only [← bootBack_eq_self_iff]
    rw [← forall_get_map_iff (f := bootBack) (P := fun k => k ≠ []) h.nodup]
    refine forall_congr' fun k => ?_
    refine forall_congr' fun hk => ?_
    rw [get_bootstrapEnvFromDotenv h [] hk, Fields.get_nil, Option.none_or]
  · rw [show writeEnvFile existing env = writeEnvFile (some (existing.getD [])) env from rfl, settings_writeEnvFile h]
    unfold writtenLines
    rw [List.filterMap_append, List.map_append, keys_kept hraw, keys_added hkeys]

def sampleEnv : Env := [(['A'], ['a', ' ', 'b'])]

theorem envOk_sampleEnv : EnvOk sampleEnv where
  nodup := by decide
  keys := List.forall_mem_singleton.mpr ⟨by decide, by decide, by decide, by decide⟩
  values := List.forall_mem_singleton.mpr (by decide)

theorem env_file_round_trip_words :
    Fields.get (readEnvFile (writeEnvFile (some ['#', '\n', 'A', '=', '\n', 'B', '=']) sampleEnv)) ['A'] = some ['a', ' ', 'b'] := by
  have hback := (env_file_round_trip (some ['#', '\n', 'A', '=', '\n', 'B', '=']) envOk_sampleEnv).1.mpr
  refine (hback (List.forall_mem_singleton.mpr ?_) ['A']).trans rfl
  rw [if_pos (by decide)]
  exact ⟨by decide, by decide⟩

end

/-! ## Over many runs -/

theorem mem_readEnvFile {kvs : List (List Char × List Char)} (m : Env) {kv : List Char × List Char}
    (h : kv ∈ kvs.foldl (fun env kv => Fields.insert env kv.1 (unquote kv.2)) m) :
    kv ∈ m ∨ ∃ v, (kv.1, v) ∈ kvs ∧ kv.2 = unquote v := by
  induction kvs generalizing m with
  | nil => exact .inl h
  | cons kv' kvs ih =>
    rcases ih _ h with h | ⟨v, hv, heq⟩
    · rcases Fields.mem_insert.mp h with rfl | ⟨h, -⟩
      · exact .inr ⟨kv'.2, List.mem_cons_self, rfl⟩
      · exact .inl h
    · exact .inr ⟨v, List.mem_cons_of_mem _ hv, heq⟩

/-- What is read can be written. -/
theorem envOk_readEnvFile (text : List Char) : EnvOk (readEnvFile text) := by
  have hmem : ∀ kv ∈ readEnvFile text, ∃ v, KeyOk kv.1 ∧ '\n' ∉ v ∧ kv.2 = unquote v := by
    intro kv hkv
    rcases mem_readEnvFile [] hkv with h | ⟨v, hv, heq⟩
    · exact absurd h List.not_mem_nil
    · obtain ⟨raw, hraw, hsetting⟩ := List.mem_filterMap.mp hv
      obtain ⟨hkey, hvalue⟩ := keyOk_of_settingOf (not_mem_of_mem_lines hraw) hsetting
      exact ⟨v, hkey, hvalue, heq⟩
  refine ⟨?_, fun kv hkv => ?_, fun kv hkv => ?_⟩
  · unfold readEnvFile
    generalize (lines text).filterMap settingOf = kvs
    suffices h : ∀ m : Env, (m.map Prod.fst).Nodup →
        ((kvs.foldl (fun env kv => Fields.insert env kv.1 (unquote kv.2)) m).map Prod.fst).Nodup from h [] List.nodup_nil
    induction kvs with
    | nil => exact fun m hm => hm
    | cons kv kvs ih => exact fun m hm => ih _ (Fields.nodup_insert hm _ _)
  · obtain ⟨v, hkey, -⟩ := hmem kv hkv
    exact hkey
  · obtain ⟨v, -, hvalue, heq⟩ := hmem kv hkv
    rw [heq]
    exact fun hc => hvalue ((unquote_sublist v).subset hc)

theorem readBack_of_needsQuotes {v : List Char} (h : needsQuotes v = true) : readBack v = escaped v := by
  unfold readBack quoteIfNeeded
  rw [if_pos h, trim_quoted, List.cons_append, unquote_cons, if_pos ⟨.inl rfl, List.getLast?_concat⟩, List.dropLast_concat]

theorem needsQuotes_escaped {v : List Char} (h : needsQuotes v = true) : needsQuotes (escaped v) = true := by
  obtain ⟨c, hc, hspecial⟩ := List.any_eq_true.mp h
  have hplain : c ≠ '\\' ∧ c ≠ '"' := by
    constructor <;> rintro rfl <;> exact absurd hspecial (by decide)
  refine List.any_eq_true.mpr ⟨c, ?_, hspecial⟩
  refine List.mem_flatMap.mpr ⟨c, List.mem_flatMap.mpr ⟨c, hc, ?_⟩, ?_⟩
  · rw [escapeBackslash, if_neg hplain.1]
    exact List.mem_singleton_self c
  · rw [escapeQuote, if_neg hplain.2]
    exact List.mem_singleton_self c

theorem needsQuotes_readBack {v : List Char} (h : needsQuotes v = true) : needsQuotes (readBack v) = true := by
  rw [readBack_of_needsQuotes h]
  exact needsQuotes_escaped h

theorem sublist_flatMap {f : Char → List Char} (hf : ∀ c, [c].Sublist (f c)) (v : List Char) : v.Sublist (v.flatMap f) := by
  induction v with
  | nil => exact List.nil_sublist _
  | cons c v ih => exact (hf c).append ih

theorem sublist_escaped (v : List Char) : v.Sublist (escaped v) := by
  refine (sublist_flatMap (fun c => ?_) v).trans (sublist_flatMap (fun c => ?_) _)
  · unfold escapeBackslash
    split_ifs with hc <;> simp [hc]
  · unfold escapeQuote
    split_ifs with hc <;> simp [hc]

/-- A value that no quotes stand around only loses characters. -/
theorem readBack_sublist {v : List Char} (h : needsQuotes v = false) : (readBack v).Sublist v := by
  unfold readBack quoteIfNeeded
  rw [if_neg (by simp [h])]
  exact (unquote_sublist _).trans (trim_sublist v)

theorem needsQuotes_of_sublist {v w : List Char} (h : needsQuotes v = false) (hw : w.Sublist v) : needsQuotes w = false := by
  unfold needsQuotes at *
  rw [List.any_eq_false] at *
  exact fun c hc => h c (hw.subset hc)

/-- A value that has changed never comes back. -/
theorem readBack_iterate_eq_self_iff (v : List Char) (n : ℕ) : readBack^[n + 1] v = v ↔ readBack v = v := by
  refine ⟨fun h => ?_, fun h => Function.iterate_fixed h _⟩
  rw [Function.iterate_succ_apply] at h
  rcases hq : needsQuotes v with _ | _
  · have hshrinks : ∀ m w, needsQuotes w = false → (readBack^[m] w).Sublist w := by
      intro m
      induction m with
      | zero => exact fun w _ => List.Sublist.refl w
      | succ m ih =>
        intro w hw
        rw [Function.iterate_succ_apply]
        exact (ih _ (needsQuotes_of_sublist hw (readBack_sublist hw))).trans (readBack_sublist hw)
    have hback := hshrinks n _ (needsQuotes_of_sublist hq (readBack_sublist hq))
    rw [h] at hback
    exact (readBack_sublist hq).antisymm hback
  · have hgrows : ∀ m w, needsQuotes w = true → w.Sublist (readBack^[m] w) := by
      intro m
      induction m with
      | zero => exact fun w _ => List.Sublist.refl w
      | succ m ih =>
        intro w hw
        rw [Function.iterate_succ_apply]
        refine (sublist_escaped w).trans ?_
        rw [← readBack_of_needsQuotes hw]
        exact ih _ (needsQuotes_readBack hw)
    have hback := hgrows n _ (needsQuotes_readBack hq)
    rw [h] at hback
    have hforth := sublist_escaped v
    rw [← readBack_of_needsQuotes hq] at hforth
    exact hback.antisymm hforth

/-- A value in quotes doubles its backslashes each time that it is read and written. -/
theorem count_readBack_iterate {v : List Char} (h : needsQuotes v = true) (n : ℕ) :
    2 ^ n * v.count '\\' ≤ (readBack^[n] v).count '\\' := by
  induction n generalizing v with
  | zero => simp
  | succ n ih =>
    rw [Function.iterate_succ_apply, readBack_of_needsQuotes h]
    calc 2 ^ (n + 1) * v.count '\\' = 2 ^ n * (2 * v.count '\\') := by rw [pow_succ, Nat.mul_assoc]
      _ ≤ 2 ^ n * (escaped v).count '\\' := Nat.mul_le_mul_left _ (by rw [count_escaped]; omega)
      _ ≤ _ := ih (needsQuotes_escaped h)

end BssCli.Onboard
