import BssCli.Cockpit.FixedPoints

/-!
# What the sanitisers leave

The characters of a text carry their places through the passes. A token that is left was put together by what a pass took out:
it stands nowhere in the text as it stands in what is left.
-/

open Text Regex

namespace BssCli.Cockpit

/-! ## Places -/

/-- The characters of a text with their places. -/
def placed (t : List Char) : List (Char × ℕ) := t.zipIdx

theorem placed_nodup (t : List Char) : (placed t).Nodup := by
  refine List.Nodup.of_map Prod.snd ?_
  rw [placed, List.zipIdx_map_snd]
  exact List.nodup_range'

theorem placed_map_fst (t : List Char) : (placed t).map Prod.fst = t := List.zipIdx_map_fst 0 t

/-- What the places are of no account to. -/
theorem stripLeakage_map {α : Type*} (ch : α → Char) (l : List α) : (stripLeakage ch l).map ch = stripLeakage id (l.map ch) := by
  have htrim : ∀ l : List α, (trimStartOf ch l).map ch = trimStartOf id (l.map ch) := by
    intro l
    unfold trimStartOf
    rw [List.dropWhile_map]
    rfl
  have hall : ∀ (P : Pattern) (l : List α), (P.replaceAll ch [] l).map ch = P.replaceAll id [] (l.map ch) :=
    fun P l => show (P.replaceAll (id ∘ ch) [] l).map ch = _ from P.replaceAll_map ch [] l
  have hfirst : ∀ (P : Pattern) (l : List α), (P.deleteFirst ch [] l).map ch = P.deleteFirst id [] (l.map ch) :=
    fun P l => show (P.deleteFirst (id ∘ ch) [] l).map ch = _ from P.deleteFirst_map ch [] l
  unfold stripLeakage
  rw [stripReasoningLeakage_eq, stripChannelMarkup_eq, stripReasoningLeakage_eq, stripChannelMarkup_eq, htrim, hfirst, hfirst,
    hall, htrim, hall]

/-! ## Whitespace before a token -/

theorem toLower_of_isWhitespace {c : Char} (h : isWhitespace c = true) : c.toLower = c := by
  have hnot : ¬ (c.val ≥ 'A'.val ∧ c.val ≤ 'Z'.val) := by
    rintro ⟨hlow, hhigh⟩
    have hlow' : 65 ≤ c.toNat := UInt32.le_iff_toNat_le.mp hlow
    have hhigh' : c.toNat ≤ 90 := UInt32.le_iff_toNat_le.mp hhigh
    simp only [isWhitespace, Bool.or_eq_true, Bool.and_eq_true, decide_eq_true_eq] at h
    omega
  exact dif_neg hnot

/-- A letter of either case is no whitespace, when the letter is none. -/
theorem letter_ink {c : Char} (hc : isWhitespace c = false) : (letter c).marks fun x => !isWhitespace x := by
  intro x hx
  rw [Bool.not_eq_true']
  by_contra hwhite
  rw [Bool.not_eq_false] at hwhite
  dsimp only at hx
  rw [toLower_of_isWhitespace hwhite] at hx
  simp only [Bool.or_eq_true, Bool.and_eq_true, decide_eq_true_eq] at hx
  rcases hx with (rfl | ⟨-, rfl⟩) | ⟨-, rfl⟩
  · rw [hc] at hwhite
    cases hwhite
  · exact absurd hwhite (by decide)
  · exact absurd hwhite (by decide)

theorem channelMarkup_ink : reChannelMarkup.re.marks fun x => !isWhitespace x := by
  refine ⟨⟨.inl ?_, .inl ?_⟩, .inr (.inr (.inl (.inl (letter_ink (by decide)))))⟩
  all_goals
    intro c hc
    obtain rfl : c = '<' := by simpa [char] using hc
    decide

theorem leadingThought_ink : reLeadingThought.re.marks fun x => !isWhitespace x :=
  .inr (.inr (.inl ⟨.inl (letter_ink (by decide)), .inl (letter_ink (by decide))⟩))

theorem inlineThoughtPrefix_ink : reInlineThoughtPrefix.re.marks fun x => !isWhitespace x :=
  .inr (.inr (.inl ⟨.inl (letter_ink (by decide)), .inl (letter_ink (by decide))⟩))

/-- What may begin with whitespace at the start of a text may begin with more of it. -/
theorem absorb {p : Option Char → Option Char → Bool} (hp : ∀ next next', p none next = p none next') {re : Regex}
    {a w after after' : List Char} (hre : ∀ before before' v, re.Matches before v after → re.Matches before' v after')
    (ha : ∀ c ∈ a, isWhitespace c = true) (h : (seq (look p) (seq spaces re)).Matches [] w after) :
    (seq (look p) (seq spaces re)).Matches [] (a ++ w) after' := by
  obtain ⟨hstart, u, v, rfl, hu, hv⟩ := matches_seq_look.mp h
  refine matches_seq_look.mpr ⟨?_, a ++ u, v, (List.append_assoc ..).symm, ?_, hre _ _ v hv⟩
  · rw [List.head?_nil] at hstart ⊢
    rwa [hp _ _]
  · exact fun c hc => (List.mem_append.mp hc).elim (ha c) (hu c)

theorem assistantFinal_absorb {a w after after' : List Char} (ha : ∀ c ∈ a, isWhitespace c = true)
    (h : assistantFinal.Matches [] w after) : assistantFinal.Matches [] (a ++ w) after' :=
  absorb (fun _ _ => rfl) (fun _ before' _ h => h.of_plain (by decide) before' after') ha h

theorem leadingThought_absorb {a w after after' : List Char} (ha : ∀ c ∈ a, isWhitespace c = true)
    (h : reLeadingThought.re.Matches [] w after) : reLeadingThought.re.Matches [] (a ++ w) after' :=
  absorb (fun _ _ => rfl) (fun _ before' _ h => h.of_plain (by decide) before' after') ha h

theorem inlineThoughtPrefix_absorb {a w after after' : List Char} (hnext : after.head? = after'.head?)
    (ha : ∀ c ∈ a, isWhitespace c = true) (h : reInlineThoughtPrefix.re.Matches [] w after) :
    reInlineThoughtPrefix.re.Matches [] (a ++ w) after' := by
  refine absorb (fun _ _ => rfl) (fun before before' v hv => ?_) ha h
  -- The word is there, so what comes behind it sees nothing of what came before.
  obtain ⟨word, rest, rfl, hword, hrest⟩ := hv
  have hne : word.reverse ≠ [] := fun h => by
    have hlen : 0 < word.length := lt_of_lt_of_le (by decide) hword.least_le
    rw [List.reverse_eq_nil_iff.mp h] at hlen
    exact Nat.lt_irrefl _ hlen
  refine ⟨word, rest, rfl, hword.of_plain (by decide) _ _, hrest.of_near (by decide) ?_ hnext⟩
  rw [List.head?_append_of_ne_nil _ hne, List.head?_append_of_ne_nil _ hne]

/-! ## Leftovers -/

/-- `w`, which comes behind `pre` in what is left, stands behind the same character in the text, or at the front of both but for
whitespace. -/
def Stands (t : List Char) (pre w : List (Char × ℕ)) : Prop :=
  ∃ a b, placed t = a ++ w ++ b ∧ (pre.getLast? = a.getLast? ∨ pre = [] ∧ ∀ x ∈ a, isWhitespace x.1 = true)

/-- The expression matches `w` where it stands. -/
abbrev Matched (re : Regex) (pre w post : List (Char × ℕ)) : Prop :=
  re.Matches (pre.map Prod.fst).reverse (w.map Prod.fst) (post.map Prod.fst)

/-- A prefix that is not all whitespace does not end within whitespace. -/
theorem not_prefix_of_mark {a m : List (Char × ℕ)} (ha : ∀ x ∈ a, isWhitespace x.1 = true)
    (hm : ∃ c ∈ m.map Prod.fst, (!isWhitespace c) = true) : ¬ m <+: a := by
  intro hpre
  obtain ⟨c, hc, hink⟩ := hm
  obtain ⟨x, hx, rfl⟩ := List.mem_map.mp hc
  rw [ha x (hpre.subset hx)] at hink
  cases hink

section

variable {t : List Char} {l out w : List (Char × ℕ)}

/-- A stretch of the text that matches without assertions is not left by the pass, nor by any later one. -/
theorem not_left {P : Pattern} {re : Regex} (hre : re.plain = true) (hsub : ∀ before v after, re.Matches before v after →
    P.re.Matches before v after) (hl : l.Sublist (placed t)) (hout : out.Sublist (P.replaceAll Prod.fst [] l)) {before after : List Char}
    (hw : re.Matches before (w.map Prod.fst) after) (hleft : w.Sublist out) : ¬ w <:+: placed t := by
  rintro ⟨a, b, hab⟩
  have hnodup := placed_nodup t
  rw [← hab] at hnodup hl
  obtain ⟨la, lb, rfl, -, -⟩ := exists_stretch hnodup (hleft.trans (hout.trans (P.replaceAll_sublist _ _))) hl
  exact Pattern.not_sublist_of_matches (hnodup.sublist hl) (hsub _ _ _ (hw.of_plain hre _ _)) (hleft.trans hout)

/-- A header at the front of a pass's text is not left, when a match of the pass begins with it. -/
theorem not_left_of_front {a b : List (Char × ℕ)} {P : Pattern} (hink : P.re.marks fun c => !isWhitespace c)
    (hsplit : placed t = a ++ w ++ b) (ha : ∀ x ∈ a, isWhitespace x.1 = true) (hne : w ≠ []) (hl : l.Sublist (placed t))
    (hbegins : ∀ la lb, (∀ x ∈ la, isWhitespace x.1 = true) → P.Begins [] ((la ++ w ++ lb).map Prod.fst))
    (hout : out.Sublist (P.deleteFirst Prod.fst [] l)) : ¬ w.Sublist out := by
  intro hleft
  have hnodup := placed_nodup t
  rw [hsplit] at hnodup hl
  obtain ⟨la, lb, rfl, hla, -⟩ := exists_stretch hnodup (hleft.trans (hout.trans (P.deleteFirst_sublist [] _))) hl
  have hwhite : ∀ x ∈ la, isWhitespace x.1 = true := fun x hx => ha x (hla.subset hx)
  obtain ⟨m, after, hm, hmatch, hdelete⟩ := Pattern.deleteFirst_of_begins (hbegins la lb hwhite)
  rw [hdelete] at hout
  exact not_sublist_of_front (hnodup.sublist hl) hne hm (not_prefix_of_mark hwhite (hmatch.exists_mark hink)) hout hleft

theorem channelMarkup_iff {before v after : List Char} :
    reChannelMarkup.re.Matches before v after ↔ channelTag.Matches before v after ∨ assistantFinal.Matches before v after := Iff.rfl

theorem white_of_front {a : List (Char × ℕ)} (h : ([] : List (Char × ℕ)).getLast? = a.getLast? ∨
    ([] : List (Char × ℕ)) = [] ∧ ∀ x ∈ a, isWhitespace x.1 = true) : ∀ x ∈ a, isWhitespace x.1 = true := by
  rcases h with h | ⟨-, h⟩
  · obtain rfl := List.getLast?_eq_none_iff.mp h.symm
    exact fun x hx => absurd hx List.not_mem_nil
  · exact h

theorem white_map {a : List (Char × ℕ)} (h : ∀ x ∈ a, isWhitespace x.1 = true) : ∀ c ∈ a.map Prod.fst, isWhitespace c = true := by
  intro c hc
  obtain ⟨x, hx, rfl⟩ := List.mem_map.mp hc
  exact h x hx

/-- A marker on a line of its own is not left where it stands in the text. -/
theorem assistantFinal_not_left {pre post : List (Char × ℕ)}
    (hout : (pre ++ w ++ post).Sublist (reChannelMarkup.replaceAll Prod.fst [] (placed t)))
    (hw : Matched assistantFinal pre w post) : ¬ Stands t pre w := by
  rintro ⟨a, b, hab, hbefore⟩
  have hnodup := placed_nodup t
  have hleft : w.Sublist (pre ++ w ++ post) := (List.infix_append ..).sublist
  rw [hab] at hnodup hout
  rcases hbefore with hsame | ⟨rfl, ha⟩
  · refine Pattern.not_sublist_of_matches hnodup (channelMarkup_iff.mpr (.inr ?_)) (hleft.trans hout)
    obtain ⟨hstart, hrest⟩ := matches_seq_look.mp hw
    refine matches_seq_look.mpr ⟨?_, hrest.of_plain (by decide) _ _⟩
    rw [List.head?_reverse, List.getLast?_map] at hstart ⊢
    rwa [← hsame]
  · have hbegins : reChannelMarkup.Begins [] ((a ++ w ++ b).map Prod.fst) :=
      ⟨a.map Prod.fst ++ w.map Prod.fst, b.map Prod.fst, by simp,
        channelMarkup_iff.mpr (.inr (assistantFinal_absorb (white_map ha) hw))⟩
    obtain ⟨m, after, hm, hmatch, hafter⟩ := Pattern.replaceAll_of_begins hbegins
    have hne : w ≠ [] := fun h => Pattern.matches_ne_nil (channelMarkup_iff.mpr (.inr hw)) (by rw [h]; rfl)
    exact not_sublist_of_front hnodup hne hm (not_prefix_of_mark ha (hmatch.exists_mark channelMarkup_ink)) (hout.trans hafter) hleft

/-- Of what is left, no part that is a token stood in the text as it stands here. -/
structure Broken (t : List Char) (pre w post : List (Char × ℕ)) : Prop where
  tag : Matched channelTag pre w post → ¬ w <:+: placed t
  think : Matched reThinkBlock.re pre w post → ¬ w <:+: placed t
  final : Matched assistantFinal pre w post → ¬ Stands t pre w
  leading : pre = [] → Matched reLeadingThought.re [] w post → ¬ Stands t [] w
  inline : pre = [] → Matched reInlineThoughtPrefix.re [] w post → ∀ x ∈ post.head?, ¬ Stands t [] (w ++ [x])

theorem leakage_broken {pre post : List (Char × ℕ)} (h : stripLeakage Prod.fst (placed t) = pre ++ w ++ post) :
    Broken t pre w post := by
  let l₁ := stripChannelMarkup Prod.fst (placed t)
  let l₂ := reThinkBlock.replaceAll Prod.fst [] l₁
  let l₃ := reLeadingThought.deleteFirst Prod.fst [] l₂
  have hl₁ : l₁.Sublist (placed t) := stripChannelMarkup_sublist Prod.fst _
  have hl₂ : l₂.Sublist l₁ := Pattern.replaceAll_sublist ..
  have hl₃ : l₃.Sublist l₂ := Pattern.deleteFirst_sublist ..
  have hout₃ : (pre ++ w ++ post).Sublist (reInlineThoughtPrefix.deleteFirst Prod.fst [] l₃) := by
    rw [← h, stripLeakage, stripReasoningLeakage_eq]
    exact trimStartOf_sublist ..
  have hout₂ := hout₃.trans (Pattern.deleteFirst_sublist ..)
  have hout₁ := hout₂.trans hl₃
  have hout : (pre ++ w ++ post).Sublist (reChannelMarkup.replaceAll Prod.fst [] (placed t)) := by
    refine (hout₁.trans hl₂).trans ?_
    show (stripChannelMarkup Prod.fst (placed t)).Sublist _
    rw [stripChannelMarkup_eq]
    exact trimStartOf_sublist ..
  have hleft : w.Sublist (pre ++ w ++ post) := (List.infix_append ..).sublist
  refine ⟨fun htag => ?_, fun hthink => ?_, assistantFinal_not_left hout, ?_, ?_⟩
  · exact not_left (by decide) (fun _ _ _ h => channelMarkup_iff.mpr (.inl h)) (List.Sublist.refl _) hout htag hleft
  · exact not_left (by decide) (fun _ _ _ h => h) hl₁ hout₁ hthink hleft
  · rintro rfl hw ⟨a, b, hab, hbefore⟩
    have ha := white_of_front hbefore
    have hne : w ≠ [] := fun h => Pattern.matches_ne_nil hw (by rw [h]; rfl)
    refine not_left_of_front leadingThought_ink hab ha hne (hl₂.trans hl₁) (fun la lb hla => ?_) hout₂ hleft
    exact ⟨la.map Prod.fst ++ w.map Prod.fst, lb.map Prod.fst, by simp, leadingThought_absorb (white_map hla) hw⟩
  · rintro rfl hw x hx ⟨a, b, hab, hbefore⟩
    have ha := white_of_front hbefore
    have hnext : post.head? = some x := hx
    obtain ⟨rest, rfl⟩ := List.head?_eq_some_iff.mp hnext
    have hwhole : (w ++ [x]).Sublist ([] ++ w ++ x :: rest) := by
      rw [List.nil_append]
      exact (List.Sublist.refl w).append ((List.nil_sublist rest).cons_cons x)
    refine not_left_of_front inlineThoughtPrefix_ink hab ha (by simp) ((hl₃.trans hl₂).trans hl₁) (fun la lb hla => ?_) hout₃ hwhole
    refine ⟨la.map Prod.fst ++ w.map Prod.fst, x.1 :: lb.map Prod.fst, by simp, ?_⟩
    exact inlineThoughtPrefix_absorb (show ((x :: rest).map Prod.fst).head? = _ from rfl) (white_map hla) hw

end

/-! ## Again and again -/

theorem started_trimStartOf (s : List Char) : Started (trimStartOf id s) := by
  rw [← trimStartOf_eq_self_iff]
  exact List.dropWhile_idempotent ..

theorem started_stripChannelMarkup (t : List Char) : Started (stripChannelMarkup id t) := by
  rw [stripChannelMarkup_eq]
  exact started_trimStartOf _

theorem started_stripReasoningLeakage (t : List Char) : Started (stripReasoningLeakage id t) := by
  rw [stripReasoningLeakage_eq]
  exact started_trimStartOf _

/-- `f` changes what it left of the text exactly when that is not free. Again and again it comes to rest, where its text is
free. -/
def Settles (f : List Char → List Char) (free : List Char → Prop) (t : List Char) : Prop :=
  (f (f t) = f t ↔ free (f t)) ∧ ∃ n ≤ 2 * t.length, f (f^[n] t) = f^[n] t ∧ free (f^[n] t)

theorem settles {f : List Char → List Char} {free : List Char → Prop} (hlighter : ∀ s, Lighter (f s) s)
    (hfree : ∀ s, f s = s → free s) (hfixed : ∀ s, free (f s) → f (f s) = f s) (t : List Char) : Settles f free t := by
  obtain ⟨n, hn, hrest⟩ := exists_rest hlighter t
  exact ⟨⟨hfree _, hfixed t⟩, n, hn.trans (load_le_length t), hrest, hfree _ hrest⟩

def asciiWords : WordClasses := ⟨fun c => c.isAlphanum || c = '_', Char.isDigit, by decide⟩

end BssCli.Cockpit
