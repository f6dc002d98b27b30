import BssCli.Lib.Pieces

/-!
# Tags that nest

A walk over a text with tags, and the elements that are open. Tags of some names can be left out of the account. A text is
neutral when it closes what it opens, in order, and nothing else.
-/

namespace Markup

section
variable (keep : List Char → Bool)

/-- What a tag does to the open elements, the innermost first. -/
def applyTag (tag : List Char) (opened : List (List Char)) : Option (List (List Char)) :=
  match tag with
  | '/' :: name =>
    if keep name then
      match opened with
      | top :: rest => if top = name then some rest else none
      | [] => none
    else
      some opened
  | name => some (if keep name then name :: opened else opened)

/-- The walk outside a tag, or inside with what stands there so far. -/
def scan : List (List Char) → Option (List Char) → List Char → Option (List (List Char))
  | opened, none, [] => some opened
  | _, some _, [] => none
  | opened, none, c :: s => if c = '<' then scan opened (some []) s else scan opened none s
  | opened, some tag, c :: s =>
    if c = '>' then (applyTag keep tag opened).bind fun opened' => scan opened' none s
    else scan opened (some (tag ++ [c])) s

/-- All that is open is in the account. -/
def Kept (opened : List (List Char)) : Prop := ∀ name ∈ opened, keep name = true

/-- Whatever is open around the text is open behind it. -/
def Neutral (s : List Char) : Prop := ∀ opened, Kept keep opened → scan keep opened none s = some opened

/-- The text ends outside its tags, so that the walk goes on as from the start. -/
def Ended (s : List Char) : Prop :=
  ∀ opened t, scan keep opened none (s ++ t) = (scan keep opened none s).bind fun opened' => scan keep opened' none t

end

variable {keep : List Char → Bool} {opened opened' : List (List Char)}

/-! ## Pieces of a text -/

theorem scan_nil (opened : List (List Char)) : scan keep opened none [] = some opened := rfl

theorem scan_cons (opened : List (List Char)) (c : Char) (s : List Char) :
    scan keep opened none (c :: s) = if c = '<' then scan keep opened (some []) s else scan keep opened none s := rfl

theorem scan_cons_inside (opened : List (List Char)) (tag : List Char) (c : Char) (s : List Char) :
    scan keep opened (some tag) (c :: s) =
      if c = '>' then (applyTag keep tag opened).bind fun opened' => scan keep opened' none s
      else scan keep opened (some (tag ++ [c])) s := rfl

theorem scan_plain {s : List Char} (h : '<' ∉ s) (opened : List (List Char)) (t : List Char) :
    scan keep opened none (s ++ t) = scan keep opened none t := by
  induction s with
  | nil => rfl
  | cons c s ih =>
    have hc : c ≠ '<' := fun hc => h (hc ▸ List.mem_cons_self)
    rw [List.cons_append, scan_cons, if_neg hc, ih fun hmem => h (List.mem_cons_of_mem c hmem)]

theorem scan_inside {tag : List Char} (h : '>' ∉ tag) (opened : List (List Char)) (acc t : List Char) :
    scan keep opened (some acc) (tag ++ '>' :: t) = (applyTag keep (acc ++ tag) opened).bind fun o => scan keep o none t := by
  induction tag generalizing acc with
  | nil => rw [List.nil_append, scan_cons_inside, if_pos rfl, List.append_nil]
  | cons c tag ih =>
    have hc : c ≠ '>' := fun hc => h (hc ▸ List.mem_cons_self)
    rw [List.cons_append, scan_cons_inside, if_neg hc, ih fun hmem => h (List.mem_cons_of_mem c hmem), List.append_assoc]
    rfl

theorem scan_tag {tag : List Char} (h : '>' ∉ tag) (opened : List (List Char)) (t : List Char) :
    scan keep opened none ('<' :: tag ++ '>' :: t) = (applyTag keep tag opened).bind fun o => scan keep o none t := by
  rw [List.cons_append, scan_cons, if_pos rfl, scan_inside h, List.nil_append]

theorem ended_plain {s : List Char} (h : '<' ∉ s) : Ended keep s := by
  intro opened t
  have hs : scan keep opened none (s ++ []) = scan keep opened none [] := scan_plain h opened []
  rw [List.append_nil] at hs
  rw [scan_plain h, hs, scan_nil, Option.bind_some]

theorem ended_tag {tag : List Char} (h : '>' ∉ tag) : Ended keep ('<' :: tag ++ ['>']) := by
  intro opened t
  have hone : scan keep opened none ('<' :: tag ++ ['>']) = applyTag keep tag opened := by
    rw [scan_tag h]
    cases applyTag keep tag opened <;> rfl
  rw [List.append_assoc, List.singleton_append, scan_tag h, hone]

theorem ended_append {a b : List Char} (ha : Ended keep a) (hb : Ended keep b) : Ended keep (a ++ b) := by
  intro opened t
  rw [List.append_assoc, ha, ha opened b]
  cases scan keep opened none a with
  | none => rfl
  | some o => exact hb o t

theorem ended_madeOf {piece : List Char → Prop} (h : ∀ p, piece p → Ended keep p) {s : List Char} (hs : MadeOf piece s) :
    Ended keep s := by
  obtain ⟨ps, rfl, hps⟩ := hs
  induction ps with
  | nil => exact ended_plain List.not_mem_nil
  | cons p ps ih =>
    obtain ⟨hp, hps⟩ := List.forall_mem_cons.mp hps
    exact ended_append (h p hp) (ih hps)

/-! ## What is open -/

theorem applyTag_kept {tag : List Char} (h : applyTag keep tag opened = some opened') (hkept : Kept keep opened) :
    Kept keep opened' := by
  unfold applyTag at h
  split at h
  · split at h
    · split at h
      · split at h
        · obtain rfl := Option.some.inj h
          exact fun name hname => hkept name (List.mem_cons_of_mem _ hname)
        · cases h
      · cases h
    · obtain rfl := Option.some.inj h
      exact hkept
  · obtain rfl := Option.some.inj h
    split
    · rename_i hkeep
      exact List.forall_mem_cons.mpr ⟨hkeep, hkept⟩
    · exact hkept

/-- More open elements around a tag stay as they are. -/
theorem applyTag_around {tag : List Char} (h : applyTag keep tag opened = some opened') (around : List (List Char)) :
    applyTag keep tag (opened ++ around) = some (opened' ++ around) := by
  unfold applyTag at *
  split at h
  · split at h
    · rename_i hkeep
      rw [if_pos hkeep]
      split at h
      · split at h
        · rename_i htop
          obtain rfl := Option.some.inj h
          exact if_pos htop
        · cases h
      · cases h
    · rename_i hkeep
      obtain rfl := Option.some.inj h
      exact if_neg hkeep
  · obtain rfl := Option.some.inj h
    split <;> rfl

theorem scan_kept {s : List Char} {tag : Option (List Char)} (h : scan keep opened tag s = some opened')
    (hkept : Kept keep opened) : Kept keep opened' := by
  induction s generalizing opened tag with
  | nil =>
    cases tag with
    | none =>
      obtain rfl := Option.some.inj h
      exact hkept
    | some tag => cases h
  | cons c s ih =>
    cases tag with
    | none =>
      rw [scan_cons] at h
      split at h
      · exact ih h hkept
      · exact ih h hkept
    | some tag =>
      rw [scan_cons_inside] at h
      split at h
      · obtain ⟨o, ho, hrest⟩ := Option.bind_eq_some_iff.mp h
        exact ih hrest (applyTag_kept ho hkept)
      · exact ih h hkept

theorem scan_around {s : List Char} {tag : Option (List Char)} (h : scan keep opened tag s = some opened')
    (around : List (List Char)) : scan keep (opened ++ around) tag s = some (opened' ++ around) := by
  induction s generalizing opened tag with
  | nil =>
    cases tag with
    | none =>
      obtain rfl := Option.some.inj h
      rfl
    | some tag => cases h
  | cons c s ih =>
    cases tag with
    | none =>
      rw [scan_cons] at h ⊢
      split at h
      · rename_i hc
        rw [if_pos hc]
        exact ih h
      · rename_i hc
        rw [if_neg hc]
        exact ih h
    | some tag =>
      rw [scan_cons_inside] at h ⊢
      split at h
      · rename_i hc
        obtain ⟨o, ho, hrest⟩ := Option.bind_eq_some_iff.mp h
        rw [if_pos hc, applyTag_around ho, Option.bind_some]
        exact ih hrest
      · rename_i hc
        rw [if_neg hc]
        exact ih h

/-! ## Elements -/

theorem neutral_plain {s : List Char} (h : '<' ∉ s) : Neutral keep s := by
  intro opened _
  have hs : scan keep opened none (s ++ []) = scan keep opened none [] := scan_plain h opened []
  rwa [List.append_nil, scan] at hs

theorem neutral_append {a b : List Char} (ha : Neutral keep a) (hended : Ended keep a) (hb : Neutral keep b) :
    Neutral keep (a ++ b) := by
  intro opened hkept
  rw [hended, ha opened hkept, Option.bind_some, hb opened hkept]

/-- The name of an element, as it stands in a tag. -/
structure Named (name : List Char) : Prop where
  ends : '>' ∉ name
  opens : name.head? ≠ some '/'

def element (name body : List Char) : List Char := '<' :: name ++ '>' :: (body ++ ('<' :: '/' :: name ++ ['>']))

theorem applyTag_open {name : List Char} (h : Named name) :
    applyTag keep name opened = some (if keep name then name :: opened else opened) := by
  unfold applyTag
  split
  · exact absurd rfl h.opens
  · rfl

theorem applyTag_close (name : List Char) :
    applyTag keep ('/' :: name) (if keep name then name :: opened else opened) = some opened := by
  cases hkeep : keep name with
  | true =>
    show (if keep name = true then (if name = name then some opened else none) else _) = _
    rw [if_pos hkeep, if_pos rfl]
  | false =>
    show (if keep name = true then _ else some opened) = _
    rw [hkeep]
    rfl

/-- The content stands between what the two tags do. -/
theorem scan_element {name body : List Char} (hname : Named name) (hbody : Ended keep body) (opened : List (List Char)) :
    scan keep opened none (element name body) =
      (scan keep (if keep name then name :: opened else opened) none body).bind (applyTag keep ('/' :: name)) := by
  have hslash : '>' ∉ '/' :: name := by
    rw [List.mem_cons, not_or]
    exact ⟨by decide, hname.ends⟩
  rw [element, scan_tag hname.ends, applyTag_open hname, Option.bind_some, hbody]
  refine Option.bind_congr fun o _ => ?_
  rw [scan_tag hslash]
  cases applyTag keep ('/' :: name) o <;> rfl

theorem neutral_element {name body : List Char} (hname : Named name) (hended : Ended keep body) (hbody : Neutral keep body) :
    Neutral keep (element name body) := by
  intro opened hkept
  have hinside : Kept keep (if keep name then name :: opened else opened) := by
    split
    · rename_i hkeep
      exact List.forall_mem_cons.mpr ⟨hkeep, hkept⟩
    · exact hkept
  rw [scan_element hname hended, hbody _ hinside, Option.bind_some, applyTag_close]

/-- The element does to what is open what its content does. -/
def Wraps (keep : List Char → Bool) (name body : List Char) : Prop :=
  ∀ opened opened', Kept keep opened → scan keep opened none body = some opened' →
    scan keep opened none (element name body) = some opened'

theorem wraps_of_neutral {name body : List Char} (hname : Named name) (hended : Ended keep body) (h : Neutral keep body) :
    Wraps keep name body := by
  intro opened opened' hkept hscan
  obtain rfl := Option.some.inj ((h opened hkept).symm.trans hscan)
  exact neutral_element hname hended h opened hkept

/-- An element that is left out of the account. -/
theorem wraps_of_left_out {name body : List Char} (hname : Named name) (hended : Ended keep body) (h : keep name = false) :
    Wraps keep name body := by
  intro opened opened' hkept hscan
  have hclose : applyTag keep ('/' :: name) (if keep name then name :: opened' else opened') = some opened' := applyTag_close name
  rw [h, if_neg Bool.false_ne_true] at hclose
  rw [scan_element hname hended, h, if_neg Bool.false_ne_true, hscan, Option.bind_some, hclose]

/-- Where elements of one name are all that counts, it does not matter which of them a tag closes. -/
theorem wraps_of_only {name body : List Char} (hname : Named name) (hended : Ended keep body)
    (h : ∀ x, keep x = true ↔ x = name) : Wraps keep name body := by
  intro opened opened' hkept hscan
  have hall : ∀ {o : List (List Char)}, Kept keep o → o ++ [name] = name :: o := by
    intro o ho
    have hrep := List.eq_replicate_of_mem fun x hx => (h x).mp (ho x hx)
    rw [hrep, ← List.replicate_succ', List.replicate_succ]
  have hkeep : keep name = true := (h name).mpr rfl
  have haround := scan_around hscan [name]
  rw [hall hkept, hall (scan_kept hscan hkept)] at haround
  have hclose : applyTag keep ('/' :: name) (if keep name then name :: opened' else opened') = some opened' := applyTag_close name
  rw [if_pos hkeep] at hclose
  rw [scan_element hname hended, if_pos hkeep, haround, Option.bind_some, hclose]

/-! ## Sound texts -/

/-- A text that can stand anywhere between two tags. -/
structure Sound (keep : List Char → Bool) (s : List Char) : Prop where
  neutral : Neutral keep s
  ended : Ended keep s

namespace Sound

theorem plain {s : List Char} (h : '<' ∉ s) : Sound keep s := ⟨neutral_plain h, ended_plain h⟩

theorem append {a b : List Char} (ha : Sound keep a) (hb : Sound keep b) : Sound keep (a ++ b) :=
  ⟨neutral_append ha.neutral ha.ended hb.neutral, ended_append ha.ended hb.ended⟩

theorem flatten {ss : List (List Char)} (h : ∀ s ∈ ss, Sound keep s) : Sound keep ss.flatten := by
  induction ss with
  | nil => exact plain List.not_mem_nil
  | cons s ss ih =>
    obtain ⟨hs, hss⟩ := List.forall_mem_cons.mp h
    exact hs.append (ih hss)

theorem intercalate {sep : List Char} {ss : List (List Char)} (hsep : Sound keep sep) (h : ∀ s ∈ ss, Sound keep s) :
    Sound keep (sep.intercalate ss) := by
  induction ss with
  | nil => exact plain List.not_mem_nil
  | cons s ss ih =>
    obtain ⟨hs, hss⟩ := List.forall_mem_cons.mp h
    cases ss with
    | nil =>
      rw [List.intercalate_singleton]
      exact hs
    | cons t ss =>
      rw [List.intercalate_cons_cons]
      exact (hs.append hsep).append (ih hss)

theorem element {name body : List Char} (hname : Named name) (h : Sound keep body) : Sound keep (Markup.element name body) := by
  refine ⟨neutral_element hname h.ended h.neutral, ?_⟩
  have hclose : '>' ∉ '/' :: name := by
    rw [List.mem_cons, not_or]
    exact ⟨by decide, hname.ends⟩
  have hparts : Markup.element name body = '<' :: name ++ ['>'] ++ (body ++ ('<' :: ('/' :: name) ++ ['>'])) := by
    simp [Markup.element]
  rw [hparts]
  exact ended_append (ended_tag hname.ends) (ended_append h.ended (ended_tag hclose))

/-- A tag of a name that is left out. -/
theorem void {name : List Char} (hname : Named name) (h : keep name = false) : Sound keep ('<' :: name ++ ['>']) := by
  refine ⟨fun opened _ => ?_, ended_tag hname.ends⟩
  rw [scan_tag hname.ends, applyTag_open hname, h]
  rfl

end Sound

end Markup
