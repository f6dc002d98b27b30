import BssCli.Clock.Instant
import BssCli.Lib.Text

/-!
# The scenario clock

`parse_duration`, and `freeze`, `unfreeze`, `advance` and `now`. Where chrono's sums leave the range they panic. A panic leaves what was
stored before it.
-/

namespace BssCli.Clock

/-! ## Instants and durations -/

/-- A `DateTime<Utc>` -/
abbrev Moment := {t : ℤ // Fits t}

/-- `TimeDelta::MAX`, in nanoseconds. -/
def maxDelta : ℤ := (2 ^ 63 - 1) * 1000000

/-- A `Duration` -/
abbrev Delta := {d : ℤ // -maxDelta ≤ d ∧ d ≤ maxDelta}

def Delta.zero : Delta := ⟨0, by decide⟩

/-- A duration that is there, and `none` where the constructor or the sum panics. -/
def delta? (d : ℤ) : Option Delta := if h : -maxDelta ≤ d ∧ d ≤ maxDelta then some ⟨d, h⟩ else none

def moment? (t : ℤ) : Option Moment := if h : Fits t then some ⟨t, h⟩ else none

def Delta.add (a b : Delta) : Option Delta := delta? (a.val + b.val)

def Moment.add (t : Moment) (d : Delta) : Option Moment := moment? (t.val + d.val)

theorem delta?_eq_some {d : ℤ} {r : Delta} : delta? d = some r ↔ r.val = d := by
  unfold delta?
  split
  · rw [Option.some.injEq, Subtype.ext_iff]
    exact eq_comm
  · rename_i h
    refine iff_of_false (Option.some_ne_none r ∘ Eq.symm) ?_
    rintro rfl
    exact h r.property

theorem moment?_eq_some {t : ℤ} {r : Moment} : moment? t = some r ↔ r.val = t := by
  unfold moment?
  split
  · rw [Option.some.injEq, Subtype.ext_iff]
    exact eq_comm
  · rename_i h
    refine iff_of_false (Option.some_ne_none r ∘ Eq.symm) ?_
    rintro rfl
    exact h r.property

/-- Every instant is a duration away from every other. -/
theorem span_le : maxUtc - minUtc ≤ maxDelta := by decide +kernel

/-! ## Parsing -/

inductive ClockError
  | negativeDuration
  | invalidDuration (value : List Char)

def trimEnd (cs : List Char) : List Char := cs.rdropWhile Text.isWhitespace

def nanosOf : Char → Option ℤ
  | 's' => some 1000000000
  | 'm' => some 60000000000
  | 'h' => some 3600000000000
  | 'd' => some 86400000000000
  | _ => none

/-- `none` after a panic of chrono's constructor. -/
def parseDuration (value : List Char) : Option (Except ClockError Delta) :=
  let err := some (.error (.invalidDuration value))
  let trimmed := Text.trim value
  match trimmed.getLast?.bind nanosOf with
  | none => err
  | some nanos =>
    let digits := trimEnd trimmed.dropLast
    if digits = [] || !digits.all Char.isDigit then err
    else
      match Text.parseI64 digits with
      | none => err
      | some qty => (delta? (qty * nanos)).map .ok

/-- White space, digits, white space, a unit and white space. -/
structure WellFormed (value digits : List Char) (nanos : ℤ) : Prop where
  ne_nil : digits ≠ []
  digit : ∀ c ∈ digits, c.isDigit = true
  shape : ∃ a b c unit, value = a ++ digits ++ b ++ unit :: c ∧ nanosOf unit = some nanos ∧
    ∀ w ∈ a ++ b ++ c, Text.isWhitespace w = true

theorem not_isWhitespace_of_isDigit {c : Char} (h : c.isDigit = true) : Text.isWhitespace c = false := by
  have hrange : 48 ≤ c.toNat ∧ c.toNat ≤ 57 := by
    simpa [Char.isDigit, UInt32.le_iff_toNat_le] using h
  simp [Text.isWhitespace]
  omega

theorem not_isWhitespace_of_nanosOf {c : Char} {nanos : ℤ} (h : nanosOf c = some nanos) : Text.isWhitespace c = false := by
  unfold nanosOf at h
  split at h
  all_goals first
    | rfl
    | cases h

theorem dropWhile_whitespace {a b : List Char} {c : Char} (ha : ∀ w ∈ a, Text.isWhitespace w = true)
    (hc : Text.isWhitespace c = false) : (a ++ c :: b).dropWhile Text.isWhitespace = c :: b := by
  rw [List.dropWhile_append_of_pos ha, List.dropWhile_cons_of_neg (by simp [hc])]

theorem rdropWhile_whitespace {a b : List Char} {c : Char} (hb : ∀ w ∈ b, Text.isWhitespace w = true)
    (hc : Text.isWhitespace c = false) : (a ++ c :: b).rdropWhile Text.isWhitespace = a ++ [c] := by
  induction b using List.reverseRecOn with
  | nil => exact List.rdropWhile_concat_neg _ _ _ (by simp [hc])
  | append_singleton b w ih =>
    have hw := hb w (by simp)
    have hsplit : a ++ c :: (b ++ [w]) = (a ++ c :: b) ++ [w] := by simp
    rw [hsplit, List.rdropWhile_concat_pos _ _ _ hw]
    exact ih fun v hv => hb v (List.mem_append_left _ hv)

theorem trim_eq (cs : List Char) : Text.trim cs = (cs.dropWhile Text.isWhitespace).rdropWhile Text.isWhitespace := rfl

/-- What the parser cuts out of a text of the shape. -/
theorem WellFormed.cut {value digits : List Char} {nanos : ℤ} (h : WellFormed value digits nanos) :
    (Text.trim value).getLast?.bind nanosOf = some nanos ∧ trimEnd (Text.trim value).dropLast = digits := by
  obtain ⟨hne, hdigit, a, b, c, unit, rfl, hunit, hspace⟩ := h
  have hunitSpace := not_isWhitespace_of_nanosOf hunit
  obtain ⟨d, ds, rfl⟩ := List.exists_cons_of_ne_nil hne
  have hfront : (a ++ (d :: ds) ++ b ++ unit :: c).dropWhile Text.isWhitespace = (d :: ds) ++ b ++ unit :: c := by
    have hassoc : a ++ (d :: ds) ++ b ++ unit :: c = a ++ d :: (ds ++ b ++ unit :: c) := by simp
    rw [hassoc, dropWhile_whitespace (fun w hw => hspace w (by simp [hw]))
      (not_isWhitespace_of_isDigit (hdigit d List.mem_cons_self))]
    simp
  have htrim : Text.trim (a ++ (d :: ds) ++ b ++ unit :: c) = (d :: ds) ++ b ++ [unit] := by
    rw [trim_eq, hfront, rdropWhile_whitespace (fun w hw => hspace w (by simp [hw])) hunitSpace]
  have hdigits : trimEnd ((d :: ds) ++ b) = d :: ds := by
    obtain ⟨init, last, hlast⟩ := List.eq_nil_or_concat (d :: ds) |>.resolve_left hne
    have hlastDigit := hdigit last (by rw [hlast]; simp)
    have hassoc : init.concat last ++ b = init ++ last :: b := by simp
    rw [hlast, hassoc, List.concat_eq_append]
    exact rdropWhile_whitespace (fun w hw => hspace w (by simp [hw])) (not_isWhitespace_of_isDigit hlastDigit)
  rw [htrim, List.getLast?_concat, List.dropLast_concat]
  exact ⟨hunit, hdigits⟩

/-- A text that the parser cuts so has the shape. -/
theorem wellFormed_of_cut {value digits : List Char} {nanos : ℤ} (hunit : (Text.trim value).getLast?.bind nanosOf = some nanos)
    (hdigits : trimEnd (Text.trim value).dropLast = digits) (hne : digits ≠ []) (hdigit : ∀ c ∈ digits, c.isDigit = true) :
    WellFormed value digits nanos := by
  obtain ⟨unit, hlast, hnanos⟩ := Option.bind_eq_some_iff.mp hunit
  obtain ⟨init, hinit⟩ := List.getLast?_eq_some_iff.mp hlast
  have hspace : ∀ cs : List Char, ∀ w ∈ cs.takeWhile Text.isWhitespace, Text.isWhitespace w = true :=
    fun cs w hw => List.mem_takeWhile_imp hw
  have hback : ∀ cs : List Char, ∀ w ∈ cs.rtakeWhile Text.isWhitespace, Text.isWhitespace w = true :=
    fun cs w hw => List.mem_rtakeWhile_imp hw
  refine ⟨hne, hdigit, value.takeWhile Text.isWhitespace, init.rtakeWhile Text.isWhitespace,
    (value.dropWhile Text.isWhitespace).rtakeWhile Text.isWhitespace, unit, ?_, hnanos, ?_⟩
  · have houter := List.takeWhile_append_dropWhile (p := Text.isWhitespace) (l := value)
    have hinner := List.rdropWhile_append_rtakeWhile (p := Text.isWhitespace) (l := value.dropWhile Text.isWhitespace)
    have hdrop := List.rdropWhile_append_rtakeWhile (p := Text.isWhitespace) (l := init)
    rw [trim_eq] at hinit
    rw [trim_eq, hinit, List.dropLast_concat] at hdigits
    unfold trimEnd at hdigits
    rw [hdigits] at hdrop
    rw [hinit, ← hdrop] at hinner
    calc value = value.takeWhile Text.isWhitespace ++ value.dropWhile Text.isWhitespace := houter.symm
      _ = value.takeWhile Text.isWhitespace ++ (digits ++ init.rtakeWhile Text.isWhitespace ++ [unit] ++
          (value.dropWhile Text.isWhitespace).rtakeWhile Text.isWhitespace) := by rw [hinner]
      _ = _ := by simp
  · intro w hw
    rcases List.mem_append.mp hw with hw | hw
    · rcases List.mem_append.mp hw with hw | hw
      · exact hspace _ w hw
      · exact hback _ w hw
    · exact hback _ w hw

theorem digitsVal_isSome {digits : List Char} (h : ∀ c ∈ digits, c.isDigit = true) : ∃ n, Text.digitsVal digits = some n := by
  induction digits using List.reverseRecOn with
  | nil => exact ⟨0, rfl⟩
  | append_singleton digits c ih =>
    obtain ⟨n, hn⟩ := ih fun d hd => h d (List.mem_append_left _ hd)
    refine ⟨10 * n + (c.toNat - 48), ?_⟩
    rw [Text.digitsVal_append_one, hn, Option.bind_some, if_pos (h c (by simp))]

/-- What a well-formed text says. -/
structure Says (value : List Char) (qty : ℕ) (nanos : ℤ) : Prop where
  shape : ∃ digits, WellFormed value digits nanos ∧ Text.digitsVal digits = some qty

theorem nanosOf_pos {c : Char} {nanos : ℤ} (h : nanosOf c = some nanos) : 1000000000 ≤ nanos := by
  unfold nanosOf at h
  split at h
  all_goals first
    | (obtain rfl := Option.some.inj h; decide)
    | cases h

theorem Says.nanos_le {value : List Char} {qty : ℕ} {nanos : ℤ} (h : Says value qty nanos) : 1000000000 ≤ nanos := by
  obtain ⟨digits, ⟨-, -, a, b, c, unit, -, hunit, -⟩, -⟩ := h.shape
  exact nanosOf_pos hunit

theorem Says.unique {value : List Char} {qty qty' : ℕ} {nanos nanos' : ℤ} (h : Says value qty nanos) (h' : Says value qty' nanos') :
    qty = qty' ∧ nanos = nanos' := by
  obtain ⟨digits, hwf, hval⟩ := h.shape
  obtain ⟨digits', hwf', hval'⟩ := h'.shape
  obtain ⟨hnanos, hdigits⟩ := hwf.cut
  obtain ⟨hnanos', hdigits'⟩ := hwf'.cut
  obtain rfl := hdigits.symm.trans hdigits'
  exact ⟨Option.some.inj (hval.symm.trans hval'), Option.some.inj (hnanos.symm.trans hnanos')⟩

/-- A text that says a quantity becomes its duration, an error when it is no `i64`, and a panic when it is no duration. -/
theorem parseDuration_says {value : List Char} {qty : ℕ} {nanos : ℤ} (h : Says value qty nanos) :
    parseDuration value =
      if qty < 2 ^ 63 then (delta? (qty * nanos)).map .ok else some (.error (.invalidDuration value)) := by
  obtain ⟨digits, hwf, hval⟩ := h.shape
  obtain ⟨hnanos, hdigits⟩ := hwf.cut
  have hcheck : (digits = [] || !digits.all Char.isDigit) = false := by
    simp only [Bool.or_eq_false_iff, decide_eq_false_iff_not, Bool.not_eq_false', List.all_eq_true]
    exact ⟨hwf.ne_nil, hwf.digit⟩
  have hparse : Text.parseI64 digits = Text.checkI64 qty := by
    rw [Text.parseI64_of_isDigit hwf.digit, Text.parseDigits, if_neg hwf.ne_nil, hval, Option.bind_some]
  unfold parseDuration
  dsimp only
  rw [hnanos]
  dsimp only
  rw [hdigits, hcheck, hparse]
  by_cases hfit : qty < 2 ^ 63
  · have hcheckI64 : Text.checkI64 qty = some (qty : ℤ) := if_pos ⟨by omega, by omega⟩
    rw [hcheckI64, if_pos hfit]
    rfl
  · have hcheckI64 : Text.checkI64 qty = none := if_neg (by omega)
    rw [hcheckI64, if_neg hfit]
    rfl

/-- Every other text is an error. -/
theorem parseDuration_invalid {value : List Char} (h : ∀ qty nanos, ¬ Says value qty nanos) :
    parseDuration value = some (.error (.invalidDuration value)) := by
  unfold parseDuration
  dsimp only
  split
  · rfl
  · rename_i nanos hnanos
    split
    · rfl
    · rename_i hcheck
      simp only [Bool.not_eq_true, Bool.or_eq_false_iff, decide_eq_false_iff_not, Bool.not_eq_false', List.all_eq_true] at hcheck
      obtain ⟨qty, hqty⟩ := digitsVal_isSome hcheck.2
      exact (h qty nanos ⟨_, wellFormed_of_cut hnanos rfl hcheck.1 hcheck.2, hqty⟩).elim

/-- The parser does not panic, and takes the quantities that are durations. -/
def ParsesRight (value : List Char) : Prop :=
  ∃ r, parseDuration value = some r ∧ ∀ d : Delta, r = .ok d ↔ ∃ qty nanos, Says value qty nanos ∧ d.val = qty * nanos

/-- What is said of the one reading of a text. -/
theorem Says.exists_iff {P : ℕ → ℤ → Prop} {value : List Char} {qty : ℕ} {nanos : ℤ} (h : Says value qty nanos) :
    (∃ qty nanos, Says value qty nanos ∧ P qty nanos) ↔ P qty nanos := by
  refine ⟨?_, fun hp => ⟨qty, nanos, h, hp⟩⟩
  rintro ⟨qty', nanos', h', hp⟩
  obtain ⟨rfl, rfl⟩ := h.unique h'
  exact hp

theorem parsesRight_of_says {value : List Char} {qty : ℕ} {nanos : ℤ} (h : Says value qty nanos) :
    ParsesRight value ↔ ¬ (qty < 2 ^ 63 ∧ maxDelta < qty * nanos) := by
  have hnanos := h.nanos_le
  have hpos : 0 ≤ qty * nanos := Int.mul_nonneg (Int.natCast_nonneg qty) (by omega)
  unfold ParsesRight
  simp only [h.exists_iff, parseDuration_says h]
  by_cases hfit : qty < 2 ^ 63
  · rw [if_pos hfit]
    by_cases hrange : maxDelta < qty * nanos
    · refine iff_of_false ?_ (fun hnot => hnot ⟨hfit, hrange⟩)
      rintro ⟨r, hr, -⟩
      obtain ⟨d, hd, -⟩ := Option.map_eq_some_iff.mp hr
      have hval := delta?_eq_some.mp hd
      have hmax := d.property.2
      omega
    · refine iff_of_true ?_ (fun hbad => hrange hbad.2)
      have hdelta : -maxDelta ≤ qty * nanos ∧ qty * nanos ≤ maxDelta := ⟨by unfold maxDelta; omega, by omega⟩
      have hd : delta? (qty * nanos) = some ⟨qty * nanos, hdelta⟩ := delta?_eq_some.mpr rfl
      refine ⟨.ok ⟨qty * nanos, hdelta⟩, by rw [hd]; rfl, fun d => ?_⟩
      rw [Except.ok.injEq, Subtype.ext_iff]
      exact eq_comm
  · rw [if_neg hfit]
    refine iff_of_true ⟨_, rfl, fun d => iff_of_false (by simp) ?_⟩ fun hbad => hfit hbad.1
    -- A quantity that is no `i64` is no duration either.
    intro hd
    have hmax := d.property.2
    have hbig : (2 ^ 63 : ℤ) * 1000000000 ≤ qty * nanos := Int.mul_le_mul (by omega) hnanos (by decide) (by omega)
    unfold maxDelta at hmax
    omega

theorem parsesRight_iff (value : List Char) :
    ParsesRight value ↔ ¬ ∃ qty nanos, Says value qty nanos ∧ qty < 2 ^ 63 ∧ maxDelta < qty * nanos := by
  by_cases hsays : ∃ qty nanos, Says value qty nanos
  · obtain ⟨qty, nanos, h⟩ := hsays
    rw [h.exists_iff]
    exact parsesRight_of_says h
  · have hnone : ∀ qty nanos, ¬ Says value qty nanos := fun qty nanos h => hsays ⟨qty, nanos, h⟩
    refine iff_of_true ⟨_, parseDuration_invalid hnone, fun d => iff_of_false (by simp) ?_⟩ ?_
    · rintro ⟨qty, nanos, h, -⟩
      exact hnone qty nanos h
    · rintro ⟨qty, nanos, h, -⟩
      exact hnone qty nanos h

/-! ## The clock -/

inductive Mode
  | wall
  | frozen
  deriving DecidableEq

structure Inner where
  mode : Mode
  frozenAt : Option Moment
  offset : Delta

def Inner.default : Inner := ⟨.wall, none, Delta.zero⟩

/-- The wall's reading is the second argument of every call. -/
def computeNow (s : Inner) (wall : Moment) : Option Moment :=
  match s.mode with
  | .frozen => some (s.frozenAt.getD wall)
  | .wall => wall.add s.offset

inductive Op
  | freeze (target : Option Moment)
  | unfreeze
  | advance (delta : Delta)

inductive Outcome
  | panicked
  | failed (e : ClockError)
  | returned (t : Moment)
  | done

def freeze (s : Inner) (wall : Moment) (target : Option Moment) : Inner × Outcome :=
  match target.or (computeNow s wall) with
  | none => (s, .panicked)
  | some pinned => (⟨.frozen, some pinned, s.offset⟩, .returned pinned)

def unfreeze (s : Inner) : Inner := ⟨.wall, none, s.offset⟩

/-- What `advance` publishes. -/
def shift (s : Inner) (wall : Moment) (delta : Delta) : Option Inner :=
  match s.mode with
  | .frozen => ((s.frozenAt.getD wall).add delta).map fun t => ⟨.frozen, some t, s.offset⟩
  | .wall => (s.offset.add delta).map fun offset => ⟨.wall, none, offset⟩

def advance (s : Inner) (wall : Moment) (delta : Delta) : Inner × Outcome :=
  if delta.val < 0 then (s, .failed .negativeDuration)
  else
    match shift s wall delta with
    | none => (s, .panicked)
    | some s' =>
      match computeNow s' wall with
      | none => (s', .panicked)
      | some t => (s', .returned t)

def step (s : Inner) (wall : Moment) : Op → Inner × Outcome
  | .freeze target => freeze s wall target
  | .unfreeze => (unfreeze s, .done)
  | .advance delta => advance s wall delta

/-- Every call with the wall's reading. -/
def run (s : Inner) (ops : List (Op × Moment)) : Inner := ops.foldl (fun s op => (step s op.2 op.1).1) s

/-- What the clock shows, in or out of chrono's years. -/
def reading (s : Inner) (wall : Moment) : ℤ :=
  match s.mode with
  | .frozen => (s.frozenAt.getD wall).val
  | .wall => wall.val + s.offset.val

structure Sound (s : Inner) : Prop where
  frozenAt : s.mode = .frozen → s.frozenAt.isSome
  offset : 0 ≤ s.offset.val

theorem sound_default : Sound Inner.default := ⟨by simp [Inner.default], le_rfl⟩

theorem sound_freeze {s : Inner} (h : Sound s) (wall : Moment) (target : Option Moment) : Sound (freeze s wall target).1 := by
  unfold freeze
  split
  · exact h
  · exact ⟨fun _ => rfl, h.offset⟩

theorem sound_shift {s s' : Inner} (h : Sound s) {wall : Moment} {delta : Delta} (hdelta : 0 ≤ delta.val)
    (hs : shift s wall delta = some s') : Sound s' := by
  unfold shift at hs
  split at hs
  · obtain ⟨t, -, rfl⟩ := Option.map_eq_some_iff.mp hs
    exact ⟨fun _ => rfl, h.offset⟩
  · obtain ⟨offset, hoffset, rfl⟩ := Option.map_eq_some_iff.mp hs
    have hsum := delta?_eq_some.mp hoffset
    have hpos := h.offset
    refine ⟨fun hmode => (nomatch hmode), ?_⟩
    show 0 ≤ offset.val
    omega

theorem sound_advance {s : Inner} (h : Sound s) (wall : Moment) (delta : Delta) : Sound (advance s wall delta).1 := by
  unfold advance
  split
  · exact h
  · rename_i hneg
    split
    · exact h
    · rename_i s' hs
      have hs' := sound_shift h (Int.not_lt.mp hneg) hs
      split
      · exact hs'
      · exact hs'

theorem sound_step {s : Inner} (h : Sound s) (wall : Moment) (op : Op) : Sound (step s wall op).1 := by
  cases op with
  | freeze target => exact sound_freeze h wall target
  | unfreeze => exact ⟨fun hmode => (nomatch hmode), h.offset⟩
  | advance delta => exact sound_advance h wall delta

theorem sound_run {s : Inner} (h : Sound s) (ops : List (Op × Moment)) : Sound (run s ops) := by
  induction ops generalizing s with
  | nil => exact h
  | cons op ops ih => exact ih (sound_step h op.2 op.1)

/-! ## Advancing -/

theorem moment_add_eq_some {t r : Moment} {d : Delta} (h : t.add d = some r) : r.val = t.val + d.val := moment?_eq_some.mp h

/-- An instant and what is added to it stay behind the first year. -/
theorem moment_add_isSome {t : Moment} {d : Delta} (hd : 0 ≤ d.val) :
    (∃ r, t.add d = some r) ↔ t.val + d.val ≤ maxUtc := by
  constructor
  · rintro ⟨r, hr⟩
    rw [← moment_add_eq_some hr]
    exact r.property.2
  · intro hmax
    have hmin := t.property.1
    exact ⟨⟨t.val + d.val, ⟨by omega, hmax⟩⟩, moment?_eq_some.mpr rfl⟩

theorem computeNow_frozen {s : Inner} (hmode : s.mode = .frozen) (wall : Moment) :
    computeNow s wall = some (s.frozenAt.getD wall) := by
  unfold computeNow
  rw [hmode]

theorem computeNow_wall {s : Inner} (hmode : s.mode = .wall) (wall : Moment) : computeNow s wall = wall.add s.offset := by
  unfold computeNow
  rw [hmode]

theorem shift_frozen {s : Inner} (hmode : s.mode = .frozen) (wall : Moment) (delta : Delta) :
    shift s wall delta = ((s.frozenAt.getD wall).add delta).map fun t => ⟨.frozen, some t, s.offset⟩ := by
  unfold shift
  rw [hmode]

theorem shift_wall {s : Inner} (hmode : s.mode = .wall) (wall : Moment) (delta : Delta) :
    shift s wall delta = (s.offset.add delta).map fun offset => ⟨.wall, none, offset⟩ := by
  unfold shift
  rw [hmode]

theorem advance_eq_returned {s s' : Inner} {wall t : Moment} {delta : Delta} (hdelta : 0 ≤ delta.val) :
    advance s wall delta = (s', .returned t) ↔ shift s wall delta = some s' ∧ computeNow s' wall = some t := by
  unfold advance
  rw [if_neg (Int.not_lt.mpr hdelta)]
  constructor
  · intro h
    split at h
    · exact nomatch (Prod.ext_iff.mp h).2
    · rename_i s'' hs
      split at h
      · exact nomatch (Prod.ext_iff.mp h).2
      · rename_i r hr
        obtain ⟨rfl, hout⟩ := Prod.ext_iff.mp h
        obtain rfl := Outcome.returned.inj hout
        exact ⟨hs, hr⟩
  · rintro ⟨hs, ht⟩
    rw [hs]
    dsimp only
    rw [ht]

/-- The advance and the call of `now` behind it return. -/
def Returns (s : Inner) (wall wall' : Moment) (delta : Delta) : Prop :=
  ∃ s' t t', advance s wall delta = (s', .returned t) ∧ computeNow s' wall' = some t'

theorem returns_frozen {s : Inner} (hmode : s.mode = .frozen) {delta : Delta} (hdelta : 0 ≤ delta.val) (wall wall' : Moment) :
    Returns s wall wall' delta ↔ reading s wall + delta.val ≤ maxUtc := by
  have hreading : reading s wall = (s.frozenAt.getD wall).val := by
    unfold reading
    rw [hmode]
  rw [hreading, ← moment_add_isSome hdelta]
  constructor
  · rintro ⟨s', t, t', hadvance, -⟩
    have hshift := ((advance_eq_returned hdelta).mp hadvance).1
    rw [shift_frozen hmode] at hshift
    obtain ⟨r, hr, -⟩ := Option.map_eq_some_iff.mp hshift
    exact ⟨r, hr⟩
  · rintro ⟨r, hr⟩
    refine ⟨⟨.frozen, some r, s.offset⟩, r, r, (advance_eq_returned hdelta).mpr ⟨?_, computeNow_frozen rfl wall⟩,
      computeNow_frozen rfl wall'⟩
    rw [shift_frozen hmode, hr]
    rfl

theorem returns_wall {s : Inner} (hs : Sound s) (hmode : s.mode = .wall) {delta : Delta} (hdelta : 0 ≤ delta.val)
    (wall wall' : Moment) :
    Returns s wall wall' delta ↔ reading s wall + delta.val ≤ maxUtc ∧ reading s wall' + delta.val ≤ maxUtc := by
  have hreading : ∀ w : Moment, reading s w = w.val + s.offset.val := by
    intro w
    unfold reading
    rw [hmode]
  have hoffset := hs.offset
  rw [hreading, hreading]
  constructor
  · rintro ⟨s', t, t', hadvance, hnow⟩
    obtain ⟨hshift, hfirst⟩ := (advance_eq_returned hdelta).mp hadvance
    rw [shift_wall hmode] at hshift
    obtain ⟨offset, hsum, rfl⟩ := Option.map_eq_some_iff.mp hshift
    have hval := delta?_eq_some.mp hsum
    have hwall := (moment_add_isSome (t := wall) (d := offset) (by omega)).mp ⟨t, hfirst⟩
    have hwall' := (moment_add_isSome (t := wall') (d := offset) (by omega)).mp ⟨t', hnow⟩
    omega
  · rintro ⟨hwall, hwall'⟩
    -- What chrono's years allow is a duration.
    have hspan := span_le
    have hmin := wall.property.1
    have hrange : -maxDelta ≤ s.offset.val + delta.val ∧ s.offset.val + delta.val ≤ maxDelta := by
      refine ⟨?_, by omega⟩
      unfold maxDelta
      omega
    obtain ⟨sum, hsum⟩ : ∃ sum, s.offset.add delta = some sum := ⟨⟨_, hrange⟩, delta?_eq_some.mpr rfl⟩
    have hval := delta?_eq_some.mp hsum
    obtain ⟨t, ht⟩ := (moment_add_isSome (t := wall) (d := sum) (by omega)).mpr (by omega)
    obtain ⟨t', ht'⟩ := (moment_add_isSome (t := wall') (d := sum) (by omega)).mpr (by omega)
    refine ⟨⟨.wall, none, sum⟩, t, t', (advance_eq_returned hdelta).mpr ⟨?_, ?_⟩, ?_⟩
    · rw [shift_wall hmode, hsum]
      rfl
    · rw [computeNow_wall rfl, ht]
    · rw [computeNow_wall rfl, ht']

/-- A frozen clock shows one instant. -/
theorem reading_frozen {s : Inner} (hs : Sound s) (hmode : s.mode = .frozen) (wall wall' : Moment) :
    reading s wall = reading s wall' := by
  obtain ⟨t, ht⟩ := Option.isSome_iff_exists.mp (hs.frozenAt hmode)
  unfold reading
  rw [hmode, ht]
  rfl

theorem returns_iff {s : Inner} (hs : Sound s) {delta : Delta} (hdelta : 0 ≤ delta.val) (wall wall' : Moment) :
    Returns s wall wall' delta ↔ reading s wall + delta.val ≤ maxUtc ∧ reading s wall' + delta.val ≤ maxUtc := by
  cases hmode : s.mode with
  | frozen =>
    rw [returns_frozen hmode hdelta, reading_frozen hs hmode wall wall']
    exact (and_self_iff).symm
  | wall => exact returns_wall hs hmode hdelta wall wall'

/-- Two advances return, the advance by their sum does, and both leave and show the same. -/
def AddsUp (s : Inner) (wall : Moment) (d e : Delta) : Prop :=
  ∃ sum s' t s'' t', d.add e = some sum ∧ advance s wall d = (s', .returned t) ∧ advance s' wall e = (s'', .returned t') ∧
    advance s wall sum = (s'', .returned t')

theorem frozen_advance_eq {s : Inner} (hmode : s.mode = .frozen) {wall r : Moment} {d : Delta} (hd : 0 ≤ d.val)
    (hr : (s.frozenAt.getD wall).add d = some r) : advance s wall d = (⟨.frozen, some r, s.offset⟩, .returned r) := by
  refine (advance_eq_returned hd).mpr ⟨?_, computeNow_frozen rfl wall⟩
  rw [shift_frozen hmode, hr]
  rfl

theorem addsUp_iff {s : Inner} (hmode : s.mode = .frozen) {d e : Delta} (hd : 0 ≤ d.val) (he : 0 ≤ e.val) (wall : Moment) :
    AddsUp s wall d e ↔ reading s wall + d.val + e.val ≤ maxUtc := by
  have hreading : reading s wall = (s.frozenAt.getD wall).val := by
    unfold reading
    rw [hmode]
  constructor
  · rintro ⟨sum, s', t, s'', t', hsum, -, -, hadvance⟩
    have hval := delta?_eq_some.mp hsum
    have hpos : 0 ≤ sum.val := by omega
    have hrange := (returns_frozen hmode hpos wall wall).mp
      ⟨s'', t', t', hadvance, ((advance_eq_returned hpos).mp hadvance).2⟩
    omega
  · intro hrange
    rw [hreading] at hrange
    have hspan := span_le
    have hmin := (s.frozenAt.getD wall).property.1
    obtain ⟨sum, hsum⟩ : ∃ sum, d.add e = some sum := by
      refine ⟨⟨d.val + e.val, ?_, by omega⟩, delta?_eq_some.mpr rfl⟩
      unfold maxDelta
      omega
    have hval := delta?_eq_some.mp hsum
    obtain ⟨r, hr⟩ := (moment_add_isSome (t := s.frozenAt.getD wall) hd).mpr (by omega)
    have hfirst := moment_add_eq_some hr
    obtain ⟨r', hr'⟩ := (moment_add_isSome (t := r) he).mpr (by omega)
    have hsecond := moment_add_eq_some hr'
    have hboth : (s.frozenAt.getD wall).add sum = some r' := moment?_eq_some.mpr (by omega)
    exact ⟨sum, _, r, _, r', hsum, frozen_advance_eq hmode hd hr, frozen_advance_eq rfl he hr',
      frozen_advance_eq hmode (by omega) hboth⟩

/-- The parser panics on an `i64` of units that is no duration, and nowhere else. In every state that calls have led to, an advance and
the `now` behind it return when the clock's time and the advance stay in the years of chrono, and so do two advances of a frozen clock,
which are then the advance by their sum. -/
theorem scenario_clock_total_iff (value : List Char) (ops : List (Op × Moment)) (wall wall' : Moment) (d : Delta) :
    (ParsesRight value ↔ ¬ ∃ qty nanos, Says value qty nanos ∧ qty < 2 ^ 63 ∧ maxDelta < qty * nanos) ∧
    (0 ≤ d.val →
      (Returns (run .default ops) wall wall' d ↔
        reading (run .default ops) wall + d.val ≤ maxUtc ∧ reading (run .default ops) wall' + d.val ≤ maxUtc) ∧
      ((run .default ops).mode = .frozen → ∀ e : Delta, 0 ≤ e.val →
        (AddsUp (run .default ops) wall d e ↔ reading (run .default ops) wall + d.val + e.val ≤ maxUtc))) := by
  refine ⟨parsesRight_iff value, fun hd => ⟨?_, fun hmode e he => addsUp_iff hmode hd he wall⟩⟩
  exact returns_iff (sound_run sound_default ops) hd wall wall'

/-- Frozen in 2026, then advanced by 30 days and by an hour. -/
theorem scenario_clock_total_2026 :
    Returns (run .default [(.freeze (some ⟨1767225600000000000, by decide⟩), ⟨0, by decide⟩)]) ⟨0, by decide⟩ ⟨0, by decide⟩
        ⟨2592000000000000, by decide⟩ ∧
      AddsUp (run .default [(.freeze (some ⟨1767225600000000000, by decide⟩), ⟨0, by decide⟩)]) ⟨0, by decide⟩
        ⟨2592000000000000, by decide⟩ ⟨3600000000000, by decide⟩ := by
  obtain ⟨-, hclock⟩ := scenario_clock_total_iff "30d".toList [(.freeze (some ⟨1767225600000000000, by decide⟩), ⟨0, by decide⟩)]
    ⟨0, by decide⟩ ⟨0, by decide⟩ ⟨2592000000000000, by decide⟩
  obtain ⟨hreturns, hadds⟩ := hclock (by decide)
  exact ⟨hreturns.mpr (by decide +kernel), (hadds rfl ⟨3600000000000, by decide⟩ (by decide)).mpr (by decide +kernel)⟩

/-- `9223372036854775807s` is an `i64` of seconds. -/
theorem scenario_clock_panics : ¬ ∀ value, parseDuration value ≠ none := by
  intro h
  exact h "9223372036854775807s".toList (by decide +kernel)

end BssCli.Clock
