import BssCli.Webhooks.Signatures

/-!
# The signature of a Stripe delivery

`verify_stripe_signature`, a port of the verifier of the shared crate, and the inputs on
which the two agree. The arithmetic is that of the release build, which wraps.
-/

namespace BssCli.Payment

open Webhooks (expectedHex seconds Clock stripeFields verifyStripe)

structure SigError where
  code : String
  message : String
  deriving DecidableEq

def maxSkewSeconds : ℤ := 300

/-- The loop over the parts. A `t` that is no number takes the place of the one before it. -/
def sigPart (fields : Option ℤ × List (List Char)) (part : List Char) : Option ℤ × List (List Char) :=
  match Text.splitOnce '=' part with
  | none => fields
  | some (k, v) =>
    if Text.trim k = ['t'] then (Text.parseI64 (Text.trim v), fields.2)
    else if Text.trim k = ['v', '1'] then (fields.1, fields.2 ++ [Text.trim v])
    else fields

def sigFields (header : List Char) : Option ℤ × List (List Char) :=
  (header.splitOn ',').foldl sigPart (none, [])

/-- The distance that the check compares. `abs` of the least `i64` is itself. -/
def skewSeconds (nowUnix ts : ℤ) : ℤ :=
  let tsSeconds := if ts > 1000000000000 then ts / 1000 else ts
  i64 |i64 (nowUnix - tsSeconds)|

variable (hmacSha256 : List UInt8 → List UInt8 → List UInt8)

def verifyStripeSignature (secret : List Char) (body : List UInt8) (sigHeader : Option (List Char)) (nowUnix : ℤ) :
    Except SigError Unit :=
  match sigHeader with
  | none => .error { code := "missing_header", message := "Stripe-Signature header required" }
  | some header =>
    match sigFields header with
    | (none, _) => .error { code := "malformed_header", message := "Stripe-Signature missing 't=' field" }
    | (some ts, candidates) =>
      if candidates = [] then
        .error { code := "malformed_header", message := "Stripe-Signature missing v1 entries" }
      else if skewSeconds nowUnix ts > maxSkewSeconds then .error
        { code := "replay_window"
          message := s!"timestamp skew {skewSeconds nowUnix ts}s exceeds {maxSkewSeconds}s" }
      else if candidates.any (· = expectedHex hmacSha256 secret body (Text.ofI64 ts)) then .ok ()
      else .error { code := "signature_mismatch", message := "no v1 signature matched" }

/-! ## The two parsers -/

theorem sigPart_eq (fields : Option (List Char) × List (List Char)) (part : List Char) :
    sigPart (fields.1.bind Text.parseI64, fields.2) part =
      ((Webhooks.stripePart fields part).1.bind Text.parseI64, (Webhooks.stripePart fields part).2) := by
  unfold sigPart Webhooks.stripePart
  cases Text.splitOnce '=' part with
  | none => rfl
  | some kv =>
    dsimp only
    split
    · rfl
    · split <;> rfl

theorem sigFields_eq (header : List Char) :
    sigFields header = ((stripeFields header).1.bind Text.parseI64, (stripeFields header).2) := by
  unfold sigFields stripeFields
  have hrun : ∀ (parts : List (List Char)) (fields : Option (List Char) × List (List Char)),
      parts.foldl sigPart (fields.1.bind Text.parseI64, fields.2) =
        ((parts.foldl Webhooks.stripePart fields).1.bind Text.parseI64, (parts.foldl Webhooks.stripePart fields).2) := by
    intro parts
    induction parts with
    | nil => exact fun _ => rfl
    | cons part parts ih =>
      intro fields
      rw [List.foldl_cons, List.foldl_cons, sigPart_eq]
      exact ih _
  exact hrun _ (none, [])

theorem verifyStripeSignature_ok_iff {hmacSha256 : List UInt8 → List UInt8 → List UInt8} {secret : List Char}
    {body : List UInt8} {sigHeader : Option (List Char)} {nowUnix : ℤ} :
    verifyStripeSignature hmacSha256 secret body sigHeader nowUnix = .ok () ↔
      ∃ header ts, sigHeader = some header ∧ (sigFields header).1 = some ts ∧
        skewSeconds nowUnix ts ≤ maxSkewSeconds ∧
        expectedHex hmacSha256 secret body (Text.ofI64 ts) ∈ (sigFields header).2 := by
  unfold verifyStripeSignature
  constructor
  · intro h
    split at h
    · cases h
    rename_i header
    split at h
    · cases h
    rename_i ts candidates hfields
    split at h
    · cases h
    split at h
    · cases h
    rename_i hskew
    split at h
    · rename_i hany
      obtain ⟨candidate, hmem, heq⟩ := List.any_eq_true.mp hany
      refine ⟨header, ts, rfl, ?_, not_lt.mp hskew, ?_⟩
      · rw [hfields]
      · rw [hfields, ← of_decide_eq_true heq]
        exact hmem
    · cases h
  · rintro ⟨header, ts, rfl, hts, hskew, hmem⟩
    have hpair : sigFields header = (some ts, (sigFields header).2) := by rw [← hts]
    have hany : (sigFields header).2.any (· = expectedHex hmacSha256 secret body (Text.ofI64 ts)) = true :=
      List.any_eq_true.mpr ⟨_, hmem, decide_eq_true rfl⟩
    dsimp only
    rw [hpair]
    simp only [if_neg (List.ne_nil_of_mem hmem), if_neg (not_lt.mpr hskew), if_pos hany]

/-! ## The two clocks -/

/-- Only the payment service takes these for fresh: the fraction of a second that the
division drops, and the distance that does not fit an `i64`. -/
def FreshByRounding (now ts : ℤ) : Prop :=
  (1000000000000 < ts ∧ 1000 * (now + 300) < ts ∧ ts < 1000 * (now + 301)) ∨ ts = now - 2 ^ 63

/-- Within 300 seconds of the moment that the timestamp states. -/
def InWindow (now ts : ℤ) : Prop := |(now : ℚ) - seconds ts| ≤ 300

theorem inWindow_iff {now ts : ℤ} :
    InWindow now ts ↔ if ts > 1000000000000 then 1000 * (now - 300) ≤ ts ∧ ts ≤ 1000 * (now + 300)
      else now - 300 ≤ ts ∧ ts ≤ now + 300 := by
  unfold InWindow
  rw [Webhooks.near_seconds_iff, Webhooks.seconds_le_iff, Webhooks.le_seconds_iff]
  split
  · omega
  · omega

theorem i64_abs_le_iff {d : ℤ} (h : FitsI64 d) : i64 |d| ≤ maxSkewSeconds ↔ |d| ≤ 300 ∨ d = -2 ^ 63 := by
  unfold FitsI64 at h
  unfold maxSkewSeconds i64
  rw [Int.bmod_def]
  rcases abs_cases d with ⟨habs, hsign⟩ | ⟨habs, hsign⟩
  · rw [habs]
    omega
  · rw [habs]
    omega

theorem i64_fits (x : ℤ) : FitsI64 (i64 x) := by
  unfold FitsI64 i64
  rw [Int.bmod_def]
  omega

theorem skewSeconds_le_iff (now : Clock) {ts : ℤ} (hfits : FitsI64 ts) :
    skewSeconds now.val ts ≤ maxSkewSeconds ↔ InWindow now.val ts ∨ FreshByRounding now.val ts := by
  obtain ⟨n, hlow, hhigh⟩ := now
  unfold FitsI64 at hfits
  unfold skewSeconds FreshByRounding
  rw [inWindow_iff, i64_abs_le_iff (i64_fits _), abs_le]
  unfold i64
  rw [Int.bmod_def]
  dsimp only
  by_cases hms : ts > 1000000000000
  · simp only [if_pos hms]
    omega
  · simp only [if_neg hms]
    omega

/-! ## Agreement -/

section Agreement

variable (hmacSha256 : List UInt8 → List UInt8 → List UInt8) (secret : List Char) (body : List UInt8)
  (headers : String → Option (List Char)) (now : Clock)

def Accepts : Prop := verifyStripeSignature hmacSha256 secret body (headers "stripe-signature") now.val = .ok ()

def CrateAccepts : Prop := verifyStripe hmacSha256 secret body headers maxSkewSeconds now.val = .ok ()

/-- A `v1` entry signs the text of `t`, and `t` is within 300 seconds of the clock. -/
def SignedAndFresh : Prop :=
  ∃ header timestamp ts, headers "stripe-signature" = some header ∧ (stripeFields header).1 = some timestamp ∧
    Text.parseI64 timestamp = some ts ∧ expectedHex hmacSha256 secret body timestamp ∈ (stripeFields header).2 ∧
    InWindow now.val ts

def VerifiersAgree : Prop :=
  (Accepts hmacSha256 secret body headers now ↔ CrateAccepts hmacSha256 secret body headers now) ∧
    (Accepts hmacSha256 secret body headers now ∨ CrateAccepts hmacSha256 secret body headers now →
      SignedAndFresh hmacSha256 secret body headers now)

/-- The text and the number of a fresh `t` are signed alike, and a `t` that is fresh by the
rounding alone is not signed. -/
def ReadAlike : Prop :=
  ∀ header timestamp ts, headers "stripe-signature" = some header → (stripeFields header).1 = some timestamp →
    Text.parseI64 timestamp = some ts →
    (InWindow now.val ts → (expectedHex hmacSha256 secret body (Text.ofI64 ts) ∈ (stripeFields header).2 ↔
      expectedHex hmacSha256 secret body timestamp ∈ (stripeFields header).2)) ∧
    (FreshByRounding now.val ts → expectedHex hmacSha256 secret body (Text.ofI64 ts) ∉ (stripeFields header).2)

variable {hmacSha256 secret body headers now}

theorem crateAccepts_iff :
    CrateAccepts hmacSha256 secret body headers now ↔ SignedAndFresh hmacSha256 secret body headers now := by
  unfold CrateAccepts SignedAndFresh
  rw [Webhooks.verifyStripe_ok_iff]
  constructor
  · rintro ⟨header, timestamp, hheader, ht, hfresh, hmem⟩
    obtain ⟨ts, hts, hfresh⟩ := Webhooks.checkTimestamp_ok_iff.mp hfresh
    rw [Webhooks.stripeFields_trim ht] at hts
    exact ⟨header, timestamp, ts, hheader, ht, hts, hmem, (Webhooks.fresh_iff now ts).mp hfresh⟩
  · rintro ⟨header, timestamp, ts, hheader, ht, hts, hmem, hfresh⟩
    refine ⟨header, timestamp, hheader, ht, Webhooks.checkTimestamp_ok_iff.mpr ⟨ts, ?_, ?_⟩, hmem⟩
    · rwa [Webhooks.stripeFields_trim ht]
    · exact (Webhooks.fresh_iff now ts).mpr hfresh

theorem accepts_iff :
    Accepts hmacSha256 secret body headers now ↔
      ∃ header timestamp ts, headers "stripe-signature" = some header ∧ (stripeFields header).1 = some timestamp ∧
        Text.parseI64 timestamp = some ts ∧
        expectedHex hmacSha256 secret body (Text.ofI64 ts) ∈ (stripeFields header).2 ∧
        (InWindow now.val ts ∨ FreshByRounding now.val ts) := by
  unfold Accepts
  rw [verifyStripeSignature_ok_iff]
  constructor
  · rintro ⟨header, ts, hheader, hts, hskew, hmem⟩
    rw [sigFields_eq] at hts hmem
    obtain ⟨timestamp, ht, hts⟩ := Option.bind_eq_some_iff.mp hts
    have hfresh := (skewSeconds_le_iff now (Text.parseI64_range hts)).mp hskew
    exact ⟨header, timestamp, ts, hheader, ht, hts, hmem, hfresh⟩
  · rintro ⟨header, timestamp, ts, hheader, ht, hts, hmem, hfresh⟩
    refine ⟨header, ts, hheader, ?_, (skewSeconds_le_iff now (Text.parseI64_range hts)).mpr hfresh, ?_⟩
    · rw [sigFields_eq]
      exact Option.bind_eq_some_iff.mpr ⟨timestamp, ht, hts⟩
    · rw [sigFields_eq]
      exact hmem

theorem not_inWindow {n ts : ℤ} (h : FreshByRounding n ts) : ¬ InWindow n ts := by
  rw [inWindow_iff]
  unfold FreshByRounding at h
  split <;> omega

/-- There is one header, one `t` in it and one number in that. -/
theorem exists_stated_iff {P : List Char → List Char → ℤ → Prop} {header timestamp : List Char} {ts : ℤ}
    (hheader : headers "stripe-signature" = some header) (ht : (stripeFields header).1 = some timestamp)
    (hts : Text.parseI64 timestamp = some ts) :
    (∃ header timestamp ts, headers "stripe-signature" = some header ∧ (stripeFields header).1 = some timestamp ∧
      Text.parseI64 timestamp = some ts ∧ P header timestamp ts) ↔ P header timestamp ts := by
  constructor
  · rintro ⟨header', timestamp', ts', hheader', ht', hts', h⟩
    obtain rfl := Option.some.inj (hheader.symm.trans hheader')
    obtain rfl := Option.some.inj (ht.symm.trans ht')
    obtain rfl := Option.some.inj (hts.symm.trans hts')
    exact h
  · exact fun h => ⟨header, timestamp, ts, hheader, ht, hts, h⟩

/-- The header as Stripe writes it is read alike, unless the clock is one at which only the
payment service takes it for fresh. -/
theorem readAlike_of_canonical {ts : ℤ} (hfits : FitsI64 ts) {v1 : List Char} (hv : Webhooks.Carried v1)
    (hheader : headers "stripe-signature" = some (Webhooks.stripeHeader (Text.ofI64 ts) v1))
    (hclock : ¬ FreshByRounding now.val ts) : ReadAlike hmacSha256 secret body headers now := by
  intro header timestamp ts' hheader' ht hts
  obtain rfl := Option.some.inj (hheader.symm.trans hheader')
  rw [Webhooks.stripeFields_stripeHeader (Webhooks.carried_ofI64 ts) hv] at ht
  obtain rfl := Option.some.inj ht
  obtain rfl := Option.some.inj ((Text.parseI64_ofI64 hfits.1 hfits.2).symm.trans hts)
  exact ⟨fun _ => Iff.rfl, fun hround => absurd hround hclock⟩

theorem readAlike_of_agree (h : VerifiersAgree hmacSha256 secret body headers now) :
    ReadAlike hmacSha256 secret body headers now := by
  obtain ⟨hagree, -⟩ := h
  rw [crateAccepts_iff, accepts_iff] at hagree
  unfold SignedAndFresh at hagree
  intro header timestamp ts hheader ht hts
  rw [exists_stated_iff hheader ht hts, exists_stated_iff hheader ht hts] at hagree
  refine ⟨fun hwindow => ⟨fun hmem => ?_, fun hmem => ?_⟩, fun hround hmem => ?_⟩
  · exact (hagree.mp ⟨hmem, .inl hwindow⟩).1
  · exact (hagree.mpr ⟨hmem, hwindow⟩).1
  · exact not_inWindow hround (hagree.mp ⟨hmem, .inr hround⟩).2

theorem agree_of_readAlike (halike : ReadAlike hmacSha256 secret body headers now) :
    VerifiersAgree hmacSha256 secret body headers now := by
  have hagree : Accepts hmacSha256 secret body headers now ↔ SignedAndFresh hmacSha256 secret body headers now := by
    rw [accepts_iff]
    constructor
    · rintro ⟨header, timestamp, ts, hheader, ht, hts, hmem, hfresh⟩
      obtain ⟨hsigned, hround⟩ := halike header timestamp ts hheader ht hts
      rcases hfresh with hwindow | hfresh
      · exact ⟨header, timestamp, ts, hheader, ht, hts, (hsigned hwindow).mp hmem, hwindow⟩
      · exact absurd hmem (hround hfresh)
    · rintro ⟨header, timestamp, ts, hheader, ht, hts, hmem, hwindow⟩
      obtain ⟨hsigned, -⟩ := halike header timestamp ts hheader ht hts
      exact ⟨header, timestamp, ts, hheader, ht, hts, (hsigned hwindow).mpr hmem, .inl hwindow⟩
  unfold VerifiersAgree
  rw [crateAccepts_iff]
  exact ⟨hagree, fun h => h.elim hagree.mp id⟩

end Agreement

/-- The two verifiers agree exactly where they read the timestamp alike. -/
theorem verifiers_agree_iff (hmacSha256 : List UInt8 → List UInt8 → List UInt8) (secret : List Char)
    (body : List UInt8) (headers : String → Option (List Char)) (now : Clock) :
    VerifiersAgree hmacSha256 secret body headers now ↔ ReadAlike hmacSha256 secret body headers now :=
  ⟨readAlike_of_agree, agree_of_readAlike⟩

/-! ## Where they disagree -/

def headersOf (timestamp v1 : List Char) (name : String) : Option (List Char) :=
  if name = "stripe-signature" then some (Webhooks.stripeHeader timestamp v1) else none

/-- The number is signed, as the payment service wants it, under a text for it. -/
theorem not_agree {hmacSha256 : List UInt8 → List UInt8 → List UInt8} {secret : List Char} {body : List UInt8}
    {now : Clock} {timestamp : List Char} {ts : ℤ} (ht : Webhooks.Carried timestamp)
    (hts : Text.parseI64 timestamp = some ts)
    (h : FreshByRounding now.val ts ∨ InWindow now.val ts ∧
      expectedHex hmacSha256 secret body timestamp ≠ expectedHex hmacSha256 secret body (Text.ofI64 ts)) :
    ¬ VerifiersAgree hmacSha256 secret body
      (headersOf timestamp (expectedHex hmacSha256 secret body (Text.ofI64 ts))) now := by
  intro hagree
  have hfields := Webhooks.stripeFields_stripeHeader ht
    (Webhooks.carried_hexLower (hmacSha256 (Text.utf8 secret) (Text.utf8 (Text.ofI64 ts ++ ['.']) ++ body)))
  obtain ⟨hsigned, hround⟩ := readAlike_of_agree hagree
    (Webhooks.stripeHeader timestamp (expectedHex hmacSha256 secret body (Text.ofI64 ts)))
    timestamp ts (if_pos rfl) (congrArg Prod.fst hfields) hts
  have hcandidates : (stripeFields (Webhooks.stripeHeader timestamp
      (expectedHex hmacSha256 secret body (Text.ofI64 ts)))).2 = [expectedHex hmacSha256 secret body (Text.ofI64 ts)] :=
    congrArg Prod.snd hfields
  rw [hcandidates] at hsigned hround
  rcases h with h | ⟨hwindow, hne⟩
  · exact hround h (List.mem_singleton_self _)
  · exact hne (List.mem_singleton.mp ((hsigned hwindow).mp (List.mem_singleton_self _)))

/-- At 1700000000: a distance of half a second more than 300, a distance of 2^63 seconds, and
a number with its sign, where the two texts have different digests. -/
theorem verifiers_disagree :
    (∀ hmacSha256 : List UInt8 → List UInt8 → List UInt8,
      ¬ VerifiersAgree hmacSha256 ['k'] []
        (headersOf (Text.ofI64 1700000300500) (expectedHex hmacSha256 ['k'] [] (Text.ofI64 1700000300500)))
        ⟨1700000000, by decide⟩ ∧
      ¬ VerifiersAgree hmacSha256 ['k'] []
        (headersOf (Text.ofI64 (1700000000 - 2 ^ 63))
          (expectedHex hmacSha256 ['k'] [] (Text.ofI64 (1700000000 - 2 ^ 63))))
        ⟨1700000000, by decide⟩) ∧
      ∀ hmacSha256 : List UInt8 → List UInt8 → List UInt8,
        expectedHex hmacSha256 ['k'] [] ('+' :: Text.ofI64 1700000000) ≠
          expectedHex hmacSha256 ['k'] [] (Text.ofI64 1700000000) →
        ¬ VerifiersAgree hmacSha256 ['k'] []
          (headersOf ('+' :: Text.ofI64 1700000000) (expectedHex hmacSha256 ['k'] [] (Text.ofI64 1700000000)))
          ⟨1700000000, by decide⟩ := by
  refine ⟨fun hmacSha256 => ⟨?_, ?_⟩, fun hmacSha256 hne => ?_⟩
  · exact not_agree (Webhooks.carried_ofI64 _) (Text.parseI64_ofI64 (by norm_num) (by norm_num))
      (.inl (.inl (by norm_num)))
  · exact not_agree (Webhooks.carried_ofI64 _) (Text.parseI64_ofI64 (by norm_num) (by norm_num))
      (.inl (.inr (by norm_num)))
  · refine not_agree ?_ (by decide +kernel) (.inr ⟨?_, hne⟩)
    · exact List.forall_mem_cons.mpr ⟨by decide, Webhooks.carried_ofI64 _⟩
    · rw [inWindow_iff, if_neg (by norm_num)]
      norm_num

end BssCli.Payment
