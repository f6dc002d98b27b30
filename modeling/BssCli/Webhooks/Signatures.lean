import BssCli.Common
import BssCli.Lib.Rounding
import BssCli.Lib.Text

/-!
# Webhook signatures

`verify_stripe` and what the schemes share. `hmacSha256` is a parameter, a key and a message
to a digest. A clock reading is the value of the `f64`.
-/

namespace BssCli.Webhooks

open Rounding

def defaultMaxSkewSeconds : ℤ := 300

/-- A text, or what one is formatted from. -/
inductive Message
  | text (s : String)
  | notAnInteger (timestamp : List Char)
  | skewExceeds (skew : ℚ) (maxSkewSeconds : ℤ)
  deriving DecidableEq

structure WebhookSignatureError where
  code : String
  message : Message
  deriving DecidableEq

/-! ## The timestamp -/

/-- Above 10^12 the timestamp is in milliseconds. -/
def tsSeconds (ts : ℤ) : ℚ := if ts > 1000000000000 then roundF64 (roundF64 ts / 1000) else roundF64 ts

def checkTimestamp (timestamp : List Char) (maxSkewSeconds : ℤ) (current : ℚ) :
    Except WebhookSignatureError Unit :=
  match Text.parseI64 (Text.trim timestamp) with
  | none => .error { code := "malformed_header", message := .notAnInteger timestamp }
  | some ts =>
    let skew := |roundF64 (current - tsSeconds ts)|
    if skew > roundF64 maxSkewSeconds then
      .error { code := "replay_window", message := .skewExceeds skew maxSkewSeconds }
    else .ok ()

theorem checkTimestamp_ok_iff {timestamp : List Char} {maxSkewSeconds : ℤ} {current : ℚ} :
    checkTimestamp timestamp maxSkewSeconds current = .ok () ↔
      ∃ ts, Text.parseI64 (Text.trim timestamp) = some ts ∧
        |roundF64 (current - tsSeconds ts)| ≤ roundF64 maxSkewSeconds := by
  unfold checkTimestamp
  cases hts : Text.parseI64 (Text.trim timestamp) with
  | none => simp only [reduceCtorEq, false_and, exists_false]
  | some ts =>
    simp only [Option.some.injEq, exists_eq_left']
    split
    · rename_i hskew
      exact iff_of_false (by simp only [reduceCtorEq, not_false_eq_true]) (not_le.mpr hskew)
    · rename_i hskew
      exact iff_of_true rfl (not_lt.mp hskew)

/-- The moment that a timestamp states. -/
def seconds (ts : ℤ) : ℚ := if ts > 1000000000000 then ts / 1000 else ts

theorem seconds_le_iff (ts b : ℤ) :
    seconds ts ≤ b ↔ (ts > 1000000000000 → ts ≤ 1000 * b) ∧ (¬ ts > 1000000000000 → ts ≤ b) := by
  unfold seconds
  split
  · rw [div_le_iff₀ (by norm_num), show (b : ℚ) * 1000 = (1000 * b : ℤ) by push_cast; ring, Int.cast_le]
    omega
  · rw [Int.cast_le]
    omega

theorem le_seconds_iff (ts b : ℤ) :
    b ≤ seconds ts ↔ (ts > 1000000000000 → 1000 * b ≤ ts) ∧ (¬ ts > 1000000000000 → b ≤ ts) := by
  unfold seconds
  split
  · rw [le_div_iff₀ (by norm_num), show (b : ℚ) * 1000 = (1000 * b : ℤ) by push_cast; ring, Int.cast_le]
    omega
  · rw [Int.cast_le]
    omega

theorem near_seconds_iff (n ts : ℤ) :
    |(n : ℚ) - seconds ts| ≤ 300 ↔ seconds ts ≤ (n + 300 : ℤ) ∧ (n - 300 : ℤ) ≤ seconds ts := by
  rw [abs_le, neg_le_sub_iff_le_add, sub_le_comm]
  push_cast
  exact Iff.rfl

/-! Rounding keeps the order, so the seconds of the check stay on the side of a whole second
on which the moment is. The thousandths lie between the steps of 1/1024. -/

theorem roundF64_grid {k : ℤ} (hk : |k| ≤ 2 ^ 53) : roundF64 (k / 1024) = k / 1024 := by
  have h := roundF64_exact (k := -10) hk
  rwa [show (2 : ℚ) ^ (-10 : ℤ) = 1 / 1024 by norm_num, mul_one_div] at h

theorem tsSeconds_le {ts m k : ℤ} (hm : |m| ≤ 2 ^ 53) (hk : |k| ≤ 2 ^ 53)
    (hms : ts > 1000000000000 → ts ≤ m ∧ 1024 * m ≤ 1000 * k) (hs : ¬ ts > 1000000000000 → 1024 * ts ≤ k) :
    tsSeconds ts ≤ k / 1024 := by
  unfold tsSeconds
  split
  · rename_i h
    have hround : roundF64 ts ≤ m := roundF64_le (roundF64_intCast hm) (by exact_mod_cast (hms h).1)
    have hgrid : (1024 * m : ℚ) ≤ 1000 * k := by exact_mod_cast (hms h).2
    exact roundF64_le (roundF64_grid hk) (by linarith)
  · rename_i h
    have hgrid : (1024 * ts : ℚ) ≤ k := by exact_mod_cast hs h
    exact roundF64_le (roundF64_grid hk) (by linarith)

theorem le_tsSeconds {ts m k : ℤ} (hm : |m| ≤ 2 ^ 53) (hk : |k| ≤ 2 ^ 53)
    (hms : ts > 1000000000000 → m ≤ ts ∧ 1000 * k ≤ 1024 * m) (hs : ¬ ts > 1000000000000 → k ≤ 1024 * ts) :
    k / 1024 ≤ tsSeconds ts := by
  unfold tsSeconds
  split
  · rename_i h
    have hround : (m : ℚ) ≤ roundF64 ts := le_roundF64 (roundF64_intCast hm) (by exact_mod_cast (hms h).1)
    have hgrid : (1000 * k : ℚ) ≤ 1024 * m := by exact_mod_cast (hms h).2
    exact le_roundF64 (roundF64_grid hk) (by linarith)
  · rename_i h
    have hgrid : (k : ℚ) ≤ 1024 * ts := by exact_mod_cast hs h
    exact le_roundF64 (roundF64_grid hk) (by linarith)

/-- The seconds of a `DateTime<Utc>`. -/
abbrev Clock := {n : ℤ // -8334601228800 ≤ n ∧ n ≤ 8210266876799}

theorem fresh_iff (now : Clock) (ts : ℤ) :
    |roundF64 (now.val - tsSeconds ts)| ≤ roundF64 (300 : ℤ) ↔ |(now.val : ℚ) - seconds ts| ≤ 300 := by
  obtain ⟨n, hlow, hhigh⟩ := now
  have h300 : roundF64 (300 : ℤ) = 300 := roundF64_intCast (by norm_num)
  have hneg : roundF64 (-300 : ℤ) = (-300 : ℤ) := roundF64_intCast (by norm_num)
  rw [h300, abs_le, near_seconds_iff, seconds_le_iff, le_seconds_iff]
  dsimp only
  constructor
  · rintro ⟨hge, hle⟩
    constructor
    · by_contra hout
      have hts : ((1024 * (n + 300) + 1 : ℤ) : ℚ) / 1024 ≤ tsSeconds ts :=
        le_tsSeconds (m := 1000 * (n + 300) + 1) (abs_le.mpr (by omega)) (abs_le.mpr (by omega)) (by omega) (by omega)
      have hround : roundF64 (n - tsSeconds ts) ≤ ((-307201 : ℤ) : ℚ) / 1024 := by
        refine roundF64_le (roundF64_grid (by norm_num)) ?_
        push_cast at hts ⊢
        linarith
      push_cast at hround
      linarith
    · by_contra hout
      have hts : tsSeconds ts ≤ ((1024 * (n - 300) - 1 : ℤ) : ℚ) / 1024 :=
        tsSeconds_le (m := 1000 * (n - 300) - 1) (abs_le.mpr (by omega)) (abs_le.mpr (by omega)) (by omega) (by omega)
      have hround : ((307201 : ℤ) : ℚ) / 1024 ≤ roundF64 (n - tsSeconds ts) := by
        refine le_roundF64 (roundF64_grid (by norm_num)) ?_
        push_cast at hts ⊢
        linarith
      push_cast at hround
      linarith
  · rintro ⟨hge, hle⟩
    have hupper : tsSeconds ts ≤ ((1024 * (n + 300) : ℤ) : ℚ) / 1024 :=
      tsSeconds_le (m := 1000 * (n + 300)) (abs_le.mpr (by omega)) (abs_le.mpr (by omega)) (by omega) (by omega)
    have hlower : ((1024 * (n - 300) : ℤ) : ℚ) / 1024 ≤ tsSeconds ts :=
      le_tsSeconds (m := 1000 * (n - 300)) (abs_le.mpr (by omega)) (abs_le.mpr (by omega)) (by omega) (by omega)
    push_cast at hupper hlower
    constructor
    · have hround := le_roundF64 (x := n - tsSeconds ts) hneg (by push_cast; linarith)
      exact_mod_cast hround
    · have hround := roundF64_le (x := n - tsSeconds ts) h300 (by push_cast; linarith)
      exact_mod_cast hround

/-! ## The header of Stripe -/

/-- The loop over the parts. The last `t` wins, every `v1` is kept. -/
def stripePart (fields : Option (List Char) × List (List Char)) (part : List Char) :
    Option (List Char) × List (List Char) :=
  match Text.splitOnce '=' part with
  | none => fields
  | some (k, v) =>
    if Text.trim k = ['t'] then (some (Text.trim v), fields.2)
    else if Text.trim k = ['v', '1'] then (fields.1, fields.2 ++ [Text.trim v])
    else fields

def stripeFields (sigHeader : List Char) : Option (List Char) × List (List Char) :=
  (sigHeader.splitOn ',').foldl stripePart (none, [])

theorem stripeFields_trim {sigHeader timestamp : List Char} (h : (stripeFields sigHeader).1 = some timestamp) :
    Text.trim timestamp = timestamp := by
  have hrun : ∀ (parts : List (List Char)) (fields : Option (List Char) × List (List Char)),
      (∀ t, fields.1 = some t → Text.trim t = t) →
      ∀ t, (parts.foldl stripePart fields).1 = some t → Text.trim t = t := by
    intro parts
    induction parts with
    | nil => exact fun _ hfields => hfields
    | cons part parts ih =>
      intro fields hfields
      refine ih _ fun t ht => ?_
      unfold stripePart at ht
      split at ht
      · exact hfields t ht
      · rename_i k v _
        split at ht
        · obtain rfl := Option.some.inj ht
          exact Text.trim_trim v
        · split at ht
          · exact hfields t ht
          · exact hfields t ht
  refine hrun _ (none, []) ?_ timestamp h
  intro t ht
  cases ht

def stripeHeader (timestamp v1 : List Char) : List Char :=
  [','].intercalate ['t' :: '=' :: timestamp, 'v' :: '1' :: '=' :: v1]

/-- A value that ends at its comma and has nothing to trim. -/
def Carried (cs : List Char) : Prop := ∀ c ∈ cs, c ≠ ',' ∧ Text.isWhitespace c = false

instance (cs : List Char) : Decidable (Carried cs) := inferInstanceAs (Decidable (∀ c ∈ cs, _ ∧ _))

theorem carried_hexLower (bytes : List UInt8) : Carried (Text.hexLower bytes) := by
  intro c hc
  obtain ⟨n, rfl⟩ := Text.mem_hexLower hc
  have hdigits : ∀ n : Fin 16, Text.hexDigit n ≠ ',' ∧ Text.isWhitespace (Text.hexDigit n) = false := by decide
  exact hdigits n

theorem carried_ofI64 (n : ℤ) : Carried (Text.ofI64 n) := by
  intro c hc
  rcases Text.mem_ofI64 hc with rfl | hdigit
  · decide
  · have hrange : 48 ≤ c.toNat ∧ c.toNat ≤ 57 := by
      simp only [Char.isDigit, Bool.and_eq_true, decide_eq_true_eq, ge_iff_le, UInt32.le_iff_toNat_le] at hdigit
      exact hdigit
    refine ⟨?_, ?_⟩
    · rintro rfl
      exact absurd hrange (by decide)
    · simp only [Text.isWhitespace, Bool.or_eq_false_iff, Bool.and_eq_false_iff, decide_eq_false_iff_not]
      omega

theorem stripeFields_stripeHeader {timestamp v1 : List Char} (ht : Carried timestamp) (hv : Carried v1) :
    stripeFields (stripeHeader timestamp v1) = (some timestamp, [v1]) := by
  have hparts : (stripeHeader timestamp v1).splitOn ',' = ['t' :: '=' :: timestamp, 'v' :: '1' :: '=' :: v1] := by
    refine List.splitOn_intercalate ',' ?_ (List.cons_ne_nil _ _)
    intro part hpart hcomma
    rcases List.mem_cons.mp hpart with rfl | hpart
    · exact (ht ',' (by simpa using hcomma)).1 rfl
    · obtain rfl := List.mem_singleton.mp hpart
      exact (hv ',' (by simpa using hcomma)).1 rfl
  have htrim : Text.trim timestamp = timestamp := Text.trim_eq_self fun c hc => (ht c hc).2
  have vtrim : Text.trim v1 = v1 := Text.trim_eq_self fun c hc => (hv c hc).2
  rw [stripeFields, hparts, List.foldl_cons, List.foldl_cons, List.foldl_nil]
  have hfirst : stripePart (none, []) ('t' :: '=' :: timestamp) = (some timestamp, []) :=
    congrArg (fun cs => (some cs, [])) htrim
  have hsecond : stripePart (some timestamp, []) ('v' :: '1' :: '=' :: v1) = (some timestamp, [v1]) :=
    congrArg (fun cs => (some timestamp, [cs])) vtrim
  rw [hfirst, hsecond]

variable (hmacSha256 : List UInt8 → List UInt8 → List UInt8)

/-- What a `v1` entry has to be for a text of the timestamp. -/
def expectedHex (secret : List Char) (body : List UInt8) (timestamp : List Char) : List Char :=
  Text.hexLower (hmacSha256 (Text.utf8 secret) (Text.utf8 (timestamp ++ ['.']) ++ body))

def verifyStripe (secret : List Char) (body : List UInt8) (headers : String → Option (List Char))
    (maxSkewSeconds : ℤ) (now : ℚ) : Except WebhookSignatureError Unit :=
  match (headers "stripe-signature").filter (· ≠ []) with
  | none => .error { code := "missing_header", message := .text "Stripe-Signature header required" }
  | some sigHeader =>
    match stripeFields sigHeader with
    | (none, _) =>
      .error { code := "malformed_header", message := .text "Stripe-Signature missing 't=' field" }
    | (some timestamp, candidates) =>
      if candidates = [] then
        .error { code := "malformed_header", message := .text "Stripe-Signature missing v1 entries" }
      else do
        checkTimestamp timestamp maxSkewSeconds now
        if candidates.any (· = expectedHex hmacSha256 secret body timestamp) then .ok ()
        else .error { code := "signature_mismatch", message := .text "no v1 signature matched" }

variable {hmacSha256}

theorem any_expected_iff {candidates : List (List Char)} {expected : List Char} {e : WebhookSignatureError} :
    (if candidates.any (· = expected) then .ok () else .error e : Except WebhookSignatureError Unit) = .ok () ↔
      expected ∈ candidates := by
  split
  · rename_i h
    refine iff_of_true rfl ?_
    rw [List.any_eq_true] at h
    obtain ⟨candidate, hmem, heq⟩ := h
    rwa [of_decide_eq_true heq] at hmem
  · rename_i h
    refine iff_of_false (by simp only [reduceCtorEq, not_false_eq_true]) fun hmem => h ?_
    exact List.any_eq_true.mpr ⟨expected, hmem, decide_eq_true rfl⟩

theorem verifyStripe_ok_iff {secret : List Char} {body : List UInt8} {headers : String → Option (List Char)}
    {maxSkewSeconds : ℤ} {now : ℚ} :
    verifyStripe hmacSha256 secret body headers maxSkewSeconds now = .ok () ↔
      ∃ sigHeader timestamp, headers "stripe-signature" = some sigHeader ∧
        (stripeFields sigHeader).1 = some timestamp ∧ checkTimestamp timestamp maxSkewSeconds now = .ok () ∧
        expectedHex hmacSha256 secret body timestamp ∈ (stripeFields sigHeader).2 := by
  unfold verifyStripe
  constructor
  · intro h
    split at h
    · cases h
    rename_i sigHeader hheader
    obtain ⟨hheader, -⟩ := Option.filter_eq_some_iff.mp hheader
    split at h
    · cases h
    rename_i timestamp candidates hfields
    split at h
    · cases h
    obtain ⟨_, hfresh, h⟩ := bind_eq_ok.mp h
    refine ⟨sigHeader, timestamp, hheader, ?_, hfresh, ?_⟩
    · rw [hfields]
    · rw [hfields]
      exact any_expected_iff.mp h
  · rintro ⟨sigHeader, timestamp, hheader, hfields, hfresh, hmem⟩
    have hne : sigHeader ≠ [] := by
      rintro rfl
      cases hfields
    rw [hheader, Option.filter_some, if_pos (decide_eq_true hne)]
    have hpair : stripeFields sigHeader = (some timestamp, (stripeFields sigHeader).2) := by rw [← hfields]
    dsimp only
    rw [hpair]
    have hcandidates : (stripeFields sigHeader).2 ≠ [] := List.ne_nil_of_mem hmem
    simp only [if_neg hcandidates]
    exact bind_eq_ok.mpr ⟨(), hfresh, any_expected_iff.mpr hmem⟩

end BssCli.Webhooks
