import BssCli.Lib.Json
import BssCli.Webhooks.Signatures
import Mathlib.Data.List.Sort

/-!
# The signature of a Didit delivery

`verify_didit_hmac`. The signature covers the body, and `X-Timestamp` stands beside it.
`fromSlice` and `toVec` are the JSON library's.
-/

namespace BssCli.Webhooks

open Rounding

mutual

/-- Keys in order, and an integral float as the integer. -/
def canonicalizeDidit : Json → Json
  | .obj fields => .obj ((canonicalizeFields fields).mergeSort fun a b => a.1 ≤ b.1)
  | .arr values => .arr (canonicalizeValues values)
  | .float x => if x = ⌊x⌋ ∧ -2 ^ 63 ≤ x ∧ x < 2 ^ 63 then .int ⌊x⌋ else .float x
  | .null => .null
  | .bool b => .bool b
  | .int n => .int n
  | .str s => .str s

def canonicalizeFields : List (String × Json) → List (String × Json)
  | [] => []
  | (k, v) :: fields => (k, canonicalizeDidit v) :: canonicalizeFields fields

def canonicalizeValues : List Json → List Json
  | [] => []
  | v :: values => canonicalizeDidit v :: canonicalizeValues values

end

/-- `is_ascii_hexdigit` -/
def isAsciiHexdigit (c : Char) : Bool :=
  (48 ≤ c.toNat && c.toNat ≤ 57) || (65 ≤ c.toNat && c.toNat ≤ 70) || (97 ≤ c.toNat && c.toNat ≤ 102)

def nonEmpty (header : Option (List Char)) : Option (List Char) := header.filter (· ≠ [])

section Verify

variable (hmacSha256 : List UInt8 → List UInt8 → List UInt8) (fromSlice : List UInt8 → Option Json)
  (toVec : Json → Option (List UInt8)) (secret : List Char) (body : List UInt8)

/-- `X-Signature-V2` signs the canonical body. -/
def matchesV2 (v2 : Option (List Char)) : Bool :=
  match v2 with
  | none => false
  | some sig =>
    match (fromSlice body).bind fun value => toVec (canonicalizeDidit value) with
    | none => false
    | some canonical => sig.map Char.toLower = Text.hexLower (hmacSha256 (Text.utf8 secret) canonical)

/-- `X-Signature` signs the body as it is. -/
def matchesRaw (raw : Option (List Char)) : Bool :=
  match raw with
  | none => false
  | some sig => sig.map Char.toLower = Text.hexLower (hmacSha256 (Text.utf8 secret) body)

def verifyDiditHmac (headers : String → Option (List Char)) (maxSkewSeconds : ℤ) (now : ℚ) :
    Except WebhookSignatureError Unit :=
  let v2 := nonEmpty (headers "x-signature-v2")
  let raw := nonEmpty (headers "x-signature")
  if v2 = none ∧ raw = none then
    .error { code := "missing_header", message := .text "Didit signature required" }
  else
    match nonEmpty (headers "x-timestamp") with
    | none => .error { code := "missing_header", message := .text "X-Timestamp required" }
    | some timestamp =>
      if (v2.toList ++ raw.toList).any fun s => !s.all isAsciiHexdigit then
        .error { code := "malformed_header", message := .text "Didit signature must be hex" }
      else do
        checkTimestamp timestamp maxSkewSeconds now
        if matchesV2 hmacSha256 fromSlice toVec secret body v2 || matchesRaw hmacSha256 secret body raw then .ok ()
        else .error { code := "signature_mismatch", message := .text "didit_hmac signature did not match" }

/-- The signature is one for the body, with no word about a time. -/
def SignsBody (headers : String → Option (List Char)) : Prop :=
  let v2 := nonEmpty (headers "x-signature-v2")
  let raw := nonEmpty (headers "x-signature")
  (∀ s ∈ v2.toList ++ raw.toList, s.all isAsciiHexdigit = true) ∧
    (matchesV2 hmacSha256 fromSlice toVec secret body v2 || matchesRaw hmacSha256 secret body raw) = true

variable {hmacSha256 fromSlice toVec secret body}

theorem verifyDiditHmac_ok_iff {headers : String → Option (List Char)} {maxSkewSeconds : ℤ} {now : ℚ} :
    verifyDiditHmac hmacSha256 fromSlice toVec secret body headers maxSkewSeconds now = .ok () ↔
      SignsBody hmacSha256 fromSlice toVec secret body headers ∧
        ∃ timestamp, headers "x-timestamp" = some timestamp ∧ checkTimestamp timestamp maxSkewSeconds now = .ok () := by
  unfold verifyDiditHmac SignsBody
  dsimp only
  constructor
  · intro h
    split at h
    · cases h
    split at h
    · cases h
    rename_i timestamp htimestamp
    split at h
    · cases h
    rename_i hhex
    obtain ⟨_, hfresh, h⟩ := bind_eq_ok.mp h
    split at h
    · rename_i hmatch
      refine ⟨⟨?_, hmatch⟩, timestamp, (Option.filter_eq_some_iff.mp htimestamp).1, hfresh⟩
      intro s hs
      by_contra hbad
      exact hhex (List.any_eq_true.mpr ⟨s, hs, by rw [Bool.not_eq_true] at hbad; rw [hbad]; rfl⟩)
    · cases h
  · rintro ⟨⟨hhex, hmatch⟩, timestamp, htimestamp, hfresh⟩
    have hne : timestamp ≠ [] := by
      rintro rfl
      cases hfresh
    have hsome : ¬ (nonEmpty (headers "x-signature-v2") = none ∧ nonEmpty (headers "x-signature") = none) := by
      rintro ⟨hv2, hraw⟩
      rw [hv2, hraw] at hmatch
      cases hmatch
    have hany : ¬ ((nonEmpty (headers "x-signature-v2")).toList ++ (nonEmpty (headers "x-signature")).toList).any
        (fun s => !s.all isAsciiHexdigit) = true := by
      intro hbad
      obtain ⟨s, hs, hbad⟩ := List.any_eq_true.mp hbad
      rw [hhex s hs] at hbad
      cases hbad
    have htime : nonEmpty (headers "x-timestamp") = some timestamp := by
      rw [htimestamp, nonEmpty, Option.filter_some, if_pos (decide_eq_true hne)]
    rw [if_neg hsome, htime]
    dsimp only
    rw [if_neg hany]
    exact bind_eq_ok.mpr ⟨(), hfresh, if_pos hmatch⟩

end Verify

/-! ## Which moment is fresh -/

/-- A reading of the system clock, once its first minutes are over. -/
abbrev Reading := {x : ℚ // roundF64 x = x ∧ 256 ≤ x}

/-- A moment in the seconds that `X-Timestamp` states. -/
abbrev UnixSecond := {n : ℤ // 0 ≤ n ∧ n ≤ 1000000000000}

def States (headers : String → Option (List Char)) (n : UnixSecond) : Prop :=
  ∃ timestamp, headers "x-timestamp" = some timestamp ∧ Text.parseI64 (Text.trim timestamp) = some n.val

/-- A reading keeps so many places that its distance from a second is exact where it counts. -/
theorem reading_fresh_iff (now : Reading) (n : UnixSecond) :
    |roundF64 (now.val - tsSeconds n.val)| ≤ roundF64 defaultMaxSkewSeconds ↔ |now.val - n.val| ≤ 300 := by
  obtain ⟨x, hround, hx⟩ := now
  obtain ⟨n, hlow, hhigh⟩ := n
  obtain ⟨m, hm⟩ := exists_grid (k := -44) hround (by norm_num; exact hx)
  have hts : tsSeconds n = n := by
    rw [tsSeconds, if_neg (by omega)]
    exact roundF64_intCast (abs_le.mpr (by omega))
  have hdist : x - n = (m - n * 2 ^ 44 : ℤ) * 2 ^ (-44 : ℤ) := by
    rw [hm]
    push_cast
    norm_num
    ring
  have hskew : roundF64 defaultMaxSkewSeconds = (300 * 2 ^ 44 : ℤ) * 2 ^ (-44 : ℤ) := by
    rw [show roundF64 defaultMaxSkewSeconds = 300 from roundF64_intCast (m := 300) (by norm_num)]
    norm_num
  have h300 : (300 : ℚ) = (300 * 2 ^ 44 : ℤ) * 2 ^ (-44 : ℤ) := by norm_num
  dsimp only
  rw [hts, hskew, hdist, h300]
  exact abs_roundF64_le_iff (by norm_num)

section Replay

variable (hmacSha256 : List UInt8 → List UInt8 → List UInt8) (fromSlice : List UInt8 → Option Json)
  (toVec : Json → Option (List UInt8))

def DiditAccepts (secret : List Char) (body : List UInt8) (headers : String → Option (List Char)) (now : Reading) :
    Prop :=
  verifyDiditHmac hmacSha256 fromSlice toVec secret body headers defaultMaxSkewSeconds now.val = .ok ()

def SameSignature (headers headers' : String → Option (List Char)) : Prop :=
  headers' "x-signature-v2" = headers "x-signature-v2" ∧ headers' "x-signature" = headers "x-signature"

/-- A pair that was signed at `n` is accepted near `n` only, whatever the headers. -/
def ReplayProtected : Prop :=
  ∀ (secret : List Char) (body : List UInt8) (headers : String → Option (List Char)) (now : Reading) (n : UnixSecond),
    DiditAccepts hmacSha256 fromSlice toVec secret body headers now → States headers n →
    ∀ headers', SameSignature headers headers' → ∀ now' : Reading,
      DiditAccepts hmacSha256 fromSlice toVec secret body headers' now' → |now'.val - n.val| ≤ 300

variable {hmacSha256 fromSlice toVec} {secret : List Char} {body : List UInt8}

theorem diditAccepts_iff {headers : String → Option (List Char)} {n : UnixSecond} (hstates : States headers n)
    (now : Reading) :
    DiditAccepts hmacSha256 fromSlice toVec secret body headers now ↔
      SignsBody hmacSha256 fromSlice toVec secret body headers ∧ |now.val - n.val| ≤ 300 := by
  obtain ⟨timestamp, htimestamp, hn⟩ := hstates
  rw [DiditAccepts, verifyDiditHmac_ok_iff]
  refine and_congr_right fun _ => ?_
  constructor
  · rintro ⟨timestamp', htimestamp', hfresh⟩
    obtain rfl := Option.some.inj (htimestamp.symm.trans htimestamp')
    obtain ⟨ts, hts, hfresh⟩ := checkTimestamp_ok_iff.mp hfresh
    obtain rfl := Option.some.inj (hn.symm.trans hts)
    exact (reading_fresh_iff now n).mp hfresh
  · exact fun hfresh => ⟨timestamp, htimestamp, checkTimestamp_ok_iff.mpr ⟨_, hn, (reading_fresh_iff now n).mpr hfresh⟩⟩

theorem SignsBody.of_same {headers headers' : String → Option (List Char)}
    (h : SignsBody hmacSha256 fromSlice toVec secret body headers) (hsame : SameSignature headers headers') :
    SignsBody hmacSha256 fromSlice toVec secret body headers' := by
  unfold SignsBody at *
  rw [hsame.1, hsame.2]
  exact h

/-- The digest of the body, in `X-Signature`. -/
def diditHeaders (timestamp signature : List Char) (name : String) : Option (List Char) :=
  if name = "x-timestamp" then some timestamp else if name = "x-signature" then some signature else none

theorem diditHeaders_states (n : UnixSecond) (signature : List Char) :
    States (diditHeaders (Text.ofI64 n.val) signature) n := by
  obtain ⟨n, hlow, hhigh⟩ := n
  refine ⟨Text.ofI64 n, if_pos rfl, ?_⟩
  rw [Text.trim_eq_self fun c hc => (carried_ofI64 n c hc).2]
  exact Text.parseI64_ofI64 (by omega) (by omega)

theorem diditHeaders_signsBody (hne : hmacSha256 (Text.utf8 secret) body ≠ []) (timestamp : List Char) :
    SignsBody hmacSha256 fromSlice toVec secret body
      (diditHeaders timestamp (Text.hexLower (hmacSha256 (Text.utf8 secret) body))) := by
  have hdigits : ∀ n : Fin 16, isAsciiHexdigit (Text.hexDigit n) = true ∧ (Text.hexDigit n).toLower = Text.hexDigit n := by
    decide
  set signature := Text.hexLower (hmacSha256 (Text.utf8 secret) body) with hsignature
  have hmem : ∀ c ∈ signature, isAsciiHexdigit c = true ∧ c.toLower = c := by
    intro c hc
    obtain ⟨n, rfl⟩ := Text.mem_hexLower hc
    exact hdigits n
  have hsig : signature ≠ [] := by
    obtain ⟨b, bytes, hbytes⟩ := List.exists_cons_of_ne_nil hne
    rw [hsignature, hbytes]
    exact List.cons_ne_nil _ _
  have hv2 : nonEmpty (diditHeaders timestamp signature "x-signature-v2") = none := rfl
  have hraw : nonEmpty (diditHeaders timestamp signature "x-signature") = some signature := by
    rw [diditHeaders, if_neg (by decide), if_pos rfl, nonEmpty, Option.filter_some, if_pos (decide_eq_true hsig)]
  unfold SignsBody
  rw [hv2, hraw]
  constructor
  · intro s hs
    obtain rfl := List.mem_singleton.mp hs
    exact List.all_eq_true.mpr fun c hc => (hmem c hc).1
  · have hlower : signature.map Char.toLower = signature := by
      conv_rhs => rw [← List.map_id signature]
      exact List.map_congr_left fun c hc => (hmem c hc).2
    exact decide_eq_true hlower

end Replay

/-- A pair that was accepted once. Headers that state a moment have it accepted near that moment
only, and with its own signature always then. -/
theorem didit_replay_window {hmacSha256 : List UInt8 → List UInt8 → List UInt8} {fromSlice : List UInt8 → Option Json}
    {toVec : Json → Option (List UInt8)} {secret : List Char} {body : List UInt8}
    {headers headers' : String → Option (List Char)} {acceptedAt : Reading} {n : UnixSecond}
    (haccepts : DiditAccepts hmacSha256 fromSlice toVec secret body headers acceptedAt)
    (hstates : States headers' n) (now : Reading) :
    (DiditAccepts hmacSha256 fromSlice toVec secret body headers' now → |now.val - n.val| ≤ 300) ∧
      (SameSignature headers headers' → |now.val - n.val| ≤ 300 →
        DiditAccepts hmacSha256 fromSlice toVec secret body headers' now) := by
  have hsigned := (verifyDiditHmac_ok_iff.mp haccepts).1
  rw [diditAccepts_iff hstates]
  exact ⟨And.right, fun hsame hfresh => ⟨hsigned.of_same hsame, hfresh⟩⟩

/-! ## A day later -/

def signedAt : UnixSecond := ⟨1700000000, by decide⟩

def replayedAt : UnixSecond := ⟨1700086400, by decide⟩

theorem reading_of_second {n : ℤ} (hlow : 256 ≤ n) (hhigh : n ≤ 2 ^ 53) : roundF64 n = n ∧ (256 : ℚ) ≤ n :=
  ⟨roundF64_intCast (abs_le.mpr (by omega)), by exact_mod_cast hlow⟩

def readingAt (n : UnixSecond) (h : 256 ≤ n.val) : Reading := ⟨n.val, reading_of_second h (by have := n.2; omega)⟩

def sampleHeaders (hmacSha256 : List UInt8 → List UInt8 → List UInt8) (n : UnixSecond) : String → Option (List Char) :=
  diditHeaders (Text.ofI64 n.val) (Text.hexLower (hmacSha256 (Text.utf8 ['k']) []))

theorem sampleHeaders_states (hmacSha256 : List UInt8 → List UInt8 → List UInt8) (n : UnixSecond) :
    States (sampleHeaders hmacSha256 n) n := diditHeaders_states n _

theorem sampleHeaders_same (hmacSha256 : List UInt8 → List UInt8 → List UInt8) (n m : UnixSecond) :
    SameSignature (sampleHeaders hmacSha256 n) (sampleHeaders hmacSha256 m) := ⟨rfl, rfl⟩

theorem sample_accepted {hmacSha256 : List UInt8 → List UInt8 → List UInt8}
    (hlen : ∀ key msg, (hmacSha256 key msg).length = 32) (fromSlice : List UInt8 → Option Json)
    (toVec : Json → Option (List UInt8)) (n : UnixSecond) (h : 256 ≤ n.val) :
    DiditAccepts hmacSha256 fromSlice toVec ['k'] [] (sampleHeaders hmacSha256 n) (readingAt n h) := by
  have hne : hmacSha256 (Text.utf8 ['k']) [] ≠ [] := by
    intro hnil
    have := hlen (Text.utf8 ['k']) []
    rw [hnil] at this
    cases this
  refine (diditAccepts_iff (sampleHeaders_states hmacSha256 n) _).mpr ⟨diditHeaders_signsBody hne _, ?_⟩
  rw [readingAt, sub_self, abs_zero]
  norm_num

theorem a_day_apart : ((86400 : ℤ) : ℚ) ≤ |((replayedAt.val : ℤ) : ℚ) - (signedAt.val : ℤ)| := by
  rw [← Int.cast_sub, ← Int.cast_abs, Int.cast_le]
  decide

/-- A day later the same pair is accepted, with the day's own `X-Timestamp`. -/
theorem not_replayProtected {hmacSha256 : List UInt8 → List UInt8 → List UInt8}
    (hlen : ∀ key msg, (hmacSha256 key msg).length = 32) (fromSlice : List UInt8 → Option Json)
    (toVec : Json → Option (List UInt8)) : ¬ ReplayProtected hmacSha256 fromSlice toVec := by
  intro hprotected
  have hsigned := sample_accepted hlen fromSlice toVec signedAt (by decide)
  have hreplayed := sample_accepted hlen fromSlice toVec replayedAt (by decide)
  have hnear := hprotected _ _ _ _ signedAt hsigned (sampleHeaders_states hmacSha256 signedAt) _
    (sampleHeaders_same hmacSha256 signedAt replayedAt) _ hreplayed
  have hshort := a_day_apart.trans hnear
  norm_num at hshort

/-- A digest of 32 bytes, of the key and the message. -/
def sampleHmac (key msg : List UInt8) : List UInt8 := (key ++ msg ++ List.replicate 32 0).take 32

theorem sampleHmac_length (key msg : List UInt8) : (sampleHmac key msg).length = 32 := by
  rw [sampleHmac, List.length_take, List.length_append, List.length_replicate]
  omega

theorem didit_accepted_later : ¬ ReplayProtected sampleHmac (fun _ => none) (fun _ => none) :=
  not_replayProtected sampleHmac_length _ _

/-- A day later the headers of the day before are refused, and those with another
`X-Timestamp` are not. -/
theorem didit_replay_window_day :
    ¬ DiditAccepts sampleHmac (fun _ => none) (fun _ => none) ['k'] [] (sampleHeaders sampleHmac signedAt)
        (readingAt replayedAt (by decide)) ∧
      DiditAccepts sampleHmac (fun _ => none) (fun _ => none) ['k'] [] (sampleHeaders sampleHmac replayedAt)
        (readingAt replayedAt (by decide)) := by
  have haccepts := sample_accepted sampleHmac_length (fun _ => none) (fun _ => none) signedAt (by decide)
  have hstale := didit_replay_window haccepts (sampleHeaders_states sampleHmac signedAt) (readingAt replayedAt (by decide))
  have hfresh := didit_replay_window haccepts (sampleHeaders_states sampleHmac replayedAt) (readingAt replayedAt (by decide))
  constructor
  · intro h
    have hshort := a_day_apart.trans (hstale.1 h)
    norm_num at hshort
  · refine hfresh.2 (sampleHeaders_same sampleHmac signedAt replayedAt) ?_
    rw [readingAt, sub_self, abs_zero]
    norm_num

end BssCli.Webhooks
