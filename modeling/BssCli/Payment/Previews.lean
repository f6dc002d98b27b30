import BssCli.Lib.Utf8
import BssCli.Payment.Webhooks

/-!
# The log of a rejected delivery

A delivery that is not authentic is logged before it is answered, with its headers and the
start of its body. The start is cut at a byte. A cut through a character panics, and the
delivery has no answer.
-/

namespace BssCli.Payment

open Utf8

/-! ## Previews -/

/-- Names in lower case, with the bytes of their values. -/
abbrev HeaderMap := List (String × List UInt8)

def ellipsis : List UInt8 := Text.utf8 ['…']

/-- The first `limit` bytes of a text, and `none` where the slice panics. -/
def clip (limit : ℕ) (s : List UInt8) : Option (List UInt8) :=
  if s.length > limit then (sliceTo s limit).map (· ++ ellipsis) else some s

/-- `HeaderValue::to_str`: visible ASCII and tabs. -/
def toStr (v : List UInt8) : Option (List UInt8) :=
  if v.all fun b => (32 ≤ b.toNat && b.toNat < 127) || b.toNat = 9 then some v else none

def redactedWords : List String := ["secret", "token", "authorization"]

def headerText (name : String) (v : List UInt8) : Option (List UInt8) :=
  if ∃ word ∈ redactedWords, word.toList <:+: name.toLower.toList then some (Text.utf8 "[redacted]".toList)
  else clip 80 ((toStr v).getD (Text.utf8 "<binary>".toList))

def candidateHeaders (headers : HeaderMap) : Option HeaderMap :=
  headers.mapM fun h => (headerText h.1 h.2).map fun text => (h.1, text)

def bodyPreview (body : List UInt8) : Option (List UInt8) := clip 500 (lossy body)

/-! ## The handler with its log -/

structure Arrival where
  headers : HeaderMap
  body : List UInt8
  nowUnix : ℤ
  now : Time
  choice : RowChoice AttemptRecord
  fault : Statement → Option String
  /-- Warnings are logged, and their fields computed. -/
  warns : Bool

def Arrival.sigHeader (a : Arrival) : Option (List Char) :=
  ((a.headers.find? fun h => h.1 = "stripe-signature").bind fun h => toStr h.2).map
    fun v => v.map fun b => Char.ofNat b.toNat

def Arrival.delivery (a : Arrival) : Delivery where
  body := a.body
  sigHeader := a.sigHeader
  nowUnix := a.nowUnix
  now := a.now
  choice := a.choice
  fault := a.fault

def signatureInvalid (a : Arrival) : Option Unit :=
  if a.warns then do
    let _ ← candidateHeaders a.headers
    let _ ← bodyPreview a.body
    return ()
  else some ()

def malformedBody (a : Arrival) : Option Unit := if a.warns then (bodyPreview a.body).map fun _ => () else some ()

section

variable (hmacSha256 : List UInt8 → List UInt8 → List UInt8) (fromSlice : List UInt8 → Option Json)
  (secret : List Char) (a : Arrival) (db : WebhookDb)

def verified : Except SigError Unit := verifyStripeSignature hmacSha256 secret a.body a.sigHeader a.nowUnix

/-- `webhook_stripe`, and `none` where it panics. Past the body there is nothing to clip. -/
def receive : Option Handled :=
  if secret = [] then some (refused 401 "webhook_secret_unset" db)
  else
    match verified hmacSha256 secret a with
    | .error e => (signatureInvalid a).map fun _ => refused 401 e.code db
    | .ok () =>
      match fromSlice a.body with
      | none => (malformedBody a).map fun _ => refused 400 "malformed_body" db
      | some _ => some (webhookStripe hmacSha256 fromSlice secret a.delivery db)

/-- There is an answer, and without a valid signature it is 401 and nothing is stored. -/
def Answered : Prop :=
  ∃ r, receive hmacSha256 fromSlice secret a db = some r ∧
    (¬ (secret ≠ [] ∧ verified hmacSha256 secret a = .ok ()) → r.reply.status = 401 ∧ r.db = db)

variable {hmacSha256 fromSlice secret a db}

theorem receive_eq {r : Handled} (h : receive hmacSha256 fromSlice secret a db = some r) :
    r = webhookStripe hmacSha256 fromSlice secret a.delivery db := by
  unfold receive at h
  unfold webhookStripe
  split at h
  · rename_i hsecret
    rw [if_pos hsecret]
    exact (Option.some.inj h).symm
  · rename_i hsecret
    rw [if_neg hsecret]
    split at h
    · rename_i e hverified
      obtain ⟨_, -, rfl⟩ := Option.map_eq_some_iff.mp h
      have hverified : verifyStripeSignature hmacSha256 secret a.delivery.body a.delivery.sigHeader
        a.delivery.nowUnix = .error e := hverified
      rw [hverified]
    · rename_i hverified
      have hverified : verifyStripeSignature hmacSha256 secret a.delivery.body a.delivery.sigHeader
        a.delivery.nowUnix = .ok () := hverified
      rw [hverified]
      split at h
      · rename_i hbody
        obtain ⟨_, -, rfl⟩ := Option.map_eq_some_iff.mp h
        have hbody : fromSlice a.delivery.body = none := hbody
        dsimp only
        rw [hbody]
      · rw [← Option.some.inj h]
        unfold webhookStripe
        rw [if_neg hsecret, hverified]

/-! ## Where the slices are safe -/

/-- At the clip a character ends, or the text is over. -/
def ClipsCleanly (body : List UInt8) : Prop :=
  (lossy body).length ≤ 500 ∨ ∃ k, ((lossyChars body).take k).flatten.length = 500

theorem bodyPreview_isSome {body : List UInt8} : (bodyPreview body).isSome = true ↔ ClipsCleanly body := by
  unfold bodyPreview clip ClipsCleanly
  rw [← boundary_iff (whole_lossyChars body), ← lossy]
  split
  · rename_i hlong
    rw [or_iff_right (by omega), Option.isSome_map, sliceTo]
    split
    · rename_i hcut
      simp [hcut]
    · rename_i hcut
      simp [hcut]
  · rename_i hshort
    exact iff_of_true rfl (Or.inl (by omega))

theorem headerText_isSome (name : String) (v : List UInt8) : (headerText name v).isSome = true := by
  have hascii : ∀ b ∈ (toStr v).getD (Text.utf8 "<binary>".toList), isCont b = false := by
    unfold toStr
    split
    · rename_i hvisible
      intro b hb
      have := List.all_eq_true.mp hvisible b hb
      simp only [isCont, Bool.or_eq_true, Bool.and_eq_true, decide_eq_true_eq, Bool.and_eq_false_iff,
        decide_eq_false_iff_not] at this ⊢
      omega
    · have hbinary : ((Text.utf8 "<binary>".toList).all fun b => !(isCont b)) = true := by decide
      intro b hb
      simpa using List.all_eq_true.mp hbinary b hb
  unfold headerText
  split
  · rfl
  · unfold clip
    split
    · rename_i hlong
      rw [Option.isSome_map, sliceTo, if_pos (boundary_ascii hascii (by omega))]
      rfl
    · rfl

theorem candidateHeaders_isSome (headers : HeaderMap) : (candidateHeaders headers).isSome = true := by
  unfold candidateHeaders
  induction headers with
  | nil => rfl
  | cons h headers ih =>
    obtain ⟨text, htext⟩ := Option.isSome_iff_exists.mp (headerText_isSome h.1 h.2)
    obtain ⟨rest, hrest⟩ := Option.isSome_iff_exists.mp ih
    rw [List.mapM_cons, htext, hrest]
    rfl

theorem signatureInvalid_eq : signatureInvalid a = some () ↔ a.warns = false ∨ ClipsCleanly a.body := by
  rw [← bodyPreview_isSome]
  obtain ⟨shown, hshown⟩ := Option.isSome_iff_exists.mp (candidateHeaders_isSome a.headers)
  unfold signatureInvalid
  cases hwarns : a.warns with
  | false => simp
  | true => cases hpreview : bodyPreview a.body <;> simp [hshown]

theorem malformedBody_eq : malformedBody a = some () ↔ a.warns = false ∨ ClipsCleanly a.body := by
  rw [← bodyPreview_isSome]
  unfold malformedBody
  cases hwarns : a.warns with
  | false => simp
  | true => cases hpreview : bodyPreview a.body <;> simp

theorem map_isSome_of_unit {α : Type} {o : Option Unit} {r : α} (h : o = some ()) : (o.map fun _ => r) = some r := by
  rw [h]
  rfl

end

/-- **When a delivery is answered.** Warnings are off, no secret is set, the signature and the
body are good, or the clip falls between characters. -/
theorem webhook_answered_iff (hmacSha256 : List UInt8 → List UInt8 → List UInt8) (fromSlice : List UInt8 → Option Json)
    (secret : List Char) (a : Arrival) (db : WebhookDb) :
    Answered hmacSha256 fromSlice secret a db ↔
      a.warns = false ∨ secret = [] ∨
        (verified hmacSha256 secret a = .ok () ∧ (fromSlice a.body).isSome = true) ∨ ClipsCleanly a.body := by
  unfold Answered receive
  split
  · rename_i hsecret
    exact iff_of_true ⟨_, rfl, fun _ => ⟨rfl, rfl⟩⟩ (Or.inr (Or.inl hsecret))
  · rename_i hsecret
    split
    · rename_i e hverified
      have hfalse : ¬ (verified hmacSha256 secret a = .ok () ∧ (fromSlice a.body).isSome = true) := by
        rintro ⟨hok, -⟩
        rw [hverified] at hok
        cases hok
      rw [or_iff_right hsecret, or_iff_right hfalse, ← signatureInvalid_eq]
      constructor
      · rintro ⟨r, hr, -⟩
        obtain ⟨⟨⟩, hlog, -⟩ := Option.map_eq_some_iff.mp hr
        exact hlog
      · intro hlog
        exact ⟨_, map_isSome_of_unit hlog, fun _ => ⟨rfl, rfl⟩⟩
    · rename_i hverified
      have hauthentic : secret ≠ [] ∧ verified hmacSha256 secret a = .ok () := ⟨hsecret, hverified⟩
      refine (exists_congr fun r => and_iff_left fun h => absurd hauthentic h).trans ?_
      rw [or_iff_right hsecret, and_iff_right hverified]
      split
      · rename_i hbody
        rw [hbody]
        simp only [Option.isSome_none, Bool.false_eq_true, false_or]
        rw [← malformedBody_eq]
        constructor
        · rintro ⟨r, hr⟩
          obtain ⟨⟨⟩, hlog, -⟩ := Option.map_eq_some_iff.mp hr
          exact hlog
        · intro hlog
          exact ⟨_, map_isSome_of_unit hlog⟩
      · rename_i payload hbody
        rw [hbody]
        exact iff_of_true ⟨_, rfl⟩ (Or.inr (Or.inl rfl))

def straddling : List UInt8 := List.replicate 499 0x61 ++ [0xC3, 0xA9]

def unsigned (body : List UInt8) : Arrival := ⟨[], body, 7, 0, firstRow, noFault, true⟩

theorem lossyChars_straddling : lossyChars straddling = (List.replicate 499 0x61).map (fun b => [b]) ++ [[0xC3, 0xA9]] := by
  have hascii : ∀ b ∈ List.replicate 499 (0x61 : UInt8), b.toNat < 0x80 := by
    intro b hb
    obtain rfl := List.eq_of_mem_replicate hb
    decide
  unfold lossyChars straddling
  rw [List.foldl_append, foldl_feed_ascii hascii]
  rfl

/-- Nobody has signed it, and it is not answered. -/
theorem unsigned_panics :
    receive sampleDigest sampleParse ['k'] (unsigned straddling) emptyLedger = none ∧
      ¬ Answered sampleDigest sampleParse ['k'] (unsigned straddling) emptyLedger := by
  have hnone : receive sampleDigest sampleParse ['k'] (unsigned straddling) emptyLedger = none := by
    have hpreview : bodyPreview straddling = none := by
      unfold bodyPreview lossy
      rw [lossyChars_straddling]
      decide +kernel
    have hlog : signatureInvalid (unsigned straddling) = none := by
      unfold signatureInvalid
      rw [show bodyPreview (unsigned straddling).body = none from hpreview]
      rfl
    unfold receive
    rw [if_neg (by decide), show verified sampleDigest ['k'] (unsigned straddling) =
      .error ⟨"missing_header", "Stripe-Signature header required"⟩ from rfl, hlog]
    rfl
  refine ⟨hnone, ?_⟩
  rintro ⟨r, hr, -⟩
  rw [hnone] at hr
  cases hr

end BssCli.Payment
