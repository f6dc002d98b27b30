import BssCli.Lib.Rewrite
import BssCli.Lib.Text

/-!
# Redaction

`redact_provider_payload` of the webhooks crate, and the copy of `redact_stripe` in the payment service. `toLowercase` is
the Unicode table's and `sha256` the hash: both are parameters.
-/

namespace BssCli.Webhooks

open Json

def mask : String := "[redacted]"

def masked : Json := .str mask

/-- What is under one of these keys is masked, whatever it is. -/
def maskUnder (toLowercase : String → String) (keys : List String) (k : String) (_ : Json) : Option Json :=
  if toLowercase k ∈ keys then some masked else none

section
variable (toLowercase : String → String) (sha256 : List UInt8 → List UInt8)

def resendKeys : List String := ["to", "from", "reply_to", "cc", "bcc"]

def redactResend : Json → Json := rewrite (maskUnder toLowercase resendKeys)

def stripeKeys : List String := ["email", "name", "phone", "address", "billing_details"] ++ ["number", "cvc", "cvv"]

def redactStripe : Json → Json := rewrite (maskUnder toLowercase stripeKeys)

def docFields : List String := ["document_number", "id_number", "national_id", "nric", "passport_number"]

def birthFields : List String := ["date_of_birth", "dob", "birth_date"]

def nameFields : List String := ["first_name", "last_name", "full_name", "name"]

def hashMark : List Char := "sha256:".toList

def hashPii (value : String) : String :=
  String.ofList (hashMark ++ (Text.hexLower (sha256 (Text.utf8 value.toList))).take 16)

/-- A document number or a birth date is hashed where it is a string. Into anything else the walk goes on. -/
def diditRule (k : String) (v : Json) : Option Json :=
  if toLowercase k ∈ docFields ∨ toLowercase k ∈ birthFields then
    v.asStr.map fun s => .str (hashPii sha256 s)
  else if toLowercase k ∈ nameFields then
    some masked
  else
    none

def redactDidit : Json → Json := rewrite (diditRule toLowercase sha256)

def redactProviderPayload (provider : String) (body : Json) : Json :=
  if provider = "resend" then
    redactResend toLowercase body
  else if provider = "stripe" then
    redactStripe toLowercase body
  else if provider = "didit" then
    redactDidit toLowercase sha256 body
  else
    body

end

end BssCli.Webhooks

namespace BssCli.Payment

def redactedKeys : List String := ["email", "name", "phone", "address", "billing_details", "number", "cvc", "cvv"]

/-- The payment service's own copy. -/
def redactStripe (toLowercase : String → String) : Json → Json :=
  Json.rewrite (Webhooks.maskUnder toLowercase redactedKeys)

end BssCli.Payment

namespace BssCli.Webhooks

open Json

section
variable {toLowercase : String → String} {sha256 : List UInt8 → List UInt8}

/-! ## What is under a key of the list makes no difference -/

/-- Equal, but for what is stored under the keys of a list. -/
def EqualExcept (toLowercase : String → String) (keys : List String) : Json → Json → Prop :=
  UpTo fun k _ _ => toLowercase k ∈ keys

theorem maskUnder_decides (keys : List String) :
    Decides (maskUnder toLowercase keys) (fun k _ _ => toLowercase k ∈ keys) fun _ _ _ => False := by
  intro k v w
  unfold maskUnder
  by_cases hk : toLowercase k ∈ keys
  · simp [hk, upTo_false]
  · simp [hk]

theorem masked_eq_iff (keys : List String) (a b : Json) :
    rewrite (maskUnder toLowercase keys) a = rewrite (maskUnder toLowercase keys) b ↔ EqualExcept toLowercase keys a b := by
  rw [← upTo_false]
  exact rewrite_upTo_iff (maskUnder_decides keys) a b

theorem masked_keeps (keys : List String) (a : Json) :
    EqualExcept toLowercase keys a (rewrite (maskUnder toLowercase keys) a) := by
  apply upTo_rewrite
  intro k v w h
  unfold maskUnder at h
  split at h
  · assumption
  · cases h

/-! ## Didit's documents -/

def diditKeys : List String := docFields ++ birthFields ++ nameFields

def IsToken (v : Json) : Prop := ∃ s : String, v = .str s ∧ hashMark <+: s.toList

/-- The same, once the tokens for document numbers and birth dates are not told apart. -/
def SameButTokens (toLowercase : String → String) : Json → Json → Prop :=
  UpTo fun k v w => toLowercase k ∈ docFields ++ birthFields ∧ IsToken v ∧ IsToken w

/-- Equal, but for names of any type and for document numbers and birth dates that are strings on both sides. -/
def EqualExceptStrings (toLowercase : String → String) : Json → Json → Prop :=
  UpTo fun k v w => toLowercase k ∈ nameFields ∨
    toLowercase k ∈ docFields ++ birthFields ∧ (∃ s, v = .str s) ∧ ∃ t, w = .str t

theorem hashPii_isToken (s : String) : IsToken (.str (hashPii sha256 s)) := by
  refine ⟨_, rfl, ?_⟩
  rw [hashPii, String.toList_ofList]
  exact List.prefix_append _ _

theorem rewrite_eq_str {f : String → Json → Option Json} {v : Json} {s : String} (h : rewrite f v = .str s) : v = .str s := by
  cases v <;> simp_all [rewrite]

theorem upTo_str_left {R : String → Json → Json → Prop} {s : String} {w : Json} (h : UpTo R (.str s) w) : w = .str s := by
  unfold UpTo at h
  exact h

theorem upTo_str_right {R : String → Json → Json → Prop} {s : String} {v : Json} (h : UpTo R v (.str s)) : v = .str s := by
  cases v <;> simp_all [UpTo]

theorem diditRule_doc {k : String} (hk : toLowercase k ∈ docFields ++ birthFields) (v : Json) :
    diditRule toLowercase sha256 k v = v.asStr.map fun s => .str (hashPii sha256 s) := by
  rw [diditRule, if_pos (List.mem_append.mp hk)]

theorem diditRule_other {k : String} (hk : toLowercase k ∉ docFields ++ birthFields) (v : Json) :
    diditRule toLowercase sha256 k v = if toLowercase k ∈ nameFields then some masked else none := by
  rw [diditRule, if_neg fun h => hk (List.mem_append.mpr h)]

theorem not_name_of_doc {k : String} (h : k ∈ docFields ++ birthFields) : k ∉ nameFields := by
  have hall : ∀ d ∈ docFields ++ birthFields, d ∉ nameFields := by decide
  exact hall k h

theorem diditRule_decides :
    Decides (diditRule toLowercase sha256)
      (fun k v w => toLowercase k ∈ nameFields ∨
        toLowercase k ∈ docFields ++ birthFields ∧ (∃ s, v = .str s) ∧ ∃ t, w = .str t)
      fun k v w => toLowercase k ∈ docFields ++ birthFields ∧ IsToken v ∧ IsToken w := by
  intro k v w
  by_cases hk : toLowercase k ∈ docFields ++ birthFields
  · have hname := not_name_of_doc hk
    rw [diditRule_doc hk, diditRule_doc hk]
    simp only [hk, hname, true_and, false_or]
    -- A token on one side only shows that the other document has no string there.
    have honly : ∀ {u : Json}, (∀ s, u ≠ .str s) → ∀ x, rewrite (diditRule toLowercase sha256) u ≠ .str x :=
      fun hu x hx => hu x (rewrite_eq_str hx)
    by_cases hv : ∃ s, v = .str s
    · obtain ⟨s, rfl⟩ := hv
      by_cases hw : ∃ t, w = .str t
      · obtain ⟨t, rfl⟩ := hw
        simp [hashPii_isToken]
      · have hno : ∀ t, w ≠ .str t := fun t ht => hw ⟨t, ht⟩
        simp only [asStr_str, asStr_eq_none hno, Option.map_some, Option.getD_some, Option.map_none, Option.getD_none,
          hw, and_false, false_or]
        constructor
        · rintro (⟨-, x, hx, -⟩ | h)
          · exact absurd hx (honly hno x)
          · exact absurd (upTo_str_left h) (honly hno _)
        · intro h
          exact absurd (upTo_str_left h) (honly hno _)
    · have hno : ∀ s, v ≠ .str s := fun s hs => hv ⟨s, hs⟩
      simp only [asStr_eq_none hno, Option.map_none, Option.getD_none, hv, false_and, false_or]
      by_cases hw : ∃ t, w = .str t
      · obtain ⟨t, rfl⟩ := hw
        constructor
        · rintro (⟨⟨x, hx, -⟩, -⟩ | h)
          · exact absurd hx (honly hno x)
          · exact absurd (upTo_str_right h) (honly hno _)
        · intro h
          exact absurd (upTo_str_right h) (honly hno _)
      · rw [asStr_eq_none fun t ht => hw ⟨t, ht⟩, Option.map_none, Option.getD_none]
        refine or_iff_right ?_
        rintro ⟨⟨x, hx, -⟩, -⟩
        exact honly hno x hx
  · rw [diditRule_other hk, diditRule_other hk]
    by_cases hname : toLowercase k ∈ nameFields
    · simp [hk, hname, masked, UpTo]
    · simp [hk, hname]

/-- Didit's tokens hide strings, and the mask hides names. Any other value of a document is in the output. -/
theorem redactDidit_sameButTokens_iff (a b : Json) :
    SameButTokens toLowercase (redactDidit toLowercase sha256 a) (redactDidit toLowercase sha256 b) ↔
      EqualExceptStrings toLowercase a b :=
  rewrite_upTo_iff diditRule_decides a b

theorem redactDidit_keeps (a : Json) :
    EqualExcept toLowercase diditKeys a (redactDidit toLowercase sha256 a) := by
  apply upTo_rewrite
  intro k v w h
  rw [diditKeys, List.mem_append]
  by_cases hk : toLowercase k ∈ docFields ++ birthFields
  · exact .inl hk
  · rw [diditRule_other hk] at h
    split at h
    · exact .inr (by assumption)
    · cases h

def sensitiveKeys (provider : String) : List String :=
  if provider = "resend" then
    resendKeys
  else if provider = "stripe" then
    stripeKeys
  else if provider = "didit" then
    diditKeys
  else
    []

/-- Whoever has sent it, a payload changes under the keys of its provider only. -/
theorem redactProviderPayload_keeps (provider : String) (body : Json) :
    EqualExcept toLowercase (sensitiveKeys provider) body (redactProviderPayload toLowercase sha256 provider body) := by
  unfold sensitiveKeys redactProviderPayload
  split
  · exact masked_keeps resendKeys body
  · split
    · exact masked_keeps stripeKeys body
    · split
      · exact redactDidit_keeps body
      · simp [EqualExcept, upTo_false]

end

/-! ## What the redactors hide -/

theorem redaction_hides (toLowercase : String → String) (sha256 : List UInt8 → List UInt8) (a b : Json) :
    (redactResend toLowercase a = redactResend toLowercase b ↔ EqualExcept toLowercase resendKeys a b) ∧
      (redactStripe toLowercase a = redactStripe toLowercase b ↔ EqualExcept toLowercase stripeKeys a b) ∧
      (SameButTokens toLowercase (redactDidit toLowercase sha256 a) (redactDidit toLowercase sha256 b) ↔
        EqualExceptStrings toLowercase a b) ∧
      EqualExcept toLowercase resendKeys a (redactResend toLowercase a) ∧
      EqualExcept toLowercase stripeKeys a (redactStripe toLowercase a) ∧
      EqualExcept toLowercase diditKeys a (redactDidit toLowercase sha256 a) ∧
      Payment.redactStripe toLowercase a = redactStripe toLowercase a :=
  ⟨masked_eq_iff _ a b, masked_eq_iff _ a b, redactDidit_sameButTokens_iff a b, masked_keeps _ a, masked_keeps _ a,
    redactDidit_keeps a, rfl⟩

/-- A number where the document's number is expected goes through as it is. -/
theorem redaction_shows_numbers :
    EqualExcept id diditKeys (.obj [("document_number", .int 1)]) (.obj [("document_number", .int 2)]) ∧
      ¬ SameButTokens id (redactDidit id id (.obj [("document_number", .int 1)]))
        (redactDidit id id (.obj [("document_number", .int 2)])) := by
  constructor
  · simp [EqualExcept, UpTo, FieldsUpTo, diditKeys, docFields]
  · rw [redactDidit_sameButTokens_iff]
    simp [EqualExceptStrings, UpTo, FieldsUpTo, nameFields]

end BssCli.Webhooks
