import BssCli.Lib.Json
import BssCli.Lib.Utf8
import BssCli.Signup.Session

/-!
# Texts that are cut for a page

A mask of an email, the last digits of a card and of a SIM. Each is cut at a byte, and panics where
that byte is inside a character.
-/

open Text Utf8

namespace BssCli.Portal

/-- `mask_email`. `none` where it panics, as below. -/
def maskEmail (email : List Char) : Option (List Char) :=
  match splitOnce '@' email with
  | none => some email
  | some (localPart, domain) =>
    if localPart = [] then some email
    else (splitAtByte localPart 1).map fun cut =>
      cut.1 ++ List.replicate (max (localPart.length - 1) 1) '*' ++ '@' :: domain

/-- The last four bytes, and `short` where there are fewer. -/
def lastFour (text short : List Char) : Option (List Char) :=
  if 4 ≤ (utf8 text).length then (splitAtByte text ((utf8 text).length - 4)).map (·.2) else some short

/-! ## `SignupSession::new` -/

structure CreateArgs where
  plan : String
  name : String
  email : String
  phone : String
  msisdn : String
  cardPan : List Char
  identityId : Option String
  promoCode : String
  skipAssignedOffer : Bool

/-- A session with what only its pages show. -/
structure NewSession extends Signup.SignupSession where
  name : String
  phone : String
  cardPanLast4 : List Char
  error : Option String

def newSession (sessionId : String) (args : CreateArgs) (now : Time) : Option NewSession :=
  (lastFour args.cardPan args.cardPan).map fun last4 =>
    { sessionId
      plan := args.plan
      name := args.name
      email := args.email
      phone := args.phone
      msisdn := args.msisdn
      cardPan := args.cardPan
      cardPanLast4 := last4
      promoCode := String.ofList (trim args.promoCode.toList)
      skipAssignedOffer := args.skipAssignedOffer
      identityId := args.identityId
      createdAt := now
      step := .pendingCustomer
      stepError := none
      redirectArmed := false
      openOrderId := none
      customerId := none
      paymentMethodId := none
      orderId := none
      subscriptionId := none
      activationCode := none
      error := none
      done := false
      kycProviderSessionId := none
      kycVerifyUrl := none
      kycVerifyQr := none }

/-! ## `losses_for` -/

def asI64 : Json → Option ℤ
  | .int n => checkI64 n
  | _ => none

/-- `get_mut(0..1)` finds nothing where the first character is wider, so that this one does not panic. -/
def upperFirst (label : List Char) : List Char :=
  match splitAtByte label 1 with
  | some (first, rest) => first.map Char.toUpper ++ rest
  | none => label

def lossOf (b : Json) : Json :=
  let atype := ((b.get "allowanceType").bind Json.asStr).getD "?"
  .obj [("label", .str (String.ofList (upperFirst atype.toList))),
    ("remaining", (b.get "remaining").getD (.int 0)),
    ("total", (b.get "total").getD (.int 0)),
    ("unit", .str (((b.get "unit").bind Json.asStr).getD "")),
    ("unlimited", .bool (((b.get "total").bind asI64).getD 0 < 0))]

def iccidOf (sub : Json) : List Char := (((sub.get "iccid").bind Json.asStr).getD "").toList

def lossesFor (sub : Json) (balances : List Json) : Option Json :=
  (lastFour (iccidOf sub) "----".toList).map fun iccidLast4 =>
    .obj [("current_period_end", (sub.get "currentPeriodEnd").getD .null),
      ("msisdn", ((sub.get "msisdn").bind Json.asStr).elim .null .str),
      ("iccid_last4", .str (String.ofList iccidLast4)),
      ("balances", .arr (balances.map lossOf))]

/-! ## Where the cuts fall -/

/-- The text is short, or some of its last characters are four bytes. -/
def EndsInFour (text : List Char) : Prop := (utf8 text).length < 4 ∨ ∃ front back, text = front ++ back ∧ (utf8 back).length = 4

/-- What a mask tells of an email: the first character of the local part, its length, and the domain. -/
def outline (email : List Char) : Option (Char × ℕ × List Char) :=
  (splitOnce '@' email).bind fun parts => parts.1.head?.map fun c => (c, parts.1.length, parts.2)

/-- A local part begins with an ASCII character. -/
def PlainStart (email : List Char) : Prop := ∀ o ∈ outline email, o.1.toNat < 0x80

/-- Nothing panics, and emails that differ in the rest of the local part have one mask. -/
structure PagesReturn (email : List Char) (sessionId : String) (args : CreateArgs) (now : Time) (sub : Json) (balances : List Json) :
    Prop where
  masked : (maskEmail email).isSome
  hidden : ∀ email', outline email' = outline email → (outline email).isSome → maskEmail email' = maskEmail email
  created : (newSession sessionId args now).isSome
  listed : (lossesFor sub balances).isSome

theorem lastFour_isSome_iff {text short : List Char} : (lastFour text short).isSome = true ↔ EndsInFour text := by
  unfold lastFour EndsInFour
  split
  · rename_i hlen
    rw [Option.isSome_map, splitAtByte_isSome_iff]
    constructor
    · rintro ⟨a, b, rfl, hcut⟩
      rw [utf8_append, List.length_append] at hlen hcut
      exact Or.inr ⟨a, b, rfl, by omega⟩
    · rintro (hshort | ⟨a, b, rfl, hfour⟩)
      · omega
      · refine ⟨a, b, rfl, ?_⟩
        rw [utf8_append, List.length_append]
        omega
  · exact iff_of_true rfl (Or.inl (by omega))

theorem splitAtByte_one (c : Char) (cs : List Char) :
    splitAtByte (c :: cs) 1 = if c.toNat < 0x80 then some ([c], cs) else none := by
  rw [splitAtByte]
  by_cases hlow : c.toNat < 0x80
  · rw [utf8EncodeChar_ascii hlow, if_pos hlow]
    cases cs <;> rfl
  · have hwide := (utf8EncodeChar_wide (Nat.le_of_not_lt hlow)).1
    rw [if_neg (by omega), if_neg hlow]

theorem maskEmail_outline {email domain : List Char} {c : Char} {n : ℕ} (h : outline email = some (c, n, domain)) :
    maskEmail email = if c.toNat < 0x80 then some (c :: (List.replicate (max (n - 1) 1) '*' ++ '@' :: domain)) else none := by
  obtain ⟨⟨localPart, d⟩, hsplit, h⟩ := Option.bind_eq_some_iff.mp h
  obtain ⟨c, hhead, heq⟩ := Option.map_eq_some_iff.mp h
  obtain ⟨rfl, rfl, rfl⟩ := heq
  obtain ⟨rest, rfl⟩ := List.head?_eq_some_iff.mp hhead
  unfold maskEmail
  rw [hsplit]
  dsimp only
  rw [if_neg (List.cons_ne_nil c rest), splitAtByte_one]
  split <;> rfl

theorem maskEmail_none {email : List Char} (h : outline email = none) : maskEmail email = some email := by
  unfold maskEmail
  cases hsplit : splitOnce '@' email with
  | none => rfl
  | some parts =>
    unfold outline at h
    rw [hsplit, Option.bind_some, Option.map_eq_none_iff, List.head?_eq_none_iff] at h
    dsimp only
    rw [if_pos h]

theorem maskEmail_isSome_iff {email : List Char} : (maskEmail email).isSome = true ↔ PlainStart email := by
  unfold PlainStart
  cases ho : outline email with
  | none =>
    rw [maskEmail_none ho]
    exact iff_of_true rfl (by simp)
  | some o =>
    rw [maskEmail_outline ho]
    by_cases hlow : o.1.toNat < 0x80 <;> simp [hlow]

/-- The pages return exactly where the local part begins with an ASCII character, and the two numbers end with characters of four
bytes or are shorter. -/
theorem pages_return_iff (email : List Char) (sessionId : String) (args : CreateArgs) (now : Time) (sub : Json)
    (balances : List Json) :
    PagesReturn email sessionId args now sub balances ↔ PlainStart email ∧ EndsInFour args.cardPan ∧ EndsInFour (iccidOf sub) := by
  have hcreated : (newSession sessionId args now).isSome = true ↔ EndsInFour args.cardPan := by
    unfold newSession
    rw [Option.isSome_map, lastFour_isSome_iff]
  have hlisted : (lossesFor sub balances).isSome = true ↔ EndsInFour (iccidOf sub) := by
    unfold lossesFor
    rw [Option.isSome_map, lastFour_isSome_iff]
  constructor
  · intro h
    exact ⟨maskEmail_isSome_iff.mp h.masked, hcreated.mp h.created, hlisted.mp h.listed⟩
  · rintro ⟨hemail, hcard, hsim⟩
    refine ⟨maskEmail_isSome_iff.mpr hemail, fun email' hsame hsome => ?_, hcreated.mpr hcard, hlisted.mpr hsim⟩
    obtain ⟨o, ho⟩ := Option.isSome_iff_exists.mp hsome
    rw [maskEmail_outline ho, maskEmail_outline (hsame.trans ho)]

def sampleArgs (cardPan : List Char) : CreateArgs :=
  ⟨"PLAN_M", "Ada", "ada@example.sg", "+6590000000", "90000000", cardPan, none, "", false⟩

def sampleSub (iccid : String) : Json := .obj [("iccid", .str iccid)]

/-- A local part that begins with a wide character, and a number with one across the cut. -/
theorem pages_panic :
    ¬ PagesReturn ['é', '@', 's', 'g'] "SIG-1" (sampleArgs []) 0 (sampleSub "") [] ∧
      ¬ PagesReturn [] "SIG-1" (sampleArgs ['é', '1', '1', '1']) 0 (sampleSub "") [] ∧
      ¬ PagesReturn [] "SIG-1" (sampleArgs []) 0 (sampleSub "é111") [] := by
  refine ⟨fun h => ?_, fun h => ?_, fun h => ?_⟩
  · exact absurd h.masked (by decide +kernel)
  · exact absurd h.created (by decide +kernel)
  · exact absurd h.listed (by decide +kernel)

end BssCli.Portal
