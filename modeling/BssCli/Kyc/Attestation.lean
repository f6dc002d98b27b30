import BssCli.Lib.Utf8
import BssCli.Webhooks.Corroboration

/-!
# The attestation of a Didit session

`fetch_attestation` of the self-serve portal. It waits for the signed webhook's row, then reads the unsigned decision.
-/

open BssCli.Webhooks

namespace BssCli.Kyc

inductive KycError
  | capExhausted (message : String)
  | corroborationTimeout (message : String)
  | http (message : String)

structure KycAttestation where
  provider : String
  providerReference : String
  documentType : String
  documentCountry : String
  documentNumberLast4 : List Char
  documentNumberHash : List Char
  dateOfBirth : String
  corroborationId : Option String

/-- The timeout of the polls, and the libraries: the case tables of Unicode and the hash. -/
structure DiditKycAdapter where
  pollTimeoutSecs : Nat
  toUppercase : List Char → List Char
  toLowercase : String → String
  sha256 : List UInt8 → List UInt8

/-- What each poll for a session finds in the table, `none` where the query fails, and what the decision endpoint replies. -/
structure Outside where
  polls : String → List (Option (List Corroboration))
  decision : String → Except KycError Json

/-! ## The corroboration -/

def terminalStatuses : List String := ["Approved", "Declined", "Expired", "Abandoned", "Kyc Expired"]

def pollCorroboration (sid : String) (rows : List Corroboration) : Option (String × String) :=
  (rows.find? (·.isFor sid)).bind fun row =>
    if row.decisionStatus ∈ terminalStatuses then some (row.id, row.decisionStatus) else none

/-- The first poll with a final row. `none` after the deadline. -/
def waitForCorroboration (sid : String) (polls : List (Option (List Corroboration))) : Option (String × String) :=
  polls.findSome? fun poll => poll.bind (pollCorroboration sid)

/-! ## The decision -/

def strOf (doc : Json) (key : String) : String := ((doc.get key).bind Json.asStr).getD ""

def isApproved (v : Json) : Bool := (v.get "status").bind Json.asStr = some "Approved"

def idVerifications (decision : Json) : List Json := ((decision.get "id_verifications").bind Json.asArray).getD []

def approvedDocuments (decision : Json) : List Json := (idVerifications decision).filter isApproved

def requiredFields : List String := ["document_number", "issuing_state", "date_of_birth", "document_type"]

def isBlank (s : String) : Bool := Text.trim s.toList = []

def isComplete (doc : Json) : Bool :=
  requiredFields.all fun key => ((doc.get key).bind Json.asStr).any fun s => !isBlank s

def hasOneDocument (decision : Json) : Bool :=
  match approvedDocuments decision with
  | [doc] => isComplete doc
  | _ => false

section
variable (a : DiditKycAdapter)

def sha256Hex (text : List Char) : List Char := Text.hexLower (a.sha256 (Text.utf8 text))

def normalized (number : String) : List Char := Text.trim (a.toUppercase number.toList)

def last4 (number : List Char) : List Char := if number.length ≥ 4 then number.drop (number.length - 4) else number

def hashOf (number country : String) : List Char :=
  sha256Hex a (normalized a number ++ "|".toList ++ country.toList ++ "|".toList ++ providerDidit.toList)

def documentTypeOf (rawType : String) : String :=
  if rawType = "identity card" then "nric"
  else if rawType = "passport" then "passport"
  else if rawType = "driver's license" then "drivers_license"
  else if rawType = "fin" then "fin"
  else rawType

def orElse (s fallback : String) : String := if s = "" then fallback else s

/-- The document is the first approved one, or else what stands under `id_verification`. -/
def identityOf (decision : Json) : Option Json :=
  ((((decision.get "id_verifications").bind Json.asArray).bind (·.find? isApproved))).or (decision.get "id_verification")

def buildAttestation (decision : Json) (corroborationId : Option String) : KycAttestation :=
  let field (key : String) : String := ((identityOf decision).map (strOf · key)).getD ""
  let country := orElse (field "issuing_state") "SGP"
  { provider := providerDidit
    providerReference := strOf decision "session_id"
    documentType := documentTypeOf (orElse (a.toLowercase (field "document_type")) "identity card")
    documentCountry := country
    documentNumberLast4 := last4 (normalized a (field "document_number"))
    documentNumberHash := hashOf a (field "document_number") country
    dateOfBirth := orElse (field "date_of_birth") "1900-01-01"
    corroborationId }

def fetchAttestation (o : Outside) (sid : String) : Except KycError KycAttestation :=
  match waitForCorroboration sid (o.polls sid) with
  | none =>
    .error (.corroborationTimeout s!"No verified webhook delivery for Didit session {sid} within {a.pollTimeoutSecs}s")
  | some (corroborationId, status) =>
    if status ≠ "Approved" then
      .error (.http "Didit verification is not approved")
    else
      match o.decision sid with
      | .error e => .error e
      | .ok decision =>
        if isApproved decision = false then
          .error (.http "Didit decision is not approved")
        else if hasOneDocument decision = false then
          .error (.http "Didit decision must contain one complete approved identity document")
        else
          .ok (buildAttestation a decision (some corroborationId))

/-! ## What an attestation is bound to -/

/-- The row that is cited is an approved one of the session. -/
def CitesRow (o : Outside) (sid : String) (att : KycAttestation) : Prop :=
  ∃ rows, some rows ∈ o.polls sid ∧ ∃ row ∈ rows, row.isFor sid = true ∧ row.decisionStatus = "Approved" ∧
    att.corroborationId = some row.id

/-- The document's fields are those of the decision's one approved document. -/
def TakesDocument (o : Outside) (sid : String) (att : KycAttestation) : Prop :=
  ∃ decision doc, o.decision sid = .ok decision ∧ approvedDocuments decision = [doc] ∧
    att.documentCountry = strOf doc "issuing_state" ∧ att.dateOfBirth = strOf doc "date_of_birth" ∧
    att.documentNumberLast4 = last4 (normalized a (strOf doc "document_number")) ∧
    att.documentNumberHash = hashOf a (strOf doc "document_number") (strOf doc "issuing_state") ∧
    att.documentType = documentTypeOf (orElse (a.toLowercase (strOf doc "document_type")) "identity card")

structure Bound (o : Outside) (sid : String) (att : KycAttestation) : Prop where
  row : CitesRow o sid att
  reference : att.providerReference = sid
  document : TakesDocument a o sid att

/-- Where the row is approved, a decision that passes the checks names the session itself. -/
def NamesSession (o : Outside) (sid : String) : Prop :=
  (waitForCorroboration sid (o.polls sid)).any (·.2 = "Approved") = true →
    ∀ decision, o.decision sid = .ok decision → isApproved decision = true → hasOneDocument decision = true →
      strOf decision "session_id" = sid

end

/-! ## The two selections of the document -/

theorem find_of_filter {α : Type*} {p : α → Bool} {xs : List α} {x : α} (h : xs.filter p = [x]) : xs.find? p = some x := by
  rw [← List.head?_filter, h]
  rfl

theorem approved_array {decision doc : Json} (h : approvedDocuments decision = [doc]) : identityOf decision = some doc := by
  unfold approvedDocuments idVerifications at h
  unfold identityOf
  cases harr : (decision.get "id_verifications").bind Json.asArray with
  | none =>
    rw [harr] at h
    cases h
  | some items =>
    rw [harr, Option.getD_some] at h
    rw [Option.bind_some, find_of_filter h, Option.some_or]

theorem hasOneDocument_eq {decision : Json} (h : hasOneDocument decision = true) :
    ∃ doc, approvedDocuments decision = [doc] ∧ ∀ key ∈ requiredFields, strOf doc key ≠ "" := by
  unfold hasOneDocument at h
  split at h
  · rename_i doc hdoc
    refine ⟨doc, hdoc, fun key hkey => ?_⟩
    have hany := List.all_eq_true.mp h key hkey
    obtain ⟨s, hs, hblank⟩ := (Option.any_eq_true ..).mp hany
    unfold strOf
    rw [hs, Option.getD_some]
    rintro rfl
    simp [isBlank, Text.trim] at hblank
  · cases h

theorem orElse_of_ne {s : String} (h : s ≠ "") (fallback : String) : orElse s fallback = s := if_neg h

/-! ## The rows -/

theorem waitForCorroboration_eq {sid : String} {polls : List (Option (List Corroboration))} {id status : String}
    (h : waitForCorroboration sid polls = some (id, status)) :
    ∃ rows, some rows ∈ polls ∧ ∃ row ∈ rows, row.isFor sid = true ∧ row.decisionStatus = status ∧ row.id = id := by
  unfold waitForCorroboration at h
  obtain ⟨poll, hpoll, hfound⟩ := List.exists_of_findSome?_eq_some h
  obtain ⟨rows, rfl, hrows⟩ := Option.bind_eq_some_iff.mp hfound
  unfold pollCorroboration at hrows
  obtain ⟨row, hrow, hfinal⟩ := Option.bind_eq_some_iff.mp hrows
  split at hfinal
  · obtain ⟨rfl, rfl⟩ := Prod.mk.inj (Option.some.inj hfinal)
    exact ⟨rows, hpoll, row, List.mem_of_find?_eq_some hrow, List.find?_some hrow, rfl, rfl⟩
  · cases hfinal

theorem fetchAttestation_eq_ok {a : DiditKycAdapter} {o : Outside} {sid : String} {att : KycAttestation} :
    fetchAttestation a o sid = .ok att ↔
      ∃ id decision, waitForCorroboration sid (o.polls sid) = some (id, "Approved") ∧ o.decision sid = .ok decision ∧
        isApproved decision = true ∧ hasOneDocument decision = true ∧ buildAttestation a decision (some id) = att := by
  unfold fetchAttestation
  constructor
  · intro h
    split at h
    · cases h
    · rename_i id status hwait
      split at h
      · cases h
      · rename_i hstatus
        rw [not_not] at hstatus
        subst hstatus
        split at h
        · cases h
        · rename_i decision hdecision
          split at h
          · cases h
          · rename_i happroved
            split at h
            · cases h
            · rename_i hdoc
              exact ⟨id, decision, hwait, hdecision, by simpa using happroved, by simpa using hdoc, Except.ok.inj h⟩
  · rintro ⟨id, decision, hwait, hdecision, happroved, hdoc, rfl⟩
    simp [hwait, hdecision, happroved, hdoc]

/-! ## The binding -/

section
variable {a : DiditKycAdapter} {o : Outside} {sid : String} {att : KycAttestation}

theorem fetchAttestation_citesRow (h : fetchAttestation a o sid = .ok att) : CitesRow o sid att := by
  obtain ⟨id, decision, hwait, -, -, -, rfl⟩ := fetchAttestation_eq_ok.mp h
  obtain ⟨rows, hrows, row, hrow, hfor, hstatus, hid⟩ := waitForCorroboration_eq hwait
  exact ⟨rows, hrows, row, hrow, hfor, hstatus, congrArg some hid.symm⟩

/-- Both selections give the one approved document, and none of the fallbacks is taken. -/
theorem fetchAttestation_takesDocument (h : fetchAttestation a o sid = .ok att) : TakesDocument a o sid att := by
  obtain ⟨id, decision, -, hdecision, -, hdoc, rfl⟩ := fetchAttestation_eq_ok.mp h
  obtain ⟨doc, hone, hfields⟩ := hasOneDocument_eq hdoc
  have hfield : ∀ key, ((identityOf decision).map (strOf · key)).getD "" = strOf doc key := by
    intro key
    rw [approved_array hone, Option.map_some, Option.getD_some]
  refine ⟨decision, doc, hdecision, hone, ?_⟩
  unfold buildAttestation
  simp only [hfield, orElse_of_ne (hfields "issuing_state" (by decide)), orElse_of_ne (hfields "date_of_birth" (by decide)),
    and_self]

theorem bound_iff : (∀ att, fetchAttestation a o sid = .ok att → Bound a o sid att) ↔ NamesSession o sid := by
  constructor
  · intro h hwait decision hdecision happroved hdoc
    obtain ⟨⟨id, status⟩, hsome, hstatus⟩ := (Option.any_eq_true ..).mp hwait
    obtain rfl : status = "Approved" := of_decide_eq_true hstatus
    exact (h _ (fetchAttestation_eq_ok.mpr ⟨id, decision, hsome, hdecision, happroved, hdoc, rfl⟩)).reference
  · intro h att hatt
    obtain ⟨id, decision, hwait, hdecision, happroved, hdoc, rfl⟩ := fetchAttestation_eq_ok.mp hatt
    refine ⟨fetchAttestation_citesRow hatt, ?_, fetchAttestation_takesDocument hatt⟩
    apply h ?_ decision hdecision happroved hdoc
    rw [hwait]
    rfl

end

/-- Every attestation for a session is bound to it exactly when each decision that is accepted for it names it. Then two
sessions have two references. -/
theorem attestation_bound_iff (a : DiditKycAdapter) (o : Outside) :
    (∀ sid, (∀ att, fetchAttestation a o sid = .ok att → Bound a o sid att) ↔ NamesSession o sid) ∧
      ∀ s t, s ≠ t → NamesSession o s → NamesSession o t →
        ∀ att att', fetchAttestation a o s = .ok att → fetchAttestation a o t = .ok att' →
          att.providerReference ≠ att'.providerReference := by
  refine ⟨fun sid => bound_iff, ?_⟩
  intro s t hne hs ht att att' hatt hatt' heq
  have hleft := (bound_iff.mpr hs att hatt).reference
  have hright := (bound_iff.mpr ht att' hatt').reference
  exact hne (hleft.symm.trans (heq.trans hright))

/-! ## The decision of another session -/

def sampleAdapter : DiditKycAdapter where
  pollTimeoutSecs := 10
  toUppercase := id
  toLowercase := id
  sha256 := sampleHmac []

def sampleDocument : Json :=
  .obj [("status", .str "Approved"), ("document_number", .str "S1234567D"), ("issuing_state", .str "SGP"),
    ("date_of_birth", .str "1990-01-01"), ("document_type", .str "passport")]

/-- Both sessions are approved, and the endpoint replies with the decision of `s-2` for either. -/
def sampleOutside : Outside where
  polls := fun _ =>
    [some [⟨"row-1", providerDidit, "s-1", "e-1", "Approved", "", 0⟩, ⟨"row-2", providerDidit, "s-2", "e-2", "Approved", "", 0⟩]]
  decision := fun _ =>
    .ok (.obj [("session_id", .str "s-2"), ("status", .str "Approved"), ("id_verifications", .arr [sampleDocument])])

def referenceOf (sid : String) : Option String := (fetchAttestation sampleAdapter sampleOutside sid).toOption.map (·.providerReference)

theorem attestation_of_another_session : referenceOf "s-1" = some "s-2" ∧ referenceOf "s-2" = some "s-2" := by
  decide +kernel

end BssCli.Kyc

/-!
# The hash of a document

`document_number_hash` is the hash of the normalized number, the state and the provider, joined by `|`.
-/

namespace BssCli.Kyc

/-! ## Two texts joined by a separator -/

/-- The first text of `q` goes on with a separator where that of `p` ends, so the separators stand for each other. -/
def Shifted {α : Type*} (x : α) (p q : List α × List α) : Prop := ∃ m, q.1 = p.1 ++ x :: m ∧ p.2 = m ++ x :: q.2

theorem Shifted.mem {α : Type*} {x : α} {p q : List α × List α} (h : Shifted x p q) : x ∈ q.1 := by
  obtain ⟨m, hq, -⟩ := h
  rw [hq]
  simp

theorem Shifted.ne {α : Type*} {x : α} {p q : List α × List α} (h : Shifted x p q) : p ≠ q := by
  obtain ⟨m, hq, -⟩ := h
  rintro rfl
  have hlen := congrArg List.length hq
  simp at hlen

theorem joined_eq_iff {α : Type*} {x : α} {p q : List α × List α} :
    p.1 ++ x :: p.2 = q.1 ++ x :: q.2 ↔ p = q ∨ Shifted x p q ∨ Shifted x q p := by
  have hcons : ∀ {rest a b : List α}, x :: a = rest ++ x :: b ↔ (rest = [] ∧ a = b) ∨ ∃ m, rest = x :: m ∧ a = m ++ x :: b := by
    intro rest a b
    cases rest with
    | nil => simp
    | cons y rest => simp [eq_comm, and_comm]
  rw [List.append_eq_append_iff]
  constructor
  · rintro (⟨rest, hq, htail⟩ | ⟨rest, hp, htail⟩)
    · rcases hcons.mp htail with ⟨rfl, heq⟩ | ⟨m, rfl, heq⟩
      · exact Or.inl (Prod.ext (by rw [hq, List.append_nil]) heq)
      · exact Or.inr (Or.inl ⟨m, hq, heq⟩)
    · rcases hcons.mp htail with ⟨rfl, heq⟩ | ⟨m, rfl, heq⟩
      · exact Or.inl (Prod.ext (by rw [hp, List.append_nil]) heq.symm)
      · exact Or.inr (Or.inr ⟨m, hp, heq⟩)
  · rintro (rfl | ⟨m, hq, hp⟩ | ⟨m, hp, hq⟩)
    · exact Or.inl ⟨[], by simp, rfl⟩
    · exact Or.inl ⟨x :: m, hq, hcons.mpr (Or.inr ⟨m, rfl, hp⟩)⟩
    · exact Or.inr ⟨x :: m, hp, hcons.mpr (Or.inr ⟨m, rfl, hq⟩)⟩

/-! ## The document -/

section
variable (a : DiditKycAdapter)

def fieldOf (decision : Json) (key : String) : String := ((identityOf decision).map (strOf · key)).getD ""

/-- The number, upper-cased and trimmed, and the state, `SGP` where it is empty. -/
def documentOf (decision : Json) : List Char × List Char :=
  (normalized a (fieldOf decision "document_number"), (orElse (fieldOf decision "issuing_state") "SGP").toList)

/-- What is hashed. -/
def hashedText (decision : Json) : List Char :=
  (documentOf a decision).1 ++ '|' :: (documentOf a decision).2 ++ "|".toList ++ providerDidit.toList

theorem documentNumberHash_eq (decision : Json) (cid : Option String) :
    (buildAttestation a decision cid).documentNumberHash = sha256Hex a (hashedText a decision) := by
  show hashOf a _ _ = _
  unfold hashOf hashedText documentOf fieldOf
  simp

theorem hashedText_eq_iff (d d' : Json) :
    hashedText a d = hashedText a d' ↔
      documentOf a d = documentOf a d' ∨ Shifted '|' (documentOf a d) (documentOf a d') ∨
        Shifted '|' (documentOf a d') (documentOf a d) := by
  unfold hashedText
  rw [List.append_cancel_right_eq, List.append_cancel_right_eq, joined_eq_iff]

/-- SHA-256 tells the two texts apart. -/
def NoCollision (d d' : Json) : Prop :=
  a.sha256 (Text.utf8 (hashedText a d)) = a.sha256 (Text.utf8 (hashedText a d')) →
    Text.utf8 (hashedText a d) = Text.utf8 (hashedText a d')

variable {a}

theorem sha256Hex_eq_iff {d d' : Json} (hsha : NoCollision a d d') :
    sha256Hex a (hashedText a d) = sha256Hex a (hashedText a d') ↔ hashedText a d = hashedText a d' := by
  unfold sha256Hex
  constructor
  · intro h
    exact Utf8.utf8_injective (hsha (Text.hexLower_injective h))
  · intro h
    rw [h]

/-- The hashes of two decisions are equal exactly when their documents are, save where a number goes on with `|` past the other one
and the states make up for it. -/
theorem document_hash_exact_iff {d d' : Json} (hsha : NoCollision a d d') (cid cid' : Option String) :
    ((buildAttestation a d cid).documentNumberHash = (buildAttestation a d' cid').documentNumberHash ↔
        documentOf a d = documentOf a d') ↔
      ¬ (Shifted '|' (documentOf a d) (documentOf a d') ∨ Shifted '|' (documentOf a d') (documentOf a d)) := by
  rw [documentNumberHash_eq, documentNumberHash_eq, sha256Hex_eq_iff hsha, hashedText_eq_iff]
  constructor
  · intro h hshifted
    have heq := h.mp (Or.inr hshifted)
    rcases hshifted with hshifted | hshifted
    · exact hshifted.ne heq
    · exact hshifted.ne heq.symm
  · intro h
    constructor
    · rintro (heq | hshifted)
      · exact heq
      · exact absurd hshifted h
    · exact Or.inl

end

/-! ## Two documents -/

def decisionOn (number state : String) : Json :=
  .obj [("id_verifications",
    .arr [.obj [("status", .str "Approved"), ("document_number", .str number), ("issuing_state", .str state)]])]

/-- The letter case of ASCII, and the digests of three texts. -/
def digestAdapter : DiditKycAdapter where
  pollTimeoutSecs := 10
  toUppercase := List.map Char.toUpper
  toLowercase := id
  sha256 := fun text =>
    if text = Text.utf8 "S1234567D|SGP|didit".toList then
      [103, 228, 50, 40, 38, 168, 136, 151, 240, 191, 165, 47, 117, 237, 65, 188, 174, 14, 23, 210, 241, 235, 135, 205, 137, 48, 25, 109,
        186, 219, 101, 104]
    else if text = Text.utf8 "S7654321D|SGP|didit".toList then
      [247, 213, 255, 3, 51, 73, 130, 54, 150, 239, 167, 78, 67, 116, 200, 116, 132, 52, 133, 124, 223, 41, 87, 141, 54, 193, 101, 245,
        48, 84, 176, 203]
    else if text = Text.utf8 "E1234567|P|SGP|didit".toList then
      [18, 253, 192, 110, 162, 149, 45, 13, 91, 248, 34, 137, 82, 112, 62, 89, 128, 47, 99, 175, 96, 74, 145, 138, 232, 100, 145, 16,
        183, 176, 243, 235]
    else []

theorem document_hash_two_numbers :
    (buildAttestation digestAdapter (decisionOn " s1234567d" "") none).documentNumberHash ≠
      (buildAttestation digestAdapter (decisionOn "S7654321D" "SGP") none).documentNumberHash := by
  have hsha : NoCollision digestAdapter (decisionOn " s1234567d" "") (decisionOn "S7654321D" "SGP") := by
    unfold NoCollision
    decide +kernel
  have hplain : ¬ (Shifted '|' (documentOf digestAdapter (decisionOn " s1234567d" ""))
      (documentOf digestAdapter (decisionOn "S7654321D" "SGP")) ∨
      Shifted '|' (documentOf digestAdapter (decisionOn "S7654321D" "SGP")) (documentOf digestAdapter (decisionOn " s1234567d" ""))) := by
    rintro (hshifted | hshifted)
    · exact absurd hshifted.mem (by decide +kernel)
    · exact absurd hshifted.mem (by decide +kernel)
  intro heq
  exact absurd (((document_hash_exact_iff hsha none none).mpr hplain).mp heq) (by decide +kernel)

/-- Two documents with one hash. -/
theorem document_hash_collides :
    (buildAttestation digestAdapter (decisionOn "E1234567" "P|SGP") none).documentNumberHash =
        (buildAttestation digestAdapter (decisionOn "E1234567|P" "SGP") none).documentNumberHash ∧
      documentOf digestAdapter (decisionOn "E1234567" "P|SGP") ≠ documentOf digestAdapter (decisionOn "E1234567|P" "SGP") := by
  decide +kernel

end BssCli.Kyc
