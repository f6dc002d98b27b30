import BssCli.Crm.Attest

/-!
# Verified customers and their documents

Calls, webhooks and the clock in any order. A customer becomes verified only by a call that
passed the check when it was made. A document belongs to one customer at a time.
-/

namespace BssCli.Crm.Attest

open Steps
open Utf8 Webhooks

def Verified (db : KycDb) (customerId : String) : Prop :=
  ∃ r ∈ db.customers.rows, r.id = customerId ∧ r.kycStatus = "verified"

section

variable (env : Env)

def Call.record (call : Call) : Option String := call.corroborationId.bind fun c => (env.parseUuid c).toOption

/-- A fresh decision of Didit. From any other provider the environment lets it in. -/
def Passes (db : KycDb) (now : Time) (call : Call) : Prop :=
  (call.provider = providerDidit ∧ ∃ row ∈ db.corroborations, call.record env = some row.id ∧
      row.provider = providerDidit ∧ row.decisionStatus = "Approved" ∧ age now row ≤ 1800) ∨
    (call.provider ≠ providerDidit ∧ allowPrebaked env ∧ (call.attestationPayload.get "signature").isSome)

/-- The row is what the call says. -/
structure Identity.Of (call : Call) (r : Identity) : Prop where
  customer : r.customerId = call.customerId
  provider : r.verifiedBy = call.provider
  record : r.corroborationId = call.record env
  document : ∃ last4, reduceDocument env call = some (.ok (last4, r.documentNumberHash)) ∧
    r.documentType = call.documentType ∧ r.tenantId = call.tenant

/-- At one moment of the run the call was made and passed. -/
def Asked (start : World) (ls : List Label) (call : Call) : Prop :=
  ∃ before after w, ls = before ++ .ask call :: after ∧ exec (step env) start before = some w ∧
    Passes env w.db w.now call

/-- Four bytes from the end a character starts. -/
def Reducible (call : Call) : Prop :=
  (call.documentNumberLast4.isSome ∧ call.documentNumberHash.isSome) ∨
    ∀ raw ∈ call.documentNumber, (Text.utf8 (normalized env raw)).length < 4 ∨
      ∃ front back, normalized env raw = front ++ back ∧ (Text.utf8 back).length = 4

variable {env} {call : Call} {db db' : KycDb} {now : Time} {p : Pending}

/-! ## The checks -/

theorem checkCorroboration_ok {cid : String} (h : checkCorroboration db now cid = .ok ()) :
    ∃ row ∈ db.corroborations, row.id = cid ∧ row.provider = providerDidit ∧ row.decisionStatus = "Approved" ∧
      age now row ≤ 1800 := by
  unfold checkCorroboration at h
  split at h
  · cases h
  · rename_i row hfind
    have hrow : row.id = cid ∧ row.provider = providerDidit := by simpa using List.find?_some hfind
    split_ifs at h with hstatus hage
    exact ⟨row, List.mem_of_find?_eq_some hfind, hrow.1, hrow.2, not_not.mp hstatus, not_lt.mp hage⟩

theorem checkAttestationSignature_ok (h : checkAttestationSignature env call db now = .ok ()) :
    Passes env db now call := by
  unfold checkAttestationSignature at h
  split_ifs at h with hdidit hallowed hsigned
  · left
    refine ⟨hdidit, ?_⟩
    split at h
    · cases h
    · rename_i c hc
      split at h
      · cases h
      · rename_i cid hcid
        obtain ⟨row, hrow, rfl, hrest⟩ := checkCorroboration_ok h
        refine ⟨row, hrow, ?_, hrest⟩
        rw [Call.record, hc, Option.bind_some, hcid]
        rfl
  · right
    refine ⟨hdidit, by simpa using hallowed, ?_⟩
    rwa [Option.isSome_iff_ne_none, ne_eq, ← Option.isNone_iff_eq_none]

theorem parseCorroboration_ok {id : Option String} (h : parseCorroboration env call = .ok id) : id = call.record env := by
  unfold parseCorroboration at h
  unfold Call.record
  split at h
  · rename_i hc
    rw [hc]
    exact (Except.ok.inj h).symm
  · rename_i c hc
    rw [hc, Option.bind_some]
    cases hparse : env.parseUuid c with
    | error e =>
      rw [hparse] at h
      cases h
    | ok cid =>
      rw [hparse] at h
      exact (Except.ok.inj h).symm

theorem ask_ok (h : ask env call db now = some (.ok p)) :
    p.call = call ∧ Passes env db now call ∧ p.identity.Of env call := by
  obtain ⟨reduced, hreduced, hp⟩ := Option.map_eq_some_iff.mp h
  obtain ⟨⟨last4, hash⟩, rfl, hp⟩ := bind_eq_ok.mp hp
  change passChecks env call db now last4 hash = .ok p at hp
  unfold passChecks at hp
  obtain ⟨-, -, hp⟩ := bind_eq_ok.mp hp
  obtain ⟨_, hpasses, hp⟩ := bind_eq_ok.mp hp
  obtain ⟨-, -, hp⟩ := bind_eq_ok.mp hp
  obtain ⟨dateOfBirth, -, hp⟩ := bind_eq_ok.mp hp
  obtain ⟨verifiedAt, -, hp⟩ := bind_eq_ok.mp hp
  obtain ⟨id, hid, hp⟩ := bind_eq_ok.mp hp
  obtain rfl := (Except.ok.inj hp).symm
  exact ⟨rfl, checkAttestationSignature_ok hpasses, rfl, rfl, parseCorroboration_ok hid, last4, hreduced, rfl, rfl⟩

/-! ## The transaction -/

theorem insert_ok {t t' : Identities} {r : Identity} (h : t.insert r = .ok t') : t'.rows = t.rows ++ [r] := by
  unfold Identities.insert at h
  split_ifs at h
  exact (Except.ok.inj h) ▸ rfl

theorem transact_ok (h : transact env db p = .ok db') :
    db'.customers = db.customers.update p.call.customerId p.verify p.verify_id ∧
      (∃ last4, { p.identity with documentNumberLast4 := last4 } ∈ db'.identities.rows) ∧
      (allowDocReuse env = false → ∀ r ∈ db.identities.rows, r ∈ db'.identities.rows) := by
  unfold transact at h
  obtain ⟨last4, -, h⟩ := bind_eq_ok.mp h
  dsimp only at h
  obtain ⟨identities, hinsert, h⟩ := bind_eq_ok.mp h
  obtain ⟨-, -, h⟩ := bind_eq_ok.mp h
  obtain rfl := (Except.ok.inj h).symm
  have hrows := insert_ok hinsert
  refine ⟨rfl, ⟨last4, ?_⟩, fun hreuse r hr => ?_⟩
  · rw [hrows]
    exact List.mem_append_right _ (List.mem_singleton_self _)
  · rw [hrows, hreuse]
    exact List.mem_append_left _ hr

theorem verified_update {c : String} (h : db'.customers = db.customers.update p.call.customerId p.verify p.verify_id)
    (hv : Verified db' c) : Verified db c ∨ c = p.call.customerId := by
  obtain ⟨r, hr, rfl, hstatus⟩ := hv
  rw [h] at hr
  obtain ⟨r₀, hr₀, rfl⟩ := List.mem_map.mp hr
  split_ifs at hstatus ⊢ with hid
  · exact Or.inr hid
  · exact Or.inl ⟨r₀, hr₀, rfl, hstatus⟩

theorem transact_verifies (h : transact env db p = .ok db') : Verified db' p.call.customerId := by
  unfold transact at h
  obtain ⟨last4, -, h⟩ := bind_eq_ok.mp h
  dsimp only at h
  obtain ⟨identities, -, h⟩ := bind_eq_ok.mp h
  obtain ⟨_, hkeys, h⟩ := bind_eq_ok.mp h
  obtain rfl := (Except.ok.inj h).symm
  unfold foreignKeys at hkeys
  split_ifs at hkeys with hid hcustomer
  rw [Option.isNone_iff_eq_none, ← ne_eq, Option.ne_none_iff_exists'] at hcustomer
  obtain ⟨r, hfind⟩ := hcustomer
  obtain ⟨hr, hrid⟩ := db.customers.find_some hfind
  refine ⟨p.verify r, List.mem_map.mpr ⟨r, hr, if_pos hrid⟩, hrid, rfl⟩

/-! ## A call on its own -/

theorem last4Of_isSome {number front back : List Char} (h : number = front ++ back) (hlen : (Text.utf8 back).length = 4) :
    (last4Of number).isSome := by
  have hbytes : Text.utf8 number = Text.utf8 front ++ Text.utf8 back := h ▸ Text.utf8_append front back
  have hchars : ∀ cs : List Char, Text.utf8 cs = (cs.map String.utf8EncodeChar).flatten := fun cs =>
    List.flatMap_def ..
  have hwhole : ∀ b ∈ number.map String.utf8EncodeChar, Whole b := by
    intro b hb
    obtain ⟨c, -, rfl⟩ := List.mem_map.mp hb
    exact whole_utf8EncodeChar c
  have hboundary : isCharBoundary (Text.utf8 number) ((Text.utf8 number).length - 4) = true := by
    rw [hchars, boundary_iff hwhole]
    refine ⟨front.length, ?_⟩
    rw [← hchars, hbytes, List.length_append, hlen, Nat.add_sub_cancel, h, List.map_append,
      List.take_left' (List.length_map ..), ← hchars]
  unfold last4Of sliceFrom
  dsimp only
  rw [if_pos hboundary]
  split <;> rfl

theorem reduceDocument_isSome (h : Reducible env call) : (reduceDocument env call).isSome := by
  unfold reduceDocument
  split
  · rfl
  · rename_i hgiven
    split
    · rfl
    · rename_i raw hraw
      rw [Option.isSome_map]
      rcases h with ⟨hlast4, hhash⟩ | h
      · obtain ⟨l, hl⟩ := Option.isSome_iff_exists.mp hlast4
        obtain ⟨d, hd⟩ := Option.isSome_iff_exists.mp hhash
        exact absurd hd (hgiven l d hl)
      · rcases h raw hraw with hshort | ⟨front, back, hnumber, hlen⟩
        · unfold last4Of
          dsimp only
          rw [if_neg (by omega)]
          rfl
        · exact last4Of_isSome hnumber hlen

theorem attestKyc_answers (h : Reducible env call) :
    ∃ r, attestKyc env call db now = some r ∧
      ((∃ body, r.2 = .ok body ∧ Verified r.1 call.customerId) ∨ ∃ e, r.2 = .error e ∧ r.1 = db) := by
  obtain ⟨reduced, hreduced⟩ := Option.isSome_iff_exists.mp (reduceDocument_isSome h)
  unfold attestKyc
  have hsome : (ask env call db now).isSome := by
    rw [ask, hreduced]
    rfl
  obtain ⟨asked, hask⟩ := Option.isSome_iff_exists.mp hsome
  rw [hask, Option.map_some]
  refine ⟨_, rfl, ?_⟩
  cases asked with
  | error e => exact Or.inr ⟨e, rfl, rfl⟩
  | ok p =>
    obtain ⟨rfl, -⟩ := ask_ok hask
    dsimp only [transacted]
    split
    · rename_i e _
      exact Or.inr ⟨e, rfl, rfl⟩
    · rename_i db' htransact
      exact Or.inl ⟨_, rfl, transact_verifies htransact⟩

/-! ## Runs -/

variable {start w w' : World} {ls : List Label} {l : Label} {c : String}

theorem Asked.snoc (h : Asked env start ls call) (l : Label) : Asked env start (ls ++ [l]) call := by
  obtain ⟨before, after, w, rfl, hrest⟩ := h
  exact ⟨before, after ++ [l], w, by simp, hrest⟩

variable (env) in
/-- The customer is verified by a call that passed, and its document stays. -/
def VerifiedBy (start : World) (ls : List Label) (w : World) (c : String) : Prop :=
  ∃ call, Asked env start ls call ∧ call.customerId = c ∧
    (allowDocReuse env = false → ∃ r ∈ w.db.identities.rows, r.Of env call)

variable (env) in
structure Inv (start : World) (ls : List Label) (w : World) : Prop where
  pending : ∀ p ∈ w.pending, Asked env start ls p.call ∧ p.identity.Of env p.call
  verified : ∀ c, Verified w.db c → Verified start.db c ∨ VerifiedBy env start ls w c

theorem VerifiedBy.snoc (h : VerifiedBy env start ls w c) (l : Label)
    (hkept : allowDocReuse env = false → ∀ r ∈ w.db.identities.rows, r ∈ w'.db.identities.rows) :
    VerifiedBy env start (ls ++ [l]) w' c := by
  obtain ⟨call, hasked, hcustomer, hrow⟩ := h
  refine ⟨call, hasked.snoc l, hcustomer, fun hreuse => ?_⟩
  obtain ⟨r, hr, hof⟩ := hrow hreuse
  exact ⟨r, hkept hreuse r hr, hof⟩

theorem Inv.pending_snoc (hi : Inv env start ls w) (hp : p ∈ w.pending) (l : Label) :
    Asked env start (ls ++ [l]) p.call ∧ p.identity.Of env p.call := by
  obtain ⟨hasked, hof⟩ := hi.pending p hp
  exact ⟨hasked.snoc l, hof⟩

theorem Inv.verified_snoc (hi : Inv env start ls w) (hc : Verified w.db c) (l : Label)
    (hkept : allowDocReuse env = false → ∀ r ∈ w.db.identities.rows, r ∈ w'.db.identities.rows) :
    Verified start.db c ∨ VerifiedBy env start (ls ++ [l]) w' c := by
  rcases hi.verified c hc with h | h
  · exact Or.inl h
  · exact Or.inr (h.snoc l hkept)

/-- A step that verifies nobody and lets no new call through. -/
theorem Inv.keep (hi : Inv env start ls w) (hpending : ∀ p ∈ w'.pending, p ∈ w.pending)
    (hverified : ∀ c, Verified w'.db c → Verified w.db c) (hrows : w'.db.identities = w.db.identities) :
    Inv env start (ls ++ [l]) w' where
  pending p hp := hi.pending_snoc (hpending p hp) l
  verified c hc := hi.verified_snoc (hverified c hc) l fun _ _ hr => hrows ▸ hr

theorem Inv.ask (hrun : exec (step env) start ls = some w) (hi : Inv env start ls w)
    (hask : Attest.ask env call w.db w.now = some (.ok p)) :
    Inv env start (ls ++ [.ask call]) { w with pending := w.pending ++ [p] } where
  pending := by
    intro q hq
    rcases List.mem_append.mp hq with hq | hq
    · exact hi.pending_snoc hq _
    · obtain rfl := List.mem_singleton.mp hq
      obtain ⟨rfl, hpasses, hof⟩ := ask_ok hask
      exact ⟨⟨ls, [], w, rfl, hrun, hpasses⟩, hof⟩
  verified c hc := hi.verified_snoc hc _ fun _ r hr => hr

theorem Inv.commit (hi : Inv env start ls w) {i : ℕ} (hp : w.pending[i]? = some p) :
    Inv env start (ls ++ [.commit i])
      { w with db := (transacted env w.db p).1, pending := w.pending.eraseIdx i } where
  pending q hq := hi.pending_snoc (List.mem_of_mem_eraseIdx hq) _
  verified := by
    obtain ⟨hasked, hof⟩ := hi.pending_snoc (List.mem_of_getElem? hp) (.commit i)
    intro c hc
    dsimp only [transacted] at hc ⊢
    split at hc
    · exact hi.verified_snoc hc _ fun _ r hr => hr
    · rename_i db' htransact
      obtain ⟨hcustomers, ⟨last4, hrow⟩, hkept⟩ := transact_ok htransact
      rcases verified_update hcustomers hc with hold | rfl
      · exact hi.verified_snoc hold _ hkept
      · refine Or.inr ⟨p.call, hasked, rfl, fun _ => ⟨_, hrow, ?_⟩⟩
        exact ⟨hof.customer, hof.provider, hof.record, hof.document⟩

theorem verified_created {customers : CustomerTable} {id : String}
    (h : db.customers.insert (newCustomer id) = some customers) (hv : Verified { db with customers } c) :
    Verified db c := by
  obtain ⟨r, hr, hid, hstatus⟩ := hv
  dsimp only at hr
  rw [(Table.rows_insert h).1] at hr
  rcases List.mem_append.mp hr with hr | hr
  · exact ⟨r, hr, hid, hstatus⟩
  · obtain rfl := List.mem_singleton.mp hr
    exact absurd hstatus (by decide : "not_verified" ≠ "verified")

theorem Inv.step (hrun : exec (step env) start ls = some w) (hi : Inv env start ls w)
    (h : Attest.step env w l = some w') : Inv env start (ls ++ [l]) w' := by
  cases l with
  | clock now =>
    obtain rfl := Option.some.inj h
    exact hi.keep (fun _ hp => hp) (fun _ hc => hc) rfl
  | received row =>
    obtain rfl := Option.some.inj h
    exact hi.keep (fun _ hp => hp) (fun _ hc => hc) rfl
  | created id =>
    obtain ⟨customers, hinsert, rfl⟩ := Option.map_eq_some_iff.mp h
    exact hi.keep (fun _ hp => hp) (fun _ hc => verified_created hinsert hc) rfl
  | ask call =>
    unfold Attest.step at h
    dsimp only at h
    split at h
    · rename_i p hask
      obtain rfl := Option.some.inj h
      exact hi.ask hrun hask
    · obtain rfl := Option.some.inj h
      exact hi.keep (fun _ hp => hp) (fun _ hc => hc) rfl
  | commit i =>
    obtain ⟨p, hp, rfl⟩ := Option.map_eq_some_iff.mp h
    exact hi.commit hp
  | abort i =>
    obtain ⟨_, -, rfl⟩ := Option.map_eq_some_iff.mp h
    exact hi.keep (fun _ hp => List.mem_of_mem_eraseIdx hp) (fun _ hc => hc) rfl

theorem inv_run {now : Time} (h : exec (step env) ⟨db, now, []⟩ ls = some w) : Inv env ⟨db, now, []⟩ ls w :=
  exec_history (fun _ _ _ _ hrun hi hl => hi.step hrun hl) ⟨by simp, fun _ hc => Or.inl hc⟩ h

theorem verifiedBy_of_new {now : Time} (h : exec (step env) ⟨db, now, []⟩ ls = some w) (hv : Verified w.db c)
    (hnew : ¬ Verified db c) : VerifiedBy env ⟨db, now, []⟩ ls w c :=
  ((inv_run h).verified c hv).resolve_left hnew

theorem Identities.eq_of_document (t : Identities) {r s : Identity} (hr : r ∈ t.rows) (hs : s ∈ t.rows)
    (h : r.document = s.document) : r = s :=
  List.inj_on_of_nodup_map t.documents hr hs h

theorem attestKyc_exec {body : Object} (h : attestKyc env call db now = some (db', .ok body)) :
    exec (step env) ⟨db, now, []⟩ [.ask call, .commit 0] = some ⟨db', now, []⟩ := by
  obtain ⟨asked, hask, h⟩ := Option.map_eq_some_iff.mp h
  cases asked with
  | error e => simp at h
  | ok p =>
    have hstep : step env ⟨db, now, []⟩ (.ask call) = some ⟨db, now, [p]⟩ := by
      unfold Attest.step
      dsimp only
      rw [hask]
      rfl
    have hcommit : (transacted env db p).1 = db' := congrArg Prod.fst h
    refine (exec_cons ..).mpr ⟨_, hstep, (exec_cons ..).mpr ⟨_, rfl, ?_⟩⟩
    dsimp only
    rw [hcommit]
    rfl

end

/-- A customer becomes verified by a call that passed. While documents are not reused, customers that become
verified hold different ones. -/
theorem attestation_bound (env : Env) :
    (∀ db now ls w c, exec (step env) ⟨db, now, []⟩ ls = some w → Verified w.db c → ¬ Verified db c →
      VerifiedBy env ⟨db, now, []⟩ ls w c) ∧
    (∀ db now ls w, exec (step env) ⟨db, now, []⟩ ls = some w →
      ∀ r ∈ w.db.identities.rows, ∀ s ∈ w.db.identities.rows, r.document = s.document ∨ r.customerId = s.customerId → r = s) ∧
    (∀ db now ls w c d, exec (step env) ⟨db, now, []⟩ ls = some w → allowDocReuse env = false → c ≠ d →
      Verified w.db c → ¬ Verified db c → Verified w.db d → ¬ Verified db d →
      ∃ r ∈ w.db.identities.rows, ∃ s ∈ w.db.identities.rows,
        r.customerId = c ∧ s.customerId = d ∧ r.document ≠ s.document) ∧
    ∀ call db now, Reducible env call → ∃ r, attestKyc env call db now = some r ∧
      ((∃ body, r.2 = .ok body ∧ Verified r.1 call.customerId) ∨ ∃ e, r.2 = .error e ∧ r.1 = db) := by
  refine ⟨fun db now ls w c h hv hnew => verifiedBy_of_new h hv hnew, ?_, ?_, fun call db now => attestKyc_answers⟩
  · rintro db now ls w - r hr s hs (h | h)
    · exact w.db.identities.eq_of_document hr hs h
    · exact List.inj_on_of_nodup_map w.db.identities.customers hr hs h
  · intro db now ls w c d h hreuse hne hc hcnew hd hdnew
    obtain ⟨call, -, rfl, hrow⟩ := verifiedBy_of_new h hc hcnew
    obtain ⟨call', -, rfl, hrow'⟩ := verifiedBy_of_new h hd hdnew
    obtain ⟨r, hr, hof⟩ := hrow hreuse
    obtain ⟨s, hs, hof'⟩ := hrow' hreuse
    refine ⟨r, hr, s, hs, hof.customer, hof'.customer, fun hdoc => hne ?_⟩
    rw [← hof.customer, ← hof'.customer, w.db.identities.eq_of_document hr hs hdoc]

/-! ## Two runs -/

def verifies (w : World) (id : String) : Bool := w.db.customers.rows.any fun r => r.id = id ∧ r.kycStatus = "verified"

theorem verifies_iff {w : World} {id : String} : verifies w id = true ↔ Verified w.db id := by
  unfold verifies Verified
  rw [List.any_eq_true]
  simp

def sessionRecord : String := "6d2b6f9c-0b0e-4c1e-9a53-0f0b2f6f5a11"

/-- Outside of production, with nothing set. -/
def sandbox : Env where
  vars _ := none
  toUppercase cs := cs.map Char.toUpper
  toLowercase s := String.ofList (s.toList.map Char.toLower)
  sha256 bytes := bytes
  parseDate s := if s = "1990-01-01" then .ok 7305 else .error "input contains invalid characters"
  parseRfc3339 s := if s = "2026-05-02T08:00:00Z" then .ok 1777708800000000 else .error "input contains invalid characters"
  parseUuid s := if s = sessionRecord then .ok s else .error "invalid length"

def signedUp : World where
  db := ⟨.singleton (newCustomer "CUST-1"), ⟨[], List.nodup_nil, List.nodup_nil⟩, [], [], []⟩
  now := 1777708800000000
  pending := []

/-- The hash is given, as the portal gives it. -/
def prebaked : Call where
  tenant := "DEFAULT"
  customerId := "CUST-1"
  provider := "prebaked"
  providerReference := "prebaked-1"
  documentType := "nric"
  documentNumber := none
  documentNumberLast4 := some "567D"
  documentNumberHash := some "9f86d081884c7d65"
  documentCountry := "SGP"
  dateOfBirth := "1990-01-01"
  nationality := none
  verifiedAt := "2026-05-02T08:00:00Z"
  attestationPayload := .obj [("signature", .str "prebaked")]
  corroborationId := none

def approved : Corroboration := ⟨sessionRecord, providerDidit, "session-1", "event-1", "Approved", "digest", 1777708200⟩

def viaDidit : Call :=
  { prebaked with
    provider := providerDidit
    providerReference := "session-1"
    corroborationId := some sessionRecord }

theorem attestation_bound_didit :
    ∃ w, exec (step sandbox) signedUp [.received approved, .ask viaDidit, .commit 0] = some w ∧
    VerifiedBy sandbox signedUp [.received approved, .ask viaDidit, .commit 0] w "CUST-1" := by
  have hrun : (exec (step sandbox) signedUp [.received approved, .ask viaDidit, .commit 0]).any
      (fun w => verifies w "CUST-1") = true := by
    decide +kernel
  obtain ⟨w, hw, hv⟩ := (Option.any_eq_true ..).mp hrun
  have hnew : ¬ Verified signedUp.db "CUST-1" := by
    rw [← verifies_iff (w := signedUp)]
    decide +kernel
  exact ⟨w, hw, (attestation_bound sandbox).1 _ _ _ w _ hw (verifies_iff.mp hv) hnew⟩

/-- Where the environment allows it, no record stands behind a verified customer. -/
theorem verified_without_record :
    ∃ w, exec (step sandbox) signedUp [.ask prebaked, .commit 0] = some w ∧
    w.db.corroborations = [] ∧ Verified w.db "CUST-1" ∧ ¬ Verified signedUp.db "CUST-1" := by
  have hrun : (exec (step sandbox) signedUp [.ask prebaked, .commit 0]).any
      (fun w => w.db.corroborations.isEmpty && verifies w "CUST-1") = true := by
    decide +kernel
  obtain ⟨w, hw, h⟩ := (Option.any_eq_true ..).mp hrun
  obtain ⟨hempty, hv⟩ := (Bool.and_eq_true ..).mp h
  have hnew : ¬ Verified signedUp.db "CUST-1" := by
    rw [← verifies_iff (w := signedUp)]
    decide +kernel
  exact ⟨w, hw, List.isEmpty_iff.mp hempty, verifies_iff.mp hv, hnew⟩

end BssCli.Crm.Attest
