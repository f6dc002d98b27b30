import BssCli.Catalog.Creation

/-!
# Promotions that are resumed

A call that finds a pending row goes on with the terms of that row. When they are its own, and
loyalty holds under its keys what it asks for itself, an answer `Ok` is for the terms that were
asked for.
-/

namespace BssCli.Catalog.Promo

open Money Keyed Steps
open Subscription (numeric12)

/-- The terms of a request, in the columns of the row. -/
def PromotionRow.SameTerms (r : PromotionRow) (req : CreatePromotion) : Prop :=
  r.discountType = req.discountType ∧ r.discountValue = req.discountValue ∧ r.durationKind = req.durationKind ∧
    r.periodsTotal = req.periodsTotal ∧ r.applicableOfferingIds = req.applicableOfferingIds ∧ r.code = req.code

instance (r : PromotionRow) (req : CreatePromotion) : Decidable (r.SameTerms req) :=
  inferInstanceAs (Decidable (_ ∧ _))

/-- The row of the promotion, with its terms. -/
def PromotionRow.Holds (r : PromotionRow) (req : CreatePromotion) : Prop := r.id = req.promotionId ∧ r.SameTerms req

def PromotionRow.Carries (r : PromotionRow) (req : CreatePromotion) : Prop :=
  r.Holds req ∧ r.offerDefinitionId = some (offerDefinitionIdFor req.promotionId)

section Results

variable {σ : Type} (R : Registry σ)

/-- The offer and its code are registered as the request has them. -/
def Registered (s : σ) (req : CreatePromotion) : Prop :=
  R.Has s (definitionOf req) ∧ ∀ code ∈ req.code, R.Has s (codeOf req code)

/-- What an answer `Ok` is worth: the row that it returns, the row that is stored and the offer in
loyalty all have the terms of the request. -/
def Faithful (w : World σ) (req : CreatePromotion) (row : PromotionRow) : Prop :=
  row.Carries req ∧ (∃ r ∈ w.promotions.find req.promotionId, r.Carries req) ∧ Registered R w.loyalty req

def FindsOwn (w : World σ) (req : CreatePromotion) : Phase → Prop
  | .reading => ∀ r ∈ w.promotions.find req.promotionId, r.state = .pendingLink → r.SameTerms req
  | .inserting => TwoPlaces req.discountValue
  | .defining => R.replied w.loyalty (definitionKey req) ≠ none → R.Has w.loyalty (definitionOf req)
  | .coding => ∀ code ∈ req.code, R.replied w.loyalty (codeKey req) ≠ none → R.Has w.loyalty (codeOf req code)
  | .checking | .confirming | .readingBack => True

instance (w : World σ) (req : CreatePromotion) : (phase : Phase) → Decidable (FindsOwn R w req phase)
  | .reading => inferInstanceAs (Decidable (∀ r ∈ _, _ → _))
  | .inserting => inferInstanceAs (Decidable (TwoPlaces _))
  | .defining => inferInstanceAs (Decidable (_ ≠ none → _))
  | .coding => inferInstanceAs (Decidable (∀ code ∈ _, _ ≠ none → _))
  | .checking | .confirming | .readingBack => inferInstanceAs (Decidable True)

/-- A pending row that a call finds has the call's terms, a value fits its column, and what
loyalty has replied to before is what is asked for now. -/
def ResumesOwn (w : World σ) : Label → Prop
  | .run i _ => ∀ f ∈ w.flights[i]?, FindsOwn R w f.req f.phase
  | _ => True

instance (w : World σ) : (l : Label) → Decidable (ResumesOwn R w l)
  | .run .. => inferInstanceAs (Decidable (∀ f ∈ _, FindsOwn R w _ _))
  | .create .. | .drop _ | .exhaust _ | .elsewhere .. => inferInstanceAs (Decidable True)

/-! ## What only grows -/

structure Grows (w w' : World σ) : Prop where
  holds : ∀ req, (∃ r ∈ w.promotions.find req.promotionId, r.Holds req) →
    ∃ r ∈ w'.promotions.find req.promotionId, r.Holds req
  carries : ∀ req, (∃ r ∈ w.promotions.find req.promotionId, r.Carries req) →
    ∃ r ∈ w'.promotions.find req.promotionId, r.Carries req
  has : ∀ c, R.Has w.loyalty c → R.Has w'.loyalty c

variable {R}

theorem Grows.refl (w : World σ) : Grows R w w := ⟨fun _ h => h, fun _ h => h, fun _ h => h⟩

theorem Grows.registered {w w' : World σ} (h : Grows R w w') {req : CreatePromotion} (hr : Registered R w.loyalty req) :
    Registered R w'.loyalty req := ⟨h.has _ hr.1, fun code hcode => h.has _ (hr.2 code hcode)⟩

theorem Grows.faithful {w w' : World σ} (h : Grows R w w') {req : CreatePromotion} {row : PromotionRow}
    (hf : Faithful R w req row) : Faithful R w' req row := ⟨hf.1, h.carries req hf.2.1, h.registered hf.2.2⟩

theorem insertPromotion_eq_ok {row : PromotionRow} {t t' : Promotions} (h : insertPromotion row t = .ok t') :
    ∃ discountValue, numeric12 row.discountValue = .ok discountValue ∧ t.insert { row with discountValue } = some t' := by
  unfold insertPromotion at h
  obtain ⟨discountValue, hvalue, h⟩ := bind_eq_ok.mp h
  split at h
  · cases h
  · split at h
    · rename_i hinsert
      cases h
      exact ⟨discountValue, hvalue, hinsert⟩
    · cases h

theorem grows_insert {w : World σ} {row : PromotionRow} {promotions : Promotions}
    (h : insertPromotion row w.promotions = .ok promotions) : Grows R w { w with promotions } := by
  obtain ⟨_, -, hinsert⟩ := insertPromotion_eq_ok h
  exact ⟨fun _ => Table.exists_find_insert hinsert, fun _ => Table.exists_find_insert hinsert, fun _ h => h⟩

theorem confirm_carries {r : PromotionRow} {req : CreatePromotion} (h : r.Holds req) : r.confirm.Carries req :=
  ⟨h, congrArg (fun id => some (offerDefinitionIdFor id)) h.1⟩

theorem grows_confirm (w : World σ) (id : String) : Grows R w (w.confirm id) :=
  ⟨fun _ => w.promotions.exists_find_update id _ confirm_id fun _ h => h,
    fun _ => w.promotions.exists_find_update id _ confirm_id fun _ h => confirm_carries h.1, fun _ h => h⟩

theorem grows_exhaust (w : World σ) (id : String) :
    Grows R w { w with promotions := w.promotions.update id PromotionRow.exhaust exhaust_id } :=
  ⟨fun _ => w.promotions.exists_find_update id _ exhaust_id fun _ h => h,
    fun _ => w.promotions.exists_find_update id _ exhaust_id fun _ h => h, fun _ h => h⟩

theorem has_send (hR : R.Lawful) {reach : Reach} {e : ClientError} {k : String} {c c' : Registration} {s : σ}
    (h : R.Has s c') : R.Has (R.send reach e k c s).1 c' := by
  rw [Service.send_fst]
  split
  · exact hR.keeps h
  · exact h

/-- A registration that is granted is there, under a new key or under one that it had before. -/
theorem has_of_granted (hR : R.Lawful) {reach : Reach} {e : ClientError} {k : String} {c : Registration} {s : σ}
    (hown : R.replied s k ≠ none → R.Has s c) (h : (R.send reach e k c s).2 = .ok ()) :
    R.Has (R.send reach e k c s).1 c := by
  by_cases hnew : R.replied s k = none
  · rw [Service.send_snd] at h
    split at h
    · rename_i hreach
      rw [Service.send_fst, hreach, if_pos (show Reach.answered.arrives = true from rfl)]
      exact hR.registers hnew h
    · cases h
  · exact has_send hR (hown hnew)

/-! ## How far a call has come -/

variable (R) in
/-- What a call has made sure of before it does the next thing. -/
def Reached (w : World σ) (req : CreatePromotion) : Phase → Prop
  | .reading | .checking | .inserting => True
  | .defining => ∃ r ∈ w.promotions.find req.promotionId, r.Holds req
  | .coding => (∃ r ∈ w.promotions.find req.promotionId, r.Holds req) ∧ R.Has w.loyalty (definitionOf req)
  | .confirming => (∃ r ∈ w.promotions.find req.promotionId, r.Holds req) ∧ Registered R w.loyalty req
  | .readingBack => (∃ r ∈ w.promotions.find req.promotionId, r.Carries req) ∧ Registered R w.loyalty req

theorem Grows.reached {w w' : World σ} (h : Grows R w w') {req : CreatePromotion} {phase : Phase}
    (hr : Reached R w req phase) : Reached R w' req phase := by
  cases phase with
  | reading => trivial
  | checking => trivial
  | inserting => trivial
  | defining => exact h.holds req hr
  | coding => exact ⟨h.holds req hr.1, h.has _ hr.2⟩
  | confirming => exact ⟨h.holds req hr.1, h.registered hr.2⟩
  | readingBack => exact ⟨h.carries req hr.1, h.registered hr.2⟩

variable (R) in
structure Inv (w : World σ) : Prop where
  flights : ∀ f ∈ w.flights, Reached R w f.req f.phase
  answers : ∀ a ∈ w.answers, ∀ row, a.2 = .ok row → Faithful R w a.1 row

theorem idle_inv (promotions : Promotions) (loyalty : σ) : Inv R ⟨promotions, loyalty, [], []⟩ :=
  ⟨by simp, by simp⟩

theorem Inv.grows {w w' : World σ} (hi : Inv R w) (h : Grows R w w') (hflights : w'.flights = w.flights)
    (hanswers : w'.answers = w.answers) : Inv R w' := by
  refine ⟨fun f hf => ?_, fun a ha row hrow => ?_⟩
  · rw [hflights] at hf
    exact h.reached (hi.flights f hf)
  · rw [hanswers] at ha
    exact h.faithful (hi.answers a ha row hrow)

theorem Inv.goes {w : World σ} (hi : Inv R w) (i : ℕ) {f : Flight} {phase : Phase} (h : Reached R w f.req phase) :
    Inv R (w.goes i f phase) :=
  ⟨Pool.forall_set (P := fun g : Flight => Reached R w g.req g.phase) hi.flights h, hi.answers⟩

theorem Inv.ends {w : World σ} (hi : Inv R w) (i : ℕ) : Inv R (w.ends i) :=
  ⟨Pool.forall_eraseIdx (P := fun g : Flight => Reached R w g.req g.phase) hi.flights, hi.answers⟩

theorem Inv.replies {w : World σ} (hi : Inv R w) (i : ℕ) {req : CreatePromotion} {r : Except ApiError PromotionRow}
    (h : ∀ row, r = .ok row → Faithful R w req row) : Inv R (w.replies i req r) :=
  ⟨(hi.ends i).flights,
    Pool.forall_concat
      (P := fun a : CreatePromotion × Except ApiError PromotionRow => ∀ row, a.2 = .ok row → Faithful R w a.1 row)
      hi.answers h⟩

theorem Inv.refuses {w : World σ} (hi : Inv R w) (i : ℕ) {req : CreatePromotion} {e : ApiError} :
    Inv R (w.replies i req (.error e)) := by
  refine hi.replies i fun row hrow => ?_
  cases hrow

theorem grows_send (hR : R.Lawful) (w : World σ) (reach : Reach) (e : ClientError) (k : String) (c : Registration) :
    Grows R w { w with loyalty := (R.send reach e k c w.loyalty).1 } :=
  ⟨fun _ h => h, fun _ h => h, fun _ => has_send hR⟩

/-! ## What each statement of a call keeps -/

section Phases

variable {w : World σ} {i : ℕ} {d : Draw} {req : CreatePromotion} {actor : String}

theorem reading_inv (hi : Inv R w) (hown : FindsOwn R w req .reading) :
    Inv R (w.runFlight R i d ⟨req, actor, .reading⟩) := by
  simp only [World.runFlight]
  split
  · split
    · rename_i row hrow
      split
      · rename_i hpending
        exact hi.goes i ⟨row, hrow, (w.promotions.find_some hrow).2, hown row hrow hpending⟩
      · exact hi.refuses i
    · exact hi.goes i trivial
  · exact hi.refuses i

theorem checking_inv (hi : Inv R w) : Inv R (w.runFlight R i d ⟨req, actor, .checking⟩) := by
  simp only [World.runFlight]
  split
  · split
    · exact hi.refuses i
    · exact hi.goes i trivial
  · exact hi.refuses i

theorem inserting_inv (hi : Inv R w) (hown : FindsOwn R w req .inserting) :
    Inv R (w.runFlight R i d ⟨req, actor, .inserting⟩) := by
  simp only [World.runFlight]
  split
  · exact hi.refuses i
  · rename_i promotions hinsert
    split at hinsert
    · have hgrows := grows_insert (R := R) hinsert
      obtain ⟨discountValue, hvalue, hrow⟩ := insertPromotion_eq_ok hinsert
      have hsame : discountValue = req.discountValue := by
        unfold numeric12 at hvalue
        split at hvalue
        · cases hvalue
          exact hown
        · cases hvalue
      refine (hi.grows hgrows rfl rfl).goes i ⟨{ pendingRow req actor with discountValue }, ?_, rfl, ?_⟩
      · exact (Table.find_insert hrow req.promotionId).trans (if_pos rfl)
      · exact ⟨rfl, hsame, rfl, rfl, rfl, rfl⟩
    · cases hinsert

theorem defining_inv (hR : R.Lawful) (hi : Inv R w) (hf : Reached R w req .defining) (hown : FindsOwn R w req .defining) :
    Inv R (w.runFlight R i d ⟨req, actor, .defining⟩) := by
  simp only [World.runFlight, World.define]
  have hgrows := grows_send hR w d.reach (World.timedOut "offer_definition.register") (definitionKey req)
    (definitionOf req)
  split
  · rename_i hcall
    obtain ⟨rfl, -⟩ := Prod.mk.inj hcall
    exact (hi.grows hgrows rfl rfl).refuses i
  · rename_i w' hcall
    obtain ⟨rfl, hgranted⟩ := Prod.mk.inj hcall
    exact (hi.grows hgrows rfl rfl).goes i ⟨hgrows.holds req hf, has_of_granted hR hown hgranted⟩

theorem coding_inv (hR : R.Lawful) (hi : Inv R w) (hf : Reached R w req .coding) (hown : FindsOwn R w req .coding) :
    Inv R (w.runFlight R i d ⟨req, actor, .coding⟩) := by
  simp only [World.runFlight]
  split
  · rename_i hcode
    refine hi.goes i ⟨hf.1, hf.2, ?_⟩
    rw [show (Flight.mk req actor .coding).req.code = none from hcode]
    intro code hmem
    cases hmem
  · rename_i code hcode
    have hgrows := grows_send hR w d.reach (World.timedOut "promo_code.register") (codeKey req) (codeOf req code)
    simp only [World.bindCode]
    split
    · rename_i hcall
      obtain ⟨rfl, -⟩ := Prod.mk.inj hcall
      exact (hi.grows hgrows rfl rfl).refuses i
    · rename_i w' hcall
      obtain ⟨rfl, hgranted⟩ := Prod.mk.inj hcall
      refine (hi.grows hgrows rfl rfl).goes i ⟨hgrows.holds req hf.1, hgrows.has _ hf.2, fun code' hmem => ?_⟩
      obtain rfl := Option.some.inj (hcode.symm.trans hmem)
      exact has_of_granted hR (hown code hcode) hgranted

theorem confirming_inv (hi : Inv R w) (hf : Reached R w req .confirming) :
    Inv R (w.runFlight R i d ⟨req, actor, .confirming⟩) := by
  simp only [World.runFlight]
  split
  · have hgrows := grows_confirm (R := R) w req.promotionId
    refine (hi.grows hgrows rfl rfl).goes i ⟨?_, hgrows.registered hf.2⟩
    exact w.promotions.exists_find_update_self _ confirm_id (fun _ => confirm_carries) hf.1
  · exact hi.refuses i

theorem readingBack_inv (hi : Inv R w) (hf : Reached R w req .readingBack) :
    Inv R (w.runFlight R i d ⟨req, actor, .readingBack⟩) := by
  simp only [World.runFlight]
  split
  · split
    · rename_i row hrow
      refine hi.replies i fun row' heq => ?_
      obtain rfl := Except.ok.inj heq
      obtain ⟨r, hr, hcarries⟩ := hf.1
      obtain rfl := Option.some.inj (hrow.symm.trans hr)
      exact ⟨hcarries, ⟨_, hr, hcarries⟩, hf.2⟩
    · exact hi.refuses i
  · exact hi.refuses i

end Phases

theorem runFlight_inv (hR : R.Lawful) {w : World σ} {i : ℕ} {d : Draw} {f : Flight} (hi : Inv R w)
    (hf : Reached R w f.req f.phase) (hown : FindsOwn R w f.req f.phase) : Inv R (w.runFlight R i d f) := by
  obtain ⟨req, actor, phase⟩ := f
  cases phase with
  | reading => exact reading_inv hi hown
  | checking => exact checking_inv hi
  | inserting => exact inserting_inv hi hown
  | defining => exact defining_inv hR hi hf hown
  | coding => exact coding_inv hR hi hf hown
  | confirming => exact confirming_inv hi hf
  | readingBack => exact readingBack_inv hi hf

theorem step_inv (hR : R.Lawful) (w : World σ) (l : Label) (w' : World σ) (hi : Inv R w) (hc : ResumesOwn R w l)
    (h : w.step R l = some w') : Inv R w' := by
  cases l with
  | create configured actor req =>
    simp only [World.step] at h
    split at h
    · cases h
      exact ⟨Pool.forall_concat (P := fun g : Flight => Reached R w g.req g.phase) hi.flights trivial, hi.answers⟩
    · cases h
      refine ⟨hi.flights, ?_⟩
      refine Pool.forall_concat
        (P := fun a : CreatePromotion × Except ApiError PromotionRow => ∀ row, a.2 = .ok row → Faithful R w a.1 row)
        hi.answers ?_
      intro row hrow
      cases hrow
  | run i d =>
    simp only [World.step, Option.map_eq_some_iff] at h
    obtain ⟨f, hf, rfl⟩ := h
    exact runFlight_inv hR hi (hi.flights f (List.mem_of_getElem? hf)) (hc f hf)
  | drop i =>
    cases h
    exact hi.ends i
  | exhaust promotionId =>
    simp only [World.step] at h
    split at h
    · cases h
      exact hi.grows (grows_exhaust w promotionId) rfl rfl
    · cases h
  | elsewhere key c =>
    cases h
    exact hi.grows ⟨fun _ h => h, fun _ h => h, fun _ => hR.keeps⟩ rfl rfl

end Results

/-- In every run in which each call finds its own, an answer `Ok` is worth what it says. -/
theorem promotion_created_with_its_terms {σ : Type} {R : Registry σ} (hR : R.Lawful) {promotions : Promotions}
    {loyalty : σ} {w : World σ} {labels : List Label}
    (h : exec (guarded (ResumesOwn R) (World.step R)) ⟨promotions, loyalty, [], []⟩ labels = some w) :
    ∀ req row, (req, .ok row) ∈ w.answers → Faithful R w req row := by
  have hi := guarded_inv (step_inv hR) (idle_inv promotions loyalty) h
  exact fun req row hmem => hi.answers _ hmem row rfl

/-! ## Two calls for one promotion -/

structure Shelf where
  definitions : String → Option OfferDefinition
  codes : String → Option PromoCode

/-- What is registered is not registered again. -/
def shelve (c : Registration) (s : Shelf) : Except ClientError (Shelf × Unit) :=
  match c with
  | .offerDefinition od =>
    if s.definitions od.id = none then .ok ({ s with definitions := Function.update s.definitions od.id (some od) }, ())
    else .error (.http 409 "offer definition exists")
  | .promoCode pc =>
    if s.codes pc.code = none then .ok ({ s with codes := Function.update s.codes pc.code (some pc) }, ())
    else .error (.http 409 "promo code exists")

def sampleRegistry : Registry (Ledger String Unit Shelf) :=
  { serve shelve with
    offerDefinition := fun s id => s.state.definitions id
    promoCode := fun s code => s.state.codes code }

theorem shelve_eq_ok {c : Registration} {s s' : Shelf} {r : Unit} (h : shelve c s = .ok (s', r)) :
    (match c with
      | .offerDefinition od => s'.definitions od.id = some od
      | .promoCode pc => s'.codes pc.code = some pc) ∧
      (∀ id od, s.definitions id = some od → s'.definitions id = some od) ∧
        ∀ code pc, s.codes code = some pc → s'.codes code = some pc := by
  cases c with
  | offerDefinition od =>
    simp only [shelve] at h
    by_cases hfresh : s.definitions od.id = none
    · rw [if_pos hfresh] at h
      cases h
      refine ⟨Function.update_self .., fun id od' hid => ?_, fun _ _ hcode => hcode⟩
      have hother : id ≠ od.id := by
        rintro rfl
        exact absurd (hfresh.symm.trans hid) (by simp)
      exact (Function.update_of_ne hother ..).trans hid
    · rw [if_neg hfresh] at h
      cases h
  | promoCode pc =>
    simp only [shelve] at h
    by_cases hfresh : s.codes pc.code = none
    · rw [if_pos hfresh] at h
      cases h
      refine ⟨Function.update_self .., fun _ _ hid => hid, fun code pc' hcode => ?_⟩
      have hother : code ≠ pc.code := by
        rintro rfl
        exact absurd (hfresh.symm.trans hcode) (by simp)
      exact (Function.update_of_ne hother ..).trans hcode
    · rw [if_neg hfresh] at h
      cases h

theorem sampleRegistry_lawful : sampleRegistry.Lawful where
  idempotent := serve_idempotent shelve
  registers {s k c r} hnew h := by
    change s.replies k = none at hnew
    change ((serve shelve).call k c s).2 = .ok r at h
    cases hact : shelve c s.state with
    | error e => simp [serve, hnew, hact] at h
    | ok p =>
      obtain ⟨state, u⟩ := p
      have hshelf := (shelve_eq_ok hact).1
      have hstate : (sampleRegistry.call k c s).1.state = state := by
        simp [sampleRegistry, serve, hnew, hact]
      cases c with
      | offerDefinition od => exact (congrArg (fun s : Shelf => s.definitions od.id) hstate).trans hshelf
      | promoCode pc => exact (congrArg (fun s : Shelf => s.codes pc.code) hstate).trans hshelf
  keeps {s k c c'} h := by
    have hstate : (sampleRegistry.call k c s).1.state = s.state ∨
        ∃ state u, shelve c s.state = .ok (state, u) ∧ (sampleRegistry.call k c s).1.state = state := by
      simp only [sampleRegistry, serve]
      split
      · exact .inl rfl
      · split
        · rename_i state u hact
          exact .inr ⟨state, u, hact, rfl⟩
        · exact .inl rfl
    rcases hstate with hsame | ⟨state, u, hact, hstate⟩
    · cases c' with
      | offerDefinition od => exact (congrArg (fun s : Shelf => s.definitions od.id) hsame).trans h
      | promoCode pc => exact (congrArg (fun s : Shelf => s.codes pc.code) hsame).trans h
    · obtain ⟨-, hdefinitions, hcodes⟩ := shelve_eq_ok hact
      cases c' with
      | offerDefinition od =>
        exact (congrArg (fun s : Shelf => s.definitions od.id) hstate).trans (hdefinitions _ _ h)
      | promoCode pc => exact (congrArg (fun s : Shelf => s.codes pc.code) hstate).trans (hcodes _ _ h)

def sampleRequest (discountValue : Decimal) : CreatePromotion where
  promotionId := "PROMO_SUMMER"
  discountType := "percent"
  discountValue := discountValue
  durationKind := "single"
  audience := "public"
  currency := "SGD"
  code := some "SUMMER"
  promoCodeKind := some "multi_use"
  applicableOfferingIds := none
  periodsTotal := none
  validFrom := none
  validTo := none
  displayName := none

def calm : Draw := ⟨.answered, true⟩

def noOffers : Ledger String Unit Shelf := ⟨fun _ => none, ⟨fun _ => none, fun _ => none⟩⟩

/-- A call that stops after the row is written, and a second call that goes on. -/
def crashAndResume (first second : Decimal) : List Label :=
  [.create true "ops" (sampleRequest first), .run 0 calm, .run 0 calm, .run 0 calm, .drop 0,
    .create true "ops" (sampleRequest second), .run 0 calm, .run 0 calm, .run 0 calm, .run 0 calm, .run 0 calm]

def undisturbed (discountValue : Decimal) : List Label :=
  .create true "ops" (sampleRequest discountValue) :: List.replicate 7 (.run 0 calm)

def idle : World (Ledger String Unit Shelf) := ⟨.empty, noOffers, [], []⟩

/-- What the calls that were answered `Ok` asked for and were told. -/
def granted (w : World (Ledger String Unit Shelf)) : List (Decimal × Decimal) :=
  w.answers.filterMap fun a => a.2.toOption.map fun row => (a.1.discountValue, row.discountValue)

theorem promotion_created_resumed :
    ∃ w, exec (guarded (ResumesOwn sampleRegistry) (World.step sampleRegistry)) idle (crashAndResume 20 20) = some w ∧
      granted w = [(20, 20)] ∧ ∀ req row, (req, .ok row) ∈ w.answers → Faithful sampleRegistry w req row :=
  ⟨(exec (guarded (ResumesOwn sampleRegistry) (World.step sampleRegistry)) idle (crashAndResume 20 20)).get
      (by decide +kernel),
    (Option.some_get _).symm, by decide +kernel,
    promotion_created_with_its_terms sampleRegistry_lawful (Option.some_get _).symm⟩

theorem not_faithful_of_value {w : World (Ledger String Unit Shelf)} {p : Decimal × Decimal} (h : p ∈ granted w)
    (hne : p.1 ≠ p.2) : ∃ req row, (req, .ok row) ∈ w.answers ∧ ¬Faithful sampleRegistry w req row := by
  unfold granted at h
  obtain ⟨⟨req, r⟩, hmem, hrow⟩ := List.mem_filterMap.mp h
  cases r with
  | error e => simp [Except.toOption] at hrow
  | ok row =>
    simp only [Except.toOption, Option.map_some, Option.some.injEq] at hrow
    subst hrow
    exact ⟨req, row, hmem, fun hf => hne hf.1.1.2.2.1.symm⟩

/-- The second call asks for half off and is answered with the 20 percent of the first; and a call
that nothing comes before is answered with a rounded value. -/
theorem promotion_created_with_other_terms :
    (∃ w, exec (World.step sampleRegistry) idle (crashAndResume 20 50) = some w ∧
      ∃ req row, (req, .ok row) ∈ w.answers ∧ ¬Faithful sampleRegistry w req row) ∧
    ∃ w, exec (World.step sampleRegistry) idle (undisturbed 12.345) = some w ∧
      ∃ req row, (req, .ok row) ∈ w.answers ∧ ¬Faithful sampleRegistry w req row := by
  constructor
  · refine ⟨_, (Option.some_get (x := exec (World.step sampleRegistry) idle (crashAndResume 20 50)) ?_).symm, ?_⟩
    · decide +kernel
    · exact not_faithful_of_value (p := (50, 20)) (by decide +kernel) (by decide +kernel)
  · refine ⟨_, (Option.some_get (x := exec (World.step sampleRegistry) idle (undisturbed 12.345)) ?_).symm, ?_⟩
    · decide +kernel
    · exact not_faithful_of_value (p := (12.345, 12.35)) (by decide +kernel) (by decide +kernel)

end BssCli.Catalog.Promo
