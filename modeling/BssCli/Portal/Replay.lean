import BssCli.Lib.UrlPath
import BssCli.Portal.Forms
import BssCli.PortalAuth.Stashed

/-!
# The replay of a sensitive write

A write that needs a step-up is stashed: its form, and a target that is built of decoded values. After the step-up the browser posts
the rendered fields to the target.
-/

open Text UrlEncoded

namespace BssCli.Portal

open PortalAuth Steps

/-! ## The first call -/

structure SubQuery where
  subscription : String
  context : Option String
  deriving DecidableEq

/-- The routes that call `check_step_up`, with what the router and the extractors decode. -/
inductive SensitiveRoute
  | nameUpdate
  | phoneUpdate
  | addressUpdate
  | emailChangeStart
  | addMethod
  | addCheckoutInit
  | removeMethod (pmId : String)
  | setDefault (pmId : String)
  | planChangeSubmit (q : SubQuery)
  | planChangeCancel
  | cancelSubmit (subId : String)
  | topUpSubmit (q : SubQuery)

namespace SensitiveRoute

def action : SensitiveRoute → String
  | nameUpdate => "name_update"
  | phoneUpdate => "phone_update"
  | addressUpdate => "address_update"
  | emailChangeStart => "email_change"
  | addMethod | addCheckoutInit => "payment_method_add"
  | removeMethod _ => "payment_method_remove"
  | setDefault _ => "payment_method_set_default"
  | planChangeSubmit _ => "plan_change_schedule"
  | planChangeCancel => "plan_change_cancel"
  | cancelSubmit _ => "subscription_terminate"
  | topUpSubmit _ => "vas_purchase"

/-- What the route hands to `check_step_up` as the target. -/
def target : SensitiveRoute → String
  | nameUpdate => "/profile/contact/name/update"
  | phoneUpdate => "/profile/contact/phone/update"
  | addressUpdate => "/profile/contact/address/update"
  | emailChangeStart => "/profile/contact/email/change"
  | addMethod => "/payment-methods/add"
  | addCheckoutInit => "/payment-methods/add/checkout-init"
  | removeMethod pmId => "/payment-methods/" ++ pmId ++ "/remove"
  | setDefault pmId => "/payment-methods/" ++ pmId ++ "/set-default"
  | planChangeSubmit q => "/plan/change?subscription=" ++ q.subscription
  | planChangeCancel => "/plan/change/cancel"
  | cancelSubmit subId => "/subscription/" ++ subId ++ "/cancel"
  | topUpSubmit q => "/top-up?subscription=" ++ q.subscription

/-- The path of the first call, decoded. -/
def path : SensitiveRoute → List String
  | nameUpdate => ["profile", "contact", "name", "update"]
  | phoneUpdate => ["profile", "contact", "phone", "update"]
  | addressUpdate => ["profile", "contact", "address", "update"]
  | emailChangeStart => ["profile", "contact", "email", "change"]
  | addMethod => ["payment-methods", "add"]
  | addCheckoutInit => ["payment-methods", "add", "checkout-init"]
  | removeMethod pmId => ["payment-methods", pmId, "remove"]
  | setDefault pmId => ["payment-methods", pmId, "set-default"]
  | planChangeSubmit _ => ["plan", "change"]
  | planChangeCancel => ["plan", "change", "cancel"]
  | cancelSubmit subId => ["subscription", subId, "cancel"]
  | topUpSubmit _ => ["top-up"]

/-- The segment that the caller chooses. -/
def segment : SensitiveRoute → Option String
  | removeMethod id | setDefault id | cancelSubmit id => some id
  | _ => none

def query : SensitiveRoute → Option SubQuery
  | planChangeSubmit q | topUpSubmit q => some q
  | _ => none

end SensitiveRoute

structure FirstCall where
  route : SensitiveRoute
  form : Form
  sessionId : String
  /-- The id that the stash draws. -/
  id : String
  now : Time
  ttlS : ℤ

/-- What `check_step_up` stashes. -/
def FirstCall.row (c : FirstCall) : Option PendingActionRow :=
  stashRow c.id c.sessionId c.route.action c.route.target c.form c.now c.ttlS

def FirstCall.view (c : FirstCall) : Option PendingActionView := c.row.map pendingActionView

/-! ## The replay -/

/-- The fields of `auth_step_up_replay.html`, in the order of a map of its own. -/
def replayFields (v : PendingActionView) : Form :=
  (objectOf v.payload).mergeSort fun a b => !(b.1.toList < a.1.toList)

def bytesOf (form : Form) : List (List UInt8 × List UInt8) := utf8Pairs (form.map fun e => (e.1.toList, e.2.toList))

structure Request where
  path : Option (List (List UInt8))
  query : List (List UInt8 × List UInt8)
  form : List (List UInt8 × List UInt8)

/-- The browser submits the fields to the target, and the portal decodes the request. -/
def replayed (v : PendingActionView) : Option Request :=
  (parseForm (serialised.form (bytesOf (replayFields v)))).map fun form =>
    { path := Url.decodedPath v.targetUrl.toList
      query := ((Url.query v.targetUrl.toList).map formDecode).getD []
      form }

def valuesOf (name : String) (pairs : List (List UInt8 × List UInt8)) : List (List UInt8) :=
  (pairs.filter fun p => p.1 = utf8 name.toList).map Prod.snd

/-- `Query<SubQuery>`, which refuses a parameter that comes twice. -/
def SubQuery.decode (pairs : List (List UInt8 × List UInt8)) : Option (List UInt8 × Option (List UInt8)) :=
  match valuesOf "subscription" pairs, valuesOf "context" pairs with
  | [subscription], [] => some (subscription, none)
  | [subscription], [context] => some (subscription, some context)
  | _, _ => none

def SubQuery.bytes (q : SubQuery) : List UInt8 × Option (List UInt8) :=
  (utf8 q.subscription.toList, q.context.map fun c => utf8 c.toList)

/-- The replayed request is the one that was first made. -/
structure Faithful (c : FirstCall) (req : Request) : Prop where
  path : req.path = some (c.route.path.map fun p => utf8 p.toList)
  query : ∀ q, c.route.query = some q → SubQuery.decode req.query = some q.bytes
  fields : ∀ key, key ∉ stripFields → field req.form (utf8 key.toList) = field (bytesOf c.form) (utf8 key.toList)

/-- The first value of each field is its last one, and what the target is built of survives it. -/
structure Survives (c : FirstCall) : Prop where
  fields : ∀ key, key ∉ stripFields → Fields.get c.form key = Fields.get c.form.reverse key
  segment : ∀ id, c.route.segment = some id → Url.SafeSegment id.toList
  query : ∀ q, c.route.query = some q → q.context = none ∧ Url.SafeValue q.subscription.toList

/-! ## Fields -/

theorem utf8_toList_inj {k k' : String} : utf8 k.toList = utf8 k'.toList ↔ k = k' :=
  Utf8.utf8_injective.eq_iff.trans String.toList_inj

theorem field_bytesOf (form : Form) (key : String) :
    field (bytesOf form) (utf8 key.toList) = (Fields.get form key).map fun v => utf8 v.toList := by
  induction form with
  | nil => rfl
  | cons e form ih =>
    unfold field at ih ⊢
    have hcons : bytesOf (e :: form) = (utf8 e.1.toList, utf8 e.2.toList) :: bytesOf form := rfl
    rw [hcons, Fields.get_cons]
    by_cases hkey : e.1 = key
    · rw [List.find?_cons_of_pos (by simp [hkey]), if_pos hkey]
      rfl
    · rw [List.find?_cons_of_neg (by simpa [utf8_toList_inj] using hkey), if_neg hkey, ih]

theorem get_replayFields {v : PendingActionView} (h : (v.payload.map Prod.fst).Nodup) (key : String) :
    Fields.get (replayFields v) key = Fields.get v.payload key := by
  have hperm : (objectOf v.payload).Perm (replayFields v) := (List.mergeSort_perm _ _).symm
  rw [← Fields.get_perm hperm (nodup_objectOf _), get_objectOf]
  exact (Fields.get_perm (List.reverse_perm _).symm h key).symm

theorem row_eq_some {c : FirstCall} {r : PendingActionRow} (h : c.row = some r) :
    r.targetUrl = c.route.target ∧ r.payload = jsonb (payloadOf c.form) := by
  unfold FirstCall.row stashRow at h
  obtain ⟨-, h⟩ := Option.ite_none_right_eq_some.mp h
  obtain rfl := Option.some.inj h
  exact ⟨rfl, rfl⟩

theorem view_eq_some {c : FirstCall} {v : PendingActionView} (h : c.view = some v) :
    v.targetUrl = c.route.target ∧ v.payload = jsonb (payloadOf c.form) := by
  obtain ⟨r, hr, rfl⟩ := Option.map_eq_some_iff.mp h
  exact row_eq_some hr

theorem replayed_eq (v : PendingActionView) :
    replayed v = some
      { path := Url.decodedPath v.targetUrl.toList
        query := ((Url.query v.targetUrl.toList).map formDecode).getD []
        form := bytesOf (replayFields v) } := by
  unfold replayed bytesOf
  rw [parseForm_serialised]
  rfl

/-- The replay has the last value of each field. -/
theorem field_replayed {c : FirstCall} {v : PendingActionView} (h : c.view = some v) {key : String} (hkey : key ∉ stripFields) :
    field (bytesOf (replayFields v)) (utf8 key.toList) = (Fields.get c.form.reverse key).map fun v => utf8 v.toList := by
  obtain ⟨-, hpayload⟩ := view_eq_some h
  have hnodup : (v.payload.map Prod.fst).Nodup := hpayload ▸ nodup_jsonb_payloadOf c.form
  rw [field_bytesOf, get_replayFields hnodup, hpayload, get_jsonb_payloadOf hkey]

theorem fields_iff {c : FirstCall} {v : PendingActionView} (h : c.view = some v) {key : String} (hkey : key ∉ stripFields) :
    field (bytesOf (replayFields v)) (utf8 key.toList) = field (bytesOf c.form) (utf8 key.toList) ↔
      Fields.get c.form key = Fields.get c.form.reverse key := by
  have hinj : Function.Injective fun v : String => utf8 v.toList := fun a b hab => utf8_toList_inj.mp hab
  rw [field_replayed h hkey, field_bytesOf, (Option.map_injective hinj).eq_iff]
  exact eq_comm

/-! ## Targets -/

namespace SensitiveRoute

variable (r : SensitiveRoute)

def pieces : List (List Char) := r.path.map String.toList

/-- What stands behind the path. -/
def suffix : List Char :=
  match r.query with
  | none => []
  | some q => '?' :: ("subscription".toList ++ '=' :: q.subscription.toList)

theorem segment_toList {front back : String} {a b : List Char} (hfront : front.toList = '/' :: (a ++ ['/']))
    (hback : back.toList = '/' :: b) (id : String) : (front ++ id ++ back).toList = Url.joined [a, id.toList, b] := by
  rw [String.toList_append, String.toList_append, hfront, hback]
  simp [Url.joined]

theorem query_toList {front : String} {ps : List (List Char)} (hfront : front.toList = Url.joined ps ++ '?' :: ("subscription".toList ++ ['=']))
    (v : String) : (front ++ v).toList = Url.joined ps ++ '?' :: ("subscription".toList ++ '=' :: v.toList) := by
  rw [String.toList_append, hfront]
  simp

theorem target_toList : r.target.toList = Url.joined r.pieces ++ r.suffix := by
  cases r with
  | removeMethod pmId | setDefault pmId | cancelSubmit pmId =>
    rw [show suffix _ = [] from rfl, List.append_nil]
    exact segment_toList (by decide) (by decide) pmId
  | planChangeSubmit q =>
    have hfront : "/plan/change?subscription=".toList = Url.joined ["plan".toList, "change".toList] ++ '?' ::
      ("subscription".toList ++ ['=']) := by decide
    exact query_toList hfront q.subscription
  | topUpSubmit q =>
    have hfront : "/top-up?subscription=".toList = Url.joined ["top-up".toList] ++ '?' :: ("subscription".toList ++ ['=']) := by decide
    exact query_toList hfront q.subscription
  | _ => decide

/-- The pieces are plain, beside one that the caller chooses. -/
theorem shape : (r.segment = none ∧ (r.pieces.all fun p => p.all Url.isPlain) = true) ∨
    ∃ a id b, r.segment = some id ∧ r.query = none ∧ r.pieces = [a, id.toList, b] ∧ a.all Url.isPlain = true ∧
      b.all Url.isPlain = true := by
  cases r with
  | removeMethod pmId | setDefault pmId | cancelSubmit pmId => exact Or.inr ⟨_, pmId, _, rfl, rfl, rfl, by decide, by decide⟩
  | planChangeSubmit q | topUpSubmit q => exact Or.inl ⟨rfl, by rfl⟩
  | _ => exact Or.inl ⟨rfl, by decide⟩

theorem segment_of_query {q : SubQuery} (h : r.query = some q) : r.segment = none := by
  rcases r.shape with ⟨hnone, -⟩ | ⟨a, id, b, -, hno, -⟩
  · exact hnone
  · rw [hno] at h
    exact nomatch h

theorem pieces_cons : ∃ p ps, r.pieces = p :: ps ∧ p ≠ [] := by
  cases r <;> exact ⟨_, _, rfl, by decide⟩

theorem joined_three_last {a p b : List Char} (hb : b.rdropWhile Url.isEdge = b) :
    (Url.joined [a, p, b]).rdropWhile Url.isEdge = Url.joined [a, p, b] := by
  have hjoined : Url.joined [a, p, b] = '/' :: a ++ '/' :: p ++ '/' :: b := by simp [Url.joined]
  rw [hjoined, Url.rdropWhile_append_cons (by decide), hb]

theorem pieces_last (h : r.query = none) : (Url.joined r.pieces).rdropWhile Url.isEdge = Url.joined r.pieces := by
  cases r with
  | removeMethod pmId | setDefault pmId | cancelSubmit pmId => exact joined_three_last (by decide)
  | planChangeSubmit q | topUpSubmit q => exact nomatch h
  | _ => decide

theorem safe_pieces_iff : (∀ p ∈ r.pieces, Url.SafeSegment p) ↔ ∀ id, r.segment = some id → Url.SafeSegment id.toList := by
  rcases r.shape with ⟨hnone, hplain⟩ | ⟨a, id, b, hid, -, hpieces, ha, hb⟩
  · constructor
    · intro _ id hid
      rw [hnone] at hid
      exact nomatch hid
    · intro _ p hp
      exact Url.safe_of_plain (List.all_eq_true.mp hplain p hp)
  · rw [hpieces, hid]
    constructor
    · rintro h id' heq
      obtain rfl := Option.some.inj heq
      exact h _ (by simp)
    · intro h p hp
      simp only [List.mem_cons, List.not_mem_nil, or_false] at hp
      rcases hp with rfl | rfl | rfl
      · exact Url.safe_of_plain ha
      · exact h id rfl
      · exact Url.safe_of_plain hb

theorem decodedPath_target :
    Url.decodedPath r.target.toList = some (r.pieces.map utf8) ↔ ∀ id, r.segment = some id → Url.SafeSegment id.toList := by
  obtain ⟨p, ps, hpieces, hfirst⟩ := r.pieces_cons
  rw [target_toList, ← safe_pieces_iff]
  cases hquery : r.query with
  | none =>
    have hsuffix : r.suffix = [] := by rw [suffix, hquery]
    have hlast := r.pieces_last hquery
    rw [hsuffix, List.append_nil]
    rw [hpieces] at hlast ⊢
    exact Url.decodedPath_joined_iff hfirst hlast
  | some q =>
    have hsuffix : r.suffix = '?' :: ("subscription".toList ++ '=' :: q.subscription.toList) := by rw [suffix, hquery]
    have hsafe : ∀ p ∈ r.pieces, Url.SafeSegment p := by
      rw [safe_pieces_iff, r.segment_of_query hquery]
      intro id hid
      exact nomatch hid
    rw [hsuffix]
    rw [hpieces] at hsafe ⊢
    exact iff_of_true (Url.decodedPath_query hfirst hsafe _) hsafe

/-- The pairs of the replay's query: the value up to the first `&`, and what comes behind it. -/
theorem pairs_target {q : SubQuery} (h : r.query = some q) :
    ((Url.query r.target.toList).map formDecode).getD [] =
      (utf8 "subscription".toList, decodeField (Url.encodeQuery ((Url.carried q.subscription.toList).takeWhile fun c => c != '&'))) ::
        formDecode (Url.encodeQuery ((Url.carried q.subscription.toList).dropWhile fun c => c != '&').tail) := by
  have hsuffix : r.suffix = '?' :: ("subscription".toList ++ '=' :: q.subscription.toList) := by rw [suffix, h]
  have hsafe : ∀ p ∈ r.pieces, Url.SafeSegment p := by
    rw [safe_pieces_iff, r.segment_of_query h]
    intro id hid
    exact nomatch hid
  obtain ⟨hhead, hplain⟩ := Url.joined_plain hsafe
  have hmarks : ∀ c ∈ Url.joined r.pieces, c ≠ '?' ∧ c ≠ '#' := by
    intro c hc
    constructor
    · rintro rfl
      exact absurd (hplain _ hc).1 (by decide)
    · rintro rfl
      exact absurd (hplain _ hc).1 (by decide)
  have hname : ("subscription".toList).all Url.isPlain = true := by decide
  rw [target_toList, hsuffix, Url.query_append hhead hmarks, Url.carried_value hname, Option.map_some, Option.getD_some,
    Url.formDecode_first hname]

theorem decode_cons {v : List UInt8} {rest : List (List UInt8 × List UInt8)} {c : Option (List UInt8)} {u : List UInt8}
    (h : SubQuery.decode ((utf8 "subscription".toList, v) :: rest) = some (u, c)) : v = u := by
  have hvalues : valuesOf "subscription" ((utf8 "subscription".toList, v) :: rest) = v :: valuesOf "subscription" rest := by
    simp [valuesOf]
  unfold SubQuery.decode at h
  rw [hvalues] at h
  split at h
  · rename_i heq _
    rw [(List.cons.inj heq).1]
    exact congrArg Prod.fst (Option.some.inj h)
  · rename_i heq _
    rw [(List.cons.inj heq).1]
    exact congrArg Prod.fst (Option.some.inj h)
  · exact nomatch h

theorem decode_single (v : List UInt8) : SubQuery.decode [(utf8 "subscription".toList, v)] = some (v, none) := by
  have hname : utf8 "subscription".toList ≠ utf8 "context".toList := by decide
  have hcontext : valuesOf "context" [(utf8 "subscription".toList, v)] = [] := by
    rw [valuesOf, List.filter_cons_of_neg (by rw [decide_eq_true_eq]; exact hname)]
    rfl
  have hvalue : valuesOf "subscription" [(utf8 "subscription".toList, v)] = [v] := by simp [valuesOf]
  unfold SubQuery.decode
  rw [hvalue, hcontext]

/-- The query of the replay, read as `SubQuery`. -/
theorem decode_target {q : SubQuery} (h : r.query = some q) :
    SubQuery.decode (((Url.query r.target.toList).map formDecode).getD []) = some q.bytes ↔
      q.context = none ∧ Url.SafeValue q.subscription.toList := by
  rw [pairs_target r h]
  have hwhole : Url.SafeValue q.subscription.toList →
      (utf8 "subscription".toList, decodeField (Url.encodeQuery ((Url.carried q.subscription.toList).takeWhile fun c => c != '&'))) ::
        formDecode (Url.encodeQuery ((Url.carried q.subscription.toList).dropWhile fun c => c != '&').tail) =
      [(utf8 "subscription".toList, utf8 q.subscription.toList)] := by
    intro hsafe
    have hnone : ((Url.carried q.subscription.toList).dropWhile fun c => c != '&') = [] := by
      rw [Url.carried_eq_self_iff.mpr ⟨hsafe.fragment, hsafe.visible, hsafe.last⟩, List.dropWhile_eq_nil_iff]
      intro c hc
      have hne : c ≠ '&' := fun heq => hsafe.separator (heq ▸ hc)
      simpa using hne
    rw [Url.first_value_iff.mpr hsafe, hnone]
    rfl
  constructor
  · intro hdecode
    have hsafe := Url.first_value_iff.mp (decode_cons hdecode)
    rw [hwhole hsafe, decode_single] at hdecode
    have hcontext : none = q.context.map fun c => utf8 c.toList := congrArg Prod.snd (Option.some.inj hdecode)
    exact ⟨Option.map_eq_none_iff.mp hcontext.symm, hsafe⟩
  · rintro ⟨hcontext, hsafe⟩
    rw [hwhole hsafe, decode_single]
    unfold SubQuery.bytes
    rw [hcontext]
    rfl

end SensitiveRoute

/-! ## The replayed request -/

theorem faithful_iff {c : FirstCall} {v : PendingActionView} (h : c.view = some v) :
    ∃ req, replayed v = some req ∧ (Faithful c req ↔ Survives c) := by
  obtain ⟨htarget, -⟩ := view_eq_some h
  refine ⟨_, replayed_eq v, ?_⟩
  rw [htarget]
  have hpath : (c.route.path.map fun p => utf8 p.toList) = c.route.pieces.map utf8 := by
    unfold SensitiveRoute.pieces
    rw [List.map_map]
    rfl
  constructor
  · rintro ⟨hp, hq, hf⟩
    dsimp only at hp hq hf
    refine ⟨?_, ?_, ?_⟩
    · intro key hkey
      exact (fields_iff h hkey).mp (hf key hkey)
    · rw [← c.route.decodedPath_target, ← hpath]
      exact hp
    · intro q hquery
      exact (c.route.decode_target hquery).mp (hq q hquery)
  · rintro ⟨hf, hs, hq⟩
    refine ⟨?_, ?_, ?_⟩
    · rw [hpath]
      exact c.route.decodedPath_target.mpr hs
    · intro q hquery
      dsimp only
      exact (c.route.decode_target hquery).mpr (hq q hquery)
    · intro key hkey
      exact (fields_iff h hkey).mpr (hf key hkey)

/-- In every run, what is handed out for a replay is the stash of a first call, and the replay is the first call exactly where the first
value of each field is its last one and the target survives what it is built of. -/
theorem replay_faithful_iff {s : Settings} {db : Db} {firsts : List FirstCall} {ls : List Label} {w : World}
    (hdb : ∀ r ∈ db.pending.rows, ∃ c ∈ firsts, c.view = some (pendingActionView r))
    (hls : ∀ r now, .stash r now ∈ ls → ∃ c ∈ firsts, c.view = some (pendingActionView r))
    (hrun : exec (World.step s) (World.initial db) ls = some w) {v : PendingActionView}
    (hanswer : .pendingAction (some v) ∈ w.answers) :
    (∃ c ∈ firsts, c.view = some v) ∧
      ∀ c : FirstCall, c.view = some v → ∃ req, replayed v = some req ∧ (Faithful c req ↔ Survives c) := by
  have hstems : Stems (fun v => ∃ c ∈ firsts, c.view = some v) w :=
    stems_run hrun ⟨hdb, by simp [World.initial], by simp [World.initial]⟩ hls
  exact ⟨hstems.answers _ hanswer v rfl, fun c hc => faithful_iff hc⟩

/-! ## A top-up -/

/-- Two values for one field. -/
def twice : Form := [("vas_offering_id", "VAS-1"), ("vas_offering_id", "VAS-2")]

def emptyDb : Db := { sampleDb with pending := .empty }

def topUp (subscription : String) (form : Form) : FirstCall :=
  ⟨.topUpSubmit ⟨subscription, none⟩, form, "SES-1", "SUP-2", seconds 1, 600⟩

/-- The top-up is stashed, and a second later the stash is handed out. -/
def replayRun (r : PendingActionRow) : List Label :=
  [.stash r (seconds 1), .begin (.consumePendingAction r.sessionId r.actionLabel), .run 0 (sampleDraw 2 [r.id] ""),
    .run 0 (sampleDraw 2 [] "")]

def stashedRow (payload : Form) : PendingActionRow :=
  ⟨"SUP-2", "SES-1", "vas_purchase", "/top-up?subscription=SUB-1", payload, seconds 601, none⟩

theorem topUp_view {form : Form} {value : String} (hpayload : payloadOf form = [("vas_offering_id", value)])
    (hnul : hasNul value = false) :
    (topUp "SUB-1" form).view = some (pendingActionView (stashedRow [("vas_offering_id", value)])) := by
  have hsort : jsonb [("vas_offering_id", value)] = [("vas_offering_id", value)] := by simp [jsonb]
  have hstorable : storable "/top-up?subscription=SUB-1" [("vas_offering_id", value)] = true := by
    have hfixed : hasNul "/top-up?subscription=SUB-1" = false ∧ hasNul "vas_offering_id" = false := by decide
    simp [storable, hfixed, hnul]
  have htarget : (topUp "SUB-1" form).route.target = "/top-up?subscription=SUB-1" := by
    show "/top-up?subscription=" ++ "SUB-1" = _
    decide
  have hform : (topUp "SUB-1" form).form = form := rfl
  unfold FirstCall.view FirstCall.row stashRow
  dsimp only
  rw [hform, hpayload, hsort, htarget, if_pos hstorable]
  rfl

theorem replay_faithful_top_up :
    let c := topUp "SUB-1" [("vas_offering_id", "VAS-1")]
    let v := pendingActionView (stashedRow [("vas_offering_id", "VAS-1")])
    let w := (exec (World.step sampleSettings) (World.initial emptyDb) (replayRun (stashedRow [("vas_offering_id", "VAS-1")]))).get (by decide)
    .pendingAction (some v) ∈ w.answers ∧ ∃ req, replayed v = some req ∧ Faithful c req := by
  intro c v w
  have hview : c.view = some v := topUp_view (by decide) (by decide)
  have hls : ∀ r now, .stash r now ∈ replayRun (stashedRow [("vas_offering_id", "VAS-1")]) →
      ∃ c' ∈ [c], c'.view = some (pendingActionView r) := by
    intro r now h
    simp only [replayRun, List.mem_cons, Label.stash.injEq, reduceCtorEq, List.not_mem_nil, or_false] at h
    exact ⟨c, List.mem_singleton_self _, h.1 ▸ hview⟩
  have hanswer : .pendingAction (some v) ∈ w.answers := by decide
  have hsurvives : Survives c := by
    refine ⟨fun _ _ => rfl, (fun _ h => nomatch h), ?_⟩
    intro q hq
    obtain rfl : (⟨"SUB-1", none⟩ : SubQuery) = q := Option.some.inj hq
    exact ⟨rfl, Url.safeValue_of_plain (by decide)⟩
  obtain ⟨-, hreplay⟩ := replay_faithful_iff (by decide) hls (Option.some_get _).symm hanswer
  obtain ⟨req, hreq, hiff⟩ := hreplay c hview
  exact ⟨hanswer, req, hreq, hiff.mpr hsurvives⟩

/-- The first value was confirmed, and the last one is replayed. -/
theorem replay_departs :
    ∃ (v : PendingActionView) (w : World), (topUp "SUB-1" twice).view = some v ∧
      exec (World.step sampleSettings) (World.initial emptyDb) (replayRun (stashedRow v.payload)) = some w ∧
      .pendingAction (some v) ∈ w.answers ∧ ∀ req, replayed v = some req → ¬ Faithful (topUp "SUB-1" twice) req := by
  have hview := topUp_view (by decide : payloadOf twice = [("vas_offering_id", "VAS-2")]) (by decide)
  refine ⟨_, (exec (World.step sampleSettings) (World.initial emptyDb) (replayRun (stashedRow [("vas_offering_id", "VAS-2")]))).get
    (by decide), hview, (Option.some_get _).symm, by decide, ?_⟩
  intro req hreq hfaithful
  obtain ⟨req', hreq', hiff⟩ := faithful_iff hview
  obtain rfl := Option.some.inj (hreq.symm.trans hreq')
  have hsame := (hiff.mp hfaithful).fields "vas_offering_id" (by decide)
  exact absurd hsame (by decide)

end BssCli.Portal
