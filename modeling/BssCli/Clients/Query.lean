import BssCli.Lib.Url

/-!
# Query values of the clients

`encode` of the typed clients, in its four copies, and the paths that they build with it. A value goes through `encode`, through the
URL library and through the server's decoder. `encode` reads bytes and pushes characters, so that only ASCII comes out whole.
-/

open Text Utf8 UrlEncoded Url

namespace BssCli.Clients

/-! ## The encoder -/

/-- The bytes of the table are replaced, and every other one is pushed as a character. -/
def encodeByte (table : List (UInt8 × String)) (b : UInt8) : List Char :=
  match table.lookup b with
  | some escape => escape.toList
  | none => [Char.ofNat b.toNat]

def encodeWith (table : List (UInt8 × String)) (s : List Char) : List Char := (utf8 s).flatMap (encodeByte table)

/-- `%`, `&`, `+`, `=`, `#` and the blank. -/
def escapes : List (UInt8 × String) :=
  [(0x25, "%25"), (0x26, "%26"), (0x2B, "%2B"), (0x3D, "%3D"), (0x23, "%23"), (0x20, "%20")]

def Mediation.encode (s : List Char) : List Char :=
  encodeWith [(0x25, "%25"), (0x26, "%26"), (0x2B, "%2B"), (0x3D, "%3D"), (0x23, "%23"), (0x20, "%20")] s

def Payment.encode (s : List Char) : List Char :=
  encodeWith [(0x25, "%25"), (0x26, "%26"), (0x2B, "%2B"), (0x3D, "%3D"), (0x23, "%23"), (0x20, "%20")] s

def Catalog.encode (s : List Char) : List Char :=
  encodeWith [(0x25, "%25"), (0x26, "%26"), (0x2B, "%2B"), (0x3D, "%3D"), (0x23, "%23"), (0x20, "%20")] s

def Crm.encode (s : List Char) : List Char :=
  encodeWith [(0x25, "%25"), (0x26, "%26"), (0x2B, "%2B"), (0x3D, "%3D"), (0x23, "%23"), (0x20, "%20")] s

theorem encode_append (a b : List Char) : encodeWith escapes (a ++ b) = encodeWith escapes a ++ encodeWith escapes b := by
  unfold encodeWith utf8
  rw [List.flatMap_append, List.flatMap_append]

/-! ## The paths -/

/-- A parameter has a plain name. -/
structure Param where
  name : List Char
  value : List Char
  plain : ∀ c ∈ name, c.isAlphanum = true

def Param.set (p : Param) (s : List Char) : Param := ⟨p.name, s, p.plain⟩

def Param.text (enc : List Char → List Char) (p : Param) : List Char := p.name ++ '=' :: enc p.value

def join (params : List (List Char)) : List Char := ['&'].intercalate params

def queryText (enc : List Char → List Char) (params : List Param) : List Char := join (params.map (Param.text enc))

/-- `if let Some(s) = value.filter(|s| !s.is_empty())`. -/
def given (name : String) (hname : ∀ c ∈ name.toList, c.isAlphanum = true) (value : Option (List Char)) : List Param :=
  match value.filter fun s => !s.isEmpty with
  | some s => [⟨name.toList, s, hname⟩]
  | none => []

/-- `format!("name={n}")`. -/
def numbered (name : String) (n : ℤ) : List Char := name.toList ++ '=' :: ofI64 n

namespace Mediation

def filters (subscriptionId msisdn eventType since : Option (List Char)) : List Param :=
  given "subscriptionId" (by simp) subscriptionId ++ given "msisdn" (by simp) msisdn ++ given "type" (by simp) eventType ++
    given "since" (by simp) since

/-- The path of `list_usage`. -/
def listUsage (subscriptionId msisdn eventType since : Option (List Char)) (limit : ℤ) : List Char :=
  "/tmf-api/usageManagement/v4/usage".toList ++ '?' ::
    join (numbered "limit" limit :: (filters subscriptionId msisdn eventType since).map (Param.text encode))

end Mediation

namespace Crm

/-- The path of `find_customer_by_email`. -/
def findCustomerByEmail (email : List Char) : List Char :=
  "/tmf-api/customerManagement/v4/customer/by-email".toList ++ '?' :: ("email".toList ++ '=' :: encode email)

def paging (name : String) (n : Option ℤ) : List (List Char) := (n.map (numbered name)).toList

/-- The path of `list_customers_paged`. -/
def listCustomersPaged (state nameContains : Option (List Char)) (limit offset : Option ℤ) : List Char :=
  let params := (given "status" (by simp) state ++ given "name" (by simp) nameContains).map (Param.text encode) ++
    paging "limit" limit ++ paging "offset" offset
  let path := "/tmf-api/customerManagement/v4/customer".toList
  if params = [] then path else path ++ '?' :: join params

end Crm

/-! ## On the wire -/

/-- The characters that the bytes of a text are pushed as. -/
def asChars (s : List Char) : List Char := (utf8 s).map fun b => Char.ofNat b.toNat

def isControl (c : Char) : Bool := c.toNat < 0x20

/-- What arrives of a value. The last one of a query is trimmed with the URL. -/
def received (last : Bool) (s : List Char) : List Char := visible (asChars (if last then s.rdropWhile isControl else s))

def wireByte (b : UInt8) : List UInt8 :=
  if (escapes.lookup b).isSome || inQuerySet b then percentByte b else [b]

theorem wireByte_of_plain {b : UInt8} (hplain : ((escapes.lookup b).isSome || inQuerySet b) = false) : wireByte b = [b] := by
  unfold wireByte
  rw [hplain]
  rfl

theorem plain_ne {b c : UInt8} (hplain : ((escapes.lookup b).isSome || inQuerySet b) = false)
    (hc : (escapes.lookup c).isSome = true) : b ≠ c := by
  rintro rfl
  rw [hc] at hplain
  cases hplain

def wire : Escape where
  enc := wireByte
  decodes b rest := by
    cases hplain : (escapes.lookup b).isSome || inQuerySet b with
    | true =>
      unfold wireByte
      rw [hplain]
      exact decodes_percentByte b rest
    | false =>
      rw [wireByte_of_plain hplain]
      exact decodes_self (plain_ne hplain rfl) (plain_ne hplain rfl) rest
  apart b c hc := by
    cases hplain : (escapes.lookup b).isSome || inQuerySet b with
    | true =>
      unfold wireByte at hc
      rw [hplain] at hc
      exact (percentByte_plain hc).2
    | false =>
      rw [wireByte_of_plain hplain, List.mem_singleton] at hc
      rw [hc]
      exact ⟨plain_ne hplain rfl, plain_ne hplain rfl⟩

theorem text_append (a b : List UInt8) : wire.text (a ++ b) = wire.text a ++ wire.text b := List.flatMap_append

/-! ## The table -/

theorem toNat_pushed (b : UInt8) : (Char.ofNat b.toNat).toNat = b.toNat := by
  have hb := b.toNat_lt
  have hvalid : b.toNat.isValidChar := Or.inl (by omega)
  rw [Char.ofNat, dif_pos hvalid]
  rfl

/-- The bytes of the table are ASCII, and none is a control. -/
theorem lookup_eq_none {b : UInt8} (h : b.toNat < 0x20 ∨ 0x80 ≤ b.toNat) : escapes.lookup b = none := by
  rw [List.lookup_eq_none_iff]
  intro p hp
  have hrange : ∀ p ∈ escapes, 0x20 ≤ p.1.toNat ∧ p.1.toNat < 0x80 := by decide
  rw [bne_iff_ne]
  rintro rfl
  have := hrange p hp
  omega

theorem mem_of_lookup {b : UInt8} {escape : String} (h : escapes.lookup b = some escape) : (b, escape) ∈ escapes := by
  obtain ⟨front, back, heq, -⟩ := List.lookup_eq_some_iff.mp h
  rw [heq]
  exact List.mem_append_cons_self

theorem encodeByte_none {b : UInt8} (h : escapes.lookup b = none) : encodeByte escapes b = [Char.ofNat b.toNat] := by
  rw [encodeByte, h]

theorem encodeByte_some {b : UInt8} {escape : String} (h : escapes.lookup b = some escape) :
    encodeByte escapes b = escape.toList := by
  rw [encodeByte, h]

/-- Outside the table a character goes out as the URL library writes it. -/
theorem queryByte_eq_wireByte {b x : UInt8} (hlookup : escapes.lookup b = none)
    (hx : x ∈ String.utf8EncodeChar (Char.ofNat b.toNat)) : queryByte x = wireByte x := by
  have hnone : escapes.lookup x = none := by
    rcases Nat.lt_or_ge b.toNat 0x80 with hb | hb
    · rw [utf8EncodeChar_ascii (by rw [toNat_pushed]; exact hb), toNat_pushed, List.mem_singleton, UInt8.ofNat_toNat] at hx
      rw [hx, hlookup]
    · exact lookup_eq_none (.inr ((utf8EncodeChar_wide (by rw [toNat_pushed]; exact hb)).2 x hx))
  rw [queryByte, wireByte, hnone]
  rfl

/-- One byte goes out as the character that it is pushed as. -/
theorem encodeQuery_encodeByte (b : UInt8) :
    encodeQuery (visible (encodeByte escapes b)) = wire.text (utf8 (visible [Char.ofNat b.toNat])) := by
  cases hlookup : escapes.lookup b with
  | none =>
    rw [encodeByte_none hlookup]
    refine List.flatMap_congr fun x hx => queryByte_eq_wireByte hlookup ?_
    obtain ⟨c, hc, hx⟩ := List.mem_flatMap.mp hx
    rwa [List.mem_singleton.mp (List.mem_filter.mp hc).1] at hx
  | some escape =>
    have hall : ∀ p ∈ escapes, encodeQuery (visible p.2.toList) = wire.text (utf8 (visible [Char.ofNat p.1.toNat])) := by
      decide +kernel
    rw [encodeByte_some hlookup]
    exact hall (b, escape) (mem_of_lookup hlookup)

theorem encodeQuery_bytes (bytes : List UInt8) :
    encodeQuery (visible (bytes.flatMap (encodeByte escapes))) =
      wire.text (utf8 (visible (bytes.map fun b => Char.ofNat b.toNat))) := by
  induction bytes with
  | nil => rfl
  | cons b bytes ih =>
    have hmap : visible ((b :: bytes).map fun b => Char.ofNat b.toNat) =
        visible [Char.ofNat b.toNat] ++ visible (bytes.map fun b => Char.ofNat b.toNat) := visible_append [_] _
    rw [List.flatMap_cons, visible_append, encodeQuery_append, encodeQuery_encodeByte, ih, hmap, utf8_append, text_append]

theorem encodeQuery_encode (s : List Char) :
    encodeQuery (visible (encodeWith escapes s)) = wire.text (utf8 (visible (asChars s))) := encodeQuery_bytes (utf8 s)

/-! ## ASCII texts -/

theorem ofNat_toNat_ascii {c : Char} (h : c.toNat < 0x80) : Char.ofNat (UInt8.ofNat c.toNat).toNat = c := by
  rw [toNat_ofNat_of_lt (by omega), Char.ofNat_toNat]

theorem asChars_ascii {s : List Char} (h : ∀ c ∈ s, c.toNat < 0x80) : asChars s = s := by
  induction s with
  | nil => rfl
  | cons c s ih =>
    have hc := h c List.mem_cons_self
    unfold asChars utf8 at ih ⊢
    rw [List.flatMap_cons, utf8EncodeChar_ascii hc, List.map_append, ih fun d hd => h d (List.mem_cons_of_mem c hd),
      List.map_singleton, ofNat_toNat_ascii hc]
    rfl

theorem ascii_of_isAlphanum {c : Char} (h : c.isAlphanum = true) : c.toNat < 0x80 := by
  have hcases : (decide (65 ≤ c.toNat ∧ c.toNat ≤ 90) || (decide (97 ≤ c.toNat) && decide (c.toNat ≤ 122)) ||
      (decide (48 ≤ c.toNat) && decide (c.toNat ≤ 57))) = true := h
  simp only [Bool.or_eq_true, Bool.and_eq_true, decide_eq_true_eq] at hcases
  omega

theorem lookup_of_isAlphanum {c : Char} (h : c.isAlphanum = true) : escapes.lookup (UInt8.ofNat c.toNat) = none := by
  cases hlookup : escapes.lookup (UInt8.ofNat c.toNat) with
  | none => rfl
  | some escape =>
    have hall : ∀ p ∈ escapes, (Char.ofNat p.1.toNat).isAlphanum = false := by decide
    have hno := hall _ (mem_of_lookup hlookup)
    rw [ofNat_toNat_ascii (ascii_of_isAlphanum h), h] at hno
    exact nomatch hno

theorem plain_char {c : Char} (h : c.isAlphanum = true) :
    encodeByte escapes (UInt8.ofNat c.toNat) = [c] ∧ isTabOrNewline c = false ∧ c ≠ '#' ∧ c ≠ '?' := by
  have hne : ∀ d : Char, d.isAlphanum = false → c ≠ d := by
    rintro d hd rfl
    rw [h] at hd
    exact nomatch hd
  refine ⟨?_, ?_, hne _ rfl, hne _ rfl⟩
  · rw [encodeByte_none (lookup_of_isAlphanum h), ofNat_toNat_ascii (ascii_of_isAlphanum h)]
  · simp [isTabOrNewline, hne _ (show '\t'.isAlphanum = false from rfl), hne _ (show '\n'.isAlphanum = false from rfl),
      hne _ (show '\r'.isAlphanum = false from rfl)]

theorem encodeWith_ascii {c : Char} (h : c.toNat < 0x80) : encodeWith escapes [c] = encodeByte escapes (UInt8.ofNat c.toNat) := by
  unfold encodeWith utf8
  rw [List.flatMap_singleton, utf8EncodeChar_ascii h, List.flatMap_singleton]

theorem encode_plain {t : List Char} (h : ∀ c ∈ t, c.isAlphanum = true) : encodeWith escapes t = t ∧ visible t = t := by
  constructor
  · induction t with
    | nil => rfl
    | cons c t ih =>
      have hc := h c List.mem_cons_self
      have hone : encodeWith escapes [c] = [c] := by
        rw [encodeWith_ascii (ascii_of_isAlphanum hc)]
        exact (plain_char hc).1
      have hsplit := encode_append [c] t
      rw [hone, ih fun d hd => h d (List.mem_cons_of_mem c hd)] at hsplit
      exact hsplit
  · refine List.filter_eq_self.mpr fun c hc => ?_
    simp [(plain_char (h c hc)).2.1]

theorem encodeQuery_plain {t : List Char} (h : ∀ c ∈ t, c.isAlphanum = true) : encodeQuery (visible t) = wire.text (utf8 t) := by
  obtain ⟨hencode, hvisible⟩ := encode_plain h
  have hwire := encodeQuery_encode t
  rw [hencode, asChars_ascii fun c hc => ascii_of_isAlphanum (h c hc), hvisible] at hwire
  rw [hvisible]
  exact hwire

/-! ## Trimmed queries -/

theorem fragment_not_mem (s : List Char) : '#' ∉ encodeWith escapes s := by
  intro h
  obtain ⟨b, -, hb⟩ := List.mem_flatMap.mp h
  cases hlookup : escapes.lookup b with
  | none =>
    rw [encodeByte_none hlookup, List.mem_singleton] at hb
    have hb' : b = 0x23 := by
      rw [← UInt8.toNat_inj, ← toNat_pushed, ← hb]
      rfl
    rw [hb'] at hlookup
    exact nomatch hlookup
  | some escape =>
    rw [encodeByte_some hlookup] at hb
    have hall : ∀ p ∈ escapes, '#' ∉ p.2.toList := by decide
    exact hall _ (mem_of_lookup hlookup) hb

theorem encodeByte_wide {b : UInt8} (h : 0x80 ≤ b.toNat) :
    encodeByte escapes b = [Char.ofNat b.toNat] ∧ isEdge (Char.ofNat b.toNat) = false := by
  refine ⟨encodeByte_none (lookup_eq_none (.inr h)), ?_⟩
  rw [isEdge, toNat_pushed, decide_eq_false_iff_not]
  omega

/-- A control is pushed as it is. -/
theorem encode_control {c : Char} (h : isControl c = true) : encodeWith escapes [c] = [c] ∧ isEdge c = true := by
  unfold isControl at h
  rw [decide_eq_true_eq] at h
  have hbyte : (UInt8.ofNat c.toNat).toNat = c.toNat := toNat_ofNat_of_lt (by omega)
  rw [encodeWith_ascii (by omega), encodeByte_none (lookup_eq_none (.inl (by omega))), ofNat_toNat_ascii (by omega)]
  exact ⟨rfl, decide_eq_true (by omega)⟩

theorem encode_end_ascii {c : Char} (hc : c.toNat < 0x80) (h : isControl c = false) :
    ∃ init d, encodeWith escapes [c] = init ++ [d] ∧ isEdge d = false := by
  unfold isControl at h
  rw [decide_eq_false_iff_not] at h
  rw [encodeWith_ascii hc]
  cases hlookup : escapes.lookup (UInt8.ofNat c.toNat) with
  | none =>
    refine ⟨[], c, by rw [encodeByte_none hlookup, ofNat_toNat_ascii hc]; rfl, decide_eq_false fun hle => ?_⟩
    -- The blank is in the table.
    have hblank : c.toNat = 0x20 := by omega
    rw [hblank] at hlookup
    exact nomatch hlookup
  | some escape =>
    rw [encodeByte_some hlookup]
    have hall : ∀ p ∈ escapes, (p.2.toList.getLast?.any fun d => !isEdge d) = true := by decide
    obtain ⟨d, hlast, hd⟩ := (Option.any_eq_true _ _).mp (hall _ (mem_of_lookup hlookup))
    obtain ⟨init, hinit⟩ := List.getLast?_eq_some_iff.mp hlast
    exact ⟨init, d, hinit, by simpa using hd⟩

theorem encode_end_wide {c : Char} (hc : 0x80 ≤ c.toNat) :
    ∃ init d, encodeWith escapes [c] = init ++ [d] ∧ isEdge d = false := by
  have hwide := utf8EncodeChar_wide hc
  have hne : String.utf8EncodeChar c ≠ [] := by
    intro hnil
    rw [hnil] at hwide
    exact absurd hwide.1 (by decide)
  obtain ⟨init, b, hb⟩ := List.eq_nil_or_concat (String.utf8EncodeChar c) |>.resolve_left hne
  obtain ⟨hpush, hedge⟩ := encodeByte_wide (hwide.2 b (by rw [hb]; simp))
  refine ⟨init.flatMap (encodeByte escapes), Char.ofNat b.toNat, ?_, hedge⟩
  show ((String.utf8EncodeChar c ++ []).flatMap (encodeByte escapes)) = _
  rw [List.append_nil, hb, List.concat_eq_append, List.flatMap_append, List.flatMap_singleton, hpush]

/-- No other character ends in a control or in a blank. -/
theorem encode_end {c : Char} (h : isControl c = false) : ∃ init d, encodeWith escapes [c] = init ++ [d] ∧ isEdge d = false := by
  rcases Nat.lt_or_ge c.toNat 0x80 with hc | hc
  · exact encode_end_ascii hc h
  · exact encode_end_wide hc

theorem rdropWhile_encode (s : List Char) :
    (encodeWith escapes s).rdropWhile isEdge = encodeWith escapes (s.rdropWhile isControl) := by
  induction s using List.reverseRecOn with
  | nil => rfl
  | append_singleton s c ih =>
    rw [encode_append]
    cases hcontrol : isControl c with
    | true =>
      obtain ⟨hsame, hedge⟩ := encode_control hcontrol
      rw [hsame, List.rdropWhile_concat_pos _ _ _ hedge, List.rdropWhile_concat_pos _ _ _ hcontrol, ih]
    | false =>
      obtain ⟨init, d, hinit, hd⟩ := encode_end hcontrol
      rw [hinit, ← List.append_assoc, List.rdropWhile_concat_neg _ _ _ (by simp [hd]),
        List.rdropWhile_concat_neg _ _ _ (by simp [hcontrol]), encode_append, hinit, List.append_assoc]

/-! ## What a server reads -/

/-- What arrives of each parameter. -/
def arriving : List Param → List (List Char × List Char)
  | [] => []
  | p :: ps => (p.name, received ps.isEmpty p.value) :: arriving ps

theorem fragment_not_mem_text (p : Param) : '#' ∉ p.text (encodeWith escapes) := by
  intro h
  rcases List.mem_append.mp h with h | h
  · exact (plain_char (p.plain _ h)).2.2.1 rfl
  · rcases List.mem_cons.mp h with h | h
    · exact absurd h (by decide)
    · exact fragment_not_mem p.value h

theorem encodeQuery_text (p : Param) (s : List Char) :
    encodeQuery (visible p.name ++ '=' :: visible (encodeWith escapes s)) =
      wire.pair (utf8 p.name, utf8 (visible (asChars s))) := by
  have hequals : encodeQuery ['='] = [equals] := by decide
  have hsplit : visible p.name ++ '=' :: visible (encodeWith escapes s) =
      visible p.name ++ (['='] ++ visible (encodeWith escapes s)) := rfl
  rw [hsplit, encodeQuery_append, encodeQuery_append, encodeQuery_plain p.plain, hequals, encodeQuery_encode]
  rfl

theorem encodeQuery_last (p : Param) :
    encodeQuery (carried (p.text (encodeWith escapes))) = wire.pair (utf8 p.name, utf8 (received true p.value)) := by
  have hname : '#' ∉ p.name := fun h => (plain_char (p.plain _ h)).2.2.1 rfl
  have hcarried : carried (p.text (encodeWith escapes)) =
      visible p.name ++ '=' :: visible (encodeWith escapes (p.value.rdropWhile isControl)) := by
    unfold Param.text
    rw [carried_append_cons hname (by decide) (by decide) (by decide), carried_of_not_mem (fragment_not_mem _),
      rdropWhile_encode]
  rw [hcarried, encodeQuery_text]
  rfl

theorem encodeQuery_next (p : Param) {q : List Char} :
    encodeQuery (carried (p.text (encodeWith escapes) ++ '&' :: q)) =
      wire.pair (utf8 p.name, utf8 (received false p.value)) ++ ampersand :: encodeQuery (carried q) := by
  have hvisible : visible (p.text (encodeWith escapes)) = visible p.name ++ '=' :: visible (encodeWith escapes p.value) :=
    visible_append _ _
  have hseparator : encodeQuery ('&' :: carried q) = ampersand :: encodeQuery (carried q) := encodeQuery_append ['&'] _
  rw [carried_append_cons (fragment_not_mem_text p) (by decide) (by decide) (by decide), encodeQuery_append, hseparator,
    hvisible, encodeQuery_text]
  rfl

/-- The query goes out as a form of what arrives. -/
theorem encodeQuery_queryText (params : List Param) :
    encodeQuery (carried (queryText (encodeWith escapes) params)) = wire.form (utf8Pairs (arriving params)) := by
  induction params with
  | nil => rfl
  | cons p ps ih =>
    cases ps with
    | nil =>
      have hjoin : queryText (encodeWith escapes) [p] = p.text (encodeWith escapes) := by
        unfold queryText join
        rw [List.map_singleton, List.intercalate_singleton]
      rw [hjoin, encodeQuery_last]
      exact List.intercalate_singleton.symm
    | cons q ps =>
      have hjoin : queryText (encodeWith escapes) (p :: q :: ps) =
          p.text (encodeWith escapes) ++ '&' :: queryText (encodeWith escapes) (q :: ps) := by
        unfold queryText join
        rw [List.map_cons, List.map_cons, List.intercalate_cons_cons, List.append_assoc]
        rfl
      have hform : wire.form (utf8Pairs (arriving (p :: q :: ps))) =
          wire.pair (utf8 p.name, utf8 (received false p.value)) ++ ampersand :: wire.form (utf8Pairs (arriving (q :: ps))) := by
        show [ampersand].intercalate (_ :: _ :: _) = _
        rw [List.intercalate_cons_cons, List.append_assoc]
        rfl
      rw [hjoin, encodeQuery_next, ih, hform]

/-- A base URL and a path. Neither has a query or a fragment. -/
structure Endpoint where
  text : List Char
  starts : ∀ c ∈ text.head?, isEdge c = false
  plain : ∀ c ∈ text, c ≠ '?' ∧ c ≠ '#'

def Endpoint.url (e : Endpoint) (query : List Char) : List Char := e.text ++ '?' :: query

/-- The server's decoding of the query of a URL. -/
def served (url : List Char) : List (List UInt8 × List UInt8) := ((query url).map formDecode).getD []

theorem served_url (e : Endpoint) (params : List Param) :
    served (e.url (queryText (encodeWith escapes) params)) = utf8Pairs (arriving params) := by
  unfold served Endpoint.url
  rw [query_append e.starts e.plain, encodeQuery_queryText, Option.map_some, Option.getD_some, wire.formDecode_form]

/-! ## Values that survive -/

/-- ASCII without tabs and newlines. The last value of a query does not end in a control either. -/
structure Survives (last : Bool) (s : List Char) : Prop where
  ascii : ∀ c ∈ s, c.toNat < 0x80
  visible : ∀ c ∈ s, isTabOrNewline c = false
  edge : last = true → ∀ c ∈ s.getLast?, isControl c = false

/-- What is dropped and trimmed is ASCII. -/
theorem countP_wide_visible (s : List Char) :
    (visible s).countP (fun c => 0x80 ≤ c.toNat) = s.countP fun c => 0x80 ≤ c.toNat := by
  unfold Url.visible
  rw [List.countP_filter]
  refine List.countP_congr fun c _ => ?_
  simp only [Bool.and_eq_true, decide_eq_true_eq, Bool.not_eq_true', and_iff_left_iff_imp]
  intro hc
  simp only [isTabOrNewline, Bool.or_eq_false_iff, decide_eq_false_iff_not]
  refine ⟨⟨?_, ?_⟩, ?_⟩ <;> rintro rfl <;> exact absurd hc (by decide)

theorem countP_wide_rdropWhile (s : List Char) :
    (s.rdropWhile isControl).countP (fun c => 0x80 ≤ c.toNat) = s.countP fun c => 0x80 ≤ c.toNat := by
  induction s using List.reverseRecOn with
  | nil => rfl
  | append_singleton s c ih =>
    by_cases hc : isControl c = true
    · have hlow : ¬ 0x80 ≤ c.toNat := by
        simp [isControl] at hc
        omega
      rw [List.rdropWhile_concat_pos _ _ _ hc, ih, List.countP_append, List.countP_singleton, if_neg (by simpa using hlow)]
      rfl
    · rw [List.rdropWhile_concat_neg _ _ _ hc]

/-- Every character that is not ASCII comes out as two at least. -/
theorem countP_wide_asChars (s : List Char) :
    2 * s.countP (fun c => 0x80 ≤ c.toNat) ≤ (asChars s).countP fun c => 0x80 ≤ c.toNat := by
  induction s with
  | nil => exact Nat.le_refl _
  | cons c s ih =>
    have hsplit : asChars (c :: s) = (String.utf8EncodeChar c).map (fun b => Char.ofNat b.toNat) ++ asChars s := by
      unfold asChars utf8
      rw [List.flatMap_cons, List.map_append]
    rw [hsplit, List.countP_append, List.countP_cons]
    by_cases hc : 0x80 ≤ c.toNat
    · obtain ⟨hlen, hbytes⟩ := utf8EncodeChar_wide hc
      have hall : ((String.utf8EncodeChar c).map fun b => Char.ofNat b.toNat).countP (fun c => 0x80 ≤ c.toNat) =
          (String.utf8EncodeChar c).length := by
        rw [List.countP_map, List.countP_eq_length]
        intro b hb
        simp [toNat_pushed, hbytes b hb]
      rw [if_pos (by simpa using hc), hall]
      omega
    · rw [if_neg (by simpa using hc)]
      omega

theorem trim_initial (last : Bool) (s : List Char) : (if last then s.rdropWhile isControl else s) <+: s := by
  split
  · exact List.rdropWhile_prefix _ _
  · exact List.prefix_rfl

theorem countP_wide_trim (last : Bool) (s : List Char) :
    (if last then s.rdropWhile isControl else s).countP (fun c => 0x80 ≤ c.toNat) = s.countP fun c => 0x80 ≤ c.toNat := by
  split
  · exact countP_wide_rdropWhile s
  · rfl

/-- Nothing else than ASCII keeps its number of characters. -/
theorem ascii_of_received {last : Bool} {s : List Char} (h : received last s = s) : ∀ c ∈ s, c.toNat < 0x80 := by
  have hcount := countP_wide_trim last s
  have hdouble := countP_wide_asChars (if last then s.rdropWhile isControl else s)
  have hkept := countP_wide_visible (asChars (if last then s.rdropWhile isControl else s))
  rw [show visible (asChars (if last then s.rdropWhile isControl else s)) = s from h] at hkept
  have hwide : s.countP (fun c => 0x80 ≤ c.toNat) = 0 := by omega
  intro c hc
  have hnot := List.countP_eq_zero.mp hwide c hc
  simpa using hnot

theorem received_ascii {last : Bool} {s : List Char} (h : ∀ c ∈ s, c.toNat < 0x80) :
    received last s = visible (if last then s.rdropWhile isControl else s) := by
  unfold received
  rw [asChars_ascii fun c hc => h c ((trim_initial last s).subset hc)]

theorem received_eq_iff {last : Bool} {s : List Char} : received last s = s ↔ Survives last s := by
  constructor
  · intro h
    have hascii := ascii_of_received h
    have hsame := (received_ascii hascii).symm.trans h
    have hvisible : ∀ c ∈ s, isTabOrNewline c = false := by
      intro c hc
      rw [← hsame] at hc
      simpa using List.of_mem_filter hc
    refine ⟨hascii, hvisible, ?_⟩
    rintro rfl
    rw [← rdropWhile_eq_self_iff_getLast?]
    have hlen : s.length ≤ (s.rdropWhile isControl).length := by
      have hfilter := List.length_filter_le (fun c => !isTabOrNewline c) (s.rdropWhile isControl)
      rw [show (s.rdropWhile isControl).filter (fun c => !isTabOrNewline c) = s from hsame] at hfilter
      exact hfilter
    exact (List.rdropWhile_prefix _ _).eq_of_length_le hlen
  · intro h
    have hkept : (if last then s.rdropWhile isControl else s) = s := by
      split
      · rename_i hlast
        exact rdropWhile_eq_self_iff_getLast?.mpr (h.edge hlast)
      · rfl
    rw [received_ascii h.ascii, hkept]
    refine List.filter_eq_self.mpr fun c hc => ?_
    simp [h.visible c hc]

theorem arriving_append (before after : List Param) (p : Param) :
    arriving (before ++ p :: after) =
      before.map (fun q => (q.name, received false q.value)) ++ (p.name, received after.isEmpty p.value) :: arriving after := by
  induction before with
  | nil => rfl
  | cons q before ih =>
    have hmore : (before ++ p :: after).isEmpty = false := by
      rw [List.isEmpty_eq_false_iff]
      simp
    show (q.name, received (before ++ p :: after).isEmpty q.value) :: arriving (before ++ p :: after) = _
    rw [hmore, ih]
    rfl

theorem utf8_received_eq_iff {last : Bool} {s : List Char} : utf8 (received last s) = utf8 s ↔ Survives last s :=
  utf8_injective.eq_iff.trans received_eq_iff

/-- The four copies of the encoder are one function. A value is decoded as it was given when it is ASCII without tabs and newlines,
and does not end the query in a control. The other parameters never change with it. -/
theorem query_value_survives_iff (e : Endpoint) (before after : List Param) (p : Param) :
    (Mediation.encode = Payment.encode ∧ Payment.encode = Crm.encode ∧ Crm.encode = Catalog.encode) ∧
    ∃ left right : List (List UInt8 × List UInt8), left.length = before.length ∧ ∀ s, ∃ value,
      served (e.url (queryText Mediation.encode (before ++ p.set s :: after))) = left ++ (utf8 p.name, value) :: right ∧
        (value = utf8 s ↔ Survives after.isEmpty s) := by
  refine ⟨⟨rfl, rfl, rfl⟩, ?_⟩
  refine ⟨utf8Pairs (before.map fun q => (q.name, received false q.value)), utf8Pairs (arriving after), ?_, fun s => ?_⟩
  · rw [utf8Pairs, List.length_map, List.length_map]
  refine ⟨utf8 (received after.isEmpty s), ?_, utf8_received_eq_iff⟩
  have hserved := served_url e (before ++ p.set s :: after)
  rw [arriving_append, utf8Pairs, List.map_append, List.map_cons] at hserved
  exact hserved

/-- The search for `é`, as the only parameter. -/
theorem query_value_departs : ¬ ∀ (e : Endpoint) (s : List Char),
    served (e.url (queryText Crm.encode [⟨"email".toList, s, by simp⟩])) = [(utf8 "email".toList, utf8 s)] := by
  intro h
  have hread := h ⟨"http://crm:8002".toList, by simp [isEdge], by simp⟩ ['é']
  have hserved := served_url ⟨"http://crm:8002".toList, by simp [isEdge], by simp⟩ [⟨"email".toList, ['é'], by simp⟩]
  exact absurd (hread.symm.trans hserved) (by decide +kernel)

/-! ## The paths are such queries -/

theorem encode_ofI64 (n : ℤ) : encodeWith escapes (ofI64 n) = ofI64 n := by
  have hone : ∀ c ∈ ofI64 n, encodeWith escapes [c] = [c] := by
    intro c hc
    rcases mem_ofI64 hc with rfl | hc
    · decide
    · exact (encode_plain (t := [c]) (by simpa [Char.isAlphanum] using Or.inr hc)).1
  have hall : ∀ t : List Char, (∀ c ∈ t, encodeWith escapes [c] = [c]) → encodeWith escapes t = t := by
    intro t ht
    induction t with
    | nil => rfl
    | cons c t ih =>
      have hsplit := encode_append [c] t
      rw [ht c List.mem_cons_self, ih fun d hd => ht d (List.mem_cons_of_mem c hd)] at hsplit
      exact hsplit
  exact hall _ hone

theorem text_numbered (name : String) (hname : ∀ c ∈ name.toList, c.isAlphanum = true) (n : ℤ) :
    Param.text (encodeWith escapes) ⟨name.toList, ofI64 n, hname⟩ = numbered name n := by
  unfold Param.text numbered
  rw [encode_ofI64]

theorem listUsage_eq (subscriptionId msisdn eventType since : Option (List Char)) (limit : ℤ) :
    Mediation.listUsage subscriptionId msisdn eventType since limit =
      "/tmf-api/usageManagement/v4/usage".toList ++ '?' ::
        queryText Mediation.encode
          (⟨"limit".toList, ofI64 limit, by simp⟩ :: Mediation.filters subscriptionId msisdn eventType since) := by
  have hlimit := text_numbered "limit" (by simp) limit
  unfold Mediation.listUsage queryText
  rw [List.map_cons, show Param.text Mediation.encode ⟨"limit".toList, ofI64 limit, by simp⟩ = numbered "limit" limit from hlimit]

theorem findCustomerByEmail_eq (email : List Char) :
    Crm.findCustomerByEmail email =
      "/tmf-api/customerManagement/v4/customer/by-email".toList ++ '?' ::
        queryText Crm.encode [⟨"email".toList, email, by simp⟩] := by
  unfold queryText join
  rw [List.map_singleton, List.intercalate_singleton]
  rfl

namespace Crm

def pagingParams (name : String) (hname : ∀ c ∈ name.toList, c.isAlphanum = true) (n : Option ℤ) : List Param :=
  (n.map fun n => ⟨name.toList, ofI64 n, hname⟩).toList

theorem paging_eq {name : String} (hname : ∀ c ∈ name.toList, c.isAlphanum = true) (n : Option ℤ) :
    paging name n = (pagingParams name hname n).map (Param.text encode) := by
  cases n with
  | none => rfl
  | some n => exact congrArg (fun t => [t]) (text_numbered name hname n).symm

def customerParams (state nameContains : Option (List Char)) (limit offset : Option ℤ) : List Param :=
  given "status" (by simp) state ++ given "name" (by simp) nameContains ++ pagingParams "limit" (by simp) limit ++
    pagingParams "offset" (by simp) offset

theorem listCustomersPaged_eq (state nameContains : Option (List Char)) (limit offset : Option ℤ) :
    listCustomersPaged state nameContains limit offset =
      if customerParams state nameContains limit offset = [] then "/tmf-api/customerManagement/v4/customer".toList
      else "/tmf-api/customerManagement/v4/customer".toList ++ '?' ::
        queryText encode (customerParams state nameContains limit offset) := by
  have hparams : (given "status" (by simp) state ++ given "name" (by simp) nameContains).map (Param.text encode) ++
      paging "limit" limit ++ paging "offset" offset =
        (customerParams state nameContains limit offset).map (Param.text encode) := by
    rw [paging_eq (by simp), paging_eq (by simp), customerParams]
    simp only [List.map_append]
  unfold listCustomersPaged
  dsimp only
  rw [hparams]
  simp only [List.map_eq_nil_iff]
  rfl

end Crm

end BssCli.Clients
