import BssCli.Lib.Text
import Mathlib.Data.List.Nodup
import Mathlib.Data.List.Pairwise
import Mathlib.Data.List.Dedup
import Mathlib.Data.List.Sort
import Mathlib.Data.Prod.Lex
import Mathlib.Order.Basic

/-!
# Service tokens

The variables `BSS_API_TOKEN` and `BSS_<NAME>_API_TOKEN` are loaded into a map from hashes to identities, and the map is validated
against the variables. An empty variable counts as unset.
-/

namespace BssCli.Middleware

def sentinel : List Char := "changeme".toList

def minLength : ℕ := 32

def defaultIdentity : List Char := "default".toList

def defaultEnvVar : List Char := "BSS_API_TOKEN".toList

/-- The variables in the order of their names. -/
structure Env where
  vars : List (List Char × List Char)
  sorted : vars.Pairwise fun a b => a.1 < b.1

theorem Env.nodup (env : Env) : (env.vars.map Prod.fst).Nodup := by
  unfold List.Nodup
  rw [List.pairwise_map]
  refine env.sorted.imp ?_
  intro a b hlt heq
  rw [heq] at hlt
  exact List.lt_irrefl _ hlt

def Env.get (env : Env) (name : List Char) : Option (List Char) := (env.vars.find? fun e => e.1 = name).map Prod.snd

theorem Env.get_eq_some {env : Env} {name value : List Char} : env.get name = some value ↔ (name, value) ∈ env.vars := by
  unfold Env.get
  constructor
  · intro h
    obtain ⟨⟨n, v⟩, hfind, hv⟩ := Option.map_eq_some_iff.mp h
    have hname : n = name := by simpa using List.find?_some hfind
    have hvalue : v = value := hv
    rw [← hname, ← hvalue]
    exact List.mem_of_find?_eq_some hfind
  · intro h
    have hsome : (env.vars.find? fun e => e.1 = name).isSome := List.find?_isSome.mpr ⟨_, h, by simp⟩
    obtain ⟨e, he⟩ := Option.isSome_iff_exists.mp hsome
    have hname : e.1 = name := by simpa using List.find?_some he
    rw [he, List.inj_on_of_nodup_map env.nodup (List.mem_of_find?_eq_some he) h hname]
    rfl

/-! ## Loading -/

def stripPrefix (p s : List Char) : Option (List Char) := if p.isPrefixOf s then some (s.drop p.length) else none

def stripSuffix (p s : List Char) : Option (List Char) := if p.isSuffixOf s then some (s.take (s.length - p.length)) else none

section TokenMap

variable {Hash : Type} (lower : List Char → List Char) (hashToken : List Char → Hash)

def identityFromEnvVar (name : List Char) : Option (List Char) :=
  if name = defaultEnvVar then some defaultIdentity
  else
    (stripPrefix "BSS_".toList name).bind fun rest =>
      (stripSuffix "_API_TOKEN".toList rest).bind fun inner => if inner = [] then none else some (lower inner)

structure TokenMap (Hash : Type) where
  entries : List (Hash × List Char)

def TokenMap.identities (map : TokenMap Hash) : List (List Char) := map.entries.map Prod.snd

def loadDefault (env : Env) : List (Hash × List Char) :=
  match env.get defaultEnvVar with
  | some v => if v ≠ [] then [(hashToken v, defaultIdentity)] else []
  | none => []

def loadNamed (e : List Char × List Char) : Option (Hash × List Char) :=
  if e.1 = defaultEnvVar ∨ e.2 = [] then none else (identityFromEnvVar lower e.1).map fun identity => (hashToken e.2, identity)

def loadTokenMap (env : Env) : TokenMap Hash := ⟨loadDefault hashToken env ++ env.vars.filterMap (loadNamed lower hashToken)⟩

/-- The variable is set to the token. -/
def Env.Holds (env : Env) (name token : List Char) : Prop := (name, token) ∈ env.vars ∧ token ≠ []

theorem mem_loadDefault {env : Env} {e : Hash × List Char} :
    e ∈ loadDefault hashToken env ↔ ∃ token, env.Holds defaultEnvVar token ∧ e = (hashToken token, defaultIdentity) := by
  unfold loadDefault Env.Holds
  cases hget : env.get defaultEnvVar with
  | none =>
    constructor
    · intro h
      simp at h
    · rintro ⟨token, ⟨hmem, -⟩, -⟩
      rw [Env.get_eq_some.mpr hmem] at hget
      simp at hget
  | some value =>
    have hvalue := Env.get_eq_some.mp hget
    dsimp only
    constructor
    · intro h
      by_cases hset : value = []
      · simp [hset] at h
      · rw [if_pos hset, List.mem_singleton] at h
        exact ⟨value, ⟨hvalue, hset⟩, h⟩
    · rintro ⟨token, ⟨hmem, hset⟩, rfl⟩
      rw [Env.get_eq_some.mpr hmem, Option.some_inj] at hget
      rw [← hget, if_pos hset]
      exact List.mem_singleton_self _

theorem loadNamed_eq_some {e : List Char × List Char} {x : Hash × List Char} :
    loadNamed lower hashToken e = some x ↔
      e.1 ≠ defaultEnvVar ∧ e.2 ≠ [] ∧ identityFromEnvVar lower e.1 = some x.2 ∧ x.1 = hashToken e.2 := by
  unfold loadNamed
  by_cases h : e.1 = defaultEnvVar ∨ e.2 = []
  · rw [if_pos h]
    constructor
    · intro hnone
      simp at hnone
    · rintro ⟨hname, hvalue, -⟩
      exact absurd h (not_or.mpr ⟨hname, hvalue⟩)
  · rw [if_neg h, Option.map_eq_some_iff]
    obtain ⟨hname, hvalue⟩ := not_or.mp h
    constructor
    · rintro ⟨identity, hidentity, rfl⟩
      exact ⟨hname, hvalue, hidentity, rfl⟩
    · rintro ⟨-, -, hidentity, hhash⟩
      exact ⟨x.2, hidentity, by rw [← hhash]⟩

theorem identityFromEnvVar_default : identityFromEnvVar lower defaultEnvVar = some defaultIdentity := by
  unfold identityFromEnvVar
  rw [if_pos rfl]

/-- The entries are the set variables. -/
theorem mem_entries {env : Env} {e : Hash × List Char} :
    e ∈ (loadTokenMap lower hashToken env).entries ↔
      ∃ name token, env.Holds name token ∧ identityFromEnvVar lower name = some e.2 ∧ e.1 = hashToken token := by
  show e ∈ loadDefault hashToken env ++ env.vars.filterMap (loadNamed lower hashToken) ↔ _
  rw [List.mem_append, mem_loadDefault, List.mem_filterMap]
  constructor
  · rintro (⟨token, hholds, rfl⟩ | ⟨⟨name, token⟩, hmem, hload⟩)
    · exact ⟨defaultEnvVar, token, hholds, identityFromEnvVar_default lower, rfl⟩
    · obtain ⟨-, hset, hidentity, hhash⟩ := (loadNamed_eq_some lower hashToken).mp hload
      exact ⟨name, token, ⟨hmem, hset⟩, hidentity, hhash⟩
  · rintro ⟨name, token, hholds, hidentity, hhash⟩
    by_cases hname : name = defaultEnvVar
    · rw [hname, identityFromEnvVar_default, Option.some_inj] at hidentity
      exact Or.inl ⟨token, hname ▸ hholds, Prod.ext hhash hidentity.symm⟩
    · exact Or.inr ⟨(name, token), hholds.1, (loadNamed_eq_some lower hashToken).mpr ⟨hname, hholds.2, hidentity, hhash⟩⟩

/-- What a set variable other than the default one is loaded as. -/
theorem loadNamed_of_holds {env : Env} {name token i : List Char} (hholds : env.Holds name token) (hname : name ≠ defaultEnvVar)
    (hi : identityFromEnvVar lower name = some i) : loadNamed lower hashToken (name, token) = some (hashToken token, i) :=
  (loadNamed_eq_some lower hashToken).mpr ⟨hname, hholds.2, hi, rfl⟩

theorem mem_named {env : Env} {name token i : List Char} (hholds : env.Holds name token) (hname : name ≠ defaultEnvVar)
    (hi : identityFromEnvVar lower name = some i) : i ∈ (env.vars.filterMap (loadNamed lower hashToken)).map Prod.snd :=
  List.mem_map_of_mem (f := Prod.snd) (List.mem_filterMap.mpr ⟨_, hholds.1, loadNamed_of_holds lower hashToken hholds hname hi⟩)

theorem mem_default {env : Env} {token : List Char} (hholds : env.Holds defaultEnvVar token) :
    defaultIdentity ∈ (loadDefault hashToken env).map Prod.snd :=
  List.mem_map_of_mem (f := Prod.snd) ((mem_loadDefault hashToken).mpr ⟨token, hholds, rfl⟩)

theorem named_eq_of_nodup {env : Env} (h : ((env.vars.filterMap (loadNamed lower hashToken)).map Prod.snd).Nodup)
    {name name' token token' i : List Char} (hholds : env.Holds name token) (hholds' : env.Holds name' token')
    (hname : name ≠ defaultEnvVar) (hname' : name' ≠ defaultEnvVar) (hi : identityFromEnvVar lower name = some i)
    (hi' : identityFromEnvVar lower name' = some i) : name = name' := by
  unfold List.Nodup at h
  rw [List.pairwise_map, List.pairwise_filterMap] at h
  by_contra hne
  have hsymm : Std.Symm fun a a' : List Char × List Char => ∀ x, loadNamed lower hashToken a = some x →
      ∀ x', loadNamed lower hashToken a' = some x' → x.2 ≠ x'.2 := by
    constructor
    intro a a' hdiff x hx x' hx'
    exact (hdiff x' hx' x hx).symm
  have hpairs : (name, token) ≠ (name', token') := fun heq => hne (congrArg Prod.fst heq)
  have hdiff := h.forall hholds.1 hholds'.1 hpairs
  exact hdiff _ (loadNamed_of_holds lower hashToken hholds hname hi) _ (loadNamed_of_holds lower hashToken hholds' hname' hi') rfl

/-- Where no identity occurs twice, no two set variables derive one. -/
theorem name_eq_of_nodup {env : Env} (h : (loadTokenMap lower hashToken env).identities.Nodup) {name name' token token' i : List Char}
    (hholds : env.Holds name token) (hholds' : env.Holds name' token') (hi : identityFromEnvVar lower name = some i)
    (hi' : identityFromEnvVar lower name' = some i) : name = name' := by
  have hnodup : ((loadDefault hashToken env).map Prod.snd ++
      (env.vars.filterMap (loadNamed lower hashToken)).map Prod.snd).Nodup := by
    rw [← List.map_append]
    exact h
  obtain ⟨-, hnamed, hapart⟩ := List.nodup_append.mp hnodup
  by_cases hname : name = defaultEnvVar
  · by_cases hname' : name' = defaultEnvVar
    · rw [hname, hname']
    · rw [hname, identityFromEnvVar_default, Option.some_inj] at hi
      have hdefault := mem_default hashToken (hname ▸ hholds)
      exact absurd hi (hapart _ hdefault _ (mem_named lower hashToken hholds' hname' hi'))
  · by_cases hname' : name' = defaultEnvVar
    · rw [hname', identityFromEnvVar_default, Option.some_inj] at hi'
      have hdefault := mem_default hashToken (hname' ▸ hholds')
      exact absurd hi' (hapart _ hdefault _ (mem_named lower hashToken hholds hname hi))
    · exact named_eq_of_nodup lower hashToken hnamed hholds hholds' hname hname' hi hi'

/-! ## Validating -/

variable [DecidableEq Hash]

-- `debug` prints the list of duplicates, as `{:?}` does.
variable (debug : List (List Char) → String)

def duplicates (identities : List (List Char)) : List (List Char) :=
  (identities.dedup.filter fun i => 1 < identities.count i).mergeSort fun a b => ¬b < a

def candidates (env : Env) : List (List Char) :=
  (if (env.get defaultEnvVar).isSome then [defaultEnvVar] else []) ++
    (env.vars.map Prod.fst).filter fun name => name ≠ defaultEnvVar ∧ (identityFromEnvVar lower name).isSome

def checkToken (env : Env) (name : List Char) : Except String Unit :=
  match env.get name with
  | none => .ok ()
  | some value =>
    if value = [] then .ok ()
    else if value = sentinel then
      .error (String.ofList name ++ " is still the .env.example sentinel value ('changeme'); replace it with a real token. " ++
        "Generate via: openssl rand -hex 32")
    else if value.length < minLength then
      .error (String.ofList name ++ " is too short (" ++ toString value.length ++ " chars; need >=32). " ++
        "Generate via: openssl rand -hex 32")
    else .ok ()

def checkTokens (env : Env) : List (List Char) → Except String Unit
  | [] => .ok ()
  | name :: names => do
    checkToken env name
    checkTokens env names

def validateTokenMap (map : TokenMap Hash) (env : Env) : Except String Unit :=
  if defaultIdentity ∉ map.identities then
    .error ("BSS_API_TOKEN is unset; the 'default' identity is required (v0.3 single-token behaviour). " ++
      "Generate a token via: openssl rand -hex 32")
  else if duplicates map.identities ≠ [] then
    .error ("duplicate service_identity values in token map: " ++ debug (duplicates map.identities) ++
      ". Each BSS_*_API_TOKEN env var must derive a unique identity.")
  else if map.entries.any fun e => 1 < (map.entries.map Prod.fst).count e.1 then
    .error ("identities sharing a token value. Each named token must be a distinct random value — sharing one token across " ++
      "surfaces defeats the blast-radius point of named tokens. Regenerate via: openssl rand -hex 32")
  else checkTokens env (candidates lower env)

def validateTokenMapPresent (env : Env) : Except String (TokenMap Hash) := do
  let map := loadTokenMap lower hashToken env
  validateTokenMap lower debug map env
  .ok map

theorem duplicates_eq_nil {identities : List (List Char)} : duplicates identities = [] ↔ identities.Nodup := by
  unfold duplicates
  rw [← List.length_eq_zero_iff, List.length_mergeSort, List.length_eq_zero_iff, List.filter_eq_nil_iff,
    List.nodup_iff_count_le_one]
  constructor
  · intro h i
    by_cases hi : i ∈ identities
    · simpa using h i (List.mem_dedup.mpr hi)
    · rw [List.count_eq_zero_of_not_mem hi]
      omega
  · intro h i _
    simpa using h i

theorem mem_candidates {env : Env} {name : List Char} :
    name ∈ candidates lower env ↔ (∃ value, (name, value) ∈ env.vars) ∧ (identityFromEnvVar lower name).isSome := by
  unfold candidates
  have hkeys : name ∈ env.vars.map Prod.fst ↔ ∃ value, (name, value) ∈ env.vars := by simp
  rw [List.mem_append, List.mem_filter, hkeys]
  by_cases hname : name = defaultEnvVar
  · rw [hname, identityFromEnvVar_default]
    simp only [← Env.get_eq_some, ← Option.isSome_iff_exists]
    simp
  · have hdefault : name ∉ (if (env.get defaultEnvVar).isSome then [defaultEnvVar] else []) := by
      split <;> simp [hname]
    simp [hdefault, hname]

theorem checkToken_eq_ok {env : Env} {name : List Char} :
    checkToken env name = .ok () ↔ ∀ token, env.Holds name token → token ≠ sentinel ∧ minLength ≤ token.length := by
  unfold checkToken Env.Holds
  simp only [← Env.get_eq_some]
  cases env.get name with
  | none => simp
  | some value =>
    simp only [Option.some_inj]
    constructor
    · rintro h token ⟨rfl, hset⟩
      rw [if_neg hset] at h
      refine ⟨?_, ?_⟩
      · intro hsentinel
        simp [hsentinel] at h
      · by_contra hshort
        rw [if_pos (by omega : value.length < minLength)] at h
        split at h <;> simp at h
    · intro h
      by_cases hset : value = []
      · rw [if_pos hset]
      · obtain ⟨hsentinel, hlength⟩ := h value ⟨rfl, hset⟩
        rw [if_neg hset, if_neg hsentinel, if_neg (by omega)]

theorem checkTokens_eq_ok {env : Env} {names : List (List Char)} :
    checkTokens env names = .ok () ↔ ∀ name ∈ names, checkToken env name = .ok () := by
  induction names with
  | nil => simp [checkTokens]
  | cons name names ih =>
    rw [List.forall_mem_cons, ← ih, checkTokens]
    cases checkToken env name with
    | error e =>
      constructor
      · intro h
        exact nomatch h
      · rintro ⟨h, -⟩
        exact nomatch h
    | ok u =>
      constructor
      · intro h
        exact ⟨rfl, h⟩
      · rintro ⟨-, h⟩
        exact h

theorem validateTokenMap_eq_ok {map : TokenMap Hash} {env : Env} :
    validateTokenMap lower debug map env = .ok () ↔
      defaultIdentity ∈ map.identities ∧ map.identities.Nodup ∧ (map.entries.map Prod.fst).Nodup ∧
        ∀ name ∈ candidates lower env, checkToken env name = .ok () := by
  have hhashes : (map.entries.any fun e => 1 < (map.entries.map Prod.fst).count e.1) = false ↔ (map.entries.map Prod.fst).Nodup := by
    rw [List.any_eq_false, List.nodup_iff_count_le_one]
    constructor
    · intro h x
      by_cases hx : x ∈ map.entries.map Prod.fst
      · obtain ⟨e, he, rfl⟩ := List.mem_map.mp hx
        simpa using h e he
      · rw [List.count_eq_zero_of_not_mem hx]
        omega
    · intro h e _
      simpa using h e.1
  unfold validateTokenMap
  rw [← checkTokens_eq_ok, ← hhashes, ← duplicates_eq_nil]
  by_cases hdefault : defaultIdentity ∈ map.identities
  · by_cases hdup : duplicates map.identities = []
    · cases hhash : map.entries.any fun e => 1 < (map.entries.map Prod.fst).count e.1 with
      | true => simp [hdefault, hdup]
      | false => simp [hdefault, hdup]
    · simp [hdefault, hdup]
  · simp [hdefault]

theorem validateTokenMapPresent_eq_ok {map : TokenMap Hash} {env : Env} :
    validateTokenMapPresent lower hashToken debug env = .ok map ↔
      map = loadTokenMap lower hashToken env ∧ validateTokenMap lower debug map env = .ok () := by
  unfold validateTokenMapPresent
  dsimp only
  cases hvalid : validateTokenMap lower debug (loadTokenMap lower hashToken env) env with
  | error e =>
    constructor
    · intro h
      exact nomatch h
    · rintro ⟨rfl, h⟩
      rw [hvalid] at h
      exact nomatch h
  | ok u =>
    constructor
    · intro h
      have hmap : loadTokenMap lower hashToken env = map := Except.ok.inj h
      exact ⟨hmap.symm, hmap ▸ hvalid⟩
    · rintro ⟨rfl, -⟩
      rfl

/-! ## Looking up -/

/-- The last entry of the hash. -/
def TokenMap.lookup (map : TokenMap Hash) (presented : List Char) : Option (List Char) :=
  if presented = [] then none
  else
    let h := hashToken presented
    map.entries.foldl (fun matched e => if h = e.1 then some e.2 else matched) none

theorem foldl_no_match {h : Hash} {acc : Option (List Char)} {entries : List (Hash × List Char)} (hno : ∀ e ∈ entries, h ≠ e.1) :
    entries.foldl (fun matched e => if h = e.1 then some e.2 else matched) acc = acc := by
  induction entries with
  | nil => rfl
  | cons e entries ih =>
    rw [List.forall_mem_cons] at hno
    rw [List.foldl_cons, if_neg hno.1]
    exact ih hno.2

/-- Where no hash occurs twice, the last entry of a hash is the only one. -/
theorem foldl_match {h : Hash} {i : List Char} {acc : Option (List Char)} {entries : List (Hash × List Char)}
    (hnodup : (entries.map Prod.fst).Nodup) (hmem : (h, i) ∈ entries) :
    entries.foldl (fun matched e => if h = e.1 then some e.2 else matched) acc = some i := by
  induction entries generalizing acc with
  | nil => simp at hmem
  | cons e entries ih =>
    rw [List.map_cons, List.nodup_cons] at hnodup
    rw [List.foldl_cons]
    rcases List.mem_cons.mp hmem with rfl | hmem
    · rw [if_pos rfl]
      apply foldl_no_match
      intro e he heq
      exact hnodup.1 (List.mem_map.mpr ⟨e, he, heq.symm⟩)
    · exact ih hnodup.2 hmem

theorem lookup_eq_some {map : TokenMap Hash} (hnodup : (map.entries.map Prod.fst).Nodup) {t i : List Char} :
    map.lookup hashToken t = some i ↔ t ≠ [] ∧ (hashToken t, i) ∈ map.entries := by
  unfold TokenMap.lookup
  by_cases ht : t = []
  · simp [ht]
  · rw [if_neg ht]
    constructor
    · intro h
      refine ⟨ht, ?_⟩
      by_cases hmatch : ∃ e ∈ map.entries, hashToken t = e.1
      · obtain ⟨e, he, heq⟩ := hmatch
        have he' : (hashToken t, e.2) ∈ map.entries := heq ▸ he
        rw [foldl_match hnodup he', Option.some_inj] at h
        exact h ▸ he'
      · rw [foldl_no_match fun e he heq => hmatch ⟨e, he, heq⟩] at h
        simp at h
    · rintro ⟨-, hmem⟩
      exact foldl_match hnodup hmem

/-- A token is accepted as the identity of the one set variable that holds it, no two set variables derive one identity, and neither a
short token nor the sentinel is accepted. -/
theorem token_identifies_one {lower : List Char → List Char} {hashToken : List Char → Hash} (hinj : Function.Injective hashToken)
    {debug : List (List Char) → String} {env : Env} {map : TokenMap Hash}
    (haccepted : validateTokenMapPresent lower hashToken debug env = .ok map) :
    (∀ t i, map.lookup hashToken t = some i ↔ ∃ name, env.Holds name t ∧ identityFromEnvVar lower name = some i) ∧
      (∀ name name' token token' i, env.Holds name token → env.Holds name' token' → identityFromEnvVar lower name = some i →
        identityFromEnvVar lower name' = some i → name = name') ∧
      ∀ t i, map.lookup hashToken t = some i → minLength ≤ t.length ∧ t ≠ sentinel := by
  obtain ⟨rfl, hvalid⟩ := (validateTokenMapPresent_eq_ok lower hashToken debug).mp haccepted
  obtain ⟨-, hidentities, hhashes, hchecked⟩ := (validateTokenMap_eq_ok lower debug).mp hvalid
  have hlookup : ∀ t i, (loadTokenMap lower hashToken env).lookup hashToken t = some i ↔
      ∃ name, env.Holds name t ∧ identityFromEnvVar lower name = some i := by
    intro t i
    rw [lookup_eq_some hashToken hhashes, mem_entries]
    constructor
    · rintro ⟨-, name, token, hholds, hidentity, hhash⟩
      have htoken : t = token := hinj hhash
      exact ⟨name, htoken ▸ hholds, hidentity⟩
    · rintro ⟨name, hholds, hidentity⟩
      exact ⟨hholds.2, name, t, hholds, hidentity, rfl⟩
  refine ⟨hlookup, ?_, ?_⟩
  · intro name name' token token' i hholds hholds' hi hi'
    exact name_eq_of_nodup lower hashToken hidentities hholds hholds' hi hi'
  · intro t i h
    obtain ⟨name, hholds, hidentity⟩ := (hlookup t i).mp h
    have hcandidate : name ∈ candidates lower env := by
      rw [mem_candidates, hidentity]
      exact ⟨⟨t, hholds.1⟩, rfl⟩
    obtain ⟨hsentinel, hlength⟩ := checkToken_eq_ok.mp (hchecked name hcandidate) t hholds
    exact ⟨hlength, hsentinel⟩

end TokenMap

def lowerAscii : List Char → List Char := List.map Char.toLower

/-- Two tokens, and a third variable that is empty. -/
def portalEnv : Env where
  vars :=
    [(defaultEnvVar, List.replicate 32 'a'), ("BSS_DEFAULT_API_TOKEN".toList, []),
      ("BSS_PORTAL_API_TOKEN".toList, List.replicate 32 'b')]
  sorted := by decide

theorem portalEnv_accepted : validateTokenMapPresent lowerAscii id (fun _ => "") portalEnv =
    .ok ⟨[(List.replicate 32 'a', defaultIdentity), (List.replicate 32 'b', "portal".toList)]⟩ := by
  rw [validateTokenMapPresent_eq_ok, validateTokenMap_eq_ok]
  exact ⟨by rfl, by decide, by decide, by decide, by decide⟩

theorem token_identifies_portal :
    validateTokenMapPresent lowerAscii id (fun _ => "") portalEnv =
        .ok ⟨[(List.replicate 32 'a', defaultIdentity), (List.replicate 32 'b', "portal".toList)]⟩ ∧
      TokenMap.lookup id ⟨[(List.replicate 32 'a', defaultIdentity), (List.replicate 32 'b', "portal".toList)]⟩
        (List.replicate 32 'b') = some "portal".toList := by
  refine ⟨portalEnv_accepted, ?_⟩
  have h := token_identifies_one Function.injective_id portalEnv_accepted
  exact (h.1 _ _).mpr ⟨"BSS_PORTAL_API_TOKEN".toList, ⟨by decide, by decide⟩, by decide⟩

/-- An empty variable is no token, and it may derive the identity of another. -/
theorem empty_token_departs :
    ∃ map, validateTokenMapPresent lowerAscii id (fun _ => "") portalEnv = .ok map ∧
      ¬ (∀ t i, map.lookup id t = some i ↔ ∃ name, (name, t) ∈ portalEnv.vars ∧ identityFromEnvVar lowerAscii name = some i) ∧
        ¬ ∀ name name' t t' i, (name, t) ∈ portalEnv.vars → (name', t') ∈ portalEnv.vars →
          identityFromEnvVar lowerAscii name = some i → identityFromEnvVar lowerAscii name' = some i → name = name' := by
  refine ⟨_, portalEnv_accepted, ?_, ?_⟩
  · intro h
    have hempty := (h [] defaultIdentity).mpr ⟨"BSS_DEFAULT_API_TOKEN".toList, by decide, by decide⟩
    exact nomatch hempty
  · intro h
    exact absurd (h defaultEnvVar "BSS_DEFAULT_API_TOKEN".toList (List.replicate 32 'a') [] defaultIdentity (by decide) (by decide)
      (by decide) (by decide)) (by decide)

end BssCli.Middleware
