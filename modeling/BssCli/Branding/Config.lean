import BssCli.Lib.Reload
import BssCli.Lib.Text

/-!
# Branding

The `[branding]` table of `settings.toml`, with what the environment says of it. Branding must never take a service down.
-/

open Text

namespace BssCli.Branding

/-! ## Marks, themes and logos -/

def forbiddenChars : List Char := ['<', '>', '&', '"', '\'']

/-- General category `Cc`. -/
def isControl (c : Char) : Bool := c.toNat < 0x20 || (0x7F ≤ c.toNat && c.toNat < 0xA0)

def isPrintable (c : Char) : Bool := c = ' ' || (!isControl c && !isWhitespace c)

def validateMark (value : List Char) : Except String (List Char) :=
  if ¬ (1 ≤ (trim value).length ∧ (trim value).length ≤ 3) then .error "mark must be 1-3 characters"
  else if ¬ (trim value).all isPrintable then .error "mark must be printable characters only"
  else if (trim value).any fun c => c ∈ forbiddenChars then .error "mark must not contain <, >, &, quotes"
  else .ok (trim value)

def themes : List (List Char) :=
  ["phosphor".toList, "amber-crt".toList, "ice".toList, "magenta".toList, "paper".toList, "solarized-dark".toList]

def defaultThemeId : List Char := "phosphor".toList

def logoFilenames : List (List Char) := ["logo.png".toList, "logo.jpg".toList, "logo.webp".toList]

def isLegalLogoFilename (filename : List Char) : Bool := filename ∈ logoFilenames

/-! ## Settings -/

/-- The table as it stands in the file. -/
structure RawBrandingSettings where
  brandName : List Char
  theme : List Char
  mark : List Char
  /-- Empty where no logo was uploaded. -/
  logoImage : List Char
  deriving DecidableEq

structure BrandingSettings where
  brandName : List Char
  theme : List Char
  mark : List Char
  logoImage : List Char
  deriving DecidableEq

def BrandingSettings.default : BrandingSettings := ⟨"bss-cli".toList, defaultThemeId, ['$'], []⟩

/-- `debug` is `{:?}`. -/
def BrandingSettings.fromRaw (debug : List Char → String) (raw : RawBrandingSettings) : Except String BrandingSettings :=
  if ¬ (1 ≤ (trim raw.brandName).length ∧ (trim raw.brandName).length ≤ 40) then .error "brand_name must be 1-40 characters"
  else if raw.theme ∉ themes then
    .error ("unknown theme " ++ debug raw.theme ++ " — pick one of: phosphor, amber-crt, ice, magenta, paper, solarized-dark")
  else match validateMark raw.mark with
    | .error e => .error e
    | .ok mark =>
      if raw.logoImage ≠ [] ∧ ¬ isLegalLogoFilename raw.logoImage then
        .error "logo_image must be one of: logo.png, logo.jpg, logo.webp (or empty)"
      else .ok ⟨trim raw.brandName, raw.theme, mark, raw.logoImage⟩

def BrandingSettings.toRaw (s : BrandingSettings) : RawBrandingSettings := ⟨s.brandName, s.theme, s.mark, s.logoImage⟩

/-- What a page can be built from. -/
structure BrandingSettings.Legal (s : BrandingSettings) : Prop where
  brandName : trim s.brandName = s.brandName ∧ 1 ≤ s.brandName.length ∧ s.brandName.length ≤ 40
  theme : s.theme ∈ themes
  mark : trim s.mark = s.mark ∧ 1 ≤ s.mark.length ∧ s.mark.length ≤ 3
  markChars : ∀ c ∈ s.mark, isPrintable c = true ∧ c ∉ forbiddenChars
  logoImage : s.logoImage = [] ∨ s.logoImage ∈ logoFilenames

theorem ite_error_eq_ok {α : Type} {c : Prop} [Decidable c] {e : String} {x : Except String α} {a : α} :
    (if c then .error e else x) = .ok a ↔ ¬ c ∧ x = .ok a := by
  by_cases hc : c <;> simp [hc]

theorem validateMark_eq_ok {value mark : List Char} : validateMark value = .ok mark ↔ (1 ≤ (trim value).length ∧ (trim value).length ≤ 3) ∧
    (∀ c ∈ trim value, isPrintable c = true ∧ c ∉ forbiddenChars) ∧ trim value = mark := by
  unfold validateMark
  rw [ite_error_eq_ok, ite_error_eq_ok, ite_error_eq_ok, not_not, not_not, List.all_eq_true, Bool.not_eq_true, List.any_eq_false,
    Except.ok.injEq]
  simp only [decide_eq_true_eq, forall_and, and_assoc]

/-- What is accepted is legal, and is what was given without its blanks. -/
theorem fromRaw_eq_ok {debug : List Char → String} {raw : RawBrandingSettings} {s : BrandingSettings} :
    BrandingSettings.fromRaw debug raw = .ok s ↔
      s = ⟨trim raw.brandName, raw.theme, trim raw.mark, raw.logoImage⟩ ∧ s.Legal := by
  unfold BrandingSettings.fromRaw
  rw [ite_error_eq_ok, ite_error_eq_ok, not_not, not_not]
  constructor
  · rintro ⟨hname, htheme, h⟩
    cases hmark : validateMark raw.mark with
    | error e => simp [hmark] at h
    | ok mark =>
      obtain ⟨hlen, hchars, rfl⟩ := validateMark_eq_ok.mp hmark
      simp only [hmark, ite_error_eq_ok] at h
      obtain ⟨hlogo, h⟩ := h
      obtain rfl := Except.ok.inj h
      refine ⟨rfl, ⟨trim_trim _, hname⟩, htheme, ⟨trim_trim _, hlen⟩, hchars, ?_⟩
      simpa [isLegalLogoFilename, or_iff_not_imp_left] using hlogo
  · rintro ⟨rfl, hlegal⟩
    have hmark : validateMark raw.mark = .ok (trim raw.mark) := validateMark_eq_ok.mpr ⟨hlegal.mark.2, hlegal.markChars, rfl⟩
    refine ⟨hlegal.brandName.2, hlegal.theme, ?_⟩
    simp only [hmark, ite_error_eq_ok, and_true]
    simpa [isLegalLogoFilename, or_iff_not_imp_left] using hlegal.logoImage

theorem legal_default : BrandingSettings.default.Legal where
  brandName := by decide
  theme := List.mem_cons_self
  mark := by decide
  markChars := List.forall_mem_singleton.mpr (by decide)
  logoImage := .inl rfl

theorem BrandingSettings.Legal.of_fromRaw {debug : List Char → String} {raw : RawBrandingSettings} {s : BrandingSettings}
    (h : BrandingSettings.fromRaw debug raw = .ok s) : s.Legal := (fromRaw_eq_ok.mp h).2

/-! ## Reading -/

/-- The bytes of a file, and when it was written, in nanoseconds. -/
structure File where
  text : List Char
  mtime : ℕ

/-- What the environment of a process says. -/
structure Overrides where
  brandName : Option (List Char)
  theme : Option (List Char)
  mark : Option (List Char)

/-- A variable that is not there, or blank, says nothing. -/
def said (var : Option (List Char)) : Option (List Char) := (var.map trim).filter (· ≠ [])

/-- An override that is not legal takes the others with it. -/
def applyEnvOverrides (debug : List Char → String) (env : Overrides) (settings : BrandingSettings) : BrandingSettings :=
  let raw : RawBrandingSettings :=
    ⟨(said env.brandName).getD settings.brandName, (said env.theme).getD settings.theme, (said env.mark).getD settings.mark, settings.logoImage⟩
  if said env.brandName = none ∧ said env.theme = none ∧ said env.mark = none then settings
  else match BrandingSettings.fromRaw debug raw with
    | .ok s => s
    | .error _ => settings

theorem legal_applyEnvOverrides (debug : List Char → String) (env : Overrides) {s : BrandingSettings} (h : s.Legal) :
    (applyEnvOverrides debug env s).Legal := by
  unfold applyEnvOverrides
  dsimp only
  split_ifs
  · exact h
  · split
    · exact .of_fromRaw ‹_›
    · exact h

/-- The snapshot that a page is built from. -/
structure BrandingView where
  brandName : List Char
  theme : List Char
  mark : List Char
  /-- The file, with the second in which it was written. -/
  logo : Option (List Char × ℕ)

/-- `none` is the panic of a theme that is not there. `logos` says when an image was written. -/
def viewOf (logos : List Char → Option ℕ) (s : BrandingSettings) : Option BrandingView :=
  let logo := if s.logoImage = [] then none else (logos s.logoImage).map fun t => (s.logoImage, t / 1000000000)
  if s.theme ∈ themes then some ⟨s.brandName, s.theme, s.mark, logo⟩ else none

/-- A page can be built from it. -/
structure LegalView (v : BrandingView) : Prop where
  brandName : 1 ≤ v.brandName.length ∧ v.brandName.length ≤ 40
  theme : v.theme ∈ themes
  mark : 1 ≤ v.mark.length ∧ v.mark.length ≤ 3
  markChars : ∀ c ∈ v.mark, isPrintable c = true ∧ c ∉ forbiddenChars
  logo : ∀ l ∈ v.logo, l.1 ∈ logoFilenames

theorem viewOf_legal {s : BrandingSettings} (h : s.Legal) (logos : List Char → Option ℕ) : ∃ v, viewOf logos s = some v ∧ LegalView v := by
  unfold viewOf
  rw [if_pos h.theme]
  refine ⟨_, rfl, h.brandName.2, h.theme, h.mark.2, h.markChars, fun l hl => ?_⟩
  dsimp only at hl
  split_ifs at hl with hnone
  · cases hl
  · obtain ⟨t, -, rfl⟩ := Option.map_eq_some_iff.mp hl
    exact h.logoImage.resolve_left hnone

/-- A reader of `settings.toml`. A file that is not there is one with the defaults, and so is the first one that cannot be read. -/
def settingsReader : Reloader (Option ℕ) String BrandingSettings (Option (Kept (Option ℕ) BrandingSettings)) :=
  .caching (fun kept now => kept = now) fun _ => some .default

/-- `toml` reads the table from the text of the file. -/
def loadSettings (debug : List Char → String) (toml : List Char → Except String RawBrandingSettings) :
    Option File → Except String BrandingSettings
  | none => .ok .default
  | some f =>
    match toml f.text with
    | .ok raw => BrandingSettings.fromRaw debug raw
    | .error e => .error e

theorem legal_loadSettings {debug : List Char → String} {toml : List Char → Except String RawBrandingSettings} {f : Option File}
    {s : BrandingSettings} (h : loadSettings debug toml f = .ok s) : s.Legal := by
  unfold loadSettings at h
  split at h
  · obtain rfl := Except.ok.inj h
    exact legal_default
  · split at h
    · exact .of_fromRaw h
    · cases h

end BssCli.Branding
