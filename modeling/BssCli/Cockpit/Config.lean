import Mathlib.Logic.Function.Basic
import BssCli.Branding.Config

/-!
# Settings that are read again

`OPERATOR.md` and `settings.toml` are read by every process that shows them, and written by hand or from the pages of the cockpit. Each
process keeps what it read last.
-/

open Text

namespace BssCli.Cockpit.Config

open Branding

/-! ## The files -/

inductive FileName
  | operatorMd
  | settingsToml
  deriving DecidableEq

/-- `.bss-cli`, with the templates beside the files. -/
structure Directory where
  files : FileName → Option File
  templates : FileName → Option (List Char)
  logos : List Char → Option ℕ

def Directory.write (d : Directory) (name : FileName) (f : Option File) : Directory := { d with files := Function.update d.files name f }

/-- `toml` and `toml_edit`, and what the binary brings along. `σ` are the settings of the cockpit. -/
structure Toml (σ : Type) where
  cockpit : List Char → Except String σ
  branding : List Char → Except String RawBrandingSettings
  setBranding : List Char → BrandingSettings → Except String (List Char)
  embedded : FileName → List Char
  debug : List Char → String

variable {ρ σ : Type} (toml : Toml σ)

/-- A file that is not there comes from its template, or from the binary. -/
def autobootstrapIfMissing (now : ℕ) (d : Directory) (name : FileName) : File :=
  (d.files name).getD ⟨(d.templates name).getD (toml.embedded name), now⟩

def bootstrapped (now : ℕ) (d : Directory) (name : FileName) : Directory := d.write name (some (autobootstrapIfMissing toml now d name))

structure CockpitConfig (σ : Type) where
  operatorMd : List Char
  settings : σ

def loadFromDisk (operatorMd settings : File) : Except String (CockpitConfig σ) :=
  match toml.cockpit settings.text with
  | .ok s => .ok ⟨operatorMd.text, s⟩
  | .error e => .error e

/-- Both files are to be no newer than they were. Where nothing could be read yet, the error goes out. -/
def configReader : Reloader (ℕ × ℕ) String (CockpitConfig σ) (Option (Kept (ℕ × ℕ) (CockpitConfig σ))) :=
  .caching (fun kept now => now.1 ≤ kept.1 && now.2 ≤ kept.2) fun _ => none

/-! ## Processes -/

/-- How the two files are read. `κ` and `β` are what a process keeps. -/
structure Readers (σ κ β : Type) where
  config : Reloader (ℕ × ℕ) String (CockpitConfig σ) κ
  branding : Reloader (Option ℕ) String BrandingSettings β

/-- Those of the source. -/
def cached : Readers σ (Option (Kept (ℕ × ℕ) (CockpitConfig σ))) (Option (Kept (Option ℕ) BrandingSettings)) := ⟨configReader, settingsReader⟩

/-- Those that load every time. -/
def uncached : Readers σ (Option (CockpitConfig σ)) (Option BrandingSettings) :=
  ⟨.plain fun _ => none, .plain fun _ => some .default⟩

structure World (ρ κ β : Type) where
  dir : Directory
  config : ρ → κ
  branding : ρ → β

inductive Op (ρ : Type)
  | current (p : ρ)
  | branding (p : ρ)
  | writeOperatorMd (p : ρ) (content : List Char)
  | writeSettingsToml (p : ρ) (content : List Char)
  | writeBrandingSettings (p : ρ) (update : BrandingSettings)
  /-- By hand, and with whatever else writes files. -/
  | edit (name : FileName) (content : List Char)
  | delete (name : FileName)
  | logo (filename : List Char) (there : Bool)

inductive Reply (σ : Type)
  | config (r : Except String (CockpitConfig σ))
  /-- `none` is a panic. -/
  | branding (v : Option BrandingView)
  | settings (r : Except String σ)
  | done (r : Except String Unit)

section

variable [DecidableEq ρ] {κ β : Type} (readers : Readers σ κ β) (overrides : ρ → Overrides)

/-- `bss_cockpit::config::current` -/
def current (now : ℕ) (p : ρ) (w : World ρ κ β) : Reply σ × World ρ κ β :=
  let operatorMd := autobootstrapIfMissing toml now w.dir .operatorMd
  let settings := autobootstrapIfMissing toml now w.dir .settingsToml
  let r := readers.config.read (operatorMd.mtime, settings.mtime) (loadFromDisk toml operatorMd settings) (w.config p)
  (.config r.1, ⟨bootstrapped toml now (bootstrapped toml now w.dir .operatorMd) .settingsToml, Function.update w.config p r.2, w.branding⟩)

/-- `bss_branding::current` -/
def brandingCurrent (p : ρ) (w : World ρ κ β) : Reply σ × World ρ κ β :=
  let settings := w.dir.files .settingsToml
  let r := readers.branding.read (settings.map File.mtime) (loadSettings toml.debug toml.branding settings) (w.branding p)
  let view := match r.1 with
    | .ok s => viewOf w.dir.logos (applyEnvOverrides toml.debug (overrides p) s)
    | .error _ => none
  (.branding view, ⟨w.dir, w.config, Function.update w.branding p r.2⟩)

def writeOperatorMd (now : ℕ) (p : ρ) (content : List Char) (w : World ρ κ β) : Reply σ × World ρ κ β :=
  if trim content = [] then (.done (.error "OPERATOR.md cannot be empty"), w)
  else (.done (.ok ()), ⟨w.dir.write .operatorMd (some ⟨content, now⟩), Function.update w.config p readers.config.empty, w.branding⟩)

/-- What is written is new for the process that writes it. -/
def settingsWritten (now : ℕ) (p : ρ) (content : List Char) (w : World ρ κ β) : World ρ κ β where
  dir := w.dir.write .settingsToml (some ⟨content, now⟩)
  config := Function.update w.config p readers.config.empty
  branding := Function.update w.branding p readers.branding.empty

def writeSettingsToml (now : ℕ) (p : ρ) (content : List Char) (w : World ρ κ β) : Reply σ × World ρ κ β :=
  match toml.cockpit content with
  | .error e => (.settings (.error e), w)
  | .ok validated => (.settings (.ok validated), settingsWritten readers now p content w)

def writeBrandingSettings (now : ℕ) (p : ρ) (update : BrandingSettings) (w : World ρ κ β) : Reply σ × World ρ κ β :=
  let existing := autobootstrapIfMissing toml now w.dir .settingsToml
  let w' : World ρ κ β := { w with dir := bootstrapped toml now w.dir .settingsToml }
  match toml.setBranding existing.text update with
  | .error e => (.done (.error e), w')
  | .ok content =>
    match toml.cockpit content with
    | .error e => (.done (.error e), w')
    | .ok _ => (.done (.ok ()), settingsWritten readers now p content w')

def Op.run (now : ℕ) (w : World ρ κ β) : Op ρ → Reply σ × World ρ κ β
  | .current p => Config.current toml readers now p w
  | .branding p => brandingCurrent toml readers overrides p w
  | .writeOperatorMd p content => Config.writeOperatorMd readers now p content w
  | .writeSettingsToml p content => Config.writeSettingsToml toml readers now p content w
  | .writeBrandingSettings p update => Config.writeBrandingSettings toml readers now p update w
  | .edit name content => (.done (.ok ()), { w with dir := w.dir.write name (some ⟨content, now⟩) })
  | .delete name => (.done (.ok ()), { w with dir := w.dir.write name none })
  | .logo filename there =>
    (.done (.ok ()), { w with dir := { w.dir with logos := Function.update w.dir.logos filename (if there then some now else none) } })

/-- What comes of some operations, each at its time. -/
def replies : World ρ κ β → List (ℕ × Op ρ) → List (Reply σ)
  | _, [] => []
  | w, (now, op) :: ops => (op.run toml readers overrides now w).1 :: replies (op.run toml readers overrides now w).2 ops

/-- Nothing was read yet. -/
def started (dir : Directory) : World ρ κ β := ⟨dir, fun _ => readers.config.empty, fun _ => readers.branding.empty⟩

end

/-! ## What is kept is what is there -/

section

variable {toml} {d : Directory} {T now : ℕ} {name : FileName}

/-- No file is newer than `T`. -/
def Directory.Before (T : ℕ) (d : Directory) : Prop := ∀ name, ∀ f ∈ d.files name, f.mtime ≤ T

/-- A file that is no newer than what was read is what was read. -/
structure ConfigFresh (toml : Toml σ) (d : Directory) (T : ℕ) (k : Kept (ℕ × ℕ) (CockpitConfig σ)) : Prop where
  operatorMd : ∀ f ∈ d.files .operatorMd, f.mtime ≤ k.stamp.1 → f.text = k.value.operatorMd
  settings : ∀ f ∈ d.files .settingsToml, f.mtime ≤ k.stamp.2 → toml.cockpit f.text = .ok k.value.settings
  stamps : k.stamp.1 ≤ T ∧ k.stamp.2 ≤ T

/-- A file as old as what was read is what was read, or cannot be read. -/
structure BrandingFresh (toml : Toml σ) (d : Directory) (T : ℕ) (k : Kept (Option ℕ) BrandingSettings) : Prop where
  settings : (d.files .settingsToml).map File.mtime = k.stamp →
    ∀ s, loadSettings toml.debug toml.branding (d.files .settingsToml) = .ok s → s = k.value
  stamp : ∀ t ∈ k.stamp, t ≤ T
  missing : k.stamp = none → k.value = .default

theorem files_write (d : Directory) (name name' : FileName) (f : Option File) :
    (d.write name f).files name' = if name' = name then f else d.files name' := Function.update_apply ..

theorem Directory.Before.write (h : d.Before T) (hnow : T ≤ now) {f : Option File} (hf : ∀ g ∈ f, g.mtime = now) :
    (d.write name f).Before now := by
  intro name' g hg
  rw [files_write] at hg
  split_ifs at hg
  · exact (hf g hg).le
  · exact (h name' g hg).trans hnow

theorem ConfigFresh.write {k : Kept (ℕ × ℕ) (CockpitConfig σ)} (h : ConfigFresh toml d T k) (hnow : T < now) {f : Option File}
    (hf : ∀ g ∈ f, g.mtime = now) : ConfigFresh toml (d.write name f) T k := by
  have hstamps := h.stamps
  refine ⟨fun g hg hle => ?_, fun g hg hle => ?_, hstamps⟩ <;> rw [files_write] at hg <;> split_ifs at hg
  · have hnew := hf g hg
    omega
  · exact h.operatorMd g hg hle
  · have hnew := hf g hg
    omega
  · exact h.settings g hg hle

theorem BrandingFresh.write {k : Kept (Option ℕ) BrandingSettings} (h : BrandingFresh toml d T k) (hnow : T < now) {f : Option File}
    (hf : ∀ g ∈ f, g.mtime = now) : BrandingFresh toml (d.write name f) T k := by
  refine ⟨fun hsame s hs => ?_, h.stamp, h.missing⟩
  rw [files_write] at hsame hs
  split_ifs at hsame hs
  · cases f with
    | none =>
      rw [h.missing hsame.symm]
      exact (Except.ok.inj hs).symm
    | some g =>
      have hle := h.stamp g.mtime hsame.symm
      have hnew := hf g rfl
      omega
  · exact h.settings hsame s hs

/-- A directory with a file that was missing is one that was written, and one with a file is as it was. -/
theorem bootstrapped_eq (toml : Toml σ) (now : ℕ) (d : Directory) (name : FileName) :
    ∃ f : Option File, bootstrapped toml now d name = d.write name f ∧ f = some (autobootstrapIfMissing toml now d name) ∧
      ((d.files name = f) ∨ d.files name = none ∧ ∀ g ∈ f, g.mtime = now) := by
  refine ⟨_, rfl, rfl, ?_⟩
  unfold autobootstrapIfMissing
  cases d.files name with
  | some f => exact .inl rfl
  | none =>
    refine .inr ⟨rfl, ?_⟩
    rintro g hg
    obtain rfl := Option.some.inj hg
    rfl

theorem write_self (d : Directory) (name : FileName) : d.write name (d.files name) = d := by
  unfold Directory.write
  rw [Function.update_eq_self]

theorem loadFromDisk_eq_ok {operatorMd settings : File} {a : CockpitConfig σ} :
    loadFromDisk toml operatorMd settings = .ok a ↔ a.operatorMd = operatorMd.text ∧ toml.cockpit settings.text = .ok a.settings := by
  unfold loadFromDisk
  obtain ⟨text, s⟩ := a
  cases toml.cockpit settings.text <;> simp [eq_comm]

theorem config_read {stamp : ℕ × ℕ} {load : Except String (CockpitConfig σ)} {kept : Option (Kept (ℕ × ℕ) (CockpitConfig σ))}
    (h : Reloader.Current (fun kept now => now.1 ≤ kept.1 && now.2 ≤ kept.2) stamp load kept) :
    (configReader.read stamp load kept).1 = ((uncached (σ := σ)).config.read stamp load (kept.map Kept.value)).1 ∧
      (configReader.read stamp load kept).2.map Kept.value = ((uncached (σ := σ)).config.read stamp load (kept.map Kept.value)).2 :=
  Reloader.caching_read h

theorem branding_read {stamp : Option ℕ} {load : Except String BrandingSettings} {kept : Option (Kept (Option ℕ) BrandingSettings)}
    (h : Reloader.Current (fun kept now => decide (kept = now)) stamp load kept) :
    (settingsReader.read stamp load kept).1 = ((uncached (σ := σ)).branding.read stamp load (kept.map Kept.value)).1 ∧
      (settingsReader.read stamp load kept).2.map Kept.value = ((uncached (σ := σ)).branding.read stamp load (kept.map Kept.value)).2 :=
  Reloader.caching_read h

abbrev Caching (ρ σ : Type) := World ρ (Option (Kept (ℕ × ℕ) (CockpitConfig σ))) (Option (Kept (Option ℕ) BrandingSettings))

abbrev Plain (ρ σ : Type) := World ρ (Option (CockpitConfig σ)) (Option BrandingSettings)

/-- Both worlds hold the same. What the first one keeps is fresh and no newer than `S`, and no file is newer than `T`. -/
structure Agree (toml : Toml σ) (S T : ℕ) (w : Caching ρ σ) (w' : Plain ρ σ) : Prop where
  dir : w'.dir = w.dir
  config : ∀ p, w'.config p = (w.config p).map Kept.value
  branding : ∀ p, w'.branding p = (w.branding p).map Kept.value
  before : w.dir.Before T
  configFresh : ∀ p, ∀ k ∈ w.config p, ConfigFresh toml w.dir S k
  brandingFresh : ∀ p, ∀ k ∈ w.branding p, BrandingFresh toml w.dir S k

variable {w : Caching ρ σ} {w' : Plain ρ σ} {p : ρ} {S : ℕ}

theorem Agree.mono (h : Agree toml S T w w') {S' T' : ℕ} (hS : S ≤ S') (hT : T ≤ T') : Agree toml S' T' w w' where
  dir := h.dir
  config := h.config
  branding := h.branding
  before := fun name f hf => (h.before name f hf).trans hT
  configFresh := fun p k hk =>
    let hfresh := h.configFresh p k hk
    ⟨hfresh.operatorMd, hfresh.settings, hfresh.stamps.1.trans hS, hfresh.stamps.2.trans hS⟩
  brandingFresh := fun p k hk =>
    let hfresh := h.brandingFresh p k hk
    ⟨hfresh.settings, fun t ht => (hfresh.stamp t ht).trans hS, hfresh.missing⟩

theorem Agree.write (h : Agree toml S T w w') (name : FileName) (hS : S < now) (hT : T ≤ now) {f : Option File} (hf : ∀ g ∈ f, g.mtime = now) :
    Agree toml S now { w with dir := w.dir.write name f } { w' with dir := w'.dir.write name f } where
  dir := by rw [h.dir]
  config := h.config
  branding := h.branding
  before := h.before.write hT hf
  configFresh := fun p k hk => (h.configFresh p k hk).write hS hf
  brandingFresh := fun p k hk => (h.brandingFresh p k hk).write hS hf

theorem Agree.bootstrapped (h : Agree toml S T w w') (hS : S < now) (hT : T ≤ now) (name : FileName) :
    Agree toml S now { w with dir := Config.bootstrapped toml now w.dir name } { w' with dir := Config.bootstrapped toml now w'.dir name } := by
  obtain ⟨f, hboot, -, hsame | ⟨-, hnew⟩⟩ := bootstrapped_eq toml now w.dir name
  · rw [h.dir, hboot, ← hsame, write_self]
    have hmono := h.mono le_rfl hT
    exact ⟨rfl, hmono.config, hmono.branding, hmono.before, hmono.configFresh, hmono.brandingFresh⟩
  · have hwrite := h.write name hS hT hnew
    rw [h.dir] at hwrite
    rw [h.dir, hboot]
    exact hwrite

theorem Agree.setLogos (h : Agree toml S T w w') (logos : List Char → Option ℕ) :
    Agree toml S T { w with dir := { w.dir with logos := logos } } { w' with dir := { w'.dir with logos := logos } } where
  dir := by rw [h.dir]
  config := h.config
  branding := h.branding
  before := h.before
  configFresh := fun p k hk => ⟨(h.configFresh p k hk).operatorMd, (h.configFresh p k hk).settings, (h.configFresh p k hk).stamps⟩
  brandingFresh := fun p k hk => ⟨(h.brandingFresh p k hk).settings, (h.brandingFresh p k hk).stamp, (h.brandingFresh p k hk).missing⟩

variable [DecidableEq ρ]

theorem Agree.setConfig (h : Agree toml S T w w') {k : Option (Kept (ℕ × ℕ) (CockpitConfig σ))} (hk : ∀ k' ∈ k, ConfigFresh toml w.dir S k')
    {a : Option (CockpitConfig σ)} (ha : k.map Kept.value = a) :
    Agree toml S T { w with config := Function.update w.config p k } { w' with config := Function.update w'.config p a } where
  dir := h.dir
  config := fun q => by
    simp only [Function.update_apply]
    split_ifs
    · exact ha.symm
    · exact h.config q
  branding := h.branding
  before := h.before
  configFresh := fun q k' hk' => by
    simp only [Function.update_apply] at hk'
    split_ifs at hk'
    · exact hk k' hk'
    · exact h.configFresh q k' hk'
  brandingFresh := h.brandingFresh

theorem Agree.setBranding (h : Agree toml S T w w') {k : Option (Kept (Option ℕ) BrandingSettings)}
    (hk : ∀ k' ∈ k, BrandingFresh toml w.dir S k') {a : Option BrandingSettings} (ha : k.map Kept.value = a) :
    Agree toml S T { w with branding := Function.update w.branding p k } { w' with branding := Function.update w'.branding p a } where
  dir := h.dir
  config := h.config
  branding := fun q => by
    simp only [Function.update_apply]
    split_ifs
    · exact ha.symm
    · exact h.branding q
  before := h.before
  configFresh := h.configFresh
  brandingFresh := fun q k' hk' => by
    simp only [Function.update_apply] at hk'
    split_ifs at hk'
    · exact hk k' hk'
    · exact h.brandingFresh q k' hk'

theorem ConfigFresh.mono {k : Kept (ℕ × ℕ) (CockpitConfig σ)} (h : ConfigFresh toml d S k) (hS : S ≤ T) : ConfigFresh toml d T k :=
  ⟨h.operatorMd, h.settings, h.stamps.1.trans hS, h.stamps.2.trans hS⟩

theorem BrandingFresh.mono {k : Kept (Option ℕ) BrandingSettings} (h : BrandingFresh toml d S k) (hS : S ≤ T) :
    BrandingFresh toml d T k := ⟨h.settings, fun t ht => (h.stamp t ht).trans hS, h.missing⟩

theorem current_config {kept : Option (Kept (ℕ × ℕ) (CockpitConfig σ))} (h : ∀ k ∈ kept, ConfigFresh toml d S k) {f g : File}
    (hf : d.files .operatorMd = some f) (hg : d.files .settingsToml = some g) :
    Reloader.Current (fun kept now => now.1 ≤ kept.1 && now.2 ≤ kept.2) (f.mtime, g.mtime) (loadFromDisk toml f g) kept := by
  intro k hk hpass a ha
  simp only [Bool.and_eq_true, decide_eq_true_eq] at hpass
  obtain ⟨htext, hsettings⟩ := loadFromDisk_eq_ok.mp ha
  have hoperator := (h k hk).operatorMd f hf hpass.1
  rw [(h k hk).settings g hg hpass.2] at hsettings
  obtain ⟨text, settings⟩ := a
  obtain rfl : text = k.value.operatorMd := htext.trans hoperator
  obtain rfl := Except.ok.inj hsettings
  rfl

theorem fresh_config {kept : Option (Kept (ℕ × ℕ) (CockpitConfig σ))} (h : ∀ k ∈ kept, ConfigFresh toml d S k) (hS : S ≤ T)
    (hd : d.Before T) {f g : File} (hf : d.files .operatorMd = some f) (hg : d.files .settingsToml = some g) :
    ∀ k ∈ (configReader.read (f.mtime, g.mtime) (loadFromDisk toml f g) kept).2, ConfigFresh toml d T k := by
  intro k hk
  rcases Reloader.caching_keeps hk with hold | ⟨hstamp, hnew | ⟨e, -, hnone⟩⟩
  · exact (h k hold).mono hS
  · obtain ⟨htext, hsettings⟩ := loadFromDisk_eq_ok.mp hnew
    refine ⟨fun f' hf' _ => ?_, fun g' hg' _ => ?_, ?_⟩
    · rw [hf] at hf'
      obtain rfl := Option.some.inj hf'
      exact htext.symm
    · rw [hg] at hg'
      obtain rfl := Option.some.inj hg'
      exact hsettings
    · rw [hstamp]
      exact ⟨hd _ f hf, hd _ g hg⟩
  · cases hnone

theorem fresh_branding {kept : Option (Kept (Option ℕ) BrandingSettings)} (h : ∀ k ∈ kept, BrandingFresh toml d S k) (hS : S ≤ T)
    (hd : d.Before T) : ∀ k ∈ (settingsReader.read ((d.files .settingsToml).map File.mtime)
      (loadSettings toml.debug toml.branding (d.files .settingsToml)) kept).2, BrandingFresh toml d T k := by
  intro k hk
  rcases Reloader.caching_keeps hk with hold | ⟨hstamp, hnew⟩
  · exact (h k hold).mono hS
  · refine ⟨fun _ s hs => ?_, fun t ht => ?_, fun hnone => ?_⟩
    · rcases hnew with hnew | ⟨e, hfail, -⟩
      · exact Except.ok.inj (hs.symm.trans hnew)
      · rw [hs] at hfail
        cases hfail
    · rw [hstamp] at ht
      obtain ⟨f, hf, rfl⟩ := Option.map_eq_some_iff.mp ht
      exact hd _ f hf
    · rw [hstamp, Option.map_eq_none_iff] at hnone
      rcases hnew with hnew | ⟨e, -, hdefault⟩
      · rw [hnone] at hnew
        exact (Except.ok.inj hnew).symm
      · exact (Option.some.inj hdefault).symm

variable {overrides : ρ → Overrides}

/-- A process of either world answers the same. -/
theorem agree_current (h : Agree toml S T w w') (hS : S < now) (hT : T ≤ now) :
    (current toml cached now p w).1 = (current toml uncached now p w').1 ∧
      Agree toml now now (current toml cached now p w).2 (current toml uncached now p w').2 := by
  have hboot := (h.bootstrapped hS hT .operatorMd).bootstrapped hS le_rfl .settingsToml
  have hread := config_read (current_config (hboot.configFresh p) rfl rfl)
  rw [← hboot.config p] at hread
  have hset := (hboot.mono hS.le le_rfl).setConfig (p := p) (fresh_config (hboot.configFresh p) hS.le hboot.before rfl rfl) hread.2
  unfold current
  dsimp only
  rw [h.dir] at hset ⊢
  exact ⟨congrArg Reply.config hread.1, hset⟩

theorem agree_branding (h : Agree toml S T w w') (hS : S < now) (hT : T ≤ now) :
    (brandingCurrent toml cached overrides p w).1 = (brandingCurrent toml uncached overrides p w').1 ∧
      Agree toml now now (brandingCurrent toml cached overrides p w).2 (brandingCurrent toml uncached overrides p w').2 := by
  have hcurrent : Reloader.Current (fun kept now => decide (kept = now)) ((w.dir.files .settingsToml).map File.mtime)
      (loadSettings toml.debug toml.branding (w.dir.files .settingsToml)) (w.branding p) :=
    fun k hk hpass s hs => (h.brandingFresh p k hk).settings (of_decide_eq_true hpass).symm s hs
  have hread := branding_read (σ := σ) hcurrent
  have hmono := h.mono hS.le hT
  rw [← h.branding p] at hread
  have hset := hmono.setBranding (p := p) (fresh_branding (hmono.brandingFresh p) le_rfl hmono.before) hread.2
  unfold brandingCurrent
  dsimp only
  rw [h.dir] at hset ⊢
  refine ⟨?_, hset⟩
  rw [show ((cached (σ := σ)).branding.read _ _ (w.branding p)).1 = _ from hread.1]

/-- A process that has written forgets what it kept. -/
theorem agree_settingsWritten (h : Agree toml S T w w') (hS : S < now) (hT : T ≤ now) (content : List Char) :
    Agree toml now now (settingsWritten cached now p content w) (settingsWritten uncached now p content w') := by
  have hwrite := h.write .settingsToml hS hT (f := some ⟨content, now⟩) (by simp)
  exact ((hwrite.mono hS.le le_rfl).setConfig (k := none) (by simp) rfl).setBranding (k := none) (by simp) rfl

theorem agree_writeOperatorMd (h : Agree toml S T w w') (hS : S < now) (hT : T ≤ now) (content : List Char) :
    (writeOperatorMd (cached (σ := σ)) now p content w).1 = (writeOperatorMd uncached now p content w').1 ∧
      Agree toml now now (writeOperatorMd cached now p content w).2 (writeOperatorMd uncached now p content w').2 := by
  unfold writeOperatorMd
  split_ifs
  · exact ⟨rfl, h.mono hS.le hT⟩
  · have hwrite := h.write .operatorMd hS hT (f := some ⟨content, now⟩) (by simp)
    exact ⟨rfl, (hwrite.mono hS.le le_rfl).setConfig (k := none) (by simp) rfl⟩

theorem agree_writeSettingsToml (h : Agree toml S T w w') (hS : S < now) (hT : T ≤ now) (content : List Char) :
    (writeSettingsToml toml cached now p content w).1 = (writeSettingsToml toml uncached now p content w').1 ∧
      Agree toml now now (writeSettingsToml toml cached now p content w).2 (writeSettingsToml toml uncached now p content w').2 := by
  unfold writeSettingsToml
  cases toml.cockpit content with
  | error e => exact ⟨rfl, h.mono hS.le hT⟩
  | ok validated => exact ⟨rfl, agree_settingsWritten h hS hT content⟩

theorem agree_writeBrandingSettings (h : Agree toml S T w w') (hS : S < now) (hT : T ≤ now) (update : BrandingSettings) :
    (writeBrandingSettings toml cached now p update w).1 = (writeBrandingSettings toml uncached now p update w').1 ∧
      Agree toml now now (writeBrandingSettings toml cached now p update w).2 (writeBrandingSettings toml uncached now p update w').2 := by
  have hboot := h.bootstrapped hS hT .settingsToml
  unfold writeBrandingSettings
  dsimp only
  rw [h.dir] at hboot ⊢
  cases toml.setBranding (autobootstrapIfMissing toml now w.dir .settingsToml).text update with
  | error e => exact ⟨rfl, hboot.mono hS.le le_rfl⟩
  | ok content =>
    dsimp only
    cases toml.cockpit content with
    | error e => exact ⟨rfl, hboot.mono hS.le le_rfl⟩
    | ok validated => exact ⟨rfl, agree_settingsWritten hboot hS le_rfl content⟩

/-- One step of either world. -/
theorem agree_run (overrides : ρ → Overrides) (h : Agree toml T T w w') (hnow : T < now) (op : Op ρ) :
    (op.run toml cached overrides now w).1 = (op.run toml uncached overrides now w').1 ∧
      Agree toml now now (op.run toml cached overrides now w).2 (op.run toml uncached overrides now w').2 := by
  cases op with
  | current p => exact agree_current h hnow hnow.le
  | branding p => exact agree_branding h hnow hnow.le
  | writeOperatorMd p content => exact agree_writeOperatorMd h hnow hnow.le content
  | writeSettingsToml p content => exact agree_writeSettingsToml h hnow hnow.le content
  | writeBrandingSettings p update => exact agree_writeBrandingSettings h hnow hnow.le update
  | edit name content => exact ⟨rfl, (h.write name hnow hnow.le (by simp)).mono hnow.le le_rfl⟩
  | delete name => exact ⟨rfl, (h.write name hnow hnow.le (by simp)).mono hnow.le le_rfl⟩
  | logo filename there =>
    have hlogos := (h.mono hnow.le hnow.le).setLogos (Function.update w.dir.logos filename (if there then some now else none))
    unfold Op.run
    dsimp only
    rw [h.dir] at hlogos ⊢
    exact ⟨rfl, hlogos⟩

/-- Each operation comes after the one before. -/
def Forward (ρ : Type) : ℕ → List (ℕ × Op ρ) → Prop
  | _, [] => True
  | T, (now, _) :: ops => T < now ∧ Forward ρ now ops

theorem replies_agree (h : Agree toml T T w w') {ops : List (ℕ × Op ρ)} (hops : Forward ρ T ops) :
    replies toml cached overrides w ops = replies toml uncached overrides w' ops := by
  induction ops generalizing w w' T with
  | nil => rfl
  | cons nop ops ih =>
    obtain ⟨now, op⟩ := nop
    obtain ⟨hreply, hagree⟩ := agree_run overrides h hops.1 op
    unfold replies
    rw [hreply, ih hagree hops.2]

def sampleToml : Toml Unit where
  cockpit text := if text = ['!'] then .error "expected a table" else .ok ()
  branding text := if text = ['!'] then .error "expected a table" else .ok { BrandingSettings.default.toRaw with brandName := text }
  setBranding _ update := .ok update.brandName
  embedded _ := ['#']
  debug := String.ofList

def sampleDir : Directory where
  files name := if name = .settingsToml then some ⟨['K', 'o', 'p', 'i'], 1⟩ else none
  templates _ := none
  logos _ := none

/-- One process reads before an edit that breaks the file, and one after it. -/
def sampleOps : List (ℕ × Op Bool) :=
  [(2, .branding true), (3, .edit .settingsToml ['!']), (4, .branding true), (5, .branding false), (6, .writeSettingsToml false ['T']),
    (7, .branding true), (8, .current false)]

variable {dir : Directory}

/-- Only legal branding is kept. -/
def LegalKept (w : Caching ρ σ) : Prop := ∀ p, ∀ k ∈ w.branding p, k.value.Legal

theorem legal_brandingCurrent (toml : Toml σ) (overrides : ρ → Overrides) (p : ρ) (h : LegalKept w) :
    (∃ v, (brandingCurrent toml cached overrides p w).1 = .branding (some v) ∧ LegalView v) ∧
      LegalKept (brandingCurrent toml cached overrides p w).2 := by
  have hall : (∀ s, (settingsReader.read ((w.dir.files .settingsToml).map File.mtime)
      (loadSettings toml.debug toml.branding (w.dir.files .settingsToml)) (w.branding p)).1 = .ok s → s.Legal) ∧
      ∀ k ∈ (settingsReader.read ((w.dir.files .settingsToml).map File.mtime)
        (loadSettings toml.debug toml.branding (w.dir.files .settingsToml)) (w.branding p)).2, k.value.Legal :=
    Reloader.caching_forall (h p) (fun s hs => legal_loadSettings hs) fun e s hs => Option.some.inj hs ▸ legal_default
  obtain ⟨s, hs⟩ : ∃ s, (settingsReader.read ((w.dir.files .settingsToml).map File.mtime)
      (loadSettings toml.debug toml.branding (w.dir.files .settingsToml)) (w.branding p)).1 = .ok s := Reloader.caching_isOk fun _ => rfl
  constructor
  · obtain ⟨v, hv, hlegal⟩ := viewOf_legal (legal_applyEnvOverrides toml.debug (overrides p) (hall.1 s hs)) w.dir.logos
    refine ⟨v, ?_, hlegal⟩
    unfold brandingCurrent
    dsimp only
    rw [show ((cached (σ := σ)).branding.read _ _ (w.branding p)).1 = _ from hs]
    exact congrArg Reply.branding hv
  · intro q k hk
    simp only [brandingCurrent, Function.update_apply] at hk
    split_ifs at hk
    · exact hall.2 k hk
    · exact h q k hk

theorem LegalKept.forget (h : LegalKept w) : LegalKept { w with branding := Function.update w.branding p none } := by
  intro q k hk
  simp only [Function.update_apply] at hk
  split_ifs at hk
  · cases hk
  · exact h q k hk

/-- Every operation keeps branding legal, and answers with legal branding. -/
theorem legal_run (toml : Toml σ) (overrides : ρ → Overrides) (now : ℕ) (h : LegalKept w) (op : Op ρ) : LegalKept (op.run toml cached overrides now w).2 ∧
    ∀ v, (op.run toml cached overrides now w).1 = .branding v → ∃ view, v = some view ∧ LegalView view := by
  cases op with
  | branding p =>
    obtain ⟨⟨view, hview, hlegal⟩, hkept⟩ := legal_brandingCurrent toml overrides p h
    refine ⟨hkept, fun v hv => ⟨view, ?_, hlegal⟩⟩
    rw [show (Op.branding p).run toml cached overrides now w = brandingCurrent toml cached overrides p w from rfl, hview] at hv
    exact (Reply.branding.inj hv).symm
  | writeOperatorMd p content =>
    unfold Op.run writeOperatorMd
    dsimp only
    split_ifs
    · exact ⟨h, nofun⟩
    · exact ⟨h, nofun⟩
  | writeSettingsToml p content =>
    unfold Op.run writeSettingsToml
    dsimp only
    cases toml.cockpit content with
    | error e => exact ⟨h, nofun⟩
    | ok validated => exact ⟨h.forget, nofun⟩
  | writeBrandingSettings p update =>
    unfold Op.run writeBrandingSettings
    dsimp only
    cases toml.setBranding (autobootstrapIfMissing toml now w.dir .settingsToml).text update with
    | error e => exact ⟨h, nofun⟩
    | ok content =>
      dsimp only
      cases toml.cockpit content with
      | error e => exact ⟨h, nofun⟩
      | ok validated => exact ⟨h.forget, nofun⟩
  | _ => exact ⟨h, nofun⟩

theorem legal_replies (h : LegalKept w) {ops : List (ℕ × Op ρ)} {v : Option BrandingView}
    (hv : .branding v ∈ replies toml cached overrides w ops) : ∃ view, v = some view ∧ LegalView view := by
  induction ops generalizing w with
  | nil => exact absurd hv List.not_mem_nil
  | cons nop ops ih =>
    obtain ⟨hkept, hreply⟩ := legal_run toml overrides nop.1 h nop.2
    rcases List.mem_cons.mp hv with heq | hmem
    · exact hreply v heq.symm
    · exact ih hkept hmem

/-- Branding never takes a service down: whatever the files and the environment say, and whatever was read before, a page gets a name, a
theme that is there, and a mark that no markup can hide in. -/
theorem branding_is_legal (toml : Toml σ) (overrides : ρ → Overrides) (dir : Directory) (ops : List (ℕ × Op ρ)) {v : Option BrandingView}
    (hv : .branding v ∈ replies toml cached overrides (started cached dir) ops) : ∃ view, v = some view ∧ LegalView view :=
  legal_replies (fun _ _ hk => absurd hk (Option.not_mem_none _)) hv

def sampleView : BrandingView := ⟨['K', 'o', 'p', 'i'], defaultThemeId, ['x'], none⟩

theorem branding_is_legal_broken : LegalView sampleView := by
  have hv : .branding (some sampleView) ∈ replies sampleToml cached (fun _ => ⟨none, none, some ['x']⟩) (started cached sampleDir) sampleOps :=
    List.mem_cons.mpr (.inl rfl)
  obtain ⟨view, hview, hlegal⟩ := branding_is_legal sampleToml _ sampleDir sampleOps hv
  exact Option.some.inj hview ▸ hlegal

end

end BssCli.Cockpit.Config
