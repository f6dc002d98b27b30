import BssCli.Lib.UrlPath
import Mathlib.Data.List.Infix

/-!
# Redirect targets

`safe_next_path`: the target of a redirect is the one that the request asks for, or a default. It is compared with what a browser makes
of it on a page of the portal.
-/

open Text Url

namespace BssCli.Portal

def forbiddenTokens : List (List Char) := ["://".toList, "\r".toList, "\n".toList, "\\".toList]

def safeNextPath (raw : Option (List Char)) (default : List Char) : List Char :=
  match (raw.map trim).filter (· ≠ []) with
  | none => default
  | some candidate =>
    if ¬ "/".toList <+: candidate then default
    else if "//".toList <+: candidate ∨ "/\\".toList <+: candidate then default
    else if ∃ token ∈ forbiddenTokens, token <:+: candidate then default
    else candidate

/-- What is left of a text that the checks let through. -/
structure Accepted (r candidate : List Char) : Prop where
  trimmed : candidate = trim r
  slash : "/".toList <+: candidate
  authority : ¬ ("//".toList <+: candidate ∨ "/\\".toList <+: candidate)
  tokens : ¬ ∃ token ∈ forbiddenTokens, token <:+: candidate

/-- Tabs between the first slash and another one. A browser drops them and reads a host. -/
def LeavesSite (hosts : Hosts) (base : Origin) (raw : Option (List Char)) : Prop :=
  ∃ r ∈ raw, ∃ tabs rest, Accepted r ('/' :: (tabs ++ '/' :: rest)) ∧ (∀ c ∈ tabs, c = '\t') ∧
    hosts.authority (authorityText (visible (rest.rdropWhile isEdge))) ≠ some (base.host, base.port)

/-- The target is on the site, and what is accepted is the target, but for white space around it. -/
structure StaysOnSite (hosts : Hosts) (base : Origin) (default : List Char) (raw : Option (List Char)) : Prop where
  origin : originOf hosts base (safeNextPath raw default) = some base
  unchanged : ∀ r ∈ raw, ∀ candidate, Accepted r candidate → safeNextPath raw default = trim r
  idempotent : ∀ r ∈ raw, ∀ candidate, Accepted r candidate →
    safeNextPath (some (safeNextPath raw default)) default = safeNextPath raw default

section

variable {r candidate default : List Char}

theorem safeNextPath_accepted (h : Accepted r candidate) : safeNextPath (some r) default = candidate := by
  obtain ⟨rfl, hslash, hauthority, htokens⟩ := h
  have hne : trim r ≠ [] := by
    intro hnil
    rw [hnil] at hslash
    exact absurd hslash (by decide)
  unfold safeNextPath
  rw [Option.map_some, Option.filter_some_pos (by simpa using hne)]
  dsimp only
  rw [if_neg (not_not_intro hslash), if_neg hauthority, if_neg htokens]

/-- What is not accepted goes to the default. -/
theorem safeNextPath_cases (raw : Option (List Char)) (default : List Char) :
    (∃ r ∈ raw, ∃ candidate, Accepted r candidate ∧ safeNextPath raw default = candidate) ∨
      ((∀ r ∈ raw, ∀ candidate, ¬ Accepted r candidate) ∧ safeNextPath raw default = default) := by
  by_cases h : ∃ r ∈ raw, ∃ candidate, Accepted r candidate
  · obtain ⟨r, rfl, candidate, haccepted⟩ := h
    exact Or.inl ⟨r, rfl, candidate, haccepted, safeNextPath_accepted haccepted⟩
  · have hnone : ∀ r ∈ raw, ∀ candidate, ¬ Accepted r candidate := fun r hr candidate haccepted => h ⟨r, hr, candidate, haccepted⟩
    refine Or.inr ⟨hnone, ?_⟩
    unfold safeNextPath
    cases raw with
    | none => rfl
    | some r =>
      split
      · rfl
      · rename_i candidate hcandidate
        obtain ⟨hsome, -⟩ := Option.filter_eq_some_iff.mp hcandidate
        obtain rfl := Option.some.inj hsome
        split
        · rfl
        · rename_i hslash
          split
          · rfl
          · rename_i hauthority
            split
            · rfl
            · rename_i htokens
              exact absurd ⟨rfl, not_not.mp hslash, hauthority, htokens⟩ (hnone r rfl (trim r))

theorem accepted_trim (h : Accepted r candidate) : Accepted candidate candidate :=
  ⟨by rw [h.trimmed, trim_trim], h.slash, h.authority, h.tokens⟩

theorem not_mem_of_accepted (h : Accepted r candidate) : '\r' ∉ candidate ∧ '\n' ∉ candidate ∧ '\\' ∉ candidate := by
  have hnone : ∀ c : Char, [c] ∈ forbiddenTokens → c ∉ candidate := by
    intro c hc hmem
    obtain ⟨a, b, rfl⟩ := List.append_of_mem hmem
    exact h.tokens ⟨[c], hc, a, b, by simp⟩
  exact ⟨hnone _ (by decide), hnone _ (by decide), hnone _ (by decide)⟩

theorem originOf_tabs {tabs : List Char} (htabs : ∀ c ∈ tabs, c = '\t') (rest : List Char) (hosts : Hosts) (base : Origin) :
    originOf hosts base ('/' :: (tabs ++ '/' :: rest)) = some base ↔
      hosts.authority (authorityText (visible (rest.rdropWhile isEdge))) = some (base.host, base.port) := by
  have hdropped : visible tabs = [] := by
    rw [visible, List.filter_eq_nil_iff]
    intro c hc
    rw [htabs c hc]
    decide
  have hslash : visible ('/' :: rest.rdropWhile isEdge) = '/' :: visible (rest.rdropWhile isEdge) :=
    List.filter_cons_of_pos (by decide)
  have hvisible : visible ((tabs ++ '/' :: rest).rdropWhile isEdge) = '/' :: visible (rest.rdropWhile isEdge) := by
    rw [rdropWhile_append_cons (by decide), visible_append, hdropped, hslash, List.nil_append]
  rw [originOf_authority hvisible (by decide), map_authority_eq_some_iff]

/-- Behind the first slash only tabs are dropped. A browser reads another slash first exactly where tabs lead to it. -/
theorem slash_of_visible {cs : List Char} (h : Accepted r ('/' :: cs)) {d : Char}
    (hd : d ∈ (visible (cs.rdropWhile isEdge)).head?) (hslash : isSlash d = true) :
    ∃ tabs rest, cs = tabs ++ '/' :: rest ∧ ∀ c ∈ tabs, c = '\t' := by
  obtain ⟨hcr, hlf, hbackslash⟩ := not_mem_of_accepted h
  obtain ⟨others, hothers⟩ := List.head?_eq_some_iff.mp hd
  obtain ⟨tabs, rest, hkept, hdropped, -, -⟩ := List.filter_eq_cons_iff.mp hothers
  obtain ⟨edges, hedges⟩ := List.rdropWhile_prefix isEdge cs
  rw [hkept, List.append_assoc, List.cons_append] at hedges
  obtain rfl : d = '/' := by
    have hne : d ≠ '\\' := fun heq => hbackslash (by simp [← hedges, heq])
    simpa [isSlash, hne] using hslash
  refine ⟨tabs, rest ++ edges, hedges.symm, fun c hc => ?_⟩
  have hmem : c ∈ cs := by
    rw [← hedges]
    exact List.mem_append_left _ hc
  have hne : c ≠ '\n' ∧ c ≠ '\r' :=
    ⟨fun heq => hlf (heq ▸ List.mem_cons_of_mem _ hmem), fun heq => hcr (heq ▸ List.mem_cons_of_mem _ hmem)⟩
  simpa [isTabOrNewline, hne.1, hne.2] using hdropped c hc

theorem originOf_accepted (h : Accepted r candidate) (hosts : Hosts) (base : Origin) :
    originOf hosts base candidate = some base ↔
      ∀ tabs rest, candidate = '/' :: (tabs ++ '/' :: rest) → (∀ c ∈ tabs, c = '\t') →
        hosts.authority (authorityText (visible (rest.rdropWhile isEdge))) = some (base.host, base.port) := by
  constructor
  · rintro horigin tabs rest rfl htabs
    exact (originOf_tabs htabs rest hosts base).mp horigin
  · intro hall
    obtain ⟨cs, rfl⟩ : ∃ cs, candidate = '/' :: cs := by
      obtain ⟨cs, hcs⟩ := h.slash
      exact ⟨cs, hcs.symm⟩
    by_cases hlead : ∃ tabs rest, cs = tabs ++ '/' :: rest ∧ ∀ c ∈ tabs, c = '\t'
    · obtain ⟨tabs, rest, rfl, htabs⟩ := hlead
      exact (originOf_tabs htabs rest hosts base).mpr (hall tabs rest rfl htabs)
    · refine originOf_path fun d hd => ?_
      by_contra hslash
      exact hlead (slash_of_visible h hd (by simpa using hslash))

end

/-- The default of the routes. -/
theorem originOf_root (hosts : Hosts) (base : Origin) : originOf hosts base ['/'] = some base :=
  originOf_path (by simp [visible])

/-- The target leaves the site exactly where tabs stand between the first slash and another one. -/
theorem safeNextPath_onSite_iff (hosts : Hosts) (base : Origin) {default : List Char}
    (hdefault : originOf hosts base default = some base) (raw : Option (List Char)) :
    StaysOnSite hosts base default raw ↔ ¬ LeavesSite hosts base raw := by
  have haccepted : ∀ r candidate, Accepted r candidate → safeNextPath (some r) default = trim r := by
    intro r candidate h
    rw [safeNextPath_accepted h, h.trimmed]
  constructor
  · rintro hstays ⟨r, rfl, tabs, rest, h, htabs, hauthority⟩
    have horigin := hstays.origin
    rw [safeNextPath_accepted h] at horigin
    exact hauthority ((originOf_accepted h hosts base).mp horigin tabs rest rfl htabs)
  · intro hleaves
    refine ⟨?_, ?_, ?_⟩
    · rcases safeNextPath_cases raw default with ⟨r, rfl, candidate, h, htarget⟩ | ⟨-, htarget⟩
      · rw [htarget, originOf_accepted h]
        rintro tabs rest rfl htabs
        by_contra hauthority
        exact hleaves ⟨r, rfl, tabs, rest, h, htabs, hauthority⟩
      · rw [htarget, hdefault]
    · rintro r rfl candidate h
      exact haccepted r candidate h
    · rintro r rfl candidate h
      rw [safeNextPath_accepted h, safeNextPath_accepted (accepted_trim h)]

/-- Names of letters, digits, dots and hyphens. -/
def plainHosts : Hosts where
  authority cs := if cs ≠ [] ∧ cs.all (fun c => c.isLower || c.isDigit || c = '.' || c = '-') then some (cs, 443) else none
  absolute _ _ := none

def samplePortal : Origin := ⟨"https".toList, "portal.example".toList, 443⟩

def sampleHome : List Char := [' ', '/', 'h', 'o', 'm', 'e']

theorem safeNextPath_onSite_home :
    safeNextPath (some sampleHome) ['/'] = ['/', 'h', 'o', 'm', 'e'] ∧
      StaysOnSite plainHosts samplePortal ['/'] (some sampleHome) := by
  refine ⟨by decide +kernel, (safeNextPath_onSite_iff plainHosts samplePortal (originOf_root ..) _).mpr ?_⟩
  rintro ⟨r, hr, tabs, rest, h, -⟩
  obtain rfl := Option.some.inj hr
  have hcs : tabs ++ '/' :: rest = ['h', 'o', 'm', 'e'] := (List.cons.inj h.trimmed).2
  have hslash : '/' ∈ ['h', 'o', 'm', 'e'] := hcs ▸ by simp
  exact absurd hslash (by decide)

/-- A tab hides the host. -/
def sampleTarget : List Char := ['/', '\t', '/', 'e', 'v', 'i', 'l', '.', 'c', 'o', 'm']

theorem accepted_sampleTarget : Accepted sampleTarget sampleTarget :=
  ⟨by decide +kernel, by decide +kernel, by decide +kernel, by decide +kernel⟩

theorem safeNextPath_off_site : ¬ StaysOnSite plainHosts samplePortal ['/'] (some sampleTarget) := by
  intro h
  have horigin := h.origin
  rw [safeNextPath_accepted accepted_sampleTarget] at horigin
  exact absurd horigin (by decide +kernel)

end BssCli.Portal
