import BssCli.Crm.Inventory
import BssCli.Som.Decomposition

/-!
# What the orchestrator asks of the inventory

Numbers and profiles are reserved and released by separate calls. A release reads the row
first and writes it later.
-/

namespace BssCli.Som

open Crm

structure Inventory where
  numbers : Numbers
  profiles : Profiles

/-- The resource that a reply names. -/
def msisdnOf (reply : Object) : Option Resource := (strField reply "msisdn").map .msisdn

def esimOf (reply : Object) : Option Resource := (strField reply "iccid").map .esim

inductive InventoryOp
  | reserveNext (locked : List String) (preference : Option String) (now : Time)
  | reserve (locked : List String) (msisdn : String) (now : Time)
  | hold (msisdn reservedFor : String) (ttl : ℤ) (now : Time)
  | releaseHolds (reservedFor : String)
  | reserveEsim (locked : List String) (now : Time)

namespace Inventory

variable (v : Inventory)

def readRelease : Resource → Except ApiError Unit
  | .msisdn m => Crm.readRelease v.numbers m
  | .esim iccid => do
    -- A release leads to `available`, whatever the state was.
    let _ ← readTransition v.profiles iccid "release"
    return ()

def writeRelease (now : Time) : Resource → Inventory
  | .msisdn m => { v with numbers := Crm.writeRelease v.numbers m }
  | .esim iccid => { v with profiles := writeTransition v.profiles iccid .available now }

def apply : InventoryOp → Except ApiError Inventory
  | .reserveNext locked preference now => do
    let (numbers, _) ← reserveNextMsisdn v.numbers locked preference now
    return { v with numbers }
  | .reserve locked msisdn now => do
    let numbers ← reserveMsisdn v.numbers locked msisdn now
    return { v with numbers }
  | .hold msisdn reservedFor ttl now => do
    let numbers ← holdMsisdn v.numbers msisdn reservedFor ttl now
    return { v with numbers }
  | .releaseHolds reservedFor => .ok { v with numbers := releaseHoldsFor v.numbers reservedFor }
  | .reserveEsim locked now => do
    let (profiles, _) ← Crm.reserveEsim v.profiles locked now
    return { v with profiles }

end Inventory

/-! ## The rows of a resource -/

namespace Inventory

def Reserved (v : Inventory) : Resource → Prop
  | .msisdn m => ∃ row ∈ v.numbers.find m, row.status = .reserved ∧ row.Taken
  | .esim iccid => ∃ row ∈ v.profiles.find iccid, row.profileState = .reserved

def Taken (v : Inventory) : Resource → Prop
  | .msisdn m => ∃ row ∈ v.numbers.find m, row.Taken
  | .esim iccid => ∃ row ∈ v.profiles.find iccid, row.profileState = .reserved

structure Keeps (v v' : Inventory) : Prop where
  numbers : Numbers.Keeps v.numbers v'.numbers
  profiles : Profiles.Keeps v.profiles v'.profiles

variable {v v' : Inventory} {r r' : Resource} {now : Time}

theorem Reserved.taken (h : v.Reserved r) : v.Taken r := by
  cases r with
  | msisdn m =>
    obtain ⟨row, hrow, -, htaken⟩ := h
    exact ⟨row, hrow, htaken⟩
  | esim iccid => exact h

theorem Keeps.taken (h : v.Keeps v') (ht : v.Taken r) : v'.Taken r := by
  cases r with
  | msisdn m =>
    obtain ⟨row, hrow, htaken⟩ := ht
    exact ⟨row, h.numbers m row hrow htaken, htaken⟩
  | esim iccid =>
    obtain ⟨row, hrow, hstate⟩ := ht
    exact ⟨row, h.profiles iccid row hrow (by simp [hstate]), hstate⟩

theorem Keeps.reserved (h : v.Keeps v') (ht : v.Reserved r) : v'.Reserved r := by
  cases r with
  | msisdn m =>
    obtain ⟨row, hrow, hstatus, htaken⟩ := ht
    exact ⟨row, h.numbers m row hrow htaken, hstatus, htaken⟩
  | esim iccid =>
    obtain ⟨row, hrow, hstate⟩ := ht
    exact ⟨row, h.profiles iccid row hrow (by simp [hstate]), hstate⟩

theorem apply_keeps {op : InventoryOp} (h : v.apply op = .ok v') : v.Keeps v' := by
  have hprofiles : Profiles.Keeps v.profiles v.profiles := fun _ _ hr _ => hr
  cases op with
  | reserveNext locked preference now =>
    obtain ⟨⟨numbers, reply⟩, hn, h⟩ := bind_eq_ok.mp h
    cases h
    obtain ⟨-, -, -, -, -, -, -, -, -, hkeeps⟩ := reserveNextMsisdn_eq_ok hn
    exact ⟨hkeeps, hprofiles⟩
  | reserve locked msisdn now =>
    obtain ⟨numbers, hn, h⟩ := bind_eq_ok.mp h
    cases h
    exact ⟨reserveMsisdn_keeps hn, hprofiles⟩
  | hold msisdn reservedFor ttl now =>
    obtain ⟨numbers, hn, h⟩ := bind_eq_ok.mp h
    cases h
    exact ⟨holdMsisdn_keeps hn, hprofiles⟩
  | releaseHolds reservedFor =>
    cases h
    exact ⟨releaseHoldsFor_keeps _ reservedFor, hprofiles⟩
  | reserveEsim locked now =>
    obtain ⟨⟨profiles, reply⟩, hp, h⟩ := bind_eq_ok.mp h
    cases h
    obtain ⟨-, -, -, -, -, -, -, -, hkeeps⟩ := reserveEsim_eq_ok hp
    exact ⟨fun _ _ hr _ => hr, hkeeps⟩

theorem reserveNext_new {locked : List String} {preference : Option String} {numbers : Numbers} {reply : Object}
    (h : reserveNextMsisdn v.numbers locked preference now = .ok (numbers, reply)) :
    ∃ r, msisdnOf reply = some r ∧ ¬ v.Taken r ∧ Inventory.Reserved { v with numbers } r ∧
      v.Keeps { v with numbers } := by
  obtain ⟨m, old, row, hm, hold, hfree, hrow, hstatus, htaken, hkeeps⟩ := reserveNextMsisdn_eq_ok h
  refine ⟨.msisdn m, by rw [msisdnOf, hm]; rfl, ?_, ⟨row, hrow, hstatus, htaken⟩, hkeeps, fun _ _ hr _ => hr⟩
  rintro ⟨row', hrow', htaken'⟩
  obtain rfl : old = row' := Option.some.inj (hold.symm.trans hrow')
  exact hfree htaken'

theorem reserveEsim_new {locked : List String} {profiles : Profiles} {reply : Object}
    (h : Crm.reserveEsim v.profiles locked now = .ok (profiles, reply)) :
    ∃ r, esimOf reply = some r ∧ ¬ v.Taken r ∧ Inventory.Reserved { v with profiles } r ∧
      v.Keeps { v with profiles } := by
  obtain ⟨iccid, old, row, hm, hold, hfree, hrow, hstate, hkeeps⟩ := reserveEsim_eq_ok h
  refine ⟨.esim iccid, by rw [esimOf, hm]; rfl, ?_, ⟨row, hrow, hstate⟩, fun _ _ hr _ => hr, hkeeps⟩
  rintro ⟨row', hrow', hstate'⟩
  obtain rfl : old = row' := Option.some.inj (hold.symm.trans hrow')
  simp [hfree] at hstate'

theorem writeRelease_other (h : r' ≠ r) :
    (v.Taken r' → (v.writeRelease now r).Taken r') ∧ (v.Reserved r' → (v.writeRelease now r).Reserved r') := by
  have hnumbers : ∀ m, r' = .msisdn m → (v.writeRelease now r).numbers.find m = v.numbers.find m := by
    rintro m rfl
    cases r with
    | msisdn n =>
      have hne : m ≠ n := fun heq => h (heq ▸ rfl)
      exact find_writeRelease_ne hne
    | esim iccid => rfl
  have hprofiles : ∀ i, r' = .esim i → (v.writeRelease now r).profiles.find i = v.profiles.find i := by
    rintro i rfl
    cases r with
    | msisdn n => rfl
    | esim iccid =>
      have hne : i ≠ iccid := fun heq => h (heq ▸ rfl)
      exact find_writeTransition_ne hne
  cases r' with
  | msisdn m => simp only [Taken, Reserved, hnumbers m rfl, imp_self, and_self]
  | esim i => simp only [Taken, Reserved, hprofiles i rfl, imp_self, and_self]

/-- An assignment keeps every row taken, and every other one reserved. -/
theorem assignMsisdn_keeps {m : String} {numbers : Numbers} (h : assignMsisdn v.numbers m = .ok numbers) :
    (v.Taken r → Inventory.Taken { v with numbers } r) ∧
      (r ≠ .msisdn m → v.Reserved r → Inventory.Reserved { v with numbers } r) := by
  rw [assignMsisdn_eq_ok h]
  cases r with
  | msisdn k =>
    refine ⟨fun ⟨row, hrow, htaken⟩ => ?_, fun hne ⟨row, hrow, hreserved⟩ => ⟨row, ?_, hreserved⟩⟩
    · by_cases hk : k = m
      · refine ⟨{ row with status := .assigned }, ?_, Or.inr rfl, htaken.2⟩
        rw [Table.find_update, if_pos hk, Option.mem_def.mp hrow]
        rfl
      · exact ⟨row, by rw [Table.find_update_ne _ hk]; exact hrow, htaken⟩
    · have hk : k ≠ m := fun heq => hne (heq ▸ rfl)
      rw [Table.find_update_ne _ hk]
      exact hrow
  | esim iccid => exact ⟨id, fun _ => id⟩

theorem assignEsim_keeps {iccid m : String} {profiles : Profiles}
    (h : assignMsisdnToEsim v.numbers v.profiles iccid m = .ok profiles) :
    (v.Taken r → Inventory.Taken { v with profiles } r) ∧ (v.Reserved r → Inventory.Reserved { v with profiles } r) := by
  rw [assignMsisdnToEsim_eq_ok h]
  cases r with
  | msisdn k => exact ⟨id, id⟩
  | esim k =>
    have hkept : (∃ row ∈ v.profiles.find k, row.profileState = .reserved) → ∃ row ∈ (v.profiles.update iccid
        (fun r => { r with profileState := .reserved, assignedMsisdn := some m }) fun _ => rfl).find k,
        row.profileState = .reserved := by
      rintro ⟨row, hrow, hstate⟩
      rw [Table.find_update, hrow]
      split
      · exact ⟨_, rfl, rfl⟩
      · exact ⟨row, rfl, hstate⟩
    exact ⟨hkept, hkept⟩

end Inventory

end BssCli.Som
