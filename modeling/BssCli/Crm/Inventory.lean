import BssCli.Common
import BssCli.Lib.Table

/-!
# The number pool and the eSIM profiles

A reservation takes an available row, or the soft hold of the number that is preferred. A
release names the row only, and no row says which order has it.
-/

namespace BssCli.Crm

inductive MsisdnStatus
  | available
  | reserved
  | assigned
  | portedOut
  deriving DecidableEq

def MsisdnStatus.name : MsisdnStatus → String
  | available => "available"
  | reserved => "reserved"
  | assigned => "assigned"
  | portedOut => "ported_out"

structure MsisdnRow where
  msisdn : String
  status : MsisdnStatus
  reservedAt : Option Time
  assignedToSubscriptionId : Option String
  reservedUntil : Option Time
  reservedFor : Option String
  deriving DecidableEq

inductive EsimState
  | available
  | reserved
  | downloaded
  | activated
  | suspended
  | recycled
  deriving DecidableEq

def EsimState.name : EsimState → String
  | available => "available"
  | reserved => "reserved"
  | downloaded => "downloaded"
  | activated => "activated"
  | suspended => "suspended"
  | recycled => "recycled"

structure EsimRow where
  iccid : String
  imsi : String
  profileState : EsimState
  smdpServer : Option String
  assignedMsisdn : Option String
  assignedToSubscriptionId : Option String
  reservedAt : Option Time
  downloadedAt : Option Time
  activatedAt : Option Time
  deriving DecidableEq

abbrev Numbers := Table MsisdnRow.msisdn (fun m : String => m)

abbrev Profiles := Table EsimRow.iccid (fun m : String => m)

def toMsisdnResponse (m : MsisdnRow) : Object :=
  [("msisdn", .str m.msisdn), ("status", .str m.status.name), ("reserved_at", optValue .time m.reservedAt),
   ("assigned_to_subscription_id", optValue .str m.assignedToSubscriptionId)]

/-- The activation code is not among the fields. -/
def toEsimResponse (e : EsimRow) : Object :=
  [("iccid", .str e.iccid), ("imsi", .str e.imsi), ("profile_state", .str e.profileState.name),
   ("smdp_server", optValue .str e.smdpServer), ("assigned_msisdn", optValue .str e.assignedMsisdn),
   ("assigned_to_subscription_id", optValue .str e.assignedToSubscriptionId),
   ("reserved_at", optValue .time e.reservedAt), ("downloaded_at", optValue .time e.downloadedAt),
   ("activated_at", optValue .time e.activatedAt)]

/-- `ORDER BY key LIMIT 1`. -/
def least : List String → Option String
  | [] => none
  | k :: ks =>
    match least ks with
    | some m => if m < k then some m else some k
    | none => some k

theorem least_mem {ks : List String} {k : String} (h : least ks = some k) : k ∈ ks := by
  induction ks with
  | nil => simp [least] at h
  | cons a ks ih =>
    unfold least at h
    split at h
    · rename_i m hm
      split at h <;> cases h
      · exact List.mem_cons_of_mem _ (ih hm)
      · exact List.mem_cons_self ..
    · cases h
      exact List.mem_cons_self ..

/-! ## Numbers -/

def MsisdnRow.hardReserve (now : Time) (r : MsisdnRow) : MsisdnRow :=
  { r with status := .reserved, reservedAt := some now, reservedUntil := none, reservedFor := none }

def MsisdnRow.softHold (reservedFor : String) (reservedUntil now : Time) (r : MsisdnRow) : MsisdnRow :=
  { r with
    status := .reserved, reservedAt := some now, reservedUntil := some reservedUntil, reservedFor := some reservedFor }

/-- The row is free, or it is a soft hold. -/
def MsisdnRow.Claimable (r : MsisdnRow) : Prop :=
  r.status = .available ∨ r.status = .reserved ∧ r.reservedUntil.isSome

instance (r : MsisdnRow) : Decidable r.Claimable := inferInstanceAs (Decidable (_ ∨ _))

/-- The `SELECT … FOR UPDATE SKIP LOCKED`: `locked` are the rows others have locked. -/
def pickMsisdn (pool : Numbers) (locked : List String) : (preference : Option String) → Option String
  | some p => if p ∉ locked ∧ ∃ r ∈ pool.find p, r.Claimable then some p else none
  | none => least ((pool.rows.filter fun r => r.status = .available ∧ r.msisdn ∉ locked).map MsisdnRow.msisdn)

def reserveNextMsisdn (pool : Numbers) (locked : List String) (preference : Option String) (now : Time) :
    Except ApiError (Numbers × Object) :=
  match pickMsisdn pool locked preference with
  | none => .error (.policy {
      rule := "msisdn.reserve.no_available"
      message := "No MSISDN available matching criteria"
      context := [("preference", optValue .str preference)] })
  | some msisdn =>
    let pool := pool.update msisdn (MsisdnRow.hardReserve now) fun _ => rfl
    match pool.find msisdn with
    | some row => .ok (pool, toMsisdnResponse row)
    | none => .error (.internal "msisdn vanished")

/-- A number that is reserved by its name keeps the marks of an earlier hold. -/
def reserveMsisdn (pool : Numbers) (locked : List String) (msisdn : String) (now : Time) : Except ApiError Numbers :=
  if msisdn ∉ locked ∧ ∃ r ∈ pool.find msisdn, r.status = .available then
    .ok (pool.update msisdn (fun r => { r with status := .reserved, reservedAt := some now }) fun _ => rfl)
  else .error (.policy {
    rule := "msisdn.reserve.status_must_be_available"
    message := s!"MSISDN {msisdn} is not available for reservation"
    context := [("msisdn", .str msisdn)] })

/-- Free, held for the same one already, or a hold that has expired. -/
def MsisdnRow.Holdable (reservedFor : String) (now : Time) (r : MsisdnRow) : Prop :=
  r.status = .available ∨ r.reservedFor = some reservedFor ∨
    r.status = .reserved ∧ ∃ t ∈ r.reservedUntil, t < now

instance (reservedFor : String) (now : Time) (r : MsisdnRow) : Decidable (r.Holdable reservedFor now) :=
  inferInstanceAs (Decidable (_ ∨ _))

def holdMsisdn (pool : Numbers) (msisdn reservedFor : String) (ttl : ℤ) (now : Time) : Except ApiError Numbers :=
  if ∃ r ∈ pool.find msisdn, r.Holdable reservedFor now then
    .ok (pool.update msisdn (MsisdnRow.softHold reservedFor (now + ttl * 1000000) now) fun _ => rfl)
  else .error (.policy {
    rule := "msisdn.hold.unavailable"
    message := s!"MSISDN {msisdn} is not available to hold"
    context := [("msisdn", .str msisdn)] })

/-- Only soft holds are released. -/
def releaseHoldsFor (pool : Numbers) (reservedFor : String) : Numbers :=
  pool.map (fun r =>
    if r.reservedFor = some reservedFor ∧ r.status = .reserved ∧ r.reservedUntil.isSome then
      { r with status := .available, reservedAt := none, reservedUntil := none, reservedFor := none }
    else r) fun r => by split <;> rfl

def assignMsisdn (pool : Numbers) (msisdn : String) : Except ApiError Numbers :=
  match pool.find msisdn with
  | none => .error (.policy {
      rule := "msisdn.assign.not_found"
      message := s!"MSISDN {msisdn} not found"
      context := [("msisdn", .str msisdn)] })
  | some row =>
    if row.status = .reserved ∨ row.status = .assigned then
      .ok (pool.update msisdn (fun r => { r with status := .assigned }) fun _ => rfl)
    else .error (.policy {
      rule := "msisdn.assign.must_be_reserved"
      message := s!"MSISDN {msisdn} must be reserved before assignment"
      context := [("msisdn", .str msisdn), ("status", .str row.status.name)] })

def checkMsisdnReleasable (status : MsisdnStatus) (msisdn : String) : Except ApiError Unit :=
  if status = .portedOut then .error (.policy {
    rule := "msisdn.release.terminal_status"
    message := s!"MSISDN {msisdn} is in terminal status '{status.name}' and cannot be released " ++
      "back to the pool"
    context := [("msisdn", .str msisdn), ("status", .str status.name)] })
  else if status ≠ .reserved ∧ status ≠ .assigned then .error (.policy {
    rule := "msisdn.release.only_if_reserved_or_assigned"
    message := s!"MSISDN {msisdn} cannot be released (status={status.name})"
    context := [("msisdn", .str msisdn), ("status", .str status.name)] })
  else .ok ()

/-- `release_msisdn` up to its `UPDATE`. The row is not locked. -/
def readRelease (pool : Numbers) (msisdn : String) : Except ApiError Unit :=
  match pool.find msisdn with
  | none => .error (.policy {
      rule := "msisdn.release.not_found"
      message := s!"MSISDN {msisdn} not found"
      context := [("msisdn", .str msisdn)] })
  | some row => checkMsisdnReleasable row.status msisdn

/-- The `UPDATE` of `release_msisdn`. -/
def writeRelease (pool : Numbers) (msisdn : String) : Numbers :=
  pool.update msisdn (fun r => { r with
    status := .available, reservedAt := none, assignedToSubscriptionId := none }) fun _ => rfl

/-! ## eSIM profiles -/

def esimTransitions : List (String × EsimState × EsimState) :=
  [("reserve", .available, .reserved), ("assign_msisdn", .reserved, .reserved), ("download", .reserved, .downloaded),
   ("activate", .downloaded, .activated), ("suspend", .activated, .suspended), ("activate", .suspended, .activated),
   ("recycle", .activated, .recycled), ("release", .reserved, .available)]

def getNextState (state : EsimState) (trigger : String) : Option EsimState :=
  (esimTransitions.find? fun t => t.1 = trigger ∧ t.2.1 = state).map fun t => t.2.2

def reserveEsim (pool : Profiles) (locked : List String) (now : Time) : Except ApiError (Profiles × Object) :=
  match least ((pool.rows.filter fun r => r.profileState = .available ∧ r.iccid ∉ locked).map EsimRow.iccid) with
  | none => .error (.policy {
      rule := "esim.reserve.status_must_be_available"
      message := "No eSIM profile available for reservation"
      context := [] })
  | some iccid =>
    let pool := pool.update iccid (fun r => { r with profileState := .reserved, reservedAt := some now }) fun _ => rfl
    match pool.find iccid with
    | some row => .ok (pool, toEsimResponse row)
    | none => .error (.internal "esim vanished")

def esimNotFound (iccid : String) : ApiError := .policy {
  rule := "esim.not_found"
  message := s!"eSIM {iccid} not found"
  context := [("iccid", .str iccid)] }

def checkMsisdnReservedForAssign (status : MsisdnStatus) (msisdn : String) : Except ApiError Unit :=
  if status ≠ .reserved ∧ status ≠ .assigned then .error (.policy {
    rule := "esim.assign_msisdn.msisdn_must_be_reserved"
    message := s!"MSISDN {msisdn} must be reserved or assigned before binding to eSIM"
    context := [("msisdn", .str msisdn), ("status", .str status.name)] })
  else .ok ()

def checkEsimReserved (esim : EsimRow) : Except ApiError Unit :=
  if esim.profileState = .reserved then .ok ()
  else .error (.policy {
    rule := "esim.assign_msisdn.esim_must_be_reserved"
    message := s!"eSIM {esim.iccid} must be reserved to assign MSISDN"
    context := [("iccid", .str esim.iccid), ("state", .str esim.profileState.name)] })

def assignMsisdnToEsim (numbers : Numbers) (pool : Profiles) (iccid msisdn : String) : Except ApiError Profiles := do
  let some esim := pool.find iccid | .error (esimNotFound iccid)
  checkEsimReserved esim
  let some m := numbers.find msisdn | .error (.policy {
    rule := "esim.assign_msisdn.msisdn_not_found"
    message := s!"MSISDN {msisdn} not found"
    context := [("msisdn", .str msisdn)] })
  checkMsisdnReservedForAssign m.status msisdn
  return pool.update iccid (fun r => { r with profileState := .reserved, assignedMsisdn := some msisdn }) fun _ => rfl

/-- `transition_esim` up to its `UPDATE`: the state it goes to. The row is not locked. -/
def readTransition (pool : Profiles) (iccid trigger : String) : Except ApiError EsimState :=
  match pool.find iccid with
  | none => .error (esimNotFound iccid)
  | some esim =>
    match getNextState esim.profileState trigger with
    | some state => .ok state
    | none =>
      let state := esim.profileState.name
      .error (.policy {
        rule := "esim.transition.invalid"
        message := s!"Cannot '{trigger}' eSIM from state '{state}'"
        context := [("iccid", .str iccid), ("state", .str state), ("trigger", .str trigger)] })

/-- The `UPDATE` of `transition_esim`, with the columns that the state sets. -/
def writeTransition (pool : Profiles) (iccid : String) (state : EsimState) (now : Time) : Profiles :=
  pool.update iccid (fun r =>
    match state with
    | .downloaded => { r with profileState := .downloaded, downloadedAt := some now }
    | .activated => { r with profileState := .activated, activatedAt := some now }
    | .available => { r with
        profileState := .available, reservedAt := none, assignedMsisdn := none, assignedToSubscriptionId := none }
    | .reserved | .suspended | .recycled => { r with profileState := state }) fun r => by
      cases state <;> rfl

/-! ## What is out of reach for a reservation -/

/-- Reserved or assigned for good: no hold, and not free. -/
def MsisdnRow.Taken (r : MsisdnRow) : Prop :=
  (r.status = .reserved ∨ r.status = .assigned) ∧ r.reservedUntil = none ∧ r.reservedFor = none

instance (r : MsisdnRow) : Decidable r.Taken := inferInstanceAs (Decidable (_ ∧ _))

variable {pool pool' : Numbers} {m : String} {r : MsisdnRow}

theorem Taken.not_claimable (h : r.Taken) : ¬ r.Claimable := by
  obtain ⟨hstatus, huntil, -⟩ := h
  unfold MsisdnRow.Claimable
  rw [huntil]
  rcases hstatus with hs | hs <;> simp [hs]

theorem Taken.not_holdable (h : r.Taken) (reservedFor : String) (now : Time) : ¬ r.Holdable reservedFor now := by
  obtain ⟨hstatus, huntil, hfor⟩ := h
  unfold MsisdnRow.Holdable
  rw [huntil, hfor]
  rcases hstatus with hs | hs <;> simp [hs]

theorem pickMsisdn_eq_some {locked : List String} {preference : Option String}
    (h : pickMsisdn pool locked preference = some m) : ∃ r, pool.find m = some r ∧ r.Claimable := by
  unfold pickMsisdn at h
  split at h
  · obtain ⟨⟨-, r, hr, hclaim⟩, h⟩ := Option.ite_none_right_eq_some.mp h
    cases h
    exact ⟨r, hr, hclaim⟩
  · obtain ⟨r, hr, rfl⟩ := List.mem_map.mp (least_mem h)
    rw [List.mem_filter] at hr
    have havailable : r.status = .available := (of_decide_eq_true hr.2).1
    exact ⟨r, pool.find_of_mem hr.1, Or.inl havailable⟩

/-- What is taken stays as it is. -/
def Numbers.Keeps (pool pool' : Numbers) : Prop :=
  ∀ k r, pool.find k = some r → r.Taken → pool'.find k = some r

def Profiles.Keeps (pool pool' : Profiles) : Prop :=
  ∀ k r, pool.find k = some r → r.profileState ≠ .available → pool'.find k = some r

theorem update_keeps {f : MsisdnRow → MsisdnRow} (hf : ∀ r, (f r).msisdn = r.msisdn)
    (h : ∀ r, pool.find m = some r → ¬ r.Taken) : Numbers.Keeps pool (pool.update m f hf) := by
  intro k r hr htaken
  rw [Table.find_update]
  split
  · rename_i hk
    exact absurd htaken (h r (hk ▸ hr))
  · exact hr

/-- A reservation takes a row that was not taken, and names it in its reply. -/
theorem reserveNextMsisdn_eq_ok {locked : List String} {preference : Option String} {now : Time} {reply : Object}
    (h : reserveNextMsisdn pool locked preference now = .ok (pool', reply)) :
    ∃ m old row, strField reply "msisdn" = some m ∧ pool.find m = some old ∧ ¬ old.Taken ∧
      pool'.find m = some row ∧ row.status = .reserved ∧ row.Taken ∧ Numbers.Keeps pool pool' := by
  unfold reserveNextMsisdn at h
  split at h
  · simp at h
  · rename_i m hm
    obtain ⟨old, hold, hclaim⟩ := pickMsisdn_eq_some hm
    have hfree : ∀ r, pool.find m = some r → ¬ r.Taken := fun r hr htaken => by
      obtain rfl : old = r := Option.some.inj (hold.symm.trans hr)
      exact Taken.not_claimable htaken hclaim
    have hrow := pool.find_update m m (MsisdnRow.hardReserve now) fun _ => rfl
    rw [if_pos rfl, hold, Option.map_some] at hrow
    simp only [hrow] at h
    cases h
    refine ⟨m, old, _, ?_, hold, hfree old hold, hrow, rfl, ⟨Or.inl rfl, rfl, rfl⟩, update_keeps _ hfree⟩
    have hkey := (pool.find_some hold).2
    simp [strField, toMsisdnResponse, Fields.get_cons, Value.asStr, Value.str, MsisdnRow.hardReserve, hkey]

theorem reserveMsisdn_keeps {locked : List String} {now : Time} (h : reserveMsisdn pool locked m now = .ok pool') :
    Numbers.Keeps pool pool' := by
  unfold reserveMsisdn at h
  split at h
  · rename_i hfree
    cases h
    obtain ⟨-, old, hold, hstatus⟩ := hfree
    refine update_keeps _ fun r hr htaken => ?_
    obtain rfl : old = r := Option.some.inj (hold.symm.trans hr)
    rcases htaken.1 with hs | hs <;> simp [hs] at hstatus
  · simp at h

theorem holdMsisdn_keeps {reservedFor : String} {ttl : ℤ} {now : Time}
    (h : holdMsisdn pool m reservedFor ttl now = .ok pool') : Numbers.Keeps pool pool' := by
  unfold holdMsisdn at h
  split at h
  · rename_i hfree
    cases h
    obtain ⟨old, hold, hholdable⟩ := hfree
    refine update_keeps _ fun r hr htaken => ?_
    obtain rfl : old = r := Option.some.inj (hold.symm.trans hr)
    exact Taken.not_holdable htaken reservedFor now hholdable
  · simp at h

theorem releaseHoldsFor_keeps (pool : Numbers) (reservedFor : String) :
    Numbers.Keeps pool (releaseHoldsFor pool reservedFor) := by
  intro k r hr htaken
  rw [releaseHoldsFor, Table.find_map, hr, Option.map_some, if_neg]
  simp [htaken.2.1]

theorem assignMsisdn_eq_ok (h : assignMsisdn pool m = .ok pool') :
    pool' = pool.update m (fun r => { r with status := .assigned }) fun _ => rfl := by
  unfold assignMsisdn at h
  split at h
  · simp at h
  · split at h
    · cases h
      rfl
    · simp at h

theorem find_writeRelease_ne {k : String} (h : k ≠ m) : (writeRelease pool m).find k = pool.find k := by
  unfold writeRelease
  rw [Table.find_update, if_neg h]

section Esim

variable {profiles profiles' : Profiles} {iccid : String}

theorem reserveEsim_eq_ok {locked : List String} {now : Time} {reply : Object}
    (h : reserveEsim profiles locked now = .ok (profiles', reply)) :
    ∃ iccid old row, strField reply "iccid" = some iccid ∧ profiles.find iccid = some old ∧
      old.profileState = .available ∧ profiles'.find iccid = some row ∧ row.profileState = .reserved ∧
      Profiles.Keeps profiles profiles' := by
  unfold reserveEsim at h
  split at h
  · simp at h
  · rename_i iccid hiccid
    obtain ⟨old, hmem, rfl⟩ := List.mem_map.mp (least_mem hiccid)
    rw [List.mem_filter] at hmem
    have havailable : old.profileState = .available := (of_decide_eq_true hmem.2).1
    have hold := profiles.find_of_mem hmem.1
    have hrow : (profiles.update old.iccid (fun r => { r with profileState := .reserved, reservedAt := some now })
        fun _ => rfl).find old.iccid = some { old with profileState := .reserved, reservedAt := some now } := by
      rw [Table.find_update, if_pos rfl, hold, Option.map_some]
    simp only [hrow] at h
    cases h
    refine ⟨old.iccid, old, _, ?_, hold, havailable, hrow, rfl, fun k r hr hstate => ?_⟩
    · simp [strField, toEsimResponse, Fields.get_cons, Value.asStr, Value.str]
    · rw [Table.find_update]
      split
      · rename_i hk
        subst hk
        obtain rfl : old = r := Option.some.inj (hold.symm.trans hr)
        exact absurd havailable hstate
      · exact hr

theorem assignMsisdnToEsim_eq_ok {numbers : Numbers} (h : assignMsisdnToEsim numbers profiles iccid m = .ok profiles') :
    profiles' = profiles.update iccid (fun r => { r with profileState := .reserved, assignedMsisdn := some m })
      fun _ => rfl := by
  unfold assignMsisdnToEsim at h
  split at h
  · obtain ⟨⟨⟩, -, h⟩ := bind_eq_ok.mp h
    split at h
    · obtain ⟨⟨⟩, -, h⟩ := bind_eq_ok.mp h
      cases h
      rfl
    · simp at h
  · simp at h

theorem find_writeTransition_ne {k : String} {state : EsimState} {now : Time} (h : k ≠ iccid) :
    (writeTransition profiles iccid state now).find k = profiles.find k := by
  unfold writeTransition
  rw [Table.find_update, if_neg h]

end Esim

end BssCli.Crm

/-!
# Port requests

The approval of a request: a number that comes in is added to the pool, and one that goes
out is closed. Neither looks at a hold on the number.
-/

namespace BssCli.Crm

inductive PortDirection
  | portIn
  | portOut
  deriving DecidableEq

def PortDirection.name : PortDirection → String
  | portIn => "port_in"
  | portOut => "port_out"

inductive PortState
  | requested
  | validated
  | completed
  | rejected
  deriving DecidableEq

def PortState.name : PortState → String
  | requested => "requested"
  | validated => "validated"
  | completed => "completed"
  | rejected => "rejected"

structure PortRequestRow where
  id : String
  direction : PortDirection
  donorCarrier : String
  donorMsisdn : String
  targetSubscriptionId : Option String
  state : PortState
  deriving DecidableEq

def portTransitions : List (String × PortState × PortState) :=
  [("validate", .requested, .validated), ("complete", .requested, .completed),
   ("complete", .validated, .completed), ("reject", .requested, .rejected),
   ("reject", .validated, .rejected)]

def checkPrTransitionValid (state : PortState) (trigger : String) : Except ApiError Unit :=
  if portTransitions.any fun t => t.1 = trigger ∧ t.2.1 = state then .ok ()
  else .error (.policy
    { rule := "port_request.transition.valid"
      message := s!"Cannot '{trigger}' a port request in state '{state.name}'"
      context := [("from_state", .str state.name), ("trigger", .str trigger)] })

/-! ## The pool -/

def portInStatus (port : PortRequestRow) : MsisdnStatus :=
  if port.targetSubscriptionId.isSome then .assigned else .available

def portedInRow (port : PortRequestRow) : MsisdnRow :=
  ⟨port.donorMsisdn, portInStatus port, none, port.targetSubscriptionId, none, none⟩

/-- `INSERT … ON CONFLICT DO NOTHING`. -/
def portIn (port : PortRequestRow) (pool : Numbers) : Numbers :=
  (pool.insert (portedInRow port)).getD pool

def MsisdnRow.portOut (targetSubscriptionId : String) (r : MsisdnRow) : MsisdnRow :=
  { r with status := .portedOut, assignedToSubscriptionId := some targetSubscriptionId }

def portedEvent (port : PortRequestRow) (now : Time) : Event :=
  match port.direction with
  | .portIn => ⟨"inventory.msisdn.seeded_from_port_in", "msisdn_pool", port.donorMsisdn,
      [("msisdn", .str port.donorMsisdn), ("donorCarrier", .str port.donorCarrier),
       ("portRequestId", .str port.id), ("targetSubscriptionId", optValue .str port.targetSubscriptionId),
       ("status", .str (portInStatus port).name)]⟩
  | .portOut => ⟨"inventory.msisdn.ported_out", "msisdn_pool", port.donorMsisdn,
      [("msisdn", .str port.donorMsisdn), ("donorCarrier", .str port.donorCarrier),
       ("portRequestId", .str port.id), ("targetSubscriptionId", optValue .str port.targetSubscriptionId),
       ("portedOutAt", .time now)]⟩

def portEvents (port : PortRequestRow) (now : Time) : List Event :=
  [portedEvent port now,
   ⟨"port_request.approved", "port_request", port.id,
    [("portRequestId", .str port.id), ("direction", .str port.direction.name),
     ("donorMsisdn", .str port.donorMsisdn),
     ("targetSubscriptionId", optValue .str port.targetSubscriptionId)]⟩,
   ⟨"port_request.completed", "port_request", port.id,
    [("portRequestId", .str port.id), ("direction", .str port.direction.name)]⟩]

/-- What an approval leaves: the pool, the request and the staged events. -/
def approvePortRequest (port : PortRequestRow) (now : Time) (pool : Numbers) :
    Except ApiError (Numbers × PortRequestRow × List Event) := do
  checkPrTransitionValid port.state "complete"
  match port.direction, port.targetSubscriptionId with
  | .portIn, _ => return (portIn port pool, { port with state := .completed }, portEvents port now)
  | .portOut, none => .error (.policy
    { rule := "port_request.create.target_sub_required_for_port_out"
      message := "port_out requires target_subscription_id at approve"
      context := [("port_request_id", .str port.id)] })
  | .portOut, some target =>
    return (pool.update port.donorMsisdn (·.portOut target) fun _ => rfl,
      { port with state := .completed }, portEvents port now)

theorem approvePortRequest_eq_ok {port port' : PortRequestRow} {now : Time} {pool pool' : Numbers}
    {events : List Event} (h : approvePortRequest port now pool = .ok (pool', port', events)) :
    (port.direction = .portIn ∧ pool' = portIn port pool) ∨
      port.direction = .portOut ∧ ∃ target,
        pool' = pool.update port.donorMsisdn (·.portOut target) fun _ => rfl := by
  simp only [approvePortRequest, bind_eq_ok] at h
  obtain ⟨⟨⟩, -, h⟩ := h
  split at h
  · cases h
    exact Or.inl ⟨‹_›, rfl⟩
  · cases h
  · cases h
    exact Or.inr ⟨‹_›, _, rfl⟩

end BssCli.Crm
