import BssCli.Crm.Inventory
import BssCli.Lib.Pool
import BssCli.Lib.Spend
import BssCli.Lib.Steps
import BssCli.Lib.Text

/-!
# How a port request is settled

An approval and a rejection read the request, and write in a transaction of their own that does
not look at its state again. A number that comes in leaves a row of the pool as it is, and the
subscription of a number that goes out is terminated after the commit, as far as the call gets.
-/

namespace BssCli.Crm.Porting

open Steps

abbrev PortRequests := Table PortRequestRow.id (fun id : String => id)

def settledStates : List PortState := [.completed, .rejected]

def settledTypes : List String := ["port_request.completed", "port_request.rejected"]

/-! ## The calls -/

def getPortRequest (requests : PortRequests) (portId : String) : Except ApiError PortRequestRow :=
  match requests.find portId with
  | some port => .ok port
  | none => .error (.policy
    { rule := "port_request.not_found"
      message := s!"Port request {portId} not found"
      context := [("port_request_id", .str portId)] })

def checkRejectReason (reason : String) : Except ApiError Unit :=
  if Text.trim reason.toList = [] then .error (.policy
    { rule := "port_request.reject.requires_reason"
      message := "Rejection reason is required"
      context := [] })
  else .ok ()

def rejectedEvent (port : PortRequestRow) (reason : String) : Event :=
  ⟨"port_request.rejected", "port_request", port.id,
    [("portRequestId", .str port.id), ("direction", .str port.direction.name),
     ("donorMsisdn", .str port.donorMsisdn), ("reason", .str reason)]⟩

def readForApproval (requests : PortRequests) (portId : String) : Except ApiError PortRequestRow := do
  let port ← getPortRequest requests portId
  checkPrTransitionValid port.state "complete"
  return port

def readForRejection (requests : PortRequests) (portId reason : String) : Except ApiError PortRequestRow := do
  let port ← getPortRequest requests portId
  checkRejectReason reason
  checkPrTransitionValid port.state "reject"
  return port

/-! ## Calls side by side -/

inductive Call
  | approve (portId : String)
  | reject (portId reason : String)

inductive Flight
  | called (c : Call)
  | approving (port : PortRequestRow)
  | rejecting (port : PortRequestRow) (reason : String)
  | terminating (port : PortRequestRow) (target : String)

/-- The row of the number before and after the transaction of an approval. -/
structure Commit where
  port : PortRequestRow
  before : Option MsisdnRow
  after : Option MsisdnRow

/-- The store, the calls under way, and what was done: the transactions of approvals, the
terminations that the subscription service made or failed to make, the approvals answered `Ok`. -/
structure World where
  requests : PortRequests
  pool : Numbers
  events : List Event
  flights : List Flight
  commits : List Commit
  terminated : List String
  failed : List String
  approved : List PortRequestRow

/-- What a step takes from outside: the clock, and whether its statements or its call succeed. -/
structure Draw where
  now : Time
  ok : Bool

inductive Label
  | begin (c : Call)
  | run (i : ℕ) (d : Draw)
  /-- The request is given up, the process dies. -/
  | drop (i : ℕ)
  /-- `create_port_request` commits. -/
  | create (port : PortRequestRow)

def PortRequestRow.settle (state : PortState) (r : PortRequestRow) : PortRequestRow := { r with state }

theorem settle_id (state : PortState) (r : PortRequestRow) : (PortRequestRow.settle state r).id = r.id := rfl

namespace World

def initial (requests : PortRequests) (pool : Numbers) : World := ⟨requests, pool, [], [], [], [], [], []⟩

def settleRequest (w : World) (id : String) (state : PortState) : World :=
  { w with requests := w.requests.update id (PortRequestRow.settle state) (settle_id state) }

def ends (w : World) (i : ℕ) : World := { w with flights := w.flights.eraseIdx i }

def goes (w : World) (i : ℕ) (f : Flight) : World := { w with flights := w.flights.set i f }

def approve (w : World) (port : PortRequestRow) (now : Time) : Except ApiError World := do
  let (pool, _, events) ← approvePortRequest port now w.pool
  return { w.settleRequest port.id .completed with
    pool, events := w.events ++ events
    commits := w.commits ++ [⟨port, w.pool.find port.donorMsisdn, pool.find port.donorMsisdn⟩] }

def reject (w : World) (port : PortRequestRow) (reason : String) : World :=
  let w := w.settleRequest port.id .rejected
  { w with events := w.events ++ [rejectedEvent port reason] }

def runFlight (w : World) (i : ℕ) (d : Draw) : Flight → World
  | .called (.approve portId) =>
    match readForApproval w.requests portId with
    | .ok port => if d.ok then w.goes i (.approving port) else w.ends i
    | .error _ => w.ends i
  | .called (.reject portId reason) =>
    match readForRejection w.requests portId reason with
    | .ok port => if d.ok then w.goes i (.rejecting port reason) else w.ends i
    | .error _ => w.ends i
  | .approving port =>
    match if d.ok then w.approve port d.now else .error (dbError "transaction failed") with
    | .error _ => w.ends i
    | .ok w =>
      match port.direction, port.targetSubscriptionId with
      | .portOut, some target => w.goes i (.terminating port target)
      | _, _ => { w.ends i with approved := w.approved ++ [port] }
  | .rejecting port reason => if d.ok then (w.reject port reason).ends i else w.ends i
  -- A failed call is logged and passed over.
  | .terminating port target =>
    let w := { w.ends i with approved := w.approved ++ [port] }
    if d.ok then { w with terminated := w.terminated ++ [target] } else { w with failed := w.failed ++ [target] }

def step (w : World) : Label → Option World
  | .begin c => some { w with flights := w.flights ++ [.called c] }
  | .run i d => w.flights[i]?.map (w.runFlight i d)
  | .drop i => some (w.ends i)
  | .create port =>
    if port.state = .requested then (w.requests.insert port).map fun requests => { w with requests } else none

end World

/-- The request that the transaction of the flight settles. -/
def Flight.settles : Flight → Option PortRequestRow
  | .approving port => if port.direction = .portOut ∧ port.targetSubscriptionId = none then none else some port
  | .rejecting port _ => some port
  | .called _ | .terminating .. => none

def Unsettled (requests : PortRequests) (id : String) : Prop := ∃ r ∈ requests.find id, r.state ∉ settledStates

instance (requests : PortRequests) (id : String) : Decidable (Unsettled requests id) :=
  inferInstanceAs (Decidable (∃ r ∈ _, _))

/-- What is settled was not settled since it was read. -/
def SettlesOpen (w : World) : Label → Prop
  | .run i d => ∀ f ∈ w.flights[i]?, d.ok → ∀ port ∈ f.settles, Unsettled w.requests port.id
  | _ => True

instance (w : World) : (l : Label) → Decidable (SettlesOpen w l)
  | .run .. => inferInstanceAs (Decidable (∀ f ∈ _, _ → ∀ port ∈ _, _))
  | .begin _ | .drop _ | .create _ => inferInstanceAs (Decidable True)

/-- The request that an event reports as settled. -/
def settledBy (e : Event) : Option String := if e.eventType ∈ settledTypes then some e.aggregateId else none

def Settled (requests : PortRequests) (id : String) : Prop := ∃ r ∈ requests.find id, r.state ∈ settledStates

/-- What the approval has left in the pool: a number that came in has a row, its own or the one
that was there, and the row of a number that went out is closed on the target. -/
def Commit.Ported (c : Commit) : Prop :=
  match c.port.direction with
  | .portIn => c.after = some (c.before.getD (portedInRow c.port))
  | .portOut => ∃ target ∈ c.port.targetSubscriptionId, c.after = c.before.map (·.portOut target)

/-! ## What a transaction writes -/

section

variable {w w' : World}

theorem Unsettled.not_settled {requests : PortRequests} {id : String} (h : Unsettled requests id) :
    ¬ Settled requests id := by
  obtain ⟨r, hr, hopen⟩ := h
  rintro ⟨r', hr', hsettled⟩
  rw [Option.mem_def] at hr hr'
  rw [hr, Option.some.injEq] at hr'
  exact hopen (hr' ▸ hsettled)

theorem portEvents_settledBy (port : PortRequestRow) (now : Time) :
    (portEvents port now).filterMap settledBy = [port.id] := by
  have hported : settledBy (portedEvent port now) = none := by
    unfold portedEvent
    split <;> rfl
  rw [portEvents, List.filterMap_cons_none hported]
  rfl

theorem find_portIn (port : PortRequestRow) (pool : Numbers) :
    (portIn port pool).find port.donorMsisdn = some ((pool.find port.donorMsisdn).getD (portedInRow port)) := by
  unfold portIn
  cases hins : pool.insert (portedInRow port) with
  | some pool' =>
    obtain ⟨-, hnone⟩ := Table.rows_insert hins
    have hkey : (portedInRow port).msisdn = port.donorMsisdn := rfl
    rw [hkey] at hnone
    rw [Option.getD_some, Table.find_insert hins, if_pos hkey, hnone]
    rfl
  | none =>
    have hsome : ¬ (pool.insert (portedInRow port)).isSome := by simp [hins]
    rw [Table.insert_isSome] at hsome
    simp only [not_forall, not_not] at hsome
    obtain ⟨r, hr, hkey⟩ := hsome
    have hfind := pool.find_of_mem hr
    rw [show r.msisdn = port.donorMsisdn from hkey] at hfind
    rw [Option.getD_none, hfind]
    rfl

theorem approve_eq_ok {port : PortRequestRow} {now : Time} (h : w.approve port now = .ok w') :
    ∃ c, c.port = port ∧ c.Ported ∧ w'.commits = w.commits ++ [c] ∧
      w'.requests = (w.settleRequest port.id .completed).requests ∧
      w'.events = w.events ++ portEvents port now ∧ w'.flights = w.flights ∧
      w'.terminated = w.terminated ∧ w'.failed = w.failed ∧ w'.approved = w.approved := by
  simp only [World.approve, bind_eq_ok] at h
  obtain ⟨⟨pool, port', events⟩, hok, h⟩ := h
  cases h
  simp only [approvePortRequest, bind_eq_ok] at hok
  obtain ⟨⟨⟩, -, hok⟩ := hok
  refine ⟨_, rfl, ?_, rfl, rfl, ?_, rfl, rfl, rfl, rfl⟩
  · split at hok
    · rename_i hdir
      cases hok
      simp only [Commit.Ported, hdir]
      exact find_portIn port w.pool
    · cases hok
    · rename_i target hdir htarget
      cases hok
      simp only [Commit.Ported, hdir]
      exact ⟨target, htarget, (w.pool.find_update _ _ _ _).trans (if_pos rfl)⟩
  · split at hok
    · cases hok
      rfl
    · cases hok
    · cases hok
      rfl

theorem approve_settles {port : PortRequestRow} {now : Time} (h : w.approve port now = .ok w') :
    port ∈ (Flight.approving port).settles := by
  refine if_neg ?_
  rintro ⟨hdir, hnone⟩
  simp only [World.approve, approvePortRequest, bind_eq_ok] at h
  obtain ⟨r, ⟨⟨⟩, -, hok⟩, -⟩ := h
  rw [hdir, hnone] at hok
  cases hok

/-- A transaction settles the request of its flight, with one event, or it writes to none. -/
theorem runFlight_writes (w : World) (i : ℕ) (d : Draw) (f : Flight) :
    ((w.runFlight i d f).requests = w.requests ∧ (w.runFlight i d f).events = w.events) ∨
      ∃ port ∈ f.settles, ∃ state ∈ settledStates, ∃ events, d.ok ∧
        (w.runFlight i d f).requests = (w.settleRequest port.id state).requests ∧
        (w.runFlight i d f).events = w.events ++ events ∧ events.filterMap settledBy = [port.id] := by
  cases f with
  | called c =>
    left
    cases c <;> simp only [World.runFlight] <;> split <;> (try split) <;> exact ⟨rfl, rfl⟩
  | terminating port target =>
    left
    simp only [World.runFlight]
    split <;> exact ⟨rfl, rfl⟩
  | rejecting port reason =>
    simp only [World.runFlight]
    split
    · rename_i hok
      exact Or.inr ⟨port, rfl, .rejected, by simp [settledStates], [rejectedEvent port reason], hok, rfl, rfl, rfl⟩
    · exact Or.inl ⟨rfl, rfl⟩
  | approving port =>
    simp only [World.runFlight]
    split
    · exact Or.inl ⟨rfl, rfl⟩
    · rename_i w' hw'
      right
      split at hw'
      · rename_i hok
        obtain ⟨c, -, -, -, hrequests, hevents, -⟩ := approve_eq_ok hw'
        refine ⟨port, approve_settles hw', .completed, by simp [settledStates], portEvents port d.now, hok, ?_⟩
        split
        · exact ⟨hrequests, hevents, portEvents_settledBy ..⟩
        · exact ⟨hrequests, hevents, portEvents_settledBy ..⟩
      · cases hw'

/-! ## Once -/

theorem settled_update {requests : PortRequests} {id k : String} {state : PortState} (hstate : state ∈ settledStates)
    (h : Settled requests k) : Settled (requests.update id (PortRequestRow.settle state) (settle_id state)) k :=
  requests.exists_find_update id _ (settle_id state) (fun _ _ => hstate) h

abbrev Inv (w : World) : Prop := Spend.Inv (Settled w.requests) (w.events.filterMap settledBy)

theorem runFlight_inv {i : ℕ} {d : Draw} {f : Flight} (hi : Inv w) (hf : w.flights[i]? = some f)
    (hc : SettlesOpen w (.run i d)) : Inv (w.runFlight i d f) := by
  rcases runFlight_writes w i d f with
    ⟨hrequests, hevents⟩ | ⟨port, hport, state, hstate, events, hok, hrequests, hevents, hnew⟩
  · rw [Inv, hrequests, hevents]
    exact hi
  · have hopen := hc f hf hok port hport
    rw [Inv, hrequests, hevents, List.filterMap_append, hnew]
    refine hi.append (fun k => settled_update hstate) (List.nodup_singleton _) fun k hk => ?_
    rw [List.mem_singleton.mp hk]
    obtain ⟨r, hr, -⟩ := id hopen
    exact ⟨hopen.not_settled,
      w.requests.exists_find_update_self _ (settle_id state) (p := fun _ => True) (fun _ _ => hstate) ⟨r, hr, trivial⟩⟩

theorem step_inv {l : Label} (hi : Inv w) (hc : SettlesOpen w l) (h : w.step l = some w') : Inv w' := by
  cases l with
  | begin c => cases h; exact hi
  | drop i => cases h; exact hi
  | run i d =>
    obtain ⟨f, hf, rfl⟩ := Option.map_eq_some_iff.mp h
    exact runFlight_inv hi hf hc
  | create port =>
    obtain ⟨-, h⟩ := Option.ite_none_right_eq_some.mp h
    obtain ⟨requests, hins, rfl⟩ := Option.map_eq_some_iff.mp h
    exact hi.mono fun k hk => Table.exists_find_insert hins hk

theorem step_absorbing {l : Label} (hc : SettlesOpen w l) (h : w.step l = some w') {id : String} {state : PortState}
    (hstate : state ∈ settledStates) (hr : ∃ r ∈ w.requests.find id, r.state = state) :
    ∃ r ∈ w'.requests.find id, r.state = state := by
  cases l with
  | begin c => cases h; exact hr
  | drop i => cases h; exact hr
  | run i d =>
    obtain ⟨f, hf, rfl⟩ := Option.map_eq_some_iff.mp h
    rcases runFlight_writes w i d f with ⟨hrequests, -⟩ | ⟨port, hport, state', -, -, hok, hrequests, -⟩
    · rwa [hrequests]
    · have hne : id ≠ port.id := by
        rintro rfl
        obtain ⟨r, hfind, rfl⟩ := hr
        exact (hc f hf hok port hport).not_settled ⟨r, hfind, hstate⟩
      rw [hrequests]
      rwa [show (w.settleRequest port.id state').requests.find id = w.requests.find id from
        w.requests.find_update_ne hne _ (settle_id state')]
  | create port =>
    obtain ⟨-, h⟩ := Option.ite_none_right_eq_some.mp h
    obtain ⟨requests, hins, rfl⟩ := Option.map_eq_some_iff.mp h
    exact Table.exists_find_insert hins hr

/-! ## What an answer says -/

def Committed (w : World) (port : PortRequestRow) : Prop := ∃ c ∈ w.commits, c.port = port

/-- The termination of the target was asked for, and it was made or it failed. -/
def Terminated (w : World) (port : PortRequestRow) : Prop :=
  port.direction = .portOut → ∃ target ∈ port.targetSubscriptionId, target ∈ w.terminated ∨ target ∈ w.failed

structure Backed (w : World) : Prop where
  ported : ∀ c ∈ w.commits, c.Ported
  approved : ∀ port ∈ w.approved, Committed w port ∧ Terminated w port
  terminating : ∀ port target, .terminating port target ∈ w.flights →
    Committed w port ∧ port.targetSubscriptionId = some target

theorem Backed.step (cs : List Commit) (hb : Backed w) (hcommits : w'.commits = w.commits ++ cs)
    (hported : ∀ c ∈ cs, c.Ported) (hterminated : w.terminated ⊆ w'.terminated) (hfailed : w.failed ⊆ w'.failed)
    (happroved : ∀ port ∈ w'.approved, port ∈ w.approved ∨ Committed w' port ∧ Terminated w' port)
    (hflights : ∀ port target, .terminating port target ∈ w'.flights → .terminating port target ∈ w.flights ∨
      Committed w' port ∧ port.targetSubscriptionId = some target) : Backed w' := by
  have hcommitted : ∀ port, Committed w port → Committed w' port := by
    rintro port ⟨c, hc, hport⟩
    exact ⟨c, hcommits ▸ List.mem_append_left cs hc, hport⟩
  refine ⟨fun c hc => ?_, fun port hport => ?_, fun port target hf => ?_⟩
  · rw [hcommits] at hc
    rcases List.mem_append.mp hc with hc | hc
    · exact hb.ported c hc
    · exact hported c hc
  · rcases happroved port hport with hold | hnew
    · obtain ⟨hc, ht⟩ := hb.approved port hold
      refine ⟨hcommitted port hc, fun hout => ?_⟩
      obtain ⟨target, htarget, h⟩ := ht hout
      exact ⟨target, htarget, h.imp (@hterminated target) (@hfailed target)⟩
    · exact hnew
  · rcases hflights port target hf with hold | hnew
    · exact ⟨hcommitted port (hb.terminating port target hold).1, (hb.terminating port target hold).2⟩
    · exact hnew

theorem Backed.answers {port : PortRequestRow} (cs : List Commit) (hb : Backed w)
    (hcommits : w'.commits = w.commits ++ cs) (hported : ∀ c ∈ cs, c.Ported) (hterminated : w.terminated ⊆ w'.terminated)
    (hfailed : w.failed ⊆ w'.failed) (happroved : w'.approved = w.approved ++ [port])
    (hdone : Committed w' port ∧ Terminated w' port) (hflights : w'.flights ⊆ w.flights) : Backed w' := by
  refine hb.step cs hcommits hported hterminated hfailed (fun port' hport' => ?_) fun _ _ hf => Or.inl (hflights hf)
  rw [happroved] at hport'
  rcases List.mem_append.mp hport' with hold | hnew
  · exact Or.inl hold
  · rw [List.mem_singleton.mp hnew]
    exact Or.inr hdone

theorem Backed.flights (hb : Backed w) {flights : List Flight}
    (h : ∀ port target, Flight.terminating port target ∈ flights → .terminating port target ∈ w.flights) :
    Backed { w with flights } :=
  ⟨hb.ported, hb.approved, fun port target hf => hb.terminating port target (h port target hf)⟩

theorem Backed.ends (hb : Backed w) (i : ℕ) : Backed (w.ends i) :=
  hb.flights fun _ _ hf => List.mem_of_mem_eraseIdx hf

theorem Backed.goes (hb : Backed w) (i : ℕ) {f : Flight} (h : ∀ port target, f ≠ .terminating port target) :
    Backed (w.goes i f) := by
  refine hb.flights fun port target hf => ?_
  rcases List.mem_or_eq_of_mem_set hf with hf | hf
  · exact hf
  · exact absurd hf.symm (h port target)

theorem terminating_backed (hb : Backed w) {i : ℕ} (d : Draw) {port : PortRequestRow} {target : String}
    (hf : w.flights[i]? = some (.terminating port target)) : Backed (w.runFlight i d (.terminating port target)) := by
  obtain ⟨hcommitted, htarget⟩ := hb.terminating port target (Pool.mem_of_getElem? hf)
  simp only [World.runFlight]
  split
  · refine hb.answers [] (by simp [World.ends]) (by simp) (by simp [World.ends]) (by simp [World.ends]) rfl
      ⟨hcommitted, fun _ => ⟨target, htarget, Or.inl (by simp)⟩⟩ ?_
    exact fun _ => List.mem_of_mem_eraseIdx
  · refine hb.answers [] (by simp [World.ends]) (by simp) (by simp [World.ends]) (by simp [World.ends]) rfl
      ⟨hcommitted, fun _ => ⟨target, htarget, Or.inr (by simp)⟩⟩ ?_
    exact fun _ => List.mem_of_mem_eraseIdx

theorem approving_backed (hb : Backed w) (i : ℕ) (d : Draw) (port : PortRequestRow) :
    Backed (w.runFlight i d (.approving port)) := by
  simp only [World.runFlight]
  split
  · exact hb.ends i
  · rename_i w' hw'
    split at hw'
    · obtain ⟨c, hport, hported, hcommits, -, -, hflights, hterminated, hfailed, happroved⟩ := approve_eq_ok hw'
      have hnew : c ∈ w.commits ++ [c] := List.mem_append_right _ (List.mem_singleton_self c)
      split
      · rename_i target hdir htarget
        refine Backed.step [c] hb hcommits (by simpa using hported) (by simp [World.goes, hterminated])
          (by simp [World.goes, hfailed]) (by simpa [World.goes, happroved] using fun p hp => Or.inl hp) ?_
        intro port' target' hf'
        rw [World.goes, hflights] at hf'
        rcases List.mem_or_eq_of_mem_set hf' with hold | heq
        · exact Or.inl hold
        · cases heq
          exact Or.inr ⟨⟨c, hcommits ▸ hnew, hport⟩, htarget⟩
      · rename_i hnot
        refine hb.answers [c] hcommits (by simpa using hported) (by simp [World.ends, hterminated])
          (by simp [World.ends, hfailed]) (by simp [happroved]) ⟨⟨c, hcommits ▸ hnew, hport⟩, fun hout => ?_⟩ ?_
        · cases htarget : port.targetSubscriptionId with
          | some target => exact absurd htarget (hnot target hout)
          | none =>
            have hsettles := approve_settles hw'
            simp [Flight.settles, hout, htarget] at hsettles
        · intro f hf'
          rw [World.ends, hflights] at hf'
          exact List.mem_of_mem_eraseIdx hf'
    · cases hw'

theorem runFlight_backed (hb : Backed w) {i : ℕ} (d : Draw) {f : Flight} (hf : w.flights[i]? = some f) :
    Backed (w.runFlight i d f) := by
  cases f with
  | called c =>
    cases c with
    | approve portId =>
      simp only [World.runFlight]
      split
      · split
        · exact hb.goes i (by simp)
        · exact hb.ends i
      · exact hb.ends i
    | reject portId reason =>
      simp only [World.runFlight]
      split
      · split
        · exact hb.goes i (by simp)
        · exact hb.ends i
      · exact hb.ends i
  | rejecting port reason =>
    simp only [World.runFlight]
    split
    · exact Backed.ends (w := w.reject port reason) ⟨hb.ported, hb.approved, hb.terminating⟩ i
    · exact hb.ends i
  | terminating port target => exact terminating_backed hb d hf
  | approving port => exact approving_backed hb i d port

theorem step_backed {l : Label} (hb : Backed w) (h : w.step l = some w') : Backed w' := by
  cases l with
  | begin c =>
    cases h
    refine hb.flights fun port target hf => ?_
    rcases List.mem_append.mp hf with hf | hf
    · exact hf
    · simp at hf
  | drop i =>
    cases h
    exact hb.ends i
  | run i d =>
    obtain ⟨f, hf, rfl⟩ := Option.map_eq_some_iff.mp h
    exact runFlight_backed hb d hf
  | create port =>
    obtain ⟨-, h⟩ := Option.ite_none_right_eq_some.mp h
    obtain ⟨requests, -, rfl⟩ := Option.map_eq_some_iff.mp h
    exact ⟨hb.ported, hb.approved, hb.terminating⟩

end

theorem initial_backed (requests : PortRequests) (pool : Numbers) : Backed (World.initial requests pool) :=
  ⟨by simp [World.initial], by simp [World.initial], by simp [World.initial]⟩

def samplePortIn : PortRequestRow := ⟨"PORT-1", .portIn, "ACME", "91005555", some "SUB-1", .requested⟩

def samplePortOut : PortRequestRow := ⟨"PORT-2", .portOut, "ACME", "90000007", some "SUB-2", .requested⟩

def sampleRequests : PortRequests := ⟨[samplePortIn, samplePortOut], by decide⟩

def samplePool : Numbers := .singleton ⟨"90000007", .assigned, none, some "SUB-2", none, none⟩

end BssCli.Crm.Porting
