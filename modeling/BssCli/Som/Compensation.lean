import BssCli.Som.Decomposition
import BssCli.Som.Inventory

/-!
# A decomposition that fails

The number and the eSIM are reserved in the middle of the transaction, by calls that nothing
rolls back. Every statement may fail, and every call may be lost on its way there or back.
-/

namespace BssCli.Som.Compensation

open Crm

/-! ## What may fail -/

inductive ServiceName
  | cfs
  | rfsData
  | rfsVoice
  deriving DecidableEq

inductive Statement
  | nextServiceOrderId
  | insertServiceOrder
  | nextServiceOrderItemId
  | insertServiceOrderItem
  | nextServiceId (service : ServiceName)
  | insertService (service : ServiceName)
  | setSoiTarget
  | setServiceState (service : ServiceName)
  | addStateHistory (service : ServiceName) (toState : ServiceState)
  | setServiceCharacteristics
  | setServiceOrderState
  | stageInProgress
  | stageTask (taskType : String)
  deriving DecidableEq

def newService (service : ServiceName) : List Statement :=
  [.nextServiceId service, .insertService service, .addStateHistory service .designed]

def toReserved (service : ServiceName) : List Statement :=
  [.setServiceState service, .addStateHistory service .reserved]

def before : List Statement :=
  [.nextServiceOrderId, .insertServiceOrder, .nextServiceOrderItemId, .insertServiceOrderItem] ++
    newService .cfs ++ newService .rfsData ++ newService .rfsVoice ++ [.setSoiTarget] ++
    toReserved .rfsData ++ toReserved .rfsVoice

def after : List Statement :=
  [.setServiceCharacteristics] ++ toReserved .cfs ++ [.setServiceOrderState, .stageInProgress] ++
    taskTypes.map .stageTask

/-- A request or its reply may be lost. Either way the client returns an error. -/
inductive CallEnd
  | replied
  | requestLost
  | replyLost
  deriving DecidableEq

structure Calls where
  fails : Statement → Bool
  /-- The rows that others have locked, which a reservation leaves out. -/
  lockedNumbers : List String
  lockedProfiles : List String
  reserveMsisdn : CallEnd
  reserveEsim : CallEnd
  releaseMsisdn : CallEnd

/-! ## The call -/

def statements (calls : Calls) (ss : List Statement) : Except String Unit :=
  if ∃ s ∈ ss, calls.fails s = true then .error "db error" else .ok ()

/-- A reservation: what it took, and what the orchestrator hears of it. -/
structure Reservation where
  inventory : Inventory
  made : Option Resource
  reply : Except String Object

def reserve (callEnd : CallEnd) (v : Inventory) (result : Except ApiError (Inventory × Object))
    (named : Object → Option Resource) : Reservation :=
  match callEnd, result with
  | .requestLost, _ => ⟨v, none, .error "transport error"⟩
  | _, .error _ => ⟨v, none, .error "refused"⟩
  | .replied, .ok (v', reply) => ⟨v', named reply, .ok reply⟩
  | .replyLost, .ok (v', reply) => ⟨v', named reply, .error "timeout"⟩

def reserveNextMsisdn (calls : Calls) (preference : Option String) (now : Time) (v : Inventory) : Reservation :=
  reserve calls.reserveMsisdn v (do
    let (numbers, reply) ← Crm.reserveNextMsisdn v.numbers calls.lockedNumbers preference now
    return ({ v with numbers }, reply)) msisdnOf

def reserveEsim (calls : Calls) (now : Time) (v : Inventory) : Reservation :=
  reserve calls.reserveEsim v (do
    let (profiles, reply) ← Crm.reserveEsim v.profiles calls.lockedProfiles now
    return ({ v with profiles }, reply)) esimOf

/-- An error of it is only logged. -/
def releaseMsisdn (calls : Calls) (msisdn : String) (now : Time) (v : Inventory) : Inventory :=
  if calls.releaseMsisdn = .requestLost then v
  else match v.readRelease (.msisdn msisdn) with
    | .error _ => v
    | .ok () => v.writeRelease now (.msisdn msisdn)

/-- What a decomposition leaves, with the resources it has reserved. An error of it rolls its
transaction back. -/
structure Outcome where
  inventory : Inventory
  db : SomDb
  reserved : List Resource
  result : Except String Unit

/-- `decompose_order`, in the transaction of its consumer. -/
def decompose (calls : Calls) (req : DecomposeRequest) (ids : DecomposeIds) (now : Time) (v : Inventory)
    (db : SomDb) : Outcome :=
  match statements calls before >>= fun _ => insertGraph req ids db with
  | .error e => ⟨v, db, [], .error e⟩
  | .ok _ =>
    let number := reserveNextMsisdn calls req.msisdnPreference now v
    match number.reply with
    | .error e => ⟨number.inventory, db, number.made.toList, .error s!"reserve_next_msisdn failed: {e}"⟩
    | .ok msisdnResult =>
      let esim := reserveEsim calls now number.inventory
      let reserved := number.made.toList ++ esim.made.toList
      match esim.reply with
      | .error e =>
        let inventory := match strField msisdnResult "msisdn" with
          | some m => releaseMsisdn calls m now esim.inventory
          | none => esim.inventory
        ⟨inventory, db, reserved, .error s!"reserve_esim failed: {e}"⟩
      | .ok esimResult =>
        -- From here on an error only goes up.
        let rest := do
          let r ← Reserved.ofReplies msisdnResult esimResult
          statements calls after
          decomposeOrder req ids r now db
        match rest with
        | .error e => ⟨esim.inventory, db, reserved, .error e⟩
        | .ok db' => ⟨esim.inventory, db', reserved, .ok ()⟩

/-! ## What is left behind -/

/-- Nothing that was reserved is still taken, and no row is there that was not before. -/
structure Undone (db : SomDb) (out : Outcome) : Prop where
  released : ∀ r ∈ out.reserved, ¬ out.inventory.Taken r
  rows : out.db = db

/-- The rows before the reservations are written, and a number is reserved. -/
structure ReservesNumber (calls : Calls) (req : DecomposeRequest) (ids : DecomposeIds) (now : Time)
    (v : Inventory) (db : SomDb) : Prop where
  statements : ∀ s ∈ before, calls.fails s = false
  graph : ∃ db', insertGraph req ids db = .ok db'
  reserved : (reserveNextMsisdn calls req.msisdnPreference now v).made.isSome

/-- Once the number is reserved its reply arrives, and once the eSIM is reserved too its reply
arrives and no statement fails any more. -/
def RestGoesWell (calls : Calls) (req : DecomposeRequest) (now : Time) (v : Inventory) : Prop :=
  calls.reserveMsisdn = .replied ∧
    ((reserveEsim calls now (reserveNextMsisdn calls req.msisdnPreference now v).inventory).made.isSome →
      calls.reserveEsim = .replied ∧ ∀ s ∈ after, calls.fails s = false)

section

variable {calls : Calls} {req : DecomposeRequest} {ids : DecomposeIds} {now : Time} {v : Inventory} {db : SomDb}

theorem statements_eq_ok {ss : List Statement} :
    statements calls ss = .ok () ↔ ∀ s ∈ ss, calls.fails s = false := by
  unfold statements
  split
  · rename_i h
    obtain ⟨s, hs, hfails⟩ := h
    simp only [reduceCtorEq, false_iff, not_forall]
    exact ⟨s, hs, by simp [hfails]⟩
  · rename_i h
    simp only [true_iff]
    intro s hs
    by_contra hfails
    exact h ⟨s, hs, by simpa using hfails⟩

/-- Nothing is taken and an error comes back, or a resource is taken, and only a reply that
arrives says which. -/
theorem reserve_cases (callEnd : CallEnd) {result : Except ApiError (Inventory × Object)}
    {named : Object → Option Resource}
    (hnew : ∀ v' reply, result = .ok (v', reply) → ∃ r, named reply = some r ∧ v'.Reserved r) :
    ((reserve callEnd v result named).made = none ∧ (reserve callEnd v result named).inventory = v ∧
        ∃ e, (reserve callEnd v result named).reply = .error e) ∨
      ∃ r v' reply, result = .ok (v', reply) ∧ named reply = some r ∧ v'.Reserved r ∧
        (reserve callEnd v result named).made = some r ∧ (reserve callEnd v result named).inventory = v' ∧
        (callEnd = .replied ∧ (reserve callEnd v result named).reply = .ok reply ∨
          callEnd ≠ .replied ∧ ∃ e, (reserve callEnd v result named).reply = .error e) := by
  cases result with
  | error e =>
    left
    cases callEnd with
    | replied => exact ⟨rfl, rfl, _, rfl⟩
    | requestLost => exact ⟨rfl, rfl, _, rfl⟩
    | replyLost => exact ⟨rfl, rfl, _, rfl⟩
  | ok made =>
    obtain ⟨v', reply⟩ := made
    obtain ⟨r, hr, hreserved⟩ := hnew v' reply rfl
    cases callEnd with
    | requestLost => exact Or.inl ⟨rfl, rfl, _, rfl⟩
    | replied => exact Or.inr ⟨r, v', reply, rfl, hr, hreserved, hr, rfl, Or.inl ⟨rfl, rfl⟩⟩
    | replyLost => exact Or.inr ⟨r, v', reply, rfl, hr, hreserved, hr, rfl, Or.inr ⟨nofun, _, rfl⟩⟩

theorem reserveNextMsisdn_cases (calls : Calls) (req : DecomposeRequest) (now : Time) (v : Inventory) :
    ((reserveNextMsisdn calls req.msisdnPreference now v).made = none ∧
        ∃ e, (reserveNextMsisdn calls req.msisdnPreference now v).reply = .error e) ∨
      ∃ m reply, strField reply "msisdn" = some m ∧
        (reserveNextMsisdn calls req.msisdnPreference now v).made = some (.msisdn m) ∧
        (reserveNextMsisdn calls req.msisdnPreference now v).inventory.Reserved (.msisdn m) ∧
        (calls.reserveMsisdn = .replied ∧
            (reserveNextMsisdn calls req.msisdnPreference now v).reply = .ok reply ∨
          calls.reserveMsisdn ≠ .replied ∧
            ∃ e, (reserveNextMsisdn calls req.msisdnPreference now v).reply = .error e) := by
  have hnew : ∀ v' reply, (do
      let (numbers, reply) ← Crm.reserveNextMsisdn v.numbers calls.lockedNumbers req.msisdnPreference now
      return ({ v with numbers }, reply) : Except ApiError (Inventory × Object)) = .ok (v', reply) →
      ∃ r, msisdnOf reply = some r ∧ v'.Reserved r := by
    intro v' reply h
    obtain ⟨⟨numbers, reply'⟩, hreserve, h⟩ := bind_eq_ok.mp h
    cases h
    obtain ⟨r, hr, -, hreserved, -⟩ := Inventory.reserveNext_new hreserve
    exact ⟨r, hr, hreserved⟩
  rcases reserve_cases calls.reserveMsisdn (v := v) hnew with
    ⟨hmade, -, hreply⟩ | ⟨r, v', reply, -, hr, hreserved, hmade, hinv, hreply⟩
  · exact Or.inl ⟨hmade, hreply⟩
  · obtain ⟨m, hm, rfl⟩ := Option.map_eq_some_iff.mp hr
    exact Or.inr ⟨m, reply, hm, hmade, hinv ▸ hreserved, hreply⟩

theorem reserveEsim_cases (calls : Calls) (now : Time) (v : Inventory) :
    ((reserveEsim calls now v).made = none ∧ (reserveEsim calls now v).inventory = v ∧
        ∃ e, (reserveEsim calls now v).reply = .error e) ∨
      ∃ iccid reply, strField reply "iccid" = some iccid ∧ (reserveEsim calls now v).made = some (.esim iccid) ∧
        (reserveEsim calls now v).inventory.Taken (.esim iccid) ∧ v.Keeps (reserveEsim calls now v).inventory ∧
        (calls.reserveEsim = .replied ∧ (reserveEsim calls now v).reply = .ok reply ∨
          calls.reserveEsim ≠ .replied ∧ ∃ e, (reserveEsim calls now v).reply = .error e) := by
  have hnew : ∀ v' reply, (do
      let (profiles, reply) ← Crm.reserveEsim v.profiles calls.lockedProfiles now
      return ({ v with profiles }, reply) : Except ApiError (Inventory × Object)) = .ok (v', reply) →
      (∃ r, esimOf reply = some r ∧ v'.Reserved r) ∧ v.Keeps v' := by
    intro v' reply h
    obtain ⟨⟨profiles, reply'⟩, hreserve, h⟩ := bind_eq_ok.mp h
    cases h
    obtain ⟨r, hr, -, hreserved, hkeeps⟩ := Inventory.reserveEsim_new hreserve
    exact ⟨⟨r, hr, hreserved⟩, hkeeps⟩
  rcases reserve_cases calls.reserveEsim (v := v) fun v' reply h => (hnew v' reply h).1 with
    ⟨hmade, hinv, hreply⟩ | ⟨r, v', reply, hresult, hr, hreserved, hmade, hinv, hreply⟩
  · exact Or.inl ⟨hmade, hinv, hreply⟩
  · obtain ⟨iccid, hiccid, rfl⟩ := Option.map_eq_some_iff.mp hr
    have hinv : (reserveEsim calls now v).inventory = v' := hinv
    rw [hinv]
    exact Or.inr ⟨iccid, reply, hiccid, hmade, hreserved.taken, (hnew v' reply hresult).2, hreply⟩

theorem releaseMsisdn_free {m : String} (hcall : calls.releaseMsisdn ≠ .requestLost)
    (h : v.Reserved (.msisdn m)) : ¬ (releaseMsisdn calls m now v).Taken (.msisdn m) := by
  obtain ⟨row, hrow, hstatus, -⟩ := h
  have hread : v.readRelease (.msisdn m) = .ok () := by
    show Crm.readRelease v.numbers m = .ok ()
    unfold readRelease checkMsisdnReleasable
    rw [Option.mem_def.mp hrow]
    simp [hstatus]
  have hrelease : releaseMsisdn calls m now v = v.writeRelease now (.msisdn m) := by
    unfold releaseMsisdn
    rw [if_neg hcall, hread]
  rw [hrelease]
  rintro ⟨row', hrow', htaken⟩
  have hfind : (v.writeRelease now (.msisdn m)).numbers.find m = (v.numbers.find m).map fun r =>
      { r with status := .available, reservedAt := none, assignedToSubscriptionId := none } := by
    show (Crm.writeRelease v.numbers m).find m = _
    rw [Crm.writeRelease, Table.find_update, if_pos rfl]
  rw [hfind, Option.mem_def.mp hrow, Option.map_some, Option.mem_some_iff] at hrow'
  subst hrow'
  rcases htaken.1 with h | h
  · cases h
  · cases h

theorem releaseMsisdn_esim {m iccid : String} (h : v.Taken (.esim iccid)) :
    (releaseMsisdn calls m now v).Taken (.esim iccid) := by
  unfold releaseMsisdn
  split
  · exact h
  · split
    · exact h
    · exact (Inventory.writeRelease_other (by simp)).1 h

theorem ofReplies_isOk {msisdnResult esimResult : Object} {m iccid : String}
    (hm : strField msisdnResult "msisdn" = some m) (hiccid : strField esimResult "iccid" = some iccid) :
    ∃ r, Reserved.ofReplies msisdnResult esimResult = .ok r := by
  unfold Reserved.ofReplies
  simp only [hm, hiccid]
  exact ⟨_, rfl⟩

theorem decomposeOrder_isOk (r : Reserved) (now : Time) (h : ∃ db', insertGraph req ids db = .ok db') :
    ∃ db', decomposeOrder req ids r now db = .ok db' := by
  obtain ⟨db₁, hdb₁⟩ := h
  unfold decomposeOrder
  rw [hdb₁]
  exact ⟨_, rfl⟩

/-- What follows the two reservations: an error with both of them made, exactly when a
statement fails. -/
theorem rest_isOk {msisdnResult esimResult : Object} {m iccid : String} (now : Time)
    (hm : strField msisdnResult "msisdn" = some m) (hiccid : strField esimResult "iccid" = some iccid)
    (hgraph : ∃ db', insertGraph req ids db = .ok db') :
    (∃ db', (do
      let r ← Reserved.ofReplies msisdnResult esimResult
      statements calls after
      decomposeOrder req ids r now db : Except String SomDb) = .ok db') ↔ ∀ s ∈ after, calls.fails s = false := by
  obtain ⟨r, hr⟩ := ofReplies_isOk hm hiccid
  simp only [bind_eq_ok, hr, Except.ok.injEq, exists_eq_left', ← statements_eq_ok]
  constructor
  · rintro ⟨db', ⟨⟩, hafter, -⟩
    exact hafter
  · intro hafter
    obtain ⟨db', hdb'⟩ := decomposeOrder_isOk r now hgraph
    exact ⟨db', (), hafter, hdb'⟩

end

/-- **When a failed decomposition leaves nothing.** Releases succeed. An error leaves no
reserved resource taken and no row behind exactly when it comes before the number is reserved
or from an eSIM that is not, or there is no error. -/
theorem decompose_undone_iff (calls : Calls) (req : DecomposeRequest) (ids : DecomposeIds) (now : Time)
    (v : Inventory) (db : SomDb) (hrelease : calls.releaseMsisdn ≠ .requestLost) :
    (∀ e, (decompose calls req ids now v db).result = .error e → Undone db (decompose calls req ids now v db)) ↔
      (ReservesNumber calls req ids now v db → RestGoesWell calls req now v) := by
  have hnothing : ∀ (v : Inventory) (e : String), Undone db ⟨v, db, [], .error e⟩ := by
    intro v e
    exact ⟨by simp, rfl⟩
  unfold decompose
  split
  · rename_i e hstart
    refine iff_of_true (fun _ _ => hnothing v e) fun hres => ?_
    -- The rows were not written.
    obtain ⟨db', hgraph⟩ := hres.graph
    rw [statements_eq_ok.mpr hres.statements] at hstart
    simp only [bind, Except.bind, hgraph] at hstart
    cases hstart
  · rename_i db₁ hstart
    obtain ⟨⟨⟩, hbefore, hgraph⟩ := bind_eq_ok.mp hstart
    have hbefore := statements_eq_ok.mp hbefore
    rcases reserveNextMsisdn_cases calls req now v with
      ⟨hmade, e, hreply⟩ | ⟨m, reply, hm, hmade, hreserved, hreply⟩
    · simp only [hreply, hmade]
      refine iff_of_true (fun _ _ => hnothing _ _) fun hres => ?_
      have := hres.reserved
      simp [hmade] at this
    · have hres : ReservesNumber calls req ids now v db := ⟨hbefore, ⟨db₁, hgraph⟩, by simp [hmade]⟩
      simp only [hres, true_imp_iff, RestGoesWell]
      rcases hreply with ⟨hcall, hreply⟩ | ⟨hcall, e, hreply⟩
      · simp only [hreply, hcall, true_and]
        rcases reserveEsim_cases calls now
            (reserveNextMsisdn calls req.msisdnPreference now v).inventory with
          ⟨hmade', hinv, e, hreply'⟩ | ⟨iccid, reply', hiccid, hmade', htaken, hkeeps, hreply'⟩
        · -- The number alone was reserved, and is given back.
          simp only [hreply', hmade', hm, hinv, hmade]
          refine iff_of_true (fun _ _ => ⟨?_, rfl⟩) (by simp)
          simp only [Option.toList_some, Option.toList_none, List.append_nil, List.mem_singleton, forall_eq]
          exact releaseMsisdn_free hrelease hreserved
        · have hboth : (reserveEsim calls now
              (reserveNextMsisdn calls req.msisdnPreference now v).inventory).made.isSome = true := by simp [hmade']
          simp only [hboth, true_imp_iff]
          rcases hreply' with ⟨hcall', hreply'⟩ | ⟨hcall', e, hreply'⟩
          · simp only [hreply', hcall', true_and]
            rw [← rest_isOk now hm hiccid ⟨db₁, hgraph⟩]
            split
            · rename_i e hrest
              simp only [hrest, reduceCtorEq, exists_false, iff_false]
              intro h
              refine (h e rfl).released (.msisdn m) ?_ (hkeeps.taken hreserved.taken)
              simp [hmade]
            · rename_i db' hrest
              exact iff_of_true (fun e he => by simp at he) ⟨db', hrest⟩
          · simp only [hreply', hcall', false_and, iff_false]
            intro h
            refine (h _ rfl).released (.esim iccid) (by simp [hmade']) ?_
            simp only [hm]
            exact releaseMsisdn_esim htaken
      · simp only [hreply, hcall, false_and, iff_false]
        intro h
        exact (h _ rfl).released (.msisdn m) (by simp [hmade]) hreserved.taken

def lastNumber : Numbers := ⟨[⟨"90000042", .available, none, none, none, none⟩], List.nodup_singleton _⟩

def lastProfile : Profiles :=
  ⟨[⟨"8965", "525", .available, none, none, none, none, none, none⟩], List.nodup_singleton _⟩

def firstIds : DecomposeIds := ⟨1, 1, 2, 3⟩

def order : DecomposeRequest := ⟨"ORD-0001", "CUST-1", "PLAN_M", none, "PM-1", none⟩

/-- The database fails at the given statements, and every call gets its reply. -/
def calls (fails : Statement → Bool) : Calls := ⟨fails, [], [], .replied, .replied, .replied⟩

/-- No eSIM is left: the number is given back. -/
theorem decompose_undone_no_esim :
    Undone .empty (decompose (calls fun _ => false) order firstIds 0 ⟨lastNumber, .empty⟩ .empty) := by
  have hresult : (decompose (calls fun _ => false) order firstIds 0 ⟨lastNumber, .empty⟩ .empty).result =
      .error "reserve_esim failed: refused" := by rfl
  exact (decompose_undone_iff (calls fun _ => false) order firstIds 0 ⟨lastNumber, .empty⟩ .empty (by decide)).mpr
    (fun _ => ⟨rfl, fun h => absurd h (by decide)⟩) _ hresult

/-- The first task event cannot be staged: the number and the eSIM stay reserved. -/
theorem reserved_and_lost :
    let out := decompose (calls fun s => s = .stageTask "HLR_PROVISION") order firstIds 0
      ⟨lastNumber, lastProfile⟩ .empty
    out.result = .error "db error" ∧ out.reserved = [.msisdn "90000042", .esim "8965"] ∧
      ∀ r ∈ out.reserved, out.inventory.Taken r := by
  intro out
  have hresult : out.result = .error "db error" := by rfl
  have hreserved : out.reserved = [.msisdn "90000042", .esim "8965"] := by rfl
  refine ⟨hresult, hreserved, ?_⟩
  rw [hreserved]
  simp only [List.mem_cons, List.not_mem_nil, or_false, forall_eq_or_imp, forall_eq]
  exact ⟨⟨_, rfl, by decide⟩, ⟨_, rfl, rfl⟩⟩

end BssCli.Som.Compensation
