import BssCli.Clock.Instant
import BssCli.Lib.Json
import BssCli.Lib.Newest
import BssCli.Lib.Text

/-!
# Usage history

`usage.history_mine`. Without a line of its own it asks for the usage of every line of the actor, and takes the newest rows of what
comes back, by the text of their times.
-/

namespace BssCli.Usage

/-! ## The tool -/

inductive ToolError
  | policy (rule : String) (detail : Json)
  | client (status : ℤ) (detail : Json)
  | other (kind detail : String)

structure ToolClients where
  get : String → Except ToolError Json
  listForCustomer : String → Except ToolError Json
  /-- of the line, the number, the event type and since, newest first up to the limit -/
  listUsage : Option String → Option String → Option String → Option String → ℤ → Except ToolError Json

def requireActor (actor : String) : Except ToolError String :=
  let a := String.ofList (Text.trim actor.toList)
  if a = "" || a = "system" then
    .error (.other "_NoActorBound" "chat.no_actor_bound: this tool can only run inside a customer-scoped chat session")
  else .ok a

def assertSubscriptionOwned (c : ToolClients) (subscriptionId actor : String) : Except ToolError Json := do
  let s ← c.get subscriptionId
  let owner := ((s.get "customerId").or (s.get "customer_id")).bind Json.asStr
  if owner ≠ some actor then
    .error (.other "_NotOwnedByActor"
      ("policy.subscription.not_owned_by_actor: subscription " ++ subscriptionId ++ " is not yours"))
  else .ok s

def optStr (args : Json) (key : String) : Option String := ((args.get key).bind Json.asStr).filter fun s => s ≠ ""

def asI64 : Json → Option ℤ
  | .int n => Text.checkI64 n
  | _ => none

/-- The sort key, empty when absent. -/
def eventTime (row : Json) : String := (((row.get "eventTime").or (row.get "event_time")).bind Json.asStr).getD ""

/-- A subscription without an `id` is skipped. -/
def subId (sub : Json) : Option String := (sub.get "id").bind Json.asStr

def fanOut (c : ToolClients) (eventType since : Option String) (limit : ℤ) : List Json → List Json → Except ToolError (List Json)
  | [], results => .ok results
  | sub :: subs, results =>
    match subId sub with
    | none => fanOut c eventType since limit subs results
    | some id => do
      let rows ← c.listUsage (some id) none eventType since limit
      fanOut c eventType since limit subs (results ++ rows.asArray.getD [])

/-- `sort_by_key` with `Reverse` of the key. -/
def laterFirst (a b : Json) : Bool := eventTime b ≤ eventTime a

def historyMine (c : ToolClients) (ctxActor : String) (args : Json) : Except ToolError Json := do
  let actor ← requireActor ctxActor
  let eventType := optStr args "event_type"
  let since := optStr args "since"
  let limit := ((args.get "limit").bind asI64).getD 100
  match optStr args "subscription_id" with
  | some sid =>
    let _ ← assertSubscriptionOwned c sid actor
    c.listUsage (some sid) none eventType since limit
  | none =>
    let subs ← c.listForCustomer actor
    let results ← fanOut c eventType since limit (subs.asArray.getD []) []
    .ok (.arr ((results.mergeSort laterFirst).take limit.toNat))

/-! ## Rows with their times -/

/-- A usage row, with the instant that its `eventTime` was written from. -/
structure UsageRow where
  json : Json
  time : ℤ
  micro : Clock.Micro time
  stamp : json.get "eventTime" = some (.str (Clock.isoformat time))

namespace UsageRow

theorem eventTime_json (r : UsageRow) : eventTime r.json = Clock.isoformat r.time := by
  unfold eventTime
  rw [r.stamp]
  rfl

theorem laterFirst_iff (a b : UsageRow) : laterFirst a.json b.json = true ↔ b.time ≤ a.time := by
  unfold laterFirst
  rw [decide_eq_true_iff, eventTime_json, eventTime_json, Clock.isoformat_le_iff b.micro a.micro]

def laterRow (a b : UsageRow) : Bool := b.time ≤ a.time

theorem sorted_laterRow (rows : List UsageRow) : NewestFirst UsageRow.time (rows.mergeSort laterRow) := by
  have hsorted := List.pairwise_mergeSort (fun (a b c : UsageRow) (hab : laterRow a b = true) (hbc : laterRow b c = true) => ?_) (fun a b => ?_) rows
  · exact hsorted.imp fun h => of_decide_eq_true h
  · exact decide_eq_true (Int.le_trans (of_decide_eq_true hbc) (of_decide_eq_true hab))
  · rw [Bool.or_eq_true]
    exact (Int.le_total b.time a.time).imp decide_eq_true decide_eq_true

/-- The tool sorts by text what is in order of time. -/
theorem mergeSort_json (rows : List UsageRow) :
    (rows.map UsageRow.json).mergeSort laterFirst = (rows.mergeSort laterRow).map UsageRow.json := by
  refine (List.map_mergeSort fun a _ b _ => ?_).symm
  rw [Bool.eq_iff_iff, laterFirst_iff]
  exact decide_eq_true_iff

end UsageRow

/-! ## The merge -/

section Merge

variable {c : ToolClients} {eventType since : Option String} {limit : ℤ} {usage : String → List UsageRow}

/-- Every line answers with its newest rows. -/
def AnswersNewest (c : ToolClients) (eventType since : Option String) (limit : ℤ) (usage : String → List UsageRow) (id : String) : Prop :=
  ∃ taken : List UsageRow, c.listUsage (some id) none eventType since limit = .ok (.arr (taken.map UsageRow.json)) ∧
    Newest UsageRow.time limit.toNat (usage id) taken

theorem fanOut_eq {subs : List Json} (h : ∀ id ∈ subs.filterMap subId, AnswersNewest c eventType since limit usage id)
    (results : List Json) :
    ∃ lines : List (List UsageRow × List UsageRow), lines.map Prod.fst = (subs.filterMap subId).map usage ∧
      (∀ line ∈ lines, Newest UsageRow.time limit.toNat line.1 line.2) ∧
        fanOut c eventType since limit subs results =
          .ok (results ++ (lines.map Prod.snd).flatten.map UsageRow.json) := by
  induction subs generalizing results with
  | nil => exact ⟨[], rfl, by simp, by simp [fanOut]⟩
  | cons sub subs ih =>
    cases hid : subId sub with
    | none =>
      rw [List.filterMap_cons_none hid] at h ⊢
      obtain ⟨lines, hlines, hnewest, hfan⟩ := ih h results
      refine ⟨lines, hlines, hnewest, ?_⟩
      rw [fanOut, hid]
      exact hfan
    | some id =>
      rw [List.filterMap_cons_some hid] at h ⊢
      obtain ⟨taken, hread, htaken⟩ := h id List.mem_cons_self
      obtain ⟨lines, hlines, hnewest, hfan⟩ :=
        ih (fun id hid => h id (List.mem_cons_of_mem _ hid)) (results ++ taken.map UsageRow.json)
      refine ⟨(usage id, taken) :: lines, ?_, ?_, ?_⟩
      · rw [List.map_cons, List.map_cons, hlines]
      · exact List.forall_mem_cons.mpr ⟨htaken, hnewest⟩
      · rw [fanOut, hid]
        simp only [hread]
        show fanOut c eventType since limit subs (results ++ taken.map UsageRow.json) = _
        rw [hfan, List.map_cons, List.flatten_cons, List.map_append, List.append_assoc]

theorem historyMine_eq {ctxActor actor : String} {args : Json} (hactor : requireActor ctxActor = .ok actor)
    (hline : optStr args "subscription_id" = none) {subs : List Json} (hsubs : c.listForCustomer actor = .ok (.arr subs))
    (h : ∀ id ∈ subs.filterMap subId, AnswersNewest c (optStr args "event_type") (optStr args "since")
      (((args.get "limit").bind asI64).getD 100) usage id) :
    ∃ rows : List UsageRow, historyMine c ctxActor args = .ok (.arr (rows.map UsageRow.json)) ∧
      NewestFirst UsageRow.time rows ∧
        Newest UsageRow.time (((args.get "limit").bind asI64).getD 100).toNat ((subs.filterMap subId).flatMap usage) rows := by
  obtain ⟨lines, hlines, hnewest, hfan⟩ := fanOut_eq h []
  have hsorted := UsageRow.sorted_laterRow (lines.map Prod.snd).flatten
  refine ⟨((lines.map Prod.snd).flatten.mergeSort UsageRow.laterRow).take (((args.get "limit").bind asI64).getD 100).toNat,
    ?_, hsorted.sublist (List.take_sublist _ _), ?_⟩
  · unfold historyMine
    rw [hactor]
    show (match optStr args "subscription_id" with | some sid => _ | none => _) = _
    rw [hline]
    show (c.listForCustomer actor >>= _) = _
    rw [hsubs]
    show (fanOut c _ _ _ subs [] >>= _) = _
    rw [hfan, List.nil_append, List.map_take, ← UsageRow.mergeSort_json]
    rfl
  · rw [List.flatMap_def, ← hlines]
    exact Newest.merge hnewest (List.mergeSort_perm _ _) hsorted

end Merge

/-- Times of microseconds are told apart and ordered by their texts. The history without a line is the newest rows of all the lines of
the actor, newest first. -/
theorem usage_history_newest :
    (∀ t t', Clock.Micro t → Clock.Micro t' → (Clock.isoformat t = Clock.isoformat t' ↔ t = t') ∧
      (Clock.isoformat t < Clock.isoformat t' ↔ t < t')) ∧
    ∀ (c : ToolClients) (ctxActor actor : String) (args : Json) (subs : List Json) (usage : String → List UsageRow),
      requireActor ctxActor = .ok actor → optStr args "subscription_id" = none → c.listForCustomer actor = .ok (.arr subs) →
      (∀ id ∈ subs.filterMap subId, AnswersNewest c (optStr args "event_type") (optStr args "since")
        (((args.get "limit").bind asI64).getD 100) usage id) →
      ∃ rows : List UsageRow, historyMine c ctxActor args = .ok (.arr (rows.map UsageRow.json)) ∧
        NewestFirst UsageRow.time rows ∧
          Newest UsageRow.time (((args.get "limit").bind asI64).getD 100).toNat ((subs.filterMap subId).flatMap usage) rows :=
  ⟨fun _ _ h h' => ⟨Clock.isoformat_inj h h', Clock.isoformat_lt_iff h h'⟩,
    fun _ _ _ _ _ _ hactor hline hsubs h => historyMine_eq hactor hline hsubs h⟩

/-- A row that says nothing but its time. -/
def UsageRow.timed (t : ℤ) (h : Clock.Micro t) : UsageRow := ⟨.obj [("eventTime", .str (Clock.isoformat t))], t, h, rfl⟩

theorem micro_milli (n : Fin 3) : Clock.Micro (1000 * n) := by
  refine ⟨by omega, ?_, ?_⟩
  all_goals
    revert n
    decide +kernel

/-- Two lines, and the newest row of each. -/
def twoLines : ToolClients where
  get _ := .ok .null
  listForCustomer _ := .ok (.arr [.obj [("id", .str "SUB-1")], .obj [("id", .str "SUB-2")]])
  listUsage id _ _ _ _ :=
    if id = some "SUB-1" then .ok (.arr [(UsageRow.timed (1000 * (2 : Fin 3)) (micro_milli 2)).json])
    else .ok (.arr [(UsageRow.timed (1000 * (1 : Fin 3)) (micro_milli 1)).json])

theorem usage_history_newest_two_lines :
    Clock.isoformat (1000 * (0 : Fin 3)) < Clock.isoformat (1000 * (1 : Fin 3)) ∧
    ∃ rows : List UsageRow,
      historyMine twoLines "CUST-1" (.obj [("limit", .int 1)]) = .ok (.arr (rows.map UsageRow.json)) ∧
        NewestFirst UsageRow.time rows ∧
          Newest UsageRow.time 1
            [UsageRow.timed _ (micro_milli 2), UsageRow.timed _ (micro_milli 0), UsageRow.timed _ (micro_milli 1)] rows := by
  obtain ⟨htimes, hhistory⟩ := usage_history_newest
  refine ⟨(htimes _ _ (micro_milli 0) (micro_milli 1)).2.mpr (by decide), ?_⟩
  refine hhistory twoLines "CUST-1" "CUST-1" (.obj [("limit", .int 1)])
    [.obj [("id", .str "SUB-1")], .obj [("id", .str "SUB-2")]]
    (fun id => if id = "SUB-1" then [UsageRow.timed _ (micro_milli 2), UsageRow.timed _ (micro_milli 0)]
      else [UsageRow.timed _ (micro_milli 1)]) rfl rfl rfl ?_
  intro id hid
  have hcases : id = "SUB-1" ∨ id = "SUB-2" := by simpa [subId, Json.get] using hid
  rcases hcases with rfl | rfl
  · refine ⟨[UsageRow.timed _ (micro_milli 2)], rfl, rfl, [UsageRow.timed _ (micro_milli 0)], List.Perm.refl _, ?_⟩
    simp [UsageRow.timed]
  · exact ⟨[UsageRow.timed _ (micro_milli 1)], rfl, rfl, [], List.Perm.refl _, by simp⟩

end BssCli.Usage
