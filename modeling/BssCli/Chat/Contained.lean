import BssCli.Agent.Trip
import BssCli.Chat.Tools

/-!
# The chat stays with its customer

A turn of the chat with the calls that its tools make. The model chooses the tools and their arguments, the clients reply as they
like. Each call is keyed by the actor, reads a subscription, or is on a subscription that was shown to be the actor's.
-/

open BssCli.Agent BssCli.Usage Steps Program

namespace BssCli.Chat.Tools

/-! ## What a tool may call -/

/-- A reply of this tool has shown the subscription to be the actor's. -/
def Checked (actor : String) (said : Said) (id : String) : Prop :=
  ∃ s, (.getSubscription id, .ok s) ∈ said ∧ ownerOf s = some actor

/-- A reply of this tool has listed it with the actor's subscriptions. -/
def Listed (actor : String) (said : Said) (id : String) : Prop :=
  ∃ subs sub, (.listForCustomer actor, .ok subs) ∈ said ∧ sub ∈ subs.asArray.getD [] ∧ subId sub = some id

/-- The call is of the catalog, reads a subscription, or stays with the actor. -/
def Keeps (bound : Option String) (said : Said) : ClientCall → Prop
  | .listOfferings | .getOffering _ | .listVas | .getVas _ | .listActiveOfferings _ | .getActivePriceAt .. => True
  | .getSubscription _ => bound.isSome = true
  | .listForCustomer customerId | .getCustomer customerId | .listMethods customerId | .storeChatTranscript _ customerId _
  | .openCase customerId .. => bound = some customerId
  | .listPayments customerId .. | .listCases customerId .. => bound.isSome = true ∧ customerId = bound
  | .getBalance id | .purchaseVas id _ | .schedulePlanChange id _ | .cancelPlanChange id | .terminateWithReason id .. =>
    ∃ actor, bound = some actor ∧ Checked actor said id
  | .listUsage subscriptionId msisdn .. =>
    msisdn = none ∧ ∃ actor id, bound = some actor ∧ subscriptionId = some id ∧ (Checked actor said id ∨ Listed actor said id)

/-- The first reply showed a subscription that is not the actor's. -/
def Refused (bound : Option String) (said : Said) (id : String) : Prop :=
  ∃ s rest, said = (.getSubscription id, .ok s) :: rest ∧ ownerOf s ≠ bound

def Allowed (bound : Option String) (said : Said) (c : ClientCall) : Prop :=
  Keeps bound said c ∧ ∀ id, ¬ Refused bound said id

/-- Behind a refusal stands the one error, and nothing of the subscription. -/
def Settled (bound : Option String) (said : Said) (result : Except ToolError Json) : Prop :=
  ∀ id, Refused bound said id → said.length = 1 ∧ result = .error (notOwned id)

section

variable {bound : Option String} {said : Said}

theorem not_refused_nil (id : String) : ¬ Refused bound [] id := by
  rintro ⟨s, rest, hsaid, -⟩
  cases hsaid

theorem not_refused_cons {c : ClientCall} {r : Reply} {rest : Said} {id : String}
    (h : ∀ id s, c = .getSubscription id → r = .ok s → ownerOf s = bound) : ¬ Refused bound ((c, r) :: rest) id := by
  rintro ⟨s, rest', hsaid, howner⟩
  obtain ⟨hhead, -⟩ := List.cons.inj hsaid
  obtain ⟨hc, hr⟩ := Prod.mk.inj hhead
  exact howner (h id s hc hr)

theorem settled_of_not {result : Except ToolError Json} (h : ∀ id, ¬ Refused bound said id) : Settled bound said result :=
  fun id hrefused => absurd hrefused (h id)

/-! ## Rules for the parts of a tool -/

section

variable {α β : Type} {R : Said → Except ToolError α → Prop} {P : Said → ClientCall → Prop}

theorem says_call {c : ClientCall} {R : Said → Except ToolError Json → Prop} :
    Says P R said (call c).run ↔ P said c ∧ ∀ r, R (said ++ [(c, r)]) r :=
  says_ask.trans (and_congr_right fun _ => forall_congr' fun _ => says_done)

/-- What needs no call goes first. -/
theorem says_ofExcept_bind {e : Except ToolError β} {f : β → Tool α} (hok : ∀ b, e = .ok b → Says P R said (f b).run)
    (herror : ∀ err, R said (.error err)) : Says P R said (ofExcept e >>= f).run := by
  rw [says_bind_run, says_ofExcept]
  cases e with
  | ok b => exact hok b rfl
  | error err => exact herror err

theorem says_call_bind {c : ClientCall} {f : Json → Tool α} (hc : P said c)
    (hok : ∀ v, Says P R (said ++ [(c, .ok v)]) (f v).run) (herror : ∀ err, R (said ++ [(c, .error err)]) (.error err)) :
    Says P R said (call c >>= f).run := by
  rw [says_bind_run, says_call]
  refine ⟨hc, ?_⟩
  rintro (err | v)
  · exact herror err
  · exact hok v

end

/-! ## The tools -/

theorem bound_of_requireActor {ctxActor actor : String} (h : requireActor ctxActor = .ok actor) :
    (requireActor ctxActor).toOption = some actor := by
  rw [h]
  rfl

/-- A call that the actor keys, and that no reply of it can turn into a refusal. -/
theorem says_keyed {ctx : ToolCtx} {c : String → ClientCall}
    (hkeeps : ∀ actor, (requireActor ctx.actor).toOption = some actor → Keeps (requireActor ctx.actor).toOption [] (c actor))
    (hread : ∀ actor id, c actor ≠ .getSubscription id) :
    Says (Allowed (requireActor ctx.actor).toOption) (Settled (requireActor ctx.actor).toOption) [] (keyed ctx c).run := by
  refine says_ofExcept_bind ?_ fun _ => settled_of_not not_refused_nil
  intro actor hactor
  rw [says_call]
  refine ⟨⟨hkeeps actor (bound_of_requireActor hactor), not_refused_nil⟩, fun r => settled_of_not fun id => ?_⟩
  exact not_refused_cons fun id s hc => absurd hc (hread actor id)

/-- The ownership check: its one call, and what it makes of the reply. -/
theorem says_assertSubscriptionOwned {P : Said → ClientCall → Prop} {R : Said → Except ToolError Json → Prop} {id actor : String}
    (hc : P said (.getSubscription id))
    (hok : ∀ s, ownerOf s = some actor → R (said ++ [(.getSubscription id, .ok s)]) (.ok s))
    (hforeign : ∀ s, ownerOf s ≠ some actor → R (said ++ [(.getSubscription id, .ok s)]) (.error (notOwned id)))
    (herror : ∀ err, R (said ++ [(.getSubscription id, .error err)]) (.error err)) :
    Says P R said (assertSubscriptionOwned id actor).run := by
  refine says_call_bind hc (fun s => ?_) herror
  rw [says_ofExcept]
  unfold checkOwner
  split
  · rename_i howner
    exact hforeign s howner
  · rename_i howner
    exact hok s (not_not.mp howner)

/-- A refusal at the check, and a failure of it, leave a settled result. -/
theorem settled_foreign {id actor : String} {s : Json} :
    Settled (some actor) [(.getSubscription id, .ok s)] (.error (notOwned id)) := by
  rintro id' ⟨s', rest', hsaid, -⟩
  obtain ⟨hhead, -⟩ := List.cons.inj hsaid
  obtain rfl := ClientCall.getSubscription.inj (Prod.mk.inj hhead).1
  exact ⟨rfl, rfl⟩

theorem settled_failed {c : ClientCall} {err : ToolError} {result : Except ToolError Json} :
    Settled bound [(c, .error err)] result :=
  settled_of_not fun _ => not_refused_cons fun _ _ _ hr => nomatch hr

/-- A tool behind the check is as good as its rest is on a subscription of the actor. -/
theorem says_checked {o : Outside} {β : Type} {args : Json} {ctx : ToolCtx} {extra : Except ToolError β}
    {rest : String → β → Json → Tool Json}
    (hrest : ∀ actor id b s, ownerOf s = some actor →
      Says (Allowed (some actor)) (Settled (some actor)) [(.getSubscription id, .ok s)] (rest id b s).run) :
    Says (Allowed (requireActor ctx.actor).toOption) (Settled (requireActor ctx.actor).toOption) []
      (checked o args ctx extra rest).run := by
  have hnil : ∀ err, Settled (requireActor ctx.actor).toOption [] (.error err) := fun _ => settled_of_not not_refused_nil
  refine says_ofExcept_bind ?_ hnil
  intro actor hactor
  refine says_ofExcept_bind (fun id _ => ?_) hnil
  refine says_ofExcept_bind (fun b _ => ?_) hnil
  rw [bound_of_requireActor hactor, says_bind_run]
  apply says_assertSubscriptionOwned
  · exact ⟨rfl, not_refused_nil⟩
  · exact fun s howner => hrest actor id b s howner
  · exact fun s _ => settled_foreign
  · exact fun err => settled_failed

theorem not_refused_checked {id : String} {s : Json} {actor : String} {rest : Said} (howner : ownerOf s = some actor)
    (id' : String) : ¬ Refused (some actor) ((.getSubscription id, .ok s) :: rest) id' := by
  apply not_refused_cons
  intro id₁ s₁ _ hs
  obtain rfl := Except.ok.inj hs
  exact howner

/-- One call on the subscription that was checked. -/
theorem says_checked_call {id : String} {s : Json} {actor : String} {c : ClientCall} (howner : ownerOf s = some actor)
    (hc : Checked actor [(.getSubscription id, .ok s)] id → Keeps (some actor) [(.getSubscription id, .ok s)] c) :
    Says (Allowed (some actor)) (Settled (some actor)) [(.getSubscription id, .ok s)] (call c).run := by
  refine says_call.mpr ⟨⟨hc ⟨s, List.mem_cons_self, howner⟩, not_refused_checked howner⟩, fun r => ?_⟩
  exact settled_of_not (not_refused_checked howner)

/-- Behind the list of the actor's lines, each line of it may be asked for. -/
theorem says_fanOut {actor : String} {subs : Json} {eventType since : Option String} {limit : ℤ} {xs results : List Json}
    {rest : Said} (hxs : ∀ x ∈ xs, x ∈ subs.asArray.getD []) :
    Says (Allowed (some actor)) (fun said _ => ∀ id, ¬ Refused (some actor) said id)
      ((.listForCustomer actor, .ok subs) :: rest) (fanOut eventType since limit xs results).run := by
  have hkept : ∀ rest id, ¬ Refused (some actor) ((.listForCustomer actor, .ok subs) :: rest) id :=
    fun rest id => not_refused_cons fun _ _ hc => nomatch hc
  induction xs generalizing results rest with
  | nil => exact says_pure_run.mpr (hkept rest)
  | cons x xs ih =>
    rw [List.forall_mem_cons] at hxs
    unfold fanOut
    split
    · exact ih hxs.2
    · rename_i id hid
      have hlisted : Listed actor ((.listForCustomer actor, .ok subs) :: rest) id :=
        ⟨subs, x, List.mem_cons_self, hxs.1, hid⟩
      apply says_call_bind
      · exact ⟨⟨rfl, actor, id, rfl, rfl, .inr hlisted⟩, hkept rest⟩
      · exact fun v => ih hxs.2
      · exact fun err => hkept _

theorem says_usageHistoryMine (args : Json) (ctx : ToolCtx) :
    Says (Allowed (requireActor ctx.actor).toOption) (Settled (requireActor ctx.actor).toOption) []
      (usageHistoryMine args ctx).run := by
  refine says_ofExcept_bind ?_ fun _ => settled_of_not not_refused_nil
  intro actor hactor
  rw [bound_of_requireActor hactor]
  dsimp only
  split
  · rename_i sid hsid
    rw [says_bind_run]
    apply says_assertSubscriptionOwned
    · exact ⟨rfl, not_refused_nil⟩
    · exact fun s howner => says_checked_call howner fun hchecked => ⟨rfl, actor, sid, rfl, rfl, .inl hchecked⟩
    · exact fun s _ => settled_foreign
    · exact fun err => settled_failed
  · apply says_call_bind
    · exact ⟨rfl, not_refused_nil⟩
    · intro subs
      rw [says_bind_run]
      refine (says_fanOut fun x hx => hx).mono ?_
      rintro said (err | results) hkept
      · exact settled_of_not hkept
      · exact says_pure_run.mpr (settled_of_not hkept)
    · exact fun err => settled_failed

theorem says_subscriptionListMine (o : Outside) (ctx : ToolCtx) :
    Says (Allowed (requireActor ctx.actor).toOption) (Settled (requireActor ctx.actor).toOption) []
      (subscriptionListMine o ctx).run := by
  unfold subscriptionListMine
  rw [says_bind_run]
  refine (says_keyed (fun actor hactor => ?_) fun _ _ => by simp).mono ?_
  · exact hactor
  · rintro said (err | subs) hsettled
    · exact hsettled
    · exact says_pure_run.mpr (settled_of_not fun id hrefused => absurd (hsettled id hrefused).2 (by simp))

theorem says_caseOpenForMe (o : Outside) (args : Json) (ctx : ToolCtx) :
    Says (Allowed (requireActor ctx.actor).toOption) (Settled (requireActor ctx.actor).toOption) []
      (caseOpenForMe o args ctx).run := by
  have hnil : ∀ err, Settled (requireActor ctx.actor).toOption [] (.error err) := fun _ => settled_of_not not_refused_nil
  refine says_ofExcept_bind ?_ hnil
  intro actor hactor
  refine says_ofExcept_bind (fun category _ => ?_) hnil
  refine says_ofExcept_bind (fun subject _ => ?_) hnil
  refine says_ofExcept_bind (fun description _ => ?_) hnil
  rw [bound_of_requireActor hactor]
  have hkept : ∀ {hash customerId body : String} {r : Reply} {rest : Said} (id : String),
      ¬ Refused (some actor) ((.storeChatTranscript hash customerId body, r) :: rest) id :=
    fun id => not_refused_cons fun _ _ hc => nomatch hc
  apply says_call_bind
  · exact ⟨rfl, not_refused_nil⟩
  · exact fun v => says_call.mpr ⟨⟨rfl, hkept⟩, fun r => settled_of_not hkept⟩
  · exact fun err => settled_failed

/-- A read of the catalog, with what it needs for its call. -/
theorem says_catalogRead {e : Except ToolError String} {c : String → ClientCall} (hkeeps : ∀ id, Keeps bound [] (c id))
    (hread : ∀ id id', c id ≠ .getSubscription id') :
    Says (Allowed bound) (Settled bound) [] (ofExcept e >>= fun id => call (c id)).run := by
  refine says_ofExcept_bind ?_ fun _ => settled_of_not not_refused_nil
  intro id _
  refine says_call.mpr ⟨⟨hkeeps id, not_refused_nil⟩, fun r => settled_of_not fun id' => ?_⟩
  exact not_refused_cons fun id' _ hc => absurd hc (hread id id')

theorem says_catalogCall {c : ClientCall} (hkeeps : Keeps bound [] c) (hread : ∀ id, c ≠ .getSubscription id) :
    Says (Allowed bound) (Settled bound) [] (call c).run :=
  says_call.mpr ⟨⟨hkeeps, not_refused_nil⟩, fun _ => settled_of_not fun _ => not_refused_cons fun id _ hc => absurd hc (hread id)⟩

theorem says_getEsimActivation {id actor : String} {s : Json} (howner : ownerOf s = some actor) :
    Says (Allowed (some actor)) (Settled (some actor)) [(.getSubscription id, .ok s)] (getEsimActivation id).run := by
  apply says_call_bind
  · exact ⟨rfl, not_refused_checked howner⟩
  · exact fun v => says_pure_run.mpr (settled_of_not (not_refused_checked howner))
  · exact fun err => settled_of_not (not_refused_checked howner)

/-- A tool behind the check whose rest is one call. -/
theorem says_checkedCall {o : Outside} {args : Json} {ctx : ToolCtx} {β : Type} {extra : Except ToolError β}
    {c : String → β → ClientCall} (hc : ∀ actor id b said, Checked actor said id → Keeps (some actor) said (c id b)) :
    Says (Allowed (requireActor ctx.actor).toOption) (Settled (requireActor ctx.actor).toOption) []
      (checked o args ctx extra fun id b _ => call (c id b)).run := by
  apply says_checked
  intro actor id b s howner
  exact says_checked_call howner fun hchecked => hc actor id b _ hchecked

/-- Every tool of the chat, whatever its arguments are. -/
theorem says_chatRegistry (o : Outside) (args : Json) (ctx : ToolCtx) : ∀ e ∈ chatRegistry o,
    Says (Allowed (requireActor ctx.actor).toOption) (Settled (requireActor ctx.actor).toOption) [] (e.2 args ctx).run := by
  have hsome : ∀ actor, (requireActor ctx.actor).toOption = some actor → (requireActor ctx.actor).toOption.isSome = true := by
    intro actor hactor
    rw [hactor]
    rfl
  unfold chatRegistry
  simp only [List.forall_mem_cons, List.not_mem_nil, false_imp_iff, implies_true, and_true]
  refine ⟨?_, ?_, ?_, ?_, ?_, ?_, ?_, ?_, ?_, ?_, ?_, ?_, ?_, ?_, ?_, ?_, ?_, ?_, ?_, ?_⟩
  -- the catalog
  · exact says_catalogCall trivial (by simp)
  · exact says_catalogRead (fun _ => trivial) (by simp)
  · exact says_catalogCall trivial (by simp)
  · exact says_catalogRead (fun _ => trivial) (by simp)
  · exact says_catalogCall trivial (by simp)
  · exact says_catalogRead (fun _ => trivial) (by simp)
  -- reads of the subscriptions, and of their usage
  · exact says_subscriptionListMine o ctx
  · unfold subscriptionGetMine
    exact says_checked fun _ _ _ _ howner => says_pure_run.mpr (settled_of_not (not_refused_checked howner))
  · unfold subscriptionGetBalanceMine
    exact says_checkedCall fun actor _ _ _ hchecked => ⟨actor, rfl, hchecked⟩
  · unfold subscriptionGetLpaMine
    exact says_checked fun _ _ _ _ howner => says_getEsimActivation howner
  · exact says_usageHistoryMine args ctx
  -- reads that the actor keys
  · unfold customerGetMine
    exact says_keyed (fun _ hactor => hactor) (by simp)
  · unfold paymentMethodListMine
    exact says_keyed (fun _ hactor => hactor) (by simp)
  · unfold paymentChargeHistoryMine
    exact says_keyed (fun actor hactor => ⟨hsome actor hactor, hactor.symm⟩) (by simp)
  -- writes
  · unfold vasPurchaseForMe
    exact says_checkedCall fun actor _ _ _ hchecked => ⟨actor, rfl, hchecked⟩
  · unfold subscriptionSchedulePlanChangeMine
    exact says_checkedCall fun actor _ _ _ hchecked => ⟨actor, rfl, hchecked⟩
  · unfold subscriptionCancelPendingPlanChangeMine
    exact says_checkedCall fun actor _ _ _ hchecked => ⟨actor, rfl, hchecked⟩
  · unfold subscriptionTerminateMine
    exact says_checkedCall fun actor _ _ _ hchecked => ⟨actor, rfl, hchecked⟩
  -- escalation
  · unfold caseListForMe
    exact says_keyed (fun actor hactor => ⟨hsome actor hactor, hactor.symm⟩) (by simp)
  · exact says_caseOpenForMe o args ctx

end

/-! ## Replies that are known -/

/-- What the clients of a run reply, where the three that the usage history needs are known. -/
def replies (c : ToolClients) : ClientCall → Reply
  | .getSubscription id => c.get id
  | .listForCustomer customerId => c.listForCustomer customerId
  | .listUsage subscriptionId msisdn eventType since limit => c.listUsage subscriptionId msisdn eventType since limit
  | _ => .error (.other "" "")

section

variable {α β : Type} (c : ToolClients)

theorem handle_ofExcept_bind (e : Except ToolError β) (f : β → Tool α) :
    (ofExcept e >>= f).run.handle (replies c) = e.bind fun b => (f b).run.handle (replies c) := by
  cases e <;> rfl

theorem handle_call_bind (call_ : ClientCall) (f : Json → Tool α) :
    (call call_ >>= f).run.handle (replies c) = (replies c call_).bind fun v => (f v).run.handle (replies c) := by
  refine (handle_bind _ _ _).trans ?_
  show (ExceptT.bindCont f (replies c call_)).handle (replies c) = _
  cases replies c call_ <;> rfl

theorem handle_bind_run (x : Tool β) (f : β → Tool α) :
    (x >>= f).run.handle (replies c) = (x.run.handle (replies c)).bind fun b => (f b).run.handle (replies c) := by
  refine (handle_bind _ _ _).trans ?_
  show (ExceptT.bindCont f (x.run.handle (replies c))).handle (replies c) = _
  cases x.run.handle (replies c) <;> rfl

theorem handle_assertSubscriptionOwned (id actor : String) :
    (assertSubscriptionOwned id actor).run.handle (replies c) = Usage.assertSubscriptionOwned c id actor := by
  refine (handle_call_bind c _ _).trans ?_
  rfl

theorem handle_fanOut (eventType since : Option String) (limit : ℤ) (subs results : List Json) :
    (fanOut eventType since limit subs results).run.handle (replies c) = Usage.fanOut c eventType since limit subs results := by
  induction subs generalizing results with
  | nil => rfl
  | cons sub subs ih =>
    unfold fanOut Usage.fanOut
    cases subId sub with
    | none => exact ih results
    | some id =>
      refine (handle_call_bind c _ _).trans ?_
      simp only [ih]
      rfl

/-- With clients that reply by a function the tool is the history of the usage. -/
theorem handle_usageHistoryMine (args : Json) (ctx : ToolCtx) :
    (usageHistoryMine args ctx).run.handle (replies c) = historyMine c ctx.actor args := by
  refine (handle_ofExcept_bind c _ _).trans ?_
  unfold historyMine
  refine congrArg (Except.bind _) (funext fun actor => ?_)
  cases Usage.optStr args "subscription_id" with
  | some sid =>
    refine (handle_bind_run c _ _).trans ?_
    rw [handle_assertSubscriptionOwned]
    rfl
  | none =>
    refine (handle_call_bind c _ _).trans ?_
    refine congrArg (Except.bind _) (funext fun subs => ?_)
    rw [handle_bind_run, handle_fanOut]
    rfl

end

/-! ## A turn with its calls -/

/-- A tool that the loop has called, and how far it has come. -/
structure InTool where
  call : ToolCall
  run : Program.Run ClientCall Reply (Except ToolError Json)

structure ToolTurn where
  turn : Agent.Run
  /-- The tool that waits for a reply. -/
  current : Option InTool := none
  finished : List InTool := []

/-- What `run_turn` hands to the loop. -/
structure ChatRequest where
  prompt : List Char
  systemPrompt : List Char
  transcript : List Char
  /-- The customer, or nobody for one who only browses. -/
  actor : Option String

section

variable (o : Outside) (req : ChatRequest)

def chatConfig : Config where
  allowDestructive := true
  systemPrompt := req.systemPrompt
  transcript := req.transcript
  actor := req.actor.getD ""
  crmAudit := true
  registry := fun name => (toolNamed o name).isSome

def toolCtx : ToolCtx := ⟨req.actor.getD "", req.transcript⟩

def ToolError.seen : ToolError → Cockpit.ToolError
  | .policy rule detail => .policy rule detail
  | .client status detail => .client status detail
  | .other kind detail => .other kind detail

/-- What `execute_tool` makes of a tool's result. -/
def answerOf (result : Except ToolError Json) : Answer := Cockpit.toolAnswer o.library (result.mapError ToolError.seen)

/-- A tool that is done gives the loop its result, one that calls waits. -/
def settle (finished : List InTool) (turn : Agent.Run) (i : InTool) : Option ToolTurn :=
  match i.run.rest with
  | .done result =>
    (turn.step o.library req.prompt (chatConfig o req) (answerOf o result)).map fun turn => ⟨turn, none, finished ++ [i]⟩
  | .ask .. => some ⟨turn, some i, finished⟩

/-- Where the loop calls a tool, the tool starts. -/
def advance (finished : List InTool) (turn : Agent.Run) : Option ToolTurn :=
  match turn.loop with
  | .calling _ tc _ =>
    (toolNamed o tc.name).bind fun f => settle o req finished turn ⟨tc, [], (f tc.args (toolCtx req)).run⟩
  | _ => some ⟨turn, none, finished⟩

inductive Arrival
  | answer (a : Answer)
  | reply (r : Reply)

/-- The loop gets an answer while no tool runs, and a tool a reply while one does. -/
def ToolTurn.step (t : ToolTurn) : Arrival → Option ToolTurn
  | .answer a =>
    match t.current with
    | none => (t.turn.step o.library req.prompt (chatConfig o req) a).bind (advance o req t.finished)
    | some _ => none
  | .reply r =>
    match t.current with
    | none => none
    | some i => (i.run.step r).bind fun run => settle o req t.finished t.turn ⟨i.call, run⟩

def ToolTurn.start : ToolTurn := ⟨.start req.prompt (chatConfig o req), none, []⟩

end

def ToolTurn.tools (t : ToolTurn) : List InTool := t.finished ++ t.current.toList

/-- The actor that the tools are bound to. -/
def ChatRequest.boundActor (req : ChatRequest) : Option String := (requireActor (req.actor.getD "")).toOption

variable {o : Outside} {req : ChatRequest}

/-- Every tool of the turn has made calls that it may make. -/
def ToolTurn.Sound (req : ChatRequest) (t : ToolTurn) : Prop :=
  ∀ i ∈ t.tools, i.run.Sound (Allowed req.boundActor) (Settled req.boundActor)

theorem says_toolNamed {name : String} {f : Json → ToolCtx → Tool Json} (hf : toolNamed o name = some f) (args : Json) :
    Says (Allowed req.boundActor) (Settled req.boundActor) [] (f args (toolCtx req)).run := by
  obtain ⟨e, he, rfl⟩ := Option.map_eq_some_iff.mp hf
  exact says_chatRegistry o args (toolCtx req) e (List.mem_of_find?_eq_some he)

theorem sound_settle {finished : List InTool} {turn : Agent.Run} {i : InTool} {t : ToolTurn}
    (hfinished : ∀ j ∈ finished, j.run.Sound (Allowed req.boundActor) (Settled req.boundActor))
    (hi : i.run.Sound (Allowed req.boundActor) (Settled req.boundActor)) (h : settle o req finished turn i = some t) : t.Sound req := by
  have hall : ∀ j ∈ finished ++ [i], j.run.Sound (Allowed req.boundActor) (Settled req.boundActor) := by
    intro j hj
    rcases List.mem_append.mp hj with hj | hj
    · exact hfinished j hj
    · exact List.mem_singleton.mp hj ▸ hi
  unfold settle at h
  split at h
  · obtain ⟨turn', -, rfl⟩ := Option.map_eq_some_iff.mp h
    intro j hj
    exact hall j (by simpa [ToolTurn.tools] using hj)
  · obtain rfl := Option.some.inj h
    exact hall

theorem sound_advance {finished : List InTool} {turn : Agent.Run} {t : ToolTurn}
    (hfinished : ∀ j ∈ finished, j.run.Sound (Allowed req.boundActor) (Settled req.boundActor))
    (h : advance o req finished turn = some t) : t.Sound req := by
  unfold advance at h
  split at h
  · obtain ⟨f, hf, hsettle⟩ := Option.bind_eq_some_iff.mp h
    exact sound_settle hfinished (.start (says_toolNamed hf _)) hsettle
  · obtain rfl := Option.some.inj h
    intro j hj
    exact hfinished j (by simpa [ToolTurn.tools] using hj)

theorem ToolTurn.Sound.step {t t' : ToolTurn} {a : Arrival} (h : t.Sound req) (hstep : t.step o req a = some t') :
    t'.Sound req := by
  have hfinished : ∀ j ∈ t.finished, j.run.Sound (Allowed req.boundActor) (Settled req.boundActor) :=
    fun j hj => h j (List.mem_append_left _ hj)
  cases a with
  | answer a =>
    simp only [ToolTurn.step] at hstep
    split at hstep
    · obtain ⟨turn, -, hadvance⟩ := Option.bind_eq_some_iff.mp hstep
      exact sound_advance hfinished hadvance
    · cases hstep
  | reply r =>
    simp only [ToolTurn.step] at hstep
    split at hstep
    · cases hstep
    · rename_i i hcurrent
      obtain ⟨run, hrun, hsettle⟩ := Option.bind_eq_some_iff.mp hstep
      have hi := h i (List.mem_append_right _ (by rw [hcurrent]; exact List.mem_cons_self))
      exact sound_settle hfinished (hi.step hrun) hsettle

theorem sound_of_exec {arrivals : List Arrival} {t : ToolTurn}
    (h : exec (ToolTurn.step o req) (.start o req) arrivals = some t) : t.Sound req := by
  refine exec_inv (P := ToolTurn.Sound req) (fun s a s' hs => hs.step) ?_ h
  intro j hj
  cases hj

def sampleOutside : Outside where
  library := sampleLibrary
  normalized := id
  twoPlaces := id
  sha256Hex := String.ofList
  now := "2026-01-01T00:00:00+00:00"

def sampleRequest : ChatRequest := ⟨[], [], [], some "CUST-1"⟩

/-- The model asks for the balance of a line that is somebody else's. -/
def sampleArrivals : List Arrival :=
  [.answer (.taken true),
   .answer (.turn { toolCalls := [⟨"call-1", "subscription.get_balance_mine", .obj [("subscription_id", .str "SUB-2")]⟩] }),
   .answer (.taken true),
   .reply (.ok (.obj [("id", .str "SUB-2"), ("customerId", .str "CUST-2")]))]

end BssCli.Chat.Tools
