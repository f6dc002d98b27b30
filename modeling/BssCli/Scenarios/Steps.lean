import BssCli.Lib.Program
import BssCli.Scenarios.Assertions

/-!
# Steps of a scenario

`schema.rs`, `http_step.rs`, `file_step.rs`, `llm_executor.rs` and the steps of `runner.rs`: what a step does, and with what it ends.
What is outside replies as it likes.
-/

open Text Stateful

namespace BssCli.Scenarios

/-! ## A scenario -/

structure Setup where
  resetOperationalData : Bool := false
  resetSequences : Bool := false
  freezeClockAt : Option String := none
  vars : List (String × Json) := []

structure Teardown where
  unfreezeClock : Bool := false

structure Poll where
  intervalMs : ℤ := 200
  timeoutSeconds : ℚ := 5

structure ActionStep where
  name : String
  capture : List (String × Json) := []
  action : String
  args : List (String × Json) := []

structure AskStep where
  name : String
  ask : String
  expectToolsCalledInclude : List String := []
  expectToolsNotCalled : List String := []
  expectFinalState : List (String × Json) := []

structure AssertCall where
  tool : String
  args : List (String × Json) := []
  expect : List (String × Json) := []
  poll : Option Poll := none

structure AssertStep where
  name : String
  capture : List (String × Json) := []
  assertCall : AssertCall

inductive StatusSpec
  | one (n : ℤ)
  | many (ns : List ℤ)

def StatusSpec.codes : StatusSpec → List ℤ
  | .one n => [n]
  | .many ns => ns

structure HttpExpect where
  status : Option StatusSpec := none
  bodyContains : List String := []
  bodyNotContains : List String := []
  headersMatch : List (String × Json) := []
  bodyJsonEquals : List (String × Json) := []

structure HttpRegexCapture where
  source : String
  pattern : String
  group : ℤ := 1

structure HttpStep where
  name : String
  capture : List (String × Json) := []
  http : String
  baseUrl : String := "http://portal-self-serve:8000"
  headers : List (String × Json) := []
  cookies : List (String × Json) := []
  form : List (String × Json) := []
  jsonBody : Option (List (String × Json)) := none
  expect : HttpExpect := {}
  poll : Option Poll := none
  followRedirects : Bool := false
  captureRegex : List (String × HttpRegexCapture) := []

structure FileReadStep where
  name : String
  file : String
  captureRegex : List (String × HttpRegexCapture) := []
  poll : Option Poll := none

inductive Step
  | action (s : ActionStep)
  | ask (s : AskStep)
  | assert (s : AssertStep)
  | http (s : HttpStep)
  | file (s : FileReadStep)

def Step.name : Step → String
  | .action s => s.name
  | .ask s => s.name
  | .assert s => s.name
  | .http s => s.name
  | .file s => s.name

def Step.kind : Step → String
  | .action _ => "action"
  | .ask _ => "ask"
  | .assert _ => "assert"
  | .http _ => "http"
  | .file _ => "file"

inductive LlmMode
  | auto
  | disabled
  | forced
  deriving DecidableEq

/-! ## Outside -/

inductive Body
  | none
  | form (pairs : List (String × String))
  | json (v : Json)

structure Request where
  method : String
  url : String
  headers : List (String × String)
  cookie : Option String
  body : Body
  followRedirects : Bool

/-- A header has no text where its bytes are none. -/
structure Response where
  status : ℕ
  headers : List (String × Option String)
  text : String

/-- The groups of a match, by number. -/
abbrev Groups := ℕ → Option String

/-- What a turn of the model leaves: the errors, the final messages, and the tools that were completed. -/
structure Turn where
  errors : List String
  finalMessages : List String
  completed : List String

/-- A pattern that compiled: the first match in a text, and every match. -/
structure Matcher where
  first : String → Option Groups
  all : String → List Groups

/-- The services, the files and the model, with the clock of a poll. Their state changes with each use. -/
structure Outside (σ : Type) where
  printer : Printer
  debugJson : Json → String
  toLowercase : String → String
  registry : List String
  run : String → List (String × Json) → σ → Except String Json × σ
  method : String → Except String Unit
  send : Request → σ → Except String Response × σ
  fromStr : String → Option Json
  readToString : String → σ → Option String × σ
  llmModel : Except String Unit
  turn : String → σ → Except String Turn × σ
  regex : String → Except String Matcher
  /-- How many evaluations more the deadline leaves. -/
  again : Poll → σ → ℕ
  sleep : Poll → σ → σ

structure World (σ : Type) where
  vars : Vars
  outside : σ

/-- The verbs that only scenarios have. -/
def scenarioVerbs : List String :=
  ["admin.reset_operational_data", "clock.freeze", "clock.unfreeze", "clock.advance", "audit.events_by_identity",
    "audit.count_by_identity", "portal.write_demo_contact", "portal.link_identity_to_customer", "portal.run_chat_turn",
    "portal.mint_test_session"]

section

variable {σ : Type} (o : Outside σ)

def isKnown (name : String) : Bool := name ∈ scenarioVerbs || name ∈ o.registry

abbrev StepM (σ α : Type) := Stateful String (World σ) α

def outside {α : Type} (f : σ → Except String α × σ) : StepM σ α :=
  ExceptT.mk fun w => ((f w.outside).1, { w with outside := (f w.outside).2 })

def vars : StepM σ Vars := ExceptT.mk fun w => (.ok w.vars, w)

/-- Captures go over the variables of the same names. -/
def merge (vars captured : Vars) : Vars := captured.foldl (fun m c => Fields.insert m c.1 c.2) vars

def keep (captured : Vars) : StepM σ Unit := ExceptT.mk fun w => (.ok (), { w with vars := merge w.vars captured })

/-- No poll is one evaluation. -/
def evaluations (poll : Option Poll) (s : σ) : ℕ := poll.elim 0 fun q => o.again q s

def remaining (poll : Option Poll) : StepM σ ℕ := outside fun s => (.ok (evaluations o poll s), s)

def sleep (poll : Option Poll) : StepM σ Unit := outside fun s => (.ok (), poll.elim s fun q => o.sleep q s)

/-! ## Polls -/

/-- `attempt` until there is nothing to complain of, and once more for each evaluation that is left. -/
def pollUntil {β α : Type} (poll : Option Poll) (attempt : StepM σ (List β × α)) : ℕ → StepM σ (List β × α)
  | 0 => attempt
  | n + 1 => do
    let last ← attempt
    if last.1 = [] then pure last
    else
      sleep o poll
      pollUntil poll attempt n

/-! ## Captures -/

def isKeyChar (c : Char) : Bool := c ≠ '.' && c ≠ '['

def jsonpathKey (cs : List Char) : List Char × List Char := (cs.takeWhile isKeyChar, cs.dropWhile isKeyChar)

def jsonpathIndex (cs : List Char) : List Char × List Char := (cs.takeWhile (· ≠ ']'), (cs.dropWhile (· ≠ ']')).drop 1)

def isQuote (c : Char) : Bool := c = '\'' || c = '"'

/-- What is at the rest of a path. -/
def jsonpathAt (cur : Json) : List Char → Option Json
  | [] => some cur
  | '.' :: cs => (cur.get (String.ofList (jsonpathKey cs).1)).bind fun v => jsonpathAt v (jsonpathKey cs).2
  | '[' :: cs =>
    (parseUsize (((jsonpathIndex cs).1.dropWhile isQuote).rdropWhile isQuote)).bind fun i =>
      (cur.asArray.bind fun values => values[i]?).bind fun v => jsonpathAt v (jsonpathIndex cs).2
  | _ => none
termination_by cs => cs.length
decreasing_by
  · exact Nat.lt_succ_of_le (List.dropWhile_suffix _).length_le
  · exact Nat.lt_succ_of_le ((List.drop_suffix ..).trans (List.dropWhile_suffix _)).length_le

def jsonpathFirst (root : Json) (expr : String) : Option Json :=
  match expr.toList with
  | '$' :: rest => jsonpathAt root rest
  | _ => none

/-- What is captured for one variable. -/
def captureOne (source : String) (result : Json) (varName : String) (pathExpr : Json) : Except String Json :=
  match pathExpr.asStr with
  | none => .error ("capture " ++ o.printer.debug varName ++ ": path must be a string")
  | some path =>
    match jsonpathFirst result path with
    | some found => .ok found
    | none =>
      .error ("capture " ++ o.printer.debug varName ++ ": jsonpath " ++ o.printer.debug path ++ " matched nothing in " ++ source)

/-- Each variable is there for what follows, also when a later capture fails. -/
def applyCaptures (result : Json) : List (String × Json) → StepM σ Vars
  | [] => pure []
  | (varName, pathExpr) :: captures => do
    let found ← .ofExcept (captureOne o "tool result" result varName pathExpr)
    keep [(varName, found)]
    let newly ← applyCaptures result captures
    pure ((varName, found) :: newly)

def resolveSource (result : Json) (path : String) : Option Json := (segments path).foldlM Json.get result

/-- The last match for a file step, else the first. -/
def Matcher.captures (m : Matcher) (lastMatch : Bool) (source : String) : Option Groups :=
  if lastMatch then (m.all source).getLast? else m.first source

def captureRegexOne (result : Json) (lastMatch : Bool) (varName : String) (cfg : HttpRegexCapture) : Except String Json :=
  match (resolveSource result cfg.source).bind Json.asStr with
  | none => .error ("capture_regex " ++ o.printer.debug varName ++ ": source " ++ o.printer.debug cfg.source ++ " did not resolve to a string")
  | some source =>
    match o.regex cfg.pattern with
    | .error e => .error ("capture_regex " ++ o.printer.debug varName ++ ": " ++ e)
    | .ok re =>
      match (re.captures lastMatch source).bind fun caps => caps cfg.group.toNat with
      | some grp => .ok (.str grp)
      | none =>
        .error ("capture_regex " ++ o.printer.debug varName ++ ": pattern " ++ o.printer.debug cfg.pattern ++ " did not match source")

def collect {κ : Type} (f : String → κ → Except String Json) : List (String × κ) → Except String Vars
  | [] => .ok []
  | (varName, k) :: captures => do
    let v ← f varName k
    let vs ← collect f captures
    .ok ((varName, v) :: vs)

def captureRegex (result : Json) (lastMatch : Bool) : List (String × HttpRegexCapture) → Except String Vars :=
  collect (captureRegexOne o result lastMatch)

/-! ## Action and assert steps -/

def unknownAction (name : String) : String := "unknown action: " ++ o.printer.debug name

/-- The arguments with the variables in their places. -/
def interpolateArgs (vars : Vars) (args : List (String × Json)) : Except String (List (String × Json)) :=
  match interpolate o.printer vars (.obj args) with
  | .ok (.obj fields) => .ok fields
  | .ok _ => .ok []
  | .error e => .error e

def runAction (s : ActionStep) : StepM σ Vars := do
  ensure (isKnown o s.action) (unknownAction o s.action)
  let vs ← vars
  let args ← .ofExcept (interpolateArgs o vs s.args)
  let result ← outside (o.run s.action args)
  applyCaptures o result s.capture

def attemptAssert (tool : String) (args expect : List (String × Json)) : StepM σ (List AssertionFailure × Unit) := do
  let value ← outside (o.run tool args)
  pure (evaluateExpect o.printer expect value, ())

def runAssert (s : AssertStep) : StepM σ Vars := do
  let call := s.assertCall
  ensure (isKnown o call.tool) (unknownAction o call.tool)
  let vs ← vars
  let args ← .ofExcept (interpolateArgs o vs call.args)
  let expect ← .ofExcept (interpolateArgs o vs call.expect)
  let n ← remaining o call.poll
  let assertion ← pollUntil o call.poll (attemptAssert o call.tool args expect) n
  ensure (assertion.1 = []) ("\n".intercalate (assertion.1.map (AssertionFailure.format o.printer)))
  pure []

/-! ## Http steps -/

def interpToString (vars : Vars) (v : Json) : Except String String :=
  (interpolate o.printer vars v).map fun w => String.ofList (valueToString o.printer w)

/-- `split_once(' ')`, with all of the text where there is no blank. -/
def splitMethod (http : List Char) : List Char × List Char := (http.takeWhile (· ≠ ' '), (http.dropWhile (· ≠ ' ')).drop 1)

def isAbsolute (url : List Char) : Bool := "http://".toList <+: url || "https://".toList <+: url

def parseMethodUrl (vars : Vars) (http baseUrl : String) : Except String (String × String) := do
  let (method, url) := splitMethod (trim http.toList)
  let method := String.ofList (method.map Char.toUpper)
  let url ← interpToString o vars (.str (String.ofList (trim url)))
  if isAbsolute url.toList then .ok (method, url)
  else do
    let base ← interpToString o vars (.str baseUrl)
    .ok (method, String.ofList (base.toList.rdropWhile (· = '/') ++ '/' :: url.toList.dropWhile (· = '/')))

def interpPairs (vars : Vars) : List (String × Json) → Except String (List (String × String))
  | [] => .ok []
  | (k, v) :: pairs => do
    let w ← interpToString o vars v
    let ws ← interpPairs vars pairs
    .ok ((k, w) :: ws)

/-- The request of a step, before it is sent. -/
def request (vars : Vars) (s : HttpStep) : Except String Request := do
  let (method, url) ← parseMethodUrl o vars s.http s.baseUrl
  o.method method
  let headers ← interpPairs o vars s.headers
  let cookies ← interpPairs o vars s.cookies
  let body ←
    if s.form ≠ [] then (interpPairs o vars s.form).map Body.form
    else match s.jsonBody with
      | some body => (interpolate o.printer vars (.obj body)).map Body.json
      | none => .ok .none
  let cookie := if cookies = [] then none else some ("; ".intercalate (cookies.map fun c => c.1 ++ "=" ++ c.2))
  .ok ⟨method, url, headers, cookie, body, s.followRedirects⟩

def parseSetCookie (raw : String) : Option (String × String) :=
  (splitOnce '=' (raw.toList.takeWhile (· ≠ ';'))).map fun kv => (String.ofList (trim kv.1), String.ofList (trim kv.2))

structure HttpResult where
  value : Json
  bodyText : String
  headers : List (String × String)

def responseHeaders (r : Response) : List (String × String) :=
  r.headers.foldl (fun m h => Fields.insert m h.1 (h.2.getD "")) []

def responseCookies (r : Response) : List (String × Json) :=
  r.headers.foldl (fun m h =>
    if h.1 = "set-cookie" then (parseSetCookie (h.2.getD "")).elim m fun kv => Fields.insert m kv.1 (.str kv.2) else m) []

def responseBody (r : Response) : Json :=
  if "application/json".toList <:+: ((Fields.get (responseHeaders r) "content-type").getD "").toList ∧ r.text ≠ "" then
    (o.fromStr r.text).getD .null
  else .null

def httpResult (r : Response) : HttpResult where
  value := .obj [("status", .int r.status), ("headers", .obj ((responseHeaders r).map fun h => (h.1, .str h.2))),
    ("cookies", .obj (responseCookies r)), ("body", responseBody o r), ("body_text", .str r.text)]
  bodyText := r.text
  headers := responseHeaders r

def doRequest (s : HttpStep) : StepM σ HttpResult := do
  let vs ← vars
  let req ← .ofExcept (request o vs s)
  let r ← outside (o.send req)
  pure (httpResult o r)

def debugCodes (ns : List ℤ) : String := "[" ++ ", ".intercalate (ns.map fun n => String.ofList (ofI64 n)) ++ "]"

def debugOption {α : Type} (debug : α → String) : Option α → String
  | none => "None"
  | some a => "Some(" ++ debug a ++ ")"

def statusOf (r : HttpResult) : ℕ :=
  match r.value.get "status" with
  | some (.int n) => n.toNat
  | _ => 0

def checkStatus (spec : Option StatusSpec) (r : HttpResult) : List String :=
  match spec with
  | none => []
  | some spec =>
    if (statusOf r : ℤ) ∈ spec.codes then []
    else ["status " ++ String.ofList (Nat.toDigits 10 (statusOf r)) ++ " not in " ++ debugCodes spec.codes]

/-- A text that names a variable that is not bound is passed over. -/
def checkContains (vars : Vars) (r : HttpResult) (raw : String) : List String :=
  match interpToString o vars (.str raw) with
  | .error _ => []
  | .ok needle =>
    if needle.toList <:+: r.bodyText.toList then [] else ["body_contains: " ++ o.printer.debug needle ++ " not found"]

def checkNotContains (vars : Vars) (r : HttpResult) (raw : String) : List String :=
  match interpToString o vars (.str raw) with
  | .error _ => []
  | .ok needle =>
    if needle.toList <:+: r.bodyText.toList then ["body_not_contains: " ++ o.printer.debug needle ++ " present"] else []

def wantedHeader (vars : Vars) (want : Json) : String := (interpToString o vars want).toOption.getD ""

def checkHeader (vars : Vars) (r : HttpResult) (key : String) (want : Json) : List String :=
  let got := Fields.get r.headers (o.toLowercase key)
  if got = some (wantedHeader o vars want) then []
  else ["header " ++ key ++ "=" ++ debugOption o.printer.debug got ++ ", expected " ++ o.printer.debug (wantedHeader o vars want)]

def wantedField (vars : Vars) (want : Json) : Json := (interpolate o.printer vars want).toOption.getD .null

def checkField (vars : Vars) (r : HttpResult) (key : String) (want : Json) : List String :=
  let got := (r.value.get "body").bind fun b => b.get key
  if got.any fun v => v.same (wantedField o vars want) then []
  else ["body_json." ++ key ++ "=" ++ debugOption o.debugJson got ++ ", expected " ++ o.debugJson (wantedField o vars want)]

/-- Why the result is not as expected. -/
def checkExpect (expect : HttpExpect) (r : HttpResult) (vars : Vars) : List String :=
  checkStatus expect.status r ++ expect.bodyContains.flatMap (checkContains o vars r) ++
    expect.bodyNotContains.flatMap (checkNotContains o vars r) ++
    expect.headersMatch.flatMap (fun h => checkHeader o vars r h.1 h.2) ++
    expect.bodyJsonEquals.flatMap (fun f => checkField o vars r f.1 f.2)

def attemptHttp (s : HttpStep) : StepM σ (List String × HttpResult) := do
  let r ← doRequest o s
  let vs ← vars
  pure (checkExpect o s.expect r vs, r)

def runHttpStep (s : HttpStep) : StepM σ Vars := do
  let n ← remaining o s.poll
  let last ← pollUntil o s.poll (attemptHttp o s) n
  ensure (last.1 = []) ("; ".intercalate last.1)
  let captured ← .ofExcept (collect (captureOne o "HTTP result" last.2.value) s.capture)
  let more ← .ofExcept (captureRegex o last.2.value false s.captureRegex)
  let captured := merge captured more
  keep captured
  pure captured

/-! ## File steps -/

/-- The text of a path or a prompt. -/
def textOf : Json → String
  | .str s => s
  | other => String.ofList (o.printer.json other)

def fileResult (path bodyText : String) : Json :=
  .obj [("path", .str path), ("body_text", .str bodyText), ("size", .int (utf8 bodyText.toList).length)]

/-- What the loop of a file step carries. -/
structure Reading where
  captured : Vars := []
  lastErr : String := ""
  gotBody : Bool := false

/-- What a reading leaves, and whether it is the last. -/
def readResult (s : FileReadStep) (path : String) (k : Reading) : Option String → Bool × Reading
  | none => (false, { k with lastErr := "file not found: " ++ path })
  | some bodyText =>
    if s.captureRegex = [] then (true, { k with gotBody := true })
    else match captureRegex o (fileResult path bodyText) true s.captureRegex with
      | .ok c => (true, { k with gotBody := true, captured := c })
      | .error e => (false, { k with gotBody := true, lastErr := e })

def readOnce (s : FileReadStep) (path : String) (k : Reading) : StepM σ (Bool × Reading) := do
  let body ← outside fun w => (.ok (o.readToString path w).1, (o.readToString path w).2)
  pure (readResult o s path k body)

def readUntil (s : FileReadStep) (path : String) : ℕ → Reading → StepM σ Reading
  | 0, k => do
    let r ← readOnce o s path k
    pure r.2
  | n + 1, k => do
    let r ← readOnce o s path k
    if r.1 = true then pure r.2
    else
      sleep o s.poll
      readUntil s path n r.2

def Reading.Done (s : FileReadStep) (k : Reading) : Prop := k.gotBody = true ∧ (s.captureRegex = [] ∨ k.captured ≠ [])

instance (s : FileReadStep) (k : Reading) : Decidable (k.Done s) := by
  unfold Reading.Done
  infer_instance

def runFileStep (s : FileReadStep) : StepM σ Vars := do
  let vs ← vars
  let path ← .ofExcept (interpolate o.printer vs (.str s.file))
  let n ← remaining o s.poll
  let k ← readUntil o s (textOf o path) n {}
  ensure (k.Done s)
    (if k.lastErr = "" then "file read produced no captures" else k.lastErr)
  keep k.captured
  pure k.captured

/-! ## Ask steps -/

/-- Only a turn with no final message fails with its error. -/
def turnError (t : Turn) : Option String := if t.finalMessages.isEmpty then t.errors.getLast? else none

def turnTools (t : Turn) : Except String (List String) :=
  match turnError t with
  | some msg => .error msg
  | none => .ok (t.completed.filter (· ≠ ""))

def executeAskStep (s : AskStep) (allowLlm : Bool) : StepM σ (List String) := do
  ensure allowLlm ("ask: step " ++ o.printer.debug s.name ++
    " cannot run with --no-llm. Re-run without --no-llm or convert to an action: step.")
  .ofExcept o.llmModel
  let vs ← vars
  let prompt ← .ofExcept (interpolate o.printer vs (.str s.ask))
  let t ← outside (o.turn (textOf o prompt))
  .ofExcept (turnTools t)

def debugNames (names : List String) : String := "[" ++ ", ".intercalate (names.map o.printer.debug) ++ "]"

/-- The state to look at is empty as yet. -/
def finalStateProbe : Json := .obj []

def askFailures (s : AskStep) (toolsCalled : List String) : List String :=
  let missing := s.expectToolsCalledInclude.filter (· ∉ toolsCalled)
  let forbidden := s.expectToolsNotCalled.filter (· ∈ toolsCalled)
  let finalState := evaluateExpect o.printer s.expectFinalState finalStateProbe
  (if missing = [] then [] else ["expected tools not called: " ++ debugNames o missing]) ++
    (if forbidden = [] then [] else ["forbidden tools called: " ++ debugNames o forbidden]) ++
    (if s.expectFinalState = [] ∨ finalState.isEmpty then []
      else ["final state mismatch: " ++ "\n".intercalate (finalState.map (AssertionFailure.format o.printer))])

def runAsk (s : AskStep) (mode : LlmMode) : StepM σ Vars := do
  let toolsCalled ← executeAskStep o s (mode ≠ .disabled)
  ensure (askFailures o s toolsCalled = []) ("\n".intercalate (askFailures o s toolsCalled))
  pure []

def stepBody (mode : LlmMode) : Step → StepM σ Vars
  | .action s => runAction o s
  | .assert s => runAssert o s
  | .http s => runHttpStep o s
  | .file s => runFileStep o s
  | .ask s => runAsk o s mode

/-! ## The run -/

structure StepResult where
  name : String
  kind : String
  ok : Bool
  captured : Vars
  error : Option String

structure ScenarioResult where
  scenario : String
  ok : Bool
  steps : List StepResult := []
  setupError : Option String := none
  teardownError : Option String := none
  vars : Vars := []

structure Scenario where
  name : String
  setup : Setup := {}
  vars : List (String × Json) := []
  steps : List Step := []
  teardown : Teardown := {}

/-- The variables of the setup, with those of the scenario over them. -/
def Scenario.seed (sc : Scenario) : List (String × Json) := merge sc.setup.vars sc.vars

/-- A seed may name the ones before it. -/
def seedInto (vars : Vars) : List (String × Json) → Except String Vars
  | [] => .ok vars
  | (k, v) :: seed => do
    let resolved ← interpolate o.printer vars v
    seedInto (Fields.insert vars k resolved) seed

def newContext (runId : String) (seed : List (String × Json)) : Except String Vars := seedInto o [("run_id", .str runId)] seed

def resetData (setup : Setup) : StepM σ Unit :=
  if setup.resetOperationalData then do
    let _ ← outside (o.run "admin.reset_operational_data" [("reset_sequences", .bool setup.resetSequences)])
    pure ()
  else pure ()

def freezeClock (setup : Setup) : StepM σ Unit :=
  match setup.freezeClockAt with
  | some freezeAt => do
    let vs ← vars
    let resolved ← .ofExcept (interpolate o.printer vs (.str freezeAt))
    let _ ← outside (o.run "clock.freeze" [("at", resolved)])
    pure ()
  | none => pure ()

def runSetup (setup : Setup) : StepM σ Unit := do
  resetData o setup
  freezeClock o setup

def runTeardown (teardown : Teardown) : StepM σ Unit :=
  if teardown.unfreezeClock then do
    let _ ← outside (o.run "clock.unfreeze" [])
    pure ()
  else pure ()

def passed (step : Step) (captured : Vars) : StepResult := ⟨step.name, step.kind, true, captured, none⟩

def failed (step : Step) (e : String) : StepResult := ⟨step.name, step.kind, false, [], some e⟩

def runStep (mode : LlmMode) (step : Step) (w : World σ) : StepResult × World σ :=
  match (stepBody o mode step).run.run w with
  | (.ok captured, w') => (passed step captured, w')
  | (.error e, w') => (failed step e, w')

/-- The first failure is the last step. -/
def runSteps (mode : LlmMode) : List Step → World σ → List StepResult × World σ
  | [], w => ([], w)
  | step :: steps, w =>
    let (r, w') := runStep o mode step w
    if r.ok then
      let (rs, w'') := runSteps mode steps w'
      (r :: rs, w'')
    else ([r], w')

def errorOf {α : Type} : Except String α → Option String
  | .ok _ => none
  | .error e => some e

/-- The teardown runs whatever came of the steps. -/
def finish (sc : Scenario) (r : List StepResult × World σ) : ScenarioResult × σ :=
  let (teardown, w) := (runTeardown o sc.teardown).run.run r.2
  (⟨sc.name, r.1.all StepResult.ok && (errorOf teardown).isNone, r.1, none, errorOf teardown, w.vars⟩, w.outside)

def runScenario (mode : LlmMode) (runId : String) (sc : Scenario) (s : σ) : ScenarioResult × σ :=
  match newContext o runId sc.seed with
  | .error e => (⟨sc.name, false, [], some e, none, []⟩, s)
  | .ok vs =>
    match (runSetup o sc.setup).run.run ⟨vs, s⟩ with
    | (.error e, w) => (⟨sc.name, false, [], some e, none, w.vars⟩, w.outside)
    | (.ok _, w) => finish o sc (runSteps o mode sc.steps w)

end

end BssCli.Scenarios
