import GhostApi.Js.Objects
import GhostApi.Validation

/-!
# Eval specs

normalizeEvalSpec checks untyped data and returns it unchanged. Identifiers are
tested with a regular expression, which turns its argument into a text first,
so an accepted identifier need not be a string.
-/

namespace GhostApi.Evals

open Js Security Validation

inductive EvalExpectationType
  | runFinished
  | runExitCode
  | scenarioCompleted
  | providerCovered
  | retryObserved
  | noProviderFailures
  | noSecrets
  | noProductionEgress
  | evidencePassed
  deriving DecidableEq

def EvalExpectationType.text : EvalExpectationType → String
  | .runFinished => "run-finished"
  | .runExitCode => "run-exit-code"
  | .scenarioCompleted => "scenario-completed"
  | .providerCovered => "provider-covered"
  | .retryObserved => "retry-observed"
  | .noProviderFailures => "no-provider-failures"
  | .noSecrets => "no-secrets"
  | .noProductionEgress => "no-production-egress"
  | .evidencePassed => "evidence-passed"

def expectationTypes : List EvalExpectationType :=
  [.runFinished, .runExitCode, .scenarioCompleted, .providerCovered, .retryObserved, .noProviderFailures, .noSecrets,
    .noProductionEgress, .evidencePassed]

inductive EvalForbiddenType
  | productionEgress
  | secretLeak
  | providerFailure
  | missingScenario
  deriving DecidableEq

def EvalForbiddenType.text : EvalForbiddenType → String
  | .productionEgress => "production-egress"
  | .secretLeak => "secret-leak"
  | .providerFailure => "provider-failure"
  | .missingScenario => "missing-scenario"

def forbiddenTypes : List EvalForbiddenType := [.productionEgress, .secretLeak, .providerFailure, .missingScenario]

/-- What an expectation is about, where its type takes a value. -/
inductive ExpectationValue
  | absent
  | integer (z : Int)
  | identifier (s : String)
  deriving DecidableEq

structure EvalExpectation where
  id : JsValue
  type : EvalExpectationType
  value : ExpectationValue

structure EvalForbiddenAction where
  id : JsValue
  type : EvalForbiddenType
  value : Option String

structure RubricComponent where
  id : JsValue
  expectationId : JsValue
  points : Nat
  reason : String

structure Rubric where
  maxScore : Nat
  components : List RubricComponent

/-- An accepted spec: the data itself, and what the scoring reads of it. -/
structure EvalSpec where
  data : JsValue
  id : JsValue
  title : String
  expectations : List EvalExpectation
  forbidden : List EvalForbiddenAction
  rubric : Rubric

def MAX_ITEMS : Nat := 100

def evalError (message : String) : JsError := ⟨"EvalError", message, none⟩

/-! ## Texts of untyped values -/

def cannotConvert : JsError := ⟨"TypeError", "Cannot convert object to primitive value", none⟩

/-- A number is printed with an exponent from 10 ^ 21 on. -/
def numberText : JsNumber → String
  | .integer z => if z.natAbs < 1000000000000000000000 then toString z else (if z < 0 then "-" else "") ++ "1e+21"
  | .fraction text => text
  | .nonFinite => "Infinity"

mutual
/-- String(value). Objects are plain: a member toString of one is no function. -/
def textOf : JsValue → Except JsError String
  | .undefined => .ok "undefined"
  | .null => .ok "null"
  | .bool b => .ok (if b then "true" else "false")
  | .number n => .ok (numberText n)
  | .string s => .ok s
  | .array items => (itemTexts items).map (String.intercalate ",")
  | .object fields => if (keys fields).contains "toString" then .error cannotConvert else .ok "[object Object]"

/-- The parts that Array.join puts together. -/
def itemTexts : List JsValue → Except JsError (List String)
  | [] => .ok []
  | .undefined :: rest => (itemTexts rest).map ("" :: ·)
  | .null :: rest => (itemTexts rest).map ("" :: ·)
  | item :: rest => do
    let text ← textOf item
    let texts ← itemTexts rest
    return text :: texts
end

/-- IDENTIFIER.test(value) -/
def testIdentifier (value : JsValue) : Except JsError Bool := (textOf value).map matchesIdentifier

/-- SameValueZero. An array or an object is the same as itself only, and JSON data holds none twice. -/
def sameValue : JsValue → JsValue → Bool
  | .undefined, .undefined => true
  | .null, .null => true
  | .bool a, .bool b => a == b
  | .number a, .number b => decide (a = b)
  | .string a, .string b => a == b
  | _, _ => false

def has (values : List JsValue) (value : JsValue) : Bool := values.any (sameValue value)

/-! ## Field checks -/

def plainObject (value : JsValue) (message : String) : Except JsError Fields := object evalError value message

def assertKeys (fields : Fields) (allowed : List String) (label : String) : Except JsError Unit :=
  match (keys fields).find? fun key => !allowed.contains key with
  | some key => .error (evalError ("Unknown " ++ label ++ " field: " ++ key))
  | none => .ok ()

def isString : JsValue → Bool
  | .string _ => true
  | _ => false

/-- typeof value === "string" && test(value) -/
def isStringWith (test : String → Bool) : JsValue → Bool
  | .string s => test s
  | _ => false

def isFilled (value : JsValue) : Bool := isStringWith (fun s => trim s != "") value

def isIntegerIn (low high : Int) : JsValue → Bool
  | .number (.integer z) => decide (low ≤ z) && decide (z ≤ high)
  | _ => false

/-- Whether the value is an array with at most so many entries. -/
def boundedArray (max : Nat) (value : JsValue) : Option (List JsValue) := match value with
  | .array items => if items.length ≤ max then some items else none
  | _ => none

def readIdentifierArray (value : JsValue) (label : String) : Except JsError Unit :=
  failIf (¬ ((boundedArray MAX_ITEMS value).any fun items => items.all (isStringWith matchesIdentifier)) = true)
    (evalError (label ++ " must be a bounded array of identifiers."))

/-- /^\d+\.\d+\.\d+$/ -/
def isVersion (text : String) : Bool :=
  let parts := text.toList.splitOn '.'
  parts.length == 3 && parts.all fun part => !part.isEmpty && part.all isDigit

def isSeed (seed : String) : Bool :=
  trim seed != "" && decide (Js.length seed ≤ 128) && !seed.toList.any (fun c => c == '\r' || c == '\n' || c == '\t') &&
    sanitizeSecretString seed == seed

def normalizeWorldReference (value : JsValue) : Except JsError Unit := do
  let world ← plainObject value "syntheticWorld.world must be an object."
  assertKeys world ["id", "version", "seed"] "syntheticWorld.world"
  failIf (¬ (isStringWith matchesIdentifier (world.get "id") && isStringWith isVersion (world.get "version") &&
      isStringWith isSeed (world.get "seed")) = true)
    (evalError "syntheticWorld.world must reference a safe world id, semantic version and non-secret seed.")

def normalizeSyntheticWorld (value : JsValue) : Except JsError Unit := do
  let world ← plainObject value "syntheticWorld must be an object."
  assertKeys world ["providers", "scenarios", "world"] "syntheticWorld"
  readIdentifierArray (world.get "providers") "syntheticWorld.providers"
  readIdentifierArray (world.get "scenarios") "syntheticWorld.scenarios"
  if (world.get "world").isUndefined then .ok () else normalizeWorldReference (world.get "world")

def normalizeTask (value : JsValue) : Except JsError Unit := do
  let task ← plainObject value "task must be an object."
  assertKeys task ["description", "command"] "task"
  failIf (isString (task.get "description") = false) (evalError "task.description must be a string.")
  failIf (¬ ((boundedArray 64 (task.get "command")).any fun entries => !entries.isEmpty && entries.all isFilled) = true)
    (evalError "task.command must be a non-empty string array.")

def isOptional (test : JsValue → Bool) (value : JsValue) : Bool := value.isUndefined || test value

def normalizeInjectedFailure (value : JsValue) : Except JsError Unit := do
  let failure ← plainObject value "injected failure must be an object."
  assertKeys failure ["id", "type", "provider", "statusCode", "retryAfterMs"] "injected failure"
  -- the type is converted to a text only when the id passes
  let valid ← if ← testIdentifier (failure.get "id") then testIdentifier (failure.get "type") else .ok false
  failIf (valid = false) (evalError "injected failure id/type is invalid.")
  failIf (¬ isOptional (isStringWith matchesIdentifier) (failure.get "provider") = true)
    (evalError "injected failure provider is invalid.")
  failIf (¬ isOptional (isIntegerIn 400 599) (failure.get "statusCode") = true)
    (evalError "injected failure statusCode must be an error status.")
  failIf (¬ isOptional (isIntegerIn 0 300000) (failure.get "retryAfterMs") = true)
    (evalError "injected failure retryAfterMs is invalid.")

def normalizeInjectedFailures (value : JsValue) : Except JsError Unit :=
  match boundedArray MAX_ITEMS value with
  | some failures => failures.forM normalizeInjectedFailure
  | none => .error (evalError "injectedFailures must be a bounded array.")

/-! ## Expectations and forbidden actions -/

/-- A value that a list of types accepts, or the text of its complaint. -/
def typeFrom {α : Type} (all : List α) (text : α → String) (value : JsValue) (label : String) : Except JsError α :=
  match all.find? fun type => isStringWith (text type == ·) value with
  | some type => .ok type
  | none => do .error (evalError ("Unsupported " ++ label ++ " type: " ++ (← textOf value)))

def invalidValue {α : Type} (id : JsValue) : Except JsError α := do
  .error (evalError ("Expectation " ++ (← textOf id) ++ " has an invalid value."))

def readExpectationValue (type : EvalExpectationType) (id value : JsValue) : Except JsError ExpectationValue :=
  match type with
  | .runExitCode => match value with
    | .number (.integer z) => .ok (.integer z)
    | _ => invalidValue id
  | .scenarioCompleted | .providerCovered => match value with
    | .string s => if matchesIdentifier s then .ok (.identifier s) else invalidValue id
    | _ => invalidValue id
  | _ => do
    if value.isUndefined then .ok .absent
    else .error (evalError ("Expectation " ++ (← textOf id) ++ " does not accept a value."))

def normalizeExpectation (ids : List JsValue) (value : JsValue) : Except JsError EvalExpectation := do
  let expectation ← plainObject value "expectation must be an object."
  assertKeys expectation ["id", "type", "value", "points"] "expectation"
  let id := expectation.get "id"
  let safe ← testIdentifier id
  failIf (¬ (safe && !has ids id) = true) (evalError "expectation id must be unique and stable.")
  let type ← typeFrom expectationTypes EvalExpectationType.text (expectation.get "type") "expectation"
  let content ← readExpectationValue type id (expectation.get "value")
  return ⟨id, type, content⟩

/-- The loop over the expectations, with the ids seen before. -/
def normalizeEach (ids : List JsValue) : List JsValue → Except JsError (List EvalExpectation)
  | [] => .ok []
  | value :: rest => do
    let expectation ← normalizeExpectation ids value
    let others ← normalizeEach (expectation.id :: ids) rest
    return expectation :: others

def normalizeExpectations (value : JsValue) : Except JsError (List EvalExpectation) :=
  match boundedArray MAX_ITEMS value with
  | some values =>
    if values.isEmpty then .error (evalError "expectations must be a non-empty bounded array.")
    else normalizeEach [] values
  | none => .error (evalError "expectations must be a non-empty bounded array.")

def readForbiddenValue (type : EvalForbiddenType) (value : JsValue) : Except JsError (Option String) :=
  match type, value with
  | .missingScenario, .string s =>
    if matchesIdentifier s then .ok (some s)
    else .error (evalError "missing-scenario forbidden actions require a scenario identifier.")
  | .missingScenario, _ => .error (evalError "missing-scenario forbidden actions require a scenario identifier.")
  | _, .undefined => .ok none
  | type, _ => .error (evalError (type.text ++ " forbidden actions do not accept a value."))

def normalizeForbiddenAction (value : JsValue) : Except JsError EvalForbiddenAction := do
  let forbidden ← plainObject value "forbidden action must be an object."
  assertKeys forbidden ["id", "type", "value"] "forbidden action"
  let safe ← testIdentifier (forbidden.get "id")
  failIf (safe = false) (evalError "forbidden action id is invalid.")
  let type ← typeFrom forbiddenTypes EvalForbiddenType.text (forbidden.get "type") "forbidden action"
  let content ← readForbiddenValue type (forbidden.get "value")
  return ⟨forbidden.get "id", type, content⟩

def normalizeForbidden (value : JsValue) : Except JsError (List EvalForbiddenAction) :=
  match boundedArray MAX_ITEMS value with
  | some values => values.mapM normalizeForbiddenAction
  | none => .error (evalError "forbidden must be a bounded array.")

def normalizeLimits (value : JsValue) : Except JsError Unit := do
  let limits ← plainObject value "limits must be an object."
  assertKeys limits ["timeoutMs", "maxOutputBytes"] "limits"
  failIf (¬ isIntegerIn 100 300000 (limits.get "timeoutMs") = true)
    (evalError "limits.timeoutMs must be between 100 and 300000.")
  failIf (¬ isIntegerIn 0 (10 * 1024 * 1024) (limits.get "maxOutputBytes") = true)
    (evalError "limits.maxOutputBytes must be bounded.")

/-! ## The rubric -/

def integerIn (low high : Nat) (value : JsValue) (message : String) : Except JsError Nat := match value with
  | .number (.integer z) => if low ≤ z ∧ z ≤ high then .ok z.toNat else .error (evalError message)
  | _ => .error (evalError message)

def filledText (value : JsValue) (message : String) : Except JsError String := match value with
  | .string s => if trim s = "" then .error (evalError message) else .ok s
  | _ => .error (evalError message)

def normalizeComponent (maxScore : Nat) (expectationIds componentIds referenced : List JsValue) (value : JsValue) :
    Except JsError RubricComponent := do
  let component ← plainObject value "rubric component must be an object."
  assertKeys component ["id", "expectationId", "points", "reason"] "rubric component"
  let id := component.get "id"
  let expectationId := component.get "expectationId"
  let safe ← testIdentifier id
  failIf (¬ (safe && !has componentIds id && has expectationIds expectationId && !has referenced expectationId) = true)
    (evalError "rubric component id or expectation reference is duplicated or unknown.")
  let points ← integerIn 0 maxScore (component.get "points") "rubric component points are invalid."
  let reason ← filledText (component.get "reason") "rubric component reason is required."
  return ⟨id, expectationId, points, reason⟩

/-- The loop over the components, with the ids and the references seen before. -/
def normalizeComponents (maxScore : Nat) (expectationIds componentIds referenced : List JsValue) :
    List JsValue → Except JsError (List RubricComponent)
  | [] => .ok []
  | value :: rest => do
    let component ← normalizeComponent maxScore expectationIds componentIds referenced value
    let others ← normalizeComponents maxScore expectationIds (component.id :: componentIds)
      (component.expectationId :: referenced) rest
    return component :: others

def totalPoints (components : List RubricComponent) : Nat := (components.map RubricComponent.points).sum

def componentArray (value : JsValue) : Except JsError (List JsValue) := match boundedArray MAX_ITEMS value with
  | some values =>
    if values.isEmpty then .error (evalError "rubric.components must be a non-empty bounded array.") else .ok values
  | none => .error (evalError "rubric.components must be a non-empty bounded array.")

def normalizeRubric (value : JsValue) (expectations : List EvalExpectation) : Except JsError Rubric := do
  let rubric ← plainObject value "rubric must be an object."
  assertKeys rubric ["maxScore", "components"] "rubric"
  let maxScore ← integerIn 1 1000 (rubric.get "maxScore") "rubric.maxScore must be a positive bounded integer."
  let values ← componentArray (rubric.get "components")
  let components ← normalizeComponents maxScore (expectations.map EvalExpectation.id) [] [] values
  failIf (totalPoints components ≠ maxScore) (evalError "rubric component points must sum exactly to rubric.maxScore.")
  return ⟨maxScore, components⟩

/-! ## The spec -/

def judgeEnabled (value : JsValue) : Except JsError Bool := match value with
  | .undefined => .ok false
  | value => do
    let judge ← plainObject value "judge must be an object when present."
    assertKeys judge ["llmAsJudge"] "judge"
    match judge.get "llmAsJudge" with
    | .bool false => .ok false
    | setting => do
      let disabled ← plainObject setting "judge.llmAsJudge must be false or a disabled object."
      assertKeys disabled ["enabled", "note"] "judge.llmAsJudge"
      match disabled.get "enabled" with
      | .bool false => .ok false
      | _ => .ok true

def specKeys : List String :=
  ["schemaVersion", "kind", "id", "title", "syntheticWorld", "task", "injectedFailures", "expectations", "forbidden",
    "limits", "rubric", "judge"]

def isSchemaVersionOne : JsValue → Bool
  | .number (.integer z) => z == 1
  | _ => false

def normalizeEvalSpec (value : JsValue) : Except JsError EvalSpec := do
  let spec ← plainObject value "Eval spec must be an object."
  assertKeys spec specKeys "eval spec"
  failIf (¬ (isSchemaVersionOne (spec.get "schemaVersion") && isStringWith ("ghostapi.eval" == ·) (spec.get "kind")) = true)
    (evalError "Unsupported eval spec schema.")
  let safe ← testIdentifier (spec.get "id")
  failIf (safe = false) (evalError "Eval id must be a stable identifier.")
  let title ← filledText (spec.get "title") "Eval title is required."
  normalizeSyntheticWorld (spec.get "syntheticWorld")
  normalizeTask (spec.get "task")
  normalizeInjectedFailures (spec.get "injectedFailures")
  let expectations ← normalizeExpectations (spec.get "expectations")
  let forbidden ← normalizeForbidden (spec.get "forbidden")
  normalizeLimits (spec.get "limits")
  let rubric ← normalizeRubric (spec.get "rubric") expectations
  let enabled ← judgeEnabled (spec.get "judge")
  failIf (enabled = true) (evalError "LLM-as-judge cannot be enabled for core eval specs.")
  return ⟨value, spec.get "id", title, expectations, forbidden, rubric⟩

end GhostApi.Evals
