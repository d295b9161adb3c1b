import GhostApi.Evals.Spec
import GhostApi.Evidence.Report

/-!
# Scoring an eval

A rubric component earns its points when the expectation that it refers to
holds for the evidence. A triggered forbidden action takes all points away.
The eval passes with the full score.
-/

namespace GhostApi.Evals

open Js hiding Collation
open Evidence (Attempt Collation Value limitText record text texts optionalText stableStringify unitLe)
open Policy (JsString units)

structure EvidenceReport where
  logicalHash : JsString
  runId : JsString
  status : JsString
  exitCode : Option JsNumber
  mode : JsString
  isolated : Bool
  degraded : Bool
  providers : List JsString
  scenarios : List JsString
  allowedAttempts : List Attempt
  /-- None when the attempts were not measured. -/
  productionAttempts : Option JsNumber
  secretMatches : JsNumber
  failureCount : JsNumber
  warnings : List JsString
  passed : Bool

def ofBuilt (report : Evidence.EvidenceReport) : EvidenceReport where
  logicalHash := report.logicalHash
  runId := report.runId
  status := units report.status
  exitCode := report.exitCode.map .integer
  mode := units report.mode
  isolated := report.isolated
  degraded := !report.isolated
  providers := report.providers
  scenarios := report.scenarios
  allowedAttempts := report.allowedAttempts
  productionAttempts := none
  secretMatches := .integer report.secretMatches
  failureCount := .integer report.failureCount
  warnings := report.warnings
  passed := report.passed

/-! ## Numbers of the evidence

A printed fraction with an exponent is close to zero. A number that is not
finite is taken for infinite. -/

def isZero (n : JsNumber) : Bool := decide (n = .integer 0)

def isPositive : JsNumber → Bool
  | .integer z => decide (0 < z)
  | .fraction text => text.toList.head? != some '-'
  | .nonFinite => true

/-- n < 500 -/
def isBelow500 : JsNumber → Bool
  | .integer z => decide (z < 500)
  | .fraction text => text.toList.head? == some '-' || text.toList.contains 'e' ||
      decide (Nat.ofDigitChars 10 (text.toList.takeWhile isDigit) 0 < 500)
  | .nonFinite => false

/-! ## Expectations and forbidden actions -/

def sameRequest (attempt later : Attempt) : Bool :=
  later.provider == attempt.provider && later.method == attempt.method && later.path == attempt.path

def isRetryable (attempt : Attempt) : Bool :=
  !(decide (attempt.statusCode ≠ .integer 429) && isBelow500 attempt.statusCode)

/-- An attempt that failed in a retryable way was repeated later. -/
def observedRetry : List Attempt → Bool
  | [] => false
  | attempt :: rest => isRetryable attempt && rest.any (sameRequest attempt) || observedRetry rest

def hasObservedRetry (evidence : EvidenceReport) : Bool := observedRetry evidence.allowedAttempts

def hasEnforcedCompletedRun (evidence : EvidenceReport) : Bool :=
  evidence.status == units "finished" && evidence.mode == units "linux-network-namespace" && evidence.isolated &&
    !evidence.degraded

/-- typeof value === "string" && values.includes(value) -/
def includesIdentifier (values : List JsString) : ExpectationValue → Bool
  | .identifier s => values.contains (units s)
  | _ => false

/-- exitCode === value -/
def isExitCode (exitCode : Option JsNumber) : ExpectationValue → Bool
  | .absent => exitCode.isNone
  | .integer z => decide (exitCode = some (.integer z))
  | .identifier _ => false

def evaluateExpectation (expectation : EvalExpectation) (evidence : EvidenceReport) : Bool := match expectation.type with
  | .runFinished => evidence.status == units "finished"
  | .runExitCode => isExitCode evidence.exitCode expectation.value
  | .scenarioCompleted => includesIdentifier evidence.scenarios expectation.value
  | .providerCovered => includesIdentifier evidence.providers expectation.value
  | .retryObserved => hasObservedRetry evidence
  | .noProviderFailures => isZero evidence.failureCount
  | .noSecrets => isZero evidence.secretMatches
  | .noProductionEgress => hasEnforcedCompletedRun evidence && evidence.productionAttempts.any isZero
  | .evidencePassed => evidence.passed

def isForbiddenTriggered (forbidden : EvalForbiddenAction) (evidence : EvidenceReport) : Bool := match forbidden.type with
  | .productionEgress => evidence.productionAttempts.any isPositive
  | .secretLeak => isPositive evidence.secretMatches
  | .providerFailure => isPositive evidence.failureCount
  | .missingScenario => forbidden.value.any fun scenario => !evidence.scenarios.contains (units scenario)

/-- String(value) of the value of an expectation. -/
def ExpectationValue.text : ExpectationValue → String
  | .absent => "undefined"
  | .integer z => numberText (.integer z)
  | .identifier s => s

def failedReason (expectation : Option EvalExpectation) (evidence : EvidenceReport) : JsString := match expectation with
  | none => units "Rubric references an unknown expectation."
  | some expectation => match expectation.type with
    | .runFinished => units "Run status was " ++ evidence.status ++ units "."
    | .runExitCode => units ("Run exit code was " ++ (evidence.exitCode.map numberText).getD "unknown" ++ ".")
    | .scenarioCompleted => units ("Scenario " ++ expectation.value.text ++ " was not present in evidence.")
    | .providerCovered => units ("Provider " ++ expectation.value.text ++ " was not present in evidence.")
    | .retryObserved => units "No retry was observed after a retryable provider response."
    | .noProviderFailures => units (numberText evidence.failureCount ++ " provider failure(s) were observed.")
    | .noSecrets => units (numberText evidence.secretMatches ++ " secret-shaped value(s) were detected.")
    | .noProductionEgress =>
      if hasEnforcedCompletedRun evidence = false then
        units "A completed Linux namespace run is required before production-egress evidence can be considered."
      else match evidence.productionAttempts with
        | none => units "Production egress attempts were not measured by this evidence backend."
        | some attempts => units (numberText attempts ++ " production egress attempt(s) were observed.")
    | .evidencePassed => units "Evidence report did not pass."

/-! ## The report -/

structure EvalScoreComponent where
  id : JsValue
  expectationId : JsValue
  passed : Bool
  points : Nat
  maxPoints : Nat
  reason : JsString

structure EvalScore where
  core : Nat
  max : Nat
  passed : Bool
  forbiddenTriggered : List JsValue
  components : List EvalScoreComponent

structure EvalReport where
  generatedAt : JsString
  logicalHash : JsString
  id : JsValue
  title : JsString
  specHash : JsString
  evidencePath : Option JsString
  evidenceLogicalHash : JsString
  runId : JsString
  score : EvalScore
  warnings : List JsString

structure ScoreOptions where
  evidencePath : Option JsString
  generatedAt : JsString

mutual
def valueOf : JsValue → Value
  | .undefined => .undefined
  | .null => .null
  | .bool b => .bool b
  | .number n => .number n
  | .string s => .string (units s)
  | .array items => .array (valuesOf items)
  | .object fields => .object (membersOf fields)

def valuesOf : List JsValue → List Value
  | [] => []
  | item :: rest => valueOf item :: valuesOf rest

def membersOf : Fields → List (JsString × Value)
  | [] => []
  | (key, value) :: rest => (units key, valueOf value) :: membersOf rest
end

def number (n : Nat) : Value := .number (.integer n)

def EvalScoreComponent.toValue (component : EvalScoreComponent) : Value :=
  record [("id", valueOf component.id), ("expectationId", valueOf component.expectationId), ("passed", .bool component.passed),
    ("points", number component.points), ("maxPoints", number component.maxPoints), ("reason", .string component.reason)]

def EvalScore.toValue (score : EvalScore) : Value :=
  record [("core", number score.core), ("max", number score.max), ("passed", .bool score.passed),
    ("forbiddenTriggered", .array (score.forbiddenTriggered.map valueOf)),
    ("components", .array (score.components.map EvalScoreComponent.toValue))]

/-- The report that is hashed: without its time and its hashes. -/
def logicalReport (report : EvalReport) : Value :=
  record [("schemaVersion", number 1),
    ("artifact", record [("generatedAt", .string []), ("logicalHash", .string []),
      ("canonicalization", text "json-stable-sorted-keys-v1")]),
    ("eval", record [("id", valueOf report.id), ("title", .string report.title), ("specHash", .string report.specHash)]),
    ("evidence", record [("path", optionalText report.evidencePath), ("logicalHash", .string report.evidenceLogicalHash),
      ("runId", .string report.runId), ("links", texts report.evidencePath.toList)]),
    ("score", report.score.toValue),
    ("repeatability", record [("deterministicInputs", .bool true), ("evidenceLogicalHash", .string report.evidenceLogicalHash),
      ("evalLogicalHash", .string []),
      ("notes", texts [units "Core score uses deterministic evidence only; LLM-as-judge is not part of the security score."])]),
    ("judge", record [("used", .bool false),
      ("reason", text "LLM-as-judge is optional and disabled for core security scoring.")]),
    ("warnings", texts report.warnings)]

def hashStable (collation : Collation) (value : Value) : JsString := units (sha256 (stableStringify collation value))

/-- Array.sort by localeCompare of the ids. It throws when a compared id has no such method. -/
structure Sorting where
  sort : List EvalScoreComponent → Except JsError (List EvalScoreComponent)
  perm : ∀ components sorted, sort components = .ok sorted → sorted.Perm components
  total : ∀ components, (∀ component ∈ components, isString component.id = true) → ∃ sorted, sort components = .ok sorted

/-- Array.sort by the texts of the ids, undefined ones last. -/
def sortIds (ids : List JsValue) : List JsValue :=
  let text (id : JsValue) : JsString := units ((textOf id).toOption.getD "")
  (ids.filter fun id => !id.isUndefined).mergeSort (fun a b => unitLe (text a) (text b)) ++ ids.filter JsValue.isUndefined

section Scoring

variable (spec : EvalSpec) (evidence : EvidenceReport)

def forbiddenTriggered : List JsValue :=
  sortIds ((spec.forbidden.filter fun forbidden => isForbiddenTriggered forbidden evidence).map EvalForbiddenAction.id)

def referred (component : RubricComponent) : Option EvalExpectation :=
  spec.expectations.find? fun candidate => sameValue candidate.id component.expectationId

def isPassed (component : RubricComponent) : Bool := (referred spec component).any fun expectation => evaluateExpectation expectation evidence

def scoreComponent (component : RubricComponent) : EvalScoreComponent where
  id := component.id
  expectationId := component.expectationId
  passed := isPassed spec evidence component
  points := if isPassed spec evidence component then component.points else 0
  maxPoints := component.points
  reason := limitText
    (if isPassed spec evidence component then units component.reason else failedReason (referred spec component) evidence)

def rawScore (components : List EvalScoreComponent) : Nat := (components.map EvalScoreComponent.points).sum

def scoreOf (components : List EvalScoreComponent) : EvalScore :=
  let triggered := forbiddenTriggered spec evidence
  let core := if triggered ≠ [] then 0 else min spec.rubric.maxScore (rawScore components)
  ⟨core, spec.rubric.maxScore, decide (triggered = []) && decide (spec.rubric.maxScore ≤ core), triggered, components⟩

def reportWithoutHash (collation : Collation) (options : ScoreOptions) (components : List EvalScoreComponent) : EvalReport where
  generatedAt := options.generatedAt
  logicalHash := []
  id := spec.id
  title := limitText (units spec.title)
  specHash := hashStable collation (valueOf spec.data)
  evidencePath := options.evidencePath.map limitText
  evidenceLogicalHash := evidence.logicalHash
  runId := evidence.runId
  score := scoreOf spec evidence components
  warnings := evidence.warnings.map limitText

end Scoring

def scoreEval (sorting : Sorting) (collation : Collation) (value : JsValue) (evidence : EvidenceReport) (options : ScoreOptions) :
    Except JsError EvalReport := do
  let spec ← normalizeEvalSpec value
  let components ← sorting.sort (spec.rubric.components.map (scoreComponent spec evidence))
  let report := reportWithoutHash spec evidence collation options components
  return { report with logicalHash := hashStable collation (logicalReport report) }

end GhostApi.Evals
