import GhostApi.Contracts.Diff
import GhostApi.Evidence.Paths
import GhostApi.Evidence.SecretMatches
import GhostApi.Evidence.Value
import GhostApi.Js.Number
import GhostApi.Js.Stringify
import GhostApi.Lib.Assignment
import GhostApi.Server.EventsStore

/-!
# The evidence report

buildEvidenceReport sums up at most a thousand events, the evidence of the run
and a contract diff, and files findings. The report passes when no finding
fails.
-/

namespace GhostApi.Evidence

open Js
open Contracts (ContractDiff)
open Policy (JsString units)
open Scenarios (includes sanitizeSecrets toLowerCase)
open Server (ProxyEvent sanitized)

def MAX_EVENTS_FOR_REPORT : Nat := 1000

def MAX_ATTEMPTS : Nat := 500

/-- /^[a-z0-9][a-z0-9._-]{0,127}$/ -/
def isScenarioId (text : String) : Bool := match text.toList with
  | [] => false
  | first :: rest => (isLower first || isDigit first) && rest.length ≤ 127 &&
      rest.all fun c => isLower c || isDigit c || c == '.' || c == '_' || c == '-'

abbrev ScenarioId := { text : String // isScenarioId text = true }

/-- What the validator of policies leaves for the report. -/
structure ReportPolicy where
  requiredScenarios : List ScenarioId
  maxForbiddenCredentialMatches : Nat
  maxBreakingContractChanges : Nat

def ReportPolicy.required (policy : ReportPolicy) : List JsString := policy.requiredScenarios.map fun id => units id.val

structure ReportInput where
  events : List ProxyEvent
  policy : Option ReportPolicy
  policyHash : Option JsString
  requiredScenarios : Option (List JsString)
  /-- As JSON.parse returned it; undefined when it was not given. -/
  runEvidence : JsValue
  contractDiff : Option ContractDiff
  generatedAt : JsString
  ghostApiVersion : Option JsString

/-! ## Reading the run evidence -/

/-- value?.[key] -/
def prop (value : JsValue) (key : String) : JsValue := match value with
  | .object fields => Fields.get fields key
  | _ => .undefined

def asText : JsValue → Option JsString
  | .string s => some (units s)
  | _ => none

def asItems : JsValue → List JsValue
  | .array items => items
  | _ => []

def isNull : JsValue → Bool
  | .null => true
  | _ => false

/-- Reading a property of the value throws. -/
def isNullish (value : JsValue) : Bool := isNull value || value.isUndefined

def isTrue : JsValue → Bool
  | .bool b => b
  | _ => false

/-- value === text -/
def isText (value : JsValue) (text : String) : Bool := match value with
  | .string s => s == text
  | _ => false

def readNonNegativeInteger : JsValue → Option Nat
  | .number (.integer z) => if 0 ≤ z then some z.toNat else none
  | _ => none

def readInteger : JsValue → Option Int
  | .number (.integer z) => some z
  | _ => none

def RUN_STATUSES : List String := ["preparing", "running", "failed-to-start", "finished"]

def readRunStatus (value : JsValue) : String := (RUN_STATUSES.find? (isText value)).getD "unknown"

def timestamps (runEvents : List JsValue) : List JsString :=
  sortTexts (runEvents.filterMap fun event => readString (asText (prop event "timestamp")))

def lastExitCode (runEvents : List JsValue) : Option Int := (runEvents.filterMap fun event => readInteger (prop event "exitCode")).getLast?

/-! ## The considered events -/

structure SanitizedEvent where
  provider : JsString
  method : JsString
  path : JsString
  statusCode : JsNumber
  source : JsString
  request : JsValue
  response : JsValue

def sanitizeEvent (event : ProxyEvent) : SanitizedEvent where
  provider := limitText (units (sanitized event).provider)
  method := limitText (units (sanitized event).method)
  path := sanitizePath (units (sanitized event).path)
  statusCode := (sanitized event).statusCode
  source := units (sanitized event).source.text
  request := sanitizeSecrets (sanitized event).request
  response := sanitizeSecrets (sanitized event).response

def scenarioField (key : String) : JsValue → List String
  | .string s => if toLowerCase key == "scenario" && isScenarioId s then [s] else []
  | _ => []

mutual
/-- The scenario ids in the value, in the order of the search. -/
def collectScenarioStrings : JsValue → List String
  | .array items => collectItems items
  | .object fields => collectFields fields
  | _ => []

def collectItems : List JsValue → List String
  | [] => []
  | item :: rest => collectScenarioStrings item ++ collectItems rest

def collectFields : Fields → List String
  | [] => []
  | (key, value) :: rest => scenarioField key value ++ (collectScenarioStrings value ++ collectFields rest)
end

def scenariosOf (request response : JsValue) : List String := collectScenarioStrings request ++ collectScenarioStrings response

def detectScenarios (events : List SanitizedEvent) : List JsString :=
  sortTexts ((events.flatMap fun event => scenariosOf event.request event.response).eraseDups.map units)

/-- A printed fraction is at least 400; small ones have an exponent. -/
def fractionFails (text : String) : Bool := match text.toList with
  | '-' :: _ => false
  | cs => !cs.contains 'e' && 400 ≤ Nat.ofDigitChars 10 (cs.takeWhile isDigit) 0

/-- statusCode ≥ 400; a status that is not finite is taken for none. -/
def isFailure : JsNumber → Bool
  | .integer z => 400 ≤ z
  | .fraction text => fractionFails text
  | .nonFinite => false

/-- None when a body is undefined. -/
def hasRetryAfter (event : SanitizedEvent) : Option Bool := do
  let response ← stringify event.response
  if includes (toLowerCase response) "retry-after" then some true
  else do
    let request ← stringify event.request
    some (includes (toLowerCase request) "retry-after")

def isRetry (event : SanitizedEvent) : Option Bool :=
  if event.statusCode = .integer 429 then some true else hasRetryAfter event

def retryCount (events : List SanitizedEvent) : Option Nat := (events.mapM isRetry).map fun retries => retries.count true

structure Attempt where
  provider : JsString
  method : JsString
  path : JsString
  statusCode : JsNumber
  source : JsString

def attemptOf (event : SanitizedEvent) : Attempt where
  provider := limitText event.provider
  method := limitText event.method
  path := sanitizePath event.path
  statusCode := event.statusCode
  source := limitText event.source

def allowedAttempts (events : List SanitizedEvent) : List Attempt := (events.map attemptOf).take MAX_ATTEMPTS

def failures (events : List SanitizedEvent) : List Attempt := (allowedAttempts events).filter fun attempt => isFailure attempt.statusCode

/-! ## Findings -/

inductive EvidenceFindingSeverity
  | pass
  | warning
  | fail
  deriving DecidableEq

def EvidenceFindingSeverity.text : EvidenceFindingSeverity → String
  | .pass => "pass"
  | .warning => "warning"
  | .fail => "fail"

structure EvidenceFinding where
  id : JsString
  severity : EvidenceFindingSeverity
  message : JsString
  count : Option Nat := none

def finding (id : String) (severity : EvidenceFindingSeverity) (message : String) (count : Option Nat) : EvidenceFinding :=
  ⟨units id, severity, units message, count⟩

structure Facts where
  usedNamespace : Bool
  finished : Bool
  completedScenarios : List JsString
  requiredScenarios : List JsString
  secretMatches : Nat
  breaking : Nat
  uncertain : Nat
  failures : Nat

def evaluateScenario (policy : ReportPolicy) (scenarioId : JsString) (completed : List JsString) : Bool :=
  if policy.required.contains scenarioId then completed.contains scenarioId else true

def scenarioAllowed (policy : Option ReportPolicy) (scenarioId : JsString) (completed : List JsString) : Bool := match policy with
  | none => completed.contains scenarioId
  | some policy => evaluateScenario policy scenarioId completed

def scenarioFinding (policy : Option ReportPolicy) (completed : List JsString) (scenarioId : JsString) : EvidenceFinding :=
  if scenarioAllowed policy scenarioId completed then
    ⟨units "scenario." ++ scenarioId, .pass, units "Required scenario completed: " ++ scenarioId, none⟩
  else ⟨units "scenario." ++ scenarioId, .fail, units "Required scenario missing: " ++ scenarioId, none⟩

def thresholdsAllow (policy : Option ReportPolicy) (secretMatches breaking : Nat) : Bool := match policy with
  | none => secretMatches = 0 && breaking = 0
  | some policy => secretMatches ≤ policy.maxForbiddenCredentialMatches && breaking ≤ policy.maxBreakingContractChanges

def thresholdFinding (policy : Option ReportPolicy) (secretMatches breaking : Nat) : EvidenceFinding :=
  if thresholdsAllow policy secretMatches breaking then
    finding "policy.report-thresholds" .pass "Policy report thresholds are satisfied." none
  else finding "policy.report-thresholds" .fail "Policy report thresholds are exceeded." none

def runFindings (facts : Facts) : List EvidenceFinding :=
  [if facts.usedNamespace then
    finding "enforcement.isolated" .pass "Run evidence reports a completed Linux namespace boundary." none
   else finding "enforcement.degraded" .warning "Egress enforcement is degraded or unavailable on this host." none,
   if facts.finished then finding "run.finished" .pass "Run evidence reached finished status." none
   else finding "run.incomplete" .warning "Run evidence is absent or incomplete." none]

/-- A finding with a count is filed when the count is positive. -/
def counted (count : Nat) (id : String) (severity : EvidenceFindingSeverity) (message : String) : List EvidenceFinding :=
  if 0 < count then [finding id severity message (some count)] else []

def countFindings (facts : Facts) : List EvidenceFinding :=
  counted facts.secretMatches "secrets.detected" .fail "Secret-shaped values were detected and summarized without raw values." ++
    (counted facts.breaking "contract-drift.breaking" .fail "Breaking contract drift was detected." ++
      (counted facts.uncertain "contract-drift.uncertain" .warning
        "Contract changes need compatibility review because client tolerance is unknown." ++
        counted facts.failures "provider.failures" .warning "Provider failures were observed."))

def findingsOf (policy : Option ReportPolicy) (facts : Facts) : List EvidenceFinding :=
  runFindings facts ++ (facts.requiredScenarios.map (scenarioFinding policy facts.completedScenarios) ++
    thresholdFinding policy facts.secretMatches facts.breaking :: countFindings facts)

/-! ## The report -/

structure ContractDrift where
  baselineHash : Option JsString
  candidateHash : Option JsString
  breaking : Nat
  nonBreaking : Nat
  uncertain : Nat

def contractDrift : Option ContractDiff → ContractDrift
  | none => ⟨none, none, 0, 0, 0⟩
  | some diff => ⟨some (units diff.baselineHash), some (units diff.candidateHash), diff.summary.breaking, diff.summary.nonBreaking,
      diff.summary.uncertain⟩

structure EvidenceReport where
  generatedAt : JsString
  logicalHash : JsString
  runId : JsString
  status : String
  startedAt : Option JsString
  finishedAt : Option JsString
  exitCode : Option Int
  version : JsString
  mode : String
  isolated : Bool
  policyHash : Option JsString
  requiredScenarios : List JsString
  providers : List JsString
  scenarios : List JsString
  contractDrift : ContractDrift
  allowedAttempts : List Attempt
  secretCategories : List JsString
  secretMatches : Nat
  retryCount : Nat
  failureCount : Nat
  failures : List Attempt
  findings : List EvidenceFinding
  warnings : List JsString
  passed : Bool
  failCount : Nat
  warningCount : Nat

def CAPABILITY_SUMMARY : String := "This diagnostic has not launched an isolated process. " ++
  "Linux ghostapi run can provide loopback-only namespace enforcement after successful local preflight."

def CANONICALIZATION : String := "json-stable-sorted-keys-v1"

def text (s : String) : Value := .string (units s)

def texts (values : List JsString) : Value := .array (values.map .string)

def count (n : Nat) : Value := .number (.integer n)

/-- A member that may be undefined. -/
def optionalText (value : Option JsString) : Value := (value.map Value.string).getD .undefined

def record (fields : List (String × Value)) : Value := .object (fields.map fun field => (units field.1, field.2))

def Attempt.toValue (attempt : Attempt) : Value :=
  record [("provider", .string attempt.provider), ("method", .string attempt.method), ("path", .string attempt.path),
    ("statusCode", .number attempt.statusCode), ("source", .string attempt.source)]

def Attempt.failureValue (attempt : Attempt) : Value :=
  record [("provider", .string attempt.provider), ("method", .string attempt.method), ("path", .string attempt.path),
    ("statusCode", .number attempt.statusCode)]

def EvidenceFinding.toValue (finding : EvidenceFinding) : Value :=
  record [("id", .string finding.id), ("severity", text finding.severity.text), ("message", .string finding.message),
    ("count", (finding.count.map Evidence.count).getD .undefined)]

def ContractDrift.toValue (drift : ContractDrift) : Value :=
  record [("baselineHash", optionalText drift.baselineHash), ("candidateHash", optionalText drift.candidateHash),
    ("breaking", count drift.breaking), ("nonBreaking", count drift.nonBreaking), ("uncertain", count drift.uncertain)]

namespace EvidenceReport

variable (report : EvidenceReport)

def artifact : Value := record [("generatedAt", .string report.generatedAt), ("logicalHash", .string report.logicalHash),
  ("canonicalization", text CANONICALIZATION)]

def run : Value := record [("id", .string report.runId), ("status", text report.status),
  ("startedAt", optionalText report.startedAt), ("finishedAt", optionalText report.finishedAt),
  ("exitCode", (report.exitCode.map fun z => Value.number (.integer z)).getD .undefined)]

def enforcement : Value := record [("capability", text CAPABILITY_SUMMARY), ("mode", text report.mode),
  ("isolated", .bool report.isolated), ("degraded", .bool !report.isolated)]

def egress : Value := record [("allowedAttempts", .array (report.allowedAttempts.map Attempt.toValue)), ("blockedAttempts", .array []),
  ("productionAttempts", .null)]

def retriesAndFailures : Value := record [("retryCount", count report.retryCount), ("failureCount", count report.failureCount),
  ("failures", .array (report.failures.map Attempt.failureValue))]

def summary : Value := record [("passed", .bool report.passed), ("failCount", count report.failCount),
  ("warningCount", count report.warningCount)]

def content : List (String × Value) :=
  [("run", report.run), ("ghostapi", record [("version", .string report.version)]), ("enforcement", report.enforcement),
   ("policy", record [("hash", optionalText report.policyHash), ("requiredScenarios", texts report.requiredScenarios)]),
   ("coverage", record [("providers", texts report.providers), ("scenarios", texts report.scenarios)]),
   ("contractDrift", report.contractDrift.toValue), ("egress", report.egress),
   ("secrets", record [("categories", texts report.secretCategories), ("matches", count report.secretMatches)]),
   ("retriesAndFailures", report.retriesAndFailures), ("findings", .array (report.findings.map EvidenceFinding.toValue)),
   ("warnings", texts report.warnings), ("summary", report.summary)]

def toValue : Value := record (("schemaVersion", count 1) :: ("artifact", report.artifact) :: report.content)

end EvidenceReport

/-! ## The logical hash -/

/-- object[key] = value -/
def setText (key value : JsString) : Value → Value
  | .object fields => .object (Assignment.assign fields key (.string value))
  | other => other

/-- report.artifact[key] = value -/
def setArtifact (key value : JsString) : Value → Value
  | .object fields => .object (fields.map fun field => if field.1 = units "artifact" then (field.1, setText key value field.2) else field)
  | other => other

def logicalReport (report : Value) : Value := setArtifact (units "generatedAt") [] (setArtifact (units "logicalHash") [] report)

def hashLogicalReport (collation : Collation) (report : Value) : JsString :=
  units (sha256 (stableStringify collation (logicalReport report)))

/-! ## buildEvidenceReport -/

section Build

variable (collation : Collation) (input : ReportInput)

def consideredEvents : List SanitizedEvent := (input.events.take MAX_EVENTS_FOR_REPORT).map sanitizeEvent

def runEvents : List JsValue := asItems (prop input.runEvidence "events")

def outputOf : JsValue := prop input.runEvidence "output"

def usedNamespace : Bool := isText (prop input.runEvidence "backend") "linux-network-namespace" &&
  readRunStatus (prop input.runEvidence "status") == "finished"

def requiredIds : List JsString := uniqueSorted (input.requiredScenarios.getD [])

def foundCategories : List JsString :=
  sortTexts ((input.events.flatMap fun event => (detectSecretCategories event.toValue).categories).eraseDups.map units)

def matchCount : Nat :=
  Js.add (secretMatches (input.events.map ProxyEvent.toValue)) ((readNonNegativeInteger (prop (outputOf input) "secretMatches")).getD 0)

def factsOf : Facts where
  usedNamespace := usedNamespace input
  finished := isText (prop input.runEvidence "status") "finished"
  completedScenarios := detectScenarios (consideredEvents input)
  requiredScenarios := requiredIds input
  secretMatches := matchCount input
  breaking := (contractDrift input.contractDiff).breaking
  uncertain := (contractDrift input.contractDiff).uncertain
  failures := (failures (consideredEvents input)).length

def TRUNCATION_WARNING : String := "Event evidence was truncated to 1000 events."

def warningsOf : List String :=
  (if (consideredEvents input).length < input.events.length then [TRUNCATION_WARNING] else []) ++
  (if isNull input.runEvidence then
    ["Run evidence is missing; report cannot prove launcher lifecycle or blocked kernel egress attempts."] else []) ++
  ["Production egress attempts are not measured; " ++
    "the current backend records namespace lifecycle and GhostAPI-local traffic only."] ++
  (if isTrue (prop (outputOf input) "timedOut") then ["Target exceeded the configured run timeout."] else []) ++
  (if isTrue (prop (outputOf input) "limitExceeded") then ["Target exceeded the configured output limit."] else [])

/-- findings.sort((left, right) => left.id.localeCompare(right.id)) -/
def sortFindings (findings : List EvidenceFinding) : List EvidenceFinding := findings.mergeSort fun a b => collation a.id b.id

def failing (findings : List EvidenceFinding) : Nat := findings.countP fun finding => finding.severity = .fail

def reportWithoutHash (retries : Nat) : EvidenceReport :=
  let findings := sortFindings collation (findingsOf input.policy (factsOf input))
  let warnings := sortTexts ((warningsOf input).map fun warning => limitText (units warning))
  { generatedAt := input.generatedAt
    logicalHash := []
    runId := (readString (asText (prop input.runEvidence "runId"))).getD (units "unknown")
    status := readRunStatus (prop input.runEvidence "status")
    startedAt := (timestamps (runEvents input)).head?
    finishedAt := (timestamps (runEvents input)).getLast?
    exitCode := lastExitCode (runEvents input)
    version := input.ghostApiVersion.getD (units "unknown")
    mode := if isText (prop input.runEvidence "backend") "linux-network-namespace" then "linux-network-namespace" else "proxy-guidance"
    isolated := usedNamespace input
    policyHash := input.policyHash
    requiredScenarios := requiredIds input
    providers := uniqueSorted (((consideredEvents input).map SanitizedEvent.provider).filter fun provider => provider ≠ [])
    scenarios := detectScenarios (consideredEvents input)
    contractDrift := contractDrift input.contractDiff
    allowedAttempts := allowedAttempts (consideredEvents input)
    secretCategories := foundCategories input
    secretMatches := matchCount input
    retryCount := retries
    failureCount := (failures (consideredEvents input)).length
    failures := (failures (consideredEvents input)).take MAX_ATTEMPTS
    findings := findings
    warnings := warnings
    passed := failing findings = 0
    failCount := failing findings
    warningCount := (findings.countP fun finding => finding.severity = .warning) + warnings.length }

def sealReport (report : EvidenceReport) : EvidenceReport :=
  { report with logicalHash := hashLogicalReport collation report.toValue }

/-- None when reading a run event or a body throws. -/
def buildEvidenceReport : Option EvidenceReport := do
  let retries ← retryCount (consideredEvents input)
  if (runEvents input).any isNullish then none else some (sealReport collation (reportWithoutHash collation input retries))

end Build

theorem buildEvidenceReport_eq_some {collation : Collation} {input : ReportInput} {report : EvidenceReport}
    (h : buildEvidenceReport collation input = some report) : ∃ retries, retryCount (consideredEvents input) = some retries ∧
      report = sealReport collation (reportWithoutHash collation input retries) := by
  obtain ⟨retries, hRetries, hReport⟩ := Option.bind_eq_some_iff.mp h
  split at hReport
  · cases hReport
  · exact ⟨retries, hRetries, (Option.some.inj hReport).symm⟩

end GhostApi.Evidence
