import GhostApi.Validation
import Mathlib.Data.List.Sort

/-!
# Records of the trust ladder and their input validators

Targets, promotion policies, evidence, observations and owners, and the fixed
capabilities of the levels.
-/

namespace GhostApi.Trust

open Js Validation

def MAX_STORE_BYTES : Nat := 1024 * 1024

def MAX_TARGETS : Nat := 1000

def MAX_AUDIT : Nat := 10000

def MAX_EVALS : Nat := 100

def MAX_FRESHNESS_MS : Nat := 30 * 24 * 60 * 60 * 1000

def TrustLadderError (message : String) : JsError := ⟨"TrustLadderError", message, none⟩

abbrev fail : String → JsError := TrustLadderError

inductive TrustLevel
  | simulate
  | shadow
  | dryRun
  | approve
  | boundedAuto
  | trusted
  deriving DecidableEq

def TRUST_LEVELS : List TrustLevel := [.simulate, .shadow, .dryRun, .approve, .boundedAuto, .trusted]

def TrustLevel.text : TrustLevel → String
  | .simulate => "simulate"
  | .shadow => "shadow"
  | .dryRun => "dry-run"
  | .approve => "approve"
  | .boundedAuto => "bounded-auto"
  | .trusted => "trusted"

def TrustLevel.rank (level : TrustLevel) : Nat := TRUST_LEVELS.idxOf level

structure TrustTarget where
  tenantId : Identifier
  resourceId : Identifier
  deriving DecidableEq

inductive TrustCapabilityStatus
  | supported
  | unsupported
  deriving DecidableEq

structure TrustLevelCapability where
  level : TrustLevel
  status : TrustCapabilityStatus
  requiresActualContext : Option Bool := none
  requiresOfficialProviderSemantics : Option Bool := none
  requiresApproval : Option Bool := none
  requiresCanary : Option Bool := none
  requiresOutcomeComparison : Option Bool := none
  reason : Option String := none
  deriving DecidableEq

abbrev TrustCapabilities := List TrustLevelCapability

structure TrustCanaryScope where
  tenantIds : List Identifier
  resourceIds : List Identifier
  percentageBps : Bounded 10000
  deriving DecidableEq

inductive ViolationResponse
  | demoteToApprove
  | openCircuitBreaker
  deriving DecidableEq

def ViolationResponse.text : ViolationResponse → String
  | .demoteToApprove => "demote_to_approve"
  | .openCircuitBreaker => "open_circuit_breaker"

structure TrustPromotionPolicy where
  id : Identifier
  ownerPrincipalId : Identifier
  minimumRuns : Positive 1000000
  requiredEvalIds : List Identifier
  maxViolationRateBps : Bounded 10000
  maxErrorRateBps : Bounded 10000
  evidenceFreshnessMs : Positive MAX_FRESHNESS_MS
  canary : TrustCanaryScope
  maxViolations : Bounded 1000000
  maxErrors : Bounded 1000000
  violationResponse : ViolationResponse
  deriving DecidableEq

inductive EvalStatus
  | passed
  | failed
  deriving DecidableEq

def EvalStatus.text : EvalStatus → String
  | .passed => "passed"
  | .failed => "failed"

structure TrustEval where
  id : Identifier
  status : EvalStatus
  completedAt : Timestamp
  deriving DecidableEq

structure TrustPromotionEvidence where
  runCount : Bounded 1000000
  violations : Bounded runCount.val
  errors : Bounded runCount.val
  evals : List TrustEval
  observedAt : Timestamp
  deriving DecidableEq

structure TrustOwner where
  id : Identifier
  principalId : Identifier
  deriving DecidableEq

inductive TrustCanaryOutcome
  | success
  | violation
  | error
  deriving DecidableEq

def TrustCanaryOutcome.text : TrustCanaryOutcome → String
  | .success => "success"
  | .violation => "violation"
  | .error => "error"

structure TrustCanaryDecision where
  target : TrustTarget
  assigned : Bool
  bucket : Nat
  reason : String
  deriving DecidableEq

structure TrustObservation where
  target : TrustTarget
  actionHash : Hash
  operation : Identifier
  contextHash : Hash
  deriving DecidableEq

structure TrustOutcomeObservation where
  target : TrustTarget
  actionHash : Hash
  outcomeHash : Hash
  executionReceiptHash : Hash
  deriving DecidableEq

/-- The levels at which a prediction is compared with what happened. -/
inductive ComparedLevel
  | shadow
  | boundedAuto
  deriving DecidableEq

def ComparedLevel.toLevel : ComparedLevel → TrustLevel
  | .shadow => .shadow
  | .boundedAuto => .boundedAuto

structure TrustComparisonEvidence where
  target : TrustTarget
  level : ComparedLevel
  matched : Bool
  predictedHash : Hash
  actualHash : Hash
  observedAt : Int
  deriving DecidableEq

/-! ## Validators -/

def trustLevel (value : JsValue) (label : String) : Except JsError TrustLevel :=
  enumerated fail TRUST_LEVELS TrustLevel.text value (label ++ " is invalid.")

def canaryOutcome (value : JsValue) : Except JsError TrustCanaryOutcome :=
  enumerated fail [.success, .violation, .error] TrustCanaryOutcome.text value "Trust canary outcome is invalid."

def identifiers (value : JsValue) (label : String) (max : Nat) (allowEmpty : Bool) :
    Except JsError (List Identifier) := do
  let values ← (← array fail value label max).mapM (identifier fail · label)
  if !allowEmpty && values.isEmpty then throw (fail (label ++ " must not be empty."))
  unique fail (values.map Subtype.val) label
  return values.insertionSort fun a b => Json.keyLe a.val b.val = true

def validateTarget (value : JsValue) : Except JsError TrustTarget := do
  let target ← object fail value "Trust target is invalid."
  exactKeys fail target ["provider", "environment", "tenantId", "resourceId"] "Trust target" []
  match target.get "provider", target.get "environment" with
  | .string "ghostapi-synthetic", .string "synthetic" => pure ()
  | _, _ => throw (fail
    "Local trust preparation accepts synthetic identities only; production identities are unsupported.")
  return {
    tenantId := ← identifier fail (target.get "tenantId") "Trust target tenant id"
    resourceId := ← identifier fail (target.get "resourceId") "Trust target resource id" }

def validatePolicy (value : JsValue) : Except JsError TrustPromotionPolicy := do
  let policy ← object fail value "Trust promotion policy is invalid."
  exactKeys fail policy
    ["schemaVersion", "kind", "id", "ownerPrincipalId", "automaticPromotion", "minimumRuns", "requiredEvalIds",
     "maxViolationRateBps", "maxErrorRateBps", "evidenceFreshnessMs", "canary", "stopConditions",
     "violationResponse"] "Trust promotion policy" []
  match policy.get "schemaVersion", policy.get "kind", policy.get "automaticPromotion" with
  | .number (.integer 1), .string "ghostapi.trust-promotion-policy", .bool false => pure ()
  | _, _, _ => throw (fail "Automatic trust promotion is disabled.")
  let canary ← object fail (policy.get "canary") "Trust canary scope is invalid."
  exactKeys fail canary ["tenantIds", "resourceIds", "percentageBps"] "Trust canary scope" []
  let stopConditions ← object fail (policy.get "stopConditions") "Trust canary stop conditions are invalid."
  exactKeys fail stopConditions ["maxViolations", "maxErrors"] "Trust canary stop conditions" []
  let violationResponse ← enumerated fail [.demoteToApprove, .openCircuitBreaker] ViolationResponse.text
    (policy.get "violationResponse") "Trust violation response is invalid."
  return {
    id := ← identifier fail (policy.get "id") "Trust policy id"
    ownerPrincipalId := ← identifier fail (policy.get "ownerPrincipalId") "Trust owner principal id"
    minimumRuns := ← positive fail (policy.get "minimumRuns") "Trust minimum runs" 1000000
    requiredEvalIds := ← identifiers (policy.get "requiredEvalIds") "Trust required eval ids" MAX_EVALS false
    maxViolationRateBps := ← bps fail (policy.get "maxViolationRateBps") "Trust maximum violation rate"
    maxErrorRateBps := ← bps fail (policy.get "maxErrorRateBps") "Trust maximum error rate"
    evidenceFreshnessMs := ←
      positive fail (policy.get "evidenceFreshnessMs") "Trust evidence freshness" MAX_FRESHNESS_MS
    canary := {
      tenantIds := ← identifiers (canary.get "tenantIds") "Trust canary tenant ids" MAX_TARGETS true
      resourceIds := ← identifiers (canary.get "resourceIds") "Trust canary resource ids" MAX_TARGETS true
      percentageBps := ← bps fail (canary.get "percentageBps") "Trust canary percentage" }
    maxViolations := ←
      nonNegative fail (stopConditions.get "maxViolations") "Trust canary maximum violations" 1000000
    maxErrors := ← nonNegative fail (stopConditions.get "maxErrors") "Trust canary maximum errors" 1000000
    violationResponse }

def validateEval (value : JsValue) : Except JsError TrustEval := do
  let evaluation ← object fail value "Trust evidence eval is invalid."
  exactKeys fail evaluation ["id", "status", "completedAt"] "Trust evidence eval" []
  let status ← enumerated fail [.passed, .failed] EvalStatus.text (evaluation.get "status")
    "Trust evidence eval status is invalid."
  return {
    id := ← identifier fail (evaluation.get "id") "Trust evidence eval id"
    status
    completedAt := ← timestamp fail (evaluation.get "completedAt") "Trust evidence eval completion" }

def validateEvidence (value : JsValue) : Except JsError TrustPromotionEvidence := do
  let evidence ← object fail value "Trust promotion evidence is invalid."
  exactKeys fail evidence ["runCount", "violations", "errors", "evals", "observedAt"] "Trust promotion evidence" []
  let runCount ← nonNegative fail (evidence.get "runCount") "Trust evidence run count" 1000000
  let violations ← nonNegative fail (evidence.get "violations") "Trust evidence violation count" runCount.val
  let errors ← nonNegative fail (evidence.get "errors") "Trust evidence error count" runCount.val
  let evals ← (← array fail (evidence.get "evals") "Trust evidence evals" MAX_EVALS).mapM validateEval
  unique fail (evals.map fun evaluation => evaluation.id.val) "Trust evidence eval ids"
  let observedAt ← timestamp fail (evidence.get "observedAt") "Trust evidence observation time"
  return { runCount, violations, errors, evals, observedAt }

def validateObservation (value : JsValue) : Except JsError TrustObservation := do
  let observation ← object fail value "Shadow observation is invalid."
  exactKeys fail observation ["target", "actionHash", "operation", "contextHash"] "Shadow observation" []
  return {
    target := ← validateTarget (observation.get "target")
    actionHash := ← hash fail (observation.get "actionHash") "Shadow action hash"
    operation := ← identifier fail (observation.get "operation") "Shadow operation"
    contextHash := ← hash fail (observation.get "contextHash") "Shadow context hash" }

def validateOutcomeObservation (value : JsValue) : Except JsError TrustOutcomeObservation := do
  let observation ← object fail value "Bounded outcome observation is invalid."
  exactKeys fail observation ["target", "actionHash", "outcomeHash", "executionReceiptHash"]
    "Bounded outcome observation" []
  return {
    target := ← validateTarget (observation.get "target")
    actionHash := ← hash fail (observation.get "actionHash") "Bounded action hash"
    outcomeHash := ← hash fail (observation.get "outcomeHash") "Bounded outcome hash"
    executionReceiptHash := ← hash fail (observation.get "executionReceiptHash") "Bounded execution receipt hash" }

def validateOwner (value : JsValue) : Except JsError TrustOwner := do
  let owner ← object fail value "Trust owner identity is invalid."
  exactKeys fail owner ["id", "principalId"] "Trust owner identity" []
  return {
    id := ← identifier fail (owner.get "id") "Trust owner id"
    principalId := ← identifier fail (owner.get "principalId") "Trust owner principal id" }

/-! ## Capabilities -/

def createLocalSyntheticTrustCapabilities : TrustCapabilities :=
  [{ level := .simulate, status := .supported },
   { level := .shadow, status := .supported, requiresActualContext := true },
   { level := .dryRun, status := .unsupported, requiresOfficialProviderSemantics := true
     reason := "ghostapi-synthetic has no provider-official dry-run semantic." },
   { level := .approve, status := .supported, requiresApproval := true },
   { level := .boundedAuto, status := .supported, requiresCanary := true, requiresOutcomeComparison := true },
   { level := .trusted, status := .unsupported
     reason := "The local synthetic runtime is not production authorization." }]

def capabilityFor (capabilities : TrustCapabilities) (level : TrustLevel) : Except JsError TrustLevelCapability :=
  match capabilities.find? (·.level == level) with
  | some capability => .ok capability
  | none => .error (fail "Trust capability is missing.")

def firstSupported (capabilities : TrustCapabilities) : List TrustLevel → Except JsError (Option TrustLevel)
  | [] => .ok none
  | level :: rest => do
    let capability ← capabilityFor capabilities level
    if capability.status = .supported then return some level else firstSupported capabilities rest

def nextSupportedLevel (capabilities : TrustCapabilities) (current : TrustLevel) :
    Except JsError (Option TrustLevel) :=
  firstSupported capabilities (TRUST_LEVELS.drop (current.rank + 1))

end GhostApi.Trust
