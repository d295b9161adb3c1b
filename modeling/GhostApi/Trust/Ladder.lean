import GhostApi.Lib.HashChain
import GhostApi.Lib.Machine
import GhostApi.Lib.Table
import GhostApi.Storage.JsonStore
import GhostApi.Trust.Types

/-!
# The local trust ladder

The stored state with its checks, and the operations of the ladder. The target
state that an operation works on is an element of the stored list, so each
change of it is written back to the list at once.
-/

namespace GhostApi.Trust

open Js Validation Storage Effect Effect.Mutation Table

inductive CircuitBreaker
  | closed
  | opened
  deriving DecidableEq

def CircuitBreaker.text : CircuitBreaker → String
  | .closed => "closed"
  | .opened => "open"

structure CanaryCounts where
  observed : Nat
  violations : Nat
  errors : Nat
  deriving DecidableEq

structure TrustTargetState where
  target : TrustTarget
  level : TrustLevel
  circuitBreaker : CircuitBreaker
  canary : CanaryCounts
  updatedAt : Int
  deriving DecidableEq

structure AuditBase where
  sequence : Nat
  event : Text 80
  targetKey : String
  fromLevel : Option TrustLevel
  toLevel : Option TrustLevel
  reason : Text 200
  timestamp : Int
  previousHash : Hash
  deriving DecidableEq

structure TrustAuditRecord extends AuditBase where
  recordHash : Hash
  deriving DecidableEq

structure TrustLadderState where
  targets : List TrustTargetState
  auditAnchor : Hash
  audit : List TrustAuditRecord
  deriving DecidableEq

def emptyState : TrustLadderState := ⟨[], hashOf "ghostapi.trust.audit.v1", []⟩

/-! ## Stored form -/

def time (ms : Int) : Json := .string (Date.toISOString ms)

def TrustTarget.toJson (target : TrustTarget) : Json :=
  .object [("provider", .string "ghostapi-synthetic"), ("environment", .string "synthetic"),
    ("tenantId", .string target.tenantId.val), ("resourceId", .string target.resourceId.val)]

def CanaryCounts.toJson (canary : CanaryCounts) : Json :=
  .object [("observed", .number canary.observed), ("violations", .number canary.violations),
    ("errors", .number canary.errors)]

def TrustTargetState.toJson (state : TrustTargetState) : Json :=
  .object [("target", state.target.toJson), ("level", .string state.level.text),
    ("circuitBreaker", .string state.circuitBreaker.text), ("canary", state.canary.toJson),
    ("updatedAt", time state.updatedAt)]

def AuditBase.members (base : AuditBase) : List (String × Json) :=
  [("sequence", .number base.sequence), ("event", .string base.event.val), ("targetKey", .string base.targetKey)] ++
    Json.optional "fromLevel" (base.fromLevel.map fun level => .string level.text) ++
    Json.optional "toLevel" (base.toLevel.map fun level => .string level.text) ++
    [("reason", .string base.reason.val), ("timestamp", time base.timestamp),
      ("previousHash", .string base.previousHash.val)]

def AuditBase.seal (base : AuditBase) : TrustAuditRecord :=
  { base with recordHash := hashOf (Json.canonical (.object base.members)) }

def TrustAuditRecord.toJson (record : TrustAuditRecord) : Json :=
  .object (record.members ++ [("recordHash", .string record.recordHash.val)])

def TrustLadderState.toJson (state : TrustLadderState) : Json :=
  .object [("schemaVersion", .number 1), ("targets", .array (state.targets.map TrustTargetState.toJson)),
    ("auditAnchor", .string state.auditAnchor.val), ("audit", .array (state.audit.map TrustAuditRecord.toJson))]

def TrustObservation.toJson (value : TrustObservation) : Json :=
  .object [("target", value.target.toJson), ("actionHash", .string value.actionHash.val),
    ("operation", .string value.operation.val), ("contextHash", .string value.contextHash.val)]

def TrustOutcomeObservation.toJson (value : TrustOutcomeObservation) : Json :=
  .object [("target", value.target.toJson), ("actionHash", .string value.actionHash.val),
    ("outcomeHash", .string value.outcomeHash.val), ("executionReceiptHash", .string value.executionReceiptHash.val)]

def observationHash (value : TrustObservation) : Hash := hashOf (Json.canonical value.toJson)

def outcomeHash (value : TrustOutcomeObservation) : Hash := hashOf (Json.canonical value.toJson)

def targetKey (target : TrustTarget) : String := digestName "target-" (Json.canonical target.toJson)

def sameTarget (left right : TrustTarget) : Bool :=
  left.tenantId == right.tenantId && left.resourceId == right.resourceId

def TrustTargetState.isFor (target : TrustTarget) (candidate : TrustTargetState) : Bool :=
  sameTarget candidate.target target

/-! ## Validation of the state -/

def validateCount (count : Nat) (label : String) (max : Nat) : Except JsError Unit :=
  if count ≤ max then .ok () else .error (fail (label ++ " is invalid."))

def validateTargetState (state : TrustTargetState) : Except JsError Unit := do
  validateCount state.canary.observed "Trust canary observed count" 1000000
  validateCount state.canary.violations "Trust canary violation count" state.canary.observed
  validateCount state.canary.errors "Trust canary error count" state.canary.observed
  stamp fail state.updatedAt "Trust target update time"

def validateAudit (record : TrustAuditRecord) : Except JsError Unit :=
  if 1 ≤ record.sequence ∧ record.sequence ≤ MAX_AUDIT then do
    checkIdentifier fail record.targetKey "Trust audit target key"
    stamp fail record.timestamp "Trust audit timestamp"
    if record.recordHash = record.toAuditBase.seal.recordHash then return ()
    else throw (fail "Trust audit record hash is invalid.")
  else throw (fail "Trust audit sequence is invalid.")

def auditChain : NumberedChain TrustAuditRecord Hash where
  sequence record := record.sequence
  previousHash record := record.previousHash
  recordHash := TrustAuditRecord.recordHash

def validateAuditChain (anchor : Hash) (records : List TrustAuditRecord) : Except JsError Unit :=
  auditChain.verify (fail "Trust audit chain is invalid.") anchor 1 records

def validateState (state : TrustLadderState) : Except JsError TrustLadderState := do
  atMost fail state.targets "Trust targets" MAX_TARGETS
  state.targets.forM validateTargetState
  unique fail (state.targets.map fun target => targetKey target.target) "Trust targets"
  atMost fail state.audit "Trust audit" MAX_AUDIT
  state.audit.forM validateAudit
  validateAuditChain state.auditAnchor state.audit
  return state

/-! ## Steps inside an operation -/

abbrev Op := Mutation TrustLadderState JsError

def findOrCreateTarget (target : TrustTarget) (now : Int) : Op TrustTargetState := do
  let state ← get
  match state.targets.find? (TrustTargetState.isFor target) with
  | some existing => return existing
  | none =>
    throwIf (MAX_TARGETS ≤ state.targets.length) (fail "Trust target limit was reached.")
    let created : TrustTargetState := ⟨target, .simulate, .closed, ⟨0, 0, 0⟩, now⟩
    modify fun state => { state with targets := state.targets ++ [created] }
    return created

def assign (current : TrustTargetState) : Op Unit :=
  modify fun state => { state with targets := upsert (TrustTargetState.isFor current.target) current state.targets }

def appendAudit (event : String) (target : TrustTargetState) (fromLevel toLevel : Option TrustLevel)
    (reason : String) (now : Int) : Op Unit := do
  let state ← get
  throwIf (MAX_AUDIT ≤ state.audit.length) (fail "Trust audit limit was reached.")
  let event ← text fail (.string event) "Trust audit event" 80
  let reason ← text fail (.string reason) "Trust audit reason" 200
  let base : AuditBase := {
    sequence := state.audit.length + 1
    event
    targetKey := targetKey target.target
    fromLevel, toLevel, reason
    timestamp := now
    previousHash := auditChain.latest state.auditAnchor state.audit }
  modify fun state => { state with audit := state.audit ++ [base.seal] }

def rateBps (count total : Nat) : Nat := if total = 0 then 10000 else count * 10000 / total

def passingEval (evals : List TrustEval) (required : Identifier) : Except JsError TrustEval :=
  match evals.find? (·.id == required) with
  | some evaluation => if evaluation.status = .passed then .ok evaluation
    else .error (fail ("Trust promotion requires passing eval: " ++ required.val))
  | none => .error (fail ("Trust promotion requires passing eval: " ++ required.val))

def assertEval (evidence : TrustPromotionEvidence) (policy : TrustPromotionPolicy) (now : Int)
    (required : Identifier) : Except JsError Unit := do
  let evaluation ← passingEval evidence.evals required
  if now < timeOf evaluation.completedAt then
    throw (fail ("Trust promotion eval is from the future: " ++ required.val))
  if (policy.evidenceFreshnessMs.val : Int) < now - timeOf evaluation.completedAt then
    throw (fail ("Trust promotion eval is stale: " ++ required.val))

def assertPromotionEvidence (evidence : TrustPromotionEvidence) (policy : TrustPromotionPolicy) (now : Int) :
    Except JsError Unit := do
  if evidence.runCount.val < policy.minimumRuns.val then
    throw (fail "Trust promotion evidence has too few runs.")
  if now < timeOf evidence.observedAt then throw (fail "Trust promotion evidence is from the future.")
  if (policy.evidenceFreshnessMs.val : Int) < now - timeOf evidence.observedAt then
    throw (fail "Trust promotion evidence is stale.")
  policy.requiredEvalIds.forM (assertEval evidence policy now)
  if policy.maxViolationRateBps.val < rateBps evidence.violations.val evidence.runCount.val then
    throw (fail "Trust promotion violation rate exceeds policy.")
  if policy.maxErrorRateBps.val < rateBps evidence.errors.val evidence.runCount.val then
    throw (fail "Trust promotion error rate exceeds policy.")

/-- The first four bytes of the digest as a number, modulo ten thousand. -/
def deterministicBucket (policyId : Identifier) (target : TrustTarget) : Nat :=
  let text := "ghostapi.trust.canary.v1:" ++ policyId.val ++ ":" ++ targetKey target
  (Sha256.digestWords (text.toUTF8.data.toList.map UInt8.toNat)).headD 0 % 10000

local instance identifier_lawfulBEq : LawfulBEq Identifier := inferInstance

def canaryDecision (target : TrustTarget) (policy : TrustPromotionPolicy) : TrustCanaryDecision :=
  let bucket := deterministicBucket policy.id target
  let decision (assigned : Bool) (reason : String) : TrustCanaryDecision := ⟨target, assigned, bucket, reason⟩
  if policy.canary.tenantIds ≠ [] ∧ target.tenantId ∉ policy.canary.tenantIds then
    decision false "tenant is outside the configured canary scope"
  else if policy.canary.resourceIds ≠ [] ∧ target.resourceId ∉ policy.canary.resourceIds then
    decision false "resource is outside the configured canary scope"
  else if bucket < policy.canary.percentageBps.val then decision true "target is inside deterministic canary scope"
  else decision false "target is outside the configured canary percentage"

def assertActiveLevel (state : TrustTargetState) (level : ComparedLevel) : Op Unit := do
  throwIf (state.circuitBreaker = .opened) (fail "Canary circuit breaker is open; comparisons cannot continue.")
  throwIf (state.level ≠ level.toLevel) (fail ("Trust target is not active at " ++ level.toLevel.text ++ "."))

def comparisonEvidence (target : TrustTarget) (level : ComparedLevel) (predictedHash actualHash : Hash)
    (observedAt : Int) : TrustComparisonEvidence :=
  ⟨target, level, predictedHash == actualHash, predictedHash, actualHash, observedAt⟩

/-! ## Operations -/

def inspectOp (target : TrustTarget) (now : Int) : Op TrustTargetState := findOrCreateTarget target now

def assignCanaryOp (target : TrustTarget) (policy : TrustPromotionPolicy) (now : Int) : Op TrustCanaryDecision := do
  let current ← findOrCreateTarget target now
  throwIf (current.circuitBreaker = .opened)
    (fail "Canary circuit breaker is open; no further canary action is allowed.")
  return canaryDecision target policy

def assertPromotable (capabilities : TrustCapabilities) (target : TrustTarget) (policy : TrustPromotionPolicy)
    (evidence : TrustPromotionEvidence) (requestedLevel : TrustLevel) (current : TrustTargetState) (now : Int) :
    Except JsError Unit := do
  if current.circuitBreaker = .opened then throw (fail "Trust promotion is blocked by an open circuit breaker.")
  let capability ← capabilityFor capabilities requestedLevel
  if capability.status ≠ .supported then
    throw (fail ("Trust level " ++ requestedLevel.text ++ " is unsupported: " ++
      capability.reason.getD "provider capability is unavailable"))
  if (← nextSupportedLevel capabilities current.level) ≠ some requestedLevel then
    throw (fail "Trust promotion must move to the next supported level; automatic promotion is disabled.")
  assertPromotionEvidence evidence policy now
  if capability.requiresCanary = some true ∧ (canaryDecision target policy).assigned = false then
    throw (fail ("Canary scope denies promotion: " ++ (canaryDecision target policy).reason))

def promoteOp (capabilities : TrustCapabilities) (target : TrustTarget) (policy : TrustPromotionPolicy)
    (evidence : TrustPromotionEvidence) (requestedLevel : TrustLevel) (owner : TrustOwner) (now : Int) :
    Op TrustTargetState := do
  let current ← findOrCreateTarget target now
  liftM (assertPromotable capabilities target policy evidence requestedLevel current now)
  let promoted := { current with level := requestedLevel, updatedAt := now }
  assign promoted
  appendAudit "trust.promoted" promoted current.level requestedLevel
    ("verified owner " ++ owner.principalId.val ++ " approved promotion") now
  return promoted

/-- Both comparisons, by their level, audit texts and hashes. -/
def compareOp (level : ComparedLevel) (event matchText mismatchText : String) (target : TrustTarget)
    (predictedHash actualHash : Hash) (now : Int) : Op TrustComparisonEvidence := do
  let current ← findOrCreateTarget target now
  assertActiveLevel current level
  let evidence := comparisonEvidence target level predictedHash actualHash now
  appendAudit event current none none (if evidence.matched then matchText else mismatchText) now
  return evidence

def compareShadowOp (prediction actual : TrustObservation) (now : Int) : Op TrustComparisonEvidence :=
  compareOp .shadow "shadow.compared" "predicted action matches actual input context"
    "predicted action differs from actual input context" prediction.target (observationHash prediction)
    (observationHash actual) now

def compareBoundedOutcomeOp (prediction actual : TrustOutcomeObservation) (now : Int) :
    Op TrustComparisonEvidence :=
  compareOp .boundedAuto "bounded.outcome_compared" "predicted and actual bounded outcomes match"
    "predicted and actual bounded outcomes differ" prediction.target (outcomeHash prediction)
    (outcomeHash actual) now

def CanaryCounts.record (canary : CanaryCounts) (outcome : TrustCanaryOutcome) : CanaryCounts :=
  ⟨canary.observed + 1, canary.violations + (if outcome = .violation then 1 else 0),
    canary.errors + (if outcome = .error then 1 else 0)⟩

def demoteOnViolation (policy : TrustPromotionPolicy) (outcome : TrustCanaryOutcome) (current : TrustTargetState)
    (now : Int) : Op TrustTargetState :=
  if outcome = .violation ∧ policy.violationResponse = .demoteToApprove then do
    let demoted := { current with level := TrustLevel.approve }
    assign demoted
    appendAudit "trust.auto_demoted" demoted current.level TrustLevel.approve
      "policy violation automatically returned trust to approval mode" now
    return demoted
  else return current

/-- A configured stop condition or response that opens the breaker. -/
def openBreakerOnStop (policy : TrustPromotionPolicy) (outcome : TrustCanaryOutcome) (current : TrustTargetState)
    (now : Int) : Op TrustTargetState :=
  let responds := outcome = .violation ∧ policy.violationResponse = .openCircuitBreaker
  if responds ∨ (0 < current.canary.violations ∧ policy.maxViolations.val ≤ current.canary.violations) ∨
      (0 < current.canary.errors ∧ policy.maxErrors.val ≤ current.canary.errors) then do
    let opened := { current with circuitBreaker := CircuitBreaker.opened }
    assign opened
    appendAudit "canary.circuit_opened" opened none none
      (if responds then "policy violation opened the configured circuit breaker"
        else "configured canary stop condition was breached") now
    return opened
  else return current

def recordCanaryOutcomeOp (target : TrustTarget) (policy : TrustPromotionPolicy) (outcome : TrustCanaryOutcome)
    (reason : Text 200) (now : Int) : Op TrustTargetState := do
  let current ← findOrCreateTarget target now
  throwIf (current.circuitBreaker = .opened)
    (fail "Canary circuit breaker is open; no further canary action is allowed.")
  throwIf (current.level ≠ .boundedAuto) (fail "Canary outcomes require bounded-auto trust.")
  let decision := canaryDecision target policy
  throwIf (decision.assigned = false) (fail ("Canary scope denies outcome recording: " ++ decision.reason))
  let observed := { current with canary := current.canary.record outcome, updatedAt := now }
  assign observed
  appendAudit "canary.outcome" observed none none reason.val now
  let current ← demoteOnViolation policy outcome observed now
  openBreakerOnStop policy outcome current now

def rollbackToApprovalOp (target : TrustTarget) (reason : Text 200) (now : Int) : Op TrustTargetState := do
  let current ← findOrCreateTarget target now
  let rolledBack := { current with level := TrustLevel.approve, updatedAt := now }
  assign rolledBack
  appendAudit "trust.rollback_to_approval" rolledBack current.level TrustLevel.approve reason.val now
  return rolledBack

/-! ## The ladder as a machine -/

abbrev Store := Option TrustLadderState

def format : StoreFormat TrustLadderState where
  empty := emptyState
  toJson := TrustLadderState.toJson
  maxBytes := MAX_STORE_BYTES
  validate := validateState
  oversized := fail "Trust ladder store exceeds its size limit."
  invalidClock := fail "Trust ladder clock is invalid."

structure Options where
  authenticate : JsValue → Except JsError JsValue

inductive Call
  | inspect (target : JsValue)
  | assignCanary (target policy : JsValue)
  | promote (target level policy evidence ownerIdentity : JsValue)
  | compareShadow (prediction actual : JsValue)
  | compareBoundedOutcome (prediction actual : JsValue)
  | recordCanaryOutcome (target policy outcome reason : JsValue)
  | rollbackToApproval (target policy ownerIdentity reason : JsValue)

def locked {α : Type} (operation : Int → Op α) (clock : Option Int) (store : Store) :
    Except JsError TrustLadderState := do
  let (_, state) ← format.mutate operation clock store
  return state

def perform (options : Options) (clock : Option Int) (store : Store) : Call → Except JsError TrustLadderState
  | .inspect target => do
    let target ← validateTarget target
    locked (inspectOp target) clock store
  | .assignCanary target policy => do
    let target ← validateTarget target
    let policy ← validatePolicy policy
    locked (assignCanaryOp target policy) clock store
  | .promote target level policy evidence ownerIdentity => do
    let target ← validateTarget target
    let policy ← validatePolicy policy
    let evidence ← validateEvidence evidence
    let requestedLevel ← trustLevel level "Trust promotion level"
    let owner ← validateOwner (← options.authenticate ownerIdentity)
    if owner.principalId ≠ policy.ownerPrincipalId then
      throw (fail "Trust promotion requires the configured verified owner decision.")
    locked (promoteOp createLocalSyntheticTrustCapabilities target policy evidence requestedLevel owner) clock store
  | .compareShadow prediction actual => do
    let prediction ← validateObservation prediction
    let actual ← validateObservation actual
    if sameTarget prediction.target actual.target = false then
      throw (fail "Shadow comparison cannot mix synthetic identities.")
    locked (compareShadowOp prediction actual) clock store
  | .compareBoundedOutcome prediction actual => do
    let prediction ← validateOutcomeObservation prediction
    let actual ← validateOutcomeObservation actual
    if sameTarget prediction.target actual.target = false then
      throw (fail "Bounded outcome comparison cannot mix synthetic identities.")
    locked (compareBoundedOutcomeOp prediction actual) clock store
  | .recordCanaryOutcome target policy outcome reason => do
    let target ← validateTarget target
    let policy ← validatePolicy policy
    let outcome ← canaryOutcome outcome
    let reason ← text fail reason "Canary outcome reason" 200
    locked (recordCanaryOutcomeOp target policy outcome reason) clock store
  | .rollbackToApproval target policy ownerIdentity reason => do
    let target ← validateTarget target
    let policy ← validatePolicy policy
    let owner ← validateOwner (← options.authenticate ownerIdentity)
    let reason ← text fail reason "Trust rollback reason" 200
    if owner.principalId ≠ policy.ownerPrincipalId then
      throw (fail "Trust rollback requires the configured verified owner decision.")
    locked (rollbackToApprovalOp target reason) clock store

structure Event where
  call : Call
  clock : Option Int

/-- A call that throws leaves the store as it was. -/
def take (options : Options) (store : Store) (event : Event) : Store :=
  match perform options event.clock store event.call with
  | .error _ => store
  | .ok state => some state

def machine (options : Options) : Transition.Machine Store Event where
  initial := none
  step store event := some (take options store event)

end GhostApi.Trust
