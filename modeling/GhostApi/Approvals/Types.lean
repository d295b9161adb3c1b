import GhostApi.Actions.Types
import GhostApi.Lib.HashChain
import GhostApi.Storage.JsonStore
import Mathlib.Data.List.Sort

/-!
# Records of the approval inbox

Policies, contexts, requests and audit records, the validators of untyped
input, the evaluation of a policy and the checks of the stored state. A stored
time is the printed text; the stored state is checked on every read and write.
-/

namespace GhostApi.Approvals

open Js Validation Storage Effect
open Actions (ActionEnvelope ActionReversibility validateActionEnvelope actionHash isSignature)

def MAX_STORE_BYTES : Nat := 1024 * 1024

def MAX_REQUESTS : Nat := 1000

def MAX_DECISIONS : Nat := 4

def MAX_AUDIT : Nat := 10000

def ApprovalInboxError (message : String) : JsError := ⟨"ApprovalInboxError", message, none⟩

abbrev fail : String → JsError := ApprovalInboxError

inductive ApprovalRisk
  | read
  | create
  | update
  | communicate
  | moneyMovement
  | delete
  | permissionChange
  | deployment
  deriving DecidableEq

def ApprovalRisk.all : List ApprovalRisk :=
  [.read, .create, .update, .communicate, .moneyMovement, .delete, .permissionChange, .deployment]

def ApprovalRisk.text : ApprovalRisk → String
  | .read => "read"
  | .create => "create"
  | .update => "update"
  | .communicate => "communicate"
  | .moneyMovement => "money_movement"
  | .delete => "delete"
  | .permissionChange => "permission_change"
  | .deployment => "deployment"

inductive ApprovalRequestStatus
  | pending
  | approved
  | rejected
  | revoked
  | timedOut
  | expired
  | executing
  | executed
  | executionFailed
  | superseded
  deriving DecidableEq

def ApprovalRequestStatus.text : ApprovalRequestStatus → String
  | .pending => "pending"
  | .approved => "approved"
  | .rejected => "rejected"
  | .revoked => "revoked"
  | .timedOut => "timed_out"
  | .expired => "expired"
  | .executing => "executing"
  | .executed => "executed"
  | .executionFailed => "execution_failed"
  | .superseded => "superseded"

/-! ## Policies and contexts -/

abbrev BoundedMs := { n : Nat // 1000 ≤ n ∧ n ≤ 24 * 60 * 60 * 1000 }

structure ApprovalVelocity where
  maxActions : Positive 100000
  windowMs : BoundedMs
  deriving DecidableEq

structure ApprovalPolicy where
  id : Identifier
  version : Positive 100000
  allowedEnvironments : List Identifier
  allowedActors : Option (List Identifier)
  allowedResources : Option (List Identifier)
  maxAmountMinor : Option (Bounded MAX_SAFE_INTEGER)
  minimumConfidence : Bounded 100
  criticalRisks : List ApprovalRisk
  velocity : ApprovalVelocity
  approvalTtlMs : BoundedMs
  escalationTimeoutMs : BoundedMs
  ordered : escalationTimeoutMs.val ≤ approvalTtlMs.val
  deriving DecidableEq

structure ApprovalContext where
  confidence : Bounded 100
  amountMinor : Option (Bounded MAX_SAFE_INTEGER)
  deriving DecidableEq

def identifiers (value : JsValue) (label : String) : Except JsError (List Identifier) := do
  let result ← (← array fail value label 100).mapM (identifier fail · label)
  failIf (result = []) (fail (label ++ " must not be empty."))
  unique fail (result.map Subtype.val) label
  return result.insertionSort fun a b => Json.keyLe a.val b.val = true

def risk (value : JsValue) : Except JsError ApprovalRisk :=
  enumerated fail ApprovalRisk.all ApprovalRisk.text value "Approval risk is invalid."

def risks (value : JsValue) : Except JsError (List ApprovalRisk) := do
  let parsed ← (← array fail value "Approval critical risks" 8).mapM risk
  unique fail (parsed.map ApprovalRisk.text) "Approval critical risks"
  return parsed.insertionSort fun a b => Json.keyLe a.text b.text = true

def percentage (value : JsValue) (label : String) : Except JsError (Bounded 100) := match value with
  | .number (.integer z) => if h : 0 ≤ z ∧ z.toNat ≤ 100 then .ok ⟨z.toNat, h.2⟩
    else .error (fail (label ++ " must be an integer from 0 to 100."))
  | _ => .error (fail (label ++ " must be an integer from 0 to 100."))

def boundedMs (value : JsValue) (label : String) : Except JsError BoundedMs := match value with
  | .number (.integer z) => if h : 1000 ≤ z.toNat ∧ z.toNat ≤ 24 * 60 * 60 * 1000 then .ok ⟨z.toNat, h⟩
    else .error (fail (label ++ " is invalid."))
  | _ => .error (fail (label ++ " is invalid."))

def optionally {α : Type} (parse : JsValue → Except JsError α) (value : JsValue) : Except JsError (Option α) :=
  if value.isUndefined then .ok none else some <$> parse value

def validatePolicy (value : JsValue) : Except JsError ApprovalPolicy := do
  let policy ← object fail value "Approval policy is invalid."
  exactKeys fail policy
    ["schemaVersion", "kind", "id", "version", "allowedEnvironments", "allowedActors", "allowedResources",
     "maxAmountMinor", "minimumConfidence", "criticalRisks", "velocity", "approvalTtlMs", "escalationTimeoutMs"]
    "Approval policy" ["allowedActors", "allowedResources", "maxAmountMinor"]
  match policy.get "schemaVersion", policy.get "kind" with
  | .number (.integer 1), .string "ghostapi.approval-policy" => pure ()
  | _, _ => throw (fail "Unsupported approval policy schema.")
  let velocity ← object fail (policy.get "velocity") "Approval velocity policy is invalid."
  exactKeys fail velocity ["maxActions", "windowMs"] "Approval velocity policy" []
  let id ← identifier fail (policy.get "id") "Approval policy id"
  let version ← positive fail (policy.get "version") "Approval policy version" 100000
  let allowedEnvironments ← identifiers (policy.get "allowedEnvironments") "Approval allowed environments"
  let allowedActors ← optionally (identifiers · "Approval allowed actors") (policy.get "allowedActors")
  let allowedResources ← optionally (identifiers · "Approval allowed resources") (policy.get "allowedResources")
  let maxAmountMinor ← optionally (nonNegative fail · "Approval max amount" MAX_SAFE_INTEGER)
    (policy.get "maxAmountMinor")
  let minimumConfidence ← percentage (policy.get "minimumConfidence") "Approval minimum confidence"
  let criticalRisks ← risks (policy.get "criticalRisks")
  let maxActions ← positive fail (velocity.get "maxActions") "Approval velocity maximum" 100000
  let windowMs ← boundedMs (velocity.get "windowMs") "Approval velocity window"
  let approvalTtlMs ← boundedMs (policy.get "approvalTtlMs") "Approval TTL"
  let escalationTimeoutMs ← boundedMs (policy.get "escalationTimeoutMs") "Approval escalation timeout"
  if ordered : escalationTimeoutMs.val ≤ approvalTtlMs.val then
    return {
      id, version, allowedEnvironments, allowedActors, allowedResources, maxAmountMinor, minimumConfidence
      criticalRisks, velocity := { maxActions, windowMs }, approvalTtlMs, escalationTimeoutMs, ordered }
  else throw (fail "Approval escalation timeout cannot exceed approval TTL.")

def validateContext (value : JsValue) : Except JsError ApprovalContext := do
  let context ← object fail value "Approval context is invalid."
  exactKeys fail context ["confidence", "amountMinor"] "Approval context" ["amountMinor"]
  let confidence ← percentage (context.get "confidence") "Approval confidence"
  let amountMinor ← optionally (nonNegative fail · "Approval amount" MAX_SAFE_INTEGER) (context.get "amountMinor")
  return { confidence, amountMinor }

def ApprovalPolicy.toJson (policy : ApprovalPolicy) : Json :=
  let names (ids : List Identifier) : Json := .array (ids.map fun id => .string id.val)
  .object ([("schemaVersion", .number 1), ("kind", .string "ghostapi.approval-policy"), ("id", .string policy.id.val),
    ("version", .number policy.version.val), ("allowedEnvironments", names policy.allowedEnvironments)] ++
    Json.optional "allowedActors" (policy.allowedActors.map names) ++
    Json.optional "allowedResources" (policy.allowedResources.map names) ++
    Json.optional "maxAmountMinor" (policy.maxAmountMinor.map fun amount => .number amount.val) ++
    [("minimumConfidence", .number policy.minimumConfidence.val),
     ("criticalRisks", .array (policy.criticalRisks.map fun risk => .string risk.text)),
     ("velocity", .object [("maxActions", .number policy.velocity.maxActions.val),
       ("windowMs", .number policy.velocity.windowMs.val)]),
     ("approvalTtlMs", .number policy.approvalTtlMs.val),
     ("escalationTimeoutMs", .number policy.escalationTimeoutMs.val)])

def policyHash (policy : ApprovalPolicy) : Hash := hashOf (Json.canonical policy.toJson)

/-! ## Requests -/

inductive ApprovalDecisionKind
  | approve
  | reject
  | revoke
  deriving DecidableEq

def ApprovalDecisionKind.text : ApprovalDecisionKind → String
  | .approve => "approve"
  | .reject => "reject"
  | .revoke => "revoke"

structure ApprovalDecision where
  id : Identifier
  kind : ApprovalDecisionKind
  approverId : Identifier
  principalId : Identifier
  independenceKey : Identifier
  reason : Option (Text 200)
  decidedAt : String
  deriving DecidableEq

structure ApprovalImpact where
  amountMinor : Option Nat
  amountKnown : Bool
  irreversible : Bool
  deriving DecidableEq

structure ApprovalDisplay where
  intent : String
  target : String
  /-- The arguments after the action; there are none before it. -/
  worldId : Identifier
  expectedSideEffects : List Identifier
  reversibility : ActionReversibility
  impact : ApprovalImpact
  policyReason : List String
  evidenceHash : Hash
  /-- The summary of a simulation that passed. -/
  simulation : String
  deriving DecidableEq

structure ApprovalArtifact where
  approvalId : Identifier
  actionHash : Hash
  approvedAt : Timestamp
  expiresAt : Timestamp
  nonce : Identifier
  keyId : Identifier
  signature : { s : String // isSignature s = true }
  deriving DecidableEq

abbrev RequiredApprovals := { n : Nat // n = 1 ∨ n = 2 }

structure ApprovalPolicyRecord where
  id : Identifier
  version : Positive 100000
  hash : Hash
  requiredApprovals : RequiredApprovals
  deriving DecidableEq

structure ApprovalRequest where
  id : Identifier
  action : ActionEnvelope
  actionHash : Hash
  risk : ApprovalRisk
  context : ApprovalContext
  policy : ApprovalPolicyRecord
  display : ApprovalDisplay
  status : ApprovalRequestStatus
  createdAt : String
  expiresAt : String
  escalationAt : String
  decisions : List ApprovalDecision
  artifact : Option ApprovalArtifact
  consumedAt : Option String
  executionReceiptHash : Option Hash
  supersedesRequestId : Option Identifier
  deriving DecidableEq

structure AuditBase where
  sequence : Nat
  event : Text 80
  requestId : Identifier
  actionHash : Hash
  actionReceiptHash : Option Hash
  actorId : Identifier
  timestamp : String
  previousHash : Hash
  deriving DecidableEq

structure ApprovalAuditRecord extends AuditBase where
  recordHash : Hash
  deriving DecidableEq

structure ApprovalInboxState where
  requests : List ApprovalRequest
  auditAnchor : Hash
  audit : List ApprovalAuditRecord
  deriving DecidableEq

def emptyState : ApprovalInboxState := ⟨[], hashOf "ghostapi.approval.audit.v1", []⟩

/-! ## Stored form -/

def ApprovalContext.toJson (context : ApprovalContext) : Json :=
  .object ([("confidence", .number context.confidence.val)] ++
    Json.optional "amountMinor" (context.amountMinor.map fun amount => .number amount.val))

def ApprovalPolicyRecord.toJson (policy : ApprovalPolicyRecord) : Json :=
  .object [("id", .string policy.id.val), ("version", .number policy.version.val), ("hash", .string policy.hash.val),
    ("requiredApprovals", .number policy.requiredApprovals.val)]

def ApprovalDecision.toJson (decision : ApprovalDecision) : Json :=
  .object ([("id", .string decision.id.val), ("kind", .string decision.kind.text),
    ("approverId", .string decision.approverId.val), ("principalId", .string decision.principalId.val),
    ("independenceKey", .string decision.independenceKey.val)] ++
    Json.optional "reason" (decision.reason.map fun reason => .string reason.val) ++
    [("decidedAt", .string decision.decidedAt)])

def ApprovalImpact.toJson (impact : ApprovalImpact) : Json :=
  .object [("amountMinor", (impact.amountMinor.map fun amount : Nat => Json.number amount).getD .null),
    ("amountKnown", .bool impact.amountKnown), ("irreversible", .bool impact.irreversible)]

def ApprovalDisplay.toJson (display : ApprovalDisplay) : Json :=
  .object [("intent", .string display.intent), ("target", .string display.target),
    ("normalizedArgumentDiff", .object [("before", .object []),
      ("after", .object [("worldId", .string display.worldId.val)])]),
    ("expectedSideEffects", .array (display.expectedSideEffects.map fun effect => .string effect.val)),
    ("reversibility", .string display.reversibility.text), ("impact", display.impact.toJson),
    ("policyReason", .array (display.policyReason.map .string)), ("evidenceHash", .string display.evidenceHash.val),
    ("simulation", .object [("status", .string "passed"), ("summary", .string display.simulation)])]

def ApprovalArtifact.toJson (artifact : ApprovalArtifact) : Json :=
  .object [("schemaVersion", .number 1), ("kind", .string "ghostapi.action-approval"),
    ("approvalId", .string artifact.approvalId.val), ("actionHash", .string artifact.actionHash.val),
    ("approvedBy", .string "approval-inbox"), ("approvedAt", .string artifact.approvedAt.val),
    ("expiresAt", .string artifact.expiresAt.val), ("nonce", .string artifact.nonce.val),
    ("provenance", .object [("kind", .string "ghostapi.ed25519-signature"), ("keyId", .string artifact.keyId.val),
      ("signature", .string artifact.signature.val)])]

def ApprovalRequest.toJson (request : ApprovalRequest) : Json :=
  .object ([("id", .string request.id.val), ("action", request.action.toJson),
    ("actionHash", .string request.actionHash.val), ("risk", .string request.risk.text),
    ("context", request.context.toJson), ("policy", request.policy.toJson), ("display", request.display.toJson),
    ("status", .string request.status.text), ("createdAt", .string request.createdAt),
    ("expiresAt", .string request.expiresAt), ("escalationAt", .string request.escalationAt),
    ("decisions", .array (request.decisions.map ApprovalDecision.toJson))] ++
    Json.optional "artifact" (request.artifact.map ApprovalArtifact.toJson) ++
    Json.optional "consumedAt" (request.consumedAt.map .string) ++
    Json.optional "executionReceiptHash" (request.executionReceiptHash.map fun hash => .string hash.val) ++
    Json.optional "supersedesRequestId" (request.supersedesRequestId.map fun id => .string id.val))

def AuditBase.members (base : AuditBase) : List (String × Json) :=
  [("sequence", .number base.sequence), ("event", .string base.event.val), ("requestId", .string base.requestId.val),
    ("actionHash", .string base.actionHash.val)] ++
    Json.optional "actionReceiptHash" (base.actionReceiptHash.map fun hash => .string hash.val) ++
    [("actorId", .string base.actorId.val), ("timestamp", .string base.timestamp),
      ("previousHash", .string base.previousHash.val)]

def AuditBase.seal (base : AuditBase) : ApprovalAuditRecord :=
  { base with recordHash := hashOf (Json.canonical (.object base.members)) }

def ApprovalAuditRecord.toJson (record : ApprovalAuditRecord) : Json :=
  .object (record.members ++ [("recordHash", .string record.recordHash.val)])

def ApprovalInboxState.toJson (state : ApprovalInboxState) : Json :=
  .object [("schemaVersion", .number 1), ("requests", .array (state.requests.map ApprovalRequest.toJson)),
    ("auditAnchor", .string state.auditAnchor.val), ("audit", .array (state.audit.map ApprovalAuditRecord.toJson))]

/-! ## Evaluation of a policy -/

/-- Date.parse of a stored text that is a timestamp. -/
def parsed (text : String) : Int := (Date.parse text).getD 0

def classify (action : ActionEnvelope) : Except JsError ApprovalRisk :=
  if action.operation.val = "synthetic.subscription_failure" then .ok .update
  else .error (fail "No approval risk taxonomy rule exists for this action.")

def environment : String := "synthetic"

/-- The requests of an actor within the window that were not superseded. -/
def recent (policy : ApprovalPolicy) (action : ActionEnvelope) (history : List ApprovalRequest) (now : Int)
    (currentId : Option Identifier) : List ApprovalRequest :=
  history.filter fun request =>
    decide (some request.id ≠ currentId) && request.action.actor.id == action.actor.id &&
      decide (now - (policy.velocity.windowMs.val : Int) ≤ parsed request.createdAt) &&
      decide (request.status ≠ .superseded)

def exceeds (context : ApprovalContext) (max : Bounded MAX_SAFE_INTEGER) : Bool := match context.amountMinor with
  | none => true
  | some amount => decide (max.val < amount.val)

def denials (policy : ApprovalPolicy) (action : ActionEnvelope) (context : ApprovalContext)
    (history : List ApprovalRequest) (now : Int) (currentId : Option Identifier) : List String :=
  let denied (allowed : Bool) (reason : String) : List String := if allowed then [] else [reason]
  denied ((policy.allowedEnvironments.map Subtype.val).contains environment) "environment is not approved" ++
  denied (policy.allowedActors.all (·.contains action.actor.id)) "actor is not approved" ++
  denied (policy.allowedResources.all (·.contains action.worldId)) "resource is not approved" ++
  denied (policy.maxAmountMinor.all fun max => !exceeds context max)
    "amount is missing or exceeds the policy limit" ++
  denied (decide ((recent policy action history now currentId).length < policy.velocity.maxActions.val))
    "action velocity limit was reached"

structure ApprovalEvaluation where
  allowed : Bool
  requiredApprovals : RequiredApprovals
  reasons : List String
  deriving DecidableEq

def requiredApprovals (policy : ApprovalPolicy) (context : ApprovalContext) (actionRisk : ApprovalRisk) :
    RequiredApprovals :=
  if actionRisk ∈ policy.criticalRisks ∨ context.confidence.val < policy.minimumConfidence.val then ⟨2, .inr rfl⟩
  else ⟨1, .inl rfl⟩

def approvalReason (required : RequiredApprovals) : String :=
  if required.val = 2 then "independent two-person approval is required" else "independent human approval is required"

def evaluate (policy : ApprovalPolicy) (action : ActionEnvelope) (context : ApprovalContext)
    (history : List ApprovalRequest) (now : Int) (currentId : Option Identifier) :
    Except JsError ApprovalEvaluation := do
  let actionRisk ← classify action
  let required := requiredApprovals policy context actionRisk
  let reasons := denials policy action context history now currentId ++ [approvalReason required]
  return { allowed := reasons.length == 1, requiredApprovals := required, reasons }

def display (action : ActionEnvelope) (context : ApprovalContext) (policyReason : List String) : ApprovalDisplay where
  intent := "Update a local synthetic subscription failure workflow."
  target := "synthetic-world/" ++ action.worldId.val
  worldId := action.worldId
  expectedSideEffects := action.expectedSideEffects
  reversibility := action.reversibility
  impact := {
    amountMinor := context.amountMinor.map Subtype.val
    amountKnown := context.amountMinor.isSome
    irreversible := decide (action.reversibility = .none) }
  policyReason
  evidenceHash := action.evidenceHash
  simulation := "Synthetic adapter preflight found the local target world."

/-! ## Validation of the state

Identifiers, hashes, reasons and the other members of a fixed form are valid by their types. -/

def displayRecord (shown : ApprovalDisplay) (action : ActionEnvelope) (context : ApprovalContext) :
    Except JsError ApprovalDisplay := do
  atMost fail shown.policyReason "Approval policy reason" 16
  let reasons ← shown.policyReason.mapM fun reason => text fail (.string reason) "Approval policy reason" 200
  let generated := display action context (reasons.map Subtype.val)
  failIf (Json.canonical shown.toJson ≠ Json.canonical generated.toJson)
    (fail "Approval display does not match normalized action data.")
  return generated

def validateDecision (decision : ApprovalDecision) : Except JsError Unit :=
  checkTimestamp fail decision.decidedAt "Approval decision time"

def validateArtifact (artifact : Option ApprovalArtifact) (actionDigest : Hash) : Except JsError Unit :=
  match artifact with
  | none => .ok ()
  | some artifact => failIf (artifact.actionHash ≠ actionDigest) (fail "Approval artifact is invalid.")

def checkOptional (time : Option String) (label : String) : Except JsError Unit := match time with
  | none => .ok ()
  | some time => checkTimestamp fail time label

def ApprovalRequestStatus.consumed (status : ApprovalRequestStatus) : Bool :=
  status = .executing || status = .executed || status = .executionFailed

def validateRequest (request : ApprovalRequest) : Except JsError Unit := do
  let action ← validateActionEnvelope request.action.toValue
  failIf (actionHash action ≠ request.actionHash) (fail "Approval request action is invalid.")
  failIf ((← classify action) ≠ request.risk) (fail "Approval request action is invalid.")
  let _ ← displayRecord request.display action request.context
  atMost fail request.decisions "Approval decisions" MAX_DECISIONS
  request.decisions.forM validateDecision
  checkTimestamp fail request.createdAt "Approval creation time"
  checkTimestamp fail request.expiresAt "Approval expiry"
  checkTimestamp fail request.escalationAt "Approval escalation time"
  failIf (parsed request.expiresAt ≤ parsed request.createdAt ∨ parsed request.expiresAt < parsed request.escalationAt)
    (fail "Approval request lifecycle is invalid.")
  validateArtifact request.artifact request.actionHash
  failIf ((request.status = .approved ∨ request.status.consumed) ∧ request.artifact = none)
    (fail "Approved requests require an approval artifact.")
  checkOptional request.consumedAt "Approval consumption time"
  failIf (request.status.consumed ∧ request.consumedAt = none)
    (fail "Executed approvals require consumption metadata.")
  failIf (request.status = .executed ∧ request.executionReceiptHash = none)
    (fail "Executed approvals require an action receipt hash.")

def validateAudit (record : ApprovalAuditRecord) : Except JsError Unit := do
  failIf (¬(1 ≤ record.sequence ∧ record.sequence ≤ 100000)) (fail "Approval audit sequence is invalid.")
  checkTimestamp fail record.timestamp "Approval audit timestamp"
  failIf (record.recordHash ≠ record.toAuditBase.seal.recordHash) (fail "Approval audit record hash is invalid.")

def auditChain : NumberedChain ApprovalAuditRecord Hash where
  sequence record := record.sequence
  previousHash record := record.previousHash
  recordHash := ApprovalAuditRecord.recordHash

def validateAuditChain (anchor : Hash) (audit : List ApprovalAuditRecord) : Except JsError Unit :=
  auditChain.verify (fail "Approval audit chain is invalid.") anchor 1 audit

def validateState (state : ApprovalInboxState) : Except JsError ApprovalInboxState := do
  atMost fail state.requests "Approval requests" MAX_REQUESTS
  state.requests.forM validateRequest
  unique fail (state.requests.map fun request => request.id.val) "Approval request ids"
  unique fail (state.requests.map fun request => request.actionHash.val) "Approval action hashes"
  atMost fail state.audit "Approval audit" MAX_AUDIT
  state.audit.forM validateAudit
  validateAuditChain state.auditAnchor state.audit
  return state

def format : StoreFormat ApprovalInboxState where
  empty := emptyState
  toJson := ApprovalInboxState.toJson
  maxBytes := MAX_STORE_BYTES
  validate := validateState
  oversized := fail "Approval inbox store exceeds its size limit."
  invalidClock := fail "Approval inbox clock is invalid."

end GhostApi.Approvals
