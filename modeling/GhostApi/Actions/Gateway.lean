import GhostApi.Actions.Receipts
import GhostApi.Lib.Program

/-!
# The local action gateway

Submitting and executing an action, call by call. The gateway is generic in
what it was built over: its adapter, its approval verifier, its safety
controller, its clock and its files are programs over whatever operations the
surrounding system offers.
-/

namespace GhostApi.Actions

open Js Validation Effect Effect.Program Safety

inductive ApprovalPhase
  | submit
  | execute
  deriving DecidableEq

structure ActionPolicyCheck where
  allowed : Bool
  version : Int
  hash : String

structure ActionExecutionIdentity where
  actorId : String
  workloadId : String

inductive ActionExecution
  | unknown
  | committed (providerRequestId result : JsValue)

structure ActionVerification where
  committed : Bool
  providerRequestId : JsValue
  result : JsValue

def ActionVerification.incomplete (verification : ActionVerification) : Bool :=
  !verification.committed || verification.providerRequestId.isUndefined || verification.result.isUndefined

/-- A lease of the safety controller and whether it is a replay. -/
structure Admitted (Lease : Type) where
  lease : Lease
  replay : Bool

structure Gateway (Op : Type) (Ans : Op → Type) (Lease : Type) where
  now : Program Op Ans JsError (Option Int)
  randomUUID : Program Op Ans JsError String
  readFile : Identifier → Program Op Ans JsError (Option StoredAction)
  writeFile : Identifier → StoredAction → Program Op Ans JsError Unit
  /-- The approval inbox request that the verification names. -/
  verifyProvenance : ActionEnvelope → ActionApproval → ApprovalPhase → Program Op Ans JsError (Option String)
  supports : Identifier → Program Op Ans JsError Bool
  plan : ActionEnvelope → Program Op Ans JsError Unit
  simulate : ActionEnvelope → Program Op Ans JsError Unit
  adapterExecute : ActionEnvelope → Lease → Program Op Ans JsError ActionExecution
  adapterVerify : ActionEnvelope → Program Op Ans JsError ActionVerification
  admitAction : SafetyAction → Program Op Ans JsError (Admitted Lease)
  complete : Lease → SafetyOutcome → Program Op Ans JsError Unit

/-! ## Checks -/

def verifyPolicy (action : ActionEnvelope) (policy : ActionPolicyCheck) : Except JsError Unit := do
  if policy.allowed = false then throw (refuse "Current policy denies action execution.")
  if policy.version ≠ action.policy.version.val ∨ policy.hash ≠ action.policy.hash.val then
    throw (refuse "Current policy reference does not match the approved action.")

def requireApprovalInboxVerification (approval : ActionApproval) (approvalInboxRequestId : Option String) :
    Except JsError Unit :=
  if approval.approvedBy.val = "approval-inbox" ∧ approvalInboxRequestId ≠ some approval.approvalId.val then
    .error (refuse "Approval inbox provenance is not active for execution.")
  else .ok ()

def assertUnchanged (requested : ActionEnvelope) (record : StoredAction) (identity : ActionExecutionIdentity)
    (policy : ActionPolicyCheck) (current : Int) : Except JsError Unit := do
  if actionHash requested ≠ record.actionHash ∨
      canonicalizeActionEnvelope requested ≠ canonicalizeActionEnvelope record.envelope then
    throw (refuse "Action envelope changed after approval; execution is blocked.")
  verifyApproval record.envelope record.approval current false
  verifyPolicy record.envelope policy
  if identity.actorId ≠ record.envelope.actor.id.val ∨ identity.workloadId ≠ record.envelope.actor.workloadId.val then
    throw (refuse "Execution identity does not match the approved action.")

def localOrganization : Identifier := ⟨"ghostapi-local", by decide +kernel⟩

def syntheticEnvironment : Identifier := ⟨"synthetic", by decide +kernel⟩

def syntheticProvider : Identifier := ⟨"ghostapi-synthetic", by decide +kernel⟩

def safetyAction (action : ActionEnvelope) (actionDigest : Hash) : SafetyAction where
  organizationId := localOrganization
  projectId := action.projectId
  environment := syntheticEnvironment
  actorId := action.actor.id
  workloadId := action.actor.workloadId
  provider := syntheticProvider
  operation := action.operation
  riskClass := action.riskClass
  idempotencyKey := action.idempotencyKey
  actionHash := actionDigest
  costs := {
    monetaryAmountMinor := ⟨0, zero_isAmount⟩
    requests := ⟨1, one_isAmount⟩
    messages := ⟨1, one_isAmount⟩
    mutations := ⟨1, one_isAmount⟩
    deletes := ⟨0, zero_isAmount⟩
    tokenCost := ⟨0, zero_isAmount⟩ }

/-- What the gateway does when an attempt ends without a proven result. -/
structure Shortfall where
  failure : ActionFailure
  reconciliationMismatch : Bool
  reason : Text 200
  message : String

def executionFailed : Shortfall where
  failure := .executionError
  reconciliationMismatch := false
  reason := ⟨"synthetic execution failed or was stopped", by decide +kernel⟩
  message := "Action execution failed; it was not automatically retried."

def outcomeUnknown : Shortfall where
  failure := .unknownOutcome
  reconciliationMismatch := false
  reason := ⟨"synthetic execution outcome is unknown", by decide +kernel⟩
  message := "Action provider outcome is unknown; it was not automatically retried."

def verificationFailed : Shortfall where
  failure := .verificationFailed
  reconciliationMismatch := true
  reason := ⟨"synthetic verification did not prove the result", by decide +kernel⟩
  message := "Action committed but verification did not prove its result; it was not automatically retried."

def Shortfall.outcome (shortfall : Shortfall) : SafetyOutcome where
  success := false
  policyViolation := false
  reconciliationMismatch := shortfall.reconciliationMismatch
  latencyMs := ⟨0, by decide⟩
  reason := some shortfall.reason

def successOutcome : SafetyOutcome where
  success := true
  policyViolation := false
  reconciliationMismatch := false
  latencyMs := ⟨0, by decide⟩
  reason := none

/-! ## Steps -/

def receiptName (uuid : String) : String := "receipt-" ++ String.ofList (uuid.toList.filter (· ≠ '-'))

/-- An optional member of a receipt: undefined leaves it out. -/
def optionally {α : Type} (parse : JsValue → Except JsError α) (value : JsValue) : Except JsError (Option α) :=
  if value.isUndefined then .ok none else some <$> parse value

namespace Gateway

variable {Op : Type} {Ans : Op → Type} {Lease : Type} (gateway : Gateway Op Ans Lease)

/-- The clock; toISOString throws on an invalid date. -/
def current : Program Op Ans JsError Int := do
  match ← gateway.now with
  | some ms =>
    throwIf (8640000000000000 < ms.natAbs) ⟨"RangeError", "Invalid time value", none⟩
    return ms
  | none => throw ⟨"RangeError", "Invalid time value", none⟩

def readStoredAction (actionId : Identifier) (required : Bool) : Program Op Ans JsError (Option StoredAction) := do
  match ← gateway.readFile actionId with
  | none =>
    throwIf (required = true) (refuse "Action was not found.")
    return none
  | some record =>
    throwIf (MAX_ACTION_BYTES < record.bytes)
      (refuse ("Action record exceeds " ++ toString MAX_ACTION_BYTES ++ " bytes."))
    return some (← validateStoredAction record)

def writeStoredAction (actionId : Identifier) (record : StoredAction) : Program Op Ans JsError Unit := do
  let record ← validateStoredAction record
  gateway.writeFile actionId record

def createReceipt (record : StoredAction) (status : ActionReceiptStatus) (timestamp : Int)
    (providerRequestId result : JsValue) (failure : Option ActionFailure) :
    Program Op Ans JsError ActionExecutionReceipt := do
  let uuid ← gateway.randomUUID
  let base : ReceiptBase := {
    receiptId := ← safeIdentifier (.string (receiptName uuid)) "Receipt id"
    actionId := record.envelope.actionId
    actionHash := record.actionHash
    status
    timestamp := ← Validation.timestamp refuse (.string (Date.toISOString timestamp)) "Action receipt timestamp"
    providerRequestId := ← optionally (safeIdentifier · "Provider request id") providerRequestId
    result := ← optionally normalizeResult result
    failure
    previousReceiptHash := receiptChain.latest (receiptGenesisHash record.actionHash) record.receipts }
  return base.seal

def issue (record : StoredAction) (status : ActionReceiptStatus) (timestamp : Int)
    (providerRequestId result : JsValue) (failure : Option ActionFailure) :
    Program Op Ans JsError (ActionExecutionReceipt × StoredAction) := do
  let receipt ← gateway.createReceipt record status timestamp providerRequestId result failure
  let record ← appendReceipt record receipt
  return (receipt, record)

/-- What submit does with an action and an approval that passed their checks. -/
def submitAction (action : ActionEnvelope) (approval : ActionApproval) (policy : ActionPolicyCheck) :
    Program Op Ans JsError StoredAction := do
  let verification ← gateway.verifyProvenance action approval .submit
  requireApprovalInboxVerification approval verification
  let current ← gateway.current
  verifyPolicy action policy
  match ← gateway.readStoredAction action.actionId false with
  | some existing =>
    throwIf (¬(existing.actionHash = actionHash action ∧
        actionApprovalHash existing.approval = actionApprovalHash approval))
      (refuse "Action id already exists with a different immutable envelope or approval.")
    return existing
  | none =>
    throwIf (timeOf action.expiresAt ≤ current) (refuse "Action has expired.")
    verifyApproval action approval current true
    let record : StoredAction := { envelope := action, actionHash := actionHash action, approval, receipts := [] }
    let receipt ← gateway.createReceipt record .requested current .undefined .undefined none
    let record := { record with receipts := [receipt] }
    gateway.writeStoredAction action.actionId record
    return record

def submit (actionValue approvalValue : JsValue) (policy : ActionPolicyCheck) :
    Program Op Ans JsError StoredAction := do
  let action ← validateActionEnvelope actionValue
  let approval ← validateActionApproval approvalValue
  gateway.submitAction action approval policy

/-- A record with a committed receipt only lacks the proof of its result. -/
def reconcileCommitted (actionId : Identifier) (record : StoredAction) (current : Int) :
    Program Op Ans JsError ActionExecutionReceipt := do
  let reconciliation ← gateway.adapterVerify record.envelope
  throwIf (reconciliation.incomplete = true) (refuse
    "Committed action verification is incomplete; execution will not retry without idempotency proof.")
  let (verified, record) ← gateway.issue record .verified current reconciliation.providerRequestId
    reconciliation.result none
  gateway.writeStoredAction actionId record
  return verified

def reconcileAttempted (actionId : Identifier) (record : StoredAction) (current : Int) :
    Program Op Ans JsError ActionExecutionReceipt := do
  let reconciliation ← gateway.adapterVerify record.envelope
  throwIf (reconciliation.incomplete = true) (refuse
    "Prior action outcome is unknown; execution will not retry without idempotency proof.")
  let (_, record) ← gateway.issue record .committed current reconciliation.providerRequestId
    reconciliation.result none
  let (verified, record) ← gateway.issue record .verified current reconciliation.providerRequestId
    reconciliation.result none
  gateway.writeStoredAction actionId record
  return verified

def abandon (actionId : Identifier) (record : StoredAction) (lease : Lease) (shortfall : Shortfall)
    (providerRequestId result : JsValue) : Program Op Ans JsError ActionExecutionReceipt := do
  gateway.complete lease shortfall.outcome
  let (_, record) ← gateway.issue record .failed (← gateway.current) providerRequestId result
    (some shortfall.failure)
  gateway.writeStoredAction actionId record
  throw (refuse shortfall.message)

def confirm (actionId : Identifier) (record : StoredAction) (lease : Lease) (providerRequestId result : JsValue) :
    Program Op Ans JsError ActionExecutionReceipt := do
  let (_, record) ← gateway.issue record .committed (← gateway.current) providerRequestId result none
  gateway.writeStoredAction actionId record
  let verification ← gateway.adapterVerify record.envelope
  if verification.incomplete then
    gateway.abandon actionId record lease verificationFailed providerRequestId result
  else
    let (verified, record) ← gateway.issue record .verified (← gateway.current) verification.providerRequestId
      verification.result none
    gateway.writeStoredAction actionId record
    gateway.complete lease successOutcome
    return verified

/-- What follows the call of the adapter; none is a call that threw. -/
def settle (actionId : Identifier) (record : StoredAction) (lease : Lease) :
    Option ActionExecution → Program Op Ans JsError ActionExecutionReceipt
  | none => gateway.abandon actionId record lease executionFailed .undefined .undefined
  | some .unknown => gateway.abandon actionId record lease outcomeUnknown .undefined .undefined
  | some (.committed providerRequestId result) => gateway.confirm actionId record lease providerRequestId result

def attempt (actionId : Identifier) (record : StoredAction) (current : Int) :
    Program Op Ans JsError ActionExecutionReceipt := do
  throwIf (timeOf record.envelope.expiresAt ≤ current) (refuse "Action has expired.")
  verifyApproval record.envelope record.approval current true
  gateway.plan record.envelope
  gateway.simulate record.envelope
  let safety ← gateway.admitAction (safetyAction record.envelope record.actionHash)
  throwIf (safety.replay = true) (refuse
    "Safety controller replay was reached before a verified action receipt.")
  let (_, record) ← gateway.issue record .attempted current .undefined .undefined none
  gateway.writeStoredAction actionId record
  -- Only the call of the adapter is caught.
  let execution : Option ActionExecution ←
    tryCatch (some <$> gateway.adapterExecute record.envelope safety.lease) fun _ => pure none
  gateway.settle actionId record safety.lease execution

/-- What execute does once the record has passed its checks. -/
def proceed (actionId : Identifier) (record : StoredAction) (current : Int) :
    Program Op Ans JsError ActionExecutionReceipt :=
  match findLatestReceipt record.receipts .verified with
  | some verified => pure verified
  | none =>
    if (findLatestReceipt record.receipts .committed).isSome then gateway.reconcileCommitted actionId record current
    else if (findLatestReceipt record.receipts .attempted).isSome then
      gateway.reconcileAttempted actionId record current
    else gateway.attempt actionId record current

/-- What execute does with an action that passed its check. -/
def executeAction (requested : ActionEnvelope) (identity : ActionExecutionIdentity) (policy : ActionPolicyCheck) :
    Program Op Ans JsError ActionExecutionReceipt := do
  match ← gateway.readStoredAction requested.actionId true with
  | none => throw (refuse "Action was not submitted.")
  | some record =>
    let verification ← gateway.verifyProvenance record.envelope record.approval .execute
    requireApprovalInboxVerification record.approval verification
    let current ← gateway.current
    assertUnchanged requested record identity policy current
    let supported ← gateway.supports record.envelope.operation
    throwIf (supported = false) (refuse
      ("Execution adapter does not support action operation: " ++ record.envelope.operation.val))
    gateway.proceed requested.actionId record current

def execute (actionValue : JsValue) (identity : ActionExecutionIdentity) (policy : ActionPolicyCheck) :
    Program Op Ans JsError ActionExecutionReceipt := do
  let requested ← validateActionEnvelope actionValue
  gateway.executeAction requested identity policy

end Gateway

inductive GatewayCall
  | submit (action approval : JsValue) (policy : ActionPolicyCheck)
  | execute (action : JsValue) (identity : ActionExecutionIdentity) (policy : ActionPolicyCheck)

def GatewayCall.program {Op : Type} {Ans : Op → Type} {Lease : Type} (gateway : Gateway Op Ans Lease) :
    GatewayCall → Program Op Ans JsError Unit
  | .submit action approval policy => do
    let _ ← gateway.submit action approval policy
  | .execute action identity policy => do
    let _ ← gateway.execute action identity policy

end GhostApi.Actions
