import GhostApi.Safety.Types

/-!
# Action envelopes, approvals and receipts

The records of the action gateway with the validators of its untyped input.
Kind and schema version of a record are fixed, as are provider and environment
of an envelope.
-/

namespace GhostApi.Actions

open Js Validation Safety Effect

def MAX_ACTION_BYTES : Nat := 128 * 1024

def MAX_RECEIPTS : Nat := 20

def ActionGatewayError (message : String) : JsError := ⟨"ActionGatewayError", message, none⟩

abbrev refuse : String → JsError := ActionGatewayError

inductive ActorType
  | agent
  | service
  deriving DecidableEq

def ActorType.text : ActorType → String
  | .agent => "agent"
  | .service => "service"

structure ActionActor where
  id : Identifier
  workloadId : Identifier
  type : ActorType
  deriving DecidableEq

inductive ActionReversibility
  | none
  | compensatable
  deriving DecidableEq

def ActionReversibility.text : ActionReversibility → String
  | .none => "none"
  | .compensatable => "compensatable"

structure ActionPolicyReference where
  version : { n : Nat // 1 ≤ n }
  hash : Hash
  deriving DecidableEq

/-- The resource of an action is the world that its arguments name. -/
structure ActionEnvelope where
  actionId : Identifier
  idempotencyKey : Identifier
  actor : ActionActor
  projectId : Identifier
  operation : Identifier
  worldId : Identifier
  expectedSideEffects : List Identifier
  riskClass : RiskClass
  reversibility : ActionReversibility
  policy : ActionPolicyReference
  evidenceHash : Hash
  expiresAt : Timestamp
  nonce : Identifier
  deriving DecidableEq

def isSignatureChar (c : Char) : Bool := isAlnum c || c == '_' || c == '-'

def isSignature (s : String) : Bool := s.toList.length == 86 && s.toList.all isSignatureChar

structure ActionApproval where
  approvalId : Identifier
  actionHash : Hash
  approvedBy : Identifier
  approvedAt : Timestamp
  expiresAt : Timestamp
  nonce : Identifier
  keyId : Identifier
  signature : { s : String // isSignature s = true }
  ordered : timeOf approvedAt < timeOf expiresAt
  deriving DecidableEq

inductive ActionReceiptStatus
  | requested
  | attempted
  | committed
  | verified
  | failed
  deriving DecidableEq

def ActionReceiptStatus.text : ActionReceiptStatus → String
  | .requested => "requested"
  | .attempted => "attempted"
  | .committed => "committed"
  | .verified => "verified"
  | .failed => "failed"

structure ActionResult where
  worldId : Identifier
  subscriptionId : Identifier
  syntheticReceiptId : Identifier
  deriving DecidableEq

inductive ActionFailure
  | executionError
  | unknownOutcome
  | verificationFailed
  deriving DecidableEq

def ActionFailure.code : ActionFailure → String
  | .executionError => "execution_error"
  | .unknownOutcome => "unknown_outcome"
  | .verificationFailed => "verification_failed"

structure ReceiptBase where
  receiptId : Identifier
  actionId : Identifier
  actionHash : Hash
  status : ActionReceiptStatus
  timestamp : Timestamp
  providerRequestId : Option Identifier
  result : Option ActionResult
  failure : Option ActionFailure
  previousReceiptHash : Hash
  deriving DecidableEq

structure ActionExecutionReceipt extends ReceiptBase where
  receiptHash : Hash
  deriving DecidableEq

structure StoredAction where
  envelope : ActionEnvelope
  actionHash : Hash
  approval : ActionApproval
  receipts : List ActionExecutionReceipt
  deriving DecidableEq

/-! ## Validators -/

def safeIdentifier (value : JsValue) (label : String) : Except JsError Identifier :=
  identifierOr (refuse (label ++ " must be a safe stable identifier.")) value

def digest (value : JsValue) (label : String) : Except JsError Hash :=
  hashOr (refuse (label ++ " must be a SHA-256 hex digest.")) value

def positiveInteger (value : JsValue) (label : String) : Except JsError { n : Nat // 1 ≤ n } := match value with
  | .number (.integer z) => if h : 1 ≤ z.toNat then .ok ⟨z.toNat, h⟩
    else .error (refuse (label ++ " must be a positive integer."))
  | _ => .error (refuse (label ++ " must be a positive integer."))

/-- The gateway lets members be undefined. -/
def onlyKeys (fields : Fields) (keys : List String) (label : String) : Except JsError Unit :=
  exactKeys refuse fields keys label keys

def constant (value : JsValue) (expected : String) (message : String) : Except JsError Unit := match value with
  | .string s => if s = expected then .ok () else .error (refuse message)
  | _ => .error (refuse message)

def schema (fields : Fields) (kind message : String) : Except JsError Unit := match fields.get "schemaVersion" with
  | .number (.integer 1) => constant (fields.get "kind") kind message
  | _ => .error (refuse message)

def subscriptionFailureEffects : List String :=
  ["stripe.subscription.past_due", "email.subscription_payment_failed", "github.recovery_issue",
   "generic_rest.payment_failed"]

def sideEffectsMessage : String :=
  "Action expected side effects must be a bounded unique list of safe identifiers."

def validateSideEffects (value : JsValue) (operation : Identifier) : Except JsError (List Identifier) := do
  let items ← match value with
    | .array items => if 16 < items.length then .error (refuse sideEffectsMessage) else .ok items
    | _ => .error (refuse sideEffectsMessage)
  let effects ← items.mapM (identifierOr (refuse sideEffectsMessage))
  if ¬(effects.map Subtype.val).Nodup then throw (refuse sideEffectsMessage)
  if operation.val = "synthetic.subscription_failure" ∧ effects.map Subtype.val ≠ subscriptionFailureEffects then
    throw (refuse "Action expected side effects are invalid for the synthetic operation.")
  return effects

def validateActionEnvelope (value : JsValue) : Except JsError ActionEnvelope := do
  let action ← object refuse value "Action envelope must be an object."
  onlyKeys action
    ["schemaVersion", "kind", "actionId", "idempotencyKey", "actor", "project", "provider", "operation", "resource",
     "arguments", "expectedSideEffects", "riskClass", "reversibility", "policy", "evidence", "expiresAt", "nonce"]
    "Action envelope"
  schema action "ghostapi.action" "Unsupported action envelope schema."
  let actor ← object refuse (action.get "actor") "Action actor is invalid."
  onlyKeys actor ["id", "workloadId", "type"] "Action actor"
  let type ← enumerated refuse [.agent, .service] ActorType.text (actor.get "type") "Action actor type is invalid."
  let project ← object refuse (action.get "project") "Action project is invalid."
  onlyKeys project ["id", "environment"] "Action project"
  constant (project.get "environment") "synthetic" "Only the synthetic action environment is available."
  constant (action.get "provider") "ghostapi-synthetic" "Unknown action provider."
  let resource ← object refuse (action.get "resource") "Action resource is invalid."
  onlyKeys resource ["type", "id"] "Action resource"
  constant (resource.get "type") "synthetic-world" "Action resource type is invalid."
  let args ← object refuse (action.get "arguments") "Action arguments are invalid."
  onlyKeys args ["worldId"] "Action arguments"
  let operation ← safeIdentifier (action.get "operation") "Action operation"
  let expectedSideEffects ← validateSideEffects (action.get "expectedSideEffects") operation
  let riskClass ← enumerated refuse RiskClass.all RiskClass.text (action.get "riskClass")
    "Action risk class is invalid."
  let reversibility ← enumerated refuse [.none, .compensatable] ActionReversibility.text (action.get "reversibility")
    "Action reversibility is invalid."
  let policy ← object refuse (action.get "policy") "Action policy reference is invalid."
  onlyKeys policy ["version", "hash"] "Action policy reference"
  let evidence ← object refuse (action.get "evidence") "Action evidence reference is invalid."
  onlyKeys evidence ["hash"] "Action evidence reference"
  let worldId ← safeIdentifier (args.get "worldId") "Action world id"
  constant (resource.get "id") worldId.val "Action resource and normalized world argument must match."
  return {
    actionId := ← safeIdentifier (action.get "actionId") "Action id"
    idempotencyKey := ← safeIdentifier (action.get "idempotencyKey") "Action idempotency key"
    actor := {
      id := ← safeIdentifier (actor.get "id") "Action actor id"
      workloadId := ← safeIdentifier (actor.get "workloadId") "Action workload id"
      type }
    projectId := ← safeIdentifier (project.get "id") "Action project id"
    operation, worldId, expectedSideEffects, riskClass, reversibility
    policy := {
      version := ← positiveInteger (policy.get "version") "Action policy version"
      hash := ← digest (policy.get "hash") "Action policy hash" }
    evidenceHash := ← digest (evidence.get "hash") "Action evidence hash"
    expiresAt := ← timestamp refuse (action.get "expiresAt") "Action expiry"
    nonce := ← safeIdentifier (action.get "nonce") "Action nonce" }

def validateSignature (value : JsValue) : Except JsError { s : String // isSignature s = true } := match value with
  | .string s => if h : isSignature s = true then .ok ⟨s, h⟩
    else .error (refuse "Action approval provenance is invalid.")
  | _ => .error (refuse "Action approval provenance is invalid.")

def validateActionApproval (value : JsValue) : Except JsError ActionApproval := do
  let approval ← object refuse value "Action approval must be an object."
  onlyKeys approval
    ["schemaVersion", "kind", "approvalId", "actionHash", "approvedBy", "approvedAt", "expiresAt", "nonce",
     "provenance"] "Action approval"
  schema approval "ghostapi.action-approval" "Unsupported action approval schema."
  let approvedAt ← timestamp refuse (approval.get "approvedAt") "Action approval timestamp"
  let expiresAt ← timestamp refuse (approval.get "expiresAt") "Action approval expiry"
  if ordered : timeOf approvedAt < timeOf expiresAt then
    let provenance ← object refuse (approval.get "provenance") "Action approval provenance is invalid."
    onlyKeys provenance ["kind", "keyId", "signature"] "Action approval provenance"
    constant (provenance.get "kind") "ghostapi.ed25519-signature" "Action approval provenance is invalid."
    let signature ← validateSignature (provenance.get "signature")
    return {
      approvalId := ← safeIdentifier (approval.get "approvalId") "Action approval id"
      actionHash := ← digest (approval.get "actionHash") "Action approval hash"
      approvedBy := ← safeIdentifier (approval.get "approvedBy") "Action approver id"
      approvedAt, expiresAt
      nonce := ← safeIdentifier (approval.get "nonce") "Action approval nonce"
      keyId := ← safeIdentifier (provenance.get "keyId") "Action approval provenance key id"
      signature, ordered }
  else throw (refuse "Action approval must expire after it was issued.")

def normalizeResult (value : JsValue) : Except JsError ActionResult := do
  let result ← object refuse value "Action receipt result is invalid."
  onlyKeys result ["worldId", "subscriptionId", "syntheticReceiptId"] "Action receipt result"
  return {
    worldId := ← safeIdentifier (result.get "worldId") "Action receipt world id"
    subscriptionId := ← safeIdentifier (result.get "subscriptionId") "Action receipt subscription id"
    syntheticReceiptId := ← safeIdentifier (result.get "syntheticReceiptId") "Action receipt synthetic receipt id" }

/-! ## Stored form -/

def ActionEnvelope.toJson (action : ActionEnvelope) : Json :=
  .object [("schemaVersion", .number 1), ("kind", .string "ghostapi.action"),
    ("actionId", .string action.actionId.val), ("idempotencyKey", .string action.idempotencyKey.val),
    ("actor", .object [("id", .string action.actor.id.val), ("workloadId", .string action.actor.workloadId.val),
      ("type", .string action.actor.type.text)]),
    ("project", .object [("id", .string action.projectId.val), ("environment", .string "synthetic")]),
    ("provider", .string "ghostapi-synthetic"), ("operation", .string action.operation.val),
    ("resource", .object [("type", .string "synthetic-world"), ("id", .string action.worldId.val)]),
    ("arguments", .object [("worldId", .string action.worldId.val)]),
    ("expectedSideEffects", .array (action.expectedSideEffects.map fun effect => .string effect.val)),
    ("riskClass", .string action.riskClass.text), ("reversibility", .string action.reversibility.text),
    ("policy", .object [("version", .number action.policy.version.val), ("hash", .string action.policy.hash.val)]),
    ("evidence", .object [("hash", .string action.evidenceHash.val)]), ("expiresAt", .string action.expiresAt.val),
    ("nonce", .string action.nonce.val)]

def ActionApproval.toJson (approval : ActionApproval) : Json :=
  .object [("schemaVersion", .number 1), ("kind", .string "ghostapi.action-approval"),
    ("approvalId", .string approval.approvalId.val), ("actionHash", .string approval.actionHash.val),
    ("approvedBy", .string approval.approvedBy.val), ("approvedAt", .string approval.approvedAt.val),
    ("expiresAt", .string approval.expiresAt.val), ("nonce", .string approval.nonce.val),
    ("provenance", .object [("kind", .string "ghostapi.ed25519-signature"), ("keyId", .string approval.keyId.val),
      ("signature", .string approval.signature.val)])]

def ActionResult.toJson (result : ActionResult) : Json :=
  .object [("worldId", .string result.worldId.val), ("subscriptionId", .string result.subscriptionId.val),
    ("syntheticReceiptId", .string result.syntheticReceiptId.val)]

def ActionFailure.toJson (failure : ActionFailure) : Json :=
  .object [("code", .string failure.code), ("retrySafe", .bool false)]

def ReceiptBase.members (base : ReceiptBase) : List (String × Json) :=
  [("receiptId", .string base.receiptId.val), ("actionId", .string base.actionId.val),
    ("actionHash", .string base.actionHash.val), ("status", .string base.status.text),
    ("timestamp", .string base.timestamp.val)] ++
    Json.optional "providerRequestId" (base.providerRequestId.map fun id => .string id.val) ++
    Json.optional "result" (base.result.map ActionResult.toJson) ++
    Json.optional "failure" (base.failure.map ActionFailure.toJson) ++
    [("previousReceiptHash", .string base.previousReceiptHash.val)]

def ReceiptBase.seal (base : ReceiptBase) : ActionExecutionReceipt :=
  { base with receiptHash := hashOf (Json.canonical (.object base.members)) }

def ActionExecutionReceipt.toJson (receipt : ActionExecutionReceipt) : Json :=
  .object (receipt.members ++ [("receiptHash", .string receipt.receiptHash.val)])

def StoredAction.toJson (record : StoredAction) : Json :=
  .object [("schemaVersion", .number 1), ("kind", .string "ghostapi.action-record"),
    ("envelope", record.envelope.toJson), ("actionHash", .string record.actionHash.val),
    ("approval", record.approval.toJson), ("receipts", .array (record.receipts.map ActionExecutionReceipt.toJson))]

def canonicalizeActionEnvelope (action : ActionEnvelope) : String := Json.canonical action.toJson

def actionHash (action : ActionEnvelope) : Hash := hashOf (canonicalizeActionEnvelope action)

def actionApprovalHash (approval : ActionApproval) : Hash := hashOf (Json.canonical approval.toJson)

/-! ## Validators return what they accepted before -/

def ActionEnvelope.toValue (action : ActionEnvelope) : JsValue :=
  .object [("schemaVersion", .number (.integer 1)), ("kind", .string "ghostapi.action"),
    ("actionId", .string action.actionId.val), ("idempotencyKey", .string action.idempotencyKey.val),
    ("actor", .object [("id", .string action.actor.id.val), ("workloadId", .string action.actor.workloadId.val),
      ("type", .string action.actor.type.text)]),
    ("project", .object [("id", .string action.projectId.val), ("environment", .string "synthetic")]),
    ("provider", .string "ghostapi-synthetic"), ("operation", .string action.operation.val),
    ("resource", .object [("type", .string "synthetic-world"), ("id", .string action.worldId.val)]),
    ("arguments", .object [("worldId", .string action.worldId.val)]),
    ("expectedSideEffects", .array (action.expectedSideEffects.map fun effect => .string effect.val)),
    ("riskClass", .string action.riskClass.text), ("reversibility", .string action.reversibility.text),
    ("policy", .object [("version", .number (.integer action.policy.version.val)),
      ("hash", .string action.policy.hash.val)]),
    ("evidence", .object [("hash", .string action.evidenceHash.val)]), ("expiresAt", .string action.expiresAt.val),
    ("nonce", .string action.nonce.val)]

def ActionApproval.toValue (approval : ActionApproval) : JsValue :=
  .object [("schemaVersion", .number (.integer 1)), ("kind", .string "ghostapi.action-approval"),
    ("approvalId", .string approval.approvalId.val), ("actionHash", .string approval.actionHash.val),
    ("approvedBy", .string approval.approvedBy.val), ("approvedAt", .string approval.approvedAt.val),
    ("expiresAt", .string approval.expiresAt.val), ("nonce", .string approval.nonce.val),
    ("provenance", .object [("kind", .string "ghostapi.ed25519-signature"), ("keyId", .string approval.keyId.val),
      ("signature", .string approval.signature.val)])]

theorem safeIdentifier_val (id : Identifier) (label : String) : safeIdentifier (.string id.val) label = .ok id :=
  dif_pos id.property

theorem digest_val (h : Hash) (label : String) : digest (.string h.val) label = .ok h := dif_pos h.property

theorem positiveInteger_val (n : { n : Nat // 1 ≤ n }) (label : String) :
    positiveInteger (.number (.integer n.val)) label = .ok n := by
  rw [positiveInteger, dif_pos (by simpa using n.property)]
  rfl

theorem constant_val (s message : String) : constant (.string s) s message = .ok () := if_pos rfl

theorem enumerated_val {α : Type} (all : List α) (text : α → String) (a : α) (message : String)
    (h : all.find? (text · == text a) = some a) : enumerated refuse all text (.string (text a)) message = .ok a := by
  simp [enumerated, h]

/-- What validateSideEffects asks of a list of identifiers. -/
structure EffectsAllowed (operation : Identifier) (effects : List Identifier) : Prop where
  length : effects.length ≤ 16
  unique : (effects.map Subtype.val).Nodup
  synthetic : operation.val = "synthetic.subscription_failure" → effects.map Subtype.val = subscriptionFailureEffects

theorem validateSideEffects_ok {value : JsValue} {operation : Identifier} {effects : List Identifier}
    (h : validateSideEffects value operation = .ok effects) : EffectsAllowed operation effects := by
  cases value with
  | array items =>
    rw [validateSideEffects] at h
    obtain ⟨hBound, h⟩ := ite_error_eq_ok h
    rw [ok_bind] at h
    obtain ⟨parsed, hParsed, h⟩ := bind_eq_ok h
    obtain ⟨hUnique, h⟩ := ite_error_eq_ok h
    obtain ⟨hSynthetic, h⟩ := ite_error_eq_ok h
    cases h
    have hLength : effects.length = items.length := (mapM_eq_ok hParsed).length_eq.symm
    refine ⟨hLength.trans_le (Nat.not_lt.mp hBound), not_not.mp hUnique, fun hOperation => ?_⟩
    by_contra hOther
    exact hSynthetic ⟨hOperation, hOther⟩
  | _ => cases h

theorem mapM_identifierOr_val (error : JsError) (ids : List Identifier) :
    (ids.map fun id => JsValue.string id.val).mapM (identifierOr error) = .ok ids := by
  induction ids with
  | nil => rfl
  | cons id ids ih =>
    have hHead : identifierOr error (.string id.val) = .ok id := dif_pos id.property
    rw [List.map_cons, List.mapM_cons, hHead, ih]
    rfl

theorem validateSideEffects_val {operation : Identifier} {effects effects' : List Identifier} :
    validateSideEffects (.array (effects.map fun effect => .string effect.val)) operation = .ok effects' ↔
      effects' = effects ∧ EffectsAllowed operation effects := by
  rw [validateSideEffects]
  constructor
  · intro h
    obtain ⟨hBound, h⟩ := ite_error_eq_ok h
    rw [ok_bind] at h
    beta_reduce at h
    rw [mapM_identifierOr_val, ok_bind] at h
    obtain ⟨hUnique, h⟩ := ite_error_eq_ok h
    obtain ⟨hSynthetic, h⟩ := ite_error_eq_ok h
    cases h
    rw [List.length_map, Nat.not_lt] at hBound
    refine ⟨rfl, hBound, not_not.mp hUnique, fun hOperation => ?_⟩
    by_contra hOther
    exact hSynthetic ⟨hOperation, hOther⟩
  · rintro ⟨rfl, hLength, hUnique, hSynthetic⟩
    have hBound : ¬16 < (effects'.map fun effect => JsValue.string effect.val).length := by
      rw [List.length_map]
      omega
    have hAgree : ¬(operation.val = "synthetic.subscription_failure" ∧
        effects'.map Subtype.val ≠ subscriptionFailureEffects) := fun h => h.2 (hSynthetic h.1)
    rw [if_neg hBound, ok_bind]
    beta_reduce
    rw [mapM_identifierOr_val, ok_bind, if_neg (not_not.mpr hUnique)]
    exact if_neg hAgree

theorem signature_val (signature : { s : String // isSignature s = true }) :
    validateSignature (.string signature.val) = .ok signature := dif_pos signature.property

theorem validateActionEnvelope_toValue_eq (action : ActionEnvelope) : validateActionEnvelope action.toValue =
    (validateSideEffects (.array (action.expectedSideEffects.map fun effect => .string effect.val)) action.operation >>=
      fun effects => .ok { action with expectedSideEffects := effects }) := by
  have hType := enumerated_val [.agent, .service] ActorType.text action.actor.type "Action actor type is invalid."
    (by cases action.actor.type <;> rfl)
  have hRisk := enumerated_val RiskClass.all RiskClass.text action.riskClass "Action risk class is invalid."
    (by cases action.riskClass <;> rfl)
  have hReversible := enumerated_val [.none, .compensatable] ActionReversibility.text action.reversibility
    "Action reversibility is invalid." (by cases action.reversibility <;> rfl)
  rw [validateActionEnvelope, ActionEnvelope.toValue]
  generalize JsValue.array (action.expectedSideEffects.map fun effect => .string effect.val) = effects
  simp [object, onlyKeys, exactKeys, schema, constant_val, Fields.get, List.lookup_cons, JsValue.isUndefined, hType, hRisk,
    hReversible, safeIdentifier_val, digest_val, positiveInteger_val, timestamp_val, pure, Except.pure,
    bind, Except.bind]

theorem validateActionEnvelope_toValue (action : ActionEnvelope)
    (hEffects : validateSideEffects (.array (action.expectedSideEffects.map fun effect => .string effect.val))
      action.operation = .ok action.expectedSideEffects) : validateActionEnvelope action.toValue = .ok action := by
  rw [validateActionEnvelope_toValue_eq, hEffects]
  rfl

theorem validateActionEnvelope_toValue_eq_ok {action action' : ActionEnvelope} :
    validateActionEnvelope action.toValue = .ok action' ↔
      action' = action ∧ EffectsAllowed action.operation action.expectedSideEffects := by
  rw [validateActionEnvelope_toValue_eq, bind_eq_ok_iff]
  constructor
  · rintro ⟨effects, hEffects, hPure⟩
    cases hPure
    obtain ⟨rfl, hAllowed⟩ := validateSideEffects_val.mp hEffects
    exact ⟨rfl, hAllowed⟩
  · rintro ⟨rfl, hAllowed⟩
    exact ⟨_, validateSideEffects_val.mpr ⟨rfl, hAllowed⟩, rfl⟩

theorem validateActionEnvelope_ok {value : JsValue} {action : ActionEnvelope}
    (h : validateActionEnvelope value = .ok action) : EffectsAllowed action.operation action.expectedSideEffects := by
  simp only [validateActionEnvelope, bind_eq_ok_iff] at h
  -- The first fifteen checks, the operation, its effects, and what the rest of the record is made of.
  obtain ⟨_, -, _, -, _, -, _, -, _, -, _, -, _, -, _, -, _, -, _, -, _, -, _, -, _, -, _, -, _, -, operation, -,
    effects, hEffects, h⟩ := h
  obtain ⟨_, -, _, -, _, -, _, -, _, -, _, -, _, -, _, -, _, -, _, -, _, -, _, -, _, -, _, -, _, -, _, -, _, -, _, -,
    hPure⟩ := h
  cases hPure
  exact validateSideEffects_ok hEffects

theorem validateActionApproval_toValue (approval : ActionApproval) :
    validateActionApproval approval.toValue = .ok approval := by
  rw [validateActionApproval, ActionApproval.toValue]
  simp [object, onlyKeys, exactKeys, schema, constant_val, Fields.get, List.lookup_cons, JsValue.isUndefined,
    safeIdentifier_val, digest_val, timestamp_val, signature_val, approval.ordered, pure, Except.pure, bind,
    Except.bind]

def ActionResult.toValue (result : ActionResult) : JsValue :=
  .object [("worldId", .string result.worldId.val), ("subscriptionId", .string result.subscriptionId.val),
    ("syntheticReceiptId", .string result.syntheticReceiptId.val)]

theorem normalizeResult_toValue (result : ActionResult) : normalizeResult result.toValue = .ok result := by
  rw [normalizeResult, ActionResult.toValue]
  simp [object, onlyKeys, exactKeys, Fields.get, List.lookup_cons, JsValue.isUndefined, safeIdentifier_val, pure,
    Except.pure, bind, Except.bind]

end GhostApi.Actions
