import GhostApi.Lib.Table
import GhostApi.Storage.JsonStore
import GhostApi.Validation

/-!
# Records of the credential broker

Workload identities, access requests, credentials, grants and use receipts,
the validators of untyped input and the checks of the stored state. A stored
time is the printed text; the stored state is checked on every read and write.
-/

namespace GhostApi.Credentials

open Js Validation Security Storage Effect

def MAX_STORE_BYTES : Nat := 1024 * 1024

def MAX_CREDENTIALS : Nat := 1000

def MAX_GRANTS : Nat := 10000

def MAX_RECEIPTS : Nat := 10000

def MAX_SCOPES : Nat := 16

def MAX_GRANT_TTL_MS : Int := 15 * 60 * 1000

def MAX_BREAK_GLASS_TTL_MS : Int := 5 * 60 * 1000

def CredentialBrokerError (message : String) : JsError := ⟨"CredentialBrokerError", message, none⟩

abbrev fail : String → JsError := CredentialBrokerError

/-! ## Validators of single values -/

def identifier (value : JsValue) (label : String) : Except JsError Identifier :=
  identifierOr (fail (label ++ " must be a safe stable identifier.")) value

def hash (value : JsValue) (label : String) : Except JsError Hash :=
  hashOr (fail (label ++ " must be a SHA-256 hex digest.")) value

def isReferenceChar (c : Char) : Bool := isIdentifierChar c || c == ':' || c == '/'

/-- REFERENCE: an identifier of up to 256 characters that may have colons and slashes too. -/
def matchesReference (s : String) : Bool := match s.toList with
  | [] => false
  | c :: cs => isIdentifierStart c && cs.all isReferenceChar && cs.length ≤ 255

abbrev Reference := { s : String // (matchesReference s && sanitizeSecretString s == s) = true }

def reference (value : JsValue) (label : String) : Except JsError Reference := match value with
  | .string s => if h : _ then .ok ⟨s, h⟩ else .error (fail (label ++ " is invalid."))
  | _ => .error (fail (label ++ " is invalid."))

def acceptsReason (s : String) : Bool :=
  s != "" && Js.length s ≤ 200 && !s.toList.any isControl && sanitizeSecretString s == s

abbrev Reason := { s : String // acceptsReason s = true }

def text (value : JsValue) (label : String) : Except JsError Reason := match value with
  | .string s => if h : acceptsReason s = true then .ok ⟨s, h⟩ else .error (fail (label ++ " is invalid."))
  | _ => .error (fail (label ++ " is invalid."))

/-- Between one and sixteen identifiers in ascending order. -/
abbrev Scopes := { s : List Identifier // (1 ≤ s.length ∧ s.length ≤ MAX_SCOPES) ∧
  s.Pairwise fun a b => Json.keyLe a.val b.val = true ∧ a ≠ b }

def scopes (value : JsValue) (label : String) : Except JsError Scopes := match value with
  | .array items => do
    failIf (items.length < 1 ∨ MAX_SCOPES < items.length) (fail (label ++ " must be a bounded non-empty list."))
    let parsed ← items.mapM fun scope => identifier scope label
    let sorted := parsed.mergeSort fun a b => Json.keyLe a.val b.val
    -- The sorted items ascend strictly exactly when no two of them are equal.
    if h : _ then return ⟨sorted, h⟩ else throw (fail (label ++ " must not contain duplicates."))
  | _ => .error (fail (label ++ " must be a bounded non-empty list."))

/-- Date.parse of a text against a time; an unreadable text compares as false. -/
def parsedAtMost (text : String) (ms : Int) : Bool := match Date.parse text with
  | some parsed => decide (parsed ≤ ms)
  | none => false

def futureTimestamp (value : JsValue) (now : Int) (label : String) : Except JsError Timestamp := do
  let parsed ← timestamp fail value label
  if parsedAtMost parsed.val now then throw (fail (label ++ " must be in the future.")) else return parsed

/-! ## Records -/

inductive WorkloadKind
  | agentRun
  | ciJob
  | productionService
  deriving DecidableEq

def WorkloadKind.all : List WorkloadKind := [.agentRun, .ciJob, .productionService]

def WorkloadKind.text : WorkloadKind → String
  | .agentRun => "agent_run"
  | .ciJob => "ci_job"
  | .productionService => "production_service"

def workloadKind (value : JsValue) : Except JsError WorkloadKind :=
  enumerated fail WorkloadKind.all WorkloadKind.text value "Workload kind is invalid."

structure WorkloadIdentity where
  tenantId : Identifier
  projectId : Identifier
  environment : Identifier
  workloadId : Identifier
  subjectId : Identifier
  workloadKind : WorkloadKind
  runId : Identifier
  issuedAt : Timestamp
  expiresAt : Timestamp
  deriving DecidableEq

structure CredentialActionReference where
  actionId : Identifier
  actionHash : Hash
  actionReceiptHash : Hash
  deriving DecidableEq

/-- The audience of a request and of a grant is always ghostapi-server. -/
structure CredentialAccessRequest where
  credentialId : Identifier
  provider : Identifier
  scopes : Scopes
  action : CredentialActionReference
  deriving DecidableEq

structure CredentialMetadata where
  id : Identifier
  tenantId : Identifier
  projectId : Identifier
  environment : Identifier
  provider : Identifier
  ownerWorkloadId : Identifier
  ownerWorkloadKind : WorkloadKind
  vaultRef : Reference
  allowedScopes : Scopes
  version : Nat
  createdAt : String
  expiresAt : String
  rotatedAt : Option String
  revokedAt : Option String
  lastUsedAt : Option String
  deriving DecidableEq

structure BreakGlassRecord where
  approvalId : Identifier
  approvedBy : Identifier
  reason : Reason
  deriving DecidableEq

structure CredentialGrant where
  id : Identifier
  credentialId : Identifier
  credentialVersion : Nat
  tenantId : Identifier
  projectId : Identifier
  environment : Identifier
  workloadId : Identifier
  subjectId : Identifier
  workloadKind : WorkloadKind
  runId : Identifier
  provider : Identifier
  scopes : Scopes
  action : CredentialActionReference
  issuedAt : String
  expiresAt : String
  breakGlass : Option BreakGlassRecord
  revokedAt : Option String
  deriving DecidableEq

/-- Only an executed receipt has a provider request id; the failure code follows from the status. -/
inductive ReceiptStatus
  | executing
  | executed (providerRequestId : Identifier)
  | failed
  | unknown
  deriving DecidableEq

structure CredentialUseReceipt where
  id : Identifier
  grantId : Identifier
  credentialId : Identifier
  credentialVersion : Nat
  tenantId : Identifier
  workloadId : Identifier
  action : CredentialActionReference
  status : ReceiptStatus
  executedAt : String
  deriving DecidableEq

structure CredentialBrokerState where
  credentials : List CredentialMetadata
  grants : List CredentialGrant
  receipts : List CredentialUseReceipt
  deriving DecidableEq

def emptyState : CredentialBrokerState := ⟨[], [], []⟩

/-! ## Validators of input records -/

def actionReference (value : JsValue) : Except JsError CredentialActionReference := do
  let action ← object fail value "Credential action reference is invalid."
  exactKeys fail action ["actionId", "actionHash", "actionReceiptHash"] "Credential action reference" []
  return {
    actionId := ← identifier (action.get "actionId") "Credential action id"
    actionHash := ← hash (action.get "actionHash") "Credential action hash"
    actionReceiptHash := ← hash (action.get "actionReceiptHash") "Credential action receipt hash" }

def validateAccessRequest (value : JsValue) : Except JsError CredentialAccessRequest := do
  let request ← object fail value "Credential access request is invalid."
  exactKeys fail request ["credentialId", "provider", "scopes", "audience", "action"] "Credential access request" []
  match request.get "audience" with
  | .string "ghostapi-server" => pure ()
  | _ => throw (fail "Credential access request audience is invalid.")
  return {
    credentialId := ← identifier (request.get "credentialId") "Credential id"
    provider := ← identifier (request.get "provider") "Credential provider"
    scopes := ← scopes (request.get "scopes") "Credential request scopes"
    action := ← actionReference (request.get "action") }

def validateWorkloadIdentity (value : JsValue) (now : Int) : Except JsError WorkloadIdentity := do
  let identity ← object fail value "Workload identity is invalid."
  exactKeys fail identity
    ["schemaVersion", "kind", "tenantId", "projectId", "environment", "workloadId", "subjectId", "workloadKind",
     "runId", "issuedAt", "expiresAt"] "Workload identity" []
  match identity.get "schemaVersion", identity.get "kind" with
  | .number (.integer 1), .string "ghostapi.workload-identity" => pure ()
  | _, _ => throw (fail "Unsupported workload identity schema.")
  let issuedAt ← timestamp fail (identity.get "issuedAt") "Workload identity issue time"
  let expiresAt ← timestamp fail (identity.get "expiresAt") "Workload identity expiry"
  failIf (timeOf expiresAt ≤ timeOf issuedAt ∨ timeOf expiresAt ≤ now) (fail "Workload identity is expired.")
  return {
    tenantId := ← identifier (identity.get "tenantId") "Workload tenant id"
    projectId := ← identifier (identity.get "projectId") "Workload project id"
    environment := ← identifier (identity.get "environment") "Workload environment"
    workloadId := ← identifier (identity.get "workloadId") "Workload id"
    subjectId := ← identifier (identity.get "subjectId") "Workload subject id"
    workloadKind := ← workloadKind (identity.get "workloadKind")
    runId := ← identifier (identity.get "runId") "Workload run id"
    issuedAt, expiresAt }

def breakGlassRecord (value : JsValue) : Except JsError BreakGlassRecord := do
  let record ← object fail value "Break-glass record is invalid."
  exactKeys fail record ["approvalId", "approvedBy", "reason"] "Break-glass record" []
  return {
    approvalId := ← identifier (record.get "approvalId") "Break-glass approval id"
    approvedBy := ← identifier (record.get "approvedBy") "Break-glass approver id"
    reason := ← text (record.get "reason") "Break-glass reason" }

/-- The part of validateCredentialMetadata that reads a new credential; version and times come from the broker. -/
def validateCredentialMetadata (metadata : Fields) (createdAt : String) : Except JsError CredentialMetadata := do
  exactKeys fail metadata
    ["id", "tenantId", "projectId", "environment", "provider", "ownerWorkloadId", "ownerWorkloadKind", "vaultRef",
     "allowedScopes", "version", "createdAt", "expiresAt", "rotatedAt", "revokedAt", "lastUsedAt"]
    "Credential metadata" ["rotatedAt", "revokedAt", "lastUsedAt"]
  let createdAt ← timestamp fail (.string createdAt) "Credential creation time"
  let expiresAt ← timestamp fail (metadata.get "expiresAt") "Credential expiry"
  failIf (timeOf expiresAt ≤ timeOf createdAt) (fail "Credential expiry must follow creation.")
  let optionalTime (key label : String) : Except JsError (Option String) :=
    if (metadata.get key).isUndefined then .ok none
    else (fun t => some t.val) <$> timestamp fail (metadata.get key) label
  return {
    id := ← identifier (metadata.get "id") "Credential id"
    tenantId := ← identifier (metadata.get "tenantId") "Credential tenant id"
    projectId := ← identifier (metadata.get "projectId") "Credential project id"
    environment := ← identifier (metadata.get "environment") "Credential environment"
    provider := ← identifier (metadata.get "provider") "Credential provider"
    ownerWorkloadId := ← identifier (metadata.get "ownerWorkloadId") "Credential owner workload id"
    ownerWorkloadKind := ← workloadKind (metadata.get "ownerWorkloadKind")
    vaultRef := ← reference (metadata.get "vaultRef") "Credential vault reference"
    allowedScopes := ← scopes (metadata.get "allowedScopes") "Credential allowed scopes"
    version := 1
    createdAt := createdAt.val
    expiresAt := expiresAt.val
    rotatedAt := ← optionalTime "rotatedAt" "Credential rotation time"
    revokedAt := ← optionalTime "revokedAt" "Credential revocation time"
    lastUsedAt := ← optionalTime "lastUsedAt" "Credential last use time" }

/-! ## Stored form -/

def Scopes.toJson (scopes : Scopes) : Json := .array (scopes.val.map fun scope => .string scope.val)

def CredentialActionReference.toJson (action : CredentialActionReference) : Json :=
  .object [("actionId", .string action.actionId.val), ("actionHash", .string action.actionHash.val),
    ("actionReceiptHash", .string action.actionReceiptHash.val)]

def CredentialMetadata.toJson (credential : CredentialMetadata) : Json :=
  let optional (key : String) (value : Option String) := Json.optional key (value.map .string)
  .object ([("id", .string credential.id.val), ("tenantId", .string credential.tenantId.val),
    ("projectId", .string credential.projectId.val), ("environment", .string credential.environment.val),
    ("provider", .string credential.provider.val), ("ownerWorkloadId", .string credential.ownerWorkloadId.val),
    ("ownerWorkloadKind", .string credential.ownerWorkloadKind.text), ("vaultRef", .string credential.vaultRef.val),
    ("allowedScopes", credential.allowedScopes.toJson), ("version", .number credential.version),
    ("createdAt", .string credential.createdAt), ("expiresAt", .string credential.expiresAt)] ++
    optional "rotatedAt" credential.rotatedAt ++ optional "revokedAt" credential.revokedAt ++
    optional "lastUsedAt" credential.lastUsedAt)

def BreakGlassRecord.toJson (record : BreakGlassRecord) : Json :=
  .object [("approvalId", .string record.approvalId.val), ("approvedBy", .string record.approvedBy.val),
    ("reason", .string record.reason.val)]

def CredentialGrant.toJson (grant : CredentialGrant) : Json :=
  .object ([("id", .string grant.id.val), ("credentialId", .string grant.credentialId.val),
    ("credentialVersion", .number grant.credentialVersion), ("tenantId", .string grant.tenantId.val),
    ("projectId", .string grant.projectId.val), ("environment", .string grant.environment.val),
    ("workloadId", .string grant.workloadId.val), ("subjectId", .string grant.subjectId.val),
    ("workloadKind", .string grant.workloadKind.text), ("runId", .string grant.runId.val),
    ("provider", .string grant.provider.val), ("scopes", grant.scopes.toJson),
    ("audience", .string "ghostapi-server"), ("action", grant.action.toJson), ("issuedAt", .string grant.issuedAt),
    ("expiresAt", .string grant.expiresAt)] ++
    Json.optional "breakGlass" (grant.breakGlass.map BreakGlassRecord.toJson) ++
    Json.optional "revokedAt" (grant.revokedAt.map .string))

def ReceiptStatus.members : ReceiptStatus → List (String × Json)
  | .executing => [("status", .string "executing")]
  | .executed providerRequestId =>
    [("status", .string "executed"), ("providerRequestId", .string providerRequestId.val)]
  | .failed => [("status", .string "failed"), ("failureCode", .string "execution_not_started")]
  | .unknown => [("status", .string "unknown"), ("failureCode", .string "unknown_outcome")]

def CredentialUseReceipt.toJson (receipt : CredentialUseReceipt) : Json :=
  .object ([("id", .string receipt.id.val), ("grantId", .string receipt.grantId.val),
    ("credentialId", .string receipt.credentialId.val), ("credentialVersion", .number receipt.credentialVersion),
    ("tenantId", .string receipt.tenantId.val), ("workloadId", .string receipt.workloadId.val),
    ("action", receipt.action.toJson)] ++ receipt.status.members ++ [("executedAt", .string receipt.executedAt)])

def CredentialBrokerState.toJson (state : CredentialBrokerState) : Json :=
  .object [("schemaVersion", .number 1), ("credentials", .array (state.credentials.map CredentialMetadata.toJson)),
    ("grants", .array (state.grants.map CredentialGrant.toJson)),
    ("receipts", .array (state.receipts.map CredentialUseReceipt.toJson))]

/-! ## Validation of the state

Identifiers, hashes, references and scopes are valid by their types. -/

/-- Date.parse of one text minus that of another; zero where a text is unreadable. -/
def lifetime (issuedAt expiresAt : String) : Int := (Date.parse expiresAt).getD 0 - (Date.parse issuedAt).getD 0

def checkOptional (time : Option String) (label : String) : Except JsError Unit := match time with
  | none => .ok ()
  | some time => checkTimestamp fail time label

def positiveInteger (n : Nat) (label : String) : Except JsError Unit :=
  failIf (n < 1) (fail (label ++ " must be a positive integer."))

def validateCredential (credential : CredentialMetadata) : Except JsError Unit := do
  checkTimestamp fail credential.createdAt "Credential creation time"
  checkTimestamp fail credential.expiresAt "Credential expiry"
  failIf (lifetime credential.createdAt credential.expiresAt ≤ 0) (fail "Credential expiry must follow creation.")
  positiveInteger credential.version "Credential version"
  checkOptional credential.rotatedAt "Credential rotation time"
  checkOptional credential.revokedAt "Credential revocation time"
  checkOptional credential.lastUsedAt "Credential last use time"

def validateGrant (grant : CredentialGrant) : Except JsError Unit := do
  checkTimestamp fail grant.issuedAt "Credential grant issue time"
  checkTimestamp fail grant.expiresAt "Credential grant expiry"
  failIf (lifetime grant.issuedAt grant.expiresAt ≤ 0 ∨ MAX_GRANT_TTL_MS < lifetime grant.issuedAt grant.expiresAt)
    (fail "Credential grant lifetime is invalid.")
  failIf (grant.breakGlass ≠ none ∧ MAX_BREAK_GLASS_TTL_MS < lifetime grant.issuedAt grant.expiresAt)
    (fail "Break-glass grant lifetime is invalid.")
  positiveInteger grant.credentialVersion "Credential version"
  checkOptional grant.revokedAt "Credential grant revocation time"

def validateReceipt (receipt : CredentialUseReceipt) : Except JsError Unit := do
  positiveInteger receipt.credentialVersion "Credential version"
  checkTimestamp fail receipt.executedAt "Credential execution time"

/-- The credential of a grant, unless the grant exceeds it. -/
def assertGrantReference (credentials : List CredentialMetadata) (grant : CredentialGrant) : Except JsError Unit :=
  match credentials.find? fun c => c.tenantId == grant.tenantId && c.id == grant.credentialId with
  | none => .error (fail "Credential grant references an invalid credential.")
  | some credential => failIf (credential.version < grant.credentialVersion ∨ grant.provider ≠ credential.provider ∨
      ¬grant.scopes.val.all (credential.allowedScopes.val.contains ·))
    (fail "Credential grant references an invalid credential.")

def assertReceiptReference (grants : List CredentialGrant) (receipt : CredentialUseReceipt) : Except JsError Unit :=
  match grants.find? (·.id == receipt.grantId) with
  | none => .error (fail "Credential use receipt references an invalid grant.")
  | some grant => failIf (receipt.credentialId ≠ grant.credentialId ∨
      receipt.credentialVersion ≠ grant.credentialVersion ∨ receipt.tenantId ≠ grant.tenantId ∨
      receipt.workloadId ≠ grant.workloadId ∨ receipt.action ≠ grant.action)
    (fail "Credential use receipt references an invalid grant.")

def validateState (state : CredentialBrokerState) : Except JsError CredentialBrokerState := do
  atMost fail state.credentials "Credentials" MAX_CREDENTIALS
  state.credentials.forM validateCredential
  unique fail (state.credentials.map fun c => c.tenantId.val ++ ":" ++ c.id.val) "Credential ids"
  atMost fail state.grants "Credential grants" MAX_GRANTS
  state.grants.forM validateGrant
  unique fail (state.grants.map fun grant => grant.id.val) "Credential grant ids"
  state.grants.forM (assertGrantReference state.credentials)
  atMost fail state.receipts "Credential use receipts" MAX_RECEIPTS
  state.receipts.forM validateReceipt
  unique fail (state.receipts.map fun receipt => receipt.id.val) "Credential use receipt ids"
  unique fail (state.receipts.map fun receipt => receipt.grantId.val) "Credential use receipt grants"
  state.receipts.forM (assertReceiptReference state.grants)
  return state

def format : StoreFormat CredentialBrokerState where
  empty := emptyState
  toJson := CredentialBrokerState.toJson
  maxBytes := MAX_STORE_BYTES
  validate := validateState
  oversized := fail ("Credential broker store exceeds " ++ toString MAX_STORE_BYTES ++ " bytes.")
  invalidClock := fail "Credential broker clock is invalid."

/-! ## Checks of a use -/

def assertCredentialUsable (credential : CredentialMetadata) (now : Int) : Except JsError Unit := do
  failIf (credential.revokedAt ≠ none) (fail "Credential is revoked.")
  failIf (parsedAtMost credential.expiresAt now) (fail "Credential is expired.")

def assertRequestMatchesCredential (request : CredentialAccessRequest) (credential : CredentialMetadata)
    (workload : WorkloadIdentity) : Except JsError Unit := do
  failIf (request.provider ≠ credential.provider ∨ workload.tenantId ≠ credential.tenantId ∨
      workload.projectId ≠ credential.projectId ∨ workload.environment ≠ credential.environment)
    (fail "Credential request crosses a tenant, project, environment, or provider boundary.")
  failIf (¬request.scopes.val.all (credential.allowedScopes.val.contains ·))
    (fail "Credential request exceeds the credential scope.")

def assertGrantUsable (grant : CredentialGrant) (workload : WorkloadIdentity) (request : CredentialAccessRequest)
    (now : Int) : Except JsError Unit := do
  failIf (grant.revokedAt ≠ none ∨ parsedAtMost grant.expiresAt now) (fail "Credential grant is expired or revoked.")
  failIf (grant.tenantId ≠ workload.tenantId ∨ grant.projectId ≠ workload.projectId ∨
      grant.environment ≠ workload.environment ∨ grant.workloadId ≠ workload.workloadId ∨
      grant.subjectId ≠ workload.subjectId ∨ grant.workloadKind ≠ workload.workloadKind ∨
      grant.runId ≠ workload.runId)
    (fail "Credential grant does not belong to this workload subject and run.")
  failIf (grant.credentialId ≠ request.credentialId ∨ grant.provider ≠ request.provider ∨
      grant.scopes ≠ request.scopes ∨ grant.action ≠ request.action)
    (fail "Credential request differs from the granted action.")

def findCredential (state : CredentialBrokerState) (tenantId credentialId : Identifier) :
    Except JsError CredentialMetadata :=
  match state.credentials.find? fun c => c.tenantId == tenantId && c.id == credentialId with
  | some credential => .ok credential
  | none => .error (fail "Credential was not found.")

/-! ## The valid states -/

/-- What the proofs use of a validated state: receipts have ids and grants of their own. -/
structure Distinct (state : CredentialBrokerState) : Prop where
  ids : (state.receipts.map fun receipt => receipt.id.val).Nodup
  grants : (state.receipts.map fun receipt => receipt.grantId.val).Nodup

theorem validateState_ok {state state' : CredentialBrokerState} (h : validateState state = .ok state') :
    state' = state ∧ Distinct state := by
  simp only [validateState, bind_unit_eq_ok, unique_eq_ok] at h
  obtain ⟨_, _, _, _, _, _, _, _, _, hIds, hGrants, _, h⟩ := h
  cases h
  exact ⟨rfl, hIds, hGrants⟩

end GhostApi.Credentials
