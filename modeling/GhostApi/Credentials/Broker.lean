import GhostApi.Credentials.Types
import GhostApi.Lib.Protocol

/-!
# The credential broker

The locked operations as computations on the stored state, and the calls of
the broker as programs over what they await: the verifiers, the vault, the
executor, the clock and the locked store.
-/

namespace GhostApi.Credentials

open Js Validation Storage Effect Effect.Mutation Table

/-- The executor that a broker is built with, apart from its execute. -/
structure CredentialExecutor where
  provider : String
  supportsScope : Identifier → Bool

abbrev Store := Option CredentialBrokerState

abbrev Op := Mutation CredentialBrokerState JsError

/-! ## Locked operations -/

def registerOp (candidate : CredentialMetadata) (_ : Int) : Op CredentialMetadata := do
  let state ← get
  throwIf (state.credentials.any fun c => c.tenantId == candidate.tenantId && c.id == candidate.id)
    (fail "Credential already exists.")
  modify fun state => { state with credentials := state.credentials ++ [candidate] }
  return candidate

/-- Revoking the grants of a credential that are not revoked yet. -/
def revokeGrants (tenantId credentialId : Identifier) (now : Int) (grants : List CredentialGrant) :
    List CredentialGrant :=
  grants.map fun grant =>
    if grant.tenantId = tenantId ∧ grant.credentialId = credentialId ∧ grant.revokedAt = none then
      { grant with revokedAt := some (Date.toISOString now) }
    else grant

def setCredential (tenantId credentialId : Identifier) (credential : CredentialMetadata)
    (credentials : List CredentialMetadata) : List CredentialMetadata :=
  upsert (fun c => c.tenantId == tenantId && c.id == credentialId) credential credentials

def rotateOp (tenantId credentialId : Identifier) (vaultRef : Reference) (expiresAt : Timestamp) (now : Int) :
    Op CredentialMetadata := do
  let state ← get
  let credential ← liftM (findCredential state tenantId credentialId)
  throwIf (credential.revokedAt ≠ none) (fail "Credential is revoked.")
  let rotated := { credential with
    vaultRef, expiresAt := expiresAt.val, version := credential.version + 1
    rotatedAt := some (Date.toISOString now) }
  modify fun state => { state with
    credentials := setCredential tenantId credentialId rotated state.credentials
    grants := revokeGrants tenantId credentialId now state.grants }
  return rotated

def revokeOp (tenantId credentialId : Identifier) (now : Int) : Op Unit := do
  let state ← get
  let credential ← liftM (findCredential state tenantId credentialId)
  let revoked := { credential with revokedAt := credential.revokedAt.or (some (Date.toISOString now)) }
  modify fun state => { state with
    credentials := setCredential tenantId credentialId revoked state.credentials
    grants := revokeGrants tenantId credentialId now state.grants }

def stableName (before uuid label : String) : Except JsError Identifier :=
  identifier (.string (before ++ String.ofList (uuid.toList.filter (· ≠ '-')))) label

/-- The approval of a workload that is not the owner; the authorizer's answer is read when it is stored. -/
def breakGlassFor (credential : CredentialMetadata) (workload : WorkloadIdentity)
    (authorized : Except JsError JsValue) : Except JsError (Option BreakGlassRecord) :=
  if credential.ownerWorkloadId = workload.workloadId ∧ credential.ownerWorkloadKind = workload.workloadKind then
    .ok none
  else do
    let answer ← authorized
    if answer.isUndefined then return none else some <$> breakGlassRecord answer

def issueOp (workload : WorkloadIdentity) (request : CredentialAccessRequest) (expiresAt : Timestamp)
    (authorized : Except JsError JsValue) (uuid : String) (now : Int) : Op CredentialGrant := do
  let state ← get
  let credential ← liftM (findCredential state workload.tenantId request.credentialId)
  liftM (assertCredentialUsable credential now)
  liftM (assertRequestMatchesCredential request credential workload)
  let breakGlass ← liftM (breakGlassFor credential workload authorized)
  throwIf (breakGlass ≠ none ∧ MAX_BREAK_GLASS_TTL_MS < timeOf expiresAt - now)
    (fail "Break-glass grants must expire within five minutes.")
  throwIf (MAX_GRANT_TTL_MS < timeOf expiresAt - now) (fail "Credential grants must expire within fifteen minutes.")
  throwIf ((Date.parse credential.expiresAt).getD 0 < timeOf expiresAt ∨ timeOf workload.expiresAt < timeOf expiresAt)
    (fail "Credential grant expiry exceeds its credential or workload lifetime.")
  let id ← liftM (stableName "grant-" uuid "Credential grant id")
  let grant : CredentialGrant := {
    id
    credentialId := credential.id
    credentialVersion := credential.version
    tenantId := credential.tenantId
    projectId := credential.projectId
    environment := credential.environment
    workloadId := workload.workloadId
    subjectId := workload.subjectId
    workloadKind := workload.workloadKind
    runId := workload.runId
    provider := credential.provider
    scopes := request.scopes
    action := request.action
    issuedAt := Date.toISOString now
    expiresAt := expiresAt.val
    breakGlass
    revokedAt := none }
  modify fun state => { state with grants := state.grants ++ [grant] }
  return grant

/-- What the locked start of a use returns: the receipt of an earlier use, or all that the use needs. -/
inductive Started
  | prior (receipt : CredentialUseReceipt)
  | fresh (grant : CredentialGrant) (credential : CredentialMetadata) (receipt : CredentialUseReceipt)
  deriving DecidableEq

def pushReceipt (grant : CredentialGrant) (credential : CredentialMetadata) (workload : WorkloadIdentity)
    (uuid : String) (now : Int) : Op Started := do
  let id ← liftM (stableName "credential-use-" uuid "Credential use receipt id")
  let receipt : CredentialUseReceipt := {
    id
    grantId := grant.id
    credentialId := credential.id
    credentialVersion := credential.version
    tenantId := credential.tenantId
    workloadId := workload.workloadId
    action := grant.action
    status := .executing
    executedAt := Date.toISOString now }
  modify fun state => { state with receipts := state.receipts ++ [receipt] }
  return .fresh grant credential receipt

/-- The grant that a use names and its credential, when they allow the use. -/
def usable (executor : CredentialExecutor) (state : CredentialBrokerState) (workload : WorkloadIdentity)
    (grantId : Identifier) (request : CredentialAccessRequest) (now : Int) :
    Except JsError (CredentialGrant × CredentialMetadata) := do
  match state.grants.find? (·.id == grantId) with
  | none => throw (fail "Credential grant was not found.")
  | some grant =>
    assertGrantUsable grant workload request now
    let credential ← findCredential state workload.tenantId grant.credentialId
    assertCredentialUsable credential now
    failIf (credential.version ≠ grant.credentialVersion) (fail "Credential grant was invalidated by rotation.")
    failIf (credential.provider.val ≠ executor.provider ∨ ¬grant.scopes.val.all executor.supportsScope)
      (fail "Credential executor denies the requested scope.")
    return (grant, credential)

def startOp (executor : CredentialExecutor) (workload : WorkloadIdentity) (grantId : Identifier)
    (request : CredentialAccessRequest) (verified : Except JsError Unit) (uuid : String) (now : Int) : Op Started := do
  let state ← get
  let (grant, credential) ← liftM (usable executor state workload grantId request now)
  match state.receipts.find? (·.grantId == grant.id) with
  | some prior => match prior.status with
    | .executed _ => return .prior prior
    | _ => throw (fail
      "Prior credential execution has no retry-safe outcome and will not retry automatically.")
  | none =>
    liftM verified
    pushReceipt grant credential workload uuid now

/-- The outcome of a use, with the provider request id as the executor returned it. -/
inductive Completion
  | executed (providerRequestId : JsValue)
  | failed
  | unknown

def setReceipt (receipt : CredentialUseReceipt) (receipts : List CredentialUseReceipt) : List CredentialUseReceipt :=
  upsert (·.id == receipt.id) receipt receipts

/-- The status that completes a receipt, and the use of its credential. -/
def complete (receipt : CredentialUseReceipt) (now : Int) : Completion → Op ReceiptStatus
  | .executed providerRequestId => do
    let id ← liftM (identifier providerRequestId "Provider request id")
    let state ← get
    let credential ← liftM (findCredential state receipt.tenantId receipt.credentialId)
    let used := { credential with lastUsedAt := some (Date.toISOString now) }
    modify fun state => { state with
      credentials := setCredential receipt.tenantId receipt.credentialId used state.credentials }
    return .executed id
  | .failed => return .failed
  | .unknown => return .unknown

def completeOp (receiptId : Identifier) (completion : Completion) (now : Int) : Op CredentialUseReceipt := do
  let state ← get
  match state.receipts.find? (·.id == receiptId) with
  | none => throw (fail "Credential execution receipt is not active.")
  | some receipt =>
    throwIf (receipt.status ≠ .executing) (fail "Credential execution receipt is not active.")
    let status ← complete receipt now completion
    let completed := { receipt with status, executedAt := Date.toISOString now }
    modify fun state => { state with receipts := setReceipt completed state.receipts }
    return completed

def CredentialGrant.request (grant : CredentialGrant) : CredentialAccessRequest :=
  ⟨grant.credentialId, grant.provider, grant.scopes, grant.action⟩

/-- The locked part of assertExecutionActive; the clock is read twice. -/
def checkActive (executor : CredentialExecutor) (grant : CredentialGrant) (workload : WorkloadIdentity)
    (clock clock' : Option Int) (store : Store) : Except JsError Unit := do
  let state ← format.read store
  match state.grants.find? (·.id == grant.id) with
  | none => throw (fail "Credential grant was not found.")
  | some current =>
    assertGrantUsable current workload grant.request (← format.timestamp clock)
    let credential ← findCredential state workload.tenantId current.credentialId
    assertCredentialUsable credential (← format.timestamp clock')
    failIf (credential.version ≠ current.credentialVersion ∨ credential.provider.val ≠ executor.provider ∨
      ¬current.scopes.val.all executor.supportsScope) (fail "Credential grant is no longer executable.")
    failIf ((state.receipts.find? (·.grantId == current.id)).map CredentialUseReceipt.status ≠ some .executing)
      (fail "Credential execution is no longer active.")

/-! ## What a call awaits -/

/-- A byte buffer, known by its place among those that the vault returned, or another value. -/
inductive VaultReply
  | buffer (index byteLength : Nat)
  | other

inductive Part
  | timestamp
  | authenticate (identity : JsValue)
  | register (candidate : CredentialMetadata)
  | rotate (tenantId credentialId : Identifier) (vaultRef : Reference) (expiresAt : Timestamp)
  | revoke (tenantId credentialId : Identifier)
  | issue (workload : WorkloadIdentity) (request : CredentialAccessRequest) (expiresAt : Timestamp)
  | start (workload : WorkloadIdentity) (grantId : Identifier) (request : CredentialAccessRequest)
  | readSecret (vaultRef : Reference)
  | verify (action : CredentialActionReference) (workload : WorkloadIdentity)
  | checkActive (grant : CredentialGrant) (workload : WorkloadIdentity)
  | execute (grant : CredentialGrant) (workload : WorkloadIdentity) (secret : Nat)
  | executed (secret : Nat)
  | complete (receiptId : Identifier) (completion : Completion)
  | fill (secret : Nat)

abbrev Part.Answer : Part → Type
  | timestamp => Int
  | authenticate _ => JsValue
  | register _ => CredentialMetadata
  | rotate _ _ _ _ => CredentialMetadata
  | revoke _ _ => Unit
  | issue _ _ _ => CredentialGrant
  | start _ _ _ => Started
  | readSecret _ => VaultReply
  | verify _ _ => Unit
  | checkActive _ _ => Unit
  | execute _ _ _ => Unit
  | executed _ => JsValue
  | complete _ _ => CredentialUseReceipt
  | fill _ => Unit

abbrev Call := Program Part Part.Answer JsError

def ask (part : Part) : Call part.Answer := Program.perform part

/-! ## Calls -/

def authenticateWorkload (identity : JsValue) : Call WorkloadIdentity := do
  let workload ← ask (.authenticate identity)
  let now ← ask .timestamp
  liftM (validateWorkloadIdentity workload now)

def MAX_SECRET_BYTES : Nat := 64 * 1024

structure ExecuteInput where
  identity : JsValue
  grantId : JsValue
  request : JsValue

def assertExecutionActive (grant : CredentialGrant) (identity : JsValue) : Call Unit := do
  let verifiedWorkload ← authenticateWorkload identity
  ask (.verify grant.action verifiedWorkload)
  ask (.checkActive grant verifiedWorkload)

/-- The first try: the buffer of the secret once it may be used. -/
def obtainSecret (grant : CredentialGrant) (credential : CredentialMetadata) (identity : JsValue) : Call Nat := do
  match ← ask (.readSecret credential.vaultRef) with
  | .other => throw (fail "Credential vault returned invalid secret material.")
  | .buffer secret byteLength =>
    Program.throwIf (byteLength = 0 ∨ MAX_SECRET_BYTES < byteLength)
      (fail "Credential vault returned invalid secret material.")
    assertExecutionActive grant identity
    return secret

def notStarted (receipt : CredentialUseReceipt) : Call Nat := do
  let _ ← ask (.complete receipt.id .failed)
  throw (fail "Credential execution did not start.")

/-- The second try. The executor may call assertActive, which only reads. -/
def useSecret (grant : CredentialGrant) (workload : WorkloadIdentity) (receipt : CredentialUseReceipt) (secret : Nat) :
    Call CredentialUseReceipt := do
  ask (.execute grant workload secret)
  let providerRequestId ← ask (.executed secret)
  ask (.complete receipt.id (.executed providerRequestId))

def outcomeUnknown (receipt : CredentialUseReceipt) : Call CredentialUseReceipt := do
  let _ ← ask (.complete receipt.id .unknown)
  throw (fail "Credential execution outcome is unknown and will not retry automatically.")

def runFresh (grant : CredentialGrant) (credential : CredentialMetadata) (receipt : CredentialUseReceipt)
    (workload : WorkloadIdentity) (identity : JsValue) : Call CredentialUseReceipt := do
  let secret ← tryCatch (obtainSecret grant credential identity) fun _ => notStarted receipt
  (tryCatch (useSecret grant workload receipt secret) fun _ => outcomeUnknown receipt).finishWith (ask (.fill secret))

def executeServerSide (input : ExecuteInput) : Call CredentialUseReceipt := do
  let workload ← authenticateWorkload input.identity
  let grantId ← liftM (identifier input.grantId "Credential grant id")
  let request ← liftM (validateAccessRequest input.request)
  match ← ask (.start workload grantId request) with
  | .prior receipt => return receipt
  | .fresh grant credential receipt => runFresh grant credential receipt workload input.identity

def registerCredential (input : Fields) : Call CredentialMetadata := do
  let now ← ask .timestamp
  let kept := input.filter fun member => ! ["version", "createdAt", "expiresAt"].contains member.1
  let candidate ← liftM (validateCredentialMetadata
    (kept ++ [("version", .number (.integer 1)), ("createdAt", .string (Date.toISOString now)),
      ("expiresAt", input.get "expiresAt")]) (Date.toISOString now))
  ask (.register candidate)

structure RotateInput where
  tenantId : JsValue
  credentialId : JsValue
  vaultRef : JsValue
  expiresAt : JsValue

def rotateCredential (input : RotateInput) : Call CredentialMetadata := do
  let tenantId ← liftM (identifier input.tenantId "Credential tenant id")
  let credentialId ← liftM (identifier input.credentialId "Credential id")
  let vaultRef ← liftM (reference input.vaultRef "Credential vault reference")
  let now ← ask .timestamp
  let expiresAt ← liftM (futureTimestamp input.expiresAt now "Credential expiry")
  ask (.rotate tenantId credentialId vaultRef expiresAt)

def revokeCredential (tenantId credentialId : JsValue) : Call Unit := do
  let tenantId ← liftM (identifier tenantId "Credential tenant id")
  let credentialId ← liftM (identifier credentialId "Credential id")
  ask (.revoke tenantId credentialId)

structure IssueInput where
  identity : JsValue
  request : JsValue
  expiresAt : JsValue

def issueGrant (input : IssueInput) : Call CredentialGrant := do
  let workload ← authenticateWorkload input.identity
  let request ← liftM (validateAccessRequest input.request)
  let now ← ask .timestamp
  let expiresAt ← liftM (futureTimestamp input.expiresAt now "Credential grant expiry")
  ask (.issue workload request expiresAt)

/-! ## Answers -/

/-- The choices of the environment for one awaited call; each part uses its own. -/
structure Choice where
  clock : Option Int := some 0
  /-- The second reading of a part that reads the clock twice. -/
  clock' : Option Int := some 0
  identity : Except JsError JsValue := .ok .undefined
  verified : Except JsError Unit := .ok ()
  authorized : Except JsError JsValue := .ok .undefined
  uuid : String := "0"
  lock : Except JsError Unit := .ok ()
  write : Except JsError Unit := .ok ()
  /-- A failing write has reached the file. -/
  reached : Bool := false
  /-- A byte buffer with its content, or another value. -/
  secret : Except JsError (Option (List UInt8)) := .ok none
  /-- What the executor leaves in the buffer. -/
  content : List UInt8 := []
  executed : Except JsError JsValue := .ok .undefined

/-- The store, how often the executor was called for each grant, and the buffers of the vault. -/
structure World where
  store : Store := none
  executions : Identifier → Nat := fun _ => 0
  secrets : List (List UInt8) := []

def World.execute (w : World) (grantId : Identifier) : World :=
  { w with executions := Function.update w.executions grantId (w.executions grantId + 1) }

def locked {α : Type} (operation : Int → Op α) (choice : Choice) (w : World) : Except JsError α × World :=
  match choice.lock >>= fun _ => format.mutate operation choice.clock w.store with
  | .error e => (.error e, w)
  | .ok (a, state) => match choice.write with
    | .ok _ => (.ok a, { w with store := some state })
    | .error e => (.error e, if choice.reached then { w with store := some state } else w)

def respond (executor : CredentialExecutor) : (part : Part) → Choice → World → Except JsError part.Answer × World
  | .timestamp, choice, w => (format.timestamp choice.clock, w)
  | .authenticate _, choice, w => (choice.identity, w)
  | .register candidate, choice, w => locked (registerOp candidate) choice w
  | .rotate tenantId credentialId vaultRef expiresAt, choice, w =>
    locked (rotateOp tenantId credentialId vaultRef expiresAt) choice w
  | .revoke tenantId credentialId, choice, w => locked (revokeOp tenantId credentialId) choice w
  | .issue workload request expiresAt, choice, w =>
    locked (issueOp workload request expiresAt choice.authorized choice.uuid) choice w
  | .start workload grantId request, choice, w =>
    locked (startOp executor workload grantId request choice.verified choice.uuid) choice w
  | .readSecret _, choice, w => match choice.secret with
    | .error e => (.error e, w)
    | .ok none => (.ok .other, w)
    | .ok (some bytes) => (.ok (.buffer w.secrets.length bytes.length), { w with secrets := w.secrets ++ [bytes] })
  | .verify _ _, choice, w => (choice.verified, w)
  | .checkActive grant workload, choice, w =>
    (choice.lock >>= fun _ => checkActive executor grant workload choice.clock choice.clock' w.store, w)
  | .execute grant _ _, _, w => (.ok (), w.execute grant.id)
  | .executed secret, choice, w => (choice.executed, { w with secrets := w.secrets.set secret choice.content })
  | .complete receiptId completion, choice, w => locked (completeOp receiptId completion) choice w
  | .fill secret, _, w =>
    (.ok (), { w with secrets := w.secrets.modify secret fun bytes => bytes.map fun _ => 0 })

end GhostApi.Credentials
