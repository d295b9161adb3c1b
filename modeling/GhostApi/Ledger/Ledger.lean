import GhostApi.Actions.Receipts
import GhostApi.Ledger.Types
import GhostApi.Lib.Machine
import GhostApi.Storage.JsonStore

/-!
# The action ledger

The operations of the ledger on its state. An append to a full ledger first
rotates: of every tenant with a retention period and no legal hold the expired
entries are dropped and the rest is linked again.
-/

namespace GhostApi.Ledger

open Js Validation Effect Effect.Mutation Actions Storage

/-! ## Verification -/

inductive LedgerVerification
  | valid (entryCount : Nat) (headHash : Hash) (tracked : Bool)
  | invalid (error : String)
  deriving DecidableEq

def verifyEntries (previousHash : Hash) (index : Nat) : List LedgerEntry → Except String Hash
  | [] => .ok previousHash
  | entry :: rest =>
    if entry.sequence.val ≠ index + 1 ∨ entry.previousHash ≠ previousHash then
      .error "Ledger entry ordering or chain link is corrupted."
    else if entry.entryHash ≠ entry.toEntryBase.seal.entryHash then
      .error "Ledger entry content hash is corrupted."
    else verifyEntries entry.entryHash (index + 1) rest

def verifyTenantState (state : ActionLedgerState) (tenantId : Identifier) : LedgerVerification :=
  match state.tenants.find? (·.tenantId = tenantId) with
  | none => .valid 0 (genesisHash tenantId) false
  | some tenant =>
    let entries := entriesOf tenantId state.entries
    if entries.length ≠ tenant.entryCount then
      .invalid "Ledger tenant entry count does not match the append-only record."
    else match verifyEntries (genesisHash tenantId) 0 entries with
      | .error e => .invalid e
      | .ok previousHash =>
        if tenant.headHash ≠ previousHash then
          .invalid "Ledger tenant head hash does not match the append-only record."
        else .valid entries.length tenant.headHash true

def assertTenantIntegrity (state : ActionLedgerState) (tenantId : Identifier) : Except JsError Unit :=
  match verifyTenantState state tenantId with
  | .valid _ _ _ => .ok ()
  | .invalid error => .error (refuse error)

def boundedArray (value : JsValue) (max : Nat) : Except JsError (List JsValue) := match value with
  | .array items => do
    failIf (max < items.length) (refuse "Action ledger state exceeds its bounded limits.")
    return items
  | _ => .error (refuse "Action ledger state exceeds its bounded limits.")

def validateState (value : JsValue) : Except JsError ActionLedgerState := do
  let state ← object refuse value "Action ledger state must be an object."
  exactKeys state ["schemaVersion", "kind", "entries", "tenants"] "Action ledger state"
  failIf (¬isOne (state.get "schemaVersion") ∨ ¬isText "ghostapi.action-ledger" (state.get "kind"))
    (refuse "Unsupported action ledger schema.")
  let entryValues ← boundedArray (state.get "entries") MAX_ENTRIES
  let tenantValues ← boundedArray (state.get "tenants") MAX_TENANTS
  let entries ← entryValues.mapM validateEntry
  let tenants ← tenantValues.mapM validateTenant
  failIf (¬(tenants.map (·.tenantId)).Nodup) (refuse "Action ledger tenant state is duplicated.")
  tenants.forM fun tenant => assertTenantIntegrity ⟨entries, tenants⟩ tenant.tenantId
  failIf ((entries.map (·.tenantId)).dedup.length ≠ tenants.length ∧
      entries.any (fun entry => !tenants.any (·.tenantId = entry.tenantId)) = true)
    (refuse "Action ledger entry has no tenant state.")
  return ⟨entries, tenants⟩

def emptyState : ActionLedgerState := ⟨[], []⟩

def format : StoreFormat ActionLedgerState where
  empty := emptyState
  toJson := ActionLedgerState.toJson
  maxBytes := MAX_LEDGER_BYTES
  validate state := validateState state.toValue
  oversized := refuse ("Action ledger exceeds " ++ toString MAX_LEDGER_BYTES ++ " bytes.")
  invalidClock := ⟨"RangeError", "Invalid time value", none⟩

/-! ## Appending -/

abbrev Op := Mutation ActionLedgerState JsError

def freshTenant (tenantId : Identifier) : LedgerTenantState := ⟨tenantId, 0, genesisHash tenantId, none, false, none⟩

def getOrCreateTenant (tenantId : Identifier) : Op LedgerTenantState := do
  match (← get).tenants.find? (·.tenantId = tenantId) with
  | some tenant => return tenant
  | none =>
    throwIf (MAX_TENANTS ≤ (← get).tenants.length)
      (refuse ("Action ledger tenant limit of " ++ toString MAX_TENANTS ++ " was reached."))
    modify fun state => { state with tenants := state.tenants ++ [freshTenant tenantId] }
    return freshTenant tenantId

/-- An assignment to the tenant of an id; ids are distinct. -/
def updateTenant (tenantId : Identifier) (f : LedgerTenantState → LedgerTenantState) : Op Unit :=
  modify fun state =>
    { state with tenants := state.tenants.map fun tenant => if tenant.tenantId = tenantId then f tenant else tenant }

def relinkTenantChain (tenantId : Identifier) (previousHash : Hash) (index : Nat) : List LedgerEntry → List LedgerEntry
  | [] => []
  | entry :: rest =>
    let relinked := EntryBase.seal {
      entry.toEntryBase with
      tenantId
      sequence := ⟨index + 1, Nat.le_add_left 1 index⟩
      previousHash }
    relinked :: relinkTenantChain tenantId relinked.entryHash (index + 1) rest

def millisecondsPerDay : Int := 86400000

def rotateTenant (now : Int) (entries : List LedgerEntry) (tenant : LedgerTenantState) :
    List LedgerEntry × LedgerTenantState :=
  match tenant.retentionDays with
  | none => (entries, tenant)
  | some days =>
    if tenant.legalHold then (entries, tenant)
    else
      let cutoff := now - days.val * millisecondsPerDay
      let own := entriesOf tenant.tenantId entries
      let surviving := (own.mergeSort fun left right => left.sequence.val ≤ right.sequence.val).filter
        fun entry => cutoff ≤ timeOf entry.timestamp
      if surviving.length = own.length then (entries, tenant)
      else
        let rebuilt := relinkTenantChain tenant.tenantId (genesisHash tenant.tenantId) 0 surviving
        (entries.filter (¬·.tenantId = tenant.tenantId) ++ rebuilt,
          { tenant with
            entryCount := rebuilt.length
            headHash := entryChain.latest (genesisHash tenant.tenantId) rebuilt })

def rotateTenants (now : Int) : List LedgerEntry → List LedgerTenantState → ActionLedgerState
  | entries, [] => ⟨entries, []⟩
  | entries, tenant :: rest =>
    let (entries, tenant) := rotateTenant now entries tenant
    let rotated := rotateTenants now entries rest
    { rotated with tenants := tenant :: rotated.tenants }

def rotateForRetention (now : Int) (state : ActionLedgerState) : ActionLedgerState :=
  rotateTenants now state.entries state.tenants

def makeRoom (now : Int) : Op Unit := do
  if MAX_ENTRIES ≤ (← get).entries.length then
    modify (rotateForRetention now)
    throwIf (MAX_ENTRIES ≤ (← get).entries.length) (refuse ("Action ledger entry limit of " ++ toString MAX_ENTRIES ++
      " was reached; export and controlled retention review are required."))

theorem nextSequence_pos (tenant : LedgerTenantState) : 1 ≤ tenant.entryCount + 1 := Nat.le_add_left 1 _

/-- The time is the clock reading whose printed form the source passes. -/
def appendEntry (tenantId : Identifier) (actionId : String) (actionDigest : Hash) (stage : LedgerStage) (data : JsValue)
    (now : Int) : Op LedgerEntry := do
  let _ ← getOrCreateTenant tenantId
  makeRoom now
  -- The tenant is read again, since rotation assigns to it.
  let tenant ← getOrCreateTenant tenantId
  let entry : EntryBase := {
    tenantId
    sequence := ⟨tenant.entryCount + 1, nextSequence_pos tenant⟩
    timestamp := ← timestamp refuse (.string (Date.toISOString now)) "Ledger timestamp"
    actionId := ← identifier (.string actionId) "Ledger action id"
    actionHash := actionDigest
    stage
    data := ← normalizeData data
    previousHash := if tenant.entryCount = 0 then genesisHash tenantId else tenant.headHash }
  let appended := entry.seal
  modify fun state => { state with entries := state.entries ++ [appended] }
  updateTenant tenantId fun tenant =>
    { tenant with entryCount := appended.sequence.val, headHash := appended.entryHash }
  return appended

/-! ## Recording an action -/

structure CredentialGrant where
  grantIdHash : JsValue
  credentialVersion : JsValue

structure ActionLedgerRecord where
  envelope : ActionEnvelope
  approval : ActionApproval
  receipts : List ActionExecutionReceipt
  credentialGrant : Option CredentialGrant

/-- A stage with the data of its entry, which may be refused. -/
structure Evidence where
  stage : LedgerStage
  data : Except JsError JsValue

def text (s : String) : JsValue := .string s

def hashText (s : String) : JsValue := .string (hashOf s).val

def intentEvidence (envelope : ActionEnvelope) : Evidence where
  stage := .intent
  data := .ok (.object [("operation", text envelope.operation.val), ("resourceType", text "synthetic-world"),
    ("resourceIdHash", hashText envelope.worldId.val),
    ("argumentsHash", hashText (Json.canonical (.object [("worldId", .string envelope.worldId.val)]))),
    ("expectedEffectsHash", hashText (Json.canonical
      (.array (envelope.expectedSideEffects.map fun effect => .string effect.val)))),
    ("riskClass", text envelope.riskClass.text), ("reversibility", text envelope.reversibility.text)])

def identityEvidence (envelope : ActionEnvelope) : Evidence where
  stage := .identity
  data := .ok (.object [("actorId", text envelope.actor.id.val), ("workloadId", text envelope.actor.workloadId.val),
    ("actorType", text envelope.actor.type.text)])

def policyEvidence (envelope : ActionEnvelope) : Evidence where
  stage := .policyDecision
  data := .ok (.object [("policyVersion", .number (.integer envelope.policy.version.val)),
    ("policyHash", text envelope.policy.hash.val), ("allowed", .bool true), ("basis", text "caller_claimed")])

def approvalEvidence (approval : ActionApproval) : Evidence where
  stage := .approval
  data := .ok (.object [("approvalHash", text (actionApprovalHash approval).val),
    ("approverId", text approval.approvedBy.val), ("status", text "approved"), ("basis", text "caller_claimed")])

def credentialEvidence (grant : Option CredentialGrant) : Evidence where
  stage := .credentialGrant
  data := match grant with
    | none => .ok (.object [("status", text "not_used")])
    | some grant => do
      let grantIdHash ← hash grant.grantIdHash "Credential grant reference"
      let credentialVersion ← positiveInteger grant.credentialVersion "Credential version"
      return .object [("status", text "granted"), ("grantIdHash", text grantIdHash.val),
        ("credentialVersion", .number (.integer credentialVersion.val))]

def attemptEvidence (status : String) (receipt : ActionExecutionReceipt) : Evidence where
  stage := .executionAttempt
  data := .ok (.object [("attempt", .number (.integer 1)), ("status", text status),
    ("receiptHash", text receipt.receiptHash.val)])

def verificationEvidence (status : String) (receipt : ActionExecutionReceipt) (proofHash : JsValue) : Evidence where
  stage := .verification
  data := .ok (.object [("status", text status), ("receiptHash", text receipt.receiptHash.val), ("proofHash", proofHash)])

def receiptEvidence (receipt : ActionExecutionReceipt) : List Evidence := match receipt.status with
  | .requested => []
  | .attempted => [attemptEvidence "attempted" receipt]
  | .committed => [{
      stage := .providerReceipt
      data := .ok (.object [("outcome", text "committed"), ("receiptHash", text receipt.receiptHash.val),
        ("providerReceiptHash", match receipt.providerRequestId with
          | none => .null
          | some id => hashText id.val)]) }]
  | .verified => [verificationEvidence "verified" receipt (hashText (Json.canonical
      ((receipt.result.map ActionResult.toJson).getD .null)))]
  | .failed =>
    let status := if receipt.failure = some .unknownOutcome then "ambiguous" else "failed"
    [attemptEvidence status receipt, verificationEvidence status receipt .null]

def compensationEvidence (envelope : ActionEnvelope) : Evidence where
  stage := .compensation
  data := .ok (.object [("status", text (match envelope.reversibility with
    | .compensatable => "not_attempted"
    | .none => "not_supported"))])

def ActionLedgerRecord.evidence (record : ActionLedgerRecord) : List Evidence :=
  [intentEvidence record.envelope, identityEvidence record.envelope, policyEvidence record.envelope,
    approvalEvidence record.approval, credentialEvidence record.credentialGrant] ++
    record.receipts.flatMap receiptEvidence ++ [compensationEvidence record.envelope]

def normalizeActionRecord (record : ActionLedgerRecord) : Except JsError ActionLedgerRecord := do
  let stored ← validateStoredAction ⟨record.envelope, actionHash record.envelope, record.approval, record.receipts⟩
  return { record with envelope := stored.envelope, approval := stored.approval, receipts := stored.receipts }

def entriesForAction (state : ActionLedgerState) (tenantId actionId : Identifier) : List LedgerEntry :=
  state.entries.filter fun entry => entry.tenantId = tenantId ∧ entry.actionId = actionId

/-- The readings of the clock during an operation, in order. -/
abbrev Clock := Nat → Option Int

def appendAll (tenantId actionId : Identifier) (actionDigest : Hash) : List Evidence → Clock → Op (List LedgerEntry)
  | [], _ => pure []
  | evidence :: rest, clock => do
    let data ← evidence.data
    let now ← format.timestamp (clock 0)
    let entry ← appendEntry tenantId actionId.val actionDigest evidence.stage data now
    let entries ← appendAll tenantId actionId actionDigest rest fun n => clock (n + 1)
    return entry :: entries

def recordActionOp (tenantId : Identifier) (record : ActionLedgerRecord) (clock : Clock) : Op (List LedgerEntry) := do
  match entriesForAction (← get) tenantId record.envelope.actionId with
  | first :: rest =>
    throwIf (first.actionHash ≠ actionHash record.envelope)
      (refuse "Action id already has a different ledger timeline in this tenant.")
    return first :: rest
  | [] => appendAll tenantId record.envelope.actionId (actionHash record.envelope) record.evidence clock

/-! ## Governance -/

/-- String.slice(0, length) on code units; the names here have one unit a character. -/
def slice (s : String) (length : Nat) : String := String.ofList (s.toList.take length)

def governanceActionId (kind : String) (state : ActionLedgerState) (tenantId : Identifier) : String :=
  slice ("governance-" ++ kind ++ "-" ++ tenantId.val ++ "-" ++ toString ((entriesOf tenantId state.entries).length + 1)) 128

def governanceEntry (tenantId : Identifier) (kind subject : String) (stage : LedgerStage) (data : JsValue)
    (clock : Clock) : Op LedgerEntry := do
  let actionId := governanceActionId kind (← get) tenantId
  let now ← format.timestamp (clock 0)
  appendEntry tenantId actionId (hashOf (subject ++ ":" ++ tenantId.val)) stage data now

def configureRetentionOp (tenantId : Identifier) (retentionDays : Option (Positive 3650)) (clock : Clock) :
    Op LedgerTenantState := do
  let _ ← getOrCreateTenant tenantId
  updateTenant tenantId ({ · with retentionDays })
  let _ ← governanceEntry tenantId "retention" "retention" .retention
    (.object [("retentionDays", retentionValue retentionDays)]) clock
  getOrCreateTenant tenantId

def setLegalHoldOp (tenantId : Identifier) (active : Bool) (clock : Clock) : Op LedgerTenantState := do
  let _ ← getOrCreateTenant tenantId
  updateTenant tenantId ({ · with legalHold := active })
  let _ ← governanceEntry tenantId "hold" "legal-hold" .legalHold (.object [("active", .bool active)]) clock
  getOrCreateTenant tenantId

/-- The time of the request is the timestamp of its entry. -/
def requestDeletionOp (tenantId : Identifier) (clock : Clock) : Op LedgerTenantState := do
  let tenant ← getOrCreateTenant tenantId
  throwIf (tenant.legalHold = true) (refuse "Deletion request is blocked by the active local legal hold.")
  if tenant.deletionRequestedAt = none then
    let entry ← governanceEntry tenantId "deletion" "deletion" .deletionRequest
      (.object [("status", text "requested")]) clock
    updateTenant tenantId ({ · with deletionRequestedAt := some entry.timestamp })
  getOrCreateTenant tenantId

end GhostApi.Ledger
