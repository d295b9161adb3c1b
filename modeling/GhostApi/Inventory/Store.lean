import GhostApi.Inventory.Payload

/-!
# The inventory file

The stored form of every record, and the checks of a state before it is
written and after it is read. The types carry the checks of texts and
references; the limits, the times and the generated identifiers are checked
here.
-/

namespace GhostApi.Inventory

open Js Validation Effect Storage

/-! ## Stored form -/

def time (ms : Int) : Json := .string (Date.toISOString ms)

def RecordProvenance.toJson (provenance : RecordProvenance) : Json :=
  .object [("sourceId", textOf provenance.sourceId), ("sourceType", .string provenance.sourceType.text),
    ("sourceName", textOf provenance.sourceName), ("importedAt", time provenance.importedAt),
    ("importedBy", textOf provenance.importedBy)]

def RecordFreshness.toJson (freshness : RecordFreshness) : Json :=
  .object [("firstSeenAt", time freshness.firstSeenAt), ("lastSeenAt", time freshness.lastSeenAt)]

/-- A stored record; some kinds carry the name of their kind. -/
def Stored.toJson {ι : Type} (kind : Option String) (members : ι → List (String × Json)) (stored : Stored ι) : Json :=
  .object ([("schemaVersion", .number 1)] ++ Json.optional "kind" (kind.map Json.string) ++
    [("tenantId", textOf stored.tenantId)] ++ members stored.record ++
    [("provenance", stored.provenance.toJson), ("freshness", stored.freshness.toJson)])

def AgentRecord.toJson : AgentRecord → Json := Stored.toJson (some "ghostapi.inventory-agent") (ImportedAgent.members orNull)

def ToolRecord.toJson : ToolRecord → Json := Stored.toJson none (ImportedTool.members orNull)

def IdentityRecord.toJson : IdentityRecord → Json :=
  Stored.toJson (some "ghostapi.inventory-identity") (ImportedIdentity.members orNull)

def ProviderRecord.toJson : ProviderRecord → Json :=
  Stored.toJson (some "ghostapi.inventory-provider") (ImportedProvider.members orNull)

def ResourceRecord.toJson : ResourceRecord → Json :=
  Stored.toJson (some "ghostapi.inventory-resource") (ImportedResource.members orNull)

def SideEffectRecord.toJson : SideEffectRecord → Json := Stored.toJson none ImportedSideEffect.members

def CredentialRecord.toJson : CredentialRecord → Json :=
  Stored.toJson (some "ghostapi.inventory-credential") (ImportedCredential.members orNull)

def PolicyRecord.toJson : PolicyRecord → Json := Stored.toJson (some "ghostapi.inventory-policy") ImportedPolicy.members

def ImportSourceRecord.toJson (record : ImportSourceRecord) : Json :=
  .object ([("tenantId", textOf record.tenantId)] ++ record.source.members ++
    [("firstSeenAt", time record.firstSeenAt), ("lastSeenAt", time record.lastSeenAt),
      ("lastDigest", textOf record.lastDigest)])

def RecordCounts.members (counts : RecordCounts) : List (String × Nat) :=
  [("agents", counts.agents), ("tools", counts.tools), ("identities", counts.identities), ("providers", counts.providers),
    ("resources", counts.resources), ("sideEffects", counts.sideEffects), ("credentials", counts.credentials),
    ("policies", counts.policies)]

def RecordCounts.toJson (counts : RecordCounts) : Json := .object (counts.members.map fun (key, n) => (key, .number n))

def ImportRunRecord.toJson (run : ImportRunRecord) : Json :=
  .object ([("schemaVersion", .number 1), ("kind", .string "ghostapi.inventory-import-run"),
    ("tenantId", textOf run.tenantId), ("runId", .string run.runId), ("importedAt", time run.importedAt),
    ("importedBy", textOf run.importedBy), ("source", .object run.source.members), ("digest", textOf run.digest),
    ("expectedPolicyHashes", .array (run.expectedPolicyHashes.val.map ExpectedPolicyHash.toJson))] ++
    Json.optional "counters" (run.counters.map ImportCounters.toJson) ++
    [("recordCounts", run.recordCounts.toJson), ("edgesCreated", .number run.edgesCreated),
      ("edgesRefreshed", .number run.edgesRefreshed), ("status", .string "completed")])

def GraphEdge.toJson (edge : GraphEdge) : Json :=
  .object [("tenantId", textOf edge.tenantId), ("edgeId", .string edge.edgeId), ("sourceKind", .string edge.sourceKind.text),
    ("sourceId", textOf edge.sourceId), ("targetKind", .string edge.targetKind.text), ("targetId", textOf edge.targetId),
    ("relation", .string edge.relation.text), ("provenance", edge.provenance.toJson), ("firstSeenAt", time edge.firstSeenAt),
    ("lastSeenAt", time edge.lastSeenAt)]

def FindingStatus.members : FindingStatus → List (String × Json)
  | .openFinding => [("status", .string "open")]
  | .resolved resolvedAt remediationId => [("status", .string "resolved")] ++
      Json.optional "resolvedAt" (resolvedAt.map time) ++ Json.optional "remediationId" (remediationId.map Json.string)

def FindingRecord.toJson (finding : FindingRecord) : Json :=
  .object ([("schemaVersion", .number 1), ("tenantId", textOf finding.tenantId), ("findingId", .string finding.findingId),
    ("kind", .string finding.kind.text), ("severity", .string finding.severity.text),
    ("targetKind", .string finding.targetKind.text), ("targetId", textOf finding.targetId),
    ("ruleId", .string finding.ruleId), ("reason", textOf finding.reason), ("basis", .string finding.basis.text),
    ("discoveredAt", time finding.discoveredAt)] ++ finding.status.members)

def RemediationResult.toJson (result : RemediationResult) : Json :=
  .object ([("description", textOf result.description)] ++
    Json.optional "reducedScopes" (result.reducedScopes.map fun reduced => names reduced.val) ++
    Json.optional "evalScenarioId" (result.evalScenarioId.map textOf) ++
    Json.optional "ownerId" (result.ownerId.map textOf))

def RemediationRecord.toJson (remediation : RemediationRecord) : Json :=
  .object ([("schemaVersion", .number 1), ("tenantId", textOf remediation.tenantId),
    ("remediationId", .string remediation.remediationId), ("findingId", .string remediation.findingId),
    ("kind", .string remediation.kind.text), ("targetKind", .string remediation.targetKind.text),
    ("targetId", textOf remediation.targetId), ("rationale", textOf remediation.rationale),
    ("proposedBy", textOf remediation.proposedBy), ("createdAt", time remediation.createdAt),
    ("status", .string remediation.status.text)] ++ Json.optional "appliedAt" (remediation.appliedAt.map time) ++
    Json.optional "result" (remediation.result.map RemediationResult.toJson))

def InventoryStoreState.toJson (state : InventoryStoreState) : Json :=
  .object [("schemaVersion", .number 1), ("kind", .string "ghostapi.inventory"),
    ("sources", .array (state.sources.map ImportSourceRecord.toJson)),
    ("importRuns", .array (state.importRuns.map ImportRunRecord.toJson)),
    ("agents", .array (state.agents.map AgentRecord.toJson)), ("tools", .array (state.tools.map ToolRecord.toJson)),
    ("identities", .array (state.identities.map IdentityRecord.toJson)),
    ("providers", .array (state.providers.map ProviderRecord.toJson)),
    ("resources", .array (state.resources.map ResourceRecord.toJson)),
    ("sideEffects", .array (state.sideEffects.map SideEffectRecord.toJson)),
    ("credentials", .array (state.credentials.map CredentialRecord.toJson)),
    ("policies", .array (state.policies.map PolicyRecord.toJson)),
    ("edges", .array (state.edges.map GraphEdge.toJson)),
    ("findings", .array (state.findings.map FindingRecord.toJson)),
    ("remediations", .array (state.remediations.map RemediationRecord.toJson))]

/-! ## Validators of a state -/

def validateProvenance (provenance : RecordProvenance) : Except JsError Unit :=
  stamp refuse provenance.importedAt "Provenance import time"

def validateFreshness (freshness : RecordFreshness) : Except JsError Unit := do
  stamp refuse freshness.firstSeenAt "Record first seen time"
  stamp refuse freshness.lastSeenAt "Record last seen time"

def validateSourceRecord (record : ImportSourceRecord) : Except JsError Unit := do
  stamp refuse record.firstSeenAt "Source first seen time"
  stamp refuse record.lastSeenAt "Source last seen time"

def countLimits : List (String × Nat) :=
  [("agent", 500), ("tool", 500), ("identity", 500), ("provider", 200), ("resource", 1000), ("side effect", 2000),
    ("credential", 500), ("policy", 100)]

def validateCount (n : Nat) (label : String) (max : Nat) : Except JsError Unit :=
  failIf (max < n) (refuse (label ++ " is invalid."))

def validateImportRunRecord (run : ImportRunRecord) : Except JsError Unit := do
  failIf (run.source.sourceType = .config ∧ run.counters.isSome)
    (refuse "Counters are only allowed for ci, gateway, or cloud imports.")
  checkIdentifier refuse run.runId "Import run id"
  stamp refuse run.importedAt "Import run time"
  (run.recordCounts.members.zip countLimits).forM fun ((_, n), (name, max)) =>
    validateCount n ("Import run " ++ name ++ " count") max
  validateCount run.edgesCreated "Import run edges created" MAX_EDGES
  validateCount run.edgesRefreshed "Import run edges refreshed" MAX_EDGES

def validateStored {ι : Type} (stored : Stored ι) : Except JsError Unit := do
  validateProvenance stored.provenance
  validateFreshness stored.freshness

def validateEdge (edge : GraphEdge) : Except JsError Unit := do
  checkIdentifier refuse edge.edgeId "Edge id"
  validateProvenance edge.provenance
  stamp refuse edge.firstSeenAt "Edge first seen time"
  stamp refuse edge.lastSeenAt "Edge last seen time"

def checkText (max : Nat) (s label : String) : Except JsError Unit :=
  if acceptsText max s then .ok () else .error (refuse (label ++ " is invalid."))

def validateFindingStatus : FindingStatus → Except JsError Unit
  | .openFinding => .ok ()
  | .resolved resolvedAt remediationId => do
    resolvedAt.toList.forM fun ms => stamp refuse ms "Finding resolved time"
    remediationId.toList.forM fun id => checkIdentifier refuse id "Finding remediation id"

def validateFindingRecord (finding : FindingRecord) : Except JsError Unit := do
  checkIdentifier refuse finding.findingId "Finding id"
  checkIdentifier refuse finding.ruleId "Finding rule id"
  checkText 400 finding.reason.val "Finding reason"
  stamp refuse finding.discoveredAt "Finding discovery time"
  validateFindingStatus finding.status

def validateRemediationRecord (remediation : RemediationRecord) : Except JsError Unit := do
  remediation.result.toList.forM fun result => checkText 400 result.description.val "Remediation result description"
  checkIdentifier refuse remediation.remediationId "Remediation id"
  checkIdentifier refuse remediation.findingId "Remediation finding id"
  stamp refuse remediation.createdAt "Remediation creation time"
  remediation.appliedAt.toList.forM fun ms => stamp refuse ms "Remediation applied time"

def validateAll {α : Type} (check : α → Except JsError Unit) (items : List α) (label : String) (max : Nat) :
    Except JsError Unit := do
  atMost refuse items label max
  items.forM check

def checkState (state : InventoryStoreState) : Except JsError Unit := do
  validateAll validateSourceRecord state.sources "import sources" MAX_SOURCES
  validateAll validateImportRunRecord state.importRuns "import runs" MAX_IMPORTS
  validateAll validateStored state.agents "agents" MAX_AGENTS
  validateAll validateStored state.tools "tools" MAX_TOOLS
  validateAll validateStored state.identities "identities" MAX_IDENTITIES
  validateAll validateStored state.providers "providers" MAX_PROVIDERS
  validateAll validateStored state.resources "resources" MAX_RESOURCES
  validateAll validateStored state.sideEffects "side effects" MAX_SIDE_EFFECTS
  validateAll validateStored state.credentials "credentials" MAX_CREDENTIALS
  validateAll validateStored state.policies "policies" MAX_POLICIES
  validateAll validateEdge state.edges "graph edges" MAX_EDGES
  validateAll validateFindingRecord state.findings "findings" MAX_FINDINGS
  validateAll validateRemediationRecord state.remediations "remediations" MAX_REMEDIATIONS

def validateState (state : InventoryStoreState) : Except JsError InventoryStoreState := do
  checkState state
  return state

def format : StoreFormat InventoryStoreState where
  empty := emptyInventoryState
  toJson := InventoryStoreState.toJson
  maxBytes := MAX_STORE_BYTES
  validate := validateState
  oversized := refuse "Inventory store exceeds its size limit."
  invalidClock := refuse "Inventory clock is invalid."

def ValidState (state : InventoryStoreState) : Prop := checkState state = .ok ()

theorem format_accepts : format.Accepts ValidState := by
  intro state state'
  constructor
  · intro h
    obtain ⟨_, hCheck, hPure⟩ := bind_eq_ok h
    cases hPure
    exact ⟨hCheck, rfl⟩
  · rintro ⟨hCheck, rfl⟩
    change (checkState state >>= _) = _
    rw [hCheck]
    rfl

/-- An operation whose changes are dropped when it throws. -/
def attempt {α : Type} (operation : InventoryStoreState → Except JsError (α × InventoryStoreState)) :
    Mutation InventoryStoreState JsError α := fun state => match operation state with
  | .ok (result, after) => (.ok result, after)
  | .error e => (.error e, state)

theorem attempt_ok {α : Type} {operation : InventoryStoreState → Except JsError (α × InventoryStoreState)}
    {state after : InventoryStoreState} {result : α} (h : attempt operation state = (.ok result, after)) :
    operation state = .ok (result, after) := by
  rw [attempt] at h
  split at h
  · cases h
    assumption
  · cases h

theorem update_attempt {α : Type} {operation : InventoryStoreState → Except JsError (α × InventoryStoreState)}
    {store : Option InventoryStoreState} {after : InventoryStoreState} {result : α}
    (h : format.update (attempt operation) store = .ok (result, after)) :
    operation (store.getD emptyInventoryState) = .ok (result, after) ∧ ValidState after := by
  obtain ⟨hRun, hValid⟩ := format_accepts.update_ok h
  exact ⟨attempt_ok hRun, hValid⟩

end GhostApi.Inventory
