import GhostApi.Inventory.Graph
import GhostApi.Inventory.Store
import GhostApi.Lib.Latest
import GhostApi.Reliability.Reconciliation

/-!
# Imports

An import merges the records of a payload into those of the tenant, checks
that all references of the tenant are known, declares the links of the merged
records as edges, drops stale edges and keeps a run. Whether an edge is new is
decided against the edges from before the import.
-/

namespace GhostApi.Inventory

open Js Validation Effect Storage
open Reliability (uuidName)

/-! ## Operators -/

inductive InventoryOperatorPermission
  | importPermission
  | inspect
  | analyze
  | remediate
  | export
  deriving DecidableEq

def InventoryOperatorPermission.all : List InventoryOperatorPermission :=
  [.importPermission, .inspect, .analyze, .remediate, .export]

def InventoryOperatorPermission.text : InventoryOperatorPermission → String
  | .importPermission => "inventory.import"
  | .inspect => "inventory.inspect"
  | .analyze => "inventory.analyze"
  | .remediate => "inventory.remediate"
  | .export => "inventory.export"

structure InventoryOperator where
  id : Identifier
  principalId : Identifier
  tenantId : Identifier
  permissions : List InventoryOperatorPermission

def validateOperator (value : JsValue) : Except JsError InventoryOperator := do
  let operator ← object refuse value "Inventory operator is invalid."
  exactKeys refuse operator ["id", "principalId", "tenantId", "permissions"] "inventory operator" []
  let items ← array refuse (operator.get "permissions") "inventory operator permissions" 8
  let permissions ← items.mapM fun item => enumerated refuse InventoryOperatorPermission.all
    InventoryOperatorPermission.text item "Inventory operator permission is invalid."
  unique refuse (permissions.map (·.text)) "inventory operator permissions"
  return {
    id := ← identifier refuse (operator.get "id") "Inventory operator id"
    principalId := ← identifier refuse (operator.get "principalId") "Inventory operator principal id"
    tenantId := ← identifier refuse (operator.get "tenantId") "Inventory operator tenant id"
    permissions }

/-- The operator of an identity; authenticate is the answer of the authorizer. -/
def authorize (authenticate : Except JsError JsValue) (permission : InventoryOperatorPermission) :
    Except JsError InventoryOperator := do
  let operator ← validateOperator (← authenticate)
  failIf (permission ∉ operator.permissions)
    (refuse ("Inventory operator lacks required permission: " ++ permission.text ++ "."))
  return operator

structure InventoryControllerOptions where
  freshnessDays : InventoryFreshnessDays
  evalScenarioExists : Option (Identifier → Bool)

/-! ## Merging -/

def buildRecordProvenance (source : ImportSource) (importedAt : Int) (importedBy : Identifier) : RecordProvenance :=
  ⟨source.sourceId, source.sourceType, source.sourceName, importedAt, importedBy⟩

def merge {ι : Type} [InventoryRecord ι] (kind : String) (limit : Nat) (tenantId : Identifier)
    (provenance : RecordProvenance) (list : List (Stored ι)) (record : ι) : Except JsError (List (Stored ι)) :=
  let now := provenance.importedAt
  match findRecord tenantId (InventoryRecord.id record) list with
  | none => if limit ≤ list.length then .error (refuse (kind ++ " record limit was reached."))
    else .ok (list ++ [⟨tenantId, record, provenance, ⟨now, now⟩⟩])
  | some prior => .ok (Table.upsert (Stored.isRecord tenantId (InventoryRecord.id record))
      ⟨tenantId, record, provenance, ⟨prior.freshness.firstSeenAt, now⟩⟩ list)

section Upserts

variable (tenantId : Identifier) (provenance : RecordProvenance)

def upsertAgent : List AgentRecord → ImportedAgent → Except JsError (List AgentRecord) :=
  merge "agent" MAX_AGENTS tenantId provenance

def upsertTool : List ToolRecord → ImportedTool → Except JsError (List ToolRecord) :=
  merge "tool" MAX_TOOLS tenantId provenance

def upsertIdentity : List IdentityRecord → ImportedIdentity → Except JsError (List IdentityRecord) :=
  merge "identity" MAX_IDENTITIES tenantId provenance

def upsertProvider : List ProviderRecord → ImportedProvider → Except JsError (List ProviderRecord) :=
  merge "provider" MAX_PROVIDERS tenantId provenance

def upsertResource : List ResourceRecord → ImportedResource → Except JsError (List ResourceRecord) :=
  merge "resource" MAX_RESOURCES tenantId provenance

def upsertSideEffect : List SideEffectRecord → ImportedSideEffect → Except JsError (List SideEffectRecord) :=
  merge "side_effect" MAX_SIDE_EFFECTS tenantId provenance

def upsertCredential : List CredentialRecord → ImportedCredential → Except JsError (List CredentialRecord) :=
  merge "credential" MAX_CREDENTIALS tenantId provenance

def upsertPolicy : List PolicyRecord → ImportedPolicy → Except JsError (List PolicyRecord) :=
  merge "policy" MAX_POLICIES tenantId provenance

end Upserts

def ImportSourceRecord.isSource (tenantId sourceId : Identifier) (record : ImportSourceRecord) : Bool :=
  decide (record.tenantId = tenantId) && decide (record.source.sourceId = sourceId)

def upsertSource (tenantId : Identifier) (payload : InventoryImportPayload) (now : Int)
    (sources : List ImportSourceRecord) : Except JsError (List ImportSourceRecord) :=
  let same := ImportSourceRecord.isSource tenantId payload.source.sourceId
  match sources.find? same with
  | none => if MAX_SOURCES ≤ sources.length then .error (refuse "Import source limit was reached.")
    else .ok (sources ++ [⟨tenantId, payload.source, now, now, canonicalPayloadDigest payload⟩])
  | some existing => .ok (Table.upsert same
      { existing with
        source := { existing.source with sourceVersion := payload.source.sourceVersion.or existing.source.sourceVersion }
        lastSeenAt := now
        lastDigest := canonicalPayloadDigest payload } sources)

/-- The records of a state after those of a payload were merged. -/
def mergeRecords (tenantId : Identifier) (provenance : RecordProvenance) (payload : InventoryImportPayload)
    (state : InventoryStoreState) : Except JsError InventoryStoreState := do
  let agents ← payload.agents.val.foldlM (upsertAgent tenantId provenance) state.agents
  let tools ← payload.tools.val.foldlM (upsertTool tenantId provenance) state.tools
  let identities ← payload.identities.val.foldlM (upsertIdentity tenantId provenance) state.identities
  let providers ← payload.providers.val.foldlM (upsertProvider tenantId provenance) state.providers
  let resources ← payload.resources.val.foldlM (upsertResource tenantId provenance) state.resources
  let sideEffects ← payload.sideEffects.val.foldlM (upsertSideEffect tenantId provenance) state.sideEffects
  let credentials ← payload.credentials.val.foldlM (upsertCredential tenantId provenance) state.credentials
  let policies ← payload.policies.val.foldlM (upsertPolicy tenantId provenance) state.policies
  return { state with agents, tools, identities, providers, resources, sideEffects, credentials, policies }

/-! ## References -/

structure Reference where
  kind : String
  id : Identifier
  known : Bool

def checkReferences {ι : Type} [InventoryRecord ι] (tenantId : Identifier) (label : String)
    (references : ι → List Reference) (records : List (Stored ι)) : Except JsError Unit :=
  (ofTenant tenantId records).forM fun stored => (references stored.record).forM fun reference =>
    failIf (reference.known = false) (refuse (label ++ " " ++ stored.id.val ++ " references unknown " ++ reference.kind ++
      " " ++ reference.id.val ++ "."))

section References

variable (state : InventoryStoreState) (tenantId : Identifier) (payload : InventoryImportPayload)

def has {ι : Type} [InventoryRecord ι] (imported : List ι) (stored : List (Stored ι)) (id : Identifier) : Bool :=
  imported.any (fun record => decide (InventoryRecord.id record = id)) || stored.any (Stored.isRecord tenantId id)

def validateCrossReferences : Except JsError Unit := do
  let hasIdentity := has tenantId payload.identities.val state.identities
  let hasTool := has tenantId payload.tools.val state.tools
  let hasProvider := has tenantId payload.providers.val state.providers
  let hasCredential := has tenantId payload.credentials.val state.credentials
  let hasResource := has tenantId payload.resources.val state.resources
  let hasSideEffect := has tenantId payload.sideEffects.val state.sideEffects
  let refer (kind : String) (known : Identifier → Bool) (id : Identifier) : Reference := ⟨kind, id, known id⟩
  checkReferences tenantId "Agent" (fun agent => agent.identityIds.val.map (refer "identity" hasIdentity)) state.agents
  checkReferences tenantId "Identity" (fun identity => identity.toolIds.val.map (refer "tool" hasTool)) state.identities
  checkReferences tenantId "Tool" (fun tool => tool.providerId.toList.map (refer "provider" hasProvider) ++
    tool.credentialIds.val.map (refer "credential" hasCredential)) state.tools
  checkReferences tenantId "Provider" (fun provider => provider.resourceIds.val.map (refer "resource" hasResource))
    state.providers
  checkReferences tenantId "Resource" (fun resource => resource.sideEffectIds.val.map (refer "side effect" hasSideEffect))
    state.resources
  checkReferences tenantId "Side effect" (fun sideEffect => [refer "resource" hasResource sideEffect.resourceId])
    state.sideEffects
  checkReferences tenantId "Credential" (fun credential => refer "provider" hasProvider credential.providerId ::
    credential.toolIds.val.map (refer "tool" hasTool)) state.credentials

end References

/-! ## Edges -/

structure Link where
  sourceKind : NodeKind
  sourceId : Identifier
  targetKind : NodeKind
  targetId : Identifier
  relation : EdgeRelation
  deriving DecidableEq

def Link.text (link : Link) : String :=
  link.sourceKind.text ++ ":" ++ link.sourceId.val ++ ":" ++ link.targetKind.text ++ ":" ++ link.targetId.val ++ ":" ++
    link.relation.text

def edgeIdFor (link : Link) : String := "edge-" ++ String.ofList ((sha256 link.text).toList.take 40)

def GraphEdge.link (edge : GraphEdge) : Link :=
  ⟨edge.sourceKind, edge.sourceId, edge.targetKind, edge.targetId, edge.relation⟩

/-- The links that a record declares. -/
class Linked (ι : Type) where
  links : ι → List Link

instance : Linked ImportedAgent where
  links agent := agent.identityIds.val.map fun id => ⟨.agent, agent.agentId, .identity, id, .owns⟩

instance : Linked ImportedIdentity where
  links identity := identity.toolIds.val.map fun id => ⟨.identity, identity.identityId, .tool, id, .uses⟩

instance : Linked ImportedTool where
  links tool := tool.providerId.toList.map (fun id => ⟨.tool, tool.toolId, .provider, id, .connects⟩) ++
    tool.credentialIds.val.map fun id => ⟨.tool, tool.toolId, .credential, id, .requires⟩

instance : Linked ImportedProvider where
  links provider := provider.resourceIds.val.map fun id => ⟨.provider, provider.providerId, .resource, id, .exposes⟩

instance : Linked ImportedResource where
  links resource := resource.sideEffectIds.val.map fun id => ⟨.resource, resource.resourceId, .sideEffect, id, .permits⟩

/-- The links of the stored records of some imported ones. -/
def linksOf {ι : Type} [InventoryRecord ι] [Linked ι] (tenantId : Identifier) (imported : List ι) (stored : List (Stored ι)) :
    List Link :=
  imported.flatMap fun input => match findRecord tenantId (InventoryRecord.id input) stored with
    | none => []
    | some found => Linked.links found.record

/-- The links in the order in which edges are applied for them. -/
def declaredLinks (state : InventoryStoreState) (tenantId : Identifier) (payload : InventoryImportPayload) : List Link :=
  linksOf tenantId payload.agents.val state.agents ++ linksOf tenantId payload.tools.val state.tools ++
    linksOf tenantId payload.identities.val state.identities ++ linksOf tenantId payload.providers.val state.providers ++
    linksOf tenantId payload.resources.val state.resources

structure ImportOutcome where
  edges : List GraphEdge
  edgesCreated : Nat
  edgesRefreshed : Nat

def newEdge (tenantId : Identifier) (provenance : RecordProvenance) (link : Link) : GraphEdge where
  tenantId
  edgeId := edgeIdFor link
  sourceKind := link.sourceKind
  sourceId := link.sourceId
  targetKind := link.targetKind
  targetId := link.targetId
  relation := link.relation
  provenance
  firstSeenAt := provenance.importedAt
  lastSeenAt := provenance.importedAt

def refresh (edgeId : String) (now : Int) (edge : GraphEdge) : GraphEdge :=
  if edge.edgeId = edgeId then { edge with lastSeenAt := now } else edge

/-- apply of upsertEdges; before is the snapshot from before the import. -/
def applyLink (tenantId : Identifier) (provenance : RecordProvenance) (before : List GraphEdge) (outcome : ImportOutcome)
    (link : Link) : ImportOutcome :=
  if before.any (fun edge => decide (edge.edgeId = edgeIdFor link)) then
    ⟨outcome.edges.map (refresh (edgeIdFor link) provenance.importedAt), outcome.edgesCreated, outcome.edgesRefreshed + 1⟩
  else ⟨outcome.edges ++ [newEdge tenantId provenance link], outcome.edgesCreated + 1, outcome.edgesRefreshed⟩

def upsertEdges (tenantId : Identifier) (provenance : RecordProvenance) (before : List GraphEdge) (links : List Link) :
    ImportOutcome :=
  links.foldl (applyLink tenantId provenance before) ⟨before, 0, 0⟩

def pruneStaleEdges (freshnessDays : InventoryFreshnessDays) (tenantId : Identifier) (now : Int) (edges : List GraphEdge) :
    List GraphEdge :=
  edges.filter fun edge => decide (edge.tenantId ≠ tenantId) ||
    decide (now - freshnessDays.edgeStaleDays * DAY_MS ≤ edge.lastSeenAt)

def assertStoreBounds (state : InventoryStoreState) : Except JsError Unit := do
  failIf (MAX_EDGES < state.edges.length) (refuse "Inventory graph edge limit was reached.")
  failIf (MAX_FINDINGS < state.findings.length) (refuse "Inventory finding limit was reached.")

/-- The oldest runs of the tenant beyond the limit are dropped. -/
def rotateImportRuns (tenantId : Identifier) (runs : List ImportRunRecord) : List ImportRunRecord :=
  let tenantRuns := runs.filter fun run => decide (run.tenantId = tenantId)
  if tenantRuns.length ≤ MAX_IMPORTS then runs
  else
    let sorted := Latest.sortByTime ImportRunRecord.importedAt tenantRuns
    let oldestRunIds := (sorted.take (tenantRuns.length - MAX_IMPORTS)).map (·.runId)
    runs.filter fun run => !oldestRunIds.contains run.runId

/-! ## The operation -/

structure ImportSummary where
  runId : String
  importedAt : Int
  digest : Hash
  recordCounts : RecordCounts
  edgesCreated : Nat
  edgesRefreshed : Nat

def recordCounts (payload : InventoryImportPayload) : RecordCounts where
  agents := payload.agents.val.length
  tools := payload.tools.val.length
  identities := payload.identities.val.length
  providers := payload.providers.val.length
  resources := payload.resources.val.length
  sideEffects := payload.sideEffects.val.length
  credentials := payload.credentials.val.length
  policies := payload.policies.val.length

def importRun (operator : InventoryOperator) (payload : InventoryImportPayload) (now : Int) (runId : String)
    (outcome : ImportOutcome) : ImportRunRecord where
  tenantId := operator.tenantId
  runId
  importedAt := now
  importedBy := operator.principalId
  source := payload.source
  digest := canonicalPayloadDigest payload
  expectedPolicyHashes := payload.expectedPolicyHashes
  counters := payload.counters
  recordCounts := recordCounts payload
  edgesCreated := outcome.edgesCreated
  edgesRefreshed := outcome.edgesRefreshed

def importSummary (run : ImportRunRecord) : ImportSummary :=
  ⟨run.runId, run.importedAt, run.digest, run.recordCounts, run.edgesCreated, run.edgesRefreshed⟩

section Operation

variable (options : InventoryControllerOptions) (operator : InventoryOperator) (payload : InventoryImportPayload) (now : Int)

/-- The edges after an import, before stale ones are dropped. -/
def importEdges (merged : InventoryStoreState) : ImportOutcome :=
  upsertEdges operator.tenantId (buildRecordProvenance payload.source now operator.principalId) merged.edges
    (declaredLinks merged operator.tenantId payload)

def importOp (runId : String) (state : InventoryStoreState) : Except JsError (ImportSummary × InventoryStoreState) := do
  let sources ← upsertSource operator.tenantId payload now state.sources
  let provenance := buildRecordProvenance payload.source now operator.principalId
  let merged ← mergeRecords operator.tenantId provenance payload { state with sources }
  validateCrossReferences merged operator.tenantId payload
  let outcome := importEdges operator payload now merged
  let edges := pruneStaleEdges options.freshnessDays operator.tenantId now outcome.edges
  assertStoreBounds { merged with edges }
  let run := importRun operator payload now runId outcome
  let importRuns := rotateImportRuns operator.tenantId (merged.importRuns ++ [run])
  return (importSummary run, { merged with edges, importRuns })

end Operation

structure ImportInput where
  authenticate : Except JsError JsValue
  payload : JsValue
  now : Option Int
  uuid : String

def importInventory (options : InventoryControllerOptions) (input : ImportInput) (store : Option InventoryStoreState) :
    Except JsError (ImportSummary × InventoryStoreState) := do
  let operator ← authorize input.authenticate .importPermission
  let payload ← validateImportPayload input.payload
  let now ← format.timestamp input.now
  format.update (attempt (importOp options operator payload now (uuidName "import-" input.uuid))) store

end GhostApi.Inventory
