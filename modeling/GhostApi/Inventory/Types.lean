import GhostApi.Storage.JsonStore
import GhostApi.Validation

/-!
# The inventory store

Agents, the identities they own, the tools these use, the providers, resources
and side effects behind the tools, and what the store keeps about them: edges,
findings, remediations and import runs. A stored record is an imported one
with its tenant, its provenance and the times at which it was seen.
-/

namespace GhostApi.Inventory

open Js Validation Effect Storage

def InventoryError (message : String) : JsError := ⟨"InventoryError", message, none⟩

abbrev refuse : String → JsError := InventoryError

/-! ## Limits -/

def MAX_STORE_BYTES : Nat := 8 * 1024 * 1024

def MAX_SOURCES : Nat := 64

def MAX_IMPORTS : Nat := 256

def MAX_AGENTS : Nat := 500

def MAX_TOOLS : Nat := 500

def MAX_IDENTITIES : Nat := 500

def MAX_PROVIDERS : Nat := 200

def MAX_RESOURCES : Nat := 1000

def MAX_SIDE_EFFECTS : Nat := 2000

def MAX_CREDENTIALS : Nat := 500

def MAX_POLICIES : Nat := 100

def MAX_EDGES : Nat := 6000

def MAX_FINDINGS : Nat := 3000

def MAX_REMEDIATIONS : Nat := 1000

def MAX_REFERENCES_PER_RECORD : Nat := 64

def MAX_SCOPES_PER_RECORD : Nat := 32

/-! ## Enumerations -/

inductive ImportSourceType
  | config
  | ci
  | gateway
  | cloud
  deriving DecidableEq

def ImportSourceType.all : List ImportSourceType := [.config, .ci, .gateway, .cloud]

def ImportSourceType.text : ImportSourceType → String
  | .config => "config"
  | .ci => "ci"
  | .gateway => "gateway"
  | .cloud => "cloud"

inductive ToolKind
  | mcpServer
  | sdkClient
  | httpClient
  deriving DecidableEq

def ToolKind.all : List ToolKind := [.mcpServer, .sdkClient, .httpClient]

def ToolKind.text : ToolKind → String
  | .mcpServer => "mcp_server"
  | .sdkClient => "sdk_client"
  | .httpClient => "http_client"

inductive IdentityRole
  | serviceAccount
  | user
  | workload
  deriving DecidableEq

def IdentityRole.all : List IdentityRole := [.serviceAccount, .user, .workload]

def IdentityRole.text : IdentityRole → String
  | .serviceAccount => "service_account"
  | .user => "user"
  | .workload => "workload"

inductive SideEffectKind
  | read
  | create
  | update
  | communicate
  | moneyMovement
  | delete
  | permissionChange
  | deployment
  deriving DecidableEq

def SideEffectKind.all : List SideEffectKind :=
  [.read, .create, .update, .communicate, .moneyMovement, .delete, .permissionChange, .deployment]

def SideEffectKind.text : SideEffectKind → String
  | .read => "read"
  | .create => "create"
  | .update => "update"
  | .communicate => "communicate"
  | .moneyMovement => "money_movement"
  | .delete => "delete"
  | .permissionChange => "permission_change"
  | .deployment => "deployment"

/-- IMPACT_SEVERITIES and FINDING_SEVERITIES name the same four. -/
inductive Severity
  | low
  | medium
  | high
  | critical
  deriving DecidableEq

def Severity.all : List Severity := [.low, .medium, .high, .critical]

def Severity.text : Severity → String
  | .low => "low"
  | .medium => "medium"
  | .high => "high"
  | .critical => "critical"

inductive EdgeRelation
  | owns
  | uses
  | connects
  | exposes
  | permits
  | requires
  deriving DecidableEq

def EdgeRelation.text : EdgeRelation → String
  | .owns => "owns"
  | .uses => "uses"
  | .connects => "connects"
  | .exposes => "exposes"
  | .permits => "permits"
  | .requires => "requires"

inductive NodeKind
  | agent
  | identity
  | tool
  | provider
  | resource
  | sideEffect
  | credential
  deriving DecidableEq

def NodeKind.text : NodeKind → String
  | .agent => "agent"
  | .identity => "identity"
  | .tool => "tool"
  | .provider => "provider"
  | .resource => "resource"
  | .sideEffect => "side_effect"
  | .credential => "credential"

inductive TargetKind
  | node (kind : NodeKind)
  | environment
  | policy
  deriving DecidableEq

def TargetKind.all : List TargetKind :=
  [.node .agent, .node .identity, .node .tool, .node .provider, .node .resource, .node .sideEffect,
    .node .credential, .environment, .policy]

def TargetKind.text : TargetKind → String
  | .node kind => kind.text
  | .environment => "environment"
  | .policy => "policy"

inductive FindingKind
  | orphanedAgents
  | staleUnusedCredentials
  | excessivePermissions
  | unownedProductionIntegrations
  | agentsOutsideGateway
  | missingKillSwitch
  | missingEvidence
  | policyDrift
  deriving DecidableEq

def FindingKind.text : FindingKind → String
  | .orphanedAgents => "orphaned_agents"
  | .staleUnusedCredentials => "stale_unused_credentials"
  | .excessivePermissions => "excessive_permissions"
  | .unownedProductionIntegrations => "unowned_production_integrations"
  | .agentsOutsideGateway => "agents_outside_gateway"
  | .missingKillSwitch => "missing_kill_switch"
  | .missingEvidence => "missing_evidence"
  | .policyDrift => "policy_drift"

inductive FindingBasis
  | evidence
  | heuristic
  deriving DecidableEq

def FindingBasis.text : FindingBasis → String
  | .evidence => "evidence"
  | .heuristic => "heuristic"

inductive RemediationKind
  | assignOwner
  | reduceScope
  | revoke
  | onboardThroughGateway
  | createEval
  deriving DecidableEq

def RemediationKind.all : List RemediationKind :=
  [.assignOwner, .reduceScope, .revoke, .onboardThroughGateway, .createEval]

def RemediationKind.text : RemediationKind → String
  | .assignOwner => "assign_owner"
  | .reduceScope => "reduce_scope"
  | .revoke => "revoke"
  | .onboardThroughGateway => "onboard_through_gateway"
  | .createEval => "create_eval"

inductive RemediationStatus
  | proposed
  | applied
  | rejected
  | expired
  deriving DecidableEq

def RemediationStatus.text : RemediationStatus → String
  | .proposed => "proposed"
  | .applied => "applied"
  | .rejected => "rejected"
  | .expired => "expired"

inductive CredentialStatus
  | active
  | revoked
  deriving DecidableEq

def CredentialStatus.all : List CredentialStatus := [.active, .revoked]

def CredentialStatus.text : CredentialStatus → String
  | .active => "active"
  | .revoked => "revoked"

/-! ## Imported records -/

/-- SCOPE_IDENTIFIER = /^[a-z0-9][a-z0-9._:\-]{0,127}$/ -/
def matchesScope (s : String) : Bool := match s.toList with
  | [] => false
  | c :: cs => isIdentifierStart c && cs.all (fun c => isIdentifierChar c || c == ':') && cs.length ≤ 127

def isScope (s : String) : Bool := matchesScope s && Security.sanitizeSecretString s == s

abbrev Scope := { s : String // isScope s = true }

/-- A list of a bounded length; nothing forbids that it repeats itself. -/
abbrev Several (max : Nat) (α : Type) := { items : List α // items.length ≤ max }

abbrev References := Several MAX_REFERENCES_PER_RECORD Identifier

abbrev Environments := Several 16 Identifier

abbrev Scopes := Several MAX_SCOPES_PER_RECORD Scope

structure ImportedAgent where
  agentId : Identifier
  name : Text 160
  ownerId : Option Identifier
  businessPurpose : Option (Text 240)
  model : Option (Text 120)
  runtime : Option (Text 120)
  version : Option (Text 64)
  identityIds : References
  environmentIds : Environments
  gatewayManaged : Bool
  killSwitchEnabled : Bool
  lastEvidenceAt : Option Timestamp

structure ImportedTool where
  toolId : Identifier
  name : Text 160
  kind : ToolKind
  providerId : Option Identifier
  requiredScopes : Scopes
  credentialIds : References

structure ImportedIdentity where
  identityId : Identifier
  principalId : Identifier
  role : IdentityRole
  agentId : Option Identifier
  toolIds : References
  environmentIds : Environments
  scopes : Scopes

structure ImportedProvider where
  providerId : Identifier
  name : Text 160
  providerType : Text 120
  ownerId : Option Identifier
  environmentIds : Environments
  resourceIds : References
  gatewayBound : Bool
  killSwitchApplied : Bool

structure ImportedResource where
  resourceId : Identifier
  providerId : Identifier
  resourceType : Text 120
  name : Text 160
  environmentIds : Environments
  sensitive : Bool
  ownerId : Option Identifier
  businessPurpose : Option (Text 240)
  sideEffectIds : References

structure ImportedSideEffect where
  sideEffectId : Identifier
  resourceId : Identifier
  kind : SideEffectKind
  severity : Severity

structure ImportedCredential where
  credentialId : Identifier
  name : Text 160
  providerId : Identifier
  ownerId : Option Identifier
  environmentIds : Environments
  grantScopes : Scopes
  toolIds : References
  status : CredentialStatus
  issuedAt : Timestamp
  lastUsedAt : Option Timestamp
  rotatedAt : Option Timestamp
  gatewayBound : Bool

structure ImportedPolicy where
  policyId : Identifier
  name : Text 160
  version : Text 64
  hash : Hash
  environmentIds : Environments

/-! ## Stored records -/

structure RecordProvenance where
  sourceId : Identifier
  sourceType : ImportSourceType
  sourceName : Text 120
  importedAt : Int
  importedBy : Identifier

structure RecordFreshness where
  firstSeenAt : Int
  lastSeenAt : Int

structure Stored (ι : Type) where
  tenantId : Identifier
  record : ι
  provenance : RecordProvenance
  freshness : RecordFreshness

abbrev AgentRecord := Stored ImportedAgent

abbrev ToolRecord := Stored ImportedTool

abbrev IdentityRecord := Stored ImportedIdentity

abbrev ProviderRecord := Stored ImportedProvider

abbrev ResourceRecord := Stored ImportedResource

abbrev SideEffectRecord := Stored ImportedSideEffect

abbrev CredentialRecord := Stored ImportedCredential

abbrev PolicyRecord := Stored ImportedPolicy

structure GraphEdge where
  tenantId : Identifier
  edgeId : String
  sourceKind : NodeKind
  sourceId : Identifier
  targetKind : NodeKind
  targetId : Identifier
  relation : EdgeRelation
  provenance : RecordProvenance
  firstSeenAt : Int
  lastSeenAt : Int

abbrev Sentence := { s : String // trim s = s }

/-- The status of a finding; resolved with a time, and with the remediation where one is known. -/
inductive FindingStatus
  | openFinding
  | resolved (resolvedAt : Option Int) (remediationId : Option String)
  deriving DecidableEq

structure FindingRecord where
  tenantId : Identifier
  findingId : String
  kind : FindingKind
  severity : Severity
  targetKind : TargetKind
  targetId : Identifier
  ruleId : String
  reason : Sentence
  basis : FindingBasis
  discoveredAt : Int
  status : FindingStatus

structure RemediationResult where
  description : Sentence
  reducedScopes : Option Scopes
  evalScenarioId : Option Identifier
  ownerId : Option Identifier

structure RemediationRecord where
  tenantId : Identifier
  remediationId : String
  findingId : String
  kind : RemediationKind
  targetKind : TargetKind
  targetId : Identifier
  rationale : Text 400
  proposedBy : Identifier
  createdAt : Int
  status : RemediationStatus
  appliedAt : Option Int
  result : Option RemediationResult

structure ImportSource where
  sourceId : Identifier
  sourceType : ImportSourceType
  sourceName : Text 120
  sourceVersion : Option (Text 64)

structure ImportSourceRecord where
  tenantId : Identifier
  source : ImportSource
  firstSeenAt : Int
  lastSeenAt : Int
  lastDigest : Hash

structure ExpectedPolicyHash where
  environmentId : Identifier
  policyHash : Hash

abbrev Counter := Bounded 9999999999

structure ImportCounters where
  preventedEgressAttempts : Option Counter
  reviewTimeMinutes : Option Counter
  meanTimeToContainMinutes : Option Counter

structure RecordCounts where
  agents : Nat
  tools : Nat
  identities : Nat
  providers : Nat
  resources : Nat
  sideEffects : Nat
  credentials : Nat
  policies : Nat

structure ImportRunRecord where
  tenantId : Identifier
  runId : String
  importedAt : Int
  importedBy : Identifier
  source : ImportSource
  digest : Hash
  expectedPolicyHashes : Several 64 ExpectedPolicyHash
  counters : Option ImportCounters
  recordCounts : RecordCounts
  edgesCreated : Nat
  edgesRefreshed : Nat

structure InventoryStoreState where
  sources : List ImportSourceRecord
  importRuns : List ImportRunRecord
  agents : List AgentRecord
  tools : List ToolRecord
  identities : List IdentityRecord
  providers : List ProviderRecord
  resources : List ResourceRecord
  sideEffects : List SideEffectRecord
  credentials : List CredentialRecord
  policies : List PolicyRecord
  edges : List GraphEdge
  findings : List FindingRecord
  remediations : List RemediationRecord

def emptyInventoryState : InventoryStoreState := ⟨[], [], [], [], [], [], [], [], [], [], [], [], []⟩

/-! ## Lookup -/

/-- The identifier of a record among those of its kind. -/
class InventoryRecord (ι : Type) where
  id : ι → Identifier

instance : InventoryRecord ImportedAgent := ⟨ImportedAgent.agentId⟩

instance : InventoryRecord ImportedTool := ⟨ImportedTool.toolId⟩

instance : InventoryRecord ImportedIdentity := ⟨ImportedIdentity.identityId⟩

instance : InventoryRecord ImportedProvider := ⟨ImportedProvider.providerId⟩

instance : InventoryRecord ImportedResource := ⟨ImportedResource.resourceId⟩

instance : InventoryRecord ImportedSideEffect := ⟨ImportedSideEffect.sideEffectId⟩

instance : InventoryRecord ImportedCredential := ⟨ImportedCredential.credentialId⟩

instance : InventoryRecord ImportedPolicy := ⟨ImportedPolicy.policyId⟩

section Lookup

variable {ι : Type} [InventoryRecord ι]

def Stored.id (stored : Stored ι) : Identifier := InventoryRecord.id stored.record

def Stored.isRecord (tenantId id : Identifier) (stored : Stored ι) : Bool :=
  decide (stored.tenantId = tenantId) && decide (stored.id = id)

def findRecord (tenantId id : Identifier) (list : List (Stored ι)) : Option (Stored ι) :=
  list.find? (Stored.isRecord tenantId id)

def ofTenant (tenantId : Identifier) (list : List (Stored ι)) : List (Stored ι) :=
  list.filter fun stored => decide (stored.tenantId = tenantId)

end Lookup

end GhostApi.Inventory
