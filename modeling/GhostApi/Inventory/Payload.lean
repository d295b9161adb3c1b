import GhostApi.Inventory.Types
import GhostApi.Js.Canonical
import Mathlib.Data.List.Sort

/-!
# Import payloads

An import brings records of eight kinds from one source. The validator checks
every record by itself and that the identifiers of a kind are unique; it does
not check that a list of references names each record once.
-/

namespace GhostApi.Inventory

open Js Validation Effect

/-! ## Members of a record -/

/-- A member that is left out of a payload and null in the store. -/
abbrev Absent := String → Option Json → List (String × Json)

def orNull : Absent := fun key value => [(key, value.getD .null)]

def names {p : String → Prop} (texts : List { s : String // p s }) : Json := .array (texts.map fun s => .string s.val)

def textOf {p : String → Prop} (s : { s : String // p s }) : Json := .string s.val

section Members

variable (absent : Absent)

def ImportedAgent.members (agent : ImportedAgent) : List (String × Json) :=
  [("agentId", textOf agent.agentId), ("name", textOf agent.name)] ++ absent "ownerId" (agent.ownerId.map textOf) ++
    Json.optional "businessPurpose" (agent.businessPurpose.map textOf) ++ Json.optional "model" (agent.model.map textOf) ++
    Json.optional "runtime" (agent.runtime.map textOf) ++ Json.optional "version" (agent.version.map textOf) ++
    [("identityIds", names agent.identityIds.val), ("environmentIds", names agent.environmentIds.val),
      ("gatewayManaged", .bool agent.gatewayManaged), ("killSwitchEnabled", .bool agent.killSwitchEnabled)] ++
    absent "lastEvidenceAt" (agent.lastEvidenceAt.map textOf)

def ImportedTool.members (tool : ImportedTool) : List (String × Json) :=
  [("toolId", textOf tool.toolId), ("name", textOf tool.name), ("kind", .string tool.kind.text)] ++
    absent "providerId" (tool.providerId.map textOf) ++
    [("requiredScopes", names tool.requiredScopes.val), ("credentialIds", names tool.credentialIds.val)]

def ImportedIdentity.members (identity : ImportedIdentity) : List (String × Json) :=
  [("identityId", textOf identity.identityId), ("principalId", textOf identity.principalId),
    ("role", .string identity.role.text)] ++ absent "agentId" (identity.agentId.map textOf) ++
    [("toolIds", names identity.toolIds.val), ("environmentIds", names identity.environmentIds.val),
      ("scopes", names identity.scopes.val)]

def ImportedProvider.members (provider : ImportedProvider) : List (String × Json) :=
  [("providerId", textOf provider.providerId), ("name", textOf provider.name),
    ("providerType", textOf provider.providerType)] ++ absent "ownerId" (provider.ownerId.map textOf) ++
    [("environmentIds", names provider.environmentIds.val), ("resourceIds", names provider.resourceIds.val),
      ("gatewayBound", .bool provider.gatewayBound), ("killSwitchApplied", .bool provider.killSwitchApplied)]

def ImportedResource.members (resource : ImportedResource) : List (String × Json) :=
  [("resourceId", textOf resource.resourceId), ("providerId", textOf resource.providerId),
    ("resourceType", textOf resource.resourceType), ("name", textOf resource.name),
    ("environmentIds", names resource.environmentIds.val), ("sensitive", .bool resource.sensitive)] ++
    absent "ownerId" (resource.ownerId.map textOf) ++
    Json.optional "businessPurpose" (resource.businessPurpose.map textOf) ++
    [("sideEffectIds", names resource.sideEffectIds.val)]

def ImportedSideEffect.members (sideEffect : ImportedSideEffect) : List (String × Json) :=
  [("sideEffectId", textOf sideEffect.sideEffectId), ("resourceId", textOf sideEffect.resourceId),
    ("kind", .string sideEffect.kind.text), ("severity", .string sideEffect.severity.text)]

def ImportedCredential.members (credential : ImportedCredential) : List (String × Json) :=
  [("credentialId", textOf credential.credentialId), ("name", textOf credential.name),
    ("providerId", textOf credential.providerId)] ++ absent "ownerId" (credential.ownerId.map textOf) ++
    [("environmentIds", names credential.environmentIds.val), ("grantScopes", names credential.grantScopes.val),
      ("toolIds", names credential.toolIds.val), ("status", .string credential.status.text),
      ("issuedAt", textOf credential.issuedAt)] ++ absent "lastUsedAt" (credential.lastUsedAt.map textOf) ++
    Json.optional "rotatedAt" (credential.rotatedAt.map textOf) ++ [("gatewayBound", .bool credential.gatewayBound)]

def ImportedPolicy.members (policy : ImportedPolicy) : List (String × Json) :=
  [("policyId", textOf policy.policyId), ("name", textOf policy.name), ("version", textOf policy.version),
    ("hash", textOf policy.hash), ("environmentIds", names policy.environmentIds.val)]

end Members

def ImportSource.members (source : ImportSource) : List (String × Json) :=
  [("sourceId", textOf source.sourceId), ("sourceType", .string source.sourceType.text),
    ("sourceName", textOf source.sourceName)] ++ Json.optional "sourceVersion" (source.sourceVersion.map textOf)

def ExpectedPolicyHash.toJson (expected : ExpectedPolicyHash) : Json :=
  .object [("environmentId", textOf expected.environmentId), ("policyHash", textOf expected.policyHash)]

def ImportCounters.toJson (counters : ImportCounters) : Json :=
  let member (key : String) (value : Option Counter) := Json.optional key (value.map fun n => .number n.val)
  .object (member "preventedEgressAttempts" counters.preventedEgressAttempts ++
    member "reviewTimeMinutes" counters.reviewTimeMinutes ++
    member "meanTimeToContainMinutes" counters.meanTimeToContainMinutes)

/-! ## Payloads -/

/-- Imported records of one kind with different identifiers. -/
abbrev Batch (max : Nat) (ι : Type) [InventoryRecord ι] :=
  { items : List ι // items.length ≤ max ∧ (items.map InventoryRecord.id).Nodup }

structure InventoryImportPayload where
  source : ImportSource
  expectedPolicyHashes : Several 64 ExpectedPolicyHash
  counters : Option ImportCounters
  agents : Batch 200 ImportedAgent
  tools : Batch 200 ImportedTool
  identities : Batch 200 ImportedIdentity
  providers : Batch 100 ImportedProvider
  resources : Batch 300 ImportedResource
  sideEffects : Batch 400 ImportedSideEffect
  credentials : Batch 200 ImportedCredential
  policies : Batch 50 ImportedPolicy
  /-- Counters are only allowed for ci, gateway, or cloud imports. -/
  counted : source.sourceType = .config → counters = none

def InventoryImportPayload.toJson (payload : InventoryImportPayload) : Json :=
  let batch {ι : Type} (items : List ι) (members : Absent → ι → List (String × Json)) : Json :=
    .array (items.map fun item => .object (members Json.optional item))
  .object ([("schemaVersion", .number 1), ("kind", .string "ghostapi.inventory-import"),
    ("source", .object payload.source.members),
    ("expectedPolicyHashes", .array (payload.expectedPolicyHashes.val.map ExpectedPolicyHash.toJson))] ++
    Json.optional "counters" (payload.counters.map ImportCounters.toJson) ++
    [("agents", batch payload.agents.val ImportedAgent.members), ("tools", batch payload.tools.val ImportedTool.members),
      ("identities", batch payload.identities.val ImportedIdentity.members),
      ("providers", batch payload.providers.val ImportedProvider.members),
      ("resources", batch payload.resources.val ImportedResource.members),
      ("sideEffects", batch payload.sideEffects.val fun _ => ImportedSideEffect.members),
      ("credentials", batch payload.credentials.val ImportedCredential.members),
      ("policies", batch payload.policies.val fun _ => ImportedPolicy.members)])

mutual
/-- The members of every object in the order of their keys. -/
def sortedKeysReplacer : Json → Json
  | .array items => .array (replaceItems items)
  | .object fields => .object ((replaceFields fields).insertionSort fun a b => Json.keyLe a.1 b.1 = true)
  | value => value

def replaceItems : List Json → List Json
  | [] => []
  | item :: rest => sortedKeysReplacer item :: replaceItems rest

def replaceFields : List (String × Json) → List (String × Json)
  | [] => []
  | (key, value) :: rest => (key, sortedKeysReplacer value) :: replaceFields rest
end

def canonicalPayloadDigest (payload : InventoryImportPayload) : Hash := hashOf (sortedKeysReplacer payload.toJson).text

/-! ## Validators -/

def several {α : Type} (parse : JsValue → Except JsError α) (value : JsValue) (label : String) (max : Nat) :
    Except JsError (Several max α) := do
  let items ← array refuse value label max
  let parsed ← items.mapM parse
  if h : parsed.length ≤ max then return ⟨parsed, h⟩ else throw (refuse (label ++ " is invalid."))

def identifiers (value : JsValue) (label : String) (max : Nat) : Except JsError (Several max Identifier) :=
  several (fun entry => identifier refuse entry label) value label max

def scope (value : JsValue) (label : String) : Except JsError Scope := match value with
  | .string s => if h : isScope s = true then .ok ⟨s, h⟩ else .error (refuse (label ++ " must be safe scope identifiers."))
  | _ => .error (refuse (label ++ " must be safe scope identifiers."))

def scopes (value : JsValue) (label : String) (max : Nat) : Except JsError (Several max Scope) :=
  several (fun entry => scope entry label) value label max

def hash (value : JsValue) (label : String) : Except JsError Hash :=
  hashOr (refuse (label ++ " must be a sha256 hash.")) value

def given {α : Type} (value : JsValue) (parse : JsValue → Except JsError α) : Except JsError (Option α) :=
  if value.isUndefined then .ok none else some <$> parse value

def validateImportSource (value : JsValue) : Except JsError ImportSource := do
  let source ← object refuse value "Inventory import source is invalid."
  exactKeys refuse source ["sourceId", "sourceType", "sourceName", "sourceVersion"] "inventory import source"
    ["sourceVersion"]
  let sourceType ← enumerated refuse ImportSourceType.all ImportSourceType.text (source.get "sourceType")
    "Inventory import source type must be config, ci, gateway, or cloud."
  return {
    sourceId := ← identifier refuse (source.get "sourceId") "Import source id"
    sourceType
    sourceName := ← text refuse (source.get "sourceName") "Import source name" 120
    sourceVersion := ← given (source.get "sourceVersion") fun version => text refuse version "Import source version" 64 }

def validateExpectedPolicyHash (value : JsValue) : Except JsError ExpectedPolicyHash := do
  let expected ← object refuse value "Expected policy hash is invalid."
  exactKeys refuse expected ["environmentId", "policyHash"] "expected policy hash" []
  return {
    environmentId := ← identifier refuse (expected.get "environmentId") "Environment id"
    policyHash := ← hash (expected.get "policyHash") "Policy hash" }

def counterOf (counters : Fields) (key : String) : Except JsError (Option Counter) :=
  given (counters.get key) fun value => nonNegative refuse value ("Import counter " ++ key) 9999999999

def validateCounters (value : JsValue) : Except JsError ImportCounters := do
  let counters ← object refuse value "Import counters are invalid."
  exactKeys refuse counters ["preventedEgressAttempts", "reviewTimeMinutes", "meanTimeToContainMinutes"]
    "import counters" []
  return {
    preventedEgressAttempts := ← counterOf counters "preventedEgressAttempts"
    reviewTimeMinutes := ← counterOf counters "reviewTimeMinutes"
    meanTimeToContainMinutes := ← counterOf counters "meanTimeToContainMinutes" }

def validateImportedAgent (value : JsValue) : Except JsError ImportedAgent := do
  let record ← object refuse value "Imported agent is invalid."
  exactKeys refuse record ["agentId", "name", "ownerId", "businessPurpose", "model", "runtime", "version", "identityIds",
    "environmentIds", "gatewayManaged", "killSwitchEnabled", "lastEvidenceAt"] "imported agent"
    ["ownerId", "businessPurpose", "model", "runtime", "version", "lastEvidenceAt"]
  let gatewayManaged ← boolean refuse (record.get "gatewayManaged") "Imported agent booleans are invalid."
  let killSwitchEnabled ← boolean refuse (record.get "killSwitchEnabled") "Imported agent booleans are invalid."
  return {
    agentId := ← identifier refuse (record.get "agentId") "Agent id"
    name := ← text refuse (record.get "name") "Agent name" 160
    ownerId := ← given (record.get "ownerId") fun ownerId => identifier refuse ownerId "Agent owner id"
    businessPurpose := ← given (record.get "businessPurpose") fun purpose => text refuse purpose "Agent business purpose" 240
    model := ← given (record.get "model") fun model => text refuse model "Agent model" 120
    runtime := ← given (record.get "runtime") fun runtime => text refuse runtime "Agent runtime" 120
    version := ← given (record.get "version") fun version => text refuse version "Agent version" 64
    identityIds := ← identifiers (record.get "identityIds") "Agent identity ids" MAX_REFERENCES_PER_RECORD
    environmentIds := ← identifiers (record.get "environmentIds") "Agent environment ids" 16
    gatewayManaged
    killSwitchEnabled
    lastEvidenceAt := ← given (record.get "lastEvidenceAt") fun time => timestamp refuse time "Agent last evidence time" }

def validateImportedTool (value : JsValue) : Except JsError ImportedTool := do
  let record ← object refuse value "Imported tool is invalid."
  exactKeys refuse record ["toolId", "name", "kind", "providerId", "requiredScopes", "credentialIds"] "imported tool"
    ["providerId"]
  let kind ← enumerated refuse ToolKind.all ToolKind.text (record.get "kind") "Imported tool kind is invalid."
  return {
    toolId := ← identifier refuse (record.get "toolId") "Tool id"
    name := ← text refuse (record.get "name") "Tool name" 160
    kind
    providerId := ← given (record.get "providerId") fun providerId => identifier refuse providerId "Tool provider id"
    requiredScopes := ← scopes (record.get "requiredScopes") "Tool required scopes" MAX_SCOPES_PER_RECORD
    credentialIds := ← identifiers (record.get "credentialIds") "Tool credential ids" MAX_REFERENCES_PER_RECORD }

def validateImportedIdentity (value : JsValue) : Except JsError ImportedIdentity := do
  let record ← object refuse value "Imported identity is invalid."
  exactKeys refuse record ["identityId", "principalId", "role", "agentId", "toolIds", "environmentIds", "scopes"]
    "imported identity" ["agentId"]
  let role ← enumerated refuse IdentityRole.all IdentityRole.text (record.get "role") "Imported identity role is invalid."
  return {
    identityId := ← identifier refuse (record.get "identityId") "Identity id"
    principalId := ← identifier refuse (record.get "principalId") "Identity principal id"
    role
    agentId := ← given (record.get "agentId") fun agentId => identifier refuse agentId "Identity agent id"
    toolIds := ← identifiers (record.get "toolIds") "Identity tool ids" MAX_REFERENCES_PER_RECORD
    environmentIds := ← identifiers (record.get "environmentIds") "Identity environment ids" 16
    scopes := ← scopes (record.get "scopes") "Identity scopes" MAX_SCOPES_PER_RECORD }

def validateImportedProvider (value : JsValue) : Except JsError ImportedProvider := do
  let record ← object refuse value "Imported provider is invalid."
  exactKeys refuse record ["providerId", "name", "providerType", "ownerId", "environmentIds", "resourceIds", "gatewayBound",
    "killSwitchApplied"] "imported provider" ["ownerId"]
  let gatewayBound ← boolean refuse (record.get "gatewayBound") "Imported provider booleans are invalid."
  let killSwitchApplied ← boolean refuse (record.get "killSwitchApplied") "Imported provider booleans are invalid."
  return {
    providerId := ← identifier refuse (record.get "providerId") "Provider id"
    name := ← text refuse (record.get "name") "Provider name" 160
    providerType := ← text refuse (record.get "providerType") "Provider type" 120
    ownerId := ← given (record.get "ownerId") fun ownerId => identifier refuse ownerId "Provider owner id"
    environmentIds := ← identifiers (record.get "environmentIds") "Provider environment ids" 16
    resourceIds := ← identifiers (record.get "resourceIds") "Provider resource ids" MAX_REFERENCES_PER_RECORD
    gatewayBound
    killSwitchApplied }

def validateImportedResource (value : JsValue) : Except JsError ImportedResource := do
  let record ← object refuse value "Imported resource is invalid."
  exactKeys refuse record ["resourceId", "providerId", "resourceType", "name", "environmentIds", "sensitive", "ownerId",
    "businessPurpose", "sideEffectIds"] "imported resource" ["ownerId", "businessPurpose"]
  let sensitive ← boolean refuse (record.get "sensitive") "Imported resource sensitive flag is invalid."
  return {
    resourceId := ← identifier refuse (record.get "resourceId") "Resource id"
    providerId := ← identifier refuse (record.get "providerId") "Resource provider id"
    resourceType := ← text refuse (record.get "resourceType") "Resource type" 120
    name := ← text refuse (record.get "name") "Resource name" 160
    environmentIds := ← identifiers (record.get "environmentIds") "Resource environment ids" 16
    sensitive
    ownerId := ← given (record.get "ownerId") fun ownerId => identifier refuse ownerId "Resource owner id"
    businessPurpose :=
      ← given (record.get "businessPurpose") fun purpose => text refuse purpose "Resource business purpose" 240
    sideEffectIds := ← identifiers (record.get "sideEffectIds") "Resource side effect ids" MAX_REFERENCES_PER_RECORD }

def validateImportedSideEffect (value : JsValue) : Except JsError ImportedSideEffect := do
  let record ← object refuse value "Imported side effect is invalid."
  exactKeys refuse record ["sideEffectId", "resourceId", "kind", "severity"] "imported side effect" []
  let kind ← enumerated refuse SideEffectKind.all SideEffectKind.text (record.get "kind")
    "Imported side effect kind is invalid."
  let severity ← enumerated refuse Severity.all Severity.text (record.get "severity")
    "Imported side effect severity is invalid."
  return {
    sideEffectId := ← identifier refuse (record.get "sideEffectId") "Side effect id"
    resourceId := ← identifier refuse (record.get "resourceId") "Side effect resource id"
    kind
    severity }

def validateImportedCredential (value : JsValue) : Except JsError ImportedCredential := do
  let record ← object refuse value "Imported credential is invalid."
  exactKeys refuse record ["credentialId", "name", "providerId", "ownerId", "environmentIds", "grantScopes", "toolIds",
    "status", "issuedAt", "lastUsedAt", "rotatedAt", "gatewayBound"] "imported credential"
    ["ownerId", "lastUsedAt", "rotatedAt"]
  let status ← enumerated refuse CredentialStatus.all CredentialStatus.text (record.get "status")
    "Imported credential status is invalid."
  let gatewayBound ← boolean refuse (record.get "gatewayBound") "Imported credential gatewayBound flag is invalid."
  return {
    credentialId := ← identifier refuse (record.get "credentialId") "Credential id"
    name := ← text refuse (record.get "name") "Credential name" 160
    providerId := ← identifier refuse (record.get "providerId") "Credential provider id"
    ownerId := ← given (record.get "ownerId") fun ownerId => identifier refuse ownerId "Credential owner id"
    environmentIds := ← identifiers (record.get "environmentIds") "Credential environment ids" 16
    grantScopes := ← scopes (record.get "grantScopes") "Credential grant scopes" MAX_SCOPES_PER_RECORD
    toolIds := ← identifiers (record.get "toolIds") "Credential tool ids" MAX_REFERENCES_PER_RECORD
    status
    issuedAt := ← timestamp refuse (record.get "issuedAt") "Credential issued time"
    lastUsedAt := ← given (record.get "lastUsedAt") fun time => timestamp refuse time "Credential last used time"
    rotatedAt := ← given (record.get "rotatedAt") fun time => timestamp refuse time "Credential rotated time"
    gatewayBound }

def validateImportedPolicy (value : JsValue) : Except JsError ImportedPolicy := do
  let record ← object refuse value "Imported policy is invalid."
  exactKeys refuse record ["policyId", "name", "version", "hash", "environmentIds"] "imported policy" []
  return {
    policyId := ← identifier refuse (record.get "policyId") "Policy id"
    name := ← text refuse (record.get "name") "Policy name" 160
    version := ← text refuse (record.get "version") "Policy version" 64
    hash := ← hash (record.get "hash") "Policy hash"
    environmentIds := ← identifiers (record.get "environmentIds") "Policy environment ids" 16 }

def supported (schemaVersion kind : JsValue) : Except JsError Unit := match schemaVersion, kind with
  | .number (.integer 1), .string "ghostapi.inventory-import" => .ok ()
  | _, _ => .error (refuse "Unsupported inventory import schema.")

def listed {α : Type} (parse : JsValue → Except JsError α) (value : JsValue) (label : String) (max : Nat) :
    Except JsError (Several max α) :=
  if value.isUndefined then .ok ⟨[], Nat.zero_le max⟩ else several parse value label max

def distinct {ι : Type} [InventoryRecord ι] {max : Nat} (items : Several max ι) (label : String) :
    Except JsError (Batch max ι) :=
  if h : (items.val.map InventoryRecord.id).Nodup then .ok ⟨items.val, items.property, h⟩
  else .error (refuse (label ++ " must be unique."))

def validateImportPayload (value : JsValue) : Except JsError InventoryImportPayload := do
  let payload ← object refuse value "Inventory import must be an object."
  let lists := ["expectedPolicyHashes", "counters", "agents", "tools", "identities", "providers", "resources", "sideEffects",
    "credentials", "policies"]
  exactKeys refuse payload (["schemaVersion", "kind", "source"] ++ lists) "inventory import" lists
  supported (payload.get "schemaVersion") (payload.get "kind")
  let source ← validateImportSource (payload.get "source")
  failIf (source.sourceType = .config ∧ ¬(payload.get "counters").isUndefined)
    (refuse "Counters are only allowed for ci, gateway, or cloud imports.")
  let expectedPolicyHashes ←
    listed validateExpectedPolicyHash (payload.get "expectedPolicyHashes") "expected policy hashes" 64
  let counters ← given (payload.get "counters") validateCounters
  let agents ← listed validateImportedAgent (payload.get "agents") "agents" 200
  let tools ← listed validateImportedTool (payload.get "tools") "tools" 200
  let identities ← listed validateImportedIdentity (payload.get "identities") "identities" 200
  let providers ← listed validateImportedProvider (payload.get "providers") "providers" 100
  let resources ← listed validateImportedResource (payload.get "resources") "resources" 300
  let sideEffects ← listed validateImportedSideEffect (payload.get "sideEffects") "side effects" 400
  let credentials ← listed validateImportedCredential (payload.get "credentials") "credentials" 200
  let policies ← listed validateImportedPolicy (payload.get "policies") "policies" 50
  let agents ← distinct agents "agent ids"
  let tools ← distinct tools "tool ids"
  let identities ← distinct identities "identity ids"
  let providers ← distinct providers "provider ids"
  let resources ← distinct resources "resource ids"
  let sideEffects ← distinct sideEffects "side effect ids"
  let credentials ← distinct credentials "credential ids"
  let policies ← distinct policies "policy ids"
  if counted : source.sourceType = .config → counters = none then
    return ⟨source, expectedPolicyHashes, counters, agents, tools, identities, providers, resources, sideEffects,
      credentials, policies, counted⟩
  else throw (refuse "Counters are only allowed for ci, gateway, or cloud imports.")

end GhostApi.Inventory
