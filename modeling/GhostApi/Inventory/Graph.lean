import GhostApi.Inventory.Types
import GhostApi.Lib.Table

/-!
# Attack paths and blast radius

The paths from an agent over its identities, their tools, the providers of
these and the resources they expose, and the report that groups the complete
ones by resource. Freshness is measured in whole days.
-/

namespace GhostApi.Inventory

open Js Validation

def DAY_MS : Int := 24 * 60 * 60 * 1000

structure InventoryFreshnessDays where
  edgeStaleDays : Int
  credentialStaleDays : Int
  evidenceFreshDays : Int

def defaultFreshnessDays : InventoryFreshnessDays := ⟨90, 90, 30⟩

/-! ## Attack paths -/

structure AttackPathStep where
  kind : NodeKind
  id : Identifier
  display : String

structure AttackPath where
  steps : List AttackPathStep
  complete : Bool
  edges : List GraphEdge

structure AttackPathResult where
  agentId : Identifier
  paths : List AttackPath
  incompletePaths : Nat

structure Trail where
  steps : List AttackPathStep
  edges : List (Option GraphEdge)

def Trail.add (trail : Trail) (step : AttackPathStep) (edge : List (Option GraphEdge)) : Trail :=
  ⟨trail.steps ++ [step], trail.edges ++ edge⟩

def Trail.path (trail : Trail) (complete : Bool) : AttackPath := ⟨trail.steps, complete, trail.edges.filterMap id⟩

def stepAgent (agentId : Identifier) : AttackPathStep := ⟨.agent, agentId, agentId.val⟩

def edge (edges : List GraphEdge) (sourceKind : NodeKind) (sourceId : Identifier) (targetKind : NodeKind)
    (targetId : Identifier) : Option GraphEdge :=
  edges.find? fun candidate => decide (candidate.sourceKind = sourceKind) && decide (candidate.sourceId = sourceId) &&
    decide (candidate.targetKind = targetKind) && decide (candidate.targetId = targetId)

section Paths

variable (state : InventoryStoreState) (tenantId : Identifier) (edges : List GraphEdge)

def sideEffectPath (trail : Trail) (resourceId sideEffectId : Identifier) : AttackPath :=
  let sideEffect := findRecord tenantId sideEffectId state.sideEffects
  let display := (sideEffect.map fun found => found.record.kind.text).getD sideEffectId.val
  (trail.add ⟨.sideEffect, sideEffectId, display⟩ [edge edges .resource resourceId .sideEffect sideEffectId]).path
    sideEffect.isSome

def resourcePaths (trail : Trail) (providerId resourceId : Identifier) : List AttackPath :=
  let exposeEdge := edge edges .provider providerId .resource resourceId
  match findRecord tenantId resourceId state.resources with
  | none => [(trail.add ⟨.resource, resourceId, resourceId.val⟩ [exposeEdge]).path false]
  | some resource => resource.record.sideEffectIds.val.map
      (sideEffectPath state tenantId edges (trail.add ⟨.resource, resourceId, resource.record.name.val⟩ [exposeEdge]) resourceId)

def providerPaths (trail : Trail) (toolId providerId : Identifier) : List AttackPath :=
  let toolEdge := edge edges .tool toolId .provider providerId
  match findRecord tenantId providerId state.providers with
  | none => [(trail.add ⟨.provider, providerId, providerId.val⟩ [toolEdge]).path false]
  | some provider => provider.record.resourceIds.val.flatMap
      (resourcePaths state tenantId edges (trail.add ⟨.provider, providerId, provider.record.name.val⟩ [toolEdge]) providerId)

def toolPaths (trail : Trail) (identityId toolId : Identifier) : List AttackPath :=
  let tool := findRecord tenantId toolId state.tools
  let display := (tool.map fun found => found.record.name.val).getD toolId.val
  let reached := trail.add ⟨.tool, toolId, display⟩ [edge edges .identity identityId .tool toolId]
  match tool.bind fun found => found.record.providerId with
  | none => [reached.path false]
  | some providerId => providerPaths state tenantId edges reached toolId providerId

def identityPaths (trail : Trail) (identityId : Identifier) : List AttackPath :=
  match findRecord tenantId identityId state.identities with
  | none => [(trail.add ⟨.identity, identityId, identityId.val⟩ []).path false]
  | some identity =>
    let display := identity.record.principalId.val ++ " (" ++ identity.record.role.text ++ ")"
    identity.record.toolIds.val.flatMap
      (toolPaths state tenantId edges (trail.add ⟨.identity, identityId, display⟩ []) identityId)

end Paths

def findAttackPaths (state : InventoryStoreState) (tenantId agentId : Identifier) (now : Int)
    (freshnessDays : InventoryFreshnessDays) : AttackPathResult :=
  match findRecord tenantId agentId state.agents with
  | none => ⟨agentId, [], 0⟩
  | some agent =>
    let staleBeforeMs := now - freshnessDays.edgeStaleDays * DAY_MS
    let edges := state.edges.filter fun edge => decide (edge.tenantId = tenantId) && decide (staleBeforeMs ≤ edge.lastSeenAt)
    let paths := agent.record.identityIds.val.flatMap (identityPaths state tenantId edges ⟨[stepAgent agentId], []⟩)
    ⟨agentId, paths, paths.countP fun path => !path.complete⟩

/-! ## Blast radius -/

structure BlastRadiusRule where
  ruleId : String
  explanation : String

structure BlastRadiusSideEffect where
  sideEffectId : Identifier
  kind : SideEffectKind
  severity : Severity
  heuristic : Bool

structure BlastRadiusResource where
  resourceId : Identifier
  resourceType : Text 120
  sensitive : Bool
  providerId : Identifier
  sideEffects : List BlastRadiusSideEffect
  pathCount : Nat
  rules : List String

structure BlastRadiusReport where
  tenantId : Identifier
  agentId : Identifier
  analyzedAt : Int
  paths : List AttackPath
  incompletePaths : Nat
  resources : List BlastRadiusResource
  rules : List BlastRadiusRule

structure Radius where
  byResource : List BlastRadiusResource
  rules : List BlastRadiusRule

def Radius.addRule (radius : Radius) (ruleId explanation : String) : List BlastRadiusRule :=
  if radius.rules.any (·.ruleId = ruleId) then radius.rules else radius.rules ++ [⟨ruleId, explanation⟩]

def setResource (resource : BlastRadiusResource) (resources : List BlastRadiusResource) : List BlastRadiusResource :=
  Table.upsert (fun other => decide (other.resourceId = resource.resourceId)) resource resources

def impact (sideEffect : SideEffectRecord) : BlastRadiusSideEffect :=
  ⟨sideEffect.id, sideEffect.record.kind, sideEffect.record.severity, true⟩

def BlastRadiusResource.addPath (existing : BlastRadiusResource) (sideEffect : BlastRadiusSideEffect) (ruleId : String) :
    BlastRadiusResource :=
  { existing with
    pathCount := existing.pathCount + 1
    sideEffects := if existing.sideEffects.any (·.sideEffectId = sideEffect.sideEffectId) then existing.sideEffects
      else existing.sideEffects ++ [sideEffect]
    rules := if existing.rules.contains ruleId then existing.rules else existing.rules ++ [ruleId] }

section Report

variable (state : InventoryStoreState) (tenantId : Identifier)

def joined {p : String → Prop} (texts : List { s : String // p s }) : String := Json.join ", " (texts.map Subtype.val)

def explain (agentStep identityStep toolStep providerStep : AttackPathStep) (resourceId : Identifier)
    (sideEffect : SideEffectRecord) : String :=
  let identity := findRecord tenantId identityStep.id state.identities
  let tool := findRecord tenantId toolStep.id state.tools
  let provider := findRecord tenantId providerStep.id state.providers
  let credential := (ofTenant tenantId state.credentials).find? fun candidate =>
    candidate.record.toolIds.val.contains toolStep.id
  let credentialScopeNote := match credential with
    | none => "no tracked credential bound to the tool"
    | some found => "credential " ++ found.id.val ++ " grants [" ++ joined found.record.grantScopes.val ++ "]"
  "Agent " ++ agentStep.id.val ++ " uses identity " ++ identityStep.id.val ++
    (identity.map fun found => " (" ++ found.record.role.text ++ ", scopes [" ++ joined found.record.scopes.val ++ "])").getD "" ++
    " to reach tool " ++ toolStep.id.val ++ (tool.map fun found => " (" ++ found.record.name.val ++ ")").getD "" ++
    ", which connects to provider " ++ providerStep.id.val ++
    (provider.map fun found => " (" ++ found.record.name.val ++ ")").getD "" ++ " using " ++ credentialScopeNote ++
    ", exposing resource " ++ resourceId.val ++ ", which permits side effect " ++ sideEffect.id.val ++ " (" ++
    sideEffect.record.kind.text ++ ", severity " ++ sideEffect.record.severity.text ++ ")."

/-- The first pass: a complete path is counted at its resource. -/
def coverPath (radius : Radius) (path : AttackPath) : Radius :=
  if !path.complete then radius else match path.steps with
  | agentStep :: identityStep :: toolStep :: providerStep :: resourceStep :: sideEffectStep :: _ =>
    match findRecord tenantId resourceStep.id state.resources, findRecord tenantId sideEffectStep.id state.sideEffects with
    | some resource, some sideEffect =>
      let ruleId := "blast." ++ resourceStep.id.val ++ "." ++ sideEffectStep.id.val
      let rules := radius.addRule ruleId
        (explain state tenantId agentStep identityStep toolStep providerStep resourceStep.id sideEffect)
      match radius.byResource.find? fun other => decide (other.resourceId = resourceStep.id) with
      | none =>
        let created : BlastRadiusResource := ⟨resourceStep.id, resource.record.resourceType, resource.record.sensitive,
          providerStep.id, [impact sideEffect], 1, [ruleId]⟩
        ⟨setResource created radius.byResource, rules⟩
      | some existing => ⟨setResource (existing.addPath (impact sideEffect) ruleId) radius.byResource, rules⟩
    | _, _ => radius
  | _ => radius

def adjacentRule (resourceId : Identifier) : String := "blast-adjacent." ++ resourceId.val

def adjacentResource (exposed : ProviderRecord × Identifier) (resource : ResourceRecord) : BlastRadiusResource where
  resourceId := exposed.2
  resourceType := resource.record.resourceType
  sensitive := resource.record.sensitive
  providerId := exposed.1.id
  sideEffects := (resource.record.sideEffectIds.val.filterMap fun sideEffectId =>
    findRecord tenantId sideEffectId state.sideEffects).map impact
  pathCount := 0
  rules := [adjacentRule exposed.2]

/-- The second pass: what any provider of the tenant exposes is listed, unless the first pass did. -/
def coverAdjacent (agentId : Identifier) (covered : List Identifier) (radius : Radius)
    (exposed : ProviderRecord × Identifier) : Radius :=
  if covered.contains exposed.2 then radius else match findRecord tenantId exposed.2 state.resources with
  | none => radius
  | some resource =>
    ⟨setResource (adjacentResource state tenantId exposed resource) radius.byResource,
      radius.addRule (adjacentRule exposed.2) ("Provider " ++ exposed.1.id.val ++ " also exposes resource " ++
        exposed.2.val ++
        "; this resource is reachable through the same provider but has no verified complete path from agent " ++
        agentId.val ++ " in the current graph.")⟩

def exposures : List (ProviderRecord × Identifier) :=
  (ofTenant tenantId state.providers).flatMap fun provider =>
    provider.record.resourceIds.val.map fun resourceId => (provider, resourceId)

end Report

def computeBlastRadius (state : InventoryStoreState) (tenantId agentId : Identifier) (now : Int)
    (freshnessDays : InventoryFreshnessDays) : BlastRadiusReport :=
  let result := findAttackPaths state tenantId agentId now freshnessDays
  let reached := result.paths.foldl (coverPath state tenantId) ⟨[], []⟩
  let covered := reached.byResource.map (·.resourceId)
  let radius := (exposures state tenantId).foldl (coverAdjacent state tenantId agentId covered) reached
  ⟨tenantId, agentId, now, result.paths, result.incompletePaths, radius.byResource, radius.rules⟩

end GhostApi.Inventory
