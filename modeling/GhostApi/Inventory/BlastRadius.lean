import GhostApi.Inventory.Graph
import Mathlib.Data.List.Count
import Mathlib.Data.List.Dedup
import Mathlib.Data.List.Nodup

/-!
# What a blast radius counts

A chain leads from an agent to a side effect through stored records. The
paths that the report counts are the walks along chains, one for each way to
name the same ids; the resources that it lists are those that any provider of
the tenant exposes, reachable or not.
-/

namespace GhostApi.Inventory

open Js Validation

/-! ## Walks -/

structure Chain where
  identityId : Identifier
  toolId : Identifier
  providerId : Identifier
  resourceId : Identifier
  sideEffectId : Identifier
  deriving DecidableEq

section Walks

variable (state : InventoryStoreState) (tenantId : Identifier)

def isStored (sideEffectId : Identifier) : Bool := (findRecord tenantId sideEffectId state.sideEffects).isSome

def resourceWalks (identityId toolId providerId resourceId : Identifier) : List Chain :=
  match findRecord tenantId resourceId state.resources with
  | none => []
  | some resource => (resource.record.sideEffectIds.val.filter (isStored state tenantId)).map
      (Chain.mk identityId toolId providerId resourceId)

def providerWalks (identityId toolId providerId : Identifier) : List Chain :=
  match findRecord tenantId providerId state.providers with
  | none => []
  | some provider => provider.record.resourceIds.val.flatMap (resourceWalks state tenantId identityId toolId providerId)

def toolWalks (identityId toolId : Identifier) : List Chain :=
  match (findRecord tenantId toolId state.tools).bind fun found => found.record.providerId with
  | none => []
  | some providerId => providerWalks state tenantId identityId toolId providerId

def identityWalks (identityId : Identifier) : List Chain :=
  match findRecord tenantId identityId state.identities with
  | none => []
  | some identity => identity.record.toolIds.val.flatMap (toolWalks state tenantId identityId)

def walks (agentId : Identifier) : List Chain :=
  match findRecord tenantId agentId state.agents with
  | none => []
  | some agent => agent.record.identityIds.val.flatMap (identityWalks state tenantId)

def chainOf (path : AttackPath) : Option Chain :=
  if !path.complete then none else match path.steps with
  | _ :: identityStep :: toolStep :: providerStep :: resourceStep :: sideEffectStep :: _ =>
    match findRecord tenantId resourceStep.id state.resources, findRecord tenantId sideEffectStep.id state.sideEffects with
    | some _, some _ => some ⟨identityStep.id, toolStep.id, providerStep.id, resourceStep.id, sideEffectStep.id⟩
    | _, _ => none
  | _ => none

end Walks

section Counting

variable {state : InventoryStoreState} {tenantId agentId : Identifier} {edges : List GraphEdge}

theorem chainOf_incomplete {path : AttackPath} (h : path.complete = false) : chainOf state tenantId path = none := by
  simp [chainOf, h]

theorem chainOf_resourcePaths {agentStep identityStep toolStep providerStep : AttackPathStep} {used : List (Option GraphEdge)}
    (providerId resourceId : Identifier) :
    (resourcePaths state tenantId edges ⟨[agentStep, identityStep, toolStep, providerStep], used⟩ providerId
        resourceId).filterMap (chainOf state tenantId) =
      resourceWalks state tenantId identityStep.id toolStep.id providerStep.id resourceId := by
  rw [resourcePaths, resourceWalks]
  cases hResource : findRecord tenantId resourceId state.resources with
  | none => simp [chainOf_incomplete, Trail.path]
  | some resource =>
    dsimp only
    induction resource.record.sideEffectIds.val with
    | nil => rfl
    | cons sideEffectId rest ih =>
      rw [List.map_cons, List.filterMap_cons, List.filter_cons]
      cases hStored : findRecord tenantId sideEffectId state.sideEffects with
      | none => simp_all [chainOf, sideEffectPath, Trail.path, Trail.add, isStored]
      | some sideEffect => simp_all [chainOf, sideEffectPath, Trail.path, Trail.add, isStored]

theorem chainOf_paths (now : Int) (freshnessDays : InventoryFreshnessDays) :
    (findAttackPaths state tenantId agentId now freshnessDays).paths.filterMap (chainOf state tenantId) =
      walks state tenantId agentId := by
  rw [findAttackPaths, walks]
  cases findRecord tenantId agentId state.agents with
  | none => rfl
  | some agent =>
    dsimp only
    rw [List.filterMap_flatMap]
    refine List.flatMap_congr fun identityId _ => ?_
    rw [identityPaths, identityWalks]
    cases findRecord tenantId identityId state.identities with
    | none => simp [chainOf_incomplete, Trail.path]
    | some identity =>
      dsimp only
      rw [List.filterMap_flatMap]
      refine List.flatMap_congr fun toolId _ => ?_
      rw [toolPaths, toolWalks]
      cases (findRecord tenantId toolId state.tools).bind fun found => found.record.providerId with
      | none => simp [chainOf_incomplete, Trail.path]
      | some providerId =>
        dsimp only
        rw [providerPaths, providerWalks]
        cases findRecord tenantId providerId state.providers with
        | none => simp [chainOf_incomplete, Trail.path]
        | some provider =>
          dsimp only
          rw [List.filterMap_flatMap]
          exact List.flatMap_congr fun resourceId _ => chainOf_resourcePaths providerId resourceId

end Counting

/-! ## The two passes -/

/-- The listed resources after some chains were counted and some resources added. -/
structure Tally (counted : List Chain) (added : List Identifier) (resources : List BlastRadiusResource) : Prop where
  nodup : (resources.map BlastRadiusResource.resourceId).Nodup
  listed : ∀ id, id ∈ resources.map BlastRadiusResource.resourceId ↔ (∃ c ∈ counted, c.resourceId = id) ∨ id ∈ added
  count : ∀ resource ∈ resources, resource.pathCount = counted.countP fun c => c.resourceId = resource.resourceId

section Passes

variable {state : InventoryStoreState} {tenantId agentId : Identifier} {counted : List Chain} {added : List Identifier}
  {resources : List BlastRadiusResource}

theorem Tally.nil : Tally [] [] [] := by
  constructor
  all_goals simp

theorem mem_setResource (h : Tally counted added resources) {item resource : BlastRadiusResource} :
    resource ∈ setResource item resources ↔ resource = item ∨ resource ∈ resources ∧ resource.resourceId ≠ item.resourceId :=
  Table.mem_upsert_iff BlastRadiusResource.resourceId h.nodup

theorem mem_keys_setResource (h : Tally counted added resources) {item : BlastRadiusResource} {id : Identifier} :
    id ∈ (setResource item resources).map BlastRadiusResource.resourceId ↔
      id = item.resourceId ∨ id ∈ resources.map BlastRadiusResource.resourceId := by
  simp only [List.mem_map]
  constructor
  · rintro ⟨resource, hMem, rfl⟩
    rcases (mem_setResource h).mp hMem with rfl | ⟨hMem, _⟩
    · exact .inl rfl
    · exact .inr ⟨resource, hMem, rfl⟩
  · rintro (rfl | ⟨resource, hMem, rfl⟩)
    · exact ⟨item, (mem_setResource h).mpr (.inl rfl), rfl⟩
    · by_cases hSame : resource.resourceId = item.resourceId
      · exact ⟨item, (mem_setResource h).mpr (.inl rfl), hSame.symm⟩
      · exact ⟨resource, (mem_setResource h).mpr (.inr ⟨hMem, hSame⟩), rfl⟩

theorem Tally.countChain (h : Tally counted added resources) {chain : Chain} {item : BlastRadiusResource}
    (hId : item.resourceId = chain.resourceId)
    (hCount : item.pathCount = (counted.countP fun c => c.resourceId = chain.resourceId) + 1) :
    Tally (counted ++ [chain]) added (setResource item resources) where
  nodup := Table.nodup_upsert BlastRadiusResource.resourceId h.nodup item
  listed := by
    intro id
    rw [mem_keys_setResource h, h.listed, hId]
    simp only [List.mem_append, List.mem_singleton]
    constructor
    · rintro (rfl | ⟨c, hMem, rfl⟩ | hAdded)
      · exact .inl ⟨chain, .inr rfl, rfl⟩
      · exact .inl ⟨c, .inl hMem, rfl⟩
      · exact .inr hAdded
    · rintro (⟨c, hMem | rfl, rfl⟩ | hAdded)
      · exact .inr (.inl ⟨c, hMem, rfl⟩)
      · exact .inl rfl
      · exact .inr (.inr hAdded)
  count := by
    intro resource hMem
    rw [List.countP_append, List.countP_singleton]
    rcases (mem_setResource h).mp hMem with rfl | ⟨hMem, hOther⟩
    · rw [hCount, hId, if_pos (by simp)]
    · have hApart : ¬decide (chain.resourceId = resource.resourceId) = true := by
        rw [decide_eq_true_eq, ← hId]
        exact hOther.symm
      rw [h.count resource hMem, if_neg hApart, Nat.add_zero]

theorem coverPath_none {radius : Radius} {path : AttackPath} (h : chainOf state tenantId path = none) :
    coverPath state tenantId radius path = radius := by
  rw [chainOf] at h
  rw [coverPath]
  split
  · rfl
  · rename_i hComplete
    rw [if_neg hComplete] at h
    split
    · split
      · rename_i hResource hSideEffect
        simp_all
      · rfl
    · rfl

theorem Tally.count_zero (h : Tally counted added resources) {id : Identifier}
    (hFind : resources.find? (fun other => decide (other.resourceId = id)) = none) :
    (counted.countP fun c => c.resourceId = id) = 0 := by
  rw [List.countP_eq_zero]
  intro c hMem hId
  have hListed := (h.listed id).mpr (.inl ⟨c, hMem, by simpa using hId⟩)
  obtain ⟨resource, hResource, hSame⟩ := List.mem_map.mp hListed
  exact List.find?_eq_none.mp hFind resource hResource (by simpa using hSame)

theorem coverPath_some {radius : Radius} {path : AttackPath} {chain : Chain}
    (h : chainOf state tenantId path = some chain) (hTally : Tally counted [] radius.byResource) :
    Tally (counted ++ [chain]) [] (coverPath state tenantId radius path).byResource := by
  rw [chainOf] at h
  split at h
  · cases h
  · rename_i hComplete
    split at h
    · rename_i agentStep identityStep toolStep providerStep resourceStep sideEffectStep rest hSteps
      split at h
      · rename_i hResource hSideEffect
        cases h
        rw [coverPath, if_neg hComplete, hSteps]
        dsimp only
        rw [hResource, hSideEffect]
        dsimp only
        split
        · rename_i hFind
          refine hTally.countChain rfl ?_
          rw [hTally.count_zero hFind]
        · rename_i existing hFind
          have hSame : existing.resourceId = resourceStep.id := by simpa using List.find?_some hFind
          refine hTally.countChain hSame ?_
          have hCount := hTally.count existing (List.mem_of_find?_eq_some hFind)
          rw [hSame] at hCount
          exact congrArg (· + 1) hCount
      · cases h
    · cases h

theorem foldl_coverPath (paths : List AttackPath) {radius : Radius} (hTally : Tally counted [] radius.byResource) :
    Tally (counted ++ paths.filterMap (chainOf state tenantId)) [] (paths.foldl (coverPath state tenantId) radius).byResource := by
  induction paths generalizing counted radius with
  | nil => simpa using hTally
  | cons path paths ih =>
    rw [List.foldl_cons]
    cases hChain : chainOf state tenantId path with
    | none =>
      rw [List.filterMap_cons_none hChain, coverPath_none hChain]
      exact ih hTally
    | some chain =>
      rw [List.filterMap_cons_some hChain, List.append_cons]
      exact ih (coverPath_some hChain hTally)

def isListed (state : InventoryStoreState) (tenantId : Identifier) (resourceId : Identifier) : Bool :=
  (findRecord tenantId resourceId state.resources).isSome

theorem Tally.add (h : Tally counted added resources) (item : BlastRadiusResource)
    (hCounted : ∀ c ∈ counted, c.resourceId ≠ item.resourceId) (hZero : item.pathCount = 0) :
    Tally counted (added ++ [item.resourceId]) (setResource item resources) where
  nodup := Table.nodup_upsert BlastRadiusResource.resourceId h.nodup item
  listed := by
    intro id
    rw [mem_keys_setResource h, h.listed, List.mem_append, List.mem_singleton, or_comm, or_assoc]
  count := by
    intro resource hMem
    rcases (mem_setResource h).mp hMem with rfl | ⟨hMem, _⟩
    · rw [hZero, eq_comm, List.countP_eq_zero]
      intro c hc
      simpa using hCounted c hc
    · exact h.count resource hMem

theorem foldl_coverAdjacent {covered : List Identifier} (hCovered : ∀ id, id ∈ covered ↔ ∃ c ∈ counted, c.resourceId = id)
    (exposed : List (ProviderRecord × Identifier)) {radius : Radius} (hTally : Tally counted added radius.byResource) :
    Tally counted (added ++ (exposed.map Prod.snd).filter fun id => !covered.contains id && isListed state tenantId id)
      (exposed.foldl (coverAdjacent state tenantId agentId covered) radius).byResource := by
  induction exposed generalizing added radius with
  | nil => simpa using hTally
  | cons exposure exposed ih =>
    rw [List.foldl_cons, List.map_cons, List.filter_cons, coverAdjacent]
    cases hContains : covered.contains exposure.2 with
    | true => simpa using ih hTally
    | false =>
      cases hResource : findRecord tenantId exposure.2 state.resources with
      | none => simpa [isListed, hResource] using ih hTally
      | some resource =>
        have hCounted : ∀ c ∈ counted, c.resourceId ≠ exposure.2 := by
          intro c hc hSame
          have hMem := (hCovered exposure.2).mpr ⟨c, hc, hSame⟩
          rw [← List.contains_iff_mem, hContains] at hMem
          cases hMem
        have hAdded : Tally counted (added ++ [exposure.2])
            (coverAdjacent state tenantId agentId covered radius exposure).byResource := by
          have hItem := hTally.add (adjacentResource state tenantId exposure resource) hCounted rfl
          rw [coverAdjacent, hContains, if_neg Bool.false_ne_true, hResource]
          exact hItem
        have hRest := ih hAdded
        rw [coverAdjacent, hContains, hResource] at hRest
        simpa [isListed, hResource] using hRest

end Passes

/-! ## Chains and reachable providers -/

/-- An identity of an agent, one of its tools and the provider that the tool connects to, all stored for the tenant. -/
structure Reaches (state : InventoryStoreState) (tenantId agentId : Identifier) (agent : AgentRecord)
    (identity : IdentityRecord) (tool : ToolRecord) (provider : ProviderRecord) : Prop where
  foundAgent : findRecord tenantId agentId state.agents = some agent
  foundIdentity : ∃ identityId ∈ agent.record.identityIds.val,
    findRecord tenantId identityId state.identities = some identity
  foundTool : ∃ toolId ∈ identity.record.toolIds.val, findRecord tenantId toolId state.tools = some tool
  foundProvider : ∃ providerId, tool.record.providerId = some providerId ∧
    findRecord tenantId providerId state.providers = some provider

def Reachable (state : InventoryStoreState) (tenantId agentId : Identifier) (provider : ProviderRecord) : Prop :=
  ∃ agent identity tool, Reaches state tenantId agentId agent identity tool provider

structure Along (state : InventoryStoreState) (tenantId agentId : Identifier) (chain : Chain) (agent : AgentRecord)
    (identity : IdentityRecord) (provider : ProviderRecord) (resource : ResourceRecord) : Prop where
  foundAgent : findRecord tenantId agentId state.agents = some agent
  hasIdentity : chain.identityId ∈ agent.record.identityIds.val
  foundIdentity : findRecord tenantId chain.identityId state.identities = some identity
  hasTool : chain.toolId ∈ identity.record.toolIds.val
  foundTool : (findRecord tenantId chain.toolId state.tools).bind (fun found => found.record.providerId) =
    some chain.providerId
  foundProvider : findRecord tenantId chain.providerId state.providers = some provider
  hasResource : chain.resourceId ∈ provider.record.resourceIds.val
  foundResource : findRecord tenantId chain.resourceId state.resources = some resource
  hasSideEffect : chain.sideEffectId ∈ resource.record.sideEffectIds.val
  foundSideEffect : isStored state tenantId chain.sideEffectId = true

def IsChain (state : InventoryStoreState) (tenantId agentId : Identifier) (chain : Chain) : Prop :=
  ∃ agent identity provider resource, Along state tenantId agentId chain agent identity provider resource

section Chains

variable {state : InventoryStoreState} {tenantId agentId : Identifier}

theorem resourceWalks_key {identityId toolId providerId resourceId : Identifier} {chain : Chain}
    (h : chain ∈ resourceWalks state tenantId identityId toolId providerId resourceId) :
    chain.identityId = identityId ∧ chain.toolId = toolId ∧ chain.providerId = providerId ∧ chain.resourceId = resourceId := by
  rw [resourceWalks] at h
  split at h
  · cases h
  · obtain ⟨_, _, rfl⟩ := List.mem_map.mp h
    exact ⟨rfl, rfl, rfl, rfl⟩

theorem providerWalks_key {identityId toolId providerId : Identifier} {chain : Chain}
    (h : chain ∈ providerWalks state tenantId identityId toolId providerId) :
    chain.identityId = identityId ∧ chain.toolId = toolId ∧ chain.providerId = providerId := by
  rw [providerWalks] at h
  split at h
  · cases h
  · obtain ⟨resourceId, _, h⟩ := List.mem_flatMap.mp h
    obtain ⟨hIdentity, hTool, hProvider, _⟩ := resourceWalks_key h
    exact ⟨hIdentity, hTool, hProvider⟩

theorem toolWalks_key {identityId toolId : Identifier} {chain : Chain}
    (h : chain ∈ toolWalks state tenantId identityId toolId) : chain.identityId = identityId ∧ chain.toolId = toolId := by
  rw [toolWalks] at h
  split at h
  · cases h
  · obtain ⟨hIdentity, hTool, _⟩ := providerWalks_key h
    exact ⟨hIdentity, hTool⟩

theorem identityWalks_key {identityId : Identifier} {chain : Chain}
    (h : chain ∈ identityWalks state tenantId identityId) : chain.identityId = identityId := by
  rw [identityWalks] at h
  split at h
  · cases h
  · obtain ⟨toolId, _, h⟩ := List.mem_flatMap.mp h
    exact (toolWalks_key h).1

theorem Along.count_walks {chain : Chain} {agent : AgentRecord} {identity : IdentityRecord} {provider : ProviderRecord}
    {resource : ResourceRecord} (h : Along state tenantId agentId chain agent identity provider resource) :
    (walks state tenantId agentId).count chain = agent.record.identityIds.val.count chain.identityId *
      (identity.record.toolIds.val.count chain.toolId * (provider.record.resourceIds.val.count chain.resourceId *
        resource.record.sideEffectIds.val.count chain.sideEffectId)) := by
  have hResource : (resourceWalks state tenantId chain.identityId chain.toolId chain.providerId chain.resourceId).count chain =
      resource.record.sideEffectIds.val.count chain.sideEffectId := by
    rw [resourceWalks, h.foundResource]
    dsimp only
    rw [← List.count_filter h.foundSideEffect]
    exact List.count_map_of_injective _ (Chain.mk chain.identityId chain.toolId chain.providerId chain.resourceId)
      (fun _ _ hEq => (Chain.mk.inj hEq).2.2.2.2) chain.sideEffectId
  have hProvider : (providerWalks state tenantId chain.identityId chain.toolId chain.providerId).count chain =
      provider.record.resourceIds.val.count chain.resourceId * resource.record.sideEffectIds.val.count chain.sideEffectId := by
    rw [providerWalks, h.foundProvider, ← hResource]
    dsimp only
    exact Table.count_flatMap_of_key Chain.resourceId (fun _ _ hMem => (resourceWalks_key hMem).2.2.2) _ chain
  have hTool : (toolWalks state tenantId chain.identityId chain.toolId).count chain =
      provider.record.resourceIds.val.count chain.resourceId * resource.record.sideEffectIds.val.count chain.sideEffectId := by
    rw [toolWalks, h.foundTool]
    exact hProvider
  have hIdentity : (identityWalks state tenantId chain.identityId).count chain =
      identity.record.toolIds.val.count chain.toolId * (provider.record.resourceIds.val.count chain.resourceId *
        resource.record.sideEffectIds.val.count chain.sideEffectId) := by
    rw [identityWalks, h.foundIdentity, ← hTool]
    dsimp only
    exact Table.count_flatMap_of_key Chain.toolId (fun _ _ hMem => (toolWalks_key hMem).2) _ chain
  rw [walks, h.foundAgent, ← hIdentity]
  dsimp only
  exact Table.count_flatMap_of_key Chain.identityId (fun _ _ hMem => identityWalks_key hMem) _ chain

theorem mem_walks {chain : Chain} : chain ∈ walks state tenantId agentId ↔ IsChain state tenantId agentId chain := by
  constructor
  · intro hWalk
    rw [walks] at hWalk
    split at hWalk
    · cases hWalk
    · rename_i agent hAgent
      obtain ⟨identityId, hIdentityId, hWalk⟩ := List.mem_flatMap.mp hWalk
      rw [identityWalks] at hWalk
      split at hWalk
      · cases hWalk
      · rename_i identity hIdentity
        obtain ⟨toolId, hToolId, hWalk⟩ := List.mem_flatMap.mp hWalk
        rw [toolWalks] at hWalk
        split at hWalk
        · cases hWalk
        · rename_i providerId hProviderId
          rw [providerWalks] at hWalk
          split at hWalk
          · cases hWalk
          · rename_i provider hProvider
            obtain ⟨resourceId, hResourceId, hWalk⟩ := List.mem_flatMap.mp hWalk
            rw [resourceWalks] at hWalk
            split at hWalk
            · cases hWalk
            · rename_i resource hResource
              obtain ⟨sideEffectId, hSideEffect, rfl⟩ := List.mem_map.mp hWalk
              obtain ⟨hSideEffectId, hStored⟩ := List.mem_filter.mp hSideEffect
              exact ⟨agent, identity, provider, resource, hAgent, hIdentityId, hIdentity, hToolId, hProviderId, hProvider,
                hResourceId, hResource, hSideEffectId, hStored⟩
  · rintro ⟨agent, identity, provider, resource, h⟩
    rw [← List.count_pos_iff, h.count_walks]
    have hIdentity := List.count_pos_iff.mpr h.hasIdentity
    have hTool := List.count_pos_iff.mpr h.hasTool
    have hResource := List.count_pos_iff.mpr h.hasResource
    have hSideEffect := List.count_pos_iff.mpr h.hasSideEffect
    exact Nat.mul_pos hIdentity (Nat.mul_pos hTool (Nat.mul_pos hResource hSideEffect))

theorem Along.provider_mem {chain : Chain} {agent : AgentRecord} {identity : IdentityRecord} {provider : ProviderRecord}
    {resource : ResourceRecord} (h : Along state tenantId agentId chain agent identity provider resource) :
    provider ∈ ofTenant tenantId state.providers := by
  have hRecord := List.find?_some h.foundProvider
  rw [Stored.isRecord, Bool.and_eq_true] at hRecord
  exact List.mem_filter.mpr ⟨List.mem_of_find?_eq_some h.foundProvider, hRecord.1⟩

theorem Reachable.mem {provider : ProviderRecord} (h : Reachable state tenantId agentId provider) :
    provider ∈ ofTenant tenantId state.providers := by
  obtain ⟨agent, identity, tool, hReaches⟩ := h
  obtain ⟨providerId, _, hFound⟩ := hReaches.foundProvider
  have hRecord := List.find?_some hFound
  rw [Stored.isRecord, Bool.and_eq_true] at hRecord
  exact List.mem_filter.mpr ⟨List.mem_of_find?_eq_some hFound, hRecord.1⟩

end Chains

/-! ## The report -/

section Report

variable {state : InventoryStoreState} {tenantId agentId : Identifier} {now : Int} {freshnessDays : InventoryFreshnessDays}

theorem mem_exposures {id : Identifier} : id ∈ (exposures state tenantId).map Prod.snd ↔
    ∃ provider ∈ ofTenant tenantId state.providers, id ∈ provider.record.resourceIds.val := by
  rw [exposures, List.map_flatMap, List.mem_flatMap]
  constructor
  · rintro ⟨provider, hMem, hId⟩
    rw [List.map_map] at hId
    obtain ⟨resourceId, hResource, rfl⟩ := List.mem_map.mp hId
    exact ⟨provider, hMem, hResource⟩
  · rintro ⟨provider, hMem, hId⟩
    rw [← List.map_id provider.record.resourceIds.val] at hId
    exact ⟨provider, hMem, by rwa [List.map_map]⟩

theorem report_tally : ∃ added, (∀ id, id ∈ added ↔ (∀ c ∈ walks state tenantId agentId, c.resourceId ≠ id) ∧
      isListed state tenantId id = true ∧ ∃ provider ∈ ofTenant tenantId state.providers, id ∈ provider.record.resourceIds.val) ∧
    Tally (walks state tenantId agentId) added (computeBlastRadius state tenantId agentId now freshnessDays).resources := by
  have hFirst := @foldl_coverPath state tenantId [] (findAttackPaths state tenantId agentId now freshnessDays).paths ⟨[], []⟩
    Tally.nil
  rw [List.nil_append, chainOf_paths] at hFirst
  have hCovered : ∀ id, id ∈ ((findAttackPaths state tenantId agentId now freshnessDays).paths.foldl (coverPath state tenantId)
      ⟨[], []⟩).byResource.map BlastRadiusResource.resourceId ↔ ∃ c ∈ walks state tenantId agentId, c.resourceId = id := by
    intro id
    simpa using hFirst.listed id
  refine ⟨_, fun id => ?_, @foldl_coverAdjacent state tenantId agentId _ _ _ hCovered (exposures state tenantId) _ hFirst⟩
  rw [List.nil_append, List.mem_filter, mem_exposures, Bool.and_eq_true, Bool.not_eq_true', ← Bool.not_eq_true,
    List.contains_iff_mem, hCovered]
  constructor
  · rintro ⟨hExposed, hApart, hListed⟩
    exact ⟨fun c hc hSame => hApart ⟨c, hc, hSame⟩, hListed, hExposed⟩
  · rintro ⟨hApart, hListed, hExposed⟩
    exact ⟨hExposed, fun ⟨c, hc, hSame⟩ => hApart c hc hSame, hListed⟩

theorem report_listed {id : Identifier} :
    id ∈ (computeBlastRadius state tenantId agentId now freshnessDays).resources.map BlastRadiusResource.resourceId ↔
      isListed state tenantId id = true ∧ ∃ provider ∈ ofTenant tenantId state.providers, id ∈ provider.record.resourceIds.val := by
  obtain ⟨added, hAdded, hTally⟩ := @report_tally state tenantId agentId now freshnessDays
  rw [hTally.listed, hAdded]
  constructor
  · rintro (⟨c, hc, rfl⟩ | ⟨_, hListed, hExposed⟩)
    · obtain ⟨agent, identity, provider, resource, hAlong⟩ := mem_walks.mp hc
      exact ⟨by simp [isListed, hAlong.foundResource], provider, hAlong.provider_mem, hAlong.hasResource⟩
    · exact ⟨hListed, hExposed⟩
  · rintro ⟨hListed, hExposed⟩
    by_cases hWalk : ∃ c ∈ walks state tenantId agentId, c.resourceId = id
    · exact .inl hWalk
    · exact .inr ⟨fun c hc hSame => hWalk ⟨c, hc, hSame⟩, hListed, hExposed⟩

/-- Every listed resource is exposed by a provider that the agent reaches, every stored one of these is listed once, and
its paths are counted by its chains. -/
structure RadiusExact (state : InventoryStoreState) (tenantId agentId : Identifier) (report : BlastRadiusReport) : Prop where
  sound : ∀ resource ∈ report.resources, ∃ provider, Reachable state tenantId agentId provider ∧
    resource.resourceId ∈ provider.record.resourceIds.val
  complete : ∀ provider, Reachable state tenantId agentId provider → ∀ id ∈ provider.record.resourceIds.val,
    isListed state tenantId id = true → (report.resources.map BlastRadiusResource.resourceId).count id = 1
  counted : ∀ resource ∈ report.resources, ∃ chains : List Chain, chains.Nodup ∧
    (∀ c, c ∈ chains ↔ IsChain state tenantId agentId c ∧ c.resourceId = resource.resourceId) ∧
    resource.pathCount = chains.length

/-- What a provider of the tenant exposes, some provider that the agent reaches exposes. -/
def ExposedReachably (state : InventoryStoreState) (tenantId agentId : Identifier) : Prop :=
  ∀ provider ∈ ofTenant tenantId state.providers, ∀ id ∈ provider.record.resourceIds.val,
    isListed state tenantId id = true → ∃ reached, Reachable state tenantId agentId reached ∧ id ∈ reached.record.resourceIds.val

/-- No list of references along a chain names what it passes a second time. -/
def NamedOnce (state : InventoryStoreState) (tenantId agentId : Identifier) : Prop :=
  ∀ chain agent identity provider resource, Along state tenantId agentId chain agent identity provider resource →
    agent.record.identityIds.val.count chain.identityId = 1 ∧ identity.record.toolIds.val.count chain.toolId = 1 ∧
      provider.record.resourceIds.val.count chain.resourceId = 1 ∧
      resource.record.sideEffectIds.val.count chain.sideEffectId = 1

theorem nodup_walks_iff : (walks state tenantId agentId).Nodup ↔ NamedOnce state tenantId agentId := by
  rw [List.nodup_iff_count_le_one]
  constructor
  · intro hOnce chain agent identity provider resource h
    have hCount := hOnce chain
    have hPos : 0 < (walks state tenantId agentId).count chain :=
      List.count_pos_iff.mpr (mem_walks.mpr ⟨agent, identity, provider, resource, h⟩)
    have hOne : (walks state tenantId agentId).count chain = 1 := by omega
    rw [h.count_walks] at hOne
    have hRest := Nat.eq_one_of_mul_eq_one_left hOne
    have hExposed := Nat.eq_one_of_mul_eq_one_left hRest
    exact ⟨Nat.eq_one_of_mul_eq_one_right hOne, Nat.eq_one_of_mul_eq_one_right hRest,
      Nat.eq_one_of_mul_eq_one_right hExposed, Nat.eq_one_of_mul_eq_one_left hExposed⟩
  · intro hNamed chain
    by_cases hMem : chain ∈ walks state tenantId agentId
    · obtain ⟨agent, identity, provider, resource, h⟩ := mem_walks.mp hMem
      obtain ⟨hIdentity, hTool, hResource, hSideEffect⟩ := hNamed chain agent identity provider resource h
      rw [h.count_walks, hIdentity, hTool, hResource, hSideEffect]
    · rw [List.count_eq_zero.mpr hMem]
      exact Nat.zero_le 1

theorem exists_nodup_length_iff (items : List Chain) :
    (∃ chains : List Chain, chains.Nodup ∧ (∀ c, c ∈ chains ↔ c ∈ items) ∧ items.length = chains.length) ↔ items.Nodup := by
  constructor
  · rintro ⟨chains, hNodup, hMem, hLength⟩
    have hPerm : chains.Perm items.dedup := by
      rw [List.perm_ext_iff_of_nodup hNodup items.nodup_dedup]
      intro c
      rw [hMem, List.mem_dedup]
    have hSame := items.dedup_sublist.eq_of_length (hPerm.length_eq.symm.trans hLength.symm)
    rw [← hSame]
    exact items.nodup_dedup
  · intro hNodup
    exact ⟨items, hNodup, fun _ => Iff.rfl, rfl⟩

/-- **Blast radius.** For every state and every agent, the report is exact if and only if what the providers of the tenant
expose is exposed by providers that the agent reaches, and no list along a chain names a member twice. -/
theorem radiusExact_iff (state : InventoryStoreState) (tenantId agentId : Identifier) (now : Int)
    (freshnessDays : InventoryFreshnessDays) :
    RadiusExact state tenantId agentId (computeBlastRadius state tenantId agentId now freshnessDays) ↔
      ExposedReachably state tenantId agentId ∧ NamedOnce state tenantId agentId := by
  obtain ⟨added, -, hTally⟩ := @report_tally state tenantId agentId now freshnessDays
  have hWalks : ∀ id c, c ∈ (walks state tenantId agentId).filter (fun c => decide (c.resourceId = id)) ↔
      IsChain state tenantId agentId c ∧ c.resourceId = id := by
    intro id c
    rw [List.mem_filter, mem_walks, decide_eq_true_eq]
  constructor
  · intro hExact
    constructor
    · intro provider hProvider id hId hListed
      obtain ⟨resource, hResource, rfl⟩ := List.mem_map.mp
        ((@report_listed state tenantId agentId now freshnessDays id).mpr ⟨hListed, provider, hProvider, hId⟩)
      exact hExact.sound resource hResource
    · rw [← nodup_walks_iff, List.nodup_iff_count_le_one]
      intro chain
      by_cases hMem : chain ∈ walks state tenantId agentId
      · -- The count of a chain is its count among the walks to its resource, which is listed.
        obtain ⟨resource, hResource, hId⟩ := List.mem_map.mp ((hTally.listed chain.resourceId).mpr (.inl ⟨chain, hMem, rfl⟩))
        obtain ⟨chains, hNodup, hChains, hCount⟩ := hExact.counted resource hResource
        have hFiltered := (exists_nodup_length_iff ((walks state tenantId agentId).filter
          fun c => decide (c.resourceId = resource.resourceId))).mp ⟨chains, hNodup, fun c => by rw [hChains, hWalks], by
            rw [← hCount, hTally.count resource hResource, List.countP_eq_length_filter]⟩
        have hOnce := List.nodup_iff_count_le_one.mp hFiltered chain
        rwa [List.count_filter (by simp [hId])] at hOnce
      · rw [List.count_eq_zero.mpr hMem]
        exact Nat.zero_le 1
  · rintro ⟨hExposed, hNamed⟩
    constructor
    · intro resource hResource
      obtain ⟨hListed, provider, hProvider, hId⟩ :=
        (@report_listed state tenantId agentId now freshnessDays _).mp (List.mem_map_of_mem hResource)
      exact hExposed provider hProvider _ hId hListed
    · intro provider hReachable id hId hListed
      exact List.count_eq_one_of_mem hTally.nodup (report_listed.mpr ⟨hListed, provider, hReachable.mem, hId⟩)
    · intro resource hResource
      have hNodup := (nodup_walks_iff.mpr hNamed).filter fun c => decide (c.resourceId = resource.resourceId)
      exact ⟨_, hNodup, hWalks resource.resourceId, by
        rw [hTally.count resource hResource, List.countP_eq_length_filter]⟩

end Report

/-! ## A provider out of reach -/

theorem crm_isIdentifier : isIdentifier "crm" = true := by decide +kernel

theorem crm_isName : acceptsText 160 "crm" = true ∧ trim "crm" = "crm" := by decide +kernel

theorem crm_isType : acceptsText 120 "crm" = true ∧ trim "crm" = "crm" := by decide +kernel

def crm : Identifier := ⟨"crm", crm_isIdentifier⟩

def crmProvenance : RecordProvenance := ⟨crm, .config, ⟨"crm", crm_isType⟩, 0, crm⟩

def noReferences (max : Nat) (α : Type) : Several max α := ⟨[], Nat.zero_le max⟩

def oneReference : References := ⟨[crm], by decide⟩

def crmAgent : ImportedAgent where
  agentId := crm
  name := ⟨"crm", crm_isName⟩
  ownerId := none
  businessPurpose := none
  model := none
  runtime := none
  version := none
  identityIds := noReferences _ _
  environmentIds := noReferences _ _
  gatewayManaged := true
  killSwitchEnabled := true
  lastEvidenceAt := none

def crmProvider : ImportedProvider where
  providerId := crm
  name := ⟨"crm", crm_isName⟩
  providerType := ⟨"crm", crm_isType⟩
  ownerId := none
  environmentIds := noReferences _ _
  resourceIds := oneReference
  gatewayBound := true
  killSwitchApplied := true

def crmResource : ImportedResource where
  resourceId := crm
  providerId := crm
  resourceType := ⟨"crm", crm_isType⟩
  name := ⟨"crm", crm_isName⟩
  environmentIds := noReferences _ _
  sensitive := false
  ownerId := none
  businessPurpose := none
  sideEffectIds := noReferences _ _

/-- An agent without identities beside a provider of its tenant that exposes a resource. -/
def apartState : InventoryStoreState :=
  { emptyInventoryState with
    agents := [⟨crm, crmAgent, crmProvenance, ⟨0, 0⟩⟩]
    providers := [⟨crm, crmProvider, crmProvenance, ⟨0, 0⟩⟩]
    resources := [⟨crm, crmResource, crmProvenance, ⟨0, 0⟩⟩] }

theorem apart_unreached (provider : ProviderRecord) : ¬Reachable apartState crm crm provider := by
  rintro ⟨agent, identity, tool, h⟩
  obtain ⟨identityId, hIdentity, hFound⟩ := h.foundIdentity
  cases hFound

/-- The blast radius of an agent that reaches nothing lists a resource. -/
theorem radius_not_reachability :
    ¬RadiusExact apartState crm crm (computeBlastRadius apartState crm crm 0 defaultFreshnessDays) := by
  intro hExact
  have hListed : crm ∈ (computeBlastRadius apartState crm crm 0 defaultFreshnessDays).resources.map
      BlastRadiusResource.resourceId :=
    report_listed.mpr ⟨by decide +kernel, ⟨crm, crmProvider, crmProvenance, ⟨0, 0⟩⟩, List.mem_singleton_self _,
      List.mem_singleton_self _⟩
  obtain ⟨resource, hResource, _⟩ := List.mem_map.mp hListed
  obtain ⟨provider, hReachable, _⟩ := hExact.sound resource hResource
  exact apart_unreached provider hReachable

end GhostApi.Inventory
