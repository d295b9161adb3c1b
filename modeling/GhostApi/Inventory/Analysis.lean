import GhostApi.Inventory.Edges
import GhostApi.Inventory.Remediations

/-!
# Analyses along runs

The identifier of a finding is a digest of its kind and its target, so two
findings of one analysis share an identifier when two rules, or two expected
hashes, report one environment. A finding is resolved through the first
applied remediation about it, even where that one has been undone and a later
one holds.
-/

namespace GhostApi.Inventory

open Js Validation Effect Storage Transition

/-! ## Findings of the rules -/

section Rules

variable {tenantId : Identifier} {now : Int} {targetKind : TargetKind} {targetId : Identifier}
  {findings findings' : List FindingRecord} {finding : FindingRecord}

def About (tenantId : Identifier) (now : Int) (targetKind : TargetKind) (targetId : Identifier) (findings : List FindingRecord) :
    Prop :=
  ∀ finding ∈ findings, ∃ rule reason, finding = makeFinding tenantId now rule targetKind targetId reason

theorem mem_raiseIf {c : Bool} {raised : FindingRecord} : finding ∈ raiseIf c raised ↔ c = true ∧ finding = raised := by
  cases c with
  | true => simp [raiseIf]
  | false => simp [raiseIf]

theorem about_make (rule : Rule) (reason : Sentence) :
    About tenantId now targetKind targetId [makeFinding tenantId now rule targetKind targetId reason] := by
  intro finding hFinding
  exact ⟨rule, reason, List.mem_singleton.mp hFinding⟩

theorem about_raiseIf (c : Bool) (rule : Rule) (reason : Sentence) :
    About tenantId now targetKind targetId (raiseIf c (makeFinding tenantId now rule targetKind targetId reason)) := by
  intro finding hFinding
  exact ⟨rule, reason, (mem_raiseIf.mp hFinding).2⟩

theorem About.append (h : About tenantId now targetKind targetId findings)
    (h' : About tenantId now targetKind targetId findings') : About tenantId now targetKind targetId (findings ++ findings') := by
  intro finding hFinding
  rcases List.mem_append.mp hFinding with hLeft | hRight
  · exact h finding hLeft
  · exact h' finding hRight

theorem kinds_raiseIf (c : Bool) (raised : FindingRecord) :
    ((raiseIf c raised).map FindingRecord.kind).Sublist [raised.kind] := by
  cases c with
  | true => exact List.Sublist.refl _
  | false => exact List.nil_sublist _

variable (tenantId now) (freshnessDays : InventoryFreshnessDays)

theorem agentFindings_about (owners : List Identifier) (agent : ImportedAgent) :
    About tenantId now (.node .agent) agent.agentId (agentFindings tenantId now freshnessDays owners agent) := by
  unfold agentFindings
  dsimp only
  refine About.append (About.append (About.append (about_raiseIf _ _ _) (about_raiseIf _ _ _)) ?_) (about_raiseIf _ _ _)
  cases agent.lastEvidenceAt with
  | none => exact about_make _ _
  | some last => exact about_raiseIf _ _ _

theorem agentFindings_kinds (owners : List Identifier) (agent : ImportedAgent) :
    ((agentFindings tenantId now freshnessDays owners agent).map FindingRecord.kind).Sublist
      [.orphanedAgents, .agentsOutsideGateway, .missingEvidence, .missingKillSwitch] := by
  unfold agentFindings
  dsimp only
  rw [List.map_append, List.map_append, List.map_append]
  change List.Sublist _ ([FindingKind.orphanedAgents] ++ [FindingKind.agentsOutsideGateway] ++ [FindingKind.missingEvidence] ++ [FindingKind.missingKillSwitch])
  refine List.Sublist.append (List.Sublist.append (List.Sublist.append (kinds_raiseIf _ _) (kinds_raiseIf _ _)) ?_)
    (kinds_raiseIf _ _)
  cases agent.lastEvidenceAt with
  | none => exact List.Sublist.refl _
  | some last => exact kinds_raiseIf _ _

theorem providerFindings_about (provider : ImportedProvider) :
    About tenantId now (.node .provider) provider.providerId (providerFindings tenantId now provider) :=
  (about_raiseIf _ _ _).append (about_raiseIf _ _ _)

theorem providerFindings_kinds (provider : ImportedProvider) :
    ((providerFindings tenantId now provider).map FindingRecord.kind).Sublist
      [.unownedProductionIntegrations, .missingKillSwitch] := by
  rw [providerFindings]
  dsimp only
  rw [List.map_append]
  change List.Sublist _ ([FindingKind.unownedProductionIntegrations] ++ [FindingKind.missingKillSwitch])
  exact List.Sublist.append (kinds_raiseIf _ _) (kinds_raiseIf _ _)

theorem resourceFindings_about (resource : ImportedResource) :
    About tenantId now (.node .resource) resource.resourceId (resourceFindings tenantId now resource) :=
  about_raiseIf _ _ _

theorem resourceFindings_kinds (resource : ImportedResource) :
    ((resourceFindings tenantId now resource).map FindingRecord.kind).Sublist [.unownedProductionIntegrations] :=
  kinds_raiseIf _ _

theorem credentialFindings_about (state : InventoryStoreState) (credential : ImportedCredential) :
    About tenantId now (.node .credential) credential.credentialId
      (credentialFindings state tenantId now freshnessDays credential) := by
  unfold credentialFindings
  dsimp only
  split
  · simp [About]
  · refine About.append ?_ (about_raiseIf _ _ _)
    cases credential.lastUsedAt with
    | none => exact about_make _ _
    | some last => exact about_raiseIf _ _ _

theorem credentialFindings_kinds (state : InventoryStoreState) (credential : ImportedCredential) :
    ((credentialFindings state tenantId now freshnessDays credential).map FindingRecord.kind).Sublist
      [.staleUnusedCredentials, .excessivePermissions] := by
  unfold credentialFindings
  dsimp only
  split
  · exact List.nil_sublist _
  · rw [List.map_append]
    change List.Sublist _ ([FindingKind.staleUnusedCredentials] ++ [FindingKind.excessivePermissions])
    refine List.Sublist.append ?_ (kinds_raiseIf _ _)
    cases credential.lastUsedAt with
    | none => exact List.Sublist.refl _
    | some last => exact kinds_raiseIf _ _

end Rules

/-! ## Keys of findings -/

section Keys

variable {α : Type} {xs : List α} {f : α → List FindingRecord} {tenantId : Identifier} {now : Int}

theorem nodup_keys {targetKind : TargetKind} {target : α → Identifier} (hNodup : (xs.map target).Nodup)
    (hAbout : ∀ x ∈ xs, About tenantId now targetKind (target x) (f x)) (kinds : List FindingKind) (hKinds : kinds.Nodup)
    (hSub : ∀ x ∈ xs, ((f x).map FindingRecord.kind).Sublist kinds) : ((xs.flatMap f).map findingKey).Nodup := by
  induction xs with
  | nil => exact List.nodup_nil
  | cons x xs ih =>
    rw [List.map_cons, List.nodup_cons] at hNodup
    rw [List.forall_mem_cons] at hAbout hSub
    rw [List.flatMap_cons, List.map_append, List.nodup_append]
    refine ⟨?_, ih hNodup.2 hAbout.2 hSub.2, ?_⟩
    · have hOwn : ((f x).map FindingRecord.kind).Nodup := hKinds.sublist hSub.1
      have hKind : ((f x).map findingKey).map Prod.fst = (f x).map FindingRecord.kind := by
        rw [List.map_map]
        rfl
      rw [← hKind] at hOwn
      exact hOwn.of_map _
    · rintro key hKey key' hKey' rfl
      obtain ⟨finding, hFinding, rfl⟩ := List.mem_map.mp hKey
      obtain ⟨finding', hFinding', hSame⟩ := List.mem_map.mp hKey'
      obtain ⟨y, hy, hFinding'⟩ := List.mem_flatMap.mp hFinding'
      obtain ⟨rule, reason, rfl⟩ := hAbout.1 finding hFinding
      obtain ⟨rule', reason', rfl⟩ := hAbout.2 y hy finding' hFinding'
      have hTarget : target y = target x := congrArg (fun key => key.2.2) hSame
      exact hNodup.1 (hTarget ▸ List.mem_map_of_mem hy)

theorem keys_raiseIf {c : α → Bool} {raised : α → FindingRecord} {key : α → FindingKind × TargetKind × Identifier}
    (hf : ∀ x, f x = raiseIf (c x) (raised x)) (hKey : ∀ x, findingKey (raised x) = key x) (xs : List α) :
    (xs.flatMap f).map findingKey = (xs.filter c).map key := by
  induction xs with
  | nil => rfl
  | cons x xs ih =>
    rw [List.flatMap_cons, List.map_append, ih, hf]
    cases hc : c x with
    | true => simp [raiseIf, hc, hKey]
    | false => simp [raiseIf, hc]

end Keys

section Computed

variable (state : InventoryStoreState) (tenantId : Identifier) (now : Int) (freshnessDays : InventoryFreshnessDays)

/-- The environments that the policy rules report, as often as they do. -/
def policyTargets : List Identifier :=
  (environmentsWithAgents state tenantId).filter (fun environmentId => (policiesFor state tenantId environmentId).isEmpty) ++
    ((expectations state tenantId).filter fun expected => isDrifted state tenantId expected.2).map (·.2.environmentId)

theorem policy_keys : ((environmentsWithAgents state tenantId).flatMap (missingPolicy state tenantId now) ++
    (expectations state tenantId).flatMap (driftFinding state tenantId now)).map findingKey =
      (policyTargets state tenantId).map fun environmentId => (FindingKind.policyDrift, TargetKind.environment, environmentId) := by
  rw [policyTargets, List.map_append, List.map_append, List.map_map]
  congr 1
  · exact keys_raiseIf (fun _ => rfl) (fun _ => rfl) _
  · exact keys_raiseIf (fun _ => rfl) (fun _ => rfl) _

theorem policy_about : ∀ finding ∈ (environmentsWithAgents state tenantId).flatMap (missingPolicy state tenantId now) ++
    (expectations state tenantId).flatMap (driftFinding state tenantId now),
      ∃ environmentId rule reason, finding = makeFinding tenantId now rule .environment environmentId reason := by
  intro finding hFinding
  rcases List.mem_append.mp hFinding with hMissing | hDrift
  · obtain ⟨environmentId, _, hRaised⟩ := List.mem_flatMap.mp hMissing
    exact ⟨environmentId, _, _, (mem_raiseIf.mp hRaised).2⟩
  · obtain ⟨expected, _, hRaised⟩ := List.mem_flatMap.mp hDrift
    exact ⟨expected.2.environmentId, _, _, (mem_raiseIf.mp hRaised).2⟩

theorem computed_made : ∀ finding ∈ computeFindings state tenantId now freshnessDays,
    ∃ rule targetKind targetId reason, finding = makeFinding tenantId now rule targetKind targetId reason := by
  intro finding hFinding
  rw [computeFindings, List.append_assoc] at hFinding
  simp only [List.mem_append, List.mem_flatMap] at hFinding
  rcases hFinding with (((⟨agent, _, h⟩ | ⟨provider, _, h⟩) | ⟨resource, _, h⟩) | ⟨credential, _, h⟩) | hPolicy
  · obtain ⟨rule, reason, hMade⟩ := agentFindings_about tenantId now freshnessDays _ _ finding h
    exact ⟨rule, _, _, reason, hMade⟩
  · obtain ⟨rule, reason, hMade⟩ := providerFindings_about tenantId now _ finding h
    exact ⟨rule, _, _, reason, hMade⟩
  · obtain ⟨rule, reason, hMade⟩ := resourceFindings_about tenantId now _ finding h
    exact ⟨rule, _, _, reason, hMade⟩
  · obtain ⟨rule, reason, hMade⟩ := credentialFindings_about tenantId now freshnessDays state _ finding h
    exact ⟨rule, _, _, reason, hMade⟩
  · obtain ⟨environmentId, rule, reason, hMade⟩ := policy_about state tenantId now finding (by
      simpa only [List.mem_append, List.mem_flatMap] using hPolicy)
    exact ⟨rule, _, _, reason, hMade⟩

/-- No two records of a kind have one tenant and one identifier. -/
structure UniqueRecords (state : InventoryStoreState) : Prop where
  agents : (state.agents.map Stored.key).Nodup
  providers : (state.providers.map Stored.key).Nodup
  resources : (state.resources.map Stored.key).Nodup
  credentials : (state.credentials.map Stored.key).Nodup

theorem nodup_ofTenant {ι : Type} [InventoryRecord ι] {list : List (Stored ι)} (h : (list.map Stored.key).Nodup) :
    ((ofTenant tenantId list).map Stored.id).Nodup := by
  have hTenant : (ofTenant tenantId list).map Stored.key = ((ofTenant tenantId list).map Stored.id).map fun id => (tenantId, id) := by
    rw [List.map_map]
    refine List.map_congr_left fun stored hStored => ?_
    have hOwn : stored.tenantId = tenantId := of_decide_eq_true (List.mem_filter.mp hStored).2
    rw [Stored.key, hOwn]
    rfl
  have hSub : ((ofTenant tenantId list).map Stored.key).Nodup := h.sublist (List.filter_sublist.map _)
  rw [hTenant] at hSub
  exact hSub.of_map _

theorem kinds_of_keys {α : Type} {xs : List α} {f : α → List FindingRecord} {targetKind : TargetKind} {target : α → Identifier}
    (hAbout : ∀ x ∈ xs, About tenantId now targetKind (target x) (f x)) :
    ∀ key ∈ (xs.flatMap f).map findingKey, key.2.1 = targetKind := by
  intro key hKey
  obtain ⟨finding, hFinding, rfl⟩ := List.mem_map.mp hKey
  obtain ⟨x, hx, hFinding⟩ := List.mem_flatMap.mp hFinding
  obtain ⟨rule, reason, rfl⟩ := hAbout x hx finding hFinding
  rfl

theorem nodup_keys_append {keys keys' : List (FindingKind × TargetKind × Identifier)} (h : keys.Nodup) (h' : keys'.Nodup)
    {kinds : List TargetKind} {targetKind : TargetKind} (hKinds : ∀ key ∈ keys, key.2.1 ∈ kinds)
    (hKind : ∀ key ∈ keys', key.2.1 = targetKind) (hApart : targetKind ∉ kinds) : (keys ++ keys').Nodup := by
  rw [List.nodup_append]
  refine ⟨h, h', ?_⟩
  rintro key hKey key' hKey' rfl
  exact hApart (hKind key hKey' ▸ hKinds key hKey)

theorem mem_kinds_append {keys keys' : List (FindingKind × TargetKind × Identifier)} {kinds : List TargetKind}
    {targetKind : TargetKind} (hKinds : ∀ key ∈ keys, key.2.1 ∈ kinds) (hKind : ∀ key ∈ keys', key.2.1 = targetKind) :
    ∀ key ∈ keys ++ keys', key.2.1 ∈ targetKind :: kinds := by
  intro key hKey
  rcases List.mem_append.mp hKey with hLeft | hRight
  · exact List.mem_cons_of_mem _ (hKinds key hLeft)
  · exact hKind key hRight ▸ List.mem_cons_self

theorem nodup_keys_iff (hUnique : UniqueRecords state) :
    ((computeFindings state tenantId now freshnessDays).map findingKey).Nodup ↔ (policyTargets state tenantId).Nodup := by
  have hAgents : ∀ agent ∈ ofTenant tenantId state.agents, About tenantId now (.node .agent) (Stored.id agent)
      (agentFindings tenantId now freshnessDays (knownOwners state tenantId) agent.record) :=
    fun agent _ => agentFindings_about tenantId now freshnessDays _ agent.record
  have hProviders : ∀ provider ∈ ofTenant tenantId state.providers, About tenantId now (.node .provider) (Stored.id provider)
      (providerFindings tenantId now provider.record) := fun provider _ => providerFindings_about tenantId now provider.record
  have hResources : ∀ resource ∈ ofTenant tenantId state.resources, About tenantId now (.node .resource) (Stored.id resource)
      (resourceFindings tenantId now resource.record) := fun resource _ => resourceFindings_about tenantId now resource.record
  have hCredentials : ∀ credential ∈ ofTenant tenantId state.credentials,
      About tenantId now (.node .credential) (Stored.id credential)
        (credentialFindings state tenantId now freshnessDays credential.record) :=
    fun credential _ => credentialFindings_about tenantId now freshnessDays state credential.record
  have kAgents := kinds_of_keys tenantId now hAgents
  have kProviders := kinds_of_keys tenantId now hProviders
  have kResources := kinds_of_keys tenantId now hResources
  have kCredentials := kinds_of_keys tenantId now hCredentials
  have nAgents := nodup_keys (nodup_ofTenant tenantId hUnique.agents) hAgents _ (by decide)
    fun agent _ => agentFindings_kinds tenantId now freshnessDays _ agent.record
  have nProviders := nodup_keys (nodup_ofTenant tenantId hUnique.providers) hProviders _ (by decide)
    fun provider _ => providerFindings_kinds tenantId now provider.record
  have nResources := nodup_keys (nodup_ofTenant tenantId hUnique.resources) hResources _ (List.nodup_singleton _)
    fun resource _ => resourceFindings_kinds tenantId now resource.record
  have nCredentials := nodup_keys (nodup_ofTenant tenantId hUnique.credentials) hCredentials _ (by decide)
    fun credential _ => credentialFindings_kinds tenantId now freshnessDays state credential.record
  have m1 := mem_kinds_append (by simp : ∀ key ∈ ([] : List (FindingKind × TargetKind × Identifier)), key.2.1 ∈ []) kAgents
  rw [List.nil_append] at m1
  have m2 := mem_kinds_append m1 kProviders
  have m3 := mem_kinds_append m2 kResources
  have hNodes := nodup_keys_append (nodup_keys_append (nodup_keys_append nAgents nProviders m1 kProviders (by decide))
    nResources m2 kResources (by decide)) nCredentials m3 kCredentials (by decide)
  have hKinds := mem_kinds_append m3 kCredentials
  have hInjective : Function.Injective fun environmentId : Identifier =>
      (FindingKind.policyDrift, TargetKind.environment, environmentId) := fun id id' h => congrArg (fun key => key.2.2) h
  rw [computeFindings, List.append_assoc, List.map_append, policy_keys, List.map_append, List.map_append, List.map_append]
  constructor
  · intro h
    exact (List.nodup_append.mp h).2.1.of_map _
  · intro h
    refine nodup_keys_append hNodes (h.map hInjective) hKinds ?_ (by decide : TargetKind.environment ∉ _)
    intro key hKey
    obtain ⟨environmentId, _, rfl⟩ := List.mem_map.mp hKey
    rfl

end Computed

/-! ## Along runs -/

section Merging

variable {ι : Type} [InventoryRecord ι] {kind : String} {limit : Nat} {tenantId : Identifier} {provenance : RecordProvenance}
  {list list' : List (Stored ι)} {record : ι} {batch : List ι}

theorem merge_nodup (hNodup : (list.map Stored.key).Nodup) (h : merge kind limit tenantId provenance list record = .ok list') :
    (list'.map Stored.key).Nodup := by
  unfold merge at h
  dsimp only at h
  split at h
  · rename_i hNone
    split at h
    · cases h
    · cases h
      rw [List.map_append, List.nodup_append]
      refine ⟨hNodup, List.nodup_singleton _, ?_⟩
      rintro key hKey key' hKey' rfl
      obtain ⟨stored, hStored, rfl⟩ := List.mem_map.mp hKey
      have hSame : stored.key = (tenantId, InventoryRecord.id record) := List.mem_singleton.mp hKey'
      have hOther := List.find?_eq_none.mp hNone stored hStored
      rw [Stored.isRecord, Bool.and_eq_true, decide_eq_true_eq, decide_eq_true_eq] at hOther
      exact hOther (Prod.mk.inj hSame)
  · rename_i prior hPrior
    cases h
    have hIs := List.find?_some hPrior
    rw [Stored.isRecord, Bool.and_eq_true, decide_eq_true_eq, decide_eq_true_eq] at hIs
    have hKey : ∀ freshness, Stored.key (⟨tenantId, record, provenance, freshness⟩ : Stored ι) = prior.key := by
      intro freshness
      rw [Stored.key, Stored.key, hIs.1, hIs.2]
      rfl
    rw [Table.map_upsert Stored.key hPrior (hKey _)]
    exact hNodup

theorem merges_nodup (hNodup : (list.map Stored.key).Nodup)
    (h : batch.foldlM (merge kind limit tenantId provenance) list = .ok list') : (list'.map Stored.key).Nodup := by
  induction batch generalizing list with
  | nil =>
    cases h
    exact hNodup
  | cons record batch ih =>
    obtain ⟨mid, hMid, hRest⟩ := bind_eq_ok (List.foldlM_cons.symm.trans h)
    exact ih (merge_nodup hNodup hMid) hRest

end Merging

/-- The findings and remediations of a tenant: identifiers are digests of targets, and what is resolved has an applied
remediation. -/
structure Tracked (tenantId : Identifier) (state : InventoryStoreState) : Prop where
  identified : ∀ finding ∈ state.findings, finding.tenantId = tenantId →
    finding.findingId = findingIdOf tenantId finding.kind finding.targetKind finding.targetId
  proposed : ∀ remediation ∈ state.remediations, remediation.tenantId = tenantId →
    ∃ kind, remediation.findingId = findingIdOf tenantId kind remediation.targetKind remediation.targetId
  resolved : ∀ finding ∈ state.findings, finding.tenantId = tenantId → finding.status ≠ .openFinding →
    ∃ remediation ∈ state.remediations, isMatching tenantId finding remediation = true

/-- No finding and no remediation of the tenant with different targets share a digest. -/
def DigestsApart (tenantId : Identifier) (state : InventoryStoreState) : Prop :=
  ∀ finding ∈ state.findings, ∀ remediation ∈ state.remediations, finding.tenantId = tenantId →
    remediation.tenantId = tenantId → ∀ kind, findingIdOf tenantId finding.kind finding.targetKind finding.targetId =
      findingIdOf tenantId kind remediation.targetKind remediation.targetId →
        remediation.targetKind = finding.targetKind ∧ remediation.targetId = finding.targetId

section Steps

variable {options : InventoryControllerOptions} {tenantId : Identifier} {state after : InventoryStoreState} {now : Int}

theorem isMatching_iff {finding : FindingRecord} {remediation : RemediationRecord} :
    isMatching tenantId finding remediation = true ↔ remediation.tenantId = tenantId ∧ remediation.status = .applied ∧
      remediation.findingId = finding.findingId ∧ remediation.targetKind = finding.targetKind ∧
      remediation.targetId = finding.targetId := by
  simp only [isMatching, Bool.and_eq_true, decide_eq_true_eq, and_assoc]

theorem importOp_keeps {operator : InventoryOperator} {payload : InventoryImportPayload} {runId : String}
    {summary : ImportSummary} (h : importOp options operator payload now runId state = .ok (summary, after)) :
    after.findings = state.findings ∧ after.remediations = state.remediations ∧
      (UniqueRecords state → UniqueRecords after) := by
  obtain ⟨sources, _, h⟩ := bind_eq_ok h
  obtain ⟨merged, hMerged, h⟩ := bind_eq_ok h
  obtain ⟨_, _, h⟩ := bind_eq_ok h
  obtain ⟨_, _, h⟩ := bind_eq_ok h
  cases h
  obtain ⟨agents, hAgents, hMerged⟩ := bind_eq_ok hMerged
  obtain ⟨tools, _, hMerged⟩ := bind_eq_ok hMerged
  obtain ⟨identities, _, hMerged⟩ := bind_eq_ok hMerged
  obtain ⟨providers, hProviders, hMerged⟩ := bind_eq_ok hMerged
  obtain ⟨resources, hResources, hMerged⟩ := bind_eq_ok hMerged
  obtain ⟨sideEffects, _, hMerged⟩ := bind_eq_ok hMerged
  obtain ⟨credentials, hCredentials, hMerged⟩ := bind_eq_ok hMerged
  obtain ⟨policies, _, hMerged⟩ := bind_eq_ok hMerged
  cases hMerged
  refine ⟨rfl, rfl, fun hUnique => ?_⟩
  exact ⟨merges_nodup hUnique.agents hAgents, merges_nodup hUnique.providers hProviders,
    merges_nodup hUnique.resources hResources, merges_nodup hUnique.credentials hCredentials⟩

theorem Tracked.of_same (h : Tracked tenantId state) (hFindings : after.findings = state.findings)
    (hRemediations : after.remediations = state.remediations) : Tracked tenantId after := by
  constructor
  · rw [hFindings]
    exact h.identified
  · rw [hRemediations]
    exact h.proposed
  · rw [hFindings, hRemediations]
    exact h.resolved

theorem Keeps.unique (h : Keeps state after) (hUnique : UniqueRecords state) : UniqueRecords after := by
  constructor
  · rw [h.agents]
    exact hUnique.agents
  · rw [h.providers]
    exact hUnique.providers
  · rw [h.resources]
    exact hUnique.resources
  · rw [h.credentials]
    exact hUnique.credentials

theorem mem_analyzed {result : AnalysisResult} {operatorId : Identifier}
    (h : analyzeOp options state operatorId now = .ok (result, after)) {finding : FindingRecord}
    (hFinding : finding ∈ after.findings) : finding ∈ state.findings ∧ finding.tenantId ≠ operatorId ∨
      ∃ computed ∈ computeFindings state operatorId now options.freshnessDays,
        finding = nextFinding options state operatorId computed := by
  rw [analyzeOp_ok h] at hFinding
  rcases List.mem_append.mp hFinding with hOther | hOwn
  · obtain ⟨hMem, hTenant⟩ := List.mem_filter.mp hOther
    exact .inl ⟨hMem, of_decide_eq_true hTenant⟩
  · obtain ⟨computed, hComputed, rfl⟩ := List.mem_map.mp hOwn
    exact .inr ⟨computed, hComputed, rfl⟩

theorem computed_identified {freshnessDays : InventoryFreshnessDays} {finding : FindingRecord}
    (h : finding ∈ computeFindings state tenantId now freshnessDays) : finding.tenantId = tenantId ∧
      finding.findingId = findingIdOf tenantId finding.kind finding.targetKind finding.targetId ∧
      finding.status = .openFinding := by
  obtain ⟨rule, targetKind, targetId, reason, rfl⟩ := computed_made state tenantId now freshnessDays finding h
  exact ⟨rfl, rfl, rfl⟩

theorem previousFinding_some {finding prior : FindingRecord} (h : previousFinding state tenantId finding = some prior) :
    prior ∈ state.findings ∧ prior.tenantId = tenantId ∧ findingKey prior = findingKey finding := by
  have hIs := List.find?_some h
  rw [Bool.and_eq_true, decide_eq_true_eq, decide_eq_true_eq] at hIs
  exact ⟨List.mem_reverse.mp (List.mem_of_find?_eq_some h), hIs⟩

theorem nextStatus_ne_open (h : Tracked tenantId state) {freshnessDays : InventoryFreshnessDays} {finding : FindingRecord}
    (hFinding : finding ∈ computeFindings state tenantId now freshnessDays) :
    nextStatus options state tenantId finding ≠ .openFinding ↔
      ∃ remediation, state.remediations.find? (isMatching tenantId finding) = some remediation ∧
        isRemediationEffective options state tenantId remediation = true := by
  obtain ⟨_, hId, hOpen⟩ := computed_identified hFinding
  rw [nextStatus, hOpen]
  cases hFind : state.remediations.find? (isMatching tenantId finding) with
  | some remediation =>
    dsimp only
    by_cases hEffective : isRemediationEffective options state tenantId remediation = true
    · simp [hEffective]
    · simp [hEffective]
  | none =>
    dsimp only
    -- A resolved finding of the same key would have an applied remediation, which the search would have found.
    have hPrior : ∀ prior, previousFinding state tenantId finding = some prior → prior.status = .openFinding := by
      intro prior hPrior
      obtain ⟨hMem, hTenant, hKey⟩ := previousFinding_some hPrior
      by_contra hResolved
      obtain ⟨remediation, hRemediation, hMatching⟩ := h.resolved prior hMem hTenant hResolved
      obtain ⟨hKind, hTarget⟩ := Prod.mk.inj hKey
      obtain ⟨hTargetKind, hTargetId⟩ := Prod.mk.inj hTarget
      have hSameId : prior.findingId = finding.findingId := by
        rw [h.identified prior hMem hTenant, hId, hKind, hTargetKind, hTargetId]
      obtain ⟨hOwn, hApplied, hFindingId, hRest⟩ := isMatching_iff.mp hMatching
      refine List.find?_eq_none.mp hFind remediation hRemediation (isMatching_iff.mpr ⟨hOwn, hApplied, ?_, ?_, ?_⟩)
      · exact hFindingId.trans hSameId
      · exact hRest.1.trans hTargetKind
      · exact hRest.2.trans hTargetId
    cases hPrevious : previousFinding state tenantId finding with
    | none => simp
    | some prior => simp [hPrior prior hPrevious]

theorem nextFinding_tracked (h : Tracked tenantId state) {freshnessDays : InventoryFreshnessDays} {finding : FindingRecord}
    (hFinding : finding ∈ computeFindings state tenantId now freshnessDays)
    (hResolved : nextStatus options state tenantId finding ≠ .openFinding) :
    ∃ remediation ∈ state.remediations, isMatching tenantId finding remediation = true := by
  obtain ⟨remediation, hFind, _⟩ := (nextStatus_ne_open h hFinding).mp hResolved
  exact ⟨remediation, List.mem_of_find?_eq_some hFind, List.find?_some hFind⟩

theorem analyzeOp_tracked (h : Tracked tenantId state) {operatorId : Identifier} {result : AnalysisResult}
    (hOp : analyzeOp options state operatorId now = .ok (result, after)) : Tracked tenantId after := by
  have hRemediations : after.remediations = state.remediations := by rw [analyzeOp_ok hOp]
  constructor
  · intro finding hFinding hTenant
    obtain ⟨hMem, _⟩ | ⟨computed, hComputed, rfl⟩ := mem_analyzed hOp hFinding
    · exact h.identified finding hMem hTenant
    · obtain ⟨hOwn, hId, _⟩ := computed_identified hComputed
      cases hOwn.symm.trans hTenant
      exact hId
  · rw [hRemediations]
    exact h.proposed
  · intro finding hFinding hTenant hResolved
    rw [hRemediations]
    obtain ⟨hMem, _⟩ | ⟨computed, hComputed, rfl⟩ := mem_analyzed hOp hFinding
    · exact h.resolved finding hMem hTenant hResolved
    · obtain ⟨hOwn, _, _⟩ := computed_identified hComputed
      cases hOwn.symm.trans hTenant
      obtain ⟨remediation, hRemediation, hMatching⟩ := nextFinding_tracked h hComputed hResolved
      exact ⟨remediation, hRemediation, hMatching⟩

theorem proposeOp_tracked (h : Tracked tenantId state) {operator : InventoryOperator} {proposal : RemediationProposal}
    {remediationId : String} {record : RemediationRecord}
    (hOp : proposeOp options operator proposal now remediationId state = .ok (record, after)) : Tracked tenantId after := by
  obtain ⟨finding, hFind, hTarget⟩ := proposeOp_finding hOp
  obtain ⟨rfl, rfl⟩ := proposeOp_ok hOp
  constructor
  · exact h.identified
  · intro remediation hRemediation hTenant
    rcases List.mem_append.mp hRemediation with hOld | hNew
    · exact h.proposed remediation hOld hTenant
    · cases List.mem_singleton.mp hNew
      have hIs := List.find?_some hFind
      rw [isFinding, Bool.and_eq_true, decide_eq_true_eq, decide_eq_true_eq] at hIs
      refine ⟨finding.kind, ?_⟩
      have hId := h.identified finding (List.mem_of_find?_eq_some hFind) (hIs.1.trans hTenant)
      rw [hIs.2] at hId
      dsimp only [proposedRecord]
      rw [hId, hTarget.1, hTarget.2]
  · intro finding hFinding hTenant hResolved
    obtain ⟨remediation, hRemediation, hMatching⟩ := h.resolved finding hFinding hTenant hResolved
    exact ⟨remediation, List.mem_append_left _ hRemediation, hMatching⟩

theorem matching_upsert {finding : FindingRecord} {remediation found next : RemediationRecord} {same : RemediationRecord → Bool}
    (hMem : remediation ∈ state.remediations) (hMatching : isMatching tenantId finding remediation = true)
    (hFind : state.remediations.find? same = some found) (hStatus : found.status ≠ .applied) :
    ∃ other ∈ Table.upsert same next state.remediations, isMatching tenantId finding other = true := by
  obtain ⟨i, hi⟩ := List.getElem?_of_mem hMem
  rcases Table.getElem?_upsert next hFind hi with hSame | ⟨rfl, _⟩
  · exact ⟨remediation, List.mem_of_getElem? hSame, hMatching⟩
  · exact absurd (isMatching_iff.mp hMatching).2.1 hStatus

theorem upsert_proposed (h : Tracked tenantId state) {found next : RemediationRecord} {same : RemediationRecord → Bool}
    (hFind : state.remediations.find? same = some found) (hTenant : next.tenantId = found.tenantId)
    (hFinding : next.findingId = found.findingId) (hKind : next.targetKind = found.targetKind)
    (hTarget : next.targetId = found.targetId) : ∀ remediation ∈ Table.upsert same next state.remediations,
      remediation.tenantId = tenantId →
      ∃ kind, remediation.findingId = findingIdOf tenantId kind remediation.targetKind remediation.targetId := by
  intro remediation hRemediation hOwn
  rcases Table.eq_or_mem_of_mem_upsert hRemediation with rfl | hOld
  · rw [hFinding, hKind, hTarget]
    exact h.proposed found (List.mem_of_find?_eq_some hFind) (hTenant.symm.trans hOwn)
  · exact h.proposed remediation hOld hOwn

theorem rejectOp_tracked (h : Tracked tenantId state) {operatorId remediationId : Identifier} {result : RemediationRecord}
    (hOp : rejectOp operatorId remediationId state = .ok (result, after)) : Tracked tenantId after := by
  obtain ⟨found, hFind, hStatus, rfl, rfl⟩ := rejectOp_ok hOp
  constructor
  · exact h.identified
  · exact upsert_proposed h hFind rfl rfl rfl rfl
  · intro finding hFinding hTenant hResolved
    obtain ⟨remediation, hRemediation, hMatching⟩ := h.resolved finding hFinding hTenant hResolved
    exact matching_upsert hRemediation hMatching hFind hStatus

theorem mem_resolveFinding {operatorId : Identifier} {remediation : RemediationRecord} {findings : List FindingRecord}
    {finding : FindingRecord} (h : finding ∈ resolveFinding operatorId remediation now findings) : finding ∈ findings ∨
      ∃ old, findings.find? (isFinding operatorId remediation.findingId) = some old ∧
        finding = { old with status := .resolved (some now) (some remediation.remediationId) } := by
  unfold resolveFinding at h
  split at h
  · exact .inl h
  · rename_i old hFind
    rcases Table.eq_or_mem_of_mem_upsert h with hNew | hOld
    · exact .inr ⟨old, hFind, hNew⟩
    · exact .inl hOld

theorem applyOp_tracked (h : Tracked tenantId state) (hApart : DigestsApart tenantId state)
    {operatorId remediationId : Identifier} {result : RemediationRecord}
    (hOp : applyOp operatorId now remediationId state = .ok (result, after)) : Tracked tenantId after := by
  obtain ⟨found, changed, hFind, hStatus, _, rfl, rfl⟩ := applyOp_ok hOp
  have hFound := List.mem_of_find?_eq_some hFind
  have hProposed : found.status ≠ .applied := by
    rw [hStatus]
    decide
  have hIs := List.find?_some hFind
  rw [isRemediation, Bool.and_eq_true, decide_eq_true_eq, decide_eq_true_eq] at hIs
  constructor
  · intro finding hFinding hTenant
    rcases mem_resolveFinding hFinding with hOld | ⟨old, hOld, rfl⟩
    · exact h.identified finding hOld hTenant
    · exact h.identified old (List.mem_of_find?_eq_some hOld) hTenant
  · exact upsert_proposed h hFind rfl rfl rfl rfl
  · intro finding hFinding hTenant hResolved
    rcases mem_resolveFinding hFinding with hOld | ⟨old, hOld, rfl⟩
    · obtain ⟨remediation, hRemediation, hMatching⟩ := h.resolved finding hOld hTenant hResolved
      exact matching_upsert hRemediation hMatching hFind hProposed
    · have hOldMem := List.mem_of_find?_eq_some hOld
      have hOldIs := List.find?_some hOld
      rw [isFinding, Bool.and_eq_true, decide_eq_true_eq, decide_eq_true_eq] at hOldIs
      have hOwn : found.tenantId = tenantId := hIs.1.trans (hOldIs.1.symm.trans hTenant)
      obtain ⟨kind, hKind⟩ := h.proposed found hFound hOwn
      have hDigest := h.identified old hOldMem hTenant
      rw [hOldIs.2, hKind] at hDigest
      obtain ⟨hTargetKind, hTargetId⟩ := hApart old hOldMem found hFound hTenant hOwn kind hDigest.symm
      refine ⟨_, Table.mem_upsert_self _ _ _, isMatching_iff.mpr ⟨hOwn, rfl, hOldIs.2.symm, hTargetKind, hTargetId⟩⟩

end Steps

section Runs

variable {options : InventoryControllerOptions} {tenantId : Identifier} {store : Option InventoryStoreState}
  {after : InventoryStoreState} {now : Int} {es : List InventoryEvent}

theorem write_unique {event : InventoryEvent} (h : UniqueRecords (stateOf store)) (hWrite : event.write options store = .ok after) :
    UniqueRecords after := by
  cases event with
  | importInventory input =>
    obtain ⟨summary, hWrite⟩ := map_snd_eq_ok hWrite
    obtain ⟨operator, payload, now, _, _, _, hOp, _⟩ := importInventory_ok hWrite
    exact (importOp_keeps hOp).2.2 h
  | analyze input =>
    obtain ⟨result, hWrite⟩ := map_snd_eq_ok hWrite
    obtain ⟨operator, now, _, _, hOp, _⟩ := analyze_ok hWrite
    rw [analyzeOp_ok hOp]
    exact ⟨h.agents, h.providers, h.resources, h.credentials⟩
  | proposeRemediation input =>
    obtain ⟨record, hWrite⟩ := map_snd_eq_ok hWrite
    obtain ⟨operator, proposal, now, _, _, _, hOp, _⟩ := proposeRemediation_ok hWrite
    rw [(proposeOp_ok hOp).2]
    exact ⟨h.agents, h.providers, h.resources, h.credentials⟩
  | applyRemediation input =>
    obtain ⟨record, hWrite⟩ := map_snd_eq_ok hWrite
    obtain ⟨operator, now, remediationId, _, _, _, hOp, _⟩ := applyRemediation_ok hWrite
    obtain ⟨remediation, changed, _, _, hChanged, _, rfl⟩ := applyOp_ok hOp
    have hUnique := (applyRemediationEffect_keeps hChanged).unique h
    exact ⟨hUnique.agents, hUnique.providers, hUnique.resources, hUnique.credentials⟩
  | rejectRemediation authenticate remediationId =>
    obtain ⟨record, hWrite⟩ := map_snd_eq_ok hWrite
    obtain ⟨operator, remediationId, _, _, hOp, _⟩ := rejectRemediation_ok hWrite
    obtain ⟨remediation, _, _, _, rfl⟩ := rejectOp_ok hOp
    exact ⟨h.agents, h.providers, h.resources, h.credentials⟩

theorem write_tracked {event : InventoryEvent} (h : Tracked tenantId (stateOf store))
    (hApart : DigestsApart tenantId (stateOf store)) (hWrite : event.write options store = .ok after) :
    Tracked tenantId after := by
  cases event with
  | importInventory input =>
    obtain ⟨summary, hWrite⟩ := map_snd_eq_ok hWrite
    obtain ⟨operator, payload, now, _, _, _, hOp, _⟩ := importInventory_ok hWrite
    obtain ⟨hFindings, hRemediations, _⟩ := importOp_keeps hOp
    exact h.of_same hFindings hRemediations
  | analyze input =>
    obtain ⟨result, hWrite⟩ := map_snd_eq_ok hWrite
    obtain ⟨operator, now, _, _, hOp, _⟩ := analyze_ok hWrite
    exact analyzeOp_tracked h hOp
  | proposeRemediation input =>
    obtain ⟨record, hWrite⟩ := map_snd_eq_ok hWrite
    obtain ⟨operator, proposal, now, _, _, _, hOp, _⟩ := proposeRemediation_ok hWrite
    exact proposeOp_tracked h hOp
  | applyRemediation input =>
    obtain ⟨record, hWrite⟩ := map_snd_eq_ok hWrite
    obtain ⟨operator, now, remediationId, _, _, _, hOp, _⟩ := applyRemediation_ok hWrite
    exact applyOp_tracked h hApart hOp
  | rejectRemediation authenticate remediationId =>
    obtain ⟨record, hWrite⟩ := map_snd_eq_ok hWrite
    obtain ⟨operator, remediationId, _, _, hOp, _⟩ := rejectRemediation_ok hWrite
    exact rejectOp_tracked h hOp

theorem run_unique {guard : Option InventoryStoreState → InventoryEvent → Prop} (run : (machine options).Run guard es store) :
    UniqueRecords (stateOf store) := by
  have hInitial : UniqueRecords (stateOf (machine options).initial) :=
    ⟨List.nodup_nil, List.nodup_nil, List.nodup_nil, List.nodup_nil⟩
  refine run.invariant (I := fun store => UniqueRecords (stateOf store)) hInitial ?_
  intro store event next h _ taken
  cases taken
  obtain ⟨after, hWrite, hServe⟩ | ⟨_, hServe⟩ := @serve_cases options store event
  · rw [hServe]
    exact write_unique h hWrite
  · rw [hServe]
    exact h

theorem run_tracked (run : (machine options).Run (fun store _ => DigestsApart tenantId (stateOf store)) es store) :
    Tracked tenantId (stateOf store) := by
  refine run.invariant (I := fun store => Tracked tenantId (stateOf store)) ⟨?_, ?_, ?_⟩ ?_
  · simp [stateOf, machine, emptyInventoryState]
  · simp [stateOf, machine, emptyInventoryState]
  · simp [stateOf, machine, emptyInventoryState]
  · intro store event next h hApart taken
    cases taken
    obtain ⟨after, hWrite, hServe⟩ | ⟨_, hServe⟩ := @serve_cases options store event
    · rw [hServe]
      exact write_tracked h hApart hWrite
    · rw [hServe]
      exact h

end Runs

/-! ## One analysis -/

/-- What an analysis leaves: different identifiers, findings resolved by effective remediations, and nothing for a second
analysis at the same time to change. -/
structure Analyzed (options : InventoryControllerOptions) (tenantId : Identifier) (now : Int) (after : InventoryStoreState) :
    Prop where
  ids : ((after.findings.filter fun finding => decide (finding.tenantId = tenantId)).map FindingRecord.findingId).Nodup
  resolved : ∀ finding ∈ after.findings, finding.tenantId = tenantId → (finding.status ≠ .openFinding ↔
    ∃ remediation ∈ after.remediations, isMatching tenantId finding remediation = true ∧
      isRemediationEffective options after tenantId remediation = true)
  again : ∀ input operator result after', authorize input.authenticate .analyze = .ok operator →
    operator.tenantId = tenantId → format.timestamp input.now = .ok now →
    analyze options input (some after) = .ok (result, after') → after'.findings = after.findings

/-- The policy rules report no environment twice, the digests of the findings do not collide, and where a remediation about
a finding is effective the first applied one is. -/
structure Settled (options : InventoryControllerOptions) (tenantId : Identifier) (now : Int) (state : InventoryStoreState) :
    Prop where
  policies : (policyTargets state tenantId).Nodup
  digests : ∀ finding ∈ computeFindings state tenantId now options.freshnessDays,
    ∀ other ∈ computeFindings state tenantId now options.freshnessDays, finding.findingId = other.findingId →
      findingKey finding = findingKey other
  first : ∀ finding ∈ computeFindings state tenantId now options.freshnessDays, ∀ first remediation,
    state.remediations.find? (isMatching tenantId finding) = some first → remediation ∈ state.remediations →
    isMatching tenantId finding remediation = true → isRemediationEffective options state tenantId remediation = true →
    isRemediationEffective options state tenantId first = true

section Analyses

variable {options : InventoryControllerOptions} {tenantId : Identifier} {state after : InventoryStoreState} {now : Int}
  {result : AnalysisResult}

theorem analyzeOp_own (hOp : analyzeOp options state tenantId now = .ok (result, after)) :
    (after.findings.filter fun finding => decide (finding.tenantId = tenantId)) =
      (computeFindings state tenantId now options.freshnessDays).map (nextFinding options state tenantId) := by
  rw [analyzeOp_ok hOp]
  dsimp only
  rw [List.filter_append]
  have hOthers : (state.findings.filter fun finding => decide (finding.tenantId ≠ tenantId)).filter
      (fun finding => decide (finding.tenantId = tenantId)) = [] := by
    rw [List.filter_filter, List.filter_eq_nil_iff]
    intro finding _
    simp
  have hOwn : ∀ finding ∈ (computeFindings state tenantId now options.freshnessDays).map (nextFinding options state tenantId),
      decide (finding.tenantId = tenantId) = true := by
    rw [List.forall_mem_map]
    intro computed hComputed
    exact decide_eq_true (computed_identified hComputed).1
  rw [hOthers, List.nil_append, List.filter_eq_self.mpr hOwn]

theorem analyzeOp_ids (hOp : analyzeOp options state tenantId now = .ok (result, after)) :
    (after.findings.filter fun finding => decide (finding.tenantId = tenantId)).map FindingRecord.findingId =
      ((computeFindings state tenantId now options.freshnessDays).map findingKey).map fun key =>
        findingIdOf tenantId key.1 key.2.1 key.2.2 := by
  rw [analyzeOp_own hOp, List.map_map, List.map_map]
  exact List.map_congr_left fun finding hFinding => (computed_identified hFinding).2.1

theorem ids_iff (hUnique : UniqueRecords state) (hOp : analyzeOp options state tenantId now = .ok (result, after)) :
    ((after.findings.filter fun finding => decide (finding.tenantId = tenantId)).map FindingRecord.findingId).Nodup ↔
      (policyTargets state tenantId).Nodup ∧ ∀ finding ∈ computeFindings state tenantId now options.freshnessDays,
        ∀ other ∈ computeFindings state tenantId now options.freshnessDays, finding.findingId = other.findingId →
          findingKey finding = findingKey other := by
  rw [analyzeOp_ids hOp, ← nodup_keys_iff state tenantId now options.freshnessDays hUnique]
  constructor
  · intro hNodup
    refine ⟨hNodup.of_map _, fun finding hFinding other hOther hId => ?_⟩
    refine List.inj_on_of_nodup_map hNodup (List.mem_map_of_mem hFinding) (List.mem_map_of_mem hOther) ?_
    rw [(computed_identified hFinding).2.1, (computed_identified hOther).2.1] at hId
    exact hId
  · rintro ⟨hKeys, hDigests⟩
    refine hKeys.map_on fun key hKey key' hKey' hSame => ?_
    obtain ⟨finding, hFinding, rfl⟩ := List.mem_map.mp hKey
    obtain ⟨other, hOther, rfl⟩ := List.mem_map.mp hKey'
    refine hDigests finding hFinding other hOther ?_
    rw [(computed_identified hFinding).2.1, (computed_identified hOther).2.1]
    exact hSame

theorem nextStatus_congr {finding other : FindingRecord} (hKey : findingKey finding = findingKey other)
    (hId : finding.findingId = other.findingId) (hStatus : finding.status = other.status) :
    nextStatus options state tenantId finding = nextStatus options state tenantId other := by
  obtain ⟨_, hTarget⟩ := Prod.mk.inj hKey
  obtain ⟨hTargetKind, hTargetId⟩ := Prod.mk.inj hTarget
  have hMatching : isMatching tenantId finding = isMatching tenantId other := by
    funext remediation
    rw [isMatching, isMatching, hId, hTargetKind, hTargetId]
  rw [nextStatus, nextStatus, hMatching, previousFinding, previousFinding, hKey, hStatus]

theorem previousFinding_again (hOp : analyzeOp options state tenantId now = .ok (result, after)) {finding : FindingRecord}
    (hFinding : finding ∈ computeFindings state tenantId now options.freshnessDays) :
    ∃ prior, previousFinding after tenantId finding = some prior ∧
      prior.status = nextStatus options state tenantId finding := by
  obtain ⟨hTenant, hId, hOpen⟩ := computed_identified hFinding
  have hSome : (previousFinding after tenantId finding).isSome := by
    rw [previousFinding, List.find?_isSome]
    refine ⟨nextFinding options state tenantId finding, ?_, ?_⟩
    · rw [analyzeOp_ok hOp, List.mem_reverse]
      exact List.mem_append_right _ (List.mem_map_of_mem hFinding)
    · rw [Bool.and_eq_true, decide_eq_true_eq, decide_eq_true_eq]
      exact ⟨hTenant, rfl⟩
  obtain ⟨prior, hPrior⟩ := Option.isSome_iff_exists.mp hSome
  obtain ⟨hMem, hOwn, hKey⟩ := previousFinding_some hPrior
  refine ⟨prior, hPrior, ?_⟩
  obtain ⟨_, hOther⟩ | ⟨computed, hComputed, rfl⟩ := mem_analyzed hOp hMem
  · exact absurd hOwn hOther
  · obtain ⟨_, hComputedId, hComputedOpen⟩ := computed_identified hComputed
    have hSame : findingKey computed = findingKey finding := hKey
    obtain ⟨hKind, hTarget⟩ := Prod.mk.inj hSame
    obtain ⟨hTargetKind, hTargetId⟩ := Prod.mk.inj hTarget
    have hIds : computed.findingId = finding.findingId := by rw [hComputedId, hId, hKind, hTargetKind, hTargetId]
    exact nextStatus_congr hSame hIds (hComputedOpen.trans hOpen.symm)

theorem nextStatus_again (hOp : analyzeOp options state tenantId now = .ok (result, after)) {finding : FindingRecord}
    (hFinding : finding ∈ computeFindings state tenantId now options.freshnessDays) :
    nextStatus options after tenantId finding = nextStatus options state tenantId finding := by
  obtain ⟨prior, hPrior, hStatus⟩ := previousFinding_again hOp hFinding
  have hOpen := (computed_identified hFinding).2.2
  have hRemediations : after.remediations = state.remediations := by rw [analyzeOp_ok hOp]
  have hEffective : isRemediationEffective options after tenantId = isRemediationEffective options state tenantId := by
    rw [analyzeOp_ok hOp]
    rfl
  rw [nextStatus, hRemediations, hEffective]
  cases hFind : state.remediations.find? (isMatching tenantId finding) with
  | some remediation =>
    rw [nextStatus, hFind]
  | none =>
    dsimp only
    rw [hPrior, Option.map_some, hStatus, hOpen]
    cases nextStatus options state tenantId finding with
    | openFinding => rfl
    | resolved resolvedAt remediationId => rfl

theorem analyzeOp_again (hOp : analyzeOp options state tenantId now = .ok (result, after)) {result' : AnalysisResult}
    {after' : InventoryStoreState} (hAgain : analyzeOp options after tenantId now = .ok (result', after')) :
    after'.findings = after.findings := by
  have hComputed : computeFindings after tenantId now options.freshnessDays =
      computeFindings state tenantId now options.freshnessDays := by
    rw [analyzeOp_ok hOp]
    rfl
  have hNext : (computeFindings state tenantId now options.freshnessDays).map (nextFinding options after tenantId) =
      (computeFindings state tenantId now options.freshnessDays).map (nextFinding options state tenantId) := by
    refine List.map_congr_left fun finding hFinding => ?_
    rw [nextFinding, nextFinding, nextStatus_again hOp hFinding]
  have hOthers : after.findings.filter (fun finding => decide (finding.tenantId ≠ tenantId)) =
      state.findings.filter fun finding => decide (finding.tenantId ≠ tenantId) := by
    rw [analyzeOp_ok hOp]
    dsimp only
    rw [List.filter_append, List.filter_filter]
    have hOwn : ((computeFindings state tenantId now options.freshnessDays).map (nextFinding options state tenantId)).filter
        (fun finding => decide (finding.tenantId ≠ tenantId)) = [] := by
      rw [List.filter_eq_nil_iff, List.forall_mem_map]
      intro computed hComputed hOther
      exact of_decide_eq_true hOther (computed_identified hComputed).1
    rw [hOwn, List.append_nil]
    simp
  rw [analyzeOp_ok hAgain]
  dsimp only
  rw [hComputed, hNext, hOthers, analyzeOp_ok hOp]

theorem resolved_iff (hTracked : Tracked tenantId state) (hOp : analyzeOp options state tenantId now = .ok (result, after)) :
    (∀ finding ∈ after.findings, finding.tenantId = tenantId → (finding.status ≠ .openFinding ↔
      ∃ remediation ∈ after.remediations, isMatching tenantId finding remediation = true ∧
        isRemediationEffective options after tenantId remediation = true)) ↔
    ∀ finding ∈ computeFindings state tenantId now options.freshnessDays, ∀ first remediation,
      state.remediations.find? (isMatching tenantId finding) = some first → remediation ∈ state.remediations →
      isMatching tenantId finding remediation = true → isRemediationEffective options state tenantId remediation = true →
      isRemediationEffective options state tenantId first = true := by
  have hRemediations : after.remediations = state.remediations := by rw [analyzeOp_ok hOp]
  have hEffective : isRemediationEffective options after tenantId = isRemediationEffective options state tenantId := by
    rw [analyzeOp_ok hOp]
    rfl
  rw [hRemediations, hEffective]
  constructor
  · intro h finding hFinding first remediation hFirst hMem hMatching hHolds
    have hStored : nextFinding options state tenantId finding ∈ after.findings := by
      rw [analyzeOp_ok hOp]
      exact List.mem_append_right _ (List.mem_map_of_mem hFinding)
    have hResolved := (h _ hStored (computed_identified hFinding).1).mpr ⟨remediation, hMem, hMatching, hHolds⟩
    obtain ⟨found, hFound, hFoundHolds⟩ := (nextStatus_ne_open hTracked hFinding).mp hResolved
    cases hFirst.symm.trans hFound
    exact hFoundHolds
  · intro h finding hFinding hTenant
    obtain ⟨_, hOther⟩ | ⟨computed, hComputed, rfl⟩ := mem_analyzed hOp hFinding
    · exact absurd hTenant hOther
    · constructor
      · intro hResolved
        obtain ⟨found, hFound, hHolds⟩ := (nextStatus_ne_open hTracked hComputed).mp hResolved
        exact ⟨found, List.mem_of_find?_eq_some hFound, List.find?_some hFound, hHolds⟩
      · rintro ⟨remediation, hMem, hMatching, hHolds⟩
        have hSome : (state.remediations.find? (isMatching tenantId computed)).isSome :=
          List.find?_isSome.mpr ⟨remediation, hMem, hMatching⟩
        obtain ⟨first, hFirst⟩ := Option.isSome_iff_exists.mp hSome
        have hFirstHolds := h computed hComputed first remediation hFirst hMem hMatching hHolds
        exact (nextStatus_ne_open hTracked hComputed).mpr ⟨first, hFirst, hFirstHolds⟩

end Analyses

/-! ## Light states -/

def blankHash : Hash := hashOf ""

def ImportSourceRecord.blank (record : ImportSourceRecord) : ImportSourceRecord := { record with lastDigest := blankHash }

def ImportRunRecord.blank (run : ImportRunRecord) : ImportRunRecord := { run with digest := blankHash }

/-- A state far below the byte limit, by a count that a test can evaluate: it does not look at the digests. -/
def isLight (state : InventoryStoreState) : Bool :=
  decide (Json.weight 0 (InventoryStoreState.toJson { state with
    sources := state.sources.map ImportSourceRecord.blank
    importRuns := state.importRuns.map ImportRunRecord.blank }) + 1 ≤ MAX_STORE_BYTES)

theorem hash_bytes (hash : Hash) : hash.val.utf8ByteSize = 64 := by
  have hHash := hash.property
  rw [isHash, Bool.and_eq_true, beq_iff_eq, List.all_eq_true] at hHash
  have hAll : (Sha256.hexChars.all fun c => decide (c.utf8Size = 1)) = true := by decide
  have hOne : hash.val.toList.map Char.utf8Size = List.replicate 64 1 := by
    refine List.eq_replicate_iff.mpr ⟨by rw [List.length_map, hHash.1], List.forall_mem_map.mpr fun c hc => ?_⟩
    exact of_decide_eq_true (List.all_eq_true.mp hAll c (List.contains_iff_mem.mp (hHash.2 c hc)))
  have hBytes := Json.utf8ByteSize_ofList hash.val.toList
  rw [String.ofList_toList, hOne] at hBytes
  rw [hBytes]
  rfl

theorem weight_blank_source (record : ImportSourceRecord) :
    Json.weight 2 record.toJson = Json.weight 2 record.blank.toJson := by
  simp only [ImportSourceRecord.toJson, ImportSourceRecord.blank, Json.weight, Json.fieldsWeight_append,
    Json.fieldsWeight, textOf, Json.quoteWeight, hash_bytes]

theorem weight_blank_run (run : ImportRunRecord) : Json.weight 2 run.toJson = Json.weight 2 run.blank.toJson := by
  simp only [ImportRunRecord.toJson, ImportRunRecord.blank, Json.weight, Json.fieldsWeight_append, Json.fieldsWeight,
    textOf, Json.quoteWeight, hash_bytes]

theorem bytes_le_of_isLight {state : InventoryStoreState} (h : isLight state = true) :
    format.bytes state ≤ MAX_STORE_BYTES := by
  refine StoreFormat.bytes_le_of_weight ?_
  have hSources : Json.itemsWeight 2 (state.sources.map ImportSourceRecord.toJson) = _ :=
    Json.itemsWeight_congr state.sources weight_blank_source
  have hRuns : Json.itemsWeight 2 (state.importRuns.map ImportRunRecord.toJson) = _ :=
    Json.itemsWeight_congr state.importRuns weight_blank_run
  rw [isLight, decide_eq_true_eq] at h
  simp only [InventoryStoreState.toJson, Json.weight, Json.fieldsWeight, List.map_map] at h
  change Json.weight 0 state.toJson + 1 ≤ MAX_STORE_BYTES
  simp only [InventoryStoreState.toJson, Json.weight, Json.fieldsWeight]
  rw [hSources, hRuns]
  exact h

/-! ## Calls on light states -/

theorem ValidState.with_findings {state : InventoryStoreState} (h : ValidState state) {findings : List FindingRecord}
    (hFindings : validateAll validateFindingRecord findings "findings" MAX_FINDINGS = .ok ()) :
    ValidState { state with findings } := by
  simp only [ValidState, checkState, bind_unit_eq_ok] at h ⊢
  obtain ⟨h1, h2, h3, h4, h5, h6, h7, h8, h9, h10, h11, _, h13⟩ := h
  exact ⟨h1, h2, h3, h4, h5, h6, h7, h8, h9, h10, h11, hFindings, h13⟩

theorem ValidState.with_remediations {state : InventoryStoreState} (h : ValidState state)
    {remediations : List RemediationRecord}
    (hRemediations : validateAll validateRemediationRecord remediations "remediations" MAX_REMEDIATIONS = .ok ()) :
    ValidState { state with remediations } := by
  simp only [ValidState, checkState, bind_unit_eq_ok] at h ⊢
  obtain ⟨h1, h2, h3, h4, h5, h6, h7, h8, h9, h10, h11, h12, _⟩ := h
  exact ⟨h1, h2, h3, h4, h5, h6, h7, h8, h9, h10, h11, h12, hRemediations⟩

section Calls

variable {options : InventoryControllerOptions} {state after : InventoryStoreState} {now : Int} {operator : InventoryOperator}

theorem update_of_light {α : Type} {operation : InventoryStoreState → Except JsError (α × InventoryStoreState)} {result : α}
    (hValid : ValidState state) (hLight : isLight state = true) (hOp : operation state = .ok (result, after))
    (hAfter : ValidState after) : format.update (attempt operation) (some state) = .ok (result, after) := by
  refine format_accepts.update_of (format_accepts.read_of_size hValid (bytes_le_of_isLight hLight)) ?_ hAfter
  rw [attempt, hOp]

theorem importInventory_of_light {input : ImportInput} {payload : InventoryImportPayload} {summary : ImportSummary}
    (hOperator : authorize input.authenticate .importPermission = .ok operator)
    (hPayload : validateImportPayload input.payload = .ok payload) (hNow : format.timestamp input.now = .ok now)
    (hValid : ValidState state) (hLight : isLight state = true)
    (hOp : importOp options operator payload now (Reliability.uuidName "import-" input.uuid) state = .ok (summary, after))
    (hAfter : ValidState after) : importInventory options input (some state) = .ok (summary, after) := by
  rw [importInventory, hOperator, ok_bind, hPayload, ok_bind, hNow, ok_bind]
  exact update_of_light hValid hLight hOp hAfter

theorem analyze_of_light {input : AnalyzeInput} {result : AnalysisResult}
    (hOperator : authorize input.authenticate .analyze = .ok operator) (hNow : format.timestamp input.now = .ok now)
    (hValid : ValidState state) (hLight : isLight state = true)
    (hOp : analyzeOp options state operator.tenantId now = .ok (result, after)) (hAfter : ValidState after) :
    analyze options input (some state) = .ok (result, after) := by
  rw [analyze, hOperator, ok_bind, hNow, ok_bind]
  exact update_of_light hValid hLight hOp hAfter

theorem proposeRemediation_of_light {input : ProposeInput} {proposal : RemediationProposal} {record : RemediationRecord}
    (hOperator : authorize input.authenticate .remediate = .ok operator)
    (hProposal : validateRemediationProposal input.proposal = .ok proposal) (hNow : format.timestamp input.now = .ok now)
    (hValid : ValidState state) (hLight : isLight state = true)
    (hOp : proposeOp options operator proposal now (Reliability.uuidName "remediation-" input.uuid) state =
      .ok (record, after)) (hAfter : ValidState after) :
    proposeRemediation options input (some state) = .ok (record, after) := by
  rw [proposeRemediation, hOperator, ok_bind, hProposal, ok_bind, hNow, ok_bind]
  exact update_of_light hValid hLight hOp hAfter

end Calls

/-! ## An empty store, and two reports on one environment -/

/-- An agent in an environment without a policy, for which a policy hash is expected. -/
def prodPayload : JsValue :=
  .object [("schemaVersion", integer 1), ("kind", .string "ghostapi.inventory-import"),
    ("source", .object [("sourceId", .string "ci"), ("sourceType", .string "ci"), ("sourceName", .string "ci")]),
    ("expectedPolicyHashes", .array [.object [("environmentId", .string "prod"),
      ("policyHash", .string (String.ofList (List.replicate 64 'a')))]]),
    ("agents", .array [.object [("agentId", .string "bot"), ("name", .string "bot"), ("ownerId", .string "svc"),
      ("identityIds", .array []), ("environmentIds", .array [.string "prod"]), ("gatewayManaged", .bool true),
      ("killSwitchEnabled", .bool false), ("lastEvidenceAt", .string "1970-01-01T00:00:00.000Z")]]),
    ("identities", .array [.object [("identityId", .string "svc"), ("principalId", .string "svc"),
      ("role", .string "service_account"), ("toolIds", .array []), ("environmentIds", .array []),
      ("scopes", .array [])]])]

def prodImport : ImportInput := ⟨.ok acmeOperator, prodPayload, some 1, "00000000-0000-4000-8000-000000000001"⟩

def prodAnalyze : AnalyzeInput := ⟨.ok acmeOperator, some 2⟩

theorem empty_checked :
    ((authorize (.ok acmeOperator) .analyze).toOption.any fun operator => decide (operator.tenantId = acme)) = true ∧
    (analyze defaultOptions prodAnalyze none).toOption.isSome = true ∧
    computeFindings (stateOf none) acme 2 defaultOptions.freshnessDays = [] ∧
    (policyTargets (stateOf none) acme).Nodup := by
  decide +kernel

theorem empty_settled : Settled defaultOptions acme 2 (stateOf none) := by
  obtain ⟨_, _, hNone, hTargets⟩ := empty_checked
  constructor
  · exact hTargets
  · rw [hNone]
    simp
  · rw [hNone]
    simp

theorem prod_analyzed : ((importInventory defaultOptions prodImport none).toOption.any fun imported =>
    isLight imported.2 && (analyzeOp defaultOptions imported.2 acme 2).toOption.any fun analyzed =>
      (validateAll validateFindingRecord analyzed.2.findings "findings" MAX_FINDINGS).toOption.isSome &&
        decide (¬((computeFindings imported.2 acme 2 defaultFreshnessDays).map findingKey).Nodup)) = true := by
  decide +kernel

end GhostApi.Inventory
