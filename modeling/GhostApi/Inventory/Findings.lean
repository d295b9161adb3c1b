import GhostApi.Inventory.Import

/-!
# Findings

The rules over the records of a tenant, and the analysis that replaces the
findings of the tenant by the computed ones. The identifier of a finding is a
digest of its kind and its target, so two rules of one kind can give one
identifier to two findings. A finding is resolved through the first applied
remediation that is about it.
-/

namespace GhostApi.Inventory

open Js Validation Effect Storage

/-! ## Sentences -/

theorem trimList_ends {c d : Char} (middle : List Char) (hFirst : isSpace c = false) (hLast : isSpace d = false) :
    trimList (c :: (middle ++ [d])) = c :: (middle ++ [d]) := by
  have hDrop : (c :: (middle ++ [d])).dropWhile isSpace = c :: (middle ++ [d]) := by
    rw [List.dropWhile_cons, hFirst]
    rfl
  rw [trimList, hDrop, List.rdropWhile_eq_self_iff]
  intro hl
  simp [hLast]

theorem trim_between {start finish : String} (rest : String) (hStart : (start.toList.head?.any (!isSpace ·)) = true)
    (hFinish : (finish.toList.getLast?.any (!isSpace ·)) = true) : trim (start ++ rest ++ finish) = start ++ rest ++ finish := by
  obtain ⟨c, hHead, hFirst⟩ := (Option.any_eq_true _ _).mp hStart
  obtain ⟨d, hTail, hLast⟩ := (Option.any_eq_true _ _).mp hFinish
  obtain ⟨tail, hCs⟩ := List.head?_eq_some_iff.mp hHead
  obtain ⟨front, hDs⟩ := List.getLast?_eq_some_iff.mp hTail
  rw [trim, String.toList_append, String.toList_append, hCs, hDs]
  have hShape : c :: tail ++ rest.toList ++ (front ++ [d]) = c :: ((tail ++ rest.toList ++ front) ++ [d]) := by simp
  rw [hShape, trimList_ends _ (by simpa using hFirst) (by simpa using hLast), ← hShape, ← hCs, ← hDs,
    ← String.toList_append, ← String.toList_append, String.ofList_toList]

inductive Subject
  | agent
  | provider
  | resource
  | credential
  | noPolicy
  | policyDrift

def Subject.text : Subject → String
  | .agent => "Agent "
  | .provider => "Provider "
  | .resource => "Resource "
  | .credential => "Credential "
  | .noPolicy => "No policy covers environment "
  | .policyDrift => "Policy drift for environment "

theorem Subject.head_text (subject : Subject) : (subject.text.toList.head?.any (!isSpace ·)) = true := by
  cases subject
  all_goals decide

theorem stop_text : (".".toList.getLast?.any (!isSpace ·)) = true := by decide

def sentence (subject : Subject) (rest : String) : Sentence :=
  ⟨subject.text ++ rest ++ ".", trim_between rest subject.head_text stop_text⟩

/-! ## Rules -/

theorem production_isIdentifier : isIdentifier "production" = true := by decide +kernel

def PRODUCTION_ENVIRONMENT : Identifier := ⟨"production", production_isIdentifier⟩

def findingName (tenantId : Identifier) (kind : FindingKind) (targetKind : TargetKind) (targetId : Identifier) : String :=
  tenantId.val ++ ":" ++ kind.text ++ ":" ++ targetKind.text ++ ":" ++ targetId.val

def findingIdOf (tenantId : Identifier) (kind : FindingKind) (targetKind : TargetKind) (targetId : Identifier) : String :=
  digestName "finding-" (findingName tenantId kind targetKind targetId)

structure Rule where
  kind : FindingKind
  severity : Severity
  ruleId : String
  basis : FindingBasis

def makeFinding (tenantId : Identifier) (now : Int) (rule : Rule) (targetKind : TargetKind) (targetId : Identifier)
    (reason : Sentence) : FindingRecord where
  tenantId
  findingId := findingIdOf tenantId rule.kind targetKind targetId
  kind := rule.kind
  severity := rule.severity
  targetKind
  targetId
  ruleId := rule.ruleId
  reason
  basis := rule.basis
  discoveredAt := now
  status := .openFinding

section Rules

variable (state : InventoryStoreState) (tenantId : Identifier) (now : Int) (freshnessDays : InventoryFreshnessDays)

def raiseIf (c : Bool) (finding : FindingRecord) : List FindingRecord := if c then [finding] else []

def agentFindings (knownOwners : List Identifier) (agent : ImportedAgent) : List FindingRecord :=
  let about (rule : Rule) (rest : String) : FindingRecord :=
    makeFinding tenantId now rule (.node .agent) agent.agentId (sentence .agent (agent.agentId.val ++ rest))
  let inProduction := agent.environmentIds.val.contains PRODUCTION_ENVIRONMENT
  raiseIf (!agent.ownerId.any knownOwners.contains)
    (about ⟨.orphanedAgents, if inProduction then .high else .medium, "rule.orphaned_agents", .evidence⟩
      (" has no declared owner" ++ (agent.ownerId.map fun ownerId =>
        " (owner " ++ ownerId.val ++ " is not a known identity principal)").getD "")) ++
  raiseIf (!agent.gatewayManaged) (about ⟨.agentsOutsideGateway, .medium, "rule.agents_outside_gateway", .evidence⟩
      " is not managed through the GhostAPI gateway and can reach tools or providers directly") ++
  (match agent.lastEvidenceAt with
    | none => [about ⟨.missingEvidence, .medium, "rule.missing_evidence", .evidence⟩
        " has no recorded safety evidence (no evidence metadata imported)"]
    | some last => raiseIf (freshnessDays.evidenceFreshDays * DAY_MS < now - timeOf last)
        (about ⟨.missingEvidence, .low, "rule.stale_evidence", .evidence⟩ (" has evidence older than " ++
          toString freshnessDays.evidenceFreshDays ++ " days (last evidence " ++ last.val ++ ")"))) ++
  raiseIf (inProduction && !agent.killSwitchEnabled)
    (about ⟨.missingKillSwitch, .high, "rule.missing_agent_kill_switch", .evidence⟩
      " operates in a production environment without an enabled kill switch")

def providerFindings (provider : ImportedProvider) : List FindingRecord :=
  let about (rule : Rule) (rest : String) : FindingRecord :=
    makeFinding tenantId now rule (.node .provider) provider.providerId (sentence .provider (provider.providerId.val ++ rest))
  let inProduction := provider.environmentIds.val.contains PRODUCTION_ENVIRONMENT
  raiseIf (inProduction && provider.ownerId.isNone)
    (about ⟨.unownedProductionIntegrations, .high, "rule.unowned_production_provider", .evidence⟩
      " is a production integration without an owner") ++
  raiseIf (inProduction && !provider.killSwitchApplied)
    (about ⟨.missingKillSwitch, .high, "rule.missing_provider_kill_switch", .evidence⟩
      " is a production integration without a GhostAPI kill switch applied")

def resourceFindings (resource : ImportedResource) : List FindingRecord :=
  raiseIf (resource.environmentIds.val.contains PRODUCTION_ENVIRONMENT && resource.ownerId.isNone)
    (makeFinding tenantId now ⟨.unownedProductionIntegrations, .high, "rule.unowned_production_resource", .evidence⟩
      (.node .resource) resource.resourceId
      (sentence .resource (resource.resourceId.val ++ " is a production resource without an owner")))

def requiredScopes (credential : ImportedCredential) : List Scope :=
  credential.toolIds.val.flatMap fun toolId => match findRecord tenantId toolId state.tools with
    | none => []
    | some tool => tool.record.requiredScopes.val

def credentialFindings (credential : ImportedCredential) : List FindingRecord :=
  let about (rule : Rule) (rest : String) : FindingRecord :=
    makeFinding tenantId now rule (.node .credential) credential.credentialId
      (sentence .credential (credential.credentialId.val ++ rest))
  let unused (note : String) : FindingRecord :=
    about ⟨.staleUnusedCredentials, .medium, "rule.stale_unused_credentials", .evidence⟩ (" is active but unused" ++ note)
  if credential.status ≠ .active then []
  else
    let extra := credential.grantScopes.val.filter fun scope => !(requiredScopes state tenantId credential).contains scope
    (match credential.lastUsedAt with
      | none => [unused " (never used)"]
      | some last => raiseIf (freshnessDays.credentialStaleDays * DAY_MS < now - timeOf last)
          (unused (" for " ++ toString ((now - timeOf last) / DAY_MS) ++ " days"))) ++
    raiseIf (!extra.isEmpty) (about ⟨.excessivePermissions, .medium, "rule.excessive_permissions", .heuristic⟩
      (" grants scopes [" ++ joined extra ++
        "] that are not required by any bound tool. Heuristic scope analysis; confirm before reducing"))

/-- The members of a set in the order in which they were added. -/
def addAll (ids : List Identifier) : List Identifier :=
  ids.foldl (fun set id => Table.upsert (fun other => decide (other = id)) id set) []

def environmentsWithAgents : List Identifier :=
  addAll ((ofTenant tenantId state.agents).flatMap fun agent => agent.record.environmentIds.val)

def policiesFor (environmentId : Identifier) : List PolicyRecord :=
  (ofTenant tenantId state.policies).filter fun policy => policy.record.environmentIds.val.contains environmentId

def missingPolicy (environmentId : Identifier) : List FindingRecord :=
  let agentCount := (ofTenant tenantId state.agents).countP fun agent =>
    agent.record.environmentIds.val.contains environmentId
  raiseIf (policiesFor state tenantId environmentId).isEmpty
    (makeFinding tenantId now ⟨.policyDrift, .medium, "rule.policy_missing", .evidence⟩ .environment environmentId
      (sentence .noPolicy (environmentId.val ++ " used by " ++ toString agentCount ++ " active agent(s)")))

def latestExpectationsBySource : List ImportRunRecord :=
  Latest.latestBy (fun run => run.source.sourceId) (state.importRuns.filter fun run =>
    decide (run.tenantId = tenantId) && !run.expectedPolicyHashes.val.isEmpty)

def expectations : List (ImportRunRecord × ExpectedPolicyHash) :=
  (latestExpectationsBySource state tenantId).flatMap fun run =>
    run.expectedPolicyHashes.val.map fun expectation => (run, expectation)

def isDrifted (expectation : ExpectedPolicyHash) : Bool :=
  !(policiesFor state tenantId expectation.environmentId).any fun policy =>
    decide (policy.record.hash = expectation.policyHash)

def driftFinding (expected : ImportRunRecord × ExpectedPolicyHash) : List FindingRecord :=
  let matching := policiesFor state tenantId expected.2.environmentId
  let stored := if matching.isEmpty then "none" else Json.join ", " (matching.map fun policy => policy.record.hash.val)
  raiseIf (isDrifted state tenantId expected.2)
    (makeFinding tenantId now ⟨.policyDrift, .high, "rule.policy_drift", .evidence⟩ .environment expected.2.environmentId
      (sentence .policyDrift (expected.2.environmentId.val ++ ": expected hash " ++ expected.2.policyHash.val ++
        " from source " ++ expected.1.source.sourceId.val ++ ", stored policy hash(es) [" ++ stored ++ "]")))

def knownOwners : List Identifier := (ofTenant tenantId state.identities).map fun identity => identity.record.principalId

def computeFindings : List FindingRecord :=
  (ofTenant tenantId state.agents).flatMap (fun agent =>
    agentFindings tenantId now freshnessDays (knownOwners state tenantId) agent.record) ++
  (ofTenant tenantId state.providers).flatMap (fun provider => providerFindings tenantId now provider.record) ++
  (ofTenant tenantId state.resources).flatMap (fun resource => resourceFindings tenantId now resource.record) ++
  (ofTenant tenantId state.credentials).flatMap (fun credential =>
    credentialFindings state tenantId now freshnessDays credential.record) ++
  (environmentsWithAgents state tenantId).flatMap (missingPolicy state tenantId now) ++
  (expectations state tenantId).flatMap (driftFinding state tenantId now)

end Rules

/-! ## Analysis -/

/-- The kind and the target; the text of the source joins them by colons. -/
def findingKey (finding : FindingRecord) : FindingKind × TargetKind × Identifier :=
  (finding.kind, finding.targetKind, finding.targetId)

section Analysis

variable (options : InventoryControllerOptions) (state : InventoryStoreState) (tenantId : Identifier)

def isOwnedBy {ι : Type} [InventoryRecord ι] (records : List (Stored ι)) (ownerOf : ι → Option Identifier)
    (targetId ownerId : Identifier) : Bool :=
  (findRecord tenantId targetId records).any fun found => ownerOf found.record = some ownerId

def isRemediationEffective (remediation : RemediationRecord) : Bool :=
  match remediation.kind, remediation.targetKind with
  | .reduceScope, .node .credential =>
    match findRecord tenantId remediation.targetId state.credentials, remediation.result.bind (·.reducedScopes) with
    | some credential, some reduced => credential.record.grantScopes.val.all reduced.val.contains
    | _, _ => false
  | .revoke, .node .credential =>
    (findRecord tenantId remediation.targetId state.credentials).any fun found => found.record.status = .revoked
  | .assignOwner, targetKind =>
    match remediation.result.bind (·.ownerId), targetKind with
    | some ownerId, .node .agent => isOwnedBy tenantId state.agents ImportedAgent.ownerId remediation.targetId ownerId
    | some ownerId, .node .provider =>
      isOwnedBy tenantId state.providers ImportedProvider.ownerId remediation.targetId ownerId
    | some ownerId, .node .resource =>
      isOwnedBy tenantId state.resources ImportedResource.ownerId remediation.targetId ownerId
    | some ownerId, .node .credential =>
      isOwnedBy tenantId state.credentials ImportedCredential.ownerId remediation.targetId ownerId
    | _, _ => false
  | .onboardThroughGateway, .node .agent =>
    (findRecord tenantId remediation.targetId state.agents).any fun found => found.record.gatewayManaged
  | .createEval, _ => match remediation.result.bind (·.evalScenarioId) with
    | some scenarioId => options.evalScenarioExists.all fun scenarioExists => scenarioExists scenarioId
    | none => false
  | _, _ => false

/-- An applied remediation of the tenant for a finding and its target. -/
def isMatching (finding : FindingRecord) (remediation : RemediationRecord) : Bool :=
  decide (remediation.tenantId = tenantId) && decide (remediation.status = .applied) &&
    decide (remediation.findingId = finding.findingId) && decide (remediation.targetKind = finding.targetKind) &&
    decide (remediation.targetId = finding.targetId)

/-- The last finding of the tenant with the kind and the target. -/
def previousFinding (finding : FindingRecord) : Option FindingRecord :=
  state.findings.reverse.find? fun other =>
    decide (other.tenantId = tenantId) && decide (findingKey other = findingKey finding)

def nextStatus (finding : FindingRecord) : FindingStatus :=
  match state.remediations.find? (isMatching tenantId finding) with
  | some remediation =>
    if isRemediationEffective options state tenantId remediation then
      .resolved remediation.appliedAt (some remediation.remediationId)
    else finding.status
  | none => match (previousFinding state tenantId finding).map FindingRecord.status with
    | some (.resolved resolvedAt remediationId) => .resolved resolvedAt remediationId
    | _ => finding.status

def nextFinding (finding : FindingRecord) : FindingRecord :=
  { finding with status := nextStatus options state tenantId finding }

def isResolvedNow (finding : FindingRecord) : Bool :=
  (state.remediations.find? (isMatching tenantId finding)).any (isRemediationEffective options state tenantId)

structure AnalysisResult where
  findings : Nat
  resolved : Nat

def analyzeOp (now : Int) : Except JsError (AnalysisResult × InventoryStoreState) := do
  let computed := computeFindings state tenantId now options.freshnessDays
  let nextFindings := computed.map (nextFinding options state tenantId)
  let findings := state.findings.filter (fun finding => decide (finding.tenantId ≠ tenantId)) ++ nextFindings
  assertStoreBounds { state with findings }
  return (⟨nextFindings.length, computed.countP (isResolvedNow options state tenantId)⟩, { state with findings })

end Analysis

structure AnalyzeInput where
  authenticate : Except JsError JsValue
  now : Option Int

def analyze (options : InventoryControllerOptions) (input : AnalyzeInput) (store : Option InventoryStoreState) :
    Except JsError (AnalysisResult × InventoryStoreState) := do
  let operator ← authorize input.authenticate .analyze
  let now ← format.timestamp input.now
  format.update (attempt fun state => analyzeOp options state operator.tenantId now) store

end GhostApi.Inventory
