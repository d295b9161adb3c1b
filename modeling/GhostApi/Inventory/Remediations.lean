import GhostApi.Inventory.Findings
import GhostApi.Lib.Machine

/-!
# Remediations

A remediation is proposed for an open finding, and applied or rejected later.
The checks of a proposal and those of its application are separate: only the
application asks whether the kind of remediation supports the kind of target.
The last part is the machine of all calls that write the store.
-/

namespace GhostApi.Inventory

open Js Validation Effect Storage Transition
open Reliability (uuidName)

/-! ## Proposals -/

structure RemediationProposal where
  findingId : Identifier
  kind : RemediationKind
  targetKind : TargetKind
  targetId : Identifier
  rationale : Text 400
  ownerId : Option Identifier
  reducedScopes : Option Scopes
  evalScenarioId : Option Identifier
  owned : kind = .assignOwner → ownerId.isSome
  reduced : kind = .reduceScope → reducedScopes.isSome
  evaluated : kind = .createEval → evalScenarioId.isSome

def requireOwner : JsError := refuse "assign_owner remediation requires an owner id."

def requireScopes : JsError := refuse "reduce_scope remediation requires the reduced scope list."

def requireScenario : JsError := refuse "create_eval remediation requires an eval scenario id."

def complete (findingId : Identifier) (kind : RemediationKind) (targetKind : TargetKind) (targetId : Identifier)
    (rationale : Text 400) (ownerId : Option Identifier) (reducedScopes : Option Scopes) (evalScenarioId : Option Identifier) :
    Except JsError RemediationProposal :=
  if owned : kind = .assignOwner → ownerId.isSome then
    if reduced : kind = .reduceScope → reducedScopes.isSome then
      if evaluated : kind = .createEval → evalScenarioId.isSome then
        .ok ⟨findingId, kind, targetKind, targetId, rationale, ownerId, reducedScopes, evalScenarioId, owned, reduced, evaluated⟩
      else .error requireScenario
    else .error requireScopes
  else .error requireOwner

def validateRemediationProposal (value : JsValue) : Except JsError RemediationProposal := do
  let proposal ← object refuse value "Remediation proposal must be an object."
  exactKeys refuse proposal ["findingId", "kind", "targetKind", "targetId", "rationale", "ownerId", "reducedScopes",
    "evalScenarioId"] "remediation proposal" ["ownerId", "reducedScopes", "evalScenarioId"]
  let kind ← enumerated refuse RemediationKind.all RemediationKind.text (proposal.get "kind") "Remediation kind is invalid."
  let targetKind ← enumerated refuse TargetKind.all TargetKind.text (proposal.get "targetKind")
    "Remediation target kind is invalid."
  let findingId ← identifier refuse (proposal.get "findingId") "Remediation finding id"
  let targetId ← identifier refuse (proposal.get "targetId") "Remediation target id"
  let rationale ← text refuse (proposal.get "rationale") "Remediation rationale" 400
  let ownerId ← given (proposal.get "ownerId") fun ownerId => identifier refuse ownerId "Remediation owner id"
  let reducedScopes ← given (proposal.get "reducedScopes") fun reduced =>
    scopes reduced "Remediation reduced scopes" MAX_SCOPES_PER_RECORD
  let evalScenarioId ← given (proposal.get "evalScenarioId") fun scenarioId =>
    identifier refuse scenarioId "Remediation eval scenario id"
  complete findingId kind targetKind targetId rationale ownerId reducedScopes evalScenarioId

theorem proposedBy_head : ("Proposed by ".toList.head?.any (!isSpace ·)) = true := by decide

theorem identifier_last (id : Identifier) : (id.val.toList.getLast?.any (!isSpace ·)) = true := by
  obtain ⟨hChars, hNe, _⟩ := identifier_chars id.property
  rw [List.getLast?_eq_some_getLast hNe, Option.any_some, Bool.not_eq_true']
  exact isSpace_eq_false (by decide) (hChars _ (List.getLast_mem hNe))

theorem trim_proposedBy (proposedBy : Identifier) : trim ("Proposed by " ++ proposedBy.val) = "Proposed by " ++ proposedBy.val := by
  have hTrim := trim_between "" proposedBy_head (identifier_last proposedBy)
  rwa [String.append_empty] at hTrim

def remediationResult (proposal : RemediationProposal) (proposedBy : Identifier) : RemediationResult where
  description := ⟨"Proposed by " ++ proposedBy.val, trim_proposedBy proposedBy⟩
  reducedScopes := proposal.reducedScopes
  evalScenarioId := proposal.evalScenarioId
  ownerId := proposal.ownerId

section Proposing

variable (state : InventoryStoreState) (tenantId : Identifier)

def usesEnvironment {ι : Type} (records : List (Stored ι)) (environmentIds : ι → Environments) (targetId : Identifier) : Bool :=
  records.any fun stored => decide (stored.tenantId = tenantId) && (environmentIds stored.record).val.contains targetId

def remediationTargetExists (targetKind : TargetKind) (targetId : Identifier) : Bool := match targetKind with
  | .node .agent => state.agents.any (Stored.isRecord tenantId targetId)
  | .node .identity => state.identities.any (Stored.isRecord tenantId targetId)
  | .node .tool => state.tools.any (Stored.isRecord tenantId targetId)
  | .node .provider => state.providers.any (Stored.isRecord tenantId targetId)
  | .node .resource => state.resources.any (Stored.isRecord tenantId targetId)
  | .node .sideEffect => state.sideEffects.any (Stored.isRecord tenantId targetId)
  | .node .credential => state.credentials.any (Stored.isRecord tenantId targetId)
  | .environment => usesEnvironment tenantId state.agents ImportedAgent.environmentIds targetId ||
      usesEnvironment tenantId state.identities ImportedIdentity.environmentIds targetId ||
      usesEnvironment tenantId state.providers ImportedProvider.environmentIds targetId ||
      usesEnvironment tenantId state.resources ImportedResource.environmentIds targetId ||
      usesEnvironment tenantId state.credentials ImportedCredential.environmentIds targetId ||
      usesEnvironment tenantId state.policies ImportedPolicy.environmentIds targetId
  | .policy => state.policies.any (Stored.isRecord tenantId targetId)

def assertRemediationTargetExists (targetKind : TargetKind) (targetId : Identifier) : Except JsError Unit :=
  failIf (remediationTargetExists state tenantId targetKind targetId = false) (refuse ("Remediation target " ++
    targetKind.text ++ " " ++ targetId.val ++ " does not exist for the tenant."))

/-- The checks of a reduction, made by the proposal and by the application. -/
def checkReduction (credential : ImportedCredential) (reduced : List Scope) : Except JsError Unit := do
  failIf (credential.status ≠ .active) (refuse "Cannot reduce scopes on a revoked credential.")
  failIf (reduced.all credential.grantScopes.val.contains = false)
    (refuse "Reduced scopes must be a subset of the current grant scopes; permissions are never expanded.")
  failIf (credential.grantScopes.val.length ≤ reduced.length)
    (refuse "reduce_scope must remove at least one scope; permissions are never expanded.")

/-- The checks of a proposal to reduce scopes; its validator requires the list. -/
def checkProposedReduction (proposal : RemediationProposal) : Except JsError Unit :=
  if proposal.kind ≠ .reduceScope then .ok ()
  else if proposal.targetKind ≠ .node .credential then
    .error (refuse "reduce_scope remediation only supports credential targets.")
  else match findRecord tenantId proposal.targetId state.credentials with
    | none => .error (refuse "Remediation target credential does not exist.")
    | some credential => checkReduction credential.record ((proposal.reducedScopes.map Subtype.val).getD [])

def isFinding (findingId : String) (finding : FindingRecord) : Bool :=
  decide (finding.tenantId = tenantId) && decide (finding.findingId = findingId)

def checkFinding (finding : FindingRecord) (proposal : RemediationProposal) : Except JsError Unit := do
  failIf (finding.status ≠ .openFinding) (refuse "Cannot propose remediation for a resolved finding.")
  failIf (¬(proposal.targetKind = finding.targetKind ∧ proposal.targetId = finding.targetId))
    (refuse "Remediation target does not match the finding target.")

/-- The scenario of a proposal is unknown; without a lookup every scenario is accepted. -/
def isUnknownScenario (options : InventoryControllerOptions) (proposal : RemediationProposal) : Bool :=
  decide (proposal.kind = .createEval) && options.evalScenarioExists.any fun scenarioExists =>
    !proposal.evalScenarioId.any scenarioExists

def proposedRecord (operator : InventoryOperator) (proposal : RemediationProposal) (now : Int) (remediationId : String) :
    RemediationRecord where
  tenantId := operator.tenantId
  remediationId
  findingId := proposal.findingId.val
  kind := proposal.kind
  targetKind := proposal.targetKind
  targetId := proposal.targetId
  rationale := proposal.rationale
  proposedBy := operator.principalId
  createdAt := now
  status := .proposed
  appliedAt := none
  result := if proposal.ownerId.isNone && proposal.reducedScopes.isNone && proposal.evalScenarioId.isNone then none
    else some (remediationResult proposal operator.principalId)

end Proposing

def proposeOp (options : InventoryControllerOptions) (operator : InventoryOperator) (proposal : RemediationProposal)
    (now : Int) (remediationId : String) (state : InventoryStoreState) :
    Except JsError (RemediationRecord × InventoryStoreState) :=
  match state.findings.find? (isFinding operator.tenantId proposal.findingId.val) with
  | none => .error (refuse "Remediation finding was not found for the tenant.")
  | some finding => do
    checkFinding finding proposal
    assertRemediationTargetExists state operator.tenantId proposal.targetKind proposal.targetId
    checkProposedReduction state operator.tenantId proposal
    failIf (isUnknownScenario options proposal) (refuse "Eval scenario was not found for create_eval remediation.")
    failIf (MAX_REMEDIATIONS ≤ state.remediations.length) (refuse "Remediation limit was reached.")
    let record := proposedRecord operator proposal now remediationId
    let after := { state with remediations := state.remediations ++ [record] }
    assertStoreBounds after
    return (record, after)

structure ProposeInput where
  authenticate : Except JsError JsValue
  proposal : JsValue
  now : Option Int
  uuid : String

def proposeRemediation (options : InventoryControllerOptions) (input : ProposeInput) (store : Option InventoryStoreState) :
    Except JsError (RemediationRecord × InventoryStoreState) := do
  let operator ← authorize input.authenticate .remediate
  let proposal ← validateRemediationProposal input.proposal
  let now ← format.timestamp input.now
  format.update (attempt (proposeOp options operator proposal now (uuidName "remediation-" input.uuid))) store

/-! ## Application -/

def editRecord {ι : Type} [InventoryRecord ι] (tenantId targetId : Identifier) (missing : String)
    (edit : Stored ι → Except JsError (Stored ι)) (records : List (Stored ι)) : Except JsError (List (Stored ι)) :=
  match findRecord tenantId targetId records with
  | none => .error (refuse missing)
  | some found => do
    let edited ← edit found
    return Table.upsert (Stored.isRecord tenantId targetId) edited records

section Applying

variable (tenantId : Identifier) (remediation : RemediationRecord) (now : Int) (state : InventoryStoreState)

def assignOwner (ownerId : Identifier) : Except JsError InventoryStoreState := match remediation.targetKind with
  | .node .agent => do
    let agents ← editRecord tenantId remediation.targetId "Remediation target agent does not exist."
      (fun found => .ok { found with record := { found.record with ownerId := some ownerId } }) state.agents
    return { state with agents }
  | .node .provider => do
    let providers ← editRecord tenantId remediation.targetId "Remediation target provider does not exist."
      (fun found => .ok { found with record := { found.record with ownerId := some ownerId } }) state.providers
    return { state with providers }
  | .node .resource => do
    let resources ← editRecord tenantId remediation.targetId "Remediation target resource does not exist."
      (fun found => .ok { found with record := { found.record with ownerId := some ownerId } }) state.resources
    return { state with resources }
  | .node .credential => do
    let credentials ← editRecord tenantId remediation.targetId "Remediation target credential does not exist."
      (fun found => .ok { found with record := { found.record with ownerId := some ownerId } }) state.credentials
    return { state with credentials }
  | _ => .error (refuse "assign_owner remediation only supports agent, provider, resource, or credential targets.")

def reduceScope (reduced : Scopes) : Except JsError InventoryStoreState := do
  let credentials ← editRecord tenantId remediation.targetId "Remediation target credential does not exist."
    (fun found => do
      checkReduction found.record reduced.val
      return { found with record := { found.record with grantScopes := reduced } }) state.credentials
  return { state with credentials }

def revoke : Except JsError InventoryStoreState := do
  let credentials ← editRecord tenantId remediation.targetId "Remediation target credential does not exist."
    (fun found => .ok { found with record := { found.record with status := .revoked } }) state.credentials
  return { state with credentials }

def onboardThroughGateway : Except JsError InventoryStoreState := do
  let agents ← editRecord tenantId remediation.targetId "Remediation target agent does not exist."
    (fun found => .ok { found with
      record := { found.record with gatewayManaged := true }
      freshness := { found.freshness with lastSeenAt := now } }) state.agents
  return { state with agents }

def applyRemediationEffect : Except JsError InventoryStoreState :=
  match remediation.kind with
  | .assignOwner => match remediation.result.bind (·.ownerId) with
    | none => .error requireOwner
    | some ownerId => assignOwner tenantId remediation state ownerId
  | .reduceScope =>
    if remediation.targetKind ≠ .node .credential then
      .error (refuse "reduce_scope remediation only supports credential targets.")
    else match remediation.result.bind (·.reducedScopes) with
      | none => .error requireScopes
      | some reduced => reduceScope tenantId remediation state reduced
  | .revoke =>
    if remediation.targetKind ≠ .node .credential then
      .error (refuse "revoke remediation only supports credential targets.")
    else revoke tenantId remediation state
  | .onboardThroughGateway =>
    if remediation.targetKind ≠ .node .agent then
      .error (refuse "onboard_through_gateway remediation only supports agent targets.")
    else onboardThroughGateway tenantId remediation now state
  | .createEval =>
    if remediation.targetKind ≠ .node .agent then
      .error (refuse "create_eval remediation only supports agent targets.")
    else match remediation.result.bind (·.evalScenarioId) with
      | none => .error requireScenario
      | some _ =>
        if state.agents.any (Stored.isRecord tenantId remediation.targetId) then .ok state
        else .error (refuse "Remediation target agent does not exist.")

def isRemediation (remediationId : String) (other : RemediationRecord) : Bool :=
  decide (other.tenantId = tenantId) && decide (other.remediationId = remediationId)

def checkApplicable : Except JsError Unit := match remediation.status with
  | .proposed => .ok ()
  | .applied => .error (refuse "Remediation was already applied.")
  | status => .error (refuse ("Remediation is " ++ status.text ++ " and cannot be applied."))

/-- The finding of an applied remediation is resolved by it. -/
def resolveFinding (findings : List FindingRecord) : List FindingRecord :=
  match findings.find? (isFinding tenantId remediation.findingId) with
  | none => findings
  | some finding => Table.upsert (isFinding tenantId remediation.findingId)
      { finding with status := .resolved (some now) (some remediation.remediationId) } findings

end Applying

def applyOp (tenantId : Identifier) (now : Int) (remediationId : Identifier) (state : InventoryStoreState) :
    Except JsError (RemediationRecord × InventoryStoreState) :=
  match state.remediations.find? (isRemediation tenantId remediationId.val) with
  | none => .error (refuse "Remediation was not found for the tenant.")
  | some remediation => do
    checkApplicable remediation
    let changed ← applyRemediationEffect tenantId remediation now state
    let applied := { remediation with status := .applied, appliedAt := some now }
    let after := { changed with
      remediations := Table.upsert (isRemediation tenantId remediationId.val) applied changed.remediations
      findings := resolveFinding tenantId remediation now changed.findings }
    assertStoreBounds after
    return (applied, after)

structure ApplyInput where
  authenticate : Except JsError JsValue
  remediationId : JsValue
  now : Option Int

def applyRemediation (input : ApplyInput) (store : Option InventoryStoreState) :
    Except JsError (RemediationRecord × InventoryStoreState) := do
  let operator ← authorize input.authenticate .remediate
  let now ← format.timestamp input.now
  let remediationId ← identifier refuse input.remediationId "Remediation id"
  format.update (attempt (applyOp operator.tenantId now remediationId)) store

def rejectOp (tenantId : Identifier) (remediationId : Identifier) (state : InventoryStoreState) :
    Except JsError (RemediationRecord × InventoryStoreState) :=
  match state.remediations.find? (isRemediation tenantId remediationId.val) with
  | none => .error (refuse "Remediation was not found for the tenant.")
  | some remediation => do
    failIf (remediation.status = .applied) (refuse "Remediation is already applied and cannot be rejected.")
    let rejected := { remediation with status := .rejected }
    return (rejected, { state with
      remediations := Table.upsert (isRemediation tenantId remediationId.val) rejected state.remediations })

def rejectRemediation (authenticate : Except JsError JsValue) (remediationId : JsValue) (store : Option InventoryStoreState) :
    Except JsError (RemediationRecord × InventoryStoreState) := do
  let operator ← authorize authenticate .remediate
  let remediationId ← identifier refuse remediationId "Remediation id"
  format.update (attempt (rejectOp operator.tenantId remediationId)) store

/-! ## The machine -/

inductive InventoryEvent
  | importInventory (input : ImportInput)
  | analyze (input : AnalyzeInput)
  | proposeRemediation (input : ProposeInput)
  | applyRemediation (input : ApplyInput)
  | rejectRemediation (authenticate : Except JsError JsValue) (remediationId : JsValue)

def InventoryEvent.write (options : InventoryControllerOptions) (event : InventoryEvent) (store : Option InventoryStoreState) :
    Except JsError InventoryStoreState := match event with
  | .importInventory input => Prod.snd <$> Inventory.importInventory options input store
  | .analyze input => Prod.snd <$> Inventory.analyze options input store
  | .proposeRemediation input => Prod.snd <$> Inventory.proposeRemediation options input store
  | .applyRemediation input => Prod.snd <$> Inventory.applyRemediation input store
  | .rejectRemediation authenticate remediationId => Prod.snd <$> Inventory.rejectRemediation authenticate remediationId store

/-- A call that throws leaves the store as it was. -/
def serve (options : InventoryControllerOptions) (store : Option InventoryStoreState) (event : InventoryEvent) :
    Option InventoryStoreState := match event.write options store with
  | .ok state => some state
  | .error _ => store

def machine (options : InventoryControllerOptions) : Machine (Option InventoryStoreState) InventoryEvent where
  initial := none
  step store event := some (serve options store event)

def stateOf (store : Option InventoryStoreState) : InventoryStoreState := store.getD emptyInventoryState

/-! ## What calls write -/

def Stored.key {ι : Type} [InventoryRecord ι] (stored : Stored ι) : Identifier × Identifier := (stored.tenantId, stored.id)

section Frames

variable {options : InventoryControllerOptions} {tenantId : Identifier} {remediation : RemediationRecord} {now : Int}
  {state changed after : InventoryStoreState}

theorem editRecord_keys {ι : Type} [InventoryRecord ι] {targetId : Identifier} {missing : String}
    {edit : Stored ι → Except JsError (Stored ι)} {records edited : List (Stored ι)}
    (hEdit : ∀ found next, edit found = .ok next → next.key = found.key)
    (h : editRecord tenantId targetId missing edit records = .ok edited) :
    edited.map Stored.key = records.map Stored.key := by
  unfold editRecord at h
  split at h
  · cases h
  · rename_i found hFind
    obtain ⟨next, hNext, h⟩ := bind_eq_ok h
    cases h
    exact Table.map_upsert Stored.key hFind (hEdit found next hNext)

structure Keeps (state changed : InventoryStoreState) : Prop where
  edges : changed.edges = state.edges
  findings : changed.findings = state.findings
  remediations : changed.remediations = state.remediations
  agents : changed.agents.map Stored.key = state.agents.map Stored.key
  providers : changed.providers.map Stored.key = state.providers.map Stored.key
  resources : changed.resources.map Stored.key = state.resources.map Stored.key
  credentials : changed.credentials.map Stored.key = state.credentials.map Stored.key

theorem applyRemediationEffect_keeps (h : applyRemediationEffect tenantId remediation now state = .ok changed) :
    Keeps state changed := by
  unfold applyRemediationEffect at h
  split at h
  · split at h
    · cases h
    · unfold assignOwner at h
      split at h
      · obtain ⟨agents, hAgents, h⟩ := bind_eq_ok h
        cases h
        exact ⟨rfl, rfl, rfl, editRecord_keys (by rintro found _ ⟨⟩; rfl) hAgents, rfl, rfl, rfl⟩
      · obtain ⟨providers, hProviders, h⟩ := bind_eq_ok h
        cases h
        exact ⟨rfl, rfl, rfl, rfl, editRecord_keys (by rintro found _ ⟨⟩; rfl) hProviders, rfl, rfl⟩
      · obtain ⟨resources, hResources, h⟩ := bind_eq_ok h
        cases h
        exact ⟨rfl, rfl, rfl, rfl, rfl, editRecord_keys (by rintro found _ ⟨⟩; rfl) hResources, rfl⟩
      · obtain ⟨credentials, hCredentials, h⟩ := bind_eq_ok h
        cases h
        exact ⟨rfl, rfl, rfl, rfl, rfl, rfl, editRecord_keys (by rintro found _ ⟨⟩; rfl) hCredentials⟩
      · cases h
  · split at h
    · cases h
    · split at h
      · cases h
      · obtain ⟨credentials, hCredentials, h⟩ := bind_eq_ok h
        cases h
        refine ⟨rfl, rfl, rfl, rfl, rfl, rfl, editRecord_keys ?_ hCredentials⟩
        intro found next hNext
        obtain ⟨_, _, hNext⟩ := bind_eq_ok hNext
        cases hNext
        rfl
  · split at h
    · cases h
    · obtain ⟨credentials, hCredentials, h⟩ := bind_eq_ok h
      cases h
      exact ⟨rfl, rfl, rfl, rfl, rfl, rfl, editRecord_keys (by rintro found _ ⟨⟩; rfl) hCredentials⟩
  · split at h
    · cases h
    · obtain ⟨agents, hAgents, h⟩ := bind_eq_ok h
      cases h
      exact ⟨rfl, rfl, rfl, editRecord_keys (by rintro found _ ⟨⟩; rfl) hAgents, rfl, rfl, rfl⟩
  · split at h
    · cases h
    · split at h
      · cases h
      · split at h
        · cases h
          exact ⟨rfl, rfl, rfl, rfl, rfl, rfl, rfl⟩
        · cases h

theorem analyzeOp_ok {result : AnalysisResult} (h : analyzeOp options state tenantId now = .ok (result, after)) :
    after = { state with findings := state.findings.filter (fun finding => decide (finding.tenantId ≠ tenantId)) ++
      (computeFindings state tenantId now options.freshnessDays).map (nextFinding options state tenantId) } := by
  obtain ⟨_, _, h⟩ := bind_eq_ok h
  cases h
  rfl

theorem proposeOp_ok {operator : InventoryOperator} {proposal : RemediationProposal} {remediationId : String}
    {record : RemediationRecord} (h : proposeOp options operator proposal now remediationId state = .ok (record, after)) :
    record = proposedRecord operator proposal now remediationId ∧
      after = { state with remediations := state.remediations ++ [record] } := by
  unfold proposeOp at h
  split at h
  · cases h
  · obtain ⟨_, _, h⟩ := bind_eq_ok h
    obtain ⟨_, _, h⟩ := bind_eq_ok h
    obtain ⟨_, _, h⟩ := bind_eq_ok h
    obtain ⟨_, _, h⟩ := bind_eq_ok h
    obtain ⟨_, _, h⟩ := bind_eq_ok h
    obtain ⟨_, _, h⟩ := bind_eq_ok h
    cases h
    exact ⟨rfl, rfl⟩

theorem proposeOp_finding {operator : InventoryOperator} {proposal : RemediationProposal} {remediationId : String}
    {record : RemediationRecord} (h : proposeOp options operator proposal now remediationId state = .ok (record, after)) :
    ∃ finding, state.findings.find? (isFinding operator.tenantId proposal.findingId.val) = some finding ∧
      proposal.targetKind = finding.targetKind ∧ proposal.targetId = finding.targetId := by
  unfold proposeOp at h
  split at h
  · cases h
  · rename_i finding hFind
    obtain ⟨_, hFinding, _⟩ := bind_eq_ok h
    obtain ⟨_, _, hTarget⟩ := bind_eq_ok hFinding
    exact ⟨finding, hFind, not_not.mp (failIf_eq_ok.mp hTarget)⟩

theorem applyOp_ok {remediationId : Identifier} {result : RemediationRecord}
    (h : applyOp tenantId now remediationId state = .ok (result, after)) : ∃ remediation changed,
      state.remediations.find? (isRemediation tenantId remediationId.val) = some remediation ∧
      remediation.status = .proposed ∧ applyRemediationEffect tenantId remediation now state = .ok changed ∧
      result = { remediation with status := .applied, appliedAt := some now } ∧
      after = { changed with
        remediations := Table.upsert (isRemediation tenantId remediationId.val) result state.remediations
        findings := resolveFinding tenantId remediation now state.findings } := by
  unfold applyOp at h
  split at h
  · cases h
  · rename_i remediation hFind
    obtain ⟨_, hApplicable, h⟩ := bind_eq_ok h
    obtain ⟨changed, hChanged, h⟩ := bind_eq_ok h
    obtain ⟨_, _, h⟩ := bind_eq_ok h
    cases h
    have hKeeps := applyRemediationEffect_keeps hChanged
    refine ⟨remediation, changed, hFind, ?_, hChanged, rfl, ?_⟩
    · unfold checkApplicable at hApplicable
      split at hApplicable
      · assumption
      · cases hApplicable
      · cases hApplicable
    · rw [hKeeps.findings, hKeeps.remediations]

theorem rejectOp_ok {remediationId : Identifier} {result : RemediationRecord}
    (h : rejectOp tenantId remediationId state = .ok (result, after)) : ∃ remediation,
      state.remediations.find? (isRemediation tenantId remediationId.val) = some remediation ∧
      remediation.status ≠ .applied ∧ result = { remediation with status := .rejected } ∧
      after = { state with
        remediations := Table.upsert (isRemediation tenantId remediationId.val) result state.remediations } := by
  unfold rejectOp at h
  split at h
  · cases h
  · rename_i remediation hFind
    obtain ⟨_, hStatus, h⟩ := bind_eq_ok h
    cases h
    exact ⟨remediation, hFind, failIf_eq_ok.mp hStatus, rfl, rfl⟩

end Frames

section Calls

variable {options : InventoryControllerOptions} {store : Option InventoryStoreState} {after : InventoryStoreState}

theorem importInventory_ok {input : ImportInput} {summary : ImportSummary}
    (h : importInventory options input store = .ok (summary, after)) : ∃ operator payload now,
      authorize input.authenticate .importPermission = .ok operator ∧ validateImportPayload input.payload = .ok payload ∧
      format.timestamp input.now = .ok now ∧
      importOp options operator payload now (uuidName "import-" input.uuid) (stateOf store) = .ok (summary, after) ∧
      ValidState after := by
  obtain ⟨operator, hOperator, h⟩ := bind_eq_ok h
  obtain ⟨payload, hPayload, h⟩ := bind_eq_ok h
  obtain ⟨now, hNow, h⟩ := bind_eq_ok h
  obtain ⟨hOp, hValid⟩ := update_attempt h
  exact ⟨operator, payload, now, hOperator, hPayload, hNow, hOp, hValid⟩

theorem analyze_ok {input : AnalyzeInput} {result : AnalysisResult}
    (h : analyze options input store = .ok (result, after)) : ∃ operator now,
      authorize input.authenticate .analyze = .ok operator ∧ format.timestamp input.now = .ok now ∧
      analyzeOp options (stateOf store) operator.tenantId now = .ok (result, after) ∧ ValidState after := by
  obtain ⟨operator, hOperator, h⟩ := bind_eq_ok h
  obtain ⟨now, hNow, h⟩ := bind_eq_ok h
  obtain ⟨hOp, hValid⟩ := update_attempt h
  exact ⟨operator, now, hOperator, hNow, hOp, hValid⟩

theorem proposeRemediation_ok {input : ProposeInput} {record : RemediationRecord}
    (h : proposeRemediation options input store = .ok (record, after)) : ∃ operator proposal now,
      authorize input.authenticate .remediate = .ok operator ∧ validateRemediationProposal input.proposal = .ok proposal ∧
      format.timestamp input.now = .ok now ∧
      proposeOp options operator proposal now (uuidName "remediation-" input.uuid) (stateOf store) = .ok (record, after) ∧
      ValidState after := by
  obtain ⟨operator, hOperator, h⟩ := bind_eq_ok h
  obtain ⟨proposal, hProposal, h⟩ := bind_eq_ok h
  obtain ⟨now, hNow, h⟩ := bind_eq_ok h
  obtain ⟨hOp, hValid⟩ := update_attempt h
  exact ⟨operator, proposal, now, hOperator, hProposal, hNow, hOp, hValid⟩

theorem applyRemediation_ok {input : ApplyInput} {record : RemediationRecord}
    (h : applyRemediation input store = .ok (record, after)) : ∃ operator now remediationId,
      authorize input.authenticate .remediate = .ok operator ∧ format.timestamp input.now = .ok now ∧
      identifier refuse input.remediationId "Remediation id" = .ok remediationId ∧
      applyOp operator.tenantId now remediationId (stateOf store) = .ok (record, after) ∧ ValidState after := by
  obtain ⟨operator, hOperator, h⟩ := bind_eq_ok h
  obtain ⟨now, hNow, h⟩ := bind_eq_ok h
  obtain ⟨remediationId, hId, h⟩ := bind_eq_ok h
  obtain ⟨hOp, hValid⟩ := update_attempt h
  exact ⟨operator, now, remediationId, hOperator, hNow, hId, hOp, hValid⟩

theorem rejectRemediation_ok {authenticate : Except JsError JsValue} {value : JsValue} {record : RemediationRecord}
    (h : rejectRemediation authenticate value store = .ok (record, after)) : ∃ operator remediationId,
      authorize authenticate .remediate = .ok operator ∧
      identifier refuse value "Remediation id" = .ok remediationId ∧
      rejectOp operator.tenantId remediationId (stateOf store) = .ok (record, after) ∧ ValidState after := by
  obtain ⟨operator, hOperator, h⟩ := bind_eq_ok h
  obtain ⟨remediationId, hId, h⟩ := bind_eq_ok h
  obtain ⟨hOp, hValid⟩ := update_attempt h
  exact ⟨operator, remediationId, hOperator, hId, hOp, hValid⟩

theorem serve_ok {event : InventoryEvent} (h : event.write options store = .ok after) : serve options store event = some after := by
  rw [serve, h]

theorem serve_cases (event : InventoryEvent) :
    (∃ after, event.write options store = .ok after ∧ serve options store event = some after) ∨
      (∃ e, event.write options store = .error e) ∧ serve options store event = store := by
  cases hWrite : event.write options store with
  | ok after => exact .inl ⟨after, rfl, serve_ok hWrite⟩
  | error e => exact .inr ⟨⟨e, rfl⟩, by rw [serve, hWrite]⟩

theorem map_snd_eq_ok {α : Type} {result : Except JsError (α × InventoryStoreState)} (h : Prod.snd <$> result = .ok after) :
    ∃ value, result = .ok (value, after) := by
  cases result with
  | ok pair =>
    cases h
    exact ⟨pair.1, rfl⟩
  | error e => cases h

end Calls

/-! ## An operator with all permissions -/

def integer (n : Nat) : JsValue := .number (.integer n)

theorem acme_isIdentifier : isIdentifier "acme" = true := by decide +kernel

def acme : Identifier := ⟨"acme", acme_isIdentifier⟩

def acmeOperator : JsValue :=
  .object [("id", .string "ops"), ("principalId", .string "ops"), ("tenantId", .string "acme"),
    ("permissions", .array (InventoryOperatorPermission.all.map fun permission => .string permission.text))]

def defaultOptions : InventoryControllerOptions := ⟨defaultFreshnessDays, none⟩

end GhostApi.Inventory
