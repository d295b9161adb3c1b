import GhostApi.Inventory.Analysis

/-!
# Proposals and their application

A proposal is checked against its finding and its target, its application
against the kinds of targets that its kind supports. The two agree where the
kind supports the target; a reduction also has to leave out a scope, which a
shorter list does not show when the granted scopes repeat one.
-/

namespace GhostApi.Inventory

open Js Validation Effect Storage Transition
open Reliability (uuidName)

/-! ## Edits in place -/

def SameBut {α : Type} (touched : α → Prop) (before after : List α) : Prop :=
  List.Forall₂ (fun old new => old = new ∨ touched old ∧ touched new) before after

theorem SameBut.refl {α : Type} (touched : α → Prop) (items : List α) : SameBut touched items items := by
  induction items with
  | nil => exact .nil
  | cons item items ih => exact .cons (.inl rfl) ih

theorem SameBut.mono {α : Type} {touched touched' : α → Prop} {before after : List α} (h : SameBut touched before after)
    (hTouched : ∀ item, touched item → touched' item) : SameBut touched' before after := by
  refine List.Forall₂.imp (fun old new hSame => ?_) h
  exact hSame.imp_right fun hBoth => ⟨hTouched old hBoth.1, hTouched new hBoth.2⟩

theorem sameBut_upsert {α : Type} {same : α → Bool} {item found : α} {items : List α}
    (hFind : items.find? same = some found) (hItem : same item = true) :
    SameBut (fun x => same x = true) items (Table.upsert same item items) := by
  induction items with
  | nil => cases hFind
  | cons x items ih =>
    cases hSame : same x with
    | true =>
      rw [Table.upsert_cons_pos hSame]
      exact .cons (.inr ⟨hSame, hItem⟩) (SameBut.refl _ items)
    | false =>
      rw [List.find?_cons_of_neg (by simp [hSame])] at hFind
      rw [Table.upsert_cons_neg hSame]
      exact .cons (.inl rfl) (ih hFind)

theorem length_upsert {α : Type} {same : α → Bool} {item found : α} {items : List α} (hFind : items.find? same = some found) :
    (Table.upsert same item items).length = items.length := by
  have hMap : (Table.upsert same item items).map (fun _ => ()) = items.map fun _ => () := Table.map_upsert _ hFind rfl
  simpa using congrArg List.length hMap

theorem validateAll_ok {α : Type} {check : α → Except JsError Unit} {items : List α} {label : String} {max : Nat}
    (h : validateAll check items label max = .ok ()) : ∀ item ∈ items, check item = .ok () := by
  obtain ⟨_, _, h⟩ := bind_eq_ok h
  exact forM_eq_ok.mp h

theorem validateAll_upsert {α : Type} {check : α → Except JsError Unit} {label : String} {max : Nat} {same : α → Bool}
    {item found : α} {items : List α} (h : validateAll check items label max = .ok ())
    (hFind : items.find? same = some found) (hItem : check item = .ok ()) :
    validateAll check (Table.upsert same item items) label max = .ok () := by
  obtain ⟨hLength, hItems⟩ := bind_unit_eq_ok.mp h
  refine bind_unit_eq_ok.mpr ⟨?_, ?_⟩
  · rw [atMost_eq_ok] at hLength ⊢
    rwa [length_upsert hFind]
  · refine forM_eq_ok.mpr fun x hx => ?_
    rcases Table.eq_or_mem_of_mem_upsert hx with rfl | hOld
    · exact hItem
    · exact forM_eq_ok.mp hItems x hOld

/-! ## Supported targets -/

/-- The kinds of targets to which a kind of remediation can be applied. -/
inductive Supports : RemediationKind → TargetKind → Prop
  | agentOwner : Supports .assignOwner (.node .agent)
  | providerOwner : Supports .assignOwner (.node .provider)
  | resourceOwner : Supports .assignOwner (.node .resource)
  | credentialOwner : Supports .assignOwner (.node .credential)
  | reduction : Supports .reduceScope (.node .credential)
  | revocation : Supports .revoke (.node .credential)
  | onboarding : Supports .onboardThroughGateway (.node .agent)
  | evaluation : Supports .createEval (.node .agent)

section Effects

variable {options : InventoryControllerOptions} {tenantId : Identifier} {record : RemediationRecord} {now : Int}
  {state changed : InventoryStoreState}

theorem supports_of_effect (h : applyRemediationEffect tenantId record now state = .ok changed) :
    Supports record.kind record.targetKind := by
  unfold applyRemediationEffect at h
  split at h
  · rename_i hKind
    rw [hKind]
    split at h
    · cases h
    · unfold assignOwner at h
      split at h
      · rename_i hTarget
        rw [hTarget]
        exact .agentOwner
      · rename_i hTarget
        rw [hTarget]
        exact .providerOwner
      · rename_i hTarget
        rw [hTarget]
        exact .resourceOwner
      · rename_i hTarget
        rw [hTarget]
        exact .credentialOwner
      · cases h
  · rename_i hKind
    rw [hKind]
    obtain ⟨hTarget, _⟩ := ite_error_eq_ok h
    rw [not_not.mp hTarget]
    exact .reduction
  · rename_i hKind
    rw [hKind]
    obtain ⟨hTarget, _⟩ := ite_error_eq_ok h
    rw [not_not.mp hTarget]
    exact .revocation
  · rename_i hKind
    rw [hKind]
    obtain ⟨hTarget, _⟩ := ite_error_eq_ok h
    rw [not_not.mp hTarget]
    exact .onboarding
  · rename_i hKind
    rw [hKind]
    obtain ⟨hTarget, _⟩ := ite_error_eq_ok h
    rw [not_not.mp hTarget]
    exact .evaluation

/-- A state in which the target of a remediation was edited in place. -/
inductive Edited (tenantId targetId : Identifier) (state : InventoryStoreState) : TargetKind → InventoryStoreState → Prop
  | agent {found edited : AgentRecord} (find : findRecord tenantId targetId state.agents = some found)
      (own : Stored.isRecord tenantId targetId edited = true) (valid : validateStored edited = .ok ()) :
      Edited tenantId targetId state (.node .agent)
        { state with agents := Table.upsert (Stored.isRecord tenantId targetId) edited state.agents }
  | provider {found edited : ProviderRecord} (find : findRecord tenantId targetId state.providers = some found)
      (own : Stored.isRecord tenantId targetId edited = true) (valid : validateStored edited = .ok ()) :
      Edited tenantId targetId state (.node .provider)
        { state with providers := Table.upsert (Stored.isRecord tenantId targetId) edited state.providers }
  | resource {found edited : ResourceRecord} (find : findRecord tenantId targetId state.resources = some found)
      (own : Stored.isRecord tenantId targetId edited = true) (valid : validateStored edited = .ok ()) :
      Edited tenantId targetId state (.node .resource)
        { state with resources := Table.upsert (Stored.isRecord tenantId targetId) edited state.resources }
  | credential {found edited : CredentialRecord} (find : findRecord tenantId targetId state.credentials = some found)
      (own : Stored.isRecord tenantId targetId edited = true) (valid : validateStored edited = .ok ()) :
      Edited tenantId targetId state (.node .credential)
        { state with credentials := Table.upsert (Stored.isRecord tenantId targetId) edited state.credentials }
  | same (kind : TargetKind) : Edited tenantId targetId state kind state

theorem Edited.valid {targetId : Identifier} {kind : TargetKind} (h : Edited tenantId targetId state kind changed)
    (hValid : ValidState state) : ValidState changed := by
  cases h with
  | agent find own valid =>
    simp only [ValidState, checkState, bind_unit_eq_ok] at hValid ⊢
    exact ⟨hValid.1, hValid.2.1, validateAll_upsert hValid.2.2.1 find valid, hValid.2.2.2⟩
  | provider find own valid =>
    simp only [ValidState, checkState, bind_unit_eq_ok] at hValid ⊢
    obtain ⟨h1, h2, h3, h4, h5, h6, hRest⟩ := hValid
    exact ⟨h1, h2, h3, h4, h5, validateAll_upsert h6 find valid, hRest⟩
  | resource find own valid =>
    simp only [ValidState, checkState, bind_unit_eq_ok] at hValid ⊢
    obtain ⟨h1, h2, h3, h4, h5, h6, h7, hRest⟩ := hValid
    exact ⟨h1, h2, h3, h4, h5, h6, validateAll_upsert h7 find valid, hRest⟩
  | credential find own valid =>
    simp only [ValidState, checkState, bind_unit_eq_ok] at hValid ⊢
    obtain ⟨h1, h2, h3, h4, h5, h6, h7, h8, h9, hRest⟩ := hValid
    exact ⟨h1, h2, h3, h4, h5, h6, h7, h8, validateAll_upsert h9 find valid, hRest⟩
  | same => exact hValid

/-- What the application of a remediation leaves as it was: everything but the target, the remediation and its finding. -/
structure Framed (record : RemediationRecord) (before after : InventoryStoreState) : Prop where
  sources : after.sources = before.sources
  importRuns : after.importRuns = before.importRuns
  tools : after.tools = before.tools
  identities : after.identities = before.identities
  sideEffects : after.sideEffects = before.sideEffects
  policies : after.policies = before.policies
  edges : after.edges = before.edges
  agents : SameBut (fun agent => record.targetKind = .node .agent ∧
    Stored.isRecord record.tenantId record.targetId agent = true) before.agents after.agents
  providers : SameBut (fun provider => record.targetKind = .node .provider ∧
    Stored.isRecord record.tenantId record.targetId provider = true) before.providers after.providers
  resources : SameBut (fun resource => record.targetKind = .node .resource ∧
    Stored.isRecord record.tenantId record.targetId resource = true) before.resources after.resources
  credentials : SameBut (fun credential => record.targetKind = .node .credential ∧
    Stored.isRecord record.tenantId record.targetId credential = true) before.credentials after.credentials
  findings : SameBut (fun finding => isFinding record.tenantId record.findingId finding = true)
    before.findings after.findings
  remediations : SameBut (fun remediation => isRemediation record.tenantId record.remediationId remediation = true)
    before.remediations after.remediations

theorem Edited.framed (h : Edited record.tenantId record.targetId state record.targetKind changed) :
    Framed record state changed := by
  generalize hKind : record.targetKind = kind at h
  cases h with
  | agent find own valid =>
    refine ⟨rfl, rfl, rfl, rfl, rfl, rfl, rfl, ?_, .refl _ _, .refl _ _, .refl _ _, .refl _ _, .refl _ _⟩
    exact (sameBut_upsert find own).mono fun _ hSame => ⟨hKind, hSame⟩
  | provider find own valid =>
    refine ⟨rfl, rfl, rfl, rfl, rfl, rfl, rfl, .refl _ _, ?_, .refl _ _, .refl _ _, .refl _ _, .refl _ _⟩
    exact (sameBut_upsert find own).mono fun _ hSame => ⟨hKind, hSame⟩
  | resource find own valid =>
    refine ⟨rfl, rfl, rfl, rfl, rfl, rfl, rfl, .refl _ _, .refl _ _, ?_, .refl _ _, .refl _ _, .refl _ _⟩
    exact (sameBut_upsert find own).mono fun _ hSame => ⟨hKind, hSame⟩
  | credential find own valid =>
    refine ⟨rfl, rfl, rfl, rfl, rfl, rfl, rfl, .refl _ _, .refl _ _, .refl _ _, ?_, .refl _ _, .refl _ _⟩
    exact (sameBut_upsert find own).mono fun _ hSame => ⟨hKind, hSame⟩
  | same =>
    exact ⟨rfl, rfl, rfl, rfl, rfl, rfl, rfl, .refl _ _, .refl _ _, .refl _ _, .refl _ _, .refl _ _, .refl _ _⟩

end Effects

section Application

variable {options : InventoryControllerOptions} {tenantId : Identifier} {record : RemediationRecord} {now : Int}
  {state changed : InventoryStoreState}

theorem editRecord_eq {ι : Type} [InventoryRecord ι] {targetId : Identifier} {missing : String}
    {edit : Stored ι → Except JsError (Stored ι)} {records : List (Stored ι)} {found : Stored ι}
    (hFind : findRecord tenantId targetId records = some found) : editRecord tenantId targetId missing edit records =
      (edit found >>= fun edited => pure (Table.upsert (Stored.isRecord tenantId targetId) edited records)) := by
  rw [editRecord, hFind]

theorem findRecord_some {ι : Type} [InventoryRecord ι] {targetId : Identifier} {records : List (Stored ι)}
    (h : records.any (Stored.isRecord tenantId targetId) = true) : ∃ found, findRecord tenantId targetId records = some found ∧
      found ∈ records ∧ Stored.isRecord tenantId targetId found = true := by
  rw [List.any_eq_true, ← List.find?_isSome, Option.isSome_iff_exists] at h
  obtain ⟨found, hFind⟩ := h
  exact ⟨found, hFind, List.mem_of_find?_eq_some hFind, List.find?_some hFind⟩

theorem find_upsert {ι : Type} [InventoryRecord ι] {targetId : Identifier} {records : List (Stored ι)} {edited : Stored ι}
    (hOwn : Stored.isRecord tenantId targetId edited = true) :
    findRecord tenantId targetId (Table.upsert (Stored.isRecord tenantId targetId) edited records) = some edited :=
  Table.find?_upsert_self hOwn

/-- What a proposal that was accepted has established about its remediation. -/
structure Proposed (options : InventoryControllerOptions) (state : InventoryStoreState) (record : RemediationRecord) :
    Prop where
  owned : record.kind = .assignOwner → ∃ ownerId, record.result.bind (·.ownerId) = some ownerId
  reduced : record.kind = .reduceScope → ∃ reduced, record.result.bind (·.reducedScopes) = some reduced ∧
    ∃ found, findRecord record.tenantId record.targetId state.credentials = some found ∧
      checkReduction found.record reduced.val = .ok ()
  evaluated : record.kind = .createEval → ∃ scenarioId, record.result.bind (·.evalScenarioId) = some scenarioId ∧
    (options.evalScenarioExists.all fun scenarioExists => scenarioExists scenarioId) = true
  target : remediationTargetExists state record.tenantId record.targetKind record.targetId = true

/-- The effect of a supported remediation: the target is edited, the remediation is effective, and a reduced credential has
the reduced scopes. -/
structure Effective (options : InventoryControllerOptions) (record : RemediationRecord) (now : Int)
    (state changed : InventoryStoreState) : Prop where
  taken : applyRemediationEffect record.tenantId record now state = .ok changed
  edited : Edited record.tenantId record.targetId state record.targetKind changed
  effective : isRemediationEffective options changed record.tenantId record = true
  reduced : record.kind = .reduceScope → ∀ reduced, record.result.bind (·.reducedScopes) = some reduced →
    ∃ found, findRecord record.tenantId record.targetId changed.credentials = some found ∧ found.record.grantScopes = reduced

theorem effect_agentOwner (hKind : record.kind = .assignOwner) (hTargetKind : record.targetKind = .node .agent)
    (hProposed : Proposed options state record)
    (hAgents : ∀ agent ∈ state.agents, validateStored agent = .ok ()) :
    ∃ changed, Effective options record now state changed := by
  have hTarget := hProposed.target
  rw [hTargetKind] at hTarget
  obtain ⟨ownerId, hOwner⟩ := hProposed.owned hKind
  obtain ⟨found, hFind, hMem, hOwn⟩ := findRecord_some hTarget
  obtain ⟨edited, hEdited⟩ : ∃ edited : AgentRecord, edited = { found with record := { found.record with ownerId := some ownerId } } :=
    ⟨_, rfl⟩
  have hSame : Stored.isRecord record.tenantId record.targetId edited = true := by
    rw [hEdited]
    exact hOwn
  have hTaken : applyRemediationEffect record.tenantId record now state = .ok { state with
      agents := Table.upsert (Stored.isRecord record.tenantId record.targetId) edited state.agents } := by
    rw [applyRemediationEffect, hKind]
    dsimp only
    rw [hOwner]
    dsimp only
    rw [assignOwner, hTargetKind]
    dsimp only
    rw [editRecord_eq hFind, hEdited]
    rfl
  have hValid : validateStored edited = .ok () := by
    rw [hEdited]
    exact hAgents found hMem
  refine ⟨_, hTaken, hTargetKind ▸ .agent hFind hSame hValid, ?_, fun h => absurd h (by simp [hKind])⟩
  rw [isRemediationEffective, hKind, hTargetKind]
  dsimp only
  rw [hOwner]
  dsimp only
  rw [isOwnedBy, find_upsert hSame, hEdited]
  simp

theorem effect_providerOwner (hKind : record.kind = .assignOwner) (hTargetKind : record.targetKind = .node .provider)
    (hProposed : Proposed options state record)
    (hProviders : ∀ provider ∈ state.providers, validateStored provider = .ok ()) :
    ∃ changed, Effective options record now state changed := by
  have hTarget := hProposed.target
  rw [hTargetKind] at hTarget
  obtain ⟨ownerId, hOwner⟩ := hProposed.owned hKind
  obtain ⟨found, hFind, hMem, hOwn⟩ := findRecord_some hTarget
  obtain ⟨edited, hEdited⟩ : ∃ edited : ProviderRecord, edited = { found with record := { found.record with ownerId := some ownerId } } :=
    ⟨_, rfl⟩
  have hSame : Stored.isRecord record.tenantId record.targetId edited = true := by
    rw [hEdited]
    exact hOwn
  have hTaken : applyRemediationEffect record.tenantId record now state = .ok { state with
      providers := Table.upsert (Stored.isRecord record.tenantId record.targetId) edited state.providers } := by
    rw [applyRemediationEffect, hKind]
    dsimp only
    rw [hOwner]
    dsimp only
    rw [assignOwner, hTargetKind]
    dsimp only
    rw [editRecord_eq hFind, hEdited]
    rfl
  have hValid : validateStored edited = .ok () := by
    rw [hEdited]
    exact hProviders found hMem
  refine ⟨_, hTaken, hTargetKind ▸ .provider hFind hSame hValid, ?_, fun h => absurd h (by simp [hKind])⟩
  rw [isRemediationEffective, hKind, hTargetKind]
  dsimp only
  rw [hOwner]
  dsimp only
  rw [isOwnedBy, find_upsert hSame, hEdited]
  simp

theorem effect_resourceOwner (hKind : record.kind = .assignOwner) (hTargetKind : record.targetKind = .node .resource)
    (hProposed : Proposed options state record)
    (hResources : ∀ resource ∈ state.resources, validateStored resource = .ok ()) :
    ∃ changed, Effective options record now state changed := by
  have hTarget := hProposed.target
  rw [hTargetKind] at hTarget
  obtain ⟨ownerId, hOwner⟩ := hProposed.owned hKind
  obtain ⟨found, hFind, hMem, hOwn⟩ := findRecord_some hTarget
  obtain ⟨edited, hEdited⟩ : ∃ edited : ResourceRecord, edited = { found with record := { found.record with ownerId := some ownerId } } :=
    ⟨_, rfl⟩
  have hSame : Stored.isRecord record.tenantId record.targetId edited = true := by
    rw [hEdited]
    exact hOwn
  have hTaken : applyRemediationEffect record.tenantId record now state = .ok { state with
      resources := Table.upsert (Stored.isRecord record.tenantId record.targetId) edited state.resources } := by
    rw [applyRemediationEffect, hKind]
    dsimp only
    rw [hOwner]
    dsimp only
    rw [assignOwner, hTargetKind]
    dsimp only
    rw [editRecord_eq hFind, hEdited]
    rfl
  have hValid : validateStored edited = .ok () := by
    rw [hEdited]
    exact hResources found hMem
  refine ⟨_, hTaken, hTargetKind ▸ .resource hFind hSame hValid, ?_, fun h => absurd h (by simp [hKind])⟩
  rw [isRemediationEffective, hKind, hTargetKind]
  dsimp only
  rw [hOwner]
  dsimp only
  rw [isOwnedBy, find_upsert hSame, hEdited]
  simp

theorem effect_credentialOwner (hKind : record.kind = .assignOwner) (hTargetKind : record.targetKind = .node .credential)
    (hProposed : Proposed options state record)
    (hCredentials : ∀ credential ∈ state.credentials, validateStored credential = .ok ()) :
    ∃ changed, Effective options record now state changed := by
  have hTarget := hProposed.target
  rw [hTargetKind] at hTarget
  obtain ⟨ownerId, hOwner⟩ := hProposed.owned hKind
  obtain ⟨found, hFind, hMem, hOwn⟩ := findRecord_some hTarget
  obtain ⟨edited, hEdited⟩ : ∃ edited : CredentialRecord, edited = { found with record := { found.record with ownerId := some ownerId } } :=
    ⟨_, rfl⟩
  have hSame : Stored.isRecord record.tenantId record.targetId edited = true := by
    rw [hEdited]
    exact hOwn
  have hTaken : applyRemediationEffect record.tenantId record now state = .ok { state with
      credentials := Table.upsert (Stored.isRecord record.tenantId record.targetId) edited state.credentials } := by
    rw [applyRemediationEffect, hKind]
    dsimp only
    rw [hOwner]
    dsimp only
    rw [assignOwner, hTargetKind]
    dsimp only
    rw [editRecord_eq hFind, hEdited]
    rfl
  have hValid : validateStored edited = .ok () := by
    rw [hEdited]
    exact hCredentials found hMem
  refine ⟨_, hTaken, hTargetKind ▸ .credential hFind hSame hValid, ?_, fun h => absurd h (by simp [hKind])⟩
  rw [isRemediationEffective, hKind, hTargetKind]
  dsimp only
  rw [hOwner]
  dsimp only
  rw [isOwnedBy, find_upsert hSame, hEdited]
  simp

theorem effect_reduction (hKind : record.kind = .reduceScope) (hTargetKind : record.targetKind = .node .credential)
    (hProposed : Proposed options state record)
    (hCredentials : ∀ credential ∈ state.credentials, validateStored credential = .ok ()) :
    ∃ changed, Effective options record now state changed := by
  obtain ⟨reduced, hReduced, found, hFind, hCheck⟩ := hProposed.reduced hKind
  have hOwn : Stored.isRecord record.tenantId record.targetId found = true := List.find?_some hFind
  obtain ⟨edited, hEdited⟩ : ∃ edited : CredentialRecord,
      edited = { found with record := { found.record with grantScopes := reduced } } := ⟨_, rfl⟩
  have hSame : Stored.isRecord record.tenantId record.targetId edited = true := by
    rw [hEdited]
    exact hOwn
  have hTaken : applyRemediationEffect record.tenantId record now state = .ok { state with
      credentials := Table.upsert (Stored.isRecord record.tenantId record.targetId) edited state.credentials } := by
    rw [applyRemediationEffect, hKind]
    dsimp only
    rw [if_neg (not_not.mpr hTargetKind), hReduced]
    dsimp only
    rw [reduceScope, editRecord_eq hFind]
    dsimp only
    rw [hCheck, hEdited]
    rfl
  have hValid : validateStored edited = .ok () := by
    rw [hEdited]
    exact hCredentials found (List.mem_of_find?_eq_some hFind)
  refine ⟨_, hTaken, hTargetKind ▸ .credential hFind hSame hValid, ?_, ?_⟩
  · rw [isRemediationEffective, hKind, hTargetKind]
    dsimp only
    rw [find_upsert hSame, hReduced, hEdited]
    simp
  · intro _ other hOther
    cases hReduced.symm.trans hOther
    exact ⟨edited, find_upsert hSame, by rw [hEdited]⟩

theorem effect_revocation (hKind : record.kind = .revoke) (hTargetKind : record.targetKind = .node .credential)
    (hProposed : Proposed options state record)
    (hCredentials : ∀ credential ∈ state.credentials, validateStored credential = .ok ()) :
    ∃ changed, Effective options record now state changed := by
  have hTarget := hProposed.target
  rw [hTargetKind] at hTarget
  obtain ⟨found, hFind, hMem, hOwn⟩ := findRecord_some hTarget
  obtain ⟨edited, hEdited⟩ : ∃ edited : CredentialRecord,
      edited = { found with record := { found.record with status := .revoked } } := ⟨_, rfl⟩
  have hSame : Stored.isRecord record.tenantId record.targetId edited = true := by
    rw [hEdited]
    exact hOwn
  have hTaken : applyRemediationEffect record.tenantId record now state = .ok { state with
      credentials := Table.upsert (Stored.isRecord record.tenantId record.targetId) edited state.credentials } := by
    rw [applyRemediationEffect, hKind]
    dsimp only
    rw [if_neg (not_not.mpr hTargetKind), revoke, editRecord_eq hFind, hEdited]
    rfl
  have hValid : validateStored edited = .ok () := by
    rw [hEdited]
    exact hCredentials found hMem
  refine ⟨_, hTaken, hTargetKind ▸ .credential hFind hSame hValid, ?_, fun h => absurd h (by simp [hKind])⟩
  rw [isRemediationEffective, hKind, hTargetKind]
  dsimp only
  rw [find_upsert hSame, hEdited]
  rfl

theorem effect_onboarding (hKind : record.kind = .onboardThroughGateway) (hTargetKind : record.targetKind = .node .agent)
    (hProposed : Proposed options state record)
    (hAgents : ∀ agent ∈ state.agents, validateStored agent = .ok ())
    (hNow : Printable now) :
    ∃ changed, Effective options record now state changed := by
  have hTarget := hProposed.target
  rw [hTargetKind] at hTarget
  obtain ⟨found, hFind, hMem, hOwn⟩ := findRecord_some hTarget
  obtain ⟨edited, hEdited⟩ : ∃ edited : AgentRecord, edited = { found with
      record := { found.record with gatewayManaged := true }
      freshness := { found.freshness with lastSeenAt := now } } := ⟨_, rfl⟩
  have hSame : Stored.isRecord record.tenantId record.targetId edited = true := by
    rw [hEdited]
    exact hOwn
  have hTaken : applyRemediationEffect record.tenantId record now state = .ok { state with
      agents := Table.upsert (Stored.isRecord record.tenantId record.targetId) edited state.agents } := by
    rw [applyRemediationEffect, hKind]
    dsimp only
    rw [if_neg (not_not.mpr hTargetKind), onboardThroughGateway, editRecord_eq hFind, hEdited]
    rfl
  have hValid : validateStored edited = .ok () := by
    have hFound := hAgents found hMem
    rw [hEdited]
    simp only [validateStored, validateFreshness, bind_unit_eq_ok, stamp_eq_ok] at hFound ⊢
    exact ⟨hFound.1, hFound.2.1, hNow⟩
  refine ⟨_, hTaken, hTargetKind ▸ .agent hFind hSame hValid, ?_, fun h => absurd h (by simp [hKind])⟩
  rw [isRemediationEffective, hKind, hTargetKind]
  dsimp only
  rw [find_upsert hSame, hEdited]
  rfl

theorem effect_evaluation (hKind : record.kind = .createEval) (hTargetKind : record.targetKind = .node .agent)
    (hProposed : Proposed options state record) :
    ∃ changed, Effective options record now state changed := by
  have hTarget := hProposed.target
  rw [hTargetKind] at hTarget
  obtain ⟨scenarioId, hScenario, hExists⟩ := hProposed.evaluated hKind
  have hTaken : applyRemediationEffect record.tenantId record now state = .ok state := by
    rw [applyRemediationEffect, hKind]
    dsimp only
    rw [if_neg (not_not.mpr hTargetKind), hScenario]
    dsimp only
    exact if_pos hTarget
  refine ⟨_, hTaken, .same _, ?_, fun h => absurd h (by simp [hKind])⟩
  rw [isRemediationEffective, hKind, hTargetKind]
  dsimp only
  rw [hScenario]
  exact hExists

theorem effect_of (hSupports : Supports record.kind record.targetKind) (hProposed : Proposed options state record)
    (hValid : ValidState state) (hNow : Printable now) : ∃ changed, Effective options record now state changed := by
  simp only [ValidState, checkState, bind_unit_eq_ok] at hValid
  obtain ⟨_, _, hAgents, _, _, hProviders, hResources, _, hCredentials, _⟩ := hValid
  generalize hKind : record.kind = kind at hSupports
  generalize hTargetKind : record.targetKind = targetKind at hSupports
  cases hSupports with
  | agentOwner => exact effect_agentOwner hKind hTargetKind hProposed (validateAll_ok hAgents)
  | providerOwner => exact effect_providerOwner hKind hTargetKind hProposed (validateAll_ok hProviders)
  | resourceOwner => exact effect_resourceOwner hKind hTargetKind hProposed (validateAll_ok hResources)
  | credentialOwner => exact effect_credentialOwner hKind hTargetKind hProposed (validateAll_ok hCredentials)
  | reduction => exact effect_reduction hKind hTargetKind hProposed (validateAll_ok hCredentials)
  | revocation => exact effect_revocation hKind hTargetKind hProposed (validateAll_ok hCredentials)
  | onboarding => exact effect_onboarding hKind hTargetKind hProposed (validateAll_ok hAgents) hNow
  | evaluation => exact effect_evaluation hKind hTargetKind hProposed

end Application

/-! ## Accepted proposals -/

section Accepted

variable {options : InventoryControllerOptions} {operator : InventoryOperator} {proposal : RemediationProposal} {now : Int}
  {remediationId : String} {state after : InventoryStoreState} {record : RemediationRecord}

theorem proposedRecord_bind {α : Type} (f : RemediationResult → Option α) (hNone : proposal.ownerId = none →
    proposal.reducedScopes = none → proposal.evalScenarioId = none → f (remediationResult proposal operator.principalId) = none) :
    (proposedRecord operator proposal now remediationId).result.bind f = f (remediationResult proposal operator.principalId) := by
  rw [proposedRecord]
  dsimp only
  split
  · rename_i hAbsent
    simp only [Bool.and_eq_true, Option.isNone_iff_eq_none] at hAbsent
    exact (hNone hAbsent.1.1 hAbsent.1.2 hAbsent.2).symm
  · rfl

theorem checkProposedReduction_ok (h : checkProposedReduction state operator.tenantId proposal = .ok ())
    (hKind : proposal.kind = .reduceScope) : ∃ reduced, proposal.reducedScopes = some reduced ∧
      ∃ found, findRecord operator.tenantId proposal.targetId state.credentials = some found ∧
        checkReduction found.record reduced.val = .ok () := by
  obtain ⟨reduced, hReduced⟩ := Option.isSome_iff_exists.mp (proposal.reduced hKind)
  rw [checkProposedReduction, if_neg (not_not.mpr hKind)] at h
  obtain ⟨_, h⟩ := ite_error_eq_ok h
  split at h
  · cases h
  · rename_i found hFind
    rw [hReduced] at h
    exact ⟨reduced, hReduced, found, hFind, h⟩

theorem isUnknownScenario_eq_false (h : ¬isUnknownScenario options proposal = true) (hKind : proposal.kind = .createEval) :
    ∃ scenarioId, proposal.evalScenarioId = some scenarioId ∧
      (options.evalScenarioExists.all fun scenarioExists => scenarioExists scenarioId) = true := by
  obtain ⟨scenarioId, hScenario⟩ := Option.isSome_iff_exists.mp (proposal.evaluated hKind)
  refine ⟨scenarioId, hScenario, ?_⟩
  rw [isUnknownScenario, hKind, hScenario] at h
  cases hExists : options.evalScenarioExists with
  | none => rfl
  | some scenarioExists =>
    rw [hExists] at h
    simpa using h

theorem proposeOp_proposed (h : proposeOp options operator proposal now remediationId state = .ok (record, after)) :
    Proposed options after record := by
  obtain ⟨rfl, rfl⟩ := proposeOp_ok h
  unfold proposeOp at h
  split at h
  · cases h
  · obtain ⟨_, _, h⟩ := bind_eq_ok h
    obtain ⟨_, hTarget, h⟩ := bind_eq_ok h
    obtain ⟨_, hReduction, h⟩ := bind_eq_ok h
    obtain ⟨_, hScenario, _⟩ := bind_eq_ok h
    constructor
    · intro hKind
      obtain ⟨ownerId, hOwner⟩ := Option.isSome_iff_exists.mp (proposal.owned hKind)
      exact ⟨ownerId, (proposedRecord_bind (·.ownerId) fun h _ _ => h).trans hOwner⟩
    · intro hKind
      obtain ⟨reduced, hReduced, hFound⟩ := checkProposedReduction_ok hReduction hKind
      exact ⟨reduced, (proposedRecord_bind (·.reducedScopes) fun _ h _ => h).trans hReduced, hFound⟩
    · intro hKind
      obtain ⟨scenarioId, hId, hExists⟩ := isUnknownScenario_eq_false (failIf_eq_ok.mp hScenario) hKind
      exact ⟨scenarioId, (proposedRecord_bind (·.evalScenarioId) fun _ _ h => h).trans hId, hExists⟩
    · exact eq_true_of_ne_false (failIf_eq_ok.mp hTarget)

/-- The scopes of the credential that a remediation reduced are fewer than before. -/
def Shrunk (record : RemediationRecord) (before after : InventoryStoreState) : Prop :=
  ∃ old new, findRecord record.tenantId record.targetId before.credentials = some old ∧
    findRecord record.tenantId record.targetId after.credentials = some new ∧
    new.record.grantScopes.val ⊆ old.record.grantScopes.val ∧ ¬old.record.grantScopes.val ⊆ new.record.grantScopes.val

/-- The application of a remediation succeeds, is effective, leaves everything else as it was and expands nothing. -/
def AppliesWell (options : InventoryControllerOptions) (record : RemediationRecord) (before : InventoryStoreState)
    (input : ApplyInput) : Prop :=
  ∃ applied after, applyRemediation input (some before) = .ok (applied, after) ∧
    isRemediationEffective options after record.tenantId applied = true ∧ Framed record before after ∧
    (record.kind = .reduceScope → Shrunk record before after)

/-- The kind supports the target, a reduction leaves out a granted scope, the written store is not too large to be read
again, and the time can be printed. -/
structure Applicable (record : RemediationRecord) (before : InventoryStoreState) (now : Int) : Prop where
  supported : Supports record.kind record.targetKind
  reduced : record.kind = .reduceScope → ∀ found, findRecord record.tenantId record.targetId before.credentials = some found →
    ∀ reduced, record.result.bind (·.reducedScopes) = some reduced → ¬found.record.grantScopes.val ⊆ reduced.val
  readable : format.bytes before ≤ MAX_STORE_BYTES
  printable : Printable now

theorem checkReduction_subset {credential : ImportedCredential} {reduced : List Scope}
    (h : checkReduction credential reduced = .ok ()) : reduced ⊆ credential.grantScopes.val := by
  obtain ⟨_, _, h⟩ := bind_eq_ok h
  obtain ⟨_, hAll, _⟩ := bind_eq_ok h
  have hAll := List.all_eq_true.mp (eq_true_of_ne_false (failIf_eq_ok.mp hAll))
  intro scope hScope
  exact List.contains_iff_mem.mp (hAll scope hScope)

theorem resolveFinding_sameBut (tenantId : Identifier) (findings : List FindingRecord) :
    SameBut (fun finding => isFinding tenantId record.findingId finding = true) findings
      (resolveFinding tenantId record now findings) := by
  unfold resolveFinding
  split
  · exact .refl _ _
  · rename_i found hFind
    have hOwn : isFinding tenantId record.findingId found = true := List.find?_some hFind
    exact sameBut_upsert hFind hOwn

theorem resolveFinding_valid (tenantId : Identifier) {findings : List FindingRecord}
    (h : validateAll validateFindingRecord findings "findings" MAX_FINDINGS = .ok ())
    (hRecord : isIdentifier record.remediationId = true) (hNow : Printable now) :
    validateAll validateFindingRecord (resolveFinding tenantId record now findings) "findings" MAX_FINDINGS = .ok () := by
  unfold resolveFinding
  split
  · exact h
  · rename_i found hFind
    refine validateAll_upsert h hFind ?_
    have hFound := validateAll_ok h found (List.mem_of_find?_eq_some hFind)
    simp only [validateFindingRecord, bind_unit_eq_ok] at hFound ⊢
    refine ⟨hFound.1, hFound.2.1, hFound.2.2.1, hFound.2.2.2.1, ?_⟩
    rw [validateFindingStatus, bind_unit_eq_ok, forM_eq_ok, forM_eq_ok]
    constructor
    · intro ms hMs
      cases List.mem_singleton.mp hMs
      exact stamp_eq_ok.mpr hNow
    · intro id hId
      cases List.mem_singleton.mp hId
      exact checkIdentifier_eq_ok.mpr hRecord

theorem find_proposed (hFresh : ∀ other ∈ state.remediations, other.remediationId ≠ record.remediationId) :
    (state.remediations ++ [record]).find? (isRemediation record.tenantId record.remediationId) = some record := by
  have hNone : state.remediations.find? (isRemediation record.tenantId record.remediationId) = none := by
    refine List.find?_eq_none.mpr fun other hOther hIs => ?_
    rw [isRemediation, Bool.and_eq_true, decide_eq_true_eq, decide_eq_true_eq] at hIs
    exact hFresh other hOther hIs.2
  rw [List.find?_append, hNone, Option.none_or, List.find?_singleton, if_pos]
  rw [isRemediation, Bool.and_eq_true, decide_eq_true_eq, decide_eq_true_eq]
  exact ⟨rfl, rfl⟩

theorem applyOp_of {changed : InventoryStoreState} (remediationId : Identifier)
    (hFind : state.remediations.find? (isRemediation record.tenantId remediationId.val) = some record)
    (hStatus : record.status = .proposed) (hEffective : Effective options record now state changed)
    (hValid : ValidState state) (hNow : Printable now) : ∃ after,
      applyOp record.tenantId now remediationId state =
        .ok ({ record with status := .applied, appliedAt := some now }, after) ∧ ValidState after ∧
      after = { changed with
        remediations := Table.upsert (isRemediation record.tenantId remediationId.val)
          { record with status := .applied, appliedAt := some now } state.remediations
        findings := resolveFinding record.tenantId record now state.findings } := by
  have hKeeps := applyRemediationEffect_keeps hEffective.taken
  have hChanged := hEffective.edited.valid hValid
  have hRecord : validateRemediationRecord record = .ok () := by
    simp only [ValidState, checkState, bind_unit_eq_ok] at hValid
    obtain ⟨_, _, _, _, _, _, _, _, _, _, _, _, hRemediations⟩ := hValid
    exact validateAll_ok hRemediations record (List.mem_of_find?_eq_some hFind)
  have hAfter : ValidState { changed with
      remediations := Table.upsert (isRemediation record.tenantId remediationId.val)
        { record with status := .applied, appliedAt := some now } state.remediations
      findings := resolveFinding record.tenantId record now state.findings } := by
    simp only [ValidState, checkState, bind_unit_eq_ok] at hChanged ⊢
    obtain ⟨h1, h2, h3, h4, h5, h6, h7, h8, h9, h10, h11, hFindings, hRemediations⟩ := hChanged
    rw [hKeeps.findings] at hFindings
    rw [hKeeps.remediations] at hRemediations
    simp only [validateRemediationRecord, bind_unit_eq_ok] at hRecord
    obtain ⟨hResult, hId, hFinding, hCreated, _⟩ := hRecord
    refine ⟨h1, h2, h3, h4, h5, h6, h7, h8, h9, h10, h11,
      resolveFinding_valid _ hFindings (checkIdentifier_eq_ok.mp hId) hNow, validateAll_upsert hRemediations hFind ?_⟩
    simp only [validateRemediationRecord, bind_unit_eq_ok]
    refine ⟨hResult, hId, hFinding, hCreated, forM_eq_ok.mpr fun ms hMs => ?_⟩
    cases List.mem_singleton.mp hMs
    exact stamp_eq_ok.mpr hNow
  refine ⟨_, ?_, hAfter, rfl⟩
  have hBounds := hAfter
  simp only [ValidState, checkState, bind_unit_eq_ok] at hBounds
  obtain ⟨_, _, _, _, _, _, _, _, _, _, hEdges, hFindings, _⟩ := hBounds
  have hEdges := atMost_eq_ok.mp (bind_unit_eq_ok.mp hEdges).1
  have hFindings := atMost_eq_ok.mp (bind_unit_eq_ok.mp hFindings).1
  rw [applyOp, hFind]
  dsimp only
  rw [checkApplicable, hStatus]
  dsimp only
  rw [ok_bind, hEffective.taken, ok_bind, hKeeps.remediations, hKeeps.findings, assertStoreBounds, failIf_of_not (Nat.not_lt.mpr hEdges), ok_bind,
    failIf_of_not (Nat.not_lt.mpr hFindings), ok_bind]
  rfl

theorem read_bytes {store after : InventoryStoreState} {α : Type} {result : α}
    {operation : Mutation InventoryStoreState JsError α} (h : format.update operation (some store) = .ok (result, after)) :
    format.bytes store ≤ MAX_STORE_BYTES := by
  obtain ⟨_, hRead, _⟩ := bind_eq_ok h
  rw [StoreFormat.read] at hRead
  exact Nat.le_of_not_lt (ite_error_eq_ok hRead).1

theorem printable_applied (hValid : ValidState after) (hMem : record ∈ after.remediations) (hTime : record.appliedAt = some now) :
    Printable now := by
  simp only [ValidState, checkState, bind_unit_eq_ok] at hValid
  obtain ⟨_, _, _, _, _, _, _, _, _, _, _, _, hRemediations⟩ := hValid
  have hRecord := validateAll_ok hRemediations record hMem
  simp only [validateRemediationRecord, bind_unit_eq_ok, forM_eq_ok] at hRecord
  exact stamp_eq_ok.mp (hRecord.2.2.2.2 now (by simp [hTime]))

/-- **Accepted remediations.** A remediation that was just accepted can be applied as it should if and only if it is
applicable; its identifier is a fresh random one. -/
theorem applied_iff {store : Option InventoryStoreState} {input : ProposeInput} {before : InventoryStoreState}
    {request : ApplyInput} {applier : InventoryOperator}
    (hPropose : proposeRemediation options input store = .ok (record, before))
    (hFresh : ∀ other ∈ (stateOf store).remediations, other.remediationId ≠ record.remediationId)
    (hApplier : authorize request.authenticate .remediate = .ok applier) (hTenant : applier.tenantId = record.tenantId)
    (hId : request.remediationId = .string record.remediationId) (hNow : format.timestamp request.now = .ok now) :
    AppliesWell options record before request ↔ Applicable record before now := by
  obtain ⟨proposer, proposal, proposedAt, _, _, _, hOp, hValid⟩ := proposeRemediation_ok hPropose
  have hProposed := proposeOp_proposed hOp
  obtain ⟨hRecord, hBefore⟩ := proposeOp_ok hOp
  have hStatus : record.status = .proposed := by
    rw [hRecord]
    rfl
  have hFind : before.remediations.find? (isRemediation record.tenantId record.remediationId) = some record := by
    rw [hBefore]
    exact find_proposed hFresh
  have hIdentifier : isIdentifier record.remediationId = true := by
    have hChecks := hValid
    simp only [ValidState, checkState, bind_unit_eq_ok] at hChecks
    obtain ⟨_, _, _, _, _, _, _, _, _, _, _, _, hRemediations⟩ := hChecks
    have hChecked := validateAll_ok hRemediations record (List.mem_of_find?_eq_some hFind)
    simp only [validateRemediationRecord, bind_unit_eq_ok] at hChecked
    exact checkIdentifier_eq_ok.mp hChecked.2.1
  have hParse : identifier refuse request.remediationId "Remediation id" = .ok ⟨record.remediationId, hIdentifier⟩ := by
    rw [hId]
    exact dif_pos hIdentifier
  constructor
  · rintro ⟨applied, after, hApply, _, _, hShrunk⟩
    obtain ⟨applier', now', remediationId, hApplier', hNow', hParse', hApplyOp, hAfter⟩ := applyRemediation_ok hApply
    cases hApplier.symm.trans hApplier'
    cases hNow.symm.trans hNow'
    cases hParse.symm.trans hParse'
    rw [hTenant] at hApplyOp
    obtain ⟨found, changed, hFound, _, hChanged, rfl, hStored⟩ := applyOp_ok hApplyOp
    cases hFind.symm.trans hFound
    have hSupports := supports_of_effect hChanged
    have hApplied : { record with status := .applied, appliedAt := some now } ∈ after.remediations := by
      rw [hStored]
      exact Table.mem_upsert_self _ _ _
    have hPrintable : Printable now := printable_applied hAfter hApplied rfl
    refine ⟨hSupports, ?_, ?_, hPrintable⟩
    · intro hKind found hOld reduced hReduced
      obtain ⟨changed', hEffective⟩ := effect_of hSupports hProposed hValid hPrintable
      cases hChanged.symm.trans hEffective.taken
      obtain ⟨new, hNew, hScopes⟩ := hEffective.reduced hKind reduced hReduced
      obtain ⟨old, new', hOld', hNew', _, hNot⟩ := hShrunk hKind
      rw [hStored] at hNew'
      cases hOld.symm.trans hOld'
      cases hNew.symm.trans hNew'
      rw [← hScopes]
      exact hNot
    · obtain ⟨_, _, h⟩ := bind_eq_ok hApply
      obtain ⟨_, _, h⟩ := bind_eq_ok h
      obtain ⟨_, _, h⟩ := bind_eq_ok h
      exact read_bytes h
  · intro hApplicable
    obtain ⟨changed, hEffective⟩ := effect_of hApplicable.supported hProposed hValid hApplicable.printable
    obtain ⟨after, hApplyOp, hAfter, hStored⟩ := applyOp_of ⟨record.remediationId, hIdentifier⟩ hFind hStatus
      hEffective hValid hApplicable.printable
    have hApply : applyRemediation request (some before) =
        .ok ({ record with status := .applied, appliedAt := some now }, after) := by
      rw [applyRemediation, hApplier, ok_bind, hNow, ok_bind, hParse, ok_bind, hTenant]
      refine format_accepts.update_of (format_accepts.read_of_size hValid hApplicable.readable) ?_ hAfter
      rw [attempt, hApplyOp]
    refine ⟨_, after, hApply, ?_, ?_, ?_⟩
    · rw [hStored]
      exact hEffective.effective
    · have hFramed := hEffective.edited.framed
      rw [hStored]
      exact { hFramed with
        findings := resolveFinding_sameBut _ _
        remediations := sameBut_upsert hFind (by simp [isRemediation]) }
    · intro hKind
      obtain ⟨reduced, hReduced, found, hOld, hCheck⟩ := hProposed.reduced hKind
      obtain ⟨new, hNew, hScopes⟩ := hEffective.reduced hKind reduced hReduced
      refine ⟨found, new, hOld, ?_, ?_, ?_⟩
      · rw [hStored]
        exact hNew
      · rw [hScopes]
        exact checkReduction_subset hCheck
      · rw [hScopes]
        exact hApplicable.reduced hKind found hOld reduced hReduced

end Accepted

/-! ## An agent without an owner -/

def orphanPayload : JsValue :=
  .object [("schemaVersion", integer 1), ("kind", .string "ghostapi.inventory-import"),
    ("source", .object [("sourceId", .string "ci"), ("sourceType", .string "ci"), ("sourceName", .string "ci")]),
    ("agents", .array [.object [("agentId", .string "bot"), ("name", .string "bot"), ("identityIds", .array []),
      ("environmentIds", .array []), ("gatewayManaged", .bool true), ("killSwitchEnabled", .bool false),
      ("lastEvidenceAt", .string "1970-01-01T00:00:00.000Z")]])]

def orphanImport : ImportInput := ⟨.ok acmeOperator, orphanPayload, some 1, "00000000-0000-4000-8000-000000000001"⟩

def orphanAnalyze : AnalyzeInput := ⟨.ok acmeOperator, some 2⟩

/-- A proposal of some kind for the finding that the agent has no owner. -/
def orphanProposal (kind : RemediationKind) : JsValue :=
  .object [("findingId", .string (findingIdOf acme .orphanedAgents (.node .agent) ⟨"bot", bot_isIdentifier⟩)),
    ("kind", .string kind.text), ("targetKind", .string "agent"), ("targetId", .string "bot"),
    ("rationale", .string "orphan"), ("ownerId", .string "svc")]

def orphanPropose (kind : RemediationKind) : ProposeInput :=
  ⟨.ok acmeOperator, orphanProposal kind, some 3, "00000000-0000-4000-8000-000000000002"⟩

def orphanApply (record : RemediationRecord) : ApplyInput := ⟨.ok acmeOperator, .string record.remediationId, some 4⟩

/-- The remediation is about the agent, and what it is stored with can be written. -/
def isOrphanRemediation (kind : RemediationKind) (proposed : RemediationRecord × InventoryStoreState) : Bool :=
  decide (proposed.1.tenantId = acme) && decide (proposed.1.kind = kind) && decide (proposed.1.targetKind = .node .agent) &&
    isLight proposed.2 &&
    (validateAll validateRemediationRecord proposed.2.remediations "remediations" MAX_REMEDIATIONS).toOption.isSome

theorem orphan_proposed : ((importInventory defaultOptions orphanImport none).toOption.any fun imported =>
    isLight imported.2 && (authorize (.ok acmeOperator) .remediate).toOption.any fun operator =>
      (analyzeOp defaultOptions imported.2 acme 2).toOption.any fun analyzed => isLight analyzed.2 &&
        analyzed.2.remediations.isEmpty &&
        (validateAll validateFindingRecord analyzed.2.findings "findings" MAX_FINDINGS).toOption.isSome &&
        [RemediationKind.revoke, .assignOwner].all fun kind =>
          (validateRemediationProposal (orphanProposal kind)).toOption.any fun proposal =>
            (proposeOp defaultOptions operator proposal 3 (uuidName "remediation-" "00000000-0000-4000-8000-000000000002")
              analyzed.2).toOption.any (isOrphanRemediation kind)) = true := by
  decide +kernel

theorem orphan_accepted (kind : RemediationKind) (hKind : kind ∈ [.revoke, .assignOwner]) : ∃ store record before,
    (machine defaultOptions).FreeRun [.importInventory orphanImport, .analyze orphanAnalyze] store ∧
      (stateOf store).remediations = [] ∧
      proposeRemediation defaultOptions (orphanPropose kind) store = .ok (record, before) ∧ record.tenantId = acme ∧
      record.kind = kind ∧ record.targetKind = .node .agent ∧ isLight before = true := by
  obtain ⟨⟨summary, imported⟩, hImport, hTest⟩ := (Option.any_eq_true _ _).mp orphan_proposed
  simp only [Bool.and_eq_true] at hTest
  obtain ⟨hLight, hTest⟩ := hTest
  obtain ⟨operator, hOperator, hTest⟩ := (Option.any_eq_true _ _).mp hTest
  obtain ⟨⟨result, analyzed⟩, hAnalyzeOp, hTest⟩ := (Option.any_eq_true _ _).mp hTest
  simp only [Bool.and_eq_true, List.isEmpty_iff] at hTest
  obtain ⟨⟨⟨hLighter, hNone⟩, hFindings⟩, hTest⟩ := hTest
  obtain ⟨proposal, hProposal, hTest⟩ := (Option.any_eq_true _ _).mp (List.all_eq_true.mp hTest kind hKind)
  obtain ⟨⟨record, before⟩, hProposeOp, hTest⟩ := (Option.any_eq_true _ _).mp hTest
  simp only [isOrphanRemediation, Bool.and_eq_true, decide_eq_true_eq] at hTest
  obtain ⟨⟨⟨⟨hTenant, hRecordKind⟩, hTargetKind⟩, hLightest⟩, hRemediations⟩ := hTest
  have hImport := toOption_eq_some hImport
  have hOperator := toOption_eq_some hOperator
  have hAnalyzeOp := toOption_eq_some hAnalyzeOp
  have hProposeOp := toOption_eq_some hProposeOp
  obtain ⟨_, hFindings⟩ := Option.isSome_iff_exists.mp hFindings
  obtain ⟨_, hRemediations⟩ := Option.isSome_iff_exists.mp hRemediations
  obtain ⟨_, _, _, _, _, _, _, hValid⟩ := importInventory_ok hImport
  have hAnalyzed : ValidState analyzed := by
    rw [analyzeOp_ok hAnalyzeOp] at hFindings ⊢
    exact hValid.with_findings (toOption_eq_some hFindings)
  have hBefore : ValidState before := by
    rw [(proposeOp_ok hProposeOp).2] at hRemediations ⊢
    exact hAnalyzed.with_remediations (toOption_eq_some hRemediations)
  have hAnalyze : analyze defaultOptions orphanAnalyze (some imported) = .ok (result, analyzed) := by
    obtain ⟨analyst, hAnalyst, hAnalystTenant⟩ := (Option.any_eq_true _ _).mp empty_checked.1
    have hNow : format.timestamp orphanAnalyze.now = .ok 2 := rfl
    refine analyze_of_light (toOption_eq_some hAnalyst) hNow hValid hLight ?_ hAnalyzed
    rw [of_decide_eq_true hAnalystTenant]
    exact hAnalyzeOp
  refine ⟨some analyzed, record, before, ?_, hNone, ?_, hTenant, hRecordKind, hTargetKind, hLightest⟩
  · have hRun := freeRun_import .start hImport
    have hWrite : (InventoryEvent.analyze orphanAnalyze).write defaultOptions (some imported) = .ok analyzed := by
      rw [InventoryEvent.write, hAnalyze]
      rfl
    exact hRun.next trivial (congrArg some (serve_ok hWrite))
  · have hNow : format.timestamp (orphanPropose kind).now = .ok 3 := rfl
    exact proposeRemediation_of_light hOperator (toOption_eq_some hProposal) hNow hAnalyzed hLighter hProposeOp hBefore

theorem remediator_authorized : ((authorize (.ok acmeOperator) .remediate).toOption.any fun operator =>
    decide (operator.tenantId = acme)) = true := by decide +kernel

theorem orphan_applied : ∃ record before,
    record.tenantId = acme ∧ AppliesWell defaultOptions record before (orphanApply record) := by
  obtain ⟨store, record, before, _, hNone, hPropose, hTenant, hKind, hTargetKind, hLight⟩ :=
    orphan_accepted .assignOwner (by decide)
  obtain ⟨operator, hOperator, hOperatorTenant⟩ := (Option.any_eq_true _ _).mp remediator_authorized
  obtain ⟨_, _, _, _, _, _, _, hValid⟩ := proposeRemediation_ok hPropose
  have hFresh : ∀ other ∈ (stateOf store).remediations, other.remediationId ≠ record.remediationId := by
    rw [hNone]
    simp
  have hApplicable : Applicable record before 4 := by
    constructor
    · rw [hKind, hTargetKind]
      exact .agentOwner
    · intro hReduce
      cases hKind.symm.trans hReduce
    · exact bytes_le_of_isLight hLight
    · exact (by decide +kernel : Date.isTimestamp (Date.toISOString 4) = true)
  refine ⟨record, before, hTenant, ?_⟩
  exact (applied_iff hPropose hFresh (toOption_eq_some hOperator) (by rw [of_decide_eq_true hOperatorTenant, hTenant])
    rfl rfl).mpr hApplicable

/-- A proposal to revoke the agent is accepted, and no application of it succeeds. -/
theorem orphan_not_revoked : ∃ store record before,
    (machine defaultOptions).FreeRun [.importInventory orphanImport, .analyze orphanAnalyze] store ∧
      proposeRemediation defaultOptions (orphanPropose .revoke) store = .ok (record, before) ∧
      ¬AppliesWell defaultOptions record before (orphanApply record) := by
  obtain ⟨store, record, before, hRun, hNone, hPropose, hTenant, hKind, hTargetKind, hLight⟩ :=
    orphan_accepted .revoke (by decide)
  refine ⟨store, record, before, hRun, hPropose, ?_⟩
  rintro ⟨applied, after, hApply, _⟩
  obtain ⟨_, _, _, _, _, _, hApplyOp, _⟩ := applyRemediation_ok hApply
  obtain ⟨found, changed, hFound, _, hChanged, _⟩ := applyOp_ok hApplyOp
  obtain ⟨_, _, _, _, _, _, hProposeOp, _⟩ := proposeRemediation_ok hPropose
  have hRemediations : before.remediations = [record] := by
    rw [(proposeOp_ok hProposeOp).2]
    dsimp only
    rw [hNone, List.nil_append]
  have hMem : found ∈ before.remediations := List.mem_of_find?_eq_some hFound
  rw [hRemediations, List.mem_singleton] at hMem
  have hSupports := supports_of_effect hChanged
  rw [hMem, hKind, hTargetKind] at hSupports
  cases hSupports

end GhostApi.Inventory
