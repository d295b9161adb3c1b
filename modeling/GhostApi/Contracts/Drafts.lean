import GhostApi.Contracts.Recording

/-!
# Drafts of contracts

A draft is made by the program, and the validator reads it as data. It passes
if its operations do, and comes back with its names sorted.
-/

namespace GhostApi.Contracts

open Js Validation Effect Scenarios

/-! ## Operations of a draft -/

namespace ContractOperation

/-- An operation as the program makes it: no name stands twice in an object. -/
structure Proper (operation : ContractOperation) : Prop where
  request : ∀ schema, operation.request = some schema → schema.Proper
  nodup : (keys operation.responses).Nodup
  responses : ∀ response ∈ operation.responses, ∀ schema, response.2 = some schema → schema.Proper

structure PassesResponse (response : String × Option ContractSchema) : Prop where
  status : isStatus response.1 = true
  schema : ∀ schema, response.2 = some schema → schema.Acceptable ROOM

structure Passes (operation : ContractOperation) : Prop where
  method : operation.method ∈ HTTP_METHODS
  path : isOpenApiPath operation.path = true
  request : ∀ schema, operation.request = some schema → schema.Acceptable ROOM
  count : operation.responses ≠ [] ∧ operation.responses.length ≤ 20
  responses : ∀ response ∈ operation.responses, PassesResponse response

/-- What the validator makes of an operation that passes. -/
def sorted (collation : Collation) (operation : ContractOperation) : ContractOperation :=
  { operation with
    request := operation.request.map (·.sorted collation)
    responses := collation.sortEntries (operation.responses.map fun response =>
      (response.1, response.2.map (·.sorted collation))) }

end ContractOperation

section Operations

open ContractOperation

variable {collation : Collation} {operation : ContractOperation}

theorem validateRequest_reads {request result : Option ContractSchema}
    (hProper : ∀ schema, request = some schema → schema.Proper) :
    validateRequest collation ((request.map (·.toValue)).getD .undefined) = .ok result ↔
      (∀ schema, request = some schema → schema.Acceptable ROOM) ∧ result = request.map (·.sorted collation) := by
  rcases request with _ | schema
  · constructor
    · rintro ⟨⟩
      exact ⟨nofun, rfl⟩
    · rintro ⟨_, rfl⟩
      rfl
  · have hReads : Reads collation (validateSchema collation ROOM) ROOM schema := validateSchema_reads (hProper schema rfl)
    rw [Option.map_some, Option.getD_some, validateRequest_of_ne schema.toValue_ne_undefined]
    constructor
    · intro h
      rcases hRead : validateRootSchema collation schema.toValue "Contract request schema" with e | found
      · rw [hRead] at h
        cases h
      · rw [hRead] at h
        cases h
        obtain ⟨hAcceptable, rfl⟩ := (hReads _ found).mp hRead
        refine ⟨?_, rfl⟩
        rintro _ ⟨⟩
        exact hAcceptable
    · rintro ⟨hAcceptable, rfl⟩
      have hRead : validateRootSchema collation schema.toValue "Contract request schema" = .ok (schema.sorted collation) :=
        (hReads _ _).mpr ⟨hAcceptable schema rfl, rfl⟩
      rw [hRead]
      rfl

theorem validateResponse_reads {response result : String × Option ContractSchema}
    (hProper : ∀ schema, response.2 = some schema → schema.Proper) :
    validateResponse collation (response.1, response.2.elim .null (·.toValue)) = .ok result ↔
      PassesResponse response ∧ result = (response.1, response.2.map (·.sorted collation)) := by
  obtain ⟨status, schema⟩ := response
  rcases schema with _ | schema
  · constructor
    · intro h
      obtain ⟨_, hStatus, hPure⟩ := bind_eq_ok h
      cases hPure
      rw [failIf_eq_ok, Bool.not_eq_false] at hStatus
      exact ⟨⟨hStatus, nofun⟩, rfl⟩
    · rintro ⟨hPasses, rfl⟩
      rw [Option.elim_none, validateResponse, failIf_of_not (by simp [hPasses.status])]
      rfl
  · have hNe : schema.toValue ≠ .null := by
      rw [ContractSchema.toValue_eq]
      rintro ⟨⟩
    have hReads : Reads collation (validateSchema collation ROOM) ROOM schema := validateSchema_reads (hProper schema rfl)
    rw [Option.elim_some, validateResponse_of_ne hNe]
    constructor
    · intro h
      obtain ⟨_, hStatus, h⟩ := bind_eq_ok h
      obtain ⟨found, hRead, hPure⟩ := bind_eq_ok h
      cases hPure
      rw [failIf_eq_ok, Bool.not_eq_false] at hStatus
      obtain ⟨hAcceptable, rfl⟩ := (hReads _ found).mp hRead
      refine ⟨⟨hStatus, ?_⟩, rfl⟩
      rintro _ ⟨⟩
      exact hAcceptable
    · rintro ⟨hPasses, rfl⟩
      have hRead : ∀ label, validateRootSchema collation schema.toValue label = .ok (schema.sorted collation) :=
        fun label => (hReads label _).mpr ⟨hPasses.schema schema rfl, rfl⟩
      rw [failIf_of_not (by simp [hPasses.status]), ok_bind, hRead]
      rfl

theorem validateOperation_reads (hProper : operation.Proper) (result : ContractOperation) :
    validateOperation collation operation.toValue = .ok result ↔
      operation.Passes ∧ result = operation.sorted collation := by
  obtain ⟨hKeys, hMethod, hPath, hBody, hResponses⟩ := operation.members
  have hPerm := collation.sortEntries_perm operation.responses
  have hEach : ∀ response ∈ collation.sortEntries operation.responses, ∀ entry,
      (validateResponse collation ∘ fun response : String × Option ContractSchema =>
        (response.1, response.2.elim .null (·.toValue))) response = .ok entry ↔
        PassesResponse response ∧ entry = (response.1, response.2.map (·.sorted collation)) :=
    fun response hMem entry => validateResponse_reads (hProper.responses response (hPerm.mem_iff.mp hMem))
  have hEntries : ∀ entries, (collation.sortEntries (operation.responses.map fun response =>
      (response.1, response.2.elim .null (·.toValue)))).mapM (validateResponse collation) = .ok entries ↔
        (∀ response ∈ operation.responses, PassesResponse response) ∧ entries =
          collation.sortEntries (operation.responses.map fun response =>
            (response.1, response.2.map (·.sorted collation))) := by
    intro entries
    rw [sortEntries_map fun schema : Option ContractSchema => schema.elim JsValue.null (·.toValue),
      sortEntries_map fun schema : Option ContractSchema => schema.map (·.sorted collation), List.mapM_map,
      mapM_eq_ok_iff hEach]
    simp only [hPerm.mem_iff]
  have hNodup : (keys (collation.sortEntries (operation.responses.map fun response =>
      (response.1, response.2.map (·.sorted collation))))).Nodup := by
    refine ((collation.sortEntries_perm _).map Prod.fst).nodup_iff.mpr ?_
    rw [← keys, keys_map fun schema : Option ContractSchema => schema.map (·.sorted collation)]
    exact hProper.nodup
  have hCount : ¬((operation.responses.map fun response : String × Option ContractSchema =>
      (response.1, response.2.elim JsValue.null (·.toValue))) = [] ∨
        20 < (operation.responses.map fun response : String × Option ContractSchema =>
          (response.1, response.2.elim JsValue.null (·.toValue))).length) ↔
      operation.responses ≠ [] ∧ operation.responses.length ≤ 20 := by
    rw [List.map_eq_nil_iff, List.length_map, not_or, Nat.not_lt]
  constructor
  · intro h
    obtain ⟨record, hObject, h⟩ := bind_eq_ok h
    cases hObject
    obtain ⟨_, _, h⟩ := bind_eq_ok h
    obtain ⟨method, hMethodRead, h⟩ := bind_eq_ok h
    obtain ⟨path, hPathRead, h⟩ := bind_eq_ok h
    obtain ⟨responses, hObject, h⟩ := bind_eq_ok h
    rw [hResponses] at hObject
    cases hObject
    obtain ⟨_, hCountRead, h⟩ := bind_eq_ok h
    obtain ⟨request, hRequest, h⟩ := bind_eq_ok h
    obtain ⟨entries, hRun, h⟩ := bind_eq_ok h
    cases h
    rw [hMethod] at hMethodRead
    rw [hPath] at hPathRead
    rw [hBody, validateRequest_reads hProper.request] at hRequest
    rw [failIf_eq_ok, hCount] at hCountRead
    obtain ⟨hOwn, hMethods⟩ := validateMethod_eq_ok.mp hMethodRead
    cases hOwn
    obtain ⟨hOwn, hOpenApi⟩ := validateOpenApiPath_eq_ok.mp hPathRead
    cases hOwn
    obtain ⟨hAll, rfl⟩ := (hEntries entries).mp hRun
    obtain ⟨hAcceptable, rfl⟩ := hRequest
    rw [fromEntries_eq_self hNodup]
    exact ⟨⟨hMethods, hOpenApi, hAcceptable, hCountRead, hAll⟩, rfl⟩
  · rintro ⟨hPasses, rfl⟩
    have hRequest : validateRequest collation ((operation.request.map (·.toValue)).getD .undefined) =
        .ok (operation.request.map (·.sorted collation)) :=
      (validateRequest_reads hProper.request).mpr ⟨hPasses.request, rfl⟩
    rw [validateOperation, ContractOperation.toValue, objectAt, Validation.object, ok_bind, hKeys, ok_bind, hMethod,
      validateMethod_eq_ok.mpr ⟨rfl, hPasses.method⟩, ok_bind, hPath,
      validateOpenApiPath_eq_ok.mpr ⟨rfl, hPasses.path⟩, ok_bind, hResponses, objectAt, Validation.object, ok_bind,
      failIf_of_not (hCount.mpr hPasses.count), ok_bind, hBody, hRequest, ok_bind,
      (hEntries _).mpr ⟨hPasses.responses, rfl⟩, ok_bind, fromEntries_eq_self hNodup]
    rfl

end Operations

/-! ## Contracts of a draft -/

section Contracts

variable {collation : Collation}

theorem currentProviderCapabilities_validated :
    ∀ capability ∈ currentProviderCapabilities collation, capability.Validated collation := by
  intro capability hMem
  rw [currentProviderCapabilities, (collation.sortBy_perm _ _).mem_iff, List.mem_map] at hMem
  obtain ⟨manifest, hManifest, rfl⟩ := hMem
  have hKnown : ∀ manifest ∈ providerManifests, isCapabilityName manifest.name = true ∧
      manifest.capabilities.length ≤ 30 ∧ (keys manifest.capabilities).Nodup := by
    decide
  obtain ⟨hName, hCount, hNodup⟩ := hKnown manifest hManifest
  have hPerm := collation.sortEntries_perm manifest.capabilities
  refine ⟨hName, ?_, ?_, collation.sortBy_idempotent Prod.fst manifest.capabilities⟩
  · rw [hPerm.length_eq]
    exact hCount
  · exact (hPerm.map Prod.fst).nodup_iff.mpr hNodup

theorem mapM_capabilities : ((currentProviderCapabilities collation).map (·.toValue)).mapM (validateCapability collation) =
    .ok (currentProviderCapabilities collation) := by
  rw [List.mapM_map]
  refine (mapM_eq_pure (g := id) fun capability hMem =>
    (currentProviderCapabilities_validated capability hMem).revalidate).trans ?_
  rw [List.map_id]
  rfl

variable (collation) in
/-- The contract that contractFromScenarioBundle hands to the validator. -/
def harDraft (title importedAt : String) (operations : List ContractOperation) : GhostApiContract where
  metadata := ⟨title, .har, importedAt⟩
  operations := operations
  providerCapabilities := currentProviderCapabilities collation

variable {title importedAt : String} {operations : List ContractOperation}

/-- What has to hold of a draft for the validator to accept it. -/
structure DraftPasses (title importedAt : String) (operations : List ContractOperation) : Prop where
  title : normalizeTitle (.string title) = .ok title
  importedAt : isTimestamp importedAt = true
  count : 1 ≤ operations.length ∧ operations.length ≤ MAX_OPERATIONS
  passes : ∀ operation ∈ operations, operation.Passes
  distinct : (operations.map operationKey).Nodup

theorem distinct_sorted : ((sortOperations collation (operations.map (·.sorted collation))).map operationKey).Nodup ↔
    (operations.map operationKey).Nodup := by
  have hPerm := (collation.sortBy_perm operationKey (operations.map (·.sorted collation))).map operationKey
  rw [List.map_map] at hPerm
  exact hPerm.nodup_iff

theorem validateContract_unfold (title importedAt : String) (operations : List ContractOperation) :
    validateContract collation (harDraft collation title importedAt operations).toValue = (do
      let importedAt ← validateImportedAt (.string importedAt)
      let entries ← boundedArray (.array (operations.map (·.toValue))) 1 MAX_OPERATIONS
        "Contract operations must contain 1-400 entries."
      let operations ← entries.mapM (validateOperation collation)
      assertDistinct (sortOperations collation operations)
      let packs ← boundedArray (.array ((currentProviderCapabilities collation).map (·.toValue))) 0 20
        "Contract provider capabilities are invalid."
      let capabilities ← packs.mapM (validateCapability collation)
      let title ← normalizeTitle (.string title)
      return ⟨⟨title, .har, importedAt⟩, sortOperations collation operations,
        collation.sortBy (·.name) capabilities⟩) := rfl

theorem validateDraft_eq_ok (hProper : ∀ operation ∈ operations, operation.Proper)
    (hTitle : normalizeTitle (.string title) = .ok title) {contract : GhostApiContract} :
    validateContract collation (harDraft collation title importedAt operations).toValue = .ok contract ↔
      DraftPasses title importedAt operations ∧ contract = harDraft collation title importedAt
        (sortOperations collation (operations.map (·.sorted collation))) := by
  have hEach : ∀ operation ∈ operations, ∀ result,
      (validateOperation collation ∘ fun operation : ContractOperation => operation.toValue) operation = .ok result ↔
        operation.Passes ∧ result = operation.sorted collation :=
    fun operation hMem => validateOperation_reads (hProper operation hMem)
  have hRun : ∀ results, (operations.map (·.toValue)).mapM (validateOperation collation) = .ok results ↔
      (∀ operation ∈ operations, operation.Passes) ∧ results = operations.map (·.sorted collation) := by
    intro results
    rw [List.mapM_map, mapM_eq_ok_iff hEach]
  have hPackCount : ((currentProviderCapabilities collation).map (·.toValue)).length ≤ 20 := by
    rw [List.length_map, currentProviderCapabilities, (collation.sortBy_perm _ _).length_eq, List.length_map]
    decide
  have hPacks : collation.sortBy ContractProviderCapability.name (currentProviderCapabilities collation) =
      currentProviderCapabilities collation := collation.sortBy_idempotent ContractProviderCapability.name _
  rw [validateContract_unfold]
  constructor
  · intro h
    obtain ⟨_, hImported, h⟩ := bind_eq_ok h
    obtain ⟨hOwn, hTimestamp⟩ := validateImportedAt_eq_ok.mp hImported
    cases hOwn
    obtain ⟨_, hCount, h⟩ := bind_eq_ok h
    obtain ⟨hOwn, hBounds⟩ := boundedArray_eq_ok.mp hCount
    cases hOwn
    obtain ⟨results, hResults, h⟩ := bind_eq_ok h
    obtain ⟨hPasses, rfl⟩ := (hRun results).mp hResults
    obtain ⟨_, hDistinct, h⟩ := bind_eq_ok h
    rw [assertDistinct_eq_ok, distinct_sorted] at hDistinct
    obtain ⟨_, hPackList, h⟩ := bind_eq_ok h
    obtain ⟨hOwn, _⟩ := boundedArray_eq_ok.mp hPackList
    cases hOwn
    rw [mapM_capabilities, ok_bind, hTitle, ok_bind, hPacks] at h
    cases h
    rw [List.length_map] at hBounds
    exact ⟨⟨hTitle, hTimestamp, hBounds, hPasses, hDistinct⟩, rfl⟩
  · rintro ⟨h, rfl⟩
    rw [validateImportedAt_eq_ok.mpr ⟨rfl, h.importedAt⟩, ok_bind,
      boundedArray_eq_ok.mpr ⟨rfl, by rw [List.length_map]; exact h.count⟩, ok_bind,
      (hRun _).mpr ⟨h.passes, rfl⟩, ok_bind, assertDistinct_eq_ok.mpr (distinct_sorted.mpr h.distinct), ok_bind,
      boundedArray_eq_ok.mpr ⟨rfl, Nat.zero_le _, hPackCount⟩, ok_bind, mapM_capabilities, ok_bind, hTitle, ok_bind,
      hPacks]
    rfl

end Contracts

end GhostApi.Contracts
