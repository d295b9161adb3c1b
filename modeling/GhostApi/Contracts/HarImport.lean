import GhostApi.Contracts.Drafts
import GhostApi.Scenarios.Validity
import Mathlib.Data.List.Dedup

/-!
# Contracts of recorded bundles

A contract of a bundle accepts what was recorded, in whatever order the
interactions stand. It is refused where samples that are merged differ in kind,
since the validator takes no schema without a type.
-/

namespace GhostApi.Contracts

open Js Security Validation Effect Scenarios

section Import

variable {collation : Collation} {interactions group : List ScenarioBundleInteraction}
  {operations : List (String × ContractOperation)} {operation : ContractOperation}

/-! ## The operations of a recording -/

theorem Records.proper (h : Records collation group operation) : operation.Proper where
  request schema hSome := summary_proper (h.request.symm.trans hSome)
  nodup := h.nodup
  responses := by
    rintro ⟨status, response⟩ hMem schema hSome
    have hLookup := lookup_of_mem h.nodup hMem
    rw [h.responses, Option.map_eq_some_iff] at hLookup
    obtain ⟨found, hFound, hOwn⟩ := hLookup
    have hSame : some found = some schema := hOwn.trans hSome
    rw [Option.some.injEq] at hSame
    exact summary_proper (hSame ▸ hFound)

theorem Recorded.proper (h : Recorded collation interactions operations) :
    ∀ operation ∈ operations.map Prod.snd, operation.Proper := by
  intro operation hMem
  obtain ⟨⟨key, _⟩, hEntry, rfl⟩ := List.mem_map.mp hMem
  exact (h.present key _ (lookup_of_mem h.nodup hEntry)).2.proper

theorem Recorded.operationKeys (h : Recorded collation interactions operations) :
    (operations.map Prod.snd).map operationKey = keys operations := by
  rw [List.map_map, keys]
  apply List.map_congr_left
  rintro ⟨key, operation⟩ hEntry
  obtain ⟨hNe, hRecords⟩ := h.present key operation (lookup_of_mem h.nodup hEntry)
  obtain ⟨first, hFirst⟩ := List.exists_mem_of_ne_nil _ hNe
  have hKey : operationKey operation = interactionKey first := by
    rw [operationKey, hRecords.method first hFirst, hRecords.path first hFirst, interactionKey]
  exact hKey.trans (mem_atKey.mp hFirst).2

theorem Recorded.distinct (h : Recorded collation interactions operations) :
    ((operations.map Prod.snd).map operationKey).Nodup := by
  rw [h.operationKeys]
  exact h.nodup

theorem Recorded.lookup (h : Recorded collation interactions operations) {interaction : ScenarioBundleInteraction}
    (hMem : interaction ∈ interactions) : ∃ operation,
      (interactionKey interaction, operation) ∈ operations ∧
        Records collation (atKey (interactionKey interaction) interactions) operation := by
  have hGroup : interaction ∈ atKey (interactionKey interaction) interactions := mem_atKey.mpr ⟨hMem, rfl⟩
  rcases hLookup : operations.lookup (interactionKey interaction) with _ | operation
  · rw [h.absent _ hLookup] at hGroup
    cases hGroup
  · exact ⟨operation, mem_of_lookup hLookup, (h.present _ _ hLookup).2⟩

theorem Recorded.length_le (h : Recorded collation interactions operations) :
    operations.length ≤ interactions.length := by
  have hSubset : keys operations ⊆ interactions.map interactionKey := by
    intro key hKey
    obtain ⟨operation, hLookup⟩ := Option.isSome_iff_exists.mp (lookup_isSome.mpr hKey)
    obtain ⟨first, hFirst⟩ := List.exists_mem_of_ne_nil _ (h.present key operation hLookup).1
    obtain ⟨hMem, rfl⟩ := mem_atKey.mp hFirst
    exact List.mem_map_of_mem hMem
  calc operations.length = (keys operations).length := (List.length_map _).symm
    _ ≤ (interactions.map interactionKey).length := (List.subperm_of_subset h.nodup hSubset).length_le
    _ = interactions.length := List.length_map _

theorem Recorded.ne_nil (h : Recorded collation interactions operations) (hNe : interactions ≠ []) :
    operations ≠ [] := by
  obtain ⟨first, hFirst⟩ := List.exists_mem_of_ne_nil _ hNe
  obtain ⟨operation, hMem, _⟩ := h.lookup hFirst
  exact List.ne_nil_of_mem hMem

/-! ## The import as a whole -/

theorem DraftPasses.of_perm {title importedAt : String} {operations others : List ContractOperation}
    (h : DraftPasses title importedAt operations) (hPerm : operations.Perm others) :
    DraftPasses title importedAt others where
  title := h.title
  importedAt := h.importedAt
  count := hPerm.length_eq ▸ h.count
  passes operation hMem := h.passes operation (hPerm.mem_iff.mpr hMem)
  distinct := (hPerm.map operationKey).nodup_iff.mp h.distinct

variable (collation) in
def contractOf (title importedAt : String) (operations : List (String × ContractOperation)) : GhostApiContract :=
  harDraft collation title importedAt (sortOperations collation
    ((sortOperations collation (operations.map Prod.snd)).map (·.sorted collation)))

theorem contractOf_operations_perm (title importedAt : String) (operations : List (String × ContractOperation)) :
    (contractOf collation title importedAt operations).operations.Perm
      ((operations.map Prod.snd).map (·.sorted collation)) :=
  (collation.sortBy_perm operationKey _).trans ((collation.sortBy_perm operationKey _).map _)

theorem contractFromScenarioBundle_eq_ok {bundle : ScenarioBundle} {title importedAt : String}
    (hBlank : ∀ interaction ∈ bundle.interactions, BlankFree interaction) {contract : GhostApiContract} :
    contractFromScenarioBundle collation bundle title importedAt = .ok contract ↔ ∃ operations normal,
      bundle.interactions.foldlM (recordInteraction collation) [] = .ok operations ∧
        normalizeTitle (.string title) = .ok normal ∧
        DraftPasses normal importedAt (operations.map Prod.snd) ∧
        contract = contractOf collation normal importedAt operations := by
  have hReads : ∀ operations normal, bundle.interactions.foldlM (recordInteraction collation) [] = .ok operations →
      normalizeTitle (.string title) = .ok normal →
        (validateContract collation (harDraft collation normal importedAt
          (sortOperations collation (operations.map Prod.snd))).toValue = .ok contract ↔
        DraftPasses normal importedAt (operations.map Prod.snd) ∧
          contract = contractOf collation normal importedAt operations) := by
    intro operations normal hRun hTitle
    have hPerm : (sortOperations collation (operations.map Prod.snd)).Perm (operations.map Prod.snd) :=
      collation.sortBy_perm operationKey _
    have hRecorded := (Recorded.nil.run (by simpa using hBlank) hRun).1
    rw [List.nil_append] at hRecorded
    have hProper : ∀ operation ∈ sortOperations collation (operations.map Prod.snd), operation.Proper :=
      fun operation hMem => hRecorded.proper operation (hPerm.mem_iff.mp hMem)
    rw [validateDraft_eq_ok hProper (normalizeTitle_ok hTitle)]
    exact and_congr_left fun _ => ⟨fun h => h.of_perm hPerm, fun h => h.of_perm hPerm.symm⟩
  constructor
  · intro h
    obtain ⟨operations, hRun, h⟩ := bind_eq_ok h
    obtain ⟨normal, hTitle, h⟩ := bind_eq_ok h
    obtain ⟨hPasses, hContract⟩ := (hReads operations normal hRun hTitle).mp h
    exact ⟨operations, normal, hRun, hTitle, hPasses, hContract⟩
  · rintro ⟨operations, normal, hRun, hTitle, hPasses, hContract⟩
    rw [contractFromScenarioBundle, hRun, ok_bind, hTitle, ok_bind]
    exact (hReads operations normal hRun hTitle).mpr ⟨hPasses, hContract⟩

theorem blankFree_of_accepted {bundle : ScenarioBundle} (h : bundle.Accepted) :
    ∀ interaction ∈ bundle.interactions, BlankFree interaction := by
  intro interaction hMem hBlank
  have hKnown : ∀ method ∈ METHODS, ' ' ∉ method.toList := by decide
  apply hKnown _ (h.method interaction hMem)
  rw [toUpperCase, String.toList_ofList, List.mem_flatMap]
  exact ⟨' ', hBlank, by decide⟩

/-- The recorded interaction is accepted by its operation of the contract. -/
def Describes (contract : GhostApiContract) (interaction : ScenarioBundleInteraction) : Prop :=
  ∃ operation ∈ contract.operations, operation.method = interaction.request.method ∧
    operation.path = pathWithoutQuery interaction.request.path ∧
    (∃ request, operation.request = some request ∧ request.accepts false interaction.request.body = true) ∧
    ∃ response, operation.responses.lookup (toString interaction.response.status) = some (some response) ∧
      response.accepts false interaction.response.body = true

theorem Records.describes (h : Records collation group operation) {interaction : ScenarioBundleInteraction}
    (hMem : interaction ∈ group) (hDescribable : Describable interaction) :
    (∃ request, (operation.sorted collation).request = some request ∧
        request.accepts false interaction.request.body = true) ∧
      ∃ response, (operation.sorted collation).responses.lookup (toString interaction.response.status) =
          some (some response) ∧ response.accepts false interaction.response.body = true := by
  have hRequestMem : interaction.request.body ∈ requestBodies group := List.mem_map_of_mem hMem
  have hResponseMem : interaction.response.body ∈ responseBodies (toString interaction.response.status) group := by
    apply List.mem_map_of_mem
    rw [withStatus, List.mem_filter]
    exact ⟨hMem, beq_self_eq_true _⟩
  obtain ⟨request, hRequest⟩ := @summary_isSome collation ROOM _ (List.ne_nil_of_mem hRequestMem)
  obtain ⟨response, hResponse⟩ := @summary_isSome collation ROOM _ (List.ne_nil_of_mem hResponseMem)
  constructor
  · refine ⟨request.sorted collation, ?_, ?_⟩
    · rw [ContractOperation.sorted, h.request, hRequest, Option.map_some]
    · rw [ContractSchema.accepts_sorted]
      exact summary_accepts hRequest hRequestMem hDescribable.2
  · refine ⟨response.sorted collation, ?_, ?_⟩
    · have hNodup : (keys (operation.responses.map fun response =>
          (response.1, response.2.map (·.sorted collation)))).Nodup := by
        rw [keys_map fun schema : Option ContractSchema => schema.map (·.sorted collation)]
        exact h.nodup
      rw [ContractOperation.sorted, lookup_perm hNodup (collation.sortEntries_perm _).symm,
        lookup_map fun schema : Option ContractSchema => schema.map (·.sorted collation), h.responses, hResponse]
      rfl
    · rw [ContractSchema.accepts_sorted]
      exact summary_accepts hResponse hResponseMem hDescribable.1

/-! ## When an import succeeds -/

structure WithinImportLimits (bundle : ScenarioBundle) : Prop where
  path : ∀ interaction ∈ bundle.interactions, isOpenApiPath (pathWithoutQuery interaction.request.path) = true
  names : ∀ interaction ∈ bundle.interactions,
    namesAccepted ROOM interaction.request.body = true ∧ namesAccepted ROOM interaction.response.body = true
  bodies : ∀ interaction ∈ bundle.interactions, Describable interaction
  statuses : ∀ key, ((atKey key bundle.interactions).map (·.response.status)).dedup.length ≤ 20

/-- What it asks for on top: samples of one place are of one kind, methods are in upper case, and the title has no
secret in it. -/
structure Importable (bundle : ScenarioBundle) : Prop where
  title : sanitizeSecretString (trim bundle.metadata.title) = trim bundle.metadata.title
  methods : ∀ interaction ∈ bundle.interactions, interaction.request.method ∈ HTTP_METHODS
  requests : ∀ key, uniform ROOM (requestBodies (atKey key bundle.interactions)) = true
  responses : ∀ key status, uniform ROOM (responseBodies status (atKey key bundle.interactions)) = true

theorem isStatus_toString {status : Nat} (hLow : 100 ≤ status) (hHigh : status ≤ 599) :
    isStatus (toString status) = true := by
  have hAll : ∀ status : Fin 600, 100 ≤ status.val → isStatus (toString status.val) = true := by decide +kernel
  exact hAll ⟨status, by omega⟩ hLow

theorem Records.status_of_mem (h : Records collation group operation) {status : String}
    (hMem : status ∈ keys operation.responses) :
    ∃ interaction ∈ group, toString interaction.response.status = status := by
  have hSome := lookup_isSome.mpr hMem
  rw [h.responses, Option.isSome_map] at hSome
  obtain ⟨schema, hSchema⟩ := Option.isSome_iff_exists.mp hSome
  obtain ⟨body, hBody⟩ := List.exists_mem_of_ne_nil _ (summary_ne_nil hSchema)
  obtain ⟨interaction, hWith, _⟩ := List.mem_map.mp hBody
  rw [withStatus, List.mem_filter, beq_iff_eq] at hWith
  exact ⟨interaction, hWith⟩

theorem Records.count (h : Records collation group operation) (hNe : group ≠ [])
    (hCount : (group.map (·.response.status)).dedup.length ≤ 20) :
    operation.responses ≠ [] ∧ operation.responses.length ≤ 20 := by
  constructor
  · rintro hNil
    obtain ⟨first, hFirst⟩ := List.exists_mem_of_ne_nil group hNe
    have hMem : first.response.body ∈ responseBodies (toString first.response.status) group := by
      apply List.mem_map_of_mem
      rw [withStatus, List.mem_filter]
      exact ⟨hFirst, beq_self_eq_true _⟩
    have hNone := h.responses (toString first.response.status)
    rw [hNil, List.lookup_nil, eq_comm, Option.map_eq_none_iff, summary_eq_none] at hNone
    exact List.ne_nil_of_mem hMem hNone
  · have hSubset : keys operation.responses ⊆ (group.map (·.response.status)).dedup.map toString := by
      intro status hStatus
      obtain ⟨interaction, hMem, rfl⟩ := h.status_of_mem hStatus
      exact List.mem_map_of_mem (List.mem_dedup.mpr (List.mem_map_of_mem hMem))
    calc operation.responses.length = (keys operation.responses).length := (List.length_map _).symm
      _ ≤ ((group.map (·.response.status)).dedup.map toString).length :=
        (List.subperm_of_subset h.nodup hSubset).length_le
      _ = (group.map (·.response.status)).dedup.length := List.length_map _
      _ ≤ 20 := hCount

theorem Records.passes_iff (h : Records collation group operation) (hNe : group ≠ [])
    (hPath : ∀ interaction ∈ group, isOpenApiPath (pathWithoutQuery interaction.request.path) = true)
    (hRequests : Bounded ROOM (requestBodies group)) (hResponses : ∀ status, Bounded ROOM (responseBodies status group))
    (hStatus : ∀ interaction ∈ group, 100 ≤ interaction.response.status ∧ interaction.response.status ≤ 599)
    (hCount : (group.map (·.response.status)).dedup.length ≤ 20) :
    operation.Passes ↔ (∀ interaction ∈ group, interaction.request.method ∈ HTTP_METHODS) ∧
      uniform ROOM (requestBodies group) = true ∧
      ∀ status, uniform ROOM (responseBodies status group) = true := by
  obtain ⟨first, hFirst⟩ := List.exists_mem_of_ne_nil group hNe
  constructor
  · intro hPasses
    refine ⟨fun interaction hMem => h.method interaction hMem ▸ hPasses.method, ?_, fun status => ?_⟩
    · obtain ⟨request, hRequest⟩ := @summary_isSome collation ROOM (requestBodies group)
        (List.ne_nil_of_mem (List.mem_map_of_mem hFirst))
      exact (acceptable_iff_uniform hRequest hRequests).mp (hPasses.request request (h.request.trans hRequest))
    · rcases hSummary : summary collation ROOM (responseBodies status group) with _ | response
      · rw [summary_eq_none.mp hSummary]
        exact uniform_nil ROOM
      · have hLookup := h.responses status
        rw [hSummary] at hLookup
        have hPassed := hPasses.responses _ (mem_of_lookup hLookup)
        exact (acceptable_iff_uniform hSummary (hResponses status)).mp (hPassed.schema response rfl)
  · rintro ⟨hMethods, hUniform, hAllUniform⟩
    constructor
    · rw [h.method first hFirst]
      exact hMethods first hFirst
    · rw [h.path first hFirst]
      exact hPath first hFirst
    · intro schema hSome
      exact (acceptable_iff_uniform (h.request.symm.trans hSome) hRequests).mpr hUniform
    · exact h.count hNe hCount
    · rintro ⟨status, response⟩ hMem
      have hLookup := lookup_of_mem h.nodup hMem
      obtain ⟨interaction, hInteraction, rfl⟩ := h.status_of_mem (List.mem_map_of_mem hMem)
      obtain ⟨hLow, hHigh⟩ := hStatus interaction hInteraction
      refine ⟨isStatus_toString hLow hHigh, fun schema hSome => ?_⟩
      rw [h.responses, Option.map_eq_some_iff] at hLookup
      obtain ⟨found, hFound, hOwn⟩ := hLookup
      have hSame : some found = some schema := hOwn.trans hSome
      rw [Option.some.injEq] at hSame
      exact (acceptable_iff_uniform (hSame ▸ hFound) (hResponses _)).mpr (hAllUniform _)

theorem bounded_requests {bundle : ScenarioBundle} (h : WithinImportLimits bundle) (key : String) :
    Bounded ROOM (requestBodies (atKey key bundle.interactions)) := by
  intro body hMem
  obtain ⟨interaction, hGroup, rfl⟩ := List.mem_map.mp hMem
  have hInteraction := (mem_atKey.mp hGroup).1
  exact ⟨(h.bodies interaction hInteraction).2, (h.names interaction hInteraction).1⟩

theorem bounded_responses {bundle : ScenarioBundle} (h : WithinImportLimits bundle) (key status : String) :
    Bounded ROOM (responseBodies status (atKey key bundle.interactions)) := by
  intro body hMem
  obtain ⟨interaction, hWith, rfl⟩ := List.mem_map.mp hMem
  have hInteraction := (mem_atKey.mp (List.mem_filter.mp hWith).1).1
  exact ⟨(h.bodies interaction hInteraction).1, (h.names interaction hInteraction).2⟩

theorem normalizeTitle_succeeds_iff {title : String} (hBounds : trim title ≠ "" ∧ Js.length (trim title) ≤ 120) :
    (∃ normal, Contracts.normalizeTitle (.string title) = .ok normal) ↔
      sanitizeSecretString (trim title) = trim title := by
  have hPass : ¬(trim title = "" ∨ 120 < Js.length (trim title)) := by
    rw [not_or, Nat.not_lt]
    exact hBounds
  rw [Contracts.normalizeTitle, if_neg hPass]
  constructor
  · rintro ⟨normal, h⟩
    exact not_not.mp (ite_error_eq_ok h).1
  · intro h
    exact ⟨trim title, if_neg (not_not.mpr h)⟩

theorem Recorded.passes_iff {bundle : ScenarioBundle} (hAccepted : bundle.Accepted) (hLimits : WithinImportLimits bundle)
    (hRecorded : Recorded collation bundle.interactions operations) {key : String}
    (hLookup : operations.lookup key = some operation) : operation.Passes ↔
      (∀ interaction ∈ atKey key bundle.interactions, interaction.request.method ∈ HTTP_METHODS) ∧
        uniform ROOM (requestBodies (atKey key bundle.interactions)) = true ∧
        ∀ status, uniform ROOM (responseBodies status (atKey key bundle.interactions)) = true := by
  obtain ⟨hNe, hRecords⟩ := hRecorded.present key operation hLookup
  apply hRecords.passes_iff hNe
  · exact fun interaction hMem => hLimits.path interaction (mem_atKey.mp hMem).1
  · exact bounded_requests hLimits key
  · exact bounded_responses hLimits key
  · exact fun interaction hMem => hAccepted.status interaction (mem_atKey.mp hMem).1
  · exact hLimits.statuses key

theorem importable_of_contract {bundle : ScenarioBundle} (hAccepted : bundle.Accepted)
    (hLimits : WithinImportLimits bundle) {contract : GhostApiContract}
    (h : contractFromScenarioBundleDefault collation bundle = .ok contract) : Importable bundle := by
  have hBlank := blankFree_of_accepted hAccepted
  obtain ⟨operations, normal, hRun, hTitle, hPasses, _⟩ := (contractFromScenarioBundle_eq_ok hBlank).mp h
  have hRecorded := (Recorded.nil.run (by simpa using hBlank) hRun).1
  rw [List.nil_append] at hRecorded
  have hGroup := fun key operation (hLookup : operations.lookup key = some operation) => (hRecorded.passes_iff hAccepted hLimits hLookup).mp
    (hPasses.passes operation (List.mem_map_of_mem (mem_of_lookup hLookup)))
  refine ⟨(normalizeTitle_succeeds_iff hAccepted.title).mp ⟨normal, hTitle⟩, ?_, ?_, ?_⟩
  · intro interaction hMem
    obtain ⟨operation, hEntry, _⟩ := hRecorded.lookup hMem
    exact (hGroup _ operation (lookup_of_mem hRecorded.nodup hEntry)).1 interaction (mem_atKey.mpr ⟨hMem, rfl⟩)
  · intro key
    rcases hLookup : operations.lookup key with _ | operation
    · rw [hRecorded.absent key hLookup]
      exact uniform_nil ROOM
    · exact (hGroup key operation hLookup).2.1
  · intro key status
    rcases hLookup : operations.lookup key with _ | operation
    · rw [hRecorded.absent key hLookup]
      exact uniform_nil ROOM
    · exact (hGroup key operation hLookup).2.2 status

theorem contract_of_importable (collation : Collation) {bundle : ScenarioBundle} (hAccepted : bundle.Accepted)
    (hLimits : WithinImportLimits bundle) (hImportable : Importable bundle) :
    ∃ contract, contractFromScenarioBundleDefault collation bundle = .ok contract := by
  have hBlank := blankFree_of_accepted hAccepted
  obtain ⟨operations, hRun⟩ := recordInteractions_succeed collation hLimits.bodies []
  have hRecorded := (Recorded.nil.run (by simpa using hBlank) hRun).1
  rw [List.nil_append] at hRecorded
  obtain ⟨normal, hTitle⟩ := (normalizeTitle_succeeds_iff hAccepted.title).mpr hImportable.title
  refine ⟨_, (contractFromScenarioBundle_eq_ok hBlank).mpr ⟨operations, normal, hRun, hTitle, ?_, rfl⟩⟩
  have hNe : bundle.interactions ≠ [] := List.length_pos_iff.mp hAccepted.count.1
  have hLength := hRecorded.length_le.trans hAccepted.count.2
  refine ⟨normalizeTitle_ok hTitle, hAccepted.recordedAt, ⟨?_, ?_⟩, ?_, hRecorded.distinct⟩
  · rw [List.length_map]
    exact List.length_pos_iff.mpr (hRecorded.ne_nil hNe)
  · rw [List.length_map]
    exact hLength.trans (by decide)
  · intro operation hMem
    obtain ⟨⟨key, _⟩, hEntry, rfl⟩ := List.mem_map.mp hMem
    rw [hRecorded.passes_iff hAccepted hLimits (lookup_of_mem hRecorded.nodup hEntry)]
    exact ⟨fun interaction hMem => hImportable.methods interaction (mem_atKey.mp hMem).1, hImportable.requests key,
      hImportable.responses key⟩

/-! ## Recordings of one operation -/

def recorded (body : JsValue) : ScenarioBundleInteraction :=
  ⟨⟨"GET", "/items", [], .null⟩, ⟨200, [], body⟩⟩

def recording (bodies : List JsValue) : ScenarioBundle where
  metadata := ⟨"Items", "2026-08-16T12:00:00.000Z", ["api.example.test"]⟩
  sanitization := ⟨[], 0, false⟩
  variableList := []
  interactions := bodies.map recorded

theorem recording_reads : normalizeMethod (.string "GET") = .ok "GET" ∧
    normalizeRelativePath (.string "/items") = .ok "/items" ∧ isOpenApiPath (pathWithoutQuery "/items") = true ∧
      sanitizeSecretString (trim "Items") = trim "Items" ∧
        readMetadata (recording []).metadata.toValue = .ok (recording []).metadata ∧
          readSanitization (recording []).sanitization.toValue = .ok (recording []).sanitization := by decide +kernel

theorem recorded_reads {body : JsValue} (h : validateBody [] body = .ok ()) :
    normalizeBundleInteraction [] (recorded body).toValue = .ok (recorded body) := by
  obtain ⟨hMethod, hPath, -⟩ := recording_reads
  have hStatus : readStatus (.number (.integer (200 : Nat))) = .ok 200 := by decide
  have hRequestHeaders : validateHeaders [] (headersToValue []) SAFE_REQUEST_HEADERS false = .ok [] := rfl
  have hResponseHeaders : validateHeaders [] (headersToValue []) SAFE_RESPONSE_HEADERS true = .ok [] := rfl
  have hNull : validateBody [] .null = .ok () := rfl
  rw [normalizeBundleInteraction_toValue, recorded, normalizeBundleRequest_toValue, hMethod, ok_bind, hPath, ok_bind,
    hRequestHeaders, ok_bind, hNull, ok_bind, normalizeBundleResponse_toValue, hStatus, ok_bind, hResponseHeaders,
    ok_bind, h, ok_bind]
  rfl

theorem recording_validated {bodies : List JsValue} (hCount : 1 ≤ bodies.length ∧ bodies.length ≤ MAX_INTERACTIONS)
    (hBodies : ∀ body ∈ bodies, validateBody [] body = .ok ()) :
    validateScenarioBundle (recording bodies).toValue = .ok (recording bodies) := by
  obtain ⟨-, -, -, -, hMetadata, hSanitization⟩ := recording_reads
  apply ScenarioBundle.Validated.revalidate
  constructor
  · exact hMetadata
  · exact hSanitization
  · exact Nat.zero_le _
  · rfl
  · rw [recording, List.length_map]
    exact hCount
  · intro interaction hMem
    obtain ⟨body, hBody, rfl⟩ := List.mem_map.mp hMem
    exact recorded_reads (hBodies body hBody)

theorem recording_withinLimits {bodies : List JsValue} (hCount : bodies.length ≤ 20)
    (hBodies : ∀ body ∈ bodies, withinLimits ROOM body = true ∧ namesAccepted ROOM body = true) :
    WithinImportLimits (recording bodies) := by
  have hNull : withinLimits ROOM .null = true ∧ namesAccepted ROOM .null = true := ⟨rfl, rfl⟩
  have hEach : ∀ interaction ∈ (recording bodies).interactions, ∃ body ∈ bodies, recorded body = interaction :=
    fun _ => List.mem_map.mp
  constructor
  · intro interaction hMem
    obtain ⟨body, _, rfl⟩ := hEach interaction hMem
    exact recording_reads.2.2.1
  · intro interaction hMem
    obtain ⟨body, hBody, rfl⟩ := hEach interaction hMem
    exact ⟨hNull.2, (hBodies body hBody).2⟩
  · intro interaction hMem
    obtain ⟨body, hBody, rfl⟩ := hEach interaction hMem
    exact ⟨(hBodies body hBody).1, hNull.1⟩
  · intro key
    calc ((atKey key (recording bodies).interactions).map (·.response.status)).dedup.length
        ≤ ((atKey key (recording bodies).interactions).map (·.response.status)).length :=
          (List.dedup_sublist _).length_le
      _ = (atKey key (recording bodies).interactions).length := List.length_map _
      _ ≤ (recording bodies).interactions.length := List.length_filter_le _ _
      _ = bodies.length := List.length_map _
      _ ≤ 20 := hCount

theorem null_importable : Importable (recording [.null]) := by
  have hGroup : ∀ key, atKey key (recording [.null]).interactions = [] ∨
      atKey key (recording [.null]).interactions = [recorded .null] := by
    intro key
    by_cases hKey : key = interactionKey (recorded .null)
    · exact .inr (hKey ▸ atKey_same (recorded .null))
    · exact .inl (atKey_other hKey)
  constructor
  · exact recording_reads.2.2.2.1
  · intro interaction hMem
    rw [List.mem_singleton.mp hMem]
    exact (by decide : "GET" ∈ HTTP_METHODS)
  · intro key
    rcases hGroup key with h | h
    · rw [h]
      exact uniform_nil ROOM
    · rw [h]
      decide
  · intro key status
    rcases hGroup key with h | h
    · rw [h]
      exact uniform_nil ROOM
    · rw [h, responseBodies_single]
      split
      · decide
      · exact uniform_nil ROOM

theorem null_limits : WithinImportLimits (recording [.null]) := by
  apply recording_withinLimits (by decide)
  intro body hMem
  rw [List.mem_singleton.mp hMem]
  exact ⟨rfl, rfl⟩

theorem null_validated : validateScenarioBundle (recording [.null]).toValue = .ok (recording [.null]) := by
  apply recording_validated (by decide)
  intro body hMem
  rw [List.mem_singleton.mp hMem]
  rfl

/-! ## Main results -/

/-- A contract of an accepted bundle describes every interaction, and no order of the interactions changes its
operations. -/
theorem contractFromScenarioBundle_describes (collation : Collation) {bundle accepted : ScenarioBundle}
    (hBundle : validateScenarioBundle bundle.toValue = .ok accepted) {title importedAt : String}
    {contract : GhostApiContract}
    (h : contractFromScenarioBundle collation bundle title importedAt = .ok contract) :
    (∀ interaction ∈ bundle.interactions, Describes contract interaction) ∧
      ∀ interactions, bundle.interactions.Perm interactions → ∃ reordered,
        contractFromScenarioBundle collation { bundle with interactions := interactions } title importedAt =
          .ok reordered ∧ reordered.operations.Perm contract.operations := by
  have hBlank := blankFree_of_accepted (validateScenarioBundle_accepted hBundle)
  obtain ⟨operations, normal, hRun, hTitle, hPasses, rfl⟩ := (contractFromScenarioBundle_eq_ok hBlank).mp h
  obtain ⟨hRecorded, hDescribable⟩ := Recorded.nil.run (by simpa using hBlank) hRun
  rw [List.nil_append] at hRecorded
  constructor
  · intro interaction hMem
    obtain ⟨operation, hEntry, hRecords⟩ := hRecorded.lookup hMem
    have hGroup : interaction ∈ atKey (interactionKey interaction) bundle.interactions := mem_atKey.mpr ⟨hMem, rfl⟩
    refine ⟨operation.sorted collation, ?_, hRecords.method interaction hGroup, hRecords.path interaction hGroup,
      hRecords.describes hGroup (hDescribable interaction hMem)⟩
    rw [(contractOf_operations_perm normal importedAt operations).mem_iff]
    exact List.mem_map_of_mem (List.mem_map_of_mem hEntry)
  · intro interactions hPerm
    have hBlank' : ∀ interaction ∈ interactions, BlankFree interaction :=
      fun interaction hMem => hBlank interaction (hPerm.mem_iff.mpr hMem)
    have hDescribable' : ∀ interaction ∈ interactions, Describable interaction :=
      fun interaction hMem => hDescribable interaction (hPerm.mem_iff.mpr hMem)
    obtain ⟨operations', hRun'⟩ := recordInteractions_succeed collation hDescribable' []
    have hRecorded' := (Recorded.nil.run (by simpa using hBlank') hRun').1
    rw [List.nil_append] at hRecorded'
    have hOperations : operations.Perm operations' := hRecorded.perm hRecorded' hPerm
    refine ⟨contractOf collation normal importedAt operations', ?_, ?_⟩
    · rw [contractFromScenarioBundle_eq_ok hBlank']
      exact ⟨operations', normal, hRun', hTitle, hPasses.of_perm (hOperations.map Prod.snd), rfl⟩
    · have hSorted := ((hOperations.map Prod.snd).map (·.sorted collation)).symm
      exact (contractOf_operations_perm normal importedAt operations').trans
        (hSorted.trans (contractOf_operations_perm normal importedAt operations).symm)

theorem contractFromScenarioBundle_describes_null : ∃ contract,
    contractFromScenarioBundleDefault .codeUnits (recording [.null]) = .ok contract ∧
      (∀ interaction ∈ (recording [.null]).interactions, Describes contract interaction) ∧
      ∀ interactions, (recording [.null]).interactions.Perm interactions → ∃ reordered,
        contractFromScenarioBundle .codeUnits { recording [.null] with interactions := interactions }
          (recording [.null]).metadata.title (recording [.null]).metadata.recordedAt = .ok reordered ∧
            reordered.operations.Perm contract.operations := by
  obtain ⟨contract, h⟩ := contract_of_importable .codeUnits (validateScenarioBundle_accepted null_validated) null_limits
    null_importable
  exact ⟨contract, h, contractFromScenarioBundle_describes .codeUnits null_validated h⟩

/-- An accepted bundle within the limits makes a contract exactly if it is importable. -/
theorem contractFromScenarioBundle_succeeds_iff (collation : Collation) {bundle accepted : ScenarioBundle}
    (hBundle : validateScenarioBundle bundle.toValue = .ok accepted) (hLimits : WithinImportLimits bundle) :
    (∃ contract, contractFromScenarioBundleDefault collation bundle = .ok contract) ↔ Importable bundle := by
  have hAccepted := validateScenarioBundle_accepted hBundle
  constructor
  · rintro ⟨contract, h⟩
    exact importable_of_contract hAccepted hLimits h
  · exact contract_of_importable collation hAccepted hLimits

theorem contractFromScenarioBundle_succeeds_null :
    ∃ contract, contractFromScenarioBundleDefault .codeUnits (recording [.null]) = .ok contract :=
  (contractFromScenarioBundle_succeeds_iff .codeUnits null_validated null_limits).mpr null_importable

/-- Two answers with one status, one of them null and the other a text, make no contract. -/
theorem contractFromScenarioBundle_refuses_mixed :
    validateScenarioBundle (recording [.null, .string "first"]).toValue = .ok (recording [.null, .string "first"]) ∧
      WithinImportLimits (recording [.null, .string "first"]) ∧
      ∀ contract, contractFromScenarioBundleDefault .codeUnits (recording [.null, .string "first"]) ≠ .ok contract := by
  have hValid : validateScenarioBundle (recording [.null, .string "first"]).toValue =
      .ok (recording [.null, .string "first"]) := by
    apply recording_validated (by decide)
    simp only [List.forall_mem_cons]
    exact ⟨rfl, by decide +kernel, nofun⟩
  have hLimits : WithinImportLimits (recording [.null, .string "first"]) := by
    apply recording_withinLimits (by decide)
    simp only [List.forall_mem_cons]
    exact ⟨⟨rfl, rfl⟩, ⟨rfl, rfl⟩, nofun⟩
  refine ⟨hValid, hLimits, fun contract h => ?_⟩
  have hImportable := importable_of_contract (validateScenarioBundle_accepted hValid) hLimits h
  have hMixed : uniform ROOM (responseBodies "200" (atKey "GET /items"
      (recording [.null, .string "first"]).interactions)) = false := by decide +kernel
  rw [hImportable.responses] at hMixed
  cases hMixed

end Import

end GhostApi.Contracts
