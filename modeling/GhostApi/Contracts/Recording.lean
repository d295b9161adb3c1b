import GhostApi.Contracts.Samples

/-!
# What a recording yields

The loop over the interactions groups them by method and path. Its operations
are those of the groups: the head names method and path, and the bodies are
described by their summaries. Neither the groups nor the summaries know the
order of the interactions.
-/

namespace GhostApi.Contracts

open Js Validation Effect Scenarios

/-! ## Groups of interactions -/

def atKey (key : String) (interactions : List ScenarioBundleInteraction) : List ScenarioBundleInteraction :=
  interactions.filter fun interaction => interactionKey interaction == key

def requestBodies (interactions : List ScenarioBundleInteraction) : List JsValue :=
  interactions.map (·.request.body)

/-- The interactions that were answered with one status. -/
def withStatus (status : String) (interactions : List ScenarioBundleInteraction) : List ScenarioBundleInteraction :=
  interactions.filter fun interaction => toString interaction.response.status == status

def responseBodies (status : String) (interactions : List ScenarioBundleInteraction) : List JsValue :=
  (withStatus status interactions).map (·.response.body)

theorem mem_atKey {key : String} {interactions : List ScenarioBundleInteraction}
    {interaction : ScenarioBundleInteraction} :
    interaction ∈ atKey key interactions ↔ interaction ∈ interactions ∧ interactionKey interaction = key := by
  rw [atKey, List.mem_filter, beq_iff_eq]

theorem atKey_append (key : String) (interactions others : List ScenarioBundleInteraction) :
    atKey key (interactions ++ others) = atKey key interactions ++ atKey key others := List.filter_append ..

theorem atKey_same (interaction : ScenarioBundleInteraction) :
    atKey (interactionKey interaction) [interaction] = [interaction] := by simp [atKey]

theorem atKey_other {key : String} {interaction : ScenarioBundleInteraction} (h : key ≠ interactionKey interaction) :
    atKey key [interaction] = [] := by simp [atKey, Ne.symm h]

theorem responseBodies_append (status : String) (interactions others : List ScenarioBundleInteraction) :
    responseBodies status (interactions ++ others) = responseBodies status interactions ++ responseBodies status others := by
  simp [responseBodies, withStatus]

theorem responseBodies_single (status : String) (interaction : ScenarioBundleInteraction) :
    responseBodies status [interaction] =
      if status = toString interaction.response.status then [interaction.response.body] else [] := by
  rw [responseBodies, withStatus, List.filter_cons, List.filter_nil]
  simp only [beq_iff_eq]
  by_cases h : status = toString interaction.response.status
  · rw [if_pos h, if_pos h.symm, List.map_singleton]
  · rw [if_neg h, if_neg (Ne.symm h), List.map_nil]

/-! ## Keys -/

def BlankFree (interaction : ScenarioBundleInteraction) : Prop := ' ' ∉ interaction.request.method.toList

theorem append_blank_inj {cs ds xs ys : List Char} (hc : ' ' ∉ cs) (hd : ' ' ∉ ds)
    (h : cs ++ ' ' :: xs = ds ++ ' ' :: ys) : cs = ds ∧ xs = ys := by
  induction cs generalizing ds with
  | nil =>
    cases ds with
    | nil => exact ⟨rfl, (List.cons.inj h).2⟩
    | cons d ds => exact absurd (List.cons.inj h).1 fun hEq => hd (hEq ▸ List.mem_cons_self)
  | cons c cs ih =>
    rw [List.mem_cons, not_or] at hc
    cases ds with
    | nil => exact absurd (List.cons.inj h).1.symm hc.1
    | cons d ds =>
      rw [List.mem_cons, not_or] at hd
      obtain ⟨rfl, hTail⟩ := List.cons.inj h
      obtain ⟨rfl, hRest⟩ := ih hc.2 hd.2 hTail
      exact ⟨rfl, hRest⟩

theorem interactionKey_inj {left right : ScenarioBundleInteraction} (hLeft : BlankFree left) (hRight : BlankFree right)
    (h : interactionKey left = interactionKey right) : left.request.method = right.request.method ∧
      pathWithoutQuery left.request.path = pathWithoutQuery right.request.path := by
  have hChars := congrArg String.toList h
  simp only [interactionKey, String.toList_append, List.append_assoc] at hChars
  obtain ⟨hMethod, hPath⟩ := append_blank_inj hLeft hRight hChars
  exact ⟨String.toList_inj.mp hMethod, String.toList_inj.mp hPath⟩

/-! ## Operations of a group -/

section Recording

variable {collation : Collation}

def ROOM : Nat := MAX_SCHEMA_DEPTH + 1

variable (collation) in
/-- An operation that describes a group of interactions. -/
structure Records (group : List ScenarioBundleInteraction) (operation : ContractOperation) : Prop where
  method : ∀ interaction ∈ group, operation.method = interaction.request.method
  path : ∀ interaction ∈ group, operation.path = pathWithoutQuery interaction.request.path
  request : operation.request = summary collation ROOM (requestBodies group)
  nodup : (keys operation.responses).Nodup
  sorted : sortByName operation.responses = operation.responses
  responses : ∀ status,
    operation.responses.lookup status = (summary collation ROOM (responseBodies status group)).map some

variable {group others : List ScenarioBundleInteraction} {operation other : ContractOperation}

theorem Records.of_perm (h : Records collation group operation) (hPerm : group.Perm others) :
    Records collation others operation where
  method interaction hMem := h.method interaction (hPerm.mem_iff.mpr hMem)
  path interaction hMem := h.path interaction (hPerm.mem_iff.mpr hMem)
  request := h.request.trans (summary_perm (hPerm.map _))
  nodup := h.nodup
  sorted := h.sorted
  responses status := by
    have hBodies : (responseBodies status group).Perm (responseBodies status others) := (hPerm.filter _).map _
    rw [h.responses, summary_perm hBodies]

theorem Records.unique (hNe : group ≠ []) (h : Records collation group operation)
    (hOther : Records collation group other) : operation = other := by
  obtain ⟨first, hFirst⟩ := List.exists_mem_of_ne_nil group hNe
  have hMethod := (h.method first hFirst).trans (hOther.method first hFirst).symm
  have hPath := (h.path first hFirst).trans (hOther.path first hFirst).symm
  have hRequest := h.request.trans hOther.request.symm
  have hResponses : operation.responses = other.responses := by
    rw [← h.sorted, ← hOther.sorted]
    apply sortByName_congr h.nodup hOther.nodup
    exact fun status => (h.responses status).trans (hOther.responses status).symm
  obtain ⟨method, path, request, responses⟩ := operation
  obtain ⟨method', path', request', responses'⟩ := other
  cases hMethod
  cases hPath
  cases hRequest
  cases hResponses
  rfl

theorem Records.open {interaction : ScenarioBundleInteraction} {response request : ContractSchema}
    (hResponse : summary collation ROOM [interaction.response.body] = some response)
    (hRequest : summary collation ROOM [interaction.request.body] = some request) :
    Records collation [interaction] {
      method := interaction.request.method
      path := pathWithoutQuery interaction.request.path
      request := some request
      responses := [(toString interaction.response.status, some response)] } where
  method other hMem := by rw [List.mem_singleton.mp hMem]
  path other hMem := by rw [List.mem_singleton.mp hMem]
  request := hRequest.symm
  nodup := List.nodup_singleton _
  sorted := List.mergeSort_singleton _
  responses status := by
    rw [responseBodies_single, List.lookup_cons]
    by_cases hStatus : status = toString interaction.response.status
    · rw [if_pos hStatus, hStatus, beq_self_eq_true, hResponse]
      rfl
    · rw [if_neg hStatus, beq_eq_false_iff_ne.mpr hStatus, summary_eq_none.mpr rfl]
      rfl

theorem Records.join {interaction : ScenarioBundleInteraction} {response request : ContractSchema}
    (h : Records collation group operation) (hMethod : ∀ other ∈ group, other.request.method = interaction.request.method)
    (hPath : ∀ other ∈ group, pathWithoutQuery other.request.path = pathWithoutQuery interaction.request.path)
    (hNe : group ≠ [])
    (hResponse : summary collation ROOM [interaction.response.body] = some response)
    (hRequest : summary collation ROOM [interaction.request.body] = some request) :
    Records collation (group ++ [interaction]) { operation with
      responses := setStatus operation.responses interaction.response.status
        (mergeSchemas ((operation.responses.lookup (toString interaction.response.status)).join) (some response))
      request := mergeSchemas operation.request (some request) } := by
  obtain ⟨first, hFirst⟩ := List.exists_mem_of_ne_nil group hNe
  have hNodup : (keys (setMember operation.responses (toString interaction.response.status,
      mergeSchemas ((operation.responses.lookup (toString interaction.response.status)).join) (some response)))).Nodup :=
    setMember_nodup h.nodup
  constructor
  · intro other hMem
    rcases List.mem_append.mp hMem with hMem | hMem
    · exact h.method other hMem
    · rw [List.mem_singleton.mp hMem]
      exact (h.method first hFirst).trans (hMethod first hFirst)
  · intro other hMem
    rcases List.mem_append.mp hMem with hMem | hMem
    · exact h.path other hMem
    · rw [List.mem_singleton.mp hMem]
      exact (h.path first hFirst).trans (hPath first hFirst)
  · change mergeSchemas operation.request (some request) = _
    rw [h.request, ← hRequest, summary_append, requestBodies, requestBodies, List.map_append]
    rfl
  · exact keys_sortByName_nodup hNodup
  · exact List.mergeSort_of_pairwise (pairwise_sortByName _)
  · intro status
    change (sortByName (setMember _ _)).lookup status = _
    rw [lookup_perm hNodup (sortByName_perm _).symm, lookup_setMember, responseBodies_append, responseBodies_single]
    by_cases hStatus : status = toString interaction.response.status
    · have hJoin : ∀ schema : Option ContractSchema, (schema.map some).join = schema := by
        rintro (_ | schema) <;> rfl
      obtain ⟨schema, hSchema⟩ := @summary_isSome collation ROOM
        (responseBodies status group ++ [interaction.response.body]) (by simp)
      rw [if_pos hStatus, if_pos hStatus, hSchema, ← hStatus, h.responses, hJoin, ← hResponse, summary_append, hSchema]
      rfl
    · rw [if_neg hStatus, if_neg hStatus, List.append_nil]
      exact h.responses status

/-! ## The loop over the interactions -/

def Describable (interaction : ScenarioBundleInteraction) : Prop :=
  withinLimits ROOM interaction.response.body = true ∧ withinLimits ROOM interaction.request.body = true

variable (collation) in
structure Recorded (interactions : List ScenarioBundleInteraction) (operations : List (String × ContractOperation)) :
    Prop where
  nodup : (keys operations).Nodup
  absent : ∀ key, operations.lookup key = none → atKey key interactions = []
  present : ∀ key operation, operations.lookup key = some operation →
    atKey key interactions ≠ [] ∧ Records collation (atKey key interactions) operation

variable {interactions : List ScenarioBundleInteraction} {operations : List (String × ContractOperation)}

theorem Recorded.nil : Recorded collation [] [] where
  nodup := List.nodup_nil
  absent _ _ := rfl
  present _ _ h := nomatch h

/-- The operation of a group after an interaction that joins or opens it. -/
def operationAfter (before : Option ContractOperation) (interaction : ScenarioBundleInteraction)
    (response request : ContractSchema) : ContractOperation := match before with
  | none => {
      method := interaction.request.method
      path := pathWithoutQuery interaction.request.path
      request := some request
      responses := [(toString interaction.response.status, some response)] }
  | some existing => { existing with
      responses := setStatus existing.responses interaction.response.status
        (mergeSchemas ((existing.responses.lookup (toString interaction.response.status)).join) (some response))
      request := mergeSchemas existing.request (some request) }

theorem recordInteraction_eq_ok {interaction : ScenarioBundleInteraction} {after : List (String × ContractOperation)}
    (h : recordInteraction collation operations interaction = .ok after) :
    Describable interaction ∧ ∃ response request,
      summary collation ROOM [interaction.response.body] = some response ∧
      summary collation ROOM [interaction.request.body] = some request ∧
      after = setMember operations (interactionKey interaction,
        operationAfter (operations.lookup (interactionKey interaction)) interaction response request) := by
  obtain ⟨response, hResponse, h⟩ := bind_eq_ok h
  obtain ⟨request, hRequest, h⟩ := bind_eq_ok h
  obtain ⟨hResponseLimits, hResponse⟩ := (inferSchema_summarizes ROOM _ _).mp hResponse
  obtain ⟨hRequestLimits, hRequest⟩ := (inferSchema_summarizes ROOM _ _).mp hRequest
  cases h
  exact ⟨⟨hResponseLimits, hRequestLimits⟩, response, request, hResponse, hRequest, rfl⟩

theorem recordInteraction_succeeds (collation : Collation) {interaction : ScenarioBundleInteraction} (h : Describable interaction)
    (operations : List (String × ContractOperation)) :
    ∃ after, recordInteraction collation operations interaction = .ok after := by
  obtain ⟨response, hResponse⟩ := @summary_isSome collation ROOM [interaction.response.body] (List.cons_ne_nil _ _)
  obtain ⟨request, hRequest⟩ := @summary_isSome collation ROOM [interaction.request.body] (List.cons_ne_nil _ _)
  have hFirst : inferRootSchema collation interaction.response.body = .ok response :=
    (inferSchema_summarizes ROOM _ _).mpr ⟨h.1, hResponse⟩
  have hSecond : inferRootSchema collation interaction.request.body = .ok request :=
    (inferSchema_summarizes ROOM _ _).mpr ⟨h.2, hRequest⟩
  rw [recordInteraction, hFirst, ok_bind, hSecond, ok_bind]
  exact ⟨_, rfl⟩

theorem Recorded.step (hRecorded : Recorded collation interactions operations)
    {interaction : ScenarioBundleInteraction} (hBlank : ∀ other ∈ interactions ++ [interaction], BlankFree other)
    {after : List (String × ContractOperation)}
    (h : recordInteraction collation operations interaction = .ok after) :
    Recorded collation (interactions ++ [interaction]) after := by
  obtain ⟨_, response, request, hResponse, hRequest, rfl⟩ := recordInteraction_eq_ok h
  have hOwn : BlankFree interaction := hBlank interaction (by simp)
  constructor
  · exact setMember_nodup hRecorded.nodup
  · intro key hNone
    by_cases hKey : key = interactionKey interaction
    · rw [lookup_setMember, if_pos hKey] at hNone
      cases hNone
    · rw [lookup_setMember, if_neg hKey] at hNone
      rw [atKey_append, hRecorded.absent key hNone, atKey_other hKey, List.nil_append]
  · intro key operation hSome
    by_cases hKey : key = interactionKey interaction
    · subst hKey
      rw [lookup_setMember, if_pos rfl, Option.some.injEq] at hSome
      rw [atKey_append, atKey_same]
      refine ⟨List.append_ne_nil_of_right_ne_nil _ (List.cons_ne_nil _ _), hSome ▸ ?_⟩
      rcases hExisting : operations.lookup (interactionKey interaction) with _ | existing
      · rw [hRecorded.absent _ hExisting, List.nil_append]
        exact Records.open hResponse hRequest
      · obtain ⟨hNe, hRecords⟩ := hRecorded.present _ _ hExisting
        have hSame : ∀ other ∈ atKey (interactionKey interaction) interactions,
            other.request.method = interaction.request.method ∧
              pathWithoutQuery other.request.path = pathWithoutQuery interaction.request.path := by
          intro other hMem
          obtain ⟨hOther, hKeys⟩ := mem_atKey.mp hMem
          exact interactionKey_inj (hBlank other (List.mem_append_left _ hOther)) hOwn hKeys
        exact hRecords.join (fun other hMem => (hSame other hMem).1) (fun other hMem => (hSame other hMem).2) hNe
          hResponse hRequest
    · rw [lookup_setMember, if_neg hKey] at hSome
      rw [atKey_append, atKey_other hKey, List.append_nil]
      exact hRecorded.present key operation hSome

theorem Recorded.run {rest : List ScenarioBundleInteraction} {after : List (String × ContractOperation)}
    (hRecorded : Recorded collation interactions operations) (hBlank : ∀ other ∈ interactions ++ rest, BlankFree other)
    (h : rest.foldlM (recordInteraction collation) operations = .ok after) :
    Recorded collation (interactions ++ rest) after ∧ ∀ interaction ∈ rest, Describable interaction := by
  induction rest generalizing interactions operations with
  | nil =>
    cases h
    rw [List.append_nil]
    exact ⟨hRecorded, fun _ hMem => nomatch hMem⟩
  | cons interaction rest ih =>
    obtain ⟨next, hNext, h⟩ := bind_eq_ok h
    rw [List.append_cons] at hBlank ⊢
    have hStep := hRecorded.step (fun other hMem => hBlank other (List.mem_append_left _ hMem)) hNext
    obtain ⟨hRun, hRest⟩ := ih hStep hBlank h
    exact ⟨hRun, List.forall_mem_cons.mpr ⟨(recordInteraction_eq_ok hNext).1, hRest⟩⟩

theorem recordInteractions_succeed (collation : Collation) (h : ∀ interaction ∈ interactions, Describable interaction)
    (operations : List (String × ContractOperation)) :
    ∃ after, interactions.foldlM (recordInteraction collation) operations = .ok after := by
  induction interactions generalizing operations with
  | nil => exact ⟨operations, rfl⟩
  | cons interaction rest ih =>
    rw [List.forall_mem_cons] at h
    obtain ⟨next, hNext⟩ := recordInteraction_succeeds collation h.1 operations
    obtain ⟨after, hAfter⟩ := ih h.2 next
    exact ⟨after, by rw [List.foldlM_cons, hNext, ok_bind, hAfter]⟩

theorem Recorded.perm {reordered : List ScenarioBundleInteraction} {operations' : List (String × ContractOperation)}
    (h : Recorded collation interactions operations) (h' : Recorded collation reordered operations')
    (hPerm : interactions.Perm reordered) : operations.Perm operations' := by
  apply perm_of_lookup h.nodup h'.nodup
  intro key
  have hGroup : (atKey key interactions).Perm (atKey key reordered) := hPerm.filter _
  rcases hLeft : operations.lookup key with _ | operation
  · rcases hRight : operations'.lookup key with _ | operation'
    · rfl
    · have hNil := (h.absent key hLeft) ▸ hGroup
      exact absurd hNil.nil_eq.symm (h'.present key operation' hRight).1
  · obtain ⟨hNe, hRecords⟩ := h.present key operation hLeft
    rcases hRight : operations'.lookup key with _ | operation'
    · have hNil := (h'.absent key hRight) ▸ hGroup
      exact absurd hNil.eq_nil hNe
    · obtain ⟨hNe', hRecords'⟩ := h'.present key operation' hRight
      rw [(hRecords.of_perm hGroup).unique hNe' hRecords']

end Recording

end GhostApi.Contracts
