import GhostApi.Scenarios.Bundle

/-!
# Bundles that the validator accepts

What acceptance says of the bundle that was handed in, and what the validator
promises of the bundle that it returns.
-/

namespace GhostApi.Scenarios

open Js Security Validation Effect

/-! ## Readers -/

theorem normalizeTitle_eq_ok {value : JsValue} {title : String} : normalizeTitle value = .ok title ↔
    ∃ text, value = .string text ∧ title = trim text ∧ trim text ≠ "" ∧ Js.length (trim text) ≤ 120 := by
  constructor
  · intro h
    rw [normalizeTitle.eq_def] at h
    split at h
    · rename_i text
      obtain ⟨hBounds, h⟩ := ite_error_eq_ok h
      cases h
      rw [not_or, Nat.not_lt] at hBounds
      exact ⟨text, rfl, rfl, hBounds⟩
    · cases h
  · rintro ⟨text, rfl, rfl, hBounds⟩
    exact if_neg (by rw [not_or, Nat.not_lt]; exact hBounds)

theorem readRecordedAt_eq_ok {value : JsValue} {text : String} :
    readRecordedAt value = .ok text ↔ value = .string text ∧ isTimestamp text = true := by
  constructor
  · intro h
    rw [readRecordedAt.eq_def] at h
    split at h
    · split at h
      · cases h
        exact ⟨rfl, ‹_›⟩
      · cases h
    · cases h
  · rintro ⟨rfl, h⟩
    exact if_pos h

theorem normalizeMethod_eq_ok {value : JsValue} {method : String} : normalizeMethod value = .ok method ↔
    ∃ text, value = .string text ∧ method = toUpperCase text ∧ toUpperCase text ∈ METHODS := by
  constructor
  · intro h
    rw [normalizeMethod.eq_def] at h
    split at h
    · rename_i text
      split at h
      · cases h
        exact ⟨text, rfl, rfl, ‹_›⟩
      · cases h
    · cases h
  · rintro ⟨text, rfl, rfl, h⟩
    exact if_pos h

theorem readStatus_eq_ok {value : JsValue} {status : Nat} :
    readStatus value = .ok status ↔ value = .number (.integer status) ∧ 100 ≤ status ∧ status ≤ 599 := by
  constructor
  · intro h
    rw [readStatus.eq_def] at h
    split at h
    · rename_i z
      split at h
      · rename_i hBounds
        cases h
        have hNat : (z.toNat : Int) = z := Int.toNat_of_nonneg (by omega)
        exact ⟨by rw [hNat], by omega⟩
      · cases h
    · cases h
  · rintro ⟨rfl, hBounds⟩
    rw [readStatus, if_pos (by omega), Int.toNat_natCast]

theorem boundedArray_eq_ok {value : JsValue} {low high : Nat} {message : String} {entries : List JsValue} :
    boundedArray value low high message = .ok entries ↔
      value = .array entries ∧ low ≤ entries.length ∧ entries.length ≤ high := by
  constructor
  · intro h
    rw [boundedArray.eq_def] at h
    split at h
    · obtain ⟨hBounds, h⟩ := ite_error_eq_ok h
      cases h
      exact ⟨rfl, by omega⟩
    · cases h
  · rintro ⟨rfl, hLow, hHigh⟩
    exact if_neg (by omega)

/-! ## Bundles that were handed in -/

/-- What acceptance says of a bundle that was handed in. -/
structure ScenarioBundle.Accepted (bundle : ScenarioBundle) : Prop where
  title : trim bundle.metadata.title ≠ "" ∧ Js.length (trim bundle.metadata.title) ≤ 120
  recordedAt : isTimestamp bundle.metadata.recordedAt = true
  count : 1 ≤ bundle.interactions.length ∧ bundle.interactions.length ≤ MAX_INTERACTIONS
  method : ∀ interaction ∈ bundle.interactions, toUpperCase interaction.request.method ∈ METHODS
  status : ∀ interaction ∈ bundle.interactions, 100 ≤ interaction.response.status ∧ interaction.response.status ≤ 599

theorem normalizeBundleInteraction_accepted {names : List String} {interaction result : ScenarioBundleInteraction}
    (h : normalizeBundleInteraction names interaction.toValue = .ok result) :
    toUpperCase interaction.request.method ∈ METHODS ∧
      100 ≤ interaction.response.status ∧ interaction.response.status ≤ 599 := by
  obtain ⟨record, hRecord, h⟩ := bind_eq_ok h
  cases hRecord
  obtain ⟨_, _, h⟩ := bind_eq_ok h
  obtain ⟨request, hRequest, h⟩ := bind_eq_ok h
  obtain ⟨response, hResponse, _⟩ := bind_eq_ok h
  constructor
  · obtain ⟨record, hRecord, h⟩ := bind_eq_ok hRequest
    cases hRecord
    obtain ⟨_, _, h⟩ := bind_eq_ok h
    obtain ⟨method, hMethod, _⟩ := bind_eq_ok h
    obtain ⟨text, hText, _, hUpper⟩ := normalizeMethod_eq_ok.mp hMethod
    cases hText
    exact hUpper
  · obtain ⟨record, hRecord, h⟩ := bind_eq_ok hResponse
    cases hRecord
    obtain ⟨_, _, h⟩ := bind_eq_ok h
    obtain ⟨status, hStatus, _⟩ := bind_eq_ok h
    obtain ⟨hOwn, hBounds⟩ := readStatus_eq_ok.mp hStatus
    have hSame : (interaction.response.status : Int) = status := by
      cases hOwn
      rfl
    omega

theorem validateScenarioBundle_accepted {bundle result : ScenarioBundle}
    (h : validateScenarioBundle bundle.toValue = .ok result) : bundle.Accepted := by
  obtain ⟨root, hRoot, h⟩ := bind_eq_ok h
  have hSelf : migrateScenarioBundle bundle.toValue = .ok [("schemaVersion", .number (.integer 1)),
      ("kind", .string "ghostapi.scenario-bundle"), ("metadata", bundle.metadata.toValue),
      ("sanitization", bundle.sanitization.toValue), ("variables", .array (bundle.variableList.map (·.toValue))),
      ("interactions", .array (bundle.interactions.map (·.toValue)))] := rfl
  rw [hSelf] at hRoot
  cases hRoot
  obtain ⟨_, _, h⟩ := bind_eq_ok h
  obtain ⟨_, _, h⟩ := bind_eq_ok h
  obtain ⟨_, _, h⟩ := bind_eq_ok h
  obtain ⟨metadata, hMetadata, h⟩ := bind_eq_ok h
  obtain ⟨_, _, h⟩ := bind_eq_ok h
  obtain ⟨_, _, h⟩ := bind_eq_ok h
  obtain ⟨variableList, _, h⟩ := bind_eq_ok h
  obtain ⟨entries, hEntries, h⟩ := bind_eq_ok h
  obtain ⟨interactions, hInteractions, _⟩ := bind_eq_ok h
  obtain ⟨hOwn, hCount⟩ := boundedArray_eq_ok.mp hEntries
  cases hOwn
  obtain ⟨record, hRecord, hMetadata⟩ := bind_eq_ok hMetadata
  cases hRecord
  obtain ⟨_, _, hMetadata⟩ := bind_eq_ok hMetadata
  obtain ⟨title, hTitle, hMetadata⟩ := bind_eq_ok hMetadata
  obtain ⟨recordedAt, hRecordedAt, _⟩ := bind_eq_ok hMetadata
  obtain ⟨text, hText, _, hBounds⟩ := normalizeTitle_eq_ok.mp hTitle
  cases hText
  obtain ⟨hText, hTimestamp⟩ := readRecordedAt_eq_ok.mp hRecordedAt
  cases hText
  rw [List.length_map] at hCount
  rw [List.mapM_map] at hInteractions
  have hAll : ∀ interaction ∈ bundle.interactions, toUpperCase interaction.request.method ∈ METHODS ∧
      100 ≤ interaction.response.status ∧ interaction.response.status ≤ 599 := by
    intro interaction hMem
    obtain ⟨result, hResult⟩ := exists_of_mapM hInteractions interaction hMem
    exact normalizeBundleInteraction_accepted hResult
  exact ⟨hBounds, hTimestamp, hCount, fun interaction hMem => (hAll interaction hMem).1,
    fun interaction hMem => (hAll interaction hMem).2⟩

/-! ## Names in normal case -/

theorem lowerChar_of {c : Char} (h : isLower c = true ∨ isDigit c = true ∨ c = '.' ∨ c = '-') : lowerChar c = c := by
  have hNoUpper : ¬(c.val ≥ 'A'.val ∧ c.val ≤ 'Z'.val) := by
    simp only [isLower, isDigit, Bool.and_eq_true, decide_eq_true_eq, Char.le_def, UInt32.le_iff_toNat_le] at h
    rw [ge_iff_le, UInt32.le_iff_toNat_le, UInt32.le_iff_toNat_le]
    have hA : 'A'.val.toNat = 65 := rfl
    have hZ : 'Z'.val.toNat = 90 := rfl
    have ha : 'a'.val.toNat = 97 := rfl
    have h0 : '0'.val.toNat = 48 := rfl
    have h9 : '9'.val.toNat = 57 := rfl
    rcases h with h | h | rfl | rfl
    · omega
    · omega
    · decide
    · decide
  have hNoKelvin : (c == '\u212a') = false := by
    rw [beq_eq_false_iff_ne]
    rintro rfl
    revert h
    decide
  rw [lowerChar, hNoKelvin, if_neg Bool.false_ne_true]
  exact dif_neg hNoUpper

theorem codeUnits_lowerChar_le (c : Char) : codeUnits (lowerChar c) ≤ codeUnits c := by
  have hPos : 1 ≤ codeUnits c := by
    rw [codeUnits]
    split <;> omega
  rw [lowerChar]
  split
  · exact hPos
  · by_cases hUpper : 'A'.val ≤ c.val ∧ c.val ≤ 'Z'.val
    · rw [show c.toLower = _ from dif_pos hUpper]
      refine le_trans (Nat.le_of_eq (if_pos ?_)) hPos
      have hBound : c.val.toNat ≤ 90 := UInt32.le_iff_toNat_le.mp hUpper.2
      have hShift : ('a'.val - 'A'.val).toNat = 32 := rfl
      have hLimit : (0x10000 : UInt32).toNat = 65536 := rfl
      rw [UInt32.lt_iff_toNat_lt, UInt32.toNat_add, hShift, hLimit]
      omega
    · rw [show c.toLower = c from dif_neg hUpper]

theorem toLowerCase_length_le (s : String) : Js.length (toLowerCase s) ≤ Js.length s := by
  rw [Js.length, Js.length, toLowerCase, String.toList_ofList]
  induction s.toList with
  | nil => exact Nat.le_refl _
  | cons c cs ih =>
    have hHead := codeUnits_lowerChar_le c
    simp only [lengthOf, List.map_cons, List.sum_cons] at ih ⊢
    omega

theorem toLowerCase_host {host : String} (h : isHost host = true) : toLowerCase host = host := by
  rw [isHost, Bool.and_eq_true, List.all_eq_true] at h
  have hSame : host.toList.map lowerChar = host.toList := by
    refine (List.map_congr_left fun c hMem => ?_).trans (List.map_id _)
    have hChar := h.2 c hMem
    simp only [Bool.or_eq_true, beq_iff_eq] at hChar
    exact lowerChar_of (by tauto)
  rw [toLowerCase, hSame, String.ofList_toList]

/-! ## Sorted sets -/

theorem eraseDups_nodup (names : List String) : names.eraseDups.Nodup := by
  induction hLength : names.length using Nat.strong_induction_on generalizing names with
  | _ length ih =>
    cases names with
    | nil => simp
    | cons name names =>
      rw [List.eraseDups_cons, List.nodup_cons]
      have hShorter := List.length_filter_le (fun other => !other == name) names
      constructor
      · rw [List.mem_eraseDups, List.mem_filter]
        simp
      · apply ih _ _ _ rfl
        rw [List.length_cons] at hLength
        omega

theorem eraseDups_eq_self {names : List String} (h : names.Nodup) : names.eraseDups = names := by
  induction names with
  | nil => rfl
  | cons name names ih =>
    rw [List.nodup_cons] at h
    have hFilter : names.filter (fun other => !other == name) = names := by
      rw [List.filter_eq_self]
      intro other hMem
      simp only [Bool.not_eq_true', beq_eq_false_iff_ne]
      rintro rfl
      exact h.1 hMem
    rw [List.eraseDups_cons, hFilter, ih h.2]

theorem mem_sortedSet {names : List String} {name : String} : name ∈ sortedSet names ↔ name ∈ names := by
  rw [sortedSet, (sortNames_perm _).mem_iff, List.mem_eraseDups]

theorem sortedSet_idempotent (names : List String) : sortedSet (sortedSet names) = sortedSet names := by
  have hNodup : (sortedSet names).Nodup := (sortNames_perm _).nodup_iff.mpr (eraseDups_nodup names)
  rw [sortedSet, eraseDups_eq_self hNodup, sortedSet, sortNames_idempotent]

theorem readStringArray_eq_ok {value : JsValue} {message : String} {names : List String}
    (h : readStringArray value message = .ok names) : ∀ name ∈ names, Js.length name ≤ 256 := by
  rw [readStringArray.eq_def] at h
  split at h
  · split at h
    · rename_i found hFound
      cases h
      have hAll := mapM_eq_some hFound
      clear hFound
      induction hAll with
      | nil => exact fun _ h => nomatch h
      | cons hHead _ ih =>
        rw [List.forall_mem_cons]
        refine ⟨?_, ih⟩
        rw [readString.eq_def] at hHead
        split at hHead
        · obtain ⟨hLength, hSome⟩ := Option.ite_none_right_eq_some.mp hHead
          cases hSome
          exact hLength
        · cases hHead
    · cases h
  · cases h

theorem readStringArray_of {names : List String} (h : ∀ name ∈ names, Js.length name ≤ 256) (message : String) :
    readStringArray (strings names) message = .ok names := by
  have hRead : (names.map JsValue.string).mapM readString = some names := by
    rw [List.mapM_map]
    refine (mapM_eq_pure (g := id) fun name hMem => ?_).trans ?_
    · exact if_pos (h name hMem)
    · rw [List.map_id]
      rfl
  rw [strings, readStringArray, hRead]

theorem readHostArray_reads {value : JsValue} {hosts : List String} (h : readHostArray value = .ok hosts) :
    readHostArray (strings hosts) = .ok hosts := by
  obtain ⟨names, hNames, h⟩ := bind_eq_ok h
  obtain ⟨_, hAccepted, h⟩ := bind_eq_ok h
  cases h
  rw [failIf_eq_ok, not_or, not_not] at hAccepted
  have hShort : ∀ host ∈ sortedSet (names.map toLowerCase), Js.length host ≤ 256 := by
    intro host hMem
    obtain ⟨name, hName, rfl⟩ := List.mem_map.mp (mem_sortedSet.mp hMem)
    exact (toLowerCase_length_le name).trans (readStringArray_eq_ok hNames name hName)
  have hHosts : ∀ host ∈ sortedSet (names.map toLowerCase), isHost host = true :=
    fun host hMem => hAccepted.2 host (mem_sortedSet.mp hMem)
  have hLower : (sortedSet (names.map toLowerCase)).map toLowerCase = sortedSet (names.map toLowerCase) := by
    refine (List.map_congr_left fun host hMem => ?_).trans (List.map_id _)
    exact toLowerCase_host (hHosts host hMem)
  have hNe : sortedSet (names.map toLowerCase) ≠ [] := by
    obtain ⟨host, hMem⟩ := List.exists_mem_of_ne_nil _ hAccepted.1
    exact List.ne_nil_of_mem (mem_sortedSet.mpr hMem)
  have hPass : ¬(sortedSet (names.map toLowerCase) = [] ∨
      ¬∀ host ∈ sortedSet (names.map toLowerCase), isHost host = true) := by
    rw [not_or, not_not]
    exact ⟨hNe, hHosts⟩
  rw [readHostArray, readStringArray_of hShort, ok_bind]
  simp only [hLower]
  rw [failIf_of_not hPass, ok_bind, sortedSet_idempotent]
  rfl

/-! ## Headers -/

section Headers

variable {names allowed : List String} {response : Bool}

structure HeaderAccepted (names allowed : List String) (response : Bool) (header : String × String) : Prop where
  known : ¬(header.1 ∉ allowed ∨ 2000 < Js.length header.2 ∨ isSecretFieldName header.1 = true)
  location : ¬(response = true ∧ header.1 = "location" ∧ isSafeRelativeLocation header.2 = false)
  template : validateTemplate header.2 names = .ok ()

theorem validateHeader_eq_ok {entry : String × JsValue} {header : String × String} :
    validateHeader names allowed response entry = .ok header ↔
      entry.2 = .string header.2 ∧ header.1 = toLowerCase entry.1 ∧ HeaderAccepted names allowed response header := by
  constructor
  · intro h
    rw [validateHeader.eq_def] at h
    split at h
    · rename_i text hText
      obtain ⟨_, hKnown, h⟩ := bind_eq_ok h
      obtain ⟨_, hLocation, h⟩ := bind_eq_ok h
      obtain ⟨_, hTemplate, h⟩ := bind_eq_ok h
      cases h
      rw [failIf_eq_ok] at hKnown hLocation
      exact ⟨hText, rfl, hKnown, hLocation, hTemplate⟩
    · cases h
  · obtain ⟨name, value⟩ := entry
    obtain ⟨lower, text⟩ := header
    rintro ⟨hValue, hLower, h⟩
    have hValue : value = .string text := hValue
    have hLower : lower = toLowerCase name := hLower
    subst hValue hLower
    rw [validateHeader]
    change (failIf _ _ >>= _) = _
    rw [failIf_of_not h.known, ok_bind, failIf_of_not h.location, ok_bind, h.template, ok_bind]
    rfl

theorem validateHeaders_reads (hAllowed : ∀ name ∈ allowed, toLowerCase name = name) {value : JsValue}
    {headers : List (String × String)} (h : validateHeaders names value allowed response = .ok headers) :
    validateHeaders names (headersToValue headers) allowed response = .ok headers := by
  obtain ⟨fields, _, h⟩ := bind_eq_ok h
  obtain ⟨entries, hEntries, h⟩ := bind_eq_ok h
  cases h
  have hEach : ∀ header ∈ fromEntries entries, HeaderAccepted names allowed response header := by
    intro header hMem
    exact forall_of_mapM (fun _ _ hHeader => (validateHeader_eq_ok.mp hHeader).2.2) hEntries header
      (mem_of_mem_fromEntries hMem)
  have hRead : ((fromEntries entries).map fun header => (header.1, JsValue.string header.2)).mapM
      (validateHeader names allowed response) = .ok (fromEntries entries) := by
    rw [List.mapM_map]
    refine (mapM_eq_pure (g := id) fun header hMem => ?_).trans ?_
    · have hAccepted := hEach header hMem
      have hLower : toLowerCase header.1 = header.1 := by
        apply hAllowed
        by_contra hNot
        exact hAccepted.known (.inl hNot)
      exact validateHeader_eq_ok.mpr ⟨rfl, hLower.symm, hAccepted⟩
    · rw [List.map_id]
      rfl
  rw [validateHeaders, headersToValue, readObject, Validation.object, ok_bind, hRead, ok_bind,
    fromEntries_eq_self (fromEntries_nodup entries)]
  rfl

end Headers

/-! ## Interactions -/

theorem normalizeMethod_reads {value : JsValue} {method : String} (h : normalizeMethod value = .ok method) :
    normalizeMethod (.string method) = .ok method := by
  obtain ⟨text, _, rfl, hUpper⟩ := normalizeMethod_eq_ok.mp h
  have hFixed : ∀ method ∈ METHODS, toUpperCase method = method := by decide
  rw [normalizeMethod_eq_ok]
  exact ⟨toUpperCase text, rfl, (hFixed _ hUpper).symm, by rw [hFixed _ hUpper]; exact hUpper⟩

theorem normalizeRelativePath_eq_ok {value : JsValue} {path : String} :
    normalizeRelativePath value = .ok path ↔ value = .string path ∧ isRelativePath path = true := by
  constructor
  · intro h
    rw [normalizeRelativePath.eq_def] at h
    split at h
    · split at h
      · cases h
        exact ⟨rfl, ‹_›⟩
      · cases h
    · cases h
  · rintro ⟨rfl, h⟩
    exact if_pos h

theorem normalizeBundleRequest_toValue (names : List String) (request : ScenarioRequest) :
    normalizeBundleRequest names request.toValue = (do
      let method ← normalizeMethod (.string request.method)
      let path ← normalizeRelativePath (.string request.path)
      let headers ← validateHeaders names (headersToValue request.headers) SAFE_REQUEST_HEADERS false
      validateBody names request.body
      return ⟨method, path, headers, request.body⟩) := rfl

theorem normalizeBundleRequest_reads {names : List String} {value : JsValue} {request : ScenarioRequest}
    (h : normalizeBundleRequest names value = .ok request) :
    normalizeBundleRequest names request.toValue = .ok request := by
  obtain ⟨record, _, h⟩ := bind_eq_ok h
  obtain ⟨_, _, h⟩ := bind_eq_ok h
  obtain ⟨method, hMethod, h⟩ := bind_eq_ok h
  obtain ⟨path, hPath, h⟩ := bind_eq_ok h
  obtain ⟨headers, hHeaders, h⟩ := bind_eq_ok h
  obtain ⟨_, hBody, h⟩ := bind_eq_ok h
  cases h
  have hAllowed : ∀ name ∈ SAFE_REQUEST_HEADERS, toLowerCase name = name := by decide
  have hOwnPath : normalizeRelativePath (.string path) = .ok path :=
    normalizeRelativePath_eq_ok.mpr ⟨rfl, (normalizeRelativePath_eq_ok.mp hPath).2⟩
  rw [normalizeBundleRequest_toValue, normalizeMethod_reads hMethod, ok_bind, hOwnPath, ok_bind,
    validateHeaders_reads hAllowed hHeaders, ok_bind, hBody, ok_bind]
  rfl

theorem normalizeBundleResponse_toValue (names : List String) (response : ScenarioResponse) :
    normalizeBundleResponse names response.toValue = (do
      let status ← readStatus (.number (.integer response.status))
      let headers ← validateHeaders names (headersToValue response.headers) SAFE_RESPONSE_HEADERS true
      validateBody names response.body
      return ⟨status, headers, response.body⟩) := rfl

theorem normalizeBundleResponse_reads {names : List String} {value : JsValue} {response : ScenarioResponse}
    (h : normalizeBundleResponse names value = .ok response) :
    normalizeBundleResponse names response.toValue = .ok response := by
  obtain ⟨record, _, h⟩ := bind_eq_ok h
  obtain ⟨_, _, h⟩ := bind_eq_ok h
  obtain ⟨status, hStatus, h⟩ := bind_eq_ok h
  obtain ⟨headers, hHeaders, h⟩ := bind_eq_ok h
  obtain ⟨_, hBody, h⟩ := bind_eq_ok h
  cases h
  have hAllowed : ∀ name ∈ SAFE_RESPONSE_HEADERS, toLowerCase name = name := by decide
  have hOwnStatus : readStatus (.number (.integer status)) = .ok status :=
    readStatus_eq_ok.mpr ⟨rfl, (readStatus_eq_ok.mp hStatus).2⟩
  rw [normalizeBundleResponse_toValue, hOwnStatus, ok_bind, validateHeaders_reads hAllowed hHeaders, ok_bind, hBody,
    ok_bind]
  rfl

theorem normalizeBundleInteraction_toValue (names : List String) (interaction : ScenarioBundleInteraction) :
    normalizeBundleInteraction names interaction.toValue = (do
      let request ← normalizeBundleRequest names interaction.request.toValue
      let response ← normalizeBundleResponse names interaction.response.toValue
      return ⟨request, response⟩) := rfl

theorem normalizeBundleInteraction_reads {names : List String} {value : JsValue}
    {interaction : ScenarioBundleInteraction} (h : normalizeBundleInteraction names value = .ok interaction) :
    normalizeBundleInteraction names interaction.toValue = .ok interaction := by
  obtain ⟨record, _, h⟩ := bind_eq_ok h
  obtain ⟨_, _, h⟩ := bind_eq_ok h
  obtain ⟨request, hRequest, h⟩ := bind_eq_ok h
  obtain ⟨response, hResponse, h⟩ := bind_eq_ok h
  cases h
  rw [normalizeBundleInteraction_toValue, normalizeBundleRequest_reads hRequest, ok_bind,
    normalizeBundleResponse_reads hResponse, ok_bind]
  rfl

/-! ## Variables -/

theorem readVariable_toValue (entry : ScenarioVariable) : readVariable entry.toValue = (do
    failIf (isVariableName entry.name = false ∨ 2000 < Js.length entry.value ∨
      sanitizeSecretString entry.value ≠ entry.value) (scenarioBundleError "Scenario bundle variable is invalid.")
    return entry) := rfl

theorem readVariable_reads {value : JsValue} {entry : ScenarioVariable} (h : readVariable value = .ok entry) :
    readVariable entry.toValue = .ok entry := by
  obtain ⟨record, _, h⟩ := bind_eq_ok h
  obtain ⟨_, _, h⟩ := bind_eq_ok h
  split at h
  · obtain ⟨_, hAccepted, h⟩ := bind_eq_ok h
    cases h
    rw [failIf_eq_ok] at hAccepted
    rw [readVariable_toValue, failIf_of_not hAccepted]
    rfl
  · cases h

theorem readVariables_reads {names : List String} {values : List JsValue} {entries : List ScenarioVariable}
    (h : readVariables names values = .ok entries) :
    readVariables names (entries.map (·.toValue)) = .ok entries ∧ entries.length = values.length := by
  induction values generalizing names entries with
  | nil =>
    cases h
    exact ⟨rfl, rfl⟩
  | cons value values ih =>
    obtain ⟨head, hHead, h⟩ := bind_eq_ok h
    obtain ⟨_, hNew, h⟩ := bind_eq_ok h
    obtain ⟨rest, hRest, h⟩ := bind_eq_ok h
    cases h
    rw [failIf_eq_ok] at hNew
    obtain ⟨hRead, hLength⟩ := ih hRest
    constructor
    · rw [List.map_cons, readVariables, readVariable_reads hHead, ok_bind, failIf_of_not hNew, ok_bind, hRead, ok_bind]
      rfl
    · rw [List.length_cons, List.length_cons, hLength]

/-! ## Bundles that the validator returns -/

theorem readMetadata_toValue (metadata : ScenarioMetadata) : readMetadata metadata.toValue = (do
    let title ← normalizeTitle (.string metadata.title)
    let recordedAt ← readRecordedAt (.string metadata.recordedAt)
    let sandboxHosts ← readHostArray (strings metadata.sandboxHosts)
    return ⟨title, recordedAt, sandboxHosts⟩) := rfl

theorem readMetadata_reads {value : JsValue} {metadata : ScenarioMetadata} (h : readMetadata value = .ok metadata) :
    readMetadata metadata.toValue = .ok metadata := by
  obtain ⟨record, _, h⟩ := bind_eq_ok h
  obtain ⟨_, _, h⟩ := bind_eq_ok h
  obtain ⟨title, hTitle, h⟩ := bind_eq_ok h
  obtain ⟨recordedAt, hRecordedAt, h⟩ := bind_eq_ok h
  obtain ⟨hosts, hHosts, h⟩ := bind_eq_ok h
  cases h
  obtain ⟨text, _, rfl, hBounds⟩ := normalizeTitle_eq_ok.mp hTitle
  have hTitle : normalizeTitle (.string (trim text)) = .ok (trim text) :=
    normalizeTitle_eq_ok.mpr ⟨trim text, rfl, (trim_idempotent text).symm, by rw [trim_idempotent]; exact hBounds⟩
  have hTime : readRecordedAt (.string recordedAt) = .ok recordedAt :=
    readRecordedAt_eq_ok.mpr ⟨rfl, (readRecordedAt_eq_ok.mp hRecordedAt).2⟩
  rw [readMetadata_toValue, hTitle, ok_bind, hTime, ok_bind, readHostArray_reads hHosts, ok_bind]
  rfl

theorem readSanitization_toValue (summary : ScenarioSanitizationSummary) : readSanitization summary.toValue = (do
    let categories ← readStringArray (strings summary.categories) "Scenario bundle sanitization categories are invalid."
    failIf ((summary.replacements : Int) < 0) (scenarioBundleError "Scenario bundle sanitization summary is invalid.")
    return ⟨sortedSet categories, (summary.replacements : Int).toNat, summary.requiresApproval⟩) := rfl

theorem readSanitization_categories {value : JsValue} {summary : ScenarioSanitizationSummary}
    (h : readSanitization value = .ok summary) : ∃ categories, summary.categories = sortedSet categories ∧
      ∀ name ∈ categories, Js.length name ≤ 256 := by
  obtain ⟨record, _, h⟩ := bind_eq_ok h
  obtain ⟨_, _, h⟩ := bind_eq_ok h
  obtain ⟨categories, hCategories, h⟩ := bind_eq_ok h
  refine ⟨categories, ?_, readStringArray_eq_ok hCategories⟩
  split at h
  · obtain ⟨_, _, hPure⟩ := bind_eq_ok h
    cases hPure
    rfl
  · cases h

theorem readSanitization_reads {value : JsValue} {summary : ScenarioSanitizationSummary}
    (h : readSanitization value = .ok summary) : readSanitization summary.toValue = .ok summary := by
  obtain ⟨categories, hSorted, hShort⟩ := readSanitization_categories h
  have hOwn : ∀ name ∈ summary.categories, Js.length name ≤ 256 := by
    rw [hSorted]
    exact fun name hMem => hShort name (mem_sortedSet.mp hMem)
  have hSet : sortedSet summary.categories = summary.categories := by rw [hSorted, sortedSet_idempotent]
  have hCount : ¬(summary.replacements : Int) < 0 := by omega
  rw [readSanitization_toValue, readStringArray_of hOwn, ok_bind, failIf_of_not hCount, ok_bind, hSet, Int.toNat_natCast]
  rfl

/-- What the validator promises of a bundle that it returns: every part is read back unchanged. -/
structure ScenarioBundle.Validated (bundle : ScenarioBundle) : Prop where
  metadata : readMetadata bundle.metadata.toValue = .ok bundle.metadata
  sanitization : readSanitization bundle.sanitization.toValue = .ok bundle.sanitization
  variableCount : bundle.variableList.length ≤ MAX_VARIABLES
  variableList : readVariables [] (bundle.variableList.map (·.toValue)) = .ok bundle.variableList
  count : 1 ≤ bundle.interactions.length ∧ bundle.interactions.length ≤ MAX_INTERACTIONS
  interactions : ∀ interaction ∈ bundle.interactions,
    normalizeBundleInteraction (bundle.variableList.map (·.name)) interaction.toValue = .ok interaction

theorem validateScenarioBundle_validated {input : JsValue} {bundle : ScenarioBundle}
    (h : validateScenarioBundle input = .ok bundle) : bundle.Validated := by
  obtain ⟨root, _, h⟩ := bind_eq_ok h
  obtain ⟨_, _, h⟩ := bind_eq_ok h
  obtain ⟨_, _, h⟩ := bind_eq_ok h
  obtain ⟨_, _, h⟩ := bind_eq_ok h
  obtain ⟨metadata, hMetadata, h⟩ := bind_eq_ok h
  obtain ⟨sanitization, hSanitization, h⟩ := bind_eq_ok h
  obtain ⟨values, hValues, h⟩ := bind_eq_ok h
  obtain ⟨variableList, hVariables, h⟩ := bind_eq_ok h
  obtain ⟨entries, hEntries, h⟩ := bind_eq_ok h
  obtain ⟨interactions, hInteractions, h⟩ := bind_eq_ok h
  cases h
  obtain ⟨_, _, hValueCount⟩ := boundedArray_eq_ok.mp hValues
  obtain ⟨_, hCount⟩ := boundedArray_eq_ok.mp hEntries
  obtain ⟨hRead, hLength⟩ := readVariables_reads hVariables
  refine ⟨readMetadata_reads hMetadata, readSanitization_reads hSanitization, hLength.trans_le hValueCount, hRead, ?_, ?_⟩
  · have hSame := (mapM_eq_ok hInteractions).length_eq
    change 1 ≤ interactions.length ∧ interactions.length ≤ MAX_INTERACTIONS
    omega
  · exact forall_of_mapM (fun _ _ => normalizeBundleInteraction_reads) hInteractions

theorem ScenarioBundle.Validated.revalidate {bundle : ScenarioBundle} (h : bundle.Validated) :
    validateScenarioBundle bundle.toValue = .ok bundle := by
  have hInteractions : (bundle.interactions.map (·.toValue)).mapM
      (normalizeBundleInteraction (bundle.variableList.map (·.name))) = .ok bundle.interactions := by
    rw [List.mapM_map]
    refine (mapM_eq_pure (g := id) fun interaction hMem => h.interactions interaction hMem).trans ?_
    rw [List.map_id]
    rfl
  calc validateScenarioBundle bundle.toValue
      = (do
          let metadata ← readMetadata bundle.metadata.toValue
          let sanitization ← readSanitization bundle.sanitization.toValue
          let variableList ← readVariables [] (← boundedArray (.array (bundle.variableList.map (·.toValue))) 0
            MAX_VARIABLES "Scenario bundle variables must contain at most 200 entries.")
          let entries ← boundedArray (.array (bundle.interactions.map (·.toValue))) 1 MAX_INTERACTIONS
            "Scenario bundle interactions must contain 1-100 entries."
          let interactions ← entries.mapM (normalizeBundleInteraction (variableList.map (·.name)))
          return ⟨metadata, sanitization, variableList, interactions⟩) := rfl
    _ = .ok bundle := by
      rw [h.metadata, ok_bind, h.sanitization, ok_bind,
        boundedArray_eq_ok.mpr ⟨rfl, Nat.zero_le _, by rw [List.length_map]; exact h.variableCount⟩, ok_bind,
        h.variableList, ok_bind, boundedArray_eq_ok.mpr ⟨rfl, by rw [List.length_map]; exact h.count⟩, ok_bind,
        hInteractions, ok_bind]
      rfl

/-- What the validator returns, written out as data, is accepted again as the same bundle. -/
theorem validateScenarioBundle_idempotent {input : JsValue} {bundle : ScenarioBundle}
    (h : validateScenarioBundle input = .ok bundle) : validateScenarioBundle bundle.toValue = .ok bundle :=
  (validateScenarioBundle_validated h).revalidate

/-- A bundle of the first version, with a method in lower case. -/
def legacyBundle : JsValue :=
  .object [("schemaVersion", .number (.integer 0)), ("kind", .string "ghostapi.scenario-bundle"),
    ("title", .string "Items"), ("recordedAt", .string "2026-08-16T12:00:00.000Z"),
    ("sandboxHosts", .array [.string "api.example.test"]), ("variables", .array []),
    ("interactions", .array [.object [
      ("request", .object [("method", .string "get"), ("path", .string "/items"), ("headers", .object []), ("body", .null)]),
      ("response", .object [("status", .number (.integer 200)), ("headers", .object []), ("body", .null)])]])]

theorem validateScenarioBundle_idempotent_legacy : ∃ bundle, validateScenarioBundle legacyBundle = .ok bundle ∧
    bundle.toValue ≠ legacyBundle ∧ validateScenarioBundle bundle.toValue = .ok bundle := by
  have hSeen : (validateScenarioBundle legacyBundle).toOption.map (fun bundle => bundle.sanitization.categories) =
      some ["legacy-bundle"] := by decide +kernel
  obtain ⟨bundle, hAccepted, -⟩ := Option.map_eq_some_iff.mp hSeen
  have hBundle := toOption_eq_some hAccepted
  exact ⟨bundle, hBundle, by simp [ScenarioBundle.toValue, legacyBundle], validateScenarioBundle_idempotent hBundle⟩

end GhostApi.Scenarios
