import GhostApi.Evidence.Report
import GhostApi.Security.Masks

/-!
# The verdict of a report and the policy

The report passes when nothing fails in it. The policy allows some secret
matches and breaking changes, which fail the report all the same, and masking
can hide a scenario or a required id.
-/

namespace GhostApi.Evidence

open Js
open Policy (CodeUnit JsString units)
open Scenarios (isSecretFieldName isCardNumberField maskByType maskItems sanitizeFields sanitizeItems sanitizeSecrets sanitizeSecretsValue
  toLowerCase)
open Security (Masked masked_sanitizeChars masked_sanitizeSecretString)
open Server (ProxyEvent sanitized)

variable {collation : Collation} {input : ReportInput} {policy : ReportPolicy}

/-! ## The verdict -/

theorem failing_eq_zero {findings : List EvidenceFinding} : failing findings = 0 ↔ ∀ finding ∈ findings, finding.severity ≠ .fail := by
  simp [failing, List.countP_eq_zero]

theorem failing_sortFindings (findings : List EvidenceFinding) : failing (sortFindings collation findings) = failing findings :=
  (List.mergeSort_perm _ _).countP_eq _

theorem runFindings_pass (facts : Facts) : ∀ finding ∈ runFindings facts, finding.severity ≠ .fail := by
  rw [runFindings]
  simp only [List.forall_mem_cons]
  refine ⟨?_, ?_, by simp⟩
  · split <;> exact EvidenceFindingSeverity.noConfusion
  · split <;> exact EvidenceFindingSeverity.noConfusion

theorem scenarioFinding_pass (completed : List JsString) (id : JsString) :
    (scenarioFinding (some policy) completed id).severity ≠ .fail ↔ evaluateScenario policy id completed = true := by
  rw [scenarioFinding, scenarioAllowed]
  split
  · rename_i hAllowed
    exact iff_of_true EvidenceFindingSeverity.noConfusion hAllowed
  · rename_i hDenied
    exact iff_of_false (fun h => h rfl) hDenied

theorem thresholdFinding_pass (secretMatches breaking : Nat) : (thresholdFinding (some policy) secretMatches breaking).severity ≠ .fail ↔
    secretMatches ≤ policy.maxForbiddenCredentialMatches ∧ breaking ≤ policy.maxBreakingContractChanges := by
  rw [thresholdFinding]
  split
  · rename_i hAllowed
    rw [thresholdsAllow, Bool.and_eq_true, decide_eq_true_eq, decide_eq_true_eq] at hAllowed
    exact iff_of_true EvidenceFindingSeverity.noConfusion hAllowed
  · rename_i hDenied
    rw [thresholdsAllow, Bool.and_eq_true, decide_eq_true_eq, decide_eq_true_eq] at hDenied
    exact iff_of_false (fun h => h rfl) hDenied

theorem counted_pass (count : Nat) (id : String) (severity : EvidenceFindingSeverity) (message : String) :
    (∀ finding ∈ counted count id severity message, finding.severity ≠ .fail) ↔ (severity = .fail → count = 0) := by
  rw [counted]
  split
  · rename_i hPositive
    rw [List.forall_mem_singleton]
    exact ⟨fun h hFail => absurd hFail h, fun h hFail => absurd (h hFail) (by omega)⟩
  · rename_i hZero
    exact iff_of_true (List.forall_mem_nil _) (fun _ => by omega)

theorem countFindings_pass (facts : Facts) :
    (∀ finding ∈ countFindings facts, finding.severity ≠ .fail) ↔ facts.secretMatches = 0 ∧ facts.breaking = 0 := by
  rw [countFindings]
  simp only [List.forall_mem_append, counted_pass]
  simp

theorem mem_uniqueSorted {values : List JsString} {id : JsString} : id ∈ uniqueSorted values ↔ ∃ value ∈ values, limitText value = id := by
  rw [uniqueSorted, sortTexts, List.mem_mergeSort, List.mem_eraseDups, List.mem_map]

theorem mem_detectScenarios {events : List SanitizedEvent} {id : String} :
    units id ∈ detectScenarios events ↔ ∃ event ∈ events, id ∈ scenariosOf event.request event.response := by
  rw [detectScenarios, sortTexts, List.mem_mergeSort, List.mem_map]
  constructor
  · rintro ⟨name, hName, hSame⟩
    rw [units_injective hSame, List.mem_eraseDups, List.mem_flatMap] at hName
    exact hName
  · intro hEvents
    exact ⟨id, List.mem_eraseDups.mpr (List.mem_flatMap.mpr hEvents), rfl⟩

theorem passed_iff {report : EvidenceReport} (hPolicy : input.policy = some policy) (hRequired : input.requiredScenarios = some policy.required)
    (h : buildEvidenceReport collation input = some report) : report.passed = true ↔
      (∀ id ∈ policy.requiredScenarios, evaluateScenario policy (limitText (units id)) (detectScenarios (consideredEvents input)) = true) ∧
      matchCount input = 0 ∧ (contractDrift input.contractDiff).breaking = 0 := by
  obtain ⟨retries, _, rfl⟩ := buildEvidenceReport_eq_some h
  change decide (failing (sortFindings collation (findingsOf input.policy (factsOf input))) = 0) = true ↔ _
  rw [decide_eq_true_eq, failing_sortFindings, failing_eq_zero, hPolicy, findingsOf]
  simp only [List.forall_mem_append, List.forall_mem_cons, List.forall_mem_map, scenarioFinding_pass, thresholdFinding_pass,
    countFindings_pass]
  have hIds : (∀ id ∈ (factsOf input).requiredScenarios, evaluateScenario policy id (factsOf input).completedScenarios = true) ↔
      ∀ id ∈ policy.requiredScenarios, evaluateScenario policy (limitText (units id)) (detectScenarios (consideredEvents input)) = true := by
    change (∀ id ∈ uniqueSorted (input.requiredScenarios.getD []), _) ↔ _
    rw [hRequired]
    constructor
    · exact fun hAll id hId => hAll _ (mem_uniqueSorted.mpr ⟨units id, List.mem_map_of_mem hId, rfl⟩)
    · intro hAll id hId
      obtain ⟨value, hValue, rfl⟩ := mem_uniqueSorted.mp hId
      obtain ⟨scenarioId, hScenario, rfl⟩ := List.mem_map.mp hValue
      exact hAll scenarioId hScenario
  rw [hIds]
  constructor
  · rintro ⟨_, hScenarios, _, hZero⟩
    exact ⟨hScenarios, hZero⟩
  · rintro ⟨hScenarios, hMatches, hBreaking⟩
    have hThresholds : (factsOf input).secretMatches ≤ policy.maxForbiddenCredentialMatches ∧
        (factsOf input).breaking ≤ policy.maxBreakingContractChanges := by
      change matchCount input ≤ _ ∧ (contractDrift input.contractDiff).breaking ≤ _
      omega
    exact ⟨runFindings_pass _, hScenarios, hThresholds, hMatches, hBreaking⟩

/-! ## Masked ids -/

theorem charUnit_unitChar (unit : CodeUnit) : charUnit (unitChar unit) = unit := by
  have hRange := unit.toNat_lt
  rw [unitChar, charUnit]
  split
  · rename_i hSurrogate
    rw [toNat_ofNat (by omega)]
    exact UInt16.toNat_inj.mp (by rw [UInt16.toNat_ofNat']; omega)
  · rename_i hPlain
    rw [isSurrogate_iff] at hPlain
    rw [toNat_ofNat (by omega), UInt16.ofNat_toNat]

theorem masked_text (value : JsString) : sanitizeSecretString value = value ∨ 42 ∈ sanitizeSecretString value := by
  rw [sanitizeSecretString]
  cases masked_sanitizeChars (value.map unitChar) with
  | inl hSame =>
    rw [hSame, List.map_map]
    exact .inl ((List.map_congr_left fun unit _ => charUnit_unitChar unit).trans (List.map_id _))
  | inr hAsterisk => exact .inr (List.mem_map_of_mem (f := charUnit) hAsterisk)

def isIdUnit (unit : CodeUnit) : Bool := 97 ≤ unit.toNat && unit.toNat ≤ 122 || 48 ≤ unit.toNat && unit.toNat ≤ 57 || unit = 46 || unit = 95 || unit = 45

def isIdChar (c : Char) : Bool := isLower c || isDigit c || c == '.' || c == '_' || c == '-'

theorem idChar_unit {c : Char} (h : isIdChar c = true) : Json.utf16 c = [c.toNat] ∧ isIdUnit (UInt16.ofNat c.toNat) = true := by
  have hNat : 97 ≤ c.toNat ∧ c.toNat ≤ 122 ∨ 48 ≤ c.toNat ∧ c.toNat ≤ 57 ∨ c.toNat = 46 ∨ c.toNat = 95 ∨ c.toNat = 45 := by
    simp only [isIdChar, isLower, isDigit, Bool.or_eq_true, Bool.and_eq_true, decide_eq_true_eq, beq_iff_eq, Char.le_def,
      UInt32.le_iff_toNat_le] at h
    obtain (((hLower | hDigit) | rfl) | rfl) | rfl := h
    · exact .inl hLower
    · exact .inr (.inl hDigit)
    · exact .inr (.inr (.inl rfl))
    · exact .inr (.inr (.inr (.inl rfl)))
    · exact .inr (.inr (.inr (.inr rfl)))
  have hUnit : (UInt16.ofNat c.toNat).toNat = c.toNat := UInt16.toNat_ofNat_of_lt' (by change c.toNat < 65536; omega)
  constructor
  · have hSmall : c.val < 0x10000 := UInt32.lt_iff_toNat_lt.mpr (by change c.toNat < 65536; omega)
    rw [Json.utf16, if_pos hSmall]
  · simp only [isIdUnit, ← UInt16.toNat_inj, hUnit, Bool.or_eq_true, Bool.and_eq_true, decide_eq_true_eq]
    change (((97 ≤ c.toNat ∧ c.toNat ≤ 122 ∨ 48 ≤ c.toNat ∧ c.toNat ≤ 57) ∨ c.toNat = 46) ∨ c.toNat = 95) ∨ c.toNat = 45
    omega

theorem scenarioId_chars {id : String} (h : isScenarioId id = true) : (∀ c ∈ id.toList, isIdChar c = true) ∧ id.toList.length ≤ 128 := by
  rw [isScenarioId] at h
  split at h
  · cases h
  · rename_i first rest hChars
    rw [Bool.and_eq_true, Bool.and_eq_true, decide_eq_true_eq, List.all_eq_true] at h
    obtain ⟨⟨hFirst, hLength⟩, hRest⟩ := h
    rw [hChars, List.forall_mem_cons, List.length_cons]
    refine ⟨⟨?_, hRest⟩, by omega⟩
    rw [isIdChar, hFirst]
    rfl

theorem units_scenarioId {id : String} (h : isScenarioId id = true) :
    (∀ unit ∈ units id, isIdUnit unit = true) ∧ (units id).length ≤ 128 := by
  obtain ⟨hChars, hLength⟩ := scenarioId_chars h
  have hUnits : units id = id.toList.map fun c => UInt16.ofNat c.toNat := by
    have hFlat : id.toList.flatMap Json.utf16 = id.toList.map Char.toNat := by
      rw [List.map_eq_flatMap]
      exact List.flatMap_congr fun c hc => (idChar_unit (hChars c hc)).1
    rw [units, hFlat, List.map_map]
    rfl
  rw [hUnits, List.length_map]
  exact ⟨List.forall_mem_map.mpr fun c hc => (idChar_unit (hChars c hc)).2, hLength⟩

theorem limitText_id {id : String} (h : isScenarioId id = true) :
    limitText (units id) = units id ∨ ¬∀ unit ∈ limitText (units id), isIdUnit unit = true := by
  obtain ⟨hUnits, hLength⟩ := units_scenarioId h
  rw [limitText]
  cases masked_text (units id) with
  | inl hSame =>
    have hBlank : (units id).map blankUnit = units id := by
      refine (List.map_congr_left fun unit hUnit => ?_).trans (List.map_id _)
      have hKept : ¬(unit = 13 ∨ unit = 10 ∨ unit = 9) := by
        rintro (rfl | rfl | rfl)
        all_goals exact absurd (hUnits _ hUnit) (by decide)
      exact if_neg hKept
    rw [hSame, hBlank]
    rw [if_neg (by omega)]
    exact .inl rfl
  | inr hAsterisk =>
    refine .inr fun hAll => ?_
    have hBlank : 42 ∈ (sanitizeSecretString (units id)).map blankUnit := List.mem_map.mpr ⟨42, hAsterisk, by decide⟩
    split at hAll
    · exact absurd (hAll 91 (List.mem_append_right _ (by decide +kernel))) (by decide)
    · exact absurd (hAll 42 hBlank) (by decide)

/-! ## Masked scenarios -/

theorem append_mono {xs ys xs' ys' : List String} (h : xs ⊆ xs') (h' : ys ⊆ ys') : xs ++ ys ⊆ xs' ++ ys' :=
  List.append_subset.mpr ⟨List.subset_append_of_subset_left _ h, List.subset_append_of_subset_right _ h'⟩

theorem not_scenarioId_of_asterisk {s : String} (h : '*' ∈ s.toList) : isScenarioId s = false := by
  rw [Bool.eq_false_iff]
  intro hId
  exact absurd ((scenarioId_chars hId).1 '*' h) (by decide)

theorem scenarioField_mask (key : String) (value : JsValue) : scenarioField key (maskByType value) = [] := by
  have hMask : ∀ mask ∈ [Scenarios.MASK, "Bearer ***"], scenarioField key (.string mask) = [] := by
    intro mask hMask
    have hAsterisk : ∀ mask ∈ [Scenarios.MASK, "Bearer ***"], '*' ∈ mask.toList := by decide
    rw [scenarioField, not_scenarioId_of_asterisk (hAsterisk mask hMask), Bool.and_false]
    rfl
  cases value with
  | array items =>
    rw [maskByType]
    rfl
  | object fields =>
    rw [maskByType]
    rfl
  | string s =>
    rw [maskByType]
    split
    · exact hMask _ (by simp)
    · exact hMask _ (by simp)
  | undefined | null | bool | number =>
    rw [maskByType]
    · exact hMask _ (by simp)
    all_goals exact fun _ h => JsValue.noConfusion h

theorem collect_string (s : String) : collectScenarioStrings (.string s) = [] := by
  rw [collectScenarioStrings]
  all_goals exact fun _ h => JsValue.noConfusion h

theorem collect_mask (value : JsValue) : collectScenarioStrings (maskByType value) = [] := by
  induction value using JsValue.induction with
  | array items ih =>
    rw [maskByType, collectScenarioStrings]
    induction items with
    | nil => rw [maskItems, collectItems]
    | cons item rest ihRest =>
      rw [List.forall_mem_cons] at ih
      rw [maskItems, collectItems, ih.1, ihRest ih.2]
      rfl
  | object fields _ =>
    have hField : ∀ key, scenarioField key (.string Scenarios.MASK) = [] := fun key => by simpa [maskByType] using scenarioField_mask key .null
    rw [maskByType, collectScenarioStrings]
    clear * - hField
    induction fields with
    | nil => rw [List.map_nil, collectFields]
    | cons field rest ih =>
      rw [List.map_cons, collectFields, ih, hField, collect_string]
      rfl
  | string s =>
    rw [maskByType, collect_string]
  | undefined | null | bool | number =>
    rw [maskByType]
    · exact collect_string _
    all_goals exact fun _ h => JsValue.noConfusion h

theorem scenarioField_sanitize (key : String) (parentKey : Option String) (value : JsValue) :
    scenarioField key (sanitizeSecretsValue parentKey value) ⊆ scenarioField key value := by
  cases value with
  | string s =>
    rw [sanitizeSecretsValue, scenarioField]
    cases masked_sanitizeSecretString s with
    | inl hSame =>
      rw [hSame]
      exact List.Subset.refl _
    | inr hAsterisk =>
      rw [not_scenarioId_of_asterisk hAsterisk, Bool.and_false]
      exact List.nil_subset _
  | array items =>
    rw [sanitizeSecretsValue]
    exact List.nil_subset _
  | object fields =>
    rw [sanitizeSecretsValue]
    exact List.nil_subset _
  | undefined | null | bool | number =>
    rw [sanitizeSecretsValue]
    · exact List.Subset.refl _
    all_goals exact fun _ h => JsValue.noConfusion h

theorem collect_sanitize (value : JsValue) (parentKey : Option String) :
    collectScenarioStrings (sanitizeSecretsValue parentKey value) ⊆ collectScenarioStrings value := by
  induction value using JsValue.induction generalizing parentKey with
  | array items ih =>
    rw [sanitizeSecretsValue, collectScenarioStrings, collectScenarioStrings]
    induction items with
    | nil =>
      rw [sanitizeItems]
      exact List.Subset.refl _
    | cons item rest ihRest =>
      rw [List.forall_mem_cons] at ih
      rw [sanitizeItems, collectItems, collectItems]
      exact append_mono (ih.1 parentKey) (ihRest ih.2)
  | object fields ih =>
    rw [sanitizeSecretsValue, collectScenarioStrings, collectScenarioStrings]
    induction fields with
    | nil =>
      rw [sanitizeFields]
      exact List.Subset.refl _
    | cons field rest ihRest =>
      obtain ⟨key, value⟩ := field
      rw [List.forall_mem_cons] at ih
      rw [sanitizeFields, collectFields, collectFields]
      split
      · rw [scenarioField_mask, collect_mask]
        exact List.subset_append_of_subset_right _ (List.subset_append_of_subset_right _ (ihRest ih.2))
      · exact append_mono (scenarioField_sanitize key _ value) (append_mono (ih.1 _) (ihRest ih.2))
  | string s =>
    rw [sanitizeSecretsValue, collect_string]
    exact List.nil_subset _
  | undefined | null | bool | number =>
    rw [sanitizeSecretsValue]
    · exact List.Subset.refl _
    all_goals exact fun _ h => JsValue.noConfusion h

def seenScenarios (event : ProxyEvent) : List String := scenariosOf (sanitizeEvent event).request (sanitizeEvent event).response

theorem seen_subset (event : ProxyEvent) : seenScenarios event ⊆ scenariosOf event.request event.response :=
  append_mono (List.Subset.trans (collect_sanitize _ none) (collect_sanitize _ _))
    (List.Subset.trans (collect_sanitize _ none) (collect_sanitize _ _))

/-! ## The verdict and the policy -/

/-- A considered event has a scenario field with the id. -/
def Occurs (input : ReportInput) (id : String) : Prop :=
  ∃ event ∈ input.events.take MAX_EVENTS_FOR_REPORT, id ∈ scenariosOf event.request event.response

def OccursMasked (input : ReportInput) (id : String) : Prop := ∃ event ∈ input.events.take MAX_EVENTS_FOR_REPORT, id ∈ seenScenarios event

def IsPlainId (id : String) : Prop := limitText (units id) = units id

def MeetsPolicy (policy : ReportPolicy) (input : ReportInput) (report : EvidenceReport) : Prop :=
  (∀ id ∈ policy.requiredScenarios, Occurs input id) ∧ report.secretMatches ≤ policy.maxForbiddenCredentialMatches ∧
    report.contractDrift.breaking ≤ policy.maxBreakingContractChanges

/-- The policy asks for something that the report goes by. -/
structure IsCovered (policy : ReportPolicy) (input : ReportInput) : Prop where
  /-- No secret match and no breaking change is tolerated. -/
  strict : (∀ id ∈ policy.requiredScenarios, Occurs input id) → matchCount input ≤ policy.maxForbiddenCredentialMatches →
    (contractDrift input.contractDiff).breaking ≤ policy.maxBreakingContractChanges →
    matchCount input = 0 ∧ (contractDrift input.contractDiff).breaking = 0
  /-- Masking hides no scenario that is required under a plain id. -/
  visible : (∀ id ∈ policy.requiredScenarios, Occurs input id) → matchCount input = 0 → (contractDrift input.contractDiff).breaking = 0 →
    ∀ id ∈ policy.requiredScenarios, IsPlainId id → OccursMasked input id
  /-- Where the plain ids are found the secret-shaped ones occur. -/
  checked : matchCount input = 0 → (contractDrift input.contractDiff).breaking = 0 →
    (∀ id ∈ policy.requiredScenarios, IsPlainId id → OccursMasked input id) → ∀ id ∈ policy.requiredScenarios, ¬IsPlainId id → Occurs input id

theorem occurs_of_masked {id : String} (h : OccursMasked input id) : Occurs input id := by
  obtain ⟨event, hEvent, hSeen⟩ := h
  exact ⟨event, hEvent, seen_subset event hSeen⟩

theorem occursMasked_iff {id : String} : units id ∈ detectScenarios (consideredEvents input) ↔ OccursMasked input id := by
  rw [mem_detectScenarios, consideredEvents]
  constructor
  · rintro ⟨_, hEvent, hSeen⟩
    obtain ⟨event, hMember, rfl⟩ := List.mem_map.mp hEvent
    exact ⟨event, hMember, hSeen⟩
  · rintro ⟨event, hMember, hSeen⟩
    exact ⟨_, List.mem_map_of_mem hMember, hSeen⟩

theorem evaluateScenario_iff {id : ScenarioId} (h : id ∈ policy.requiredScenarios) :
    evaluateScenario policy (limitText (units id)) (detectScenarios (consideredEvents input)) = true ↔
      (IsPlainId id → OccursMasked input id) := by
  rw [evaluateScenario]
  by_cases hPlain : IsPlainId id
  · have hRequired : units id ∈ policy.required := List.mem_map_of_mem h
    rw [show limitText (units id) = units id from hPlain, if_pos (List.contains_iff_mem.mpr hRequired), List.contains_iff_mem,
      occursMasked_iff]
    exact ⟨fun hSeen _ => hSeen, fun hSeen => hSeen hPlain⟩
  · have hUnknown : limitText (units id) ∉ policy.required := by
      intro hKnown
      obtain ⟨other, _, hOther⟩ := List.mem_map.mp hKnown
      cases limitText_id id.property with
      | inl hSame => exact hPlain hSame
      | inr hUnits =>
        rw [← hOther] at hUnits
        exact hUnits (units_scenarioId other.property).1
    rw [if_neg (List.contains_iff_mem.not.mpr hUnknown)]
    exact iff_of_true rfl fun h => absurd h hPlain

/-- The verdict is the one that the policy asks for exactly when the policy tolerates nothing that is there and masking hides
no required scenario. -/
theorem verdict_iff (collation : Collation) (input : ReportInput) (policy : ReportPolicy) (report : EvidenceReport)
    (hPolicy : input.policy = some policy) (hRequired : input.requiredScenarios = some policy.required)
    (h : buildEvidenceReport collation input = some report) :
    (report.passed = true ↔ MeetsPolicy policy input report) ↔ IsCovered policy input := by
  have hPassed := passed_iff hPolicy hRequired h
  have hScenarios : (∀ id ∈ policy.requiredScenarios,
      evaluateScenario policy (limitText (units id)) (detectScenarios (consideredEvents input)) = true) ↔
      ∀ id ∈ policy.requiredScenarios, IsPlainId id → OccursMasked input id :=
    forall₂_congr fun id hId => evaluateScenario_iff hId
  have hMeets : MeetsPolicy policy input report ↔ (∀ id ∈ policy.requiredScenarios, Occurs input id) ∧
      matchCount input ≤ policy.maxForbiddenCredentialMatches ∧
      (contractDrift input.contractDiff).breaking ≤ policy.maxBreakingContractChanges := by
    obtain ⟨retries, _, rfl⟩ := buildEvidenceReport_eq_some h
    exact Iff.rfl
  rw [hPassed, hScenarios, hMeets]
  constructor
  · intro hAgree
    refine ⟨fun hOccur hMatches hBreaking => (hAgree.mpr ⟨hOccur, hMatches, hBreaking⟩).2, fun hOccur hMatches hBreaking => ?_,
      fun hMatches hBreaking hVisible id hId _ => (hAgree.mp ⟨hVisible, hMatches, hBreaking⟩).1 id hId⟩
    exact (hAgree.mpr ⟨hOccur, by omega, by omega⟩).1
  · intro hCovered
    constructor
    · rintro ⟨hVisible, hMatches, hBreaking⟩
      refine ⟨fun id hId => ?_, by omega, by omega⟩
      by_cases hPlain : IsPlainId id
      · exact occurs_of_masked (hVisible id hId hPlain)
      · exact hCovered.checked hMatches hBreaking hVisible id hId hPlain
    · rintro ⟨hOccur, hMatches, hBreaking⟩
      obtain ⟨hZero, hNone⟩ := hCovered.strict hOccur hMatches hBreaking
      exact ⟨hCovered.visible hOccur hZero hNone, hZero, hNone⟩

/-- A run without events under a policy that tolerates some secret matches. -/
def quietInput (tolerated : Nat) (runEvidence : JsValue) : ReportInput where
  events := []
  policy := some ⟨[], tolerated, 0⟩
  policyHash := none
  requiredScenarios := some []
  runEvidence := runEvidence
  contractDiff := none
  generatedAt := []
  ghostApiVersion := none

theorem quiet_built (tolerated : Nat) (output : JsValue) : ∃ report, buildEvidenceReport unitLe (quietInput tolerated (.object [("output", output)])) =
    some report := ⟨_, rfl⟩

theorem verdict_iff_quiet : ∃ report, buildEvidenceReport unitLe (quietInput 0 (.object [("output", .undefined)])) = some report ∧
    (report.passed = true ↔ MeetsPolicy ⟨[], 0, 0⟩ (quietInput 0 (.object [("output", .undefined)])) report) := by
  obtain ⟨report, hReport⟩ := quiet_built 0 .undefined
  refine ⟨report, hReport, (verdict_iff unitLe _ ⟨[], 0, 0⟩ report rfl rfl hReport).mpr ⟨?_, ?_, ?_⟩⟩
  · intro _ hMatches hBreaking
    exact ⟨Nat.le_zero.mp hMatches, Nat.le_zero.mp hBreaking⟩
  · exact fun _ _ _ _ hId => absurd hId List.not_mem_nil
  · exact fun _ _ _ _ hId => absurd hId List.not_mem_nil

/-- One secret match in the output of the run, which the policy tolerates. -/
theorem tolerated_match_fails : ∃ report,
    buildEvidenceReport unitLe (quietInput 1 (.object [("output", .object [("secretMatches", .number (.integer 1))])])) = some report ∧
    MeetsPolicy ⟨[], 1, 0⟩ (quietInput 1 (.object [("output", .object [("secretMatches", .number (.integer 1))])])) report ∧
    report.passed = false := by
  obtain ⟨report, hReport⟩ := quiet_built 1 (.object [("secretMatches", .number (.integer 1))])
  have hMatches : matchCount (quietInput 1 (.object [("output", .object [("secretMatches", .number (.integer 1))])])) = 1 := by
    decide +kernel
  have hPassed := @passed_iff unitLe _ ⟨[], 1, 0⟩ _ rfl rfl hReport
  refine ⟨report, hReport, ?_, ?_⟩
  · obtain ⟨retries, _, rfl⟩ := buildEvidenceReport_eq_some hReport
    exact ⟨fun _ hId => absurd hId List.not_mem_nil, Nat.le_of_eq hMatches, Nat.le_refl 0⟩
  · rw [Bool.eq_false_iff, ne_eq, hPassed, hMatches]
    rintro ⟨_, hZero, _⟩
    cases hZero

end GhostApi.Evidence
