import GhostApi.Evidence.Report
import GhostApi.Evidence.Stable
import GhostApi.Validation

/-!
# Tamper evidence of the report

A report that was written and read back is accepted. The hash of an accepted
report determines its content, except that it does not tell a number that is
too large for a double from null.
-/

namespace GhostApi.Evidence

open Js Printed Reordering
open Policy (CodeUnit JsString units)

/-! ## Writing and reading -/

mutual
/-- JSON.parse(JSON.stringify(value)); none for a value that is undefined. -/
def reparsed : Value → Option Value
  | .undefined => none
  | .infinity _ | .number .nonFinite => some .null
  | .array items => some (.array (reparsedItems items))
  | .object fields => some (.object (reparsedFields fields))
  | value => some value

def reparsedItems : List Value → List Value
  | [] => []
  | item :: rest => (reparsed item).getD .null :: reparsedItems rest

def reparsedFields : Members → Members
  | [] => []
  | (key, value) :: rest => match reparsed value with
    | some json => (key, json) :: reparsedFields rest
    | none => reparsedFields rest
end

/-! ## validateEvidenceReport -/

def EvidenceReportError (message : String) : JsError := ⟨"EvidenceReportError", message, none⟩

/-- value?.[key] -/
def member (value : Value) (key : String) : Value := match value with
  | .object fields => ((fields.find? fun field => field.1 = units key).map Prod.snd).getD .undefined
  | _ => .undefined

def isObject : Value → Bool
  | .object _ => true
  | _ => false

def isArray : Value → Bool
  | .array _ => true
  | _ => false

def isBool : Value → Bool
  | .bool _ => true
  | _ => false

def stringOf : Value → Option JsString
  | .string s => some s
  | _ => none

def isOne : Value → Bool
  | .number n => n = .integer 1
  | _ => false

/-- /^[a-f0-9]{64}$/ -/
def isHashText (text : JsString) : Bool :=
  text.length = 64 && text.all fun unit => 97 ≤ unit.toNat && unit.toNat ≤ 102 || 48 ≤ unit.toNat && unit.toNat ≤ 57

def logicalHash (report : Value) : Option JsString := stringOf (member (member report "artifact") "logicalHash")

def normalizeEvidenceReport (value : Value) : Except JsError Value :=
  if isObject value = false then .error (EvidenceReportError "Evidence report must be an object.")
  else if isOne (member value "schemaVersion") = false then .error (EvidenceReportError "Unsupported evidence report schema version.")
  else if (logicalHash value).any isHashText = false then
    .error (EvidenceReportError "Evidence report is missing a valid logical hash.")
  else if stringOf (member (member value "artifact") "canonicalization") ≠ some (units CANONICALIZATION) then
    .error (EvidenceReportError "Unsupported evidence report canonicalization.")
  else if stringOf (member (member value "run") "id") = none ∨ isBool (member (member value "summary") "passed") = false ∨
      isArray (member value "findings") = false then
    .error (EvidenceReportError "Evidence report has an invalid schema.")
  else .ok value

def validateEvidenceReport (collation : Collation) (value : Value) : Except JsError Value := do
  let report ← normalizeEvidenceReport value
  if logicalHash report ≠ some (hashLogicalReport collation report) then
    .error (EvidenceReportError "Evidence report logical hash does not match its contents.")
  else .ok report

variable {collation : Collation} {value other : Value}

/-! ## Round trip -/

theorem reparsed_eq_none : reparsed value = none ↔ value = .undefined := by
  cases value with
  | number n => cases n <;> simp [reparsed]
  | undefined | null | bool | infinity | string | array | object => simp [reparsed]

theorem ne_undefined_of_reparsed (h : reparsed value = some other) : other ≠ .undefined := by
  cases value with
  | number n =>
    cases n <;> · cases h; exact Value.noConfusion
  | undefined => cases h
  | null | bool | infinity | string =>
    cases h
    exact Value.noConfusion
  | array | object =>
    rw [reparsed] at h
    cases h
    exact Value.noConfusion

theorem stableFields_cons {key : JsString} {rest : Members} (h : value ≠ .undefined) :
    stableFields collation ((key, value) :: rest) = (key, stableTree collation value) :: stableFields collation rest := by
  rw [stableFields]
  exact h

theorem stableFields_reparsed {change : JsString → Value → Value} {fields : Members}
    (hUndefined : ∀ key value, change key value = .undefined ↔ value = .undefined)
    (h : ∀ field ∈ fields, ∀ json, reparsed field.2 = some json →
      stableTree collation (change field.1 json) = stableTree collation (change field.1 field.2)) :
    stableFields collation ((reparsedFields fields).map fun field => (field.1, change field.1 field.2)) =
      stableFields collation (fields.map fun field => (field.1, change field.1 field.2)) := by
  induction fields with
  | nil => rw [reparsedFields]
  | cons field rest ih =>
    obtain ⟨key, value⟩ := field
    rw [List.forall_mem_cons] at h
    rw [reparsedFields]
    cases hValue : reparsed value with
    | none =>
      dsimp only
      rw [ih h.2, List.map_cons, reparsed_eq_none.mp hValue, (hUndefined key .undefined).mpr rfl, stableFields]
    | some json =>
      have hJson := ne_undefined_of_reparsed hValue
      have hDefined : value ≠ .undefined := by
        rintro rfl
        cases hValue
      dsimp only
      rw [List.map_cons, List.map_cons, stableFields_cons ((hUndefined key json).not.mpr hJson),
        stableFields_cons ((hUndefined key value).not.mpr hDefined), h.1 json hValue, ih h.2]

theorem stableTree_reparsed (h : reparsed value = some other) : stableTree collation other = stableTree collation value := by
  induction value using Value.induction generalizing other with
  | undefined => cases h
  | null | bool | string =>
    cases h
    rfl
  | infinity negative =>
    cases h
    rw [stableTree, stableTree]
  | number n =>
    cases n with
    | integer | fraction =>
      cases h
      rfl
    | nonFinite =>
      cases h
      rw [stableTree, stableTree, numberJson]
  | array items ih =>
    rw [reparsed] at h
    cases h
    rw [stableTree, stableTree]
    congr 1
    induction items with
    | nil => rw [reparsedItems]
    | cons item rest ihRest =>
      rw [List.forall_mem_cons] at ih
      rw [reparsedItems, stableItems, stableItems, ihRest ih.2]
      congr 1
      cases hItem : reparsed item with
      | some json => exact ih.1 hItem
      | none => rw [Option.getD_none, reparsed_eq_none.mp hItem, stableTree, stableTree]
  | object fields ih =>
    rw [reparsed] at h
    cases h
    have hFields := @stableFields_reparsed collation (fun _ value => value) fields (fun _ _ => Iff.rfl)
      fun field hField json hJson => ih field hField hJson
    simp only [Prod.mk.eta, List.map_id'] at hFields
    rw [stableTree, stableTree, hFields]

def clearMember (key : JsString) (value : Value) : Value :=
  if key = units "artifact" then setText (units "generatedAt") [] (setText (units "logicalHash") [] value) else value

theorem logicalReport_object (fields : Members) :
    logicalReport (.object fields) = .object (fields.map fun field => (field.1, clearMember field.1 field.2)) := by
  rw [logicalReport, setArtifact, setArtifact, List.map_map]
  congr 1
  refine List.map_congr_left fun field _ => ?_
  rw [Function.comp_apply, clearMember]
  split <;> rfl

theorem setText_eq_undefined {key text : JsString} : setText key text value = .undefined ↔ value = .undefined := by
  cases value with
  | object fields => exact iff_of_false Value.noConfusion Value.noConfusion
  | undefined | null | bool | number | infinity | string | array => exact Iff.rfl

theorem clearMember_eq_undefined (key : JsString) (value : Value) : clearMember key value = .undefined ↔ value = .undefined := by
  rw [clearMember]
  split
  · rw [setText_eq_undefined, setText_eq_undefined]
  · exact Iff.rfl

theorem stableTree_logicalReport {fields : Members} (hArtifact : ∀ field ∈ fields, field.1 = units "artifact" → reparsed field.2 = some field.2)
    (h : reparsed (.object fields) = some other) :
    stableTree collation (logicalReport other) = stableTree collation (logicalReport (.object fields)) := by
  rw [reparsed] at h
  cases h
  rw [logicalReport_object, logicalReport_object, stableTree, stableTree, stableFields_reparsed clearMember_eq_undefined]
  intro field hField json hJson
  by_cases hKey : field.1 = units "artifact"
  · have hSame := hArtifact field hField hKey
    rw [hSame] at hJson
    rw [Option.some.inj hJson]
  · rw [clearMember, clearMember, if_neg hKey, if_neg hKey]
    exact stableTree_reparsed hJson

theorem member_reparsed (h : reparsed value = some other) {key : String} {json : Value} (hMember : reparsed (member value key) = some json) :
    member other key = json := by
  cases value with
  | object fields =>
    rw [reparsed] at h
    cases h
    rw [member] at hMember ⊢
    induction fields with
    | nil => cases hMember
    | cons field rest ih =>
      obtain ⟨name, value⟩ := field
      rw [List.find?_cons] at hMember
      by_cases hName : name = units key
      · rw [decide_eq_true hName] at hMember
        rw [reparsedFields, show reparsed value = some json from hMember]
        dsimp only
        rw [List.find?_cons, decide_eq_true hName]
        rfl
      · rw [decide_eq_false hName] at hMember
        rw [reparsedFields]
        cases hValue : reparsed value with
        | none => exact ih hMember
        | some first =>
          dsimp only
          rw [List.find?_cons, decide_eq_false hName]
          exact ih hMember
  | undefined | null | bool | number | infinity | string | array => cases hMember

theorem isHashText_sha256 (source : String) : isHashText (units (sha256 source)) = true := by
  have hAll : (Sha256.hexChars.all fun c => decide (Json.utf16 c = [c.toNat]) &&
      (97 ≤ (UInt16.ofNat c.toNat).toNat && (UInt16.ofNat c.toNat).toNat ≤ 102 ||
        48 ≤ (UInt16.ofNat c.toNat).toNat && (UInt16.ofNat c.toNat).toNat ≤ 57)) = true := by decide
  have hHex := fun c hc => (Bool.and_eq_true _ _).mp (List.all_eq_true.mp hAll c hc)
  have hChars : ∀ c ∈ (sha256 source).toList, c ∈ Sha256.hexChars := fun c hc => List.contains_iff_mem.mp (sha256_isHexChar source c hc)
  have hUnits : units (sha256 source) = (sha256 source).toList.map fun c => UInt16.ofNat c.toNat := by
    have hFlat : (sha256 source).toList.flatMap Json.utf16 = (sha256 source).toList.map Char.toNat := by
      rw [List.map_eq_flatMap]
      exact List.flatMap_congr fun c hc => of_decide_eq_true (hHex c (hChars c hc)).1
    rw [units, hFlat, List.map_map]
    rfl
  rw [isHashText, hUnits, List.length_map, sha256_length, decide_eq_true rfl, Bool.true_and, List.all_map, List.all_eq_true]
  exact fun c hc => (hHex c (hChars c hc)).2

structure Acceptable (collation : Collation) (report : Value) : Prop where
  object : isObject report = true
  version : isOne (member report "schemaVersion") = true
  hash : logicalHash report = some (hashLogicalReport collation report)
  canonicalization : stringOf (member (member report "artifact") "canonicalization") = some (units CANONICALIZATION)
  runId : stringOf (member (member report "run") "id") ≠ none
  passed : isBool (member (member report "summary") "passed") = true
  findings : isArray (member report "findings") = true

theorem Acceptable.validate {report : Value} (h : Acceptable collation report) : validateEvidenceReport collation report = .ok report := by
  have hDigest : (some (hashLogicalReport collation report)).any isHashText = true := isHashText_sha256 _
  have hNormal : normalizeEvidenceReport report = .ok report := by
    rw [normalizeEvidenceReport, h.object, h.version, h.hash, hDigest, h.canonicalization, h.passed, h.findings]
    simp [h.runId]
  rw [validateEvidenceReport, hNormal]
  change (if logicalHash report ≠ some (hashLogicalReport collation report) then _ else Except.ok report) = Except.ok report
  rw [h.hash, if_neg (not_not.mpr rfl)]

/-! ## Built reports -/

theorem member_record (fields : List (String × Value)) (key : String) :
    member (record fields) key = ((fields.find? fun field => field.1 = key).map Prod.snd).getD .undefined := by
  rw [record, member]
  induction fields with
  | nil => rfl
  | cons field rest ih =>
    rw [List.map_cons, List.find?_cons, List.find?_cons]
    by_cases hKey : field.1 = key
    · rw [decide_eq_true hKey, decide_eq_true (congrArg units hKey)]
      rfl
    · rw [decide_eq_false hKey, decide_eq_false (units_injective.ne hKey)]
      exact ih

theorem logicalReport_toValue (report : EvidenceReport) (hash : JsString) :
    logicalReport { report with logicalHash := hash }.toValue = logicalReport report.toValue := by
  have hArtifact : ∀ other : EvidenceReport, clearMember (units "artifact") other.artifact =
      record [("generatedAt", .string []), ("logicalHash", .string []), ("canonicalization", text CANONICALIZATION)] := by
    intro other
    simp [clearMember, EvidenceReport.artifact, setText, record, Assignment.assign, Assignment.keys, units_injective.eq_iff]
  rw [EvidenceReport.toValue, EvidenceReport.toValue, record, record, logicalReport_object, logicalReport_object]
  simp only [List.map_cons, hArtifact]
  rfl

theorem reparsed_artifact (report : EvidenceReport) : reparsed report.artifact = some report.artifact := by
  simp [EvidenceReport.artifact, record, reparsed, reparsedFields, text]

theorem units_content_ne (report : EvidenceReport) : ∀ field ∈ report.content, units field.1 ≠ units "artifact" := by
  have hKeys : ∀ key ∈ report.content.map Prod.fst, key ≠ "artifact" := by
    rw [EvidenceReport.content]
    simp
  exact fun field hField => units_injective.ne (hKeys field.1 (List.mem_map_of_mem hField))

theorem artifact_kept (report : EvidenceReport) : ∀ field ∈ (("schemaVersion", count 1) :: ("artifact", report.artifact) ::
    report.content).map (fun field : String × Value => (units field.1, field.2)), field.1 = units "artifact" → reparsed field.2 = some field.2 := by
  intro field hField hKey
  rw [List.map_cons, List.map_cons, List.mem_cons, List.mem_cons] at hField
  obtain rfl | rfl | hRest := hField
  · exact rfl
  · exact reparsed_artifact report
  · obtain ⟨entry, hEntry, rfl⟩ := List.mem_map.mp hRest
    exact absurd hKey (units_content_ne report entry hEntry)

theorem reparsed_record (fields : List (String × Value)) : ∃ json, reparsed (record fields) = some json := ⟨_, by rw [record, reparsed]⟩

theorem validate_built {input : ReportInput} {report : EvidenceReport} {json : Value}
    (h : buildEvidenceReport collation input = some report) (hJson : reparsed report.toValue = some json) :
    validateEvidenceReport collation json = .ok json := by
  obtain ⟨retries, _, rfl⟩ := buildEvidenceReport_eq_some h
  generalize reportWithoutHash collation input retries = base at hJson
  have hMembers : ∀ key value, (("schemaVersion", count 1) :: ("artifact", (sealReport collation base).artifact) ::
      (sealReport collation base).content).find? (fun field => field.1 = key) = some (key, value) → ∀ inner, reparsed value = some inner →
      member json key = inner := by
    intro key value hFind inner hInner
    refine member_reparsed hJson ?_
    rw [EvidenceReport.toValue, member_record, hFind]
    exact hInner
  have hVersion : member json "schemaVersion" = count 1 := hMembers _ _ rfl _ rfl
  have hArtifact : member json "artifact" = (sealReport collation base).artifact := hMembers _ _ rfl _ (reparsed_artifact _)
  obtain ⟨run, hRunJson⟩ := reparsed_record [("id", .string base.runId), ("status", text base.status),
    ("startedAt", optionalText base.startedAt), ("finishedAt", optionalText base.finishedAt),
    ("exitCode", (base.exitCode.map fun z => Value.number (.integer z)).getD .undefined)]
  have hRun : member json "run" = run := hMembers _ _ rfl _ hRunJson
  have hId : member run "id" = .string base.runId := by
    refine member_reparsed hRunJson ?_
    rw [member_record]
    rfl
  obtain ⟨summary, hSummaryJson⟩ := reparsed_record [("passed", .bool base.passed), ("failCount", count base.failCount),
    ("warningCount", count base.warningCount)]
  have hSummary : member json "summary" = summary := hMembers _ _ rfl _ hSummaryJson
  have hPassed : member summary "passed" = .bool base.passed := by
    refine member_reparsed hSummaryJson ?_
    rw [member_record]
    rfl
  have hFindings : member json "findings" = .array (reparsedItems (base.findings.map EvidenceFinding.toValue)) :=
    hMembers _ _ rfl _ (by rw [reparsed]; rfl)
  have hTree : hashLogicalReport collation json = hashLogicalReport collation base.toValue := by
    have hSame : stableTree collation (logicalReport json) = stableTree collation (logicalReport (sealReport collation base).toValue) :=
      stableTree_logicalReport (artifact_kept _) hJson
    rw [hashLogicalReport, hashLogicalReport, stableStringify, stableStringify, hSame, sealReport, logicalReport_toValue]
  refine Acceptable.validate ⟨?_, by rw [hVersion]; rfl, ?_, ?_, by rw [hRun, hId]; exact Option.some_ne_none _,
    by rw [hSummary, hPassed]; rfl, by rw [hFindings]; rfl⟩
  · rw [EvidenceReport.toValue, record, reparsed] at hJson
    cases hJson
    rfl
  · rw [hTree, logicalHash, hArtifact, EvidenceReport.artifact, member_record]
    rfl
  · rw [hArtifact, EvidenceReport.artifact, member_record]
    rfl

/-! ## Tamper evidence -/

def untimed (report : Value) : Value := setArtifact (units "generatedAt") [] report

/-- Equal except for artifact.generatedAt and the order of members. -/
def SameExceptTime (report other : Value) : Prop := Same (untimed report) (untimed other)

theorem mem_keys_iff {fields others : Members} (h : Rearranged SameMember fields others) (key : JsString) :
    key ∈ Assignment.keys fields ↔ key ∈ Assignment.keys others := by
  constructor
  · intro hKey
    obtain ⟨field, hField, rfl⟩ := List.mem_map.mp hKey
    obtain ⟨_, hOther, hSame⟩ := h.mem_left hField
    cases hSame
    exact List.mem_map.mpr ⟨_, hOther, rfl⟩
  · intro hKey
    obtain ⟨field, hField, rfl⟩ := List.mem_map.mp hKey
    obtain ⟨_, hOther, hSame⟩ := h.mem_right hField
    cases hSame
    exact List.mem_map.mpr ⟨_, hOther, rfl⟩

theorem Same.setText (h : Same value other) (key text : JsString) : Same (setText key text value) (setText key text other) := by
  cases h with
  | refl => exact .refl _
  | array hItems => exact .array hItems
  | object hFields =>
    rename_i fields others
    refine .object ?_
    have hNew : SameMember (key, .string text) (key, .string text) := .intro key (.refl _)
    by_cases hKey : key ∈ Assignment.keys fields
    · rw [Assignment.assign_of_mem hKey, Assignment.assign_of_mem ((mem_keys_iff hFields key).mp hKey)]
      refine hFields.map fun field member hSame => ?_
      cases hSame with
      | intro name hValue =>
        dsimp only
        split
        · exact hNew
        · exact .intro name hValue
    · rw [Assignment.assign_of_not_mem hKey, Assignment.assign_of_not_mem ((mem_keys_iff hFields key).not.mp hKey)]
      exact hFields.append_singleton hNew

theorem Same.setArtifact (h : Same value other) (key text : JsString) :
    Same (setArtifact key text value) (setArtifact key text other) := by
  cases h with
  | refl => exact .refl _
  | array hItems => exact .array hItems
  | object hFields =>
    refine .object (hFields.map fun field member hSame => ?_)
    cases hSame with
    | intro name hValue =>
      dsimp only
      split
      · exact .intro name (hValue.setText key text)
      · exact .intro name hValue

theorem Value.Parsed.setText (h : value.Parsed) (key text : JsString) : (setText key text value).Parsed := by
  cases h with
  | object distinct hFields => exact .object (Assignment.nodup_assign distinct) (Assignment.forall_assign hFields (.string text))
  | null => exact .null
  | bool b => exact .bool b
  | integer z => exact .integer z
  | fraction h => exact .fraction h
  | infinity negative => exact .infinity negative
  | string s => exact .string s
  | array h => exact .array h

theorem Value.Parsed.setArtifact (h : value.Parsed) (key text : JsString) : (setArtifact key text value).Parsed := by
  cases h with
  | object distinct hFields =>
    rename_i fields
    have hKeys : (fields.map fun field => if field.1 = units "artifact" then (field.1, Evidence.setText key text field.2) else field).map
        Prod.fst = fields.map Prod.fst := by
      rw [List.map_map]
      refine List.map_congr_left fun field _ => ?_
      rw [Function.comp_apply]
      split <;> rfl
    refine .object (hKeys ▸ distinct) (List.forall_mem_map.mpr fun field hField => ?_)
    split
    · exact (hFields field hField).setText key text
    · exact hFields field hField
  | null => exact .null
  | bool b => exact .bool b
  | integer z => exact .integer z
  | fraction h => exact .fraction h
  | infinity negative => exact .infinity negative
  | string s => exact .string s
  | array h => exact .array h

theorem time_ne_hash : units "generatedAt" ≠ units "logicalHash" := units_injective.ne (by decide)

theorem artifact_of_logicalHash {hash : JsString} (h : logicalHash value = some hash) : ∃ fields artifact,
    value = .object fields ∧ (units "artifact", .object artifact) ∈ fields ∧ (units "logicalHash", .string hash) ∈ artifact := by
  have hMember : ∀ (value : Value) (key : String), member value key ≠ .undefined →
      ∃ fields, value = .object fields ∧ (units key, member value key) ∈ fields := by
    intro value key hDefined
    cases value with
    | object fields =>
      rw [member] at hDefined ⊢
      cases hFind : fields.find? fun field => field.1 = units key with
      | none =>
        rw [hFind] at hDefined
        exact absurd rfl hDefined
      | some field =>
        have hKey : field.1 = units key := by simpa using List.find?_some hFind
        refine ⟨fields, rfl, ?_⟩
        rw [← hKey]
        exact List.mem_of_find?_eq_some hFind
    | undefined | null | bool | number | infinity | string | array => exact absurd rfl hDefined
  rw [logicalHash] at h
  have hText : member (member value "artifact") "logicalHash" = .string hash := by
    cases hHash : member (member value "artifact") "logicalHash" with
    | string s =>
      rw [hHash] at h
      rw [show s = hash from Option.some.inj h]
    | undefined | null | bool | number | infinity | array | object =>
      rw [hHash] at h
      cases h
  obtain ⟨artifact, hArtifact, hHash⟩ := hMember (member value "artifact") "logicalHash" (by rw [hText]; exact Value.noConfusion)
  obtain ⟨fields, hValue, hField⟩ := hMember value "artifact" (by rw [hArtifact]; exact Value.noConfusion)
  rw [hArtifact] at hField
  rw [hText] at hHash
  exact ⟨fields, artifact, hValue, hField, hHash⟩

theorem untimed_of_logical {hash : JsString} (hValue : value.Parsed) (h : logicalHash value = some hash) :
    setArtifact (units "logicalHash") hash (logicalReport value) = untimed value ∧
    setArtifact (units "logicalHash") [] (untimed value) = logicalReport value := by
  obtain ⟨fields, artifact, rfl, hArtifact, hHash⟩ := artifact_of_logicalHash h
  cases hValue with
  | object distinct hFields =>
    cases hFields _ hArtifact with
    | object distinctArtifact _ =>
      have hKey : units "logicalHash" ∈ Assignment.keys artifact := List.mem_map_of_mem hHash
      have hOnly : ∀ field ∈ fields, field.1 = units "artifact" → field.2 = .object artifact := fun field hField hSame =>
        eq_of_key distinct (hSame ▸ hField) hArtifact
      have hSwap : setText (units "generatedAt") [] (setText (units "logicalHash") [] (.object artifact)) =
          setText (units "logicalHash") [] (setText (units "generatedAt") [] (.object artifact)) := by
        rw [setText, setText, setText, setText, Assignment.assign_comm time_ne_hash hKey]
      have hRestore : setText (units "logicalHash") hash (setText (units "logicalHash") [] (setText (units "generatedAt") []
          (.object artifact))) = setText (units "generatedAt") [] (.object artifact) := by
        rw [setText, setText, setText, Assignment.assign_assign, ← Assignment.assign_comm time_ne_hash hKey,
          Assignment.assign_self distinctArtifact hHash]
      simp only [logicalReport, untimed, setArtifact, List.map_map]
      constructor
      · refine congrArg Value.object (List.map_congr_left fun field hField => ?_)
        simp only [Function.comp_apply]
        by_cases hSame : field.1 = units "artifact"
        · simp only [if_pos hSame, hOnly field hField hSame, hSwap, hRestore]
        · simp only [if_neg hSame]
      · refine congrArg Value.object (List.map_congr_left fun field hField => ?_)
        simp only [Function.comp_apply]
        by_cases hSame : field.1 = units "artifact"
        · simp only [if_pos hSame, hOnly field hField hSame, hSwap]
        · simp only [if_neg hSame]

theorem validateEvidenceReport_ok {report : Value} (h : validateEvidenceReport collation value = .ok report) :
    logicalHash value = some (hashLogicalReport collation value) := by
  obtain ⟨normal, hNormal, hCheck⟩ := Effect.bind_eq_ok h
  have hSame : normal = value := by
    rw [normalizeEvidenceReport] at hNormal
    split_ifs at hNormal
    exact (Except.ok.inj hNormal).symm
  subst hSame
  split at hCheck
  · cases hCheck
  · rename_i hHash
    exact not_not.mp hHash

/-- Built reports are accepted after they were written and read back. Two accepted values with the same hash are the same
report exactly when the numbers that are too large for a double stand at the same places in both. -/
theorem report_tamper_evident (collation : Collation) :
    (∀ input report json, buildEvidenceReport collation input = some report → reparsed report.toValue = some json →
      validateEvidenceReport collation json = .ok json) ∧
    ∀ value other report report', value.Parsed → other.Parsed → validateEvidenceReport collation value = .ok report →
      validateEvidenceReport collation other = .ok report' → logicalHash value = logicalHash other →
      Set.InjOn sha256 {stableStringify collation (logicalReport value), stableStringify collation (logicalReport other)} →
      (SameExceptTime value other ↔ SameInfinities (logicalReport value) (logicalReport other)) := by
  refine ⟨fun input report json => validate_built, ?_⟩
  intro value other report report' hValue hOther hReport hReport' hHash hInjective
  have hSeal := validateEvidenceReport_ok hReport
  have hSeal' := validateEvidenceReport_ok hReport'
  have hDigests : hashLogicalReport collation value = hashLogicalReport collation other :=
    Option.some.inj (hSeal.symm.trans (hHash.trans hSeal'))
  have hText := hInjective (.inl rfl) (.inr rfl) (units_injective hDigests)
  have hSame := same_iff ((hValue.setArtifact _ _).setArtifact _ _) ((hOther.setArtifact _ _).setArtifact _ _) hText
  obtain ⟨hBack, hOut⟩ := untimed_of_logical hValue hSeal
  obtain ⟨hBack', hOut'⟩ := untimed_of_logical hOther (hHash ▸ hSeal)
  refine Iff.trans ?_ hSame
  constructor
  · intro hTimes
    have hLogical := hTimes.setArtifact (units "logicalHash") []
    rwa [hOut, hOut'] at hLogical
  · intro hLogical
    have hTimes := Same.setArtifact hLogical (units "logicalHash") (hashLogicalReport collation value)
    rwa [← logicalReport, ← logicalReport, hBack, hBack'] at hTimes

/-! ## A number that is too large -/

def sampleWith (time : String) (attempts : Value) (hash : JsString) : Value := record [("schemaVersion", count 1),
  ("artifact", record [("generatedAt", text time), ("logicalHash", .string hash), ("canonicalization", text CANONICALIZATION)]),
  ("run", record [("id", text "run-1")]), ("egress", record [("productionAttempts", attempts)]), ("findings", .array []),
  ("summary", record [("passed", .bool true)])]

def sampleReport (time : String) (attempts : Value) : Value :=
  sampleWith time attempts (hashLogicalReport unitLe (sampleWith time attempts []))

theorem sample_logical (time : String) (attempts : Value) (hash : JsString) :
    logicalReport (sampleWith time attempts hash) = logicalReport (sampleWith "" attempts []) := by
  simp [logicalReport, sampleWith, record, setArtifact, setText, Assignment.assign, Assignment.keys, units_injective.eq_iff]

theorem sample_accepted (time : String) (attempts : Value) :
    validateEvidenceReport unitLe (sampleReport time attempts) = .ok (sampleReport time attempts) := by
  have hHash : hashLogicalReport unitLe (sampleReport time attempts) = hashLogicalReport unitLe (sampleWith time attempts []) := by
    rw [sampleReport, hashLogicalReport, hashLogicalReport, sample_logical, sample_logical time attempts []]
  have hMembers : ∀ hash key, member (sampleWith time attempts hash) key = _ := fun hash key => by rw [sampleWith, member_record]
  refine Acceptable.validate ⟨rfl, ?_, ?_, ?_, ?_, ?_, ?_⟩
  · rw [sampleReport, hMembers]
    rfl
  · rw [hHash, logicalHash, sampleReport, hMembers]
    exact congrArg stringOf (member_record _ _)
  · rw [sampleReport, hMembers]
    exact congrArg stringOf (member_record _ _)
  · rw [sampleReport, hMembers]
    exact (congrArg stringOf (member_record _ _)).trans_ne (Option.some_ne_none _)
  · rw [sampleReport, hMembers]
    exact congrArg isBool (member_record _ _)
  · rw [sampleReport, hMembers]
    rfl

theorem parsed_record {fields : List (String × Value)} (distinct : (fields.map Prod.fst).Nodup)
    (h : ∀ field ∈ fields, field.2.Parsed) : (record fields).Parsed := by
  refine .object ?_ (List.forall_mem_map.mpr h)
  have hKeys : (fields.map fun field => (units field.1, field.2)).map Prod.fst = (fields.map Prod.fst).map units := by
    rw [List.map_map, List.map_map]
    rfl
  rw [hKeys]
  exact distinct.map units_injective

theorem sample_parsed (time : String) {attempts : Value} (h : attempts.Parsed) : (sampleReport time attempts).Parsed := by
  refine parsed_record (by simp) ?_
  simp only [List.forall_mem_cons]
  refine ⟨.integer 1, parsed_record (by simp) ?_, parsed_record (by simp) ?_, parsed_record (by simp) ?_, .array (by simp),
    parsed_record (by simp) ?_, by simp⟩
  · simp only [List.forall_mem_cons]
    exact ⟨.string _, .string _, .string _, by simp⟩
  · simp only [List.forall_mem_cons]
    exact ⟨.string _, by simp⟩
  · simp only [List.forall_mem_cons]
    exact ⟨h, by simp⟩
  · simp only [List.forall_mem_cons]
    exact ⟨.bool true, by simp⟩

theorem sampleReport_logical (time : String) (attempts : Value) :
    logicalReport (sampleReport time attempts) = logicalReport (sampleWith "" attempts []) := sample_logical time attempts _

theorem sample_text : stableStringify unitLe (logicalReport (sampleWith "" .null [])) =
    stableStringify unitLe (logicalReport (sampleWith "" (.infinity false) [])) := by
  have hRead : reparsed (sampleWith "" (.infinity false) []) = some (sampleWith "" .null []) := rfl
  have hTree : stableTree unitLe (logicalReport (sampleWith "" .null [])) =
      stableTree unitLe (logicalReport (sampleWith "" (.infinity false) [])) := by
    refine stableTree_logicalReport (fun field hField hKey => ?_) hRead
    simp only [List.map_cons, List.map_nil, List.mem_cons, List.not_mem_nil, or_false] at hField
    obtain rfl | rfl | rfl | rfl | rfl | rfl := hField
    · exact rfl
    · exact rfl
    · exact absurd (units_injective hKey) (by decide)
    · exact absurd (units_injective hKey) (by decide)
    · exact absurd (units_injective hKey) (by decide)
    · exact absurd (units_injective hKey) (by decide)
  rw [stableStringify, stableStringify, hTree]

theorem sample_logicalHash (time : String) (attempts : Value) :
    logicalHash (sampleReport time attempts) = some (hashLogicalReport unitLe (sampleWith time attempts [])) := by
  rw [logicalHash, sampleReport, sampleWith, member_record]
  exact congrArg stringOf (member_record _ _)

theorem sample_infinity (time : String) {attempts : Value} (h : attempts.Parsed) :
    HasInfinity false [.key (units "egress"), .key (units "productionAttempts")] (untimed (sampleReport time attempts)) ↔
      attempts = .infinity false := by
  have hParsed : (untimed (sampleReport time attempts)).Parsed := (sample_parsed time h).setArtifact _ _
  have hEgress : (record [("productionAttempts", attempts)]).Parsed := parsed_record (by simp) (by simpa using h)
  cases hParsed with
  | object distinct _ =>
    cases hEgress with
    | object distinctEgress _ =>
      have hKey : units "egress" ≠ units "artifact" := units_injective.ne (by decide)
      refine (hasInfinity_member distinct ?_).trans (hasInfinity_member distinctEgress List.mem_cons_self)
      refine List.mem_map.mpr ⟨(units "egress", record [("productionAttempts", attempts)]), ?_, if_neg hKey⟩
      exact .tail _ (.tail _ (.tail _ (.head _)))

/-- The report before and after 1e999 took the place of null. -/
theorem infinity_undetected : ∃ value other, value.Parsed ∧ other.Parsed ∧ validateEvidenceReport unitLe value = .ok value ∧
    validateEvidenceReport unitLe other = .ok other ∧ logicalHash value = logicalHash other ∧
    Set.InjOn sha256 {stableStringify unitLe (logicalReport value), stableStringify unitLe (logicalReport other)} ∧
    ¬SameExceptTime value other := by
  have hTexts : stableStringify unitLe (logicalReport (sampleReport "" .null)) =
      stableStringify unitLe (logicalReport (sampleReport "" (.infinity false))) := by
    rw [sampleReport_logical, sampleReport_logical, sample_text]
  refine ⟨sampleReport "" .null, sampleReport "" (.infinity false), sample_parsed "" .null, sample_parsed "" (.infinity false),
    sample_accepted "" .null, sample_accepted "" (.infinity false), ?_, ?_, ?_⟩
  · rw [sample_logicalHash, sample_logicalHash, hashLogicalReport, hashLogicalReport, sample_text]
  · rw [hTexts, Set.pair_eq_singleton]
    exact Set.injOn_singleton _ _
  · intro hSame
    have hPlace := hSame.sameInfinities false [.key (units "egress"), .key (units "productionAttempts")]
    rw [sample_infinity "" .null, sample_infinity "" (.infinity false)] at hPlace
    cases hPlace.mpr rfl

theorem report_tamper_evident_time : SameExceptTime (sampleReport "2026-01-01T00:00:00.000Z" .null) (sampleReport "" .null) := by
  have hLogical : logicalReport (sampleReport "2026-01-01T00:00:00.000Z" .null) = logicalReport (sampleReport "" .null) := by
    rw [sampleReport_logical, sampleReport_logical]
  have hHash : hashLogicalReport unitLe (sampleWith "2026-01-01T00:00:00.000Z" .null []) = hashLogicalReport unitLe (sampleWith "" .null []) := by
    rw [hashLogicalReport, hashLogicalReport, sample_logical]
  refine ((report_tamper_evident unitLe).2 _ _ _ _ (sample_parsed _ .null) (sample_parsed _ .null) (sample_accepted _ .null)
    (sample_accepted _ .null) ?_ ?_).mpr ?_
  · rw [sample_logicalHash, sample_logicalHash, hHash]
  · rw [hLogical, Set.pair_eq_singleton]
    exact Set.injOn_singleton _ _
  · rw [hLogical]
    exact fun _ _ => Iff.rfl

end GhostApi.Evidence
