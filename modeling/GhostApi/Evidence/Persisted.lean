import GhostApi.Evidence.EventLines

/-!
# The report on the events of the log

generateEvidenceReport reads the log and builds a report. It considers every
event of the log only when the reader's limits and the cuts of the report leave
all events in and every event has the bodies that the search for retries reads.
-/

namespace GhostApi.Evidence

open Js Rotation Transition
open Contracts (ContractDiff)
open Policy (JsString units)
open Scenarios (includes sanitizeSecrets sanitizeSecretsValue toLowerCase)
open Server (ProxyEvent LogState LogStep eventLog logStep_cases sound_of_run boundedEvent serialized byteLength fileBytes
  EVENT_LOG_ARCHIVES)

def MAX_REPORT_BYTES : Nat := 512 * 1024

/-! ## The text of a report -/

def indentOf (depth : Nat) : List Char := List.replicate (2 * depth) ' '

/-- The entries of an array or an object on lines of their own. -/
def bracketed (depth : Nat) (first last : Char) (entries : List (List Char)) : List Char :=
  if entries = [] then [first, last]
  else first :: '\n' :: ([',', '\n'].intercalate entries ++ '\n' :: (indentOf depth ++ [last]))

mutual
/-- JSON.stringify(value, null, 2) at a given nesting depth. -/
def pretty (depth : Nat) : Value → List Char
  | .undefined | .null | .infinity _ => Json.print .null
  | .bool b => Json.print (.bool b)
  | .number n => (numberJson n).print
  | .string s => quoteText s
  | .array items => bracketed depth '[' ']' (prettyItems (depth + 1) items)
  | .object fields => bracketed depth '\x7b' '\x7d' (prettyFields (depth + 1) fields)

def prettyItems (depth : Nat) : List Value → List (List Char)
  | [] => []
  | item :: rest => (indentOf depth ++ pretty depth item) :: prettyItems depth rest

/-- The members that are not undefined. -/
def prettyFields (depth : Nat) : Members → List (List Char)
  | [] => []
  | (_, .undefined) :: rest => prettyFields depth rest
  | (key, value) :: rest => (indentOf depth ++ (quoteText key ++ ':' :: ' ' :: pretty depth value)) :: prettyFields depth rest
end

def EvidenceReport.fileText (report : EvidenceReport) : String := String.ofList (pretty 0 report.toValue ++ ['\n'])

/-! ## generateEvidenceReport -/

structure Loaded where
  /-- As JSON.parse returned it; none when there is no run. -/
  run : Option JsValue
  policy : Option (ReportPolicy × JsString)
  contractDiff : Option ContractDiff
  generatedAt : JsString
  ghostApiVersion : JsString

/-- run?.evidence.policy?.[key]; none when it throws. -/
def Loaded.policyMember (loaded : Loaded) (key : String) : Option JsValue := match loaded.run with
  | none => some .undefined
  | some evidence => if isNullish evidence then none else some (prop (prop evidence "policy") key)

def readStringArray (value : JsValue) : List JsString := uniqueSorted (((asItems value).filterMap asText).map limitText)

def Loaded.requirements (loaded : Loaded) : Option (Option JsString × List JsString) := match loaded.policy with
  | some policy => some (some policy.2, policy.1.required)
  | none => do
    let hash ← loaded.policyMember "policyHash"
    let required ← loaded.policyMember "requiredScenarios"
    some (readString (asText hash), readStringArray required)

def inputOf (loaded : Loaded) (events : List ProxyEvent) : Option ReportInput := loaded.requirements.map fun requirements =>
  { events := events
    policy := loaded.policy.map Prod.fst
    policyHash := requirements.1
    requiredScenarios := some requirements.2
    runEvidence := loaded.run.getD .null
    contractDiff := loaded.contractDiff
    generatedAt := loaded.generatedAt
    ghostApiVersion := some loaded.ghostApiVersion }

section Generate

variable (collation : Collation) (loaded : Loaded) (files : Files String)

def builtReport : Except EvidenceFailure EvidenceReport := do
  let events ← readPersistedEvents files
  match (inputOf loaded events).bind (buildEvidenceReport collation) with
  | some report => .ok report
  | none => .error .typeError

def generateEvidenceReport : Except EvidenceFailure EvidenceReport := do
  let report ← builtReport collation loaded files
  if MAX_REPORT_BYTES < byteLength report.fileText then .error .reportTooLarge else .ok report

def ReportFits : Prop := ∀ report, builtReport collation loaded files = .ok report → byteLength report.fileText ≤ MAX_REPORT_BYTES

def EvidenceReport.warnsOfTruncation (report : EvidenceReport) : Prop := limitText (units TRUNCATION_WARNING) ∈ report.warnings

def DropsNothing : Prop := ∃ events input report, readPersistedEvents files = .ok events ∧ inputOf loaded events = some input ∧
  generateEvidenceReport collation loaded files = .ok report ∧
  (report.warnsOfTruncation ∨ consideredEvents input = (persistedEvents files).map sanitizeEvent) ∧
  report.failureCount = (consideredEvents input).countP fun event => isFailure event.statusCode

/-- Looking for a retry does not throw: unless the status tells, the response is there, and the request too when the
response does not mention retry-after. -/
def HasBodies (event : ProxyEvent) : Prop := event.statusCode = .integer 429 ∨ event.response ≠ .undefined ∧
  (event.request ≠ .undefined ∨ includes (toLowerCase ((stringify (sanitizeEvent event).response).getD "")) "retry-after" = true)

structure WithinLimits : Prop where
  bytes : fileBytes (files.content EVENT_LOG_ARCHIVES) ≤ MAX_JSONL_BYTES
  events : (files.content EVENT_LOG_ARCHIVES).length ≤ MAX_EVENTS_FOR_REPORT
  failures : ∀ event ∈ (persistedEvents files).drop MAX_ATTEMPTS, isFailure event.statusCode = false
  bodies : ∀ event ∈ persistedEvents files, HasBodies event
  evidence : loaded.policy = none → ∀ evidence, loaded.run = some evidence → isNullish evidence = false
  runEvents : ∀ event ∈ asItems (prop (loaded.run.getD .null) "events"), isNullish event = false

end Generate

/-! ## Retries -/

theorem stringify_eq_none {value : JsValue} : stringify value = none ↔ value = .undefined := by
  rw [stringify, Option.map_eq_none_iff]
  constructor
  · intro h
    cases value with
    | undefined => rfl
    | number n => cases n <;> (rw [JsValue.written] at h; cases h)
    | null | bool | string | array | object =>
      rw [JsValue.written] at h
      cases h
  · rintro rfl
    rw [JsValue.written]

theorem sanitizeSecretsValue_eq_undefined {value : JsValue} {key : Option String} :
    sanitizeSecretsValue key value = .undefined ↔ value = .undefined := by
  cases value with
  | undefined =>
    rw [sanitizeSecretsValue]
    all_goals simp
  | null | bool | number | string | array | object =>
    rw [sanitizeSecretsValue]
    all_goals simp

theorem sanitizeEvent_response (event : ProxyEvent) :
    (sanitizeEvent event).response = sanitizeSecrets (sanitizeSecretsValue (some "response") event.response) := rfl

theorem sanitizeEvent_request (event : ProxyEvent) :
    (sanitizeEvent event).request = sanitizeSecrets (sanitizeSecretsValue (some "request") event.request) := rfl

theorem isRetry_isSome {event : ProxyEvent} : (isRetry (sanitizeEvent event)).isSome = true ↔ HasBodies event := by
  have hResponse : stringify (sanitizeEvent event).response = none ↔ event.response = .undefined := by
    rw [stringify_eq_none, sanitizeEvent_response, sanitizeSecrets, sanitizeSecretsValue_eq_undefined,
      sanitizeSecretsValue_eq_undefined]
  have hRequest : stringify (sanitizeEvent event).request = none ↔ event.request = .undefined := by
    rw [stringify_eq_none, sanitizeEvent_request, sanitizeSecrets, sanitizeSecretsValue_eq_undefined,
      sanitizeSecretsValue_eq_undefined]
  rw [isRetry, HasBodies, hasRetryAfter, ne_eq, ne_eq, ← hResponse, ← hRequest]
  change (if event.statusCode = _ then _ else _ : Option Bool).isSome = true ↔ _
  by_cases hStatus : event.statusCode = .integer 429
  · simp [hStatus]
  · rw [if_neg hStatus]
    cases hText : stringify (sanitizeEvent event).response with
    | none => simp [hStatus]
    | some response =>
      by_cases hMentions : includes (toLowerCase response) "retry-after" = true
      · simp [hStatus, hMentions]
      · cases stringify (sanitizeEvent event).request <;> simp [hStatus, hMentions]

theorem retryCount_isSome {events : List SanitizedEvent} :
    (retryCount events).isSome = true ↔ ∀ event ∈ events, (isRetry event).isSome = true := by
  rw [retryCount, Option.isSome_map]
  induction events with
  | nil => simp
  | cons event rest ih =>
    rw [List.mapM_cons, List.forall_mem_cons]
    cases hEvent : isRetry event with
    | none => simp
    | some retry =>
      rw [← ih]
      cases hRest : rest.mapM isRetry <;> simp

/-! ## When the report is built -/

variable {collation : Collation} {loaded : Loaded} {files : Files String}

theorem buildEvidenceReport_isSome {input : ReportInput} : (buildEvidenceReport collation input).isSome = true ↔
    (∀ event ∈ input.events.take MAX_EVENTS_FOR_REPORT, HasBodies event) ∧ ∀ event ∈ runEvents input, isNullish event = false := by
  have hRetries : (retryCount (consideredEvents input)).isSome = true ↔
      ∀ event ∈ input.events.take MAX_EVENTS_FOR_REPORT, HasBodies event := by
    rw [retryCount_isSome, consideredEvents, List.forall_mem_map]
    exact forall_congr' fun event => imp_congr_right fun _ => isRetry_isSome
  rw [← hRetries, buildEvidenceReport]
  cases retryCount (consideredEvents input) with
  | none => simp
  | some retries =>
    cases hNullish : (runEvents input).any isNullish with
    | true =>
      rw [List.any_eq_true] at hNullish
      simpa using hNullish
    | false =>
      rw [List.any_eq_false] at hNullish
      simpa using hNullish

theorem requirements_isSome : loaded.requirements.isSome = true ↔
    (loaded.policy = none → ∀ evidence, loaded.run = some evidence → isNullish evidence = false) := by
  rw [Loaded.requirements]
  cases loaded.policy with
  | some policy => simp
  | none =>
    cases hRun : loaded.run with
    | none => simp [Loaded.policyMember, hRun]
    | some evidence => cases hNullish : isNullish evidence <;> simp [Loaded.policyMember, hRun, hNullish]

theorem inputOf_eq_some {events : List ProxyEvent} {input : ReportInput} (h : inputOf loaded events = some input) :
    input.events = events ∧ input.runEvidence = loaded.run.getD .null ∧ loaded.requirements.isSome = true := by
  obtain ⟨requirements, hRequirements, rfl⟩ := Option.map_eq_some_iff.mp h
  exact ⟨rfl, rfl, by rw [hRequirements, Option.isSome_some]⟩

theorem not_warned {input : ReportInput} {report : EvidenceReport} (h : buildEvidenceReport collation input = some report)
    (hFew : input.events.length ≤ MAX_EVENTS_FOR_REPORT) : ¬report.warnsOfTruncation := by
  obtain ⟨retries, _, rfl⟩ := buildEvidenceReport_eq_some h
  have hOthers : ∀ warning ∈ ["Run evidence is missing; report cannot prove launcher lifecycle or blocked kernel egress attempts.",
      "Production egress attempts are not measured; " ++
        "the current backend records namespace lifecycle and GhostAPI-local traffic only.",
      "Target exceeded the configured run timeout.", "Target exceeded the configured output limit."],
      limitText (units warning) ≠ limitText (units TRUNCATION_WARNING) := by decide +kernel
  have hAll : ¬(consideredEvents input).length < input.events.length := by
    rw [consideredEvents, List.length_map, List.length_take]
    omega
  intro hWarned
  change _ ∈ sortTexts ((warningsOf input).map fun warning => limitText (units warning)) at hWarned
  rw [sortTexts, List.mem_mergeSort, List.mem_map] at hWarned
  obtain ⟨warning, hWarning, hSame⟩ := hWarned
  rw [warningsOf, if_neg hAll] at hWarning
  refine hOthers warning ?_ hSame
  simp only [List.mem_append, List.mem_cons, List.not_mem_nil, or_false, false_or] at hWarning ⊢
  obtain ((hWarning | hWarning) | hWarning) | hWarning := hWarning
  · split at hWarning
    · exact .inl (List.mem_singleton.mp hWarning)
    · cases hWarning
  · exact .inr (.inl hWarning)
  · split at hWarning
    · exact .inr (.inr (.inl (List.mem_singleton.mp hWarning)))
    · cases hWarning
  · split at hWarning
    · exact .inr (.inr (.inr (List.mem_singleton.mp hWarning)))
    · cases hWarning

theorem failureCount_iff {events : List SanitizedEvent} :
    (failures events).length = events.countP (fun event => isFailure event.statusCode) ↔
      ∀ event ∈ events.drop MAX_ATTEMPTS, isFailure event.statusCode = false := by
  have hKept : (failures events).length = (events.take MAX_ATTEMPTS).countP fun event => isFailure event.statusCode := by
    rw [failures, allowedAttempts, ← List.countP_eq_length_filter, ← List.map_take, List.countP_map]
    rfl
  have hSplit : events.countP (fun event => isFailure event.statusCode) =
      (events.take MAX_ATTEMPTS).countP (fun event => isFailure event.statusCode) +
        (events.drop MAX_ATTEMPTS).countP fun event => isFailure event.statusCode := by
    rw [← List.countP_append, List.take_append_drop]
  have hLate : (events.drop MAX_ATTEMPTS).countP (fun event => isFailure event.statusCode) = 0 ↔
      ∀ event ∈ events.drop MAX_ATTEMPTS, isFailure event.statusCode = false := by
    simp [List.countP_eq_zero]
  rw [hKept, hSplit, ← hLate]
  omega

/-! ## The runs of the log -/

def addsPrinted (_ : LogState) (step : LogStep) : Prop := ∀ event randomUUID, step = .addEvent event randomUUID → EventIsPrinted event

def HoldsLines (state : LogState) : Prop := (∀ line ∈ state.persisted, IsLine line) ∧
  ∀ line stage, state.holder = some (line, stage) → IsLine line

theorem isLine_bounded {event : ProxyEvent} (h : EventIsPrinted event) (randomUUID : String) :
    IsLine (serialized (boundedEvent event randomUUID)) := ⟨_, boundedEvent_printed h randomUUID, rfl⟩

theorem logStep_lines {state next : LogState} {step : LogStep} (h : HoldsLines state) (hAdds : addsPrinted state step)
    (hStep : Server.logStep state step = some next) : HoldsLines next := by
  obtain ⟨event, randomUUID, line, hSelf, _, hLine, rfl⟩ | ⟨line, stage, rfl, hHolder, rfl⟩ | ⟨line, stage, rfl, _, rfl⟩ | ⟨rfl, _, rfl⟩ :=
    logStep_cases hStep
  · have hIsLine : IsLine line := hLine ▸ isLine_bounded (hAdds event randomUUID hSelf) randomUUID
    refine ⟨h.1, fun other stage hHolder => ?_⟩
    cases hHolder
    exact hIsLine
  · have hIsLine := h.2 line stage hHolder
    cases stage with
    | remove =>
      refine ⟨h.1, fun other stage hOther => ?_⟩
      cases hOther
      exact hIsLine
    | shift index =>
      cases index with
      | zero =>
        refine ⟨h.1, fun other stage hOther => ?_⟩
        cases hOther
        exact hIsLine
      | succ index =>
        refine ⟨h.1, fun other stage hOther => ?_⟩
        cases hOther
        exact hIsLine
    | append =>
      refine ⟨fun other hOther => ?_, fun other stage hOther => by cases hOther⟩
      cases List.mem_append.mp hOther with
      | inl hOld => exact h.1 other hOld
      | inr hNew => exact List.mem_singleton.mp hNew ▸ hIsLine
  · exact ⟨h.1, fun other stage hOther => by cases hOther⟩
  · exact ⟨List.forall_mem_nil _, fun other stage hOther => by cases hOther⟩

theorem log_lines {steps : List LogStep} {state : LogState} (run : eventLog.Run addsPrinted steps state) :
    ∀ line ∈ state.log, IsLine line := by
  have hLines : HoldsLines state := by
    refine run.invariant ⟨List.forall_mem_nil _, fun line stage hHolder => by cases hHolder⟩ ?_
    intro before step after hBefore hAdds hStep
    exact logStep_lines hBefore hAdds hStep
  exact fun line hLine => hLines.1 line ((sound_of_run run).suffix.subset hLine)

/-! ## No event is dropped silently -/

theorem readPersistedEvents_eq_ok {events : List ProxyEvent} (h : ∀ line ∈ files.content EVENT_LOG_ARCHIVES, IsLine line)
    (hFew : (files.content EVENT_LOG_ARCHIVES).length ≤ MAX_EVENTS_FOR_REPORT) (hRead : readPersistedEvents files = .ok events) :
    events = persistedEvents files ∧ fileBytes (files.content EVENT_LOG_ARCHIVES) ≤ MAX_JSONL_BYTES := by
  rw [readPersistedEvents_few h hFew] at hRead
  split at hRead
  · rename_i hBytes
    exact ⟨(Except.ok.inj hRead).symm, hBytes⟩
  · cases hRead

theorem generated_built {events : List ProxyEvent} {input : ReportInput} {report : EvidenceReport}
    (hRead : readPersistedEvents files = .ok events) (hInput : inputOf loaded events = some input)
    (h : generateEvidenceReport collation loaded files = .ok report) : buildEvidenceReport collation input = some report := by
  obtain ⟨built, hBuilt, hWritten⟩ := Effect.bind_eq_ok h
  split at hWritten
  · cases hWritten
  · cases hWritten
    rw [builtReport, hRead, Effect.ok_bind, hInput, Option.bind_some] at hBuilt
    cases hReport : buildEvidenceReport collation input with
    | none =>
      rw [hReport] at hBuilt
      cases hBuilt
    | some built =>
      rw [hReport] at hBuilt
      rw [Except.ok.inj hBuilt]

theorem withinLimits_of_dropsNothing (hLines : ∀ line ∈ files.content EVENT_LOG_ARCHIVES, IsLine line)
    (h : DropsNothing collation loaded files) : WithinLimits loaded files := by
  obtain ⟨events, input, report, hRead, hInput, hReport, hConsidered, hFailures⟩ := h
  have hBuilt := generated_built hRead hInput hReport
  obtain ⟨hEvents, hEvidence, hRequirements⟩ := inputOf_eq_some hInput
  have hLength := readPersistedEvents_length hRead
  have hSame : consideredEvents input = (persistedEvents files).map sanitizeEvent :=
    hConsidered.resolve_left (not_warned hBuilt (by rwa [hEvents]))
  have hFew : (files.content EVENT_LOG_ARCHIVES).length ≤ MAX_EVENTS_FOR_REPORT := by
    have hCount := congrArg List.length hSame
    rw [consideredEvents, List.length_map, List.length_map, persistedEvents, length_events hLines, List.length_take] at hCount
    omega
  obtain ⟨rfl, hBytes⟩ := readPersistedEvents_eq_ok hLines hFew hRead
  have hSome : (buildEvidenceReport collation input).isSome = true := by rw [hBuilt, Option.isSome_some]
  obtain ⟨hBodies, hRunEvents⟩ := buildEvidenceReport_isSome.mp hSome
  rw [hEvents, List.take_of_length_le hLength] at hBodies
  rw [runEvents, hEvidence] at hRunEvents
  refine ⟨hBytes, hFew, ?_, hBodies, requirements_isSome.mp hRequirements, hRunEvents⟩
  obtain ⟨retries, _, rfl⟩ := buildEvidenceReport_eq_some hBuilt
  have hLate := failureCount_iff.mp hFailures
  rw [hSame, ← List.map_drop, List.forall_mem_map] at hLate
  exact hLate

theorem dropsNothing_of_withinLimits (hLines : ∀ line ∈ files.content EVENT_LOG_ARCHIVES, IsLine line)
    (hFits : ReportFits collation loaded files) (h : WithinLimits loaded files) : DropsNothing collation loaded files := by
  have hRead : readPersistedEvents files = .ok (persistedEvents files) := by
    rw [readPersistedEvents_few hLines h.events, if_pos h.bytes]
  have hLength := readPersistedEvents_length hRead
  obtain ⟨requirements, hRequirements⟩ := Option.isSome_iff_exists.mp (requirements_isSome.mpr h.evidence)
  obtain ⟨input, hInput⟩ : ∃ input, inputOf loaded (persistedEvents files) = some input :=
    ⟨_, by rw [inputOf, hRequirements, Option.map_some]⟩
  obtain ⟨hEvents, hEvidence, _⟩ := inputOf_eq_some hInput
  have hConsidered : consideredEvents input = (persistedEvents files).map sanitizeEvent := by
    rw [consideredEvents, hEvents, List.take_of_length_le hLength]
  have hSome : (buildEvidenceReport collation input).isSome = true := by
    rw [buildEvidenceReport_isSome, hEvents, List.take_of_length_le hLength, runEvents, hEvidence]
    exact ⟨h.bodies, h.runEvents⟩
  obtain ⟨report, hReport⟩ := Option.isSome_iff_exists.mp hSome
  have hBuilt : builtReport collation loaded files = .ok report := by
    rw [builtReport, hRead, Effect.ok_bind, hInput, Option.bind_some, hReport]
  refine ⟨_, input, report, hRead, hInput, ?_, .inr hConsidered, ?_⟩
  · have hSize := hFits report hBuilt
    rw [generateEvidenceReport, hBuilt, Effect.ok_bind, if_neg (by omega)]
  · obtain ⟨retries, _, rfl⟩ := buildEvidenceReport_eq_some hReport
    refine failureCount_iff.mpr ?_
    rw [hConsidered, ← List.map_drop, List.forall_mem_map]
    exact h.failures

theorem report_drops_nothing_iff {steps : List LogStep} {state : LogState} (run : eventLog.Run addsPrinted steps state)
    (hFits : ReportFits collation loaded state.files) :
    DropsNothing collation loaded state.files ↔ WithinLimits loaded state.files :=
  ⟨withinLimits_of_dropsNothing (log_lines run), dropsNothing_of_withinLimits (log_lines run) hFits⟩

/-! ## An event without a response -/

def bareEvent : ProxyEvent := { Server.eventWithPath "/tasks" with
  source := .behavior
  request := .object [("query", .object []), ("headers", .object []), ("body", .null)]
  response := .undefined }

def bareLoaded : Loaded := ⟨none, none, none, units "2026-08-16T12:00:00.000Z", units "0.1.0"⟩

theorem bareEvent_fits : byteLength (Server.sanitized bareEvent).json ≤ Server.MAX_EVENT_BYTES := by decide +kernel

theorem boundedEvent_bare : boundedEvent bareEvent "" = Server.sanitized bareEvent := by
  have hId : (if Server.isUuid bareEvent.id then bareEvent.id else "") = bareEvent.id := if_pos (by decide +kernel)
  rw [boundedEvent, hId]
  exact if_pos bareEvent_fits

theorem bareEvent_printed : EventIsPrinted bareEvent where
  statusCode := trivial
  durationMs := trivial
  request := by
    refine .object ?_
    simp only [List.forall_mem_cons]
    exact ⟨.object (List.forall_mem_nil _), .object (List.forall_mem_nil _), .null, List.forall_mem_nil _⟩
  response := .undefined

theorem bare_run : ∃ state, eventLog.Run addsPrinted [.addEvent bareEvent "", .advance] state ∧
    state.log = [serialized (Server.sanitized bareEvent)] := by
  have hShort : byteLength (serialized (boundedEvent bareEvent "")) ≤ Server.MAX_EVENT_LOG_BYTES := by
    have hJson := bareEvent_fits
    have hLimits : Server.MAX_EVENT_BYTES + 1 ≤ Server.MAX_EVENT_LOG_BYTES := by decide
    have hNewline : "\n".utf8ByteSize = 1 := by decide
    rw [boundedEvent_bare, serialized, byteLength, String.utf8ByteSize_append, hNewline]
    rw [byteLength] at hJson
    omega
  have hPrinted : ∀ state, addsPrinted state (.addEvent bareEvent "") := by
    intro state event randomUUID hSame
    cases hSame
    exact bareEvent_printed
  obtain ⟨state, run, _, hLog⟩ := Server.run_of_short addsPrinted hPrinted (fun _ _ _ hSame => by cases hSame) hShort
  rw [boundedEvent_bare] at hLog
  exact ⟨state, run, hLog⟩

theorem not_hasBodies_bare : ¬HasBodies (rereadEvent (Server.sanitized bareEvent)) := by
  have hResponse : (rereadEvent (Server.sanitized bareEvent)).response = .undefined := by
    change reread (sanitizeSecretsValue (some "response") .undefined) = .undefined
    rw [sanitizeSecretsValue_eq_undefined.mpr rfl, reread, JsValue.written]
    rfl
  rintro (hStatus | ⟨hDefined, _⟩)
  · cases hStatus
  · exact hDefined hResponse

theorem not_built_bare {state : LogState} (hLog : state.log = [serialized (Server.sanitized bareEvent)]) :
    ¬WithinLimits bareLoaded state.files ∧ ReportFits collation bareLoaded state.files := by
  have hPrinted : EventIsPrinted (Server.sanitized bareEvent) := boundedEvent_bare ▸ boundedEvent_printed bareEvent_printed ""
  have hContent : state.files.content EVENT_LOG_ARCHIVES = [serialized (Server.sanitized bareEvent)] := hLog
  have hEvents : persistedEvents state.files = [rereadEvent (Server.sanitized bareEvent)] := by
    rw [persistedEvents, hContent, List.filterMap_cons_some (lineEvent_serialized hPrinted), List.filterMap_nil]
  have hLines : ∀ line ∈ state.files.content EVENT_LOG_ARCHIVES, IsLine line := by
    rw [hContent, List.forall_mem_singleton]
    exact ⟨_, hPrinted, rfl⟩
  have hFew : (state.files.content EVENT_LOG_ARCHIVES).length ≤ MAX_EVENTS_FOR_REPORT := by
    rw [hContent]
    decide
  constructor
  · intro hLimits
    have hBodies := hLimits.bodies
    rw [hEvents, List.forall_mem_singleton] at hBodies
    exact not_hasBodies_bare hBodies
  · intro report hBuilt
    obtain ⟨events, hRead, hReport⟩ := Effect.bind_eq_ok hBuilt
    obtain ⟨rfl, _⟩ := readPersistedEvents_eq_ok hLines hFew hRead
    split at hReport
    · rename_i report hSome
      obtain ⟨input, hInput, hSome⟩ := Option.bind_eq_some_iff.mp hSome
      have hBodies := (buildEvidenceReport_isSome.mp (Option.isSome_of_eq_some hSome)).1
      rw [(inputOf_eq_some hInput).1, hEvents] at hBodies
      exact absurd (hBodies _ List.mem_cons_self) not_hasBodies_bare
    · cases hReport

theorem bare_event_breaks_report : ∃ steps state, eventLog.Run addsPrinted steps state ∧ ReportFits unitLe bareLoaded state.files ∧
    ¬DropsNothing unitLe bareLoaded state.files := by
  obtain ⟨state, run, hLog⟩ := bare_run
  obtain ⟨hLimits, hFits⟩ := not_built_bare hLog
  exact ⟨_, state, run, hFits, fun h => hLimits (withinLimits_of_dropsNothing (log_lines run) h)⟩

theorem report_drops_nothing_iff_bare : ∃ steps state, eventLog.Run addsPrinted steps state ∧
    (DropsNothing unitLe bareLoaded state.files ↔ WithinLimits bareLoaded state.files) := by
  obtain ⟨state, run, hLog⟩ := bare_run
  exact ⟨_, state, run, report_drops_nothing_iff run (not_built_bare hLog).2⟩

end GhostApi.Evidence
