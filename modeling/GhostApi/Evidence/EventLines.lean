import GhostApi.Evidence.Report
import GhostApi.Js.Parse
import GhostApi.Reliability.Restore

/-!
# Reading the event log for a report

readPersistedEvents reads the archives and the log, the oldest first, until it
has a thousand events. It refuses more than eight mebibytes.
-/

namespace GhostApi.Evidence

open Js Rotation
open Reliability (parsed parsedItems parsedFields)
open Scenarios (sanitizeSecretsValue sanitizeItems sanitizeFields maskByType maskItems isSecretFieldName isCardNumberField)
open Server (ProxyEvent EventSource sanitized boundEvent boundedEvent serialized byteLength fileBytes EVENT_LOG_ARCHIVES)

def MAX_JSONL_BYTES : Nat := 8 * 1024 * 1024

inductive EvidenceFailure
  /-- Event evidence exceeds 8388608 bytes. -/
  | eventsTooLarge
  /-- What JSON.parse throws. -/
  | notJson
  /-- A property of null or undefined was read. -/
  | typeError
  /-- Evidence report exceeds 524288 bytes. -/
  | reportTooLarge
  deriving DecidableEq

/-! ## Reading a line -/

def asString : JsValue → Option String
  | .string s => some s
  | _ => none

/-- A number that is not finite is written as null. -/
def readNumber : JsValue → Option JsNumber
  | .number n => some n
  | .null => some .nonFinite
  | _ => none

def readSource (value : JsValue) : Option EventSource :=
  [EventSource.state, .cache, .ai, .error, .fallback, .stream, .fault, .behavior].find? fun source => isText value source.text

def eventOf (value : JsValue) : Option ProxyEvent := do
  let id ← asString (prop value "id")
  let timestamp ← asString (prop value "timestamp")
  let provider ← asString (prop value "provider")
  let method ← asString (prop value "method")
  let path ← asString (prop value "path")
  let statusCode ← readNumber (prop value "statusCode")
  let source ← readSource (prop value "source")
  let durationMs ← readNumber (prop value "durationMs")
  some ⟨id, timestamp, provider, method, path, statusCode, source, durationMs, prop value "request", prop value "response"⟩

def readEvent (line : List Char) : Option ProxyEvent := (Json.parse line).bind fun json => eventOf (parsed json)

/-! ## readPersistedEvents -/

/-- The lines of a file; the result tells whether a thousand events have been read. -/
def readLines : List (List Char) → List ProxyEvent → Except EvidenceFailure (List ProxyEvent × Bool)
  | [], events => .ok (events, false)
  | line :: rest, events =>
    if trimList line = [] then readLines rest events
    else match readEvent line with
      | none => .error .notJson
      | some event =>
        if MAX_EVENTS_FOR_REPORT ≤ events.length + 1 then .ok (events ++ [event], true) else readLines rest (events ++ [event])

/-- The files that are there, and the bytes and the events read so far. -/
def readFiles : List String → Nat → List ProxyEvent → Except EvidenceFailure (List ProxyEvent)
  | [], _, events => .ok events
  | source :: rest, bytes, events =>
    if MAX_JSONL_BYTES < bytes + byteLength source then .error .eventsTooLarge
    else do
      let read ← readLines (source.toList.splitOn '\n') events
      if read.2 then .ok read.1 else readFiles rest (bytes + byteLength source) read.1

def sources (files : Files String) : List String := [2, 1, 0].filterMap fun i => (files i).map String.join

def readPersistedEvents (files : Files String) : Except EvidenceFailure (List ProxyEvent) := readFiles (sources files) 0 []

/-! ## The events that the log holds -/

def lineEvent (line : String) : Option ProxyEvent := readEvent line.toList.dropLast

def persistedEvents (files : Files String) : List ProxyEvent := (files.content EVENT_LOG_ARCHIVES).filterMap lineEvent

/-! ## Printed numbers -/

def IsPrinted : JsNumber → Prop
  | .fraction text => Json.isFraction text = true
  | _ => True

inductive HasPrinted : JsValue → Prop
  | undefined : HasPrinted .undefined
  | null : HasPrinted .null
  | bool (b : Bool) : HasPrinted (.bool b)
  | number {n : JsNumber} (h : IsPrinted n) : HasPrinted (.number n)
  | string (s : String) : HasPrinted (.string s)
  | array {items : List JsValue} (h : ∀ item ∈ items, HasPrinted item) : HasPrinted (.array items)
  | object {fields : Fields} (h : ∀ field ∈ fields, HasPrinted field.2) : HasPrinted (.object fields)

structure EventIsPrinted (event : ProxyEvent) : Prop where
  statusCode : IsPrinted event.statusCode
  durationMs : IsPrinted event.durationMs
  request : HasPrinted event.request
  response : HasPrinted event.response

theorem written_plain {value : JsValue} (h : HasPrinted value) {json : Json} (hWritten : value.written = some json) : json.Plain := by
  induction value using JsValue.induction generalizing json with
  | undefined | null | bool | string =>
    rw [JsValue.written] at hWritten
    cases hWritten
    all_goals
      rw [Json.Plain]
      · trivial
      all_goals simp
  | number n =>
    cases h with
    | number hPrinted =>
      cases n with
      | fraction text =>
        rw [JsValue.written] at hWritten
        cases hWritten
        rw [Json.Plain]
        exact hPrinted
      | integer z =>
        rw [JsValue.written] at hWritten
        cases hWritten
        rw [Json.Plain]
        · trivial
        all_goals simp
      | nonFinite =>
        rw [JsValue.written] at hWritten
        cases hWritten
        rw [Json.Plain]
        · trivial
        all_goals simp
  | array items hItems =>
    rw [JsValue.written] at hWritten
    cases hWritten
    cases h with
    | array hPrinted =>
      rw [Json.Plain]
      induction items with
      | nil =>
        rw [writtenItems, Json.PlainItems]
        trivial
      | cons item rest ih =>
        rw [List.forall_mem_cons] at hItems hPrinted
        rw [writtenItems, Json.PlainItems]
        refine ⟨?_, ih hItems.2 hPrinted.2⟩
        cases hItem : item.written with
        | none =>
          rw [Option.getD_none, Json.Plain]
          · trivial
          all_goals simp
        | some json => exact hItems.1 hPrinted.1 hItem
  | object fields hFields =>
    rw [JsValue.written] at hWritten
    cases hWritten
    cases h with
    | object hPrinted =>
      rw [Json.Plain]
      induction fields with
      | nil =>
        rw [writtenFields, Json.PlainFields]
        trivial
      | cons field rest ih =>
        obtain ⟨key, value⟩ := field
        obtain ⟨hValue, hRest⟩ := List.forall_mem_cons.mp hFields
        obtain ⟨hPrintedValue, hPrintedRest⟩ := List.forall_mem_cons.mp hPrinted
        rw [writtenFields]
        split
        · rename_i json hJson
          rw [Json.PlainFields]
          exact ⟨hValue hPrintedValue hJson, ih hRest hPrintedRest⟩
        · exact ih hRest hPrintedRest

theorem maskByType_printed (value : JsValue) : HasPrinted (maskByType value) := by
  induction value using JsValue.induction with
  | array items hItems =>
    rw [maskByType]
    refine .array ?_
    induction items with
    | nil =>
      rw [maskItems]
      exact List.forall_mem_nil _
    | cons item rest ih =>
      rw [List.forall_mem_cons] at hItems
      rw [maskItems, List.forall_mem_cons]
      exact ⟨hItems.1, ih hItems.2⟩
  | object fields _ =>
    rw [maskByType]
    refine .object fun field hField => ?_
    obtain ⟨member, _, rfl⟩ := List.mem_map.mp hField
    exact .string _
  | string s =>
    rw [maskByType]
    exact .string _
  | undefined | null | bool | number =>
    rw [maskByType]
    · exact .string _
    all_goals simp

theorem sanitizeSecretsValue_printed {value : JsValue} (h : HasPrinted value) (key : Option String) :
    HasPrinted (sanitizeSecretsValue key value) := by
  induction value using JsValue.induction generalizing key with
  | array items hItems =>
    cases h with
    | array hPrinted =>
      rw [sanitizeSecretsValue]
      refine .array ?_
      induction items with
      | nil =>
        rw [sanitizeItems]
        exact List.forall_mem_nil _
      | cons item rest ih =>
        rw [List.forall_mem_cons] at hItems hPrinted
        rw [sanitizeItems, List.forall_mem_cons]
        exact ⟨hItems.1 hPrinted.1 key, ih hItems.2 hPrinted.2⟩
  | object fields hFields =>
    cases h with
    | object hPrinted =>
      rw [sanitizeSecretsValue]
      refine .object ?_
      induction fields with
      | nil =>
        rw [sanitizeFields]
        exact List.forall_mem_nil _
      | cons field rest ih =>
        obtain ⟨name, value⟩ := field
        obtain ⟨hValue, hRest⟩ := List.forall_mem_cons.mp hFields
        obtain ⟨hPrintedValue, hPrintedRest⟩ := List.forall_mem_cons.mp hPrinted
        rw [sanitizeFields, List.forall_mem_cons]
        refine ⟨?_, ih hRest hPrintedRest⟩
        dsimp only
        split
        · exact maskByType_printed value
        · exact hValue hPrintedValue (some name)
  | string s =>
    rw [sanitizeSecretsValue]
    exact .string _
  | undefined | null | bool | number =>
    rw [sanitizeSecretsValue]
    · exact h
    all_goals simp

theorem boundEvent_printed {event : ProxyEvent} (h : EventIsPrinted event) : EventIsPrinted (boundEvent event) := by
  by_cases hFits : byteLength event.json ≤ Server.MAX_EVENT_BYTES
  · rw [boundEvent, if_pos hFits]
    exact h
  · rw [boundEvent, if_neg hFits]
    exact ⟨h.statusCode, h.durationMs, .string _, .string _⟩

theorem boundedEvent_printed {event : ProxyEvent} (h : EventIsPrinted event) (randomUUID : String) :
    EventIsPrinted (boundedEvent event randomUUID) := by
  rw [boundedEvent]
  apply boundEvent_printed
  exact ⟨h.statusCode, h.durationMs, sanitizeSecretsValue_printed h.request _, sanitizeSecretsValue_printed h.response _⟩

/-! ## An event as it is read back -/

/-- What JSON.parse returns for what JSON.stringify wrote. -/
def reread (value : JsValue) : JsValue := (value.written.map parsed).getD .undefined

def rereadEvent (event : ProxyEvent) : ProxyEvent := { event with request := reread event.request, response := reread event.response }

theorem readSource_text (source : EventSource) : readSource (.string source.text) = some source := by
  cases source <;> rfl

theorem writtenFields_event (event : ProxyEvent) : ∃ statusCode durationMs, (JsValue.number event.statusCode).written = some statusCode ∧
    (JsValue.number event.durationMs).written = some durationMs ∧
    writtenFields event.fields = [("id", .string event.id), ("timestamp", .string event.timestamp), ("provider", .string event.provider),
      ("method", .string event.method), ("path", .string event.path), ("statusCode", statusCode),
      ("source", .string event.source.text), ("durationMs", durationMs)] ++
      (Json.optional "request" event.request.written ++ Json.optional "response" event.response.written) := by
  have hNumber : ∀ n : JsNumber, ∃ json, (JsValue.number n).written = some json := by
    intro n
    cases n <;> exact ⟨_, by rw [JsValue.written]⟩
  obtain ⟨statusCode, hStatus⟩ := hNumber event.statusCode
  obtain ⟨durationMs, hDuration⟩ := hNumber event.durationMs
  refine ⟨statusCode, durationMs, hStatus, hDuration, ?_⟩
  have hText : ∀ s : String, (JsValue.string s).written = some (.string s) := fun s => by rw [JsValue.written]
  simp only [Server.ProxyEvent.fields, writtenFields, hText, hStatus, hDuration]
  cases event.request.written <;> cases event.response.written <;> rfl

theorem readNumber_written {n : JsNumber} {json : Json} (h : (JsValue.number n).written = some json) :
    readNumber (parsed json) = some n := by
  cases n with
  | integer z =>
    rw [JsValue.written] at h
    cases h
    rw [parsed]
    rfl
  | fraction text =>
    rw [JsValue.written] at h
    cases h
    rw [parsed]
    rfl
  | nonFinite =>
    rw [JsValue.written] at h
    cases h
    rw [parsed]
    rfl

theorem parsedFields_append (fields others : List (String × Json)) :
    parsedFields (fields ++ others) = parsedFields fields ++ parsedFields others := by
  induction fields with
  | nil =>
    rw [parsedFields]
    rfl
  | cons field rest ih =>
    obtain ⟨key, value⟩ := field
    rw [List.cons_append, parsedFields, parsedFields, ih, List.cons_append]

def rereadFields (event : ProxyEvent) (statusCode durationMs : Json) : Fields :=
  [("id", .string event.id), ("timestamp", .string event.timestamp), ("provider", .string event.provider),
   ("method", .string event.method), ("path", .string event.path), ("statusCode", parsed statusCode),
   ("source", .string event.source.text), ("durationMs", parsed durationMs)] ++
  (parsedFields (Json.optional "request" event.request.written) ++ parsedFields (Json.optional "response" event.response.written))

theorem rereadFields_request (event : ProxyEvent) (statusCode durationMs : Json) :
    prop (.object (rereadFields event statusCode durationMs)) "request" = reread event.request := by
  rw [prop, rereadFields, reread]
  cases event.request.written with
  | none =>
    cases event.response.written <;> (simp only [Json.optional, parsedFields]; rfl)
  | some request =>
    simp only [Json.optional, parsedFields]
    rfl

theorem rereadFields_response (event : ProxyEvent) (statusCode durationMs : Json) :
    prop (.object (rereadFields event statusCode durationMs)) "response" = reread event.response := by
  rw [prop, rereadFields, reread]
  cases event.request.written <;> cases event.response.written <;> (simp only [Json.optional, parsedFields]; rfl)

theorem eventOf_written (event : ProxyEvent) : eventOf (parsed (.object (writtenFields event.fields))) = some (rereadEvent event) := by
  obtain ⟨statusCode, durationMs, hStatus, hDuration, hFields⟩ := writtenFields_event event
  have hValue : parsed (.object (writtenFields event.fields)) = .object (rereadFields event statusCode durationMs) := by
    simp only [hFields, parsed, parsedFields_append, parsedFields]
    rfl
  have hCode : prop (.object (rereadFields event statusCode durationMs)) "statusCode" = parsed statusCode := rfl
  have hSource : prop (.object (rereadFields event statusCode durationMs)) "source" = .string event.source.text := rfl
  have hTime : prop (.object (rereadFields event statusCode durationMs)) "durationMs" = parsed durationMs := rfl
  rw [hValue, eventOf, hCode, hSource, hTime, rereadFields_request, rereadFields_response, readNumber_written hStatus,
    readNumber_written hDuration, readSource_text]
  rfl

def IsLine (line : String) : Prop := ∃ event, EventIsPrinted event ∧ line = serialized event

theorem event_json (event : ProxyEvent) : event.json.toList = Json.print (.object (writtenFields event.fields)) := by
  rw [ProxyEvent.json, stringify, ProxyEvent.toValue, JsValue.written, Option.map_some, Option.getD_some, String.toList_ofList]

theorem event_plain {event : ProxyEvent} (h : EventIsPrinted event) : (Json.object (writtenFields event.fields)).Plain := by
  have hFields : HasPrinted (.object event.fields) := by
    refine .object ?_
    simp only [ProxyEvent.fields, List.forall_mem_cons]
    exact ⟨.string _, .string _, .string _, .string _, .string _, .number h.statusCode, .string _, .number h.durationMs, h.request,
      h.response, List.forall_mem_nil _⟩
  exact written_plain hFields (by rw [JsValue.written])

theorem readEvent_json {event : ProxyEvent} (h : EventIsPrinted event) : readEvent event.json.toList = some (rereadEvent event) := by
  rw [readEvent, event_json, Json.parse_print (event_plain h), Option.bind_some, eventOf_written]

theorem lineEvent_serialized {event : ProxyEvent} (h : EventIsPrinted event) : lineEvent (serialized event) = some (rereadEvent event) := by
  rw [lineEvent, serialized, String.toList_append, show "\n".toList = ['\n'] from rfl, List.dropLast_concat, readEvent_json h]

/-! ## What readPersistedEvents returns -/

theorem IsLine.event {line : String} (h : IsLine line) : ∃ event cs, lineEvent line = some event ∧ readEvent cs = some event ∧
    line.toList = cs ++ ['\n'] ∧ '\n' ∉ cs ∧ trimList cs ≠ [] := by
  obtain ⟨event, hPrinted, rfl⟩ := h
  refine ⟨rereadEvent event, event.json.toList, lineEvent_serialized hPrinted, readEvent_json hPrinted, ?_, ?_, ?_⟩
  · rw [serialized, String.toList_append]
    rfl
  · rw [event_json]
    exact Json.newline_not_mem_print (event_plain hPrinted)
  · rw [event_json]
    exact Json.trimList_print_ne_nil (event_plain hPrinted)

theorem toList_join_cons (line : String) (rest : List String) :
    (String.join (line :: rest)).toList = line.toList ++ (String.join rest).toList := by
  simp [String.join_cons]

theorem length_events {lines : List String} (h : ∀ line ∈ lines, IsLine line) : (lines.filterMap lineEvent).length = lines.length := by
  induction lines with
  | nil => rfl
  | cons line rest ih =>
    rw [List.forall_mem_cons] at h
    obtain ⟨event, _, hEvent, _⟩ := h.1.event
    rw [List.filterMap_cons, hEvent, List.length_cons, List.length_cons, ih h.2]

theorem readLines_join {lines : List String} (h : ∀ line ∈ lines, IsLine line) {events : List ProxyEvent}
    (hFew : events.length + lines.length ≤ MAX_EVENTS_FOR_REPORT) :
    ∃ full, readLines ((String.join lines).toList.splitOn '\n') events = .ok (events ++ lines.filterMap lineEvent, full) ∧
      (full = true → MAX_EVENTS_FOR_REPORT ≤ events.length + lines.length) := by
  induction lines generalizing events with
  | nil => exact ⟨false, by simp [String.join, readLines, trimList], fun h => by cases h⟩
  | cons line rest ih =>
    rw [List.forall_mem_cons] at h
    rw [List.length_cons] at hFew ⊢
    obtain ⟨event, cs, hEvent, hRead, hLine, hNewline, hBlank⟩ := h.1.event
    have hSplit : (String.join (line :: rest)).toList.splitOn '\n' = cs :: (String.join rest).toList.splitOn '\n' := by
      rw [toList_join_cons, hLine, List.append_assoc]
      exact List.splitOn_append_cons_self_of_not_mem hNewline _
    rw [hSplit, readLines, if_neg hBlank, hRead, List.filterMap_cons, hEvent]
    simp only
    split
    · rename_i hFull
      refine ⟨true, ?_, fun _ => by omega⟩
      have hRest : rest = [] := List.eq_nil_of_length_eq_zero (by omega)
      rw [hRest]
      rfl
    · have hNext : (events ++ [event]).length + rest.length ≤ MAX_EVENTS_FOR_REPORT := by
        rw [List.length_append, List.length_singleton]
        omega
      obtain ⟨full, hRest, hFull⟩ := ih h.2 hNext
      rw [List.length_append, List.length_singleton] at hFull
      refine ⟨full, ?_, fun h => by have := hFull h; omega⟩
      rw [hRest, List.append_assoc]
      rfl

theorem readLines_length {lines : List (List Char)} {events : List ProxyEvent} {read : List ProxyEvent × Bool}
    (h : readLines lines events = .ok read) (hFew : events.length < MAX_EVENTS_FOR_REPORT) :
    read.1.length ≤ MAX_EVENTS_FOR_REPORT ∧ (read.2 = false → read.1.length < MAX_EVENTS_FOR_REPORT) := by
  induction lines generalizing events with
  | nil =>
    cases h
    exact ⟨Nat.le_of_lt hFew, fun _ => hFew⟩
  | cons line rest ih =>
    rw [readLines] at h
    split at h
    · exact ih h hFew
    · split at h
      · cases h
      · split at h
        · cases h
          rw [List.length_append, List.length_singleton]
          exact ⟨hFew, fun hNotFull => by cases hNotFull⟩
        · rename_i hRoom
          refine ih h ?_
          rw [List.length_append, List.length_singleton]
          omega

theorem readFiles_length {sources : List String} {bytes : Nat} {events read : List ProxyEvent}
    (h : readFiles sources bytes events = .ok read) (hFew : events.length < MAX_EVENTS_FOR_REPORT) :
    read.length ≤ MAX_EVENTS_FOR_REPORT := by
  induction sources generalizing bytes events with
  | nil =>
    cases h
    exact Nat.le_of_lt hFew
  | cons source rest ih =>
    rw [readFiles] at h
    split at h
    · cases h
    · obtain ⟨step, hStep, hRest⟩ := Effect.bind_eq_ok h
      obtain ⟨hLength, hOpen⟩ := readLines_length hStep hFew
      split at hRest
      · cases hRest
        exact hLength
      · rename_i hNotFull
        exact ih hRest (hOpen (by simpa using hNotFull))

theorem fileBytes_join (lines others : List String) : fileBytes (lines ++ others) = fileBytes lines + fileBytes others := by
  rw [fileBytes, fileBytes, fileBytes, String.join_append, byteLength, String.utf8ByteSize_append]
  rfl

theorem readFiles_join {groups : List (List String)} (h : ∀ lines ∈ groups, ∀ line ∈ lines, IsLine line) (bytes : Nat)
    {events : List ProxyEvent} (hFew : events.length + groups.flatten.length ≤ MAX_EVENTS_FOR_REPORT)
    (hBytes : bytes ≤ MAX_JSONL_BYTES) :
    readFiles (groups.map String.join) bytes events = if bytes + fileBytes groups.flatten ≤ MAX_JSONL_BYTES then
      .ok (events ++ groups.flatten.filterMap lineEvent) else .error .eventsTooLarge := by
  induction groups generalizing bytes events with
  | nil =>
    rw [List.flatten_nil, show fileBytes [] = 0 from rfl, Nat.add_zero, if_pos hBytes]
    simp [readFiles]
  | cons lines groups ih =>
    rw [List.forall_mem_cons] at h
    rw [List.flatten_cons, List.length_append] at hFew
    rw [List.flatten_cons, fileBytes_join, List.map_cons, readFiles]
    by_cases hLarge : MAX_JSONL_BYTES < bytes + byteLength (String.join lines)
    · rw [if_pos hLarge, if_neg]
      change ¬bytes + (byteLength (String.join lines) + _) ≤ _
      omega
    · rw [if_neg hLarge]
      obtain ⟨full, hRead, hFull⟩ := readLines_join h.1 (show events.length + lines.length ≤ MAX_EVENTS_FOR_REPORT by omega)
      rw [hRead, Effect.ok_bind]
      change _ = if bytes + (byteLength (String.join lines) + _) ≤ _ then _ else _
      rw [List.filterMap_append, ← List.append_assoc, ← Nat.add_assoc]
      cases full with
      | true =>
        have hMany := hFull rfl
        have hRest : groups.flatten = [] := List.eq_nil_of_length_eq_zero (by omega)
        rw [hRest, show fileBytes [] = 0 from rfl, Nat.add_zero, if_pos (Nat.le_of_not_lt hLarge), List.filterMap_nil, List.append_nil]
        rfl
      | false =>
        have hNext : (events ++ lines.filterMap lineEvent).length + groups.flatten.length ≤ MAX_EVENTS_FOR_REPORT := by
          rw [List.length_append, length_events h.1]
          omega
        exact ih h.2 _ hNext (by omega)

theorem content_eq_flatten (files : Files String) :
    files.content EVENT_LOG_ARCHIVES = ([2, 1, 0].filterMap files).flatten := by
  have hCons : ∀ i is, ((i :: is).filterMap files).flatten = files.lines i ++ (is.filterMap files).flatten := by
    intro i is
    cases hFile : files i with
    | none => rw [List.filterMap_cons_none hFile, Files.lines, hFile, Option.getD_none, List.nil_append]
    | some lines => rw [List.filterMap_cons_some hFile, List.flatten_cons, Files.lines, hFile, Option.getD_some]
  rw [hCons, hCons, hCons, List.filterMap_nil, List.flatten_nil, List.append_nil]
  rfl

theorem sources_eq (files : Files String) : sources files = ([2, 1, 0].filterMap files).map String.join := by
  rw [sources, List.map_filterMap]

theorem readPersistedEvents_few {files : Files String} (h : ∀ line ∈ files.content EVENT_LOG_ARCHIVES, IsLine line)
    (hFew : (files.content EVENT_LOG_ARCHIVES).length ≤ MAX_EVENTS_FOR_REPORT) :
    readPersistedEvents files = if fileBytes (files.content EVENT_LOG_ARCHIVES) ≤ MAX_JSONL_BYTES then .ok (persistedEvents files)
      else .error .eventsTooLarge := by
  rw [content_eq_flatten] at h hFew
  have hLines : ∀ lines ∈ [2, 1, 0].filterMap files, ∀ line ∈ lines, IsLine line :=
    fun lines hMem line hLine => h line (List.mem_flatten.mpr ⟨lines, hMem, hLine⟩)
  have hEvents : ([] : List ProxyEvent).length + ([2, 1, 0].filterMap files).flatten.length ≤ MAX_EVENTS_FOR_REPORT := by
    rw [List.length_nil, Nat.zero_add]
    exact hFew
  rw [readPersistedEvents, sources_eq, readFiles_join hLines 0 hEvents (Nat.zero_le _), persistedEvents, content_eq_flatten,
    Nat.zero_add, List.nil_append]

theorem readPersistedEvents_length {files : Files String} {events : List ProxyEvent} (h : readPersistedEvents files = .ok events) :
    events.length ≤ MAX_EVENTS_FOR_REPORT := readFiles_length h (by decide)

end GhostApi.Evidence
