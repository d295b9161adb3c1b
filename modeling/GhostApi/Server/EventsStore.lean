import GhostApi.Js.Stringify
import GhostApi.Lib.Machine
import GhostApi.Lib.Rotation
import GhostApi.Scenarios.Replay

/-!
# The event log

An event is masked, bounded and appended to the log as one line, under the
lock of the log. When the line does not fit any more the log is rotated first,
one file-system step after the other; a process can stop between any two.
-/

namespace GhostApi.Server

open Js Rotation Transition
open Security (sanitizeSecretString nameChars sanitizeSecretString_name)
open Scenarios (sanitizeSecrets sanitizeSecretsValue sanitizeFields isSecretFieldName isCardNumberField)

inductive EventSource
  | state
  | cache
  | ai
  | error
  | fallback
  | stream
  | fault
  | behavior
  deriving DecidableEq

def EventSource.text : EventSource → String
  | .state => "state"
  | .cache => "cache"
  | .ai => "ai"
  | .error => "error"
  | .fallback => "fallback"
  | .stream => "stream"
  | .fault => "fault"
  | .behavior => "behavior"

structure ProxyEvent where
  id : String
  timestamp : String
  provider : String
  method : String
  path : String
  statusCode : JsNumber
  source : EventSource
  durationMs : JsNumber
  request : JsValue
  response : JsValue

def ProxyEvent.fields (event : ProxyEvent) : Fields :=
  [("id", .string event.id), ("timestamp", .string event.timestamp), ("provider", .string event.provider),
   ("method", .string event.method), ("path", .string event.path), ("statusCode", .number event.statusCode),
   ("source", .string event.source.text), ("durationMs", .number event.durationMs), ("request", event.request),
   ("response", event.response)]

def ProxyEvent.toValue (event : ProxyEvent) : JsValue := .object event.fields

def MAX_EVENT_LOG_BYTES : Nat := 5 * 1024 * 1024

def EVENT_LOG_ARCHIVES : Nat := 2

def MAX_EVENT_BYTES : Nat := 256 * 1024

/-! ## The line of an event -/

def isHexDigit (c : Char) : Bool := isDigit c || 'a' ≤ c.toLower && c.toLower ≤ 'f'

def fitsUuid (template c : Char) : Bool :=
  if template = 'h' then isHexDigit c else if template = 'v' then '1' ≤ c && c ≤ '8'
  else if template = 'n' then "89ab".toList.contains c.toLower else c == template

def uuidTemplate : List Char := "hhhhhhhh-hhhh-vhhh-nhhh-hhhhhhhhhhhh".toList

def isUuid (value : String) : Bool :=
  value.toList.length == uuidTemplate.length && (uuidTemplate.zip value.toList).all fun place => fitsUuid place.1 place.2

def sanitized (event : ProxyEvent) : ProxyEvent where
  id := sanitizeSecretString event.id
  timestamp := sanitizeSecretString event.timestamp
  provider := sanitizeSecretString event.provider
  method := sanitizeSecretString event.method
  path := sanitizeSecretString event.path
  statusCode := event.statusCode
  source := event.source
  durationMs := event.durationMs
  request := sanitizeSecretsValue (some "request") event.request
  response := sanitizeSecretsValue (some "response") event.response

def byteLength (text : String) : Nat := text.utf8ByteSize

def ProxyEvent.json (event : ProxyEvent) : String := (stringify event.toValue).getD ""

def boundEvent (event : ProxyEvent) : ProxyEvent :=
  if byteLength event.json ≤ MAX_EVENT_BYTES then event
  else { event with
    request := .string "[Event details truncated: request exceeded persisted event limit]"
    response := .string "[Event details truncated: response exceeded persisted event limit]" }

def boundedEvent (event : ProxyEvent) (randomUUID : String) : ProxyEvent :=
  boundEvent (sanitized { event with id := if isUuid event.id then event.id else randomUUID })

def serialized (event : ProxyEvent) : String := event.json ++ "\n"

/-! ## Writing the log -/

inductive Stage
  | remove
  | shift (index : Nat)
  | append
  deriving DecidableEq

/-- The files of the log, the line that the holder of the lock is writing, and the lines written since the last clear. -/
structure LogState where
  files : Files String
  holder : Option (String × Stage)
  persisted : List String

inductive LogStep
  | addEvent (event : ProxyEvent) (randomUUID : String)
  | advance
  | stop
  | clearEvents

def fileBytes (lines : List String) : Nat := byteLength (String.join lines)

def firstStage (files : Files String) (line : String) : Stage :=
  if fileBytes (files.lines 0) + byteLength line ≤ MAX_EVENT_LOG_BYTES then .append else .remove

def advance (state : LogState) (line : String) : Stage → LogState
  | .remove => { state with
    files := state.files.remove EVENT_LOG_ARCHIVES
    holder := some (line, .shift (EVENT_LOG_ARCHIVES - 1)) }
  | .shift (index + 1) => { state with files := state.files.shift (index + 1), holder := some (line, .shift index) }
  | .shift 0 => { state with files := state.files.shift 0, holder := some (line, .append) }
  | .append => { files := state.files.append line, holder := none, persisted := state.persisted ++ [line] }

def logStep (state : LogState) : LogStep → Option LogState
  | .addEvent event randomUUID => match state.holder with
    | some _ => none
    | none =>
      let line := serialized (boundedEvent event randomUUID)
      some { state with holder := some (line, firstStage state.files line) }
  | .advance => match state.holder with
    | some (line, stage) => some (advance state line stage)
    | none => none
  | .stop => match state.holder with
    | some _ => some { state with holder := none }
    | none => none
  | .clearEvents => match state.holder with
    | some _ => none
    | none => some { files := fun i => if i ≤ EVENT_LOG_ARCHIVES then none else state.files i, holder := none, persisted := [] }

def eventLog : Machine LogState LogStep where
  initial := ⟨fun _ => none, none, []⟩
  step := logStep

def LogState.log (state : LogState) : List String := state.files.content EVENT_LOG_ARCHIVES

/-! ## What every run keeps -/

/-- A file is within the limit unless it holds one line only. -/
def Within (lines : List String) : Prop := fileBytes lines ≤ MAX_EVENT_LOG_BYTES ∨ ∃ line, lines = [line]

theorem fileBytes_append (lines : List String) (line : String) : fileBytes (lines ++ [line]) = fileBytes lines + byteLength line := by
  have hJoin : String.join (lines ++ [line]) = String.join lines ++ line := by simp [String.join]
  rw [fileBytes, hJoin, byteLength, String.utf8ByteSize_append]
  rfl

theorem within_nil : Within [] := .inl (Nat.zero_le _)

def StageIsReady (files : Files String) (line : String) : Stage → Prop
  | .remove => MAX_EVENT_LOG_BYTES < fileBytes (files.lines 0) + byteLength line
  | .shift index => index < EVENT_LOG_ARCHIVES ∧ files (index + 1) = none
  | .append => files.lines 0 = [] ∨ fileBytes (files.lines 0) + byteLength line ≤ MAX_EVENT_LOG_BYTES

structure LogState.Sound (state : LogState) : Prop where
  suffix : state.log <:+ state.persisted
  within : ∀ i ≤ EVENT_LOG_ARCHIVES, Within (state.files.lines i)
  ready : ∀ line stage, state.holder = some (line, stage) → StageIsReady state.files line stage

theorem firstStage_ready (files : Files String) (line : String) : StageIsReady files line (firstStage files line) := by
  rw [firstStage]
  split
  · rename_i hFits
    exact .inr hFits
  · rename_i hFull
    exact Nat.lt_of_not_le hFull

theorem within_shift {files : Files String} {index : Nat} (hWithin : ∀ i ≤ EVENT_LOG_ARCHIVES, Within (files.lines i))
    (hIndex : index < EVENT_LOG_ARCHIVES) (hFree : files (index + 1) = none) :
    ∀ i ≤ EVENT_LOG_ARCHIVES, Within ((files.shift index).lines i) := by
  intro i hi
  by_cases hSelf : i = index
  · subst hSelf
    rw [Files.lines, Files.shift_self]
    exact within_nil
  · by_cases hNext : i = index + 1
    · subst hNext
      rw [Files.lines, Files.shift_succ files hFree]
      exact hWithin index (by omega)
    · have hSame : files.shift index i = files i := by
        by_cases hLess : i < index
        · exact Files.shift_of_lt files hLess
        · exact Files.shift_of_gt files (by omega)
      rw [Files.lines, hSame]
      exact hWithin i hi

theorem sound_shift {state : LogState} (h : state.Sound) {index : Nat} (hIndex : index < EVENT_LOG_ARCHIVES)
    (hFree : state.files (index + 1) = none) {line : String} {next : Stage}
    (hNext : StageIsReady (state.files.shift index) line next) :
    LogState.Sound { state with files := state.files.shift index, holder := some (line, next) } where
  suffix := by
    rw [LogState.log, Files.content_shift hFree hIndex]
    exact h.suffix
  within := within_shift h.within hIndex hFree
  ready line' stage hHolder := by
    cases hHolder
    exact hNext

theorem sound_remove {state : LogState} (h : state.Sound) (line : String) : (advance state line .remove).Sound where
  suffix := by
    have hContent : (state.files.remove EVENT_LOG_ARCHIVES).content EVENT_LOG_ARCHIVES = state.files.content 1 :=
      Files.content_remove state.files 1
    change (state.files.remove EVENT_LOG_ARCHIVES).content EVENT_LOG_ARCHIVES <:+ state.persisted
    rw [hContent]
    exact List.IsSuffix.trans (List.suffix_append _ _) h.suffix
  within i hi := by
    change Within ((state.files.remove EVENT_LOG_ARCHIVES).lines i)
    by_cases hLast : i = EVENT_LOG_ARCHIVES
    · subst hLast
      rw [Files.lines_remove_self]
      exact within_nil
    · rw [Files.lines, Files.remove_of_ne _ hLast]
      exact h.within i hi
  ready line' stage hHolder := by
    cases hHolder
    have hFree : state.files.remove EVENT_LOG_ARCHIVES EVENT_LOG_ARCHIVES = none := Function.update_self ..
    exact ⟨by decide, hFree⟩

theorem sound_append {state : LogState} (h : state.Sound) {line : String} (hReady : StageIsReady state.files line .append) :
    (advance state line .append).Sound where
  suffix := by
    obtain ⟨before, hBefore⟩ := h.suffix
    change (state.files.append line).content EVENT_LOG_ARCHIVES <:+ state.persisted ++ [line]
    rw [Files.content_append]
    refine ⟨before, ?_⟩
    rw [← hBefore, List.append_assoc]
    rfl
  within i hi := by
    change Within ((state.files.append line).lines i)
    cases i with
    | zero =>
      rw [Files.lines, Files.append_zero, Option.getD_some]
      cases hReady with
      | inl hEmpty =>
        rw [hEmpty]
        exact .inr ⟨line, rfl⟩
      | inr hFits =>
        rw [Within, fileBytes_append]
        exact .inl hFits
    | succ i =>
      rw [Files.lines, Files.append_succ]
      exact h.within (i + 1) hi
  ready _ _ hHolder := by cases hHolder

theorem sound_advance {state : LogState} (h : state.Sound) {line : String} {stage : Stage}
    (hReady : StageIsReady state.files line stage) : (advance state line stage).Sound := by
  cases stage with
  | remove => exact sound_remove h line
  | shift index =>
    obtain ⟨hIndex, hFree⟩ := hReady
    cases index with
    | zero =>
      refine sound_shift h hIndex hFree (.inl ?_)
      rw [Files.lines, Files.shift_self, Option.getD_none]
    | succ index => exact sound_shift h hIndex hFree ⟨by omega, Files.shift_self _ _⟩
  | append => exact sound_append h hReady

theorem logStep_cases {state next : LogState} {step : LogStep} (h : logStep state step = some next) :
    (∃ event randomUUID line, step = .addEvent event randomUUID ∧ state.holder = none ∧
      line = serialized (boundedEvent event randomUUID) ∧
      next = { state with holder := some (line, firstStage state.files line) }) ∨
    (∃ line stage, step = .advance ∧ state.holder = some (line, stage) ∧ next = advance state line stage) ∨
    (∃ line stage, step = .stop ∧ state.holder = some (line, stage) ∧ next = { state with holder := none }) ∨
    (step = .clearEvents ∧ state.holder = none ∧
      next = { files := fun i => if i ≤ EVENT_LOG_ARCHIVES then none else state.files i, holder := none, persisted := [] }) := by
  cases step with
  | addEvent event randomUUID =>
    cases hHolder : state.holder with
    | none =>
      simp only [logStep, hHolder] at h
      exact .inl ⟨event, randomUUID, _, rfl, rfl, rfl, (Option.some.inj h).symm⟩
    | some _ => simp [logStep, hHolder] at h
  | advance =>
    cases hHolder : state.holder with
    | none => simp [logStep, hHolder] at h
    | some held =>
      obtain ⟨line, stage⟩ := held
      simp only [logStep, hHolder] at h
      exact .inr (.inl ⟨line, stage, rfl, rfl, (Option.some.inj h).symm⟩)
  | stop =>
    cases hHolder : state.holder with
    | none => simp [logStep, hHolder] at h
    | some held =>
      obtain ⟨line, stage⟩ := held
      simp only [logStep, hHolder] at h
      exact .inr (.inr (.inl ⟨line, stage, rfl, rfl, (Option.some.inj h).symm⟩))
  | clearEvents =>
    cases hHolder : state.holder with
    | none =>
      simp only [logStep, hHolder] at h
      exact .inr (.inr (.inr ⟨rfl, rfl, (Option.some.inj h).symm⟩))
    | some _ => simp [logStep, hHolder] at h

theorem logStep_sound {state next : LogState} {step : LogStep} (h : state.Sound) (hStep : logStep state step = some next) :
    next.Sound := by
  obtain ⟨_, _, line, _, _, _, rfl⟩ | ⟨line, stage, rfl, hHolder, rfl⟩ | ⟨line, stage, rfl, _, rfl⟩ | ⟨rfl, _, rfl⟩ :=
    logStep_cases hStep
  · refine ⟨h.suffix, h.within, fun line' stage hHolder => ?_⟩
    cases hHolder
    exact firstStage_ready _ _
  · exact sound_advance h (h.ready line stage hHolder)
  · exact ⟨h.suffix, h.within, fun _ _ hHolder => by cases hHolder⟩
  · refine ⟨List.suffix_refl _, fun i hi => ?_, fun _ _ hHolder => by cases hHolder⟩
    change Within (Option.getD (if i ≤ EVENT_LOG_ARCHIVES then none else state.files i) [])
    rw [if_pos hi]
    exact within_nil

theorem sound_initial : eventLog.initial.Sound where
  suffix := List.suffix_refl _
  within _ _ := within_nil
  ready _ _ hHolder := by cases hHolder

theorem sound_of_run {guard : LogState → LogStep → Prop} {steps : List LogStep} {state : LogState}
    (run : eventLog.Run guard steps state) : state.Sound :=
  run.invariant sound_initial fun _ _ _ hSound _ hStep => logStep_sound hSound hStep

/-! ## Events that fit the log -/

/-- No process stops while it writes a line that is longer than the log may be. -/
def stopsWithin (state : LogState) (step : LogStep) : Prop :=
  step = .stop → ∀ line stage, state.holder = some (line, stage) → byteLength line ≤ MAX_EVENT_LOG_BYTES

def KeepsLines (files : Files String) : Prop := files.lines 0 ≠ [] ∨ files.lines 1 ≠ []

/-- Where the last line is when the holder of the lock goes on. -/
def StageKeeps (files : Files String) (line : String) : Stage → Prop
  | .remove => KeepsLines files ∧ (byteLength line ≤ MAX_EVENT_LOG_BYTES → files.lines 0 ≠ [])
  | .shift _ => files.content EVENT_LOG_ARCHIVES ≠ [] ∧ (byteLength line ≤ MAX_EVENT_LOG_BYTES → files.lines 0 ≠ [])
  | .append => files.content EVENT_LOG_ARCHIVES ≠ [] ∧ (byteLength line ≤ MAX_EVENT_LOG_BYTES → KeepsLines files)

def LogState.Live (state : LogState) : Prop := state.persisted ≠ [] → match state.holder with
  | none => KeepsLines state.files
  | some (line, stage) => StageKeeps state.files line stage

theorem content_ne_nil_of_keepsLines {files : Files String} (h : KeepsLines files) : files.content EVENT_LOG_ARCHIVES ≠ [] := by
  cases h with
  | inl hActive => exact Files.content_ne_nil (by decide) hActive
  | inr hArchive => exact Files.content_ne_nil (by decide) hArchive

theorem StageKeeps.content_ne_nil {files : Files String} {line : String} {stage : Stage} (h : StageKeeps files line stage) :
    files.content EVENT_LOG_ARCHIVES ≠ [] := by
  cases stage with
  | remove => exact content_ne_nil_of_keepsLines h.1
  | shift _ => exact h.1
  | append => exact h.1

theorem StageKeeps.keepsLines {files : Files String} {line : String} {stage : Stage} (h : StageKeeps files line stage)
    (hFits : byteLength line ≤ MAX_EVENT_LOG_BYTES) : KeepsLines files := by
  cases stage with
  | remove => exact h.1
  | shift _ => exact .inl (h.2 hFits)
  | append => exact h.2 hFits

theorem LogState.Live.log_ne_nil {state : LogState} (h : state.Live) (hPersisted : state.persisted ≠ []) : state.log ≠ [] := by
  have hKeeps := h hPersisted
  split at hKeeps
  · exact content_ne_nil_of_keepsLines hKeeps
  · exact hKeeps.content_ne_nil

theorem firstStage_keeps {files : Files String} (h : KeepsLines files) (line : String) :
    StageKeeps files line (firstStage files line) := by
  rw [firstStage]
  split
  · exact ⟨content_ne_nil_of_keepsLines h, fun _ => h⟩
  · rename_i hFull
    refine ⟨h, fun hFits hEmpty => ?_⟩
    have hNone : fileBytes [] = 0 := rfl
    rw [hEmpty, hNone] at hFull
    omega

theorem live_advance {state : LogState} (hSound : state.Sound) {line : String} {stage : Stage}
    (hHolder : state.holder = some (line, stage)) (h : state.Live) : (advance state line stage).Live := by
  have hReady := hSound.ready line stage hHolder
  rw [LogState.Live, hHolder] at h
  cases stage with
  | remove =>
    intro hPersisted
    obtain ⟨hKeeps, hActive⟩ := h hPersisted
    have hZero : (state.files.remove EVENT_LOG_ARCHIVES).lines 0 = state.files.lines 0 :=
      congrArg (Option.getD · []) (Files.remove_of_ne state.files (by decide))
    have hOne : (state.files.remove EVENT_LOG_ARCHIVES).lines 1 = state.files.lines 1 :=
      congrArg (Option.getD · []) (Files.remove_of_ne state.files (by decide))
    change StageKeeps (state.files.remove EVENT_LOG_ARCHIVES) line (.shift 1)
    refine ⟨content_ne_nil_of_keepsLines ?_, ?_⟩
    · rwa [KeepsLines, hZero, hOne]
    · rwa [hZero]
  | shift index =>
    obtain ⟨hIndex, hFree⟩ := hReady
    have hContent := Files.content_shift hFree hIndex
    cases index with
    | zero =>
      intro hPersisted
      obtain ⟨hLog, hActive⟩ := h hPersisted
      change StageKeeps (state.files.shift 0) line .append
      refine ⟨by rwa [hContent], fun hFits => .inr ?_⟩
      rw [Files.lines, Files.shift_succ state.files hFree]
      exact hActive hFits
    | succ index =>
      intro hPersisted
      obtain ⟨hLog, hActive⟩ := h hPersisted
      change StageKeeps (state.files.shift (index + 1)) line (.shift index)
      refine ⟨by rwa [hContent], fun hFits => ?_⟩
      rw [Files.lines, Files.shift_of_lt state.files (by omega)]
      exact hActive hFits
  | append =>
    intro _
    change KeepsLines (state.files.append line)
    refine .inl ?_
    rw [Files.lines, Files.append_zero, Option.getD_some]
    simp

theorem logStep_live {state next : LogState} {step : LogStep} (hSound : state.Sound) (h : state.Live)
    (hStops : stopsWithin state step) (hStep : logStep state step = some next) : next.Live := by
  obtain ⟨_, _, line, _, hHolder, _, rfl⟩ | ⟨line, stage, rfl, hHolder, rfl⟩ | ⟨line, stage, rfl, hHolder, rfl⟩ | ⟨rfl, _, rfl⟩ :=
    logStep_cases hStep
  · intro hPersisted
    rw [LogState.Live, hHolder] at h
    exact firstStage_keeps (h hPersisted) line
  · exact live_advance hSound hHolder h
  · intro hPersisted
    rw [LogState.Live, hHolder] at h
    exact (h hPersisted).keepsLines (hStops rfl line stage hHolder)
  · intro hPersisted
    exact absurd rfl hPersisted

/-- The log is the end of what was written since the last clear, and not empty once something was. -/
def LogState.IsContiguous (state : LogState) : Prop := state.log <:+ state.persisted ∧ (state.persisted ≠ [] → state.log ≠ [])

theorem log_contiguous {steps : List LogStep} {state : LogState} (run : eventLog.Run stopsWithin steps state) :
    state.IsContiguous ∧ ∀ i ≤ EVENT_LOG_ARCHIVES, Within (state.files.lines i) := by
  have hBoth : state.Sound ∧ state.Live := by
    refine run.invariant (I := fun state => state.Sound ∧ state.Live) ⟨sound_initial, fun h => absurd rfl h⟩ ?_
    rintro before step after ⟨hSound, hLive⟩ hStops hStep
    exact ⟨logStep_sound hSound hStep, logStep_live hSound hLive hStops hStep⟩
  exact ⟨⟨hBoth.1.suffix, hBoth.2.log_ne_nil⟩, hBoth.1.within⟩

/-! ## A line longer than the log -/

def eventWithPath (path : String) : ProxyEvent where
  id := "00000000-0000-4000-8000-000000000000"
  timestamp := "2026-08-16T12:00:00.000Z"
  provider := "generic"
  method := "GET"
  path := path
  statusCode := .integer 200
  source := .fallback
  durationMs := .integer 1
  request := .null
  response := .null

theorem boundEvent_path (event : ProxyEvent) : (boundEvent event).path = event.path := by
  by_cases hFits : byteLength event.json ≤ MAX_EVENT_BYTES
  · rw [boundEvent, if_pos hFits]
  · rw [boundEvent, if_neg hFits]

theorem boundedEvent_path (event : ProxyEvent) (randomUUID : String) :
    (boundedEvent event randomUUID).path = sanitizeSecretString event.path := by
  rw [boundedEvent, boundEvent_path]
  rfl

theorem length_path_le_serialized (event : ProxyEvent) : event.path.toList.length ≤ byteLength (serialized event) := by
  have hPath : ("path", Json.string event.path) ∈ writtenFields event.fields :=
    mem_writtenFields (show ("path", JsValue.string event.path) ∈ event.fields by simp [ProxyEvent.fields]) (by rw [JsValue.written])
  have hWritten : event.toValue.written = some (.object (writtenFields event.fields)) := by
    rw [ProxyEvent.toValue, JsValue.written]
  have hPrinted := Json.length_print_le_object hPath
  have hQuoted := Json.length_le_quote event.path
  have hBytes := Json.length_le_utf8ByteSize (Json.print (.object (writtenFields event.fields)))
  rw [Json.print] at hPrinted
  rw [serialized, ProxyEvent.json, stringify, hWritten, byteLength, String.utf8ByteSize_append, Option.map_some, Option.getD_some]
  omega

def longPath : String := String.ofList (List.replicate (MAX_EVENT_LOG_BYTES + 1) 'a')

theorem longPath_line (randomUUID : String) :
    MAX_EVENT_LOG_BYTES < byteLength (serialized (boundedEvent (eventWithPath longPath) randomUUID)) := by
  have hPath : sanitizeSecretString longPath = longPath := by
    refine sanitizeSecretString_name fun c hc => ?_
    rw [longPath, String.toList_ofList] at hc
    rw [List.eq_of_mem_replicate hc]
    decide
  have hLength : longPath.toList.length = MAX_EVENT_LOG_BYTES + 1 := by
    rw [longPath, String.toList_ofList, List.length_replicate]
  have hLine := length_path_le_serialized (boundedEvent (eventWithPath longPath) randomUUID)
  rw [boundedEvent_path] at hLine
  change (sanitizeSecretString longPath).toList.length ≤ _ at hLine
  rw [hPath, hLength] at hLine
  exact hLine

/-- The first event is written; the process stops in each later call, before it appends. -/
def stoppedCalls (event : ProxyEvent) : List LogStep :=
  [.addEvent event "", .advance, .advance, .advance, .advance,
   .addEvent event "", .advance, .advance, .advance, .stop,
   .addEvent event "", .advance, .advance, .stop,
   .addEvent event "", .advance]

def lostFiles (line : String) : Files String :=
  let written := Files.append (((Files.remove (fun _ => none) 2).shift 1).shift 0) line
  ((((((written.remove 2).shift 1).shift 0).remove 2).shift 1).remove 2)

theorem exec_step {state next : LogState} {step : LogStep} (h : logStep state step = some next) (rest : List LogStep) :
    eventLog.exec state (step :: rest) = eventLog.exec next rest := by
  rw [Machine.exec, show eventLog.step state step = some next from h, Option.bind_some]

theorem addEvent_full {event : ProxyEvent} {line : String} (hLine : serialized (boundedEvent event "") = line)
    (h : MAX_EVENT_LOG_BYTES < byteLength line) (files : Files String) (persisted : List String) :
    logStep ⟨files, none, persisted⟩ (.addEvent event "") = some ⟨files, some (line, .remove), persisted⟩ := by
  have hFull : firstStage files line = .remove := if_neg (by omega)
  simp only [logStep, hLine, hFull]

theorem lostFiles_log (line : String) : (lostFiles line).content EVENT_LOG_ARCHIVES = [] := rfl

theorem stoppedCalls_exec {event : ProxyEvent} {line : String} (hAdd : ∀ files persisted,
    logStep ⟨files, none, persisted⟩ (.addEvent event "") = some ⟨files, some (line, .remove), persisted⟩) :
    eventLog.exec eventLog.initial (stoppedCalls event) = some ⟨lostFiles line, some (line, .shift 1), [line]⟩ := by
  have hStart : eventLog.initial = ⟨fun _ => none, none, []⟩ := rfl
  have hRemove : ∀ files persisted, logStep ⟨files, some (line, .remove), persisted⟩ .advance =
      some ⟨files.remove 2, some (line, .shift 1), persisted⟩ := fun _ _ => rfl
  have hShiftOne : ∀ files persisted, logStep ⟨files, some (line, .shift 1), persisted⟩ .advance =
      some ⟨files.shift 1, some (line, .shift 0), persisted⟩ := fun _ _ => rfl
  have hShiftZero : ∀ files persisted, logStep ⟨files, some (line, .shift 0), persisted⟩ .advance =
      some ⟨files.shift 0, some (line, .append), persisted⟩ := fun _ _ => rfl
  have hAppend : ∀ files persisted, logStep ⟨files, some (line, .append), persisted⟩ .advance =
      some ⟨files.append line, none, persisted ++ [line]⟩ := fun _ _ => rfl
  have hStop : ∀ files stage persisted, logStep ⟨files, some (line, stage), persisted⟩ .stop =
      some ⟨files, none, persisted⟩ := fun _ _ _ => rfl
  rw [hStart, stoppedCalls, exec_step (hAdd _ _), exec_step (hRemove _ _), exec_step (hShiftOne _ _), exec_step (hShiftZero _ _),
    exec_step (hAppend _ _), exec_step (hAdd _ _), exec_step (hRemove _ _), exec_step (hShiftOne _ _), exec_step (hShiftZero _ _),
    exec_step (hStop _ _ _), exec_step (hAdd _ _), exec_step (hRemove _ _), exec_step (hShiftOne _ _), exec_step (hStop _ _ _),
    exec_step (hAdd _ _), exec_step (hRemove _ _), Machine.exec]
  rfl

theorem stoppedCalls_lose {event : ProxyEvent} (h : MAX_EVENT_LOG_BYTES < byteLength (serialized (boundedEvent event ""))) :
    ∃ state, eventLog.FreeRun (stoppedCalls event) state ∧ state.persisted ≠ [] ∧ state.log = [] := by
  obtain ⟨line, hLine⟩ : ∃ line, serialized (boundedEvent event "") = line := ⟨_, rfl⟩
  rw [hLine] at h
  exact ⟨_, Machine.freeRun_of_exec (stoppedCalls_exec (addEvent_full hLine h)), List.cons_ne_nil line [], lostFiles_log line⟩

theorem stopped_rotation_loses : ∃ steps state, eventLog.FreeRun steps state ∧ ¬state.IsContiguous := by
  obtain ⟨state, run, hPersisted, hLog⟩ := stoppedCalls_lose (longPath_line "")
  exact ⟨_, state, run, fun h => h.2 hPersisted hLog⟩

theorem run_of_short (guard : LogState → LogStep → Prop) {event : ProxyEvent} (hAdd : ∀ state, guard state (.addEvent event ""))
    (hAdvance : ∀ state, guard state .advance) (h : byteLength (serialized (boundedEvent event "")) ≤ MAX_EVENT_LOG_BYTES) :
    ∃ state, eventLog.Run guard [.addEvent event "", .advance] state ∧
      state.persisted = [serialized (boundedEvent event "")] ∧ state.log = [serialized (boundedEvent event "")] := by
  have hActive : firstStage (fun _ => none) (serialized (boundedEvent event "")) = .append := by
    rw [firstStage]
    exact if_pos (by rw [Files.lines, Option.getD_none, show fileBytes [] = 0 from rfl, Nat.zero_add]; exact h)
  obtain ⟨line, hLine⟩ : ∃ line, serialized (boundedEvent event "") = line := ⟨_, rfl⟩
  have hStep : logStep eventLog.initial (.addEvent event "") = some ⟨fun _ => none, some (line, .append), []⟩ := by
    rw [hLine] at hActive
    simp only [logStep, eventLog, hLine, hActive]
  have hFirst : eventLog.Run guard ([] ++ [.addEvent event ""]) ⟨fun _ => none, some (line, .append), []⟩ :=
    .next .start (hAdd _) hStep
  rw [hLine]
  exact ⟨_, hFirst.next (hAdvance _) rfl, rfl, rfl⟩

theorem short_event_logged : ∃ state, eventLog.Run stopsWithin [.addEvent (eventWithPath "/tasks") "", .advance] state ∧
    state.log ≠ [] ∧ state.IsContiguous := by
  obtain ⟨state, run, hPersisted, _⟩ := run_of_short stopsWithin (fun _ hStop => by cases hStop) (fun _ hStop => by cases hStop)
    (show byteLength (serialized (boundedEvent (eventWithPath "/tasks") "")) ≤ MAX_EVENT_LOG_BYTES by decide +kernel)
  obtain ⟨hContiguous, _⟩ := log_contiguous run
  refine ⟨state, run, hContiguous.2 ?_, hContiguous⟩
  rw [hPersisted]
  exact List.cons_ne_nil _ _

end GhostApi.Server
