import GhostApi.Js.Number
import GhostApi.Lib.Recent
import GhostApi.ProductTelemetry.IsoWeek
import GhostApi.Validation

/-!
# The product telemetry file

The snapshot that the file holds, its validation, and the two calls that
change it. The file is given by its JSON value; a path that is no regular file
is left out.
-/

namespace GhostApi.ProductTelemetry

open Js Validation Effect

def SCHEMA_VERSION : Int := 1

def MAX_ACTIVE_WEEKS : Nat := 8

inductive ProductTelemetryEvent
  | init_completed
  | enforced_run_completed
  | evidence_generated
  | eval_completed
  deriving DecidableEq

def ProductTelemetryEvent.name : ProductTelemetryEvent → String
  | .init_completed => "init_completed"
  | .enforced_run_completed => "enforced_run_completed"
  | .evidence_generated => "evidence_generated"
  | .eval_completed => "eval_completed"

def telemetryEvents : List ProductTelemetryEvent :=
  [.init_completed, .enforced_run_completed, .evidence_generated, .eval_completed]

/-- The event of a name, where isTelemetryEvent holds for it. -/
def telemetryEvent (value : String) : Option ProductTelemetryEvent := telemetryEvents.find? (·.name == value)

structure ProductTelemetrySnapshot where
  enabled : Bool
  counters : ProductTelemetryEvent → Nat
  activeWeeks : List String
  firstActivationAt : Option String
  lastActivityAt : Option String

def fail (message : String) : JsError := ⟨"ProductTelemetryError", message, none⟩

def emptySnapshot : ProductTelemetrySnapshot := ⟨false, fun _ => 0, [], none, none⟩

def ProductTelemetrySnapshot.toJson (snapshot : ProductTelemetrySnapshot) : Json :=
  .object ([("schemaVersion", .number SCHEMA_VERSION), ("enabled", .bool snapshot.enabled),
    ("counters", .object (telemetryEvents.map fun event => (event.name, .number (snapshot.counters event)))),
    ("activeWeeks", .array (snapshot.activeWeeks.map .string))] ++
    Json.optional "firstActivationAt" (snapshot.firstActivationAt.map .string) ++
    Json.optional "lastActivityAt" (snapshot.lastActivityAt.map .string))

/-! ## Reading -/

def jsonObject (value : Option Json) (message : String) : Except JsError (List (String × Json)) := match value with
  | some (.object fields) => .ok fields
  | _ => .error (fail message)

def assertExactKeys (value : List (String × Json)) (allowed : List String) : Except JsError Unit :=
  failIf ((keys value).any (fun key => !allowed.contains key) = true)
    (fail "Local product telemetry file contains unsupported fields.")

def parseEnabled (value : List (String × Json)) : Except JsError Bool :=
  match value.lookup "schemaVersion", value.lookup "enabled" with
  | some (.number version), some (.bool enabled) =>
    if version = SCHEMA_VERSION then .ok enabled else .error (fail "Local product telemetry file has an unsupported schema.")
  | _, _ => .error (fail "Local product telemetry file has an unsupported schema.")

def parseCount (counters : List (String × Json)) (event : ProductTelemetryEvent) :
    Except JsError (ProductTelemetryEvent × Nat) :=
  match counters.lookup event.name with
  | some (.number count) =>
    if 0 ≤ count ∧ count ≤ MAX_SAFE_INTEGER then .ok (event, count.toNat)
    else .error (fail "Local product telemetry counters must be non-negative safe integers.")
  | _ => .error (fail "Local product telemetry counters must be non-negative safe integers.")

def parseCounters (counters : List (String × Json)) : Except JsError (ProductTelemetryEvent → Nat) := do
  let counts ← telemetryEvents.mapM (parseCount counters)
  return fun event => (counts.lookup event).getD 0

def isWeekText (week : String) : Bool := Date.fits "dddd-Wdd".toList week.toList

def parseWeek : Json → Option String
  | .string week => if isWeekText week then some week else none
  | _ => none

def parseWeeks (value : Option Json) : Except JsError (List String) := match value with
  | some (.array items) =>
    if MAX_ACTIVE_WEEKS < items.length then .error (fail "Local product telemetry active weeks are invalid.")
    else match items.mapM parseWeek with
      | some weeks => .ok weeks
      | none => .error (fail "Local product telemetry active weeks are invalid.")
  | _ => .error (fail "Local product telemetry active weeks are invalid.")

def parseActiveWeeks (value : Option Json) : Except JsError (List String) := do
  let weeks ← parseWeeks value
  let activeWeeks := sortNames weeks.eraseDups
  failIf (activeWeeks.length ≠ weeks.length) (fail "Local product telemetry active weeks must be unique.")
  return activeWeeks

/-- A year outside of 0 to 9999 has a sign and six digits. Dates repeat after 400 years. -/
def parseLongYear (sign : Int) (cs : List Char) : Option Int :=
  let year := sign * Date.number (cs.take 6)
  if (cs.take 6).all isDigit then
    (Date.parse (String.ofList ((Date.digits 4 (year % 400)).toList ++ cs.drop 6))).map fun ms =>
      ms + year / 400 * 146097 * Date.millisecondsPerDay
  else none

/-- Date.parse on the texts that toISOString can give. -/
def parseDate (value : String) : Option Int :=
  let parsed := match value.toList with
    | [] => none
    | c :: cs => if c = '+' then parseLongYear 1 cs else if c = '-' then parseLongYear (-1) cs else Date.parse value
  parsed.filter fun ms => ms.natAbs ≤ 8640000000000000

def isWrittenTimestamp (value : String) : Bool := (parseDate value).any fun ms => Date.toISOString ms == value

def parseTimestamp : Option Json → Except JsError (Option String)
  | none => .ok none
  | some (.string value) =>
    if isWrittenTimestamp value then .ok (some value) else .error (fail "Local product telemetry timestamp is invalid.")
  | some _ => .error (fail "Local product telemetry timestamp is invalid.")

/-- Whether one text is greater than another, where both are there. -/
def isAfter (first last : Option String) : Bool := match first, last with
  | some first, some last => !Json.keyLe first last
  | _, _ => false

def parseSnapshot (value : Json) : Except JsError ProductTelemetrySnapshot := do
  let fields ← jsonObject (some value) "Local product telemetry file must be a JSON object."
  assertExactKeys fields
    ["schemaVersion", "enabled", "counters", "activeWeeks", "firstActivationAt", "lastActivityAt"]
  let enabled ← parseEnabled fields
  let counterFields ← jsonObject (fields.lookup "counters") "Local product telemetry counters must be an object."
  assertExactKeys counterFields (telemetryEvents.map ProductTelemetryEvent.name)
  let counters ← parseCounters counterFields
  let activeWeeks ← parseActiveWeeks (fields.lookup "activeWeeks")
  let firstActivationAt ← parseTimestamp (fields.lookup "firstActivationAt")
  let lastActivityAt ← parseTimestamp (fields.lookup "lastActivityAt")
  failIf (isAfter firstActivationAt lastActivityAt = true) (fail "Local product telemetry timestamps are out of order.")
  return ⟨enabled, counters, activeWeeks, firstActivationAt, lastActivityAt⟩

def readSnapshot : Option Json → Except JsError ProductTelemetrySnapshot
  | none => .ok emptySnapshot
  | some value => parseSnapshot value

/-! ## The calls -/

abbrev Outcome := Except JsError (ProductTelemetrySnapshot × Option Json)

def setProductTelemetryEnabled (enabled : Bool) (file : Option Json) : Outcome :=
  if enabled then do
    let current ← readSnapshot file
    let next := { current with enabled := true }
    return (next, some next.toJson)
  else .ok (emptySnapshot, none)

def isActivation (event : ProductTelemetryEvent) : Bool :=
  event = .enforced_run_completed ∨ event = .evidence_generated

def recorded (current : ProductTelemetrySnapshot) (event : ProductTelemetryEvent) (now : Int) : ProductTelemetrySnapshot where
  enabled := true
  counters := Function.update current.counters event (current.counters event + 1)
  activeWeeks := Recent.lastOf MAX_ACTIVE_WEEKS (sortNames (current.activeWeeks ++ [isoWeek now]).eraseDups)
  firstActivationAt :=
    if isActivation event ∧ current.firstActivationAt = none then some (Date.toISOString now) else current.firstActivationAt
  lastActivityAt := some (Date.toISOString now)

def recordProductTelemetry (value : String) (date : Option Int) (file : Option Json) : Outcome :=
  match telemetryEvent value, date with
  | none, _ => .error (fail "Unknown local product telemetry event.")
  | some _, none => .error (fail "Local product telemetry received an invalid clock value.")
  | some event, some now => do
    let current ← readSnapshot file
    if current.enabled then do
      failIf (isAfter current.lastActivityAt (some (Date.toISOString now)) = true)
        (fail "Local product telemetry clock moved backwards; refusing to write inconsistent activity state.")
      failIf (current.counters event = MAX_SAFE_INTEGER) (fail "Local product telemetry counter capacity reached.")
      let next := recorded current event now
      return (next, some next.toJson)
    else return (current, file)

end GhostApi.ProductTelemetry
