import GhostApi.Hosted.Reports

/-!
# Scenario definitions and their evaluation

A scenario applies to a report where all its conditions hold, and passes where
all its assertions do. A path reads the fields of objects, and also what every
object inherits.
-/

namespace GhostApi.Hosted

open Js

structure ScenarioDefinitionError
  deriving DecidableEq

def MAX_DEFINITION_BYTES : Nat := 256 * 1024

def MAX_PATHS : Nat := 100

def isPathChar (c : Char) : Bool := isAlnum c || c == '_' || c == '-'

def segments (path : String) : List (List Char) := path.toList.splitOn '.'

def validatePath (path : String) : Except ScenarioDefinitionError Unit :=
  checkIf (¬(1 ≤ path.toList.length ∧ Js.length path ≤ 256 ∧
    (segments path).all (fun segment => !segment.isEmpty && segment.all isPathChar) = true)) {}

mutual
def validateJson (depth : Nat) (value : Json) : Except ScenarioDefinitionError Unit := do
  checkIf (8 < depth) {}
  match value with
  | .string s => checkIf (64 * 1024 < Js.length s) {}
  | .array items => do
    checkIf (1000 < items.length) {}
    validateItems (depth + 1) items
  | .object fields => do
    checkIf (1000 < fields.length) {}
    validateFields (depth + 1) fields
  | _ => .ok ()

def validateItems (depth : Nat) : List Json → Except ScenarioDefinitionError Unit
  | [] => .ok ()
  | item :: rest => do
    validateJson depth item
    validateItems depth rest

def validateFields (depth : Nat) : List (String × Json) → Except ScenarioDefinitionError Unit
  | [] => .ok ()
  | (_, value) :: rest => do
    validateJson depth value
    validateFields depth rest
end

structure ScenarioAssertion where
  path : String
  equals : Option Json

structure ScenarioDefinition where
  conditions : List (String × Json)
  assertions : List ScenarioAssertion

/-- A member that is neither missing nor null. -/
def memberOf (fields : List (String × Json)) (key : String) : Option Json := match fields.lookup key with
  | some .null | none => none
  | some value => some value

def validateConditions : List (String × Json) → Except ScenarioDefinitionError Unit
  | [] => .ok ()
  | (path, expected) :: rest => do
    validatePath path
    validateJson 0 expected
    validateConditions rest

def validateAssertion (value : Json) : Except ScenarioDefinitionError ScenarioAssertion := match value with
  | .object fields => do
    checkIf (¬fields.all (fun field => ["path", "equals", "exists"].contains field.1) = true) {}
    match fields.lookup "path" with
    | some (.string path) => do
      validatePath path
      match fields.lookup "equals", fields.lookup "exists" with
      | some _, some (.bool true) => .error {}
      | some expected, _ => do
        validateJson 0 expected
        return ⟨path, some expected⟩
      | none, some (.bool true) => return ⟨path, none⟩
      | none, _ => .error {}
    | _ => .error {}
  | _ => .error {}

def validateScenarioDefinition (value : Json) : Except ScenarioDefinitionError ScenarioDefinition := match value with
  | .object fields => do
    checkIf (¬fields.all (fun field => field.1 == "when" || field.1 == "assertions") = true) {}
    let conditions ← match memberOf fields "when" with
      | none => .ok []
      | some (.object conditions) => .ok conditions
      | some _ => .error {}
    checkIf (MAX_PATHS < conditions.length) {}
    validateConditions conditions
    let items ← match memberOf fields "assertions" with
      | none => .ok []
      | some (.array items) => .ok items
      | some _ => .error {}
    checkIf (MAX_PATHS < items.length) {}
    let assertions ← items.mapM validateAssertion
    checkIf (MAX_DEFINITION_BYTES < value.canonical.utf8ByteSize) {}
    return ⟨conditions, assertions⟩
  | _ => .error {}

/-! ## Evaluation -/

/-- What a path leads to: a value of the report, or a property that objects inherit. -/
inductive Found
  | undefined
  | json (value : Json)
  | function
  | prototype

def inheritedFunctions : List String :=
  ["constructor", "__defineGetter__", "__defineSetter__", "hasOwnProperty", "__lookupGetter__", "__lookupSetter__",
   "isPrototypeOf", "propertyIsEnumerable", "toString", "valueOf", "toLocaleString"]

def inherited (segment : String) : Found :=
  if segment == "__proto__" then .prototype
  else if inheritedFunctions.contains segment then .function
  else .undefined

def Found.get (found : Found) (segment : String) : Found := match found with
  | .json (.object fields) => match fields.lookup segment with
    | some value => .json value
    | none => inherited segment
  | .prototype => if segment == "__proto__" then .json .null else inherited segment
  | _ => .undefined

def readPath (value : Json) (path : String) : Found :=
  (segments path).foldl (fun found segment => found.get (String.ofList segment)) (.json value)

/-- The text that stableJson gives, which is undefined for undefined and for functions. -/
def Found.text : Found → Option String
  | .undefined | .function => none
  | .json value => some value.canonical
  | .prototype => some (Json.object []).canonical

def deepEqual (left : Found) (right : Json) : Bool := left.text == some right.canonical

def Found.isUndefined : Found → Bool
  | .undefined => true
  | _ => false

structure Evaluation where
  passed : Bool
  assertions : List (String × Bool)

def ScenarioAssertion.holds (assertion : ScenarioAssertion) (payload : Json) : Bool :=
  match assertion.equals with
  | some expected => deepEqual (readPath payload assertion.path) expected
  | none => !(readPath payload assertion.path).isUndefined

def evaluateScenario (definition payload : Json) : Except ScenarioDefinitionError (Option Evaluation) := do
  let scenario ← validateScenarioDefinition definition
  if scenario.conditions.all (fun condition => deepEqual (readPath payload condition.1) condition.2) then
    let results := scenario.assertions.map fun assertion => (assertion.path, assertion.holds payload)
    return some ⟨results.all (·.2), results⟩
  else return none

def Evaluation.json (evaluation : Evaluation) : Json :=
  .object [("passed", .bool evaluation.passed), ("assertions", .array (evaluation.assertions.map fun (path, passed) =>
    .object [("path", .string path), ("passed", .bool passed)]))]

end GhostApi.Hosted
