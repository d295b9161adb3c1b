import GhostApi.Lib.Template
import GhostApi.Policy.CredentialGlobs
import GhostApi.Scenarios.Bundle

/-!
# Replaying a bundle

A replayer answers the interactions of a bundle in order. A request is read
against the recorded one with a copy of the bindings, which replaces them only
when all parts of the request agree. Texts are matched and answered by code
units, since a captured text may end within a character.
-/

namespace GhostApi.Scenarios

open Js Security Validation Effect Template
open Policy (CodeUnit JsString units)

/-! ## Requests -/

def isCardParent (parentKey : String) : Bool :=
  includes parentKey.toLower "card" || includes parentKey.toLower "payment_method"

def isCardNumberField (key : String) (parentKey : Option String) : Bool :=
  toLowerCase key == "number" && parentKey.any isCardParent

def MASK : String := "***"

mutual
def maskByType : JsValue → JsValue
  | .array items => .array (maskItems items)
  | .object fields => .object (fields.map fun member => (member.1, .string MASK))
  | .string s => .string (if startsWith (toLowerCase (trim s)) "bearer " then "Bearer ***" else MASK)
  | _ => .string MASK

def maskItems : List JsValue → List JsValue
  | [] => []
  | item :: rest => maskByType item :: maskItems rest
end

mutual
def sanitizeSecretsValue (parentKey : Option String) : JsValue → JsValue
  | .array items => .array (sanitizeItems parentKey items)
  | .object fields => .object (sanitizeFields parentKey fields)
  | .string s => .string (sanitizeSecretString s)
  | value => value

def sanitizeItems (parentKey : Option String) : List JsValue → List JsValue
  | [] => []
  | item :: rest => sanitizeSecretsValue parentKey item :: sanitizeItems parentKey rest

def sanitizeFields (parentKey : Option String) : Fields → Fields
  | [] => []
  | (key, value) :: rest =>
    (key, if isSecretFieldName key || isCardNumberField key parentKey then maskByType value
      else sanitizeSecretsValue (some key) value) :: sanitizeFields parentKey rest
end

def sanitizeSecrets (value : JsValue) : JsValue := sanitizeSecretsValue none value

inductive HeaderValue
  | one (value : String)
  | many (values : List String)

def HeaderValue.text : HeaderValue → String
  | one value => value
  | many values => Json.join ", " values

structure ScenarioReplayRequest where
  method : JsValue
  path : JsValue
  headers : Option (List (String × HeaderValue)) := none
  body : JsValue := .undefined

def normalizeReplayHeaders (headers : Option (List (String × HeaderValue))) : List (String × String) :=
  fromEntries ((headers.getD []).filterMap fun header =>
    if toLowerCase header.1 ∈ SAFE_REQUEST_HEADERS then some (toLowerCase header.1, header.2.text) else none)

def orNull (value : JsValue) : JsValue := if value.isUndefined then .null else value

def normalizeReplayRequest (input : ScenarioReplayRequest) : Except JsError ScenarioRequest := do
  let method ← normalizeMethod input.method
  let path ← normalizeRelativePath input.path
  return ⟨method, path, normalizeReplayHeaders input.headers, sanitizeSecrets (orNull input.body)⟩

/-! ## Templates -/

abbrev VariableBindings := Bindings String CodeUnit

def templateOf (value : String) : List (Item String CodeUnit) := (segments value).map fun
  | .char c => .text (units (String.singleton c))
  | .reference name => .slot name

def isLineTerminator (unit : CodeUnit) : Bool := unit == 10 || unit == 13 || unit == 0x2028 || unit == 0x2029

section Matching

variable (variableList : List ScenarioVariable)

def known (name : String) : Bool := (variableList.map (·.name)).contains name

def matchTemplate (expected actual : String) (bindings : VariableBindings) : Bool × VariableBindings :=
  if references expected = [] then (expected == actual, bindings)
  else if ¬(references expected).all (known variableList) then (false, bindings)
  else read isLineTerminator (templateOf expected) (units actual) bindings

/-- Whether two values that are no texts, arrays or objects are strictly equal. JsNumber does not tell numbers
that are not finite apart, so that these may count as the same or not. -/
def strictlyEqual (sameNonFinite : Bool) : JsValue → JsValue → Bool
  | .undefined, .undefined => true
  | .null, .null => true
  | .bool a, .bool b => a == b
  | .number .nonFinite, .number .nonFinite => sameNonFinite
  | .number a, .number b => a == b
  | _, _ => false

variable (sameNonFinite : Bool)

mutual
def matchValue : JsValue → JsValue → VariableBindings → Bool × VariableBindings
  | .string expected, .string actual, bindings => matchTemplate variableList expected actual bindings
  | .array expected, .array actual, bindings =>
    if expected.length = actual.length then matchItems expected actual bindings else (false, bindings)
  | .object expected, .object actual, bindings =>
    if expected.length = actual.length then matchFields expected actual bindings else (false, bindings)
  | expected, actual, bindings => (strictlyEqual sameNonFinite expected actual, bindings)

def matchItems : List JsValue → List JsValue → VariableBindings → Bool × VariableBindings
  | expected :: rest, actual :: others, bindings =>
    let first := matchValue expected actual bindings
    if first.1 then matchItems rest others first.2 else first
  | _, _, bindings => (true, bindings)

def matchFields : Fields → Fields → VariableBindings → Bool × VariableBindings
  | [], _, bindings => (true, bindings)
  | (key, expected) :: rest, actual, bindings => match actual.lookup key with
    | none => (false, bindings)
    | some value =>
      let first := matchValue expected value bindings
      if first.1 then matchFields rest actual first.2 else first
end

/-- The mismatches of a request; each part is compared even after a mismatch. -/
def compareRequest (expected actual : ScenarioRequest) (bindings : VariableBindings) : List String × VariableBindings :=
  let path := matchTemplate variableList expected.path actual.path bindings
  let headers := matchValue variableList sameNonFinite (headersToValue expected.headers)
    (headersToValue actual.headers) path.2
  let body := matchValue variableList sameNonFinite expected.body actual.body headers.2
  ((if expected.method = actual.method then []
      else ["method expected " ++ expected.method ++ ", received " ++ actual.method]) ++
    (if path.1 then [] else ["path expected " ++ expected.path ++ ", received " ++ actual.path]) ++
    (if headers.1 then [] else ["safe request headers differ"]) ++
    (if body.1 then [] else ["request body differs"]), body.2)

end Matching

/-! ## Answers -/

inductive ReplayValue
  | undefined
  | null
  | bool (b : Bool)
  | number (n : JsNumber)
  | string (s : JsString)
  | array (items : List ReplayValue)
  | object (fields : List (String × ReplayValue))

structure ScenarioReplayResult where
  index : Nat
  status : Nat
  headers : List (String × JsString)
  body : ReplayValue

section Resolving

variable (variableList : List ScenarioVariable)

/-- The value of a variable in the dictionary, of the last one with the name. -/
def dictionary (name : String) : JsString := match variableList.reverse.find? (·.name == name) with
  | some entry => units entry.value
  | none => []

def resolveTemplate (value : String) (bindings : VariableBindings) : JsString × VariableBindings :=
  fill (dictionary variableList) (templateOf value) bindings

def resolveHeaders : List (String × String) → VariableBindings → List (String × JsString) × VariableBindings
  | [], bindings => ([], bindings)
  | (key, value) :: rest, bindings =>
    let first := resolveTemplate variableList value bindings
    let others := resolveHeaders rest first.2
    ((key, first.1) :: others.1, others.2)

mutual
def resolveVariables : JsValue → VariableBindings → ReplayValue × VariableBindings
  | .undefined, bindings => (.undefined, bindings)
  | .null, bindings => (.null, bindings)
  | .bool b, bindings => (.bool b, bindings)
  | .number n, bindings => (.number n, bindings)
  | .string s, bindings =>
    let resolved := resolveTemplate variableList s bindings
    (.string resolved.1, resolved.2)
  | .array items, bindings =>
    let resolved := resolveItems items bindings
    (.array resolved.1, resolved.2)
  | .object fields, bindings =>
    let resolved := resolveFields fields bindings
    (.object resolved.1, resolved.2)

def resolveItems : List JsValue → VariableBindings → List ReplayValue × VariableBindings
  | [], bindings => ([], bindings)
  | item :: rest, bindings =>
    let first := resolveVariables item bindings
    let others := resolveItems rest first.2
    (first.1 :: others.1, others.2)

def resolveFields : Fields → VariableBindings → List (String × ReplayValue) × VariableBindings
  | [], bindings => ([], bindings)
  | (key, value) :: rest, bindings =>
    let first := resolveVariables value bindings
    let others := resolveFields rest first.2
    ((key, first.1) :: others.1, others.2)
end

end Resolving

/-! ## The replayer -/

structure ScenarioReplayer where
  bundle : ScenarioBundle
  cursor : Nat := 0
  bindings : VariableBindings := fun _ => none

def createScenarioReplayer (bundle : JsValue) : Except JsError ScenarioReplayer := do
  return { bundle := ← validateScenarioBundle bundle }

namespace ScenarioReplayer

def remaining (replayer : ScenarioReplayer) : Nat := replayer.bundle.interactions.length - replayer.cursor

def unexpected (replayer : ScenarioReplayer) : JsError :=
  scenarioBundleError ("Replay received an unexpected request after interaction " ++ toString replayer.cursor ++
    ". The bundle has no remaining interactions.")

def mismatch (replayer : ScenarioReplayer) (mismatches : List String) : JsError :=
  scenarioBundleError ("Replay mismatch at interaction " ++ toString (replayer.cursor + 1) ++ ": " ++
    Json.join "; " mismatches ++ ". Replay is sequence-strict and never searches for an alternative match.")

/-- The answer to a request that agrees with the interaction, with the bindings that are kept. -/
def answer (replayer : ScenarioReplayer) (interaction : ScenarioBundleInteraction) (bindings : VariableBindings) :
    ScenarioReplayResult × ScenarioReplayer :=
  let headers := resolveHeaders replayer.bundle.variableList interaction.response.headers bindings
  let body := resolveVariables replayer.bundle.variableList interaction.response.body headers.2
  (⟨replayer.cursor + 1, interaction.response.status, headers.1, body.1⟩,
    { replayer with cursor := replayer.cursor + 1, bindings := body.2 })

def replay (sameNonFinite : Bool) (replayer : ScenarioReplayer) (request : ScenarioReplayRequest) :
    Except JsError ScenarioReplayResult × ScenarioReplayer :=
  match replayer.bundle.interactions[replayer.cursor]? with
  | none => (.error replayer.unexpected, replayer)
  | some interaction => match normalizeReplayRequest request with
    | .error e => (.error e, replayer)
    | .ok actual =>
      let compared := compareRequest replayer.bundle.variableList sameNonFinite interaction.request actual
        replayer.bindings
      if compared.1 = [] then
        let answered := replayer.answer interaction compared.2
        (.ok answered.1, answered.2)
      else (.error (replayer.mismatch compared.1), replayer)

def replays (sameNonFinite : Bool) (replayer : ScenarioReplayer) :
    List ScenarioReplayRequest → List (Except JsError ScenarioReplayResult) × ScenarioReplayer
  | [] => ([], replayer)
  | request :: rest =>
    let first := replayer.replay sameNonFinite request
    let others := first.2.replays sameNonFinite rest
    (first.1 :: others.1, others.2)

end ScenarioReplayer

end GhostApi.Scenarios
