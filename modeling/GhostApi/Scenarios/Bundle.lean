import GhostApi.Js.Objects
import GhostApi.Js.Date
import GhostApi.Validation

/-!
# Scenario bundles and their validator

A bundle is a recorded list of interactions whose unstable values are replaced
by references to variables. validateScenarioBundle reads untyped data into a
bundle with its host and category lists sorted and its names in normal case.
Letter case is folded by tables that hold what the comparisons can see: the
letters of ASCII and the few others that fold to them.
-/

namespace GhostApi.Scenarios

open Js Security Validation Effect

def MAX_INTERACTIONS : Nat := 100
def MAX_VARIABLES : Nat := 200
def MAX_VALUE_DEPTH : Nat := 30
def MAX_VALUE_KEYS : Nat := 200

def SAFE_REQUEST_HEADERS : List String := ["accept", "content-type"]

def SAFE_RESPONSE_HEADERS : List String := ["content-type", "retry-after", "location"]

def METHODS : List String := ["GET", "POST", "PUT", "PATCH", "DELETE", "HEAD", "OPTIONS"]

structure ScenarioSanitizationSummary where
  categories : List String
  replacements : Nat
  requiresApproval : Bool
  deriving DecidableEq

structure ScenarioMetadata where
  title : String
  recordedAt : String
  sandboxHosts : List String
  deriving DecidableEq

structure ScenarioVariable where
  name : String
  value : String
  deriving DecidableEq

structure ScenarioRequest where
  method : String
  path : String
  headers : List (String × String)
  body : JsValue

structure ScenarioResponse where
  status : Nat
  headers : List (String × String)
  body : JsValue

structure ScenarioBundleInteraction where
  request : ScenarioRequest
  response : ScenarioResponse

structure ScenarioBundle where
  metadata : ScenarioMetadata
  sanitization : ScenarioSanitizationSummary
  variableList : List ScenarioVariable
  interactions : List ScenarioBundleInteraction

def scenarioBundleError (message : String) : JsError := ⟨"ScenarioBundleError", message, none⟩

/-! ## Text -/

def lowerChar (c : Char) : Char := if c == '\u212a' then 'k' else c.toLower

def toLowerCase (s : String) : String := String.ofList (s.toList.map lowerChar)

def upperChar (c : Char) : List Char :=
  if c == 'ı' then ['I'] else if c == 'ſ' then ['S'] else if c == 'ß' then ['S', 'S']
  else if c == 'ﬀ' then ['F', 'F'] else if c == 'ﬁ' then ['F', 'I'] else if c == 'ﬂ' then ['F', 'L']
  else if c == 'ﬃ' then ['F', 'F', 'I'] else if c == 'ﬄ' then ['F', 'F', 'L']
  else if c == 'ﬅ' then ['S', 'T'] else if c == 'ﬆ' then ['S', 'T'] else [c.toUpper]

def toUpperCase (s : String) : String := String.ofList (s.toList.flatMap upperChar)

/-- String.prototype.includes -/
def includes (s part : String) : Bool := s.toList.tails.any part.toList.isPrefixOf

def startsWith (s start : String) : Bool := start.toList.isPrefixOf s.toList

def SECRET_FIELD_NAMES : List String :=
  ["authorization", "cookie", "set-cookie", "api_key", "apikey", "x-api-key", "access_token", "refresh_token",
   "client_secret", "private_key", "privatekey", "signing_key", "webhook_secret", "session_id", "sessionid",
   "passphrase", "cvc", "password", "secret", "token", "key"]

def isSecretFieldName (name : String) : Bool := SECRET_FIELD_NAMES.any (includes (toLowerCase name))

def isSafeRelativeLocation (value : String) : Bool :=
  startsWith value "/" && !startsWith value "//" && !value.toList.contains '\\' &&
    !value.toList.any fun c => isControl c || c == '\x7f'

def shortTemplate : List Char := "dddd-dd-ddTdd:dd:ddZ".toList

def isTimestamp (value : String) : Bool :=
  Date.isTimestamp value ||
    (Date.fits shortTemplate value.toList && Date.isTimestamp (String.ofList (value.toList.take 19 ++ ".000Z".toList)))

/-! ## Variable references -/

def isNameStart (c : Char) : Bool := isLower c

def isNameChar (c : Char) : Bool := isLower c || isDigit c || c == '_'

def referenceStart : List Char := "\x7b\x7bghostapi.var.".toList

/-- VARIABLE_PATTERN at the start of a text: the name, and what follows the reference. -/
def referenceAt (cs : List Char) : Option (String × List Char) :=
  if referenceStart.isPrefixOf cs then
    match cs.drop referenceStart.length with
    | [] => none
    | c :: rest =>
      if isNameStart c then
        match rest.dropWhile isNameChar with
        | '\x7d' :: '\x7d' :: after => some (String.ofList (c :: rest.takeWhile isNameChar), after)
        | _ => none
      else none
  else none

/-- A template is read as a list of characters and references. -/
inductive Segment
  | char (c : Char)
  | reference (name : String)
  deriving DecidableEq

/-- The counter says how many characters of the last reference are still to skip. -/
def segmentsGo : Nat → List Char → List Segment
  | _, [] => []
  | skip + 1, _ :: cs => segmentsGo skip cs
  | 0, c :: cs => match referenceAt (c :: cs) with
    | some (name, rest) => .reference name :: segmentsGo (cs.length - rest.length) cs
    | none => .char c :: segmentsGo 0 cs

def segments (value : String) : List Segment := segmentsGo 0 value.toList

def references (value : String) : List String := (segments value).filterMap fun
  | .reference name => some name
  | .char _ => none

/-- value.replace(VARIABLE_PATTERN, "") -/
def stripped (value : String) : String := String.ofList ((segments value).filterMap fun
  | .reference _ => none
  | .char c => some c)

def validateTemplate (value : String) (variableNames : List String) : Except JsError Unit :=
  match (references value).find? fun name => !variableNames.contains name with
  | some name => .error (scenarioBundleError ("Scenario bundle references an undeclared variable: " ++ name))
  | none =>
    if includes value "\x7b\x7bghostapi.var." ∧ includes (stripped value) "\x7b\x7bghostapi.var." then
      .error (scenarioBundleError "Scenario bundle contains an invalid variable reference.")
    else .ok ()

/-! ## Readers -/

def readObject (value : JsValue) (message : String) : Except JsError Fields :=
  Validation.object scenarioBundleError value message

def assertExactKeys (value : Fields) (expected : List String) (label : String) : Except JsError Unit :=
  match (keys value).find? fun key => !expected.contains key with
  | some unknown => .error (scenarioBundleError (label ++ " contains unknown field: " ++ unknown))
  | none => .ok ()

def readString : JsValue → Option String
  | .string s => if Js.length s ≤ 256 then some s else none
  | _ => none

def readStringArray (value : JsValue) (message : String) : Except JsError (List String) := match value with
  | .array entries => match entries.mapM readString with
    | some strings => .ok strings
    | none => .error (scenarioBundleError message)
  | _ => .error (scenarioBundleError message)

/-- [...new Set(names)].sort() -/
def sortedSet (names : List String) : List String := sortNames names.eraseDups

/-- /^[a-z0-9.-]+$/ -/
def isHost (host : String) : Bool :=
  decide (host ≠ "") && host.toList.all fun c => isLower c || isDigit c || c == '.' || c == '-'

def readHostArray (value : JsValue) : Except JsError (List String) := do
  let hosts := (← readStringArray value "Scenario bundle sandbox hosts are invalid.").map toLowerCase
  failIf (hosts = [] ∨ ¬∀ host ∈ hosts, isHost host = true)
    (scenarioBundleError "Scenario bundle sandbox hosts are invalid.")
  return sortedSet hosts

def normalizeTitle (value : JsValue) : Except JsError String := match value with
  | .string text =>
    if trim text = "" ∨ 120 < Js.length (trim text) then
      .error (scenarioBundleError "Scenario bundle title must be 1-120 characters.")
    else .ok (trim text)
  | _ => .error (scenarioBundleError "Scenario bundle title must be 1-120 characters.")

def normalizeMethod (value : JsValue) : Except JsError String := match value with
  | .string method => if toUpperCase method ∈ METHODS then .ok (toUpperCase method)
    else .error (scenarioBundleError "HTTP method is invalid.")
  | _ => .error (scenarioBundleError "HTTP method is invalid.")

def isRelativePath (path : String) : Bool :=
  decide (path ≠ "") && decide (Js.length path ≤ 8000) && startsWith path "/" && !startsWith path "//" &&
    !path.toList.any fun c => c == '\r' || c == '\n'

def normalizeRelativePath (value : JsValue) : Except JsError String := match value with
  | .string path => if isRelativePath path = true then .ok path
    else .error (scenarioBundleError "Scenario request path must be a relative path.")
  | _ => .error (scenarioBundleError "Scenario request path must be a relative path.")

def readRecordedAt (value : JsValue) : Except JsError String := match value with
  | .string text => if isTimestamp text = true then .ok text
    else .error (scenarioBundleError "Scenario bundle recordedAt must be an ISO timestamp.")
  | _ => .error (scenarioBundleError "Scenario bundle recordedAt must be an ISO timestamp.")

/-! ## Interactions -/

section Interactions

variable (variableNames : List String)

def validateHeader (allowed : List String) (response : Bool) (entry : String × JsValue) :
    Except JsError (String × String) := match entry.2 with
  | .string value => do
    let lower := toLowerCase entry.1
    failIf (lower ∉ allowed ∨ 2000 < Js.length value ∨ isSecretFieldName lower = true)
      (scenarioBundleError ("Scenario bundle header is not allowed: " ++ entry.1))
    failIf (response = true ∧ lower = "location" ∧ isSafeRelativeLocation value = false)
      (scenarioBundleError "Scenario bundle redirect location must be relative.")
    validateTemplate value variableNames
    return (lower, value)
  | _ => .error (scenarioBundleError ("Scenario bundle header is not allowed: " ++ entry.1))

def validateHeaders (input : JsValue) (allowed : List String) (response : Bool) :
    Except JsError (List (String × String)) := do
  let headers ← readObject input "Scenario bundle headers must be an object."
  return fromEntries (← headers.mapM (validateHeader variableNames allowed response))

def validateString (value : String) : Except JsError Unit := do
  failIf (64 * 1024 < Js.length value) (scenarioBundleError "Scenario bundle string exceeds 65536 characters.")
  failIf (sanitizeSecretString value ≠ value) (scenarioBundleError "Scenario bundle contains a secret-shaped value.")
  validateTemplate value variableNames

/-- validateValue at a depth that leaves room for so many levels, the value's own included. -/
def validateValue : Nat → JsValue → Except JsError Unit
  | 0, _ => .error (scenarioBundleError "Scenario bundle value exceeds maximum depth of 30.")
  | room + 1, value => match value with
    | .string s => validateString variableNames s
    | .null => .ok ()
    | .bool _ => .ok ()
    | .number _ => .ok ()
    | .array items => items.forM (validateValue room)
    | .object fields => do
      failIf (MAX_VALUE_KEYS < fields.length) (scenarioBundleError "Scenario bundle object exceeds 200 keys.")
      fields.forM fun entry => do
        failIf (isSecretFieldName entry.1 = true)
          (scenarioBundleError ("Scenario bundle contains a secret-shaped field: " ++ entry.1))
        validateValue room entry.2
    | .undefined => .error (scenarioBundleError "Scenario bundle values must be JSON values.")

def validateBody (value : JsValue) : Except JsError Unit := validateValue variableNames (MAX_VALUE_DEPTH + 1) value

def normalizeBundleRequest (input : JsValue) : Except JsError ScenarioRequest := do
  let request ← readObject input "Scenario bundle request is invalid."
  assertExactKeys request ["method", "path", "headers", "body"] "Scenario bundle request"
  let method ← normalizeMethod (request.get "method")
  let path ← normalizeRelativePath (request.get "path")
  let headers ← validateHeaders variableNames (request.get "headers") SAFE_REQUEST_HEADERS false
  validateBody variableNames (request.get "body")
  return ⟨method, path, headers, request.get "body"⟩

def readStatus (value : JsValue) : Except JsError Nat := match value with
  | .number (.integer z) => if 100 ≤ z ∧ z ≤ 599 then .ok z.toNat
    else .error (scenarioBundleError "Scenario bundle response status must be 100-599.")
  | _ => .error (scenarioBundleError "Scenario bundle response status must be 100-599.")

def normalizeBundleResponse (input : JsValue) : Except JsError ScenarioResponse := do
  let response ← readObject input "Scenario bundle response is invalid."
  assertExactKeys response ["status", "headers", "body"] "Scenario bundle response"
  let status ← readStatus (response.get "status")
  let headers ← validateHeaders variableNames (response.get "headers") SAFE_RESPONSE_HEADERS true
  validateBody variableNames (response.get "body")
  return ⟨status, headers, response.get "body"⟩

def normalizeBundleInteraction (input : JsValue) : Except JsError ScenarioBundleInteraction := do
  let interaction ← readObject input "Scenario bundle interaction is invalid."
  assertExactKeys interaction ["request", "response"] "Scenario bundle interaction"
  let request ← normalizeBundleRequest variableNames (interaction.get "request")
  let response ← normalizeBundleResponse variableNames (interaction.get "response")
  return ⟨request, response⟩

end Interactions

/-! ## Variables -/

/-- /^[a-z][a-z0-9_]\x7b0,63\x7d$/ -/
def isVariableName (name : String) : Bool := match name.toList with
  | [] => false
  | c :: cs => isNameStart c && cs.all isNameChar && decide (cs.length ≤ 63)

def readVariable (entry : JsValue) : Except JsError ScenarioVariable := do
  let record ← readObject entry "Scenario bundle variable is invalid."
  assertExactKeys record ["name", "value"] "Scenario bundle variable"
  match record.get "name", record.get "value" with
  | .string name, .string value =>
    failIf (isVariableName name = false ∨ 2000 < Js.length value ∨ sanitizeSecretString value ≠ value)
      (scenarioBundleError "Scenario bundle variable is invalid.")
    return ⟨name, value⟩
  | _, _ => throw (scenarioBundleError "Scenario bundle variable is invalid.")

/-- The variables in order; a name may stand there once only. -/
def readVariables : List String → List JsValue → Except JsError (List ScenarioVariable)
  | _, [] => .ok []
  | names, entry :: rest => do
    let head ← readVariable entry
    failIf (head.name ∈ names)
      (scenarioBundleError ("Scenario bundle variable is duplicated: " ++ head.name))
    return head :: (← readVariables (head.name :: names) rest)

/-! ## Bundles -/

def isVersion (version : Int) : JsValue → Bool
  | .number (.integer z) => z == version
  | _ => false

def isKind (kind : String) : JsValue → Bool
  | .string text => text == kind
  | _ => false

def migrateScenarioBundle (input : JsValue) : Except JsError Fields := do
  let source ← readObject input "Scenario bundle must be an object."
  if isVersion 1 (source.get "schemaVersion") then return source
  failIf (isVersion 0 (source.get "schemaVersion") = false)
    (scenarioBundleError "Unsupported scenario bundle schema version; no migration is registered.")
  assertExactKeys source ["schemaVersion", "kind", "title", "recordedAt", "sandboxHosts", "variables", "interactions"]
    "Scenario bundle v0"
  return [("schemaVersion", .number (.integer 1)), ("kind", source.get "kind"),
    ("metadata", .object [("title", source.get "title"), ("recordedAt", source.get "recordedAt"),
      ("sandboxHosts", source.get "sandboxHosts")]),
    ("sanitization", .object [("categories", .array [.string "legacy-bundle"]), ("replacements", .number (.integer 0)),
      ("requiresApproval", .bool true)]),
    ("variables", source.get "variables"), ("interactions", source.get "interactions")]

def readMetadata (value : JsValue) : Except JsError ScenarioMetadata := do
  let metadata ← readObject value "Scenario bundle metadata is invalid."
  assertExactKeys metadata ["title", "recordedAt", "sandboxHosts"] "Scenario bundle metadata"
  let title ← normalizeTitle (metadata.get "title")
  let recordedAt ← readRecordedAt (metadata.get "recordedAt")
  let sandboxHosts ← readHostArray (metadata.get "sandboxHosts")
  return ⟨title, recordedAt, sandboxHosts⟩

def readSanitization (value : JsValue) : Except JsError ScenarioSanitizationSummary := do
  let sanitization ← readObject value "Scenario bundle sanitization summary is invalid."
  assertExactKeys sanitization ["categories", "replacements", "requiresApproval"] "Scenario bundle sanitization summary"
  let categories ← readStringArray (sanitization.get "categories") "Scenario bundle sanitization categories are invalid."
  match sanitization.get "replacements", sanitization.get "requiresApproval" with
  | .number (.integer replacements), .bool requiresApproval =>
    failIf (replacements < 0) (scenarioBundleError "Scenario bundle sanitization summary is invalid.")
    return ⟨sortedSet categories, replacements.toNat, requiresApproval⟩
  | _, _ => throw (scenarioBundleError "Scenario bundle sanitization summary is invalid.")

def boundedArray (value : JsValue) (low high : Nat) (message : String) : Except JsError (List JsValue) := match value with
  | .array entries => if entries.length < low ∨ high < entries.length then .error (scenarioBundleError message)
    else .ok entries
  | _ => .error (scenarioBundleError message)

def validateScenarioBundle (input : JsValue) : Except JsError ScenarioBundle := do
  let root ← migrateScenarioBundle input
  assertExactKeys root ["schemaVersion", "kind", "metadata", "sanitization", "variables", "interactions"]
    "Scenario bundle"
  failIf (isVersion 1 (root.get "schemaVersion") = false)
    (scenarioBundleError "Unsupported scenario bundle schema version.")
  failIf (isKind "ghostapi.scenario-bundle" (root.get "kind") = false)
    (scenarioBundleError "Scenario bundle kind is invalid.")
  let metadata ← readMetadata (root.get "metadata")
  let sanitization ← readSanitization (root.get "sanitization")
  let variableList ← readVariables [] (← boundedArray (root.get "variables") 0 MAX_VARIABLES
    "Scenario bundle variables must contain at most 200 entries.")
  let entries ← boundedArray (root.get "interactions") 1 MAX_INTERACTIONS
    "Scenario bundle interactions must contain 1-100 entries."
  let interactions ← entries.mapM (normalizeBundleInteraction (variableList.map (·.name)))
  return ⟨metadata, sanitization, variableList, interactions⟩

/-! ## Bundles as untyped data -/

def headersToValue (headers : List (String × String)) : JsValue :=
  .object (headers.map fun header => (header.1, .string header.2))

def ScenarioRequest.toValue (request : ScenarioRequest) : JsValue :=
  .object [("method", .string request.method), ("path", .string request.path),
    ("headers", headersToValue request.headers), ("body", request.body)]

def ScenarioResponse.toValue (response : ScenarioResponse) : JsValue :=
  .object [("status", .number (.integer response.status)), ("headers", headersToValue response.headers),
    ("body", response.body)]

def ScenarioBundleInteraction.toValue (interaction : ScenarioBundleInteraction) : JsValue :=
  .object [("request", interaction.request.toValue), ("response", interaction.response.toValue)]

def ScenarioVariable.toValue (entry : ScenarioVariable) : JsValue :=
  .object [("name", .string entry.name), ("value", .string entry.value)]

def strings (names : List String) : JsValue := .array (names.map .string)

def ScenarioMetadata.toValue (metadata : ScenarioMetadata) : JsValue :=
  .object [("title", .string metadata.title), ("recordedAt", .string metadata.recordedAt),
    ("sandboxHosts", strings metadata.sandboxHosts)]

def ScenarioSanitizationSummary.toValue (summary : ScenarioSanitizationSummary) : JsValue :=
  .object [("categories", strings summary.categories), ("replacements", .number (.integer summary.replacements)),
    ("requiresApproval", .bool summary.requiresApproval)]

def ScenarioBundle.toValue (bundle : ScenarioBundle) : JsValue :=
  .object [("schemaVersion", .number (.integer 1)), ("kind", .string "ghostapi.scenario-bundle"),
    ("metadata", bundle.metadata.toValue), ("sanitization", bundle.sanitization.toValue),
    ("variables", .array (bundle.variableList.map (·.toValue))),
    ("interactions", .array (bundle.interactions.map (·.toValue)))]

end GhostApi.Scenarios
