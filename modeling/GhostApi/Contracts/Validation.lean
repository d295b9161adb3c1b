import GhostApi.Contracts.Schema
import GhostApi.Scenarios.Bundle

/-!
# Contracts and their validator

validateContract reads untyped data into a contract whose operations, statuses
and properties are sorted. Recursion into a schema is bounded by the depth
limit, so the validator counts down the room that is left below a schema.
-/

namespace GhostApi.Contracts

open Js Security Validation Effect

def MAX_OPERATIONS : Nat := 400
def MAX_SCHEMA_DEPTH : Nat := 20
def MAX_PROPERTIES : Nat := 100

def HTTP_METHODS : List String := ["GET", "POST", "PUT", "PATCH", "DELETE", "HEAD", "OPTIONS"]

structure ContractOperation where
  method : String
  path : String
  request : Option ContractSchema
  responses : List (String × Option ContractSchema)

structure ContractProviderCapability where
  name : String
  packVersion : Option String
  capabilities : List (String × Bool)
  deriving DecidableEq

inductive ContractSource
  | openapi
  | har
  deriving DecidableEq

structure ContractMetadata where
  title : String
  source : ContractSource
  importedAt : String
  deriving DecidableEq

structure GhostApiContract where
  metadata : ContractMetadata
  operations : List ContractOperation
  providerCapabilities : List ContractProviderCapability

def contractError (message : String) : JsError := ⟨"ContractError", message, none⟩

/-! ## Field checks -/

def isFieldName (value : String) : Bool :=
  decide (value ≠ "") && decide (Js.length value ≤ 128) && !value.toList.any fun c => c == '\r' || c == '\n'

def isTimestamp (value : String) : Bool := Scenarios.isTimestamp value

/-- /^(?:[1-5][0-9]\x7b2\x7d|default)$/ -/
def isStatus (status : String) : Bool := match status.toList with
  | [a, b, c] => decide ('1' ≤ a) && decide (a ≤ '5') && isDigit b && isDigit c
  | _ => status == "default"

def pathStops : List Char := ['\r', '\n', '?', '#', '\x7b', '\x7d']

def isOpenApiPath (path : String) : Bool :=
  "/".toList.isPrefixOf path.toList && !"//".toList.isPrefixOf path.toList && decide (Js.length path ≤ 1000) &&
    !path.toList.any pathStops.contains

/-- /^[a-z][a-z0-9-]\x7b0,63\x7d$/ -/
def isCapabilityName (name : String) : Bool := match name.toList with
  | [] => false
  | c :: cs => isLower c && cs.all (fun d => isLower d || isDigit d || d == '-') && decide (cs.length ≤ 63)

def assertExactKeys (record : Fields) (allowed : List String) (label : String) : Except JsError Unit :=
  match (keys record).find? fun key => !allowed.contains key with
  | some unknown => .error (contractError (label ++ " contains unsupported field: " ++ unknown ++ "."))
  | none => .ok ()

def objectAt (value : JsValue) (message : String) : Except JsError Fields := Validation.object contractError value message

def normalizeTitle (value : JsValue) : Except JsError String := match value with
  | .string text =>
    if trim text = "" ∨ 120 < Js.length (trim text) then .error (contractError "Contract title must be 1-120 characters.")
    else if sanitizeSecretString (trim text) ≠ trim text then
      .error (contractError "Contract title must not contain a secret-shaped value.")
    else .ok (trim text)
  | _ => .error (contractError "Contract title must be 1-120 characters.")

/-! ## Schemas -/

def validateType (value : JsValue) (label : String) : Except JsError (Option SchemaType) := match value with
  | .undefined => .ok none
  | .string text => match schemaTypes.find? (·.text == text) with
    | some type => .ok (some type)
    | none => .error (contractError (label ++ " type is invalid."))
  | _ => .error (contractError (label ++ " type is invalid."))

def validateEnum (value : JsValue) (label : String) : Except JsError (Option (List Scalar)) := match value with
  | .undefined => .ok none
  | .array entries =>
    if entries = [] ∨ 100 < entries.length then .error (contractError (label ++ " enum is invalid."))
    else match entries.mapM Scalar.ofValue with
      | some scalars => .ok (some scalars)
      | none => .error (contractError (label ++ " enum is invalid."))
  | _ => .error (contractError (label ++ " enum is invalid."))

def fieldNameOf : JsValue → Option String
  | .string name => if isFieldName name then some name else none
  | _ => none

def validateRequired (value : JsValue) (label : String) : Except JsError (Option (List String)) := match value with
  | .undefined => .ok none
  | .array entries => match entries.mapM fieldNameOf with
    | some names => if names.Nodup then .ok (some (sortNames names))
      else .error (contractError (label ++ " required is invalid."))
    | none => .error (contractError (label ++ " required is invalid."))
  | _ => .error (contractError (label ++ " required is invalid."))

def validateMember (validate : JsValue → String → Except JsError ContractSchema) (label : String)
    (entry : String × JsValue) : Except JsError (String × ContractSchema) := do
  return (entry.1, ← validate entry.2 (label ++ "." ++ entry.1))

section Validators

variable (collation : Collation)

def validateProperties (validate : JsValue → String → Except JsError ContractSchema) (type : Option SchemaType)
    (value : JsValue) (label : String) : Except JsError (Option (List (String × ContractSchema))) := match value with
  | .undefined => .ok none
  | value => do
    failIf (type ≠ some .object) (contractError (label ++ " properties requires type object."))
    let entries ← objectAt value (label ++ " properties are invalid.")
    failIf (MAX_PROPERTIES < entries.length ∨ ¬∀ entry ∈ entries, isFieldName entry.1 = true)
      (contractError (label ++ " properties are invalid."))
    let members ← (collation.sortEntries entries).mapM (validateMember validate label)
    return some (fromEntries members)

def validateItems (validate : JsValue → String → Except JsError ContractSchema) (type : Option SchemaType)
    (value : JsValue) (label : String) : Except JsError (Option ContractSchema) := match value with
  | .undefined => .ok none
  | value => do
    failIf (type ≠ some .array) (contractError (label ++ " items requires type array."))
    return some (← validate value (label ++ " items"))

/-- validateSchema at a depth that leaves room for so many levels, the schema's own included. -/
def validateSchema : Nat → JsValue → String → Except JsError ContractSchema
  | 0, _, label => .error (contractError (label ++ " exceeds schema recursion depth 20."))
  | room + 1, value, label => do
    let schema ← objectAt value (label ++ " is invalid.")
    assertExactKeys schema ["type", "enum", "required", "properties", "items"] label
    let type ← validateType (schema.get "type") label
    let enum ← validateEnum (schema.get "enum") label
    let required ← validateRequired (schema.get "required") label
    let properties ← validateProperties collation (validateSchema room) type (schema.get "properties") label
    let items ← validateItems (validateSchema room) type (schema.get "items") label
    failIf (type = none ∧ enum = none) (contractError (label ++ " must declare type or enum."))
    failIf (required ≠ none ∧ type ≠ some .object) (contractError (label ++ " required requires type object."))
    return ⟨type, enum, required, properties, items⟩

def validateRootSchema (value : JsValue) (label : String) : Except JsError ContractSchema :=
  validateSchema collation (MAX_SCHEMA_DEPTH + 1) value label

/-! ## Operations -/

def validateMethod (value : JsValue) : Except JsError String := match value with
  | .string method => if method ∈ HTTP_METHODS then .ok method
    else .error (contractError "Contract operation method is invalid.")
  | _ => .error (contractError "Contract operation method is invalid.")

def validateOpenApiPath (value : JsValue) : Except JsError String := match value with
  | .string path => if isOpenApiPath path = true then .ok path else .error (contractError pathMessage)
  | _ => .error (contractError pathMessage)
where
  pathMessage := "OpenAPI path must be a bounded relative path without query, fragment, path parameters, or line breaks."

def validateRequest (value : JsValue) : Except JsError (Option ContractSchema) := match value with
  | .undefined => .ok none
  | value => some <$> validateRootSchema collation value "Contract request schema"

def validateResponse (entry : String × JsValue) : Except JsError (String × Option ContractSchema) := do
  failIf (isStatus entry.1 = false) (contractError "Contract response status is invalid.")
  match entry.2 with
  | .null => return (entry.1, none)
  | schema => return (entry.1, some (← validateRootSchema collation schema ("Contract response " ++ entry.1 ++ " schema")))

def validateOperation (value : JsValue) : Except JsError ContractOperation := do
  let operation ← objectAt value "Contract operation is invalid."
  assertExactKeys operation ["method", "path", "request", "responses"] "Contract operation"
  let method ← validateMethod (operation.get "method")
  let path ← validateOpenApiPath (operation.get "path")
  let responses ← objectAt (operation.get "responses") "Contract operation responses are invalid."
  failIf (responses = [] ∨ 20 < responses.length) (contractError "Contract operation responses are invalid.")
  let request ← validateRequest collation (operation.get "request")
  let entries ← (collation.sortEntries responses).mapM (validateResponse collation)
  return ⟨method, path, request, fromEntries entries⟩

/-! ## Provider capabilities -/

def validatePackVersion (value : JsValue) : Except JsError (Option String) := match value with
  | .null => .ok none
  | .string version => .ok (some version)
  | _ => .error (contractError "Contract provider pack version is invalid.")

def flagOf (flag : String × JsValue) : Option (String × Bool) := match flag.2 with
  | .bool value => some (flag.1, value)
  | _ => none

def validateFlags (flags : Fields) : Except JsError (List (String × Bool)) :=
  if 30 < flags.length then .error (contractError "Contract provider capabilities are invalid.")
  else match flags.mapM flagOf with
    | some values => .ok (fromEntries (collation.sortEntries values))
    | none => .error (contractError "Contract provider capabilities are invalid.")

def validateCapabilityName (value : JsValue) : Except JsError String := match value with
  | .string name => if isCapabilityName name = true then .ok name
    else .error (contractError "Contract provider capability name is invalid.")
  | _ => .error (contractError "Contract provider capability name is invalid.")

def validateCapability (value : JsValue) : Except JsError ContractProviderCapability := do
  let capability ← objectAt value "Contract provider capability is invalid."
  assertExactKeys capability ["name", "packVersion", "capabilities"] "Contract provider capability"
  let name ← validateCapabilityName (capability.get "name")
  let packVersion ← validatePackVersion (capability.get "packVersion")
  let flags ← objectAt (capability.get "capabilities") "Contract provider capabilities are invalid."
  return ⟨name, packVersion, ← validateFlags collation flags⟩

/-! ## Contracts -/

def operationKey (operation : ContractOperation) : String := operation.method ++ " " ++ operation.path

/-- operations.sort(compareOperations) -/
def sortOperations (operations : List ContractOperation) : List ContractOperation :=
  collation.sortBy operationKey operations

def firstRepeated : List String → List String → Option String
  | _, [] => none
  | seen, key :: rest => if key ∈ seen then some key else firstRepeated (key :: seen) rest

def assertDistinct (operations : List ContractOperation) : Except JsError Unit :=
  match firstRepeated [] (operations.map operationKey) with
  | some key => .error (contractError ("Contract operation is duplicated: " ++ key))
  | none => .ok ()

def validateSource (value : JsValue) : Except JsError ContractSource := match value with
  | .string "openapi" => .ok .openapi
  | .string "har" => .ok .har
  | _ => .error (contractError "Contract metadata source must be openapi or har.")

def validateImportedAt (value : JsValue) : Except JsError String := match value with
  | .string text => if isTimestamp text = true then .ok text
    else .error (contractError "Contract metadata importedAt must be an ISO timestamp.")
  | _ => .error (contractError "Contract metadata importedAt must be an ISO timestamp.")

def isSchemaVersion : JsValue → Bool
  | .number (.integer 1) => true
  | _ => false

def isKind (kind : String) : JsValue → Bool
  | .string text => text == kind
  | _ => false

def boundedArray (value : JsValue) (low high : Nat) (message : String) : Except JsError (List JsValue) := match value with
  | .array entries => if entries.length < low ∨ high < entries.length then .error (contractError message)
    else .ok entries
  | _ => .error (contractError message)

def validateContract (input : JsValue) : Except JsError GhostApiContract := do
  let root ← objectAt input "Contract must be an object."
  assertExactKeys root ["schemaVersion", "kind", "metadata", "operations", "providerCapabilities"] "Contract"
  failIf (isSchemaVersion (root.get "schemaVersion") = false ∨ isKind "ghostapi.contract" (root.get "kind") = false)
    (contractError "Unsupported contract schema or kind.")
  let metadata ← objectAt (root.get "metadata") "Contract metadata is invalid."
  assertExactKeys metadata ["title", "source", "importedAt"] "Contract metadata"
  let source ← validateSource (metadata.get "source")
  let importedAt ← validateImportedAt (metadata.get "importedAt")
  let entries ← boundedArray (root.get "operations") 1 MAX_OPERATIONS "Contract operations must contain 1-400 entries."
  let operations := sortOperations collation (← entries.mapM (validateOperation collation))
  assertDistinct operations
  let packs ← boundedArray (root.get "providerCapabilities") 0 20 "Contract provider capabilities are invalid."
  let capabilities ← packs.mapM (validateCapability collation)
  let providerCapabilities := collation.sortBy (·.name) capabilities
  let title ← normalizeTitle (metadata.get "title")
  return ⟨⟨title, source, importedAt⟩, operations, providerCapabilities⟩

end Validators

/-! ## Contracts as untyped data -/

def optionalMember (key : String) : Option JsValue → Fields
  | none => []
  | some value => [(key, value)]

namespace ContractSchema

/-- A schema object from its members; an absent member is left out. -/
def fields (type enum required properties items : Option JsValue) : Fields :=
  optionalMember "type" type ++ optionalMember "enum" enum ++ optionalMember "required" required ++
    optionalMember "properties" properties ++ optionalMember "items" items

mutual
def toValue : ContractSchema → JsValue
  | ⟨type, enum, required, properties, items⟩ => .object (fields (type.map (.string ·.text))
      (enum.map fun entries => .array (entries.map Scalar.toValue))
      (required.map fun names => .array (names.map .string))
      (match properties with
        | some members => some (.object (membersToValue members))
        | none => none)
      (match items with
        | some schema => some schema.toValue
        | none => none))

def membersToValue : List (String × ContractSchema) → Fields
  | [] => []
  | (key, schema) :: rest => (key, schema.toValue) :: membersToValue rest
end

end ContractSchema

def ContractOperation.fields (operation : ContractOperation) : Fields :=
  [("method", .string operation.method), ("path", .string operation.path)] ++
    optionalMember "request" (operation.request.map (·.toValue)) ++
    [("responses", .object (operation.responses.map fun entry => (entry.1, entry.2.elim .null (·.toValue))))]

def ContractOperation.toValue (operation : ContractOperation) : JsValue := .object operation.fields

def ContractProviderCapability.toValue (capability : ContractProviderCapability) : JsValue :=
  .object [("name", .string capability.name), ("packVersion", capability.packVersion.elim .null .string),
    ("capabilities", .object (capability.capabilities.map fun flag => (flag.1, .bool flag.2)))]

def ContractSource.text : ContractSource → String
  | .openapi => "openapi"
  | .har => "har"

def ContractMetadata.toValue (metadata : ContractMetadata) : JsValue :=
  .object [("title", .string metadata.title), ("source", .string metadata.source.text),
    ("importedAt", .string metadata.importedAt)]

def GhostApiContract.toValue (contract : GhostApiContract) : JsValue :=
  .object [("schemaVersion", .number (.integer 1)), ("kind", .string "ghostapi.contract"),
    ("metadata", contract.metadata.toValue), ("operations", .array (contract.operations.map (·.toValue))),
    ("providerCapabilities", .array (contract.providerCapabilities.map (·.toValue)))]

end GhostApi.Contracts
