import GhostApi.Contracts.Validity

/-!
# Contracts derived from recorded bundles

Every body of a recording is a sample. inferSchema describes one sample, and
mergeSchemas describes what two descriptions have in common. Samples of
different types have nothing in common, and their merge is the empty schema.
-/

namespace GhostApi.Contracts

open Js Validation Effect Scenarios

/-! ## Merging -/

def mergeEnum (left right : Option (List Scalar)) : Option (List Scalar) := match left, right with
  | some left, some right =>
    match left.filter fun entry => right.any fun candidate => candidate.stableStringify == entry.stableStringify with
    | [] => none
    | intersection => some intersection
  | _, _ => none

mutual
def merge : ContractSchema → ContractSchema → ContractSchema
  | ⟨type, enum, required, properties, items⟩, right =>
    if type ≠ right.type then {}
    else
      let common := match properties with
        | some members => sortByName (mergeMembers members right.declared)
        | none => []
      { type := type
        enum := mergeEnum enum right.enum
        required := if type = some .object then
            some (sortNames ((required.getD []).filter fun name =>
              right.requiredNames.contains name && (keys common).contains name))
          else none
        properties := if type = some .object then some common else none
        items := if type = some .array then
            match items, right.items with
            | none, other => other
            | some own, none => some own
            | some own, some other => some (merge own other)
          else none }

def mergeMembers : List (String × ContractSchema) → List (String × ContractSchema) → List (String × ContractSchema)
  | [], _ => []
  | (name, left) :: rest, others => match others.lookup name with
    | some right => (name, merge left right) :: mergeMembers rest others
    | none => mergeMembers rest others
end

def mergeSchemas (left right : Option ContractSchema) : Option ContractSchema := Option.merge merge left right

/-! ## Inference -/

/-- Object.entries of the object that a list of members stands for. -/
def entriesOf (fields : Fields) : Fields := fromEntries fields

def integerOrNumber : JsNumber → SchemaType
  | .integer _ => .integer
  | _ => .number

/-- inferSchema at a depth that leaves room for so many levels, the value's own included. -/
def inferSchema (collation : Collation) : Nat → JsValue → Except JsError ContractSchema
  | 0, _ => .error (contractError "HAR body exceeds schema recursion depth 20.")
  | room + 1, value => match value with
    | .null => .ok { type := some .null }
    | .array [] => .ok { type := some .array }
    | .array (first :: rest) => do
      let start ← inferSchema collation room first
      let items ← rest.foldlM (fun current entry => do return merge current (← inferSchema collation room entry)) start
      return { type := some .array, items := some items }
    | .string _ => .ok { type := some .string }
    | .bool _ => .ok { type := some .boolean }
    | .number n => .ok { type := some (integerOrNumber n) }
    | .undefined => .error (contractError "HAR body must be a JSON value.")
    | .object fields => do
      let entries := entriesOf fields
      failIf (MAX_PROPERTIES < entries.length) (contractError "HAR body object exceeds 100 properties.")
      let members ← (collation.sortEntries entries).mapM fun entry => do
        return (entry.1, ← inferSchema collation room entry.2)
      return {
        type := some .object
        required := some (sortNames (keys entries))
        properties := some (fromEntries members) }

def inferRootSchema (collation : Collation) (value : JsValue) : Except JsError ContractSchema :=
  inferSchema collation (MAX_SCHEMA_DEPTH + 1) value

/-! ## The provider packs of the program -/

def capabilityFlags (requestParsing validation stateTransitions scenarios webhooks conformanceFixtures : Bool) :
    List (String × Bool) :=
  [("detection", true), ("requestParsing", requestParsing), ("validation", validation),
   ("deterministicResponses", true), ("stateTransitions", stateTransitions), ("providerErrors", true),
   ("scenarios", scenarios), ("webhooks", webhooks), ("conformanceFixtures", conformanceFixtures)]

/-- What getProviderManifests lists of name, packVersion and capabilities. -/
def providerManifests : List ContractProviderCapability :=
  [⟨"stripe", some "1.1.0", capabilityFlags true true true true true true⟩,
   ⟨"twilio", none, capabilityFlags false true false false false false⟩,
   ⟨"resend", some "1.0.0", capabilityFlags true true true true false true⟩,
   ⟨"github", none, capabilityFlags false false false true false false⟩,
   ⟨"discord", none, capabilityFlags false false false false false false⟩,
   ⟨"openai", none, capabilityFlags false false false false false false⟩,
   ⟨"generic", none, capabilityFlags false false false false false false⟩]

def currentProviderCapabilities (collation : Collation) : List ContractProviderCapability :=
  collation.sortBy (·.name) (providerManifests.map fun manifest =>
    { manifest with capabilities := collation.sortEntries manifest.capabilities })

/-! ## Recording operations -/

/-- path.split("?", 1)[0] -/
def pathWithoutQuery (path : String) : String := String.ofList (path.toList.takeWhile (· != '?'))

def interactionKey (interaction : ScenarioBundleInteraction) : String :=
  interaction.request.method ++ " " ++ pathWithoutQuery interaction.request.path

/-- responses[status] = schema. An engine lists the numeric names of an object in ascending order. -/
def setStatus (responses : List (String × Option ContractSchema)) (status : Nat) (schema : Option ContractSchema) :
    List (String × Option ContractSchema) :=
  sortByName (setMember responses (toString status, schema))

section Recording

variable (collation : Collation)

def recordInteraction (operations : List (String × ContractOperation)) (interaction : ScenarioBundleInteraction) :
    Except JsError (List (String × ContractOperation)) := do
  let status := interaction.response.status
  let responseSchema ← inferRootSchema collation interaction.response.body
  let request ← inferRootSchema collation interaction.request.body
  return setMember operations (interactionKey interaction,
    match operations.lookup (interactionKey interaction) with
    | none => {
        method := interaction.request.method
        path := pathWithoutQuery interaction.request.path
        request := some request
        responses := [(toString status, some responseSchema)] }
    | some existing => { existing with
        responses := setStatus existing.responses status
          (mergeSchemas ((existing.responses.lookup (toString status)).join) (some responseSchema))
        request := mergeSchemas existing.request (some request) })

def contractFromScenarioBundle (bundle : ScenarioBundle) (title importedAt : String) : Except JsError GhostApiContract := do
  let operations ← bundle.interactions.foldlM (recordInteraction collation) []
  let title ← Contracts.normalizeTitle (.string title)
  let draft : GhostApiContract := {
    metadata := ⟨title, .har, importedAt⟩
    operations := sortOperations collation (operations.map Prod.snd)
    providerCapabilities := currentProviderCapabilities collation }
  validateContract collation draft.toValue

def contractFromScenarioBundleDefault (bundle : ScenarioBundle) : Except JsError GhostApiContract :=
  contractFromScenarioBundle collation bundle bundle.metadata.title bundle.metadata.recordedAt

end Recording

end GhostApi.Contracts
