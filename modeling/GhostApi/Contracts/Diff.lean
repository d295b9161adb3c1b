import GhostApi.Contracts.Validity

/-!
# Comparing two contracts

diffContracts walks both contracts side by side and files a finding for every
difference. What a difference means for existing callers depends on whether
the schema is one of a request, which the callers send, or of a response,
which they receive.
-/

namespace GhostApi.Contracts

open Js Validation Effect

inductive ContractDiffSeverity
  | breaking
  | nonBreaking
  | uncertain
  deriving DecidableEq

structure ContractDiffFinding where
  id : String
  severity : ContractDiffSeverity
  message : String
  deriving DecidableEq

structure ContractDiffSummary where
  breaking : Nat
  nonBreaking : Nat
  uncertain : Nat

structure ContractDiff where
  baselineHash : String
  candidateHash : String
  findings : List ContractDiffFinding
  summary : ContractDiffSummary

inductive DiffContext
  | request
  | response
  deriving DecidableEq

def finding (kind subject : String) (severity : ContractDiffSeverity) (message : String) : ContractDiffFinding :=
  ⟨kind ++ ":" ++ subject, severity, message⟩

/-- The values of one set that the other has not, sorted. -/
def missing (values others : List String) : List String :=
  sortNames (values.eraseDups.filter fun value => !others.contains value)

/-! ## Schemas -/

section Schemas

variable (context : DiffContext) (location : String)

def diffEnum (before after : Option (List Scalar)) : List ContractDiffFinding := match before, after with
  | none, none => []
  | some before, some after =>
    let beforeValues := before.map Scalar.stableStringify
    let afterValues := after.map Scalar.stableStringify
    ((missing beforeValues afterValues).map fun value =>
        finding "enum-value-removed" (location ++ "." ++ value) .breaking
          (location ++ " enum value removed: " ++ value ++ ".")) ++
      (missing afterValues beforeValues).map fun value =>
        finding "enum-value-added" (location ++ "." ++ value)
          (if context = .request then .nonBreaking else .uncertain)
          (location ++ " enum value added: " ++ value ++ "." ++
            (if context = .response then " Client handling is unknown." else ""))
  | _, _ => [finding "enum-presence-changed" location .uncertain
      (location ++ " enum constraint changed; compatibility cannot be proven.")]

def diffRequired (before after : List String) : List ContractDiffFinding :=
  ((missing after before).map fun field =>
      finding "required-field-added" (location ++ "." ++ field)
        (if context = .request then .breaking else .uncertain)
        (location ++ " required field added: " ++ field ++ "." ++
          (if context = .response then " Client response tolerance is unknown." else ""))) ++
    (missing before after).map fun field =>
      finding "required-field-removed" (location ++ "." ++ field)
        (if context = .response then .breaking else .nonBreaking)
        (location ++ " required field removed: " ++ field ++ "." ++
          (if context = .response then " Existing clients may depend on it." else ""))

def diffPropertyNames (before after : List String) : List ContractDiffFinding :=
  ((missing before after).map fun field =>
      finding "property-removed" (location ++ "." ++ field)
        (if context = .response then .breaking else .uncertain)
        (location ++ " property removed: " ++ field ++ "." ++
          (if context = .request then " Acceptance of this field is not modeled by the supported subset." else ""))) ++
    (missing after before).map fun field =>
      finding "property-added" (location ++ "." ++ field)
        (if context = .request then .nonBreaking else .uncertain)
        (location ++ " property added: " ++ field ++ "." ++
          (if context = .response then " Client response tolerance is unknown." else ""))

def presenceChanged : ContractDiffFinding :=
  finding "schema-presence-changed" location .uncertain
    (location ++ " schema presence changed; compatibility cannot be proven.")

def typeText (type : Option SchemaType) : String := type.elim "unspecified" (·.text)

def typeChanged (before after : Option SchemaType) : ContractDiffFinding :=
  finding "schema-type-changed" location .breaking
    (location ++ " type changed from " ++ typeText before ++ " to " ++ typeText after ++ ".")

end Schemas

section Recursion

variable (context : DiffContext)

mutual
def diffSchemas : ContractSchema → ContractSchema → String → List ContractDiffFinding
  | ⟨type, enum, required, properties, items⟩, after, location =>
    if type ≠ after.type then [typeChanged location type after.type]
    else
      diffEnum context location enum after.enum ++
      diffRequired context location (required.getD []) after.requiredNames ++
      diffPropertyNames context location (keys (properties.getD [])) (keys after.declared) ++
      (match properties with
        | some members => (sortByName (diffMembers members after.declared location)).flatMap Prod.snd
        | none => []) ++
      match items, after.items with
        | none, none => []
        | some before, some after => diffSchemas before after (location ++ "[]")
        | _, _ => [presenceChanged (location ++ "[]")]

/-- The findings on each property that both schemas have. -/
def diffMembers : List (String × ContractSchema) → List (String × ContractSchema) → String →
    List (String × List ContractDiffFinding)
  | [], _, _ => []
  | (field, before) :: rest, others, location => match others.lookup field with
    | some after => (field, diffSchemas before after (location ++ "." ++ field)) :: diffMembers rest others location
    | none => diffMembers rest others location
end

def diffSchema (before after : Option ContractSchema) (location : String) : List ContractDiffFinding :=
  match before, after with
  | none, none => []
  | some before, some after => diffSchemas context before after location
  | _, _ => [presenceChanged location]

end Recursion

/-! ## Provider capabilities -/

/-- What every object inherits from Object.prototype, as String() prints it. -/
def objectPrototype : List (String × String) :=
  [("constructor", "function Object() \x7b [native code] \x7d"),
   ("__defineGetter__", "function __defineGetter__() \x7b [native code] \x7d"),
   ("__defineSetter__", "function __defineSetter__() \x7b [native code] \x7d"),
   ("hasOwnProperty", "function hasOwnProperty() \x7b [native code] \x7d"),
   ("__lookupGetter__", "function __lookupGetter__() \x7b [native code] \x7d"),
   ("__lookupSetter__", "function __lookupSetter__() \x7b [native code] \x7d"),
   ("isPrototypeOf", "function isPrototypeOf() \x7b [native code] \x7d"),
   ("propertyIsEnumerable", "function propertyIsEnumerable() \x7b [native code] \x7d"),
   ("toString", "function toString() \x7b [native code] \x7d"),
   ("valueOf", "function valueOf() \x7b [native code] \x7d"),
   ("__proto__", "[object Object]"),
   ("toLocaleString", "function toLocaleString() \x7b [native code] \x7d")]

/-- A capability flag as it is read: an own flag, or what the object inherits under that name. -/
inductive Flag
  | own (value : Bool)
  | inherited (text : String)
  deriving DecidableEq

def Flag.truthy : Flag → Bool
  | .own value => value
  | .inherited _ => true

def Flag.text : Flag → String
  | .own value => if value then "true" else "false"
  | .inherited text => text

/-- capabilities[capability] ?? false -/
def readFlag (capabilities : List (String × Bool)) (capability : String) : Flag :=
  match capabilities.lookup capability with
  | some value => .own value
  | none => (objectPrototype.lookup capability).elim (.own false) .inherited

def diffFlags (name : String) (left right : List (String × Bool)) : List ContractDiffFinding :=
  (sortNames (keys left ++ keys right).eraseDups).flatMap fun capability =>
    let previous := readFlag left capability
    let current := readFlag right capability
    if previous = current then []
    else [finding "provider-capability-changed" (name ++ "." ++ capability)
      (if current.truthy then .nonBreaking else .breaking)
      ("Provider pack " ++ name ++ " capability " ++ capability ++ " changed from " ++ previous.text ++ " to " ++
        current.text ++ ".")]

def diffCapability (name : String) (left right : ContractProviderCapability) : List ContractDiffFinding :=
  (if left.packVersion = right.packVersion then []
    else [finding "provider-pack-version-changed" name .uncertain
      ("Provider pack " ++ name ++ " version changed from " ++ left.packVersion.getD "legacy" ++ " to " ++
        right.packVersion.getD "legacy" ++ "; semantic compatibility is not inferred from version text.")]) ++
    diffFlags name left.capabilities right.capabilities

/-- new Map(entries.map((entry) => [key(entry), entry])) -/
def mapBy {α : Type} (key : α → String) (entries : List α) : List (String × α) :=
  fromEntries (entries.map fun entry => (key entry, entry))

/-- What is filed for the names that both maps have, in their order. -/
def diffCommon {α : Type} (diff : String → α → α → List ContractDiffFinding) (before after : List (String × α)) :
    List ContractDiffFinding :=
  (sortNames ((keys before).filter (keys after).contains)).flatMap fun name =>
    match before.lookup name, after.lookup name with
    | some left, some right => diff name left right
    | _, _ => []

def diffProviderCapabilities (before after : List ContractProviderCapability) : List ContractDiffFinding :=
  let baseline := mapBy (·.name) before
  let candidate := mapBy (·.name) after
  ((missing (keys baseline) (keys candidate)).map fun name =>
      finding "provider-pack-removed" name .breaking
        ("Provider pack capability snapshot removed: " ++ name ++ ".")) ++
    ((missing (keys candidate) (keys baseline)).map fun name =>
      finding "provider-pack-added" name .nonBreaking
        ("Provider pack capability snapshot added: " ++ name ++ ".")) ++
    diffCommon diffCapability baseline candidate

/-! ## Operations -/

def diffOperation (key : String) (before after : ContractOperation) : List ContractDiffFinding :=
  diffSchema .request before.request after.request (key ++ " request") ++
    ((missing (keys before.responses) (keys after.responses)).map fun status =>
      finding "response-status-removed" (key ++ " " ++ status) .breaking
        ("Response status " ++ status ++ " removed from " ++ key ++ ".")) ++
    ((missing (keys after.responses) (keys before.responses)).map fun status =>
      finding "response-status-added" (key ++ " " ++ status) .uncertain
        ("Response status " ++ status ++ " added to " ++ key ++ "; client handling is unknown.")) ++
    diffCommon (fun status before after => diffSchema .response before after (key ++ " response " ++ status))
      before.responses after.responses

def diffOperations (before after : List ContractOperation) : List ContractDiffFinding :=
  let baseline := mapBy operationKey before
  let candidate := mapBy operationKey after
  ((missing (keys baseline) (keys candidate)).map fun key =>
      finding "endpoint-removed" key .breaking
        ("Endpoint removed: " ++ key ++ ". Existing callers can no longer rely on this operation.")) ++
    ((missing (keys candidate) (keys baseline)).map fun key =>
      finding "endpoint-added" key .nonBreaking ("Endpoint added: " ++ key ++ ".")) ++
    diffCommon diffOperation baseline candidate

/-! ## Hashes -/

section Hashes

variable (collation : Collation)

mutual
def stableStringify : JsValue → String
  | .undefined => "null"
  | .null => Scalar.null.stableStringify
  | .bool b => (Scalar.bool b).stableStringify
  | .number n => (Scalar.number n).stableStringify
  | .string s => (Scalar.string s).stableStringify
  | .array items => "[" ++ Json.join "," (stableItems items) ++ "]"
  | .object fields => "\x7b" ++ Json.join ","
      ((collation.sortEntries (stableMembers fields)).map fun member => Json.quote member.1 ++ ":" ++ member.2) ++ "\x7d"

def stableItems : List JsValue → List String
  | [] => []
  | item :: rest => stableStringify item :: stableItems rest

/-- The members that are not undefined. -/
def stableMembers : List (String × JsValue) → List (String × String)
  | [] => []
  | (key, value) :: rest =>
    if value.isUndefined then stableMembers rest else (key, stableStringify value) :: stableMembers rest
end

def contractHash (contract : JsValue) : Except JsError String := do
  return sha256 (stableStringify collation (← validateContract collation contract).toValue)

end Hashes

def diffContracts (collation : Collation) (baselineInput candidateInput : JsValue) : Except JsError ContractDiff := do
  let baseline ← validateContract collation baselineInput
  let candidate ← validateContract collation candidateInput
  let findings := diffOperations baseline.operations candidate.operations ++
    diffProviderCapabilities baseline.providerCapabilities candidate.providerCapabilities
  let sorted := collation.sortBy (·.id) findings
  return {
    baselineHash := ← contractHash collation baseline.toValue
    candidateHash := ← contractHash collation candidate.toValue
    findings := sorted
    summary := {
      breaking := sorted.countP (·.severity == .breaking)
      nonBreaking := sorted.countP (·.severity == .nonBreaking)
      uncertain := sorted.countP (·.severity == .uncertain) } }

end GhostApi.Contracts
