import GhostApi.Hosted.Accepting
import GhostApi.Hosted.Scenario
import GhostApi.Js.SameJson
import GhostApi.Lib.Mutation

/-!
# What a scenario reads beside the payload

A path is followed through own members. From the first name that an object has
no own member of, it goes on through what every object inherits.
-/

namespace GhostApi.Hosted

open Js Effect

def pathNames (path : String) : List String := (segments path).map String.ofList

/-- The value that own members of nested objects lead to. -/
def ownValue : List String → Json → Option Json
  | [], value => some value
  | name :: rest, .object fields => (fields.lookup name).bind (ownValue rest)
  | _ :: _, _ => none

/-- What is left of a path at the first object without an own member of the next name. -/
def missing : List String → Json → Option (List String)
  | name :: rest, .object fields => match fields.lookup name with
    | some member => missing rest member
    | none => some (name :: rest)
  | _, _ => none

/-- The path leads to a value of the payload, one equal to the expected value if there is one. -/
def ScenarioAssertion.Meant (assertion : ScenarioAssertion) (payload : Json) : Prop :=
  ∃ value, ownValue (pathNames assertion.path) payload = some value ∧
    ∀ expected, assertion.equals = some expected → value.Same expected

def ScenarioAssertion.ofCondition (condition : String × Json) : ScenarioAssertion := ⟨condition.1, some condition.2⟩

/-- What an evaluation says if it reads nothing but the payload. -/
structure ReadsPayload (scenario : ScenarioDefinition) (payload : Json) (result : Option Evaluation) : Prop where
  null : result = none ↔ ∃ condition ∈ scenario.conditions, ¬(ScenarioAssertion.ofCondition condition).Meant payload
  assertions : ∀ evaluation, result = some evaluation →
    List.Forall₂ (fun (assertion : ScenarioAssertion) entry => entry.1 = assertion.path ∧ (entry.2 = true ↔ assertion.Meant payload))
      scenario.assertions evaluation.assertions
  passed : ∀ evaluation, result = some evaluation →
    (evaluation.passed = true ↔ ∀ entry ∈ evaluation.assertions, entry.2 = true)

/-! ## Inherited names -/

def isInherited (name : String) : Bool := name == "__proto__" || inheritedFunctions.contains name

/-- Every object answers to these names, one after the other. -/
def Answered : List String → Prop
  | [name] => isInherited name = true
  | [first, second] => first = "__proto__" ∧ isInherited second = true
  | _ => False

/-- Every object answers to these names with a value that is serialised like the expected one. -/
def AnsweredWith (expected : Json) (names : List String) : Prop :=
  names = ["__proto__"] ∧ expected = .object [] ∨ names = ["__proto__", "__proto__"] ∧ expected = .null

def ScenarioAssertion.Inherits (assertion : ScenarioAssertion) (payload : Json) : Prop :=
  ∃ names, missing (pathNames assertion.path) payload = some names ∧ match assertion.equals with
    | some expected => AnsweredWith expected names
    | none => Answered names

/-- Where the scenario applies, no path leaves the payload for something inherited that passes. -/
def KeepsToPayload (scenario : ScenarioDefinition) (payload : Json) : Prop :=
  (∀ condition ∈ scenario.conditions,
    (ScenarioAssertion.ofCondition condition).Meant payload ∨ (ScenarioAssertion.ofCondition condition).Inherits payload) →
  (∀ condition ∈ scenario.conditions, ¬(ScenarioAssertion.ofCondition condition).Inherits payload) ∧
  ∀ assertion ∈ scenario.assertions, ¬assertion.Inherits payload

/-! ## Following a path -/

variable {names : List String} {payload value expected : Json} {assertion : ScenarioAssertion}

def Found.follow (found : Found) (names : List String) : Found := names.foldl Found.get found

theorem readPath_eq (payload : Json) (path : String) :
    readPath payload path = (Found.json payload).follow (pathNames path) := by
  rw [readPath, Found.follow, pathNames, List.foldl_map]

theorem Found.follow_undefined : ∀ names, Found.undefined.follow names = .undefined
  | [] => rfl
  | _ :: rest => Found.follow_undefined rest

theorem Found.follow_cons (found : Found) (name : String) (rest : List String) :
    found.follow (name :: rest) = (found.get name).follow rest := rfl

theorem follow_of_own (h : ownValue names payload = some value) : (Found.json payload).follow names = .json value := by
  induction names generalizing payload with
  | nil =>
    rw [ownValue, Option.some.injEq] at h
    rw [h]
    rfl
  | cons name rest ih =>
    cases payload with
    | object fields =>
      rw [ownValue, Option.bind_eq_some_iff] at h
      obtain ⟨member, hMember, hRest⟩ := h
      rw [Found.follow_cons, Found.get, hMember]
      exact ih hRest
    | _ => cases h

theorem follow_of_missing {rest : List String} (h : missing names payload = some rest) :
    (Found.json payload).follow names = (Found.json (.object [])).follow rest := by
  induction names generalizing payload with
  | nil => cases h
  | cons name others ih =>
    cases payload with
    | object fields =>
      rw [missing] at h
      cases hMember : fields.lookup name with
      | some member =>
        rw [hMember] at h
        rw [Found.follow_cons, Found.get, hMember]
        exact ih h
      | none =>
        rw [hMember] at h
        cases h
        rw [Found.follow_cons, Found.follow_cons, Found.get, hMember]
        rfl
    | _ => cases h

theorem follow_of_absent (hOwn : ownValue names payload = none) (hMissing : missing names payload = none) :
    (Found.json payload).follow names = .undefined := by
  induction names generalizing payload with
  | nil => cases hOwn
  | cons name rest ih =>
    cases payload with
    | object fields =>
      rw [ownValue] at hOwn
      rw [missing] at hMissing
      cases hMember : fields.lookup name with
      | some member =>
        rw [hMember] at hOwn hMissing
        rw [Found.follow_cons, Found.get, hMember]
        exact ih hOwn hMissing
      | none =>
        rw [hMember] at hMissing
        cases hMissing
    | _ =>
      rw [Found.follow_cons]
      exact Found.follow_undefined rest

theorem missing_of_own (h : ownValue names payload = some value) : missing names payload = none := by
  induction names generalizing payload with
  | nil => rfl
  | cons name rest ih =>
    cases payload with
    | object fields =>
      rw [ownValue, Option.bind_eq_some_iff] at h
      obtain ⟨member, hMember, hRest⟩ := h
      rw [missing, hMember]
      exact ih hRest
    | _ => rfl

theorem missing_ne_nil (payload : Json) : missing names payload ≠ some [] := by
  induction names generalizing payload with
  | nil => simp [missing]
  | cons name rest ih =>
    cases payload with
    | object fields =>
      rw [missing]
      cases fields.lookup name with
      | some member => exact ih member
      | none => simp
    | _ => simp [missing]

/-! ## What every object answers -/

variable {name second : String}

theorem inherited_proto : inherited "__proto__" = .prototype := rfl

theorem inherited_cases (h : name ≠ "__proto__") :
    isInherited name = true ∧ inherited name = .function ∨ isInherited name = false ∧ inherited name = .undefined := by
  have hProto : (name == "__proto__") = false := beq_eq_false_iff_ne.mpr h
  rw [isInherited, inherited, hProto, Bool.false_or, if_neg Bool.false_ne_true]
  cases hFunction : inheritedFunctions.contains name with
  | true => exact .inl ⟨rfl, rfl⟩
  | false => exact .inr ⟨rfl, rfl⟩

theorem follow_function (name : String) (rest : List String) : Found.function.follow (name :: rest) = .undefined :=
  Found.follow_undefined rest

theorem follow_empty_cons (name : String) (rest : List String) :
    (Found.json (.object [])).follow (name :: rest) = (inherited name).follow rest := rfl

theorem get_prototype (h : name ≠ "__proto__") : Found.prototype.get name = inherited name := by
  rw [Found.get, if_neg]
  exact fun hSame => h (beq_iff_eq.mp hSame)

theorem follow_inherited_cons (h : name ≠ "__proto__") (second : String) (rest : List String) :
    (inherited name).follow (second :: rest) = .undefined := by
  cases inherited_cases h with
  | inl hFunction => rw [hFunction.2, follow_function]
  | inr hUndefined => rw [hUndefined.2, Found.follow_undefined]

theorem follow_null_cons (name : String) (rest : List String) : (Found.json .null).follow (name :: rest) = .undefined :=
  Found.follow_undefined rest

/-- What names that an object has no own members of lead to. -/
inductive Leads : List String → Found → Prop
  | prototype : Leads ["__proto__"] .prototype
  | null : Leads ["__proto__", "__proto__"] (.json .null)
  | function {names : List String} (h : Answered names) (last : names.getLast? ≠ some "__proto__") : Leads names .function
  | undefined {names : List String} (h : ¬Answered names) : Leads names .undefined

theorem leads_of_second (h : second ≠ "__proto__") (rest : List String) :
    Leads ("__proto__" :: second :: rest) ((inherited second).follow rest) := by
  cases rest with
  | nil =>
    cases inherited_cases h with
    | inl hFunction =>
      rw [hFunction.2]
      exact .function ⟨rfl, hFunction.1⟩ (by simpa using h)
    | inr hUndefined =>
      rw [hUndefined.2]
      exact .undefined fun hAnswered => Bool.false_ne_true (hUndefined.1.symm.trans hAnswered.2)
  | cons third rest =>
    rw [follow_inherited_cons h]
    exact .undefined id

theorem leads_of_first (h : name ≠ "__proto__") (rest : List String) :
    Leads (name :: rest) ((inherited name).follow rest) := by
  cases rest with
  | nil =>
    cases inherited_cases h with
    | inl hFunction =>
      rw [hFunction.2]
      exact .function hFunction.1 (by simpa using h)
    | inr hUndefined =>
      rw [hUndefined.2]
      exact .undefined fun hAnswered => Bool.false_ne_true (hUndefined.1.symm.trans hAnswered)
  | cons second rest =>
    rw [follow_inherited_cons h]
    cases rest with
    | nil => exact .undefined fun hAnswered => h hAnswered.1
    | cons third rest => exact .undefined id

theorem leads_follow (name : String) (rest : List String) :
    Leads (name :: rest) ((Found.json (.object [])).follow (name :: rest)) := by
  rw [follow_empty_cons]
  by_cases hName : name = "__proto__"
  · rw [hName, inherited_proto]
    cases rest with
    | nil => exact .prototype
    | cons second rest =>
      rw [Found.follow_cons]
      by_cases hSecond : second = "__proto__"
      · rw [hSecond]
        cases rest with
        | nil => exact .null
        | cons third rest =>
          rw [show Found.prototype.get "__proto__" = .json .null from rfl, follow_null_cons]
          exact .undefined id
      · rw [get_prototype hSecond]
        exact leads_of_second hSecond rest
  · exact leads_of_first hName rest

theorem Leads.isUndefined {found : Found} (h : Leads names found) : found.isUndefined = false ↔ Answered names := by
  cases h with
  | prototype => exact ⟨fun _ => rfl, fun _ => rfl⟩
  | null => exact ⟨fun _ => ⟨rfl, rfl⟩, fun _ => rfl⟩
  | function h => exact ⟨fun _ => h, fun _ => rfl⟩
  | undefined h => exact ⟨fun hDefined => Bool.noConfusion hDefined, fun hAnswered => absurd hAnswered h⟩

theorem same_empty : (Json.object []).Same expected ↔ expected = .object [] := by
  constructor
  · intro h
    cases h with
    | refl => rfl
    | object hFields =>
      cases hFields with
      | nil => rfl
      | cons hPerm => exact absurd hPerm.length_eq (by simp)
  · intro h
    rw [h]
    exact .refl _

theorem same_null : Json.null.Same expected ↔ expected = .null := by
  constructor
  · intro h
    cases h
    rfl
  · intro h
    rw [h]
    exact .refl _

theorem AnsweredWith.answered (h : AnsweredWith expected names) : Answered names ∧ names.getLast? = some "__proto__" := by
  cases h with
  | inl hPrototype =>
    rw [hPrototype.1]
    exact ⟨rfl, rfl⟩
  | inr hNull =>
    rw [hNull.1]
    exact ⟨⟨rfl, rfl⟩, rfl⟩

theorem proper_empty : (Json.object []).Proper := .object (by simp [keys]) (by simp)

theorem canonical_same {value : Json} (hValue : value.Proper) (h : expected.Proper) :
    some value.canonical = some expected.canonical ↔ value.Same expected := by
  rw [Option.some.injEq, Json.canonical_eq_iff hValue h]

theorem Leads.text {found : Found} (h : Leads names found) (hProper : expected.Proper) :
    found.text = some expected.canonical ↔ AnsweredWith expected names := by
  cases h with
  | prototype =>
    rw [Found.text, canonical_same proper_empty hProper, same_empty]
    simp [AnsweredWith]
  | null =>
    rw [Found.text, canonical_same .null hProper, same_null]
    simp [AnsweredWith]
  | function _ hLast => simpa [Found.text] using fun hWith : AnsweredWith expected names => hLast hWith.answered.2
  | undefined hOther => simpa [Found.text] using fun hWith : AnsweredWith expected names => hOther hWith.answered.1

/-! ## What makes an assertion hold -/

theorem proper_ownValue (h : payload.Proper) (hOwn : ownValue names payload = some value) : value.Proper := by
  induction names generalizing payload with
  | nil =>
    rw [ownValue, Option.some.injEq] at hOwn
    rw [← hOwn]
    exact h
  | cons name rest ih =>
    cases payload with
    | object fields =>
      rw [ownValue, Option.bind_eq_some_iff] at hOwn
      obtain ⟨member, hMember, hRest⟩ := hOwn
      exact ih (h.member hMember) hRest
    | _ => cases hOwn

theorem not_inherits_of_meant (h : assertion.Meant payload) : ¬assertion.Inherits payload := by
  obtain ⟨value, hOwn, _⟩ := h
  rintro ⟨names, hMissing, _⟩
  rw [missing_of_own hOwn] at hMissing
  cases hMissing

theorem holds_equals {path : String} :
    (ScenarioAssertion.mk path (some expected)).holds payload = true ↔ (readPath payload path).text = some expected.canonical := by
  change deepEqual (readPath payload path) expected = true ↔ _
  rw [deepEqual, beq_iff_eq]

theorem holds_exists {path : String} :
    (ScenarioAssertion.mk path none).holds payload = true ↔ (readPath payload path).isUndefined = false := by
  rw [ScenarioAssertion.holds, Bool.not_eq_true']

theorem holds_of_own (hPayload : payload.Proper) (hExpected : ∀ expected, assertion.equals = some expected → expected.Proper)
    (hOwn : ownValue (pathNames assertion.path) payload = some value) :
    assertion.holds payload = true ↔ ∀ expected, assertion.equals = some expected → value.Same expected := by
  have hRead : readPath payload assertion.path = .json value := (readPath_eq payload _).trans (follow_of_own hOwn)
  obtain ⟨path, equals⟩ := assertion
  cases equals with
  | none =>
    rw [holds_exists, hRead]
    simp [Found.isUndefined]
  | some expected =>
    rw [holds_equals, hRead, Found.text, canonical_same (proper_ownValue hPayload hOwn) (hExpected expected rfl)]
    simp

theorem holds_of_missing (hExpected : ∀ expected, assertion.equals = some expected → expected.Proper)
    (hMissing : missing (pathNames assertion.path) payload = some names) :
    assertion.holds payload = true ↔ assertion.Inherits payload := by
  have hRead : readPath payload assertion.path = (Found.json (.object [])).follow names :=
    (readPath_eq payload _).trans (follow_of_missing hMissing)
  have hLeads : Leads names (readPath payload assertion.path) := by
    rw [hRead]
    cases names with
    | nil => exact absurd hMissing (missing_ne_nil payload)
    | cons name rest => exact leads_follow name rest
  obtain ⟨path, equals⟩ := assertion
  rw [ScenarioAssertion.Inherits]
  simp only [hMissing, Option.some.injEq, exists_eq_left']
  cases equals with
  | none => rw [holds_exists, hLeads.isUndefined]
  | some expected => rw [holds_equals, hLeads.text (hExpected expected rfl)]

theorem not_holds_of_absent (hOwn : ownValue (pathNames assertion.path) payload = none)
    (hMissing : missing (pathNames assertion.path) payload = none) : assertion.holds payload = false := by
  have hRead : readPath payload assertion.path = .undefined := (readPath_eq payload _).trans (follow_of_absent hOwn hMissing)
  obtain ⟨path, equals⟩ := assertion
  cases equals with
  | none => rw [ScenarioAssertion.holds, hRead, Found.isUndefined, Bool.not_true]
  | some expected =>
    change deepEqual (readPath payload path) expected = false
    rw [deepEqual, hRead, Found.text, Option.none_beq_some]

theorem holds_iff (hPayload : payload.Proper) (hExpected : ∀ expected, assertion.equals = some expected → expected.Proper) :
    assertion.holds payload = true ↔ assertion.Meant payload ∨ assertion.Inherits payload := by
  cases hOwn : ownValue (pathNames assertion.path) payload with
  | some value =>
    have hMeant : assertion.Meant payload ↔ ∀ expected, assertion.equals = some expected → value.Same expected := by
      simp [ScenarioAssertion.Meant, hOwn]
    rw [holds_of_own hPayload hExpected hOwn, ← hMeant]
    have hNone := missing_of_own hOwn
    simp [ScenarioAssertion.Inherits, hNone]
  | none =>
    have hMeant : ¬assertion.Meant payload := by simp [ScenarioAssertion.Meant, hOwn]
    cases hMissing : missing (pathNames assertion.path) payload with
    | some names =>
      rw [holds_of_missing hExpected hMissing]
      simp [hMeant]
    | none =>
      rw [not_holds_of_absent hOwn hMissing]
      simp [hMeant, ScenarioAssertion.Inherits, hMissing]

/-! ## The parts of a definition -/

theorem proper_member {fields : List (String × Json)} {key : String} (h : (Json.object fields).Proper)
    (hMember : memberOf fields key = some value) : value.Proper := by
  rw [memberOf] at hMember
  split at hMember
  · cases hMember
  · cases hMember
  · rename_i hLookup
    cases hMember
    exact h.member hLookup

theorem proper_assertion {item : Json} (h : item.Proper) (hValid : validateAssertion item = .ok assertion) (expected : Json)
    (hEquals : assertion.equals = some expected) : expected.Proper := by
  cases item with
  | object fields =>
    rw [validateAssertion] at hValid
    obtain ⟨_, _, hValid⟩ := bind_eq_ok hValid
    split at hValid
    · obtain ⟨_, _, hValid⟩ := bind_eq_ok hValid
      split at hValid
      · cases hValid
      · rename_i other _ hLookup _
        obtain ⟨_, _, hValid⟩ := bind_eq_ok hValid
        cases hValid
        cases hEquals
        exact h.member hLookup
      · cases hValid
        cases hEquals
      · cases hValid
    · cases hValid
  | _ => cases hValid

structure ExpectsProper (scenario : ScenarioDefinition) : Prop where
  conditions : ∀ condition ∈ scenario.conditions, condition.2.Proper
  assertions : ∀ assertion ∈ scenario.assertions, ∀ expected, assertion.equals = some expected → expected.Proper

theorem expectsProper_of_items {scenario : ScenarioDefinition} {conditions : List (String × Json)} {c : Prop} [Decidable c]
    {found : Except ScenarioDefinitionError (List Json)} (hConditions : ∀ condition ∈ conditions, condition.2.Proper)
    (hItems : ∀ items, found = .ok items → ∀ item ∈ items, item.Proper)
    (h : (do
      let items ← found
      checkIf (MAX_PATHS < items.length) ({} : ScenarioDefinitionError)
      let assertions ← items.mapM validateAssertion
      checkIf c {}
      pure ⟨conditions, assertions⟩) = Except.ok scenario) : ExpectsProper scenario := by
  obtain ⟨items, hFound, h⟩ := bind_eq_ok h
  obtain ⟨_, _, h⟩ := bind_eq_ok h
  obtain ⟨assertions, hAssertions, h⟩ := bind_eq_ok h
  obtain ⟨_, _, h⟩ := bind_eq_ok h
  cases h
  constructor
  · exact hConditions
  · intro assertion hMem
    obtain ⟨item, hItem, hValid⟩ := Reordering.forall₂_mem_right (mapM_eq_ok hAssertions) hMem
    exact proper_assertion (hItems items hFound item hItem) hValid

theorem proper_items {items : List Json} (h : (Json.array items).Proper) : ∀ item ∈ items, item.Proper := by
  cases h with
  | array h => exact h

theorem proper_fields {fields : List (String × Json)} (h : (Json.object fields).Proper) : ∀ field ∈ fields, field.2.Proper := by
  cases h with
  | object _ h => exact h

theorem expectsProper {definition : Json} {scenario : ScenarioDefinition} (h : definition.Proper)
    (hValid : validateScenarioDefinition definition = .ok scenario) : ExpectsProper scenario := by
  cases definition with
  | object fields =>
    have hItems : ∀ items, memberOf fields "assertions" = some (.array items) → ∀ item ∈ items, item.Proper :=
      fun items hMember => proper_items (proper_member h hMember)
    have hFields : ∀ conditions, memberOf fields "when" = some (.object conditions) → ∀ condition ∈ conditions, condition.2.Proper :=
      fun conditions hMember => proper_fields (proper_member h hMember)
    rw [validateScenarioDefinition] at hValid
    obtain ⟨_, _, hValid⟩ := bind_eq_ok hValid
    dsimp only at hValid
    split at hValid
    · obtain ⟨conditions, hEmpty, hValid⟩ := bind_eq_ok hValid
      cases hEmpty
      obtain ⟨_, _, hValid⟩ := bind_eq_ok hValid
      split at hValid
      · obtain ⟨_, _, hValid⟩ := bind_eq_ok hValid
        exact expectsProper_of_items (by simp) (by simp) hValid
      · rename_i hMember
        obtain ⟨_, _, hValid⟩ := bind_eq_ok hValid
        exact expectsProper_of_items (by simp) (by simpa using hItems _ hMember) hValid
      · obtain ⟨_, _, hValid⟩ := bind_eq_ok hValid
        cases hValid
    · rename_i hWhen
      obtain ⟨conditions, hFound, hValid⟩ := bind_eq_ok hValid
      cases hFound
      obtain ⟨_, _, hValid⟩ := bind_eq_ok hValid
      split at hValid
      · obtain ⟨_, _, hValid⟩ := bind_eq_ok hValid
        exact expectsProper_of_items (hFields _ hWhen) (by simp) hValid
      · rename_i hMember
        obtain ⟨_, _, hValid⟩ := bind_eq_ok hValid
        exact expectsProper_of_items (hFields _ hWhen) (by simpa using hItems _ hMember) hValid
      · obtain ⟨_, _, hValid⟩ := bind_eq_ok hValid
        cases hValid
    · cases hValid
  | _ => cases hValid

/-! ## Evaluations that read the payload only -/

section Evaluation

variable {definition : Json} {scenario : ScenarioDefinition}

def ScenarioDefinition.results (scenario : ScenarioDefinition) (payload : Json) : List (String × Bool) :=
  scenario.assertions.map fun assertion => (assertion.path, assertion.holds payload)

def ScenarioDefinition.Applies (scenario : ScenarioDefinition) (payload : Json) : Prop :=
  ∀ condition ∈ scenario.conditions, (ScenarioAssertion.ofCondition condition).holds payload = true

theorem applies_iff : (scenario.conditions.all fun condition => deepEqual (readPath payload condition.1) condition.2) = true ↔
    scenario.Applies payload := List.all_eq_true

theorem evaluateScenario_of_applies (hValid : validateScenarioDefinition definition = .ok scenario) (h : scenario.Applies payload) :
    evaluateScenario definition payload =
      .ok (some ⟨(scenario.results payload).all (·.2), scenario.results payload⟩) := by
  rw [evaluateScenario, hValid, ok_bind, if_pos (applies_iff.mpr h)]
  rfl

theorem evaluateScenario_of_not_applies (hValid : validateScenarioDefinition definition = .ok scenario)
    (h : ¬scenario.Applies payload) : evaluateScenario definition payload = .ok none := by
  rw [evaluateScenario, hValid, ok_bind, if_neg fun hAll => h (applies_iff.mp hAll)]
  rfl

theorem forall₂_results (h : ∀ assertion ∈ scenario.assertions, (assertion.holds payload = true ↔ assertion.Meant payload)) :
    List.Forall₂ (fun (assertion : ScenarioAssertion) entry => entry.1 = assertion.path ∧ (entry.2 = true ↔ assertion.Meant payload))
      scenario.assertions (scenario.results payload) := by
  rw [ScenarioDefinition.results, List.forall₂_map_right_iff, List.forall₂_same]
  exact fun assertion hMem => ⟨rfl, h assertion hMem⟩

theorem holds_of_forall₂
    (h : List.Forall₂ (fun (assertion : ScenarioAssertion) entry => entry.1 = assertion.path ∧ (entry.2 = true ↔ assertion.Meant payload))
      scenario.assertions (scenario.results payload)) :
    ∀ assertion ∈ scenario.assertions, (assertion.holds payload = true ↔ assertion.Meant payload) := by
  rw [ScenarioDefinition.results, List.forall₂_map_right_iff, List.forall₂_same] at h
  exact fun assertion hMem => (h assertion hMem).2

theorem readsPayload_of_applies (hApplies : scenario.Applies payload) (hPayload : payload.Proper) (hProper : ExpectsProper scenario) :
    ReadsPayload scenario payload (some ⟨(scenario.results payload).all (·.2), scenario.results payload⟩) ↔
      KeepsToPayload scenario payload := by
  have hCondition : ∀ condition ∈ scenario.conditions,
      (ScenarioAssertion.ofCondition condition).Meant payload ∨ (ScenarioAssertion.ofCondition condition).Inherits payload := by
    intro condition hMem
    refine (holds_iff hPayload fun expected hEquals => ?_).mp (hApplies condition hMem)
    cases hEquals
    exact hProper.conditions condition hMem
  have hAssertion : ∀ assertion ∈ scenario.assertions,
      (assertion.holds payload = true ↔ assertion.Meant payload ∨ assertion.Inherits payload) :=
    fun assertion hMem => holds_iff hPayload (hProper.assertions assertion hMem)
  constructor
  · rintro ⟨hNull, hAssertions, _⟩ _
    constructor
    · intro condition hMem
      have hMeant : (ScenarioAssertion.ofCondition condition).Meant payload :=
        Classical.byContradiction fun hNot => Option.some_ne_none _ (hNull.mpr ⟨condition, hMem, hNot⟩)
      exact not_inherits_of_meant hMeant
    · intro assertion hMem hInherits
      have hMeant := (holds_of_forall₂ (hAssertions _ rfl) assertion hMem).mp ((hAssertion assertion hMem).mpr (.inr hInherits))
      exact not_inherits_of_meant hMeant hInherits
  · intro hKeeps
    obtain ⟨hConditions, hAssertions⟩ := hKeeps hCondition
    constructor
    · refine ⟨fun hNone => absurd hNone (Option.some_ne_none _), ?_⟩
      rintro ⟨condition, hMem, hNot⟩
      exact absurd ((hCondition condition hMem).resolve_right (hConditions condition hMem)) hNot
    · intro evaluation hEvaluation
      cases hEvaluation
      exact forall₂_results fun assertion hMem =>
        (hAssertion assertion hMem).trans (or_iff_left (hAssertions assertion hMem))
    · intro evaluation hEvaluation
      cases hEvaluation
      exact List.all_eq_true

theorem readsPayload_of_not_applies (hApplies : ¬scenario.Applies payload) (hPayload : payload.Proper)
    (hProper : ExpectsProper scenario) : ReadsPayload scenario payload none ↔ KeepsToPayload scenario payload := by
  obtain ⟨condition, hCondition⟩ := not_forall.mp hApplies
  obtain ⟨hMem, hFails⟩ := Classical.not_imp.mp hCondition
  have hNeither : ¬((ScenarioAssertion.ofCondition condition).Meant payload ∨ (ScenarioAssertion.ofCondition condition).Inherits payload) := by
    refine fun hEither => hFails ((holds_iff hPayload fun expected hEquals => ?_).mpr hEither)
    cases hEquals
    exact hProper.conditions condition hMem
  constructor
  · exact fun _ hAll => absurd (hAll condition hMem) hNeither
  · intro _
    constructor
    · exact ⟨fun _ => ⟨condition, hMem, fun hMeant => hNeither (.inl hMeant)⟩, fun _ => rfl⟩
    · intro evaluation hEvaluation
      cases hEvaluation
    · intro evaluation hEvaluation
      cases hEvaluation

/-- A scenario is evaluated on the payload alone exactly where no path leaves it for something inherited that passes. -/
theorem evaluateScenario_reads_payload_iff (definition payload : Json) (scenario : ScenarioDefinition)
    (hValid : validateScenarioDefinition definition = .ok scenario) (hDefinition : definition.Proper) (hPayload : payload.Proper) :
    ∃ result, evaluateScenario definition payload = .ok result ∧
      (ReadsPayload scenario payload result ↔ KeepsToPayload scenario payload) := by
  have hProper := expectsProper hDefinition hValid
  by_cases hApplies : scenario.Applies payload
  · exact ⟨_, evaluateScenario_of_applies hValid hApplies, readsPayload_of_applies hApplies hPayload hProper⟩
  · exact ⟨_, evaluateScenario_of_not_applies hValid hApplies, readsPayload_of_not_applies hApplies hPayload hProper⟩

end Evaluation

/-- A definition with one assertion, that there is something at the path. -/
def existsScenario (path : String) : Json :=
  .object [("assertions", .array [.object [("exists", .bool true), ("path", .string path)]])]

theorem canonical_existsScenario (path : String) : (existsScenario path).canonical =
    "\x7b\"assertions\":[\x7b\"exists\":true,\"path\":" ++ Json.quote path ++ "\x7d]\x7d" := by
  have hSorted : ∀ value : String, [("exists", "true"), ("path", value)].mergeSort (fun a b => Json.keyLe a.1 b.1) =
      [("exists", "true"), ("path", value)] :=
    fun _ => List.mergeSort_of_pairwise (List.pairwise_pair.mpr (by decide +kernel : Json.keyLe "exists" "path" = true))
  have hQuotes : Json.quote "assertions" = "\"assertions\"" ∧ Json.quote "exists" = "\"exists\"" ∧ Json.quote "path" = "\"path\"" := by
    decide +kernel
  simp only [existsScenario, Json.canonical, Json.canonicalFields, Json.canonicalItems, Json.sortKeys, List.mergeSort_singleton,
    if_true, hSorted]
  apply String.toList_inj.mp
  simp [Json.join, hQuotes]

theorem validate_existsScenario {path : String} (hPath : validatePath path = .ok ())
    (hSize : (existsScenario path).canonical.utf8ByteSize ≤ MAX_DEFINITION_BYTES) :
    validateScenarioDefinition (existsScenario path) = .ok ⟨[], [⟨path, none⟩]⟩ := by
  have hItem : validateAssertion (.object [("exists", .bool true), ("path", .string path)]) = .ok ⟨path, none⟩ := by
    change validatePath path >>= _ = _
    rw [hPath]
    rfl
  change (do
    let assertions ← [Json.object [("exists", .bool true), ("path", .string path)]].mapM validateAssertion
    checkIf (MAX_DEFINITION_BYTES < (existsScenario path).canonical.utf8ByteSize) {}
    pure (⟨[], assertions⟩ : ScenarioDefinition)) = _
  rw [List.mapM_cons, hItem, checkIf, if_neg (Nat.not_lt.mpr hSize)]
  rfl

theorem proper_existsScenario (path : String) : (existsScenario path).Proper := by
  refine .object (by simp [keys]) (List.forall_mem_singleton.mpr (.array (List.forall_mem_singleton.mpr (.object (by simp [keys]) ?_))))
  rw [List.forall_mem_cons, List.forall_mem_singleton]
  exact ⟨.bool true, .string path⟩

theorem evaluateScenario_reads_payload_method :
    ∃ result, evaluateScenario (existsScenario "method") (.object [("method", .string "GET")]) = .ok result ∧
      (ReadsPayload ⟨[], [⟨"method", none⟩]⟩ (.object [("method", .string "GET")]) result ↔
        KeepsToPayload ⟨[], [⟨"method", none⟩]⟩ (.object [("method", .string "GET")])) := by
  apply evaluateScenario_reads_payload_iff
  · apply validate_existsScenario (by decide +kernel)
    rw [canonical_existsScenario]
    decide +kernel
  · exact proper_existsScenario "method"
  · exact .object (by simp [keys]) (List.forall_mem_singleton.mpr (.string "GET"))

/-- A member that the report does not have is found, since every object inherits one of that name. -/
theorem inherited_member_found :
    validateScenarioDefinition (existsScenario "toString") = .ok ⟨[], [⟨"toString", none⟩]⟩ ∧
    validateReport emptyReport = .ok () ∧
    evaluateScenario (existsScenario "toString") (payloadOf emptyReport) = .ok (some ⟨true, [("toString", true)]⟩) ∧
    ¬ReadsPayload ⟨[], [⟨"toString", none⟩]⟩ (payloadOf emptyReport) (some ⟨true, [("toString", true)]⟩) := by
  have hValid : validateScenarioDefinition (existsScenario "toString") = .ok ⟨[], [⟨"toString", none⟩]⟩ := by
    apply validate_existsScenario (by decide +kernel)
    rw [canonical_existsScenario]
    decide +kernel
  have hNames : pathNames "toString" = ["toString"] := by decide +kernel
  refine ⟨hValid, validateReport_emptyReport, ?_, ?_⟩
  · have hHolds : (ScenarioAssertion.mk "toString" none).holds (payloadOf emptyReport) = true := by decide +kernel
    rw [evaluateScenario_of_applies hValid fun _ hMem => absurd hMem List.not_mem_nil]
    simp [ScenarioDefinition.results, hHolds]
  · intro hReads
    have hEntries := hReads.assertions _ rfl
    cases hEntries with
    | cons hEntry _ =>
      obtain ⟨value, hOwn, _⟩ := hEntry.2.mp rfl
      rw [hNames] at hOwn
      cases hOwn

end GhostApi.Hosted
