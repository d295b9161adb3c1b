import GhostApi.Scenarios.Replay

/-!
# One assignment for a whole replay

A request that does not agree with its interaction leaves the replayer as it
was. Bindings only grow, so that the bindings at the end of a replay explain
every request that was answered and every answer.
-/

namespace GhostApi.Scenarios

open Js Validation Effect Template
open Policy (CodeUnit JsString units)

/-! ## Texts -/

theorem segmentsGo_of_no_reference (cs : List Char)
    (h : ∀ segment ∈ segmentsGo 0 cs, ∀ name, segment ≠ .reference name) : segmentsGo 0 cs = cs.map .char := by
  induction cs with
  | nil => rfl
  | cons c cs ih =>
    rw [segmentsGo] at h ⊢
    split at h
    · rename_i name rest hReference
      exact absurd rfl (h _ List.mem_cons_self name)
    · rename_i hNone
      rw [List.forall_mem_cons] at h
      rw [ih h.2]
      rfl

theorem units_eq_flatMap (s : String) : units s = s.toList.flatMap fun c => units (String.singleton c) := by
  simp [units, List.map_flatMap]

theorem reads_of_no_reference {value : String} (h : references value = []) (b : VariableBindings) :
    Reads b (templateOf value) (units value) := by
  have hSegments : segments value = value.toList.map .char := by
    refine segmentsGo_of_no_reference _ fun segment hMem name hSegment => ?_
    have hName : name ∈ references value := List.mem_filterMap.mpr ⟨segment, hMem, by rw [hSegment]⟩
    rw [h] at hName
    cases hName
  rw [templateOf, hSegments, units_eq_flatMap, List.map_map]
  generalize value.toList = cs
  induction cs with
  | nil => exact reads_nil b
  | cons c cs ih => exact ih.text (units (String.singleton c))

variable {variableList : List ScenarioVariable} {sameNonFinite : Bool} {σ : VariableBindings}

/-- What a comparison keeps, and what its success says about the bindings from then on. -/
structure Sound (before : VariableBindings) (result : Bool × VariableBindings) (holds : VariableBindings → Prop) :
    Prop where
  extends_ : Extends before result.2
  agrees : result.1 = true → ∀ σ, Extends result.2 σ → holds σ

theorem Sound.of_false (b : VariableBindings) (holds : VariableBindings → Prop) : Sound b (false, b) holds where
  extends_ := .refl b
  agrees := by rintro ⟨⟩

theorem Sound.andThen {b : VariableBindings} {first next : Bool × VariableBindings}
    {holds holdsNext both : VariableBindings → Prop} (h : Sound b first holds)
    (hNext : first.1 = true → Sound first.2 next holdsNext) (hBoth : ∀ σ, holds σ → holdsNext σ → both σ) :
    Sound b (if first.1 then next else first) both := by
  split
  · rename_i hFirst
    have hRest := hNext hFirst
    refine ⟨h.extends_.trans hRest.extends_, fun hAgrees σ hLater => ?_⟩
    exact hBoth σ (h.agrees hFirst σ (hRest.extends_.trans hLater)) (hRest.agrees hAgrees σ hLater)
  · rename_i hFirst
    exact ⟨h.extends_, fun hAgrees => absurd hAgrees hFirst⟩

theorem matchTemplate_sound (expected actual : String) (b : VariableBindings) :
    Sound b (matchTemplate variableList expected actual b) fun σ => Reads σ (templateOf expected) (units actual) := by
  rw [matchTemplate]
  split
  · rename_i hNone
    refine ⟨.refl b, fun hEqual σ _ => ?_⟩
    rw [← eq_of_beq hEqual]
    exact reads_of_no_reference hNone σ
  · split
    · exact .of_false b _
    · exact ⟨read_extends _ _ b, fun hRead σ hLater => read_reads (Prod.ext hRead rfl) hLater⟩

/-! ## Values -/

inductive Agrees (sameNonFinite : Bool) (σ : VariableBindings) : JsValue → JsValue → Prop
  | string {expected actual : String} (h : Reads σ (templateOf expected) (units actual)) :
    Agrees sameNonFinite σ (.string expected) (.string actual)
  | array {expected actual : List JsValue} (h : List.Forall₂ (Agrees sameNonFinite σ) expected actual) :
    Agrees sameNonFinite σ (.array expected) (.array actual)
  | object {expected actual : Fields} (hLength : expected.length = actual.length)
    (hKeys : ∀ entry ∈ expected, ∃ value, actual.lookup entry.1 = some value)
    (h : ∀ entry ∈ expected, ∀ value, actual.lookup entry.1 = some value → Agrees sameNonFinite σ entry.2 value) :
    Agrees sameNonFinite σ (.object expected) (.object actual)
  | same {expected actual : JsValue} (h : strictlyEqual sameNonFinite expected actual = true) :
    Agrees sameNonFinite σ expected actual

def ItemsAgree (sameNonFinite : Bool) (expected actual : List JsValue) (σ : VariableBindings) : Prop :=
  expected.length = actual.length → List.Forall₂ (Agrees sameNonFinite σ) expected actual

def FieldsAgree (sameNonFinite : Bool) (expected actual : Fields) (σ : VariableBindings) : Prop :=
  ∀ entry ∈ expected, ∃ value, actual.lookup entry.1 = some value ∧ Agrees sameNonFinite σ entry.2 value

theorem Agrees.of_fields {expected actual : Fields} (hLength : expected.length = actual.length)
    (h : FieldsAgree sameNonFinite expected actual σ) : Agrees sameNonFinite σ (.object expected) (.object actual) := by
  refine .object hLength (fun entry hMem => (h entry hMem).imp fun _ h => h.1) fun entry hMem value hValue => ?_
  obtain ⟨found, hFound, hAgrees⟩ := h entry hMem
  rw [hValue] at hFound
  cases hFound
  exact hAgrees

theorem matchValue_sound (expected actual : JsValue) (b : VariableBindings) :
    Sound b (matchValue variableList sameNonFinite expected actual b) fun σ => Agrees sameNonFinite σ expected actual := by
  apply matchValue.induct variableList sameNonFinite
    (fun expected actual b => Sound b (matchValue variableList sameNonFinite expected actual b) fun σ =>
      Agrees sameNonFinite σ expected actual)
    (fun expected actual b => Sound b (matchFields variableList sameNonFinite expected actual b)
      (FieldsAgree sameNonFinite expected actual))
    (fun expected actual b => Sound b (matchItems variableList sameNonFinite expected actual b)
      (ItemsAgree sameNonFinite expected actual))
  case case1 =>
    intro expected actual b
    rw [matchValue]
    have h : Sound b (matchTemplate variableList expected actual b) _ := matchTemplate_sound expected actual b
    exact ⟨h.extends_, fun hMatch σ hLater => .string (h.agrees hMatch σ hLater)⟩
  case case2 =>
    intro expected actual b hLength ih
    rw [matchValue, if_pos hLength]
    exact ⟨ih.extends_, fun hMatch σ hLater => .array (ih.agrees hMatch σ hLater hLength)⟩
  case case3 =>
    intro expected actual b hLength
    rw [matchValue, if_neg hLength]
    exact .of_false b _
  case case4 =>
    intro expected actual b hLength ih
    rw [matchValue, if_pos hLength]
    exact ⟨ih.extends_, fun hMatch σ hLater => .of_fields hLength (ih.agrees hMatch σ hLater)⟩
  case case5 =>
    intro expected actual b hLength
    rw [matchValue, if_neg hLength]
    exact .of_false b _
  case case6 =>
    intro expected actual b hString hArray hObject
    rw [matchValue]
    · exact ⟨.refl b, fun hEqual σ _ => .same hEqual⟩
    all_goals assumption
  case case7 =>
    intro expected rest actual others b first hFirst ih ihRest
    rw [matchItems]
    exact ih.andThen (fun _ => ihRest) fun σ hHead hRest hLength => .cons hHead (hRest (Nat.succ.inj hLength))
  case case8 =>
    intro expected rest actual others b first hFirst ih
    rw [matchItems]
    have hNext : first.1 = true → Sound first.2 (matchItems variableList sameNonFinite rest others first.2)
      (ItemsAgree sameNonFinite rest others) := fun h => absurd h hFirst
    exact ih.andThen hNext fun σ hHead hRest hLength => .cons hHead (hRest (Nat.succ.inj hLength))
  case case9 =>
    intro expected actual b hEnd
    rw [matchItems]
    · refine ⟨.refl b, fun _ σ _ hLength => ?_⟩
      cases expected with
      | nil =>
        rw [List.length_nil, eq_comm, List.length_eq_zero_iff] at hLength
        rw [hLength]
        exact .nil
      | cons e expected =>
        cases actual with
        | nil => cases hLength
        | cons a actual => exact (hEnd _ _ _ _ rfl rfl).elim
    · exact hEnd
  case case10 =>
    intro actual b
    rw [matchFields]
    exact ⟨.refl b, fun _ σ _ entry hMem => absurd hMem List.not_mem_nil⟩
  case case11 =>
    intro key expected rest actual b hNone
    rw [matchFields, hNone]
    exact .of_false b _
  case case12 =>
    intro key expected rest actual b value hValue first hFirst ih ihRest
    rw [matchFields, hValue]
    exact ih.andThen (fun _ => ihRest) fun σ hHead hRest => List.forall_mem_cons.mpr ⟨⟨value, hValue, hHead⟩, hRest⟩
  case case13 =>
    intro key expected rest actual b value hValue first hFirst ih
    rw [matchFields, hValue]
    have hNext : first.1 = true → Sound first.2 (matchFields variableList sameNonFinite rest actual first.2)
      (FieldsAgree sameNonFinite rest actual) := fun h => absurd h hFirst
    exact ih.andThen hNext fun σ hHead hRest => List.forall_mem_cons.mpr ⟨⟨value, hValue, hHead⟩, hRest⟩

/-! ## Requests -/

/-- Every part of the request is what the recorded one stands for. -/
structure RequestAgrees (sameNonFinite : Bool) (σ : VariableBindings) (expected actual : ScenarioRequest) : Prop where
  method : expected.method = actual.method
  path : Reads σ (templateOf expected.path) (units actual.path)
  headers : Agrees sameNonFinite σ (headersToValue expected.headers) (headersToValue actual.headers)
  body : Agrees sameNonFinite σ expected.body actual.body

theorem compareRequest_extends (expected actual : ScenarioRequest) (b : VariableBindings) :
    Extends b (compareRequest variableList sameNonFinite expected actual b).2 :=
  (matchTemplate_sound _ _ b).extends_.trans
    ((matchValue_sound _ _ _).extends_.trans (matchValue_sound _ _ _).extends_)

theorem unless_eq_nil {c : Prop} [Decidable c] {message : String} (h : (if c then [] else [message]) = []) : c := by
  split at h
  · assumption
  · cases h

theorem compareRequest_agrees {expected actual : ScenarioRequest} {b : VariableBindings}
    (h : (compareRequest variableList sameNonFinite expected actual b).1 = [])
    (hLater : Extends (compareRequest variableList sameNonFinite expected actual b).2 σ) :
    RequestAgrees sameNonFinite σ expected actual := by
  simp only [compareRequest, List.append_eq_nil_iff] at h hLater
  obtain ⟨⟨⟨hMethod, hPath⟩, hHeaders⟩, hBody⟩ := h
  have hPathSound : Sound b (matchTemplate variableList expected.path actual.path b) _ := matchTemplate_sound _ _ b
  generalize matchTemplate variableList expected.path actual.path b = path at hPath hHeaders hBody hLater hPathSound
  have hHeadersSound : Sound path.2 (matchValue variableList sameNonFinite (headersToValue expected.headers)
    (headersToValue actual.headers) path.2) _ := matchValue_sound _ _ _
  generalize matchValue variableList sameNonFinite (headersToValue expected.headers)
    (headersToValue actual.headers) path.2 = headers at hHeaders hBody hLater hHeadersSound
  have hBodySound : Sound headers.2 (matchValue variableList sameNonFinite expected.body actual.body headers.2) _ :=
    matchValue_sound _ _ _
  have hFromHeaders := hBodySound.extends_.trans hLater
  exact ⟨unless_eq_nil hMethod, hPathSound.agrees (unless_eq_nil hPath) σ (hHeadersSound.extends_.trans hFromHeaders),
    hHeadersSound.agrees (unless_eq_nil hHeaders) σ hFromHeaders, hBodySound.agrees (unless_eq_nil hBody) σ hLater⟩

/-! ## Answers -/

inductive Resolves (σ : VariableBindings) : JsValue → ReplayValue → Prop
  | undefined : Resolves σ .undefined .undefined
  | null : Resolves σ .null .null
  | bool (b : Bool) : Resolves σ (.bool b) (.bool b)
  | number (n : JsNumber) : Resolves σ (.number n) (.number n)
  | string {value : String} {text : JsString} (h : Reads σ (templateOf value) text) : Resolves σ (.string value) (.string text)
  | array {items : List JsValue} {resolved : List ReplayValue} (h : List.Forall₂ (Resolves σ) items resolved) :
    Resolves σ (.array items) (.array resolved)
  | object {fields : Fields} {resolved : List (String × ReplayValue)} (hKeys : resolved.map Prod.fst = fields.map Prod.fst)
    (h : List.Forall₂ (Resolves σ) (fields.map Prod.snd) (resolved.map Prod.snd)) :
    Resolves σ (.object fields) (.object resolved)

/-- What an answer keeps, and what it is under the bindings from then on. -/
structure Answers {α : Type} (before : VariableBindings) (result : α × VariableBindings)
    (holds : VariableBindings → α → Prop) : Prop where
  extends_ : Extends before result.2
  resolves : ∀ σ, Extends result.2 σ → holds σ result.1

theorem resolveTemplate_answers (value : String) (b : VariableBindings) :
    Answers b (resolveTemplate variableList value b) fun σ text => Reads σ (templateOf value) text :=
  ⟨fill_extends _ b, fun _ hLater => fill_reads _ b hLater⟩

def HeadersResolve (headers : List (String × String)) (σ : VariableBindings) (resolved : List (String × JsString)) : Prop :=
  List.Forall₂ (fun header out => out.1 = header.1 ∧ Reads σ (templateOf header.2) out.2) headers resolved

theorem resolveHeaders_answers (headers : List (String × String)) (b : VariableBindings) :
    Answers b (resolveHeaders variableList headers b) (HeadersResolve headers) := by
  induction headers generalizing b with
  | nil => exact ⟨.refl b, fun _ _ => .nil⟩
  | cons header headers ih =>
    have hFirst : Answers b (resolveTemplate variableList header.2 b) _ := resolveTemplate_answers header.2 b
    have hRest := ih (resolveTemplate variableList header.2 b).2
    refine ⟨hFirst.extends_.trans hRest.extends_, fun σ hLater => ?_⟩
    exact .cons ⟨rfl, hFirst.resolves σ (hRest.extends_.trans hLater)⟩ (hRest.resolves σ hLater)

def FieldsResolve (fields : Fields) (σ : VariableBindings) (resolved : List (String × ReplayValue)) : Prop :=
  resolved.map Prod.fst = fields.map Prod.fst ∧ List.Forall₂ (Resolves σ) (fields.map Prod.snd) (resolved.map Prod.snd)

theorem resolveVariables_answers (value : JsValue) (b : VariableBindings) :
    Answers b (resolveVariables variableList value b) fun σ resolved => Resolves σ value resolved := by
  apply resolveVariables.induct variableList
    (fun value b => Answers b (resolveVariables variableList value b) fun σ resolved => Resolves σ value resolved)
    (fun fields b => Answers b (resolveFields variableList fields b) (FieldsResolve fields))
    (fun items b => Answers b (resolveItems variableList items b) fun σ resolved => List.Forall₂ (Resolves σ) items resolved)
  case case1 => exact fun b => ⟨.refl b, fun _ _ => .undefined⟩
  case case2 => exact fun b => ⟨.refl b, fun _ _ => .null⟩
  case case3 => exact fun flag b => ⟨.refl b, fun _ _ => .bool flag⟩
  case case4 => exact fun n b => ⟨.refl b, fun _ _ => .number n⟩
  case case5 =>
    intro text b
    rw [resolveVariables]
    have h : Answers b (resolveTemplate variableList text b) _ := resolveTemplate_answers text b
    exact ⟨h.extends_, fun σ hLater => .string (h.resolves σ hLater)⟩
  case case6 =>
    intro items b ih
    rw [resolveVariables]
    exact ⟨ih.extends_, fun σ hLater => .array (ih.resolves σ hLater)⟩
  case case7 =>
    intro fields b ih
    rw [resolveVariables]
    exact ⟨ih.extends_, fun σ hLater => .object (ih.resolves σ hLater).1 (ih.resolves σ hLater).2⟩
  case case8 => exact fun b => ⟨.refl b, fun _ _ => .nil⟩
  case case9 =>
    intro item rest b first ih ihRest
    rw [resolveItems]
    refine ⟨ih.extends_.trans ihRest.extends_, fun σ hLater => ?_⟩
    exact .cons (ih.resolves σ (ihRest.extends_.trans hLater)) (ihRest.resolves σ hLater)
  case case10 => exact fun b => ⟨.refl b, fun _ _ => ⟨rfl, .nil⟩⟩
  case case11 =>
    intro key value rest b first ih ihRest
    rw [resolveFields]
    refine ⟨ih.extends_.trans ihRest.extends_, fun σ hLater => ?_⟩
    obtain ⟨hKeys, hValues⟩ := ihRest.resolves σ hLater
    exact ⟨congrArg (key :: ·) hKeys, .cons (ih.resolves σ (ihRest.extends_.trans hLater)) hValues⟩

/-! ## Replays -/

namespace ScenarioReplayer

/-- A request was answered by an interaction: both are instances of it under the bindings. -/
structure Answered (sameNonFinite : Bool) (σ : VariableBindings) (bundle : ScenarioBundle) (k : Nat)
    (request : ScenarioReplayRequest) (result : ScenarioReplayResult) : Prop where
  explained : ∃ interaction actual, bundle.interactions[k]? = some interaction ∧
    normalizeReplayRequest request = .ok actual ∧ RequestAgrees sameNonFinite σ interaction.request actual ∧
    result.status = interaction.response.status ∧
    HeadersResolve interaction.response.headers σ result.headers ∧
    Resolves σ interaction.response.body result.body
  index : result.index = k + 1

structure Progress (sameNonFinite : Bool) (replayer : ScenarioReplayer) (request : ScenarioReplayRequest)
    (result : ScenarioReplayResult) (after : ScenarioReplayer) : Prop where
  bundle : after.bundle = replayer.bundle
  cursor : after.cursor = replayer.cursor + 1
  extends_ : Extends replayer.bindings after.bindings
  answered : ∀ σ, Extends after.bindings σ → Answered sameNonFinite σ replayer.bundle replayer.cursor request result

variable (sameNonFinite) in
theorem replay_cases (replayer : ScenarioReplayer) (request : ScenarioReplayRequest) :
    (∃ e, replayer.replay sameNonFinite request = (.error e, replayer)) ∨
      ∃ result after, replayer.replay sameNonFinite request = (.ok result, after) ∧
        Progress sameNonFinite replayer request result after := by
  rw [replay]
  split
  · exact .inl ⟨_, rfl⟩
  · rename_i interaction hInteraction
    split
    · exact .inl ⟨_, rfl⟩
    · rename_i actual hActual
      dsimp only
      split
      · rename_i hNone
        have hHeaders : Answers (compareRequest replayer.bundle.variableList sameNonFinite interaction.request actual
          replayer.bindings).2 (resolveHeaders replayer.bundle.variableList interaction.response.headers _) _ :=
          resolveHeaders_answers _ _
        have hBody : Answers _ (resolveVariables replayer.bundle.variableList interaction.response.body
          (resolveHeaders replayer.bundle.variableList interaction.response.headers (compareRequest
            replayer.bundle.variableList sameNonFinite interaction.request actual replayer.bindings).2).2) _ :=
          resolveVariables_answers _ _
        refine .inr ⟨_, _, rfl, rfl, rfl, ?_, fun σ hLater => ⟨⟨interaction, actual, hInteraction, hActual, ?_⟩, rfl⟩⟩
        · exact (compareRequest_extends _ _ _).trans (hHeaders.extends_.trans hBody.extends_)
        · have hFromHeaders := hBody.extends_.trans hLater
          exact ⟨compareRequest_agrees hNone (hHeaders.extends_.trans hFromHeaders), rfl,
            hHeaders.resolves σ hFromHeaders, hBody.resolves σ hLater⟩
      · exact .inl ⟨_, rfl⟩

theorem replays_append (replayer : ScenarioReplayer) (before after : List ScenarioReplayRequest) :
    replayer.replays sameNonFinite (before ++ after) =
      ((replayer.replays sameNonFinite before).1 ++ ((replayer.replays sameNonFinite before).2.replays sameNonFinite after).1,
        ((replayer.replays sameNonFinite before).2.replays sameNonFinite after).2) := by
  induction before generalizing replayer with
  | nil => rfl
  | cons request before ih =>
    rw [List.cons_append, replays, replays, ih]
    rfl

variable (sameNonFinite) in
theorem length_replays (replayer : ScenarioReplayer) (requests : List ScenarioReplayRequest) :
    (replayer.replays sameNonFinite requests).1.length = requests.length := by
  induction requests generalizing replayer with
  | nil => rfl
  | cons request requests ih => exact congrArg (· + 1) (ih _)

/-- The requests that were answered, with their results. -/
def successes : List ScenarioReplayRequest → List (Except JsError ScenarioReplayResult) →
    List (ScenarioReplayRequest × ScenarioReplayResult)
  | request :: requests, .ok result :: results => (request, result) :: successes requests results
  | _ :: requests, .error _ :: results => successes requests results
  | _, _ => []

structure Explained (sameNonFinite : Bool) (replayer : ScenarioReplayer)
    (answered : List (ScenarioReplayRequest × ScenarioReplayResult)) (after : ScenarioReplayer) : Prop where
  bundle : after.bundle = replayer.bundle
  cursor : after.cursor = replayer.cursor + answered.length
  extends_ : Extends replayer.bindings after.bindings
  answered : ∀ σ, Extends after.bindings σ → ∀ (k : Nat) request result, answered[k]? = some (request, result) →
    Answered sameNonFinite σ replayer.bundle (replayer.cursor + k) request result

theorem replays_explained (replayer : ScenarioReplayer) (requests : List ScenarioReplayRequest) :
    Explained sameNonFinite replayer (successes requests (replayer.replays sameNonFinite requests).1)
      (replayer.replays sameNonFinite requests).2 := by
  induction requests generalizing replayer with
  | nil => exact ⟨rfl, rfl, .refl _, by rintro _ _ k _ _ ⟨⟩⟩
  | cons request requests ih =>
    rw [replays]
    rcases replay_cases sameNonFinite replayer request with ⟨e, hThrows⟩ | ⟨result, after, hOk, hProgress⟩
    · rw [hThrows]
      exact ih replayer
    · rw [hOk]
      have hRest := ih after
      dsimp only [successes]
      refine ⟨hRest.bundle.trans hProgress.bundle, ?_, hProgress.extends_.trans hRest.extends_, ?_⟩
      · rw [hRest.cursor, hProgress.cursor, List.length_cons]
        omega
      · rintro σ hLater k other answer hAnswer
        cases k with
        | zero =>
          cases hAnswer
          exact hProgress.answered σ (hRest.extends_.trans hLater)
        | succ k =>
          have hOther := hRest.answered σ hLater k other answer hAnswer
          rw [hProgress.bundle, hProgress.cursor, Nat.add_right_comm] at hOther
          exact hOther

end ScenarioReplayer

end GhostApi.Scenarios
