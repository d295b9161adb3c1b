import GhostApi.Evals.Score
import Mathlib.Algebra.Order.BigOperators.Group.List

/-!
# What a score means

The points of an accepted rubric sum up to its maximal score and no two
expectations share an id, so the full score says that every component with
points refers to an expectation that holds.
-/

namespace GhostApi.Evals

open Js Effect Validation

variable {value value' : JsValue} {spec spec' : EvalSpec} {evidence evidence' : EvidenceReport}

/-! ## Accepted specs -/

theorem eq_of_sameValue {a b : JsValue} (h : sameValue a b = true) : a = b := by
  unfold sameValue at h
  split at h <;> simp_all

theorem sameValue_refl_of {a b : JsValue} (h : sameValue a b = true) : sameValue b b = true := by
  rw [eq_of_sameValue h] at h
  exact h

structure Accepted (spec : EvalSpec) : Prop where
  distinct : spec.expectations.Pairwise fun a b => sameValue a.id b.id = false
  complete : totalPoints spec.rubric.components = spec.rubric.maxScore
  known : ∀ component ∈ spec.rubric.components, ∃ expectation ∈ spec.expectations,
    sameValue expectation.id component.expectationId = true

theorem failIf_ok {c : Prop} [Decidable c] {e : JsError} {u : Unit} (h : failIf c e = .ok u) : ¬ c := by
  rw [failIf] at h
  split at h
  · cases h
  · assumption

theorem normalizeExpectation_fresh {ids : List JsValue} {expectation : EvalExpectation}
    (h : normalizeExpectation ids value = .ok expectation) : has ids expectation.id = false := by
  rw [normalizeExpectation] at h
  obtain ⟨fields, _, h⟩ := bind_eq_ok h
  obtain ⟨_, _, h⟩ := bind_eq_ok h
  obtain ⟨safe, _, h⟩ := bind_eq_ok h
  obtain ⟨_, hFresh, h⟩ := bind_eq_ok h
  obtain ⟨_, _, h⟩ := bind_eq_ok h
  obtain ⟨_, _, h⟩ := bind_eq_ok h
  cases h
  have hBoth := not_not.mp (failIf_ok hFresh)
  simpa using (Bool.and_eq_true_iff.mp hBoth).2

theorem normalizeEach_distinct {ids values : List JsValue} {expectations : List EvalExpectation}
    (h : normalizeEach ids values = .ok expectations) :
    (expectations.Pairwise fun a b => sameValue a.id b.id = false) ∧ ∀ expectation ∈ expectations, has ids expectation.id = false := by
  induction values generalizing ids expectations with
  | nil =>
    cases h
    exact ⟨List.Pairwise.nil, fun _ hMem => absurd hMem List.not_mem_nil⟩
  | cons value rest ih =>
    rw [normalizeEach] at h
    obtain ⟨first, hFirst, h⟩ := bind_eq_ok h
    obtain ⟨others, hOthers, h⟩ := bind_eq_ok h
    cases h
    obtain ⟨hDistinct, hUnseen⟩ := ih hOthers
    constructor
    · refine List.pairwise_cons.mpr ⟨fun other hOther => ?_, hDistinct⟩
      have hOne := List.any_eq_false.mp (hUnseen other hOther) first.id List.mem_cons_self
      rw [Bool.not_eq_true] at hOne
      cases hSame : sameValue first.id other.id with
      | false => rfl
      | true =>
        rw [eq_of_sameValue hSame, sameValue_refl_of hSame] at hOne
        cases hOne
    · intro expectation hMem
      cases List.mem_cons.mp hMem with
      | inl hFirstId =>
        rw [hFirstId]
        exact normalizeExpectation_fresh hFirst
      | inr hRest =>
        exact List.any_eq_false.mpr fun id hId => List.any_eq_false.mp (hUnseen expectation hRest) id (List.mem_cons_of_mem _ hId)

theorem normalizeExpectations_distinct {expectations : List EvalExpectation} (h : normalizeExpectations value = .ok expectations) :
    expectations.Pairwise fun a b => sameValue a.id b.id = false := by
  rw [normalizeExpectations] at h
  split at h
  · split at h
    · cases h
    · exact (normalizeEach_distinct h).1
  · cases h

theorem normalizeComponent_known {maxScore : Nat} {expectationIds componentIds referenced : List JsValue}
    {component : RubricComponent}
    (h : normalizeComponent maxScore expectationIds componentIds referenced value = .ok component) :
    has expectationIds component.expectationId = true := by
  rw [normalizeComponent] at h
  obtain ⟨fields, _, h⟩ := bind_eq_ok h
  obtain ⟨_, _, h⟩ := bind_eq_ok h
  obtain ⟨safe, _, h⟩ := bind_eq_ok h
  obtain ⟨_, hKnown, h⟩ := bind_eq_ok h
  obtain ⟨points, _, h⟩ := bind_eq_ok h
  obtain ⟨reason, _, h⟩ := bind_eq_ok h
  cases h
  have hAll := not_not.mp (failIf_ok hKnown)
  simp only [Bool.and_eq_true] at hAll
  exact hAll.1.2

theorem normalizeComponents_known {maxScore : Nat} {expectationIds componentIds referenced values : List JsValue}
    {components : List RubricComponent}
    (h : normalizeComponents maxScore expectationIds componentIds referenced values = .ok components) :
    ∀ component ∈ components, has expectationIds component.expectationId = true := by
  induction values generalizing componentIds referenced components with
  | nil =>
    cases h
    exact fun _ hMem => absurd hMem List.not_mem_nil
  | cons value rest ih =>
    rw [normalizeComponents] at h
    obtain ⟨first, hFirst, h⟩ := bind_eq_ok h
    obtain ⟨others, hOthers, h⟩ := bind_eq_ok h
    cases h
    intro component hMem
    cases List.mem_cons.mp hMem with
    | inl hSame =>
      rw [hSame]
      exact normalizeComponent_known hFirst
    | inr hRest => exact ih hOthers component hRest

theorem normalizeRubric_ok {expectations : List EvalExpectation} {rubric : Rubric}
    (h : normalizeRubric value expectations = .ok rubric) :
    totalPoints rubric.components = rubric.maxScore ∧
      ∀ component ∈ rubric.components, has (expectations.map EvalExpectation.id) component.expectationId = true := by
  rw [normalizeRubric] at h
  obtain ⟨fields, _, h⟩ := bind_eq_ok h
  obtain ⟨_, _, h⟩ := bind_eq_ok h
  obtain ⟨maxScore, _, h⟩ := bind_eq_ok h
  obtain ⟨values, _, h⟩ := bind_eq_ok h
  obtain ⟨components, hComponents, h⟩ := bind_eq_ok h
  obtain ⟨_, hTotal, h⟩ := bind_eq_ok h
  cases h
  exact ⟨not_not.mp (failIf_ok hTotal), normalizeComponents_known hComponents⟩

theorem accepted_of_normalize (h : normalizeEvalSpec value = .ok spec) : Accepted spec := by
  rw [normalizeEvalSpec] at h
  obtain ⟨fields, _, h⟩ := bind_eq_ok h
  obtain ⟨_, _, h⟩ := bind_eq_ok h
  obtain ⟨_, _, h⟩ := bind_eq_ok h
  obtain ⟨safe, _, h⟩ := bind_eq_ok h
  obtain ⟨_, _, h⟩ := bind_eq_ok h
  obtain ⟨title, _, h⟩ := bind_eq_ok h
  obtain ⟨_, _, h⟩ := bind_eq_ok h
  obtain ⟨_, _, h⟩ := bind_eq_ok h
  obtain ⟨_, _, h⟩ := bind_eq_ok h
  obtain ⟨expectations, hExpectations, h⟩ := bind_eq_ok h
  obtain ⟨forbidden, _, h⟩ := bind_eq_ok h
  obtain ⟨_, _, h⟩ := bind_eq_ok h
  obtain ⟨rubric, hRubric, h⟩ := bind_eq_ok h
  obtain ⟨enabled, _, h⟩ := bind_eq_ok h
  obtain ⟨_, _, h⟩ := bind_eq_ok h
  cases h
  obtain ⟨hTotal, hKnown⟩ := normalizeRubric_ok hRubric
  refine ⟨normalizeExpectations_distinct hExpectations, hTotal, fun component hComponent => ?_⟩
  obtain ⟨id, hId, hSame⟩ := List.any_eq_true.mp (hKnown component hComponent)
  obtain ⟨expectation, hExpectation, rfl⟩ := List.mem_map.mp hId
  refine ⟨expectation, hExpectation, ?_⟩
  have hEq := eq_of_sameValue hSame
  rw [hEq] at hSame
  rw [hEq]
  exact hSame

/-! ## Components -/

theorem expectation_unique (h : Accepted spec) {a b : EvalExpectation} {id : JsValue} (ha : a ∈ spec.expectations)
    (hb : b ∈ spec.expectations) (hSame : sameValue a.id id = true) (hSame' : sameValue b.id id = true) : a = b := by
  have hIds : a.id = b.id := (eq_of_sameValue hSame).trans (eq_of_sameValue hSame').symm
  have hSelf : sameValue a.id b.id = true := by
    rw [eq_of_sameValue hSame, eq_of_sameValue hSame']
    exact sameValue_refl_of hSame
  have hUnique : ∀ x ∈ spec.expectations, ∀ y ∈ spec.expectations, sameValue x.id y.id = true → x = y := by
    refine List.Pairwise.forall_of_forall_of_flip (fun _ _ _ => rfl) (h.distinct.imp ?_) (h.distinct.imp ?_)
    · intro x y hApart hxy
      rw [hApart] at hxy
      cases hxy
    · intro x y hApart hyx
      rw [eq_of_sameValue hyx, sameValue_refl_of hyx] at hApart
      cases hApart
  exact hUnique a ha b hb hSelf

theorem isPassed_iff (h : Accepted spec) {component : RubricComponent} (hComponent : component ∈ spec.rubric.components) :
    isPassed spec evidence component = true ↔ ∀ expectation ∈ spec.expectations,
      sameValue expectation.id component.expectationId = true → evaluateExpectation expectation evidence = true := by
  obtain ⟨known, hKnown, hSame⟩ := h.known component hComponent
  have hFind : referred spec component = some known := by
    cases hReferred : referred spec component with
    | none => exact absurd hSame (by simpa using List.find?_eq_none.mp hReferred known hKnown)
    | some found =>
      have hFound := List.find?_some hReferred
      exact congrArg some (expectation_unique h (List.mem_of_find?_eq_some hReferred) hKnown hFound hSame)
  rw [isPassed, hFind]
  constructor
  · intro hPassed expectation hExpectation hOther
    rw [expectation_unique h hExpectation hKnown hOther hSame]
    exact hPassed
  · intro hAll
    exact hAll known hKnown hSame

/-! ## The score -/

def points (spec : EvalSpec) (evidence : EvidenceReport) (component : RubricComponent) : Nat :=
  if isPassed spec evidence component then component.points else 0

def raw (spec : EvalSpec) (evidence : EvidenceReport) : Nat := (spec.rubric.components.map (points spec evidence)).sum

theorem points_le (component : RubricComponent) : points spec evidence component ≤ component.points := by
  rw [points]
  split
  · exact Nat.le_refl _
  · exact Nat.zero_le _

theorem raw_le (h : Accepted spec) : raw spec evidence ≤ spec.rubric.maxScore := by
  rw [← h.complete, raw, totalPoints]
  exact List.sum_le_sum fun component _ => points_le component

theorem eq_of_sum_le {α : Type} {f g : α → Nat} {items : List α} (hle : ∀ x ∈ items, f x ≤ g x)
    (h : (items.map g).sum ≤ (items.map f).sum) : ∀ x ∈ items, f x = g x := by
  induction items with
  | nil => exact fun _ hMem => absurd hMem List.not_mem_nil
  | cons y rest ih =>
    simp only [List.map_cons, List.sum_cons] at h
    have hHead := hle y List.mem_cons_self
    have hRest : (rest.map f).sum ≤ (rest.map g).sum := List.sum_le_sum fun x hx => hle x (List.mem_cons_of_mem y hx)
    intro x hx
    cases List.mem_cons.mp hx with
    | inl hEq =>
      rw [hEq]
      omega
    | inr hMem => exact ih (fun z hz => hle z (List.mem_cons_of_mem y hz)) (by omega) x hMem

theorem raw_full_iff (h : Accepted spec) : spec.rubric.maxScore ≤ raw spec evidence ↔
    ∀ component ∈ spec.rubric.components, 0 < component.points → isPassed spec evidence component = true := by
  rw [← h.complete, raw, totalPoints]
  constructor
  · intro hFull component hComponent hPoints
    have hAll := eq_of_sum_le (fun c _ => points_le c) hFull component hComponent
    by_contra hFailed
    rw [points, if_neg hFailed] at hAll
    omega
  · intro hAll
    refine List.sum_le_sum fun component hComponent => ?_
    rw [points]
    split
    · exact Nat.le_refl _
    · rename_i hFailed
      by_contra hPoints
      exact hFailed (hAll component hComponent (by omega))

theorem sortIds_eq_nil_iff {ids : List JsValue} : sortIds ids = [] ↔ ids = [] := by
  rw [sortIds, ← List.length_eq_zero_iff, List.length_append, List.length_mergeSort]
  have hSplit := List.length_eq_length_filter_add (l := ids) fun id => !id.isUndefined
  simp only [Bool.not_not] at hSplit
  rw [← hSplit, List.length_eq_zero_iff]

theorem forbiddenTriggered_eq_nil_iff : forbiddenTriggered spec evidence = [] ↔
    ∀ forbidden ∈ spec.forbidden, isForbiddenTriggered forbidden evidence = false := by
  rw [forbiddenTriggered, sortIds_eq_nil_iff, List.map_eq_nil_iff, List.filter_eq_nil_iff]
  simp

theorem scoreEval_score {sorting : Sorting} {collation : Evidence.Collation} {options : ScoreOptions} {report : EvalReport}
    (hSpec : normalizeEvalSpec value = .ok spec) (h : scoreEval sorting collation value evidence options = .ok report) :
    ∃ components, report.score = scoreOf spec evidence components ∧ rawScore components = raw spec evidence := by
  rw [scoreEval, hSpec, ok_bind] at h
  obtain ⟨components, hSorted, h⟩ := bind_eq_ok h
  cases h
  refine ⟨components, rfl, ?_⟩
  rw [rawScore, raw, ((sorting.perm _ _ hSorted).map EvalScoreComponent.points).sum_eq, List.map_map]
  rfl

theorem scoreOf_core (spec : EvalSpec) (evidence : EvidenceReport) (components : List EvalScoreComponent) :
    (scoreOf spec evidence components).core =
      if forbiddenTriggered spec evidence ≠ [] then 0 else min spec.rubric.maxScore (rawScore components) := rfl

section Reports

variable {sorting sorting' : Sorting} {collation collation' : Evidence.Collation} {options options' : ScoreOptions}
  {report report' : EvalReport}

theorem core_eq (hSpec : normalizeEvalSpec value = .ok spec) (h : scoreEval sorting collation value evidence options = .ok report) :
    report.score.core = if forbiddenTriggered spec evidence ≠ [] then 0 else raw spec evidence := by
  obtain ⟨components, hScore, hRaw⟩ := scoreEval_score hSpec h
  rw [hScore, scoreOf_core, hRaw, Nat.min_eq_right (raw_le (accepted_of_normalize hSpec))]

theorem scoreEval_returns (hSpec : normalizeEvalSpec value = .ok spec)
    (hIds : ∀ component ∈ spec.rubric.components, isString component.id = true) :
    ∃ report, scoreEval sorting collation value evidence options = .ok report := by
  obtain ⟨sorted, hSorted⟩ := sorting.total (spec.rubric.components.map (scoreComponent spec evidence)) (by
    intro scored hScored
    obtain ⟨component, hComponent, rfl⟩ := List.mem_map.mp hScored
    exact hIds component hComponent)
  rw [scoreEval, hSpec, ok_bind, hSorted, ok_bind]
  exact ⟨_, rfl⟩

theorem passed_iff (hSpec : normalizeEvalSpec value = .ok spec) (h : scoreEval sorting collation value evidence options = .ok report) :
    report.score.passed = true ↔
      (∀ forbidden ∈ spec.forbidden, isForbiddenTriggered forbidden evidence = false) ∧
        ∀ component ∈ spec.rubric.components, 0 < component.points → ∀ expectation ∈ spec.expectations,
          sameValue expectation.id component.expectationId = true → evaluateExpectation expectation evidence = true := by
  have hAccepted := accepted_of_normalize hSpec
  obtain ⟨components, hScore, hRaw⟩ := scoreEval_score hSpec h
  have hPassed : report.score.passed = true ↔
      forbiddenTriggered spec evidence = [] ∧ spec.rubric.maxScore ≤ report.score.core := by
    rw [hScore]
    change (decide _ && decide _) = true ↔ _
    rw [Bool.and_eq_true, decide_eq_true_iff, decide_eq_true_iff]
    rfl
  rw [hPassed, ← forbiddenTriggered_eq_nil_iff]
  refine and_congr_right fun hNone => ?_
  rw [core_eq hSpec h, if_neg (not_not.mpr hNone), raw_full_iff hAccepted]
  exact forall₂_congr fun component hComponent => imp_congr_right fun _ => isPassed_iff hAccepted hComponent

theorem core_le (hSpec : normalizeEvalSpec value = .ok spec) (h : scoreEval sorting collation value evidence options = .ok report) :
    report.score.core ≤ report.score.max := by
  obtain ⟨components, hScore, _⟩ := scoreEval_score hSpec h
  rw [hScore, scoreOf_core]
  split
  · exact Nat.zero_le _
  · exact Nat.min_le_left _ _

theorem points_mono (hAccepted : Accepted spec)
    (hHolds : ∀ expectation ∈ spec.expectations, evaluateExpectation expectation evidence = true →
      evaluateExpectation expectation evidence' = true)
    {component : RubricComponent} (hComponent : component ∈ spec.rubric.components) :
    points spec evidence component ≤ points spec evidence' component := by
  rw [points, points]
  split
  · rename_i hPassed
    have hAll := (isPassed_iff hAccepted hComponent).mp hPassed
    rw [if_pos ((isPassed_iff hAccepted hComponent).mpr fun expectation hMem hSame =>
      hHolds expectation hMem (hAll expectation hMem hSame))]
  · exact Nat.zero_le _

theorem core_mono (hSpec : normalizeEvalSpec value = .ok spec) (h : scoreEval sorting collation value evidence options = .ok report)
    (h' : scoreEval sorting' collation' value evidence' options' = .ok report')
    (hHolds : ∀ expectation ∈ spec.expectations, evaluateExpectation expectation evidence = true →
      evaluateExpectation expectation evidence' = true)
    (hForbidden : ∀ forbidden ∈ spec.forbidden, isForbiddenTriggered forbidden evidence' = true →
      isForbiddenTriggered forbidden evidence = true) : report.score.core ≤ report'.score.core := by
  rw [core_eq hSpec h, core_eq hSpec h']
  by_cases hNone : forbiddenTriggered spec evidence = []
  · have hNone' : forbiddenTriggered spec evidence' = [] := by
      rw [forbiddenTriggered_eq_nil_iff] at hNone ⊢
      intro forbidden hMem
      have hQuiet := hNone forbidden hMem
      cases hTriggered : isForbiddenTriggered forbidden evidence' with
      | false => rfl
      | true =>
        rw [hForbidden forbidden hMem hTriggered] at hQuiet
        cases hQuiet
    rw [if_neg (not_not.mpr hNone), if_neg (not_not.mpr hNone')]
    exact List.sum_le_sum fun component hComponent => points_mono (accepted_of_normalize hSpec) hHolds hComponent
  · rw [if_pos hNone]
    exact Nat.zero_le _

structure SameSpec (spec spec' : EvalSpec) : Prop where
  expectations : spec'.expectations.Perm spec.expectations
  forbidden : spec'.forbidden.Perm spec.forbidden
  components : spec'.rubric.components.Perm spec.rubric.components

theorem isPassed_eq_of_same (h : Accepted spec) (h' : Accepted spec') (hSame : SameSpec spec spec') {component : RubricComponent}
    (hComponent : component ∈ spec.rubric.components) : isPassed spec' evidence component = isPassed spec evidence component := by
  refine Bool.eq_iff_iff.mpr ?_
  rw [isPassed_iff h hComponent, isPassed_iff h' (hSame.components.mem_iff.mpr hComponent)]
  exact forall_congr' fun expectation => imp_congr_left hSame.expectations.mem_iff

theorem core_eq_of_same (hSpec : normalizeEvalSpec value = .ok spec) (hSpec' : normalizeEvalSpec value' = .ok spec')
    (hSame : SameSpec spec spec') (h : scoreEval sorting collation value evidence options = .ok report)
    (h' : scoreEval sorting' collation' value' evidence options' = .ok report') : report'.score.core = report.score.core := by
  have hNone : forbiddenTriggered spec' evidence = [] ↔ forbiddenTriggered spec evidence = [] := by
    rw [forbiddenTriggered_eq_nil_iff, forbiddenTriggered_eq_nil_iff]
    exact forall_congr' fun forbidden => imp_congr_left hSame.forbidden.mem_iff
  have hRaw : raw spec' evidence = raw spec evidence := by
    rw [raw, (hSame.components.map (points spec' evidence)).sum_eq, raw]
    refine congrArg List.sum (List.map_congr_left fun component hComponent => ?_)
    rw [points, points, isPassed_eq_of_same (accepted_of_normalize hSpec) (accepted_of_normalize hSpec') hSame hComponent]
  rw [core_eq hSpec h, core_eq hSpec' h', hRaw]
  by_cases hQuiet : forbiddenTriggered spec evidence = []
  · rw [if_neg (not_not.mpr hQuiet), if_neg (not_not.mpr (hNone.mpr hQuiet))]
  · rw [if_pos hQuiet, if_pos (hNone.not.mpr hQuiet)]

end Reports

/-- A report passes exactly when no forbidden action is triggered and every expectation that earns points holds. -/
theorem score_meaning (sorting : Sorting) (collation : Evidence.Collation) (value : JsValue) (spec : EvalSpec)
    (hSpec : normalizeEvalSpec value = .ok spec) (evidence : EvidenceReport) (options : ScoreOptions) :
    ((∀ component ∈ spec.rubric.components, isString component.id = true) →
      ∃ report, scoreEval sorting collation value evidence options = .ok report) ∧
    ∀ report, scoreEval sorting collation value evidence options = .ok report →
      (report.score.passed = true ↔
        (∀ forbidden ∈ spec.forbidden, isForbiddenTriggered forbidden evidence = false) ∧
          ∀ component ∈ spec.rubric.components, 0 < component.points → ∀ expectation ∈ spec.expectations,
            sameValue expectation.id component.expectationId = true → evaluateExpectation expectation evidence = true) ∧
      (0 ≤ report.score.core ∧ report.score.core ≤ report.score.max) ∧
      (∀ evidence' options' report', scoreEval sorting collation value evidence' options' = .ok report' →
        (∀ expectation ∈ spec.expectations, evaluateExpectation expectation evidence = true →
          evaluateExpectation expectation evidence' = true) →
        (∀ forbidden ∈ spec.forbidden, isForbiddenTriggered forbidden evidence' = true →
          isForbiddenTriggered forbidden evidence = true) → report.score.core ≤ report'.score.core) ∧
      ∀ value' spec' options' report', normalizeEvalSpec value' = .ok spec' → SameSpec spec spec' →
        scoreEval sorting collation value' evidence options' = .ok report' → report'.score.core = report.score.core :=
  ⟨scoreEval_returns hSpec, fun _ h => ⟨passed_iff hSpec h, ⟨Nat.zero_le _, core_le hSpec h⟩,
    fun _ _ _ h' hHolds hForbidden => core_mono hSpec h h' hHolds hForbidden,
    fun _ _ _ _ hSpec' hSame h' => core_eq_of_same hSpec hSpec' hSame h h'⟩⟩

/-! ## A spec whose second expectation has no component -/

/-- The first expectation earns all points; the second one is not in the rubric. -/
def looseSpec : JsValue := .object [("schemaVersion", .number (.integer 1)), ("kind", .string "ghostapi.eval"), ("id", .string "a"),
  ("title", .string "t"), ("syntheticWorld", .object [("providers", .array []), ("scenarios", .array [])]),
  ("task", .object [("description", .string "d"), ("command", .array [.string "c"])]), ("injectedFailures", .array []),
  ("expectations", .array [.object [("id", .string "a"), ("type", .string "run-finished")],
    .object [("id", .string "b"), ("type", .string "evidence-passed")]]),
  ("forbidden", .array []),
  ("limits", .object [("timeoutMs", .number (.integer 100)), ("maxOutputBytes", .number (.integer 0))]),
  ("rubric", .object [("maxScore", .number (.integer 1)),
    ("components", .array [.object [("id", .string "a"), ("expectationId", .string "a"), ("points", .number (.integer 1)),
      ("reason", .string "r")]])])]

def finishedRun : EvidenceReport where
  logicalHash := []
  runId := []
  status := Policy.units "finished"
  exitCode := none
  mode := []
  isolated := false
  degraded := true
  providers := []
  scenarios := []
  allowedAttempts := []
  productionAttempts := none
  secretMatches := .integer 0
  failureCount := .integer 0
  warnings := []
  passed := false

def plainSorting : Sorting where
  sort components := .ok components
  perm _ _ h := by
    cases h
    exact List.Perm.refl _
  total components _ := ⟨components, rfl⟩

theorem looseSpec_read : (normalizeEvalSpec looseSpec).toOption.any (fun spec =>
    spec.expectations.any fun expectation => !evaluateExpectation expectation finishedRun) = true := by
  decide +kernel

theorem looseSpec_passed : (scoreEval plainSorting (fun _ _ => true) looseSpec finishedRun ⟨none, []⟩).toOption.any
    (fun report => report.score.passed) = true := by
  decide +kernel

theorem score_meaning_loose : ∃ report, scoreEval plainSorting (fun _ _ => true) looseSpec finishedRun ⟨none, []⟩ = .ok report ∧
    report.score.core ≤ report.score.max := by
  obtain ⟨spec, hSpec, _⟩ := (Option.any_eq_true _ _).mp looseSpec_read
  obtain ⟨report, hReport, _⟩ := (Option.any_eq_true _ _).mp looseSpec_passed
  have hMeaning := (score_meaning plainSorting (fun _ _ => true) looseSpec spec (toOption_eq_some hSpec) finishedRun
    ⟨none, []⟩).2 report (toOption_eq_some hReport)
  exact ⟨report, toOption_eq_some hReport, hMeaning.2.1.2⟩

/-- The eval passes although one of its expectations does not hold. -/
theorem loose_expectation_passes : ∃ spec report, normalizeEvalSpec looseSpec = .ok spec ∧
    scoreEval plainSorting (fun _ _ => true) looseSpec finishedRun ⟨none, []⟩ = .ok report ∧ report.score.passed = true ∧
      ∃ expectation ∈ spec.expectations, evaluateExpectation expectation finishedRun = false := by
  obtain ⟨spec, hSpec, hLoose⟩ := (Option.any_eq_true _ _).mp looseSpec_read
  obtain ⟨report, hReport, hPassed⟩ := (Option.any_eq_true _ _).mp looseSpec_passed
  obtain ⟨expectation, hMem, hFails⟩ := List.any_eq_true.mp hLoose
  exact ⟨spec, report, toOption_eq_some hSpec, toOption_eq_some hReport, hPassed, expectation, hMem,
    by simpa using hFails⟩

end GhostApi.Evals
