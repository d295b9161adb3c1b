import GhostApi.Safety.Latch
import GhostApi.Trust.Raises

/-!
# Rates in whole basis points

The trust ladder and the circuits round a rate down to basis points before
they compare it with its bound. A count above the bound by less than one basis
point of the total passes, and nothing else does.
-/

namespace GhostApi.Rates

open Js Effect Effect.Mutation

def Within (maxBps count total : Nat) : Prop := count * 10000 ≤ maxBps * total

/-- The count is within one basis point above the given share. -/
def WithinNext (maxBps count total : Nat) : Prop := count * 10000 < (maxBps + 1) * total

def Over (maxBps count total : Nat) : Prop := maxBps * total < count * 10000

instance (maxBps count total : Nat) : Decidable (Within maxBps count total) :=
  inferInstanceAs (Decidable (_ ≤ _))

theorem not_within_iff {maxBps count total : Nat} : ¬Within maxBps count total ↔ Over maxBps count total := by
  simp [Within, Over]

theorem lt_floor_iff {maxBps count total : Nat} (hTotal : 0 < total) :
    ¬maxBps < count * 10000 / total ↔ WithinNext maxBps count total := by
  rw [Nat.lt_iff_add_one_le, Nat.le_div_iff_mul_le hTotal, Nat.not_le, WithinNext]

end GhostApi.Rates

namespace GhostApi.Trust

open Js Validation Effect Rates

/-! ## Promotion evidence -/

/-- The evaluation has passed, and is neither from the future nor stale. -/
def EvalPasses (evidence : TrustPromotionEvidence) (policy : TrustPromotionPolicy) (now : Int)
    (required : Identifier) : Prop :=
  ∃ evaluation, evidence.evals.find? (·.id == required) = some evaluation ∧ evaluation.status = .passed ∧
    timeOf evaluation.completedAt ≤ now ∧ now - timeOf evaluation.completedAt ≤ policy.evidenceFreshnessMs.val

/-- What the evidence has to show besides its two rates. -/
structure EvidenceStands (evidence : TrustPromotionEvidence) (policy : TrustPromotionPolicy) (now : Int) : Prop where
  runs : policy.minimumRuns.val ≤ evidence.runCount.val
  observed : timeOf evidence.observedAt ≤ now
  fresh : now - timeOf evidence.observedAt ≤ policy.evidenceFreshnessMs.val
  evals : ∀ required ∈ policy.requiredEvalIds, EvalPasses evidence policy now required

theorem passingEval_eq_ok {evals : List TrustEval} {required : Identifier} {evaluation : TrustEval} :
    passingEval evals required = .ok evaluation ↔
      evals.find? (·.id == required) = some evaluation ∧ evaluation.status = .passed := by
  rw [passingEval]
  cases evals.find? (·.id == required) with
  | none => simp
  | some found =>
    by_cases hPassed : found.status = .passed
    · simp only [if_pos hPassed, Except.ok.injEq, Option.some.injEq]
      constructor
      · rintro rfl
        exact ⟨rfl, hPassed⟩
      · exact And.left
    · simp only [if_neg hPassed, reduceCtorEq, Option.some.injEq, false_iff, not_and]
      rintro rfl
      exact hPassed

theorem throws_eq_ok {α β : Type} {c : Prop} [Decidable c] {e : JsError} {y : Except JsError β} {z : α → Except JsError β}
    {b : β} : (if c then (throw e : Except JsError α) >>= z else y) = .ok b ↔ ¬c ∧ y = .ok b := by
  by_cases hc : c
  · rw [if_pos hc]
    constructor
    · intro h
      cases h
    · exact fun h => absurd hc h.1
  · simp [hc]

theorem throw_eq_ok {β : Type} {c : Prop} [Decidable c] {e : JsError} {y : Except JsError β} {b : β} :
    (if c then throw e else y) = .ok b ↔ ¬c ∧ y = .ok b := by
  by_cases hc : c
  · rw [if_pos hc]
    constructor
    · intro h
      cases h
    · exact fun h => absurd hc h.1
  · simp [hc]

theorem assertEval_eq_ok {evidence : TrustPromotionEvidence} {policy : TrustPromotionPolicy} {now : Int}
    {required : Identifier} :
    assertEval evidence policy now required = .ok () ↔ EvalPasses evidence policy now required := by
  have hPure : (pure () : Except JsError Unit) = .ok () := rfl
  simp only [assertEval, bind_eq_ok_iff, throws_eq_ok, throw_eq_ok, passingEval_eq_ok, hPure, Int.not_lt, and_true,
    and_assoc, EvalPasses]

theorem assertPromotionEvidence_eq_ok {evidence : TrustPromotionEvidence} {policy : TrustPromotionPolicy} {now : Int} :
    assertPromotionEvidence evidence policy now = .ok () ↔
      EvidenceStands evidence policy now ∧
        ¬policy.maxViolationRateBps.val < rateBps evidence.violations.val evidence.runCount.val ∧
        ¬policy.maxErrorRateBps.val < rateBps evidence.errors.val evidence.runCount.val := by
  have hPure : (pure () : Except JsError Unit) = .ok () := rfl
  simp only [assertPromotionEvidence, bind_unit_eq_ok, throws_eq_ok, throw_eq_ok, forM_eq_ok, assertEval_eq_ok, hPure,
    and_true]
  constructor
  · rintro ⟨hRuns, hObserved, hFresh, hEvals, hRates⟩
    exact ⟨⟨Nat.not_lt.mp hRuns, Int.not_lt.mp hObserved, Int.not_lt.mp hFresh, hEvals⟩, hRates⟩
  · rintro ⟨⟨hRuns, hObserved, hFresh, hEvals⟩, hRates⟩
    exact ⟨Nat.not_lt.mpr hRuns, Int.not_lt.mpr hObserved, Int.not_lt.mpr hFresh, hEvals, hRates⟩

/-- Evidence that is accepted has both rates within the policy. -/
def PromotionKept (evidence : TrustPromotionEvidence) (policy : TrustPromotionPolicy) (now : Int) : Prop :=
  assertPromotionEvidence evidence policy now = .ok () →
    Within policy.maxViolationRateBps.val evidence.violations.val evidence.runCount.val ∧
    Within policy.maxErrorRateBps.val evidence.errors.val evidence.runCount.val

/-- Nothing else stops the evidence, both counts are less than a basis point over, and one of them is over. -/
structure PromotionSlips (evidence : TrustPromotionEvidence) (policy : TrustPromotionPolicy) (now : Int) : Prop where
  stands : EvidenceStands evidence policy now
  violations : WithinNext policy.maxViolationRateBps.val evidence.violations.val evidence.runCount.val
  errors : WithinNext policy.maxErrorRateBps.val evidence.errors.val evidence.runCount.val
  excess : Over policy.maxViolationRateBps.val evidence.violations.val evidence.runCount.val ∨
    Over policy.maxErrorRateBps.val evidence.errors.val evidence.runCount.val

theorem promotionKept_iff (evidence : TrustPromotionEvidence) (policy : TrustPromotionPolicy) (now : Int) :
    PromotionKept evidence policy now ↔ ¬PromotionSlips evidence policy now := by
  rw [PromotionKept, assertPromotionEvidence_eq_ok]
  constructor
  · rintro hKept ⟨hStands, hViolations, hErrors, hExcess⟩
    have hTotal : 0 < evidence.runCount.val := lt_of_lt_of_le policy.minimumRuns.property.1 hStands.runs
    rw [rateBps, if_neg hTotal.ne', lt_floor_iff hTotal, rateBps, if_neg hTotal.ne', lt_floor_iff hTotal] at hKept
    obtain ⟨hWithin, hWithin'⟩ := hKept ⟨hStands, hViolations, hErrors⟩
    cases hExcess with
    | inl hOver => exact not_within_iff.mpr hOver hWithin
    | inr hOver => exact not_within_iff.mpr hOver hWithin'
  · rintro hSlips ⟨hStands, hViolations, hErrors⟩
    have hTotal : 0 < evidence.runCount.val := lt_of_lt_of_le policy.minimumRuns.property.1 hStands.runs
    rw [rateBps, if_neg hTotal.ne', lt_floor_iff hTotal] at hViolations hErrors
    constructor
    · by_contra hOver
      exact hSlips ⟨hStands, hViolations, hErrors, .inl (not_within_iff.mp hOver)⟩
    · by_contra hOver
      exact hSlips ⟨hStands, hViolations, hErrors, .inr (not_within_iff.mp hOver)⟩

end GhostApi.Trust

namespace GhostApi.Safety

open Js Validation Effect Effect.Mutation Rates

/-! ## Circuits -/

def failures (outcomes : List SafetyOutcome) : Nat := (outcomes.filter fun o => !o.success).length

structure SafetyCircuit.OthersHold (circuit : SafetyCircuit) (outcomes : List SafetyOutcome) : Prop where
  violations : (outcomes.filter SafetyOutcome.policyViolation).length ≤ circuit.maxPolicyViolations.val
  mismatches : (outcomes.filter SafetyOutcome.reconciliationMismatch).length ≤ circuit.maxReconciliationMismatches.val
  latency : ∀ outcome ∈ outcomes, outcome.latencyMs.val ≤ circuit.maxLatencyMs.val

theorem SafetyCircuit.othersHold_iff {circuit : SafetyCircuit} {outcomes : List SafetyOutcome} :
    circuit.OthersHold outcomes ↔
      ¬circuit.maxPolicyViolations.val < (outcomes.filter SafetyOutcome.policyViolation).length ∧
      ¬circuit.maxReconciliationMismatches.val < (outcomes.filter SafetyOutcome.reconciliationMismatch).length ∧
      ¬(outcomes.any fun o => circuit.maxLatencyMs.val < o.latencyMs.val) = true := by
  simp only [Nat.not_lt, List.any_eq_true, decide_eq_true_eq, not_exists, not_and]
  constructor
  · rintro ⟨hViolations, hMismatches, hLatency⟩
    exact ⟨hViolations, hMismatches, hLatency⟩
  · rintro ⟨hViolations, hMismatches, hLatency⟩
    exact ⟨hViolations, hMismatches, hLatency⟩

theorem tripReason_eq_none {circuit : SafetyCircuit} {outcomes : List SafetyOutcome}
    (hSamples : circuit.minimumSamples.val ≤ outcomes.length) :
    tripReason circuit outcomes = none ↔
      ¬circuit.maxFailureRateBps.val < rateBps (failures outcomes) outcomes.length ∧ circuit.OthersHold outcomes := by
  rw [SafetyCircuit.othersHold_iff, failures, tripReason, if_neg (Nat.not_lt.mpr hSamples)]
  simp only [ite_eq_iff, reduceCtorEq, and_false, false_or, and_true]

theorem leaves_closed_iff {s : SafetyControllerState} {position : Nat} {circuit : SafetyCircuit}
    (hFound : s.circuits[position]? = some circuit) (hClosed : circuit.state.isOpen = false) (now : Int) :
    (∃ after, (evaluateCircuit now position circuit s).2.circuits[position]? = some after ∧
      after.state.isOpen = false) ↔ tripReason circuit (circuitOutcomes s circuit now) = none := by
  rw [evaluateCircuit, get_bind]
  cases tripReason circuit (circuitOutcomes s circuit now) with
  | none =>
    simp only [iff_true]
    exact ⟨circuit, hFound, hClosed⟩
  | some reason =>
    simp only [reduceCtorEq, iff_false]
    rintro ⟨after, hAfter, hStays⟩
    -- The audit can be full, and throws then, but the circuit is already open.
    have hOpened : (s.circuits.set position { circuit with state := .opened (Date.toISOString now) reason })[position]? =
        some { circuit with state := .opened (Date.toISOString now) reason } := by
      obtain ⟨hBound, _⟩ := List.getElem?_eq_some_iff.mp hFound
      exact List.getElem?_set_self hBound
    rw [modify_bind, appendAudit_circuits (I := fun circuits => circuits[position]? = some _) _ _ _ _ _ _ hOpened] at hAfter
    cases hAfter
    cases hStays

/-- A circuit at its position with enough samples that is left closed has a failure rate within its bound. -/
def CircuitKept (s : SafetyControllerState) (now : Int) (position : Nat) (circuit : SafetyCircuit) : Prop :=
  let outcomes := circuitOutcomes s circuit now
  s.circuits[position]? = some circuit → circuit.state.isOpen = false →
    circuit.minimumSamples.val ≤ outcomes.length →
    (∃ after, (evaluateCircuit now position circuit s).2.circuits[position]? = some after ∧
      after.state.isOpen = false) →
    Within circuit.maxFailureRateBps.val (failures outcomes) outcomes.length

/-- No other bound trips the closed circuit, and its failures are over by less than a basis point. -/
structure CircuitSlips (s : SafetyControllerState) (now : Int) (position : Nat) (circuit : SafetyCircuit) : Prop where
  found : s.circuits[position]? = some circuit
  closed : circuit.state.isOpen = false
  samples : circuit.minimumSamples.val ≤ (circuitOutcomes s circuit now).length
  others : circuit.OthersHold (circuitOutcomes s circuit now)
  next : WithinNext circuit.maxFailureRateBps.val (failures (circuitOutcomes s circuit now))
    (circuitOutcomes s circuit now).length
  excess : Over circuit.maxFailureRateBps.val (failures (circuitOutcomes s circuit now))
    (circuitOutcomes s circuit now).length

theorem circuitKept_iff (s : SafetyControllerState) (now : Int) (position : Nat) (circuit : SafetyCircuit) :
    CircuitKept s now position circuit ↔ ¬CircuitSlips s now position circuit := by
  constructor
  · rintro hKept ⟨hFound, hClosed, hSamples, hOthers, hNext, hExcess⟩
    have hTotal : 0 < (circuitOutcomes s circuit now).length := lt_of_lt_of_le circuit.minimumSamples.property.1 hSamples
    have hRate : ¬circuit.maxFailureRateBps.val <
        rateBps (failures (circuitOutcomes s circuit now)) (circuitOutcomes s circuit now).length := by
      rwa [rateBps, if_neg hTotal.ne', lt_floor_iff hTotal]
    have hNone := (tripReason_eq_none hSamples).mpr ⟨hRate, hOthers⟩
    exact not_within_iff.mpr hExcess (hKept hFound hClosed hSamples ((leaves_closed_iff hFound hClosed now).mpr hNone))
  · intro hSlips hFound hClosed hSamples hLeft
    have hTotal : 0 < (circuitOutcomes s circuit now).length := lt_of_lt_of_le circuit.minimumSamples.property.1 hSamples
    obtain ⟨hRate, hOthers⟩ := (tripReason_eq_none hSamples).mp ((leaves_closed_iff hFound hClosed now).mp hLeft)
    rw [rateBps, if_neg hTotal.ne', lt_floor_iff hTotal] at hRate
    by_contra hOver
    exact hSlips ⟨hFound, hClosed, hSamples, hOthers, hRate, not_within_iff.mp hOver⟩

end GhostApi.Safety

namespace GhostApi.Rates

open Js Validation Trust Safety

/-- Both bounds are kept unless a count over its bound by less than one basis point is all that is wrong. -/
theorem bounds_kept_iff (evidence : TrustPromotionEvidence) (policy : TrustPromotionPolicy) (s : SafetyControllerState)
    (now : Int) (position : Nat) (circuit : SafetyCircuit) :
    (PromotionKept evidence policy now ↔ ¬PromotionSlips evidence policy now) ∧
      (CircuitKept s now position circuit ↔ ¬CircuitSlips s now position circuit) :=
  ⟨promotionKept_iff evidence policy now, circuitKept_iff s now position circuit⟩

/-! ## One in three -/

def thirdsPolicy : TrustPromotionPolicy := { samplePolicy with maxViolationRateBps := ⟨3333, by decide⟩ }

def thirdsPolicyValue : JsValue :=
  .object [("schemaVersion", integer 1), ("kind", .string "ghostapi.trust-promotion-policy"), ("id", .string "p"),
    ("ownerPrincipalId", .string "own"), ("automaticPromotion", .bool false), ("minimumRuns", integer 1),
    ("requiredEvalIds", .array [.string "smoke"]), ("maxViolationRateBps", integer 3333), ("maxErrorRateBps", integer 0),
    ("evidenceFreshnessMs", integer 1),
    ("canary", .object [("tenantIds", .array []), ("resourceIds", .array []), ("percentageBps", integer 0)]),
    ("stopConditions", .object [("maxViolations", integer 1), ("maxErrors", integer 1)]),
    ("violationResponse", .string "demote_to_approve")]

def thirdsEvidence : TrustPromotionEvidence where
  runCount := ⟨3, by decide⟩
  violations := ⟨1, by decide⟩
  errors := ⟨0, by decide⟩
  evals := sampleEvidence.evals
  observedAt := epoch

def thirdsEvidenceValue : JsValue :=
  .object [("runCount", integer 3), ("violations", integer 1), ("errors", integer 0),
    ("evals", .array [.object [("id", .string "smoke"), ("status", .string "passed"),
      ("completedAt", .string "1970-01-01T00:00:00.000Z")]]),
    ("observedAt", .string "1970-01-01T00:00:00.000Z")]

def thirdsCircuit : SafetyCircuit where
  id := ⟨"thirds", by decide +kernel⟩
  scope := .global
  windowMs := ⟨1, one_within_max_ms⟩
  minimumSamples := ⟨3, by decide⟩
  maxFailureRateBps := ⟨3333, by decide⟩
  maxPolicyViolations := ⟨0, MAX_LEDGER.zero_le⟩
  maxLatencyMs := ⟨1, one_le_max_latency⟩
  maxReconciliationMismatches := ⟨0, MAX_LEDGER.zero_le⟩
  state := .closed

def thirdKey : Identifier := ⟨"k3", by decide +kernel⟩

/-- Three payments completed at the epoch, the first of which failed. -/
def thirdsState : SafetyControllerState :=
  let completed (key : Identifier) (success : Bool) : LedgerEntry :=
    { reservation (paymentAction key) 0 with status := .completed 0 ⟨success, false, false, ⟨1, one_le_max_latency⟩, none⟩ }
  { Safety.emptyState with
    circuits := [thirdsCircuit]
    ledger := [completed firstKey false, completed secondKey true, completed thirdKey true] }

/-- One violation of three runs passes a bound of 3333 basis points, and so does one failure of three. -/
theorem third_passes : validatePolicy thirdsPolicyValue = .ok thirdsPolicy ∧
    validateEvidence thirdsEvidenceValue = .ok thirdsEvidence ∧
    ¬PromotionKept thirdsEvidence thirdsPolicy 0 ∧ ¬CircuitKept thirdsState 0 0 thirdsCircuit := by
  have hAccepted : validatePolicy thirdsPolicyValue = .ok thirdsPolicy ∧
      validateEvidence thirdsEvidenceValue = .ok thirdsEvidence ∧
      assertPromotionEvidence thirdsEvidence thirdsPolicy 0 = .ok () := by decide +kernel
  have hOutcomes : (circuitOutcomes thirdsState thirdsCircuit 0).length = 3 ∧
      failures (circuitOutcomes thirdsState thirdsCircuit 0) = 1 ∧
      tripReason thirdsCircuit (circuitOutcomes thirdsState thirdsCircuit 0) = none := by decide +kernel
  obtain ⟨hPolicy, hEvidence, hPromoted⟩ := hAccepted
  obtain ⟨hLength, hFailures, hNone⟩ := hOutcomes
  refine ⟨hPolicy, hEvidence, fun hKept => ?_, fun hKept => ?_⟩
  · exact absurd (hKept hPromoted).1 (by decide)
  · have hSamples : thirdsCircuit.minimumSamples.val ≤ (circuitOutcomes thirdsState thirdsCircuit 0).length :=
      hLength ▸ le_refl 3
    have hWithin := hKept rfl rfl hSamples ((leaves_closed_iff rfl rfl 0).mpr hNone)
    rw [hLength, hFailures] at hWithin
    exact absurd hWithin (by decide)

end GhostApi.Rates
