import GhostApi.Costs.Validity

/-!
# Budgets in a report

A report looks at the records of its own window first and evaluates every
budget over these. A budget with a longer window misses the older ones, which
shows unless they cost nothing.
-/

namespace GhostApi.Costs

open Js Validation Effect Effect.Mutation Storage Transition

/-! ## Totals -/

section Totals

variable {α : Type} {counted : α → Bool} {cost : α → Nat} {items : List α}

theorem total_filter (h : ∀ item ∈ items, counted item = false → cost item = 0) {start : Nat}
    (hStart : roundDouble start = start) :
    ((items.filter counted).map cost).foldl add start = (items.map cost).foldl add start := by
  induction items generalizing start with
  | nil => rfl
  | cons item rest ih =>
    rw [List.forall_mem_cons] at h
    cases hCounted : counted item with
    | true =>
      rw [List.filter_cons_of_pos hCounted]
      exact ih h.2 (roundDouble_roundDouble _)
    | false =>
      have hFree : add start 0 = start := hStart
      rw [List.filter_cons_of_neg (by simp [hCounted]), List.map_cons, List.foldl_cons, h.1 hCounted, hFree]
      exact ih h.2 hStart

theorem total_exact (values : List Nat) {start : Nat} (h : start + values.sum < 2 ^ 53) :
    values.foldl add start = start + values.sum := by
  induction values generalizing start with
  | nil => rfl
  | cons value rest ih =>
    rw [List.sum_cons] at h
    have hFirst : add start value = start + value := roundDouble_of_lt (by omega)
    rw [List.foldl_cons, hFirst, ih (by omega), List.sum_cons, Nat.add_assoc]

theorem sum_filter (counted : α → Bool) (cost : α → Nat) (items : List α) :
    (items.map cost).sum = ((items.filter counted).map cost).sum + ((items.filter fun item => !counted item).map cost).sum := by
  induction items with
  | nil => rfl
  | cons item rest ih =>
    cases hCounted : counted item with
    | true => simp [hCounted, ih, Nat.add_assoc]
    | false => simp [hCounted, ih, Nat.add_left_comm]

theorem total_filter_iff : ((items.filter counted).map cost).foldl add 0 = (items.map cost).foldl add 0 ↔
    (∀ item ∈ items, counted item = false → cost item = 0) ∨ 2 ^ 53 ≤ (items.map cost).sum ∧
      ((items.filter counted).map cost).foldl add 0 = (items.map cost).foldl add 0 := by
  constructor
  · intro hSame
    by_cases hSum : 2 ^ 53 ≤ (items.map cost).sum
    · exact .inr ⟨hSum, hSame⟩
    · have hSplit := sum_filter counted cost items
      rw [total_exact _ (by omega), total_exact _ (by omega)] at hSame
      refine .inl fun item hItem hNot => ?_
      have hLost : ((items.filter fun item => !counted item).map cost).sum = 0 := by omega
      have hMem : item ∈ items.filter fun item => !counted item := List.mem_filter.mpr ⟨hItem, by rw [hNot]; rfl⟩
      exact List.sum_eq_zero_iff_forall_eq_nat.mp hLost _ (List.mem_map_of_mem hMem)
  · rintro (hFree | ⟨_, hSame⟩)
    · exact total_filter hFree rfl
    · exact hSame

end Totals

theorem foldl_amounts (values : List CostAmounts) (start : CostAmounts) (key : CostAmountKey) :
    values.foldl addAmounts start key = (values.map (· key)).foldl add (start key) := by
  induction values generalizing start with
  | nil => rfl
  | cons value rest ih => exact ih _

theorem sumAmounts_key (records : List CostRecord) (key : CostAmountKey) :
    sumAmounts (records.map CostRecord.costs) key = (records.map (·.costs key)).foldl add 0 := by
  rw [sumAmounts, foldl_amounts, List.map_map]
  rfl

/-! ## Evaluations -/

theorem evaluateBudget_eq_iff {budget : CostBudget} {records records' : List CostRecord} {now : Int} :
    evaluateBudget budget records now = evaluateBudget budget records' now ↔
      (evaluateBudget budget records now).totals = (evaluateBudget budget records' now).totals := by
  constructor
  · exact congrArg CostBudgetEvaluation.totals
  · intro h
    change sumAmounts _ = sumAmounts _ at h
    rw [evaluateBudget, evaluateBudget, h]

theorem evaluate_reach (budget : CostBudget) (records : List CostRecord) (now : Int) :
    evaluateBudget budget (records.filter fun record => now - MAX_WINDOW_MS ≤ record.recordedAt) now =
      evaluateBudget budget records now := by
  have hMax := budget.windowMs.property.2
  have hReach : (records.filter fun record => now - MAX_WINDOW_MS ≤ record.recordedAt).filter (budget.counts now) =
      records.filter (budget.counts now) := by
    rw [List.filter_filter]
    refine List.filter_congr fun record _ => ?_
    by_cases hCounts : budget.counts now record = true
    · have hTime : now - budget.windowMs.val ≤ record.recordedAt := by
        rw [CostBudget.counts, Bool.and_eq_true, decide_eq_true_eq] at hCounts
        exact hCounts.1
      simp only [hCounts, Bool.true_and, decide_eq_true_eq]
      omega
    · simp [hCounts]
  rw [evaluateBudget, evaluateBudget, hReach]

/-- The totals over all records of a scope in the window of the budget. -/
def ownTotals (budget : CostBudget) (records : List CostRecord) (now : Int) : CostAmounts :=
  sumAmounts ((records.filter fun record => now - budget.windowMs.val ≤ record.recordedAt ∧
    record.attribution.get budget.scope.dimension = budget.scope.value).map CostRecord.costs)

theorem evaluate_ownTotals (budget : CostBudget) (records : List CostRecord) (now : Int) :
    (evaluateBudget budget records now).totals = ownTotals budget records now := by
  have hCounts : records.filter (budget.counts now) = records.filter fun record =>
      now - budget.windowMs.val ≤ record.recordedAt ∧
        record.attribution.get budget.scope.dimension = budget.scope.value :=
    List.filter_congr fun record _ => (Bool.decide_and _ _).symm
  rw [ownTotals, ← hCounts]
  rfl

theorem listEvaluations_eq (state : CostStoreState) (now : Int) :
    listEvaluations state now = state.budgets.map fun budget => evaluateBudget budget state.records now :=
  List.map_congr_left fun budget _ => evaluate_reach budget state.records now

/-! ## Reports -/

/-- The budgets of a report are those that the alerts are derived from, each over its own window. -/
structure OwnWindows (state : CostStoreState) (report : CostReport) : Prop where
  listed : report.budgets = listEvaluations state report.generatedAt
  totals : report.budgets.map (·.totals) = state.budgets.map fun budget => ownTotals budget state.records report.generatedAt

/-- The records that a budget counts and the report looks at. -/
def seen (budget : CostBudget) (windowMs : WindowMs) (now : Int) (records : List CostRecord) : List CostRecord :=
  (records.filter (budget.counts now)).filter fun record => now - windowMs.val ≤ record.recordedAt

/-- Of the records that a budget counts those that are older than the window of the report cost nothing. Where the costs
add up to more than the safe integers, older records may also be lost in rounding. -/
def Complete (records : List CostRecord) (windowMs : WindowMs) (now : Int) (budget : CostBudget) : Prop := ∀ key,
  (∀ record ∈ records.filter (budget.counts now), record.recordedAt < now - windowMs.val → record.costs key = 0) ∨
  2 ^ 53 ≤ ((records.filter (budget.counts now)).map (·.costs key)).sum ∧
    ((seen budget windowMs now records).map (·.costs key)).foldl add 0 =
      ((records.filter (budget.counts now)).map (·.costs key)).foldl add 0

theorem evaluate_seen {budget : CostBudget} {windowMs : WindowMs} {now : Int} {records : List CostRecord}
    (hPast : ∀ record ∈ records, record.recordedAt ≤ now) :
    (evaluateBudget budget (records.filter (inReport windowMs now)) now).totals =
      sumAmounts ((seen budget windowMs now records).map CostRecord.costs) := by
  have hSeen : (records.filter (inReport windowMs now)).filter (budget.counts now) = seen budget windowMs now records := by
    rw [seen, List.filter_filter, List.filter_filter]
    refine List.filter_congr fun record hRecord => ?_
    have hNow : record.recordedAt ≤ now + 1000 := by
      have hTime := hPast record hRecord
      omega
    rw [inReport, decide_eq_true hNow, Bool.and_true, Bool.and_comm]
  rw [← hSeen]
  rfl

theorem complete_iff {budget : CostBudget} {windowMs : WindowMs} {now : Int} {records : List CostRecord} :
    sumAmounts ((seen budget windowMs now records).map CostRecord.costs) = ownTotals budget records now ↔
      Complete records windowMs now budget := by
  rw [← evaluate_ownTotals, funext_iff]
  refine forall_congr' fun key => ?_
  have hAll : (evaluateBudget budget records now).totals key =
      ((records.filter (budget.counts now)).map (·.costs key)).foldl add 0 := sumAmounts_key _ key
  rw [hAll, sumAmounts_key, seen]
  refine total_filter_iff.trans (or_congr_left (forall_congr' fun record => imp_congr_right fun _ => ?_))
  rw [decide_eq_false_iff_not, Int.not_le]

theorem report_ok {input : ReportInput} {store : Option CostStoreState} {made : CostReport}
    (h : report input store = .ok made) : ∃ operator, authorize input.authenticate .inspect = .ok operator ∧
      format.timestamp input.now = .ok made.generatedAt ∧
      made.budgets = (stateOf store).budgets.map fun budget => evaluateBudget budget
        ((tenantScoped (stateOf store).records operator.tenantId).filter (inReport made.windowMs made.generatedAt))
        made.generatedAt := by
  obtain ⟨operator, hOperator, h⟩ := bind_eq_ok h
  obtain ⟨windowMs, _, h⟩ := bind_eq_ok h
  obtain ⟨_, _, h⟩ := bind_eq_ok h
  obtain ⟨now, hNow, h⟩ := bind_eq_ok h
  obtain ⟨runId, _, h⟩ := bind_eq_ok h
  obtain ⟨state, hRead, h⟩ := bind_eq_ok h
  obtain ⟨alerts, _, h⟩ := bind_eq_ok h
  obtain ⟨windowStart, _, h⟩ := bind_eq_ok h
  cases h
  obtain rfl : state = stateOf store := format_accepts.read_ok hRead
  exact ⟨operator, hOperator, hNow, rfl⟩

/-- The readings of a run and the one that follows it do not go back. -/
def NonDecreasing (events : List CostEvent) (now : Int) : Prop :=
  (events.filterMap CostEvent.clock ++ [now]).Pairwise (· ≤ ·)

theorem NonDecreasing.past {events : List CostEvent} {now : Int} (h : NonDecreasing events now) {store : Option CostStoreState}
    (run : machine.FreeRun events store) : ∀ record ∈ (stateOf store).records, record.recordedAt ≤ now := by
  intro record hRecord
  obtain ⟨event, hEvent, hClock⟩ := run_recorded run record hRecord
  rw [NonDecreasing, List.pairwise_append] at h
  exact h.2.2 _ (List.mem_filterMap.mpr ⟨event, hEvent, hClock⟩) _ (List.mem_singleton_self now)

/-- A report of an operator of all tenants evaluates the budgets over their own windows exactly when every budget is
complete in the window of the report. -/
theorem budgets_own_window_iff (events : List CostEvent) (store : Option CostStoreState)
    (run : machine.FreeRun events store) (input : ReportInput) (operator : CostOperator)
    (hOperator : authorize input.authenticate .inspect = .ok operator) (hAll : operator.tenantId = none)
    (made : CostReport) (hReport : report input store = .ok made) (hClock : NonDecreasing events made.generatedAt) :
    OwnWindows (stateOf store) made ↔
      ∀ budget ∈ (stateOf store).budgets, Complete (stateOf store).records made.windowMs made.generatedAt budget := by
  obtain ⟨other, hOther, _, hBudgets⟩ := report_ok hReport
  obtain rfl : operator = other := Except.ok.inj (hOperator.symm.trans hOther)
  rw [hAll] at hBudgets
  have hEvaluate : ∀ budget, (evaluateBudget budget
      ((stateOf store).records.filter (inReport made.windowMs made.generatedAt)) made.generatedAt).totals =
      sumAmounts ((seen budget made.windowMs made.generatedAt (stateOf store).records).map CostRecord.costs) :=
    fun budget => evaluate_seen (hClock.past run)
  constructor
  · intro hOwn budget hBudget
    have hTotals := hOwn.totals
    rw [hBudgets, List.map_map] at hTotals
    have hSame := List.map_inj_left.mp hTotals budget hBudget
    rw [Function.comp_apply, tenantScoped, hEvaluate] at hSame
    exact complete_iff.mp hSame
  · intro hComplete
    have hTotals : ∀ budget ∈ (stateOf store).budgets, (evaluateBudget budget
        ((stateOf store).records.filter (inReport made.windowMs made.generatedAt)) made.generatedAt).totals =
        ownTotals budget (stateOf store).records made.generatedAt := by
      intro budget hBudget
      rw [hEvaluate]
      exact complete_iff.mpr (hComplete budget hBudget)
    refine ⟨?_, ?_⟩
    · rw [hBudgets, listEvaluations_eq]
      refine List.map_congr_left fun budget hBudget => evaluateBudget_eq_iff.mpr ?_
      rw [evaluate_ownTotals budget (stateOf store).records]
      exact hTotals budget hBudget
    · rw [hBudgets, List.map_map]
      exact List.map_congr_left hTotals

/-! ## A short report -/

def localOperator : JsValue := .object [("id", .string "a1"), ("principalId", .string "a1"),
  ("permissions", .array [.string "cost.record", .string "cost.configure", .string "cost.inspect"])]

/-- A budget of a day that allows no requests of an agent. -/
def dayBudget : JsValue := .object [("id", .string "b1"),
  ("scope", .object [("dimension", .string "agent"), ("value", .string "a1")]), ("windowMs", .number (.integer 86400000)),
  ("limits", .object [("requests", .number (.integer 0))]), ("alertOnExceed", .bool true)]

def requestsInput (actionId : String) (requests : Nat) (uuid : String) : RecordInput where
  authenticate := .ok localOperator
  tenantId := .string "t1"
  runId := .string "r1"
  actionId := .string actionId
  attribution := .object [("agentId", .string "a1"), ("projectId", .string "p1"), ("provider", .string "v1"),
    ("actionClass", .string "c1"), ("workflowId", .string "w1")]
  amounts := .object [("monetaryAmountMinor", .number (.integer 0)), ("requests", .number (.integer requests)),
    ("messages", .number (.integer 0)), ("mutations", .number (.integer 0)), ("deletes", .number (.integer 0)),
    ("tokenCost", .number (.integer 0))]
  now := some 0
  uuid

def dayEvents : List CostEvent := [.configureBudget (.ok localOperator) dayBudget,
  .recordCost (requestsInput "x1" 1 "00000000-0000-4000-8000-000000000001")]

def hourReport : ReportInput where
  authenticate := .ok localOperator
  windowMs := .number (.integer 3600000)
  projectionDays := .undefined
  runId := .string "r1"
  now := some 7200000
  uuid := fun _ => ""

theorem hour_report : ∃ store operator made, machine.FreeRun dayEvents store ∧
    authorize hourReport.authenticate .inspect = .ok operator ∧ operator.tenantId = none ∧
    report hourReport store = .ok made ∧ NonDecreasing dayEvents made.generatedAt ∧
    made.budgets.map (·.totals .requests) ≠
      (stateOf store).budgets.map fun budget => ownTotals budget (stateOf store).records made.generatedAt .requests := by
  have hTest : ((machine.exec none dayEvents).any fun store =>
      (authorize hourReport.authenticate .inspect).toOption.any (·.tenantId.isNone) &&
      (report hourReport store).toOption.any fun made => made.generatedAt == 7200000 &&
        made.budgets.map (·.totals .requests) != (stateOf store).budgets.map fun budget =>
          ownTotals budget (stateOf store).records made.generatedAt .requests) = true := by decide +kernel
  obtain ⟨store, hRun, hTest⟩ := (Option.any_eq_true _ _).mp hTest
  rw [Bool.and_eq_true] at hTest
  obtain ⟨operator, hOperator, hAll⟩ := (Option.any_eq_true _ _).mp hTest.1
  obtain ⟨made, hReport, hTotals⟩ := (Option.any_eq_true _ _).mp hTest.2
  rw [Bool.and_eq_true, beq_iff_eq, bne_iff_ne] at hTotals
  refine ⟨store, operator, made, Machine.freeRun_of_exec hRun, toOption_eq_some hOperator, Option.isNone_iff_eq_none.mp hAll,
    toOption_eq_some hReport, ?_, hTotals.2⟩
  rw [NonDecreasing, hTotals.1]
  decide

theorem budget_not_over_own_window : ∃ store operator made, machine.FreeRun dayEvents store ∧
    authorize hourReport.authenticate .inspect = .ok operator ∧ operator.tenantId = none ∧
    report hourReport store = .ok made ∧ NonDecreasing dayEvents made.generatedAt ∧ ¬OwnWindows (stateOf store) made := by
  obtain ⟨store, operator, made, hRun, hOperator, hAll, hReport, hClock, hTotals⟩ := hour_report
  refine ⟨store, operator, made, hRun, hOperator, hAll, hReport, hClock, fun hOwn => hTotals ?_⟩
  have hRequests := congrArg (List.map (· CostAmountKey.requests)) hOwn.totals
  rwa [List.map_map, List.map_map] at hRequests

theorem hour_report_windows : ∃ store made, machine.FreeRun dayEvents store ∧ report hourReport store = .ok made ∧
    (OwnWindows (stateOf store) made ↔
      ∀ budget ∈ (stateOf store).budgets, Complete (stateOf store).records made.windowMs made.generatedAt budget) := by
  obtain ⟨store, operator, made, hRun, hOperator, hAll, hReport, hClock, _⟩ := hour_report
  exact ⟨store, made, hRun, hReport,
    budgets_own_window_iff dayEvents store hRun hourReport operator hOperator hAll made hReport hClock⟩

end GhostApi.Costs
