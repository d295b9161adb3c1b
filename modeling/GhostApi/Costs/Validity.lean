import GhostApi.Costs.Governance

/-!
# What a call makes of the store

The checks of the stored state as one predicate, what each call changes, and
what therefore holds of the records after every run.
-/

namespace GhostApi.Costs

open Js Validation Effect Effect.Mutation Storage Transition

structure CostAlert.Valid (alert : CostAlert) : Prop where
  entries : alert.exceeded.length ≤ CostAmountKey.all.length
  totals : ∀ entry ∈ alert.exceeded, entry.total ≤ MAX_SAFE_INTEGER
  id : isIdentifier alert.id = true
  windowStart : Printable alert.windowStart
  windowEnd : Printable alert.windowEnd
  created : Printable alert.created
  acknowledged : ∀ acknowledgement ∈ alert.acknowledgement, Printable acknowledgement.acknowledgedAt

structure Valid (state : CostStoreState) : Prop where
  recordsLength : state.records.length ≤ MAX_RECORDS
  records : ∀ record ∈ state.records, isIdentifier record.recordId = true ∧ Printable record.recordedAt
  recordIds : (state.records.map (·.recordId)).Nodup
  budgetsLength : state.budgets.length ≤ MAX_BUDGETS
  budgetIds : (state.budgets.map (·.id.val)).Nodup
  alertsLength : state.alerts.length ≤ MAX_ALERTS
  alerts : ∀ alert ∈ state.alerts, alert.Valid
  alertIds : (state.alerts.map (·.id)).Nodup

theorem validateAlert_eq_ok {alert : CostAlert} : validateAlert alert = .ok () ↔ alert.Valid := by
  simp only [validateAlert, bind_unit_eq_ok, atMost_eq_ok, forM_eq_ok, failIf_eq_ok, checkIdentifier_eq_ok, stamp_eq_ok,
    Option.mem_toList, Nat.not_lt]
  constructor
  · rintro ⟨h1, h2, h3, h4, h5, h6, h7⟩
    exact ⟨h1, h2, h3, h4, h5, h6, h7⟩
  · rintro ⟨h1, h2, h3, h4, h5, h6, h7⟩
    exact ⟨h1, h2, h3, h4, h5, h6, h7⟩

theorem validateState_eq_ok {state state' : CostStoreState} :
    validateState state = .ok state' ↔ Valid state ∧ state = state' := by
  have hPure : ∀ x : CostStoreState, (pure x : Except JsError _) = .ok state' ↔ x = state' :=
    fun x => ⟨fun h => by cases h; rfl, fun h => by rw [h]; rfl⟩
  simp only [validateState, validateRecord, bind_unit_eq_ok, atMost_eq_ok, unique_eq_ok, forM_eq_ok, validateAlert_eq_ok,
    checkIdentifier_eq_ok, stamp_eq_ok, hPure]
  constructor
  · rintro ⟨h1, h2, h3, h4, h5, h6, h7, h8, h⟩
    exact ⟨⟨h1, h2, h3, h4, h5, h6, h7, h8⟩, h⟩
  · rintro ⟨⟨h1, h2, h3, h4, h5, h6, h7, h8⟩, h⟩
    exact ⟨h1, h2, h3, h4, h5, h6, h7, h8, h⟩

theorem format_accepts : format.Accepts Valid := fun _ _ => validateState_eq_ok

theorem Valid.empty : Valid emptyState where
  recordsLength := Nat.zero_le _
  records := fun _ h => (List.not_mem_nil h).elim
  recordIds := List.nodup_nil
  budgetsLength := Nat.zero_le _
  budgetIds := List.nodup_nil
  alertsLength := Nat.zero_le _
  alerts := fun _ h => (List.not_mem_nil h).elim
  alertIds := List.nodup_nil

theorem timestamp_ok {clock : Option Int} {now : Int} (h : format.timestamp clock = .ok now) : clock = some now := by
  cases clock with
  | none => cases h
  | some ms =>
    rw [StoreFormat.timestamp] at h
    split at h
    · cases h
      rfl
    · cases h

theorem read_size {store : Option CostStoreState} {state : CostStoreState} (h : format.read store = .ok state) :
    ∀ stored, store = some stored → format.bytes stored ≤ format.maxBytes := by
  rintro stored rfl
  rw [StoreFormat.read] at h
  split at h
  · cases h
  · exact Nat.not_lt.mp ‹_›

/-! ## Changes -/

/-- What a call with a reading of the clock makes of a state. -/
inductive Changes (clock : Option Int) (before : CostStoreState) : CostStoreState → Prop
  | recorded (record : CostRecord) (timed : clock = some record.recordedAt) :
      Changes clock before { before with records := before.records ++ [record] }
  | reconfigured (budget : CostBudget) (known : budget.id ∈ before.budgets.map (·.id)) : Changes clock before
      { before with budgets := assignFirst (·.id = budget.id) (fun _ => budget) before.budgets }
  | configured (budget : CostBudget) : Changes clock before { before with budgets := before.budgets ++ [budget] }
  | removed (budgetId : Identifier) :
      Changes clock before { before with budgets := before.budgets.eraseP (·.id = budgetId) }
  | listed (now : Int) (uuid : Nat → String) (alerts : List CostAlert)
      (derived : deriveAlerts before.alerts (listEvaluations before now) before.budgets now uuid = .ok alerts) :
      Changes clock before { before with alerts }
  | acknowledged (id : String) (alert : CostAlert) (acknowledgement : Acknowledgement)
      (found : before.alerts.find? (·.id = id) = some alert) : Changes clock before
      { before with alerts := assignFirst (·.id = id) (fun _ =>
          { alert with acknowledgement := some acknowledgement }) before.alerts }

theorem recordCost_ok {input : RecordInput} {store : Option CostStoreState} {record : CostRecord} {state : CostStoreState}
    (h : recordCost input store = .ok (record, state)) : Valid state ∧ Changes input.now (stateOf store) state := by
  obtain ⟨_, _, h⟩ := bind_eq_ok h
  obtain ⟨now, hNow, h⟩ := bind_eq_ok h
  obtain ⟨made, hMade, h⟩ := bind_eq_ok h
  obtain ⟨hRun, hValid⟩ := format_accepts.update_ok h
  have hTime : made.recordedAt = now := by
    obtain ⟨_, _, hMade⟩ := bind_eq_ok hMade
    obtain ⟨_, _, hMade⟩ := bind_eq_ok hMade
    obtain ⟨_, _, hMade⟩ := bind_eq_ok hMade
    obtain ⟨_, _, hMade⟩ := bind_eq_ok hMade
    obtain ⟨_, _, hMade⟩ := bind_eq_ok hMade
    cases hMade
    rfl
  rw [recordCostOp, get_bind] at hRun
  obtain ⟨_, _, hStep, hRun⟩ := bind_ok hRun
  obtain ⟨_, rfl⟩ := throwIf_ok hStep
  obtain ⟨_, _, hStep, hRun⟩ := bind_ok hRun
  obtain ⟨_, rfl⟩ := throwIf_ok hStep
  rw [modify_bind] at hRun
  cases hRun
  refine ⟨hValid, .recorded _ ?_⟩
  rw [hTime]
  exact timestamp_ok hNow

theorem configureBudget_ok {authenticate : Except JsError JsValue} {value : JsValue} {store : Option CostStoreState}
    {budget : CostBudget} {state : CostStoreState} {clock : Option Int}
    (h : configureBudget authenticate value store = .ok (budget, state)) :
    Valid state ∧ Changes clock (stateOf store) state := by
  obtain ⟨_, _, h⟩ := bind_eq_ok h
  obtain ⟨made, _, h⟩ := bind_eq_ok h
  obtain ⟨hRun, hValid⟩ := format_accepts.update_ok h
  rw [configureBudgetOp, get_bind] at hRun
  refine ⟨hValid, ?_⟩
  split at hRun
  · rename_i hKnown
    rw [modify_bind] at hRun
    cases hRun
    refine .reconfigured budget ?_
    obtain ⟨other, hOther, hSame⟩ := List.any_eq_true.mp hKnown
    exact List.mem_map.mpr ⟨other, hOther, of_decide_eq_true hSame⟩
  · obtain ⟨_, _, hStep, hRun⟩ := bind_ok hRun
    obtain ⟨_, rfl⟩ := throwIf_ok hStep
    rw [modify_bind] at hRun
    cases hRun
    exact .configured budget

theorem removeBudget_ok {authenticate : Except JsError JsValue} {value : JsValue} {store : Option CostStoreState}
    {state : CostStoreState} {clock : Option Int} {u : Unit} (h : removeBudget authenticate value store = .ok (u, state)) :
    Valid state ∧ Changes clock (stateOf store) state := by
  obtain ⟨_, _, h⟩ := bind_eq_ok h
  obtain ⟨budgetId, _, h⟩ := bind_eq_ok h
  obtain ⟨hRun, hValid⟩ := format_accepts.update_ok h
  rw [removeBudgetOp, get_bind] at hRun
  obtain ⟨_, _, hStep, hRun⟩ := bind_ok hRun
  obtain ⟨_, rfl⟩ := throwIf_ok hStep
  cases hRun
  exact ⟨hValid, .removed budgetId⟩

theorem listAlerts_ok {input : ListInput} {store : Option CostStoreState} {alerts : List CostAlert}
    {state : CostStoreState} (h : listAlerts input store = .ok (alerts, state)) : Valid state ∧ ∃ now,
      format.timestamp input.now = .ok now ∧ deriveAlerts (stateOf store).alerts (listEvaluations (stateOf store) now)
        (stateOf store).budgets now input.uuid = .ok alerts ∧ state = { stateOf store with alerts } := by
  obtain ⟨_, _, h⟩ := bind_eq_ok h
  obtain ⟨now, hNow, h⟩ := bind_eq_ok h
  obtain ⟨hRun, hValid⟩ := format_accepts.update_ok h
  rw [listAlertsOp, get_bind] at hRun
  obtain ⟨derived, _, hStep, hRun⟩ := bind_ok hRun
  obtain ⟨hDerived, rfl⟩ := lift_ok hStep
  rw [modify_bind] at hRun
  cases hRun
  exact ⟨hValid, now, hNow, hDerived, rfl⟩

theorem acknowledgeAlert_ok {input : AcknowledgeInput} {store : Option CostStoreState} {alert : CostAlert}
    {state : CostStoreState} (h : acknowledgeAlert input store = .ok (alert, state)) :
    Valid state ∧ Changes input.now (stateOf store) state := by
  obtain ⟨operator, _, h⟩ := bind_eq_ok h
  obtain ⟨alertId, _, h⟩ := bind_eq_ok h
  obtain ⟨hRun, hValid⟩ := format_accepts.update_ok h
  refine ⟨hValid, ?_⟩
  change acknowledgeAlertOp operator.principalId alertId input.now (stateOf store) = (.ok alert, state) at hRun
  rw [acknowledgeAlertOp, get_bind] at hRun
  cases hFound : (stateOf store).alerts.find? (·.id = alertId.val) with
  | none =>
    rw [hFound] at hRun
    cases throw_ok hRun
  | some found =>
    rw [hFound] at hRun
    dsimp only at hRun
    obtain ⟨_, _, hStep, hRun⟩ := bind_ok hRun
    obtain ⟨_, rfl⟩ := throwIf_ok hStep
    obtain ⟨now, _, hStep, hRun⟩ := bind_ok hRun
    obtain ⟨_, rfl⟩ := lift_ok hStep
    rw [modify_bind] at hRun
    cases hRun
    exact .acknowledged alertId.val found _ hFound

theorem write_ok {event : CostEvent} {store : Option CostStoreState} {state : CostStoreState}
    (h : event.write store = .ok state) : Valid state ∧ Changes event.clock (stateOf store) state := by
  have hPair : ∀ {α : Type} {x : Except JsError (α × CostStoreState)}, Prod.snd <$> x = .ok state →
      ∃ a, x = .ok (a, state) := by
    intro α x hx
    cases x with
    | error e => cases hx
    | ok pair =>
      cases hx
      exact ⟨pair.1, rfl⟩
  cases event with
  | recordCost input =>
    obtain ⟨record, h⟩ := hPair h
    exact recordCost_ok h
  | configureBudget authenticate budget =>
    obtain ⟨made, h⟩ := hPair h
    exact configureBudget_ok h
  | removeBudget authenticate budgetId =>
    obtain ⟨_, h⟩ := hPair h
    exact removeBudget_ok h
  | listAlerts input =>
    obtain ⟨alerts, h⟩ := hPair h
    obtain ⟨hValid, now, _, hDerived, rfl⟩ := listAlerts_ok h
    exact ⟨hValid, .listed now input.uuid alerts hDerived⟩
  | acknowledgeAlert input =>
    obtain ⟨alert, h⟩ := hPair h
    exact acknowledgeAlert_ok h

theorem serve_induction {I : CostStoreState → Prop} (initial : I emptyState)
    (step : ∀ clock before after, I before → Valid after → Changes clock before after → I after)
    {events : List CostEvent} {store : Option CostStoreState} (run : machine.FreeRun events store) : I (stateOf store) := by
  have hStart : I (stateOf machine.initial) := initial
  refine run.invariant (I := fun store => I (stateOf store)) hStart fun store event store' h _ hStep => ?_
  obtain rfl : serve store event = store' := Option.some.inj hStep
  rw [serve]
  split
  · rename_i state hWrite
    obtain ⟨hValid, hChanges⟩ := write_ok hWrite
    exact step _ _ _ h hValid hChanges
  · exact h

theorem run_recorded {events : List CostEvent} {store : Option CostStoreState} (run : machine.FreeRun events store) :
    ∀ record ∈ (stateOf store).records, ∃ event ∈ events, event.clock = some record.recordedAt := by
  induction run with
  | start => exact fun _ h => (List.not_mem_nil h).elim
  | @next events store store' event _ _ hStep ih =>
    have hOld : ∀ record ∈ (stateOf store).records, ∃ past ∈ events ++ [event], past.clock = some record.recordedAt := by
      intro record hRecord
      obtain ⟨past, hPast, hClock⟩ := ih record hRecord
      exact ⟨past, List.mem_append_left _ hPast, hClock⟩
    obtain rfl : serve store event = store' := Option.some.inj hStep
    rw [serve]
    split
    · rename_i state hWrite
      obtain ⟨_, hChanges⟩ := write_ok hWrite
      intro record hRecord
      change record ∈ state.records at hRecord
      generalize hBefore : stateOf store = before at hChanges hOld
      cases hChanges with
      | recorded made timed =>
        rcases List.mem_append.mp hRecord with hRecord | hRecord
        · exact hOld record hRecord
        · rw [List.mem_singleton.mp hRecord]
          exact ⟨event, List.mem_append_right _ (List.mem_singleton_self _), timed⟩
      | reconfigured => exact hOld record hRecord
      | configured => exact hOld record hRecord
      | removed => exact hOld record hRecord
      | listed => exact hOld record hRecord
      | acknowledged => exact hOld record hRecord
    · exact hOld

end GhostApi.Costs
