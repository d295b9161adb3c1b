import GhostApi.Safety.Validity

/-!
# What the operations do to the ledger and the budgets

Audit records and circuits are written by almost every operation; only admit
and complete touch the ledger and only configureBudget touches the budgets.
-/

namespace GhostApi.Safety

open Js Validation Effect Effect.Mutation Table

/-- An observation of the state that audit records and circuits do not enter. -/
structure Unobserved {τ : Type} (f : SafetyControllerState → τ) : Prop where
  audit : ∀ s audit, f { s with audit := audit } = f s
  circuits : ∀ s circuits, f { s with circuits := circuits } = f s

section Frames

variable {τ : Type} {f : SafetyControllerState → τ} (hf : Unobserved f)
include hf

theorem appendAudit_keeps (event subject reason : String) (now : Int) (principal : Option Identifier) :
    (appendAudit event subject reason now principal).Keeps f := by
  refine keeps_get.bind fun state => (keeps_throwIf _ _).bind fun _ => ?_
  refine (keeps_lift _).bind fun event => (keeps_lift _).bind fun subject => (keeps_lift _).bind fun reason => ?_
  exact keeps_modify fun s => hf.audit s _

theorem evaluateCircuit_keeps (now : Int) (position : Nat) (circuit : SafetyCircuit) :
    (evaluateCircuit now position circuit).Keeps f := by
  refine keeps_get.bind fun state => ?_
  cases tripReason circuit (circuitOutcomes state circuit now) with
  | none => exact keeps_pure ()
  | some reason => exact (keeps_modify fun s => hf.circuits s _).bind fun _ => appendAudit_keeps hf _ _ _ _ _

theorem evaluateCircuits_keeps (action : SafetyAction) (now : Int) : (evaluateCircuits action now).Keeps f := by
  refine keeps_get.bind fun state => Keeps.each ?_ _
  rintro ⟨circuit, position⟩
  exact (evaluateCircuit_keeps hf now position circuit).ite (keeps_pure ())

omit hf in
theorem assertClosed_keeps (action : SafetyAction) : (assertClosed action).Keeps f := by
  refine keeps_get.bind fun state => ?_
  cases findOpenCircuit state action with
  | none => exact keeps_pure ()
  | some circuit => exact keeps_throw _

theorem assertActionAllowed_keeps (action : SafetyAction) (now : Int) :
    (assertActionAllowed action now).Keeps f := by
  refine keeps_get.bind fun state => ?_
  cases state.switches.find? fun control => control.enabled && scopeMatches control.scope action with
  | some stopped => exact keeps_throw _
  | none =>
    exact (assertClosed_keeps action).bind fun _ =>
      (evaluateCircuits_keeps hf action now).bind fun _ => assertClosed_keeps action

omit hf in
theorem assertReserved_keeps (leaseTtlMs : Int) (key : String) (now : Int) :
    (assertReserved leaseTtlMs key now).Keeps f := by
  refine Keeps.bind ?_ fun entry => (keeps_throwIf _ _).bind fun _ => keeps_throwIf _ _
  refine keeps_get.bind fun state => ?_
  cases state.ledger.find? (·.key == key) with
  | none => exact keeps_throw _
  | some entry => exact keeps_pure entry

theorem assertActiveOp_keeps (leaseTtlMs : Int) (lease : SafetyLease) (now : Int) :
    (assertActiveOp leaseTtlMs lease now).Keeps f :=
  (assertReserved_keeps _ _ _).bind fun _ =>
    (assertActionAllowed_keeps hf _ _).bind fun _ => appendAudit_keeps hf _ _ _ _ _

theorem commitStartOp_keeps (leaseTtlMs : Int) (lease : SafetyLease) (now : Int) :
    (commitStartOp leaseTtlMs lease now).Keeps f :=
  (assertReserved_keeps _ _ _).bind fun _ => assertActionAllowed_keeps hf _ _

theorem commitEndOp_keeps (leaseTtlMs : Int) (lease : SafetyLease) (now : Int) :
    (commitEndOp leaseTtlMs lease now).Keeps f :=
  (assertReserved_keeps _ _ _).bind fun _ => appendAudit_keeps hf _ _ _ _ _

theorem configureCircuitOp_keeps (operator : SafetyOperator) (circuit : SafetyCircuit) (now : Int) :
    (configureCircuitOp operator circuit now).Keeps f := by
  refine keeps_get.bind fun state => (keeps_throwIf _ _).bind fun _ => ?_
  refine (keeps_modify fun s => hf.circuits s _).bind fun _ => ?_
  exact (appendAudit_keeps hf _ _ _ _ _).bind fun _ => keeps_pure circuit

theorem gameDayPassedOp_keeps (action : SafetyAction) (reason : Text 200) (now : Int) :
    (gameDayPassedOp action reason now).Keeps f := appendAudit_keeps hf _ _ _ _ _

end Frames

def accounts (state : SafetyControllerState) : List LedgerEntry × List SafetyBudget := (state.ledger, state.budgets)

theorem accounts_unobserved : Unobserved accounts := ⟨fun _ _ => rfl, fun _ _ => rfl⟩

theorem setSwitch_keeps (scope : SafetyScope) (enabled : Bool) (reason : Text 200) (principalId : Identifier)
    (now : Int) : (setSwitch scope enabled reason principalId now).Keeps accounts :=
  keeps_get.bind fun _ => (keeps_throwIf _ _).bind fun _ => keeps_modify fun _ => rfl

theorem addDeadLetter_keeps (item : SafetyQueueItem) (reason : String) (now : Int) :
    (addDeadLetter item reason now).Keeps accounts :=
  Keeps.bind (keeps_modify fun _ => rfl) fun _ => Keeps.bind (keeps_lift _) fun _ => keeps_modify fun _ => rfl

theorem deadLetterMatchingQueued_keeps (scope : SafetyScope) (reason : String) (now : Int) :
    (deadLetterMatchingQueued scope reason now).Keeps accounts := by
  refine keeps_get.bind fun state => Keeps.bind ?_ fun _ => keeps_modify fun _ => rfl
  exact Keeps.each (fun item => (addDeadLetter_keeps item _ now).bind fun _ =>
    appendAudit_keeps accounts_unobserved _ _ _ _ _) _

theorem stopOp_keeps (operator : SafetyOperator) (scope : SafetyScope) (reason : Text 200) (now : Int) :
    (stopOp operator scope reason now).Keeps accounts :=
  (setSwitch_keeps _ _ _ _ _).bind fun _ => (deadLetterMatchingQueued_keeps _ _ _).bind fun _ =>
    appendAudit_keeps accounts_unobserved _ _ _ _ _

theorem reenableOp_keeps (operator : SafetyOperator) (scope : SafetyScope) (reason : Text 200) (now : Int) :
    (reenableOp operator scope reason now).Keeps accounts :=
  keeps_get.bind fun _ => (keeps_throwIf _ _).bind fun _ => Keeps.bind (keeps_modify fun _ => rfl) fun _ =>
    appendAudit_keeps accounts_unobserved _ _ _ _ _

theorem enqueueOp_keeps (action : SafetyAction) (now : Int) : (enqueueOp action now).Keeps accounts := by
  refine (assertActionAllowed_keeps accounts_unobserved action now).bind fun _ => keeps_get.bind fun state => ?_
  cases state.queue.find? (ledgerKey ·.action == ledgerKey action) with
  | some existing => exact keeps_pure existing
  | none =>
    exact keeps_get.bind fun _ => (keeps_throwIf _ _).bind fun _ => Keeps.bind (keeps_modify fun _ => rfl) fun _ =>
      (appendAudit_keeps accounts_unobserved _ _ _ _ _).bind fun _ => keeps_pure _

theorem dequeueOp_keeps (now : Int) : (dequeueOp now).Keeps accounts := by
  refine keeps_get.bind fun state => ?_
  cases state.queue with
  | nil => exact keeps_pure none
  | cons item rest =>
    refine Keeps.bind (keeps_modify fun _ => rfl) fun _ => Keeps.bind (Keeps.tryCatch ?_ fun e => keeps_pure _) ?_
    · exact (assertActionAllowed_keeps accounts_unobserved _ _).bind fun _ => keeps_pure none
    · intro denied
      cases denied with
      | some e =>
        exact (addDeadLetter_keeps _ _ _).bind fun _ =>
          (appendAudit_keeps accounts_unobserved _ _ _ _ _).bind fun _ => keeps_pure none
      | none => exact (appendAudit_keeps accounts_unobserved _ _ _ _ _).bind fun _ => keeps_pure (some item)

/-! ## Operations on the ledger -/

theorem configureBudgetOp_ok {operator : SafetyOperator} {budget result : SafetyBudget} {now : Int}
    {s s' : SafetyControllerState} (h : configureBudgetOp operator budget now s = (.ok result, s')) :
    accounts s' = (s.ledger, upsert (·.id == budget.id) budget s.budgets) := by
  obtain ⟨_, _, hGet, h⟩ := bind_ok h
  obtain ⟨rfl, rfl⟩ := get_ok hGet
  obtain ⟨_, _, hGuard, h⟩ := bind_ok h
  obtain ⟨_, rfl⟩ := throwIf_ok hGuard
  obtain ⟨_, _, hModify, h⟩ := bind_ok h
  have hBudgets := modify_ok hModify
  obtain ⟨_, _, hAudit, h⟩ := bind_ok h
  obtain ⟨_, rfl⟩ := pure_ok h
  rw [(appendAudit_keeps accounts_unobserved _ _ _ _ _).of_eq hAudit, hBudgets]
  rfl

def pruned (leaseTtlMs now : Int) (ledger : List LedgerEntry) : List LedgerEntry :=
  ledger.filter (survivesPruning leaseTtlMs now)

def reservation (action : SafetyAction) (now : Int) : LedgerEntry := ⟨ledgerKey action, action, .reserved, now⟩

theorem reserve_ok {action : SafetyAction} {now : Int} {replay : Bool} {s s' : SafetyControllerState}
    (h : reserve action now s = (.ok replay, s')) :
    replay = false ∧ accounts s' = (s.ledger ++ [reservation action now], s.budgets) ∧
      ∀ budget ∈ s.budgets, assertBudget s.ledger action now budget = .ok () := by
  obtain ⟨_, t, hAllowed, h⟩ := bind_ok h
  have hKept := (assertActionAllowed_keeps accounts_unobserved _ _).of_eq hAllowed
  obtain ⟨_, _, hGet, h⟩ := bind_ok h
  obtain ⟨rfl, rfl⟩ := get_ok hGet
  obtain ⟨_, _, hGuard, h⟩ := bind_ok h
  obtain ⟨_, rfl⟩ := throwIf_ok hGuard
  obtain ⟨_, _, hLift, h⟩ := bind_ok h
  obtain ⟨hBudgets, rfl⟩ := lift_ok hLift
  obtain ⟨_, _, hModify, h⟩ := bind_ok h
  have hLedger := modify_ok hModify
  obtain ⟨_, _, hAudit, h⟩ := bind_ok h
  obtain ⟨rfl, rfl⟩ := pure_ok h
  obtain ⟨hLedgerKept, hBudgetsKept⟩ := Prod.mk.inj hKept
  refine ⟨rfl, ?_, ?_⟩
  · rw [(appendAudit_keeps accounts_unobserved _ _ _ _ _).of_eq hAudit, hLedger, ← hLedgerKept, ← hBudgetsKept]
    rfl
  · rw [← hLedgerKept, ← hBudgetsKept]
    exact forM_eq_ok.mp hBudgets

theorem admitOp_ok {leaseTtlMs : Int} {action : SafetyAction} {now : Int} {replay : Bool}
    {s s' : SafetyControllerState} (h : admitOp leaseTtlMs action now s = (.ok replay, s')) :
    replay = true ∧ accounts s' = (pruned leaseTtlMs now s.ledger, s.budgets) ∨
      replay = false ∧
        accounts s' = (pruned leaseTtlMs now s.ledger ++ [reservation action now], s.budgets) ∧
        ∀ budget ∈ s.budgets, assertBudget (pruned leaseTtlMs now s.ledger) action now budget = .ok () := by
  obtain ⟨_, t, hPrune, h⟩ := bind_ok h
  have hPruned := modify_ok hPrune
  obtain ⟨_, _, hCollision, h⟩ := bind_ok h
  obtain ⟨_, _, hGet, hCollision⟩ := bind_ok hCollision
  obtain ⟨rfl, rfl⟩ := get_ok hGet
  obtain ⟨_, rfl⟩ := throwIf_ok hCollision
  obtain ⟨_, _, hGet, h⟩ := bind_ok h
  obtain ⟨rfl, rfl⟩ := get_ok hGet
  rcases ite_ok h with ⟨_, h⟩ | ⟨_, h⟩
  · obtain ⟨rfl, rfl⟩ := pure_ok h
    exact .inl ⟨rfl, by rw [hPruned]; rfl⟩
  · obtain ⟨hReplay, hAccounts, hBudgets⟩ := reserve_ok h
    rw [hPruned] at hAccounts hBudgets
    exact .inr ⟨hReplay, hAccounts, hBudgets⟩

theorem completeOp_ok {lease : SafetyLease} {outcome : SafetyOutcome} {now : Int} {u : Unit}
    {s s' : SafetyControllerState} (h : completeOp lease outcome now s = (.ok u, s')) :
    accounts s' = accounts s ∨ ∃ entry, s.ledger.find? (·.key == lease.key) = some entry ∧
      entry.status = .reserved ∧ accounts s' = (upsert (·.key == lease.key)
        { entry with status := .completed now outcome } s.ledger, s.budgets) := by
  obtain ⟨_, _, hGet, h⟩ := bind_ok h
  obtain ⟨rfl, rfl⟩ := get_ok hGet
  cases hFind : s.ledger.find? (·.key == lease.key) with
  | none =>
    rw [hFind] at h
    exact .inl ((appendAudit_keeps accounts_unobserved _ _ _ _ _).of_eq h)
  | some entry =>
    rw [hFind] at h
    rcases ite_ok h with ⟨hReserved, h⟩ | ⟨_, h⟩
    · obtain ⟨_, _, hModify, h⟩ := bind_ok h
      have hLedger := modify_ok hModify
      obtain ⟨_, _, hAudit, h⟩ := bind_ok h
      refine .inr ⟨entry, rfl, hReserved, ?_⟩
      rw [(evaluateCircuits_keeps accounts_unobserved _ _).of_eq h,
        (appendAudit_keeps accounts_unobserved _ _ _ _ _).of_eq hAudit, hLedger]
      rfl
    · obtain ⟨_, rfl⟩ := pure_ok h
      exact .inl rfl

end GhostApi.Safety
