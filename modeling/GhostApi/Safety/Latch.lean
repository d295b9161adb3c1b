import GhostApi.Safety.Budgets

/-!
# Open circuits stay open

Only configureCircuit closes a circuit. While the store has an open circuit,
an admit in its scope throws or answers with a replay.
-/

namespace GhostApi.Safety

open Js Validation Effect Effect.Mutation Table

def OpenIn (id : Identifier) (scope : SafetyScope) (circuits : List SafetyCircuit) : Prop :=
  ∃ circuit ∈ circuits, circuit.id = id ∧ circuit.scope = scope ∧ circuit.state.isOpen = true

structure Advanced (before after : SafetyCircuit) : Prop where
  id : after.id = before.id
  scope : after.scope = before.scope
  isOpen : before.state.isOpen = true → after.state.isOpen = true

def Advance (before after : List SafetyCircuit) : Prop :=
  ∀ (i : Nat) circuit, before[i]? = some circuit → ∃ circuit', after[i]? = some circuit' ∧ Advanced circuit circuit'

theorem advance_refl (circuits : List SafetyCircuit) : Advance circuits circuits :=
  fun _ circuit hFound => ⟨circuit, hFound, ⟨rfl, rfl, id⟩⟩

theorem Advance.openIn {before after : List SafetyCircuit} (h : Advance before after) {id : Identifier}
    {scope : SafetyScope} (hOpen : OpenIn id scope before) : OpenIn id scope after := by
  obtain ⟨circuit, hMem, hId, hScope, hIsOpen⟩ := hOpen
  obtain ⟨i, hi⟩ := List.mem_iff_getElem?.mp hMem
  obtain ⟨circuit', hFound, hAdvanced⟩ := h i circuit hi
  exact ⟨circuit', List.mem_of_getElem? hFound, hAdvanced.id.trans hId, hAdvanced.scope.trans hScope,
    hAdvanced.isOpen hIsOpen⟩

theorem Advance.set {before after : List SafetyCircuit} (h : Advance before after) {position : Nat}
    {circuit : SafetyCircuit} (hFound : before[position]? = some circuit) (openedAt : String) (reason : Text 200) :
    Advance before (after.set position { circuit with state := .opened openedAt reason }) := by
  intro i other hOther
  obtain ⟨other', hOther', hAdvanced⟩ := h i other hOther
  by_cases hSame : position = i
  · subst hSame
    rw [hFound] at hOther
    cases hOther
    obtain ⟨hBound, _⟩ := List.getElem?_eq_some_iff.mp hOther'
    exact ⟨_, List.getElem?_set_self hBound, ⟨rfl, rfl, fun _ => rfl⟩⟩
  · exact ⟨other', (List.getElem?_set_ne hSame).trans hOther', hAdvanced⟩

/-! ## What each operation does to the circuits -/

section Frames

variable {I : List SafetyCircuit → Prop}

theorem appendAudit_circuits (event subject reason : String) (now : Int) (principal : Option Identifier) :
    (appendAudit event subject reason now principal).Preserves (I ·.circuits) := by
  refine preserves_get.bind fun state => (preserves_throwIf _ _).bind fun _ => ?_
  refine (preserves_lift _).bind fun event => (preserves_lift _).bind fun subject => (preserves_lift _).bind fun reason => ?_
  exact preserves_modify fun s hI => hI

theorem evaluateCircuit_circuits {before : List SafetyCircuit} {position : Nat} {circuit : SafetyCircuit}
    (hFound : before[position]? = some circuit) (now : Int) :
    (evaluateCircuit now position circuit).Preserves (Advance before ·.circuits) := by
  refine preserves_get.bind fun state => ?_
  cases tripReason circuit (circuitOutcomes state circuit now) with
  | none => exact preserves_pure ()
  | some reason =>
    exact (preserves_modify fun s hI => hI.set hFound _ _).bind fun _ => appendAudit_circuits _ _ _ _ _

theorem evaluateCircuits_advance (action : SafetyAction) (now : Int) (s : SafetyControllerState) :
    Advance s.circuits (evaluateCircuits action now s).2.circuits := by
  rw [evaluateCircuits, get_bind]
  have hEach : (each (fun x => if !x.1.state.isOpen && scopeMatches x.1.scope action then evaluateCircuit now x.2 x.1
      else pure ()) s.circuits.zipIdx).Preserves (Advance s.circuits ·.circuits) :=
    Preserves.each fun x hx =>
      (evaluateCircuit_circuits (List.mem_zipIdx_iff_getElem?.mp hx) now).ite (preserves_pure ())
  exact hEach s (advance_refl _)

end Frames

/-- A property of the circuits that opening one of them keeps. -/
def Monotone (I : List SafetyCircuit → Prop) : Prop := ∀ before after, Advance before after → I before → I after

theorem monotone_openIn (id : Identifier) (scope : SafetyScope) : Monotone (OpenIn id scope) :=
  fun _ _ hAdvance hOpen => hAdvance.openIn hOpen

section Operations

variable {I : List SafetyCircuit → Prop} (hI : Monotone I)

theorem assertClosed_circuits (action : SafetyAction) : (assertClosed action).Preserves (I ·.circuits) := by
  refine preserves_get.bind fun state => ?_
  cases findOpenCircuit state action with
  | none => exact preserves_pure ()
  | some circuit => exact preserves_throw _

include hI in
theorem evaluateCircuits_circuits (action : SafetyAction) (now : Int) :
    (evaluateCircuits action now).Preserves (I ·.circuits) :=
  fun s hs => hI _ _ (evaluateCircuits_advance action now s) hs

include hI in
theorem assertActionAllowed_circuits (action : SafetyAction) (now : Int) :
    (assertActionAllowed action now).Preserves (I ·.circuits) := by
  refine preserves_get.bind fun state => ?_
  cases state.switches.find? fun control => control.enabled && scopeMatches control.scope action with
  | some stopped => exact preserves_throw _
  | none =>
    exact (assertClosed_circuits action).bind fun _ => (evaluateCircuits_circuits hI action now).bind fun _ =>
      assertClosed_circuits action

theorem assertReserved_circuits (leaseTtlMs : Int) (key : String) (now : Int) :
    (assertReserved leaseTtlMs key now).Preserves (I ·.circuits) := by
  refine Preserves.bind ?_ fun entry => (preserves_throwIf _ _).bind fun _ => preserves_throwIf _ _
  refine preserves_get.bind fun state => ?_
  cases state.ledger.find? (·.key == key) with
  | none => exact preserves_throw _
  | some entry => exact preserves_pure entry

include hI in
theorem assertActiveOp_circuits (leaseTtlMs : Int) (lease : SafetyLease) (now : Int) :
    (assertActiveOp leaseTtlMs lease now).Preserves (I ·.circuits) :=
  (assertReserved_circuits _ _ _).bind fun _ => (assertActionAllowed_circuits hI _ _).bind fun _ =>
    appendAudit_circuits _ _ _ _ _

include hI in
theorem commitStartOp_circuits (leaseTtlMs : Int) (lease : SafetyLease) (now : Int) :
    (commitStartOp leaseTtlMs lease now).Preserves (I ·.circuits) :=
  (assertReserved_circuits _ _ _).bind fun _ => assertActionAllowed_circuits hI _ _

theorem commitEndOp_circuits (leaseTtlMs : Int) (lease : SafetyLease) (now : Int) :
    (commitEndOp leaseTtlMs lease now).Preserves (I ·.circuits) :=
  (assertReserved_circuits _ _ _).bind fun _ => appendAudit_circuits _ _ _ _ _

include hI in
theorem completeOp_circuits (lease : SafetyLease) (outcome : SafetyOutcome) (now : Int) :
    (completeOp lease outcome now).Preserves (I ·.circuits) := by
  refine preserves_get.bind fun state => ?_
  cases state.ledger.find? (·.key == lease.key) with
  | none => exact appendAudit_circuits _ _ _ _ _
  | some entry =>
    refine Preserves.ite (Preserves.bind (preserves_modify fun _ hs => hs) fun _ => ?_) (preserves_pure ())
    exact (appendAudit_circuits _ _ _ _ _).bind fun _ => evaluateCircuits_circuits hI _ _

theorem configureBudgetOp_circuits (operator : SafetyOperator) (budget : SafetyBudget) (now : Int) :
    (configureBudgetOp operator budget now).Preserves (I ·.circuits) :=
  preserves_get.bind fun _ => (preserves_throwIf _ _).bind fun _ => Preserves.bind (preserves_modify fun _ hs => hs) fun _ =>
    (appendAudit_circuits _ _ _ _ _).bind fun _ => preserves_pure budget

theorem addDeadLetter_circuits (item : SafetyQueueItem) (reason : String) (now : Int) :
    (addDeadLetter item reason now).Preserves (I ·.circuits) :=
  Preserves.bind (preserves_modify fun _ hs => hs) fun _ => (preserves_lift _).bind fun _ => preserves_modify fun _ hs => hs

theorem stopOp_circuits (operator : SafetyOperator) (scope : SafetyScope) (reason : Text 200) (now : Int) :
    (stopOp operator scope reason now).Preserves (I ·.circuits) := by
  refine Preserves.bind ?_ fun _ => Preserves.bind ?_ fun _ => appendAudit_circuits _ _ _ _ _
  · exact preserves_get.bind fun _ => (preserves_throwIf _ _).bind fun _ => preserves_modify fun _ hs => hs
  · refine preserves_get.bind fun state => Preserves.bind ?_ fun _ => preserves_modify fun _ hs => hs
    exact Preserves.each fun item _ => (addDeadLetter_circuits item _ now).bind fun _ => appendAudit_circuits _ _ _ _ _

theorem reenableOp_circuits (operator : SafetyOperator) (scope : SafetyScope) (reason : Text 200) (now : Int) :
    (reenableOp operator scope reason now).Preserves (I ·.circuits) :=
  preserves_get.bind fun _ => (preserves_throwIf _ _).bind fun _ => Preserves.bind (preserves_modify fun _ hs => hs) fun _ =>
    appendAudit_circuits _ _ _ _ _

include hI in
theorem admitOp_circuits (leaseTtlMs : Int) (action : SafetyAction) (now : Int) :
    (admitOp leaseTtlMs action now).Preserves (I ·.circuits) := by
  refine Preserves.bind (preserves_modify fun _ hs => hs) fun _ => Preserves.bind ?_ fun _ =>
    preserves_get.bind fun state => (preserves_pure true).ite ?_
  · exact preserves_get.bind fun state => preserves_throwIf _ _
  · exact (assertActionAllowed_circuits hI action now).bind fun _ => preserves_get.bind fun _ =>
      (preserves_throwIf _ _).bind fun _ => (preserves_lift _).bind fun _ =>
        Preserves.bind (preserves_modify fun _ hs => hs) fun _ => (appendAudit_circuits _ _ _ _ _).bind fun _ => preserves_pure false

include hI in
theorem enqueueOp_circuits (action : SafetyAction) (now : Int) :
    (enqueueOp action now).Preserves (I ·.circuits) := by
  refine (assertActionAllowed_circuits hI action now).bind fun _ => preserves_get.bind fun state => ?_
  cases state.queue.find? (ledgerKey ·.action == ledgerKey action) with
  | some existing => exact preserves_pure existing
  | none =>
    exact preserves_get.bind fun _ => (preserves_throwIf _ _).bind fun _ =>
      Preserves.bind (preserves_modify fun _ hs => hs) fun _ => (appendAudit_circuits _ _ _ _ _).bind fun _ => preserves_pure _

theorem dequeueOp_circuits_of {s s' : SafetyControllerState} {now : Int} {item : SafetyQueueItem}
    {rest : List SafetyQueueItem} {result : Option SafetyQueueItem} (hQueue : s.queue = item :: rest)
    (hRun : dequeueOp now s = (.ok result, s'))
    (hChecked : I (assertActionAllowed item.action now { s with queue := rest }).2.circuits) : I s'.circuits := by
  obtain ⟨_, _, hGet, h⟩ := bind_ok hRun
  obtain ⟨rfl, rfl⟩ := get_ok hGet
  rw [hQueue] at h
  obtain ⟨_, _, hShift, h⟩ := bind_ok h
  have hShifted := modify_ok hShift
  obtain ⟨denied, t, hTry, h⟩ := bind_ok h
  have hMid : t = (assertActionAllowed item.action now { s with queue := rest }).2 := by
    rw [hShifted] at hTry
    change andThen _ _ (andThen _ _ (assertActionAllowed item.action now { s with queue := rest })) = _ at hTry
    rcases hRun : assertActionAllowed item.action now { s with queue := rest } with ⟨e | u, mid⟩
    · rw [hRun] at hTry
      cases hTry
      rfl
    · rw [hRun] at hTry
      cases hTry
      rfl
  rw [← hMid] at hChecked
  cases denied with
  | some e =>
    obtain ⟨_, _, hAdd, h⟩ := bind_ok h
    obtain ⟨_, _, hAudit, h⟩ := bind_ok h
    obtain ⟨_, rfl⟩ := pure_ok h
    exact (appendAudit_circuits _ _ _ _ _).of_eq ((addDeadLetter_circuits _ _ _).of_eq hChecked hAdd) hAudit
  | none =>
    obtain ⟨_, _, hAudit, h⟩ := bind_ok h
    obtain ⟨_, rfl⟩ := pure_ok h
    exact (appendAudit_circuits _ _ _ _ _).of_eq hChecked hAudit

include hI in
theorem dequeueOp_circuits {s s' : SafetyControllerState} {now : Int} {result : Option SafetyQueueItem}
    (hs : I s.circuits) (hRun : dequeueOp now s = (.ok result, s')) : I s'.circuits := by
  cases hQueue : s.queue with
  | nil =>
    obtain ⟨_, _, hGet, h⟩ := bind_ok hRun
    obtain ⟨rfl, rfl⟩ := get_ok hGet
    rw [hQueue] at h
    obtain ⟨_, rfl⟩ := pure_ok h
    exact hs
  | cons item rest =>
    exact dequeueOp_circuits_of hQueue hRun (assertActionAllowed_circuits hI item.action now _ hs)

end Operations

/-! ## Calls while a circuit is open -/

variable {id : Identifier} {scope : SafetyScope}

def KeepsCircuit (id : Identifier) (_ : System) (event : Event) : Prop :=
  ∀ identity value circuit, event.call = .configureCircuit identity value → validateCircuit value = .ok circuit →
    circuit.id ≠ id

theorem configureCircuitOp_openIn {operator : SafetyOperator} {circuit result : SafetyCircuit} {now : Int}
    {s s' : SafetyControllerState} (hOther : circuit.id ≠ id) (hOpen : OpenIn id scope s.circuits)
    (hRun : configureCircuitOp operator circuit now s = (.ok result, s')) : OpenIn id scope s'.circuits := by
  obtain ⟨_, _, hGet, h⟩ := bind_ok hRun
  obtain ⟨rfl, rfl⟩ := get_ok hGet
  obtain ⟨_, _, hGuard, h⟩ := bind_ok h
  obtain ⟨_, rfl⟩ := throwIf_ok hGuard
  obtain ⟨_, _, hModify, h⟩ := bind_ok h
  have hCircuits := modify_ok hModify
  obtain ⟨_, _, hAudit, h⟩ := bind_ok h
  obtain ⟨_, rfl⟩ := pure_ok h
  refine (appendAudit_circuits _ _ _ _ _).of_eq ?_ hAudit
  rw [hCircuits]
  obtain ⟨found, hMem, hId, hRest⟩ := hOpen
  exact ⟨found, mem_upsert_of_mem circuit hMem (by simpa [hId, Subtype.ext_iff] using Ne.symm hOther), hId, hRest⟩

theorem written_circuits {α : Type} {I : List SafetyCircuit → Prop} {operation : Int → Op α} {answer : α → Answer}
    {clock : Option Int} {store store' : Store} {b : Answer} (h : I (store.getD emptyState).circuits)
    (hPreserves : ∀ now, (operation now).Preserves (I ·.circuits))
    (hWritten : written answer (mutate operation clock store) = .ok (b, store')) :
    I (store'.getD emptyState).circuits := by
  obtain ⟨a, after, hMutate, _, rfl⟩ := written_ok hWritten
  obtain ⟨now, _, hRun, _⟩ := format_accepts.mutate_ok hMutate
  exact (hPreserves now).of_eq h hRun

theorem timed_preserves {α : Type} {I : SafetyControllerState → Prop} {operation : Int → Op α}
    (h : ∀ now, (operation now).Preserves I) (now : Int) : (timed operation now).Preserves I :=
  (h now).bind fun a => preserves_pure (a, now)

theorem performLease_openIn {options : Options} {index : Nat} {lease : SafetyLease} {clock : Option Int}
    {store store' : Store} {call : LeaseCall} {answer : Answer} (h : OpenIn id scope (store.getD emptyState).circuits)
    (hPerform : performLease options index lease clock store call = .ok (answer, store')) :
    OpenIn id scope (store'.getD emptyState).circuits := by
  have hI := monotone_openIn id scope
  cases call with
  | assertActive =>
    rw [performLease] at hPerform
    split at hPerform
    · cases hPerform
      exact h
    · exact written_circuits h (assertActiveOp_circuits hI _ _) hPerform
  | commitStart =>
    rw [performLease] at hPerform
    split at hPerform
    · cases hPerform
    · exact written_circuits h (timed_preserves (commitStartOp_circuits hI _ _)) hPerform
  | commitEnd =>
    rw [performLease] at hPerform
    split at hPerform
    · cases hPerform
    · exact written_circuits h (commitEndOp_circuits _ _) hPerform
  | complete value =>
    rw [performLease] at hPerform
    split at hPerform
    · cases hPerform
      exact h
    · obtain ⟨outcome, _, hPerform⟩ := bind_eq_ok hPerform
      exact written_circuits h (completeOp_circuits hI lease outcome) hPerform

theorem perform_openIn {options : Options} {s : System} {event : Event} {answer : Answer} {store : Store}
    (h : OpenIn id scope s.state.circuits) (hKeeps : KeepsCircuit id s event)
    (hPerform : perform options s.leases event.clock s.store event.call = .ok (answer, store)) :
    OpenIn id scope (store.getD emptyState).circuits := by
  have hI := monotone_openIn id scope
  obtain ⟨call, clock, answered⟩ := event
  cases call with
  | configureBudget identity value =>
    obtain ⟨operator, _, hPerform⟩ := bind_eq_ok hPerform
    obtain ⟨budget, _, hPerform⟩ := bind_eq_ok hPerform
    exact written_circuits h (configureBudgetOp_circuits operator budget) hPerform
  | configureCircuit identity value =>
    obtain ⟨operator, _, hPerform⟩ := bind_eq_ok hPerform
    obtain ⟨circuit, hCircuit, hPerform⟩ := bind_eq_ok hPerform
    obtain ⟨_, after, hMutate, _, rfl⟩ := written_ok hPerform
    obtain ⟨now, _, hRun, _⟩ := format_accepts.mutate_ok hMutate
    exact configureCircuitOp_openIn (hKeeps identity value circuit rfl hCircuit) h hRun
  | stop identity scope reason =>
    rw [perform] at hPerform
    obtain ⟨_, after, hStop, _, rfl⟩ := written_ok hPerform
    obtain ⟨operator, _, hStop⟩ := bind_eq_ok hStop
    obtain ⟨scope, _, hStop⟩ := bind_eq_ok hStop
    obtain ⟨reason, _, hStop⟩ := bind_eq_ok hStop
    obtain ⟨now, _, hRun, _⟩ := format_accepts.mutate_ok hStop
    exact (stopOp_circuits operator scope reason now).of_eq h hRun
  | reenable identity scope reason =>
    obtain ⟨operator, _, hPerform⟩ := bind_eq_ok hPerform
    obtain ⟨scope, _, hPerform⟩ := bind_eq_ok hPerform
    obtain ⟨reason, _, hPerform⟩ := bind_eq_ok hPerform
    exact written_circuits h (reenableOp_circuits operator scope reason) hPerform
  | admitAction value =>
    obtain ⟨action, _, hPerform⟩ := bind_eq_ok hPerform
    exact written_circuits h (timed_preserves (admitOp_circuits hI options.leaseTtlMs action)) hPerform
  | enqueue value =>
    obtain ⟨action, _, hPerform⟩ := bind_eq_ok hPerform
    exact written_circuits h (enqueueOp_circuits hI action) hPerform
  | dequeue =>
    rw [perform] at hPerform
    obtain ⟨_, after, hMutate, _, rfl⟩ := written_ok hPerform
    obtain ⟨now, _, hRun, _⟩ := format_accepts.mutate_ok hMutate
    exact dequeueOp_circuits hI h hRun
  | gameDayPassed value reason =>
    obtain ⟨action, _, hPerform⟩ := bind_eq_ok hPerform
    obtain ⟨reason, _, hPerform⟩ := bind_eq_ok hPerform
    exact written_circuits h (fun now => appendAudit_circuits _ _ _ _ _) hPerform
  | onLease index call =>
    rw [perform] at hPerform
    split at hPerform
    · exact performLease_openIn h hPerform
    · cases hPerform

theorem take_of_ok {options : Options} {s : System} {event : Event} {answer : Answer} {store : Store}
    (hPerform : perform options s.leases event.clock s.store event.call = .ok (answer, store)) :
    (s.take options event).state = store.getD emptyState := by
  simp only [System.take, hPerform]
  split
  · cases answer <;> rfl
  · rfl

theorem take_of_error {options : Options} {s : System} {event : Event} {e : JsError}
    (hPerform : perform options s.leases event.clock s.store event.call = .error e) : s.take options event = s := by
  simp only [System.take, hPerform]

theorem openIn_step (options : Options) (s : System) (event : Event) (s' : System)
    (h : OpenIn id scope s.state.circuits) (hKeeps : KeepsCircuit id s event)
    (hStep : (machine options).step s event = some s') : OpenIn id scope s'.state.circuits := by
  cases hStep
  cases hPerform : perform options s.leases event.clock s.store event.call with
  | error e => rwa [take_of_error hPerform]
  | ok result =>
    rw [take_of_ok hPerform]
    exact perform_openIn h hKeeps hPerform

/-! ## Admits while a circuit is open -/

theorem assertActionAllowed_of_openIn {action : SafetyAction} {now : Int} {s : SafetyControllerState}
    (hOpen : OpenIn id scope s.circuits) (hScope : scopeMatches scope action = true) :
    ∃ e t, assertActionAllowed action now s = (.error e, t) := by
  rw [assertActionAllowed, get_bind]
  cases s.switches.find? fun control => control.enabled && scopeMatches control.scope action with
  | some stopped => exact ⟨_, _, rfl⟩
  | none =>
    obtain ⟨circuit, hMem, _, rfl, hIsOpen⟩ := hOpen
    obtain ⟨found, hFound⟩ : ∃ found, findOpenCircuit s action = some found := by
      refine Option.isSome_iff_exists.mp (List.find?_isSome.mpr ⟨circuit, hMem, ?_⟩)
      rw [hIsOpen, hScope]
      rfl
    have hClosed : assertClosed action s =
        (.error (fail ("Safety circuit breaker is open: " ++ found.id.val ++ ".")), s) := by
      rw [assertClosed, get_bind, hFound]
      rfl
    exact ⟨_, _, bind_of_error hClosed⟩

theorem admitOp_of_openIn {leaseTtlMs : Int} {action : SafetyAction} {now : Int} {replay : Bool}
    {s s' : SafetyControllerState} (hOpen : OpenIn id scope s.circuits) (hScope : scopeMatches scope action = true)
    (hRun : admitOp leaseTtlMs action now s = (.ok replay, s')) : replay = true := by
  obtain ⟨_, t, hPrune, h⟩ := bind_ok hRun
  have hPruned := modify_ok hPrune
  obtain ⟨_, _, hCollision, h⟩ := bind_ok h
  obtain ⟨_, _, hGet, hCollision⟩ := bind_ok hCollision
  obtain ⟨rfl, rfl⟩ := get_ok hGet
  obtain ⟨_, rfl⟩ := throwIf_ok hCollision
  obtain ⟨_, _, hGet, h⟩ := bind_ok h
  obtain ⟨rfl, rfl⟩ := get_ok hGet
  rcases ite_ok h with ⟨_, h⟩ | ⟨_, h⟩
  · exact (pure_ok h).1.symm
  · have hStill : OpenIn id scope t.circuits := by
      rw [hPruned]
      exact hOpen
    obtain ⟨e, mid, hDenied⟩ : ∃ e mid, assertActionAllowed action now t = (.error e, mid) :=
      assertActionAllowed_of_openIn hStill hScope
    rw [reserve, bind_of_error hDenied] at h
    cases h

/-- An admit that throws, or answers with a replay of an entry of the ledger. -/
def RefusedOrReplayed (options : Options) (s : System) (value : JsValue) (clock : Option Int) : Prop :=
  (∃ e, perform options s.leases clock s.store (.admitAction value) = .error e) ∨
    ∃ action now store, perform options s.leases clock s.store (.admitAction value) =
      .ok (.admitted ⟨⟨action, true⟩, now⟩, store)

theorem refused_of_openIn {options : Options} {s : System} {value : JsValue} {action : SafetyAction}
    (hOpen : OpenIn id scope s.state.circuits) (hAction : validateAction value = .ok action)
    (hScope : scopeMatches scope action = true) (clock : Option Int) : RefusedOrReplayed options s value clock := by
  cases hPerform : perform options s.leases clock s.store (.admitAction value) with
  | error e => exact .inl ⟨e, hPerform⟩
  | ok result =>
    obtain ⟨answer, store⟩ := result
    have h := hPerform
    rw [perform, hAction, ok_bind] at h
    obtain ⟨⟨replay, at_⟩, after, hMutate, rfl, rfl⟩ := written_ok h
    obtain ⟨now, _, hRun, _⟩ := format_accepts.mutate_ok hMutate
    obtain ⟨hRun, _⟩ := timed_ok hRun
    cases admitOp_of_openIn hOpen hScope hRun
    exact .inr ⟨action, at_, some after, hPerform⟩

/-! ## From the first refusal on -/

def openError (circuit : SafetyCircuit) : JsError :=
  fail ("Safety circuit breaker is open: " ++ circuit.id.val ++ ".")

/-- A call that throws because of a circuit that the store has open. -/
structure Refused (options : Options) (s : System) (event : Event) (circuit : SafetyCircuit) : Prop where
  error : perform options s.leases event.clock s.store event.call = .error (openError circuit)
  stored : circuit ∈ s.state.circuits
  isOpen : circuit.state.isOpen = true

/-- A dequeue that moves its item to the dead letters because of a circuit, open or found to exceed a threshold. -/
structure DeadLettered (options : Options) (s : System) (event : Event) (circuit : SafetyCircuit) : Prop where
  call : event.call = .dequeue
  written : ∃ result, perform options s.leases event.clock s.store event.call = .ok result
  denied : ∃ item rest now mid, s.state.queue = item :: rest ∧ format.timestamp event.clock = .ok now ∧
    assertActionAllowed item.action now { s.state with queue := rest } = (.error (openError circuit), mid) ∧
    circuit ∈ mid.circuits ∧ circuit.state.isOpen = true ∧ scopeMatches circuit.scope item.action = true

theorem openIn_of_deadLettered {options : Options} {s : System} {event : Event} {circuit : SafetyCircuit}
    (h : DeadLettered options s event circuit) :
    OpenIn circuit.id circuit.scope (s.take options event).state.circuits := by
  obtain ⟨⟨answer, store⟩, hPerform⟩ := h.written
  obtain ⟨item, rest, now, mid, hQueue, hNow, hDenied, hMem, hIsOpen, _⟩ := h.denied
  rw [take_of_ok hPerform]
  rw [h.call, perform] at hPerform
  obtain ⟨_, after, hMutate, _, rfl⟩ := written_ok hPerform
  obtain ⟨now', hNow', hRun, _⟩ := format_accepts.mutate_ok hMutate
  cases hNow.symm.trans hNow'
  refine dequeueOp_circuits_of (I := OpenIn circuit.id circuit.scope) hQueue hRun ?_
  rw [hDenied]
  exact ⟨circuit, hMem, rfl, rfl, hIsOpen⟩

/-- From any state on: after a call refused because of a stored open circuit, or an item dead-lettered because of a
circuit, every admit in the scope of the circuit throws or answers with a replay, until the
circuit is configured. -/
theorem circuit_latches (options : Options) (later : List Event) (s s' : System) (event : Event)
    (circuit : SafetyCircuit) (value : JsValue) (action : SafetyAction) (clock : Option Int)
    (hRefused : Refused options s event circuit ∨ DeadLettered options s event circuit)
    (rest : ((machine options).resume (s.take options event)).Run (KeepsCircuit circuit.id) later s')
    (hAction : validateAction value = .ok action) (hScope : scopeMatches circuit.scope action = true) :
    RefusedOrReplayed options s' value clock := by
  have hOpen : OpenIn circuit.id circuit.scope (s.take options event).state.circuits := by
    rcases hRefused with hRefused | hDead
    · rw [take_of_error hRefused.error]
      exact ⟨circuit, hRefused.stored, rfl, rfl, hRefused.isOpen⟩
    · exact openIn_of_deadLettered hDead
  have hLater : OpenIn circuit.id circuit.scope s'.state.circuits :=
    Transition.Machine.Run.invariant (M := (machine options).resume (s.take options event)) hOpen (openIn_step options) rest
  exact refused_of_openIn hLater hAction hScope clock

/-! ## A breaker -/

theorem one_within_max_ms : 1 ≤ 1 ∧ 1 ≤ MAX_MS := by decide

theorem one_le_max_latency : 1 ≤ MAX_LATENCY_MS := by decide

def breaker (state : CircuitState) : SafetyCircuit where
  id := ⟨"breaker", by decide +kernel⟩
  scope := .global
  windowMs := ⟨1, one_within_max_ms⟩
  minimumSamples := ⟨1, by decide⟩
  maxFailureRateBps := ⟨10000, by decide⟩
  maxPolicyViolations := ⟨0, MAX_LEDGER.zero_le⟩
  maxLatencyMs := ⟨0, MAX_LATENCY_MS.zero_le⟩
  maxReconciliationMismatches := ⟨0, MAX_LEDGER.zero_le⟩
  state := state

def breakerValue (state : Fields) : JsValue :=
  let number (n : Int) : JsValue := .number (.integer n)
  .object ([("id", .string "breaker"), ("scope", .object [("kind", .string "global")]), ("windowMs", number 1),
    ("minimumSamples", number 1), ("maxFailureRateBps", number 10000), ("maxPolicyViolations", number 0),
    ("maxLatencyMs", number 0), ("maxReconciliationMismatches", number 0)] ++ state)

def openedState : CircuitState := .opened "1970-01-01T00:00:00.000Z" ⟨"maintenance", by decide +kernel⟩

def openValue : JsValue := breakerValue
  [("state", .string "open"), ("openedAt", .string "1970-01-01T00:00:00.000Z"), ("reason", .string "maintenance")]

def closedValue : JsValue := breakerValue [("state", .string "closed")]

theorem breakers_accepted : validateCircuit openValue = .ok (breaker openedState) ∧
    validateCircuit closedValue = .ok (breaker .closed) ∧ openedState.Printable ∧
    authorize testOptions operatorValue .configure = .ok testOperator := by
  simp only [CircuitState.Printable, openedState]
  decide +kernel

theorem configured_accepted : acceptsText 200 "configured global" = true ∧ trim "configured global" = "configured global" := by
  decide +kernel

def guarded (base : SafetyControllerState) (state : CircuitState) : SafetyControllerState :=
  let base := { base with circuits := [breaker state] }
  withAudit base (auditRecord base ⟨"circuit.configured", by decide +kernel⟩ ⟨"breaker", by decide +kernel⟩
    ⟨"configured global", configured_accepted⟩ 0 testOperator.principalId)

structure Quiet (base : SafetyControllerState) : Prop where
  valid : Valid base
  switches : base.switches = []
  circuits : base.circuits = []
  records : base.records ≤ 11
  audit : base.audit.length ≤ 12

theorem Idle.quiet {base : SafetyControllerState} (h : Idle base) : Quiet base :=
  ⟨h.valid, h.switches, h.circuits, h.records.trans (by decide), h.audit.trans (by decide)⟩

theorem Idle.quiet_paid {base : SafetyControllerState} (h : Idle base) : Quiet (paidState base) := by
  obtain ⟨hRecords, hAudit⟩ := records_reservedState base (paymentAction firstKey) 0 acceptsKey_first
  have hBase := h.records
  have hBaseAudit := h.audit
  exact ⟨h.valid_paid, h.switches, h.circuits, by rw [paidState]; omega, by rw [paidState]; omega⟩

section Guarded

variable {base : SafetyControllerState} (h : Quiet base) {state : CircuitState} (hPrintable : state.Printable)
include h

theorem Quiet.read : read (some base) = .ok base :=
  read_of_small h.valid (h.records.trans (by decide)) (h.audit.trans (by decide))

include hPrintable

theorem Quiet.valid_guarded : Valid (guarded base state) := by
  refine Valid.withAudit ?_ printable_zero (lt_of_le_of_lt h.audit (by decide))
  refine { h.valid with circuitsLength := by simp [MAX_CONTROLS], circuitsTime := ?_, circuitsUnique := by simp }
  rintro circuit hMem
  cases List.mem_singleton.mp hMem
  exact hPrintable

theorem Quiet.read_guarded : Safety.read (some (guarded base state)) = .ok (guarded base state) := by
  have hRecords := h.records
  have hAudit := h.audit
  refine read_of_small (h.valid_guarded hPrintable) ?_ ?_
  · simp only [SafetyControllerState.records, guarded, withAudit, h.circuits, List.length_nil, List.length_singleton]
      at hRecords ⊢
    omega
  · simp only [guarded, withAudit, List.length_append, List.length_singleton]
    omega

theorem Quiet.take_configure {value : JsValue} (hValue : validateCircuit value = .ok (breaker state))
    {s : System} (hStore : Safety.read s.store = .ok base) :
    s.take testOptions ⟨.configureCircuit operatorValue value, some 0, true⟩ =
      { s with store := some (guarded base state) } := by
  have hRoom : ({ base with circuits := [breaker state] } : SafetyControllerState).audit.length < MAX_AUDIT :=
    lt_of_le_of_lt h.audit (by decide)
  have hAudit : appendAudit "circuit.configured" (breaker state).id.val ("configured " ++ scopeKey (breaker state).scope)
      0 testOperator.principalId { base with circuits := [breaker state] } = (.ok (), guarded base state) :=
    appendAudit_of_accepts _ _ hRoom
      (by decide +kernel : acceptsText 80 "circuit.configured" = true)
      (by decide +kernel : acceptsText 300 "breaker" = true)
      (by decide +kernel : acceptsText 200 "configured global" = true)
  have hRun : configureCircuitOp testOperator (breaker state) 0 base = (.ok (breaker state), guarded base state) := by
    rw [configureCircuitOp, get_bind, h.circuits, bind_of_ok (throwIf_of_not (by simp [MAX_CONTROLS]) _ _), modify_bind,
      h.circuits]
    exact (bind_of_ok hAudit).trans rfl
  have hPerform : perform testOptions s.leases (some 0) s.store (.configureCircuit operatorValue value) =
      .ok (.done, some (guarded base state)) := by
    rw [perform, breakers_accepted.2.2.2, ok_bind, hValue, ok_bind,
      mutate, format_accepts.mutate_of hStore (Nat.zero_le _) hRun (h.valid_guarded hPrintable)]
    rfl
  refine Eq.trans (take_of_perform rfl hPerform) ?_
  simp only [System.stored, System.note, System.dropped, List.append_nil]

end Guarded

theorem assertActionAllowed_open {s : SafetyControllerState} (hSwitches : s.switches = [])
    (hCircuits : s.circuits = [breaker openedState]) (action : SafetyAction) (now : Int) :
    assertActionAllowed action now s = (.error (openError (breaker openedState)), s) := by
  have hClosed : assertClosed action s = (.error (openError (breaker openedState)), s) := by
    rw [assertClosed, get_bind, findOpenCircuit, hCircuits]
    rfl
  rw [assertActionAllowed, get_bind, hSwitches]
  exact bind_of_error hClosed

theorem Quiet.refused_open {base : SafetyControllerState} (h : Quiet base) {s : System}
    (hStore : s.store = some (guarded base openedState)) :
    Refused testOptions s ⟨.enqueue (payment "k2"), some 0, true⟩ (breaker openedState) where
  error := by
    have hRun : enqueueOp (paymentAction secondKey) 0 (guarded base openedState) =
        (.error (openError (breaker openedState)), guarded base openedState) :=
      bind_of_error (assertActionAllowed_open (s := guarded base openedState) h.switches rfl _ _)
    rw [perform, hStore, validateAction_second, ok_bind, mutate,
      Storage.StoreFormat.mutate_of_error (h.read_guarded breakers_accepted.2.2.1) (Nat.zero_le _) hRun]
    rfl
  stored := by
    rw [System.state, hStore]
    exact List.mem_singleton_self _
  isOpen := rfl

theorem breaker_refuses_second :
    RefusedOrReplayed testOptions { store := some (guarded emptyState openedState) } (payment "k2") (some 5) :=
  circuit_latches testOptions [] { store := some (guarded emptyState openedState) } _
    ⟨.enqueue (payment "k2"), some 0, true⟩ (breaker openedState) (payment "k2") (paymentAction secondKey) (some 5)
    (.inl (idle_emptyState.quiet.refused_open rfl))
    (by
      rw [take_of_error (idle_emptyState.quiet.refused_open rfl).error]
      exact .start)
    validateAction_second rfl

/-! ## Admits that get past a breaker -/

/-- The first payment, completed at the epoch after one millisecond. -/
def lateOutcome : SafetyOutcome := ⟨true, false, false, ⟨1, one_le_max_latency⟩, none⟩

def outcomeValue : JsValue := .object [("success", .bool true), ("latencyMs", .number (.integer 1))]

def completedEntry : LedgerEntry := { reservation (paymentAction firstKey) 0 with status := .completed 0 lateOutcome }

def completedState (base : SafetyControllerState) : SafetyControllerState :=
  let state := { paidState base with ledger := [completedEntry] }
  withAudit state (auditRecord state ⟨"action.completed", by decide +kernel⟩
    ⟨trim (ledgerKey (paymentAction firstKey)), acceptsText_trim acceptsKey_first⟩
    ⟨"action completed", by decide +kernel⟩ 0 none)

section Completed

variable {base : SafetyControllerState} (h : Idle base)
include h

theorem Idle.quiet_completed : Quiet (completedState base) := by
  have hPaid := h.quiet_paid
  obtain ⟨_, hAudit⟩ := records_reservedState base (paymentAction firstKey) 0 acceptsKey_first
  have hRecords := hPaid.records
  have hBaseAudit := h.audit
  refine ⟨?_, h.switches, h.circuits, ?_, ?_⟩
  · refine Valid.withAudit ?_ printable_zero (lt_of_le_of_lt hPaid.audit (by decide))
    refine { hPaid.valid with
      ledgerLength := by simp [MAX_LEDGER], ledgerEntries := ?_, ledgerKeys := by simp, idempotencyKeys := by simp }
    intro entry hMem
    cases List.mem_singleton.mp hMem
    exact ⟨printable_zero, ⟨acceptsKey_first, trimKey_first⟩, printable_zero⟩
  · simp only [SafetyControllerState.records, completedState, withAudit, h.paid_ledger, List.length_singleton]
      at hRecords ⊢
    exact hRecords
  · simp only [completedState, withAudit, List.length_append, List.length_singleton, paidState, hAudit]
    omega

theorem Idle.take_complete : System.take testOptions (paidSystem base []) ⟨.onLease 0 (.complete outcomeValue), some 0, true⟩ =
    { paidSystem base [] with store := some (completedState base) } := by
  have hOutcome : validateOutcome outcomeValue = .ok lateOutcome := by decide +kernel
  have hFind : (paidState base).ledger.find? (·.key == ledgerKey (paymentAction firstKey)) =
      some (reservation (paymentAction firstKey) 0) := by
    rw [h.paid_ledger]
    exact List.find?_cons_of_pos (beq_self_eq_true _)
  have hUpsert : upsert (·.key == ledgerKey (paymentAction firstKey)) completedEntry (paidState base).ledger =
      [completedEntry] := by
    rw [h.paid_ledger]
    exact upsert_cons_pos (beq_self_eq_true _)
  have hRoom : ({ paidState base with ledger := [completedEntry] } : SafetyControllerState).audit.length < MAX_AUDIT :=
    lt_of_le_of_lt h.quiet_paid.audit (by decide)
  have hAudit : completeAudit ⟨paymentAction firstKey, false⟩ lateOutcome 0
      { paidState base with ledger := [completedEntry] } = (.ok (), completedState base) :=
    appendAudit_of_accepts _ _ hRoom (by decide +kernel : acceptsText 80 "action.completed" = true) acceptsKey_first
      (by decide +kernel : acceptsText 200 "action completed" = true)
  have hCircuits : evaluateCircuits (paymentAction firstKey) 0 (completedState base) = (.ok (), completedState base) := by
    rw [evaluateCircuits, get_bind, h.quiet_completed.circuits]
    rfl
  have hRun : completeOp ⟨paymentAction firstKey, false⟩ lateOutcome 0 (paidState base) =
      (.ok (), completedState base) := by
    rw [completeOp, get_bind]
    simp only [SafetyLease.key, hFind]
    have hReserved : (reservation (paymentAction firstKey) 0).status = .reserved := rfl
    rw [if_pos hReserved, completeEntry, modify_bind]
    simp only [SafetyLease.key]
    change (completeAudit _ _ _ >>= _) { paidState base with
      ledger := upsert (·.key == ledgerKey (paymentAction firstKey)) completedEntry (paidState base).ledger } = _
    rw [hUpsert, bind_of_ok hAudit]
    exact hCircuits
  have hLease : (paidSystem base []).leases[0]? = some ⟨⟨paymentAction firstKey, false⟩, 0⟩ := rfl
  have hPerform : perform testOptions (paidSystem base []).leases (some 0) (some (paidState base))
      (.onLease 0 (.complete outcomeValue)) = .ok (.done, some (completedState base)) := by
    rw [perform, hLease]
    change performLease testOptions 0 ⟨paymentAction firstKey, false⟩ (some 0) (some (paidState base)) (.complete outcomeValue) = _
    rw [performLease, if_neg Bool.false_ne_true, hOutcome, ok_bind,
      mutate, format_accepts.mutate_of h.quiet_paid.read (Nat.zero_le _) hRun h.quiet_completed.valid]
    rfl
  exact Eq.trans (take_of_perform rfl hPerform) rfl

end Completed

theorem assertClosed_closed {s : SafetyControllerState} (hCircuits : s.circuits = [breaker .closed])
    (action : SafetyAction) : assertClosed action s = (.ok (), s) := by
  rw [assertClosed, get_bind, findOpenCircuit, hCircuits]
  rfl

theorem assertActionAllowed_closed {s : SafetyControllerState} (hSwitches : s.switches = [])
    (hCircuits : s.circuits = [breaker .closed]) {action : SafetyAction} {now : Int}
    (hOutcomes : circuitOutcomes s (breaker .closed) now = []) : assertActionAllowed action now s = (.ok (), s) := by
  have hCircuit : evaluateCircuit now 0 (breaker .closed) s = (.ok (), s) := by
    rw [evaluateCircuit, get_bind, hOutcomes]
    rfl
  have hEvaluated : evaluateCircuits action now s = (.ok (), s) := by
    rw [evaluateCircuits, get_bind, hCircuits]
    exact (bind_of_ok hCircuit).trans rfl
  rw [assertActionAllowed, get_bind, hSwitches]
  change (assertClosed action >>= fun _ => evaluateCircuits action now >>= fun _ => assertClosed action) s = _
  rw [bind_of_ok (assertClosed_closed hCircuits action), bind_of_ok hEvaluated, assertClosed_closed hCircuits action]

theorem latency_accepted : acceptsText 200 "latency threshold exceeded" = true ∧
    trim "latency threshold exceeded" = "latency threshold exceeded" := by decide +kernel

def latencyReason : Text 200 := ⟨"latency threshold exceeded", latency_accepted⟩

theorem evaluateCircuit_trips {s : SafetyControllerState} (hCircuits : s.circuits = [breaker .closed])
    (hAudit : s.audit.length < MAX_AUDIT) {now : Int}
    (hOutcomes : circuitOutcomes s (breaker .closed) now = [lateOutcome]) :
    ∃ t, evaluateCircuit now 0 (breaker .closed) s = (.ok (), t) ∧
      t.circuits = [breaker (.opened (Date.toISOString now) latencyReason)] := by
  have hReason : tripReason (breaker .closed) [lateOutcome] = some latencyReason := by decide +kernel
  have hRun := appendAudit_of_accepts now none (show ({ s with
      circuits := [breaker (.opened (Date.toISOString now) latencyReason)] } : SafetyControllerState).audit.length <
        MAX_AUDIT from hAudit)
    (by decide +kernel : acceptsText 80 "circuit.opened" = true) (by decide +kernel : acceptsText 300 "breaker" = true)
    (by decide +kernel : acceptsText 200 "latency threshold exceeded" = true)
  refine ⟨_, Eq.trans ?_ hRun, rfl⟩
  rw [evaluateCircuit, get_bind, hOutcomes, hReason]
  change (modify _ >>= fun _ => appendAudit "circuit.opened" "breaker" "latency threshold exceeded" now none) s = _
  rw [modify_bind, hCircuits]
  rfl

theorem assertActionAllowed_tripped {s : SafetyControllerState} (hSwitches : s.switches = [])
    (hCircuits : s.circuits = [breaker .closed]) (hAudit : s.audit.length < MAX_AUDIT) (action : SafetyAction)
    {now : Int} (hOutcomes : circuitOutcomes s (breaker .closed) now = [lateOutcome]) :
    ∃ t, assertActionAllowed action now s = (.error (openError (breaker .closed)), t) := by
  obtain ⟨t, hTripped, hOpened⟩ := evaluateCircuit_trips hCircuits hAudit hOutcomes
  have hEvaluated : evaluateCircuits action now s = (.ok (), t) := by
    rw [evaluateCircuits, get_bind, hCircuits]
    exact (bind_of_ok hTripped).trans rfl
  have hClosed : assertClosed action t = (.error (openError (breaker .closed)), t) := by
    rw [assertClosed, get_bind, findOpenCircuit, hOpened]
    rfl
  refine ⟨t, ?_⟩
  rw [assertActionAllowed, get_bind, hSwitches]
  change (assertClosed action >>= fun _ => evaluateCircuits action now >>= fun _ => assertClosed action) s = _
  rw [bind_of_ok (assertClosed_closed hCircuits action), bind_of_ok hEvaluated, hClosed]

theorem late_payment : ∀ now ∈ [1, 2], pruned 60000 now [completedEntry] = [completedEntry] ∧
    now.natAbs ≤ 8640000000000000 ∧ Printable now := by
  simp only [Printable]
  decide +kernel

theorem second_fresh : ∀ entry ∈ [completedEntry, reservation (paymentAction firstKey) 0],
    entry.action.idempotencyKey ≠ (paymentAction secondKey).idempotencyKey ∧
      entry.key ≠ ledgerKey (paymentAction secondKey) := by decide +kernel

/-- The store after the first payment was completed and the breaker configured. -/
def lateState : SafetyControllerState := guarded (completedState emptyState) .closed

theorem late_outcomes : lateState.ledger = [completedEntry] ∧
    circuitOutcomes lateState (breaker .closed) 1 = [lateOutcome] ∧
    circuitOutcomes lateState (breaker .closed) 2 = [] := by decide +kernel

theorem lateState_small : Valid lateState ∧ read (some lateState) = .ok lateState ∧
    lateState.audit.length < MAX_AUDIT :=
  ⟨idle_emptyState.quiet_completed.valid_guarded trivial, idle_emptyState.quiet_completed.read_guarded trivial, by decide⟩

theorem admitOp_late {now : Int} (hNow : now ∈ ([1, 2] : List Int)) :
    admitOp 60000 (paymentAction secondKey) now lateState = reserve (paymentAction secondKey) now lateState := by
  have hPruned := (late_payment now hNow).1
  have hSame : prunedState lateState 60000 now = lateState := by
    rw [prunedState, late_outcomes.1, hPruned, ← late_outcomes.1]
  have hFresh : ∀ entry ∈ pruned 60000 now lateState.ledger,
      entry.action.idempotencyKey ≠ (paymentAction secondKey).idempotencyKey ∧
        entry.key ≠ ledgerKey (paymentAction secondKey) := by
    rw [late_outcomes.1, hPruned]
    exact fun entry hMem => second_fresh entry (by simpa using Or.inl (List.mem_singleton.mp hMem))
  rw [admitOp_of_fresh lateState hFresh, hSame]

theorem late_refused (leases : List Admission) : perform testOptions leases (some 1) (some lateState)
    (.admitAction (payment "k2")) = .error (openError (breaker .closed)) := by
  obtain ⟨t, hDenied⟩ := assertActionAllowed_tripped rfl rfl lateState_small.2.2 (paymentAction secondKey) late_outcomes.2.1
  have hRun : timed (admitOp testOptions.leaseTtlMs (paymentAction secondKey)) 1 lateState =
      (.error (openError (breaker .closed)), t) := by
    have hReserve : reserve (paymentAction secondKey) 1 lateState = (.error (openError (breaker .closed)), t) :=
      bind_of_error hDenied
    exact bind_of_error ((admitOp_late (by decide)).trans hReserve)
  rw [perform, validateAction_second, ok_bind, mutate,
    Storage.StoreFormat.mutate_of_error lateState_small.2.1 (late_payment 1 (by decide)).2.1 hRun]
  rfl

theorem late_admitted (leases : List Admission) : ∃ store, perform testOptions leases (some 2) (some lateState)
    (.admitAction (payment "k2")) = .ok (.admitted ⟨⟨paymentAction secondKey, false⟩, 2⟩, store) := by
  obtain ⟨_, hTime, hPrintable⟩ := late_payment 2 (by decide)
  have hAllowed : assertActionAllowed (paymentAction secondKey) 2 lateState = (.ok (), lateState) :=
    assertActionAllowed_closed rfl rfl late_outcomes.2.2
  have hRun : admitOp testOptions.leaseTtlMs (paymentAction secondKey) 2 lateState =
      (.ok false, reservedState lateState (paymentAction secondKey) 2 acceptsKey_second) :=
    (admitOp_late (by decide)).trans (reserve_of_allowed lateState hAllowed (by decide) lateState_small.2.2
      rfl acceptsKey_second)
  have hFresh : ∀ entry ∈ lateState.ledger, entry.action.idempotencyKey ≠ (paymentAction secondKey).idempotencyKey ∧
      entry.key ≠ ledgerKey (paymentAction secondKey) := by
    rw [late_outcomes.1]
    exact fun entry hMem => second_fresh entry (by simpa using Or.inl (List.mem_singleton.mp hMem))
  exact ⟨_, perform_admission validateAction_second lateState_small.2.1 hTime hRun
    (lateState_small.1.reservedState hPrintable hFresh (by decide) lateState_small.2.2 acceptsKey_second trimKey_second)⟩

theorem open_replays (leases : List Admission) : ∃ store, perform testOptions leases (some 0)
    (some (guarded (paidState emptyState) openedState)) (.admitAction (payment "k1")) =
      .ok (.admitted ⟨⟨paymentAction firstKey, true⟩, 0⟩, store) := by
  have hQuiet := idle_emptyState.quiet_paid
  have hLedger : (guarded (paidState emptyState) openedState).ledger = [reservation (paymentAction firstKey) 0] :=
    idle_emptyState.paid_ledger
  have hPruned : pruned 60000 0 [reservation (paymentAction firstKey) 0] = [reservation (paymentAction firstKey) 0] := by
    decide +kernel
  have hSame : prunedState (guarded (paidState emptyState) openedState) 60000 0 =
      guarded (paidState emptyState) openedState := by
    rw [prunedState, hLedger, hPruned, ← hLedger]
  have hRun : admitOp testOptions.leaseTtlMs (paymentAction firstKey) 0 (guarded (paidState emptyState) openedState) =
      (.ok true, guarded (paidState emptyState) openedState) := by
    have hCollision : assertNoCollision (paymentAction firstKey) (guarded (paidState emptyState) openedState) =
        (.ok (), guarded (paidState emptyState) openedState) := by
      rw [assertNoCollision, get_bind, hLedger]
      exact throwIf_of_not (by decide +kernel) _ _
    rw [admitOp, pruneExpiredLeases, modify_bind]
    change (assertNoCollision (paymentAction firstKey) >>= _)
      (prunedState (guarded (paidState emptyState) openedState) 60000 0) = _
    rw [hSame, bind_of_ok hCollision, get_bind, hLedger, if_pos (by decide +kernel)]
    rfl
  exact ⟨_, perform_admission validateAction_first (hQuiet.read_guarded breakers_accepted.2.2.1) (Nat.zero_le _) hRun
    (hQuiet.valid_guarded breakers_accepted.2.2.1)⟩

/-- An open breaker refuses an enqueue and then answers an admit with a replay. A closed breaker
that an admit finds to exceed its threshold refuses it and is closed again for the next one. -/
theorem breaker_does_not_latch :
    (∃ s, (machine testOptions).FreeRun [⟨.admitAction (payment "k1"), some 0, true⟩,
        ⟨.configureCircuit operatorValue openValue, some 0, true⟩] s ∧
      Refused testOptions s ⟨.enqueue (payment "k2"), some 0, true⟩ (breaker openedState) ∧
      ∃ store, perform testOptions s.leases (some 0) s.store (.admitAction (payment "k1")) =
        .ok (.admitted ⟨⟨paymentAction firstKey, true⟩, 0⟩, store)) ∧
    ∃ s, (machine testOptions).FreeRun [⟨.admitAction (payment "k1"), some 0, true⟩,
        ⟨.onLease 0 (.complete outcomeValue), some 0, true⟩,
        ⟨.configureCircuit operatorValue closedValue, some 0, true⟩] s ∧
      perform testOptions s.leases (some 1) s.store (.admitAction (payment "k2")) = .error (openError (breaker .closed)) ∧
      ∃ store, perform testOptions s.leases (some 2) s.store (.admitAction (payment "k2")) =
        .ok (.admitted ⟨⟨paymentAction secondKey, false⟩, 2⟩, store) := by
  have hAdmit : (machine testOptions).FreeRun [⟨.admitAction (payment "k1"), some 0, true⟩] (paidSystem emptyState []) :=
    .next .start trivial (congrArg some (idle_emptyState.take_admission rfl rfl))
  constructor
  · have hConfigure : (machine testOptions).FreeRun [⟨.admitAction (payment "k1"), some 0, true⟩,
        ⟨.configureCircuit operatorValue openValue, some 0, true⟩]
        { paidSystem emptyState [] with store := some (guarded (paidState emptyState) openedState) } :=
      hAdmit.next trivial (congrArg some (idle_emptyState.quiet_paid.take_configure breakers_accepted.2.2.1
        breakers_accepted.1 idle_emptyState.read_paid))
    exact ⟨_, hConfigure, idle_emptyState.quiet_paid.refused_open rfl, open_replays _⟩
  · have hComplete : (machine testOptions).FreeRun [⟨.admitAction (payment "k1"), some 0, true⟩,
        ⟨.onLease 0 (.complete outcomeValue), some 0, true⟩]
        { paidSystem emptyState [] with store := some (completedState emptyState) } :=
      hAdmit.next trivial (congrArg some idle_emptyState.take_complete)
    have hConfigure : (machine testOptions).FreeRun [⟨.admitAction (payment "k1"), some 0, true⟩,
        ⟨.onLease 0 (.complete outcomeValue), some 0, true⟩,
        ⟨.configureCircuit operatorValue closedValue, some 0, true⟩]
        { paidSystem emptyState [] with store := some lateState } :=
      hComplete.next trivial (congrArg some (idle_emptyState.quiet_completed.take_configure (show CircuitState.closed.Printable from trivial)
        breakers_accepted.2.1 idle_emptyState.quiet_completed.read))
    exact ⟨_, hConfigure, late_refused _, late_admitted _⟩

end GhostApi.Safety
