import GhostApi.Lib.Machine
import GhostApi.Safety.Accounts

/-!
# Runs of the safety controller

Any number of clients call the controller in any order and with any clock
readings; every call is one locked step on the store. A commit is two steps,
the check before its callback starts and the check after it returned. A
client may stop after its write and before it sees the answer. A game day is
a stop, an admit, a re-enable and its closing record.
-/

namespace GhostApi.Safety

open Js Validation Effect Effect.Mutation Table

inductive LeaseCall
  | assertActive
  | commitStart
  | commitEnd
  | complete (outcome : JsValue)

inductive Call
  | configureBudget (identity budget : JsValue)
  | configureCircuit (identity circuit : JsValue)
  | stop (identity scope reason : JsValue)
  | reenable (identity scope reason : JsValue)
  | admitAction (action : JsValue)
  | enqueue (action : JsValue)
  | dequeue
  | gameDayPassed (action reason : JsValue)
  | onLease (index : Nat) (call : LeaseCall)

structure Admission where
  lease : SafetyLease
  admittedAt : Int
  deriving DecidableEq

structure Start where
  lease : Nat
  action : SafetyAction
  startedAt : Int
  deriving DecidableEq

/-- A reservation that an admit dropped, with the time of that admit. -/
structure Reclaim where
  entry : LedgerEntry
  reclaimedAt : Int
  deriving DecidableEq

inductive Answer
  | done
  | admitted (admission : Admission)
  | started (start : Start)

def stop (options : Options) (identity scope reason : JsValue) (clock : Option Int) (store : Store) :
    Except JsError (Unit × SafetyControllerState) := do
  let operator ← authorize options identity .stop
  let scope ← validateScope scope
  let reason ← text fail reason "Kill-switch reason" 200
  mutate (stopOp operator scope reason) clock store

def written {α : Type} (answer : α → Answer) (result : Except JsError (α × SafetyControllerState)) :
    Except JsError (Answer × Store) := do
  let (a, state) ← result
  return (answer a, some state)

def timed {α : Type} (operation : Int → Op α) (now : Int) : Op (α × Int) := do
  let a ← operation now
  return (a, now)

def performLease (options : Options) (index : Nat) (lease : SafetyLease) (clock : Option Int) (store : Store) :
    LeaseCall → Except JsError (Answer × Store)
  | .assertActive =>
    if lease.replay then .ok (.done, store)
    else written (fun _ => .done) (mutate (assertActiveOp options.leaseTtlMs lease) clock store)
  | .commitStart =>
    if lease.replay then .error (fail "Safety replay lease cannot commit a side effect.")
    else written (fun (_, now) => .started ⟨index, lease.action, now⟩)
      (mutate (timed (commitStartOp options.leaseTtlMs lease)) clock store)
  | .commitEnd =>
    if lease.replay then .error (fail "Safety replay lease cannot commit a side effect.")
    else written (fun _ => .done) (mutate (commitEndOp options.leaseTtlMs lease) clock store)
  | .complete outcome =>
    if lease.replay then .ok (.done, store)
    else do
      let outcome ← validateOutcome outcome
      written (fun _ => .done) (mutate (completeOp lease outcome) clock store)

def perform (options : Options) (leases : List Admission) (clock : Option Int) (store : Store) :
    Call → Except JsError (Answer × Store)
  | .configureBudget identity budget => do
    let operator ← authorize options identity .configure
    let budget ← validateBudget budget
    written (fun _ => .done) (mutate (configureBudgetOp operator budget) clock store)
  | .configureCircuit identity circuit => do
    let operator ← authorize options identity .configure
    let circuit ← validateCircuit circuit
    written (fun _ => .done) (mutate (configureCircuitOp operator circuit) clock store)
  | .stop identity scope reason => written (fun _ => .done) (stop options identity scope reason clock store)
  | .reenable identity scope reason => do
    let operator ← authorize options identity .reenable
    let scope ← validateScope scope
    let reason ← text fail reason "Kill-switch re-enable reason" 200
    written (fun _ => .done) (mutate (reenableOp operator scope reason) clock store)
  | .admitAction action => do
    let action ← validateAction action
    written (fun (replay, now) => .admitted ⟨⟨action, replay⟩, now⟩)
      (mutate (timed (admitOp options.leaseTtlMs action)) clock store)
  | .enqueue action => do
    let action ← validateAction action
    written (fun _ => .done) (mutate (enqueueOp action) clock store)
  | .dequeue => written (fun _ => .done) (mutate dequeueOp clock store)
  | .gameDayPassed action reason => do
    let action ← validateAction action
    let reason ← text fail reason "Game-day reason" 200
    written (fun _ => .done) (mutate (gameDayPassedOp action reason) clock store)
  | .onLease index call => match leases[index]? with
    | some admission => performLease options index admission.lease clock store call
    | none => .error (fail "Safety lease was not found.")

structure Event where
  call : Call
  clock : Option Int
  /-- The client still runs when the answer arrives. -/
  answered : Bool := true

structure System where
  store : Store := none
  leases : List Admission := []
  started : List Start := []
  reclaimed : List Reclaim := []

def System.state (s : System) : SafetyControllerState := s.store.getD emptyState

def System.note (s : System) : Answer → System
  | .done => s
  | .admitted admission => { s with leases := s.leases ++ [admission] }
  | .started start => { s with started := s.started ++ [start] }

/-- The expired reservations that a successful admit drops. -/
def System.dropped (s : System) (leaseTtlMs : Int) : Answer → List Reclaim
  | .admitted admission =>
    (s.state.ledger.filter (leaseExpired leaseTtlMs · admission.admittedAt)).map (⟨·, admission.admittedAt⟩)
  | _ => []

/-- The system after a write, before its answer is noted. -/
def System.stored (s : System) (leaseTtlMs : Int) (answer : Answer) (store : Store) : System :=
  { s with store, reclaimed := s.reclaimed ++ s.dropped leaseTtlMs answer }

/-- A call that throws leaves everything as it was. -/
def System.take (options : Options) (s : System) (event : Event) : System :=
  match perform options s.leases event.clock s.store event.call with
  | .error _ => s
  | .ok (answer, store) =>
    let s' := s.stored options.leaseTtlMs answer store
    if event.answered then s'.note answer else s'

def machine (options : Options) : Transition.Machine System Event where
  initial := {}
  step s event := some (s.take options event)

/-! ## One step -/

theorem written_ok {α : Type} {answer : α → Answer} {result : Except JsError (α × SafetyControllerState)}
    {b : Answer} {store : Store} (h : written answer result = .ok (b, store)) :
    ∃ a state, result = .ok (a, state) ∧ b = answer a ∧ store = some state := by
  obtain ⟨⟨a, state⟩, hResult, h⟩ := bind_eq_ok h
  cases h
  exact ⟨a, state, hResult, rfl, rfl⟩

theorem timed_ok {α : Type} {operation : Int → Op α} {now : Int} {s s' : SafetyControllerState} {r : α × Int}
    (h : timed operation now s = (.ok r, s')) : operation now s = (.ok r.1, s') ∧ r.2 = now := by
  obtain ⟨a, _, hRun, h⟩ := bind_ok h
  obtain ⟨rfl, rfl⟩ := pure_ok h
  exact ⟨hRun, rfl⟩

/-- What one successful call does to the accounts, by its answer. -/
inductive Changed (options : Options) (leases : List Admission) (before after : SafetyControllerState) :
    Call → Answer → Prop
  | kept {call : Call} (same : accounts after = accounts before) : Changed options leases before after call .done
  | budget {identity value : JsValue} {budget : SafetyBudget} (validated : validateBudget value = .ok budget)
      (accounts_eq : accounts after = (before.ledger, upsert (·.id == budget.id) budget before.budgets)) :
      Changed options leases before after (.configureBudget identity value) .done
  | replayed {value : JsValue} {action : SafetyAction} {now : Int}
      (accounts_eq : accounts after = (pruned options.leaseTtlMs now before.ledger, before.budgets)) :
      Changed options leases before after (.admitAction value) (.admitted ⟨⟨action, true⟩, now⟩)
  | reserved {value : JsValue} {action : SafetyAction} {now : Int}
      (accounts_eq : accounts after =
        (pruned options.leaseTtlMs now before.ledger ++ [reservation action now], before.budgets))
      (within : ∀ budget ∈ before.budgets,
        assertBudget (pruned options.leaseTtlMs now before.ledger) action now budget = .ok ()) :
      Changed options leases before after (.admitAction value) (.admitted ⟨⟨action, false⟩, now⟩)
  | started {index : Nat} {admission : Admission} {now : Int} (found : leases[index]? = some admission)
      (original : admission.lease.replay = false) (same : accounts after = accounts before) :
      Changed options leases before after (.onLease index .commitStart)
        (.started ⟨index, admission.lease.action, now⟩)
  | completed {index : Nat} {value : JsValue} {key : String} {entry : LedgerEntry} {now : Int}
      {outcome : SafetyOutcome} (found : before.ledger.find? (·.key == key) = some entry)
      (open_ : entry.status = .reserved)
      (accounts_eq : accounts after =
        (upsert (·.key == key) { entry with status := .completed now outcome } before.ledger, before.budgets)) :
      Changed options leases before after (.onLease index (.complete value)) .done

theorem written_kept {α : Type} {operation : Int → Op α} {clock : Option Int} {store store' : Store}
    {b : Answer} (hKeeps : ∀ now, (operation now).Keeps accounts)
    (h : written (fun _ => .done) (mutate operation clock store) = .ok (b, store')) :
    ∃ after, store' = some after ∧ Valid after ∧ b = .done ∧ accounts after = accounts (store.getD emptyState) := by
  obtain ⟨a, after, hMutate, rfl, rfl⟩ := written_ok h
  obtain ⟨now, _, hRun, hValid⟩ := format_accepts.mutate_ok hMutate
  exact ⟨after, rfl, hValid, rfl, (hKeeps now).of_eq hRun⟩

/-- A call that succeeds either writes nothing or stores a valid state. -/
def Performed (options : Options) (leases : List Admission) (store : Store) (call : Call) (answer : Answer)
    (store' : Store) : Prop :=
  store' = store ∧ answer = .done ∨
    ∃ after, store' = some after ∧ Valid after ∧
      Changed options leases (store.getD emptyState) after call answer

theorem performed_of_kept {α : Type} {options : Options} {leases : List Admission} {operation : Int → Op α}
    {clock : Option Int} {store store' : Store} {call : Call} {b : Answer}
    (hKeeps : ∀ now, (operation now).Keeps accounts)
    (h : written (fun _ => .done) (mutate operation clock store) = .ok (b, store')) :
    Performed options leases store call b store' := by
  obtain ⟨after, hStore, hValid, rfl, hSame⟩ := written_kept hKeeps h
  exact .inr ⟨after, hStore, hValid, .kept hSame⟩

theorem performLease_ok {options : Options} {leases : List Admission} {index : Nat} {admission : Admission}
    {clock : Option Int} {store store' : Store} {call : LeaseCall} {answer : Answer}
    (hFound : leases[index]? = some admission)
    (h : performLease options index admission.lease clock store call = .ok (answer, store')) :
    Performed options leases store (.onLease index call) answer store' := by
  cases call with
  | assertActive =>
    rw [performLease] at h
    split at h
    · cases h
      exact .inl ⟨rfl, rfl⟩
    · exact performed_of_kept (fun _ => assertActiveOp_keeps accounts_unobserved _ _ _) h
  | commitStart =>
    rw [performLease] at h
    split at h
    · cases h
    · rename_i hReplay
      obtain ⟨r, after, hMutate, rfl, rfl⟩ := written_ok h
      obtain ⟨now, _, hRun, hValid⟩ := format_accepts.mutate_ok hMutate
      obtain ⟨hRun, _⟩ := timed_ok hRun
      refine .inr ⟨after, rfl, hValid, .started hFound (by simpa using hReplay) ?_⟩
      exact (commitStartOp_keeps accounts_unobserved _ _ _).of_eq hRun
  | commitEnd =>
    rw [performLease] at h
    split at h
    · cases h
    · exact performed_of_kept (fun _ => commitEndOp_keeps accounts_unobserved _ _ _) h
  | complete value =>
    rw [performLease] at h
    split at h
    · cases h
      exact .inl ⟨rfl, rfl⟩
    · obtain ⟨outcome, _, h⟩ := bind_eq_ok h
      obtain ⟨_, after, hMutate, rfl, rfl⟩ := written_ok h
      obtain ⟨now, _, hRun, hValid⟩ := format_accepts.mutate_ok hMutate
      rcases completeOp_ok hRun with hSame | ⟨entry, hEntry, hOpen, hAccounts⟩
      · exact .inr ⟨after, rfl, hValid, .kept hSame⟩
      · exact .inr ⟨after, rfl, hValid, .completed hEntry hOpen hAccounts⟩

theorem perform_ok {options : Options} {leases : List Admission} {clock : Option Int} {store store' : Store}
    {call : Call} {answer : Answer} (h : perform options leases clock store call = .ok (answer, store')) :
    Performed options leases store call answer store' := by
  cases call with
  | configureBudget identity value =>
    obtain ⟨operator, _, h⟩ := bind_eq_ok h
    obtain ⟨budget, hBudget, h⟩ := bind_eq_ok h
    obtain ⟨_, after, hMutate, rfl, rfl⟩ := written_ok h
    obtain ⟨now, _, hRun, hValid⟩ := format_accepts.mutate_ok hMutate
    exact .inr ⟨after, rfl, hValid, .budget hBudget (configureBudgetOp_ok hRun)⟩
  | configureCircuit identity value =>
    obtain ⟨operator, _, h⟩ := bind_eq_ok h
    obtain ⟨circuit, _, h⟩ := bind_eq_ok h
    exact performed_of_kept (configureCircuitOp_keeps accounts_unobserved operator circuit) h
  | stop identity scope reason =>
    rw [perform] at h
    obtain ⟨_, after, hStop, rfl, rfl⟩ := written_ok h
    obtain ⟨operator, _, hStop⟩ := bind_eq_ok hStop
    obtain ⟨scope, _, hStop⟩ := bind_eq_ok hStop
    obtain ⟨reason, _, hStop⟩ := bind_eq_ok hStop
    obtain ⟨now, _, hRun, hValid⟩ := format_accepts.mutate_ok hStop
    exact .inr ⟨after, rfl, hValid, .kept ((stopOp_keeps operator scope reason now).of_eq hRun)⟩
  | reenable identity scope reason =>
    obtain ⟨operator, _, h⟩ := bind_eq_ok h
    obtain ⟨scope, _, h⟩ := bind_eq_ok h
    obtain ⟨reason, _, h⟩ := bind_eq_ok h
    exact performed_of_kept (reenableOp_keeps operator scope reason) h
  | admitAction value =>
    obtain ⟨action, _, h⟩ := bind_eq_ok h
    obtain ⟨⟨replay, at_⟩, after, hMutate, rfl, rfl⟩ := written_ok h
    obtain ⟨now, _, hRun, hValid⟩ := format_accepts.mutate_ok hMutate
    obtain ⟨hRun, hNow⟩ := timed_ok hRun
    cases hNow
    rcases admitOp_ok hRun with ⟨hReplay, hAccounts⟩ | ⟨hReplay, hAccounts, hWithin⟩
    · cases hReplay
      exact .inr ⟨after, rfl, hValid, .replayed hAccounts⟩
    · cases hReplay
      exact .inr ⟨after, rfl, hValid, .reserved hAccounts hWithin⟩
  | enqueue value =>
    obtain ⟨action, _, h⟩ := bind_eq_ok h
    exact performed_of_kept (enqueueOp_keeps action) h
  | dequeue => exact performed_of_kept dequeueOp_keeps h
  | gameDayPassed value reason =>
    obtain ⟨action, _, h⟩ := bind_eq_ok h
    obtain ⟨reason, _, h⟩ := bind_eq_ok h
    exact performed_of_kept (gameDayPassedOp_keeps accounts_unobserved action reason) h
  | onLease index call =>
    rw [perform] at h
    split at h
    · exact performLease_ok ‹_› h
    · cases h

theorem take_cases (options : Options) (s : System) (event : Event) :
    s.take options event = s ∨ ∃ answer store, Performed options s.leases s.store event.call answer store ∧
      s.take options event = (if event.answered then (s.stored options.leaseTtlMs answer store).note answer
        else s.stored options.leaseTtlMs answer store) := by
  rw [System.take]
  split
  · exact .inl rfl
  · exact .inr ⟨_, _, perform_ok ‹_›, rfl⟩

end GhostApi.Safety
