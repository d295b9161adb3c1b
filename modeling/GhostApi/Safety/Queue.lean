import GhostApi.Lib.Flow
import GhostApi.Safety.System

/-!
# The queue over whole runs

Every item that an enqueue creates is in the queue, was returned by a dequeue
or was moved to the dead letters. The log of a run is read off the answers of
its calls; the state keeps up with it.
-/

namespace GhostApi.Safety

open Js Validation Effect Effect.Mutation Table Flow

def lanes (state : SafetyControllerState) : List SafetyQueueItem × List SafetyDeadLetter :=
  (state.queue, state.deadLetters)

theorem lanes_unobserved : Unobserved lanes := ⟨fun _ _ => rfl, fun _ _ => rfl⟩

def buried (deadLetters : List SafetyDeadLetter) : List SafetyQueueItem :=
  deadLetters.map fun item => item.toSafetyQueueItem

/-! ## What each operation does to the lanes -/

theorem configureBudgetOp_lanes (operator : SafetyOperator) (budget : SafetyBudget) (now : Int) :
    (configureBudgetOp operator budget now).Keeps lanes :=
  keeps_get.bind fun _ => (keeps_throwIf _ _).bind fun _ => Keeps.bind (keeps_modify fun _ => rfl) fun _ =>
    (appendAudit_keeps lanes_unobserved _ _ _ _ _).bind fun _ => keeps_pure budget

theorem setSwitch_lanes (scope : SafetyScope) (enabled : Bool) (reason : Text 200) (principalId : Identifier)
    (now : Int) : (setSwitch scope enabled reason principalId now).Keeps lanes :=
  keeps_get.bind fun _ => (keeps_throwIf _ _).bind fun _ => keeps_modify fun _ => rfl

theorem reenableOp_lanes (operator : SafetyOperator) (scope : SafetyScope) (reason : Text 200) (now : Int) :
    (reenableOp operator scope reason now).Keeps lanes :=
  keeps_get.bind fun _ => (keeps_throwIf _ _).bind fun _ => Keeps.bind (keeps_modify fun _ => rfl) fun _ =>
    appendAudit_keeps lanes_unobserved _ _ _ _ _

theorem reserve_lanes (action : SafetyAction) (now : Int) : (reserve action now).Keeps lanes :=
  (assertActionAllowed_keeps lanes_unobserved action now).bind fun _ => keeps_get.bind fun _ =>
    (keeps_throwIf _ _).bind fun _ => (keeps_lift _).bind fun _ => Keeps.bind (keeps_modify fun _ => rfl) fun _ =>
      (appendAudit_keeps lanes_unobserved _ _ _ _ _).bind fun _ => keeps_pure false

theorem admitOp_lanes (leaseTtlMs : Int) (action : SafetyAction) (now : Int) :
    (admitOp leaseTtlMs action now).Keeps lanes := by
  refine Keeps.bind (keeps_modify fun _ => rfl) fun _ => Keeps.bind ?_ fun _ => keeps_get.bind fun state => ?_
  · exact keeps_get.bind fun state => keeps_throwIf _ _
  · exact (keeps_pure true).ite (reserve_lanes action now)

theorem completeOp_lanes (lease : SafetyLease) (outcome : SafetyOutcome) (now : Int) :
    (completeOp lease outcome now).Keeps lanes := by
  refine keeps_get.bind fun state => ?_
  cases state.ledger.find? (·.key == lease.key) with
  | none => exact appendAudit_keeps lanes_unobserved _ _ _ _ _
  | some entry =>
    refine Keeps.ite (Keeps.bind (keeps_modify fun _ => rfl) fun _ => ?_) (keeps_pure ())
    exact (appendAudit_keeps lanes_unobserved _ _ _ _ _).bind fun _ => evaluateCircuits_keeps lanes_unobserved _ _

variable {s s' : SafetyControllerState} {now : Int}

theorem enqueueOp_ok {action : SafetyAction} {item : SafetyQueueItem}
    (h : enqueueOp action now s = (.ok item, s')) :
    ledgerKey item.action = ledgerKey action ∧ (s.queue.any (ledgerKey ·.action == ledgerKey action) = true ∧
        lanes s' = lanes s ∨
      s.queue.any (ledgerKey ·.action == ledgerKey action) = false ∧ lanes s' = (s.queue ++ [item], s.deadLetters)) := by
  obtain ⟨_, t, hAllowed, h⟩ := bind_ok h
  have hLanes : lanes t = lanes s := (assertActionAllowed_keeps lanes_unobserved _ _).of_eq hAllowed
  obtain ⟨hQueue, hDead⟩ := Prod.mk.inj hLanes
  obtain ⟨_, _, hGet, h⟩ := bind_ok h
  obtain ⟨rfl, rfl⟩ := get_ok hGet
  rw [hQueue] at h
  cases hFind : s.queue.find? (ledgerKey ·.action == ledgerKey action) with
  | some existing =>
    rw [hFind] at h
    obtain ⟨rfl, rfl⟩ := pure_ok h
    exact ⟨by simpa using List.find?_some hFind, .inl ⟨any_of_find? hFind, hLanes⟩⟩
  | none =>
    rw [hFind] at h
    obtain ⟨_, _, hGet, h⟩ := bind_ok h
    obtain ⟨rfl, rfl⟩ := get_ok hGet
    obtain ⟨_, _, hFull, h⟩ := bind_ok h
    obtain ⟨_, rfl⟩ := throwIf_ok hFull
    obtain ⟨_, _, hPush, h⟩ := bind_ok h
    have hPushed := modify_ok hPush
    obtain ⟨_, _, hAudit, h⟩ := bind_ok h
    obtain ⟨rfl, rfl⟩ := pure_ok h
    refine ⟨rfl, .inr ⟨by simpa using hFind, ?_⟩⟩
    rw [(appendAudit_keeps lanes_unobserved _ _ _ _ _).of_eq hAudit, hPushed, ← hQueue, ← hDead]
    rfl

theorem addDeadLetter_ok {item : SafetyQueueItem} {reason : String} {u : Unit}
    (h : addDeadLetter item reason now s = (.ok u, s')) :
    s'.queue = s.queue ∧ ∃ reason, s'.deadLetters = evictOldest s.deadLetters ++ [⟨item, reason, now⟩] := by
  obtain ⟨_, _, hEvict, h⟩ := bind_ok h
  have hEvicted := modify_ok hEvict
  obtain ⟨reason, _, hText, h⟩ := bind_ok h
  obtain ⟨_, rfl⟩ := lift_ok hText
  rw [modify_ok h, hEvicted]
  exact ⟨rfl, reason, rfl⟩

theorem kept_evictOldest {moved : List SafetyQueueItem} {deadLetters : List SafetyDeadLetter}
    (h : Kept moved (buried deadLetters)) : Kept moved (buried (evictOldest deadLetters)) := by
  rw [evictOldest]
  split
  · rw [buried, List.map_tail]
    exact h.tail
  · exact h

theorem addDeadLetter_kept {item : SafetyQueueItem} {reason : String} {u : Unit} {moved : List SafetyQueueItem}
    (h : addDeadLetter item reason now s = (.ok u, s')) (hKept : Kept moved (buried s.deadLetters)) :
    s'.queue = s.queue ∧ Kept (moved ++ [item]) (buried s'.deadLetters) := by
  obtain ⟨hQueue, reason, hDead⟩ := addDeadLetter_ok h
  refine ⟨hQueue, ?_⟩
  rw [hDead, buried, List.map_append]
  exact (kept_evictOldest hKept).append [item]

theorem deadLetters_kept {reason : String} {items moved : List SafetyQueueItem} {u : Unit}
    (h : each (fun item => do
      addDeadLetter item ("kill switch: " ++ reason) now
      appendAudit "queue.dead_lettered" item.id "kill switch stopped queued action" now none) items s = (.ok u, s'))
    (hKept : Kept moved (buried s.deadLetters)) :
    s'.queue = s.queue ∧ Kept (moved ++ items) (buried s'.deadLetters) := by
  induction items generalizing s moved with
  | nil =>
    obtain ⟨_, rfl⟩ := pure_ok h
    exact ⟨rfl, by rwa [List.append_nil]⟩
  | cons item items ih =>
    obtain ⟨_, t, hItem, h⟩ := bind_ok h
    obtain ⟨_, _, hAdd, hAudit⟩ := bind_ok hItem
    obtain ⟨hQueue, hAdded⟩ := addDeadLetter_kept hAdd hKept
    obtain ⟨hSame, hDead⟩ := Prod.mk.inj ((appendAudit_keeps lanes_unobserved _ _ _ _ _).of_eq hAudit)
    rw [← hDead] at hAdded
    obtain ⟨hRest, hAll⟩ := ih h hAdded
    rw [List.append_assoc] at hAll
    exact ⟨hRest.trans (hSame.trans hQueue), hAll⟩

theorem stopOp_ok {operator : SafetyOperator} {scope : SafetyScope} {reason : Text 200} {u : Unit}
    {moved : List SafetyQueueItem} (h : stopOp operator scope reason now s = (.ok u, s'))
    (hKept : Kept moved (buried s.deadLetters)) :
    s'.queue = s.queue.filter (fun item => !scopeMatches scope item.action) ∧
      Kept (moved ++ s.queue.filter (scopeMatches scope ·.action)) (buried s'.deadLetters) := by
  obtain ⟨_, t, hSwitch, h⟩ := bind_ok h
  obtain ⟨hQueue, hDead⟩ := Prod.mk.inj ((setSwitch_lanes _ _ _ _ _).of_eq hSwitch)
  obtain ⟨_, t', hMatching, hAudit⟩ := bind_ok h
  obtain ⟨hQueue', hDead'⟩ := Prod.mk.inj ((appendAudit_keeps lanes_unobserved _ _ _ _ _).of_eq hAudit)
  obtain ⟨_, _, hGet, hMatching⟩ := bind_ok hMatching
  obtain ⟨rfl, rfl⟩ := get_ok hGet
  obtain ⟨_, _, hEach, hFilter⟩ := bind_ok hMatching
  have hFiltered := modify_ok hFilter
  rw [← hDead] at hKept
  obtain ⟨hSame, hAll⟩ := deadLetters_kept hEach hKept
  rw [hQueue', hDead', hFiltered, ← hQueue]
  exact ⟨by rw [hSame], hAll⟩

theorem dequeueOp_ok {result : Option SafetyQueueItem} (h : dequeueOp now s = (.ok result, s')) :
    s.queue = [] ∧ result = none ∧ s' = s ∨
      ∃ item rest, s.queue = item :: rest ∧ s'.queue = rest ∧
        (result = some item ∧ s'.deadLetters = s.deadLetters ∨
          result = none ∧ ∀ moved, Kept moved (buried s.deadLetters) →
            Kept (moved ++ [item]) (buried s'.deadLetters)) := by
  obtain ⟨_, _, hGet, h⟩ := bind_ok h
  obtain ⟨rfl, rfl⟩ := get_ok hGet
  cases hQueue : s.queue with
  | nil =>
    rw [hQueue] at h
    obtain ⟨rfl, rfl⟩ := pure_ok h
    exact .inl ⟨rfl, rfl, rfl⟩
  | cons item rest =>
    rw [hQueue] at h
    obtain ⟨_, _, hShift, h⟩ := bind_ok h
    have hShifted := modify_ok hShift
    obtain ⟨denied, t, hTry, h⟩ := bind_ok h
    have hLanes := (Keeps.tryCatch ((assertActionAllowed_keeps lanes_unobserved item.action now).bind fun _ =>
      keeps_pure none) fun e => keeps_pure (some e)).of_eq hTry
    rw [hShifted] at hLanes
    obtain ⟨hRest, hDead⟩ := Prod.mk.inj hLanes
    refine .inr ⟨item, rest, rfl, ?_⟩
    cases denied with
    | some e =>
      obtain ⟨_, _, hAdd, h⟩ := bind_ok h
      obtain ⟨_, _, hAudit, h⟩ := bind_ok h
      obtain ⟨rfl, rfl⟩ := pure_ok h
      obtain ⟨hSame, hSameDead⟩ := Prod.mk.inj ((appendAudit_keeps lanes_unobserved _ _ _ _ _).of_eq hAudit)
      obtain ⟨hKeptQueue, _⟩ := addDeadLetter_ok hAdd
      refine ⟨hSame.trans (hKeptQueue.trans hRest), .inr ⟨rfl, fun moved hKept => ?_⟩⟩
      rw [hSameDead]
      exact (addDeadLetter_kept hAdd (by rwa [hDead])).2
    | none =>
      obtain ⟨_, _, hAudit, h⟩ := bind_ok h
      obtain ⟨rfl, rfl⟩ := pure_ok h
      obtain ⟨hSame, hSameDead⟩ := Prod.mk.inj ((appendAudit_keeps lanes_unobserved _ _ _ _ _).of_eq hAudit)
      exact ⟨hSame.trans hRest, .inl ⟨rfl, hSameDead.trans hDead⟩⟩

/-! ## The log of a run -/

/-- What a call does to the queue, by its answer and the queue before it. -/
def movement (options : Options) (s : System) (event : Event) : Move SafetyQueueItem := match event.call with
  | .enqueue value =>
    match validateAction value >>= fun action => mutate (enqueueOp action) event.clock s.store with
    | .ok (item, _) =>
      if s.state.queue.any (ledgerKey ·.action == ledgerKey item.action) then .rest else .push item
    | .error _ => .rest
  | .dequeue => match mutate dequeueOp event.clock s.store with
    | .ok (some item, _) => .take item
    | .ok (none, _) => .bury (s.state.queue.take 1)
    | .error _ => .rest
  | .stop identity scope reason =>
    match validateScope scope, stop options identity scope reason event.clock s.store with
    | .ok scope, .ok _ => .sweep (s.state.queue.filter (scopeMatches scope ·.action))
    | _, _ => .rest
  | _ => .rest

structure Watched where
  system : System := {}
  log : Log SafetyQueueItem := {}

def Watched.take (options : Options) (w : Watched) (event : Event) : Watched :=
  ⟨w.system.take options event, w.log.add (movement options w.system event)⟩

def watch (options : Options) (events : List Event) : Watched := events.foldl (Watched.take options) {}

theorem watch_append (options : Options) (events : List Event) (event : Event) :
    watch options (events ++ [event]) = (watch options events).take options event := List.foldl_append

/-- One item for each key in the queue, and the log in step with the state. -/
structure Conserved (log : Log SafetyQueueItem) (state : SafetyControllerState) : Prop where
  balanced : log.Balanced state.queue
  evicted : Kept log.moved (buried state.deadLetters)
  distinct : (state.queue.map fun item => ledgerKey item.action).Nodup

theorem Conserved.of_lanes {log : Log SafetyQueueItem} (h : Conserved log s) (hSame : lanes s' = lanes s) :
    Conserved log s' := by
  obtain ⟨hQueue, hDead⟩ := Prod.mk.inj hSame
  exact ⟨hQueue ▸ h.balanced, hDead ▸ h.evicted, hQueue ▸ h.distinct⟩

theorem Conserved.enqueued {log : Log SafetyQueueItem} {action : SafetyAction} {item : SafetyQueueItem}
    (h : Conserved log s) (hRun : enqueueOp action now s = (.ok item, s')) :
    Conserved (log.add (if s.queue.any (ledgerKey ·.action == ledgerKey item.action) then .rest else .push item))
      s' := by
  obtain ⟨hKey, ⟨hAny, hSame⟩ | ⟨hNone, hPushed⟩⟩ := enqueueOp_ok hRun
  · rw [hKey, hAny]
    exact h.of_lanes hSame
  · rw [hKey, hNone]
    obtain ⟨hQueue, hDead⟩ := Prod.mk.inj hPushed
    refine ⟨hQueue ▸ h.balanced.push, hDead ▸ h.evicted, ?_⟩
    rw [hQueue, List.map_append, List.nodup_append]
    refine ⟨h.distinct, by simp, ?_⟩
    rintro key hOld _ hNew rfl
    obtain ⟨other, hOther, hSame⟩ := List.mem_map.mp hOld
    have hApart := List.any_eq_false.mp hNone other hOther
    rw [List.map_singleton, List.mem_singleton, ← hSame, hKey] at hNew
    simp [hNew] at hApart

theorem Conserved.dequeued {log : Log SafetyQueueItem} {result : Option SafetyQueueItem} (h : Conserved log s)
    (hRun : dequeueOp now s = (.ok result, s')) :
    Conserved (log.add (match result with
      | some item => .take item
      | none => .bury (s.queue.take 1))) s' := by
  rcases dequeueOp_ok hRun with ⟨hNone, rfl, rfl⟩ | ⟨item, rest, hQueue, hRest, hCase⟩
  · rw [hNone]
    have hSame : log.add (.bury ([].take 1)) = log := by simp [Log.add]
    rwa [hSame]
  · have hBalanced := h.balanced
    have hDistinct := h.distinct
    rw [hQueue] at hBalanced hDistinct
    have hRestDistinct : (s'.queue.map fun item => ledgerKey item.action).Nodup := by
      rw [hRest]
      exact (List.nodup_cons.mp hDistinct).2
    rcases hCase with ⟨rfl, hDead⟩ | ⟨rfl, hDead⟩
    · exact ⟨hRest ▸ hBalanced.take, hDead ▸ h.evicted, hRestDistinct⟩
    · rw [hQueue]
      exact ⟨hRest ▸ hBalanced.bury, hDead _ h.evicted, hRestDistinct⟩

theorem Conserved.stopped {log : Log SafetyQueueItem} {operator : SafetyOperator} {scope : SafetyScope}
    {reason : Text 200} {u : Unit} (h : Conserved log s) (hRun : stopOp operator scope reason now s = (.ok u, s')) :
    Conserved (log.add (.sweep (s.queue.filter (scopeMatches scope ·.action)))) s' := by
  obtain ⟨hQueue, hDead⟩ := stopOp_ok hRun h.evicted
  refine ⟨hQueue ▸ h.balanced.sweep (scopeMatches scope ·.action), hDead, ?_⟩
  rw [hQueue]
  exact h.distinct.sublist (List.filter_sublist.map _)

/-! ## Steps and runs -/

theorem Conserved.written {α : Type} {log : Log SafetyQueueItem} {operation : Int → Op α} {answer : α → Answer}
    {clock : Option Int} {store store' : Store} {b : Answer} (h : Conserved log (store.getD emptyState))
    (hKeeps : ∀ now, (operation now).Keeps lanes)
    (hWritten : written answer (mutate operation clock store) = .ok (b, store')) :
    Conserved log (store'.getD emptyState) := by
  obtain ⟨a, after, hMutate, _, rfl⟩ := written_ok hWritten
  obtain ⟨now, _, hRun, _⟩ := format_accepts.mutate_ok hMutate
  exact h.of_lanes ((hKeeps now).of_eq hRun)

theorem timed_keeps {α : Type} {operation : Int → Op α} (h : ∀ now, (operation now).Keeps lanes) (now : Int) :
    (timed operation now).Keeps lanes := (h now).bind fun a => keeps_pure (a, now)

theorem Conserved.leased {log : Log SafetyQueueItem} {options : Options} {index : Nat} {lease : SafetyLease}
    {clock : Option Int} {store store' : Store} {call : LeaseCall} {answer : Answer}
    (h : Conserved log (store.getD emptyState))
    (hPerform : performLease options index lease clock store call = .ok (answer, store')) :
    Conserved log (store'.getD emptyState) := by
  cases call with
  | assertActive =>
    rw [performLease] at hPerform
    split at hPerform
    · cases hPerform
      exact h
    · exact h.written (assertActiveOp_keeps lanes_unobserved _ _) hPerform
  | commitStart =>
    rw [performLease] at hPerform
    split at hPerform
    · cases hPerform
    · exact h.written (timed_keeps (commitStartOp_keeps lanes_unobserved _ _)) hPerform
  | commitEnd =>
    rw [performLease] at hPerform
    split at hPerform
    · cases hPerform
    · exact h.written (commitEndOp_keeps lanes_unobserved _ _) hPerform
  | complete value =>
    rw [performLease] at hPerform
    split at hPerform
    · cases hPerform
      exact h
    · obtain ⟨outcome, _, hPerform⟩ := bind_eq_ok hPerform
      exact h.written (completeOp_lanes lease outcome) hPerform

theorem Conserved.performed {log : Log SafetyQueueItem} {options : Options} {s : System} {event : Event}
    {answer : Answer} {store : Store} (h : Conserved log s.state)
    (hPerform : perform options s.leases event.clock s.store event.call = .ok (answer, store)) :
    Conserved (log.add (movement options s event)) (store.getD emptyState) := by
  obtain ⟨call, clock, answered⟩ := event
  cases call with
  | configureBudget identity value =>
    obtain ⟨operator, _, hPerform⟩ := bind_eq_ok hPerform
    obtain ⟨budget, _, hPerform⟩ := bind_eq_ok hPerform
    exact h.written (configureBudgetOp_lanes operator budget) hPerform
  | configureCircuit identity value =>
    obtain ⟨operator, _, hPerform⟩ := bind_eq_ok hPerform
    obtain ⟨circuit, _, hPerform⟩ := bind_eq_ok hPerform
    exact h.written (configureCircuitOp_keeps lanes_unobserved operator circuit) hPerform
  | stop identity scopeValue reasonValue =>
    rw [perform] at hPerform
    obtain ⟨_, after, hStop, rfl, rfl⟩ := written_ok hPerform
    have hOk := hStop
    obtain ⟨operator, _, hStop⟩ := bind_eq_ok hStop
    obtain ⟨scope, hScope, hStop⟩ := bind_eq_ok hStop
    obtain ⟨reason, _, hStop⟩ := bind_eq_ok hStop
    obtain ⟨now, _, hRun, _⟩ := format_accepts.mutate_ok hStop
    simp only [movement, hScope, hOk]
    exact h.stopped hRun
  | reenable identity scope reason =>
    obtain ⟨operator, _, hPerform⟩ := bind_eq_ok hPerform
    obtain ⟨scope, _, hPerform⟩ := bind_eq_ok hPerform
    obtain ⟨reason, _, hPerform⟩ := bind_eq_ok hPerform
    exact h.written (reenableOp_lanes operator scope reason) hPerform
  | admitAction value =>
    obtain ⟨action, _, hPerform⟩ := bind_eq_ok hPerform
    exact h.written (timed_keeps (admitOp_lanes options.leaseTtlMs action)) hPerform
  | enqueue value =>
    obtain ⟨action, hAction, hPerform⟩ := bind_eq_ok hPerform
    obtain ⟨item, after, hMutate, rfl, rfl⟩ := written_ok hPerform
    obtain ⟨now, _, hRun, _⟩ := format_accepts.mutate_ok hMutate
    simp only [movement, hAction, ok_bind, hMutate]
    exact h.enqueued hRun
  | dequeue =>
    rw [perform] at hPerform
    obtain ⟨result, after, hMutate, rfl, rfl⟩ := written_ok hPerform
    obtain ⟨now, _, hRun, _⟩ := format_accepts.mutate_ok hMutate
    have hDequeued := h.dequeued hRun
    cases result with
    | some item =>
      simp only [movement, hMutate]
      exact hDequeued
    | none =>
      simp only [movement, hMutate]
      exact hDequeued
  | gameDayPassed value reason =>
    obtain ⟨action, _, hPerform⟩ := bind_eq_ok hPerform
    obtain ⟨reason, _, hPerform⟩ := bind_eq_ok hPerform
    exact h.written (gameDayPassedOp_keeps lanes_unobserved action reason) hPerform
  | onLease index call =>
    rw [perform] at hPerform
    split at hPerform
    · exact h.leased hPerform
    · cases hPerform

theorem movement_of_error {options : Options} {s : System} {event : Event} {e : JsError}
    (hPerform : perform options s.leases event.clock s.store event.call = .error e) :
    movement options s event = .rest := by
  obtain ⟨call, clock, answered⟩ := event
  cases call with
  | stop identity scope reason =>
    simp only [movement]
    split
    · rename_i hStop
      simp only [perform, written, hStop] at hPerform
      cases hPerform
    · rfl
  | enqueue value =>
    simp only [movement]
    split
    · rename_i hEnqueue
      obtain ⟨action, hAction, hMutate⟩ := bind_eq_ok hEnqueue
      simp only [perform, hAction, ok_bind, written, hMutate] at hPerform
      cases hPerform
    · rfl
  | dequeue =>
    simp only [movement]
    split
    · rename_i hMutate
      simp only [perform, written, hMutate] at hPerform
      cases hPerform
    · rename_i hMutate
      simp only [perform, written, hMutate] at hPerform
      cases hPerform
    · rfl
  | _ => rfl

theorem state_note (s : System) (answer : Answer) : (s.note answer).state = s.state := by
  cases answer <;> rfl

theorem conserved_take {options : Options} {w : Watched} (h : Conserved w.log w.system.state) (event : Event) :
    Conserved (w.take options event).log (w.take options event).system.state := by
  rw [Watched.take, System.take]
  cases hPerform : perform options w.system.leases event.clock w.system.store event.call with
  | error e =>
    rw [movement_of_error hPerform]
    exact h
  | ok result =>
    obtain ⟨answer, store⟩ := result
    have hConserved := h.performed hPerform
    simp only
    split
    · rw [state_note]
      exact hConserved
    · exact hConserved

theorem conserved_watch (options : Options) (events : List Event) :
    Conserved (watch options events).log (watch options events).system.state := by
  induction events using List.reverseRecOn with
  | nil => exact ⟨balanced_empty, ⟨[], rfl⟩, List.nodup_nil⟩
  | append_singleton events event ih =>
    rw [watch_append]
    exact conserved_take ih event

theorem watch_run (options : Options) (events : List Event) :
    (machine options).FreeRun events (watch options events).system := by
  induction events using List.reverseRecOn with
  | nil => exact .start
  | append_singleton events event ih =>
    rw [watch_append]
    exact ih.next trivial rfl

theorem watch_extends (options : Options) (events later : List Event) :
    (watch options events).log.Extends (watch options (events ++ later)).log := by
  induction later using List.reverseRecOn with
  | nil =>
    rw [List.append_nil]
    exact extends_refl _
  | append_singleton later event ih =>
    rw [← List.append_assoc, watch_append]
    exact ih.add _

end GhostApi.Safety
