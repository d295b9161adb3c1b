import GhostApi.Trust.Ladder

/-!
# Who raises a trust level

The posture of a target is its level with the state of its breaker; a target
that is not stored yet has the posture of a fresh one. Every operation moves
the posture of one target at most. A promotion moves it on evidence. A
rollback moves it to approval from wherever it stands.
-/

namespace GhostApi.Trust

open Js Validation Storage Effect Effect.Mutation Table Transition

/-! ## Stored states -/

def CanaryCounts.Consistent (canary : CanaryCounts) : Prop :=
  canary.observed ≤ 1000000 ∧ canary.violations ≤ canary.observed ∧ canary.errors ≤ canary.observed

def TrustAuditRecord.Sealed (record : TrustAuditRecord) : Prop :=
  (1 ≤ record.sequence ∧ record.sequence ≤ MAX_AUDIT) ∧ isIdentifier record.targetKey = true ∧
    Printable record.timestamp ∧ record.recordHash = record.toAuditBase.seal.recordHash

structure Valid (state : TrustLadderState) : Prop where
  targetsLength : state.targets.length ≤ MAX_TARGETS
  targets : ∀ entry ∈ state.targets, entry.canary.Consistent ∧ Printable entry.updatedAt
  targetKeys : (state.targets.map fun entry => targetKey entry.target).Nodup
  auditLength : state.audit.length ≤ MAX_AUDIT
  auditRecords : ∀ record ∈ state.audit, record.Sealed
  auditChain : auditChain.Linked state.auditAnchor 1 state.audit

theorem validateTargetState_eq_ok {state : TrustTargetState} :
    validateTargetState state = .ok () ↔ state.canary.Consistent ∧ Printable state.updatedAt := by
  simp only [validateTargetState, validateCount, bind_unit_eq_ok, ite_ok_iff, stamp_eq_ok, CanaryCounts.Consistent,
    and_assoc]

theorem validateAudit_eq_ok {record : TrustAuditRecord} : validateAudit record = .ok () ↔ record.Sealed := by
  rw [validateAudit, TrustAuditRecord.Sealed]
  by_cases hSequence : 1 ≤ record.sequence ∧ record.sequence ≤ MAX_AUDIT
  · rw [if_pos hSequence, bind_unit_eq_ok, bind_unit_eq_ok, checkIdentifier_eq_ok, stamp_eq_ok,
      and_iff_right hSequence]
    exact and_congr_right fun _ => and_congr_right fun _ => ite_ok_iff
  · rw [if_neg hSequence]
    exact ⟨fun h => (nomatch h), fun h => absurd h.1 hSequence⟩

theorem format_accepts : format.Accepts Valid := by
  intro state state'
  have hPure : ∀ x : TrustLadderState, (pure x : Except JsError _) = .ok state' ↔ x = state' :=
    fun x => ⟨fun h => by cases h; rfl, fun h => by rw [h]; rfl⟩
  change validateState state = .ok state' ↔ _
  simp only [validateState, bind_unit_eq_ok, atMost_eq_ok, unique_eq_ok, forM_eq_ok, validateTargetState_eq_ok,
    validateAudit_eq_ok, validateAuditChain, NumberedChain.verify_eq_ok, hPure]
  constructor
  · rintro ⟨h1, h2, h3, h4, h5, h6, h⟩
    exact ⟨⟨h1, h2, h3, h4, h5, h6⟩, h⟩
  · rintro ⟨⟨h1, h2, h3, h4, h5, h6⟩, h⟩
    exact ⟨h1, h2, h3, h4, h5, h6, h⟩

/-! ## Postures -/

abbrev Posture := TrustLevel × CircuitBreaker

def TrustTargetState.posture (entry : TrustTargetState) : Posture := (entry.level, entry.circuitBreaker)

def posture (state : TrustLadderState) (target : TrustTarget) : Posture :=
  ((state.targets.find? (TrustTargetState.isFor target)).map TrustTargetState.posture).getD (.simulate, .closed)

theorem isFor_iff {target : TrustTarget} {entry : TrustTargetState} :
    entry.isFor target = true ↔ entry.target = target := by
  obtain ⟨⟨tenantId, resourceId⟩, _⟩ := entry
  cases target
  simp [TrustTargetState.isFor, sameTarget, Subtype.ext_iff]

theorem isFor_other {target other : TrustTarget} {entry : TrustTargetState} (h : entry.target = target)
    (hOther : target ≠ other) : entry.isFor other = false := by
  rw [← Bool.not_eq_true, isFor_iff, h]
  exact hOther

theorem posture_of_targets {s s' : TrustLadderState} (h : s'.targets = s.targets) : posture s' = posture s := by
  funext target
  rw [posture, posture, h]

theorem posture_assign (state : TrustLadderState) (current : TrustTargetState) :
    posture { state with targets := upsert (TrustTargetState.isFor current.target) current state.targets } =
      Function.update (posture state) current.target current.posture := by
  funext target
  by_cases hTarget : current.target = target
  · subst hTarget
    rw [Function.update_self, posture, find?_upsert_self (isFor_iff.mpr rfl)]
    rfl
  · rw [Function.update_of_ne (Ne.symm hTarget), posture, posture, find?_upsert_other]
    · exact isFor_other rfl hTarget
    · intro entry hEntry
      exact isFor_other (isFor_iff.mp hEntry) hTarget

theorem posture_append_fresh {state : TrustLadderState} {entry : TrustTargetState}
    (hNone : state.targets.find? (TrustTargetState.isFor entry.target) = none) (hFresh : entry.posture = (.simulate, .closed)) :
    posture { state with targets := state.targets ++ [entry] } = posture state := by
  funext other
  rw [posture, posture, List.find?_append]
  by_cases hOther : entry.target = other
  · subst hOther
    simp [hNone, isFor_iff.mpr, hFresh]
  · simp [isFor_other rfl hOther]

/-! ## Operations -/

variable {target : TrustTarget} {policy : TrustPromotionPolicy} {now : Int} {s s' : TrustLadderState}

theorem findOrCreateTarget_ok {current : TrustTargetState}
    (h : findOrCreateTarget target now s = (.ok current, s')) :
    current.target = target ∧ current.posture = posture s target ∧ posture s' = posture s := by
  obtain ⟨_, _, hGet, h⟩ := bind_ok h
  obtain ⟨rfl, rfl⟩ := get_ok hGet
  cases hFind : s.targets.find? (TrustTargetState.isFor target) with
  | some existing =>
    simp only [hFind] at h
    obtain ⟨rfl, rfl⟩ := pure_ok h
    refine ⟨isFor_iff.mp (List.find?_some hFind), ?_, rfl⟩
    rw [posture, hFind]
    rfl
  | none =>
    simp only [hFind] at h
    obtain ⟨_, _, hRoom, h⟩ := bind_ok h
    obtain ⟨_, rfl⟩ := throwIf_ok hRoom
    obtain ⟨_, t, hModify, h⟩ := bind_ok h
    obtain rfl := modify_ok hModify
    obtain ⟨rfl, rfl⟩ := pure_ok h
    refine ⟨rfl, ?_, posture_append_fresh hFind rfl⟩
    rw [posture, hFind]
    rfl

theorem appendAudit_keeps (event : String) (entry : TrustTargetState) (fromLevel toLevel : Option TrustLevel)
    (reason : String) (now : Int) :
    (appendAudit event entry fromLevel toLevel reason now).Keeps TrustLadderState.targets :=
  keeps_get.bind fun _ => (keeps_throwIf _ _).bind fun _ => (keeps_lift _).bind fun _ =>
    (keeps_lift _).bind fun _ => keeps_modify fun _ => rfl

theorem assign_audit_ok {entry result current : TrustTargetState} {event reason : String}
    {fromLevel toLevel : Option TrustLevel}
    (h : (do assign entry; appendAudit event entry fromLevel toLevel reason now; return result : Op _) s =
      (.ok current, s')) :
    current = result ∧ posture s' = Function.update (posture s) entry.target entry.posture := by
  obtain ⟨_, t, hAssign, h⟩ := bind_ok h
  obtain rfl := modify_ok hAssign
  obtain ⟨_, u, hAudit, h⟩ := bind_ok h
  obtain ⟨rfl, rfl⟩ := pure_ok h
  refine ⟨rfl, ?_⟩
  rw [posture_of_targets ((appendAudit_keeps _ _ _ _ _ _).of_eq hAudit), posture_assign]

theorem inspectOp_ok {r : TrustTargetState} (h : inspectOp target now s = (.ok r, s')) : posture s' = posture s :=
  (findOrCreateTarget_ok h).2.2

theorem assignCanaryOp_ok {r : TrustCanaryDecision} (h : assignCanaryOp target policy now s = (.ok r, s')) :
    posture s' = posture s := by
  obtain ⟨current, t, hFind, h⟩ := bind_ok h
  obtain ⟨_, _, hClosed, h⟩ := bind_ok h
  obtain ⟨_, rfl⟩ := throwIf_ok hClosed
  obtain ⟨_, rfl⟩ := pure_ok h
  exact (findOrCreateTarget_ok hFind).2.2

theorem compareOp_ok {level : ComparedLevel} {event matchText mismatchText : String} {predicted actual : Hash}
    {r : TrustComparisonEvidence}
    (h : compareOp level event matchText mismatchText target predicted actual now s = (.ok r, s')) :
    posture s' = posture s := by
  obtain ⟨current, t, hFind, h⟩ := bind_ok h
  obtain ⟨_, u, hActive, h⟩ := bind_ok h
  obtain ⟨_, v, hClosed, hActive⟩ := bind_ok hActive
  obtain ⟨_, rfl⟩ := throwIf_ok hClosed
  obtain ⟨_, rfl⟩ := throwIf_ok hActive
  obtain ⟨_, w, hAudit, h⟩ := bind_ok h
  obtain ⟨_, rfl⟩ := pure_ok h
  rw [posture_of_targets ((appendAudit_keeps _ _ _ _ _ _).of_eq hAudit)]
  exact (findOrCreateTarget_ok hFind).2.2

theorem closed_of_not_opened {breaker : CircuitBreaker} (h : ¬breaker = .opened) : breaker = .closed := by
  cases breaker with
  | closed => rfl
  | opened => exact absurd rfl h

theorem assertPromotable_ok {capabilities : TrustCapabilities} {evidence : TrustPromotionEvidence}
    {requestedLevel : TrustLevel} {current : TrustTargetState}
    (h : assertPromotable capabilities target policy evidence requestedLevel current now = .ok ()) :
    current.circuitBreaker = .closed ∧ nextSupportedLevel capabilities current.level = .ok (some requestedLevel) ∧
      assertPromotionEvidence evidence policy now = .ok () := by
  obtain ⟨hClosed, h⟩ := ite_error_eq_ok h
  obtain ⟨capability, _, h⟩ := bind_eq_ok h
  obtain ⟨_, h⟩ := ite_error_eq_ok h
  obtain ⟨next, hNext, h⟩ := bind_eq_ok h
  obtain ⟨hLevel, h⟩ := ite_error_eq_ok h
  obtain ⟨_, hEvidence, _⟩ := bind_eq_ok h
  rw [not_not] at hLevel
  exact ⟨closed_of_not_opened hClosed, hLevel ▸ hNext, hEvidence⟩

theorem promoteOp_ok {capabilities : TrustCapabilities} {evidence : TrustPromotionEvidence}
    {requestedLevel : TrustLevel} {owner : TrustOwner} {r : TrustTargetState}
    (hRun : promoteOp capabilities target policy evidence requestedLevel owner now s = (.ok r, s')) :
    (posture s target).2 = .closed ∧
      nextSupportedLevel capabilities (posture s target).1 = .ok (some requestedLevel) ∧
      assertPromotionEvidence evidence policy now = .ok () ∧
      posture s' = Function.update (posture s) target (requestedLevel, .closed) := by
  obtain ⟨current, t, hFind, h⟩ := bind_ok hRun
  obtain ⟨rfl, hCurrent, hKept⟩ := findOrCreateTarget_ok hFind
  obtain ⟨_, u, hLift, h⟩ := bind_ok h
  obtain ⟨hAssert, rfl⟩ := lift_ok hLift
  obtain ⟨hClosed, hNext, hEvidence⟩ := assertPromotable_ok hAssert
  obtain ⟨_, hPosture⟩ := assign_audit_ok h
  rw [← hCurrent]
  refine ⟨hClosed, hNext, hEvidence, ?_⟩
  rw [hPosture, hKept, TrustTargetState.posture, hClosed]

theorem rollbackToApprovalOp_ok {reason : Text 200} {r : TrustTargetState}
    (hRun : rollbackToApprovalOp target reason now s = (.ok r, s')) :
    posture s' = Function.update (posture s) target (.approve, (posture s target).2) := by
  obtain ⟨current, t, hFind, h⟩ := bind_ok hRun
  obtain ⟨rfl, hCurrent, hKept⟩ := findOrCreateTarget_ok hFind
  obtain ⟨_, hPosture⟩ := assign_audit_ok h
  rw [hPosture, hKept, ← hCurrent]
  rfl

theorem demoteOnViolation_ok {outcome : TrustCanaryOutcome} {current r : TrustTargetState}
    (h : demoteOnViolation policy outcome current now s = (.ok r, s'))
    (hStored : posture s current.target = current.posture) :
    r.target = current.target ∧ (r.level = current.level ∨ r.level = .approve) ∧
      posture s' = Function.update (posture s) r.target r.posture := by
  rcases ite_ok h with ⟨_, h⟩ | ⟨_, h⟩
  · obtain ⟨rfl, hPosture⟩ := assign_audit_ok h
    exact ⟨rfl, .inr rfl, hPosture⟩
  · obtain ⟨rfl, rfl⟩ := pure_ok h
    exact ⟨rfl, .inl rfl, by rw [← hStored, Function.update_eq_self]⟩

theorem openBreakerOnStop_ok {outcome : TrustCanaryOutcome} {current r : TrustTargetState}
    (h : openBreakerOnStop policy outcome current now s = (.ok r, s'))
    (hStored : posture s current.target = current.posture) :
    r.level = current.level ∧ posture s' = Function.update (posture s) current.target r.posture := by
  rcases ite_ok h with ⟨_, h⟩ | ⟨_, h⟩
  · obtain ⟨rfl, hPosture⟩ := assign_audit_ok h
    exact ⟨rfl, hPosture⟩
  · obtain ⟨rfl, rfl⟩ := pure_ok h
    exact ⟨rfl, by rw [← hStored, Function.update_eq_self]⟩

theorem recordCanaryOutcomeOp_ok {outcome : TrustCanaryOutcome} {reason : Text 200} {r : TrustTargetState}
    (hRun : recordCanaryOutcomeOp target policy outcome reason now s = (.ok r, s')) :
    posture s target = (.boundedAuto, .closed) ∧ (r.level = .boundedAuto ∨ r.level = .approve) ∧
      posture s' = Function.update (posture s) target r.posture := by
  obtain ⟨current, t, hFind, h⟩ := bind_ok hRun
  obtain ⟨rfl, hCurrent, hKept⟩ := findOrCreateTarget_ok hFind
  obtain ⟨_, _, hCheck, h⟩ := bind_ok h
  obtain ⟨hClosed, rfl⟩ := throwIf_ok hCheck
  obtain ⟨_, _, hCheck', h⟩ := bind_ok h
  obtain ⟨hLevel, rfl⟩ := throwIf_ok hCheck'
  obtain ⟨_, _, hAssigned, h⟩ := bind_ok h
  obtain ⟨_, rfl⟩ := throwIf_ok hAssigned
  obtain ⟨_, t1, hAssign, h⟩ := bind_ok h
  obtain rfl := modify_ok hAssign
  obtain ⟨_, t2, hAudit, h⟩ := bind_ok h
  obtain ⟨demoted, t3, hDemote, hOpen⟩ := bind_ok h
  rw [not_not] at hLevel
  -- The observed counts do not change the posture.
  have hObserved : posture t2 = posture s := by
    rw [posture_of_targets ((appendAudit_keeps _ _ _ _ _ _).of_eq hAudit), posture_assign, hKept]
    exact (congrArg _ hCurrent).trans (Function.update_eq_self _ _)
  obtain ⟨hTarget, hDemoted, hPosture⟩ := demoteOnViolation_ok hDemote (by rw [hObserved]; exact hCurrent.symm)
  obtain ⟨hOpened, hPosture'⟩ := openBreakerOnStop_ok hOpen (by rw [hPosture, Function.update_self])
  refine ⟨?_, ?_, ?_⟩
  · rw [← hCurrent, TrustTargetState.posture, hLevel, closed_of_not_opened hClosed]
  · rw [hOpened]
    exact hDemoted.imp_left fun h => h.trans hLevel
  · rw [hPosture', hPosture, hTarget, hObserved, Function.update_idem]

/-! ## One call -/

inductive Moved (clock : Option Int) (before after : TrustTarget → Posture) : Call → Prop
  | kept {call : Call} (same : after = before) : Moved clock before after call
  | promoted {targetValue levelValue policyValue evidenceValue identity : JsValue} {target : TrustTarget}
      {level : TrustLevel} {policy : TrustPromotionPolicy} {evidence : TrustPromotionEvidence} {now : Int}
      (validated : validateTarget targetValue = .ok target ∧
        trustLevel levelValue "Trust promotion level" = .ok level ∧ validatePolicy policyValue = .ok policy ∧
        validateEvidence evidenceValue = .ok evidence ∧ format.timestamp clock = .ok now)
      (closed : (before target).2 = .closed)
      (next : nextSupportedLevel createLocalSyntheticTrustCapabilities (before target).1 = .ok (some level))
      (evident : assertPromotionEvidence evidence policy now = .ok ())
      (moved : after = Function.update before target (level, .closed)) :
      Moved clock before after (.promote targetValue levelValue policyValue evidenceValue identity)
  | observed {targetValue policyValue outcome reason : JsValue} {target : TrustTarget} {posture : Posture}
      (automatic : before target = (.boundedAuto, .closed))
      (level : posture.1 = .boundedAuto ∨ posture.1 = .approve)
      (moved : after = Function.update before target posture) :
      Moved clock before after (.recordCanaryOutcome targetValue policyValue outcome reason)
  | rolledBack {targetValue policyValue identity reason : JsValue} {target : TrustTarget}
      (validated : validateTarget targetValue = .ok target)
      (moved : after = Function.update before target (.approve, (before target).2)) :
      Moved clock before after (.rollbackToApproval targetValue policyValue identity reason)

theorem locked_ok {α : Type} {operation : Int → Op α} {clock : Option Int} {store : Store} {state : TrustLadderState}
    (h : locked operation clock store = .ok state) :
    ∃ now a, format.timestamp clock = .ok now ∧ operation now (store.getD emptyState) = (.ok a, state) := by
  obtain ⟨⟨a, after⟩, hMutate, h⟩ := bind_eq_ok h
  cases h
  obtain ⟨now, hNow, hRun, _⟩ := format_accepts.mutate_ok hMutate
  exact ⟨now, a, hNow, hRun⟩

theorem perform_ok {options : Options} {clock : Option Int} {store : Store} {call : Call}
    {state : TrustLadderState} (h : perform options clock store call = .ok state) :
    Moved clock (posture (store.getD emptyState)) (posture state) call := by
  cases call with
  | inspect target =>
    obtain ⟨target, _, h⟩ := bind_eq_ok h
    obtain ⟨now, _, _, hRun⟩ := locked_ok h
    exact .kept (inspectOp_ok hRun)
  | assignCanary target policy =>
    obtain ⟨target, _, h⟩ := bind_eq_ok h
    obtain ⟨policy, _, h⟩ := bind_eq_ok h
    obtain ⟨now, _, _, hRun⟩ := locked_ok h
    exact .kept (assignCanaryOp_ok hRun)
  | promote target level policy evidence identity =>
    obtain ⟨target, hTarget, h⟩ := bind_eq_ok h
    obtain ⟨policy, hPolicy, h⟩ := bind_eq_ok h
    obtain ⟨evidence, hEvidence, h⟩ := bind_eq_ok h
    obtain ⟨level, hLevel, h⟩ := bind_eq_ok h
    obtain ⟨identity, _, h⟩ := bind_eq_ok h
    obtain ⟨owner, _, h⟩ := bind_eq_ok h
    obtain ⟨_, h⟩ := ite_error_eq_ok h
    obtain ⟨now, _, hNow, hRun⟩ := locked_ok h
    obtain ⟨hClosed, hNext, hEvident, hMoved⟩ := promoteOp_ok hRun
    exact .promoted ⟨hTarget, hLevel, hPolicy, hEvidence, hNow⟩ hClosed hNext hEvident hMoved
  | compareShadow prediction actual =>
    obtain ⟨prediction, _, h⟩ := bind_eq_ok h
    obtain ⟨actual, _, h⟩ := bind_eq_ok h
    obtain ⟨_, h⟩ := ite_error_eq_ok h
    obtain ⟨now, _, _, hRun⟩ := locked_ok h
    exact .kept (compareOp_ok hRun)
  | compareBoundedOutcome prediction actual =>
    obtain ⟨prediction, _, h⟩ := bind_eq_ok h
    obtain ⟨actual, _, h⟩ := bind_eq_ok h
    obtain ⟨_, h⟩ := ite_error_eq_ok h
    obtain ⟨now, _, _, hRun⟩ := locked_ok h
    exact .kept (compareOp_ok hRun)
  | recordCanaryOutcome target policy outcome reason =>
    obtain ⟨target, _, h⟩ := bind_eq_ok h
    obtain ⟨policy, _, h⟩ := bind_eq_ok h
    obtain ⟨outcome, _, h⟩ := bind_eq_ok h
    obtain ⟨reason, _, h⟩ := bind_eq_ok h
    obtain ⟨now, _, _, hRun⟩ := locked_ok h
    obtain ⟨hAutomatic, hLevel, hMoved⟩ := recordCanaryOutcomeOp_ok hRun
    exact .observed hAutomatic hLevel hMoved
  | rollbackToApproval target policy identity reason =>
    obtain ⟨target, hTarget, h⟩ := bind_eq_ok h
    obtain ⟨policy, _, h⟩ := bind_eq_ok h
    obtain ⟨identity, _, h⟩ := bind_eq_ok h
    obtain ⟨owner, _, h⟩ := bind_eq_ok h
    obtain ⟨reason, _, h⟩ := bind_eq_ok h
    obtain ⟨_, h⟩ := ite_error_eq_ok h
    obtain ⟨now, _, _, hRun⟩ := locked_ok h
    exact .rolledBack hTarget (rollbackToApprovalOp_ok hRun)

/-! ## Runs -/

def stands (store : Store) : TrustTarget → Posture := posture (store.getD emptyState)

theorem take_moved (options : Options) (store : Store) (event : Event) :
    Moved event.clock (stands store) (stands (take options store event)) event.call := by
  rw [take]
  split
  · exact .kept rfl
  · exact perform_ok ‹_›

/-- The event is a promotion of the target to the next supported level, on evidence that meets the
supplied policy, with a closed breaker. -/
def PromotedOnEvidence (store : Store) (event : Event) (target : TrustTarget) (level : TrustLevel) : Prop :=
  ∃ targetValue levelValue policyValue evidenceValue identity policy evidence now,
    event.call = .promote targetValue levelValue policyValue evidenceValue identity ∧
    validateTarget targetValue = .ok target ∧ trustLevel levelValue "Trust promotion level" = .ok level ∧
    validatePolicy policyValue = .ok policy ∧ validateEvidence evidenceValue = .ok evidence ∧
    format.timestamp event.clock = .ok now ∧ (stands store target).2 = .closed ∧
    nextSupportedLevel createLocalSyntheticTrustCapabilities (stands store target).1 = .ok (some level) ∧
    assertPromotionEvidence evidence policy now = .ok ()

/-- A rollback meets a target that stands at approval or above. -/
def rollsBackFromApproval (store : Store) (event : Event) : Prop := match event.call with
  | .rollbackToApproval targetValue _ _ _ => ∀ target, validateTarget targetValue = .ok target →
    TrustLevel.approve.rank ≤ (stands store target).1.rank
  | _ => True

theorem stands_take (options : Options) (store : Store) (event : Event) (target : TrustTarget) :
    stands (take options store event) target = stands store target ∨
    (∃ level, PromotedOnEvidence store event target level ∧
      stands (take options store event) target = (level, .closed)) ∨
    (stands store target = (.boundedAuto, .closed) ∧ ((stands (take options store event) target).1 = .boundedAuto ∨
      (stands (take options store event) target).1 = .approve)) ∨
    ((∃ targetValue policyValue identity reason,
        event.call = .rollbackToApproval targetValue policyValue identity reason ∧
        validateTarget targetValue = .ok target) ∧
      stands (take options store event) target = (.approve, (stands store target).2)) := by
  have hMoved := take_moved options store event
  generalize stands (take options store event) = after at hMoved ⊢
  obtain ⟨call, clock⟩ := event
  cases hMoved with
  | kept same =>
    subst same
    exact .inl rfl
  | @promoted _ _ _ _ _ moving level policy evidence now validated closed next evident moved =>
    subst moved
    by_cases hTarget : target = moving
    · subst hTarget
      obtain ⟨hTarget, hLevel, hPolicy, hEvidence, hNow⟩ := validated
      exact .inr (.inl ⟨level, ⟨_, _, _, _, _, policy, evidence, now, rfl, hTarget, hLevel, hPolicy, hEvidence, hNow,
        closed, next, evident⟩, Function.update_self _ _ _⟩)
    · exact .inl (Function.update_of_ne hTarget _ _)
  | @observed _ _ _ _ moving posture automatic level moved =>
    subst moved
    by_cases hTarget : target = moving
    · subst hTarget
      rw [Function.update_self]
      exact .inr (.inr (.inl ⟨automatic, level⟩))
    · exact .inl (Function.update_of_ne hTarget _ _)
  | @rolledBack _ _ _ _ moving validated moved =>
    subst moved
    by_cases hTarget : target = moving
    · subst hTarget
      exact .inr (.inr (.inr ⟨⟨_, _, _, _, rfl, validated⟩, Function.update_self _ _ _⟩))
    · exact .inl (Function.update_of_ne hTarget _ _)

theorem raised_on_evidence {options : Options} {store : Store} {event : Event} {target : TrustTarget}
    (hAllowed : rollsBackFromApproval store event)
    (hRaised : (stands store target).1.rank < (stands (take options store event) target).1.rank) :
    PromotedOnEvidence store event target (stands (take options store event) target).1 := by
  rcases stands_take options store event target with
    hKept | ⟨level, hEvidence, hAfter⟩ | ⟨hAutomatic, hLevel⟩ | ⟨⟨_, _, _, _, hCall, hTarget⟩, hAfter⟩
  · rw [hKept] at hRaised
    exact absurd hRaised (Nat.lt_irrefl _)
  · rwa [hAfter]
  · rw [hAutomatic] at hRaised
    rcases hLevel with hLevel | hLevel
    · rw [hLevel] at hRaised
      exact absurd hRaised (by decide)
    · rw [hLevel] at hRaised
      exact absurd hRaised (by decide)
  · rw [rollsBackFromApproval, hCall] at hAllowed
    rw [hAfter] at hRaised
    exact absurd hRaised (Nat.not_lt.mpr (hAllowed target hTarget))

/-- A target with an open breaker stands at approval or above. -/
def OpenAtApproval (store : Store) : Prop :=
  ∀ target, (stands store target).2 = .opened → TrustLevel.approve.rank ≤ (stands store target).1.rank

theorem openAtApproval_take {options : Options} {store : Store} {event : Event} (h : OpenAtApproval store) :
    OpenAtApproval (take options store event) := by
  intro target hOpen
  rcases stands_take options store event target with
    hKept | ⟨level, _, hAfter⟩ | ⟨_, hLevel⟩ | ⟨_, hAfter⟩
  · rw [hKept] at hOpen ⊢
    exact h target hOpen
  · rw [hAfter] at hOpen
    cases hOpen
  · rcases hLevel with hLevel | hLevel
    · rw [hLevel]
      decide
    · rw [hLevel]
  · rw [hAfter]

theorem opened_take (options : Options) (event : Event) {store : Store} {target : TrustTarget}
    (h : OpenAtApproval store) (hOpen : (stands store target).2 = .opened) :
    (stands (take options store event) target).2 = .opened ∧
      (stands (take options store event) target).1.rank ≤ (stands store target).1.rank := by
  rcases stands_take options store event target with
    hKept | ⟨level, hEvidence, _⟩ | ⟨hAutomatic, _⟩ | ⟨_, hAfter⟩
  · rw [hKept]
    exact ⟨hOpen, Nat.le_refl _⟩
  · obtain ⟨_, _, _, _, _, _, _, _, _, _, _, _, _, _, hClosed, _⟩ := hEvidence
    rw [hOpen] at hClosed
    cases hClosed
  · rw [hAutomatic] at hOpen
    cases hOpen
  · rw [hAfter]
    exact ⟨hOpen, h target hOpen⟩

theorem opened_exec {options : Options} {later : List Event} {store store' : Store} {target : TrustTarget}
    (h : OpenAtApproval store) (hOpen : (stands store target).2 = .opened)
    (hLater : (machine options).exec store later = some store') :
    (stands store' target).1.rank ≤ (stands store target).1.rank := by
  induction later generalizing store with
  | nil =>
    cases hLater
    exact Nat.le_refl _
  | cons event later ih =>
    obtain ⟨hStill, hLower⟩ := opened_take options event h hOpen
    exact (ih (openAtApproval_take h) hStill hLater).trans hLower

theorem openAtApproval_run {options : Options} {guard : Store → Event → Prop} {events : List Event} {store : Store}
    (run : (machine options).Run guard events store) : OpenAtApproval store := by
  refine run.invariant (I := OpenAtApproval) ?_ ?_
  · intro target hOpen
    cases hOpen
  · intro store event store' h _ hTaken
    cases hTaken
    exact openAtApproval_take h

/-- Where every rollback meets a target at approval or above, a level is raised by a promotion on
evidence only, and an open breaker keeps it from being raised again. -/
theorem level_raised_only_on_evidence (options : Options) (events : List Event) (store : Store)
    (run : (machine options).Run rollsBackFromApproval events store) :
    (∀ event store', rollsBackFromApproval store event → (machine options).step store event = some store' →
      ∀ target, (stands store target).1.rank < (stands store' target).1.rank →
        PromotedOnEvidence store event target (stands store' target).1) ∧
    ∀ later store' target, (stands store target).2 = .opened → (machine options).exec store later = some store' →
      (stands store' target).1.rank ≤ (stands store target).1.rank := by
  refine ⟨?_, ?_⟩
  · intro event store' hAllowed hTaken target hRaised
    cases hTaken
    exact raised_on_evidence hAllowed hRaised
  · intro later store' target hOpen hLater
    exact opened_exec (openAtApproval_run run) hOpen hLater

/-! ## Moving a fresh target -/

def entryAt (target : TrustTarget) (level : TrustLevel) (now : Int) : TrustTargetState :=
  ⟨target, level, .closed, ⟨0, 0, 0⟩, now⟩

def loneState (target : TrustTarget) (level : TrustLevel) (now : Int) : TrustLadderState :=
  ⟨[entryAt target level now], emptyState.auditAnchor, []⟩

def movedRecord (target : TrustTarget) (level : TrustLevel) (event : Text 80) (reason : Text 200) (now : Int) :
    TrustAuditRecord :=
  AuditBase.seal ⟨1, event, targetKey target, some .simulate, some level, reason, now, emptyState.auditAnchor⟩

def movedState (target : TrustTarget) (level : TrustLevel) (event : Text 80) (reason : Text 200) (now : Int) :
    TrustLadderState :=
  { loneState target level now with audit := [movedRecord target level event reason now] }

theorem valid_movedState (target : TrustTarget) (level : TrustLevel) (event : Text 80) (reason : Text 200)
    {now : Int} (hNow : Printable now) : Valid (movedState target level event reason now) where
  targetsLength := Nat.succ_le_succ (Nat.zero_le _)
  targets := by
    rintro entry hEntry
    cases List.mem_singleton.mp hEntry
    exact ⟨⟨Nat.zero_le _, Nat.le_refl _, Nat.le_refl _⟩, hNow⟩
  targetKeys := List.nodup_singleton _
  auditLength := Nat.succ_le_succ (Nat.zero_le _)
  auditRecords := by
    rintro record hRecord
    cases List.mem_singleton.mp hRecord
    refine ⟨⟨Nat.le_refl _, Nat.succ_le_succ (Nat.zero_le _)⟩, ?_, hNow, rfl⟩
    exact digestName_isIdentifier (by decide +kernel) (by decide) (by decide) _
  auditChain := ⟨⟨rfl, trivial⟩, rfl⟩

theorem findOrCreateTarget_empty (target : TrustTarget) (now : Int) :
    findOrCreateTarget target now emptyState = (.ok (entryAt target .simulate now), loneState target .simulate now) :=
  rfl

theorem assign_lone (target : TrustTarget) (level : TrustLevel) (now : Int) :
    assign (entryAt target level now) (loneState target .simulate now) = (.ok (), loneState target level now) := by
  have hUpsert : upsert (TrustTargetState.isFor target) (entryAt target level now) [entryAt target .simulate now] =
      [entryAt target level now] := upsert_cons_pos (isFor_iff.mpr rfl)
  calc assign (entryAt target level now) (loneState target .simulate now) =
        (.ok (), ⟨upsert (TrustTargetState.isFor target) (entryAt target level now) [entryAt target .simulate now],
          emptyState.auditAnchor, []⟩) := rfl
    _ = (.ok (), loneState target level now) := by rw [hUpsert]; rfl

theorem appendAudit_lone (target : TrustTarget) (level : TrustLevel) (event : Text 80) (reason : Text 200) (now : Int) :
    appendAudit event.val (entryAt target level now) TrustLevel.simulate level reason.val now
      (loneState target level now) = (.ok (), movedState target level event reason now) := by
  have hRoom : ¬MAX_AUDIT ≤ (loneState target level now).audit.length := show ¬10000 ≤ 0 by decide
  rw [appendAudit, get_bind, bind_of_ok (throwIf_of_not hRoom _ _), text_val, lift_bind, text_val, lift_bind]
  rfl

theorem moveLone (target : TrustTarget) (level : TrustLevel) (event : Text 80) (reason : Text 200) (now : Int) :
    (do
      assign (entryAt target level now)
      appendAudit event.val (entryAt target level now) TrustLevel.simulate level reason.val now
      return entryAt target level now : Op _) (loneState target .simulate now) =
    (.ok (entryAt target level now), movedState target level event reason now) := by
  rw [bind_of_ok (assign_lone target level now), bind_of_ok (appendAudit_lone target level event reason now)]
  rfl

/-! ## Two first calls -/

theorem acme_isIdentifier : isIdentifier "acme" = true := by decide +kernel

theorem shop_isIdentifier : isIdentifier "shop" = true := by decide +kernel

def sampleTarget : TrustTarget := ⟨⟨"acme", acme_isIdentifier⟩, ⟨"shop", shop_isIdentifier⟩⟩

def targetValue : JsValue :=
  .object [("provider", .string "ghostapi-synthetic"), ("environment", .string "synthetic"),
    ("tenantId", .string "acme"), ("resourceId", .string "shop")]

def sampleOwner : TrustOwner := ⟨⟨"own", by decide +kernel⟩, ⟨"own", by decide +kernel⟩⟩

def ownerValue : JsValue := .object [("id", .string "own"), ("principalId", .string "own")]

def sampleEval : Identifier := ⟨"smoke", by decide +kernel⟩

theorem one_le_million : 1 ≤ 1000000 := by decide

theorem p_isIdentifier : isIdentifier "p" = true := by decide +kernel

def samplePolicy : TrustPromotionPolicy where
  id := ⟨"p", p_isIdentifier⟩
  ownerPrincipalId := sampleOwner.principalId
  minimumRuns := ⟨1, by decide⟩
  requiredEvalIds := [sampleEval]
  maxViolationRateBps := ⟨0, by decide⟩
  maxErrorRateBps := ⟨0, by decide⟩
  evidenceFreshnessMs := ⟨1, by decide⟩
  canary := ⟨[], [], ⟨0, by decide⟩⟩
  maxViolations := ⟨1, one_le_million⟩
  maxErrors := ⟨1, one_le_million⟩
  violationResponse := .demoteToApprove

def integer (n : Nat) : JsValue := .number (.integer n)

def policyValue : JsValue :=
  .object [("schemaVersion", integer 1), ("kind", .string "ghostapi.trust-promotion-policy"), ("id", .string "p"),
    ("ownerPrincipalId", .string "own"), ("automaticPromotion", .bool false), ("minimumRuns", integer 1),
    ("requiredEvalIds", .array [.string "smoke"]), ("maxViolationRateBps", integer 0), ("maxErrorRateBps", integer 0),
    ("evidenceFreshnessMs", integer 1),
    ("canary", .object [("tenantIds", .array []), ("resourceIds", .array []), ("percentageBps", integer 0)]),
    ("stopConditions", .object [("maxViolations", integer 1), ("maxErrors", integer 1)]),
    ("violationResponse", .string "demote_to_approve")]

theorem epoch_isTimestamp : Date.isTimestamp "1970-01-01T00:00:00.000Z" = true := by decide +kernel

def epoch : Timestamp := ⟨"1970-01-01T00:00:00.000Z", epoch_isTimestamp⟩

def sampleEvidence : TrustPromotionEvidence where
  runCount := ⟨1, one_le_million⟩
  violations := ⟨0, by decide⟩
  errors := ⟨0, by decide⟩
  evals := [⟨sampleEval, .passed, epoch⟩]
  observedAt := epoch

def evidenceValue : JsValue :=
  .object [("runCount", integer 1), ("violations", integer 0), ("errors", integer 0),
    ("evals", .array [.object [("id", .string "smoke"), ("status", .string "passed"),
      ("completedAt", .string "1970-01-01T00:00:00.000Z")]]),
    ("observedAt", .string "1970-01-01T00:00:00.000Z")]

def testOptions : Options := ⟨.ok⟩

theorem samples_accepted : validateTarget targetValue = .ok sampleTarget ∧ validatePolicy policyValue = .ok samplePolicy ∧
    validateEvidence evidenceValue = .ok sampleEvidence ∧ validateOwner ownerValue = .ok sampleOwner ∧
      trustLevel (.string "shadow") "Trust promotion level" = .ok .shadow ∧
        assertPromotable createLocalSyntheticTrustCapabilities sampleTarget samplePolicy sampleEvidence .shadow
          (entryAt sampleTarget .simulate 0) 0 = .ok () := by decide +kernel

def promotionEvent : Event :=
  ⟨.promote targetValue (.string "shadow") policyValue evidenceValue ownerValue, some 0⟩

def rollbackEvent : Event := ⟨.rollbackToApproval targetValue policyValue ownerValue (.string "reset"), some 0⟩

def promotedEvent : Text 80 := ⟨"trust.promoted", by decide +kernel⟩

def rolledBackEvent : Text 80 := ⟨"trust.rollback_to_approval", by decide +kernel⟩

def promotionText : Text 200 := ⟨"verified owner own approved promotion", by decide +kernel⟩

def resetText : Text 200 := ⟨"reset", by decide +kernel⟩

theorem printable_zero : Printable 0 := by
  rw [Printable]
  decide +kernel

theorem locked_empty {α : Type} {operation : Int → Op α} {a : α} {state : TrustLadderState}
    (hRun : operation 0 emptyState = (.ok a, state)) (hValid : Valid state) :
    locked operation (some 0) none = .ok state := by
  rw [locked, format_accepts.mutate_of (show format.read none = .ok emptyState from rfl) (by decide) hRun hValid]
  rfl

theorem take_promotion : take testOptions none promotionEvent =
    some (movedState sampleTarget .shadow promotedEvent promotionText 0) := by
  obtain ⟨hTarget, hPolicy, hEvidence, hOwner, hLevel, hPromotable⟩ := samples_accepted
  have hRun : promoteOp createLocalSyntheticTrustCapabilities sampleTarget samplePolicy sampleEvidence .shadow
      sampleOwner 0 emptyState =
        (.ok (entryAt sampleTarget .shadow 0), movedState sampleTarget .shadow promotedEvent promotionText 0) := by
    rw [promoteOp, bind_of_ok (findOrCreateTarget_empty sampleTarget 0), hPromotable, lift_bind]
    exact moveLone sampleTarget .shadow promotedEvent promotionText 0
  have hPerform : perform testOptions (some 0) none promotionEvent.call =
      .ok (movedState sampleTarget .shadow promotedEvent promotionText 0) := by
    rw [promotionEvent, perform, hTarget, ok_bind, hPolicy, ok_bind, hEvidence, ok_bind, hLevel, ok_bind, testOptions,
      ok_bind, hOwner, ok_bind]
    exact locked_empty hRun (valid_movedState _ _ _ _ printable_zero)
  rw [take, show promotionEvent.clock = some 0 from rfl, hPerform]

theorem take_rollback : take testOptions none rollbackEvent =
    some (movedState sampleTarget .approve rolledBackEvent resetText 0) := by
  obtain ⟨hTarget, hPolicy, -, hOwner, -⟩ := samples_accepted
  have hRun : rollbackToApprovalOp sampleTarget resetText 0 emptyState =
      (.ok (entryAt sampleTarget .approve 0), movedState sampleTarget .approve rolledBackEvent resetText 0) := by
    rw [rollbackToApprovalOp, bind_of_ok (findOrCreateTarget_empty sampleTarget 0)]
    exact moveLone sampleTarget .approve rolledBackEvent resetText 0
  have hReason : text fail (.string "reset") "Trust rollback reason" 200 = .ok resetText := text_val resetText _
  have hPerform : perform testOptions (some 0) none rollbackEvent.call =
      .ok (movedState sampleTarget .approve rolledBackEvent resetText 0) := by
    rw [rollbackEvent, perform, hTarget, ok_bind, hPolicy, ok_bind, testOptions, ok_bind, hOwner, ok_bind, hReason,
      ok_bind]
    exact locked_empty hRun (valid_movedState _ _ _ _ printable_zero)
  rw [take, show rollbackEvent.clock = some 0 from rfl, hPerform]

theorem stands_movedState (level : TrustLevel) (event : Text 80) (reason : Text 200) :
    stands (some (movedState sampleTarget level event reason 0)) sampleTarget = (level, .closed) := by
  rw [stands, posture]
  have hFind : (movedState sampleTarget level event reason 0).targets.find? (TrustTargetState.isFor sampleTarget) =
      some (entryAt sampleTarget level 0) := List.find?_cons_of_pos (isFor_iff.mpr rfl)
  rw [Option.getD_some, hFind]
  rfl

theorem shadow_promoted_on_evidence :
    (stands none sampleTarget).1.rank < (stands (take testOptions none promotionEvent) sampleTarget).1.rank ∧
      PromotedOnEvidence none promotionEvent sampleTarget .shadow := by
  have hStands : stands (take testOptions none promotionEvent) sampleTarget = (.shadow, .closed) := by
    rw [take_promotion, stands_movedState]
  have hRaised : (stands none sampleTarget).1.rank <
      (stands (take testOptions none promotionEvent) sampleTarget).1.rank := by
    rw [hStands]
    decide
  have hPromoted := (level_raised_only_on_evidence testOptions [] none .start).1 promotionEvent _ trivial rfl
    sampleTarget hRaised
  rw [hStands] at hPromoted
  exact ⟨hRaised, hPromoted⟩

/-- A rollback takes a target that was never promoted from simulate to approve. -/
theorem rollback_raises_fresh_target : ∃ store', (machine testOptions).FreeRun [rollbackEvent] store' ∧
    (machine testOptions).step none rollbackEvent = some store' ∧
    (stands none sampleTarget).1 = .simulate ∧ (stands store' sampleTarget).1 = .approve ∧
    ¬PromotedOnEvidence none rollbackEvent sampleTarget .approve := by
  refine ⟨_, Machine.Run.next .start trivial rfl, rfl, rfl, ?_, ?_⟩
  · change (stands (take testOptions none rollbackEvent) sampleTarget).1 = .approve
    rw [take_rollback, stands_movedState]
  · rintro ⟨_, _, _, _, _, _, _, _, hCall, _⟩
    cases hCall

end GhostApi.Trust
