import GhostApi.Actions.Gateway

/-!
# What the gateway keeps

The contract says what the gateway needs of the parts that it was built over:
a file holds what was last written to it, a failing write leaves the old or
the new content, and nothing but adapter.execute runs the action. Under it
every call of submit and execute, and every point where it may stop, leaves a
record that is chained, spells a word of the receipt language, and was
attempted whenever the adapter ran.
-/

namespace GhostApi.Actions

open Js Validation Effect Effect.Program Safety

/-- The stored record of an action and how often its adapter was run. -/
structure View where
  record : Option StoredAction
  executions : Nat

structure Good (actionId : Identifier) (v : View) : Prop where
  fresh : v.record = none → v.executions = 0
  once : v.executions ≤ 1
  attempted : ∀ record, v.record = some record → v.executions = 1 → .attempted ∈ record.word
  own : ∀ record, v.record = some record →
    record.Valid ∧ record.envelope.actionId = actionId ∧ record.word ∈ receiptWords

/-- How a submit may change a record that exists: not at all. -/
def Kept (record : StoredAction) (after : Option StoredAction) : Prop := after = some record

/-- How an execute may change a record: it adds receipts, and none to a verified one. -/
def Grown (record : StoredAction) (after : Option StoredAction) : Prop :=
  ∃ record', after = some record' ∧ record.Extends record' ∧ (.verified ∈ record.word → record' = record)

theorem kept_refl (record : StoredAction) : Kept record (some record) := rfl

theorem grown_refl (record : StoredAction) : Grown record (some record) :=
  ⟨record, rfl, record.extends_refl, fun _ => rfl⟩

theorem Good.extended {actionId : Identifier} {record record' : StoredAction} {n : Nat}
    (h : Good actionId ⟨some record, n⟩) (hExtends : record.Extends record') (hWord : record'.word ∈ receiptWords)
    (hValid : record'.Valid) : Good actionId ⟨some record', n⟩ where
  fresh := by rintro ⟨⟩
  once := h.once
  attempted := by
    rintro _ ⟨⟩ hRan
    exact hExtends.mem_word (h.attempted record rfl hRan)
  own := by
    rintro _ ⟨⟩
    refine ⟨hValid, ?_, hWord⟩
    rw [hExtends.envelope_eq.1]
    exact (h.own record rfl).2.1

section Contract

variable {σ Op : Type} {Ans : Op → Type} {χ Lease : Type}

/-- A step that leaves the record and the run count alone. -/
def Quiet (view : σ → View) (rel : σ → σ → Prop) (s t : σ) : Prop := rel s t ∧ view t = view s

structure Contract (env : Environment σ Op Ans JsError χ) (guard : Op → σ → Prop) (gateway : Gateway Op Ans Lease)
    (actionId : Identifier) (view : σ → View) (rel : σ → σ → Prop) (admitted : SafetyAction → σ → Prop) :
    Prop where
  refl : ∀ s, rel s s
  trans : ∀ {s t u}, rel s t → rel t u → rel s u
  lasting : ∀ {s t action}, rel s t → admitted action s → admitted action t
  now : gateway.now.Stays env guard (Quiet view rel)
  randomUUID : gateway.randomUUID.Stays env guard (Quiet view rel)
  verifyProvenance : ∀ action approval phase,
    (gateway.verifyProvenance action approval phase).Stays env guard (Quiet view rel)
  supports : ∀ operation, (gateway.supports operation).Stays env guard (Quiet view rel)
  plan : ∀ action, (gateway.plan action).Stays env guard (Quiet view rel)
  simulate : ∀ action, (gateway.simulate action).Stays env guard (Quiet view rel)
  adapterVerify : ∀ action, (gateway.adapterVerify action).Stays env guard (Quiet view rel)
  complete : ∀ lease outcome, (gateway.complete lease outcome).Stays env guard (Quiet view rel)
  readFile : ∀ s, (gateway.readFile actionId).Ensures env guard (Quiet view rel s)
    (OnOk fun record t => record = (view t).record) s
  writeFile : ∀ s record, (gateway.writeFile actionId record).Ensures env guard
    (fun t => rel s t ∧ (view t = view s ∨ view t = ⟨some record, (view s).executions⟩))
    (OnOk fun _ t => view t = ⟨some record, (view s).executions⟩) s
  adapterExecute : ∀ s action lease, action.actionId = actionId →
    (gateway.adapterExecute action lease).Ensures env guard
      (fun t => rel s t ∧ (view t = view s ∨ view t = ⟨(view s).record, (view s).executions + 1⟩))
      (fun _ _ => True) s
  admitAction : ∀ s action, (gateway.admitAction action).Ensures env guard (Quiet view rel s)
    (OnOk fun safety t => safety.replay = false → admitted action t) s

/-- The invariant of an action: an attempted one was admitted by the safety controller. -/
structure Standing (actionId : Identifier) (view : σ → View) (admitted : SafetyAction → σ → Prop) (t : σ) :
    Prop where
  good : Good actionId (view t)
  charged : ∀ record, (view t).record = some record → .attempted ∈ record.word →
    admitted (safetyAction record.envelope record.actionHash) t

/-- What holds at every call of a gateway program that was started in a world. -/
structure Sound (actionId : Identifier) (view : σ → View) (rel : σ → σ → Prop) (admitted : SafetyAction → σ → Prop)
    (change : StoredAction → Option StoredAction → Prop) (origin t : σ) : Prop
    extends Standing actionId view admitted t where
  rel : rel origin t
  changed : ∀ record, (view origin).record = some record → change record (view t).record

variable {env : Environment σ Op Ans JsError χ} {guard : Op → σ → Prop} {gateway : Gateway Op Ans Lease}
  {actionId : Identifier} {view : σ → View} {rel : σ → σ → Prop} {admitted : SafetyAction → σ → Prop}
  {change : StoredAction → Option StoredAction → Prop} {origin s : σ} {v : View} {α β : Type}

namespace Contract

abbrev At (actionId : Identifier) (view : σ → View) (rel : σ → σ → Prop) (admitted : SafetyAction → σ → Prop)
    (change : StoredAction → Option StoredAction → Prop) (origin : σ) (v : View) (s : σ) : Prop :=
  Sound actionId view rel admitted change origin s ∧ view s = v

/-- The receipt that execute returns is the last one of the record. -/
def Returned (view : σ → View) (receipt : ActionExecutionReceipt) (t : σ) : Prop :=
  receipt.status = .verified ∧ ∃ record, (view t).record = some record ∧ record.receipts.getLast? = some receipt

theorem grown_of_extends {record before : StoredAction} (hOrigin : (view origin).record = some before) (hOpen : .verified ∉ before.word)
    (hExtends : before.Extends record) (found : StoredAction) (hFound : (view origin).record = some found) :
    Grown found (some record) := by
  rw [hOrigin] at hFound
  cases hFound
  exact ⟨record, rfl, hExtends, fun h => absurd h hOpen⟩

theorem charged_of_at {record : StoredAction} {n : Nat}
    (h : At actionId view rel admitted change origin ⟨some record, n⟩ s)
    (hAttempted : .attempted ∈ record.word) : admitted (safetyAction record.envelope record.actionHash) s :=
  h.1.charged record (by rw [h.2]) hAttempted

theorem returned_push {record : StoredAction} {n : Nat} {receipt : ActionExecutionReceipt}
    (hStatus : receipt.status = .verified)
    (hView : view s = ⟨some (record.push receipt), n⟩) : Returned view receipt s := by
  refine ⟨hStatus, record.push receipt, by rw [hView], ?_⟩
  simp [StoredAction.push]

variable (contract : Contract env guard gateway actionId view rel admitted)

include contract

theorem sound_start (hChange : ∀ record, change record (some record)) (h : Standing actionId view admitted s) :
    Sound actionId view rel admitted change s s :=
  { h with
    rel := contract.refl s
    changed := by
      intro record hRecord
      rw [hRecord]
      exact hChange record }

theorem sound_quiet {t : σ} (h : Sound actionId view rel admitted change origin s) (hQuiet : Quiet view rel s t) :
    Sound actionId view rel admitted change origin t where
  rel := contract.trans h.rel hQuiet.1
  good := by
    rw [hQuiet.2]
    exact h.good
  charged record hRecord hAttempted := by
    rw [hQuiet.2] at hRecord
    exact contract.lasting hQuiet.1 (h.charged record hRecord hAttempted)
  changed := by
    rw [hQuiet.2]
    exact h.changed

theorem at_quiet {t : σ} (h : At actionId view rel admitted change origin v s) (hQuiet : Quiet view rel s t) :
    At actionId view rel admitted change origin v t :=
  ⟨contract.sound_quiet h.1 hQuiet, hQuiet.2.trans h.2⟩

theorem quiet_bind {p : Program Op Ans JsError α} {R : Except JsError α → σ → Prop}
    {f : α → Program Op Ans JsError β} {P : β → σ → Prop}
    (hp : p.Ensures env guard (Quiet view rel s) R s) (h : At actionId view rel admitted change origin v s)
    (hNext : ∀ a t, R (.ok a) t → Quiet view rel s t → At actionId view rel admitted change origin v t →
      (f a).Ensures env guard (Sound actionId view rel admitted change origin) (OnOk P) t) :
    (p >>= f).Ensures env guard (Sound actionId view rel admitted change origin) (OnOk P) s := by
  refine hp.andThen (fun t hQuiet => contract.sound_quiet h.1 hQuiet) (fun _ _ _ _ => trivial) ?_
  intro a t hQuiet hResult
  exact hNext a t hResult hQuiet (contract.at_quiet h hQuiet)

theorem current_quiet (s : σ) : gateway.current.Ensures env guard (Quiet view rel s) (fun _ _ => True) s := by
  refine (contract.now s).andThen (fun _ h => h) (fun _ _ _ _ => trivial) ?_
  intro clock t hQuiet _
  cases clock with
  | none => exact ⟨hQuiet, trivial⟩
  | some ms =>
    apply ensures_throwIf_bind hQuiet (fun _ => trivial)
    intro _
    exact ⟨hQuiet, trivial⟩

theorem createReceipt_quiet (record : StoredAction) (status : ActionReceiptStatus) (timestamp : Int)
    (providerRequestId result : JsValue) (failure : Option ActionFailure) (s : σ) :
    (gateway.createReceipt record status timestamp providerRequestId result failure).Ensures env guard
      (Quiet view rel s) (OnOk fun receipt _ => receipt.status = status) s := by
  refine (contract.randomUUID s).andThen (fun _ h => h) (fun _ _ _ _ => trivial) ?_
  intro uuid t hQuiet _
  apply ensures_lift_bind hQuiet (fun _ _ => trivial)
  intro receiptId _
  apply ensures_lift_bind hQuiet (fun _ _ => trivial)
  intro time _
  apply ensures_lift_bind hQuiet (fun _ _ => trivial)
  intro provider _
  apply ensures_lift_bind hQuiet (fun _ _ => trivial)
  intro normalized _
  exact ⟨hQuiet, rfl⟩

theorem issue_quiet (record : StoredAction) (status : ActionReceiptStatus) (timestamp : Int)
    (providerRequestId result : JsValue) (failure : Option ActionFailure) (s : σ) :
    (gateway.issue record status timestamp providerRequestId result failure).Ensures env guard
      (Quiet view rel s) (OnOk fun issued _ => issued.1.status = status ∧ issued.2 = record.push issued.1) s := by
  refine (contract.createReceipt_quiet record status timestamp providerRequestId result failure s).andThen
    (fun _ h => h) (fun _ _ _ _ => trivial) ?_
  intro receipt t hQuiet hStatus
  apply ensures_lift_bind hQuiet (fun _ _ => trivial)
  intro record' hAppend
  exact ⟨hQuiet, hStatus, appendReceipt_ok hAppend⟩

theorem readStoredAction_quiet (required : Bool) (s : σ) :
    (gateway.readStoredAction actionId required).Ensures env guard (Quiet view rel s)
      (OnOk fun record t => record = (view t).record) s := by
  refine (contract.readFile s).andThen (fun _ h => h) (fun _ _ _ _ => trivial) ?_
  intro found t hQuiet hFound
  cases found with
  | none =>
    apply ensures_throwIf_bind hQuiet (fun _ => trivial)
    intro _
    exact ⟨hQuiet, hFound⟩
  | some record =>
    dsimp only
    apply ensures_throwIf_bind hQuiet (fun _ => trivial)
    intro _
    apply ensures_lift_bind hQuiet (fun _ _ => trivial)
    intro record' hValid
    obtain ⟨_, rfl⟩ := validateStoredAction_eq_ok.mp hValid
    exact ⟨hQuiet, hFound⟩

theorem write_bind {record : StoredAction} {f : Unit → Program Op Ans JsError β} {P : β → σ → Prop}
    (h : At actionId view rel admitted change origin v s)
    (hGood : record.Valid → Good actionId ⟨some record, v.executions⟩)
    (hCharged : .attempted ∈ record.word → admitted (safetyAction record.envelope record.actionHash) s)
    (hChanged : ∀ before, (view origin).record = some before → change before (some record))
    (hNext : ∀ t, At actionId view rel admitted change origin ⟨some record, v.executions⟩ t →
      (f ()).Ensures env guard (Sound actionId view rel admitted change origin) (OnOk P) t) :
    (gateway.writeStoredAction actionId record >>= f).Ensures env guard
      (Sound actionId view rel admitted change origin) (OnOk P) s := by
  have hView : (view s).executions = v.executions := by rw [h.2]
  have hWritten : ∀ {t}, record.Valid → rel s t → view t = ⟨some record, (view s).executions⟩ →
      At actionId view rel admitted change origin ⟨some record, v.executions⟩ t := by
    intro t hValid hRel hStored
    rw [hView] at hStored
    refine ⟨⟨⟨?_, ?_⟩, contract.trans h.1.rel hRel, ?_⟩, hStored⟩
    · rw [hStored]
      exact hGood hValid
    · intro found hFound hAttempted
      rw [hStored] at hFound
      cases hFound
      exact contract.lasting hRel (hCharged hAttempted)
    · rw [hStored]
      exact hChanged
  apply Ensures.bind
  apply ensures_lift_bind h.1 (fun _ _ => trivial)
  intro record' hAccepted
  obtain ⟨hValid, rfl⟩ := validateStoredAction_eq_ok.mp hAccepted
  refine (contract.writeFile s record).mono ?_ ?_
  · rintro t ⟨hRel, hSame | hStored⟩
    · exact contract.sound_quiet h.1 ⟨hRel, hSame⟩
    · exact (hWritten hValid hRel hStored).1
  · rintro (e | ⟨⟩) t ⟨hRel, _⟩ hStored
    · trivial
    · exact hNext t (hWritten hValid hRel hStored)

theorem at_executed {record : StoredAction} {n : Nat} {t : σ} (hRel : rel s t) (hView : view t = ⟨some record, 1⟩)
    (hAttempted : .attempted ∈ record.word) (h : At actionId view rel admitted change origin ⟨some record, n⟩ s) :
    At actionId view rel admitted change origin ⟨some record, 1⟩ t := by
  obtain ⟨hSound, hBefore⟩ := h
  refine ⟨⟨⟨?_, ?_⟩, contract.trans hSound.rel hRel, ?_⟩, hView⟩
  · have hOwn := hSound.good.own record (by rw [hBefore])
    rw [hView]
    refine ⟨by rintro ⟨⟩, Nat.le_refl 1, ?_, ?_⟩
    · rintro _ ⟨⟩ _
      exact hAttempted
    · rintro _ ⟨⟩
      exact hOwn
  · intro found hFound hMem
    rw [hView] at hFound
    cases hFound
    exact contract.lasting hRel (hSound.charged record (by rw [hBefore]) hMem)
  · have hChanged := hSound.changed
    rw [hBefore] at hChanged
    rw [hView]
    exact hChanged

/-! ## Submitting -/

theorem submitAction_ensures {action : ActionEnvelope} (approval : ActionApproval) (policy : ActionPolicyCheck)
    (hId : action.actionId = actionId) (hStanding : Standing actionId view admitted s) :
    (gateway.submitAction action approval policy).Ensures env guard (Sound actionId view rel admitted Kept s)
      (OnOk fun record t => (view t).record = some record ∧ record.actionHash = actionHash action) s := by
  have h : At actionId view rel admitted Kept s (view s) s := ⟨contract.sound_start kept_refl hStanding, rfl⟩
  obtain rfl := hId
  apply contract.quiet_bind (contract.verifyProvenance action approval .submit s) h
  intro verification t _ _ h
  apply ensures_lift_bind h.1 (fun _ _ => trivial)
  intro _ _
  apply contract.quiet_bind (contract.current_quiet t) h
  intro current t _ _ h
  apply ensures_lift_bind h.1 (fun _ _ => trivial)
  intro _ _
  apply contract.quiet_bind (contract.readStoredAction_quiet false t) h
  intro found u (hFound : found = (view u).record) _ h
  rw [h.2] at hFound
  cases found with
  | some existing =>
    apply ensures_throwIf_bind h.1 (fun _ => trivial)
    intro hSame
    refine ⟨h.1, ?_, (not_not.mp hSame).1⟩
    rw [h.2]
    exact hFound.symm
  | none =>
    apply ensures_throwIf_bind h.1 (fun _ => trivial)
    intro _
    apply ensures_lift_bind h.1 (fun _ _ => trivial)
    intro _ _
    apply contract.quiet_bind (contract.createReceipt_quiet _ .requested current .undefined .undefined none u) h
    intro receipt w (hStatus : receipt.status = .requested) _ h
    have hFresh : (view s).executions = 0 := hStanding.good.fresh hFound.symm
    apply contract.write_bind h
    · intro hValid
      rw [hFresh]
      refine ⟨by rintro ⟨⟩, by simp, by rintro _ _ ⟨⟩, ?_⟩
      rintro _ ⟨⟩
      refine ⟨hValid, rfl, ?_⟩
      rw [StoredAction.word, List.map_singleton, hStatus]
      decide
    · intro hAttempted
      simp [StoredAction.word, hStatus] at hAttempted
    · intro before hBefore
      rw [← hFound] at hBefore
      cases hBefore
    · intro x h
      exact ⟨h.1, by rw [h.2], rfl⟩

theorem submit_ensures {actionValue : JsValue} (approvalValue : JsValue) (policy : ActionPolicyCheck)
    (hId : ∀ action, validateActionEnvelope actionValue = .ok action → action.actionId = actionId)
    (hStanding : Standing actionId view admitted s) :
    (gateway.submit actionValue approvalValue policy).Ensures env guard
      (Sound actionId view rel admitted Kept s) (fun _ _ => True) s := by
  have hStart := contract.sound_start kept_refl hStanding
  apply ensures_lift_bind hStart (fun _ _ => trivial)
  intro action hAction
  apply ensures_lift_bind hStart (fun _ _ => trivial)
  intro approval _
  exact (contract.submitAction_ensures approval policy (hId action hAction) hStanding).mono (fun _ h => h)
    fun _ _ _ _ => trivial

/-! ## Executing -/

section Execute

variable {record before : StoredAction} {n : Nat} {providerRequestId result : JsValue} {lease : Lease}

theorem issue_write_bind {status : ActionReceiptStatus} {timestamp : Int} {failure : Option ActionFailure}
    {f : ActionExecutionReceipt × StoredAction → Program Op Ans JsError β} {P : β → σ → Prop}
    (hOrigin : (view origin).record = some before) (hOpen : .verified ∉ before.word)
    (hExtends : before.Extends record) (hWord : record.word ++ [status] ∈ receiptWords)
    (hAttempted : .attempted ∈ record.word ++ [status] → admitted (safetyAction record.envelope record.actionHash) s)
    (h : At actionId view rel admitted Grown origin ⟨some record, n⟩ s)
    (hNext : ∀ receipt t, receipt.status = status →
      At actionId view rel admitted Grown origin ⟨some (record.push receipt), n⟩ t →
      (f (receipt, record.push receipt)).Ensures env guard (Sound actionId view rel admitted Grown origin)
        (OnOk P) t) :
    (do
      let issued ← gateway.issue record status timestamp providerRequestId result failure
      gateway.writeStoredAction actionId issued.2
      f issued).Ensures env guard (Sound actionId view rel admitted Grown origin) (OnOk P) s := by
  apply contract.quiet_bind (contract.issue_quiet record status timestamp providerRequestId result failure s) h
  rintro ⟨receipt, record'⟩ t ⟨hStatus, hPush⟩ hQuiet h
  obtain rfl : record' = record.push receipt := hPush
  have hPushed : (record.push receipt).word = record.word ++ [status] := by
    rw [StoredAction.word_push]
    exact congrArg (record.word ++ [·]) hStatus
  apply contract.write_bind h
  · intro hValid
    have hGood := h.1.good
    rw [h.2] at hGood
    exact hGood.extended (record.extends_refl.push receipt) (hPushed ▸ hWord) hValid
  · intro hMem
    exact contract.lasting hQuiet.1 (hAttempted (hPushed ▸ hMem))
  · exact grown_of_extends hOrigin hOpen (hExtends.push receipt)
  · intro u h
    exact hNext receipt u hStatus h

theorem abandon_ensures (shortfall : Shortfall) (hOrigin : (view origin).record = some before)
    (hOpen : .verified ∉ before.word) (hExtends : before.Extends record) (hAttempted : .attempted ∈ record.word)
    (hWord : record.word ++ [.failed] ∈ receiptWords)
    (h : At actionId view rel admitted Grown origin ⟨some record, n⟩ s) :
    (gateway.abandon actionId record lease shortfall providerRequestId result).Ensures env guard
      (Sound actionId view rel admitted Grown origin) (OnOk (Returned view)) s := by
  apply contract.quiet_bind (contract.complete lease shortfall.outcome s) h
  intro _ t _ _ h
  apply contract.quiet_bind (contract.current_quiet t) h
  intro current u _ _ h
  apply contract.issue_write_bind hOrigin hOpen hExtends hWord (fun _ => charged_of_at h hAttempted) h
  intro receipt w _ h
  exact ⟨h.1, trivial⟩

theorem confirm_ensures (hOrigin : (view origin).record = some before) (hOpen : .verified ∉ before.word)
    (hExtends : before.Extends record) (hWord : record.word = [.requested, .attempted])
    (h : At actionId view rel admitted Grown origin ⟨some record, n⟩ s) :
    (gateway.confirm actionId record lease providerRequestId result).Ensures env guard
      (Sound actionId view rel admitted Grown origin) (OnOk (Returned view)) s := by
  apply contract.quiet_bind (contract.current_quiet s) h
  intro current t _ _ h
  have hCommitted : record.word ++ [.committed] ∈ receiptWords := by
    rw [hWord]
    decide
  apply contract.issue_write_bind hOrigin hOpen hExtends hCommitted
    (fun _ => charged_of_at h (by simp [hWord])) h
  intro receipt u hStatus h
  have hPushed : (record.push receipt).word = [.requested, .attempted, .committed] := by
    rw [StoredAction.word_push, hWord, hStatus]
    rfl
  apply contract.quiet_bind (contract.adapterVerify record.envelope u) h
  intro verification w _ _ h
  cases hProof : verification.incomplete with
  | true =>
    exact contract.abandon_ensures verificationFailed hOrigin hOpen (hExtends.push receipt) (by simp [hPushed])
      (by rw [hPushed]; decide) h
  | false =>
    apply contract.quiet_bind (contract.current_quiet w) h
    intro later x _ _ h
    apply contract.issue_write_bind hOrigin hOpen (hExtends.push receipt) (by rw [hPushed]; decide)
      (fun _ => charged_of_at h (by simp [hPushed])) h
    intro verified y hVerified h
    apply contract.quiet_bind (contract.complete lease successOutcome y) h
    intro _ z _ _ h
    exact ⟨h.1, returned_push hVerified h.2⟩

theorem reconcileCommitted_ensures (current : Int) (hOrigin : (view origin).record = some record)
    (hCommitted : .committed ∈ record.word) (hOpen : .verified ∉ record.word) (hAttempted : .attempted ∈ record.word)
    (hWord : record.word ∈ receiptWords) (h : At actionId view rel admitted Grown origin ⟨some record, n⟩ s) :
    (gateway.reconcileCommitted actionId record current).Ensures env guard
      (Sound actionId view rel admitted Grown origin) (OnOk (Returned view)) s := by
  apply contract.quiet_bind (contract.adapterVerify record.envelope s) h
  intro reconciliation t _ _ h
  apply ensures_throwIf_bind h.1 (fun _ => trivial)
  intro _
  apply contract.issue_write_bind hOrigin hOpen record.extends_refl (append_verified_mem hWord hCommitted hOpen)
    (fun _ => charged_of_at h hAttempted) h
  intro receipt u hStatus h
  exact ⟨h.1, returned_push hStatus h.2⟩

theorem reconcileAttempted_ensures (current : Int) (hOrigin : (view origin).record = some record)
    (hCommitted : .committed ∉ record.word) (hOpen : .verified ∉ record.word) (hAttempted : .attempted ∈ record.word)
    (hWord : record.word ∈ receiptWords) (h : At actionId view rel admitted Grown origin ⟨some record, n⟩ s) :
    (gateway.reconcileAttempted actionId record current).Ensures env guard
      (Sound actionId view rel admitted Grown origin) (OnOk (Returned view)) s := by
  apply contract.quiet_bind (contract.adapterVerify record.envelope s) h
  intro reconciliation t _ _ h
  apply ensures_throwIf_bind h.1 (fun _ => trivial)
  intro _
  apply contract.quiet_bind (contract.issue_quiet record .committed current _ _ none t) h
  rintro ⟨committed, record'⟩ u ⟨hStatus, hPush⟩ _ h
  obtain rfl : record' = record.push committed := hPush
  apply contract.quiet_bind (contract.issue_quiet (record.push committed) .verified current _ _ none u) h
  rintro ⟨verified, record''⟩ w ⟨hVerified, hPush⟩ _ h
  obtain rfl : record'' = (record.push committed).push verified := hPush
  -- The record is written once, with both receipts.
  have hPushed : ((record.push committed).push verified).word = record.word ++ [.committed] ++ [.verified] := by
    rw [StoredAction.word_push, StoredAction.word_push]
    exact congrArg₂ (record.word ++ [·] ++ [·]) hStatus hVerified
  apply contract.write_bind h
  · intro hValid
    have hGood := h.1.good
    rw [h.2] at hGood
    refine hGood.extended ((record.extends_refl.push committed).push verified) ?_ hValid
    rw [hPushed]
    exact append_committed_verified_mem hWord hAttempted hCommitted hOpen
  · intro _
    have hCharged := charged_of_at h hAttempted
    exact hCharged
  · exact grown_of_extends hOrigin hOpen ((record.extends_refl.push committed).push verified)
  · intro x h
    exact ⟨h.1, returned_push hVerified h.2⟩

theorem attempt_ensures (current : Int) (hOrigin : (view origin).record = some record)
    (hWord : record.word = [.requested]) (hId : record.envelope.actionId = actionId) (hFresh : n = 0)
    (h : At actionId view rel admitted Grown origin ⟨some record, n⟩ s) :
    (gateway.attempt actionId record current).Ensures env guard
      (Sound actionId view rel admitted Grown origin) (OnOk (Returned view)) s := by
  have hOpen : .verified ∉ record.word := by simp [hWord]
  apply ensures_throwIf_bind h.1 (fun _ => trivial)
  intro _
  apply ensures_lift_bind h.1 (fun _ _ => trivial)
  intro _ _
  apply contract.quiet_bind (contract.plan record.envelope s) h
  intro _ t _ _ h
  apply contract.quiet_bind (contract.simulate record.envelope t) h
  intro _ u _ _ h
  apply contract.quiet_bind (contract.admitAction u (safetyAction record.envelope record.actionHash)) h
  intro safety w hAdmitted _ h
  apply ensures_throwIf_bind h.1 (fun _ => trivial)
  intro hOriginal
  apply contract.issue_write_bind hOrigin hOpen record.extends_refl (by rw [hWord]; decide)
    (fun _ => hAdmitted (by simpa using hOriginal)) h
  intro receipt x hStatus h
  have hPushed : (record.push receipt).word = [.requested, .attempted] := by
    rw [StoredAction.word_push, hWord, hStatus]
    rfl
  have hExtends := record.extends_refl.push receipt
  have hAttempted : .attempted ∈ (record.push receipt).word := by simp [hPushed]
  have hFailed : (record.push receipt).word ++ [.failed] ∈ receiptWords := by
    rw [hPushed]
    decide
  have hRan : ∀ y, rel x y ∧ (view y = view x ∨ view y = ⟨(view x).record, (view x).executions + 1⟩) →
      ∃ m, At actionId view rel admitted Grown origin ⟨some (record.push receipt), m⟩ y := by
    rintro y ⟨hRel, hSame | hOnce⟩
    · exact ⟨n, contract.at_quiet h ⟨hRel, hSame⟩⟩
    · refine ⟨1, contract.at_executed hRel ?_ hAttempted h⟩
      rw [hOnce, h.2, hFresh]
  apply Ensures.caught (contract.adapterExecute x record.envelope safety.lease hId)
  · intro y hy
    obtain ⟨m, h⟩ := hRan y hy
    exact h.1
  · intro execution y hy
    obtain ⟨m, h⟩ := hRan y hy
    match execution with
    | none => exact contract.abandon_ensures executionFailed hOrigin hOpen hExtends hAttempted hFailed h
    | some .unknown => exact contract.abandon_ensures outcomeUnknown hOrigin hOpen hExtends hAttempted hFailed h
    | some (.committed providerRequestId result) => exact contract.confirm_ensures hOrigin hOpen hExtends hPushed h

theorem proceed_ensures (current : Int) (hOrigin : (view origin).record = some record)
    (h : At actionId view rel admitted Grown origin ⟨some record, n⟩ s) :
    (gateway.proceed actionId record current).Ensures env guard
      (Sound actionId view rel admitted Grown origin) (OnOk (Returned view)) s := by
  have hGood := h.1.good
  rw [h.2] at hGood
  obtain ⟨_, hId, hWord⟩ := hGood.own record rfl
  rw [Gateway.proceed]
  cases hVerified : findLatestReceipt record.receipts .verified with
  | some verified =>
    refine ⟨h.1, findLatestReceipt_status hVerified, record, by rw [h.2], ?_⟩
    exact getLast_of_findLatest_verified hWord hVerified
  | none =>
    have hOpen := findLatestReceipt_eq_none.mp hVerified
    cases hCommitted : findLatestReceipt record.receipts .committed with
    | some committed =>
      have hMem := findLatestReceipt_mem hCommitted
      exact contract.reconcileCommitted_ensures current hOrigin hMem hOpen (attempted_of_committed hWord hMem) hWord h
    | none =>
      have hOutstanding := findLatestReceipt_eq_none.mp hCommitted
      cases hAttempted : findLatestReceipt record.receipts .attempted with
      | some attempted =>
        exact contract.reconcileAttempted_ensures current hOrigin hOutstanding hOpen
          (findLatestReceipt_mem hAttempted) hWord h
      | none =>
        have hNew := findLatestReceipt_eq_none.mp hAttempted
        refine contract.attempt_ensures current hOrigin (eq_requested_of_mem hWord hNew) hId ?_ h
        have hOnce := hGood.once
        have hNever : n ≠ 1 := fun hRan => hNew (hGood.attempted record rfl hRan)
        simp only at hOnce
        omega

end Execute

theorem executeAction_ensures {requested : ActionEnvelope} (identity : ActionExecutionIdentity)
    (policy : ActionPolicyCheck) (hId : requested.actionId = actionId)
    (hStanding : Standing actionId view admitted s) :
    (gateway.executeAction requested identity policy).Ensures env guard
      (Sound actionId view rel admitted Grown s) (OnOk (Returned view)) s := by
  have h : At actionId view rel admitted Grown s (view s) s := ⟨contract.sound_start grown_refl hStanding, rfl⟩
  obtain rfl := hId
  apply contract.quiet_bind (contract.readStoredAction_quiet true s) h
  intro found t (hFound : found = (view t).record) _ h
  rw [h.2] at hFound
  cases found with
  | none => exact ⟨h.1, trivial⟩
  | some record =>
    apply contract.quiet_bind (contract.verifyProvenance record.envelope record.approval .execute t) h
    intro verification u _ _ h
    apply ensures_lift_bind h.1 (fun _ _ => trivial)
    intro _ _
    apply contract.quiet_bind (contract.current_quiet u) h
    intro current w _ _ h
    apply ensures_lift_bind h.1 (fun _ _ => trivial)
    intro _ _
    apply contract.quiet_bind (contract.supports record.envelope.operation w) h
    intro supported x _ _ h
    apply ensures_throwIf_bind h.1 (fun _ => trivial)
    intro _
    refine contract.proceed_ensures current hFound.symm (n := (view s).executions) ⟨h.1, ?_⟩
    rw [h.2, hFound]

theorem execute_ensures {actionValue : JsValue} (identity : ActionExecutionIdentity) (policy : ActionPolicyCheck)
    (hId : ∀ action, validateActionEnvelope actionValue = .ok action → action.actionId = actionId)
    (hStanding : Standing actionId view admitted s) :
    (gateway.execute actionValue identity policy).Ensures env guard
      (Sound actionId view rel admitted Grown s) (fun _ _ => True) s := by
  apply ensures_lift_bind (contract.sound_start grown_refl hStanding) (fun _ _ => trivial)
  intro requested hRequested
  exact (contract.executeAction_ensures identity policy (hId requested hRequested) hStanding).mono (fun _ h => h)
    fun _ _ _ _ => trivial

end Contract

/-! ## Calls -/

/-- The action that a caller names; any action if the envelope is refused. -/
def namedAction (value : JsValue) : Identifier := match validateActionEnvelope value with
  | .ok action => action.actionId
  | .error _ => localOrganization

theorem namedAction_eq {value : JsValue} (action : ActionEnvelope) (h : validateActionEnvelope value = .ok action) :
    action.actionId = namedAction value := by rw [namedAction, h]

theorem GatewayCall.ensures {view : Identifier → σ → View} {rel : Identifier → σ → σ → Prop}
    (contract : ∀ actionId, Contract env guard gateway actionId (view actionId) (rel actionId) admitted)
    (h : ∀ actionId, Standing actionId (view actionId) admitted s) (call : GatewayCall) :
    (call.program gateway).Ensures env guard
      (fun t => ∃ actionId change, Sound actionId (view actionId) (rel actionId) admitted change s t)
      (fun _ _ => True) s := by
  cases call with
  | submit action approval policy =>
    refine ((contract (namedAction action)).submit_ensures approval policy namedAction_eq (h _)).andThen
      (fun _ hSound => ⟨_, _, hSound⟩) (fun _ _ _ _ => trivial) ?_
    intro _ after hSound _
    exact ⟨⟨_, _, hSound⟩, trivial⟩
  | execute action identity policy =>
    refine ((contract (namedAction action)).execute_ensures identity policy namedAction_eq (h _)).andThen
      (fun _ hSound => ⟨_, _, hSound⟩) (fun _ _ _ _ => trivial) ?_
    intro _ after hSound _
    exact ⟨⟨_, _, hSound⟩, trivial⟩

end Contract

end GhostApi.Actions
