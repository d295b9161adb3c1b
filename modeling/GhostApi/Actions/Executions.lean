import GhostApi.Actions.Contract
import GhostApi.Actions.Scripts

/-!
# Executions of an action

Callers submit and execute actions in any order, one at a time under the file
lock, and may stop before any call. The adapter, the approval verifier and the
safety controller answer as they like, and every read and write may fail.
-/

namespace GhostApi.Actions

open Js Validation Effect Effect.Program Safety

inductive Part
  | now
  | randomUUID
  | readFile (actionId : Identifier)
  | writeFile (actionId : Identifier) (record : StoredAction)
  | verifyProvenance (action : ActionEnvelope) (approval : ActionApproval) (phase : ApprovalPhase)
  | supports (operation : Identifier)
  | plan (action : ActionEnvelope)
  | simulate (action : ActionEnvelope)
  | adapterExecute (action : ActionEnvelope)
  | adapterVerify (action : ActionEnvelope)
  | admitAction (action : SafetyAction)
  | complete (outcome : SafetyOutcome)

abbrev Part.Answer : Part → Type
  | now => Option Int
  | randomUUID => String
  | readFile _ => Option StoredAction
  | writeFile _ _ => Unit
  | verifyProvenance _ _ _ => Option String
  | supports _ => Bool
  | plan _ => Unit
  | simulate _ => Unit
  | adapterExecute _ => ActionExecution
  | adapterVerify _ => ActionVerification
  | admitAction _ => Admitted Unit
  | complete _ => Unit

def ask (part : Part) : Program Part Part.Answer JsError part.Answer := Program.perform part

def gateway : Gateway Part Part.Answer Unit where
  now := ask .now
  randomUUID := ask .randomUUID
  readFile actionId := ask (.readFile actionId)
  writeFile actionId record := ask (.writeFile actionId record)
  verifyProvenance action approval phase := ask (.verifyProvenance action approval phase)
  supports operation := ask (.supports operation)
  plan action := ask (.plan action)
  simulate action := ask (.simulate action)
  adapterExecute action _ := ask (.adapterExecute action)
  adapterVerify action := ask (.adapterVerify action)
  admitAction action := ask (.admitAction action)
  complete _ outcome := ask (.complete outcome)

/-- The files of the actions, and how often the adapter was run for each. -/
structure Files where
  records : Identifier → Option StoredAction := fun _ => none
  executions : Identifier → Nat := fun _ => 0

def Files.store (files : Files) (actionId : Identifier) (record : StoredAction) : Files :=
  { files with records := Function.update files.records actionId (some record) }

def Files.count (files : Files) (actionId : Identifier) : Files :=
  { files with executions := Function.update files.executions actionId (files.executions actionId + 1) }

/-- An answer for each call, and whether a failing write has reached the file. -/
structure Choice where
  answer : (part : Part) → Except JsError part.Answer
  reached : Bool := false

def respond : (part : Part) → Choice → Files → Except JsError part.Answer × Files
  | .readFile actionId, choice, files => (do let _ ← choice.answer (.readFile actionId); return files.records actionId, files)
  | .writeFile actionId record, choice, files => match choice.answer (.writeFile actionId record) with
    | .ok _ => (.ok (), files.store actionId record)
    | .error e => (.error e, if choice.reached then files.store actionId record else files)
  | .adapterExecute action, choice, files => (choice.answer (.adapterExecute action), files.count action.actionId)
  | part, choice, files => (choice.answer part, files)

def environment : Environment Files Part Part.Answer JsError Choice where
  respond part choice files := some (respond part choice files)

def gatewayMachine : Transition.Machine (Session Files Part Part.Answer JsError) (SessionEvent GatewayCall Choice) :=
  Session.machine environment (GatewayCall.program gateway) {}

/-! ## The contract -/

def Files.view (actionId : Identifier) (files : Files) : View := ⟨files.records actionId, files.executions actionId⟩

def Files.Others (actionId : Identifier) (before after : Files) : Prop :=
  ∀ other ≠ actionId, after.view other = before.view other

theorem Files.others_store (files : Files) (actionId : Identifier) (record : StoredAction) :
    files.Others actionId (files.store actionId record) := by
  intro other hOther
  simp [Files.view, Files.store, hOther]

theorem Files.others_count (files : Files) (actionId : Identifier) :
    files.Others actionId (files.count actionId) := by
  intro other hOther
  simp [Files.view, Files.count, hOther]

theorem Files.view_store (files : Files) (actionId : Identifier) (record : StoredAction) :
    (files.store actionId record).view actionId = ⟨some record, files.executions actionId⟩ := by
  simp [Files.view, Files.store]

theorem Files.view_count (files : Files) (actionId : Identifier) :
    (files.count actionId).view actionId = ⟨files.records actionId, files.executions actionId + 1⟩ := by
  simp [Files.view, Files.count]

abbrev Unguarded (_ : Part) (_ : Files) : Prop := True

theorem ask_ensures (part : Part) {I : Files → Prop} {Q : Except JsError part.Answer → Files → Prop} {files : Files}
    (hI : I files) (h : ∀ choice, I (respond part choice files).2 ∧
      Q (respond part choice files).1 (respond part choice files).2) :
    (ask part).Ensures environment Unguarded I Q files := by
  refine ensures_perform hI fun _ choice reply after hReply => ?_
  have hAnswer := h choice
  rwa [Option.some.inj hReply] at hAnswer

theorem ask_stays (part : Part) {actionId : Identifier} (h : ∀ choice files, (respond part choice files).2 = files) :
    (ask part).Stays environment Unguarded (Quiet (Files.view actionId) (Files.Others actionId)) := by
  intro files
  refine ask_ensures part ⟨fun _ _ => rfl, rfl⟩ fun choice => ?_
  rw [h]
  exact ⟨⟨fun _ _ => rfl, rfl⟩, trivial⟩

theorem respond_readFile (actionId : Identifier) (choice : Choice) (files : Files) :
    (respond (.readFile actionId) choice files).2 = files ∧ OnOk (fun record (after : Files) =>
      record = (after.view actionId).record) (respond (.readFile actionId) choice files).1 files := by
  rw [respond]
  cases choice.answer (.readFile actionId) with
  | error e => exact ⟨rfl, trivial⟩
  | ok _ => exact ⟨rfl, rfl⟩

theorem respond_writeFile (actionId : Identifier) (record : StoredAction) (choice : Choice) (files : Files) :
    let after := (respond (.writeFile actionId record) choice files).2
    (files.Others actionId after ∧ (after.view actionId = files.view actionId ∨
      after.view actionId = ⟨some record, files.executions actionId⟩)) ∧
    OnOk (fun _ (after : Files) => after.view actionId = ⟨some record, files.executions actionId⟩)
      (respond (.writeFile actionId record) choice files).1 after := by
  rw [respond]
  cases choice.answer (.writeFile actionId record) with
  | ok _ =>
    exact ⟨⟨files.others_store actionId record, .inr (files.view_store actionId record)⟩,
      files.view_store actionId record⟩
  | error e =>
    refine ⟨?_, trivial⟩
    dsimp only
    split
    · exact ⟨files.others_store actionId record, .inr (files.view_store actionId record)⟩
    · exact ⟨fun _ _ => rfl, .inl rfl⟩

theorem gateway_contract (actionId : Identifier) : Contract environment Unguarded gateway actionId
    (Files.view actionId) (Files.Others actionId) (fun _ _ => True) where
  refl _ := fun _ _ => rfl
  trans hFirst hSecond := fun other hOther => (hSecond other hOther).trans (hFirst other hOther)
  lasting _ _ := trivial
  now := ask_stays .now fun _ _ => rfl
  randomUUID := ask_stays .randomUUID fun _ _ => rfl
  verifyProvenance action approval phase := ask_stays (.verifyProvenance action approval phase) fun _ _ => rfl
  supports operation := ask_stays (.supports operation) fun _ _ => rfl
  plan action := ask_stays (.plan action) fun _ _ => rfl
  simulate action := ask_stays (.simulate action) fun _ _ => rfl
  adapterVerify action := ask_stays (.adapterVerify action) fun _ _ => rfl
  complete _ outcome := ask_stays (.complete outcome) fun _ _ => rfl
  readFile files := by
    refine ask_ensures (.readFile actionId) ⟨fun _ _ => rfl, rfl⟩ fun choice => ?_
    obtain ⟨hSame, hRead⟩ := respond_readFile actionId choice files
    rw [hSame]
    exact ⟨⟨fun _ _ => rfl, rfl⟩, hRead⟩
  writeFile files record := by
    refine ask_ensures (.writeFile actionId record) ⟨fun _ _ => rfl, .inl rfl⟩ fun choice => ?_
    exact respond_writeFile actionId record choice files
  adapterExecute files action _ hId := by
    refine ask_ensures (.adapterExecute action) ⟨fun _ _ => rfl, .inl rfl⟩ fun choice => ⟨?_, trivial⟩
    rw [respond, hId]
    exact ⟨files.others_count actionId, .inr (files.view_count actionId)⟩
  admitAction files action := by
    refine ask_ensures (.admitAction action) ⟨fun _ _ => rfl, rfl⟩ fun choice => ⟨⟨fun _ _ => rfl, rfl⟩, ?_⟩
    cases (respond (.admitAction action) choice files).1 with
    | error e => trivial
    | ok safety => exact fun _ => trivial

/-! ## Runs -/

def AllStanding (files : Files) : Prop := ∀ actionId, Standing actionId (Files.view actionId) (fun _ _ => True) files

theorem AllStanding.of_sound {actionId : Identifier} {change : StoredAction → Option StoredAction → Prop}
    {before after : Files} (h : AllStanding before)
    (hSound : Sound actionId (Files.view actionId) (Files.Others actionId) (fun _ _ => True) change before after) :
    AllStanding after := by
  intro other
  by_cases hOther : other = actionId
  · rw [hOther]
    exact hSound.toStanding
  · refine ⟨?_, fun _ _ _ => trivial⟩
    rw [hSound.rel other hOther]
    exact (h other).good

theorem program_keeps (call : GatewayCall) (files : Files) (h : AllStanding files) :
    (call.program gateway).Ensures environment Unguarded AllStanding (fun _ _ => True) files := by
  refine (call.ensures gateway_contract h).mono ?_ fun _ _ _ _ => trivial
  rintro after ⟨actionId, change, hSound⟩
  exact h.of_sound hSound

theorem allStanding_initial : AllStanding {} := by
  intro actionId
  refine ⟨⟨fun _ => rfl, Nat.zero_le 1, ?_, ?_⟩, fun _ _ _ => trivial⟩
  all_goals rintro _ ⟨⟩

theorem gateway_standing {events : List (SessionEvent GatewayCall Choice)} {s : Session Files Part Part.Answer JsError}
    (run : gatewayMachine.FreeRun events s) : AllStanding s.world := by
  refine Session.run_invariant allStanding_initial program_keeps (run.mono fun s event _ => ?_)
  exact Session.allowed_of_forall (fun _ _ => trivial) s event

/-- In every run the adapter is run at most once for an action, and the stored receipts are hash-chained, spell a
word of the receipt language, stay below their limit and end at a verified one. -/
theorem executed_at_most_once (events : List (SessionEvent GatewayCall Choice))
    (s : Session Files Part Part.Answer JsError) (run : gatewayMachine.FreeRun events s) (actionId : Identifier) :
    s.world.executions actionId ≤ 1 ∧ ∀ record, s.world.records actionId = some record →
      receiptChain.Linked (receiptGenesisHash record.actionHash) record.receipts ∧
      (∀ receipt ∈ record.receipts, receipt.receiptHash = receipt.toReceiptBase.seal.receiptHash) ∧
      record.receipts.map (·.status) ∈ receiptLanguage.matches' ∧ record.receipts.length < MAX_RECEIPTS ∧
      ∀ before receipt after, record.receipts = before ++ receipt :: after → receipt.status = .verified →
        after = [] := by
  have hGood := (gateway_standing run actionId).good
  refine ⟨hGood.once, fun record hRecord => ?_⟩
  obtain ⟨hValid, _, hWord⟩ := hGood.own record hRecord
  refine ⟨hValid.linked, fun receipt hReceipt => (hValid.receipts receipt hReceipt).sealed,
    mem_receiptLanguage hWord, ?_, ?_⟩
  · have hLength := length_of_mem_receiptWords hWord
    rw [StoredAction.word, List.length_map] at hLength
    exact lt_of_le_of_lt hLength (by decide)
  · intro before receipt after hSplit hStatus
    have hLetters : record.word = before.map (·.status) ++ .verified :: after.map (·.status) := by
      rw [StoredAction.word, hSplit, List.map_append, List.map_cons, hStatus]
    exact List.map_eq_nil_iff.mp (eq_of_verified_mem hWord hLetters)

def favourable : Choice where
  answer
    | .now => .ok (some 0)
    | .randomUUID => .ok "a1"
    | .readFile _ => .ok none
    | .writeFile _ _ => .ok ()
    | .verifyProvenance _ _ _ => .ok none
    | .supports _ => .ok true
    | .plan _ => .ok ()
    | .simulate _ => .ok ()
    | .adapterExecute _ => .ok (.committed (.string firstName.val) smallResult.toValue)
    | .adapterVerify _ => .ok ⟨true, .string firstName.val, smallResult.toValue⟩
    | .admitAction _ => .ok ⟨(), false⟩
    | .complete _ => .ok ()

theorem ask_returns (part : Part) {files after : Files} {a : part.Answer}
    (h : respond part favourable files = (.ok a, after)) :
    Returns environment Unguarded (ask part) files a after :=
  reaches_perform trivial (congrArg some h)

theorem gateway_scripted : Scripted environment Unguarded gateway 0 "a1" where
  now files := ask_returns .now rfl
  randomUUID files := ask_returns .randomUUID rfl
  date := by decide
  printable := by
    rw [Printable]
    decide +kernel
  name := by decide +kernel

/-! ## The first action -/

def firstRequested : StoredAction := gateway_scripted.smallRequested firstName []

def firstVerified : StoredAction := gateway_scripted.smallVerified firstRequested

/-- The files once the small action was submitted. -/
def firstSubmitted : Files := ({} : Files).store firstName firstRequested

theorem small_accepted : validateActionEnvelope (smallAction firstName []).toValue = .ok (smallAction firstName []) :=
  validateActionEnvelope_toValue _ rfl

theorem first_submitted : ∃ events, gatewayMachine.Run (Session.Allowed Unguarded) events ⟨firstSubmitted, none⟩ := by
  let action := smallAction firstName []
  let approval := smallApproval action approverName
  have hStart : ∃ events, (Session.machine environment (GatewayCall.program gateway) {}).Run
      (Session.Allowed Unguarded) events ⟨{}, none⟩ := ⟨[], .start⟩
  have hSubmitted : Returns environment Unguarded (gateway.submitAction action approval smallPolicy) {} firstRequested
      firstSubmitted :=
    gateway_scripted.small_submitted (ask_returns (.verifyProvenance action approval .submit) rfl) rfl
      (ask_returns (.readFile firstName) rfl) (ask_returns (.writeFile firstName firstRequested) rfl)
  have hSubmit : Reaches environment Unguarded
      (GatewayCall.program gateway (.submit action.toValue approval.toValue smallPolicy)) {} (pure ()) firstSubmitted :=
    (reaches_lift_bind small_accepted (reaches_lift_bind (validateActionApproval_toValue approval) hSubmitted)).andThen
      (.refl _ _)
  exact Session.run_call hStart hSubmit

/-- From the submitted action on, a run executes and verifies it. -/
theorem first_executed : ∃ after : Files, after.executions firstName = 1 ∧ after.records firstName = some firstVerified ∧
    ∃ events, (gatewayMachine.resume ⟨firstSubmitted, none⟩).Run (Session.Allowed Unguarded) events ⟨after, none⟩ := by
  let action := smallAction firstName []
  let approval := smallApproval action approverName
  let attempted := gateway_scripted.smallAttempted firstRequested
  let committed := gateway_scripted.smallCommitted firstRequested
  let executed := (firstSubmitted.store firstName attempted).count firstName
  let after := (executed.store firstName committed).store firstName firstVerified
  have hRead : Returns environment Unguarded (gateway.readFile firstName) firstSubmitted (some firstRequested)
      firstSubmitted :=
    ask_returns (.readFile firstName) (by simp [respond, favourable, firstSubmitted, Files.store])
  have hExecuted := gateway_scripted.small_executed (Nat.zero_le _) hRead
    (ask_returns (.verifyProvenance action approval .execute) rfl) rfl (ask_returns (.supports firstName) rfl)
    (ask_returns (.plan action) rfl) (ask_returns (.simulate action) rfl) (ask_returns (.admitAction _) rfl)
    (ask_returns (.writeFile firstName attempted) rfl) (ask_returns (.adapterExecute action) rfl)
    (ask_returns (.writeFile firstName committed) rfl) (ask_returns (.adapterVerify action) rfl)
    (ask_returns (.writeFile firstName firstVerified) rfl)
  have hExecute : Reaches environment Unguarded (GatewayCall.program gateway
      (.execute action.toValue smallIdentity smallPolicy)) firstSubmitted _ after :=
    (reaches_lift_bind (f := fun requested => gateway.executeAction requested smallIdentity smallPolicy)
      small_accepted hExecuted).inBind fun _ => pure ()
  have hStart : ∃ events, (Session.machine environment (GatewayCall.program gateway) firstSubmitted).Run
      (Session.Allowed Unguarded) events ⟨firstSubmitted, none⟩ := ⟨[], .start⟩
  refine ⟨after, ?_, ?_, Session.run_call hStart hExecute⟩
  · simp [after, executed, firstSubmitted, Files.store, Files.count]
  · simp [after, Files.store]

theorem first_verified_run : ∃ events, ∃ after : Files, gatewayMachine.FreeRun events ⟨after, none⟩ ∧ after.executions firstName = 1 ∧
    after.records firstName = some firstVerified := by
  obtain ⟨submitting, submitted⟩ := first_submitted
  obtain ⟨after, hOnce, hRecord, executing, executed⟩ := first_executed
  exact ⟨_, after, (submitted.append executed).mono fun _ _ _ => trivial, hOnce, hRecord⟩

theorem firstVerified_valid : firstVerified.Valid := by
  obtain ⟨events, after, run, _, hRecord⟩ := first_verified_run
  exact ((gateway_standing run firstName).good.own firstVerified hRecord).1

theorem action_executed_once : ∃ events s, gatewayMachine.FreeRun events s ∧ s.world.executions firstName = 1 ∧
    (∃ record, s.world.records firstName = some record ∧
      record.word = [.requested, .attempted, .committed, .verified]) ∧
    s.world.executions firstName ≤ 1 := by
  obtain ⟨events, after, run, hOnce, hRecord⟩ := first_verified_run
  exact ⟨_, _, run, hOnce, ⟨firstVerified, hRecord, rfl⟩, (executed_at_most_once _ _ run firstName).1⟩

end GhostApi.Actions
