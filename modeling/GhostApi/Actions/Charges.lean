import GhostApi.Actions.Executions
import GhostApi.Safety.Budgets
import GhostApi.Safety.Charged

/-!
# Executed actions and the safety ledger

The gateway over the safety controller itself. Between any two calls of the
gateway other clients of the controller, among them the adapter with the lease
that it was given, make any calls at any clock times; a call of the gateway can
be written without its answer arriving.
-/

namespace GhostApi.Actions

open Js Validation Effect Effect.Program Safety

inductive Service
  | part (part : Part)
  | admitAction (action : SafetyAction)
  | complete (lease : Nat) (outcome : SafetyOutcome)
  | others

abbrev Service.Answer : Service → Type
  | .part service => service.Answer
  | .admitAction _ => Admitted Nat
  | .complete _ _ => Unit
  | .others => Unit

def request (service : Service) : Program Service Service.Answer JsError service.Answer := Program.perform service

/-- A lease is named by its place among the leases of the controller. -/
def chargedGateway : Gateway Service Service.Answer Nat where
  now := request (.part .now)
  randomUUID := request (.part .randomUUID)
  readFile actionId := request (.part (.readFile actionId))
  writeFile actionId record := request (.part (.writeFile actionId record))
  verifyProvenance action approval phase := request (.part (.verifyProvenance action approval phase))
  supports operation := request (.part (.supports operation))
  plan action := request (.part (.plan action))
  simulate action := request (.part (.simulate action))
  adapterExecute action _ := request (.part (.adapterExecute action))
  adapterVerify action := request (.part (.adapterVerify action))
  admitAction action := request (.admitAction action)
  complete lease outcome := request (.complete lease outcome)

structure Shared where
  files : Files := {}
  safety : System := {}

structure Timing where
  parts : Choice
  clock : Option Int
  /-- The calls that other clients of the controller make first. -/
  others : List Event := []
  /-- The error that arrives in place of the answer of a call that was written. -/
  lost : Option JsError := none

variable (options : Options)

/-- A call of the gateway on the controller; its answer is read by the caller. -/
def consult {α : Type} (call : Call) (timing : Timing) (shared : Shared) (read : Answer → Option α) :
    Option (Except JsError α × Shared) :=
  match timing.lost with
  | some e => some (.error e, { shared with safety := shared.safety.take options ⟨call, timing.clock, false⟩ })
  | none => match perform options shared.safety.leases timing.clock shared.safety.store call with
    | .error e => some (.error e, shared)
    | .ok (answer, _) => (read answer).map fun a =>
      (.ok a, { shared with safety := shared.safety.take options ⟨call, timing.clock, true⟩ })

def Shared.meanwhile (shared : Shared) (events : List Event) : Shared :=
  { shared with safety := events.foldl (System.take options) shared.safety }

def serve : (service : Service) → Timing → Shared → Option (Except JsError service.Answer × Shared)
  | .part part, timing, shared =>
    let (reply, files) := respond part timing.parts shared.files
    some (reply, { shared.meanwhile options timing.others with files })
  | .admitAction action, timing, shared =>
    let shared := shared.meanwhile options timing.others
    consult options (.admitAction action.toValue) timing shared fun
      | .admitted admission => some ⟨shared.safety.leases.length, admission.lease.replay⟩
      | _ => none
  | .complete lease outcome, timing, shared =>
    consult options (.onLease lease (.complete outcome.toValue)) timing (shared.meanwhile options timing.others)
      fun _ => some ()
  | .others, timing, shared => some (.ok (), shared.meanwhile options timing.others)

def sharedEnvironment : Environment Shared Service Service.Answer JsError Timing where
  respond := serve options

inductive SharedCall
  | gateway (call : GatewayCall)
  | others

def SharedCall.program : SharedCall → Program Service Service.Answer JsError Unit
  | .gateway request => request.program chargedGateway
  | .others => request .others

def sharedMachine :
    Transition.Machine (Session Shared Service Service.Answer JsError) (SessionEvent SharedCall Timing) :=
  Session.machine (sharedEnvironment options) SharedCall.program {}

/-! ## The contract -/

def Shared.view (actionId : Identifier) (shared : Shared) : View := shared.files.view actionId

abbrev StaysCharged (action : SafetyAction) (shared : Shared) : Prop :=
  Charged options.leaseTtlMs action shared.safety

/-- Nothing changed but one action, and charged actions are charged still. -/
structure Shared.Others (actionId : Identifier) (before after : Shared) : Prop where
  files : before.files.Others actionId after.files
  charged : ∀ action, StaysCharged options action before → StaysCharged options action after

abbrev Open (_ : Service) (_ : Shared) : Prop := True

variable {options}

theorem Shared.others_refl (actionId : Identifier) (shared : Shared) : shared.Others options actionId shared :=
  ⟨fun _ _ => rfl, fun _ h => h⟩

theorem Shared.Others.trans {actionId : Identifier} {s t u : Shared} (hFirst : s.Others options actionId t)
    (hSecond : t.Others options actionId u) : s.Others options actionId u :=
  ⟨fun other hOther => (hSecond.files other hOther).trans (hFirst.files other hOther),
    fun action h => hSecond.charged action (hFirst.charged action h)⟩

theorem charged_meanwhile {action : SafetyAction} {shared : Shared} (h : StaysCharged options action shared)
    (events : List Event) : StaysCharged options action (shared.meanwhile options events) := by
  obtain ⟨files, safety⟩ := shared
  change Charged options.leaseTtlMs action (events.foldl (System.take options) safety)
  induction events generalizing safety with
  | nil => exact h
  | cons event events ih => exact ih _ (Charged.take h event)

theorem others_meanwhile (actionId : Identifier) (shared : Shared) (events : List Event) :
    shared.Others options actionId (shared.meanwhile options events) :=
  ⟨fun _ _ => rfl, fun _ h => charged_meanwhile h events⟩

theorem others_take (actionId : Identifier) (shared : Shared) (event : Event) :
    shared.Others options actionId { shared with safety := shared.safety.take options event } :=
  ⟨fun _ _ => rfl, fun _ h => Charged.take h event⟩

theorem request_ensures (service : Service) {I : Shared → Prop} {Q : Except JsError service.Answer → Shared → Prop}
    {shared : Shared} (hI : I shared)
    (h : ∀ timing reply after, serve options service timing shared = some (reply, after) → I after ∧ Q reply after) :
    (request service).Ensures (sharedEnvironment options) Open I Q shared :=
  ensures_perform hI fun _ timing reply after hReply => h timing reply after hReply

theorem part_ensures (part : Part) {actionId : Identifier} {I : Files → Prop}
    {Q : Except JsError part.Answer → Files → Prop} {shared : Shared} (hI : I shared.files)
    (hOthers : ∀ files, I files → shared.files.Others actionId files)
    (h : ∀ choice, I (respond part choice shared.files).2 ∧
      Q (respond part choice shared.files).1 (respond part choice shared.files).2) :
    (request (.part part)).Ensures (sharedEnvironment options) Open
      (fun after => shared.Others options actionId after ∧ I after.files) (fun reply after => Q reply after.files)
      shared := by
  refine request_ensures (.part part) ⟨shared.others_refl actionId, hI⟩ fun timing reply after hReply => ?_
  cases hReply
  obtain ⟨hAfter, hReply⟩ := h timing.parts
  refine ⟨⟨⟨hOthers _ hAfter, fun action hCharged => ?_⟩, hAfter⟩, hReply⟩
  exact charged_meanwhile hCharged timing.others

theorem part_stays (part : Part) {actionId : Identifier} (h : ∀ choice files, (respond part choice files).2 = files) :
    (request (.part part)).Stays (sharedEnvironment options) Open
      (Quiet (Shared.view actionId) (Shared.Others options actionId)) := by
  intro shared
  have hPart : (request (.part part)).Ensures (sharedEnvironment options) Open
      (fun after => shared.Others options actionId after ∧ after.files = shared.files) (fun _ _ => True) shared := by
    refine part_ensures part (I := fun files => files = shared.files) (Q := fun _ _ => True) rfl
      (fun files hFiles => ?_) fun choice => ⟨h choice _, trivial⟩
    rw [hFiles]
    exact fun _ _ => rfl
  refine hPart.mono ?_ fun _ _ _ _ => trivial
  rintro after ⟨hOthers, hFiles⟩
  refine ⟨hOthers, ?_⟩
  rw [Shared.view, hFiles]
  rfl

theorem consult_of_perform {α : Type} {call : Call} (timing : Timing) (shared : Shared) {read : Answer → Option α}
    {answer : Answer} {store : Store} {a : α} (hLost : timing.lost = none)
    (h : perform options shared.safety.leases timing.clock shared.safety.store call = .ok (answer, store))
    (hRead : read answer = some a) :
    consult options call timing shared read =
      some (.ok a, { shared with safety := shared.safety.take options ⟨call, timing.clock, true⟩ }) := by
  rw [consult, hLost]
  dsimp only
  rw [h]
  simp [hRead]

theorem consult_quiet {α : Type} {call : Call} {timing : Timing} {shared after : Shared} {read : Answer → Option α}
    {reply : Except JsError α} (actionId : Identifier)
    (h : consult options call timing shared read = some (reply, after)) :
    shared.Others options actionId after ∧ after.files = shared.files := by
  rw [consult] at h
  split at h
  · cases h
    exact ⟨others_take actionId shared _, rfl⟩
  · split at h
    · cases h
      exact ⟨shared.others_refl actionId, rfl⟩
    · obtain ⟨a, _, hPair⟩ := Option.map_eq_some_iff.mp h
      cases hPair
      exact ⟨others_take actionId shared _, rfl⟩

theorem consult_admitted {action : SafetyAction} {timing : Timing} {shared after : Shared} {admitted : Admitted Nat}
    (h : serve options (.admitAction action) timing shared = some (.ok admitted, after))
    (hOriginal : admitted.replay = false) : StaysCharged options action after := by
  rw [serve, consult] at h
  split at h
  · cases h
  · split at h
    · cases h
    · rename_i answer store hPerform
      obtain ⟨_, hRead, hPair⟩ := Option.map_eq_some_iff.mp h
      cases answer with
      | admitted admission =>
        cases hRead
        cases hPair
        rw [StaysCharged, take_of_perform rfl hPerform]
        exact charged_of_admission hPerform hOriginal
      | done => cases hRead
      | started start => cases hRead

theorem chargedGateway_contract (actionId : Identifier) : Contract (sharedEnvironment options) Open chargedGateway
    actionId (Shared.view actionId) (Shared.Others options actionId) (StaysCharged options) where
  refl := Shared.others_refl actionId
  trans := Shared.Others.trans
  lasting h hCharged := h.charged _ hCharged
  now := part_stays .now fun _ _ => rfl
  randomUUID := part_stays .randomUUID fun _ _ => rfl
  verifyProvenance action approval phase := part_stays (.verifyProvenance action approval phase) fun _ _ => rfl
  supports operation := part_stays (.supports operation) fun _ _ => rfl
  plan action := part_stays (.plan action) fun _ _ => rfl
  simulate action := part_stays (.simulate action) fun _ _ => rfl
  adapterVerify action := part_stays (.adapterVerify action) fun _ _ => rfl
  complete lease outcome := by
    intro shared
    refine request_ensures (.complete lease outcome) ⟨shared.others_refl actionId, rfl⟩ fun timing reply after hReply => ?_
    obtain ⟨hOthers, hFiles⟩ := consult_quiet actionId hReply
    refine ⟨⟨(others_meanwhile actionId shared _).trans hOthers, ?_⟩, trivial⟩
    rw [Shared.view, hFiles]
    rfl
  readFile shared := by
    have hPart : (request (.part (.readFile actionId))).Ensures (sharedEnvironment options) Open
        (fun after => shared.Others options actionId after ∧ after.files = shared.files)
        (fun reply after => OnOk (fun record (files : Files) => record = (files.view actionId).record) reply after.files)
        shared := by
      refine part_ensures (.readFile actionId) (I := fun files => files = shared.files)
        (Q := OnOk fun record files => record = (files.view actionId).record) rfl (fun files hFiles => ?_) fun choice => ?_
      · rw [hFiles]
        exact fun _ _ => rfl
      · obtain ⟨hSame, hRead⟩ := respond_readFile actionId choice shared.files
        rw [hSame]
        exact ⟨rfl, hRead⟩
    refine hPart.mono ?_ ?_
    · rintro after ⟨hOthers, hFiles⟩
      exact ⟨hOthers, congrArg (Files.view actionId) hFiles⟩
    · rintro (e | record) after _ hRead
      · trivial
      · exact hRead
  writeFile shared record := by
    have hPart : (request (.part (.writeFile actionId record))).Ensures (sharedEnvironment options) Open
        (fun after => shared.Others options actionId after ∧ shared.files.Others actionId after.files ∧
          (after.files.view actionId = shared.files.view actionId ∨
            after.files.view actionId = ⟨some record, shared.files.executions actionId⟩))
        (fun reply after => OnOk (fun _ (files : Files) =>
          files.view actionId = ⟨some record, shared.files.executions actionId⟩) reply after.files) shared := by
      refine part_ensures (.writeFile actionId record)
        (I := fun files => shared.files.Others actionId files ∧ (files.view actionId = shared.files.view actionId ∨
          files.view actionId = ⟨some record, shared.files.executions actionId⟩))
        (Q := OnOk fun _ files => files.view actionId = ⟨some record, shared.files.executions actionId⟩)
        ⟨fun _ _ => rfl, .inl rfl⟩ (fun files hFiles => hFiles.1) ?_
      intro choice
      exact respond_writeFile actionId record choice shared.files
    refine hPart.mono ?_ ?_
    · rintro after ⟨hOthers, _, hView⟩
      exact ⟨hOthers, hView⟩
    · rintro (e | ⟨⟩) after _ hStored
      · trivial
      · exact hStored
  adapterExecute shared action lease hId := by
    have hPart : (request (.part (.adapterExecute action))).Ensures (sharedEnvironment options) Open
        (fun after => shared.Others options actionId after ∧ shared.files.Others actionId after.files ∧
          (after.files.view actionId = shared.files.view actionId ∨
            after.files.view actionId = ⟨shared.files.records actionId, shared.files.executions actionId + 1⟩))
        (fun _ _ => True) shared := by
      refine part_ensures (.adapterExecute action)
        (I := fun files => shared.files.Others actionId files ∧ (files.view actionId = shared.files.view actionId ∨
          files.view actionId = ⟨shared.files.records actionId, shared.files.executions actionId + 1⟩))
        (Q := fun _ _ => True) ⟨fun _ _ => rfl, .inl rfl⟩ (fun files hFiles => hFiles.1) ?_
      intro choice
      refine ⟨?_, trivial⟩
      rw [respond, hId]
      exact ⟨shared.files.others_count actionId, .inr (shared.files.view_count actionId)⟩
    refine hPart.mono ?_ fun _ _ _ _ => trivial
    rintro after ⟨hOthers, _, hView⟩
    exact ⟨hOthers, hView⟩
  admitAction shared action := by
    refine request_ensures (.admitAction action) ⟨shared.others_refl actionId, rfl⟩ fun timing reply after hReply => ?_
    obtain ⟨hOthers, hFiles⟩ := consult_quiet actionId hReply
    refine ⟨⟨(others_meanwhile actionId shared _).trans hOthers, congrArg (Files.view actionId) hFiles⟩, ?_⟩
    cases reply with
    | error e => trivial
    | ok admitted => exact fun hOriginal => consult_admitted hReply hOriginal

/-! ## Runs -/

def AllCharged (options : Options) (shared : Shared) : Prop :=
  ∀ actionId, Standing actionId (Shared.view actionId) (StaysCharged options) shared

theorem AllCharged.of_others {actionId : Identifier} {before after : Shared} (h : AllCharged options before)
    (hOthers : before.Others options actionId after)
    (hStanding : Standing actionId (Shared.view actionId) (StaysCharged options) after) : AllCharged options after := by
  intro other
  by_cases hOther : other = actionId
  · rw [hOther]
    exact hStanding
  · have hSame : after.view other = before.view other := hOthers.files other hOther
    refine ⟨?_, fun record hRecord hAttempted => ?_⟩
    · rw [hSame]
      exact (h other).good
    · rw [hSame] at hRecord
      exact hOthers.charged _ ((h other).charged record hRecord hAttempted)

theorem AllCharged.meanwhile {shared : Shared} (h : AllCharged options shared) (events : List Event) :
    AllCharged options (shared.meanwhile options events) := by
  intro actionId
  exact ⟨(h actionId).good, fun record hRecord hAttempted =>
    charged_meanwhile ((h actionId).charged record hRecord hAttempted) events⟩

theorem sharedProgram_keeps (call : SharedCall) (shared : Shared) (h : AllCharged options shared) :
    call.program.Ensures (sharedEnvironment options) Open (AllCharged options) (fun _ _ => True) shared := by
  cases call with
  | gateway request =>
    refine (request.ensures chargedGateway_contract h).mono ?_ fun _ _ _ _ => trivial
    rintro after ⟨actionId, change, hSound⟩
    exact h.of_others hSound.rel hSound.toStanding
  | others =>
    refine request_ensures .others h fun timing reply after hReply => ⟨?_, trivial⟩
    cases hReply
    exact h.meanwhile timing.others

theorem allCharged_initial : AllCharged options {} := by
  intro actionId
  refine ⟨⟨fun _ => rfl, Nat.zero_le 1, ?_, ?_⟩, ?_⟩
  all_goals rintro _ ⟨⟩

/-- In every run an action with a verified receipt was admitted by the safety controller, and the ledger lists the
entry that was reserved for it, unless an admit found it still reserved after its lease had run out and dropped it. -/
theorem executed_stays_charged (options : Options) (events : List (SessionEvent SharedCall Timing))
    (s : Session Shared Service Service.Answer JsError) (run : (sharedMachine options).FreeRun events s)
    (actionId : Identifier) (record : StoredAction) (hRecord : s.world.files.records actionId = some record)
    (hVerified : .verified ∈ record.word) :
    Charged options.leaseTtlMs (safetyAction record.envelope record.actionHash) s.world.safety := by
  have hStanding : AllCharged options s.world := by
    refine Session.run_invariant allCharged_initial sharedProgram_keeps (run.mono fun s event _ => ?_)
    exact Session.allowed_of_forall (fun _ _ => trivial) s event
  have hAction := hStanding actionId
  obtain ⟨_, _, hWord⟩ := hAction.good.own record hRecord
  exact hAction.charged record hRecord (attempted_of_verified hWord hVerified)

/-! ## A verified action whose lease runs out -/

def smallCharge : SafetyAction := safetyAction (smallAction firstName []) (actionHash (smallAction firstName []))

theorem ledgerKey_toList :
    (ledgerKey smallCharge).toList = 'a' :: '1' :: ':' :: smallCharge.actionHash.val.toList := by
  rw [ledgerKey, String.toList_append]
  rfl

theorem ledgerKey_small : acceptsText 300 (ledgerKey smallCharge) = true ∧
    trim (ledgerKey smallCharge) = ledgerKey smallCharge := by
  have hDigest := smallCharge.actionHash.property
  rw [isHash, Bool.and_eq_true, beq_iff_eq] at hDigest
  refine acceptsText_of_name ?_ ?_ ?_
  · rw [ledgerKey_toList]
    exact List.cons_ne_nil _ _
  · rw [ledgerKey_toList]
    simp only [List.forall_mem_cons]
    refine ⟨?_, ?_, ?_, smallCharge.actionHash.mem_nameChars⟩
    all_goals exact List.contains_iff_mem.mp rfl
  · rw [ledgerKey_toList, List.length_cons, List.length_cons, List.length_cons, hDigest.1]
    decide

/-- Every part answers at once, and the clock stands at the epoch. -/
def favourableTiming : Timing where
  parts := favourable
  clock := some 0

theorem part_returns (part : Part) {shared : Shared} {files : Files} {a : part.Answer}
    (h : respond part favourable shared.files = (.ok a, files)) :
    Returns (sharedEnvironment options) Open (request (.part part)) shared a { shared with files } := by
  have hServed : serve options (.part part) favourableTiming shared =
      some ((respond part favourable shared.files).1, { shared with files := (respond part favourable shared.files).2 }) :=
    rfl
  rw [h] at hServed
  exact reaches_perform trivial hServed

theorem others_reaches {shared after : Shared} (events : List Event) (h : shared.meanwhile options events = after) :
    Reaches (sharedEnvironment options) Open (SharedCall.program .others) shared (pure ()) after := by
  have hServed : serve options .others { favourableTiming with others := events } shared = some (.ok (), after) := by
    rw [← h]
    rfl
  exact reaches_perform trivial hServed

variable (options) in
theorem chargedGateway_scripted : Scripted (sharedEnvironment options) Open chargedGateway 0 "a1" where
  now shared := part_returns .now rfl
  randomUUID shared := part_returns .randomUUID rfl
  date := by decide
  printable := gateway_scripted.printable
  name := gateway_scripted.name

/-- The small action is admitted at the epoch under the daily budget. -/
def chargedState : SafetyControllerState := reservedState dailyState smallCharge 0 ledgerKey_small.1

theorem valid_chargedState : Valid chargedState :=
  idle_dailyState.valid.reservedState printable_zero (by rintro _ ⟨⟩) (by decide) (by decide) ledgerKey_small.1
    ledgerKey_small.2

theorem admit_small (leaseTtlMs : Int) : admitOp leaseTtlMs smallCharge 0 dailyState = (.ok false, chargedState) := by
  have hBudgets : assertBudgets dailyState smallCharge 0 = .ok () := by decide +kernel
  exact admitOp_idle dailyState rfl rfl (by rintro _ ⟨⟩) (by decide : 0 < MAX_LEDGER) (by decide) hBudgets
    ledgerKey_small.1

theorem perform_small : perform testOptions [] (some 0) (some dailyState) (.admitAction smallCharge.toValue) =
    .ok (.admitted ⟨⟨smallCharge, false⟩, 0⟩, some chargedState) :=
  perform_admission (validateAction_toValue smallCharge)
    (read_of_small idle_dailyState.valid (by decide) (by decide)) (Nat.zero_le _) (admit_small _) valid_chargedState

def chargedSystem : System where
  store := some chargedState
  leases := [⟨⟨smallCharge, false⟩, 0⟩]

def verifiedRecord : StoredAction :=
  let script := chargedGateway_scripted testOptions
  script.smallVerified (script.smallRequested firstName [])

theorem small_charged_run : ∃ events files,
    (sharedMachine testOptions).Run (Session.Allowed Open) events ⟨⟨files, chargedSystem⟩, none⟩ ∧
    files.records firstName = some verifiedRecord := by
  let script := chargedGateway_scripted testOptions
  let action := smallAction firstName []
  let approval := smallApproval action approverName
  let requested := script.smallRequested firstName []
  let attempted := script.smallAttempted requested
  let committed := script.smallCommitted requested
  let verified := script.smallVerified requested
  let submitted := ({} : Files).store firstName requested
  let executed := (submitted.store firstName attempted).count firstName
  let after := (executed.store firstName committed).store firstName verified
  let daily : System := { store := some dailyState }
  have hAction : validateActionEnvelope action.toValue = .ok action := validateActionEnvelope_toValue action rfl
  have hStart : ∃ events, (sharedMachine testOptions).Run (Session.Allowed Open) events ⟨{}, none⟩ := ⟨[], .start⟩
  have hConfigured : ∃ events, (sharedMachine testOptions).Run (Session.Allowed Open) events ⟨⟨{}, daily⟩, none⟩ := by
    refine Session.run_call hStart (others_reaches [configureDaily] ?_)
    exact congrArg (Shared.mk {}) take_configureDaily
  have hSubmitted : Returns (sharedEnvironment testOptions) Open
      (chargedGateway.submitAction action approval smallPolicy) ⟨{}, daily⟩ requested ⟨submitted, daily⟩ :=
    script.small_submitted (part_returns (.verifyProvenance action approval .submit) rfl) rfl
      (part_returns (.readFile firstName) rfl) (part_returns (.writeFile firstName requested) rfl)
  have hSubmit : Reaches (sharedEnvironment testOptions) Open
      (SharedCall.program (.gateway (.submit action.toValue approval.toValue smallPolicy))) ⟨{}, daily⟩ (pure ())
      ⟨submitted, daily⟩ :=
    (reaches_lift_bind hAction (reaches_lift_bind (validateActionApproval_toValue approval) hSubmitted)).andThen
      (.refl _ _)
  have hRead : Returns (sharedEnvironment testOptions) Open (chargedGateway.readFile firstName) ⟨submitted, daily⟩
      (some requested) ⟨submitted, daily⟩ :=
    part_returns (.readFile firstName) (by simp [respond, favourable, submitted, Files.store])
  have hAdmit : Returns (sharedEnvironment testOptions) Open (chargedGateway.admitAction smallCharge) ⟨submitted, daily⟩
      ⟨0, false⟩ ⟨submitted, chargedSystem⟩ := by
    have hTake : daily.take testOptions ⟨.admitAction smallCharge.toValue, some 0, true⟩ = chargedSystem :=
      (take_of_perform rfl perform_small).trans rfl
    have hServed : (sharedEnvironment testOptions).respond (.admitAction smallCharge) favourableTiming
        ⟨submitted, daily⟩ = some (.ok ⟨0, false⟩, ⟨submitted, chargedSystem⟩) := by
      rw [← hTake]
      exact consult_of_perform favourableTiming ⟨submitted, daily⟩ rfl perform_small rfl
    exact reaches_perform trivial hServed
  have hExecuted := script.small_executed (Nat.zero_le _) hRead
    (part_returns (.verifyProvenance action approval .execute) rfl) rfl (part_returns (.supports firstName) rfl)
    (part_returns (.plan action) rfl) (part_returns (.simulate action) rfl) hAdmit
    (part_returns (.writeFile firstName attempted) rfl) (part_returns (.adapterExecute action) rfl)
    (part_returns (.writeFile firstName committed) rfl) (part_returns (.adapterVerify action) rfl)
    (part_returns (.writeFile firstName verified) rfl)
  have hExecute : Reaches (sharedEnvironment testOptions) Open (SharedCall.program (.gateway
      (.execute action.toValue smallIdentity smallPolicy))) ⟨submitted, daily⟩ _ ⟨after, chargedSystem⟩ :=
    (reaches_lift_bind (f := fun requested => chargedGateway.executeAction requested smallIdentity smallPolicy)
      hAction hExecuted).inBind fun _ => pure ()
  obtain ⟨events, run⟩ := Session.run_call (Session.run_call hConfigured hSubmit) hExecute
  refine ⟨events, after, run, ?_⟩
  simp [after, Files.store]
  rfl

/-- A minute later the reservation is dropped for a payment. -/
def unchargedState : SafetyControllerState :=
  reservedState (prunedState chargedState 60000 60001) (paymentAction secondKey) 60001 acceptsKey_second

theorem pruned_chargedState : pruned 60000 60001 chargedState.ledger = [] := rfl

theorem valid_unchargedState : Valid unchargedState := by
  refine (valid_chargedState.prunedState 60000 60001).reservedState printable_minute ?_ ?_ (by decide) acceptsKey_second
    trimKey_second
  · change ∀ entry ∈ pruned 60000 60001 chargedState.ledger, _
    rw [pruned_chargedState]
    rintro _ ⟨⟩
  · exact (by decide : 0 < MAX_LEDGER)

def unchargedSystem : System where
  store := some unchargedState
  leases := [⟨⟨smallCharge, false⟩, 0⟩, ⟨⟨paymentAction secondKey, false⟩, 60001⟩]
  reclaimed := [⟨reservation smallCharge 0, 60001⟩]

theorem take_payment : chargedSystem.take testOptions ⟨.admitAction (payment "k2"), some 60001, true⟩ =
    unchargedSystem := by
  have hRun : admitOp 60000 (paymentAction secondKey) 60001 chargedState = (.ok false, unchargedState) := by
    refine admitOp_idle chargedState rfl rfl ?_ ?_ (by decide) (by decide +kernel) acceptsKey_second
    · rw [pruned_chargedState]
      rintro _ ⟨⟩
    · rw [pruned_chargedState]
      decide
  have hPerform : perform testOptions chargedSystem.leases (some 60001) chargedSystem.store
      (.admitAction (payment "k2")) =
        .ok (.admitted ⟨⟨paymentAction secondKey, false⟩, 60001⟩, some unchargedState) :=
    perform_admission validateAction_second (read_of_small valid_chargedState (by decide) (by decide))
      (by decide +kernel) hRun valid_unchargedState
  exact (take_of_perform rfl hPerform).trans rfl

theorem small_stays_charged : ∃ events s, (sharedMachine testOptions).FreeRun events s ∧
    s.world.files.records firstName = some verifiedRecord ∧
    Listed s.world.safety.state.ledger (ledgerKey smallCharge) 0 ∧
    Charged testOptions.leaseTtlMs smallCharge s.world.safety := by
  obtain ⟨events, files, run, hRecord⟩ := small_charged_run
  have hFree : (sharedMachine testOptions).FreeRun events ⟨⟨files, chargedSystem⟩, none⟩ :=
    run.mono fun _ _ _ => trivial
  refine ⟨events, _, hFree, hRecord, ?_, ?_⟩
  · exact ⟨reservation smallCharge 0, List.mem_singleton_self _, rfl, rfl⟩
  · exact executed_stays_charged testOptions events _ hFree firstName verifiedRecord hRecord (by decide)

/-- The process stopped after the verified receipt was written and before the lease was completed. A minute later
another admit drops the reservation, in the middle of the window of the daily budget. -/
theorem verified_action_uncharged : ∃ events s, (sharedMachine testOptions).FreeRun events s ∧
    s.world.files.records firstName = some verifiedRecord ∧ .verified ∈ verifiedRecord.word ∧
    dailyBudget ∈ s.world.safety.state.budgets ∧
    (∃ admission ∈ s.world.safety.leases, admission.lease = ⟨smallCharge, false⟩ ∧
      60001 - dailyBudget.windowMs.val ≤ admission.admittedAt ∧ admission.admittedAt ≤ 60001) ∧
    ∀ entry ∈ s.world.safety.state.ledger, entry.key ≠ ledgerKey smallCharge := by
  obtain ⟨events, files, run, hRecord⟩ := small_charged_run
  have hOthers : Reaches (sharedEnvironment testOptions) Open (SharedCall.program .others) ⟨files, chargedSystem⟩
      (pure ()) ⟨files, unchargedSystem⟩ :=
    others_reaches [⟨.admitAction (payment "k2"), some 60001, true⟩] (congrArg (Shared.mk files) take_payment)
  obtain ⟨events, run⟩ := Session.run_call ⟨events, run⟩ hOthers
  refine ⟨events, _, run.mono fun _ _ _ => trivial, hRecord, by decide, List.mem_singleton_self _, ?_, ?_⟩
  · exact ⟨⟨⟨smallCharge, false⟩, 0⟩, List.mem_cons_self, rfl, by decide, by decide⟩
  · intro entry hEntry hKey
    obtain rfl := List.mem_singleton.mp hEntry
    have hFirst : (ledgerKey (paymentAction secondKey)).toList = (ledgerKey smallCharge).toList := congrArg _ hKey
    have hPayment : (ledgerKey (paymentAction secondKey)).toList.head? = some 'k' := by decide +kernel
    rw [hFirst, ledgerKey_toList] at hPayment
    exact absurd hPayment (by decide)

end GhostApi.Actions
