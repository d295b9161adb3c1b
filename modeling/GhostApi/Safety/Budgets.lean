import GhostApi.Safety.AtMostOnce

/-!
# Spend within a budget

Each charge of the ledger was admitted when the charges before it, taken over
the window that ended at its admission, left room for it. Removing charges
keeps that, and it bounds the charges of every window, wherever it ends.
-/

namespace GhostApi.Safety

open Js Validation Effect Effect.Mutation Table

structure Charge where
  action : SafetyAction
  admittedAt : Int

def LedgerEntry.charge (entry : LedgerEntry) : Charge := ⟨entry.action, entry.admittedAt⟩

section Window

variable (budget : SafetyBudget) (category : CostCategory)

/-- Total of the charges in the scope that were admitted between two times. -/
def spend (first last : Int) (charges : List Charge) : Nat :=
  ((charges.filter fun c => scopeMatches budget.scope c.action && decide (first ≤ c.admittedAt ∧ c.admittedAt ≤ last)).map
    fun c => c.action.costs.get category).sum

/-- Total of the charges in the scope that were admitted from a time on. -/
def spendSince (first : Int) (charges : List Charge) : Nat :=
  ((charges.filter fun c => scopeMatches budget.scope c.action && decide (first ≤ c.admittedAt)).map
    fun c => c.action.costs.get category).sum

def Packed (limit : Nat) : List Charge → Prop
  | [] => True
  | c :: older => (scopeMatches budget.scope c.action = true →
      spendSince budget category (c.admittedAt - budget.windowMs.val) older + c.action.costs.get category ≤ limit) ∧
    Packed limit older

variable {budget category}

theorem spendSince_cons (first : Int) (c : Charge) (charges : List Charge) :
    spendSince budget category first (c :: charges) =
      (if scopeMatches budget.scope c.action = true ∧ first ≤ c.admittedAt then c.action.costs.get category else 0) +
        spendSince budget category first charges := by
  simp only [spendSince, List.filter_cons]
  split <;> simp_all

theorem spend_cons (first last : Int) (c : Charge) (charges : List Charge) :
    spend budget category first last (c :: charges) =
      (if scopeMatches budget.scope c.action = true ∧ first ≤ c.admittedAt ∧ c.admittedAt ≤ last then
        c.action.costs.get category else 0) + spend budget category first last charges := by
  simp only [spend, List.filter_cons]
  split <;> simp_all

theorem spendSince_sublist {first : Int} {some_ all : List Charge} (h : some_.Sublist all) :
    spendSince budget category first some_ ≤ spendSince budget category first all := by
  induction h with
  | slnil => exact Nat.le_refl _
  | cons c _ ih =>
    rw [spendSince_cons]
    omega
  | cons_cons c _ ih =>
    rw [spendSince_cons, spendSince_cons]
    omega

theorem spend_le_spendSince {first last first' : Int} (h : first' ≤ first) (charges : List Charge) :
    spend budget category first last charges ≤ spendSince budget category first' charges := by
  induction charges with
  | nil => exact Nat.le_refl _
  | cons c charges ih =>
    rw [spend_cons, spendSince_cons]
    refine Nat.add_le_add ?_ ih
    split
    · rename_i hc
      rw [if_pos ⟨hc.1, le_trans h hc.2.1⟩]
    · exact Nat.zero_le _

theorem Packed.sublist {limit : Nat} {some_ all : List Charge} (h : some_.Sublist all)
    (hPacked : Packed budget category limit all) : Packed budget category limit some_ := by
  induction h with
  | slnil => trivial
  | cons c _ ih => exact ih hPacked.2
  | cons_cons c hRest ih =>
    refine ⟨fun hScope => ?_, ih hPacked.2⟩
    exact le_trans (Nat.add_le_add_right (spendSince_sublist hRest) _) (hPacked.1 hScope)

theorem Packed.spend_le {limit : Nat} {charges : List Charge} (h : Packed budget category limit charges)
    (last : Int) : spend budget category (last - budget.windowMs.val) last charges ≤ limit := by
  induction charges with
  | nil => exact Nat.zero_le _
  | cons c older ih =>
    rw [spend_cons]
    split
    · rename_i hc
      have hOlder : spend budget category (last - budget.windowMs.val) last older ≤
          spendSince budget category (c.admittedAt - budget.windowMs.val) older :=
        spend_le_spendSince (by omega) older
      have hRoom := h.1 hc.1
      omega
    · rw [Nat.zero_add]
      exact ih h.2

end Window

/-! ## The admission check -/

theorem assertLimit_ok {limit : Amount} {value : Nat} {message : String}
    (h : assertLimit (some limit) value message = .ok ()) : value ≤ limit.val := by
  rw [assertLimit] at h
  split at h
  · cases h
  · omega

theorem exact_sum_le {limit : Amount} {values : List Nat} {value : Nat}
    (h : Js.add (values.foldl Js.add 0) value ≤ limit.val) : values.sum + value ≤ limit.val := by
  rw [add_le_iff limit.property] at h
  have hRounded : values.foldl Js.add 0 ≤ MAX_SAFE_INTEGER := le_trans (by omega) limit.property
  have hExact := (foldl_add_le_iff hRounded values 0).mp (Nat.le_refl _)
  omega

theorem assertBudget_room {ledger : List LedgerEntry} {action : SafetyAction} {now : Int} {budget : SafetyBudget}
    {category : CostCategory} {limit : Amount} (hLimit : budget.limits.get category = some limit)
    (h : assertBudget ledger action now budget = .ok ()) (hScope : scopeMatches budget.scope action = true) :
    spendSince budget category (now - budget.windowMs.val) (ledger.map LedgerEntry.charge).reverse +
      action.costs.get category ≤ limit.val := by
  rw [assertBudget, if_pos hScope] at h
  obtain ⟨_, hCategories, _⟩ := bind_eq_ok h
  have hMem : category ∈ CostCategory.all := by cases category <;> decide
  have hChecked := forM_eq_ok.mp hCategories category hMem
  rw [hLimit] at hChecked
  have hSum := exact_sum_le (assertLimit_ok hChecked)
  have hSpend : spendSince budget category (now - budget.windowMs.val) (ledger.map LedgerEntry.charge).reverse =
      ((windowEntries ledger budget.scope budget.windowMs.val now).map
        fun entry => entry.action.costs.get category).sum := by
    rw [spendSince, List.filter_reverse, List.map_reverse, List.sum_reverse, List.filter_map, List.map_map]
    rfl
  rw [hSpend]
  exact hSum

/-! ## Runs under a fixed budget -/

/-- A configuration of the budget's id configures this budget. -/
def KeepsBudget (budget : SafetyBudget) (_ : System) (event : Event) : Prop :=
  ∀ identity value configured, event.call = .configureBudget identity value →
    validateBudget value = .ok configured → configured.id = budget.id → configured = budget

structure Budgeted (budget : SafetyBudget) (category : CostCategory) (limit : Amount) (s : System) : Prop where
  configured : budget ∈ s.state.budgets
  packed : Packed budget category limit.val (s.state.ledger.map LedgerEntry.charge).reverse

theorem pruned_charges_sublist (leaseTtlMs now : Int) (ledger : List LedgerEntry) :
    ((pruned leaseTtlMs now ledger).map LedgerEntry.charge).reverse.Sublist (ledger.map LedgerEntry.charge).reverse :=
  (List.filter_sublist.map _).reverse

theorem Changed.budgeted {options : Options} {leases : List Admission} {before after : SafetyControllerState}
    {s : System} {event : Event} {answer : Answer} {budget : SafetyBudget} {category : CostCategory}
    {limit : Amount} (hLimit : budget.limits.get category = some limit) (hKeeps : KeepsBudget budget s event)
    (hConfigured : budget ∈ before.budgets)
    (hPacked : Packed budget category limit.val (before.ledger.map LedgerEntry.charge).reverse)
    (h : Changed options leases before after event.call answer) :
    budget ∈ after.budgets ∧ Packed budget category limit.val (after.ledger.map LedgerEntry.charge).reverse := by
  generalize hCall : event.call = call at h
  cases h with
  | kept same =>
    obtain ⟨hLedger, hBudgets⟩ := Prod.mk.inj same
    rw [hLedger, hBudgets]
    exact ⟨hConfigured, hPacked⟩
  | @budget identity value changed validated accounts_eq =>
    obtain ⟨hLedger, hBudgets⟩ := Prod.mk.inj accounts_eq
    rw [hLedger, hBudgets]
    refine ⟨?_, hPacked⟩
    by_cases hId : changed.id = budget.id
    · rw [hKeeps identity value changed hCall validated hId]
      exact mem_upsert_self _ _ _
    · exact mem_upsert_of_mem _ hConfigured (beq_eq_false_iff_ne.mpr fun hEq => hId hEq.symm)
  | replayed accounts_eq =>
    obtain ⟨hLedger, hBudgets⟩ := Prod.mk.inj accounts_eq
    rw [hLedger, hBudgets]
    exact ⟨hConfigured, hPacked.sublist (pruned_charges_sublist _ _ _)⟩
  | @reserved _ action now accounts_eq within =>
    obtain ⟨hLedger, hBudgets⟩ := Prod.mk.inj accounts_eq
    rw [hLedger, hBudgets]
    refine ⟨hConfigured, ?_⟩
    rw [List.map_append, List.reverse_append]
    exact ⟨fun hScope => assertBudget_room hLimit (within budget hConfigured) hScope,
      hPacked.sublist (pruned_charges_sublist _ _ _)⟩
  | started _ _ same =>
    obtain ⟨hLedger, hBudgets⟩ := Prod.mk.inj same
    rw [hLedger, hBudgets]
    exact ⟨hConfigured, hPacked⟩
  | completed found _ accounts_eq =>
    obtain ⟨hLedger, hBudgets⟩ := Prod.mk.inj accounts_eq
    rw [hLedger, hBudgets, map_upsert_status (fun _ _ => rfl) _ found]
    exact ⟨hConfigured, hPacked⟩

theorem note_store (s : System) (answer : Answer) : (s.note answer).store = s.store := by
  cases answer <;> rfl

theorem take_state_cases (options : Options) (s : System) (event : Event) :
    (s.take options event).state = s.state ∨ ∃ answer, Valid (s.take options event).state ∧
      Changed options s.leases s.state (s.take options event).state event.call answer := by
  rcases take_cases options s event with hSame | ⟨answer, store, hPerformed, hTake⟩
  · exact .inl (by rw [hSame])
  · have hStore : (s.take options event).store = store := by
      rw [hTake]
      split
      · exact note_store _ answer
      · rfl
    rcases hPerformed with ⟨rfl, _⟩ | ⟨after, rfl, hValid, hChanged⟩
    · exact .inl (by rw [System.state, System.state, hStore])
    · have hState : (s.take options event).state = after := by rw [System.state, hStore]; rfl
      rw [hState]
      exact .inr ⟨answer, hValid, hChanged⟩

def machineAfter (options : Options) (first : Event) : Transition.Machine System Event :=
  { machine options with initial := System.take options {} first }

theorem budgeted_step {options : Options} {first : Event} {budget : SafetyBudget} {category : CostCategory} {limit : Amount}
    (hLimit : budget.limits.get category = some limit) (s : System) (event : Event) (s' : System)
    (h : Budgeted budget category limit s) (hKeeps : KeepsBudget budget s event)
    (hStep : (machineAfter options first).step s event = some s') : Budgeted budget category limit s' := by
  cases hStep
  rcases take_state_cases options s event with hSame | ⟨answer, _, hChanged⟩
  · exact ⟨hSame ▸ h.configured, hSame ▸ h.packed⟩
  · obtain ⟨hConfigured, hPacked⟩ := hChanged.budgeted hLimit hKeeps h.configured h.packed
    exact ⟨hConfigured, hPacked⟩

theorem budgeted_first {options : Options} {first : Event} {budget : SafetyBudget} (category : CostCategory)
    (limit : Amount) (hFirst : budget ∈ (System.take options {} first).state.budgets) :
    Budgeted budget category limit (System.take options {} first) := by
  refine ⟨hFirst, ?_⟩
  rcases take_state_cases options {} first with hSame | ⟨answer, _, hChanged⟩
  · rw [hSame] at hFirst
    cases hFirst
  · generalize (System.take options {} first).state = after at hFirst hChanged
    generalize first.call = call at hChanged
    have hNone : ∀ ledger, ¬accounts after = (ledger, []) := by
      intro ledger hAccounts
      rw [(Prod.mk.inj hAccounts).2] at hFirst
      cases hFirst
    cases hChanged with
    | budget _ accounts_eq =>
      rw [(Prod.mk.inj accounts_eq).1]
      trivial
    | kept same => exact absurd same (hNone _)
    | replayed accounts_eq => exact absurd accounts_eq (hNone _)
    | reserved accounts_eq _ => exact absurd accounts_eq (hNone _)
    | started _ _ same => exact absurd same (hNone _)
    | completed _ _ accounts_eq => exact absurd accounts_eq (hNone _)

/-- Cost of the started actions in the scope of a budget that still have a
ledger entry admitted in the window that ends at a time. -/
def chargedSpend (s : System) (budget : SafetyBudget) (category : CostCategory) (last : Int) : Nat :=
  spend budget category (last - budget.windowMs.val) last
    ((s.state.ledger.filter fun entry => s.started.any (·.action = entry.action)).map LedgerEntry.charge).reverse

/-- The test authorizer knows every identity that it is asked about. -/
def testOptions : Options where
  authenticate identity := .ok identity

def operatorValue : JsValue :=
  .object [("id", .string "op"), ("principalId", .string "op"),
    ("permissions", .array [.string "safety.stop", .string "safety.configure"])]

def testOperator : SafetyOperator := ⟨⟨"op", by decide +kernel⟩, ⟨"op", by decide +kernel⟩, [.stop, .configure]⟩

def dailyValue : JsValue :=
  .object [("id", .string "daily"), ("scope", .object [("kind", .string "global")]),
    ("windowMs", .number (.integer 86400000)), ("velocityWindowMs", .number (.integer 1000)),
    ("limits", .object [("requests", .number (.integer 1))])]

def oneRequest : Amount := ⟨1, one_isAmount⟩

def dailyBudget : SafetyBudget where
  id := ⟨"daily", by decide +kernel⟩
  scope := .global
  windowMs := ⟨86400000, by decide⟩
  velocityWindowMs := ⟨1000, by decide⟩
  limits := ⟨none, some oneRequest, none, none, none, none, none, none⟩

def dailyState : SafetyControllerState :=
  let state := { emptyState with budgets := [dailyBudget] }
  withAudit state (auditRecord state ⟨"budget.configured", by decide +kernel⟩ ⟨"daily", by decide +kernel⟩
    ⟨"configured global", by decide +kernel⟩ 0 testOperator.principalId)

theorem idle_dailyState : Idle dailyState := by
  refine ⟨Valid.withAudit ?_ printable_zero (by decide), rfl, rfl, rfl, by decide, by decide⟩
  exact { valid_emptyState with budgetsLength := by decide, budgetsUnique := by decide }

def configureDaily : Event := ⟨.configureBudget operatorValue dailyValue, some 0, true⟩

theorem take_configureDaily : System.take testOptions {} configureDaily = { store := some dailyState } := by
  have hOperator : authorize testOptions operatorValue .configure = .ok testOperator := by decide +kernel
  have hBudget : validateBudget dailyValue = .ok dailyBudget := by decide +kernel
  have hAudit : appendAudit "budget.configured" dailyBudget.id.val ("configured " ++ scopeKey dailyBudget.scope) 0
      testOperator.principalId { emptyState with budgets := [dailyBudget] } = (.ok (), dailyState) :=
    appendAudit_of_accepts _ _ (by decide) (by decide +kernel) (by decide +kernel) (by decide +kernel)
  have hRun : configureBudgetOp testOperator dailyBudget 0 emptyState = (.ok dailyBudget, dailyState) := by
    rw [configureBudgetOp, get_bind, bind_of_ok (throwIf_of_not (by decide) _ _), modify_bind]
    exact (bind_of_ok hAudit).trans rfl
  have hPerform : perform testOptions [] (some 0) none (.configureBudget operatorValue dailyValue) =
      .ok (.done, some dailyState) := by
    rw [perform, hOperator, ok_bind, hBudget, ok_bind,
      mutate, format_accepts.mutate_of (show read none = .ok emptyState from rfl) (Nat.zero_le _) hRun idle_dailyState.valid]
    rfl
  exact Eq.trans (take_of_perform rfl hPerform) rfl

/-- Cost of all started actions in the scope of a budget that were admitted in
the window that ends at a time, charged or not. -/
def startedSpend (s : System) (budget : SafetyBudget) (category : CostCategory) (last : Int) : Nat :=
  spend budget category (last - budget.windowMs.val) last
    ((s.leases.zipIdx.filter fun (_, index) => s.started.any (·.lease == index)).map
      fun (admission, _) => ⟨admission.lease.action, admission.admittedAt⟩)

theorem keepsDaily (s : System) (event : Event)
    (h : ∀ identity value, event.call ≠ .configureBudget identity value) : KeepsBudget dailyBudget s event :=
  fun identity value _ hCall _ _ => absurd hCall (h identity value)

theorem run_dailyCommit : (machineAfter testOptions configureDaily).Run (KeepsBudget dailyBudget)
    [⟨.admitAction (payment "k1"), some 0, true⟩, ⟨.onLease 0 .commitStart, some 0, true⟩]
    (paidSystem dailyState [firstStart]) := by
  have hStart : (machineAfter testOptions configureDaily).initial = { store := some dailyState } :=
    take_configureDaily
  have hAdmit : (machineAfter testOptions configureDaily).Run (KeepsBudget dailyBudget)
      [⟨.admitAction (payment "k1"), some 0, true⟩] (paidSystem dailyState []) := by
    refine .next .start (keepsDaily _ _ (by rintro _ _ ⟨⟩)) ?_
    rw [hStart]
    exact congrArg some (idle_dailyState.take_admission
      (read_of_small idle_dailyState.valid (by decide) (by decide)) (by decide +kernel))
  exact .next hAdmit (keepsDaily _ _ (by rintro _ _ ⟨⟩)) (congrArg some (idle_dailyState.take_commit rfl []))

end GhostApi.Safety
