import GhostApi.Costs.Reports
import GhostApi.Reliability.Coverage

/-!
# Alerts of exceeded budgets

An alert is made or renewed for each exceeded budget that asks for it. It may
fail to come out: its totals are checked only when the store is written, and
only acknowledged alerts make room for new ones.
-/

namespace GhostApi.Costs

open Js Validation Effect Effect.Mutation Storage Transition
open Reliability (uuidName IsUuid uuidName_isIdentifier)

/-! ## The first item -/

section First

variable {α β : Type} {test : α → Bool} {assign : α → α} {items : List α}

theorem assignFirst_none (h : items.any test = false) : assignFirst test assign items = items := by
  induction items with
  | nil => rfl
  | cons item rest ih =>
    rw [List.any_cons, Bool.or_eq_false_iff] at h
    rw [assignFirst, if_neg (by simp [h.1]), ih h.2]

theorem assignFirst_split (h : items.any test = true) : ∃ before item after, items = before ++ item :: after ∧
    test item = true ∧ (∀ other ∈ before, test other = false) ∧
    assignFirst test assign items = before ++ assign item :: after := by
  induction items with
  | nil => cases h
  | cons item rest ih =>
    rw [assignFirst]
    cases hTest : test item with
    | true => exact ⟨[], item, rest, rfl, hTest, fun _ h => (List.not_mem_nil h).elim, rfl⟩
    | false =>
      rw [List.any_cons, hTest, Bool.false_or] at h
      obtain ⟨before, found, after, rfl, hFound, hBefore, hAssign⟩ := ih h
      refine ⟨item :: before, found, after, rfl, hFound, List.forall_mem_cons.mpr ⟨hTest, hBefore⟩, ?_⟩
      rw [if_neg Bool.false_ne_true, hAssign]
      rfl

end First

/-! ## Open alerts -/

def openFor (budgetId : Identifier) (alerts : List CostAlert) : List CostAlert := alerts.filter (alertOf budgetId)

def OneEach (alerts : List CostAlert) : Prop := ∀ budgetId, (openFor budgetId alerts).length ≤ 1

def openCount (alerts : List CostAlert) : Nat := alerts.countP isOpen

/-- What an evaluation leaves in the alert of its budget. -/
structure Carries (now : Int) (evaluation : CostBudgetEvaluation) (alert : CostAlert) : Prop where
  exceeded : alert.exceeded = evaluation.exceeded
  windowStart : alert.windowStart = now - evaluation.windowMs.val
  windowEnd : alert.windowEnd = now

/-- The evaluation of an exceeded budget that asks for alerts. -/
def raises (budgets : List CostBudget) (evaluation : CostBudgetEvaluation) : Bool :=
  evaluation.status = .exceeded && !(budgets.find? (·.id = evaluation.id)).any (!·.alertOnExceed)

theorem makeRoom_ok {alerts kept : List CostAlert} (h : makeRoom alerts = .ok kept) :
    kept.Sublist alerts ∧ kept.filter isOpen = alerts.filter isOpen ∧
      (alerts.length ≤ MAX_ALERTS → kept.length < MAX_ALERTS) := by
  rw [makeRoom] at h
  split at h
  · split at h
    · rename_i hClosed
      cases h
      obtain ⟨closed, hMem, hClosed⟩ := List.any_eq_true.mp hClosed
      obtain ⟨dropped, before, after, _, hDropped, hSplit, hKept⟩ :=
        @List.exists_of_eraseP _ (!isOpen ·) alerts closed hMem hClosed
      refine ⟨List.eraseP_sublist, ?_, fun hLength => ?_⟩
      · rw [hKept, hSplit, List.filter_append, List.filter_append, List.filter_cons_of_neg (by simpa using hDropped)]
      · rw [hSplit, List.length_append, List.length_cons] at hLength
        rw [hKept, List.length_append]
        omega
    · cases h
  · rename_i hShort
    cases h
    exact ⟨List.Sublist.refl _, rfl, fun _ => Nat.not_le.mp hShort⟩

theorem makeRoom_of {alerts : List CostAlert} (h : openCount alerts < MAX_ALERTS) : ∃ kept, makeRoom alerts = .ok kept := by
  rw [makeRoom]
  split
  · rename_i hFull
    split
    · exact ⟨_, rfl⟩
    · rename_i hOpen
      have hAll : openCount alerts = alerts.length := by
        refine List.countP_eq_length.mpr fun alert hAlert => ?_
        simpa using fun hClosed => hOpen (List.any_eq_true.mpr ⟨alert, hAlert, hClosed⟩)
      omega
  · exact ⟨alerts, rfl⟩

theorem openFor_open (budgetId : Identifier) (alerts : List CostAlert) :
    openFor budgetId (alerts.filter isOpen) = openFor budgetId alerts := by
  rw [openFor, List.filter_filter]
  refine List.filter_congr fun alert _ => ?_
  rw [alertOf, Bool.and_assoc, Bool.and_self]

/-! ## One evaluation -/

section Evaluation

variable {budgets : List CostBudget} {now : Int} {uuid : String} {evaluation : CostBudgetEvaluation}
  {alerts alerts' : List CostAlert}

theorem deriveAlert_quiet (h : raises budgets evaluation = false) :
    deriveAlert budgets now uuid evaluation alerts = .ok alerts := by
  rw [deriveAlert]
  split
  · rfl
  · rename_i hExceeded
    split
    · rfl
    · rename_i hAlerting
      rw [not_not] at hExceeded
      simp [raises, hExceeded, hAlerting] at h

theorem deriveAlert_raises (h : raises budgets evaluation = true) : deriveAlert budgets now uuid evaluation alerts =
    isoTime (now - evaluation.windowMs.val) >>= fun windowStart =>
      if alerts.any (alertOf evaluation.id) then
        .ok (assignFirst (alertOf evaluation.id) (evaluation.payload windowStart now) alerts)
      else makeRoom alerts >>= fun alerts => .ok (alerts ++ [evaluation.alert windowStart now uuid]) := by
  rw [raises, Bool.and_eq_true, decide_eq_true_eq, Bool.not_eq_true'] at h
  rw [deriveAlert, if_neg (not_not.mpr h.1), if_neg (by simp [h.2])]
  rfl

theorem isoTime_ok {ms ms' : Int} (h : isoTime ms = .ok ms') : ms.natAbs ≤ 8640000000000000 ∧ ms' = ms := by
  rw [isoTime] at h
  split at h
  · cases h
    exact ⟨‹_›, rfl⟩
  · cases h

/-- What an evaluation that raises an alert makes of the alerts. -/
structure Raised (now : Int) (uuid : String) (evaluation : CostBudgetEvaluation) (alerts alerts' : List CostAlert) : Prop where
  date : (now - evaluation.windowMs.val).natAbs ≤ 8640000000000000
  own : ∃ alert, openFor evaluation.id alerts' = [alert] ∧ Carries now evaluation alert
  others : ∀ budgetId, budgetId ≠ evaluation.id → openFor budgetId alerts' = openFor budgetId alerts
  count : openCount alerts' = openCount alerts + if alerts.any (alertOf evaluation.id) then 0 else 1
  length : alerts.length ≤ MAX_ALERTS → alerts'.length ≤ MAX_ALERTS
  ids : (alerts'.map (·.id)).Sublist (alerts.map (·.id) ++ [uuidName "alert-" uuid])
  made : ∀ alert ∈ alerts', alert ∈ alerts ∨ Carries now evaluation alert ∧
    ((∃ old ∈ alerts, alert.id = old.id ∧ alert.created = old.created ∧ alert.acknowledgement = old.acknowledgement) ∨
      alert.id = uuidName "alert-" uuid ∧ alert.created = now ∧ alert.acknowledgement = none)

theorem alertOf_payload (windowStart : Int) (alert : CostAlert) (budgetId : Identifier) :
    alertOf budgetId (evaluation.payload windowStart now alert) = (decide (evaluation.id = budgetId) && isOpen alert) := rfl

theorem renewed (hOne : OneEach alerts) (hDate : (now - evaluation.windowMs.val).natAbs ≤ 8640000000000000)
    (hAny : alerts.any (alertOf evaluation.id) = true) : Raised now uuid evaluation alerts
      (assignFirst (alertOf evaluation.id) (evaluation.payload (now - evaluation.windowMs.val) now) alerts) := by
  obtain ⟨before, alert, after, rfl, hOwn, hBefore, hAssign⟩ :=
    @assignFirst_split _ _ (evaluation.payload (now - evaluation.windowMs.val) now) _ hAny
  have hOpen : alert.budgetId = evaluation.id ∧ isOpen alert = true := by
    rw [alertOf, Bool.and_eq_true, decide_eq_true_eq] at hOwn
    exact hOwn
  have hPayload : isOpen (evaluation.payload (now - evaluation.windowMs.val) now alert) = true := hOpen.2
  have hAfter : openFor evaluation.id after = [] := by
    have hLength := hOne evaluation.id
    rw [openFor, List.filter_append, List.filter_cons_of_pos hOwn, List.length_append, List.length_cons] at hLength
    exact List.length_eq_zero_iff.mp (by rw [openFor]; omega)
  have hNone : openFor evaluation.id before = [] :=
    List.filter_eq_nil_iff.mpr fun other hOther => by rw [hBefore other hOther]; exact Bool.false_ne_true
  rw [hAssign]
  refine ⟨hDate, ⟨evaluation.payload (now - evaluation.windowMs.val) now alert, ?_, rfl, rfl, rfl⟩, ?_, ?_, ?_, ?_, ?_⟩
  · rw [openFor, List.filter_append, List.filter_cons_of_pos (by rw [alertOf_payload, hOpen.2]; simp)]
    change openFor _ before ++ _ :: openFor _ after = _
    rw [hNone, hAfter]
    rfl
  · intro budgetId hOther
    have hOld : alertOf budgetId alert = false := by
      rw [alertOf, hOpen.1, decide_eq_false (fun h => hOther h.symm), Bool.false_and]
    have hNew : alertOf budgetId (evaluation.payload (now - evaluation.windowMs.val) now alert) = false := by
      rw [alertOf_payload, decide_eq_false (fun h => hOther h.symm), Bool.false_and]
    rw [openFor, openFor, List.filter_append, List.filter_append,
      List.filter_cons_of_neg (Bool.not_eq_true _ ▸ hNew), List.filter_cons_of_neg (Bool.not_eq_true _ ▸ hOld)]
  · rw [hAny, openCount, openCount, List.countP_append, List.countP_append, List.countP_cons_of_pos hPayload,
      List.countP_cons_of_pos hOpen.2]
    rfl
  · rw [List.length_append, List.length_append, List.length_cons, List.length_cons]
    exact id
  · rw [List.map_append, List.map_append, List.map_cons, List.map_cons]
    exact List.sublist_append_left _ _
  · intro other hOther
    rcases List.mem_append.mp hOther with hOther | hOther
    · exact .inl (List.mem_append_left _ hOther)
    · rcases List.mem_cons.mp hOther with rfl | hOther
      · exact .inr ⟨⟨rfl, rfl, rfl⟩, .inl ⟨alert, List.mem_append_right _ List.mem_cons_self, rfl, rfl, rfl⟩⟩
      · exact .inl (List.mem_append_right _ (List.mem_cons_of_mem _ hOther))

theorem appended {kept : List CostAlert} (hDate : (now - evaluation.windowMs.val).natAbs ≤ 8640000000000000)
    (hAny : alerts.any (alertOf evaluation.id) = false) (hRoom : makeRoom alerts = .ok kept) : Raised now uuid evaluation
      alerts (kept ++ [evaluation.alert (now - evaluation.windowMs.val) now uuid]) := by
  obtain ⟨hSub, hOpen, hLength⟩ := makeRoom_ok hRoom
  have hKept : ∀ budgetId, openFor budgetId kept = openFor budgetId alerts := by
    intro budgetId
    rw [← openFor_open budgetId kept, hOpen, openFor_open]
  have hNone : openFor evaluation.id alerts = [] := by
    refine List.filter_eq_nil_iff.mpr fun alert hAlert hOwn => ?_
    rw [List.any_eq_true.mpr ⟨alert, hAlert, hOwn⟩] at hAny
    cases hAny
  have hNew : isOpen (evaluation.alert (now - evaluation.windowMs.val) now uuid) = true := rfl
  refine ⟨hDate, ⟨evaluation.alert (now - evaluation.windowMs.val) now uuid, ?_, rfl, rfl, rfl⟩, ?_, ?_, ?_, ?_, ?_⟩
  · have hOwn : alertOf evaluation.id (evaluation.alert (now - evaluation.windowMs.val) now uuid) = true := by
      rw [alertOf, hNew, Bool.and_true]
      exact decide_eq_true rfl
    rw [openFor, List.filter_append, List.filter_cons_of_pos hOwn]
    change openFor _ kept ++ _ = _
    rw [hKept, hNone]
    rfl
  · intro budgetId hOther
    have hNot : alertOf budgetId (evaluation.alert (now - evaluation.windowMs.val) now uuid) = false := by
      rw [alertOf, hNew, Bool.and_true]
      exact decide_eq_false fun h => hOther h.symm
    rw [openFor, List.filter_append, List.filter_cons_of_neg (by simp [hNot]), List.filter_nil, List.append_nil]
    exact hKept budgetId
  · have hCount : openCount kept = openCount alerts := by
      rw [openCount, openCount, List.countP_eq_length_filter, List.countP_eq_length_filter, hOpen]
    rw [hAny, openCount, List.countP_append, List.countP_singleton, hNew]
    exact congrArg (· + 1) hCount
  · intro hMax
    rw [List.length_append]
    exact hLength hMax
  · rw [List.map_append]
    exact (hSub.map _).append_right _
  · intro other hOther
    rcases List.mem_append.mp hOther with hOther | hOther
    · exact .inl (hSub.subset hOther)
    · rw [List.mem_singleton.mp hOther]
      exact .inr ⟨⟨rfl, rfl, rfl⟩, .inr ⟨rfl, rfl, rfl⟩⟩

theorem deriveAlert_ok (hRaises : raises budgets evaluation = true) (hOne : OneEach alerts)
    (h : deriveAlert budgets now uuid evaluation alerts = .ok alerts') : Raised now uuid evaluation alerts alerts' := by
  rw [deriveAlert_raises hRaises] at h
  obtain ⟨windowStart, hStart, h⟩ := bind_eq_ok h
  obtain ⟨hDate, rfl⟩ := isoTime_ok hStart
  split at h
  · rename_i hAny
    cases h
    exact renewed hOne hDate hAny
  · rename_i hAny
    obtain ⟨kept, hRoom, h⟩ := bind_eq_ok h
    cases h
    exact appended hDate (Bool.not_eq_true _ ▸ hAny) hRoom

theorem deriveAlert_of (hDate : raises budgets evaluation = true → (now - evaluation.windowMs.val).natAbs ≤ 8640000000000000)
    (hRoom : raises budgets evaluation = true → alerts.any (alertOf evaluation.id) = false → openCount alerts < MAX_ALERTS) :
    ∃ alerts', deriveAlert budgets now uuid evaluation alerts = .ok alerts' := by
  cases hRaises : raises budgets evaluation with
  | false => exact ⟨alerts, deriveAlert_quiet hRaises⟩
  | true =>
    have hTime : isoTime (now - evaluation.windowMs.val) = .ok (now - evaluation.windowMs.val) := if_pos (hDate hRaises)
    rw [deriveAlert_raises hRaises, hTime, ok_bind]
    cases hAny : alerts.any (alertOf evaluation.id) with
    | true => exact ⟨_, rfl⟩
    | false =>
      obtain ⟨kept, hKept⟩ := makeRoom_of (hRoom hRaises hAny)
      rw [if_neg Bool.false_ne_true, hKept]
      exact ⟨_, rfl⟩

theorem any_iff_openFor {budgetId : Identifier} {alerts : List CostAlert} :
    alerts.any (alertOf budgetId) = true ↔ openFor budgetId alerts ≠ [] := by
  rw [List.any_eq_true, openFor, Ne, List.filter_eq_nil_iff]
  simp

theorem any_congr_openFor {budgetId : Identifier} {alerts alerts' : List CostAlert}
    (h : openFor budgetId alerts' = openFor budgetId alerts) :
    alerts'.any (alertOf budgetId) = alerts.any (alertOf budgetId) := by
  rw [Bool.eq_iff_iff, any_iff_openFor, any_iff_openFor, h]

theorem Raised.one (h : Raised now uuid evaluation alerts alerts') (hOne : OneEach alerts) : OneEach alerts' := by
  intro budgetId
  by_cases hOwn : budgetId = evaluation.id
  · obtain ⟨alert, hAlert, _⟩ := h.own
    rw [hOwn, hAlert]
    exact Nat.le_refl 1
  · rw [h.others budgetId hOwn]
    exact hOne budgetId

end Evaluation

/-! ## All evaluations -/

section Evaluations

variable {budgets : List CostBudget} {now : Int} {uuid : Nat → String} {evaluations : List CostBudgetEvaluation}
  {alerts alerts' : List CostAlert}

def fresh (budgets : List CostBudget) (alerts : List CostAlert) (evaluation : CostBudgetEvaluation) : Bool :=
  raises budgets evaluation && !alerts.any (alertOf evaluation.id)

theorem deriveEach_quiet (h : evaluations.all (·.status = .within) = true) :
    deriveEach budgets now uuid evaluations alerts = .ok alerts := by
  induction evaluations generalizing uuid with
  | nil => rfl
  | cons evaluation rest ih =>
    rw [List.all_cons, Bool.and_eq_true, decide_eq_true_eq] at h
    have hQuiet : raises budgets evaluation = false := by simp [raises, h.1]
    rw [deriveEach, deriveAlert_quiet hQuiet, ok_bind]
    exact ih h.2

theorem deriveAlerts_eq :
    deriveAlerts alerts evaluations budgets now uuid = deriveEach budgets now uuid evaluations alerts := by
  rw [deriveAlerts]
  split
  · rename_i hWithin
    exact (deriveEach_quiet hWithin).symm
  · rfl

structure Derived (budgets : List CostBudget) (now : Int) (evaluations : List CostBudgetEvaluation)
    (alerts alerts' : List CostAlert) : Prop where
  own : ∀ evaluation ∈ evaluations, raises budgets evaluation = true →
    ∃ alert, openFor evaluation.id alerts' = [alert] ∧ Carries now evaluation alert
  others : ∀ budgetId, (∀ evaluation ∈ evaluations, evaluation.id ≠ budgetId) →
    openFor budgetId alerts' = openFor budgetId alerts
  one : OneEach alerts'
  count : openCount alerts' = openCount alerts + evaluations.countP (fresh budgets alerts)
  length : alerts.length ≤ MAX_ALERTS → alerts'.length ≤ MAX_ALERTS

theorem deriveEach_ok (hIds : (evaluations.map (·.id)).Nodup) (hOne : OneEach alerts)
    (h : deriveEach budgets now uuid evaluations alerts = .ok alerts') :
    Derived budgets now evaluations alerts alerts' := by
  induction evaluations generalizing alerts uuid with
  | nil =>
    cases h
    exact ⟨fun _ h => (List.not_mem_nil h).elim, fun _ _ => rfl, hOne, rfl, id⟩
  | cons evaluation rest ih =>
    rw [List.map_cons, List.nodup_cons] at hIds
    obtain ⟨hNew, hRest⟩ := hIds
    have hOther : ∀ other ∈ rest, other.id ≠ evaluation.id := fun other hOther hSame =>
      hNew (hSame ▸ List.mem_map_of_mem hOther)
    obtain ⟨mid, hFirst, h⟩ := bind_eq_ok h
    cases hRaises : raises budgets evaluation with
    | false =>
      rw [deriveAlert_quiet hRaises] at hFirst
      cases hFirst
      obtain ⟨hOwn, hOthers, hOne', hCount, hLength⟩ := ih hRest hOne h
      refine ⟨List.forall_mem_cons.mpr ⟨fun hRaised => ?_, hOwn⟩, fun budgetId hNone => ?_, hOne', ?_, hLength⟩
      · rw [hRaises] at hRaised
        cases hRaised
      · exact hOthers budgetId (List.forall_mem_cons.mp hNone).2
      · rw [hCount, List.countP_cons_of_neg (by simp [fresh, hRaises])]
    | true =>
      have hRaised := deriveAlert_ok hRaises hOne hFirst
      obtain ⟨hOwn, hOthers, hOne', hCount, hLength⟩ := ih hRest (hRaised.one hOne) h
      refine ⟨List.forall_mem_cons.mpr ⟨fun _ => ?_, hOwn⟩, fun budgetId hNone => ?_, hOne', ?_, ?_⟩
      · rw [hOthers evaluation.id hOther]
        exact hRaised.own
      · rw [List.forall_mem_cons] at hNone
        rw [hOthers budgetId hNone.2]
        exact hRaised.others budgetId hNone.1.symm
      · have hSame : rest.countP (fresh budgets mid) = rest.countP (fresh budgets alerts) := by
          refine List.countP_congr fun other hMem => ?_
          rw [fresh, fresh, any_congr_openFor (hRaised.others other.id (hOther other hMem))]
        rw [hCount, hRaised.count, hSame]
        cases hAny : alerts.any (alertOf evaluation.id) with
        | true =>
          rw [List.countP_cons_of_neg (by simp [fresh, hAny]), if_pos rfl, Nat.add_zero]
        | false =>
          rw [List.countP_cons_of_pos (by simp [fresh, hAny, hRaises]), if_neg Bool.false_ne_true]
          omega
      · exact fun hMax => hLength (hRaised.length hMax)

theorem deriveEach_of (hIds : (evaluations.map (·.id)).Nodup) (hOne : OneEach alerts)
    (hDates : ∀ evaluation ∈ evaluations, raises budgets evaluation = true →
      (now - evaluation.windowMs.val).natAbs ≤ 8640000000000000)
    (hRoom : openCount alerts + evaluations.countP (fresh budgets alerts) ≤ MAX_ALERTS) :
    ∃ alerts', deriveEach budgets now uuid evaluations alerts = .ok alerts' := by
  induction evaluations generalizing alerts uuid with
  | nil => exact ⟨alerts, rfl⟩
  | cons evaluation rest ih =>
    rw [List.map_cons, List.nodup_cons] at hIds
    obtain ⟨hNew, hRest⟩ := hIds
    rw [List.forall_mem_cons] at hDates
    have hFree : raises budgets evaluation = true → alerts.any (alertOf evaluation.id) = false →
        openCount alerts < MAX_ALERTS := by
      intro hRaises hAny
      rw [List.countP_cons_of_pos (by simp [fresh, hAny, hRaises])] at hRoom
      omega
    obtain ⟨mid, hFirst⟩ := @deriveAlert_of budgets now (uuid 0) evaluation alerts hDates.1 hFree
    rw [deriveEach, hFirst, ok_bind]
    cases hRaises : raises budgets evaluation with
    | false =>
      rw [deriveAlert_quiet hRaises] at hFirst
      cases hFirst
      rw [List.countP_cons_of_neg (by simp [fresh, hRaises])] at hRoom
      exact ih hRest hOne hDates.2 hRoom
    | true =>
      have hRaised := deriveAlert_ok hRaises hOne hFirst
      refine ih hRest (hRaised.one hOne) hDates.2 ?_
      have hSame : rest.countP (fresh budgets mid) = rest.countP (fresh budgets alerts) := by
        refine List.countP_congr fun other hMem => ?_
        rw [fresh, fresh, any_congr_openFor (hRaised.others other.id fun hSame => hNew (hSame ▸ List.mem_map_of_mem hMem))]
      rw [hRaised.count, hSame]
      cases hAny : alerts.any (alertOf evaluation.id) with
      | true =>
        rw [List.countP_cons_of_neg (by simp [fresh, hAny])] at hRoom
        rw [if_pos rfl]
        omega
      | false =>
        rw [List.countP_cons_of_pos (by simp [fresh, hAny, hRaises])] at hRoom
        rw [if_neg Bool.false_ne_true]
        omega

/-! ## Stored alerts -/

/-- The names to come are UUIDs, differ from each other and are not in use. -/
structure FreshNames (uuid : Nat → String) (count : Nat) (used : List String) : Prop where
  uuids : ∀ n < count, IsUuid (uuid n)
  distinct : ∀ m < count, ∀ n < count, uuidName "alert-" (uuid m) = uuidName "alert-" (uuid n) → m = n
  unused : ∀ n < count, uuidName "alert-" (uuid n) ∉ used

theorem FreshNames.next {count : Nat} {used used' : List String} (h : FreshNames uuid (count + 1) used)
    (hUsed : ∀ name ∈ used', name ∈ used ++ [uuidName "alert-" (uuid 0)]) :
    FreshNames (fun n => uuid (n + 1)) count used' where
  uuids n hn := h.uuids (n + 1) (Nat.succ_lt_succ hn)
  distinct m hm n hn hSame := Nat.succ.inj (h.distinct (m + 1) (Nat.succ_lt_succ hm) (n + 1) (Nat.succ_lt_succ hn) hSame)
  unused n hn hMem := by
    rcases List.mem_append.mp (hUsed _ hMem) with hOld | hFirst
    · exact h.unused (n + 1) (Nat.succ_lt_succ hn) hOld
    · cases h.distinct (n + 1) (Nat.succ_lt_succ hn) 0 (Nat.succ_pos count) (List.mem_singleton.mp hFirst)

structure Storable (now : Int) (evaluation : CostBudgetEvaluation) : Prop where
  entries : evaluation.exceeded.length ≤ CostAmountKey.all.length
  totals : ∀ entry ∈ evaluation.exceeded, entry.total ≤ MAX_SAFE_INTEGER
  windowStart : Printable (now - evaluation.windowMs.val)
  windowEnd : Printable now

theorem Raised.valid {name : String} {evaluation : CostBudgetEvaluation} (h : Raised now name evaluation alerts alerts')
    (hStorable : Storable now evaluation) (hName : IsUuid name) (hAlerts : ∀ alert ∈ alerts, alert.Valid) :
    ∀ alert ∈ alerts', alert.Valid := by
  intro alert hAlert
  rcases h.made alert hAlert with hOld | ⟨⟨hExceeded, hStart, hEnd⟩, hMade⟩
  · exact hAlerts alert hOld
  · have hRest : isIdentifier alert.id = true ∧ Printable alert.created ∧
        ∀ acknowledgement ∈ alert.acknowledgement, Printable acknowledgement.acknowledgedAt := by
      rcases hMade with ⟨old, hOld, hId, hCreated, hAcknowledged⟩ | ⟨hId, hCreated, hAcknowledged⟩
      · rw [hId, hCreated, hAcknowledged]
        exact ⟨(hAlerts old hOld).id, (hAlerts old hOld).created, (hAlerts old hOld).acknowledged⟩
      · rw [hId, hCreated, hAcknowledged]
        exact ⟨@uuidName_isIdentifier "alert-" _ rfl hName, hStorable.windowEnd, fun _ hSome => by cases hSome⟩
    obtain ⟨hId, hCreated, hAcknowledged⟩ := hRest
    exact ⟨hExceeded ▸ hStorable.entries, hExceeded ▸ hStorable.totals, hId, hStart ▸ hStorable.windowStart,
      hEnd ▸ hStorable.windowEnd, hCreated, hAcknowledged⟩

theorem deriveEach_valid (hIds : (evaluations.map (·.id)).Nodup) (hOne : OneEach alerts)
    (hStorable : ∀ evaluation ∈ evaluations, raises budgets evaluation = true → Storable now evaluation)
    (hNames : FreshNames uuid evaluations.length (alerts.map (·.id))) (hAlerts : ∀ alert ∈ alerts, alert.Valid)
    (hUnique : (alerts.map (·.id)).Nodup) (h : deriveEach budgets now uuid evaluations alerts = .ok alerts') :
    (∀ alert ∈ alerts', alert.Valid) ∧ (alerts'.map (·.id)).Nodup := by
  induction evaluations generalizing alerts uuid with
  | nil =>
    cases h
    exact ⟨hAlerts, hUnique⟩
  | cons evaluation rest ih =>
    rw [List.map_cons, List.nodup_cons] at hIds
    rw [List.forall_mem_cons] at hStorable
    obtain ⟨mid, hFirst, h⟩ := bind_eq_ok h
    cases hRaises : raises budgets evaluation with
    | false =>
      rw [deriveAlert_quiet hRaises] at hFirst
      cases hFirst
      exact ih hIds.2 hOne hStorable.2 (hNames.next fun _ hName => List.mem_append_left _ hName) hAlerts hUnique h
    | true =>
      have hRaised := deriveAlert_ok hRaises hOne hFirst
      have hName := hNames.uuids 0 (Nat.succ_pos _)
      have hNew : (alerts.map (·.id) ++ [uuidName "alert-" (uuid 0)]).Nodup := by
        rw [← List.concat_eq_append]
        exact hUnique.concat (hNames.unused 0 (Nat.succ_pos _))
      exact ih hIds.2 (hRaised.one hOne) hStorable.2 (hNames.next fun _ hMem => hRaised.ids.subset hMem)
        (hRaised.valid (hStorable.1 hRaises) hName hAlerts) (hNew.sublist hRaised.ids) h

end Evaluations

/-! ## Budgets that alert -/

/-- What the records of a budget cost, without rounding. -/
def CostBudget.spent (budget : CostBudget) (records : List CostRecord) (now : Int) (key : CostAmountKey) : Nat :=
  ((records.filter (budget.counts now)).map (·.costs key)).sum

def CostBudget.overspent (budget : CostBudget) (records : List CostRecord) (now : Int) : Bool :=
  CostAmountKey.all.any fun key => (budget.limits.get key).any fun limit => limit.val < budget.spent records now key

def CostBudget.alarming (budget : CostBudget) (records : List CostRecord) (now : Int) : Bool :=
  budget.alertOnExceed && budget.overspent records now

theorem totals_le_iff {budget : CostBudget} {records : List CostRecord} {now : Int} {key : CostAmountKey} {limit : Nat}
    (h : limit ≤ MAX_SAFE_INTEGER) :
    (evaluateBudget budget records now).totals key ≤ limit ↔ budget.spent records now key ≤ limit := by
  have hTotals : (evaluateBudget budget records now).totals key =
      ((records.filter (budget.counts now)).map (·.costs key)).foldl add 0 := sumAmounts_key _ key
  rw [hTotals, foldl_add_le_iff h, Nat.zero_add]
  rfl

theorem mem_all (key : CostAmountKey) : key ∈ CostAmountKey.all := by cases key <;> decide

theorem mem_exceededOf {limits : CostLimits} {totals : CostAmounts} {entry : Exceeded} :
    entry ∈ exceededOf limits totals ↔ limits.get entry.key = some entry.limit ∧ entry.limit.val < totals entry.key ∧
      entry.total = totals entry.key := by
  rw [exceededOf, List.mem_filterMap]
  constructor
  · rintro ⟨key, _, hEntry⟩
    split at hEntry
    · rename_i limit hLimit
      split at hEntry
      · rename_i hAbove
        cases hEntry
        exact ⟨hLimit, hAbove, rfl⟩
      · cases hEntry
    · cases hEntry
  · rintro ⟨hLimit, hAbove, hTotal⟩
    refine ⟨entry.key, mem_all entry.key, ?_⟩
    rw [hLimit]
    dsimp only
    rw [if_pos hAbove, ← hTotal]

theorem status_exceeded_iff {budget : CostBudget} {records : List CostRecord} {now : Int} :
    (evaluateBudget budget records now).status = .exceeded ↔ budget.overspent records now = true := by
  have hStatus : (evaluateBudget budget records now).status = .exceeded ↔
      ∃ entry, entry ∈ exceededOf budget.limits (evaluateBudget budget records now).totals := by
    change (if exceededOf budget.limits (evaluateBudget budget records now).totals = [] then CostStatus.within
      else .exceeded) = .exceeded ↔ _
    split
    · rename_i hNone
      simp [hNone]
    · rename_i hSome
      exact iff_of_true rfl (List.exists_mem_of_ne_nil _ hSome)
  rw [hStatus, CostBudget.overspent, List.any_eq_true]
  constructor
  · rintro ⟨entry, hEntry⟩
    obtain ⟨hLimit, hAbove, _⟩ := mem_exceededOf.mp hEntry
    refine ⟨entry.key, mem_all entry.key, ?_⟩
    rw [hLimit, Option.any_some, decide_eq_true_eq]
    exact Nat.not_le.mp fun hWithin => Nat.not_le.mpr hAbove ((totals_le_iff entry.limit.property).mpr hWithin)
  · rintro ⟨key, _, hKey⟩
    obtain ⟨limit, hLimit, hAbove⟩ := (Option.any_eq_true _ _).mp hKey
    rw [decide_eq_true_eq] at hAbove
    refine ⟨⟨key, limit, (evaluateBudget budget records now).totals key⟩, mem_exceededOf.mpr ⟨hLimit, ?_, rfl⟩⟩
    exact Nat.not_le.mp fun hWithin => Nat.not_le.mpr hAbove ((totals_le_iff limit.property).mp hWithin)

theorem find_budget {budgets : List CostBudget} (hIds : (budgets.map (·.id.val)).Nodup) {budget : CostBudget}
    (hBudget : budget ∈ budgets) : budgets.find? (·.id = budget.id) = some budget := by
  induction budgets with
  | nil => cases hBudget
  | cons first rest ih =>
    rw [List.map_cons, List.nodup_cons] at hIds
    rcases List.mem_cons.mp hBudget with rfl | hRest
    · simp
    · have hOther : first.id ≠ budget.id := fun hSame => hIds.1 (hSame ▸ List.mem_map_of_mem (f := (·.id.val)) hRest)
      rw [List.find?_cons_of_neg (by simpa using hOther)]
      exact ih hIds.2 hRest

theorem raises_iff {budgets : List CostBudget} (hIds : (budgets.map (·.id.val)).Nodup) {budget : CostBudget}
    (hBudget : budget ∈ budgets) (records : List CostRecord) (now : Int) :
    raises budgets (evaluateBudget budget records now) = budget.alarming records now := by
  have hFind : budgets.find? (·.id = (evaluateBudget budget records now).id) = some budget := find_budget hIds hBudget
  rw [raises, hFind, Option.any_some, Bool.not_not, CostBudget.alarming, Bool.and_comm]
  refine congrArg _ ?_
  rw [Bool.eq_iff_iff, decide_eq_true_eq]
  exact status_exceeded_iff

/-! ## Alarms -/

/-- The alarms of a state can come out: they can be stored, and there is room for those of budgets without an open one. -/
structure Raisable (state : CostStoreState) (now : Int) : Prop where
  totals : ∀ budget ∈ state.budgets, budget.alarming state.records now = true → ∀ key, ∀ limit ∈ budget.limits.get key,
    budget.spent state.records now key ≤ MAX_SAFE_INTEGER
  dates : ∀ budget ∈ state.budgets, budget.alarming state.records now = true →
    Printable now ∧ Printable (now - budget.windowMs.val)
  room : openCount state.alerts + state.budgets.countP (fun budget =>
    budget.alarming state.records now && !state.alerts.any (alertOf budget.id)) ≤ MAX_ALERTS

structure Asks (input : ListInput) (state : CostStoreState) : Prop where
  operator : ∃ operator, authorize input.authenticate .inspect = .ok operator
  clock : ∃ now, format.timestamp input.now = .ok now
  names : FreshNames input.uuid MAX_BUDGETS (state.alerts.map (·.id))

/-- Every exceeded budget that asks for alerts has one open alert, with what is exceeded now. -/
def Alarmed (now : Int) (before after : CostStoreState) : Prop :=
  ∀ budget ∈ before.budgets, budget.alertOnExceed = true →
    (evaluateBudget budget before.records now).status = .exceeded →
    ∃ alert, openFor budget.id after.alerts = [alert] ∧ alert.exceeded = (evaluateBudget budget before.records now).exceeded

section List

variable {input : ListInput} {store : Option CostStoreState} {now : Int}

theorem evaluations_ids (state : CostStoreState) (hValid : Valid state) :
    ((listEvaluations state now).map (·.id)).Nodup := by
  have hIds : (listEvaluations state now).map (·.id) = state.budgets.map (·.id) := by
    rw [listEvaluations, List.map_map]
    rfl
  have hVals : ((state.budgets.map (·.id)).map Subtype.val).Nodup := by
    rw [List.map_map]
    exact hValid.budgetIds
  rw [hIds]
  exact hVals.of_map _

theorem mem_evaluations {state : CostStoreState} (hValid : Valid state) {property : CostBudgetEvaluation → Prop} :
    (∀ evaluation ∈ listEvaluations state now, raises state.budgets evaluation = true → property evaluation) ↔
      ∀ budget ∈ state.budgets, budget.alarming state.records now = true →
        property (evaluateBudget budget state.records now) := by
  rw [listEvaluations_eq, List.forall_mem_map]
  refine forall_congr' fun budget => imp_congr_right fun hBudget => ?_
  rw [raises_iff hValid.budgetIds hBudget]

theorem countP_fresh {state : CostStoreState} (hValid : Valid state) :
    (listEvaluations state now).countP (fresh state.budgets state.alerts) = state.budgets.countP (fun budget =>
      budget.alarming state.records now && !state.alerts.any (alertOf budget.id)) := by
  rw [listEvaluations_eq, List.countP_map]
  refine List.countP_congr fun budget hBudget => ?_
  rw [Function.comp_apply, fresh, raises_iff hValid.budgetIds hBudget]
  rfl

theorem listAlerts_of (hValid : Valid (stateOf store)) (hOne : OneEach (stateOf store).alerts)
    (hSize : ∀ state, store = some state → format.bytes state ≤ format.maxBytes) (asks : Asks input (stateOf store))
    (hNow : format.timestamp input.now = .ok now) (raisable : Raisable (stateOf store) now) :
    ∃ alerts state, listAlerts input store = .ok (alerts, state) := by
  obtain ⟨operator, hOperator⟩ := asks.operator
  have hRead : format.read store = .ok (stateOf store) := by
    cases store with
    | none => rfl
    | some stored => exact format_accepts.read_of_size hValid (hSize stored rfl)
  have hIds := @evaluations_ids now _ hValid
  have hStorable : ∀ evaluation ∈ listEvaluations (stateOf store) now,
      raises (stateOf store).budgets evaluation = true → Storable now evaluation := by
    refine (mem_evaluations hValid).mpr fun budget hBudget hAlarming => ?_
    obtain ⟨hPrintable, hStart⟩ := raisable.dates budget hBudget hAlarming
    refine ⟨?_, fun entry hEntry => ?_, hStart, hPrintable⟩
    · exact List.length_filterMap_le _ _
    · obtain ⟨hLimit, _, hTotal⟩ := mem_exceededOf.mp hEntry
      rw [hTotal]
      exact (totals_le_iff (Nat.le_refl _)).mpr (raisable.totals budget hBudget hAlarming entry.key entry.limit hLimit)
  have hDates : ∀ evaluation ∈ listEvaluations (stateOf store) now, raises (stateOf store).budgets evaluation = true →
      (now - evaluation.windowMs.val).natAbs ≤ 8640000000000000 := by
    exact fun evaluation hEvaluation hRaises =>
      Date.natAbs_le_of_isTimestamp (hStorable evaluation hEvaluation hRaises).windowStart
  have hRoom : openCount (stateOf store).alerts +
      (listEvaluations (stateOf store) now).countP (fresh (stateOf store).budgets (stateOf store).alerts) ≤ MAX_ALERTS := by
    rw [countP_fresh hValid]
    exact raisable.room
  obtain ⟨alerts, hDerive⟩ := @deriveEach_of _ now input.uuid _ _ hIds hOne hDates hRoom
  have hNames : FreshNames input.uuid (listEvaluations (stateOf store) now).length ((stateOf store).alerts.map (·.id)) := by
    have hCount : (listEvaluations (stateOf store) now).length ≤ MAX_BUDGETS := by
      rw [listEvaluations, List.length_map]
      exact hValid.budgetsLength
    exact ⟨fun n hn => asks.names.uuids n (hn.trans_le hCount),
      fun m hm n hn => asks.names.distinct m (hm.trans_le hCount) n (hn.trans_le hCount),
      fun n hn => asks.names.unused n (hn.trans_le hCount)⟩
  obtain ⟨hAlerts, hUnique⟩ := deriveEach_valid hIds hOne hStorable hNames hValid.alerts hValid.alertIds hDerive
  have hAfter : Valid { stateOf store with alerts } :=
    ⟨hValid.recordsLength, hValid.records, hValid.recordIds, hValid.budgetsLength, hValid.budgetIds,
      (deriveEach_ok hIds hOne hDerive).length hValid.alertsLength, hAlerts, hUnique⟩
  have hRun : listAlertsOp now input.uuid (stateOf store) = (.ok alerts, { stateOf store with alerts }) := by
    rw [listAlertsOp, get_bind, deriveAlerts_eq, hDerive, lift_bind, modify_bind]
    rfl
  refine ⟨alerts, { stateOf store with alerts }, ?_⟩
  rw [listAlerts, hOperator, ok_bind, hNow, ok_bind]
  exact format_accepts.update_of hRead hRun hAfter

theorem listAlerts_raisable {alerts : List CostAlert} {state : CostStoreState} (hValid : Valid (stateOf store))
    (hOne : OneEach (stateOf store).alerts) (hNow : format.timestamp input.now = .ok now)
    (h : listAlerts input store = .ok (alerts, state)) :
    Alarmed now (stateOf store) state ∧ OneEach state.alerts ∧ Raisable (stateOf store) now ∧
      ∀ state, store = some state → format.bytes state ≤ format.maxBytes := by
  obtain ⟨hAfter, now', hNow', hDerive, rfl⟩ := listAlerts_ok h
  obtain rfl : now' = now := Except.ok.inj (hNow'.symm.trans hNow)
  have hIds := @evaluations_ids now' _ hValid
  rw [deriveAlerts_eq] at hDerive
  have hDerived := deriveEach_ok hIds hOne hDerive
  have hOwn := (mem_evaluations hValid).mp hDerived.own
  have hAlert : ∀ budget ∈ (stateOf store).budgets, budget.alarming (stateOf store).records now' = true →
      ∃ alert ∈ alerts, openFor budget.id alerts = [alert] ∧
        Carries now' (evaluateBudget budget (stateOf store).records now') alert := by
    intro budget hBudget hAlarming
    obtain ⟨alert, hOpen, hCarries⟩ := hOwn budget hBudget hAlarming
    have hMem : alert ∈ openFor budget.id alerts := hOpen ▸ List.mem_singleton_self alert
    exact ⟨alert, (List.mem_filter.mp hMem).1, hOpen, hCarries⟩
  refine ⟨?_, hDerived.one, ⟨?_, ?_, ?_⟩, ?_⟩
  · intro budget hBudget hAlerting hExceeded
    have hAlarming : budget.alarming (stateOf store).records now' = true := by
      rw [CostBudget.alarming, hAlerting, status_exceeded_iff.mp hExceeded]
      rfl
    obtain ⟨alert, _, hOpen, hCarries⟩ := hAlert budget hBudget hAlarming
    exact ⟨alert, hOpen, hCarries.exceeded⟩
  · intro budget hBudget hAlarming key limit hLimit
    obtain ⟨alert, hMem, _, hCarries⟩ := hAlert budget hBudget hAlarming
    refine Nat.not_lt.mp fun hAbove => ?_
    have hTotal : MAX_SAFE_INTEGER < (evaluateBudget budget (stateOf store).records now').totals key :=
      Nat.not_le.mp fun hSafe => Nat.not_le.mpr hAbove ((totals_le_iff (Nat.le_refl _)).mp hSafe)
    have hEntry : (⟨key, limit, (evaluateBudget budget (stateOf store).records now').totals key⟩ : Exceeded) ∈
        alert.exceeded := by
      rw [hCarries.exceeded]
      exact mem_exceededOf.mpr ⟨hLimit, lt_of_le_of_lt limit.property hTotal, rfl⟩
    exact Nat.not_le.mpr hTotal ((hAfter.alerts alert hMem).totals _ hEntry)
  · intro budget hBudget hAlarming
    obtain ⟨alert, hMem, _, hCarries⟩ := hAlert budget hBudget hAlarming
    have hAlertValid := hAfter.alerts alert hMem
    exact ⟨hCarries.windowEnd ▸ hAlertValid.windowEnd, hCarries.windowStart ▸ hAlertValid.windowStart⟩
  · rw [← countP_fresh hValid, ← hDerived.count]
    exact List.countP_le_length.trans hAfter.alertsLength
  · obtain ⟨_, _, h⟩ := bind_eq_ok h
    obtain ⟨_, _, h⟩ := bind_eq_ok h
    obtain ⟨_, hRead, _⟩ := bind_eq_ok h
    exact read_size hRead

end List

/-! ## Runs -/

theorem openFor_acknowledged {id : String} {alert : CostAlert} {acknowledgement : Acknowledgement} {alerts : List CostAlert}
    (h : OneEach alerts) : OneEach (assignFirst (·.id = id) (fun _ =>
      { alert with acknowledgement := some acknowledgement }) alerts) := by
  cases hAny : alerts.any (·.id = id) with
  | false =>
    rw [assignFirst_none hAny]
    exact h
  | true =>
    obtain ⟨before, old, after, rfl, _, _, hAssign⟩ := @assignFirst_split _ _
      (fun _ => { alert with acknowledgement := some acknowledgement }) _ hAny
    intro budgetId
    have hClosed : alertOf budgetId { alert with acknowledgement := some acknowledgement } = false := by
      rw [alertOf, isOpen, Option.isNone_some, Bool.and_false]
    have hOld := h budgetId
    rw [openFor, List.filter_append, List.length_append] at hOld
    rw [hAssign, openFor, List.filter_append, List.length_append, List.filter_cons_of_neg (Bool.not_eq_true _ ▸ hClosed)]
    exact (Nat.add_le_add_left ((List.sublist_cons_self old after).filter _).length_le _).trans hOld

theorem run_one {events : List CostEvent} {store : Option CostStoreState} (run : machine.FreeRun events store) :
    Valid (stateOf store) ∧ OneEach (stateOf store).alerts := by
  refine serve_induction (I := fun state => Valid state ∧ OneEach state.alerts) ⟨Valid.empty, fun _ => Nat.zero_le _⟩
    (fun clock before after h hValid hChanges => ⟨hValid, ?_⟩) run
  obtain ⟨hBefore, hOne⟩ := h
  cases hChanges with
  | recorded => exact hOne
  | reconfigured => exact hOne
  | configured => exact hOne
  | removed => exact hOne
  | listed now uuid alerts derived =>
    rw [deriveAlerts_eq] at derived
    exact (deriveEach_ok (evaluations_ids before hBefore) hOne derived).one
  | acknowledged => exact openFor_acknowledged hOne

/-- No budget has two open alerts, and a proper request for the alerts gets them out. -/
def ComesOut (store : Option CostStoreState) (event : CostEvent) : Prop :=
  OneEach (stateOf (serve store event)).alerts ∧ ∀ input now, event = .listAlerts input → Asks input (stateOf store) →
    format.timestamp input.now = .ok now →
    ∃ alerts state, listAlerts input store = .ok (alerts, state) ∧ Alarmed now (stateOf store) state

/-- The store can be read and its alarms can come out whenever they are asked for. -/
def CanComeOut (store : Option CostStoreState) (event : CostEvent) : Prop :=
  ∀ input now, event = .listAlerts input → Asks input (stateOf store) → format.timestamp input.now = .ok now →
    Raisable (stateOf store) now ∧ ∀ state, store = some state → format.bytes state ≤ format.maxBytes

theorem comesOut_iff (events : List CostEvent) (store : Option CostStoreState) (event : CostEvent)
    (run : machine.FreeRun events store) : ComesOut store event ↔ CanComeOut store event := by
  obtain ⟨hValid, hOne⟩ := run_one run
  constructor
  · rintro ⟨_, hComes⟩ input now hEvent asks hNow
    obtain ⟨alerts, state, hList, _⟩ := hComes input now hEvent asks hNow
    exact (listAlerts_raisable hValid hOne hNow hList).2.2
  · intro hCan
    refine ⟨(run_one (run.next trivial rfl : machine.FreeRun (events ++ [event]) (serve store event))).2, ?_⟩
    intro input now hEvent asks hNow
    obtain ⟨hRaisable, hSize⟩ := hCan input now hEvent asks hNow
    obtain ⟨alerts, state, hList⟩ := listAlerts_of hValid hOne hSize asks hNow hRaisable
    exact ⟨alerts, state, hList, (listAlerts_raisable hValid hOne hNow hList).1⟩

/-- The alerts come out throughout a run exactly when they can in each of its steps. -/
theorem alerts_come_out_iff (events : List CostEvent) :
    machine.Always ComesOut events ↔ machine.Always CanComeOut events :=
  Machine.always_congr_run comesOut_iff events

/-! ## An alarm too large to store -/

def listInput : ListInput := ⟨.ok localOperator, some 0, Reliability.binaryUuid⟩

def largeEvents : List CostEvent := [.configureBudget (.ok localOperator) dayBudget,
  .recordCost (requestsInput "x1" MAX_SAFE_INTEGER "00000000-0000-4000-8000-000000000001"),
  .recordCost (requestsInput "x2" 1 "00000000-0000-4000-8000-000000000002")]

/-- The costs of two actions add up to a total that an alert cannot carry. -/
theorem large_alarm_fails : ¬machine.Always ComesOut (largeEvents ++ [.listAlerts listInput]) := by
  have hTest : ((machine.exec none largeEvents).any fun store =>
      (authorize listInput.authenticate .inspect).toOption.isSome && (stateOf store).alerts.isEmpty &&
        (listAlerts listInput store).toOption.isNone) = true := by decide +kernel
  intro hAlways
  obtain ⟨store, hRun, hTest⟩ := (Option.any_eq_true _ _).mp hTest
  rw [Bool.and_eq_true, Bool.and_eq_true, List.isEmpty_iff] at hTest
  obtain ⟨⟨hOperator, hAlerts⟩, hFails⟩ := hTest
  obtain ⟨operator, hOperator⟩ := Option.isSome_iff_exists.mp hOperator
  have asks : Asks listInput (stateOf store) := by
    refine ⟨⟨operator, toOption_eq_some hOperator⟩, ⟨0, rfl⟩, fun n _ => Reliability.binaryUuid_isUuid n, ?_, ?_⟩
    · intro m hm n hn hSame
      rw [MAX_BUDGETS] at hm hn
      exact Reliability.binaryUuid_inj (by omega) (by omega) hSame
    · rw [hAlerts]
      exact fun _ _ => List.not_mem_nil
  obtain ⟨_, hComes⟩ := hAlways largeEvents _ [] store rfl (Machine.freeRun_of_exec hRun)
  obtain ⟨alerts, state, hList, _⟩ := hComes listInput 0 rfl asks rfl
  rw [hList] at hFails
  cases hFails

end GhostApi.Costs
