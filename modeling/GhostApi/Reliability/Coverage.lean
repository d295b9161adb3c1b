import GhostApi.Ledger.Recording
import GhostApi.Reliability.Reconciliation
import GhostApi.Safety.Progress

/-!
# Which actions a reconciliation covers

Entries are grouped by the name of their action. A governance name is skipped,
whoever chose it, and a name that every object inherits stops the run.
-/

namespace GhostApi.Reliability

open Js Security Validation Effect Effect.Mutation Storage Transition Actions Ledger
open Safety (printable_zero)

/-! ## Groups -/

def timelineOf (groups : List Group) (actionId : Identifier) : List LedgerEntry :=
  match groups.find? (·.actionId = actionId) with
  | some group => group.first :: group.rest
  | none => []

/-- The entries of an action, unless it has a governance name. -/
def reported (actionId : Identifier) (entries : List LedgerEntry) : List LedgerEntry :=
  entries.filter fun entry => entry.actionId = actionId ∧ isGovernance entry.actionId = false

theorem pushEntry_ids (entry : LedgerEntry) (groups : List Group) :
    (pushEntry entry groups).map (·.actionId) = groups.map (·.actionId) ∧ entry.actionId ∈ groups.map (·.actionId) ∨
      (pushEntry entry groups).map (·.actionId) = groups.map (·.actionId) ++ [entry.actionId] ∧
        entry.actionId ∉ groups.map (·.actionId) := by
  induction groups with
  | nil => exact .inr ⟨rfl, List.not_mem_nil⟩
  | cons group groups ih =>
    rw [pushEntry]
    split
    · rename_i hSame
      refine .inl ⟨rfl, ?_⟩
      rw [List.map_cons, hSame]
      exact List.mem_cons_self
    · rename_i hOther
      rw [List.map_cons, List.map_cons]
      rcases ih with ⟨hKeys, hMem⟩ | ⟨hKeys, hNew⟩
      · exact .inl ⟨by rw [hKeys], List.mem_cons_of_mem _ hMem⟩
      · refine .inr ⟨by rw [hKeys]; rfl, ?_⟩
        rw [List.mem_cons, not_or]
        exact ⟨fun hSame => hOther hSame.symm, hNew⟩

theorem pushEntry_timeline (entry : LedgerEntry) (groups : List Group) (actionId : Identifier) :
    timelineOf (pushEntry entry groups) actionId =
      timelineOf groups actionId ++ if entry.actionId = actionId then [entry] else [] := by
  induction groups with
  | nil =>
    by_cases hId : entry.actionId = actionId
    · simp [pushEntry, timelineOf, hId]
    · simp [pushEntry, timelineOf, hId]
  | cons group groups ih =>
    rw [timelineOf] at ih
    rw [pushEntry]
    split
    · rename_i hSame
      by_cases hId : group.actionId = actionId
      · simp [timelineOf, hId, ← hSame]
      · simp [timelineOf, hId, ← hSame]
    · rename_i hOther
      by_cases hId : group.actionId = actionId
      · have hEntry : entry.actionId ≠ actionId := fun h => hOther (hId.trans h.symm)
        simp [timelineOf, hId, hEntry]
      · simp only [timelineOf, List.find?_cons, hId, decide_false]
        exact ih

structure Grouped (groups : List Group) (entries : List LedgerEntry) (groups' : List Group) : Prop where
  nodup : (groups'.map (·.actionId)).Nodup
  timeline : ∀ actionId, timelineOf groups' actionId = timelineOf groups actionId ++ reported actionId entries
  plain : ∀ entry ∈ entries, isGovernance entry.actionId = false → objectPrototype.contains entry.actionId.val = false

theorem groupByAction_ok {groups groups' : List Group} {entries : List LedgerEntry}
    (hNodup : (groups.map (·.actionId)).Nodup) (h : groupByAction groups entries = .ok groups') :
    Grouped groups entries groups' := by
  induction entries generalizing groups with
  | nil =>
    cases h
    exact ⟨hNodup, fun _ => (List.append_nil _).symm, fun _ h => (List.not_mem_nil h).elim⟩
  | cons entry rest ih =>
    rw [groupByAction] at h
    split at h
    · rename_i hGoverns
      obtain ⟨hAfter, hTimeline, hPlain⟩ := ih hNodup h
      refine ⟨hAfter, fun actionId => ?_, List.forall_mem_cons.mpr ⟨fun hNot => ?_, hPlain⟩⟩
      · rw [hTimeline, reported, reported, List.filter_cons_of_neg (by simp [hGoverns])]
      · rw [hGoverns] at hNot
        cases hNot
    · rename_i hGoverns
      rw [Bool.not_eq_true] at hGoverns
      split at h
      · cases h
      · rename_i hOwn
        have hPushed : ((pushEntry entry groups).map (·.actionId)).Nodup := by
          rcases pushEntry_ids entry groups with ⟨hKeys, _⟩ | ⟨hKeys, hNew⟩
          · rw [hKeys]
            exact hNodup
          · rw [hKeys, ← List.concat_eq_append]
            exact hNodup.concat hNew
        obtain ⟨hAfter, hTimeline, hPlain⟩ := ih hPushed h
        refine ⟨hAfter, fun actionId => ?_, List.forall_mem_cons.mpr ⟨fun _ => by simpa using hOwn, hPlain⟩⟩
        rw [hTimeline, pushEntry_timeline, List.append_assoc]
        refine congrArg (_ ++ ·) ?_
        by_cases hId : entry.actionId = actionId
        · rw [reported, reported, List.filter_cons_of_pos (by simp [hId, ← hGoverns]), if_pos hId]
          rfl
        · rw [reported, reported, List.filter_cons_of_neg (by simp [hId]), if_neg hId]
          rfl

theorem groupByAction_of {groups : List Group} {entries : List LedgerEntry}
    (h : ∀ entry ∈ entries, isGovernance entry.actionId = false → objectPrototype.contains entry.actionId.val = false) :
    ∃ groups', groupByAction groups entries = .ok groups' := by
  induction entries generalizing groups with
  | nil => exact ⟨groups, rfl⟩
  | cons entry rest ih =>
    rw [List.forall_mem_cons] at h
    rw [groupByAction]
    split
    · exact ih h.2
    · rename_i hGoverns
      rw [if_neg (by simpa using h.1 (Bool.not_eq_true _ ▸ hGoverns))]
      exact ih h.2

theorem mem_groups_iff {groups : List Group} {actionId : Identifier} :
    actionId ∈ groups.map (·.actionId) ↔ timelineOf groups actionId ≠ [] := by
  rw [timelineOf]
  cases hFind : groups.find? (·.actionId = actionId) with
  | some group =>
    refine iff_of_true ?_ (List.cons_ne_nil _ _)
    have hId : group.actionId = actionId := by simpa using List.find?_some hFind
    exact hId ▸ List.mem_map_of_mem (List.mem_of_find?_eq_some hFind)
  | none =>
    refine iff_of_false (fun hMem => ?_) (fun h => h rfl)
    obtain ⟨group, hGroup, hId⟩ := List.mem_map.mp hMem
    have hNone := List.find?_eq_none.mp hFind group hGroup
    exact hNone (by simpa using hId)

theorem timelineOf_group {groups : List Group} (hNodup : (groups.map (·.actionId)).Nodup) {group : Group}
    (hGroup : group ∈ groups) : timelineOf groups group.actionId = group.first :: group.rest := by
  induction groups with
  | nil => cases hGroup
  | cons other groups ih =>
    rw [List.map_cons, List.nodup_cons] at hNodup
    rcases List.mem_cons.mp hGroup with rfl | hRest
    · simp [timelineOf]
    · have hOther : other.actionId ≠ group.actionId := fun hSame => hNodup.1 (hSame ▸ List.mem_map_of_mem hRest)
      rw [← ih hNodup.2 hRest, timelineOf, timelineOf, List.find?_cons_of_neg (by simpa using hOther)]

/-! ## Results -/

structure Classified (tenantId actionId : Identifier) (timeline : List LedgerEntry)
    (result : ReconciliationActionResult) : Prop where
  tenantId : result.tenantId = tenantId
  actionId : result.actionId = actionId
  intent : result.ledgerIntent = classifyIntent timeline
  outcome : result.outcome = (decideOutcome result.ledgerIntent result.providerPresent).outcome
  retrySafe : result.retrySafe = (decideOutcome result.ledgerIntent result.providerPresent).retrySafe
  reasons : result.reasons = reasonsOf result.ledgerIntent result.providerPresent

theorem classify_ok {provider : ReconciliationProvider} {tenantId actionId : Identifier} {first : LedgerEntry}
    {rest : List LedgerEntry} {result : ReconciliationActionResult}
    (h : classify provider tenantId actionId first rest = .ok result) :
    Classified tenantId actionId (first :: rest) result := by
  obtain ⟨worldId, _, h⟩ := bind_eq_ok h
  obtain ⟨providerPresent, _, h⟩ := bind_eq_ok h
  cases h
  exact ⟨rfl, rfl, rfl, rfl, rfl, rfl⟩

/-- The provider answers without throwing. -/
structure ReconciliationProvider.Answers (provider : ReconciliationProvider) : Prop where
  resolves : ∀ actionId actionHash, ∃ worldId, provider.resolveWorld actionId actionHash = .ok worldId
  reads : ∀ actionId worldId, ∃ world, provider.read actionId worldId = .ok world

theorem classify_of {provider : ReconciliationProvider} (h : provider.Answers) (tenantId actionId : Identifier)
    (first : LedgerEntry) (rest : List LedgerEntry) :
    ∃ result, classify provider tenantId actionId first rest = .ok result := by
  obtain ⟨worldId, hWorld⟩ := h.resolves actionId first.actionHash
  have hInspect : ∃ present, inspectWorld provider actionId worldId = .ok present := by
    cases worldId with
    | none => exact ⟨none, rfl⟩
    | some worldId =>
      obtain ⟨world, hRead⟩ := h.reads actionId worldId
      rw [inspectWorld, hRead]
      exact ⟨_, rfl⟩
  obtain ⟨present, hInspect⟩ := hInspect
  rw [classify, hWorld, ok_bind, hInspect]
  exact ⟨_, rfl⟩

theorem mapM_of {α β : Type} {f : α → Except JsError β} {xs : List α} (h : ∀ x ∈ xs, ∃ y, f x = .ok y) :
    ∃ ys, xs.mapM f = .ok ys := by
  induction xs with
  | nil => exact ⟨[], rfl⟩
  | cons x xs ih =>
    rw [List.forall_mem_cons] at h
    obtain ⟨y, hHead⟩ := h.1
    obtain ⟨ys, hTail⟩ := ih h.2
    exact ⟨y :: ys, by rw [List.mapM_cons, hHead, hTail]; rfl⟩

section Results

variable {provider : ReconciliationProvider} {tenantId : Identifier} {groups : List Group}
  {results : List ReconciliationActionResult}

theorem classifyAll_of (h : provider.Answers) (tenantId : Identifier) (groups : List Group) :
    ∃ results, classifyAll provider tenantId groups = .ok results :=
  mapM_of fun group _ => classify_of h tenantId group.actionId group.first group.rest

theorem classifyAll_ids (h : classifyAll provider tenantId groups = .ok results) :
    (results.map (·.actionId)).Perm (groups.map (·.actionId)) := by
  have hAll := mapM_eq_ok h
  clear h
  have hIds : results.map (·.actionId) =
      (groups.mergeSort fun a b => Json.keyLe a.actionId.val b.actionId.val).map (·.actionId) := by
    generalize groups.mergeSort (fun a b => Json.keyLe a.actionId.val b.actionId.val) = sorted at hAll
    induction hAll with
    | nil => rfl
    | cons hHead _ ih => rw [List.map_cons, List.map_cons, ih, (classify_ok hHead).actionId]
  rw [hIds]
  exact (List.mergeSort_perm _ _).map _

theorem classifyAll_groups (h : classifyAll provider tenantId groups = .ok results) :
    ∀ result ∈ results, ∃ group ∈ groups,
      classify provider tenantId group.actionId group.first group.rest = .ok result := by
  intro result hResult
  obtain ⟨i, hi, rfl⟩ := List.getElem_of_mem hResult
  have hAll := mapM_eq_ok h
  exact ⟨_, List.mem_mergeSort.mp (List.getElem_mem (hAll.length_eq ▸ hi)), hAll.get (hAll.length_eq ▸ hi) hi⟩

theorem classifyAll_classified (h : classifyAll provider tenantId groups = .ok results) :
    ∀ result ∈ results, ∃ group ∈ groups, Classified tenantId group.actionId (group.first :: group.rest) result := by
  intro result hResult
  obtain ⟨group, hGroup, hClassify⟩ := classifyAll_groups h result hResult
  exact ⟨group, hGroup, classify_ok hClassify⟩

theorem countOutcomes_sum (results : List ReconciliationActionResult) :
    (ReconciliationOutcome.all.map (countOutcomes results)).sum = results.length := by
  induction results with
  | nil => rfl
  | cons result rest ih =>
    rw [List.length_cons, ← ih]
    simp only [ReconciliationOutcome.all, countOutcomes, List.map_cons, List.map_nil, List.sum_cons, List.sum_nil,
      List.countP_cons]
    cases result.outcome <;> simp <;> omega

end Results

/-! ## Findings -/

def detailOf (intent : ReconciliationLedgerIntent) (providerPresent : Option Bool) : String :=
  String.intercalate "; " (reasonsOf intent providerPresent)

def reasonTexts : List String :=
  [.committed, .committedUnverified, .ambiguous, .failed, .attempted, .compensated, .notCommitted].flatMap intentReasons ++
    ["provider state could not be inspected for this action",
     "ledger outcome was incomplete; provider evidence confirms the commitment",
     "provider has a receipt the ledger does not record", "ledger records a commitment the provider does not confirm"]

def isReason (cs : List Char) : Bool := isCalm cs && cs.head?.any isLower && cs.length ≤ 80

theorem reasonTexts_plain : (reasonTexts.all fun reason => isReason reason.toList) = true := by decide +kernel

theorem mem_reasonTexts (intent : ReconciliationLedgerIntent) (providerPresent : Option Bool) :
    (∀ reason ∈ reasonsOf intent providerPresent, reason ∈ reasonTexts) ∧
      1 ≤ (reasonsOf intent providerPresent).length ∧ (reasonsOf intent providerPresent).length ≤ 3 := by
  cases intent <;> rcases providerPresent with _ | _ | _ <;>
    simp [reasonsOf, decideOutcome, intentReasons, reasonTexts]

theorem isReason_iff {cs : List Char} : isReason cs = true ↔
    isCalm cs = true ∧ cs.head?.any isLower = true ∧ cs.length ≤ 80 := by
  simp [isReason, and_assoc]

theorem calm_intercalate {reasons : List String} (h : ∀ reason ∈ reasons, isReason reason.toList = true)
    (hNe : reasons ≠ []) : isCalm (String.intercalate "; " reasons).toList = true ∧
      (String.intercalate "; " reasons).toList.head?.any isLower = true ∧
      (String.intercalate "; " reasons).toList.length ≤ 82 * reasons.length := by
  induction reasons with
  | nil => exact absurd rfl hNe
  | cons reason rest ih =>
    rw [List.forall_mem_cons] at h
    obtain ⟨hCalm, hHead, hLength⟩ := isReason_iff.mp h.1
    cases rest with
    | nil =>
      have hOne : String.intercalate "; " [reason] = reason := by simp
      rw [hOne, List.length_singleton]
      exact ⟨hCalm, hHead, by omega⟩
    | cons next rest =>
      obtain ⟨hRest, _, hRestLength⟩ := ih h.2 (List.cons_ne_nil next rest)
      rw [String.intercalate_cons_of_ne_nil (List.cons_ne_nil next rest), String.toList_append, String.toList_append]
      refine ⟨isCalm_append (isCalm_append hCalm (by decide)) hRest, ?_, ?_⟩
      · cases hChars : reason.toList with
        | nil =>
          rw [hChars] at hHead
          cases hHead
        | cons c cs =>
          rw [hChars] at hHead
          exact hHead
      · rw [List.length_append, List.length_append, List.length_cons]
        have hSeparator : "; ".toList.length = 2 := rfl
        omega

theorem detail_accepted (intent : ReconciliationLedgerIntent) (providerPresent : Option Bool) :
    acceptsText 600 (detailOf intent providerPresent) = true := by
  obtain ⟨hTexts, hOne, hThree⟩ := mem_reasonTexts intent providerPresent
  have hReasons : ∀ reason ∈ reasonsOf intent providerPresent, isReason reason.toList = true := fun reason hReason =>
    List.all_eq_true.mp reasonTexts_plain reason (hTexts reason hReason)
  obtain ⟨hCalm, hHead, hLength⟩ := calm_intercalate hReasons (List.ne_nil_of_length_pos hOne)
  rw [← detailOf] at hCalm hHead hLength
  generalize detailOf intent providerPresent = detail at hCalm hHead hLength
  have hWords : (wordChars.all fun c => !isControl c && decide (c.val < 0x10000)) = true := by decide
  have hChars : ∀ c ∈ detail.toList, isControl c = false ∧ c.val < 0x10000 := by
    intro c hc
    rw [isCalm, Bool.and_eq_true, List.all_eq_true] at hCalm
    simpa using List.all_eq_true.mp hWords c (List.contains_iff_mem.mp (hCalm.1 c hc))
  refine acceptsText_iff.mpr ⟨?_, ?_, fun c hc => (hChars c hc).1, sanitizeSecretString_calm hCalm⟩
  · intro hBlank
    obtain ⟨before, after, hContext, hBefore, hAfter⟩ := trimList_context detail.toList
    have hTrimmed : trimList detail.toList = [] := by
      rw [trim] at hBlank
      exact String.ofList_eq_empty_iff.mp hBlank
    rw [hTrimmed, List.append_nil] at hContext
    cases hDetail : detail.toList with
    | nil =>
      rw [hDetail] at hHead
      cases hHead
    | cons c cs =>
      have hSpace : isSpace c = true := by
        have hMem : c ∈ before ++ after := by
          rw [← hContext, hDetail]
          exact List.mem_cons_self
        exact (List.mem_append.mp hMem).elim (hBefore c) (hAfter c)
      rw [hDetail] at hHead
      have hLower : isLower c = true := hHead
      have hLetter : isSpace c = false := isSpace_eq_false (by decide) hLower
      rw [hLetter] at hSpace
      cases hSpace
  · rw [Js.length, lengthOf_eq_length fun c hc => (hChars c hc).2]
    omega

/-- The form of a random UUID: 32 hexadecimal digits and hyphens. -/
def IsUuid (uuid : String) : Prop :=
  (uuid.toList.filter (· ≠ '-')).length = 32 ∧ ∀ c ∈ uuid.toList.filter (· ≠ '-'), Sha256.isHexChar c = true

theorem matchesIdentifier_append {before digits : List Char} {s : String} (hChars : s.toList = before ++ digits)
    (hStart : before.head?.any isIdentifierStart = true) (hBefore : before.all isIdentifierChar = true)
    (hDigits : ∀ d ∈ digits, isIdentifierChar d = true) (hLength : before.length + digits.length ≤ 128) :
    matchesIdentifier s = true := by
  cases before with
  | nil => cases hStart
  | cons c cs =>
    rw [List.all_cons, Bool.and_eq_true] at hBefore
    rw [List.length_cons] at hLength
    rw [matchesIdentifier, hChars, List.cons_append]
    simp only [Bool.and_eq_true, List.all_append, List.length_append, decide_eq_true_eq]
    exact ⟨⟨hStart, hBefore.2, List.all_eq_true.mpr hDigits⟩, by omega⟩

def isNameStart (before : String) : Bool :=
  before.toList.head?.any isIdentifierStart && before.toList.all (fun c => nameChars.contains c && isIdentifierChar c) &&
    before.toList.length ≤ 96

theorem uuidName_isIdentifier {before uuid : String} (hBefore : isNameStart before = true) (h : IsUuid uuid) :
    isIdentifier (uuidName before uuid) = true := by
  have hHex : (Sha256.hexChars.all fun c => nameChars.contains c && isIdentifierChar c) = true := by decide
  have hDigits : ∀ c ∈ (uuid.toList.filter (· ≠ '-')).take 32, nameChars.contains c = true ∧ isIdentifierChar c = true := by
    intro c hc
    have hMem := List.contains_iff_mem.mp (h.2 c (List.mem_of_mem_take hc))
    simpa only [Bool.and_eq_true] using List.all_eq_true.mp hHex c hMem
  have hLength : ((uuid.toList.filter (· ≠ '-')).take 32).length = 32 := by
    rw [List.length_take, h.1]
    rfl
  have hChars : (uuidName before uuid).toList = before.toList ++ (uuid.toList.filter (· ≠ '-')).take 32 := by
    rw [uuidName, String.toList_append, String.toList_ofList]
  generalize (uuid.toList.filter (· ≠ '-')).take 32 = digits at hDigits hLength hChars
  rw [isNameStart, Bool.and_eq_true, Bool.and_eq_true, decide_eq_true_eq] at hBefore
  obtain ⟨⟨hStart, hName⟩, hShort⟩ := hBefore
  have hStartChars : ∀ c ∈ before.toList, nameChars.contains c = true ∧ isIdentifierChar c = true := fun c hc => by
    simpa only [Bool.and_eq_true] using List.all_eq_true.mp hName c hc
  refine isIdentifier_of_name ?_ ?_
  · exact matchesIdentifier_append hChars hStart (List.all_eq_true.mpr fun c hc => (hStartChars c hc).2)
      (fun c hc => (hDigits c hc).2) (by omega)
  · rw [hChars, List.all_append, Bool.and_eq_true]
    exact ⟨List.all_eq_true.mpr fun c hc => (hStartChars c hc).1, List.all_eq_true.mpr fun c hc => (hDigits c hc).1⟩

/-- The names to come are UUIDs, differ from each other and are not in use. -/
structure Fresh (uuid : Nat → String) (count : Nat) (findings : List ReconciliationFinding) : Prop where
  uuids : ∀ n < count, IsUuid (uuid n)
  distinct : ∀ m < count, ∀ n < count, uuidName "finding-" (uuid m) = uuidName "finding-" (uuid n) → m = n
  unused : ∀ finding ∈ findings, ∀ n < count, finding.findingId.val ≠ uuidName "finding-" (uuid n)

theorem Fresh.next {uuid : Nat → String} {count : Nat} {findings : List ReconciliationFinding}
    (h : Fresh uuid (count + 1) findings) {finding : ReconciliationFinding}
    (hId : finding.findingId.val = uuidName "finding-" (uuid 0)) :
    Fresh (fun n => uuid (n + 1)) count (findings ++ [finding]) where
  uuids n hn := h.uuids (n + 1) (Nat.succ_lt_succ hn)
  distinct m hm n hn hSame := Nat.succ.inj (h.distinct (m + 1) (Nat.succ_lt_succ hm) (n + 1) (Nat.succ_lt_succ hn) hSame)
  unused other hOther n hn := by
    rcases List.mem_append.mp hOther with hOther | hOther
    · exact h.unused other hOther (n + 1) (Nat.succ_lt_succ hn)
    · rw [List.mem_singleton.mp hOther, hId]
      intro hSame
      cases h.distinct 0 (Nat.succ_pos count) (n + 1) (Nat.succ_lt_succ hn) hSame

theorem Fresh.mono {uuid : Nat → String} {count less : Nat} {findings : List ReconciliationFinding}
    (h : Fresh uuid count findings) (hLess : less ≤ count) : Fresh uuid less findings where
  uuids n hn := h.uuids n (hn.trans_le hLess)
  distinct m hm n hn := h.distinct m (hm.trans_le hLess) n (hn.trans_le hLess)
  unused finding hFinding n hn := h.unused finding hFinding n (hn.trans_le hLess)

def openHashes (findings : List ReconciliationFinding) : List Hash := (findings.filter isOpen).map (·.actionHash)

/-- The results that open a finding, one for each action hash without an open one. -/
def opening : List Hash → List ReconciliationActionResult → List ReconciliationActionResult
  | _, [] => []
  | hashes, result :: rest =>
    if result.classification = none ∨ result.actionHash ∈ hashes then opening hashes rest
    else result :: opening (hashes ++ [result.actionHash]) rest

theorem makeFinding_of {result : ReconciliationActionResult} (classification : FindingClassification) {now : Int}
    {uuid : String} (hReasons : result.reasons = reasonsOf result.ledgerIntent result.providerPresent)
    (hNow : Printable now) (hUuid : IsUuid uuid) : ∃ finding, makeFinding result classification now uuid = .ok finding ∧
      finding.findingId.val = uuidName "finding-" uuid ∧ finding.actionHash = result.actionHash ∧ isOpen finding = true := by
  have hName : identifier refuse (.string (uuidName "finding-" uuid)) "Reconciliation finding id" =
      .ok ⟨_, @uuidName_isIdentifier "finding-" _ rfl hUuid⟩ := dif_pos _
  have hDetail : ∃ detail, text refuse (.string (String.intercalate "; " result.reasons)) "Reconciliation finding detail" 600 =
      .ok detail := by
    rw [hReasons]
    exact ⟨_, dif_pos (detail_accepted _ _)⟩
  have hTime : timestamp refuse (.string (Date.toISOString now)) "Reconciliation detection time" = .ok ⟨_, hNow⟩ :=
    dif_pos hNow
  obtain ⟨detail, hDetail⟩ := hDetail
  rw [makeFinding, hName, ok_bind, hDetail, ok_bind, hTime, ok_bind]
  exact ⟨_, rfl, rfl, rfl, rfl⟩

theorem any_open_iff {findings : List ReconciliationFinding} {actionHash : Hash} :
    (findings.any fun finding => finding.actionHash = actionHash && isOpen finding) = true ↔
      actionHash ∈ openHashes findings := by
  simp only [openHashes, List.any_eq_true, Bool.and_eq_true, decide_eq_true_eq, List.mem_map, List.mem_filter]
  constructor
  · rintro ⟨finding, hMem, hSame, hOpen⟩
    exact ⟨finding, ⟨hMem, hOpen⟩, hSame⟩
  · rintro ⟨finding, ⟨hMem, hOpen⟩, hSame⟩
    exact ⟨finding, hMem, hSame, hOpen⟩

theorem openFindings_of {results : List ReconciliationActionResult} {findings : List ReconciliationFinding} {now : Int}
    {uuid : Nat → String}
    (hReasons : ∀ result ∈ results, result.reasons = reasonsOf result.ledgerIntent result.providerPresent)
    (hNow : Printable now) (hFresh : Fresh uuid (opening (openHashes findings) results).length findings)
    (hUnique : (findings.map (·.findingId.val)).Nodup)
    (hRoom : findings.length + (opening (openHashes findings) results).length ≤ MAX_FINDINGS) :
    ∃ findings' opened, openFindings now uuid results findings = .ok (findings', opened) ∧
      findings'.length ≤ MAX_FINDINGS ∧ (findings'.map (·.findingId.val)).Nodup := by
  induction results generalizing findings uuid with
  | nil => exact ⟨findings, 0, rfl, by simpa [opening] using hRoom, hUnique⟩
  | cons result rest ih =>
    rw [List.forall_mem_cons] at hReasons
    rw [openFindings]
    rw [opening] at hRoom hFresh
    cases hClass : result.classification with
    | none =>
      rw [if_pos (.inl hClass)] at hRoom hFresh
      exact ih hReasons.2 hFresh hUnique hRoom
    | some classification =>
      dsimp only
      split
      · rename_i hOpen
        rw [if_pos (.inr (any_open_iff.mp hOpen))] at hRoom hFresh
        exact ih hReasons.2 hFresh hUnique hRoom
      · rename_i hOpen
        rw [if_neg (by rw [hClass, ← any_open_iff]; simpa using hOpen), List.length_cons] at hRoom hFresh
        obtain ⟨finding, hMake, hId, hHash, hIsOpen⟩ :=
          makeFinding_of classification hReasons.1 hNow (hFresh.uuids 0 (Nat.succ_pos _))
        have hHashes : openHashes (findings ++ [finding]) = openHashes findings ++ [result.actionHash] := by
          simp [openHashes, List.filter_append, hIsOpen, hHash]
        have hNodup : ((findings ++ [finding]).map (·.findingId.val)).Nodup := by
          rw [List.map_append, List.map_singleton, ← List.concat_eq_append]
          refine hUnique.concat fun hMem => ?_
          obtain ⟨old, hOld, hSame⟩ := List.mem_map.mp hMem
          exact hFresh.unused old hOld 0 (Nat.succ_pos _) (hSame.trans hId)
        obtain ⟨findings', opened, hRest, hLength, hDistinct⟩ := ih hReasons.2 (by rw [hHashes]; exact hFresh.next hId)
          hNodup
          (by rw [hHashes, List.length_append, List.length_singleton]; omega)
        have hLimit : ¬MAX_FINDINGS ≤ findings.length := by omega
        rw [failIf_of_not hLimit, ok_bind, hMake, ok_bind, hRest]
        exact ⟨findings', opened + 1, rfl, hLength, hDistinct⟩

/-! ## A run -/

structure Accepted (state : ReconciliationState) : Prop where
  size : state.findings.length ≤ MAX_FINDINGS
  unique : (state.findings.map (·.findingId.val)).Nodup

theorem format_accepts : format.Accepts Accepted := by
  intro state state'
  have hUnfold : validateState state = .ok state' ↔ state.findings.length ≤ MAX_FINDINGS ∧
      (state.findings.map (·.findingId.val)).Nodup ∧ state = state' := by
    rw [validateState, bind_unit_eq_ok, atMost_eq_ok, bind_unit_eq_ok, unique_eq_ok]
    simp [pure, Except.pure]
  refine hUnfold.trans ⟨?_, ?_⟩
  · rintro ⟨hSize, hUnique, hSame⟩
    exact ⟨⟨hSize, hUnique⟩, hSame⟩
  · rintro ⟨⟨hSize, hUnique⟩, hSame⟩
    exact ⟨hSize, hUnique, hSame⟩

theorem read_accepted {store : Option ReconciliationState} {state : ReconciliationState}
    (h : format.read store = .ok state) : Accepted state := by
  cases store with
  | none =>
    cases h
    exact ⟨Nat.zero_le _, List.nodup_nil⟩
  | some stored =>
    rw [StoreFormat.read] at h
    split at h
    · cases h
    · obtain ⟨hAccepted, rfl⟩ := (format_accepts _ _).mp h
      exact hAccepted

structure Ready (ledger : Ledger.Options) (inputs : Inputs) (tenantId : Identifier)
    (store : Option ReconciliationState) (state : ReconciliationState) : Prop where
  operator : ∃ value operator, inputs.authenticate = .ok value ∧ validateOperator value = .ok operator ∧
    .manage ∈ operator.permissions
  clock : ∃ now, format.timestamp inputs.now = .ok now ∧ Printable now
  access : authorize ledger inputs.capability .exports = .ok tenantId
  ledgerClock : ∃ now, Ledger.format.timestamp inputs.ledgerNow = .ok now
  answers : inputs.provider.Answers
  stored : format.read store = .ok state
  fresh : Fresh (fun n => inputs.uuid (n + 1)) MAX_FINDINGS state.findings
  runName : IsUuid (inputs.uuid 0)

/-- The store has room for the findings of a run on the entries of a tenant. -/
def Room (inputs : Inputs) (tenantId : Identifier) (entries : List LedgerEntry) (state : ReconciliationState) : Prop :=
  ∀ groups results, groupByAction [] entries = .ok groups → classifyAll inputs.provider tenantId groups = .ok results →
    state.findings.length + (opening (openHashes state.findings) results).length ≤ MAX_FINDINGS

theorem groupByAction_length {groups groups' : List Group} {entries : List LedgerEntry}
    (h : groupByAction groups entries = .ok groups') : groups'.length ≤ groups.length + entries.length := by
  induction entries generalizing groups with
  | nil =>
    cases h
    exact Nat.le_refl _
  | cons entry rest ih =>
    rw [groupByAction] at h
    rw [List.length_cons]
    split at h
    · exact (ih h).trans (by omega)
    · split at h
      · cases h
      · have hPushed : (pushEntry entry groups).length ≤ groups.length + 1 := by
          rw [← List.length_map (·.actionId), ← @List.length_map _ _ groups (·.actionId)]
          rcases pushEntry_ids entry groups with ⟨hKeys, _⟩ | ⟨hKeys, _⟩
          · rw [hKeys]
            exact Nat.le_succ _
          · rw [hKeys, List.length_append, List.length_singleton]
        exact (ih h).trans (by omega)

theorem opening_length (hashes : List Hash) (results : List ReconciliationActionResult) :
    (opening hashes results).length ≤ results.length := by
  induction results generalizing hashes with
  | nil => exact Nat.le_refl _
  | cons result rest ih =>
    rw [opening, List.length_cons]
    split
    · exact (ih hashes).trans (Nat.le_succ _)
    · exact Nat.succ_le_succ (ih _)

theorem room_of {inputs : Inputs} {tenantId : Identifier} {entries : List LedgerEntry} {state : ReconciliationState}
    (h : state.findings.length + entries.length ≤ MAX_FINDINGS) : Room inputs tenantId entries state := by
  intro groups results hGroups hResults
  have hGroupCount := groupByAction_length hGroups
  have hCount : results.length = groups.length := by
    simpa using (classifyAll_ids hResults).length_eq
  have hOpening := opening_length (openHashes state.findings) results
  rw [List.length_nil] at hGroupCount
  omega

section Run

variable {ledger : Ledger.Options} {inputs : Inputs} {tenantId : Identifier} {ledgerStore : Ledger.Store}
  {store : Option ReconciliationState} {state : ReconciliationState}

structure Reports (ledger : Ledger.Options) (inputs : Inputs) (ledgerStore : Ledger.Store)
    (report : ReconciliationReport) (exported : LedgerExport) (groups : List Group) : Prop where
  exports : exportTenant ledger inputs.capability inputs.ledgerNow ledgerStore = .ok exported
  grouped : groupByAction [] exported.entries = .ok groups
  results : classifyAll inputs.provider exported.tenantId groups = .ok report.actions
  tenantId : report.tenantId = exported.tenantId
  counts : report.counts = countOutcomes report.actions

theorem exportLedger_ok {exported : LedgerExport} (h : exportLedger ledger inputs ledgerStore = .ok exported) :
    exportTenant ledger inputs.capability inputs.ledgerNow ledgerStore = .ok exported := by
  rw [exportLedger] at h
  split at h
  · rename_i hExport
    cases h
    exact hExport
  · cases h

theorem runReconciliation_ok {report : ReconciliationReport} {after : ReconciliationState}
    (h : runReconciliation ledger inputs ledgerStore store = .ok (report, after)) :
    ∃ exported groups, Reports ledger inputs ledgerStore report exported groups := by
  obtain ⟨value, _, h⟩ := bind_eq_ok h
  obtain ⟨operator, _, h⟩ := bind_eq_ok h
  obtain ⟨_, _, h⟩ := bind_eq_ok h
  obtain ⟨now, _, h⟩ := bind_eq_ok h
  obtain ⟨exported, hExport, h⟩ := bind_eq_ok h
  obtain ⟨groups, hGroups, h⟩ := bind_eq_ok h
  obtain ⟨results, hResults, h⟩ := bind_eq_ok h
  obtain ⟨⟨opened, last⟩, _, h⟩ := bind_eq_ok h
  cases h
  exact ⟨exported, groups, exportLedger_ok hExport, hGroups, hResults, rfl, rfl⟩

theorem exportTenant_ok {exported : LedgerExport} {reading : Option Int} {access : JsValue}
    (h : exportTenant ledger access reading ledgerStore = .ok exported) :
    authorize ledger access .exports = .ok exported.tenantId ∧
      exported.entries = entriesOf exported.tenantId (stateOf ledgerStore).entries ∧
      ∀ state, ledgerStore = some state → Ledger.format.bytes state ≤ Ledger.format.maxBytes := by
  obtain ⟨tenantId, hAuthorized, h⟩ := bind_eq_ok h
  obtain ⟨read, hRead, h⟩ := bind_eq_ok h
  have hState := Ledger.format_accepts.read_ok hRead
  split at h
  · cases h
  · obtain ⟨exportedAt, _, h⟩ := bind_eq_ok h
    cases h
    refine ⟨hAuthorized, by rw [hState]; rfl, ?_⟩
    rintro state rfl
    rw [StoreFormat.read] at hRead
    split at hRead
    · cases hRead
    · exact Nat.not_lt.mp ‹_›

theorem exportTenant_of {events : List Event} (run : (machine ledger).FreeRun events ledgerStore)
    (ready : Ready ledger inputs tenantId store state)
    (hSize : ∀ state, ledgerStore = some state → Ledger.format.bytes state ≤ Ledger.format.maxBytes) :
    ∃ exported, exportTenant ledger inputs.capability inputs.ledgerNow ledgerStore = .ok exported ∧
      exported.tenantId = tenantId := by
  have hValid := run_valid run
  have hRead : Ledger.format.read ledgerStore = .ok (stateOf ledgerStore) := by
    cases ledgerStore with
    | none => rfl
    | some stored => exact Ledger.format_accepts.read_of_size hValid.accepted (hSize stored rfl)
  obtain ⟨headHash, tracked, hVerified⟩ := hValid.intact.2 tenantId
  obtain ⟨now, hClock⟩ := ready.ledgerClock
  rw [exportTenant, ready.access, ok_bind, hRead, ok_bind, hVerified]
  dsimp only
  rw [hClock]
  exact ⟨_, rfl, rfl⟩

theorem update_of {results : List ReconciliationActionResult} {now : Int} (ready : Ready ledger inputs tenantId store state)
    (hReasons : ∀ result ∈ results, result.reasons = reasonsOf result.ledgerIntent result.providerPresent)
    (hNow : Printable now)
    (hRoom : state.findings.length + (opening (openHashes state.findings) results).length ≤ MAX_FINDINGS) :
    ∃ opened after, format.update (reconcileOp (uuidName "recon-" (inputs.uuid 0)) now results
      fun n => inputs.uuid (n + 1)) store = .ok (opened, after) := by
  have hName : identifier refuse (.string (uuidName "recon-" (inputs.uuid 0))) "Reconciliation run id" =
      .ok ⟨_, @uuidName_isIdentifier "recon-" _ rfl ready.runName⟩ := dif_pos _
  have hTime : timestamp refuse (.string (Date.toISOString now)) "Reconciliation run time" = .ok ⟨_, hNow⟩ := dif_pos hNow
  obtain ⟨findings, opened, hFindings, hSize, hUnique⟩ :=
    openFindings_of hReasons hNow (ready.fresh.mono (by omega)) (read_accepted ready.stored).unique hRoom
  have hRun : ∃ after, reconcileOp (uuidName "recon-" (inputs.uuid 0)) now results (fun n => inputs.uuid (n + 1)) state =
      (.ok opened, after) ∧ after.findings = findings := by
    rw [reconcileOp, hName, lift_bind, hTime, lift_bind, modify_bind, get_bind, hFindings, lift_bind]
    exact ⟨_, rfl, rfl⟩
  obtain ⟨after, hRun, hAfter⟩ := hRun
  exact ⟨opened, after, format_accepts.update_of ready.stored hRun ⟨hAfter ▸ hSize, hAfter ▸ hUnique⟩⟩

theorem runReconciliation_of {exported : LedgerExport} {groups : List Group}
    (ready : Ready ledger inputs tenantId store state)
    (hExport : exportTenant ledger inputs.capability inputs.ledgerNow ledgerStore = .ok exported)
    (hTenant : exported.tenantId = tenantId) (hGroups : groupByAction [] exported.entries = .ok groups)
    (hRoom : Room inputs tenantId exported.entries state) :
    ∃ report after, runReconciliation ledger inputs ledgerStore store = .ok (report, after) := by
  obtain ⟨value, operator, hAuthenticate, hOperator, hManage⟩ := ready.operator
  obtain ⟨now, hClock, hNow⟩ := ready.clock
  obtain ⟨results, hResults⟩ := classifyAll_of ready.answers tenantId groups
  have hWrapped : exportLedger ledger inputs ledgerStore = .ok exported := by rw [exportLedger, hExport]
  have hReasons : ∀ result ∈ results, result.reasons = reasonsOf result.ledgerIntent result.providerPresent := by
    intro result hResult
    obtain ⟨_, _, hClassified⟩ := classifyAll_classified hResults result hResult
    exact hClassified.reasons
  obtain ⟨opened, after, hUpdate⟩ := update_of ready hReasons hNow (hRoom groups results hGroups hResults)
  have hPermitted : ¬ReconciliationOperatorPermission.manage ∉ operator.permissions := not_not.mpr hManage
  rw [runReconciliation, hAuthenticate, ok_bind, hOperator, ok_bind, failIf_of_not hPermitted, ok_bind, hClock, ok_bind,
    hWrapped, ok_bind, hGroups, ok_bind, hTenant, hResults, ok_bind, hUpdate]
  exact ⟨_, _, rfl⟩

end Run

/-! ## Coverage -/

/-- A reconciliation succeeds with one result for each recorded action that has entries, and the counts add up. -/
def Covers (ledger : Ledger.Options) (events : List Event) (ledgerStore : Ledger.Store) (inputs : Inputs)
    (tenantId : Identifier) (store : Option ReconciliationState) : Prop :=
  ∃ report after, runReconciliation ledger inputs ledgerStore store = .ok (report, after) ∧
    (report.actions.map (·.actionId)).Nodup ∧
    (∀ actionId, actionId ∈ report.actions.map (·.actionId) ↔
      Recorded ledger events tenantId actionId ∧ entriesForAction (stateOf ledgerStore) tenantId actionId ≠ []) ∧
    (ReconciliationOutcome.all.map report.counts).sum = report.actions.length

/-- The ledger can be read, and no recorded action with entries has a governance name or the name of a member that every
object inherits. -/
structure PlainlyNamed (ledger : Ledger.Options) (events : List Event) (ledgerStore : Ledger.Store)
    (tenantId : Identifier) : Prop where
  size : ∀ state, ledgerStore = some state → Ledger.format.bytes state ≤ Ledger.format.maxBytes
  names : ∀ actionId, Recorded ledger events tenantId actionId →
    entriesForAction (stateOf ledgerStore) tenantId actionId ≠ [] →
    isGovernance actionId = false ∧ objectPrototype.contains actionId.val = false

theorem isGovernance_of {actionId tenantId : Identifier} {kind : String} {state : ActionLedgerState}
    (h : actionId.val = governanceActionId kind state tenantId) : isGovernance actionId = true := by
  have hLength : "governance-".toList.length = 11 := rfl
  have hChars : ∀ s : String, (slice s 128).toList = s.toList.take 128 := fun _ => String.toList_ofList
  rw [isGovernance, List.isPrefixOf_iff_prefix, h, governanceActionId, hChars]
  simp only [String.toList_append, List.append_assoc]
  refine List.prefix_take_iff.mpr ⟨List.prefix_append _ _, ?_⟩
  rw [hLength]
  decide

section Coverage

variable {ledger : Ledger.Options} {inputs : Inputs} {tenantId : Identifier} {events : List Event}
  {ledgerStore : Ledger.Store} {store : Option ReconciliationState} {state : ReconciliationState}

theorem mem_entriesForAction {state : ActionLedgerState} {actionId : Identifier} :
    entriesForAction state tenantId actionId ≠ [] ↔ ∃ entry ∈ entriesOf tenantId state.entries, entry.actionId = actionId := by
  constructor
  · intro hSome
    obtain ⟨entry, hEntry⟩ := List.exists_mem_of_ne_nil _ hSome
    obtain ⟨hMem, hSame⟩ := List.mem_filter.mp hEntry
    obtain ⟨hTenant, hAction⟩ := of_decide_eq_true hSame
    exact ⟨entry, mem_entriesOf.mpr ⟨hMem, hTenant⟩, hAction⟩
  · rintro ⟨entry, hEntry, hAction⟩
    obtain ⟨hMem, hTenant⟩ := mem_entriesOf.mp hEntry
    exact List.ne_nil_of_mem (List.mem_filter.mpr ⟨hMem, decide_eq_true ⟨hTenant, hAction⟩⟩)

theorem Reports.grouping {report : ReconciliationReport} {exported : LedgerExport} {groups : List Group}
    (h : Reports ledger inputs ledgerStore report exported groups) : Grouped [] exported.entries groups :=
  groupByAction_ok (by simp) h.grouped

theorem mem_report_iff {report : ReconciliationReport} {exported : LedgerExport} {groups : List Group}
    {actionId : Identifier} (h : Reports ledger inputs ledgerStore report exported groups) :
    actionId ∈ report.actions.map (·.actionId) ↔
      ∃ entry ∈ exported.entries, entry.actionId = actionId ∧ isGovernance actionId = false := by
  have hTimeline : timelineOf groups actionId = reported actionId exported.entries := h.grouping.timeline actionId
  rw [(classifyAll_ids h.results).mem_iff, mem_groups_iff, hTimeline]
  constructor
  · intro hSome
    obtain ⟨entry, hEntry⟩ := List.exists_mem_of_ne_nil _ hSome
    obtain ⟨hMem, hOwn⟩ := List.mem_filter.mp hEntry
    obtain ⟨rfl, hPlain⟩ := of_decide_eq_true hOwn
    exact ⟨entry, hMem, rfl, hPlain⟩
  · rintro ⟨entry, hMem, rfl, hPlain⟩
    exact List.ne_nil_of_mem (List.mem_filter.mpr ⟨hMem, decide_eq_true ⟨rfl, hPlain⟩⟩)

theorem covers_plain (hAccess : authorize ledger inputs.capability .exports = .ok tenantId)
    (h : Covers ledger events ledgerStore inputs tenantId store) : PlainlyNamed ledger events ledgerStore tenantId := by
  obtain ⟨report, after, hRun, _, hNames, _⟩ := h
  obtain ⟨exported, groups, hReports⟩ := runReconciliation_ok hRun
  obtain ⟨hAuthorized, hEntries, hSize⟩ := exportTenant_ok hReports.exports
  rw [hAccess] at hAuthorized
  have hTenant : tenantId = exported.tenantId := Except.ok.inj hAuthorized
  refine ⟨hSize, fun actionId hRecorded hStored => ?_⟩
  obtain ⟨entry, hEntry, rfl, hPlain⟩ := (mem_report_iff hReports).mp ((hNames actionId).mpr ⟨hRecorded, hStored⟩)
  exact ⟨hPlain, hReports.grouping.plain entry hEntry hPlain⟩

theorem covers_of (run : (machine ledger).FreeRun events ledgerStore) (ready : Ready ledger inputs tenantId store state)
    (room : Room inputs tenantId (entriesOf tenantId (stateOf ledgerStore).entries) state)
    (h : PlainlyNamed ledger events ledgerStore tenantId) : Covers ledger events ledgerStore inputs tenantId store := by
  obtain ⟨exported, hExport, hTenant⟩ := exportTenant_of run ready h.size
  obtain ⟨_, hEntries, _⟩ := exportTenant_ok hExport
  rw [hTenant] at hEntries
  have hRecorded : ∀ entry ∈ exported.entries, isGovernance entry.actionId = false →
      Recorded ledger events tenantId entry.actionId := by
    intro entry hEntry hPlain
    rw [hEntries] at hEntry
    obtain ⟨hMem, hOwn⟩ := mem_entriesOf.mp hEntry
    rcases entry_named run entry hMem with ⟨kind, governed, hName⟩ | hRecorded
    · rw [isGovernance_of hName] at hPlain
      cases hPlain
    · exact hOwn ▸ hRecorded
  have hStored : ∀ entry ∈ exported.entries, entriesForAction (stateOf ledgerStore) tenantId entry.actionId ≠ [] := by
    intro entry hEntry
    rw [hEntries] at hEntry
    exact mem_entriesForAction.mpr ⟨entry, hEntry, rfl⟩
  obtain ⟨groups, hGroups⟩ := @groupByAction_of [] exported.entries fun entry hEntry hPlain =>
    (h.names entry.actionId (hRecorded entry hEntry hPlain) (hStored entry hEntry)).2
  obtain ⟨report, after, hRun⟩ := runReconciliation_of ready hExport hTenant hGroups (hEntries ▸ room)
  obtain ⟨exported', groups', hReports⟩ := runReconciliation_ok hRun
  have hSame : exported' = exported := Except.ok.inj (hReports.exports.symm.trans hExport)
  rw [hSame] at hReports
  refine ⟨report, after, hRun, ?_, fun actionId => ?_, ?_⟩
  · rw [(classifyAll_ids hReports.results).nodup_iff]
    exact hReports.grouping.nodup
  · rw [mem_report_iff hReports]
    constructor
    · rintro ⟨entry, hEntry, rfl, hPlain⟩
      exact ⟨hRecorded entry hEntry hPlain, hStored entry hEntry⟩
    · rintro ⟨hMade, hLeft⟩
      obtain ⟨entry, hEntry, hName⟩ := mem_entriesForAction.mp hLeft
      exact ⟨entry, hEntries ▸ hEntry, hName, (h.names actionId hMade hLeft).1⟩
  · rw [hReports.counts]
    exact countOutcomes_sum report.actions

end Coverage

/-- After every run of the ledger a reconciliation of a tenant covers the recorded actions exactly when the ledger is not
too large to be read and their names are plain. -/
theorem covers_iff_plainly_named (ledger : Ledger.Options) (events : List Event) (ledgerStore : Ledger.Store)
    (run : (machine ledger).FreeRun events ledgerStore) (inputs : Inputs) (tenantId : Identifier)
    (store : Option ReconciliationState) (state : ReconciliationState) (ready : Ready ledger inputs tenantId store state)
    (room : Room inputs tenantId (entriesOf tenantId (stateOf ledgerStore).entries) state) :
    Covers ledger events ledgerStore inputs tenantId store ↔ PlainlyNamed ledger events ledgerStore tenantId :=
  ⟨covers_plain ready.access, covers_of run ready room⟩

/-! ## Two names -/

def recordEvent (actionId : Identifier) : Event :=
  ⟨.recordAction acmeAccess (recordOf (requestedAction actionId)), fun _ => some 0⟩

theorem first_recorded (actionId : Identifier) : ∃ after,
    perform acmeOptions (recordEvent actionId).call (recordEvent actionId).clock none = .ok after ∧
    entriesForAction after acme actionId ≠ [] ∧ after.entries.length = 6 := by
  have hEmpty : Valid (stateOf none) := Valid.empty
  have hTenants : (stateOf none).tenants.length < MAX_TENANTS := by decide
  have hRoom : (stateOf none).entries.length + (recordOf (requestedAction actionId)).evidence.length ≤ MAX_ENTRIES :=
    (by decide : 0 + 6 ≤ MAX_ENTRIES)
  obtain ⟨entries, after, hPerform, hStored, hEntered⟩ := record_of hEmpty rfl (acme_authorized .append)
    (recordOf_accepted (requestedAction_valid actionId)) rfl rfl (.inr hTenants) hRoom (fun _ => rfl) rfl printable_zero
  have hLength : after.entries.length = 6 := by
    rw [hStored, List.length_append, ← hEntered.length_eq]
    rfl
  refine ⟨after, hPerform, mem_entriesForAction.mpr ?_, hLength⟩
  cases hEntered with
  | cons hFirst _ =>
    rename_i first rest _
    refine ⟨first, mem_entriesOf.mpr ⟨?_, hFirst.tenant⟩, hFirst.action⟩
    rw [hStored]
    exact List.mem_append_right _ List.mem_cons_self

theorem first_run (actionId : Identifier) : ∃ ledgerStore,
    (machine acmeOptions).FreeRun [recordEvent actionId] ledgerStore ∧
    Recorded acmeOptions [recordEvent actionId] acme actionId ∧
    entriesForAction (stateOf ledgerStore) acme actionId ≠ [] ∧ (stateOf ledgerStore).entries.length = 6 := by
  obtain ⟨after, hPerform, hStored, hLength⟩ := first_recorded actionId
  have hTaken : take acmeOptions none (recordEvent actionId) = some after := by rw [take, hPerform]
  refine ⟨some after, Machine.freeRun_of_exec ?_, ?_, hStored, hLength⟩
  · rw [← hTaken]
    rfl
  · exact ⟨[], recordEvent actionId, [], none, rfl, .start, ⟨after, hPerform⟩,
      ⟨_, recordAction_operation (acme_authorized .append) (recordOf_accepted (requestedAction_valid actionId)), rfl⟩, rfl⟩

/-- 32 binary digits. -/
def binaryUuid (n : Nat) : String := String.ofList ((List.range 32).map fun i => if n.testBit i then '1' else '0')

theorem binaryUuid_digits (n : Nat) : (binaryUuid n).toList.filter (· ≠ '-') =
    (List.range 32).map fun i => if n.testBit i then '1' else '0' := by
  rw [binaryUuid, String.toList_ofList, List.filter_eq_self]
  intro c hc
  obtain ⟨i, _, rfl⟩ := List.mem_map.mp hc
  split <;> rfl

theorem binaryUuid_isUuid (n : Nat) : IsUuid (binaryUuid n) := by
  rw [IsUuid, binaryUuid_digits]
  refine ⟨by rw [List.length_map, List.length_range], fun c hc => ?_⟩
  obtain ⟨i, _, rfl⟩ := List.mem_map.mp hc
  split <;> rfl

theorem binaryUuid_inj {before : String} {m n : Nat} (hm : m < 2 ^ 32) (hn : n < 2 ^ 32)
    (h : uuidName before (binaryUuid m) = uuidName before (binaryUuid n)) : m = n := by
  have hDigits : ((List.range 32).map fun i => if m.testBit i then '1' else '0') =
      (List.range 32).map fun i => if n.testBit i then '1' else '0' := by
    have hName : ∀ n, (uuidName before (binaryUuid n)).toList = before.toList ++
        (List.range 32).map fun i => if n.testBit i then '1' else '0' := by
      intro n
      rw [uuidName, String.toList_append, binaryUuid_digits, List.take_of_length_le (by simp)]
      exact congrArg _ String.toList_ofList
    have hChars := congrArg String.toList h
    rw [hName, hName] at hChars
    exact List.append_cancel_left hChars
  refine Nat.eq_of_testBit_eq fun i => ?_
  by_cases hi : i < 32
  · have hSame := List.map_inj_left.mp hDigits i (List.mem_range.mpr hi)
    cases hLeft : m.testBit i <;> cases hRight : n.testBit i <;> simp_all
  · have hPower : 2 ^ 32 ≤ 2 ^ i := Nat.pow_le_pow_right (by decide) (Nat.not_lt.mp hi)
    rw [Nat.testBit_lt_two_pow (hm.trans_le hPower), Nat.testBit_lt_two_pow (hn.trans_le hPower)]

def absentProvider : ReconciliationProvider := ⟨fun _ _ => .ok none, fun _ _ => .ok none⟩

def acmeOperator : JsValue := .object [("id", .string "a1"), ("principalId", .string "a1"),
  ("permissions", .array [.string "reconciliation.manage"])]

def acmeInputs : Inputs where
  authenticate := .ok acmeOperator
  capability := acmeAccess
  provider := absentProvider
  now := some 0
  ledgerNow := some 0
  uuid := binaryUuid

theorem acme_operator : validateOperator acmeOperator = .ok ⟨firstName, firstName, [.manage]⟩ := by
  have hName : ∀ label, Validation.identifier refuse (.string "a1") label = .ok firstName := fun _ =>
    dif_pos firstName.property
  have hPermission : enumerated refuse [.manage, .inspect] ReconciliationOperatorPermission.text
      (.string "reconciliation.manage") "Reconciliation operator permission is invalid." = .ok .manage := rfl
  rw [validateOperator, acmeOperator]
  simp [object, Validation.exactKeys, Validation.array, unique, Fields.get, List.lookup_cons, JsValue.isUndefined, hName, hPermission,
    pure, Except.pure, bind, Except.bind]

theorem acme_ready : Ready acmeOptions acmeInputs acme none ⟨none, []⟩ where
  operator := ⟨_, _, rfl, acme_operator, List.mem_singleton_self _⟩
  clock := ⟨0, rfl, printable_zero⟩
  access := acme_authorized .exports
  ledgerClock := ⟨0, rfl⟩
  answers := ⟨fun _ _ => ⟨none, rfl⟩, fun _ _ => ⟨none, rfl⟩⟩
  stored := rfl
  fresh := by
    refine ⟨fun n _ => binaryUuid_isUuid (n + 1), fun m hm n hn hSame => ?_, fun _ h => (List.not_mem_nil h).elim⟩
    rw [MAX_FINDINGS] at hm hn
    exact Nat.succ.inj (binaryUuid_inj (by omega) (by omega) hSame)
  runName := binaryUuid_isUuid 0

def constructorName : Identifier := ⟨"constructor", by decide +kernel⟩

theorem constructor_not_covered : ∃ ledgerStore,
    (machine acmeOptions).FreeRun [recordEvent constructorName] ledgerStore ∧
    Ready acmeOptions acmeInputs acme none ⟨none, []⟩ ∧
    Room acmeInputs acme (entriesOf acme (stateOf ledgerStore).entries) ⟨none, []⟩ ∧
    ¬Covers acmeOptions [recordEvent constructorName] ledgerStore acmeInputs acme none := by
  obtain ⟨ledgerStore, hRun, hRecorded, hStored, _⟩ := first_run constructorName
  have hInherited : objectPrototype.contains constructorName.val = true := rfl
  have hPlain : isGovernance constructorName = false := rfl
  refine ⟨ledgerStore, hRun, acme_ready, fun groups results hGroups => ?_, fun hCovers => ?_⟩
  · obtain ⟨entry, hEntry, hName⟩ := mem_entriesForAction.mp hStored
    have hOwn := (groupByAction_ok (by simp) hGroups).plain entry hEntry (hName ▸ hPlain)
    rw [hName, hInherited] at hOwn
    cases hOwn
  · have hOwn := ((covers_plain acme_ready.access hCovers).names constructorName hRecorded hStored).2
    rw [hInherited] at hOwn
    cases hOwn

theorem first_action_coverage : ∃ ledgerStore,
    (machine acmeOptions).FreeRun [recordEvent firstName] ledgerStore ∧
    Ready acmeOptions acmeInputs acme none ⟨none, []⟩ ∧
    Recorded acmeOptions [recordEvent firstName] acme firstName ∧
    entriesForAction (stateOf ledgerStore) acme firstName ≠ [] ∧
    (Covers acmeOptions [recordEvent firstName] ledgerStore acmeInputs acme none ↔
      PlainlyNamed acmeOptions [recordEvent firstName] ledgerStore acme) := by
  obtain ⟨ledgerStore, hRun, hRecorded, hStored, hLength⟩ := first_run firstName
  have hRoom : Room acmeInputs acme (entriesOf acme (stateOf ledgerStore).entries) ⟨none, []⟩ := by
    refine room_of ((Nat.add_le_add_left (List.length_filter_le _ _) 0).trans ?_)
    rw [hLength]
    decide
  exact ⟨ledgerStore, hRun, acme_ready, hRecorded, hStored,
    covers_iff_plainly_named acmeOptions _ ledgerStore hRun acmeInputs acme none ⟨none, []⟩ acme_ready hRoom⟩

end GhostApi.Reliability
