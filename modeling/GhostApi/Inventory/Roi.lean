import GhostApi.Inventory.Analysis
import GhostApi.Reliability.Coverage
import Mathlib.Algebra.Order.BigOperators.Group.List
import Mathlib.Algebra.Order.Group.Nat
import Mathlib.Algebra.Ring.Nat

/-!
# The return of the inventory

The report adds up the counters of one import run for every source: the last
one of the source with counters. The mean times to contain are added up like
the two totals.
-/

namespace GhostApi.Inventory

open Js Validation Effect Storage Transition Latest

/-! ## Coverage -/

structure CoverageMetrics where
  activeAgents : Nat
  policyCoveredAgents : Nat
  evidenceFreshAgents : Nat
  gatewayManagedAgents : Nat
  productionProviders : Nat
  killSwitchProviders : Nat
  directCredentials : Nat
  outsideGatewayAgents : Nat
  unownedProduction : Nat
  policyCoverageBps : Nat
  evidenceCoverageBps : Nat
  gatewayCoverageBps : Nat
  killSwitchCoverageBps : Nat

def bps (count total : Nat) : Nat := if total = 0 then 0 else count * 10000 / total

section Coverage

variable (state : InventoryStoreState) (tenantId : Identifier)

def isPolicyCovered (agent : AgentRecord) : Bool :=
  (ofTenant tenantId state.policies).any fun policy =>
    agent.record.environmentIds.val.any policy.record.environmentIds.val.contains

def hasFreshEvidence (now : Int) (freshnessDays : InventoryFreshnessDays) (agent : AgentRecord) : Bool :=
  agent.record.lastEvidenceAt.any fun last => now - timeOf last ≤ freshnessDays.evidenceFreshDays * DAY_MS

def isProduction (environmentIds : Environments) : Bool := environmentIds.val.contains PRODUCTION_ENVIRONMENT

def productionProviders : List ProviderRecord :=
  (ofTenant tenantId state.providers).filter fun provider => isProduction provider.record.environmentIds

def resourcesInProductionWithoutOwner : Nat :=
  (ofTenant tenantId state.resources).countP fun resource =>
    isProduction resource.record.environmentIds && resource.record.ownerId.isNone

def computeCoverage (now : Int) (freshnessDays : InventoryFreshnessDays) : CoverageMetrics :=
  let agents := ofTenant tenantId state.agents
  let production := productionProviders state tenantId
  let policyCoveredAgents := agents.countP (isPolicyCovered state tenantId)
  let evidenceFreshAgents := agents.countP (hasFreshEvidence now freshnessDays)
  let gatewayManagedAgents := agents.countP fun agent => agent.record.gatewayManaged
  let killSwitchProviders := production.countP fun provider => provider.record.killSwitchApplied
  { activeAgents := agents.length
    policyCoveredAgents
    evidenceFreshAgents
    gatewayManagedAgents
    productionProviders := production.length
    killSwitchProviders
    directCredentials := (ofTenant tenantId state.credentials).countP fun credential =>
      decide (credential.record.status = .active) && !credential.record.gatewayBound
    outsideGatewayAgents := agents.countP fun agent => !agent.record.gatewayManaged
    unownedProduction := production.countP (fun provider => provider.record.ownerId.isNone) +
      resourcesInProductionWithoutOwner state tenantId
    policyCoverageBps := bps policyCoveredAgents agents.length
    evidenceCoverageBps := bps evidenceFreshAgents agents.length
    gatewayCoverageBps := bps gatewayManagedAgents agents.length
    killSwitchCoverageBps := bps killSwitchProviders production.length }

end Coverage

/-! ## The report -/

structure RoiCounterRow where
  sourceId : Identifier
  sourceType : ImportSourceType
  sourceName : Text 120
  value : Nat

structure RoiIncidents where
  preventedEgressAttempts : Nat
  preventedEgressSources : List RoiCounterRow
  reviewTimeMinutes : Option Nat
  reviewTimeSources : List RoiCounterRow
  meanTimeToContainMinutes : Option Nat
  meanTimeToContainSources : List RoiCounterRow

structure RemediationOutcomes where
  unusedGrantsRemoved : Nat
  excessiveScopeReductions : Nat
  ownedGrants : Nat
  onboardedAgents : Nat
  evalsCreated : Nat

structure RoiCoverage where
  policyCoverageBps : Nat
  evidenceCoverageBps : Nat
  gatewayCoverageBps : Nat
  killSwitchCoverageBps : Nat

structure RoiReport where
  tenantId : Identifier
  generatedAt : Int
  activeAgentCount : Nat
  productionProviderCount : Nat
  incidents : RoiIncidents
  remediationOutcomes : RemediationOutcomes
  coverage : RoiCoverage
  notMeasured : List String

def counterIn (counter : ImportCounters → Option Counter) (run : ImportRunRecord) : Option Nat :=
  (run.counters.bind counter).map Subtype.val

def rowsOf (counter : ImportCounters → Option Counter) (runs : List ImportRunRecord) : List RoiCounterRow :=
  runs.filterMap fun run => (counterIn counter run).map fun value =>
    ⟨run.source.sourceId, run.source.sourceType, run.source.sourceName, value⟩

def total (rows : List RoiCounterRow) : Nat := (rows.map RoiCounterRow.value).sum

def measured (rows : List RoiCounterRow) : Option Nat := if rows.isEmpty then none else some (total rows)

section Report

variable (state : InventoryStoreState) (tenantId : Identifier)

def countedRuns : List ImportRunRecord :=
  state.importRuns.filter fun run => decide (run.tenantId = tenantId) && run.counters.isSome

def latestBySource : List ImportRunRecord :=
  latestBy (fun run => run.source.sourceId) (sortByTime ImportRunRecord.importedAt (countedRuns state tenantId))

def roiIncidents : RoiIncidents :=
  let runs := latestBySource state tenantId
  let preventedEgressSources := rowsOf ImportCounters.preventedEgressAttempts runs
  let reviewTimeSources := rowsOf ImportCounters.reviewTimeMinutes runs
  let meanTimeToContainSources := rowsOf ImportCounters.meanTimeToContainMinutes runs
  { preventedEgressAttempts := total preventedEgressSources
    preventedEgressSources
    reviewTimeMinutes := measured reviewTimeSources
    reviewTimeSources
    meanTimeToContainMinutes := measured meanTimeToContainSources
    meanTimeToContainSources }

def remediationOutcomes : RemediationOutcomes :=
  let remediations := state.remediations.filter fun remediation =>
    decide (remediation.tenantId = tenantId) && decide (remediation.status = .applied)
  let revokedCredentialIds := (remediations.filter fun remediation =>
    decide (remediation.kind = .revoke) && decide (remediation.targetKind = .node .credential)).map (·.targetId)
  let applied (kind : RemediationKind) : Nat := remediations.countP fun remediation => decide (remediation.kind = kind)
  { unusedGrantsRemoved := (ofTenant tenantId state.credentials).countP fun credential =>
      decide (credential.record.status = .revoked) && revokedCredentialIds.contains credential.id
    excessiveScopeReductions := applied .reduceScope
    ownedGrants := applied .assignOwner
    onboardedAgents := applied .onboardThroughGateway
    evalsCreated := applied .createEval }

def notMeasured (incidents : RoiIncidents) : List String :=
  (if incidents.reviewTimeMinutes.isNone then ["review_time_minutes"] else []) ++
  (if incidents.meanTimeToContainMinutes.isNone then ["mean_time_to_contain_minutes"] else []) ++
  (if incidents.preventedEgressAttempts = 0 then ["prevented_egress_attempts"] else [])

def computeRoiReport (now : Int) (freshnessDays : InventoryFreshnessDays) : RoiReport :=
  let coverage := computeCoverage state tenantId now freshnessDays
  let incidents := roiIncidents state tenantId
  { tenantId
    generatedAt := now
    activeAgentCount := coverage.activeAgents
    productionProviderCount := coverage.productionProviders
    incidents
    remediationOutcomes := remediationOutcomes state tenantId
    coverage := ⟨coverage.policyCoverageBps, coverage.evidenceCoverageBps, coverage.gatewayCoverageBps,
      coverage.killSwitchCoverageBps⟩
    notMeasured := notMeasured incidents }

end Report

/-! ## One run for every source -/

section Sources

variable (state : InventoryStoreState) (tenantId : Identifier)

def IsMostRecent (run : ImportRunRecord) : Prop :=
  IsLatest ImportRunRecord.importedAt
    ((countedRuns state tenantId).filter fun other => decide (other.source.sourceId = run.source.sourceId)) run

/-- Runs that differ in the order of runs with different times only. -/
def Rearranged (runs runs' : List ImportRunRecord) : Prop :=
  ∀ time, runs.filter (fun run => decide (run.importedAt = time)) = runs'.filter fun run => decide (run.importedAt = time)

/-- The report uses the last run with counters of every source, adds the totals up, gives a mean between the reported
ones, and does not depend on the order in which runs with different times are stored. -/
structure RoiExact (now : Int) (freshnessDays : InventoryFreshnessDays) : Prop where
  used : ∃ runs : List ImportRunRecord, (∀ run, run ∈ runs ↔ IsMostRecent state tenantId run) ∧
    (runs.map fun run => run.source.sourceId).Nodup ∧
    (computeRoiReport state tenantId now freshnessDays).incidents.preventedEgressAttempts =
      (runs.filterMap (counterIn ImportCounters.preventedEgressAttempts)).sum ∧
    (∀ minutes, (computeRoiReport state tenantId now freshnessDays).incidents.reviewTimeMinutes = some minutes →
      minutes = (runs.filterMap (counterIn ImportCounters.reviewTimeMinutes)).sum) ∧
    ((computeRoiReport state tenantId now freshnessDays).incidents.reviewTimeMinutes = none →
      ∀ run ∈ runs, counterIn ImportCounters.reviewTimeMinutes run = none)
  mean : ∀ minutes, (computeRoiReport state tenantId now freshnessDays).incidents.meanTimeToContainMinutes = some minutes →
    ∃ low high, IsMostRecent state tenantId low ∧ IsMostRecent state tenantId high ∧
      (∃ least, counterIn ImportCounters.meanTimeToContainMinutes low = some least ∧ least ≤ minutes) ∧
      ∃ greatest, counterIn ImportCounters.meanTimeToContainMinutes high = some greatest ∧ minutes ≤ greatest
  rearranged : ∀ runs, Rearranged runs state.importRuns →
    computeRoiReport { state with importRuns := runs } tenantId now freshnessDays =
      computeRoiReport state tenantId now freshnessDays

/-- At most one source reports a mean above zero in its last run with counters. -/
def OneMean : Prop :=
  ∀ run run' value value', IsMostRecent state tenantId run → IsMostRecent state tenantId run' →
    counterIn ImportCounters.meanTimeToContainMinutes run = some value →
    counterIn ImportCounters.meanTimeToContainMinutes run' = some value' → 0 < value → 0 < value' → run = run'

variable {state tenantId}

theorem mem_latestBySource {run : ImportRunRecord} : run ∈ latestBySource state tenantId ↔ IsMostRecent state tenantId run :=
  mem_latestBy_sortByTime _

theorem nodup_latestBySource : ((latestBySource state tenantId).map fun run => run.source.sourceId).Nodup :=
  nodup_latestBy _ _

theorem map_value_rowsOf (counter : ImportCounters → Option Counter) (runs : List ImportRunRecord) :
    (rowsOf counter runs).map RoiCounterRow.value = runs.filterMap (counterIn counter) := by
  rw [rowsOf, List.map_filterMap]
  refine List.filterMap_congr fun run _ => ?_
  cases counterIn counter run with
  | none => rfl
  | some value => rfl

theorem total_rowsOf (counter : ImportCounters → Option Counter) (runs : List ImportRunRecord) :
    total (rowsOf counter runs) = (runs.filterMap (counterIn counter)).sum := by
  rw [total, map_value_rowsOf]

theorem isEmpty_rowsOf (counter : ImportCounters → Option Counter) (runs : List ImportRunRecord) :
    (rowsOf counter runs).isEmpty = (runs.filterMap (counterIn counter)).isEmpty := by
  rw [← map_value_rowsOf, List.isEmpty_map]

theorem countedRuns_rearranged {runs : List ImportRunRecord} (h : Rearranged runs state.importRuns) :
    sortByTime ImportRunRecord.importedAt (countedRuns { state with importRuns := runs } tenantId) =
      sortByTime ImportRunRecord.importedAt (countedRuns state tenantId) := by
  refine sortByTime_congr fun time => ?_
  rw [countedRuns, countedRuns, List.filter_comm, h time, List.filter_comm]

theorem report_rearranged {runs : List ImportRunRecord} (h : Rearranged runs state.importRuns) (now : Int)
    (freshnessDays : InventoryFreshnessDays) : computeRoiReport { state with importRuns := runs } tenantId now freshnessDays =
      computeRoiReport state tenantId now freshnessDays := by
  have hLatest : latestBySource { state with importRuns := runs } tenantId = latestBySource state tenantId := by
    rw [latestBySource, latestBySource, countedRuns_rearranged h]
  have hIncidents : roiIncidents { state with importRuns := runs } tenantId = roiIncidents state tenantId := by
    rw [roiIncidents, hLatest]
    rfl
  rw [computeRoiReport, hIncidents]
  rfl

end Sources

/-! ## Sums of means -/

section Sums

variable {runs : List ImportRunRecord} {f : ImportRunRecord → Option Nat} {run run' : ImportRunRecord} {value value' : Nat}

theorem value_le_sum (hMem : run ∈ runs) (hValue : f run = some value) : value ≤ (runs.filterMap f).sum :=
  List.le_sum_of_mem (List.mem_filterMap.mpr ⟨run, hMem, hValue⟩)

theorem values_le_sum (hMem : run ∈ runs) (hMem' : run' ∈ runs) (hOther : run' ≠ run) (hValue : f run = some value)
    (hValue' : f run' = some value') : value + value' ≤ (runs.filterMap f).sum := by
  obtain ⟨before, after, rfl⟩ := List.append_of_mem hMem
  have hRest : run' ∈ before ++ after := by
    rcases List.mem_append.mp hMem' with hBefore | hAfter
    · exact List.mem_append_left _ hBefore
    · exact List.mem_append_right _ ((List.mem_cons.mp hAfter).resolve_left hOther)
  have hLe := value_le_sum hRest hValue'
  rw [List.filterMap_append, List.sum_append] at hLe
  rw [List.filterMap_append, List.sum_append, List.filterMap_cons_some hValue, List.sum_cons]
  omega

theorem sum_le_of_others (hNodup : runs.Nodup) (hMem : run ∈ runs) (hValue : f run = some value)
    (hOthers : ∀ other ∈ runs, ∀ n, f other = some n → 0 < n → other = run) : (runs.filterMap f).sum ≤ value := by
  obtain ⟨before, after, rfl⟩ := List.append_of_mem hMem
  have hApart : run ∉ before ∧ run ∉ after := by
    rw [List.nodup_append, List.nodup_cons] at hNodup
    exact ⟨fun hBefore => hNodup.2.2 run hBefore run List.mem_cons_self rfl, hNodup.2.1.1⟩
  have hZero : ∀ others : List ImportRunRecord, run ∉ others → (∀ other ∈ others, other ∈ before ++ run :: after) →
      (others.filterMap f).sum = 0 := by
    intro others hNot hSub
    refine List.sum_eq_zero fun n hn => ?_
    obtain ⟨other, hOther, hN⟩ := List.mem_filterMap.mp hn
    by_contra hNe
    have hSame := hOthers other (hSub other hOther) n hN (Nat.pos_of_ne_zero hNe)
    exact hNot (hSame ▸ hOther)
  have hBefore := hZero before hApart.1 fun other hOther => List.mem_append_left _ hOther
  have hAfter := hZero after hApart.2 fun other hOther => List.mem_append_right _ (List.mem_cons_of_mem _ hOther)
  rw [List.filterMap_append, List.sum_append, List.filterMap_cons_some hValue, List.sum_cons, hBefore, hAfter]
  omega

end Sums

theorem measured_eq_some {rows : List RoiCounterRow} {minutes : Nat} :
    measured rows = some minutes ↔ rows.isEmpty = false ∧ minutes = total rows := by
  rw [measured]
  cases rows.isEmpty with
  | true => simp
  | false =>
    rw [if_neg Bool.false_ne_true, Option.some.injEq, eq_comm]
    simp

theorem measured_eq_none {rows : List RoiCounterRow} : measured rows = none ↔ rows.isEmpty = true := by
  rw [measured]
  cases rows.isEmpty with
  | true => simp
  | false => simp

/-- **Return on investment.** For every state and tenant, the report is exact if and only if at most one source reports a
mean time to contain above zero in its last run with counters. -/
theorem roiExact_iff (state : InventoryStoreState) (tenantId : Identifier) (now : Int) (freshnessDays : InventoryFreshnessDays) :
    RoiExact state tenantId now freshnessDays ↔ OneMean state tenantId := by
  have hMean : (computeRoiReport state tenantId now freshnessDays).incidents.meanTimeToContainMinutes =
      measured (rowsOf ImportCounters.meanTimeToContainMinutes (latestBySource state tenantId)) := rfl
  constructor
  · intro hExact run run' value value' hRun hRun' hValue hValue' hPos hPos'
    have hMem := mem_latestBySource.mpr hRun
    have hMem' := mem_latestBySource.mpr hRun'
    have hMeasured : measured (rowsOf ImportCounters.meanTimeToContainMinutes (latestBySource state tenantId)) =
        some (total (rowsOf ImportCounters.meanTimeToContainMinutes (latestBySource state tenantId))) := by
      rw [measured_eq_some, isEmpty_rowsOf, List.isEmpty_eq_false_iff]
      exact ⟨List.ne_nil_of_mem (List.mem_filterMap.mpr ⟨run, hMem, hValue⟩), rfl⟩
    obtain ⟨low, high, -, hHigh, -, greatest, hGreatest, hLe⟩ := hExact.mean _ (hMean.trans hMeasured)
    rw [total_rowsOf] at hLe
    -- A second positive mean would lift the sum above the greatest one.
    have hOnly : ∀ other n, IsMostRecent state tenantId other →
        counterIn ImportCounters.meanTimeToContainMinutes other = some n → 0 < n → other = high := by
      intro other n hOther hN hPositive
      by_contra hNe
      have hSum := values_le_sum (mem_latestBySource.mpr hHigh) (mem_latestBySource.mpr hOther) hNe hGreatest hN
      omega
    rw [hOnly run value hRun hValue hPos, hOnly run' value' hRun' hValue' hPos']
  · intro hOne
    have hNodup : (latestBySource state tenantId).Nodup := List.Nodup.of_map _ nodup_latestBySource
    constructor
    · refine ⟨latestBySource state tenantId, fun _ => mem_latestBySource, nodup_latestBySource, total_rowsOf _ _, ?_, ?_⟩
      · intro minutes hMinutes
        rw [← total_rowsOf]
        exact (measured_eq_some.mp hMinutes).2
      · intro hNone run hRun
        have hEmpty := measured_eq_none.mp hNone
        rw [isEmpty_rowsOf, List.isEmpty_iff, List.filterMap_eq_nil_iff] at hEmpty
        exact hEmpty run hRun
    · intro minutes hMinutes
      obtain ⟨hRows, rfl⟩ := measured_eq_some.mp (hMean.symm.trans hMinutes)
      rw [isEmpty_rowsOf, List.isEmpty_eq_false_iff] at hRows
      rw [total_rowsOf]
      obtain ⟨value, hValue⟩ := List.exists_mem_of_ne_nil _ hRows
      obtain ⟨low, hLow, hSome⟩ := List.mem_filterMap.mp hValue
      have hLeast := value_le_sum hLow hSome
      by_cases hPositive : ∃ run ∈ latestBySource state tenantId, ∃ n,
          counterIn ImportCounters.meanTimeToContainMinutes run = some n ∧ 0 < n
      · obtain ⟨high, hHigh, n, hN, hPos⟩ := hPositive
        refine ⟨low, high, mem_latestBySource.mp hLow, mem_latestBySource.mp hHigh, ⟨value, hSome, hLeast⟩, n, hN, ?_⟩
        exact sum_le_of_others hNodup hHigh hN fun other hOther m hM hMPos =>
          hOne other high m n (mem_latestBySource.mp hOther) (mem_latestBySource.mp hHigh) hM hN hMPos hPos
      · refine ⟨low, low, mem_latestBySource.mp hLow, mem_latestBySource.mp hLow, ⟨value, hSome, hLeast⟩, value, hSome, ?_⟩
        exact sum_le_of_others hNodup hLow hSome fun other hOther m hM hMPos =>
          absurd ⟨other, hOther, m, hM, hMPos⟩ hPositive
    · intro runs hRearranged
      exact report_rearranged hRearranged now freshnessDays

/-! ## Two sources -/

def countersPayload (source : String) (minutes : Nat) : JsValue :=
  .object [("schemaVersion", integer 1), ("kind", .string "ghostapi.inventory-import"),
    ("source", .object [("sourceId", .string source), ("sourceType", .string source), ("sourceName", .string source)]),
    ("counters", .object [("meanTimeToContainMinutes", integer minutes)])]

def countersInput (source : String) (minutes : Nat) (n : Nat) : ImportInput :=
  ⟨.ok acmeOperator, countersPayload source minutes, some n, Reliability.binaryUuid n⟩

def countersImport (source : String) (minutes : Nat) (n : Nat) : InventoryEvent :=
  .importInventory (countersInput source minutes n)

def countersEvents : List InventoryEvent := [countersImport "ci" 10 1, countersImport "cloud" 20 2]

theorem countersEvents_checked :
    ((importInventory defaultOptions (countersInput "ci" 10 1) none).toOption.any fun first => isLight first.2 &&
      (authorize (.ok acmeOperator) .importPermission).toOption.any fun operator =>
        (validateImportPayload (countersPayload "cloud" 20)).toOption.any fun payload =>
          (importOp defaultOptions operator payload 2 (Reliability.uuidName "import-" (Reliability.binaryUuid 2))
              first.2).toOption.any fun second => (checkState second.2).toOption.isSome &&
            (decide ((computeRoiReport second.2 acme 3 defaultFreshnessDays).incidents.meanTimeToContainMinutes = some 30) &&
              second.2.importRuns.all fun run =>
                (counterIn ImportCounters.meanTimeToContainMinutes run).all fun value => decide (value ≤ 20))) = true := by
  decide +kernel

theorem countersEvents_run : ∃ state, (machine defaultOptions).FreeRun countersEvents (some state) ∧
    (computeRoiReport state acme 3 defaultFreshnessDays).incidents.meanTimeToContainMinutes = some 30 ∧
    ∀ run ∈ state.importRuns, (counterIn ImportCounters.meanTimeToContainMinutes run).all (fun value => decide (value ≤ 20)) =
      true := by
  obtain ⟨⟨_, first⟩, hFirst, hTest⟩ := (Option.any_eq_true _ _).mp countersEvents_checked
  rw [Bool.and_eq_true] at hTest
  obtain ⟨hLight, hTest⟩ := hTest
  obtain ⟨operator, hOperator, hTest⟩ := (Option.any_eq_true _ _).mp hTest
  obtain ⟨payload, hPayload, hTest⟩ := (Option.any_eq_true _ _).mp hTest
  obtain ⟨⟨summary, second⟩, hOp, hTest⟩ := (Option.any_eq_true _ _).mp hTest
  rw [Bool.and_eq_true, Bool.and_eq_true, decide_eq_true_eq, List.all_eq_true] at hTest
  obtain ⟨_, hChecked⟩ := Option.isSome_iff_exists.mp hTest.1
  have hFirst := toOption_eq_some hFirst
  obtain ⟨_, _, _, _, _, _, _, hValid⟩ := importInventory_ok hFirst
  have hNow : format.timestamp (countersInput "cloud" 20 2).now = .ok 2 := rfl
  have hSecond : importInventory defaultOptions (countersInput "cloud" 20 2) (some first) = .ok (summary, second) :=
    importInventory_of_light (toOption_eq_some hOperator) (toOption_eq_some hPayload) hNow hValid hLight
      (toOption_eq_some hOp) (toOption_eq_some hChecked)
  exact ⟨second, freeRun_import (freeRun_import .start hFirst) hSecond, hTest.2⟩

/-- Two sources with means of 10 and 20 minutes are reported with a mean of 30. -/
theorem roi_mean_above : ∃ store, (machine defaultOptions).FreeRun countersEvents store ∧
    ¬RoiExact (stateOf store) acme 3 defaultFreshnessDays := by
  obtain ⟨state, hRun, hMean, hValues⟩ := countersEvents_run
  refine ⟨some state, hRun, fun hExact => ?_⟩
  obtain ⟨_, high, _, hHigh, _, greatest, hGreatest, hLe⟩ := hExact.mean 30 hMean
  have hMem : high ∈ state.importRuns := List.mem_of_mem_filter (List.mem_of_mem_filter hHigh.mem)
  have hBound := hValues high hMem
  rw [hGreatest, Option.all_some, decide_eq_true_eq] at hBound
  omega

end GhostApi.Inventory
