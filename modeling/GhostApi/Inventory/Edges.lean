import GhostApi.Inventory.Remediations
import Mathlib.Data.List.Dedup

/-!
# Edges of imports

The edges after an import in closed form, and what they say about the links
that the payload declares. An import compares every link with the edges from
before it, so a link that a payload declares twice is stored or counted twice.
-/

namespace GhostApi.Inventory

open Js Validation Effect Storage Transition

/-! ## Merged records -/

section Merging

variable {ι : Type} [InventoryRecord ι] {kind : String} {limit : Nat} {tenantId : Identifier} {provenance : RecordProvenance}
  {list list' : List (Stored ι)} {record : ι} {batch : List ι}

theorem isRecord_iff {tenantId id : Identifier} {stored : Stored ι} :
    Stored.isRecord tenantId id stored = true ↔ stored.tenantId = tenantId ∧ stored.id = id := by
  rw [Stored.isRecord, Bool.and_eq_true, decide_eq_true_eq, decide_eq_true_eq]

theorem isRecord_apart {id other : Identifier} (hApart : other ≠ id) (stored : Stored ι)
    (h : Stored.isRecord tenantId id stored = true) : Stored.isRecord tenantId other stored = false := by
  rw [Bool.eq_false_iff]
  intro hOther
  exact hApart ((isRecord_iff.mp hOther).2.symm.trans (isRecord_iff.mp h).2)

theorem merge_self (h : merge kind limit tenantId provenance list record = .ok list') :
    (findRecord tenantId (InventoryRecord.id record) list').map Stored.record = some record := by
  have hSelf : ∀ freshness, Stored.isRecord tenantId (InventoryRecord.id record)
      (⟨tenantId, record, provenance, freshness⟩ : Stored ι) = true := fun _ => isRecord_iff.mpr ⟨rfl, rfl⟩
  unfold merge at h
  dsimp only at h
  split at h
  · rename_i hNone
    split at h
    · cases h
    · cases h
      rw [findRecord] at hNone ⊢
      rw [List.find?_append, hNone, Option.none_or, List.find?_singleton, if_pos (hSelf _)]
      rfl
  · cases h
    rw [findRecord, Table.find?_upsert_self (hSelf _)]
    rfl

theorem merge_other (h : merge kind limit tenantId provenance list record = .ok list') {other : Identifier}
    (hApart : other ≠ InventoryRecord.id record) : findRecord tenantId other list' = findRecord tenantId other list := by
  have hSelf : ∀ freshness, Stored.isRecord tenantId other (⟨tenantId, record, provenance, freshness⟩ : Stored ι) = false :=
    fun _ => isRecord_apart hApart _ (isRecord_iff.mpr ⟨rfl, rfl⟩)
  unfold merge at h
  dsimp only at h
  split at h
  · split at h
    · cases h
    · cases h
      rw [findRecord, List.find?_append, List.find?_singleton, hSelf]
      exact Option.or_none
  · cases h
    exact Table.find?_upsert_other (hSelf _) (isRecord_apart hApart)

theorem merges_other (h : batch.foldlM (merge kind limit tenantId provenance) list = .ok list') {other : Identifier}
    (hApart : other ∉ batch.map InventoryRecord.id) : findRecord tenantId other list' = findRecord tenantId other list := by
  induction batch generalizing list with
  | nil =>
    cases h
    rfl
  | cons record batch ih =>
    rw [List.map_cons, List.mem_cons, not_or] at hApart
    obtain ⟨mid, hMid, hRest⟩ := bind_eq_ok (List.foldlM_cons.symm.trans h)
    exact (ih hRest hApart.2).trans (merge_other hMid hApart.1)

theorem merges_self (h : batch.foldlM (merge kind limit tenantId provenance) list = .ok list')
    (hNodup : (batch.map InventoryRecord.id).Nodup) :
    ∀ record ∈ batch, (findRecord tenantId (InventoryRecord.id record) list').map Stored.record = some record := by
  induction batch generalizing list with
  | nil => simp
  | cons record batch ih =>
    rw [List.map_cons, List.nodup_cons] at hNodup
    obtain ⟨mid, hMid, hRest⟩ := bind_eq_ok (List.foldlM_cons.symm.trans h)
    intro input hInput
    rcases List.mem_cons.mp hInput with rfl | hInput
    · rw [merges_other hRest hNodup.1]
      exact merge_self hMid
    · exact ih hRest hNodup.2 input hInput

theorem linksOf_merged [Linked ι] (h : batch.foldlM (merge kind limit tenantId provenance) list = .ok list')
    (hNodup : (batch.map InventoryRecord.id).Nodup) : linksOf tenantId batch list' = batch.flatMap Linked.links := by
  refine List.flatMap_congr fun record hRecord => ?_
  have hFound := merges_self h hNodup record hRecord
  cases hFind : findRecord tenantId (InventoryRecord.id record) list' with
  | none =>
    rw [hFind] at hFound
    cases hFound
  | some found =>
    rw [hFind] at hFound
    cases hFound
    rfl

end Merging

def payloadLinks (payload : InventoryImportPayload) : List Link :=
  payload.agents.val.flatMap Linked.links ++ payload.tools.val.flatMap Linked.links ++
    payload.identities.val.flatMap Linked.links ++ payload.providers.val.flatMap Linked.links ++
    payload.resources.val.flatMap Linked.links

theorem mergeRecords_links {tenantId : Identifier} {provenance : RecordProvenance} {payload : InventoryImportPayload}
    {state merged : InventoryStoreState} (h : mergeRecords tenantId provenance payload state = .ok merged) :
    merged.edges = state.edges ∧ declaredLinks merged tenantId payload = payloadLinks payload := by
  obtain ⟨agents, hAgents, h⟩ := bind_eq_ok h
  obtain ⟨tools, hTools, h⟩ := bind_eq_ok h
  obtain ⟨identities, hIdentities, h⟩ := bind_eq_ok h
  obtain ⟨providers, hProviders, h⟩ := bind_eq_ok h
  obtain ⟨resources, hResources, h⟩ := bind_eq_ok h
  obtain ⟨sideEffects, _, h⟩ := bind_eq_ok h
  obtain ⟨credentials, _, h⟩ := bind_eq_ok h
  obtain ⟨policies, _, h⟩ := bind_eq_ok h
  cases h
  refine ⟨rfl, ?_⟩
  rw [declaredLinks, payloadLinks]
  dsimp only
  rw [linksOf_merged hAgents payload.agents.property.2, linksOf_merged hTools payload.tools.property.2,
    linksOf_merged hIdentities payload.identities.property.2, linksOf_merged hProviders payload.providers.property.2,
    linksOf_merged hResources payload.resources.property.2]

/-! ## Applied links -/

def storedLinks (state : InventoryStoreState) : List Link := state.edges.map GraphEdge.link

def EdgeIdsApart (links : List Link) : Prop :=
  ∀ link ∈ links, ∀ link' ∈ links, edgeIdFor link = edgeIdFor link' → link = link'

/-- An edge seen at the time of an import that declares its link. -/
def touch (links : List Link) (now : Int) (edge : GraphEdge) : GraphEdge :=
  if edge.link ∈ links then { edge with lastSeenAt := now } else edge

@[simp] theorem touch_link (links : List Link) (now : Int) (edge : GraphEdge) : (touch links now edge).link = edge.link := by
  rw [touch]
  split
  all_goals rfl

@[simp] theorem newEdge_link (tenantId : Identifier) (provenance : RecordProvenance) (link : Link) :
    (newEdge tenantId provenance link).link = link := rfl

theorem refresh_newEdge (tenantId : Identifier) (provenance : RecordProvenance) (link : Link) (edgeId : String) :
    refresh edgeId provenance.importedAt (newEdge tenantId provenance link) = newEdge tenantId provenance link := by
  rw [refresh]
  split
  all_goals rfl

section Applying

variable {tenantId : Identifier} {provenance : RecordProvenance} {before : List GraphEdge} {links : List Link}

/-- The outcome of links applied to the edges from before an import. -/
def applied (tenantId : Identifier) (provenance : RecordProvenance) (before : List GraphEdge) (links : List Link) :
    ImportOutcome :=
  let fresh := links.filter fun link => decide (link ∉ before.map GraphEdge.link)
  ⟨before.map (touch links provenance.importedAt) ++ fresh.map (newEdge tenantId provenance), fresh.length,
    (links.filter fun link => decide (link ∈ before.map GraphEdge.link)).length⟩

theorem any_edgeId (hIds : ∀ edge ∈ before, edge.edgeId = edgeIdFor edge.link)
    {link : Link} (hApart : ∀ edge ∈ before, edgeIdFor edge.link = edgeIdFor link → edge.link = link) :
    before.any (fun edge => decide (edge.edgeId = edgeIdFor link)) = true ↔ link ∈ before.map GraphEdge.link := by
  rw [List.any_eq_true, List.mem_map]
  constructor
  · rintro ⟨edge, hEdge, hId⟩
    rw [decide_eq_true_eq, hIds edge hEdge] at hId
    exact ⟨edge, hEdge, hApart edge hEdge hId⟩
  · rintro ⟨edge, hEdge, rfl⟩
    exact ⟨edge, hEdge, decide_eq_true (hIds edge hEdge)⟩

theorem refresh_touch {edge : GraphEdge} (hId : edge.edgeId = edgeIdFor edge.link) {link : Link}
    (hApart : edgeIdFor edge.link = edgeIdFor link → edge.link = link) (links : List Link) (now : Int) :
    refresh (edgeIdFor link) now (touch links now edge) = touch (links ++ [link]) now edge := by
  have hEdgeId : (touch links now edge).edgeId = edgeIdFor edge.link := by
    rw [touch, ← hId]
    split
    all_goals rfl
  by_cases hLink : edge.link = link
  · have hMem : edge.link ∈ links ++ [link] := by simp [hLink]
    rw [refresh, if_pos (hEdgeId.trans (congrArg edgeIdFor hLink)), touch, touch, if_pos hMem]
    split
    all_goals rfl
  · have hMem : edge.link ∈ links ++ [link] ↔ edge.link ∈ links := by simp [hLink]
    rw [refresh, if_neg fun h => hLink (hApart (hEdgeId.symm.trans h)), touch, touch]
    simp only [hMem]

theorem touch_nil (now : Int) (edge : GraphEdge) : touch [] now edge = edge := if_neg List.not_mem_nil

theorem touch_append {links : List Link} {link : Link} {edge : GraphEdge} (hApart : edge.link ≠ link) (now : Int) :
    touch (links ++ [link]) now edge = touch links now edge := by
  simp [touch, hApart]

theorem upsertEdges_eq (hIds : ∀ edge ∈ before, edge.edgeId = edgeIdFor edge.link)
    (hApart : EdgeIdsApart (before.map GraphEdge.link ++ links)) :
    upsertEdges tenantId provenance before links = applied tenantId provenance before links := by
  induction links using List.reverseRecOn with
  | nil =>
    have hTouch : before.map (touch [] provenance.importedAt) = before :=
      (List.map_congr_left fun edge _ => touch_nil _ edge).trans (List.map_id before)
    simp [upsertEdges, applied, hTouch]
  | append_singleton links link ih =>
    have hLink : ∀ edge ∈ before, edgeIdFor edge.link = edgeIdFor link → edge.link = link := by
      intro edge hEdge
      exact hApart edge.link (List.mem_append_left _ (List.mem_map_of_mem hEdge)) link (by simp)
    have hBefore : EdgeIdsApart (before.map GraphEdge.link ++ links) := by
      intro one hOne other hOther
      rw [← List.append_assoc] at hApart
      exact hApart one (List.mem_append_left _ hOne) other (List.mem_append_left _ hOther)
    rw [upsertEdges, List.foldl_append, ← upsertEdges, ih hBefore, List.foldl_cons, List.foldl_nil, applyLink]
    by_cases hStored : link ∈ before.map GraphEdge.link
    · rw [if_pos ((any_edgeId hIds hLink).mpr hStored)]
      have hTouched : before.map (refresh (edgeIdFor link) provenance.importedAt ∘ touch links provenance.importedAt) =
          before.map (touch (links ++ [link]) provenance.importedAt) :=
        List.map_congr_left fun edge hEdge => refresh_touch (hIds edge hEdge) (hLink edge hEdge) links _
      have hFresh : ∀ fresh : List Link, (fresh.map (newEdge tenantId provenance)).map
          (refresh (edgeIdFor link) provenance.importedAt) = fresh.map (newEdge tenantId provenance) := by
        intro fresh
        rw [List.map_map]
        exact List.map_congr_left fun other _ => refresh_newEdge _ _ other _
      rw [applied, applied]
      dsimp only
      rw [List.map_append, List.map_map, hTouched, hFresh, List.filter_append, List.filter_append,
        List.filter_singleton, List.filter_singleton]
      simp [hStored]
    · rw [if_neg fun h => hStored ((any_edgeId hIds hLink).mp h)]
      have hTouched : before.map (touch links provenance.importedAt) =
          before.map (touch (links ++ [link]) provenance.importedAt) := by
        refine List.map_congr_left fun edge hEdge => ?_
        have hNe : edge.link ≠ link := fun hSame => hStored (hSame ▸ List.mem_map_of_mem hEdge)
        exact (touch_append hNe _).symm
      rw [applied, applied]
      dsimp only
      rw [← hTouched, List.filter_append, List.filter_append, List.filter_singleton, List.filter_singleton]
      simp [hStored]

end Applying

/-! ## Histories -/

inductive KeptSince (options : InventoryControllerOptions) (link : Link) : List InventoryEvent → Int → Prop
  | stored {es : List InventoryEvent} {store : Option InventoryStoreState} {input : ImportInput} {summary : ImportSummary}
      {after : InventoryStoreState} (run : (machine options).FreeRun es store)
      (taken : importInventory options input store = .ok (summary, after)) (unknown : link ∉ storedLinks (stateOf store))
      (known : link ∈ storedLinks after) : KeptSince options link (es ++ [.importInventory input]) summary.importedAt
  | kept {es : List InventoryEvent} {event : InventoryEvent} {store : Option InventoryStoreState} {time : Int}
      (since : KeptSince options link es time) (run : (machine options).FreeRun (es ++ [event]) store)
      (known : link ∈ storedLinks (stateOf store)) : KeptSince options link (es ++ [event]) time

/-- The edges of a store of one tenant after some events. -/
structure Exact (options : InventoryControllerOptions) (tenantId : Identifier) (es : List InventoryEvent)
    (state : InventoryStoreState) : Prop where
  tenant : ∀ edge ∈ state.edges, edge.tenantId = tenantId
  edgeId : ∀ edge ∈ state.edges, edge.edgeId = edgeIdFor edge.link
  nodup : (storedLinks state).Nodup
  since : ∀ edge ∈ state.edges, KeptSince options edge.link es edge.firstSeenAt

/-- The graph after an import mirrors the records of the payload. -/
structure Mirrors (options : InventoryControllerOptions) (tenantId : Identifier) (es : List InventoryEvent)
    (store : Option InventoryStoreState) (payload : InventoryImportPayload) (summary : ImportSummary)
    (after : InventoryStoreState) : Prop where
  one : ∀ link ∈ payloadLinks payload,
    after.edges.countP (fun edge => decide (edge.tenantId = tenantId ∧ edge.link = link)) = 1
  times : ∀ edge ∈ after.edges, edge.link ∈ payloadLinks payload →
    edge.lastSeenAt = summary.importedAt ∧ KeptSince options edge.link es edge.firstSeenAt
  created : summary.edgesCreated =
    ((payloadLinks payload).dedup.filter fun link => decide (link ∉ storedLinks (stateOf store))).length
  refreshed : summary.edgesRefreshed =
    ((payloadLinks payload).dedup.filter fun link => decide (link ∈ storedLinks (stateOf store))).length

/-- An import by an operator of the tenant, without two links of one digest among the stored and the declared ones. -/
def OfTenant (tenantId : Identifier) (store : Option InventoryStoreState) (input : ImportInput) : Prop :=
  (∀ operator, authorize input.authenticate .importPermission = .ok operator → operator.tenantId = tenantId) ∧
    ∀ payload, validateImportPayload input.payload = .ok payload →
      EdgeIdsApart (storedLinks (stateOf store) ++ payloadLinks payload)

/-- Imports of one tenant that name no reference twice in one list. -/
def Plain (tenantId : Identifier) (store : Option InventoryStoreState) : InventoryEvent → Prop
  | .importInventory input => OfTenant tenantId store input ∧
      ∀ payload, validateImportPayload input.payload = .ok payload → (payloadLinks payload).Nodup
  | _ => True

section Imports

variable {options : InventoryControllerOptions} {tenantId : Identifier} {es : List InventoryEvent}
  {store : Option InventoryStoreState} {input : ImportInput} {payload : InventoryImportPayload} {summary : ImportSummary}
  {after : InventoryStoreState}

theorem freeRun_import (run : (machine options).FreeRun es store)
    (hStep : importInventory options input store = .ok (summary, after)) :
    (machine options).FreeRun (es ++ [.importInventory input]) (some after) := by
  have hWrite : (InventoryEvent.importInventory input).write options store = .ok after := by
    rw [InventoryEvent.write, hStep]
    rfl
  exact run.next trivial (congrArg some (serve_ok hWrite))

structure EdgeStep (options : InventoryControllerOptions) (tenantId : Identifier) (before : List GraphEdge)
    (links : List Link) (provenance : RecordProvenance) (summary : ImportSummary) (edges : List GraphEdge) : Prop where
  edges_eq : edges = pruneStaleEdges options.freshnessDays tenantId summary.importedAt
    (applied tenantId provenance before links).edges
  importedAt_eq : provenance.importedAt = summary.importedAt
  created_eq : summary.edgesCreated = (links.filter fun link => decide (link ∉ before.map GraphEdge.link)).length
  refreshed_eq : summary.edgesRefreshed = (links.filter fun link => decide (link ∈ before.map GraphEdge.link)).length

theorem import_edges (hExact : Exact options tenantId es (stateOf store)) (hTenant : OfTenant tenantId store input)
    (hPayload : validateImportPayload input.payload = .ok payload)
    (hStep : importInventory options input store = .ok (summary, after)) :
    ∃ provenance, EdgeStep options tenantId (stateOf store).edges (payloadLinks payload) provenance summary after.edges := by
  obtain ⟨operator, payload', now, hOperator, hPayload', _, hOp, _⟩ := importInventory_ok hStep
  cases hPayload.symm.trans hPayload'
  obtain ⟨sources, _, hOp⟩ := bind_eq_ok hOp
  obtain ⟨merged, hMerged, hOp⟩ := bind_eq_ok hOp
  obtain ⟨_, _, hOp⟩ := bind_eq_ok hOp
  obtain ⟨_, _, hOp⟩ := bind_eq_ok hOp
  cases hOp
  obtain ⟨hEdges, hLinks⟩ := mergeRecords_links hMerged
  have hOutcome : importEdges operator payload now merged = applied operator.tenantId
      (buildRecordProvenance payload.source now operator.principalId) (stateOf store).edges (payloadLinks payload) := by
    rw [importEdges, hEdges, hLinks]
    exact upsertEdges_eq hExact.edgeId (hTenant.2 payload hPayload)
  cases hTenant.1 operator hOperator
  refine ⟨buildRecordProvenance payload.source now operator.principalId, ?_⟩
  constructor
  · dsimp only [importRun, importSummary]
    rw [hOutcome]
  · rfl
  · dsimp only [importRun, importSummary]
    rw [hOutcome]
    rfl
  · dsimp only [importRun, importSummary]
    rw [hOutcome]
    rfl

end Imports

section Steps

variable {options : InventoryControllerOptions} {tenantId : Identifier} {before edges : List GraphEdge} {links : List Link}
  {provenance : RecordProvenance} {summary : ImportSummary}

theorem EdgeStep.cases (hStep : EdgeStep options tenantId before links provenance summary edges) {edge : GraphEdge}
    (hEdge : edge ∈ edges) : (∃ old ∈ before, edge = touch links summary.importedAt old) ∨
      ∃ link ∈ links, link ∉ before.map GraphEdge.link ∧ edge = newEdge tenantId provenance link := by
  rw [hStep.edges_eq] at hEdge
  rcases List.mem_append.mp (List.mem_of_mem_filter hEdge) with hOld | hNew
  · obtain ⟨old, hBefore, rfl⟩ := List.mem_map.mp hOld
    exact .inl ⟨old, hBefore, by rw [hStep.importedAt_eq]⟩
  · obtain ⟨link, hLink, rfl⟩ := List.mem_map.mp hNew
    obtain ⟨hLink, hFresh⟩ := List.mem_filter.mp hLink
    exact .inr ⟨link, hLink, of_decide_eq_true hFresh, rfl⟩

theorem EdgeStep.lastSeenAt_eq (hStep : EdgeStep options tenantId before links provenance summary edges) {edge : GraphEdge}
    (hEdge : edge ∈ edges) (hLink : edge.link ∈ links) : edge.lastSeenAt = summary.importedAt := by
  obtain ⟨old, hOld, rfl⟩ | ⟨link, _, _, rfl⟩ := hStep.cases hEdge
  · rw [touch_link] at hLink
    rw [touch, if_pos hLink]
  · exact hStep.importedAt_eq

theorem applied_links : (applied tenantId provenance before links).edges.map GraphEdge.link =
    before.map GraphEdge.link ++ links.filter fun link => decide (link ∉ before.map GraphEdge.link) := by
  rw [applied]
  dsimp only
  rw [List.map_append, List.map_map, List.map_map]
  congr 1
  · exact List.map_congr_left fun edge _ => touch_link links _ edge
  · exact List.map_id _

theorem EdgeStep.nodup (hStep : EdgeStep options tenantId before links provenance summary edges)
    (hBefore : (before.map GraphEdge.link).Nodup) (hLinks : links.Nodup) : (edges.map GraphEdge.link).Nodup := by
  have hAll : ((applied tenantId provenance before links).edges.map GraphEdge.link).Nodup := by
    rw [applied_links, List.nodup_append]
    refine ⟨hBefore, hLinks.filter _, ?_⟩
    rintro link hOld other hNew rfl
    exact of_decide_eq_true (List.mem_filter.mp hNew).2 hOld
  rw [hStep.edges_eq]
  exact hAll.sublist (List.filter_sublist.map GraphEdge.link)

theorem EdgeStep.mem_links (hStep : EdgeStep options tenantId before links provenance summary edges)
    (hDays : 0 ≤ options.freshnessDays.edgeStaleDays) {link : Link} (hLink : link ∈ links) :
    link ∈ edges.map GraphEdge.link := by
  have hMem : link ∈ (applied tenantId provenance before links).edges.map GraphEdge.link := by
    rw [applied_links, List.mem_append, List.mem_filter, decide_eq_true_eq]
    by_cases hOld : link ∈ before.map GraphEdge.link
    · exact .inl hOld
    · exact .inr ⟨hLink, hOld⟩
  obtain ⟨edge, hEdge, hEdgeLink⟩ := List.mem_map.mp hMem
  have hSeen : edge.lastSeenAt = summary.importedAt := by
    rcases List.mem_append.mp hEdge with hOld | hNew
    · obtain ⟨old, _, rfl⟩ := List.mem_map.mp hOld
      rw [touch_link] at hEdgeLink
      rw [touch, if_pos (hEdgeLink ▸ hLink)]
      exact hStep.importedAt_eq
    · obtain ⟨_, _, rfl⟩ := List.mem_map.mp hNew
      exact hStep.importedAt_eq
  have hKept : summary.importedAt - options.freshnessDays.edgeStaleDays * DAY_MS ≤ edge.lastSeenAt := by
    rw [hSeen, DAY_MS]
    omega
  rw [hStep.edges_eq]
  refine List.mem_map.mpr ⟨edge, List.mem_filter.mpr ⟨hEdge, ?_⟩, hEdgeLink⟩
  rw [Bool.or_eq_true, decide_eq_true_eq, decide_eq_true_eq]
  exact .inr hKept

end Steps

section Runs

variable {options : InventoryControllerOptions} {tenantId : Identifier} {es : List InventoryEvent}
  {store : Option InventoryStoreState} {input : ImportInput} {payload : InventoryImportPayload} {summary : ImportSummary}
  {after : InventoryStoreState}

theorem import_since (run : (machine options).FreeRun es store) (hExact : Exact options tenantId es (stateOf store))
    {provenance : RecordProvenance}
    (hEdges : EdgeStep options tenantId (stateOf store).edges (payloadLinks payload) provenance summary after.edges)
    (hStep : importInventory options input store = .ok (summary, after)) :
    ∀ edge ∈ after.edges, KeptSince options edge.link (es ++ [.importInventory input]) edge.firstSeenAt := by
  intro edge hEdge
  have hKnown : edge.link ∈ storedLinks after := List.mem_map_of_mem hEdge
  obtain ⟨old, hOld, rfl⟩ | ⟨link, _, hFresh, rfl⟩ := hEdges.cases hEdge
  · have hFirst : (touch (payloadLinks payload) summary.importedAt old).firstSeenAt = old.firstSeenAt := by
      rw [touch]
      split
      all_goals rfl
    rw [touch_link] at hKnown ⊢
    rw [hFirst]
    exact (hExact.since old hOld).kept (freeRun_import run hStep) hKnown
  · have hFirst : (newEdge tenantId provenance link).firstSeenAt = summary.importedAt := hEdges.importedAt_eq
    rw [hFirst]
    exact .stored run hStep hFresh hKnown

theorem import_exact (run : (machine options).FreeRun es store) (hExact : Exact options tenantId es (stateOf store))
    (hTenant : OfTenant tenantId store input) (hPayload : validateImportPayload input.payload = .ok payload)
    (hLinks : (payloadLinks payload).Nodup) (hStep : importInventory options input store = .ok (summary, after)) :
    Exact options tenantId (es ++ [.importInventory input]) after := by
  obtain ⟨provenance, hEdges⟩ := import_edges hExact hTenant hPayload hStep
  constructor
  · intro edge hEdge
    obtain ⟨old, hOld, rfl⟩ | ⟨link, _, _, rfl⟩ := hEdges.cases hEdge
    · rw [touch]
      split
      all_goals exact hExact.tenant old hOld
    · rfl
  · intro edge hEdge
    obtain ⟨old, hOld, rfl⟩ | ⟨link, _, _, rfl⟩ := hEdges.cases hEdge
    · rw [touch_link, ← hExact.edgeId old hOld, touch]
      split
      all_goals rfl
    · rfl
  · exact hEdges.nodup hExact.nodup hLinks
  · exact import_since run hExact hEdges hStep

theorem write_edges {event : InventoryEvent} (hEvent : ∀ input, event ≠ .importInventory input)
    (h : event.write options store = .ok after) : after.edges = (stateOf store).edges := by
  cases event with
  | importInventory input => exact absurd rfl (hEvent input)
  | analyze input =>
    obtain ⟨result, h⟩ := map_snd_eq_ok h
    obtain ⟨operator, now, _, _, hOp, _⟩ := analyze_ok h
    rw [analyzeOp_ok hOp]
  | proposeRemediation input =>
    obtain ⟨record, h⟩ := map_snd_eq_ok h
    obtain ⟨operator, proposal, now, _, _, _, hOp, _⟩ := proposeRemediation_ok h
    rw [(proposeOp_ok hOp).2]
  | applyRemediation input =>
    obtain ⟨record, h⟩ := map_snd_eq_ok h
    obtain ⟨operator, now, remediationId, _, _, _, hOp, _⟩ := applyRemediation_ok h
    obtain ⟨remediation, changed, _, _, hChanged, _, rfl⟩ := applyOp_ok hOp
    exact (applyRemediationEffect_keeps hChanged).edges
  | rejectRemediation authenticate remediationId =>
    obtain ⟨record, h⟩ := map_snd_eq_ok h
    obtain ⟨operator, remediationId, _, _, hOp, _⟩ := rejectRemediation_ok h
    obtain ⟨remediation, _, _, _, rfl⟩ := rejectOp_ok hOp
    rfl

theorem Exact.of_edges {state state' : InventoryStoreState} {event : InventoryEvent}
    (hExact : Exact options tenantId es state) (hEdges : state'.edges = state.edges) {store' : Option InventoryStoreState}
    (hState : stateOf store' = state') (run : (machine options).FreeRun (es ++ [event]) store') :
    Exact options tenantId (es ++ [event]) state' := by
  have hLinks : storedLinks state' = storedLinks state := congrArg (List.map GraphEdge.link) hEdges
  constructor
  · rw [hEdges]
    exact hExact.tenant
  · rw [hEdges]
    exact hExact.edgeId
  · rw [hLinks]
    exact hExact.nodup
  · intro edge hEdge
    rw [hEdges] at hEdge
    refine (hExact.since edge hEdge).kept run ?_
    rw [hState, hLinks]
    exact List.mem_map_of_mem hEdge

theorem step_exact {event : InventoryEvent} (run : (machine options).FreeRun es store)
    (hExact : Exact options tenantId es (stateOf store)) (hPlain : Plain tenantId store event) :
    Exact options tenantId (es ++ [event]) (stateOf (serve options store event)) := by
  have hNext : (machine options).FreeRun (es ++ [event]) (serve options store event) := run.next trivial rfl
  obtain ⟨after, hWrite, hServe⟩ | ⟨_, hServe⟩ := @serve_cases options store event
  · rw [hServe] at hNext ⊢
    by_cases hImport : ∃ input, event = .importInventory input
    · obtain ⟨input, rfl⟩ := hImport
      obtain ⟨summary, hStep⟩ := map_snd_eq_ok hWrite
      obtain ⟨_, payload, _, _, hPayload, _⟩ := importInventory_ok hStep
      exact import_exact run hExact hPlain.1 hPayload (hPlain.2 payload hPayload) hStep
    · exact hExact.of_edges (write_edges (fun input h => hImport ⟨input, h⟩) hWrite) rfl hNext
  · exact hExact.of_edges (congrArg (fun s => (stateOf s).edges) hServe) rfl hNext

theorem run_exact (run : (machine options).Run (Plain tenantId) es store) : Exact options tenantId es (stateOf store) := by
  induction run with
  | start => exact ⟨by simp [stateOf, machine, emptyInventoryState], by simp [stateOf, machine, emptyInventoryState],
      List.nodup_nil, by simp [stateOf, machine, emptyInventoryState]⟩
  | next before allowed taken ih =>
    cases taken
    exact step_exact (before.mono fun _ _ _ => trivial) ih allowed

theorem countP_link {edges : List GraphEdge} (hTenant : ∀ edge ∈ edges, edge.tenantId = tenantId) (link : Link) :
    edges.countP (fun edge => decide (edge.tenantId = tenantId ∧ edge.link = link)) =
      (edges.map GraphEdge.link).count link := by
  rw [List.count_eq_countP, List.countP_map]
  refine List.countP_congr fun edge hEdge => ?_
  simp [hTenant edge hEdge]

theorem length_split (links known : List Link) : (links.filter fun link => decide (link ∉ known)).length +
    (links.filter fun link => decide (link ∈ known)).length = links.length := by
  induction links with
  | nil => rfl
  | cons link links ih =>
    by_cases hKnown : link ∈ known
    · simp only [List.filter_cons, hKnown, not_true_eq_false, decide_false, decide_true, if_true, List.length_cons]
      simp only [Bool.false_eq_true, if_false]
      omega
    · simp only [List.filter_cons, hKnown, not_false_eq_true, decide_false, decide_true, if_true, List.length_cons]
      simp only [Bool.false_eq_true, if_false]
      omega

/-- **Imports mirror their payload.** In every run of plain steps, an import of the tenant that succeeds mirrors the links
that its payload declares if and only if the payload declares no link twice. -/
theorem import_mirrors_iff (hDays : 0 ≤ options.freshnessDays.edgeStaleDays)
    (run : (machine options).Run (Plain tenantId) es store) (hTenant : OfTenant tenantId store input)
    (hPayload : validateImportPayload input.payload = .ok payload)
    (hStep : importInventory options input store = .ok (summary, after)) :
    Mirrors options tenantId (es ++ [.importInventory input]) store payload summary after ↔
      (payloadLinks payload).Nodup := by
  have hFree : (machine options).FreeRun es store := run.mono fun _ _ _ => trivial
  have hExact := run_exact run
  obtain ⟨provenance, hEdges⟩ := import_edges hExact hTenant hPayload hStep
  constructor
  · intro hMirrors
    -- The counts of different links add up to the number of links declared.
    have hLength := length_split (payloadLinks payload) (storedLinks (stateOf store))
    have hDistinct := length_split (payloadLinks payload).dedup (storedLinks (stateOf store))
    rw [← hMirrors.created, ← hMirrors.refreshed, hEdges.created_eq, hEdges.refreshed_eq] at hDistinct
    have hSame : (payloadLinks payload).dedup = payloadLinks payload :=
      (payloadLinks payload).dedup_sublist.eq_of_length (hDistinct.symm.trans hLength)
    rw [← hSame]
    exact List.nodup_dedup _
  · intro hLinks
    have hAfter := import_exact hFree hExact hTenant hPayload hLinks hStep
    constructor
    · intro link hLink
      rw [countP_link hAfter.tenant]
      exact List.count_eq_one_of_mem hAfter.nodup (hEdges.mem_links hDays hLink)
    · intro edge hEdge hLink
      exact ⟨hEdges.lastSeenAt_eq hEdge hLink, hAfter.since edge hEdge⟩
    · rw [hLinks.dedup]
      exact hEdges.created_eq
    · rw [hLinks.dedup]
      exact hEdges.refreshed_eq

end Runs

/-! ## A reference given twice -/

/-- A payload with an agent that names its identity some times. -/
def botPayload (identityIds : List String) : JsValue :=
  .object [("schemaVersion", integer 1), ("kind", .string "ghostapi.inventory-import"),
    ("source", .object [("sourceId", .string "ci"), ("sourceType", .string "ci"), ("sourceName", .string "ci")]),
    ("agents", .array [.object [("agentId", .string "bot"), ("name", .string "bot"),
      ("identityIds", .array (identityIds.map .string)), ("environmentIds", .array []), ("gatewayManaged", .bool true),
      ("killSwitchEnabled", .bool false)]]),
    ("identities", .array [.object [("identityId", .string "svc"), ("principalId", .string "svc"),
      ("role", .string "service_account"), ("toolIds", .array []), ("environmentIds", .array []),
      ("scopes", .array [])]])]

def botImport (identityIds : List String) : ImportInput :=
  ⟨.ok acmeOperator, botPayload identityIds, some 1, "00000000-0000-4000-8000-000000000001"⟩

theorem bot_isIdentifier : isIdentifier "bot" = true := by decide +kernel

theorem svc_isIdentifier : isIdentifier "svc" = true := by decide +kernel

def botLink : Link := ⟨.agent, ⟨"bot", bot_isIdentifier⟩, .identity, ⟨"svc", svc_isIdentifier⟩, .owns⟩

theorem botImport_checked :
    ((validateImportPayload (botPayload ["svc"])).toOption.any fun payload =>
      decide (payloadLinks payload = [botLink])) = true ∧
    ((authorize (.ok acmeOperator) .importPermission).toOption.any fun operator =>
      decide (operator.tenantId = acme)) = true ∧
    (importInventory defaultOptions (botImport ["svc"]) none).toOption.isSome = true := by
  decide +kernel

theorem import_mirrors_bot : ∃ payload summary after,
    importInventory defaultOptions (botImport ["svc"]) none = .ok (summary, after) ∧ payloadLinks payload = [botLink] ∧
      Mirrors defaultOptions acme [.importInventory (botImport ["svc"])] none payload summary after := by
  obtain ⟨payload, hPayload, hLinks⟩ := (Option.any_eq_true _ _).mp botImport_checked.1
  obtain ⟨operator, hOperator, hTenant⟩ := (Option.any_eq_true _ _).mp botImport_checked.2.1
  obtain ⟨⟨summary, after⟩, hStep⟩ := Option.isSome_iff_exists.mp botImport_checked.2.2
  have hPayload := toOption_eq_some hPayload
  have hStep := toOption_eq_some hStep
  have hLinks := of_decide_eq_true hLinks
  have hOfTenant : OfTenant acme none (botImport ["svc"]) := by
    constructor
    · intro other hOther
      cases (toOption_eq_some hOperator).symm.trans hOther
      exact of_decide_eq_true hTenant
    · intro other hOther
      cases hPayload.symm.trans hOther
      intro link hLink link' hLink' _
      rw [hLinks] at hLink hLink'
      exact (List.mem_singleton.mp hLink).trans (List.mem_singleton.mp hLink').symm
  refine ⟨payload, summary, after, hStep, hLinks, ?_⟩
  have hMirrors := (import_mirrors_iff (by decide) .start hOfTenant hPayload hStep).mpr
    (by rw [hLinks]; exact List.nodup_singleton botLink)
  exact hMirrors

theorem botImport_repeats : ((validateImportPayload (botPayload ["svc", "svc"])).toOption.any fun payload =>
    decide (botLink ∈ payloadLinks payload) &&
      (importInventory defaultOptions (botImport ["svc", "svc"]) none).toOption.any fun outcome =>
        decide (outcome.2.edges.countP (fun edge => decide (edge.tenantId = acme ∧ edge.link = botLink)) = 2)) = true := by
  decide +kernel

/-- An agent that names its identity twice gets two equal edges. -/
theorem import_repeats_edge : ∃ payload summary after,
    validateImportPayload (botPayload ["svc", "svc"]) = .ok payload ∧
      importInventory defaultOptions (botImport ["svc", "svc"]) none = .ok (summary, after) ∧
      ¬Mirrors defaultOptions acme [.importInventory (botImport ["svc", "svc"])] none payload summary after := by
  obtain ⟨payload, hPayload, hTest⟩ := (Option.any_eq_true _ _).mp botImport_repeats
  rw [Bool.and_eq_true, decide_eq_true_eq] at hTest
  obtain ⟨⟨summary, after⟩, hStep, hCount⟩ := (Option.any_eq_true _ _).mp hTest.2
  refine ⟨payload, summary, after, toOption_eq_some hPayload, toOption_eq_some hStep, ?_⟩
  intro hMirrors
  have hOne := hMirrors.one botLink hTest.1
  have hTwo := of_decide_eq_true hCount
  dsimp only at hTwo
  omega

end GhostApi.Inventory
