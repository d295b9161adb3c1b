import GhostApi.Hosted.ExactlyOnce

/-!
# Submissions with fresh keys

A call whose key has no record is answered as long as its report can be
stored. The unique index on the content of reports is never looked at before
the insert, so that a report that was accepted under one key is refused under
the next one.
-/

namespace GhostApi.Hosted

open Js Sql Sql.Protocol Effect Transition

/-- Alone, the call is accepted or answers the report that is stored with its content. -/
def IsAnswered (i : ClientId) (input : ReportInput) (id e : Uuid) (draws : List Chance) (c : Committed Row World) : Prop :=
  ∃ accepted rest after, Yields engine i (submitReport input) (.uuid id :: .uuid e :: draws) (none, ⟨c, fun _ => none⟩)
    (.ok accepted) rest after ∧ (accepted = ⟨id, .accepted⟩ ∨
      HasContent c.rows accepted.reportId input.projectId (runIdOf input.report) (requestHash input.report))

theorem isAnswered_iff {c : Committed Row World} {i : ClientId} {input : ReportInput} {id e : Uuid} {draws : List Chance}
    (hInv : Ingested (fun _ => True) c) (h : Acceptable c input id e) :
    IsAnswered i input id e draws c ↔ ¬Unstorable c.rows input := by
  constructor
  · rintro ⟨accepted, rest, after, hYields, _⟩ hStored
    obtain ⟨d, hFails⟩ := submit_fails h hInv.housed hStored hInv.indexed
    cases hYields.symm.trans hFails
  · intro hStorable
    obtain ⟨tail, _, hYields⟩ := submit_accepts h hInv.housed hStorable hInv.indexed
    exact ⟨_, _, _, hYields, .inl rfl⟩

section Second

variable {key other : String} {tail : List Write} {db : Db} (hTail : ∀ change ∈ tail, IsMark (submission key) change)
  (hRows : db = oneProject.rows.apply (newRows (submission key) 3 4 ((submission key).toRecord 3 oneProject.clock)
    ((submission key).stored oneProject.clock) (acceptedEvent 3 4 oneProject.clock) ++ tail))

include hTail hRows

theorem after_first : After oneProject.rows db (submission key) 3 4 ((submission key).toRecord 3 oneProject.clock)
    ((submission key).stored oneProject.clock) (acceptedEvent 3 4 oneProject.clock) :=
  hRows ▸ after_newRows fun change hMem => (hTail change hMem).aside

theorem keyed_first : present db (.ingestKey 2) = true := by
  rw [hRows, Rows.apply_append, present]
  rcases Rows.apply_cases (oneProject.rows.apply (newRows (submission key) 3 4 ((submission key).toRecord 3 oneProject.clock)
    ((submission key).stored oneProject.clock) (acceptedEvent 3 4 oneProject.clock))) tail (.ingestKey 2) with hSame | ⟨v, hMem, hView⟩
  · rw [hSame]
    rfl
  · obtain ⟨ingestKey, hMark⟩ := hTail _ hMem
    cases hMark
    rw [hView]
    rfl

theorem quota_first : db.row (.organizationQuota 0) = some ({} : OrganizationQuota) := by
  have hView : db.row (.organizationQuota 0) = oneProject.rows.row (.organizationQuota 0) := by
    rw [hRows, Rows.apply_append]
    refine (Rows.apply_of_unwritten fun change hMem hKey => ?_).trans (by simp [newRows])
    obtain ⟨ingestKey, rfl⟩ := hTail change hMem
    cases hKey
  exact hView

theorem usage_first : usage db 0 0 .reports ≤ 1 := by
  have hAfter := after_first hTail hRows
  have hCounts : counts db 0 0 .reports = counts oneProject.rows 0 0 .reports :=
    counts_congr fun p => by rw [belongs, belongs, hAfter.project]
  have hNone : oneProject.rows.count (counts oneProject.rows 0 0 .reports) = 0 := by decide +kernel
  have hOne : db.count (counts oneProject.rows 0 0 .reports) ≤ oneProject.rows.count (counts oneProject.rows 0 0 .reports) + 1 := by
    refine Rows.count_le_succ (Key.report 3) fun k hPasses => ?_
    obtain ⟨v, hRow, hCount⟩ := hPasses
    cases k with
    | report r =>
      by_cases hSame : r = 3
      · exact .inl (by rw [hSame])
      · exact .inr ⟨v, (hAfter.others hSame).symm.trans hRow, hCount⟩
    | _ => cases hCount
  rw [usage, hCounts]
  rwa [hNone] at hOne

theorem acceptable_second {c : Committed Row World} (hDb : c.rows = db) (hClock : c.clock = 0)
    (hOther : validateIdempotencyKey other = .ok ()) (hNe : other ≠ key) : Acceptable c (submission other) 5 6 := by
  have hAfter := after_first hTail hRows
  refine ⟨⟨hOther, validateReport_emptyReport⟩, ?_, ?_, ⟨⟨0, "shop", "Shop"⟩, {}, ?_, ?_, ?_⟩, ?_, ?_⟩
  · rw [hDb]
    exact (hAfter.ledgers fun h => hNe h.2).trans (by simp [oneProject])
  · rw [hDb]
    exact keyed_first hTail hRows
  · rw [hDb]
    exact (hAfter.project 1).trans rfl
  · rw [hDb]
    exact quota_first hTail hRows
  · rw [hDb, hClock]
    exact Nat.lt_of_le_of_lt (usage_first hTail hRows) (by decide)
  · rw [hDb]
    exact (hAfter.others (by decide)).trans rfl
  · rw [hDb]
    exact (hAfter.queue (by decide)).trans rfl

end Second

end GhostApi.Hosted
