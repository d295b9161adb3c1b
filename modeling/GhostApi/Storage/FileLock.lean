import GhostApi.Lib.Machine

/-!
# The lock file of withFileLock and reclaimAbandonedLock

Every process runs the retry loop of withFileLock. The processes share only
the directory entry lockPath, the wall clock and the liveness of pids, and
each file-system call is one atomic step. A crashed process keeps its
program counter and takes no further step, so pids are never reused.
-/

namespace GhostApi.Storage.FileLock

open Transition

variable {Pid : Type}

/-- A file created at lockPath. The inode identifies it; the creator is ghost. -/
structure LockFile (Pid : Type) where
  inode : Nat
  creator : Pid
  pid : Option Pid
  mtimeMs : Nat

/-- Where a process stands in withFileLock; startedAt is its first clock reading. -/
inductive Pc (Pid : Type)
  | outside
  | opening (startedAt : Nat)
  | statting (startedAt : Nat)
  | reading (startedAt : Nat) (oldEnough : Bool)
  | judging (startedAt : Nat) (oldEnough : Bool) (pid : Option Pid)
  | removing (startedAt : Nat)
  | reclaimed (startedAt : Nat)
  | writing (inode : Nat)
  | inside (inode : Nat)
  | closing (inode : Nat)
  | releasing (inode : Nat)
  deriving DecidableEq

structure Options where
  lockTimeoutMs : Nat := 10000
  staleLockMs : Nat := 30000

structure State (Pid : Type) where
  lock : Option (LockFile Pid)
  pc : Pid → Pc Pid
  alive : Pid → Bool
  now : Nat
  nextInode : Nat

/-- How a file-system call of the loop can end when it does not succeed. -/
inductive Failure
  | transient
  | other
  deriving DecidableEq

inductive Event (Pid : Type)
  | enter (p : Pid)
  | openExclusive (p : Pid)
  | openFails (p : Pid) (why : Failure)
  | stat (p : Pid)
  | statFails (p : Pid) (why : Failure)
  | readFile (p : Pid)
  | readFails (p : Pid) (why : Failure)
  | judge (p : Pid)
  | reclaim (p : Pid)
  | reclaimFails (p : Pid) (why : Failure)
  | retry (p : Pid)
  | writeMetadata (p : Pid)
  | writeFails (p : Pid)
  | operationEnds (p : Pid)
  | close (p : Pid)
  | closeFails (p : Pid)
  | release (p : Pid)
  | releaseFails (p : Pid)
  | crash (p : Pid)
  | tick (milliseconds : Nat)

/-- A transient error ends reclaimAbandonedLock quietly; any other error is thrown. -/
def afterFailure (startedAt : Nat) : Failure → Pc Pid
  | .transient => .reclaimed startedAt
  | .other => .outside

/-- The condition under which reclaimAbandonedLock calls rm. -/
def abandoned (alive : Pid → Bool) (oldEnough : Bool) : Option Pid → Bool
  | some pid => !alive pid
  | none => oldEnough

/-- handle.writeFile reaches lockPath only while lockPath still names the opened file. -/
def LockFile.written (f : LockFile Pid) (inode : Nat) (p : Pid) (now : Nat) : LockFile Pid :=
  if f.inode = inode then { f with pid := some p, mtimeMs := now } else f

/-- The process that takes the step; none for the clock. -/
def Event.process : Event Pid → Option Pid
  | .enter p | .openExclusive p | .openFails p _ | .stat p | .statFails p _ | .readFile p
  | .readFails p _ | .judge p | .reclaim p | .reclaimFails p _ | .retry p | .writeMetadata p
  | .writeFails p | .operationEnds p | .close p | .closeFails p | .release p | .releaseFails p
  | .crash p => some p
  | .tick _ => none

def Pc.handle : Pc Pid → Option Nat
  | .writing inode | .inside inode | .closing inode | .releasing inode => some inode
  | _ => none

@[simp] theorem afterFailure_handle (startedAt : Nat) (why : Failure) :
    (afterFailure startedAt why : Pc Pid).handle = none := by
  cases why <;> rfl

theorem ite_handle {c : Prop} [Decidable c] {a b : Pc Pid} (ha : a.handle = none) (hb : b.handle = none) :
    (if c then a else b).handle = none := by
  split
  · exact ha
  · exact hb

/-- No two live processes are inside their operation callbacks. -/
def MutualExclusion (s : State Pid) : Prop :=
  ∀ p q i j, s.alive p = true → s.alive q = true → s.pc p = .inside i → s.pc q = .inside j → p = q

/-- Every live holder of an open handle still owns the directory entry. -/
def HoldersOwnLock (s : State Pid) : Prop :=
  ∀ p i, s.alive p = true → (s.pc p).handle = some i →
    ∃ f, s.lock = some f ∧ f.inode = i ∧ f.creator = p

/-- rm in reclaimAbandonedLock meets no file of a live process. -/
def ReclaimsOnlyDead (s : State Pid) : Event Pid → Prop
  | .reclaim _ => ∀ f, s.lock = some f → s.alive f.creator = false
  | _ => True

theorem HoldersOwnLock.mutualExclusion {s : State Pid} (h : HoldersOwnLock s) :
    MutualExclusion s := by
  intro p q i j hp hq hpc hqc
  obtain ⟨f, hf, _, hfp⟩ := h p i hp (by rw [hpc]; rfl)
  obtain ⟨g, hg, _, hgq⟩ := h q j hq (by rw [hqc]; rfl)
  have hfg : f = g := Option.some.inj (hf.symm.trans hg)
  rw [← hfp, ← hgq, hfg]

theorem written_sameFile (lock : Option (LockFile Pid)) (inode : Nat) (p : Pid) (now : Nat) :
    (lock.map (·.written inode p now)).map (fun f => (f.inode, f.creator)) =
      lock.map (fun f => (f.inode, f.creator)) := by
  cases lock with
  | none => rfl
  | some f =>
    simp only [Option.map_some, LockFile.written]
    split <;> rfl

section Steps

variable [DecidableEq Pid]

def State.goto (s : State Pid) (p : Pid) (pc : Pc Pid) : State Pid :=
  { s with pc := Function.update s.pc p pc }

/-- One step of process p, whose program counter is given. -/
def processStep (options : Options) (s : State Pid) : Event Pid → Pid → Pc Pid → Option (State Pid)
  | .enter _, p, .outside => some (s.goto p (.opening s.now))
  | .openExclusive _, p, .opening startedAt =>
    match s.lock with
    | none => some
        { s.goto p (.writing s.nextInode) with
          lock := some ⟨s.nextInode, p, none, s.now⟩
          nextInode := s.nextInode + 1 }
    | some _ => some (s.goto p (.statting startedAt))
  | .openFails _ .transient, p, .opening startedAt => some (s.goto p (.statting startedAt))
  | .openFails _ .other, p, .opening _ => some (s.goto p .outside)
  | .stat _, p, .statting startedAt =>
    match s.lock with
    | none => some (s.goto p (.reclaimed startedAt))
    | some f => some (s.goto p (.reading startedAt (decide (options.staleLockMs ≤ s.now - f.mtimeMs))))
  | .statFails _ why, p, .statting startedAt => some (s.goto p (afterFailure startedAt why))
  | .readFile _, p, .reading startedAt oldEnough =>
    match s.lock with
    | none => some (s.goto p (.reclaimed startedAt))
    | some f => some (s.goto p (.judging startedAt oldEnough f.pid))
  | .readFails _ why, p, .reading startedAt _ => some (s.goto p (afterFailure startedAt why))
  | .judge _, p, .judging startedAt oldEnough pid =>
    some (s.goto p (if abandoned s.alive oldEnough pid then .removing startedAt else .reclaimed startedAt))
  | .reclaim _, p, .removing startedAt => some { s.goto p (.reclaimed startedAt) with lock := none }
  | .reclaimFails _ why, p, .removing startedAt => some (s.goto p (afterFailure startedAt why))
  | .retry _, p, .reclaimed startedAt =>
    some (s.goto p (if options.lockTimeoutMs ≤ s.now - startedAt then .outside else .opening startedAt))
  | .writeMetadata _, p, .writing inode => some
      { s.goto p (.inside inode) with lock := s.lock.map (·.written inode p s.now) }
  | .writeFails _, p, .writing inode => some (s.goto p (.closing inode))
  | .operationEnds _, p, .inside inode => some (s.goto p (.closing inode))
  | .close _, p, .closing inode => some (s.goto p (.releasing inode))
  | .closeFails _, p, .closing _ => some (s.goto p .outside)
  | .release _, p, .releasing _ => some { s.goto p .outside with lock := none }
  | .releaseFails _, p, .releasing _ => some (s.goto p .outside)
  | _, _, _ => none

def step (options : Options) (s : State Pid) (e : Event Pid) : Option (State Pid) :=
  match e, e.process with
  | .tick milliseconds, _ => some { s with now := s.now + milliseconds }
  | .crash p, _ => if s.alive p then some { s with alive := Function.update s.alive p false } else none
  | e, some p => if s.alive p then processStep options s e p (s.pc p) else none
  | _, none => none

def machine (options : Options) : Machine (State Pid) (Event Pid) where
  initial := ⟨none, fun _ => .outside, fun _ => true, 0, 0⟩
  step := step options

/-- What one step can do to lockPath and to the open handles. -/
inductive Effect (s : State Pid) (e : Event Pid) : State Pid → Prop
  | moved (p : Pid) (pc : Pc Pid) (lock : Option (LockFile Pid)) (live : s.alive p = true)
      (handle : pc.handle = none ∨ pc.handle = (s.pc p).handle)
      (sameFile : lock.map (fun f => (f.inode, f.creator)) = s.lock.map (fun f => (f.inode, f.creator))) :
      Effect s e { s.goto p pc with lock := lock }
  | created (p : Pid) (live : s.alive p = true) (free : s.lock = none) :
      Effect s e { s.goto p (.writing s.nextInode) with
        lock := some ⟨s.nextInode, p, none, s.now⟩
        nextInode := s.nextInode + 1 }
  | reclaimed (p : Pid) (pc : Pc Pid) (event : e = .reclaim p) (handle : pc.handle = none) :
      Effect s e { s.goto p pc with lock := none }
  | released (p : Pid) (i : Nat) (live : s.alive p = true) (held : s.pc p = .releasing i) :
      Effect s e { s.goto p .outside with lock := none }
  | crashed (p : Pid) : Effect s e { s with alive := Function.update s.alive p false }
  | ticked (now : Nat) : Effect s e { s with now := now }

theorem Effect.goto {s : State Pid} {e : Event Pid} (p : Pid) (pc : Pc Pid) (live : s.alive p = true)
    (handle : pc.handle = none ∨ pc.handle = (s.pc p).handle) : Effect s e (s.goto p pc) :=
  .moved p pc s.lock live handle rfl

theorem processStep_effect {options : Options} {s s' : State Pid} {e : Event Pid} {p : Pid}
    (hProcess : e.process = some p) (live : s.alive p = true)
    (h : processStep options s e p (s.pc p) = some s') : Effect s e s' := by
  generalize hpc : s.pc p = pc at h
  unfold processStep at h
  split at h
  case h_2 =>
    split at h
    · cases h
      exact .created p live ‹_›
    · cases h
      exact .goto p _ live (.inl rfl)
  case h_5 | h_7 => split at h <;> cases h <;> exact .goto p _ live (.inl rfl)
  case h_10 =>
    cases h
    cases hProcess
    exact .reclaimed p _ rfl rfl
  case h_13 =>
    cases h
    exact .moved p _ _ live (.inr (by rw [hpc]; rfl)) (written_sameFile _ _ _ _)
  case h_18 =>
    cases h
    exact .released p _ live hpc
  case h_6 | h_8 | h_11 =>
    cases h
    exact .goto p _ live (.inl (afterFailure_handle _ _))
  case h_9 | h_12 =>
    cases h
    exact .goto p _ live (.inl (ite_handle rfl rfl))
  case h_20 => cases h
  all_goals
    cases h
    first
      | exact .goto p _ live (.inl rfl)
      | exact .goto p _ live (.inr (by rw [hpc]; rfl))

theorem step_effect {options : Options} {s s' : State Pid} {e : Event Pid}
    (h : step options s e = some s') : Effect s e s' := by
  unfold step at h
  split at h
  · cases h
    exact .ticked _
  · split at h
    · cases h
      exact .crashed _
    · cases h
  · split at h
    · exact processStep_effect ‹_› ‹_› h
    · cases h
  · cases h

theorem HoldersOwnLock.step {s s' : State Pid} {e : Event Pid} (h : HoldersOwnLock s)
    (guard : ReclaimsOnlyDead s e) (effect : Effect s e s') : HoldersOwnLock s' := by
  cases effect with
  | moved p pc lock live handle sameFile =>
    intro q i hq hHandle
    have hOld : (s.pc q).handle = some i := by
      by_cases hqp : q = p
      · subst hqp
        simp only [State.goto, Function.update_self] at hHandle
        rcases handle with hNone | hSame
        · rw [hNone] at hHandle
          cases hHandle
        · rw [← hSame, hHandle]
      · simpa [State.goto, hqp] using hHandle
    obtain ⟨f, hf, hInode, hCreator⟩ := h q i hq hOld
    rw [hf, Option.map_some, Option.map_eq_some_iff] at sameFile
    obtain ⟨g, hg, hfg⟩ := sameFile
    exact ⟨g, hg, (congrArg Prod.fst hfg).trans hInode, (congrArg Prod.snd hfg).trans hCreator⟩
  | created p live free =>
    intro q i hq hHandle
    by_cases hqp : q = p
    · subst hqp
      simp only [State.goto, Function.update_self, Pc.handle, Option.some.injEq] at hHandle
      exact ⟨_, rfl, hHandle, rfl⟩
    · -- A live holder would own the entry that open(lockPath, "wx") found missing.
      obtain ⟨f, hf, _⟩ := h q i hq (by simpa [State.goto, hqp] using hHandle)
      rw [free] at hf
      cases hf
  | reclaimed p pc event handle =>
    subst event
    intro q i hq hHandle
    by_cases hqp : q = p
    · subst hqp
      simp only [State.goto, Function.update_self, handle] at hHandle
      cases hHandle
    · obtain ⟨f, hf, _, rfl⟩ := h q i hq (by simpa [State.goto, hqp] using hHandle)
      have hDead := guard f hf
      rw [show s.alive f.creator = true from hq] at hDead
      cases hDead
  | released p i live held =>
    intro q j hq hHandle
    by_cases hqp : q = p
    · subst hqp
      simp only [State.goto, Function.update_self, Pc.handle] at hHandle
      cases hHandle
    · obtain ⟨f, hf, _, hfp⟩ := h p i live (by rw [held]; rfl)
      obtain ⟨g, hg, _, hgq⟩ := h q j hq (by simpa [State.goto, hqp] using hHandle)
      have hfg : f = g := Option.some.inj (hf.symm.trans hg)
      exact absurd (by rw [← hgq, ← hfp, hfg]) hqp
  | crashed p =>
    intro q i hq hHandle
    by_cases hqp : q = p
    · subst hqp
      simp at hq
    · exact h q i (by simpa [hqp] using hq) hHandle
  | ticked now => exact h

/-- Without a stale rm the lock excludes: in every run whose reclaiming steps
meet no file of a live process, at most one live process is inside. -/
theorem mutualExclusion_of_reclaimsOnlyDead (options : Options) (es : List (Event Pid)) (s : State Pid)
    (run : (machine options).Run ReclaimsOnlyDead es s) : MutualExclusion s := by
  have hOwn : HoldersOwnLock s := by
    apply run.invariant
    · intro p i _ hHandle
      cases hHandle
    · intro s e s' hs guard taken
      exact hs.step guard (step_effect taken)
  exact hOwn.mutualExclusion

/-- Process 0 dies inside, process 1 judges its lock abandoned. -/
def abandonedLock : List (Event Nat) :=
  [.enter 0, .openExclusive 0, .writeMetadata 0, .crash 0,
   .enter 1, .openExclusive 1, .stat 1, .readFile 1, .judge 1]

theorem mutualExclusion_after_reclaim :
    ∃ s, (machine {}).Run ReclaimsOnlyDead
        (abandonedLock ++ [.reclaim 1] ++ [.retry 1, .openExclusive 1, .writeMetadata 1]) s ∧
      s.pc 1 = .inside 1 ∧ MutualExclusion s := by
  have hJudged : (machine {}).Run ReclaimsOnlyDead abandonedLock _ :=
    Machine.Run.start.exec (by simp [ReclaimsOnlyDead]) rfl
  have hDead : ∀ f : LockFile Nat, some ⟨0, 0, some 0, 0⟩ = some f →
      Function.update (fun _ => true) 0 false f.creator = false := by
    intro f hf
    cases hf
    rfl
  have hReclaimed := hJudged.next (show ReclaimsOnlyDead _ (.reclaim 1) from hDead) rfl
  have hInside : (machine {}).Run ReclaimsOnlyDead
      (abandonedLock ++ [.reclaim 1] ++ [.retry 1, .openExclusive 1, .writeMetadata 1]) _ :=
    hReclaimed.exec (by simp [ReclaimsOnlyDead]) rfl
  exact ⟨_, hInside, rfl, mutualExclusion_of_reclaimsOnlyDead {} _ _ hInside⟩

/-- Process 0 dies inside; 1 and 2 both judge its lock abandoned; 1 removes it and
enters under a fresh lock, which 2 then removes before it enters as well. -/
def staleReclaim : List (Event Nat) :=
  [.enter 0, .openExclusive 0, .writeMetadata 0, .crash 0,
   .enter 1, .openExclusive 1, .stat 1, .readFile 1, .judge 1,
   .enter 2, .openExclusive 2, .stat 2, .readFile 2, .judge 2,
   .reclaim 1, .retry 1, .openExclusive 1, .writeMetadata 1,
   .reclaim 2, .retry 2, .openExclusive 2, .writeMetadata 2]

theorem staleReclaim_admits_two :
    ∃ s, (machine {}).FreeRun staleReclaim s ∧ ¬ MutualExclusion s := by
  refine ⟨_, Machine.freeRun_of_exec rfl, ?_⟩
  intro h
  have hEq : (1 : Nat) = 2 := h 1 2 1 2 rfl rfl rfl rfl
  cases hEq

end Steps

end GhostApi.Storage.FileLock
