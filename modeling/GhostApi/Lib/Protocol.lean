import GhostApi.Lib.Program

/-!
# Callers that run at the same time

A pool of programs over one world: at each step one of them is answered, a
new one is started or one is stopped for good. A protocol gives each program
a phase that only its own calls change, so that what holds across any
interleaving is an invariant of the world and of the phases.
-/

namespace Effect

/-- The calls that a phase allows, and the phase after each reply. -/
structure Protocol (φ Op : Type) (Ans : Op → Type) (ε : Type) where
  allowed : φ → Op → Prop
  next : φ → (op : Op) → Except ε (Ans op) → φ

namespace Program

variable {φ σ Op : Type} {Ans : Op → Type} {ε χ α β : Type}

/-- Every call of the program is allowed in its phase, whatever the replies; the end is as stated. -/
def Follows (protocol : Protocol φ Op Ans ε) (Q : Except ε α → φ → Prop) : Program Op Ans ε α → φ → Prop
  | done result, phase => Q result phase
  | call op next, phase => protocol.allowed phase op ∧
    ∀ reply, Follows protocol Q (next reply) (protocol.next phase op reply)

variable {protocol : Protocol φ Op Ans ε} {Q R : Except ε α → φ → Prop} {phase : φ}

theorem Follows.mono {p : Program Op Ans ε α} (h : p.Follows protocol Q phase)
    (hQ : ∀ result phase, Q result phase → R result phase) : p.Follows protocol R phase := by
  induction p generalizing phase with
  | done result => exact hQ result phase h
  | call op next ih => exact ⟨h.1, fun reply => ih reply (h.2 reply)⟩

theorem follows_perform {op : Op} {Q : Except ε (Ans op) → φ → Prop} (hAllowed : protocol.allowed phase op)
    (h : ∀ reply, Q reply (protocol.next phase op reply)) :
    (perform op : Program Op Ans ε (Ans op)).Follows protocol Q phase := ⟨hAllowed, h⟩

theorem Follows.bind {p : Program Op Ans ε α} {f : α → Program Op Ans ε β} {Q : Except ε β → φ → Prop}
    (h : p.Follows protocol R phase) (hError : ∀ e phase, R (.error e) phase → Q (.error e) phase)
    (hNext : ∀ a phase, R (.ok a) phase → (f a).Follows protocol Q phase) :
    (p >>= f).Follows protocol Q phase := by
  induction p generalizing phase with
  | done result =>
    cases result with
    | ok a => exact hNext a phase h
    | error e => exact hError e phase h
  | call op next ih => exact ⟨h.1, fun reply => ih reply (h.2 reply)⟩

theorem Follows.tryCatch {p : Program Op Ans ε α} {handler : ε → Program Op Ans ε α}
    (h : p.Follows protocol R phase) (hOk : ∀ a phase, R (.ok a) phase → Q (.ok a) phase)
    (hHandler : ∀ e phase, R (.error e) phase → (handler e).Follows protocol Q phase) :
    (tryCatch p handler).Follows protocol Q phase := by
  induction p generalizing phase with
  | done result =>
    cases result with
    | ok a => exact hOk a phase h
    | error e => exact hHandler e phase h
  | call op next ih => exact ⟨h.1, fun reply => ih reply (h.2 reply)⟩

theorem follows_lift_bind {x : Except ε α} {f : α → Program Op Ans ε β} {Q : Except ε β → φ → Prop}
    (hError : ∀ e, Q (.error e) phase) (hOk : ∀ a, x = .ok a → (f a).Follows protocol Q phase) :
    ((liftM x : Program Op Ans ε α) >>= f).Follows protocol Q phase := by
  cases hResult : x with
  | ok a => exact hOk a hResult
  | error e => exact hError e

theorem Follows.finishWith {p : Program Op Ans ε α} {last : Program Op Ans ε Unit} (h : p.Follows protocol R phase)
    (hLast : ∀ result phase, R result phase →
      last.Follows protocol (fun outcome phase => match outcome with
        | .ok _ => Q result phase
        | .error e => Q (.error e) phase) phase) : (p.finishWith last).Follows protocol Q phase := by
  induction p generalizing phase with
  | done result =>
    refine Follows.bind (hLast result phase h) ?_ ?_
    · exact fun e phase hError => hError
    · exact fun _ phase hOk => hOk
  | call op next ih => exact ⟨h.1, fun reply => ih reply (h.2 reply)⟩

end Program

/-- The programs of a pool; one that was stopped is over. -/
structure Pool (σ Op : Type) (Ans : Op → Type) (ε : Type) where
  world : σ
  threads : List (Program Op Ans ε Unit) := []

inductive PoolEvent (κ χ : Type)
  | spawn (call : κ)
  | advance (thread : Nat) (choice : χ)
  | kill (thread : Nat)

namespace Pool

variable {φ σ Op : Type} {Ans : Op → Type} {ε χ κ : Type}

def step (env : Environment σ Op Ans ε χ) (program : κ → Program Op Ans ε Unit) (s : Pool σ Op Ans ε) :
    PoolEvent κ χ → Option (Pool σ Op Ans ε)
  | .spawn call => some { s with threads := s.threads ++ [program call] }
  | .advance thread choice => match s.threads[thread]? with
    | some (.call op next) =>
      (env.respond op choice s.world).map fun (reply, world) => ⟨world, s.threads.set thread (next reply)⟩
    | _ => none
  | .kill thread => some { s with threads := s.threads.set thread (.done (.ok ())) }

def machine (env : Environment σ Op Ans ε χ) (program : κ → Program Op Ans ε Unit) (world : σ) :
    Transition.Machine (Pool σ Op Ans ε) (PoolEvent κ χ) where
  initial := { world }
  step := step env program

variable {env : Environment σ Op Ans ε χ} {program : κ → Program Op Ans ε Unit} {protocol : Protocol φ Op Ans ε}
  {start : φ}

structure Phased (protocol : Protocol φ Op Ans ε) (threads : List (Program Op Ans ε Unit)) (phases : List φ) :
    Prop where
  length : phases.length = threads.length
  follows : ∀ (i : Nat) thread phase, threads[i]? = some thread → phases[i]? = some phase →
    thread.Follows protocol (fun _ _ => True) phase

variable {threads : List (Program Op Ans ε Unit)} {phases : List φ} {thread : Program Op Ans ε Unit} {phase : φ}

theorem Phased.concat (h : Phased protocol threads phases) (hNew : thread.Follows protocol (fun _ _ => True) phase) :
    Phased protocol (threads ++ [thread]) (phases ++ [phase]) where
  length := by simp [h.length]
  follows i other otherPhase hThread hPhase := by
    by_cases hOld : i < threads.length
    · rw [List.getElem?_append_left hOld] at hThread
      rw [List.getElem?_append_left (h.length ▸ hOld)] at hPhase
      exact h.follows i other otherPhase hThread hPhase
    · rw [List.getElem?_append_right (by omega)] at hThread
      rw [List.getElem?_append_right (by have := h.length; omega), h.length] at hPhase
      have hZero : i - threads.length = 0 := by
        obtain ⟨hBound, _⟩ := List.getElem?_eq_some_iff.mp hThread
        simpa using hBound
      rw [hZero] at hThread hPhase
      cases hThread
      cases hPhase
      exact hNew

theorem Phased.set {i : Nat} (h : Phased protocol threads phases)
    (hNew : thread.Follows protocol (fun _ _ => True) phase) :
    Phased protocol (threads.set i thread) (phases.set i phase) where
  length := by simp [h.length]
  follows j other otherPhase hThread hPhase := by
    rw [List.getElem?_set] at hThread hPhase
    split at hThread
    · rename_i hSame
      rw [if_pos hSame, h.length] at hPhase
      split at hThread
      · rename_i hBound
        rw [if_pos hBound] at hPhase
        cases hThread
        cases hPhase
        exact hNew
      · cases hThread
    · rename_i hOther
      rw [if_neg hOther] at hPhase
      exact h.follows j other otherPhase hThread hPhase

theorem run_phases {J : σ → List φ → Prop} {world : σ} (hInitial : J world [])
    (hProgram : ∀ call, (program call).Follows protocol (fun _ _ => True) start)
    (hSpawn : ∀ w phases, J w phases → J w (phases ++ [start]))
    (hAdvance : ∀ w phases (i : Nat) phase op choice reply w', J w phases → phases[i]? = some phase →
      protocol.allowed phase op → env.respond op choice w = some (reply, w') →
      J w' (phases.set i (protocol.next phase op reply)))
    {events : List (PoolEvent κ χ)} {s : Pool σ Op Ans ε} (run : (machine env program world).FreeRun events s) :
    ∃ phases, Phased protocol s.threads phases ∧ J s.world phases := by
  refine run.invariant (I := fun s => ∃ phases, Phased protocol s.threads phases ∧ J s.world phases)
    ⟨[], ⟨rfl, by rintro i thread phase ⟨⟩⟩, hInitial⟩ ?_
  rintro ⟨w, threads⟩ event s' ⟨phases, hPhased, hJ⟩ _ hStep
  cases event with
  | spawn call =>
    cases hStep
    exact ⟨phases ++ [start], hPhased.concat (hProgram call), hSpawn w phases hJ⟩
  | advance i choice =>
    simp only [machine, step] at hStep
    split at hStep
    · rename_i op next hThread
      obtain ⟨⟨reply, w'⟩, hReply, rfl⟩ := Option.map_eq_some_iff.mp hStep
      obtain ⟨hBound, _⟩ := List.getElem?_eq_some_iff.mp hThread
      obtain ⟨phase, hPhase⟩ : ∃ phase, phases[i]? = some phase :=
        ⟨_, List.getElem?_eq_getElem (hPhased.length ▸ hBound)⟩
      have hFollows := hPhased.follows i _ phase hThread hPhase
      exact ⟨phases.set i (protocol.next phase op reply), hPhased.set (hFollows.2 reply),
        hAdvance w phases i phase op choice reply w' hJ hPhase hFollows.1 hReply⟩
    · cases hStep
  | kill i =>
    cases hStep
    cases hPhase : phases[i]? with
    | none =>
      have hOut : threads.set i (.done (.ok ())) = threads := by
        rw [List.set_eq_of_length_le]
        rw [← hPhased.length]
        exact List.getElem?_eq_none_iff.mp hPhase
      rw [hOut]
      exact ⟨phases, hPhased, hJ⟩
    | some phase =>
      have hSame : phases.set i phase = phases := by
        obtain ⟨hBound, hEq⟩ := List.getElem?_eq_some_iff.mp hPhase
        rw [← hEq, List.set_getElem_self]
      have hKilled : Phased protocol (threads.set i (.done (.ok ()))) (phases.set i phase) := hPhased.set trivial
      rw [hSame] at hKilled
      exact ⟨phases, hKilled, hJ⟩

theorem run_world {rel : σ → σ → Prop} (hRefl : ∀ w, rel w w) (hTrans : ∀ a b c, rel a b → rel b c → rel a c)
    (hRespond : ∀ op choice w reply w', env.respond op choice w = some (reply, w') → rel w w')
    {world : σ} {first s : Pool σ Op Ans ε} {events : List (PoolEvent κ χ)}
    (run : ((machine env program world).resume first).FreeRun events s) : rel first.world s.world := by
  refine Transition.Machine.Run.invariant (M := (machine env program world).resume first)
    (I := fun s => rel first.world s.world) (hRefl _) ?_ run
  rintro ⟨w, threads⟩ event s' hRel _ hStep
  cases event with
  | spawn call =>
    cases hStep
    exact hRel
  | advance i choice =>
    simp only [Transition.Machine.resume, machine, step] at hStep
    split at hStep
    · rename_i op next hThread
      obtain ⟨⟨reply, w'⟩, hReply, rfl⟩ := Option.map_eq_some_iff.mp hStep
      exact hTrans _ _ _ hRel (hRespond op choice w reply w' hReply)
    · cases hStep
  | kill i =>
    cases hStep
    exact hRel

end Pool

end Effect
