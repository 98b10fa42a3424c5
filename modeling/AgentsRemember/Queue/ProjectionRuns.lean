import AgentsRemember.Queue.ProjectionState
import AgentsRemember.Foundation.Runs
import Mathlib.Logic.Function.Basic

/-!
# Queue — ProjectionRuns

Any number of processes over one projection: its source changes, its state file
may be damaged, and builds, invalidations and reads interleave. Each event is
one access to what the processes share; the exclusive lock is held from the
event that takes it to the one that clears, or to a crash. What was ever
persisted is kept beside the state, with the number of recoveries before it.
-/

namespace AgentsRemember.Queue

/-- How far a process is in what it does. -/
inductive Phase where
  | idle
  /-- A build is captured, and then written off-side. -/
  | built (build : CloseoutProjectionBuild)
  | waiting (build : CloseoutProjectionBuild)
  /-- The lock is held, and the state is read under it. -/
  | comparing (build : CloseoutProjectionBuild) (current : CloseoutQueueState)
  | writing (state : CloseoutQueueState) (recovers : Bool)
  | clearing
  /-- A source is captured for a read. -/
  | reading (source : ProjectionSourceIdentity)
deriving DecidableEq

/-- A state that was written, with the recoveries before it. -/
structure Persisted where
  epoch : Nat
  state : CloseoutQueueState
deriving DecidableEq

/-- What the processes share, and where each of them stands. -/
structure World where
  source : ProjectionSourceIdentity
  file : StateFile
  buildFile : Option CloseoutProjectionBuild := none
  lock : Option Nat := none
  phase : Nat → Phase := fun _ => .idle
  /-- Newest first. -/
  persisted : List Persisted := []
  epoch : Nat := 0

/-- One access to what the processes share. -/
inductive Event where
  | sourceChanged (source : ProjectionSourceIdentity)
  | corrupted (file : StateFile)
  | capture (p : Nat) (timestamp : String)
  | writeBuild (p : Nat)
  | lockPublish (p : Nat)
  | recapture (p : Nat)
  | lockInvalidate (p : Nat) (timestamp : String)
  | write (p : Nat)
  | clear (p : Nat)
  | captureRead (p : Nat)
  | read (p : Nat)
  | crash (p : Nat)

/-- Only the phase of one process changes. -/
def World.move (w : World) (p : Nat) (phase : Phase) : World :=
  { w with phase := Function.update w.phase p phase }

/-- The state is on disk; recovering a malformed file starts an epoch. -/
def World.persist (w : World) (state : CloseoutQueueState) (recovers : Bool) : World :=
  let epoch := if recovers then w.epoch + 1 else w.epoch
  { w with file := .state state, epoch := epoch, persisted := ⟨epoch, state⟩ :: w.persisted }

section step
variable (store : CloseoutQueueStore)

/-- One event; none where the process is not at that point. -/
def step (w : World) : Event → Option World
  | .sourceChanged source => some { w with source := source }
  | .corrupted file =>
    -- what still reads as a state is no damage
    match store.readState file "" with
    | .ok _ => none
    | .error _ => some { w with file := file }
  | .capture p timestamp =>
    match w.phase p, w.source.build store.sprintRef timestamp with
    | .idle, some build => some (w.move p (.built build))
    | _, _ => none
  | .writeBuild p =>
    match w.phase p with
    | .built build =>
      if build.sprintTaskDocumentRef = store.sprintRef then
        some { w.move p (.waiting build) with buildFile := some build }
      else none
    | _ => none
  | .lockPublish p =>
    match w.phase p, w.lock with
    | .waiting build, none =>
      match store.readState w.file build.builtAt with
      | .ok current => some { w.move p (.comparing build current) with lock := some p }
      | .error _ => some (w.move p .idle)
    | _, _ => none
  | .recapture p =>
    match w.phase p with
    | .comparing build current =>
      match store.publication build current w.source with
      | some (state, result) =>
        some (w.move p (if result.outcome = .published then .writing state false else .clearing))
      | none => some { w.move p .idle with lock := none }
    | _ => none
  | .lockInvalidate p timestamp =>
    match w.phase p, w.lock with
    | .idle, none =>
      -- a projection that is empty already is not written again
      let invalid := store.invalidation w.file timestamp
      some { w.move p (if invalid.outcome = .alreadyEmpty then .clearing
          else .writing invalid.state (invalid.outcome = .recoveredMalformed)) with
        lock := some p }
    | _, _ => none
  | .write p =>
    match w.phase p with
    | .writing state recovers => some ((w.persist state recovers).move p .clearing)
    | _ => none
  | .clear p =>
    match w.phase p with
    | .clearing => some { w.move p .idle with buildFile := none, lock := none }
    | _ => none
  | .captureRead p =>
    match w.phase p with
    | .idle => some (w.move p (.reading w.source))
    | _ => none
  | .read p =>
    match w.phase p with
    | .reading _ => some (w.move p .idle)
    | _ => none
  | .crash p =>
    -- the lock goes with its process, the build file stays
    some { w.move p .idle with lock := if w.lock = some p then none else w.lock }

/-- A state file of this sprint, as it was before any of the processes began. -/
def World.start (file : StateFile) (source : ProjectionSourceIdentity) : World where
  source := source
  file := file
  persisted :=
    match file with
    | .state state => [⟨0, state⟩]
    | _ => []

/-! ## The invariant -/

/-- No persisted state of the epoch is past the revision. -/
def Latest (persisted : List Persisted) (epoch revision : Nat) : Prop :=
  ∀ e ∈ persisted, e.epoch = epoch → e.state.revision ≤ revision

/-- The phase is under the exclusive lock. -/
def Phase.locked : Phase → Bool
  | .comparing .. => true
  | .writing .. => true
  | .clearing => true
  | _ => false

/-- What a phase knows of the revisions so far. -/
def Phase.Safe (persisted : List Persisted) (epoch : Nat) : Phase → Prop
  | .comparing _ current => Latest persisted epoch current.revision
  | .writing state false => ∀ e ∈ persisted, e.epoch = epoch → e.state.revision < state.revision
  | _ => True

/-- The file on disk is the latest state of its epoch. -/
def StateFile.Safe (file : StateFile) (persisted : List Persisted) (epoch : Nat) : Prop :=
  match file with
  | .missing => persisted = []
  | .state current =>
    current.sprintTaskDocumentRef = store.sprintRef → Latest persisted epoch current.revision
  | _ => True

/-- The invariant of every run. -/
structure Fenced (w : World) : Prop where
  alone : ∀ p, (w.phase p).locked = true → w.lock = some p
  epochs : ∀ e ∈ w.persisted, e.epoch ≤ w.epoch
  rising : w.persisted.Pairwise fun newer older =>
    newer.epoch = older.epoch → older.state.revision < newer.state.revision
  file : w.file.Safe store w.persisted w.epoch
  phases : ∀ p, (w.phase p).Safe w.persisted w.epoch

variable {store}

theorem Phase.safe_of_unlocked {phase : Phase} (h : phase.locked = false)
    (persisted : List Persisted) (epoch : Nat) : phase.Safe persisted epoch := by
  cases phase with
  | comparing build current => cases h
  | writing state recovers => cases h
  | _ => trivial

theorem readState_latest {w : World} (h : Fenced store w) {timestamp : String}
    {current : CloseoutQueueState} (hread : store.readState w.file timestamp = .ok current) :
    Latest w.persisted w.epoch current.revision := by
  have hsafe := h.file
  obtain ⟨hfile, hsprint⟩ | ⟨hfile, -⟩ := store.readState_ok hread
  · rw [hfile] at hsafe
    exact hsafe hsprint
  · rw [hfile] at hsafe
    intro e he
    rw [show w.persisted = [] from hsafe] at he
    cases he

theorem fenced_start (file : StateFile) (source : ProjectionSourceIdentity) :
    Fenced store (World.start file source) where
  alone := nofun
  epochs := by
    intro e he
    cases file with
    | state state => rw [List.mem_singleton.mp he]; exact Nat.le_refl 0
    | _ => cases he
  rising := by
    cases file with
    | state state => exact List.pairwise_singleton _ _
    | _ => exact .nil
  file := by
    cases file with
    | state state =>
      intro _ e he _
      obtain rfl := List.mem_singleton.mp he
      exact Nat.le_refl _
    | missing => rfl
    | _ => trivial
  phases := fun _ => trivial

/-- A process that holds the lock, or takes it while it is free, moves on. -/
theorem Fenced.move_locked {w : World} (h : Fenced store w) (p : Nat) (phase : Phase)
    (hfree : w.lock = none ∨ w.lock = some p) (hsafe : phase.Safe w.persisted w.epoch) :
    Fenced store { w.move p phase with lock := some p } where
  alone := by
    intro q hq
    by_cases hqp : q = p
    · rw [hqp]
    · -- another process in a locked phase would hold the lock
      simp only [World.move, Function.update_of_ne hqp] at hq
      have hlock := h.alone q hq
      obtain hnone | hp := hfree
      · rw [hnone] at hlock; cases hlock
      · rw [hp] at hlock; exact absurd (Option.some.inj hlock).symm hqp
  epochs := h.epochs
  rising := h.rising
  file := h.file
  phases := by
    intro q
    by_cases hqp : q = p
    · subst hqp; simpa [World.move] using hsafe
    · simpa [World.move, hqp] using h.phases q

/-- A process that does not need the lock any more, or never held it, moves on. -/
theorem Fenced.move_unlocked {w : World} (h : Fenced store w) (p : Nat) (phase : Phase)
    (lock : Option Nat) (hlock : lock = w.lock ∨ (lock = none ∧ w.lock = some p))
    (hphase : phase.locked = false) : Fenced store { w.move p phase with lock := lock } where
  alone := by
    intro q hq
    by_cases hqp : q = p
    · simp [World.move, hqp, hphase] at hq
    · simp only [World.move, Function.update_of_ne hqp] at hq
      have hheld := h.alone q hq
      obtain rfl | ⟨-, hp⟩ := hlock
      · exact hheld
      · rw [hp] at hheld; exact absurd (Option.some.inj hheld).symm hqp
  epochs := h.epochs
  rising := h.rising
  file := h.file
  phases := by
    intro q
    by_cases hqp : q = p
    · subst hqp
      simpa [World.move] using Phase.safe_of_unlocked hphase w.persisted w.epoch
    · simpa [World.move, hqp] using h.phases q

/-- A write is past every revision of its epoch. -/
theorem Fenced.write {w : World} (h : Fenced store w) {p : Nat} {state : CloseoutQueueState}
    {recovers : Bool} (hp : w.phase p = .writing state recovers) :
    Fenced store ((w.persist state recovers).move p .clearing) := by
  have hnewer : ∀ e ∈ w.persisted, (w.persist state recovers).epoch = e.epoch →
      e.state.revision < state.revision := by
    intro e he hepoch
    have hle := h.epochs e he
    cases recovers with
    | true => simp only [World.persist, if_true] at hepoch; omega
    | false =>
      have hsafe := h.phases p
      rw [hp] at hsafe
      exact hsafe e he hepoch.symm
  refine ⟨?_, ?_, List.pairwise_cons.mpr ⟨hnewer, h.rising⟩, ?_, ?_⟩
  · intro q hq
    by_cases hqp : q = p
    · rw [hqp]; exact h.alone p (by rw [hp]; rfl)
    · simp only [World.move, Function.update_of_ne hqp] at hq
      exact h.alone q hq
  · have hgrow : w.epoch ≤ (w.persist state recovers).epoch := by
      unfold World.persist
      dsimp only
      split <;> omega
    intro e he
    obtain rfl | he := List.mem_cons.mp he
    · exact Nat.le_refl _
    · exact Nat.le_trans (h.epochs e he) hgrow
  · intro _ e he hepoch
    obtain rfl | he := List.mem_cons.mp he
    · exact Nat.le_refl _
    · exact Nat.le_of_lt (hnewer e he hepoch.symm)
  · intro q
    by_cases hqp : q = p
    · subst hqp; simp [World.move, Phase.Safe]
    · -- nobody else is inside the lock
      have hunlocked : (w.phase q).locked = false := by
        cases hq : (w.phase q).locked with
        | false => rfl
        | true =>
          have hheld := (h.alone q hq).symm.trans (h.alone p (by rw [hp]; rfl))
          exact absurd (Option.some.inj hheld) hqp
      simpa [World.move, World.persist, hqp] using Phase.safe_of_unlocked hunlocked _ _

theorem invalidation_safe {w : World} (h : Fenced store w) {timestamp : String}
    (hwrites : (store.invalidation w.file timestamp).outcome ≠ .alreadyEmpty) :
    (Phase.writing (store.invalidation w.file timestamp).state
      ((store.invalidation w.file timestamp).outcome = .recoveredMalformed)).Safe
        w.persisted w.epoch := by
  obtain ⟨-, hout⟩ | ⟨hfile, hout⟩ | ⟨current, -, -, hout⟩ | ⟨current, hread, hrev, hout⟩ :=
    store.invalidation_cases w.file timestamp
  · simp [hout, Phase.Safe]
  · -- nothing was ever persisted where the file is missing
    have hnone := h.file
    rw [hfile] at hnone
    rw [hout]
    intro e he
    rw [show w.persisted = [] from hnone] at he
    cases he
  · exact absurd hout hwrites
  · rw [hout]
    intro e he hepoch
    have hle := readState_latest h hread e he hepoch
    omega

theorem StateFile.safe_of_refused {file : StateFile} {timestamp : String} {e : StoreError}
    (h : store.readState file timestamp = .error e) (persisted : List Persisted) (epoch : Nat) :
    file.Safe store persisted epoch := by
  cases file with
  | missing => cases h
  | state current =>
    intro hsprint
    simp only [CloseoutQueueStore.readState, hsprint, if_true] at h
    cases h
  | _ => trivial

/-- One access keeps the invariant. -/
theorem fenced_step {w w' : World} {event : Event} (h : Fenced store w)
    (hs : step store w event = some w') : Fenced store w' := by
  cases event with
  | sourceChanged source =>
    cases hs
    exact ⟨h.alone, h.epochs, h.rising, h.file, h.phases⟩
  | corrupted file =>
    simp only [step] at hs
    -- a damaged file does not read as a state, and so fences nothing
    split at hs
    · cases hs
    next hread =>
      cases hs
      exact ⟨h.alone, h.epochs, h.rising, StateFile.safe_of_refused hread _ _, h.phases⟩
  | capture p timestamp =>
    simp only [step] at hs
    split at hs
    · cases hs; exact h.move_unlocked _ _ _ (.inl rfl) rfl
    · cases hs
  | writeBuild p =>
    simp only [step] at hs
    split at hs
    next build hphase =>
      split at hs
      · cases hs
        have hmove := h.move_unlocked p (.waiting build) w.lock (.inl rfl) rfl
        exact ⟨hmove.alone, hmove.epochs, hmove.rising, hmove.file, hmove.phases⟩
      · cases hs
    · cases hs
  | lockPublish p =>
    simp only [step] at hs
    split at hs
    next hlock =>
      split at hs
      next hread => cases hs; exact h.move_locked _ _ (.inl hlock) (readState_latest h hread)
      next => cases hs; exact h.move_unlocked _ _ _ (.inl rfl) rfl
    · cases hs
  | recapture p =>
    simp only [step] at hs
    split at hs
    next hphase =>
      have hheld := h.alone p (by rw [hphase]; rfl)
      split at hs
      next state result hpub =>
        cases hs
        split
        next hout =>
          have hsafe := h.phases p
          rw [hphase] at hsafe
          -- the published revision is one more than the one read under the lock
          have hnext := (store.publication_published hpub hout).1
          have hmove := h.move_locked p (.writing state false) (.inr hheld) <| by
            intro e he hepoch
            have hle := hsafe e he hepoch
            omega
          rw [← hheld] at hmove
          exact hmove
        next =>
          have hmove := h.move_locked p .clearing (.inr hheld) trivial
          rw [← hheld] at hmove
          exact hmove
      next => cases hs; exact h.move_unlocked _ _ _ (.inr ⟨rfl, hheld⟩) rfl
    · cases hs
  | lockInvalidate p timestamp =>
    simp only [step] at hs
    split at hs
    next hlock =>
      cases hs
      refine h.move_locked _ _ (.inl hlock) ?_
      split
      · trivial
      next hwrites => exact invalidation_safe h hwrites
    · cases hs
  | write p =>
    simp only [step] at hs
    split at hs
    next hphase => cases hs; exact h.write hphase
    · cases hs
  | clear p =>
    simp only [step] at hs
    split at hs
    next hphase =>
      cases hs
      have hmove := h.move_unlocked p .idle none
        (.inr ⟨rfl, h.alone p (by rw [hphase]; rfl)⟩) rfl
      exact ⟨hmove.alone, hmove.epochs, hmove.rising, hmove.file, hmove.phases⟩
    · cases hs
  | captureRead p =>
    simp only [step] at hs
    split at hs
    · cases hs; exact h.move_unlocked _ _ _ (.inl rfl) rfl
    · cases hs
  | read p =>
    simp only [step] at hs
    split at hs
    · cases hs; exact h.move_unlocked _ _ _ (.inl rfl) rfl
    · cases hs
  | crash p =>
    cases hs
    refine h.move_unlocked _ _ _ ?_ rfl
    split
    next hheld => exact .inr ⟨rfl, hheld⟩
    · exact .inl rfl

theorem fenced_run {file : StateFile} {source : ProjectionSourceIdentity} {ls : List Event}
    {w : World} (hrun : Runs.run (step store) (World.start file source) ls = some w) :
    Fenced store w :=
  Runs.Reachable.invariant (fun _ _ _ h hs => fenced_step h hs) (fenced_start file source)
    ⟨ls, hrun⟩

end step

end AgentsRemember.Queue
