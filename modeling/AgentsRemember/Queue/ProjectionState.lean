import AgentsRemember.Queue.ExecutionGraph
import Mathlib.Tactic.Push

/-!
# Queue — ProjectionState

The disposable closeout projection of a sprint: the state on disk, the
candidate build beside it, and what the store decides when it reads,
invalidates or publishes. The patterns and lengths of the text fields are left
out; that a record's condition is exact is a field of it.
-/

namespace AgentsRemember.Queue

/-- `TaskDocumentRef.key`. -/
def TaskDocumentRef.key (ref : TaskDocumentRef) : String := ref.repository ++ "/" ++ ref.path

/-- The source a problem lies in. -/
inductive ProblemKind where
  | task | door | series | projection
deriving DecidableEq

/-- What is wrong with it. -/
inductive ProblemState where
  | missing | unreadable | invalid
deriving DecidableEq

/-- One problem of a source, with what repairs it. -/
structure ProjectionSourceProblem where
  kind : ProblemKind
  address : String
  state : ProblemState
  errorType : String
  repairAction : String
deriving DecidableEq

/-- The state of the projection itself. -/
inductive ProjectionServiceCondition where
  | validBuilt | invalidEmpty
deriving DecidableEq

/-- A sprint in work, or a finished one. -/
inductive ProjectionSourceClassification where
  | active | terminal
deriving DecidableEq

/-- Where a member stands. -/
inductive ProjectionMemberClassification where
  | ready | waiting | blocked
deriving DecidableEq

/-- The author's priority. -/
inductive PriorityGrade where
  | critical | high | normal | low
deriving DecidableEq

/-- One member of the projection. -/
structure CloseoutProjectionMember where
  generationId : String
  taskDocumentRef : TaskDocumentRef
  owningMaster : TaskDocumentRef
  contractPath : String
  candidateTree : String
  sourceDoorFingerprint : String
  classification : ProjectionMemberClassification
  reasons : List String := []
  priority : PriorityGrade
  order : Nat
deriving DecidableEq

/-- The cap on the problems of a state. -/
def maxCloseoutSourceProblems : Nat := 256

/-- What `_condition_is_exact` asks of a state. -/
structure ConditionIsExact (condition : ProjectionServiceCondition)
    (classification : Option ProjectionSourceClassification) (fingerprint : Option String)
    (members : List CloseoutProjectionMember) (problems : List ProjectionSourceProblem) :
    Prop where
  generationsOnce : (members.map fun m => m.generationId).Nodup
  tasksOnce : (members.map fun m => m.taskDocumentRef.key).Nodup
  empty : condition = .invalidEmpty → members = [] ∧ fingerprint = none ∧ classification = none
  built : condition = .validBuilt →
    fingerprint.isSome ∧ classification.isSome ∧ problems = []
  terminal : classification = some .terminal → members = []

instance (condition classification fingerprint members problems) :
    Decidable (ConditionIsExact condition classification fingerprint members problems) :=
  decidable_of_iff
    ((members.map fun m => m.generationId).Nodup ∧
      (members.map fun m => m.taskDocumentRef.key).Nodup ∧
      (condition = .invalidEmpty → members = [] ∧ fingerprint = none ∧ classification = none) ∧
      (condition = .validBuilt → fingerprint.isSome ∧ classification.isSome ∧ problems = []) ∧
      (classification = some .terminal → members = []))
    ⟨fun ⟨a, b, c, d, e⟩ => ⟨a, b, c, d, e⟩, fun ⟨a, b, c, d, e⟩ => ⟨a, b, c, d, e⟩⟩

theorem invalidEmpty_exact (problems : List ProjectionSourceProblem) :
    ConditionIsExact .invalidEmpty none none [] problems :=
  ⟨.nil, .nil, fun _ => ⟨rfl, rfl, rfl⟩, nofun, nofun⟩

/-- The state file; its fields agree with its condition. -/
structure CloseoutQueueState where
  sprintTaskDocumentRef : TaskDocumentRef
  revision : Nat
  serviceCondition : ProjectionServiceCondition
  sourceClassification : Option ProjectionSourceClassification := none
  sourceFingerprint : Option String := none
  members : List CloseoutProjectionMember := []
  sourceProblems : List ProjectionSourceProblem := []
  updatedAt : String
  exact : ConditionIsExact serviceCondition sourceClassification sourceFingerprint members
    sourceProblems
  bounded : sourceProblems.length ≤ maxCloseoutSourceProblems
deriving DecidableEq

/-- The build file; a terminal sprint has no members. -/
structure CloseoutProjectionBuild where
  sprintTaskDocumentRef : TaskDocumentRef
  sourceFingerprint : String
  sourceClassification : ProjectionSourceClassification
  members : List CloseoutProjectionMember
  builtAt : String
  terminalIsEmpty : sourceClassification = .terminal → members = []
deriving DecidableEq

/-- The source as one capture reads it. -/
structure ProjectionSourceIdentity where
  fingerprint : Option String
  problems : List ProjectionSourceProblem := []
  classification : Option ProjectionSourceClassification := none
  members : List CloseoutProjectionMember := []
deriving DecidableEq

/-- The capture has a fingerprint and no problem. -/
def ProjectionSourceIdentity.readable (source : ProjectionSourceIdentity) : Bool :=
  source.fingerprint.isSome && source.problems.isEmpty

/-- A census of the source, with the build it is complete for. A terminal
source has no members. -/
def ProjectionSourceIdentity.build (source : ProjectionSourceIdentity)
    (sprintRef : TaskDocumentRef) (capturedAt : String) : Option CloseoutProjectionBuild :=
  match source.readable, source.fingerprint, source.classification with
  | true, some fingerprint, some classification =>
    if h : classification = .terminal → source.members = [] then
      some ⟨sprintRef, fingerprint, classification, source.members, capturedAt, h⟩
    else none
  | _, _, _ => none

/-- The state carries exactly the identity of the source. -/
def CloseoutQueueState.Matches (state : CloseoutQueueState) (source : ProjectionSourceIdentity) :
    Prop :=
  state.serviceCondition = .validBuilt ∧ source.readable = true ∧
    state.sourceFingerprint = source.fingerprint ∧
    state.sourceClassification = source.classification ∧ state.members = source.members

instance (state : CloseoutQueueState) (source : ProjectionSourceIdentity) :
    Decidable (state.Matches source) :=
  inferInstanceAs (Decidable (_ ∧ _))

/-! ## The state file -/

/-- What is at the canonical path: a file that does not parse is `unreadable`. -/
inductive StateFile where
  | missing
  | irregular
  | unreadable
  | state (state : CloseoutQueueState)
deriving DecidableEq

/-- Why the state file does not read. -/
inductive StoreError where
  | notRegularFile | invalidProjection | anotherSprint

/-- What an invalidation did. -/
inductive InvalidationOutcome where
  | persistedEmpty | alreadyEmpty | recoveredMalformed
deriving DecidableEq

/-- The state an invalidation leaves, and how. -/
structure Invalidation where
  state : CloseoutQueueState
  outcome : InvalidationOutcome
  diagnostic : Option ProjectionSourceProblem := none

/-- What a rebuild did. -/
inductive RebuildOutcome where
  | published | alreadyCurrent | sourceChanged | sourceUnreadable
deriving DecidableEq

/-- The answer of a rebuild. -/
structure ProjectionRebuildResult where
  outcome : RebuildOutcome
  revision : Option Nat := none
  sourceFingerprint : Option String := none
  sourceClassification : Option ProjectionSourceClassification := none
  memberCount : Nat := 0
  sourceProblems : List ProjectionSourceProblem := []

/-- Why a door is not admitted. -/
inductive AdmissionRefusal where
  | projectionInvalidEmpty
  | doorNotFirstReady (observed : Option String)

/-- The store of one sprint. -/
structure CloseoutQueueStore where
  sprintRef : TaskDocumentRef
  statePath : String
  /-- The text of the tool call that rebuilds this projection. -/
  rebuildAction : String

namespace CloseoutQueueStore
variable (store : CloseoutQueueStore)

/-- A state without membership. -/
def invalidEmpty (revision : Nat) (problems : List ProjectionSourceProblem) (timestamp : String)
    (h : problems.length ≤ maxCloseoutSourceProblems) : CloseoutQueueState where
  sprintTaskDocumentRef := store.sprintRef
  revision := revision
  serviceCondition := .invalidEmpty
  sourceProblems := problems
  updatedAt := timestamp
  exact := invalidEmpty_exact problems
  bounded := h

/-- The state file, read strictly. -/
def readState (file : StateFile) (timestamp : String) : Except StoreError CloseoutQueueState :=
  match file with
  | .missing => .ok (store.invalidEmpty 0 [] timestamp (by decide))
  | .irregular => .error .notRegularFile
  | .unreadable => .error .invalidProjection
  | .state state =>
    if state.sprintTaskDocumentRef = store.sprintRef then .ok state else .error .anotherSprint

/-- Every refusal of `readState` is one exception class. -/
def artifactProblem : ProjectionSourceProblem where
  kind := .projection
  address := store.statePath
  state := .unreadable
  errorType := "CloseoutQueueStoreError"
  repairAction := store.rebuildAction

/-- The state file, an unreadable one as an empty state. -/
def readRaw (file : StateFile) (timestamp : String) : CloseoutQueueState :=
  match store.readState file timestamp with
  | .ok state => state
  | .error _ => store.invalidEmpty 0 [store.artifactProblem] timestamp (by simp [maxCloseoutSourceProblems])

/-- The problem that stands for those left out. -/
def capExceeded : ProjectionSourceProblem where
  kind := .projection
  address := store.statePath
  state := .invalid
  errorType := "source-problem-cap-exceeded"
  repairAction := store.rebuildAction

/-- Each problem once, in order, and a marker where there are too many. -/
def boundedProblems (problems : List ProjectionSourceProblem) : List ProjectionSourceProblem :=
  let unique := problems.eraseDups
  if unique.length ≤ maxCloseoutSourceProblems then unique
  else unique.take (maxCloseoutSourceProblems - 1) ++ [store.capExceeded]

theorem boundedProblems_length (problems : List ProjectionSourceProblem) :
    (store.boundedProblems problems).length ≤ maxCloseoutSourceProblems := by
  unfold boundedProblems
  dsimp only
  split
  · assumption
  · simp only [List.length_append, List.length_take, List.length_singleton,
      maxCloseoutSourceProblems]
    omega

/-- The problem of a state whose source has changed. -/
def fingerprintMismatch : ProjectionSourceProblem where
  kind := .task
  address := store.sprintRef.key
  state := .invalid
  errorType := "source-fingerprint-mismatch"
  repairAction := store.rebuildAction

/-- The problems a reader is shown. -/
def effectiveProblems (raw : CloseoutQueueState) (source : ProjectionSourceIdentity) :
    List ProjectionSourceProblem :=
  let problems := store.boundedProblems (raw.sourceProblems ++ source.problems)
  if problems = [] ∧ raw.serviceCondition = .validBuilt then [store.fingerprintMismatch]
  else problems

theorem effectiveProblems_length (raw : CloseoutQueueState) (source : ProjectionSourceIdentity) :
    (store.effectiveProblems raw source).length ≤ maxCloseoutSourceProblems := by
  unfold effectiveProblems
  dsimp only
  split
  · simp [maxCloseoutSourceProblems]
  · exact store.boundedProblems_length _

/-- The state if it matches the source, else an empty one. -/
def readEffective (file : StateFile) (source : ProjectionSourceIdentity) (timestamp : String) :
    CloseoutQueueState :=
  let raw := store.readRaw file timestamp
  if raw.Matches source then raw
  else store.invalidEmpty raw.revision (store.effectiveProblems raw source) timestamp
    (store.effectiveProblems_length raw source)

theorem readState_ok {file : StateFile} {timestamp : String} {state : CloseoutQueueState}
    (h : store.readState file timestamp = .ok state) :
    (file = .state state ∧ state.sprintTaskDocumentRef = store.sprintRef) ∨
      (file = .missing ∧ state = store.invalidEmpty 0 [] timestamp (by decide)) := by
  cases file with
  | missing => exact .inr ⟨rfl, (Except.ok.inj h).symm⟩
  | irregular => cases h
  | unreadable => cases h
  | state persisted =>
    simp only [readState] at h
    split at h
    next hsprint => cases h; exact .inl ⟨rfl, hsprint⟩
    · cases h

/-- Only what is on disk for this sprint reads as built. -/
theorem readRaw_built {file : StateFile} {timestamp : String}
    (h : (store.readRaw file timestamp).serviceCondition = .validBuilt) :
    file = .state (store.readRaw file timestamp) ∧
      (store.readRaw file timestamp).sprintTaskDocumentRef = store.sprintRef := by
  unfold readRaw at h ⊢
  cases hread : store.readState file timestamp with
  | error e => rw [hread] at h; cases h
  | ok state =>
    obtain hfile | ⟨-, rfl⟩ := store.readState_ok hread
    · exact hfile
    · rw [hread] at h; cases h

/-- A read that yields members, or a built state at all, yields the state on
disk, and that state is exact for the source of the read. -/
theorem readEffective_exact {file : StateFile} {source : ProjectionSourceIdentity}
    {timestamp : String}
    (h : (store.readEffective file source timestamp).serviceCondition = .validBuilt ∨
      (store.readEffective file source timestamp).members ≠ []) :
    file = .state (store.readEffective file source timestamp) ∧
      (store.readEffective file source timestamp).sprintTaskDocumentRef = store.sprintRef ∧
      (store.readEffective file source timestamp).Matches source := by
  unfold readEffective at h ⊢
  dsimp only at h ⊢
  split at h
  next hm =>
    obtain ⟨hfile, hsprint⟩ := store.readRaw_built hm.1
    rw [if_pos hm]
    exact ⟨hfile, hsprint, hm⟩
  next hm => exact h.elim nofun (absurd rfl)

/-! ## Invalidation -/

/-- What `invalidate` returns; the state is published unless it is already there. -/
def invalidation (file : StateFile) (timestamp : String) : Invalidation :=
  match store.readState file timestamp with
  | .error _ =>
    { state := store.invalidEmpty 0 [] timestamp (by decide)
      outcome := .recoveredMalformed
      diagnostic := some store.artifactProblem }
  | .ok current =>
    if file = .missing then { state := current, outcome := .persistedEmpty }
    else if current.serviceCondition = .invalidEmpty then
      { state := current, outcome := .alreadyEmpty }
    else
      { state := store.invalidEmpty (current.revision + 1) [] timestamp (by decide)
        outcome := .persistedEmpty }

/-- Nothing an invalidation leaves behind has members. -/
theorem invalidation_empty (file : StateFile) (timestamp : String) :
    (store.invalidation file timestamp).state.serviceCondition = .invalidEmpty := by
  unfold invalidation
  cases hread : store.readState file timestamp with
  | error e => rfl
  | ok current =>
    dsimp only
    split
    next hmissing =>
      obtain ⟨h, -⟩ | ⟨-, rfl⟩ := store.readState_ok hread
      · rw [hmissing] at h; cases h
      · rfl
    next =>
      split
      · assumption
      · rfl

/-- What an invalidation does, by what it reads. -/
theorem invalidation_cases (file : StateFile) (timestamp : String) :
    ((∃ e, store.readState file timestamp = .error e) ∧
      (store.invalidation file timestamp).outcome = .recoveredMalformed) ∨
    (file = .missing ∧ (store.invalidation file timestamp).outcome = .persistedEmpty) ∨
    (∃ current, file = .state current ∧ current.serviceCondition = .invalidEmpty ∧
      (store.invalidation file timestamp).outcome = .alreadyEmpty) ∨
    (∃ current, store.readState file timestamp = .ok current ∧
      (store.invalidation file timestamp).state.revision = current.revision + 1 ∧
      (store.invalidation file timestamp).outcome = .persistedEmpty) := by
  unfold invalidation
  cases hread : store.readState file timestamp with
  | error e => exact .inl ⟨⟨e, rfl⟩, rfl⟩
  | ok current =>
    obtain ⟨rfl, -⟩ | ⟨rfl, rfl⟩ := store.readState_ok hread
    · dsimp only
      rw [if_neg nofun]
      split
      next hempty => exact .inr (.inr (.inl ⟨current, rfl, hempty, rfl⟩))
      next => exact .inr (.inr (.inr ⟨current, rfl, rfl, rfl⟩))
    · exact .inr (.inl ⟨rfl, rfl⟩)

/-! ## Publication -/

/-- What `publish_build` returns for the state it read and the source it
captured again; nothing when the state it would publish is refused. -/
def publication (build : CloseoutProjectionBuild) (current : CloseoutQueueState)
    (source : ProjectionSourceIdentity) : Option (CloseoutQueueState × ProjectionRebuildResult) :=
  if source.readable = false then
    some (current,
      { outcome := .sourceUnreadable, sourceProblems := store.boundedProblems source.problems })
  else if source.fingerprint ≠ some build.sourceFingerprint then
    some (current, { outcome := .sourceChanged, sourceFingerprint := source.fingerprint })
  else if source.classification ≠ some build.sourceClassification ∨
      source.members ≠ build.members then
    some (current,
      { outcome := .sourceChanged
        sourceFingerprint := source.fingerprint
        sourceClassification := source.classification
        memberCount := source.members.length })
  -- the same build once more makes no revision
  else if current.serviceCondition = .validBuilt ∧
      current.sourceFingerprint = some build.sourceFingerprint ∧
      current.sourceClassification = some build.sourceClassification ∧
      current.members = build.members then
    some (current,
      { outcome := .alreadyCurrent
        revision := some current.revision
        sourceFingerprint := some build.sourceFingerprint
        sourceClassification := some build.sourceClassification
        memberCount := build.members.length })
  else if h : ConditionIsExact .validBuilt (some build.sourceClassification)
      (some build.sourceFingerprint) build.members [] then
    some (⟨store.sprintRef, current.revision + 1, .validBuilt, some build.sourceClassification,
        some build.sourceFingerprint, build.members, [], build.builtAt, h, Nat.zero_le _⟩,
      { outcome := .published
        revision := some (current.revision + 1)
        sourceFingerprint := some build.sourceFingerprint
        sourceClassification := some build.sourceClassification
        memberCount := build.members.length })
  else none

/-- A publication is the next revision, of the build and of the recaptured source. -/
theorem publication_published {build : CloseoutProjectionBuild} {current state : CloseoutQueueState}
    {source : ProjectionSourceIdentity} {result : ProjectionRebuildResult}
    (h : store.publication build current source = some (state, result))
    (hout : result.outcome = .published) :
    state.revision = current.revision + 1 ∧ state.Matches source ∧
      state.sourceFingerprint = some build.sourceFingerprint ∧
      state.sourceClassification = some build.sourceClassification ∧
      state.members = build.members := by
  unfold publication at h
  split at h
  · cases h; cases hout
  next hreadable =>
  split at h
  · cases h; cases hout
  next hfingerprint =>
  split at h
  · cases h; cases hout
  next hrest =>
  split at h
  · cases h; cases hout
  split at h
  · cases h
    push Not at hfingerprint hrest
    exact ⟨rfl, ⟨rfl, by simpa using hreadable, hfingerprint.symm, hrest.1.symm, hrest.2.symm⟩,
      rfl, rfl, rfl⟩
  · cases h

/-! ## Admission -/

/-- The door is the first ready member of the state. -/
def requireFirstReadyGeneration (file : StateFile) (source : ProjectionSourceIdentity)
    (timestamp generationId : String) : Except AdmissionRefusal Unit :=
  let state := store.readEffective file source timestamp
  if state.serviceCondition ≠ .validBuilt then .error .projectionInvalidEmpty
  else
    match state.members.find? fun m => m.classification = .ready with
    | some first =>
      if first.generationId = generationId then .ok ()
      else .error (.doorNotFirstReady (some first.generationId))
    | none => .error (.doorNotFirstReady none)

/-- An admitted generation is the first ready member of the exact state on disk. -/
theorem requireFirstReadyGeneration_ok {file : StateFile} {source : ProjectionSourceIdentity}
    {timestamp generationId : String}
    (h : store.requireFirstReadyGeneration file source timestamp generationId = .ok ()) :
    ∃ state first, file = .state state ∧ state.sprintTaskDocumentRef = store.sprintRef ∧
      state.Matches source ∧
      (state.members.find? fun m => m.classification = .ready) = some first ∧
      first.generationId = generationId := by
  unfold requireFirstReadyGeneration at h
  dsimp only at h
  split at h
  · cases h
  next hbuilt =>
  push Not at hbuilt
  split at h
  next first hfirst =>
    split at h
    next hid =>
      obtain ⟨hfile, hsprint, hm⟩ := store.readEffective_exact (.inl hbuilt)
      exact ⟨_, first, hfile, hsprint, hm, hfirst, hid⟩
    · cases h
  · cases h

end CloseoutQueueStore

end AgentsRemember.Queue
