import AgentsRemember.Lifecycle.Worker

/-!
# Lifecycle — Replacement

A terminal generation gives way to the next one: its record is archived with
the successor's fingerprint, and the successor is published in its place. An
attempt is the durable states it goes through and what it returns; a crash
leaves any one of these states, an exception the last.
-/

namespace AgentsRemember.Lifecycle

open Checks Attempts LifecycleOperationStore

/-- The record file of an operation kind with the archives beside it. -/
structure Enclosure where
  file : JournalFile
  /-- `generation-N.json`, by `N`. -/
  archives : Nat → Option JournalFile := fun _ => none
  /-- `legacy-missing-intent-generation-N.json`, by `N`. -/
  legacyArchives : Nat → Option JournalFile := fun _ => none

/-- The durable states of a replacement, and what it returns. -/
structure Attempt where
  states : List Enclosure
  result : Except String LifecycleOperationRecord

/-- What the caller hands over: both may refuse by raising. -/
structure ReplacementCallbacks where
  initialCertification :
    Option (LifecycleOperationRecord → Except String OperationCertificationState) := none
  retainPreparation :
    Option (LifecycleOperationRecord → LifecycleOperationRecord →
      Except String LifecycleOperationRecord) := none

/-- A commit operation that binds no task intent. -/
def missingIntent (record : LifecycleOperationRecord) : Bool :=
  record.operationKind ≠ .integrate && taskIntentIsMissing record.taskIntent

/-- The successor with its first certification. -/
def withInitialCertification (callbacks : ReplacementCallbacks)
    (record : LifecycleOperationRecord) : Except String LifecycleOperationRecord :=
  match callbacks.initialCertification with
  | none => .ok record
  | some selection => do
    refuseIf (record.operationKind ≠ .closeout ∨ record.certification ≠ none)
      "initial certification requires an unselected closeout generation"
    let initial ← selection record
    let selected ← modelValidate { record with certification := some initial }
    validateCertificationTransition record.certification selected.certification
      record.operationKey record.generation (record.status = .queued && !record.cancelRequested)
    .ok selected

/-- The successor with the preparation it keeps. -/
def withRetention (callbacks : ReplacementCallbacks)
    (current validated : LifecycleOperationRecord) : Except String LifecycleOperationRecord :=
  match callbacks.retainPreparation with
  | none => .ok validated
  | some retain => do
    let retained ← retain current validated
    modelValidate retained

/-- A preparation is handed over exactly when there was one; away from the
missing-intent path only to a candidate with the same tree. -/
def requireRetention (current retained : LifecycleOperationRecord) : Verdict :=
  inOrder [
    refuseIf (current.preparation ≠ none ∧ retained.preparedCodeRetention = none ∧
        (missingIntent current = true ∨ current.candidateTree = retained.candidateTree))
      "private preparation retention did not publish a proved successor binding",
    refuseIf (current.preparation = none ∧ retained.preparedCodeRetention ≠ none)
      "prepared code retention requires a selected predecessor preparation"]

/-- What a replacement asks of both records. -/
def requireTerminalReplacement (callbacks : ReplacementCallbacks)
    (current candidate : LifecycleOperationRecord) : Verdict :=
  inOrder [
    refuseIf (current.preparation ≠ none ∧ callbacks.retainPreparation.isNone = true ∧
        current.candidateTree = candidate.candidateTree)
      "private preparation requires an explicit proved retention disposition",
    refuseIf (candidate.preparation ≠ none)
      "private preparation must be selected by the successor owner",
    refuseIf (current.workerPid ≠ none ∨
        ∃ termination ∈ current.workerTermination, termination.state ≠ .exited)
      "terminal lifecycle generation retains unproven worker authority",
    refuseIf (candidate.taskId ≠ current.taskId)
      "a sequential lifecycle operation cannot change taskId",
    refuseIf (candidate.taskName ≠ current.taskName)
      "a sequential lifecycle operation cannot change taskName",
    refuseIf (candidate.contractPath ≠ current.contractPath)
      "a sequential lifecycle operation cannot change contractPath",
    refuseIf (candidate.operationKind ≠ current.operationKind)
      "a sequential lifecycle operation cannot change operationKind"]

/-- The candidate as the next generation. -/
def successorRecord (current candidate : LifecycleOperationRecord) :
    Except String LifecycleOperationRecord :=
  modelValidate
    { candidate with
      generation := current.generation + 1
      recordRevision := current.recordRevision + if missingIntent current then 1 else 2
      meaningfulRevision := current.meaningfulRevision + 1
      predecessorFingerprint := current.fingerprint
      attempt := 1 }

/-- The current record as it is archived: it names its successor. -/
def archivedRecord (current : LifecycleOperationRecord) (successorFingerprint : String) :
    LifecycleOperationRecord :=
  { current with
    successorFingerprint := successorFingerprint
    recordRevision := current.recordRevision + 1
    meaningfulRevision := current.meaningfulRevision + 1 }

/-- What a replacement decides before its first write. -/
inductive Plan where
  | already (current : LifecycleOperationRecord)
  | missingIntent (current successor : LifecycleOperationRecord)
  | archive (current validated predecessor : LifecycleOperationRecord)

/-- The record file, written. -/
def Enclosure.publish (e : Enclosure) (record : LifecycleOperationRecord) : Enclosure :=
  { e with file := .record record }

/-- The archive of a generation, written. -/
def Enclosure.putArchive (e : Enclosure) (generation : Nat) (content : JournalFile) : Enclosure :=
  { e with archives := fun n => if n = generation then some content else e.archives n }

/-- The archive of a generation without intent, written. -/
def Enclosure.putLegacyArchive (e : Enclosure) (generation : Nat) (content : JournalFile) :
    Enclosure :=
  { e with legacyArchives := fun n => if n = generation then some content else e.legacyArchives n }

namespace LifecycleOperationStore
variable (store : LifecycleOperationStore) (callbacks : ReplacementCallbacks)

/-- The callbacks and their checks, from the validated successor on. -/
def finishSuccessor (current validated : LifecycleOperationRecord) :
    Except String LifecycleOperationRecord := do
  let certified ← withInitialCertification callbacks validated
  let retained ← withRetention callbacks current certified
  requireRetention current retained
  .ok retained

/-- What a replacement will do, before it writes. -/
def planReplacement (file : JournalFile) (candidate : LifecycleOperationRecord) :
    Except String Plan := do
  match ← store.read file with
  | none => .error "an active lifecycle operation cannot be replaced"
  | some current =>
    if current.fingerprint = candidate.fingerprint ∧ current.predecessorFingerprint ≠ "" then
      .ok (.already current)
    else if current.status ∉ terminalStatuses then
      .error "an active lifecycle operation cannot be replaced"
    else do
      requireTerminalReplacement callbacks current candidate
      let validated ← successorRecord current candidate
      if missingIntent current then do
        let successor ← finishSuccessor callbacks current validated
        .ok (.missingIntent current successor)
      else do
        let predecessor ← modelValidate (archivedRecord current validated.fingerprint)
        .ok (.archive current validated predecessor)

/-- The exact bytes are preserved; the copy is removed when the write refuses. -/
def retireMissingIntentGeneration (e : Enclosure)
    (current successor : LifecycleOperationRecord) : Attempt :=
  match e.legacyArchives current.generation with
  | some content =>
    if content ≠ e.file then
      ⟨[e], .error "legacy missing-intent archive contradicts durable history"⟩
    else
      match store.requireWritable successor with
      | .error message => ⟨[e], .error message⟩
      | .ok () => ⟨[e, e.publish successor], .ok successor⟩
  | none =>
    let copied := e.putLegacyArchive current.generation e.file
    match store.requireWritable successor with
    | .error message => ⟨[e, copied, e], .error message⟩
    | .ok () => ⟨[e, copied, copied.publish successor], .ok successor⟩

/-- What follows the archive: the callbacks, their checks and the final write. -/
def publishSuccessor (current validated : LifecycleOperationRecord) :
    Except String LifecycleOperationRecord := do
  let retained ← finishSuccessor callbacks current validated
  store.requireWritable retained
  .ok retained

/-- From the archived state on, behind the states before it. -/
def publishFrom (before : List Enclosure) (e : Enclosure)
    (current validated : LifecycleOperationRecord) : Attempt :=
  match store.publishSuccessor callbacks current validated with
  | .error message => ⟨before ++ [e], .error message⟩
  | .ok retained => ⟨before ++ [e, e.publish retained], .ok retained⟩

/-- The archive first, then the successor. -/
def archiveAndPublish (e : Enclosure) (current validated predecessor : LifecycleOperationRecord) :
    Attempt :=
  match e.archives current.generation with
  | some content =>
    if content ≠ .record predecessor then
      ⟨[e], .error "lifecycle generation archive contradicts durable history"⟩
    else store.publishFrom callbacks [] e current validated
  | none =>
    store.publishFrom callbacks [e] (e.putArchive current.generation (.record predecessor))
      current validated

/-- `replace_terminal`, by its plan. -/
def replaceTerminal (e : Enclosure) (candidate : LifecycleOperationRecord) : Attempt :=
  match store.planReplacement callbacks e.file candidate with
  | .error message => ⟨[e], .error message⟩
  | .ok (.already current) => ⟨[e], .ok current⟩
  | .ok (.missingIntent current successor) =>
    store.retireMissingIntentGeneration e current successor
  | .ok (.archive current validated predecessor) =>
    store.archiveAndPublish callbacks e current validated predecessor

end LifecycleOperationStore

end AgentsRemember.Lifecycle
