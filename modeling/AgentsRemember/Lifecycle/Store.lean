import AgentsRemember.Foundation.Runs
import AgentsRemember.Lifecycle.Transition

/-!
# Lifecycle — Store

The operation store of one enclosure: its reader and its three writers. A call
holds the store's lock from its read to its write, so it is one step of what
the file goes through; a call that refuses, or that changes nothing, is none.
-/

namespace AgentsRemember.Lifecycle

open Checks Attempts

/-- The statuses an operation ends in. -/
def terminalStatuses : List LifecycleOperationStatus := [.completed, .failed, .cancelled]

/-- The statuses no resume leads out of. -/
def nonResumableStatuses : List LifecycleOperationStatus := [.completed, .cancelled]

/-- The statuses a write may move to. -/
def allowedStatuses : LifecycleOperationStatus → List LifecycleOperationStatus
  | .queued => [.queued, .running, .inputRequired, .terminationRequired, .failed, .cancelled]
  | .running =>
    [.queued, .running, .inputRequired, .terminationRequired, .completed, .failed, .cancelled]
  | .inputRequired => [.queued, .inputRequired, .terminationRequired, .cancelled]
  | .terminationRequired =>
    [.queued, .running, .inputRequired, .terminationRequired, .completed, .failed, .cancelled]
  | .completed => [.completed, .terminationRequired]
  | .failed => [.failed, .terminationRequired, .cancelled]
  | .cancelled => [.cancelled]

/-- A commit whose outcome is not known yet. -/
def closeoutAmbiguous (record : LifecycleOperationRecord) : Bool :=
  record.operationKind ≠ .integrate &&
    record.mutationEvidence.items.any fun cell => cell.2.state = .mutationIntent

/-- The validators of a write, then its status. -/
def validateTransition (current updated : LifecycleOperationRecord) : Verdict :=
  inOrder [
    validateIdentityAndEvidenceTransition current updated,
    refuseIf (updated.status ∉ allowedStatuses current.status)
      ("invalid lifecycle operation transition " ++ current.status.text ++ " -> " ++
        updated.status.text),
    refuseIf (updated.attempt ≠ current.attempt)
      "ordinary lifecycle transition cannot change attempt",
    refuseIf (updated.status = .cancelled ∧ current.preparation ≠ none ∧
        updated.cancellationEvidence = none)
      "private preparation cancellation requires unchanged logical refs",
    refuseIf (updated.status = .cancelled ∧ closeoutAmbiguous current = true ∧
        updated.cancellationEvidence = none)
      "a closeout operation cannot cancel with ambiguous Git intent",
    refuseIf (updated.status = .cancelled ∧ current.irreversibleBoundaryEntered = true ∧
        updated.cancellationEvidence = none)
      "an irreversible lifecycle operation needs exact unchanged cancellation evidence"]

/-- The record's own validator, as the store calls it. -/
def modelValidate (record : LifecycleOperationRecord) : Except String LifecycleOperationRecord := do
  requireAltitudeAuthority record
  .ok record

/-- The store numbers the revisions, a transform does not. -/
def advanceRecordRevision (current transformed : LifecycleOperationRecord) :
    Except String LifecycleOperationRecord := do
  refuseIf (transformed.recordRevision ≠ current.recordRevision)
    "lifecycle operation transforms cannot assign record revision"
  refuseIf (transformed.meaningfulRevision ≠ current.meaningfulRevision)
    "lifecycle operation transforms cannot assign meaningful revision"
  modelValidate
    { transformed with
      recordRevision := current.recordRevision + 1
      meaningfulRevision :=
        current.meaningfulRevision + (meaningfulStateChanged current transformed).toNat }

/-! ## The file -/

/-- What is at the store's path: text that is not a record is `unreadable`. -/
inductive JournalFile where
  | missing
  | unreadable
  | record (record : LifecycleOperationRecord)
deriving DecidableEq

/-- The kind that the file's name stands for, where it stands for one. -/
structure LifecycleOperationStore where
  canonicalKind : Option LifecycleOperationKind := none

/-- What a caller makes of the current record. -/
abbrev Transform := LifecycleOperationRecord → Except String LifecycleOperationRecord

/-- What a call returns, and the record it wrote, if it wrote one. -/
structure StoreOutcome where
  record : LifecycleOperationRecord
  applied : Bool
  written : Option LifecycleOperationRecord

namespace LifecycleOperationStore
variable (store : LifecycleOperationStore)

/-- The record lies at the path of its kind. -/
def requireRecordMatchesCanonicalPath (record : LifecycleOperationRecord) : Verdict :=
  refuseIf (∃ kind ∈ store.canonicalKind, record.operationKind ≠ kind)
    "strict lifecycle current-record is unreadable or invalid"

/-- The record, or that there is none. -/
def read (file : JournalFile) : Except String (Option LifecycleOperationRecord) :=
  match file with
  | .missing => .ok none
  | .unreadable => .error "strict lifecycle current-record is unreadable or invalid"
  | .record record => do
    requireAltitudeAuthority record
    store.requireRecordMatchesCanonicalPath record
    .ok (some record)

/-- What `_write` asks of the record it puts into the file. -/
def requireWritable (record : LifecycleOperationRecord) : Verdict :=
  inOrder [
    requireAltitudeAuthority record,
    refuseIf (record.operationKind = .closeout ∧ taskIntentIsMissing record.taskIntent = true)
      ("lifecycle-operation-task-intent-unavailable: lifecycle-operation predates " ++
        "canonical task intent and cannot be current or reused"),
    store.requireRecordMatchesCanonicalPath record,
    requireCloseoutRecoveryProjection record,
    requireCloseoutFinalizationEvidence record]

/-- A record the store has written. -/
def Stored (record : LifecycleOperationRecord) : Prop := store.requireWritable record = .ok ()

instance (record : LifecycleOperationRecord) : Decidable (store.Stored record) :=
  inferInstanceAs (Decidable (_ = _))

/-- The record, which is to exist. -/
def currentRecord (file : JournalFile) : Except String LifecycleOperationRecord := do
  match ← store.read file with
  | none => .error "lifecycle operation record does not exist"
  | some current => .ok current

/-- The tail that `update` and `update_if_current` share. -/
def transformCurrent (current : LifecycleOperationRecord) (transform : Transform) :
    Except String StoreOutcome := do
  let transformed ← modelValidate (← transform current)
  if transformed = current then .ok ⟨current, true, none⟩
  else do
    let updated ← advanceRecordRevision current transformed
    validateTransition current updated
    store.requireWritable updated
    .ok ⟨updated, true, some updated⟩

/-- `update`, under the lock. -/
def update (file : JournalFile) (transform : Transform) : Except String StoreOutcome := do
  let current ← store.currentRecord file
  store.transformCurrent current transform

/-- `update_if_current`: nothing is done to another record. -/
def updateIfCurrent (file : JournalFile) (observed : LifecycleOperationRecord)
    (transform : Transform) : Except String StoreOutcome := do
  let current ← store.currentRecord file
  if current ≠ observed then .ok ⟨current, false, none⟩
  else store.transformCurrent current transform

/-- The status and phase in which a generation is resumed. -/
def resumeStatus (current : LifecycleOperationRecord) : LifecycleOperationStatus :=
  if current.operationKind = .directLanding then .running else .queued

/-- The phase a resumed generation begins in. -/
def resumePhase (current : LifecycleOperationRecord) : LifecycleOperationPhase :=
  if current.operationKind = .directLanding then .directPreflight
  else (closeoutRecoveryPhase current).getD .queued

/-- What a resume asks of a write. -/
def requireResume (current updated : LifecycleOperationRecord) : Verdict :=
  inOrder [
    validateIdentityAndEvidenceTransition current updated,
    refuseIf (current.status ∈ nonResumableStatuses)
      "terminal lifecycle operation cannot resume its generation",
    refuseIf (updated.attempt ≠ current.attempt + 1)
      "lifecycle operation resume must increment attempt exactly once",
    refuseIf (updated.status ≠ resumeStatus current ∨ updated.phase ≠ resumePhase current)
      "lifecycle operation resume must use its sanctioned status and phase",
    refuseIf (updated.successorFingerprint ≠ current.successorFingerprint ∨
        updated.generationDisposition ≠ current.generationDisposition)
      "lifecycle operation resume cannot change its disposition"]

/-- `resume_generation`, under the lock. -/
def resumeGeneration (file : JournalFile) (transform : Transform) (expectedGeneration : Nat) :
    Except String StoreOutcome := do
  match ← store.read file with
  | none => .error "lifecycle operation generation does not exist"
  | some current =>
    if current.generation ≠ expectedGeneration then .ok ⟨current, false, none⟩
    else do
      let transformed ← modelValidate (← transform current)
      let updated ← advanceRecordRevision current transformed
      requireResume current updated
      store.requireWritable updated
      .ok ⟨updated, true, some updated⟩

/-! ## Runs of writes -/

/-- The three writers. -/
inductive WriteCall where
  | update (transform : Transform)
  | updateIfCurrent (observed : LifecycleOperationRecord) (transform : Transform)
  | resumeGeneration (transform : Transform) (expectedGeneration : Nat)

/-- The transform of a call. -/
def WriteCall.transform : WriteCall → Transform
  | .update transform => transform
  | .updateIfCurrent _ transform => transform
  | .resumeGeneration transform _ => transform

/-- A call as the store runs it. -/
def call (file : JournalFile) : WriteCall → Except String StoreOutcome
  | .update transform => store.update file transform
  | .updateIfCurrent observed transform => store.updateIfCurrent file observed transform
  | .resumeGeneration transform expectedGeneration =>
    store.resumeGeneration file transform expectedGeneration

/-- The record that a call writes over the current one. -/
def write (current : LifecycleOperationRecord) (w : WriteCall) : Option LifecycleOperationRecord :=
  match store.call (.record current) w with
  | .ok outcome => outcome.written
  | .error _ => none

/-! ## What a write is -/

/-- The next record of a transform's result. -/
def Advanced (current transformed updated : LifecycleOperationRecord) : Prop :=
  transformed.recordRevision = current.recordRevision ∧
    transformed.meaningfulRevision = current.meaningfulRevision ∧
    updated = { transformed with
      recordRevision := current.recordRevision + 1
      meaningfulRevision :=
        current.meaningfulRevision + (meaningfulStateChanged current transformed).toNat }

/-- Everything that a write of any of the three calls has gone through. -/
structure Accepted (current : LifecycleOperationRecord) (w : WriteCall)
    (updated : LifecycleOperationRecord) : Prop where
  stored : store.Stored updated
  envelope : validateIdentityAndEvidenceTransition current updated = .ok ()
  advanced : ∃ transformed, w.transform current = .ok transformed ∧
    Advanced current transformed updated
  edge : updated.status ∈ allowedStatuses current.status ∧ updated.attempt = current.attempt ∨
    current.status ∉ nonResumableStatuses ∧ updated.attempt = current.attempt + 1 ∧
      updated.status = resumeStatus current

end LifecycleOperationStore

open LifecycleOperationStore

theorem modelValidate_ok {record validated : LifecycleOperationRecord}
    (h : modelValidate record = .ok validated) : validated = record ∧ Valid record := by
  obtain ⟨⟨⟩, hvalid, h⟩ := bind_eq_ok.mp h
  exact ⟨(Except.ok.inj h).symm, hvalid⟩

theorem advanceRecordRevision_ok {current transformed updated : LifecycleOperationRecord}
    (h : advanceRecordRevision current transformed = .ok updated) :
    Advanced current transformed updated := by
  obtain ⟨⟨⟩, hrecord, h⟩ := bind_eq_ok.mp h
  obtain ⟨⟨⟩, hmeaningful, h⟩ := bind_eq_ok.mp h
  exact ⟨by simpa using hrecord, by simpa using hmeaningful, (modelValidate_ok h).1⟩

theorem validateTransition_ok {current updated : LifecycleOperationRecord}
    (h : validateTransition current updated = .ok ()) :
    validateIdentityAndEvidenceTransition current updated = .ok () ∧
      updated.status ∈ allowedStatuses current.status ∧ updated.attempt = current.attempt := by
  simp only [validateTransition, inOrder_cons_ok, refuseIf_ok, not_not] at h
  obtain ⟨henvelope, hstatus, hattempt, -⟩ := h
  exact ⟨henvelope, hstatus, hattempt⟩

section store
variable {store : LifecycleOperationStore} {current updated : LifecycleOperationRecord}

theorem transformCurrent_written {w : WriteCall} {outcome : StoreOutcome}
    (h : store.transformCurrent current w.transform = .ok outcome)
    (hwritten : outcome.written = some updated) : store.Accepted current w updated := by
  obtain ⟨result, hresult, hrest⟩ := bind_eq_ok.mp h
  obtain ⟨transformed, htransformed, hchanged⟩ := bind_eq_ok.mp hrest
  obtain ⟨rfl, -⟩ := modelValidate_ok htransformed
  split at hchanged
  · cases hchanged; cases hwritten
  obtain ⟨next, hnext, hchecks⟩ := bind_eq_ok.mp hchanged
  obtain ⟨⟨⟩, hvalid, hchecks⟩ := bind_eq_ok.mp hchecks
  obtain ⟨⟨⟩, hwritable, hchecks⟩ := bind_eq_ok.mp hchecks
  cases hchecks
  cases hwritten
  obtain ⟨henvelope, hstatus, hattempt⟩ := validateTransition_ok hvalid
  exact ⟨hwritable, henvelope, ⟨_, hresult, advanceRecordRevision_ok hnext⟩,
    .inl ⟨hstatus, hattempt⟩⟩

theorem read_record {record found : LifecycleOperationRecord}
    (h : store.read (.record record) = .ok (some found)) : found = record := by
  obtain ⟨⟨⟩, -, h⟩ := bind_eq_ok.mp h
  obtain ⟨⟨⟩, -, h⟩ := bind_eq_ok.mp h
  cases h
  rfl

theorem currentRecord_record {record found : LifecycleOperationRecord}
    (h : store.currentRecord (.record record) = .ok found) : found = record := by
  obtain ⟨current, hread, h⟩ := bind_eq_ok.mp h
  split at h
  · cases h
  · cases h; exact read_record hread

/-- Whichever call writes, the write has gone through everything it must. -/
theorem write_accepted {w : WriteCall} (h : store.write current w = some updated) :
    store.Accepted current w updated := by
  unfold LifecycleOperationStore.write at h
  split at h
  next outcome hcall =>
    cases w with
    | update transform =>
      obtain ⟨found, hfound, hbody⟩ := bind_eq_ok.mp hcall
      obtain rfl := currentRecord_record hfound
      exact transformCurrent_written hbody h
    | updateIfCurrent observed transform =>
      obtain ⟨found, hfound, hbody⟩ := bind_eq_ok.mp hcall
      obtain rfl := currentRecord_record hfound
      split at hbody
      · cases hbody; cases h
      · exact transformCurrent_written (w := .updateIfCurrent observed transform) hbody h
    | resumeGeneration transform expectedGeneration =>
      obtain ⟨found, hfound, hbody⟩ := bind_eq_ok.mp hcall
      split at hbody
      · cases hbody
      obtain rfl := read_record hfound
      split at hbody
      · cases hbody; cases h
      obtain ⟨result, hresult, hbody⟩ := bind_eq_ok.mp hbody
      obtain ⟨transformed, htransformed, hchanged⟩ := bind_eq_ok.mp hbody
      obtain ⟨rfl, -⟩ := modelValidate_ok htransformed
      obtain ⟨next, hnext, hchecks⟩ := bind_eq_ok.mp hchanged
      obtain ⟨⟨⟩, hresume, hchecks⟩ := bind_eq_ok.mp hchecks
      obtain ⟨⟨⟩, hwritable, hchecks⟩ := bind_eq_ok.mp hchecks
      cases hchecks
      cases h
      simp only [requireResume, inOrder_cons_ok, refuseIf_ok] at hresume
      obtain ⟨henvelope, hstatus, hattempt, hexpected, -⟩ := hresume
      push Not at hattempt hexpected
      exact ⟨hwritable, henvelope, ⟨_, hresult, advanceRecordRevision_ok hnext⟩,
        .inr ⟨hstatus, hattempt, hexpected.1⟩⟩
  · cases h

end store

end AgentsRemember.Lifecycle
