import AgentsRemember.Control.Interrupts
import AgentsRemember.Foundation.Runs

/-!
# Control — InterruptCalls

The steps of an interrupt and of its status, between the turns of the harness.
One turn runs at a time and ends with one terminal frame; pi gives a stop reason
also where a turn goes on, behind the message that calls a tool. The snapshot lags
behind the log of evidence, the log lets go of its oldest frames, and a page of
it may be of any length.
-/

namespace AgentsRemember.Control

open Submission

/-! ## The harness -/

/-- A frame of the log, with the turn that it ends. -/
structure EvidenceEntry where
  frame : EvidenceFrame
  turn : Option String

/-- The sequence of the frame. -/
def EvidenceEntry.sequence (entry : EvidenceEntry) : Nat := entry.frame.sequence

/-- What the harness has written, and the turns it ran. -/
structure EvidenceLog where
  sequence : Nat := 0
  /-- The last sequence that a snapshot shows. -/
  published : Nat := 0
  entries : List EvidenceEntry := []
  evictedBefore : Nat := 0
  /-- The turns that have started. -/
  turns : List String := []
  active : Option String := none

section log
variable (log : EvidenceLog)

/-- The entries that come after a sequence. -/
def EvidenceLog.after (sequence : Nat) : List EvidenceEntry :=
  log.entries.filter fun entry => sequence < entry.sequence

/-- What of them the log still holds. -/
def EvidenceLog.unread (after : Nat) : List EvidenceEntry :=
  (log.after log.evictedBefore).filter fun entry => after < entry.sequence

/-- One frame more. -/
def EvidenceLog.append (kind : String) (raw : List (String × Datum)) (turn : Option String) :
    EvidenceLog :=
  { log with
    sequence := log.sequence + 1
    entries := log.entries ++ [⟨⟨log.sequence + 1, kind, raw⟩, turn⟩] }

/-- The frame that comes next. -/
def EvidenceLog.nextFrame (kind : String) (raw : List (String × Datum)) : EvidenceFrame :=
  ⟨log.sequence + 1, kind, raw⟩

end log

/-- What a harness may do. -/
inductive HarnessStep where
  /-- An event that leaves no evidence. -/
  | event
  | publish
  | frame (kind : String) (raw : List (String × Datum))
  | startTurn (turnId : String)
  | endTurn (kind : String) (raw : List (String × Datum))
  | evict (before : Nat)

/-- One step of a harness; none where no turn allows it. -/
def EvidenceLog.step (harness : HarnessId) (log : EvidenceLog) : HarnessStep → Option EvidenceLog
  | .event => some { log with sequence := log.sequence + 1 }
  | .publish => some { log with published := log.sequence }
  | .frame kind raw =>
    -- a result of codex or Claude ends a turn, a stop reason of pi need not
    if harness ≠ .pi ∧ (log.nextFrame kind raw).terminal harness then none
    else some (log.append kind raw none)
  | .startTurn turnId =>
    if log.active ≠ none ∨ turnId ∈ log.turns then none
    else some { log with turns := log.turns ++ [turnId], active := some turnId }
  | .endTurn kind raw => log.active.bind fun turnId =>
    if (log.nextFrame kind raw).ends harness turnId then
      some { log.append kind raw (some turnId) with active := none }
    else none
  | .evict before => some { log with evictedBefore := max log.evictedBefore before }

/-! ## Pages -/

/-- A page of the log. -/
structure EvidencePage where
  frames : List EvidenceFrame
  truncated : Bool

/-- A page of the evidence after a sequence, with `more` frames behind the first. -/
def EvidenceLog.page (log : EvidenceLog) (after more : Nat) : EvidencePage where
  frames := ((log.unread after).take (more + 1)).map (·.frame)
  truncated := decide (more + 1 < (log.unread after).length)

/-- The first outcome that the frames of a page give to a turn. -/
def firstOutcome (harness : HarnessId) (turnId : String) :
    List EvidenceFrame → Except String (Option Outcome)
  | [] => .ok none
  | frame :: frames =>
    match frameOutcome harness turnId frame with
    | .error e => .error e
    | .ok (some outcome) => .ok (some outcome)
    | .ok none => firstOutcome harness turnId frames

/-- The stop reason behind some more frames. -/
def lastStopReason (seen : Option String) (frames : List EvidenceFrame) : Option String :=
  frames.foldl (fun seen frame => (stopReason frame).orElse fun _ => seen) seen

/-- How a reader goes on behind a page. -/
inductive Reading where
  | raised (message : String)
  | decided (outcome : Option Outcome)
  | more (after : Nat) (seen : Option String)

/-- A page, read in the dialect of the harness. -/
def readPage (harness : HarnessId) (turnId : String) (after : Nat) (seen : Option String)
    (page : EvidencePage) : Reading :=
  let next := Watermark.after EvidenceFrame.sequence after page.frames
  match harness with
  | .pi =>
    let seen := lastStopReason seen page.frames
    if page.truncated then .more next seen else .decided (seen.map piStopOutcome)
  | _ =>
    match firstOutcome harness turnId page.frames with
    | .error e => .raised e
    | .ok (some outcome) => .decided (some outcome)
    | .ok none => if page.truncated then .more next seen else .decided none

/-- The row states that are still open. -/
def openRowStates : List SubmissionLifecycleState := [.queued, .dispatching, .unknown]

/-- The rows show that the operation of the record is not open any more. -/
def rowSettled (items : List OperationTimelineItem) (record : InterruptRecord) : Bool :=
  match record.operationId with
  | none => false
  | some operationId =>
    match items.find? fun item =>
        item.identity.kind = .prompt && item.identity.operationId = operationId with
    | none => false
    | some row => decide (row.state ∉ openRowStates)

/-! ## Calls -/

/-- A call that waits for the lock. -/
inductive InterruptWaiting where
  | interrupt (ticket : InterruptTicket)
  | status (record : Nat) (reconcile : Bool)

/-- The call that holds the session lock. -/
inductive InterruptHolder where
  | writing (ticket : InterruptTicket) (requestedAt : String)
  | rewriting (record : Nat)
  | timeline (record : Nat)
  | paging (record after : Nat) (seen : Option String)

/-- What a caller is answered. -/
inductive InterruptAnswer where
  | operation (operation : InterruptOperation)
  | raised (message : String)

/-- The answer of a projection. -/
def InterruptAnswer.ofProjection : Except String InterruptOperation → InterruptAnswer
  | .ok projected => .operation projected
  | .error message => .raised message

/-- The harness, the ledger and the calls in flight. -/
structure InterruptSystem where
  log : EvidenceLog := {}
  channel : InterruptChannel := {}
  /-- The interrupts that have read their snapshot and not looked at the ledger yet. -/
  called : List InterruptTicket := []
  waiting : List InterruptWaiting := []
  holder : Option InterruptHolder := none
  /-- What the last step answered to a caller. -/
  answered : Option InterruptAnswer := none

/-- One section of a call, or one step of the harness. -/
inductive InterruptStep where
  | harness (step : HarnessStep)
  /-- The snapshot of an interrupt, which says why it cannot be interrupted, where it cannot. -/
  | snapshot (authorization : AuthorizationBinding) (turnId requestId : String)
      (unsupported : Option String)
  | begin (i : Nat)
  | status (authorization : AuthorizationBinding) (turnId requestId : String) (reconcile : Bool)
  | acquire (i : Nat) (now : String)
  | land (crossing : InterruptCrossing) (now : String)
  | readTimeline (items : List OperationTimelineItem)
  | readEvidence (more : Nat) (now : String)
  | abandonCalled (i : Nat)
  | abandonWaiting (i : Nat)
  /-- The holder fails, on a flipped epoch for one, or is cancelled. -/
  | abandonHolder

/-- The message of a request id used twice. -/
def interruptConflict (requestId : String) : String :=
  "interrupt request id '" ++ requestId ++ "' already belongs to its first tuple"

section system
variable (authority : InterruptAuthority) (s : InterruptSystem)

/-- A caller is answered. -/
def InterruptSystem.answer (answer : InterruptAnswer) : InterruptSystem :=
  { s with answered := some answer }

/-- The answer of the holder, which lets go of the lock. -/
def InterruptSystem.release (channel : InterruptChannel) (answer : InterruptAnswer) :
    InterruptSystem :=
  { s with channel := channel, holder := none, answered := some answer }

/-- A call waits for the lock. -/
def InterruptSystem.wait (channel : InterruptChannel) (waiting : InterruptWaiting) :
    InterruptSystem :=
  { s with channel := channel, waiting := s.waiting ++ [waiting], answered := none }

/-- The record of a request that is retained already answers it. -/
def replayInterrupt (ticket : InterruptTicket) (record : InterruptRecord) : InterruptAnswer :=
  if record.fingerprint ≠ ticket.fingerprint then .raised (interruptConflict ticket.requestId)
  else .ofProjection record.projection

/-- `interrupt` behind its snapshot: the ledger is looked at before the lock. -/
def InterruptSystem.begin (ticket : InterruptTicket) : InterruptSystem :=
  match s.channel.retained ticket.requestId with
  | none => s.wait s.channel (.interrupt ticket)
  | some (_, record) =>
    if record.fingerprint ≠ ticket.fingerprint then
      s.answer (.raised (interruptConflict ticket.requestId))
    else { s with channel := s.channel.touch ticket.requestId }.answer
      (.ofProjection record.projection)

/-- `interrupt_status` up to the lock. -/
def InterruptSystem.status (authorization : AuthorizationBinding) (turnId requestId : String)
    (reconcile : Bool) : InterruptSystem :=
  match s.channel.retained requestId with
  | none => s.answer (.raised ("interrupt '" ++ requestId ++
      "' is not retained by this control authority"))
  | some (i, record) =>
    if record.fingerprint ≠ authority.fingerprint authorization turnId requestId then
      s.answer (.raised ("interrupt request id '" ++ requestId ++ "' names a different tuple"))
    else if record.settlement = .pending then
      s.wait (s.channel.touch requestId) (.status i reconcile)
    else { s with channel := s.channel.touch requestId }.answer (.ofProjection record.projection)

/-- `_observe_settlement` up to its first await. -/
def InterruptSystem.observe (i : Nat) (record : InterruptRecord) : InterruptSystem :=
  let holder : InterruptHolder :=
    if record.harnessId = .pi then .timeline i else .paging i record.evidenceFloor none
  { s with holder := some holder, answered := none }

/-- The rest of `interrupt_status` behind `_redrive_unknown`. -/
def InterruptSystem.observePending (i : Nat) (record : InterruptRecord) : InterruptSystem :=
  if record.settlement = .pending then s.observe i record
  else s.release s.channel (.ofProjection record.projection)

/-- The first section under the lock. -/
def InterruptSystem.hold (now : String) : InterruptWaiting → Option InterruptSystem
  | .interrupt ticket =>
    some (match s.channel.retained ticket.requestId with
      | some (_, record) => s.answer (replayInterrupt ticket record)
      | none => { s with holder := some (.writing ticket now), answered := none })
  | .status i reconcile => (s.channel.records[i]?).map fun record =>
    if reconcile = true ∧ record.acknowledgement = .unknown then
      { s with holder := some (.rewriting i), answered := none }
    else s.observePending i record

/-- The native write of an interrupt has come back. -/
def InterruptSystem.landWrite (ticket : InterruptTicket) (requestedAt now : String)
    (crossing : InterruptCrossing) : InterruptSystem :=
  match driveInterrupt authority ticket requestedAt now crossing with
  | .error message => s.release s.channel (.raised message)
  | .ok record => s.release (s.channel.store record) (.ofProjection record.projection)

/-- The native write of a reconcile has come back. -/
def InterruptSystem.landRewrite (i : Nat) (record : InterruptRecord) (now : String)
    (crossing : InterruptCrossing) : InterruptSystem :=
  match record.redriven now crossing with
  | .error message => s.release s.channel (.raised message)
  | .ok record => { s with channel := s.channel.setRecord i record }.observePending i record

/-- The holder's native write has come back. -/
def InterruptSystem.land (crossing : InterruptCrossing) (now : String) : Option InterruptSystem :=
  match s.holder with
  | some (.writing ticket requestedAt) => some (s.landWrite authority ticket requestedAt now crossing)
  | some (.rewriting i) => (s.channel.records[i]?).map fun record =>
    s.landRewrite i record now crossing
  | _ => none

/-- The rows decide whether the stop reason is looked for at all. -/
def InterruptSystem.readTimeline (items : List OperationTimelineItem) (i : Nat)
    (record : InterruptRecord) : InterruptSystem :=
  if rowSettled items record then
    { s with holder := some (.paging i record.evidenceFloor none), answered := none }
  else s.release s.channel (.ofProjection record.projection)

/-- One page read for one record. -/
def InterruptSystem.readEvidence (more : Nat) (now : String) (i : Nat) (record : InterruptRecord)
    (after : Nat) (seen : Option String) : InterruptSystem :=
  match readPage record.harnessId record.turnId after seen (s.log.page after more) with
  | .raised message => s.release s.channel (.raised message)
  | .more after seen => { s with holder := some (.paging i after seen), answered := none }
  | .decided none => s.release s.channel (.ofProjection record.projection)
  | .decided (some outcome) =>
    s.release (s.channel.setRecord i (record.settle now outcome))
      (.ofProjection (record.settle now outcome).projection)

/-- One step; none where nothing is there to take it. -/
def InterruptSystem.step : InterruptStep → Option InterruptSystem
  | .harness step => (s.log.step authority.harness step).map fun log =>
    { s with log := log, answered := none }
  | .snapshot authorization turnId requestId unsupported =>
    match unsupported with
    | some reason => some (s.answer (.raised reason))
    | none => some { s with
        called := s.called ++ [⟨turnId, requestId,
          authority.fingerprint authorization turnId requestId, s.log.published⟩]
        answered := none }
  | .begin i => (s.called[i]?).map fun ticket =>
    { s with called := s.called.eraseIdx i }.begin ticket
  | .status authorization turnId requestId reconcile =>
    some (s.status authority authorization turnId requestId reconcile)
  | .acquire i now =>
    -- the session lock has one holder
    if s.holder ≠ none then none
    else (s.waiting[i]?).bind fun waiting =>
      { s with waiting := s.waiting.eraseIdx i }.hold now waiting
  | .land crossing now => s.land authority crossing now
  | .readTimeline items =>
    match s.holder with
    | some (.timeline i) => (s.channel.records[i]?).map (s.readTimeline items i)
    | _ => none
  | .readEvidence more now =>
    match s.holder with
    | some (.paging i after seen) => (s.channel.records[i]?).map fun record =>
      s.readEvidence more now i record after seen
    | _ => none
  | .abandonCalled i => some { s with called := s.called.eraseIdx i, answered := none }
  | .abandonWaiting i => some { s with waiting := s.waiting.eraseIdx i, answered := none }
  | .abandonHolder => some { s with holder := none, answered := none }

end system

end AgentsRemember.Control
