import AgentsRemember.Foundation.Json

/-!
# Gates — Records

The durable gate record `ar-gate-record/v1` (`controlplane/records.py`) and
the gate vocabulary. A gate is a sequence of snapshots under one id; each
state change is a function from a snapshot to the next, and who folds the
log decides which snapshot stands.
-/

namespace AgentsRemember.Gates

/-! ## The vocabulary -/

/-- The kinds of gate. -/
inductive GateKind where
  | planApproval | worktreeIntent | closeoutApproval | pushApproval
  | integrationApproval | masterHandoverApproval | cleanupApproval
  | agentQuestion | providerRetry | alarmAck
  deriving DecidableEq

/-- The states of a gate. -/
inductive GateState where
  | opened | approved | rejected | revisionRequested | applied | cancelled | expired
  deriving DecidableEq

/-- Where a decision came in. -/
inductive DecidedVia where
  | chat | dashboard | cli | orchestration
  deriving DecidableEq

/-- The kinds of evidence. -/
inductive GateEvidenceKind where
  | reviewerVerdict
  deriving DecidableEq

/-- The text a literal has on the wire, where a record or a message has it. -/
def GateKind.wire : GateKind → String
  | .planApproval => "plan-approval"
  | .worktreeIntent => "worktree-intent"
  | .closeoutApproval => "closeout-approval"
  | .pushApproval => "push-approval"
  | .integrationApproval => "integration-approval"
  | .masterHandoverApproval => "master-handover-approval"
  | .cleanupApproval => "cleanup-approval"
  | .agentQuestion => "agent-question"
  | .providerRetry => "provider-retry"
  | .alarmAck => "alarm-ack"

/-- The state as the record has it. -/
def GateState.wire : GateState → String
  | .opened => "open"
  | .approved => "approved"
  | .rejected => "rejected"
  | .revisionRequested => "revision-requested"
  | .applied => "applied"
  | .cancelled => "cancelled"
  | .expired => "expired"

/-- The channel as the record has it. -/
def DecidedVia.wire : DecidedVia → String
  | .chat => "chat"
  | .dashboard => "dashboard"
  | .cli => "cli"
  | .orchestration => "orchestration"

/-- The evidence kind as the record has it. -/
def GateEvidenceKind.wire : GateEvidenceKind → String
  | .reviewerVerdict => "reviewer-verdict"

/-- All kinds. -/
def gateKinds : List GateKind :=
  [.planApproval, .worktreeIntent, .closeoutApproval, .pushApproval, .integrationApproval,
    .masterHandoverApproval, .cleanupApproval, .agentQuestion, .providerRetry, .alarmAck]

/-- All states. -/
def gateStates : List GateState :=
  [.opened, .approved, .rejected, .revisionRequested, .applied, .cancelled, .expired]

/-- All channels. -/
def decidedVias : List DecidedVia := [.chat, .dashboard, .cli, .orchestration]

/-! ## The record -/

/-- Text before and after the first full stop. -/
def splitVersion (value : List Char) : List Char × List Char :=
  (value.takeWhile (· ≠ '.'), (value.dropWhile (· ≠ '.')).drop 1)

/-- Digits, at least one. -/
def isDigits (s : List Char) : Bool := !s.isEmpty && s.all Char.isDigit

/-- The schema major that is read. -/
def supportedSchemaMajor : Nat := 1

/-- `schema_version_supported`: the major this build implements, any minor. -/
def schemaVersionSupported (value : String) : Bool :=
  let (major, minor) := splitVersion value.toList
  isDigits major && isDigits minor
    && major.foldl (fun n d => 10 * n + (d.toNat - '0'.toNat)) 0 == supportedSchemaMajor

/-- A schema version a reader takes: no other is ever in a record. -/
structure SchemaVersion where
  value : String
  supported : schemaVersionSupported value = true

/-- The schema version that is written. -/
def schemaVersion : SchemaVersion := ⟨"1.0", by decide⟩

/-- The schema of a gate record. -/
def gateRecordSchema : String := "ar-gate-record/v1"

/-- A review payload: a JSON object, so no member is named twice. -/
structure Packet where
  members : List (String × Json)
  unique : Json.Unique (.obj members)

/-- A packet of nothing. -/
def Packet.empty : Packet := ⟨[], by simp [Json.Unique, Json.UniqueMembers]⟩

/-- Evidence for a decision. -/
structure GateEvidenceRef where
  kind : GateEvidenceKind
  ref : String
  verdict : Option String := none

/-- One `ar-gate-record/v1` snapshot. -/
structure GateRecord where
  schemaVersion : SchemaVersion := Gates.schemaVersion
  schema : String := gateRecordSchema
  id : String
  ts : String
  kind : GateKind
  state : GateState
  lifecycleId : Option String := none
  enclosure : Option String := none
  repoId : Option String := none
  packet : Packet := Packet.empty
  requiredDecision : Option (List String) := none
  decidedBy : Option String := none
  decidedVia : Option DecidedVia := none
  decidingRole : Option String := none
  decisionNote : Option String := none
  decidedAt : Option String := none
  evidenceRefs : List GateEvidenceRef := []
  appliedOperation : Option String := none

/-! ## The transitions -/

/-- What the gate is raised against. -/
structure GateAnchor where
  lifecycleId : Option String := none
  enclosure : Option String := none
  repoId : Option String := none

/-- What the decider is handed. -/
structure GateRequest where
  packet : Packet := Packet.empty
  requiredDecision : Option (List String) := none
  evidenceRefs : List GateEvidenceRef := []

/-- The decision verbs of the tool boundary. -/
inductive Decision where
  | approve | reject | requestRevision | cancel
  deriving DecidableEq

/-- The decision as a request has it. -/
def Decision.wire : Decision → String
  | .approve => "approve"
  | .reject => "reject"
  | .requestRevision => "request-revision"
  | .cancel => "cancel"

/-- `DECISION_STATES`, asked with the verb as it is written. -/
def decisionOf (verb : String) : Option Decision :=
  [Decision.approve, .reject, .requestRevision, .cancel].find? (·.wire = verb)

/-- The state a decision leads to. -/
def Decision.state : Decision → GateState
  | .approve => .approved
  | .reject => .rejected
  | .requestRevision => .revisionRequested
  | .cancel => .cancelled

/-- One decider's verdict on a gate. -/
structure GateVerdict where
  decision : String
  via : DecidedVia
  by_ : Option String := none
  note : Option String := none
  decidingRole : Option String := none

/-- An open gate. -/
def createGate (kind : GateKind) (gateId now : String) (anchor : GateAnchor)
    (request : GateRequest) : GateRecord where
  id := gateId
  ts := now
  kind := kind
  state := .opened
  lifecycleId := anchor.lifecycleId
  enclosure := anchor.enclosure
  repoId := anchor.repoId
  packet := request.packet
  requiredDecision := request.requiredDecision
  evidenceRefs := request.evidenceRefs

/-- A new snapshot carrying the decision; the state is what the verb means. -/
def decideGate (gate : GateRecord) (decision : Decision) (verdict : GateVerdict)
    (now : String) (evidenceRefs : List GateEvidenceRef) : GateRecord :=
  { gate with
    ts := now
    state := decision.state
    decidedBy := verdict.by_
    decidedVia := some verdict.via
    decidingRole := verdict.decidingRole
    decisionNote := verdict.note
    decidedAt := some now
    evidenceRefs := gate.evidenceRefs ++ evidenceRefs }

/-- The snapshot of an expired gate. -/
def expireGate (gate : GateRecord) (now : String) : GateRecord :=
  { gate with ts := now, state := .expired }

/-- The snapshot of a spent gate. -/
def applyGate (gate : GateRecord) (now : String) (operationKey : Option String) :
    GateRecord :=
  { gate with ts := now, state := .applied, appliedOperation := operationKey }

/-- The snapshot of a gate that is open again. -/
def reopenGate (gate : GateRecord) (now : String) : GateRecord :=
  { gate with
    ts := now
    state := .opened
    decidedBy := none
    decidedVia := none
    decidingRole := none
    decisionNote := none
    decidedAt := none }

/-! ## What a transition leaves alone -/

section Frames

variable (gate : GateRecord) (decision : Decision) (verdict : GateVerdict)
  (now : String) (refs : List GateEvidenceRef) (key : Option String)

@[simp] theorem decideGate_id : (decideGate gate decision verdict now refs).id = gate.id := rfl

@[simp] theorem decideGate_kind :
    (decideGate gate decision verdict now refs).kind = gate.kind := rfl

@[simp] theorem decideGate_state :
    (decideGate gate decision verdict now refs).state = decision.state := rfl

@[simp] theorem decideGate_ts : (decideGate gate decision verdict now refs).ts = now := rfl

@[simp] theorem decideGate_lifecycleId :
    (decideGate gate decision verdict now refs).lifecycleId = gate.lifecycleId := rfl

@[simp] theorem expireGate_id : (expireGate gate now).id = gate.id := rfl

@[simp] theorem expireGate_kind : (expireGate gate now).kind = gate.kind := rfl

@[simp] theorem expireGate_state : (expireGate gate now).state = .expired := rfl

@[simp] theorem expireGate_ts : (expireGate gate now).ts = now := rfl

@[simp] theorem applyGate_id : (applyGate gate now key).id = gate.id := rfl

@[simp] theorem applyGate_kind : (applyGate gate now key).kind = gate.kind := rfl

@[simp] theorem applyGate_state : (applyGate gate now key).state = .applied := rfl

@[simp] theorem applyGate_appliedOperation :
    (applyGate gate now key).appliedOperation = key := rfl

@[simp] theorem reopenGate_id : (reopenGate gate now).id = gate.id := rfl

@[simp] theorem reopenGate_kind : (reopenGate gate now).kind = gate.kind := rfl

@[simp] theorem reopenGate_state : (reopenGate gate now).state = .opened := rfl

end Frames

/-- No verb opens, spends or supersedes a gate. -/
theorem Decision.state_ne (d : Decision) :
    d.state ≠ .opened ∧ d.state ≠ .applied ∧ d.state ≠ .expired := by
  cases d <;> decide

end AgentsRemember.Gates
