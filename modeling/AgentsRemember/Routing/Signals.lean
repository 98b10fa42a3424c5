import AgentsRemember.Routing.Seats
import Mathlib.Logic.Relation

/-!
# Routing — Signals

Who a signal goes to (`controlplane/signal_routing.py`): one hop up the task
hierarchy from the sender's document and role, and the architect of the sprint
for a decision item. A pending row is routed again from what is stamped on it.

`SeatAbove` says what one hop up is, `SprintOf` which sprint contains a
document. The task hierarchy is what the topology reads from the documents
there are; a document it cannot resolve is an error of its own.
-/

namespace AgentsRemember.Routing

open Inbox (AgentRole TaskDocumentRef InboxMessageKind OperatorInboxEntry)

/-- The levels of the task hierarchy. -/
inductive TaskAltitude where
  | sprint | master | leaf
  deriving DecidableEq

/-- The level as a message has it. -/
def TaskAltitude.text : TaskAltitude → String
  | .sprint => "sprint"
  | .master => "master"
  | .leaf => "leaf"

/-- Why an owner cannot be derived. -/
inductive RoutingError where
  /-- `StructuralRoutingError` -/
  | structural (message : String)
  /-- `TaskDocumentRefError` of the topology -/
  | documentRef (status detail : String)

/-- The containment of task documents. A parent is one of the documents there are. -/
structure TaskHierarchy where
  documents : List TaskDocumentRef
  parent : TaskDocumentRef → Except RoutingError (Option TaskDocumentRef)
  altitude : TaskDocumentRef → Except RoutingError TaskAltitude
  parent_mem : ∀ document p, parent document = .ok (some p) → p ∈ documents

/-- A stable owner seat plus its current private delivery correlations. -/
structure RoutedOwner where
  role : Option AgentRole := none
  taskDocumentRef : Option TaskDocumentRef := none
  agentId : Option String := none
  lifecycleId : Option String := none

/-- Who holds a seat now. -/
def currentOccupant (catalog : SeatCatalog) (document : TaskDocumentRef) (role : AgentRole) :
    Except RoutingError RoutedOwner :=
  match currentSeatOccupant catalog.list document (roleText role) with
  | .error ambiguity => .error (.structural ambiguity)
  | .ok none => .ok { role := some role, taskDocumentRef := some document }
  | .ok (some occupant) =>
    .ok { role := some role
          taskDocumentRef := some document
          agentId := some occupant.id
          lifecycleId := occupant.lifecycleId }

/-- The sender's document, where the caller does not name one. -/
def signalTaskDocumentRef (catalog : SeatCatalog) (senderAgentId : Option String)
    (taskDocumentRef : Option TaskDocumentRef) : Option TaskDocumentRef :=
  taskDocumentRef.or ((senderAgentId.bind catalog.get).bind SeatRow.bindingTaskDocumentRef)

/-- The parent of a document, which is to exist. -/
def requiredParent (hierarchy : TaskHierarchy) (document : TaskDocumentRef) :
    Except RoutingError TaskDocumentRef := do
  match ← hierarchy.parent document with
  | none => .error (.structural
      s!"task document {documentKey document} has no structural parent")
  | some parent => .ok parent

/-- The loop of `_sprint_document`. Each turn but the first sees one more of the
documents there are, so the fuel of `sprintDocument` is never used up. -/
def climb (hierarchy : TaskHierarchy) :
    Nat → TaskDocumentRef → List TaskDocumentRef → Except RoutingError TaskDocumentRef
  | 0, current, _ => .ok current
  | fuel + 1, current, seen => do
    if current ∈ seen then
      throw (.structural s!"task containment cycle at {documentKey current}")
    match ← hierarchy.parent current with
    | none => return current
    | some parent => climb hierarchy fuel parent (current :: seen)

/-- The sprint above a document. -/
def sprintDocument (hierarchy : TaskHierarchy) (document : TaskDocumentRef) :
    Except RoutingError TaskDocumentRef :=
  climb hierarchy (hierarchy.documents.length + 2) document []

/-- The current manager of the master containing the document. -/
def deriveManagerOwner (catalog : SeatCatalog) (hierarchy : TaskHierarchy)
    (document : TaskDocumentRef) : Except RoutingError RoutedOwner := do
  let master ← requiredParent hierarchy document
  currentOccupant catalog master .manager

/-- The current architect on the sprint containing the document. -/
def deriveArchitectOwner (catalog : SeatCatalog) (hierarchy : TaskHierarchy)
    (document : TaskDocumentRef) : Except RoutingError RoutedOwner := do
  let sprint ← sprintDocument hierarchy document
  currentOccupant catalog sprint .architect

/-! ## The reviewer -/

/-- The parents a reviewer's stamp may name. -/
def allowedReviewerParents (hierarchy : TaskHierarchy) (document : TaskDocumentRef) :
    Except RoutingError (List Seat) := do
  match ← hierarchy.altitude document with
  | .leaf =>
    let parent ← requiredParent hierarchy document
    return [(parent, .manager)]
  | .master => return [(document, .manager)]
  | .sprint => return [(document, .architect), (document, .orchestrator)]

/-- `_validate_reviewer_parent`: the seat the stamp names, where it is allowed. -/
def validateReviewerParent (hierarchy : TaskHierarchy) (document parentDocument : TaskDocumentRef)
    (parentRole : String) : Except RoutingError Seat := do
  let allowed ← allowedReviewerParents hierarchy document
  match allowed.find? fun seat => decide ((seat.1, roleText seat.2) = (parentDocument, parentRole)) with
  | some seat => return seat
  | none => throw (.structural (s!"reviewer {documentKey document} has invalid structural parent " ++
      s!"{documentKey parentDocument} as {parentRole}"))

/-- The owner above a reviewer. -/
def reviewerParentOwner (catalog : SeatCatalog) (hierarchy : TaskHierarchy)
    (document : TaskDocumentRef) (structuralParent : Option TaskDocumentRef × Option String) :
    Except RoutingError RoutedOwner :=
  match structuralParent with
  | (some parentDocument, some parentRole) => do
    let seat ← validateReviewerParent hierarchy document parentDocument parentRole
    currentOccupant catalog seat.1 seat.2
  | (none, none) => do
    match ← hierarchy.altitude document with
    -- pre-polymorphic reviewer rows were leaf-only and had one deterministic owner
    | .leaf => deriveManagerOwner catalog hierarchy document
    | altitude => throw (.structural
        s!"{altitude.text} reviewer {documentKey document} has no plane-stamped structural parent")
  | _ => .error (.structural
      s!"reviewer {documentKey document} has an incomplete structural parent address")

/-! ## One hop -/

/-- The owner one hop up, by the sender's role. -/
def structuralParentOwner (catalog : SeatCatalog) (hierarchy : TaskHierarchy)
    (document : TaskDocumentRef) (role : String)
    (structuralParent : Option TaskDocumentRef × Option String := (none, none)) :
    Except RoutingError (Option RoutedOwner) :=
  if role ∈ ["worker", "curator"] then some <$> deriveManagerOwner catalog hierarchy document
  else if role = "reviewer" then
    some <$> reviewerParentOwner catalog hierarchy document structuralParent
  else if role = "manager" then do
    let parent ← requiredParent hierarchy document
    some <$> currentOccupant catalog parent .orchestrator
  else if role ∈ ["orchestrator", "strategist", "designer"] then
    some <$> currentOccupant catalog document .architect
  else if role = "system-specialist" then some <$> currentOccupant catalog document .orchestrator
  else .ok none

/-- `derive_signal_owner`. -/
def deriveSignalOwner (catalog : SeatCatalog) (hierarchy : TaskHierarchy)
    (senderAgentId : Option String) (messageKind : InboxMessageKind)
    (taskDocumentRef : Option TaskDocumentRef := none) : Except RoutingError RoutedOwner :=
  match signalTaskDocumentRef catalog senderAgentId taskDocumentRef with
  | none => .ok {}
  | some document =>
    if messageKind = .decisionItem then deriveArchitectOwner catalog hierarchy document
    else match senderAgentId.bind catalog.get with
      | none => .ok {}
      | some sender => do
        let owner ← structuralParentOwner catalog hierarchy document sender.bindingRole
          (sender.structuralParentTaskDocumentRef, sender.structuralParentRole)
        return owner.getD {}

/-! ## The pending row -/

/-- Who holds the seat that was stamped. -/
def ownerForStampedSeat (catalog : SeatCatalog) (entry : OperatorInboxEntry) :
    Except RoutingError RoutedOwner :=
  match entry.ownerRole, entry.ownerTaskDocumentRef with
  | some role, some document => currentOccupant catalog document role
  | _, _ => .ok {}

/-- `entry.seatRole or entry.senderRole`. -/
def stampedRole (entry : OperatorInboxEntry) : Option String :=
  match entry.seatRole with
  | none | some "" => entry.senderRole.map roleText
  | some role => some role

/-- `derive_row_owner`. -/
def deriveRowOwner (catalog : SeatCatalog) (hierarchy : TaskHierarchy)
    (entry : OperatorInboxEntry) : Except RoutingError RoutedOwner :=
  if entry.messageKind = .dispatchBrief then .ok {}
  else match entry.subjectTaskDocumentRef, stampedRole entry with
    | some document, some role =>
      if role = "reviewer" ∧ entry.ownerTaskDocumentRef ≠ none then
        ownerForStampedSeat catalog entry
      else do
        match ← structuralParentOwner catalog hierarchy document role with
        | some owner => return owner
        | none => ownerForStampedSeat catalog entry
    | _, _ => ownerForStampedSeat catalog entry

end AgentsRemember.Routing
