import AgentsRemember.Foundation.Pacing
import AgentsRemember.Inbox.Backoff

/-!
# Inbox — Redelivery

The notifier's sweep over the inbox (`serving/agent_notifier.py`,
`_agent_notifier_actions.py`, `owner_signals.py`), beside every other writer. A
sweep folds the log once, finds what to do in that fold and does it one row at a
time, putting back into the fold what it is given. Three of its actions push a
row: a scheduled redelivery, the drain of a row whose seat has come to a turn
boundary, and an owner's signal that is posted or renewed. Only the first was
selected by `redeliverable`.

What the catalog says (whose seat is reachable, and since when at a boundary) and
what an adapter answers are arbitrary.
-/

namespace AgentsRemember.Inbox

/-- `PERSISTENT_FAILURE_ATTEMPTS`. -/
def persistentFailureAttempts : Nat := 5

/-- A store call that an action still owes. -/
inductive Owed where
  /-- the row has reached the attempt ceiling -/
  | resolve (entryId : String)
  /-- the row of a signal is to be pushed -/
  | deliver (entryId : String)

/-- A sweep on its way. -/
structure Sweep where
  /-- whose fold is `sweep.inbox_current` -/
  writer : Nat
  now : Int
  /-- the rows of the retired landing rule that are still to be folded -/
  legacy : List String
  /-- whether the findings are made -/
  selected : Bool := false
  /-- the `inbox-redeliverable` findings not acted on yet -/
  scheduled : List String := []
  /-- the `boundary-drain` findings not acted on yet -/
  drains : List String := []
  owed : Option Owed := none

/-- The inbox, with the notifier at work on it. For each row is kept on record what
the latest attempt or rebind wrote, and the attempts since its last rebind. -/
structure Notifier where
  world : World
  sweep : Option Sweep := none
  latest : String → Schedule
  attempts : List (String × Int) := []

/-- Pre-migration rows that satisfied the by-rule landing predicate. -/
def isLegacyLanded (row : OperatorInboxEntry) : Bool :=
  row.state = .pending && row.messageKind = .stateSignal && row.deliveryState = .delivered &&
    row.adapterDeliveryState = some .accepted

section findings
variable (c : Calendar)

/-- Whether a boundary is a new delivery opportunity for one pending row. -/
def boundaryFollowsLastAttempt (entry : OperatorInboxEntry) (boundaryAt : Int) :
    Except BackoffError Bool :=
  match entry.lastAttemptAt with
  | none => .ok (entry.messageKind = .stateSignal)
  | some stamp =>
    match c.fromisoformat stamp with
    | none => .ok false
    | some (.naive _) => .error .naiveStamp
    | some (.aware attemptedAt) => .ok (decide (attemptedAt < boundaryAt))

/-- The rows to drain. `boundary` is the instant since which a row's target is at a
turn boundary, where it is and the row is not fenced. -/
def evaluateBoundaryDrains (boundary : String → Option Int) :
    List OperatorInboxEntry → Except BackoffError (List String)
  | [] => .ok []
  | entry :: entries =>
    if entry.state ≠ .pending then evaluateBoundaryDrains boundary entries
    else match boundary entry.id with
      | none => evaluateBoundaryDrains boundary entries
      | some boundaryAt =>
        match boundaryFollowsLastAttempt c entry boundaryAt with
        | .error e => .error e
        | .ok follows =>
          (evaluateBoundaryDrains boundary entries).map fun rest =>
            if follows then entry.id :: rest else rest

end findings

/-- What a call of another writer leaves alone: attempts and rebinds are modelled
on their own, and the sweep's fold is the sweep's. -/
def Act.foreign (sweep : Option Sweep) : Act → Bool
  | .call (.recordDelivery ..) _ | .call (.rebindEntry ..) _ => false
  | .call _ (some writer) => sweep.all fun sw => sw.writer != writer
  | _ => true

/-- The id of the row a call creates. -/
def Act.mints : Act → Option String
  | .call made _ => made.mints
  | _ => none

namespace Notifier

/-- A notifier over a log. -/
def start (log : InboxLog) : Notifier where
  world := Inbox.start log
  latest id := ((rowOf log.entries id).map (·.schedule)).getD {}

/-- For the record: what was written last on a row. -/
def note (s : Notifier) (entryId : String) (schedule : Schedule) : Notifier :=
  { s with latest := fun id => if id = entryId then schedule else s.latest id }

/-- What a sweep does next, or what another writer does. -/
inductive Move where
  /-- a sweep resolves and compacts, and keeps the fold -/
  | beginSweep (now : Int) (reasons : List (String × String))
      (registeredExecutionIds : List String)
  | foldLegacyLanded
  | select (budget : Nat) (actionable : String → Bool) (boundary : String → Option Int)
  | redeliver (attempt : DeliveryAttempt)
  | drainBoundary (attempt : DeliveryAttempt)
  | markUnresolved
  | renewSignal (entryId : String) (renewal : InboxRenewal)
  | postSignal (entryId : String) (message : InboxMessage) (routing : InboxRouting)
      (poster : InboxPoster)
  | deliverSignal (attempt : DeliveryAttempt)
  | rebindDue (entryId : String) (owner : InboxOwner)
  | expire (expiries : List (String × ExpiryOptions))
  /-- the sweep is over, or its process is -/
  | endSweep
  /-- another process pushes a row that it posted -/
  | deliver (writer : Nat) (entryId : String) (attempt : DeliveryAttempt) (now : Int)
  | other (act : Act)

section step
variable (c : Calendar) (cadence : Cadence)

/-- One push of a row that a writer holds, recorded unless the store raises. -/
def attempt (s : Notifier) (writer : Nat) (entry : OperatorInboxEntry) (a : DeliveryAttempt)
    (now : Int) (remember : Option Nat) : Notifier × Bool :=
  let recorded := Inbox.step c.clock s.world
    (.call (.recordDelivery writer entry.id a (c.isoformat now) cadence.seconds) remember)
  ({ s.note entry.id (attemptedSchedule c.clock entry a (c.isoformat now) cadence.seconds) with
      world := recorded.getD s.world
      attempts := s.attempts ++ [(entry.id, now)] }, recorded.isSome)

/-- `_redeliver`, after its finding is taken off the sweep. -/
def redeliverRow (s : Notifier) (sw : Sweep) (entryId : String) (a : DeliveryAttempt) :
    Notifier :=
  match requireEntry s.world.held sw.writer entryId with
  | none => { s with sweep := some sw }
  | some entry =>
    if entry.state ≠ .pending then { s with sweep := some sw }
    else
      let (s, recorded) := s.attempt c cadence sw.writer entry a sw.now (some sw.writer)
      let reached := (requireEntry s.world.held sw.writer entryId).any fun updated =>
        updated.state = .pending && persistentFailureAttempts ≤ updated.attemptCount
      { s with sweep :=
          if recorded then
            some { sw with owed := if reached then some (.resolve entryId) else none }
          else none }

/-- A store call of the sweep, which remembers what it returns. A call that raises
ends the sweep. -/
def remembering (s : Notifier) (sw : Sweep) (call : Call) : Notifier :=
  match Inbox.step c.clock s.world (.call call (some sw.writer)) with
  | none => { s with sweep := none }
  | some w => { s with world := w, sweep := some sw }

/-- The findings are made once, and acted on with nothing owed. -/
def Acting (sw : Sweep) : Prop := sw.selected = true ∧ sw.owed.isNone

instance (sw : Sweep) : Decidable (Acting sw) :=
  inferInstanceAs (Decidable (_ ∧ _))

/-- One step; none where the sweep is not at that point. -/
def step (s : Notifier) : Move → Option Notifier
  | .beginSweep now reasons registeredExecutionIds =>
    if s.sweep.isSome then none
    else (Inbox.step c.clock s.world
        (.sweep (c.isoformat now) reasons registeredExecutionIds)).map fun w =>
      let current := w.held.getLastD []
      { s with
        world := w
        sweep := some {
          writer := w.held.length - 1
          now := now
          legacy := (current.filter fun e => isLegacyLanded e.2).map Prod.fst } }
  | .foldLegacyLanded =>
    s.sweep.bind fun sw =>
      match sw.legacy with
      | [] => none
      | entryId :: legacy =>
        some (s.remembering c { sw with legacy := legacy }
          (.markLanded entryId (c.isoformat sw.now) "legacy-by-rule-landed"))
  | .select budget actionable boundary =>
    s.sweep.bind fun sw =>
      if sw.selected ∨ sw.legacy ≠ [] then none
      else
        let current := (s.world.held[sw.writer]?).getD []
        match listRedeliverable c current sw.now cadence.seconds,
            evaluateBoundaryDrains c boundary (current.map Prod.snd) with
        | .ok due, .ok drains => some { s with sweep := some { sw with
            selected := true
            scheduled := ((due.map (·.id)).filter actionable).take (max 1 budget)
            drains := drains.take (max 1 budget) } }
        | _, _ => some { s with sweep := none }
  | .redeliver a =>
    s.sweep.bind fun sw =>
      match sw.scheduled with
      | [] => none
      | entryId :: scheduled =>
        if Acting sw then
          some (s.redeliverRow c cadence { sw with scheduled := scheduled } entryId a)
        else none
  | .drainBoundary a =>
    s.sweep.bind fun sw =>
      match sw.drains with
      | [] => none
      | entryId :: drains =>
        if Acting sw ∧ sw.scheduled = [] then
          some (s.redeliverRow c cadence { sw with drains := drains } entryId a)
        else none
  | .markUnresolved =>
    s.sweep.bind fun sw =>
      match sw.owed with
      | some (.resolve entryId) =>
        -- a row that is gone is left
        match Inbox.step c.clock s.world
            (.call (.markUnresolved entryId (c.isoformat sw.now) "attempt-limit")
              (some sw.writer)) with
        | none => some { s with sweep := some { sw with owed := none } }
        | some w => some { s with world := w, sweep := some { sw with owed := none } }
      | _ => none
  | .renewSignal entryId renewal =>
    s.sweep.bind fun sw =>
      if Acting sw ∧ sw.scheduled = [] ∧
          (requireEntry s.world.held sw.writer entryId).any (·.state = .pending) then
        some (s.remembering c { sw with owed := some (.deliver entryId) }
          (.renew sw.writer entryId renewal (c.isoformat sw.now)))
      else none
  | .postSignal entryId message routing poster =>
    s.sweep.bind fun sw =>
      if Acting sw ∧ sw.scheduled = [] ∧ s.world.fresh entryId then
        some ((s.remembering c { sw with owed := some (.deliver entryId) }
          (.post message entryId (c.isoformat sw.now) routing poster)).note entryId {})
      else none
  | .deliverSignal a =>
    s.sweep.bind fun sw =>
      match sw.owed with
      | some (.deliver entryId) =>
        (requireEntry s.world.held sw.writer entryId).map fun entry =>
          let (s, recorded) := s.attempt c cadence sw.writer entry a sw.now (some sw.writer)
          { s with sweep := if recorded then some { sw with owed := none } else none }
      | _ => none
  | .rebindDue entryId owner =>
    s.sweep.bind fun sw =>
      if Acting sw ∧ sw.scheduled = [] ∧ owner.agentId ≠ none ∧
          (requireEntry s.world.held sw.writer entryId).any
            (fun entry => entry.state = .pending && entry.agentId ≠ owner.agentId) then
        let s := s.remembering c sw (.rebindEntry sw.writer entryId owner (c.isoformat sw.now))
        some { s.note entryId {} with attempts := s.attempts.filter fun e => e.1 ≠ entryId }
      else none
  | .expire expiries =>
    s.sweep.bind fun sw =>
      if Acting sw ∧ sw.scheduled = [] then
        some (s.remembering c sw (.expireMany (c.isoformat sw.now) expiries))
      else none
  | .endSweep => if s.sweep.isSome then some { s with sweep := none } else none
  | .deliver writer entryId a now =>
    if s.sweep.all fun sw => sw.writer != writer then
      (requireEntry s.world.held writer entryId).map fun entry =>
        (s.attempt c cadence writer entry a now none).1
    else none
  | .other act =>
    if act.foreign s.sweep then
      (Inbox.step c.clock s.world act).map fun w =>
        let s := { s with world := w }
        match act.mints with
        | none => s
        | some entryId => s.note entryId {}
    else none

end step

end Notifier

end AgentsRemember.Inbox
