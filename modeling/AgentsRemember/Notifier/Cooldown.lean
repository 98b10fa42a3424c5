import AgentsRemember.Foundation.Newest
import AgentsRemember.Foundation.Stamps
import AgentsRemember.Inbox.Transitions
import Mathlib.Data.String.Basic

/-!
# Notifier — Cooldown

The signals that the agent notifier has posted and the cooldown it reads off them
(`controlplane/agent_notifier_signals.py`). The lookup takes the textually last
stamp of the signal's records and reads that one; the compaction reads every stamp
and drops what lies before the window. Where the textually last stamp is dropped,
another record answers from then on (`cooldown_kept_iff`).
-/

namespace AgentsRemember.Notifier

open Inbox (AgentRole InboxDeliveryState TaskDocumentRef requireRedeliveryFloor
  minRedeliveryInterval)
open Stamps (Stamp)

/-- The one state of a signal. -/
inductive AgentNotifierSignalState where
  | sent
  deriving DecidableEq

/-- A signal that was posted. -/
structure AgentNotifierSignalRecord where
  id : String
  ts : String
  state : AgentNotifierSignalState := .sent
  targetAgentId : Option String := none
  targetLifecycleId : Option String := none
  targetRole : Option AgentRole := none
  taskDocumentRef : Option TaskDocumentRef := none
  seatRole : Option String := none
  findingKind : String
  detail : String
  deliveryState : InboxDeliveryState
  deriving DecidableEq

/-- Whom a signal was for. -/
structure AgentNotifierSignalTarget where
  agentId : Option String := none
  lifecycleId : Option String := none
  role : Option AgentRole := none
  taskDocumentRef : Option TaskDocumentRef := none
  seatRole : Option String := none

/-- What a cooldown is kept for. -/
structure AgentNotifierSignalKey where
  target : AgentNotifierSignalTarget
  findingKind : String
  detail : String

/-- The log as a read returns it. -/
abbrev SignalLog := List AgentNotifierSignalRecord

/-! ## The lookup -/

/-- The same target was told the same thing. -/
def AgentNotifierSignalKey.matches (signal : AgentNotifierSignalKey)
    (record : AgentNotifierSignalRecord) : Bool :=
  record.state = .sent && record.targetAgentId = signal.target.agentId &&
    record.targetLifecycleId = signal.target.lifecycleId &&
    record.targetRole = signal.target.role &&
    record.taskDocumentRef = signal.target.taskDocumentRef &&
    record.seatRole = signal.target.seatRole && record.findingKind = signal.findingKind &&
    record.detail = signal.detail

/-- The first of the records with the greatest stamp, as text. -/
def lastSent (signal : AgentNotifierSignalKey) (records : SignalLog) :
    Option AgentNotifierSignalRecord :=
  (records.filter signal.matches).argmax (·.ts)

/-- Why a cooldown cannot be read. -/
inductive CooldownError where
  | belowFloor
  | naiveStamp
  deriving DecidableEq

section store
variable (fromisoformat : String → Option Stamp)

/-- Whether an identical signal was sent within the window. A stamp that cannot be
read is no signal; one without an offset cannot be subtracted from the clock. -/
def inCooldown (signal : AgentNotifierSignalKey) (now cooldown : Int) (records : SignalLog) :
    Except CooldownError Bool :=
  match requireRedeliveryFloor (some cooldown) with
  | none => .error .belowFloor
  | some floor =>
    match lastSent signal records with
    | none => .ok false
    | some previous =>
      match fromisoformat previous.ts with
      | none => .ok false
      | some (.naive _) => .error .naiveStamp
      | some (.aware ts) => .ok (decide (now - ts < floor))

/-! ## The compaction -/

/-- A stamp stays that cannot be read, has no offset, or is not before the cutoff. -/
def fresh (cutoff : Int) (record : AgentNotifierSignalRecord) : Bool :=
  match fromisoformat record.ts with
  | none => true
  | some (.naive _) => true
  | some (.aware ts) => cutoff ≤ ts

/-- What a compaction leaves and returns. -/
structure Compaction where
  log : SignalLog
  removed : Nat
  kept : SignalLog

/-- The records without those before the window. -/
def compactLocked (records : SignalLog) (now retain : Int) : Compaction :=
  let kept := records.filter (fresh fromisoformat (now - retain))
  let removed := records.length - kept.length
  { log := if removed ≠ 0 then kept else records
    removed := removed
    kept := kept }

/-- The kept list is what is on disk, whether or not the log was written. -/
theorem compactLocked_log (records : SignalLog) (now retain : Int) :
    (compactLocked fromisoformat records now retain).log =
      (compactLocked fromisoformat records now retain).kept := by
  unfold compactLocked
  dsimp only
  split
  · rfl
  · rename_i hnone
    have hle := List.length_filter_le (fresh fromisoformat (now - retain)) records
    have hlength : (records.filter (fresh fromisoformat (now - retain))).length =
        records.length := by omega
    exact (List.filter_eq_self.mpr (List.length_filter_eq_length_iff.mp hlength)).symm

/-! ## The verdict afterwards -/

/-- A record that suppresses nothing from a moment on: its stamp cannot be read, or
is at least the floor old. -/
def Cooled (now cooldown : Int) (record : AgentNotifierSignalRecord) : Prop :=
  fromisoformat record.ts = none ∨
    ∃ ts, fromisoformat record.ts = some (.aware ts) ∧ cooldown ≤ now - ts

/-- Where the textually last record of a signal is too old to stay, the textually
last of those that stay suppresses nothing. -/
def SuccessorCooled (signal : AgentNotifierSignalKey) (records : SignalLog)
    (now cooldown retain : Int) : Prop :=
  ∀ aged ∈ records.filter signal.matches, fresh fromisoformat (now - retain) aged = false →
    (∀ other ∈ records.filter signal.matches, other.ts ≤ aged.ts) →
    ∀ row ∈ records.filter signal.matches, fresh fromisoformat (now - retain) row = true →
      (∀ other ∈ records.filter signal.matches, fresh fromisoformat (now - retain) other = true →
        other.ts ≤ row.ts) →
      Cooled fromisoformat now cooldown row

variable {signal : AgentNotifierSignalKey} {records : SignalLog} {now cooldown retain : Int}

/-- The verdict on the record that answers. -/
def verdictOf (now cooldown : Int) (record : AgentNotifierSignalRecord) :
    Except CooldownError Bool :=
  match fromisoformat record.ts with
  | none => .ok false
  | some (.naive _) => .error .naiveStamp
  | some (.aware ts) => .ok (decide (now - ts < cooldown))

theorem inCooldown_eq (hfloor : minRedeliveryInterval ≤ cooldown) (later : Int) :
    inCooldown fromisoformat signal later cooldown records =
      ((lastSent signal records).map (verdictOf fromisoformat later cooldown)).getD (.ok false) := by
  have hadmitted : requireRedeliveryFloor (some cooldown) = some cooldown := if_neg (by omega)
  unfold inCooldown
  rw [hadmitted]
  cases lastSent signal records <;> rfl

theorem verdictOf_eq_false_iff {record : AgentNotifierSignalRecord} :
    verdictOf fromisoformat now cooldown record = .ok false ↔
      Cooled fromisoformat now cooldown record := by
  unfold verdictOf Cooled
  cases fromisoformat record.ts with
  | none => simp
  | some stamp => cases stamp <;> simp

/-- The verdict depends on the stamp's text only. -/
theorem verdictOf_congr {record other : AgentNotifierSignalRecord} (h : record.ts = other.ts) :
    verdictOf fromisoformat now cooldown record = verdictOf fromisoformat now cooldown other := by
  unfold verdictOf
  rw [h]

theorem Cooled.later {later : Int} (h : now ≤ later) {record : AgentNotifierSignalRecord}
    (hcooled : Cooled fromisoformat now cooldown record) :
    Cooled fromisoformat later cooldown record := by
  rcases hcooled with hnone | ⟨ts, hts, hold⟩
  · exact .inl hnone
  · exact .inr ⟨ts, hts, by omega⟩

/-- The record that answers has the greatest stamp. -/
theorem exists_argmax {rows : SignalLog} {row : AgentNotifierSignalRecord} (hrow : row ∈ rows)
    (hlast : ∀ other ∈ rows, other.ts ≤ row.ts) :
    ∃ last, rows.argmax (·.ts) = some last ∧ last.ts = row.ts := by
  cases hargmax : rows.argmax (·.ts) with
  | none =>
    rw [List.argmax_eq_none.mp hargmax] at hrow
    cases hrow
  | some last =>
    exact ⟨last, rfl, le_antisymm (hlast last (List.argmax_mem hargmax))
      (List.le_of_mem_argmax hrow hargmax)⟩

/-- A record that is dropped lies further back than the floor. -/
theorem aged_of_not_fresh {record : AgentNotifierSignalRecord}
    (h : fresh fromisoformat (now - retain) record = false) :
    ∃ ts, fromisoformat record.ts = some (.aware ts) ∧ retain < now - ts := by
  unfold fresh at h
  cases hread : fromisoformat record.ts with
  | none => simp [hread] at h
  | some stamp =>
    cases stamp with
    | naive wallClock => simp [hread] at h
    | aware ts =>
      simp only [hread, decide_eq_false_iff_not] at h
      exact ⟨ts, rfl, by omega⟩

theorem lastSent_kept :
    lastSent signal (compactLocked fromisoformat records now retain).kept =
      ((records.filter signal.matches).filter
        (fresh fromisoformat (now - retain))).argmax (·.ts) := by
  unfold lastSent compactLocked
  dsimp only
  rw [List.filter_filter, List.filter_filter]
  congr 2
  funext record
  exact Bool.and_comm _ _

/-- **The verdict of a signal after a compaction**: the kept list is what is on disk,
and its verdict is that of the whole log from then on exactly when a dropped record
that was textually last is followed by one that suppresses nothing. -/
theorem cooldown_kept_iff (hfloor : minRedeliveryInterval ≤ cooldown)
    (hretain : cooldown ≤ retain) :
    (compactLocked fromisoformat records now retain).kept =
        (compactLocked fromisoformat records now retain).log ∧
      ((∀ later, now ≤ later →
          inCooldown fromisoformat signal later cooldown
              (compactLocked fromisoformat records now retain).log =
            inCooldown fromisoformat signal later cooldown records) ↔
        SuccessorCooled fromisoformat signal records now cooldown retain) := by
  refine ⟨(compactLocked_log fromisoformat records now retain).symm, ?_⟩
  rw [compactLocked_log]
  constructor
  · intro hsame aged haged hstale hlast row hrow hfresh hnext
    have hnow := hsame now le_rfl
    rw [inCooldown_eq fromisoformat hfloor, inCooldown_eq fromisoformat hfloor, lastSent_kept]
      at hnow
    obtain ⟨first, hfirst, hfirstts⟩ := exists_argmax haged hlast
    obtain ⟨kept, hkept, hkeptts⟩ := exists_argmax (List.mem_filter.mpr ⟨hrow, hfresh⟩)
      fun other hother => hnext other (List.mem_filter.mp hother).1 (List.mem_filter.mp hother).2
    obtain ⟨ts, hts, hold⟩ := aged_of_not_fresh fromisoformat hstale
    have haged : verdictOf fromisoformat now cooldown aged = .ok false :=
      (verdictOf_eq_false_iff fromisoformat).mpr (.inr ⟨ts, hts, by omega⟩)
    rw [lastSent, hfirst, hkept, Option.map_some, Option.map_some, Option.getD_some,
      Option.getD_some, verdictOf_congr fromisoformat hfirstts,
      verdictOf_congr fromisoformat hkeptts, haged] at hnow
    exact (verdictOf_eq_false_iff fromisoformat).mp hnow
  · intro hcooled later hlater
    rw [inCooldown_eq fromisoformat hfloor, inCooldown_eq fromisoformat hfloor, lastSent_kept,
      lastSent]
    cases hlast : (records.filter signal.matches).argmax (·.ts) with
    | none => rw [List.argmax_eq_none.mp hlast, List.filter_nil, List.argmax_nil]
    | some last =>
      cases hfresh : fresh fromisoformat (now - retain) last with
      | true => rw [Newest.argmax_filter hlast hfresh]
      | false =>
        have hmem := List.argmax_mem hlast
        obtain ⟨ts, hts, hold⟩ := aged_of_not_fresh fromisoformat hfresh
        have haged : verdictOf fromisoformat later cooldown last = .ok false :=
          (verdictOf_eq_false_iff fromisoformat).mpr (.inr ⟨ts, hts, by omega⟩)
        rw [Option.map_some, Option.getD_some, haged]
        -- the record that answers now, where one is left
        cases hkept : ((records.filter signal.matches).filter
          (fresh fromisoformat (now - retain))).argmax (·.ts) with
        | none => rfl
        | some kept =>
          obtain ⟨hkeptmem, hkeptfresh⟩ := List.mem_filter.mp (List.argmax_mem hkept)
          have hrest := hcooled last hmem hfresh
            (fun other hother => List.le_of_mem_argmax hother hlast) kept hkeptmem hkeptfresh
            fun other hother hstays =>
              List.le_of_mem_argmax (List.mem_filter.mpr ⟨hother, hstays⟩) hkept
          rw [Option.map_some, Option.getD_some, verdictOf_eq_false_iff]
          exact hrest.later fromisoformat hlater

end store

/-! ## An offset in front of the clock -/

/-- A signal about a stalled pane. -/
def paneSignal (ts : String) : AgentNotifierSignalRecord where
  id := ts
  ts := ts
  targetAgentId := some "agent"
  findingKind := "stalled-pane"
  detail := "no output"
  deliveryState := .queued

/-- What such signals are keyed by. -/
def paneKey : AgentNotifierSignalKey where
  target := { agentId := some "agent" }
  findingKind := "stalled-pane"
  detail := "no output"

/-- One o'clock in the night of the second of January 2026. -/
def oneOClock : Int := 1767315600 * Stamps.second

/-- A day-old stamp written fourteen hours ahead is textually last; the signal of
five minutes ago suppresses only once that one is dropped. -/
theorem offset_unmasks :
    inCooldown Stamps.readExtended paneKey oneOClock minRedeliveryInterval
        [paneSignal "2026-01-02T00:55:00+00:00", paneSignal "2026-01-02T01:00:00+14:00"] =
      .ok false ∧
    inCooldown Stamps.readExtended paneKey oneOClock minRedeliveryInterval
        (compactLocked Stamps.readExtended
          [paneSignal "2026-01-02T00:55:00+00:00", paneSignal "2026-01-02T01:00:00+14:00"]
          oneOClock minRedeliveryInterval).log = .ok true := by
  decide

/-- Two stamps in one offset. -/
theorem cooldown_kept_aligned :
    inCooldown Stamps.readExtended paneKey oneOClock minRedeliveryInterval
        (compactLocked Stamps.readExtended
          [paneSignal "2026-01-02T00:55:00+00:00", paneSignal "2026-01-01T11:00:00+00:00"]
          oneOClock minRedeliveryInterval).log =
      inCooldown Stamps.readExtended paneKey oneOClock minRedeliveryInterval
        [paneSignal "2026-01-02T00:55:00+00:00", paneSignal "2026-01-01T11:00:00+00:00"] :=
  ((cooldown_kept_iff Stamps.readExtended (by decide) le_rfl).2.mpr (by
    intro aged haged hstale hlast
    have hfirst := hlast (paneSignal "2026-01-02T00:55:00+00:00") (by decide)
    have hmem : aged ∈ [paneSignal "2026-01-02T00:55:00+00:00",
      paneSignal "2026-01-01T11:00:00+00:00"] := (List.mem_filter.mp haged).1
    rcases List.mem_cons.mp hmem with rfl | hmem
    · exact absurd hstale (by decide)
    · obtain rfl := List.mem_singleton.mp hmem
      exact absurd hfirst (by decide))) oneOClock le_rfl

end AgentsRemember.Notifier
