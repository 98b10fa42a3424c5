import AgentsRemember.Foundation.Stamps
import AgentsRemember.Inbox.Writers

/-!
# Inbox — Backoff

Which pending rows a sweep may deliver again (`kernel/primitives/inbox_backoff.py`):
those past their backoff window and clear of the rate limit. Both are read off the
row's own snapshot, so a row's schedule is as good as the snapshot at hand.
-/

namespace AgentsRemember.Inbox

open Stamps (Stamp)

/-- `isoformat` and `fromisoformat`: an instant that was written is read back. -/
structure Calendar where
  isoformat : Int → String
  fromisoformat : String → Option Stamp
  fromisoformat_isoformat : ∀ t, fromisoformat (isoformat t) = some (.aware t)

namespace Calendar

/-- The clock of the retention and of the schedule, by the calendar. -/
def clock (c : Calendar) : Clock where
  age now stamp :=
    match c.fromisoformat now, c.fromisoformat stamp with
    | some (.aware now), some (.aware stamp) => some (now - stamp)
    | _, _ => none
  later now microseconds :=
    match c.fromisoformat now with
    | some (.aware now) => some (c.isoformat (now + microseconds))
    | _ => none

@[simp] theorem later_isoformat (c : Calendar) (now microseconds : Int) :
    c.clock.later (c.isoformat now) microseconds = some (c.isoformat (now + microseconds)) := by
  simp [clock, c.fromisoformat_isoformat]

/-- The instant of a stamp that has one. -/
def instant (c : Calendar) (stamp : String) : Option Int :=
  match c.fromisoformat stamp with
  | some (.aware t) => some t
  | _ => none

@[simp] theorem instant_isoformat (c : Calendar) (t : Int) :
    c.instant (c.isoformat t) = some t := by
  simp [instant, c.fromisoformat_isoformat]

end Calendar

/-- The configured interval of the redelivery, which the settings refuse below a
quarter of an hour, and the floor it comes to. -/
structure Cadence where
  seconds : Option Int
  floor : Int
  floor_eq : requireRedeliveryFloor seconds = some floor

theorem Cadence.min_le_floor (cadence : Cadence) : minRedeliveryInterval ≤ cadence.floor := by
  have h := cadence.floor_eq
  unfold requireRedeliveryFloor at h
  split at h
  · rw [Option.some.injEq] at h
    omega
  · split at h
    · cases h
    · rw [Option.some.injEq] at h
      omega

theorem requireRedeliveryFloor_some {rate floor : Int}
    (h : requireRedeliveryFloor (some rate) = some floor) : floor = rate := by
  unfold requireRedeliveryFloor at h
  dsimp only at h
  split at h
  · cases h
  · rw [Option.some.injEq] at h
    omega

/-! ## The predicates -/

/-- Why a schedule cannot be read. -/
inductive BackoffError where
  /-- an instant is compared with a wall clock time -/
  | naiveStamp
  /-- the interval is below a quarter of an hour -/
  | belowFloor
  deriving DecidableEq

/-- The delivery states that may be delivered again. -/
def redeliverableDeliveryStates : List InboxDeliveryState :=
  [.queued, .noHostedSession, .delivered, .unconfirmed]

/-- The row was resolved by the ladder. -/
def isLadderResolved (entry : OperatorInboxEntry) : Bool := entry.state = .ladderResolved

section predicates
variable (c : Calendar)

/-- The row is past its backoff window. -/
def isDue (entry : OperatorInboxEntry) (now : Int) : Except BackoffError Bool :=
  if isLadderResolved entry ∨ entry.state ≠ .pending then .ok false
  else if entry.deliveryState ∉ redeliverableDeliveryStates then .ok false
  else match entry.nextAttemptAt with
    | none => .ok true
    | some stamp =>
      match c.fromisoformat stamp with
      | none => .ok true
      | some (.naive _) => .error .naiveStamp
      | some (.aware dueAt) => .ok (decide (dueAt ≤ now))

/-- The row was attempted within the rate limit. -/
def isRateLimited (entry : OperatorInboxEntry) (now rateLimit : Int) :
    Except BackoffError Bool :=
  match requireRedeliveryFloor (some rateLimit) with
  | none => .error .belowFloor
  | some floor =>
    match entry.lastAttemptAt with
    | none => .ok false
    | some stamp =>
      match c.fromisoformat stamp with
      | none => .ok false
      | some (.naive _) => .error .naiveStamp
      | some (.aware lastAttempt) => .ok (decide (now - lastAttempt < floor))

/-- The condition of the comprehension in `redeliverable`. -/
def admits (entry : OperatorInboxEntry) (now rateLimit : Int) : Except BackoffError Bool :=
  if isLadderResolved entry then .ok false
  else match isDue c entry now with
    | .ok true => (isRateLimited c entry now rateLimit).map (!·)
    | answer => answer

/-- The rows that may be delivered again, in their order. -/
def redeliverable (now rateLimit : Int) :
    List OperatorInboxEntry → Except BackoffError (List OperatorInboxEntry)
  | [] => .ok []
  | entry :: entries =>
    match admits c entry now rateLimit with
    | .error e => .error e
    | .ok keep =>
      (redeliverable now rateLimit entries).map fun rest =>
        if keep then entry :: rest else rest

/-- `OperatorInboxStore.list_redeliverable`, of a fold that the caller has. -/
def listRedeliverable (current : InboxFold) (now : Int) (rateLimit : Option Int) :
    Except BackoffError (List OperatorInboxEntry) :=
  redeliverable c now (rateLimit.getD minRedeliveryInterval)
    ((current.map Prod.snd).filter fun entry => entry.state = .pending)

end predicates

section
variable {c : Calendar}

/-- What the sweep selects are rows it was given, in their order, each of which
is admitted. -/
theorem redeliverable_ok {now rateLimit : Int} {entries selected : List OperatorInboxEntry}
    (h : redeliverable c now rateLimit entries = .ok selected) :
    selected.Sublist entries ∧ ∀ entry ∈ selected, admits c entry now rateLimit = .ok true := by
  induction entries generalizing selected with
  | nil =>
    cases h
    simp
  | cons entry entries ih =>
    unfold redeliverable at h
    cases hkeep : admits c entry now rateLimit with
    | error e =>
      rw [hkeep] at h
      cases h
    | ok keep =>
      rw [hkeep] at h
      cases hrest : redeliverable c now rateLimit entries with
      | error e =>
        rw [hrest] at h
        cases h
      | ok rest =>
        rw [hrest] at h
        obtain ⟨hsub, hall⟩ := ih hrest
        cases keep with
        | false =>
          cases h
          exact ⟨hsub.cons _, hall⟩
        | true =>
          cases h
          refine ⟨hsub.cons_cons _, ?_⟩
          intro e he
          rcases List.mem_cons.mp he with rfl | he
          · exact hkeep
          · exact hall e he

theorem isDue_ok {entry : OperatorInboxEntry} {now : Int} (h : isDue c entry now = .ok true) :
    entry.state = .pending ∧ ∀ stamp due, entry.nextAttemptAt = some stamp →
      c.instant stamp = some due → due ≤ now := by
  unfold isDue at h
  split at h
  · cases h
  rename_i hstate
  rw [not_or, not_not] at hstate
  refine ⟨hstate.2, ?_⟩
  intro stamp due hnext hinstant
  split at h
  · cases h
  unfold Calendar.instant at hinstant
  split at hinstant
  · rename_i t hread
    cases hinstant
    rw [hnext] at h
    dsimp only at h
    rw [hread, Except.ok.injEq, decide_eq_true_eq] at h
    exact h
  · cases hinstant

theorem isRateLimited_ok {entry : OperatorInboxEntry} {now rateLimit : Int}
    (h : isRateLimited c entry now rateLimit = .ok false) (stamp : String) (last : Int)
    (hlast : entry.lastAttemptAt = some stamp) (hinstant : c.instant stamp = some last) :
    rateLimit ≤ now - last := by
  unfold isRateLimited at h
  split at h
  · cases h
  rename_i floor hfloor
  obtain rfl := requireRedeliveryFloor_some hfloor
  unfold Calendar.instant at hinstant
  split at hinstant
  · rename_i t hread
    cases hinstant
    rw [hlast] at h
    dsimp only at h
    rw [hread, Except.ok.injEq, decide_eq_false_iff_not] at h
    omega
  · cases hinstant

/-- An admitted row is pending, its window has elapsed, and its last attempt is at
least the interval ago. -/
structure Admitted (c : Calendar) (entry : OperatorInboxEntry) (now rateLimit : Int) : Prop where
  pending : entry.state = .pending
  due : ∀ stamp due, entry.nextAttemptAt = some stamp → c.instant stamp = some due → due ≤ now
  clear : ∀ stamp last, entry.lastAttemptAt = some stamp → c.instant stamp = some last →
    rateLimit ≤ now - last

theorem admits_ok {entry : OperatorInboxEntry} {now rateLimit : Int}
    (h : admits c entry now rateLimit = .ok true) : Admitted c entry now rateLimit := by
  unfold admits at h
  split at h
  · cases h
  split at h
  · rename_i hdue
    obtain ⟨hpending, hwindow⟩ := isDue_ok hdue
    refine ⟨hpending, hwindow, ?_⟩
    cases hlimited : isRateLimited c entry now rateLimit with
    | error e =>
      rw [hlimited] at h
      cases h
    | ok limited =>
      rw [hlimited] at h
      cases limited with
      | true => cases h
      | false => exact isRateLimited_ok hlimited
  · rename_i hanswer
    exact absurd h hanswer

end

/-! ## The schedule of a row -/

/-- What the attempts have left on a row. -/
structure Schedule where
  attemptCount : Nat := 0
  lastAttemptAt : Option String := none
  nextAttemptAt : Option String := none
  deriving DecidableEq

/-- The part of a row that its schedule is read off. -/
def OperatorInboxEntry.schedule (entry : OperatorInboxEntry) : Schedule where
  attemptCount := entry.attemptCount
  lastAttemptAt := entry.lastAttemptAt
  nextAttemptAt := entry.nextAttemptAt

/-- What an attempt on a pending row writes. -/
def attemptedSchedule (clock : Clock) (entry : OperatorInboxEntry) (attempt : DeliveryAttempt)
    (now : String) (seconds : Option Int) : Schedule where
  attemptCount := entry.attemptCount + 1
  lastAttemptAt := some now
  nextAttemptAt :=
    if attempt.lands entry then none
    else nextAttemptAt clock now (entry.attemptCount + 1) seconds

theorem deliveredSnapshot_schedule {clock : Clock} {entry snapshot : OperatorInboxEntry}
    {attempt : DeliveryAttempt} {now : String} {seconds : Option Int}
    (hpending : entry.state = .pending) (hlands : attempt.lands entry = false)
    (h : deliveredSnapshot clock entry attempt now seconds = some snapshot) :
    snapshot.schedule = attemptedSchedule clock entry attempt now seconds := by
  unfold deliveredSnapshot at h
  dsimp only at h
  rw [if_pos hpending] at h
  obtain ⟨next, hnext, rfl⟩ := Option.map_eq_some_iff.mp h
  simp [OperatorInboxEntry.schedule, attemptedSchedule, deliveryEvidenceUpdate, hlands, hnext]

theorem rebindSnapshot_schedule (entry : OperatorInboxEntry) (owner : InboxOwner)
    (now : String) : (rebindSnapshot entry owner now).schedule = {} := rfl

theorem completionSnapshot_schedule (entry : OperatorInboxEntry)
    (completion : AdapterCompletion) (now : String) :
    (completionSnapshot entry completion now).schedule = entry.schedule := rfl

theorem renewSnapshot_schedule (entry : OperatorInboxEntry) (renewal : InboxRenewal)
    (now : String) : (renewSnapshot entry renewal now).schedule = entry.schedule := by
  unfold renewSnapshot
  cases renewal.readdressTo <;> rfl

/-- The next attempt is put off by the floor at least. -/
theorem nextAttemptAt_isoformat {c : Calendar} (cadence : Cadence) (now : Int) (count : Nat) :
    ∃ wait, cadence.floor ≤ wait ∧ nextAttemptAt c.clock (c.isoformat now) count cadence.seconds =
      some (c.isoformat (now + wait)) := by
  refine ⟨max (backoffForAttempt count) cadence.floor, le_max_right _ _, ?_⟩
  simp [nextAttemptAt, cadence.floor_eq]

/-! ## What leaves the schedules alone -/

/-- Each row that is pending afterwards was so before, with the same schedule. -/
def SameSchedules (log log' : Log) : Prop :=
  ∀ id row', rowOf log' id = some row' → row'.state = .pending →
    ∃ row, rowOf log id = some row ∧ row.state = .pending ∧ row'.schedule = row.schedule

theorem SameSchedules.refl (log : Log) : SameSchedules log log :=
  fun _ row hrow hpending => ⟨row, hrow, hpending, rfl⟩

theorem SameSchedules.filter {log log' : Log} (h : SameSchedules log log') (keep : String → Bool) :
    SameSchedules log (log'.filter fun r => keep r.id) := by
  intro id row' hrow hpending
  rw [rowOf_filter] at hrow
  split at hrow
  · exact h id row' hrow hpending
  · cases hrow

theorem Resolved.sameSchedules {log updates : Log} (h : Resolved log updates) :
    SameSchedules log (log ++ updates) := by
  intro id row' hrow hpending
  rcases h.row id with hsame | ⟨row, updated, -, -, hupdated, hterminal, -⟩
  · exact ⟨row', hsame ▸ hrow, hpending, rfl⟩
  · rw [hupdated] at hrow
    cases hrow
    exact absurd hpending hterminal

theorem transition_sameSchedules {log log' : Log} {entryId : String} {row : OperatorInboxEntry}
    {apply : OperatorInboxEntry → Option OperatorInboxEntry} (happly : Resolves apply)
    (h : transition log entryId apply = some (log', row)) : SameSchedules log log' := by
  obtain ⟨updates, rfl, hresolved, -⟩ := transition_eq happly h
  exact hresolved.sameSchedules

theorem consume_sameSchedules {log log' : Log} {entryId now consumedBy : String}
    {consumedVia : OperatorInboxVia} {row : OperatorInboxEntry}
    (h : consume log entryId now consumedBy consumedVia = some (log', row)) :
    SameSchedules log log' := by
  obtain ⟨current, hcurrent, heq⟩ := Option.map_eq_some_iff.mp h
  split at heq
  · cases heq
    exact .refl log
  rename_i hstate
  split at heq
  · cases heq
    exact .refl log
  rename_i consumed hconsumed
  cases heq
  unfold consumeOperatorInboxEntry at hconsumed
  split at hconsumed
  · cases hconsumed
  cases hconsumed
  intro id row' hrow hpending
  rw [rowOf_snoc] at hrow
  have hid := (mem_of_rowOf hcurrent).2
  split at hrow
  · rename_i hsame
    dsimp only at hsame
    rw [← hsame, hid, hcurrent, over_pending (Decidable.not_not.mp hstate)] at hrow
    cases hrow
    exact ⟨current, by rw [← hsame, hid]; exact hcurrent, Decidable.not_not.mp hstate, rfl⟩
  · exact ⟨row', hrow, hpending, rfl⟩

end AgentsRemember.Inbox
