import AgentsRemember.Inbox.Redelivery

/-!
# Inbox — Paced

Redeliveries keep the floor as long as each is made of a row that is due and whose
snapshot at hand is its latest. The scheduled ones are due by their selection; a
drain, a signal's push and another process's push are not selected so, and a writer
that appends an older snapshot takes the schedule back.
-/

namespace AgentsRemember.Inbox

open Stamps (Stamp)

/-! ## What a store call does to the folds -/

/-- The writer who puts what he is given into his fold. -/
def Act.remembers : Act → Option Nat
  | .call _ remember => remember
  | _ => none

/-- The folds after a call's rows are put back into one of them. -/
def heldAfter (held : List InboxFold) (rows : List OperatorInboxEntry) :
    Option Nat → List InboxFold
  | none => held
  | some writer => held.modify writer (remembered · rows)

theorem step_call {clock : Clock} {w w' : World} {call : Call} {remember : Option Nat}
    (h : step clock w (.call call remember) = some w') :
    ∃ log rows, call.run clock w.log w.held = some (log, rows) ∧
      w' = w.turn log (heldAfter w.held rows remember) := by
  simp only [step] at h
  split at h
  · obtain ⟨⟨log, rows⟩, hrun, heq⟩ := Option.map_eq_some_iff.mp h
    refine ⟨log, rows, hrun, ?_⟩
    cases remember <;> exact heq.symm
  · cases h

theorem step_sweep {clock : Clock} {w w' : World} {now : String}
    {reasons : List (String × String)} {registered : List String}
    (h : step clock w (.sweep now reasons registered) = some w') :
    w' = w.turn (reconcileAndCompact w.log (clock.age now) now reasons registered).1
      (w.held ++ [(reconcileAndCompact w.log (clock.age now) now reasons registered).2.filter
        fun e => e.2.state = .pending]) :=
  (Option.some.inj h).symm

/-- A fold into which nothing is remembered stays. -/
theorem step_held {clock : Clock} {w w' : World} {act : Act} (h : step clock w act = some w') :
    w.held.length ≤ w'.held.length ∧
      ∀ i, i < w.held.length → act.remembers ≠ some i → w'.held[i]? = w.held[i]? := by
  cases act with
  | read =>
    cases h
    refine ⟨by simp [World.turn], ?_⟩
    intro i hi _
    exact List.getElem?_append_left hi
  | call call remember =>
    obtain ⟨log, rows, -, rfl⟩ := step_call h
    cases remember with
    | none => exact ⟨le_rfl, fun _ _ _ => rfl⟩
    | some writer =>
      refine ⟨by simp [World.turn, heldAfter], ?_⟩
      intro i _ hne
      have hne : writer ≠ i := fun he => hne (congrArg some he)
      simp [World.turn, heldAfter, hne]
  | sweep now reasons registered =>
    cases h
    refine ⟨by simp [World.turn], ?_⟩
    intro i hi _
    exact List.getElem?_append_left hi

theorem lookup_remembered {rows : List OperatorInboxEntry} {fold : InboxFold} {id : String}
    (h : ∀ row ∈ rows, row.id ≠ id) : (remembered fold rows).lookup id = fold.lookup id := by
  induction rows generalizing fold with
  | nil => rfl
  | cons row rows ih =>
    have hrow : row.id ≠ id := h row (List.mem_cons_self ..)
    show (remembered (Keyed.set fold row.id row) rows).lookup id = _
    rw [ih fun r hr => h r (List.mem_cons_of_mem _ hr), Keyed.lookup_set, if_neg hrow]

theorem nodup_remembered {rows : List OperatorInboxEntry} {fold : InboxFold}
    (h : (fold.map Prod.fst).Nodup) : ((remembered fold rows).map Prod.fst).Nodup := by
  induction rows generalizing fold with
  | nil => exact h
  | cons row rows ih => exact ih (Keyed.nodup_keys_set h _ _)

/-- What is remembered of a call concerns the rows it returns. -/
theorem requireEntry_call {clock : Clock} {w w' : World} {call : Call} {writer : Nat}
    (h : step clock w (.call call (some writer)) = some w') {id : String}
    (hid : ∀ log rows, call.run clock w.log w.held = some (log, rows) →
      ∀ row ∈ rows, row.id ≠ id) :
    requireEntry w'.held writer id = requireEntry w.held writer id := by
  obtain ⟨log, rows, hrun, rfl⟩ := step_call h
  unfold requireEntry World.turn heldAfter
  simp only [List.getElem?_modify_eq]
  cases w.held[writer]? with
  | none => rfl
  | some fold => exact lookup_remembered (hid log rows hrun)

theorem transition_row_id {log log' : Log} {entryId : String} {row : OperatorInboxEntry}
    {apply : OperatorInboxEntry → Option OperatorInboxEntry} (happly : Resolves apply)
    (h : transition log entryId apply = some (log', row)) : row.id = entryId := by
  obtain ⟨latest, hlatest, heq⟩ := Option.map_eq_some_iff.mp h
  have hid := (mem_of_rowOf hlatest).2
  cases hupdated : apply latest with
  | none =>
    rw [hupdated] at heq
    cases heq
    exact hid
  | some updated =>
    rw [hupdated] at heq
    cases heq
    exact (happly.id hupdated).trans hid

/-! ## What a store call does to the schedules -/

/-- Calls that append no copy of a row at hand and no new row. -/
def Call.quiet : Call → Bool
  | .post .. | .recordDelivery .. | .rebindEntry .. | .recordAdapterCompletion .. | .renew .. =>
    false
  | _ => true

theorem run_sameSchedules {clock : Clock} {w : World} (hw : Kept w) {call : Call}
    (hquiet : call.quiet = true) {log : Log} {rows : List OperatorInboxEntry}
    (h : call.run clock w.log w.held = some (log, rows)) : SameSchedules w.log log := by
  cases call with
  | post | recordDelivery | rebindEntry | recordAdapterCompletion | renew => cases hquiet
  | markLanded entryId now reason =>
    obtain ⟨⟨log, row⟩, hr, heq⟩ := Option.map_eq_some_iff.mp h
    cases heq
    exact transition_sameSchedules (resolves_markLanded now reason) hr
  | markSuperseded entryId now reason supersededBy =>
    obtain ⟨⟨log, row⟩, hr, heq⟩ := Option.map_eq_some_iff.mp h
    cases heq
    exact transition_sameSchedules (resolves_markSuperseded now reason supersededBy) hr
  | markUnresolved entryId now reason =>
    obtain ⟨⟨log, row⟩, hr, heq⟩ := Option.map_eq_some_iff.mp h
    cases heq
    exact transition_sameSchedules (resolves_markUnresolved now reason) hr
  | markExpired entryId now options =>
    obtain ⟨⟨log, row⟩, hr, heq⟩ := Option.map_eq_some_iff.mp h
    cases heq
    exact transition_sameSchedules (resolves_expiryTransition now options) hr
  | expireMany now expiries =>
    obtain ⟨⟨updates, returned⟩, hr, heq⟩ := Option.map_eq_some_iff.mp h
    cases heq
    have happly : ∀ t ∈ expiries.map fun e => (e.1, expiryTransition now e.2),
        Resolves t.2 := by
      intro t ht
      obtain ⟨e, -, rfl⟩ := List.mem_map.mp ht
      exact resolves_expiryTransition now e.2
    exact (transitionAll_eq happly (fun _ => rfl) hr).1.sameSchedules
  | consume entryId now consumedBy consumedVia =>
    obtain ⟨⟨log, row⟩, hr, heq⟩ := Option.map_eq_some_iff.mp h
    cases heq
    exact consume_sameSchedules hr
  | delete entryId =>
    cases h
    have := (SameSchedules.refl w.log).filter fun id => id ≠ entryId
    exact this
  | deleteByGate gateId =>
    cases h
    obtain ⟨gate, hgate⟩ := hw.gate
    rw [deleteByGate_eq (hgate w.log hw.current)]
    exact (SameSchedules.refl w.log).filter fun id => gate id ≠ some gateId
  | compact now registeredExecutionIds =>
    cases h
    exact (SameSchedules.refl w.log).filter _

theorem sweep_sameSchedules (log : Log) (age : String → Option Int) (now : String)
    (reasons : List (String × String)) (registered : List String) :
    SameSchedules log (reconcileAndCompact log age now reasons registered).1 := by
  have hreviewed := (@resolveReviewed_eq now reasons (foldOperatorInboxEntries log) log
    (nodup_fold log) fun _ => rfl).1
  unfold reconcileAndCompact
  dsimp only
  split
  · exact hreviewed.sameSchedules.filter _
  · exact .refl log

/-- The fold that a sweep goes on with has one row for an id. -/
theorem sweep_nodup (log : Log) (age : String → Option Int) (now : String)
    (reasons : List (String × String)) (registered : List String) :
    ((reconcileAndCompact log age now reasons registered).2.map Prod.fst).Nodup := by
  have hkeys := (@resolveReviewed_eq now reasons (foldOperatorInboxEntries log) log
    (nodup_fold log) fun _ => rfl).2.1
  unfold reconcileAndCompact
  dsimp only
  split
  all_goals exact (List.filter_sublist.map Prod.fst).nodup hkeys

/-- What a push records: the landing of the latest row, or a snapshot of the row at
hand. -/
theorem recordDelivery_cases {clock : Clock} {log log' : Log} {held : List InboxFold}
    {writer : Nat} {entry : OperatorInboxEntry} {a : DeliveryAttempt} {now : String}
    {seconds : Option Int} {rows : List OperatorInboxEntry}
    (he : requireEntry held writer entry.id = some entry)
    (h : Call.run clock log held (.recordDelivery writer entry.id a now seconds) =
      some (log', rows)) :
    (a.lands entry = true ∧ ∃ row, transition log entry.id (landLatest a now) = some (log', row) ∧
        rows = [row]) ∨
      (a.lands entry = false ∧ ∃ delivered,
        deliveredSnapshot clock entry a now seconds = some delivered ∧
        log' = log ++ [delivered] ∧ rows = [delivered]) := by
  obtain ⟨e, hentry, hrest⟩ := Option.bind_eq_some_iff.mp h
  cases he.symm.trans hentry
  split at hrest
  · rename_i hlands
    obtain ⟨⟨log', row⟩, hr, heq⟩ := Option.map_eq_some_iff.mp hrest
    cases heq
    exact .inl ⟨hlands, row, hr, rfl⟩
  · rename_i hlands
    obtain ⟨delivered, hdelivered, heq⟩ := Option.map_eq_some_iff.mp hrest
    cases heq
    exact .inr ⟨by simpa using hlands, delivered, hdelivered, rfl, rfl⟩

theorem recordDelivery_row_id {clock : Clock} {log log' : Log} {held : List InboxFold}
    {writer : Nat} {entry : OperatorInboxEntry} {a : DeliveryAttempt} {now : String}
    {seconds : Option Int} {rows : List OperatorInboxEntry}
    (he : requireEntry held writer entry.id = some entry)
    (h : Call.run clock log held (.recordDelivery writer entry.id a now seconds) =
      some (log', rows)) : ∀ row ∈ rows, row.id = entry.id := by
  intro row hrow
  rcases recordDelivery_cases he h with ⟨-, r, hr, rfl⟩ | ⟨-, delivered, hdelivered, -, rfl⟩
  · obtain rfl := List.mem_singleton.mp hrow
    exact transition_row_id (resolves_landLatest a now) hr
  · obtain rfl := List.mem_singleton.mp hrow
    exact (deliveredSnapshot_keeps hdelivered).id

/-- A landed row is not scheduled, and one that had landed is left. -/
theorem landed_row {log log' : Log} {entryId now : String} {a : DeliveryAttempt}
    {row : OperatorInboxEntry}
    (h : transition log entryId (landLatest a now) = some (log', row)) {row' : OperatorInboxEntry}
    (hrow : rowOf log' entryId = some row') :
    row'.state ≠ .pending ∧ ∀ before, rowOf log entryId = some before →
      before.state = .pending → row'.nextAttemptAt = none := by
  obtain ⟨latest, hlatest, heq⟩ := Option.map_eq_some_iff.mp h
  have hid := (mem_of_rowOf hlatest).2
  cases hland : landLatest a now latest with
  | none =>
    rw [hland] at heq
    cases heq
    have hterminal : row.state ≠ .pending := by
      intro hpending
      simp [landLatest, resolvePending, deliveryEvidenceUpdate, hpending] at hland
    rw [hlatest, Option.some.injEq] at hrow
    refine ⟨hrow ▸ hterminal, ?_⟩
    intro before hbefore hpending
    cases hlatest.symm.trans hbefore
    exact absurd hpending hterminal
  | some updated =>
    rw [hland] at heq
    cases heq
    have hresolves := resolves_landLatest a now
    rw [rowOf_snoc, if_pos ((hresolves.id hland).trans hid), hlatest,
      over_pending (hresolves.pending hland), Option.some.injEq] at hrow
    subst hrow
    refine ⟨hresolves.terminal hland, fun _ _ _ => ?_⟩
    unfold landLatest resolvePending at hland
    split at hland
    · cases hland
    · split at hland
      · cases hland
      · cases hland
        rfl

/-! ## The condition and the property -/

namespace Notifier

section
variable (c : Calendar) (cadence : Cadence)

/-- The snapshot at hand is what the row's latest attempt or rebind left, and short
of the attempt ceiling. -/
structure Current (s : Notifier) (entry : OperatorInboxEntry) : Prop where
  schedule : entry.schedule = s.latest entry.id
  below : entry.attemptCount < persistentFailureAttempts

/-- A sweep at this time would select the snapshot at hand, and rightly. -/
structure Ready (s : Notifier) (entry : OperatorInboxEntry) (now : Int) : Prop where
  admits : admits c entry now cadence.floor = .ok true
  current : s.Current entry

instance (s : Notifier) (entry : OperatorInboxEntry) : Decidable (s.Current entry) :=
  decidable_of_iff (entry.schedule = s.latest entry.id ∧
    entry.attemptCount < persistentFailureAttempts) ⟨fun h => ⟨h.1, h.2⟩, fun h => ⟨h.1, h.2⟩⟩

instance (s : Notifier) (entry : OperatorInboxEntry) (now : Int) :
    Decidable (s.Ready c cadence entry now) :=
  decidable_of_iff (Inbox.admits c entry now cadence.floor = .ok true ∧ s.Current entry)
    ⟨fun h => ⟨h.1, h.2⟩, fun h => ⟨h.1, h.2⟩⟩

/-- The row that an owner's signal was put on. -/
def signalled (sw : Sweep) : Option String :=
  match sw.owed with
  | some (.deliver entryId) => some entryId
  | _ => none

/-- Each push is of a row that is due on its latest snapshot, which the selection has
seen to for the scheduled ones, and no older snapshot is appended. -/
def Timely (s : Notifier) : Move → Prop
  | .redeliver _ => ∀ sw ∈ s.sweep, ∀ id ∈ sw.scheduled.head?,
      ∀ entry ∈ requireEntry s.world.held sw.writer id, entry.state = .pending → s.Current entry
  | .drainBoundary _ => ∀ sw ∈ s.sweep, ∀ id ∈ sw.drains.head?,
      ∀ entry ∈ requireEntry s.world.held sw.writer id, entry.state = .pending →
        s.Ready c cadence entry sw.now
  | .deliverSignal _ => ∀ sw ∈ s.sweep, ∀ id ∈ signalled sw,
      ∀ entry ∈ requireEntry s.world.held sw.writer id, s.Ready c cadence entry sw.now
  | .deliver writer id _ now =>
      ∀ entry ∈ requireEntry s.world.held writer id, s.Ready c cadence entry now
  | .renewSignal id _ => ∀ sw ∈ s.sweep,
      ∀ entry ∈ requireEntry s.world.held sw.writer id, entry.schedule = s.latest entry.id
  | .other act => ∀ origin ∈ act.copies s.world.held, origin.schedule = s.latest origin.id
  | _ => True

instance (s : Notifier) : (m : Move) → Decidable (s.Timely c cadence m)
  | .redeliver _ | .drainBoundary _ | .deliverSignal _ | .deliver .. | .renewSignal .. |
    .other _ => by
      unfold Timely
      infer_instance
  | .beginSweep .. | .foldLegacyLanded | .select .. | .markUnresolved | .postSignal .. |
    .rebindDue .. | .expire _ | .endSweep => isTrue trivial

/-- The next attempt of the row is not put forward. -/
def NotEarlier (row row' : OperatorInboxEntry) : Prop :=
  ∀ stamp stamp' t t', row.nextAttemptAt = some stamp → row'.nextAttemptAt = some stamp' →
    c.instant stamp = some t → c.instant stamp' = some t' → t ≤ t'

/-- What is asked of a step: the attempts of a row since its last rebind are the
floor apart, and one more is made of a row short of the ceiling only and puts its
next attempt off. -/
structure Paced (s s' : Notifier) : Prop where
  spaced : Pacing.Spaced cadence.floor s'.attempts
  attempt : ∀ id now, s'.attempts = s.attempts ++ [(id, now)] →
    ∀ row, rowOf s.world.log id = some row → row.state = .pending →
      row.attemptCount < persistentFailureAttempts ∧
      ∀ row', rowOf s'.world.log id = some row' → NotEarlier c row row'

/-- The rows in the log are scheduled as their latest attempt left them, and what
was attempted is on record there. -/
structure Steady (s : Notifier) : Prop where
  kept : Kept s.world
  row : ∀ id row, rowOf s.world.log id = some row → row.state = .pending →
    row.schedule = s.latest id
  spaced : Pacing.Spaced cadence.floor s.attempts
  last : ∀ id t, (id, t) ∈ s.attempts → ∃ t', (s.latest id).lastAttemptAt =
    some (c.isoformat t') ∧ Pacing.HeardBy s.attempts id t'
  seen : ∀ id t, (id, t) ∈ s.attempts → s.world.fresh id = false

end

section
variable {c : Calendar} {cadence : Cadence}

theorem Paced.of_attempts {s s' : Notifier} (hs : Pacing.Spaced cadence.floor s'.attempts)
    (hlen : s'.attempts.length ≤ s.attempts.length) : Paced c cadence s s' := by
  refine ⟨hs, ?_⟩
  intro id now heq
  rw [heq, List.length_append, List.length_singleton] at hlen
  omega

theorem steady_start (log : InboxLog) : Steady c cadence (start log) where
  kept := kept_start log
  row := by
    intro id row hrow _
    show row.schedule = ((rowOf log.entries id).map (·.schedule)).getD {}
    rw [show rowOf log.entries id = some row from hrow]
    rfl
  spaced := List.Pairwise.nil
  last := by
    intro id t h
    cases h
  seen := by
    intro id t h
    cases h

theorem fresh_turn {w : World} {log : Log} {held : List InboxFold} {id : String}
    (h : w.fresh id = false) : (w.turn log held).fresh id = false := by
  unfold World.fresh World.turn at *
  rw [List.all_append, h, Bool.false_and]

theorem step_fresh {clock : Clock} {w w' : World} (hw : Kept w) {act : Act}
    (h : Inbox.step clock w act = some w') {id : String} (hid : w.fresh id = false) :
    w'.fresh id = false := by
  obtain ⟨log, held, rfl, -, -⟩ := step_move hw h
  exact fresh_turn hid

/-- A row at hand was seen in the log. -/
theorem not_fresh_of_held {w : World} (hw : Kept w) {writer : Nat} {id : String}
    {entry : OperatorInboxEntry} (he : requireEntry w.held writer id = some entry) :
    w.fresh entry.id = false := by
  obtain ⟨-, log, hlog, origin, horigin, -⟩ := hw.requireEntry he
  rw [Bool.eq_false_iff]
  intro hfresh
  have hnone := List.all_eq_true.mp hfresh log hlog
  simp [horigin] at hnone

/-- A step that appends nothing of its own to the rows. -/
theorem Steady.of_same {s : Notifier} (hs : Steady c cadence s) {act : Act} {w : World}
    (h : Inbox.step c.clock s.world act = some w) (hsame : SameSchedules s.world.log w.log)
    (sweep : Option Sweep) : Steady c cadence { s with world := w, sweep := sweep } where
  kept := kept_of_step hs.kept h
  row := by
    intro id row' hrow hpending
    obtain ⟨row, hbefore, hstate, hschedule⟩ := hsame id row' hrow hpending
    exact hschedule.trans (hs.row id row hbefore hstate)
  spaced := hs.spaced
  last := hs.last
  seen := fun id t hm => step_fresh hs.kept h (hs.seen id t hm)

/-- A snapshot with the latest schedule may come over its row. -/
theorem Steady.copied_row {s : Notifier} (hs : Steady c cadence s) {log : Log}
    {snapshot : OperatorInboxEntry} (hlog : log = s.world.log ++ [snapshot])
    {latest : String → Schedule}
    (hlatest : ∀ id, id ≠ snapshot.id → latest id = s.latest id)
    (hsnapshot : snapshot.state = .pending → snapshot.schedule = latest snapshot.id) :
    ∀ id row, rowOf log id = some row → row.state = .pending → row.schedule = latest id := by
  intro id row hrow hpending
  rw [hlog, rowOf_snoc] at hrow
  split at hrow
  · rename_i hid
    rw [Option.some.injEq] at hrow
    subst hid
    rcases over_cases (rowOf s.world.log snapshot.id) snapshot with
      ⟨r, -, hterminal, -, hover⟩ | hover
    · rw [hover] at hrow
      subst hrow
      exact absurd hpending hterminal
    · rw [hover] at hrow
      subst hrow
      exact hsnapshot hpending
  · rename_i hid
    rw [hlatest id (Ne.symm hid)]
    exact hs.row id row hrow hpending

/-! ## One push -/

section push
variable {s : Notifier} (hs : Steady c cadence s) {entry : OperatorInboxEntry} {now : Int}
variable (hready : s.Ready c cadence entry now)
include hs hready

/-- When the row was attempted last, it was the floor ago. -/
theorem Steady.attempt_spaced :
    Pacing.Spaced cadence.floor (s.attempts ++ [(entry.id, now)]) ∧
      Pacing.HeardBy (s.attempts ++ [(entry.id, now)]) entry.id now := by
  have hclear := (admits_ok hready.admits).clear
  have hfloor := cadence.min_le_floor
  have hmin : (0 : Int) < minRedeliveryInterval := by decide
  have hself : ∀ t, (entry.id, t) ∈ [(entry.id, now)] → t ≤ now := by
    intro t ht
    obtain ⟨-, rfl⟩ := Prod.mk.inj (List.mem_singleton.mp ht)
    exact le_rfl
  by_cases hnew : ∀ t, (entry.id, t) ∉ s.attempts
  · refine ⟨hs.spaced.first hnew, ?_⟩
    intro t ht
    rcases List.mem_append.mp ht with hold | ht
    · exact absurd hold (hnew t)
    · exact hself t ht
  · push Not at hnew
    obtain ⟨t₀, ht₀⟩ := hnew
    obtain ⟨last, hlast, hheard⟩ := hs.last entry.id t₀ ht₀
    have hstamp : entry.lastAttemptAt = some (c.isoformat last) := by
      rw [← hlast, ← hready.current.schedule]
      rfl
    have hgap := hclear _ last hstamp (c.instant_isoformat last)
    refine ⟨hs.spaced.snoc hheard hgap, ?_⟩
    intro t ht
    rcases List.mem_append.mp ht with hold | ht
    · have := hheard t hold
      omega
    · exact hself t ht

/-- The row in the log is scheduled like the snapshot at hand. -/
theorem Steady.same_schedule {row : OperatorInboxEntry}
    (hrow : rowOf s.world.log entry.id = some row) (hpending : row.state = .pending) :
    row.attemptCount = entry.attemptCount ∧ row.nextAttemptAt = entry.nextAttemptAt := by
  have hsame := (hs.row _ row hrow hpending).trans hready.current.schedule.symm
  exact ⟨congrArg Schedule.attemptCount hsame, congrArg Schedule.nextAttemptAt hsame⟩

variable {writer : Nat} (he : requireEntry s.world.held writer entry.id = some entry)
variable (a : DeliveryAttempt) (remember : Option Nat)
include he

/-- The rows after a push. -/
theorem Steady.attempt_row {w : World}
    (h : Inbox.step c.clock s.world (.call (.recordDelivery writer entry.id a (c.isoformat now)
      cadence.seconds) remember) = some w) :
    (∀ id row, rowOf w.log id = some row → row.state = .pending → row.schedule =
      if id = entry.id
        then attemptedSchedule c.clock entry a (c.isoformat now) cadence.seconds
        else s.latest id) ∧
    ∀ row, rowOf s.world.log entry.id = some row → row.state = .pending →
      ∀ row', rowOf w.log entry.id = some row' → NotEarlier c row row' := by
  obtain ⟨log, rows, hrun, rfl⟩ := step_call h
  have hpending := (admits_ok hready.admits).pending
  rcases recordDelivery_cases he hrun with ⟨-, landed, hland, -⟩ | ⟨hlands, delivered, hd, rfl, -⟩
  · -- the latest row lands, or has left the pending ones
    refine ⟨?_, ?_⟩
    · intro id row hrow hstate
      by_cases hid : id = entry.id
      · subst hid
        exact absurd hstate (landed_row hland hrow).1
      · rw [if_neg hid]
        obtain ⟨before, hbefore, hp, hschedule⟩ :=
          transition_sameSchedules (resolves_landLatest a _) hland id row hrow hstate
        exact hschedule.trans (hs.row id before hbefore hp)
    · intro row hrow hp row' hrow' stamp stamp' t t' _ hnext'
      rw [(landed_row hland hrow').2 row hrow hp] at hnext'
      cases hnext'
  · -- a snapshot of the row at hand comes over the row
    have hschedule := deliveredSnapshot_schedule hpending hlands hd
    have hid : delivered.id = entry.id := (deliveredSnapshot_keeps hd).id
    refine ⟨?_, ?_⟩
    · refine @Steady.copied_row c cadence _ hs _ _ rfl
        (fun id => if id = entry.id then _ else s.latest id) ?_ ?_
      · intro id hne
        rw [if_neg (hid ▸ hne)]
      · intro _
        rw [if_pos hid]
        exact hschedule
    · intro row hrow hp row' hrow' stamp stamp' t t' hnext hnext' ht ht'
      have hcur : rowOf (s.world.log ++ [delivered]) entry.id = some row' := hrow'
      rw [rowOf_snoc, if_pos hid, hrow, over_pending hp, Option.some.injEq] at hcur
      subst hcur
      -- the row was due, and is put off from now
      have hdue : t ≤ now := by
        refine (admits_ok hready.admits).due stamp t ?_ ht
        rw [← (hs.same_schedule hready hrow hp).2]
        exact hnext
      obtain ⟨wait, hwait, hput⟩ := nextAttemptAt_isoformat (c := c) cadence now
        (entry.attemptCount + 1)
      have hlater : delivered.nextAttemptAt = some (c.isoformat (now + wait)) := by
        rw [← hput]
        have hn := congrArg Schedule.nextAttemptAt hschedule
        simpa [attemptedSchedule, hlands, OperatorInboxEntry.schedule] using hn
      rw [hnext', Option.some.injEq] at hlater
      rw [hlater, c.instant_isoformat, Option.some.injEq] at ht'
      have hfloor := cadence.min_le_floor
      have hmin : (0 : Int) < minRedeliveryInterval := by decide
      omega

omit hs in
/-- A push whose recording raises finds no row to land. -/
theorem Ready.attempt_raises
    (h : Inbox.step c.clock s.world (.call (.recordDelivery writer entry.id a (c.isoformat now)
      cadence.seconds) remember) = none) : rowOf s.world.log entry.id = none := by
  have hpending := (admits_ok hready.admits).pending
  simp only [Inbox.step, Call.mints, Option.all_none, if_true, Option.map_eq_none_iff, Call.run,
    he, Option.bind_some] at h
  split at h
  · rw [Option.map_eq_none_iff] at h
    unfold transition at h
    exact Option.map_eq_none_iff.mp h
  · obtain ⟨wait, -, hput⟩ := nextAttemptAt_isoformat (c := c) cadence now (entry.attemptCount + 1)
    rw [Option.map_eq_none_iff, deliveredSnapshot, if_pos hpending, hput] at h
    cases h

/-- A push of a row that is ready keeps the pace, recorded or not. -/
theorem Steady.attempt (sweep : Option Sweep) :
    Steady c cadence
      { (s.attempt c cadence writer entry a now remember).1 with sweep := sweep } ∧
    Paced c cadence s
      { (s.attempt c cadence writer entry a now remember).1 with sweep := sweep } := by
  obtain ⟨hspaced, hheard⟩ := hs.attempt_spaced hready
  have hseen := not_fresh_of_held hs.kept he
  -- what holds of the world with the push recorded, or as it was
  have hworld : ∀ w, (Inbox.step c.clock s.world (.call (.recordDelivery writer entry.id a
      (c.isoformat now) cadence.seconds) remember)).getD s.world = w →
      Kept w ∧ (∀ id, s.world.fresh id = false → w.fresh id = false) ∧
      (∀ id row, rowOf w.log id = some row → row.state = .pending → row.schedule =
        if id = entry.id
          then attemptedSchedule c.clock entry a (c.isoformat now) cadence.seconds
          else s.latest id) ∧
      ∀ row, rowOf s.world.log entry.id = some row → row.state = .pending →
        ∀ row', rowOf w.log entry.id = some row' → NotEarlier c row row' := by
    intro w hw
    cases hstep : Inbox.step c.clock s.world (.call (.recordDelivery writer entry.id a
      (c.isoformat now) cadence.seconds) remember) with
    | none =>
      rw [hstep] at hw
      subst hw
      have hnone := hready.attempt_raises he a remember hstep
      refine ⟨hs.kept, fun _ h => h, ?_, ?_⟩
      · intro id row hrow hp
        by_cases hid : id = entry.id
        · subst hid
          exact absurd (hnone.symm.trans hrow) (by simp)
        · rw [if_neg hid]
          exact hs.row id row hrow hp
      · intro row hrow
        exact absurd (hnone.symm.trans hrow) (by simp)
    | some w' =>
      rw [hstep] at hw
      subst hw
      obtain ⟨hrow, hnext⟩ := hs.attempt_row hready he a remember hstep
      exact ⟨kept_of_step hs.kept hstep, fun _ h => step_fresh hs.kept hstep h, hrow, hnext⟩
  obtain ⟨hkept, hfresh, hrow, hnext⟩ := hworld _ rfl
  refine ⟨⟨hkept, hrow, hspaced, ?_, ?_⟩, ⟨hspaced, ?_⟩⟩
  · intro id t ht
    by_cases hid : id = entry.id
    · subst hid
      refine ⟨now, ?_, hheard⟩
      show (if entry.id = entry.id then _ else _ : Schedule).lastAttemptAt = _
      rw [if_pos rfl]
      rfl
    · have hold : (id, t) ∈ s.attempts := by
        rcases List.mem_append.mp ht with hold | hnew
        · exact hold
        · exact absurd (Prod.mk.inj (List.mem_singleton.mp hnew)).1 hid
      obtain ⟨last, hlast, hby⟩ := hs.last id t hold
      refine ⟨last, ?_, ?_⟩
      · show (if id = entry.id then _ else s.latest id : Schedule).lastAttemptAt = _
        rw [if_neg hid]
        exact hlast
      · intro u hu
        rcases List.mem_append.mp hu with hu | hu
        · exact hby u hu
        · exact absurd (Prod.mk.inj (List.mem_singleton.mp hu)).1 hid
  · intro id t ht
    apply hfresh
    rcases List.mem_append.mp ht with hold | hnew
    · exact hs.seen id t hold
    · rw [(Prod.mk.inj (List.mem_singleton.mp hnew)).1]
      exact hseen
  · intro id t heq row hrow hp
    obtain ⟨rfl, rfl⟩ := Prod.mk.inj (List.singleton_injective (List.append_cancel_left heq))
    refine ⟨?_, hnext row hrow hp⟩
    rw [(hs.same_schedule hready hrow hp).1]
    exact hready.current.below

end push

/-! ## The sweep -/

/-- The row an owed action is for. -/
def Owed.entryId : Owed → String
  | .resolve entryId => entryId
  | .deliver entryId => entryId

/-- The rows that the sweep has still to redeliver are as they were when it selected
them. -/
structure Sound (c : Calendar) (cadence : Cadence) (sw : Sweep) (w : World) : Prop where
  writer : sw.writer < w.held.length
  keys : sw.selected = false → (((w.held[sw.writer]?).getD []).map Prod.fst).Nodup
  legacy : sw.legacy ≠ [] → sw.selected = false
  unselected : sw.selected = false → sw.scheduled = []
  idle : sw.selected = false → sw.owed = none
  scheduled : sw.scheduled.Nodup
  admitted : ∀ id ∈ sw.scheduled, ∀ entry, requireEntry w.held sw.writer id = some entry →
    admits c entry sw.now cadence.floor = .ok true
  owed : ∀ o, sw.owed = some o → Owed.entryId o ∉ sw.scheduled

section
variable {sw : Sweep} {w w' : World}

theorem Sound.owing (h : Sound c cadence sw w) {o : Option Owed}
    (hidle : sw.selected = false → o = none)
    (ho : ∀ x, o = some x → Owed.entryId x ∉ sw.scheduled) :
    Sound c cadence { sw with owed := o } w :=
  ⟨h.writer, h.keys, h.legacy, h.unselected, hidle, h.scheduled, h.admitted, ho⟩

theorem Sound.drained (h : Sound c cadence sw w) (drains : List String) :
    Sound c cadence { sw with drains := drains } w :=
  ⟨h.writer, h.keys, h.legacy, h.unselected, h.idle, h.scheduled, h.admitted, h.owed⟩

theorem Sound.of_held (h : Sound c cadence sw w) (hlen : w.held.length ≤ w'.held.length)
    (hheld : w'.held[sw.writer]? = w.held[sw.writer]?) : Sound c cadence sw w' := by
  refine ⟨h.writer.trans_le hlen, ?_, h.legacy, h.unselected, h.idle, h.scheduled, ?_, h.owed⟩
  · rw [hheld]
    exact h.keys
  · intro id hid entry he
    refine h.admitted id hid entry ?_
    rwa [requireEntry, hheld] at he

/-- What the sweep is given back concerns none of the rows it has still to redeliver. -/
theorem Sound.remember (h : Sound c cadence sw w) {clock : Clock} {call : Call}
    (hstep : Inbox.step clock w (.call call (some sw.writer)) = some w')
    (hids : ∀ log rows, call.run clock w.log w.held = some (log, rows) →
      ∀ row ∈ rows, row.id ∉ sw.scheduled) : Sound c cadence sw w' := by
  have hlen := (step_held hstep).1
  refine ⟨h.writer.trans_le hlen, ?_, h.legacy, h.unselected, h.idle, h.scheduled, ?_, h.owed⟩
  · intro hsel
    obtain ⟨log, rows, -, rfl⟩ := step_call hstep
    have hkeys := h.keys hsel
    simp only [World.turn, heldAfter, List.getElem?_modify_eq]
    cases hfold : w.held[sw.writer]? with
    | none => simp
    | some fold =>
      rw [hfold] at hkeys
      exact nodup_remembered hkeys
  · intro id hid entry he
    refine h.admitted id hid entry ?_
    rwa [requireEntry_call hstep fun log rows hrun row hrow heq => ?_] at he
    exact hids log rows hrun row hrow (heq ▸ hid)

end

/-- The notifier between two steps. -/
structure Good (c : Calendar) (cadence : Cadence) (s : Notifier) : Prop where
  steady : Steady c cadence s
  sweep : ∀ sw, s.sweep = some sw → Sound c cadence sw s.world

theorem Steady.good {s : Notifier} (h : Steady c cadence s) (hnone : s.sweep = none) :
    Good c cadence s := by
  refine ⟨h, ?_⟩
  intro sw hsw
  rw [hnone] at hsw
  cases hsw

/-- The sweep moves on and appends nothing. -/
theorem Steady.onward {s : Notifier} (hs : Steady c cadence s) {sw : Sweep}
    (hsw : Sound c cadence sw s.world) :
    Good c cadence { s with sweep := some sw } ∧ Paced c cadence s { s with sweep := some sw } := by
  refine ⟨⟨⟨hs.kept, hs.row, hs.spaced, hs.last, hs.seen⟩, ?_⟩, .of_attempts hs.spaced le_rfl⟩
  intro sw' hsw'
  obtain rfl := Option.some.inj hsw'
  exact hsw

/-- The sweep is over, or a step of it has raised. -/
theorem Steady.over {s : Notifier} (hs : Steady c cadence s) :
    Good c cadence { s with sweep := none } ∧ Paced c cadence s { s with sweep := none } :=
  ⟨Steady.good ⟨hs.kept, hs.row, hs.spaced, hs.last, hs.seen⟩ rfl, .of_attempts hs.spaced le_rfl⟩

/-- A call of the sweep that copies nothing. -/
theorem Good.remembering {s : Notifier} (hs : Steady c cadence s) {sw : Sweep}
    (hsw : Sound c cadence sw s.world) {call : Call} (hquiet : call.quiet = true)
    (hids : ∀ log rows, call.run c.clock s.world.log s.world.held = some (log, rows) →
      ∀ row ∈ rows, row.id ∉ sw.scheduled) :
    Good c cadence (s.remembering c sw call) ∧
      (s.remembering c sw call).attempts = s.attempts := by
  unfold Notifier.remembering
  cases hstep : Inbox.step c.clock s.world (.call call (some sw.writer)) with
  | none =>
    exact ⟨hs.over.1, rfl⟩
  | some w =>
    obtain ⟨log, rows, hrun, hw⟩ := step_call hstep
    have hsame : SameSchedules s.world.log w.log := by
      rw [hw]
      exact run_sameSchedules hs.kept hquiet hrun
    refine ⟨⟨hs.of_same hstep hsame _, ?_⟩, rfl⟩
    intro sw' hsw'
    obtain rfl := Option.some.inj hsw'
    exact hsw.remember hstep hids

/-- A redelivery of a row that is ready, if it is pending at all. -/
theorem Good.redeliverRow {s : Notifier} (hs : Steady c cadence s) {sw : Sweep}
    (hsw : Sound c cadence sw s.world) (hsel : sw.selected = true) {entryId : String}
    (hid : entryId ∉ sw.scheduled)
    (hready : ∀ entry, requireEntry s.world.held sw.writer entryId = some entry →
      entry.state = .pending → s.Ready c cadence entry sw.now) (a : DeliveryAttempt) :
    Good c cadence (s.redeliverRow c cadence sw entryId a) ∧
      Paced c cadence s (s.redeliverRow c cadence sw entryId a) := by
  unfold Notifier.redeliverRow
  cases hentry : requireEntry s.world.held sw.writer entryId with
  | none =>
    exact hs.onward hsw
  | some entry =>
    dsimp only
    split
    · exact hs.onward hsw
    · rename_i hpending
      have hr := hready entry hentry (Decidable.not_not.mp hpending)
      obtain rfl := (hs.kept.requireEntry hentry).1
      obtain ⟨hsteady, hpaced⟩ := hs.attempt hr hentry a (some sw.writer) _
      refine ⟨⟨hsteady, ?_⟩, hpaced⟩
      intro sw' hsw'
      cases hstep : Inbox.step c.clock s.world (.call (.recordDelivery sw.writer entry.id a
          (c.isoformat sw.now) cadence.seconds) (some sw.writer)) with
      | none =>
        simp only [Notifier.attempt, hstep] at hsw'
        cases hsw'
      | some w =>
        simp only [Notifier.attempt, hstep, Option.isSome_some, if_true, Option.some.injEq,
          Option.getD_some] at hsw' ⊢
        subst hsw'
        refine Sound.owing (hsw.remember hstep ?_) (fun hno => ?_) ?_
        · intro log rows hrun row hrow
          rw [recordDelivery_row_id hentry hrun row hrow]
          exact hid
        · rw [hsel] at hno
          cases hno
        · intro x hx
          split at hx
          · cases hx
            exact hid
          · cases hx

theorem transition_rows {clock : Clock} {w : World} {call : Call} {entryId : String}
    {apply : OperatorInboxEntry → Option OperatorInboxEntry} (happly : Resolves apply)
    (hcall : call.run clock w.log w.held =
      (transition w.log entryId apply).map fun r => (r.1, [r.2]))
    (log : Log) (rows : List OperatorInboxEntry)
    (hrun : call.run clock w.log w.held = some (log, rows)) : ∀ row ∈ rows, row.id = entryId := by
  rw [hcall] at hrun
  obtain ⟨⟨log, r⟩, hr, heq⟩ := Option.map_eq_some_iff.mp hrun
  cases heq
  intro row hrow
  obtain rfl := List.mem_singleton.mp hrow
  exact transition_row_id happly hr

/-- The findings of a sweep are rows of its fold, each once, and admitted. -/
theorem Sound.select {sw : Sweep} {w : World} (h : Sound c cadence sw w) (hkept : Kept w)
    (hsel : sw.selected = false) (hlegacy : sw.legacy = []) {due : List OperatorInboxEntry}
    (hdue : listRedeliverable c ((w.held[sw.writer]?).getD []) sw.now cadence.seconds = .ok due)
    (actionable : String → Bool) (budget : Nat) (drains : List String) :
    Sound c cadence
      { sw with
        selected := true
        scheduled := ((due.map (·.id)).filter actionable).take budget
        drains := drains } w := by
  have hfloor : cadence.seconds.getD minRedeliveryInterval = cadence.floor := by
    have hcadence := cadence.floor_eq
    cases hseconds : cadence.seconds with
    | none =>
      rw [hseconds] at hcadence
      exact Option.some.inj hcadence
    | some rate =>
      rw [hseconds] at hcadence
      exact (requireRedeliveryFloor_some hcadence).symm
  obtain ⟨fold, hfold⟩ : ∃ fold, w.held[sw.writer]? = some fold :=
    ⟨_, List.getElem?_eq_getElem h.writer⟩
  have hkeys := h.keys hsel
  rw [hfold, Option.getD_some] at hkeys hdue
  unfold listRedeliverable at hdue
  rw [hfloor] at hdue
  obtain ⟨hsub, hadmits⟩ := redeliverable_ok hdue
  have hrows : ∀ e ∈ fold, e.2.id = e.1 := fun e he =>
    (hkept.held fold (List.mem_of_getElem? hfold) e he).1
  have hmem : ∀ entry ∈ due, (entry.id, entry) ∈ fold := by
    intro entry hentry
    obtain ⟨e, he, rfl⟩ := List.mem_map.mp (List.mem_filter.mp (hsub.subset hentry)).1
    rw [hrows e he]
    exact he
  have hids : (due.map (·.id)).Nodup := by
    have heq : (fold.map Prod.snd).map (·.id) = fold.map Prod.fst := by
      rw [List.map_map]
      exact List.map_congr_left hrows
    have hnodup : ((fold.map Prod.snd).map (·.id)).Nodup := by
      rw [heq]
      exact hkeys
    exact ((hsub.trans List.filter_sublist).map _).nodup hnodup
  have hselected : ∀ id ∈ ((due.map (·.id)).filter actionable).take budget,
      ∃ entry ∈ due, entry.id = id := by
    intro id hid
    exact List.mem_map.mp (List.mem_filter.mp (List.mem_of_mem_take hid)).1
  refine ⟨h.writer, by simp, by simp [hlegacy], by simp, by simp, ?_, ?_, ?_⟩
  · exact ((List.take_sublist _ _).trans List.filter_sublist).nodup hids
  · intro id hid entry he
    obtain ⟨e, hdue, rfl⟩ := hselected id hid
    have hlookup : fold.lookup e.id = some e := Keyed.lookup_of_mem hkeys (hmem e hdue)
    simp only [requireEntry, hfold, Option.bind_some, hlookup, Option.some.injEq] at he
    exact he ▸ hadmits e hdue
  · intro o ho
    have hidle := h.idle hsel
    rw [show sw.owed = some o from ho] at hidle
    cases hidle

/-- For the record of a row that nobody has attempted. -/
theorem Steady.note_fresh {s : Notifier} (hs : Steady c cadence s) {id : String} {w : World}
    (hkept : Kept w) (hid : s.world.fresh id = true)
    (hfresh : ∀ id, s.world.fresh id = false → w.fresh id = false)
    (hrow : ∀ k row, rowOf w.log k = some row → row.state = .pending → row.schedule =
      if k = id then {} else s.latest k) (sweep : Option Sweep) :
    Steady c cadence ({ s with world := w, sweep := sweep }.note id {}) := by
  have hnone : ∀ t, (id, t) ∉ s.attempts := by
    intro t ht
    rw [hs.seen id t ht] at hid
    cases hid
  refine ⟨hkept, hrow, hs.spaced, ?_, fun k t ht => hfresh k (hs.seen k t ht)⟩
  intro k t ht
  have hk : k ≠ id := by
    rintro rfl
    exact hnone t ht
  obtain ⟨last, hlast, hby⟩ := hs.last k t ht
  refine ⟨last, ?_, hby⟩
  show (if k = id then {} else s.latest k : Schedule).lastAttemptAt = _
  rw [if_neg hk]
  exact hlast

/-- A new row has no schedule. -/
theorem post_row {s : Notifier} (hs : Steady c cadence s) {message : InboxMessage}
    {entryId now : String} {routing : InboxRouting} {poster : InboxPoster} {log : Log}
    {rows : List OperatorInboxEntry}
    (h : Call.run c.clock s.world.log s.world.held (.post message entryId now routing poster) =
      some (log, rows)) :
    (∀ k row, rowOf log k = some row → row.state = .pending → row.schedule =
      if k = entryId then {} else s.latest k) ∧ ∀ row ∈ rows, row.id = entryId := by
  obtain ⟨entry, hentry, heq⟩ := Option.map_eq_some_iff.mp h
  cases heq
  have hcreated := createOperatorInboxEntry_of_toOption hentry
  have hid := (createOperatorInboxEntry_ok hcreated).1
  have hschedule : entry.schedule = {} := by
    unfold createOperatorInboxEntry at hcreated
    dsimp only at hcreated
    cases hrequire : requireInboxAddress routing.address with
    | error e =>
      rw [hrequire] at hcreated
      cases hcreated
    | ok u =>
      rw [hrequire] at hcreated
      cases hcreated
      rfl
  refine ⟨@Steady.copied_row c cadence _ hs _ _ rfl
    (fun k => if k = entryId then {} else s.latest k) ?_ ?_, ?_⟩
  · intro k hk
    rw [if_neg (hid ▸ hk)]
  · intro _
    rw [if_pos hid]
    exact hschedule
  · intro row hrow
    obtain rfl := List.mem_singleton.mp hrow
    exact hid

/-! ## Steps and runs -/

/-- The sweep stays as it is where another writer is at work. -/
theorem Good.foreign {s : Notifier} (hs : Good c cadence s) {act : Act} {w : World}
    (h : Inbox.step c.clock s.world act = some w) (hforeign : act.foreign s.sweep = true) :
    ∀ sw, s.sweep = some sw → Sound c cadence sw w := by
  intro sw hsw
  have hsound := hs.sweep sw hsw
  obtain ⟨hlen, hheld⟩ := step_held h
  refine hsound.of_held hlen (hheld _ hsound.writer ?_)
  cases act with
  | read => simp [Act.remembers]
  | sweep => simp [Act.remembers]
  | call made remember =>
    cases remember with
    | none => simp [Act.remembers]
    | some writer =>
      rw [hsw] at hforeign
      have hne : (sw.writer != writer) = true := by
        cases made <;> first | exact hforeign | cases hforeign
      simp only [Act.remembers, ne_eq, Option.some.injEq]
      rintro rfl
      simp at hne

/-- What another writer may append is a row as it was last scheduled. -/
theorem Good.other {s : Notifier} (hs : Good c cadence s) {act : Act} {w : World}
    (h : Inbox.step c.clock s.world act = some w) (hforeign : act.foreign s.sweep = true)
    (hcopies : ∀ origin, act.copies s.world.held = some origin →
      origin.schedule = s.latest origin.id) :
    Steady c cadence
      (match act.mints with
        | none => { s with world := w }
        | some entryId => { s with world := w }.note entryId {}) := by
  have hkept := kept_of_step hs.steady.kept h
  have hfresh : ∀ id, s.world.fresh id = false → w.fresh id = false := fun id hid =>
    step_fresh hs.steady.kept h hid
  -- a copy with the latest schedule
  have hcopied : ∀ {origin snapshot : OperatorInboxEntry}, act.copies s.world.held = some origin →
      w.log = s.world.log ++ [snapshot] → snapshot.id = origin.id →
      snapshot.schedule = origin.schedule → Steady c cadence { s with world := w } := by
    intro origin snapshot horigin hlog hid hschedule
    refine ⟨hkept, ?_, hs.steady.spaced, hs.steady.last, fun k t ht => hfresh k (hs.steady.seen k t ht)⟩
    refine hs.steady.copied_row hlog (fun _ _ => rfl) ?_
    intro _
    rw [hschedule, hcopies origin horigin, hid]
  cases act with
  | read =>
    cases h
    exact @Steady.of_same c cadence _ hs.steady .read _ rfl (.refl _) s.sweep
  | sweep now reasons registered =>
    refine hs.steady.of_same h ?_ s.sweep
    rw [step_sweep h]
    exact sweep_sameSchedules _ _ _ _ _
  | call made remember =>
    obtain ⟨log, rows, hrun, hw⟩ := step_call h
    have hlog : w.log = log := by
      rw [hw]
      rfl
    cases made with
    | recordDelivery | rebindEntry => cases hforeign
    | post message entryId now routing poster =>
      have hmints : s.world.fresh entryId = true := by
        simp only [Inbox.step] at h
        split at h
        · rename_i hnew
          simpa [Call.mints] using hnew
        · cases h
      refine hs.steady.note_fresh hkept hmints hfresh ?_ s.sweep
      rw [hlog]
      exact (post_row hs.steady hrun).1
    | recordAdapterCompletion writer entryId completion now =>
      obtain ⟨entry, hentry, heq⟩ := Option.map_eq_some_iff.mp hrun
      cases heq
      exact hcopied hentry hlog rfl rfl
    | renew writer entryId renewal now =>
      obtain ⟨entry, hentry, heq⟩ := Option.map_eq_some_iff.mp hrun
      by_cases hpending : entry.state = .pending
      · rw [if_neg (not_not.mpr hpending)] at heq
        cases heq
        refine @hcopied entry _ ?_ hlog (renewSnapshot_keeps entry renewal now).id
          (renewSnapshot_schedule entry renewal now)
        simp [Act.copies, Call.copies, hentry, hpending]
      · rw [if_pos hpending] at heq
        cases heq
        exact hs.steady.of_same h (by rw [hlog]; exact .refl _) s.sweep
    | _ =>
      refine hs.steady.of_same h ?_ s.sweep
      rw [hlog]
      exact run_sameSchedules hs.steady.kept rfl hrun

/-- What the sweep has in hand when it starts an action of its own. -/
theorem Sound.acting {sw : Sweep} {w : World} (h : Sound c cadence sw w) (hacting : Acting sw)
    (hempty : sw.scheduled = []) (o : Option Owed) :
    Sound c cadence { sw with owed := o } w := by
  refine h.owing ?_ ?_
  · intro hsel
    rw [hacting.1] at hsel
    cases hsel
  · intro x _
    rw [hempty]
    simp

/-- A call of an acting sweep, whatever it appends. -/
theorem Sound.remembering {s : Notifier} {sw : Sweep} (hsw : Sound c cadence sw s.world)
    (hempty : sw.scheduled = []) (call : Call) :
    (Inbox.step c.clock s.world (.call call (some sw.writer)) = none ∧
      s.remembering c sw call = { s with sweep := none }) ∨
      ∃ w, Inbox.step c.clock s.world (.call call (some sw.writer)) = some w ∧
        s.remembering c sw call = { s with world := w, sweep := some sw } ∧
        Sound c cadence sw w := by
  unfold Notifier.remembering
  cases hstep : Inbox.step c.clock s.world (.call call (some sw.writer)) with
  | none => exact .inl ⟨rfl, rfl⟩
  | some w => exact .inr ⟨w, rfl, rfl, hsw.remember hstep (by simp [hempty])⟩

/-- A rebound row starts anew. -/
theorem Steady.forget {s : Notifier} (hs : Steady c cadence s) {id : String} {w : World}
    (hkept : Kept w) (hfresh : ∀ id, s.world.fresh id = false → w.fresh id = false)
    (hrow : ∀ k row, rowOf w.log k = some row → row.state = .pending → row.schedule =
      if k = id then {} else s.latest k) (sweep : Option Sweep) :
    Steady c cadence
      { { s with world := w, sweep := sweep }.note id {} with
        attempts := s.attempts.filter fun e => e.1 ≠ id } := by
  have hmem : ∀ k t, (k, t) ∈ s.attempts.filter (fun e => e.1 ≠ id) →
      (k, t) ∈ s.attempts ∧ k ≠ id := by
    intro k t ht
    obtain ⟨hold, hne⟩ := List.mem_filter.mp ht
    exact ⟨hold, by simpa using hne⟩
  refine ⟨hkept, hrow, hs.spaced.filter _, ?_, fun k t ht => hfresh k (hs.seen k t (hmem k t ht).1)⟩
  intro k t ht
  obtain ⟨hold, hk⟩ := hmem k t ht
  obtain ⟨last, hlast, hby⟩ := hs.last k t hold
  refine ⟨last, ?_, fun u hu => hby u (hmem k u hu).1⟩
  show (if k = id then {} else s.latest k : Schedule).lastAttemptAt = _
  rw [if_neg hk]
  exact hlast

/-- A sweep begins with a fold of its own and nothing in hand. -/
theorem good_beginSweep {s s' : Notifier}
    {now : Int} {reasons : List (String × String)} {registered : List String}
    (hs : Good c cadence s) (h : s.step c cadence (.beginSweep now reasons registered) = some s') :
    Good c cadence s' ∧ Paced c cadence s s' := by
  have hst := hs.steady
  simp only [step] at h
  split at h
  · cases h
  obtain ⟨w, hw, rfl⟩ := Option.map_eq_some_iff.mp h
  obtain rfl := step_sweep hw
  have hsame := sweep_sameSchedules s.world.log (c.clock.age (c.isoformat now))
    (c.isoformat now) reasons registered
  refine ⟨⟨hst.of_same hw hsame _, ?_⟩, .of_attempts hst.spaced le_rfl⟩
  intro sw hsw
  obtain rfl := Option.some.inj hsw
  refine ⟨by simp [World.turn], ?_, fun _ => rfl, fun _ => rfl, fun _ => rfl, List.nodup_nil,
    ?_, ?_⟩
  · intro _
    simp only [World.turn, List.length_append, List.length_singleton, Nat.add_sub_cancel,
      List.getElem?_concat_length, Option.getD_some]
    exact (List.filter_sublist.map Prod.fst).nodup (sweep_nodup _ _ _ _ _)
  · intro id hid
    cases hid
  · intro o ho
    cases ho

theorem good_foldLegacyLanded {s s' : Notifier} (hs : Good c cadence s)
    (h : s.step c cadence .foldLegacyLanded = some s') :
    Good c cadence s' ∧ Paced c cadence s s' := by
  have hst := hs.steady
  obtain ⟨sw, hsw, h⟩ := Option.bind_eq_some_iff.mp h
  have hsound := hs.sweep sw hsw
  split at h
  · cases h
  rename_i entryId legacy hlegacy
  cases h
  have hsel := hsound.legacy (by simp [hlegacy])
  have hempty := hsound.unselected hsel
  have hpopped : Sound c cadence { sw with legacy := legacy } s.world :=
    ⟨hsound.writer, hsound.keys, fun _ => hsel, hsound.unselected, hsound.idle,
      hsound.scheduled, hsound.admitted, hsound.owed⟩
  obtain ⟨hgood, hattempts⟩ := @Good.remembering c cadence _ hst _ hpopped (.markLanded entryId
    (c.isoformat sw.now) "legacy-by-rule-landed") rfl (by simp [hempty])
  exact ⟨hgood, .of_attempts (hattempts ▸ hst.spaced) (by rw [hattempts])⟩

theorem good_select {s s' : Notifier}
    {budget : Nat} {actionable : String → Bool} {boundary : String → Option Int}
    (hs : Good c cadence s) (h : s.step c cadence (.select budget actionable boundary) = some s') :
    Good c cadence s' ∧ Paced c cadence s s' := by
  have hst := hs.steady
  obtain ⟨sw, hsw, h⟩ := Option.bind_eq_some_iff.mp h
  have hsound := hs.sweep sw hsw
  split at h
  · cases h
  rename_i hunselected
  rw [not_or, Bool.not_eq_true, not_not] at hunselected
  dsimp only at h
  split at h
  · rename_i due drains hdue hdrains
    cases h
    exact hst.onward (hsound.select hst.kept hunselected.1 hunselected.2 hdue actionable _ _)
  · cases h
    exact hst.over

/-- The row comes off the list that the sweep has still to redeliver. -/
theorem good_redeliver {s s' : Notifier} {a : DeliveryAttempt} (hs : Good c cadence s)
    (h : s.step c cadence (.redeliver a) = some s')
    (htimely : s.Timely c cadence (.redeliver a)) :
    Good c cadence s' ∧ Paced c cadence s s' := by
  have hst := hs.steady
  obtain ⟨sw, hsw, h⟩ := Option.bind_eq_some_iff.mp h
  have hsound := hs.sweep sw hsw
  split at h
  · cases h
  rename_i entryId scheduled hscheduled
  split at h
  · rename_i hacting
    cases h
    have hnodup := hsound.scheduled
    rw [hscheduled, List.nodup_cons] at hnodup
    have hadmitted := hsound.admitted
    rw [hscheduled] at hadmitted
    have howed : sw.owed = none := Option.isNone_iff_eq_none.mp hacting.2
    have hrest : Sound c cadence { sw with scheduled := scheduled } s.world := by
      refine ⟨hsound.writer, hsound.keys, hsound.legacy, ?_, hsound.idle, hnodup.2,
        fun id hid => hadmitted id (List.mem_cons_of_mem _ hid), ?_⟩
      · intro hsel
        rw [hacting.1] at hsel
        cases hsel
      · intro o ho
        rw [show sw.owed = some o from ho] at howed
        cases howed
    refine Good.redeliverRow hst hrest hacting.1 hnodup.1 ?_ a
    intro entry hentry hpending
    exact ⟨hadmitted entryId (List.mem_cons_self ..) entry hentry,
      htimely sw hsw entryId (by simp [hscheduled]) entry hentry hpending⟩
  · cases h

theorem good_drainBoundary {s s' : Notifier} {a : DeliveryAttempt} (hs : Good c cadence s)
    (h : s.step c cadence (.drainBoundary a) = some s')
    (htimely : s.Timely c cadence (.drainBoundary a)) :
    Good c cadence s' ∧ Paced c cadence s s' := by
  have hst := hs.steady
  obtain ⟨sw, hsw, h⟩ := Option.bind_eq_some_iff.mp h
  have hsound := hs.sweep sw hsw
  split at h
  · cases h
  rename_i entryId drains hdrains
  split at h
  · rename_i hacting
    cases h
    refine Good.redeliverRow hst (hsound.drained drains) hacting.1.1 ?_ ?_ a
    · show entryId ∉ sw.scheduled
      simp [hacting.2]
    · exact fun entry hentry => htimely sw hsw entryId (by simp [hdrains]) entry hentry
  · cases h

/-- What is marked is the row that was owed, which is none of those to redeliver. -/
theorem good_markUnresolved {s s' : Notifier} (hs : Good c cadence s)
    (h : s.step c cadence .markUnresolved = some s') :
    Good c cadence s' ∧ Paced c cadence s s' := by
  have hst := hs.steady
  obtain ⟨sw, hsw, h⟩ := Option.bind_eq_some_iff.mp h
  have hsound := hs.sweep sw hsw
  split at h
  · rename_i entryId howed
    have hid := hsound.owed _ howed
    have hdone : Sound c cadence { sw with owed := none } s.world :=
      hsound.owing (fun _ => rfl) fun x hx => by cases hx
    split at h
    · cases h
      exact hst.onward hdone
    · rename_i w hw
      cases h
      obtain ⟨log, rows, hrun, hwlog⟩ := step_call hw
      have hsame : SameSchedules s.world.log w.log := by
        rw [hwlog]
        exact run_sameSchedules hst.kept rfl hrun
      refine ⟨⟨hst.of_same hw hsame _, ?_⟩, .of_attempts hst.spaced le_rfl⟩
      intro sw' hsw'
      obtain rfl := Option.some.inj hsw'
      refine hdone.remember hw ?_
      intro log rows hrun row hrow
      rw [transition_rows (resolves_markUnresolved _ _) rfl log rows hrun row hrow]
      exact hid
  · cases h

/-- A renewed row keeps its schedule. -/
theorem good_renewSignal {s s' : Notifier} {entryId : String} {renewal : InboxRenewal}
    (hs : Good c cadence s) (h : s.step c cadence (.renewSignal entryId renewal) = some s')
    (htimely : s.Timely c cadence (.renewSignal entryId renewal)) :
    Good c cadence s' ∧ Paced c cadence s s' := by
  have hst := hs.steady
  obtain ⟨sw, hsw, h⟩ := Option.bind_eq_some_iff.mp h
  split at h
  · rename_i hacting
    cases h
    obtain ⟨entry, hentry, hpending⟩ := (Option.any_eq_true _ _).mp hacting.2.2
    have hpending : entry.state = .pending := by simpa using hpending
    have hlatest := htimely sw hsw entry hentry
    have hsound := (hs.sweep sw hsw).acting hacting.1 hacting.2.1 (some (.deliver entryId))
    rcases hsound.remembering hacting.2.1 (.renew sw.writer entryId renewal
      (c.isoformat sw.now)) with ⟨-, hraised⟩ | ⟨w, hw, hs', hafter⟩
    · rw [hraised]
      exact hst.over
    · rw [hs']
      obtain ⟨log, rows, hrun, hwlog⟩ := step_call hw
      have hrow : ∀ k row, rowOf w.log k = some row → row.state = .pending →
          row.schedule = s.latest k := by
        obtain ⟨e, he, heq⟩ := Option.map_eq_some_iff.mp hrun
        cases hentry.symm.trans he
        rw [if_neg (not_not.mpr hpending)] at heq
        cases heq
        rw [hwlog]
        refine hst.copied_row rfl (fun _ _ => rfl) ?_
        intro _
        rw [renewSnapshot_schedule, hlatest, (renewSnapshot_keeps entry renewal _).id]
      refine ⟨⟨⟨kept_of_step hst.kept hw, hrow, hst.spaced, hst.last,
        fun k t ht => step_fresh hst.kept hw (hst.seen k t ht)⟩, ?_⟩,
        .of_attempts hst.spaced le_rfl⟩
      intro sw' hsw'
      obtain rfl := Option.some.inj hsw'
      exact hafter
  · cases h

/-- Where posting raises, the identity is drawn all the same. -/
theorem good_postSignal {s s' : Notifier}
    {entryId : String} {message : InboxMessage} {routing : InboxRouting} {poster : InboxPoster}
    (hs : Good c cadence s)
    (h : s.step c cadence (.postSignal entryId message routing poster) = some s') :
    Good c cadence s' ∧ Paced c cadence s s' := by
  have hst := hs.steady
  obtain ⟨sw, hsw, h⟩ := Option.bind_eq_some_iff.mp h
  split at h
  · rename_i hacting
    cases h
    have hsound := (hs.sweep sw hsw).acting hacting.1 hacting.2.1 (some (.deliver entryId))
    rcases hsound.remembering hacting.2.1 (.post message entryId (c.isoformat sw.now) routing
      poster) with ⟨-, hraised⟩ | ⟨w, hw, hs', hafter⟩
    · rw [hraised]
      refine ⟨(hst.note_fresh hst.kept hacting.2.2 (fun _ h => h) ?_ none).good rfl,
        .of_attempts hst.spaced le_rfl⟩
      intro k row hrow hp
      by_cases hk : k = entryId
      · subst hk
        have hnone := List.all_eq_true.mp hacting.2.2 s.world.log hst.kept.current
        simp [hrow] at hnone
      · rw [if_neg hk]
        exact hst.row k row hrow hp
    · rw [hs']
      obtain ⟨log, rows, hrun, hwlog⟩ := step_call hw
      have hrow := (post_row hst hrun).1
      refine ⟨⟨hst.note_fresh (kept_of_step hst.kept hw) hacting.2.2
        (fun _ h => step_fresh hst.kept hw h) (by rw [hwlog]; exact hrow) _, ?_⟩,
        .of_attempts hst.spaced le_rfl⟩
      intro sw' hsw'
      obtain rfl := Option.some.inj hsw'
      exact hafter
  · cases h

theorem good_deliverSignal {s s' : Notifier} {a : DeliveryAttempt} (hs : Good c cadence s)
    (h : s.step c cadence (.deliverSignal a) = some s')
    (htimely : s.Timely c cadence (.deliverSignal a)) :
    Good c cadence s' ∧ Paced c cadence s s' := by
  have hst := hs.steady
  obtain ⟨sw, hsw, h⟩ := Option.bind_eq_some_iff.mp h
  have hsound := hs.sweep sw hsw
  split at h
  · rename_i entryId howed
    obtain ⟨entry, hentry, rfl⟩ := Option.map_eq_some_iff.mp h
    have hready := htimely sw hsw entryId (by simp [signalled, howed]) entry hentry
    obtain rfl := (hst.kept.requireEntry hentry).1
    obtain ⟨hsteady, hpaced⟩ := hst.attempt hready hentry a (some sw.writer) _
    refine ⟨⟨hsteady, ?_⟩, hpaced⟩
    intro sw' hsw'
    cases hstep : Inbox.step c.clock s.world (.call (.recordDelivery sw.writer entry.id a
        (c.isoformat sw.now) cadence.seconds) (some sw.writer)) with
    | none =>
      simp only [Notifier.attempt, hstep] at hsw'
      cases hsw'
    | some w =>
      simp only [Notifier.attempt, hstep, Option.isSome_some, if_true, Option.some.injEq,
        Option.getD_some] at hsw' ⊢
      subst hsw'
      refine Sound.owing (hsound.remember hstep ?_) (fun _ => rfl) fun x hx => by cases hx
      intro log rows hrun row hrow
      rw [recordDelivery_row_id hentry hrun row hrow]
      exact hsound.owed _ howed
  · cases h

theorem good_rebindDue {s s' : Notifier} {entryId : String} {owner : InboxOwner}
    (hs : Good c cadence s) (h : s.step c cadence (.rebindDue entryId owner) = some s') :
    Good c cadence s' ∧ Paced c cadence s s' := by
  have hst := hs.steady
  obtain ⟨sw, hsw, h⟩ := Option.bind_eq_some_iff.mp h
  split at h
  · rename_i hacting
    cases h
    obtain ⟨entry, hentry, hguard⟩ := (Option.any_eq_true _ _).mp hacting.2.2.2
    have hpending : entry.state = .pending := by
      have := (Bool.and_eq_true_iff.mp hguard).1
      simpa using this
    have hfiltered : ∀ w sweep, Paced c cadence s
        { { s with world := w, sweep := sweep }.note entryId {} with
          attempts := s.attempts.filter fun e => e.1 ≠ entryId } := fun w sweep =>
      .of_attempts (hst.spaced.filter _) (List.length_filter_le _ _)
    have hid := (hst.kept.requireEntry hentry).1
    rcases (hs.sweep sw hsw).remembering hacting.2.1 (.rebindEntry sw.writer entryId owner
      (c.isoformat sw.now)) with ⟨hraised, -⟩ | ⟨w, hw, hs', hafter⟩
    · -- the row is at hand, so nothing raises
      simp [Inbox.step, Call.mints, Call.run, hentry] at hraised
    · rw [hs']
      obtain ⟨log, rows, hrun, hwlog⟩ := step_call hw
      have hrow : ∀ k row, rowOf w.log k = some row → row.state = .pending →
          row.schedule = if k = entryId then {} else s.latest k := by
        obtain ⟨e, he, heq⟩ := Option.map_eq_some_iff.mp hrun
        cases hentry.symm.trans he
        rw [if_neg (not_not.mpr hpending)] at heq
        cases heq
        rw [hwlog]
        have hkeeps := (rebindSnapshot_keeps entry owner (c.isoformat sw.now)).id.trans hid
        refine @Steady.copied_row c cadence _ hst _ _ rfl
          (fun k => if k = entryId then {} else s.latest k) ?_ ?_
        · intro k hk
          rw [if_neg (hkeeps ▸ hk)]
        · intro _
          rw [if_pos hkeeps]
          rfl
      refine ⟨⟨hst.forget (kept_of_step hst.kept hw) (fun _ h => step_fresh hst.kept hw h) hrow _,
        ?_⟩, hfiltered _ _⟩
      intro sw' hsw'
      obtain rfl := Option.some.inj hsw'
      exact hafter
  · cases h

theorem good_expire {s s' : Notifier} {expiries : List (String × ExpiryOptions)}
    (hs : Good c cadence s) (h : s.step c cadence (.expire expiries) = some s') :
    Good c cadence s' ∧ Paced c cadence s s' := by
  have hst := hs.steady
  obtain ⟨sw, hsw, h⟩ := Option.bind_eq_some_iff.mp h
  split at h
  · rename_i hacting
    cases h
    obtain ⟨hgood, hattempts⟩ := @Good.remembering c cadence _ hst _ (hs.sweep sw hsw)
      (.expireMany (c.isoformat sw.now) expiries) rfl (by simp [hacting.2])
    exact ⟨hgood, .of_attempts (hattempts ▸ hst.spaced) (by rw [hattempts])⟩
  · cases h

theorem good_endSweep {s s' : Notifier} (hs : Good c cadence s)
    (h : s.step c cadence .endSweep = some s') :
    Good c cadence s' ∧ Paced c cadence s s' := by
  have hst := hs.steady
  simp only [step] at h
  split at h
  · cases h
    exact hst.over
  · cases h

theorem good_deliver {s s' : Notifier}
    {writer : Nat} {entryId : String} {a : DeliveryAttempt} {now : Int} (hs : Good c cadence s)
    (h : s.step c cadence (.deliver writer entryId a now) = some s')
    (htimely : s.Timely c cadence (.deliver writer entryId a now)) :
    Good c cadence s' ∧ Paced c cadence s s' := by
  have hst := hs.steady
  simp only [step] at h
  split at h
  · rename_i hother
    obtain ⟨entry, hentry, rfl⟩ := Option.map_eq_some_iff.mp h
    have hready := htimely entry hentry
    obtain rfl := (hst.kept.requireEntry hentry).1
    obtain ⟨hsteady, hpaced⟩ := hst.attempt hready hentry a none s.sweep
    refine ⟨⟨hsteady, ?_⟩, hpaced⟩
    intro sw hsw
    have hsound := hs.sweep sw hsw
    cases hstep : Inbox.step c.clock s.world (.call (.recordDelivery writer entry.id a
        (c.isoformat now) cadence.seconds) none) with
    | none =>
      simp only [Notifier.attempt, hstep, Option.getD_none]
      exact hsound
    | some w =>
      simp only [Notifier.attempt, hstep, Option.getD_some]
      obtain ⟨hlen, hheld⟩ := step_held hstep
      exact hsound.of_held hlen (hheld _ hsound.writer (by simp [Act.remembers]))
  · cases h

theorem good_other {s s' : Notifier} {act : Act} (hs : Good c cadence s)
    (h : s.step c cadence (.other act) = some s') (htimely : s.Timely c cadence (.other act)) :
    Good c cadence s' ∧ Paced c cadence s s' := by
  have hst := hs.steady
  simp only [step] at h
  split at h
  · rename_i hforeign
    obtain ⟨w, hw, rfl⟩ := Option.map_eq_some_iff.mp h
    have hsteady := hs.other hw hforeign htimely
    have hsound := hs.foreign hw hforeign
    cases hmints : act.mints with
    | none =>
      rw [hmints] at hsteady
      exact ⟨⟨hsteady, hsound⟩, .of_attempts hst.spaced le_rfl⟩
    | some entryId =>
      rw [hmints] at hsteady
      exact ⟨⟨hsteady, hsound⟩, .of_attempts hst.spaced le_rfl⟩
  · cases h

/-- Every move keeps what lies between two steps, and the pace. -/
theorem good_step {s s' : Notifier} {m : Move} (hs : Good c cadence s)
    (h : s.step c cadence m = some s') (htimely : s.Timely c cadence m) :
    Good c cadence s' ∧ Paced c cadence s s' := by
  cases m with
  | beginSweep => exact good_beginSweep hs h
  | foldLegacyLanded => exact good_foldLegacyLanded hs h
  | select => exact good_select hs h
  | redeliver => exact good_redeliver hs h htimely
  | drainBoundary => exact good_drainBoundary hs h htimely
  | markUnresolved => exact good_markUnresolved hs h
  | renewSignal => exact good_renewSignal hs h htimely
  | postSignal => exact good_postSignal hs h
  | deliverSignal => exact good_deliverSignal hs h htimely
  | rebindDue => exact good_rebindDue hs h
  | expire => exact good_expire hs h
  | endSweep => exact good_endSweep hs h
  | deliver => exact good_deliver hs h htimely
  | other => exact good_other hs h htimely

end

/-- **Redeliveries keep the floor in every run that is timely.** For every log, every
configured interval and every interleaving of sweeps and other writers. -/
theorem redeliveries_paced (c : Calendar) (cadence : Cadence) (log : InboxLog) (moves : List Move)
    (h : Runs.Along (step c cadence) (fun s m _ => s.Timely c cadence m) (start log) moves) :
    Runs.Along (step c cadence) (fun s _ s' => Paced c cadence s s') (start log) moves := by
  have hstart : Good c cadence (start log) := (steady_start log).good rfl
  have hboth := (Runs.along_iff_along (I := Good c cadence)
    (P := fun s m s' => s.Timely c cadence m ∧ Paced c cadence s s')
    (fun s m s' hs hm ht => (good_step hs hm ht).1) ?_ hstart).mp h
  · exact hboth.mono fun _ _ _ hp => hp.2
  · intro s m s' hs hm
    exact ⟨fun ht => ⟨ht, (good_step hs hm ht).2⟩, fun hp => hp.1⟩

/-! ## One night -/

/-- A few instants of one night, and how they are written. -/
def nightStamps : List (Int × String) :=
  [(1785544800000000, "2026-08-01T00:40:00+00:00"), (1785545700000000, "2026-08-01T00:55:00+00:00"),
    (1785546000000000, "2026-08-01T01:00:00+00:00"), (1785546900000000, "2026-08-01T01:15:00+00:00"),
    (1785547800000000, "2026-08-01T01:30:00+00:00")]

example : ∀ e ∈ nightStamps, Stamps.readExtended e.2 = some (.aware e.1) := by decide +kernel

/-- A stamp for every instant. -/
def codedStamp (t : Int) : String :=
  String.ofList ((if 0 ≤ t then 'p' else 'm') :: List.replicate t.natAbs 'i')

/-- The calendar of that night. Every other instant is written in a code. -/
def nightCalendar : Calendar where
  isoformat t := (nightStamps.lookup t).getD (codedStamp t)
  fromisoformat stamp :=
    match stamp.toList with
    | 'p' :: rest => some (.aware rest.length)
    | 'm' :: rest => some (.aware (-rest.length))
    | _ => Stamps.readExtended stamp
  fromisoformat_isoformat t := by
    cases hlookup : nightStamps.lookup t with
    | some stamp =>
      have hmem := Keyed.mem_of_lookup hlookup
      have hall : ∀ e ∈ nightStamps, (match e.2.toList with
        | 'p' :: rest => some (Stamp.aware rest.length)
        | 'm' :: rest => some (.aware (-rest.length))
        | _ => Stamps.readExtended e.2) = some (.aware e.1) := by decide +kernel
      exact hall _ hmem
    | none =>
      simp only [Option.getD_none, codedStamp]
      by_cases ht : 0 ≤ t
      · simp only [if_pos ht, String.toList_ofList, List.length_replicate,
          Int.natAbs_of_nonneg ht]
      · simp only [if_neg ht, String.toList_ofList, List.length_replicate,
          Int.ofNat_natAbs_of_nonpos (Int.le_of_not_le ht), Int.neg_neg]

/-- A quarter of an hour, which is the default. -/
def quarterHourly : Cadence where
  seconds := none
  floor := minRedeliveryInterval
  floor_eq := rfl

/-- A message that a busy adapter queued, attempted once. -/
def queuedMessage : OperatorInboxEntry where
  id := "e1"
  ts := "2026-08-01T00:40:00+00:00"
  state := .pending
  agentId := some "manager"
  ask := "ask"
  response := "go"
  createdAt := "2026-08-01T00:40:00+00:00"
  createdBy := "operator"
  createdVia := .chat
  deliveryState := .delivered
  adapterDeliveryState := some .queued
  adapterRequestId := some "e1"
  attemptCount := 1
  lastAttemptAt := some "2026-08-01T00:40:00+00:00"
  nextAttemptAt := some "2026-08-01T00:55:00+00:00"

/-- A log with one queued message. -/
def oneQueued : InboxLog where
  entries := [queuedMessage]
  oneGate := by simp

/-- The request is still queued: the attempt is recorded and nothing lands. -/
def alreadyCorrelated : DeliveryAttempt where
  deliveryState := .delivered
  deliveredToSession := some "manager"
  detail := some "adapter-queued: already correlated"
  adapter := { deliveryState := some .queued, requestId := some "e1" }

/-- The row is due at one, and once more a quarter of an hour later. -/
def twoSweeps : List Move :=
  [.beginSweep 1785546000000000 [] [], .select 1 (fun _ => true) (fun _ => none),
    .redeliver alreadyCorrelated, .endSweep,
    .beginSweep 1785546900000000 [] [], .select 1 (fun _ => true) (fun _ => none),
    .redeliver alreadyCorrelated, .endSweep]

theorem two_sweeps_paced :
    Runs.Along (step nightCalendar quarterHourly)
      (fun s _ s' => Paced nightCalendar quarterHourly s s') (start oneQueued) twoSweeps ∧
    (Runs.run (step nightCalendar quarterHourly) (start oneQueued) twoSweeps).map (·.attempts) =
      some [("e1", 1785546000000000), ("e1", 1785546900000000)] :=
  ⟨redeliveries_paced _ _ _ _ (by decide +kernel), by decide +kernel⟩

/-- At one o'clock the row is due, and its seat has come to a turn boundary a minute
ago: the sweep finds it twice. -/
def foundTwice : List Move :=
  [.beginSweep 1785546000000000 [] [],
    .select 1 (fun _ => true) (fun _ => some 1785545940000000),
    .redeliver alreadyCorrelated, .drainBoundary alreadyCorrelated]

/-- The row is attempted twice at one instant. -/
theorem due_row_pushed_twice :
    ¬Runs.Along (step nightCalendar quarterHourly)
      (fun s _ s' => Paced nightCalendar quarterHourly s s') (start oneQueued) foundTwice := by
  intro h
  have hend : (Runs.run (step nightCalendar quarterHourly) (start oneQueued) foundTwice).map
      (·.attempts) = some [("e1", 1785546000000000), ("e1", 1785546000000000)] := by
    decide +kernel
  obtain ⟨s, hs, hattempts⟩ := Option.map_eq_some_iff.mp hend
  have halways : Runs.Always (step nightCalendar quarterHourly)
      (fun s => Pacing.Spaced quarterHourly.floor s.attempts) (start oneQueued) foundTwice :=
    ⟨List.Pairwise.nil, h.mono fun _ _ _ hp => hp.spaced⟩
  have hspaced := halways.at_end hs
  rw [hattempts] at hspaced
  revert hspaced
  decide

end Notifier

end AgentsRemember.Inbox
