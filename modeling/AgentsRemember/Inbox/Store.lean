import AgentsRemember.Inbox.Transitions
import Mathlib.Data.List.Sort
import Mathlib.Order.Lattice

/-!
# Inbox — Store

The operator inbox log (`controlplane/operator_inbox_store.py`) as the
snapshots that a read returns, and what is done to it under its lock. Each
operation gives the log it leaves and what it returns, or nothing where it
raises and leaves the log alone.

The snapshots of a row concern one gate: no transition changes it. So every
removal takes a row as a whole (`deleteByGate_eq`).
-/

namespace AgentsRemember.Inbox

/-- A log, oldest snapshot first. -/
abbrev Log := List OperatorInboxEntry

/-- The rows of a log that a writer made: one gate for each row. -/
structure InboxLog where
  entries : Log
  oneGate : ∀ r ∈ entries, ∀ r' ∈ entries, r.id = r'.id → r.gateId = r'.gateId

/-! ## Retention -/

/-- How long a terminal marker stays for inspection, in microseconds. -/
def inboxTerminalMarkerRetention : Int := 48 * 60 * 60 * second

/-- The cap on the rows of a log. -/
def inboxMaxCurrentRows : Nat := 500

/-- Whether a row survives at a moment, by the age that stamps have then. -/
def keepInboxEntry (age : String → Option Int) (entry : OperatorInboxEntry) : Bool :=
  let fresh (stamp : String) : Bool :=
    match age stamp with
    | none => true
    | some age => age ≤ inboxTerminalMarkerRetention
  if entry.state = .ladderResolved then false
  else if entry.state = .pending then true
  else if entry.state = .consumed then
    fresh ((entry.consumedAt.filter (· ≠ "")).getD entry.createdAt)
  else fresh ((entry.terminalAt.filter (· ≠ "")).getD entry.createdAt)

/-- Newest first; entries of one stamp stay in their order. -/
def newestFirst (entries : List OperatorInboxEntry) : List OperatorInboxEntry :=
  entries.insertionSort fun a b => b.createdAt ≤ a.createdAt

/-- The ids that a compaction keeps: past the cap, the protected ones and the
newest of the others, pending before terminal. -/
def inboxKeepIds (age : String → Option Int) (current : InboxFold)
    (protectedIds : List String) : List String :=
  let kept := (current.map Prod.snd).filter fun entry =>
    protectedIds.contains entry.id || keepInboxEntry age entry
  if inboxMaxCurrentRows < kept.length then
    let isProtected (entry : OperatorInboxEntry) := protectedIds.contains entry.id
    let available := inboxMaxCurrentRows - (kept.filter isProtected).length
    let others := kept.filter fun entry => !isProtected entry
    let pending := newestFirst (others.filter fun entry => entry.state = .pending)
    let terminal := newestFirst (others.filter fun entry => entry.state ≠ .pending)
    let selected := pending.take available
    (kept.filter isProtected ++ selected ++ terminal.take (available - selected.length)).map (·.id)
  else kept.map (·.id)

/-- Turn reports of a task whose proof is not durable yet. -/
def unregisteredExecutionReportIds (current : InboxFold)
    (registeredExecutionIds : List String) : List String :=
  (((current.map Prod.snd).filter fun entry =>
    !registeredExecutionIds.contains entry.id && entry.messageKind = .turnReport &&
      [some AgentRole.worker, some .reviewer, some .curator].contains entry.senderRole &&
      (entry.subjectTaskDocumentRef.isSome || entry.taskDocumentRef.isSome))).map (·.id)

/-! ## The operations -/

/-- A transition of the latest row: the log it leaves, and the row. -/
def transition (log : Log) (entryId : String)
    (apply : OperatorInboxEntry → Option OperatorInboxEntry) : Option (Log × OperatorInboxEntry) :=
  (rowOf log entryId).map fun entry =>
    match apply entry with
    | none => (log, entry)
    | some updated => (log ++ [updated], updated)

/-- The batch's snapshots and the rows it returns, on one fold. -/
def transitionAll : InboxFold →
    List (String × (OperatorInboxEntry → Option OperatorInboxEntry)) →
    Option (List OperatorInboxEntry × List OperatorInboxEntry)
  | _, [] => some ([], [])
  | current, (entryId, apply) :: transitions =>
    (current.lookup entryId).bind fun entry =>
      match apply entry with
      | none => (transitionAll current transitions).map fun r => (r.1, entry :: r.2)
      | some updated =>
        (transitionAll (Keyed.set current entryId updated) transitions).map fun r =>
          (updated :: r.1, updated :: r.2)

/-- An ordered batch, appended as a whole or not at all. -/
def transitionMany (log : Log)
    (transitions : List (String × (OperatorInboxEntry → Option OperatorInboxEntry))) :
    Option (Log × List OperatorInboxEntry) :=
  (transitionAll (foldOperatorInboxEntries log) transitions).map fun r => (log ++ r.1, r.2)

/-- A pending row is marked consumed, once. -/
def consume (log : Log) (entryId now consumedBy : String) (consumedVia : OperatorInboxVia) :
    Option (Log × OperatorInboxEntry) :=
  (rowOf log entryId).map fun current =>
    if current.state ≠ .pending then (log, current)
    else
      match consumeOperatorInboxEntry current now consumedBy consumedVia with
      | none => (log, current)
      | some consumed => (log ++ [consumed], consumed)

/-- The log without a row. -/
def delete (log : Log) (entryId : String) : Log :=
  log.filter fun record => record.id ≠ entryId

/-- The log without the rows of a gate. -/
def deleteByGate (log : Log) (gateId : String) : Log :=
  log.filter fun record => record.gateId ≠ some gateId

/-- The log without what retention lets go. -/
def compact (log : Log) (age : String → Option Int) (registeredExecutionIds : List String) : Log :=
  let current := foldOperatorInboxEntries log
  let keepIds :=
    inboxKeepIds age current (unregisteredExecutionReportIds current registeredExecutionIds)
  log.filter fun record => keepIds.contains record.id

/-- A pending row that the sweep resolves. -/
def ladderResolve (now reason : String) (entry : OperatorInboxEntry) :
    Option OperatorInboxEntry :=
  if entry.state ≠ .pending then none
  else
    some { entry with
      ts := now
      state := .ladderResolved
      ladderResolvedAt := some now
      ladderResolvedReason := some reason
      nextAttemptAt := none }

/-- The snapshots that resolve the reviewed rows, and the fold with them. -/
def resolveReviewed (now : String) :
    InboxFold → List (String × String) → List OperatorInboxEntry × InboxFold
  | current, [] => ([], current)
  | current, (entryId, reason) :: reasons =>
    match (current.lookup entryId).bind (ladderResolve now reason) with
    | none => resolveReviewed now current reasons
    | some terminal =>
      let (resolved, current) := resolveReviewed now (Keyed.set current entryId terminal) reasons
      (terminal :: resolved, current)

/-- The sweep's reclamation: resolve a reviewed subset, then compact, and write
only if a row goes. The log it leaves, and the fold that the sweep goes on with. -/
def reconcileAndCompact (log : Log) (age : String → Option Int) (now : String)
    (reasons : List (String × String)) (registeredExecutionIds : List String) :
    Log × InboxFold :=
  let before := foldOperatorInboxEntries log
  let (resolved, current) := resolveReviewed now before reasons
  let keepIds :=
    inboxKeepIds age current (unregisteredExecutionReportIds current registeredExecutionIds)
  let keptCurrent := current.filter fun e => keepIds.contains e.1
  if (before.map Prod.fst).any fun id => !(keptCurrent.map Prod.fst).contains id then
    ((log ++ resolved).filter fun record => keepIds.contains record.id, keptCurrent)
  else (log, keptCurrent)

theorem resolves_ladderResolve (now reason : String) : Resolves (ladderResolve now reason) := by
  apply resolves_of_eq
  intro latest updated h
  unfold ladderResolve at h
  split at h
  · cases h
  · rename_i hpending
    cases h
    refine ⟨Decidable.not_not.mp hpending, rfl, rfl, ?_, rfl⟩
    show OperatorInboxState.ladderResolved ≠ .pending
    decide

/-! ## What they do to the log -/

/-- A batch of snapshots, each of which resolves a row that is pending when its
turn comes. -/
inductive Resolved : Log → List OperatorInboxEntry → Prop
  | nil {log} : Resolved log []
  | cons {log latest updated updates} : rowOf log updated.id = some latest →
    latest.state = .pending → updated.Terminal → updated.gateId = latest.gateId →
    updated.consumption = latest.consumption → Resolved (log ++ [updated]) updates →
    Resolved log (updated :: updates)

theorem over_pending {latest : OperatorInboxEntry} (h : latest.state = .pending)
    (entry : OperatorInboxEntry) : overlaid (some latest) entry = entry := by
  simp [overlaid, h]

theorem Resolved.append {log : Log} {updates : List OperatorInboxEntry}
    {latest updated : OperatorInboxEntry} {apply : OperatorInboxEntry → Option OperatorInboxEntry}
    (happly : Resolves apply) (hrow : rowOf log latest.id = some latest)
    (h : apply latest = some updated) (hrest : Resolved (log ++ [updated]) updates) :
    Resolved log (updated :: updates) :=
  .cons (by rw [happly.id h]; exact hrow) (happly.pending h) (happly.terminal h) (happly.gate h)
    (happly.consumption h) hrest

theorem transition_eq {log log' : Log} {entryId : String} {row : OperatorInboxEntry}
    {apply : OperatorInboxEntry → Option OperatorInboxEntry} (happly : Resolves apply)
    (h : transition log entryId apply = some (log', row)) :
    ∃ updates, log' = log ++ updates ∧ Resolved log updates ∧ rowOf log' row.id = some row := by
  obtain ⟨latest, hlatest, heq⟩ := Option.map_eq_some_iff.mp h
  have hid := (mem_of_rowOf hlatest).2
  cases hupdated : apply latest with
  | none =>
    rw [hupdated] at heq
    cases heq
    exact ⟨[], by simp, .nil, by rw [hid]; exact hlatest⟩
  | some updated =>
    rw [hupdated] at heq
    cases heq
    refine ⟨[row], rfl, .append happly (by rw [hid]; exact hlatest) hupdated .nil, ?_⟩
    rw [rowOf_snoc, if_pos rfl, happly.id hupdated, hid, hlatest,
      over_pending (happly.pending hupdated)]

/-- A fold with a row resolved is the fold of the log with its snapshot. -/
theorem lookup_set_resolved {current : InboxFold} {log : Log}
    (hcurrent : ∀ id, current.lookup id = rowOf log id) {latest updated : OperatorInboxEntry}
    {apply : OperatorInboxEntry → Option OperatorInboxEntry} (happly : Resolves apply)
    (hrow : rowOf log latest.id = some latest) (h : apply latest = some updated) (id : String) :
    (Keyed.set current latest.id updated).lookup id = rowOf (log ++ [updated]) id := by
  rw [Keyed.lookup_set, rowOf_snoc, happly.id h, hcurrent]
  by_cases hid : latest.id = id
  · subst hid
    rw [if_pos rfl, if_pos rfl, hrow, over_pending (happly.pending h)]
  · rw [if_neg hid, if_neg hid]

theorem transitionAll_eq {transitions : List (String × (OperatorInboxEntry → Option OperatorInboxEntry))}
    (happly : ∀ t ∈ transitions, Resolves t.2) {current : InboxFold} {log : Log}
    (hcurrent : ∀ id, current.lookup id = rowOf log id)
    {updates returned : List OperatorInboxEntry}
    (h : transitionAll current transitions = some (updates, returned)) :
    Resolved log updates ∧ ∀ row ∈ returned,
      ∃ before, before <+: updates ∧ rowOf (log ++ before) row.id = some row := by
  induction transitions generalizing current log updates returned with
  | nil =>
    cases h
    exact ⟨.nil, by simp⟩
  | cons t transitions ih =>
    obtain ⟨entryId, apply⟩ := t
    obtain ⟨entry, hentry, hrest⟩ := Option.bind_eq_some_iff.mp h
    rw [hcurrent] at hentry
    have hid := (mem_of_rowOf hentry).2
    subst hid
    have hhead := happly (entry.id, apply) (by simp)
    have htail := fun t ht => happly t (List.mem_cons_of_mem _ ht)
    cases hupdated : apply entry with
    | none =>
      rw [hupdated] at hrest
      obtain ⟨⟨a, r⟩, hr, heq⟩ := Option.map_eq_some_iff.mp hrest
      cases heq
      obtain ⟨hresolved, hreturned⟩ := ih htail hcurrent hr
      refine ⟨hresolved, fun row hrow => ?_⟩
      rcases List.mem_cons.mp hrow with rfl | hrow
      · exact ⟨[], List.nil_prefix, by rw [List.append_nil]; exact hentry⟩
      · exact hreturned row hrow
    | some updated =>
      rw [hupdated] at hrest
      obtain ⟨⟨a, r⟩, hr, heq⟩ := Option.map_eq_some_iff.mp hrest
      cases heq
      obtain ⟨hresolved, hreturned⟩ :=
        ih htail (lookup_set_resolved hcurrent hhead hentry hupdated) hr
      refine ⟨.append hhead hentry hupdated hresolved, fun row hrow => ?_⟩
      rcases List.mem_cons.mp hrow with rfl | hrow
      · refine ⟨[row], by simp, ?_⟩
        rw [rowOf_snoc, if_pos rfl, hhead.id hupdated, hentry,
          over_pending (hhead.pending hupdated)]
      · obtain ⟨before, hbefore, hrow⟩ := hreturned row hrow
        refine ⟨updated :: before, by simpa using hbefore, ?_⟩
        rw [List.append_assoc] at hrow
        exact hrow

theorem resolveReviewed_eq {now : String} {reasons : List (String × String)}
    {current : InboxFold} {log : Log} (hnodup : (current.map Prod.fst).Nodup)
    (hcurrent : ∀ id, current.lookup id = rowOf log id) :
    Resolved log (resolveReviewed now current reasons).1 ∧
      ((resolveReviewed now current reasons).2.map Prod.fst).Nodup ∧
      ∀ id, (resolveReviewed now current reasons).2.lookup id =
        rowOf (log ++ (resolveReviewed now current reasons).1) id := by
  induction reasons generalizing current log with
  | nil => exact ⟨.nil, hnodup, by simpa [resolveReviewed] using hcurrent⟩
  | cons r reasons ih =>
    obtain ⟨entryId, reason⟩ := r
    unfold resolveReviewed
    cases hbind : (current.lookup entryId).bind (ladderResolve now reason) with
    | none => exact ih hnodup hcurrent
    | some terminal =>
      obtain ⟨entry, hentry, hterminal⟩ := Option.bind_eq_some_iff.mp hbind
      rw [hcurrent] at hentry
      have hid := (mem_of_rowOf hentry).2
      subst hid
      have hresolves := resolves_ladderResolve now reason
      obtain ⟨hresolved, hkeys, hlookup⟩ := ih (Keyed.nodup_keys_set hnodup _ _)
        (lookup_set_resolved hcurrent hresolves hentry hterminal)
      refine ⟨.append hresolves hentry hterminal hresolved, hkeys, fun id => ?_⟩
      rw [hlookup, List.append_assoc]
      rfl

/-- Rows go as a whole where all of their snapshots concern one gate. -/
theorem deleteByGate_eq {log : Log} {gate : String → Option String}
    (hgate : ∀ r ∈ log, r.gateId = gate r.id) (gateId : String) :
    deleteByGate log gateId = log.filter fun r => decide (gate r.id ≠ some gateId) := by
  apply List.filter_congr
  intro r hr
  rw [hgate r hr]

end AgentsRemember.Inbox
