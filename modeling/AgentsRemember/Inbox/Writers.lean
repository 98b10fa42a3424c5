import AgentsRemember.Foundation.Runs
import AgentsRemember.Inbox.Store

/-!
# Inbox — Writers

The inbox with its writers. A writer folds the log once and works from that
fold, however much is written in between; it may put the rows it gets back into
it. What it appends is a copy of a row in its hands; only resolutions, consume
and removals look at the log again, under its lock.

`Move` says once what a step does to the log, and `RowStep` what that comes to
for one row; everything about runs is proved from these two.
-/

namespace AgentsRemember.Inbox

/-- The log, and the folds that writers hold. The logs there have been and the
rows that went are kept for the record: nothing reads them. -/
structure World where
  log : Log
  held : List InboxFold := []
  past : List Log := []
  removed : List String := []

/-- A log that nobody has folded yet. -/
def start (log : InboxLog) : World := { log := log.entries, past := [log.entries] }

/-- A row that some fold of the log has reported. -/
def World.Seen (w : World) (id : String) (row : OperatorInboxEntry) : Prop :=
  ∃ log ∈ w.past, rowOf log id = some row

/-- An id that no log has had. -/
def World.fresh (w : World) (id : String) : Bool := w.past.all fun log => (rowOf log id).isNone

/-- What can be called on the store. A `writer` is one of those that hold a
fold. -/
inductive Call where
  | post (message : InboxMessage) (entryId now : String) (routing : InboxRouting)
      (poster : InboxPoster)
  | recordDelivery (writer : Nat) (entryId : String) (attempt : DeliveryAttempt) (now : String)
      (floor : Option Int)
  | markLanded (entryId now reason : String)
  | markSuperseded (entryId now reason : String) (supersededBy : Option String)
  | markUnresolved (entryId now reason : String)
  | markExpired (entryId now : String) (options : ExpiryOptions)
  | expireMany (now : String) (expiries : List (String × ExpiryOptions))
  | rebindEntry (writer : Nat) (entryId : String) (owner : InboxOwner) (now : String)
  | recordAdapterCompletion (writer : Nat) (entryId : String) (completion : AdapterCompletion)
      (now : String)
  | renew (writer : Nat) (entryId : String) (renewal : InboxRenewal) (now : String)
  | consume (entryId now consumedBy : String) (consumedVia : OperatorInboxVia)
  | delete (entryId : String)
  | deleteByGate (gateId : String)
  | compact (now : String) (registeredExecutionIds : List String)

/-- A writer folds the log; calls the store, and may keep what that returns in
a fold; or sweeps. -/
inductive Act where
  | read
  | call (call : Call) (remember : Option Nat)
  | sweep (now : String) (reasons : List (String × String)) (registeredExecutionIds : List String)

/-- The row in a writer's hands. -/
def requireEntry (held : List InboxFold) (writer : Nat) (entryId : String) :
    Option OperatorInboxEntry :=
  held[writer]?.bind (·.lookup entryId)

/-- The row that a call appends a copy of, if it does. -/
def Call.copies (held : List InboxFold) : Call → Option OperatorInboxEntry
  | .recordDelivery writer entryId attempt _ _ =>
    (requireEntry held writer entryId).filter fun entry => !attempt.lands entry
  | .rebindEntry writer entryId _ _ | .renew writer entryId _ _ =>
    (requireEntry held writer entryId).filter fun entry => entry.state = .pending
  | .recordAdapterCompletion writer entryId _ _ => requireEntry held writer entryId
  | _ => none

/-- The snapshot an act appends. -/
def Act.copies (held : List InboxFold) : Act → Option OperatorInboxEntry
  | .call c _ => c.copies held
  | _ => none

/-- The log a call leaves and the rows it returns, or nothing where it raises. -/
def Call.run (clock : Clock) (log : Log) (held : List InboxFold) :
    Call → Option (Log × List OperatorInboxEntry)
  | .post message entryId now routing poster =>
    (createOperatorInboxEntry message entryId now routing poster).toOption.map fun entry =>
      (log ++ [entry], [entry])
  | .recordDelivery writer entryId attempt now floor =>
    (requireEntry held writer entryId).bind fun entry =>
      if attempt.lands entry then
        (transition log entryId (landLatest attempt now)).map fun r => (r.1, [r.2])
      else
        -- written from the fold the writer holds, which may lag behind the log
        (deliveredSnapshot clock entry attempt now floor).map fun delivered =>
          (log ++ [delivered], [delivered])
  | .markLanded entryId now reason =>
    (transition log entryId (Inbox.markLanded now reason)).map fun r => (r.1, [r.2])
  | .markSuperseded entryId now reason supersededBy =>
    (transition log entryId (Inbox.markSuperseded now reason supersededBy)).map fun r => (r.1, [r.2])
  | .markUnresolved entryId now reason =>
    (transition log entryId (Inbox.markUnresolved now reason)).map fun r => (r.1, [r.2])
  | .markExpired entryId now options =>
    (transition log entryId (expiryTransition now options)).map fun r => (r.1, [r.2])
  | .expireMany now expiries =>
    transitionMany log (expiries.map fun e => (e.1, expiryTransition now e.2))
  | .rebindEntry writer entryId owner now =>
    (requireEntry held writer entryId).map fun entry =>
      if entry.state ≠ .pending then (log, [entry])
      else (log ++ [rebindSnapshot entry owner now], [rebindSnapshot entry owner now])
  | .recordAdapterCompletion writer entryId completion now =>
    (requireEntry held writer entryId).map fun entry =>
      (log ++ [completionSnapshot entry completion now], [completionSnapshot entry completion now])
  | .renew writer entryId renewal now =>
    (requireEntry held writer entryId).map fun entry =>
      if entry.state ≠ .pending then (log, [entry])
      else (log ++ [renewSnapshot entry renewal now], [renewSnapshot entry renewal now])
  | .consume entryId now consumedBy consumedVia =>
    (Inbox.consume log entryId now consumedBy consumedVia).map fun r => (r.1, [r.2])
  | .delete entryId => some (Inbox.delete log entryId, [])
  | .deleteByGate gateId => some (Inbox.deleteByGate log gateId, [])
  | .compact now registeredExecutionIds =>
    some (Inbox.compact log (clock.age now) registeredExecutionIds, [])

/-- Rows put into a fold. -/
def remembered (fold : InboxFold) (rows : List OperatorInboxEntry) : InboxFold :=
  rows.foldl (fun fold row => Keyed.set fold row.id row) fold

/-- The world with another log. -/
def World.turn (w : World) (log : Log) (held : List InboxFold) : World where
  log := log
  held := held
  past := w.past ++ [log]
  removed := w.removed ++
    (((foldOperatorInboxEntries w.log).map Prod.fst).filter fun id => (rowOf log id).isNone)

/-- The id that a call makes up, which is new. -/
def Call.mints : Call → Option String
  | .post _ entryId _ _ _ => some entryId
  | _ => none

/-- The sweep goes on with the pending rows of the fold it gets back: it acts
on no other. -/
def step (clock : Clock) (w : World) : Act → Option World
  | .read => some (w.turn w.log (w.held ++ [foldOperatorInboxEntries w.log]))
  | .call call remember =>
    if call.mints.all w.fresh then
      (call.run clock w.log w.held).map fun (log, rows) =>
        w.turn log (match remember with
          | none => w.held
          | some writer => w.held.modify writer (remembered · rows))
    else none
  | .sweep now reasons registeredExecutionIds =>
    let (log, fold) := reconcileAndCompact w.log (clock.age now) now reasons registeredExecutionIds
    some (w.turn log (w.held ++ [fold.filter fun e => e.2.state = .pending]))

/-! ## What a step does to the log -/

/-- The ways in which a step changes the log, with the row it copies. -/
inductive Move (w : World) : Option OperatorInboxEntry → Log → Prop
  | settle {updates : Log} (hresolved : Resolved w.log updates) (keep : String → Bool) :
    Move w none ((w.log ++ updates).filter fun r => keep r.id)
  | create {entry : OperatorInboxEntry} (hfresh : w.fresh entry.id = true)
    (hpending : entry.state = .pending) (hconsumption : entry.consumption = (none, none, none)) :
    Move w none (w.log ++ [entry])
  | mark {row marked : OperatorInboxEntry} (hrow : rowOf w.log marked.id = some row)
    (hpending : row.state = .pending) (hstate : marked.state = .pending)
    (hgate : marked.gateId = row.gateId) (hunmarked : row.consumedAt = none) :
    Move w none (w.log ++ [marked])
  | copy {origin snapshot : OperatorInboxEntry} (hkeeps : Keeps origin snapshot) :
    Move w (some origin) (w.log ++ [snapshot])

theorem Move.resolve {w : World} {updates : Log} (h : Resolved w.log updates) :
    Move w none (w.log ++ updates) := by
  have := Move.settle h fun _ => true
  simpa using this

theorem Move.stay (w : World) : Move w none w.log := by
  have := Move.resolve (w := w) .nil
  simpa using this

theorem Move.drop (w : World) (keep : String → Bool) :
    Move w none (w.log.filter fun r => keep r.id) := by
  have := Move.settle (w := w) .nil keep
  simpa using this

/-- A row that a fold has reported says as much as one in a writer's hands:
its gate, whether it is terminal and how, and its consumption. -/
def Known (past : List Log) (row : OperatorInboxEntry) : Prop :=
  ∃ log ∈ past, ∃ origin, rowOf log row.id = some origin ∧ origin.gateId = row.gateId ∧
    origin.state = row.state ∧ origin.consumption = row.consumption

theorem Known.mono {past more : List Log} {row : OperatorInboxEntry} (h : Known past row) :
    Known (past ++ more) row := by
  obtain ⟨log, hlog, horigin⟩ := h
  exact ⟨log, List.mem_append_left _ hlog, horigin⟩

theorem Known.of_rowOf {past : List Log} {log : Log} (hlog : log ∈ past) {id : String}
    {row : OperatorInboxEntry} (h : rowOf log id = some row) : Known past row :=
  ⟨log, hlog, row, by rw [(mem_of_rowOf h).2]; exact h, rfl, rfl, rfl⟩

theorem Known.keeps {past : List Log} {origin snapshot : OperatorInboxEntry}
    (h : Known past origin) (hkeeps : Keeps origin snapshot) : Known past snapshot := by
  obtain ⟨log, hlog, row, hrow, hgate, hstate, hconsumption⟩ := h
  exact ⟨log, hlog, row, by rw [hkeeps.id]; exact hrow, by rw [hkeeps.gate]; exact hgate,
    by rw [hkeeps.state]; exact hstate, by rw [hkeeps.consumption]; exact hconsumption⟩

/-- What runs keep: one gate a row, and nothing in a writer's hands that no
fold has reported. -/
structure Kept (w : World) : Prop where
  gate : ∃ gate : String → Option String, ∀ log ∈ w.past, ∀ r ∈ log, r.gateId = gate r.id
  held : ∀ fold ∈ w.held, ∀ e ∈ fold, e.2.id = e.1 ∧ Known w.past e.2
  current : w.log ∈ w.past
  gone : ∀ log ∈ w.past, ∀ id, (rowOf log id).isSome → rowOf w.log id = none → id ∈ w.removed
  absent : ∀ id ∈ w.removed, ∃ log ∈ w.past, (rowOf log id).isSome

theorem kept_start (log : InboxLog) : Kept (start log) where
  gate := by
    refine ⟨fun id => (rowOf log.entries id).bind (·.gateId), fun l hl r hr => ?_⟩
    obtain rfl := List.mem_singleton.mp hl
    obtain ⟨row, hrow⟩ := Option.isSome_iff_exists.mp (rowOf_isSome_iff.mpr ⟨r, hr, rfl⟩)
    obtain ⟨hmem, hid⟩ := mem_of_rowOf hrow
    show r.gateId = (rowOf log.entries r.id).bind (·.gateId)
    rw [hrow, Option.bind_some]
    exact log.oneGate r hr row hmem hid.symm
  held := by simp [start]
  current := by simp [start]
  gone := by
    intro l hl id hsome hnone
    obtain rfl := List.mem_singleton.mp hl
    rw [show rowOf (start log).log id = rowOf log.entries id from rfl] at hnone
    simp [hnone] at hsome
  absent := by simp [start]

theorem Kept.requireEntry {w : World} (h : Kept w) {writer : Nat} {entryId : String}
    {entry : OperatorInboxEntry} (he : requireEntry w.held writer entryId = some entry) :
    entry.id = entryId ∧ Known w.past entry := by
  obtain ⟨fold, hfold, hentry⟩ := Option.bind_eq_some_iff.mp he
  exact h.held fold (List.mem_of_getElem? hfold) _ (Keyed.mem_of_lookup hentry)

theorem Resolved.terminal_stays {log updates : Log} (h : Resolved log updates) {id : String}
    {row : OperatorInboxEntry} (hrow : rowOf log id = some row) (hterminal : row.Terminal) :
    rowOf (log ++ updates) id = some row := by
  induction h with
  | nil => simpa using hrow
  | @cons log latest updated updates hlatest hpending _ _ _ _ ih =>
    have hstays : rowOf (log ++ [updated]) id = some row := by
      rw [rowOf_snoc]
      split
      · rename_i hid
        rw [hid, hrow, Option.some.injEq] at hlatest
        exact absurd hpending (hlatest ▸ hterminal)
      · exact hrow
    have := ih hstays
    rwa [List.append_assoc] at this

/-- A batch leaves a row as it was, or resolved. -/
theorem Resolved.row {log updates : Log} (h : Resolved log updates) (id : String) :
    rowOf (log ++ updates) id = rowOf log id ∨
      ∃ row updated, rowOf log id = some row ∧ row.state = .pending ∧
        rowOf (log ++ updates) id = some updated ∧ updated.Terminal ∧
        updated.consumption = row.consumption := by
  induction h with
  | nil => exact .inl (by rw [List.append_nil])
  | @cons log latest updated updates hlatest hpending hterminal _ hconsumption hrest ih =>
    have hsnoc := rowOf_snoc log updated id
    rw [List.append_cons]
    by_cases hid : updated.id = id
    · subst hid
      rw [if_pos rfl, hlatest, over_pending hpending] at hsnoc
      right
      exact ⟨latest, updated, hlatest, hpending, hrest.terminal_stays hsnoc hterminal, hterminal,
        hconsumption⟩
    · rw [if_neg hid] at hsnoc
      rw [hsnoc] at ih
      exact ih

theorem Resolved.split {log before rest : Log} (h : Resolved log (before ++ rest)) :
    Resolved log before ∧ Resolved (log ++ before) rest := by
  induction before generalizing log with
  | nil => exact ⟨.nil, by simpa using h⟩
  | cons updated before ih =>
    cases h with
    | cons hlatest hpending hterminal hgate hconsumption hrest =>
      obtain ⟨hbefore, hafter⟩ := ih hrest
      refine ⟨.cons hlatest hpending hterminal hgate hconsumption hbefore, ?_⟩
      rw [List.append_cons]
      exact hafter

/-- A row met on the way through a batch is the one before or the one after. -/
theorem Resolved.known {log before rest : Log} (h : Resolved log (before ++ rest)) {id : String}
    {row : OperatorInboxEntry} (hrow : rowOf (log ++ before) id = some row) :
    rowOf log id = some row ∨ rowOf (log ++ (before ++ rest)) id = some row := by
  obtain ⟨hbefore, hrest⟩ := h.split
  rcases hbefore.row id with hsame | ⟨_, updated, _, _, hupdated, hterminal, _⟩
  · exact .inl (hsame ▸ hrow)
  · right
    rw [hupdated] at hrow
    cases hrow
    rw [← List.append_assoc]
    exact hrest.terminal_stays hupdated hterminal

/-- What a call that goes through does: a move of the log, and rows returned
that are known of it. -/
structure Outcome (w : World) (copied : Option OperatorInboxEntry) (log : Log)
    (rows : List OperatorInboxEntry) : Prop where
  move : Move w copied log
  known : ∀ row ∈ rows, Known (w.past ++ [log]) row

theorem Outcome.transition {w : World} {log : Log} {rows : List OperatorInboxEntry}
    {entryId : String} {apply : OperatorInboxEntry → Option OperatorInboxEntry}
    (happly : Resolves apply)
    (h : (transition w.log entryId apply).map (fun r => (r.1, [r.2])) = some (log, rows)) :
    Outcome w none log rows := by
  obtain ⟨⟨log, row⟩, hr, heq⟩ := Option.map_eq_some_iff.mp h
  cases heq
  obtain ⟨updates, rfl, hresolved, hrow⟩ := transition_eq happly hr
  refine ⟨.resolve hresolved, fun r hr => ?_⟩
  obtain rfl := List.mem_singleton.mp hr
  exact Known.of_rowOf (by simp) hrow

/-- A copy of a row in a writer's hands is appended and returned. -/
theorem Outcome.copy {w : World} {origin snapshot : OperatorInboxEntry}
    (hknown : Known w.past origin) (hkeeps : Keeps origin snapshot) :
    Outcome w (some origin) (w.log ++ [snapshot]) [snapshot] := by
  refine ⟨.copy hkeeps, fun row hrow => ?_⟩
  obtain rfl := List.mem_singleton.mp hrow
  exact (hknown.keeps hkeeps).mono

/-- A row in a writer's hands is returned as it is. -/
theorem Outcome.hold {w : World} {origin : OperatorInboxEntry} (hknown : Known w.past origin) :
    Outcome w none w.log [origin] := by
  refine ⟨.stay w, fun row hrow => ?_⟩
  obtain rfl := List.mem_singleton.mp hrow
  exact hknown.mono

theorem createOperatorInboxEntry_of_toOption {message : InboxMessage} {entryId now : String}
    {routing : InboxRouting} {poster : InboxPoster} {entry : OperatorInboxEntry}
    (h : (createOperatorInboxEntry message entryId now routing poster).toOption = some entry) :
    createOperatorInboxEntry message entryId now routing poster = .ok entry := by
  cases hc : createOperatorInboxEntry message entryId now routing poster with
  | error e =>
    rw [hc] at h
    cases h
  | ok e =>
    rw [hc] at h
    cases h
    rfl

/-- A pending row in a writer's hands is copied, and any other returned as it is. -/
theorem Outcome.pending {w : World} {origin snapshot : OperatorInboxEntry} {log : Log}
    {rows : List OperatorInboxEntry} (hknown : Known w.past origin) (hkeeps : Keeps origin snapshot)
    (h : (if origin.state ≠ .pending then (w.log, [origin])
      else (w.log ++ [snapshot], [snapshot])) = (log, rows)) :
    Outcome w ((some origin).filter fun entry => entry.state = .pending) log rows := by
  simp only [Option.filter_some, decide_eq_true_eq]
  split at h
  · rename_i hstate
    cases h
    rw [if_neg hstate]
    exact Outcome.hold hknown
  · rename_i hstate
    cases h
    rw [if_pos (Decidable.not_not.mp hstate)]
    exact Outcome.copy hknown hkeeps

section calls
variable {clock : Clock} {w : World} (hw : Kept w) {log : Log} {rows : List OperatorInboxEntry}
include hw

/-- A new row is known of the log it is appended to. -/
theorem outcome_post {message : InboxMessage} {entryId now : String} {routing : InboxRouting}
    {poster : InboxPoster} (hfresh : w.fresh entryId = true)
    (h : (Call.post message entryId now routing poster).run clock w.log w.held = some (log, rows)) :
    Outcome w none log rows := by
  obtain ⟨entry, hentry, heq⟩ := Option.map_eq_some_iff.mp h
  cases heq
  obtain ⟨hid, hpending, hconsumption⟩ :=
    createOperatorInboxEntry_ok (createOperatorInboxEntry_of_toOption hentry)
  have hnew : w.fresh entry.id = true := by
    rw [hid]
    exact hfresh
  refine ⟨.create hnew hpending hconsumption, fun row hrow => ?_⟩
  obtain rfl := List.mem_singleton.mp hrow
  refine ⟨w.log ++ [row], by simp, row, ?_, rfl, rfl, rfl⟩
  have hnone : rowOf w.log row.id = none := by
    have := List.all_eq_true.mp hnew w.log hw.current
    simpa using this
  rw [rowOf_snoc, if_pos rfl, hnone]
  rfl

/-- A delivery lands the row in the log, or copies the one in hand. -/
theorem outcome_recordDelivery {writer : Nat} {entryId now : String} {attempt : DeliveryAttempt}
    {floor : Option Int}
    (h : (Call.recordDelivery writer entryId attempt now floor).run clock w.log w.held =
      some (log, rows)) :
    Outcome w ((Call.recordDelivery writer entryId attempt now floor).copies w.held) log rows := by
  obtain ⟨entry, hentry, hrest⟩ := Option.bind_eq_some_iff.mp h
  obtain ⟨-, hknown⟩ := hw.requireEntry hentry
  simp only [Call.copies, hentry, Option.filter_some, Bool.not_eq_true']
  split at hrest
  · rename_i hlands
    rw [if_neg (by simp [hlands])]
    exact Outcome.transition (resolves_landLatest attempt now) hrest
  · rename_i hlands
    rw [if_pos (by simpa using hlands)]
    obtain ⟨delivered, hdelivered, heq⟩ := Option.map_eq_some_iff.mp hrest
    cases heq
    exact Outcome.copy hknown (deliveredSnapshot_keeps hdelivered)

/-- Each row expired is known of the log before, or of the log after. -/
theorem outcome_expireMany {now : String} {expiries : List (String × ExpiryOptions)}
    (h : (Call.expireMany now expiries).run clock w.log w.held = some (log, rows)) :
    Outcome w none log rows := by
  obtain ⟨⟨updates, returned⟩, hr, heq⟩ := Option.map_eq_some_iff.mp h
  cases heq
  have happly : ∀ t ∈ expiries.map fun e => (e.1, expiryTransition now e.2), Resolves t.2 := by
    intro t ht
    obtain ⟨e, -, rfl⟩ := List.mem_map.mp ht
    exact resolves_expiryTransition now e.2
  obtain ⟨hresolved, hreturned⟩ := transitionAll_eq happly (fun _ => rfl) hr
  refine ⟨.resolve hresolved, fun row hrow => ?_⟩
  obtain ⟨before, ⟨rest, rfl⟩, hbefore⟩ := hreturned row hrow
  rcases hresolved.known hbefore with hrow | hrow
  · exact (Known.of_rowOf hw.current hrow).mono
  · exact Known.of_rowOf (by simp) hrow

/-- A row is consumed while it is pending and unmarked, and returned as it is otherwise. -/
theorem outcome_consume {entryId now consumedBy : String} {consumedVia : OperatorInboxVia}
    (h : (Call.consume entryId now consumedBy consumedVia).run clock w.log w.held =
      some (log, rows)) : Outcome w none log rows := by
  obtain ⟨⟨log, row⟩, hr, heq⟩ := Option.map_eq_some_iff.mp h
  cases heq
  obtain ⟨current, hcurrent, hrow⟩ := Option.map_eq_some_iff.mp hr
  have hid := (mem_of_rowOf hcurrent).2
  subst hid
  have hstay := Outcome.hold (Known.of_rowOf hw.current hcurrent)
  split at hrow
  · cases hrow
    exact hstay
  · rename_i hstate
    have hpending := Decidable.not_not.mp hstate
    unfold consumeOperatorInboxEntry at hrow
    split at hrow
    · cases hrow
      exact hstay
    · rename_i consumed hconsumed
      split at hconsumed
      · cases hconsumed
      · rename_i hunmarked
        cases hconsumed
        cases hrow
        refine ⟨.mark hcurrent hpending hpending rfl (Decidable.not_not.mp hunmarked),
          fun row hrow => ?_⟩
        obtain rfl := List.mem_singleton.mp hrow
        refine @Known.of_rowOf _ _ (List.mem_append_right _ (List.mem_singleton.mpr rfl))
          current.id _ ?_
        rw [rowOf_snoc, if_pos rfl, hcurrent, over_pending hpending]

theorem outcome_deleteByGate (gateId : String) :
    Outcome w none (Inbox.deleteByGate w.log gateId) [] := by
  obtain ⟨gate, hgate⟩ := hw.gate
  refine ⟨?_, by simp⟩
  rw [deleteByGate_eq (hgate w.log hw.current)]
  exact .drop w fun id => gate id ≠ some gateId

/-- Every call makes a move of the log, and returns rows that are known of it. -/
theorem call_outcome {call : Call} (hfresh : call.mints.all w.fresh = true)
    (h : call.run clock w.log w.held = some (log, rows)) :
    Outcome w (call.copies w.held) log rows := by
  cases call with
  | post => exact outcome_post hw hfresh h
  | recordDelivery => exact outcome_recordDelivery hw h
  | markLanded entryId now reason => exact Outcome.transition (resolves_markLanded now reason) h
  | markSuperseded entryId now reason supersededBy =>
    exact Outcome.transition (resolves_markSuperseded now reason supersededBy) h
  | markUnresolved entryId now reason =>
    exact Outcome.transition (resolves_markUnresolved now reason) h
  | markExpired entryId now options =>
    exact Outcome.transition (resolves_expiryTransition now options) h
  | expireMany => exact outcome_expireMany hw h
  | rebindEntry writer entryId owner now =>
    obtain ⟨entry, hentry, heq⟩ := Option.map_eq_some_iff.mp h
    rw [Call.copies, hentry]
    exact .pending (hw.requireEntry hentry).2 (rebindSnapshot_keeps entry owner now) heq
  | recordAdapterCompletion writer entryId completion now =>
    obtain ⟨entry, hentry, heq⟩ := Option.map_eq_some_iff.mp h
    cases heq
    rw [Call.copies, hentry]
    exact Outcome.copy (hw.requireEntry hentry).2 (completionSnapshot_keeps entry completion now)
  | renew writer entryId renewal now =>
    obtain ⟨entry, hentry, heq⟩ := Option.map_eq_some_iff.mp h
    rw [Call.copies, hentry]
    exact .pending (hw.requireEntry hentry).2 (renewSnapshot_keeps entry renewal now) heq
  | consume => exact outcome_consume hw h
  | delete entryId =>
    cases h
    exact ⟨.drop w fun id => id ≠ entryId, by simp⟩
  | deleteByGate gateId =>
    cases h
    exact outcome_deleteByGate hw gateId
  | compact now registeredExecutionIds =>
    cases h
    exact ⟨.drop w _, by simp⟩

end calls

theorem mem_remembered {rows : List OperatorInboxEntry} {fold : InboxFold}
    {e : String × OperatorInboxEntry} (h : e ∈ remembered fold rows) :
    e ∈ fold ∨ e.2.id = e.1 ∧ e.2 ∈ rows := by
  induction rows generalizing fold with
  | nil => exact .inl h
  | cons row rows ih =>
    rcases ih h with hfold | ⟨hid, hrow⟩
    · rcases Keyed.mem_set hfold with ⟨hid, hrow⟩ | hfold
      · exact .inr ⟨by rw [hid, hrow], by simp [hrow]⟩
      · exact .inl hfold
    · exact .inr ⟨hid, List.mem_cons_of_mem _ hrow⟩

/-- What a sweep leaves is a settled log, and a fold of rows that were pending. -/
theorem sweep_outcome (w : World) (age : String → Option Int) (now : String)
    (reasons : List (String × String)) (registered : List String) :
    Move w none (reconcileAndCompact w.log age now reasons registered).1 ∧
      ∀ e ∈ (reconcileAndCompact w.log age now reasons registered).2, e.2.state = .pending →
        rowOf w.log e.1 = some e.2 := by
  have hreviewed := @resolveReviewed_eq now reasons (foldOperatorInboxEntries w.log) w.log
    (nodup_fold w.log) fun _ => rfl
  unfold reconcileAndCompact
  dsimp only
  generalize resolveReviewed now (foldOperatorInboxEntries w.log) reasons = r at hreviewed ⊢
  obtain ⟨resolved, current⟩ := r
  obtain ⟨hresolved, hnodup, hlookup⟩ := hreviewed
  have hpending : ∀ e ∈ current, e.2.state = .pending → rowOf w.log e.1 = some e.2 := by
    intro e he hstate
    have hrow := Keyed.lookup_of_mem hnodup he
    rw [hlookup] at hrow
    rcases hresolved.row e.1 with hsame | ⟨_, updated, _, _, hupdated, hterminal, _⟩
    · exact hsame ▸ hrow
    · rw [hupdated] at hrow
      cases hrow
      exact absurd hstate hterminal
  split
  · exact ⟨.settle hresolved _, fun e he => hpending e (List.mem_filter.mp he).1⟩
  · exact ⟨.stay w, fun e he => hpending e (List.mem_filter.mp he).1⟩

/-- What a step does: a move of the log, and folds of rows that are known. -/
theorem step_move {clock : Clock} {w w' : World} (hw : Kept w) {act : Act}
    (h : step clock w act = some w') :
    ∃ log held, w' = w.turn log held ∧ Move w (act.copies w.held) log ∧
      ∀ fold ∈ held, ∀ e ∈ fold, e.2.id = e.1 ∧ Known (w.past ++ [log]) e.2 := by
  have hheld : ∀ fold ∈ w.held, ∀ log : Log, ∀ e ∈ fold,
      e.2.id = e.1 ∧ Known (w.past ++ [log]) e.2 := by
    intro fold hfold log e he
    obtain ⟨hid, hknown⟩ := hw.held fold hfold e he
    exact ⟨hid, hknown.mono⟩
  cases act with
  | read =>
    simp only [step, Option.some.injEq] at h
    subst h
    refine ⟨_, _, rfl, .stay w, fun fold hfold e he => ?_⟩
    rcases List.mem_append.mp hfold with hfold | hfold
    · exact hheld fold hfold _ e he
    · obtain rfl := List.mem_singleton.mp hfold
      have hrow : rowOf w.log e.1 = some e.2 := Keyed.lookup_of_mem (nodup_fold w.log) he
      exact ⟨(mem_of_rowOf hrow).2, (Known.of_rowOf hw.current hrow).mono⟩
  | call call remember =>
    simp only [step] at h
    split at h
    · rename_i hfresh
      obtain ⟨⟨log, rows⟩, hrun, heq⟩ := Option.map_eq_some_iff.mp h
      -- what the call gives back is known to the log it leaves
      have houtcome := call_outcome hw hfresh hrun
      refine ⟨log, _, heq.symm, houtcome.move, ?_⟩
      cases remember with
      | none => exact fun fold hfold => hheld fold hfold log
      | some writer =>
        intro fold hfold e he
        obtain ⟨i, hi⟩ := List.mem_iff_getElem?.mp hfold
        rw [List.getElem?_modify] at hi
        obtain ⟨before, hbefore, rfl⟩ := Option.map_eq_some_iff.mp hi
        have hmem := List.mem_of_getElem? hbefore
        split at he
        · rcases mem_remembered he with he | ⟨hid, hrow⟩
          · exact hheld before hmem log e he
          · exact ⟨hid, houtcome.known e.2 hrow⟩
        · exact hheld before hmem log e he
    · cases h
  | sweep now reasons registered =>
    have hsweep := sweep_outcome w (clock.age now) now reasons registered
    simp only [step, Option.some.injEq] at h
    subst h
    refine ⟨_, _, rfl, hsweep.1, fun fold hfold e he => ?_⟩
    rcases List.mem_append.mp hfold with hfold | hfold
    · exact hheld fold hfold _ e he
    · obtain rfl := List.mem_singleton.mp hfold
      obtain ⟨he, hstate⟩ := List.mem_filter.mp he
      have hrow := hsweep.2 e he (by simpa using hstate)
      exact ⟨(mem_of_rowOf hrow).2, (Known.of_rowOf hw.current hrow).mono⟩

theorem Resolved.gates {log updates : Log} (h : Resolved log updates)
    {gate : String → Option String} (hlog : ∀ r ∈ log, r.gateId = gate r.id) :
    ∀ r ∈ log ++ updates, r.gateId = gate r.id := by
  induction h with
  | nil => simpa using hlog
  | @cons log latest updated updates hlatest _ _ hgate _ _ ih =>
    obtain ⟨hmem, hid⟩ := mem_of_rowOf hlatest
    rw [List.append_cons]
    apply ih
    intro r hr
    rcases List.mem_append.mp hr with hr | hr
    · exact hlog r hr
    · obtain rfl := List.mem_singleton.mp hr
      rw [hgate, hlog latest hmem, hid]

/-- The gate of a row is one all along. -/
theorem Move.gates {w : World} {copied : Option OperatorInboxEntry} {log : Log}
    (h : Move w copied log) {gate : String → Option String} (hw : w.log ∈ w.past)
    (hknown : ∀ origin, copied = some origin → Known w.past origin)
    (hgate : ∀ l ∈ w.past, ∀ r ∈ l, r.gateId = gate r.id) :
    ∃ gate' : String → Option String, ∀ l ∈ w.past ++ [log], ∀ r ∈ l, r.gateId = gate' r.id := by
  have hlog := hgate w.log hw
  -- where no row is new, the gates are those there were
  have hsame : (∀ r ∈ log, r.gateId = gate r.id) →
      ∃ gate' : String → Option String, ∀ l ∈ w.past ++ [log], ∀ r ∈ l, r.gateId = gate' r.id := by
    intro hnew
    refine ⟨gate, fun l hl r hr => ?_⟩
    rcases List.mem_append.mp hl with hl | hl
    · exact hgate l hl r hr
    · obtain rfl := List.mem_singleton.mp hl
      exact hnew r hr
  have hrow : ∀ {id row}, rowOf w.log id = some row → row.gateId = gate id := by
    intro id row hrow
    obtain ⟨hmem, hid⟩ := mem_of_rowOf hrow
    rw [hlog row hmem, hid]
  have hsnoc : ∀ {e : OperatorInboxEntry}, e.gateId = gate e.id → ∀ r ∈ w.log ++ [e],
      r.gateId = gate r.id := by
    intro e he r hr
    rcases List.mem_append.mp hr with hr | hr
    · exact hlog r hr
    · obtain rfl := List.mem_singleton.mp hr
      exact he
  cases h with
  | @settle updates hresolved keep =>
    apply hsame
    intro r hr
    exact hresolved.gates hlog r (List.mem_filter.mp hr).1
  | @create entry hfresh _ _ =>
    refine ⟨fun id => if id = entry.id then entry.gateId else gate id, fun l hl r hr => ?_⟩
    have hold : ∀ l ∈ w.past, ∀ r ∈ l,
        r.gateId = if r.id = entry.id then entry.gateId else gate r.id := by
      intro l hl r hr
      have hne : r.id ≠ entry.id := by
        intro hid
        have hnone := List.all_eq_true.mp hfresh l hl
        have hsome := rowOf_isSome_iff.mpr ⟨r, hr, hid⟩
        simp [Option.isNone_iff_eq_none.mp hnone] at hsome
      rw [if_neg hne]
      exact hgate l hl r hr
    rcases List.mem_append.mp hl with hl | hl
    · exact hold l hl r hr
    · obtain rfl := List.mem_singleton.mp hl
      rcases List.mem_append.mp hr with hr | hr
      · exact hold w.log hw r hr
      · obtain rfl := List.mem_singleton.mp hr
        simp
  | @mark row marked hr _ _ hg _ => exact hsame (hsnoc (by rw [hg, hrow hr]))
  | @copy origin snapshot hkeeps =>
    apply hsame
    apply hsnoc
    obtain ⟨l, hl, row, hr, hg, -, -⟩ := hknown origin rfl
    obtain ⟨hmem, hid⟩ := mem_of_rowOf hr
    rw [hkeeps.gate, ← hg, hgate l hl row hmem, hid, hkeeps.id]

theorem copies_known {w : World} (hw : Kept w) {act : Act} {origin : OperatorInboxEntry}
    (h : act.copies w.held = some origin) : Known w.past origin := by
  have hfilter : ∀ {writer entryId} {p : OperatorInboxEntry → Bool},
      (requireEntry w.held writer entryId).filter p = some origin → Known w.past origin := by
    intro writer entryId p hf
    exact (hw.requireEntry (Option.filter_eq_some_iff.mp hf).1).2
  cases act with
  | call c _ =>
    cases c with
    | recordDelivery | rebindEntry | renew => exact hfilter h
    | recordAdapterCompletion => exact (hw.requireEntry h).2
    | _ => cases h
  | _ => cases h

theorem kept_of_step {clock : Clock} {w w' : World} (hw : Kept w) {act : Act}
    (h : step clock w act = some w') : Kept w' := by
  obtain ⟨log, held, rfl, hmove, hheld⟩ := step_move hw h
  obtain ⟨gate, hgate⟩ := hw.gate
  refine ⟨hmove.gates hw.current (fun _ => copies_known hw) hgate, hheld, by simp [World.turn],
    ?_, ?_⟩
  · intro l hl id hsome hnone
    show id ∈ w.removed ++ _
    rcases List.mem_append.mp hl with hl | hl
    · -- a row there was: gone before, or with this step
      by_cases hrow : rowOf w.log id = none
      · exact List.mem_append_left _ (hw.gone l hl id hsome hrow)
      · refine List.mem_append_right _ (List.mem_filter.mpr ⟨?_, ?_⟩)
        · exact Keyed.lookup_isSome_iff.mp (Option.isSome_iff_ne_none.mpr hrow)
        · exact Option.isNone_iff_eq_none.mpr hnone
    · obtain rfl := List.mem_singleton.mp hl
      rw [show rowOf (w.turn l held).log id = rowOf l id from rfl] at hnone
      simp [hnone] at hsome
  · intro id hid
    rcases List.mem_append.mp hid with hid | hid
    · obtain ⟨l, hl, hsome⟩ := hw.absent id hid
      exact ⟨l, List.mem_append_left _ hl, hsome⟩
    · refine ⟨w.log, List.mem_append_left _ hw.current, ?_⟩
      exact Keyed.lookup_isSome_iff.mpr (List.mem_filter.mp hid).1

/-! ## What a step does to a row -/

/-- The ways in which a row changes: it stays, goes, is new, resolved or
marked, or a snapshot copied from a row in a writer's hands comes over it. -/
inductive RowStep (w : World) (copied : Option OperatorInboxEntry) (id : String) :
    Option OperatorInboxEntry → Option OperatorInboxEntry → Prop
  | same (row) : RowStep w copied id row row
  | gone (row) : RowStep w copied id row none
  | created {entry} (hfresh : w.fresh id = true) (hpending : entry.state = .pending)
    (hconsumption : entry.consumption = (none, none, none)) : RowStep w copied id none (some entry)
  | resolved {row updated} (hpending : row.state = .pending) (hterminal : updated.Terminal)
    (hconsumption : updated.consumption = row.consumption) :
    RowStep w copied id (some row) (some updated)
  | marked {row updated} (hpending : row.state = .pending) (hstate : updated.state = .pending)
    (hunmarked : row.consumedAt = none) : RowStep w copied id (some row) (some updated)
  | copied {row origin snapshot} (horigin : copied = some origin) (hid : origin.id = id)
    (hkeeps : Keeps origin snapshot) : RowStep w copied id row (some (overlaid row snapshot))

theorem Move.row {w : World} {copied : Option OperatorInboxEntry} {log : Log}
    (hw : w.log ∈ w.past) (h : Move w copied log) (id : String) :
    RowStep w copied id (rowOf w.log id) (rowOf log id) := by
  cases h with
  | @settle updates hresolved keep =>
    rw [rowOf_filter]
    split
    · rcases hresolved.row id with hsame | ⟨row, updated, hrow, hpending, hupdated, hterminal, hc⟩
      · rw [hsame]
        exact .same _
      · rw [hrow, hupdated]
        exact .resolved hpending hterminal hc
    · exact .gone _
  | @create entry hfresh hpending hconsumption =>
    rw [rowOf_snoc]
    by_cases hid : entry.id = id
    · subst hid
      have hnone : rowOf w.log entry.id = none := by
        simpa using List.all_eq_true.mp hfresh w.log hw
      rw [if_pos rfl, hnone]
      exact .created hfresh hpending hconsumption
    · rw [if_neg hid]
      exact .same _
  | @mark row marked hrow hpending hstate _ hunmarked =>
    rw [rowOf_snoc]
    by_cases hid : marked.id = id
    · subst hid
      rw [if_pos rfl, hrow, over_pending hpending]
      exact .marked hpending hstate hunmarked
    · rw [if_neg hid]
      exact .same _
  | @copy origin snapshot hkeeps =>
    rw [rowOf_snoc]
    by_cases hid : snapshot.id = id
    · rw [if_pos hid]
      exact .copied rfl (hkeeps.id.symm.trans hid) hkeeps
    · rw [if_neg hid]
      exact .same _

/-- Where a row is copied, its snapshot comes over the row there is. -/
theorem Move.copied_row {w : World} {origin : OperatorInboxEntry} {log : Log}
    (h : Move w (some origin) log) : ∃ snapshot, Keeps origin snapshot ∧
      rowOf log origin.id = some (overlaid (rowOf w.log origin.id) snapshot) := by
  cases h with
  | @copy _ snapshot hkeeps =>
    refine ⟨snapshot, hkeeps, ?_⟩
    rw [rowOf_snoc, if_pos hkeeps.id]

theorem over_terminal {row snapshot : OperatorInboxEntry} (h : row.Terminal)
    (hs : snapshot.state = .pending) : overlaid (some row) snapshot = row := by
  rw [overlaid, if_pos ⟨h, hs⟩]

/-- What comes over a row is the row or the snapshot. -/
theorem over_cases (row : Option OperatorInboxEntry) (snapshot : OperatorInboxEntry) :
    (∃ r, row = some r ∧ r.Terminal ∧ snapshot.state = .pending ∧ overlaid row snapshot = r) ∨
      overlaid row snapshot = snapshot := by
  cases row with
  | none => exact .inr rfl
  | some r =>
    unfold overlaid
    dsimp only
    split
    · rename_i h
      exact .inl ⟨r, rfl, h.1, h.2, rfl⟩
    · exact .inr rfl

theorem seen_turn {w : World} {log : Log} {held : List InboxFold} {id : String}
    {row : OperatorInboxEntry} :
    (w.turn log held).Seen id row ↔ w.Seen id row ∨ rowOf log id = some row := by
  simp [World.Seen, World.turn, or_and_right, exists_or]

/-- A fresh id has not been seen. -/
theorem not_seen_of_fresh {w : World} {id : String} (h : w.fresh id = true)
    (row : OperatorInboxEntry) : ¬w.Seen id row := by
  rintro ⟨log, hlog, hrow⟩
  have := List.all_eq_true.mp h log hlog
  simp [hrow] at this

end AgentsRemember.Inbox
