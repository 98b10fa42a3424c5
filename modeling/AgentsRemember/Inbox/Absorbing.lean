import AgentsRemember.Inbox.Writers

/-!
# Inbox — Absorbing

Terminal states are absorbing as long as no row comes back. Under the fold a
pending snapshot never replaces a terminal row, resolutions look at the latest
row, and what a writer holds terminal was reported so. But a row that was
removed leaves nothing to fold against: a writer that folded it while it was
pending brings it back to life.
-/

namespace AgentsRemember.Inbox

open Runs (Along)

/-- Each row that a fold has reported terminal is in that state or gone. -/
def Absorbed (w : World) : Prop :=
  ∀ id row, w.Seen id row → row.Terminal →
    ∀ now, rowOf w.log id = some now → now.state = row.state

/-- The act appends a pending snapshot of a row that was terminal and is gone. -/
def Revives (w : World) (act : Act) : Prop :=
  ∃ origin, act.copies w.held = some origin ∧ origin.state = .pending ∧
    rowOf w.log origin.id = none ∧ ∃ row, w.Seen origin.id row ∧ row.Terminal

/-- Among the rows reported, one terminal state for each id. -/
def OneEnd (w : World) : Prop :=
  ∀ id row row', w.Seen id row → w.Seen id row' → row.Terminal → row'.Terminal →
    row.state = row'.state

/-- Rows end at most once, and what has ended stays so. -/
structure Ends (w : World) : Prop where
  kept : Kept w
  oneEnd : OneEnd w
  absorbed : Absorbed w

theorem seen_start {log : InboxLog} {id : String} {row : OperatorInboxEntry} :
    (start log).Seen id row ↔ rowOf log.entries id = some row := by
  simp [World.Seen, start]

theorem ends_start (log : InboxLog) : Ends (start log) := by
  refine ⟨kept_start log, ?_, ?_⟩
  · intro id row row' h h' _ _
    rw [seen_start] at h h'
    rw [h] at h'
    cases h'
    rfl
  · intro id row h _ now hnow
    rw [seen_start] at h
    rw [show rowOf (start log).log id = rowOf log.entries id from rfl, h] at hnow
    cases hnow
    rfl

/-- A terminal row that comes of a step is as those before it were. -/
theorem end_of_rowStep {w : World} (hw : Ends w) {copied : Option OperatorInboxEntry}
    (hcopied : ∀ origin, copied = some origin → Known w.past origin) {id : String}
    {now : OperatorInboxEntry} (h : RowStep w copied id (rowOf w.log id) (some now))
    (hnow : now.Terminal) {row : OperatorInboxEntry} (hrow : w.Seen id row)
    (hterminal : row.Terminal) : now.state = row.state := by
  generalize hbefore : rowOf w.log id = before at h
  generalize hafter : some now = after at h
  cases h with
  | same => exact hw.absorbed id row hrow hterminal now (hbefore.trans hafter.symm)
  | gone => cases hafter
  | created hfresh _ _ => exact absurd hrow (not_seen_of_fresh hfresh row)
  | @resolved latest updated hpending _ _ =>
    have := hw.absorbed id row hrow hterminal latest hbefore
    exact absurd (this.symm.trans hpending) hterminal
  | @marked latest updated hpending _ _ =>
    have := hw.absorbed id row hrow hterminal latest hbefore
    exact absurd (this.symm.trans hpending) hterminal
  | @copied _ origin snapshot horigin hid hkeeps =>
    rw [Option.some.injEq] at hafter
    rcases over_cases before snapshot with ⟨r, hr, _, _, hover⟩ | hover
    · rw [hafter, hover]
      exact hw.absorbed id row hrow hterminal r (hbefore.trans hr)
    · obtain ⟨log, hlog, seen, hseen, -, hstate, -⟩ := hcopied origin horigin
      rw [hid] at hseen
      rw [hover] at hafter
      have hsame : now.state = seen.state := by rw [hafter, hkeeps.state, hstate]
      have hends : seen.Terminal := by
        unfold OperatorInboxEntry.Terminal at hnow ⊢
        rwa [← hsame]
      rw [hsame]
      exact hw.oneEnd id seen row ⟨log, hlog, hseen⟩ hrow hends hterminal

/-- A step that revives no row leaves what was terminal so. -/
theorem terminal_of_rowStep {w : World} (hw : Ends w) {act : Act} (hact : ¬Revives w act)
    {id : String} {now : OperatorInboxEntry}
    (h : RowStep w (act.copies w.held) id (rowOf w.log id) (some now)) {row : OperatorInboxEntry}
    (hrow : w.Seen id row) (hterminal : row.Terminal) : now.Terminal := by
  generalize hbefore : rowOf w.log id = before at h
  generalize hafter : some now = after at h
  have hends : ∀ r, before = some r → r.Terminal := by
    intro r hr
    have := hw.absorbed id row hrow hterminal r (hbefore.trans hr)
    unfold OperatorInboxEntry.Terminal at hterminal ⊢
    rwa [this]
  cases h with
  | same => exact hends now hafter.symm
  | gone => cases hafter
  | created hfresh _ _ => exact absurd hrow (not_seen_of_fresh hfresh row)
  | resolved hpending _ _ => exact absurd hpending (hends _ rfl)
  | marked hpending _ _ => exact absurd hpending (hends _ rfl)
  | @copied _ origin snapshot horigin hid hkeeps =>
    rw [Option.some.injEq] at hafter
    rcases over_cases before snapshot with ⟨r, hr, hr', _, hover⟩ | hover
    · rw [hafter, hover]
      exact hr'
    · rw [hafter, hover]
      intro hpending
      cases before with
      | none =>
        refine hact ⟨origin, horigin, by rw [← hkeeps.state]; exact hpending, ?_, row, ?_, hterminal⟩
        · rw [hid]
          exact hbefore
        · rw [hid]
          exact hrow
      | some r =>
        -- a pending snapshot does not come over a terminal row
        rw [over_terminal (hends r rfl) hpending] at hover
        exact hends r rfl (hover ▸ hpending)

theorem ends_step {clock : Clock} {w w' : World} (hw : Ends w) {act : Act}
    (h : step clock w act = some w') (hact : ¬Revives w act) : Ends w' := by
  have hkept := kept_of_step hw.kept h
  obtain ⟨log, held, rfl, hmove, -⟩ := step_move hw.kept h
  have hrow := hmove.row hw.kept.current
  have hcopied := fun origin => @copies_known w hw.kept act origin
  have hnew : ∀ id now, rowOf log id = some now → now.Terminal → ∀ row, w.Seen id row →
      row.Terminal → now.state = row.state := by
    intro id now hnow hterminal row hseen hrow'
    exact end_of_rowStep hw hcopied (hnow ▸ hrow id) hterminal hseen hrow'
  refine ⟨hkept, ?_, ?_⟩
  · intro id row row' hseen hseen' hterminal hterminal'
    rw [seen_turn] at hseen hseen'
    rcases hseen with hseen | hseen
    · rcases hseen' with hseen' | hseen'
      · exact hw.oneEnd id row row' hseen hseen' hterminal hterminal'
      · exact (hnew id row' hseen' hterminal' row hseen hterminal).symm
    · rcases hseen' with hseen' | hseen'
      · exact hnew id row hseen hterminal row' hseen' hterminal'
      · rw [hseen] at hseen'
        cases hseen'
        rfl
  · intro id row hseen hterminal now hnow
    rw [seen_turn] at hseen
    rcases hseen with hseen | hseen
    · have hends := terminal_of_rowStep hw hact (hnow ▸ hrow id) hseen hterminal
      exact hnew id now hnow hends row hseen hterminal
    · rw [show rowOf (w.turn log held).log id = rowOf log id from rfl, hseen] at hnow
      cases hnow
      rfl

/-- A step that revives a row breaks the law. -/
theorem not_absorbed_of_revives {clock : Clock} {w w' : World} (hw : Kept w) {act : Act}
    (h : step clock w act = some w') (hact : Revives w act) : ¬Absorbed w' := by
  obtain ⟨log, held, rfl, hmove, -⟩ := step_move hw h
  obtain ⟨origin, horigin, hpending, hnone, row, hseen, hterminal⟩ := hact
  rw [horigin] at hmove
  obtain ⟨snapshot, hkeeps, hrow⟩ := hmove.copied_row
  rw [hnone] at hrow
  intro habsorbed
  have := habsorbed origin.id row (seen_turn.mpr (.inl hseen)) hterminal snapshot hrow
  rw [hkeeps.state, hpending] at this
  exact hterminal this.symm

/-- **Terminal states are absorbing exactly in the runs that revive no row.**
For every log, every clock and every interleaving of writers. -/
theorem terminal_absorbing_iff (clock : Clock) (log : InboxLog) (acts : List Act) :
    Along (step clock) (fun _ _ w' => Absorbed w') (start log) acts ↔
      Along (step clock) (fun w act _ => ¬Revives w act) (start log) acts := by
  refine (Runs.along_iff_along ?_ ?_ (ends_start log)).symm
  · intro w act w' hw h hact
    exact ends_step hw h hact
  · intro w act w' hw h
    constructor
    · intro hact
      exact (ends_step hw h hact).absorbed
    · intro habsorbed hact
      exact not_absorbed_of_revives hw.kept h hact habsorbed

/-! ## A revived row -/

/-- A clock for one delivery: no stamp is aged, and a quarter of an hour after
the delivery is known. -/
def deliveryClock : Clock where
  age := fun _ _ => none
  later := fun now microseconds =>
    if now = "2026-08-01T00:02:00+00:00" ∧ microseconds = minRedeliveryInterval then
      some "2026-08-01T00:17:00+00:00"
    else none

/-- An empty log. -/
def noRows : InboxLog where
  entries := []
  oneGate := by simp

/-- A row is posted and folded by the notifier, lands, and is deleted; then the
notifier records a delivery that found nobody. -/
def staleRedelivery : List Act :=
  [.call (.post { ask := "ask", response := "go" } "e1" "2026-08-01T00:00:00+00:00"
      { address := { agentId := some "worker" } }
      { createdBy := "operator", createdVia := .chat }) none,
    .read,
    .call (.markLanded "e1" "2026-08-01T00:01:00+00:00" "boundary") none,
    .call (.delete "e1") none,
    .call (.recordDelivery 0 "e1" { deliveryState := .noHostedSession }
      "2026-08-01T00:02:00+00:00" none) none]

/-- A row was terminal and is pending, by the record of a world. -/
def World.revived (w : World) (id : String) : Bool :=
  (w.past.any fun log => (rowOf log id).any (·.state ≠ .pending)) &&
    (rowOf w.log id).any (·.state = .pending)

theorem not_absorbed_of_revived {w : World} {id : String} (h : w.revived id = true) :
    ¬Absorbed w := by
  intro habsorbed
  obtain ⟨hpast, hnow⟩ := Bool.and_eq_true_iff.mp h
  obtain ⟨log, hlog, hrow⟩ := List.any_eq_true.mp hpast
  obtain ⟨row, hrow, hterminal⟩ := (Option.any_eq_true _ _).mp hrow
  obtain ⟨now, hnow, hpending⟩ := (Option.any_eq_true _ _).mp hnow
  have hterminal : row.state ≠ .pending := by simpa using hterminal
  have hpending : now.state = .pending := by simpa using hpending
  have := habsorbed id row ⟨log, hlog, hrow⟩ hterminal now hnow
  exact hterminal (this.symm.trans hpending)

/-- A landed row that was deleted comes back pending. -/
theorem landed_row_revived :
    ¬Along (step deliveryClock) (fun _ _ w' => Absorbed w') (start noRows) staleRedelivery := by
  intro h
  have hend : (Runs.run (step deliveryClock) (start noRows) staleRedelivery).any
      (·.revived "e1") = true := by decide +kernel
  obtain ⟨w, hw, hrevived⟩ := (Option.any_eq_true _ _).mp hend
  have halways : Runs.Always (step deliveryClock) Absorbed (start noRows) staleRedelivery :=
    ⟨(ends_start noRows).absorbed, h⟩
  exact not_absorbed_of_revived hrevived (halways.at_end hw)

end AgentsRemember.Inbox
