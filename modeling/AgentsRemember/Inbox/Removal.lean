import AgentsRemember.Inbox.Absorbing

/-!
# Inbox — Removal

A row that was removed stays removed, and a consumption that was recorded stays
recorded, exactly as long as no writer appends a copy that knows less than the
log: a pending copy of a row that is gone, or a copy without the consumption
that the row has.
-/

namespace AgentsRemember.Inbox

open Runs (Along)

/-- No row that was removed is pending. -/
def StaysRemoved (w : World) : Prop :=
  ∀ id ∈ w.removed, ∀ now, rowOf w.log id = some now → now.Terminal

/-- Each row that a fold has reported consumed is so, or gone. -/
def StaysConsumed (w : World) : Prop :=
  ∀ id row, w.Seen id row → row.consumedAt ≠ none →
    ∀ now, rowOf w.log id = some now → now.consumption = row.consumption

/-- The row that the act copies, if it does, is terminal where it is gone from
the log, and where it is there has the consumption recorded, unless it is
terminal there and the copy is passed over. -/
def Informed (w : World) (act : Act) : Prop :=
  ∀ origin, act.copies w.held = some origin →
    (rowOf w.log origin.id = none → origin.Terminal) ∧
    ∀ row, rowOf w.log origin.id = some row → row.consumedAt ≠ none →
      origin.consumption = row.consumption ∨ row.Terminal ∧ origin.state = .pending

/-- Among the rows reported, the consumption of one that is terminal is the
only one for its id. -/
def OneConsumption (w : World) : Prop :=
  ∀ id row row', w.Seen id row → row.Terminal → w.Seen id row' →
    row'.Terminal ∨ row'.consumedAt ≠ none → row'.consumption = row.consumption

/-- The invariant of a run without stale copies. -/
structure Stands (w : World) : Prop where
  kept : Kept w
  removed : StaysRemoved w
  consumed : StaysConsumed w
  oneConsumption : OneConsumption w
  ended : ∀ id row, w.Seen id row → row.Terminal → ∀ now, rowOf w.log id = some now → now.Terminal

theorem stands_start (log : InboxLog) : Stands (start log) := by
  have hsame : ∀ {id row row'}, (start log).Seen id row → rowOf log.entries id = some row' →
      row' = row := by
    intro id row row' h h'
    rw [seen_start, h'] at h
    exact Option.some.inj h
  refine ⟨kept_start log, by simp [StaysRemoved, start], ?_, ?_, ?_⟩
  · intro id row h _ now hnow
    rw [hsame h hnow]
  · intro id row row' h _ h' _
    rw [hsame h (seen_start.mp h')]
  · intro id row h hterminal now hnow
    rw [hsame h hnow]
    exact hterminal

theorem consumedAt_of_consumption {row row' : OperatorInboxEntry}
    (h : row'.consumption = row.consumption) : row'.consumedAt = row.consumedAt :=
  (Prod.ext_iff.mp h).1

variable {w : World} {act : Act} {id : String} {now : OperatorInboxEntry}

/-- The row that a copy says as much as. -/
theorem Stands.origin (hw : Stands w) {origin : OperatorInboxEntry}
    (h : act.copies w.held = some origin) (hid : origin.id = id) :
    ∃ row, w.Seen id row ∧ row.state = origin.state ∧ row.consumption = origin.consumption := by
  obtain ⟨log, hlog, row, hrow, -, hstate, hconsumption⟩ := copies_known hw.kept h
  exact ⟨row, ⟨log, hlog, hid ▸ hrow⟩, hstate, hconsumption⟩

/-- What an informed step leaves of a row that was terminal is terminal. -/
theorem ended_of_rowStep (hact : Informed w act)
    (h : RowStep w (act.copies w.held) id (rowOf w.log id) (some now))
    (hends : ∀ row, rowOf w.log id = some row → row.Terminal) (hfresh : w.fresh id = false) :
    now.Terminal := by
  generalize hbefore : rowOf w.log id = before at h hends
  generalize hafter : some now = after at h
  cases h with
  | same => exact hends now hafter.symm
  | gone => cases hafter
  | created hnew _ _ => simp [hfresh] at hnew
  | resolved hpending _ _ => exact absurd hpending (hends _ rfl)
  | marked hpending _ _ => exact absurd hpending (hends _ rfl)
  | @copied _ origin snapshot horigin hid hkeeps =>
    rw [Option.some.injEq] at hafter
    subst hid
    rw [hafter]
    rcases over_cases before snapshot with ⟨r, hr, hr', _, hover⟩ | hover
    · rw [hover]
      exact hr'
    · intro hpending
      rw [hover] at hpending
      cases before with
      | none =>
        have hterminal := (hact origin horigin).1 hbefore
        exact hterminal (hkeeps.state ▸ hpending)
      | some r =>
        rw [over_terminal (hends r rfl) hpending] at hover
        exact hends r rfl (hover ▸ hpending)

/-- What an informed step leaves of a row that was consumed is consumed so. -/
theorem consumed_of_rowStep (hw : Stands w) (hact : Informed w act)
    (h : RowStep w (act.copies w.held) id (rowOf w.log id) (some now)) {row : OperatorInboxEntry}
    (hseen : w.Seen id row) (hconsumed : row.consumedAt ≠ none) :
    now.consumption = row.consumption := by
  have hnow := hw.consumed id row hseen hconsumed
  generalize hbefore : rowOf w.log id = before at h hnow
  generalize hafter : some now = after at h
  cases h with
  | same => exact hnow now hafter.symm
  | gone => cases hafter
  | created hnew _ _ => exact absurd hseen (not_seen_of_fresh hnew row)
  | resolved _ _ hconsumption =>
    rw [Option.some.injEq] at hafter
    rw [hafter, hconsumption]
    exact hnow _ rfl
  | marked _ _ hunmarked =>
    rw [← consumedAt_of_consumption (hnow _ rfl)] at hconsumed
    exact absurd hunmarked hconsumed
  | @copied _ origin snapshot horigin hid hkeeps =>
    rw [Option.some.injEq] at hafter
    subst hid
    rw [hafter]
    obtain ⟨hgone, hhere⟩ := hact origin horigin
    cases before with
    | none =>
      -- the copy of a row that is gone is terminal, and was reported so
      obtain ⟨known, hknown, hstate, hconsumption⟩ := hw.origin horigin rfl
      have hterminal : known.Terminal := fun hp => hgone hbefore (hstate ▸ hp)
      have hone := hw.oneConsumption origin.id known row hknown hterminal hseen (.inr hconsumed)
      rw [overlaid, hkeeps.consumption, ← hconsumption, hone]
    | some r =>
      have hr := hnow r rfl
      have hrconsumed : r.consumedAt ≠ none := by
        rw [consumedAt_of_consumption hr]
        exact hconsumed
      rcases hhere r hbefore hrconsumed with hsame | ⟨hterminal, hpending⟩
      · rcases over_cases (some r) snapshot with ⟨r', hr', _, _, hover⟩ | hover
        · cases hr'
          rw [hover, hr]
        · rw [hover, hkeeps.consumption, hsame, hr]
      · rw [over_terminal hterminal (hkeeps.state.trans hpending), hr]

/-- Where a row comes from: one that was reported says as much, or it is new,
or the row there was is pending, and it is that one resolved or marked. -/
theorem origin_of_rowStep (hw : Stands w)
    (h : RowStep w (act.copies w.held) id (rowOf w.log id) (some now)) :
    (∃ row, w.Seen id row ∧ row.state = now.state ∧ row.consumption = now.consumption) ∨
      w.fresh id = true ∨
      ∃ latest, rowOf w.log id = some latest ∧ latest.state = .pending ∧
        (now.Terminal → now.consumption = latest.consumption) := by
  generalize hbefore : rowOf w.log id = before at h
  generalize hafter : some now = after at h
  cases h with
  | same => exact .inl ⟨now, ⟨w.log, hw.kept.current, hbefore.trans hafter.symm⟩, rfl, rfl⟩
  | gone => cases hafter
  | created hnew _ _ => exact .inr (.inl hnew)
  | resolved hpending _ hconsumption =>
    cases hafter
    exact .inr (.inr ⟨_, rfl, hpending, fun _ => hconsumption⟩)
  | marked hpending hstate _ =>
    cases hafter
    exact .inr (.inr ⟨_, rfl, hpending, fun hterminal => absurd hstate hterminal⟩)
  | @copied _ origin snapshot horigin hid hkeeps =>
    left
    rw [Option.some.injEq] at hafter
    rw [hafter]
    rcases over_cases before snapshot with ⟨r, hr, _, _, hover⟩ | hover
    · rw [hover]
      exact ⟨r, ⟨w.log, hw.kept.current, hbefore.trans hr⟩, rfl, rfl⟩
    · obtain ⟨row, hrow, hstate, hconsumption⟩ := hw.origin horigin hid
      rw [hover, hkeeps.state, hkeeps.consumption]
      exact ⟨row, hrow, hstate, hconsumption⟩

theorem stands_step {clock : Clock} {w' : World} (hw : Stands w)
    (h : step clock w act = some w') (hact : Informed w act) : Stands w' := by
  have hkept := kept_of_step hw.kept h
  obtain ⟨log, held, rfl, hmove, -⟩ := step_move hw.kept h
  have hstep : ∀ {id now}, rowOf log id = some now →
      RowStep w (act.copies w.held) id (rowOf w.log id) (some now) := by
    intro id now hnow
    rw [← hnow]
    exact hmove.row hw.kept.current id
  have hold : ∀ {id row}, w.Seen id row → w.fresh id = false := by
    intro id row hseen
    exact Bool.eq_false_iff.mpr fun hfresh => not_seen_of_fresh hfresh row hseen
  -- a new row against those reported: it is one of them, or the row was pending
  have hforward : ∀ {id row now}, rowOf log id = some now → now.Terminal → w.Seen id row →
      row.Terminal ∨ row.consumedAt ≠ none → row.consumption = now.consumption := by
    intro id row now hnow hterminal hseen hrow
    rcases origin_of_rowStep hw (hstep hnow) with ⟨known, hknown, hstate, hconsumption⟩ | hnew |
      ⟨latest, hlatest, hpending, hsame⟩
    · have hends : known.Terminal := fun hp => hterminal (hstate ▸ hp)
      rw [hw.oneConsumption id known row hknown hends hseen hrow, hconsumption]
    · simp [hold hseen] at hnew
    · rcases hrow with hrow | hrow
      · exact absurd hpending (hw.ended id row hseen hrow latest hlatest)
      · rw [hsame hterminal, hw.consumed id row hseen hrow latest hlatest]
  have hbackward : ∀ {id row now}, rowOf log id = some now → w.Seen id row → row.Terminal →
      now.Terminal ∨ now.consumedAt ≠ none → now.consumption = row.consumption := by
    intro id row now hnow hseen hterminal hrow
    rcases origin_of_rowStep hw (hstep hnow) with ⟨known, hknown, hstate, hconsumption⟩ | hnew |
      ⟨latest, hlatest, hpending, -⟩
    · rw [← hconsumption]
      apply hw.oneConsumption id row known hseen hterminal hknown
      rw [consumedAt_of_consumption hconsumption]
      unfold OperatorInboxEntry.Terminal at hrow ⊢
      rwa [hstate]
    · simp [hold hseen] at hnew
    · exact absurd hpending (hw.ended id row hseen hterminal latest hlatest)
  refine ⟨hkept, ?_, ?_, ?_, ?_⟩
  · intro id hid now hnow
    rcases List.mem_append.mp hid with hid | hid
    · obtain ⟨l, hl, hsome⟩ := hw.kept.absent id hid
      obtain ⟨row, hrow⟩ := Option.isSome_iff_exists.mp hsome
      exact ended_of_rowStep hact (hstep hnow) (hw.removed id hid) (hold ⟨l, hl, hrow⟩)
    · have hnone := (List.mem_filter.mp hid).2
      rw [show rowOf log id = some now from hnow] at hnone
      cases hnone
  · intro id row hseen hconsumed now hnow
    rcases seen_turn.mp hseen with hseen | hrow
    · exact consumed_of_rowStep hw hact (hstep hnow) hseen hconsumed
    · rw [show rowOf log id = some now from hnow] at hrow
      cases hrow
      rfl
  · intro id row row' hseen hterminal hseen' hrow'
    rcases seen_turn.mp hseen with hseen | hnow
    · rcases seen_turn.mp hseen' with hseen' | hnow'
      · exact hw.oneConsumption id row row' hseen hterminal hseen' hrow'
      · exact hbackward hnow' hseen hterminal hrow'
    · rcases seen_turn.mp hseen' with hseen' | hnow'
      · exact hforward hnow hterminal hseen' hrow'
      · rw [hnow] at hnow'
        cases hnow'
        rfl
  · intro id row hseen hterminal now hnow
    rcases seen_turn.mp hseen with hseen | hrow
    · exact ended_of_rowStep hact (hstep hnow) (hw.ended id row hseen hterminal) (hold hseen)
    · rw [show rowOf log id = some now from hnow] at hrow
      cases hrow
      exact hterminal

/-- A step that copies a row knowing less than the log loses it. -/
theorem informed_of_stays {clock : Clock} {w' : World} (hw : Stands w)
    (h : step clock w act = some w') (hremoved : StaysRemoved w') (hconsumed : StaysConsumed w') :
    Informed w act := by
  have hkept := kept_of_step hw.kept h
  obtain ⟨log, held, rfl, hmove, -⟩ := step_move hw.kept h
  intro origin horigin
  rw [horigin] at hmove
  obtain ⟨snapshot, hkeeps, hrow⟩ := hmove.copied_row
  obtain ⟨known, hknown, -, -⟩ := hw.origin horigin rfl
  constructor
  · intro hnone hpending
    obtain ⟨l, hl, hseen⟩ := hknown
    have hgone := hw.kept.gone l hl origin.id (by simp [hseen]) hnone
    rw [hnone] at hrow
    have := hremoved origin.id (List.mem_append_left _ hgone) snapshot hrow
    exact this (hkeeps.state.trans hpending)
  · intro row hnow hmarked
    rw [hnow] at hrow
    have hseen : (w.turn log held).Seen origin.id row :=
      seen_turn.mpr (.inl ⟨w.log, hw.kept.current, hnow⟩)
    have hkeep := hconsumed origin.id row hseen hmarked _ hrow
    rcases over_cases (some row) snapshot with ⟨r, hr, hterminal, hpending, _⟩ | hover
    · cases hr
      exact .inr ⟨hterminal, hkeeps.state ▸ hpending⟩
    · left
      rw [hover, hkeeps.consumption] at hkeep
      exact hkeep

/-- **Removed rows stay removed and recorded consumption stays recorded exactly
in the runs whose copies know what the log knows.** For every log, every clock
and every interleaving of writers. -/
theorem removed_and_consumed_iff (clock : Clock) (log : InboxLog) (acts : List Act) :
    Along (step clock) (fun _ _ w' => StaysRemoved w' ∧ StaysConsumed w') (start log) acts ↔
      Along (step clock) (fun w act _ => Informed w act) (start log) acts := by
  refine (Runs.along_iff_along ?_ ?_ (stands_start log)).symm
  · intro w act w' hw h hact
    exact stands_step hw h hact
  · intro w act w' hw h
    constructor
    · intro hact
      have hw' := stands_step hw h hact
      exact ⟨hw'.removed, hw'.consumed⟩
    · intro ⟨hremoved, hconsumed⟩
      exact informed_of_stays hw h hremoved hconsumed

/-! ## Copies that know less -/

/-- A row is posted and folded by the notifier; then `between` happens, and the
notifier renews the row. -/
def staleRenewal (between : Call) : List Act :=
  [.call (.post { ask := "ask", response := "go" } "e1" "2026-08-01T00:00:00+00:00"
      { address := { agentId := some "worker" } }
      { createdBy := "operator", createdVia := .chat }) none,
    .read,
    .call between none,
    .call (.renew 0 "e1" { response := some "again" } "2026-08-01T00:02:00+00:00") none]

/-- A row that was removed is pending. -/
def World.restored (w : World) (id : String) : Bool :=
  w.removed.contains id && (rowOf w.log id).any (·.state = .pending)

/-- A row was consumed and is not. -/
def World.unconsumed (w : World) (id : String) : Bool :=
  (w.past.any fun log => (rowOf log id).any (·.consumedAt ≠ none)) &&
    (rowOf w.log id).any (·.consumedAt = none)

theorem not_staysRemoved_of_restored (h : w.restored id = true) : ¬StaysRemoved w := by
  intro hremoved
  obtain ⟨hid, hnow⟩ := Bool.and_eq_true_iff.mp h
  obtain ⟨now, hnow, hpending⟩ := (Option.any_eq_true _ _).mp hnow
  have hterminal := hremoved id (List.contains_iff_mem.mp hid) now hnow
  exact hterminal (by simpa using hpending)

theorem not_staysConsumed_of_unconsumed (h : w.unconsumed id = true) : ¬StaysConsumed w := by
  intro hconsumed
  obtain ⟨hpast, hnow⟩ := Bool.and_eq_true_iff.mp h
  obtain ⟨log, hlog, hrow⟩ := List.any_eq_true.mp hpast
  obtain ⟨row, hrow, hmarked⟩ := (Option.any_eq_true _ _).mp hrow
  obtain ⟨now, hnow, hunmarked⟩ := (Option.any_eq_true _ _).mp hnow
  have hmarked : row.consumedAt ≠ none := by simpa using hmarked
  have hunmarked : now.consumedAt = none := by simpa using hunmarked
  have hsame := hconsumed id row ⟨log, hlog, hrow⟩ hmarked now hnow
  rw [consumedAt_of_consumption hsame] at hunmarked
  exact hmarked hunmarked

/-- A deleted row comes back pending, and a consumption is overwritten. -/
theorem stale_renewal_loses :
    ¬Along (step deliveryClock) (fun _ _ w' => StaysRemoved w' ∧ StaysConsumed w')
        (start noRows) (staleRenewal (.delete "e1")) ∧
      ¬Along (step deliveryClock) (fun _ _ w' => StaysRemoved w' ∧ StaysConsumed w')
        (start noRows)
        (staleRenewal (.consume "e1" "2026-08-01T00:01:00+00:00" "operator" .chat)) := by
  have hstart := stands_start noRows
  constructor
  · intro h
    have hend : (Runs.run (step deliveryClock) (start noRows)
        (staleRenewal (.delete "e1"))).any (·.restored "e1") = true := by decide +kernel
    obtain ⟨w, hw, hrestored⟩ := (Option.any_eq_true _ _).mp hend
    have halways : Runs.Always (step deliveryClock) (fun w => StaysRemoved w ∧ StaysConsumed w)
        (start noRows) (staleRenewal (.delete "e1")) := ⟨⟨hstart.removed, hstart.consumed⟩, h⟩
    exact not_staysRemoved_of_restored hrestored (halways.at_end hw).1
  · intro h
    have hend : (Runs.run (step deliveryClock) (start noRows) (staleRenewal
        (.consume "e1" "2026-08-01T00:01:00+00:00" "operator" .chat))).any
          (·.unconsumed "e1") = true := by decide +kernel
    obtain ⟨w, hw, hunconsumed⟩ := (Option.any_eq_true _ _).mp hend
    have halways : Runs.Always (step deliveryClock) (fun w => StaysRemoved w ∧ StaysConsumed w)
        (start noRows) (staleRenewal
          (.consume "e1" "2026-08-01T00:01:00+00:00" "operator" .chat)) :=
      ⟨⟨hstart.removed, hstart.consumed⟩, h⟩
    exact not_staysConsumed_of_unconsumed hunconsumed (halways.at_end hw).2

end AgentsRemember.Inbox
