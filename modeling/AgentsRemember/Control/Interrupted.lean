import AgentsRemember.Control.InterruptCalls

/-!
# Control — Interrupted

What the log of evidence keeps while turns start and end, and what a reader of
its pages has found at each of them: for codex nothing needs to be remembered,
for Claude no turn has ended since the floor, for pi the reader carries the last
stop reason since the floor, of whatever message that was.
-/

namespace AgentsRemember.Control

/-! ## The log -/

/-- The turns that have ended after a sequence, in order. -/
def EvidenceLog.endedAfter (log : EvidenceLog) (floor : Nat) : List String :=
  (log.after floor).filterMap (·.turn)

/-- What the log keeps in every run. -/
structure EvidenceLog.Consistent (harness : HarnessId) (log : EvidenceLog) : Prop where
  increasing : log.entries.Pairwise fun a b => a.sequence < b.sequence
  bounded : ∀ entry ∈ log.entries, entry.sequence ≤ log.sequence
  published : log.published ≤ log.sequence
  ended : ∀ entry ∈ log.entries, ∀ turnId, entry.turn = some turnId →
    entry.frame.ends harness turnId = true ∧ turnId ∈ log.turns
  quiet : harness ≠ .pi → ∀ entry ∈ log.entries, entry.turn = none →
    entry.frame.terminal harness = false
  once : (log.entries.filterMap (·.turn)).Nodup
  running : ∀ turnId, log.active = some turnId →
    turnId ∈ log.turns ∧ turnId ∉ log.entries.filterMap (·.turn)

/-- A later log: entries are added beyond the sequence, and old ones are let go of. -/
structure EvidenceLog.Grows (log later : EvidenceLog) : Prop where
  sequence : log.sequence ≤ later.sequence
  evicted : log.evictedBefore ≤ later.evictedBefore
  entries : ∃ new, later.entries = log.entries ++ new ∧
    ∀ entry ∈ new, log.sequence < entry.sequence

section log
variable {harness : HarnessId} {log later : EvidenceLog}

theorem EvidenceLog.Grows.of_entries (hentries : later.entries = log.entries)
    (hsequence : log.sequence ≤ later.sequence)
    (hevicted : log.evictedBefore ≤ later.evictedBefore) : log.Grows later :=
  ⟨hsequence, hevicted, [], by simp [hentries], by simp⟩

theorem EvidenceLog.grows_append (log : EvidenceLog) (kind : String)
    (raw : List (String × Datum)) (turn : Option String) : log.Grows (log.append kind raw turn) where
  sequence := Nat.le_succ _
  evicted := Nat.le_refl _
  entries := by
    refine ⟨_, rfl, fun entry hentry => ?_⟩
    rw [List.mem_singleton.mp hentry]
    exact Nat.lt_succ_self _

theorem EvidenceLog.consistent_empty : ({} : EvidenceLog).Consistent harness where
  increasing := List.Pairwise.nil
  bounded := fun _ h => nomatch h
  published := Nat.le_refl _
  ended := fun _ h => nomatch h
  quiet := fun _ _ h => nomatch h
  once := List.nodup_nil
  running := fun _ h => nomatch h

/-- One more entry, of a turn that has not ended yet or of none. -/
theorem EvidenceLog.Consistent.append (h : log.Consistent harness) {kind : String}
    {raw : List (String × Datum)} {turn : Option String}
    (hended : ∀ turnId, turn = some turnId →
      (log.nextFrame kind raw).ends harness turnId = true ∧ turnId ∈ log.turns ∧
        turnId ∉ log.entries.filterMap (·.turn))
    (hquiet : harness ≠ .pi → turn = none → (log.nextFrame kind raw).terminal harness = false)
    (hrunning : ∀ turnId, log.active = some turnId → turn ≠ some turnId) :
    (log.append kind raw turn).Consistent harness := by
  have hturns : (log.append kind raw turn).entries.filterMap (·.turn) =
      log.entries.filterMap (·.turn) ++ turn.toList := by
    show (log.entries ++ [EvidenceEntry.mk _ turn]).filterMap EvidenceEntry.turn = _
    rw [List.filterMap_append]
    cases turn <;> rfl
  constructor
  · show (log.entries ++ [_]).Pairwise _
    rw [List.pairwise_append]
    refine ⟨h.increasing, List.pairwise_singleton _ _, fun a ha b hb => ?_⟩
    rw [List.mem_singleton.mp hb]
    exact Nat.lt_succ_of_le (h.bounded a ha)
  · intro entry hentry
    rcases List.mem_append.mp hentry with hentry | hentry
    · exact Nat.le_succ_of_le (h.bounded entry hentry)
    · rw [List.mem_singleton.mp hentry]
      exact Nat.le_refl _
  · exact Nat.le_succ_of_le h.published
  · intro entry hentry turnId hturn
    rcases List.mem_append.mp hentry with hentry | hentry
    · exact h.ended entry hentry turnId hturn
    · cases List.mem_singleton.mp hentry
      obtain ⟨hends, hmem, -⟩ := hended turnId hturn
      exact ⟨hends, hmem⟩
  · intro hharness entry hentry hturn
    rcases List.mem_append.mp hentry with hentry | hentry
    · exact h.quiet hharness entry hentry hturn
    · cases List.mem_singleton.mp hentry
      exact hquiet hharness hturn
  · rw [hturns]
    cases turn with
    | none => simpa using h.once
    | some turnId =>
      rw [Option.toList_some, List.nodup_append]
      refine ⟨h.once, by simp, fun a ha b hb => ?_⟩
      rw [List.mem_singleton.mp hb]
      rintro rfl
      exact (hended a rfl).2.2 ha
  · intro turnId hactive
    obtain ⟨hmem, hnot⟩ := h.running turnId hactive
    refine ⟨hmem, ?_⟩
    rw [hturns, List.mem_append, Option.mem_toList]
    rintro (hin | hin)
    · exact hnot hin
    · exact hrunning turnId hactive hin

theorem EvidenceLog.step_spec (h : log.Consistent harness) {step : HarnessStep}
    (hstep : log.step harness step = some later) : later.Consistent harness ∧ log.Grows later := by
  cases step with
  | event =>
    cases hstep
    refine ⟨{ h with bounded := ?_, published := ?_ }, .of_entries rfl (Nat.le_succ _)
      (Nat.le_refl _)⟩
    · exact fun entry hentry => Nat.le_succ_of_le (h.bounded entry hentry)
    · exact Nat.le_succ_of_le h.published
  | publish =>
    cases hstep
    exact ⟨{ h with published := Nat.le_refl _ }, .of_entries rfl (Nat.le_refl _) (Nat.le_refl _)⟩
  | frame kind raw =>
    simp only [EvidenceLog.step] at hstep
    split at hstep
    · cases hstep
    next hterminal =>
      cases hstep
      refine ⟨h.append (fun _ hnone => nomatch hnone) (fun hharness _ => ?_)
        (fun _ _ hnone => nomatch hnone), log.grows_append kind raw none⟩
      exact eq_false_of_ne_true fun hends => hterminal ⟨hharness, hends⟩
  | startTurn turnId =>
    simp only [EvidenceLog.step] at hstep
    split at hstep
    · cases hstep
    next hfree =>
      cases hstep
      have hnew : turnId ∉ log.turns := fun hmem => hfree (.inr hmem)
      refine ⟨{ h with ended := ?_, running := ?_ }, .of_entries rfl (Nat.le_refl _)
        (Nat.le_refl _)⟩
      · intro entry hentry other hturn
        obtain ⟨hends, hmem⟩ := h.ended entry hentry other hturn
        exact ⟨hends, List.mem_append_left _ hmem⟩
      · intro other hactive
        cases hactive
        refine ⟨by simp, fun hin => ?_⟩
        obtain ⟨entry, hentry, hturn⟩ := List.mem_filterMap.mp hin
        exact hnew (h.ended entry hentry turnId hturn).2
  | endTurn kind raw =>
    simp only [EvidenceLog.step, Option.bind_eq_some_iff] at hstep
    obtain ⟨turnId, hactive, hstep⟩ := hstep
    split at hstep
    next hends =>
      cases hstep
      obtain ⟨hmem, hnot⟩ := h.running turnId hactive
      -- no turn runs any more, so the entry may be of the one that did
      have hidle : ({ log with active := none } : EvidenceLog).Consistent harness :=
        { h with running := fun _ hnone => nomatch hnone }
      refine ⟨?_, ⟨Nat.le_succ _, Nat.le_refl _, (log.grows_append kind raw (some turnId)).entries⟩⟩
      have hended : ∀ other, some turnId = some other →
          (log.nextFrame kind raw).ends harness other = true ∧ other ∈ log.turns ∧
            other ∉ log.entries.filterMap (·.turn) := by
        intro other hother
        cases hother
        exact ⟨hends, hmem, hnot⟩
      exact hidle.append hended (fun _ hnone => nomatch hnone) (fun _ hnone => nomatch hnone)
    · cases hstep
  | evict before =>
    cases hstep
    exact ⟨{ h with }, .of_entries rfl (Nat.le_refl _) (Nat.le_max_left _ _)⟩

/-- A terminal event of codex or Claude is the end of a turn. -/
theorem EvidenceLog.Consistent.turn_of_ends (h : log.Consistent harness) (hharness : harness ≠ .pi)
    {entry : EvidenceEntry} (hentry : entry ∈ log.entries) {turnId : String}
    (hends : entry.frame.ends harness turnId = true) : ∃ ended, entry.turn = some ended := by
  cases hturn : entry.turn with
  | some ended => exact ⟨ended, rfl⟩
  | none =>
    have hquiet := h.quiet hharness entry hentry hturn
    rw [terminal_of_ends hends] at hquiet
    cases hquiet

/-- A turn ends once. -/
theorem EvidenceLog.Consistent.entry_unique (h : log.Consistent harness) {a b : EvidenceEntry}
    (ha : a ∈ log.entries) (hb : b ∈ log.entries) {turnId : String} (hta : a.turn = some turnId)
    (htb : b.turn = some turnId) : a = b := by
  have honce := h.once
  obtain ⟨pre, post, hsplit⟩ := List.append_of_mem ha
  rw [hsplit, List.filterMap_append, List.filterMap_cons_some hta] at honce
  rw [hsplit] at hb
  have hrest : ∀ l : List EvidenceEntry, b ∈ l → turnId ∈ l.filterMap (·.turn) :=
    fun l hbl => List.mem_filterMap.mpr ⟨b, hbl, htb⟩
  obtain ⟨-, hcons, hapart⟩ := List.nodup_append.mp honce
  rcases List.mem_append.mp hb with hb | hb
  · exact absurd rfl (hapart turnId (hrest pre hb) turnId List.mem_cons_self)
  rcases List.mem_cons.mp hb with rfl | hb
  · rfl
  · exact absurd (hrest post hb) (List.nodup_cons.mp hcons).1

end log

/-! ## Pages -/

/-- The entries after a sequence that give a stop reason. -/
def EvidenceLog.stopsAfter (log : EvidenceLog) (floor : Nat) : List EvidenceEntry :=
  (log.after floor).filter fun entry => (stopReason entry.frame).isSome

/-- The evidence is such that it decides for the turn that the record names. A codex
frame says which turn it ends; a result of Claude is of the first turn that ends after
the floor; and the last stop reason of pi after the floor may be the one that ends the
turn. -/
def InterruptRecord.Decides (log : EvidenceLog) (record : InterruptRecord) : Prop :=
  match record.harnessId with
  | .codex => True
  | .claude => log.evictedBefore ≤ record.evidenceFloor ∧
      (log.endedAfter record.evidenceFloor).head? = some record.turnId
  | .pi => log.evictedBefore ≤ record.evidenceFloor ∧
      ((log.stopsAfter record.evidenceFloor).getLast?.bind (·.turn)) = some record.turnId

/-- The settlement is what an entry behind the floor says, which is of the record's own
turn where the evidence decides for it. -/
structure SettledBy (log : EvidenceLog) (record : InterruptRecord) (settlement : Settlement)
    (entry : EvidenceEntry) : Prop where
  mem : entry ∈ log.entries
  late : record.evidenceFloor < entry.sequence
  outcome : ∃ detail,
    frameOutcome record.harnessId record.turnId entry.frame = .ok (some (settlement, detail))
  own : record.Decides log → entry.turn = some record.turnId

/-- What a reader knows that stands at `after`, having seen a stop reason or none. -/
structure ReadUpTo (log : EvidenceLog) (record : InterruptRecord) (after : Nat)
    (seen : Option String) : Prop where
  floor : record.evidenceFloor ≤ after
  bounded : after ≤ log.sequence
  stopped : ∀ reason, seen = some reason → ∃ entry ∈ log.entries,
    record.evidenceFloor < entry.sequence ∧ stopReason entry.frame = some reason
  claude : record.harnessId = .claude → log.evictedBefore ≤ record.evidenceFloor →
    ∀ entry ∈ Watermark.between EvidenceEntry.sequence log.entries record.evidenceFloor after,
      entry.frame.terminal .claude = false
  pi : record.harnessId = .pi → log.evictedBefore ≤ record.evidenceFloor →
    lastStopReason none ((Watermark.between EvidenceEntry.sequence log.entries
      record.evidenceFloor after).map (·.frame)) = seen

theorem firstOutcome_none {harness : HarnessId} {turnId : String} {frames : List EvidenceFrame}
    (h : firstOutcome harness turnId frames = .ok none) :
    ∀ frame ∈ frames, frame.ends harness turnId = false := by
  induction frames with
  | nil => intro _ hnil; cases hnil
  | cons frame frames ih =>
    simp only [firstOutcome] at h
    split at h
    · cases h
    · cases h
    next hnone =>
      intro other hother
      rcases List.mem_cons.mp hother with rfl | hother
      · simp [EvidenceFrame.ends, hnone]
      · exact ih h other hother

theorem firstOutcome_some {harness : HarnessId} {turnId : String} {frames : List EvidenceFrame}
    {outcome : Outcome} (h : firstOutcome harness turnId frames = .ok (some outcome)) :
    ∃ front frame back, frames = front ++ frame :: back ∧
      frameOutcome harness turnId frame = .ok (some outcome) ∧
      ∀ earlier ∈ front, earlier.ends harness turnId = false := by
  induction frames with
  | nil => cases h
  | cons frame frames ih =>
    simp only [firstOutcome] at h
    split at h
    · cases h
    next hsome =>
      cases h
      exact ⟨[], frame, frames, rfl, hsome, fun _ hnil => nomatch hnil⟩
    next hnone =>
      obtain ⟨front, found, back, rfl, hfound, hfront⟩ := ih h
      refine ⟨frame :: front, found, back, rfl, hfound, fun earlier hearlier => ?_⟩
      rcases List.mem_cons.mp hearlier with rfl | hearlier
      · simp [EvidenceFrame.ends, hnone]
      · exact hfront earlier hearlier

theorem lastStopReason_append (seen : Option String) (frames more : List EvidenceFrame) :
    lastStopReason seen (frames ++ more) = lastStopReason (lastStopReason seen frames) more :=
  List.foldl_append

theorem lastStopReason_some {seen : Option String} {frames : List EvidenceFrame} {reason : String}
    (h : lastStopReason seen frames = some reason) :
    (seen = some reason ∧ ∀ frame ∈ frames, stopReason frame = none) ∨
      ∃ front frame back, frames = front ++ frame :: back ∧ stopReason frame = some reason ∧
        ∀ later ∈ back, stopReason later = none := by
  induction frames generalizing seen with
  | nil => exact .inl ⟨h, fun _ hnil => nomatch hnil⟩
  | cons frame frames ih =>
    rcases ih h with ⟨hseen, hrest⟩ | ⟨front, found, back, rfl, hfound, hback⟩
    · cases hframe : stopReason frame with
      | some found =>
        simp only [hframe] at hseen
        cases hseen
        exact .inr ⟨[], frame, frames, rfl, hframe, hrest⟩
      | none =>
        simp only [hframe, Option.orElse_none] at hseen
        refine .inl ⟨hseen, fun other hother => ?_⟩
        rcases List.mem_cons.mp hother with rfl | hother
        · exact hframe
        · exact hrest other hother
    · exact .inr ⟨frame :: front, found, back, rfl, hfound, hback⟩

section reading
variable {harness : HarnessId} {log later : EvidenceLog} {record : InterruptRecord} {after : Nat}
  {seen : Option String}

theorem EvidenceLog.mem_unread {entry : EvidenceEntry} (h : entry ∈ log.unread after) :
    entry ∈ log.entries ∧ after < entry.sequence :=
  ⟨(List.mem_filter.mp (List.mem_filter.mp h).1).1, of_decide_eq_true (List.mem_filter.mp h).2⟩

/-- Where nothing behind the mark is let go of, all of it can still be read. -/
theorem EvidenceLog.unread_eq (h : log.evictedBefore ≤ after) :
    log.unread after = log.after after := by
  unfold EvidenceLog.unread EvidenceLog.after
  rw [List.filter_filter]
  apply List.filter_congr
  intro entry _
  by_cases hlt : after < entry.sequence
  · simp [hlt, Nat.lt_of_le_of_lt h hlt]
  · simp [hlt]

/-- An entry that ends no turn is of none. -/
theorem EvidenceLog.Consistent.turn_none (h : log.Consistent harness) (hunnamed : harness ≠ .codex)
    {entry : EvidenceEntry} (hentry : entry ∈ log.entries) {turnId : String}
    (hends : entry.frame.ends harness turnId = false) : entry.turn = none := by
  cases hturn : entry.turn with
  | none => rfl
  | some ended =>
    have hdoes := (h.ended entry hentry ended hturn).1
    unfold EvidenceFrame.ends at hends hdoes
    rw [frameOutcome_unnamed hunnamed ended turnId] at hdoes
    rw [hdoes] at hends
    cases hends

theorem filterMap_turn_eq_nil {entries : List EvidenceEntry}
    (h : ∀ entry ∈ entries, entry.turn = none) : entries.filterMap (·.turn) = [] :=
  List.filterMap_eq_nil_iff.mpr h

theorem ReadUpTo.start (hbounded : record.evidenceFloor ≤ log.sequence) :
    ReadUpTo log record record.evidenceFloor none where
  floor := Nat.le_refl _
  bounded := hbounded
  stopped := fun _ hnone => nomatch hnone
  claude := by
    rw [Watermark.between_self]
    exact fun _ _ _ hnil => nomatch hnil
  pi := by
    rw [Watermark.between_self]
    exact fun _ _ => rfl

/-- What is added to the log is not behind the reader yet. -/
theorem ReadUpTo.grow (h : ReadUpTo log record after seen) (hgrows : log.Grows later) :
    ReadUpTo later record after seen := by
  obtain ⟨hsequence, hevicted, new, hentries, hnew⟩ := hgrows
  have hbetween : Watermark.between EvidenceEntry.sequence later.entries record.evidenceFloor after =
      Watermark.between EvidenceEntry.sequence log.entries record.evidenceFloor after := by
    have hnone : (new.filter fun entry => entry.sequence ≤ after) = [] := by
      rw [List.filter_eq_nil_iff]
      intro entry hentry
      have hlate := hnew entry hentry
      have hbounded := h.bounded
      simp only [decide_eq_true_eq]
      omega
    rw [Watermark.between, hentries, List.filter_append, hnone, List.append_nil, Watermark.between]
  constructor
  · exact h.floor
  · exact Nat.le_trans h.bounded hsequence
  · intro reason hreason
    obtain ⟨entry, hentry, hlate, hstop⟩ := h.stopped reason hreason
    refine ⟨entry, ?_, hlate, hstop⟩
    rw [hentries]
    exact List.mem_append_left _ hentry
  · rw [hbetween]
    exact fun hclaude hfloor => h.claude hclaude (Nat.le_trans hevicted hfloor)
  · rw [hbetween]
    exact fun hpi hfloor => h.pi hpi (Nat.le_trans hevicted hfloor)

/-- The mark behind a page. -/
theorem next_eq (entries : List EvidenceEntry) :
    Watermark.after EvidenceFrame.sequence after (entries.map (·.frame)) =
      Watermark.after EvidenceEntry.sequence after entries := by
  unfold Watermark.after
  rw [List.map_map]
  rfl

/-- The frames of a page, found again among the entries that it was taken from. -/
theorem split_frames {entries : List EvidenceEntry} {front back : List EvidenceFrame}
    {frame : EvidenceFrame} (h : entries.map (·.frame) = front ++ frame :: back) :
    ∃ before entry behind, entries = before ++ entry :: behind ∧ entry.frame = frame ∧
      before.map (·.frame) = front ∧ behind.map (·.frame) = back := by
  obtain ⟨before, rest, rfl, hbefore, hrest⟩ := List.map_eq_append_iff.mp h
  obtain ⟨entry, behind, rfl, hentry, hbehind⟩ := List.map_eq_cons_iff.mp hrest
  exact ⟨before, entry, behind, rfl, hentry, hbefore, hbehind⟩

/-- Where no turn is named, entries whose frames end none are of none. -/
theorem EvidenceLog.Consistent.filterMap_turn (h : log.Consistent harness)
    (hunnamed : harness ≠ .codex) {entries : List EvidenceEntry}
    (hentries : ∀ entry ∈ entries, entry ∈ log.entries) {frames : List EvidenceFrame}
    (hframes : entries.map (·.frame) = frames) {turnId : String}
    (hends : ∀ frame ∈ frames, frame.ends harness turnId = false) :
    entries.filterMap (·.turn) = [] := by
  apply filterMap_turn_eq_nil
  intro entry hentry
  have hframe : entry.frame ∈ frames := hframes ▸ List.mem_map_of_mem hentry
  exact h.turn_none hunnamed (hentries entry hentry) (hends entry.frame hframe)

section page
variable (hlog : log.Consistent harness) (hread : ReadUpTo log record after seen) {more : Nat}
  {page : List EvidenceEntry} (hpage : page = (log.unread after).take (more + 1))
include hpage

theorem page_mem {entry : EvidenceEntry} (h : entry ∈ page) :
    entry ∈ log.entries ∧ after < entry.sequence := by
  rw [hpage] at h
  exact EvidenceLog.mem_unread (List.mem_of_mem_take h)

include hlog hread

/-- What comes after the floor: what was read, the page, and the rest. -/
theorem after_floor_page (hkept : log.evictedBefore ≤ record.evidenceFloor) :
    log.after record.evidenceFloor =
      Watermark.between EvidenceEntry.sequence log.entries record.evidenceFloor after ++
        (page ++ (log.unread after).drop (more + 1)) := by
  rw [hpage, List.take_append_drop, EvidenceLog.unread_eq (Nat.le_trans hkept hread.floor)]
  exact Watermark.after_floor hlog.increasing hread.floor

/-- The first result behind the floor ends the first turn that has ended there. -/
theorem settledBy_claude (hharness : harness = .claude) (hrecord : record.harnessId = .claude)
    {outcome : Outcome}
    (h : firstOutcome .claude record.turnId (page.map (·.frame)) = .ok (some outcome)) :
    ∃ entry, SettledBy log record outcome.1 entry := by
  subst hharness
  obtain ⟨front, frame, back, hframes, hframe, hfront⟩ := firstOutcome_some h
  obtain ⟨before, entry, behind, hsplit, rfl, hbefore, -⟩ := split_frames hframes
  have hentry : entry ∈ page := by rw [hsplit]; simp
  obtain ⟨hmem, hlate⟩ := page_mem hpage hentry
  refine ⟨entry, hmem, Nat.lt_of_le_of_lt hread.floor hlate, ⟨outcome.2, by rw [hrecord]; exact hframe⟩,
    fun hdecides => ?_⟩
  simp only [InterruptRecord.Decides, hrecord] at hdecides
  obtain ⟨hkept, hhead⟩ := hdecides
  obtain ⟨ended, hended⟩ := hlog.turn_of_ends (by decide) hmem (ends_iff.mpr ⟨outcome, hframe⟩)
  -- neither what was read nor the front of the page ends a turn
  have hread' : (Watermark.between EvidenceEntry.sequence log.entries record.evidenceFloor
      after).filterMap (·.turn) = [] := by
    apply filterMap_turn_eq_nil
    intro earlier hearlier
    have hquiet : earlier.frame.ends .claude "" = false :=
      hread.claude hrecord hkept earlier hearlier
    exact hlog.turn_none (by decide) (Watermark.mem_between.mp hearlier).1 hquiet
  have hbefore' : before.filterMap (·.turn) = [] := by
    refine hlog.filterMap_turn (by decide) (fun earlier hearlier => ?_) hbefore hfront
    exact (page_mem hpage (by rw [hsplit]; exact List.mem_append_left _ hearlier)).1
  rw [EvidenceLog.endedAfter, after_floor_page hlog hread hpage hkept, hsplit,
    List.filterMap_append, hread', List.nil_append, List.append_assoc, List.filterMap_append,
    hbefore', List.nil_append, List.cons_append, List.filterMap_cons_some hended] at hhead
  rw [hended]
  exact hhead

/-- A frame of codex ends the turn that it names. -/
theorem settledBy_codex (hharness : harness = .codex) (hrecord : record.harnessId = .codex)
    {outcome : Outcome}
    (h : firstOutcome .codex record.turnId (page.map (·.frame)) = .ok (some outcome)) :
    ∃ entry, SettledBy log record outcome.1 entry := by
  subst hharness
  obtain ⟨front, frame, back, hframes, hframe, -⟩ := firstOutcome_some h
  obtain ⟨before, entry, behind, hsplit, rfl, -, -⟩ := split_frames hframes
  have hentry : entry ∈ page := by rw [hsplit]; simp
  obtain ⟨hmem, hlate⟩ := page_mem hpage hentry
  refine ⟨entry, hmem, Nat.lt_of_le_of_lt hread.floor hlate, ⟨outcome.2, by rw [hrecord]; exact hframe⟩,
    fun _ => ?_⟩
  have hends : entry.frame.ends .codex record.turnId = true := ends_iff.mpr ⟨outcome, hframe⟩
  obtain ⟨ended, hended⟩ := hlog.turn_of_ends (by decide) hmem hends
  rw [hended, codex_ends_unique (hlog.ended entry hmem ended hended).1 hends]

/-- The reason is the last behind the floor. -/
theorem settledBy_pi (hharness : harness = .pi) (hrecord : record.harnessId = .pi)
    (hlast : (log.unread after).length ≤ more + 1) {reason : String}
    (h : lastStopReason seen (page.map (·.frame)) = some reason) :
    ∃ entry, SettledBy log record (piStopOutcome reason).1 entry := by
  subst hharness
  have houtcome : ∀ {frame : EvidenceFrame}, stopReason frame = some reason →
      ∃ detail, frameOutcome record.harnessId record.turnId frame =
        .ok (some ((piStopOutcome reason).1, detail)) := by
    intro frame hframe
    exact ⟨(piStopOutcome reason).2, by simp [hrecord, frameOutcome, hframe]⟩
  by_cases hkept : log.evictedBefore ≤ record.evidenceFloor
  · -- the reader has seen all that comes after the floor
    have hall : log.after record.evidenceFloor =
        Watermark.between EvidenceEntry.sequence log.entries record.evidenceFloor after ++ page := by
      have hdrop : (log.unread after).drop (more + 1) = [] := List.drop_eq_nil_of_le hlast
      rw [after_floor_page hlog hread hpage hkept, hdrop, List.append_nil]
    rw [← hread.pi hrecord hkept, ← lastStopReason_append, ← List.map_append, ← hall] at h
    obtain ⟨hnone, -⟩ | ⟨front, frame, back, hframes, hframe, hback⟩ := lastStopReason_some h
    · cases hnone
    obtain ⟨before, entry, behind, hsplit, rfl, -, hbehind⟩ := split_frames hframes
    have hafter : ∀ other ∈ log.after record.evidenceFloor,
        other ∈ log.entries ∧ record.evidenceFloor < other.sequence :=
      fun other hother =>
        ⟨(List.mem_filter.mp hother).1, of_decide_eq_true (List.mem_filter.mp hother).2⟩
    obtain ⟨hmem, hlate⟩ := hafter entry (by rw [hsplit]; simp)
    refine ⟨entry, hmem, hlate, houtcome hframe, fun hdecides => ?_⟩
    simp only [InterruptRecord.Decides, hrecord] at hdecides
    have hbehind' : behind.filter (fun later => (stopReason later.frame).isSome) = [] := by
      rw [List.filter_eq_nil_iff]
      intro later hlater
      have hframe' : later.frame ∈ back := hbehind ▸ List.mem_map_of_mem hlater
      simp [hback later.frame hframe']
    have hlast' : (log.stopsAfter record.evidenceFloor).getLast? = some entry := by
      rw [EvidenceLog.stopsAfter, hsplit, List.filter_append, List.filter_cons_of_pos (by simp [hframe]),
        hbehind', List.getLast?_concat]
    rw [hlast'] at hdecides
    exact hdecides.2
  · have hnot : ¬record.Decides log := by
      simp only [InterruptRecord.Decides, hrecord]
      exact fun hdecides => hkept hdecides.1
    obtain ⟨hseen, -⟩ | ⟨front, frame, back, hframes, hframe, -⟩ := lastStopReason_some h
    · obtain ⟨entry, hmem, hlate, hstop⟩ := hread.stopped reason hseen
      exact ⟨entry, hmem, hlate, houtcome hstop, fun hdecides => absurd hdecides hnot⟩
    · obtain ⟨before, entry, behind, hsplit, rfl, -, -⟩ := split_frames hframes
      obtain ⟨hmem, hlate⟩ := page_mem hpage (show entry ∈ page by rw [hsplit]; simp)
      exact ⟨entry, hmem, Nat.lt_of_le_of_lt hread.floor hlate, houtcome hframe,
        fun hdecides => absurd hdecides hnot⟩

end page

/-! ## One page read -/

theorem page_frames (more : Nat) : (log.page after more).frames =
    ((log.unread after).take (more + 1)).map (·.frame) := rfl

theorem readPage_decided (hlog : log.Consistent record.harnessId)
    (hread : ReadUpTo log record after seen) {more : Nat} {outcome : Outcome}
    (h : readPage record.harnessId record.turnId after seen (log.page after more) =
      .decided (some outcome)) : ∃ entry, SettledBy log record outcome.1 entry := by
  cases hharness : record.harnessId with
  | pi =>
    rw [hharness] at h hlog
    simp only [readPage] at h
    split at h
    · cases h
    next hlast =>
      simp only [Reading.decided.injEq, Option.map_eq_some_iff] at h
      obtain ⟨reason, hreason, rfl⟩ := h
      have hlast : (log.unread after).length ≤ more + 1 := by
        simpa [EvidenceLog.page] using hlast
      exact settledBy_pi hlog hread rfl rfl hharness hlast hreason
  | codex =>
    rw [hharness] at h hlog
    simp only [readPage] at h
    split at h
    · cases h
    next hfirst =>
      cases h
      exact settledBy_codex hlog hread rfl rfl hharness hfirst
    · split at h <;> cases h
  | claude =>
    rw [hharness] at h hlog
    simp only [readPage] at h
    split at h
    · cases h
    next hfirst =>
      cases h
      exact settledBy_claude hlog hread rfl rfl hharness hfirst
    · split at h <;> cases h

/-- What the reader knows behind a page that did not decide. -/
theorem ReadUpTo.next (hlog : log.Consistent harness) (hread : ReadUpTo log record after seen)
    {more : Nat} {page : List EvidenceEntry} (hpage : page = (log.unread after).take (more + 1))
    {seen' : Option String}
    (hstopped : ∀ reason, seen' = some reason → ∃ entry ∈ log.entries,
      record.evidenceFloor < entry.sequence ∧ stopReason entry.frame = some reason)
    (hclaude : record.harnessId = .claude → ∀ entry ∈ page, entry.frame.terminal .claude = false)
    (hpi : record.harnessId = .pi → lastStopReason seen (page.map (·.frame)) = seen') :
    ReadUpTo log record (Watermark.after EvidenceEntry.sequence after page) seen' := by
  have hmem : ∀ entry ∈ page, entry ∈ log.entries ∧ after < entry.sequence :=
    fun entry hentry => page_mem hpage hentry
  have hbetween : log.evictedBefore ≤ record.evidenceFloor →
      Watermark.between EvidenceEntry.sequence log.entries record.evidenceFloor
        (Watermark.after EvidenceEntry.sequence after page) =
      Watermark.between EvidenceEntry.sequence log.entries record.evidenceFloor after ++ page := by
    intro hkept
    have hunread : log.unread after = log.entries.filter fun entry => after < entry.sequence :=
      EvidenceLog.unread_eq (Nat.le_trans hkept hread.floor)
    rw [hpage, hunread]
    exact Watermark.between_page hlog.increasing hread.floor (more + 1)
  constructor
  · exact Nat.le_trans hread.floor (Watermark.le_after after fun entry hentry => (hmem entry hentry).2)
  · exact Watermark.after_le hread.bounded fun entry hentry => hlog.bounded entry (hmem entry hentry).1
  · exact hstopped
  · intro hrecord hkept entry hentry
    rw [hbetween hkept] at hentry
    rcases List.mem_append.mp hentry with hentry | hentry
    · exact hread.claude hrecord hkept entry hentry
    · exact hclaude hrecord entry hentry
  · intro hrecord hkept
    rw [hbetween hkept, List.map_append, lastStopReason_append, hread.pi hrecord hkept]
    exact hpi hrecord

theorem readPage_more (hlog : log.Consistent record.harnessId)
    (hread : ReadUpTo log record after seen) {more after' : Nat} {seen' : Option String}
    (h : readPage record.harnessId record.turnId after seen (log.page after more) =
      .more after' seen') : ReadUpTo log record after' seen' := by
  cases hharness : record.harnessId with
  | pi =>
    rw [hharness] at h hlog
    simp only [readPage, page_frames, next_eq] at h
    split at h
    · cases h
      refine hread.next hlog rfl (fun reason hreason => ?_) ?_ (fun _ => rfl)
      · obtain ⟨hseen, -⟩ | ⟨front, frame, back, hframes, hframe, -⟩ := lastStopReason_some hreason
        · exact hread.stopped reason hseen
        · obtain ⟨before, entry, behind, hsplit, rfl, -, -⟩ := split_frames hframes
          obtain ⟨hmem, hlate⟩ := page_mem rfl (show entry ∈ _ by rw [hsplit]; simp)
          exact ⟨entry, hmem, Nat.lt_of_le_of_lt hread.floor hlate, hframe⟩
      · rw [hharness]
        exact fun hother => nomatch hother
    · cases h
  | codex =>
    rw [hharness] at h hlog
    simp only [readPage, page_frames, next_eq] at h
    split at h
    · cases h
    · cases h
    split at h
    · cases h
      refine hread.next hlog rfl hread.stopped ?_ ?_
      · rw [hharness]
        exact fun hother => nomatch hother
      · rw [hharness]
        exact fun hother => nomatch hother
    · cases h
  | claude =>
    rw [hharness] at h hlog
    simp only [readPage, page_frames, next_eq] at h
    split at h
    · cases h
    · cases h
    next hnone =>
      split at h
      · cases h
        refine hread.next hlog rfl hread.stopped (fun _ entry hentry => ?_) ?_
        · exact firstOutcome_none hnone entry.frame (List.mem_map_of_mem hentry)
        · rw [hharness]
          exact fun hother => nomatch hother
      · cases h

end reading

end AgentsRemember.Control
