import AgentsRemember.Conversation.Turns
import AgentsRemember.Foundation.Watermark

/-!
# Conversation — Zipper

A session that is hydrated once and polled from then on. Each poll reads the
frames that were produced up to some point and then the entries that were
produced up to another: nothing ties the two points together.

The zipper keeps turn order as long as the two agree on what it goes by. An
echo may be read only when the result of the turn before it has been, and where
no echo is read no frame may wait while no turn is open. Over a window whose
front was evicted the bodies it counts must be those of the last echoes.
-/

namespace AgentsRemember.Conversation

variable {ρ ε : Type}

open EchoIngestion

/-- A session with the log of its sink. -/
structure ZipSession (ρ ε : Type) where
  echo : EchoIngestion ρ := {}
  evidenceAfter : Nat := 0
  evicted : Nat := 0
  hydrated : Bool := false
  log : List (Applied ρ ε) := []

/-- What a poll finds: how many frames and entries had been produced when it
read each of the two logs. The first one, the rebuild, finds a window without
the frames evicted by then. -/
inductive PollAct where
  | rebuild (evicted framesMade entriesMade : Nat)
  | poll (framesMade entriesMade : Nat)

namespace ZipSession

/-- The frames of the window that were not read yet. -/
def newFrames (h : History ρ ε) (s : ZipSession ρ ε) (evicted framesMade : Nat) :
    List (EvidenceFrame ρ) :=
  ((h.frames.take framesMade).drop evicted).filter fun frame => s.evidenceAfter < frame.sequence

/-- One page of the transcript, as the bridge serves it. -/
def transcriptPage (h : History ρ ε) (entriesMade after : Nat) : List (TranscriptEntry ε) :=
  ((h.entries.take entriesMade).filter fun entry => after < entry.position).take evidencePageLimit

/-- The entries a poll reads: one page, and before hydration all pages. -/
def newEntries (h : History ρ ε) (s : ZipSession ρ ε) (entriesMade : Nat) :
    List (TranscriptEntry ε) :=
  let page := transcriptPage h entriesMade s.echo.transcriptAfter
  if s.hydrated then page
  else readRetained (transcriptPage h entriesMade) (entriesMade + 1) page page

/-- One poll of both channels. -/
def pollChannels (h : History ρ ε) (s : ZipSession ρ ε) (evicted framesMade entriesMade : Nat) :
    ZipSession ρ ε :=
  let frames := newFrames h s evicted framesMade
  let entries := newEntries h s entriesMade
  let queued := frames.foldl enqueue s.echo
  let (echo, log) := zipPage logSink s.hydrated (evicted == 0) entries queued s.log
  { echo := echo
    evidenceAfter := ((frames.map EvidenceFrame.sequence).getLast?).getD s.evidenceAfter
    evicted := evicted
    hydrated := true
    log := log }

end ZipSession

/-- One step of a session. -/
def zipStep (h : History ρ ε) (s : ZipSession ρ ε) : PollAct → Option (ZipSession ρ ε)
  | .rebuild evicted framesMade entriesMade =>
    if s.hydrated then none
    else some (({ s with echo := s.echo.reset }).pollChannels h evicted framesMade entriesMade)
  | .poll framesMade entriesMade =>
    if s.hydrated then some (s.pollChannels h s.evicted framesMade entriesMade) else none

theorem zipStep_rebuild {h : History ρ ε} {s t : ZipSession ρ ε}
    {evicted framesMade entriesMade : Nat} :
    zipStep h s (.rebuild evicted framesMade entriesMade) = some t ↔ s.hydrated = false ∧
      ({ s with echo := s.echo.reset }).pollChannels h evicted framesMade entriesMade = t := by
  cases hs : s.hydrated <;> simp [zipStep, hs]

theorem zipStep_poll {h : History ρ ε} {s t : ZipSession ρ ε} {framesMade entriesMade : Nat} :
    zipStep h s (.poll framesMade entriesMade) = some t ↔ s.hydrated = true ∧
      s.pollChannels h s.evicted framesMade entriesMade = t := by
  cases hs : s.hydrated <;> simp [zipStep, hs]

/-! ## The condition -/

section condition
variable (h : History ρ ε) (s : ZipSession ρ ε)

/-- The results of the turns before those of the echoes are among the frames,
and without an echo no frame waits outside a turn. -/
def Matched (turnOpen : Bool) (frames : List (EvidenceFrame ρ))
    (entries : List (TranscriptEntry ε)) : Prop :=
  entries.countP TranscriptEntry.isUser ≤ resultCount frames + (if turnOpen then 0 else 1) ∧
    (entries.countP TranscriptEntry.isUser = 0 → turnOpen = true ∨ frames = [])

/-- The bodies counted in the window are those of the echoes behind the evicted
turns, whose own echoes come in front of everything else. -/
def Realigned (gone : Nat) (frames : List (EvidenceFrame ρ))
    (entries : List (TranscriptEntry ε)) : Prop :=
  entries.countP TranscriptEntry.isUser = gone + bodyCount frames ∧
    (bodyCount frames = 0 → frames = []) ∧ ∀ entry ∈ entries.take gone, entry.isUser

/-- The poll finds turns and frames in step. -/
def InStep : PollAct → ZipSession ρ ε → Prop
  | .rebuild evicted framesMade entriesMade, _ =>
    let frames := s.newFrames h evicted framesMade
    let entries := s.newEntries h entriesMade
    if evicted = 0 then Matched false frames entries
    else Realigned (resultCount (h.frames.take evicted)) frames entries
  | .poll framesMade entriesMade, _ =>
    Matched s.echo.turnOpen (s.echo.pendingFrames ++ s.newFrames h s.evicted framesMade)
      (s.newEntries h entriesMade)

end condition

section decidable
variable [DecidableEq ρ]

instance (turnOpen : Bool) (frames : List (EvidenceFrame ρ))
    (entries : List (TranscriptEntry ε)) : Decidable (Matched turnOpen frames entries) :=
  inferInstanceAs (Decidable (_ ∧ _))

instance (gone : Nat) (frames : List (EvidenceFrame ρ)) (entries : List (TranscriptEntry ε)) :
    Decidable (Realigned gone frames entries) :=
  inferInstanceAs (Decidable (_ ∧ _))

instance (h : History ρ ε) (s : ZipSession ρ ε) (act : PollAct) (t : ZipSession ρ ε) :
    Decidable (InStep h s act t) := by
  unfold InStep
  cases act <;> infer_instance

end decidable

/-! ## The property -/

/-- What was read was applied once, in order, every frame within its turn, or
waits for the echo of its turn; and the watermark only moved forward. -/
structure InTurnOrder (h : History ρ ε) (s : ZipSession ρ ε) : Prop where
  frames : framesApplied s.log ++ s.echo.pendingFrames =
    (h.frames.drop s.evicted).filter fun frame => frame.sequence ≤ s.evidenceAfter
  echoes : echoesApplied s.log = (h.entries.filter TranscriptEntry.isUser).filter
    fun entry => entry.position ≤ s.echo.transcriptAfter
  turns : heard 0 s.log <+: (turnsOf 0 h.events).drop s.evicted
  waiting : s.echo.pendingFrames ≠ [] → ∀ turn ∈
    ((turnsOf 0 h.events).drop s.evicted)[(framesApplied s.log).length]?,
    (echoesApplied s.log).length < turn
  watermark : (advances s.log).Pairwise (· < ·)
  reached : ∀ n ∈ advances s.log, n ≤ s.echo.transcriptAfter

/-! ## One body -/

/-- Frames and echoes are level: every frame came in its turn, and the echoes
are those of the ended turns and of the open one. -/
structure Level (gone : Nat) (turnOpen : Bool) (log : List (Applied ρ ε)) : Prop where
  heard : heard 0 log = bodyNumbers gone (framesApplied log)
  echoes : (echoesApplied log).length =
    gone + resultCount (framesApplied log) + if turnOpen then 1 else 0

section level
variable {gone : Nat} {turnOpen : Bool} {log : List (Applied ρ ε)}

theorem Level.echo (h : Level gone false log) (entry : TranscriptEntry ε) :
    Level gone true (log ++ [.echo entry]) := by
  refine ⟨by simpa using h.heard, ?_⟩
  have := h.echoes
  simp only [Bool.false_eq_true, if_false, Nat.add_zero] at this
  simp [this]

theorem Level.frame (h : Level gone true log) (frame : EvidenceFrame ρ) :
    Level gone (!frame.isResult) (log ++ [.frame frame]) := by
  have hechoes := h.echoes
  simp only [if_true] at hechoes
  constructor
  · rw [heard_frame, framesApplied_frame, bodyNumbers_append, h.heard, hechoes]
    rfl
  · rw [echoesApplied_frame, framesApplied_frame, resultCount_append, resultCount_cons, hechoes]
    cases frame.isResult
    · simp
    · simp
      omega

theorem Level.advance (h : Level gone turnOpen log) (n : Nat) :
    Level gone turnOpen (log ++ [.advance n]) :=
  ⟨by simpa using h.heard, by simpa using h.echoes⟩

/-- What draining one body of the queue gives. -/
structure Drained (gone : Nat) (pending : List (EvidenceFrame ρ)) (log : List (Applied ρ ε))
    (out : List (EvidenceFrame ρ) × List (Applied ρ ε) × Bool) : Prop where
  frames : framesApplied out.2.1 ++ out.1 = framesApplied log ++ pending
  echoes : echoesApplied out.2.1 = echoesApplied log
  advances : advances out.2.1 = advances log
  level : Level gone (!out.2.2) out.2.1
  closed : out.2.2 = true → resultCount pending = resultCount out.1 + 1
  ran : out.2.2 = false → out.1 = [] ∧ resultCount pending = 0

theorem drained_drainOneTurnBody (h : Level gone true log) (pending : List (EvidenceFrame ρ)) :
    Drained gone pending log (drainOneTurnBody logSink pending log) := by
  induction pending generalizing log with
  | nil => exact ⟨rfl, rfl, rfl, h, nofun, fun _ => ⟨rfl, rfl⟩⟩
  | cons frame pending ih =>
    by_cases hres : frame.isResult
    · have hlevel : Level gone false (log ++ [.frame frame]) := by simpa [hres] using h.frame frame
      simp only [drainOneTurnBody, hres, if_true, logSink_frame]
      exact ⟨by simp, by simp, by simp, hlevel, by simp [resultCount_cons, hres], nofun⟩
    · have hlevel : Level gone true (log ++ [.frame frame]) := by simpa [hres] using h.frame frame
      have ih := ih hlevel
      simp only [drainOneTurnBody, hres, Bool.false_eq_true, if_false, logSink_frame]
      have hcount : resultCount (frame :: pending) = resultCount pending := by
        simp [resultCount_cons, hres]
      exact ⟨by simpa using ih.frames, by simpa using ih.echoes, by simpa using ih.advances,
        ih.level, by rw [hcount]; exact ih.closed, by rw [hcount]; exact ih.ran⟩

end level

/-! ## A page of entries -/

/-- What zipping entries gives: the echoes of the page, in order, and the
watermark behind its last entry. -/
structure ZippedTo (gone : Nat) (entries : List (TranscriptEntry ε)) (s : EchoIngestion ρ)
    (log : List (Applied ρ ε)) (out : EchoIngestion ρ × List (Applied ρ ε)) : Prop where
  frames : framesApplied out.2 ++ out.1.pendingFrames = framesApplied log ++ s.pendingFrames
  echoes : echoesApplied out.2 = echoesApplied log ++ entries.filter TranscriptEntry.isUser
  advances : advances out.2 = advances log ++ entries.map TranscriptEntry.position
  after : out.1.transcriptAfter =
    ((entries.map TranscriptEntry.position).getLast?).getD s.transcriptAfter
  level : Level gone out.1.turnOpen out.2
  opened : entries.countP TranscriptEntry.isUser ≠ 0 → out.1.turnOpen = true
  idle : entries.countP TranscriptEntry.isUser = 0 →
    out.1.turnOpen = s.turnOpen ∧ out.1.pendingFrames = s.pendingFrames

section page
variable {gone : Nat} {s : EchoIngestion ρ} {log : List (Applied ρ ε)}

/-- Where no turn is open, or the one that is can be closed: the next echo
finds the frames of its turn in front of it. -/
theorem echo_ready (h : Level gone s.turnOpen log)
    (hroom : 0 < resultCount s.pendingFrames + (if s.turnOpen then 0 else 1)) :
    ∃ pending log', (if s.turnOpen then
        let (pending, t, _) := drainOneTurnBody logSink s.pendingFrames log
        (({ s with pendingFrames := pending, turnOpen := false }, t) : EchoIngestion ρ × _)
      else (s, log)) = ({ s with pendingFrames := pending, turnOpen := false }, log') ∧
      framesApplied log' ++ pending = framesApplied log ++ s.pendingFrames ∧
      echoesApplied log' = echoesApplied log ∧ advances log' = advances log ∧
      Level gone false log' ∧
      resultCount s.pendingFrames + (if s.turnOpen then 0 else 1) = resultCount pending + 1 := by
  by_cases hopen : s.turnOpen
  · have hdrained := drained_drainOneTurnBody (by simpa [hopen] using h) s.pendingFrames
    cases hclosed : (drainOneTurnBody logSink s.pendingFrames log).2.2 with
    | false =>
      have := (hdrained.ran hclosed).2
      simp [hopen, this] at hroom
    | true =>
      refine ⟨_, _, by simp [hopen], hdrained.frames, hdrained.echoes, hdrained.advances, ?_, ?_⟩
      · simpa [hclosed] using hdrained.level
      · simpa [hopen] using hdrained.closed hclosed
  · refine ⟨s.pendingFrames, log, ?_, rfl, rfl, rfl, by simpa [hopen] using h, by simp [hopen]⟩
    simp only [hopen, Bool.false_eq_true, if_false]
    obtain ⟨_, _, turnOpen⟩ := s
    simp at hopen
    simp [hopen]

theorem zipped_entries {entries : List (TranscriptEntry ε)}
    (hnumbered : ∀ entry ∈ entries, entry.sequence = some entry.position)
    (h : Level gone s.turnOpen log)
    (hroom : entries.countP TranscriptEntry.isUser ≤
      resultCount s.pendingFrames + (if s.turnOpen then 0 else 1)) :
    ZippedTo gone entries s log (zipEntries logSink entries s log) := by
  induction entries generalizing s log with
  | nil => exact ⟨rfl, by simp [zipEntries], by simp [zipEntries], rfl, h, by simp, fun _ => ⟨rfl, rfl⟩⟩
  | cons entry entries ih =>
    have hseq := hnumbered entry (by simp)
    have hrest : ∀ e ∈ entries, e.sequence = some e.position :=
      fun e he => hnumbered e (List.mem_cons_of_mem _ he)
    by_cases huser : entry.isUser
    · rw [List.countP_cons_of_pos huser] at hroom
      obtain ⟨pending, log', heq, hframes, hechoes, hadvances, hlevel, hcount⟩ :=
        echo_ready h (by omega)
      simp only [zipEntries, zipEntry, huser, if_true]
      rw [heq]
      simp only [EchoIngestion.advance, hseq, logSink_echo, logSink_advance]
      have ih := ih (s := { s with
          transcriptAfter := entry.position, pendingFrames := pending, turnOpen := true })
        hrest ((hlevel.echo entry).advance entry.position) (by simp; omega)
      refine ⟨?_, ?_, ?_, ?_, ih.level, fun _ => ?_, ?_⟩
      · rw [ih.frames, framesApplied_advance, framesApplied_echo]
        exact hframes
      · rw [ih.echoes, echoesApplied_advance, echoesApplied_echo, hechoes,
          List.filter_cons_of_pos huser, List.append_assoc, List.singleton_append]
      · rw [ih.advances, advances_advance, advances_echo, hadvances, List.append_assoc,
          List.singleton_append, List.map_cons]
      · rw [ih.after, List.map_cons, List.getLast?_cons]
        rfl
      · by_cases hnone : entries.countP TranscriptEntry.isUser = 0
        · exact (ih.idle hnone).1
        · exact ih.opened hnone
      · rw [List.countP_cons_of_pos huser]
        simp
    · rw [List.countP_cons_of_neg huser] at hroom
      simp only [zipEntries, zipEntry, huser, Bool.false_eq_true, if_false, EchoIngestion.advance,
        hseq, logSink_advance]
      have ih := ih (s := { s with transcriptAfter := entry.position }) hrest
        (h.advance entry.position) hroom
      refine ⟨?_, ?_, ?_, ?_, ih.level, ?_, ?_⟩
      · rw [ih.frames]
        simp
      · rw [ih.echoes, List.filter_cons_of_neg huser]
        simp
      · rw [ih.advances]
        simp
      · rw [ih.after, List.map_cons, List.getLast?_cons]
        rfl
      · rw [List.countP_cons_of_neg huser]
        exact ih.opened
      · rw [List.countP_cons_of_neg huser]
        exact ih.idle

/-- What a whole page gives: nothing waits while a turn is open. -/
structure PagedTo (gone : Nat) (entries : List (TranscriptEntry ε)) (s : EchoIngestion ρ)
    (log : List (Applied ρ ε)) (out : EchoIngestion ρ × List (Applied ρ ε)) : Prop where
  frames : framesApplied out.2 ++ out.1.pendingFrames = framesApplied log ++ s.pendingFrames
  echoes : echoesApplied out.2 = echoesApplied log ++ entries.filter TranscriptEntry.isUser
  advances : advances out.2 = advances log ++ entries.map TranscriptEntry.position
  after : out.1.transcriptAfter =
    ((entries.map TranscriptEntry.position).getLast?).getD s.transcriptAfter
  level : Level gone out.1.turnOpen out.2
  settled : out.1.turnOpen = true → out.1.pendingFrames = []

/-- The end of a poll: the open turn's frames are applied as far as they came. -/
def finish (out : EchoIngestion ρ × List (Applied ρ ε)) : EchoIngestion ρ × List (Applied ρ ε) :=
  let (pending, log, closed) := drainOneTurnBody logSink out.1.pendingFrames out.2
  ({ out.1 with pendingFrames := pending, turnOpen := out.1.turnOpen && !closed }, log)

theorem paged_finish {entries : List (TranscriptEntry ε)}
    {out : EchoIngestion ρ × List (Applied ρ ε)} (h : ZippedTo gone entries s log out)
    (hidle : out.1.turnOpen = false → out.1.pendingFrames = []) :
    PagedTo gone entries s log (finish out) := by
  obtain ⟨⟨after, pending, turnOpen⟩, log'⟩ := out
  cases turnOpen with
  | true =>
    have hdrained := drained_drainOneTurnBody h.level pending
    refine ⟨?_, ?_, ?_, h.after, ?_, ?_⟩
    · exact hdrained.frames.trans h.frames
    · exact hdrained.echoes.trans h.echoes
    · exact hdrained.advances.trans h.advances
    · exact hdrained.level
    · intro hopen
      have hran : (drainOneTurnBody logSink pending log').2.2 = false := by
        simpa [finish] using hopen
      exact (hdrained.ran hran).1
  | false =>
    obtain rfl : pending = [] := hidle rfl
    exact ⟨h.frames, h.echoes, h.advances, h.after, h.level, nofun⟩

theorem paged_matched {entries : List (TranscriptEntry ε)} (hydrated windowComplete : Bool)
    (hwindow : (!hydrated && !windowComplete) = false)
    (hnumbered : ∀ entry ∈ entries, entry.sequence = some entry.position)
    (h : Level gone s.turnOpen log) (hmatched : Matched s.turnOpen s.pendingFrames entries) :
    PagedTo gone entries s log (zipPage logSink hydrated windowComplete entries s log) := by
  have hzip := zipped_entries hnumbered h hmatched.1
  have hpage : zipPage logSink hydrated windowComplete entries s log =
      finish (zipEntries logSink entries s log) := by
    simp only [zipPage, hwindow]
    rfl
  rw [hpage]
  apply paged_finish hzip
  intro hclosed
  -- a page without an echo leaves the queue as it was, and it was empty
  by_cases hnone : entries.countP TranscriptEntry.isUser = 0
  · obtain ⟨hopen, hpending⟩ := hzip.idle hnone
    rcases hmatched.2 hnone with hs | hs
    · rw [hopen, hs] at hclosed
      cases hclosed
    · rw [hpending, hs]
  · rw [hzip.opened hnone] at hclosed
    cases hclosed

end page

/-! ## An evicted window -/

section evicted
variable {s : EchoIngestion ρ}

/-- Echoes in front of everything else, applied one behind the other. -/
theorem applyOrphans_spec (gone : Nat) {entries : List (TranscriptEntry ε)}
    (hnumbered : ∀ entry ∈ entries, entry.sequence = some entry.position)
    (husers : ∀ entry ∈ entries.take gone, entry.isUser) (hlong : gone ≤ entries.length)
    (s : EchoIngestion ρ) (log : List (Applied ρ ε)) :
    ∃ log', applyOrphans logSink gone entries s log =
        (entries.drop gone,
          { s with transcriptAfter := (((entries.take gone).map
            TranscriptEntry.position).getLast?).getD s.transcriptAfter }, log') ∧
      framesApplied log' = framesApplied log ∧
      echoesApplied log' = echoesApplied log ++ entries.take gone ∧
      advances log' = advances log ++ (entries.take gone).map TranscriptEntry.position ∧
      heard 0 log' = heard 0 log := by
  induction gone generalizing entries s log with
  | zero =>
    refine ⟨log, ?_, rfl, by simp, by simp, rfl⟩
    induction entries with
    | nil => rfl
    | cons entry entries ih =>
      have ih := ih (fun e he => hnumbered e (List.mem_cons_of_mem _ he)) (by simp) (by simp)
      simp only [List.drop_zero, List.take_zero] at ih
      simp [applyOrphans, ih]
  | succ gone ih =>
    cases entries with
    | nil => simp at hlong
    | cons entry entries =>
      have hseq := hnumbered entry (by simp)
      have huser : entry.isUser := husers entry (by simp)
      obtain ⟨log', heq, hframes, hechoes, hadvances, hheard⟩ := ih
        (fun e he => hnumbered e (List.mem_cons_of_mem _ he))
        (fun e he => husers e (List.mem_cons_of_mem _ he)) (by simpa using hlong)
        { s with transcriptAfter := entry.position }
        (log ++ [.echo entry] ++ [.advance entry.position])
      refine ⟨log', ?_, ?_, ?_, ?_, ?_⟩
      · rw [applyOrphans, if_pos ⟨huser, by omega⟩]
        simp only [EchoIngestion.advance, hseq, logSink_echo, logSink_advance, Nat.add_sub_cancel]
        rw [heq, List.take_succ_cons, List.map_cons, List.getLast?_cons]
        rfl
      · rw [hframes, framesApplied_advance, framesApplied_echo]
      · rw [hechoes, echoesApplied_advance, echoesApplied_echo, List.take_succ_cons,
          List.append_assoc, List.singleton_append]
      · rw [hadvances, advances_advance, advances_echo, List.take_succ_cons, List.map_cons,
          List.append_assoc, List.singleton_append]
      · rw [hheard, heard_advance, heard_echo]

theorem bodyCount_le (frames : List (EvidenceFrame ρ)) :
    bodyCount frames ≤ resultCount frames + 1 := by
  unfold bodyCount
  split <;> omega

/-- The flush does nothing where the bodies are those of the echoes. -/
theorem flushBodies_none {frames : List (EvidenceFrame ρ)} {all : Bool}
    (h : all = true → frames = []) (log : List (Applied ρ ε)) :
    flushBodies logSink all 0 frames log = (frames, log) := by
  cases frames with
  | nil => rfl
  | cons frame frames =>
    have hall : all = false := by
      cases all with
      | true => exact absurd (h rfl) (by simp)
      | false => rfl
    simp [flushBodies, hall]

theorem paged_realigned {gone : Nat} {entries : List (TranscriptEntry ε)}
    (hnumbered : ∀ entry ∈ entries, entry.sequence = some entry.position)
    (hopen : s.turnOpen = false) (h : Realigned gone s.pendingFrames entries) :
    PagedTo gone entries s [] (zipPage logSink false false entries s []) := by
  obtain ⟨hcount, hempty, husers⟩ := h
  have hbodies := bodyCount_le s.pendingFrames
  by_cases hle : entries.countP TranscriptEntry.isUser ≤ bodyCount s.pendingFrames
  · -- no turn was evicted whole
    obtain rfl : gone = 0 := by omega
    have hflush : realignEvicted logSink entries s [] = (entries, s, []) := by
      unfold realignEvicted
      simp only [hle, if_true]
      rw [show bodyCount s.pendingFrames - entries.countP TranscriptEntry.isUser = 0 by omega,
        flushBodies_none]
      intro hzero
      apply hempty
      have := of_decide_eq_true hzero
      omega
    have hpage : zipPage logSink false false entries s [] =
        zipPage logSink true true entries s [] := by
      simp [zipPage, hflush]
    rw [hpage]
    apply paged_matched true true rfl hnumbered
    · rw [hopen]
      exact ⟨rfl, rfl⟩
    · rw [hopen]
      refine ⟨by simp; omega, fun hzero => .inr (hempty (by omega))⟩
  · have hlen : gone ≤ entries.length := by
      have := entries.countP_le_length (p := TranscriptEntry.isUser)
      omega
    obtain ⟨log, heq, hframes, hechoes, hadvances, hheard⟩ :=
      applyOrphans_spec gone hnumbered husers hlen s ([] : List (Applied ρ ε))
    let s₁ : EchoIngestion ρ := { s with transcriptAfter :=
      (((entries.take gone).map TranscriptEntry.position).getLast?).getD s.transcriptAfter }
    have hrealign : realignEvicted logSink entries s [] = (entries.drop gone, s₁, log) := by
      unfold realignEvicted
      simp only [hle, if_false]
      rw [show entries.countP TranscriptEntry.isUser - bodyCount s.pendingFrames = gone by omega]
      exact heq
    have hpage : zipPage logSink false false entries s [] =
        zipPage logSink true true (entries.drop gone) s₁ log := by
      simp [zipPage, hrealign]
    have htake : (entries.take gone).countP TranscriptEntry.isUser = gone := by
      rw [List.countP_eq_length.mpr husers, List.length_take, Nat.min_eq_left hlen]
    have hkept : (entries.drop gone).countP TranscriptEntry.isUser = bodyCount s.pendingFrames := by
      have hsplit : entries.countP TranscriptEntry.isUser =
          (entries.take gone).countP TranscriptEntry.isUser +
            (entries.drop gone).countP TranscriptEntry.isUser := by
        rw [← List.countP_append, List.take_append_drop]
      omega
    -- the orphans put the log at the turn the window begins with
    have hlevel : Level gone s₁.turnOpen log := by
      refine ⟨?_, ?_⟩
      · rw [hheard, hframes]
        rfl
      · rw [hechoes, hframes]
        simp [echoesApplied, framesApplied, hlen, s₁, hopen]
    have hmatched : Matched s₁.turnOpen s₁.pendingFrames (entries.drop gone) := by
      refine ⟨?_, fun hzero => .inr (hempty (by omega))⟩
      rw [hkept]
      simpa [s₁, hopen] using hbodies
    have hrest := paged_matched true true rfl
      (fun e he => hnumbered e (List.mem_of_mem_drop he)) hlevel hmatched
    rw [hpage]
    refine ⟨?_, ?_, ?_, ?_, hrest.level, hrest.settled⟩
    · rw [hrest.frames, hframes]
    · rw [hrest.echoes, hechoes, List.append_assoc]
      congr 1
      conv_rhs => rw [← List.take_append_drop gone entries, List.filter_append,
        List.filter_eq_self.mpr husers]
    · rw [hrest.advances, hadvances, List.append_assoc, ← List.map_append,
        List.take_append_drop]
    · rw [hrest.after]
      conv_rhs => rw [← List.take_append_drop gone entries, List.map_append,
        List.getLast?_append]
      cases ((entries.drop gone).map TranscriptEntry.position).getLast? <;> rfl

end evicted

/-! ## What a poll reads -/

section reads
variable (h : History ρ ε)

theorem transcriptPage_eq {read rest : List (TranscriptEntry ε)} {after : Nat}
    (hcut : Watermark.Cut TranscriptEntry.position h.entries after read rest) (made : Nat) :
    ZipSession.transcriptPage h made after =
      rest.take (min evidencePageLimit (made - read.length)) := by
  unfold ZipSession.transcriptPage
  rw [hcut.unread, List.take_take]

theorem newEntries_fresh {s : ZipSession ρ ε} (hhydrated : s.hydrated = false)
    (hafter : s.echo.transcriptAfter = 0) (made : Nat) :
    s.newEntries h made = h.entries.take made := by
  unfold ZipSession.newEntries
  rw [hhydrated, hafter]
  simp only [Bool.false_eq_true, if_false]
  apply readRetained_fresh
  · exact fun entry hentry => h.entries_numbered entry (List.mem_of_mem_take hentry)
  · exact h.entries_increasing.sublist (List.take_sublist _ _)
  · exact fun entry hentry => h.entries_positive entry (List.mem_of_mem_take hentry)
  · rw [List.length_take]
    omega

end reads

/-! ## The invariant -/

/-- The state between polls. -/
structure Steady (h : History ρ ε) (s : ZipSession ρ ε) : Prop where
  frames : ∃ rest, Watermark.Cut EvidenceFrame.sequence (h.frames.drop s.evicted)
    s.evidenceAfter (framesApplied s.log ++ s.echo.pendingFrames) rest
  entries : ∃ read rest, Watermark.Cut TranscriptEntry.position h.entries
    s.echo.transcriptAfter read rest ∧ echoesApplied s.log = read.filter TranscriptEntry.isUser ∧
      advances s.log = read.map TranscriptEntry.position
  level : Level (resultCount (h.frames.take s.evicted)) s.echo.turnOpen s.log
  settled : s.echo.turnOpen = true → s.echo.pendingFrames = []

theorem Steady.start (h : History ρ ε) : Steady h {} where
  frames := ⟨_, .start h.frames_positive⟩
  entries := ⟨[], _, .start h.entries_positive, rfl, rfl⟩
  level := ⟨rfl, rfl⟩
  settled := nofun

theorem Steady.inTurnOrder {h : History ρ ε} {s : ZipSession ρ ε} (hs : Steady h s) :
    InTurnOrder h s := by
  obtain ⟨restFrames, hframes⟩ := hs.frames
  obtain ⟨read, rest, hentries, hechoes, hadvances⟩ := hs.entries
  have hturns : (turnsOf 0 h.events).drop s.evicted =
      bodyNumbers (resultCount (h.frames.take s.evicted)) (h.frames.drop s.evicted) := by
    have := turnsOf_eq h.produced 0
    simp only [Bool.false_eq_true, if_false, Nat.add_zero] at this
    rw [this, ← drop_bodyNumbers]
    rfl
  refine ⟨hframes.filter_le.symm, ?_, ?_, ?_, ?_, ?_⟩
  · rw [hechoes, List.filter_filter, ← hentries.filter_le, List.filter_filter]
    apply List.filter_congr
    intro entry _
    exact Bool.and_comm _ _
  · rw [hturns, hs.level.heard, hframes.split, List.append_assoc, bodyNumbers_append]
    exact List.prefix_append _ _
  · intro hpending turn hturn
    have hclosed : s.echo.turnOpen = false := by
      cases hopen : s.echo.turnOpen with
      | false => rfl
      | true => exact absurd (hs.settled hopen) hpending
    have hechoes := hs.level.echoes
    rw [hclosed] at hechoes
    simp only [Bool.false_eq_true, if_false, Nat.add_zero] at hechoes
    cases hp : s.echo.pendingFrames with
    | nil => exact absurd hp hpending
    | cons frame pending =>
      -- the frame in front is of the turn behind the ended ones
      rw [hturns, hframes.split, hp, List.append_assoc, bodyNumbers_append,
        List.getElem?_append_right (by simp)] at hturn
      simp only [length_bodyNumbers, Nat.sub_self, List.cons_append, bodyNumbers,
        List.getElem?_cons_zero, Option.mem_some] at hturn
      omega
  · rw [hadvances, List.pairwise_map]
    have : h.entries.Pairwise fun a b => a.position < b.position := h.entries_increasing
    rw [hentries.split] at this
    exact (List.pairwise_append.mp this).1
  · intro n hn
    rw [hadvances] at hn
    obtain ⟨entry, hentry, rfl⟩ := List.mem_map.mp hn
    exact hentries.behind entry hentry

/-! ## Polls -/

theorem foldl_enqueue (frames : List (EvidenceFrame ρ)) (s : EchoIngestion ρ) :
    frames.foldl enqueue s = { s with pendingFrames := s.pendingFrames ++ frames } := by
  induction frames generalizing s with
  | nil => simp
  | cons frame frames ih =>
    rw [List.foldl_cons, ih]
    simp [enqueue]

section polls
variable {h : History ρ ε} {s : ZipSession ρ ε}

theorem newFrames_eq {evicted : Nat} {read rest : List (EvidenceFrame ρ)}
    (hcut : Watermark.Cut EvidenceFrame.sequence (h.frames.drop evicted) s.evidenceAfter read rest)
    (made : Nat) : s.newFrames h evicted made = rest.take (made - evicted - read.length) := by
  unfold ZipSession.newFrames
  rw [List.drop_take]
  exact hcut.unread _

/-- A page that was zipped leaves a steady session. -/
theorem steady_pollChannels {evicted framesMade entriesMade k : Nat}
    {restFrames : List (EvidenceFrame ρ)} {read rest : List (TranscriptEntry ε)}
    (hframes : Watermark.Cut EvidenceFrame.sequence (h.frames.drop evicted) s.evidenceAfter
      (framesApplied s.log ++ s.echo.pendingFrames) restFrames)
    (hentries : Watermark.Cut TranscriptEntry.position h.entries s.echo.transcriptAfter read rest)
    (hechoes : echoesApplied s.log = read.filter TranscriptEntry.isUser)
    (hadvances : advances s.log = read.map TranscriptEntry.position)
    (hpage : s.newEntries h entriesMade = rest.take k)
    (hpaged : PagedTo (resultCount (h.frames.take evicted)) (s.newEntries h entriesMade)
      { s.echo with pendingFrames := s.echo.pendingFrames ++ s.newFrames h evicted framesMade }
      s.log (zipPage logSink s.hydrated (evicted == 0) (s.newEntries h entriesMade)
        { s.echo with pendingFrames := s.echo.pendingFrames ++ s.newFrames h evicted framesMade }
        s.log)) :
    Steady h (s.pollChannels h evicted framesMade entriesMade) := by
  have hnew := newFrames_eq hframes framesMade
  have hinc : (h.frames.drop evicted).Pairwise fun a b => a.sequence < b.sequence :=
    h.frames_increasing.sublist (List.drop_sublist _ _)
  have hframes' := hframes.advance hinc (framesMade - evicted -
    (framesApplied s.log ++ s.echo.pendingFrames).length)
  have hentries' := hentries.advance h.entries_increasing k
  rw [← hnew, List.append_assoc, ← hpaged.frames] at hframes'
  rw [← hpage] at hentries'
  unfold ZipSession.pollChannels
  dsimp only
  rw [foldl_enqueue]
  refine ⟨⟨_, hframes'⟩, ⟨read ++ s.newEntries h entriesMade, rest.drop k, ?_, ?_, ?_⟩,
    hpaged.level, hpaged.settled⟩
  · rw [hpaged.after]
    exact hentries'
  · rw [hpaged.echoes, hechoes, ← List.filter_append]
  · rw [hpaged.advances, hadvances, ← List.map_append]

theorem steady_rebuild {evicted framesMade entriesMade : Nat} {t : ZipSession ρ ε}
    (hstep : zipStep h {} (.rebuild evicted framesMade entriesMade) = some t)
    (hin : InStep h {} (.rebuild evicted framesMade entriesMade) t) : Steady h t := by
  have hentries := newEntries_fresh h (s := ({} : ZipSession ρ ε)) rfl rfl entriesMade
  have hnumbered : ∀ entry ∈ h.entries.take entriesMade, entry.sequence = some entry.position :=
    fun entry he => h.entries_numbered entry (List.mem_of_mem_take he)
  obtain ⟨-, rfl⟩ := zipStep_rebuild.mp hstep
  show Steady h (ZipSession.pollChannels h {} evicted framesMade entriesMade)
  have hcut : Watermark.Cut EvidenceFrame.sequence (h.frames.drop evicted) 0
      [] (h.frames.drop evicted) :=
    .start fun frame hframe => h.frames_positive frame (List.mem_of_mem_drop hframe)
  refine steady_pollChannels hcut (.start h.entries_positive) rfl rfl hentries ?_
  rw [hentries]
  unfold InStep at hin
  dsimp only at hin
  rw [hentries] at hin
  by_cases hevicted : evicted = 0
  · rw [if_pos hevicted] at hin
    rw [hevicted]
    exact paged_matched false true rfl hnumbered ⟨rfl, rfl⟩ (by rwa [hevicted] at hin)
  · rw [if_neg hevicted] at hin
    have hwindow : (evicted == 0) = false := by simpa using hevicted
    rw [hwindow]
    exact paged_realigned hnumbered rfl hin

theorem steady_poll {framesMade entriesMade : Nat} {t : ZipSession ρ ε} (hs : Steady h s)
    (hstep : zipStep h s (.poll framesMade entriesMade) = some t)
    (hin : InStep h s (.poll framesMade entriesMade) t) : Steady h t := by
  obtain ⟨restFrames, hframes⟩ := hs.frames
  obtain ⟨read, rest, hentries, hechoes, hadvances⟩ := hs.entries
  obtain ⟨hhydrated, rfl⟩ := zipStep_poll.mp hstep
  have hpage : s.newEntries h entriesMade =
      rest.take (min evidencePageLimit (entriesMade - read.length)) := by
    unfold ZipSession.newEntries
    rw [hhydrated]
    exact transcriptPage_eq h hentries entriesMade
  refine steady_pollChannels hframes hentries hechoes hadvances hpage ?_
  let queued : EchoIngestion ρ := { s.echo with
    pendingFrames := s.echo.pendingFrames ++ s.newFrames h s.evicted framesMade }
  apply paged_matched (s := queued) s.hydrated _ (by rw [hhydrated]; rfl) _ hs.level hin
  intro entry he
  rw [hpage] at he
  apply h.entries_numbered
  show entry ∈ h.entries
  rw [hentries.split]
  exact List.mem_append_right _ (List.mem_of_mem_take he)

end polls

/-- In every state of a session whose polls are all in step, everything that
was read stands in turn order. -/
theorem zipper_keeps_turn_order (h : History ρ ε) {acts : List PollAct}
    (hin : Runs.Along (zipStep h) (InStep h) {} acts) :
    Runs.Always (zipStep h) (InTurnOrder h) {} acts := by
  apply Runs.Along.always (I := fun s => Steady h s ∧ (s.hydrated = false → s = {})) _ _
    ⟨Steady.start h, fun _ => rfl⟩ hin
  · intro s act t hs hstep hact
    cases act with
    | rebuild evicted framesMade entriesMade =>
      obtain ⟨hfresh, ht⟩ := zipStep_rebuild.mp hstep
      obtain rfl := hs.2 hfresh
      refine ⟨steady_rebuild hstep hact, fun hfalse => ?_⟩
      rw [← ht] at hfalse
      cases hfalse
    | poll framesMade entriesMade =>
      obtain ⟨-, ht⟩ := zipStep_poll.mp hstep
      refine ⟨steady_poll hs.1 hstep hact, fun hfalse => ?_⟩
      rw [← ht] at hfalse
      cases hfalse
  · exact fun s hs => hs.1.inTurnOrder

/-! ## Two turns -/

/-- The entry of a user message. -/
def echoAt (n : Nat) : Event Unit Unit := .entry ⟨some n, some "user", ()⟩

/-- A frame of a type. -/
def frameAt (n : Nat) (type : String) : Event Unit Unit :=
  .frame { sequence := n, type := some type, raw := () }

/-- Two whole turns. -/
def twoTurns : History Unit Unit where
  events := [echoAt 1, frameAt 1 "assistant", frameAt 2 "result",
    echoAt 2, frameAt 3 "assistant", frameAt 4 "result"]
  produced := by decide
  frames_increasing := by decide
  frames_positive := by decide
  entries_numbered := by decide
  entries_increasing := by decide
  entries_positive := by decide

/-- The first result and the second echo come between the two reads of a poll:
the result is applied behind that echo. -/
theorem echo_overtakes_result :
    ¬Runs.Always (zipStep twoTurns) (InTurnOrder twoTurns) {}
      [.rebuild 0 1 1, .poll 1 2, .poll 4 2] := by
  intro h
  have hout : (Runs.run (zipStep twoTurns) {} [.rebuild 0 1 1, .poll 1 2, .poll 4 2]).any
      fun s => !decide (heard 0 s.log <+: (turnsOf 0 twoTurns.events).drop s.evicted) := by
    decide +kernel
  obtain ⟨s, hs, hbad⟩ := (Option.any_eq_true _ _).mp hout
  have := (h.at_end hs).turns
  simp [this] at hbad

theorem two_turns_in_order :
    Runs.Always (zipStep twoTurns) (InTurnOrder twoTurns) {} [.rebuild 2 3 2, .poll 4 2] :=
  zipper_keeps_turn_order twoTurns (by decide +kernel)

end AgentsRemember.Conversation
