import AgentsRemember.Conversation.Turns

/-!
# Conversation — Replay

What the zipper does with its queue does not depend on what applying means: two
sinks that keep a relation, step by step, keep it over a whole poll, and the
queue and the flags come out the same.

With the log on one side, this says that a poll replays its log (`zipPage_replay`).
-/

namespace AgentsRemember.Conversation

open EchoIngestion

variable {ρ ε τ τ' : Type}

/-- A relation on the queue and the two targets that every application keeps. -/
structure Carries (sink : Sink ρ ε τ) (sink' : Sink ρ ε τ')
    (I : List (EvidenceFrame ρ) → τ → τ' → Prop) : Prop where
  frame : ∀ frame pending t u, I (frame :: pending) t u →
    I pending (sink.frame frame t) (sink'.frame frame u)
  echo : ∀ entry pending t u, I pending t u → I pending (sink.echo entry t) (sink'.echo entry u)
  advance : ∀ n pending t u, I pending t u → I pending (sink.advance n t) (sink'.advance n u)

section carries
variable {sink : Sink ρ ε τ} {sink' : Sink ρ ε τ'} {I : List (EvidenceFrame ρ) → τ → τ' → Prop}
  (h : Carries sink sink' I)
include h

theorem Carries.drain {pending : List (EvidenceFrame ρ)} {t : τ} {u : τ'} (hI : I pending t u) :
    (drainOneTurnBody sink pending t).1 = (drainOneTurnBody sink' pending u).1 ∧
      (drainOneTurnBody sink pending t).2.2 = (drainOneTurnBody sink' pending u).2.2 ∧
      I (drainOneTurnBody sink pending t).1 (drainOneTurnBody sink pending t).2.1
        (drainOneTurnBody sink' pending u).2.1 := by
  induction pending generalizing t u with
  | nil => exact ⟨rfl, rfl, hI⟩
  | cons frame pending ih =>
    have hnext := h.frame frame pending t u hI
    simp only [drainOneTurnBody]
    by_cases hresult : frame.isResult
    · rw [if_pos hresult, if_pos hresult]
      exact ⟨rfl, rfl, hnext⟩
    · rw [if_neg hresult, if_neg hresult]
      exact ih hnext

theorem Carries.flush (all : Bool) (count : Nat) {pending : List (EvidenceFrame ρ)} {t : τ}
    {u : τ'} (hI : I pending t u) :
    (flushBodies sink all count pending t).1 = (flushBodies sink' all count pending u).1 ∧
      I (flushBodies sink all count pending t).1 (flushBodies sink all count pending t).2
        (flushBodies sink' all count pending u).2 := by
  induction pending generalizing count t u with
  | nil => exact ⟨rfl, hI⟩
  | cons frame pending ih =>
    simp only [flushBodies]
    by_cases hstop : count = 0 ∧ ¬all
    · rw [if_pos hstop, if_pos hstop]
      exact ⟨rfl, hI⟩
    · rw [if_neg hstop, if_neg hstop]
      exact ih _ (h.frame frame pending t u hI)

theorem Carries.advanced (entry : TranscriptEntry ε) {s : EchoIngestion ρ} {t : τ} {u : τ'}
    (hI : I s.pendingFrames t u) :
    (EchoIngestion.advance sink entry s t).1 = (EchoIngestion.advance sink' entry s u).1 ∧
      I (EchoIngestion.advance sink entry s t).1.pendingFrames
        (EchoIngestion.advance sink entry s t).2 (EchoIngestion.advance sink' entry s u).2 := by
  unfold EchoIngestion.advance
  cases entry.sequence with
  | none => exact ⟨rfl, hI⟩
  | some sequence => exact ⟨rfl, h.advance sequence _ t u hI⟩

theorem Carries.orphans {orphans : Nat} {entries : List (TranscriptEntry ε)}
    {s : EchoIngestion ρ} {t : τ} {u : τ'} (hI : I s.pendingFrames t u) :
    (applyOrphans sink orphans entries s t).1 = (applyOrphans sink' orphans entries s u).1 ∧
      (applyOrphans sink orphans entries s t).2.1 = (applyOrphans sink' orphans entries s u).2.1 ∧
      I (applyOrphans sink orphans entries s t).2.1.pendingFrames
        (applyOrphans sink orphans entries s t).2.2
        (applyOrphans sink' orphans entries s u).2.2 := by
  induction entries generalizing orphans s t u with
  | nil => exact ⟨rfl, rfl, hI⟩
  | cons entry entries ih =>
    simp only [applyOrphans]
    by_cases hone : entry.isUser ∧ orphans ≠ 0
    · rw [if_pos hone, if_pos hone]
      have hstep := h.advanced entry (h.echo entry _ t u hI)
      have hrest := @ih (orphans - 1) _ _ _ hstep.2
      rw [← hstep.1]
      exact hrest
    · rw [if_neg hone, if_neg hone]
      have hrest := @ih orphans s t u hI
      exact ⟨by rw [hrest.1], hrest.2⟩

theorem Carries.entry (entry : TranscriptEntry ε) {s : EchoIngestion ρ} {t : τ} {u : τ'}
    (hI : I s.pendingFrames t u) :
    (zipEntry sink entry s t).1 = (zipEntry sink' entry s u).1 ∧
      I (zipEntry sink entry s t).1.pendingFrames (zipEntry sink entry s t).2
        (zipEntry sink' entry s u).2 := by
  unfold zipEntry
  by_cases huser : entry.isUser
  · rw [if_pos huser, if_pos huser]
    by_cases hopen : s.turnOpen
    · -- the open turn is drained first, by both alike
      have hdrain := h.drain hI
      simp only [hopen, if_true]
      rw [← hdrain.1]
      exact h.advanced entry (h.echo entry _ _ _ hdrain.2.2)
    · simp only [hopen, if_false, Bool.false_eq_true]
      exact h.advanced entry (h.echo entry _ _ _ hI)
  · rw [if_neg huser, if_neg huser]
    exact h.advanced entry hI

theorem Carries.entries (entries : List (TranscriptEntry ε)) {s : EchoIngestion ρ} {t : τ}
    {u : τ'} (hI : I s.pendingFrames t u) :
    (zipEntries sink entries s t).1 = (zipEntries sink' entries s u).1 ∧
      I (zipEntries sink entries s t).1.pendingFrames (zipEntries sink entries s t).2
        (zipEntries sink' entries s u).2 := by
  induction entries generalizing s t u with
  | nil => exact ⟨rfl, hI⟩
  | cons entry entries ih =>
    have hstep := h.entry entry hI
    have hrest := ih hstep.2
    simp only [zipEntries]
    rw [← hstep.1]
    exact hrest

theorem Carries.realign (entries : List (TranscriptEntry ε)) {s : EchoIngestion ρ} {t : τ}
    {u : τ'} (hI : I s.pendingFrames t u) :
    (realignEvicted sink entries s t).1 = (realignEvicted sink' entries s u).1 ∧
      (realignEvicted sink entries s t).2.1 = (realignEvicted sink' entries s u).2.1 ∧
      I (realignEvicted sink entries s t).2.1.pendingFrames (realignEvicted sink entries s t).2.2
        (realignEvicted sink' entries s u).2.2 := by
  simp only [realignEvicted]
  split
  · have hflush := h.flush (entries.countP TranscriptEntry.isUser = 0)
      (bodyCount s.pendingFrames - entries.countP TranscriptEntry.isUser) hI
    exact ⟨rfl, by rw [hflush.1], hflush.2⟩
  · exact h.orphans hI

theorem Carries.page (hydrated windowComplete : Bool) (entries : List (TranscriptEntry ε))
    {s : EchoIngestion ρ} {t : τ} {u : τ'} (hI : I s.pendingFrames t u) :
    (zipPage sink hydrated windowComplete entries s t).1 =
        (zipPage sink' hydrated windowComplete entries s u).1 ∧
      I (zipPage sink hydrated windowComplete entries s t).1.pendingFrames
        (zipPage sink hydrated windowComplete entries s t).2
        (zipPage sink' hydrated windowComplete entries s u).2 := by
  have hclose : ∀ (entries : List (TranscriptEntry ε)) {s : EchoIngestion ρ} {t : τ} {u : τ'},
      I s.pendingFrames t u →
      (zipPage sink true windowComplete entries s t).1 =
          (zipPage sink' true windowComplete entries s u).1 ∧
        I (zipPage sink true windowComplete entries s t).1.pendingFrames
          (zipPage sink true windowComplete entries s t).2
          (zipPage sink' true windowComplete entries s u).2 := by
    intro entries s t u hI
    have hentries := h.entries entries hI
    have hdrain := h.drain hentries.2
    simp only [zipPage, Bool.not_true, Bool.false_and, if_false, Bool.false_eq_true]
    rw [← hentries.1, ← hdrain.1, ← hdrain.2.1]
    exact ⟨rfl, hdrain.2.2⟩
  by_cases hrealign : (!hydrated && !windowComplete) = true
  · have hre := h.realign entries hI
    have hrest := hclose (realignEvicted sink entries s t).1 hre.2.2
    simp only [zipPage, hrealign, if_true]
    simp only [zipPage, Bool.not_true, Bool.false_and, if_false, Bool.false_eq_true] at hrest
    rw [← hre.1, ← hre.2.1]
    exact hrest
  · have hrest := hclose entries hI
    simp only [zipPage, hrealign, if_false, Bool.false_eq_true]
    simpa only [zipPage, Bool.not_true, Bool.false_and, if_false, Bool.false_eq_true] using hrest

end carries

/-! ## Logs -/

variable (sink : Sink ρ ε τ)

/-- One entry of the log, applied. -/
def Sink.one (t : τ) : Applied ρ ε → τ
  | .echo entry => sink.echo entry t
  | .frame frame => sink.frame frame t
  | .advance sequence => sink.advance sequence t

/-- The log, applied. -/
def Sink.replay (log : List (Applied ρ ε)) (t : τ) : τ := log.foldl sink.one t

theorem replay_snoc (log : List (Applied ρ ε)) (applied : Applied ρ ε) (t : τ) :
    sink.replay (log ++ [applied]) t = sink.one (sink.replay log t) applied := by
  simp [Sink.replay]

/-- The frames of the log and of the queue are `frames`, and the target is the
log, replayed. -/
def Replayed (frames : List (EvidenceFrame ρ)) (start : τ) (pending : List (EvidenceFrame ρ))
    (log : List (Applied ρ ε)) (t : τ) : Prop :=
  framesApplied log ++ pending = frames ∧ t = sink.replay log start

theorem carries_replayed (frames : List (EvidenceFrame ρ)) (start : τ) :
    Carries logSink sink (Replayed sink frames start) where
  frame frame pending log t hI := by
    refine ⟨?_, ?_⟩
    · rw [logSink_frame, framesApplied_frame, List.append_assoc]
      exact hI.1
    · rw [logSink_frame, replay_snoc, ← hI.2]
      rfl
  echo entry pending log t hI := by
    refine ⟨?_, ?_⟩
    · rw [logSink_echo, framesApplied_echo]
      exact hI.1
    · rw [logSink_echo, replay_snoc, ← hI.2]
      rfl
  advance n pending log t hI := by
    refine ⟨?_, ?_⟩
    · rw [logSink_advance, framesApplied_advance]
      exact hI.1
    · rw [logSink_advance, replay_snoc, ← hI.2]
      rfl

/-- The log of one poll. -/
def pageLog (hydrated windowComplete : Bool) (entries : List (TranscriptEntry ε))
    (s : EchoIngestion ρ) : List (Applied ρ ε) :=
  (zipPage logSink hydrated windowComplete entries s []).2

theorem zipPage_replay (hydrated windowComplete : Bool) (entries : List (TranscriptEntry ε))
    (s : EchoIngestion ρ) (t : τ) :
    (zipPage sink hydrated windowComplete entries s t).2 =
      sink.replay (pageLog hydrated windowComplete entries s) t :=
  ((carries_replayed sink s.pendingFrames t).page hydrated windowComplete
    entries (s := s) (t := []) (u := t) ⟨rfl, rfl⟩).2.2

/-- A poll applies a front part of its queue. -/
theorem pageLog_frames (hydrated windowComplete : Bool) (entries : List (TranscriptEntry ε))
    (s : EchoIngestion ρ) :
    framesApplied (pageLog hydrated windowComplete entries s) ++
      (zipPage logSink hydrated windowComplete entries s []).1.pendingFrames = s.pendingFrames :=
  ((carries_replayed logSink s.pendingFrames []).page hydrated windowComplete
    entries (s := s) (t := []) (u := []) ⟨rfl, rfl⟩).2.1

theorem drain_shorter (pending : List (EvidenceFrame ρ)) (t : τ) :
    (drainOneTurnBody sink pending t).1.length ≤ pending.length - 1 := by
  induction pending generalizing t with
  | nil => exact Nat.le_refl _
  | cons frame pending ih =>
    unfold drainOneTurnBody
    split
    · exact Nat.le_refl _
    · have := ih (sink.frame frame t)
      simp only [List.length_cons]
      omega

/-- A poll takes at least one frame from a queue that has one. -/
theorem zipPage_shorter (hydrated windowComplete : Bool) (entries : List (TranscriptEntry ε))
    (s : EchoIngestion ρ) (t : τ) :
    (zipPage sink hydrated windowComplete entries s t).1.pendingFrames.length ≤
      s.pendingFrames.length - 1 := by
  have hcarries : Carries sink sink fun pending _ _ =>
      pending.length ≤ s.pendingFrames.length :=
    ⟨fun frame pending _ _ h => by simp only [List.length_cons] at h; omega,
      fun _ _ _ _ h => h, fun _ _ _ _ h => h⟩
  have hlast : ∀ (entries : List (TranscriptEntry ε)) (s' : EchoIngestion ρ) (u : τ),
      s'.pendingFrames.length ≤ s.pendingFrames.length →
      (drainOneTurnBody sink (zipEntries sink entries s' u).1.pendingFrames
        (zipEntries sink entries s' u).2).1.length ≤ s.pendingFrames.length - 1 := by
    intro entries s' u h
    have hentries := (hcarries.entries entries (t := u) (u := u) h).2
    have hdrain := drain_shorter sink (zipEntries sink entries s' u).1.pendingFrames
      (zipEntries sink entries s' u).2
    omega
  unfold zipPage
  dsimp only
  split
  · exact hlast _ _ _ (hcarries.realign entries (t := t) (u := t) (Nat.le_refl _)).2.2
  · exact hlast _ _ _ (Nat.le_refl _)

/-- So its first frame is applied. -/
theorem pageLog_head (hydrated windowComplete : Bool) (entries : List (TranscriptEntry ε))
    {s : EchoIngestion ρ} {frame : EvidenceFrame ρ} (h : s.pendingFrames.head? = some frame) :
    frame ∈ framesApplied (pageLog hydrated windowComplete entries s) := by
  obtain ⟨pending, hpending⟩ := List.head?_eq_some_iff.mp h
  have hsplit := pageLog_frames hydrated windowComplete entries s
  have hshorter := zipPage_shorter logSink hydrated windowComplete entries s []
  cases happlied : framesApplied (pageLog hydrated windowComplete entries s) with
  | nil =>
    rw [happlied, List.nil_append] at hsplit
    rw [hsplit, hpending, List.length_cons] at hshorter
    omega
  | cons f applied =>
    rw [happlied, hpending, List.cons_append] at hsplit
    rw [(List.cons.inj hsplit).1]
    simp

/-! ## Echoes -/

theorem carries_heard : Carries (logSink (ρ := ρ) (ε := ε)) (logSink (ρ := ρ) (ε := ε))
    fun _ log _ => echoesApplied log ≠ [] where
  frame frame pending log _ h := by
    rw [logSink_frame, echoesApplied_frame]
    exact h
  echo entry pending log _ _ := by
    rw [logSink_echo, echoesApplied_echo]
    simp
  advance n pending log _ h := by
    rw [logSink_advance, echoesApplied_advance]
    exact h

theorem advance_log (entry : TranscriptEntry ε) (s : EchoIngestion ρ)
    (log : List (Applied ρ ε)) :
    echoesApplied (EchoIngestion.advance logSink entry s log).2 = echoesApplied log := by
  unfold EchoIngestion.advance
  cases entry.sequence with
  | none => rfl
  | some sequence => exact echoesApplied_advance log sequence

theorem zipEntries_heard {entries : List (TranscriptEntry ε)} {entry : TranscriptEntry ε}
    (hmem : entry ∈ entries) (huser : entry.isUser) (s : EchoIngestion ρ)
    (log : List (Applied ρ ε)) : echoesApplied (zipEntries logSink entries s log).2 ≠ [] := by
  induction entries generalizing s log with
  | nil => cases hmem
  | cons e entries ih =>
    unfold zipEntries
    rcases List.mem_cons.mp hmem with rfl | hmem
    · have hone : echoesApplied (zipEntry logSink entry s log).2 ≠ [] := by
        unfold zipEntry
        rw [if_pos huser]
        dsimp only
        rw [advance_log, logSink_echo, echoesApplied_echo]
        simp
      exact (carries_heard.entries entries (u := log) hone).2
    · exact ih hmem _ _

theorem applyOrphans_heard {entries : List (TranscriptEntry ε)} {entry : TranscriptEntry ε}
    (hmem : entry ∈ entries) (huser : entry.isUser) {orphans : Nat} (horphans : orphans ≠ 0)
    (s : EchoIngestion ρ) (log : List (Applied ρ ε)) :
    echoesApplied (applyOrphans logSink orphans entries s log).2.2 ≠ [] := by
  induction entries generalizing s log with
  | nil => cases hmem
  | cons e entries ih =>
    unfold applyOrphans
    by_cases hone : e.isUser ∧ orphans ≠ 0
    · rw [if_pos hone]
      have hone : echoesApplied
          (EchoIngestion.advance logSink e s (logSink.echo e log)).2 ≠ [] := by
        rw [advance_log, logSink_echo, echoesApplied_echo]
        simp
      exact (carries_heard.orphans (u := log) hone).2.2
    · rw [if_neg hone]
      rcases List.mem_cons.mp hmem with rfl | hmem
      · exact absurd ⟨huser, horphans⟩ hone
      · exact ih hmem _ _

/-- A poll that reads a user echo applies one. -/
theorem pageLog_heard (hydrated windowComplete : Bool) {entries : List (TranscriptEntry ε)}
    {entry : TranscriptEntry ε} (hmem : entry ∈ entries) (huser : entry.isUser)
    (s : EchoIngestion ρ) :
    echoesApplied (pageLog hydrated windowComplete entries s) ≠ [] := by
  have hdrain : ∀ (s : EchoIngestion ρ) {log : List (Applied ρ ε)}, echoesApplied log ≠ [] →
      echoesApplied (drainOneTurnBody logSink s.pendingFrames log).2.1 ≠ [] :=
    fun s log h => (carries_heard.drain (u := log) h).2.2
  unfold pageLog zipPage realignEvicted
  dsimp only
  split
  · split
    · exact hdrain _ (zipEntries_heard hmem huser _ _)
    · -- what is left of the entries comes behind an orphan
      refine hdrain _ (carries_heard.entries _ (u := []) ?_).2
      exact applyOrphans_heard hmem huser (by omega) _ _
  · exact hdrain _ (zipEntries_heard hmem huser _ _)

end AgentsRemember.Conversation
