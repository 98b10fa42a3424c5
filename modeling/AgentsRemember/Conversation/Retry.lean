import AgentsRemember.Conversation.Rebuild
import AgentsRemember.Conversation.Replay
import AgentsRemember.Foundation.Attempts

/-!
# Conversation — Retry

What an attempt that fails leaves for the next one.

The reset of a rebuild empties the store and the queues, and keeps the two
watermarks. An attempt that fails before it has read an evidence frame or a user
echo leaves them where they count nothing off (`Unread`).
-/

namespace AgentsRemember.Conversation

open Attempts

variable {ρ ε ν δ : Type}

/-- Neither evidence nor a user echo is there. -/
def Quiet (retained : Retained ρ ε) : Prop :=
  retained.window.frames = [] ∧ ∀ entry ∈ retained.transcript.entries, entry.isUser = false

/-- No read in front of this one delivers an evidence frame or a user echo. -/
def NothingRead (session : Session) (retained : Retained ρ ε) : Read → Prop
  | .firstSnapshot | .nativePage _ => True
  | .evidencePage number => number = 0
  | .transcriptPage _ | .continuationPage _ => retained.window.frames = []
  | .provenance | .lastSnapshot =>
    retained.window.frames = [] ∧
      (session.harness.usesTranscriptEcho → ∀ entry ∈ retained.transcript.entries,
        entry.isUser = false)

namespace Projector

/-- The watermarks count nothing off. -/
structure Unread (session : Session) (retained : Retained ρ ε) (s : Projector ρ δ) : Prop where
  evidence : s.native.evidenceAfter = 0
  transcript : session.harness.usesTranscriptEcho →
    s.echo.transcriptAfter = 0 ∨ Quiet retained
  window : s.native.evidenceWindowComplete = false → 0 < retained.window.evictedBeforeSequence
  cursor : session.harness.usesNativePages = false → s.native.nativeCursor = none

theorem Unread.start (session : Session) (retained : Retained ρ ε) :
    Unread session retained (Projector.start session : Projector ρ δ) :=
  ⟨rfl, fun _ => .inl rfl, fun h => (by cases h), fun _ => rfl⟩

/-- What native pages, provenance and snapshots leave alone. -/
structure Untouched (s t : Projector ρ δ) : Prop where
  evidenceAfter : t.native.evidenceAfter = s.native.evidenceAfter
  window : t.native.evidenceWindowComplete = s.native.evidenceWindowComplete
  echo : t.echo = s.echo
  interactions : t.interactions = s.interactions

theorem Untouched.refl (s : Projector ρ δ) : Untouched s s := ⟨rfl, rfl, rfl, rfl⟩

theorem Untouched.trans {s t u : Projector ρ δ} (h : Untouched s t) (h' : Untouched t u) :
    Untouched s u :=
  ⟨h'.evidenceAfter.trans h.evidenceAfter, h'.window.trans h.window, h'.echo.trans h.echo,
    h'.interactions.trans h.interactions⟩

theorem reads_eq_ok {fault : Option Fault} {read : Read} {s : Projector ρ δ} :
    s.reads fault read = .ok () ↔ fault.map Fault.read ≠ some read := by
  unfold reads
  split <;> simp_all

theorem reads_eq_error {fault : Option Fault} {read : Read} {s t : Projector ρ δ} :
    s.reads fault read = .error t ↔ fault.map Fault.read = some read ∧ t = s := by
  unfold reads
  split
  · simp_all [eq_comm]
  · simp_all

section stages
variable [BEq δ] {session : Session} {mapper : Mapper ρ ε ν δ} {bridge : Bridge ρ ε ν}
  {fault : Option Fault}

/-! ## Native pages -/

variable (session mapper) in
theorem untouched_walkFrames (frames : List (NativeEvidenceFrame ν)) (acc : Projector ρ δ × List String) :
    Untouched acc.1 (frames.foldl (walkFrame session mapper) acc).1 ∧
      (frames.foldl (walkFrame session mapper) acc).1.native = acc.1.native := by
  induction frames generalizing acc with
  | nil => exact ⟨.refl _, rfl⟩
  | cons frame frames ih =>
    have hstep : Untouched acc.1 (walkFrame session mapper acc frame).1 := ⟨rfl, rfl, rfl, rfl⟩
    have hrest := ih (walkFrame session mapper acc frame)
    exact ⟨hstep.trans hrest.1, hrest.2⟩

theorem walkPages_spec {fuel number : Nat} {turns : List String} {s : Projector ρ δ} :
    (∀ t, walkPages session mapper bridge fault fuel number turns s = .error t →
      (∃ n, fault.map Fault.read = some (.nativePage n)) ∧ Untouched s t) ∧
    ∀ t, walkPages session mapper bridge fault fuel number turns s = .ok t → Untouched s t := by
  induction fuel generalizing number turns s with
  | zero =>
    refine ⟨fun t h => (by cases h), fun t h => ?_⟩
    cases h
    exact .refl s
  | succ fuel ih =>
    unfold walkPages
    split
    · refine ⟨fun t h => (by cases h), fun t h => ?_⟩
      cases h
      exact ⟨rfl, rfl, rfl, rfl⟩
    · dsimp only
      obtain ⟨hframes, -⟩ := untouched_walkFrames session mapper
        (bridge.nativePage s.native.nativeCursor).frames (s, turns)
      constructor
      · intro t h
        rcases bind_eq_error.mp h with h | ⟨-, -, h⟩
        · obtain ⟨hfault, rfl⟩ := reads_eq_error.mp h
          exact ⟨⟨_, hfault⟩, .refl _⟩
        · split at h
          · cases h
          · obtain ⟨hfault, hrest⟩ := ih.1 t h
            refine ⟨hfault, hframes.trans (.trans ?_ hrest)⟩
            exact ⟨rfl, rfl, rfl, rfl⟩
      · intro t h
        obtain ⟨-, -, h⟩ := bind_eq_ok.mp h
        split at h
        · cases h
          exact hframes.trans ⟨rfl, rfl, rfl, rfl⟩
        · refine hframes.trans (.trans ?_ (ih.2 t h))
          exact ⟨rfl, rfl, rfl, rfl⟩

/-! ## Evidence -/

theorem page_frames_nil {w : EvidenceWindow ρ} (h : w.frames = []) (after : Nat) :
    (w.page after).frames = [] := by
  simp [EvidenceWindow.page, EvidenceWindow.unread, h, EvidenceWindow.fill]

/-- The first read of the evidence fails, or later ones do. -/
theorem pollEvidence_error {fuel number : Nat} {s t : Projector ρ δ}
    (h : pollEvidence session mapper bridge fault fuel number s = .error t) :
    ∃ n, number ≤ n ∧ fault.map Fault.read = some (.evidencePage n) ∧ (n = number → t = s) := by
  induction fuel generalizing number s with
  | zero => cases h
  | succ fuel ih =>
    unfold pollEvidence at h
    dsimp only at h
    rcases bind_eq_error.mp h with h | ⟨-, -, h⟩
    · obtain ⟨hfault, rfl⟩ := reads_eq_error.mp h
      exact ⟨number, Nat.le_refl _, hfault, fun _ => rfl⟩
    · split at h
      · cases h
      · obtain ⟨n, hn, hfault, -⟩ := ih h
        exact ⟨n, by omega, hfault, fun hn' => by omega⟩

theorem pollEvidence_nil (hframes : bridge.retained.window.frames = []) {fuel number : Nat}
    {s t : Projector ρ δ}
    (h : pollEvidence session mapper bridge fault (fuel + 1) number s = .ok t) :
    t = s.noteEviction bridge.retained.window.evictedBeforeSequence := by
  have hpage := page_frames_nil hframes s.native.evidenceAfter
  unfold pollEvidence at h
  dsimp only at h
  obtain ⟨-, -, h⟩ := bind_eq_ok.mp h
  rw [hpage] at h
  simp only [List.isEmpty_nil, or_true, if_true] at h
  cases h
  rfl

/-! ## The other channels -/

/-- The entries a poll of a rebuild reads. -/
def pollEntries (bridge : Bridge ρ ε ν) (after : Nat) : List (TranscriptEntry ε) :=
  EchoIngestion.readRetained bridge.retained.transcript.page
    (bridge.retained.transcript.entries.length + 1) (bridge.retained.transcript.page after)
    (bridge.retained.transcript.page after)

omit [BEq δ] in
theorem readRetained_ok (hfault : ∀ n, fault.map Fault.read ≠ some (.transcriptPage n))
    (s : Projector ρ δ) (fuel number : Nat) (entries page : List (TranscriptEntry ε)) :
    readRetained bridge fault s fuel number entries page =
      .ok (EchoIngestion.readRetained bridge.retained.transcript.page fuel entries page) := by
  induction fuel generalizing number entries page with
  | zero => rfl
  | succ fuel ih =>
    unfold readRetained EchoIngestion.readRetained
    split
    · cases entries.getLast?.bind TranscriptEntry.sequence with
      | none => rfl
      | some last =>
        dsimp only
        rw [reads_eq_ok.mpr (hfault number)]
        exact ih _ _ _
    · rfl

theorem mem_readRetained {read : Nat → List (TranscriptEntry ε)} {fuel : Nat}
    {entries page : List (TranscriptEntry ε)} {entry : TranscriptEntry ε}
    (h : entry ∈ EchoIngestion.readRetained read fuel entries page) :
    entry ∈ entries ∨ ∃ after, entry ∈ read after := by
  induction fuel generalizing entries page with
  | zero => exact .inl h
  | succ fuel ih =>
    unfold EchoIngestion.readRetained at h
    split at h
    · split at h
      · exact .inl h
      · rcases ih h with h | h
        · exact (List.mem_append.mp h).imp id fun h => ⟨_, h⟩
        · exact .inr h
    · exact .inl h

theorem mem_pollEntries {after : Nat} {entry : TranscriptEntry ε}
    (h : entry ∈ pollEntries bridge after) : entry ∈ bridge.retained.transcript.entries := by
  have hpage : ∀ {after}, entry ∈ bridge.retained.transcript.page after →
      entry ∈ bridge.retained.transcript.entries :=
    fun h => List.mem_of_mem_filter (List.mem_of_mem_take h)
  rcases mem_readRetained h with h | ⟨after, h⟩
  · exact hpage h
  · exact hpage h

/-- The poll of an echo harness, when no read of it raises. -/
theorem pollEcho_eq (hecho : session.harness.usesTranscriptEcho)
    (hfault : ∀ n, fault.map Fault.read ≠ some (.transcriptPage n)) (s : Projector ρ δ) :
    pollEcho session mapper bridge fault s = .ok
      { s with
        echo := (EchoIngestion.zipPage (Spine.sink session mapper) false
          s.native.evidenceWindowComplete (pollEntries bridge s.echo.transcriptAfter)
          s.echo s.spine).1
        spine := (EchoIngestion.zipPage (Spine.sink session mapper) false
          s.native.evidenceWindowComplete (pollEntries bridge s.echo.transcriptAfter)
          s.echo s.spine).2 } := by
  unfold pollEcho
  rw [if_pos hecho, reads_eq_ok.mpr (hfault 0)]
  show (readRetained bridge fault s _ 1 _ _ >>= _) = _
  rw [readRetained_ok hfault]
  rfl

omit [BEq δ] in
theorem readRetained_error {s t : Projector ρ δ} {fuel number : Nat}
    {entries page : List (TranscriptEntry ε)}
    (h : readRetained bridge fault s fuel number entries page = .error t) :
    (∃ n, fault.map Fault.read = some (.transcriptPage n)) ∧ t = s := by
  induction fuel generalizing number entries page with
  | zero => cases h
  | succ fuel ih =>
    unfold readRetained at h
    split at h
    · split at h
      · cases h
      · rcases bind_eq_error.mp h with h | ⟨-, -, h⟩
        · obtain ⟨hfault, rfl⟩ := reads_eq_error.mp h
          exact ⟨⟨_, hfault⟩, rfl⟩
        · exact ih h
    · cases h

theorem pollEcho_error {s t : Projector ρ δ} (h : pollEcho session mapper bridge fault s = .error t) :
    (∃ n, fault.map Fault.read = some (.transcriptPage n)) ∧ t = s := by
  unfold pollEcho at h
  split at h
  · rcases bind_eq_error.mp h with h | ⟨-, -, h⟩
    · obtain ⟨hfault, rfl⟩ := reads_eq_error.mp h
      exact ⟨⟨_, hfault⟩, rfl⟩
    · rcases bind_eq_error.mp h with h | ⟨entries, -, h⟩
      · exact readRetained_error h
      · cases h
  · cases h

theorem pollEcho_ok {s t : Projector ρ δ} (h : pollEcho session mapper bridge fault s = .ok t) :
    t.native = s.native ∧ (session.harness.usesTranscriptEcho = false → t = s) := by
  unfold pollEcho at h
  split at h
  · rename_i hecho
    obtain ⟨-, -, h⟩ := bind_eq_ok.mp h
    obtain ⟨entries, -, h⟩ := bind_eq_ok.mp h
    cases h
    exact ⟨rfl, fun hno => absurd hecho (by rw [hno]; decide)⟩
  · cases h
    exact ⟨rfl, fun _ => rfl⟩

variable (session mapper) in
theorem untouched_continueFrames (frames : List (NativeEvidenceFrame ν)) (s : Projector ρ δ) :
    Untouched s (frames.foldl (continueFrame session mapper) s) := by
  induction frames generalizing s with
  | nil => exact .refl s
  | cons frame frames ih =>
    have hstep : Untouched s (continueFrame session mapper s frame) := ⟨rfl, rfl, rfl, rfl⟩
    exact hstep.trans (ih _)

theorem continuePages_spec {fuel number : Nat} {s : Projector ρ δ} :
    (∀ t, continuePages session mapper bridge fault fuel number s = .error t →
      (∃ n, fault.map Fault.read = some (.continuationPage n)) ∧ Untouched s t) ∧
    ∀ t, continuePages session mapper bridge fault fuel number s = .ok t → Untouched s t := by
  induction fuel generalizing number s with
  | zero =>
    refine ⟨fun t h => (by cases h), fun t h => ?_⟩
    cases h
    exact .refl s
  | succ fuel ih =>
    unfold continuePages
    dsimp only
    have hframes := untouched_continueFrames session mapper
      (bridge.nativePage s.native.nativeCursor).frames s
    constructor
    · intro t h
      rcases bind_eq_error.mp h with h | ⟨-, -, h⟩
      · obtain ⟨hfault, rfl⟩ := reads_eq_error.mp h
        exact ⟨⟨_, hfault⟩, .refl _⟩
      · split at h
        · cases h
        · split at h
          · cases h
          · obtain ⟨hfault, hrest⟩ := ih.1 t h
            refine ⟨hfault, hframes.trans (.trans ?_ hrest)⟩
            exact ⟨rfl, rfl, rfl, rfl⟩
    · intro t h
      obtain ⟨-, -, h⟩ := bind_eq_ok.mp h
      split at h
      · cases h
        exact ⟨rfl, rfl, rfl, rfl⟩
      · split at h
        · cases h
          exact hframes.trans ⟨rfl, rfl, rfl, rfl⟩
        · refine hframes.trans (.trans ?_ (ih.2 t h))
          exact ⟨rfl, rfl, rfl, rfl⟩

omit [BEq δ] in
theorem resolveProvenance_spec {s : Projector ρ δ} :
    (∀ t, resolveProvenance bridge fault s = .error t →
      fault.map Fault.read = some .provenance ∧ t = s) ∧
    ∀ t, resolveProvenance bridge fault s = .ok t → Untouched s t ∧ t.native = s.native := by
  unfold resolveProvenance
  dsimp only
  split
  · refine ⟨fun t h => (by cases h), fun t h => ?_⟩
    cases h
    exact ⟨.refl _, rfl⟩
  · constructor
    · intro t h
      rcases bind_eq_error.mp h with h | ⟨-, -, h⟩
      · exact reads_eq_error.mp h
      · cases h
    · intro t h
      obtain ⟨-, -, h⟩ := bind_eq_ok.mp h
      cases h
      exact ⟨⟨rfl, rfl, rfl, rfl⟩, rfl⟩

/-! ## What a failure leaves -/

theorem finish_error {s t : Projector ρ δ}
    (h : finish session bridge fault s = .error t) :
    fault.map Fault.read = some .lastSnapshot ∧ t = s := by
  rcases bind_eq_error.mp h with h | ⟨-, -, h⟩
  · exact reads_eq_error.mp h
  · cases h

omit [BEq δ] in
theorem Unread.of_untouched {s t : Projector ρ δ} (h : Unread session bridge.retained s)
    (ht : Untouched s t) (hcursor : session.harness.usesNativePages = false →
      t.native.nativeCursor = none) : Unread session bridge.retained t where
  evidence := by rw [ht.evidenceAfter, h.evidence]
  transcript hecho := by
    rw [ht.echo]
    exact h.transcript hecho
  window hno := h.window (by rw [← ht.window, hno])
  cursor := hcursor

omit [BEq δ] in
theorem Unread.noteEviction {s : Projector ρ δ} (h : Unread session bridge.retained s) :
    Unread session bridge.retained
      (s.noteEviction bridge.retained.window.evictedBeforeSequence) where
  evidence := h.evidence
  transcript := h.transcript
  window hno := by
    rcases Bool.and_eq_false_iff.mp hno with hno | hno
    · exact h.window hno
    · exact Nat.pos_of_ne_zero (of_decide_eq_false hno)
  cursor := h.cursor

theorem unread_pollEvidence (hframes : bridge.retained.window.frames = []) {s t : Projector ρ δ}
    (hs : Unread session bridge.retained s)
    (h : pollEvidence session mapper bridge fault
      (bridge.retained.window.frames.length + 1) 0 s = .ok t) :
    Unread session bridge.retained t := by
  rw [pollEvidence_nil hframes h]
  exact hs.noteEviction

theorem unread_pollEcho (hframes : bridge.retained.window.frames = [])
    (husers : session.harness.usesTranscriptEcho → ∀ entry ∈ bridge.retained.transcript.entries,
      entry.isUser = false) {s t : Projector ρ δ} (hs : Unread session bridge.retained s)
    (h : pollEcho session mapper bridge fault s = .ok t) : Unread session bridge.retained t := by
  obtain ⟨hnative, hsame⟩ := pollEcho_ok h
  refine ⟨?_, fun hecho => .inr ⟨hframes, husers hecho⟩, ?_, ?_⟩
  · rw [hnative]
    exact hs.evidence
  · rw [hnative]
    exact hs.window
  · rw [hnative]
    exact hs.cursor

/-- Continuation pages move the cursor only, of a harness whose walk resets it. -/
theorem unread_pollNativeContinuation {s t : Projector ρ δ}
    (hs : Unread session bridge.retained s)
    (h : pollNativeContinuation session mapper bridge fault s = .error t ∨
      pollNativeContinuation session mapper bridge fault s = .ok t) :
    Unread session bridge.retained t := by
  unfold pollNativeContinuation at h
  split at h
  · rename_i heager
    have hpages : session.harness.usesNativePages = true := by
      cases hharness : session.harness <;> rw [hharness] at heager <;> simp_all
        [HarnessId.eagerNativeContinuation, HarnessId.usesNativePages]
    have ht : Untouched s t := by
      rcases h with h | h
      · exact (continuePages_spec.1 t h).2
      · exact continuePages_spec.2 t h
    exact hs.of_untouched ht fun hno => by rw [hpages] at hno; cases hno
  · rcases h with h | h <;> cases h
    exact hs

theorem pollNativeContinuation_error {s t : Projector ρ δ}
    (h : pollNativeContinuation session mapper bridge fault s = .error t) :
    (∃ n, fault.map Fault.read = some (.continuationPage n)) ∧
      session.harness.usesTranscriptEcho = false := by
  unfold pollNativeContinuation at h
  split at h
  · rename_i heager
    refine ⟨(continuePages_spec.1 t h).1, ?_⟩
    cases hharness : session.harness <;> rw [hharness] at heager <;> simp_all
      [HarnessId.eagerNativeContinuation, HarnessId.usesTranscriptEcho]
  · cases h

omit [BEq δ] in
theorem unread_resolveProvenance {s t : Projector ρ δ} (hs : Unread session bridge.retained s)
    (h : resolveProvenance bridge fault s = .error t ∨ resolveProvenance bridge fault s = .ok t) :
    Unread session bridge.retained t := by
  rcases h with h | h
  · rw [(resolveProvenance_spec.1 t h).2]
    exact hs
  · obtain ⟨ht, hnative⟩ := resolveProvenance_spec.2 t h
    exact hs.of_untouched ht (by rw [hnative]; exact hs.cursor)

/-- The polls of an attempt that fails there, or behind them. -/
theorem pollChannels_unread {f : Fault} {s t : Projector ρ δ}
    (hs : Unread session bridge.retained s)
    (hread : NothingRead session bridge.retained f.read)
    (h : pollChannels session mapper bridge (some f) s = .error t ∨
      pollChannels session mapper bridge (some f) s = .ok t ∧ f.read = .lastSnapshot) :
    Unread session bridge.retained t := by
  rcases h with h | ⟨h, hlast⟩
  · rcases bind_eq_error.mp h with h | ⟨s₁, h₁, h⟩
    · obtain ⟨n, -, hfault, hsame⟩ := pollEvidence_error h
      rw [show f.read = .evidencePage n from Option.some.inj hfault] at hread
      rw [hsame hread]
      exact hs
    · rcases bind_eq_error.mp h with h | ⟨s₂, h₂, h⟩
      · obtain ⟨⟨n, hfault⟩, rfl⟩ := pollEcho_error h
        rw [show f.read = .transcriptPage n from Option.some.inj hfault] at hread
        exact unread_pollEvidence hread hs h₁
      · rcases bind_eq_error.mp h with h | ⟨s₃, h₃, h⟩
        · obtain ⟨⟨n, hfault⟩, hecho⟩ := pollNativeContinuation_error h
          rw [show f.read = .continuationPage n from Option.some.inj hfault] at hread
          have hs₁ := unread_pollEvidence hread hs h₁
          have hs₂ := unread_pollEcho hread (fun hyes => absurd hyes (by simp [hecho])) hs₁ h₂
          exact unread_pollNativeContinuation hs₂ (.inl h)
        · rw [show f.read = .provenance from
            Option.some.inj (resolveProvenance_spec.1 t h).1] at hread
          have hs₂ := unread_pollEcho hread.1 hread.2 (unread_pollEvidence hread.1 hs h₁) h₂
          exact unread_resolveProvenance (unread_pollNativeContinuation hs₂ (.inr h₃)) (.inl h)
  · rw [hlast] at hread
    obtain ⟨s₁, h₁, h⟩ := bind_eq_ok.mp h
    obtain ⟨s₂, h₂, h⟩ := bind_eq_ok.mp h
    obtain ⟨s₃, h₃, h⟩ := bind_eq_ok.mp h
    have hs₂ := unread_pollEcho hread.1 hread.2 (unread_pollEvidence hread.1 hs h₁) h₂
    exact unread_resolveProvenance (unread_pollNativeContinuation hs₂ (.inr h₃)) (.inr h)

/-- An attempt that fails before anything was delivered can be repeated. -/
theorem unread_of_failed {f : Fault} {s t : Projector ρ δ}
    (hs : Unread session bridge.retained s)
    (hread : NothingRead session bridge.retained f.read)
    (h : rebuild session mapper bridge (some f) s = .error t) :
    Unread session bridge.retained t := by
  have hreset : Unread session bridge.retained s.reset :=
    ⟨hs.evidence, hs.transcript, hs.window, hs.cursor⟩
  rcases bind_eq_error.mp h with h | ⟨-, -, h⟩
  · obtain ⟨-, rfl⟩ := reads_eq_error.mp h
    exact hreset
  · have hset : Unread session bridge.retained (s.reset.setSnapshot bridge.snapshot) :=
      ⟨hreset.evidence, hreset.transcript, hreset.window, hreset.cursor⟩
    -- behind the walk, whatever it did
    have hpolls : ∀ {s₁ : Projector ρ δ}, Unread session bridge.retained s₁ →
        ((pollChannels session mapper bridge (some f) s₁) >>= finish session bridge (some f)) =
          .error t → Unread session bridge.retained t := by
      intro s₁ hs₁ h
      rcases bind_eq_error.mp h with h | ⟨s₂, hs₂, h⟩
      · exact pollChannels_unread hs₁ hread (.inl h)
      · obtain ⟨hfault, rfl⟩ := finish_error h
        exact pollChannels_unread hs₁ hread (.inr ⟨hs₂, by simpa using hfault⟩)
    dsimp only at h
    by_cases hpages : session.harness.usesNativePages
    · rw [if_pos hpages] at h
      have hwalk : ∀ t, Untouched { s.reset.setSnapshot bridge.snapshot with
          native := { s.native.reset with nativeCursor := none } } t →
          Unread session bridge.retained t := by
        intro t ht
        refine hset.of_untouched ⟨ht.evidenceAfter, ht.window, ht.echo, ht.interactions⟩ fun hno => ?_
        rw [hpages] at hno
        cases hno
      rcases bind_eq_error.mp h with h | ⟨s₁, hs₁, h⟩
      · exact hwalk t (walkPages_spec.1 t h).2
      · exact hpolls (hwalk s₁ (walkPages_spec.2 s₁ hs₁)) h
    · rw [if_neg hpages] at h
      exact hpolls hset h

end stages

end Projector

end AgentsRemember.Conversation
