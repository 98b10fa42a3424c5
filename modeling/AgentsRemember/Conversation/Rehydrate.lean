import AgentsRemember.Conversation.Linked
import Mathlib.Algebra.Order.BigOperators.Group.List

/-!
# Conversation — Rehydrate

Rebuilds that are repeated after failures: nothing is lost exactly when no read
in front of the failing ones delivered an evidence frame or a user echo.
-/

namespace AgentsRemember.Conversation

open Attempts

variable {ρ ε ν δ : Type}

/-- A poll without frames ends at its last entry. -/
theorem zipEntries_after {τ : Type} (sink : Sink ρ ε τ) {entries : List (TranscriptEntry ε)}
    (hnumbered : ∀ entry ∈ entries, entry.sequence = some entry.position) (e : EchoIngestion ρ)
    (t : τ) : (EchoIngestion.zipEntries sink entries e t).1.transcriptAfter =
      ((entries.map TranscriptEntry.position).getLast?).getD e.transcriptAfter := by
  have hentry : ∀ (entry : TranscriptEntry ε), entry.sequence = some entry.position →
      ∀ (e : EchoIngestion ρ) (t : τ),
        (EchoIngestion.zipEntry sink entry e t).1.transcriptAfter = entry.position := by
    intro entry hsequence e t
    unfold EchoIngestion.zipEntry EchoIngestion.advance
    rw [hsequence]
    dsimp only
    split <;> rfl
  induction entries generalizing e t with
  | nil => rfl
  | cons entry entries ih =>
    unfold EchoIngestion.zipEntries
    dsimp only
    rw [ih (fun f hf => hnumbered f (by simp [hf])), hentry entry (hnumbered entry (by simp)),
      List.map_cons, List.getLast?_cons]
    rfl

theorem zipPage_nil {τ : Type} (sink : Sink ρ ε τ) (hydrated windowComplete : Bool)
    {e : EchoIngestion ρ} (hpending : e.pendingFrames = []) (t : τ) :
    EchoIngestion.zipPage sink hydrated windowComplete ([] : List (TranscriptEntry ε)) e t =
      (e, t) := by
  obtain ⟨after, pending, turnOpen⟩ := e
  obtain rfl : pending = [] := hpending
  simp [EchoIngestion.zipPage, EchoIngestion.realignEvicted, EchoIngestion.zipEntries,
    EchoIngestion.flushBodies, EchoIngestion.drainOneTurnBody]

theorem le_getLast {entries : List (TranscriptEntry ε)}
    (hincreasing : entries.Pairwise fun a b => a.position < b.position) (start : Nat)
    {entry : TranscriptEntry ε} (h : entry ∈ entries) :
    entry.position ≤ ((entries.map TranscriptEntry.position).getLast?).getD start := by
  induction entries using List.reverseRecOn with
  | nil => cases h
  | append_singleton entries last ih =>
    rw [List.map_append, List.map_singleton, List.getLast?_concat, Option.getD_some]
    rcases List.mem_append.mp h with h | h
    · exact (List.pairwise_append.mp hincreasing).2.2 entry h last (by simp) |>.le
    · rw [List.mem_singleton.mp h]

namespace Projector

section retries
variable [BEq δ] (session : Session) (mapper : Mapper ρ ε ν δ) (bridge : Bridge ρ ε ν)

/-- What attempts leave that fail, one after the other, each at its read. -/
def failedAttempts : List Fault → Projector ρ δ → Option (Projector ρ δ)
  | [], s => some s
  | fault :: faults, s =>
    match rebuild session mapper bridge (some fault) s with
    | .error s => failedAttempts faults s
    | .ok _ => none

end retries

/-- The watermarks count off something that is there to be shown. -/
def Passed (session : Session) (retained : Retained ρ ε) (s : Projector ρ δ) : Prop :=
  match retained.window.frames with
  | frame :: _ => frame.sequence ≤ s.native.evidenceAfter
  | [] => session.harness.usesTranscriptEcho ∧
    (∃ entry ∈ retained.transcript.entries, entry.isUser) ∧
    ∀ entry ∈ retained.transcript.entries, entry.position ≤ s.echo.transcriptAfter

section passed
variable [BEq δ] {session : Session} {mapper : Mapper ρ ε ν δ} {bridge : Bridge ρ ε ν}
  {f : Fault} {s t : Projector ρ δ}

theorem untouched_pollNativeContinuation
    (h : pollNativeContinuation session mapper bridge (some f) s = .error t ∨
      pollNativeContinuation session mapper bridge (some f) s = .ok t) : Untouched s t := by
  unfold pollNativeContinuation at h
  split at h
  · rcases h with h | h
    · exact (continuePages_spec.1 t h).2
    · exact continuePages_spec.2 t h
  · rcases h with h | h <;> cases h
    exact .refl s

/-- How far an attempt comes that fails: not past the walk, through the evidence,
to the transcript, or past it. -/
theorem failed_cases (h : rebuild session mapper bridge (some f) s = .error t) :
    (Untouched s.reset t ∧ (f.read = .firstSnapshot ∨ ∃ n, f.read = .nativePage n)) ∨
    ∃ s₁, Untouched s.reset s₁ ∧
      (pollEvidence session mapper bridge (some f)
          (bridge.retained.window.frames.length + 1) 0 s₁ = .error t ∨
        ∃ s₂, pollEvidence session mapper bridge (some f)
            (bridge.retained.window.frames.length + 1) 0 s₁ = .ok s₂ ∧
          ((t = s₂ ∧ ∃ n, f.read = .transcriptPage n) ∨
            ∃ s₃, pollEcho session mapper bridge (some f) s₂ = .ok s₃ ∧ Untouched s₃ t ∧
              ((∃ n, f.read = .continuationPage n) ∨ f.read = .provenance ∨
                f.read = .lastSnapshot))) := by
  by_cases hfirst : (some f).map Fault.read = some .firstSnapshot
  · rcases bind_eq_error.mp h with h | ⟨⟨⟩, hread, -⟩
    · obtain ⟨-, rfl⟩ := reads_eq_error.mp h
      exact .inl ⟨.refl _, .inl (Option.some.inj hfirst)⟩
    · exact absurd hfirst (reads_eq_ok.mp hread)
  rw [rebuild_eq session hfirst] at h
  rcases bind_eq_error.mp h with h | ⟨s₁, hs₁, h⟩
  · obtain ⟨n, hread⟩ := (opened_spec session).1 t h
    exact .inl ⟨untouched_opened_error h, .inr ⟨n, Option.some.inj hread⟩⟩
  refine .inr ⟨s₁, (opened_spec session).2 s₁ hs₁, ?_⟩
  rcases bind_eq_error.mp h with h | ⟨s₄, hs₄, h⟩
  · rcases bind_eq_error.mp h with h | ⟨s₂, hs₂, h⟩
    · exact .inl h
    refine .inr ⟨s₂, hs₂, ?_⟩
    rcases bind_eq_error.mp h with h | ⟨s₃, hs₃, h⟩
    · obtain ⟨⟨n, hread⟩, rfl⟩ := pollEcho_error h
      exact .inl ⟨rfl, n, Option.some.inj hread⟩
    refine .inr ⟨s₃, hs₃, ?_⟩
    rcases bind_eq_error.mp h with h | ⟨s₄, hs₄, h⟩
    · obtain ⟨⟨n, hread⟩, -⟩ := pollNativeContinuation_error h
      exact ⟨untouched_pollNativeContinuation (.inl h), .inl ⟨n, Option.some.inj hread⟩⟩
    · obtain ⟨hread, rfl⟩ := resolveProvenance_spec.1 t h
      exact ⟨untouched_pollNativeContinuation (.inr hs₄), .inr (.inl (Option.some.inj hread))⟩
  · obtain ⟨hread, rfl⟩ := finish_error h
    obtain ⟨s₂, hs₂, h⟩ := bind_eq_ok.mp hs₄
    obtain ⟨s₃, hs₃, h⟩ := bind_eq_ok.mp h
    obtain ⟨s₅, hs₅, h⟩ := bind_eq_ok.mp h
    exact .inr ⟨s₂, hs₂, .inr ⟨s₃, hs₃, (untouched_pollNativeContinuation (.inr hs₅)).trans
      (resolveProvenance_spec.2 _ h).1, .inr (.inr (Option.some.inj hread))⟩⟩

theorem read_ne_transcriptPage (h : (∃ n, f.read = .continuationPage n) ∨ f.read = .provenance ∨
    f.read = .lastSnapshot) (n : Nat) : (some f).map Fault.read ≠ some (.transcriptPage n) := by
  rcases h with ⟨m, h⟩ | h | h <;> simp [h]

theorem pollEvidence_nil_error (hframes : bridge.retained.window.frames = []) {fuel number : Nat}
    (h : pollEvidence session mapper bridge (some f) fuel number s = .error t) :
    f.read = .evidencePage number ∧ t = s := by
  cases fuel with
  | zero => cases h
  | succ fuel =>
    rcases bind_eq_error.mp h with h | ⟨-, -, h⟩
    · obtain ⟨hread, rfl⟩ := reads_eq_error.mp h
      exact ⟨Option.some.inj hread, rfl⟩
    · dsimp only at h
      rw [page_frames_nil hframes] at h
      simp only [List.isEmpty_nil, or_true, if_true] at h
      cases h

/-! ## Once passed -/

theorem pollEntries_nil {after : Nat}
    (h : ∀ entry ∈ bridge.retained.transcript.entries, entry.position ≤ after) :
    pollEntries bridge after = [] := by
  have hpage : bridge.retained.transcript.page after = [] := by
    unfold Transcript.page
    rw [List.filter_eq_nil_iff.mpr fun entry hentry => by simpa using h entry hentry]
    rfl
  unfold pollEntries
  rw [hpage]
  rfl

/-- A later attempt that fails leaves it so. -/
theorem Passed.failed (hs : Passed session bridge.retained s)
    (h : rebuild session mapper bridge (some f) s = .error t) :
    Passed session bridge.retained t := by
  unfold Passed at hs ⊢
  cases hframes : bridge.retained.window.frames with
  | cons frame frames =>
    rw [hframes] at hs
    have hevidence : ∀ s₁, Untouched s.reset s₁ →
        (∀ t, pollEvidence session mapper bridge (some f)
          (bridge.retained.window.frames.length + 1) 0 s₁ = .ok t →
            frame.sequence ≤ t.native.evidenceAfter) ∧
        ∀ t, pollEvidence session mapper bridge (some f)
          (bridge.retained.window.frames.length + 1) 0 s₁ = .error t →
            frame.sequence ≤ t.native.evidenceAfter := by
      intro s₁ hs₁
      refine pollEvidence_ends session (I := fun s => frame.sequence ≤ s.native.evidenceAfter)
        (fun _ h => h) (fun _ _ _ h => h.le) (fun h => h) ?_
      rw [hs₁.evidenceAfter]
      exact hs
    rcases failed_cases h with ⟨ht, -⟩ | ⟨s₁, hs₁, ht | ⟨s₂, hs₂, hrest⟩⟩
    · show frame.sequence ≤ t.native.evidenceAfter
      rw [ht.evidenceAfter]
      exact hs
    · exact (hevidence s₁ hs₁).2 t ht
    · have hpast := (hevidence s₁ hs₁).1 s₂ hs₂
      rcases hrest with ⟨rfl, -⟩ | ⟨s₃, hs₃, ht, -⟩
      · exact hpast
      · show frame.sequence ≤ t.native.evidenceAfter
        rw [ht.evidenceAfter, (pollEcho_ok hs₃).1]
        exact hpast
  | nil =>
    rw [hframes] at hs
    obtain ⟨hecho, huser, hall⟩ := hs
    -- nothing is read, so the watermark of the transcript stays
    have hafter : ∀ {s₁ s₂}, Untouched s.reset s₁ →
        pollEvidence session mapper bridge (some f)
          (bridge.retained.window.frames.length + 1) 0 s₁ = .ok s₂ →
        s₂.echo.pendingFrames = [] ∧ s₂.echo.transcriptAfter = s.echo.transcriptAfter := by
      intro s₁ s₂ hs₁ hs₂
      rw [pollEvidence_nil hframes hs₂]
      show s₁.echo.pendingFrames = [] ∧ s₁.echo.transcriptAfter = _
      rw [hs₁.echo]
      exact ⟨rfl, rfl⟩
    have hsame : t.echo.transcriptAfter = s.echo.transcriptAfter := by
      rcases failed_cases h with ⟨ht, -⟩ | ⟨s₁, hs₁, ht | ⟨s₂, hs₂, hrest⟩⟩
      · rw [ht.echo]
        rfl
      · rw [(pollEvidence_nil_error hframes ht).2, hs₁.echo]
        rfl
      · obtain ⟨hpending, hsame⟩ := hafter hs₁ hs₂
        rcases hrest with ⟨rfl, -⟩ | ⟨s₃, hs₃, ht, hread⟩
        · exact hsame
        · rw [pollEcho_eq hecho (read_ne_transcriptPage hread), hsame, pollEntries_nil hall,
            zipPage_nil _ _ _ hpending] at hs₃
          cases hs₃
          rw [ht.echo]
          exact hsame
    refine ⟨hecho, huser, fun entry hentry => ?_⟩
    rw [hsame]
    exact hall entry hentry

/-! ## What passes -/

/-- An attempt from behind nothing that fails, but too late, passes the mark. -/
theorem Unread.passed (hs : Unread session bridge.retained s)
    (hread : ¬NothingRead session bridge.retained f.read)
    (h : rebuild session mapper bridge (some f) s = .error t) :
    Passed session bridge.retained t := by
  have hcases := failed_cases h
  unfold Passed
  cases hframes : bridge.retained.window.frames with
  | cons frame frames =>
    show frame.sequence ≤ t.native.evidenceAfter
    rcases hcases with ⟨-, hread' | ⟨n, hread'⟩⟩ | ⟨s₁, hs₁, hrest⟩
    · rw [hread'] at hread
      exact absurd trivial hread
    · rw [hread'] at hread
      exact absurd trivial hread
    · have hfirst : (some f).map Fault.read ≠ some (.evidencePage 0) := by
        intro hzero
        rw [show f.read = .evidencePage 0 from Option.some.inj hzero] at hread
        exact hread rfl
      have hevidence : (∀ t, pollEvidence session mapper bridge (some f)
            (bridge.retained.window.frames.length + 1) 0 s₁ = .ok t →
              frame.sequence ≤ t.native.evidenceAfter) ∧
          ∀ t, pollEvidence session mapper bridge (some f)
            (bridge.retained.window.frames.length + 1) 0 s₁ = .error t →
              frame.sequence ≤ t.native.evidenceAfter := by
        refine pollEvidence_first session (I := fun s => frame.sequence ≤ s.native.evidenceAfter)
          hframes (fun _ h => h) (fun _ _ _ h => h.le) (fun h => h) ?_ hfirst (Nat.le_refl _)
        rw [hs₁.evidenceAfter]
        exact hs.evidence
      rcases hrest with ht | ⟨s₂, hs₂, ⟨rfl, -⟩ | ⟨s₃, hs₃, ht, -⟩⟩
      · exact hevidence.2 t ht
      · exact hevidence.1 _ hs₂
      · rw [ht.evidenceAfter, (pollEcho_ok hs₃).1]
        exact hevidence.1 _ hs₂
  | nil =>
    -- only echoes can have been delivered, by a harness that polls them
    have hlate : (f.read = .provenance ∨ f.read = .lastSnapshot) ∧
        ∃ s₁ s₂ s₃, Untouched s.reset s₁ ∧ pollEvidence session mapper bridge (some f)
          (bridge.retained.window.frames.length + 1) 0 s₁ = .ok s₂ ∧
        pollEcho session mapper bridge (some f) s₂ = .ok s₃ ∧ Untouched s₃ t := by
      rcases hcases with ⟨-, hread' | ⟨n, hread'⟩⟩ | ⟨s₁, hs₁, ht | ⟨s₂, hs₂, hrest⟩⟩
      · rw [hread'] at hread
        exact absurd trivial hread
      · rw [hread'] at hread
        exact absurd trivial hread
      · rw [(pollEvidence_nil_error hframes ht).1] at hread
        exact absurd rfl hread
      · rcases hrest with ⟨-, n, hread'⟩ | ⟨s₃, hs₃, ht, ⟨n, hread'⟩ | hread'⟩
        · rw [hread'] at hread
          exact absurd hframes hread
        · rw [hread'] at hread
          exact absurd hframes hread
        · exact ⟨hread', s₁, s₂, s₃, hs₁, hs₂, hs₃, ht⟩
    obtain ⟨hlate, s₁, s₂, s₃, hs₁, hs₂, hs₃, ht⟩ := hlate
    have hechoes : session.harness.usesTranscriptEcho ∧
        ∃ entry ∈ bridge.retained.transcript.entries, entry.isUser := by
      have hread : ¬(session.harness.usesTranscriptEcho →
          ∀ entry ∈ bridge.retained.transcript.entries, entry.isUser = false) := by
        rcases hlate with hlate | hlate
        · rw [hlate] at hread
          exact fun hno => hread ⟨hframes, hno⟩
        · rw [hlate] at hread
          exact fun hno => hread ⟨hframes, hno⟩
      simpa only [Classical.not_imp, not_forall, exists_prop, Bool.not_eq_false] using hread
    obtain ⟨hecho, huser⟩ := hechoes
    refine ⟨hecho, huser, fun entry hentry => ?_⟩
    have hcomplete : s₂.native.evidenceWindowComplete = true := by
      have hnone : bridge.retained.window.evictedBeforeSequence = 0 := by
        by_contra hsome
        exact bridge.retained.window.evicted (Nat.pos_of_ne_zero hsome) hframes
      rw [pollEvidence_nil hframes hs₂, hnone]
      show (s₁.native.evidenceWindowComplete && true) = true
      rw [hs₁.window, Bool.and_true]
      by_contra hincomplete
      have hwindow : s.native.evidenceWindowComplete = false :=
        (Bool.not_eq_true _).mp hincomplete
      have := hs.window hwindow
      omega
    have hfresh : s₂.echo.transcriptAfter = 0 := by
      rw [pollEvidence_nil hframes hs₂]
      show s₁.echo.transcriptAfter = 0
      rw [hs₁.echo]
      refine (hs.transcript hecho).resolve_right fun hquiet => ?_
      obtain ⟨user, hmem, huser⟩ := huser
      rw [hquiet.2 user hmem] at huser
      cases huser
    have hlate' : (∃ n, f.read = .continuationPage n) ∨ f.read = .provenance ∨
        f.read = .lastSnapshot := .inr hlate
    have hall := readRetained_fresh bridge.retained.transcript.numbered
      bridge.retained.transcript.increasing bridge.retained.transcript.positive
      (Nat.le_succ bridge.retained.transcript.entries.length)
    rw [pollEcho_eq hecho (read_ne_transcriptPage hlate'), hfresh,
      show pollEntries bridge 0 = bridge.retained.transcript.entries from hall, hcomplete] at hs₃
    cases hs₃
    rw [ht.echo]
    show _ ≤ (EchoIngestion.zipEntries _ _ _ _).1.transcriptAfter
    rw [zipEntries_after _ bridge.retained.transcript.numbered]
    exact le_getLast bridge.retained.transcript.increasing _ hentry

/-! ## What is missing -/

/-- The id of what a rebuild delivers first. -/
def firstId (session : Session) (retained : Retained ρ ε) : String :=
  match retained.window.frames with
  | frame :: _ => vendorItemId session frame
  | [] => "echo"

/-- A loud rebuild over a silent bridge, from its polls on. -/
theorem polled_of_rebuilt {mapper : Mapper ρ ε ν δ}
    (h : rebuild session mapper bridge none s = .ok t) :
    ∃ s₁ s₂, opened session mapper bridge none s = .ok s₁ ∧
      pollEvidence session mapper bridge none (bridge.retained.window.frames.length + 1) 0 s₁ =
        .ok s₂ ∧
      ((pollEcho session mapper bridge none s₂ >>= fun s =>
        pollNativeContinuation session mapper bridge none s >>= resolveProvenance bridge none) >>=
          finish session bridge none) = .ok t := by
  rw [rebuild_eq session (by simp)] at h
  obtain ⟨s₁, hs₁, h⟩ := bind_eq_ok.mp h
  obtain ⟨s₄, hs₄, h⟩ := bind_eq_ok.mp h
  obtain ⟨s₂, hs₂, hs₄⟩ := bind_eq_ok.mp hs₄
  exact ⟨s₁, s₂, hs₁, hs₂, bind_eq_ok.mpr ⟨s₄, hs₄, h⟩⟩

/-- What is passed does not show again. -/
theorem Passed.missing (hbridge : Silent bridge) (hs : Passed session bridge.retained s)
    (h : rebuild session (loud session : Mapper ρ ε ν δ) bridge none s = .ok t) :
    firstId session bridge.retained ∉ t.ids := by
  obtain ⟨s₁, s₂, hs₁, hs₂, ht⟩ := polled_of_rebuilt h
  have hopened := (opened_spec session).2 s₁ hs₁
  unfold Passed at hs
  unfold firstId
  cases hframes : bridge.retained.window.frames with
  | cons frame frames =>
    rw [hframes] at hs
    obtain ⟨s₁', hs₁', hbetween⟩ := loud_opened session
      (fun n => by simp : ∀ n, (none : Option Fault).map Fault.read ≠ some (.nativePage n))
      hbridge.sounding (K := Above session bridge frame.sequence) (fun _ => .inl rfl) s
    obtain rfl : s₁' = s₁ := by
      rw [hs₁] at hs₁'
      exact (Except.ok.inj hs₁').symm
    have hbehind : Behind session bridge frame.sequence s₁' := by
      refine ⟨by rw [hopened.evidenceAfter]; exact hs, hbetween.mono nofun nofun, ?_,
        hopened.interactions⟩
      rw [hopened.echo]
      exact nofun
    have hpast := (pollEvidence_ends session (I := Behind session bridge frame.sequence)
      (fun _ h => ⟨h.after, h.spine, h.queue, h.idle⟩)
      (fun _ h hmem hahead => h.consume session hmem hahead) (fun h => h.after) hbehind).1 s₂ hs₂
    have hids := (ids_of_polled session hbridge hpast.idle hpast.spine hpast.queue
      (fun _ => .inl rfl) (fun _ => .inr (.inl rfl)) ht).2.2.2
    exact fun hmem => not_above session frame (hids _ hmem)
  | nil =>
    rw [hframes] at hs
    obtain ⟨hecho, -, hall⟩ := hs
    have hharness : session.harness.usesNativePages = false ∧
        session.harness.eagerNativeContinuation = false := by
      cases hharness : session.harness <;> rw [hharness] at hecho <;>
        simp_all [HarnessId.usesTranscriptEcho, HarnessId.usesNativePages,
          HarnessId.eagerNativeContinuation]
    unfold opened at hs₁
    rw [hharness.1] at hs₁
    cases hs₁
    obtain rfl := pollEvidence_nil hframes hs₂
    obtain ⟨s₅, hs₅, ht⟩ := bind_eq_ok.mp ht
    obtain ⟨s₃, hs₃, hs₅⟩ := bind_eq_ok.mp hs₅
    obtain ⟨s₄, hs₄, hs₅⟩ := bind_eq_ok.mp hs₅
    -- neither frames nor entries are read again
    have hnone : ∀ n, (none : Option Fault).map Fault.read ≠ some (.transcriptPage n) := by simp
    have hentries : pollEntries bridge s.echo.transcriptAfter = [] := pollEntries_nil hall
    rw [pollEcho_eq hecho hnone] at hs₃
    dsimp only [noteEviction, setSnapshot, reset, EchoIngestion.reset] at hs₃
    rw [hentries, zipPage_nil _ _ _ rfl] at hs₃
    cases hs₃
    unfold pollNativeContinuation at hs₄
    rw [hharness.2] at hs₄
    cases hs₄
    have hidle : s₅.interactions = {} := (resolveProvenance_spec.2 _ hs₅).1.interactions
    unfold ids
    rw [items_finish session hbridge.snapshot hidle ht,
      items_resolveProvenance hbridge.provenance hs₅]
    exact List.not_mem_nil

/-- What can be passed shows at first. -/
theorem firstId_mem (hbridge : Silent bridge) (hecho : bridge.retained.window.frames = [] →
      session.harness.usesTranscriptEcho ∧
        ∃ entry ∈ bridge.retained.transcript.entries, entry.isUser)
    (h : rebuild session (loud session : Mapper ρ ε ν δ) bridge none (start session) = .ok t) :
    firstId session bridge.retained ∈ t.ids := by
  obtain ⟨s₁, s₂, hs₁, hs₂, ht⟩ := polled_of_rebuilt h
  have hopened := (opened_spec session).2 s₁ hs₁
  obtain ⟨s₁', hs₁', hbetween⟩ := loud_opened session
    (fun n => by simp : ∀ n, (none : Option Fault).map Fault.read ≠ some (.nativePage n))
    hbridge.sounding (K := fun _ => True) (fun _ => trivial)
    (start session : Projector ρ δ)
  obtain rfl : s₁' = s₁ := by
    rw [hs₁] at hs₁'
    exact (Except.ok.inj hs₁').symm
  unfold firstId
  cases hframes : bridge.retained.window.frames with
  | cons frame frames =>
    have hseen : Seen session frame s₂ := by
      refine (pollEvidence_first session (I := Seen session frame) hframes
        (fun _ h => ⟨h.after, h.spine, h.queue, h.idle⟩) (fun _ h _ hahead => h.consume session hahead)
        (fun h => h.after) ?_ (by simp) ?_).1 s₂ hs₂
      · rw [hopened.evidenceAfter]
        rfl
      · refine Seen.first session (s := s₁'.noteEviction _) hbetween ?_ hopened.interactions frame
        show s₁'.echo.pendingFrames = []
        rw [hopened.echo]
        rfl
    have hids := ids_of_polled session hbridge hseen.idle hseen.spine (fun _ _ => trivial)
      (fun _ => trivial) (fun _ => trivial) ht
    by_cases huses : session.harness.usesTranscriptEcho
    · exact hids.2.1 huses frame (hseen.queue huses)
    · exact hids.1 _ ⟨by simpa using huses, rfl⟩
  | nil =>
    obtain ⟨huses, user, hmem, huser⟩ := hecho hframes
    obtain rfl := pollEvidence_nil hframes hs₂
    have hids := ids_of_polled session hbridge (s := s₁'.noteEviction _) hopened.interactions hbetween
      (fun _ _ => trivial) (fun _ => trivial) (fun _ => trivial) ht
    refine hids.2.2.1 huses ⟨user, ?_, huser⟩
    show user ∈ pollEntries bridge s₁'.echo.transcriptAfter
    rw [hopened.echo]
    have hall := readRetained_fresh bridge.retained.transcript.numbered
      bridge.retained.transcript.increasing bridge.retained.transcript.positive
      (Nat.le_succ bridge.retained.transcript.entries.length)
    exact (show pollEntries bridge 0 = _ from hall) ▸ hmem

/-! ## Runs of failures -/

theorem failedAttempts_cons {fault : Fault} {faults : List Fault}
    (h : failedAttempts session mapper bridge (fault :: faults) s = some t) :
    ∃ s', rebuild session mapper bridge (some fault) s = .error s' ∧
      failedAttempts session mapper bridge faults s' = some t := by
  unfold failedAttempts at h
  split at h
  · exact ⟨_, ‹_›, h⟩
  · cases h

theorem unread_of_failedAttempts {faults : List Fault}
    (hread : ∀ f ∈ faults, NothingRead session bridge.retained f.read)
    (hs : Unread session bridge.retained s)
    (h : failedAttempts session mapper bridge faults s = some t) :
    Unread session bridge.retained t := by
  induction faults generalizing s with
  | nil =>
    cases h
    exact hs
  | cons f faults ih =>
    obtain ⟨s', hs', h⟩ := failedAttempts_cons h
    have hnext := unread_of_failed hs (hread f (by simp)) hs'
    exact ih (fun f hf => hread f (by simp [hf])) hnext h

theorem Passed.failedAttempts {faults : List Fault} (hs : Passed session bridge.retained s)
    (h : failedAttempts session mapper bridge faults s = some t) :
    Passed session bridge.retained t := by
  induction faults generalizing s with
  | nil =>
    cases h
    exact hs
  | cons f faults ih =>
    obtain ⟨s', hs', h⟩ := failedAttempts_cons h
    exact ih (hs.failed hs') h

/-- One attempt that fails too late is enough. -/
theorem passed_of_failedAttempts {faults : List Fault}
    (hread : ∃ f ∈ faults, ¬NothingRead session bridge.retained f.read)
    (hs : Unread session bridge.retained s)
    (h : failedAttempts session mapper bridge faults s = some t) :
    Passed session bridge.retained t := by
  induction faults generalizing s with
  | nil =>
    obtain ⟨f, hf, -⟩ := hread
    cases hf
  | cons f faults ih =>
    obtain ⟨s', hs', h⟩ := failedAttempts_cons h
    by_cases hhead : NothingRead session bridge.retained f.read
    · refine ih ?_ (unread_of_failed hs hhead hs') h
      obtain ⟨g, hg, hlate⟩ := hread
      rcases List.mem_cons.mp hg with rfl | hg
      · exact absurd hhead hlate
      · exact ⟨g, hg, hlate⟩
    · exact (hs.passed hhead hs').failedAttempts h

theorem linked_failedAttempts [Inhabited ν] {pages : Nat} {faults : List Fault}
    (hpages : ∀ f ∈ faults, f.read.native < pages) {s' : Projector ρ δ} (hlinked : Linked s t)
    (h : failedAttempts session mapper bridge faults s = some s') :
    ∃ t', failedAttempts session (loud session : Mapper ρ ε ν δ) (bridge.retained.silent pages)
      faults t = some t' := by
  induction faults generalizing s t with
  | nil => exact ⟨t, rfl⟩
  | cons f faults ih =>
    obtain ⟨s₁, hs₁, h⟩ := failedAttempts_cons h
    obtain ⟨t₁, ht₁, hnext⟩ := linked_rebuild hlinked (hpages f (by simp)) hs₁
    obtain ⟨t', ht'⟩ := ih (fun f hf => hpages f (by simp [hf])) hnext h
    refine ⟨t', ?_⟩
    show (match rebuild session _ _ (some f) t with
      | .error t => Projector.failedAttempts _ _ _ faults t
      | .ok _ => none) = some t'
    rw [ht₁]
    exact ht'

end passed

section claim
variable [BEq δ] [Inhabited ν]

/-- Attempts that fail, and then one that succeeds, show what one that succeeds at
once shows, whatever the mapper, the native pages and the answers are, exactly
when each of them fails before anything was delivered. -/
theorem rebuild_retry_lossless_iff (session : Session) (retained : Retained ρ ε)
    (faults : List Fault)
    (hfails : ∃ (mapper : Mapper ρ ε ν δ) (bridge : Bridge ρ ε ν), bridge.retained = retained ∧
      (failedAttempts session mapper bridge faults (start session)).isSome) :
    (∀ (mapper : Mapper ρ ε ν δ) (bridge : Bridge ρ ε ν), bridge.retained = retained →
      ∀ s, failedAttempts session mapper bridge faults (start session) = some s →
        ∃ first again, rebuild session mapper bridge none (start session) = .ok first ∧
          rebuild session mapper bridge none s = .ok again ∧ again.items = first.items) ↔
      ∀ f ∈ faults, NothingRead session retained f.read := by
  constructor
  · intro hlossless f hf
    by_contra hlate
    obtain ⟨mapper, bridge, rfl, hsome⟩ := hfails
    obtain ⟨s, hs⟩ := Option.isSome_iff_exists.mp hsome
    obtain ⟨pages, hpages⟩ : ∃ pages, ∀ f ∈ faults, f.read.native < pages := by
      refine ⟨(faults.map fun f => f.read.native).sum + 1, fun f hf => ?_⟩
      have := List.le_sum_of_mem (List.mem_map_of_mem (f := fun f : Fault => f.read.native) hf)
      omega
    -- the same failures with everything shown
    obtain ⟨t, ht⟩ := linked_failedAttempts hpages
      (⟨rfl, rfl, rfl⟩ : Linked (start session) (start session)) hs
    obtain ⟨first, again, hfirst, hagain, hitems⟩ :=
      hlossless (loud session) (bridge.retained.silent pages) rfl t ht
    have hsilent := silent_silent (ν := ν) bridge.retained pages
    have hunread : Unread session (bridge.retained.silent pages : Bridge ρ ε ν).retained
        (start session : Projector ρ δ) := .start session _
    have hpassed := passed_of_failedAttempts (by exact ⟨f, hf, hlate⟩) hunread ht
    have hmissing := hpassed.missing hsilent hagain
    refine hmissing ?_
    unfold ids
    rw [hitems]
    refine firstId_mem hsilent (fun hframes => ?_) hfirst
    unfold Passed at hpassed
    rw [hframes] at hpassed
    exact ⟨hpassed.1, hpassed.2.1⟩
  · intro hread mapper bridge hretained s hs
    subst hretained
    have hunread := unread_of_failedAttempts hread (Unread.start session bridge.retained) hs
    obtain ⟨first, again, hfirst, hagain, hitems⟩ :=
      rebuild_of_unread (Unread.start session bridge.retained) hunread
    exact ⟨first, again, hfirst, hagain, hitems.symm⟩

/-- One evidence frame of a codex session. -/
def oneFrame : Retained Unit Unit where
  window :=
    { frames := [{ sequence := 1, type := none, raw := () }]
      increasing := List.pairwise_singleton _ _
      positive := by simp
      evicted := fun h => absurd h (Nat.lt_irrefl 0) }
  transcript :=
    { entries := []
      numbered := nofun
      increasing := .nil
      positive := nofun }

/-- A session. -/
def codexSession : Session := ⟨.codex, "epoch", none⟩

theorem rebuild_retry_one_frame :
    (∀ (mapper : Mapper Unit Unit Unit Unit) (bridge : Bridge Unit Unit Unit),
      bridge.retained = oneFrame → ∀ s, failedAttempts codexSession mapper bridge
          [⟨.firstSnapshot, true⟩, ⟨.evidencePage 0, true⟩] (start codexSession) = some s →
        ∃ first again, rebuild codexSession mapper bridge none (start codexSession) = .ok first ∧
          rebuild codexSession mapper bridge none s = .ok again ∧ again.items = first.items) ↔
      ∀ f ∈ [⟨.firstSnapshot, true⟩, ⟨.evidencePage 0, true⟩],
        NothingRead codexSession oneFrame (Fault.read f) :=
  rebuild_retry_lossless_iff codexSession oneFrame
    [⟨.firstSnapshot, true⟩, ⟨.evidencePage 0, true⟩]
    ⟨loud codexSession, oneFrame.silent 0, rfl, by decide +kernel⟩

/-- The second snapshot fails: the frame is not read again, and its item is gone. -/
theorem failed_rebuild_loses_frame :
    ¬∀ (session : Session) (mapper : Mapper Unit Unit Unit Unit) (bridge : Bridge Unit Unit Unit)
      (fault : Fault) (s first again : Projector Unit Unit),
      rebuild session mapper bridge (some fault) (start session) = .error s →
      rebuild session mapper bridge none (start session) = .ok first →
      rebuild session mapper bridge none s = .ok again → again.items = first.items := by
  intro h
  have hitems := h codexSession (loud codexSession) (oneFrame.silent 0) ⟨.lastSnapshot, true⟩
    _ _ _ rfl rfl rfl
  have hids := congrArg (fun items => items.map Item.itemId) hitems
  revert hids
  decide +kernel

end claim

end Projector

end AgentsRemember.Conversation
