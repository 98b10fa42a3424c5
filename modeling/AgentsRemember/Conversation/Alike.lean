import AgentsRemember.Conversation.Retry

/-!
# Conversation — Alike

What the items of a rebuild depend on. Projectors that agree apart from the
flags, the floors and the watermark of the transcript are alike, and stay alike
through every stage; so rebuilds from unread projectors give the same items.
-/

namespace AgentsRemember.Conversation

open Attempts

variable {ρ ε ν δ : Type}

namespace Projector

section stages
variable [BEq δ] {session : Session} {mapper : Mapper ρ ε ν δ} {bridge : Bridge ρ ε ν}
  {fault : Option Fault}

/-- The projector without the flags and floors a rebuild does not read, and
without the watermark of the transcript. -/
def strip (s : Projector ρ δ) : Projector ρ δ :=
  { s with
    native :=
      { s.native with
        evidenceWindowComplete := true, nativeComplete := true, nativeDirty := true
        knownEvictionFloor := 0 }
    echo := { s.echo with transcriptAfter := 0 } }

/-- They agree apart from what a rebuild does not read. -/
def Alike (s t : Projector ρ δ) : Prop := s.strip = t.strip

/-- Both attempts succeed, and end alike. -/
def BothAlike (x y : Except (Projector ρ δ) (Projector ρ δ)) : Prop :=
  ∃ s t, x = .ok s ∧ y = .ok t ∧ Alike s t

omit [BEq δ] in
theorem Alike.ok {s t : Projector ρ δ} (h : Alike s t) : BothAlike (.ok s) (.ok t) :=
  ⟨s, t, rfl, rfl, h⟩

omit [BEq δ] in
theorem BothAlike.bind {x y : Except (Projector ρ δ) (Projector ρ δ)}
    {f g : Projector ρ δ → Except (Projector ρ δ) (Projector ρ δ)} (h : BothAlike x y)
    (hfg : ∀ s t, x = .ok s → y = .ok t → Alike s t → BothAlike (f s) (g t)) :
    BothAlike (x >>= f) (y >>= g) := by
  obtain ⟨s, t, rfl, rfl, hst⟩ := h
  exact hfg s t rfl rfl hst

omit [BEq δ] in
theorem Alike.map {s t : Projector ρ δ} (h : Alike s t) {f : Projector ρ δ → Projector ρ δ}
    (hf : ∀ s, (f s).strip = (f s.strip).strip) : Alike (f s) (f t) := by
  unfold Alike at h ⊢
  rw [hf s, hf t, h]

omit [BEq δ] in
theorem Alike.foldl {α : Type} {s t : Projector ρ δ} (h : Alike s t) (l : List α)
    {f : Projector ρ δ → α → Projector ρ δ} (hf : ∀ s a, (f s a).strip = (f s.strip a).strip) :
    Alike (l.foldl f s) (l.foldl f t) := by
  induction l generalizing s t with
  | nil => exact h
  | cons a l ih => exact ih (h.map fun s => hf s a)

theorem alike_walkFrames (frames : List (NativeEvidenceFrame ν))
    {acc acc' : Projector ρ δ × List String} (h : Alike acc.1 acc'.1) (hturns : acc.2 = acc'.2) :
    Alike (frames.foldl (walkFrame session mapper) acc).1
        (frames.foldl (walkFrame session mapper) acc').1 ∧
      (frames.foldl (walkFrame session mapper) acc).2 =
        (frames.foldl (walkFrame session mapper) acc').2 := by
  induction frames generalizing acc acc' with
  | nil => exact ⟨h, hturns⟩
  | cons frame frames ih =>
    obtain ⟨s, turns⟩ := acc
    obtain ⟨t, turns'⟩ := acc'
    obtain rfl : turns = turns' := hturns
    apply ih
    · exact h.map (f := fun s => (walkFrame session mapper (s, turns) frame).1) fun _ => rfl
    · show (walkFrame session mapper (s.strip, turns) frame).2 =
        (walkFrame session mapper (t.strip, turns) frame).2
      rw [show s.strip = t.strip from h]

/-- Two evidence polls over the same window that move their watermarks alike. -/
theorem parallel_pollEvidence {ε' ν' δ' : Type} [BEq δ'] {mapper' : Mapper ρ ε' ν' δ'}
    {bridge' : Bridge ρ ε' ν'} {R : Projector ρ δ → Projector ρ δ' → Prop}
    (hwindow : bridge.retained.window = bridge'.retained.window)
    (hafter : ∀ {s t}, R s t → s.native.evidenceAfter = t.native.evidenceAfter)
    (hnote : ∀ {s t} evicted, R s t → R (s.noteEviction evicted) (t.noteEviction evicted))
    (hconsume : ∀ {s t} frame, R s t →
      R (consume session mapper s frame) (consume session mapper' t frame))
    {fuel number : Nat} {s : Projector ρ δ} {t : Projector ρ δ'} (h : R s t) :
    Parallel R (pollEvidence session mapper bridge fault fuel number s)
      (pollEvidence session mapper' bridge' fault fuel number t) := by
  have hfold : ∀ (frames : List (EvidenceFrame ρ)) {s t}, R s t →
      R (frames.foldl (consume session mapper) s) (frames.foldl (consume session mapper') t) := by
    intro frames
    induction frames with
    | nil => exact fun h => h
    | cons frame frames ih => exact fun h => ih (hconsume frame h)
  induction fuel generalizing number s t with
  | zero => exact h
  | succ fuel ih =>
    unfold pollEvidence
    by_cases hfault : fault.map Fault.read = some (.evidencePage number)
    · rw [reads_eq_error.mpr ⟨hfault, rfl⟩, reads_eq_error.mpr ⟨hfault, rfl⟩]
      exact h
    · rw [reads_eq_ok.mpr hfault, reads_eq_ok.mpr hfault, hwindow, hafter h]
      have hnext := hfold (bridge'.retained.window.page t.native.evidenceAfter).frames
        (hnote (bridge'.retained.window.page t.native.evidenceAfter).evictedBeforeSequence h)
      show Parallel R (if _ then _ else _) (if _ then _ else _)
      rw [hafter hnext]
      split
      · exact hnext
      · exact ih hnext

section alike
variable {s t : Projector ρ δ} (h : Alike s t)
include h

omit [BEq δ] in
theorem Alike.spine : s.spine = t.spine :=
  @congrArg _ _ s.strip t.strip (fun s : Projector ρ δ => s.spine) h

omit [BEq δ] in
theorem Alike.interactions : s.interactions = t.interactions :=
  @congrArg _ _ s.strip t.strip (fun s : Projector ρ δ => s.interactions) h

omit [BEq δ] in
theorem Alike.evidenceAfter : s.native.evidenceAfter = t.native.evidenceAfter :=
  @congrArg _ _ s.strip t.strip (fun s : Projector ρ δ => s.native.evidenceAfter) h

omit [BEq δ] in
theorem Alike.nativeCursor : s.native.nativeCursor = t.native.nativeCursor :=
  @congrArg _ _ s.strip t.strip (fun s : Projector ρ δ => s.native.nativeCursor) h

omit [BEq δ] in
theorem Alike.pendingFrames : s.echo.pendingFrames = t.echo.pendingFrames :=
  @congrArg _ _ s.strip t.strip (fun s : Projector ρ δ => s.echo.pendingFrames) h

omit [BEq δ] in
theorem Alike.echo (hafter : s.echo.transcriptAfter = t.echo.transcriptAfter) :
    s.echo = t.echo := by
  have hopen : s.echo.turnOpen = t.echo.turnOpen :=
    @congrArg _ _ s.strip t.strip (fun s : Projector ρ δ => s.echo.turnOpen) h
  calc s.echo = ⟨s.echo.transcriptAfter, s.echo.pendingFrames, s.echo.turnOpen⟩ := rfl
    _ = t.echo := by rw [hafter, h.pendingFrames, hopen]

variable (session mapper bridge) in
theorem alike_walkPages (fuel number : Nat) (turns : List String) :
    BothAlike (walkPages session mapper bridge none fuel number turns s)
      (walkPages session mapper bridge none fuel number turns t) := by
  induction fuel generalizing number turns s t with
  | zero => exact h.ok
  | succ fuel ih =>
    obtain ⟨hframes, hturns⟩ := @alike_walkFrames _ _ _ _ _ session mapper
      (bridge.nativePage s.native.nativeCursor).frames (s, turns) (t, turns) h rfl
    have hcursor := hframes.map (f := fun s => { s with native :=
      { s.native with nativeCursor := (bridge.nativePage t.native.nativeCursor).nextCursor } })
      fun _ => rfl
    unfold walkPages
    simp only [reduceCtorEq, if_false, reads, Option.map_none, h.nativeCursor]
    rw [h.nativeCursor] at hcursor hturns
    show BothAlike (if _ then _ else _) (if _ then _ else _)
    split
    · exact (hcursor.map (f := fun s => { s with native := { s.native with nativeComplete := true } })
        fun _ => rfl).ok
    · rw [hturns]
      exact ih hcursor _ _

omit h in
theorem strip_consume (s : Projector ρ δ) (frame : EvidenceFrame ρ) :
    (consume session mapper s frame).strip = (consume session mapper s.strip frame).strip := by
  unfold consume consumeFrame
  split
  · rfl
  · split <;> rfl

theorem alike_pollEvidence {fuel number : Nat} :
    BothAlike (pollEvidence session mapper bridge none fuel number s)
      (pollEvidence session mapper bridge none fuel number t) := by
  have hparallel : Parallel Alike (pollEvidence session mapper bridge none fuel number s)
      (pollEvidence session mapper bridge none fuel number t) :=
    parallel_pollEvidence rfl (fun h => h.evidenceAfter)
      (fun evicted h => h.map (f := noteEviction evicted) fun _ => rfl)
      (fun frame h => h.map (f := fun s => consume session mapper s frame)
        fun s => strip_consume s frame) h
  cases hs : pollEvidence session mapper bridge none fuel number s with
  | error u =>
    obtain ⟨n, -, hno, -⟩ := pollEvidence_error hs
    cases hno
  | ok u =>
    obtain ⟨v, hv, huv⟩ := hparallel.of_ok hs
    exact ⟨u, v, rfl, hv, huv⟩

omit h in
theorem consume_window (frames : List (EvidenceFrame ρ)) (s : Projector ρ δ) :
    (frames.foldl (consume session mapper) s).native.evidenceWindowComplete =
      s.native.evidenceWindowComplete := by
  induction frames generalizing s with
  | nil => rfl
  | cons frame frames ih =>
    rw [List.foldl_cons, ih]
    unfold consume consumeFrame
    split
    · rfl
    · split <;> rfl

omit h in
theorem consume_transcriptAfter (frames : List (EvidenceFrame ρ)) (s : Projector ρ δ) :
    (frames.foldl (consume session mapper) s).echo.transcriptAfter = s.echo.transcriptAfter := by
  induction frames generalizing s with
  | nil => rfl
  | cons frame frames ih =>
    rw [List.foldl_cons, ih]
    unfold consume consumeFrame
    split <;> rfl

omit h in
theorem pollEvidence_transcriptAfter {fuel number : Nat} {s t : Projector ρ δ}
    (hok : pollEvidence session mapper bridge fault fuel number s = .ok t) :
    t.echo.transcriptAfter = s.echo.transcriptAfter := by
  induction fuel generalizing number s with
  | zero =>
    cases hok
    rfl
  | succ fuel ih =>
    unfold pollEvidence at hok
    obtain ⟨-, -, hok⟩ := bind_eq_ok.mp hok
    dsimp only at hok
    split at hok
    · cases hok
      exact consume_transcriptAfter _ _
    · rw [ih hok]
      exact consume_transcriptAfter _ _

omit h in
/-- The window is complete when it was before and nothing was evicted. -/
theorem pollEvidence_window {fuel number : Nat} {s t : Projector ρ δ}
    (hok : pollEvidence session mapper bridge none (fuel + 1) number s = .ok t) :
    t.native.evidenceWindowComplete = (s.native.evidenceWindowComplete &&
      (bridge.retained.window.evictedBeforeSequence = 0 : Bool)) := by
  induction fuel generalizing number s with
  | zero =>
    unfold pollEvidence at hok
    obtain ⟨-, -, hok⟩ := bind_eq_ok.mp hok
    dsimp only at hok
    split at hok
    · cases hok
      exact consume_window _ _
    · cases hok
      exact consume_window _ _
  | succ fuel ih =>
    unfold pollEvidence at hok
    obtain ⟨-, -, hok⟩ := bind_eq_ok.mp hok
    dsimp only at hok
    split at hok
    · cases hok
      exact consume_window _ _
    · rw [ih hok, consume_window]
      simp [noteEviction, EvidenceWindow.page]

/-! ### Echoes -/

omit h in
variable (session mapper) in
theorem zipEntries_quiet {entries : List (TranscriptEntry ε)}
    (husers : ∀ entry ∈ entries, entry.isUser = false) (e : EchoIngestion ρ) (s : Spine δ) :
    ∃ after, EchoIngestion.zipEntries (Spine.sink session mapper) entries e s =
      ({ e with transcriptAfter := after }, s) := by
  induction entries generalizing e with
  | nil => exact ⟨e.transcriptAfter, rfl⟩
  | cons entry entries ih =>
    have huser := husers entry (by simp)
    have hrest := ih fun entry hentry => husers entry (by simp [hentry])
    unfold EchoIngestion.zipEntries EchoIngestion.zipEntry
    rw [huser]
    simp only [Bool.false_eq_true, if_false]
    unfold EchoIngestion.advance
    cases entry.sequence with
    | none => exact hrest e
    | some sequence => exact hrest { e with transcriptAfter := sequence }

omit h in
variable (session mapper) in
/-- Without frames and user echoes a poll only moves its watermark. -/
theorem zipPage_quiet (hydrated windowComplete : Bool) {entries : List (TranscriptEntry ε)}
    (husers : ∀ entry ∈ entries, entry.isUser = false) {e : EchoIngestion ρ}
    (hpending : e.pendingFrames = []) (s : Spine δ) :
    ∃ after, EchoIngestion.zipPage (Spine.sink session mapper) hydrated windowComplete entries e s =
      ({ e with transcriptAfter := after }, s) := by
  obtain ⟨after, hafter⟩ := zipEntries_quiet session mapper husers e s
  have hcount : entries.countP TranscriptEntry.isUser = 0 := by
    rw [List.countP_eq_zero]
    intro entry hentry
    simp [husers entry hentry]
  have hrealign : EchoIngestion.realignEvicted (Spine.sink session mapper) entries e s =
      (entries, e, s) := by
    unfold EchoIngestion.realignEvicted
    simp [hcount, hpending, EchoIngestion.flushBodies]
    rw [← hpending]
  refine ⟨after, ?_⟩
  unfold EchoIngestion.zipPage
  rw [hrealign, ite_self]
  dsimp only
  rw [hafter]
  simp [hpending, EchoIngestion.drainOneTurnBody]

theorem alike_pollEcho (hwindow : s.native.evidenceWindowComplete = t.native.evidenceWindowComplete)
    (hafter : session.harness.usesTranscriptEcho →
      s.echo.transcriptAfter = t.echo.transcriptAfter ∨
        Quiet bridge.retained ∧ s.echo.pendingFrames = []) :
    BothAlike (pollEcho session mapper bridge none s) (pollEcho session mapper bridge none t) := by
  by_cases hecho : session.harness.usesTranscriptEcho
  · have hnone : ∀ n, (none : Option Fault).map Fault.read ≠ some (.transcriptPage n) :=
      fun n h => by cases h
    refine ⟨_, _, pollEcho_eq hecho hnone s, pollEcho_eq hecho hnone t, ?_⟩
    rcases hafter hecho with hsame | ⟨hquiet, hpending⟩
    · -- the same entries, zipped into the same queue
      rw [h.echo hsame, h.spine, hwindow]
      exact h.map (f := fun s => { s with
        echo := (EchoIngestion.zipPage (Spine.sink session mapper) false
          t.native.evidenceWindowComplete (pollEntries bridge t.echo.transcriptAfter)
          t.echo t.spine).1
        spine := (EchoIngestion.zipPage (Spine.sink session mapper) false
          t.native.evidenceWindowComplete (pollEntries bridge t.echo.transcriptAfter)
          t.echo t.spine).2 }) fun _ => rfl
    · -- nothing to apply on either side
      have hentries : ∀ after, ∀ entry ∈ pollEntries bridge after, entry.isUser = false :=
        fun after entry hentry => hquiet.2 entry (mem_pollEntries hentry)
      obtain ⟨a, ha⟩ := zipPage_quiet session mapper false s.native.evidenceWindowComplete
        (hentries s.echo.transcriptAfter) hpending s.spine
      obtain ⟨a', ha'⟩ := zipPage_quiet session mapper false t.native.evidenceWindowComplete
        (hentries t.echo.transcriptAfter) (h.pendingFrames ▸ hpending) t.spine
      rw [ha, ha']
      exact h
  · unfold pollEcho
    rw [if_neg hecho, if_neg hecho]
    exact h.ok

/-! ### The rest -/

omit h in
theorem strip_continueFrame (s : Projector ρ δ) (frame : NativeEvidenceFrame ν) :
    (continueFrame session mapper s frame).strip =
      (continueFrame session mapper s.strip frame).strip := rfl

theorem alike_continuePages {fuel number : Nat} :
    BothAlike (continuePages session mapper bridge none fuel number s)
      (continuePages session mapper bridge none fuel number t) := by
  induction fuel generalizing number s t with
  | zero => exact h.ok
  | succ fuel ih =>
    have hcomplete : ∀ {s t : Projector ρ δ}, Alike s t →
        Alike { s with native := { s.native with nativeComplete := true } }
          { t with native := { t.native with nativeComplete := true } } :=
      fun h => h.map (f := fun s => { s with native := { s.native with nativeComplete := true } })
        fun _ => rfl
    have hframes := h.foldl (bridge.nativePage t.native.nativeCursor).frames
      (f := continueFrame session mapper) strip_continueFrame
    have hcursor := hframes.map (f := fun s => { s with native :=
      { s.native with nativeCursor := (bridge.nativePage t.native.nativeCursor).nextCursor } })
      fun _ => rfl
    unfold continuePages
    simp only [reads, Option.map_none, reduceCtorEq, if_false, h.nativeCursor]
    show BothAlike (if _ then _ else _) (if _ then _ else _)
    split
    · have hdone := (hcomplete h).ok
      simp only [h.nativeCursor] at hdone
      exact hdone
    · split
      · exact (hcomplete hcursor).ok
      · exact ih hcursor

theorem alike_pollNativeContinuation :
    BothAlike (pollNativeContinuation session mapper bridge none s)
      (pollNativeContinuation session mapper bridge none t) := by
  unfold pollNativeContinuation
  split
  · exact alike_continuePages h
  · exact h.ok

omit [BEq δ] in
theorem alike_resolveProvenance :
    BothAlike (resolveProvenance bridge none s) (resolveProvenance bridge none t) := by
  unfold resolveProvenance
  rw [h.spine]
  dsimp only
  split
  · exact h.ok
  · simp only [reads, Option.map_none, reduceCtorEq, if_false]
    refine ⟨_, _, rfl, rfl, ?_⟩
    exact h.map (f := fun s => { s with spine := { t.spine with store := _ } }) fun _ => rfl

theorem alike_finish :
    BothAlike (finish session bridge none s) (finish session bridge none t) := by
  unfold finish
  simp only [reads, Option.map_none, reduceCtorEq, if_false]
  refine ⟨_, _, rfl, rfl, ?_⟩
  rw [h.interactions, h.spine]
  exact h.map (f := fun s => setSnapshot bridge.snapshot { s with
    interactions := (t.interactions.apply session bridge.snapshot t.spine).1
    spine := (t.interactions.apply session bridge.snapshot t.spine).2 }) fun _ => rfl

end alike

/-! ## Repeating a rebuild -/

/-- From two unread projectors that are alike, the polls end alike. -/
theorem alike_pollChannels {s t : Projector ρ δ} (h : Alike s t)
    (hs : Unread session bridge.retained s) (ht : Unread session bridge.retained t)
    (hpending : s.echo.pendingFrames = []) :
    BothAlike (pollChannels session mapper bridge none s)
      (pollChannels session mapper bridge none t) := by
  refine (alike_pollEvidence h).bind fun s₁ t₁ hs₁ ht₁ h₁ => ?_
  have hnone : ∀ {s : Projector ρ δ}, Unread session bridge.retained s →
      (s.native.evidenceWindowComplete &&
        (bridge.retained.window.evictedBeforeSequence = 0 : Bool)) =
      (bridge.retained.window.evictedBeforeSequence = 0 : Bool) := by
    intro s hs
    cases hw : s.native.evidenceWindowComplete with
    | true => rfl
    | false =>
      have := hs.window hw
      simp only [Bool.false_and]
      exact (decide_eq_false (by omega)).symm
  have hwindow : s₁.native.evidenceWindowComplete = t₁.native.evidenceWindowComplete := by
    rw [pollEvidence_window hs₁, pollEvidence_window ht₁, hnone hs, hnone ht]
  have hafter : session.harness.usesTranscriptEcho →
      s₁.echo.transcriptAfter = t₁.echo.transcriptAfter ∨
        Quiet bridge.retained ∧ s₁.echo.pendingFrames = [] := by
    intro hecho
    rw [pollEvidence_transcriptAfter hs₁, pollEvidence_transcriptAfter ht₁]
    have hquiet : Quiet bridge.retained → s₁.echo.pendingFrames = [] := by
      intro hquiet
      rw [pollEvidence_nil hquiet.1 hs₁]
      exact hpending
    rcases hs.transcript hecho with h0 | h0
    · rcases ht.transcript hecho with h0' | h0'
      · exact .inl (by rw [h0, h0'])
      · exact .inr ⟨h0', hquiet h0'⟩
    · exact .inr ⟨h0, hquiet h0⟩
  refine (alike_pollEcho h₁ hwindow hafter).bind fun s₂ t₂ _ _ h₂ => ?_
  refine (alike_pollNativeContinuation h₂).bind fun s₃ t₃ _ _ h₃ => ?_
  exact alike_resolveProvenance h₃

/-- Rebuilds from unread projectors succeed with the same items. -/
theorem rebuild_of_unread {s t : Projector ρ δ} (hs : Unread session bridge.retained s)
    (ht : Unread session bridge.retained t) :
    ∃ s' t', rebuild session mapper bridge none s = .ok s' ∧
      rebuild session mapper bridge none t = .ok t' ∧ s'.items = t'.items := by
  have hset : ∀ {s : Projector ρ δ}, Unread session bridge.retained s →
      Unread session bridge.retained (s.reset.setSnapshot bridge.snapshot) :=
    fun h => ⟨h.evidence, h.transcript, h.window, h.cursor⟩
  -- the cursors agree once the walk has set them; without native pages there is none
  have hcursors : ∀ {s t : Projector ρ δ}, Unread session bridge.retained s →
      Unread session bridge.retained t →
      (s.native.nativeCursor = t.native.nativeCursor) →
      Alike (s.reset.setSnapshot bridge.snapshot) (t.reset.setSnapshot bridge.snapshot) := by
    intro s t hs ht hcursor
    simp [Alike, strip, reset, setSnapshot, AgentAuthority.setSnapshot, AgentAuthority.reset,
      NativeEvidenceIngestion.reset, EchoIngestion.reset, hs.evidence, ht.evidence, hcursor]
  have hpolls : ∀ {a b : Projector ρ δ}, Alike a b → Unread session bridge.retained a →
      Unread session bridge.retained b → a.echo.pendingFrames = [] →
      BothAlike (pollChannels session mapper bridge none a >>= finish session bridge none)
        (pollChannels session mapper bridge none b >>= finish session bridge none) :=
    fun hab ha hb hpending => (alike_pollChannels hab ha hb hpending).bind
      fun _ _ _ _ h => alike_finish h
  have hrebuilt : BothAlike (rebuild session mapper bridge none s)
      (rebuild session mapper bridge none t) := by
    by_cases hpages : session.harness.usesNativePages
    · have hclear : ∀ {s : Projector ρ δ}, Unread session bridge.retained s →
          Unread session bridge.retained
            { s with native := { s.native with nativeCursor := none } } :=
        fun h => ⟨h.evidence, h.transcript, h.window, fun _ => rfl⟩
      have hwalked : ∀ {s u : Projector ρ δ}, Unread session bridge.retained s →
          walkParentHistory session mapper bridge none (s.reset.setSnapshot bridge.snapshot) =
            .ok u → Unread session bridge.retained u ∧ u.echo.pendingFrames = [] := by
        intro s u hs hu
        have hu := walkPages_spec.2 u hu
        refine ⟨(hset (hclear hs)).of_untouched ⟨hu.evidenceAfter, hu.window, hu.echo, hu.interactions⟩
          fun hno => ?_, by rw [hu.echo]; rfl⟩
        rw [hpages] at hno
        cases hno
      have hwalk := (alike_walkPages session mapper bridge (hcursors (hclear hs) (hclear ht) rfl)
        (bridge.nativePages.length + 1) 0 []).bind (f := fun a =>
          pollChannels session mapper bridge none a >>= finish session bridge none)
        (g := fun a => pollChannels session mapper bridge none a >>= finish session bridge none)
        fun a b ha hb hab =>
          hpolls hab (hwalked hs ha).1 (hwalked ht hb).1 (hwalked hs ha).2
      unfold rebuild
      simp only [reads, Option.map_none, reduceCtorEq, if_false, hpages, if_true]
      exact hwalk
    · have hno : session.harness.usesNativePages = false := by simpa using hpages
      have hrest := hpolls
        (hcursors hs ht ((hs.cursor hno).trans (ht.cursor hno).symm)) (hset hs) (hset ht) rfl
      unfold rebuild
      simp only [reads, Option.map_none, reduceCtorEq, if_false, hno, Bool.false_eq_true]
      exact hrest
  obtain ⟨s', t', hs', ht', halike⟩ := hrebuilt
  refine ⟨s', t', hs', ht', ?_⟩
  unfold items
  rw [halike.spine]

end stages

end Projector

end AgentsRemember.Conversation
