import AgentsRemember.Conversation.Lost

/-!
# Conversation — Linked

An attempt that fails with some mapper, over some native pages and answers, fails
at the same read with the loud mapper over a silent bridge (`linked_rebuild`):
how far a poll comes depends on the watermarks alone, and those move alike.
-/

namespace AgentsRemember.Conversation

open Attempts

variable {ρ ε ν δ : Type}

namespace ProjectionStore

/-- A store that waits for no provenance. -/
structure Still (s : ProjectionStore δ) : Prop where
  marked : s.Marked
  settled : s.provenancePending = []

theorem Still.empty : Still ({} : ProjectionStore δ) := ⟨.empty, rfl⟩

theorem Still.pendingRequestIds {s : ProjectionStore δ} (h : Still s) :
    s.pendingRequestIds = [] := by
  unfold ProjectionStore.pendingRequestIds
  rw [h.settled]
  rfl

theorem Still.applyItem [BEq δ] {s : ProjectionStore δ} (h : Still s) {item : Item δ}
    (hplain : Plain item) (hrole : item.role = .system) : Still (s.applyItem item).1 := by
  refine ⟨(h.marked.applyItem hplain).1, ?_⟩
  rcases applyItem_cases h.marked.noDeltas item with
    ⟨-, -, heq, -⟩ | ⟨item', -, hrole', -, -, heq⟩
  · rw [heq]
    exact h.settled
  · have huser : item'.role ≠ .user := by
      rw [hrole', hrole]
      decide
    rw [heq]
    unfold trackProvenance
    split
    · exact h.settled
    · rw [if_neg fun hall => huser hall.1]
      exact h.settled

end ProjectionStore

theorem Between.waiting {asked : Prop} {L K : String → Prop} {s : Spine δ}
    (h : Between asked L K s) : Between (s.store.provenancePending ≠ []) L K s :=
  ⟨h.marked, h.lower, h.upper, id⟩

section still
variable [BEq δ] (session : Session) (mapper : Mapper ρ ε ν δ) {s : Spine δ}

omit [BEq δ] in
theorem clipped_outputs {frame : EvidenceFrame ρ} (h : frame.evidenceTruncated = true)
    (ref : String) (a : AgentAuthority) : ∃ mapped : MappedUnknownVendor,
      (mapEvidenceFrame session mapper frame ref a).1 = [.unknownVendor mapped] ∧
        mapped.role = .system := by
  unfold mapEvidenceFrame frameOutputs
  rw [if_pos h]
  cases frameThread session frame with
  | none => exact ⟨_, rfl, rfl⟩
  | some threadId => exact ⟨_, rfl, rfl⟩

theorem still_applyFrame {frame : EvidenceFrame ρ} (htruncated : frame.evidenceTruncated = true)
    (h : s.store.Still) : (s.applyFrame session mapper frame).store.Still := by
  obtain ⟨mapped, hout, hrole⟩ := clipped_outputs session mapper htruncated
    (ProjectionEvidenceRefs.evidence session frame.sequence) s.agents
  unfold Spine.applyFrame
  dsimp only
  rw [hout]
  exact h.applyItem (plain_unknownVendor hrole _) hrole

/-- Clipped frames leave nothing to be resolved. -/
theorem still_replay {log : List (Applied ρ ε)} (hechoes : echoesApplied log = [])
    (hframes : ∀ frame ∈ framesApplied log, frame.evidenceTruncated = true)
    (h : s.store.Still) : ((Spine.sink session mapper).replay log s).store.Still := by
  induction log using List.reverseRecOn with
  | nil => exact h
  | append_singleton log applied ih =>
    rw [replay_snoc]
    cases applied with
    | frame frame =>
      rw [framesApplied_frame] at hframes
      rw [echoesApplied_frame] at hechoes
      have ih := ih hechoes fun f hf => hframes f (by simp [hf])
      exact still_applyFrame session mapper (hframes frame (by simp)) ih
    | echo entry =>
      rw [echoesApplied_echo] at hechoes
      simp at hechoes
    | advance n =>
      rw [framesApplied_advance] at hframes
      rw [echoesApplied_advance] at hechoes
      exact ih hechoes hframes

end still

/-! ## A silent bridge -/

/-- The page number of a native read. -/
def Read.native : Read → Nat
  | .nativePage number | .continuationPage number => number
  | _ => 0

/-- The same evidence and transcript, with that many native pages, and no answers. -/
def Retained.silent [Inhabited ν] (retained : Retained ρ ε) (pages : Nat) : Bridge ρ ε ν where
  retained := retained
  nativePages :=
    List.replicate pages [{ nativeId := "native", nativeType := "", raw := default }]

namespace Projector

section silent
variable [BEq δ] [Inhabited ν] {session : Session} {mapper : Mapper ρ ε ν δ}
  {retained : Retained ρ ε} {pages : Nat} {fault : Option Fault}

theorem silent_silent (retained : Retained ρ ε) (pages : Nat) :
    Silent (retained.silent pages : Bridge ρ ε ν) := by
  refine ⟨fun page hpage frame hframe => ?_, rfl, rfl⟩
  rw [List.eq_of_mem_replicate hpage, List.mem_singleton] at hframe
  rw [hframe]

theorem silent_nativePage (retained : Retained ρ ε) {pages : Nat} {cursor : Option Nat}
    (h : cursor.getD 0 < pages) :
    ((retained.silent pages : Bridge ρ ε ν).nativePage cursor).frames ≠ [] := by
  unfold Bridge.nativePage Retained.silent
  simp [h]

theorem silent_nextCursor (retained : Retained ρ ε) (pages : Nat) (cursor : Option Nat) :
    ((retained.silent pages : Bridge ρ ε ν).nativePage cursor).nextCursor =
      if cursor.getD 0 + 1 < pages then some (cursor.getD 0 + 1) else none := by
  unfold Bridge.nativePage Retained.silent
  simp

/-- A walk over enough pages comes to the one that fails. -/
theorem silent_walkPages_error {n : Nat} (hfault : fault = some ⟨.nativePage n, false⟩)
    (hpages : n < pages) {fuel number : Nat} {turns : List String} {s : Projector ρ δ}
    (hcursor : s.native.nativeCursor.getD 0 = number) (hnumber : number ≤ n)
    (hfuel : n < number + fuel) :
    ∃ t, walkPages session mapper (retained.silent pages) fault fuel number turns s = .error t := by
  induction fuel generalizing number turns s with
  | zero => omega
  | succ fuel ih =>
    unfold walkPages
    rw [if_neg (by rw [hfault]; simp)]
    by_cases hhere : number = n
    · rw [reads_eq_error.mpr ⟨by rw [hfault, hhere]; rfl, rfl⟩]
      exact ⟨s, rfl⟩
    · have hread : fault.map Fault.read ≠ some (.nativePage number) := by
        rw [hfault]
        simpa using fun h => hhere h.symm
      rw [reads_eq_ok.mpr hread]
      dsimp only [bind, Except.bind]
      have hnext := silent_nextCursor (ν := ν) retained pages s.native.nativeCursor
      have hframes := silent_nativePage (ν := ν) retained
        (show s.native.nativeCursor.getD 0 < pages by omega)
      rw [if_pos (by omega)] at hnext
      rw [hnext, if_neg (by simp [hframes])]
      refine ih ?_ (by omega) (by omega)
      rw [← hcursor]
      rfl

/-- A walk that no read stops comes to the last page. -/
theorem silent_walkPages_cursor (hfault : ∀ n, fault.map Fault.read ≠ some (.nativePage n))
    {fuel number : Nat} {turns : List String} {s t : Projector ρ δ}
    (hcursor : s.native.nativeCursor.getD 0 = number) (hnumber : number < pages)
    (hfuel : pages < number + fuel)
    (ht : walkPages session mapper (retained.silent pages) fault fuel number turns s = .ok t) :
    t.native.nativeCursor = none := by
  induction fuel generalizing number turns s with
  | zero => omega
  | succ fuel ih =>
    have hcontrol : fault ≠ some ⟨.nativePage number, true⟩ := by
      intro heq
      exact hfault number (by rw [heq]; rfl)
    unfold walkPages at ht
    rw [if_neg hcontrol, reads_eq_ok.mpr (hfault number)] at ht
    dsimp only [bind, Except.bind] at ht
    have hnext := silent_nextCursor (ν := ν) retained pages s.native.nativeCursor
    have hframes := silent_nativePage (ν := ν) retained
      (show s.native.nativeCursor.getD 0 < pages by omega)
    by_cases hlast : number + 1 < pages
    · rw [if_pos (by omega)] at hnext
      rw [hnext, if_neg (by simp [hframes])] at ht
      refine ih ?_ hlast (by omega) ht
      rw [← hcursor]
      rfl
    · rw [if_neg (by omega)] at hnext
      rw [hnext] at ht
      have hnotTruncated : ((retained.silent pages : Bridge ρ ε ν).nativePage
          s.native.nativeCursor).truncated = false := by
        unfold Bridge.nativePage Retained.silent
        simp
        omega
      rw [if_pos (by simp [hnotTruncated])] at ht
      cases ht
      rfl

theorem silent_continuePages_error (mapper : Mapper ρ ε ν δ) (retained : Retained ρ ε) {n : Nat}
    (hfault : fault.map Fault.read = some (.continuationPage n)) (hpages : n < pages)
    {fuel number : Nat} {s : Projector ρ δ}
    (hcursor : s.native.nativeCursor.getD 0 = number) (hnumber : number ≤ n)
    (hfuel : n < number + fuel) :
    ∃ t, continuePages session mapper (retained.silent pages) fault fuel number s = .error t := by
  induction fuel generalizing number s with
  | zero => omega
  | succ fuel ih =>
    unfold continuePages
    by_cases hhere : number = n
    · rw [reads_eq_error.mpr ⟨by rw [hfault, hhere], rfl⟩]
      exact ⟨s, rfl⟩
    · have hread : fault.map Fault.read ≠ some (.continuationPage number) := by
        rw [hfault]
        simpa using fun h => hhere h.symm
      rw [reads_eq_ok.mpr hread]
      dsimp only [bind, Except.bind]
      have hnext := silent_nextCursor (ν := ν) retained pages s.native.nativeCursor
      have hframes := silent_nativePage (ν := ν) retained
        (show s.native.nativeCursor.getD 0 < pages by omega)
      rw [if_pos (by omega)] at hnext
      rw [if_neg (by simpa using hframes), hnext, if_neg (by simp)]
      refine ih ?_ (by omega) (by omega)
      rw [← hcursor]
      rfl

end silent

/-! ## Two attempts in parallel -/

/-- The watermarks and the queues agree. -/
structure Linked (s t : Projector ρ δ) : Prop where
  evidenceAfter : s.native.evidenceAfter = t.native.evidenceAfter
  window : s.native.evidenceWindowComplete = t.native.evidenceWindowComplete
  echo : s.echo = t.echo

theorem Linked.of_untouched {s t s' t' : Projector ρ δ} (h : Linked s t) (hs : Untouched s s')
    (ht : Untouched t t') : Linked s' t' :=
  ⟨by rw [hs.evidenceAfter, ht.evidenceAfter, h.evidenceAfter],
    by rw [hs.window, ht.window, h.window], by rw [hs.echo, ht.echo, h.echo]⟩

theorem Linked.reset {s t : Projector ρ δ} (h : Linked s t) : Linked s.reset t.reset := by
  refine ⟨h.evidenceAfter, h.window, ?_⟩
  show s.echo.reset = t.echo.reset
  rw [h.echo]

/-- On the loud side an input waits, unless the other side has only shown clipped
frames; that can be on a harness without native pages only. -/
structure Along (session : Session) (s t : Projector ρ δ) : Prop extends Linked s t where
  spine : Between False (fun _ => False) (fun _ => True) t.spine
  asks : t.spine.store.provenancePending ≠ [] ∨
    session.harness.usesTranscriptEcho ∧ s.spine.store.Still
  cursor : session.harness.eagerNativeContinuation → t.native.nativeCursor = none

section along
variable [BEq δ] [Inhabited ν] {session : Session} {mapper : Mapper ρ ε ν δ}
  {bridge : Bridge ρ ε ν} {pages : Nat} {fault : Option Fault} {s t : Projector ρ δ}

omit [Inhabited ν] in
/-- Only an error that is not a control error stops a walk. -/
theorem walkPages_error {fuel number : Nat} {turns : List String}
    (h : walkPages session mapper bridge fault fuel number turns s = .error t) :
    ∃ n, fault = some ⟨.nativePage n, false⟩ := by
  induction fuel generalizing number turns s with
  | zero => cases h
  | succ fuel ih =>
    unfold walkPages at h
    split at h
    · cases h
    · rename_i hcontrol
      rcases bind_eq_error.mp h with h | ⟨-, -, h⟩
      · obtain ⟨f, hf, hread⟩ := Option.map_eq_some_iff.mp (reads_eq_error.mp h).1
        obtain ⟨read, control⟩ := f
        obtain rfl : read = .nativePage number := hread
        cases control with
        | true => exact absurd hf hcontrol
        | false => exact ⟨number, hf⟩
      · dsimp only at h
        split at h
        · cases h
        · exact ih h

omit [Inhabited ν] in
theorem untouched_opened_error
    (h : opened session mapper bridge fault s = .error t) :
    Untouched s.reset t := by
  unfold opened at h
  split at h
  · have h := (walkPages_spec.1 t h).2
    exact ⟨h.evidenceAfter, h.window, h.echo, h.interactions⟩
  · cases h

theorem linked_opened_error {f : Fault} (h : Linked s t) (hpages : f.read.native < pages)
    {s' : Projector ρ δ} (hs : opened session mapper bridge (some f) s = .error s') :
    ∃ t', opened session (loud session : Mapper ρ ε ν δ) (bridge.retained.silent pages) (some f) t =
      .error t' ∧ Linked s' t' := by
  suffices hfails : ∃ t', opened session (loud session : Mapper ρ ε ν δ)
      (bridge.retained.silent pages) (some f) t = .error t' by
    obtain ⟨t', ht⟩ := hfails
    exact ⟨t', ht, h.reset.of_untouched (untouched_opened_error hs) (untouched_opened_error ht)⟩
  unfold opened at hs ⊢
  split at hs
  · rename_i huses
    obtain ⟨n, hf⟩ := walkPages_error hs
    obtain rfl : f = ⟨.nativePage n, false⟩ := Option.some.inj hf
    rw [if_pos huses]
    refine silent_walkPages_error hf hpages ?_ (Nat.zero_le n) ?_
    · rfl
    · have hlength : (bridge.retained.silent pages : Bridge ρ ε ν).nativePages.length = pages :=
        List.length_replicate
      rw [hlength]
      have : n < pages := hpages
      omega
  · cases hs

theorem linked_opened (pages : Nat) (h : Linked s t) (hpages : 0 < pages)
    (hfault : ∀ n, fault.map Fault.read ≠ some (.nativePage n)) {s' : Projector ρ δ}
    (hs : opened session mapper bridge fault s = .ok s') :
    ∃ t', opened session (loud session : Mapper ρ ε ν δ) (bridge.retained.silent pages) fault t =
      .ok t' ∧ Along session s' t' := by
  obtain ⟨t', ht, hbetween⟩ := loud_opened session hfault
    (silent_silent (ν := ν) bridge.retained pages).sounding
    (K := fun _ => True) (fun _ => trivial) t
  have hlinked := h.reset.of_untouched (opened_spec session |>.2 s' hs)
    (opened_spec session |>.2 t' ht)
  refine ⟨t', ht, hlinked, hbetween.mono nofun fun _ => id, ?_, fun heager => ?_⟩
  · by_cases huses : session.harness.usesNativePages
    · exact .inl (hbetween.pending ⟨huses, silent_nativePage bridge.retained hpages⟩)
    · have hecho : session.harness.usesTranscriptEcho := by
        cases hharness : session.harness <;> rw [hharness] at huses <;>
          simp_all [HarnessId.usesNativePages, HarnessId.usesTranscriptEcho]
      unfold opened at hs
      rw [if_neg huses] at hs
      cases hs
      exact .inr ⟨hecho, .empty⟩
  · have huses : session.harness.usesNativePages := by
      cases hharness : session.harness <;> rw [hharness] at heager <;>
        simp_all [HarnessId.usesNativePages, HarnessId.eagerNativeContinuation]
    unfold opened at ht
    rw [if_pos huses] at ht
    refine silent_walkPages_cursor hfault ?_ hpages ?_ ht
    · rfl
    · have hlength : (bridge.retained.silent pages : Bridge ρ ε ν).nativePages.length = pages :=
        List.length_replicate
      omega

/-! ### Evidence -/

omit [Inhabited ν] in
theorem Along.consume (h : Along session s t) (frame : EvidenceFrame ρ) :
    Along session (consume session mapper s frame)
      (consume session (loud session : Mapper ρ ε ν δ) t frame) := by
  by_cases hecho : session.harness.usesTranscriptEcho
  · unfold Projector.consume consumeFrame
    rw [if_pos hecho, if_pos hecho]
    refine ⟨⟨rfl, h.window, ?_⟩, h.spine, h.asks, h.cursor⟩
    show s.echo.enqueue frame = t.echo.enqueue frame
    rw [h.echo]
  · have hpending : t.spine.store.provenancePending ≠ [] :=
      h.asks.elim id fun hno => absurd hno.1 hecho
    have hspine := h.spine.waiting.applyFrame (ε := ε) (ν := ν) session frame trivial
    unfold Projector.consume consumeFrame
    rw [if_neg hecho, if_neg hecho]
    refine ⟨⟨rfl, ?_, h.echo⟩, hspine.mono nofun fun _ => nofun, .inl ?_, fun heager => ?_⟩
    · dsimp only
      split
      · exact h.window
      · exact h.window
    · exact hspine.pending (.inl hpending)
    · dsimp only
      split
      · exact h.cursor heager
      · exact h.cursor heager

theorem along_pollEvidence (pages : Nat) (h : Along session s t) {fuel number : Nat} :
    Parallel (Along session) (pollEvidence session mapper bridge fault fuel number s)
      (pollEvidence session (loud session : Mapper ρ ε ν δ) (bridge.retained.silent pages) fault
        fuel number t) := by
  have hwindow : bridge.retained.window =
      (bridge.retained.silent pages : Bridge ρ ε ν).retained.window := rfl
  apply parallel_pollEvidence hwindow
  · exact fun h => h.evidenceAfter
  · intro s t evicted h
    refine ⟨⟨h.evidenceAfter, ?_, h.echo⟩, h.spine, h.asks, h.cursor⟩
    show (s.native.evidenceWindowComplete && _) = (t.native.evidenceWindowComplete && _)
    rw [h.window]
  · exact fun frame h => h.consume frame
  · exact h

/-! ### Echoes -/

omit [BEq δ] [Inhabited ν] in
theorem linked_readRetained {bridge' : Bridge ρ ε ν} (hretained : bridge'.retained = bridge.retained)
    {fuel number : Nat} {entries page : List (TranscriptEntry ε)} {s' : Projector ρ δ}
    (hs : readRetained bridge fault s fuel number entries page = .error s') :
    readRetained bridge' fault t fuel number entries page = .error t := by
  induction fuel generalizing number entries page with
  | zero => cases hs
  | succ fuel ih =>
    unfold readRetained at hs ⊢
    split at hs
    · rename_i hfull
      rw [if_pos hfull]
      split at hs
      · cases hs
      · rename_i last hlast
        rw [hretained]
        dsimp only
        rcases bind_eq_error.mp hs with hs | ⟨⟨⟩, hread, hs⟩
        · rw [reads_eq_error.mpr ⟨(reads_eq_error.mp hs).1, rfl⟩]
          rfl
        · rw [reads_eq_ok.mpr (reads_eq_ok.mp hread)]
          exact ih hs
    · cases hs

theorem linked_pollEcho_error (pages : Nat) (h : Linked s t) {s' : Projector ρ δ}
    (hs : pollEcho session mapper bridge fault s = .error s') :
    ∃ t', pollEcho session (loud session : Mapper ρ ε ν δ) (bridge.retained.silent pages) fault t =
      .error t' ∧ Linked s' t' := by
  obtain ⟨-, rfl⟩ := pollEcho_error hs
  refine ⟨t, ?_, h⟩
  unfold pollEcho at hs ⊢
  split at hs
  · rename_i hecho
    rw [if_pos hecho]
    rcases bind_eq_error.mp hs with hs | ⟨⟨⟩, hread, hs⟩
    · rw [reads_eq_error.mpr ⟨(reads_eq_error.mp hs).1, rfl⟩]
      rfl
    · rw [reads_eq_ok.mpr (reads_eq_ok.mp hread)]
      rcases bind_eq_error.mp hs with hs | ⟨entries, -, hs⟩
      · have hretained : (bridge.retained.silent pages : Bridge ρ ε ν).retained =
            bridge.retained := rfl
        have ht := linked_readRetained (t := t) hretained hs
        rw [h.echo] at ht
        exact bind_eq_error.mpr (.inr ⟨(), rfl, bind_eq_error.mpr (.inl ht)⟩)
      · cases hs
  · cases hs

theorem along_pollEcho (pages : Nat) (h : Along session s t)
    (hfault : ∀ n, fault.map Fault.read ≠ some (.transcriptPage n)) {s' : Projector ρ δ}
    (hs : pollEcho session mapper bridge fault s = .ok s') :
    ∃ t', pollEcho session (loud session : Mapper ρ ε ν δ) (bridge.retained.silent pages) fault t =
      .ok t' ∧ Along session s' t' := by
  by_cases hecho : session.harness.usesTranscriptEcho
  · rw [pollEcho_eq hecho hfault] at hs
    cases hs
    obtain ⟨t', log, ht, -, hlog, hbetween⟩ := loud_pollEcho session
      (bridge.retained.silent pages : Bridge ρ ε ν) hecho hfault h.spine.waiting
      (fun _ _ => trivial) trivial
    refine ⟨t', ht, ?_⟩
    rw [pollEcho_eq hecho hfault] at ht
    cases ht
    -- the same entries and queue, so the same log
    have hentries : pollEntries (bridge.retained.silent pages : Bridge ρ ε ν) =
        pollEntries bridge := rfl
    rw [hentries, ← h.window, ← h.echo] at hlog hbetween ⊢
    have htrivial : Carries (Spine.sink session mapper)
        (Spine.sink session (loud session : Mapper ρ ε ν δ)) fun _ _ _ => True :=
      ⟨fun _ _ _ _ _ => trivial, fun _ _ _ _ _ => trivial, fun _ _ _ _ _ => trivial⟩
    refine ⟨⟨h.evidenceAfter, h.window, ?_⟩, hbetween.mono nofun fun _ => nofun, ?_, h.cursor⟩
    · exact (htrivial.page false s.native.evidenceWindowComplete
        (pollEntries bridge s.echo.transcriptAfter) trivial).1
    · by_cases hasks : t.spine.store.provenancePending ≠ [] ∨ echoesApplied log ≠ [] ∨
          ∃ frame ∈ framesApplied log, frame.evidenceTruncated = false
      · exact .inl (hbetween.pending hasks)
      · have hstill := h.asks.resolve_left fun hpending => hasks (.inl hpending)
        refine .inr ⟨hecho, ?_⟩
        dsimp only
        rw [zipPage_replay, ← hlog]
        refine still_replay session mapper ?_ ?_ hstill.2
        · by_contra hne
          exact hasks (.inr (.inl hne))
        · intro frame hframe
          by_contra hne
          exact hasks (.inr (.inr ⟨frame, hframe, by simpa using hne⟩))
  · unfold pollEcho at hs ⊢
    rw [if_neg hecho] at hs ⊢
    cases hs
    exact ⟨t, rfl, h⟩

/-! ### Continuation -/

theorem linked_pollNativeContinuation_error {f : Fault} (h : Along session s t)
    (hpages : f.read.native < pages) {s' : Projector ρ δ}
    (hs : pollNativeContinuation session mapper bridge (some f) s = .error s') :
    ∃ t', pollNativeContinuation session (loud session : Mapper ρ ε ν δ)
      (bridge.retained.silent pages) (some f) t = .error t' ∧ Linked s' t' := by
  unfold pollNativeContinuation at hs ⊢
  split at hs
  · rename_i heager
    obtain ⟨⟨n, hread⟩, hs⟩ := continuePages_spec.1 s' hs
    have hread' : f.read = .continuationPage n := Option.some.inj hread
    rw [hread'] at hpages
    have hlength : (bridge.retained.silent pages : Bridge ρ ε ν).nativePages.length = pages :=
      List.length_replicate
    have hn : n < pages := hpages
    obtain ⟨t', ht⟩ := silent_continuePages_error
      (loud session : Mapper ρ ε ν δ) bridge.retained hread hn
      (by rw [h.cursor heager]; rfl) (Nat.zero_le n)
      (show n < 0 + ((bridge.retained.silent pages : Bridge ρ ε ν).nativePages.length + 1) by omega)
    rw [if_pos heager]
    exact ⟨t', ht, h.toLinked.of_untouched hs (continuePages_spec.1 t' ht).2⟩
  · cases hs

theorem along_pollNativeContinuation (pages : Nat) (h : Along session s t)
    (hfault : ∀ n, fault.map Fault.read ≠ some (.continuationPage n)) {s' : Projector ρ δ}
    (hs : pollNativeContinuation session mapper bridge fault s = .ok s') :
    ∃ t', pollNativeContinuation session (loud session : Mapper ρ ε ν δ)
      (bridge.retained.silent pages) fault t = .ok t' ∧ Linked s' t' ∧
      t'.spine.store.Marked ∧ (t'.spine.store.provenancePending ≠ [] ∨ s'.spine.store.Still) := by
  have hok : ∃ t', pollNativeContinuation session (loud session : Mapper ρ ε ν δ)
      (bridge.retained.silent pages) fault t = .ok t' := by
    cases hresult : pollNativeContinuation session (loud session : Mapper ρ ε ν δ)
        (bridge.retained.silent pages) fault t with
    | ok t' => exact ⟨t', rfl⟩
    | error t' =>
      obtain ⟨⟨n, hread⟩, -⟩ := pollNativeContinuation_error hresult
      exact absurd hread (hfault n)
  obtain ⟨t', ht⟩ := hok
  obtain ⟨hbetween, -⟩ := loud_pollNativeContinuation session
    (silent_silent (ν := ν) bridge.retained pages).sounding
    (fun _ => trivial) h.spine.waiting ht
  refine ⟨t', ht, ?_, hbetween.marked, ?_⟩
  · unfold pollNativeContinuation at hs ht
    split at hs
    · rename_i heager
      rw [if_pos heager] at ht
      exact h.toLinked.of_untouched (continuePages_spec.2 s' hs) (continuePages_spec.2 t' ht)
    · rename_i heager
      rw [if_neg heager] at ht
      cases hs
      cases ht
      exact h.toLinked
  · refine h.asks.imp hbetween.pending fun hstill => ?_
    have heager : session.harness.eagerNativeContinuation = false := by
      cases hharness : session.harness <;> rw [hharness] at hstill <;>
        simp_all [HarnessId.usesTranscriptEcho, HarnessId.eagerNativeContinuation]
    unfold pollNativeContinuation at hs
    rw [heager] at hs
    cases hs
    exact hstill.2

/-! ### The rest -/

omit [BEq δ] in
theorem linked_resolveProvenance_error (pages : Nat) (h : Linked s t) (hmarked : t.spine.store.Marked)
    (hasks : t.spine.store.provenancePending ≠ [] ∨ s.spine.store.Still) {s' : Projector ρ δ}
    (hs : resolveProvenance bridge fault s = .error s') :
    ∃ t', resolveProvenance (bridge.retained.silent pages : Bridge ρ ε ν) fault t = .error t' ∧
      Linked s' t' := by
  obtain ⟨hread, rfl⟩ := resolveProvenance_spec.1 s' hs
  refine ⟨t, ?_, h⟩
  have hpending : t.spine.store.provenancePending ≠ [] := by
    refine hasks.resolve_right fun hstill => ?_
    unfold resolveProvenance at hs
    rw [hstill.pendingRequestIds] at hs
    cases hs
  have hids := ProjectionStore.pendingRequestIds_ne_nil hmarked.unasked hpending
  unfold resolveProvenance
  dsimp only
  rw [if_neg (by simpa [maxProvenanceBatch] using hids), reads_eq_error.mpr ⟨hread, rfl⟩]
  rfl

omit [BEq δ] in
theorem linked_resolveProvenance (pages : Nat) (h : Linked s t)
    (hfault : fault.map Fault.read ≠ some .provenance) {s' : Projector ρ δ}
    (hs : resolveProvenance bridge fault s = .ok s') :
    ∃ t', resolveProvenance (bridge.retained.silent pages : Bridge ρ ε ν) fault t = .ok t' ∧
      Linked s' t' := by
  cases ht : resolveProvenance (bridge.retained.silent pages : Bridge ρ ε ν) fault t with
  | ok t' =>
    exact ⟨t', rfl, h.of_untouched (resolveProvenance_spec.2 s' hs).1
      (resolveProvenance_spec.2 t' ht).1⟩
  | error t' => exact absurd (resolveProvenance_spec.1 t' ht).1 hfault

omit [Inhabited ν] in
theorem polls_error {s' : Projector ρ δ} (hs : (pollChannels session mapper bridge fault s >>=
    finish session bridge fault) = .error s') (n : Nat) :
    fault.map Fault.read ≠ some (.nativePage n) := by
  rcases bind_eq_error.mp hs with hs | ⟨_, _, hs⟩
  · rcases bind_eq_error.mp hs with hs | ⟨_, _, hs⟩
    · obtain ⟨m, -, hread, -⟩ := pollEvidence_error hs
      simp [hread]
    rcases bind_eq_error.mp hs with hs | ⟨_, _, hs⟩
    · obtain ⟨⟨m, hread⟩, -⟩ := pollEcho_error hs
      simp [hread]
    rcases bind_eq_error.mp hs with hs | ⟨_, _, hs⟩
    · obtain ⟨⟨m, hread⟩, -⟩ := pollNativeContinuation_error hs
      simp [hread]
    · simp [(resolveProvenance_spec.1 s' hs).1]
  · simp [(finish_error hs).1]

/-- Polls that fail, fail on both sides; the stage that raises tells which the
stages in front of it are that do not. -/
theorem linked_pollChannels_error {f : Fault} (h : Along session s t)
    (hpages : f.read.native < pages) {s' : Projector ρ δ}
    (hs : pollChannels session mapper bridge (some f) s = .error s') :
    ∃ t', pollChannels session (loud session : Mapper ρ ε ν δ) (bridge.retained.silent pages)
      (some f) t = .error t' ∧ Linked s' t' := by
  have hevidence : Parallel (Along session) (pollEvidence session mapper bridge (some f)
      (bridge.retained.window.frames.length + 1) 0 s) _ := along_pollEvidence pages h
  rcases bind_eq_error.mp hs with hs | ⟨s₁, hs₁, hs⟩
  · obtain ⟨t', ht, hlinked⟩ := hevidence.of_error hs
    exact ⟨t', bind_eq_error.mpr (.inl ht), hlinked.toLinked⟩
  obtain ⟨t₁, ht₁, h₁⟩ := hevidence.of_ok hs₁
  rcases bind_eq_error.mp hs with hs | ⟨s₂, hs₂, hs⟩
  · obtain ⟨t', ht, hlinked⟩ := linked_pollEcho_error pages h₁.toLinked hs
    exact ⟨t', bind_eq_error.mpr (.inr ⟨t₁, ht₁, bind_eq_error.mpr (.inl ht)⟩), hlinked⟩
  rcases bind_eq_error.mp hs with hs | ⟨s₃, hs₃, hs⟩
  · obtain ⟨⟨n, hread⟩, -⟩ := pollNativeContinuation_error hs
    obtain ⟨t₂, ht₂, h₂⟩ := along_pollEcho pages h₁ (by simp [hread]) hs₂
    obtain ⟨t', ht, hlinked⟩ := linked_pollNativeContinuation_error h₂ hpages hs
    exact ⟨t', bind_eq_error.mpr (.inr ⟨t₁, ht₁, bind_eq_error.mpr (.inr ⟨t₂, ht₂,
      bind_eq_error.mpr (.inl ht)⟩)⟩), hlinked⟩
  · have hread := (resolveProvenance_spec.1 s' hs).1
    obtain ⟨t₂, ht₂, h₂⟩ := along_pollEcho pages h₁ (by simp [hread]) hs₂
    obtain ⟨t₃, ht₃, h₃, hmarked, hasks⟩ :=
      along_pollNativeContinuation pages h₂ (by simp [hread]) hs₃
    obtain ⟨t', ht, hlinked⟩ := linked_resolveProvenance_error pages h₃ hmarked hasks hs
    exact ⟨t', bind_eq_error.mpr (.inr ⟨t₁, ht₁, bind_eq_error.mpr (.inr ⟨t₂, ht₂,
      bind_eq_error.mpr (.inr ⟨t₃, ht₃, ht⟩)⟩)⟩), hlinked⟩

theorem linked_pollChannels (pages : Nat) (h : Along session s t)
    (hfault : fault.map Fault.read = some .lastSnapshot) {s' : Projector ρ δ}
    (hs : pollChannels session mapper bridge fault s = .ok s') :
    ∃ t', pollChannels session (loud session : Mapper ρ ε ν δ) (bridge.retained.silent pages)
      fault t = .ok t' ∧ Linked s' t' := by
  have hevidence : Parallel (Along session) (pollEvidence session mapper bridge fault
      (bridge.retained.window.frames.length + 1) 0 s) _ := along_pollEvidence pages h
  obtain ⟨s₁, hs₁, hs⟩ := bind_eq_ok.mp hs
  obtain ⟨s₂, hs₂, hs⟩ := bind_eq_ok.mp hs
  obtain ⟨s₃, hs₃, hs⟩ := bind_eq_ok.mp hs
  obtain ⟨t₁, ht₁, h₁⟩ := hevidence.of_ok hs₁
  obtain ⟨t₂, ht₂, h₂⟩ := along_pollEcho pages h₁ (by simp [hfault]) hs₂
  obtain ⟨t₃, ht₃, h₃, -⟩ :=
    along_pollNativeContinuation pages h₂ (by simp [hfault]) hs₃
  obtain ⟨t', ht, hlinked⟩ :=
    linked_resolveProvenance pages h₃ (by simp [hfault]) hs
  exact ⟨t', bind_eq_ok.mpr ⟨t₁, ht₁, bind_eq_ok.mpr ⟨t₂, ht₂, bind_eq_ok.mpr ⟨t₃, ht₃, ht⟩⟩⟩,
    hlinked⟩

/-- An attempt that fails, fails alike with the loud mapper over a silent bridge. -/
theorem linked_rebuild {f : Fault} (h : Linked s t) (hpages : f.read.native < pages)
    {s' : Projector ρ δ} (hs : rebuild session mapper bridge (some f) s = .error s') :
    ∃ t', rebuild session (loud session : Mapper ρ ε ν δ) (bridge.retained.silent pages)
      (some f) t = .error t' ∧ Linked s' t' := by
  by_cases hfirst : (some f).map Fault.read = some .firstSnapshot
  · rcases bind_eq_error.mp hs with hs | ⟨⟨⟩, hread, -⟩
    · obtain ⟨-, rfl⟩ := reads_eq_error.mp hs
      exact ⟨t.reset, bind_eq_error.mpr (.inl (reads_eq_error.mpr ⟨hfirst, rfl⟩)), h.reset⟩
    · exact absurd hfirst (reads_eq_ok.mp hread)
  rw [rebuild_eq session hfirst] at hs ⊢
  rcases bind_eq_error.mp hs with hs | ⟨s₁, hs₁, hs⟩
  · obtain ⟨t', ht, hlinked⟩ := linked_opened_error h hpages hs
    exact ⟨t', bind_eq_error.mpr (.inl ht), hlinked⟩
  -- past the walk, the read that raises is none of its own
  obtain ⟨t₁, ht₁, h₁⟩ := linked_opened pages h (by omega) (polls_error hs) hs₁
  rcases bind_eq_error.mp hs with hs | ⟨s₂, hs₂, hs⟩
  · obtain ⟨t', ht, hlinked⟩ := linked_pollChannels_error h₁ hpages hs
    exact ⟨t', bind_eq_error.mpr (.inr ⟨t₁, ht₁, bind_eq_error.mpr (.inl ht)⟩), hlinked⟩
  · obtain ⟨hread, rfl⟩ := finish_error hs
    obtain ⟨t₂, ht₂, h₂⟩ := linked_pollChannels pages h₁ hread hs₂
    refine ⟨t₂, bind_eq_error.mpr (.inr ⟨t₁, ht₁, bind_eq_error.mpr (.inr ⟨t₂, ht₂, ?_⟩)⟩), h₂⟩
    exact bind_eq_error.mpr (.inl (reads_eq_error.mpr ⟨hread, rfl⟩))

end along

end Projector

end AgentsRemember.Conversation
