import AgentsRemember.Conversation.Loud

/-!
# Conversation — Lost

What was delivered before a failure is lost: the item of the first frame, or of
the first echo, is there after a rebuild that succeeds at once, and missing after
one that is repeated.
-/

namespace AgentsRemember.Conversation

open Attempts

variable {ρ ε ν δ : Type}

namespace Projector

section stages
variable [BEq δ] (session : Session) {bridge : Bridge ρ ε ν} {fault : Option Fault}
  {asked : Prop} {L K : String → Prop}

/-- A bridge with nothing that could change an item but its native frames. -/
structure Silent (bridge : Bridge ρ ε ν) : Prop where
  sounding : Sounding bridge
  snapshot : bridge.snapshot = {}
  provenance : bridge.provenance = fun _ => none

/-! ## Up to the polls -/

/-- The projector that the polls start from. -/
def opened (mapper : Mapper ρ ε ν δ) (bridge : Bridge ρ ε ν) (fault : Option Fault)
    (s : Projector ρ δ) : Except (Projector ρ δ) (Projector ρ δ) :=
  if session.harness.usesNativePages then
    walkParentHistory session mapper bridge fault (s.reset.setSnapshot bridge.snapshot)
  else .ok (s.reset.setSnapshot bridge.snapshot)

theorem rebuild_eq {mapper : Mapper ρ ε ν δ}
    (hfault : fault.map Fault.read ≠ some .firstSnapshot) (s : Projector ρ δ) :
    rebuild session mapper bridge fault s = opened session mapper bridge fault s >>= fun s =>
      pollChannels session mapper bridge fault s >>= finish session bridge fault := by
  unfold rebuild opened
  dsimp only
  rw [reads_eq_ok.mpr hfault]
  show (if _ then _ else _) = (if _ then _ else _) >>= _
  split <;> rfl

theorem opened_spec {mapper : Mapper ρ ε ν δ} {s : Projector ρ δ} :
    (∀ t, opened session mapper bridge fault s = .error t →
      ∃ n, fault.map Fault.read = some (.nativePage n)) ∧
    ∀ t, opened session mapper bridge fault s = .ok t → Untouched s.reset t := by
  unfold opened
  split
  · refine ⟨fun t h => (walkPages_spec.1 t h).1, fun t h => ?_⟩
    have ht := walkPages_spec.2 t h
    exact ⟨ht.evidenceAfter, ht.window, ht.echo, ht.interactions⟩
  · refine ⟨fun t h => (by cases h), fun t h => ?_⟩
    cases h
    exact ⟨rfl, rfl, rfl, rfl⟩

theorem loud_opened (hfault : ∀ n, fault.map Fault.read ≠ some (.nativePage n))
    (hbridge : Sounding bridge) (hK : session.harness.usesNativePages → K "native")
    (s : Projector ρ δ) :
    ∃ t, opened session (loud session : Mapper ρ ε ν δ) bridge fault s = .ok t ∧
      Between (session.harness.usesNativePages ∧ (bridge.nativePage none).frames ≠ [])
        (fun _ => False) K t.spine := by
  have hempty : Between False (fun _ => False) K (s.reset.setSnapshot bridge.snapshot).spine :=
    ⟨.empty, nofun, nofun, nofun⟩
  unfold opened
  by_cases hpages : session.harness.usesNativePages
  · rw [if_pos hpages]
    obtain ⟨t, ht, hbetween⟩ := loud_walkPages session hfault hbridge (hK hpages)
      (bridge.nativePages.length + 1) 0 []
      (s := { s.reset.setSnapshot bridge.snapshot with
        native := { s.native.reset with nativeCursor := none } }) rfl rfl hempty
    exact ⟨t, ht, hbetween.mono (fun ha => .inr ⟨by omega, ha.2⟩) nofun⟩
  · rw [if_neg hpages]
    exact ⟨_, rfl, hempty.mono (fun ha => absurd ha.1 hpages) nofun⟩

/-! ## Behind the evidence -/

theorem loud_pollEcho (bridge : Bridge ρ ε ν) (hecho : session.harness.usesTranscriptEcho)
    (hfault : ∀ n, fault.map Fault.read ≠ some (.transcriptPage n)) {s : Projector ρ δ}
    (h : Between asked L K s.spine)
    (hqueue : ∀ frame ∈ s.echo.pendingFrames, K (vendorItemId session frame)) (hK : K "echo") :
    ∃ t log, pollEcho session (loud session : Mapper ρ ε ν δ) bridge fault s = .ok t ∧
      t.interactions = s.interactions ∧
      log = pageLog false s.native.evidenceWindowComplete
        (pollEntries bridge s.echo.transcriptAfter) s.echo ∧
      Between (asked ∨ echoesApplied log ≠ [] ∨
          ∃ frame ∈ framesApplied log, frame.evidenceTruncated = false)
        (fun itemId => L itemId ∨ (echoesApplied log ≠ [] ∧ itemId = "echo") ∨
          ∃ frame ∈ framesApplied log, itemId = vendorItemId session frame) K t.spine := by
  refine ⟨_, _, pollEcho_eq hecho hfault s, rfl, rfl, ?_⟩
  dsimp only
  rw [zipPage_replay (Spine.sink session _)]
  refine h.replay session (fun frame hframe => hqueue frame ?_) fun _ => hK
  rw [← pageLog_frames false s.native.evidenceWindowComplete
    (pollEntries bridge s.echo.transcriptAfter) s.echo]
  exact List.mem_append_left _ hframe

theorem loud_continueFrames (hK : K "native") (frames : List (NativeEvidenceFrame ν))
    (hframes : ∀ frame ∈ frames, frame.evidenceTruncated = false) {s : Projector ρ δ}
    (h : Between asked L K s.spine) :
    Between asked L K
      (frames.foldl (continueFrame session (loud session : Mapper ρ ε ν δ)) s).spine := by
  induction frames generalizing s with
  | nil => exact h
  | cons frame frames ih =>
    have hone := h.applyNative (ρ := ρ) (ε := ε) session (hframes frame (by simp)) hK
      (ProjectionEvidenceRefs.native session frame.nativeId)
    exact ih (fun f hf => hframes f (by simp [hf]))
      (s := continueFrame session (loud session : Mapper ρ ε ν δ) s frame)
      (hone.mono (fun _ => trivial) fun _ => id)

theorem loud_continuePages (hbridge : Sounding bridge) (hK : K "native") {fuel number : Nat}
    {s t : Projector ρ δ} (h : Between asked L K s.spine)
    (ht : continuePages session (loud session : Mapper ρ ε ν δ) bridge fault fuel number s =
      .ok t) : Between asked L K t.spine := by
  induction fuel generalizing number s with
  | zero =>
    cases ht
    exact h
  | succ fuel ih =>
    have hpage := loud_continueFrames (ρ := ρ) (ε := ε) session hK
      (bridge.nativePage s.native.nativeCursor).frames
      (fun frame hframe => mem_nativePage hbridge hframe) h
    unfold continuePages at ht
    obtain ⟨-, -, ht⟩ := bind_eq_ok.mp ht
    dsimp only at ht
    split at ht
    · cases ht
      exact h
    · split at ht
      · cases ht
        exact hpage
      · refine ih ?_ ht
        exact hpage

theorem loud_pollNativeContinuation (hbridge : Sounding bridge)
    (hK : session.harness.eagerNativeContinuation → K "native") {s t : Projector ρ δ}
    (h : Between asked L K s.spine)
    (ht : pollNativeContinuation session (loud session : Mapper ρ ε ν δ) bridge fault s = .ok t) :
    Between asked L K t.spine ∧ t.interactions = s.interactions := by
  unfold pollNativeContinuation at ht
  split at ht
  · rename_i heager
    exact ⟨loud_continuePages session hbridge (hK heager) h ht,
      (continuePages_spec.2 t ht).interactions⟩
  · cases ht
    exact ⟨h, rfl⟩

omit [BEq δ] in
/-- Answers that find nothing leave the items alone. -/
theorem items_resolveProvenance (hbridge : bridge.provenance = fun _ => none)
    {s t : Projector ρ δ} (ht : resolveProvenance bridge fault s = .ok t) :
    t.items = s.items := by
  have hfold : ∀ (pending : List String) (store : ProjectionStore δ),
      (pending.foldl (fun store requestId =>
        (store.applyProvenance requestId (bridge.provenance requestId)).1) store).view =
        store.view := by
    intro pending
    induction pending with
    | nil => exact fun _ => rfl
    | cons requestId pending ih =>
      intro store
      rw [List.foldl_cons, ih, hbridge]
      rfl
  unfold resolveProvenance at ht
  dsimp only at ht
  split at ht
  · cases ht
    rfl
  · obtain ⟨-, -, ht⟩ := bind_eq_ok.mp ht
    cases ht
    exact hfold _ _

theorem apply_idle (s : Spine δ) : InteractionProjection.apply session {} {} s = ({}, s) := by
  simp [InteractionProjection.apply, InteractionProjection.applyMultiplexed,
    InteractionProjection.multiplexed, Keyed.dict]

/-- A snapshot without interactions leaves the items of an idle projector alone. -/
theorem items_finish (hbridge : bridge.snapshot = {}) {s t : Projector ρ δ}
    (hidle : s.interactions = {}) (ht : finish session bridge fault s = .ok t) :
    t.items = s.items := by
  unfold finish at ht
  rw [hbridge, hidle, apply_idle] at ht
  obtain ⟨-, -, ht⟩ := bind_eq_ok.mp ht
  cases ht
  rfl

/-- The ids of the projected items. -/
def ids (s : Projector ρ δ) : List String := s.items.map Item.itemId

omit [BEq δ] in
theorem ids_of_between {s : Projector ρ δ} (h : Between asked L K s.spine) :
    (∀ itemId, L itemId → itemId ∈ s.ids) ∧ ∀ itemId ∈ s.ids, K itemId := by
  have hids : s.ids = s.spine.store.items.map Prod.fst :=
    ProjectionStore.view_itemId h.marked.sound.toStored
  rw [hids]
  exact ⟨h.lower, h.upper⟩

/-- What a rebuild shows from behind the evidence to its end. -/
theorem ids_of_polled (hbridge : Silent bridge) {s t : Projector ρ δ}
    (hidle : s.interactions = {}) (h : Between asked L K s.spine)
    (hqueue : ∀ frame ∈ s.echo.pendingFrames, K (vendorItemId session frame))
    (hnative : session.harness.eagerNativeContinuation → K "native")
    (hecho : session.harness.usesTranscriptEcho → K "echo")
    (ht : ((pollEcho session (loud session : Mapper ρ ε ν δ) bridge none s >>= fun s =>
      pollNativeContinuation session (loud session : Mapper ρ ε ν δ) bridge none s >>=
        resolveProvenance bridge none) >>= finish session bridge none) = .ok t) :
    (∀ itemId, L itemId → itemId ∈ t.ids) ∧
      (session.harness.usesTranscriptEcho → ∀ frame, s.echo.pendingFrames.head? = some frame →
        vendorItemId session frame ∈ t.ids) ∧
      (session.harness.usesTranscriptEcho →
        (∃ entry ∈ pollEntries bridge s.echo.transcriptAfter, entry.isUser) → "echo" ∈ t.ids) ∧
      ∀ itemId ∈ t.ids, K itemId := by
  obtain ⟨s₄, h₄, ht⟩ := bind_eq_ok.mp ht
  obtain ⟨s₂, h₂, h₄⟩ := bind_eq_ok.mp h₄
  obtain ⟨s₃, h₃, h₄⟩ := bind_eq_ok.mp h₄
  have hlast : ∀ {asked L}, Between asked L K s₂.spine → s₂.interactions = {} →
      (∀ itemId, L itemId → itemId ∈ t.ids) ∧ ∀ itemId ∈ t.ids, K itemId := by
    intro asked L hbetween hidle
    obtain ⟨hbetween, hidle'⟩ :=
      loud_pollNativeContinuation session hbridge.sounding hnative hbetween h₃
    have hidle₄ : s₄.interactions = {} := by
      rw [(resolveProvenance_spec.2 _ h₄).1.interactions, hidle', hidle]
    have hitems : t.items = s₃.items :=
      (items_finish session hbridge.snapshot hidle₄ ht).trans
        (items_resolveProvenance hbridge.provenance h₄)
    unfold ids
    rw [hitems]
    exact ids_of_between hbetween
  by_cases huses : session.harness.usesTranscriptEcho
  · have hnone : ∀ n, (none : Option Fault).map Fault.read ≠ some (.transcriptPage n) :=
      fun n h => by cases h
    obtain ⟨s₂', log, h₂', hidle', hlog, hbetween⟩ :=
      loud_pollEcho session bridge huses hnone h hqueue (hecho huses)
    obtain rfl : s₂' = s₂ := by
      rw [h₂] at h₂'
      exact (Except.ok.inj h₂').symm
    obtain ⟨hlower, hupper⟩ := hlast hbetween (hidle'.trans hidle)
    refine ⟨fun itemId hid => hlower _ (.inl hid), fun _ frame hframe => ?_, fun _ huser => ?_,
      hupper⟩
    · refine hlower _ (.inr (.inr ⟨frame, ?_, rfl⟩))
      rw [hlog]
      exact pageLog_head _ _ _ hframe
    · obtain ⟨entry, hentry, huser⟩ := huser
      refine hlower _ (.inr (.inl ⟨?_, rfl⟩))
      rw [hlog]
      exact pageLog_heard _ _ hentry huser _
  · have hno : session.harness.usesTranscriptEcho = false := by simpa using huses
    obtain rfl := (pollEcho_ok h₂).2 hno
    obtain ⟨hlower, hupper⟩ := hlast h hidle
    exact ⟨hlower, fun hyes => absurd hyes huses, fun hyes => absurd hyes huses, hupper⟩

end stages

end Projector

end AgentsRemember.Conversation
