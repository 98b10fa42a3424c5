import AgentsRemember.Queue.ProjectionRuns
import Mathlib.Data.List.Pairwise

/-!
# Queue — Admission

Over every interleaving: an admission reads the exact source it captured, a
publication is of a source captured before the lock and again inside it, an
invalidation holds until a publication, and revisions name states until a
malformed file is recovered.
-/

namespace AgentsRemember.Queue

/-! ## What one access changes -/

/-- The phases that an event of the process `p` moves it to. -/
inductive Turn (store : CloseoutQueueStore) (w : World) (p : Nat) : Event → Phase → Prop
  | idle (event : Event) : Turn store w p event .idle
  | clearing (event : Event) : Turn store w p event .clearing
  | capture {timestamp : String} {build : CloseoutProjectionBuild}
      (hbuild : w.source.build store.sprintRef timestamp = some build) :
      Turn store w p (.capture p timestamp) (.built build)
  | writeBuild {build : CloseoutProjectionBuild} (hphase : w.phase p = .built build) :
      Turn store w p (.writeBuild p) (.waiting build)
  | lockPublish {build : CloseoutProjectionBuild} {current : CloseoutQueueState}
      (hphase : w.phase p = .waiting build) :
      Turn store w p (.lockPublish p) (.comparing build current)
  | recapture {build : CloseoutProjectionBuild} {current state : CloseoutQueueState}
      {result : ProjectionRebuildResult} (hphase : w.phase p = .comparing build current)
      (hpublication : store.publication build current w.source = some (state, result))
      (hout : result.outcome = .published) : Turn store w p (.recapture p) (.writing state false)
  | invalidate (timestamp : String) (recovers : Bool) :
      Turn store w p (.lockInvalidate p timestamp)
        (.writing (store.invalidation w.file timestamp).state recovers)
  | captureRead : Turn store w p (.captureRead p) (.reading w.source)

section runs
variable {store : CloseoutQueueStore}

/-- Whoever moves, the others stay. -/
theorem phase_move {w : World} {event : Event} {q : Nat} {next : Phase}
    (hturn : Turn store w q event next) (p : Nat) :
    (w.move q next).phase p = w.phase p ∨ Turn store w p event ((w.move q next).phase p) := by
  by_cases hp : p = q
  · subst hp
    right
    simpa [World.move] using hturn
  · left
    simp [World.move, hp]

theorem phase_step {w w' : World} {event : Event} (hs : step store w event = some w') (p : Nat) :
    w'.phase p = w.phase p ∨ Turn store w p event (w'.phase p) := by
  -- only the process of the event moves, and each event says from which phase
  cases event with
  | sourceChanged source => cases hs; exact .inl rfl
  | corrupted file =>
    simp only [step] at hs
    split at hs
    · cases hs
    · cases hs; exact .inl rfl
  | capture q timestamp =>
    simp only [step] at hs
    split at hs
    next hbuild => cases hs; exact phase_move (.capture hbuild) p
    · cases hs
  | writeBuild q =>
    simp only [step] at hs
    split at hs
    next hphase =>
      split at hs
      · cases hs; exact phase_move (.writeBuild hphase) p
      · cases hs
    · cases hs
  | lockPublish q =>
    simp only [step] at hs
    split at hs
    next hphase hlock =>
      split at hs
      · cases hs; exact phase_move (.lockPublish hphase) p
      · cases hs; exact phase_move (.idle _) p
    · cases hs
  | recapture q =>
    simp only [step] at hs
    split at hs
    next hphase =>
      split at hs
      next hpub =>
        cases hs
        split
        next hout => exact phase_move (.recapture hphase hpub hout) p
        next => exact phase_move (.clearing _) p
      · cases hs; exact phase_move (.idle _) p
    · cases hs
  | lockInvalidate q timestamp =>
    simp only [step] at hs
    split at hs
    · cases hs
      split
      · exact phase_move (.clearing _) p
      · exact phase_move (.invalidate timestamp _) p
    · cases hs
  | write q =>
    simp only [step] at hs
    split at hs
    · cases hs; exact phase_move (w := w) (.clearing _) p
    · cases hs
  | clear q =>
    simp only [step] at hs
    split at hs
    · cases hs; exact phase_move (.idle _) p
    · cases hs
  | captureRead q =>
    simp only [step] at hs
    split at hs
    · cases hs; exact phase_move .captureRead p
    · cases hs
  | read q =>
    simp only [step] at hs
    split at hs
    · cases hs; exact phase_move (.idle _) p
    · cases hs
  | crash q => cases hs; exact phase_move (.idle _) p

/-- The event writes a built state. -/
def Publishes (w : World) : Event → Prop
  | .write p => ∃ state recovers, w.phase p = .writing state recovers ∧
      state.serviceCondition = .validBuilt
  | _ => False

/-- The event writes an empty state, or finds one on disk. -/
def Invalidates (store : CloseoutQueueStore) (w : World) : Event → Prop
  | .lockInvalidate _ timestamp => (store.invalidation w.file timestamp).outcome = .alreadyEmpty
  | .write p => ∃ state recovers, w.phase p = .writing state recovers ∧
      state.serviceCondition = .invalidEmpty
  | _ => False

/-- The file reads as a built state. -/
def StateFile.Built (store : CloseoutQueueStore) (file : StateFile) : Prop :=
  ∃ state, store.readState file "" = .ok state ∧ state.serviceCondition = .validBuilt

instance (file : StateFile) : Decidable (file.Built store) :=
  decidable_of_iff
    ((store.readState file "").toOption.any fun s => s.serviceCondition = .validBuilt) <| by
      cases h : store.readState file "" <;> simp [StateFile.Built, Except.toOption, h]

theorem StateFile.Built.state {file : StateFile} (h : file.Built store) :
    ∃ state, file = .state state ∧ state.serviceCondition = .validBuilt := by
  obtain ⟨state, hread, hbuilt⟩ := h
  obtain ⟨hfile, -⟩ | ⟨-, rfl⟩ := store.readState_ok hread
  · exact ⟨state, hfile, hbuilt⟩
  · cases hbuilt

/-- The file changes by a write, or by damage that leaves it unreadable. -/
theorem file_step {w w' : World} {event : Event} (hs : step store w event = some w') :
    w'.file = w.file ∨ (∃ e, store.readState w'.file "" = .error e) ∨
      ∃ p state recovers, event = .write p ∧ w.phase p = .writing state recovers ∧
        w'.file = .state state := by
  cases event with
  | corrupted file =>
    simp only [step] at hs
    split at hs
    · cases hs
    next e hread => cases hs; exact .inr (.inl ⟨e, hread⟩)
  | write p =>
    simp only [step] at hs
    split at hs
    next state recovers hphase => cases hs; exact .inr (.inr ⟨p, state, recovers, rfl, hphase, rfl⟩)
    · cases hs
  | sourceChanged source => cases hs; exact .inl rfl
  | crash p => cases hs; exact .inl rfl
  | _ =>
    left
    simp only [step] at hs
    repeat' split at hs
    all_goals first | (cases hs; rfl) | cases hs

theorem not_built_of_invalidates {w w' : World} {event : Event}
    (hs : step store w event = some w') (hinv : Invalidates store w event) :
    ¬w'.file.Built store := by
  intro h
  obtain ⟨state, hfile, hbuilt⟩ := h.state
  cases event with
  | lockInvalidate p timestamp =>
    simp only [step] at hs
    split at hs
    · cases hs
      obtain ⟨-, hout⟩ | ⟨-, hout⟩ | ⟨current, hcurrent, hempty, -⟩ | ⟨current, -, -, hout⟩ :=
        store.invalidation_cases w.file timestamp
      · cases hinv.symm.trans hout
      · cases hinv.symm.trans hout
      · cases hcurrent.symm.trans hfile
        cases hempty.symm.trans hbuilt
      · cases hinv.symm.trans hout
    · cases hs
  | write p =>
    obtain ⟨written, recovers, hphase, hempty⟩ := hinv
    simp only [step, hphase] at hs
    cases hs
    cases StateFile.state.inj hfile
    cases hempty.symm.trans hbuilt
  | _ => exact hinv

theorem publishes_of_built {w w' : World} {event : Event} (hs : step store w event = some w')
    (hnot : ¬w.file.Built store) (hbuilt : w'.file.Built store) : Publishes w event := by
  obtain hsame | ⟨e, hread⟩ | ⟨p, state, recovers, rfl, hphase, hfile⟩ := file_step hs
  · rw [hsame] at hbuilt; exact absurd hbuilt hnot
  · obtain ⟨state, hok, -⟩ := hbuilt
    cases hread.symm.trans hok
  · obtain ⟨found, hfound, hcondition⟩ := hbuilt.state
    cases hfile.symm.trans hfound
    exact ⟨_, _, hphase, hcondition⟩

/-! ## What a run did before -/

theorem build_matches {source : ProjectionSourceIdentity} {build : CloseoutProjectionBuild}
    {timestamp : String} (h : source.build store.sprintRef timestamp = some build) :
    source.readable = true ∧ source.fingerprint = some build.sourceFingerprint ∧
      source.classification = some build.sourceClassification ∧
      source.members = build.members := by
  unfold ProjectionSourceIdentity.build at h
  split at h
  next hreadable hfingerprint hclassification =>
    split at h
    · cases h; exact ⟨hreadable, hfingerprint, hclassification, rfl⟩
    · cases h
  · cases h

/-- The build a process carries up to the recapture. -/
def Phase.build? : Phase → Option CloseoutProjectionBuild
  | .built build => some build
  | .waiting build => some build
  | .comparing build _ => some build
  | _ => none

variable {file : StateFile} {source : ProjectionSourceIdentity} {ls : List Event} {w : World}

/-- A build in hand was captured from the source of its time. -/
theorem captured_build (hrun : Runs.run (step store) (World.start file source) ls = some w)
    {p : Nat} {build : CloseoutProjectionBuild} (hphase : (w.phase p).build? = some build) :
    ∃ pre timestamp post t, ls = pre ++ .capture p timestamp :: post ∧
      Runs.run (step store) (World.start file source) pre = some t ∧
      t.source.build store.sprintRef timestamp = some build := by
  obtain hall | ⟨pre, l, post, u, u', hls, hu, hstep, -, hnot, hkeep⟩ :=
    Runs.always_or_last (Q := fun v : World => (v.phase p).build? = some build) hrun hphase
  · cases hall.1
  obtain hsame | hturn := phase_step hstep p
  · exact absurd (hsame ▸ hkeep.1) hnot
  have hnow := hkeep.1
  dsimp only at hnow
  generalize u'.phase p = next at hturn hnow
  cases hturn with
  | capture hbuild => cases hnow; exact ⟨pre, _, post, u, hls, hu, hbuild⟩
  | writeBuild hbefore => cases hnow; exact absurd (congrArg Phase.build? hbefore) hnot
  | lockPublish hbefore => cases hnow; exact absurd (congrArg Phase.build? hbefore) hnot
  | _ => cases hnow

/-- The source of a read is the one the reader captured. -/
theorem captured_source (hrun : Runs.run (step store) (World.start file source) ls = some w)
    {p : Nat} {found : ProjectionSourceIdentity} (hphase : w.phase p = .reading found) :
    ∃ pre post t, ls = pre ++ .captureRead p :: post ∧
      Runs.run (step store) (World.start file source) pre = some t ∧ t.source = found := by
  obtain hall | ⟨pre, l, post, u, u', hls, hu, hstep, -, hnot, hkeep⟩ :=
    Runs.always_or_last (Q := fun v : World => v.phase p = .reading found) hrun hphase
  · cases hall.1
  obtain hsame | hturn := phase_step hstep p
  · exact absurd (hsame ▸ hkeep.1) hnot
  have hnow := hkeep.1
  dsimp only at hnow
  rw [hnow] at hturn
  cases hturn with
  | captureRead => exact ⟨pre, post, u, hls, hu, rfl⟩

/-- What is about to be published was captured, and captured again inside the
lock, which is held since, with exactly the same identity. -/
def Confirmed (store : CloseoutQueueStore) (start : World) (ls : List Event) (p : Nat)
    (state : CloseoutQueueState) : Prop :=
  ∃ pre timestamp mid post t u v,
    ls = pre ++ .capture p timestamp :: (mid ++ .recapture p :: post) ∧
    Runs.run (step store) start pre = some t ∧ state.Matches t.source ∧
    Runs.run (step store) start (pre ++ .capture p timestamp :: mid) = some u ∧
    state.Matches u.source ∧ step store u (.recapture p) = some v ∧
    Runs.Always (step store) (fun x => x.lock = some p) v post

theorem confirmed_publication
    (hrun : Runs.run (step store) (World.start file source) ls = some w) {p : Nat}
    {state : CloseoutQueueState} {recovers : Bool} (hphase : w.phase p = .writing state recovers)
    (hbuilt : state.serviceCondition = .validBuilt) :
    Confirmed store (World.start file source) ls p state := by
  have hlocked : ∀ {v}, Fenced store v → v.phase p = .writing state recovers → v.lock = some p :=
    fun hv hp => hv.alone p (by rw [hp]; rfl)
  obtain hall | ⟨pre, l, post, u, u', rfl, hu, hstep, -, hnot, hkeep⟩ :=
    Runs.always_or_last
      (Q := fun v : World => v.phase p = .writing state recovers ∧ v.lock = some p)
      hrun ⟨hphase, hlocked (fenced_run hrun) hphase⟩
  · cases hall.1.1
  obtain hsame | hturn := phase_step hstep p
  · have hbefore := hsame.symm.trans hkeep.1.1
    exact absurd ⟨hbefore, hlocked (fenced_run hu) hbefore⟩ hnot
  rw [hkeep.1.1] at hturn
  cases hturn with
  | invalidate timestamp => cases (store.invalidation_empty u.file timestamp).symm.trans hbuilt
  | recapture hcomparing hpublication hout =>
    obtain ⟨-, hmatches, hfingerprint, hclassification, hmembers⟩ :=
      store.publication_published hpublication hout
    obtain ⟨pre, timestamp, mid, t, rfl, ht, hbuild⟩ :=
      captured_build hu (congrArg Phase.build? hcomparing)
    obtain ⟨hreadable, hf, hc, hm⟩ := build_matches hbuild
    refine ⟨pre, timestamp, mid, post, t, u, u', by simp, ht, ⟨hbuilt, hreadable, ?_, ?_, ?_⟩,
      hu, hmatches, hstep, hkeep.1.2, hkeep.2.mono fun _ _ _ h => h.2⟩
    · rw [hfingerprint, hf]
    · rw [hclassification, hc]
    · rw [hmembers, hm]

/-- After an invalidation, a built file is a publication's. -/
theorem published_since {post : List Event} {event : Event} {u u' : World}
    (hstep : step store u event = some u') (hinv : Invalidates store u event)
    (hrun : Runs.run (step store) u' post = some w) (hbuilt : w.file.Built store) :
    ∃ before l after v, post = before ++ l :: after ∧
      Runs.run (step store) u' before = some v ∧ Publishes v l := by
  obtain hall | ⟨before, l, after, v, v', hpost, hv, hl, -, hnot, hkeep⟩ :=
    Runs.always_or_last (Q := fun x : World => x.file.Built store) hrun hbuilt
  · exact absurd hall.1 (not_built_of_invalidates hstep hinv)
  · exact ⟨before, l, after, v, hpost, hv, publishes_of_built hl hnot hkeep.1⟩

theorem built_of_admitted {found : ProjectionSourceIdentity} {timestamp generationId : String}
    (h : store.requireFirstReadyGeneration w.file found timestamp generationId = .ok ()) :
    w.file.Built store := by
  obtain ⟨state, -, hfile, hsprint, hmatches, -⟩ := store.requireFirstReadyGeneration_ok h
  refine ⟨state, ?_, hmatches.1⟩
  simp [hfile, CloseoutQueueStore.readState, hsprint]

/-- No two persisted states of one epoch carry the same revision. -/
theorem persisted_unique (h : Fenced store w) {a b : Persisted} (ha : a ∈ w.persisted)
    (hb : b ∈ w.persisted) (hepoch : a.epoch = b.epoch)
    (hrevision : a.state.revision = b.state.revision) : a = b := by
  let Same (x y : Persisted) : Prop :=
    x.epoch = y.epoch → x.state.revision = y.state.revision → x = y
  have : Std.Symm Same := ⟨fun x y hxy he hr => (hxy he.symm hr.symm).symm⟩
  have hall : w.persisted.Pairwise Same := by
    refine h.rising.imp fun {x y} hrising he hr => ?_
    have hlt := hrising he
    omega
  exact List.Pairwise.forall_of_forall (R := Same) (fun x _ _ _ => rfl) hall ha hb hepoch hrevision

end runs

/-! ## The contract -/

/-- What every interleaving from `start` keeps, at the world `w` it reaches. -/
structure ExactCurrent (store : CloseoutQueueStore) (start : World) (ls : List Event)
    (w : World) : Prop where
  /-- Members come from the persisted state, exact for the source captured for the read. -/
  reads : ∀ p found timestamp, w.phase p = .reading found →
    (store.readEffective w.file found timestamp).members ≠ [] ∨
      (store.readEffective w.file found timestamp).serviceCondition = .validBuilt →
    w.file = .state (store.readEffective w.file found timestamp) ∧
      (store.readEffective w.file found timestamp).Matches found ∧
      ∃ pre post t, ls = pre ++ .captureRead p :: post ∧
        Runs.run (step store) start pre = some t ∧ t.source = found
  /-- An admitted generation is the first ready member of that state. -/
  admissions : ∀ found timestamp generationId,
    store.requireFirstReadyGeneration w.file found timestamp generationId = .ok () →
    ∃ state first, w.file = .state state ∧ state.Matches found ∧
      (state.members.find? fun m => m.classification = .ready) = some first ∧
      first.generationId = generationId
  /-- A build is published from a source that is recaptured inside the lock. -/
  publications : ∀ p state recovers, w.phase p = .writing state recovers →
    state.serviceCondition = .validBuilt → Confirmed store start ls p state
  /-- After an invalidation only a publication lets an admission succeed. -/
  invalidations : ∀ pre event post u u', ls = pre ++ event :: post →
    Runs.run (step store) start pre = some u → step store u event = some u' →
    Invalidates store u event → ∀ found timestamp generationId,
    store.requireFirstReadyGeneration w.file found timestamp generationId = .ok () →
    ∃ before l after v, post = before ++ l :: after ∧
      Runs.run (step store) u' before = some v ∧ Publishes v l
  /-- Different member lists carry different revisions, up to a recovery. -/
  revisions : ∀ a ∈ w.persisted, ∀ b ∈ w.persisted, a.epoch = b.epoch →
    a.state.members ≠ b.state.members → a.state.revision ≠ b.state.revision

theorem only_exact_current_admits (store : CloseoutQueueStore) (file : StateFile)
    (source : ProjectionSourceIdentity) (ls : List Event) (w : World)
    (hrun : Runs.run (step store) (World.start file source) ls = some w) :
    ExactCurrent store (World.start file source) ls w where
  reads := by
    intro p found timestamp hphase hmembers
    obtain ⟨hfile, -, hmatches⟩ := store.readEffective_exact hmembers.symm
    exact ⟨hfile, hmatches, captured_source hrun hphase⟩
  admissions := by
    intro found timestamp generationId h
    obtain ⟨state, first, hfile, -, hrest⟩ := store.requireFirstReadyGeneration_ok h
    exact ⟨state, first, hfile, hrest⟩
  publications := fun p state recovers hphase hbuilt => confirmed_publication hrun hphase hbuilt
  invalidations := by
    rintro pre event post u u' rfl hu hstep hinv found timestamp generationId h
    obtain ⟨v, hv, hrest⟩ := Runs.run_append.mp hrun
    cases hu.symm.trans hv
    obtain ⟨v', hv', hpost⟩ := Runs.run_cons_eq_some.mp hrest
    cases hstep.symm.trans hv'
    exact published_since hstep hinv hpost (built_of_admitted h)
  revisions := by
    intro a ha b hb hepoch hmembers hrevision
    have hsame := persisted_unique (fenced_run hrun) ha hb hepoch hrevision
    exact hmembers (hsame ▸ rfl)

/-! ## Where the contract ends -/

/-- The store of one sprint, beside its task document. -/
def sprintStore : CloseoutQueueStore where
  sprintRef := ⟨"repo-a", "sprint/task.json"⟩
  statePath := "/coord/tasks/repo-a/sprint/artifacts/closeout-candidates.json"
  rebuildAction := "closeout_queue(action='rebuild')"

/-- A source with one ready door generation. -/
def oneDoor (fingerprint generationId : String) : ProjectionSourceIdentity where
  fingerprint := some fingerprint
  classification := some .active
  members := [{ generationId := generationId
                taskDocumentRef := ⟨"repo-a", "master/leaf.json"⟩
                owningMaster := ⟨"repo-a", "master/task.json"⟩
                contractPath := "/coord/tasks/repo-a/master/enclosures/leaf/contract.md"
                candidateTree := "aaaaaaaaaaaaaaaaaaaaaaaaaaaaaaaaaaaaaaaa"
                sourceDoorFingerprint := "cccccccc"
                classification := .ready
                priority := .normal
                order := 0 }]

/-- Invalidate, build and publish, as one process does it. -/
def refreshed (p : Nat) : List Event :=
  [.lockInvalidate p "now", .write p, .clear p, .capture p "now", .writeBuild p, .lockPublish p,
    .recapture p, .write p, .clear p]

theorem only_exact_current_admits_refreshed :
    ∃ w, Runs.run (step sprintStore) (World.start .missing (oneDoor "dd" "b1")) (refreshed 0) =
        some w ∧ w.file.Built sprintStore ∧
      ExactCurrent sprintStore (World.start .missing (oneDoor "dd" "b1")) (refreshed 0) w := by
  have hrun : ((Runs.run (step sprintStore) (World.start .missing (oneDoor "dd" "b1"))
      (refreshed 0)).map fun w => decide (w.file.Built sprintStore)) = some true := by
    decide +kernel
  obtain ⟨w, hw, hbuilt⟩ := Option.map_eq_some_iff.mp hrun
  exact ⟨w, hw, of_decide_eq_true hbuilt, only_exact_current_admits _ _ _ _ w hw⟩

/-- A malformed file is recovered to revision 0, so the next publication
repeats a revision; and a source that changes between its recapture and the
write is published all the same, though nothing admits from it. -/
theorem recovered_revision_repeats :
    (∃ w, Runs.run (step sprintStore) (World.start .missing (oneDoor "dd" "b1"))
        (refreshed 0 ++ [.corrupted .unreadable, .sourceChanged (oneDoor "ee" "b2")] ++
          refreshed 1) = some w ∧
      ∃ a ∈ w.persisted, ∃ b ∈ w.persisted,
        a.state.revision = b.state.revision ∧ a.state.members ≠ b.state.members) ∧
    (∃ w, Runs.run (step sprintStore) (World.start .missing (oneDoor "dd" "b1"))
        [.capture 0 "now", .writeBuild 0, .lockPublish 0, .recapture 0,
          .sourceChanged (oneDoor "ee" "b2"), .write 0] = some w ∧
      w.file.Built sprintStore ∧
      (sprintStore.readEffective w.file w.source "now").serviceCondition = .invalidEmpty) := by
  have hrepeat : ((Runs.run (step sprintStore) (World.start .missing (oneDoor "dd" "b1"))
      (refreshed 0 ++ [.corrupted .unreadable, .sourceChanged (oneDoor "ee" "b2")] ++
        refreshed 1)).map fun w => decide (∃ a ∈ w.persisted, ∃ b ∈ w.persisted,
        a.state.revision = b.state.revision ∧ a.state.members ≠ b.state.members)) =
      some true := by
    decide +kernel
  have hlate : ((Runs.run (step sprintStore) (World.start .missing (oneDoor "dd" "b1"))
      [.capture 0 "now", .writeBuild 0, .lockPublish 0, .recapture 0,
        .sourceChanged (oneDoor "ee" "b2"), .write 0]).map fun w =>
      decide (w.file.Built sprintStore ∧
        (sprintStore.readEffective w.file w.source "now").serviceCondition = .invalidEmpty)) =
      some true := by
    decide +kernel
  obtain ⟨w, hw, hp⟩ := Option.map_eq_some_iff.mp hrepeat
  obtain ⟨v, hv, hq⟩ := Option.map_eq_some_iff.mp hlate
  exact ⟨⟨w, hw, of_decide_eq_true hp⟩, v, hv, of_decide_eq_true hq⟩

end AgentsRemember.Queue
