import AgentsRemember.Projection.Store
import AgentsRemember.Foundation.Runs

/-!
# Projection — Stream

The projector publishes one projection a tick and queues the events between it
and the last for every subscriber; a subscriber gets the published projection
first, as a snapshot, and then its queue. A run interleaves publications with
the deliveries to one dashboard that opened on a fresh store.

What such a client ends with, once its queue is empty, is what the server has,
on every run whose publications all satisfy `Covered`, and on no other:
`served_iff_covered`. The comparison behind the deltas enumerates the parts of
a projection by hand, and the closeout queues are not among them.
-/

namespace AgentsRemember.Projection

/-! ## The projector -/

/-- The projector and what it published last. -/
structure Projector where
  seq : Nat := 0
  published : Option WorkspaceProjection := none
  latestStable : Option StableProjectionState := none
  cached : latestStable = published.map stableProjectionState := by rfl

/-- The projector after a first projection, before any tick. -/
def Projector.prime (first : WorkspaceProjection) : Projector where
  published := some first
  latestStable := some (stableProjectionState first)

/-- The events of one successful tick: a full snapshot when there was no
projection to diff. -/
def Projector.events (p : Projector) (current : WorkspaceProjection) : List DeltaEvent :=
  match p.published with
  | none => [⟨"snapshot", .projection current⟩]
  | some previous =>
    diffProjection (some previous) current p.latestStable (some (stableProjectionState current))

/-- A projection is published. -/
def Projector.publishProjection (p : Projector) (current : WorkspaceProjection) :
    Projector × List (Nat × DeltaEvent) :=
  let events := p.events current
  ({ seq := p.seq + events.length
     published := some current
     latestStable := some (stableProjectionState current) },
    (events.zipIdx (p.seq + 1)).map Prod.swap)

theorem Projector.events_eq (p : Projector) (current : WorkspaceProjection) :
    p.events current = match p.published with
      | none => [⟨"snapshot", .projection current⟩]
      | some previous => diffProjection (some previous) current := by
  unfold events
  cases h : p.published with
  | none => rfl
  | some previous =>
    have hcached := p.cached
    rw [h] at hcached
    simp only [hcached]
    rfl

/-- The sequence, and with it the revision served, is kept exactly by the
ticks that emit nothing. -/
theorem Projector.seq_publish_eq_iff (p : Projector) (current : WorkspaceProjection) :
    (p.publishProjection current).1.seq = p.seq ↔ p.events current = [] := by
  simp [publishProjection]

/-! ## One subscriber -/

/-- The projector, what is queued, and the client. -/
structure Channel where
  projector : Projector
  queue : List (Nat × DeltaEvent)
  client : DashboardState

/-- A fresh dashboard subscribes: the snapshot, if there is one, is the first
thing it will be given. -/
def subscribe (p : Projector) : Channel where
  projector := p
  queue := p.published.toList.map fun snapshot => (p.seq, ⟨"snapshot", .projection snapshot⟩)
  client := {}

/-- A publication or a delivery. -/
inductive Label where
  | publish (current : WorkspaceProjection)
  | deliver

/-- One step; none where nothing is queued. -/
def step (ch : Channel) : Label → Option Channel
  | .publish current =>
    let (projector, items) := ch.projector.publishProjection current
    some { ch with projector, queue := ch.queue ++ items }
  | .deliver =>
    match ch.queue with
    | [] => none
    | item :: queue => some { ch with queue, client := receive ch.client item.2 }

/-- The store of the client once it has taken everything queued for it. -/
def caughtUp (ch : Channel) : DashboardState := (ch.queue.map Prod.snd).foldl receive ch.client

theorem caughtUp_deliver {ch ch' : Channel} (h : step ch .deliver = some ch') :
    caughtUp ch' = caughtUp ch ∧ ch'.projector = ch.projector := by
  obtain ⟨projector, queue, client⟩ := ch
  cases queue with
  | nil => simp [step] at h
  | cons item queue =>
    simp only [step, Option.some.injEq] at h
    subst h
    exact ⟨rfl, rfl⟩

theorem caughtUp_publish {ch ch' : Channel} {current : WorkspaceProjection}
    (h : step ch (.publish current) = some ch') :
    caughtUp ch' = (ch.projector.events current).foldl receive (caughtUp ch) ∧
      ch'.projector.published = some current := by
  simp only [step, Option.some.injEq] at h
  subst h
  simp [caughtUp, Projector.publishProjection, List.foldl_append, Function.comp_def]

/-! ## What the deltas cover -/

/-- Between two projections the deltas cover every change: the closeout queues,
which no delta carries, are the same; no part differs by a boolean and the
number it is equal to, which the server's comparison cannot see; and where
nothing it compares changed, neither did what it does not compare. -/
structure Covered (prev cur : WorkspaceProjection) : Prop where
  queues : Same (prev.at .closeoutQueues) (cur.at .closeoutQueues)
  scalars : ∀ part, pySame (prev.at part) (cur.at part) = true →
    Same (prev.at part) (cur.at part)
  silent : (∀ part, pySame (prev.at part) (cur.at part) = true) →
    prev.version = cur.version ∧ prev.closeoutQueues.isSome = cur.closeoutQueues.isSome

theorem covered_iff {prev cur : WorkspaceProjection} : Covered prev cur ↔
    (∀ part, ¬Changed prev cur part → Same (prev.at part) (cur.at part)) ∧
      (diffProjection (some prev) cur = [] → SameContent prev cur) := by
  rw [diffProjection_eq_nil]
  constructor
  · intro h
    have hparts : ∀ part, ¬Changed prev cur part → Same (prev.at part) (cur.at part) := by
      intro part hpart
      by_cases hq : part = .closeoutQueues
      · rw [hq]
        exact h.queues
      · apply h.scalars
        simpa [Changed, hq] using hpart
    refine ⟨hparts, fun hnone => ?_⟩
    have hsame : ∀ part, Same (prev.at part) (cur.at part) := fun part => hparts part (hnone part)
    obtain ⟨hversion, hqueues⟩ := h.silent fun part => (hsame part).pySame
    exact ⟨hversion, hsame, hqueues⟩
  · rintro ⟨hparts, hsilent⟩
    have hseen : ∀ part, pySame (prev.at part) (cur.at part) = true → ¬Changed prev cur part := by
      intro part h hchanged
      rw [hchanged.2] at h
      exact Bool.false_ne_true h
    refine ⟨hparts _ fun h => h.1 rfl, fun part h => hparts part (hseen part h), fun h => ?_⟩
    have hcontent := hsilent fun part => hseen part (h part)
    exact ⟨hcontent.version, hcontent.queues⟩

/-! ## Runs -/

/-- Between the states of a step: a client that has taken its queue has what
the server has, and a publication without deltas changed no content. -/
structure Served (ch : Channel) (l : Label) (ch' : Channel) : Prop where
  synced : ∀ p, ch'.projector.published = some p → (caughtUp ch').Agrees p
  silent : ∀ prev cur, ch.projector.published = some prev → l = .publish cur →
    diffProjection (some prev) cur = [] → SameContent prev cur

/-- The step publishes only what the deltas cover. -/
def CoveredStep (ch : Channel) (l : Label) (_ : Channel) : Prop :=
  ∀ prev cur, ch.projector.published = some prev → l = .publish cur → Covered prev cur

/-- What the runs keep: a client that has taken its queue is still fresh, or
has what the server has. -/
structure Following (ch : Channel) : Prop where
  fresh : ch.projector.published = none → caughtUp ch = {}
  synced : ∀ p, ch.projector.published = some p → (caughtUp ch).Agrees p

theorem following_subscribe (p : Projector) : Following (subscribe p) := by
  constructor
  · intro h
    have h : p.published = none := h
    simp [caughtUp, subscribe, h]
  · intro q h
    have h : p.published = some q := h
    simp only [caughtUp, subscribe, h, Option.toList_some, List.map_cons, List.map_nil,
      List.foldl_cons, List.foldl_nil]
    exact fresh_applySnapshot q

theorem coveredStep_iff {ch ch' : Channel} {l : Label} (hch : Following ch)
    (h : step ch l = some ch') : CoveredStep ch l ch' ↔ Served ch l ch' := by
  cases l with
  | deliver =>
    obtain ⟨hcaught, hproj⟩ := caughtUp_deliver h
    constructor
    · intro _
      refine ⟨fun p hp => ?_, fun _ _ _ hl => by cases hl⟩
      rw [hcaught]
      exact hch.synced p (hproj ▸ hp)
    · intro _ prev cur _ hl
      cases hl
  | publish cur =>
    obtain ⟨hcaught, hpub⟩ := caughtUp_publish h
    cases hprev : ch.projector.published with
    | none =>
      -- a recovered projector sends a whole snapshot, to a store that is still fresh
      have hagrees : (caughtUp ch').Agrees cur := by
        rw [hcaught, Projector.events_eq, hprev, hch.fresh hprev]
        exact fresh_applySnapshot cur
      constructor
      · intro _
        refine ⟨fun p hp => ?_, fun prev _ hp => by simp [hprev] at hp⟩
        obtain rfl : cur = p := by simpa [hpub] using hp
        exact hagrees
      · intro _ prev _ hp
        simp [hprev] at hp
    | some prev =>
      rw [Projector.events_eq, hprev] at hcaught
      have hagrees : (caughtUp ch').Agrees cur ↔
          ∀ part, ¬Changed prev cur part → Same (prev.at part) (cur.at part) := by
        rw [hcaught]
        exact receive_all_agrees_iff (hch.synced prev hprev)
      constructor
      · intro hcov
        obtain ⟨hparts, hsilent⟩ := covered_iff.mp (hcov prev cur hprev rfl)
        refine ⟨fun p hp => ?_, fun q c hq hl hnil => ?_⟩
        · obtain rfl : cur = p := by simpa [hpub] using hp
          exact hagrees.mpr hparts
        · obtain rfl : prev = q := by simpa [hprev] using hq
          cases hl
          exact hsilent hnil
      · intro hserved q c hq hl
        obtain rfl : prev = q := by simpa [hprev] using hq
        cases hl
        exact covered_iff.mpr ⟨hagrees.mp (hserved.synced cur hpub),
          hserved.silent prev cur hprev rfl⟩

theorem Following.step {ch ch' : Channel} {l : Label} (hch : Following ch)
    (h : step ch l = some ch') (hcov : CoveredStep ch l ch') : Following ch' := by
  refine ⟨fun hnone => ?_, ((coveredStep_iff hch h).mp hcov).synced⟩
  cases l with
  | deliver =>
    obtain ⟨hcaught, hproj⟩ := caughtUp_deliver h
    rw [hcaught]
    exact hch.fresh (hproj ▸ hnone)
  | publish cur =>
    rw [(caughtUp_publish h).2] at hnone
    cases hnone

/-- On every run of the projector, a dashboard that subscribed to it holds, once
it has taken every event sent to it, what the server would send it afresh, and
silence means that nothing changed, exactly when the deltas of every
publication cover what changed. -/
theorem served_iff_covered (p : Projector) (ls : List Label) :
    Runs.Along step CoveredStep (subscribe p) ls ↔ Runs.Along step Served (subscribe p) ls :=
  Runs.along_iff_along (fun _ _ _ => Following.step) (fun _ _ _ => coveredStep_iff)
    (following_subscribe p)

/-! ## A queue that moves on its own -/

/-- A workspace whose one closeout queue is in the given state. -/
def queueProjection (state generatedAt : String) : WorkspaceProjection where
  generatedAt
  closeoutQueues := some [.entry "serviceCondition" (.str state)]
  metrics := .entry "lifecycleCount" (.str "0")
  analytics := .entry "series" (.list [])

/-- Between two ticks only the closeout queue changes: no delta is emitted, and
the dashboard keeps the queue of its snapshot. -/
theorem queue_change_unsent :
    diffProjection (some (queueProjection "invalid-empty" "10:00"))
      (queueProjection "valid-built" "10:01") = [] ∧
    ¬Runs.Along step Served (subscribe (.prime (queueProjection "invalid-empty" "10:00")))
      [.publish (queueProjection "valid-built" "10:01")] := by
  have hdiff : diffProjection (some (queueProjection "invalid-empty" "10:00"))
      (queueProjection "valid-built" "10:01") = [] := rfl
  refine ⟨hdiff, fun h => ?_⟩
  have hsame := ((h _ rfl).1.silent _ _ rfl rfl hdiff).parts .closeoutQueues
  revert hsame
  decide

end AgentsRemember.Projection
