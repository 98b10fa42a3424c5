import AgentsRemember.Conversation.Native
import AgentsRemember.Conversation.Turns

/-!
# Conversation — Rebuild

One rebuild of a projector that is not hydrated yet: reset the components, then
read the snapshot, the native pages, the evidence, the transcript, the native
continuation, the provenance of the inputs, and the snapshot again.

Every read may raise. An attempt returns the projector as the failing read has
left it, and the next attempt starts from there.
-/

namespace AgentsRemember.Conversation

/-! ## What is read -/

/-- The evidence buffer of the bridge: what is evicted makes room for a frame. -/
structure EvidenceWindow (ρ : Type) where
  frames : List (EvidenceFrame ρ)
  evictedBeforeSequence : Nat := 0
  frameBytes : EvidenceFrame ρ → Nat := fun _ => 0
  byteBudget : Nat := 48 * 1024
  increasing : frames.Pairwise fun a b => a.sequence < b.sequence
  positive : ∀ frame ∈ frames, 0 < frame.sequence
  evicted : 0 < evictedBeforeSequence → frames ≠ []

/-- The transcript as it is retained. -/
structure Transcript (ε : Type) where
  entries : List (TranscriptEntry ε)
  numbered : ∀ entry ∈ entries, entry.sequence = some entry.position
  increasing : entries.Pairwise fun a b => a.position < b.position
  positive : ∀ entry ∈ entries, 0 < entry.position

/-- What the bridge keeps by position. -/
structure Retained (ρ ε : Type) where
  window : EvidenceWindow ρ
  transcript : Transcript ε

/-- What a rebuild reads from. -/
structure Bridge (ρ ε ν : Type) where
  retained : Retained ρ ε
  nativePages : List (List (NativeEvidenceFrame ν)) := []
  snapshot : AdapterSnapshot := {}
  provenance : String → Option SubmissionSource := fun _ => none

/-- A page of the evidence window. -/
structure EvidencePage (ρ : Type) where
  frames : List (EvidenceFrame ρ)
  latestSequence : Nat
  evictedBeforeSequence : Nat
  truncated : Bool

/-- The cursor of a native page is its number; `none` is the first one. -/
structure NativePage (ν : Type) where
  frames : List (NativeEvidenceFrame ν)
  nextCursor : Option Nat
  truncated : Bool

section reading
variable {ρ ε ν : Type}

namespace EvidenceWindow

/-- As many frames as the limit and the byte budget allow, but at least one. -/
def fill (w : EvidenceWindow ρ) : Nat → Nat → List (EvidenceFrame ρ) →
    List (EvidenceFrame ρ) × Bool
  | _, _, [] => ([], false)
  | count, used, frame :: frames =>
    if evidencePageLimit ≤ count ∨ (count ≠ 0 ∧ w.byteBudget < used + w.frameBytes frame) then
      ([], true)
    else
      let (page, truncated) := w.fill (count + 1) (used + w.frameBytes frame) frames
      (frame :: page, truncated)

/-- The frames behind a sequence. -/
def unread (w : EvidenceWindow ρ) (after : Nat) : List (EvidenceFrame ρ) :=
  w.frames.filter fun frame => after < frame.sequence

/-- As many frames as a page holds. -/
def page (w : EvidenceWindow ρ) (after : Nat) : EvidencePage ρ :=
  let (frames, truncated) := w.fill 0 0 (w.unread after)
  { frames := frames
    latestSequence := ((w.frames.map EvidenceFrame.sequence).getLast?).getD 0
    evictedBeforeSequence := w.evictedBeforeSequence
    truncated := truncated }

end EvidenceWindow

/-- The entries behind a position, at most a page of them. -/
def Transcript.page (t : Transcript ε) (after : Nat) : List (TranscriptEntry ε) :=
  (t.entries.filter fun entry => after < entry.position).take evidencePageLimit

/-- A native page and the cursor of the next. -/
def Bridge.nativePage (b : Bridge ρ ε ν) (cursor : Option Nat) : NativePage ν :=
  let number := cursor.getD 0
  { frames := (b.nativePages[number]?).getD []
    nextCursor := if number + 1 < b.nativePages.length then some (number + 1) else none
    truncated := number + 1 < b.nativePages.length }

end reading

/-! ## Failures -/

/-- The reads of a rebuild; the pages of one channel are counted. -/
inductive Read where
  | firstSnapshot
  | nativePage (number : Nat)
  | evidencePage (number : Nat)
  | transcriptPage (number : Nat)
  | continuationPage (number : Nat)
  | provenance
  | lastSnapshot
deriving DecidableEq

/-- The read that raises, and whether it raises a `HarnessControlError`. -/
structure Fault where
  read : Read
  control : Bool := true
deriving DecidableEq

/-! ## The projector -/

/-- Where the reading of evidence and native pages stands. -/
structure NativeEvidenceIngestion where
  evidenceAfter : Nat := 0
  evidenceWindowComplete : Bool := true
  nativeCursor : Option Nat := none
  nativeComplete : Bool := false
  nativeDirty : Bool := false
  knownEvictionFloor : Nat := 0
  liveTurnIds : Buckets := []
  liveRequestIds : Buckets := []

/-- Watermarks, cursor and flags stay. -/
def NativeEvidenceIngestion.reset (n : NativeEvidenceIngestion) : NativeEvidenceIngestion :=
  { n with liveTurnIds := [], liveRequestIds := [] }

/-- The projector of a session. -/
structure Projector (ρ δ : Type) where
  spine : Spine δ := {}
  native : NativeEvidenceIngestion := {}
  echo : EchoIngestion ρ := {}
  interactions : InteractionProjection := {}

/-- The cap on the requests that are asked at once. -/
def maxProvenanceBatch : Nat := 64

namespace Projector
variable {ρ ε ν δ : Type}

/-- A projector that has never been hydrated. -/
def start (session : Session) : Projector ρ δ :=
  { native := { nativeComplete := !session.harness.usesNativePages } }

/-- The components, emptied. -/
def reset (s : Projector ρ δ) : Projector ρ δ where
  spine := { store := {}, agents := s.spine.agents.reset }
  native := s.native.reset
  echo := s.echo.reset
  interactions := {}

/-- The snapshot, replaced. -/
def setSnapshot (snapshot : AdapterSnapshot) (s : Projector ρ δ) : Projector ρ δ :=
  { s with spine := { s.spine with agents := s.spine.agents.setSnapshot snapshot } }

/-- A read: when it raises, the attempt ends with the projector as it is. -/
def reads (fault : Option Fault) (read : Read) (s : Projector ρ δ) :
    Except (Projector ρ δ) Unit :=
  if fault.map Fault.read = some read then .error s else .ok ()

section
variable [BEq δ] (session : Session) (mapper : Mapper ρ ε ν δ) (bridge : Bridge ρ ε ν)
  (fault : Option Fault)

/-! ### Native pages -/

/-- The outputs of a native frame into the store. -/
def applyNative (outputs : List (MapperOutput δ)) (nativeId : String) (s : Projector ρ δ) :
    Projector ρ δ :=
  { s with spine :=
      s.spine.applyOutputs outputs (ProjectionEvidenceRefs.native session nativeId) }

/-- One frame of the history. -/
def walkFrame (acc : Projector ρ δ × List String) (frame : NativeEvidenceFrame ν) :
    Projector ρ δ × List String :=
  let (s, liveNativeTurns) := acc
  let ref := ProjectionEvidenceRefs.native session frame.nativeId
  let (kept, liveNativeTurns) := suppressLiveTwins
    ((s.native.liveTurnIds.lookup none).getD []) ((s.native.liveRequestIds.lookup none).getD [])
    (mapNativeFrame session mapper frame ref s.spine.agents) liveNativeTurns
  (s.applyNative session kept frame.nativeId, liveNativeTurns)

/-- A control error ends the walk, and not the rebuild. -/
def walkPages : Nat → Nat → List String → Projector ρ δ → Except (Projector ρ δ) (Projector ρ δ)
  | 0, _, _, s => .ok s
  | fuel + 1, number, liveNativeTurns, s =>
    if fault = some ⟨.nativePage number, true⟩ then
      .ok { s with native := { s.native with nativeComplete := false, nativeCursor := none } }
    else do
      s.reads fault (.nativePage number)
      let page := bridge.nativePage s.native.nativeCursor
      let (s, liveNativeTurns) := page.frames.foldl (walkFrame session mapper) (s, liveNativeTurns)
      let s := { s with native := { s.native with nativeCursor := page.nextCursor } }
      if (page.nextCursor.isNone ∧ !page.truncated) ∨ page.frames.isEmpty then
        .ok { s with native := { s.native with nativeComplete := true } }
      else walkPages fuel (number + 1) liveNativeTurns s

/-- The history, page by page. -/
def walkParentHistory (s : Projector ρ δ) : Except (Projector ρ δ) (Projector ρ δ) :=
  walkPages session mapper bridge fault (bridge.nativePages.length + 1) 0 []
    { s with native := { s.native with nativeCursor := none } }

/-! ### Evidence -/

/-- The turns and requests seen live. -/
def recordLiveTurn (outputs : List (MapperOutput δ)) (bucket : Option String)
    (n : NativeEvidenceIngestion) : NativeEvidenceIngestion :=
  { n with
    liveTurnIds := addTo n.liveTurnIds bucket (liveTurns outputs)
    liveRequestIds := addTo n.liveRequestIds bucket (liveRequests outputs) }

/-- A frame goes to the queue or into the store. -/
def consumeFrame (s : Projector ρ δ) (frame : EvidenceFrame ρ) : Projector ρ δ :=
  if session.harness.usesTranscriptEcho then { s with echo := s.echo.enqueue frame }
  else
    let ref := ProjectionEvidenceRefs.evidence session frame.sequence
    let outputs := (mapEvidenceFrame session mapper frame ref s.spine.agents).1
    { s with
      native :=
        if session.harness.usesNativePages ∧ !session.harness.eagerNativeContinuation then
          { recordLiveTurn outputs (frameThread session frame) s.native with nativeDirty := true }
        else s.native
      spine := s.spine.applyFrame session mapper frame }

/-- A frame, and the position behind it. -/
def consume (s : Projector ρ δ) (frame : EvidenceFrame ρ) : Projector ρ δ :=
  let s := consumeFrame session mapper s frame
  { s with native := { s.native with evidenceAfter := frame.sequence } }

/-- What an eviction says of the window. -/
def noteEviction (evictedBeforeSequence : Nat) (s : Projector ρ δ) : Projector ρ δ :=
  { s with native := { s.native with
      evidenceWindowComplete := s.native.evidenceWindowComplete && evictedBeforeSequence = 0
      knownEvictionFloor := max s.native.knownEvictionFloor evictedBeforeSequence } }

/-- The polls of a rebuild: the faults of a hydrated timeline are not raised here. -/
def pollEvidence : Nat → Nat → Projector ρ δ → Except (Projector ρ δ) (Projector ρ δ)
  | 0, _, s => .ok s
  | fuel + 1, number, s => do
    s.reads fault (.evidencePage number)
    let page := bridge.retained.window.page s.native.evidenceAfter
    let s := page.frames.foldl (consume session mapper) (s.noteEviction page.evictedBeforeSequence)
    let caughtUp := page.frames.isEmpty ∨ page.latestSequence ≤ s.native.evidenceAfter
    if (!page.truncated ∧ caughtUp) ∨ page.frames.isEmpty then .ok s
    else pollEvidence fuel (number + 1) s

/-! ### Echoes -/

/-- The pages behind a full first one. -/
def readRetained (s : Projector ρ δ) : Nat → Nat → List (TranscriptEntry ε) →
    List (TranscriptEntry ε) → Except (Projector ρ δ) (List (TranscriptEntry ε))
  | 0, _, entries, _ => .ok entries
  | fuel + 1, number, entries, page =>
    if page.length = evidencePageLimit then
      match entries.getLast?.bind TranscriptEntry.sequence with
      | none => .ok entries
      | some last => do
        s.reads fault (.transcriptPage number)
        let page := bridge.retained.transcript.page last
        readRetained s fuel (number + 1) (entries ++ page) page
    else .ok entries

/-- The transcript behind its watermark. -/
def pollEcho (s : Projector ρ δ) : Except (Projector ρ δ) (Projector ρ δ) :=
  if session.harness.usesTranscriptEcho then do
    s.reads fault (.transcriptPage 0)
    let first := bridge.retained.transcript.page s.echo.transcriptAfter
    let entries ← readRetained bridge fault s
      (bridge.retained.transcript.entries.length + 1) 1 first first
    let (echo, spine) := EchoIngestion.zipPage (Spine.sink session mapper) false
      s.native.evidenceWindowComplete entries s.echo s.spine
    .ok { s with echo := echo, spine := spine }
  else .ok s

/-! ### Native continuation -/

/-- One frame of the native continuation. -/
def continueFrame (s : Projector ρ δ) (frame : NativeEvidenceFrame ν) : Projector ρ δ :=
  let ref := ProjectionEvidenceRefs.native session frame.nativeId
  s.applyNative session (mapNativeFrame session mapper frame ref s.spine.agents) frame.nativeId

/-- The native pages behind the cursor. -/
def continuePages : Nat → Nat → Projector ρ δ → Except (Projector ρ δ) (Projector ρ δ)
  | 0, _, s => .ok s
  | fuel + 1, number, s => do
    s.reads fault (.continuationPage number)
    let page := bridge.nativePage s.native.nativeCursor
    if page.frames.isEmpty then
      .ok { s with native := { s.native with nativeComplete := true } }
    else
      let s := page.frames.foldl (continueFrame session mapper) s
      let s := { s with native := { s.native with nativeCursor := page.nextCursor } }
      if page.nextCursor.isNone then
        .ok { s with native := { s.native with nativeComplete := true } }
      else continuePages fuel (number + 1) s

/-- The native continuation, where the harness has one. -/
def pollNativeContinuation (s : Projector ρ δ) : Except (Projector ρ δ) (Projector ρ δ) :=
  if session.harness.eagerNativeContinuation then
    continuePages session mapper bridge fault (bridge.nativePages.length + 1) 0 s
  else .ok s

/-! ### Provenance -/

/-- The producers of the inputs that still wait. -/
def resolveProvenance (s : Projector ρ δ) : Except (Projector ρ δ) (Projector ρ δ) :=
  let pending := s.spine.store.pendingRequestIds.take maxProvenanceBatch
  if pending.isEmpty then .ok s
  else do
    s.reads fault .provenance
    let store := pending.foldl (fun store requestId =>
      (store.applyProvenance requestId (bridge.provenance requestId)).1) s.spine.store
    .ok { s with spine := { s.spine with store := store } }

/-! ### The rebuild -/

/-- Every channel in its order. -/
def pollChannels (s : Projector ρ δ) : Except (Projector ρ δ) (Projector ρ δ) := do
  let s ← pollEvidence session mapper bridge fault
    (bridge.retained.window.frames.length + 1) 0 s
  let s ← pollEcho session mapper bridge fault s
  let s ← pollNativeContinuation session mapper bridge fault s
  resolveProvenance bridge fault s

/-- The snapshot at the end. -/
def finish (s : Projector ρ δ) : Except (Projector ρ δ) (Projector ρ δ) := do
  s.reads fault .lastSnapshot
  let (interactions, spine) := s.interactions.apply session bridge.snapshot s.spine
  .ok (setSnapshot bridge.snapshot { s with interactions := interactions, spine := spine })

/-- `_rebuild`: from empty components to a whole projection. -/
def rebuild (s : Projector ρ δ) : Except (Projector ρ δ) (Projector ρ δ) := do
  let s := s.reset
  s.reads fault .firstSnapshot
  let s := s.setSnapshot bridge.snapshot
  let s ← if session.harness.usesNativePages then
      walkParentHistory session mapper bridge fault s
    else .ok s
  let s ← pollChannels session mapper bridge fault s
  finish session bridge fault s

end

/-- The projected items, in order. -/
def items (s : Projector ρ δ) : List (Item δ) := s.spine.store.view

end Projector

end AgentsRemember.Conversation
