/-!
# Conversation — Echo

The zipper of a harness whose user messages come as transcript echoes, apart
from its evidence frames. Frames wait in a queue. An echo opens the next turn:
the frames up to the result of the turn before it are applied first, and at the
end of a poll those of the turn that is open.

What applying means is a parameter, the `Sink`: it takes an echo, a frame, and
the moves of the transcript watermark.
-/

namespace AgentsRemember.Conversation

/-- The cap on one evidence page. -/
def evidencePageLimit : Nat := 500

/-- `type` and `state` are what the raw frame says under these keys, when it is
text; `raw` is the rest of it. -/
structure EvidenceFrame (ρ : Type) where
  sequence : Nat
  type : Option String
  state : Option String := none
  threadId : Option String := none
  createdAt : String := ""
  evidenceTruncated : Bool := false
  originalBytes : Option Nat := none
  raw : ρ

/-- A transcript entry. `sequence` is missing when it is not an integer. -/
structure TranscriptEntry (ε : Type) where
  sequence : Option Nat
  role : Option String
  raw : ε

/-- What applying an echo, a frame or a watermark does. -/
structure Sink (ρ ε τ : Type) where
  echo : TranscriptEntry ε → τ → τ
  frame : EvidenceFrame ρ → τ → τ
  advance : Nat → τ → τ

/-- The queue of frames, the flag of an open turn, and the watermark. -/
structure EchoIngestion (ρ : Type) where
  transcriptAfter : Nat := 0
  pendingFrames : List (EvidenceFrame ρ) := []
  turnOpen : Bool := false

variable {ρ ε τ : Type}

/-- The frame ends its turn. -/
def EvidenceFrame.isResult (frame : EvidenceFrame ρ) : Bool := frame.type == some "result"

/-- The frame begins the body of a turn. -/
def opensTurnBody (frame : EvidenceFrame ρ) : Bool :=
  frame.type == some "assistant" || frame.type == some "user" ||
    (frame.type == some "command_lifecycle" &&
      (frame.state == some "queued" || frame.state == some "started"))

/-- The entry is a user message. -/
def TranscriptEntry.isUser (entry : TranscriptEntry ε) : Bool := entry.role == some "user"

namespace EchoIngestion

/-- One frame more in the queue. -/
def enqueue (s : EchoIngestion ρ) (frame : EvidenceFrame ρ) : EchoIngestion ρ :=
  { s with pendingFrames := s.pendingFrames ++ [frame] }

/-- The watermark stays where it is. -/
def reset (s : EchoIngestion ρ) : EchoIngestion ρ :=
  { s with pendingFrames := [], turnOpen := false }

variable (sink : Sink ρ ε τ)

/-- Apply queued frames up to the next result; whether one was reached. -/
def drainOneTurnBody : List (EvidenceFrame ρ) → τ → List (EvidenceFrame ρ) × τ × Bool
  | [], t => ([], t, false)
  | frame :: pending, t =>
    if frame.isResult then (pending, sink.frame frame t, true)
    else drainOneTurnBody pending (sink.frame frame t)

/-- The watermark moves to a numbered entry. -/
def advance (entry : TranscriptEntry ε) (s : EchoIngestion ρ) (t : τ) : EchoIngestion ρ × τ :=
  match entry.sequence with
  | some sequence => ({ s with transcriptAfter := sequence }, sink.advance sequence t)
  | none => (s, t)

/-- An echo closes the turn before it and opens its own. -/
def zipEntry (entry : TranscriptEntry ε) (s : EchoIngestion ρ) (t : τ) : EchoIngestion ρ × τ :=
  if entry.isUser then
    let (s, t) :=
      if s.turnOpen then
        let (pending, t, _) := drainOneTurnBody sink s.pendingFrames t
        ({ s with pendingFrames := pending, turnOpen := false }, t)
      else (s, t)
    advance sink entry { s with turnOpen := true } (sink.echo entry t)
  else advance sink entry s t

/-- The entries one after the other. -/
def zipEntries : List (TranscriptEntry ε) → EchoIngestion ρ → τ → EchoIngestion ρ × τ
  | [], s, t => (s, t)
  | entry :: entries, s, t =>
    let (s, t) := zipEntry sink entry s t
    zipEntries entries s t

/-- The flush of the bodies whose echoes are gone: `count` results, or all there
is when there is no echo at all. -/
def flushBodies (all : Bool) : Nat → List (EvidenceFrame ρ) → τ → List (EvidenceFrame ρ) × τ
  | _, [], t => ([], t)
  | count, frame :: pending, t =>
    if count = 0 ∧ ¬all then (frame :: pending, t)
    else flushBodies all (if frame.isResult then count - 1 else count) pending
      (sink.frame frame t)

/-- The echoes without a body, in front: they are applied at once. -/
def applyOrphans : Nat → List (TranscriptEntry ε) → EchoIngestion ρ → τ →
    List (TranscriptEntry ε) × EchoIngestion ρ × τ
  | _, [], s, t => ([], s, t)
  | orphans, entry :: entries, s, t =>
    if entry.isUser ∧ orphans ≠ 0 then
      let (s, t) := advance sink entry s (sink.echo entry t)
      applyOrphans (orphans - 1) entries s t
    else
      let (kept, s, t) := applyOrphans orphans entries s t
      (entry :: kept, s, t)

/-- The results among the frames. -/
def resultCount (frames : List (EvidenceFrame ρ)) : Nat := frames.countP EvidenceFrame.isResult

/-- The frames behind the last result. -/
def trailing (frames : List (EvidenceFrame ρ)) : List (EvidenceFrame ρ) :=
  (frames.reverse.takeWhile fun frame => !frame.isResult).reverse

/-- The bodies in a window, the open one included. -/
def bodyCount (frames : List (EvidenceFrame ρ)) : Nat :=
  resultCount frames + if (trailing frames).any opensTurnBody then 1 else 0

/-- The echoes whose bodies were evicted are applied ahead of the others. -/
def realignEvicted (entries : List (TranscriptEntry ε)) (s : EchoIngestion ρ) (t : τ) :
    List (TranscriptEntry ε) × EchoIngestion ρ × τ :=
  let echoCount := entries.countP TranscriptEntry.isUser
  let bodies := bodyCount s.pendingFrames
  if echoCount ≤ bodies then
    let (pending, t) := flushBodies sink (echoCount = 0) (bodies - echoCount) s.pendingFrames t
    (entries, { s with pendingFrames := pending }, t)
  else applyOrphans sink (echoCount - bodies) entries s t

/-- The pages behind a full first one, until one is not full. -/
def readRetained (read : Nat → List (TranscriptEntry ε)) :
    Nat → List (TranscriptEntry ε) → List (TranscriptEntry ε) → List (TranscriptEntry ε)
  | 0, entries, _ => entries
  | fuel + 1, entries, page =>
    if page.length = evidencePageLimit then
      match entries.getLast?.bind TranscriptEntry.sequence with
      | none => entries
      | some last => readRetained read fuel (entries ++ read last) (read last)
    else entries

/-- One poll over the entries it has read. -/
def zipPage (hydrated windowComplete : Bool) (entries : List (TranscriptEntry ε))
    (s : EchoIngestion ρ) (t : τ) : EchoIngestion ρ × τ :=
  let (entries, s, t) :=
    if !hydrated && !windowComplete then realignEvicted sink entries s t else (entries, s, t)
  let (s, t) := zipEntries sink entries s t
  let (pending, t, closed) := drainOneTurnBody sink s.pendingFrames t
  ({ s with pendingFrames := pending, turnOpen := s.turnOpen && !closed }, t)

end EchoIngestion

end AgentsRemember.Conversation
