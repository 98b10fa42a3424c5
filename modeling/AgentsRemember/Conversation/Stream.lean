import AgentsRemember.Conversation.Replica
import AgentsRemember.Foundation.Runs

/-!
# Conversation — Stream

The mutation stream of a session: one sequence counter for the envelopes of all
its subscribers and for the gap markers, a bounded retention from which a
subscriber is caught up, and one bounded queue a subscriber.

A `Connection` is a subscription together with its client: the retained
envelopes it was given at the start, its queue, and what the client took from
there. The client stops at the end marker, or behind a gap. What goes to one
queue does not depend on the others, apart from the gap marker, which is minted
once for all the queues that are full: so the set of subscribers is a flag.
-/

namespace AgentsRemember.Conversation

/-- The cap on the retained envelopes. -/
def retentionLimit : Nat := 1000

/-- The cap on a subscriber's queue. -/
def subscriberQueueLimit : Nat := 256

/-- One numbered mutation. -/
structure Envelope (δ σ : Type) where
  cursor : EventCursor
  previousCursor : EventCursor
  sequence : Nat
  eventId : String
  emittedAt : String
  mutation : ConversationMutation δ σ

/-- What a queue holds. -/
inductive Message (δ σ : Type) where
  | envelope (e : Envelope δ σ)
  | close

/-- The counter and what is retained. -/
structure MutationStream (δ σ : Type) where
  generation : String
  sequence : Nat := 0
  retention : List (Envelope δ σ) := []
  retentionFloor : Nat := 0

/-- A subscription and its client. -/
structure Connection (δ σ : Type) where
  after : Nat
  since : Nat
  replay : List (Envelope δ σ)
  queue : List (Message δ σ) := []
  taken : List (Envelope δ σ) := []
  subscribed : Bool := true
  ended : Bool := false

/-- The stream and its connections. -/
structure World (δ σ : Type) where
  stream : MutationStream δ σ
  connections : List (Connection δ σ) := []

variable {δ σ : Type}

namespace MutationStream

/-- The cursor of a number. -/
def eventCursor (s : MutationStream δ σ) (sequence : Nat) : EventCursor :=
  ⟨s.generation, sequence⟩

/-- The stream with the next number taken, and the envelope that has it. -/
def stamp (s : MutationStream δ σ) (emittedAt : String)
    (mutation : EventCursor → ConversationMutation δ σ) : MutationStream δ σ × Envelope δ σ :=
  let sequence := s.sequence + 1
  let predecessor := s.eventCursor (sequence - 1)
  ({ s with sequence := sequence },
    { cursor := s.eventCursor sequence
      previousCursor := predecessor
      sequence := sequence
      eventId := s.generation ++ ":" ++ toString sequence
      emittedAt := emittedAt
      mutation := mutation predecessor })

/-- The next envelope. -/
def mintEnvelope (s : MutationStream δ σ) (emittedAt : String)
    (mutation : ConversationMutation δ σ) : MutationStream δ σ × Envelope δ σ :=
  s.stamp emittedAt fun _ => mutation

/-- The next envelope, a gap marker. -/
def gapEnvelope (s : MutationStream δ σ) (emittedAt : String) (reason : GapReason) :
    MutationStream δ σ × Envelope δ σ :=
  s.stamp emittedAt fun predecessor => .gap predecessor reason

/-- The envelope retained, the oldest dropped. -/
def retain (s : MutationStream δ σ) (envelope : Envelope δ σ) : MutationStream δ σ :=
  let retention := s.retention ++ [envelope]
  if retentionLimit < retention.length then
    { s with
      retention := retention.tail
      retentionFloor := (retention.tail.head?.map fun oldest => oldest.sequence - 1).getD 0 }
  else { s with retention := retention }

/-- The retained envelopes behind a number. -/
def retainedAfter (s : MutationStream δ σ) (sequence : Nat) : List (Envelope δ σ) :=
  s.retention.filter fun envelope => sequence < envelope.sequence

end MutationStream

/-! ## Queues -/

/-- The queue has no room. -/
def full (queue : List (Message δ σ)) : Bool := subscriberQueueLimit ≤ queue.length

/-- `put_nowait`: nothing where the queue is full. -/
def offer (queue : List (Message δ σ)) (item : Message δ σ) : List (Message δ σ) :=
  if full queue then queue else queue ++ [item]

/-- A full queue loses its head to make room. -/
def offerEvicting (queue : List (Message δ σ)) (item : Message δ σ) : List (Message δ σ) :=
  if full queue then queue.tail ++ [item] else queue ++ [item]

namespace Connection

/-- The envelope, for a subscriber that has room. -/
def deliver (envelope : Envelope δ σ) (c : Connection δ σ) : Connection δ σ :=
  if c.subscribed then { c with queue := offer c.queue (.envelope envelope) } else c

/-- The envelope for a subscriber that has room; the gap, the end and nothing
after it for one that has not. -/
def deliverOrDrop (envelope gap : Envelope δ σ) (c : Connection δ σ) : Connection δ σ :=
  if c.subscribed ∧ full c.queue then
    { c with
      queue := offerEvicting (offerEvicting c.queue (.envelope gap)) .close
      subscribed := false }
  else c.deliver envelope

/-- The last messages of a subscription. -/
def hangUp (messages : List (Message δ σ)) (c : Connection δ σ) : Connection δ σ :=
  if c.subscribed then
    { c with queue := messages.foldl offer c.queue, subscribed := false }
  else c

/-- The client takes one message. -/
def read (c : Connection δ σ) : Option (Connection δ σ) :=
  if c.ended then none
  else
    match c.queue with
    | [] => none
    | .close :: queue => some { c with queue := queue, subscribed := false, ended := true }
    | .envelope e :: queue =>
      match e.mutation with
      | .gap _ _ =>
        some { c with
          queue := queue, taken := c.taken ++ [e], subscribed := false, ended := true }
      | _ => some { c with queue := queue, taken := c.taken ++ [e] }

/-- What the client has read: the retained envelopes, then its queue's. -/
def got (c : Connection δ σ) : List (Envelope δ σ) := c.replay ++ c.taken

end Connection

namespace World

/-- A subscribed queue is full. -/
def overflows (w : World δ σ) : Bool :=
  w.connections.any fun c => c.subscribed && full c.queue

/-- An envelope to every queue, or the gap marker to the full ones. -/
def publish (w : World δ σ) (emittedAt : String) (envelope : Envelope δ σ) : World δ σ :=
  let stream := w.stream.retain envelope
  if w.overflows then
    let (stream, gap) := stream.gapEnvelope emittedAt .retentionOverflow
    { stream := stream.retain gap
      connections := w.connections.map (Connection.deliverOrDrop envelope gap) }
  else
    { stream := stream, connections := w.connections.map (Connection.deliver envelope) }

/-- A mutation, numbered and published. -/
def emit (w : World δ σ) (emittedAt : String) (mutation : ConversationMutation δ σ) : World δ σ :=
  let (stream, envelope) := w.stream.mintEnvelope emittedAt mutation
  publish { w with stream := stream } emittedAt envelope

/-- A subscription from a cursor that the retention still reaches. -/
def subscribe (w : World δ σ) (after : Nat) : Option (World δ σ) :=
  if after < w.stream.retentionFloor then none
  else
    some { w with connections := w.connections ++
      [{ after := after, since := w.stream.sequence, replay := w.stream.retainedAfter after }] }

/-- A gap, announced to all. -/
def gap (w : World δ σ) (emittedAt : String) (reason : GapReason) : World δ σ :=
  let (stream, envelope) := w.stream.gapEnvelope emittedAt reason
  { stream := stream.retain envelope
    connections := w.connections.map (Connection.hangUp [.envelope envelope, .close]) }

/-- The end marker to all. -/
def closeSubscribers (w : World δ σ) : World δ σ :=
  { w with connections := w.connections.map (Connection.hangUp [.close]) }

end World

/-! ## Steps -/

/-- The steps of a stream. -/
inductive StreamAct (δ σ : Type) where
  | emit (emittedAt : String) (mutation : StoreMutation δ)
  | emitStatus (emittedAt : String) (status : σ)
  | subscribe (after : Nat)
  | unsubscribe (client : Nat)
  | read (client : Nat)
  | gap (emittedAt : String) (reason : GapReason)
  | closeSubscribers

/-- One step. -/
def streamStep (w : World δ σ) : StreamAct δ σ → Option (World δ σ)
  | .emit emittedAt mutation => some (w.emit emittedAt (conversationMutation mutation))
  | .emitStatus emittedAt status => some (w.emit emittedAt (.status status))
  | .subscribe after => w.subscribe after
  | .unsubscribe client => (w.connections[client]?).map fun c =>
    { w with connections := w.connections.set client { c with subscribed := false } }
  | .read client => (w.connections[client]?).bind fun c => c.read.map fun c' =>
    { w with connections := w.connections.set client c' }
  | .gap emittedAt reason => some (w.gap emittedAt reason)
  | .closeSubscribers => some w.closeSubscribers

/-- A fresh stream that nobody reads. -/
def World.start (generation : String) : World δ σ := { stream := { generation := generation } }

end AgentsRemember.Conversation
