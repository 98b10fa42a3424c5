import AgentsRemember.Conversation.Stream

/-!
# Conversation — Continuity

What one client reads, in every state of every run in which no envelope meets a
full queue: envelopes one behind the other, from the position the client set
out from, whatever the other clients do.

An overflow breaks it on both sides. The full queue loses its head and is not
given the envelope, and the gap marker takes a number that the clients with
room never see.
-/

namespace AgentsRemember.Conversation

variable {δ σ : Type}

/-- Each envelope names the one before it, and has the next number. -/
def Chained (es : List (Envelope δ σ)) : Prop :=
  es.IsChain fun a b => b.previousCursor = a.cursor ∧ b.sequence = a.sequence + 1

instance (es : List (Envelope δ σ)) : Decidable (Chained es) :=
  inferInstanceAs (Decidable (es.IsChain _))

/-- What the client has read is a chain, and begins behind its cursor (behind
the end of the stream, if the cursor lay beyond it). -/
structure Continuous (c : Connection δ σ) : Prop where
  chained : Chained c.got
  first : ∀ e ∈ c.got.head?, e.sequence = min c.after c.since + 1

/-- The step publishes no envelope while a subscriber's queue is full. -/
def NoOverflow (w : World δ σ) : StreamAct δ σ → World δ σ → Prop
  | .emit _ _, _ | .emitStatus _ _, _ => w.overflows = false
  | _, _ => True

instance (w : World δ σ) (act : StreamAct δ σ) (w' : World δ σ) :
    Decidable (NoOverflow w act w') := by
  unfold NoOverflow
  cases act <;> infer_instance

/-! ## Consecutive envelopes -/

/-- The cursors of an envelope go with its number. -/
structure Stamped (generation : String) (e : Envelope δ σ) : Prop where
  cursor : e.cursor = ⟨generation, e.sequence⟩
  previousCursor : e.previousCursor = ⟨generation, e.sequence - 1⟩

/-- The envelopes `base + 1` to `top`, in order. -/
structure Consecutive (generation : String) (es : List (Envelope δ σ)) (base top : Nat) :
    Prop where
  sequences : es.map Envelope.sequence = List.range' (base + 1) (top - base)
  stamped : ∀ e ∈ es, Stamped generation e
  base_le : base ≤ top

namespace Consecutive

variable {g : String} {es : List (Envelope δ σ)} {base top : Nat}

theorem nil (g : String) (base : Nat) :
    Consecutive g ([] : List (Envelope δ σ)) base base := ⟨by simp, by simp, Nat.le_refl _⟩

theorem snoc (h : Consecutive g es base top) {e : Envelope δ σ} (he : Stamped g e)
    (hseq : e.sequence = top + 1) : Consecutive g (es ++ [e]) base (top + 1) where
  sequences := by
    have hle := h.base_le
    rw [List.map_append, h.sequences, show top + 1 - base = top - base + 1 by omega,
      List.range'_concat]
    simp only [List.map_cons, List.map_nil, hseq, Nat.one_mul]
    rw [show base + 1 + (top - base) = top + 1 by omega]
  stamped := by
    intro x hx
    rcases List.mem_append.mp hx with hx | hx
    · exact h.stamped x hx
    · rw [List.mem_singleton.mp hx]
      exact he
  base_le := Nat.le_succ_of_le h.base_le

theorem length (h : Consecutive g es base top) : es.length = top - base := by
  simpa using congrArg List.length h.sequences

theorem tail (h : Consecutive g es base top) (hlt : base < top) :
    Consecutive g es.tail (base + 1) top where
  sequences := by
    rw [List.map_tail, h.sequences, List.tail_range']
    congr 1
  stamped := fun x hx => h.stamped x (List.mem_of_mem_tail hx)
  base_le := hlt

theorem head (h : Consecutive g es base top) {e : Envelope δ σ} {rest : List (Envelope δ σ)}
    (hes : es = e :: rest) : e.sequence = base + 1 := by
  have hseq := h.sequences
  rw [hes, List.map_cons] at hseq
  cases hn : top - base with
  | zero =>
    rw [hn] at hseq
    simp at hseq
  | succ n =>
    rw [hn, List.range'_succ] at hseq
    exact (List.cons.inj hseq).1

/-- What is left of them behind a position is consecutive. -/
theorem filter_after (h : Consecutive g es base top) {after : Nat} (hle : base ≤ after) :
    Consecutive g (es.filter fun e => after < e.sequence) (min after top) top := by
  induction es generalizing base with
  | nil =>
    have hlen := h.length
    have hbase := h.base_le
    have htop : min after top = top := by
      simp only [List.length_nil] at hlen
      omega
    rw [htop]
    exact nil g top
  | cons e es ih =>
    have hlen := h.length
    have hseq := h.head rfl
    have hlt : base < top := by
      simp only [List.length_cons] at hlen
      omega
    by_cases hafter : after = base
    · -- nothing is in front of the position
      have hall : (e :: es).filter (fun e => decide (after < e.sequence)) = e :: es := by
        rw [List.filter_eq_self]
        intro x hx
        have hmem : x.sequence ∈ (e :: es).map Envelope.sequence := List.mem_map.mpr ⟨x, hx, rfl⟩
        rw [h.sequences, List.mem_range'_1] at hmem
        simp only [decide_eq_true_eq]
        omega
      rw [hall, show min after top = base by omega]
      exact h
    · have hskip : decide (after < e.sequence) = false := by
        simp only [decide_eq_false_iff_not]
        omega
      rw [List.filter_cons_of_neg (by simp [hskip])]
      exact ih (h.tail hlt) (by omega)

/-- Consecutive envelopes are a chain. -/
theorem chained (h : Consecutive g es base top) : Chained es := by
  induction es generalizing base with
  | nil => exact .nil
  | cons a es ih =>
    have hlt : base < top := by
      have hlen := h.length
      simp only [List.length_cons] at hlen
      omega
    have htail : Consecutive g es (base + 1) top := h.tail hlt
    cases es with
    | nil => exact .singleton _
    | cons b es =>
      have ha := h.head rfl
      have hb := htail.head rfl
      refine List.isChain_cons_cons.mpr ⟨⟨?_, by omega⟩, ih htail⟩
      rw [(h.stamped b (by simp)).previousCursor, (h.stamped a (by simp)).cursor, hb, ha]
      rfl

/-- A front part of consecutive envelopes. -/
theorem of_append {es' : List (Envelope δ σ)} (h : Consecutive g (es ++ es') base top) :
    Consecutive g es base (base + es.length) where
  sequences := by
    have hseq := congrArg (List.take es.length) h.sequences
    have hlen := h.length
    rw [List.length_append] at hlen
    rw [← List.map_take, List.take_left, List.take_range'_of_length_ge (by omega)] at hseq
    rw [hseq, show base + es.length - base = es.length by omega]
  stamped := fun x hx => h.stamped x (List.mem_append_left _ hx)
  base_le := Nat.le_add_right _ _

end Consecutive

/-! ## The stream -/

theorem stamped_stamp (s : MutationStream δ σ) (emittedAt : String)
    (mutation : EventCursor → ConversationMutation δ σ) :
    Stamped s.generation (s.stamp emittedAt mutation).2 ∧
      (s.stamp emittedAt mutation).2.sequence = s.sequence + 1 := ⟨⟨rfl, rfl⟩, rfl⟩

/-- The retention holds all the envelopes behind its floor. -/
def Retains (s : MutationStream δ σ) : Prop :=
  Consecutive s.generation s.retention s.retentionFloor s.sequence

@[simp] theorem retain_sequence (s : MutationStream δ σ) (e : Envelope δ σ) :
    (s.retain e).sequence = s.sequence := by
  unfold MutationStream.retain
  dsimp only
  split <;> rfl

@[simp] theorem retain_generation (s : MutationStream δ σ) (e : Envelope δ σ) :
    (s.retain e).generation = s.generation := by
  unfold MutationStream.retain
  dsimp only
  split <;> rfl

theorem consecutive_retain {g : String} {s : MutationStream δ σ} {top : Nat}
    (h : Consecutive g s.retention s.retentionFloor top) {e : Envelope δ σ} (he : Stamped g e)
    (hseq : e.sequence = top + 1) :
    Consecutive g (s.retain e).retention (s.retain e).retentionFloor (top + 1) := by
  have hall := h.snoc he hseq
  have hlen := hall.length
  unfold MutationStream.retain
  dsimp only
  split
  · rename_i hlong
    have hlong' : 1000 < (s.retention ++ [e]).length := hlong
    have htail := hall.tail (by omega)
    have htail_len := htail.length
    cases hrest : (s.retention ++ [e]).tail with
    | nil =>
      rw [hrest] at htail_len
      simp only [List.length_nil] at htail_len
      omega
    | cons oldest rest =>
      rw [hrest] at htail
      have hfloor : oldest.sequence - 1 = s.retentionFloor + 1 := by
        have := htail.head rfl
        omega
      simpa [hfloor] using htail
  · exact hall

theorem retain_of_short {s : MutationStream δ σ} (h : s.retention.length < 1000)
    (e : Envelope δ σ) : s.retain e = { s with retention := s.retention ++ [e] } := by
  unfold MutationStream.retain
  dsimp only
  rw [if_neg]
  rw [List.length_append, List.length_singleton]
  show ¬1000 < _
  omega

theorem retains_retain {s : MutationStream δ σ} (h : Retains s) (emittedAt : String)
    (mutation : EventCursor → ConversationMutation δ σ) :
    Retains ((s.stamp emittedAt mutation).1.retain (s.stamp emittedAt mutation).2) := by
  obtain ⟨hstamped, hseq⟩ := stamped_stamp s emittedAt mutation
  unfold Retains
  rw [retain_generation, retain_sequence]
  -- taking the number leaves the retention as it was
  exact consecutive_retain (s := (s.stamp emittedAt mutation).1) h hstamped hseq

/-! ## The connections -/

/-- The envelopes of a queue. -/
def envelopes (queue : List (Message δ σ)) : List (Envelope δ σ) :=
  queue.filterMap fun
    | .envelope e => some e
    | .close => none

/-- What was read and what is queued is consecutive, up to the end of the
stream for a subscriber. -/
structure Flow (generation : String) (sequence : Nat) (c : Connection δ σ) : Prop where
  flow : ∃ top, Consecutive generation (c.got ++ envelopes c.queue) (min c.after c.since) top ∧
    (c.subscribed → top = sequence)

/-- The invariant of every run without overflow. -/
structure Flowing (w : World δ σ) : Prop where
  retains : Retains w.stream
  flow : ∀ c ∈ w.connections, Flow w.stream.generation w.stream.sequence c

theorem Flow.continuous {g : String} {sequence : Nat} {c : Connection δ σ}
    (h : Flow g sequence c) : Continuous c := by
  obtain ⟨top, hall, -⟩ := h.flow
  have hgot := hall.of_append
  refine ⟨hgot.chained, ?_⟩
  intro e he
  cases hes : c.got with
  | nil => simp [hes] at he
  | cons a rest =>
    rw [hes, List.head?_cons, Option.mem_some] at he
    rw [← he]
    exact hgot.head hes

theorem envelopes_offer {queue : List (Message δ σ)} (item : Message δ σ)
    (h : full queue = false) : envelopes (offer queue item) = envelopes queue ++ envelopes [item] := by
  simp [offer, h, envelopes, List.filterMap_append]

theorem offer_cases (queue : List (Message δ σ)) (item : Message δ σ) :
    envelopes (offer queue item) = envelopes queue ∨
      envelopes (offer queue item) = envelopes queue ++ envelopes [item] := by
  unfold offer
  split
  · exact .inl rfl
  · exact .inr (by simp [envelopes, List.filterMap_append])

section connection
variable {g : String} {sequence : Nat} {c : Connection δ σ}

/-- A client that is not subscribed is not touched by the stream going on. -/
theorem Flow.idle (h : Flow g sequence c) (hc : c.subscribed = false) (sequence' : Nat) :
    Flow g sequence' c := by
  obtain ⟨top, hall, -⟩ := h.flow
  exact ⟨top, hall, by simp [hc]⟩

theorem Flow.deliver (h : Flow g sequence c) {e : Envelope δ σ} (he : Stamped g e)
    (hseq : e.sequence = sequence + 1) (hroom : (c.subscribed && full c.queue) = false) :
    Flow g (sequence + 1) (c.deliver e) := by
  unfold Connection.deliver
  by_cases hsub : c.subscribed
  · rw [if_pos hsub]
    have hfull : full c.queue = false := by simpa [hsub] using hroom
    obtain ⟨top, hall, htop⟩ := h.flow
    refine ⟨sequence + 1, ?_, fun _ => rfl⟩
    show Consecutive g (c.got ++ envelopes (offer c.queue (.envelope e))) _ _
    rw [envelopes_offer _ hfull, ← List.append_assoc]
    rw [htop hsub] at hall
    exact hall.snoc he hseq
  · rw [if_neg hsub]
    exact h.idle (by simpa using hsub) _

theorem Flow.hangUp_close (h : Flow g sequence c) (sequence' : Nat) :
    Flow g sequence' (c.hangUp [.close]) := by
  unfold Connection.hangUp
  by_cases hsub : c.subscribed
  · rw [if_pos hsub]
    obtain ⟨top, hall, -⟩ := h.flow
    refine ⟨top, ?_, by simp⟩
    show Consecutive g (c.got ++ envelopes (offer c.queue .close)) _ _
    rcases offer_cases c.queue .close with ho | ho <;> rw [ho]
    · exact hall
    · simpa [envelopes] using hall
  · rw [if_neg hsub]
    exact h.idle (by simpa using hsub) _

theorem Flow.hangUp_gap (h : Flow g sequence c) {e : Envelope δ σ} (he : Stamped g e)
    (hseq : e.sequence = sequence + 1) :
    Flow g (sequence + 1) (c.hangUp [.envelope e, .close]) := by
  by_cases hsub : c.subscribed
  · -- the marker is delivered or dropped, and the end after it
    have hmarked : ∃ top, Consecutive g (c.got ++ envelopes (offer c.queue (.envelope e)))
        (min c.after c.since) top := by
      obtain ⟨top, hall, htop⟩ := h.flow
      rcases offer_cases c.queue (.envelope e) with ho | ho <;> rw [ho]
      · exact ⟨top, hall⟩
      · rw [← List.append_assoc]
        rw [htop hsub] at hall
        exact ⟨sequence + 1, hall.snoc he hseq⟩
    obtain ⟨top, hall⟩ := hmarked
    unfold Connection.hangUp
    rw [if_pos hsub]
    refine ⟨top, ?_, by simp⟩
    show Consecutive g (c.got ++ envelopes (offer (offer c.queue (.envelope e)) .close)) _ _
    rcases offer_cases (offer c.queue (.envelope e)) .close with ho | ho <;> rw [ho]
    · exact hall
    · simpa [envelopes] using hall
  · unfold Connection.hangUp
    rw [if_neg hsub]
    exact h.idle (by simpa using hsub) _

theorem Flow.read (h : Flow g sequence c) {c' : Connection δ σ} (hread : c.read = some c') :
    Flow g sequence c' := by
  obtain ⟨top, hall, htop⟩ := h.flow
  unfold Connection.read at hread
  split at hread
  · cases hread
  · split at hread
    · cases hread
    · rename_i queue hq
      cases hread
      refine ⟨top, ?_, by simp⟩
      simpa [hq, envelopes, Connection.got] using hall
    · rename_i e queue hq
      have hsame : c.got ++ envelopes c.queue = c.replay ++ (c.taken ++ [e]) ++ envelopes queue := by
        simp [hq, envelopes, Connection.got]
      rw [hsame] at hall
      split at hread
      · cases hread
        exact ⟨top, hall, by simp⟩
      · cases hread
        exact ⟨top, hall, htop⟩

end connection

/-! ## The steps -/

theorem flowing_start (generation : String) :
    Flowing (World.start generation : World δ σ) := ⟨Consecutive.nil _ _, by simp [World.start]⟩

theorem flowing_set {w : World δ σ} (h : Flowing w) {client : Nat} {c : Connection δ σ}
    (hc : Flow w.stream.generation w.stream.sequence c) :
    Flowing { w with connections := w.connections.set client c } := by
  refine ⟨h.retains, fun x hx => ?_⟩
  rcases List.mem_or_eq_of_mem_set hx with hx | rfl
  · exact h.flow x hx
  · exact hc

/-- Where every subscriber has room, an envelope is retained and delivered. -/
theorem emit_of_room {w : World δ σ} (hroom : w.overflows = false) (emittedAt : String)
    (mutation : ConversationMutation δ σ) :
    w.emit emittedAt mutation =
      { stream := (w.stream.mintEnvelope emittedAt mutation).1.retain
          (w.stream.mintEnvelope emittedAt mutation).2
        connections := w.connections.map
          (Connection.deliver (w.stream.mintEnvelope emittedAt mutation).2) } := by
  unfold World.emit World.publish
  dsimp only
  have hroom' : World.overflows { w with
      stream := (w.stream.mintEnvelope emittedAt mutation).1 } = false := hroom
  rw [hroom']
  rfl

theorem flowing_emit {w : World δ σ} (h : Flowing w) (hroom : w.overflows = false)
    (emittedAt : String) (mutation : ConversationMutation δ σ) :
    Flowing (w.emit emittedAt mutation) := by
  obtain ⟨hstamped, hseq⟩ := stamped_stamp w.stream emittedAt fun _ => mutation
  rw [emit_of_room hroom]
  refine ⟨retains_retain h.retains emittedAt fun _ => mutation, ?_⟩
  intro c hc
  obtain ⟨c₀, hc₀, rfl⟩ := List.mem_map.mp hc
  rw [retain_generation, retain_sequence]
  apply (h.flow c₀ hc₀).deliver hstamped hseq
  simpa using List.any_eq_false.mp hroom c₀ hc₀

theorem flowing_gap {w : World δ σ} (h : Flowing w) (emittedAt : String) (reason : GapReason) :
    Flowing (w.gap emittedAt reason) := by
  obtain ⟨hstamped, hseq⟩ := stamped_stamp w.stream emittedAt
    (fun predecessor => (.gap predecessor reason : ConversationMutation δ σ))
  refine ⟨retains_retain h.retains emittedAt fun predecessor => .gap predecessor reason, ?_⟩
  intro c hc
  obtain ⟨c₀, hc₀, rfl⟩ := List.mem_map.mp hc
  show Flow (MutationStream.retain _ _).generation (MutationStream.retain _ _).sequence _
  rw [retain_generation, retain_sequence]
  exact (h.flow c₀ hc₀).hangUp_gap hstamped hseq

theorem flowing_subscribe {w w' : World δ σ} (h : Flowing w) {after : Nat}
    (hw : w.subscribe after = some w') : Flowing w' := by
  unfold World.subscribe at hw
  split at hw
  · cases hw
  · rename_i hfloor
    cases hw
    refine ⟨h.retains, fun c hc => ?_⟩
    rcases List.mem_append.mp hc with hc | hc
    · exact h.flow c hc
    · rw [List.mem_singleton.mp hc]
      refine ⟨w.stream.sequence, ?_, fun _ => rfl⟩
      simpa [Connection.got, envelopes, MutationStream.retainedAfter] using
        @Consecutive.filter_after _ _ _ _ _ _ h.retains after (by omega)

theorem flowing_step {w w' : World δ σ} {act : StreamAct δ σ} (h : Flowing w)
    (hstep : streamStep w act = some w') (hroom : NoOverflow w act w') : Flowing w' := by
  cases act with
  | emit emittedAt mutation =>
    cases hstep
    exact flowing_emit h hroom emittedAt _
  | emitStatus emittedAt status =>
    cases hstep
    exact flowing_emit h hroom emittedAt _
  | subscribe after => exact flowing_subscribe h hstep
  | unsubscribe client =>
    obtain ⟨c, hc, rfl⟩ := Option.map_eq_some_iff.mp hstep
    obtain ⟨top, hall, -⟩ := (h.flow c (List.mem_of_getElem? hc)).flow
    exact flowing_set h ⟨top, hall, by simp⟩
  | read client =>
    obtain ⟨c, hc, hread⟩ := Option.bind_eq_some_iff.mp hstep
    obtain ⟨c', hc', rfl⟩ := Option.map_eq_some_iff.mp hread
    exact flowing_set h ((h.flow c (List.mem_of_getElem? hc)).read hc')
  | gap emittedAt reason =>
    cases hstep
    exact flowing_gap h emittedAt reason
  | closeSubscribers =>
    cases hstep
    refine ⟨h.retains, fun c hc => ?_⟩
    obtain ⟨c₀, hc₀, rfl⟩ := List.mem_map.mp hc
    exact (h.flow c₀ hc₀).hangUp_close _

/-- In every state of a run that never overflows a queue, what every client has
read is continuous. -/
theorem stream_continuous (generation : String) {acts : List (StreamAct δ σ)}
    (hroom : Runs.Along streamStep NoOverflow (World.start generation) acts) :
    Runs.Always streamStep (fun w => ∀ c ∈ w.connections, Continuous c)
      (World.start generation) acts := by
  apply Runs.Along.always (I := Flowing) _ _ (flowing_start _) hroom
  · exact fun _ _ _ => flowing_step
  · intro w hw c hc
    exact (hw.flow c hc).continuous

/-! ## An overflow -/

/-- The envelope behind the first `n`. -/
def numbered (n : Nat) : Envelope Unit Unit :=
  (({ generation := "g", sequence := n } : MutationStream Unit Unit).mintEnvelope "now"
    (.status ())).2

/-- A client has not read the `n` envelopes that came since it subscribed. -/
def idle (n : Nat) : World Unit Unit where
  stream :=
    { generation := "g", sequence := n, retention := (List.range n).map numbered }
  connections :=
    [{ after := 0, since := 0, replay := []
       queue := ((List.range n).map numbered).map .envelope }]

theorem emit_idle {n : Nat} (hn : n < 256) : (idle n).emit "now" (.status ()) = idle (n + 1) := by
  have hfull : full (((List.range n).map numbered).map
      (Message.envelope : Envelope Unit Unit → Message Unit Unit)) = false := by
    simp only [full, List.length_map, List.length_range, decide_eq_false_iff_not]
    show ¬256 ≤ n
    omega
  have hrange : (List.range (n + 1)).map numbered = (List.range n).map numbered ++ [numbered n] := by
    rw [List.range_succ, List.map_append]
    rfl
  have hshort : (((idle n).stream.mintEnvelope "now" (.status ())).1).retention.length < 1000 := by
    show ((List.range n).map numbered).length < 1000
    rw [List.length_map, List.length_range]
    omega
  rw [emit_of_room (by simp only [World.overflows, idle, List.any_cons, List.any_nil, hfull]; rfl),
    retain_of_short hshort]
  unfold idle
  rw [hrange, List.map_append]
  simp only [List.map_cons, List.map_nil, Connection.deliver, if_true, offer, hfull]
  rfl

theorem run_idle {n : Nat} (hn : n ≤ 256) :
    Runs.run streamStep (idle 0) (List.replicate n (.emitStatus "now" ())) = some (idle n) := by
  induction n with
  | zero => rfl
  | succ n ih =>
    rw [List.replicate_succ']
    refine Runs.run_append.mpr ⟨idle n, ih (by omega), ?_⟩
    show some ((idle n).emit "now" (.status ())) = _
    rw [emit_idle (by omega)]

/-- A second client comes and keeps up with what is sent. -/
def busy : List (StreamAct Unit Unit) :=
  [.subscribe 256, .emitStatus "now" (), .read 1, .emitStatus "now" (), .read 1]

/-- The marker for the full queue leaves a hole in what the other client reads. -/
theorem overflow_opens_hole :
    ¬Runs.Always streamStep (fun w => ∀ c ∈ w.connections, Continuous c)
      (World.start "g") (.subscribe 0 :: List.replicate 256 (.emitStatus "now" ()) ++ busy) := by
  intro h
  have hhole : (Runs.run streamStep (idle 256) busy).any fun w =>
      w.connections.any (fun c => !decide (Chained c.got)) := by
    decide +kernel
  obtain ⟨w, hw, hbad⟩ := (Option.any_eq_true _ _).mp hhole
  obtain ⟨c, hc, hbad⟩ := List.any_eq_true.mp hbad
  have hrun : Runs.run streamStep (World.start "g")
      (.subscribe 0 :: List.replicate 256 (.emitStatus "now" ()) ++ busy) = some w :=
    Runs.run_append.mpr
      ⟨idle 256, Runs.run_cons_eq_some.mpr ⟨idle 0, rfl, run_idle (Nat.le_refl _)⟩, hw⟩
  have := (h.at_end hrun c hc).chained
  simp [this] at hbad

theorem quiet_stream_continuous :
    Runs.Always streamStep (fun w => ∀ c ∈ w.connections, Continuous c)
      (World.start "g" : World Unit Unit)
      [.emitStatus "now" (), .subscribe 0, .subscribe 1, .emitStatus "now" (), .read 0, .read 0,
        .gap "now" .orderingFault, .read 1, .read 1] :=
  stream_continuous "g" (by decide +kernel)

end AgentsRemember.Conversation
