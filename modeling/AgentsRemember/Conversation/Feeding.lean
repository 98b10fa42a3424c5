import AgentsRemember.Conversation.Replica

/-!
# Conversation — Feeding

One item under the calls of its store: what a call does to it is a function of
the item alone once it is there, and its first appearance takes in the deltas
that waited for it. Items are compared without the fields that count their
changes (`core`).
-/

namespace AgentsRemember.Conversation

deriving instance ReflBEq, LawfulBEq for Lane, Source, Role, Strength, Producer, Kind, Phase,
  AgentStatus, AltProvenance
deriving instance ReflBEq, LawfulBEq for ProvenanceEvidence, Correlation, AgentRef, ChoiceOption
deriving instance ReflBEq, LawfulBEq for Content
deriving instance ReflBEq, LawfulBEq for Block
deriving instance ReflBEq, LawfulBEq for Item

variable {δ : Type}

/-- An item without its revision, its ordinal and its times. -/
def core (item : Item δ) : Item δ :=
  { item with revision := 0, globalOrdinal := 0, createdAt := none, updatedAt := none }

/-- What happens to one item: another version of it, a delta, a verdict. -/
inductive ItemEvent (δ : Type) where
  | version (candidate : Item δ)
  | delta (mapped : MappedBlockDelta)
  | resolve (source : SubmissionSource)

namespace ProjectionStore

/-- A version, taken in by the item that is there. -/
def absorb (existing candidate : Item δ) : Item δ :=
  preservedInputAuthority existing (merged existing candidate)

/-- A delta's text, in a block that is there or in a new one. -/
def streamed (item : Item δ) (blockId delta : String) : Item δ :=
  if hasBlock item blockId then appendDelta item blockId delta
  else mintBlockWithText item blockId delta

/-- What one call does to an item. -/
def turn (item : Item δ) : ItemEvent δ → Item δ
  | .version candidate => absorb item candidate
  | .delta mapped => streamed item (targetBlock item mapped.blockId) mapped.delta
  | .resolve source => resolved item source

/-- The backlog of an item, on top of its first version. -/
def flushed (item : Item δ) (authoritative : List String) (pending : List MappedBlockDelta) :
    Item δ :=
  pending.foldl (fun item mapped =>
    if targetBlock item mapped.blockId ∈ authoritative then item
    else streamed item (targetBlock item mapped.blockId) mapped.delta) item

/-! ## Cores -/

theorem core_streamed (item : Item δ) (blockId delta : String) :
    core (streamed (core item) blockId delta) = core (streamed item blockId delta) := by
  unfold streamed
  rw [show hasBlock (core item) blockId = hasBlock item blockId from rfl]
  split <;> rfl

theorem core_turn (item : Item δ) (event : ItemEvent δ) :
    core (turn (core item) event) = core (turn item event) := by
  cases event with
  | version candidate => rfl
  | delta mapped => exact core_streamed item _ mapped.delta
  | resolve source => rfl

theorem turn_congr {x y : Item δ} (h : core x = core y) (event : ItemEvent δ) :
    core (turn x event) = core (turn y event) := by
  rw [← core_turn x, ← core_turn y, h]

theorem foldl_turn_congr {x y : Item δ} (h : core x = core y) (events : List (ItemEvent δ)) :
    core (events.foldl turn x) = core (events.foldl turn y) := by
  induction events generalizing x y with
  | nil => exact h
  | cons event events ih => exact ih (turn_congr h event)

theorem core_flushed_congr {x y : Item δ} (h : core x = core y) (authoritative : List String)
    (pending : List MappedBlockDelta) :
    core (flushed x authoritative pending) = core (flushed y authoritative pending) := by
  induction pending generalizing x y with
  | nil => exact h
  | cons mapped pending ih =>
    have htarget : targetBlock x mapped.blockId = targetBlock y mapped.blockId := by
      rw [show targetBlock x mapped.blockId = targetBlock (core x) mapped.blockId from rfl, h]
      rfl
    unfold flushed
    rw [List.foldl_cons, List.foldl_cons, htarget]
    split
    · exact ih h
    · refine ih ?_
      rw [← core_streamed x, ← core_streamed y, h]

theorem core_eq_of_normalized {x y : Item δ} (h : normalized x = normalized y)
    (hprovenance : x.provenance = y.provenance) : core x = core y := by
  obtain ⟨⟩ := x
  obtain ⟨⟩ := y
  simp only [normalized, core, Item.mk.injEq] at h hprovenance ⊢
  grind

theorem absorb_provenance (existing candidate : Item δ) :
    (absorb existing candidate).provenance = existing.provenance := by
  unfold absorb preservedInputAuthority
  split <;> rfl

theorem core_upserted (existing candidate : Item δ) :
    core (upserted existing (merged existing candidate)) = core (absorb existing candidate) := by
  unfold upserted absorb preservedInputAuthority
  split <;> rfl

theorem streamed_itemId (item : Item δ) (blockId delta : String) :
    (streamed item blockId delta).itemId = item.itemId := by
  unfold streamed
  split <;> rfl

/-! ## The other items -/

theorem get_put_of_ne (s : ProjectionStore δ) {item : Item δ} {itemId : String}
    (hne : item.itemId ≠ itemId) : (s.put item).get itemId = s.get itemId := by
  rw [get_put, if_neg hne]

theorem applyDeltaTo_items (s : ProjectionStore δ) (item : Item δ) (blockId delta : String) :
    (s.applyDeltaTo item blockId delta).1 = s.put (streamed item blockId delta) := by
  unfold applyDeltaTo streamed
  split <;> rfl

theorem get_trackProvenance (s : ProjectionStore δ) (item : Item δ) (itemId : String) :
    (s.trackProvenance item).get itemId = s.get itemId := by
  unfold get
  rw [trackProvenance_items]

/-- A backlog changes the item it is for, delta by delta, and no other. -/
theorem get_flush {s : ProjectionStore δ} {itemId : String} {item : Item δ}
    (hget : s.get itemId = some item) (hid : item.itemId = itemId) (authoritative : List String)
    (pending : List MappedBlockDelta) :
    (flush itemId authoritative pending s).1.get itemId =
        some (flushed item authoritative pending) ∧
      ∀ other, other ≠ itemId →
        (flush itemId authoritative pending s).1.get other = s.get other := by
  induction pending generalizing s item with
  | nil => exact ⟨hget, fun _ _ => rfl⟩
  | cons mapped pending ih =>
    unfold flush flushed
    rw [hget, List.foldl_cons]
    dsimp only
    split
    · exact ih hget hid
    · rw [applyDeltaTo_items]
      have hid' := (streamed_itemId item (targetBlock item mapped.blockId) mapped.delta).trans hid
      have hself : (s.put (streamed item (targetBlock item mapped.blockId) mapped.delta)).get
          itemId = some (streamed item (targetBlock item mapped.blockId) mapped.delta) := by
        rw [get_put, if_pos hid']
      obtain ⟨hthis, hother⟩ := ih hself hid'
      refine ⟨hthis, fun other hne => ?_⟩
      rw [hother other hne, get_put_of_ne]
      rw [hid']
      exact Ne.symm hne

theorem get_flushPendingDeltas {s : ProjectionStore δ} {itemId : String} {item : Item δ}
    (hget : s.get itemId = some item) (hid : item.itemId = itemId) (authoritative : List String) :
    (s.flushPendingDeltas itemId authoritative).1.get itemId =
        some (flushed item authoritative ((s.pendingDeltas.lookup itemId).getD [])) ∧
      ∀ other, other ≠ itemId →
        (s.flushPendingDeltas itemId authoritative).1.get other = s.get other := by
  let t : ProjectionStore δ := { s with pendingDeltas := Keyed.erase s.pendingDeltas itemId }
  have ht : t.get itemId = some item := hget
  exact get_flush ht hid authoritative _

/-- What settling an item leaves of it and of the others. -/
theorem get_settle (s : ProjectionStore δ) (item : Item δ) (authoritative : List String) :
    (((s.put item).trackProvenance item).flushPendingDeltas item.itemId authoritative).1.get
          item.itemId =
        some (flushed item authoritative ((s.pendingDeltas.lookup item.itemId).getD [])) ∧
      ∀ other, other ≠ item.itemId →
        (((s.put item).trackProvenance item).flushPendingDeltas item.itemId authoritative).1.get
          other = s.get other := by
  have hget : ((s.put item).trackProvenance item).get item.itemId = some item := by
    rw [get_trackProvenance, get_put_self]
  obtain ⟨hthis, hother⟩ := get_flushPendingDeltas hget rfl authoritative
  rw [trackProvenance_pendingDeltas, put_pendingDeltas] at hthis
  refine ⟨hthis, fun other hne => ?_⟩
  rw [hother other hne, get_trackProvenance, get_put_of_ne]
  exact Ne.symm hne

/-! ## One item -/

/-- The item a verdict is for: the first that waits for the request. -/
def awaiting (s : ProjectionStore δ) (requestId : String) : Option String :=
  (s.provenancePending.find? fun e => e.2 = requestId).map Prod.fst

theorem exists_awaited {s : ProjectionStore δ} (hs : Stored s) {requestId itemId : String}
    (h : s.awaiting requestId = some itemId) : ∃ item, s.get itemId = some item := by
  obtain ⟨e, hfind, rfl⟩ := Option.map_eq_some_iff.mp h
  exact Option.isSome_iff_exists.mp (hs.tracked e (List.mem_of_find?_eq_some hfind))

/-- A verdict for a request that nothing waits for. -/
theorem applyProvenance_idle {s : ProjectionStore δ} {requestId : String}
    {source : Option SubmissionSource} (h : s.awaiting requestId = none) :
    s.applyProvenance requestId source =
      ({ s with provenanceDone := s.provenanceDone ++ [requestId] }, []) := by
  rw [awaiting, Option.map_eq_none_iff] at h
  unfold applyProvenance
  dsimp only
  rw [h]
  cases source <;> rfl

theorem applyProvenance_hit {s : ProjectionStore δ} {requestId itemId : String}
    {source : SubmissionSource} {item : Item δ} (h : s.awaiting requestId = some itemId)
    (hget : s.get itemId = some item) :
    s.applyProvenance requestId (some source) =
      (({ s with provenanceDone := s.provenanceDone ++ [requestId] } : ProjectionStore δ).put
        (resolved item source), [.upsertItem (resolved item source)]) := by
  obtain ⟨⟨other, request⟩, hfind, rfl⟩ := Option.map_eq_some_iff.mp h
  have hget' : ({ s with provenanceDone := s.provenanceDone ++ [requestId] } :
      ProjectionStore δ).get other = some item := hget
  unfold applyProvenance
  dsimp only
  rw [hfind]
  dsimp only
  rw [hget']

/-- What a call is to one item. -/
def eventOf (itemId : String) (s : ProjectionStore δ) : StoreCall δ → Option (ItemEvent δ)
  | .item candidate => if candidate.itemId = itemId then some (.version candidate) else none
  | .delta mapped => if mapped.itemId = itemId then some (.delta mapped) else none
  | .provenance requestId source =>
    if s.awaiting requestId = some itemId then source.map .resolve else none

/-- An item after a call, when the call was something to it. -/
def turned (item : Item δ) (event : Option (ItemEvent δ)) : Item δ := event.elim item (turn item)

section calls
variable [BEq δ] [LawfulBEq δ]

omit [LawfulBEq δ] in
/-- An item call leaves the other items alone. -/
theorem get_applyItem_of_ne {s : ProjectionStore δ} (hs : Sound s) {candidate : Item δ}
    {itemId : String} (hne : itemId ≠ candidate.itemId) :
    (s.applyItem candidate).1.get itemId = s.get itemId := by
  unfold applyItem
  dsimp only
  cases hget : s.get candidate.itemId with
  | none => exact (get_settle s _ _).2 itemId hne
  | some existing =>
    have hid := ((mem_view hs.toStored).mp hget).2
    dsimp only
    split
    · rw [hid]
      exact (get_flushPendingDeltas hget hid _).2 itemId hne
    · refine (get_settle s _ _).2 itemId ?_
      rw [upserted_itemId, merged_itemId]
      exact hne

/-- The item of an item call has taken the candidate in. -/
theorem get_applyItem {s : ProjectionStore δ} (hs : Sound s) {candidate existing : Item δ}
    (hget : s.get candidate.itemId = some existing) :
    ∃ item', (s.applyItem candidate).1.get candidate.itemId = some item' ∧
      core item' = core (absorb existing candidate) := by
  have hid := ((mem_view hs.toStored).mp hget).2
  have hnone := hs.no_backlog hget
  unfold applyItem
  dsimp only
  rw [hget]
  dsimp only
  split
  · rename_i hsame
    obtain ⟨hthis, -⟩ := get_flushPendingDeltas hget hid (authoritativeBlockIds candidate)
    rw [hnone] at hthis
    refine ⟨existing, by rw [hid]; exact hthis, ?_⟩
    exact core_eq_of_normalized (eq_of_beq hsame).symm (absorb_provenance existing candidate).symm
  · obtain ⟨hthis, -⟩ := get_settle s (upserted existing (merged existing candidate))
      (authoritativeBlockIds candidate)
    rw [upserted_itemId, merged_itemId, hnone] at hthis
    refine ⟨_, ?_, core_upserted existing candidate⟩
    rw [upserted_itemId, merged_itemId]
    exact hthis

omit [LawfulBEq δ] in
/-- The first appearance of an item takes in what waited for it. -/
theorem get_applyItem_new {s : ProjectionStore δ} {candidate : Item δ}
    (hget : s.get candidate.itemId = none) :
    ∃ item', (s.applyItem candidate).1.get candidate.itemId = some item' ∧
      core item' = core (flushed candidate (authoritativeBlockIds candidate)
        ((s.pendingDeltas.lookup candidate.itemId).getD [])) := by
  unfold applyItem
  dsimp only
  rw [hget]
  obtain ⟨hthis, -⟩ := get_settle s (firstAppearance candidate (s.items.length + 1))
    (authoritativeBlockIds candidate)
  have hcore : core (firstAppearance candidate (s.items.length + 1)) = core candidate := rfl
  exact ⟨_, hthis, core_flushed_congr hcore _ _⟩

/-- An item that is there becomes what the call makes of it. -/
theorem get_apply {s : ProjectionStore δ} (hs : Sound s) {itemId : String} {item : Item δ}
    (hget : s.get itemId = some item) (call : StoreCall δ) :
    ∃ item', (call.apply s).1.get itemId = some item' ∧
      core item' = core (turned item (eventOf itemId s call)) := by
  have hid : item.itemId = itemId := ((mem_view hs.toStored).mp hget).2
  cases call with
  | item candidate =>
    by_cases hc : candidate.itemId = itemId
    · subst hc
      obtain ⟨item', hget', hcore⟩ := get_applyItem hs hget
      exact ⟨item', hget', by simpa [eventOf, turned, turn] using hcore⟩
    · refine ⟨item, ?_, by simp [eventOf, hc, turned]⟩
      exact (get_applyItem_of_ne hs (Ne.symm hc)).trans hget
  | delta mapped =>
    -- the item is there, so the delta is not kept waiting
    show ∃ item', (s.applyDelta mapped).1.get itemId = some item' ∧ _
    unfold applyDelta
    by_cases hc : mapped.itemId = itemId
    · rw [hc, hget]
      dsimp only
      rw [applyDeltaTo_items]
      have hid' := (streamed_itemId item (targetBlock item mapped.blockId) mapped.delta).trans hid
      refine ⟨_, by rw [get_put, if_pos hid'], by simp [eventOf, hc, turned, turn]⟩
    · refine ⟨item, ?_, by simp [eventOf, hc, turned]⟩
      cases hother : s.get mapped.itemId with
      | none => exact hget
      | some other =>
        have hother' := ((mem_view hs.toStored).mp hother).2
        dsimp only
        rw [applyDeltaTo_items, get_put_of_ne]
        · exact hget
        · rw [streamed_itemId, hother']
          exact hc
  | provenance requestId source =>
    cases source with
    | none => exact ⟨item, hget, by simp [eventOf, turned]⟩
    | some source =>
      cases hawaiting : s.awaiting requestId with
      | none =>
        refine ⟨item, ?_, by simp [eventOf, hawaiting, turned]⟩
        show (s.applyProvenance requestId (some source)).1.get itemId = some item
        rw [applyProvenance_idle hawaiting]
        exact hget
      | some other =>
        -- the verdict goes to the item that waits, which may be another one
        obtain ⟨item₁, hother⟩ := exists_awaited hs.toStored hawaiting
        have hother' := ((mem_view hs.toStored).mp hother).2
        simp only [StoreCall.apply, applyProvenance_hit hawaiting hother, eventOf, hawaiting,
          Option.some.injEq, Option.map_some]
        by_cases hc : other = itemId
        · subst hc
          rw [hget, Option.some.injEq] at hother
          subst hother
          refine ⟨resolved item source, ?_, by simp [turned, turn]⟩
          rw [get_put, if_pos]
          exact hid
        · refine ⟨item, ?_, by simp [hc, turned]⟩
          rw [get_put_of_ne]
          · exact hget
          · show item₁.itemId ≠ itemId
            rw [hother']
            exact hc

/-! ## Runs -/

/-- The store after a list of calls. -/
def feed (s : ProjectionStore δ) (calls : List (StoreCall δ)) : ProjectionStore δ :=
  calls.foldl (fun s call => (call.apply s).1) s

/-- What a list of calls is to one item. -/
def eventsOf (itemId : String) : ProjectionStore δ → List (StoreCall δ) → List (ItemEvent δ)
  | _, [] => []
  | s, call :: calls => (eventOf itemId s call).toList ++ eventsOf itemId (call.apply s).1 calls

omit [LawfulBEq δ] in
theorem sound_feed {s : ProjectionStore δ} (hs : Sound s) (calls : List (StoreCall δ)) :
    Sound (s.feed calls) := by
  induction calls generalizing s with
  | nil => exact hs
  | cons call calls ih => exact ih (sound_apply hs call)

theorem get_feed {s : ProjectionStore δ} (hs : Sound s) {itemId : String} {item : Item δ}
    (hget : s.get itemId = some item) (calls : List (StoreCall δ)) :
    ∃ item', (s.feed calls).get itemId = some item' ∧
      core item' = core ((eventsOf itemId s calls).foldl turn item) := by
  induction calls generalizing s item with
  | nil => exact ⟨item, hget, rfl⟩
  | cons call calls ih =>
    obtain ⟨item₁, hget₁, hcore₁⟩ := get_apply hs hget call
    obtain ⟨item₂, hget₂, hcore₂⟩ := ih (sound_apply hs call) hget₁
    refine ⟨item₂, hget₂, hcore₂.trans ?_⟩
    rw [eventsOf, List.foldl_append]
    refine foldl_turn_congr ?_ _
    rw [hcore₁]
    cases eventOf itemId s call <;> rfl

/-- Everything that waits has been called for, and waits under its own item. -/
def Backlog (s : ProjectionStore δ) (past : List (StoreCall δ)) : Prop :=
  ∀ e ∈ s.pendingDeltas, ∀ mapped ∈ e.2, mapped.itemId = e.1 ∧ .delta mapped ∈ past

omit [BEq δ] [LawfulBEq δ] in
theorem flush_pendingDeltas (itemId : String) (authoritative : List String)
    (pending : List MappedBlockDelta) (s : ProjectionStore δ) :
    (flush itemId authoritative pending s).1.pendingDeltas = s.pendingDeltas := by
  induction pending generalizing s with
  | nil => rfl
  | cons mapped pending ih =>
    unfold flush
    split
    · rfl
    · dsimp only
      split
      · exact ih s
      · rw [applyDeltaTo_items, ih, put_pendingDeltas]

omit [BEq δ] [LawfulBEq δ] in
theorem mem_flushPendingDeltas {s : ProjectionStore δ} {itemId : String}
    {authoritative : List String} {e : String × List MappedBlockDelta}
    (h : e ∈ (s.flushPendingDeltas itemId authoritative).1.pendingDeltas) :
    e ∈ s.pendingDeltas := by
  unfold flushPendingDeltas at h
  rw [flush_pendingDeltas] at h
  exact (List.mem_filter.mp h).1

theorem slot_of_mem_withSlot {pendingDeltas : List (String × List MappedBlockDelta)} {itemId : String}
    {e : String × List MappedBlockDelta} (h : e ∈ withSlot pendingDeltas itemId) :
    e ∈ pendingDeltas ∨ e = (itemId, []) := by
  unfold withSlot at h
  split at h
  · exact .inl h
  · rcases List.mem_append.mp h with h | h
    · split at h
      · exact .inl (List.mem_of_mem_tail h)
      · exact .inl h
    · exact .inr (List.mem_singleton.mp h)

omit [LawfulBEq δ] in
theorem Backlog.apply {s : ProjectionStore δ} {past : List (StoreCall δ)} (h : Backlog s past)
    (call : StoreCall δ) : Backlog (call.apply s).1 (past ++ [call]) := by
  have hkeep : ∀ e ∈ s.pendingDeltas, ∀ mapped ∈ e.2,
      mapped.itemId = e.1 ∧ .delta mapped ∈ past ++ [call] := fun e he mapped hm =>
    ⟨(h e he mapped hm).1, List.mem_append_left _ (h e he mapped hm).2⟩
  cases call with
  | item candidate =>
    intro e he
    refine hkeep e ?_
    simp only [StoreCall.apply, applyItem] at he
    split at he
    · have hmem := mem_flushPendingDeltas he
      rwa [trackProvenance_pendingDeltas] at hmem
    · split at he
      · exact mem_flushPendingDeltas he
      · have hmem := mem_flushPendingDeltas he
        rwa [trackProvenance_pendingDeltas] at hmem
  | delta mapped =>
    simp only [StoreCall.apply, applyDelta]
    split
    · -- A slot is one that was there, or a new one; this delta goes behind it.
      have hslot : ∀ e ∈ withSlot s.pendingDeltas mapped.itemId, ∀ mapped' ∈ e.2,
          mapped'.itemId = e.1 ∧ .delta mapped' ∈ past ++ [.delta mapped] := by
        intro e he mapped' hm
        rcases slot_of_mem_withSlot he with he | rfl
        · exact hkeep e he mapped' hm
        · cases hm
      intro e he mapped' hm
      unfold bufferDelta at he
      dsimp only at he
      split at he
      · rcases Keyed.mem_set he with ⟨hk, hv⟩ | he
        · rw [hv] at hm
          rcases List.mem_append.mp hm with hm | hm
          · obtain ⟨pending, hlook, hm⟩ : ∃ pending,
                (withSlot s.pendingDeltas mapped.itemId).lookup mapped.itemId = some pending ∧
                  mapped' ∈ pending := by
              cases hlook : (withSlot s.pendingDeltas mapped.itemId).lookup mapped.itemId with
              | none => simp [hlook] at hm
              | some pending => exact ⟨pending, rfl, by simpa [hlook] using hm⟩
            rw [hk]
            exact hslot _ (Keyed.mem_of_lookup hlook) mapped' hm
          · rw [List.mem_singleton.mp hm, hk]
            exact ⟨rfl, by simp⟩
        · exact hslot e he mapped' hm
      · exact hslot e he mapped' hm
    · rw [applyDeltaTo_items]
      exact hkeep
  | provenance requestId source =>
    intro e he
    refine hkeep e ?_
    have hsame : (s.applyProvenance requestId source).1.pendingDeltas = s.pendingDeltas := by
      unfold applyProvenance
      dsimp only
      split
      · split <;> rfl
      · rfl
    rw [← hsame]
    exact he

/-! ## The first appearance -/

/-- A call that hands in the item. -/
def Brings (itemId : String) (call : StoreCall δ) : Prop :=
  ∃ candidate, call = .item candidate ∧ candidate.itemId = itemId

omit [LawfulBEq δ] in
theorem get_apply_none {s : ProjectionStore δ} (hs : Sound s) {itemId : String}
    (hget : s.get itemId = none) {call : StoreCall δ} (hcall : ¬ Brings itemId call) :
    (call.apply s).1.get itemId = none := by
  cases call with
  | item candidate =>
    have hne : itemId ≠ candidate.itemId := fun heq => hcall ⟨candidate, rfl, heq.symm⟩
    exact (get_applyItem_of_ne hs hne).trans hget
  | delta mapped =>
    simp only [StoreCall.apply, applyDelta]
    split
    · exact hget
    · rename_i other hother
      have hid := ((mem_view hs.toStored).mp hother).2
      rw [applyDeltaTo_items, get_put_of_ne]
      · exact hget
      · rw [streamed_itemId, hid]
        rintro rfl
        rw [hget] at hother
        cases hother
  | provenance requestId source =>
    simp only [StoreCall.apply]
    cases source with
    | none => exact hget
    | some source =>
      cases hawaiting : s.awaiting requestId with
      | none =>
        rw [applyProvenance_idle hawaiting]
        exact hget
      | some other =>
        obtain ⟨item, hother⟩ := exists_awaited hs.toStored hawaiting
        have hid := ((mem_view hs.toStored).mp hother).2
        rw [applyProvenance_hit hawaiting hother, get_put_of_ne]
        · exact hget
        · show item.itemId ≠ itemId
          rw [hid]
          rintro rfl
          rw [hget] at hother
          cases hother

/-- An item that is there after a run was brought by some call for the first
time, took in what waited for it, and turned with the calls behind. -/
theorem first_appearance {s : ProjectionStore δ} (hs : Sound s) {past : List (StoreCall δ)}
    (hback : Backlog s past) {itemId : String} (hget : s.get itemId = none)
    {calls : List (StoreCall δ)} {final : Item δ} (hfinal : (s.feed calls).get itemId = some final) :
    ∃ before candidate after pending, calls = before ++ .item candidate :: after ∧
      candidate.itemId = itemId ∧ (∀ call ∈ before, ¬ Brings itemId call) ∧
      (∀ mapped ∈ pending, mapped.itemId = itemId ∧ .delta mapped ∈ past ++ before) ∧
      core final = core ((eventsOf itemId (s.feed (before ++ [.item candidate])) after).foldl turn
        (flushed candidate (authoritativeBlockIds candidate) pending)) := by
  induction calls generalizing s past with
  | nil =>
    have hnone : some final = none := hfinal.symm.trans hget
    cases hnone
  | cons call calls ih =>
    by_cases hbrings : Brings itemId call
    · obtain ⟨candidate, rfl, rfl⟩ := hbrings
      obtain ⟨item, hitem, hcore⟩ := get_applyItem_new hget
      obtain ⟨item', hitem', hcore'⟩ := get_feed (sound_apply hs (.item candidate)) hitem calls
      have hsame : item' = final := Option.some.inj (hitem'.symm.trans hfinal)
      subst hsame
      refine ⟨[], candidate, calls, (s.pendingDeltas.lookup candidate.itemId).getD [], rfl, rfl,
        fun _ hcall => absurd hcall List.not_mem_nil, ?_,
        hcore'.trans (foldl_turn_congr hcore _)⟩
      intro mapped hm
      cases hlook : s.pendingDeltas.lookup candidate.itemId with
      | none => simp [hlook] at hm
      | some pending =>
        have hmem := hback _ (Keyed.mem_of_lookup hlook) mapped (by simpa [hlook] using hm)
        exact ⟨hmem.1, List.mem_append_left _ hmem.2⟩
    · obtain ⟨before, candidate, after, pending, rfl, hid, hbefore, hpending, hcore⟩ :=
        ih (sound_apply hs call) (hback.apply call) (get_apply_none hs hget hbrings) hfinal
      refine ⟨call :: before, candidate, after, pending, rfl, hid, ?_, ?_, hcore⟩
      · intro call' hcall'
        rcases List.mem_cons.mp hcall' with rfl | hcall'
        · exact hbrings
        · exact hbefore call' hcall'
      · intro mapped hm
        simpa using hpending mapped hm

/-! ## Evidence -/

/-- The call carries evidence of the harness. -/
def isEvidence : StoreCall δ → Bool
  | .provenance _ _ => false
  | _ => true

/-- What the evidence among the calls is to one item, in any store. -/
def ownEvents (itemId : String) (calls : List (StoreCall δ)) : List (ItemEvent δ) :=
  calls.filterMap fun call => match call with
    | .item candidate => if candidate.itemId = itemId then some (.version candidate) else none
    | .delta mapped => if mapped.itemId = itemId then some (.delta mapped) else none
    | .provenance _ _ => none

/-- The event is no verdict on provenance. -/
def unresolving : ItemEvent δ → Bool
  | .resolve _ => false
  | _ => true

omit [BEq δ] [LawfulBEq δ] in
theorem ownEvents_cons (itemId : String) (call : StoreCall δ) (calls : List (StoreCall δ)) :
    ownEvents itemId (call :: calls) = ownEvents itemId [call] ++ ownEvents itemId calls :=
  List.filterMap_append (l := [call])

omit [BEq δ] [LawfulBEq δ] in
theorem ownEvents_item (itemId : String) (candidate : Item δ) :
    ownEvents itemId [.item candidate] =
      if candidate.itemId = itemId then [.version candidate] else [] := by
  unfold ownEvents
  by_cases hc : candidate.itemId = itemId <;> simp [hc]

omit [BEq δ] [LawfulBEq δ] in
theorem ownEvents_delta (itemId : String) (mapped : MappedBlockDelta) :
    (ownEvents itemId [.delta mapped] : List (ItemEvent δ)) =
      if mapped.itemId = itemId then [.delta mapped] else [] := by
  unfold ownEvents
  by_cases hc : mapped.itemId = itemId <;> simp [hc]

omit [LawfulBEq δ] in
theorem eventsOf_evidence (itemId : String) (s : ProjectionStore δ) (calls : List (StoreCall δ)) :
    eventsOf itemId s (calls.filter isEvidence) = ownEvents itemId calls := by
  induction calls generalizing s with
  | nil => rfl
  | cons call calls ih =>
    cases call with
    | provenance requestId source => exact ih s
    | item candidate =>
      show (eventOf itemId s (.item candidate)).toList ++ eventsOf itemId _ _ = _
      rw [ih, ownEvents_cons, ownEvents_item, eventOf]
      split <;> rfl
    | delta mapped =>
      show (eventOf itemId s (.delta mapped)).toList ++ eventsOf itemId _ _ = _
      rw [ih, ownEvents_cons, ownEvents_delta, eventOf]
      split <;> rfl

omit [LawfulBEq δ] in
theorem filter_eventsOf (itemId : String) (s : ProjectionStore δ) (calls : List (StoreCall δ)) :
    (eventsOf itemId s calls).filter unresolving = ownEvents itemId calls := by
  induction calls generalizing s with
  | nil => rfl
  | cons call calls ih =>
    rw [eventsOf, List.filter_append, ih, ownEvents_cons]
    congr 1
    cases call with
    | provenance requestId source =>
      simp only [eventOf]
      split
      · cases source <;> rfl
      · rfl
    | item candidate =>
      rw [ownEvents_item, eventOf]
      split <;> rfl
    | delta mapped =>
      rw [ownEvents_delta, eventOf]
      split <;> rfl

omit [LawfulBEq δ] in
/-- A verdict on an item stands at a call for which it was the one waiting. -/
theorem resolve_mem_eventsOf {itemId : String} {s : ProjectionStore δ}
    {calls : List (StoreCall δ)} {source : SubmissionSource}
    (h : .resolve source ∈ eventsOf itemId s calls) :
    ∃ before requestId after, calls = before ++ .provenance requestId (some source) :: after ∧
      (s.feed before).awaiting requestId = some itemId := by
  induction calls generalizing s with
  | nil => cases h
  | cons call calls ih =>
    rw [eventsOf, List.mem_append] at h
    rcases h with h | h
    · cases call with
      | item candidate =>
        simp only [eventOf] at h
        split at h <;> simp at h
      | delta mapped =>
        simp only [eventOf] at h
        split at h <;> simp at h
      | provenance requestId verdict =>
        simp only [eventOf] at h
        split at h
        · rename_i hawaiting
          cases verdict with
          | none => simp at h
          | some verdict =>
            have hsource : source = verdict := by simpa using h
            exact ⟨[], requestId, calls, by rw [hsource]; rfl, hawaiting⟩
        · simp at h
    · obtain ⟨before, requestId, after, rfl, hawaiting⟩ := ih h
      exact ⟨call :: before, requestId, after, rfl, hawaiting⟩

end calls

end ProjectionStore

end AgentsRemember.Conversation
