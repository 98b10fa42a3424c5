import AgentsRemember.Conversation.Store
import AgentsRemember.Foundation.Mirror

/-!
# Conversation — Sound

What holds of the store after any calls: items stand under their own ids, each
id once, the ordinal of an item is its position, deltas wait only for items
that are not there, and what is tracked for provenance is stored.

Behind the first appearance of an item everything is a `put` of a rewritten
item under an id that is there. `Rewritten` is what such an item keeps.
-/

namespace AgentsRemember.Conversation

namespace ProjectionStore

variable {δ : Type}

@[simp] theorem put_pendingDeltas (s : ProjectionStore δ) (item : Item δ) :
    (s.put item).pendingDeltas = s.pendingDeltas := rfl

@[simp] theorem put_provenancePending (s : ProjectionStore δ) (item : Item δ) :
    (s.put item).provenancePending = s.provenancePending := rfl

theorem get_put (s : ProjectionStore δ) (item : Item δ) (itemId : String) :
    (s.put item).get itemId = if item.itemId = itemId then some item else s.get itemId :=
  Keyed.lookup_set _ _ _ _

@[simp] theorem get_put_self (s : ProjectionStore δ) (item : Item δ) :
    (s.put item).get item.itemId = some item := by
  simp [get_put]

theorem get_isSome_iff {s : ProjectionStore δ} {itemId : String} :
    (s.get itemId).isSome ↔ itemId ∈ s.items.map Prod.fst := Keyed.lookup_isSome_iff

@[simp] theorem trackProvenance_items (s : ProjectionStore δ) (item : Item δ) :
    (s.trackProvenance item).items = s.items := by
  unfold trackProvenance
  split
  · rfl
  · split <;> rfl

@[simp] theorem trackProvenance_pendingDeltas (s : ProjectionStore δ) (item : Item δ) :
    (s.trackProvenance item).pendingDeltas = s.pendingDeltas := by
  unfold trackProvenance
  split
  · rfl
  · split <;> rfl

theorem mem_trackProvenance {s : ProjectionStore δ} {item : Item δ} {e : String × String}
    (h : e ∈ (s.trackProvenance item).provenancePending) :
    e.1 = item.itemId ∨ e ∈ s.provenancePending := by
  unfold trackProvenance at h
  split at h
  · exact .inr h
  · split at h
    · exact (Keyed.mem_set h).imp And.left id
    · exact .inr h

/-! ## The invariant -/

/-- The items themselves, whatever waits for them. -/
structure Stored (s : ProjectionStore δ) : Prop where
  named : ∀ e ∈ s.items, e.2.itemId = e.1
  nodup : (s.items.map Prod.fst).Nodup
  ordinals : s.view.map Item.globalOrdinal = List.range' 1 s.items.length
  tracked : ∀ e ∈ s.provenancePending, (s.get e.1).isSome

/-- The invariant of the store. -/
structure Sound (s : ProjectionStore δ) : Prop extends Stored s where
  waiting : ∀ e ∈ s.pendingDeltas, s.get e.1 = none

theorem Sound.empty : Sound ({} : ProjectionStore δ) :=
  ⟨⟨by simp, by simp, rfl, by simp⟩, by simp⟩

/-- A store is sound on the strength of its items, its backlog and what it tracks. -/
theorem Stored.of_items {s t : ProjectionStore δ} (h : Stored s) (hitems : t.items = s.items)
    (htracked : ∀ e ∈ t.provenancePending, (s.get e.1).isSome) : Stored t where
  named := by rw [hitems]; exact h.named
  nodup := by rw [hitems]; exact h.nodup
  ordinals := by
    unfold view
    rw [hitems]
    exact h.ordinals
  tracked := by
    intro e he
    unfold get
    rw [hitems]
    exact htracked e he

theorem view_itemId {s : ProjectionStore δ} (h : Stored s) :
    s.view.map Item.itemId = s.items.map Prod.fst := by
  unfold view
  rw [List.map_map]
  exact List.map_congr_left h.named

theorem mem_view {s : ProjectionStore δ} (h : Stored s) {itemId : String} {item : Item δ} :
    s.get itemId = some item ↔ item ∈ s.view ∧ item.itemId = itemId := by
  constructor
  · intro hget
    have hmem := Keyed.mem_of_lookup hget
    exact ⟨List.mem_map.mpr ⟨_, hmem, rfl⟩, h.named _ hmem⟩
  · rintro ⟨hmem, rfl⟩
    obtain ⟨⟨k, x⟩, he, rfl⟩ := List.mem_map.mp hmem
    have hk : x.itemId = k := h.named _ he
    show s.items.lookup x.itemId = some x
    rw [hk]
    exact Keyed.lookup_of_mem h.nodup he

/-- An item's ordinal is the position at which it stands. -/
theorem Stored.ordinal {s : ProjectionStore δ} (h : Stored s) {i : Nat} {item : Item δ}
    (hi : s.view[i]? = some item) : item.globalOrdinal = i + 1 := by
  have hlen : i < s.items.length := by
    have := (List.getElem?_eq_some_iff.mp hi).1
    simpa [view] using this
  have hmap : (s.view.map Item.globalOrdinal)[i]? = some item.globalOrdinal := by
    rw [List.getElem?_map, hi]
    rfl
  rw [h.ordinals, List.getElem?_range' hlen] at hmap
  have := Option.some.inj hmap
  omega

/-! ## Assignments -/

theorem view_put_new {s : ProjectionStore δ} {item : Item δ} (hget : s.get item.itemId = none) :
    (s.put item).view = s.view ++ [item] := by
  have hnot : item.itemId ∉ s.items.map Prod.fst := by
    rw [← get_isSome_iff, hget]
    simp
  simp [view, put, Keyed.set_of_not_mem hnot]

/-- Assigned to an id that is there, an item stands where that one did. -/
theorem values_set {d : List (String × Item δ)} {item : Item δ}
    (hnodup : (d.map Prod.fst).Nodup) (hnamed : ∀ e ∈ d, e.2.itemId = e.1)
    (hmem : item.itemId ∈ d.map Prod.fst) :
    (Keyed.set d item.itemId item).map Prod.snd =
      (d.map Prod.snd).map fun x => if x.itemId = item.itemId then item else x := by
  induction d with
  | nil => simp at hmem
  | cons e d ih =>
    obtain ⟨k, x⟩ := e
    have hk : x.itemId = k := hnamed (k, x) (by simp)
    rw [List.map_cons, List.nodup_cons] at hnodup
    by_cases hki : k = item.itemId
    · have hrest : (d.map Prod.snd).map (fun x => if x.itemId = item.itemId then item else x) =
          d.map Prod.snd := by
        rw [List.map_map]
        apply List.map_congr_left
        intro e he
        have hne : e.2.itemId ≠ item.itemId := by
          intro heq
          apply hnodup.1
          rw [hki, ← heq, hnamed e (List.mem_cons_of_mem _ he)]
          exact List.mem_map.mpr ⟨e, he, rfl⟩
        simp [hne]
      rw [List.map_cons, List.map_cons, hrest]
      simp [Keyed.set, hki, hk]
    · have hmem' : item.itemId ∈ d.map Prod.fst := by simpa [Ne.symm hki] using hmem
      have ih := ih hnodup.2 (fun e he => hnamed e (List.mem_cons_of_mem _ he)) hmem'
      rw [List.map_cons, List.map_cons, ← ih]
      simp [Keyed.set, hki, hk]

theorem view_put {s : ProjectionStore δ} (h : Stored s) {item old : Item δ}
    (hget : s.get item.itemId = some old) :
    (s.put item).view = s.view.map fun x => if x.itemId = item.itemId then item else x :=
  values_set h.nodup h.named (get_isSome_iff.mp (by simp [hget]))

/-- The ids do not move under an assignment to one that is there. -/
theorem keys_put {s : ProjectionStore δ} {item old : Item δ}
    (hget : s.get item.itemId = some old) :
    (s.put item).items.map Prod.fst = s.items.map Prod.fst := by
  show (Keyed.set s.items item.itemId item).map Prod.fst = _
  rw [Keyed.keys_set, if_pos (get_isSome_iff.mp (by simp [hget]))]

theorem named_put {s : ProjectionStore δ} (h : Stored s) (item : Item δ) :
    ∀ e ∈ (s.put item).items, e.2.itemId = e.1 := by
  intro e he
  rcases Keyed.mem_set he with ⟨hk, hv⟩ | he
  · rw [hk, hv]
  · exact h.named e he

theorem tracked_put {s : ProjectionStore δ} (h : Stored s) (item : Item δ) :
    ∀ e ∈ s.provenancePending, ((s.put item).get e.1).isSome := by
  intro e he
  rw [get_put]
  split
  · rfl
  · exact h.tracked e he

theorem Stored.put {s : ProjectionStore δ} (h : Stored s) {item old : Item δ}
    (hget : s.get item.itemId = some old) (hordinal : item.globalOrdinal = old.globalOrdinal) :
    Stored (s.put item) where
  named := named_put h item
  nodup := by
    rw [keys_put hget]
    exact h.nodup
  ordinals := by
    have hlen : (s.put item).items.length = s.items.length := by
      simpa using congrArg List.length (keys_put hget)
    rw [view_put h hget, List.map_map, hlen, ← h.ordinals]
    apply List.map_congr_left
    intro x hx
    by_cases hid : x.itemId = item.itemId
    · have hold : s.get item.itemId = some x := (mem_view h).mpr ⟨hx, hid⟩
      rw [hget] at hold
      obtain rfl := Option.some.inj hold
      simp [hid, hordinal]
    · simp [hid]
  tracked := tracked_put h item

theorem Stored.put_new {s : ProjectionStore δ} (h : Stored s) {item : Item δ}
    (hget : s.get item.itemId = none) (hordinal : item.globalOrdinal = s.items.length + 1) :
    Stored (s.put item) where
  named := named_put h item
  nodup := Keyed.nodup_keys_set h.nodup _ _
  ordinals := by
    have hlen : (s.put item).items.length = s.items.length + 1 := by
      simpa [view] using congrArg List.length (view_put_new hget)
    rw [view_put_new hget, List.map_append, h.ordinals, hlen, List.range'_1_concat]
    simp [hordinal, Nat.add_comm]
  tracked := tracked_put h item

theorem Stored.trackProvenance {s : ProjectionStore δ} (h : Stored s) {item : Item δ}
    (hget : (s.get item.itemId).isSome) : Stored (s.trackProvenance item) := by
  apply h.of_items (trackProvenance_items s item)
  intro e he
  rcases mem_trackProvenance he with hid | he
  · rw [hid]
    exact hget
  · exact h.tracked e he

/-! ## Deltas -/

/-- The block is code. -/
def isCode (block : Block δ) : Bool :=
  match block.content with
  | .code _ _ => true
  | _ => false

/-- The ids under which an item carries code. -/
def codeBlockIds (item : Item δ) : List String := (item.blocks.filter isCode).map Block.blockId

/-- What a delta leaves of the item it is applied to. -/
structure Rewritten (old item : Item δ) : Prop where
  itemId : item.itemId = old.itemId
  revision : item.revision = old.revision + 1
  ordinal : item.globalOrdinal = old.globalOrdinal
  kind : item.kind = old.kind
  code : codeBlockIds item = codeBlockIds old

theorem appendText_blockId (block : Block δ) (delta : String) :
    (appendText block delta).blockId = block.blockId := by
  unfold appendText
  split <;> rfl

theorem isCode_appendText (block : Block δ) (delta : String) :
    isCode (appendText block delta) = isCode block := by
  obtain ⟨blockId, content⟩ := block
  cases content <;> rfl

theorem rewritten_appendDelta (item : Item δ) (blockId delta : String) :
    Rewritten item (appendDelta item blockId delta) where
  itemId := rfl
  revision := rfl
  ordinal := rfl
  kind := rfl
  code := by
    show (List.filter isCode (item.blocks.map _)).map Block.blockId = _
    rw [List.filter_map, List.map_map, codeBlockIds]
    have hsame : (isCode ∘ fun block : Block δ =>
        if block.blockId = blockId then appendText block delta else block) = isCode := by
      ext block
      simp only [Function.comp]
      split
      · rw [isCode_appendText]
      · rfl
    rw [hsame]
    apply List.map_congr_left
    intro block _
    simp only [Function.comp]
    split
    · rw [appendText_blockId]
    · rfl

theorem rewritten_mint (item : Item δ) (blockId text : String) :
    Rewritten item (mintBlockWithText item blockId text) where
  itemId := rfl
  revision := rfl
  ordinal := rfl
  kind := rfl
  code := by
    unfold codeBlockIds mintBlockWithText
    rw [List.filter_append]
    cases item.kind <;> simp [isCode]

/-- A delta for an item is a `put` of a rewritten one. -/
theorem applyDeltaTo_fst (s : ProjectionStore δ) (item : Item δ) (blockId delta : String) :
    ∃ item', (s.applyDeltaTo item blockId delta).1 = s.put item' ∧ Rewritten item item' := by
  unfold applyDeltaTo
  split
  · exact ⟨_, rfl, rewritten_appendDelta item blockId delta⟩
  · exact ⟨_, rfl, rewritten_mint item blockId delta⟩

/-- What a backlog leaves alone. -/
structure Kept (s t : ProjectionStore δ) : Prop where
  stored : Stored t
  keys : t.items.map Prod.fst = s.items.map Prod.fst
  pendingDeltas : t.pendingDeltas = s.pendingDeltas

theorem kept_put {s : ProjectionStore δ} (h : Stored s) {item old : Item δ}
    (hget : s.get item.itemId = some old) (hordinal : item.globalOrdinal = old.globalOrdinal) :
    Kept s (s.put item) := ⟨h.put hget hordinal, keys_put hget, rfl⟩

theorem kept_applyDeltaTo {s : ProjectionStore δ} (h : Stored s) (item : Item δ)
    (hget : s.get item.itemId = some item) (blockId delta : String) :
    Kept s (s.applyDeltaTo item blockId delta).1 := by
  obtain ⟨item', heq, hre⟩ := applyDeltaTo_fst s item blockId delta
  rw [heq]
  exact kept_put h (by rw [hre.itemId]; exact hget) hre.ordinal

theorem kept_flush {s : ProjectionStore δ} (h : Stored s) (itemId : String)
    (authoritative : List String) (pending : List MappedBlockDelta) :
    Kept s (flush itemId authoritative pending s).1 := by
  induction pending generalizing s with
  | nil => exact ⟨h, rfl, rfl⟩
  | cons mapped pending ih =>
    unfold flush
    split
    · exact ⟨h, rfl, rfl⟩
    · rename_i current hget
      dsimp only
      split
      · exact ih h
      · have hid := ((mem_view h).mp hget).2
        have hstep := kept_applyDeltaTo h current (by rw [hid]; exact hget)
          (targetBlock current mapped.blockId) mapped.delta
        have hrest := ih hstep.stored
        exact ⟨hrest.stored, hrest.keys.trans hstep.keys,
          hrest.pendingDeltas.trans hstep.pendingDeltas⟩

theorem mem_withSlot {pendingDeltas : List (String × List MappedBlockDelta)} {itemId : String}
    {e : String × List MappedBlockDelta} (h : e ∈ withSlot pendingDeltas itemId) :
    e.1 = itemId ∨ e ∈ pendingDeltas := by
  unfold withSlot at h
  split at h
  · exact .inr h
  · rcases List.mem_append.mp h with h | h
    · split at h
      · exact .inr (List.mem_of_mem_tail h)
      · exact .inr h
    · exact .inl (by rw [List.mem_singleton.mp h])

theorem mem_bufferDelta {s : ProjectionStore δ} {mapped : MappedBlockDelta}
    {e : String × List MappedBlockDelta} (h : e ∈ (s.bufferDelta mapped).pendingDeltas) :
    e.1 = mapped.itemId ∨ e ∈ s.pendingDeltas := by
  unfold bufferDelta at h
  dsimp only at h
  split at h
  · rcases Keyed.mem_set h with ⟨hk, -⟩ | h
    · exact .inl hk
    · exact mem_withSlot h
  · exact mem_withSlot h

/-- A store whose ids are the same, and whose backlog is part of what it was. -/
theorem Kept.sound {s t u : ProjectionStore δ} (h : Kept t u)
    (hkeys : t.items.map Prod.fst = s.items.map Prod.fst)
    (hwaiting : ∀ e ∈ t.pendingDeltas, s.get e.1 = none) : Sound u where
  toStored := h.stored
  waiting := by
    intro e he
    rw [h.pendingDeltas] at he
    have hnone := hwaiting e he
    rw [← Option.not_isSome_iff_eq_none, get_isSome_iff] at hnone ⊢
    rw [h.keys, hkeys]
    exact hnone

theorem Sound.bufferDelta {s : ProjectionStore δ} (h : Sound s) {mapped : MappedBlockDelta}
    (hget : s.get mapped.itemId = none) : Sound (s.bufferDelta mapped) where
  toStored := h.toStored.of_items rfl h.tracked
  waiting := by
    intro e he
    rcases mem_bufferDelta he with hid | he
    · rw [hid]
      exact hget
    · exact h.waiting e he

theorem Sound.applyDelta {s : ProjectionStore δ} (h : Sound s) (mapped : MappedBlockDelta) :
    Sound (s.applyDelta mapped).1 := by
  unfold ProjectionStore.applyDelta
  split
  · exact h.bufferDelta ‹_›
  · rename_i item hget
    have hid := ((mem_view h.toStored).mp hget).2
    exact (kept_applyDeltaTo h.toStored item (by rw [hid]; exact hget) _ _).sound rfl h.waiting

/-! ## Items -/

theorem merged_itemId (existing candidate : Item δ) :
    (merged existing candidate).itemId = candidate.itemId := by
  unfold merged retainFinalMessage unionToolCall reconcileRosterUpsert
  grind

theorem upserted_itemId (existing candidate : Item δ) :
    (upserted existing candidate).itemId = candidate.itemId := by
  unfold upserted preservedInputAuthority
  split <;> rfl

theorem upserted_ordinal (existing candidate : Item δ) :
    (upserted existing candidate).globalOrdinal = existing.globalOrdinal := by
  unfold upserted preservedInputAuthority
  split <;> rfl

theorem upserted_revision (existing candidate : Item δ) :
    (upserted existing candidate).revision = existing.revision + 1 := by
  unfold upserted preservedInputAuthority
  split <;> rfl

/-- A flush settles the backlog of the one item for which one may still stand. -/
theorem sound_flushPendingDeltas {s : ProjectionStore δ} (h : Stored s) {itemId : String}
    (hwaiting : ∀ e ∈ s.pendingDeltas, e.1 ≠ itemId → s.get e.1 = none)
    (authoritative : List String) : Sound (s.flushPendingDeltas itemId authoritative).1 := by
  have hbase : Stored { s with pendingDeltas := Keyed.erase s.pendingDeltas itemId } :=
    h.of_items rfl h.tracked
  refine (kept_flush hbase itemId authoritative _).sound rfl ?_
  intro e he
  obtain ⟨hmem, hne⟩ := List.mem_filter.mp he
  exact hwaiting e hmem (of_decide_eq_true hne)

variable [BEq δ]

theorem Sound.applyItem {s : ProjectionStore δ} (h : Sound s) (candidate : Item δ) :
    Sound (s.applyItem candidate).1 := by
  have hwaiting : ∀ item : Item δ, ∀ e ∈ ((s.put item).trackProvenance item).pendingDeltas,
      e.1 ≠ item.itemId → ((s.put item).trackProvenance item).get e.1 = none := by
    intro item e he hne
    rw [trackProvenance_pendingDeltas] at he
    show ((s.put item).trackProvenance item).items.lookup e.1 = none
    rw [trackProvenance_items]
    show (s.put item).get e.1 = none
    rw [get_put, if_neg (Ne.symm hne)]
    exact h.waiting e he
  unfold ProjectionStore.applyItem
  dsimp only
  split
  · rename_i hget
    apply sound_flushPendingDeltas _ (hwaiting _)
    apply (h.toStored.put_new _ rfl).trackProvenance
    · simp
    · exact hget
  · rename_i existing hget
    split
    · exact sound_flushPendingDeltas h.toStored (fun e he _ => h.waiting e he) _
    · apply sound_flushPendingDeltas _ (hwaiting _)
      apply (h.toStored.put _ (upserted_ordinal existing _)).trackProvenance
      · simp
      · rw [upserted_itemId, merged_itemId]
        exact hget

omit [BEq δ] in
theorem Sound.applyProvenance {s : ProjectionStore δ} (h : Sound s) (requestId : String)
    (source : Option SubmissionSource) : Sound (s.applyProvenance requestId source).1 := by
  have hbase : Sound { s with provenanceDone := s.provenanceDone ++ [requestId] } :=
    ⟨h.toStored.of_items rfl h.tracked, h.waiting⟩
  unfold ProjectionStore.applyProvenance
  dsimp only
  split
  · split
    · exact hbase
    · rename_i source itemId _ _ _ item hget
      have hid := ((mem_view hbase.toStored).mp hget).2
      refine (@kept_put _ _ hbase.toStored (resolved item source) item ?_ rfl).sound
        rfl hbase.waiting
      show ProjectionStore.get _ item.itemId = _
      rw [hid]
      exact hget
  · exact hbase

end ProjectionStore

end AgentsRemember.Conversation
