import AgentsRemember.Conversation.Sound

/-!
# Conversation — Replica

A dashboard holds the items of a session and applies the mutations of the
stream: it appends an item, replaces one by id, and appends text to the named
block of an item that is at the revision the mutation expects.

The dashboard appends to five kinds of block, the server to four of them: the
text of a delta that lands on a code block reaches the dashboard's copy only.
Away from that the mutations of every call lead from the items the store showed
before it to those it shows after it.
-/

namespace AgentsRemember.Conversation

/-! ## Mutations on the wire -/

/-- A position of a stream. -/
structure EventCursor where
  generation : String
  sequence : Nat
deriving DecidableEq

/-- Why a gap is announced. -/
inductive GapReason where
  | retentionOverflow | generationChanged | projectorRestart | orderingFault

/-- `σ` is what a status says, which nothing here looks at. -/
inductive ConversationMutation (δ σ : Type) where
  | appendItem (item : Item δ)
  | upsertItem (item : Item δ)
  | appendBlockDelta (itemId blockId : String) (expectedRevision nextRevision : Nat)
    (delta : String)
  | status (status : σ)
  | gap (requestedAfter : EventCursor) (reason : GapReason)

variable {δ σ : Type}

/-- A store's mutation as it is sent. -/
def conversationMutation : StoreMutation δ → ConversationMutation δ σ
  | .appendItem item => .appendItem item
  | .upsertItem item => .upsertItem item
  | .appendBlockDelta itemId blockId expected next delta =>
    .appendBlockDelta itemId blockId expected next delta

/-! ## The copy -/

/-- The dashboard's append. -/
def appendToBlock (block : Block δ) (delta : String) : Block δ :=
  match block.content with
  | .markdown markdown => { block with content := .markdown (markdown ++ delta) }
  | .thinking markdown => { block with content := .thinking (markdown ++ delta) }
  | .text text => { block with content := .text (text ++ delta) }
  | .code text language => { block with content := .code (text ++ delta) language }
  | .toolOutput text data =>
    { block with content := .toolOutput (some (text.getD "" ++ delta)) data }
  | _ => block

/-- A delta on the dashboard's copy. -/
def applyBlockDelta (target : Item δ) (blockId : String) (nextRevision : Nat) (delta : String) :
    Item δ :=
  { target with
    blocks := target.blocks.map fun block =>
      if block.blockId = blockId then appendToBlock block delta else block
    revision := nextRevision }

/-- One mutation on the dashboard's copy. -/
def receive (copy : List (Item δ)) : ConversationMutation δ σ → List (Item δ)
  | .appendItem item => copy ++ [item]
  | .upsertItem item => copy.map fun x => if x.itemId = item.itemId then item else x
  | .appendBlockDelta itemId blockId expected next delta =>
    copy.map fun x =>
      if x.itemId = itemId ∧ x.revision = expected then applyBlockDelta x blockId next delta
      else x
  | .status _ => copy
  | .gap _ _ => copy

/-- What a mutation of the store is to a copy: an item it has not, at the next
ordinal, or the next revision of one it has. -/
def Proper (copy : List (Item δ)) : ConversationMutation δ σ → Prop
  | .appendItem item =>
    (∀ x ∈ copy, x.itemId ≠ item.itemId) ∧ item.revision = 1 ∧
      item.globalOrdinal = copy.length + 1
  | .upsertItem item =>
    ∃ x ∈ copy, x.itemId = item.itemId ∧ item.revision = x.revision + 1 ∧
      item.globalOrdinal = x.globalOrdinal
  | .appendBlockDelta itemId _ expected next _ =>
    next = expected + 1 ∧ ∃ x ∈ copy, x.itemId = itemId ∧ x.revision = expected
  | .status _ | .gap _ _ => False

/-! ## The calls -/

/-- What the projector does to its store. -/
inductive StoreCall (δ : Type) where
  | item (mapped : Item δ)
  | delta (mapped : MappedBlockDelta)
  | provenance (requestId : String) (source : Option SubmissionSource)

section calls
variable [BEq δ]

/-- A call of the store. -/
def StoreCall.apply (s : ProjectionStore δ) : StoreCall δ →
    ProjectionStore δ × List (StoreMutation δ)
  | .item mapped => s.applyItem mapped
  | .delta mapped => s.applyDelta mapped
  | .provenance requestId source => s.applyProvenance requestId source

variable (σ) in
/-- A call, and the mutations it sends. -/
def emitting (s : ProjectionStore δ) (call : StoreCall δ) :
    ProjectionStore δ × List (ConversationMutation δ σ) :=
  ((call.apply s).1, (call.apply s).2.map conversationMutation)

end calls

/-- A call as the mappers make it: none of them makes a code block. -/
def StoreCall.Mapped : StoreCall δ → Prop
  | .item mapped => ProjectionStore.codeBlockIds mapped = []
  | .delta _ | .provenance _ _ => True

instance : (call : StoreCall δ) → Decidable call.Mapped
  | .item _ => inferInstanceAs (Decidable (_ = _))
  | .delta _ | .provenance _ _ => isTrue trivial

/-- A delta that does not bring text to a code block. -/
def Streams (item : Item δ) (blockId delta : String) : Prop :=
  delta = "" ∨ blockId ∉ ProjectionStore.codeBlockIds item

/-- No delta that the call applies brings text to a code block: neither the one
it is, nor one that waits for the item it brings. -/
def CodeUntouched (s : ProjectionStore δ) : StoreCall δ → Prop
  | .item mapped => s.get mapped.itemId = none →
    ∀ d ∈ (s.pendingDeltas.lookup mapped.itemId).getD [],
      Streams mapped (targetBlock mapped d.blockId) d.delta
  | .delta mapped => ∀ item ∈ s.get mapped.itemId,
    Streams item (targetBlock item mapped.blockId) mapped.delta
  | .provenance _ _ => True

instance (item : Item δ) (blockId delta : String) : Decidable (Streams item blockId delta) :=
  inferInstanceAs (Decidable (_ ∨ _))

instance (s : ProjectionStore δ) : (call : StoreCall δ) → Decidable (CodeUntouched s call)
  | .item _ => inferInstanceAs (Decidable (_ → _))
  | .delta _ => inferInstanceAs (Decidable (∀ _ ∈ _, _))
  | .provenance _ _ => isTrue trivial

namespace ProjectionStore

/-! ## One change at a time -/

theorem appendToBlock_eq {block : Block δ} {delta : String}
    (h : delta = "" ∨ isCode block = false) : appendToBlock block delta = appendText block delta := by
  obtain ⟨blockId, content⟩ := block
  cases content <;> rcases h with h | h <;> simp_all [appendToBlock, appendText, isCode]

theorem applyBlockDelta_eq {item : Item δ} {blockId delta : String}
    (h : Streams item blockId delta) :
    applyBlockDelta item blockId (item.revision + 1) delta = appendDelta item blockId delta := by
  unfold applyBlockDelta appendDelta
  congr 1
  apply List.map_congr_left
  intro block hblock
  split
  · rename_i hid
    apply appendToBlock_eq
    rcases h with h | h
    · exact .inl h
    · right
      apply Bool.eq_false_iff.mpr
      intro hcode
      exact h (List.mem_map.mpr ⟨block, List.mem_filter.mpr ⟨hblock, hcode⟩, hid⟩)
  · rfl

section leads
variable {s : ProjectionStore δ}

theorem leads_put (h : Stored s) {item old : Item δ} (hget : s.get item.itemId = some old)
    (hrevision : item.revision = old.revision + 1)
    (hordinal : item.globalOrdinal = old.globalOrdinal) :
    Mirror.Leads receive Proper s.view [(.upsertItem item : ConversationMutation δ σ)]
      (s.put item).view := by
  obtain ⟨hmem, hid⟩ := (mem_view h).mp hget
  exact .single ⟨old, hmem, hid, hrevision, hordinal⟩ (view_put h hget).symm

theorem leads_put_new (h : Stored s) {item : Item δ} (hget : s.get item.itemId = none)
    (hrevision : item.revision = 1) (hordinal : item.globalOrdinal = s.items.length + 1) :
    Mirror.Leads receive Proper s.view [(.appendItem item : ConversationMutation δ σ)]
      (s.put item).view := by
  have hview := view_put_new hget
  refine .single ⟨?_, hrevision, ?_⟩ hview.symm
  · intro x hx hid
    have := (mem_view h).mpr ⟨hx, hid⟩
    rw [hget] at this
    cases this
  · rw [hordinal, view, List.length_map]

theorem leads_append (h : Stored s) {item : Item δ} (hget : s.get item.itemId = some item)
    {blockId delta : String} (hstream : Streams item blockId delta) :
    Mirror.Leads receive Proper s.view
      [(.appendBlockDelta item.itemId blockId item.revision (item.revision + 1) delta :
        ConversationMutation δ σ)]
      (s.put (appendDelta item blockId delta)).view := by
  obtain ⟨hmem, -⟩ := (mem_view h).mp hget
  refine .single ⟨rfl, item, hmem, rfl, rfl⟩ ?_
  have hself : s.get (appendDelta item blockId delta).itemId = some item := hget
  rw [view_put h hself]
  apply List.map_congr_left
  intro x hx
  by_cases hid : x.itemId = item.itemId
  · have hx' := (mem_view h).mpr ⟨hx, hid⟩
    rw [hget] at hx'
    obtain rfl := Option.some.inj hx'
    rw [if_pos ⟨rfl, rfl⟩, applyBlockDelta_eq hstream]
    exact (if_pos rfl).symm
  · rw [if_neg (fun hc => hid hc.1)]
    exact (if_neg hid).symm

theorem leads_applyDeltaTo (h : Stored s) {item : Item δ}
    (hget : s.get item.itemId = some item) {blockId delta : String}
    (hstream : Streams item blockId delta) :
    Mirror.Leads receive Proper s.view
      ((s.applyDeltaTo item blockId delta).2.map (conversationMutation : StoreMutation δ → ConversationMutation δ σ))
      (s.applyDeltaTo item blockId delta).1.view := by
  unfold applyDeltaTo
  split
  · exact leads_append h hget hstream
  · have hmint := rewritten_mint item blockId delta
    exact leads_put h (by rw [hmint.itemId]; exact hget) hmint.revision hmint.ordinal

/-! ## Whole calls -/

theorem Rewritten.streams {old item : Item δ} (h : Rewritten old item) (blockId delta : String) :
    Streams item (targetBlock item blockId) delta ↔
      Streams old (targetBlock old blockId) delta := by
  unfold Streams targetBlock defaultBlock
  rw [h.code, h.kind]

theorem leads_flush (h : Stored s) {itemId : String} {item : Item δ}
    (hget : s.get itemId = some item) (authoritative : List String)
    {pending : List MappedBlockDelta}
    (hstream : ∀ d ∈ pending, Streams item (targetBlock item d.blockId) d.delta) :
    Mirror.Leads receive Proper s.view
      ((flush itemId authoritative pending s).2.map
        (conversationMutation : StoreMutation δ → ConversationMutation δ σ))
      (flush itemId authoritative pending s).1.view := by
  induction pending generalizing s item with
  | nil => exact .nil _
  | cons mapped pending ih =>
    have hid := ((mem_view h).mp hget).2
    have hget' : s.get item.itemId = some item := by rw [hid]; exact hget
    have hrest : ∀ d ∈ pending, Streams item (targetBlock item d.blockId) d.delta :=
      fun d hd => hstream d (List.mem_cons_of_mem _ hd)
    simp only [flush, hget]
    split
    · exact ih h hget hrest
    · rw [List.map_append]
      apply (leads_applyDeltaTo h hget' (hstream mapped (by simp))).append
      obtain ⟨item', heq, hre⟩ := applyDeltaTo_fst s item (targetBlock item mapped.blockId)
        mapped.delta
      have hkept := kept_applyDeltaTo h item hget' (targetBlock item mapped.blockId) mapped.delta
      -- the item the rest of the backlog meets carries the same code blocks
      have hget'' : (s.applyDeltaTo item (targetBlock item mapped.blockId) mapped.delta).1.get
          itemId = some item' := by
        rw [heq, get_put, if_pos (by rw [hre.itemId, hid])]
      apply ih hkept.stored hget''
      intro d hd
      rw [hre.streams]
      exact hrest d hd

theorem leads_flushPendingDeltas (h : Stored s) {itemId : String} {item : Item δ}
    (hget : s.get itemId = some item) (authoritative : List String)
    (hstream : ∀ d ∈ (s.pendingDeltas.lookup itemId).getD [],
      Streams item (targetBlock item d.blockId) d.delta) :
    Mirror.Leads receive Proper s.view
      ((s.flushPendingDeltas itemId authoritative).2.map
        (conversationMutation : StoreMutation δ → ConversationMutation δ σ))
      (s.flushPendingDeltas itemId authoritative).1.view :=
  leads_flush (s := { s with pendingDeltas := Keyed.erase s.pendingDeltas itemId })
    (h.of_items rfl h.tracked) hget authoritative hstream

theorem leads_applyDelta (h : Sound s) {mapped : MappedBlockDelta}
    (hcode : ∀ item ∈ s.get mapped.itemId,
      Streams item (targetBlock item mapped.blockId) mapped.delta) :
    Mirror.Leads receive Proper s.view
      ((s.applyDelta mapped).2.map
        (conversationMutation : StoreMutation δ → ConversationMutation δ σ))
      (s.applyDelta mapped).1.view := by
  unfold applyDelta
  split
  · exact .nil _
  · rename_i item hget
    have hid := ((mem_view h.toStored).mp hget).2
    exact leads_applyDeltaTo h.toStored (by rw [hid]; exact hget) (hcode item hget)

theorem leads_applyProvenance (h : Sound s) (requestId : String)
    (source : Option SubmissionSource) :
    Mirror.Leads receive Proper s.view
      ((s.applyProvenance requestId source).2.map
        (conversationMutation : StoreMutation δ → ConversationMutation δ σ))
      (s.applyProvenance requestId source).1.view := by
  unfold applyProvenance
  dsimp only
  split
  · split
    · exact .nil _
    · rename_i source itemId _ _ _ item hget
      have hid := ((mem_view h.toStored).mp hget).2
      have hself : s.get (resolved item source).itemId = some item := by
        show s.get item.itemId = _
        rw [hid]
        exact hget
      exact leads_put h.toStored hself rfl rfl
  · exact .nil _

/-- Nothing waits for an item that is there. -/
theorem Sound.no_backlog (h : Sound s) {itemId : String} {item : Item δ}
    (hget : s.get itemId = some item) : s.pendingDeltas.lookup itemId = none := by
  cases hlook : s.pendingDeltas.lookup itemId with
  | none => rfl
  | some pending =>
    have := h.waiting _ (Keyed.mem_of_lookup hlook)
    rw [hget] at this
    cases this

variable [BEq δ]

omit [BEq δ] in
/-- What an item call does once the item stands: it flushes the backlog. -/
theorem leads_settle {item : Item δ} (h : Stored (s.put item))
    (hstream : ∀ d ∈ (s.pendingDeltas.lookup item.itemId).getD [],
      Streams item (targetBlock item d.blockId) d.delta) (authoritative : List String) :
    Mirror.Leads receive Proper (s.put item).view
      ((((s.put item).trackProvenance item).flushPendingDeltas item.itemId authoritative).2.map
        (conversationMutation : StoreMutation δ → ConversationMutation δ σ))
      (((s.put item).trackProvenance item).flushPendingDeltas item.itemId authoritative).1.view := by
  have hself : (s.put item).get item.itemId = some item := get_put_self s item
  have hview : (s.put item).view = ((s.put item).trackProvenance item).view := by
    unfold view
    rw [trackProvenance_items]
  rw [hview]
  apply leads_flushPendingDeltas (h.trackProvenance (by simp))
  · show ((s.put item).trackProvenance item).items.lookup item.itemId = some item
    rw [trackProvenance_items]
    exact hself
  · rw [trackProvenance_pendingDeltas]
    exact hstream

theorem leads_applyItem (h : Sound s) {candidate : Item δ}
    (hcode : s.get candidate.itemId = none →
      ∀ d ∈ (s.pendingDeltas.lookup candidate.itemId).getD [],
        Streams candidate (targetBlock candidate d.blockId) d.delta) :
    Mirror.Leads receive Proper s.view
      ((s.applyItem candidate).2.map
        (conversationMutation : StoreMutation δ → ConversationMutation δ σ))
      (s.applyItem candidate).1.view := by
  unfold applyItem
  dsimp only
  split
  · rename_i hget
    have hget' : s.get (firstAppearance candidate (s.items.length + 1)).itemId = none := hget
    rw [List.map_cons, ← List.singleton_append]
    apply (leads_put_new h.toStored hget' rfl rfl).append
    exact leads_settle (h.toStored.put_new hget' rfl) (hcode hget) _
  · rename_i existing hget
    split
    · have hid := ((mem_view h.toStored).mp hget).2
      have hget' : s.get existing.itemId = some existing := by
        rw [hid]
        exact hget
      apply leads_flushPendingDeltas h.toStored hget'
      rw [h.no_backlog hget']
      simp
    · have hid : (upserted existing (merged existing candidate)).itemId = candidate.itemId := by
        rw [upserted_itemId, merged_itemId]
      have hget' : s.get (upserted existing (merged existing candidate)).itemId = some existing := by
        rw [hid]
        exact hget
      rw [List.map_cons, ← List.singleton_append]
      apply (leads_put h.toStored hget' (upserted_revision _ _) (upserted_ordinal _ _)).append
      apply leads_settle (h.toStored.put hget' (upserted_ordinal _ _))
      rw [h.no_backlog hget']
      simp

end leads

/-! ## Stores without code -/

/-- No item of the store carries a code block. -/
def CodeFree (s : ProjectionStore δ) : Prop :=
  ∀ itemId, ∀ item ∈ s.get itemId, codeBlockIds item = []

section codeFree
variable {s : ProjectionStore δ}

theorem codeBlockIds_eq_nil {item : Item δ} :
    codeBlockIds item = [] ↔ ∀ block ∈ item.blocks, isCode block = false := by
  unfold codeBlockIds
  rw [List.map_eq_nil_iff, List.filter_eq_nil_iff]
  simp only [Bool.not_eq_true]

theorem CodeFree.put (h : CodeFree s) {item : Item δ} (hitem : codeBlockIds item = []) :
    CodeFree (s.put item) := by
  intro itemId held hheld
  rw [get_put] at hheld
  split at hheld
  · cases hheld
    exact hitem
  · exact h itemId held hheld

theorem CodeFree.applyDeltaTo (h : CodeFree s) {item : Item δ} (hitem : codeBlockIds item = [])
    (blockId delta : String) : CodeFree (s.applyDeltaTo item blockId delta).1 := by
  obtain ⟨item', heq, hre⟩ := applyDeltaTo_fst s item blockId delta
  rw [heq]
  exact h.put (hre.code.trans hitem)

theorem CodeFree.flush (h : CodeFree s) (itemId : String) (authoritative : List String)
    (pending : List MappedBlockDelta) :
    CodeFree (ProjectionStore.flush itemId authoritative pending s).1 := by
  induction pending generalizing s with
  | nil => exact h
  | cons mapped pending ih =>
    unfold ProjectionStore.flush
    split
    · exact h
    · rename_i current hget
      dsimp only
      split
      · exact ih h
      · exact ih (h.applyDeltaTo (h itemId current hget) _ _)

theorem mem_unionBlocks {blocks more : List (Block δ)} {block : Block δ}
    (h : block ∈ unionBlocks blocks more) : block ∈ blocks ∨ block ∈ more := by
  obtain ⟨e, he, rfl⟩ := List.mem_map.mp h
  obtain ⟨block, hblock, rfl⟩ := List.mem_map.mp (Keyed.mem_of_mem_dict he)
  exact List.mem_append.mp hblock

/-- Merging makes up no block. -/
theorem mem_blocks_merged {existing candidate : Item δ} {block : Block δ}
    (h : block ∈ (merged existing candidate).blocks) :
    block ∈ existing.blocks ∨ block ∈ candidate.blocks := by
  have hroster : (reconcileRosterUpsert existing candidate).blocks = candidate.blocks := by
    unfold reconcileRosterUpsert
    grind
  have hunion : block ∈ (unionToolCall existing (reconcileRosterUpsert existing candidate)).blocks →
      block ∈ existing.blocks ∨ block ∈ candidate.blocks := by
    intro hblock
    unfold unionToolCall at hblock
    dsimp only at hblock
    split at hblock
    · have hunion : block ∈ unionBlocks existing.blocks
          (reconcileRosterUpsert existing candidate).blocks := by
        split at hblock <;> exact hblock
      rw [hroster] at hunion
      exact mem_unionBlocks hunion
    · rw [hroster] at hblock
      exact .inr hblock
  unfold merged retainFinalMessage at h
  split at h
  · rcases List.mem_append.mp h with h | h
    · exact hunion h
    · exact .inl (List.mem_filter.mp h).1
  · exact hunion h

theorem blocks_upserted (existing candidate : Item δ) :
    (upserted existing candidate).blocks = candidate.blocks := by
  unfold upserted preservedInputAuthority
  split <;> rfl

theorem codeBlockIds_upserted {existing candidate : Item δ} (hexisting : codeBlockIds existing = [])
    (hcandidate : codeBlockIds candidate = []) :
    codeBlockIds (upserted existing (merged existing candidate)) = [] := by
  rw [codeBlockIds_eq_nil] at hexisting hcandidate ⊢
  intro block hblock
  rw [blocks_upserted] at hblock
  rcases mem_blocks_merged hblock with hblock | hblock
  · exact hexisting block hblock
  · exact hcandidate block hblock

/-- The item stands, and its backlog is flushed. -/
theorem CodeFree.settle (h : CodeFree s) {item : Item δ} (hitem : codeBlockIds item = [])
    (authoritative : List String) :
    CodeFree (((s.put item).trackProvenance item).flushPendingDeltas item.itemId
      authoritative).1 := by
  apply CodeFree.flush
  intro itemId held hheld
  apply h.put hitem itemId held
  have hsame : ((s.put item).trackProvenance item).items = (s.put item).items := by
    rw [trackProvenance_items]
  unfold get at hheld ⊢
  rwa [← hsame]

variable [BEq δ]

theorem CodeFree.applyItem (h : CodeFree s) {candidate : Item δ}
    (hcandidate : codeBlockIds candidate = []) : CodeFree (s.applyItem candidate).1 := by
  unfold ProjectionStore.applyItem
  dsimp only
  split
  · have hfirst : codeBlockIds (firstAppearance candidate (s.items.length + 1)) = [] := hcandidate
    exact h.settle hfirst _
  · rename_i existing hget
    split
    · have hbase : CodeFree
          { s with pendingDeltas := Keyed.erase s.pendingDeltas existing.itemId } := h
      exact hbase.flush _ _ _
    · exact h.settle (codeBlockIds_upserted (h _ existing hget) hcandidate) _

theorem CodeFree.apply (h : CodeFree s) {call : StoreCall δ} (hmapped : call.Mapped) :
    CodeFree (call.apply s).1 := by
  cases call with
  | item mapped => exact h.applyItem hmapped
  | delta mapped =>
    unfold StoreCall.apply ProjectionStore.applyDelta
    dsimp only
    split
    · exact h
    · rename_i item hget
      exact h.applyDeltaTo (h _ item hget) _ _
  | provenance requestId source =>
    unfold StoreCall.apply applyProvenance
    dsimp only
    split
    · split
      · exact h
      · rename_i item hget
        exact CodeFree.put h (h _ item hget)
    · exact h

omit [BEq δ] in
/-- Where there is no code, no delta meets any. -/
theorem CodeFree.untouched (h : CodeFree s) {call : StoreCall δ} (hmapped : call.Mapped) :
    CodeUntouched s call := by
  have hstreams : ∀ {item : Item δ} (blockId delta : String), codeBlockIds item = [] →
      Streams item blockId delta := by
    intro item blockId delta hnone
    right
    rw [hnone]
    exact List.not_mem_nil
  cases call with
  | item mapped => exact fun _ _ _ => hstreams _ _ hmapped
  | delta mapped => exact fun item hget => hstreams _ _ (h _ item hget)
  | provenance requestId source => trivial

end codeFree

/-! ## Runs of calls -/

variable [BEq δ]

theorem sound_apply {s : ProjectionStore δ} (h : Sound s) (call : StoreCall δ) :
    Sound (call.apply s).1 := by
  cases call with
  | item mapped => exact h.applyItem mapped
  | delta mapped => exact h.applyDelta mapped
  | provenance requestId source => exact h.applyProvenance requestId source

theorem leads_apply {s : ProjectionStore δ} (h : Sound s) {call : StoreCall δ}
    (hcode : CodeUntouched s call) :
    Mirror.Leads receive Proper s.view (emitting σ s call).2 (emitting σ s call).1.view := by
  cases call with
  | item mapped => exact leads_applyItem h hcode
  | delta mapped => exact leads_applyDelta h hcode
  | provenance requestId source => exact leads_applyProvenance h requestId source

/-! ## The order of the ids -/

omit [BEq δ] in
theorem prefix_put (s : ProjectionStore δ) (item : Item δ) :
    s.items.map Prod.fst <+: (s.put item).items.map Prod.fst := by
  show _ <+: (Keyed.set s.items item.itemId item).map Prod.fst
  rw [Keyed.keys_set]
  split
  · exact List.prefix_rfl
  · exact List.prefix_append _ _

omit [BEq δ] in
theorem keys_flushPendingDeltas {s : ProjectionStore δ} (h : Stored s) (itemId : String)
    (authoritative : List String) :
    (s.flushPendingDeltas itemId authoritative).1.items.map Prod.fst = s.items.map Prod.fst :=
  (kept_flush (s := { s with pendingDeltas := Keyed.erase s.pendingDeltas itemId })
    (h.of_items rfl h.tracked) itemId authoritative _).keys

theorem prefix_applyItem {s : ProjectionStore δ} (h : Sound s) (candidate : Item δ) :
    s.items.map Prod.fst <+: (s.applyItem candidate).1.items.map Prod.fst := by
  unfold applyItem
  dsimp only
  split
  · rename_i hget
    have hget' : s.get (firstAppearance candidate (s.items.length + 1)).itemId = none := hget
    rw [keys_flushPendingDeltas ((h.toStored.put_new hget' rfl).trackProvenance (by simp)),
      trackProvenance_items]
    exact prefix_put s _
  · rename_i existing hget
    split
    · exact (keys_flushPendingDeltas h.toStored _ _).symm ▸ List.prefix_rfl
    · have hget' : s.get (upserted existing (merged existing candidate)).itemId = some existing := by
        rw [upserted_itemId, merged_itemId]
        exact hget
      rw [keys_flushPendingDeltas ((h.toStored.put hget' (upserted_ordinal _ _)).trackProvenance
        (by simp)), trackProvenance_items]
      exact prefix_put s _

theorem prefix_apply {s : ProjectionStore δ} (h : Sound s) (call : StoreCall δ) :
    s.items.map Prod.fst <+: (call.apply s).1.items.map Prod.fst := by
  cases call with
  | item mapped => exact prefix_applyItem h mapped
  | delta mapped =>
    unfold StoreCall.apply applyDelta
    dsimp only
    split
    · exact List.prefix_rfl
    · rename_i item hget
      obtain ⟨item', heq, -⟩ := applyDeltaTo_fst s item (targetBlock item mapped.blockId)
        mapped.delta
      rw [heq]
      exact prefix_put s _
  | provenance requestId source =>
    unfold StoreCall.apply applyProvenance
    dsimp only
    split
    · split
      · exact List.prefix_rfl
      · exact prefix_put _ _
    · exact List.prefix_rfl

end ProjectionStore

/-! ## The replica -/

section replica
variable [BEq δ]

/-- The stores that calls reach. -/
def ReachableStore (s : ProjectionStore δ) : Prop :=
  ∃ calls : List (StoreCall δ), (Mirror.run (emitting Unit) {} calls).1 = s

/-- The stores that calls reach as the mappers make them. -/
def MappedStore (s : ProjectionStore δ) : Prop :=
  ∃ calls : List (StoreCall δ), (∀ call ∈ calls, call.Mapped) ∧
    (Mirror.run (emitting Unit) {} calls).1 = s

theorem ReachableStore.sound {s : ProjectionStore δ} (h : ReachableStore s) : s.Sound := by
  obtain ⟨calls, rfl⟩ := h
  have keep : ∀ (s : ProjectionStore δ) call, s.Sound → (emitting Unit s call).1.Sound :=
    fun _ call hs => ProjectionStore.sound_apply hs call
  exact Mirror.run_invariant keep calls ProjectionStore.Sound.empty

variable (σ) in
/-- A copy that takes the mutations of the calls ends as the store does; every
mutation is proper for the copy it meets, and items keep their places. -/
def Reproduces (s : ProjectionStore δ) (calls : List (StoreCall δ)) : Prop :=
  let (t, mutations) := Mirror.run (emitting σ) s calls
  mutations.foldl receive s.view = t.view ∧
    Mirror.Leads receive Proper s.view mutations t.view ∧
    s.view.map Item.itemId <+: t.view.map Item.itemId ∧
    ∀ i item, t.view[i]? = some item → item.globalOrdinal = i + 1

theorem replica_reproduces_store {s : ProjectionStore δ} (hs : ReachableStore s)
    {calls : List (StoreCall δ)} (hcode : Mirror.Throughout (emitting σ) CodeUntouched s calls) :
    Reproduces σ s calls := by
  have keep : ∀ (s : ProjectionStore δ) call, s.Sound → (emitting σ s call).1.Sound :=
    fun _ call hs => ProjectionStore.sound_apply hs call
  have hleads := Mirror.leads_run keep (fun _ _ hs hc => ProjectionStore.leads_apply hs hc)
    hs.sound hcode
  have hend := Mirror.run_invariant keep calls hs.sound
  have hkeys := Mirror.run_rel
    (R := fun s t : ProjectionStore δ => s.items.map Prod.fst <+: t.items.map Prod.fst)
    (fun _ => List.prefix_rfl) List.IsPrefix.trans keep
    (fun _ call hs => ProjectionStore.prefix_apply hs call) calls hs.sound
  refine ⟨hleads.foldl, hleads, ?_, fun i item => hend.toStored.ordinal⟩
  rw [ProjectionStore.view_itemId hs.sound.toStored, ProjectionStore.view_itemId hend.toStored]
  exact hkeys

variable (σ) in
theorem mapped_untouched {s : ProjectionStore δ} (hs : ProjectionStore.CodeFree s)
    {calls : List (StoreCall δ)} (hcalls : ∀ call ∈ calls, call.Mapped) :
    Mirror.Throughout (emitting σ) CodeUntouched s calls ∧
      ProjectionStore.CodeFree (Mirror.run (emitting σ) s calls).1 :=
  Mirror.throughout_of_calls (fun _ _ hfree hmapped => hfree.apply hmapped)
    (fun _ _ hfree hmapped => hfree.untouched hmapped) hs hcalls

/-- Whatever the mappers bring, from whatever they brought before, the mutations reproduce the
store. -/
theorem mapped_calls_reproduce_store {s : ProjectionStore δ} (hs : MappedStore s)
    {calls : List (StoreCall δ)} (hcalls : ∀ call ∈ calls, call.Mapped) :
    Reproduces σ s calls := by
  obtain ⟨before, hbefore, rfl⟩ := hs
  have hempty : ProjectionStore.CodeFree ({} : ProjectionStore δ) := by
    intro itemId item hitem
    cases hitem
  have hfree := (mapped_untouched Unit hempty hbefore).2
  exact replica_reproduces_store ⟨before, rfl⟩ (mapped_untouched σ hfree hcalls).1

end replica

/-! An item that no mapper makes, whose code grows by a delta: the server keeps it as it was. -/

/-- A message that is a code listing. -/
def listing : Item Unit where
  itemId := "listing"
  lane := .harness
  source := .harnessLive
  provenance := { strength := .nativeOnly, origin := "mapper" }
  role := .assistant
  kind := .message
  phase := .streaming
  blocks := [⟨"intro", .markdown "Sum:"⟩, ⟨"body", .code "1 +" none⟩]

example :
    ¬Reproduces Unit {} [.item listing, .delta ⟨"listing", "body", " 2"⟩] :=
  fun h => absurd h.1 (by decide +kernel)

/-- A message that the mappers make, streamed before it is there and after. -/
def message : Item Unit := { listing with itemId := "message", blocks := [⟨"intro", .markdown "Sum:"⟩] }

theorem mapped_calls_reproduce_message :
    Reproduces Unit {} [.delta ⟨"message", "output", "3"⟩, .item message,
      .delta ⟨"message", "intro", " a"⟩, .provenance "r1" (some .cockpit)] :=
  mapped_calls_reproduce_store ⟨[], by simp, rfl⟩ (by decide)

end AgentsRemember.Conversation
