import AgentsRemember.Conversation.Merging

/-!
# Conversation — Blocks

The blocks of an item under its events: the ids in their order, and under each
id the block a merge would read. A version of a tool call unites, a notice
retains its final message, and every other version replaces what is there.
-/

namespace AgentsRemember.Conversation

namespace ProjectionStore

variable {δ : Type}

/-! ## Ids -/

/-- The block ids of an item. -/
def ids (item : Item δ) : List String := item.blocks.map Block.blockId

/-- The block that a merge reads under an id: the last of that name. -/
def held (blocks : List (Block δ)) (blockId : String) : Option (Block δ) :=
  (Keyed.dict (blocks.map fun block => (block.blockId, block))).lookup blockId

theorem hasBlock_iff {item : Item δ} {blockId : String} :
    hasBlock item blockId = true ↔ blockId ∈ ids item := by
  unfold hasBlock ids
  rw [List.any_eq_true, List.mem_map]
  simp only [beq_iff_eq]

theorem fst_pairs (blocks : List (Block δ)) :
    (blocks.map fun block => (block.blockId, block)).map Prod.fst = blocks.map Block.blockId := by
  rw [List.map_map]
  rfl

theorem held_isSome {blocks : List (Block δ)} {blockId : String} :
    (held blocks blockId).isSome ↔ blockId ∈ blocks.map Block.blockId := by
  unfold held
  rw [Keyed.lookup_isSome_iff, Keyed.mem_keys_dict, fst_pairs]

theorem held_append (blocks more : List (Block δ)) (blockId : String) :
    held (blocks ++ more) blockId = (held more blockId).or (held blocks blockId) := by
  unfold held
  rw [List.map_append, Keyed.lookup_dict_append]

/-- The entries of a union stand under their own ids. -/
theorem pairs_unionBlocks (blocks more : List (Block δ)) :
    (unionBlocks blocks more).map (fun block => (block.blockId, block)) =
      Keyed.dict ((blocks ++ more).map fun block => (block.blockId, block)) := by
  unfold unionBlocks
  rw [List.map_map]
  conv_rhs => rw [← List.map_id (Keyed.dict _)]
  apply List.map_congr_left
  intro e he
  obtain ⟨block, -, rfl⟩ := List.mem_map.mp (Keyed.mem_of_mem_dict he)
  rfl

theorem held_unionBlocks (blocks more : List (Block δ)) (blockId : String) :
    held (unionBlocks blocks more) blockId = (held more blockId).or (held blocks blockId) := by
  rw [← held_append]
  unfold held
  rw [pairs_unionBlocks, Keyed.dict_of_nodup (Keyed.nodup_keys_dict _)]

theorem nodup_unionBlocks (blocks more : List (Block δ)) :
    ((unionBlocks blocks more).map Block.blockId).Nodup := by
  rw [← fst_pairs, pairs_unionBlocks]
  exact Keyed.nodup_keys_dict _

theorem mem_unionBlocks_ids {blocks more : List (Block δ)} {blockId : String} :
    blockId ∈ (unionBlocks blocks more).map Block.blockId ↔
      blockId ∈ blocks.map Block.blockId ∨ blockId ∈ more.map Block.blockId := by
  rw [← fst_pairs, pairs_unionBlocks, Keyed.mem_keys_dict, fst_pairs, List.map_append,
    List.mem_append]

/-- A union with blocks whose ids are there keeps the ids and their order. -/
theorem ids_unionBlocks {blocks more : List (Block δ)} (hnodup : (blocks.map Block.blockId).Nodup)
    (hsub : ∀ block ∈ more, block.blockId ∈ blocks.map Block.blockId) :
    (unionBlocks blocks more).map Block.blockId = blocks.map Block.blockId := by
  rw [← fst_pairs, pairs_unionBlocks, List.map_append, Keyed.dict, List.foldl_append]
  have hdict : Keyed.dict (blocks.map fun block => (block.blockId, block)) =
      blocks.map fun block => (block.blockId, block) := by
    apply Keyed.dict_of_nodup
    rw [fst_pairs]
    exact hnodup
  rw [Keyed.dict] at hdict
  rw [hdict, Keyed.keys_foldl_set, fst_pairs]
  intro e he
  obtain ⟨block, hblock, rfl⟩ := List.mem_map.mp he
  rw [fst_pairs]
  exact hsub block hblock

/-- Blocks under the same distinct ids that are held alike are the same. -/
theorem blocks_ext {blocks more : List (Block δ)}
    (hids : blocks.map Block.blockId = more.map Block.blockId)
    (hnodup : (blocks.map Block.blockId).Nodup)
    (hheld : ∀ blockId, held blocks blockId = held more blockId) : blocks = more := by
  have hpairs : (blocks.map fun block => (block.blockId, block)) =
      more.map fun block => (block.blockId, block) := by
    apply Keyed.ext_lookup
    · rw [fst_pairs, fst_pairs, hids]
    · rw [fst_pairs]
      exact hnodup
    · intro blockId
      have h := hheld blockId
      unfold held at h
      rwa [Keyed.dict_of_nodup, Keyed.dict_of_nodup] at h
      · rw [fst_pairs, ← hids]
        exact hnodup
      · rw [fst_pairs]
        exact hnodup
  have hblocks := congrArg (List.map Prod.snd) hpairs
  rw [List.map_map, List.map_map] at hblocks
  simpa [Function.comp_def] using hblocks

/-- The block a delta mints. -/
def minted (kind : Kind) (blockId text : String) : Block δ :=
  ⟨blockId, match kind with
    | .toolCall => .toolOutput (some text) none
    | .thinking => .thinking text
    | _ => .markdown text⟩

theorem blocks_streamed (item : Item δ) (blockId delta : String) :
    (streamed item blockId delta).blocks =
      if blockId ∈ ids item then
        item.blocks.map fun block => if block.blockId = blockId then appendText block delta else block
      else item.blocks ++ [minted item.kind blockId delta] := by
  unfold streamed
  by_cases hmem : blockId ∈ ids item
  · rw [if_pos (hasBlock_iff.mpr hmem), if_pos hmem]
    rfl
  · rw [if_neg fun h => hmem (hasBlock_iff.mp h), if_neg hmem]
    rfl

theorem ids_streamed (item : Item δ) (blockId delta : String) :
    ids (streamed item blockId delta) =
      if blockId ∈ ids item then ids item else ids item ++ [blockId] := by
  rw [ids, blocks_streamed]
  split
  · rw [List.map_map]
    apply List.map_congr_left
    intro block _
    dsimp only [Function.comp_apply]
    split
    · exact appendText_blockId block delta
    · rfl
  · rw [List.map_append]
    rfl

theorem blockId_of_held {blocks : List (Block δ)} {blockId : String} {block : Block δ}
    (h : held blocks blockId = some block) : block.blockId = blockId := by
  obtain ⟨other, -, heq⟩ := List.mem_map.mp (Keyed.mem_of_mem_dict (Keyed.mem_of_lookup h))
  rw [Prod.mk.injEq] at heq
  rw [← heq.2]
  exact heq.1

theorem held_map {f : Block δ → Block δ} (hf : ∀ block, (f block).blockId = block.blockId)
    (blocks : List (Block δ)) (blockId : String) :
    held (blocks.map f) blockId = (held blocks blockId).map f := by
  unfold held
  rw [← Keyed.lookup_dict_map, List.map_map, List.map_map]
  congr 2
  apply List.map_congr_left
  intro block _
  exact Prod.ext (hf block) rfl

/-- A delta writes under its own id only, by the kind and what is held there. -/
theorem held_streamed (item : Item δ) (blockId delta other : String) :
    held (streamed item blockId delta).blocks other =
      if other = blockId then
        some ((held item.blocks blockId).elim (minted item.kind blockId delta)
          fun block => appendText block delta)
      else held item.blocks other := by
  rw [blocks_streamed]
  split
  · rename_i hmem
    obtain ⟨block, hblock⟩ := Option.isSome_iff_exists.mp (held_isSome.mpr hmem)
    rw [held_map]
    · by_cases hother : other = blockId
      · rw [if_pos hother, hother, hblock, Option.map_some, if_pos (blockId_of_held hblock)]
        rfl
      · rw [if_neg hother]
        cases hheld : held item.blocks other with
        | none => rfl
        | some block =>
          rw [Option.map_some, if_neg]
          rw [blockId_of_held hheld]
          exact hother
    · intro block
      split
      · exact appendText_blockId block delta
      · rfl
  · rename_i hmem
    have hnone : held item.blocks blockId = none := by
      rw [← Option.not_isSome_iff_eq_none, held_isSome]
      exact hmem
    have hmint : ∀ key, held [(minted item.kind blockId delta : Block δ)] key =
        if blockId = key then some (minted item.kind blockId delta : Block δ) else none := fun key => by
      show List.lookup key [(blockId, (minted item.kind blockId delta : Block δ))] = _
      rw [Keyed.lookup_cons]
      rfl
    rw [held_append, hmint, hnone]
    by_cases hother : other = blockId
    · subst hother
      simp
    · simp [hother, Ne.symm hother]

/-! ## Versions -/

/-- The merges that keep something of the blocks that are there. -/
def Retains (kind : Kind) (candidate : Item δ) : Prop :=
  kind = .toolCall ∧ candidate.kind = .toolCall ∨
    kind = .notice ∧ candidate.kind = .notice ∧ "final-message" ∉ ids candidate

/-- The blocks of one name. -/
def named (blocks : List (Block δ)) (blockId : String) : List (Block δ) :=
  blocks.filter fun block => block.blockId = blockId

theorem blocks_unionToolCall (existing candidate : Item δ) :
    (unionToolCall existing candidate).blocks =
      if existing.kind = .toolCall ∧ candidate.kind = .toolCall then
        unionBlocks existing.blocks candidate.blocks
      else candidate.blocks := by
  unfold unionToolCall
  split
  · dsimp only
    split <;> rfl
  · rfl

theorem blocks_retainFinalMessage (existing candidate : Item δ) :
    (retainFinalMessage existing candidate).blocks =
      if existing.kind = .notice ∧ candidate.kind = .notice ∧ "final-message" ∉ ids candidate then
        candidate.blocks ++ named existing.blocks "final-message"
      else candidate.blocks := by
  simp only [retainFinalMessage, hasBlock_iff]
  split <;> rfl

theorem kind_merge (existing candidate : Item δ) :
    (unionToolCall existing (reconcileRosterUpsert existing candidate)).kind = candidate.kind :=
  congrArg Label.kind ((label_unionToolCall _ _).1.trans (label_reconcileRosterUpsert _ _).1)

theorem blocks_absorb_tool {existing candidate : Item δ} (h : existing.kind = .toolCall)
    (h' : candidate.kind = .toolCall) :
    (absorb existing candidate).blocks = unionBlocks existing.blocks candidate.blocks := by
  have hkind : (reconcileRosterUpsert existing candidate).kind = .toolCall :=
    (congrArg Label.kind (label_reconcileRosterUpsert existing candidate).1).trans h'
  rw [(absorb_eq existing candidate).2.2.1, merged, blocks_retainFinalMessage, if_neg,
    blocks_unionToolCall, if_pos ⟨h, hkind⟩, (label_reconcileRosterUpsert _ _).2.1]
  rintro ⟨hnotice, -⟩
  rw [h] at hnotice
  cases hnotice

/-- Away from tool calls the blocks that a version meets are the mapper's. -/
theorem blocks_merge {existing candidate : Item δ}
    (h : ¬(existing.kind = .toolCall ∧ candidate.kind = .toolCall)) :
    (unionToolCall existing (reconcileRosterUpsert existing candidate)).blocks =
      candidate.blocks := by
  have hkind : (reconcileRosterUpsert existing candidate).kind = candidate.kind :=
    congrArg Label.kind (label_reconcileRosterUpsert existing candidate).1
  rw [blocks_unionToolCall, hkind, if_neg h, (label_reconcileRosterUpsert _ _).2.1]

theorem blocks_absorb_notice {existing candidate : Item δ} (h : existing.kind = .notice)
    (h' : candidate.kind = .notice) (hfinal : "final-message" ∉ ids candidate) :
    (absorb existing candidate).blocks =
      candidate.blocks ++ named existing.blocks "final-message" := by
  have hmerge : (unionToolCall existing (reconcileRosterUpsert existing candidate)).blocks =
      candidate.blocks := blocks_merge fun htool => by simp [h] at htool
  rw [(absorb_eq existing candidate).2.2.1, merged, blocks_retainFinalMessage, kind_merge, ids,
    hmerge, if_pos ⟨h, h', hfinal⟩]

theorem blocks_absorb_replaced {existing candidate : Item δ} (h : ¬Retains existing.kind candidate) :
    (absorb existing candidate).blocks = candidate.blocks := by
  rw [Retains, not_or] at h
  rw [(absorb_eq existing candidate).2.2.1, merged, blocks_retainFinalMessage, kind_merge, ids,
    blocks_merge h.1]
  exact if_neg h.2

theorem kind_absorb (existing candidate : Item δ) :
    (absorb existing candidate).kind = candidate.kind :=
  congrArg Label.kind (absorb_eq existing candidate).1

theorem kind_streamed (item : Item δ) (blockId delta : String) :
    (streamed item blockId delta).kind = item.kind :=
  congrArg Label.kind (label_streamed item blockId delta).1

theorem targetBlock_congr {x y : Item δ} (h : x.kind = y.kind) (blockId : String) :
    targetBlock x blockId = targetBlock y blockId := by
  unfold targetBlock defaultBlock
  rw [h]

theorem blocks_turn_congr {x y : Item δ} (hkind : x.kind = y.kind) (hblocks : x.blocks = y.blocks)
    (event : ItemEvent δ) : (turn x event).blocks = (turn y event).blocks := by
  cases event with
  | resolve source => exact hblocks
  | delta mapped =>
    show (streamed x _ _).blocks = (streamed y _ _).blocks
    rw [blocks_streamed, blocks_streamed, targetBlock_congr hkind, ids, ids, hblocks, hkind]
  | version candidate =>
    show (absorb x candidate).blocks = (absorb y candidate).blocks
    by_cases hkept : Retains y.kind candidate
    · rcases hkept with ⟨h, h'⟩ | ⟨h, h', hfinal⟩
      · rw [blocks_absorb_tool (hkind.trans h) h', blocks_absorb_tool h h', hblocks]
      · rw [blocks_absorb_notice (hkind.trans h) h' hfinal, blocks_absorb_notice h h' hfinal,
          hblocks]
    · rw [blocks_absorb_replaced (hkind ▸ hkept), blocks_absorb_replaced hkept]

/-! ## What is still to come -/

/-- The versions among the events. -/
def versions (events : List (ItemEvent δ)) : List (Item δ) :=
  events.filterMap fun event => match event with
    | .version candidate => some candidate
    | _ => none

/-- The deltas among the events. -/
def deltas (events : List (ItemEvent δ)) : List MappedBlockDelta :=
  events.filterMap fun event => match event with
    | .delta mapped => some mapped
    | _ => none

/-- Some version replaces the blocks it meets. -/
def Replaced : Kind → List (Item δ) → Prop
  | _, [] => False
  | kind, candidate :: later => ¬Retains kind candidate ∨ Replaced candidate.kind later

/-- Otherwise the versions are all of one kind that keeps blocks, or there is none. -/
theorem of_not_replaced {kind : Kind} {later : List (Item δ)} (h : ¬Replaced kind later) :
    later = [] ∨ kind = .toolCall ∧ (∀ candidate ∈ later, candidate.kind = .toolCall) ∨
      kind = .notice ∧ ∀ candidate ∈ later,
        candidate.kind = .notice ∧ "final-message" ∉ ids candidate := by
  induction later generalizing kind with
  | nil => exact .inl rfl
  | cons candidate later ih =>
    right
    rw [Replaced, not_or, not_not] at h
    obtain ⟨hkept, hlater⟩ := h
    rcases hkept with ⟨hkind, htool⟩ | ⟨hkind, hnotice, hfinal⟩
    · refine .inl ⟨hkind, List.forall_mem_cons.mpr ⟨htool, ?_⟩⟩
      rcases ih hlater with rfl | ⟨-, hall⟩ | ⟨hother, -⟩
      · exact fun _ hmem => absurd hmem List.not_mem_nil
      · exact hall
      · rw [htool] at hother
        cases hother
    · refine .inr ⟨hkind, List.forall_mem_cons.mpr ⟨⟨hnotice, hfinal⟩, ?_⟩⟩
      rcases ih hlater with rfl | ⟨hother, -⟩ | ⟨-, hall⟩
      · exact fun _ hmem => absurd hmem List.not_mem_nil
      · rw [hnotice] at hother
        cases hother
      · exact hall

/-- Blocks that are the same, or will be once a version has replaced them, end
the same. -/
theorem blocks_lockstep {x y : Item δ} {events : List (ItemEvent δ)} (hkind : x.kind = y.kind)
    (h : x.blocks = y.blocks ∨ Replaced x.kind (versions events)) :
    (events.foldl turn x).blocks = ((events.filter unresolving).foldl turn y).blocks := by
  refine (foldl_turn_unresolving (R := fun events x y => x.kind = y.kind ∧
    (x.blocks = y.blocks ∨ Replaced x.kind (versions events))) ?_ ?_ ⟨hkind, h⟩).2.resolve_right id
  · rintro event events x y - ⟨hkind, h⟩
    cases event with
    | resolve source => exact ⟨hkind, h⟩
    | delta mapped =>
      refine ⟨(kind_streamed ..).trans (hkind.trans (kind_streamed ..).symm), ?_⟩
      refine h.imp (fun hblocks => blocks_turn_congr hkind hblocks _) fun hreplaced => ?_
      rw [show (turn x (.delta mapped)).kind = x.kind from kind_streamed ..]
      exact hreplaced
    | version candidate =>
      refine ⟨(kind_absorb ..).trans (kind_absorb ..).symm, ?_⟩
      rw [show (turn x (.version candidate)).kind = candidate.kind from kind_absorb ..]
      rcases h with hblocks | hkept | hreplaced
      · exact .inl (blocks_turn_congr hkind hblocks _)
      · left
        show (absorb x candidate).blocks = (absorb y candidate).blocks
        rw [blocks_absorb_replaced hkept, blocks_absorb_replaced (hkind ▸ hkept)]
      · exact .inr hreplaced
  · exact fun _ _ _ _ h => h

/-! ## Tool calls -/

/-- The address of a delta for a tool call. -/
def toolTarget (mapped : MappedBlockDelta) : String :=
  if mapped.blockId = "" then "output" else mapped.blockId

theorem targetBlock_tool {item : Item δ} (h : item.kind = .toolCall) (mapped : MappedBlockDelta) :
    targetBlock item mapped.blockId = toolTarget mapped := by
  unfold targetBlock defaultBlock toolTarget
  rw [if_pos h]

/-- A tool call, as all its versions to come. -/
def ToolCalls (item : Item δ) (events : List (ItemEvent δ)) : Prop :=
  item.kind = .toolCall ∧ ∀ candidate ∈ versions events, candidate.kind = .toolCall

theorem ToolCalls.turn {item : Item δ} {event : ItemEvent δ} {events : List (ItemEvent δ)}
    (h : ToolCalls item (event :: events)) : ToolCalls (turn item event) events := by
  cases event with
  | resolve source => exact h
  | delta mapped => exact ⟨(kind_streamed ..).trans h.1, h.2⟩
  | version candidate =>
    exact ⟨(kind_absorb ..).trans (h.2 candidate (List.mem_cons_self ..)),
      fun other hmem => h.2 other (List.mem_cons_of_mem _ hmem)⟩

theorem held_absorb_tool {existing candidate : Item δ} (h : existing.kind = .toolCall)
    (h' : candidate.kind = .toolCall) (blockId : String) :
    held (absorb existing candidate).blocks blockId =
      (held candidate.blocks blockId).or (held existing.blocks blockId) := by
  rw [blocks_absorb_tool h h', held_unionBlocks]

/-- The ids of a tool call after an event. -/
theorem mem_ids_turn {item : Item δ} {event : ItemEvent δ} {events : List (ItemEvent δ)}
    (h : ToolCalls item (event :: events)) (blockId : String) :
    blockId ∈ ids (turn item event) ↔ blockId ∈ ids item ∨
      (∃ candidate ∈ versions [event], blockId ∈ ids candidate) ∨
      ∃ mapped ∈ deltas [event], toolTarget mapped = blockId := by
  cases event with
  | resolve source => simp [turn, versions, deltas, ids, resolved]
  | delta mapped =>
    show blockId ∈ ids (streamed item _ _) ↔ _
    rw [ids_streamed, targetBlock_tool h.1]
    split
    · rename_i hmem
      simp only [versions, deltas, List.filterMap_cons, List.filterMap_nil, List.not_mem_nil,
        false_and, exists_false, false_or, List.mem_singleton, exists_eq_left]
      exact ⟨.inl, fun h => h.elim id fun heq => heq ▸ hmem⟩
    · simp [versions, deltas, eq_comm]
  | version candidate =>
    show blockId ∈ (absorb item candidate).blocks.map Block.blockId ↔ _
    rw [blocks_absorb_tool h.1 (h.2 candidate (List.mem_cons_self ..)), mem_unionBlocks_ids]
    simp [versions, deltas, ids]

/-- The ids of a tool call after its events: those it had, those of its
versions, and those its deltas minted. -/
theorem mem_ids_foldl_turn {item : Item δ} {events : List (ItemEvent δ)} (h : ToolCalls item events)
    (blockId : String) :
    blockId ∈ ids (events.foldl turn item) ↔ blockId ∈ ids item ∨
      (∃ candidate ∈ versions events, blockId ∈ ids candidate) ∨
      ∃ mapped ∈ deltas events, toolTarget mapped = blockId := by
  induction events generalizing item with
  | nil => simp [versions, deltas]
  | cons event events ih =>
    have hversions : versions (event :: events) = versions [event] ++ versions events :=
      List.filterMap_append (l := [event])
    have hdeltas : deltas (event :: events) = deltas [event] ++ deltas events :=
      List.filterMap_append (l := [event])
    rw [List.foldl_cons, ih h.turn, mem_ids_turn h, hversions, hdeltas]
    simp only [List.mem_append, or_and_right, exists_or, or_assoc]
    grind

theorem nodup_ids_streamed {item : Item δ} (h : (ids item).Nodup) (blockId delta : String) :
    (ids (streamed item blockId delta)).Nodup := by
  rw [ids_streamed]
  split
  · exact h
  · rename_i hmem
    rw [List.nodup_append]
    refine ⟨h, by simp, ?_⟩
    rintro a ha b hb rfl
    exact hmem (List.mem_singleton.mp hb ▸ ha)

/-- The ids of a tool call are distinct from its second version on. -/
theorem nodup_ids_foldl_turn {item : Item δ} {events : List (ItemEvent δ)}
    (htool : ToolCalls item events) (h : versions events = [] → (ids item).Nodup) :
    (ids (events.foldl turn item)).Nodup := by
  induction events generalizing item with
  | nil => exact h rfl
  | cons event events ih =>
    refine ih htool.turn fun hnone => ?_
    cases event with
    | resolve source => exact h hnone
    | delta mapped => exact nodup_ids_streamed (h hnone) _ _
    | version candidate =>
      show ((absorb item candidate).blocks.map Block.blockId).Nodup
      rw [blocks_absorb_tool htool.1 (htool.2 candidate (List.mem_cons_self ..))]
      exact nodup_unionBlocks _ _

/-- What is held under an id that no event writes. -/
theorem held_foldl_turn {item : Item δ} {events : List (ItemEvent δ)} (htool : ToolCalls item events)
    {blockId : String} (hversions : ∀ candidate ∈ versions events, blockId ∉ ids candidate)
    (hdeltas : ∀ mapped ∈ deltas events, toolTarget mapped ≠ blockId) :
    held (events.foldl turn item).blocks blockId = held item.blocks blockId := by
  induction events generalizing item with
  | nil => rfl
  | cons event events ih =>
    cases event with
    | resolve source => exact ih htool.turn hversions hdeltas
    | delta mapped =>
      have hne : blockId ≠ targetBlock item mapped.blockId := by
        rw [targetBlock_tool htool.1]
        exact Ne.symm (hdeltas mapped (List.mem_cons_self ..))
      refine (ih htool.turn hversions
        fun other hmem => hdeltas other (List.mem_cons_of_mem _ hmem)).trans ?_
      show held (streamed item _ _).blocks blockId = _
      rw [held_streamed, if_neg hne]
    | version candidate =>
      have hnone : held candidate.blocks blockId = none := by
        rw [← Option.not_isSome_iff_eq_none, held_isSome]
        exact hversions candidate (List.mem_cons_self ..)
      refine (ih htool.turn (fun other hmem => hversions other (List.mem_cons_of_mem _ hmem))
        hdeltas).trans ?_
      show held (absorb item candidate).blocks blockId = _
      rw [held_absorb_tool htool.1 (htool.2 candidate (List.mem_cons_self ..)), hnone]
      rfl

/-- Two copies of a tool call. The second has all the ids already; under each
of them the copies hold the same, or will once a version carries the id. -/
structure Alongside (order : List String) (events : List (ItemEvent δ)) (x y : Item δ) : Prop where
  first : ToolCalls x events
  second : ToolCalls y events
  placed : ids y = order
  carried : ∀ candidate ∈ versions events, ∀ blockId ∈ ids candidate, blockId ∈ order
  addressed : ∀ mapped ∈ deltas events, toolTarget mapped ∈ order
  held : ∀ blockId, held x.blocks blockId = held y.blocks blockId ∨
    ∃ candidate ∈ versions events, blockId ∈ ids candidate

theorem Alongside.step {order : List String} (hnodup : order.Nodup) {event : ItemEvent δ}
    {events : List (ItemEvent δ)} {x y : Item δ} (hevent : unresolving event = true)
    (h : Alongside order (event :: events) x y) :
    Alongside order events (turn x event) (turn y event) := by
  cases event with
  | resolve source => cases hevent
  | delta mapped =>
    have hx : targetBlock x mapped.blockId = toolTarget mapped := targetBlock_tool h.first.1 mapped
    have hy : targetBlock y mapped.blockId = toolTarget mapped := targetBlock_tool h.second.1 mapped
    refine ⟨h.first.turn, h.second.turn, ?_, h.carried,
      fun other hmem => h.addressed other (List.mem_cons_of_mem _ hmem), fun blockId => ?_⟩
    · show ids (streamed y _ _) = order
      rw [hy, ids_streamed, if_pos, h.placed]
      rw [h.placed]
      exact h.addressed mapped (List.mem_cons_self ..)
    · refine (h.held blockId).imp (fun hheld => ?_) id
      show ProjectionStore.held (streamed x _ _).blocks blockId =
        ProjectionStore.held (streamed y _ _).blocks blockId
      rw [hx, hy, held_streamed, held_streamed, h.first.1, h.second.1]
      by_cases hid : blockId = toolTarget mapped
      · rw [if_pos hid, if_pos hid, ← hid, hheld]
      · rw [if_neg hid, if_neg hid, hheld]
  | version candidate =>
    have htool : candidate.kind = .toolCall := h.first.2 candidate (List.mem_cons_self ..)
    refine ⟨h.first.turn, h.second.turn, ?_,
      fun other hmem => h.carried other (List.mem_cons_of_mem _ hmem), h.addressed,
      fun blockId => ?_⟩
    · show (absorb y candidate).blocks.map Block.blockId = order
      have hids : y.blocks.map Block.blockId = order := h.placed
      rw [blocks_absorb_tool h.second.1 htool, ids_unionBlocks, hids]
      · rw [hids]
        exact hnodup
      · intro block hblock
        rw [hids]
        exact h.carried candidate (List.mem_cons_self ..) _ (List.mem_map_of_mem hblock)
    · show ProjectionStore.held (absorb x candidate).blocks blockId =
        ProjectionStore.held (absorb y candidate).blocks blockId ∨ _
      rw [held_absorb_tool h.first.1 htool, held_absorb_tool h.second.1 htool]
      rcases h.held blockId with hheld | ⟨other, hmem, hid⟩
      · exact .inl (by rw [hheld])
      · rcases List.mem_cons.mp hmem with rfl | hmem
        · obtain ⟨block, hblock⟩ := Option.isSome_iff_exists.mp (held_isSome.mpr hid)
          exact .inl (by rw [hblock]; rfl)
        · exact .inr ⟨other, hmem, hid⟩

theorem Alongside.resolved {order : List String} {source : SubmissionSource}
    {events : List (ItemEvent δ)} {x y : Item δ}
    (h : Alongside order (.resolve source :: events) x y) :
    Alongside order events (turn x (.resolve source)) y :=
  ⟨h.first.turn, ⟨h.second.1, h.second.2⟩, h.placed, h.carried, h.addressed, h.held⟩

/-- Copies alongside end with the same blocks, when the first ends with the same ids. -/
theorem Alongside.blocks_eq {order : List String} (hnodup : order.Nodup)
    {events : List (ItemEvent δ)} {x y : Item δ} (h : Alongside order events x y)
    (hfirst : ids (events.foldl turn x) = order) :
    (events.foldl turn x).blocks = ((events.filter unresolving).foldl turn y).blocks := by
  have hend := foldl_turn_unresolving (R := Alongside order)
    (fun _ _ _ _ hevent h => h.step hnodup hevent) (fun _ _ _ _ h => h.resolved) h
  refine blocks_ext (hfirst.trans hend.placed.symm) (by rw [← ids, hfirst]; exact hnodup)
    fun blockId => (hend.held blockId).resolve_right ?_
  rintro ⟨_, hmem, -⟩
  exact List.not_mem_nil hmem

/-! ## Notices -/

theorem named_append (blocks more : List (Block δ)) (blockId : String) :
    named (blocks ++ more) blockId = named blocks blockId ++ named more blockId :=
  List.filter_append _ _

theorem named_eq_nil {blocks : List (Block δ)} {blockId : String} :
    named blocks blockId = [] ↔ blockId ∉ blocks.map Block.blockId := by
  unfold named
  rw [List.filter_eq_nil_iff, List.mem_map]
  simp

theorem named_named (blocks : List (Block δ)) (blockId : String) :
    named (named blocks blockId) blockId = named blocks blockId :=
  List.filter_filter .. |>.trans (by simp [named])

theorem named_map {f : Block δ → Block δ} (hf : ∀ block, (f block).blockId = block.blockId)
    (blocks : List (Block δ)) (blockId : String) :
    named (blocks.map f) blockId = (named blocks blockId).map f := by
  unfold named
  rw [List.filter_map]
  congr 2
  funext block
  rw [Function.comp_apply, hf]

theorem named_streamed (item : Item δ) (blockId delta name : String) :
    named (streamed item blockId delta).blocks name =
      if name = blockId then
        if named item.blocks blockId = [] then [minted item.kind blockId delta]
        else (named item.blocks blockId).map fun block => appendText block delta
      else named item.blocks name := by
  rw [blocks_streamed]
  split
  · rename_i hmem
    rw [named_map fun block => by split; exacts [appendText_blockId block delta, rfl]]
    have hne : named item.blocks blockId ≠ [] := fun h => named_eq_nil.mp h hmem
    by_cases hname : name = blockId
    · rw [if_pos hname, if_neg hne, hname]
      apply List.map_congr_left
      intro block hblock
      exact if_pos (of_decide_eq_true (List.mem_filter.mp hblock).2)
    · rw [if_neg hname]
      conv_rhs => rw [← List.map_id (named item.blocks name)]
      apply List.map_congr_left
      intro block hblock
      have hid : block.blockId = name := of_decide_eq_true (List.mem_filter.mp hblock).2
      exact if_neg (hid ▸ hname)
  · rename_i hmem
    have hnil : named item.blocks blockId = [] := named_eq_nil.mpr hmem
    rw [named_append, if_pos hnil]
    by_cases hname : name = blockId
    · rw [if_pos hname, hname, hnil]
      simp [named, minted]
    · rw [if_neg hname]
      simp [named, minted, Ne.symm hname]

theorem named_absorb_notice {existing candidate : Item δ} (h : existing.kind = .notice)
    (h' : candidate.kind = .notice) (hfinal : "final-message" ∉ ids candidate) :
    named (absorb existing candidate).blocks "final-message" =
      named existing.blocks "final-message" := by
  rw [blocks_absorb_notice h h' hfinal, named_append, named_eq_nil.mpr hfinal, named_named]
  rfl

/-- A notice, as all its versions to come, none of which carries a final message. -/
def Notices (item : Item δ) (events : List (ItemEvent δ)) : Prop :=
  item.kind = .notice ∧ ∀ candidate ∈ versions events,
    candidate.kind = .notice ∧ "final-message" ∉ ids candidate

theorem Notices.turn {item : Item δ} {event : ItemEvent δ} {events : List (ItemEvent δ)}
    (h : Notices item (event :: events)) : Notices (turn item event) events := by
  cases event with
  | resolve source => exact h
  | delta mapped => exact ⟨(kind_streamed ..).trans h.1, h.2⟩
  | version candidate =>
    exact ⟨(kind_absorb ..).trans (h.2 candidate (List.mem_cons_self ..)).1,
      fun other hmem => h.2 other (List.mem_cons_of_mem _ hmem)⟩

/-- The final message of a notice that no delta is addressed to. -/
theorem named_foldl_turn {item : Item δ} {events : List (ItemEvent δ)} (h : Notices item events)
    (hdeltas : ∀ mapped ∈ deltas events, targetBlock item mapped.blockId ≠ "final-message") :
    named (events.foldl turn item).blocks "final-message" =
      named item.blocks "final-message" := by
  induction events generalizing item with
  | nil => rfl
  | cons event events ih =>
    have hkind : (ProjectionStore.turn item event).kind = item.kind := h.turn.1.trans h.1.symm
    have hrest : ∀ mapped ∈ deltas events,
        targetBlock (ProjectionStore.turn item event) mapped.blockId ≠ "final-message" := by
      intro mapped hmem
      rw [targetBlock_congr hkind]
      refine hdeltas mapped ?_
      cases event with
      | delta other => exact List.mem_cons_of_mem _ hmem
      | version candidate => exact hmem
      | resolve source => exact hmem
    refine (ih h.turn hrest).trans ?_
    cases event with
    | resolve source => rfl
    | delta mapped =>
      show named (streamed item _ _).blocks _ = _
      rw [named_streamed, if_neg]
      exact Ne.symm (hdeltas mapped (List.mem_cons_self ..))
    | version candidate =>
      obtain ⟨hnotice, hfinal⟩ := h.2 candidate (List.mem_cons_self ..)
      exact named_absorb_notice h.1 hnotice hfinal

/-- Two copies of a notice with the same final message end with the same blocks,
when they have the same or a version is to come. -/
theorem blocks_lockstep_notice {x y : Item δ} {events : List (ItemEvent δ)} (hx : Notices x events)
    (hy : y.kind = .notice)
    (hfinal : named x.blocks "final-message" = named y.blocks "final-message")
    (h : x.blocks = y.blocks ∨ versions events ≠ []) :
    (events.foldl turn x).blocks = ((events.filter unresolving).foldl turn y).blocks := by
  refine (foldl_turn_unresolving (R := fun events x y => Notices x events ∧ Notices y events ∧
    named x.blocks "final-message" = named y.blocks "final-message" ∧
    (x.blocks = y.blocks ∨ versions events ≠ [])) ?_ ?_
    ⟨hx, ⟨hy, hx.2⟩, hfinal, h⟩).2.2.2.resolve_right fun hne => hne rfl
  · rintro event events x y hevent ⟨hx, hy, hfinal, h⟩
    refine ⟨hx.turn, hy.turn, ?_⟩
    have hkind : x.kind = y.kind := hx.1.trans hy.1.symm
    cases event with
    | resolve source => cases hevent
    | delta mapped =>
      refine ⟨?_, h.imp (fun hblocks => blocks_turn_congr hkind hblocks _) id⟩
      show named (streamed x _ _).blocks _ = named (streamed y _ _).blocks _
      rw [named_streamed, named_streamed, targetBlock_congr hkind, hkind]
      by_cases hname : "final-message" = targetBlock y mapped.blockId
      · rw [if_pos hname, if_pos hname, ← hname, hfinal]
      · rw [if_neg hname, if_neg hname, hfinal]
    | version candidate =>
      obtain ⟨hnotice, hnone⟩ := hx.2 candidate (List.mem_cons_self ..)
      refine ⟨?_, .inl ?_⟩
      · show named (absorb x candidate).blocks _ = named (absorb y candidate).blocks _
        rw [named_absorb_notice hx.1 hnotice hnone, named_absorb_notice hy.1 hnotice hnone, hfinal]
      · show (absorb x candidate).blocks = (absorb y candidate).blocks
        rw [blocks_absorb_notice hx.1 hnotice hnone, blocks_absorb_notice hy.1 hnotice hnone, hfinal]
  · exact fun _ _ _ _ h => ⟨h.1.turn, h.2.1, h.2.2⟩

end ProjectionStore

end AgentsRemember.Conversation
