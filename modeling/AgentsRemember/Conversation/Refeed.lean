import AgentsRemember.Conversation.Blocks

/-!
# Conversation — Refeed

The evidence of a session, fed to its store a second time. The calls of one
item come in the same order again, on top of what the first pass left: deltas
that came before the first version now meet an item that is there, and that
version meets what all the others have made of it.
-/

namespace AgentsRemember.Conversation

namespace ProjectionStore

variable {δ : Type}

/-- The version writes the block anew, whatever is there. -/
def Resets (candidate : Item δ) (blockId : String) : Prop :=
  blockId ∈ ids candidate ∨
    candidate.kind ≠ .toolCall ∧ (candidate.kind = .notice → blockId ≠ "final-message")

/-- What a delta wrote is written anew before its second turn: by a later
version, or by the first one, whose own text the early deltas gave way to. -/
def Covered (first : Item δ) (early : List MappedBlockDelta) (later : List (Item δ))
    (mapped : MappedBlockDelta) : Prop :=
  (∃ candidate ∈ later, Resets candidate (targetBlock first mapped.blockId)) ∨
    Resets first (targetBlock first mapped.blockId) ∧
      ∀ other ∈ early, targetBlock first other.blockId = targetBlock first mapped.blockId →
        targetBlock first mapped.blockId ∈ authoritativeBlockIds first

/-- A second pass over the deltas in front of the first version, that version and
the events behind it gives the same blocks. -/
def Repeatable (first : Item δ) (early : List MappedBlockDelta) (events : List (ItemEvent δ)) :
    Prop :=
  Replaced first.kind (versions events) ∨
    (first.kind = .toolCall → versions events = [] → (ids first).Nodup) ∧
      ∀ mapped ∈ early ++ deltas events, Covered first early (versions events) mapped

/-! ## The backlog -/

/-- Early deltas do not reach the blocks that the first version has text for. -/
theorem named_flushed {item : Item δ} {authoritative : List String}
    {pending : List MappedBlockDelta} {name : String}
    (h : ∀ mapped ∈ pending, targetBlock item mapped.blockId = name → name ∈ authoritative) :
    named (flushed item authoritative pending).blocks name = named item.blocks name ∧
      held (flushed item authoritative pending).blocks name = held item.blocks name := by
  induction pending generalizing item with
  | nil => exact ⟨rfl, rfl⟩
  | cons mapped pending ih =>
    have hrest : ∀ other ∈ pending, targetBlock item other.blockId = name → name ∈ authoritative :=
      fun other hmem => h other (List.mem_cons_of_mem _ hmem)
    unfold flushed
    rw [List.foldl_cons]
    split
    · exact ih hrest
    · rename_i hskip
      have hne : name ≠ targetBlock item mapped.blockId := fun heq =>
        hskip (heq ▸ h mapped (List.mem_cons_self ..) heq.symm)
      have hkind : (streamed item (targetBlock item mapped.blockId) mapped.delta).kind =
        item.kind := kind_streamed ..
      have hstep := ih fun other hmem htarget =>
        hrest other hmem ((targetBlock_congr hkind _).symm.trans htarget)
      rw [named_streamed, held_streamed, if_neg hne, if_neg hne] at hstep
      exact hstep

theorem flushed_eq {item : Item δ} {authoritative : List String} {pending : List MappedBlockDelta}
    (h : ∀ mapped ∈ pending, targetBlock item mapped.blockId ∈ authoritative) :
    flushed item authoritative pending = item := by
  induction pending with
  | nil => rfl
  | cons mapped pending ih =>
    unfold flushed
    rw [List.foldl_cons, if_pos (h mapped (List.mem_cons_self ..))]
    exact ih fun other hmem => h other (List.mem_cons_of_mem _ hmem)

theorem kind_flushed (item : Item δ) (authoritative : List String)
    (pending : List MappedBlockDelta) : (flushed item authoritative pending).kind = item.kind :=
  congrArg Label.kind (label_flushed item authoritative pending).1

theorem ids_flushed (item : Item δ) (authoritative : List String)
    (pending : List MappedBlockDelta) :
    (ids item ⊆ ids (flushed item authoritative pending)) ∧
      ((ids item).Nodup → (ids (flushed item authoritative pending)).Nodup) := by
  induction pending generalizing item with
  | nil => exact ⟨fun _ h => h, id⟩
  | cons mapped pending ih =>
    unfold flushed
    rw [List.foldl_cons]
    split
    · exact ih item
    · obtain ⟨hsub, hnodup⟩ :=
        ih (streamed item (targetBlock item mapped.blockId) mapped.delta)
      refine ⟨fun blockId hmem => hsub ?_, fun h => hnodup (nodup_ids_streamed h _ _)⟩
      rw [ids_streamed]
      split
      · exact hmem
      · exact List.mem_append_left _ hmem

/-! ## The second turn of the early deltas -/

theorem versions_deltas (early : List MappedBlockDelta) :
    versions (early.map (ItemEvent.delta : MappedBlockDelta → ItemEvent δ)) = [] ∧
      deltas (early.map (ItemEvent.delta : MappedBlockDelta → ItemEvent δ)) = early := by
  induction early with
  | nil => exact ⟨rfl, rfl⟩
  | cons mapped early ih => exact ⟨ih.1, congrArg (mapped :: ·) ih.2⟩

theorem label_foldl_deltas (item : Item δ) (early : List MappedBlockDelta) :
    label ((early.map .delta).foldl turn item) = label item ∧
      standing ((early.map .delta).foldl turn item) = standing item ∧
      authority ((early.map .delta).foldl turn item) = authority item ∧
      ((early.map .delta).foldl turn item).provenance = item.provenance := by
  induction early generalizing item with
  | nil => exact ⟨rfl, rfl, rfl, rfl⟩
  | cons mapped early ih =>
    obtain ⟨hlabel, hstanding, hauthority, hprovenance⟩ := ih (turn item (.delta mapped))
    obtain ⟨hlabel', hstanding', hauthority', hprovenance'⟩ :=
      label_streamed item (targetBlock item mapped.blockId) mapped.delta
    exact ⟨hlabel.trans hlabel', hstanding.trans hstanding', hauthority.trans hauthority',
      hprovenance.trans hprovenance'⟩

theorem ids_foldl_deltas {item : Item δ} {early : List MappedBlockDelta}
    (h : ∀ mapped ∈ early, targetBlock item mapped.blockId ∈ ids item) :
    ids ((early.map .delta).foldl turn item) = ids item := by
  induction early generalizing item with
  | nil => rfl
  | cons mapped early ih =>
    have hids : ids (turn item (.delta mapped)) = ids item := by
      show ids (streamed item _ _) = _
      rw [ids_streamed, if_pos (h mapped (List.mem_cons_self ..))]
    have hkind : (turn item (.delta mapped)).kind = item.kind := kind_streamed ..
    refine (ih fun other hmem => ?_).trans hids
    rw [hids, targetBlock_congr hkind]
    exact h other (List.mem_cons_of_mem _ hmem)

/-! ## Blocks -/

/-- The item after the first pass, from its first version on. -/
def once (first : Item δ) (pending : List MappedBlockDelta) (events : List (ItemEvent δ)) : Item δ :=
  events.foldl turn (flushed first (authoritativeBlockIds first) pending)

/-- The item in the second pass, when its first version has come again. -/
def again (first : Item δ) (early pending : List MappedBlockDelta) (events : List (ItemEvent δ)) :
    Item δ :=
  absorb ((early.map .delta).foldl turn (once first pending events)) first

section passes
variable {first : Item δ} {early pending : List MappedBlockDelta} {events : List (ItemEvent δ)}

theorem kind_again : (again first early pending events).kind = first.kind := kind_absorb ..

theorem kind_of_toolCalls {item : Item δ} {events : List (ItemEvent δ)}
    (h : ToolCalls item events) : (events.foldl turn item).kind = .toolCall := by
  induction events generalizing item with
  | nil => exact h.1
  | cons event events ih => exact ih h.turn

theorem kind_of_notices {item : Item δ} {events : List (ItemEvent δ)}
    (h : Notices item events) : (events.foldl turn item).kind = .notice := by
  induction events generalizing item with
  | nil => exact h.1
  | cons event events ih => exact ih h.turn

/-- Of a tool call, a delta that is covered writes a block that some version carries. -/
theorem carried_of_covered (hkind : first.kind = .toolCall)
    (hlater : ∀ candidate ∈ versions events, candidate.kind = .toolCall)
    {mapped : MappedBlockDelta} (h : Covered first early (versions events) mapped) :
    (∃ candidate ∈ versions events, toolTarget mapped ∈ ids candidate) ∨
      toolTarget mapped ∈ ids first ∧ ∀ other ∈ early, toolTarget other = toolTarget mapped →
        toolTarget mapped ∈ authoritativeBlockIds first := by
  unfold Covered at h
  simp only [targetBlock_tool hkind] at h
  refine h.imp ?_ ?_
  · rintro ⟨candidate, hmem, hcarries | ⟨hother, -⟩⟩
    · exact ⟨candidate, hmem, hcarries⟩
    · exact absurd (hlater candidate hmem) hother
  · rintro ⟨hcarries | ⟨hother, -⟩, hauthoritative⟩
    · exact ⟨hcarries, hauthoritative⟩
    · exact absurd hkind hother

theorem alongside_again (hpending : pending ⊆ early) (hkind : first.kind = .toolCall)
    (hlater : ∀ candidate ∈ versions events, candidate.kind = .toolCall)
    (hnodup : (ids (once first pending events)).Nodup)
    (hcovered : ∀ mapped ∈ early ++ deltas events, Covered first early (versions events) mapped) :
    Alongside (ids (once first pending events)) events
      (flushed first (authoritativeBlockIds first) pending) (again first early pending events) := by
  have hfirst : ToolCalls (flushed first (authoritativeBlockIds first) pending) events :=
    ⟨(kind_flushed ..).trans hkind, hlater⟩
  have hids := fun blockId => mem_ids_foldl_turn hfirst blockId
  have hown : ids first ⊆ ids (once first pending events) := fun blockId hmem =>
    (hids blockId).mpr (.inl ((ids_flushed ..).1 hmem))
  have hcarried : ∀ candidate ∈ versions events, ∀ blockId ∈ ids candidate,
      blockId ∈ ids (once first pending events) := fun candidate hmem blockId hid =>
    (hids blockId).mpr (.inr (.inl ⟨candidate, hmem, hid⟩))
  have haddressed : ∀ mapped ∈ early ++ deltas events,
      toolTarget mapped ∈ ids (once first pending events) := by
    intro mapped hmem
    rcases carried_of_covered hkind hlater (hcovered mapped hmem) with ⟨candidate, hc, hid⟩ | ⟨hid, -⟩
    · exact hcarried candidate hc _ hid
    · exact hown hid
  have honce : (once first pending events).kind = .toolCall := kind_of_toolCalls hfirst
  -- the early deltas find their blocks, so that the ids stay as they are
  have hearly : ids ((early.map .delta).foldl turn (once first pending events)) =
      ids (once first pending events) := ids_foldl_deltas fun mapped hmem => by
    rw [targetBlock_tool honce]
    exact haddressed mapped (List.mem_append_left _ hmem)
  have hearlyKind : ((early.map .delta).foldl turn (once first pending events)).kind = .toolCall :=
    (congrArg Label.kind (label_foldl_deltas ..).1).trans honce
  refine ⟨hfirst, ⟨kind_again.trans hkind, hlater⟩, ?_, hcarried,
    fun mapped hmem => haddressed mapped (List.mem_append_right _ hmem), fun blockId => ?_⟩
  · show (absorb _ first).blocks.map Block.blockId = _
    rw [blocks_absorb_tool hearlyKind hkind, ids_unionBlocks]
    · exact hearly
    · show (ids _).Nodup
      rw [hearly]
      exact hnodup
    · intro block hblock
      show block.blockId ∈ ids _
      rw [hearly]
      exact hown (List.mem_map_of_mem hblock)
  · by_cases hlate : ∃ candidate ∈ versions events, blockId ∈ ids candidate
    · exact .inr hlate
    · left
      show _ = held (absorb _ first).blocks blockId
      rw [held_absorb_tool hearlyKind hkind]
      -- no later version carries the id: what early deltas wrote there gave way
      have hgave : ∀ mapped ∈ early ++ deltas events, toolTarget mapped = blockId →
          blockId ∈ ids first ∧ ∀ other ∈ early, toolTarget other = blockId →
            blockId ∈ authoritativeBlockIds first := by
        rintro mapped hmem rfl
        exact (carried_of_covered hkind hlater (hcovered mapped hmem)).resolve_left hlate
      have hskipped : ∀ mapped ∈ pending, targetBlock first mapped.blockId = blockId →
          blockId ∈ authoritativeBlockIds first := by
        intro mapped hmem htarget
        rw [targetBlock_tool hkind] at htarget
        exact (hgave mapped (List.mem_append_left _ (hpending hmem)) htarget).2 mapped
          (hpending hmem) htarget
      have hflushed := (named_flushed hskipped).2
      rw [hflushed]
      by_cases hcarries : blockId ∈ ids first
      · obtain ⟨block, hblock⟩ := Option.isSome_iff_exists.mp (held_isSome.mpr hcarries)
        rw [hblock]
        rfl
      · have hnone : held first.blocks blockId = none := by
          rw [← Option.not_isSome_iff_eq_none, held_isSome]
          exact hcarries
        have hquiet : ∀ mapped ∈ early ++ deltas events, toolTarget mapped ≠ blockId :=
          fun mapped hmem heq => hcarries (hgave mapped hmem heq).1
        have hsecond : ToolCalls (once first pending events)
            (early.map (ItemEvent.delta : MappedBlockDelta → ItemEvent δ)) :=
          ⟨honce, fun candidate hmem => by rw [(versions_deltas early).1] at hmem; cases hmem⟩
        have hheld : held (once first pending events).blocks blockId = none := by
          refine (held_foldl_turn hfirst (fun candidate hmem hid => hlate ⟨candidate, hmem, hid⟩)
            fun mapped hmem => hquiet mapped (List.mem_append_right _ hmem)).trans ?_
          rw [hflushed, hnone]
        rw [hnone, held_foldl_turn hsecond, hheld]
        · rfl
        · intro candidate hmem
          rw [(versions_deltas early).1] at hmem
          cases hmem
        · intro mapped hmem
          rw [(versions_deltas early).2] at hmem
          exact hquiet mapped (List.mem_append_left _ hmem)

/-- Without later versions the early deltas have all given way to the first. -/
theorem flushed_of_covered (hpending : pending ⊆ early) (hnone : versions events = [])
    (hcovered : ∀ mapped ∈ early ++ deltas events, Covered first early (versions events) mapped) :
    flushed first (authoritativeBlockIds first) pending = first := by
  apply flushed_eq
  intro mapped hmem
  have hearly := hpending hmem
  rcases hcovered mapped (List.mem_append_left _ hearly) with ⟨_, hlate, -⟩ | ⟨-, hgave⟩
  · rw [hnone] at hlate
    cases hlate
  · exact hgave mapped hearly rfl

/-- Of a notice, a delta for the final message that is covered gave way to the
text of the first version. -/
theorem gave_of_covered (hfirst : Notices first events) {mapped : MappedBlockDelta}
    (h : Covered first early (versions events) mapped)
    (htarget : targetBlock first mapped.blockId = "final-message") :
    "final-message" ∈ ids first ∧
      ∀ other ∈ early, targetBlock first other.blockId = "final-message" →
        "final-message" ∈ authoritativeBlockIds first := by
  have hresets : ∀ {candidate : Item δ}, candidate.kind = .notice →
      Resets candidate "final-message" → "final-message" ∈ ids candidate :=
    fun hkind h => h.resolve_right fun hother => hother.2 hkind rfl
  unfold Covered at h
  rw [htarget] at h
  rcases h with ⟨candidate, hmem, h⟩ | ⟨h, hgave⟩
  · exact absurd (hresets (hfirst.2 candidate hmem).1 h) (hfirst.2 candidate hmem).2
  · exact ⟨hresets hfirst.1 h, hgave⟩

/-- What comes again of a notice, under the name of its final message. -/
theorem blocks_again_notice (hpending : pending ⊆ early) (hfirst : Notices first events)
    (hcovered : ∀ mapped ∈ early ++ deltas events, Covered first early (versions events) mapped) :
    ∃ final, (again first early pending events).blocks = first.blocks ++ final ∧
      ("final-message" ∈ ids first → final = []) ∧
      ("final-message" ∉ ids first → final = named first.blocks "final-message") := by
  have hx : Notices (flushed first (authoritativeBlockIds first) pending) events :=
    ⟨(kind_flushed ..).trans hfirst.1, hfirst.2⟩
  have honce : (once first pending events).kind = .notice := kind_of_notices hx
  have hearly : ((early.map .delta).foldl turn (once first pending events)).kind = .notice :=
    (congrArg Label.kind (label_foldl_deltas ..).1).trans honce
  by_cases hfinal : "final-message" ∈ ids first
  · refine ⟨[], ?_, fun _ => rfl, fun h => absurd hfinal h⟩
    rw [List.append_nil]
    apply blocks_absorb_replaced
    rintro (⟨htool, -⟩ | ⟨-, -, hnone⟩)
    · rw [hearly] at htool
      cases htool
    · exact hnone hfinal
  · refine ⟨_, blocks_absorb_notice hearly hfirst.1 hfinal, fun h => absurd h hfinal, fun _ => ?_⟩
    have hquiet : ∀ mapped ∈ early ++ deltas events,
        targetBlock first mapped.blockId ≠ "final-message" := fun mapped hmem htarget =>
      hfinal (gave_of_covered hfirst (hcovered mapped hmem) htarget).1
    have hagain : Notices (once first pending events)
        (early.map (ItemEvent.delta : MappedBlockDelta → ItemEvent δ)) :=
      ⟨honce, fun candidate hmem => by rw [(versions_deltas early).1] at hmem; cases hmem⟩
    rw [named_foldl_turn hagain, once, named_foldl_turn hx]
    · exact (named_flushed fun mapped hmem htarget =>
        absurd htarget (hquiet mapped (List.mem_append_left _ (hpending hmem)))).1
    · intro mapped hmem
      rw [targetBlock_congr (kind_flushed ..)]
      exact hquiet mapped (List.mem_append_right _ hmem)
    · intro mapped hmem
      rw [(versions_deltas early).2] at hmem
      rw [targetBlock_congr (honce.trans hfirst.1.symm)]
      exact hquiet mapped (List.mem_append_left _ hmem)

/-- The second pass ends with the blocks of the first. -/
theorem blocks_refed (hpending : pending ⊆ early) (h : Repeatable first early events) :
    (once first pending events).blocks =
      ((events.filter unresolving).foldl turn (again first early pending events)).blocks := by
  have hkind : (flushed first (authoritativeBlockIds first) pending).kind =
      (again first early pending events).kind := (kind_flushed ..).trans kind_again.symm
  by_cases hreplaced : Replaced first.kind (versions events)
  · exact blocks_lockstep hkind (.inr ((kind_flushed first _ pending).symm ▸ hreplaced))
  obtain ⟨hnodup, hcovered⟩ := h.resolve_left hreplaced
  have hlater := of_not_replaced hreplaced
  cases hfirst : first.kind with
  | toolCall =>
    have htool : ∀ candidate ∈ versions events, candidate.kind = .toolCall := by
      rcases hlater with hnone | ⟨-, htool⟩ | ⟨hnotice, -⟩
      · rw [hnone]
        exact fun _ hmem => absurd hmem List.not_mem_nil
      · exact htool
      · rw [hfirst] at hnotice
        cases hnotice
    have hdistinct : (ids (once first pending events)).Nodup :=
      nodup_ids_foldl_turn ⟨(kind_flushed ..).trans hfirst, htool⟩
        fun hnone => (ids_flushed ..).2 (hnodup hfirst hnone)
    exact (alongside_again hpending hfirst htool hdistinct hcovered).blocks_eq hdistinct rfl
  | notice =>
    have hnotices : Notices first events := by
      refine ⟨hfirst, ?_⟩
      rcases hlater with hnone | ⟨htool, -⟩ | ⟨-, hnotice⟩
      · rw [hnone]
        exact fun _ hmem => absurd hmem List.not_mem_nil
      · rw [hfirst] at htool
        cases htool
      · exact hnotice
    obtain ⟨final, hagain, hin, hout⟩ := blocks_again_notice hpending hnotices hcovered
    have hflushed : named (flushed first (authoritativeBlockIds first) pending).blocks
        "final-message" = named first.blocks "final-message" :=
      (named_flushed fun mapped hmem htarget => by
        have hearly := hpending hmem
        exact (gave_of_covered hnotices (hcovered mapped (List.mem_append_left _ hearly))
          htarget).2 mapped hearly htarget).1
    have hfinal : final = [] := by
      by_cases hcarries : "final-message" ∈ ids first
      · exact hin hcarries
      · exact (hout hcarries).trans (named_eq_nil.mpr hcarries)
    rw [hfinal, List.append_nil] at hagain
    refine blocks_lockstep_notice ⟨(kind_flushed ..).trans hfirst, hnotices.2⟩
      (kind_again.trans hfirst) (by rw [hflushed, hagain]) ?_
    by_cases hnone : versions events = []
    · left
      rw [flushed_of_covered hpending hnone hcovered, hagain]
    · exact .inr hnone
  | _ =>
    have hnone : versions events = [] := by
      rcases hlater with hnone | ⟨htool, -⟩ | ⟨hnotice, -⟩
      · exact hnone
      · rw [hfirst] at htool
        cases htool
      · rw [hfirst] at hnotice
        cases hnotice
    refine blocks_lockstep hkind (.inl ?_)
    rw [flushed_of_covered hpending hnone hcovered]
    refine (blocks_absorb_replaced ?_).symm
    rintro (⟨-, htool⟩ | ⟨-, hnotice, -⟩)
    · rw [hfirst] at htool
      cases htool
    · rw [hfirst] at hnotice
      cases hnotice

/-! ## The rest of the item -/

theorem label_again : label (flushed first (authoritativeBlockIds first) pending) =
    label (again first early pending events) :=
  (label_flushed ..).1.trans (absorb_eq ..).1.symm

/-- The first version alone decides the standing again, or a later one will. -/
theorem standing_refed : standing (once first pending events) =
    standing ((events.filter unresolving).foldl turn (again first early pending events)) := by
  refine standing_lockstep label_again ?_
  by_cases hsettles : ∃ candidate, .version candidate ∈ events ∧ Settles candidate
  · exact .inr hsettles
  · left
    have hagain : standing (again first early pending events) = standing first := by
      refine (absorb_eq ..).2.1.trans (standing_merged ?_)
      by_cases hfirst : Settles first
      · exact .inl hfirst
      · right
        have hquiet := quiet_congr (label_flushed first (authoritativeBlockIds first) pending).1.symm
          (label_flushed ..).2.1.symm (quiet_of_not_settles hfirst)
        have honce : Quiet (once first pending events) := quiet_foldl_turn hquiet
          fun candidate hmem hc => hsettles ⟨candidate, hmem, hc⟩
        exact quiet_congr (label_foldl_deltas ..).1.symm (label_foldl_deltas ..).2.1.symm honce
    rw [hagain]
    exact (label_flushed ..).2.1

theorem mem_versions {candidate : Item δ} {events : List (ItemEvent δ)} :
    candidate ∈ versions events ↔ .version candidate ∈ events := by
  unfold versions
  rw [List.mem_filterMap]
  constructor
  · rintro ⟨event, hmem, h⟩
    cases event with
    | version other => exact Option.some.inj h ▸ hmem
    | delta mapped => cases h
    | resolve source => cases h
  · exact fun h => ⟨_, h, rfl⟩

/-- Without verdicts nothing is lost; with verdicts the item is a user's throughout. -/
theorem authority_refed (hroles : (∀ event ∈ events, unresolving event = true) ∨
      first.role = .user ∧ ∀ candidate ∈ versions events, candidate.role = .user) :
    authority ((events.filter unresolving).foldl turn (again first early pending events)) =
      authority (once first pending events) := by
  have hearly := label_foldl_deltas (once first pending events) early
  have hrole : ((early.map .delta).foldl turn (once first pending events)).role =
      (once first pending events).role := congrArg Label.role hearly.1
  have hagain : authority (again first early pending events) =
      if (once first pending events).role = .user then authority (once first pending events)
      else authority first := by
    rw [again, (absorb_eq ..).2.2.2, hrole, hearly.2.2.1]
  rcases hroles with hroles | ⟨hfirst, hversions⟩
  · refine authority_lockstep label_again hroles ?_
    rw [hagain]
    split
    · exact .inr rfl
    · exact .inl (label_flushed ..).2.2
  · have honce : (once first pending events).role = .user :=
      role_foldl_turn ((congrArg Label.role (label_flushed ..).1).trans hfirst)
        fun candidate hmem => hversions candidate (mem_versions.mpr hmem)
    rw [authority_foldl_turn ?_ fun candidate hmem => hversions candidate (mem_versions.mpr hmem),
      hagain, if_pos honce]
    exact (congrArg Label.role (absorb_eq ..).1).trans hfirst

theorem provenance_refed :
    ((events.filter unresolving).foldl turn (again first early pending events)).provenance =
      (once first pending events).provenance := by
  rw [provenance_foldl_turn _ fun event hmem => (List.mem_filter.mp hmem).2]
  exact (absorb_provenance ..).trans (label_foldl_deltas ..).2.2.2

/-- The second pass ends with the item of the first. -/
theorem core_refed (hpending : pending ⊆ early) (h : Repeatable first early events)
    (hroles : (∀ event ∈ events, unresolving event = true) ∨
      first.role = .user ∧ ∀ candidate ∈ versions events, candidate.role = .user) :
    core ((events.filter unresolving).foldl turn (again first early pending events)) =
      core (once first pending events) :=
  core_ext (label_lockstep label_again events).symm standing_refed.symm (authority_refed hroles)
    provenance_refed (blocks_refed hpending h).symm

end passes

end ProjectionStore

end AgentsRemember.Conversation
