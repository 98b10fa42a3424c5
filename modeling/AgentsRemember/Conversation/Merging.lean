import AgentsRemember.Conversation.Feeding

/-!
# Conversation — Merging

Two copies of one item under the same events, where the second copy is not told
the verdicts the first one heard. What an event does to an item is told field by
field: its label, the status it stands at, the authority behind it, its blocks.
Each of them depends on the label and on itself only.
-/

namespace AgentsRemember.Conversation

namespace ProjectionStore

variable {δ : Type}

/-- Two copies under the same events, by what is still to come. The first copy
hears the verdicts as well. -/
theorem foldl_turn_unresolving {R : List (ItemEvent δ) → Item δ → Item δ → Prop}
    (both : ∀ event events x y, unresolving event = true → R (event :: events) x y →
      R events (turn x event) (turn y event))
    (first : ∀ source events x y, R (.resolve source :: events) x y →
      R events (turn x (.resolve source)) y)
    {events : List (ItemEvent δ)} {x y : Item δ} (h : R events x y) :
    R [] (events.foldl turn x) ((events.filter unresolving).foldl turn y) := by
  induction events generalizing x y with
  | nil => exact h
  | cons event events ih =>
    cases event with
    | resolve source => exact ih (first source events x y h)
    | version candidate => exact ih (both _ events x y rfl h)
    | delta mapped => exact ih (both _ events x y rfl h)

/-! ## Labels -/

/-- What an item takes from its last version as it is. -/
structure Label where
  itemId : String
  turnId : Option String
  parentItemId : Option String
  role : Role
  kind : Kind
  correlation : Option Correlation
  evidenceRef : Option String

/-- What no event changes of an item. -/
def label (item : Item δ) : Label :=
  ⟨item.itemId, item.turnId, item.parentItemId, item.role, item.kind, item.correlation,
    item.evidenceRef⟩

/-- Phase and agent. -/
def standing (item : Item δ) : Phase × Option AgentRef := (item.phase, item.agent)

/-- Lane and source. -/
def authority (item : Item δ) : Lane × Source := (item.lane, item.source)

/-- An item is these and its provenance. -/
theorem core_ext {x y : Item δ} (hlabel : label x = label y) (hstanding : standing x = standing y)
    (hauthority : authority x = authority y) (hprovenance : x.provenance = y.provenance)
    (hblocks : x.blocks = y.blocks) : core x = core y := by
  obtain ⟨⟩ := x
  obtain ⟨⟩ := y
  simp only [label, standing, authority, core, Label.mk.injEq, Prod.mk.injEq, Item.mk.injEq]
    at hlabel hstanding hauthority hprovenance hblocks ⊢
  grind

theorem label_reconcileRosterUpsert (existing candidate : Item δ) :
    label (reconcileRosterUpsert existing candidate) = label candidate ∧
      (reconcileRosterUpsert existing candidate).blocks = candidate.blocks ∧
      authority (reconcileRosterUpsert existing candidate) = authority candidate := by
  unfold reconcileRosterUpsert
  split
  · dsimp only
    split <;> exact ⟨rfl, rfl, rfl⟩
  · exact ⟨rfl, rfl, rfl⟩

theorem label_unionToolCall (existing candidate : Item δ) :
    label (unionToolCall existing candidate) = label candidate ∧
      authority (unionToolCall existing candidate) = authority candidate := by
  unfold unionToolCall
  split
  · dsimp only
    split <;> exact ⟨rfl, rfl⟩
  · exact ⟨rfl, rfl⟩

theorem label_retainFinalMessage (existing candidate : Item δ) :
    label (retainFinalMessage existing candidate) = label candidate ∧
      standing (retainFinalMessage existing candidate) = standing candidate ∧
      authority (retainFinalMessage existing candidate) = authority candidate := by
  unfold retainFinalMessage
  split <;> exact ⟨rfl, rfl, rfl⟩

theorem label_merged (existing candidate : Item δ) :
    label (merged existing candidate) = label candidate ∧
      authority (merged existing candidate) = authority candidate := by
  unfold merged
  rw [(label_retainFinalMessage _ _).1, (label_retainFinalMessage _ _).2.2,
    (label_unionToolCall _ _).1, (label_unionToolCall _ _).2,
    (label_reconcileRosterUpsert _ _).1, (label_reconcileRosterUpsert _ _).2.2]
  exact ⟨rfl, rfl⟩

theorem absorb_eq (existing candidate : Item δ) :
    label (absorb existing candidate) = label candidate ∧
      standing (absorb existing candidate) = standing (merged existing candidate) ∧
      (absorb existing candidate).blocks = (merged existing candidate).blocks ∧
      authority (absorb existing candidate) =
        if existing.role = .user then authority existing else authority candidate := by
  have h := label_merged existing candidate
  unfold absorb preservedInputAuthority
  split
  · exact ⟨h.1, rfl, rfl, rfl⟩
  · exact ⟨h.1, rfl, rfl, h.2⟩

theorem label_streamed (item : Item δ) (blockId delta : String) :
    label (streamed item blockId delta) = label item ∧
      standing (streamed item blockId delta) = standing item ∧
      authority (streamed item blockId delta) = authority item ∧
      (streamed item blockId delta).provenance = item.provenance := by
  unfold streamed
  split <;> exact ⟨rfl, rfl, rfl, rfl⟩

theorem label_flushed (item : Item δ) (authoritative : List String)
    (pending : List MappedBlockDelta) :
    label (flushed item authoritative pending) = label item ∧
      standing (flushed item authoritative pending) = standing item ∧
      authority (flushed item authoritative pending) = authority item := by
  induction pending generalizing item with
  | nil => exact ⟨rfl, rfl, rfl⟩
  | cons mapped pending ih =>
    unfold flushed
    rw [List.foldl_cons]
    split
    · exact ih item
    · obtain ⟨hlabel, hstanding, hauthority, -⟩ :=
        label_streamed item (targetBlock item mapped.blockId) mapped.delta
      obtain ⟨hlabel', hstanding', hauthority'⟩ :=
        ih (streamed item (targetBlock item mapped.blockId) mapped.delta)
      exact ⟨hlabel'.trans hlabel, hstanding'.trans hstanding, hauthority'.trans hauthority⟩

/-- The label after an event: that of the version, if it is one. -/
theorem label_turn_congr {x y : Item δ} (h : label x = label y) (event : ItemEvent δ) :
    label (turn x event) = label (turn y event) := by
  cases event with
  | version candidate => exact (absorb_eq x candidate).1.trans (absorb_eq y candidate).1.symm
  | delta mapped =>
    exact ((label_streamed x _ mapped.delta).1.trans h).trans
      (label_streamed y _ mapped.delta).1.symm
  | resolve source => exact h

theorem label_turn_resolve {x y : Item δ} (h : label x = label y) (source : SubmissionSource) :
    label (turn x (.resolve source)) = label y := h

/-- The label of two copies that start with the same one. -/
theorem label_lockstep {x y : Item δ} (h : label x = label y) (events : List (ItemEvent δ)) :
    label (events.foldl turn x) = label ((events.filter unresolving).foldl turn y) :=
  foldl_turn_unresolving (R := fun _ x y => label x = label y)
    (fun event _ _ _ _ h => label_turn_congr h event)
    (fun source _ _ _ h => label_turn_resolve h source) h

/-- Events without a verdict leave the provenance. -/
theorem provenance_foldl_turn (item : Item δ) {events : List (ItemEvent δ)}
    (h : ∀ event ∈ events, unresolving event = true) :
    (events.foldl turn item).provenance = item.provenance := by
  induction events generalizing item with
  | nil => rfl
  | cons event events ih =>
    rw [List.foldl_cons, ih _ fun e he => h e (List.mem_cons_of_mem _ he)]
    cases event with
    | version candidate => exact absorb_provenance item candidate
    | delta mapped => exact (label_streamed item _ mapped.delta).2.2.2
    | resolve source => exact absurd (h _ (List.mem_cons_self ..)) Bool.false_ne_true

/-! ## Standing -/

/-- A roster row that history replays without a terminal status. -/
def Historical (candidate : Item δ) : Prop :=
  candidate.kind = .notice ∧ candidate.source = .nativeHistory ∧
    ∃ agent, candidate.agent = some agent ∧ terminalAgentStatus agent.status = false

/-- A version whose phase and agent stand, whatever is there. -/
def Settles (candidate : Item δ) : Prop :=
  ¬(candidate.kind = .toolCall ∧ candidate.phase = .streaming) ∧ ¬Historical candidate

/-- The phase is an end. -/
def terminalPhase (phase : Phase) : Prop :=
  phase = .completed ∨ phase = .failed ∨ phase = .interrupted

/-- An item with nothing that a merge would keep. -/
def Quiet (item : Item δ) : Prop :=
  (item.kind = .toolCall → ¬terminalPhase item.phase) ∧
    (item.kind = .notice → ∀ agent, item.agent = some agent →
      terminalAgentStatus agent.status = false)

theorem quiet_congr {x y : Item δ} (hlabel : label x = label y)
    (hstanding : standing x = standing y) (h : Quiet x) : Quiet y := by
  have hkind : x.kind = y.kind := congrArg Label.kind hlabel
  have hphase : x.phase = y.phase := congrArg Prod.fst hstanding
  have hagent : x.agent = y.agent := congrArg Prod.snd hstanding
  unfold Quiet
  rw [← hkind, ← hphase, ← hagent]
  exact h

theorem quiet_of_not_settles {candidate : Item δ} (h : ¬Settles candidate) : Quiet candidate := by
  unfold Settles at h
  rw [not_and_or, not_not, not_not] at h
  rcases h with ⟨hkind, hphase⟩ | ⟨hkind, -, agent, hagent, hstatus⟩
  · refine ⟨fun _ => ?_, fun hnotice => ?_⟩
    · simp [terminalPhase, hphase]
    · rw [hkind] at hnotice
      cases hnotice
  · refine ⟨fun htool => ?_, fun _ other hother => ?_⟩
    · rw [hkind] at htool
      cases htool
    · rw [hagent, Option.some.injEq] at hother
      rw [← hother]
      exact hstatus

theorem reconcileRosterUpsert_congr {x y : Item δ} (hlabel : label x = label y)
    (hstanding : standing x = standing y) (candidate : Item δ) :
    reconcileRosterUpsert x candidate = reconcileRosterUpsert y candidate := by
  have hid : x.itemId = y.itemId := congrArg Label.itemId hlabel
  have hrole : x.role = y.role := congrArg Label.role hlabel
  have hkind : x.kind = y.kind := congrArg Label.kind hlabel
  have hphase : x.phase = y.phase := congrArg Prod.fst hstanding
  have hagent : x.agent = y.agent := congrArg Prod.snd hstanding
  unfold reconcileRosterUpsert
  rw [hagent, hphase, hkind, hrole, hid]

/-- A roster row keeps a terminal status against a historical row only. -/
theorem reconcileRosterUpsert_eq {existing candidate : Item δ}
    (h : ¬Historical candidate ∨ Quiet existing) :
    reconcileRosterUpsert existing candidate = candidate := by
  unfold reconcileRosterUpsert
  split
  · rename_i existingAgent candidateAgent hexisting hcandidate
    dsimp only
    rw [if_pos]
    by_contra hkept
    simp only [not_or, not_not, ne_eq, Bool.not_eq_true] at hkept
    obtain ⟨⟨hkind, hkind', -⟩, hterminal, hstatus, hsource⟩ := hkept
    rcases h with h | h
    · exact h ⟨hkind', hsource, candidateAgent, hcandidate, hstatus⟩
    · rw [h.2 hkind existingAgent hexisting] at hterminal
      exact hterminal rfl
  · rfl

open Classical in
theorem standing_unionToolCall (existing candidate : Item δ) :
    standing (unionToolCall existing candidate) =
      (if existing.kind = .toolCall ∧ candidate.kind = .toolCall ∧ candidate.phase = .streaming ∧
          terminalPhase existing.phase then existing.phase else candidate.phase,
        candidate.agent) := by
  unfold unionToolCall
  by_cases htool : existing.kind = .toolCall ∧ candidate.kind = .toolCall
  · rw [if_pos htool]
    dsimp only
    by_cases hkept : candidate.phase = .streaming ∧
        (existing.phase = .completed ∨ existing.phase = .failed ∨ existing.phase = .interrupted)
    · rw [if_pos hkept, if_pos ⟨htool.1, htool.2, hkept⟩]
      rfl
    · rw [if_neg hkept, if_neg fun h => hkept h.2.2]
      rfl
  · rw [if_neg htool, if_neg fun h => htool ⟨h.1, h.2.1⟩]
    rfl

theorem standing_merged_congr {x y : Item δ} (hlabel : label x = label y)
    (hstanding : standing x = standing y) (candidate : Item δ) :
    standing (merged x candidate) = standing (merged y candidate) := by
  have hkind : x.kind = y.kind := congrArg Label.kind hlabel
  have hphase : x.phase = y.phase := congrArg Prod.fst hstanding
  unfold merged
  rw [(label_retainFinalMessage _ _).2.1, (label_retainFinalMessage _ _).2.1,
    reconcileRosterUpsert_congr hlabel hstanding, standing_unionToolCall, standing_unionToolCall,
    hkind, hphase]

theorem standing_merged {existing candidate : Item δ} (h : Settles candidate ∨ Quiet existing) :
    standing (merged existing candidate) = standing candidate := by
  have hreconcile : reconcileRosterUpsert existing candidate = candidate :=
    reconcileRosterUpsert_eq (h.imp And.right id)
  unfold merged
  rw [(label_retainFinalMessage _ _).2.1, hreconcile, standing_unionToolCall, if_neg]
  · rfl
  · rintro ⟨htool, htool', hphase, hterminal⟩
    rcases h with h | h
    · exact h.1 ⟨htool', hphase⟩
    · exact h.1 htool hterminal

theorem standing_turn_congr {x y : Item δ} (hlabel : label x = label y)
    (hstanding : standing x = standing y) (event : ItemEvent δ) :
    standing (turn x event) = standing (turn y event) := by
  cases event with
  | version candidate =>
    show standing (absorb x candidate) = standing (absorb y candidate)
    rw [(absorb_eq x candidate).2.1, (absorb_eq y candidate).2.1]
    exact standing_merged_congr hlabel hstanding candidate
  | delta mapped =>
    exact ((label_streamed x _ mapped.delta).2.1.trans hstanding).trans
      (label_streamed y _ mapped.delta).2.1.symm
  | resolve source => exact hstanding

/-- Copies that stand alike, or will once a version has settled them, end alike. -/
theorem standing_lockstep {x y : Item δ} {events : List (ItemEvent δ)} (hlabel : label x = label y)
    (h : standing x = standing y ∨ ∃ candidate, .version candidate ∈ events ∧ Settles candidate) :
    standing (events.foldl turn x) = standing ((events.filter unresolving).foldl turn y) := by
  refine (foldl_turn_unresolving (R := fun events x y => label x = label y ∧
    (standing x = standing y ∨ ∃ candidate, .version candidate ∈ events ∧ Settles candidate))
    ?_ ?_ ⟨hlabel, h⟩).2.resolve_right (fun ⟨_, hmem, _⟩ => List.not_mem_nil hmem)
  · rintro event events x y - ⟨hlabel, h⟩
    refine ⟨label_turn_congr hlabel event, ?_⟩
    rcases h with h | ⟨candidate, hmem, hsettles⟩
    · exact .inl (standing_turn_congr hlabel h event)
    · rcases List.mem_cons.mp hmem with rfl | hmem
      · left
        show standing (absorb x candidate) = standing (absorb y candidate)
        rw [(absorb_eq x candidate).2.1, (absorb_eq y candidate).2.1,
          standing_merged (.inl hsettles), standing_merged (.inl hsettles)]
      · exact .inr ⟨candidate, hmem, hsettles⟩
  · rintro source events x y ⟨hlabel, h⟩
    refine ⟨hlabel, h.imp id ?_⟩
    rintro ⟨candidate, hmem, hsettles⟩
    rcases List.mem_cons.mp hmem with hmem | hmem
    · cases hmem
    · exact ⟨candidate, hmem, hsettles⟩

/-- Versions that settle nothing leave nothing to keep. -/
theorem quiet_foldl_turn {item : Item δ} (h : Quiet item) {events : List (ItemEvent δ)}
    (hsoft : ∀ candidate, .version candidate ∈ events → ¬Settles candidate) :
    Quiet (events.foldl turn item) := by
  induction events generalizing item with
  | nil => exact h
  | cons event events ih =>
    refine ih ?_ fun candidate hmem => hsoft candidate (List.mem_cons_of_mem _ hmem)
    cases event with
    | version candidate =>
      have hcandidate := quiet_of_not_settles (hsoft candidate (List.mem_cons_self ..))
      refine quiet_congr (absorb_eq item candidate).1.symm ?_ hcandidate
      exact ((absorb_eq item candidate).2.1.trans (standing_merged (.inr h))).symm
    | delta mapped =>
      exact quiet_congr (label_streamed item _ mapped.delta).1.symm
        (label_streamed item _ mapped.delta).2.1.symm h
    | resolve source => exact h

/-! ## Authority -/

/-- What an event without a verdict leaves of the authority. -/
theorem authority_turn_version (item candidate : Item δ) :
    authority (turn item (.version candidate)) =
      if item.role = .user then authority item else authority candidate :=
  (absorb_eq item candidate).2.2.2

theorem authority_turn_delta (item : Item δ) (mapped : MappedBlockDelta) :
    authority (turn item (.delta mapped)) = authority item :=
  (label_streamed item _ mapped.delta).2.2.1

/-- Without verdicts the second copy ends with the authority of the first: it
has the same all along, or has taken that of the end and keeps it. -/
theorem authority_lockstep {x y : Item δ} {events : List (ItemEvent δ)} (hlabel : label x = label y)
    (hevents : ∀ event ∈ events, unresolving event = true)
    (h : authority x = authority y ∨ authority y = authority (events.foldl turn x)) :
    authority ((events.filter unresolving).foldl turn y) = authority (events.foldl turn x) := by
  rw [List.filter_eq_self.mpr hevents]
  induction events generalizing x y with
  | nil => exact h.elim Eq.symm id
  | cons event events ih =>
    refine ih (label_turn_congr hlabel event)
      (fun other hmem => hevents other (List.mem_cons_of_mem _ hmem)) ?_
    have hrole : x.role = y.role := congrArg Label.role hlabel
    cases event with
    | resolve source => exact absurd (hevents _ (List.mem_cons_self ..)) Bool.false_ne_true
    | delta mapped =>
      rw [authority_turn_delta, authority_turn_delta]
      exact h
    | version candidate =>
      rw [authority_turn_version, authority_turn_version, hrole]
      by_cases huser : y.role = .user
      · rw [if_pos huser, if_pos huser]
        exact h
      · rw [if_neg huser, if_neg huser]
        exact .inl rfl

theorem role_foldl_turn {item : Item δ} {events : List (ItemEvent δ)} {role : Role}
    (h : item.role = role)
    (hversions : ∀ candidate, .version candidate ∈ events → candidate.role = role) :
    (events.foldl turn item).role = role := by
  induction events generalizing item with
  | nil => exact h
  | cons event events ih =>
    refine ih ?_ fun candidate hmem => hversions candidate (List.mem_cons_of_mem _ hmem)
    cases event with
    | resolve source => exact h
    | delta mapped => exact (congrArg Label.role (label_streamed item _ mapped.delta).1).trans h
    | version candidate =>
      exact (congrArg Label.role (absorb_eq item candidate).1).trans
        (hversions candidate (List.mem_cons_self ..))

/-- What a user said keeps its authority through versions of the same role. -/
theorem authority_foldl_turn {item : Item δ} {events : List (ItemEvent δ)}
    (huser : item.role = .user)
    (hversions : ∀ candidate, .version candidate ∈ events → candidate.role = .user) :
    authority ((events.filter unresolving).foldl turn item) = authority item := by
  induction events generalizing item with
  | nil => rfl
  | cons event events ih =>
    have hrest : ∀ candidate, .version candidate ∈ events → candidate.role = .user :=
      fun candidate hmem => hversions candidate (List.mem_cons_of_mem _ hmem)
    cases event with
    | resolve source => exact ih huser hrest
    | delta mapped =>
      have hrole : (turn item (.delta mapped)).role = .user :=
        (congrArg Label.role (label_streamed item _ mapped.delta).1).trans huser
      exact (ih hrole hrest).trans (authority_turn_delta item mapped)
    | version candidate =>
      have hrole : (turn item (.version candidate)).role = .user :=
        (congrArg Label.role (absorb_eq item candidate).1).trans
          (hversions candidate (List.mem_cons_self ..))
      refine (ih hrole hrest).trans ?_
      rw [authority_turn_version, if_pos huser]

end ProjectionStore

end AgentsRemember.Conversation
