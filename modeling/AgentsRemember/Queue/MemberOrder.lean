import AgentsRemember.Queue.Members

/-!
# Queue — MemberOrder

When the members of a projection stand in the order of their positions: by
classification, by priority, by the place of the node that schedules them, or of
the master where none does, and by the leaf's row inside its master. The packed
order gives a place a thousand numbers, and a master may declare more rows.
-/

namespace AgentsRemember.Queue

namespace ProjectionMemberContext
variable (context : ProjectionMemberContext)

/-- The node's declaration position, or the position of the master. -/
def place : Nat :=
  match context.node with
  | some node => context.nodeOrder node
  | none => context.entry.masterIndex

def leafIndex : Nat := context.entry.leafIndex

/-- The place of a member, before it is packed into one number. -/
def position : Nat ×ₗ Nat ×ₗ Nat ×ₗ Nat :=
  toLex (classificationRank context.classification, toLex (priorityRank context.door.priority,
    toLex (context.place, context.leafIndex)))

/-- What is left of the row's index behind the place. -/
def offset : Nat :=
  match context.node with
  | some _ => context.leafIndex % 1000
  | none => context.leafIndex

def key : String := context.entry.leaf.ref.key

/-- Contexts that only their places and rows tell apart. -/
def Rivals (a b : ProjectionMemberContext) : Prop :=
  a.classification = b.classification ∧ a.door.priority = b.door.priority

instance (a b : ProjectionMemberContext) : Decidable (a.Rivals b) :=
  inferInstanceAs (Decidable (_ ∧ _))

end ProjectionMemberContext

/-- No row reaches over the places up to a later rival, and along one place no
later row falls behind; where two are level, the task's key keeps them apart. -/
structure WithinRadix (contexts : List ProjectionMemberContext) : Prop where
  apart : ∀ a ∈ contexts, ∀ b ∈ contexts, a.Rivals b → a.place < b.place →
    a.offset ≤ 1000 * (b.place - a.place) + b.offset ∧
      (a.offset = 1000 * (b.place - a.place) + b.offset → a.key < b.key)
  along : ∀ a ∈ contexts, ∀ b ∈ contexts, a.Rivals b → a.place = b.place →
    a.leafIndex < b.leafIndex → a.offset ≤ b.offset ∧ (a.offset = b.offset → a.key < b.key)

/-- Masters of a thousand rows at most are within the radix. -/
theorem withinRadix_of_short {contexts : List ProjectionMemberContext}
    (h : ∀ context ∈ contexts, context.leafIndex < 1000) : WithinRadix contexts := by
  have hoffset : ∀ context ∈ contexts, context.offset = context.leafIndex := by
    intro context hcontext
    unfold ProjectionMemberContext.offset
    split
    · exact Nat.mod_eq_of_lt (h context hcontext)
    · rfl
  constructor
  · intro a ha b hb _ hplace
    have hshort := h a ha
    rw [hoffset a ha, hoffset b hb]
    omega
  · intro a ha b hb _ _ hleaf
    rw [hoffset a ha, hoffset b hb]
    omega

/-! ## The packed order -/

theorem dependencyOrder_eq (context : ProjectionMemberContext) :
    context.dependencyOrder = context.place * 1000 + context.offset := by
  unfold ProjectionMemberContext.dependencyOrder ProjectionMemberContext.place
    ProjectionMemberContext.offset ProjectionMemberContext.leafIndex CensusLeaf.order
  cases context.node with
  | some node =>
    -- the master's place goes with the remainder
    dsimp only
    rw [Nat.mul_add_mod_self_right]
  | none => rfl

theorem classificationRank_inj {a b : ProjectionMemberClassification} :
    classificationRank a = classificationRank b ↔ a = b := by
  cases a <;> cases b <;> simp [classificationRank]

theorem priorityRank_inj {a b : PriorityGrade} : priorityRank a = priorityRank b ↔ a = b := by
  cases a <;> cases b <;> simp [priorityRank]

section keys
variable {fingerprint : CloseoutDoorGeneration → String}

/-- The sort key of the member of a context. -/
def contextSortKey (context : ProjectionMemberContext) : Nat ×ₗ Nat ×ₗ Nat ×ₗ String :=
  toLex (classificationRank context.classification, toLex (priorityRank context.door.priority,
    toLex (context.dependencyOrder, context.key)))

theorem memberSortKey_projectionMember {context : ProjectionMemberContext}
    (h : context.door.taskDocumentRef = context.entry.leaf.ref) :
    memberSortKey (context.projectionMember fingerprint) = contextSortKey context := by
  unfold memberSortKey contextSortKey ProjectionMemberContext.projectionMember
    ProjectionMemberContext.key
  rw [h]

theorem position_lt_iff {a b : ProjectionMemberContext} :
    a.position < b.position ↔
      classificationRank a.classification < classificationRank b.classification ∨
      a.classification = b.classification ∧
        (priorityRank a.door.priority < priorityRank b.door.priority ∨
        a.door.priority = b.door.priority ∧
          (a.place < b.place ∨ a.place = b.place ∧ a.leafIndex < b.leafIndex)) := by
  simp only [ProjectionMemberContext.position, Prod.Lex.toLex_lt_toLex, classificationRank_inj,
    priorityRank_inj]

theorem contextSortKey_lt_iff {a b : ProjectionMemberContext} :
    contextSortKey a < contextSortKey b ↔
      classificationRank a.classification < classificationRank b.classification ∨
      a.classification = b.classification ∧
        (priorityRank a.door.priority < priorityRank b.door.priority ∨
        a.door.priority = b.door.priority ∧
          (a.dependencyOrder < b.dependencyOrder ∨
            a.dependencyOrder = b.dependencyOrder ∧ a.key < b.key)) := by
  simp only [contextSortKey, Prod.Lex.toLex_lt_toLex, classificationRank_inj, priorityRank_inj]

theorem lt_or_eq_and_iff {m n : Nat} {p : Prop} : m < n ∨ m = n ∧ p ↔ m ≤ n ∧ (m = n → p) := by
  constructor
  · rintro (hlt | ⟨heq, hp⟩)
    · exact ⟨hlt.le, fun heq => absurd heq hlt.ne⟩
    · exact ⟨heq.le, fun _ => hp⟩
  · rintro ⟨hle, hp⟩
    rcases Nat.lt_or_eq_of_le hle with hlt | heq
    · exact .inl hlt
    · exact .inr ⟨heq, hp heq⟩

/-- Rivals in different places: the packed order agrees up to the next place. -/
theorem order_apart_iff {a b : ProjectionMemberContext} (hplace : a.place < b.place) :
    (a.dependencyOrder < b.dependencyOrder ∨
        a.dependencyOrder = b.dependencyOrder ∧ a.key < b.key) ↔
      a.offset ≤ 1000 * (b.place - a.place) + b.offset ∧
        (a.offset = 1000 * (b.place - a.place) + b.offset → a.key < b.key) := by
  rw [dependencyOrder_eq, dependencyOrder_eq, Ranked.packed_lt_iff hplace,
    Ranked.packed_eq_iff hplace, lt_or_eq_and_iff]

theorem order_along_iff {a b : ProjectionMemberContext} (hplace : a.place = b.place) :
    (a.dependencyOrder < b.dependencyOrder ∨
        a.dependencyOrder = b.dependencyOrder ∧ a.key < b.key) ↔
      a.offset ≤ b.offset ∧ (a.offset = b.offset → a.key < b.key) := by
  rw [dependencyOrder_eq, dependencyOrder_eq, hplace, Nat.add_lt_add_iff_left,
    Nat.add_left_cancel_iff, lt_or_eq_and_iff]

/-- The sort keys follow the positions within the radix, and only there. -/
theorem contextSortKey_follows_iff {contexts : List ProjectionMemberContext} :
    (∀ a ∈ contexts, ∀ b ∈ contexts, a.position < b.position →
      contextSortKey a < contextSortKey b) ↔ WithinRadix contexts := by
  constructor
  · intro h
    constructor
    · intro a ha b hb hrivals hplace
      have hposition : a.position < b.position :=
        position_lt_iff.mpr (.inr ⟨hrivals.1, .inr ⟨hrivals.2, .inl hplace⟩⟩)
      rcases contextSortKey_lt_iff.mp (h a ha b hb hposition) with hlt | ⟨-, hlt | ⟨-, horder⟩⟩
      · exact absurd (classificationRank_inj.mpr hrivals.1) hlt.ne
      · exact absurd (priorityRank_inj.mpr hrivals.2) hlt.ne
      · exact (order_apart_iff hplace).mp horder
    · intro a ha b hb hrivals hplace hleaf
      have hposition : a.position < b.position :=
        position_lt_iff.mpr (.inr ⟨hrivals.1, .inr ⟨hrivals.2, .inr ⟨hplace, hleaf⟩⟩⟩)
      rcases contextSortKey_lt_iff.mp (h a ha b hb hposition) with hlt | ⟨-, hlt | ⟨-, horder⟩⟩
      · exact absurd (classificationRank_inj.mpr hrivals.1) hlt.ne
      · exact absurd (priorityRank_inj.mpr hrivals.2) hlt.ne
      · exact (order_along_iff hplace).mp horder
  · intro h a ha b hb hposition
    rw [contextSortKey_lt_iff]
    rcases position_lt_iff.mp hposition with
      hlt | ⟨hclass, hlt | ⟨hpriority, hplace | ⟨hplace, hleaf⟩⟩⟩
    · exact .inl hlt
    · exact .inr ⟨hclass, .inl hlt⟩
    · exact .inr ⟨hclass, .inr ⟨hpriority, (order_apart_iff hplace).mpr
        (h.apart a ha b hb ⟨hclass, hpriority⟩ hplace)⟩⟩
    · exact .inr ⟨hclass, .inr ⟨hpriority, (order_along_iff hplace).mpr
        (h.along a ha b hb ⟨hclass, hpriority⟩ hplace hleaf)⟩⟩

end keys

/-! ## What a capture gives -/

section capture
variable {reads : ProjectionReads} {sprint : SprintDocument}

theorem map_of_mapM {α β ε : Type} {f : α → Except ε β} {g : β → α}
    (hg : ∀ x y, f x = .ok y → g y = x) {xs : List α} {ys : List β} (h : xs.mapM f = .ok ys) :
    ys.map g = xs := by
  induction xs generalizing ys with
  | nil =>
    cases h
    rfl
  | cons x xs ih =>
    rw [List.mapM_cons] at h
    obtain ⟨y, hy, h⟩ := Attempts.bind_eq_ok.mp h
    obtain ⟨rest, hrest, h⟩ := Attempts.bind_eq_ok.mp h
    cases h
    rw [List.map_cons, hg x y hy, ih hrest]

/-- A door of the census is the door of its leaf. -/
theorem taskDocumentRef_of_mem_doorCensus {masters : List MasterDocument} {w : WaitingDoor}
    (h : w ∈ (doorCensus reads sprint masters).2) : w.door.taskDocumentRef = w.entry.leaf.ref := by
  unfold doorCensus at h
  dsimp only at h
  obtain ⟨doors, hdoors, hw⟩ := List.mem_flatMap.mp (List.mem_of_mem_filter h)
  obtain ⟨entry, -, rfl⟩ := List.mem_map.mp hdoors
  unfold leafProjectionDoors at hw
  dsimp only at hw
  obtain ⟨door, hdoor, hok⟩ := List.mem_filterMap.mp hw
  obtain ⟨source, -, rfl⟩ := List.mem_map.mp hdoor
  unfold leafProjectionDoor at hok
  split at hok
  · cases hok
  · rename_i found hfound
    cases hok
    split at hfound
    · cases hfound
    · split at hfound
      · cases hfound
      · split at hfound
        · rename_i hmatches
          cases hfound
          exact (of_decide_eq_true hmatches).1
        · cases hfound

/-- A projection has a member for each waiting door, and the doors are of
different leafs. -/
theorem memberContexts_eq_ok {contexts : List ProjectionMemberContext}
    (h : memberContexts reads sprint = .ok contexts) :
    (contexts.map ProjectionMemberContext.key).Nodup ∧
      ∀ context ∈ contexts, context.door.taskDocumentRef = context.entry.leaf.ref := by
  unfold memberContexts at h
  split at h
  · cases h
  · rename_i masters hmasters
    split at h
    · cases h
    · dsimp only at h
      split at h
      · cases h
      · rename_i hproblems
        split at h
        · cases h
          simp
        · split at h
          · cases h
          · rename_i graph hgraph
            split at h
            · cases h
            · rename_i found hfound
              cases h
              have hwaiting : contexts.map ProjectionMemberContext.waiting =
                  (doorCensus reads sprint masters).2 := by
                apply map_of_mapM _ hfound
                intro w context hcontext
                obtain ⟨facts, -, hcontext⟩ := Attempts.bind_eq_ok.mp hcontext
                cases hcontext
                rfl
              constructor
              · push Not at hproblems
                have hconflict := (List.append_eq_nil_iff.mp hproblems).2
                unfold requireWaitingDoorIdentities at hconflict
                split at hconflict
                · rename_i hnodup
                  have hkeys := hnodup.2
                  rw [← hwaiting, List.map_map] at hkeys
                  exact hkeys
                · cases hconflict
              · intro context hcontext
                have hmem : context.waiting ∈ (doorCensus reads sprint masters).2 := by
                  rw [← hwaiting]
                  exact List.mem_map_of_mem hcontext
                exact taskDocumentRef_of_mem_doorCensus hmem

theorem captureProjectionSource_members {contexts : List ProjectionMemberContext}
    (h : memberContexts reads sprint = .ok contexts) :
    (captureProjectionSource reads sprint).members = projectionMembers reads contexts := by
  unfold captureProjectionSource
  rw [h]

theorem sortKeys_nodup {contexts : List ProjectionMemberContext}
    (h : memberContexts reads sprint = .ok contexts) :
    ((contexts.map fun c => c.projectionMember reads.doorFingerprint).map memberSortKey).Nodup := by
  obtain ⟨hnodup, hrefs⟩ := memberContexts_eq_ok h
  have hkeys : ((contexts.map fun c => c.projectionMember reads.doorFingerprint).map
      memberSortKey).map (fun k => (ofLex (ofLex (ofLex k).2).2).2) =
        contexts.map ProjectionMemberContext.key := by
    rw [List.map_map, List.map_map]
    apply List.map_congr_left
    intro context hcontext
    simp only [Function.comp_apply]
    rw [memberSortKey_projectionMember (hrefs context hcontext)]
    rfl
  exact List.Nodup.of_map _ (hkeys ▸ hnodup)

/-- Two members stand in the order of their sort keys. -/
theorem members_sublist_iff {contexts : List ProjectionMemberContext}
    (h : memberContexts reads sprint = .ok contexts) {a b : ProjectionMemberContext}
    (ha : a ∈ contexts) (hb : b ∈ contexts) :
    [a.projectionMember reads.doorFingerprint, b.projectionMember reads.doorFingerprint].Sublist
      (captureProjectionSource reads sprint).members ↔ contextSortKey a < contextSortKey b := by
  obtain ⟨-, hrefs⟩ := memberContexts_eq_ok h
  rw [captureProjectionSource_members h, projectionMembers,
    Ranked.pair_sublist_iff (sortKeys_nodup h) (List.mem_map_of_mem ha) (List.mem_map_of_mem hb),
    memberSortKey_projectionMember (hrefs a ha), memberSortKey_projectionMember (hrefs b hb)]

/-- Where the sort keys follow the positions, an admitted generation is that of
the least ready member. -/
theorem first_ready_least {contexts : List ProjectionMemberContext}
    (h : memberContexts reads sprint = .ok contexts)
    (hfollows : ∀ a ∈ contexts, ∀ b ∈ contexts, a.position < b.position →
      contextSortKey a < contextSortKey b)
    {store : CloseoutQueueStore} {file : StateFile} {timestamp generationId : String}
    (hadmitted : store.requireFirstReadyGeneration file (captureProjectionSource reads sprint)
      timestamp generationId = .ok ()) :
    ∃ a ∈ contexts, a.door.generationId = generationId ∧ a.classification = .ready ∧
      ∀ b ∈ contexts, b.classification = .ready → a.position ≤ b.position := by
  obtain ⟨state, first, -, -, hmatches, hfirst, hgeneration⟩ :=
    store.requireFirstReadyGeneration_ok hadmitted
  rw [hmatches.2.2.2.2, captureProjectionSource_members h, projectionMembers] at hfirst
  obtain ⟨-, hrefs⟩ := memberContexts_eq_ok h
  obtain ⟨a, ha, rfl⟩ := List.mem_map.mp (Ranked.mem_sortBy.mp (List.mem_of_find?_eq_some hfirst))
  have hready := List.find?_some hfirst
  refine ⟨a, ha, hgeneration, of_decide_eq_true hready, ?_⟩
  intro b hb hreadyB
  -- a ready member of a lower position would have been found before
  by_contra hlt
  have hbefore := hfollows b hb a ha (not_le.mp hlt)
  have hleast := Ranked.find?_sortBy_le hfirst (List.mem_map_of_mem hb)
    (decide_eq_true hreadyB)
  rw [memberSortKey_projectionMember (hrefs a ha),
    memberSortKey_projectionMember (hrefs b hb)] at hleast
  exact absurd hbefore (not_lt.mpr hleast)

/-- The members of a projection stand in the order of their positions, and an
admitted generation is the least ready one, exactly within the radix. -/
theorem captureProjectionSource_ordered_iff {contexts : List ProjectionMemberContext}
    (h : memberContexts reads sprint = .ok contexts) :
    ((∀ a ∈ contexts, ∀ b ∈ contexts, a.position < b.position →
        [a.projectionMember reads.doorFingerprint,
          b.projectionMember reads.doorFingerprint].Sublist
            (captureProjectionSource reads sprint).members) ∧
      ∀ (store : CloseoutQueueStore) (file : StateFile) (timestamp generationId : String),
        store.requireFirstReadyGeneration file (captureProjectionSource reads sprint) timestamp
            generationId = .ok () →
          ∃ a ∈ contexts, a.door.generationId = generationId ∧ a.classification = .ready ∧
            ∀ b ∈ contexts, b.classification = .ready → a.position ≤ b.position) ↔
      WithinRadix contexts := by
  constructor
  · rintro ⟨hordered, -⟩
    apply contextSortKey_follows_iff.mp
    intro a ha b hb hposition
    exact (members_sublist_iff h ha hb).mp (hordered a ha b hb hposition)
  · intro hradix
    have hfollows := contextSortKey_follows_iff.mpr hradix
    constructor
    · intro a ha b hb hposition
      exact (members_sublist_iff h ha hb).mpr (hfollows a ha b hb hposition)
    · intro store file timestamp generationId hadmitted
      exact first_ready_least h hfollows hadmitted

end capture

/-! ## A master with many rows -/

section planned
variable (planned : Nat)

/-- Rows without a file, and then the row of a leaf. -/
def longMaster : MasterDocument where
  ref := ⟨"repo", "long/task.json"⟩
  subTasks := (List.range planned).map (fun i => ⟨toString i, "", "planning"⟩) ++
    [⟨"last", "leaf.md", "planning"⟩]

/-- A master behind a long one. -/
def nextMaster : MasterDocument where
  ref := ⟨"repo", "next/task.json"⟩
  subTasks := [⟨"1", "leaf.md", "planning"⟩]

/-- The only planned leaf of a master. -/
def plannedLeaf (master : MasterDocument) : LeafDocument where
  ref := leafRef master.ref "leaf.md"

/-- The waiting door of that leaf. -/
def plannedDoor (master : MasterDocument) : CloseoutDoorGeneration where
  generationId := master.ref.path
  disposition := .waiting
  taskDocumentRef := (plannedLeaf master).ref
  owningMasterTaskDocumentRef := master.ref
  sprintTaskDocumentRef := ⟨"repo", "sprint/task.json"⟩
  contractPath := "contract.md"
  candidateTree := "tree"
  taskTopologyFingerprint := "topology"
  taskIntent := some ⟨"intent"⟩
  priority := .normal

/-- A sprint without a graph. -/
def plannedSprint : SprintDocument where
  document := { ref := ⟨"repo", "sprint/task.json"⟩, subTasks := [] }

/-- Every source of that sprint reads. -/
def plannedReads : ProjectionReads where
  commandedMasters := .ok [longMaster planned, nextMaster]
  resolveLeaf := fun master _ => .ok (plannedLeaf master)
  doorSources := fun leaf => ([], [⟨"contract.md", some "leaf", some
    (plannedDoor (if leaf = plannedLeaf nextMaster then nextMaster else longMaster planned))⟩])
  memberFacts := fun _ => .ok ⟨[], "topology", ⟨"intent"⟩⟩
  doorFingerprint := fun door => door.generationId
  payloadFingerprint := fun _ => "payload"

/-- The context of the leaf in a row of a master. -/
def plannedContext (master : MasterDocument) (masterIndex leafIndex : Nat) :
    ProjectionMemberContext where
  waiting := ⟨⟨"contract.md", some "leaf", some (plannedDoor master)⟩, plannedDoor master,
    ⟨plannedLeaf master, master, masterIndex, leafIndex⟩⟩
  graph := none
  nodeOrder := fun _ => 0
  facts := ⟨[], "topology", ⟨"intent"⟩⟩

theorem masterLeafs_longMaster (masterIndex : Nat) :
    masterLeafs (plannedReads planned) masterIndex (longMaster planned) =
      [.ok ⟨plannedLeaf (longMaster planned), longMaster planned, masterIndex, planned⟩] := by
  have hblank : ∀ e ∈ ((List.range planned).map fun i =>
      (⟨toString i, "", "planning"⟩ : SubTaskRef)).zipIdx, e.1.file = "" := by
    intro e he
    obtain ⟨i, -, hi⟩ := List.mem_map.mp (List.mem_of_getElem? (List.mem_zipIdx_iff_getElem?.mp he))
    rw [← hi]
  unfold masterLeafs
  rw [show (longMaster planned).subTasks = (List.range planned).map
    (fun i => (⟨toString i, "", "planning"⟩ : SubTaskRef)) ++
      [⟨"last", "leaf.md", "planning"⟩] from rfl, List.zipIdx_append, List.filterMap_append,
    List.filterMap_eq_nil_iff.mpr fun e he => if_pos (hblank e he)]
  simp [plannedReads, Except.map]

theorem plannedLeaf_longMaster :
    plannedLeaf (longMaster planned) = ⟨⟨"repo", "long/leaf.json"⟩, []⟩ := by
  unfold plannedLeaf
  rw [show (longMaster planned).ref = ⟨"repo", "long/task.json"⟩ from rfl]
  rfl

theorem plannedLeaf_nextMaster : plannedLeaf nextMaster = ⟨⟨"repo", "next/leaf.json"⟩, []⟩ := rfl

theorem doorCensus_planned :
    doorCensus (plannedReads planned) plannedSprint [longMaster planned, nextMaster] =
      ([], [(plannedContext (longMaster planned) 0 planned).waiting,
        (plannedContext nextMaster 1 0).waiting]) := by
  have hnext : masterLeafs (plannedReads planned) 1 nextMaster =
      [.ok ⟨plannedLeaf nextMaster, nextMaster, 1, 0⟩] := rfl
  have hrows : censusLeafs (plannedReads planned) [longMaster planned, nextMaster] =
      [.ok ⟨plannedLeaf (longMaster planned), longMaster planned, 0, planned⟩,
        .ok ⟨plannedLeaf nextMaster, nextMaster, 1, 0⟩] := by
    show masterLeafs (plannedReads planned) 0 (longMaster planned) ++
      (masterLeafs (plannedReads planned) 1 nextMaster ++ []) = _
    rw [masterLeafs_longMaster, hnext]
    rfl
  have hlong : leafProjectionDoors (plannedReads planned) plannedSprint
      ⟨plannedLeaf (longMaster planned), longMaster planned, 0, planned⟩ =
        ([], [(plannedContext (longMaster planned) 0 planned).waiting]) := by
    have hne : plannedLeaf (longMaster planned) ≠ plannedLeaf nextMaster := by
      rw [plannedLeaf_longMaster, plannedLeaf_nextMaster]
      decide
    simp [leafProjectionDoors, leafProjectionDoor, leafDoorIdentityMatches, plannedReads,
      plannedDoor, plannedContext, plannedSprint, hne]
  have hdoors : leafProjectionDoors (plannedReads planned) plannedSprint
      ⟨plannedLeaf nextMaster, nextMaster, 1, 0⟩ =
        ([], [(plannedContext nextMaster 1 0).waiting]) := by
    simp [leafProjectionDoors, leafProjectionDoor, leafDoorIdentityMatches, plannedReads,
      plannedDoor, plannedContext, plannedSprint]
  unfold doorCensus
  rw [hrows]
  dsimp only [List.filterMap, Except.toOption, List.map]
  rw [hlong, hdoors]
  rfl

theorem memberContexts_planned : memberContexts (plannedReads planned) plannedSprint =
    .ok [plannedContext (longMaster planned) 0 planned, plannedContext nextMaster 1 0] := by
  have hmasters : commandedSprintMasters (plannedReads planned) plannedSprint =
      .ok [longMaster planned, nextMaster] := rfl
  have hidentities : requireWaitingDoorIdentities plannedSprint
      [(plannedContext (longMaster planned) 0 planned).waiting,
        (plannedContext nextMaster 1 0).waiting] = [] := by
    have hlong : (plannedContext (longMaster planned) 0 planned).waiting.entry.leaf =
        ⟨⟨"repo", "long/leaf.json"⟩, []⟩ := plannedLeaf_longMaster planned
    have hnext : (plannedContext nextMaster 1 0).waiting.entry.leaf =
        ⟨⟨"repo", "next/leaf.json"⟩, []⟩ := plannedLeaf_nextMaster
    unfold requireWaitingDoorIdentities
    rw [if_pos]
    constructor
    · show ["long/task.json", "next/task.json"].Nodup
      decide
    · simp only [List.map_cons, List.map_nil, hlong, hnext]
      decide
  have hterminal : masterIsTerminal plannedSprint.document = false := by decide
  unfold memberContexts
  rw [hmasters]
  dsimp only
  rw [doorCensus_planned]
  dsimp only
  rw [hidentities, hterminal]
  rfl

section context
variable (master : MasterDocument) (masterIndex leafIndex : Nat)

theorem classification_plannedContext :
    (plannedContext master masterIndex leafIndex).classification = .ready := by
  simp [ProjectionMemberContext.classification, ProjectionMemberContext.projectionBlockers,
    ProjectionMemberContext.waitingReasons, ProjectionMemberContext.predecessorWaitingReasons,
    admissionWaitingReasons, ProjectionMemberContext.door, ProjectionMemberContext.entry,
    plannedContext, plannedDoor, plannedLeaf]

theorem priority_plannedContext :
    (plannedContext master masterIndex leafIndex).door.priority = .normal := rfl

theorem place_plannedContext :
    (plannedContext master masterIndex leafIndex).place = masterIndex := rfl

theorem dependencyOrder_plannedContext :
    (plannedContext master masterIndex leafIndex).dependencyOrder =
      masterIndex * 1000 + leafIndex := rfl

end context

/-- The leaf of an earlier master is in front of one of the next master. -/
theorem position_planned : (plannedContext (longMaster planned) 0 planned).position <
    (plannedContext nextMaster 1 0).position := by
  rw [position_lt_iff, classification_plannedContext, classification_plannedContext,
    priority_plannedContext, priority_plannedContext, place_plannedContext, place_plannedContext]
  exact .inr ⟨rfl, .inr ⟨rfl, .inl Nat.zero_lt_one⟩⟩

end planned

theorem captureProjectionSource_ordered_short :
    [(plannedContext (longMaster 0) 0 0).projectionMember (plannedReads 0).doorFingerprint,
      (plannedContext nextMaster 1 0).projectionMember (plannedReads 0).doorFingerprint].Sublist
        (captureProjectionSource (plannedReads 0) plannedSprint).members := by
  have hradix : WithinRadix [plannedContext (longMaster 0) 0 0, plannedContext nextMaster 1 0] := by
    apply withinRadix_of_short
    intro context hcontext
    simp only [List.mem_cons, List.not_mem_nil, or_false] at hcontext
    obtain rfl | rfl := hcontext <;> decide
  exact ((captureProjectionSource_ordered_iff (memberContexts_planned 0)).mpr hradix).1 _
    (by simp) _ (by simp) (position_planned 0)

/-- Behind a thousand rows, a leaf of the first master is ready and is not the
first ready member: a leaf of the next master is. -/
theorem captureProjectionSource_misordered :
    memberContexts (plannedReads 1001) plannedSprint =
        .ok [plannedContext (longMaster 1001) 0 1001, plannedContext nextMaster 1 0] ∧
      (plannedContext (longMaster 1001) 0 1001).classification = .ready ∧
      (plannedContext (longMaster 1001) 0 1001).position <
        (plannedContext nextMaster 1 0).position ∧
      (captureProjectionSource (plannedReads 1001) plannedSprint).members =
        [(plannedContext nextMaster 1 0).projectionMember (plannedReads 1001).doorFingerprint,
          (plannedContext (longMaster 1001) 0 1001).projectionMember
            (plannedReads 1001).doorFingerprint] ∧
      ((captureProjectionSource (plannedReads 1001) plannedSprint).members.find?
          fun m => m.classification = .ready) =
        some ((plannedContext nextMaster 1 0).projectionMember
          (plannedReads 1001).doorFingerprint) := by
  have hcontexts := memberContexts_planned 1001
  have hkeys : contextSortKey (plannedContext nextMaster 1 0) <
      contextSortKey (plannedContext (longMaster 1001) 0 1001) := by
    rw [contextSortKey_lt_iff, classification_plannedContext, classification_plannedContext,
      priority_plannedContext, priority_plannedContext, dependencyOrder_plannedContext,
      dependencyOrder_plannedContext]
    exact .inr ⟨rfl, .inr ⟨rfl, .inl (by decide)⟩⟩
  have hsub := (members_sublist_iff hcontexts (List.mem_cons_of_mem _ List.mem_cons_self)
    List.mem_cons_self).mpr hkeys
  have hlength : (captureProjectionSource (plannedReads 1001) plannedSprint).members.length = 2 := by
    rw [captureProjectionSource_members hcontexts, projectionMembers, Ranked.sortBy,
      List.length_mergeSort]
    rfl
  have hmembers := hsub.eq_of_length hlength.symm
  refine ⟨hcontexts, classification_plannedContext _ _ _, position_planned 1001, hmembers.symm, ?_⟩
  rw [← hmembers]
  apply List.find?_cons_of_pos
  exact decide_eq_true (classification_plannedContext nextMaster 1 0)

end AgentsRemember.Queue
