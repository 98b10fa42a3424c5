import AgentsRemember.Foundation.Attempts
import AgentsRemember.Foundation.Lines
import AgentsRemember.Lifecycle.Record

/-!
# Lifecycle — Reconciliation

The mutation legs of a record against the repositories as a crash left them. A
leg whose commit command may have run is settled where the live repository says
how it ended, and left alone where it does not.
-/

namespace AgentsRemember.Lifecycle

open Checks Attempts

/-! ## Repositories -/

/-- Where HEAD points. -/
inductive HeadState where
  | onBranch (ref : String)
  | detached (commit : String)

/-- `symbolic-ref --quiet HEAD` -/
def HeadState.symbolicRef : HeadState → Option String
  | .onBranch ref => some ref
  | .detached _ => none

/-- A commit, as far as its parents and its tree. -/
structure GitCommit where
  tree : String
  parents : List String

/-- In which storage a snapshot is taken, and whether `memory.md` is left out of it. -/
structure SnapshotMode where
  temporary : Bool
  memoryCache : Bool

/-- What Git tells of the index and the working tree, where it tells it. -/
structure IndexFacts where
  statusFingerprint : Option String := none
  indexTree : Option String := none
  candidateTree : Option String := none

/-- A repository at rest. A lookup that has no answer is a command that fails. -/
structure LiveRepository where
  head : HeadState
  refs : String → Option String
  commits : String → Option GitCommit
  /-- The fingerprint of the log of a ref. -/
  refLog : String → Option String
  /-- A tree without its `memory.md`. -/
  contentTree : String → Option String
  index : SnapshotMode → IndexFacts

/-- `rev-parse commit^` -/
def LiveRepository.firstParent (repository : LiveRepository) (commit : String) : Option String :=
  (repository.commits commit).bind (·.parents.head?)

/-- Why there is no snapshot: a fact cannot be read, or does not fit its field. -/
inductive SnapshotFailure where
  | unreadable | invalid

/-- A fact of the repository, or the failure to read it. -/
def readable {α : Type} (fact : Option α) : Except SnapshotFailure α :=
  match fact with
  | some value => .ok value
  | none => .error .unreadable

/-- The tree of the head without `memory.md`, where that is left out. -/
def LiveRepository.contentHeadTree (repository : LiveRepository) (memoryCache : Bool)
    (headTree : String) : Except SnapshotFailure (Option String) :=
  if memoryCache then (readable (repository.contentTree headTree)).map some else .ok none

/-- A branch name, without any white space in it. -/
def isBranchRef (ref : String) : Bool :=
  "refs/heads/".toList <+: ref.toList && ref.toList.drop 11 ≠ [] &&
    (ref.toList.drop 11).all fun c => !Lines.isSpace c

/-- `git_mutation_snapshot`, and `ephemeral_git_mutation_snapshot` with temporary storage. -/
def gitMutationSnapshot (repository : LiveRepository) (memoryCache temporary : Bool) :
    Except SnapshotFailure GitMutationSnapshot := do
  let facts := repository.index ⟨temporary || memoryCache, memoryCache⟩
  let statusFingerprint ← readable facts.statusFingerprint
  let headRef ← readable repository.head.symbolicRef
  let head ← readable (repository.refs headRef)
  let commit ← readable (repository.commits head)
  let contentHeadTree ← repository.contentHeadTree memoryCache commit.tree
  let indexTree ← readable facts.indexTree
  let candidateTree ← readable facts.candidateTree
  let refLogFingerprint ← readable (repository.refLog headRef)
  if isBranchRef headRef then
    .ok {
      headRef := headRef
      head := head
      headTree := commit.tree
      contentHeadTree := contentHeadTree
      refLogFingerprint := refLogFingerprint
      indexTree := indexTree
      candidateTree := candidateTree
      statusFingerprint := statusFingerprint }
  else .error .invalid

/-! ## Reconciliation -/

/-- The commit is the one that the intent announced. -/
def commitMatchesIntent (repository : LiveRepository) (before actual : GitMutationSnapshot)
    (expectedTree commit : String) : Except SnapshotFailure Bool :=
  if actual.headRef ≠ before.headRef ∨ actual.head ≠ commit ∨ actual.headTree ≠ expectedTree then
    .ok false
  else (readable (repository.firstParent commit)).map fun parent => parent = before.head

/-- A match binds the ref and the tree, as a proven cell does. -/
theorem commitMatchesIntent_binds {repository : LiveRepository}
    {before actual : GitMutationSnapshot} {expectedTree commit : String}
    (h : commitMatchesIntent repository before actual expectedTree commit = .ok true) :
    actual.headRef = before.headRef ∧ actual.head = commit ∧ actual.headTree = expectedTree ∧
      repository.firstParent commit = some before.head := by
  unfold commitMatchesIntent at h
  split at h
  · cases h
  next hsame =>
    push Not at hsame
    cases hparent : repository.firstParent commit with
    | none => rw [hparent] at h; cases h
    | some parent =>
      rw [hparent] at h
      have heq : decide (parent = before.head) = true := Except.ok.inj h
      exact ⟨hsame.1, hsame.2.1, hsame.2.2, by rw [of_decide_eq_true heq]⟩

theorem GitMutationEvidence.commit_of_intent {evidence : GitMutationEvidence}
    (h : evidence.state = .mutationIntent) : evidence.commit = none := by
  have hevidence := evidence.evidence
  rw [h] at hevidence
  exact hevidence.1

/-- The intent, found to have changed nothing. -/
def GitMutationEvidence.settleUnchanged (evidence : GitMutationEvidence)
    {before : GitMutationSnapshot} (hstate : evidence.state = .mutationIntent)
    (hbefore : evidence.before = some before) : GitMutationEvidence :=
  { evidence with
    state := .reconciledUnchanged
    observed := some before
    evidence := ⟨evidence.commit_of_intent hstate, by rw [hbefore]; rfl, hbefore.symm⟩ }

/-- The intent, found to have ended in the commit that is observed. -/
def GitMutationEvidence.proveCommit (evidence : GitMutationEvidence)
    {before actual : GitMutationSnapshot} {expected : String}
    (hbefore : evidence.before = some before)
    (hexpected : evidence.expectedOutputTree = some expected)
    (hbinds : actual.headRef = before.headRef ∧ actual.headTree = expected) :
    GitMutationEvidence :=
  { evidence with
    state := .commitProven
    observed := some actual
    commit := some actual.head
    evidence := by
      rw [hbefore, hexpected]
      exact ⟨hbinds.1, rfl, hbinds.2⟩ }

/-- One leg of the loop: a snapshot that does not fit its fields is not caught. -/
def reconcileEvidence (repository : LiveRepository) (leg : CloseoutMutationLeg) (temporary : Bool)
    (evidence : GitMutationEvidence) : Except SnapshotFailure GitMutationEvidence :=
  match hstate : evidence.state, hbefore : evidence.before, evidence.observed with
  | .mutationIntent, some before, none =>
    match gitMutationSnapshot repository (leg = .memory) temporary with
    -- an unreadable repository proves nothing, and the intent stays
    | .error .unreadable => .ok evidence
    | .error .invalid => .error .invalid
    | .ok actual =>
      if actual = before then .ok (evidence.settleUnchanged hstate hbefore)
      else
        match hexpected : evidence.expectedOutputTree with
        -- without an expected tree no commit can be told to be the intended one
        | none => .ok evidence
        | some expected =>
          if actual.head = before.head then .ok evidence
          else
            match hmatch : commitMatchesIntent repository before actual expected actual.head with
            | .ok true =>
              have hbinds := commitMatchesIntent_binds hmatch
              .ok (evidence.proveCommit hbefore hexpected ⟨hbinds.1, hbinds.2.2.1⟩)
            | .ok false => .ok evidence
            | .error _ => .ok evidence
  | _, _, _ => .ok evidence

/-- What reconciliation reads outside the record. -/
structure ReconciliationGround where
  /-- The repositories of the contract, or why it cannot be loaded. -/
  contract : Except String (Legs String)
  resolve : String → String
  repository : String → LiveRepository

/-- Why a reconciliation is refused. -/
inductive ReconciliationRefusal where
  | authority (message : String)
  | invalidSnapshot

section reconciliation
variable (ground : ReconciliationGround)

/-- Every leg names its repository of the contract. -/
def requireRecordRepositories (evidence : Legs GitMutationEvidence) : Except String Unit := do
  let expected ← ground.contract
  inOrder (evidence.items.map fun cell =>
    refuseIf ((expected.get cell.1).map ground.resolve ≠ some (ground.resolve cell.2.repository))
      ("closeout " ++ cell.1.text ++
        " mutation evidence repository is outside contract authority"))

/-- The cell of a leg, reconciled where there is one. -/
def reconcileLeg (temporaryIndices : Bool) (leg : CloseoutMutationLeg)
    (cell : Option GitMutationEvidence) :
    Except ReconciliationRefusal (Option GitMutationEvidence) :=
  match cell with
  | none => .ok none
  | some evidence =>
    match reconcileEvidence (ground.repository evidence.repository) leg temporaryIndices evidence with
    | .ok after => .ok (some after)
    | .error _ => .error .invalidSnapshot

/-- Both legs, the code leg first. -/
def reconcileCloseoutMutations (evidence : Legs GitMutationEvidence) (temporaryIndices : Bool) :
    Except ReconciliationRefusal (Legs GitMutationEvidence) := do
  (requireRecordRepositories ground evidence).mapError .authority
  let code ← reconcileLeg ground temporaryIndices .code evidence.code
  let memory ← reconcileLeg ground temporaryIndices .memory evidence.memory
  .ok ⟨code, memory⟩

end reconciliation

/-! ## What a marked leg says -/

/-- The leg's command may have run, and nothing was observed since. -/
structure Examined (evidence : GitMutationEvidence) (before : GitMutationSnapshot) : Prop where
  intent : evidence.state = .mutationIntent
  recorded : evidence.before = some before
  unobserved : evidence.observed = none

/-- The cells that no reconciliation touches. -/
structure SameAttempt (evidence after : GitMutationEvidence) : Prop where
  leg : after.leg = evidence.leg
  repository : after.repository = evidence.repository
  acceptedBefore : after.acceptedBefore = evidence.acceptedBefore
  before : after.before = evidence.before
  expectedOutputTree : after.expectedOutputTree = evidence.expectedOutputTree

/-- Unchanged: the live snapshot is the recorded one. -/
def MarkedUnchanged (repository : LiveRepository) (memoryCache temporary : Bool)
    (evidence after : GitMutationEvidence) : Prop :=
  ∃ before, Examined evidence before ∧
    gitMutationSnapshot repository memoryCache temporary = .ok before ∧
    after.state = .reconciledUnchanged ∧ after.observed = some before

/-- Proven: the head of the same ref is a commit of the expected tree over the
recorded head. `lineage` says what its parents are. -/
def MarkedProven (repository : LiveRepository) (memoryCache temporary : Bool)
    (lineage : List String → String → Prop) (evidence after : GitMutationEvidence) : Prop :=
  ∃ before actual commit, Examined evidence before ∧
    gitMutationSnapshot repository memoryCache temporary = .ok actual ∧
    actual.headRef = before.headRef ∧ repository.refs before.headRef = some actual.head ∧
    actual.head ≠ before.head ∧ repository.commits actual.head = some commit ∧
    evidence.expectedOutputTree = some commit.tree ∧ lineage commit.parents before.head ∧
    after.state = .commitProven ∧ after.observed = some actual ∧ after.commit = some actual.head

/-- The parents of a commit are the one recorded head. -/
def OnlyParent (parents : List String) (recorded : String) : Prop := parents = [recorded]

/-- The recorded parent is the first one. -/
def FirstParent (parents : List String) (recorded : String) : Prop :=
  parents.head? = some recorded

/-- A leg is left as it was, or marked for what is there. -/
def Attributed (repository : LiveRepository) (memoryCache temporary : Bool)
    (lineage : List String → String → Prop) (evidence after : GitMutationEvidence) : Prop :=
  after = evidence ∨ SameAttempt evidence after ∧
    (MarkedUnchanged repository memoryCache temporary evidence after ∨
      MarkedProven repository memoryCache temporary lineage evidence after)

/-! ## One leg -/

theorem readable_eq_ok {α : Type} {fact : Option α} {value : α} :
    readable fact = .ok value ↔ fact = some value := by
  cases fact <;> simp [readable]

/-- What a snapshot says of the head. -/
theorem snapshot_head {repository : LiveRepository} {memoryCache temporary : Bool}
    {actual : GitMutationSnapshot}
    (h : gitMutationSnapshot repository memoryCache temporary = .ok actual) :
    repository.refs actual.headRef = some actual.head ∧
      ∃ commit, repository.commits actual.head = some commit ∧ commit.tree = actual.headTree := by
  unfold gitMutationSnapshot at h
  simp only [bind_eq_ok, readable_eq_ok] at h
  obtain ⟨_, -, headRef, -, head, hhead, commit, hcommit, _, -, _, -, _, -, _, -, h⟩ := h
  split at h
  · cases h
    exact ⟨hhead, commit, hcommit, rfl⟩
  · cases h

section leg
variable {repository : LiveRepository} {leg : CloseoutMutationLeg} {temporary : Bool}
  {evidence after : GitMutationEvidence}

/-- One leg is marked by its first parent. -/
theorem reconcileEvidence_attributed
    (h : reconcileEvidence repository leg temporary evidence = .ok after) :
    Attributed repository (leg = .memory) temporary FirstParent evidence after := by
  unfold reconcileEvidence at h
  split at h
  next before hstate hbefore hobserved =>
    have hexamined : Examined evidence before := ⟨hstate, hbefore, hobserved⟩
    split at h
    · exact .inl (Except.ok.inj h).symm
    · cases h
    next actual hsnapshot =>
      split at h
      next hsame =>
        subst hsame
        cases h
        exact .inr ⟨⟨rfl, rfl, rfl, rfl, rfl⟩, .inl ⟨actual, hexamined, hsnapshot, rfl, rfl⟩⟩
      · split at h
        · exact .inl (Except.ok.inj h).symm
        next expected hexpected =>
          split at h
          · exact .inl (Except.ok.inj h).symm
          next hmoved =>
            split at h
            next hmatch =>
              obtain ⟨href, -, htree, hparent⟩ := commitMatchesIntent_binds hmatch
              obtain ⟨hhead, commit, hcommit, hcommitTree⟩ := snapshot_head hsnapshot
              have hfirst : commit.parents.head? = some before.head := by
                rwa [LiveRepository.firstParent, hcommit, Option.bind_some] at hparent
              cases h
              refine .inr ⟨⟨rfl, rfl, rfl, rfl, rfl⟩, .inr ⟨before, actual, commit, hexamined,
                hsnapshot, href, href ▸ hhead, hmoved, hcommit, ?_, hfirst, rfl, rfl, rfl⟩⟩
              rw [hexpected, hcommitTree, htree]
            · exact .inl (Except.ok.inj h).symm
            · exact .inl (Except.ok.inj h).symm
  · exact .inl (Except.ok.inj h).symm

/-- Only what is not settled yet is looked at. -/
theorem reconcileEvidence_settled (h : evidence.state ≠ .mutationIntent) :
    reconcileEvidence repository leg temporary evidence = .ok evidence := by
  unfold reconcileEvidence
  split
  next hstate _ _ => exact absurd hstate h
  · rfl

/-- A second look finds what the first one left. -/
theorem reconcileEvidence_again
    (h : reconcileEvidence repository leg temporary evidence = .ok after) :
    reconcileEvidence repository leg temporary after = .ok after := by
  obtain rfl | ⟨-, ⟨_, -, -, hstate, -⟩ | ⟨_, _, _, -, -, -, -, -, -, -, -, hstate, -⟩⟩ :=
    reconcileEvidence_attributed h
  · exact h
  · exact reconcileEvidence_settled (by rw [hstate]; decide)
  · exact reconcileEvidence_settled (by rw [hstate]; decide)

/-- The live head is a merge of the expected tree whose first parent is the recorded head. -/
def MergeTaken (repository : LiveRepository) (memoryCache temporary : Bool)
    (evidence : GitMutationEvidence) : Prop :=
  ∃ before actual commit other rest, Examined evidence before ∧
    gitMutationSnapshot repository memoryCache temporary = .ok actual ∧
    actual.headRef = before.headRef ∧ actual.head ≠ before.head ∧
    repository.commits actual.head = some commit ∧
    evidence.expectedOutputTree = some commit.tree ∧
    commit.parents = before.head :: other :: rest

/-- A merge is marked as proven. -/
theorem reconcileEvidence_merge
    (h : MergeTaken repository (leg = .memory) temporary evidence) :
    ∃ after, reconcileEvidence repository leg temporary evidence = .ok after ∧
      after.state = .commitProven := by
  obtain ⟨before, actual, commit, other, rest, ⟨hstate, hbefore, hobserved⟩, hsnapshot, href,
    hhead, hcommit, hexpected, hparents⟩ := h
  obtain ⟨-, found, hfound, htree⟩ := snapshot_head hsnapshot
  cases hcommit.symm.trans hfound
  have hmatch : commitMatchesIntent repository before actual commit.tree actual.head = .ok true := by
    unfold commitMatchesIntent
    rw [if_neg (by simp [href, htree]), LiveRepository.firstParent, hcommit]
    simp [hparents, readable, Except.map]
  unfold reconcileEvidence
  split
  next before' _ hbefore' _ =>
    cases hbefore.symm.trans hbefore'
    rw [hsnapshot]
    dsimp only
    rw [if_neg (fun hsame => hhead (congrArg GitMutationSnapshot.head hsame))]
    split
    next hnone => rw [hexpected] at hnone; cases hnone
    next expected hsome =>
      cases hexpected.symm.trans hsome
      rw [if_neg hhead]
      split
      · exact ⟨_, rfl, rfl⟩
      next hfalse => rw [hmatch] at hfalse; cases hfalse
      next herror => rw [hmatch] at herror; cases herror
  next hnot => exact absurd hobserved (hnot before hstate hbefore)

end leg

/-! ## The record -/

theorem mapError_eq_ok {ε ε' α : Type} {x : Except ε α} {f : ε → ε'} {a : α} :
    x.mapError f = .ok a ↔ x = .ok a := by
  cases x <;> simp [Except.mapError]

theorem reconcileLeg_eq_ok {ground : ReconciliationGround} {temporary : Bool}
    {leg : CloseoutMutationLeg} {cell after : Option GitMutationEvidence} :
    reconcileLeg ground temporary leg cell = .ok after ↔
      (cell = none ∧ after = none) ∨ ∃ evidence found, cell = some evidence ∧ after = some found ∧
        reconcileEvidence (ground.repository evidence.repository) leg temporary evidence =
          .ok found := by
  cases cell with
  | none => simp [reconcileLeg, eq_comm]
  | some evidence =>
    cases h : reconcileEvidence (ground.repository evidence.repository) leg temporary evidence with
    | error failure => simp [reconcileLeg, h]
    | ok found => simp [reconcileLeg, h, eq_comm]

section record
variable {ground : ReconciliationGround} {temporary : Bool} {evidence after : Legs GitMutationEvidence}

theorem reconcileCloseoutMutations_eq_ok :
    reconcileCloseoutMutations ground evidence temporary = .ok after ↔
      requireRecordRepositories ground evidence = .ok () ∧
        ∀ leg, reconcileLeg ground temporary leg (evidence.get leg) = .ok (after.get leg) := by
  simp only [reconcileCloseoutMutations, bind_eq_ok, mapError_eq_ok]
  constructor
  · rintro ⟨⟨⟩, hauthority, code, hcode, memory, hmemory, h⟩
    cases h
    refine ⟨hauthority, fun leg => ?_⟩
    cases leg with
    | code => exact hcode
    | memory => exact hmemory
  · rintro ⟨hauthority, hlegs⟩
    exact ⟨(), hauthority, after.code, hlegs .code, after.memory, hlegs .memory, rfl⟩

/-- The call ends without a result: the contract does not name the repositories
of the record, or the head of one of them does not fit a snapshot. -/
def ReconciliationRefused (ground : ReconciliationGround) (evidence : Legs GitMutationEvidence)
    (temporary : Bool) : Prop :=
  requireRecordRepositories ground evidence ≠ .ok () ∨
    ∃ leg cell before, evidence.get leg = some cell ∧ Examined cell before ∧
      gitMutationSnapshot (ground.repository cell.repository) (leg = .memory) temporary =
        .error .invalid

theorem reconcileEvidence_error {repository : LiveRepository} {leg : CloseoutMutationLeg}
    {cell : GitMutationEvidence} {failure : SnapshotFailure}
    (h : reconcileEvidence repository leg temporary cell = .error failure) :
    ∃ before, Examined cell before ∧
      gitMutationSnapshot repository (leg = .memory) temporary = .error .invalid := by
  unfold reconcileEvidence at h
  split at h
  next before hstate hbefore hobserved =>
    split at h
    · cases h
    next hinvalid => exact ⟨before, ⟨hstate, hbefore, hobserved⟩, hinvalid⟩
    · split at h
      · cases h
      · split at h
        · cases h
        · split at h
          · cases h
          · split at h <;> cases h
  · cases h

/-- A snapshot that does not fit its fields ends the call. -/
theorem reconcileEvidence_invalid {repository : LiveRepository} {leg : CloseoutMutationLeg}
    {cell : GitMutationEvidence} {before : GitMutationSnapshot} (hexamined : Examined cell before)
    (hinvalid : gitMutationSnapshot repository (leg = .memory) temporary = .error .invalid) :
    reconcileEvidence repository leg temporary cell = .error .invalid := by
  unfold reconcileEvidence
  split
  · rw [hinvalid]
  next hnot => exact absurd hexamined.unobserved (hnot before hexamined.intent hexamined.recorded)

theorem exists_reconciled (h : ¬ReconciliationRefused ground evidence temporary) :
    ∃ after, reconcileCloseoutMutations ground evidence temporary = .ok after := by
  unfold ReconciliationRefused at h
  push Not at h
  obtain ⟨hauthority, hfits⟩ := h
  have hleg : ∀ leg, ∃ found, reconcileLeg ground temporary leg (evidence.get leg) = .ok found := by
    intro leg
    cases hcell : evidence.get leg with
    | none => exact ⟨none, rfl⟩
    | some cell =>
      cases hfound : reconcileEvidence (ground.repository cell.repository) leg temporary cell with
      | ok found => exact ⟨some found, reconcileLeg_eq_ok.mpr (.inr ⟨cell, found, rfl, rfl, hfound⟩)⟩
      | error failure =>
        obtain ⟨before, hexamined, hinvalid⟩ := reconcileEvidence_error hfound
        exact absurd hinvalid (hfits leg cell before hcell hexamined)
  obtain ⟨code, hcode⟩ := hleg .code
  obtain ⟨memory, hmemory⟩ := hleg .memory
  refine ⟨⟨code, memory⟩, reconcileCloseoutMutations_eq_ok.mpr ⟨hauthority, fun leg => ?_⟩⟩
  cases leg with
  | code => exact hcode
  | memory => exact hmemory

/-- The repositories of a record stay those of its contract. -/
theorem requireRecordRepositories_again
    (h : reconcileCloseoutMutations ground evidence temporary = .ok after) :
    requireRecordRepositories ground after = .ok () := by
  obtain ⟨hauthority, hlegs⟩ := reconcileCloseoutMutations_eq_ok.mp h
  unfold requireRecordRepositories at hauthority ⊢
  obtain ⟨contract, hcontract, hchecks⟩ := bind_eq_ok.mp hauthority
  refine bind_eq_ok.mpr ⟨contract, hcontract, inOrder_ok.mpr fun check hcheck => ?_⟩
  obtain ⟨⟨leg, cell⟩, hcell, rfl⟩ := List.mem_map.mp hcheck
  obtain ⟨-, hnone⟩ | ⟨before, found, hbefore, hfound, hreconciled⟩ :=
    reconcileLeg_eq_ok.mp (hlegs leg)
  · rw [Legs.mem_items.mp hcell] at hnone
    cases hnone
  · obtain rfl : cell = found :=
      Option.some.inj ((Legs.mem_items.mp hcell).symm.trans hfound)
    have hsame : cell.repository = before.repository := by
      obtain rfl | ⟨hattempt, -⟩ := reconcileEvidence_attributed hreconciled
      · rfl
      · exact hattempt.repository
    rw [hsame]
    exact ok_of_inOrder hchecks (List.mem_map.mpr ⟨(leg, before), Legs.mem_items.mpr hbefore, rfl⟩)

/-- Running it again on the same repositories changes nothing. -/
theorem reconcile_again (h : reconcileCloseoutMutations ground evidence temporary = .ok after) :
    reconcileCloseoutMutations ground after temporary = .ok after := by
  refine reconcileCloseoutMutations_eq_ok.mpr ⟨requireRecordRepositories_again h, fun leg => ?_⟩
  obtain ⟨-, hnone⟩ | ⟨before, found, -, hfound, hreconciled⟩ :=
    reconcileLeg_eq_ok.mp ((reconcileCloseoutMutations_eq_ok.mp h).2 leg)
  · exact reconcileLeg_eq_ok.mpr (.inl ⟨hnone, hnone⟩)
  · have hrepository : found.repository = before.repository := by
      obtain rfl | ⟨hattempt, -⟩ := reconcileEvidence_attributed hreconciled
      · rfl
      · exact hattempt.repository
    refine reconcileLeg_eq_ok.mpr (.inr ⟨found, found, hfound, hfound, ?_⟩)
    rw [hrepository]
    exact reconcileEvidence_again hreconciled

/-- What a reconciliation may do: each leg is left as it was or marked for what
is there, nothing settled is touched, and a second one changes nothing. -/
def ReconcilesExactly (ground : ReconciliationGround) (evidence : Legs GitMutationEvidence)
    (temporary : Bool) : Prop :=
  ∀ after, reconcileCloseoutMutations ground evidence temporary = .ok after →
    (∀ leg, evidence.get leg = none → after.get leg = none) ∧
    (∀ leg cell, evidence.get leg = some cell → ∃ found, after.get leg = some found ∧
      Attributed (ground.repository cell.repository) (leg = .memory) temporary OnlyParent cell
        found ∧ (cell.state ≠ .mutationIntent → found = cell)) ∧
    reconcileCloseoutMutations ground after temporary = .ok after

/-- A merge that is taken is misattributed. -/
theorem misattributed_of_merge {leg : CloseoutMutationLeg} {cell : GitMutationEvidence}
    (hruns : ¬ReconciliationRefused ground evidence temporary) (hcell : evidence.get leg = some cell)
    (hmerge : MergeTaken (ground.repository cell.repository) (leg = .memory) temporary cell) :
    ¬ReconcilesExactly ground evidence temporary := by
  intro h
  obtain ⟨after, hafter⟩ := exists_reconciled hruns
  obtain ⟨-, hattributed, -⟩ := h after hafter
  obtain ⟨found, hfound, hkind, -⟩ := hattributed leg cell hcell
  obtain ⟨proven, hproven, hstate⟩ := reconcileEvidence_merge hmerge
  have hleg := (reconcileCloseoutMutations_eq_ok.mp hafter).2 leg
  rw [hcell, hfound] at hleg
  obtain ⟨hnone, -⟩ | ⟨_, _, heq, hfoundEq, hreconciled⟩ := reconcileLeg_eq_ok.mp hleg
  · cases hnone
  cases heq
  cases hfoundEq
  obtain rfl : proven = found := Except.ok.inj (hproven.symm.trans hreconciled)
  obtain ⟨before, actual, commit, other, rest, hexamined, hsnapshot, -, -, hcommit, -, hparents⟩ :=
    hmerge
  obtain rfl | ⟨-, ⟨_, -, -, hunchanged, -⟩ | ⟨before', actual', commit', hexamined', hsnapshot',
    -, -, -, hcommit', -, hlineage, -⟩⟩ := hkind
  · rw [hexamined.intent] at hstate
    cases hstate
  · rw [hunchanged] at hstate
    cases hstate
  · obtain rfl : before = before' :=
      Option.some.inj (hexamined.recorded.symm.trans hexamined'.recorded)
    obtain rfl : actual = actual' := Except.ok.inj (hsnapshot.symm.trans hsnapshot')
    obtain rfl : commit = commit' := Option.some.inj (hcommit.symm.trans hcommit')
    rw [OnlyParent, hparents] at hlineage
    simp at hlineage

/-- Crash reconciliation misattributes nothing exactly where no live head is a
merge of the expected tree over the recorded head. -/
theorem reconciles_exactly_iff (ground : ReconciliationGround)
    (evidence : Legs GitMutationEvidence) (temporary : Bool) :
    ReconcilesExactly ground evidence temporary ↔
      ReconciliationRefused ground evidence temporary ∨
        ∀ leg cell, evidence.get leg = some cell →
          ¬MergeTaken (ground.repository cell.repository) (leg = .memory) temporary cell := by
  constructor
  · intro h
    by_cases hrefused : ReconciliationRefused ground evidence temporary
    · exact .inl hrefused
    · exact .inr fun leg cell hcell hmerge => misattributed_of_merge hrefused hcell hmerge h
  · intro h after hafter
    have hlegs := (reconcileCloseoutMutations_eq_ok.mp hafter).2
    refine ⟨fun leg hnone => ?_, fun leg cell hcell => ?_, reconcile_again hafter⟩
    · obtain ⟨-, hafterNone⟩ | ⟨_, _, hsome, -⟩ := reconcileLeg_eq_ok.mp (hlegs leg)
      · exact hafterNone
      · rw [hnone] at hsome
        cases hsome
    obtain ⟨hnone, -⟩ | ⟨_, found, hsome, hfound, hreconciled⟩ := reconcileLeg_eq_ok.mp (hlegs leg)
    · rw [hcell] at hnone
      cases hnone
    cases hcell.symm.trans hsome
    refine ⟨found, hfound, ?_, fun hsettled => ?_⟩
    · obtain rfl | ⟨hattempt, hunchanged | hmarked⟩ := reconcileEvidence_attributed hreconciled
      · exact .inl rfl
      · exact .inr ⟨hattempt, .inl hunchanged⟩
      obtain ⟨before, actual, commit, hexamined, hsnapshot, href, hhead, hmoved, hcommit, hexpected,
        hfirst, hrest⟩ := hmarked
      have hnot : ¬MergeTaken (ground.repository cell.repository) (leg = .memory) temporary cell := by
        refine h.elim (fun hrefused => ?_) (fun hno => hno leg cell hcell)
        obtain hauthority | ⟨leg', cell', before', hcell', hexamined', hinvalid⟩ := hrefused
        · exact absurd (reconcileCloseoutMutations_eq_ok.mp hafter).1 hauthority
        · obtain ⟨hnone, -⟩ | ⟨_, _, hsome', -, hreconciled'⟩ :=
            reconcileLeg_eq_ok.mp (hlegs leg')
          · rw [hcell'] at hnone
            cases hnone
          cases hcell'.symm.trans hsome'
          rw [reconcileEvidence_invalid hexamined' hinvalid] at hreconciled'
          cases hreconciled'
      refine .inr ⟨hattempt, .inr ⟨before, actual, commit, hexamined, hsnapshot, href, hhead, hmoved,
        hcommit, hexpected, ?_, hrest⟩⟩
      cases hparents : commit.parents with
      | nil => rw [FirstParent, hparents] at hfirst; cases hfirst
      | cons first rest =>
        rw [FirstParent, hparents, List.head?_cons, Option.some.injEq] at hfirst
        cases rest with
        | nil => rw [OnlyParent, hfirst]
        | cons other rest =>
          exact absurd ⟨before, actual, commit, other, rest, hexamined, hsnapshot, href, hmoved,
            hcommit, hexpected, by rw [hparents, hfirst]⟩ hnot
    · rw [reconcileEvidence_settled hsettled] at hreconciled
      exact (Except.ok.inj hreconciled).symm

end record

/-- A crash after `git merge -s ours --no-ff other`: the head is a merge of the
tree that the leg was to commit. -/
def mergedRepository : LiveRepository where
  head := .onBranch "refs/heads/topic"
  refs ref := if ref = "refs/heads/topic" then some "merge" else none
  commits commit := if commit = "merge" then some ⟨"tree", ["base", "other"]⟩ else none
  refLog _ := some "log"
  contentTree _ := none
  index _ := ⟨some "status", some "tree", some "tree"⟩

/-- An intent whose commit may have run. -/
def mergedIntent : GitMutationEvidence where
  leg := .code
  repository := "/repo"
  state := .mutationIntent
  before := some ⟨"refs/heads/topic", "base", "old", none, "log", "tree", "tree", "status"⟩
  expectedOutputTree := some "tree"
  evidence := by decide

theorem reconcile_proves_merge :
    ¬ReconcilesExactly ⟨.ok ⟨some "/repo", none⟩, id, fun _ => mergedRepository⟩
      ⟨some mergedIntent, none⟩ false := by
  have hsnapshot : gitMutationSnapshot mergedRepository false false =
      .ok ⟨"refs/heads/topic", "merge", "tree", none, "log", "tree", "tree", "status"⟩ := rfl
  have hmerge : MergeTaken mergedRepository false false mergedIntent :=
    ⟨_, _, ⟨"tree", ["base", "other"]⟩, "other", [], ⟨rfl, rfl, rfl⟩, hsnapshot, rfl, by decide, rfl,
      rfl, rfl⟩
  have hcell : Legs.get ⟨some mergedIntent, none⟩ .code = some mergedIntent := rfl
  refine misattributed_of_merge ?_ hcell hmerge
  intro hrefused
  obtain hauthority | ⟨leg, cell, before, hsome, -, hinvalid⟩ := hrefused
  · exact hauthority rfl
  cases leg with
  | code => cases hsnapshot.symm.trans hinvalid
  | memory => cases hsome

end AgentsRemember.Lifecycle
