import AgentsRemember.Routing.Owners

/-!
# Routing — Rerouting

The derivations together. A signal is routed from the sender's live row, its
pending row from what was stamped on it; both come to the same seat, and who
reads the catalog in which order, or who spawned whom, plays no part
(`signal_routed_one_hop_up`).

A decision item goes to the sprint's architect, however far up that is.
-/

namespace AgentsRemember.Routing

open Inbox (AgentRole TaskDocumentRef InboxMessageKind OperatorInboxEntry InboxMessage InboxPoster
  InboxRouting createOperatorInboxEntry)

/-! ## Seat first, occupant second -/

/-- The stamped parent of a row. -/
def SeatRow.structuralParent (row : SeatRow) : Option TaskDocumentRef × Option String :=
  (row.structuralParentTaskDocumentRef, row.structuralParentRole)

section signal
variable {catalog : SeatCatalog} {hierarchy : TaskHierarchy} {senderAgentId : Option String}
  {messageKind : InboxMessageKind} {taskDocumentRef : Option TaskDocumentRef}
  {document : TaskDocumentRef} {sender : SeatRow}

theorem deriveSignalOwner_eq
    (hdocument : signalTaskDocumentRef catalog senderAgentId taskDocumentRef = some document)
    (hsender : senderAgentId.bind catalog.get = some sender)
    (hkind : messageKind ≠ .decisionItem) :
    deriveSignalOwner catalog hierarchy senderAgentId messageKind taskDocumentRef =
      (seatOneUp hierarchy document sender.bindingRole sender.structuralParent).bind
        (occupantOf catalog) := by
  rw [deriveSignalOwner, hdocument]
  dsimp only
  rw [if_neg hkind, hsender]
  dsimp only
  rw [structuralParentOwner_eq]
  show ((seatOneUp hierarchy document sender.bindingRole sender.structuralParent).bind _ >>= _) = _
  cases seatOneUp hierarchy document sender.bindingRole sender.structuralParent with
  | error e => rfl
  | ok seat =>
    cases seat with
    | none => rfl
    | some seat =>
      show (some <$> currentOccupant catalog seat.1 seat.2 >>= _) = currentOccupant catalog _ _
      cases currentOccupant catalog seat.1 seat.2 <;> rfl

theorem deriveSignalOwner_decisionItem
    (hdocument : signalTaskDocumentRef catalog senderAgentId taskDocumentRef = some document) :
    deriveSignalOwner catalog hierarchy senderAgentId .decisionItem taskDocumentRef =
      (sprintDocument hierarchy document).bind fun sprint =>
        currentOccupant catalog sprint .architect := by
  rw [deriveSignalOwner, hdocument]
  rfl

theorem bind_ok_iff {ε α β : Type} {x : Except ε α} {f : α → Except ε β} {b : β} :
    x.bind f = .ok b ↔ ∃ a, x = .ok a ∧ f a = .ok b := by
  cases x with
  | error e =>
    constructor
    · intro h
      cases h
    · rintro ⟨a, ha, -⟩
      cases ha
  | ok a => simp [Except.bind]

/-- The seats one hop up, with who holds them. -/
theorem bind_seatOneUp_iff {role : String} {stamp : Option TaskDocumentRef × Option String}
    {owner : RoutedOwner} :
    (seatOneUp hierarchy document role stamp).bind (occupantOf catalog) = .ok owner ↔
      (role ∉ routedRoles ∧ owner = {}) ∨
        ∃ seat, SeatAbove hierarchy document role stamp seat ∧ IsOwner catalog seat owner := by
  rw [bind_ok_iff]
  constructor
  · rintro ⟨seat, hseat, howner⟩
    cases seat with
    | none =>
      cases howner
      exact .inl ⟨seatOneUp_none_iff.mp hseat, rfl⟩
    | some seat => exact .inr ⟨seat, seatOneUp_some_iff.mp hseat, currentOccupant_ok_iff.mp howner⟩
  · rintro (⟨hrole, rfl⟩ | ⟨seat, hseat, howner⟩)
    · exact ⟨none, seatOneUp_none_iff.mpr hrole, rfl⟩
    · exact ⟨some seat, seatOneUp_some_iff.mpr hseat, currentOccupant_ok_iff.mpr howner⟩

end signal

/-! ## The row's seat -/

/-- The seat stamped on a row. -/
def stampedSeat (entry : OperatorInboxEntry) : Option Seat :=
  match entry.ownerRole, entry.ownerTaskDocumentRef with
  | some role, some document => some (document, role)
  | _, _ => none

/-- The seat a pending row names. -/
def rowSeat (hierarchy : TaskHierarchy) (entry : OperatorInboxEntry) :
    Except RoutingError (Option Seat) :=
  if entry.messageKind = .dispatchBrief then .ok none
  else match entry.subjectTaskDocumentRef, stampedRole entry with
    | some document, some role =>
      if role = "reviewer" ∧ entry.ownerTaskDocumentRef ≠ none then .ok (stampedSeat entry)
      else (seatOneUp hierarchy document role (none, none)).map fun seat =>
        seat.or (stampedSeat entry)
    | _, _ => .ok (stampedSeat entry)

theorem ownerForStampedSeat_eq (catalog : SeatCatalog) (entry : OperatorInboxEntry) :
    ownerForStampedSeat catalog entry = occupantOf catalog (stampedSeat entry) := by
  unfold ownerForStampedSeat stampedSeat
  cases entry.ownerRole <;> cases entry.ownerTaskDocumentRef <;> rfl

theorem deriveRowOwner_eq (catalog : SeatCatalog) (hierarchy : TaskHierarchy)
    (entry : OperatorInboxEntry) :
    deriveRowOwner catalog hierarchy entry =
      (rowSeat hierarchy entry).bind (occupantOf catalog) := by
  unfold deriveRowOwner rowSeat
  simp only [ownerForStampedSeat_eq]
  split
  · rfl
  cases entry.subjectTaskDocumentRef with
  | none => rfl
  | some document =>
    cases stampedRole entry with
    | none => rfl
    | some role =>
      dsimp only
      split
      · rfl
      rw [structuralParentOwner_eq]
      cases seatOneUp hierarchy document role (none, none) with
      | error e => rfl
      | ok seat =>
        cases seat with
        | none => rfl
        | some seat =>
          show (some <$> currentOccupant catalog seat.1 seat.2 >>= _) =
            currentOccupant catalog seat.1 seat.2
          cases currentOccupant catalog seat.1 seat.2 <;> rfl

/-- A pending row as the plane stamps it: with the subject's document and role,
and with the owner it was first routed to. -/
structure Stamped (entry : OperatorInboxEntry) (messageKind : InboxMessageKind)
    (document : TaskDocumentRef) (role : String) (owner : RoutedOwner) : Prop where
  messageKind : entry.messageKind = messageKind
  subject : entry.subjectTaskDocumentRef = some document
  role : stampedRole entry = some role
  ownerRole : entry.ownerRole = owner.role
  ownerTaskDocumentRef : entry.ownerTaskDocumentRef = owner.taskDocumentRef

/-- Both ways of posting stamp a row: a message carries the sender's role as
`senderRole`, a notifier's signal as the subject's `seatRole`. -/
theorem stamped_of_create {message : InboxMessage} {entryId now : String} {routing : InboxRouting}
    {poster : InboxPoster} {entry : OperatorInboxEntry} {document : TaskDocumentRef}
    {role : String} {owner : RoutedOwner}
    (h : createOperatorInboxEntry message entryId now routing poster = .ok entry)
    (hsubject : message.subject.taskDocumentRef = some document)
    (hrole : (message.subject.seatRole = some role ∧ role ≠ "") ∨
      message.subject.seatRole = none ∧ poster.senderRole.map roleText = some role)
    (howner : routing.owner.role = owner.role ∧
      routing.owner.taskDocumentRef = owner.taskDocumentRef) :
    Stamped entry message.messageKind document role owner := by
  unfold createOperatorInboxEntry at h
  dsimp only at h
  cases hrequire : Inbox.requireInboxAddress routing.address with
  | error e =>
    rw [hrequire] at h
    cases h
  | ok u =>
    rw [hrequire] at h
    cases h
    refine ⟨rfl, hsubject, ?_, howner.1, howner.2⟩
    rcases hrole with ⟨hseat, hne⟩ | ⟨hseat, hsender⟩
    · simp only [stampedRole, hseat]
    · simp only [stampedRole, hseat, hsender]

/-- A reviewer's owner is never the empty one, so its stamp has a document. -/
theorem rowSeat_stamped {hierarchy : TaskHierarchy} {entry : OperatorInboxEntry}
    {messageKind : InboxMessageKind} {document : TaskDocumentRef} {role : String}
    {stamp : Option TaskDocumentRef × Option String} {owner : RoutedOwner} {seat : Option Seat}
    (h : Stamped entry messageKind document role owner) (hkind : messageKind ≠ .dispatchBrief)
    (hseat : seatOneUp hierarchy document role stamp = .ok seat)
    (howner : owner.address = (seat.map Prod.fst, seat.map Prod.snd)) :
    rowSeat hierarchy entry = .ok seat := by
  have hdocument : owner.taskDocumentRef = seat.map Prod.fst := congrArg Prod.fst howner
  have hownerRole : owner.role = seat.map Prod.snd := congrArg Prod.snd howner
  have hstamped : stampedSeat entry = seat := by
    rw [stampedSeat, h.ownerRole, h.ownerTaskDocumentRef, hdocument, hownerRole]
    cases seat <;> rfl
  unfold rowSeat
  rw [if_neg (by rw [h.messageKind]; exact hkind), h.subject, h.role]
  dsimp only
  by_cases hreviewer : role = "reviewer"
  · cases seat with
    | none =>
      have hrouted := seatOneUp_none_iff.mp hseat
      exact absurd (by rw [hreviewer]; decide) hrouted
    | some seat =>
      rw [if_pos, hstamped]
      refine ⟨hreviewer, ?_⟩
      rw [h.ownerTaskDocumentRef, hdocument]
      simp
  · have hunstamped : seatOneUp hierarchy document role (none, none) = .ok seat := by
      rw [← hseat]
      simp only [seatOneUp, if_neg hreviewer]
    rw [if_neg (fun hboth => hreviewer hboth.1), hunstamped, hstamped]
    show Except.ok (seat.or seat) = Except.ok seat
    cases seat <;> rfl

/-! ## What routing reads of the catalog -/

/-- All that routing reads of a sender's row. -/
def SeatRow.bound (row : SeatRow) :
    String × Option TaskDocumentRef × (Option TaskDocumentRef × Option String) :=
  (row.bindingRole, row.bindingTaskDocumentRef, row.structuralParent)

/-- Two catalogs that routing cannot tell apart. -/
structure Indistinct (catalog other : SeatCatalog) : Prop where
  bound : ∀ id, (catalog.get id).map SeatRow.bound = (other.get id).map SeatRow.bound
  occupant : ∀ document role,
    currentOccupant catalog document role = currentOccupant other document role

theorem Indistinct.structuralParentOwner {catalog other : SeatCatalog}
    (h : Indistinct catalog other) (hierarchy : TaskHierarchy) (document : TaskDocumentRef)
    (role : String) (stamp : Option TaskDocumentRef × Option String) :
    structuralParentOwner catalog hierarchy document role stamp =
      structuralParentOwner other hierarchy document role stamp := by
  rw [structuralParentOwner_eq, structuralParentOwner_eq]
  simp only [h.occupant]

theorem Indistinct.deriveSignalOwner {catalog other : SeatCatalog} (h : Indistinct catalog other)
    (hierarchy : TaskHierarchy) (senderAgentId : Option String) (messageKind : InboxMessageKind)
    (taskDocumentRef : Option TaskDocumentRef) :
    deriveSignalOwner catalog hierarchy senderAgentId messageKind taskDocumentRef =
      deriveSignalOwner other hierarchy senderAgentId messageKind taskDocumentRef := by
  have hbound : (senderAgentId.bind catalog.get).map SeatRow.bound =
      (senderAgentId.bind other.get).map SeatRow.bound := by
    cases senderAgentId with
    | none => rfl
    | some id => exact h.bound id
  have hdocument : signalTaskDocumentRef catalog senderAgentId taskDocumentRef =
      signalTaskDocumentRef other senderAgentId taskDocumentRef := by
    have hof : ∀ row : Option SeatRow, row.bind SeatRow.bindingTaskDocumentRef =
        (row.map SeatRow.bound).bind fun bound => bound.2.1 := by
      intro row
      cases row <;> rfl
    rw [signalTaskDocumentRef, signalTaskDocumentRef, hof, hof, hbound]
  unfold Routing.deriveSignalOwner
  rw [hdocument]
  cases signalTaskDocumentRef other senderAgentId taskDocumentRef with
  | none => rfl
  | some document =>
    dsimp only
    split
    · simp only [deriveArchitectOwner, h.occupant]
    · cases hsender : senderAgentId.bind catalog.get with
      | none =>
        rw [hsender] at hbound
        rw [Option.map_eq_none_iff.mp hbound.symm]
      | some sender =>
        rw [hsender] at hbound
        obtain ⟨same, hsame, hsameBound⟩ := Option.map_eq_some_iff.mp hbound.symm
        rw [hsame]
        simp only [SeatRow.bound, SeatRow.structuralParent, Prod.mk.injEq] at hsameBound
        obtain ⟨hrole, -, hparent, hparentRole⟩ := hsameBound
        simp only [hrole, hparent, hparentRole, h.structuralParentOwner]

/-- A row is found by its id. -/
theorem SeatCatalog.get_eq_some_iff {catalog : SeatCatalog} {id : String} {row : SeatRow} :
    catalog.get id = some row ↔ row ∈ catalog.rows ∧ row.id = id := by
  unfold SeatCatalog.get
  constructor
  · intro h
    exact ⟨List.mem_of_find?_eq_some h, by simpa using List.find?_some h⟩
  · rintro ⟨hmem, rfl⟩
    cases hfound : catalog.rows.find? fun other => other.id == row.id with
    | none => exact absurd (List.find?_eq_none.mp hfound row hmem) (by simp)
    | some found =>
      have hid : found.id = row.id := by simpa using List.find?_some hfound
      rw [List.inj_on_of_nodup_map catalog.ids_nodup (List.mem_of_find?_eq_some hfound) hmem hid]

theorem oneClaimant_perm {claimants other : List SeatRow} (h : claimants.Perm other)
    (ambiguity : String) : oneClaimant claimants ambiguity = oneClaimant other ambiguity := by
  unfold oneClaimant
  rw [h.length_eq]
  split
  · rfl
  · rename_i hone
    match other, hone with
    | [], _ => rw [List.perm_nil.mp h]
    | [_], _ => rw [List.perm_singleton.mp h]
    | _ :: _ :: _, hone => simp at hone

theorem Indistinct.of_reorders {catalog other : SeatCatalog} (h : catalog.Reorders other) :
    Indistinct catalog other where
  bound := by
    intro id
    have hget : catalog.get id = other.get id := by
      apply Option.ext
      intro row
      rw [SeatCatalog.get_eq_some_iff, SeatCatalog.get_eq_some_iff, h.mem_iff]
    rw [hget]
  occupant := by
    intro document role
    have hclaimants : ∀ replacement,
        (seatClaimants catalog.list document (roleText role) replacement).Perm
          (seatClaimants other.list document (roleText role) replacement) :=
      fun _ => (h.filter _).filter _
    simp only [currentOccupant, currentSeatOccupant, oneClaimant_perm (hclaimants _)]

/-- Rows changed where neither status nor binding is. -/
theorem currentSeatOccupant_map {change : SeatRow → SeatRow}
    (hchange : ∀ row, (change row).status = row.status ∧
      (change row).bindingRole = row.bindingRole ∧
      (change row).taskDocumentRef = row.taskDocumentRef ∧
      (change row).replacementForTaskDocumentRef = row.replacementForTaskDocumentRef)
    (rows : List SeatRow) (document : TaskDocumentRef) (role : String) :
    currentSeatOccupant (rows.map change) document role =
      (currentSeatOccupant rows document role).map (Option.map change) := by
  have hclaimants : ∀ replacement, seatClaimants (rows.map change) document role replacement =
      (seatClaimants rows document role replacement).map change := by
    intro replacement
    unfold seatClaimants
    rw [List.filter_map]
    congr 2
    funext row
    obtain ⟨hstatus, hrole, hdocument, hreplacement⟩ := hchange row
    simp only [Function.comp_apply, hstatus, hrole, hdocument, hreplacement]
  have hone : ∀ (claimants : List SeatRow) (ambiguity : String),
      oneClaimant (claimants.map change) ambiguity =
        (oneClaimant claimants ambiguity).map (Option.map change) := by
    intro claimants ambiguity
    unfold oneClaimant
    rw [List.length_map, List.head?_map]
    split <;> rfl
  unfold currentSeatOccupant
  rw [hclaimants, hclaimants, hone, hone]
  cases oneClaimant (seatClaimants rows document role false) _ with
  | error e => rfl
  | ok primary =>
    cases oneClaimant (seatClaimants rows document role true) _ with
    | error e => rfl
    | ok replacement => cases primary <;> rfl

theorem Indistinct.of_respawned (catalog : SeatCatalog)
    (ancestry : String → Option String × Option String) :
    Indistinct (catalog.respawned ancestry) catalog where
  bound := by
    intro id
    unfold SeatCatalog.get SeatCatalog.respawned
    rw [List.find?_map, Option.map_map]
    rfl
  occupant := by
    intro document role
    have hlist : (catalog.respawned ancestry).list = catalog.list.map fun row =>
        row.respawned (ancestry row.id).1 (ancestry row.id).2 := by
      unfold SeatCatalog.list SeatCatalog.respawned
      rw [List.filter_map]
      rfl
    unfold currentOccupant
    rw [hlist, @currentSeatOccupant_map (fun row =>
      row.respawned (ancestry row.id).1 (ancestry row.id).2) fun row => ⟨rfl, rfl, rfl, rfl⟩]
    cases currentSeatOccupant catalog.list document (roleText role) with
    | error e => rfl
    | ok occupant => cases occupant <;> rfl

/-! ## One hop up -/

/-- **A signal goes one hop up, or it is refused.** Its owner is the seat above
the sender's document and role, the sprint's architect for a decision item; the
agent is that seat's one occupant; a contested seat is an error; and a pending
row is routed to the same seat again, whatever became of the catalog. -/
theorem signal_routed_one_hop_up (hierarchy : TaskHierarchy) (catalog : SeatCatalog)
    (senderAgentId : Option String) (messageKind : InboxMessageKind)
    (taskDocumentRef : Option TaskDocumentRef) :
    (∀ document sender,
      signalTaskDocumentRef catalog senderAgentId taskDocumentRef = some document →
      senderAgentId.bind catalog.get = some sender → messageKind ≠ .decisionItem →
      (∀ owner, deriveSignalOwner catalog hierarchy senderAgentId messageKind taskDocumentRef
          = .ok owner ↔
        (sender.bindingRole ∉ routedRoles ∧ owner = {}) ∨
          ∃ seat, SeatAbove hierarchy document sender.bindingRole sender.structuralParent seat ∧
            IsOwner catalog seat owner) ∧
      (∀ seat, SeatAbove hierarchy document sender.bindingRole sender.structuralParent seat →
        Contested catalog seat → ∃ message,
          deriveSignalOwner catalog hierarchy senderAgentId messageKind taskDocumentRef
            = .error (.structural message)) ∧
      ∀ owner entry other, deriveSignalOwner catalog hierarchy senderAgentId messageKind
          taskDocumentRef = .ok owner →
        Stamped entry messageKind document sender.bindingRole owner →
        messageKind ≠ .dispatchBrief →
        (∀ again, deriveRowOwner other hierarchy entry = .ok again →
          again.address = owner.address) ∧
        ((∃ error, deriveRowOwner other hierarchy entry = .error error) ↔
          ∃ seat, owner.address = (some seat.1, some seat.2) ∧ Contested other seat)) ∧
    (∀ document, signalTaskDocumentRef catalog senderAgentId taskDocumentRef = some document →
      messageKind = .decisionItem →
      (∀ owner, deriveSignalOwner catalog hierarchy senderAgentId messageKind taskDocumentRef
          = .ok owner ↔
        ∃ sprint, SprintOf hierarchy document sprint ∧
          IsOwner catalog (sprint, .architect) owner) ∧
      ∀ sprint, SprintOf hierarchy document sprint → Contested catalog (sprint, .architect) →
        ∃ message, deriveSignalOwner catalog hierarchy senderAgentId messageKind taskDocumentRef
          = .error (.structural message)) ∧
    ((signalTaskDocumentRef catalog senderAgentId taskDocumentRef = none ∨
        messageKind ≠ .decisionItem ∧ senderAgentId.bind catalog.get = none) →
      deriveSignalOwner catalog hierarchy senderAgentId messageKind taskDocumentRef = .ok {}) ∧
    (∀ other, catalog.Reorders other →
      deriveSignalOwner other hierarchy senderAgentId messageKind taskDocumentRef =
        deriveSignalOwner catalog hierarchy senderAgentId messageKind taskDocumentRef) ∧
    (∀ ancestry,
      deriveSignalOwner (catalog.respawned ancestry) hierarchy senderAgentId messageKind
          taskDocumentRef =
        deriveSignalOwner catalog hierarchy senderAgentId messageKind taskDocumentRef) ∧
    ∀ entry other owner again, deriveRowOwner catalog hierarchy entry = .ok owner →
      deriveRowOwner other hierarchy entry = .ok again → again.address = owner.address := by
  refine ⟨?_, ?_, ?_, ?_, ?_, ?_⟩
  · intro document sender hdocument hsender hkind
    rw [deriveSignalOwner_eq hdocument hsender hkind]
    refine ⟨fun owner => bind_seatOneUp_iff, ?_, ?_⟩
    · intro seat habove hcontested
      obtain ⟨message, hmessage⟩ := currentOccupant_contested hcontested
      rw [seatOneUp_some_iff.mpr habove]
      exact ⟨message, hmessage⟩
    · -- the stamp names the seat, and a seat has one address whoever holds it
      intro owner entry other howner hstamped hbrief
      obtain ⟨seat, hseat, hholds⟩ := bind_ok_iff.mp howner
      have haddress := occupantOf_address hholds
      have hrow : deriveRowOwner other hierarchy entry = occupantOf other seat := by
        rw [deriveRowOwner_eq, rowSeat_stamped hstamped hbrief hseat haddress]
        rfl
      rw [hrow, haddress]
      refine ⟨fun again hagain => occupantOf_address hagain, ?_⟩
      cases seat with
      | none =>
        constructor
        · rintro ⟨error, herror⟩
          cases herror
        · rintro ⟨seat, hseat, -⟩
          cases hseat
      | some seat =>
        constructor
        · rintro ⟨error, herror⟩
          refine ⟨seat, rfl, ?_⟩
          -- only contention fails an occupied or an empty seat
          by_contra hfree
          obtain ⟨occupant, hoccupant, -⟩ := currentSeatOccupant_uncontested hfree
          rw [occupantOf, currentOccupant, hoccupant] at herror
          cases occupant <;> cases herror
        · rintro ⟨same, hsame, hcontested⟩
          simp only [Option.map_some, Prod.mk.injEq, Option.some.injEq] at hsame
          rw [← Prod.ext hsame.1 hsame.2] at hcontested
          obtain ⟨message, hmessage⟩ := currentOccupant_contested hcontested
          exact ⟨_, hmessage⟩
  · rintro document hdocument rfl
    rw [deriveSignalOwner_decisionItem hdocument]
    constructor
    · intro owner
      rw [bind_ok_iff]
      constructor
      · rintro ⟨sprint, hsprint, howner⟩
        exact ⟨sprint, sprintDocument_ok_iff.mp hsprint,
          (@currentOccupant_ok_iff _ (sprint, .architect) _).mp howner⟩
      · rintro ⟨sprint, hsprint, howner⟩
        exact ⟨sprint, sprintDocument_ok_iff.mpr hsprint,
          (@currentOccupant_ok_iff _ (sprint, .architect) _).mpr howner⟩
    · intro sprint hsprint hcontested
      obtain ⟨message, hmessage⟩ := currentOccupant_contested hcontested
      rw [sprintDocument_ok_iff.mpr hsprint]
      exact ⟨message, hmessage⟩
  · intro hunrouted
    unfold deriveSignalOwner
    rcases hunrouted with hdocument | ⟨hkind, hsender⟩
    · rw [hdocument]
    · cases signalTaskDocumentRef catalog senderAgentId taskDocumentRef with
      | none => rfl
      | some document =>
        dsimp only
        rw [if_neg hkind, hsender]
  · intro other hreorders
    exact ((Indistinct.of_reorders hreorders).deriveSignalOwner hierarchy _ _ _).symm
  · intro ancestry
    exact (Indistinct.of_respawned catalog ancestry).deriveSignalOwner hierarchy _ _ _
  · intro entry other owner again howner hagain
    -- the seat is found without the catalog, so both derivations find one seat
    rw [deriveRowOwner_eq] at howner hagain
    obtain ⟨seat, hseat, hholds⟩ := bind_ok_iff.mp howner
    obtain ⟨same, hsame, hnow⟩ := bind_ok_iff.mp hagain
    rw [hseat] at hsame
    cases hsame
    rw [occupantOf_address hnow, occupantOf_address hholds]

/-! ## A sprint, its master and a leaf -/

/-- A sprint. -/
def sprintTask : TaskDocumentRef := ⟨"repo", "sprint/task.json"⟩

/-- Its master. -/
def masterTask : TaskDocumentRef := ⟨"repo", "sprint/master/task.json"⟩

/-- Its leaf. -/
def leafTask : TaskDocumentRef := ⟨"repo", "sprint/master/leaf.json"⟩

/-- The three documents, one above the other. -/
def threeLevels : TaskHierarchy where
  documents := [sprintTask, masterTask, leafTask]
  parent := fun document =>
    if document = leafTask then .ok (some masterTask)
    else if document = masterTask then .ok (some sprintTask)
    else .ok none
  altitude := fun document =>
    .ok (if document = leafTask then .leaf else if document = masterTask then .master else .sprint)
  parent_mem := by
    intro document p h
    split at h
    · cases h
      simp
    split at h
    · cases h
      simp
    · cases h

/-- A seat of every kind, each occupied. -/
def staffed : SeatCatalog where
  rows :=
    [{ id := "w", status := .running, bindingRole := "worker", taskDocumentRef := some leafTask },
     { id := "m", status := .running, bindingRole := "manager", taskDocumentRef := some masterTask },
     { id := "a", status := .running, bindingRole := "architect",
       taskDocumentRef := some sprintTask }]
  ids_nodup := by decide

/-- The worker's report goes to the manager, who is there. -/
theorem worker_report_goes_one_hop :
    ∃ seat, SeatAbove threeLevels leafTask "worker" (none, none) seat ∧
      IsOwner staffed seat
        { role := some .manager, taskDocumentRef := some masterTask, agentId := some "m" } := by
  have hrouted := (signal_routed_one_hop_up threeLevels staffed (some "w") .turnReport none).1
    leafTask _ rfl rfl (by decide)
  have hrun : deriveSignalOwner staffed threeLevels (some "w") .turnReport none = .ok
      { role := some .manager, taskDocumentRef := some masterTask, agentId := some "m" } := rfl
  rcases (hrouted.1 _).mp hrun with ⟨hrole, -⟩ | hseat
  · exact absurd (by decide) hrole
  · exact hseat

/-- The worker's decision item passes the manager by. -/
theorem decision_item_goes_two_hops :
    deriveSignalOwner staffed threeLevels (some "w") .decisionItem none = .ok
        { role := some .architect, taskDocumentRef := some sprintTask, agentId := some "a" } ∧
      SeatAbove threeLevels leafTask "worker" (none, none) (masterTask, .manager) ∧
      ¬∃ stamp, SeatAbove threeLevels leafTask "worker" stamp (sprintTask, .architect) := by
  refine ⟨rfl, .worker rfl, ?_⟩
  rintro ⟨stamp, habove⟩
  have hseat := seatOneUp_some_iff.mpr habove
  rw [seatOneUp_some_iff.mpr (.worker rfl : SeatAbove threeLevels leafTask "worker" stamp
    (masterTask, .manager))] at hseat
  have hrole := congrArg Prod.snd (Option.some.inj (Except.ok.inj hseat))
  cases hrole

end AgentsRemember.Routing
