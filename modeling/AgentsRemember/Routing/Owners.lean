import AgentsRemember.Routing.Signals

/-!
# Routing — Owners

Every derivation of an owner first finds a seat, from the hierarchy alone, and
then who holds it now, from the catalog alone (`deriveSignalOwner_eq`,
`deriveRowOwner_eq`). That a signal goes one hop up is about the first half,
that ambiguity is refused about the second; and since the seat of a pending row
comes from its stamp, a replacement of seats cannot move it.
-/

namespace AgentsRemember.Routing

open Inbox (AgentRole TaskDocumentRef InboxMessageKind OperatorInboxEntry)

/-! ## What is above what -/

/-- The seat one structural level above a role on a document. A reviewer's
stamp is honoured where the altitude of its document allows it. -/
inductive SeatAbove (hierarchy : TaskHierarchy) (document : TaskDocumentRef) :
    String → Option TaskDocumentRef × Option String → Seat → Prop
  | worker {stamp master} (hparent : hierarchy.parent document = .ok (some master)) :
    SeatAbove hierarchy document "worker" stamp (master, .manager)
  | curator {stamp master} (hparent : hierarchy.parent document = .ok (some master)) :
    SeatAbove hierarchy document "curator" stamp (master, .manager)
  | manager {stamp sprint} (hparent : hierarchy.parent document = .ok (some sprint)) :
    SeatAbove hierarchy document "manager" stamp (sprint, .orchestrator)
  | orchestrator {stamp} : SeatAbove hierarchy document "orchestrator" stamp (document, .architect)
  | strategist {stamp} : SeatAbove hierarchy document "strategist" stamp (document, .architect)
  | designer {stamp} : SeatAbove hierarchy document "designer" stamp (document, .architect)
  | specialist {stamp} :
    SeatAbove hierarchy document "system-specialist" stamp (document, .orchestrator)
  | leafReviewer {stamp master} (haltitude : hierarchy.altitude document = .ok .leaf)
      (hparent : hierarchy.parent document = .ok (some master))
      (hstamp : stamp = (none, none) ∨ stamp = (some master, some "manager")) :
    SeatAbove hierarchy document "reviewer" stamp (master, .manager)
  | masterReviewer (haltitude : hierarchy.altitude document = .ok .master) :
    SeatAbove hierarchy document "reviewer" (some document, some "manager") (document, .manager)
  | planReviewer (haltitude : hierarchy.altitude document = .ok .sprint) :
    SeatAbove hierarchy document "reviewer" (some document, some "architect")
      (document, .architect)
  | superReviewer (haltitude : hierarchy.altitude document = .ok .sprint) :
    SeatAbove hierarchy document "reviewer" (some document, some "orchestrator")
      (document, .orchestrator)

/-- The roles that have a seat above them. -/
def routedRoles : List String :=
  ["worker", "curator", "reviewer", "manager", "orchestrator", "strategist", "designer",
    "system-specialist"]

/-- The sprint a document is contained in. -/
structure SprintOf (hierarchy : TaskHierarchy) (document sprint : TaskDocumentRef) : Prop where
  contained : Relation.ReflTransGen
    (fun document parent => hierarchy.parent document = .ok (some parent)) document sprint
  top : hierarchy.parent sprint = .ok none

/-- The owner names the seat, and the agent that occupies it, if one does. -/
structure IsOwner (catalog : SeatCatalog) (seat : Seat) (owner : RoutedOwner) : Prop where
  uncontested : ¬Contested catalog seat
  role : owner.role = some seat.2
  taskDocumentRef : owner.taskDocumentRef = some seat.1
  held : ∀ row, Occupies catalog seat row →
    owner.agentId = some row.id ∧ owner.lifecycleId = row.lifecycleId
  vacant : (∀ row, ¬Occupies catalog seat row) → owner.agentId = none ∧ owner.lifecycleId = none

/-- Where the owner is addressed. -/
def RoutedOwner.address (owner : RoutedOwner) : Option TaskDocumentRef × Option AgentRole :=
  (owner.taskDocumentRef, owner.role)

/-! ## Who holds the seat now -/

section occupant
variable {catalog : SeatCatalog} {seat : Seat}

theorem currentOccupant_contested (h : Contested catalog seat) :
    ∃ message, currentOccupant catalog seat.1 seat.2 = .error (.structural message) := by
  obtain ⟨ambiguity, hambiguity⟩ := currentSeatOccupant_contested h
  exact ⟨ambiguity, by rw [currentOccupant, hambiguity]⟩

theorem currentOccupant_ok_iff {owner : RoutedOwner} :
    currentOccupant catalog seat.1 seat.2 = .ok owner ↔ IsOwner catalog seat owner := by
  by_cases hcontested : Contested catalog seat
  · obtain ⟨message, hmessage⟩ := currentOccupant_contested hcontested
    rw [hmessage]
    constructor
    · intro h
      cases h
    · exact fun h => absurd hcontested h.uncontested
  · obtain ⟨occupant, hoccupant, hheld⟩ := currentSeatOccupant_uncontested hcontested
    rw [currentOccupant, hoccupant]
    cases occupant with
    | none =>
      have hvacant : ∀ row, ¬Occupies catalog seat row := by
        intro row hrow
        have := (hheld row).mpr hrow
        cases this
      constructor
      · intro h
        cases h
        exact ⟨hcontested, rfl, rfl, fun row hrow => absurd hrow (hvacant row), fun _ => ⟨rfl, rfl⟩⟩
      · rintro ⟨-, hrole, hdocument, -, hnone⟩
        obtain ⟨hagent, hlifecycle⟩ := hnone hvacant
        cases owner
        simp_all
    | some occupant =>
      have hoccupies := (hheld occupant).mp rfl
      constructor
      · intro h
        cases h
        refine ⟨hcontested, rfl, rfl, fun row hrow => ?_, fun hnone => absurd hoccupies (hnone _)⟩
        cases (hheld row).mpr hrow
        exact ⟨rfl, rfl⟩
      · rintro ⟨-, hrole, hdocument, hsome, -⟩
        obtain ⟨hagent, hlifecycle⟩ := hsome occupant hoccupies
        cases owner
        simp_all

/-- The occupant of a seat, where there is a seat to occupy. -/
def occupantOf (catalog : SeatCatalog) : Option Seat → Except RoutingError RoutedOwner
  | none => .ok {}
  | some seat => currentOccupant catalog seat.1 seat.2

theorem occupantOf_address {seat? : Option Seat} {owner : RoutedOwner}
    (h : occupantOf catalog seat? = .ok owner) :
    owner.address = (seat?.map Prod.fst, seat?.map Prod.snd) := by
  cases seat? with
  | none =>
    cases h
    rfl
  | some seat =>
    have howner := currentOccupant_ok_iff.mp h
    simp [RoutedOwner.address, howner.role, howner.taskDocumentRef]

end occupant

/-! ## Which seat it is -/

/-- The seat one hop up; none where no role is above. -/
def seatOneUp (hierarchy : TaskHierarchy) (document : TaskDocumentRef) (role : String)
    (stamp : Option TaskDocumentRef × Option String) : Except RoutingError (Option Seat) :=
  if role ∈ ["worker", "curator"] then
    (requiredParent hierarchy document).map fun master => some (master, .manager)
  else if role = "reviewer" then
    match stamp with
    | (some parentDocument, some parentRole) =>
      (validateReviewerParent hierarchy document parentDocument parentRole).map some
    -- without a stamp only a leaf says who is above its reviewer
    | (none, none) => do
      match ← hierarchy.altitude document with
      | .leaf => (requiredParent hierarchy document).map fun master => some (master, .manager)
      | altitude => throw (.structural
        s!"{altitude.text} reviewer {documentKey document} has no plane-stamped structural parent")
    | _ => .error (.structural
        s!"reviewer {documentKey document} has an incomplete structural parent address")
  else if role = "manager" then
    (requiredParent hierarchy document).map fun sprint => some (sprint, .orchestrator)
  else if role ∈ ["orchestrator", "strategist", "designer"] then .ok (some (document, .architect))
  else if role = "system-specialist" then .ok (some (document, .orchestrator))
  else .ok none

section oneUp
variable {hierarchy : TaskHierarchy} {document : TaskDocumentRef} {role : String}
  {stamp : Option TaskDocumentRef × Option String}

theorem structuralParentOwner_eq (catalog : SeatCatalog) :
    structuralParentOwner catalog hierarchy document role stamp =
      (seatOneUp hierarchy document role stamp).bind fun seat =>
        seat.elim (.ok none) fun seat => some <$> currentOccupant catalog seat.1 seat.2 := by
  unfold structuralParentOwner seatOneUp
  split
  · unfold deriveManagerOwner
    cases requiredParent hierarchy document <;> rfl
  split
  · unfold reviewerParentOwner
    rcases stamp with ⟨_ | parentDocument, _ | parentRole⟩
    · cases haltitude : hierarchy.altitude document with
      | error e => rfl
      | ok altitude =>
        cases altitude with
        | leaf =>
          unfold deriveManagerOwner
          cases requiredParent hierarchy document <;> rfl
        | _ => rfl
    · rfl
    · rfl
    · dsimp only
      cases validateReviewerParent hierarchy document parentDocument parentRole <;> rfl
  split
  · cases requiredParent hierarchy document <;> rfl
  split
  · rfl
  split
  · rfl
  · rfl

theorem requiredParent_ok_iff {parent : TaskDocumentRef} :
    requiredParent hierarchy document = .ok parent ↔
      hierarchy.parent document = .ok (some parent) := by
  unfold requiredParent
  cases hparent : hierarchy.parent document with
  | error e =>
    constructor
    all_goals
      intro h
      cases h
  | ok found =>
    cases found with
    | none =>
      constructor
      all_goals
        intro h
        cases h
    | some found =>
      constructor
      all_goals
        intro h
        cases h
        rfl

theorem map_ok_iff {ε α β : Type} {x : Except ε α} {f : α → β} {b : β} :
    x.map f = .ok b ↔ ∃ a, x = .ok a ∧ f a = b := by
  cases x with
  | error e =>
    constructor
    · intro h
      cases h
    · rintro ⟨a, ha, -⟩
      cases ha
  | ok a => simp [Except.map]

/-- Above a reviewer, by the altitude of its document. -/
theorem seatAbove_reviewer_iff {seat : Seat} :
    SeatAbove hierarchy document "reviewer" stamp seat ↔
      (hierarchy.altitude document = .ok .leaf ∧ seat.2 = .manager ∧
        hierarchy.parent document = .ok (some seat.1) ∧
        (stamp = (none, none) ∨ stamp = (some seat.1, some "manager"))) ∨
      (hierarchy.altitude document = .ok .master ∧ seat = (document, .manager) ∧
        stamp = (some document, some "manager")) ∨
      (hierarchy.altitude document = .ok .sprint ∧
        (seat = (document, .architect) ∧ stamp = (some document, some "architect") ∨
          seat = (document, .orchestrator) ∧ stamp = (some document, some "orchestrator"))) := by
  constructor
  · intro h
    generalize hrole : "reviewer" = role at h
    cases h with
    | leafReviewer haltitude hparent hstamp => exact .inl ⟨haltitude, rfl, hparent, hstamp⟩
    | masterReviewer haltitude => exact .inr (.inl ⟨haltitude, rfl, rfl⟩)
    | planReviewer haltitude => exact .inr (.inr ⟨haltitude, .inl ⟨rfl, rfl⟩⟩)
    | superReviewer haltitude => exact .inr (.inr ⟨haltitude, .inr ⟨rfl, rfl⟩⟩)
    | _ => exact absurd hrole (by decide)
  · obtain ⟨seatDocument, seatRole⟩ := seat
    rintro (⟨haltitude, hrole, hparent, hstamp⟩ | ⟨haltitude, hseat, hstamp⟩ |
      ⟨haltitude, ⟨hseat, hstamp⟩ | ⟨hseat, hstamp⟩⟩)
    · cases hrole
      exact .leafReviewer haltitude hparent hstamp
    · cases hseat
      cases hstamp
      exact .masterReviewer haltitude
    · cases hseat
      cases hstamp
      exact .planReviewer haltitude
    · cases hseat
      cases hstamp
      exact .superReviewer haltitude

/-- What a stamp's seat is found to be, of the seats allowed. -/
theorem find?_allowed {allowed : List Seat} {parentDocument : TaskDocumentRef} {parentRole : String}
    {seat : Seat} (hroles : allowed.Pairwise fun a b => roleText a.2 ≠ roleText b.2) :
    allowed.find? (fun seat => decide ((seat.1, roleText seat.2) = (parentDocument, parentRole)))
        = some seat ↔ seat ∈ allowed ∧ parentDocument = seat.1 ∧ parentRole = roleText seat.2 := by
  induction allowed with
  | nil => simp
  | cons first rest ih =>
    obtain ⟨hfirst, hrest⟩ := List.pairwise_cons.mp hroles
    by_cases hhit : (first.1, roleText first.2) = (parentDocument, parentRole)
    · rw [List.find?_cons_of_pos (by simpa using hhit)]
      cases hhit
      constructor
      · intro h
        cases h
        exact ⟨by simp, rfl, rfl⟩
      · rintro ⟨hmem, -, hrole⟩
        rcases List.mem_cons.mp hmem with rfl | hmem
        · rfl
        · exact absurd hrole (hfirst seat hmem)
    · rw [List.find?_cons_of_neg (by simpa using hhit), ih hrest, List.mem_cons]
      constructor
      · rintro ⟨hmem, hseat⟩
        exact ⟨.inr hmem, hseat⟩
      · rintro ⟨rfl | hmem, rfl, rfl⟩
        · exact absurd rfl hhit
        · exact ⟨hmem, rfl, rfl⟩

theorem validateReviewerParent_ok_iff {parentDocument : TaskDocumentRef} {parentRole : String}
    {seat : Seat} : validateReviewerParent hierarchy document parentDocument parentRole = .ok seat ↔
      SeatAbove hierarchy document "reviewer" (some parentDocument, some parentRole) seat := by
  have hvalidate : validateReviewerParent hierarchy document parentDocument parentRole = .ok seat ↔
      ∃ allowed, allowedReviewerParents hierarchy document = .ok allowed ∧
        allowed.find? (fun seat => decide ((seat.1, roleText seat.2) =
          (parentDocument, parentRole))) = some seat := by
    unfold validateReviewerParent
    cases allowedReviewerParents hierarchy document with
    | error e =>
      constructor
      · intro h
        cases h
      · rintro ⟨allowed, hallowed, -⟩
        cases hallowed
    | ok allowed =>
      simp only [bind, Except.bind, Except.ok.injEq, exists_eq_left']
      cases allowed.find? fun seat => decide ((seat.1, roleText seat.2) =
          (parentDocument, parentRole)) with
      | none =>
        constructor
        all_goals
          intro h
          cases h
      | some found =>
        constructor
        all_goals
          intro h
          cases h
          rfl
  -- which parents are allowed depends on the altitude of the document alone
  rw [hvalidate, seatAbove_reviewer_iff]
  unfold allowedReviewerParents
  cases haltitude : hierarchy.altitude document with
  | error e =>
    constructor
    · rintro ⟨allowed, hallowed, -⟩
      cases hallowed
    · rintro (⟨h, -⟩ | ⟨h, -⟩ | ⟨h, -⟩) <;> cases h
  | ok altitude =>
    cases altitude with
    | leaf =>
      have hother : ∀ other : TaskAltitude, other ≠ .leaf →
          (Except.ok .leaf : Except RoutingError TaskAltitude) ≠ .ok other := by
        intro other hne h
        cases h
        exact hne rfl
      constructor
      · rintro ⟨allowed, hallowed, hfind⟩
        cases hparent : requiredParent hierarchy document with
        | error e =>
          rw [hparent] at hallowed
          cases hallowed
        | ok master =>
          rw [hparent] at hallowed
          cases hallowed
          obtain ⟨hmem, rfl, rfl⟩ := (find?_allowed (List.pairwise_singleton _ _)).mp hfind
          cases List.mem_singleton.mp hmem
          exact .inl ⟨rfl, rfl, requiredParent_ok_iff.mp hparent, .inr rfl⟩
      · rintro (⟨-, hrole, hparent, hstamp⟩ | ⟨h, -⟩ | ⟨h, -⟩)
        · obtain ⟨seatDocument, seatRole⟩ := seat
          cases hrole
          rcases hstamp with hstamp | hstamp
          · cases hstamp
          · cases hstamp
            refine ⟨[(seatDocument, .manager)], ?_, by simp [roleText]⟩
            rw [requiredParent_ok_iff.mpr hparent]
            rfl
        · exact absurd h (hother _ (by decide))
        · exact absurd h (hother _ (by decide))
    | master =>
      constructor
      · rintro ⟨allowed, hallowed, hfind⟩
        cases hallowed
        obtain ⟨hmem, rfl, rfl⟩ := (find?_allowed (List.pairwise_singleton _ _)).mp hfind
        cases List.mem_singleton.mp hmem
        exact .inr (.inl ⟨rfl, rfl, rfl⟩)
      · rintro (⟨h, -⟩ | ⟨-, hseat, hstamp⟩ | ⟨h, -⟩)
        · cases h
        · cases hseat
          cases hstamp
          exact ⟨_, rfl, by simp [roleText]⟩
        · cases h
    | sprint =>
      have hroles : [(document, AgentRole.architect), (document, AgentRole.orchestrator)].Pairwise
          fun a b => roleText a.2 ≠ roleText b.2 := by
        simp [roleText]
      constructor
      · rintro ⟨allowed, hallowed, hfind⟩
        cases hallowed
        obtain ⟨hmem, rfl, rfl⟩ := (find?_allowed hroles).mp hfind
        rcases List.mem_cons.mp hmem with rfl | hmem
        · exact .inr (.inr ⟨rfl, .inl ⟨rfl, rfl⟩⟩)
        · cases List.mem_singleton.mp hmem
          exact .inr (.inr ⟨rfl, .inr ⟨rfl, rfl⟩⟩)
      · rintro (⟨h, -⟩ | ⟨h, -⟩ | ⟨-, ⟨hseat, hstamp⟩ | ⟨hseat, hstamp⟩⟩)
        · cases h
        · cases h
        · cases hseat
          cases hstamp
          exact ⟨_, rfl, by simp [roleText]⟩
        · cases hseat
          cases hstamp
          exact ⟨_, rfl, by simp [roleText]⟩

/-- The seat of a leaf role and of a manager hangs on the document's parent. -/
theorem map_requiredParent_iff {role : AgentRole} {seat : Seat} :
    (requiredParent hierarchy document).map (fun parent => some (parent, role)) = .ok (some seat) ↔
      hierarchy.parent document = .ok (some seat.1) ∧ seat.2 = role := by
  rw [map_ok_iff]
  constructor
  · rintro ⟨parent, hparent, hseat⟩
    cases hseat
    exact ⟨requiredParent_ok_iff.mp hparent, rfl⟩
  · rintro ⟨hparent, rfl⟩
    exact ⟨seat.1, requiredParent_ok_iff.mpr hparent, rfl⟩

theorem seatOneUp_reviewer_iff {seat : Seat} :
    seatOneUp hierarchy document "reviewer" stamp = .ok (some seat) ↔
      SeatAbove hierarchy document "reviewer" stamp seat := by
  unfold seatOneUp
  rw [if_neg (by decide), if_pos rfl]
  rcases stamp with ⟨_ | parentDocument, _ | parentRole⟩
  · rw [seatAbove_reviewer_iff]
    cases haltitude : hierarchy.altitude document with
    | error e =>
      constructor
      · intro h
        cases h
      · rintro (⟨h, -⟩ | ⟨h, -⟩ | ⟨h, -⟩) <;> cases h
    | ok altitude =>
      cases altitude with
      | leaf =>
        show (requiredParent hierarchy document).map _ = _ ↔ _
        rw [map_requiredParent_iff]
        simp [and_comm]
      | master =>
        constructor
        · intro h
          cases h
        · rintro (⟨h, -⟩ | ⟨-, -, h⟩ | ⟨h, -⟩) <;> cases h
      | sprint =>
        constructor
        · intro h
          cases h
        · rintro (⟨h, -⟩ | ⟨h, -⟩ | ⟨-, ⟨-, h⟩ | ⟨-, h⟩⟩) <;> cases h
  · rw [seatAbove_reviewer_iff]
    constructor
    · intro h
      cases h
    · simp
  · rw [seatAbove_reviewer_iff]
    constructor
    · intro h
      cases h
    · simp
  · rw [map_ok_iff]
    simp only [Option.some.injEq, exists_eq_right]
    exact validateReviewerParent_ok_iff

theorem seatOneUp_some_iff {seat : Seat} :
    seatOneUp hierarchy document role stamp = .ok (some seat) ↔
      SeatAbove hierarchy document role stamp seat := by
  constructor
  · intro h
    obtain ⟨seatDocument, seatRole⟩ := seat
    by_cases hreviewer : role = "reviewer"
    · subst hreviewer
      exact seatOneUp_reviewer_iff.mp h
    unfold seatOneUp at h
    rw [if_neg hreviewer] at h
    split at h
    · rename_i hleaf
      obtain ⟨hparent, hseat⟩ := map_requiredParent_iff.mp h
      cases hseat
      rcases List.mem_cons.mp hleaf with rfl | hleaf
      · exact .worker hparent
      · cases List.mem_singleton.mp hleaf
        exact .curator hparent
    split at h
    · rename_i hmanager
      obtain ⟨hparent, hseat⟩ := map_requiredParent_iff.mp h
      cases hseat
      subst hmanager
      exact .manager hparent
    split at h
    · rename_i hsprint
      cases h
      rcases List.mem_cons.mp hsprint with rfl | hsprint
      · exact .orchestrator
      · rcases List.mem_cons.mp hsprint with rfl | hsprint
        · exact .strategist
        · cases List.mem_singleton.mp hsprint
          exact .designer
    split at h
    · rename_i hspecialist
      cases h
      subst hspecialist
      exact .specialist
    · cases h
  · intro h
    by_cases hreviewer : role = "reviewer"
    · subst hreviewer
      exact seatOneUp_reviewer_iff.mpr h
    cases h with
    | worker hparent => exact map_requiredParent_iff.mpr ⟨hparent, rfl⟩
    | curator hparent => exact map_requiredParent_iff.mpr ⟨hparent, rfl⟩
    | manager hparent => exact map_requiredParent_iff.mpr ⟨hparent, rfl⟩
    | orchestrator | strategist | designer | specialist => rfl
    | leafReviewer | masterReviewer | planReviewer | superReviewer => exact absurd rfl hreviewer

theorem seatOneUp_none_iff :
    seatOneUp hierarchy document role stamp = .ok none ↔ role ∉ routedRoles := by
  have hmap : ∀ {ε α : Type} {x : Except ε α} {f : α → Seat},
      x.map (fun a => some (f a)) ≠ .ok none := by
    intro ε α x f h
    obtain ⟨a, -, ha⟩ := map_ok_iff.mp h
    cases ha
  unfold seatOneUp routedRoles
  split
  · rename_i hleaf
    refine ⟨fun h => absurd h hmap, fun hout => absurd ?_ hout⟩
    rcases List.mem_cons.mp hleaf with rfl | hleaf
    · simp
    · cases List.mem_singleton.mp hleaf
      simp
  split
  · rename_i hreviewer
    refine ⟨fun h => ?_, fun hout => absurd (by simp [hreviewer]) hout⟩
    rcases stamp with ⟨_ | parentDocument, _ | parentRole⟩
    · cases haltitude : hierarchy.altitude document with
      | error e =>
        rw [haltitude] at h
        cases h
      | ok altitude =>
        rw [haltitude] at h
        cases altitude with
        | leaf => exact absurd h hmap
        | _ => cases h
    · cases h
    · cases h
    · exact absurd h hmap
  split
  · rename_i hmanager
    exact ⟨fun h => absurd h hmap, fun hout => absurd (by simp [hmanager]) hout⟩
  split
  · rename_i hsprint
    refine ⟨fun h => (by cases h), fun hout => absurd ?_ hout⟩
    rcases List.mem_cons.mp hsprint with rfl | hsprint
    · simp
    · rcases List.mem_cons.mp hsprint with rfl | hsprint
      · simp
      · cases List.mem_singleton.mp hsprint
        simp
  split
  · rename_i hspecialist
    exact ⟨fun h => (by cases h), fun hout => absurd (by simp [hspecialist]) hout⟩
  · rename_i hleaf hreviewer hmanager hsprint hspecialist
    refine ⟨fun _ => ?_, fun _ => rfl⟩
    simp only [List.mem_cons, List.not_mem_nil, or_false, not_or] at hleaf hsprint ⊢
    exact ⟨hleaf.1, hleaf.2, hreviewer, hmanager, hsprint.1, hsprint.2.1, hsprint.2.2, hspecialist⟩

end oneUp

/-! ## The sprint -/

section sprint
variable {hierarchy : TaskHierarchy} {document sprint current : TaskDocumentRef}

theorem SprintOf.not_cyclic (h : SprintOf hierarchy document sprint) :
    ¬Relation.TransGen (fun document parent => hierarchy.parent document = .ok (some parent))
      document document := by
  obtain ⟨hcontained, htop⟩ := h
  induction hcontained using Relation.ReflTransGen.head_induction_on with
  | refl =>
    intro hcycle
    obtain ⟨parent, hparent, -⟩ := Relation.TransGen.head'_iff.mp hcycle
    rw [htop] at hparent
    cases hparent
  | head hstep _ ih =>
    intro hcycle
    -- a document has one parent, so the cycle goes through it as well
    obtain ⟨parent, hparent, hback⟩ := Relation.TransGen.head'_iff.mp hcycle
    rw [hstep] at hparent
    cases hparent
    exact ih (Relation.TransGen.tail' hback hstep)

/-- The documents not seen yet. -/
def unseen (hierarchy : TaskHierarchy) (seen : List TaskDocumentRef) : Nat :=
  hierarchy.documents.countP fun document => document ∉ seen

theorem unseen_lt {seen : List TaskDocumentRef} (hmem : current ∈ hierarchy.documents)
    (hnew : current ∉ seen) : unseen hierarchy (current :: seen) < unseen hierarchy seen := by
  unfold unseen
  obtain ⟨front, back, hsplit⟩ := List.append_of_mem hmem
  have hfront := List.countP_mono_left (l := front)
    (p := fun document => decide (document ∉ current :: seen))
    (q := fun document => decide (document ∉ seen)) (by simp)
  have hback := List.countP_mono_left (l := back)
    (p := fun document => decide (document ∉ current :: seen))
    (q := fun document => decide (document ∉ seen)) (by simp)
  rw [hsplit, List.countP_append, List.countP_append, List.countP_cons_of_neg (by simp),
    List.countP_cons_of_pos (by simpa using hnew)]
  omega

/-- With a turn left for each document not seen, the loop ends on the sprint. -/
theorem climb_ok_iff {fuel : Nat} {seen : List TaskDocumentRef}
    (hfuel : current ∈ hierarchy.documents ∧ unseen hierarchy seen < fuel ∨
      hierarchy.documents.length + 1 < fuel)
    (hseen : ∀ document ∈ seen, Relation.TransGen
      (fun document parent => hierarchy.parent document = .ok (some parent)) document current) :
    climb hierarchy fuel current seen = .ok sprint ↔ SprintOf hierarchy current sprint := by
  -- the documents not met yet become fewer, and there is fuel for all of them
  induction fuel generalizing current seen with
  | zero => omega
  | succ fuel ih =>
    rw [climb]
    by_cases hcycle : current ∈ seen
    · rw [if_pos hcycle]
      constructor
      · intro h
        cases h
      · exact fun h => absurd (hseen current hcycle) h.not_cyclic
    · rw [if_neg hcycle]
      cases hparent : hierarchy.parent current with
      | error e =>
        constructor
        · intro h
          cases h
        · rintro ⟨hcontained, htop⟩
          rcases Relation.ReflTransGen.cases_head hcontained with rfl | ⟨parent, hstep, -⟩
          · rw [hparent] at htop
            cases htop
          · rw [hparent] at hstep
            cases hstep
      | ok found =>
        cases found with
        | none =>
          constructor
          · intro h
            cases h
            exact ⟨.refl, hparent⟩
          · rintro ⟨hcontained, -⟩
            rcases Relation.ReflTransGen.cases_head hcontained with rfl | ⟨parent, hstep, -⟩
            · rfl
            · rw [hparent] at hstep
              cases hstep
        | some parent =>
          have hmem := hierarchy.parent_mem current parent hparent
          have hleft : unseen hierarchy (current :: seen) < fuel := by
            rcases hfuel with ⟨hcurrent, hleft⟩ | hlong
            · have := unseen_lt hcurrent hcycle
              omega
            · have : unseen hierarchy (current :: seen) ≤ hierarchy.documents.length :=
                List.countP_le_length
              omega
          show climb hierarchy fuel parent (current :: seen) = .ok sprint ↔ _
          rw [ih (.inl ⟨hmem, hleft⟩)]
          · constructor
            · rintro ⟨hcontained, htop⟩
              exact ⟨.head hparent hcontained, htop⟩
            · rintro ⟨hcontained, htop⟩
              rcases Relation.ReflTransGen.cases_head hcontained with rfl | ⟨next, hstep, hrest⟩
              · rw [hparent] at htop
                cases htop
              · rw [hparent] at hstep
                cases hstep
                exact ⟨hrest, htop⟩
          · intro earlier hearlier
            rcases List.mem_cons.mp hearlier with rfl | hearlier
            · exact .single hparent
            · exact (hseen earlier hearlier).tail hparent

/-- **The sprint is found exactly where containment leads to one.** -/
theorem sprintDocument_ok_iff :
    sprintDocument hierarchy document = .ok sprint ↔ SprintOf hierarchy document sprint :=
  climb_ok_iff (.inr (Nat.lt_succ_self _)) (by simp)

end sprint

end AgentsRemember.Routing
