import AgentsRemember.Inbox.Records
import Mathlib.Data.List.Nodup

/-!
# Routing — Seats

The seat catalog as the control plane reads it, and the occupant of a seat
(`controlplane/seats.py`). A seat is a document and a role; a row claims it as
its incumbent through `taskDocumentRef`, or as the staged heir through
`replacementForTaskDocumentRef`.
-/

namespace AgentsRemember.Routing

open Inbox (AgentRole TaskDocumentRef)

/-- The text of a role in a catalog row. -/
def roleText : AgentRole → String
  | .developer => "developer"
  | .operator => "operator"
  | .designer => "designer"
  | .strategist => "strategist"
  | .orchestrator => "orchestrator"
  | .manager => "manager"
  | .worker => "worker"
  | .reviewer => "reviewer"
  | .systemSpecialist => "system-specialist"
  | .architect => "architect"
  | .curator => "curator"
  | .agent => "agent"
  | .system => "system"

/-- The text by which errors name a document. -/
def documentKey (document : TaskDocumentRef) : String :=
  s!"{document.repository}/{document.path}"

/-- Where a session stands. -/
inductive TerminalSessionStatus where
  | running | exited | landed | terminated
  deriving DecidableEq

/-- One seat's row. The two `spawnedBy` fields are provenance. -/
structure SeatRow where
  id : String
  status : TerminalSessionStatus
  bindingRole : String
  lifecycleId : Option String := none
  taskDocumentRef : Option TaskDocumentRef := none
  replacementForTaskDocumentRef : Option TaskDocumentRef := none
  spawnedBySession : Option String := none
  spawnedByLifecycle : Option String := none
  structuralParentTaskDocumentRef : Option TaskDocumentRef := none
  structuralParentRole : Option String := none

/-- The document an occupant works for, a staged replacement included. -/
def SeatRow.bindingTaskDocumentRef (row : SeatRow) : Option TaskDocumentRef :=
  row.taskDocumentRef.or row.replacementForTaskDocumentRef

/-- The catalog keeps one row for each session id: `upsert` replaces. -/
structure SeatCatalog where
  rows : List SeatRow
  ids_nodup : (rows.map SeatRow.id).Nodup

namespace SeatCatalog

/-- The row of a session. -/
def get (catalog : SeatCatalog) (sessionId : String) : Option SeatRow :=
  catalog.rows.find? fun row => row.id == sessionId

/-- The rows that are not terminated. -/
def list (catalog : SeatCatalog) : List SeatRow :=
  catalog.rows.filter fun row => row.status ≠ .terminated

end SeatCatalog

/-! ## The occupant -/

/-- The running rows that claim a seat. -/
def seatClaimants (rows : List SeatRow) (document : TaskDocumentRef) (role : String)
    (replacement : Bool) : List SeatRow :=
  rows.filter fun row =>
    row.status = .running ∧ row.bindingRole = role ∧
      (if replacement then row.replacementForTaskDocumentRef else row.taskDocumentRef)
        = some document

/-- The only claimant, if there is one. -/
def oneClaimant (claimants : List SeatRow) (ambiguity : String) :
    Except String (Option SeatRow) :=
  if 1 < claimants.length then .error ambiguity else .ok claimants.head?

/-- `current_seat_occupant`: the incumbent before the staged heir. Both sides
are read before either is preferred. -/
def currentSeatOccupant (rows : List SeatRow) (document : TaskDocumentRef) (role : String) :
    Except String (Option SeatRow) := do
  let primary ← oneClaimant (seatClaimants rows document role false)
    s!"multiple running occupants claim {documentKey document} as {role}"
  let replacement ← oneClaimant (seatClaimants rows document role true)
    s!"multiple running replacements claim {documentKey document} as {role}"
  return primary.or replacement

/-! ## What it is to hold a seat -/

/-- A document and a role. -/
abbrev Seat := TaskDocumentRef × AgentRole

/-- A running row claims the seat in one of the two capacities. -/
def Claims (catalog : SeatCatalog) (seat : Seat) (replacement : Bool) (row : SeatRow) : Prop :=
  row ∈ catalog.rows ∧ row.status = .running ∧ row.bindingRole = roleText seat.2 ∧
    (if replacement then row.replacementForTaskDocumentRef else row.taskDocumentRef)
      = some seat.1

/-- Two rows claim the seat in the same capacity. -/
def Contested (catalog : SeatCatalog) (seat : Seat) : Prop :=
  ∃ replacement row other, row ≠ other ∧ Claims catalog seat replacement row ∧
    Claims catalog seat replacement other

/-- The only running claimant in that capacity. -/
def SoleClaimant (catalog : SeatCatalog) (seat : Seat) (replacement : Bool) (row : SeatRow) :
    Prop :=
  Claims catalog seat replacement row ∧
    ∀ other, Claims catalog seat replacement other → other = row

/-- The unique incumbent, or the unique heir where there is no incumbent. -/
def Occupies (catalog : SeatCatalog) (seat : Seat) (row : SeatRow) : Prop :=
  SoleClaimant catalog seat false row ∨
    (∀ other, ¬Claims catalog seat false other) ∧ SoleClaimant catalog seat true row

theorem SeatCatalog.nodup (catalog : SeatCatalog) : catalog.rows.Nodup :=
  List.Nodup.of_map _ catalog.ids_nodup

section
variable {catalog : SeatCatalog} {seat : Seat} {replacement : Bool} {row : SeatRow}

theorem mem_seatClaimants :
    row ∈ seatClaimants catalog.list seat.1 (roleText seat.2) replacement ↔
      Claims catalog seat replacement row := by
  simp only [seatClaimants, SeatCatalog.list, Claims, List.mem_filter, decide_eq_true_eq]
  constructor
  · rintro ⟨⟨hmem, -⟩, hclaim⟩
    exact ⟨hmem, hclaim⟩
  · rintro ⟨hmem, hrunning, hrest⟩
    have hlisted : row.status ≠ .terminated := by
      rw [hrunning]
      decide
    exact ⟨⟨hmem, hlisted⟩, hrunning, hrest⟩

theorem seatClaimants_nodup :
    (seatClaimants catalog.list seat.1 (roleText seat.2) replacement).Nodup :=
  (catalog.nodup.filter _).filter _

/-- More than one claimant is listed exactly when two different rows claim. -/
theorem one_lt_claimants_iff :
    1 < (seatClaimants catalog.list seat.1 (roleText seat.2) replacement).length ↔
      ∃ row other, row ≠ other ∧ Claims catalog seat replacement row ∧
        Claims catalog seat replacement other := by
  have hnodup := @seatClaimants_nodup catalog seat replacement
  constructor
  · intro hlen
    match h : seatClaimants catalog.list seat.1 (roleText seat.2) replacement with
    | [] => simp [h] at hlen
    | [_] => simp [h] at hlen
    | row :: other :: rest =>
      rw [h] at hnodup
      have hne : row ≠ other := by
        rintro rfl
        simp at hnodup
      exact ⟨row, other, hne, mem_seatClaimants.mp (by simp [h]), mem_seatClaimants.mp (by simp [h])⟩
  · rintro ⟨row, other, hne, hrow, hother⟩
    have hrow := mem_seatClaimants.mpr hrow
    have hother := mem_seatClaimants.mpr hother
    match h : seatClaimants catalog.list seat.1 (roleText seat.2) replacement with
    | [] => simp [h] at hrow
    | [only] =>
      rw [h, List.mem_singleton] at hrow hother
      exact absurd (hrow.trans hother.symm) hne
    | _ :: _ :: _ => simp

theorem head?_claimants (hone : ¬1 <
    (seatClaimants catalog.list seat.1 (roleText seat.2) replacement).length) :
    (seatClaimants catalog.list seat.1 (roleText seat.2) replacement).head? = some row ↔
      SoleClaimant catalog seat replacement row := by
  unfold SoleClaimant
  simp only [← mem_seatClaimants]
  match h : seatClaimants catalog.list seat.1 (roleText seat.2) replacement with
  | [] => simp
  | [only] =>
    simp only [List.head?_cons, Option.some.injEq, List.mem_singleton]
    constructor
    · rintro rfl
      exact ⟨rfl, fun _ h => h⟩
    · rintro ⟨rfl, -⟩
      rfl
  | _ :: _ :: _ => simp [h] at hone

theorem head?_claimants_eq_none :
    (seatClaimants catalog.list seat.1 (roleText seat.2) replacement).head? = none ↔
      ∀ other, ¬Claims catalog seat replacement other := by
  rw [List.head?_eq_none_iff, List.eq_nil_iff_forall_not_mem]
  simp only [mem_seatClaimants]

/-- A contested seat is refused. -/
theorem currentSeatOccupant_contested (h : Contested catalog seat) :
    ∃ ambiguity, currentSeatOccupant catalog.list seat.1 (roleText seat.2) = .error ambiguity := by
  obtain ⟨replacement, hrows⟩ := h
  have hmany := one_lt_claimants_iff.mpr hrows
  unfold currentSeatOccupant
  by_cases hfirst : 1 < (seatClaimants catalog.list seat.1 (roleText seat.2) false).length
  · exact ⟨_, by simp only [oneClaimant, if_pos hfirst]; rfl⟩
  · cases replacement with
    | false => exact absurd hmany hfirst
    | true => exact ⟨_, by simp only [oneClaimant, if_neg hfirst, if_pos hmany]; rfl⟩

/-- An uncontested seat has the occupant that occupies it, if any does. -/
theorem currentSeatOccupant_uncontested (h : ¬Contested catalog seat) :
    ∃ occupant, currentSeatOccupant catalog.list seat.1 (roleText seat.2) = .ok occupant ∧
      ∀ row, occupant = some row ↔ Occupies catalog seat row := by
  have hone : ∀ replacement, ¬1 <
      (seatClaimants catalog.list seat.1 (roleText seat.2) replacement).length :=
    fun replacement hmany => h ⟨replacement, one_lt_claimants_iff.mp hmany⟩
  refine ⟨_, by
    simp only [currentSeatOccupant, oneClaimant, if_neg (hone false), if_neg (hone true)]; rfl, ?_⟩
  intro row
  unfold Occupies
  cases hprimary : (seatClaimants catalog.list seat.1 (roleText seat.2) false).head? with
  | none =>
    have hnone := head?_claimants_eq_none.mp hprimary
    rw [Option.none_or, head?_claimants (hone true)]
    constructor
    · exact fun hsole => .inr ⟨hnone, hsole⟩
    · rintro (hsole | ⟨-, hsole⟩)
      · exact absurd hsole.1 (hnone row)
      · exact hsole
  | some incumbent =>
    have hsole := (head?_claimants (hone false)).mp hprimary
    rw [Option.some_or, Option.some.injEq]
    constructor
    · rintro rfl
      exact .inl hsole
    · rintro (hrow | ⟨hnone, -⟩)
      · exact (hsole.2 row hrow.1).symm
      · exact absurd hsole.1 (hnone incumbent)

end

/-! ## Order and provenance -/

/-- The catalog in another order. -/
def SeatCatalog.Reorders (catalog other : SeatCatalog) : Prop := catalog.rows.Perm other.rows

/-- The row with another provenance. -/
def SeatRow.respawned (row : SeatRow) (session lifecycle : Option String) : SeatRow :=
  { row with spawnedBySession := session, spawnedByLifecycle := lifecycle }

/-- The catalog with other provenance on every row. -/
def SeatCatalog.respawned (catalog : SeatCatalog)
    (ancestry : String → Option String × Option String) : SeatCatalog where
  rows := catalog.rows.map fun row => row.respawned (ancestry row.id).1 (ancestry row.id).2
  ids_nodup := by
    rw [List.map_map]
    exact catalog.ids_nodup

end AgentsRemember.Routing
