import AgentsRemember.Projection.Records
import Mathlib.Data.List.Sort
import Mathlib.Order.Lattice

/-!
# Projection — Delta

The events between two projections. A row is upserted when its stable dump
differs from the one it had, a row that is gone is sent as a removal marker,
and the worktree groups, the metrics and the analytics are replaced whole.
-/

namespace AgentsRemember.Projection

/-! ## The stable forms -/

/-- A dump without its ages. -/
def stableDump (model : Document) : Document := stripVolatile model

/-- The stable dumps of a projection. -/
structure StableProjectionState where
  lifecycles : List (String × Document)
  enclosures : List (String × Document)
  providers : List (String × Document)
  activeWorktreeGroups : List String
  metrics : Document
  analytics : Document

/-- The stable dumps of some rows, by identifier. -/
def stableRows {key : String} (rows : List (Row key)) : List (String × Document) :=
  Keyed.dict (rows.map fun item => (item.ident, stableDump item.dump))

/-- What the next projection is compared with. -/
def stableProjectionState (projection : WorkspaceProjection) : StableProjectionState where
  lifecycles := stableRows projection.lifecycles
  enclosures := stableRows projection.enclosures
  providers := stableRows projection.providers
  activeWorktreeGroups := projection.activeWorktreeGroups
  metrics := stableDump projection.metrics
  analytics := stableDump projection.analytics

/-- A scalar as the server's language compares it: a boolean is the number it
stands for. -/
def pyScalar : Scalar → Scalar
  | .bool b => .num (if b then 1 else 0)
  | s => s

/-- Equality of dumps, or of two missing ones, in the server's language. -/
def pyEq (a b : Option Document) : Bool :=
  Document.equalAt (fun s t => pyScalar s == pyScalar t) a b

/-! ## The events -/

/-- What an event carries: a dumped row, value or marker, or a projection. -/
inductive Data where
  | value (d : Document)
  | projection (p : WorkspaceProjection)

/-- An event of the state channel. -/
structure DeltaEvent where
  event : String
  data : Data

/-- The events of one collection. -/
def collectionDeltas (name key : String) (currentNodes : List (Row key))
    (previousStable currentStable : List (String × Document)) : List DeltaEvent :=
  let currentBy := byIdent currentNodes
  let upserts := currentBy.filter fun e =>
    !pyEq (previousStable.lookup e.1) (currentStable.lookup e.1)
  let removed := ((previousStable.map Prod.fst).filter fun ident =>
    (currentStable.lookup ident).isNone).insertionSort (· ≤ ·)
  upserts.map (fun e => ⟨name, .value e.2.dump⟩) ++
    removed.map fun ident => ⟨name ++ ".removed", .value (.entry key (.str ident))⟩

/-- The events between two projections. -/
def diffProjection (previous : Option WorkspaceProjection) (current : WorkspaceProjection)
    (previousState currentState : Option StableProjectionState := none) : List DeltaEvent :=
  match previous with
  | none => []
  | some previous =>
    let prev := previousState.getD (stableProjectionState previous)
    let cur := currentState.getD (stableProjectionState current)
    collectionDeltas "lifecycle" "id" current.lifecycles prev.lifecycles cur.lifecycles ++
    collectionDeltas "enclosure" "enclosure" current.enclosures prev.enclosures
      cur.enclosures ++
    collectionDeltas "provider" "id" current.providers prev.providers cur.providers ++
    (if prev.activeWorktreeGroups ≠ cur.activeWorktreeGroups then
      [⟨"activeWorktreeGroups",
        .value (.entry "activeWorktreeGroups" (strings current.activeWorktreeGroups))⟩]
      else []) ++
    (if pyEq (some prev.metrics) (some cur.metrics) then []
      else [⟨"metrics", .value current.metrics⟩]) ++
    (if pyEq (some prev.analytics) (some cur.analytics) then []
      else [⟨"analytics", .value current.analytics⟩])

/-! ## What the events carry

An event carries one part, and the whole of what the current projection has
there. `Changed` is what the comparison of stable forms can see, and it never
looks at the closeout queues. -/

/-- The event brings a part of the projection. -/
inductive Carries (cur : WorkspaceProjection) : DeltaEvent → Part → Prop where
  | upserted (c : Collection) {item : Row c.key}
      (h : (byIdent (cur.rows c)).lookup item.ident = some item) :
      Carries cur ⟨c.event, .value item.dump⟩ (.row c item.ident)
  | removed (c : Collection) {ident : String} (h : cur.at (.row c ident) = none) :
      Carries cur ⟨c.event ++ ".removed", .value (.entry c.key (.str ident))⟩ (.row c ident)
  | activeWorktreeGroups :
      Carries cur ⟨"activeWorktreeGroups",
        .value (.entry "activeWorktreeGroups" (strings cur.activeWorktreeGroups))⟩
        .activeWorktreeGroups
  | metrics : Carries cur ⟨"metrics", .value cur.metrics⟩ .metrics
  | analytics : Carries cur ⟨"analytics", .value cur.analytics⟩ .analytics

/-- Equal, ages apart, in the server's language. -/
def pySame (a b : Option Document) : Bool := pyEq (a.map stripVolatile) (b.map stripVolatile)

theorem Same.pySame {a b : Option Document} (h : Same a b) : pySame a b = true :=
  Document.equalAt_mono (by simp only [beq_iff_eq]; exact fun _ _ => congrArg pyScalar) h

/-- A part the comparison looks at is another one now. -/
def Changed (prev cur : WorkspaceProjection) (part : Part) : Prop :=
  part ≠ .closeoutQueues ∧ pySame (prev.at part) (cur.at part) = false

theorem lookup_stableRows {key : String} (rows : List (Row key)) (ident : String) :
    (stableRows rows).lookup ident =
      ((byIdent rows).lookup ident).map fun item => stripVolatile item.dump := by
  rw [byIdent, ← Keyed.lookup_dict_map, List.map_map]
  rfl

theorem ident_of_mem_byIdent {key : String} {rows : List (Row key)} {e : String × Row key}
    (h : e ∈ byIdent rows) : e.2.ident = e.1 := by
  obtain ⟨item, -, rfl⟩ := List.mem_map.mp (Keyed.mem_of_mem_dict h)
  rfl

theorem lookup_byIdent_of_mem {key : String} {rows : List (Row key)} {e : String × Row key}
    (h : e ∈ byIdent rows) : (byIdent rows).lookup e.1 = some e.2 :=
  Keyed.lookup_of_mem (Keyed.nodup_keys_dict _) h

theorem lookup_stableRows_at (p : WorkspaceProjection) (c : Collection) (ident : String) :
    (stableRows (p.rows c)).lookup ident = (p.at (.row c ident)).map stripVolatile := by
  rw [lookup_stableRows, WorkspaceProjection.at, Option.map_map]
  rfl

theorem mem_stableRows {p : WorkspaceProjection} {c : Collection} {ident : String} :
    ident ∈ (stableRows (p.rows c)).map Prod.fst ↔ (p.at (.row c ident)).isSome = true := by
  rw [← Keyed.lookup_isSome_iff, lookup_stableRows_at, Option.isSome_map]

/-- The deltas of one collection, between two projections. -/
def rowDeltas (prev cur : WorkspaceProjection) (c : Collection) : List DeltaEvent :=
  collectionDeltas c.event c.key (cur.rows c) (stableRows (prev.rows c))
    (stableRows (cur.rows c))

theorem rowDeltas_carry {prev cur : WorkspaceProjection} {c : Collection} {e : DeltaEvent}
    (h : e ∈ rowDeltas prev cur c) : ∃ part, Carries cur e part ∧ Changed prev cur part := by
  simp only [rowDeltas, collectionDeltas, List.mem_append, List.mem_map, List.mem_filter,
    List.mem_insertionSort] at h
  rcases h with ⟨⟨ident, item⟩, ⟨hmem, hne⟩, rfl⟩ | ⟨ident, ⟨hprev, hcur⟩, rfl⟩
  · have hlook := lookup_byIdent_of_mem hmem
    obtain rfl : item.ident = ident := ident_of_mem_byIdent hmem
    refine ⟨.row c item.ident, .upserted c hlook, by simp, ?_⟩
    simpa [lookup_stableRows_at, pySame] using hne
  · have hgone : cur.at (.row c ident) = none := by
      simpa [lookup_stableRows_at] using hcur
    refine ⟨.row c ident, .removed c hgone, by simp, ?_⟩
    obtain ⟨d, hd⟩ := Option.isSome_iff_exists.mp (mem_stableRows.mp (List.mem_map.mpr hprev))
    simp [pySame, pyEq, hgone, hd, Document.equalAt, Datum.entryEqual]

theorem rowDeltas_of_changed {prev cur : WorkspaceProjection} {c : Collection}
    {ident : String} (h : Changed prev cur (.row c ident)) :
    ∃ e ∈ rowDeltas prev cur c, Carries cur e (.row c ident) := by
  simp only [rowDeltas, collectionDeltas, List.mem_append, List.mem_map, List.mem_filter,
    List.mem_insertionSort]
  cases hcur : (byIdent (cur.rows c)).lookup ident with
  | some item =>
    have hmem := Keyed.mem_of_lookup hcur
    obtain rfl : item.ident = ident := ident_of_mem_byIdent hmem
    refine ⟨_, .inl ⟨(item.ident, item), ⟨hmem, ?_⟩, rfl⟩, .upserted c hcur⟩
    simpa [lookup_stableRows_at, pySame] using h.2
  | none =>
    have hgone : cur.at (.row c ident) = none := by simp [WorkspaceProjection.at, hcur]
    refine ⟨_, .inr ⟨ident, ⟨?_, ?_⟩, rfl⟩, .removed c hgone⟩
    · refine List.mem_map.mp (mem_stableRows.mpr ?_)
      have := h.2
      cases hprev : prev.at (.row c ident) with
      | none => simp [hgone, hprev, pySame, pyEq, Document.equalAt, Datum.entryEqual] at this
      | some d => rfl
    · simp [lookup_stableRows_at, hgone]

theorem stripVolatile_strings (xs : List String) :
    stripVolatile (strings xs) = strings xs := by
  apply Document.ext
  simp [stripVolatile, strings, Document.strip, Document.list, Datum.strip,
    Datum.stripItems_eq, Document.str]

theorem pySame_strings {xs ys : List String} :
    pySame (some (strings xs)) (some (strings ys)) = true ↔ xs = ys := by
  constructor
  · intro h
    simp only [pySame, Option.map_some, stripVolatile_strings] at h
    have h := Datum.equal_list_iff.mp h
    apply List.ext_getElem?
    intro i
    have hi := h i
    cases hx : xs[i]? <;> cases hy : ys[i]? <;>
      simp [hx, hy, Datum.entryEqual, Document.str, Datum.equal, pyScalar] at hi ⊢
    exact hi
  · rintro rfl
    exact (Same.refl _).pySame

theorem mem_diffProjection {prev cur : WorkspaceProjection} {e : DeltaEvent} :
    e ∈ diffProjection (some prev) cur ↔
      (∃ c, e ∈ rowDeltas prev cur c) ∨
      (prev.activeWorktreeGroups ≠ cur.activeWorktreeGroups ∧
        e = ⟨"activeWorktreeGroups",
          .value (.entry "activeWorktreeGroups" (strings cur.activeWorktreeGroups))⟩) ∨
      (pySame (some prev.metrics) (some cur.metrics) = false ∧
        e = ⟨"metrics", .value cur.metrics⟩) ∨
      (pySame (some prev.analytics) (some cur.analytics) = false ∧
        e = ⟨"analytics", .value cur.analytics⟩) := by
  have hsplit : (∃ c, e ∈ rowDeltas prev cur c) ↔
      e ∈ rowDeltas prev cur .lifecycles ∨ e ∈ rowDeltas prev cur .enclosures ∨
        e ∈ rowDeltas prev cur .providers := by
    constructor
    · rintro ⟨c | c | c, h⟩
      · exact .inl h
      · exact .inr (.inl h)
      · exact .inr (.inr h)
    · rintro (h | h | h)
      · exact ⟨_, h⟩
      · exact ⟨_, h⟩
      · exact ⟨_, h⟩
  rw [hsplit]
  simp only [diffProjection, Option.getD_none, List.mem_append, or_assoc]
  refine or_congr Iff.rfl (or_congr Iff.rfl (or_congr Iff.rfl ?_))
  refine or_congr ?_ (or_congr ?_ ?_)
  · by_cases h : prev.activeWorktreeGroups = cur.activeWorktreeGroups
    · simp [stableProjectionState, h]
    · simp [stableProjectionState, h]
  · show (e ∈ if pySame (some prev.metrics) (some cur.metrics) then [] else _) ↔ _
    cases pySame (some prev.metrics) (some cur.metrics) <;> simp
  · show (e ∈ if pySame (some prev.analytics) (some cur.analytics) then [] else _) ↔ _
    cases pySame (some prev.analytics) (some cur.analytics) <;> simp

/-- Every event carries a part that changed. -/
theorem diff_carries {prev cur : WorkspaceProjection} {e : DeltaEvent}
    (h : e ∈ diffProjection (some prev) cur) :
    ∃ part, Carries cur e part ∧ Changed prev cur part := by
  rcases mem_diffProjection.mp h with ⟨c, h⟩ | ⟨hne, rfl⟩ | ⟨hne, rfl⟩ | ⟨hne, rfl⟩
  · exact rowDeltas_carry h
  · refine ⟨_, .activeWorktreeGroups, by simp, ?_⟩
    rw [← Bool.not_eq_true, WorkspaceProjection.at, WorkspaceProjection.at, pySame_strings]
    exact hne
  · exact ⟨_, .metrics, by simp, hne⟩
  · exact ⟨_, .analytics, by simp, hne⟩

/-- Every part that changed is carried by an event. -/
theorem changed_carried {prev cur : WorkspaceProjection} {part : Part}
    (h : Changed prev cur part) : ∃ e ∈ diffProjection (some prev) cur, Carries cur e part := by
  simp only [mem_diffProjection]
  cases part with
  | row c ident =>
    obtain ⟨e, he, hc⟩ := rowDeltas_of_changed h
    exact ⟨e, .inl ⟨c, he⟩, hc⟩
  | activeWorktreeGroups =>
    refine ⟨_, .inr (.inl ⟨?_, rfl⟩), .activeWorktreeGroups⟩
    rw [ne_eq, ← pySame_strings, Bool.not_eq_true]
    exact h.2
  | closeoutQueues => exact absurd rfl h.1
  | metrics => exact ⟨_, .inr (.inr (.inl ⟨h.2, rfl⟩)), .metrics⟩
  | analytics => exact ⟨_, .inr (.inr (.inr ⟨h.2, rfl⟩)), .analytics⟩

theorem diffProjection_eq_nil {prev cur : WorkspaceProjection} :
    diffProjection (some prev) cur = [] ↔ ∀ part, ¬Changed prev cur part := by
  constructor
  · intro h part hpart
    obtain ⟨e, he, -⟩ := changed_carried hpart
    simp [h] at he
  · intro h
    rw [List.eq_nil_iff_forall_not_mem]
    intro e he
    obtain ⟨part, -, hpart⟩ := diff_carries he
    exact h part hpart

end AgentsRemember.Projection
