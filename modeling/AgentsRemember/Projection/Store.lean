import AgentsRemember.Projection.Delta

/-!
# Projection — Store

The dashboard's store: collections keyed by identifier, the values beside them,
and the reducers that merge the events of the state channel into it. Its
connection flag, its stamps, the raw event feed and the suppressed attention
items are not content and are left out.

The store compares with an equality of its own, written in another language.
`stableEquals_eq` says which one it is: the server's recursion, over strict
equality of scalars.
-/

namespace AgentsRemember.Projection

/-! ## The equality of the client -/

mutual

/-- Deep equality over parsed payloads, ignoring the volatile ages. -/
def stableEquals : Datum → Datum → Bool
  | .leaf a, .leaf b => a == b
  | .list left, .list right => sameArray left right
  | .dict left, .dict right =>
    (left.filter fun m => !isVolatile m.1).length ==
      (right.filter fun m => !isVolatile m.1).length && sameRecord left right
  | _, _ => false

/-- The items are equal one by one. -/
def sameArray : List Datum → List Datum → Bool
  | [], [] => true
  | item :: left, other :: right => stableEquals item other && sameArray left right
  | _, _ => false

/-- Every stable key of the left record is one of the right, with an equal value. -/
def sameRecord : List (String × Datum) → List (String × Datum) → Bool
  | [], _ => true
  | (key, item) :: left, right =>
    (isVolatile key ||
      (match right.lookup key with
        | some other => stableEquals item other
        | none => false)) && sameRecord left right

end

/-- The comparison with a value that may be missing. -/
def stableEqualsAt : Option Document → Option Document → Bool
  | some a, some b => stableEquals a.datum b.datum
  | none, none => true
  | _, _ => false

theorem sameArray_eq {left : List Datum}
    (ih : ∀ t ∈ left, ∀ u,
      stableEquals t u = Datum.equal (· == ·) (t.strip isVolatile) (u.strip isVolatile))
    (right : List Datum) : sameArray left right = Datum.equalItems (· == ·)
      (Datum.stripItems isVolatile left) (Datum.stripItems isVolatile right) := by
  induction left generalizing right with
  | nil => cases right <;> rfl
  | cons t left ihl =>
    cases right with
    | nil => rfl
    | cons u right =>
      rw [sameArray, Datum.stripItems, Datum.stripItems, Datum.equalItems,
        ih t (by simp), ihl fun t ht => ih t (by simp [ht])]

theorem sameRecord_eq {left : List (String × Datum)}
    (ih : ∀ m ∈ left, ∀ u,
      stableEquals m.2 u = Datum.equal (· == ·) (m.2.strip isVolatile) (u.strip isVolatile))
    (right : List (String × Datum)) : sameRecord left right = Datum.equalMembers (· == ·)
      (Datum.stripMembers isVolatile left) (Datum.stripMembers isVolatile right) := by
  induction left with
  | nil => rfl
  | cons m left ihl =>
    obtain ⟨key, t⟩ := m
    have hrest := ihl fun m hm => ih m (by simp [hm])
    by_cases hkey : isVolatile key = true
    · rw [sameRecord, Datum.stripMembers, if_pos hkey, hrest, hkey]
      simp
    · rw [sameRecord, Datum.stripMembers, if_neg hkey, Datum.equalMembers, hrest,
        Datum.lookup_stripMembers, if_neg hkey]
      cases hlook : right.lookup key with
      | none => simp [hkey]
      | some u => simp [hkey, ih (key, t) (by simp) u]

/-- The client's equality is the server's comparison of stripped dumps, with
strict equality of scalars. -/
theorem stableEquals_eq : ∀ a b : Datum, stableEquals a b = Datum.equal (· == ·)
    (a.strip isVolatile) (b.strip isVolatile) := by
  refine Datum.induct ?_ ?_ ?_
  · intro s b
    cases b <;> rfl
  · intro items ih b
    cases b with
    | list right => exact sameArray_eq ih right
    | _ => rfl
  · intro members ih b
    cases b with
    | dict right =>
      rw [stableEquals, Datum.strip, Datum.strip, Datum.equal, sameRecord_eq ih right,
        Datum.stripMembers_eq, Datum.stripMembers_eq, List.length_map, List.length_map]
    | _ => rfl

theorem stableEqualsAt_iff {a b : Option Document} : stableEqualsAt a b = true ↔ Same a b := by
  cases a <;> cases b <;>
    simp [stableEqualsAt, Same, Document.equalAt, Datum.entryEqual, stableEquals_eq,
      stripVolatile, Document.strip]

/-! ## The store -/

/-- What the dashboard holds. -/
structure DashboardState where
  lifecycles : List (String × Document) := []
  enclosures : List (String × Document) := []
  providers : List (String × Document) := []
  activeWorktreeGroups : Document := .list []
  closeoutQueues : Document := .list []
  metrics : Option Document := none
  analytics : Option Document := none

/-- The rows of a collection. -/
def DashboardState.read (s : DashboardState) : Collection → List (String × Document)
  | .lifecycles => s.lifecycles
  | .enclosures => s.enclosures
  | .providers => s.providers

/-- The rows of a collection, replaced. -/
def DashboardState.write (s : DashboardState) (c : Collection)
    (rows : List (String × Document)) : DashboardState :=
  match c with
  | .lifecycles => { s with lifecycles := rows }
  | .enclosures => { s with enclosures := rows }
  | .providers => { s with providers := rows }

/-- What the store has at a part. -/
def DashboardState.at (s : DashboardState) : Part → Option Document
  | .row c ident => (s.read c).lookup ident
  | .activeWorktreeGroups => some s.activeWorktreeGroups
  | .closeoutQueues => some s.closeoutQueues
  | .metrics => s.metrics
  | .analytics => s.analytics

/-- The string a payload has under a key, as a property name. -/
def identOf (key : String) (d : Document) : String :=
  match (d.field key).map Document.datum with
  | some (.leaf (.str s)) => s
  | _ => "undefined"

/-! ## The reducers

A reducer answers `none` when the delta would not change the store. -/

/-- A row under its identifier. -/
def upsert (collection : List (String × Document)) (item : Document) (key : String) :
    List (String × Document) :=
  Keyed.set collection (identOf key item) item

/-- The rows without one. -/
def remove (collection : List (String × Document)) (id : String) : List (String × Document) :=
  Keyed.erase collection id

/-- The reducer of an upserted row. -/
def upsertReducer (c : Collection) (state : DashboardState) (node : Document) :
    Option DashboardState :=
  if stableEqualsAt ((state.read c).lookup (identOf c.key node)) (some node) then none
  else some (state.write c (upsert (state.read c) node c.key))

/-- The reducer of a removal marker. -/
def removedReducer (c : Collection) (state : DashboardState) (data : Document) :
    Option DashboardState :=
  let id := identOf c.key data
  if ((state.read c).lookup id).isSome then some (state.write c (remove (state.read c) id))
  else none

/-- The worktree groups, replaced where they differ. -/
def activeWorktreeGroupsReducer (state : DashboardState) (data : Document) :
    Option DashboardState :=
  match data.field "activeWorktreeGroups" with
  | none => none
  | some activeWorktreeGroups =>
    if stableEqualsAt (some state.activeWorktreeGroups) (some activeWorktreeGroups) then none
    else some { state with activeWorktreeGroups }

/-- The metrics, replaced where they differ. -/
def metricsReducer (state : DashboardState) (metrics : Document) : Option DashboardState :=
  if stableEqualsAt state.metrics (some metrics) then none
  else some { state with metrics := some metrics }

/-- The analytics, replaced where they differ. -/
def analyticsReducer (state : DashboardState) (analytics : Document) :
    Option DashboardState :=
  if stableEqualsAt state.analytics (some analytics) then none
  else some { state with analytics := some analytics }

/-- The reducer of an event. -/
def deltaReducers (event : String) : Option (DashboardState → Document → Option DashboardState) :=
  match event with
  | "lifecycle" => some (upsertReducer .lifecycles)
  | "lifecycle.removed" => some (removedReducer .lifecycles)
  | "enclosure" => some (upsertReducer .enclosures)
  | "enclosure.removed" => some (removedReducer .enclosures)
  | "provider" => some (upsertReducer .providers)
  | "provider.removed" => some (removedReducer .providers)
  | "activeWorktreeGroups" => some activeWorktreeGroupsReducer
  | "metrics" => some metricsReducer
  | "analytics" => some analyticsReducer
  | _ => none

/-- An event, reduced; none where nothing changes. -/
def reduceDelta (state : DashboardState) (event : String) (data : Document) :
    Option DashboardState :=
  match deltaReducers event with
  | none => none
  | some reducer => reducer state data

/-- The state behind an event. -/
def applyDelta (state : DashboardState) (event : String) (data : Document) : DashboardState :=
  (reduceDelta state event data).getD state

/-! ## The snapshot -/

/-- Reuse the current value when the incoming one is stable-equal. -/
def reuse (current : Option Document) (incoming : Document) : Document :=
  match current with
  | some current => if stableEquals current.datum incoming.datum then current else incoming
  | none => incoming

/-- One row of a merge: the rows merged so far, and whether one was new. -/
def mergeItem (existing : List (String × Document)) (key : String)
    (acc : List (String × Document) × Bool) (item : Document) :
    List (String × Document) × Bool :=
  let ident := identOf key item
  match existing.lookup ident with
  | some current =>
    if stableEquals current.datum item.datum then (Keyed.set acc.1 ident current, acc.2)
    else (Keyed.set acc.1 ident item, true)
  | none => (Keyed.set acc.1 ident item, true)

/-- An incoming collection merged into the one held: the existing map when
nothing changed. -/
def mergeKeyed (existing : List (String × Document)) (incoming : List Document)
    (key : String) : List (String × Document) :=
  let (next, changed) := incoming.foldl (mergeItem existing key) ([], false)
  if !changed && existing.length == incoming.length then existing else next

/-- The state behind a snapshot. -/
def applySnapshot (state : DashboardState) (projection : WorkspaceProjection) :
    DashboardState where
  lifecycles := mergeKeyed state.lifecycles (projection.lifecycles.map Row.dump) "id"
  enclosures := mergeKeyed state.enclosures (projection.enclosures.map Row.dump) "enclosure"
  providers := mergeKeyed state.providers (projection.providers.map Row.dump) "id"
  activeWorktreeGroups :=
    reuse (some state.activeWorktreeGroups) (strings projection.activeWorktreeGroups)
  closeoutQueues := reuse (some state.closeoutQueues) (asList projection.closeoutQueues)
  metrics := some (reuse state.metrics projection.metrics)
  analytics := some (reuse state.analytics projection.analytics)

/-! ## The channel -/

/-- The events the store listens to. -/
def stateEvents : List String :=
  ["lifecycle", "lifecycle.removed", "enclosure", "enclosure.removed", "provider",
    "provider.removed", "activeWorktreeGroups", "metrics", "analytics"]

/-- One event of the state channel, as the connection's listeners take it. -/
def receive (state : DashboardState) (e : DeltaEvent) : DashboardState :=
  match e.data with
  | .projection projection =>
    if e.event = "snapshot" then applySnapshot state projection else state
  | .value data => if e.event ∈ stateEvents then applyDelta state e.event data else state

/-! ## What an event does to the store

It brings the part it carries up to date and leaves every other part alone. -/

@[simp] theorem at_write_row (s : DashboardState) (c : Collection)
    (rows : List (String × Document)) (ident : String) :
    (s.write c rows).at (.row c ident) = rows.lookup ident := by
  cases c <;> rfl

theorem at_write_of_ne {s : DashboardState} {c : Collection} {part : Part}
    (h : ∀ ident, part ≠ .row c ident) (rows : List (String × Document)) :
    (s.write c rows).at part = s.at part := by
  cases part with
  | row c' ident =>
    have : c' ≠ c := by
      rintro rfl
      exact h ident rfl
    cases c <;> cases c' <;> first | rfl | exact absurd rfl this
  | _ => cases c <;> rfl

/-- `s'` has `d` at the part, ages apart, and is `s` everywhere else. -/
def Sets (s s' : DashboardState) (part : Part) (d : Option Document) : Prop :=
  Same (s'.at part) d ∧ ∀ other, other ≠ part → s'.at other = s.at other

theorem sets_of_same {s : DashboardState} {part : Part} {d : Option Document}
    (h : Same (s.at part) d) : Sets s s part d := ⟨h, fun _ _ => rfl⟩

theorem sets_write {s : DashboardState} {c : Collection} {rows : List (String × Document)}
    {ident : String} {d : Option Document} (hd : rows.lookup ident = d)
    (hrest : ∀ k, k ≠ ident → rows.lookup k = (s.read c).lookup k) :
    Sets s (s.write c rows) (.row c ident) d := by
  refine ⟨by rw [at_write_row, hd]; exact .refl _, fun other hne => ?_⟩
  by_cases h : ∃ k, other = .row c k
  · obtain ⟨k, rfl⟩ := h
    have hk : k ≠ ident := fun he => hne (by rw [he])
    rw [at_write_row, hrest k hk]
    rfl
  · exact at_write_of_ne (fun k hk => h ⟨k, hk⟩) rows

theorem upsertReducer_sets (c : Collection) (s : DashboardState) (node : Document) :
    Sets s ((upsertReducer c s node).getD s) (.row c (identOf c.key node)) (some node) := by
  unfold upsertReducer
  split
  · rename_i h
    exact sets_of_same (stableEqualsAt_iff.mp h)
  · refine sets_write ?_ fun k hk => ?_
    · rw [upsert, Keyed.lookup_set, if_pos rfl]
    · rw [upsert, Keyed.lookup_set, if_neg (Ne.symm hk)]

theorem removedReducer_sets (c : Collection) (s : DashboardState) (data : Document) :
    Sets s ((removedReducer c s data).getD s) (.row c (identOf c.key data)) none := by
  unfold removedReducer
  by_cases h : ((s.read c).lookup (identOf c.key data)).isSome = true
  · simp only [h, if_true, Option.getD_some]
    refine sets_write ?_ fun k hk => ?_
    · rw [remove, Keyed.lookup_erase, if_pos rfl]
    · rw [remove, Keyed.lookup_erase, if_neg hk]
  · simp only [h]
    rw [Option.not_isSome_iff_eq_none] at h
    exact sets_of_same (by rw [DashboardState.at, h]; exact .refl _)

theorem identOf_row {key : String} (item : Row key) : identOf key item.dump = item.ident := by
  simp [identOf, item.keyed, Document.str]

theorem identOf_marker (key ident : String) :
    identOf key (.entry key (.str ident)) = ident := by
  simp [identOf, Document.str]

theorem receive_value {s : DashboardState} {event : String} {d : Document}
    {reducer : DashboardState → Document → Option DashboardState}
    (hevent : event ∈ stateEvents) (hreducer : deltaReducers event = some reducer) :
    receive s ⟨event, .value d⟩ = (reducer s d).getD s := by
  simp [receive, hevent, applyDelta, reduceDelta, hreducer]

theorem receive_sets {cur : WorkspaceProjection} {e : DeltaEvent} {part : Part}
    (h : Carries cur e part) (s : DashboardState) : Sets s (receive s e) part (cur.at part) := by
  cases h with
  | upserted c h =>
    rename_i item
    have hat : cur.at (.row c item.ident) = some item.dump := by
      simp [WorkspaceProjection.at, h]
    have hset := upsertReducer_sets c s item.dump
    rw [identOf_row] at hset
    rw [hat]
    cases c <;> exact hset
  | removed c h =>
    rename_i ident
    have hset := removedReducer_sets c s (.entry c.key (.str ident))
    rw [identOf_marker] at hset
    rw [h]
    cases c <;> exact hset
  | activeWorktreeGroups =>
    rw [receive_value (by decide) rfl, activeWorktreeGroupsReducer, Document.field_entry]
    show Sets s (Option.getD (ite _ _ _) s) _ _
    split
    · rename_i h
      exact sets_of_same (stableEqualsAt_iff.mp h)
    · refine ⟨.refl _, fun other hne => ?_⟩
      cases other <;> first | rfl | exact absurd rfl hne
  | metrics =>
    rw [receive_value (by decide) rfl, metricsReducer]
    split
    · rename_i h
      exact sets_of_same (stableEqualsAt_iff.mp h)
    · refine ⟨.refl _, fun other hne => ?_⟩
      cases other <;> first | rfl | exact absurd rfl hne
  | analytics =>
    rw [receive_value (by decide) rfl, analyticsReducer]
    split
    · rename_i h
      exact sets_of_same (stableEqualsAt_iff.mp h)
    · refine ⟨.refl _, fun other hne => ?_⟩
      cases other <;> first | rfl | exact absurd rfl hne

/-! ## What a snapshot does to the store -/

/-- A merge after some rows: every identifier seen holds its last row, and
unless something changed each row was held. -/
structure Merged {key : String} (existing : List (String × Document))
    (rows : List (Row key)) (acc : List (String × Document) × Bool) : Prop where
  next : ∀ ident, Same (acc.1.lookup ident) (((byIdent rows).lookup ident).map Row.dump)
  held : acc.2 = false → ∀ item ∈ rows,
    ∃ current, existing.lookup item.ident = some current ∧ Same (some current) (some item.dump)

theorem lookup_byIdent_snoc {key : String} (rows : List (Row key)) (item : Row key)
    (ident : String) : (byIdent (rows ++ [item])).lookup ident =
      if item.ident = ident then some item else (byIdent rows).lookup ident := by
  simp only [byIdent, Keyed.dict, List.map_append, List.foldl_append, List.map_cons,
    List.map_nil, List.foldl_cons, List.foldl_nil, Keyed.lookup_set]

theorem merged_foldl {key : String} (existing : List (String × Document)) (rows : List (Row key)) :
    Merged existing rows ((rows.map Row.dump).foldl (mergeItem existing key) ([], false)) := by
  induction rows using List.reverseRecOn with
  | nil => exact ⟨fun _ => .refl _, by simp⟩
  | append_singleton rows item ih =>
    rw [List.map_append, List.foldl_append]
    generalize (rows.map Row.dump).foldl (mergeItem existing key) ([], false) = acc at ih
    have hset : ∀ d, Same (some d) (some item.dump) → ∀ ident,
        Same ((Keyed.set acc.1 item.ident d).lookup ident)
          (((byIdent (rows ++ [item])).lookup ident).map Row.dump) := by
      intro d hd ident
      rw [Keyed.lookup_set, lookup_byIdent_snoc]
      split
      · exact hd
      · exact ih.next ident
    simp only [List.map_cons, List.map_nil, List.foldl_cons, List.foldl_nil, mergeItem,
      identOf_row]
    cases hlook : existing.lookup item.ident with
    | none => exact ⟨hset _ (.refl _), by simp⟩
    | some current =>
      by_cases heq : stableEquals current.datum item.dump.datum = true
      · have hsame : Same (some current) (some item.dump) := stableEqualsAt_iff.mp heq
        simp only [heq, if_true]
        refine ⟨hset _ hsame, fun hacc it hit => ?_⟩
        rcases List.mem_append.mp hit with hit | hit
        · exact ih.held hacc it hit
        · obtain rfl := List.mem_singleton.mp hit
          exact ⟨current, hlook, hsame⟩
      · simp only [heq]
        exact ⟨hset _ (.refl _), by simp⟩

theorem mem_byIdent {key : String} {rows : List (Row key)} {ident : String} :
    ident ∈ (byIdent rows).map Prod.fst ↔ ident ∈ rows.map Row.ident := by
  induction rows using List.reverseRecOn with
  | nil => simp [byIdent, Keyed.dict]
  | append_singleton rows item ih =>
    rw [← Keyed.lookup_isSome_iff, lookup_byIdent_snoc]
    rw [← Keyed.lookup_isSome_iff] at ih
    by_cases h : item.ident = ident
    · simp [h]
    · simp [h, ih, Ne.symm h]

/-- A merge holds the incoming rows, whatever was held before: where it keeps
the existing map, distinct identifiers and as many rows leave no other row. -/
theorem mergeKeyed_same {key : String} {existing : List (String × Document)}
    {rows : List (Row key)} (hkeys : (existing.map Prod.fst).Nodup)
    (hrows : existing = [] ∨ (rows.map Row.ident).Nodup) (ident : String) :
    Same ((mergeKeyed existing (rows.map Row.dump) key).lookup ident)
      (((byIdent rows).lookup ident).map Row.dump) := by
  have hm := merged_foldl existing rows
  simp only [mergeKeyed]
  generalize (rows.map Row.dump).foldl (mergeItem existing key) ([], false) = acc at hm
  split
  · rename_i h
    simp only [Bool.and_eq_true, Bool.not_eq_true', beq_iff_eq, List.length_map] at h
    cases hlook : (byIdent rows).lookup ident with
    | some item =>
      have hmem := Keyed.mem_of_lookup hlook
      have hident : item.ident = ident := ident_of_mem_byIdent hmem
      obtain ⟨it, hit, he⟩ := List.mem_map.mp (Keyed.mem_of_mem_dict hmem)
      obtain rfl : it = item := (Prod.mk.inj he).2
      obtain ⟨current, hcurrent, hsame⟩ := hm.held h.1 it hit
      rw [← hident, hcurrent]
      exact hsame
    | none =>
      have hnot : ident ∉ rows.map Row.ident := by
        rw [← mem_byIdent, ← Keyed.lookup_isSome_iff, hlook]
        simp
      have hsub : rows.map Row.ident ⊆ existing.map Prod.fst := by
        intro k hk
        obtain ⟨item, hitem, rfl⟩ := List.mem_map.mp hk
        obtain ⟨current, hcurrent, -⟩ := hm.held h.1 item hitem
        exact List.mem_map.mpr ⟨_, Keyed.mem_of_lookup hcurrent, rfl⟩
      have hgone : ident ∉ existing.map Prod.fst := by
        rcases hrows with rfl | hrows
        · simp
        · have hperm := (hrows.subperm hsub).perm_of_length_le (by simp [h.2])
          exact fun hk => hnot (hperm.symm.subset hk)
      rw [← Keyed.lookup_isSome_iff, Option.not_isSome_iff_eq_none] at hgone
      rw [hgone]
      exact .refl _
  · exact hm.next ident

/-- The store has, at every part, what the projection has there. -/
def DashboardState.Agrees (s : DashboardState) (p : WorkspaceProjection) : Prop :=
  ∀ part, Same (s.at part) (p.at part)

theorem reuse_same (current : Option Document) (incoming : Document) :
    Same (some (reuse current incoming)) (some incoming) := by
  unfold reuse
  cases current with
  | none => exact .refl _
  | some current =>
    by_cases h : stableEquals current.datum incoming.datum = true
    · simp only [h, if_true]
      exact stableEqualsAt_iff.mp h
    · simp only [h]
      exact .refl _

/-- A store that takes a snapshot has what the projection has: a fresh store
always, one with content when no two rows of the snapshot share an
identifier. -/
theorem applySnapshot_agrees {s : DashboardState} {p : WorkspaceProjection}
    (hkeys : ∀ c, ((s.read c).map Prod.fst).Nodup)
    (hrows : ∀ c, s.read c = [] ∨ ((p.rows c).map Row.ident).Nodup) :
    (applySnapshot s p).Agrees p := by
  intro part
  cases part with
  | row c ident =>
    have h := mergeKeyed_same (hkeys c) (hrows c) ident
    cases c <;> exact h
  | activeWorktreeGroups => exact reuse_same _ _
  | closeoutQueues => exact reuse_same _ _
  | metrics => exact reuse_same _ _
  | analytics => exact reuse_same _ _

theorem fresh_applySnapshot (p : WorkspaceProjection) : (applySnapshot {} p).Agrees p :=
  applySnapshot_agrees (fun c => by cases c <;> simp [DashboardState.read])
    (fun c => .inl (by cases c <;> rfl))

/-! ## What the deltas of one publication do to the store -/

theorem receive_all_of_unchanged {prev cur : WorkspaceProjection} {part : Part}
    (h : ¬Changed prev cur part) (s : DashboardState) :
    ((diffProjection (some prev) cur).foldl receive s).at part = s.at part := by
  have hkeep : ∀ e ∈ diffProjection (some prev) cur, ∀ t : DashboardState,
      (receive t e).at part = t.at part := by
    intro e he t
    obtain ⟨other, hcarries, hother⟩ := diff_carries he
    exact (receive_sets hcarries t).2 part (fun heq => h (heq ▸ hother))
  generalize diffProjection (some prev) cur = es at hkeep
  induction es generalizing s with
  | nil => rfl
  | cons e es ih =>
    rw [List.foldl_cons, ih _ fun e' he' => hkeep e' (by simp [he']), hkeep e (by simp)]

/-- What is up to date stays so: an event leaves a part alone or sets it. -/
theorem receive_keeps {cur : WorkspaceProjection} {es : List DeltaEvent} {part : Part}
    (hes : ∀ e ∈ es, ∃ other, Carries cur e other) {s : DashboardState}
    (hs : Same (s.at part) (cur.at part)) :
    Same ((es.foldl receive s).at part) (cur.at part) := by
  induction es generalizing s with
  | nil => exact hs
  | cons e es ih =>
    rw [List.foldl_cons]
    apply ih (fun e' he' => hes e' (by simp [he']))
    obtain ⟨other, hother⟩ := hes e (by simp)
    have hsets := receive_sets hother s
    by_cases heq : part = other
    · rw [heq]
      exact hsets.1
    · rw [hsets.2 part heq]
      exact hs

theorem receive_all_of_changed {prev cur : WorkspaceProjection} {part : Part}
    (h : Changed prev cur part) (s : DashboardState) :
    Same (((diffProjection (some prev) cur).foldl receive s).at part) (cur.at part) := by
  obtain ⟨e, he, hpart⟩ := changed_carried h
  obtain ⟨before, after, hsplit⟩ := List.append_of_mem he
  rw [hsplit, List.foldl_append, List.foldl_cons]
  apply receive_keeps
  · intro e' he'
    obtain ⟨other, hother, -⟩ := diff_carries (hsplit ▸ List.mem_append_right _
      (List.mem_cons_of_mem _ he') : e' ∈ diffProjection (some prev) cur)
    exact ⟨other, hother⟩
  · exact (receive_sets hpart _).1

/-- A store that agreed with the previous projection agrees with the current
one after the deltas exactly where each part they do not carry is the same. -/
theorem receive_all_agrees_iff {prev cur : WorkspaceProjection} {s : DashboardState}
    (hs : s.Agrees prev) : ((diffProjection (some prev) cur).foldl receive s).Agrees cur ↔
      ∀ part, ¬Changed prev cur part → Same (prev.at part) (cur.at part) := by
  constructor
  · intro h part hpart
    have := h part
    rw [receive_all_of_unchanged hpart] at this
    exact (hs part).symm.trans this
  · intro h part
    by_cases hpart : Changed prev cur part
    · exact receive_all_of_changed hpart s
    · rw [receive_all_of_unchanged hpart]
      exact (hs part).trans (h part hpart)

end AgentsRemember.Projection
