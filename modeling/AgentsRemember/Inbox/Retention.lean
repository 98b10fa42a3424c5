import AgentsRemember.Inbox.Reclamation
import Mathlib.Data.String.Basic

/-!
# Inbox — Retention

What a compaction takes from the log, under any cap and any protected ids
(`controlplane/interaction_retention.py`). A terminal row goes when its window
is over, counted from the stamp that made it terminal, and a ladder-resolved
one at once. Past the cap the rows that retention keeps compete for what the
protected ones leave: pending rows first, in each class the newest by creation.
A second compaction at the same moment finds nothing to take.
-/

namespace AgentsRemember.Inbox

/-- A compaction under any cap and any protected ids. -/
def compactWithin (maxRows : Int) (log : Log) (age : String → Option Int)
    (protectedIds : List String) : Log :=
  let keepIds := inboxKeepIdsWithin maxRows age (foldOperatorInboxEntries log) protectedIds
  log.filter fun record => keepIds.contains record.id

theorem compact_eq (log : Log) (age : String → Option Int) (registered : List String) :
    compact log age registered =
      compactWithin inboxMaxCurrentRows log age
        (unregisteredExecutionReportIds (foldOperatorInboxEntries log) registered) := by
  unfold compact compactWithin
  dsimp only
  rw [inboxKeepIds_eq]

/-! ## The window of a marker -/

/-- The stamp that the window of a terminal row counts from. -/
def markerStamp (entry : OperatorInboxEntry) : String :=
  if entry.state = .consumed then (entry.consumedAt.filter (· ≠ "")).getD entry.createdAt
  else (entry.terminalAt.filter (· ≠ "")).getD entry.createdAt

/-- The window is not over; a stamp that cannot be read leaves it open. -/
def Unexpired (age : String → Option Int) (entry : OperatorInboxEntry) : Prop :=
  ∀ elapsed, age (markerStamp entry) = some elapsed → elapsed ≤ inboxTerminalMarkerRetention

theorem keepInboxEntry_iff {age : String → Option Int} {entry : OperatorInboxEntry} :
    keepInboxEntry age entry = true ↔
      entry.state ≠ .ladderResolved ∧ (entry.state = .pending ∨ Unexpired age entry) := by
  unfold keepInboxEntry Unexpired markerStamp
  dsimp only
  by_cases hladder : entry.state = .ladderResolved
  · simp [hladder]
  by_cases hpending : entry.state = .pending
  · simp [hpending]
  rw [if_neg hladder, if_neg hpending]
  by_cases hconsumed : entry.state = .consumed
  · rw [if_pos hconsumed, if_pos hconsumed]
    cases age ((entry.consumedAt.filter (· ≠ "")).getD entry.createdAt) <;> simp [hladder, hpending]
  · rw [if_neg hconsumed, if_neg hconsumed]
    cases age ((entry.terminalAt.filter (· ≠ "")).getD entry.createdAt) <;> simp [hladder, hpending]

/-! ## What the cap selects -/

/-- Of two rows that are sorted, the one that is cut off is the older. -/
theorem createdAt_le_of_take {entries : List OperatorInboxEntry} {n : Nat}
    {cut taken : OperatorInboxEntry} (hmem : cut ∈ entries)
    (hcut : cut ∉ (newestFirst entries).take n) (htaken : taken ∈ (newestFirst entries).take n) :
    cut.createdAt ≤ taken.createdAt := by
  have hsorted : (newestFirst entries).Pairwise fun a b => b.createdAt ≤ a.createdAt :=
    haveI : Std.Total fun a b : OperatorInboxEntry => b.createdAt ≤ a.createdAt :=
      ⟨fun a b => le_total b.createdAt a.createdAt⟩
    haveI : IsTrans OperatorInboxEntry fun a b => b.createdAt ≤ a.createdAt :=
      ⟨fun _ _ _ hab hbc => hbc.trans hab⟩
    List.pairwise_insertionSort _ entries
  rw [← List.take_append_drop n (newestFirst entries), List.pairwise_append] at hsorted
  have hsplit : cut ∈ (newestFirst entries).take n ++ (newestFirst entries).drop n := by
    rw [List.take_append_drop, newestFirst, List.mem_insertionSort]
    exact hmem
  exact hsorted.2.2 taken htaken cut ((List.mem_append.mp hsplit).resolve_left hcut)

section select
variable {available : Nat} {others : List OperatorInboxEntry}

theorem length_selectedRows_of_le (h : available ≤ others.length) :
    (selectedRows available others).length = available := by
  have hsplit : others.length =
      (others.filter fun entry => entry.state = .pending).length +
        (others.filter fun entry => entry.state ≠ .pending).length := by
    rw [List.length_eq_length_filter_add fun entry : OperatorInboxEntry => entry.state = .pending]
    congr 2
    apply List.filter_congr
    intro entry _
    simp
  unfold selectedRows newestFirst
  dsimp only
  rw [List.length_append, List.length_take, List.length_take, List.length_insertionSort,
    List.length_insertionSort]
  omega

theorem mem_selectedRows_pending {entry : OperatorInboxEntry} (h : entry.state = .pending) :
    entry ∈ selectedRows available others ↔
      entry ∈ (newestFirst (others.filter fun entry => entry.state = .pending)).take available := by
  unfold selectedRows
  dsimp only
  rw [List.mem_append]
  refine ⟨fun hmem => hmem.resolve_right fun hterminal => ?_, .inl⟩
  have hmem := List.mem_of_mem_take hterminal
  rw [newestFirst, List.mem_insertionSort, List.mem_filter] at hmem
  simp [h] at hmem

theorem mem_selectedRows_terminal {entry : OperatorInboxEntry} (h : entry.Terminal) :
    entry ∈ selectedRows available others ↔
      entry ∈ (newestFirst (others.filter fun entry => entry.state ≠ .pending)).take (available -
        ((newestFirst (others.filter fun entry => entry.state = .pending)).take
          available).length) := by
  unfold selectedRows
  dsimp only
  rw [List.mem_append]
  refine ⟨fun hmem => hmem.resolve_left fun hpending => ?_, .inr⟩
  have hmem := List.mem_of_mem_take hpending
  rw [newestFirst, List.mem_insertionSort, List.mem_filter] at hmem
  exact h (by simpa using hmem.2)

/-- A pending row is cut off only where no terminal one is selected. -/
theorem not_mem_selectedRows_of_pending {cut other : OperatorInboxEntry} (hmem : cut ∈ others)
    (hpending : cut.state = .pending) (hcut : cut ∉ selectedRows available others)
    (hterminal : other.Terminal) : other ∉ selectedRows available others := by
  rw [mem_selectedRows_pending hpending] at hcut
  rw [mem_selectedRows_terminal hterminal]
  set pending := newestFirst (others.filter fun entry => entry.state = .pending) with hsorted
  have hin : cut ∈ pending := by
    rw [hsorted, newestFirst, List.mem_insertionSort, List.mem_filter]
    exact ⟨hmem, by simpa using hpending⟩
  have hshort : available < pending.length := by
    by_contra hlong
    rw [List.take_of_length_le (by omega)] at hcut
    exact hcut hin
  have hfull : available - (pending.take available).length = 0 := by
    rw [List.length_take]
    omega
  rw [hfull, List.take_zero]
  exact List.not_mem_nil

theorem createdAt_le_of_selectedRows {cut taken : OperatorInboxEntry} (hcutmem : cut ∈ others)
    (hclass : cut.state = .pending ↔ taken.state = .pending)
    (hcut : cut ∉ selectedRows available others) (htaken : taken ∈ selectedRows available others) :
    cut.createdAt ≤ taken.createdAt := by
  by_cases hpending : taken.state = .pending
  · rw [mem_selectedRows_pending hpending] at htaken
    rw [mem_selectedRows_pending (hclass.mpr hpending)] at hcut
    refine createdAt_le_of_take ?_ hcut htaken
    exact List.mem_filter.mpr ⟨hcutmem, by simpa using hclass.mpr hpending⟩
  · have hterminal : cut.Terminal := fun h => hpending (hclass.mp h)
    rw [mem_selectedRows_terminal hpending] at htaken
    rw [mem_selectedRows_terminal hterminal] at hcut
    refine createdAt_le_of_take ?_ hcut htaken
    exact List.mem_filter.mpr ⟨hcutmem, by simpa [OperatorInboxEntry.Terminal] using hterminal⟩

/-- Rows with ids of their own are selected once. -/
theorem nodup_selectedRows (h : (others.map (·.id)).Nodup) :
    ((selectedRows available others).map (·.id)).Nodup := by
  have hrows : others.Nodup := h.of_map _
  have hsorted : ∀ p : OperatorInboxEntry → Bool, ∀ n : Nat,
      ((newestFirst (others.filter p)).take n).Nodup := by
    intro p n
    refine List.Nodup.sublist (List.take_sublist _ _) ?_
    exact (List.perm_insertionSort _ _).nodup_iff.mpr (hrows.filter _)
  have hselected : (selectedRows available others).Nodup := by
    unfold selectedRows
    dsimp only
    rw [List.nodup_append]
    refine ⟨hsorted _ _, hsorted _ _, ?_⟩
    rintro entry hpending other hterminal rfl
    have hp := List.mem_of_mem_take hpending
    have ht := List.mem_of_mem_take hterminal
    rw [newestFirst, List.mem_insertionSort, List.mem_filter] at hp ht
    simp_all
  refine hselected.map_on fun row hrow other hother hid => ?_
  exact List.inj_on_of_nodup_map h (mem_of_mem_selectedRows hrow) (mem_of_mem_selectedRows hother)
    hid

end select
/-! ## The ids that are kept -/

/-- The fold of the rows that stay is what stays of the fold. -/
theorem foldOperatorInboxEntries_filter (p : String → Bool) (log : Log) :
    foldOperatorInboxEntries (log.filter fun record => p record.id) =
      (foldOperatorInboxEntries log).filter fun e => p e.1 := by
  induction log using List.reverseRecOn with
  | nil => rfl
  | append_singleton log entry ih =>
    rw [List.filter_append, foldOperatorInboxEntries_snoc]
    have hset := Keyed.filter_set p (foldOperatorInboxEntries log) entry.id entry
    have hlookup := Keyed.lookup_filter_key p (foldOperatorInboxEntries log) entry.id
    by_cases hkeep : p entry.id = true
    · rw [List.filter_cons_of_pos (by exact hkeep), List.filter_nil, foldOperatorInboxEntries_snoc, ih]
      rw [if_pos hkeep] at hset hlookup
      unfold foldEntry
      rw [hlookup]
      cases (foldOperatorInboxEntries log).lookup entry.id with
      | none => exact hset.symm
      | some previous =>
        dsimp only
        split
        · rfl
        · exact hset.symm
    · rw [List.filter_cons_of_neg (by exact hkeep), List.filter_nil, List.append_nil, ih]
      rw [if_neg hkeep] at hset
      unfold foldEntry
      cases (foldOperatorInboxEntries log).lookup entry.id with
      | none => exact hset.symm
      | some previous =>
        dsimp only
        split
        · rfl
        · exact hset.symm

/-- The rows of a log, one for each id. -/
def rowsOf (log : Log) : List OperatorInboxEntry := (foldOperatorInboxEntries log).map Prod.snd

theorem ids_rowsOf (log : Log) :
    (rowsOf log).map (·.id) = (foldOperatorInboxEntries log).map Prod.fst := by
  rw [rowsOf, List.map_map]
  exact List.map_congr_left (keyedById_fold log)

theorem rowsOf_inj {log : Log} {row other : OperatorInboxEntry} (hrow : row ∈ rowsOf log)
    (hother : other ∈ rowsOf log) (hid : row.id = other.id) : row = other := by
  have hnodup := nodup_fold log
  rw [← ids_rowsOf] at hnodup
  exact List.inj_on_of_nodup_map hnodup hrow hother hid

section keep
variable (maxRows : Int) (age : String → Option Int) (log : Log) (protectedIds : List String)

/-- The rows that retention lets stay before the cap. -/
def keptRows : List OperatorInboxEntry :=
  retainedRows age (foldOperatorInboxEntries log) protectedIds

/-- The kept rows that no cap may take. -/
def protectedRows : List OperatorInboxEntry :=
  (keptRows age log protectedIds).filter fun entry => protectedIds.contains entry.id

/-- The kept rows that compete for what is left. -/
def otherRows : List OperatorInboxEntry :=
  (keptRows age log protectedIds).filter fun entry => !protectedIds.contains entry.id

/-- The places the protected rows leave. -/
def availableRows : Nat :=
  (max 0 (maxRows - (protectedRows age log protectedIds).length)).toNat

/-- What a compaction keeps. -/
def keepIds : List String :=
  inboxKeepIdsWithin maxRows age (foldOperatorInboxEntries log) protectedIds

theorem keepIds_eq : keepIds maxRows age log protectedIds =
    if maxRows < (keptRows age log protectedIds).length then
      (protectedRows age log protectedIds ++
        selectedRows (availableRows maxRows age log protectedIds)
          (otherRows age log protectedIds)).map (·.id)
    else (keptRows age log protectedIds).map (·.id) := rfl

theorem mem_keptRows {row : OperatorInboxEntry} : row ∈ keptRows age log protectedIds ↔
    row ∈ rowsOf log ∧ (row.id ∈ protectedIds ∨ keepInboxEntry age row = true) := by
  unfold keptRows retainedRows rowsOf
  rw [List.mem_filter]
  simp

theorem mem_protectedRows {row : OperatorInboxEntry} :
    row ∈ protectedRows age log protectedIds ↔ row ∈ rowsOf log ∧ row.id ∈ protectedIds := by
  unfold protectedRows
  rw [List.mem_filter, mem_keptRows, List.contains_iff_mem]
  exact ⟨fun h => ⟨h.1.1, h.2⟩, fun h => ⟨⟨h.1, .inl h.2⟩, h.2⟩⟩

theorem mem_otherRows {row : OperatorInboxEntry} : row ∈ otherRows age log protectedIds ↔
    row ∈ rowsOf log ∧ row.id ∉ protectedIds ∧ keepInboxEntry age row = true := by
  unfold otherRows
  rw [List.mem_filter, mem_keptRows]
  have hcontains : (!protectedIds.contains row.id) = true ↔ row.id ∉ protectedIds := by simp
  rw [hcontains]
  exact ⟨fun h => ⟨h.1.1, h.2, h.1.2.resolve_left h.2⟩, fun h => ⟨⟨h.1, .inr h.2.2⟩, h.2.1⟩⟩

theorem length_keptRows : (keptRows age log protectedIds).length =
    (protectedRows age log protectedIds).length + (otherRows age log protectedIds).length :=
  List.length_eq_length_filter_add _

/-- The rows whose ids are kept. -/
theorem mem_keepIds_iff {row : OperatorInboxEntry} (hrow : row ∈ rowsOf log) :
    row.id ∈ keepIds maxRows age log protectedIds ↔
      row.id ∈ protectedIds ∨ keepInboxEntry age row = true ∧
        (((keptRows age log protectedIds).length : Int) ≤ maxRows ∨
          row ∈ selectedRows (availableRows maxRows age log protectedIds)
            (otherRows age log protectedIds)) := by
  have hmem : ∀ {rows : List OperatorInboxEntry}, (∀ r ∈ rows, r ∈ rowsOf log) →
      (row.id ∈ rows.map (·.id) ↔ row ∈ rows) := by
    intro rows hrows
    refine ⟨fun h => ?_, fun h => List.mem_map_of_mem h⟩
    obtain ⟨other, hother, hid⟩ := List.mem_map.mp h
    rw [← rowsOf_inj (hrows other hother) hrow hid]
    exact hother
  have hselected : ∀ r ∈ selectedRows (availableRows maxRows age log protectedIds)
      (otherRows age log protectedIds), r ∈ otherRows age log protectedIds :=
    fun r hr => mem_of_mem_selectedRows hr
  rw [keepIds_eq]
  split
  · rename_i hlong
    rw [hmem, List.mem_append, mem_protectedRows]
    · constructor
      · rintro (h | h)
        · exact .inl h.2
        · exact .inr ⟨((mem_otherRows age log protectedIds).mp (hselected row h)).2.2, .inr h⟩
      · rintro (h | ⟨-, h | h⟩)
        · exact .inl ⟨hrow, h⟩
        · omega
        · exact .inr h
    · intro r hr
      rcases List.mem_append.mp hr with hr | hr
      · exact ((mem_protectedRows age log protectedIds).mp hr).1
      · exact ((mem_otherRows age log protectedIds).mp (hselected r hr)).1
  · rename_i hshort
    rw [hmem fun r hr => ((mem_keptRows age log protectedIds).mp hr).1, mem_keptRows]
    constructor
    · rintro ⟨-, h | h⟩
      · exact .inl h
      · exact .inr ⟨h, .inl (by omega)⟩
    · rintro (h | ⟨h, -⟩)
      · exact ⟨hrow, .inl h⟩
      · exact ⟨hrow, .inr h⟩

theorem keepIds_subset {id : String} (h : id ∈ keepIds maxRows age log protectedIds) :
    ∃ row ∈ rowsOf log, row.id = id := by
  obtain ⟨row, hrow, hid⟩ := mem_retained_of_mem_keepIds h
  exact ⟨row, ((mem_keptRows age log protectedIds).mp hrow).1, hid⟩

theorem nodup_keptRows : ((keptRows age log protectedIds).map (·.id)).Nodup := by
  have hnodup := nodup_fold log
  rw [← ids_rowsOf] at hnodup
  exact hnodup.sublist (List.filter_sublist.map _)

/-- Protected and selected rows have ids of their own. -/
theorem nodup_keepIds : (keepIds maxRows age log protectedIds).Nodup := by
  rw [keepIds_eq]
  split
  · rw [List.map_append, List.nodup_append]
    have hkept := nodup_keptRows age log protectedIds
    refine ⟨hkept.sublist (List.filter_sublist.map _), ?_, ?_⟩
    · have hother : ((otherRows age log protectedIds).map (·.id)).Nodup :=
        hkept.sublist (List.filter_sublist.map _)
      exact nodup_selectedRows hother
    · rintro id hprotected other hother rfl
      obtain ⟨row, hrow, rfl⟩ := List.mem_map.mp hprotected
      obtain ⟨row', hrow', hid⟩ := List.mem_map.mp hother
      have hnot := ((mem_otherRows age log protectedIds).mp (mem_of_mem_selectedRows hrow')).2.1
      rw [hid] at hnot
      exact hnot ((mem_protectedRows age log protectedIds).mp hrow).2
  · exact nodup_keptRows age log protectedIds

/-! ## The order of eviction -/

/-- What a compaction under a cap may take, in what order, and what it leaves. -/
structure Retains (log' : Log) : Prop where
  protect : ∀ row ∈ rowsOf log, row.id ∈ protectedIds → row.id ∈ log'.map (·.id)
  bounded : ((log'.map (·.id)).dedup.length : Int) ≤
    max maxRows (((rowsOf log).map (·.id)).filter (protectedIds.contains ·)).length
  unexpired : ∀ row ∈ rowsOf log, row.Terminal → row.state ≠ .ladderResolved →
    Unexpired age row → row.id ∉ log'.map (·.id) → maxRows ≤ (log'.map (·.id)).dedup.length
  pendingLast : ∀ row ∈ rowsOf log, row.state = .pending → row.id ∉ log'.map (·.id) →
    ∀ other ∈ rowsOf log, other.Terminal → other.id ∉ protectedIds → other.id ∉ log'.map (·.id)
  oldestFirst : ∀ row ∈ rowsOf log, keepInboxEntry age row = true → row.id ∉ log'.map (·.id) →
    ∀ other ∈ rowsOf log, (row.state = .pending ↔ other.state = .pending) →
      other.id ∉ protectedIds → other.id ∈ log'.map (·.id) → row.createdAt ≤ other.createdAt
  fold : ∀ id ∈ log'.map (·.id), rowOf log' id = rowOf log id
  settled : compactWithin maxRows log' age protectedIds = log'

theorem mem_ids_compactWithin {id : String} :
    id ∈ (compactWithin maxRows log age protectedIds).map (·.id) ↔
      id ∈ keepIds maxRows age log protectedIds := by
  rw [List.mem_map]
  unfold compactWithin
  constructor
  · rintro ⟨record, hrecord, rfl⟩
    simpa [keepIds] using (List.mem_filter.mp hrecord).2
  · intro hid
    obtain ⟨row, hrow, rfl⟩ := keepIds_subset maxRows age log protectedIds hid
    obtain ⟨e, he, rfl⟩ := List.mem_map.mp hrow
    have hlog := mem_of_rowOf (Keyed.lookup_of_mem (nodup_fold log) he)
    exact ⟨e.2, List.mem_filter.mpr ⟨hlog.1, by simpa [keepIds] using hid⟩, rfl⟩

theorem length_ids_compactWithin :
    ((compactWithin maxRows log age protectedIds).map (·.id)).dedup.length =
      (keepIds maxRows age log protectedIds).length := by
  apply List.Perm.length_eq
  rw [List.perm_ext_iff_of_nodup (List.nodup_dedup _)
    (nodup_keepIds maxRows age log protectedIds)]
  intro id
  rw [List.mem_dedup, mem_ids_compactWithin]

theorem length_protectedRows :
    (protectedRows age log protectedIds).length =
      (((rowsOf log).map (·.id)).filter (protectedIds.contains ·)).length := by
  have hrows : protectedRows age log protectedIds =
      (rowsOf log).filter fun entry => protectedIds.contains entry.id := by
    unfold protectedRows keptRows retainedRows rowsOf
    rw [List.filter_filter]
    apply List.filter_congr
    intro entry _
    cases protectedIds.contains entry.id <;> rfl
  rw [hrows, List.filter_map, List.length_map]
  rfl

/-- Past the cap what is kept fills the cap, or is what is protected. -/
theorem length_keepIds (hlong : maxRows < (keptRows age log protectedIds).length) :
    ((keepIds maxRows age log protectedIds).length : Int) =
      max maxRows (protectedRows age log protectedIds).length := by
  have hsplit := length_keptRows age log protectedIds
  have havailable : availableRows maxRows age log protectedIds ≤
      (otherRows age log protectedIds).length := by
    unfold availableRows
    omega
  rw [keepIds_eq, if_pos hlong, List.length_map, List.length_append,
    length_selectedRows_of_le havailable]
  unfold availableRows
  omega

/-- A row that retention keeps is dropped past the cap only. -/
theorem long_of_not_mem {row : OperatorInboxEntry} (hrow : row ∈ rowsOf log)
    (hkeep : keepInboxEntry age row = true)
    (hdrop : row.id ∉ keepIds maxRows age log protectedIds) :
    maxRows < (keptRows age log protectedIds).length ∧
      row ∈ otherRows age log protectedIds ∧
      row ∉ selectedRows (availableRows maxRows age log protectedIds)
        (otherRows age log protectedIds) := by
  rw [mem_keepIds_iff maxRows age log protectedIds hrow, not_or, not_and] at hdrop
  have hcap := hdrop.2 hkeep
  rw [not_or] at hcap
  exact ⟨by omega, (mem_otherRows age log protectedIds).mpr ⟨hrow, hdrop.1, hkeep⟩, hcap.2⟩

/-- A row that is neither protected nor dropped past the cap was selected. -/
theorem selected_of_mem {row : OperatorInboxEntry} (hrow : row ∈ rowsOf log)
    (hlong : maxRows < (keptRows age log protectedIds).length)
    (hnot : row.id ∉ protectedIds) (hkept : row.id ∈ keepIds maxRows age log protectedIds) :
    row ∈ selectedRows (availableRows maxRows age log protectedIds)
      (otherRows age log protectedIds) := by
  rw [mem_keepIds_iff maxRows age log protectedIds hrow] at hkept
  exact ((hkept.resolve_left hnot).2).resolve_left (by omega)

/-- A compaction takes nothing exactly when each row is protected or retained, and
they are within the cap or all protected. -/
theorem compactWithin_eq_self_iff : compactWithin maxRows log age protectedIds = log ↔
    (∀ e ∈ foldOperatorInboxEntries log, e.1 ∈ protectedIds ∨ keepInboxEntry age e.2 = true) ∧
      ((foldOperatorInboxEntries log).length ≤ maxRows ∨
        ∀ e ∈ foldOperatorInboxEntries log, e.1 ∈ protectedIds) := by
  rw [← all_mem_inboxKeepIds_iff (keyedById_fold log) (nodup_fold log)]
  unfold compactWithin
  rw [List.filter_eq_self]
  constructor
  · intro h e he
    have hid : e.1 ∈ log.map (·.id) := (mem_keys_fold log).mp (List.mem_map_of_mem he)
    obtain ⟨record, hrecord, hid⟩ := List.mem_map.mp hid
    rw [← hid]
    exact List.contains_iff_mem.mp (h record hrecord)
  · intro h record hrecord
    have hid : record.id ∈ (foldOperatorInboxEntries log).map Prod.fst :=
      (mem_keys_fold log).mpr (List.mem_map_of_mem hrecord)
    obtain ⟨e, he, hid⟩ := List.mem_map.mp hid
    rw [← hid]
    exact List.contains_iff_mem.mpr (h e he)

theorem compactWithin_settled :
    compactWithin maxRows (compactWithin maxRows log age protectedIds) age protectedIds =
      compactWithin maxRows log age protectedIds := by
  set keep := keepIds maxRows age log protectedIds with hkeep
  set log' := compactWithin maxRows log age protectedIds with hlog'
  have hfold : foldOperatorInboxEntries log' =
      (foldOperatorInboxEntries log).filter fun e => keep.contains e.1 :=
    foldOperatorInboxEntries_filter (keep.contains ·) log
  have hrow : ∀ e ∈ foldOperatorInboxEntries log',
      e.2 ∈ rowsOf log ∧ e.2.id = e.1 ∧ e.2.id ∈ keep := by
    intro e he
    rw [hfold, List.mem_filter, List.contains_iff_mem] at he
    have hid := keyedById_fold log e he.1
    exact ⟨List.mem_map_of_mem he.1, hid, by rw [hid]; exact he.2⟩
  rw [compactWithin_eq_self_iff]
  refine ⟨fun e he => ?_, ?_⟩
  · obtain ⟨hin, hid, hkept⟩ := hrow e he
    rw [hkeep, mem_keepIds_iff maxRows age log protectedIds hin] at hkept
    rw [← hid]
    exact hkept.imp_right And.left
  · -- the log has as many rows as were kept, so only a cap that was passed matters
    have hlength : (foldOperatorInboxEntries log').length = keep.length := by
      have hperm : ((foldOperatorInboxEntries log').map Prod.fst).Perm keep := by
        rw [List.perm_ext_iff_of_nodup (nodup_fold log')
          (nodup_keepIds maxRows age log protectedIds)]
        intro id
        rw [mem_keys_fold, hlog', mem_ids_compactWithin]
      rw [← hperm.length_eq, List.length_map]
    by_cases hlong : maxRows < (keptRows age log protectedIds).length
    · rw [hlength, length_keepIds maxRows age log protectedIds hlong]
      rcases le_or_gt ((protectedRows age log protectedIds).length : Int) maxRows with hle | hgt
      · exact .inl (by omega)
      · -- the protected rows alone are past the cap, and nothing else is kept
        right
        intro e he
        obtain ⟨hin, hid, hkept⟩ := hrow e he
        by_contra hnot
        rw [← hid] at hnot
        have hselected := selected_of_mem maxRows age log protectedIds hin hlong hnot hkept
        have hnone := length_selectedRows (availableRows maxRows age log protectedIds)
          (otherRows age log protectedIds)
        have hzero : availableRows maxRows age log protectedIds = 0 := by
          unfold availableRows
          omega
        rw [hzero, Nat.le_zero, List.length_eq_zero_iff] at hnone
        rw [hzero, hnone] at hselected
        cases hselected
    · left
      have hkept : keep.length = (keptRows age log protectedIds).length := by
        rw [hkeep, keepIds_eq, if_neg hlong, List.length_map]
      omega

/-- The ids that the store protects are read off what is left as off the log. -/
theorem compact_settled (registered : List String) :
    compact (compact log age registered) age registered = compact log age registered := by
  rw [compact_eq (compact log age registered), compact_eq log]
  set before := unregisteredExecutionReportIds (foldOperatorInboxEntries log) registered
    with hbefore
  set log' := compactWithin inboxMaxCurrentRows log age before with hlog'
  have hsame : ∀ e ∈ foldOperatorInboxEntries log',
      (e.1 ∈ unregisteredExecutionReportIds (foldOperatorInboxEntries log') registered ↔
        e.1 ∈ before) := by
    intro e he
    have hfold : foldOperatorInboxEntries log' = (foldOperatorInboxEntries log).filter fun e =>
        (keepIds inboxMaxCurrentRows age log before).contains e.1 :=
      foldOperatorInboxEntries_filter _ log
    have hmem : e ∈ foldOperatorInboxEntries log := by
      rw [hfold] at he
      exact (List.mem_filter.mp he).1
    rw [mem_unregisteredExecutionReportIds (keyedById_fold log') (nodup_fold log') registered he,
      hbefore,
      mem_unregisteredExecutionReportIds (keyedById_fold log) (nodup_fold log) registered hmem]
  obtain ⟨hretained, hcap⟩ := (compactWithin_eq_self_iff _ _ _ _).mp
    (compactWithin_settled inboxMaxCurrentRows age log before)
  refine (compactWithin_eq_self_iff _ _ _ _).mpr ⟨fun e he => ?_, hcap.imp_right fun h e he => ?_⟩
  · exact (hretained e he).imp_left (hsame e he).mpr
  · exact (hsame e he).mpr (h e he)

theorem compactWithin_retains :
    Retains maxRows age log protectedIds (compactWithin maxRows log age protectedIds) := by
  have hids := fun id => @mem_ids_compactWithin maxRows age log protectedIds id
  have hlength := length_ids_compactWithin maxRows age log protectedIds
  constructor
  case protect =>
    intro row hrow hprotected
    rw [hids, mem_keepIds_iff maxRows age log protectedIds hrow]
    exact .inl hprotected
  case bounded =>
    rw [hlength, ← length_protectedRows age log protectedIds]
    by_cases hlong : maxRows < (keptRows age log protectedIds).length
    · exact (length_keepIds maxRows age log protectedIds hlong).le
    · rw [keepIds_eq, if_neg hlong, List.length_map]
      omega
  case unexpired =>
    intro row hrow hterminal hladder hunexpired hdrop
    rw [hids] at hdrop
    have hkeep := keepInboxEntry_iff.mpr ⟨hladder, .inr hunexpired⟩
    have hlong := (long_of_not_mem maxRows age log protectedIds hrow hkeep hdrop).1
    rw [hlength, length_keepIds maxRows age log protectedIds hlong]
    exact le_max_left _ _
  case pendingLast =>
    intro row hrow hpending hdrop other hother hterminal hnot
    rw [hids] at hdrop ⊢
    have hladder : row.state ≠ .ladderResolved := by
      rw [hpending]
      decide
    have hkeep : keepInboxEntry age row = true :=
      keepInboxEntry_iff.mpr ⟨hladder, .inl hpending⟩
    obtain ⟨hlong, hmem, hcut⟩ := long_of_not_mem maxRows age log protectedIds hrow hkeep hdrop
    intro hkept
    exact not_mem_selectedRows_of_pending hmem hpending hcut hterminal
      (selected_of_mem maxRows age log protectedIds hother hlong hnot hkept)
  case oldestFirst =>
    intro row hrow hkeep hdrop other hother hclass hnot hkept
    rw [hids] at hdrop hkept
    obtain ⟨hlong, hmem, hcut⟩ := long_of_not_mem maxRows age log protectedIds hrow hkeep hdrop
    exact createdAt_le_of_selectedRows hmem hclass hcut
      (selected_of_mem maxRows age log protectedIds hother hlong hnot hkept)
  case fold =>
    intro id hid
    rw [hids] at hid
    have hrow := rowOf_filter ((keepIds maxRows age log protectedIds).contains ·) log id
    rw [if_pos (List.contains_iff_mem.mpr hid)] at hrow
    exact hrow
  case settled => exact compactWithin_settled maxRows age log protectedIds

/-- **Retention is bounded and evicts in order**, under any cap; the store's own
compaction is the one under its cap and the reports it protects, and it settles
the log as well. -/
theorem retention_bounded_in_order :
    Retains maxRows age log protectedIds (compactWithin maxRows log age protectedIds) ∧
      ∀ registered, Retains inboxMaxCurrentRows age log
          (unregisteredExecutionReportIds (foldOperatorInboxEntries log) registered)
          (compact log age registered) ∧
        compact (compact log age registered) age registered = compact log age registered := by
  refine ⟨compactWithin_retains maxRows age log protectedIds, fun registered => ⟨?_, ?_⟩⟩
  · rw [compact_eq]
    exact compactWithin_retains _ age log _
  · exact compact_settled age log registered

end keep

/-! ## The stamps that retention does not go by -/

/-- A landed row. -/
def landedMarker (id createdAt terminalAt : String) : OperatorInboxEntry where
  id := id
  ts := terminalAt
  state := .landed
  ask := "ask"
  response := "response"
  createdAt := createdAt
  createdBy := "agent"
  createdVia := .cli
  terminalAt := some terminalAt

/-- How old the stamps below are at the start of the fifth of January. -/
def ageOnTheFifth (stamp : String) : Option Int :=
  ([("2026-01-01T00:00:00+00:00", 96), ("2026-01-02T00:00:00+00:00", 72),
    ("2026-01-03T12:00:00+00:00", 36), ("2026-01-04T00:00:00+00:00", 24)].lookup stamp).map
    fun hours => hours * 60 * 60 * second

/-- A ladder-resolved row goes far below the cap with its window open; the row that
was created first stays where a later one has expired; and at the cap the row that
became terminal last goes. -/
theorem marker_order_differs :
    (∃ ladder : OperatorInboxEntry, ladder.state = .ladderResolved ∧
      ageOnTheFifth (markerStamp ladder) = some (24 * 60 * 60 * second) ∧
        compactWithin 500 [ladder] ageOnTheFifth [] = []) ∧
    (let early := landedMarker "a" "2026-01-01T00:00:00+00:00" "2026-01-04T00:00:00+00:00"
      let late := landedMarker "b" "2026-01-02T00:00:00+00:00" "2026-01-02T00:00:00+00:00"
      early.createdAt < late.createdAt ∧
        compactWithin 500 [early, late] ageOnTheFifth [] = [early]) ∧
    (let early := landedMarker "a" "2026-01-01T00:00:00+00:00" "2026-01-04T00:00:00+00:00"
      let late := landedMarker "b" "2026-01-02T00:00:00+00:00" "2026-01-03T12:00:00+00:00"
      late.terminalAt.get! < early.terminalAt.get! ∧
        compactWithin 1 [early, late] ageOnTheFifth [] = [late]) := by
  refine ⟨⟨{ landedMarker "a" "2026-01-01T00:00:00+00:00" "2026-01-04T00:00:00+00:00" with
    state := .ladderResolved }, ?_, ?_, ?_⟩, ⟨?_, ?_⟩, ⟨?_, ?_⟩⟩ <;> decide

end AgentsRemember.Inbox
