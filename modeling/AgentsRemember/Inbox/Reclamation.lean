import AgentsRemember.Inbox.Store
import Mathlib.Data.List.Dedup

/-!
# Inbox — Reclamation

What the sweep's reclamation says it did, against the log it leaves. The rows
it resolves are in its hands only, unless the log is written, and the log is
written only if a row goes. A resolved row goes by itself, except for a turn
report whose proof is not durable yet: that one stays, and then the log has it
pending (`reconcileAndCompact_tells_iff`).
-/

namespace AgentsRemember.Inbox

/-- The log that is left, and what the sweep is told. -/
structure Reclamation where
  log : Log
  removed : Nat
  current : InboxFold
  resolved : Log

/-- `reconcileAndCompact` with everything it returns; the resolver sees the fold. -/
def reconcileAndCompactReport (log : Log) (age : String → Option Int) (now : String)
    (reconcile : InboxFold → List (String × String)) (registeredExecutionIds : List String) :
    Reclamation :=
  let before := foldOperatorInboxEntries log
  let (resolved, current) := resolveReviewed now before (reconcile before)
  let keepIds :=
    inboxKeepIds age current (unregisteredExecutionReportIds current registeredExecutionIds)
  let keptCurrent := current.filter fun e => keepIds.contains e.1
  let removed := ((before.map Prod.fst).filter fun id =>
    !(keptCurrent.map Prod.fst).contains id).length
  { log :=
      if removed ≠ 0 then (log ++ resolved).filter fun record => keepIds.contains record.id
      else log
    removed := removed
    current := keptCurrent
    resolved := resolved }

theorem reconcileAndCompactReport_eq (log : Log) (age : String → Option Int) (now : String)
    (reconcile : InboxFold → List (String × String)) (registered : List String) :
    ((reconcileAndCompactReport log age now reconcile registered).log,
        (reconcileAndCompactReport log age now reconcile registered).current) =
      reconcileAndCompact log age now (reconcile (foldOperatorInboxEntries log)) registered := by
  unfold reconcileAndCompactReport reconcileAndCompact
  dsimp only
  have hany : ∀ (ids : List String) (p : String → Bool),
      (ids.filter p).length ≠ 0 ↔ ids.any p = true := by
    intro ids p
    rw [← Nat.pos_iff_ne_zero, List.length_filter_pos_iff, List.any_eq_true]
  rw [if_congr (hany _ _) rfl rfl]
  split <;> rfl

/-! ## The rows that are resolved -/

/-- Every row of a fold stands under its id. -/
def KeyedById (fold : InboxFold) : Prop := ∀ e ∈ fold, e.2.id = e.1

theorem ladderResolve_id {now reason : String} {entry updated : OperatorInboxEntry}
    (h : ladderResolve now reason entry = some updated) : updated.id = entry.id :=
  (resolves_ladderResolve now reason).id h

theorem ladderResolve_eq_none_iff {now reason : String} {entry : OperatorInboxEntry} :
    ladderResolve now reason entry = none ↔ entry.state ≠ .pending := by
  unfold ladderResolve
  split <;> simp_all

theorem ladderResolve_state {now reason : String} {entry updated : OperatorInboxEntry}
    (h : ladderResolve now reason entry = some updated) : updated.state = .ladderResolved := by
  unfold ladderResolve at h
  split at h <;> cases h
  rfl

/-- What becomes of a row: the reason given for it resolves it if it is pending. -/
def reviewed (now : String) (reasons : List (String × String)) (id : String)
    (row : OperatorInboxEntry) : OperatorInboxEntry :=
  ((reasons.lookup id).bind fun reason => ladderResolve now reason row).getD row

theorem lookup_resolveReviewed (now : String) (reasons : List (String × String))
    (current : InboxFold) (id : String) :
    (resolveReviewed now current reasons).2.lookup id =
      (current.lookup id).map (reviewed now reasons id) := by
  induction reasons generalizing current with
  | nil =>
    have : reviewed now [] id = fun row => row := rfl
    rw [this, Option.map_id']
    rfl
  | cons r reasons ih =>
    obtain ⟨entryId, reason⟩ := r
    unfold resolveReviewed
    cases hbind : (current.lookup entryId).bind (ladderResolve now reason) with
    | none =>
      dsimp only
      rw [ih]
      cases hrow : current.lookup id with
      | none => rfl
      | some row =>
        rw [Option.map_some, Option.map_some, Option.some.injEq]
        unfold reviewed
        rw [Keyed.lookup_cons]
        split
        · rename_i hid
          subst hid
          -- the row was looked at here, and is not pending
          rw [hrow, Option.bind_some] at hbind
          rw [Option.bind_some, hbind]
          have hnot := ladderResolve_eq_none_iff.mp hbind
          cases reasons.lookup entryId with
          | none => rfl
          | some other => rw [Option.bind_some, ladderResolve_eq_none_iff.mpr hnot]
        · rfl
    | some terminal =>
      dsimp only
      obtain ⟨row, hrow, hterminal⟩ := Option.bind_eq_some_iff.mp hbind
      rw [ih, Keyed.lookup_set]
      by_cases hid : entryId = id
      · subst hid
        have hnot : terminal.state ≠ .pending := by
          rw [ladderResolve_state hterminal]
          decide
        rw [if_pos rfl, hrow, Option.map_some, Option.map_some, Option.some.injEq]
        unfold reviewed
        rw [Keyed.lookup_cons, if_pos rfl, Option.bind_some, hterminal, Option.getD_some]
        cases reasons.lookup entryId with
        | none => rfl
        | some other => rw [Option.bind_some, ladderResolve_eq_none_iff.mpr hnot, Option.getD_none]
      · rw [if_neg hid]
        congr 1
        funext row
        unfold reviewed
        rw [Keyed.lookup_cons, if_neg hid]

theorem keys_resolveReviewed (now : String) (reasons : List (String × String))
    (current : InboxFold) :
    (resolveReviewed now current reasons).2.map Prod.fst = current.map Prod.fst := by
  induction reasons generalizing current with
  | nil => rfl
  | cons r reasons ih =>
    unfold resolveReviewed
    cases hbind : (current.lookup r.1).bind (ladderResolve now r.2) with
    | none => exact ih current
    | some terminal =>
      obtain ⟨row, hrow, -⟩ := Option.bind_eq_some_iff.mp hbind
      have hmem : r.1 ∈ current.map Prod.fst := Keyed.lookup_isSome_iff.mp (by rw [hrow]; rfl)
      dsimp only
      rw [ih, Keyed.keys_set, if_pos hmem]

/-- A resolved row was pending and is named. -/
theorem mem_resolveReviewed {now : String} {reasons : List (String × String)}
    {current : InboxFold} (hkeyed : KeyedById current) {entry : OperatorInboxEntry}
    (h : entry ∈ (resolveReviewed now current reasons).1) :
    entry.id ∈ reasons.map Prod.fst ∧
      ∃ row, current.lookup entry.id = some row ∧ row.state = .pending := by
  induction reasons generalizing current with
  | nil => cases h
  | cons r reasons ih =>
    obtain ⟨entryId, reason⟩ := r
    unfold resolveReviewed at h
    cases hbind : (current.lookup entryId).bind (ladderResolve now reason) with
    | none =>
      rw [hbind] at h
      obtain ⟨hnamed, hrow⟩ := ih hkeyed h
      exact ⟨List.mem_cons_of_mem _ hnamed, hrow⟩
    | some terminal =>
      rw [hbind] at h
      obtain ⟨row, hrow, hterminal⟩ := Option.bind_eq_some_iff.mp hbind
      have hid : terminal.id = entryId :=
        (ladderResolve_id hterminal).trans (hkeyed _ (Keyed.mem_of_lookup hrow))
      rcases List.mem_cons.mp h with rfl | h
      · refine ⟨by simp [hid], row, by rw [hid]; exact hrow, ?_⟩
        exact (resolves_ladderResolve now reason).pending hterminal
      · have hkeyed' : KeyedById (Keyed.set current entryId terminal) := by
          rintro ⟨k, v⟩ he
          rcases Keyed.mem_set he with ⟨rfl, rfl⟩ | he
          · exact hid
          · exact hkeyed _ he
        obtain ⟨hnamed, other, hother, hpending⟩ := ih hkeyed' h
        refine ⟨List.mem_cons_of_mem _ hnamed, ?_⟩
        rw [Keyed.lookup_set] at hother
        split at hother
        · cases hother
          rw [ladderResolve_state hterminal] at hpending
          cases hpending
        · exact ⟨other, hother, hpending⟩

/-- Nothing is resolved where no pending row is named. -/
theorem resolveReviewed_eq_nil_iff {now : String} {reasons : List (String × String)}
    {current : InboxFold} (hkeyed : KeyedById current) :
    (resolveReviewed now current reasons).1 = [] ↔
      ∀ e ∈ current, e.2.state = .pending → current.lookup e.1 = some e.2 →
        e.1 ∉ reasons.map Prod.fst := by
  constructor
  · intro h e he hpending hlookup hnamed
    have hkeep : (resolveReviewed now current reasons).2 = current := by
      clear hnamed hlookup hpending he
      induction reasons with
      | nil => rfl
      | cons r reasons ih =>
        unfold resolveReviewed at h ⊢
        cases hbind : (current.lookup r.1).bind (ladderResolve now r.2) with
        | none =>
          rw [hbind] at h
          exact ih h
        | some terminal =>
          rw [hbind] at h
          cases h
    have hrow := lookup_resolveReviewed now reasons current e.1
    rw [hkeep, hlookup, Option.map_some, Option.some.injEq] at hrow
    obtain ⟨reason, hreason⟩ := Option.isSome_iff_exists.mp (Keyed.lookup_isSome_iff.mpr hnamed)
    unfold reviewed at hrow
    rw [hreason, Option.bind_some] at hrow
    cases hresolve : ladderResolve now reason e.2 with
    | none => exact ladderResolve_eq_none_iff.mp hresolve hpending
    | some updated =>
      rw [hresolve, Option.getD_some] at hrow
      rw [hrow, ladderResolve_state hresolve] at hpending
      cases hpending
  · intro h
    apply List.eq_nil_iff_forall_not_mem.mpr
    intro entry hentry
    obtain ⟨hnamed, row, hrow, hpending⟩ := mem_resolveReviewed hkeyed hentry
    exact h _ (Keyed.mem_of_lookup hrow) hpending hrow hnamed

/-! ## The rows that stay -/

/-- A turn report of a task whose proof is not durable yet. -/
def executionReport (registered : List String) (entry : OperatorInboxEntry) : Bool :=
  !registered.contains entry.id && entry.messageKind = .turnReport &&
    [some AgentRole.worker, some .reviewer, some .curator].contains entry.senderRole &&
    (entry.subjectTaskDocumentRef.isSome || entry.taskDocumentRef.isSome)

theorem executionReport_reviewed (registered : List String) (now : String)
    (reasons : List (String × String)) (id : String) (row : OperatorInboxEntry) :
    executionReport registered (reviewed now reasons id row) = executionReport registered row := by
  unfold reviewed
  cases reasons.lookup id with
  | none => rfl
  | some reason =>
    rw [Option.bind_some]
    unfold ladderResolve
    split <;> rfl

theorem mem_unregisteredExecutionReportIds {fold : InboxFold} (hkeyed : KeyedById fold)
    (hnodup : (fold.map Prod.fst).Nodup) (registered : List String) {e : String × OperatorInboxEntry}
    (he : e ∈ fold) :
    e.1 ∈ unregisteredExecutionReportIds fold registered ↔
      executionReport registered e.2 = true := by
  unfold unregisteredExecutionReportIds
  rw [List.mem_map]
  constructor
  · rintro ⟨row, hrow, hid⟩
    obtain ⟨hmem, hreport⟩ := List.mem_filter.mp hrow
    obtain ⟨e', he', rfl⟩ := List.mem_map.mp hmem
    have hkey : e'.1 = e.1 := (hkeyed e' he').symm.trans hid
    have hsame : e' = e := List.inj_on_of_nodup_map hnodup he' he hkey
    rw [← hsame]
    exact hreport
  · intro hreport
    exact ⟨e.2, List.mem_filter.mpr ⟨List.mem_map_of_mem he, hreport⟩, hkeyed e he⟩

/-- What the cap selects of the rows that are not protected. -/
def selectedRows (available : Nat) (others : List OperatorInboxEntry) : List OperatorInboxEntry :=
  let pending := newestFirst (others.filter fun entry => entry.state = .pending)
  let terminal := newestFirst (others.filter fun entry => entry.state ≠ .pending)
  let selected := pending.take available
  selected ++ terminal.take (available - selected.length)

theorem length_selectedRows (available : Nat) (others : List OperatorInboxEntry) :
    (selectedRows available others).length ≤ available := by
  unfold selectedRows
  dsimp only
  rw [List.length_append]
  have hpending := List.length_take_le available
    (newestFirst (others.filter fun entry => entry.state = .pending))
  have hterminal := List.length_take_le
    (available - ((newestFirst (others.filter fun entry => entry.state = .pending)).take
      available).length) (newestFirst (others.filter fun entry => entry.state ≠ .pending))
  omega

theorem mem_of_mem_selectedRows {available : Nat} {others : List OperatorInboxEntry}
    {entry : OperatorInboxEntry} (h : entry ∈ selectedRows available others) : entry ∈ others := by
  have hsorted : ∀ {p : OperatorInboxEntry → Bool} {n : Nat},
      entry ∈ (newestFirst (others.filter p)).take n → entry ∈ others := by
    intro p n htake
    have hmem := List.mem_of_mem_take htake
    rw [newestFirst, List.mem_insertionSort] at hmem
    exact (List.mem_filter.mp hmem).1
  rcases List.mem_append.mp h with h | h
  · exact hsorted h
  · exact hsorted h

/-- The rows that retention lets stay, before the cap. -/
def retainedRows (age : String → Option Int) (fold : InboxFold) (protectedIds : List String) :
    List OperatorInboxEntry :=
  (fold.map Prod.snd).filter fun entry =>
    protectedIds.contains entry.id || keepInboxEntry age entry

/-- `inbox_keep_ids` under any cap: past it, the protected rows and what it selects
of the others. -/
def inboxKeepIdsWithin (maxRows : Int) (age : String → Option Int) (current : InboxFold)
    (protectedIds : List String) : List String :=
  let kept := retainedRows age current protectedIds
  if maxRows < kept.length then
    let protectedRows := kept.filter fun entry => protectedIds.contains entry.id
    let available := (max 0 (maxRows - protectedRows.length)).toNat
    let others := kept.filter fun entry => !protectedIds.contains entry.id
    (protectedRows ++ selectedRows available others).map (·.id)
  else kept.map (·.id)

theorem inboxKeepIds_eq (age : String → Option Int) (fold : InboxFold)
    (protectedIds : List String) :
    inboxKeepIds age fold protectedIds =
      inboxKeepIdsWithin inboxMaxCurrentRows age fold protectedIds := by
  unfold inboxKeepIds inboxKeepIdsWithin selectedRows retainedRows
  dsimp only
  rw [if_congr Int.ofNat_lt rfl rfl, List.append_assoc]
  have havailable : ∀ n : Nat,
      (max 0 ((inboxMaxCurrentRows : Int) - n)).toNat = inboxMaxCurrentRows - n := by
    intro n
    omega
  rw [havailable]

section cap
variable {maxRows : Int} {age : String → Option Int} {fold : InboxFold}
  {protectedIds : List String}

theorem mem_retained_of_mem_keepIds {id : String}
    (h : id ∈ inboxKeepIdsWithin maxRows age fold protectedIds) :
    ∃ entry ∈ retainedRows age fold protectedIds, entry.id = id := by
  unfold inboxKeepIdsWithin at h
  dsimp only at h
  split at h
  · obtain ⟨entry, hentry, hid⟩ := List.mem_map.mp h
    refine ⟨entry, ?_, hid⟩
    rcases List.mem_append.mp hentry with hentry | hentry
    · exact (List.mem_filter.mp hentry).1
    · exact (List.mem_filter.mp (mem_of_mem_selectedRows hentry)).1
  · exact List.mem_map.mp h

/-- Past the cap a row that is not protected leaves. -/
theorem not_protected_leaves (hnodup : ((retainedRows age fold protectedIds).map (·.id)).Nodup)
    (hlong : maxRows < (retainedRows age fold protectedIds).length)
    (hall : ∀ entry ∈ retainedRows age fold protectedIds,
      entry.id ∈ inboxKeepIdsWithin maxRows age fold protectedIds) :
    ∀ entry ∈ retainedRows age fold protectedIds, entry.id ∈ protectedIds := by
  set kept := retainedRows age fold protectedIds with hkept
  set protectedRows := kept.filter fun entry => protectedIds.contains entry.id with hprotected
  set others := kept.filter fun entry => !protectedIds.contains entry.id with hothers
  set selected := selectedRows (max 0 (maxRows - protectedRows.length)).toNat others
    with hselected
  have hsubset : others.map (·.id) ⊆ selected.map (·.id) := by
    intro id hid
    obtain ⟨entry, hentry, rfl⟩ := List.mem_map.mp hid
    obtain ⟨hmem, hnot⟩ := List.mem_filter.mp hentry
    have hkeep := hall entry hmem
    unfold inboxKeepIdsWithin at hkeep
    dsimp only at hkeep
    rw [← hkept, if_pos hlong, ← hprotected, ← hothers, ← hselected, List.map_append,
      List.mem_append] at hkeep
    rcases hkeep with hkeep | hkeep
    · -- the protected rows have other ids
      obtain ⟨other, hother, hid⟩ := List.mem_map.mp hkeep
      have hcontains := (List.mem_filter.mp hother).2
      rw [hid] at hcontains
      rw [hcontains] at hnot
      cases hnot
    · exact hkeep
  have hdistinct : (others.map (·.id)).Nodup := hnodup.sublist (List.filter_sublist.map _)
  have hfew : others.length ≤ (max 0 (maxRows - protectedRows.length)).toNat := by
    have hle := (List.subperm_of_subset hdistinct hsubset).length_le
    rw [List.length_map, List.length_map] at hle
    exact hle.trans (length_selectedRows _ _)
  have hsplit : kept.length = protectedRows.length + others.length :=
    List.length_eq_length_filter_add _
  have hnone : others = [] := List.eq_nil_of_length_eq_zero (by omega)
  intro entry hentry
  by_contra hnot
  have hmem : entry ∈ others := List.mem_filter.mpr ⟨hentry, by simpa using hnot⟩
  rw [hnone] at hmem
  cases hmem

/-- A compaction keeps every row exactly when each is protected or retained, and
they are within the cap or all protected. -/
theorem all_mem_inboxKeepIds_iff (hkeyed : KeyedById fold) (hnodup : (fold.map Prod.fst).Nodup) :
    (∀ e ∈ fold, e.1 ∈ inboxKeepIdsWithin maxRows age fold protectedIds) ↔
      (∀ e ∈ fold, e.1 ∈ protectedIds ∨ keepInboxEntry age e.2 = true) ∧
        (fold.length ≤ maxRows ∨ ∀ e ∈ fold, e.1 ∈ protectedIds) := by
  have hids : (fold.map Prod.snd).map (·.id) = fold.map Prod.fst := by
    rw [List.map_map]
    exact List.map_congr_left hkeyed
  -- where retention keeps every row, only the cap can take one
  have hall : (∀ e ∈ fold, e.1 ∈ protectedIds ∨ keepInboxEntry age e.2 = true) →
      retainedRows age fold protectedIds = fold.map Prod.snd := by
    intro h
    apply List.filter_eq_self.mpr
    intro entry hentry
    obtain ⟨e, he, rfl⟩ := List.mem_map.mp hentry
    have := h e he
    rw [← hkeyed e he] at this
    simpa using this
  constructor
  · intro h
    have hretained : ∀ e ∈ fold, e.1 ∈ protectedIds ∨ keepInboxEntry age e.2 = true := by
      intro e he
      obtain ⟨entry, hentry, hid⟩ := mem_retained_of_mem_keepIds (h e he)
      obtain ⟨hmem, hkeep⟩ := List.mem_filter.mp hentry
      obtain ⟨e', he', rfl⟩ := List.mem_map.mp hmem
      have hsame : e' = e :=
        List.inj_on_of_nodup_map hnodup he' he ((hkeyed e' he').symm.trans hid)
      subst hsame
      rw [← hkeyed e' he']
      simpa using hkeep
    refine ⟨hretained, ?_⟩
    by_cases hlong : fold.length ≤ maxRows
    · exact .inl hlong
    · right
      have hrows := hall hretained
      intro e he
      rw [← hkeyed e he]
      refine @not_protected_leaves maxRows age fold protectedIds ?_ ?_ ?_ e.2 ?_
      · rw [hrows, hids]
        exact hnodup
      · rw [hrows, List.length_map]
        omega
      · intro entry hentry
        rw [hrows] at hentry
        obtain ⟨e', he', rfl⟩ := List.mem_map.mp hentry
        rw [hkeyed e' he']
        exact h e' he'
      · rw [hrows]
        exact List.mem_map_of_mem he
  · rintro ⟨hretained, hcap⟩ e he
    have hrows := hall hretained
    unfold inboxKeepIdsWithin
    dsimp only
    rw [hrows, List.length_map]
    split
    · rename_i hlong
      have hprotected := hcap.resolve_left (by omega) e he
      refine List.mem_map.mpr ⟨e.2, List.mem_append_left _ (List.mem_filter.mpr
        ⟨List.mem_map_of_mem he, ?_⟩), hkeyed e he⟩
      rw [hkeyed e he]
      simpa using hprotected
    · rw [hids]
      exact List.mem_map_of_mem he

end cap

/-! ## What the sweep is told -/

/-- What is said of the log is so: the map is its fold, a row called resolved is
terminal in it or gone, the count is that of the ids which left, and a row that
nobody named and retention keeps is as it was. -/
structure Reclamation.TellsTruth (r : Reclamation) (log : Log) (named : List String) : Prop where
  current : ∀ id, rowOf r.log id = r.current.lookup id
  resolved : ∀ entry ∈ r.resolved, entry.id ∈ r.log.map (·.id) →
    ∃ row, rowOf r.log entry.id = some row ∧ row.Terminal
  removed : r.removed =
    ((log.map (·.id)).dedup.filter fun id => id ∉ r.log.map (·.id)).length
  unnamed : ∀ id ∉ named, id ∈ r.current.map Prod.fst → rowOf r.log id = rowOf log id

/-- Every row stays: each is a report without its proof, or neither resolved
nor let go by retention; and they are within the cap, or all such reports. -/
structure EveryRowStays (fold : InboxFold) (age : String → Option Int)
    (named registered : List String) : Prop where
  row : ∀ e ∈ fold, executionReport registered e.2 = true ∨
    ¬(e.2.state = .pending ∧ e.1 ∈ named) ∧ keepInboxEntry age e.2 = true
  cap : fold.length ≤ inboxMaxCurrentRows ∨
    ∀ e ∈ fold, executionReport registered e.2 = true

section report
variable (log : Log) (age : String → Option Int) (now : String) (reasons : List (String × String))
  (registered : List String)

/-- The fold with the reviewed rows resolved. -/
def resolvedFold : InboxFold := (resolveReviewed now (foldOperatorInboxEntries log) reasons).2

/-- The rows that are kept, given the reasons. -/
def keptIds : List String :=
  inboxKeepIds age (resolvedFold log now reasons)
    (unregisteredExecutionReportIds (resolvedFold log now reasons) registered)

theorem keyedById_of_lookup {fold : InboxFold} {entries : Log}
    (hnodup : (fold.map Prod.fst).Nodup) (h : ∀ id, fold.lookup id = rowOf entries id) :
    KeyedById fold := by
  intro e he
  have hlookup := Keyed.lookup_of_mem hnodup he
  rw [h] at hlookup
  exact (mem_of_rowOf hlookup).2

theorem keyedById_fold : KeyedById (foldOperatorInboxEntries log) :=
  keyedById_of_lookup (nodup_fold log) fun _ => rfl

theorem lookup_resolvedFold (id : String) : (resolvedFold log now reasons).lookup id =
    rowOf (log ++ (resolveReviewed now (foldOperatorInboxEntries log) reasons).1) id :=
  (resolveReviewed_eq (nodup_fold log) fun _ => rfl).2.2 id

theorem nodup_resolvedFold : ((resolvedFold log now reasons).map Prod.fst).Nodup :=
  (resolveReviewed_eq (nodup_fold log) fun _ => rfl).2.1

theorem keyedById_resolvedFold : KeyedById (resolvedFold log now reasons) :=
  keyedById_of_lookup (nodup_resolvedFold log now reasons) (lookup_resolvedFold log now reasons)

/-- The resolved fold, row by row. -/
theorem mem_resolvedFold {e : String × OperatorInboxEntry} :
    e ∈ resolvedFold log now reasons ↔
      ∃ row, (e.1, row) ∈ foldOperatorInboxEntries log ∧ e.2 = reviewed now reasons e.1 row := by
  obtain ⟨id, entry⟩ := e
  constructor
  · intro he
    have h := Keyed.lookup_of_mem (nodup_resolvedFold log now reasons) he
    rw [resolvedFold, lookup_resolveReviewed] at h
    obtain ⟨row, hrow, heq⟩ := Option.map_eq_some_iff.mp h
    exact ⟨row, Keyed.mem_of_lookup hrow, heq.symm⟩
  · rintro ⟨row, hrow, heq⟩
    apply Keyed.mem_of_lookup
    rw [resolvedFold, lookup_resolveReviewed, Keyed.lookup_of_mem (nodup_fold log) hrow,
      Option.map_some, ← heq]

theorem reviewed_mem {id : String} {row : OperatorInboxEntry}
    (h : (id, row) ∈ foldOperatorInboxEntries log) :
    (id, reviewed now reasons id row) ∈ resolvedFold log now reasons :=
  (mem_resolvedFold log now reasons).mpr ⟨row, h, rfl⟩

theorem reviewed_eq (id : String) (row : OperatorInboxEntry) :
    (row.state = .pending ∧ id ∈ reasons.map Prod.fst ∧
      (reviewed now reasons id row).state = .ladderResolved) ∨
    (¬(row.state = .pending ∧ id ∈ reasons.map Prod.fst) ∧ reviewed now reasons id row = row) := by
  unfold reviewed
  cases hreason : reasons.lookup id with
  | none =>
    refine .inr ⟨fun h => ?_, rfl⟩
    have := Keyed.lookup_isSome_iff.mpr h.2
    rw [hreason] at this
    cases this
  | some reason =>
    have hmem : id ∈ reasons.map Prod.fst := Keyed.lookup_isSome_iff.mp (by rw [hreason]; rfl)
    rw [Option.bind_some]
    cases hresolve : ladderResolve now reason row with
    | none =>
      have hnot := ladderResolve_eq_none_iff.mp hresolve
      exact .inr ⟨fun h => hnot h.1, rfl⟩
    | some updated =>
      exact .inl ⟨(resolves_ladderResolve now reason).pending hresolve, hmem,
        ladderResolve_state hresolve⟩

theorem keepInboxEntry_of_resolved {entry : OperatorInboxEntry}
    (h : entry.state = .ladderResolved) : keepInboxEntry age entry = false := if_pos h

theorem length_resolvedFold :
    (resolvedFold log now reasons).length = (foldOperatorInboxEntries log).length := by
  have h := congrArg List.length (keys_resolveReviewed now reasons (foldOperatorInboxEntries log))
  rw [List.length_map, List.length_map] at h
  exact h

theorem everyRowStays_iff :
    (∀ e ∈ foldOperatorInboxEntries log, e.1 ∈ keptIds log age now reasons registered) ↔
      EveryRowStays (foldOperatorInboxEntries log) age (reasons.map Prod.fst) registered := by
  have hkeyed := keyedById_resolvedFold log now reasons
  have hnodup := nodup_resolvedFold log now reasons
  have hkept : (∀ e ∈ foldOperatorInboxEntries log, e.1 ∈ keptIds log age now reasons registered) ↔
      ∀ e ∈ resolvedFold log now reasons, e.1 ∈ keptIds log age now reasons registered := by
    constructor
    · intro h e he
      obtain ⟨row, hrow, -⟩ := (mem_resolvedFold log now reasons).mp he
      exact h (e.1, row) hrow
    · intro h e he
      exact h (e.1, reviewed now reasons e.1 e.2) (reviewed_mem log now reasons he)
  have hreport : ∀ {row id}, (id, row) ∈ foldOperatorInboxEntries log →
      (id ∈ unregisteredExecutionReportIds (resolvedFold log now reasons) registered ↔
        executionReport registered row = true) := by
    intro row id hrow
    have h := mem_unregisteredExecutionReportIds hkeyed hnodup registered
      (reviewed_mem log now reasons hrow)
    rw [executionReport_reviewed] at h
    exact h
  rw [hkept, keptIds, inboxKeepIds_eq, all_mem_inboxKeepIds_iff hkeyed hnodup,
    length_resolvedFold, Int.ofNat_le]
  constructor
  · rintro ⟨hrow, hcap⟩
    refine ⟨fun e he => ?_, hcap.imp_right fun h e he => ?_⟩
    · rcases hrow _ (reviewed_mem log now reasons he) with hprotected | hkeep
      · exact .inl ((hreport he).mp hprotected)
      · right
        rcases reviewed_eq now reasons e.1 e.2 with ⟨-, -, hresolved⟩ | ⟨hnot, hsame⟩
        · rw [keepInboxEntry_of_resolved age hresolved] at hkeep
          cases hkeep
        · rw [hsame] at hkeep
          exact ⟨hnot, hkeep⟩
    · have hmem := reviewed_mem log now reasons he
      exact (hreport he).mp (h (e.1, reviewed now reasons e.1 e.2) hmem)
  · rintro ⟨hrow, hcap⟩
    refine ⟨fun e he => ?_, hcap.imp_right fun h e he => ?_⟩
    · obtain ⟨row, hmem, heq⟩ := (mem_resolvedFold log now reasons).mp he
      rcases hrow _ hmem with hprotected | ⟨hnot, hkeep⟩
      · exact .inl ((hreport hmem).mpr hprotected)
      · right
        rcases reviewed_eq now reasons e.1 row with ⟨hpending, hnamed, -⟩ | ⟨-, hsame⟩
        · exact absurd ⟨hpending, hnamed⟩ hnot
        · rw [heq, hsame]
          exact hkeep
    · obtain ⟨row, hmem, -⟩ := (mem_resolvedFold log now reasons).mp he
      exact (hreport hmem).mpr (h _ hmem)

theorem mem_keys_fold {id : String} :
    id ∈ (foldOperatorInboxEntries log).map Prod.fst ↔ id ∈ log.map (·.id) := by
  rw [← Keyed.lookup_isSome_iff, ← rowOf, rowOf_isSome_iff, List.mem_map]

end report

section truth
variable (log : Log) (age : String → Option Int) (now : String)
  (reconcile : InboxFold → List (String × String)) (registered : List String)

/-- The reasons that the resolver gives for the fold of the log. -/
def reviewReasons : List (String × String) := reconcile (foldOperatorInboxEntries log)

/-- The rows a sweep keeps. -/
def sweptIds : List String := keptIds log age now (reviewReasons log reconcile) registered

/-- What a sweep says it did. -/
def sweep : Reclamation := reconcileAndCompactReport log age now reconcile registered

theorem lookup_sweep_current (id : String) :
    (sweep log age now reconcile registered).current.lookup id =
      if id ∈ sweptIds log age now reconcile registered then
        (rowOf log id).map (reviewed now (reviewReasons log reconcile) id)
      else none := by
  have h := Keyed.lookup_filter_key
    (fun id => (sweptIds log age now reconcile registered).contains id)
    (resolvedFold log now (reviewReasons log reconcile)) id
  rw [List.contains_eq_mem, if_congr decide_eq_true_iff rfl rfl, resolvedFold,
    lookup_resolveReviewed] at h
  exact h

theorem mem_sweep_current {id : String} :
    id ∈ (sweep log age now reconcile registered).current.map Prod.fst ↔
      id ∈ log.map (·.id) ∧ id ∈ sweptIds log age now reconcile registered := by
  rw [← Keyed.lookup_isSome_iff, lookup_sweep_current, ← mem_keys_fold,
    ← Keyed.lookup_isSome_iff]
  by_cases h : id ∈ sweptIds log age now reconcile registered
  · rw [if_pos h, Option.isSome_map]
    exact ⟨fun hrow => ⟨hrow, h⟩, And.left⟩
  · rw [if_neg h]
    constructor
    · intro hrow
      cases hrow
    · intro hrow
      exact absurd hrow.2 h

theorem sweep_removed : (sweep log age now reconcile registered).removed =
    (((foldOperatorInboxEntries log).map Prod.fst).filter fun id =>
      id ∉ (sweep log age now reconcile registered).current.map Prod.fst).length := by
  show (List.filter _ _).length = _
  congr 2
  funext id
  rw [List.contains_eq_mem, decide_not]
  rfl

theorem sweep_removed_eq_zero_iff : (sweep log age now reconcile registered).removed = 0 ↔
    EveryRowStays (foldOperatorInboxEntries log) age
      ((reviewReasons log reconcile).map Prod.fst) registered := by
  rw [← everyRowStays_iff, sweep_removed, List.length_eq_zero_iff, List.filter_eq_nil_iff]
  constructor
  · intro h e he
    have hmem : e.1 ∈ (foldOperatorInboxEntries log).map Prod.fst := List.mem_map_of_mem he
    have hcurrent := h _ hmem
    rw [decide_eq_true_eq, Decidable.not_not] at hcurrent
    exact ((mem_sweep_current log age now reconcile registered).mp hcurrent).2
  · intro h id hid
    obtain ⟨e, he, rfl⟩ := List.mem_map.mp hid
    rw [decide_eq_true_eq, Decidable.not_not, mem_sweep_current]
    exact ⟨(mem_keys_fold log).mp hid, h e he⟩

theorem sweep_log : (sweep log age now reconcile registered).log =
    if (sweep log age now reconcile registered).removed ≠ 0 then
      (log ++ (sweep log age now reconcile registered).resolved).filter fun record =>
        (sweptIds log age now reconcile registered).contains record.id
    else log := rfl

theorem lookup_swept (id : String) :
    rowOf (log ++ (sweep log age now reconcile registered).resolved) id =
      (rowOf log id).map (reviewed now (reviewReasons log reconcile) id) := by
  have h := lookup_resolvedFold log now (reviewReasons log reconcile) id
  rw [resolvedFold, lookup_resolveReviewed] at h
  exact h.symm

/-- A row called resolved is terminal once it is resolved. -/
theorem resolved_terminal {entry : OperatorInboxEntry}
    (h : entry ∈ (sweep log age now reconcile registered).resolved) :
    ∃ row, rowOf (log ++ (sweep log age now reconcile registered).resolved) entry.id = some row ∧
      row.Terminal := by
  obtain ⟨hnamed, row, hrow, hpending⟩ := mem_resolveReviewed (keyedById_fold log) h
  refine ⟨reviewed now (reviewReasons log reconcile) entry.id row, ?_, ?_⟩
  · rw [lookup_swept, rowOf, hrow, Option.map_some]
  · rcases reviewed_eq now (reviewReasons log reconcile) entry.id row with ⟨-, -, hstate⟩ | ⟨hnot, -⟩
    · show _ ≠ _
      rw [hstate]
      decide
    · exact absurd ⟨hpending, hnamed⟩ hnot

/-- Where a row goes, the log is written and everything said of it is so. -/
theorem sweep_tells_of_removed (h : (sweep log age now reconcile registered).removed ≠ 0) :
    (sweep log age now reconcile registered).TellsTruth log
      ((reviewReasons log reconcile).map Prod.fst) := by
  set r := sweep log age now reconcile registered with hr
  have hlog : r.log = (log ++ r.resolved).filter fun record =>
      (sweptIds log age now reconcile registered).contains record.id := by
    rw [hr, sweep_log, if_pos h]
  have hrow : ∀ id, rowOf r.log id = r.current.lookup id := by
    intro id
    rw [hlog, rowOf_filter (fun id => (sweptIds log age now reconcile registered).contains id),
      lookup_swept, hr, lookup_sweep_current, List.contains_eq_mem,
      if_congr decide_eq_true_iff rfl rfl]
  have hids : ∀ id, id ∈ r.log.map (·.id) ↔ id ∈ r.current.map Prod.fst := by
    intro id
    rw [← Keyed.lookup_isSome_iff, ← hrow, rowOf_isSome_iff, List.mem_map]
  refine ⟨hrow, fun entry hentry hmem => ?_, ?_, fun id hnamed hmem => ?_⟩
  · obtain ⟨row, hrow', hterminal⟩ := resolved_terminal log age now reconcile registered hentry
    refine ⟨row, ?_, hterminal⟩
    have hkept := ((mem_sweep_current log age now reconcile registered).mp ((hids _).mp hmem)).2
    rw [hrow, hr, lookup_sweep_current, if_pos hkept, ← lookup_swept log age now reconcile registered]
    exact hrow'
  · have hperm : ((foldOperatorInboxEntries log).map Prod.fst).Perm (log.map (·.id)).dedup := by
      rw [List.perm_ext_iff_of_nodup (nodup_fold log) (List.nodup_dedup _)]
      intro id
      rw [List.mem_dedup, mem_keys_fold]
    rw [hr, sweep_removed, ← hr, (hperm.filter _).length_eq]
    congr 1
    apply List.filter_congr
    intro id _
    rw [decide_eq_decide, hids]
  · have hkept := ((mem_sweep_current log age now reconcile registered).mp hmem).2
    rw [hrow, hr, lookup_sweep_current, if_pos hkept]
    cases hrow' : rowOf log id with
    | none => rfl
    | some row =>
      rw [Option.map_some, Option.some.injEq]
      rcases reviewed_eq now (reviewReasons log reconcile) id row with ⟨-, hmem', -⟩ | ⟨-, hsame⟩
      · exact absurd hmem' hnamed
      · exact hsame

/-- **The reclamation tells the truth exactly when nothing pending is named, or
some row leaves.** -/
theorem reconcileAndCompact_tells_iff :
    (reconcileAndCompactReport log age now reconcile registered).TellsTruth log
        ((reconcile (foldOperatorInboxEntries log)).map Prod.fst) ↔
      (∀ e ∈ foldOperatorInboxEntries log, e.2.state = .pending →
        e.1 ∉ (reconcile (foldOperatorInboxEntries log)).map Prod.fst) ∨
      ¬EveryRowStays (foldOperatorInboxEntries log) age
        ((reconcile (foldOperatorInboxEntries log)).map Prod.fst) registered := by
  show (sweep log age now reconcile registered).TellsTruth log
      ((reviewReasons log reconcile).map Prod.fst) ↔
    (∀ e ∈ foldOperatorInboxEntries log, e.2.state = .pending →
      e.1 ∉ (reviewReasons log reconcile).map Prod.fst) ∨
    ¬EveryRowStays (foldOperatorInboxEntries log) age
      ((reviewReasons log reconcile).map Prod.fst) registered
  have hzero := sweep_removed_eq_zero_iff log age now reconcile registered
  constructor
  · intro htruth
    by_contra hnot
    rw [not_or, not_not] at hnot
    obtain ⟨hnamed, hstays⟩ := hnot
    obtain ⟨e, hmem, hpending, hnamed⟩ : ∃ e ∈ foldOperatorInboxEntries log,
        e.2.state = .pending ∧ e.1 ∈ (reviewReasons log reconcile).map Prod.fst := by
      by_contra hnone
      exact hnamed fun e he hp hn => hnone ⟨e, he, hp, hn⟩
    have hrow : rowOf log e.1 = some e.2 := Keyed.lookup_of_mem (nodup_fold log) hmem
    have hlog : (sweep log age now reconcile registered).log = log := by
      rw [sweep_log, if_neg (fun h => h (hzero.mpr hstays))]
    have hcurrent := htruth.current e.1
    have hkept : e.1 ∈ sweptIds log age now reconcile registered :=
      (everyRowStays_iff log age now _ registered).mpr hstays e hmem
    rw [hlog, lookup_sweep_current, if_pos hkept, hrow, Option.map_some, Option.some.injEq]
      at hcurrent
    -- the log has the row pending, the map has it resolved
    rcases reviewed_eq now (reviewReasons log reconcile) e.1 e.2 with ⟨-, -, hstate⟩ | ⟨hnot, -⟩
    · rw [← hcurrent, hpending] at hstate
      cases hstate
    · exact hnot ⟨hpending, hnamed⟩
  · intro h
    by_cases hremoved : (sweep log age now reconcile registered).removed = 0
    · have hstays := hzero.mp hremoved
      have hnamed := h.resolve_right fun hnot => hnot hstays
      have hlog : (sweep log age now reconcile registered).log = log := by
        rw [sweep_log, if_neg (fun h => h hremoved)]
      have hnil : (sweep log age now reconcile registered).resolved = [] :=
        (resolveReviewed_eq_nil_iff (keyedById_fold log)).mpr fun e he hp _ => hnamed e he hp
      have hlookup : ∀ id,
          rowOf log id = (sweep log age now reconcile registered).current.lookup id := by
        intro id
        rw [lookup_sweep_current, ← lookup_swept log age now reconcile registered, hnil,
          List.append_nil]
        split
        · rfl
        · rename_i hnot
          cases hrow : rowOf log id with
          | none => rfl
          | some row =>
            exact absurd ((everyRowStays_iff log age now _ registered).mpr hstays (id, row)
              (Keyed.mem_of_lookup hrow)) hnot
      refine ⟨fun id => ?_, fun entry hentry => ?_, ?_, fun id _ _ => ?_⟩
      · rw [hlog]
        exact hlookup id
      · rw [hnil] at hentry
        cases hentry
      · rw [hremoved, hlog]
        symm
        rw [List.length_eq_zero_iff, List.filter_eq_nil_iff]
        intro id hid
        have hin := List.mem_dedup.mp hid
        simpa using hin
      · rw [hlog]
    · exact sweep_tells_of_removed log age now reconcile registered hremoved

end truth

/-! ## A report without its proof -/

/-- A worker's turn report on a task document, not picked up yet. -/
def pendingReport : OperatorInboxEntry where
  id := "r"
  ts := "t"
  state := .pending
  taskDocumentRef := some ⟨"repo", "leaf.json"⟩
  senderRole := some .worker
  messageKind := .turnReport
  ask := "report"
  response := "done"
  createdAt := "t"
  createdBy := "worker"
  createdVia := .cli

/-- The sweep is told that the report is resolved, and the log has it pending. -/
theorem reconcileAndCompact_hides :
    ¬(reconcileAndCompactReport [pendingReport] (fun _ => none) "now"
        (fun _ => [("r", "stale")]) []).TellsTruth [pendingReport] ["r"] := by
  intro h
  have hrow := congrArg (Option.map (·.state)) (h.current "r")
  revert hrow
  decide

end AgentsRemember.Inbox
