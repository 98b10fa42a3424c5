import AgentsRemember.Foundation.Keyed
import AgentsRemember.Submission.Records

/-!
# Submission — Ledger

What one submission authority retains (`harness_submission_ledger.
SubmissionLedger`). The Python rows are shared mutable objects: the
dispatcher and a reconciliation in flight keep a reference to a record
that eviction may since have dropped. So the objects live in a heap of
their own, `Objects`, addressed by the ordinal `ref.sequence` that
`next_ref` mints once for each record, and the ledger's dictionary maps
a key to such an ordinal.
-/

namespace AgentsRemember.Submission

/-- Every record object ever created, by the ordinal of its ref. -/
abbrev Objects := Nat → Option OperationRecord

namespace Objects

/-- Write one record object back. -/
def put (objects : Objects) (record : OperationRecord) : Objects :=
  fun n => if n = record.ref.sequence then some record else objects n

theorem put_self (objects : Objects) (record : OperationRecord) :
    objects.put record record.ref.sequence = some record := by
  simp [put]

end Objects

/-- The rows, and the prompts by request id. -/
structure SubmissionLedger where
  records : List (OperationKey × Nat) := []
  promptIds : List (String × OperationKey) := []
  sequence : Nat := 0
  evictedBeforeSequence : Nat := 0

namespace SubmissionLedger

/-- The row of a key. -/
def byKey (l : SubmissionLedger) (key : OperationKey) : Option Nat :=
  l.records.lookup key

/-- The row of a request id. -/
def byRequestId (l : SubmissionLedger) (requestId : String) : Option Nat :=
  (l.promptIds.lookup requestId).bind l.byKey

/-- Mint the next ordinal reference; a setter is named by its ordinal. -/
def nextRef (l : SubmissionLedger) (bridgeEpoch : String) (kind : ControlOperationKind)
    (operationId : Option String := none) : ControlOperationRef × SubmissionLedger :=
  let sequence := l.sequence + 1
  ({ bridgeEpoch := bridgeEpoch
     sequence := sequence
     operationId := textOr operationId s!"{bridgeEpoch}:{sequence}:{kind.wire}"
     kind := kind },
   { l with sequence := sequence })

/-- A record becomes a row. -/
def enrol (l : SubmissionLedger) (record : OperationRecord) : SubmissionLedger :=
  { l with
    records := Keyed.set l.records record.key record.ref.sequence
    promptIds := if record.ref.kind = .prompt
      then Keyed.set l.promptIds record.ref.operationId record.key
      else l.promptIds }

/-- Move a record to the young end, away from eviction. -/
def touch (l : SubmissionLedger) (key : OperationKey) : SubmissionLedger :=
  { l with records := Keyed.moveToEnd l.records key }

/-- The rows that are live or active. -/
def liveCount (l : SubmissionLedger) (objects : Objects)
    (active : Option OperationKey) : Nat :=
  l.records.countP fun e =>
    (objects e.2).any fun record => record.live || some record.key == active

/-- One pass of the eviction loop: the oldest unpinned terminal row. -/
def evictOne (l : SubmissionLedger) (objects : Objects)
    (pinned : OperationKey → Bool) : Option SubmissionLedger := do
  let (key, n) ← l.records.find? fun e =>
    !pinned e.1 && (objects e.2).any fun record => record.state ∈ evictableStates
  let record ← objects n
  return { l with
    records := Keyed.erase l.records key
    evictedBeforeSequence := max l.evictedBeforeSequence record.ref.sequence
    promptIds := if record.ref.kind = .prompt
      then Keyed.erase l.promptIds record.ref.operationId
      else l.promptIds }

/-- The eviction loop. Each pass drops a row, so a ledger of `n` rows
makes at most `n` passes and `makeRoom` below never runs out. -/
def makeRoomLoop (objects : Objects) (pinned : OperationKey → Bool) (limit : Nat) :
    Nat → SubmissionLedger → Bool × SubmissionLedger
  | 0, l => (l.records.length < limit, l)
  | fuel + 1, l =>
    if l.records.length < limit then (true, l)
    else match l.evictOne objects pinned with
      | none => (false, l)
      | some l' => makeRoomLoop objects pinned limit fuel l'

/-- Evict terminal rows until one more fits; `false` when nothing may be
dropped. -/
def makeRoom (l : SubmissionLedger) (objects : Objects)
    (pinned : OperationKey → Bool) (limit : Nat) : Bool × SubmissionLedger :=
  makeRoomLoop objects pinned limit l.records.length l

/-! ## Reading the ledger after each operation -/

@[simp] theorem touch_byKey (l : SubmissionLedger) (key k : OperationKey) :
    (l.touch key).byKey k = l.byKey k :=
  Keyed.lookup_moveToEnd _ _ _

@[simp] theorem touch_promptIds (l : SubmissionLedger) (key : OperationKey) :
    (l.touch key).promptIds = l.promptIds := rfl

@[simp] theorem touch_sequence (l : SubmissionLedger) (key : OperationKey) :
    (l.touch key).sequence = l.sequence := rfl

theorem enrol_byKey (l : SubmissionLedger) (record : OperationRecord) (k : OperationKey) :
    (l.enrol record).byKey k =
      if record.key = k then some record.ref.sequence else l.byKey k :=
  Keyed.lookup_set _ _ _ _

@[simp] theorem enrol_sequence (l : SubmissionLedger) (record : OperationRecord) :
    (l.enrol record).sequence = l.sequence := rfl

/-- What eviction may do to a ledger: only unpinned rows of terminal
records go, and a prompt's request id goes with its row. -/
structure Evicts (objects : Objects) (pinned : OperationKey → Bool)
    (l l' : SubmissionLedger) : Prop where
  sequence : l'.sequence = l.sequence
  byKey_sub : ∀ k n, l'.byKey k = some n → l.byKey k = some n
  dropped : ∀ k n, l.byKey k = some n → l'.byKey k = none →
    pinned k = false ∧ ∃ record, objects n = some record ∧
      record.state ∈ evictableStates
  promptIds_sub : ∀ id k, l'.promptIds.lookup id = some k →
    l.promptIds.lookup id = some k
  promptIds_dropped : ∀ id, (l.promptIds.lookup id).isSome →
    l'.promptIds.lookup id = none →
    ∃ record k n, objects n = some record ∧ l.byKey k = some n ∧
      l'.byKey k = none ∧ record.ref.kind = .prompt ∧ record.ref.operationId = id

theorem Evicts.refl (objects : Objects) (pinned : OperationKey → Bool)
    (l : SubmissionLedger) : Evicts objects pinned l l where
  sequence := rfl
  byKey_sub := fun _ _ h => h
  dropped := by
    intro k n h h'
    rw [h] at h'
    cases h'
  promptIds_sub := fun _ _ h => h
  promptIds_dropped := by
    intro id h h'
    rw [h'] at h
    cases h

theorem Evicts.trans {objects : Objects} {pinned : OperationKey → Bool}
    {l l' l'' : SubmissionLedger} (h : Evicts objects pinned l l')
    (h' : Evicts objects pinned l' l'') : Evicts objects pinned l l'' where
  sequence := h'.sequence.trans h.sequence
  byKey_sub := fun k n hk => h.byKey_sub k n (h'.byKey_sub k n hk)
  dropped := by
    intro k n hk hnone
    cases hmid : l'.byKey k with
    | none => exact h.dropped k n hk hmid
    | some m =>
      have hm : m = n := by
        have := h.byKey_sub k m hmid
        rw [hk] at this
        exact (Option.some.inj this).symm
      exact h'.dropped k n (hm ▸ hmid) hnone
  promptIds_sub := fun id k hk => h.promptIds_sub id k (h'.promptIds_sub id k hk)
  promptIds_dropped := by
    intro id hsome hnone
    cases hmid : l'.promptIds.lookup id with
    | none =>
      obtain ⟨record, k, n, ho, hk, hk', hkind, hid⟩ := h.promptIds_dropped id hsome hmid
      refine ⟨record, k, n, ho, hk, ?_, hkind, hid⟩
      cases hk'' : l''.byKey k with
      | none => rfl
      | some m =>
        have := h'.byKey_sub k m hk''
        rw [hk'] at this
        cases this
    | some key =>
      obtain ⟨record, k, n, ho, hk, hk', hkind, hid⟩ :=
        h'.promptIds_dropped id (by simp [hmid]) hnone
      exact ⟨record, k, n, ho, h.byKey_sub k n hk, hk', hkind, hid⟩

theorem evictOne_evicts {l l' : SubmissionLedger} {objects : Objects}
    {pinned : OperationKey → Bool} (hl : (l.records.map Prod.fst).Nodup)
    (h : l.evictOne objects pinned = some l') : Evicts objects pinned l l' := by
  simp only [evictOne, Option.bind_eq_bind, Option.pure_def, Option.bind_eq_some_iff] at h
  obtain ⟨⟨key, n⟩, hfind, record, hrec, hl'⟩ := h
  cases hl'
  have hmem := List.mem_of_find?_eq_some hfind
  have hprop := List.find?_some hfind
  simp only [Bool.and_eq_true, Bool.not_eq_true', hrec, Option.any_some,
    decide_eq_true_eq] at hprop
  have hkey : l.byKey key = some n := Keyed.lookup_of_mem hl hmem
  -- the only key that loses its row is the one that was found
  have hgone : (Keyed.erase l.records key).lookup key = none := by
    simp [Keyed.lookup_erase]
  constructor
  · rfl
  · intro k m hk
    simp only [byKey, Keyed.lookup_erase] at hk
    split at hk
    · cases hk
    · exact hk
  · intro k m hk hnone
    simp only [byKey, Keyed.lookup_erase] at hnone
    split at hnone
    · rename_i he
      subst he
      rw [hkey] at hk
      cases hk
      exact ⟨hprop.1, record, hrec, hprop.2⟩
    · rw [byKey] at hk
      rw [hk] at hnone
      cases hnone
  · intro id k hk
    dsimp only at hk
    split at hk
    · rw [Keyed.lookup_erase] at hk
      split at hk
      · cases hk
      · exact hk
    · exact hk
  · intro id hsome hnone
    dsimp only at hnone
    split at hnone
    · rename_i hkind
      rw [Keyed.lookup_erase] at hnone
      split at hnone
      · rename_i hid
        exact ⟨record, key, n, hrec, hkey, hgone, hkind, hid.symm⟩
      · rw [hnone] at hsome
        cases hsome
    · rw [hnone] at hsome
      cases hsome

theorem evictOne_nodup {l l' : SubmissionLedger} {objects : Objects}
    {pinned : OperationKey → Bool} (hl : (l.records.map Prod.fst).Nodup)
    (h : l.evictOne objects pinned = some l') : (l'.records.map Prod.fst).Nodup := by
  simp only [evictOne, Option.bind_eq_bind, Option.pure_def, Option.bind_eq_some_iff] at h
  obtain ⟨⟨key, n⟩, _, record, _, hl'⟩ := h
  cases hl'
  exact hl.sublist (List.filter_sublist.map _)

theorem makeRoomLoop_evicts (objects : Objects) (pinned : OperationKey → Bool)
    (limit : Nat) : ∀ (fuel : Nat) (l : SubmissionLedger),
    (l.records.map Prod.fst).Nodup →
    Evicts objects pinned l (makeRoomLoop objects pinned limit fuel l).2 ∧
      ((makeRoomLoop objects pinned limit fuel l).2.records.map Prod.fst).Nodup := by
  intro fuel
  induction fuel with
  | zero => exact fun l hl => ⟨.refl _ _ _, hl⟩
  | succ fuel ih =>
    intro l hl
    simp only [makeRoomLoop]
    split
    · exact ⟨.refl _ _ _, hl⟩
    · cases h : l.evictOne objects pinned with
      | none => exact ⟨.refl _ _ _, hl⟩
      | some l' =>
        obtain ⟨he, hn⟩ := ih l' (evictOne_nodup hl h)
        exact ⟨(evictOne_evicts hl h).trans he, hn⟩

theorem makeRoom_evicts {l : SubmissionLedger} (objects : Objects)
    (pinned : OperationKey → Bool) (limit : Nat)
    (hl : (l.records.map Prod.fst).Nodup) :
    Evicts objects pinned l (l.makeRoom objects pinned limit).2 ∧
      ((l.makeRoom objects pinned limit).2.records.map Prod.fst).Nodup :=
  makeRoomLoop_evicts objects pinned limit _ l hl

theorem touch_nodup {l : SubmissionLedger} (hl : (l.records.map Prod.fst).Nodup)
    (key : OperationKey) : ((l.touch key).records.map Prod.fst).Nodup := by
  simp only [touch, Keyed.moveToEnd]
  split
  · exact hl
  · simp only [List.map_append, List.map_cons, List.map_nil]
    refine List.nodup_append.mpr ⟨hl.sublist (List.filter_sublist.map _), by simp, ?_⟩
    intro k hk k' hk'
    rw [List.mem_singleton] at hk'
    subst hk'
    obtain ⟨e, he, rfl⟩ := List.mem_map.mp hk
    simpa [Keyed.erase] using (List.mem_filter.mp he).2

theorem enrol_nodup {l : SubmissionLedger} (hl : (l.records.map Prod.fst).Nodup)
    (record : OperationRecord) : ((l.enrol record).records.map Prod.fst).Nodup :=
  Keyed.nodup_keys_set hl _ _

end SubmissionLedger

end AgentsRemember.Submission
