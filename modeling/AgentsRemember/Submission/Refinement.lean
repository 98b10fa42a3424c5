import AgentsRemember.Submission.Steps
import AgentsRemember.Submission.Head
import AgentsRemember.Submission.History

/-!
# Submission — The authority refines the timeline

`Authority.core` forgets what the abstract model does not speak of.
`Valid` is the invariant of the concrete state: every object carries
the ordinal it is stored under, every row the key it is named by, and a
request id the key of its prompt, so that a fresh id or a fresh ordinal
never meets a retained row.

`step_refines` is the one place where the blocks of the authority are
run: each step is a transition of the model, by the cause that `cause`
reads off the state.
-/

namespace AgentsRemember.Submission

/-- What the dispatcher holds. -/
def Dispatcher.position : Dispatcher → Position
  | .waiting | .looking | .stopped => .free
  | .preflight n | .declined n _ | .preflightClaim n _ _ | .claiming n => .chosen n
  | .calling n => .calling n
  | .presendBusy n _ | .possibleSend n _ _ | .returned n _ | .incoherent n _ => .called n

/-- A setter's minted name gives its ordinal back. -/
theorem setterId_inj {epoch kind : String} {m n : Nat}
    (h : s!"{epoch}:{m}:{kind}" = s!"{epoch}:{n}:{kind}") : m = n := by
  have h' : epoch ++ ":" ++ toString m ++ ":" ++ kind
      = epoch ++ ":" ++ toString n ++ ":" ++ kind := h
  rw [String.append_left_inj, String.append_left_inj, String.append_right_inj] at h'
  have hd : Nat.toDigits 10 m = Nat.toDigits 10 n := String.ofList_inj.mp h'
  have hv := congrArg (fun ds => Nat.ofDigitChars 10 ds 0) hd
  simpa using hv

/-! ## The ledger's naming invariant -/

namespace SubmissionLedger

/-- Rows and request ids are named by their keys. -/
structure Named (epoch : String) (l : SubmissionLedger) : Prop where
  nodup : (l.records.map Prod.fst).Nodup
  promptId : ∀ id k, l.promptIds.lookup id = some k → k = (.prompt, id)
  promptRow : ∀ id n, l.byKey (.prompt, id) = some n →
    l.promptIds.lookup id = some (.prompt, id)
  setterRow : ∀ kind id n, kind ≠ .prompt → l.byKey (kind, id) = some n →
    id = s!"{epoch}:{n}:{kind.wire}"

variable {epoch : String} {l l' : SubmissionLedger}

theorem Named.touch (h : l.Named epoch) (key : OperationKey) : (l.touch key).Named epoch where
  nodup := touch_nodup h.nodup key
  promptId := h.promptId
  promptRow := fun id n hk => h.promptRow id n (by simpa using hk)
  setterRow := fun kind id n hkind hk => h.setterRow kind id n hkind (by simpa using hk)

/-- Eviction drops a prompt's id only together with its row. -/
theorem Named.evicts (h : l.Named epoch) {objects : Objects} {pinned : OperationKey → Bool}
    (he : Evicts objects pinned l l') (hn : (l'.records.map Prod.fst).Nodup)
    (hkey : ∀ k n record, l.byKey k = some n → objects n = some record → record.key = k) :
    l'.Named epoch where
  nodup := hn
  promptId := fun id k hk => h.promptId id k (he.promptIds_sub id k hk)
  promptRow := by
    intro id n hk
    have hold := h.promptRow id n (he.byKey_sub _ _ hk)
    cases hid : l'.promptIds.lookup id with
    | some k => rw [h.promptId id k (he.promptIds_sub id k hid)]
    | none =>
      obtain ⟨record, k, m, ho, hkm, hgone, hkind, hop⟩ :=
        he.promptIds_dropped id (by rw [hold]; rfl) hid
      have hk' : k = (.prompt, id) := by
        rw [← hkey k m record hkm ho, OperationRecord.key, refKey, hkind, hop]
      rw [hk', hk] at hgone
      cases hgone
  setterRow := fun kind id n hkind hk => h.setterRow kind id n hkind (he.byKey_sub _ _ hk)

theorem Named.enrol (h : l.Named epoch) (record : OperationRecord)
    (hid : record.ref.kind ≠ .prompt → record.ref.operationId
      = s!"{epoch}:{record.ref.sequence}:{record.ref.kind.wire}") :
    (l.enrol record).Named epoch where
  nodup := enrol_nodup h.nodup record
  promptId := by
    intro id k hk
    simp only [SubmissionLedger.enrol] at hk
    split at hk
    · rename_i hkind
      rw [Keyed.lookup_set] at hk
      split at hk
      · rename_i hid'
        cases hk
        rw [← hid', OperationRecord.key, refKey, hkind]
      · exact h.promptId id k hk
    · exact h.promptId id k hk
  promptRow := by
    intro id n hk
    rw [enrol_byKey] at hk
    simp only [SubmissionLedger.enrol]
    split at hk
    · rename_i hkey
      simp only [OperationRecord.key, refKey, Prod.mk.injEq] at hkey
      rw [if_pos hkey.1, Keyed.lookup_set, if_pos hkey.2, OperationRecord.key, refKey, hkey.1,
        hkey.2]
    · rename_i hkey
      have hold := h.promptRow id n hk
      split
      · rename_i hkind
        rw [Keyed.lookup_set, if_neg]
        · exact hold
        · rintro rfl
          exact hkey (by rw [OperationRecord.key, refKey, hkind])
      · exact hold
  setterRow := by
    intro kind id n hkind hk
    rw [enrol_byKey] at hk
    split at hk
    · rename_i hkey
      cases hk
      simp only [OperationRecord.key, refKey, Prod.mk.injEq] at hkey
      obtain ⟨rfl, rfl⟩ := hkey
      exact hid hkind
    · exact h.setterRow kind id n hkind hk

end SubmissionLedger

namespace Authority

/-! ## The abstract state of an authority -/

/-- What the timeline model sees of an authority. -/
def core (a : Authority) : Timeline :=
  { count := a.ledger.sequence
    mark := fun n => (a.objects n).map fun record => (record.key, record.state)
    row := a.ledger.byKey
    timeline := a.timeline
    active := a.active
    position := a.dispatcher.position
    history := a.history }

theorem core_mark (a : Authority) (n : Nat) :
    a.core.mark n = (a.objects n).map fun record => (record.key, record.state) := rfl

theorem core_mark_of {a : Authority} {n : Nat} {record : OperationRecord}
    (h : a.objects n = some record) : a.core.mark n = some (record.key, record.state) := by
  rw [core_mark, h]
  rfl

theorem core_put (a : Authority) (record : OperationRecord) :
    (a.put record).core = a.core.setMark record.ref.sequence record.key record.state := by
  simp only [core, put, Timeline.setMark, Timeline.mk.injEq, true_and, and_true]
  funext n
  by_cases hn : n = record.ref.sequence <;> simp [Objects.put, hn]

theorem core_touch (a : Authority) (record : OperationRecord) : (a.touch record).core = a.core := by
  simp only [core, touch, Timeline.mk.injEq, true_and, and_true]
  exact ⟨rfl, funext fun k => SubmissionLedger.touch_byKey _ _ k⟩

theorem core_releaseHead (a : Authority) (record : OperationRecord) (consume : Bool) :
    (a.releaseHead record consume).core =
      (a.core.setMark record.ref.sequence record.key record.state).release record.key := by
  let cleared := { record with bufferedCompletionSequence := none }
  show ((a.put cleared).touch record).core.release record.key = _
  rw [core_touch, core_put]
  rfl

/-- The invariant of every run. -/
structure Valid (a : Authority) : Prop where
  objects : ∀ n record, a.objects n = some record →
    record.ref.sequence = n ∧ record.ref.bridgeEpoch = a.bridgeEpoch
  ledger : a.ledger.Named a.bridgeEpoch
  core : a.core.WF

/-- What one step does, as the invariant and the model see it. -/
structure Moves (a : Authority) (cause : Timeline.Cause) (a' : Authority) : Prop where
  config : a'.config = a.config
  objects : ∀ n record, a'.objects n = some record →
    record.ref.sequence = n ∧ record.ref.bridgeEpoch = a.bridgeEpoch
  ledger : a'.ledger.Named a.bridgeEpoch
  step : Timeline.Step cause a.core a'.core

theorem Moves.valid {a a' : Authority} {cause} (h : a.Moves cause a') (hv : a.Valid) :
    a'.Valid := by
  have hepoch : a'.bridgeEpoch = a.bridgeEpoch := congrArg AuthorityConfig.bridgeEpoch h.config
  exact ⟨hepoch ▸ h.objects, hepoch ▸ h.ledger, h.step.wf hv.core⟩

section
variable {a : Authority} {record : OperationRecord}

/-- A record found by its key is the object of a retained row. -/
theorem Valid.of_recordByKey (h : a.Valid) {key} (hr : a.recordByKey key = some record) :
    a.ledger.byKey key = some record.ref.sequence ∧ record.key = key ∧
      a.objects record.ref.sequence = some record := by
  obtain ⟨n, hn, ho⟩ := Option.bind_eq_some_iff.mp hr
  have hseq := (h.objects n record ho).1
  subst hseq
  obtain ⟨st, hm⟩ := h.core.row key _ hn
  rw [core_mark_of ho] at hm
  cases hm
  exact ⟨hn, rfl, ho⟩

theorem Valid.recordByKey_of_row (h : a.Valid) {key n} (hn : a.ledger.byKey key = some n)
    (ho : a.objects n = some record) : record.key = key := by
  refine (h.of_recordByKey ?_).2.1
  rw [recordByKey, hn]
  exact ho

theorem Valid.of_recordByRequestId (h : a.Valid) {id}
    (hr : a.recordByRequestId id = some record) :
    a.recordByKey (.prompt, id) = some record := by
  obtain ⟨n, hn, ho⟩ := Option.bind_eq_some_iff.mp hr
  obtain ⟨k, hk, hn⟩ := Option.bind_eq_some_iff.mp hn
  rw [h.ledger.promptId id k hk] at hn
  exact Option.bind_eq_some_iff.mpr ⟨n, hn, ho⟩

theorem Valid.row_free_of_requestId (h : a.Valid) {id} (hr : a.recordByRequestId id = none) :
    a.ledger.byKey (.prompt, id) = none := by
  cases hn : a.ledger.byKey (.prompt, id) with
  | none => rfl
  | some n =>
    obtain ⟨st, hm⟩ := h.core.row _ n hn
    obtain ⟨record, ho, -⟩ := Option.map_eq_some_iff.mp hm
    have : a.recordByRequestId id = some record := by
      rw [recordByRequestId, SubmissionLedger.byRequestId, h.ledger.promptRow id n hn]
      simp [hn, ho]
    rw [this] at hr
    cases hr

theorem Valid.put_objects (h : a.Valid) (he : record.ref.bridgeEpoch = a.bridgeEpoch) :
    ∀ n r, a.objects.put record n = some r →
      r.ref.sequence = n ∧ r.ref.bridgeEpoch = a.bridgeEpoch := by
  intro n r hr
  simp only [Objects.put] at hr
  split at hr
  · rename_i hn
    cases hr
    exact ⟨hn.symm, he⟩
  · exact h.objects n r hr

/-- A step that writes at most one object back, and no row. -/
theorem Valid.moves_put (h : a.Valid) (record : OperationRecord) {a' : Authority} {cause} (hc : a'.config = a.config)
    (he : record.ref.bridgeEpoch = a.bridgeEpoch) (ho : a'.objects = a.objects.put record)
    (hl : a'.ledger = a.ledger ∨ ∃ key, a'.ledger = a.ledger.touch key)
    (hs : Timeline.Step cause a.core a'.core) : a.Moves cause a' := by
  refine ⟨hc, ho ▸ h.put_objects he, ?_, hs⟩
  rcases hl with hl | ⟨key, hl⟩
  · rw [hl]
    exact h.ledger
  · rw [hl]
    exact h.ledger.touch key

/-- A step that writes no object and at most reorders the rows. -/
theorem Valid.moves_of (h : a.Valid) {a' : Authority} {cause} (hc : a'.config = a.config)
    (ho : a'.objects = a.objects)
    (hl : a'.ledger = a.ledger ∨ ∃ key, a'.ledger = a.ledger.touch key)
    (hs : Timeline.Step cause a.core a'.core) : a.Moves cause a' := by
  refine ⟨hc, ho ▸ h.objects, ?_, hs⟩
  rcases hl with hl | ⟨key, hl⟩
  · rw [hl]
    exact h.ledger
  · rw [hl]
    exact h.ledger.touch key

end

/-! ## The blocks, one after the other -/

theorem step_of_core_eq {a a' : Authority} (h : a'.core = a.core) :
    Timeline.Step .plain a.core a'.core := by
  rw [h]
  exact .stay _

theorem setMark_same {c : Timeline} {n k st} (h : c.mark n = some (k, st)) :
    c.setMark n k st = c := by
  have hmark : (c.setMark n k st).mark = c.mark := by
    funext m
    rw [Timeline.setMark_mark]
    split
    · rename_i hm
      rw [hm, h]
    · rfl
  exact Timeline.ext rfl hmark rfl rfl rfl rfl rfl

/-- Rewriting a record without moving its state is not seen. -/
theorem core_put_same {a : Authority} {record : OperationRecord} {old : OperationRecord}
    (ho : a.objects record.ref.sequence = some old) (hk : old.key = record.key)
    (hs : old.state = record.state) : (a.put record).core = a.core := by
  rw [core_put]
  refine setMark_same ?_
  rw [core_mark_of ho, hk, hs]

theorem SetterKind.kind_ne_prompt (kind : SetterKind) : kind.kind ≠ .prompt := by
  cases kind <;> simp [SetterKind.kind]

section admission
variable {a : Authority} (h : a.Valid)
include h

/-- Asking for room at most evicts. -/
theorem Valid.hasAdmissionRoom {room a'} (hroom : a.hasAdmissionRoom = (room, a')) :
    ∃ ledger, a' = { a with ledger := ledger } ∧ ledger.Named a.bridgeEpoch ∧
      ledger.sequence = a.ledger.sequence ∧ a.core.Evicted ledger.byKey := by
  simp only [Authority.hasAdmissionRoom] at hroom
  split at hroom
  · cases hroom
    obtain ⟨he, hn⟩ := SubmissionLedger.makeRoom_evicts a.objects a.pinned
      a.config.limits.ledger h.ledger.nodup
    refine ⟨_, rfl, h.ledger.evicts he hn fun k n record hk ho => h.recordByKey_of_row hk ho,
      he.sequence, he.byKey_sub, ?_⟩
    intro k n hk hgone
    obtain ⟨hp, record, ho, hst⟩ := he.dropped k n hk hgone
    refine ⟨?_, record.key, record.state, core_mark_of ho, hst⟩
    simp only [pinned, Bool.or_eq_false_iff, beq_eq_false_iff_ne, ne_eq,
      decide_eq_false_iff_not] at hp
    rintro (ha | ht)
    · exact hp.1 ha.symm
    · exact hp.2 ht
  · cases hroom
    exact ⟨a.ledger, rfl, h.ledger, rfl, fun _ _ hk => hk, fun k n hk hnone => by
      rw [show a.ledger.byKey k = some n from hk] at hnone
      cases hnone⟩

/-- Enrolling a record under a fresh ordinal and a free key. -/
theorem Valid.moves_enrol {ledger : SubmissionLedger} (hn : ledger.Named a.bridgeEpoch)
    (hseq : ledger.sequence = a.ledger.sequence) (he : a.core.Evicted ledger.byKey)
    {record stored : OperationRecord} (href : stored.ref = record.ref)
    (hs : record.ref.sequence = ledger.sequence + 1)
    (hepoch : record.ref.bridgeEpoch = a.bridgeEpoch)
    (hfree : ledger.byKey record.key = none)
    (hid : record.ref.kind ≠ .prompt → record.ref.operationId
      = s!"{a.bridgeEpoch}:{record.ref.sequence}:{record.ref.kind.wire}")
    {a' : Authority} (hc : a'.config = a.config) (ho : a'.objects = a.objects.put stored)
    (hl : a'.ledger = ({ ledger with sequence := ledger.sequence + 1 }).enrol record)
    (hframe : a'.active = a.active ∧ a'.dispatcher = a.dispatcher ∧ a'.history = a.history)
    (hst : stored.state = .queued ∧ a'.timeline = a.timeline ++ [record.key] ∨
      stored.state = .unsupported ∧ a'.timeline = a.timeline) : a.Moves .plain a' := by
  have hcore : a'.core = { (a.core.enrolled ledger.byKey record.key stored.state) with
      timeline := a'.timeline } := by
    refine Timeline.ext ?_ ?_ ?_ rfl hframe.1 (congrArg Dispatcher.position hframe.2.1) hframe.2.2
    · show a'.ledger.sequence = a.ledger.sequence + 1
      rw [hl, SubmissionLedger.enrol_sequence, hseq]
    · funext n
      show (a'.objects n).map _ = if n = a.ledger.sequence + 1 then _ else (a.objects n).map _
      rw [ho]
      by_cases hns : n = a.ledger.sequence + 1
      · simp [Objects.put, href, hs, hseq, hns, OperationRecord.key]
      · simp [Objects.put, href, hs, hseq, hns]
    · funext k
      show a'.ledger.byKey k = if record.key = k then some (a.ledger.sequence + 1) else _
      rw [hl, SubmissionLedger.enrol_byKey, hs, hseq]
      rfl
  refine ⟨hc, ?_, ?_, ?_⟩
  · rw [ho]
    exact h.put_objects (by rw [href, hepoch])
  · rw [hl]
    have hn' : SubmissionLedger.Named a.bridgeEpoch
        { ledger with sequence := ledger.sequence + 1 } :=
      ⟨hn.nodup, hn.promptId, hn.promptRow, hn.setterRow⟩
    exact hn'.enrol record hid
  · rw [hcore]
    rcases hst with ⟨hst, ht⟩ | ⟨hst, ht⟩ <;> rw [hst, ht]
    · exact .join he hfree
    · exact .refuse he hfree

theorem Valid.moves_evicted {ledger : SubmissionLedger} (hn : ledger.Named a.bridgeEpoch)
    (hseq : ledger.sequence = a.ledger.sequence) (he : a.core.Evicted ledger.byKey) :
    a.Moves .plain { a with ledger := ledger } := by
  refine ⟨rfl, h.objects, hn, ?_⟩
  have hcore : ({ a with ledger := ledger } : Authority).core
      = { a.core with row := ledger.byKey } := by
    simp [Authority.core, hseq]
  rw [hcore]
  exact .evict he

/-- A request id that names no prompt finds no row under its key. -/
theorem Valid.prompt_key_free (request : AdmittedRequest)
    (hnone : a.recordByRequestId request.request.requestId = none)
    {ledger : SubmissionLedger} (he : a.core.Evicted ledger.byKey) (sequence : Nat) :
    ledger.byKey (.prompt, textOr (some request.request.requestId)
      s!"{a.bridgeEpoch}:{sequence}:{ControlOperationKind.prompt.wire}") = none := by
  have hid : textOr (some request.request.requestId)
      s!"{a.bridgeEpoch}:{sequence}:{ControlOperationKind.prompt.wire}"
        = request.request.requestId := by
    simp [textOr, request.requestId_ne]
  rw [hid]
  cases hk : ledger.byKey (.prompt, request.request.requestId) with
  | none => rfl
  | some n =>
    have := he.sub _ _ hk
    rw [show a.core.row _ = _ from h.row_free_of_requestId hnone] at this
    cases this

/-- A retained setter of the minted name would carry a later ordinal than was minted. -/
theorem Valid.setter_key_free (kind : SetterKind) {ledger : SubmissionLedger}
    (hn : ledger.Named a.bridgeEpoch) (hseq : ledger.sequence = a.ledger.sequence)
    (he : a.core.Evicted ledger.byKey) :
    ledger.byKey (kind.kind,
      s!"{a.bridgeEpoch}:{ledger.sequence + 1}:{kind.kind.wire}") = none := by
  cases hk : ledger.byKey (kind.kind, _) with
  | none => rfl
  | some n =>
    have hname := hn.setterRow _ _ n kind.kind_ne_prompt hk
    have hfresh : ledger.sequence + 1 = n := setterId_inj hname
    obtain ⟨st, hm⟩ := h.core.row _ n (he.sub _ _ hk)
    have hbound : n ≤ a.ledger.sequence := h.core.bound n _ hm
    omega

theorem Valid.submit_moves (request : AdmittedRequest) :
    a.Moves .plain (a.submit request).2 := by
  have stay : a.Moves .plain a := h.moves_of rfl rfl (.inl rfl) (.stay _)
  unfold submit
  dsimp only
  split
  · exact stay
  split
  · exact stay
  split
  · rename_i prior hprior
    split
    · exact stay
    · exact h.moves_of rfl rfl (.inr ⟨_, rfl⟩) (step_of_core_eq (core_touch a prior))
  · rename_i hnone
    split
    · rename_i a' hroom
      obtain ⟨ledger, rfl, hn, hseq, he⟩ := h.hasAdmissionRoom hroom
      exact h.moves_evicted hn hseq he
    · rename_i a' hroom
      obtain ⟨ledger, rfl, hn, hseq, he⟩ := h.hasAdmissionRoom hroom
      have hfree := h.prompt_key_free request hnone he (ledger.sequence + 1)
      split
      · refine h.moves_enrol hn hseq he rfl rfl rfl ?_ ?_ rfl rfl rfl ⟨rfl, rfl, rfl⟩
          (.inr ⟨rfl, rfl⟩)
        · exact hfree
        · exact fun hk => absurd rfl hk
      · split
        all_goals
          refine h.moves_enrol hn hseq he rfl rfl rfl ?_ ?_ rfl rfl rfl ⟨rfl, rfl, rfl⟩
            (.inl ⟨rfl, rfl⟩)
          · exact hfree
          · exact fun hk => absurd rfl hk

theorem Valid.admitSetter_moves (kind : SetterKind) (value at_ : String) :
    a.Moves .plain (a.admitSetter kind value at_).2 := by
  have stay : a.Moves .plain a := h.moves_of rfl rfl (.inl rfl) (.stay _)
  unfold admitSetter
  split
  · exact stay
  split
  · exact stay
  split
  · rename_i a' hroom
    obtain ⟨ledger, rfl, hn, hseq, he⟩ := h.hasAdmissionRoom hroom
    exact h.moves_evicted hn hseq he
  · rename_i a' hroom
    obtain ⟨ledger, rfl, hn, hseq, he⟩ := h.hasAdmissionRoom hroom
    refine h.moves_enrol hn hseq he rfl rfl rfl ?_ ?_ rfl rfl rfl ⟨rfl, rfl, rfl⟩
      (.inl ⟨rfl, rfl⟩)
    · exact h.setter_key_free kind hn hseq he
    · exact fun _ => rfl

end admission

/-- What applying an answer of the adapter does to the record it is for:
it keeps the head, accepted or blocked, or it retires it. -/
inductive Applied (a : Authority) (record : OperationRecord) : Authority → Prop where
  | held (written : OperationRecord) (href : written.ref = record.ref)
      (hst : written.state = .delivered ∨ written.state = .unknown) :
      Applied a record (a.put written)
  | retired (written : OperationRecord) (consume : Bool) (href : written.ref = record.ref)
      (hst : written.state = .delivered ∨ written.state = .rejected ∨
        written.state = .unsupported) :
      Applied a record { (a.releaseHead written consume) with wake := true }

theorem acceptPrompt_ref (a : Authority) (record : OperationRecord) (receipt : SubmissionReceipt)
    (at_ : String) : (a.acceptPrompt record receipt at_).ref = record.ref := by
  simp [acceptPrompt]

theorem acceptPrompt_state (a : Authority) (record : OperationRecord)
    (receipt : SubmissionReceipt) (at_ : String) :
    (a.acceptPrompt record receipt at_).state = .delivered := by
  simp [acceptPrompt]

theorem acceptPrompt_buffered (a : Authority) (record : OperationRecord)
    (receipt : SubmissionReceipt) (at_ : String) :
    (a.acceptPrompt record receipt at_).bufferedCompletionSequence
      = record.bufferedCompletionSequence := by
  simp [acceptPrompt]

/-- Completing a delivered record retires it. -/
theorem completeDelivered_applied (a : Authority) {record current : OperationRecord}
    (href : current.ref = record.ref) (at_ : String) :
    Applied a record (a.completeDelivered current at_) :=
  .retired (current.markTerminal .delivered current.detail at_) true href (.inl rfl)

theorem applyPromptReceipt_applied {a : Authority} {record : OperationRecord}
    {result : MethodResult} {at_ : String} {released applied}
    (h : a.applyPromptReceipt record result at_ = .ok (released, applied)) :
    Applied a record applied := by
  unfold applyPromptReceipt at h
  cases result with
  | set r => cases h
  | other => cases h
  | receipt receipt =>
    dsimp only at h
    split at h
    · cases h
    split at h
    · cases h
      exact .held _ (by simp) (by simp)
    split at h
    · split at h <;> cases h
      · exact .held _ (acceptPrompt_ref ..) (.inl (acceptPrompt_state ..))
      · exact completeDelivered_applied a (by rw [acceptPrompt_ref]) at_
    · cases h
      exact .retired _ false (by simp) (by simp)
    · cases h
      exact .retired _ false (by simp) (by simp)
    · split at h <;> cases h
      · exact completeDelivered_applied a (by rw [acceptPrompt_ref]) at_
      · exact .held _ (by simp) (by simp)

theorem applySetResult_applied {a : Authority} {record : OperationRecord}
    {result : MethodResult} {at_ : String} {released applied}
    (h : a.applySetResult record result at_ = .ok (released, applied)) :
    Applied a record applied := by
  unfold applySetResult at h
  cases result with
  | receipt r => cases h
  | other => cases h
  | set r =>
    dsimp only at h
    split at h
    · cases h
    split at h
    · cases h
      exact completeDelivered_applied a (by simp) at_
    split at h
    · cases h
      exact .held _ (by simp) (.inr rfl)
    · cases h
      refine .retired _ false (by simp) ?_
      by_cases hu : r.acceptance = .unsupported <;> simp [hu]

/-- A result is applied only to the active record, while it is retained. -/
theorem applyMethodResult_applied {a : Authority} {record : OperationRecord}
    {result : MethodResult} {at_ : String} {released applied}
    (h : a.applyMethodResult record result at_ = .ok (released, applied)) :
    a.ledger.byKey record.key = some record.ref.sequence ∧ a.active = some record.key ∧
      Applied a record applied := by
  unfold applyMethodResult at h
  split at h
  · cases h
  rename_i hcur
  rw [not_or, not_not, not_not] at hcur
  refine ⟨hcur.1, hcur.2, ?_⟩
  split at h
  · exact applyPromptReceipt_applied h
  · exact applySetResult_applied h

section blocks
variable {a : Authority} (h : a.Valid)
include h

theorem Valid.stay : a.Moves .plain a := h.moves_of rfl rfl (.inl rfl) (.stay _)

/-- A retained record, as the model sees it. -/
theorem Valid.row_and_mark {key record} (hr : a.recordByKey key = some record) :
    a.core.row record.key = some record.ref.sequence ∧
      a.core.mark record.ref.sequence = some (record.key, record.state) ∧
      record.ref.bridgeEpoch = a.bridgeEpoch := by
  obtain ⟨hrow, hkey, ho⟩ := h.of_recordByKey hr
  exact ⟨hkey ▸ hrow, core_mark_of ho, (h.objects _ _ ho).2⟩

/-- Writing a record back and releasing the head it holds. -/
theorem Valid.moves_release {old record : OperationRecord} (href : record.ref = old.ref)
    (hepoch : old.ref.bridgeEpoch = a.bridgeEpoch) (consume : Bool) {a' : Authority} {cause}
    (hc : a'.config = a.config) (ho : a'.objects = (a.releaseHead record consume).objects)
    (hl : a'.ledger = (a.releaseHead record consume).ledger)
    (hs : Timeline.Step cause a.core a'.core) : a.Moves cause a' := by
  refine h.moves_put { record with bufferedCompletionSequence := none } hc ?_ ho (.inr ⟨_, hl⟩) hs
  rw [href]
  exact hepoch

theorem Valid.withdraw_moves (epoch requestId : String) (cockpitOnly : Bool) (at_ : String) :
    a.Moves .plain (a.withdraw epoch requestId cockpitOnly at_).2 := by
  unfold withdraw
  dsimp only
  split
  · exact h.stay
  split
  · exact h.stay
  rename_i record hrec
  obtain ⟨hrow, hmark, hepoch⟩ := h.row_and_mark (h.of_recordByRequestId hrec)
  split
  · exact h.stay
  split
  · exact h.stay
  split
  · exact h.stay
  rename_i hq
  have hq : record.state = .queued := not_not.mp hq
  rw [hq] at hmark
  split
  · exact h.stay
  let tombstone := record.markTerminal .withdrawn (some "queued submission was withdrawn") at_
  let resolved := tombstone.resolve (.receipt (tombstone.receipt .rejected a.bridgeEpoch))
  have href : resolved.ref = record.ref := by simp [resolved, tombstone]
  refine h.moves_put resolved rfl (by rw [href, hepoch]) rfl (.inl rfl) ?_
  show Timeline.Step .plain a.core { (a.put resolved).core with
    timeline := a.timeline.erase record.key
    history := a.history ++ [.withdrawn record.ref.sequence] }
  rw [core_put, href, show resolved.key = record.key by simp [resolved, tombstone],
    show resolved.state = .withdrawn by simp [resolved, tombstone]]
  exact .withdraw hrow hmark

theorem Valid.resolveOperation_moves (operationId : String) (kind : ControlOperationKind)
    (resolution : OperationResolution) (detail at_ : String) :
    a.Moves .plain (a.resolveOperation operationId kind resolution detail at_).2 := by
  unfold resolveOperation
  split
  · exact h.stay
  rename_i record hrec
  obtain ⟨hrow, hmark, hepoch⟩ := h.row_and_mark hrec
  split
  · exact h.stay
  rename_i hu
  have hu : record.state = .unknown := not_not.mp hu
  rw [hu] at hmark
  dsimp only
  refine h.moves_release (OperationRecord.markTerminal_ref record _ _ _) hepoch false rfl rfl rfl ?_
  show Timeline.Step .plain a.core (a.releaseHead _ false).core
  rw [core_releaseHead]
  refine .settle hrow hmark (.inl rfl) ?_
  cases resolution <;> simp

theorem Valid.observeEvent_moves (event : AdapterEvent) :
    a.Moves .plain (a.observeEvent event).2 := by
  have stay : a.Moves .plain { a with lastAdapterSequence := event.sequence } :=
    h.moves_of rfl rfl (.inl rfl) (.stay _)
  unfold observeEvent
  split
  · exact h.stay
  dsimp only
  split
  · exact h.moves_of rfl rfl (.inl rfl) (.stay _)
  split
  · exact stay
  rename_i ref _
  split
  · exact stay
  split
  · exact stay
  split
  · exact stay
  rename_i active hactive
  obtain ⟨key, ha, hrec⟩ := Option.bind_eq_some_iff.mp hactive
  have ha : a.active = some key := ha
  have hrec : a.recordByKey key = some active := hrec
  obtain ⟨-, hkey, ho⟩ := h.of_recordByKey hrec
  obtain ⟨hrow, hmark, hepoch⟩ := h.row_and_mark hrec
  split
  · exact stay
  split
  · split
    · exact stay
    · -- a completion ahead of the answer is only buffered
      let buffered := { active with bufferedCompletionSequence := some event.sequence }
      have hsame : (a.put buffered).core = a.core := core_put_same ho rfl rfl
      exact h.moves_put buffered rfl hepoch rfl (.inl rfl) (step_of_core_eq hsame)
  split
  · exact stay
  · rename_i hne
    refine h.moves_release (OperationRecord.markTerminal_ref active _ _ _) hepoch true rfl rfl rfl ?_
    show Timeline.Step .plain a.core (a.releaseHead _ true).core
    rw [core_releaseHead]
    refine .settle hrow hmark ?_ (.inl rfl)
    by_cases hu : active.state = .unknown
    · exact .inl hu
    · refine .inr ⟨?_, hkey ▸ ha⟩
      by_contra hd
      exact hne ⟨hd, hu⟩

theorem Valid.reconcileStart_moves (requestId : String) (epoch : Option String) :
    a.Moves .plain (a.reconcileStart requestId epoch).2 := by
  unfold reconcileStart
  split
  · exact h.stay
  split
  · exact h.stay
  rename_i record hrec
  split
  · exact h.moves_of rfl rfl (.inr ⟨_, rfl⟩) (step_of_core_eq (core_touch a record))
  · exact h.moves_of rfl rfl (.inl rfl) (.stay _)

/-- The cause of a reconciliation answer, written on `current`. -/
def reconcileCause (current : OperationRecord) : ReconciliationState → Timeline.Cause
  | .accepted => .reconciled current.ref.sequence .delivered
  | .rejected => .reconciled current.ref.sequence .rejected
  | .unsupported => .reconciled current.ref.sequence .unsupported
  | .unresolved => .plain

theorem Valid.reconcileApply_refused {requestId : String} {ref : ControlOperationRef}
    {result : ReconciliationResult}
    (hr : result.requestId ≠ requestId ∨ a.recordByKey (refKey ref) = none) :
    a.Moves .plain (a.reconcileApply requestId ref result).2 := by
  unfold reconcileApply
  split
  · exact h.stay
  split
  · exact h.stay
  · rename_i hid _ current hcur
    rcases hr with hr | hr
    · exact absurd hr hid
    · rw [hcur] at hr
      cases hr

theorem Valid.reconcileApply_moves {requestId : String} {ref : ControlOperationRef}
    {result : ReconciliationResult} {current : OperationRecord}
    (hid : result.requestId = requestId) (hcur : a.recordByKey (refKey ref) = some current) :
    a.Moves (reconcileCause current result.state) (a.reconcileApply requestId ref result).2 := by
  obtain ⟨-, -, ho⟩ := h.of_recordByKey hcur
  obtain ⟨hrow, hmark, hepoch⟩ := h.row_and_mark hcur
  have hrefused : ∀ st, st = .rejected ∨ st = .unsupported →
      a.Moves (.reconciled current.ref.sequence st) { (a.releaseHead
        (current.markTerminal st result.detail result.reconciledAt) false) with wake := true } := by
    intro st hst
    refine h.moves_release (OperationRecord.markTerminal_ref current _ _ _) hepoch false rfl rfl rfl
      ?_
    show Timeline.Step _ a.core (a.releaseHead _ false).core
    rw [core_releaseHead]
    exact .reconcileRefused hrow hmark hst
  unfold reconcileApply
  rw [if_neg (not_not.mpr hid), hcur]
  dsimp only
  cases hst : result.state with
  | accepted =>
    let accepted := { current with
      state := .delivered
      acceptedAt := some result.reconciledAt
      vendorCorrelationId := result.vendorCorrelationId
      detail := result.detail
      updatedAt := result.reconciledAt }
    refine h.moves_put accepted rfl hepoch rfl (.inl rfl) ?_
    show Timeline.Step _ a.core (a.put accepted).core
    rw [core_put]
    exact .reconcileAccepted hrow hmark
  | rejected => exact hrefused .rejected (.inl rfl)
  | unsupported => exact hrefused .unsupported (.inr rfl)
  | unresolved =>
    let unresolved := { current with
      detail := result.detail
      updatedAt := result.reconciledAt }
    have hsame : (a.put unresolved).core = a.core := core_put_same ho rfl rfl
    exact h.moves_put unresolved rfl hepoch rfl (.inl rfl) (step_of_core_eq hsame)

/-! ### The dispatcher -/

/-- The dispatcher's record, which it keeps a reference to. -/
theorem Valid.mark_of_object {n record} (ho : a.objects n = some record) :
    record.ref.sequence = n ∧ a.core.mark n = some (record.key, record.state) ∧
      record.ref.bridgeEpoch = a.bridgeEpoch :=
  ⟨(h.objects n record ho).1, core_mark_of ho, (h.objects n record ho).2⟩

theorem Valid.look_moves (hd : a.dispatcher = .looking) {record}
    (hh : a.dispatchableHead = some (some record)) :
    a.Moves .plain { a with dispatcher := .preflight record.ref.sequence } := by
  unfold dispatchableHead at hh
  split at hh
  · cases hh
  rename_i key rest htl
  split at hh
  · cases hh
  rename_i hact
  split at hh
  · cases hh
  rename_i found hrec
  split at hh
  · cases hh
  rename_i hq
  cases hh
  have hq : record.state = .queued := by
    by_contra hne
    exact hq (.inl hne)
  obtain ⟨hrow, hmark, -⟩ := h.row_and_mark hrec
  obtain ⟨-, hkey, -⟩ := h.of_recordByKey hrec
  rw [hq] at hmark
  refine h.moves_of rfl rfl (.inl rfl) (.choose (k := record.key) ?_ ?_ hrow hmark (not_not.mp hact))
  · show a.dispatcher.position = .free
    rw [hd]
    rfl
  · show a.timeline.head? = some record.key
    rw [htl, hkey]
    rfl

theorem Valid.applied_moves {n record applied} (ho : a.objects n = some record)
    (hp : a.dispatcher.position = .called n) (hr : a.ledger.byKey record.key = some n)
    (ha : a.active = some record.key) (happ : Applied a record applied) {d : Dispatcher}
    (hd : d.position = .free) : a.Moves .plain { applied with dispatcher := d } := by
  obtain ⟨hseq, hmark, hepoch⟩ := h.mark_of_object ho
  cases happ with
  | held written href hst =>
    refine h.moves_put written rfl (by rw [href, hepoch]) rfl (.inl rfl) ?_
    show Timeline.Step .plain a.core { (a.put written).core with position := d.position }
    rw [core_put, href, OperationRecord.key, href, hseq, hd]
    exact .hold hp hr hmark ha hst
  | retired written consume href hst =>
    refine h.moves_release href hepoch consume rfl rfl rfl ?_
    show Timeline.Step .plain a.core
      { (a.releaseHead written consume).core with position := d.position }
    rw [core_releaseHead, href, OperationRecord.key, href, hseq, hd]
    exact .finish hp hr hmark ha hst

/-- The cause of a dispatcher block. -/
def dispatcherCause : Dispatcher → Timeline.Cause
  | .preflightClaim n _ _ => .preflightClaim n
  | .possibleSend n _ _ => .possibleSend n
  | _ => .plain

theorem Valid.declined_moves {n detail record} (hd : a.dispatcher = .declined n detail)
    (ho : a.objects n = some record) (at_ : String) :
    a.Moves .plain { (a.preflightDeclined record detail at_) with dispatcher := .waiting } := by
  obtain ⟨hseq, hmark, hepoch⟩ := h.mark_of_object ho
  subst hseq
  let noted := { record with detail := some detail, updatedAt := at_ }
  have hput : ∀ written : OperationRecord, written.ref = record.ref →
      written.state = record.state →
      a.Moves .plain { (a.put written) with dispatcher := .waiting } := by
    intro written href hst
    have hsame : (a.put written).core = a.core :=
      core_put_same (href ▸ ho) (by rw [OperationRecord.key, OperationRecord.key, href]) hst.symm
    refine h.moves_put written rfl (by rw [href, hepoch]) rfl (.inl rfl) ?_
    show Timeline.Step .plain a.core { (a.put written).core with position := .free }
    rw [hsame]
    refine .unchoose (n := record.ref.sequence) ?_
    show a.dispatcher.position = _
    rw [hd]
    rfl
  unfold preflightDeclined
  dsimp only
  split
  · exact hput (noted.resolve _) (by simp [noted]) (by simp [noted])
  · exact hput noted rfl rfl

theorem Valid.unknown_moves {n record written} (ho : a.objects n = some record)
    (href : written.ref = record.ref) (hst : written.state = .unknown) {a' : Authority} {cause}
    (hc : a'.config = a.config) (hobj : a'.objects = a.objects.put written)
    (hl : a'.ledger = a.ledger)
    (hs : Timeline.Step cause a.core { (a.core.setMark n record.key .unknown) with
      timeline := a'.timeline, active := a'.active, position := a'.dispatcher.position,
      history := a'.history }) : a.Moves cause a' := by
  obtain ⟨hseq, hmark, hepoch⟩ := h.mark_of_object ho
  refine h.moves_put written hc (by rw [href, hepoch]) hobj (.inl hl) ?_
  have hcore : a'.core = { (a.put written).core with
      timeline := a'.timeline, active := a'.active, position := a'.dispatcher.position,
      history := a'.history } :=
    Timeline.ext (congrArg (·.sequence) hl) (by funext m; simp only [core_mark, hobj]; rfl)
      (congrArg SubmissionLedger.byKey hl) rfl rfl rfl rfl
  rw [core_put, href, hst, OperationRecord.key, href, hseq] at hcore
  rw [hcore]
  exact hs

theorem Valid.claiming_moves {n record claimed} {at_ : String} (hd : a.dispatcher = .claiming n)
    (ho : a.objects n = some record) (hclaim : a.claimHead record at_ = some claimed) :
    a.Moves .plain { claimed with
      dispatcher := .calling n, history := a.history ++ [.invoked n] } := by
  obtain ⟨hseq, hmark, hepoch⟩ := h.mark_of_object ho
  unfold claimHead at hclaim
  split at hclaim
  · cases hclaim
  rename_i hok
  cases hclaim
  simp only [not_or, not_not] at hok
  obtain ⟨hhead, hact, hst, -, -⟩ := hok
  rw [hst] at hmark
  let dispatching := { record with state := .dispatching, updatedAt := at_ }
  refine h.moves_put dispatching rfl hepoch rfl (.inl rfl) ?_
  show Timeline.Step .plain a.core { (a.put dispatching).core with
    active := some record.key, position := .calling n, history := a.history ++ [.invoked n] }
  rw [core_put]
  show Timeline.Step .plain a.core { (a.core.setMark record.ref.sequence record.key .dispatching) with
    active := some record.key, position := .calling n, history := a.history ++ [.invoked n] }
  rw [hseq]
  refine .claim ?_ hhead hmark hact
  show a.dispatcher.position = _
  rw [hd]
  rfl

theorem Valid.presendBusy_moves {n detail record requeued} {at_ : String}
    (hp : a.dispatcher.position = .called n) (ho : a.objects n = some record)
    (hok : a.certifiedPreSendBusy record detail at_ = .ok requeued) :
    a.Moves .plain { requeued with
      dispatcher := .waiting, history := a.history ++ [.requeued n] } := by
  obtain ⟨hseq, hmark, hepoch⟩ := h.mark_of_object ho
  unfold certifiedPreSendBusy at hok
  split at hok
  · cases hok
  rename_i hcur
  simp only [not_or, not_not] at hcur
  obtain ⟨hact, hst⟩ := hcur
  rw [hst] at hmark
  dsimp only at hok
  have hput : ∀ written : OperationRecord, written.ref = record.ref → written.state = .queued →
      a.Moves .plain { (a.put written) with
        active := none, dispatcher := .waiting, history := a.history ++ [.requeued n] } := by
    intro written href hq
    refine h.moves_put written rfl (by rw [href, hepoch]) rfl (.inl rfl) ?_
    show Timeline.Step .plain a.core { (a.put written).core with
      active := none, position := .free, history := a.history ++ [.requeued n] }
    rw [core_put, href, hq, OperationRecord.key, href, hseq]
    exact .requeue hp hmark hact
  split at hok
  · cases hok
    exact hput _ (by simp) (by simp)
  · cases hok
    exact hput _ rfl rfl

/-- A refused requeue, or an incoherent answer for a record that moved,
ends the dispatcher; its record is then no longer dispatching. -/
theorem Valid.abandon_moves {n record} (hp : a.dispatcher.position = .called n)
    (ho : a.objects n = some record)
    (hbad : a.active ≠ some record.key ∨ record.state ≠ .dispatching) :
    a.Moves .plain { a with dispatcher := .stopped } := by
  obtain ⟨hseq, hmark, hepoch⟩ := h.mark_of_object ho
  refine h.moves_of rfl rfl (.inl rfl) (.abandon hp hmark ?_)
  rcases hbad with hbad | hbad
  · intro hst
    rw [hst] at hmark
    exact hbad (h.core.dispatching n _ hmark).1
  · exact hbad

theorem Valid.incoherent_moves {n error record blocked} {at_ : String}
    (hp : a.dispatcher.position = .called n) (ho : a.objects n = some record)
    (hok : a.incoherentMethodResult record error at_ = .ok blocked) :
    a.Moves .plain { blocked with dispatcher := .waiting } := by
  obtain ⟨hseq, hmark, hepoch⟩ := h.mark_of_object ho
  unfold incoherentMethodResult at hok
  split at hok
  · cases hok
  rename_i hcur
  simp only [not_or, not_not] at hcur
  obtain ⟨hact, hst⟩ := hcur
  cases hok
  rw [hst] at hmark
  have hr := (h.core.pending n _ _ hmark (.inr rfl)).1
  refine h.unknown_moves ho (by simp) (by simp) rfl rfl rfl ?_
  exact .hold hp hr hmark hact (.inr rfl)

theorem Valid.block_moves {at_ : String} {a' : Authority}
    (hb : a.dispatcherBlock at_ = some a') : a.Moves (dispatcherCause a.dispatcher) a' := by
  unfold dispatcherBlock at hb
  cases hd : a.dispatcher with
  | declined n detail =>
    rw [hd] at hb
    obtain ⟨record, ho, hb⟩ := Option.bind_eq_some_iff.mp hb
    cases hb
    exact h.declined_moves hd ho at_
  | preflightClaim n detail vendor =>
    rw [hd] at hb
    obtain ⟨record, ho, hb⟩ := Option.bind_eq_some_iff.mp hb
    cases hb
    -- the record was remembered from before the preflight: this cause is not quiet
    refine h.unknown_moves ho (by simp) (by simp) rfl rfl rfl ?_
    refine .preflightClaim ?_ (core_mark_of ho)
    show a.dispatcher.position = _
    rw [hd]
    rfl
  | claiming n =>
    rw [hd] at hb
    obtain ⟨record, ho, hb⟩ := Option.bind_eq_some_iff.mp hb
    cases hclaim : a.claimHead record at_ with
    | none =>
      rw [hclaim] at hb
      cases hb
      refine h.moves_of rfl rfl (.inl rfl) (.unchoose (n := n) ?_)
      show a.dispatcher.position = _
      rw [hd]
      rfl
    | some claimed =>
      rw [hclaim] at hb
      cases hb
      exact h.claiming_moves hd ho hclaim
  | presendBusy n detail =>
    have hp : a.dispatcher.position = .called n := by rw [hd]; rfl
    rw [hd] at hb
    obtain ⟨record, ho, hb⟩ := Option.bind_eq_some_iff.mp hb
    cases hok : a.certifiedPreSendBusy record detail at_ with
    | error e =>
      rw [hok] at hb
      cases hb
      refine h.abandon_moves hp ho ?_
      by_contra hgood
      simp [certifiedPreSendBusy, hgood] at hok
    | ok requeued =>
      rw [hok] at hb
      cases hb
      exact h.presendBusy_moves hp ho hok
  | possibleSend n detail vendor =>
    have hp : a.dispatcher.position = .called n := by rw [hd]; rfl
    rw [hd] at hb
    obtain ⟨record, ho, hb⟩ := Option.bind_eq_some_iff.mp hb
    cases hb
    refine h.unknown_moves ho (by simp) (by simp) rfl rfl rfl ?_
    exact .possibleSend hp (core_mark_of ho)
  | returned n result =>
    have hp : a.dispatcher.position = .called n := by rw [hd]; rfl
    rw [hd] at hb
    obtain ⟨record, ho, hb⟩ := Option.bind_eq_some_iff.mp hb
    cases hok : a.applyMethodResult record result at_ with
    | error message =>
      rw [hok] at hb
      cases hb
      -- an unreadable answer leaves the record and goes on as incoherent
      refine h.moves_of rfl rfl (.inl rfl) (step_of_core_eq ?_)
      exact Timeline.ext rfl rfl rfl rfl rfl hp.symm rfl
    | ok answer =>
      obtain ⟨released, applied⟩ := answer
      rw [hok] at hb
      cases hb
      obtain ⟨hr, ha, happ⟩ := applyMethodResult_applied hok
      rw [(h.mark_of_object ho).1] at hr
      refine h.applied_moves ho hp hr ha happ ?_
      cases released <;> rfl
  | incoherent n error =>
    have hp : a.dispatcher.position = .called n := by rw [hd]; rfl
    rw [hd] at hb
    obtain ⟨record, ho, hb⟩ := Option.bind_eq_some_iff.mp hb
    cases hok : a.incoherentMethodResult record error at_ with
    | error e =>
      rw [hok] at hb
      cases hb
      refine h.abandon_moves hp ho ?_
      by_contra hgood
      simp [incoherentMethodResult, hgood] at hok
    | ok blocked =>
      rw [hok] at hb
      cases hb
      exact h.incoherent_moves hp ho hok
  | waiting | looking | preflight | calling | stopped =>
    rw [hd] at hb
    cases hb

end blocks

/-- Why a step writes a record it remembered, if it does. -/
def cause (a : Authority) : Step → Timeline.Cause
  | .reconcileAnswer i (some result) =>
    match a.reconciling[i]? with
    | some (requestId, ref) =>
      match a.recordByKey (refKey ref) with
      | some current =>
        if result.requestId = requestId then reconcileCause current result.state else .plain
      | none => .plain
    | none => .plain
  | .block _ => dispatcherCause a.dispatcher
  | _ => .plain

/-- Dropping a reconciliation in flight is not seen. -/
theorem Valid.erase_reconciling {a : Authority} (h : a.Valid)
    (calls : List (String × ControlOperationRef)) : Valid { a with reconciling := calls } :=
  ⟨h.objects, h.ledger, h.core⟩

theorem Valid.reconcileAnswer_moves {a a' : Authority} (h : a.Valid) {i answer}
    (hs : a.step (.reconcileAnswer i answer) = some a') :
    a.Moves (a.cause (.reconcileAnswer i answer)) a' := by
  obtain ⟨⟨requestId, ref⟩, hi, hs⟩ := Option.bind_eq_some_iff.mp hs
  let b : Authority := { a with reconciling := a.reconciling.eraseIdx i }
  have hb : b.Valid := h.erase_reconciling _
  have hback : ∀ {cause c}, b.Moves cause c → a.Moves cause c :=
    fun hm => ⟨hm.config, hm.objects, hm.ledger, hm.step⟩
  cases answer with
  | none =>
    cases hs
    exact h.moves_of rfl rfl (.inl rfl) (.stay _)
  | some result =>
    cases hs
    simp only [cause, hi]
    cases hcur : a.recordByKey (refKey ref) with
    | none => exact hback (hb.reconcileApply_refused (.inr hcur))
    | some current =>
      dsimp only
      split
      · rename_i hid
        exact hback (hb.reconcileApply_moves hid hcur)
      · rename_i hid
        exact hback (hb.reconcileApply_refused (.inl hid))

/-- The refinement: every step of the authority is a transition of the
timeline, and keeps the authority valid. -/
theorem Valid.step_refines {a a' : Authority} (h : a.Valid) {l : Step}
    (hs : a.step l = some a') : a.Moves (a.cause l) a' := by
  cases l with
  | submit request =>
    cases hs
    exact h.submit_moves request
  | setter kind value at_ =>
    cases hs
    exact h.admitSetter_moves kind value at_
  | withdraw epoch requestId cockpitOnly at_ =>
    cases hs
    exact h.withdraw_moves epoch requestId cockpitOnly at_
  | resolveOperation operationId kind resolution detail at_ =>
    cases hs
    exact h.resolveOperation_moves operationId kind resolution detail at_
  | observeEvent event =>
    cases hs
    exact h.observeEvent_moves event
  | snapshotUpdated snapshot =>
    cases hs
    exact h.moves_of rfl rfl (.inl rfl) (.stay _)
  | reconcileStart requestId epoch =>
    cases hs
    exact h.reconcileStart_moves requestId epoch
  | reconcileAnswer i answer => exact h.reconcileAnswer_moves hs
  | wakeUp =>
    simp only [step] at hs
    split at hs
    · rename_i hd
      split at hs
      · cases hs
        refine h.moves_of rfl rfl (.inl rfl) (step_of_core_eq ?_)
        exact Timeline.ext rfl rfl rfl rfl rfl (congrArg Dispatcher.position hd).symm rfl
      · cases hs
    · cases hs
  | look =>
    simp only [step] at hs
    split at hs
    · rename_i hd
      -- a dispatcher that finds nothing to do moves between free positions
      have hrest : ∀ d : Dispatcher, d.position = .free →
          a.Moves .plain { a with dispatcher := d } := by
        intro d hfree
        refine h.moves_of rfl rfl (.inl rfl) (step_of_core_eq ?_)
        refine Timeline.ext rfl rfl rfl rfl rfl ?_ rfl
        show d.position = a.dispatcher.position
        rw [hfree, hd]
        rfl
      split at hs
      · cases hs
        exact hrest .stopped rfl
      · cases hs
        exact hrest .waiting rfl
      · rename_i record hh
        cases hs
        exact h.look_moves hd hh
    · cases hs
  | preflightAnswer answer =>
    simp only [step] at hs
    split at hs
    · rename_i n hd
      cases hs
      have hp : a.dispatcher.position = .chosen n := by rw [hd]; rfl
      -- until the head is claimed, the model sees the same chosen operation
      have hkeep : ∀ d : Dispatcher, d.position = .chosen n →
          a.Moves .plain { a with dispatcher := d } := fun d hd' =>
        h.moves_of rfl rfl (.inl rfl)
          (step_of_core_eq (Timeline.ext rfl rfl rfl rfl rfl (hd'.trans hp.symm) rfl))
      cases answer with
      | ready => exact hkeep (.claiming n) rfl
      | busy detail => exact hkeep (.declined n detail) rfl
      | disconnected sent detail vendor =>
        cases sent with
        | true => exact hkeep (.preflightClaim n detail vendor) rfl
        | false => exact hkeep (.declined n detail) rfl
      | failed => exact h.moves_of rfl rfl (.inl rfl) (.unchoose hp)
    · cases hs
  | methodAnswer answer =>
    simp only [step] at hs
    split at hs
    · rename_i n hd
      cases hs
      have hp : a.dispatcher.position = .calling n := by rw [hd]; rfl
      have hcalled : (afterMethod n answer).position = .called n := by
        cases answer with
        | disconnected sent detail vendor => cases sent <;> rfl
        | _ => rfl
      refine h.moves_of rfl rfl (.inl rfl) ?_
      show Timeline.Step .plain a.core { a.core with
        position := (afterMethod n answer).position, history := a.history ++ [.answered n] }
      rw [hcalled]
      exact .answer hp
    · cases hs
  | block at_ => exact h.block_moves hs

/-- A started authority is valid. -/
theorem start_valid (config : AuthorityConfig) (snapshot : AdapterSnapshot) :
    (start config snapshot).Valid where
  objects := by
    intro n record ho
    cases ho
  ledger := by
    constructor
    · simp [start]
    · intro id k hk
      cases hk
    · intro id n hk
      cases hk
    · intro kind id n _ hk
      cases hk
  core := by
    constructor
    · intro n m hm
      cases hm
    · intro k n hk
      cases hk
    · intro n k st hm
      cases hm
    · simp [core, start]
    · intro k hk
      cases hk
    · simp [core, start]
    · intro n k hm
      cases hm
    · intro n hp
      cases hp
    · intro n hp
      rcases hp with hp | hp <;> cases hp

theorem valid_step {a : Authority} {l : Step} {a' : Authority} (h : a.Valid)
    (hs : a.step l = some a') : a'.Valid :=
  (h.step_refines hs).valid h

/-- Every reachable authority is valid. -/
theorem ReachableFrom.valid {config snapshot} {a : Authority}
    (h : ReachableFrom config snapshot a) : a.Valid :=
  Runs.Reachable.invariant (fun _ _ _ hv hs => valid_step hv hs) (start_valid config snapshot) h

end Authority

end AgentsRemember.Submission
