import AgentsRemember.Submission.SingleHead

/-!
# Submission — Completion evidence and the adapter's answer

The end-of-turn event of an operation may overtake the answer of the
adapter's method. Early, it is only buffered; late, it retires the
active record. `CompletionCommutes` places the event at every point of
the outcome's steps and asks for one final state with the head
released. Of the outcomes that leave the operation possibly sent, the
ones that consult the buffer commute, and no others.
-/

namespace AgentsRemember.Submission.Authority

/-- The method's result answers this operation. -/
def Readable (record : OperationRecord) : MethodResult → Prop
  | .receipt receipt =>
    record.ref.kind = .prompt ∧ receipt.requestId = record.ref.operationId
  | .set result =>
    record.ref.kind ≠ .prompt ∧
      validateSetResult result (record.requestedValue.getD "") = none
  | .other => False

instance (record : OperationRecord) (result : MethodResult) : Decidable (Readable record result) := by
  cases result <;> unfold Readable <;> infer_instance

/-- The outcome does not say whether the operation was sent. -/
def PossiblySent (record : OperationRecord) : MethodAnswer → Prop
  | .returned (.receipt receipt) => ¬ Readable record (.receipt receipt) ∨
      receipt.acceptance = .immediate ∨ receipt.acceptance = .unknown ∨
      receipt.acceptance = .queued
  | .returned (.set result) => ¬ Readable record (.set result) ∨ result.acceptance = .unknown
  | .returned .other => True
  | .busy _ => False
  | .disconnected mayHaveSent _ _ => mayHaveSent = true
  | .raised _ => True

/-- The branches that look at the buffered completion. -/
def ConsultsBuffer (record : OperationRecord) : MethodAnswer → Prop
  | .returned (.receipt receipt) =>
    Readable record (.receipt receipt) ∧ receipt.acceptance ≠ .queued
  | .returned (.set result) => Readable record (.set result)
  | _ => False

/-- The steps an answer takes until it is applied: an unreadable result
takes the lock twice. -/
def outcomeSteps (record : OperationRecord) (answer : MethodAnswer) (at₁ at₂ : String) :
    List Step :=
  match answer with
  | .returned result =>
    if Readable record result then [.methodAnswer answer, .block at₁]
    else [.methodAnswer answer, .block at₁, .block at₂]
  | _ => [.methodAnswer answer, .block at₁]

/-- The event is this operation's completion, and is accepted. -/
structure CompletionOf (a : Authority) (record : OperationRecord) (event : AdapterEvent) :
    Prop where
  kind : event.kind = "completed"
  operation : event.operation = some record.ref
  accepted : (a.observeEvent event).1 = .ok ()

/-- Wherever the event falls among the steps, the run ends with the
record in one and the same state and its head released. -/
def CompletionCommutes (a : Authority) (record : OperationRecord) (steps : List Step)
    (event : AdapterEvent) : Prop :=
  ∃ st, ∀ before after, steps = before ++ after →
    ∃ a', Runs.run step a (before ++ .observeEvent event :: after) = some a' ∧
      a'.stateOf record.ref.sequence = some st ∧
      a'.active ≠ some record.key ∧ record.key ∉ a'.timeline

/-- A dispatched operation: the adapter's method is in flight for it. -/
structure Dispatched (a : Authority) (record : OperationRecord) : Prop where
  calling : a.dispatcher = .calling record.ref.sequence
  object : a.objects record.ref.sequence = some record
  state : record.state = .dispatching

/-! ## The event, early and late -/

section
variable {a : Authority} {record : OperationRecord} {event : AdapterEvent}

/-- The completion as the authority finds it before any answer. -/
theorem CompletionOf.unfold (he : CompletionOf a record event)
    (ha : a.activeRecord = some record) (hst : record.state = .dispatching) :
    a.lastAdapterSequence < event.sequence ∧ record.ref.bridgeEpoch = a.bridgeEpoch ∧
      record.ref ∉ a.consumedCompletions ∧ record.bufferedCompletionSequence = none := by
  have hok := he.accepted
  unfold observeEvent at hok
  simp only [he.kind, he.operation, ne_eq, not_true, if_false] at hok
  split at hok
  · cases hok
  rename_i hseq
  split at hok
  · cases hok
  rename_i hepoch
  split at hok
  · cases hok
  rename_i hconsumed
  have ha' : Authority.activeRecord { a with lastAdapterSequence := event.sequence }
      = some record := ha
  simp only [ha', hst, not_true, if_false, if_true] at hok
  split at hok
  · cases hok
  rename_i hbuffer
  exact ⟨by omega, not_not.mp hepoch, hconsumed, not_not.mp hbuffer⟩

/-- Early, the completion is buffered on the record. -/
theorem observeEvent_buffers (hk : event.kind = "completed")
    (hop : event.operation = some record.ref) (hseq : a.lastAdapterSequence < event.sequence)
    (hepoch : record.ref.bridgeEpoch = a.bridgeEpoch)
    (hconsumed : record.ref ∉ a.consumedCompletions)
    (hbuffer : record.bufferedCompletionSequence = none) (ha : a.activeRecord = some record)
    (hst : record.state = .dispatching) :
    (a.observeEvent event).2 = { a with
      lastAdapterSequence := event.sequence
      objects := a.objects.put
        { record with bufferedCompletionSequence := some event.sequence } } := by
  have ha' : Authority.activeRecord { a with lastAdapterSequence := event.sequence }
      = some record := ha
  have hepoch' : record.ref.bridgeEpoch
      = Authority.bridgeEpoch { a with lastAdapterSequence := event.sequence } := hepoch
  unfold observeEvent
  simp only [hk, hop, ne_eq, not_true, if_false, ha', hst, hbuffer, if_true,
    if_neg (Nat.not_le.mpr hseq), if_neg hconsumed, hepoch', put]

/-- Late, it retires the active record. -/
theorem observeEvent_retires (hk : event.kind = "completed")
    (hop : event.operation = some record.ref) (hseq : a.lastAdapterSequence < event.sequence)
    (hepoch : record.ref.bridgeEpoch = a.bridgeEpoch)
    (hconsumed : record.ref ∉ a.consumedCompletions) (ha : a.activeRecord = some record)
    (hst : record.state = .delivered ∨ record.state = .unknown) :
    (a.observeEvent event).2 =
      { (Authority.releaseHead { a with lastAdapterSequence := event.sequence }
          (record.markTerminal .delivered record.detail event.createdAt) true) with
        wake := true } := by
  have ha' : Authority.activeRecord { a with lastAdapterSequence := event.sequence }
      = some record := ha
  have hepoch' : record.ref.bridgeEpoch
      = Authority.bridgeEpoch { a with lastAdapterSequence := event.sequence } := hepoch
  unfold observeEvent
  rcases hst with hst | hst <;>
    simp [hk, hop, Nat.not_le.mpr hseq, hconsumed, ha', hst, hepoch']

/-- Without an active record, an event moves no record and no slot. -/
theorem observeEvent_idle (ha : a.activeRecord = none) :
    (a.observeEvent event).2.objects = a.objects ∧ (a.observeEvent event).2.active = a.active ∧
      (a.observeEvent event).2.timeline = a.timeline := by
  have ha' : Authority.activeRecord { a with lastAdapterSequence := event.sequence } = none := ha
  unfold observeEvent
  split
  · exact ⟨rfl, rfl, rfl⟩
  dsimp only
  split
  · exact ⟨rfl, rfl, rfl⟩
  split
  · exact ⟨rfl, rfl, rfl⟩
  split
  · exact ⟨rfl, rfl, rfl⟩
  split
  · exact ⟨rfl, rfl, rfl⟩
  · rw [ha']
    exact ⟨rfl, rfl, rfl⟩

/-- Delivered, with the head released. -/
def Retired (a : Authority) (record : OperationRecord) : Prop :=
  a.stateOf record.ref.sequence = some .delivered ∧ a.active ≠ some record.key ∧
    record.key ∉ a.timeline

theorem Retired.observe_idle (h : a.Retired record) (ha : a.activeRecord = none) :
    (a.observeEvent event).2.Retired record := by
  obtain ⟨hobjects, hactive, htimeline⟩ := @observeEvent_idle a event ha
  obtain ⟨hst, hact, htl⟩ := h
  refine ⟨?_, hactive ▸ hact, htimeline ▸ htl⟩
  rw [stateOf, hobjects]
  exact hst

theorem retired_of_releaseHead (hnodup : a.timeline.Nodup) {written : OperationRecord}
    (href : written.ref = record.ref) (hst : written.state = .delivered) (consume : Bool) :
    (a.releaseHead written consume).Retired record := by
  have hkey : written.key = record.key := by rw [OperationRecord.key, href]; rfl
  refine ⟨?_, ?_, ?_⟩
  · simp [stateOf, releaseHead, Objects.put, href, hst]
  · show (if a.active = some written.key then none else a.active) ≠ some record.key
    rw [hkey]
    split
    · simp
    · assumption
  · show record.key ∉ a.timeline.erase written.key
    rw [hkey]
    exact fun hmem => (hnodup.mem_erase_iff.mp hmem).1 rfl

theorem retired_of_completeDelivered (hnodup : a.timeline.Nodup) {written : OperationRecord}
    (href : written.ref = record.ref) (at_ : String) :
    (a.completeDelivered written at_).Retired record := by
  let terminal := written.markTerminal .delivered written.detail at_
  have href' : terminal.ref = record.ref := href
  have hret : (a.releaseHead terminal true).Retired record :=
    retired_of_releaseHead hnodup href' rfl true
  exact ⟨hret.1, hret.2.1, hret.2.2⟩

/-! ## Applying the answer, with and without a buffered completion -/

theorem applyMethodResult_current (hrow : a.ledger.byKey record.key = some record.ref.sequence)
    (ha : a.active = some record.key) (result : MethodResult) (at_ : String) :
    a.applyMethodResult record result at_ =
      if record.ref.kind = .prompt then a.applyPromptReceipt record result at_
      else a.applySetResult record result at_ := by
  unfold applyMethodResult
  rw [if_neg (by simp [hrow, ha])]

/-- An unreadable result raises before anything is written. -/
theorem applyMethodResult_unreadable
    (hrow : a.ledger.byKey record.key = some record.ref.sequence)
    (ha : a.active = some record.key) {result : MethodResult} (hr : ¬ Readable record result)
    (at_ : String) : ∃ message, a.applyMethodResult record result at_ = .error message := by
  rw [applyMethodResult_current hrow ha]
  cases result with
  | other => split <;> exact ⟨_, rfl⟩
  | receipt receipt =>
    split
    · rename_i hkind
      have hid : receipt.requestId ≠ record.ref.operationId := fun he => hr ⟨hkind, he⟩
      exact ⟨_, by simp [applyPromptReceipt, hid]; rfl⟩
    · exact ⟨_, rfl⟩
  | set result =>
    split
    · exact ⟨_, rfl⟩
    · rename_i hkind
      cases hv : validateSetResult result (record.requestedValue.getD "") with
      | none => exact absurd ⟨hkind, hv⟩ hr
      | some message => exact ⟨message, by simp [applySetResult, hv]⟩

/-- A queued receipt blocks, buffered completion or not. -/
theorem applyMethodResult_queued
    (hrow : a.ledger.byKey record.key = some record.ref.sequence)
    (ha : a.active = some record.key) {receipt : SubmissionReceipt}
    (hr : Readable record (.receipt receipt)) (hq : receipt.acceptance = .queued) (at_ : String) :
    ∃ written : OperationRecord, written.ref = record.ref ∧ written.state = .unknown ∧
      a.applyMethodResult record (.receipt receipt) at_ = .ok (false, a.put written) := by
  rw [applyMethodResult_current hrow ha, if_pos hr.1]
  refine ⟨record.markUnknown "adapter returned forbidden queued acceptance after dispatch"
    receipt.vendorCorrelationId at_ a.bridgeEpoch, by simp, by simp, ?_⟩
  simp [applyPromptReceipt, hr.2, hq]

/-- With a buffered completion, a branch that consults it delivers. -/
theorem applyMethodResult_buffered
    (hrow : a.ledger.byKey record.key = some record.ref.sequence)
    (ha : a.active = some record.key) {result : MethodResult}
    (hsent : PossiblySent record (.returned result))
    (hc : ConsultsBuffer record (.returned result))
    (hb : record.bufferedCompletionSequence ≠ none) (at_ : String) :
    ∃ written : OperationRecord, written.ref = record.ref ∧
      a.applyMethodResult record result at_ = .ok (true, a.completeDelivered written at_) := by
  rw [applyMethodResult_current hrow ha]
  cases result with
  | other => exact hc.elim
  | receipt receipt =>
    obtain ⟨⟨hkind, hid⟩, hq⟩ := hc
    let read := { record with
      vendorCorrelationId := receipt.vendorCorrelationId
      detail := receipt.detail
      updatedAt := at_ }
    refine ⟨a.acceptPrompt read receipt at_, acceptPrompt_ref .., ?_⟩
    have hb' : (a.acceptPrompt read receipt at_).bufferedCompletionSequence ≠ none := by
      rw [acceptPrompt_buffered]
      exact hb
    rcases hsent with hsent | hsent | hsent | hsent
    · exact absurd ⟨hkind, hid⟩ hsent
    · simp [applyPromptReceipt, hkind, hid, hsent, read, hb']
    · simp [applyPromptReceipt, hkind, hid, hsent, read, hb]
    · exact absurd hsent hq
  | set result =>
    obtain ⟨hkind, hv⟩ := hc
    rcases hsent with hsent | hsent
    · exact absurd ⟨hkind, hv⟩ hsent
    · let read := { record with detail := result.detail, updatedAt := at_ }
      refine ⟨read.resolve (.set { result with ok := true, acceptance := .immediate }),
        by simp [read], ?_⟩
      simp [applySetResult, hkind, hv, hsent, hb, read]

/-- Without one, the record is left to the event, or already retired. -/
theorem applyMethodResult_unbuffered
    (hrow : a.ledger.byKey record.key = some record.ref.sequence)
    (ha : a.active = some record.key) {result : MethodResult}
    (hsent : PossiblySent record (.returned result))
    (hc : ConsultsBuffer record (.returned result))
    (hb : record.bufferedCompletionSequence = none) (at_ : String) :
    ∃ written : OperationRecord, written.ref = record.ref ∧
      (a.applyMethodResult record result at_ = .ok (true, a.completeDelivered written at_) ∨
        (written.state = .delivered ∨ written.state = .unknown) ∧
          a.applyMethodResult record result at_ = .ok (false, a.put written)) := by
  rw [applyMethodResult_current hrow ha]
  cases result with
  | other => exact hc.elim
  | receipt receipt =>
    obtain ⟨⟨hkind, hid⟩, hq⟩ := hc
    let read := { record with
      vendorCorrelationId := receipt.vendorCorrelationId
      detail := receipt.detail
      updatedAt := at_ }
    have hb' : (a.acceptPrompt read receipt at_).bufferedCompletionSequence = none := by
      rw [acceptPrompt_buffered]
      exact hb
    rcases hsent with hsent | hsent | hsent | hsent
    · exact absurd ⟨hkind, hid⟩ hsent
    · refine ⟨a.acceptPrompt read receipt at_, acceptPrompt_ref .., ?_⟩
      by_cases hterm : receipt.raw.terminalCompletion = false
      · refine .inr ⟨.inl (acceptPrompt_state ..), ?_⟩
        simp [applyPromptReceipt, hkind, hid, hsent, read, hb', hterm]
      · refine .inl ?_
        simp [applyPromptReceipt, hkind, hid, hsent, read, hb', hterm]
    · refine ⟨read.markUnknown (textOr receipt.detail "adapter could not prove prompt acceptance")
        receipt.vendorCorrelationId at_ a.bridgeEpoch, by simp [read], .inr ⟨.inr (by simp), ?_⟩⟩
      simp [applyPromptReceipt, hkind, hid, hsent, read, hb]
    · exact absurd hsent hq
  | set result =>
    obtain ⟨hkind, hv⟩ := hc
    rcases hsent with hsent | hsent
    · exact absurd ⟨hkind, hv⟩ hsent
    · let read := { record with detail := result.detail, updatedAt := at_ }
      refine ⟨{ (read.resolve (.set result)) with state := .unknown }, by simp [read],
        .inr ⟨.inr rfl, ?_⟩⟩
      simp [applySetResult, hkind, hv, hsent, hb, read]

end

/-! ## The runs -/

/-- The adapter's method came back; its answer is not applied yet. -/
def answered (a : Authority) (n : Nat) (answer : MethodAnswer) : Authority :=
  { a with
    dispatcher := afterMethod n answer
    history := a.history ++ [.answered n] }

section
variable {a : Authority} {record : OperationRecord} {event : AdapterEvent}

theorem Dispatched.in_flight (hd : Dispatched a record) (hv : a.Valid) :
    a.ledger.byKey record.key = some record.ref.sequence ∧ a.active = some record.key ∧
      a.activeRecord = some record := by
  have hmark := core_mark_of hd.object
  rw [hd.state] at hmark
  have hrow : a.ledger.byKey record.key = some record.ref.sequence :=
    (hv.core.pending _ _ _ hmark (.inr rfl)).1
  have hactive : a.active = some record.key := (hv.core.dispatching _ _ hmark).1
  refine ⟨hrow, hactive, ?_⟩
  simp [activeRecord, hactive, recordByKey, hrow, hd.object]

/-- The record with the completion buffered on it. -/
def buffered (record : OperationRecord) (event : AdapterEvent) : OperationRecord :=
  { record with bufferedCompletionSequence := some event.sequence }

/-- The state after an early event and the method's answer, in either
order. -/
def overtaken (a : Authority) (record : OperationRecord) (answer : MethodAnswer)
    (event : AdapterEvent) : Authority :=
  answered { a with
    lastAdapterSequence := event.sequence
    objects := a.objects.put (buffered record event) } record.ref.sequence answer

theorem run_answered (hd : Dispatched a record) (answer : MethodAnswer) (rest : List Step) :
    Runs.run step a (.methodAnswer answer :: rest) =
      Runs.run step (answered a record.ref.sequence answer) rest := by
  simp [Runs.run, step, hd.calling, answered]

/-- Before or after the method returns, an early event ends alike. -/
theorem run_overtaken (hv : a.Valid) (hd : Dispatched a record) (he : CompletionOf a record event)
    (answer : MethodAnswer) (rest : List Step) :
    Runs.run step a (.observeEvent event :: .methodAnswer answer :: rest) =
        Runs.run step (overtaken a record answer event) rest ∧
      Runs.run step a (.methodAnswer answer :: .observeEvent event :: rest) =
        Runs.run step (overtaken a record answer event) rest := by
  obtain ⟨-, -, hactive⟩ := hd.in_flight hv
  obtain ⟨hseq, hepoch, hconsumed, hbuffer⟩ := he.unfold hactive hd.state
  have hfirst := observeEvent_buffers he.kind he.operation hseq hepoch hconsumed hbuffer hactive
    hd.state
  have hsecond : ((answered a record.ref.sequence answer).observeEvent event).2
      = overtaken a record answer event :=
    observeEvent_buffers he.kind he.operation hseq hepoch hconsumed hbuffer hactive hd.state
  constructor
  · simp [Runs.run, step, hfirst, hd.calling, overtaken, answered, buffered]
  · rw [run_answered hd]
    show Runs.run step ((answered a record.ref.sequence answer).observeEvent event).2 rest = _
    rw [hsecond]

/-- The block that applies a returned result. -/
theorem step_block_returned {result : MethodResult} {at_ : String}
    (ho : a.objects record.ref.sequence = some record)
    (hd : a.dispatcher = .returned record.ref.sequence result) {released applied}
    (happ : a.applyMethodResult record result at_ = .ok (released, applied)) :
    a.step (.block at_) =
      some { applied with dispatcher := if released then .looking else .waiting } := by
  simp [step, dispatcherBlock, hd, ho, happ]

theorem buffered_object (answer : MethodAnswer) :
    (overtaken a record answer event).objects (buffered record event).ref.sequence
      = some (buffered record event) :=
  Objects.put_self a.objects (buffered record event)

/-- The block after an early event delivers, if it consults the buffer. -/
theorem overtaken_retires (hv : a.Valid) (hd : Dispatched a record) {result : MethodResult}
    (hsent : PossiblySent record (.returned result))
    (hc : ConsultsBuffer record (.returned result)) (at₁ : String) :
    ∃ a', Runs.run step (overtaken a record (.returned result) event) [.block at₁] = some a' ∧
      a'.Retired record := by
  obtain ⟨hrow, hactive, -⟩ := hd.in_flight hv
  have hsent' : PossiblySent (buffered record event) (.returned result) := by
    cases result <;> exact hsent
  have hc' : ConsultsBuffer (buffered record event) (.returned result) := by
    cases result <;> exact hc
  obtain ⟨written, href, happ⟩ := @applyMethodResult_buffered
    (overtaken a record (.returned result) event) (buffered record event) hrow hactive result
    hsent' hc' (by simp [buffered]) at₁
  have hblock := step_block_returned (buffered_object _) rfl happ
  refine ⟨_, Runs.run_cons_eq_some.mpr ⟨_, hblock, rfl⟩, ?_⟩
  have hret : (Authority.completeDelivered _ written at₁).Retired record :=
    retired_of_completeDelivered (a := overtaken a record (.returned result) event)
      hv.core.nodup href at₁
  exact ⟨hret.1, hret.2.1, hret.2.2⟩

/-- The block before a late event, and then the event. -/
theorem late_retires (hv : a.Valid) (hd : Dispatched a record) (he : CompletionOf a record event)
    {result : MethodResult} (hsent : PossiblySent record (.returned result))
    (hc : ConsultsBuffer record (.returned result)) (at₁ : String) :
    ∃ a', Runs.run step (answered a record.ref.sequence (.returned result))
        [.block at₁, .observeEvent event] = some a' ∧ a'.Retired record := by
  obtain ⟨hrow, hactive, hrec⟩ := hd.in_flight hv
  obtain ⟨hseq, hepoch, hconsumed, hbuffer⟩ := he.unfold hrec hd.state
  let c := answered a record.ref.sequence (.returned result)
  obtain ⟨written, href, happ⟩ :=
    @applyMethodResult_unbuffered c record hrow hactive result hsent hc hbuffer at₁
  have hkey : written.key = record.key := by rw [OperationRecord.key, href]; rfl
  rcases happ with happ | ⟨hst, happ⟩
  · -- the answer was terminal: the event is refused and moves nothing
    have hblock := step_block_returned (a := c) hd.object rfl happ
    have hret : (c.completeDelivered written at₁).Retired record :=
      retired_of_completeDelivered (a := c) hv.core.nodup href at₁
    refine ⟨_, Runs.run_cons_eq_some.mpr ⟨_, hblock, rfl⟩, ?_⟩
    let d : Authority := { (c.completeDelivered written at₁) with dispatcher := .looking }
    have hnone : d.activeRecord = none := by
      have hgone : d.active = none := by
        show (if a.active = some written.key then none else a.active) = none
        rw [hkey, if_pos hactive]
      simp [activeRecord, hgone]
    have hd' : d.Retired record := ⟨hret.1, hret.2.1, hret.2.2⟩
    exact hd'.observe_idle hnone
  · -- the record keeps the head, and the event retires it
    have hblock := step_block_returned (a := c) hd.object rfl happ
    refine ⟨_, Runs.run_cons_eq_some.mpr ⟨_, hblock, rfl⟩, ?_⟩
    let d : Authority := { (c.put written) with dispatcher := .waiting }
    have hdrec : d.activeRecord = some written := by
      have hdo : d.objects record.ref.sequence = some written := by
        rw [← href]
        exact Objects.put_self _ written
      have hdactive : d.active = some record.key := hactive
      have hdrow : d.ledger.byKey record.key = some record.ref.sequence := hrow
      simp [activeRecord, hdactive, recordByKey, hdrow, hdo]
    have hevent := observeEvent_retires (a := d) he.kind (href ▸ he.operation) hseq
      (href ▸ hepoch) (href ▸ hconsumed) hdrec hst
    let terminal := written.markTerminal .delivered written.detail event.createdAt
    have href' : terminal.ref = record.ref := href
    have hret : (Authority.releaseHead { d with lastAdapterSequence := event.sequence }
        terminal true).Retired record :=
      retired_of_releaseHead (a := { d with lastAdapterSequence := event.sequence })
        hv.core.nodup href' rfl true
    show (d.observeEvent event).2.Retired record
    rw [hevent]
    exact ⟨hret.1, hret.2.1, hret.2.2⟩

/-- An outcome that consults the buffer delivers and releases, wherever
the event falls. -/
theorem commutes_of_consults (hv : a.Valid) (hd : Dispatched a record)
    (he : CompletionOf a record event) {result : MethodResult}
    (hsent : PossiblySent record (.returned result))
    (hc : ConsultsBuffer record (.returned result)) (at₁ : String) :
    CompletionCommutes a record [.methodAnswer (.returned result), .block at₁] event := by
  obtain ⟨early, hearly, hretired⟩ := @overtaken_retires a record event hv hd result hsent hc at₁
  obtain ⟨late, hlate, hretired'⟩ := late_retires hv hd he hsent hc at₁
  obtain ⟨hfirst, hsecond⟩ := run_overtaken hv hd he (.returned result) [.block at₁]
  refine ⟨.delivered, fun before after hsplit => ?_⟩
  match before, hsplit with
  | [], hsplit =>
    cases hsplit
    exact ⟨early, hfirst.trans hearly, hretired⟩
  | [_], hsplit =>
    cases hsplit
    exact ⟨early, hsecond.trans hearly, hretired⟩
  | [_, _], hsplit =>
    cases hsplit
    exact ⟨late, (run_answered hd _ _).trans hlate, hretired'⟩
  | _ :: _ :: _ :: _, hsplit => cases hsplit

theorem stateOf_of_put {written : OperationRecord} (href : written.ref = record.ref)
    {st : SubmissionLifecycleState} (hst : written.state = st) {a' : Authority}
    (ho : a'.objects = a.objects.put written) : a'.stateOf record.ref.sequence = some st := by
  rw [stateOf, ho, ← href, Objects.put_self]
  exact congrArg some hst

/-- The blocker of a possible send does not look at the buffer. -/
theorem possibleSend_pins {answer : MethodAnswer} {detail : String} {vendor : Option String}
    (hactive : a.active = some record.key)
    (hafter : afterMethod record.ref.sequence answer
      = .possibleSend record.ref.sequence detail vendor) (at₁ : String) :
    ∃ a', Runs.run step (overtaken a record answer event) [.block at₁] = some a' ∧
      a'.stateOf record.ref.sequence = some .unknown ∧ a'.active = some record.key := by
  have hobject := @buffered_object a record event answer
  let written := (buffered record event).markUnknown detail vendor at₁ a.bridgeEpoch
  have href : written.ref = record.ref := by simp [written, buffered]
  have hst : written.state = .unknown := by simp [written]
  have hposition : (overtaken a record answer event).dispatcher
      = .possibleSend (buffered record event).ref.sequence detail vendor := hafter
  let blocked : Authority := { (overtaken a record answer event).possibleSendFailure
    (buffered record event) detail vendor at₁ with dispatcher := .waiting }
  have hblock : (overtaken a record answer event).step (.block at₁) = some blocked := by
    simp [step, dispatcherBlock, hposition, hobject, blocked]
  refine ⟨blocked, Runs.run_cons_eq_some.mpr ⟨blocked, hblock, rfl⟩, ?_, hactive⟩
  exact stateOf_of_put (a := overtaken a record answer event) href hst rfl

/-- Nor does the blocker of an unreadable result. -/
theorem incoherent_pins (hrow : a.ledger.byKey record.key = some record.ref.sequence)
    (hactive : a.active = some record.key) (hst : record.state = .dispatching)
    {result : MethodResult} (hr : ¬ Readable record result) (at₁ at₂ : String) :
    ∃ a', Runs.run step (overtaken a record (.returned result) event) [.block at₁, .block at₂]
        = some a' ∧
      a'.stateOf record.ref.sequence = some .unknown ∧ a'.active = some record.key := by
  let e := overtaken a record (.returned result) event
  have hobject : e.objects (buffered record event).ref.sequence = some (buffered record event) :=
    buffered_object _
  have hr' : ¬ Readable (buffered record event) result := by
    cases result <;> exact hr
  obtain ⟨message, happ⟩ := @applyMethodResult_unreadable e (buffered record event) hrow hactive
    result hr' at₁
  let f : Authority := { e with
    dispatcher := .incoherent (buffered record event).ref.sequence message }
  have hfirst : e.step (.block at₁) = some f := by
    have hposition : e.dispatcher = .returned (buffered record event).ref.sequence result := rfl
    simp [step, dispatcherBlock, hposition, hobject, happ, f]
  let written := (buffered record event).markUnknown
    s!"incoherent adapter HarnessControlError: {message}" none at₂ a.bridgeEpoch
  have hblocked : f.incoherentMethodResult (buffered record event) message at₂
      = .ok (f.put written) := by
    have hactive' : f.active = some (buffered record event).key := hactive
    have hst' : (buffered record event).state = .dispatching := hst
    simp [incoherentMethodResult, hactive', hst', written]
    rfl
  have hsecond : f.step (.block at₂) = some { (f.put written) with dispatcher := .waiting } := by
    have hposition : f.dispatcher = .incoherent (buffered record event).ref.sequence message := rfl
    have hobject' : f.objects (buffered record event).ref.sequence
      = some (buffered record event) := hobject
    simp [step, dispatcherBlock, hposition, hobject', hblocked]
  refine ⟨_, Runs.run_cons_eq_some.mpr ⟨f, hfirst,
    Runs.run_cons_eq_some.mpr ⟨_, hsecond, rfl⟩⟩, ?_, hactive⟩
  exact stateOf_of_put (a := f) (by simp [written, buffered]) (by simp [written]) rfl

/-- Nor does the blocker of a queued receipt. -/
theorem queued_pins (hrow : a.ledger.byKey record.key = some record.ref.sequence)
    (hactive : a.active = some record.key) {receipt : SubmissionReceipt}
    (hr : Readable record (.receipt receipt)) (hq : receipt.acceptance = .queued)
    (at₁ : String) :
    ∃ a', Runs.run step (overtaken a record (.returned (.receipt receipt)) event) [.block at₁]
        = some a' ∧
      a'.stateOf record.ref.sequence = some .unknown ∧ a'.active = some record.key := by
  obtain ⟨written, href, hst, happ⟩ := @applyMethodResult_queued
    (overtaken a record (.returned (.receipt receipt)) event) (buffered record event) hrow hactive
    receipt hr hq at₁
  have hblock := step_block_returned (buffered_object _) rfl happ
  refine ⟨_, Runs.run_cons_eq_some.mpr ⟨_, hblock, rfl⟩, ?_, hactive⟩
  exact stateOf_of_put (a := overtaken a record (.returned (.receipt receipt)) event) href hst rfl

/-- An early event is lost on the outcomes that do not consult the
buffer: the record stays the active one, in `unknown`. -/
theorem overtaken_pins (hv : a.Valid) (hd : Dispatched a record) {answer : MethodAnswer}
    (hsent : PossiblySent record answer) (hc : ¬ ConsultsBuffer record answer)
    (at₁ at₂ : String) :
    ∃ rest a', outcomeSteps record answer at₁ at₂ = .methodAnswer answer :: rest ∧
      Runs.run step (overtaken a record answer event) rest = some a' ∧
      a'.stateOf record.ref.sequence = some .unknown ∧ a'.active = some record.key := by
  obtain ⟨hrow, hactive, -⟩ := hd.in_flight hv
  cases answer with
  | busy detail => exact hsent.elim
  | disconnected sent detail vendor =>
    cases hsent
    obtain ⟨a', hrun⟩ := @possibleSend_pins a record event
      (.disconnected true detail vendor) detail vendor hactive rfl at₁
    exact ⟨_, a', rfl, hrun⟩
  | raised detail =>
    obtain ⟨a', hrun⟩ := @possibleSend_pins a record event (.raised detail) detail none hactive rfl
      at₁
    exact ⟨_, a', rfl, hrun⟩
  | returned result =>
    by_cases hr : Readable record result
    · cases result with
      | other => exact hr.elim
      | set result => exact absurd hr hc
      | receipt receipt =>
        have hq : receipt.acceptance = .queued := by
          by_contra hne
          exact hc ⟨hr, hne⟩
        obtain ⟨a', hrun⟩ := @queued_pins a record event hrow hactive receipt hr hq at₁
        exact ⟨_, a', by simp only [outcomeSteps, if_pos hr], hrun⟩
    · obtain ⟨a', hrun⟩ := @incoherent_pins a record event hrow hactive hd.state result hr at₁ at₂
      exact ⟨_, a', by simp only [outcomeSteps, if_neg hr], hrun⟩

/-- For every reachable authority with a dispatched operation, every
outcome that leaves it possibly sent and every completion it accepts:
the order of the two does not matter exactly when the outcome consults
the buffer. -/
theorem completion_commutes_iff {config : AuthorityConfig} {snapshot : AdapterSnapshot}
    (hreach : ReachableFrom config snapshot a) (hd : Dispatched a record)
    (he : CompletionOf a record event) {answer : MethodAnswer}
    (hsent : PossiblySent record answer) (at₁ at₂ : String) :
    CompletionCommutes a record (outcomeSteps record answer at₁ at₂) event ↔
      ConsultsBuffer record answer := by
  have hv := hreach.valid
  constructor
  · rintro ⟨st, hcommutes⟩
    by_contra hc
    obtain ⟨rest, a', hsteps, hrun, -, hactive⟩ :=
      @overtaken_pins a record event hv hd answer hsent hc at₁ at₂
    obtain ⟨a'', hrun', -, hreleased, -⟩ := hcommutes [] (outcomeSteps record answer at₁ at₂) rfl
    rw [List.nil_append, hsteps, (run_overtaken hv hd he answer rest).1, hrun] at hrun'
    cases hrun'
    exact hreleased hactive
  · intro hc
    cases answer with
    | returned result =>
      have hreadable : Readable record result := by
        cases result with
        | receipt receipt => exact hc.1
        | set result => exact hc
        | other => exact hc.elim
      simp only [outcomeSteps, if_pos hreadable]
      exact commutes_of_consults hv hd he hsent hc at₁
    | _ => exact hc.elim

end

/-! ## A prompt in flight -/

/-- The steps that dispatch a prompt. -/
def dispatchedSteps : List Step :=
  [.submit onePrompt, .wakeUp, .look, .preflightAnswer .ready, .block "t1"]

/-- The authority with a prompt in flight. -/
def dispatchedPrompt : Authority :=
  (Runs.run step (start idleConfig idleSnapshot) dispatchedSteps).get (by decide)

/-- The record in flight. -/
def dispatchedRecord : OperationRecord :=
  { ref := { bridgeEpoch := "e", sequence := 1, operationId := "r", kind := .prompt }
    state := .dispatching
    submittedAt := "t"
    updatedAt := "t1"
    source := some .cockpit
    payloadDigest := some "hello"
    text := some "hello"
    detail := some "queued inside the authoritative control bridge"
    resultFuture := some .waiting }

/-- The end of its turn. -/
def completedTurn : AdapterEvent :=
  { sequence := 1, kind := "completed", createdAt := "t2", operation := some dispatchedRecord.ref }

theorem dispatchedPrompt_reachable : ReachableFrom idleConfig idleSnapshot dispatchedPrompt :=
  ⟨dispatchedSteps, (Option.some_get _).symm⟩

theorem dispatchedPrompt_dispatched : Dispatched dispatchedPrompt dispatchedRecord :=
  ⟨rfl, by decide, rfl⟩

theorem completedTurn_matches : CompletionOf dispatchedPrompt dispatchedRecord completedTurn :=
  ⟨rfl, rfl, rfl⟩

/-- The answer that accepts it. -/
def acceptedAnswer : MethodAnswer :=
  .returned (.receipt { requestId := "r", acceptance := .immediate, submittedAt := "t" })

/-- An accepted prompt, whose turn ends before or after the receipt. -/
theorem accepted_prompt_commutes :
    CompletionCommutes dispatchedPrompt dispatchedRecord
      (outcomeSteps dispatchedRecord acceptedAnswer "t3" "t4") completedTurn := by
  have hsent : PossiblySent dispatchedRecord acceptedAnswer := Or.inr (Or.inl rfl)
  have hconsults : ConsultsBuffer dispatchedRecord acceptedAnswer := ⟨⟨rfl, rfl⟩, by decide⟩
  exact (completion_commutes_iff dispatchedPrompt_reachable dispatchedPrompt_dispatched
    completedTurn_matches hsent "t3" "t4").mpr hconsults

/-- The turn ends, and then the connection drops: the completion is
lost and the prompt blocks the timeline in `unknown`. -/
theorem disconnect_loses_completion :
    ReachableFrom idleConfig idleSnapshot dispatchedPrompt ∧
      Dispatched dispatchedPrompt dispatchedRecord ∧
      CompletionOf dispatchedPrompt dispatchedRecord completedTurn ∧
      PossiblySent dispatchedRecord (.disconnected true "gone" none) ∧
      ¬ CompletionCommutes dispatchedPrompt dispatchedRecord
        (outcomeSteps dispatchedRecord (.disconnected true "gone" none) "t3" "t4")
        completedTurn := by
  refine ⟨dispatchedPrompt_reachable, dispatchedPrompt_dispatched, completedTurn_matches, rfl, ?_⟩
  rintro ⟨st, hcommutes⟩
  obtain ⟨a', hrun, -, hreleased, -⟩ := hcommutes [] _ rfl
  have hpinned : (Runs.run step dispatchedPrompt
      [.observeEvent completedTurn, .methodAnswer (.disconnected true "gone" none),
        .block "t3"]).map (·.active) = some (some dispatchedRecord.key) := by
    decide
  obtain ⟨a'', hrun', hactive⟩ := Option.map_eq_some_iff.mp hpinned
  cases hrun.symm.trans hrun'
  exact hreleased hactive

end AgentsRemember.Submission.Authority
