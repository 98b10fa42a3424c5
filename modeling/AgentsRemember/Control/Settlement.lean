import AgentsRemember.Control.Interrupted

/-!
# Control — Settlement

What an interrupt is settled from, in every run: a record stays pending until
its native write is refused or a reader of the evidence decides, and from then
on only a reconcile that has seen it pending still writes to it.
-/

namespace AgentsRemember.Control

open Submission

/-! ## Records -/

/-- An acknowledged record whose cells agree, as the wire model asks of them. -/
structure InterruptRecord.Coherent (record : InterruptRecord) : Prop where
  acknowledged : record.acknowledgement ≠ .requested
  product : record.settlement ∈ allowedSettlements record.acknowledgement
  settledAt : record.settledAt.isSome = (record.settlement != .pending)

/-- The native write was refused, which settles the record by itself. -/
def InterruptRecord.Refused (record : InterruptRecord) : Prop :=
  record.acknowledgement = .rejected ∧ record.settlement = .failed

/-- Cells that are written once. -/
def InterruptRecord.SameRequest (record later : InterruptRecord) : Prop :=
  later.harnessId = record.harnessId ∧ later.turnId = record.turnId ∧
    later.evidenceFloor = record.evidenceFloor

section records
variable {record later : InterruptRecord} {now : String}

/-- Every coherent record has an answer. -/
theorem InterruptRecord.Coherent.projected (h : record.Coherent) :
    ∃ operation, record.projection = .ok operation ∧ operation.settlement = record.settlement := by
  unfold InterruptRecord.projection
  rw [if_neg (not_not_intro h.product), if_neg (not_not_intro h.settledAt)]
  exact ⟨_, rfl, rfl⟩

theorem applyResult_sameRequest (record : InterruptRecord) (now : String)
    (result : InterruptResult) : record.SameRequest (record.applyResult now result) := by
  unfold InterruptRecord.applyResult
  dsimp only
  split <;> exact ⟨rfl, rfl, rfl⟩

/-- A result settles a record that it refuses, and leaves the settlement of any other. -/
theorem applyResult_settlement (record : InterruptRecord) (now : String)
    (result : InterruptResult) : (record.applyResult now result).Refused ∨
      (record.applyResult now result).settlement = record.settlement := by
  unfold InterruptRecord.applyResult InterruptRecord.Refused
  dsimp only
  split <;> simp

theorem applyResult_coherent (now : String) (result : InterruptResult)
    (h : record.settledAt.isSome = (record.settlement != .pending)) :
    (record.applyResult now result).Coherent := by
  have hany : ∀ settlement : Settlement, settlement ∈ allowedSettlements .accepted ∧
      settlement ∈ allowedSettlements .unknown := by
    intro settlement
    cases settlement <;> simp [allowedSettlements]
  unfold InterruptRecord.applyResult
  dsimp only
  split
  · exact ⟨by simp, (hany _).1, h⟩
  · exact ⟨by simp, (hany _).2, h⟩
  · exact ⟨by simp, by simp [allowedSettlements], rfl⟩
  · exact ⟨by simp, by simp [allowedSettlements], rfl⟩

/-- A record that is driven again keeps its settlement, unless the write is refused. -/
theorem redriven_settlement {crossing : InterruptCrossing}
    (h : record.redriven now crossing = .ok later) :
    record.SameRequest later ∧ (later.Refused ∨ later.settlement = record.settlement) := by
  cases crossing with
  | answered result =>
    cases h
    exact ⟨applyResult_sameRequest record now result, applyResult_settlement record now result⟩
  | lost detail => cases h; exact ⟨⟨rfl, rfl, rfl⟩, .inr rfl⟩
  | unsent detail => cases h
  | refused detail => cases h; exact ⟨⟨rfl, rfl, rfl⟩, .inr rfl⟩

theorem redriven_coherent {crossing : InterruptCrossing} (hc : record.Coherent)
    (h : record.redriven now crossing = .ok later) : later.Coherent := by
  cases crossing with
  | answered result => cases h; exact applyResult_coherent now result hc.settledAt
  | lost detail => cases h; exact hc
  | unsent detail => cases h
  | refused detail => cases h; exact ⟨hc.acknowledged, hc.product, hc.settledAt⟩

/-- The record of a fresh request is pending, or its write was refused. -/
theorem driveInterrupt_spec {authority : InterruptAuthority} {ticket : InterruptTicket}
    {requestedAt : String} {crossing : InterruptCrossing}
    (h : driveInterrupt authority ticket requestedAt now crossing = .ok record) :
    (ticket.requested authority requestedAt).SameRequest record ∧ record.Coherent ∧
      (record.Refused ∨ record.settlement = .pending) := by
  cases crossing with
  | answered result =>
    cases h
    exact ⟨applyResult_sameRequest _ now result, applyResult_coherent now result rfl,
      applyResult_settlement _ now result⟩
  | lost detail =>
    cases h
    refine ⟨⟨rfl, rfl, rfl⟩, ⟨by simp, ?_, rfl⟩, .inr rfl⟩
    simp [allowedSettlements, InterruptTicket.requested]
  | unsent detail => cases h
  | refused detail =>
    cases h
    exact ⟨⟨rfl, rfl, rfl⟩, ⟨by simp, by simp [allowedSettlements], rfl⟩, .inl ⟨rfl, rfl⟩⟩

theorem settle_coherent (now : String) {outcome : Outcome} (hc : record.Coherent)
    (hpending : record.settlement = .pending) (hsettled : outcome.1 ≠ .pending) :
    (record.settle now outcome).Coherent := by
  refine ⟨hc.acknowledged, ?_, ?_⟩
  · show outcome.1 ∈ allowedSettlements record.acknowledgement
    have hproduct := hc.product
    rw [hpending] at hproduct
    cases hack : record.acknowledgement with
    | requested => exact absurd hack hc.acknowledged
    | accepted => cases outcome.1 <;> simp [allowedSettlements]
    | unknown => cases outcome.1 <;> simp [allowedSettlements]
    | rejected =>
      -- a rejected record is not pending
      rw [hack] at hproduct
      simp [allowedSettlements] at hproduct
  · show true = (outcome.1 != .pending)
    simpa using hsettled

end records

/-! ## The invariant -/

/-- A record of this authority, as far as the log has come. -/
structure InterruptRecord.Kept (authority : InterruptAuthority) (log : EvidenceLog)
    (record : InterruptRecord) : Prop where
  harness : record.harnessId = authority.harness
  coherent : record.Coherent
  floor : record.evidenceFloor ≤ log.sequence

/-- What the holder of the lock may rely on. -/
def InterruptHolder.Valid (log : EvidenceLog) (records : List InterruptRecord) :
    InterruptHolder → Prop
  | .writing ticket _ => ticket.evidenceFloor ≤ log.sequence
  | .rewriting i => ∀ record, records[i]? = some record → record.acknowledgement = .unknown
  | .timeline i => ∀ record, records[i]? = some record → record.settlement = .pending
  | .paging i after seen => ∀ record, records[i]? = some record →
      record.settlement = .pending ∧ ReadUpTo log record after seen

/-- A waiting interrupt saw no more than the log. -/
def InterruptWaiting.Valid (log : EvidenceLog) : InterruptWaiting → Prop
  | .interrupt ticket => ticket.evidenceFloor ≤ log.sequence
  | .status _ _ => True

/-- The invariant of every run. -/
structure InterruptSystem.Invariant (authority : InterruptAuthority) (s : InterruptSystem) :
    Prop where
  log : s.log.Consistent authority.harness
  called : ∀ ticket ∈ s.called, ticket.evidenceFloor ≤ s.log.sequence
  waiting : ∀ waiting ∈ s.waiting, waiting.Valid s.log
  records : ∀ record ∈ s.channel.records, record.Kept authority s.log
  holder : ∀ holder, s.holder = some holder → holder.Valid s.log s.channel.records

/-- How the record at a place has come about, in one step. -/
inductive Became (s : InterruptSystem) (i : Nat) : Option InterruptRecord → InterruptRecord → Prop
  | same (record : InterruptRecord) : Became s i (some record) record
  | stored (record : InterruptRecord) (settled : record.Refused ∨ record.settlement = .pending) :
    Became s i none record
  | redriven (record later : InterruptRecord) (now : String) (crossing : InterruptCrossing)
    (held : s.holder = some (.rewriting i)) (unknown : record.acknowledgement = .unknown)
    (landed : record.redriven now crossing = .ok later) : Became s i (some record) later
  | observed (record : InterruptRecord) (now : String) (outcome : Outcome) (entry : EvidenceEntry)
    (pending : record.settlement = .pending) (settled : SettledBy s.log record outcome.1 entry) :
    Became s i (some record) (record.settle now outcome)

/-- What one step may do to the records. -/
structure InterruptSpec (authority : InterruptAuthority) (s s' : InterruptSystem) : Prop where
  keeps : s'.Invariant authority
  kept : s.channel.records.length ≤ s'.channel.records.length
  became : ∀ i record, s'.channel.records[i]? = some record →
    Became s i s.channel.records[i]? record

section steps
variable {authority : InterruptAuthority} {s s' : InterruptSystem}

theorem invariant_empty : ({} : InterruptSystem).Invariant authority where
  log := EvidenceLog.consistent_empty
  called := fun _ h => nomatch h
  waiting := fun _ h => nomatch h
  records := fun _ h => nomatch h
  holder := fun _ h => nomatch h

theorem InterruptHolder.Valid.grow {log later : EvidenceLog} {records : List InterruptRecord}
    {holder : InterruptHolder} (h : holder.Valid log records) (hgrows : log.Grows later) :
    holder.Valid later records := by
  cases holder with
  | writing ticket requestedAt => exact Nat.le_trans h hgrows.sequence
  | rewriting i => exact h
  | timeline i => exact h
  | paging i after seen =>
    intro record hrecord
    obtain ⟨hpending, hread⟩ := h record hrecord
    exact ⟨hpending, hread.grow hgrows⟩

theorem InterruptWaiting.Valid.grow {log later : EvidenceLog} {waiting : InterruptWaiting}
    (h : waiting.Valid log) (hgrows : log.Grows later) : waiting.Valid later := by
  cases waiting with
  | interrupt ticket => exact Nat.le_trans h hgrows.sequence
  | status i reconcile => trivial

theorem Became.of_same {s₁ : InterruptSystem} {i : Nat} {earlier : Option InterruptRecord}
    {record : InterruptRecord} (h : Became s₁ i earlier record) (hlog : s₁.log = s.log)
    (hholder : s₁.holder = s.holder) : Became s i earlier record := by
  cases h with
  | same => exact .same record
  | stored _ settled => exact .stored record settled
  | redriven before _ now crossing held unknown landed =>
    exact .redriven before record now crossing (hholder ▸ held) unknown landed
  | observed before now outcome entry pending settled =>
    exact .observed before now outcome entry pending (hlog ▸ settled)

/-- The calls outside the lock do not matter to what becomes of the records. -/
theorem InterruptSpec.of_same {s₁ : InterruptSystem} (h : InterruptSpec authority s₁ s')
    (hlog : s₁.log = s.log) (hchannel : s₁.channel = s.channel) (hholder : s₁.holder = s.holder) :
    InterruptSpec authority s s' :=
  ⟨h.keeps, hchannel ▸ h.kept,
    fun i record hrecord => hchannel ▸ (h.became i record hrecord).of_same hlog hholder⟩

/-- Steps that write to no record. -/
theorem interruptSpec_of_quiet (h : s.Invariant authority) (hlog : s'.log = s.log)
    (hrecords : s'.channel.records = s.channel.records)
    (hcalled : ∀ ticket ∈ s'.called, ticket.evidenceFloor ≤ s.log.sequence)
    (hwaiting : ∀ waiting ∈ s'.waiting, waiting.Valid s.log)
    (hholder : ∀ holder, s'.holder = some holder → holder.Valid s.log s.channel.records) :
    InterruptSpec authority s s' := by
  refine ⟨⟨?_, ?_, ?_, ?_, ?_⟩, ?_, fun i record hrecord => ?_⟩
  · rw [hlog]; exact h.log
  · rw [hlog]; exact hcalled
  · rw [hlog]; exact hwaiting
  · rw [hlog, hrecords]; exact h.records
  · rw [hlog, hrecords]; exact hholder
  · rw [hrecords]
  · rw [hrecords] at hrecord
    rw [hrecord]
    exact .same record

/-- Quiet steps that leave the calls alone as well. -/
theorem interruptSpec_of_answer (h : s.Invariant authority) {channel : InterruptChannel}
    {holder : Option InterruptHolder} {answered : Option InterruptAnswer}
    (hrecords : channel.records = s.channel.records)
    (hholder : ∀ held, holder = some held → held.Valid s.log s.channel.records) :
    InterruptSpec authority s
      { s with channel := channel, holder := holder, answered := answered } :=
  interruptSpec_of_quiet h rfl hrecords h.called h.waiting hholder

/-- Steps that let go of the lock and write to one record, and may take the lock again. -/
theorem interruptSpec_of_set (h : s.Invariant authority) {i : Nat} {record later : InterruptRecord}
    {holder : Option InterruptHolder} {answered : Option InterruptAnswer}
    (hrecord : s.channel.records[i]? = some record) (hbecame : Became s i (some record) later)
    (hkept : later.Kept authority s.log)
    (hholder : ∀ held, holder = some held → held.Valid s.log (s.channel.records.set i later)) :
    InterruptSpec authority s { s with
      channel := s.channel.setRecord i later, holder := holder, answered := answered } := by
  have hi : i < s.channel.records.length := (List.getElem?_eq_some_iff.mp hrecord).1
  refine ⟨⟨h.log, h.called, h.waiting, fun other hother => ?_, hholder⟩, ?_, fun j other hother => ?_⟩
  · rcases List.mem_or_eq_of_mem_set hother with hother | rfl
    · exact h.records other hother
    · exact hkept
  · show _ ≤ (s.channel.records.set i later).length
    rw [List.length_set]
  · replace hother : (s.channel.records.set i later)[j]? = some other := hother
    by_cases hj : i = j
    · subst hj
      rw [List.getElem?_set_self hi] at hother
      cases hother
      rw [hrecord]
      exact hbecame
    · rw [List.getElem?_set_ne hj] at hother
      rw [hother]
      exact .same other

/-- A new record is stored behind the others. -/
theorem interruptSpec_of_store (h : s.Invariant authority) {record : InterruptRecord}
    {answered : Option InterruptAnswer} (hkept : record.Kept authority s.log)
    (hfresh : record.Refused ∨ record.settlement = .pending) :
    InterruptSpec authority s { s with
      channel := s.channel.store record, holder := none, answered := answered } := by
  have hrecords : (s.channel.store record).records = s.channel.records ++ [record] := rfl
  refine ⟨⟨h.log, h.called, h.waiting, fun other hother => ?_, fun _ hnone => nomatch hnone⟩, ?_,
    fun i other hother => ?_⟩
  · rcases List.mem_append.mp hother with hother | hother
    · exact h.records other hother
    · rw [List.mem_singleton.mp hother]
      exact hkept
  · show _ ≤ (s.channel.store record).records.length
    rw [hrecords, List.length_append]
    exact Nat.le_add_right _ _
  · replace hother : (s.channel.records ++ [record])[i]? = some other := hother
    by_cases hi : i < s.channel.records.length
    · rw [List.getElem?_append_left hi] at hother
      rw [hother]
      exact .same other
    · have hbehind : s.channel.records.length ≤ i := by omega
      rw [List.getElem?_eq_none hbehind]
      rw [List.getElem?_append_right hbehind] at hother
      cases List.mem_singleton.mp (List.mem_of_getElem? hother)
      exact .stored record hfresh

/-! ## The steps -/

/-- The observation of a pending record starts at its floor. -/
theorem observePending_frame {i : Nat} {record : InterruptRecord}
    (hrecord : s.channel.records[i]? = some record) (hfloor : record.evidenceFloor ≤ s.log.sequence) :
    ∃ holder answered, s.observePending i record =
        { s with holder := holder, answered := answered } ∧
      ∀ held, holder = some held → held.Valid s.log s.channel.records := by
  unfold InterruptSystem.observePending
  split
  next hpending =>
    refine ⟨_, _, rfl, fun held hheld => ?_⟩
    cases hheld
    split
    · intro other hother
      cases hrecord.symm.trans hother
      exact hpending
    · intro other hother
      cases hrecord.symm.trans hother
      exact ⟨hpending, .start hfloor⟩
  · exact ⟨_, _, rfl, fun _ hnone => nomatch hnone⟩

theorem interrupt_hold_spec (h : s.Invariant authority) (hfree : s.holder = none) {now : String}
    {waiting : InterruptWaiting} (hvalid : waiting.Valid s.log)
    (hstep : s.hold now waiting = some s') : InterruptSpec authority s s' := by
  cases waiting with
  | interrupt ticket =>
    simp only [InterruptSystem.hold, Option.some.injEq] at hstep
    split at hstep
    next i record hretained =>
      subst hstep
      exact interruptSpec_of_answer h rfl (by rw [hfree]; exact fun _ hnone => nomatch hnone)
    · subst hstep
      refine interruptSpec_of_answer h rfl fun held hheld => ?_
      cases hheld
      exact hvalid
  | status i reconcile =>
    simp only [InterruptSystem.hold, Option.map_eq_some_iff] at hstep
    obtain ⟨record, hrecord, hstep⟩ := hstep
    split at hstep
    next hredrive =>
      subst hstep
      refine interruptSpec_of_answer h rfl fun held hheld => ?_
      cases hheld
      intro other hother
      cases hrecord.symm.trans hother
      exact hredrive.2
    · have hkept := h.records record (List.mem_of_getElem? hrecord)
      obtain ⟨holder, answered, heq, hholder⟩ := observePending_frame hrecord hkept.floor
      rw [← hstep, heq]
      exact interruptSpec_of_answer h rfl hholder

theorem landRewrite_spec (h : s.Invariant authority) {i : Nat} {record : InterruptRecord}
    {crossing : InterruptCrossing} {now : String} (hheld : s.holder = some (.rewriting i))
    (hrecord : s.channel.records[i]? = some record) :
    InterruptSpec authority s (s.landRewrite i record now crossing) := by
  unfold InterruptSystem.landRewrite
  split
  · exact interruptSpec_of_answer h rfl fun _ hnone => nomatch hnone
  next later hlanded =>
    obtain ⟨hharness, hcoherent, hfloor⟩ := h.records record (List.mem_of_getElem? hrecord)
    obtain ⟨⟨hsameHarness, -, hsameFloor⟩, -⟩ := redriven_settlement hlanded
    have hkept : later.Kept authority s.log :=
      ⟨hsameHarness.trans hharness, redriven_coherent hcoherent hlanded, hsameFloor ▸ hfloor⟩
    have hlater : (s.channel.setRecord i later).records[i]? = some later :=
      List.getElem?_set_self (List.getElem?_eq_some_iff.mp hrecord).1
    have hunknown : record.acknowledgement = .unknown := h.holder _ hheld record hrecord
    obtain ⟨holder, answered, heq, hholder⟩ := observePending_frame
      (s := { s with channel := s.channel.setRecord i later }) hlater hkept.floor
    rw [heq]
    exact interruptSpec_of_set h hrecord (.redriven record later now crossing hheld hunknown hlanded)
      hkept hholder

theorem readEvidence_spec (h : s.Invariant authority) {i more after : Nat} {now : String}
    {seen : Option String} {record : InterruptRecord}
    (hheld : s.holder = some (.paging i after seen))
    (hrecord : s.channel.records[i]? = some record) :
    InterruptSpec authority s (s.readEvidence more now i record after seen) := by
  have hkept := h.records record (List.mem_of_getElem? hrecord)
  obtain ⟨hpending, hread⟩ := h.holder _ hheld record hrecord
  have hlog : s.log.Consistent record.harnessId := hkept.harness ▸ h.log
  unfold InterruptSystem.readEvidence
  split
  · exact interruptSpec_of_answer h rfl fun _ hnone => nomatch hnone
  next after' seen' hmore =>
    refine interruptSpec_of_answer h rfl fun held hheld => ?_
    cases hheld
    intro other hother
    cases hrecord.symm.trans hother
    exact ⟨hpending, readPage_more hlog hread hmore⟩
  · exact interruptSpec_of_answer h rfl fun _ hnone => nomatch hnone
  next outcome hdecided =>
    obtain ⟨entry, hsettled⟩ := readPage_decided hlog hread hdecided
    obtain ⟨detail, houtcome⟩ := hsettled.outcome
    have hnot := settled_of_frameOutcome houtcome
    have hsettles : outcome.1 ≠ .pending := hnot
    have hcoherent := settle_coherent now hkept.coherent hpending hsettles
    exact interruptSpec_of_set h hrecord (.observed record now outcome entry hpending hsettled)
      ⟨hkept.harness, hcoherent, hkept.floor⟩ fun _ hnone => nomatch hnone

theorem begin_spec (h : s.Invariant authority) {ticket : InterruptTicket}
    (hfloor : ticket.evidenceFloor ≤ s.log.sequence) :
    InterruptSpec authority s (s.begin ticket) := by
  unfold InterruptSystem.begin
  split
  · refine interruptSpec_of_quiet h rfl rfl h.called (fun waiting hwaiting => ?_) h.holder
    rcases List.mem_append.mp hwaiting with hwaiting | hwaiting
    · exact h.waiting waiting hwaiting
    · rw [List.mem_singleton.mp hwaiting]
      exact hfloor
  · split <;> exact interruptSpec_of_quiet h rfl rfl h.called h.waiting h.holder

theorem status_spec (h : s.Invariant authority) (authorization : AuthorizationBinding)
    (turnId requestId : String) (reconcile : Bool) :
    InterruptSpec authority s (s.status authority authorization turnId requestId reconcile) := by
  unfold InterruptSystem.status
  split
  · exact interruptSpec_of_quiet h rfl rfl h.called h.waiting h.holder
  split
  · exact interruptSpec_of_quiet h rfl rfl h.called h.waiting h.holder
  split
  · refine interruptSpec_of_quiet h rfl rfl h.called (fun waiting hwaiting => ?_) h.holder
    rcases List.mem_append.mp hwaiting with hwaiting | hwaiting
    · exact h.waiting waiting hwaiting
    · rw [List.mem_singleton.mp hwaiting]
      trivial
  · exact interruptSpec_of_quiet h rfl rfl h.called h.waiting h.holder

theorem harness_spec (h : s.Invariant authority) {step : HarnessStep} {log : EvidenceLog}
    (hstep : s.log.step authority.harness step = some log) :
    InterruptSpec authority s { s with log := log, answered := none } := by
  obtain ⟨hlog, hgrows⟩ := EvidenceLog.step_spec h.log hstep
  refine ⟨⟨hlog, fun ticket hticket => ?_, fun waiting hwaiting => ?_, fun record hrecord => ?_,
    fun holder hholder => ?_⟩, Nat.le_refl _, fun i record hrecord => ?_⟩
  · exact Nat.le_trans (h.called ticket hticket) hgrows.sequence
  · exact (h.waiting waiting hwaiting).grow hgrows
  · obtain ⟨hharness, hcoherent, hfloor⟩ := h.records record hrecord
    exact ⟨hharness, hcoherent, Nat.le_trans hfloor hgrows.sequence⟩
  · exact (h.holder holder hholder).grow hgrows
  · replace hrecord : s.channel.records[i]? = some record := hrecord
    rw [hrecord]
    exact .same record

theorem landWrite_spec (h : s.Invariant authority) {ticket : InterruptTicket}
    {requestedAt now : String} {crossing : InterruptCrossing}
    (hheld : s.holder = some (.writing ticket requestedAt)) :
    InterruptSpec authority s (s.landWrite authority ticket requestedAt now crossing) := by
  unfold InterruptSystem.landWrite
  split
  · exact interruptSpec_of_answer h rfl fun _ hnone => nomatch hnone
  next record hdriven =>
    obtain ⟨⟨hharness, -, hfloor⟩, hcoherent, hfresh⟩ := driveInterrupt_spec hdriven
    have hticket : ticket.evidenceFloor ≤ s.log.sequence := h.holder _ hheld
    have hkept : record.Kept authority s.log :=
      ⟨hharness, hcoherent, Nat.le_trans (Nat.le_of_eq hfloor) hticket⟩
    exact interruptSpec_of_store h hkept hfresh

theorem readTimeline_spec (h : s.Invariant authority) {items : List OperationTimelineItem} {i : Nat}
    {record : InterruptRecord} (hheld : s.holder = some (.timeline i))
    (hrecord : s.channel.records[i]? = some record) :
    InterruptSpec authority s (s.readTimeline items i record) := by
  unfold InterruptSystem.readTimeline
  split
  · refine interruptSpec_of_answer h rfl fun held hnext => ?_
    cases hnext
    intro other hother
    cases hrecord.symm.trans hother
    have hkept := h.records record (List.mem_of_getElem? hrecord)
    exact ⟨h.holder _ hheld record hrecord, .start hkept.floor⟩
  · exact interruptSpec_of_answer h rfl fun _ hnone => nomatch hnone

theorem interrupt_step_spec (h : s.Invariant authority) {step : InterruptStep}
    (hstep : s.step authority step = some s') : InterruptSpec authority s s' := by
  cases step with
  | harness step =>
    simp only [InterruptSystem.step, Option.map_eq_some_iff] at hstep
    obtain ⟨log, hlog, rfl⟩ := hstep
    exact harness_spec h hlog
  | snapshot authorization turnId requestId unsupported =>
    simp only [InterruptSystem.step] at hstep
    cases unsupported with
    | some reason =>
      cases hstep
      exact interruptSpec_of_quiet h rfl rfl h.called h.waiting h.holder
    | none =>
      cases hstep
      refine interruptSpec_of_quiet h rfl rfl (fun ticket hticket => ?_) h.waiting h.holder
      rcases List.mem_append.mp hticket with hticket | hticket
      · exact h.called ticket hticket
      · rw [List.mem_singleton.mp hticket]
        -- the floor of a ticket is what the snapshot shows, which lags behind the log
        exact h.log.published
  | begin i =>
    simp only [InterruptSystem.step, Option.map_eq_some_iff] at hstep
    obtain ⟨ticket, hticket, rfl⟩ := hstep
    have herased : ({ s with called := s.called.eraseIdx i } : InterruptSystem).Invariant authority :=
      { h with called := fun other hother => h.called other (List.mem_of_mem_eraseIdx hother) }
    exact (begin_spec herased (h.called ticket (List.mem_of_getElem? hticket))).of_same rfl rfl rfl
  | status authorization turnId requestId reconcile =>
    cases hstep
    exact status_spec h authorization turnId requestId reconcile
  | acquire i now =>
    simp only [InterruptSystem.step] at hstep
    split at hstep
    · cases hstep
    next hfree =>
      obtain ⟨waiting, hwaiting, hstep⟩ := Option.bind_eq_some_iff.mp hstep
      have hfree : s.holder = none := Classical.not_not.mp hfree
      have herased :
          ({ s with waiting := s.waiting.eraseIdx i } : InterruptSystem).Invariant authority :=
        { h with waiting := fun other hother => h.waiting other (List.mem_of_mem_eraseIdx hother) }
      have hvalid := h.waiting waiting (List.mem_of_getElem? hwaiting)
      exact (interrupt_hold_spec herased hfree hvalid hstep).of_same rfl rfl rfl
  | land crossing now =>
    simp only [InterruptSystem.step, InterruptSystem.land] at hstep
    split at hstep
    next ticket requestedAt hheld =>
      cases hstep
      exact landWrite_spec h hheld
    next i hheld =>
      obtain ⟨record, hrecord, rfl⟩ := Option.map_eq_some_iff.mp hstep
      exact landRewrite_spec h hheld hrecord
    · cases hstep
  | readTimeline items =>
    simp only [InterruptSystem.step] at hstep
    split at hstep
    next i hheld =>
      obtain ⟨record, hrecord, rfl⟩ := Option.map_eq_some_iff.mp hstep
      exact readTimeline_spec h hheld hrecord
    · cases hstep
  | readEvidence more now =>
    simp only [InterruptSystem.step] at hstep
    split at hstep
    next i after seen hheld =>
      obtain ⟨record, hrecord, rfl⟩ := Option.map_eq_some_iff.mp hstep
      exact readEvidence_spec h hheld hrecord
    · cases hstep
  | abandonCalled i =>
    cases hstep
    exact interruptSpec_of_quiet h rfl rfl
      (fun ticket hticket => h.called ticket (List.mem_of_mem_eraseIdx hticket)) h.waiting h.holder
  | abandonWaiting i =>
    cases hstep
    exact interruptSpec_of_quiet h rfl rfl h.called
      (fun waiting hwaiting => h.waiting waiting (List.mem_of_mem_eraseIdx hwaiting)) h.holder
  | abandonHolder =>
    cases hstep
    exact interruptSpec_of_quiet h rfl rfl h.called h.waiting fun _ hnone => nomatch hnone

end steps

/-! ## Runs -/

section runs
variable {authority : InterruptAuthority}

/-- The terminal event of a turn. -/
def EvidenceLog.terminalEvent (log : EvidenceLog) (turnId : String) : Option EvidenceEntry :=
  log.entries.find? fun entry => entry.turn = some turnId

theorem EvidenceLog.Consistent.terminalEvent_eq {harness : HarnessId} {log : EvidenceLog}
    (h : log.Consistent harness) {entry : EvidenceEntry} (hentry : entry ∈ log.entries)
    {turnId : String} (hturn : entry.turn = some turnId) :
    log.terminalEvent turnId = some entry := by
  cases hfound : log.terminalEvent turnId with
  | none =>
    have hnot := List.find?_eq_none.mp hfound entry hentry
    simp [hturn] at hnot
  | some found =>
    have hmem : found ∈ log.entries := List.mem_of_find?_eq_some hfound
    have hits : found.turn = some turnId := by simpa using List.find?_some hfound
    rw [h.entry_unique hmem hentry hits hturn]

/-- There was a moment of the run at which an entry behind the floor settled the record
as it is now, and where the evidence decided for the turn that the record names, that
entry was the terminal event of this turn. -/
def SettledOnTheWay (authority : InterruptAuthority) (ls : List InterruptStep)
    (record : InterruptRecord) : Prop :=
  ∃ pre post u, ls = pre ++ post ∧
    Runs.run (InterruptSystem.step authority) {} pre = some u ∧ ∃ entry ∈ u.log.entries,
      record.evidenceFloor < entry.sequence ∧
      (∃ detail, frameOutcome record.harnessId record.turnId entry.frame =
        .ok (some (record.settlement, detail))) ∧
      (record.Decides u.log → u.log.terminalEvent record.turnId = some entry)

theorem SettledOnTheWay.snoc {ls : List InterruptStep} {record later : InterruptRecord}
    (h : SettledOnTheWay authority ls record) (hsame : record.SameRequest later)
    (hsettlement : later.settlement = record.settlement) (l : InterruptStep) :
    SettledOnTheWay authority (ls ++ [l]) later := by
  obtain ⟨pre, post, u, rfl, hu, entry, hentry, hlate, houtcome, hown⟩ := h
  obtain ⟨hharness, hturn, hfloor⟩ := hsame
  refine ⟨pre, post ++ [l], u, List.append_assoc pre post [l], hu, entry, hentry, ?_, ?_, ?_⟩
  · rw [hfloor]; exact hlate
  · rw [hharness, hturn, hsettlement]; exact houtcome
  · intro hdecides
    rw [hturn]
    apply hown
    simp only [InterruptRecord.Decides, hharness, hturn, hfloor] at hdecides
    exact hdecides

theorem reachable_invariant {ls : List InterruptStep} {t : InterruptSystem}
    (ht : Runs.run (InterruptSystem.step authority) {} ls = some t) : t.Invariant authority :=
  Runs.Reachable.invariant (fun _ _ _ h hstep => (interrupt_step_spec h hstep).keeps)
    invariant_empty ⟨ls, ht⟩

/-- Induction over the run, by what its last step made of the record. -/
theorem run_settles {ls : List InterruptStep} :
    ∀ {t : InterruptSystem}, Runs.run (InterruptSystem.step authority) {} ls = some t →
      ∀ (i : Nat) record, t.channel.records[i]? = some record → record.settlement ≠ .pending →
        record.Refused ∨ SettledOnTheWay authority ls record := by
  induction ls using List.reverseRecOn with
  | nil =>
    intro t ht i record hrecord
    cases ht
    simp at hrecord
  | append_singleton ls l ih =>
    intro t ht i record hrecord hsettled
    obtain ⟨s, hs, hlast⟩ := Runs.run_append.mp ht
    obtain ⟨t', hstep, hend⟩ := Runs.run_cons_eq_some.mp hlast
    cases hend
    have hinv := reachable_invariant hs
    have hbecame := (interrupt_step_spec hinv hstep).became i record hrecord
    generalize hearlier : s.channel.records[i]? = earlier at hbecame
    cases hbecame with
    | same =>
      obtain hrefused | hway := ih hs i record hearlier hsettled
      · exact .inl hrefused
      · exact .inr (hway.snoc ⟨rfl, rfl, rfl⟩ rfl l)
    | stored _ hfresh =>
      obtain hrefused | hpending := hfresh
      · exact .inl hrefused
      · exact absurd hpending hsettled
    | redriven before _ now crossing held unknown landed =>
      obtain ⟨hsame, hrefused | hkeeps⟩ := redriven_settlement landed
      · exact .inl hrefused
      obtain ⟨hrejected, -⟩ | hway := ih hs i before hearlier (hkeeps ▸ hsettled)
      · -- a rejected record is not driven again
        rw [unknown] at hrejected
        cases hrejected
      · exact .inr (hway.snoc hsame hkeeps l)
    | observed before now outcome entry pending settled =>
      right
      obtain ⟨hmem, hlate, houtcome, hown⟩ := settled
      exact ⟨ls, [l], s, rfl, hs, entry, hmem, hlate, houtcome,
        fun hdecides => hinv.log.terminalEvent_eq hmem (hown hdecides)⟩

/-- A settled record stays as it is, unless the lock is held to drive it again. -/
theorem settled_stays {s s' : InterruptSystem} (h : s.Invariant authority) {step : InterruptStep}
    (hstep : s.step authority step = some s') {i : Nat} {record : InterruptRecord}
    (hrecord : s.channel.records[i]? = some record) (hsettled : record.settlement ≠ .pending) :
    s'.channel.records[i]? = some record ∨ s.holder = some (.rewriting i) := by
  obtain ⟨-, hkept, hbecame⟩ := interrupt_step_spec h hstep
  have hi : i < s'.channel.records.length :=
    Nat.lt_of_lt_of_le (List.getElem?_eq_some_iff.mp hrecord).1 hkept
  have hlater := hbecame i _ (List.getElem?_eq_getElem hi)
  rw [List.getElem?_eq_getElem hi]
  generalize s'.channel.records[i] = later at hlater
  rw [hrecord] at hlater
  cases hlater with
  | same => exact .inl rfl
  | redriven _ _ now crossing held unknown landed => exact .inr held
  | observed _ now outcome entry pending settled => exact absurd pending hsettled

/-- The records of every reachable state have a valid projection. -/
theorem reachable_projected {ls : List InterruptStep} {t : InterruptSystem}
    (ht : Runs.run (InterruptSystem.step authority) {} ls = some t) {record : InterruptRecord}
    (hrecord : record ∈ t.channel.records) :
    ∃ operation, record.projection = .ok operation ∧ operation.settlement = record.settlement :=
  ((reachable_invariant ht).records record hrecord).coherent.projected

/-- In every run a settled record was refused by the native write, or is what the
evidence behind its floor said of the turn it names at some moment, and it stays so but
for a reconcile that holds the lock. -/
theorem interrupt_settles_from_its_own_turn (authority : InterruptAuthority)
    (ls : List InterruptStep) :
    (∀ t, Runs.run (InterruptSystem.step authority) {} ls = some t →
      ∀ (i : Nat) record, t.channel.records[i]? = some record → record.settlement ≠ .pending →
        record.Refused ∨ SettledOnTheWay authority ls record) ∧
    Runs.Along (InterruptSystem.step authority) (fun s _ s' => ∀ (i : Nat) record,
      s.channel.records[i]? = some record → record.settlement ≠ .pending →
        s'.channel.records[i]? = some record ∨ s.holder = some (.rewriting i)) {} ls := by
  constructor
  · intro t ht i record hrecord hsettled
    exact run_settles ht i record hrecord hsettled
  · apply Runs.along_of_forall
    intro pre l post _ u u' hu hstep i record hrecord hsettled
    exact settled_stays (reachable_invariant hu) hstep hrecord hsettled

end runs

/-! ## Runs on fixed inputs -/

section instances

/-- An authority whose fingerprints are readable. -/
def localAuthority (harness : HarnessId) : InterruptAuthority where
  harness := harness
  bridgeEpoch := "epoch-1"
  fingerprint := fun _ turnId requestId => turnId ++ "/" ++ requestId

/-- A principal. -/
def localCaller : AuthorizationBinding := ⟨"principal", "tenant"⟩

/-- A text. -/
def text (s : String) : Datum := .leaf (.str s)

/-- The parameters of a codex completion. -/
def codexCompleted (turnId status : String) : List (String × Datum) :=
  [("turn", .dict [("id", text turnId), ("status", text status)])]

/-- A turn is interrupted and ends, another one runs, and the evidence is read in pages of one. -/
def codexRun : List InterruptStep :=
  [.harness (.startTurn "turn-1"), .harness (.frame "delta" []), .harness .publish,
   .snapshot localCaller "turn-1" "request-1" none, .begin 0, .acquire 0 "t1",
   .harness (.frame "delta" []), .land (.answered ⟨.accepted, none, none, none⟩) "t2",
   .harness (.endTurn "completed" (codexCompleted "turn-1" "interrupted")),
   .harness (.startTurn "turn-2"),
   .harness (.endTurn "completed" (codexCompleted "turn-2" "completed")),
   .status localCaller "turn-1" "request-1" true, .acquire 0 "t3", .readEvidence 0 "t4",
   .readEvidence 0 "t5"]

theorem codexRun_settles : ∃ t record,
    Runs.run (InterruptSystem.step (localAuthority .codex)) {} codexRun = some t ∧
      t.channel.records[0]? = some record ∧ record.settlement = .interrupted ∧
      record.Decides t.log ∧
      (record.Refused ∨ SettledOnTheWay (localAuthority .codex) codexRun record) := by
  have hrun : ((Runs.run (InterruptSystem.step (localAuthority .codex)) {} codexRun).bind fun t =>
      (t.channel.records[0]?).map fun record => (record.harnessId, record.settlement)) =
      some (.codex, .interrupted) := by decide +kernel
  obtain ⟨t, ht, hrecord⟩ := Option.bind_eq_some_iff.mp hrun
  obtain ⟨record, hrecord, hcells⟩ := Option.map_eq_some_iff.mp hrecord
  simp only [Prod.mk.injEq] at hcells
  obtain ⟨hharness, hsettlement⟩ := hcells
  refine ⟨t, record, ht, hrecord, hsettlement, by simp [InterruptRecord.Decides, hharness], ?_⟩
  exact (interrupt_settles_from_its_own_turn (localAuthority .codex) codexRun).1 t ht 0 record
    hrecord (by rw [hsettlement]; decide)

/-- How the terminal event of a turn is classified, where it has one. -/
def EvidenceLog.classified (log : EvidenceLog) (harness : HarnessId) (turnId : String) :
    Option Settlement :=
  (log.terminalEvent turnId).bind fun entry =>
    match frameOutcome harness turnId entry.frame with
    | .ok outcome => outcome.map Prod.fst
    | .error _ => none

/-- The settlement of a record beside the classification of its turn's terminal event. -/
def InterruptSystem.verdict (s : InterruptSystem) (i : Nat) :
    Option (Settlement × Option Settlement) :=
  (s.channel.records[i]?).map fun record =>
    (record.settlement, s.log.classified record.harnessId record.turnId)

/-- The substrate refuses the write, and the turn runs on. -/
def refusedRun : List InterruptStep :=
  [.harness (.startTurn "turn-1"), .snapshot localCaller "turn-1" "request-1" none, .begin 0,
   .acquire 0 "t1", .land (.answered ⟨.unsupported, none, none, none⟩) "t2"]

/-- A Claude result with its explicit outcome. -/
def claudeResult (outcome : String) : List (String × Datum) :=
  [("type", text "result"), (arTerminalOutcomeKey, text outcome)]

/-- The turn ends before the snapshot, the acknowledgement is lost, and the next turn ends. -/
def claudeRun : List InterruptStep :=
  [.harness (.startTurn "turn-1"), .harness (.endTurn "completed" (claudeResult "failed")),
   .harness .publish, .snapshot localCaller "turn-1" "request-1" none, .begin 0, .acquire 0 "t1",
   .land (.lost "connection reset") "t2", .harness (.startTurn "turn-2"),
   .harness (.endTurn "completed" (claudeResult "completed")),
   .status localCaller "turn-1" "request-1" false, .acquire 0 "t3", .readEvidence 0 "t4"]

/-- A pi message with its stop reason. -/
def messageEnd (reason : String) : List (String × Datum) :=
  [("type", text "message_end"), ("message", .dict [("stopReason", text reason)])]

/-- The interrupted turn is aborted, and the next one ends before the status is read. -/
def piRun : List InterruptStep :=
  [.harness (.startTurn "turn-1"), .snapshot localCaller "turn-1" "request-1" none, .begin 0,
   .acquire 0 "t1", .land (.answered ⟨.accepted, some "turn-1", none, none⟩) "t2",
   .harness (.endTurn "event" (messageEnd "aborted")), .harness (.startTurn "turn-2"),
   .harness (.endTurn "event" (messageEnd "stop")),
   .status localCaller "turn-1" "request-1" false, .acquire 0 "t3",
   .readTimeline [⟨⟨.prompt, "turn-1", 1⟩, some .cockpit, .delivered⟩], .readEvidence 7 "t4"]

/-- The turn goes on behind a message that calls a tool. -/
def piToolRun : List InterruptStep :=
  [.harness (.startTurn "turn-1"), .snapshot localCaller "turn-1" "request-1" none, .begin 0,
   .acquire 0 "t1", .land (.answered ⟨.accepted, some "turn-1", none, none⟩) "t2",
   .harness (.frame "event" (messageEnd "toolUse")),
   .status localCaller "turn-1" "request-1" false, .acquire 0 "t3",
   .readTimeline [⟨⟨.prompt, "turn-1", 1⟩, some .cockpit, .delivered⟩], .readEvidence 7 "t4",
   .harness (.endTurn "event" (messageEnd "aborted"))]

/-- Two reconciles have seen the record pending, and the second is refused. -/
def reconcileRun : List InterruptStep :=
  [.harness (.startTurn "turn-1"), .snapshot localCaller "turn-1" "request-1" none, .begin 0,
   .acquire 0 "t1", .land (.lost "connection reset") "t2",
   .status localCaller "turn-1" "request-1" true, .status localCaller "turn-1" "request-1" true,
   .harness (.endTurn "completed" (codexCompleted "turn-1" "interrupted")), .acquire 0 "t3",
   .land (.lost "connection reset") "t4", .readEvidence 7 "t5", .acquire 0 "t6",
   .land (.answered ⟨.rejected, none, none, none⟩) "t7"]

/-- The records that a run leaves, as `verdict` has the first of them. -/
def verdictOf (harness : HarnessId) (ls : List InterruptStep) :
    Option (Settlement × Option Settlement) :=
  (Runs.run (InterruptSystem.step (localAuthority harness)) {} ls).bind (·.verdict 0)

theorem settled_apart_from_its_turn :
    (¬∀ (harness : HarnessId) (ls : List InterruptStep) settlement event,
      verdictOf harness ls = some (settlement, event) → settlement ≠ .pending →
        event = some settlement) ∧
    verdictOf .codex refusedRun = some (.failed, none) ∧
    verdictOf .claude claudeRun = some (.alreadySettled, some .failed) ∧
    verdictOf .pi piRun = some (.alreadySettled, some .interrupted) ∧
    verdictOf .pi piToolRun = some (.alreadySettled, some .interrupted) ∧
    verdictOf .codex reconcileRun = some (.failed, some .interrupted) := by
  have hrefused : verdictOf .codex refusedRun = some (.failed, none) := by decide +kernel
  refine ⟨fun hall => ?_, hrefused, by decide +kernel, by decide +kernel, by decide +kernel,
    by decide +kernel⟩
  cases hall .codex refusedRun .failed none hrefused (by decide)

end instances

end AgentsRemember.Control
