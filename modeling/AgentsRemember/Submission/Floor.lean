import AgentsRemember.Foundation.Pages
import AgentsRemember.Submission.Refinement

/-!
# Submission — Floor

What the ledger says of the rows it let go. The timeline of the model does
not speak of `evictedBeforeSequence`, so the rows are followed here once more,
by their ordinals: a row is kept or it is at or below the floor, and what comes
new is numbered above everything minted before (`Valid.step_advances`).
-/

namespace AgentsRemember.Submission

namespace SubmissionLedger

/-- The ordinals of the rows. -/
def Retains (l : SubmissionLedger) (n : Nat) : Prop := ∃ key, l.byKey key = some n

/-- How the rows may move. -/
def Advances (l l' : SubmissionLedger) : Prop :=
  Pages.Moves l.Retains l'.Retains l.sequence l'.sequence
    l.evictedBeforeSequence l'.evictedBeforeSequence

theorem Advances.refl (l : SubmissionLedger) : l.Advances l := Pages.Moves.refl _ _ _

theorem Advances.trans {l l' l'' : SubmissionLedger} (h : l.Advances l') (h' : l'.Advances l'') :
    l.Advances l'' := Pages.Moves.trans h h'

theorem touch_retains (l : SubmissionLedger) (key : OperationKey) :
    (l.touch key).Retains = l.Retains := by
  funext n
  simp [Retains]

/-- The rows stay as they are, but for their order. -/
def SameRows (l l' : SubmissionLedger) : Prop := l' = l ∨ ∃ key, l' = l.touch key

theorem SameRows.advances {l l' : SubmissionLedger} (h : l.SameRows l') : l.Advances l' := by
  rcases h with rfl | ⟨key, rfl⟩
  · exact .refl _
  · unfold Advances
    rw [touch_retains]
    exact Pages.Moves.refl _ _ _

section eviction
variable {l l' : SubmissionLedger} {objects : Objects} {pinned : OperationKey → Bool}
variable (hobjects : ∀ n record, objects n = some record → record.ref.sequence = n)
include hobjects

theorem evictOne_advances (hl : (l.records.map Prod.fst).Nodup)
    (htop : ∀ n, l.Retains n → n ≤ l.sequence) (h : l.evictOne objects pinned = some l') : l.Advances l' := by
  have he := evictOne_evicts hl h
  simp only [evictOne, Option.bind_eq_bind, Option.pure_def, Option.bind_eq_some_iff] at h
  obtain ⟨⟨key, n⟩, hfind, record, hrec, hl'⟩ := h
  have hl' := Option.some.inj hl'
  have hseq : record.ref.sequence = n := hobjects n record hrec
  have hrow : l.byKey key = some n := Keyed.lookup_of_mem hl (List.mem_of_find?_eq_some hfind)
  have hfloor : l'.evictedBeforeSequence = max l.evictedBeforeSequence n := by
    rw [← hl', hseq]
  have hn : n ≤ l'.sequence := (htop n ⟨key, hrow⟩).trans he.sequence.ge
  refine ⟨he.sequence.ge, by omega, by omega, ?_, ?_⟩
  · rintro m ⟨k, hk⟩
    by_cases hkey : k = key
    · right
      rw [hkey, hrow] at hk
      cases hk
      omega
    · left
      refine ⟨k, ?_⟩
      have hkeep : l'.byKey k = l.byKey k := by
        rw [← hl']
        simp [byKey, Keyed.lookup_erase, hkey]
      rw [hkeep, hk]
  · rintro m ⟨k, hk⟩
    exact .inl ⟨k, he.byKey_sub k m hk⟩

theorem makeRoom_advances (limit : Nat) (hl : (l.records.map Prod.fst).Nodup)
    (htop : ∀ n, l.Retains n → n ≤ l.sequence) :
    l.Advances (l.makeRoom objects pinned limit).2 := by
  unfold makeRoom
  generalize l.records.length = fuel
  induction fuel generalizing l with
  | zero => exact .refl l
  | succ fuel ih =>
    simp only [makeRoomLoop]
    split
    · exact .refl l
    · cases h : l.evictOne objects pinned with
      | none => exact .refl l
      | some l' =>
        have hone := evictOne_advances hobjects hl htop h
        have he := evictOne_evicts hl h
        refine hone.trans (ih (evictOne_nodup hl h) ?_)
        rintro n ⟨key, hkey⟩
        exact (htop n ⟨key, he.byKey_sub key n hkey⟩).trans he.sequence.ge

end eviction

/-- Enrolling under a free key leaves the other rows. -/
theorem enrol_advances {l : SubmissionLedger} {record : OperationRecord}
    (hfree : l.byKey record.key = none) (hseq : record.ref.sequence = l.sequence + 1) :
    l.Advances (({ l with sequence := l.sequence + 1 } : SubmissionLedger).enrol record) := by
  have hbyKey : ∀ k, (({ l with sequence := l.sequence + 1 } : SubmissionLedger).enrol
      record).byKey k = if record.key = k then some (l.sequence + 1) else l.byKey k := by
    intro k
    rw [enrol_byKey, hseq]
    rfl
  refine ⟨Nat.le_succ _, le_rfl, le_max_left _ _, ?_, ?_⟩
  · rintro n ⟨k, hk⟩
    left
    refine ⟨k, ?_⟩
    rw [hbyKey, if_neg]
    · exact hk
    · rintro rfl
      rw [hfree] at hk
      cases hk
  · rintro n ⟨k, hk⟩
    rw [hbyKey] at hk
    split at hk
    · right
      cases hk
      exact Nat.lt_succ_self _
    · exact .inl ⟨k, hk⟩

end SubmissionLedger

namespace Authority
open SubmissionLedger

/-- No row is numbered above what was minted. -/
theorem Valid.retains_le {a : Authority} (h : a.Valid) {n : Nat} (hn : a.ledger.Retains n) :
    n ≤ a.ledger.sequence := by
  obtain ⟨key, hkey⟩ := hn
  obtain ⟨st, hm⟩ := h.core.row key n hkey
  exact h.core.bound n _ hm

section admission
variable {a : Authority} (h : a.Valid)
include h

theorem Valid.hasAdmissionRoom_advances {room a'} (hroom : a.hasAdmissionRoom = (room, a')) :
    a.ledger.Advances a'.ledger := by
  simp only [Authority.hasAdmissionRoom] at hroom
  split at hroom
  · cases hroom
    exact makeRoom_advances (fun n record ho => (h.objects n record ho).1) _ h.ledger.nodup
      fun n hn => h.retains_le hn
  · cases hroom
    exact .refl _

theorem Valid.submit_advances (request : AdmittedRequest) :
    a.ledger.Advances (a.submit request).2.ledger := by
  unfold submit
  dsimp only
  split
  · exact .refl _
  split
  · exact .refl _
  split
  · rename_i prior hprior
    split
    · exact .refl _
    · exact SameRows.advances (.inr ⟨_, rfl⟩)
  · rename_i hnone
    split
    · rename_i a' hroom
      exact h.hasAdmissionRoom_advances hroom
    · rename_i a' hroom
      have hmade := h.hasAdmissionRoom_advances hroom
      obtain ⟨ledger, rfl, hn, hseq, he⟩ := h.hasAdmissionRoom hroom
      have hfree := h.prompt_key_free request hnone he (ledger.sequence + 1)
      have henrol := hmade.trans (@enrol_advances _
          { ref := (ledger.nextRef a.bridgeEpoch .prompt (some request.request.requestId)).1
            state := .queued, submittedAt := request.request.submittedAt,
            updatedAt := request.request.submittedAt, source := some request.request.source,
            payloadDigest := some (a.config.payloadDigest request.request.text
              request.request.assets)
            text := some request.request.text,
            detail := some "queued inside the authoritative control bridge",
            assets := request.request.assets } hfree rfl)
      split
      · exact henrol
      · split
        all_goals exact henrol

theorem Valid.admitSetter_advances (kind : SetterKind) (value at_ : String) :
    a.ledger.Advances (a.admitSetter kind value at_).2.ledger := by
  unfold admitSetter
  split
  · exact .refl _
  split
  · exact .refl _
  split
  · rename_i a' hroom
    exact h.hasAdmissionRoom_advances hroom
  · rename_i a' hroom
    have hmade := h.hasAdmissionRoom_advances hroom
    obtain ⟨ledger, rfl, hn, hseq, he⟩ := h.hasAdmissionRoom hroom
    refine hmade.trans (enrol_advances ?_ rfl)
    exact h.setter_key_free kind hn hseq he

end admission

/-! ## Everything else leaves the rows -/

theorem withdraw_sameRows (a : Authority) (epoch requestId : String) (cockpitOnly : Bool)
    (at_ : String) : a.ledger.SameRows (a.withdraw epoch requestId cockpitOnly at_).2.ledger := by
  left
  unfold withdraw
  dsimp only
  repeat' split
  all_goals rfl

theorem resolveOperation_sameRows (a : Authority) (operationId : String)
    (kind : ControlOperationKind) (resolution : OperationResolution) (detail at_ : String) :
    a.ledger.SameRows (a.resolveOperation operationId kind resolution detail at_).2.ledger := by
  unfold resolveOperation
  split
  · exact .inl rfl
  split
  · exact .inl rfl
  · exact .inr ⟨_, rfl⟩

theorem observeEvent_sameRows (a : Authority) (event : AdapterEvent) :
    a.ledger.SameRows (a.observeEvent event).2.ledger := by
  unfold observeEvent
  dsimp only
  repeat' split
  all_goals first
    | exact .inl rfl
    | exact .inr ⟨_, rfl⟩

theorem reconcileStart_sameRows (a : Authority) (requestId : String) (epoch : Option String) :
    a.ledger.SameRows (a.reconcileStart requestId epoch).2.ledger := by
  unfold reconcileStart
  repeat' split
  all_goals first
    | exact .inl rfl
    | exact .inr ⟨_, rfl⟩

theorem reconcileApply_sameRows (a : Authority) (requestId : String) (ref : ControlOperationRef)
    (result : ReconciliationResult) :
    a.ledger.SameRows (a.reconcileApply requestId ref result).2.ledger := by
  unfold reconcileApply
  dsimp only
  repeat' split
  all_goals first
    | exact .inl rfl
    | exact .inr ⟨_, rfl⟩

theorem Applied.sameRows {a a' : Authority} {record : OperationRecord} (h : Applied a record a') :
    a.ledger.SameRows a'.ledger := by
  cases h with
  | held written _ _ => exact .inl rfl
  | retired written consume _ _ => exact .inr ⟨_, rfl⟩

theorem dispatcherBlock_sameRows {a a' : Authority} {at_ : String}
    (hb : a.dispatcherBlock at_ = some a') : a.ledger.SameRows a'.ledger := by
  unfold dispatcherBlock at hb
  cases hd : a.dispatcher with
  | declined n detail =>
    rw [hd] at hb
    obtain ⟨record, -, hb⟩ := Option.bind_eq_some_iff.mp hb
    cases hb
    exact .inl rfl
  | preflightClaim n detail vendor =>
    rw [hd] at hb
    obtain ⟨record, -, hb⟩ := Option.bind_eq_some_iff.mp hb
    cases hb
    exact .inl rfl
  | claiming n =>
    rw [hd] at hb
    obtain ⟨record, -, hb⟩ := Option.bind_eq_some_iff.mp hb
    cases hclaim : a.claimHead record at_ with
    | none =>
      rw [hclaim] at hb
      cases hb
      exact .inl rfl
    | some claimed =>
      rw [hclaim] at hb
      cases hb
      unfold claimHead at hclaim
      split at hclaim
      · cases hclaim
      · cases hclaim
        exact .inl rfl
  | presendBusy n detail =>
    rw [hd] at hb
    obtain ⟨record, -, hb⟩ := Option.bind_eq_some_iff.mp hb
    unfold certifiedPreSendBusy at hb
    split at hb <;> rename_i heq <;> split at heq <;> cases heq <;> cases hb <;> exact .inl rfl
  | possibleSend n detail vendor =>
    rw [hd] at hb
    obtain ⟨record, -, hb⟩ := Option.bind_eq_some_iff.mp hb
    cases hb
    exact .inl rfl
  | returned n result =>
    rw [hd] at hb
    obtain ⟨record, -, hb⟩ := Option.bind_eq_some_iff.mp hb
    cases happly : a.applyMethodResult record result at_ with
    | error message =>
      rw [happly] at hb
      cases hb
      exact .inl rfl
    | ok outcome =>
      rw [happly] at hb
      cases hb
      exact (applyMethodResult_applied happly).2.2.sameRows
  | incoherent n error =>
    rw [hd] at hb
    obtain ⟨record, -, hb⟩ := Option.bind_eq_some_iff.mp hb
    unfold incoherentMethodResult at hb
    split at hb <;> rename_i heq <;> split at heq <;> cases heq <;> cases hb <;> exact .inl rfl
  | waiting | looking | preflight | calling | stopped =>
    rw [hd] at hb
    cases hb

/-- What one step does to the rows. -/
theorem Valid.step_advances {a a' : Authority} (h : a.Valid) {l : Step}
    (hs : a.step l = some a') : a.ledger.Advances a'.ledger := by
  cases l with
  | submit request =>
    cases hs
    exact h.submit_advances request
  | setter kind value at_ =>
    cases hs
    exact h.admitSetter_advances kind value at_
  | withdraw epoch requestId cockpitOnly at_ =>
    cases hs
    exact (withdraw_sameRows a epoch requestId cockpitOnly at_).advances
  | resolveOperation operationId kind resolution detail at_ =>
    cases hs
    exact (resolveOperation_sameRows a operationId kind resolution detail at_).advances
  | observeEvent event =>
    cases hs
    exact (observeEvent_sameRows a event).advances
  | snapshotUpdated snapshot =>
    cases hs
    exact .refl _
  | reconcileStart requestId epoch =>
    cases hs
    exact (reconcileStart_sameRows a requestId epoch).advances
  | reconcileAnswer i answer =>
    obtain ⟨⟨requestId, ref⟩, -, hs⟩ := Option.bind_eq_some_iff.mp hs
    cases answer with
    | none =>
      cases hs
      exact .refl _
    | some result =>
      cases hs
      exact (reconcileApply_sameRows { a with reconciling := a.reconciling.eraseIdx i } requestId
        ref result).advances
  | wakeUp =>
    simp only [step] at hs
    split at hs
    · split at hs
      · cases hs
        exact .refl _
      · cases hs
    · cases hs
  | look =>
    simp only [step] at hs
    split at hs
    · split at hs
      all_goals
        cases hs
        exact .refl _
    · cases hs
  | preflightAnswer answer =>
    simp only [step] at hs
    split at hs
    · cases hs
      exact .refl _
    · cases hs
  | methodAnswer answer =>
    simp only [step] at hs
    split at hs
    · cases hs
      exact .refl _
    · cases hs
  | block at_ => exact (dispatcherBlock_sameRows hs).advances

/-- What a run does to the rows, and all it does to the configuration. -/
theorem Valid.run_advances {a b : Authority} (h : a.Valid) (hrun : Runs.Reachable step a b) :
    b.Valid ∧ b.config = a.config ∧ a.ledger.Advances b.ledger := by
  refine Runs.Reachable.invariant (I := fun b => b.Valid ∧ b.config = a.config ∧
    a.ledger.Advances b.ledger) ?_ ⟨h, rfl, .refl _⟩ hrun
  rintro s l s' ⟨hv, hc, hadv⟩ hs
  exact ⟨valid_step hv hs, (hv.step_refines hs).config.trans hc, hadv.trans (hv.step_advances hs)⟩

/-- The floor of a reachable ledger is a number it has minted. -/
theorem ReachableFrom.floor_le {config snapshot} {a : Authority}
    (h : ReachableFrom config snapshot a) :
    a.ledger.evictedBeforeSequence ≤ a.ledger.sequence := by
  have hfloor := ((start_valid config snapshot).run_advances h).2.2.floor_top
  have hstart : (start config snapshot).ledger.evictedBeforeSequence = 0 := rfl
  omega

theorem ReachableFrom.retains_pos {config snapshot} {a : Authority}
    (h : ReachableFrom config snapshot a) {n : Nat} (hn : a.ledger.Retains n) : 0 < n := by
  rcases ((start_valid config snapshot).run_advances h).2.2.fresh n hn with ⟨key, hkey⟩ | hnew
  · cases hkey
  · exact hnew

end Authority

end AgentsRemember.Submission
