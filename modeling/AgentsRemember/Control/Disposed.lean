import AgentsRemember.Control.Landing

/-!
# Control — Disposed

Every clean step keeps what has been disposed of that way, and so does every
clean run; and a run that is not clean, in which two reconciles of one lost
withdrawal land one after the other.
-/

namespace AgentsRemember.Control

open Submission WithdrawalBooks

section steps
variable {authority : ControlAuthority} {s s' : ControlSystem}

theorem letsGo_fits {b : WithdrawalBooks} {recoveries : List (String × RecoveryRecord)}
    {c : ControlChannel} (h : Consistent { b with recoveries := recoveries })
    (hfits : Fits recoveries c) :
    LetsGo { b with recoveries := recoveries } { b with recoveries := c.recoveries } := by
  obtain ⟨-, hsame | ⟨e, he, hgone⟩⟩ := hfits
  · rw [hsame]
    exact .refl h.keys h.recoveryKeys
  · exact letsGo_oldest h.keys h.recoveryKeys he hgone

theorem reclaimWithdrawals_recoveries {b : WithdrawalBooks} {n : Nat} :
    (b.reclaimWithdrawals n).recoveries = b.recoveries := by
  induction n generalizing b with
  | zero => rfl
  | succ n ih =>
    unfold WithdrawalBooks.reclaimWithdrawals
    split
    · rfl
    · rw [ih]

/-- A withdrawal settles: its record is stored, with what was retained of it. -/
theorem settleWith_spec (h : Invariant s) {c : ControlChannel} {record : WithdrawalRecord}
    {recoveries : List (String × RecoveryRecord)} (hs : Stores s record recoveries)
    (hnone : s.channel.withdrawals.lookup record.withdrawRequestId = none)
    (hwithdrawals : c.withdrawals = s.channel.withdrawals)
    (hrecords : c.records = s.channel.records) (hfits : Fits recoveries c) :
    StepSpec s (s.settleWith c record) := by
  have hentered := hs.entered h hnone
  have hgo := letsGo_fits (b := s.channel.toWithdrawalBooks.enter record recoveries) hentered hfits
  have hstored : (c.toWithdrawalBooks.enter record c.recoveries) =
      { s.channel.toWithdrawalBooks.enter record recoveries with recoveries := c.recoveries } := by
    unfold WithdrawalBooks.enter
    rw [hwithdrawals, hrecords]
  have hreclaimed : LetsGo (c.toWithdrawalBooks.enter record c.recoveries)
      (c.storeWithdrawal record) := by
    refine letsGo_reclaimWithdrawals ?_ hfits.1 rfl
    rw [hstored]
    exact hentered.letsGo hgo
  rw [hstored] at hreclaimed
  refine stepSpec_of_entered h hs hnone (hgo.trans hreclaimed) ?_ rfl rfl rfl
  show (c.storeWithdrawal record).recoveries.length ≤ _
  unfold WithdrawalBooks.storeWithdrawal
  rw [reclaimWithdrawals_recoveries]
  exact hfits.1

theorem fits_same (h : Invariant s) : Fits s.channel.recoveries s.channel := ⟨h.room, .inl rfl⟩

/-- The row decides, and what it refuses is stored as a failure. -/
theorem readRow_spec (h : Invariant s) {ticket : WithdrawalTicket}
    (hholder : s.holder = some (.reading ticket)) : StepSpec s (s.readRow authority ticket) := by
  have hnone := h.reading ticket hholder
  have hfailure : ∀ outcome detail, outcome ≠ .withdrawn →
      StepSpec s (s.settleWith s.channel (settledFailure authority ticket outcome detail)) := by
    intro outcome detail houtcome
    refine settleWith_spec h ?_ hnone rfl rfl (fits_same h)
    exact stores_plain h (sound_settledFailure houtcome) (by simp [settledFailure])
      (.inr ⟨by simp [settledFailure], houtcome⟩)
  unfold ControlSystem.readRow
  split
  next => exact hfailure .notFound _ (by decide)
  next row hrow =>
    split
    next => exact hfailure .notFound _ (by decide)
    next =>
      split
      next hstate =>
        refine hfailure _ _ ?_
        split <;> decide
      next hqueued =>
        rw [not_not] at hqueued
        have hmatch := List.find?_some hrow
        have hidentity : row.identity = ticket.identity := by
          simp only [Bool.and_eq_true, decide_eq_true_eq] at hmatch
          exact hmatch.1
        refine stepSpec_of_books h rfl s.substrate.extends_refl ?_ ?_ ?_ ?_
        · intro other hother; cases hother
        · intro other result hother
          cases hother
          refine ⟨hnone, ?_, .inr fun hgranted => ?_⟩
          · intro r hr; cases hr
          · rw [← hidentity] at hgranted
            exact s.substrate.granted_not_queued row (List.mem_of_find?_eq_some hrow) hgranted
              hqueued
        · intro authorization i result hother; cases hother
        · intro k _ answer ha; cases ha

theorem release_spec (h : Invariant s) {answer : Answer} (hquiet : ∀ k, ¬answer.Carries k) :
    StepSpec s (s.release s.channel answer) := by
  refine stepSpec_of_free h rfl s.substrate.extends_refl rfl fun k _ other ho => ?_
  cases ho
  exact hquiet k

theorem landWithdraw_spec (h : Invariant s) {ticket : WithdrawalTicket}
    {result : Option WithdrawalResult} {crossing : Crossing} {now : Nat}
    (hholder : s.holder = some (.asking ticket result))
    (hroom : crossing = .answered → ∀ r ∈ result, RoomFor authority s ticket r now)
    (hland : s.landWithdraw authority now true ticket result crossing = some s') :
    StepSpec s s' := by
  obtain ⟨hnone, hgranted⟩ := h.asking ticket result hholder
  have hbuilt := unbuilt_of_asking h hholder
  cases crossing with
  | answered =>
    simp only [ControlSystem.landWithdraw, Option.map_eq_some_iff] at hland
    obtain ⟨r, hr, rfl⟩ := hland
    obtain ⟨fresh, c, recoveries, happly, hwithdrawals, hrecords, hname, -, hfits, hs⟩ :=
      applyWithdrawalResult_spec h (hroom rfl r hr) hbuilt (hgranted r hr)
    rw [happly]
    exact settleWith_spec h hs (hname ▸ hnone) hwithdrawals hrecords hfits
  | epochMismatch =>
    cases hland
    refine settleWith_spec h ?_ hnone rfl rfl (fits_same h)
    exact stores_plain h (sound_settledFailure (by decide)) (by simp [settledFailure])
      (.inr ⟨by simp [settledFailure], by simp [settledFailure]⟩)
  | lost detail =>
    cases hland
    refine settleWith_spec h ?_ hnone rfl rfl (fits_same h)
    exact stores_plain h sound_unknownWithdrawal (by simp [unknownWithdrawal, settledFailure])
      (.inl hbuilt)
  | unsent detail => cases hland; exact release_spec h fun k => carries_raised
  | refused detail => cases hland; exact release_spec h fun k => carries_raised

theorem landReconcile_spec (h : Invariant s) {authorization : AuthorizationBinding} {i : Nat}
    {record : WithdrawalRecord} {result : Option WithdrawalResult} {crossing : Crossing}
    {now : Nat} (hholder : s.holder = some (.reasking authorization i result))
    (hrecord : s.channel.records[i]? = some record)
    (hrefused : ∀ detail, crossing = .refused detail → record.detail = some detail)
    (hanswered : crossing = .answered → StillUnknown s i record ∧
      ∀ r ∈ result, RoomFor authority s (record.ticket authority authorization) r now)
    (hland : s.landReconcile authority now true authorization i record result crossing = some s') :
    StepSpec s s' := by
  cases crossing with
  | answered =>
    obtain ⟨hunknown, hroom⟩ := hanswered rfl
    simp only [ControlSystem.landReconcile, Option.map_eq_some_iff] at hland
    obtain ⟨r, hr, rfl⟩ := hland
    have hgranted : r.outcome = .withdrawn → record.operation ∈ s.substrate.granted :=
      fun houtcome => h.reasking authorization i r (hr ▸ hholder) houtcome record hrecord
    obtain ⟨fresh, c, recoveries, happly, hwithdrawals, hrecords, hname, hoperation, hfits, hs⟩ :=
      applyWithdrawalResult_spec h (hroom r hr) (unbuilt_of_unknown h hunknown) hgranted
    rw [happly]
    have hs' := hs.redriven hname hoperation
    have hgo := letsGo_fits (b := s.channel.toWithdrawalBooks.setRecord i (record.redriven fresh))
      (hs'.redrives h hunknown.1 hunknown.2) hfits
    have hbooks : c.setRecord i (record.redriven fresh) =
        { s.channel.toWithdrawalBooks.setRecord i (record.redriven fresh) with
          recoveries := c.recoveries } := by
      unfold WithdrawalBooks.setRecord
      rw [hwithdrawals, hrecords]
    rw [← hbooks] at hgo
    refine stepSpec_of_redriven h hs' hunknown.1 hunknown.2 (Nat.lt_succ_self _) hgo hfits.1
      rfl rfl fun answer ha k => ?_
    cases ha
    exact carries_projection
  | epochMismatch => cases hland; exact release_spec h fun k => carries_raised
  | lost detail => cases hland; exact release_spec h fun k => carries_projection
  | unsent detail => cases hland; exact release_spec h fun k => carries_raised
  | refused detail =>
    cases hland
    have hsame : { record with detail := some detail } = record := by
      rw [← hrefused detail rfl]
    rw [hsame]
    have hset : s.channel.toWithdrawalBooks.setRecord i record = s.channel.toWithdrawalBooks := by
      unfold WithdrawalBooks.setRecord
      obtain ⟨hi, hget⟩ := List.getElem?_eq_some_iff.mp hrecord
      rw [← hget, List.set_getElem_self hi]
    rw [hset]
    exact release_spec h fun k => carries_projection

theorem land_spec (h : Invariant s) {crossing : Crossing} {now : Nat} {deletes : Bool}
    (hclean : Clean authority s (.land crossing now deletes))
    (hland : s.land authority crossing now deletes = some s') : StepSpec s s' := by
  obtain ⟨rfl, hholder⟩ := hclean
  unfold ControlSystem.land at hland
  split at hland
  next ticket result hasking =>
    rw [hasking] at hholder
    exact landWithdraw_spec h hasking hholder hland
  next authorization i result hreasking =>
    rw [hreasking] at hholder
    obtain ⟨record, hrecord, hland⟩ := Option.bind_eq_some_iff.mp hland
    have hcrossing := hholder record hrecord
    refine landReconcile_spec h hreasking hrecord ?_ ?_ hland
    · rintro detail rfl
      exact hcrossing
    · rintro rfl
      exact hcrossing
  next => cases hland

/-- Every clean step. -/
theorem step_spec (h : Invariant s) {step : ControlStep} (hclean : Clean authority s step)
    (hstep : s.step authority step = some s') : StepSpec s s' := by
  cases step with
  | call authorization call now deletes =>
    cases hstep
    obtain rfl : deletes = true := hclean
    exact call_spec h now call
  | acquire i =>
    simp only [ControlSystem.step] at hstep
    split at hstep
    · cases hstep
    next hfree =>
      obtain ⟨waiting, -, rfl⟩ := Option.map_eq_some_iff.mp hstep
      exact hold_spec h (not_not.mp hfree) i waiting
  | readRow =>
    simp only [ControlSystem.step] at hstep
    split at hstep
    next ticket hholder => cases hstep; exact readRow_spec h hholder
    next => cases hstep
  | settle result substrate =>
    obtain ⟨holder, hholder, hrest⟩ := Option.bind_eq_some_iff.mp hstep
    obtain ⟨identity, hasked, hrest⟩ := Option.bind_eq_some_iff.mp hrest
    split at hrest
    next hgranted => cases hrest; exact settle_spec h hholder hasked hgranted.1 hgranted.2
    next => cases hrest
  | land crossing now deletes => exact land_spec h hclean hstep
  | abandonWaiting i =>
    cases hstep
    exact stepSpec_of_kept h rfl s.substrate.extends_refl rfl rfl
  | abandonHolder =>
    cases hstep
    exact stepSpec_of_free h rfl s.substrate.extends_refl rfl fun k _ answer ha => nomatch ha
  | substrateMoves substrate =>
    simp only [ControlSystem.step] at hstep
    split at hstep
    next hextends => cases hstep; exact stepSpec_of_kept h rfl hextends rfl rfl
    next => cases hstep
  | attachmentsMove attachments =>
    cases hstep
    exact stepSpec_of_kept h rfl s.substrate.extends_refl rfl rfl
  | journalMoves journal =>
    cases hstep
    exact stepSpec_of_kept h rfl s.substrate.extends_refl rfl rfl

theorem invariant_start : Invariant {} where
  books := consistent_empty
  room := Nat.zero_le _
  granted _ _ h := nomatch h
  reading _ h := nomatch h
  asking _ _ h := nomatch h
  reasking _ _ _ h := nomatch h

end steps

/-- An authority whose digests are readable. -/
def plainAuthority : ControlAuthority where
  arSessionId := "ar-1"
  bridgeEpoch := "epoch-1"
  payloadDigest text _ := "sha256:" ++ text
  fingerprint authorization identity w :=
    authorization.principalId ++ "|" ++ identity.operationId ++ "|" ++ w

/-- A principal. -/
def alice : AuthorizationBinding := ⟨"alice", "local"⟩

/-- A prompt in the queue. -/
def queuedPrompt : OperationIdentity := ⟨.prompt, "prompt-1", 1⟩

/-- A reference of the prompt. -/
def promptRef (purpose : RefPurpose) (withdrawRequestId : Option String) : Token :=
  some ⟨purpose, plainAuthority.binding alice, ⟨queuedPrompt, withdrawRequestId, none⟩⟩

/-- The substrate once it has granted the withdrawal. -/
def grantedSubstrate : Substrate := { granted := [queuedPrompt] }

/-- A status call that reconciles. -/
def reconcile : ControlStep := .call alice (.status (promptRef .operationRef none) "w1" true) 1 true

/-- The recovery, acknowledged. -/
def acknowledge : ControlStep :=
  .call alice (.acknowledge (promptRef .recoveryRef (some "w1")) .keepCurrentDraft) 2 true

/-- The withdrawal, asked for again. -/
def replay : ControlStep :=
  .call alice (.withdraw (promptRef .operationRef none) (promptRef .withdrawalRef none) "w1") 3 true

/-- The lock, the substrate's idempotent answer, and what the call makes of it. -/
def lands : List ControlStep :=
  [.acquire 0, .settle { outcome := .withdrawn } grantedSubstrate, .land .answered 1 true]

end AgentsRemember.Control
