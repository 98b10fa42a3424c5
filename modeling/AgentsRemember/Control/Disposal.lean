import AgentsRemember.Control.Ledgers
import AgentsRemember.Foundation.Runs

/-!
# Control — Disposal

A recovery that has been acknowledged or has expired stays disposed of, in every
run in which no reconcile lands on a withdrawal that is settled or let go, no
unacknowledged recovery is evicted and no deletion fails. The invariant ties the
ledgers to each other and to what the substrate has granted.
-/

namespace AgentsRemember.Control

open Submission WithdrawalBooks

/-! ## What the property is about -/

/-- A recovery is the one of an operation under a request id. -/
structure RecoveryKey where
  withdrawRequestId : String
  operation : OperationIdentity

/-- The recovery is retained and unacknowledged. -/
def Held (s : ControlSystem) (k : RecoveryKey) : Prop :=
  ∃ r ∈ s.channel.recovery k.withdrawRequestId,
    r.operation = k.operation ∧ r.state = .recoveryUnacknowledged

instance (s : ControlSystem) (k : RecoveryKey) : Decidable (Held s k) :=
  inferInstanceAs (Decidable (∃ r ∈ s.channel.recovery k.withdrawRequestId, _ ∧ _))

/-- The recovery that an answer contains, if it contains one. -/
def Answer.recovery? : Answer → Option WithdrawalRecovery
  | .response (.withdrawn granted) => some granted.recovery
  | .recovery fetched => some fetched
  | _ => none

/-- The answer carries the recovery's text or its attachment refs. -/
def Answer.Carries (answer : Answer) (k : RecoveryKey) : Prop :=
  ∃ recovery ∈ answer.recovery?,
    recovery.recoveryRef.target = ⟨k.operation, some k.withdrawRequestId, none⟩ ∧
      (recovery.text ≠ "" ∨ recovery.attachments ≠ [])

instance (answer : Answer) (k : RecoveryKey) : Decidable (answer.Carries k) :=
  inferInstanceAs (Decidable (∃ recovery ∈ answer.recovery?, _ ∧ _))

/-- Whatever changes has a greater revision. -/
structure Grows (b b' : WithdrawalBooks) : Prop where
  records : ∀ (i : Nat) (record record' : WithdrawalRecord), b.records[i]? = some record →
    b'.records[i]? = some record' → record' = record ∨ record.revision < record'.revision
  recoveries : ∀ w, ∀ r ∈ b.recovery w, ∀ r' ∈ b'.recovery w, r'.operation = r.operation →
    r' = r ∨ r.revision < r'.revision

/-- A new recovery fits, or the oldest one has been disposed of. -/
def HasRoom (b : WithdrawalBooks) (withdrawRequestId : String) : Prop :=
  b.recoveries.length < maxRecoveriesPerChannel ∨ (b.recovery withdrawRequestId).isSome ∨
    ∀ e ∈ b.recoveries.head?, e.2.state ≠ .recoveryUnacknowledged

section clean
variable (authority : ControlAuthority) (s : ControlSystem)

/-- The recovery of a granted withdrawal, if it has content, finds room. -/
def RoomFor (ticket : WithdrawalTicket) (result : WithdrawalResult) (now : Nat) : Prop :=
  result.outcome = .withdrawn →
    (recoveredRecord authority s.channel ticket result now).isContentful = true →
      HasRoom s.channel.toWithdrawalBooks ticket.withdrawRequestId

/-- A reconcile lands on a withdrawal that is still retained and still unknown. -/
def StillUnknown (i : Nat) (record : WithdrawalRecord) : Prop :=
  s.channel.retained record.withdrawRequestId = some (i, record) ∧ record.phase = .unknown

/-- The condition on what comes back to a reconcile. -/
def CleanCrossing (authorization : AuthorizationBinding) (i : Nat) (record : WithdrawalRecord)
    (result : Option WithdrawalResult) (now : Nat) : Crossing → Prop
  | .answered => StillUnknown s i record ∧
      ∀ r ∈ result, RoomFor authority s (record.ticket authority authorization) r now
  | .refused detail => record.detail = some detail
  | _ => True

/-- What a step must find for its landing to be clean. -/
def CleanLanding (crossing : Crossing) (now : Nat) : Option Holder → Prop
  | some (.asking ticket result) =>
    crossing = .answered → ∀ r ∈ result, RoomFor authority s ticket r now
  | some (.reasking authorization i result) =>
    ∀ record ∈ s.channel.records[i]?,
      CleanCrossing authority s authorization i record result now crossing
  | _ => True

/-- The condition on one step. -/
def Clean : ControlStep → Prop
  | .call _ _ _ deletes => deletes = true
  | .land crossing now deletes =>
    deletes = true ∧ CleanLanding authority s crossing now s.holder
  | _ => True

instance (b : WithdrawalBooks) (w : String) : Decidable (HasRoom b w) :=
  inferInstanceAs (Decidable (_ ∨ _ ∨ _))

instance (ticket : WithdrawalTicket) (result : WithdrawalResult) (now : Nat) :
    Decidable (RoomFor authority s ticket result now) :=
  inferInstanceAs (Decidable (_ → _ → _))

instance (i : Nat) (record : WithdrawalRecord) : Decidable (StillUnknown s i record) :=
  inferInstanceAs (Decidable (_ ∧ _))

instance (authorization : AuthorizationBinding) (i : Nat) (record : WithdrawalRecord)
    (result : Option WithdrawalResult) (now : Nat) : (crossing : Crossing) →
    Decidable (CleanCrossing authority s authorization i record result now crossing)
  | .answered => inferInstanceAs (Decidable (_ ∧ _))
  | .refused _ => inferInstanceAs (Decidable (_ = _))
  | .lost _ | .unsent _ | .epochMismatch => isTrue trivial

instance (crossing : Crossing) (now : Nat) : (holder : Option Holder) →
    Decidable (CleanLanding authority s crossing now holder)
  | some (.asking ticket result) => inferInstanceAs (Decidable
      (_ → ∀ r ∈ result, RoomFor authority s ticket r now))
  | some (.reasking authorization i result) => inferInstanceAs (Decidable
      (∀ record ∈ s.channel.records[i]?,
        CleanCrossing authority s authorization i record result now crossing))
  | some (.reading _) => isTrue trivial
  | none => isTrue trivial

instance : (step : ControlStep) → Decidable (Clean authority s step)
  | .call _ _ _ _ => inferInstanceAs (Decidable (_ = _))
  | .land _ _ _ => inferInstanceAs (Decidable (_ ∧ _))
  | .acquire _ | .readRow | .settle _ _ | .abandonWaiting _ | .abandonHolder
  | .substrateMoves _ | .attachmentsMove _ | .journalMoves _ => isTrue trivial

end clean

/-! ## Sweeps and acknowledgements -/

/-- The books go on: what is there stays, and whatever changes grows. -/
structure Advances (b b' : WithdrawalBooks) : Prop where
  consistent : Consistent b'
  withdrawals : ∀ w, b'.withdrawals.lookup w = b.withdrawals.lookup w
  records : ∀ (i : Nat) (record' : WithdrawalRecord), b'.records[i]? = some record' →
    ∃ record, b.records[i]? = some record ∧ (record' = record ∨ record.revision < record'.revision) ∧
    record'.operation = record.operation ∧ record'.phase = record.phase
  length : b'.recoveries.length = b.recoveries.length
  recoveries : ∀ w, ∀ r' ∈ b'.recovery w, ∃ r ∈ b.recovery w,
    (r' = r ∨ r.revision < r'.revision) ∧ r'.operation = r.operation ∧
      (r'.state = .recoveryUnacknowledged → r.state = .recoveryUnacknowledged)

section advances
variable {b b' b'' : WithdrawalBooks} {w : String}

theorem Advances.refl (h : Consistent b) : Advances b b where
  consistent := h
  withdrawals _ := rfl
  records _ record h := ⟨record, h, .inl rfl, rfl, rfl⟩
  length := rfl
  recoveries _ r hr := ⟨r, hr, .inl rfl, rfl, id⟩

theorem Advances.trans (h : Advances b b') (h' : Advances b' b'') : Advances b b'' where
  consistent := h'.consistent
  withdrawals w := (h'.withdrawals w).trans (h.withdrawals w)
  records i third hthird := by
    obtain ⟨second, hsecond, hgrow', hoperation', hphase'⟩ := h'.records i third hthird
    obtain ⟨first, hfirst, hgrow, hoperation, hphase⟩ := h.records i second hsecond
    refine ⟨first, hfirst, ?_, hoperation'.trans hoperation, hphase'.trans hphase⟩
    obtain rfl | hlt' := hgrow'
    · exact hgrow
    · obtain rfl | hlt := hgrow
      · exact .inr hlt'
      · exact .inr (Nat.lt_trans hlt hlt')
  length := h'.length.trans h.length
  recoveries w third hthird := by
    obtain ⟨second, hsecond, hgrow', hoperation', hheld'⟩ := h'.recoveries w third hthird
    obtain ⟨first, hfirst, hgrow, hoperation, hheld⟩ := h.recoveries w second hsecond
    refine ⟨first, hfirst, ?_, hoperation'.trans hoperation, fun hs => hheld (hheld' hs)⟩
    obtain rfl | hlt' := hgrow'
    · exact hgrow
    · obtain rfl | hlt := hgrow
      · exact .inr hlt'
      · exact .inr (Nat.lt_trans hlt hlt')

theorem Advances.grows (h : Advances b b') : Grows b b' where
  records i record record' hr hr' := by
    obtain ⟨found, hfound, hgrow, -⟩ := h.records i record' hr'
    cases hr.symm.trans hfound
    exact hgrow
  recoveries w r hr r' hr' _ := by
    obtain ⟨found, hfound, hgrow, -⟩ := h.recoveries w r' hr'
    cases hr.symm.trans hfound
    exact hgrow

theorem Advances.dispose {i : Nat} {record : WithdrawalRecord} {r : RecoveryRecord}
    {state : RecoveryState} (h : Consistent b) (hr : b.recovery w = some r)
    (hheld : r.state = .recoveryUnacknowledged) (hw : b.retained w = some (i, record))
    (hnew : state = .acknowledged ∨ state = .expired) :
    Advances b ((b.setRecovery (r.dispose state)).setRecord i (record.dispose state)) where
  consistent := h.dispose hr hheld hw hnew
  withdrawals _ := rfl
  records j record' hrecord' := by
    have hset : (b.records.set i (record.dispose state))[j]? = some record' := hrecord'
    rw [List.getElem?_set] at hset
    split at hset
    next hij =>
      split at hset
      · cases hset
        exact ⟨record, hij ▸ (retained_eq_some.mp hw).2, .inr (Nat.lt_succ_self _), rfl, rfl⟩
      · cases hset
    next => exact ⟨record', hset, .inl rfl, rfl, rfl⟩
  length := by
    have hname : (r.dispose state).withdrawRequestId = w := ((h.paired w).recoveryNamed r hr).1
    have hmem : w ∈ b.recoveries.map Prod.fst := by
      rw [← Keyed.lookup_isSome_iff]
      exact Option.isSome_iff_exists.mpr ⟨r, hr⟩
    have hkeys := congrArg List.length (Keyed.keys_set b.recoveries w (r.dispose state))
    rw [if_pos hmem, List.length_map, List.length_map] at hkeys
    show (Keyed.set b.recoveries (r.dispose state).withdrawRequestId (r.dispose state)).length = _
    rw [hname, hkeys]
  recoveries w' r' hr' := by
    have hput : (b.setRecovery (r.dispose state)).recovery w' = some r' := hr'
    rw [recovery_setRecovery, show (r.dispose state).withdrawRequestId = w from
      ((h.paired w).recoveryNamed r hr).1] at hput
    split at hput
    next hsame =>
      cases hput
      exact ⟨r, hsame ▸ hr, .inr (Nat.lt_succ_self _), rfl, fun _ => hheld⟩
    next => exact ⟨r', hput, .inl rfl, rfl, id⟩

end advances

theorem deleteRecoverable_true (attachments : List (String × AttachmentOperation))
    (requestId : String) : ∃ later, deleteRecoverable true attachments requestId = some later := by
  unfold deleteRecoverable
  split
  · exact ⟨_, rfl⟩
  · split
    · exact ⟨_, rfl⟩
    · exact ⟨_, rfl⟩

/-- A held recovery has its withdrawal beside it. -/
theorem Consistent.retained_of_held {b : WithdrawalBooks} {w : String} {r : RecoveryRecord}
    (h : Consistent b) (hr : b.recovery w = some r) (hheld : r.state = .recoveryUnacknowledged) :
    ∃ i record, b.retained w = some (i, record) ∧ record.operation = r.operation ∧
      record.recoveryState = .recoveryUnacknowledged := by
  obtain ⟨record, hrecord, hoperation, hstate⟩ := (h.paired w).holds r hr hheld
  obtain ⟨i, hi⟩ := withdrawal_eq_some.mp hrecord
  exact ⟨i, record, hi, hoperation, hstate⟩

theorem sweepRecovery_advances {c : ControlChannel} (h : Consistent c.toWithdrawalBooks) (now : Nat)
    (w : String) : ∃ c', sweepRecovery now true c w = .ok c' ∧
      Advances c.toWithdrawalBooks c'.toWithdrawalBooks := by
  unfold sweepRecovery
  split
  next => exact ⟨c, rfl, .refl h⟩
  next r hr =>
    split
    next hexpired =>
      obtain ⟨i, record, hw, -, hstate⟩ := h.retained_of_held hr hexpired.1
      obtain ⟨later, hlater⟩ := deleteRecoverable_true c.attachments r.operation.operationId
      simp only [hlater]
      refine ⟨_, rfl, ?_⟩
      have hname : r.withdrawRequestId = w := ((h.paired w).recoveryNamed r hr).1
      have hretained : (c.setRecovery (r.dispose .expired)).retained r.withdrawRequestId =
          some (i, record) := by
        rw [hname]; exact hw
      show Advances c.toWithdrawalBooks
        ((c.setRecovery (r.dispose .expired)).expireWithdrawal r.withdrawRequestId)
      unfold WithdrawalBooks.expireWithdrawal
      simp only [hretained, hstate, if_true]
      exact .dispose h hr hexpired.1 hw (.inr rfl)
    next => exact ⟨c, rfl, .refl h⟩

theorem sweepRecoveries_advances {c : ControlChannel} (h : Consistent c.toWithdrawalBooks)
    (now : Nat) : ∃ c', sweepRecoveries now true c = .ok c' ∧
      Advances c.toWithdrawalBooks c'.toWithdrawalBooks := by
  unfold sweepRecoveries
  generalize c.recoveries.map Prod.fst = keys
  induction keys generalizing c with
  | nil => exact ⟨c, rfl, .refl h⟩
  | cons w keys ih =>
    obtain ⟨c', hc', hadvances⟩ := sweepRecovery_advances h now w
    obtain ⟨c'', hc'', hrest⟩ := ih hadvances.consistent
    refine ⟨c'', ?_, hadvances.trans hrest⟩
    rw [List.foldlM_cons, hc']
    exact hc''

/-! ## The invariant -/

/-- What ties the ledgers to each other and to the substrate. -/
structure Invariant (s : ControlSystem) : Prop where
  books : Consistent s.channel.toWithdrawalBooks
  room : s.channel.recoveries.length ≤ maxRecoveriesPerChannel
  granted : ∀ w, ∀ r ∈ s.channel.recovery w, r.operation ∈ s.substrate.granted ∧
    ∀ ticket result, s.holder = some (.asking ticket result) → ticket.identity ≠ r.operation
  reading : ∀ ticket, s.holder = some (.reading ticket) →
    s.channel.withdrawals.lookup ticket.withdrawRequestId = none
  asking : ∀ ticket result, s.holder = some (.asking ticket result) →
    s.channel.withdrawals.lookup ticket.withdrawRequestId = none ∧
      ∀ r ∈ result, r.outcome = .withdrawn → ticket.identity ∈ s.substrate.granted
  reasking : ∀ authorization i (result : WithdrawalResult),
    s.holder = some (.reasking authorization i (some result)) → result.outcome = .withdrawn →
      ∀ record ∈ s.channel.records[i]?, record.operation ∈ s.substrate.granted

/-- Nothing in flight can build the recovery of a key any more. -/
structure Spent (s : ControlSystem) (k : RecoveryKey) : Prop where
  granted : k.operation ∈ s.substrate.granted
  asking : ∀ ticket result, s.holder = some (.asking ticket result) →
    ticket.identity ≠ k.operation
  settled : ∀ record ∈ s.channel.withdrawal k.withdrawRequestId, record.operation = k.operation →
    record.phase ≠ .unknown

/-- What every clean step does. -/
structure StepSpec (s s' : ControlSystem) : Prop where
  invariant : Invariant s'
  grows : Grows s.channel.toWithdrawalBooks s'.channel.toWithdrawalBooks
  spent : ∀ k, Spent s k → Spent s' k
  gone : ∀ k, Spent s k → ¬Held s k → ¬Held s' k
  quiet : ∀ k, Spent s k → ¬Held s' k → ∀ answer ∈ s'.answered, ¬answer.Carries k

section spec
variable {s s' : ControlSystem}

/-- A key that has a recovery is spent. -/
theorem Invariant.spent (h : Invariant s) {k : RecoveryKey} {r : RecoveryRecord}
    (hr : r ∈ s.channel.recovery k.withdrawRequestId) (hoperation : r.operation = k.operation) :
    Spent s k where
  granted := hoperation ▸ (h.granted _ r hr).1
  asking ticket result hholder := hoperation ▸ (h.granted _ r hr).2 ticket result hholder
  settled record hrecord hsame :=
    ((h.books.paired _).agrees record hrecord r hr (hsame.trans hoperation.symm)).1

theorem Advances.withdrawal {b b' : WithdrawalBooks} (h : Advances b b') {w : String}
    {record' : WithdrawalRecord} (hr : record' ∈ b'.withdrawal w) :
    ∃ record ∈ b.withdrawal w, record'.operation = record.operation ∧
      record'.phase = record.phase := by
  obtain ⟨i, hi⟩ := withdrawal_eq_some.mp hr
  obtain ⟨hlookup, hplace⟩ := retained_eq_some.mp hi
  obtain ⟨record, hrecord, -, hoperation, hphase⟩ := h.records i record' hplace
  rw [h.withdrawals] at hlookup
  exact ⟨record, withdrawal_eq_some.mpr ⟨i, retained_eq_some.mpr ⟨hlookup, hrecord⟩⟩, hoperation,
    hphase⟩

/-- Steps that build nothing: the books go on, and the lock stays where it is. -/
theorem stepSpec_of_advances (h : Invariant s)
    (hadvances : Advances s.channel.toWithdrawalBooks s'.channel.toWithdrawalBooks)
    (hholder : s'.holder = s.holder) (hsubstrate : s'.substrate = s.substrate)
    (hquiet : ∀ k, ¬Held s' k → ∀ answer ∈ s'.answered, ¬answer.Carries k) : StepSpec s s' where
  invariant :=
    { books := hadvances.consistent
      room := hadvances.length ▸ h.room
      granted := by
        intro w r' hr'
        obtain ⟨r, hr, -, hoperation, -⟩ := hadvances.recoveries w r' hr'
        rw [hoperation, hsubstrate, hholder]
        exact h.granted w r hr
      reading := by
        intro ticket hreading
        rw [hadvances.withdrawals]
        exact h.reading ticket (hholder ▸ hreading)
      asking := by
        intro ticket result hasking
        rw [hadvances.withdrawals, hsubstrate]
        exact h.asking ticket result (hholder ▸ hasking)
      reasking := by
        intro authorization i result hreasking houtcome record' hrecord'
        obtain ⟨record, hrecord, -, hoperation, -⟩ := hadvances.records i record' hrecord'
        rw [hoperation, hsubstrate]
        exact h.reasking authorization i result (hholder ▸ hreasking) houtcome record hrecord }
  grows := hadvances.grows
  spent k hspent :=
    { granted := hsubstrate ▸ hspent.granted
      asking := by rw [hholder]; exact hspent.asking
      settled := by
        intro record' hrecord' hsame
        obtain ⟨record, hrecord, hoperation, hphase⟩ := hadvances.withdrawal hrecord'
        rw [hphase]
        exact hspent.settled record hrecord (hoperation.symm.trans hsame) }
  gone k _ hgone hheld := by
    obtain ⟨r', hr', hsame, hstate⟩ := hheld
    obtain ⟨r, hr, -, hoperation, hkeeps⟩ := hadvances.recoveries _ r' hr'
    exact hgone ⟨r, hr, hoperation.symm.trans hsame, hkeeps hstate⟩
  quiet k _ := hquiet k

end spec

/-! ## Calls -/

section calls
variable {authority : ControlAuthority} {s : ControlSystem} {c : ControlChannel}
  {authorization : AuthorizationBinding} {k : RecoveryKey}

theorem carries_raised {message : String} : ¬(Answer.raised message).Carries k := by
  intro h
  obtain ⟨recovery, hrecovery, -⟩ := h
  cases hrecovery

theorem carries_projection {record : WithdrawalRecord} :
    ¬(withdrawalProjection record).Carries k := by
  intro h
  obtain ⟨recovery, hrecovery, -⟩ := h
  unfold withdrawalProjection at hrecovery
  split at hrecovery
  · cases hrecovery
  · split at hrecovery
    · cases hrecovery
    · split at hrecovery <;> cases hrecovery

/-- A replay carries a recovery only while the channel holds it. -/
theorem held_of_replay {b : WithdrawalBooks} {w : String} {record : WithdrawalRecord}
    (h : Consistent b) (hrecord : b.withdrawal w = some record)
    (hcarries : (Answer.response (replayResponse record)).Carries k) :
    ∃ r ∈ b.recovery k.withdrawRequestId, r.operation = k.operation ∧
      r.state = .recoveryUnacknowledged := by
  obtain ⟨i, hi⟩ := withdrawal_eq_some.mp hrecord
  have hsound := h.sound_of_retained hi
  have hname := (h.paired w).named record hrecord
  obtain ⟨recovery, hrecovery, htarget, hcontent⟩ := hcarries
  unfold replayResponse at hrecovery
  split at hrecovery
  · cases hrecovery
  next response hresponse =>
    obtain ⟨-, -, hempty, -, hnames⟩ := hsound.withdrawn response hresponse
    split at hrecovery
    · cases hrecovery
      obtain htext | hattachments := hcontent
      · exact absurd rfl htext
      · exact absurd rfl hattachments
    next hstate =>
      cases hrecovery
      rw [hnames] at htarget
      injection htarget with hoperation hrequest _
      have hheld : record.recoveryState = .recoveryUnacknowledged := by
        cases hr : record.recoveryState with
        | none =>
          obtain ⟨htext, hattachments⟩ := hempty hr
          obtain hne | hne := hcontent
          · exact absurd htext hne
          · exact absurd hattachments hne
        | recoveryUnacknowledged => rfl
        | acknowledged => exact absurd (.inl hr) hstate
        | expired => exact absurd (.inr hr) hstate
      obtain ⟨r, hr, hsame, hrstate⟩ := (h.paired w).owns record hrecord hheld
      rw [← Option.some.inj hrequest, hname]
      exact ⟨r, hr, hsame.trans hoperation, hrstate⟩

theorem held_of_fetch (h : Consistent c.toWithdrawalBooks) {recoveryRef : Token}
    (hcarries : (fetchRecovery authority c authorization recoveryRef).Carries k) :
    ∃ r ∈ c.recovery k.withdrawRequestId, r.operation = k.operation ∧
      r.state = .recoveryUnacknowledged := by
  unfold fetchRecovery at hcarries
  split at hcarries
  · exact (carries_raised hcarries).elim
  split at hcarries
  · exact (carries_raised hcarries).elim
  next r hfound =>
    split at hcarries
    next text hstate htext =>
      obtain ⟨recovery, hrecovery, htarget, -⟩ := hcarries
      cases hrecovery
      obtain ⟨e, he, rfl⟩ := List.mem_map.mp (List.mem_of_find?_eq_some hfound)
      have hlookup : c.recovery e.1 = some e.2 := Keyed.lookup_of_mem h.recoveryKeys he
      obtain ⟨-, hnames⟩ := (h.paired e.1).recoveryNamed e.2 hlookup
      rw [hnames] at htarget
      injection htarget with hoperation hrequest _
      exact ⟨e.2, Option.some.inj hrequest ▸ hlookup, hoperation, hstate⟩
    · exact (carries_raised hcarries).elim

theorem advances_touch {b : WithdrawalBooks} (h : Consistent b) (w : String) :
    Advances b { b with withdrawals := Keyed.moveToEnd b.withdrawals w } where
  consistent :=
    { keys := Keyed.nodup_keys_moveToEnd h.keys w
      places := fun w' i hi => h.places w' i ((Keyed.lookup_moveToEnd b.withdrawals w w') ▸ hi)
      recoveryKeys := h.recoveryKeys
      sound := h.sound
      paired := by
        intro w'
        have hsame : ({ b with withdrawals := Keyed.moveToEnd b.withdrawals w } :
            WithdrawalBooks).withdrawal w' = b.withdrawal w' := by
          unfold WithdrawalBooks.withdrawal WithdrawalBooks.retained
          simp only [Keyed.lookup_moveToEnd]
        rw [hsame]
        exact h.paired w' }
  withdrawals w' := Keyed.lookup_moveToEnd b.withdrawals w w'
  records _ record hr := ⟨record, hr, .inl rfl, rfl, rfl⟩
  length := rfl
  recoveries _ r hr := ⟨r, hr, .inl rfl, rfl, id⟩

/-- An acknowledgement raises and changes nothing, or disposes of both records. -/
theorem acknowledgeRecovery_cases (authority : ControlAuthority)
    (authorization : AuthorizationBinding) (h : Consistent c.toWithdrawalBooks)
    (recoveryRef : Token) (disposition : Disposition) :
    (∃ message, acknowledgeRecovery authority true c authorization recoveryRef disposition =
      (.raised message, c)) ∨
    ∃ c' record projection,
      acknowledgeRecovery authority true c authorization recoveryRef disposition =
        (withdrawalProjection record, c') ∧
      withdrawalProjection record = .projection projection ∧
      Advances c.toWithdrawalBooks c'.toWithdrawalBooks := by
  unfold acknowledgeRecovery
  split
  · exact .inl ⟨_, rfl⟩
  split
  · exact .inl ⟨_, rfl⟩
  next r hfound =>
    split
    · exact .inl ⟨_, rfl⟩
    next hheld =>
      rw [not_not] at hheld
      obtain ⟨e, he, rfl⟩ := List.mem_map.mp (List.mem_of_find?_eq_some hfound)
      have hlookup : c.recovery e.1 = some e.2 := Keyed.lookup_of_mem h.recoveryKeys he
      have hname := ((h.paired e.1).recoveryNamed e.2 hlookup).1
      obtain ⟨i, record, hw, -, hstate⟩ := h.retained_of_held hlookup hheld
      have hretained : (c.setRecovery (e.2.dispose .acknowledged)).retained
          e.2.withdrawRequestId = some (i, record) := by
        rw [hname]; exact hw
      have hadvances := Advances.dispose h hlookup hheld hw (.inl rfl : RecoveryState.acknowledged =
        .acknowledged ∨ RecoveryState.acknowledged = .expired)
      have hsound := (h.sound_of_retained hw).dispose hstate
        (show RecoveryState.acknowledged ≠ .none by decide)
      obtain ⟨projection, hprojection⟩ : ∃ projection,
          withdrawalProjection (record.dispose .acknowledged) = .projection projection := by
        cases hresponse : record.response with
        | failed response =>
          have hnone := (hsound.failed response hresponse).2
          cases hnone
        | withdrawn response =>
          obtain ⟨houtcome, hphase, -⟩ := hsound.withdrawn response hresponse
          unfold withdrawalProjection
          rw [houtcome, hphase]
          simp [WithdrawalRecord.dispose, allowedProducts]
      simp only [hretained]
      obtain ⟨later, hlater⟩ := deleteRecoverable_true c.attachments record.operation.operationId
      right
      split
      · simp only [hlater]
        exact ⟨_, _, projection, rfl, hprojection, hadvances⟩
      · exact ⟨_, _, projection, rfl, hprojection, hadvances⟩

theorem beginWithdraw_spec (h : Invariant s)
    (hadvances : Advances s.channel.toWithdrawalBooks c.toWithdrawalBooks)
    (identity : OperationIdentity) (operationRef : ControlRef) (w : String) :
    StepSpec s (beginWithdraw authority s c authorization identity operationRef w) := by
  unfold beginWithdraw
  dsimp only
  split
  next => exact stepSpec_of_advances h hadvances rfl rfl fun k _ answer ha => nomatch ha
  next i record hretained =>
    split
    · refine stepSpec_of_advances h hadvances rfl rfl fun k _ answer ha => ?_
      cases ha
      exact carries_raised
    · have htouched := hadvances.trans (advances_touch hadvances.consistent w)
      refine stepSpec_of_advances h htouched rfl rfl fun k hgone answer ha hcarries => ?_
      cases ha
      have hheld := held_of_replay hadvances.consistent
        (withdrawal_eq_some.mpr ⟨i, hretained⟩) hcarries
      exact hgone hheld

theorem beginStatus_spec (h : Invariant s)
    (hadvances : Advances s.channel.toWithdrawalBooks c.toWithdrawalBooks) (operationRef : Token)
    (w : String) (reconcile : Bool) :
    StepSpec s (beginStatus authority s c authorization operationRef w reconcile) := by
  have htouched := hadvances.trans (advances_touch hadvances.consistent w)
  have hraised : ∀ message, StepSpec s (s.answer c (.raised message)) := by
    intro message
    refine stepSpec_of_advances h hadvances rfl rfl fun k _ answer ha => ?_
    cases ha
    exact carries_raised
  unfold beginStatus
  split
  next => exact hraised _
  next i record hretained =>
    split
    next => exact hraised _
    next target htarget =>
      split
      next => exact hraised _
      next =>
        split
        next => exact stepSpec_of_advances h htouched rfl rfl fun k _ answer ha => nomatch ha
        next =>
          refine stepSpec_of_advances h htouched rfl rfl fun k _ answer ha => ?_
          cases ha
          exact carries_projection

theorem call_spec (h : Invariant s) (now : Nat) (call : Call) :
    StepSpec s (s.call authority authorization now true call) := by
  obtain ⟨c, hc, hadvances⟩ := sweepRecoveries_advances h.books now
  cases call with
  | withdraw operationRef withdrawalRef w =>
    simp only [ControlSystem.call, hc]
    split
    next =>
      refine stepSpec_of_advances h (.refl h.books) rfl rfl fun k _ answer ha => ?_
      cases ha
      exact carries_raised
    next => exact beginWithdraw_spec h hadvances _ _ w
  | status operationRef w reconcile =>
    simp only [ControlSystem.call, hc]
    exact beginStatus_spec h hadvances operationRef w reconcile
  | pending =>
    simp only [ControlSystem.call, hc]
    have hbooks : (pendingRecoveries authority c authorization).2.toWithdrawalBooks =
        c.toWithdrawalBooks := by
      unfold pendingRecoveries
      dsimp only
      split <;> rfl
    refine stepSpec_of_advances h (hbooks ▸ hadvances) rfl rfl fun k _ answer ha => ?_
    cases ha
    intro hcarries
    obtain ⟨recovery, hrecovery, -⟩ := hcarries
    cases hrecovery
  | fetch recoveryRef =>
    simp only [ControlSystem.call, hc]
    refine stepSpec_of_advances h hadvances rfl rfl fun k hgone answer ha hcarries => ?_
    cases ha
    exact hgone (held_of_fetch hadvances.consistent hcarries)
  | acknowledge recoveryRef disposition =>
    simp only [ControlSystem.call, hc]
    obtain ⟨message, hraised⟩ | ⟨c', record, -, hanswer, -, hrest⟩ :=
      acknowledgeRecovery_cases authority authorization hadvances.consistent recoveryRef disposition
    · simp only [hraised]
      refine stepSpec_of_advances h hadvances rfl rfl fun k _ answer ha => ?_
      cases ha
      exact carries_raised
    · simp only [hanswer]
      refine stepSpec_of_advances h (hadvances.trans hrest) rfl rfl fun k _ answer ha => ?_
      cases ha
      exact carries_projection

end calls

end AgentsRemember.Control
