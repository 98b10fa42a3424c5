import AgentsRemember.Control.Disposal

/-!
# Control — Landing

What the steps around the session lock do to the ledgers: a call takes it, the
substrate settles its request, and what comes back is stored, as a new record
or as the one that is driven again.
-/

namespace AgentsRemember.Control

open Submission WithdrawalBooks

/-! ## The lock -/

section lock
variable {authority : ControlAuthority} {s s' : ControlSystem} {k : RecoveryKey}

/-- Steps that leave the books alone: the lock moves, or the substrate does. -/
theorem stepSpec_of_books (h : Invariant s)
    (hbooks : s'.channel.toWithdrawalBooks = s.channel.toWithdrawalBooks)
    (hextends : s.substrate.Extends s'.substrate)
    (hreading : ∀ ticket, s'.holder = some (.reading ticket) →
      s.channel.withdrawals.lookup ticket.withdrawRequestId = none)
    (hasking : ∀ ticket result, s'.holder = some (.asking ticket result) →
      s.channel.withdrawals.lookup ticket.withdrawRequestId = none ∧
        (∀ r ∈ result, r.outcome = .withdrawn → ticket.identity ∈ s'.substrate.granted) ∧
        ((∃ earlier, s.holder = some (.asking ticket earlier)) ∨
          ticket.identity ∉ s.substrate.granted))
    (hreasking : ∀ authorization i (result : WithdrawalResult),
      s'.holder = some (.reasking authorization i (some result)) → result.outcome = .withdrawn →
        ∀ record ∈ s.channel.records[i]?, record.operation ∈ s'.substrate.granted)
    (hquiet : ∀ k, ¬Held s' k → ∀ answer ∈ s'.answered, ¬answer.Carries k) : StepSpec s s' := by
  have hother : ∀ operation ∈ s.substrate.granted,
      (∀ ticket result, s.holder = some (.asking ticket result) → ticket.identity ≠ operation) →
      ∀ ticket result, s'.holder = some (.asking ticket result) → ticket.identity ≠ operation := by
    intro operation hoperation hbefore ticket result hholder
    obtain ⟨-, -, ⟨earlier, hearlier⟩ | hnot⟩ := hasking ticket result hholder
    · exact hbefore ticket earlier hearlier
    · rintro rfl
      exact hnot hoperation
  constructor
  · constructor
    · rw [hbooks]; exact h.books
    · rw [hbooks]; exact h.room
    · rw [hbooks]
      intro w r hr
      obtain ⟨hgranted, hholder⟩ := h.granted w r hr
      exact ⟨hextends _ hgranted, hother _ hgranted hholder⟩
    · rw [hbooks]; exact hreading
    · rw [hbooks]
      intro ticket result hholder
      obtain ⟨hnone, hresult, -⟩ := hasking ticket result hholder
      exact ⟨hnone, hresult⟩
    · rw [hbooks]; exact hreasking
  · rw [hbooks]
    exact ⟨fun i record record' hr hr' => .inl (Option.some.inj (hr'.symm.trans hr)),
      fun w r hr r' hr' _ => .inl (Option.some.inj (hr'.symm.trans hr))⟩
  · intro k hspent
    refine ⟨hextends _ hspent.granted, hother _ hspent.granted hspent.asking, ?_⟩
    rw [hbooks]
    exact hspent.settled
  · intro k _ hgone hheld
    unfold Held at hheld
    rw [hbooks] at hheld
    exact hgone hheld
  · exact fun k _ => hquiet k

/-- The lock is let go, or no one takes it. -/
theorem stepSpec_of_free (h : Invariant s)
    (hbooks : s'.channel.toWithdrawalBooks = s.channel.toWithdrawalBooks)
    (hextends : s.substrate.Extends s'.substrate)
    (hholder : s'.holder = none)
    (hquiet : ∀ k, ¬Held s' k → ∀ answer ∈ s'.answered, ¬answer.Carries k) : StepSpec s s' := by
  refine stepSpec_of_books h hbooks hextends ?_ ?_ ?_ hquiet
  · rw [hholder]; intro _ hnone; cases hnone
  · rw [hholder]; intro _ _ hnone; cases hnone
  · rw [hholder]; intro _ _ _ hnone; cases hnone

/-- The lock stays with its holder. -/
theorem stepSpec_of_kept (h : Invariant s)
    (hbooks : s'.channel.toWithdrawalBooks = s.channel.toWithdrawalBooks)
    (hextends : s.substrate.Extends s'.substrate) (hholder : s'.holder = s.holder)
    (hanswered : s'.answered = none) : StepSpec s s' := by
  refine stepSpec_of_books h hbooks hextends ?_ ?_ ?_ ?_
  · rw [hholder]; exact h.reading
  · rw [hholder]
    intro ticket result hasking
    obtain ⟨hnone, hresult⟩ := h.asking ticket result hasking
    exact ⟨hnone, fun r hr ho => hextends _ (hresult r hr ho), .inl ⟨result, hasking⟩⟩
  · rw [hholder]
    intro authorization i result hreasking houtcome record hrecord
    exact hextends _ (h.reasking authorization i result hreasking houtcome record hrecord)
  · rw [hanswered]; intro _ _ _ ha; cases ha

theorem Substrate.extends_refl (substrate : Substrate) : substrate.Extends substrate :=
  fun _ h => h

theorem hold_spec (h : Invariant s) (hfree : s.holder = none) (i : Nat) (waiting : Waiting) :
    StepSpec s ({ s with waiting := s.waiting.eraseIdx i }.hold waiting) := by
  cases waiting with
  | withdraw ticket =>
    simp only [ControlSystem.hold]
    split
    next j record hretained =>
      refine stepSpec_of_free h rfl s.substrate.extends_refl hfree fun k hgone answer ha => ?_
      cases ha
      unfold replayRetained
      split
      · exact carries_raised
      · intro hcarries
        have hheld := held_of_replay h.books (withdrawal_eq_some.mpr ⟨j, hretained⟩) hcarries
        exact hgone hheld
    next hnone =>
      refine stepSpec_of_books h rfl s.substrate.extends_refl ?_ ?_ ?_ ?_
      · intro other hother
        cases hother
        rw [← h.books.withdrawal_none]
        simpa [WithdrawalBooks.withdrawal] using hnone
      · intro other result hother; cases hother
      · intro authorization i result hother; cases hother
      · intro k _ answer ha; cases ha
  | reconcile authorization record =>
    refine stepSpec_of_books h rfl s.substrate.extends_refl ?_ ?_ ?_ ?_
    · intro other hother; cases hother
    · intro other result hother; cases hother
    · intro authorization i result hother; cases hother
    · intro k _ answer ha; cases ha

theorem settle_spec (h : Invariant s) {holder : Holder} {identity : OperationIdentity}
    {result : WithdrawalResult} {substrate : Substrate} (hholder : s.holder = some holder)
    (hasked : holder.asked s.channel = some identity) (hextends : s.substrate.Extends substrate)
    (hgranted : result.outcome = .withdrawn → identity ∈ substrate.granted) :
    StepSpec s { s with
      substrate := substrate, holder := some (holder.answeredBy result), answered := none } := by
  refine stepSpec_of_books h rfl hextends ?_ ?_ ?_ fun k _ answer ha => nomatch ha
  · intro ticket hreading
    cases holder with
    | reading other => cases hasked
    | asking other earlier => cases hreading
    | reasking authorization i earlier => cases hreading
  · intro ticket later hasking
    cases holder with
    | reading other => cases hasked
    | asking other earlier =>
      cases hasking
      cases hasked
      exact ⟨(h.asking ticket earlier hholder).1, fun r hr => by cases hr; exact hgranted,
        .inl ⟨earlier, hholder⟩⟩
    | reasking authorization i earlier => cases hasking
  · intro authorization i later hreasking houtcome record hrecord
    cases holder with
    | reading other => cases hasked
    | asking other earlier => cases hreasking
    | reasking other j earlier =>
      cases hreasking
      simp only [Holder.asked, Option.map_eq_some_iff] at hasked
      obtain ⟨found, hfound, rfl⟩ := hasked
      cases hfound.symm.trans hrecord
      exact hgranted houtcome

end lock

/-! ## A result lands -/

/-- What is stored of a result: its record, and the recoveries with it. -/
structure Stores (s : ControlSystem) (record : WithdrawalRecord)
    (recoveries : List (String × RecoveryRecord)) : Prop where
  sound : Sound record
  keys : (recoveries.map Prod.fst).Nodup
  other : ∀ w, w ≠ record.withdrawRequestId → recoveries.lookup w = s.channel.recovery w
  /-- Under its own request id, a recovery is the new one or an older operation's. -/
  own : ∀ r ∈ recoveries.lookup record.withdrawRequestId,
    r ∈ s.channel.recovery record.withdrawRequestId ∧
      (r.operation = record.operation → record.phase ≠ .unknown ∧ record.outcome ≠ .withdrawn) ∨
    r.withdrawRequestId = record.withdrawRequestId ∧
      r.recoveryRef.target = ⟨record.operation, some record.withdrawRequestId, none⟩ ∧
      r.operation = record.operation ∧ r.state = .recoveryUnacknowledged ∧
      record.recoveryState = .recoveryUnacknowledged ∧ record.phase ≠ .unknown ∧
      record.operation ∈ s.substrate.granted
  owns : record.recoveryState = .recoveryUnacknowledged →
    ∃ r ∈ recoveries.lookup record.withdrawRequestId,
      r.operation = record.operation ∧ r.state = .recoveryUnacknowledged
  spent : ∀ k, Spent s k → k.operation = record.operation →
    k.withdrawRequestId = record.withdrawRequestId →
      record.phase ≠ .unknown ∧ record.outcome ≠ .withdrawn

section stores
variable {s s' : ControlSystem} {record : WithdrawalRecord}
  {recoveries : List (String × RecoveryRecord)}

theorem Stores.paired (hs : Stores s record recoveries) (h : Invariant s)
    (hheld : ∀ r ∈ s.channel.recovery record.withdrawRequestId,
      r.state = .recoveryUnacknowledged → False) :
    Paired record.withdrawRequestId (some record)
      (recoveries.lookup record.withdrawRequestId) where
  named other ho := by cases ho; rfl
  recoveryNamed r hr := by
    obtain ⟨hold, -⟩ | ⟨hname, htarget, hoperation, -⟩ := hs.own r hr
    · exact (h.books.paired _).recoveryNamed r hold
    · exact ⟨hname, hoperation ▸ htarget⟩
  agrees other ho r hr hoperation := by
    cases ho
    obtain ⟨-, hsame⟩ | ⟨-, -, -, hstate, hrecord, hphase, -⟩ := hs.own r hr
    · obtain ⟨hphase, houtcome⟩ := hsame hoperation.symm
      exact ⟨hphase, fun hw => absurd hw houtcome⟩
    · exact ⟨hphase, fun _ => hrecord.trans hstate.symm⟩
  holds r hr hstate := by
    obtain ⟨hold, -⟩ | ⟨-, -, hoperation, -, hrecord, -⟩ := hs.own r hr
    · exact (hheld r hold hstate).elim
    · exact ⟨record, rfl, hoperation.symm, hrecord⟩
  owns other ho hstate := by
    cases ho
    exact hs.owns hstate

/-- A spent key finds no recovery that it did not find before. -/
theorem Stores.recovery_of_spent (hs : Stores s record recoveries) {k : RecoveryKey}
    (hspent : Spent s k) {r : RecoveryRecord}
    (hr : r ∈ recoveries.lookup k.withdrawRequestId) (hoperation : r.operation = k.operation) :
    r ∈ s.channel.recovery k.withdrawRequestId := by
  by_cases hw : k.withdrawRequestId = record.withdrawRequestId
  · rw [hw] at hr ⊢
    obtain ⟨hold, -⟩ | ⟨-, -, hsame, -, hrecord, -⟩ := hs.own r hr
    · exact hold
    · exfalso
      obtain ⟨-, hfailed⟩ := hs.spent k hspent (hoperation.symm.trans hsame) hw
      cases hresponse : record.response with
      | failed response =>
        have := (hs.sound.failed response hresponse).2
        rw [hrecord] at this
        cases this
      | withdrawn response => exact hfailed (hs.sound.withdrawn response hresponse).1
  · rwa [hs.other _ hw] at hr

theorem Stores.recovery_granted (hs : Stores s record recoveries) (h : Invariant s) {w : String}
    {r : RecoveryRecord} (hr : r ∈ recoveries.lookup w) : r.operation ∈ s.substrate.granted := by
  by_cases hw : w = record.withdrawRequestId
  · rw [hw] at hr
    obtain ⟨hold, -⟩ | ⟨-, -, hsame, -, -, -, hgranted⟩ := hs.own r hr
    · exact (h.granted _ r hold).1
    · rw [hsame]; exact hgranted
  · rw [hs.other w hw] at hr
    exact (h.granted w r hr).1

/-- The response of a stored record carries no spent recovery. -/
theorem Stores.quiet (hs : Stores s record recoveries) {k : RecoveryKey} (hspent : Spent s k) :
    ¬(Answer.response record.response).Carries k := by
  intro hcarries
  obtain ⟨recovery, hrecovery, htarget, -⟩ := hcarries
  cases hresponse : record.response with
  | failed response => rw [hresponse] at hrecovery; cases hrecovery
  | withdrawn response =>
    rw [hresponse] at hrecovery
    cases hrecovery
    obtain ⟨houtcome, -, -, -, hnames⟩ := hs.sound.withdrawn response hresponse
    rw [hnames] at htarget
    injection htarget with hoperation hrequest _
    exact (hs.spent k hspent hoperation.symm (Option.some.inj hrequest).symm).2 houtcome

/-- What the new recoveries share with the old ones has not gone back. -/
theorem Stores.grows (hs : Stores s record recoveries) (h : Invariant s) {w : String}
    {r r' : RecoveryRecord} (hr : r ∈ s.channel.recovery w) (hr' : r' ∈ recoveries.lookup w)
    (hoperation : r'.operation = r.operation) : r' = r := by
  have hspent := h.spent (k := ⟨w, r.operation⟩) hr rfl
  have hfound := hs.recovery_of_spent hspent hr' hoperation
  exact Option.some.inj (hfound.symm.trans hr)

/-- Without its withdrawal, no recovery is held. -/
theorem Invariant.not_held (h : Invariant s) {w : String}
    (hnone : s.channel.withdrawals.lookup w = none) :
    ∀ r ∈ s.channel.recovery w, r.state = .recoveryUnacknowledged → False := by
  intro r hr hstate
  obtain ⟨other, hother, -⟩ := (h.books.paired w).holds r hr hstate
  rw [h.books.withdrawal_none.mpr hnone] at hother
  cases hother

theorem Invariant.not_held_of_unknown (h : Invariant s) {w : String} {before : WithdrawalRecord}
    (hbefore : s.channel.withdrawal w = some before) (hunknown : before.phase = .unknown) :
    ∀ r ∈ s.channel.recovery w, r.state = .recoveryUnacknowledged → False := by
  intro r hr hstate
  obtain ⟨other, hother, hsame, -⟩ := (h.books.paired w).holds r hr hstate
  cases hbefore.symm.trans hother
  exact ((h.books.paired w).agrees before hbefore r hr hsame).1 hunknown

theorem Stores.entered (hs : Stores s record recoveries) (h : Invariant s)
    (hnone : s.channel.withdrawals.lookup record.withdrawRequestId = none) :
    Consistent (s.channel.toWithdrawalBooks.enter record recoveries) :=
  h.books.enter hs.sound hs.keys hs.other (hs.paired h (h.not_held hnone))

/-- A withdrawal is stored, and the lock is let go. -/
theorem stepSpec_of_entered (h : Invariant s) (hs : Stores s record recoveries)
    (hnone : s.channel.withdrawals.lookup record.withdrawRequestId = none)
    (hgo : LetsGo (s.channel.toWithdrawalBooks.enter record recoveries)
      s'.channel.toWithdrawalBooks)
    (hroom : s'.channel.recoveries.length ≤ maxRecoveriesPerChannel)
    (hholder : s'.holder = none) (hsubstrate : s'.substrate = s.substrate)
    (hanswered : s'.answered = some (.response record.response)) : StepSpec s s' := by
  have hentered := hs.entered h hnone
  constructor
  · constructor
    · exact hentered.letsGo hgo
    · exact hroom
    · intro w r hr
      rw [hsubstrate, hholder]
      exact ⟨hs.recovery_granted h (hgo.recovery_mem hr), fun _ _ ha => nomatch ha⟩
    · rw [hholder]; intro _ ha; cases ha
    · rw [hholder]; intro _ _ ha; cases ha
    · rw [hholder]; intro _ _ _ ha; cases ha
  · constructor
    · intro i before after hbefore hafter
      rw [hgo.records] at hafter
      have hi := (List.getElem?_eq_some_iff.mp hbefore).1
      have hlast : (s.channel.records ++ [record])[i]? = some after := hafter
      rw [List.getElem?_append_left hi] at hlast
      exact .inl (Option.some.inj (hlast.symm.trans hbefore))
    · intro w r hr r' hr' hoperation
      exact .inl (hs.grows h hr (hgo.recovery_mem hr') hoperation)
  · intro k hspent
    refine ⟨hsubstrate ▸ hspent.granted, (by rw [hholder]; intro _ _ ha; cases ha), ?_⟩
    intro other hother hoperation
    have hmem := hgo.withdrawal_mem hother
    have hput : (s.channel.toWithdrawalBooks.enter record recoveries).withdrawal
        k.withdrawRequestId = if record.withdrawRequestId = k.withdrawRequestId then some record
          else s.channel.withdrawal k.withdrawRequestId :=
      withdrawal_enter h.books k.withdrawRequestId
    rw [hput] at hmem
    split at hmem
    next hsame =>
      cases hmem
      exact (hs.spent k hspent hoperation.symm hsame.symm).1
    next => exact hspent.settled other hmem hoperation
  · intro k hspent hgone hheld'
    obtain ⟨r, hr, hoperation, hstate⟩ := hheld'
    exact hgone ⟨r, hs.recovery_of_spent hspent (hgo.recovery_mem hr) hoperation, hoperation, hstate⟩
  · intro k hspent _ answer ha
    rw [hanswered] at ha
    cases ha
    exact hs.quiet hspent

theorem Stores.redrives (hs : Stores s record recoveries) (h : Invariant s) {i : Nat}
    {before : WithdrawalRecord}
    (hretained : s.channel.retained record.withdrawRequestId = some (i, before))
    (hunknown : before.phase = .unknown) :
    Consistent ({ s.channel.toWithdrawalBooks with recoveries := recoveries }.setRecord i record) :=
  h.books.redrive (retained_eq_some.mp hretained).1 hs.sound hs.keys hs.other
    (hs.paired h (h.not_held_of_unknown (withdrawal_eq_some.mpr ⟨i, hretained⟩) hunknown))

/-- A retained withdrawal is driven again, and the lock is let go. -/
theorem stepSpec_of_redriven {i : Nat} {before : WithdrawalRecord} (h : Invariant s)
    (hs : Stores s record recoveries)
    (hretained : s.channel.retained record.withdrawRequestId = some (i, before))
    (hunknown : before.phase = .unknown) (hgrows : before.revision < record.revision)
    (hgo : LetsGo ({ s.channel.toWithdrawalBooks with recoveries := recoveries }.setRecord i record)
      s'.channel.toWithdrawalBooks)
    (hroom : s'.channel.recoveries.length ≤ maxRecoveriesPerChannel)
    (hholder : s'.holder = none) (hsubstrate : s'.substrate = s.substrate)
    (hquiet : ∀ answer ∈ s'.answered, ∀ k, ¬answer.Carries k) : StepSpec s s' := by
  obtain ⟨hlookup, hplace⟩ := retained_eq_some.mp hretained
  have hredriven := hs.redrives h hretained hunknown
  constructor
  · constructor
    · exact hredriven.letsGo hgo
    · exact hroom
    · intro w r hr
      rw [hsubstrate, hholder]
      exact ⟨hs.recovery_granted h (hgo.recovery_mem hr), fun _ _ ha => nomatch ha⟩
    · rw [hholder]; intro _ ha; cases ha
    · rw [hholder]; intro _ _ ha; cases ha
    · rw [hholder]; intro _ _ _ ha; cases ha
  · constructor
    · intro j earlier later hearlier hlater
      rw [hgo.records] at hlater
      have hset : (s.channel.records.set i record)[j]? = some later := hlater
      rw [List.getElem?_set] at hset
      split at hset
      next hij =>
        split at hset
        · cases hset
          rw [← hij] at hearlier
          cases hplace.symm.trans hearlier
          exact .inr hgrows
        · cases hset
      next => exact .inl (Option.some.inj (hset.symm.trans hearlier))
    · intro w r hr r' hr' hsame
      exact .inl (hs.grows h hr (hgo.recovery_mem hr') hsame)
  · intro k hspent
    refine ⟨hsubstrate ▸ hspent.granted, (by rw [hholder]; intro _ _ ha; cases ha), ?_⟩
    intro other hother hsame
    have hmem := hgo.withdrawal_mem hother
    have hput : ({ s.channel.toWithdrawalBooks with recoveries := recoveries }.setRecord i
        record).withdrawal k.withdrawRequestId = if k.withdrawRequestId = record.withdrawRequestId
          then some record else s.channel.withdrawal k.withdrawRequestId := by
      show (s.channel.toWithdrawalBooks.setRecord i record).withdrawal _ = _
      exact withdrawal_setRecord h.books hlookup _
    rw [hput] at hmem
    split at hmem
    next hw =>
      cases hmem
      exact (hs.spent k hspent hsame.symm hw).1
    next => exact hspent.settled other hmem hsame
  · intro k hspent hgone hheld'
    obtain ⟨r, hr, hsame, hstate⟩ := hheld'
    exact hgone ⟨r, hs.recovery_of_spent hspent (hgo.recovery_mem hr) hsame, hsame, hstate⟩
  · exact fun k _ _ answer ha => hquiet answer ha k

/-- No recovery of the operation has been built under the request id. -/
structure Unbuilt (s : ControlSystem) (w : String) (operation : OperationIdentity) : Prop where
  recovery : ∀ r ∈ s.channel.recovery w, r.operation ≠ operation
  spent : ∀ k, Spent s k → k.operation = operation → k.withdrawRequestId ≠ w

theorem unbuilt_of_asking (h : Invariant s) {ticket : WithdrawalTicket}
    {result : Option WithdrawalResult} (hholder : s.holder = some (.asking ticket result)) :
    Unbuilt s ticket.withdrawRequestId ticket.identity where
  recovery r hr := Ne.symm ((h.granted _ r hr).2 ticket result hholder)
  spent _ hspent hoperation := absurd hoperation.symm (hspent.asking ticket result hholder)

theorem unbuilt_of_unknown (h : Invariant s) {i : Nat}
    (hunknown : StillUnknown s i record) : Unbuilt s record.withdrawRequestId record.operation := by
  have hrecord : s.channel.withdrawal record.withdrawRequestId = some record :=
    withdrawal_eq_some.mpr ⟨i, hunknown.1⟩
  constructor
  · intro r hr hoperation
    exact ((h.books.paired _).agrees record hrecord r hr hoperation.symm).1 hunknown.2
  · intro k hspent hoperation hw
    exact hspent.settled record (hw ▸ hrecord) hoperation.symm hunknown.2

/-- A record that comes with no recovery. -/
theorem stores_plain (h : Invariant s) (hsound : Sound record)
    (hstate : record.recoveryState ≠ .recoveryUnacknowledged)
    (hbuilt : Unbuilt s record.withdrawRequestId record.operation ∨
      record.phase ≠ .unknown ∧ record.outcome ≠ .withdrawn) :
    Stores s record s.channel.recoveries where
  sound := hsound
  keys := h.books.recoveryKeys
  other _ _ := rfl
  own r hr := by
    refine .inl ⟨hr, fun hoperation => ?_⟩
    obtain hunbuilt | hfailed := hbuilt
    · exact absurd hoperation (hunbuilt.recovery r hr)
    · exact hfailed
  owns hheld := absurd hheld hstate
  spent k hspent hoperation hw := by
    obtain hunbuilt | hfailed := hbuilt
    · exact absurd hw (hunbuilt.spent k hspent hoperation)
    · exact hfailed

theorem stores_recovery (h : Invariant s) {r : RecoveryRecord} (hsound : Sound record)
    (hstate : record.recoveryState = .recoveryUnacknowledged) (hphase : record.phase ≠ .unknown)
    (hname : r.withdrawRequestId = record.withdrawRequestId)
    (htarget : r.recoveryRef.target = ⟨record.operation, some record.withdrawRequestId, none⟩)
    (hoperation : r.operation = record.operation) (hheld : r.state = .recoveryUnacknowledged)
    (hgranted : record.operation ∈ s.substrate.granted)
    (hbuilt : Unbuilt s record.withdrawRequestId record.operation) :
    Stores s record (Keyed.set s.channel.recoveries r.withdrawRequestId r) := by
  have hlookup : ∀ w, (Keyed.set s.channel.recoveries r.withdrawRequestId r).lookup w =
      if r.withdrawRequestId = w then some r else s.channel.recovery w :=
    Keyed.lookup_set s.channel.recoveries r.withdrawRequestId r
  have hown := hlookup record.withdrawRequestId
  rw [if_pos hname] at hown
  refine ⟨hsound, Keyed.nodup_keys_set h.books.recoveryKeys _ _, ?_, ?_, ?_, ?_⟩
  · intro w hw
    rw [hlookup, if_neg (fun hsame => hw (hsame.symm.trans hname))]
  · intro other hother
    rw [hown] at hother
    cases hother
    exact .inr ⟨hname, htarget, hoperation, hheld, hstate, hphase, hgranted⟩
  · intro _
    exact ⟨r, hown, hoperation, hheld⟩
  · intro k hspent hsame hw
    exact absurd hw (hbuilt.spent k hspent hsame)

theorem Stores.redriven {fresh : WithdrawalRecord} (hs : Stores s fresh recoveries)
    (hname : fresh.withdrawRequestId = record.withdrawRequestId)
    (hoperation : fresh.operation = record.operation) :
    Stores s (record.redriven fresh) recoveries where
  sound := hs.sound.redriven hoperation hname
  keys := hs.keys
  other w hw := hs.other w (hname ▸ hw)
  own r hr := by
    have hfresh := hs.own r (by rw [hname]; exact hr)
    rw [hname, hoperation] at hfresh
    exact hfresh
  owns hheld := by
    have hfresh := hs.owns hheld
    rw [hname, hoperation] at hfresh
    exact hfresh
  spent k hspent hsame hw := hs.spent k hspent (hsame.trans hoperation.symm) (hw.trans hname.symm)

end stores

/-! ## The substrate's answer -/

section apply
variable {authority : ControlAuthority} {s : ControlSystem}

/-- The oldest recovery may have gone, if it had been disposed of. -/
def Fits (recoveries : List (String × RecoveryRecord)) (c : ControlChannel) : Prop :=
  c.recoveries.length ≤ maxRecoveriesPerChannel ∧ (c.recoveries = recoveries ∨
    ∃ e, recoveries = e :: c.recoveries ∧ e.2.state ≠ .recoveryUnacknowledged)

theorem storeRecovery_fits {c : ControlChannel} {r : RecoveryRecord}
    (hlength : c.recoveries.length ≤ maxRecoveriesPerChannel)
    (hroom : HasRoom c.toWithdrawalBooks r.withdrawRequestId) :
    ∃ c', storeRecovery true c r = .ok c' ∧ c'.withdrawals = c.withdrawals ∧
      c'.records = c.records ∧ Fits (Keyed.set c.recoveries r.withdrawRequestId r) c' := by
  have hkeys := congrArg List.length (Keyed.keys_set c.recoveries r.withdrawRequestId r)
  rw [List.length_map] at hkeys
  unfold storeRecovery
  dsimp only
  by_cases hmem : r.withdrawRequestId ∈ c.recoveries.map Prod.fst
  · rw [if_pos hmem, List.length_map] at hkeys
    have hzero : (c.setRecovery r).recoveries.length - maxRecoveriesPerChannel = 0 := by
      simp only [WithdrawalBooks.setRecovery]
      omega
    rw [hzero]
    exact ⟨_, rfl, rfl, rfl, Nat.le_trans (Nat.le_of_eq hkeys) hlength, .inl rfl⟩
  · rw [if_neg hmem, List.length_append, List.length_map, List.length_singleton] at hkeys
    have hset := Keyed.set_of_not_mem hmem r
    by_cases hfull : c.recoveries.length < maxRecoveriesPerChannel
    · have hzero : (c.setRecovery r).recoveries.length - maxRecoveriesPerChannel = 0 := by
        simp only [WithdrawalBooks.setRecovery]
        omega
      rw [hzero]
      exact ⟨_, rfl, rfl, rfl, by show (Keyed.set _ _ _).length ≤ _; omega, .inl rfl⟩
    · have hone : (c.setRecovery r).recoveries.length - maxRecoveriesPerChannel = 1 := by
        simp only [WithdrawalBooks.setRecovery]
        omega
      rw [hone]
      cases hc : c.recoveries with
      | nil => simp [hc, maxRecoveriesPerChannel] at hfull
      | cons e rest =>
        have hgone : e.2.state ≠ .recoveryUnacknowledged := by
          obtain hlt | hsome | hhead := hroom
          · exact absurd hlt hfull
          · exact absurd (Keyed.lookup_isSome_iff.mp hsome) hmem
          · exact hhead e (by simp [hc])
        have hrecoveries : (c.setRecovery r).recoveries =
            e :: (rest ++ [(r.withdrawRequestId, r)]) := by
          show Keyed.set c.recoveries r.withdrawRequestId r = _
          rw [hset, hc, List.cons_append]
        unfold reclaimRecoveries
        simp only [hrecoveries, if_neg hgone]
        refine ⟨_, rfl, rfl, rfl, ?_, .inr ⟨e, ?_, hgone⟩⟩
        · have := hlength
          rw [hc, List.length_cons] at this
          show (rest ++ [(r.withdrawRequestId, r)]).length ≤ _
          rw [List.length_append, List.length_singleton]
          exact this
        · rw [← hc]
          exact hrecoveries

/-- What the substrate's answer to a ticket stores. -/
theorem applyWithdrawalResult_spec (h : Invariant s) {ticket : WithdrawalTicket}
    {result : WithdrawalResult} {now : Nat} (hroom : RoomFor authority s ticket result now)
    (hbuilt : Unbuilt s ticket.withdrawRequestId ticket.identity)
    (hgranted : result.outcome = .withdrawn → ticket.identity ∈ s.substrate.granted) :
    ∃ fresh c recoveries,
      applyWithdrawalResult authority true now s.channel ticket result = .ok (fresh, c) ∧
      c.withdrawals = s.channel.withdrawals ∧ c.records = s.channel.records ∧
      fresh.withdrawRequestId = ticket.withdrawRequestId ∧ fresh.operation = ticket.identity ∧
      Fits recoveries c ∧ Stores s fresh recoveries := by
  unfold applyWithdrawalResult
  split
  next failure hfailure =>
    obtain ⟨-, outcome, detail, houtcome, rfl⟩ := failureForResult_eq_some hfailure
    refine ⟨_, _, s.channel.recoveries, rfl, rfl, rfl, rfl, rfl, ⟨h.room, .inl rfl⟩, ?_⟩
    exact stores_plain h (sound_settledFailure houtcome) (by simp [settledFailure])
      (.inr ⟨by simp [settledFailure], houtcome⟩)
  next hwithdrawn =>
    have houtcome := failureForResult_eq_none hwithdrawn
    have hsound : Sound (withdrawnRecord authority ticket result now
        (recoveredRecord authority s.channel ticket result now)) := sound_withdrawnRecord rfl
    dsimp only
    split
    next hcontent =>
      obtain ⟨c, hc, hwithdrawals, hrecords, hfits⟩ := storeRecovery_fits
        (c := { s.channel with
          attachments := (markRecoverable s.channel.attachments ticket.identity.operationId
            (recoveredRecord authority s.channel ticket result now).expiresAt).1 })
        (r := recoveredRecord authority s.channel ticket result now)
        h.room (hroom houtcome hcontent)
      rw [hc]
      refine ⟨_, c, _, rfl, hwithdrawals, hrecords, rfl, rfl, hfits, ?_⟩
      refine stores_recovery h hsound ?_ (by simp [withdrawnRecord]) rfl rfl rfl rfl
        (hgranted houtcome) hbuilt
      simp [withdrawnRecord, hcontent]
    next hempty =>
      refine ⟨_, _, s.channel.recoveries, rfl, rfl, rfl, rfl, rfl, ⟨h.room, .inl rfl⟩, ?_⟩
      exact stores_plain h hsound (by simp [withdrawnRecord, hempty]) (.inl hbuilt)

end apply

end AgentsRemember.Control
