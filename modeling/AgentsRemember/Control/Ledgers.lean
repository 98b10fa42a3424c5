import AgentsRemember.Control.WithdrawalCalls
import Mathlib.Data.List.Perm.Subperm

/-!
# Control — Ledgers

What holds between a withdrawal and the recovery under the same request id, and
that it is kept: by disposing of both together, by storing a new withdrawal with
its recovery, and by letting go of what retains nothing.
-/

namespace AgentsRemember.Control

open Submission

namespace WithdrawalBooks

/-- The record that is retained under a request id. -/
def withdrawal (b : WithdrawalBooks) (w : String) : Option WithdrawalRecord :=
  (b.retained w).map Prod.snd

/-- The recovery of a request. -/
def recovery (b : WithdrawalBooks) (w : String) : Option RecoveryRecord := b.recoveries.lookup w

end WithdrawalBooks

open WithdrawalBooks

/-- What a record's answer says about the cells beside it. -/
structure Sound (record : WithdrawalRecord) : Prop where
  failed : ∀ response, record.response = .failed response →
    record.outcome ≠ .withdrawn ∧ record.recoveryState = .none
  withdrawn : ∀ response, record.response = .withdrawn response →
    record.outcome = .withdrawn ∧ record.phase = .settled ∧
      (record.recoveryState = .none →
        response.recovery.text = "" ∧ response.recovery.attachments = []) ∧
      (record.recoveryState = .none ↔ record.recoveryExpiresAt = none) ∧
      response.recovery.recoveryRef.target =
        ⟨record.operation, some record.withdrawRequestId, none⟩

/-- A withdrawal and a recovery under one request id. -/
structure Paired (w : String) (withdrawal : Option WithdrawalRecord)
    (recovery : Option RecoveryRecord) : Prop where
  named : ∀ record ∈ withdrawal, record.withdrawRequestId = w
  recoveryNamed : ∀ r ∈ recovery, r.withdrawRequestId = w ∧
    r.recoveryRef.target = ⟨r.operation, some w, none⟩
  agrees : ∀ record ∈ withdrawal, ∀ r ∈ recovery, record.operation = r.operation →
    record.phase ≠ .unknown ∧ (record.outcome = .withdrawn → record.recoveryState = r.state)
  holds : ∀ r ∈ recovery, r.state = .recoveryUnacknowledged →
    ∃ record ∈ withdrawal, record.operation = r.operation ∧
      record.recoveryState = .recoveryUnacknowledged
  owns : ∀ record ∈ withdrawal, record.recoveryState = .recoveryUnacknowledged →
    ∃ r ∈ recovery, r.operation = record.operation ∧ r.state = .recoveryUnacknowledged

/-- What ties withdrawals and recoveries to each other. -/
structure Consistent (b : WithdrawalBooks) : Prop where
  keys : (b.withdrawals.map Prod.fst).Nodup
  places : ∀ w i, b.withdrawals.lookup w = some i → i < b.records.length
  recoveryKeys : (b.recoveries.map Prod.fst).Nodup
  sound : ∀ record ∈ b.records, Sound record
  paired : ∀ w, Paired w (b.withdrawal w) (b.recovery w)

theorem consistent_empty : Consistent {} where
  keys := List.nodup_nil
  places _ _ h := nomatch h
  recoveryKeys := List.nodup_nil
  sound _ h := nomatch h
  paired _ := ⟨fun _ h => (nomatch h), fun _ h => (nomatch h), fun _ h => (nomatch h),
    fun _ h => (nomatch h), fun _ h => (nomatch h)⟩

section books
variable {b b' : WithdrawalBooks} {w : String} {i : Nat} {record : WithdrawalRecord}

theorem retained_eq_some : b.retained w = some (i, record) ↔
    b.withdrawals.lookup w = some i ∧ b.records[i]? = some record := by
  simp only [WithdrawalBooks.retained, Option.bind_eq_some_iff, Option.map_eq_some_iff,
    Prod.mk.injEq]
  constructor
  · intro h
    obtain ⟨j, hj, r, hr, rfl, rfl⟩ := h
    exact ⟨hj, hr⟩
  · intro h
    exact ⟨i, h.1, record, h.2, rfl, rfl⟩

theorem withdrawal_eq_some : b.withdrawal w = some record ↔
    ∃ i, b.retained w = some (i, record) := by
  simp only [WithdrawalBooks.withdrawal, Option.map_eq_some_iff, Prod.exists]
  constructor
  · intro h
    obtain ⟨j, r, hr, rfl⟩ := h
    exact ⟨j, hr⟩
  · intro h
    obtain ⟨j, hj⟩ := h
    exact ⟨j, record, hj, rfl⟩

theorem Consistent.withdrawal_none (h : Consistent b) :
    b.withdrawal w = none ↔ b.withdrawals.lookup w = none := by
  cases hl : b.withdrawals.lookup w with
  | none => simp [WithdrawalBooks.withdrawal, WithdrawalBooks.retained, hl]
  | some i =>
    have hi := h.places w i hl
    simp [WithdrawalBooks.withdrawal, WithdrawalBooks.retained, hl, List.getElem?_eq_getElem hi]

/-- A place belongs to one request id. -/
theorem Consistent.place_inj (h : Consistent b) {w' : String}
    (hw : b.withdrawals.lookup w = some i) (hw' : b.withdrawals.lookup w' = some i) : w' = w := by
  have hi := List.getElem?_eq_getElem (h.places w i hw)
  have hn := (h.paired w).named _ (withdrawal_eq_some.mpr ⟨i, retained_eq_some.mpr ⟨hw, hi⟩⟩)
  have hn' := (h.paired w').named _ (withdrawal_eq_some.mpr ⟨i, retained_eq_some.mpr ⟨hw', hi⟩⟩)
  exact hn'.symm.trans hn

theorem Consistent.sound_of_retained (h : Consistent b) (hr : b.retained w = some (i, record)) :
    Sound record :=
  h.sound record (List.mem_of_getElem? (retained_eq_some.mp hr).2)

theorem withdrawal_setRecord (h : Consistent b) (hw : b.withdrawals.lookup w = some i)
    (w' : String) :
    (b.setRecord i record).withdrawal w' = if w' = w then some record else b.withdrawal w' := by
  have hi := h.places w i hw
  split
  next hsame =>
    subst hsame
    exact withdrawal_eq_some.mpr ⟨i, retained_eq_some.mpr
      ⟨hw, by simp [WithdrawalBooks.setRecord, hi]⟩⟩
  next hother =>
    unfold WithdrawalBooks.withdrawal WithdrawalBooks.retained WithdrawalBooks.setRecord
    cases hl : b.withdrawals.lookup w' with
    | none => rfl
    | some j =>
      have hne : i ≠ j := by
        intro hij
        rw [← hij] at hl
        exact hother (h.place_inj hw hl)
      simp [List.getElem?_set_ne hne]

theorem recovery_setRecovery (r : RecoveryRecord) (w' : String) :
    (b.setRecovery r).recovery w' = if r.withdrawRequestId = w' then some r else b.recovery w' :=
  Keyed.lookup_set b.recoveries r.withdrawRequestId r w'

end books

/-! ## Disposal -/

section dispose
variable {b : WithdrawalBooks} {w : String} {i : Nat} {record : WithdrawalRecord}
  {r : RecoveryRecord} {state : RecoveryState}

theorem Sound.dispose (h : Sound record) (hstate : record.recoveryState = .recoveryUnacknowledged)
    (hnew : state ≠ .none) : Sound (record.dispose state) where
  failed response hr := by
    have := (h.failed response hr).2
    rw [hstate] at this
    cases this
  withdrawn response hr := by
    obtain ⟨houtcome, hphase, -, hexpires, hnames⟩ := h.withdrawn response hr
    refine ⟨houtcome, hphase, fun hn => absurd hn hnew, ⟨fun hn => absurd hn hnew, ?_⟩, hnames⟩
    intro hn
    have hwas := hexpires.mpr hn
    rw [hstate] at hwas
    cases hwas

/-- A withdrawal and its recovery are disposed of together. -/
theorem Consistent.dispose (h : Consistent b) (hr : b.recovery w = some r)
    (hheld : r.state = .recoveryUnacknowledged) (hw : b.retained w = some (i, record))
    (hnew : state = .acknowledged ∨ state = .expired) :
    Consistent ((b.setRecovery (r.dispose state)).setRecord i (record.dispose state)) := by
  have hnone : state ≠ .none := by rintro rfl; simp at hnew
  have hunack : state ≠ .recoveryUnacknowledged := by rintro rfl; simp at hnew
  obtain ⟨hlookup, hrecord⟩ := retained_eq_some.mp hw
  have hpaired := h.paired w
  have hname := hpaired.recoveryNamed r hr
  have hwithdrawal : b.withdrawal w = some record := withdrawal_eq_some.mpr ⟨i, hw⟩
  obtain ⟨holder, hholder, hoperation, hstate⟩ := hpaired.holds r hr hheld
  cases hwithdrawal.symm.trans hholder
  have hrecovery : ∀ w', ((b.setRecovery (r.dispose state)).setRecord i
      (record.dispose state)).recovery w' =
        if w' = w then some (r.dispose state) else b.recovery w' := by
    intro w'
    show (b.setRecovery (r.dispose state)).recovery w' = _
    rw [recovery_setRecovery, show (r.dispose state).withdrawRequestId = w from hname.1]
    simp only [eq_comm]
  have hrecords : ∀ w', ((b.setRecovery (r.dispose state)).setRecord i
      (record.dispose state)).withdrawal w' =
        if w' = w then some (record.dispose state) else b.withdrawal w' := by
    intro w'
    show (b.setRecord i (record.dispose state)).withdrawal w' = _
    exact withdrawal_setRecord h hlookup w'
  constructor
  · exact h.keys
  · intro w' j hj
    have hplace := h.places w' j hj
    simpa [WithdrawalBooks.setRecord, WithdrawalBooks.setRecovery] using hplace
  · exact Keyed.nodup_keys_set h.recoveryKeys _ _
  · intro other hother
    obtain hmem | rfl := List.mem_or_eq_of_mem_set hother
    · exact h.sound other hmem
    · exact (h.sound record (List.mem_of_getElem? hrecord)).dispose hstate hnone
  · intro w'
    rw [hrecovery, hrecords]
    split
    next hsame =>
      subst hsame
      constructor
      · intro x hx; cases hx; exact hpaired.named record hwithdrawal
      · intro x hx; cases hx; exact hname
      · intro x hx y hy hop
        cases hx; cases hy
        exact ⟨(hpaired.agrees record hwithdrawal r hr hoperation).1, fun _ => rfl⟩
      · intro y hy hun; cases hy; exact absurd hun hunack
      · intro x hx hun; cases hx; exact absurd hun hunack
    next => exact h.paired w'

end dispose

/-! ## Letting go -/

/-- The channel lets go of entries that retain nothing. -/
structure LetsGo (b b' : WithdrawalBooks) : Prop where
  keys : (b'.withdrawals.map Prod.fst).Nodup
  places : ∀ w i, b'.withdrawals.lookup w = some i → b.withdrawals.lookup w = some i
  recoveryKeys : (b'.recoveries.map Prod.fst).Nodup
  records : b'.records = b.records
  withdrawals : ∀ w, b'.withdrawal w = b.withdrawal w ∨ b'.withdrawal w = none ∧
    ∀ record ∈ b.withdrawal w, record.recoveryState ≠ .recoveryUnacknowledged
  recoveries : ∀ w, b'.recovery w = b.recovery w ∨ b'.recovery w = none ∧
    ∀ r ∈ b.recovery w, r.state ≠ .recoveryUnacknowledged

section letsGo
variable {b b' b'' : WithdrawalBooks}

theorem LetsGo.refl (hkeys : (b.withdrawals.map Prod.fst).Nodup)
    (hrecoveries : (b.recoveries.map Prod.fst).Nodup) : LetsGo b b where
  keys := hkeys
  places _ _ h := h
  recoveryKeys := hrecoveries
  records := rfl
  withdrawals _ := .inl rfl
  recoveries _ := .inl rfl

theorem LetsGo.trans (h : LetsGo b b') (h' : LetsGo b' b'') : LetsGo b b'' where
  keys := h'.keys
  places w i hi := h.places w i (h'.places w i hi)
  recoveryKeys := h'.recoveryKeys
  records := h'.records.trans h.records
  withdrawals w := by
    obtain hsame | ⟨hnone, hgone⟩ := h.withdrawals w
    · rw [← hsame]; exact h'.withdrawals w
    · obtain hsame' | ⟨hnone', -⟩ := h'.withdrawals w
      · exact .inr ⟨hsame'.trans hnone, hgone⟩
      · exact .inr ⟨hnone', hgone⟩
  recoveries w := by
    obtain hsame | ⟨hnone, hgone⟩ := h.recoveries w
    · rw [← hsame]; exact h'.recoveries w
    · obtain hsame' | ⟨hnone', -⟩ := h'.recoveries w
      · exact .inr ⟨hsame'.trans hnone, hgone⟩
      · exact .inr ⟨hnone', hgone⟩

theorem LetsGo.withdrawal_mem (h : LetsGo b b') {w : String} {record : WithdrawalRecord}
    (hr : record ∈ b'.withdrawal w) : record ∈ b.withdrawal w := by
  obtain hsame | ⟨hnone, -⟩ := h.withdrawals w
  · rwa [← hsame]
  · rw [hnone] at hr; cases hr

theorem LetsGo.recovery_mem (h : LetsGo b b') {w : String} {r : RecoveryRecord}
    (hr : r ∈ b'.recovery w) : r ∈ b.recovery w := by
  obtain hsame | ⟨hnone, -⟩ := h.recoveries w
  · rwa [← hsame]
  · rw [hnone] at hr; cases hr

/-- An unacknowledged recovery is never let go, nor is its withdrawal. -/
theorem LetsGo.recovery_keeps (h : LetsGo b b') {w : String} {r : RecoveryRecord}
    (hr : r ∈ b.recovery w) (hheld : r.state = .recoveryUnacknowledged) : r ∈ b'.recovery w := by
  obtain hsame | ⟨-, hgone⟩ := h.recoveries w
  · rwa [hsame]
  · exact absurd hheld (hgone r hr)

theorem LetsGo.withdrawal_keeps (h : LetsGo b b') {w : String} {record : WithdrawalRecord}
    (hr : record ∈ b.withdrawal w) (hheld : record.recoveryState = .recoveryUnacknowledged) :
    record ∈ b'.withdrawal w := by
  obtain hsame | ⟨-, hgone⟩ := h.withdrawals w
  · rwa [hsame]
  · exact absurd hheld (hgone record hr)

theorem Consistent.letsGo (h : Consistent b) (hgo : LetsGo b b') : Consistent b' where
  keys := hgo.keys
  places w i hi := by rw [hgo.records]; exact h.places w i (hgo.places w i hi)
  recoveryKeys := hgo.recoveryKeys
  sound record hr := h.sound record (by rwa [hgo.records] at hr)
  paired w := by
    have hpaired := h.paired w
    constructor
    · exact fun record hr => hpaired.named record (hgo.withdrawal_mem hr)
    · exact fun r hr => hpaired.recoveryNamed r (hgo.recovery_mem hr)
    · exact fun record hrecord r hr =>
        hpaired.agrees record (hgo.withdrawal_mem hrecord) r (hgo.recovery_mem hr)
    · intro r hr hheld
      obtain ⟨record, hrecord, hoperation, hstate⟩ := hpaired.holds r (hgo.recovery_mem hr) hheld
      exact ⟨record, hgo.withdrawal_keeps hrecord hstate, hoperation, hstate⟩
    · intro record hrecord hheld
      obtain ⟨r, hr, hoperation, hstate⟩ := hpaired.owns record (hgo.withdrawal_mem hrecord) hheld
      exact ⟨r, hgo.recovery_keeps hr hstate, hoperation, hstate⟩

/-- The oldest recovery goes, once it has been disposed of. -/
theorem letsGo_oldest {e : String × RecoveryRecord} {rest : List (String × RecoveryRecord)}
    (hkeys : (b.withdrawals.map Prod.fst).Nodup) (hrecoveries : (b.recoveries.map Prod.fst).Nodup)
    (he : b.recoveries = e :: rest) (hgone : e.2.state ≠ .recoveryUnacknowledged) :
    LetsGo b { b with recoveries := rest } where
  keys := hkeys
  places _ _ h := h
  recoveryKeys := by
    rw [he, List.map_cons, List.nodup_cons] at hrecoveries
    exact hrecoveries.2
  records := rfl
  withdrawals _ := .inl rfl
  recoveries w := by
    have hlookup : b.recovery w = if e.1 = w then some e.2 else rest.lookup w := by
      show b.recoveries.lookup w = _
      rw [he]
      exact Keyed.lookup_cons e.1 e.2 rest w
    rw [hlookup]
    split
    next hkey =>
      right
      rw [he, List.map_cons, List.nodup_cons, hkey] at hrecoveries
      refine ⟨?_, fun r hr => by cases hr; exact hgone⟩
      show rest.lookup w = none
      rw [← Option.not_isSome_iff_eq_none, Keyed.lookup_isSome_iff]
      exact hrecoveries.1
    next => exact .inl rfl

/-- A withdrawal that retains no recovery goes. -/
theorem letsGo_victim {victim : String} (hkeys : (b.withdrawals.map Prod.fst).Nodup)
    (hrecoveries : (b.recoveries.map Prod.fst).Nodup)
    (hgone : ∀ record ∈ b.withdrawal victim, record.recoveryState ≠ .recoveryUnacknowledged) :
    LetsGo b { b with withdrawals := Keyed.erase b.withdrawals victim } where
  keys := hkeys.sublist (List.filter_sublist.map _)
  places w i hi := by
    have hlookup := Keyed.lookup_erase b.withdrawals victim w
    rw [hi] at hlookup
    split at hlookup
    · cases hlookup
    · exact hlookup.symm
  recoveryKeys := hrecoveries
  records := rfl
  withdrawals w := by
    have hlookup := Keyed.lookup_erase b.withdrawals victim w
    unfold WithdrawalBooks.withdrawal WithdrawalBooks.retained at hgone ⊢
    simp only [hlookup]
    split
    next hw => subst hw; exact .inr ⟨rfl, hgone⟩
    next => exact .inl rfl
  recoveries _ := .inl rfl

/-- Under pressure the victim retains nothing: no more recoveries are held than
fit, and more withdrawals than that are retained. -/
theorem withdrawalVictim_gone (h : Consistent b) (hroom : b.recoveries.length ≤ maxRecoveriesPerChannel)
    (hfull : maxWithdrawalsPerChannel < b.withdrawals.length) :
    ∃ victim, b.withdrawalVictim = some victim ∧ victim ∈ b.withdrawals.map Prod.fst ∧
      ∀ record ∈ b.withdrawal victim, record.recoveryState ≠ .recoveryUnacknowledged := by
  have hentry : ∀ e ∈ b.withdrawals, ∃ record, b.withdrawal e.1 = some record ∧
      b.records[e.2]? = some record := by
    intro e he
    have hlookup : b.withdrawals.lookup e.1 = some e.2 := Keyed.lookup_of_mem h.keys he
    have hi := List.getElem?_eq_getElem (h.places e.1 e.2 hlookup)
    exact ⟨_, withdrawal_eq_some.mpr ⟨e.2, retained_eq_some.mpr ⟨hlookup, hi⟩⟩, hi⟩
  unfold WithdrawalBooks.withdrawalVictim
  split
  next e he =>
    refine ⟨e.1, rfl, List.mem_map_of_mem (List.mem_of_find?_eq_some he), ?_⟩
    obtain ⟨record, hrecord, hplace⟩ := hentry e (List.mem_of_find?_eq_some he)
    have hdisposed := List.find?_some he
    intro other hother hun
    cases hrecord.symm.trans hother
    simp [hplace, hun, isDisposed] at hdisposed
  next hnone =>
    -- every retained withdrawal would hold a recovery of its own
    exfalso
    rw [List.find?_eq_none] at hnone
    have hsub : b.withdrawals.map Prod.fst ⊆ b.recoveries.map Prod.fst := by
      intro w hw
      obtain ⟨e, he, rfl⟩ := List.mem_map.mp hw
      obtain ⟨record, hrecord, hplace⟩ := hentry e he
      have hstate : record.recoveryState = .recoveryUnacknowledged := by
        have hdisposed := hnone e he
        cases hs : record.recoveryState <;> simp_all [isDisposed]
      obtain ⟨r, hr, -⟩ := (h.paired e.1).owns record hrecord hstate
      rw [← Keyed.lookup_isSome_iff, Option.isSome_iff_exists]
      exact ⟨r, hr⟩
    have hlength := (List.subperm_of_subset h.keys hsub).length_le
    simp only [List.length_map, maxRecoveriesPerChannel, maxWithdrawalsPerChannel] at *
    omega

theorem letsGo_reclaimWithdrawals {n : Nat} (h : Consistent b)
    (hroom : b.recoveries.length ≤ maxRecoveriesPerChannel)
    (hn : n = b.withdrawals.length - maxWithdrawalsPerChannel) :
    LetsGo b (b.reclaimWithdrawals n) := by
  induction n generalizing b with
  | zero => exact .refl h.keys h.recoveryKeys
  | succ n ih =>
    obtain ⟨victim, hvictim, hmem, hgone⟩ := withdrawalVictim_gone h hroom (by omega)
    have hgo := letsGo_victim h.keys h.recoveryKeys hgone
    simp only [WithdrawalBooks.reclaimWithdrawals, hvictim]
    refine hgo.trans (ih (h.letsGo hgo) hroom ?_)
    have hlength := Keyed.length_erase h.keys hmem
    show n = (Keyed.erase b.withdrawals victim).length - maxWithdrawalsPerChannel
    omega

end letsGo

/-! ## A new withdrawal, and one that is driven again -/

/-- The books with one more record, and these recoveries. -/
def WithdrawalBooks.enter (b : WithdrawalBooks) (record : WithdrawalRecord)
    (recoveries : List (String × RecoveryRecord)) : WithdrawalBooks where
  withdrawals := Keyed.set b.withdrawals record.withdrawRequestId b.records.length
  records := b.records ++ [record]
  recoveries := recoveries

section change
variable {b : WithdrawalBooks} {w : String} {i : Nat} {record : WithdrawalRecord}
  {recoveries : List (String × RecoveryRecord)}

theorem withdrawal_enter (h : Consistent b) (w' : String) :
    (b.enter record recoveries).withdrawal w' =
      if record.withdrawRequestId = w' then some record else b.withdrawal w' := by
  unfold WithdrawalBooks.withdrawal WithdrawalBooks.retained WithdrawalBooks.enter
  simp only [Keyed.lookup_set]
  split
  · simp
  · cases hl : b.withdrawals.lookup w' with
    | none => rfl
    | some j =>
      have hj := h.places w' j hl
      simp [List.getElem?_append_left hj]

/-- What one request id's entries become is all that has to be looked at. -/
theorem Consistent.enter (h : Consistent b) (hsound : Sound record)
    (hkeys : (recoveries.map Prod.fst).Nodup)
    (hother : ∀ w', w' ≠ record.withdrawRequestId → recoveries.lookup w' = b.recovery w')
    (hpaired : Paired record.withdrawRequestId (some record)
      (recoveries.lookup record.withdrawRequestId)) :
    Consistent (b.enter record recoveries) where
  keys := Keyed.nodup_keys_set h.keys _ _
  places w' j hj := by
    have hlookup : (b.enter record recoveries).withdrawals.lookup w' =
        if record.withdrawRequestId = w' then some b.records.length
        else b.withdrawals.lookup w' :=
      Keyed.lookup_set b.withdrawals record.withdrawRequestId b.records.length w'
    have hlength : (b.enter record recoveries).records.length = b.records.length + 1 := by
      simp [WithdrawalBooks.enter]
    rw [hlength]
    rw [hj] at hlookup
    split at hlookup
    · cases hlookup; omega
    · have := h.places w' j hlookup.symm
      omega
  recoveryKeys := hkeys
  sound other hother := by
    obtain hmem | hmem := List.mem_append.mp hother
    · exact h.sound other hmem
    · rw [List.mem_singleton.mp hmem]; exact hsound
  paired w' := by
    rw [withdrawal_enter h]
    split
    next hsame => subst hsame; exact hpaired
    next hne =>
      show Paired w' (b.withdrawal w') (recoveries.lookup w')
      rw [hother w' (Ne.symm hne)]
      exact h.paired w'

theorem Consistent.redrive (h : Consistent b) (hw : b.withdrawals.lookup w = some i)
    (hsound : Sound record) (hkeys : (recoveries.map Prod.fst).Nodup)
    (hother : ∀ w', w' ≠ w → recoveries.lookup w' = b.recovery w')
    (hpaired : Paired w (some record) (recoveries.lookup w)) :
    Consistent ({ b with recoveries := recoveries }.setRecord i record) where
  keys := h.keys
  places w' j hj := by
    have hplace := h.places w' j hj
    simpa [WithdrawalBooks.setRecord] using hplace
  recoveryKeys := hkeys
  sound other hother := by
    obtain hmem | rfl := List.mem_or_eq_of_mem_set hother
    · exact h.sound other hmem
    · exact hsound
  paired w' := by
    have hrecords : ({ b with recoveries := recoveries }.setRecord i record).withdrawal w' =
        if w' = w then some record else b.withdrawal w' := by
      show (b.setRecord i record).withdrawal w' = _
      exact withdrawal_setRecord h hw w'
    rw [hrecords]
    split
    next hsame => subst hsame; exact hpaired
    next hne =>
      show Paired w' (b.withdrawal w') (recoveries.lookup w')
      rw [hother w' hne]
      exact h.paired w'

end change

/-! ## Records of the drive -/

section records
variable {authority : ControlAuthority} {ticket : WithdrawalTicket} {result : WithdrawalResult}
  {now : Nat} {r : RecoveryRecord} {record fresh : WithdrawalRecord}

theorem sound_settledFailure {outcome : WithdrawalOutcome} {detail : String}
    (h : outcome ≠ .withdrawn) : Sound (settledFailure authority ticket outcome detail) where
  failed _ _ := ⟨h, rfl⟩
  withdrawn _ hr := nomatch hr

theorem sound_unknownWithdrawal {detail : String} :
    Sound (unknownWithdrawal authority ticket detail) where
  failed _ _ := ⟨by simp [unknownWithdrawal, settledFailure], rfl⟩
  withdrawn _ hr := nomatch hr

theorem sound_withdrawnRecord
    (hnames : r.recoveryRef.target = ⟨ticket.identity, some ticket.withdrawRequestId, none⟩) :
    Sound (withdrawnRecord authority ticket result now r) where
  failed _ hr := nomatch hr
  withdrawn response hr := by
    cases hr
    refine ⟨rfl, rfl, ?_, ?_, hnames⟩
    · intro hstate
      have hcontent : r.isContentful = false := by
        cases hc : r.isContentful with
        | false => rfl
        | true => simp [withdrawnRecord, hc] at hstate
      simp only [RecoveryRecord.isContentful, Bool.or_eq_false_iff, Option.isSome_eq_false_iff,
        Option.isNone_iff_eq_none, Bool.not_eq_false', List.isEmpty_iff] at hcontent
      exact ⟨by simp [hcontent.1], hcontent.2⟩
    · unfold withdrawnRecord
      cases r.isContentful <;> simp

theorem Sound.redriven (h : Sound fresh) (hoperation : fresh.operation = record.operation)
    (hname : fresh.withdrawRequestId = record.withdrawRequestId) :
    Sound (record.redriven fresh) where
  failed := h.failed
  withdrawn response hr := by
    have hfresh := h.withdrawn response hr
    rw [hoperation, hname] at hfresh
    exact hfresh

/-- A failure of the substrate leaves no recovery. -/
theorem failureForResult_eq_some (h : failureForResult authority ticket result = some record) :
    result.outcome ≠ .withdrawn ∧ ∃ outcome detail, outcome ≠ .withdrawn ∧
      record = settledFailure authority ticket outcome detail := by
  unfold failureForResult at h
  cases houtcome : result.outcome with
  | withdrawn => simp [houtcome] at h
  | notFound =>
    simp only [houtcome, Option.some.injEq] at h
    exact ⟨by simp, _, _, by simp, h.symm⟩
  | notWithdrawable =>
    simp only [houtcome, Option.some.injEq] at h
    refine ⟨by simp, _, _, ?_, h.symm⟩
    split
    · simp
    · split <;> simp

theorem failureForResult_eq_none (h : failureForResult authority ticket result = none) :
    result.outcome = .withdrawn := by
  unfold failureForResult at h
  cases houtcome : result.outcome <;> simp [houtcome] at h ⊢

end records

end AgentsRemember.Control
