import AgentsRemember.Lifecycle.Evidence
import AgentsRemember.Lifecycle.Selection

/-!
# Lifecycle — Preparation

The private preparation of a closeout generation, under any run of writes. A
write adds one event at most: an intent, the start of a command, what was
observed of a command, or an output.
-/

namespace AgentsRemember.Lifecycle

open Checks LifecycleOperationStore

/-! ## What a record says of a leg and of a command -/

/-- The selected preparation of a leg. -/
def OperationPreparationState.selected (preparation : OperationPreparationState)
    (leg : PreparationLeg) : Option SelectedPreparation :=
  preparation.legs.find? fun selected => selected.leg = leg

/-- The command of a kind. -/
def SelectedPreparation.command (selected : SelectedPreparation)
    (kind : PreparationCommandKind) : Option PreparationCommand :=
  selected.commands.find? fun command => command.kind = kind

/-- The preparation a record selects for a leg. -/
def LifecycleOperationRecord.selectedLeg (record : LifecycleOperationRecord)
    (leg : PreparationLeg) : Option SelectedPreparation :=
  record.preparation.bind (·.selected leg)

/-- The command a record holds for a leg. -/
def LifecycleOperationRecord.command (record : LifecycleOperationRecord) (leg : PreparationLeg)
    (kind : PreparationCommandKind) : Option PreparationCommand :=
  (record.selectedLeg leg).bind (·.command kind)

/-- The output a record holds for a leg. -/
def LifecycleOperationRecord.preparedOutput (record : LifecycleOperationRecord)
    (leg : PreparationLeg) : Option CertificateObjectReference :=
  (record.selectedLeg leg).bind (·.output)

/-- The command as it was started. -/
def PreparationCommand.asStarted (command : PreparationCommand) : PreparationCommand :=
  { command with terminal := none }

/-- The kinds of command that come before this one. -/
def PreparationCommandKind.earlier (kind : PreparationCommandKind) :
    List PreparationCommandKind :=
  commandOrder.takeWhile fun other => other ≠ kind

/-! ## What may happen in a write -/

/-- The write starts a command of this kind: there is one that was not there. -/
def Starts (leg : PreparationLeg) (kind : PreparationCommandKind)
    (current updated : LifecycleOperationRecord) : Prop :=
  updated.command leg kind ≠ none ∧
    (updated.command leg kind).map (·.asStarted) ≠ (current.command leg kind).map (·.asStarted)

/-- The write records how the command ended. -/
def RecordsTerminal (leg : PreparationLeg) (kind : PreparationCommandKind)
    (current updated : LifecycleOperationRecord) : Prop :=
  (updated.command leg kind).bind (·.terminal) ≠ none ∧
    (updated.command leg kind).bind (·.terminal) ≠ (current.command leg kind).bind (·.terminal)

/-- The write selects an output of the leg. -/
def SelectsOutput (leg : PreparationLeg) (current updated : LifecycleOperationRecord) : Prop :=
  updated.preparedOutput leg ≠ none ∧ updated.preparedOutput leg ≠ current.preparedOutput leg

instance (leg : PreparationLeg) (kind : PreparationCommandKind)
    (current updated : LifecycleOperationRecord) : Decidable (Starts leg kind current updated) :=
  inferInstanceAs (Decidable (_ ∧ _))

instance (leg : PreparationLeg) (current updated : LifecycleOperationRecord) :
    Decidable (SelectsOutput leg current updated) :=
  inferInstanceAs (Decidable (_ ∧ _))

/-- The generation runs, is not cancelled, and stays bound to its worker. -/
structure MayStart (current updated : LifecycleOperationRecord) : Prop where
  running : current.status = .running ∧ updated.status = .running
  uncancelled : current.cancelRequested = false ∧ updated.cancelRequested = false
  active : current.generationDisposition = .active
  bound : current.binding = updated.binding
  worker : current.workerPid.isSome ∧ current.workerLease.isSome ∧
    current.workerProcessFingerprint.isSome

/-- The worker of this binding is known to have exited. -/
def ProvenExit (record : LifecycleOperationRecord) (binding : WorkerBinding) : Prop :=
  ∃ termination, record.workerTermination = some termination ∧
    termination.state = .exited ∧ termination.binding = binding

/-! ## One event -/

/-- What happens to the leg that is worked on. -/
inductive LegEvent (before after : SelectedPreparation) (canStart : Bool)
    (worker exitedWorker : WorkerBinding) : Prop where
  | output (mayStart : canStart = true) (commands : after.commands = before.commands)
      (unselected : before.output = none)
  | start (command : PreparationCommand) (mayStart : canStart = true)
      (grown : after.commands = before.commands ++ [command]) (fresh : command.terminal = none)
      (owner : command.owner = worker) (output : after.output = before.output)
  | observe (front : List PreparationCommand) (original observed : PreparationCommand)
      (was : before.commands = front ++ [original]) (now : after.commands = front ++ [observed])
      (same : original.asStarted = observed.asStarted) (unseen : original.terminal = none)
      (owner : canStart = true ∨ original.owner = worker ∨ original.owner = exitedWorker)
      (output : after.output = before.output)

/-- What a write does to the preparation. -/
inductive PreparationEvent (before after : Option OperationPreparationState) (canStart : Bool)
    (worker exitedWorker : WorkerBinding) : Prop where
  | same (unchanged : after = before)
  | first (next : OperationPreparationState) (leg : SelectedPreparation) (was : before = none)
      (now : after = some next) (legs : next.legs = [leg])
      (empty : leg.commands = [] ∧ leg.output = none)
  | later (prior next : OperationPreparationState) (leg : SelectedPreparation)
      (was : before = some prior) (now : after = some next) (legs : next.legs = prior.legs ++ [leg])
      (empty : leg.commands = [] ∧ leg.output = none)
  | work (prior next : OperationPreparationState) (front : List SelectedPreparation)
      (old new : SelectedPreparation) (was : before = some prior) (now : after = some next)
      (legsWere : prior.legs = front ++ [old]) (legs : next.legs = front ++ [new])
      (leg : new.leg = old.leg) (event : LegEvent old new canStart worker exitedWorker)

section event
variable {canStart : Bool} {worker exitedWorker : WorkerBinding}

theorem legEvent_of_observation {before after : SelectedPreparation}
    (houtput : after.output = before.output)
    (h : validateCommandObservation before after canStart worker exitedWorker = .ok ()) :
    LegEvent before after canStart worker exitedWorker := by
  unfold validateCommandObservation at h
  split at h
  next original observed hbefore hafter =>
    obtain ⟨front, hfront⟩ := List.getLast?_eq_some_iff.mp hbefore
    obtain ⟨front', hfront'⟩ := List.getLast?_eq_some_iff.mp hafter
    simp only [inOrder_cons_ok, inOrder_nil_ok, and_true, refuseIf_ok, not_or, not_not, not_and,
      hfront, hfront', List.dropLast_concat] at h
    obtain ⟨-, ⟨hsame, hunseen, -, hstarted⟩, howner⟩ := h
    refine .observe front original observed hfront (hsame ▸ hfront') hstarted hunseen ?_ houtput
    by_cases hstart : canStart = true
    · exact .inl hstart
    · by_cases hworker : original.owner = worker
      · exact .inr (.inl hworker)
      · exact .inr (.inr (howner (by simpa using hstart) hworker))
  · cases h

theorem legEvent_of_transition {before after : SelectedPreparation}
    (h : validateLegTransition before after canStart worker exitedWorker = .ok ()) :
    after.leg = before.leg ∧ LegEvent before after canStart worker exitedWorker := by
  simp only [validateLegTransition, inOrder_cons_ok, inOrder_nil_ok, and_true, refuseIf_ok,
    not_or, not_not] at h
  obtain ⟨⟨hleg, -, hunselected⟩, h⟩ := h
  refine ⟨hleg.symm, ?_⟩
  split at h
  · simp only [refuseIf_ok, not_or, not_not, Bool.not_eq_false] at h
    exact .output h.1 h.2 hunselected
  next houtput =>
    have houtput : after.output = before.output := by
      rw [hunselected]
      simpa using houtput
    split at h
    · split at h
      · cases h
      next command hlast =>
        obtain ⟨front, hfront⟩ := List.getLast?_eq_some_iff.mp hlast
        simp only [refuseIf_ok, not_or, not_not, Bool.not_eq_false, hfront,
          List.dropLast_concat] at h
        obtain ⟨hstart, hcommands, hfresh, howner⟩ := h
        exact .start command hstart (hcommands ▸ hfront) hfresh howner houtput
    · exact legEvent_of_observation houtput h

theorem preparationEvent_of_transition {before after : Option OperationPreparationState}
    (h : validatePreparationTransition before after canStart worker exitedWorker = .ok ()) :
    PreparationEvent before after canStart worker exitedWorker := by
  unfold validatePreparationTransition at h
  by_cases hsame : before = after
  · exact .same hsame.symm
  rw [if_neg hsame] at h
  split at h
  · cases h
  next next =>
    simp only [refuseIf_ok, not_or, not_not, not_exists, not_and] at h
    obtain ⟨-, hlength, hempty⟩ := h
    obtain ⟨leg, hlegs⟩ := List.length_eq_one_iff.mp hlength
    exact .first next leg rfl rfl hlegs (by simpa using hempty leg (by simp [hlegs]))
  next prior next =>
    simp only [inOrder_cons_ok, inOrder_nil_ok, and_true, refuseIf_ok] at h
    obtain ⟨-, h⟩ := h
    split at h
    · simp only [refuseIf_ok, not_or, not_not, not_exists, not_and] at h
      obtain ⟨-, hprior, hempty⟩ := h
      obtain ⟨leg, hlegs⟩ : ∃ leg, next.legs = prior.legs ++ [leg] :=
        ⟨_, by rw [← hprior, List.dropLast_concat_getLast next.nonempty]⟩
      exact .later prior next leg rfl rfl hlegs (by simpa using hempty leg (by simp [hlegs]))
    · simp only [inOrder_cons_ok, inOrder_nil_ok, and_true, refuseIf_ok, not_or, not_not] at h
      obtain ⟨⟨-, hfront⟩, h⟩ := h
      split at h
      next old new hold hnew =>
        obtain ⟨front, hlegs⟩ := List.getLast?_eq_some_iff.mp hold
        obtain ⟨front', hlegs'⟩ := List.getLast?_eq_some_iff.mp hnew
        rw [hlegs, hlegs', List.dropLast_concat, List.dropLast_concat] at hfront
        obtain ⟨hleg, hevent⟩ := legEvent_of_transition h
        exact .work prior next front old new rfl rfl hlegs (hfront ▸ hlegs') hleg hevent
      · cases h

/-! ## What an event does to a leg and to a command -/

/-- A leg is left alone, is selected with nothing in it, or is worked on. -/
theorem PreparationEvent.selected {before after : Option OperationPreparationState}
    (h : PreparationEvent before after canStart worker exitedWorker) (leg : PreparationLeg) :
    after.bind (·.selected leg) = before.bind (·.selected leg) ∨
    (before.bind (·.selected leg) = none ∧ ∃ new, after.bind (·.selected leg) = some new ∧
      new.commands = [] ∧ new.output = none) ∨
    ∃ old new, before.bind (·.selected leg) = some old ∧ after.bind (·.selected leg) = some new ∧
      LegEvent old new canStart worker exitedWorker := by
  cases h with
  | same unchanged => exact .inl (by rw [unchanged])
  | first next new was now legs empty =>
    rw [was, now]
    by_cases hleg : new.leg = leg
    · exact .inr (.inl ⟨rfl, new, by simp [OperationPreparationState.selected, legs, hleg], empty⟩)
    · exact .inl (by simp [OperationPreparationState.selected, legs, hleg])
  | later prior next new was now legs empty =>
    rw [was, now]
    simp only [Option.bind_some, OperationPreparationState.selected, legs, List.find?_append]
    cases hprior : prior.legs.find? fun selected => selected.leg = leg with
    | some old => exact .inl rfl
    | none =>
      by_cases hleg : new.leg = leg
      · exact .inr (.inl ⟨rfl, new, by simp [hleg], empty⟩)
      · exact .inl (by simp [hleg])
  | work prior next front old new was now legsWere legs hsame event =>
    rw [was, now]
    simp only [Option.bind_some, OperationPreparationState.selected, legs, legsWere,
      List.find?_append]
    cases hfront : front.find? fun selected => selected.leg = leg with
    | some found => exact .inl rfl
    | none =>
      by_cases hleg : old.leg = leg
      · exact .inr (.inr ⟨old, new, by simp [hleg], by simp [hsame, hleg], event⟩)
      · exact .inl (by simp [hsame, hleg])

/-- The later leg is selected over a first one that has its output. -/
theorem PreparationEvent.later_leg {before after : Option OperationPreparationState}
    (h : PreparationEvent before after canStart worker exitedWorker) {new : SelectedPreparation}
    (hbefore : before.bind (·.selected .memoryContent) = none)
    (hafter : after.bind (·.selected .memoryContent) = some new) :
    ∃ selected, before.bind (·.selected .code) = some selected ∧ selected.output ≠ none := by
  cases h with
  | same unchanged =>
    rw [unchanged, hbefore] at hafter
    cases hafter
  | first next leg was now legs empty =>
    have hcode : leg.leg = .code := by
      have hordered := next.ordered
      rw [legs] at hordered
      simpa [legOrder] using hordered
    simp [now, OperationPreparationState.selected, legs, hcode] at hafter
  | later prior next leg was now legs empty =>
    obtain ⟨selected, rest, hprior⟩ := List.exists_cons_of_ne_nil prior.nonempty
    have hcode : selected.leg = .code := by
      have hordered := prior.ordered
      rw [hprior] at hordered
      simpa [legOrder] using (congrArg List.head? hordered)
    refine ⟨selected, by simp [was, OperationPreparationState.selected, hprior, hcode], ?_⟩
    apply next.outputs
    rw [legs, List.dropLast_concat, hprior]
    exact List.mem_cons_self
  | work prior next front old new' was now legsWere legs hsame event =>
    -- the legs are the same ones, so the leg was there already
    simp only [was, now, Option.bind_some, OperationPreparationState.selected, legs, legsWere,
      List.find?_append, Option.or_eq_none_iff] at hbefore hafter
    rw [hbefore.1, Option.none_or, List.find?_singleton, hsame] at hafter
    rw [List.find?_singleton] at hbefore
    split at hafter
    next hleg => simp [hleg] at hbefore
    · cases hafter

/-- The kinds before a started command are those of the commands before it. -/
theorem earlier_eq {before after : SelectedPreparation} {command : PreparationCommand}
    (hgrown : after.commands = before.commands ++ [command]) :
    command.kind.earlier = before.commands.map (·.kind) := by
  have hafter := after.ordered
  rw [hgrown, List.map_append, before.ordered, List.length_append, List.length_singleton] at hafter
  rw [before.ordered]
  have hlength := congrArg List.length hafter
  simp only [List.map_cons, List.map_nil, List.length_append, List.length_take, commandOrder, List.length_cons, List.length_nil] at hlength
  obtain hn | hn | hn : before.commands.length = 0 ∨ before.commands.length = 1 ∨
      before.commands.length = 2 := by omega
  all_goals
    rw [hn] at hafter ⊢
    simp [commandOrder] at hafter
    rw [hafter]
    rfl

/-- What a command and its leg look like before and after an event. -/
inductive CommandEvent (before after : SelectedPreparation) (kind : PreparationCommandKind)
    (canStart : Bool) (worker exitedWorker : WorkerBinding) : Prop where
  | same (unchanged : after.command kind = before.command kind)
  | start (command : PreparationCommand) (mayStart : canStart = true)
      (absent : before.command kind = none) (now : after.command kind = some command)
      (fresh : command.terminal = none) (owner : command.owner = worker)
      (earlier : ∀ other ∈ kind.earlier, ∃ c, before.command other = some c ∧ c.succeeded = true)
  | observe (original observed : PreparationCommand) (was : before.command kind = some original)
      (now : after.command kind = some observed) (same : original.asStarted = observed.asStarted)
      (unseen : original.terminal = none)
      (owner : canStart = true ∨ original.owner = worker ∨ original.owner = exitedWorker)

theorem LegEvent.command {before after : SelectedPreparation}
    (h : LegEvent before after canStart worker exitedWorker) (kind : PreparationCommandKind) :
    CommandEvent before after kind canStart worker exitedWorker := by
  cases h with
  | output _ commands _ => exact .same (by rw [SelectedPreparation.command, commands]; rfl)
  | start command mayStart grown fresh owner _ =>
    have hafter : after.command kind =
        (before.command kind).or ([command].find? fun command => command.kind = kind) := by
      rw [SelectedPreparation.command, grown, List.find?_append]
      rfl
    cases habsent : before.command kind with
    | some found => exact .same (by rw [hafter, habsent]; rfl)
    | none =>
      by_cases hkind : command.kind = kind
      · refine .start command mayStart habsent (by simp [hafter, habsent, hkind]) fresh owner ?_
        intro other hother
        rw [← hkind, earlier_eq grown, List.mem_map] at hother
        obtain ⟨c, hc, hother⟩ := hother
        obtain ⟨found, hfound⟩ : ∃ found, before.command other = some found :=
          Option.isSome_iff_exists.mp (List.find?_isSome.mpr ⟨c, hc, by simp [hother]⟩)
        refine ⟨found, hfound, after.unblocked found ?_⟩
        rw [grown, List.dropLast_concat]
        exact List.mem_of_find?_eq_some hfound
      · exact .same (by simp [hafter, habsent, hkind])
  | observe front original observed was now same unseen owner _ =>
    have hkinds : observed.kind = original.kind :=
      (congrArg PreparationCommand.kind same).symm
    cases hfront : front.find? fun command => command.kind = kind with
    | some found =>
      exact .same (by simp [SelectedPreparation.command, was, now, List.find?_append, hfront])
    | none =>
      by_cases hkind : original.kind = kind
      · refine .observe original observed ?_ ?_ same unseen owner
        · simp [SelectedPreparation.command, was, List.find?_append, hfront, hkind]
        · simp [SelectedPreparation.command, now, List.find?_append, hfront, hkinds, hkind]
      · refine .same ?_
        simp [SelectedPreparation.command, was, now, List.find?_append, hfront, hkinds, hkind]

/-- An output closes a leg in which nothing was started, or in which all three
commands were observed. -/
theorem observed_of_output {before after : SelectedPreparation}
    (hcommands : after.commands = before.commands) (houtput : after.output ≠ none) :
    (∀ kind, before.command kind = none) ∨
    ∀ kind, ∃ command, before.command kind = some command ∧ command.terminal ≠ none := by
  by_cases hempty : before.commands = []
  · left
    intro kind
    rw [SelectedPreparation.command, hempty]
    rfl
  · right
    intro kind
    have hclosed := after.outputCommand houtput (hcommands ▸ hempty)
    rw [hcommands] at hclosed
    obtain ⟨hlength, hlast⟩ := hclosed
    have hkind : kind ∈ before.commands.map (·.kind) := by
      rw [before.ordered, hlength]
      cases kind <;> decide
    obtain ⟨c, hc, hck⟩ := List.mem_map.mp hkind
    obtain ⟨command, hcommand⟩ : ∃ command, before.command kind = some command :=
      Option.isSome_iff_exists.mp (List.find?_isSome.mpr ⟨c, hc, by simp [hck]⟩)
    refine ⟨command, hcommand, ?_⟩
    -- it is one of those before the last, which succeeded, or the last itself
    have hmem : command ∈ before.commands := List.mem_of_find?_eq_some hcommand
    rw [← List.dropLast_append_getLast hempty, List.mem_append, List.mem_singleton] at hmem
    obtain hmem | rfl := hmem
    · have hsucceeded := before.unblocked command hmem
      intro hnone
      simp [PreparationCommand.succeeded, hnone] at hsucceeded
    · exact hlast _ (List.getLast?_eq_getLast_of_ne_nil hempty ▸ rfl)

end event

/-! ## One write -/

/-- What a write may do to the private preparation. -/
structure PreparationStep (current updated : LifecycleOperationRecord) : Prop where
  /-- A command starts in a generation that runs, is not cancelled and is bound
  to the command's worker, after every earlier command of its leg succeeded. -/
  starts : ∀ leg kind, Starts leg kind current updated →
    MayStart current updated ∧ current.command leg kind = none ∧
    (∃ command, updated.command leg kind = some command ∧ command.terminal = none ∧
      command.owner = current.binding ∧ command.owner = updated.binding) ∧
    ∀ earlier ∈ kind.earlier, ∃ command, current.command leg earlier = some command ∧
      command.succeeded = true
  /-- What was started stays as it was started. -/
  started : ∀ leg kind command, current.command leg kind = some command →
    ∃ after, updated.command leg kind = some after ∧ after.asStarted = command.asStarted ∧
      (command.terminal ≠ none → after = command)
  /-- A terminal is recorded once. Where no command may start any more it is a
  late one, of the worker that the record names or of one proven to have exited. -/
  terminals : ∀ leg kind, RecordsTerminal leg kind current updated →
    ∃ command, current.command leg kind = some command ∧ command.terminal = none ∧
      (MayStart current updated ∨ command.owner = current.binding ∨
        ProvenExit current command.owner)
  secondLeg : current.selectedLeg .memoryContent = none →
    updated.selectedLeg .memoryContent ≠ none → current.preparedOutput .code ≠ none
  outputs : ∀ leg, SelectsOutput leg current updated → current.preparedOutput leg = none ∧
    ((∀ kind, current.command leg kind = none) ∨
      ∀ kind, ∃ command, current.command leg kind = some command ∧ command.terminal ≠ none)
  selected : ∀ leg reference, current.preparedOutput leg = some reference →
    updated.preparedOutput leg = some reference

/-- The event of a write, and who may report what was observed of a command. -/
theorem preparationEvent_of_write {store : LifecycleOperationStore}
    {current updated : LifecycleOperationRecord} {w : WriteCall}
    (h : store.write current w = some updated) : ∃ canStart exitedWorker,
      (canStart = true → MayStart current updated) ∧
      (∀ command : PreparationCommand, command.owner = exitedWorker →
        ProvenExit current command.owner) ∧
      PreparationEvent current.preparation updated.preparation canStart current.binding
        exitedWorker := by
  have henvelope := (write_accepted h).envelope
  simp only [validateIdentityAndEvidenceTransition, inOrder_cons_ok] at henvelope
  have htransition := henvelope.2.2.2.2.2.2.2.1
  simp only [validatePrivatePreparationTransition, inOrder_cons_ok] at htransition
  refine ⟨_, _, ?_, ?_, preparationEvent_of_transition htransition.2.2.1⟩
  · intro hstart
    simp only [Bool.and_eq_true, decide_eq_true_eq, Bool.not_eq_true'] at hstart
    obtain ⟨⟨⟨⟨⟨⟨⟨⟨hrun, hrun'⟩, hcancel⟩, hcancel'⟩, hactive⟩, hbound⟩, hpid⟩, hlease⟩,
      hprint⟩ := hstart
    exact ⟨⟨hrun, hrun'⟩, ⟨hcancel, hcancel'⟩, hactive, hbound, hpid, hlease, hprint⟩
  · intro command howner
    split at howner
    next termination htermination =>
      split at howner
      next hexited => exact ⟨termination, htermination, hexited, howner.symm⟩
      · cases howner
    · cases howner

theorem preparationStep_of_write {store : LifecycleOperationStore}
    {current updated : LifecycleOperationRecord} {w : WriteCall}
    (h : store.write current w = some updated) : PreparationStep current updated := by
  obtain ⟨canStart, exitedWorker, hmay, hexit, hevent⟩ := preparationEvent_of_write h
  have hleg := hevent.selected
  -- what the event is to a command, unless its leg has just been selected
  have hcommand : ∀ leg kind, updated.command leg kind = current.command leg kind ∨
      ∃ old new, current.selectedLeg leg = some old ∧ updated.selectedLeg leg = some new ∧
        CommandEvent old new kind canStart current.binding exitedWorker := by
    intro leg kind
    obtain hsame | ⟨hnone, new, hnew, hempty, -⟩ | ⟨old, new, hold, hnew, hevent⟩ := hleg leg
    · left
      rw [LifecycleOperationRecord.command, LifecycleOperationRecord.selectedLeg, hsame]
      rfl
    · left
      rw [LifecycleOperationRecord.command, LifecycleOperationRecord.selectedLeg, hnew,
        LifecycleOperationRecord.command, LifecycleOperationRecord.selectedLeg, hnone]
      simp [SelectedPreparation.command, hempty]
    · exact .inr ⟨old, new, hold, hnew, hevent.command kind⟩
  refine ⟨?starts, ?started, ?terminals, ?secondLeg, ?outputs, ?selected⟩
  case starts =>
    rintro leg kind ⟨hpresent, hchanged⟩
    obtain hsame | ⟨old, new, hold, hnew, hevent⟩ := hcommand leg kind
    · exact absurd (by rw [hsame]) hchanged
    simp only [LifecycleOperationRecord.command, hold, hnew, Option.bind_some] at hchanged ⊢
    cases hevent with
    | same unchanged => exact absurd (by rw [unchanged]) hchanged
    | start command mayStart absent now fresh owner earlier =>
      have hmayStart := hmay mayStart
      exact ⟨hmayStart, absent, ⟨command, now, fresh, owner, hmayStart.bound ▸ owner⟩, earlier⟩
    | observe original observed was now same _ _ =>
      exact absurd (by rw [was, now, Option.map_some, Option.map_some, same]) hchanged
  case started =>
    intro leg kind command hc
    obtain hsame | ⟨old, new, hold, hnew, hevent⟩ := hcommand leg kind
    · exact ⟨command, hsame ▸ hc, rfl, fun _ => rfl⟩
    simp only [LifecycleOperationRecord.command, hold, hnew, Option.bind_some] at hc ⊢
    cases hevent with
    | same unchanged => exact ⟨command, unchanged ▸ hc, rfl, fun _ => rfl⟩
    | start started _ absent _ _ _ _ => rw [absent] at hc; cases hc
    | observe original observed was now same unseen _ =>
      obtain rfl : original = command := Option.some.inj (was.symm.trans hc)
      exact ⟨observed, now, same.symm, fun hseen => absurd unseen hseen⟩
  case terminals =>
    rintro leg kind ⟨hseen, hchanged⟩
    obtain hsame | ⟨old, new, hold, hnew, hevent⟩ := hcommand leg kind
    · exact absurd (by rw [hsame]) hchanged
    simp only [LifecycleOperationRecord.command, hold, hnew, Option.bind_some] at hseen hchanged ⊢
    cases hevent with
    | same unchanged => exact absurd (by rw [unchanged]) hchanged
    | start command _ _ now fresh _ _ => exact absurd (by rw [now]; exact fresh) hseen
    | observe original observed was now same unseen owner =>
      refine ⟨original, was, unseen, ?_⟩
      obtain hstart | howner | howner := owner
      · exact .inl (hmay hstart)
      · exact .inr (.inl howner)
      · exact .inr (.inr (hexit original howner))
  case secondLeg =>
    intro hnone hsome
    obtain ⟨new, hnew⟩ := Option.ne_none_iff_exists'.mp hsome
    obtain ⟨selected, hselected, houtput⟩ := hevent.later_leg hnone hnew
    simpa [LifecycleOperationRecord.preparedOutput, LifecycleOperationRecord.selectedLeg,
      hselected] using houtput
  case outputs =>
    rintro leg ⟨hpresent, hchanged⟩
    simp only [LifecycleOperationRecord.preparedOutput, LifecycleOperationRecord.command,
      LifecycleOperationRecord.selectedLeg] at hpresent hchanged ⊢
    obtain hsame | ⟨hnone, new, hnew, -, hempty⟩ | ⟨old, new, hold, hnew, hevent⟩ := hleg leg
    · exact absurd (by rw [hsame]) hchanged
    · exact absurd (by rw [hnew]; exact hempty) hpresent
    simp only [hold, hnew, Option.bind_some] at hpresent hchanged ⊢
    cases hevent with
    | output _ commands unselected =>
      exact ⟨unselected, observed_of_output commands hpresent⟩
    | start _ _ _ _ _ output => exact absurd output hchanged
    | observe _ _ _ _ _ _ _ _ output => exact absurd output hchanged
  case selected =>
    intro leg reference hreference
    simp only [LifecycleOperationRecord.preparedOutput,
      LifecycleOperationRecord.selectedLeg] at hreference ⊢
    obtain hsame | ⟨hnone, -⟩ | ⟨old, new, hold, hnew, hevent⟩ := hleg leg
    · rw [hsame, hreference]
    · rw [hnone] at hreference; cases hreference
    simp only [hold, hnew, Option.bind_some] at hreference ⊢
    cases hevent with
    | output _ _ unselected => rw [unselected] at hreference; cases hreference
    | start _ _ _ _ _ output => rw [output, hreference]
    | observe _ _ _ _ _ _ _ _ output => rw [output, hreference]

/-! ## Runs -/

/-- Private preparation commands start at most once and in order, under every
run of writes. -/
theorem private_commands_start_once (store : LifecycleOperationStore)
    (r s : LifecycleOperationRecord) (ls : List WriteCall)
    (hrun : Runs.run store.write r ls = some s) :
    (∀ leg kind, Runs.count store.write (Starts leg kind) r ls ≤ 1) ∧
    (∀ leg, Runs.count store.write (SelectsOutput leg) r ls ≤ 1) ∧
    Runs.Along store.write (fun current _ updated => PreparationStep current updated) r ls ∧
    (∀ leg kind command, r.command leg kind = some command → command.terminal ≠ none →
      s.command leg kind = some command) := by
  refine ⟨?once, ?outputs, ?steps, ?terminals⟩
  case once =>
    intro leg kind
    refine (Runs.count_le_one (Q := fun record => record.command leg kind ≠ none) ?_ ?_ r ls).1
    · intro current w updated hw hpresent
      obtain ⟨command, hcommand⟩ := Option.ne_none_iff_exists'.mp hpresent
      obtain ⟨after, hafter, -⟩ := (preparationStep_of_write hw).started leg kind command hcommand
      simp [hafter]
    · intro current w updated hw hstarts
      obtain ⟨-, habsent, ⟨command, hcommand, -⟩, -⟩ :=
        (preparationStep_of_write hw).starts leg kind hstarts
      simp [habsent, hcommand]
  case outputs =>
    intro leg
    refine (Runs.count_le_one (Q := fun record => record.preparedOutput leg ≠ none) ?_ ?_ r ls).1
    · intro current w updated hw hpresent
      obtain ⟨reference, hreference⟩ := Option.ne_none_iff_exists'.mp hpresent
      simp [(preparationStep_of_write hw).selected leg reference hreference]
    · intro current w updated hw hselects
      exact ⟨not_not.mpr ((preparationStep_of_write hw).outputs leg hselects).1, hselects.1⟩
  case steps =>
    apply Runs.along_of_forall
    intro pre w post _ current updated _ hw
    exact preparationStep_of_write hw
  case terminals =>
    intro leg kind command hcommand hterminal
    refine Runs.Reachable.invariant (I := fun record => record.command leg kind = some command)
      ?_ hcommand ⟨ls, hrun⟩
    intro current w updated hkept hw
    obtain ⟨after, hafter, -, hsame⟩ :=
      (preparationStep_of_write hw).started leg kind command hkept
    rw [hafter, hsame hterminal]

/-! ## A first command -/

/-- A code leg with its intent alone. -/
def codeIntent : SelectedPreparation where
  leg := .code
  intent := storedObject .preparationIntent "e1"
  isIntent := rfl
  isOutput := by simp
  ordered := rfl
  unblocked := by simp
  outputCommand := by simp

/-- A started command that makes the worktree. -/
def createCommand : PreparationCommand where
  kind := .create
  cwd := "/coord/private"
  argv := ["git", "worktree", "add"]
  workerPid := 4242
  workerLease := "l1"
  workerProcessFingerprint := "p1"
  startedAt := "2026-08-24T00:01:00+00:00"

/-- A preparation of the code leg. -/
def codePreparation (selected : SelectedPreparation) (isCode : selected.leg = .code) :
    OperationPreparationState where
  operationKey := "k1"
  generation := 1
  legs := [selected]
  nonempty := by simp
  ordered := by simp [isCode, legOrder]
  outputs := by simp

/-- A closeout whose worker is about to prepare the code leg. -/
def preparingCloseout : LifecycleOperationRecord :=
  { memoryCloseout with
    phase := .recoveringPrivatePreparation
    workerPid := some 4242
    workerLease := some "l1"
    workerProcessFingerprint := some "p1"
    certification := some redSelection
    preparation := some (codePreparation codeIntent rfl) }

/-- A write that starts the command. -/
def startCreate : WriteCall :=
  .update fun record => .ok
    { record with
      preparation := some (codePreparation
        { codeIntent with
          commands := [createCommand]
          ordered := rfl
          unblocked := by simp
          outputCommand := by simp [codeIntent] } rfl) }

theorem private_commands_start_once_create :
    ∃ s, Runs.run closeoutStore.write preparingCloseout [startCreate, heartbeat] = some s ∧
      s.command .code .create = some createCommand ∧
      ((∀ leg kind, Runs.count closeoutStore.write (Starts leg kind) preparingCloseout
          [startCreate, heartbeat] ≤ 1) ∧
        (∀ leg, Runs.count closeoutStore.write (SelectsOutput leg) preparingCloseout
          [startCreate, heartbeat] ≤ 1) ∧
        Runs.Along closeoutStore.write (fun current _ updated => PreparationStep current updated)
          preparingCloseout [startCreate, heartbeat] ∧
        ∀ leg kind command, preparingCloseout.command leg kind = some command →
          command.terminal ≠ none → s.command leg kind = some command) := by
  have hrun : ((Runs.run closeoutStore.write preparingCloseout [startCreate, heartbeat]).map
      fun s => s.command .code .create) = some (some createCommand) := by
    decide +kernel
  obtain ⟨s, hs, hcommand⟩ := Option.map_eq_some_iff.mp hrun
  exact ⟨s, hs, hcommand, private_commands_start_once closeoutStore preparingCloseout s _ hs⟩

end AgentsRemember.Lifecycle
