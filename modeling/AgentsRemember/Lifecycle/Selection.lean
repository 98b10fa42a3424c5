import AgentsRemember.Foundation.Runs
import AgentsRemember.Lifecycle.Transition

/-!
# Lifecycle — Selection

The certification selection of one operation generation, under any sequence of
selections that `validateCertificationTransition` lets through. A pairwise check
of two snapshots composes into one history: what is certified stays, and what
is replaced is kept.
-/

namespace AgentsRemember.Lifecycle

open Checks

/-- What is to be selected, and whether the operation may select. -/
structure SelectionCall where
  after : Option OperationCertificationState
  canSelect : Bool

/-- One selection; none where it is refused. -/
def selectCertification (operationKey : String) (generation : Nat)
    (before : Option OperationCertificationState) (call : SelectionCall) :
    Option (Option OperationCertificationState) :=
  match validateCertificationTransition before call.after operationKey generation
    call.canSelect with
  | .ok () => some call.after
  | .error _ => none

/-! ## What was replaced -/

/-- The terminals that are not at their place any more. -/
def replacedTerminals : List SelectedGateTerminal → List SelectedGateTerminal →
    List SelectedGateTerminal
  | [], _ => []
  | before, [] => before
  | old :: before, new :: after =>
    if old = new then replacedTerminals before after else old :: replacedTerminals before after

/-- The results a selection puts another in place of. -/
def replacedBetween (before after : Option OperationCertificationState) :
    List SelectedGateTerminal :=
  match before, after with
  | some before, some after => replacedTerminals before.terminals after.terminals
  | _, _ => []

/-- The terminals replaced along a run, in the order of their replacement. -/
def replacedAlong (start : Option OperationCertificationState) :
    List SelectionCall → List SelectedGateTerminal
  | [] => []
  | call :: calls => replacedBetween start call.after ++ replacedAlong call.after calls

@[simp] theorem replacedTerminals_append (terminals suffix : List SelectedGateTerminal) :
    replacedTerminals terminals (terminals ++ suffix) = [] := by
  induction terminals with
  | nil => rfl
  | cons terminal terminals ih => simp [replacedTerminals, ih]

@[simp] theorem replacedTerminals_self (terminals : List SelectedGateTerminal) :
    replacedTerminals terminals terminals = [] := by
  simpa using replacedTerminals_append terminals []

theorem replacedTerminals_last (front suffix : List SelectedGateTerminal)
    {old new : SelectedGateTerminal} (h : old ≠ new) :
    replacedTerminals (front ++ [old]) (front ++ new :: suffix) = [old] := by
  induction front with
  | nil => simp [replacedTerminals, h]
  | cons terminal front ih => simp [replacedTerminals, ih]

/-! ## One selection -/

/-- What a selection does to the terminals: it appends, or it also replaces the
last one, which has no certificate, and keeps it. -/
inductive TerminalStep (before after beforeHistory afterHistory : List SelectedGateTerminal) :
    Prop where
  | append (suffix : List SelectedGateTerminal) (grown : after = before ++ suffix)
      (history : afterHistory = beforeHistory)
  | replace (front suffix : List SelectedGateTerminal) (old new : SelectedGateTerminal)
      (was : before = front ++ [old]) (uncertified : old.certificate = none)
      (grown : after = front ++ new :: suffix) (changed : old ≠ new)
      (gate : new.gate = old.gate) (history : afterHistory = beforeHistory ++ [old])

theorem terminalStep_of_transition {replaced lost : String}
    {before after beforeHistory afterHistory : List SelectedGateTerminal}
    (h : validateTerminalTransition replaced lost before after beforeHistory afterHistory =
      .ok ()) : TerminalStep before after beforeHistory afterHistory := by
  unfold validateTerminalTransition at h
  by_cases hprefix : after.take before.length = before
  · rw [if_pos hprefix, refuseIf_ok, not_not] at h
    refine .append (after.drop before.length) ?_ h
    conv_lhs => rw [← List.take_append_drop before.length after, hprefix]
  · rw [if_neg hprefix] at h
    simp only [inOrder_cons_ok, inOrder_nil_ok, and_true] at h
    obtain ⟨hlast, hhistory⟩ := h
    cases hold : before.getLast? with
    | none => simp [hold] at hlast
    | some old =>
      obtain ⟨front, rfl⟩ : ∃ front, before = front ++ [old] :=
        List.getLast?_eq_some_iff.mp hold
      simp only [hold, refuseIf_ok, not_or, not_not, not_lt, List.length_append,
        List.length_singleton, Nat.add_sub_cancel, List.dropLast_concat] at hlast
      obtain ⟨huncertified, hlength, hfront, hgate⟩ := hlast
      obtain ⟨new, hnew, hgate⟩ := Option.map_eq_some_iff.mp hgate
      have hgrown : after = front ++ new :: after.drop (front.length + 1) := by
        obtain ⟨hlt, hget⟩ := List.getElem?_eq_some_iff.mp hnew
        conv_lhs => rw [← List.take_append_drop front.length after, hfront,
          List.drop_eq_getElem_cons hlt, hget]
      refine .replace front _ old new rfl huncertified hgrown ?_ hgate ?_
      · rintro rfl
        apply hprefix
        rw [hgrown, List.length_append, List.take_length_add_append]
        rfl
      · simpa using hhistory

/-- What a later selection keeps of an earlier one. -/
structure SelectionKept (earlier later : OperationCertificationState) : Prop where
  frozenRun : later.frozenRun = earlier.frozenRun
  candidateAuthorities : later.candidateAuthorities = earlier.candidateAuthorities
  lifecycleAdmission : later.lifecycleAdmission = earlier.lifecycleAdmission
  priorRedDisposition : later.priorRedDisposition = earlier.priorRedDisposition
  predecessor : later.predecessor = earlier.predecessor
  inputTerminals : later.inputTerminals = earlier.inputTerminals
  recoveryDecisions : earlier.recoveryDecisions <+: later.recoveryDecisions
  certified : ∀ (i : Nat) (terminal : SelectedGateTerminal), earlier.terminals[i]? = some terminal →
    terminal.certificate ≠ none → later.terminals[i]? = some terminal
  gates : earlier.terminals.map (·.gate) <+: later.terminals.map (·.gate)

theorem SelectionKept.refl (selected : OperationCertificationState) :
    SelectionKept selected selected :=
  ⟨rfl, rfl, rfl, rfl, rfl, rfl, List.prefix_rfl, fun _ _ h _ => h, List.prefix_rfl⟩

theorem SelectionKept.trans {a b c : OperationCertificationState} (hab : SelectionKept a b)
    (hbc : SelectionKept b c) : SelectionKept a c where
  frozenRun := hbc.frozenRun.trans hab.frozenRun
  candidateAuthorities := hbc.candidateAuthorities.trans hab.candidateAuthorities
  lifecycleAdmission := hbc.lifecycleAdmission.trans hab.lifecycleAdmission
  priorRedDisposition := hbc.priorRedDisposition.trans hab.priorRedDisposition
  predecessor := hbc.predecessor.trans hab.predecessor
  inputTerminals := hbc.inputTerminals.trans hab.inputTerminals
  recoveryDecisions := hab.recoveryDecisions.trans hbc.recoveryDecisions
  certified := by
    intro i terminal hterminal hcertified
    exact hbc.certified i terminal (hab.certified i terminal hterminal hcertified) hcertified
  gates := hab.gates.trans hbc.gates

section terminals
variable {before after beforeHistory afterHistory : List SelectedGateTerminal}

theorem TerminalStep.certified (h : TerminalStep before after beforeHistory afterHistory)
    {i : Nat} {terminal : SelectedGateTerminal} (hterminal : before[i]? = some terminal)
    (hcertified : terminal.certificate ≠ none) : after[i]? = some terminal := by
  cases h with
  | append suffix grown _ =>
    rw [grown]
    exact List.getElem?_append_left (List.getElem?_eq_some_iff.mp hterminal).1 ▸ hterminal
  | replace front suffix old new was uncertified grown =>
    rw [was] at hterminal
    rw [grown]
    have hi : i < front.length := by
      by_contra hi
      rw [List.getElem?_append_right (by omega)] at hterminal
      -- past the front there is only the uncertified terminal
      obtain rfl : old = terminal := by
        have hmem := List.mem_of_getElem? hterminal
        exact (List.mem_singleton.mp hmem).symm
      exact hcertified uncertified
    rw [List.getElem?_append_left hi] at hterminal ⊢
    exact hterminal

theorem TerminalStep.gates (h : TerminalStep before after beforeHistory afterHistory) :
    before.map (·.gate) <+: after.map (·.gate) := by
  cases h with
  | append suffix grown _ => rw [grown, List.map_append]; exact List.prefix_append _ _
  | replace front suffix old new was _ grown _ gate =>
    refine ⟨suffix.map (·.gate), ?_⟩
    rw [was, grown]
    simp [gate]

theorem TerminalStep.history (h : TerminalStep before after beforeHistory afterHistory) :
    afterHistory = beforeHistory ++ replacedTerminals before after ∧
      ∀ terminal ∈ replacedTerminals before after, terminal.certificate = none := by
  cases h with
  | append suffix grown history => simp [grown, history]
  | replace front suffix old new was uncertified grown changed _ history =>
    rw [was, grown, replacedTerminals_last front suffix changed]
    simpa using ⟨history, uncertified⟩

end terminals

/-- A selection over an earlier one leaves it alone, or its operation may
select and keeps everything but an uncertified last terminal. -/
structure SelectionStep (before : OperationCertificationState)
    (after : OperationCertificationState) : Prop where
  kept : SelectionKept before after
  history : after.terminalHistory =
    before.terminalHistory ++ replacedTerminals before.terminals after.terminals
  uncertified : ∀ terminal ∈ replacedTerminals before.terminals after.terminals,
    terminal.certificate = none

section selection
variable {operationKey : String} {generation : Nat}

theorem selectCertification_eq_some {before next : Option OperationCertificationState}
    {call : SelectionCall} (h : selectCertification operationKey generation before call = some next) :
    next = call.after ∧ validateCertificationTransition before call.after operationKey generation
      call.canSelect = .ok () := by
  unfold selectCertification at h
  split at h
  next hok => exact ⟨(Option.some.inj h).symm, hok⟩
  · cases h

theorem unchanged_of_not_canSelect {before next : Option OperationCertificationState}
    {call : SelectionCall} (h : selectCertification operationKey generation before call = some next)
    (hselect : call.canSelect = false) : next = before := by
  obtain ⟨rfl, hok⟩ := selectCertification_eq_some h
  unfold validateCertificationTransition at hok
  by_cases hsame : before = call.after
  · exact hsame.symm
  · rw [if_neg hsame] at hok
    split at hok
    · cases hok
    · simp [inOrder_cons_ok, hselect] at hok

theorem selectionStep_of_select {before : OperationCertificationState}
    {next : Option OperationCertificationState} {call : SelectionCall}
    (h : selectCertification operationKey generation (some before) call = some next) :
    ∃ after, next = some after ∧ SelectionStep before after := by
  obtain ⟨rfl, hok⟩ := selectCertification_eq_some h
  unfold validateCertificationTransition at hok
  by_cases hsame : some before = call.after
  · exact ⟨before, hsame.symm, .refl before, by simp, by simp⟩
  · rw [if_neg hsame] at hok
    split at hok
    · cases hok
    next after hafter =>
      simp only [inOrder_cons_ok, inOrder_nil_ok, and_true, refuseIf_ok, not_not] at hok
      obtain ⟨-, -, hrun, hcandidates, hadmission, hred, hpredecessor, hinputs, hdecisions,
        hterminals⟩ := hok
      have hstep := terminalStep_of_transition hterminals
      exact ⟨after, hafter, ⟨hrun.symm, hcandidates.symm, hadmission.symm, hred.symm,
        hpredecessor.symm, hinputs.symm, List.prefix_iff_eq_take.mpr hdecisions.symm,
        fun _ _ => hstep.certified, hstep.gates⟩, hstep.history.1, hstep.history.2⟩

/-! ## A run of selections -/

/-- Selected certification terminals are append-only. -/
theorem selected_terminals_append_only (operationKey : String) (generation : Nat)
    (first : OperationCertificationState) (calls : List SelectionCall)
    (final : Option OperationCertificationState)
    (hrun : Runs.run (selectCertification operationKey generation) (some first) calls =
      some final) :
    (∃ last, final = some last ∧ SelectionKept first last ∧
      last.terminalHistory = first.terminalHistory ++ replacedAlong (some first) calls ∧
      ∀ terminal ∈ replacedAlong (some first) calls, terminal.certificate = none) ∧
    Runs.Along (selectCertification operationKey generation)
      (fun before call after => call.canSelect = false → after = before) (some first) calls := by
  constructor
  · induction calls generalizing first with
    | nil =>
      cases hrun
      exact ⟨first, rfl, .refl first, by simp [replacedAlong], by simp [replacedAlong]⟩
    | cons call calls ih =>
      obtain ⟨next, hnext, hrest⟩ := Runs.run_cons_eq_some.mp hrun
      obtain ⟨after, rfl, hstep⟩ := selectionStep_of_select hnext
      have hafter : call.after = some after := (selectCertification_eq_some hnext).1.symm
      obtain ⟨last, hlast, hkept, hhistory, huncertified⟩ := ih after hrest
      refine ⟨last, hlast, hstep.kept.trans hkept, ?_, ?_⟩
      · simp [hhistory, hstep.history, replacedAlong, replacedBetween, hafter]
      · intro terminal hmem
        simp only [replacedAlong, replacedBetween, hafter, List.mem_append] at hmem
        exact hmem.elim (hstep.uncertified terminal) (huncertified terminal)
  · apply Runs.along_of_forall
    intro pre call post _ before after _ hselect hnot
    exact unchanged_of_not_canSelect hselect hnot

end selection

/-! ## A gate that is run again -/

/-- An object under one digest. -/
def storedObject (kind : CertificateObjectKind) (semanticDigest : String) :
    CertificateObjectReference :=
  ⟨kind, semanticDigest, semanticDigest, 64⟩

/-- The first attempt at gate 1 ended red. -/
def redTerminal : SelectedGateTerminal where
  gate := 1
  result := storedObject .resultManifest "a1"
  publication := ⟨"red", "b1"⟩
  isResult := rfl
  isCertificate := by simp
  reusedIsCertified := by simp

/-- A green first gate. -/
def greenTerminal : SelectedGateTerminal where
  gate := 1
  result := storedObject .resultManifest "a2"
  certificate := some (storedObject .certificate "c2")
  publication := ⟨"green", "b2"⟩
  isResult := rfl
  isCertificate := by simp [storedObject]
  reusedIsCertified := by simp

/-- A selection with a red first gate. -/
def redSelection : OperationCertificationState where
  operationKey := "k1"
  generation := 1
  frozenRun := storedObject .frozenRun "f1"
  candidateAuthorities := storedObject .candidateAuthorities "f2"
  lifecycleAdmission := storedObject .lifecycleAdmission "f3"
  recoveryDecisions := [⟨storedObject .recovery "d1", none, rfl⟩]
  terminals := [redTerminal]
  sizes := by decide
  kinds := by simp [storedObject]
  adjacentDiffer := by simp
  gates := by decide
  inheritsFrom := by simp
  history := by decide

/-- The selection with the red gate replaced. -/
def greenSelection : OperationCertificationState :=
  { redSelection with
    terminals := [greenTerminal]
    terminalHistory := [redTerminal]
    sizes := by decide
    gates := by decide
    history := by decide }

theorem selected_terminals_append_only_rerun :
    (∃ last, some greenSelection = some last ∧ SelectionKept redSelection last ∧
      last.terminalHistory = redSelection.terminalHistory ++
        replacedAlong (some redSelection) [⟨some greenSelection, true⟩] ∧
      ∀ terminal ∈ replacedAlong (some redSelection) [⟨some greenSelection, true⟩],
        terminal.certificate = none) ∧
    Runs.Along (selectCertification "k1" 1)
      (fun before call after => call.canSelect = false → after = before) (some redSelection)
      [⟨some greenSelection, true⟩] :=
  selected_terminals_append_only "k1" 1 redSelection [⟨some greenSelection, true⟩]
    (some greenSelection) (by decide +kernel)

end AgentsRemember.Lifecycle
