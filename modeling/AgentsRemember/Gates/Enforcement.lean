import AgentsRemember.Foundation.Keyed
import AgentsRemember.Foundation.Newest
import AgentsRemember.Gates.Policy
import Mathlib.Data.String.Basic

/-!
# Gates — Enforcement

The verdict on one lifecycle's gates (`controlplane/enforcement.py`): of the
gates of a kind the latest snapshot governs, and only a policy-valid approval,
or its own recovery, lets the mutation through; without a gate of the kind the
verdict is permitted.

`evaluateGate_permitted` and `evaluateGate_gateId` are all that the other
modules know of the verdict: who governs, and whether that snapshot `grants`.
-/

namespace AgentsRemember.Gates

/-- The folded live gates, the latest snapshot of each id. -/
abbrev GateSet := List (String × GateRecord)

/-- The verdict on a kind. -/
structure GateGuard where
  kind : GateKind
  permitted : Bool
  reason : String
  gateId : Option String := none

/-- The gates of a kind. -/
def relevant (gates : GateSet) (kind : GateKind) : List GateRecord :=
  (gates.map Prod.snd).filter (·.kind = kind)

/-- The latest matching snapshot; of equal times the first in the fold. -/
def governing (gates : GateSet) (kind : GateKind) : Option GateRecord :=
  (relevant gates kind).argmax (·.ts)

/-- `evaluate_gate`: the verdict of the snapshot that governs. -/
def evaluateGate (gates : GateSet) (kind : GateKind) (policy : GatePolicy)
    (operationKey : Option String) : GateGuard :=
  match governing gates kind with
  | none =>
    { kind := kind, permitted := true
      reason := "no " ++ kind.wire ++ " gate; existing approval channel governs" }
  | some gate =>
    match gate.state with
    | .approved =>
      match approvalFailureReason gate policy with
      | none =>
        { kind := kind, permitted := true
          reason := kind.wire ++ " gate approved by policy-valid decider"
          gateId := some gate.id }
      | some failure =>
        { kind := kind, permitted := false, reason := failure, gateId := some gate.id }
    | .opened =>
      { kind := kind, permitted := false
        reason := kind.wire ++ " gate " ++ gate.id ++ " is open; await a policy-valid decision "
          ++ "through the lifecycle gate channel"
        gateId := some gate.id }
    | .applied =>
      -- a claim goes on permitting the operation that made it
      let recovering := operationKey.isSome && gate.appliedOperation == operationKey
      { kind := kind, permitted := recovering
        reason :=
          if recovering then
            kind.wire ++ " gate " ++ gate.id ++ " is already bound to this recovering operation"
          else
            kind.wire ++ " gate " ++ gate.id
              ++ " was already applied; open a fresh gate for a new mutation"
        gateId := some gate.id }
    | state =>
      { kind := kind, permitted := false
        reason := kind.wire ++ " gate " ++ gate.id ++ " is " ++ state.wire ++ ": "
          ++ (match gate.decisionNote with
              | none => state.wire
              | some note => if note = "" then state.wire else note)
        gateId := some gate.id }

/-! ## What the verdict depends on -/

/-- A snapshot that lets an operation through while it governs. -/
def grants (policy : GatePolicy) (operationKey : Option String) (gate : GateRecord) : Bool :=
  match gate.state with
  | .approved => (approvalFailureReason gate policy).isNone
  | .applied => operationKey.isSome && gate.appliedOperation == operationKey
  | _ => false

/-- No gate of the kind, or its governing snapshot grants. -/
def permits (policy : GatePolicy) (operationKey : Option String) :
    Option GateRecord → Bool
  | none => true
  | some gate => grants policy operationKey gate

@[simp] theorem evaluateGate_permitted (gates : GateSet) (kind : GateKind)
    (policy : GatePolicy) (operationKey : Option String) :
    (evaluateGate gates kind policy operationKey).permitted
      = permits policy operationKey (governing gates kind) := by
  unfold evaluateGate
  cases governing gates kind with
  | none => rfl
  | some gate =>
    cases hs : gate.state with
    | approved =>
      cases hf : approvalFailureReason gate policy <;> simp [permits, grants, hs, hf]
    | _ => simp [permits, grants, hs]

@[simp] theorem evaluateGate_gateId (gates : GateSet) (kind : GateKind)
    (policy : GatePolicy) (operationKey : Option String) :
    (evaluateGate gates kind policy operationKey).gateId
      = (governing gates kind).map (·.id) := by
  unfold evaluateGate
  cases governing gates kind with
  | none => rfl
  | some gate =>
    cases hs : gate.state with
    | approved => cases hf : approvalFailureReason gate policy <;> simp [hs, hf]
    | _ => simp [hs]

theorem grants_state {policy : GatePolicy} {operationKey : Option String}
    {gate : GateRecord} (h : grants policy operationKey gate = true) :
    gate.state = .approved ∨ gate.state = .applied := by
  unfold grants at h
  split at h
  · exact .inl (by assumption)
  · exact .inr (by assumption)
  · cases h

/-! ## Who governs -/

theorem relevant_append (gates gates' : GateSet) (kind : GateKind) :
    relevant (gates ++ gates') kind = relevant gates kind ++ relevant gates' kind := by
  simp [relevant]

theorem relevant_cons (id : String) (gate : GateRecord) (gates : GateSet)
    (kind : GateKind) :
    relevant ((id, gate) :: gates) kind =
      if gate.kind = kind then gate :: relevant gates kind else relevant gates kind := by
  by_cases h : gate.kind = kind <;> simp [relevant, h]

theorem mem_relevant {gates : GateSet} {kind : GateKind} {gate : GateRecord} :
    gate ∈ relevant gates kind ↔ (∃ id, (id, gate) ∈ gates) ∧ gate.kind = kind := by
  simp [relevant]

theorem governing_mem {gates : GateSet} {kind : GateKind} {gate : GateRecord}
    (h : governing gates kind = some gate) :
    (∃ id, (id, gate) ∈ gates) ∧ gate.kind = kind :=
  mem_relevant.mp (List.argmax_mem h)

/-- The snapshot, put in place of its gate, is the newest of its kind: every
gate in front of it is older, none behind it is newer. -/
def Leads (gates : GateSet) (gate : GateRecord) : Prop :=
  (∀ g ∈ relevant (Keyed.front gates gate.id) gate.kind, g.ts < gate.ts) ∧
    (∀ g ∈ relevant (Keyed.behind gates gate.id) gate.kind, g.ts ≤ gate.ts)

instance (gates : GateSet) (gate : GateRecord) : Decidable (Leads gates gate) := by
  unfold Leads
  infer_instance

/-- The newest of the other gates of a kind. -/
def rival (gates : GateSet) (id : String) (kind : GateKind) : Option GateRecord :=
  governing (Keyed.erase gates id) kind

/-- After a snapshot is put in place it governs its kind if it leads; else
the others decide. -/
theorem governing_set {gates : GateSet} (hn : (gates.map Prod.fst).Nodup)
    (gate : GateRecord) (kind : GateKind) :
    governing (Keyed.set gates gate.id gate) kind =
      if gate.kind = kind ∧ Leads gates gate then some gate
      else rival gates gate.id kind := by
  rw [rival, governing, governing, Keyed.set_eq, Keyed.erase_eq hn, relevant_append,
    relevant_append, relevant_cons]
  by_cases hk : gate.kind = kind
  · subst hk
    rw [if_pos rfl, Newest.argmax_middle]
    by_cases hl : Leads gates gate
    · exact (if_pos hl).trans (if_pos ⟨rfl, hl⟩).symm
    · exact (if_neg hl).trans (if_neg (fun h => hl h.2)).symm
  · rw [if_neg hk, if_neg (fun h => hk h.1)]

theorem relevant_filter {gates : GateSet} (hid : ∀ e ∈ gates, e.2.id = e.1)
    (p : String → Bool) (kind : GateKind) :
    relevant (gates.filter (fun e => p e.1)) kind
      = (relevant gates kind).filter (fun g => p g.id) := by
  induction gates with
  | nil => rfl
  | cons e gates ih =>
    obtain ⟨id, g⟩ := e
    have hg : g.id = id := hid (id, g) (by simp)
    have ih := ih (fun e he => hid e (by simp [he]))
    rw [List.filter_cons]
    by_cases hp : p id = true
    · rw [if_pos hp, relevant_cons, relevant_cons, ih]
      by_cases hk : g.kind = kind <;> simp [hk, hg, hp]
    · rw [if_neg hp, relevant_cons, ih]
      by_cases hk : g.kind = kind <;> simp [hk, hg, hp]

/-- A gate kept by a filter on ids goes on governing. -/
theorem governing_filter {gates : GateSet} {kind : GateKind} {gate : GateRecord}
    {p : String → Bool} (hid : ∀ e ∈ gates, e.2.id = e.1)
    (h : governing gates kind = some gate) (hp : p gate.id = true) :
    governing (gates.filter (fun e => p e.1)) kind = some gate := by
  rw [governing, relevant_filter hid]
  exact Newest.argmax_filter h hp

/-- Where no gate is of the kind, none is after a filter. -/
theorem governing_filter_none {gates : GateSet} {kind : GateKind} {p : String → Bool}
    (hid : ∀ e ∈ gates, e.2.id = e.1) (h : governing gates kind = none) :
    governing (gates.filter (fun e => p e.1)) kind = none := by
  rw [governing, List.argmax_eq_none] at h
  rw [governing, relevant_filter hid, h]
  rfl

/-- Who governs after a filter passes it. -/
theorem governing_filter_pass {gates : GateSet} {kind : GateKind} {gate : GateRecord}
    {p : String → Bool} (hid : ∀ e ∈ gates, e.2.id = e.1)
    (h : governing (gates.filter (fun e => p e.1)) kind = some gate) :
    p gate.id = true := by
  rw [governing, relevant_filter hid] at h
  exact (List.mem_filter.mp (List.argmax_mem h)).2

end AgentsRemember.Gates
