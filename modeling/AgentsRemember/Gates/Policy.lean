import AgentsRemember.Gates.Records

/-!
# Gates — Policy

The delegation policy (`kernel/primitives/gate_policy.py`) and its reading of
a recorded decision (`controlplane/gate_policy.py`): a human approval always
binds, another only when the policy delegates the gate's kind to the deciding
role and the decider is not the lifecycle that owns the gate. Each refusal is
the message the caller sees; a role that is no role raises, and the message
is the one of the error.
-/

namespace AgentsRemember.Gates

/-! ## Quoting -/

/-- A byte in hexadecimal. -/
def hexPair (n : Nat) : List Char := [Json.hexDigit (n / 16), Json.hexDigit (n % 16)]

/-- A character inside a quoted string; beyond ASCII a character stands for
itself. -/
def quoteChar (quote c : Char) : List Char :=
  if c = quote then ['\\', c]
  else if c = '\\' then ['\\', '\\']
  else if c = '\n' then ['\\', 'n']
  else if c = '\r' then ['\\', 'r']
  else if c = '\t' then ['\\', 't']
  else if c.toNat < 0x20 ∨ c.toNat = 0x7f then '\\' :: 'x' :: hexPair c.toNat
  else [c]

/-- A string as a message quotes it: in single quotes, or in double quotes
when it has single quotes and no double ones. -/
def quoted (s : String) : String :=
  let quote := if s.toList.contains '\'' && !s.toList.contains '"' then '"' else '\''
  String.ofList (quote :: (s.toList.flatMap (quoteChar quote) ++ [quote]))

/-- `repr` of a text or of `None`. -/
def quotedOption : Option String → String
  | none => "None"
  | some s => quoted s

/-! ## Rules -/

/-- The roles that decide. -/
inductive DecisionRole where
  | human | manager | orchestrator
  deriving DecidableEq

/-- The role as the record has it. -/
def DecisionRole.wire : DecisionRole → String
  | .human => "human"
  | .manager => "manager"
  | .orchestrator => "orchestrator"

/-- All roles. -/
def decisionRoles : List DecisionRole := [.human, .manager, .orchestrator]

/-- The name a human decision is recorded under. -/
def humanDecider : String := "developer"

/-- What the policy says of a kind. -/
structure GatePolicyRule where
  kind : GateKind
  delegatedRole : Option DecisionRole := none
  requireReviewerVerdict : Bool := false

/-- The rule lets a role decide. -/
def GatePolicyRule.allowsRole (rule : GatePolicyRule) (role : DecisionRole) : Bool :=
  role == .human || rule.delegatedRole == some role

/-- Rules in order; an unlisted kind is human-only. -/
structure GatePolicy where
  rules : List GatePolicyRule := []

/-- The rule of a kind; a kind without one delegates nothing. -/
def GatePolicy.ruleFor (policy : GatePolicy) (kind : GateKind) : GatePolicyRule :=
  (policy.rules.find? (·.kind = kind)).getD { kind := kind }

/-- Nothing is delegated. -/
def defaultGatePolicy : GatePolicy := {}

/-- A role read from a text. -/
def coerceDecisionRole (raw : String) : Except String DecisionRole :=
  match decisionRoles.find? (·.wire = raw) with
  | some role => .ok role
  | none => .error ("unknown decision role " ++ quoted raw
      ++ "; expected one of ['human', 'manager', 'orchestrator']")

/-! ## A recorded decision -/

/-- A reviewer's verdict is among the evidence. -/
def hasReviewerVerdictEvidence (gate : GateRecord) : Bool :=
  gate.evidenceRefs.any (·.kind == .reviewerVerdict)

/-- The role a recorded decision was made in. -/
def decisionRoleForGate (gate : GateRecord) : Except String (Option DecisionRole) :=
  if gate.decidedBy = some humanDecider then .ok (some .human)
  else
    match gate.decidedVia, gate.decidingRole with
    | some .orchestration, some role => (coerceDecisionRole role).map some
    | _, _ => .ok none

/-- Why the decision names no orchestration role, before any policy. -/
def decisionAttributionFailureReason (gate : GateRecord) : Option String :=
  if gate.decidedVia ≠ some .orchestration then
    some ("gate " ++ gate.id ++ " was not decided through orchestration")
  else if gate.decidedBy.getD "" = "" then
    some ("gate " ++ gate.id ++ " has no deciding lifecycle identity")
  else if gate.lifecycleId.getD "" ≠ "" ∧ gate.decidedBy = gate.lifecycleId then
    some ("gate " ++ gate.id ++ " cannot be decided by its owning lifecycle "
      ++ quotedOption gate.lifecycleId)
  else if gate.decidingRole = none then some ("gate " ++ gate.id ++ " has no deciding role")
  else none

/-- The refusal of an orchestration decision, or the error of its role. -/
def delegatedDecisionFailureReason (gate : GateRecord) (policy : GatePolicy) :
    Except String (Option String) :=
  match decisionAttributionFailureReason gate with
  | some reason => .ok (some reason)
  | none =>
    (coerceDecisionRole (gate.decidingRole.getD "")).map fun role =>
      let rule := policy.ruleFor gate.kind
      if !rule.allowsRole role || role == .human then
        some (gate.kind.wire ++ " is not delegated to role " ++ quoted role.wire)
      else if rule.requireReviewerVerdict && !hasReviewerVerdictEvidence gate then
        some (gate.kind.wire
          ++ " requires reviewer verdict evidence before delegated decisions")
      else none

/-- Why an approved gate does not satisfy the policy. -/
def approvalFailureReason (gate : GateRecord) (policy : GatePolicy) : Option String :=
  match decisionRoleForGate gate with
  | .error message => some message
  | .ok (some .human) => none
  | .ok none =>
    some (gate.kind.wire ++ " gate " ++ gate.id ++ " was approved by "
      ++ quotedOption gate.decidedBy
      ++ ", not the developer or a configured orchestration role")
  | .ok (some _) =>
    match delegatedDecisionFailureReason gate policy with
    | .ok failure => failure
    | .error message => some message

/-- The developer's approval satisfies every policy. -/
theorem approvalFailureReason_developer {gate : GateRecord}
    (h : gate.decidedBy = some humanDecider) (policy : GatePolicy) :
    approvalFailureReason gate policy = none := by
  simp [approvalFailureReason, decisionRoleForGate, h]

/-- **No self-approval.** What a model recorded outside the orchestration
channel satisfies no policy. -/
theorem approvalFailureReason_model {gate : GateRecord}
    (hby : gate.decidedBy ≠ some humanDecider) (hvia : gate.decidedVia ≠ some .orchestration)
    (policy : GatePolicy) : (approvalFailureReason gate policy).isSome = true := by
  have hrole : decisionRoleForGate gate = .ok none := by
    rw [decisionRoleForGate, if_neg hby]
    split
    · rename_i h _
      exact absurd h hvia
    · rfl
  simp [approvalFailureReason, hrole]

end AgentsRemember.Gates
