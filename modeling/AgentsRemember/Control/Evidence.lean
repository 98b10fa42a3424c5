import AgentsRemember.Foundation.Datum
import AgentsRemember.Foundation.Watermark

/-!
# Control — Evidence

The evidence that an interrupt is settled from: the frames that a harness
leaves in the log, read one at a time in the dialect of that harness. Codex
names the turn that has ended. A Claude result and the stop reason of pi do not.
-/

namespace AgentsRemember.Control

/-- The three harnesses. -/
inductive HarnessId where
  | codex | claude | pi
deriving DecidableEq

/-- How an interrupt came out. -/
inductive Settlement where
  | pending | interrupted | alreadySettled | failed
deriving DecidableEq

/-- A settlement with the detail that is recorded beside it. -/
abbrev Outcome := Settlement × String

/-- A frame of the evidence log. -/
structure EvidenceFrame where
  sequence : Nat
  kind : String
  raw : List (String × Datum)

/-! ## Cells of a frame -/

/-- `value == text` -/
def isText (value : Option Datum) (text : String) : Bool :=
  match value with
  | some (.leaf (.str s)) => s == text
  | _ => false

/-- `value in texts`: a list and a dictionary cannot be looked up in a set. -/
def inTexts (value : Option Datum) (texts : List String) : Except String Bool :=
  match value with
  | some (.leaf (.str s)) => .ok (decide (s ∈ texts))
  | some (.list _) => .error "unhashable type: 'list'"
  | some (.dict _) => .error "unhashable type: 'dict'"
  | _ => .ok false

theorem isText_iff {value : Option Datum} {text : String} :
    isText value text = true ↔ value = some (.leaf (.str text)) := by
  unfold isText
  split
  next s => simp
  next hnot =>
    constructor
    · intro h; cases h
    · intro h; exact absurd h (hnot text)

/-! ## Codex -/

/-- The statuses a codex turn ends in. -/
def codexTerminalStatuses : List String := ["interrupted", "completed", "failed"]

/-- What the status of a codex turn says. -/
def codexStatusOutcome (status : Option Datum) : Outcome :=
  if isText status "interrupted" then
    (.interrupted, "native turn/completed interrupted the exact turn")
  else if isText status "completed" then
    (.alreadySettled, "the exact turn completed natively before interruption")
  else (.failed, "native turn/completed failed the exact turn")

/-- What one frame says of a codex turn. -/
def codexOutcome (turnId : String) (frame : EvidenceFrame) : Except String (Option Outcome) :=
  if frame.kind ≠ "completed" then .ok none
  else match frame.raw.lookup "turn" with
    | some (.dict turn) =>
      if isText (turn.lookup "id") turnId = false then .ok none
      else (inTexts (turn.lookup "status") codexTerminalStatuses).map fun terminal =>
        if terminal then some (codexStatusOutcome (turn.lookup "status")) else none
    | _ => .ok none

/-- The turn that a completed frame of codex names. -/
def codexTurn (frame : EvidenceFrame) : Option String :=
  match frame.raw.lookup "turn" with
  | some (.dict turn) =>
    match turn.lookup "id" with
    | some (.leaf (.str id)) => some id
    | _ => none
  | _ => none

/-! ## Claude -/

/-- The key of a result's explicit outcome. -/
def arTerminalOutcomeKey : String := "arTerminalOutcome"

/-- The reasons that mean a cancelled turn. -/
def claudeCancelReasons : List String := ["cancelled", "interrupted", "user_cancelled"]

/-- The value is `False`. -/
def isFalse : Option Datum → Bool
  | some (.leaf (.bool b)) => !b
  | _ => false

/-- `_claude_result_settlement`: the stamp of the adapter, and only without one the
native shape. -/
def claudeResultSettlement (frame : EvidenceFrame) : Except String Outcome :=
  let stamped := frame.raw.lookup arTerminalOutcomeKey
  if isText stamped "cancelled" then
    .ok (.interrupted,
      "the accepted interrupt correlated the exact Claude turn's error-shaped result")
  else if isText stamped "completed" then
    .ok (.alreadySettled, "the exact Claude turn completed natively before interruption")
  else if isText stamped "failed" then
    .ok (.failed, "the exact Claude turn's result failed without an accepted interrupt")
  else if isText (frame.raw.lookup "subtype") "success" && isFalse (frame.raw.lookup "is_error") then
    .ok (.alreadySettled, "the exact Claude turn completed natively before interruption")
  else (inTexts (frame.raw.lookup "terminal_reason") claudeCancelReasons).map fun cancelled =>
    if cancelled then (.interrupted, "native terminal_reason settled the exact Claude turn")
    else (.failed, "native result failed the exact Claude turn")

/-- What a Claude frame says, where it is a result. -/
def claudeOutcome (frame : EvidenceFrame) : Except String (Option Outcome) :=
  if frame.kind ≠ "completed" ∨ isText (frame.raw.lookup "type") "result" = false then .ok none
  else (claudeResultSettlement frame).map some

/-! ## Pi -/

/-- The stop reason of a frame of pi, where it carries one. -/
def stopReason (frame : EvidenceFrame) : Option String :=
  if isText (frame.raw.lookup "type") "message_end" = false then none
  else match frame.raw.lookup "message" with
    | some (.dict message) =>
      match message.lookup "stopReason" with
      | some (.leaf (.str candidate)) => if candidate = "" then none else some candidate
      | _ => none
    | _ => none

/-- What the stop reason of a pi turn says. -/
def piStopOutcome (stopReason : String) : Outcome :=
  if stopReason = "aborted" then
    (.interrupted, "native stopReason aborted settled the exact operation")
  else if stopReason = "error" then
    (.failed, "native stopReason error failed the exact operation")
  else (.alreadySettled, "the exact operation settled natively before the abort took effect")

/-! ## One reading for the three -/

/-- What a frame says of a turn: nothing, or how that turn has ended. -/
def frameOutcome (harness : HarnessId) (turnId : String) (frame : EvidenceFrame) :
    Except String (Option Outcome) :=
  match harness with
  | .codex => codexOutcome turnId frame
  | .claude => claudeOutcome frame
  | .pi => .ok ((stopReason frame).map piStopOutcome)

/-- The frame is a terminal event of the turn. -/
def EvidenceFrame.ends (frame : EvidenceFrame) (harness : HarnessId) (turnId : String) : Bool :=
  match frameOutcome harness turnId frame with
  | .ok (some _) => true
  | _ => false

/-- The frame is a terminal event of some turn. -/
def EvidenceFrame.terminal (frame : EvidenceFrame) (harness : HarnessId) : Bool :=
  match harness with
  | .codex => ((codexTurn frame).map (frame.ends .codex)).getD false
  | .claude => frame.ends .claude ""
  | .pi => frame.ends .pi ""

theorem ends_iff {frame : EvidenceFrame} {harness : HarnessId} {turnId : String} :
    frame.ends harness turnId = true ↔
      ∃ outcome, frameOutcome harness turnId frame = .ok (some outcome) := by
  unfold EvidenceFrame.ends
  split
  next outcome h => simp [h]
  next hnot =>
    constructor
    · intro h; cases h
    · rintro ⟨outcome, h⟩
      exact absurd h (hnot outcome)

theorem codexTurn_of_ends {frame : EvidenceFrame} {turnId : String}
    (h : frame.ends .codex turnId = true) : codexTurn frame = some turnId := by
  obtain ⟨outcome, h⟩ := ends_iff.mp h
  simp only [frameOutcome, codexOutcome] at h
  split at h
  · cases h
  · split at h
    next turn hturn =>
      split at h
      · cases h
      next hid =>
        have hid := isText_iff.mp (eq_true_of_ne_false hid)
        simp [codexTurn, hturn, hid]
    · cases h

theorem terminal_of_ends {frame : EvidenceFrame} {harness : HarnessId} {turnId : String}
    (h : frame.ends harness turnId = true) : frame.terminal harness = true := by
  cases harness with
  | codex => simp [EvidenceFrame.terminal, codexTurn_of_ends h, h]
  | claude => exact h
  | pi => exact h

/-- A frame of codex ends no other turn. -/
theorem codex_ends_unique {frame : EvidenceFrame} {turnId other : String}
    (h : frame.ends .codex turnId = true) (h' : frame.ends .codex other = true) :
    turnId = other :=
  Option.some.inj ((codexTurn_of_ends h).symm.trans (codexTurn_of_ends h'))

/-- Where no turn is named, a frame says the same of each. -/
theorem frameOutcome_unnamed {harness : HarnessId} (h : harness ≠ .codex) (turnId other : String)
    (frame : EvidenceFrame) :
    frameOutcome harness turnId frame = frameOutcome harness other frame := by
  cases harness with
  | codex => exact absurd rfl h
  | claude => rfl
  | pi => rfl

theorem settled_of_codexStatus (status : Option Datum) :
    (codexStatusOutcome status).1 ≠ .pending := by
  unfold codexStatusOutcome
  split
  · decide
  · split <;> decide

theorem settled_of_claudeResult {frame : EvidenceFrame} {outcome : Outcome}
    (h : claudeResultSettlement frame = .ok outcome) : outcome.1 ≠ .pending := by
  unfold claudeResultSettlement at h
  dsimp only at h
  split at h
  · cases h; decide
  split at h
  · cases h; decide
  split at h
  · cases h; decide
  split at h
  · cases h; decide
  cases hin : inTexts (frame.raw.lookup "terminal_reason") claudeCancelReasons with
  | error e => rw [hin] at h; cases h
  | ok cancelled =>
    rw [hin] at h
    cases h
    cases cancelled <;> decide

/-- What a terminal event says is a settlement. -/
theorem settled_of_frameOutcome {harness : HarnessId} {turnId : String} {frame : EvidenceFrame}
    {outcome : Outcome} (h : frameOutcome harness turnId frame = .ok (some outcome)) :
    outcome.1 ≠ .pending := by
  cases harness with
  | codex =>
    simp only [frameOutcome, codexOutcome] at h
    split at h
    · cases h
    split at h
    next turn _ =>
      split at h
      · cases h
      cases hin : inTexts (turn.lookup "status") codexTerminalStatuses with
      | error e => rw [hin] at h; cases h
      | ok terminal =>
        rw [hin] at h
        cases terminal with
        | true =>
          cases h
          exact settled_of_codexStatus _
        | false => cases h
    · cases h
  | claude =>
    simp only [frameOutcome, claudeOutcome] at h
    split at h
    · cases h
    cases hresult : claudeResultSettlement frame with
    | error e => rw [hresult] at h; cases h
    | ok result =>
      rw [hresult] at h
      cases h
      exact settled_of_claudeResult hresult
  | pi =>
    simp only [frameOutcome, Except.ok.injEq, Option.map_eq_some_iff] at h
    obtain ⟨reason, -, rfl⟩ := h
    unfold piStopOutcome
    split
    · decide
    · split <;> decide

end AgentsRemember.Control
