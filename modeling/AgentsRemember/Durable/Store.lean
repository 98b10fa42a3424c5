import AgentsRemember.Foundation.JsonRoundTrip
import AgentsRemember.Foundation.Lines
import AgentsRemember.Foundation.Runs
import Mathlib.Data.List.Basic

/-!
# Durable — Store

The durable JSONL log primitives (`controlplane/durable_store.py`) and the
stores over them: a record is one line of JSON, appended or written with the
whole log, and read back strictly, a line that does not validate failing the
read.

What the record library does to a record type is a `RecordModel`: the members
a record is dumped with, what a JSON value validates to, and its one promise,
that a dumped record validates to itself. The JSON text between the two is
the compact one that leaves non-ASCII characters as they are.
-/

namespace AgentsRemember.Durable

open Lines (splitlines universalNewlines blank)

/-- A text by its characters. -/
abbrev Text := List Char

/-! ## Record types -/

/-- A record type of the store: `model_dump(by_alias, exclude_none)` and
`model_validate`, with the library's promise that they are inverse. -/
structure RecordModel (ρ : Type) where
  modelDump : ρ → List (String × Json)
  modelValidate : Json → Option ρ
  unique : ∀ r, Json.Unique (.obj (modelDump r))
  validate_dump : ∀ r, modelValidate (.obj (modelDump r)) = some r

namespace RecordModel

variable {ρ : Type} (M : RecordModel ρ)

/-- A record as a line. -/
def modelDumpJson (r : ρ) : Text := Json.render (.obj (M.modelDump r))

/-- A line as a record. -/
def modelValidateJson (line : Text) : Option ρ := (Json.parse line).bind M.modelValidate

/-- Every character of every text of the record. -/
def texts (r : ρ) : Text := Json.chars (.obj (M.modelDump r))

end RecordModel

/-! ## The log primitives -/

/-- A log file: absent, or its text. -/
abbrev LogFile := Option Text

/-- A log as text mode reads it; a missing one is empty. -/
def readLogText (log : LogFile) : Text :=
  match log with
  | none => []
  | some text => universalNewlines text

/-- A line behind a log. -/
def appendLine (log : LogFile) (line : Text) : LogFile :=
  some (log.getD [] ++ (line ++ ['\n']))

/-- Some lines behind a log. -/
def appendLines (log : LogFile) (lines : List Text) : LogFile :=
  if lines.isEmpty then log else some (log.getD [] ++ Lines.join lines)

/-- A log of some lines. -/
def rewriteLines (lines : List Text) : LogFile := some (Lines.join lines)

/-- The strict read: every line of the log that is not blank, validated. -/
def readRecords {ρ : Type} (M : RecordModel ρ) (text : Text) : Option (List ρ) :=
  ((splitlines text).filter (fun line => !blank line)).mapM M.modelValidateJson

/-! ## Stores -/

/-- A store: a record type, the log each record goes to, and whether the
store validates a record once more before it writes it. -/
structure DurableStore (ρ π : Type) where
  model : RecordModel ρ
  logPath : ρ → π
  revalidates : Bool := false

/-- One write: a record, a batch to one log, or a whole log. -/
inductive Write (ρ π : Type) where
  | append (r : ρ)
  | appendBatch (path : π) (rs : List ρ)
  | rewrite (path : π) (rs : List ρ)

namespace DurableStore

variable {ρ π : Type} [DecidableEq π] (S : DurableStore ρ π)

/-- `_validated`: revalidate at the final write boundary. -/
def validated (r : ρ) : Option ρ :=
  if S.revalidates then S.model.modelValidate (.obj (S.model.modelDump r)) else some r

/-- A record, validated and appended. -/
def append (files : π → LogFile) (r : ρ) : Option (π → LogFile) :=
  (S.validated r).map fun r =>
    Function.update files (S.logPath r)
      (appendLine (files (S.logPath r)) (S.model.modelDumpJson r))

/-- Some records, validated and appended. -/
def appendBatch (files : π → LogFile) (path : π) (rs : List ρ) : Option (π → LogFile) :=
  (rs.mapM S.validated).map fun rs =>
    Function.update files path (appendLines (files path) (rs.map S.model.modelDumpJson))

/-- Some records, validated and written as the whole log. -/
def replace (files : π → LogFile) (path : π) (rs : List ρ) : Option (π → LogFile) :=
  (rs.mapM S.validated).map fun rs =>
    Function.update files path (rewriteLines (rs.map S.model.modelDumpJson))

/-- A log, read strictly. -/
def read (files : π → LogFile) (path : π) : Option (List ρ) :=
  readRecords S.model (readLogText (files path))

/-- A write of one of the three kinds. -/
def write (files : π → LogFile) : Write ρ π → Option (π → LogFile)
  | .append r => S.append files r
  | .appendBatch path rs => S.appendBatch files path rs
  | .rewrite path rs => S.replace files path rs

/-- The records one write leaves in a log, from those that were in it. -/
def recorded (held : π → List ρ) : Write ρ π → π → List ρ
  | .append r => Function.update held (S.logPath r) (held (S.logPath r) ++ [r])
  | .appendBatch path rs => Function.update held path (held path ++ rs)
  | .rewrite path rs => Function.update held path rs

/-- The records written to each log and not replaced since: what the store is
for. -/
def contents (ws : List (Write ρ π)) : π → List ρ :=
  ws.foldl S.recorded (fun _ => [])

/-- No log exists yet. -/
def noFiles : π → LogFile := fun _ => none

/-- Every log holds its records, a line each. -/
def Holds (held : π → List ρ) (files : π → LogFile) : Prop :=
  ∀ p, (files p).getD [] = Lines.join ((held p).map S.model.modelDumpJson)

/-! ## What the files hold -/

omit [DecidableEq π] in
@[simp] theorem validated_eq (r : ρ) : S.validated r = some r := by
  unfold validated
  split
  · exact S.model.validate_dump r
  · rfl

omit [DecidableEq π] in
theorem mapM_validated (rs : List ρ) : rs.mapM S.validated = some rs := by
  induction rs with
  | nil => rfl
  | cons r rs ih => simp [List.mapM_cons, ih]

theorem join_append (ls ks : List Text) :
    Lines.join (ls ++ ks) = Lines.join ls ++ Lines.join ks := List.flatMap_append

/-- Writing raises nothing, and the files hold what is recorded. -/
theorem Holds.write {held : π → List ρ} {files : π → LogFile} (h : S.Holds held files)
    (w : Write ρ π) : ∃ files', S.write files w = some files' ∧
      S.Holds (S.recorded held w) files' := by
  cases w with
  | append r =>
    refine ⟨_, by rw [DurableStore.write, append, validated_eq]; rfl, fun p => ?_⟩
    by_cases hp : p = S.logPath r
    · subst hp
      simp only [recorded, Function.update_self, appendLine, Option.getD_some, h _,
        List.map_append, join_append]
      simp [Lines.join]
    · simp only [recorded, Function.update_of_ne hp]
      exact h p
  | appendBatch path rs =>
    refine ⟨_, by rw [DurableStore.write, appendBatch, mapM_validated]; rfl, fun p => ?_⟩
    by_cases hp : p = path
    · subst hp
      simp only [recorded, Function.update_self, appendLines, List.map_append, join_append]
      cases rs with
      | nil => simpa [Lines.join] using h p
      | cons r rs => simp [h p]
    · simp only [recorded, Function.update_of_ne hp]
      exact h p
  | rewrite path rs =>
    refine ⟨_, by rw [DurableStore.write, replace, mapM_validated]; rfl, fun p => ?_⟩
    by_cases hp : p = path
    · subst hp
      simp [recorded, rewriteLines]
    · simp only [recorded, Function.update_of_ne hp]
      exact h p

theorem Holds.run {held : π → List ρ} {files : π → LogFile} (h : S.Holds held files)
    (ws : List (Write ρ π)) : ∃ files', Runs.run S.write files ws = some files' ∧
      S.Holds (ws.foldl S.recorded held) files' := by
  induction ws generalizing held files with
  | nil => exact ⟨files, rfl, h⟩
  | cons w ws ih =>
    obtain ⟨files₁, hw, h₁⟩ := h.write S w
    obtain ⟨files₂, hr, h₂⟩ := ih h₁
    exact ⟨files₂, Runs.run_cons_eq_some.mpr ⟨files₁, hw, hr⟩, h₂⟩

/-- From no logs at all every sequence of writes goes through, and leaves
each log with the records written to it. -/
theorem run_holds (ws : List (Write ρ π)) :
    ∃ files, Runs.run S.write noFiles ws = some files ∧ S.Holds (S.contents ws) files :=
  Holds.run S (fun _ => rfl) ws

end DurableStore

end AgentsRemember.Durable
