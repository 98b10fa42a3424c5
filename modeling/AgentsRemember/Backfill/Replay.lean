import AgentsRemember.Foundation.Lines
import Mathlib.Data.List.Dedup
import Mathlib.Data.List.DropRight

/-!
# Backfill — Replay

How one commit is read and written again: its fields through the log format
and text mode, its message with or without the trailer, its author and
committer through the environment of `commit-tree`.
-/

namespace AgentsRemember.Backfill

variable {κ ι : Type}

/-- A commit, its message as the log shows it. `extra` are the headers that
`commit-tree` does not write, a signature or an encoding. -/
structure CommitObject (κ ι : Type) where
  tree : String
  parents : List κ
  author : ι
  committer : ι
  extra : List Char
  message : List Char
  deriving DecidableEq

/-- What a commit is to git: its name is taken from its content, `%an`, `%ae`
and `%ai` print an identity, and `commit-tree` reads one from a name, an email
and a date or refuses them. -/
structure Git (κ ι : Type) where
  oid : CommitObject κ ι → κ
  oid_injective : Function.Injective oid
  name : ι → List Char
  email : ι → List Char
  date : ι → List Char
  person : List Char → List Char → List Char → Option ι

/-! ## Reading -/

/-- The text without newlines at its end. -/
def rstripNewlines (s : List Char) : List Char := s.rdropWhile fun c => c = '\n'

/-- The fields of one commit: printed on one line by the log, read in text
mode, and split again. -/
def commitFields (fields : List (List Char)) : List (List Char) :=
  (rstripNewlines (Lines.universalNewlines (['\x1f'].intercalate fields ++ ['\n']))).splitOn '\x1f'

/-- A field of the log. -/
def commitField (field : List Char) : List Char := (commitFields [field]).headD []

/-- The message as it is read. -/
def message (commit : CommitObject κ ι) : List Char := rstripNewlines (commitField commit.message)

/-! ## Writing -/

/-- The trailer as it is written. -/
def trailer (codeCommit : List Char) : List Char := "Code-Commit: ".toList ++ codeCommit

/-- The body verbatim, then the attribution. -/
def renderMemoryContentMessage (body codeCommit : List Char) : List Char :=
  body ++ "\n\n".toList ++ trailer codeCommit

/-- The message `commit-tree` is given on its input. -/
def recorded (commit : CommitObject κ ι) (codeCommit : Option (List Char)) : List Char :=
  (match codeCommit with
    | none => message commit
    | some codeCommit => renderMemoryContentMessage (message commit) codeCommit) ++ ['\n']

/-- The author and the committer that `commit-tree` takes from the replayed
identity, unless the fields do not come apart again or git refuses them. -/
def replay (git : Git κ ι) (commit : CommitObject κ ι) : Option (ι × ι) :=
  match commitFields [git.name commit.author, git.email commit.author, git.date commit.author,
      git.name commit.committer, git.email commit.committer, git.date commit.committer] with
  | [authorName, authorEmail, authorDate, committerName, committerEmail, committerDate] => do
    let author ← git.person authorName authorEmail authorDate
    let committer ← git.person committerName committerEmail committerDate
    return (author, committer)
  | _ => none

/-- The commit `_rebuild` has written. A parent that was given already is
left out by `commit-tree`. -/
def rebuilt [DecidableEq κ] (git : Git κ ι) (commit : CommitObject κ ι) (parents : List κ)
    (codeCommit : Option (List Char)) : Option (CommitObject κ ι) :=
  (replay git commit).map fun who =>
    { tree := commit.tree
      parents := parents.reverse.dedup.reverse
      author := who.1
      committer := who.2
      extra := []
      message := recorded commit codeCommit }

/-! ## What a message loses -/

/-- A message without the characters that reading it changes, and without a
newline at its end. -/
structure Plain (body : List Char) : Prop where
  noReturn : '\r' ∉ body
  noUnit : '\x1f' ∉ body
  noFeed : body.getLast? ≠ some '\n'

theorem headD_splitOn (s : List Char) (c : Char) :
    (s.splitOn c).headD [] = s.takeWhile fun d => d != c := by
  induction s with
  | nil => rfl
  | cons d s ih =>
    rw [List.splitOn_cons_eq_if_modifyHead]
    by_cases hd : d = c
    · simp [hd]
    · obtain ⟨h, t, hsplit⟩ := List.exists_cons_of_ne_nil (List.splitOn_ne_nil c s)
      rw [hsplit] at ih ⊢
      have htake : h = s.takeWhile fun d => d != c := ih
      simp [hd, htake]

theorem rstripNewlines_append (s : List Char) (k : Nat) :
    rstripNewlines (s ++ List.replicate k '\n') = rstripNewlines s := by
  induction k with
  | zero => rw [List.replicate_zero, List.append_nil]
  | succ k ih =>
    rw [List.replicate_succ', ← List.append_assoc]
    exact (List.rdropWhile_concat_pos _ _ _ (by simp)).trans ih

theorem getLast?_rstripNewlines (s : List Char) : (rstripNewlines s).getLast? ≠ some '\n' := by
  intro h
  have hne : rstripNewlines s ≠ [] := by
    intro hnil
    rw [hnil] at h
    cases h
  have hlast := List.rdropWhile_last_not (fun c => decide (c = '\n')) s hne
  rw [List.getLast?_eq_some_getLast hne, Option.some.injEq] at h
  exact hlast (decide_eq_true h)

theorem Plain.rstripNewlines {body : List Char} (h : Plain body) :
    rstripNewlines body = body := by
  refine List.rdropWhile_eq_self_iff.mpr fun hne hlast => h.noFeed ?_
  rw [List.getLast?_eq_some_getLast hne, of_decide_eq_true hlast]

theorem commitField_eq (field : List Char) : commitField field =
    (rstripNewlines (Lines.universalNewlines (field ++ ['\n']))).takeWhile fun d => d != '\x1f' := by
  rw [commitField, commitFields, headD_splitOn, List.intercalate_singleton]

theorem plain_message (commit : CommitObject κ ι) : Plain (message commit) := by
  have hfield : ∀ c ∈ message commit, c ∈ commitField commit.message := fun c hc =>
    (List.rdropWhile_prefix _ _).subset hc
  refine ⟨?_, ?_, getLast?_rstripNewlines _⟩
  · intro hc
    have hin := hfield _ hc
    rw [commitField_eq] at hin
    have hread := (List.rdropWhile_prefix _ _).subset (List.takeWhile_subset _ hin)
    exact Lines.cr_not_mem_universalNewlines _ hread
  · intro hc
    have hin := hfield _ hc
    rw [commitField_eq] at hin
    simpa using List.mem_takeWhile_imp hin

/-- A plain message is read as it stands, whatever newlines follow it. -/
theorem message_of_plain {commit : CommitObject κ ι} {body : List Char} (h : Plain body) {k : Nat}
    (hmessage : commit.message = body ++ List.replicate k '\n') : message commit = body := by
  have hnoReturn : '\r' ∉ commit.message ++ ['\n'] := by
    rw [hmessage]
    simp [h.noReturn]
  have hstrip : rstripNewlines (commit.message ++ ['\n']) = body := by
    rw [show ['\n'] = List.replicate 1 '\n' from rfl, rstripNewlines_append, hmessage,
      rstripNewlines_append, h.rstripNewlines]
  have htake : body.takeWhile (fun d => d != '\x1f') = body := by
    rw [List.takeWhile_eq_self_iff]
    intro c hc
    simp only [bne_iff_ne, ne_eq]
    rintro rfl
    exact h.noUnit hc
  rw [message, commitField_eq, Lines.universalNewlines_of_no_cr hnoReturn, hstrip, htake,
    h.rstripNewlines]

/-- A message is written as it was when it is plain up to one newline. -/
theorem recorded_none_eq_iff (commit : CommitObject κ ι) :
    recorded commit none = commit.message ↔
      ∃ body, Plain body ∧ commit.message = body ++ List.replicate 1 '\n' := by
  constructor
  · intro h
    exact ⟨message commit, plain_message commit, h.symm⟩
  · rintro ⟨body, hplain, hmessage⟩
    rw [recorded, message_of_plain hplain hmessage, hmessage]
    rfl

/-- What the trailer adds to a message: its own line, behind newlines. -/
def Appended (old codeCommit new : List Char) : Prop :=
  ∃ k, new = old ++ List.replicate k '\n' ++ trailer codeCommit ++ ['\n']

/-- With a trailer, a plain message may be followed by two newlines at most. -/
theorem appended_recorded_iff (commit : CommitObject κ ι) (codeCommit : List Char) :
    Appended commit.message codeCommit (recorded commit (some codeCommit)) ↔
      ∃ body, Plain body ∧ ∃ k ≤ 2, commit.message = body ++ List.replicate k '\n' := by
  have hrecorded : recorded commit (some codeCommit) =
      message commit ++ List.replicate 2 '\n' ++ trailer codeCommit ++ ['\n'] := rfl
  constructor
  · rintro ⟨j, hj⟩
    rw [hrecorded] at hj
    have hbody : message commit ++ List.replicate 2 '\n' =
        commit.message ++ List.replicate j '\n' :=
      List.append_cancel_right (List.append_cancel_right hj)
    have hplain := plain_message commit
    refine ⟨message commit, hplain, ?_⟩
    by_cases hle : j ≤ 2
    · refine ⟨2 - j, by omega, ?_⟩
      have hsplit : List.replicate 2 '\n' = List.replicate (2 - j) '\n' ++ List.replicate j '\n' := by
        rw [← List.replicate_add]
        congr 1
        omega
      rw [hsplit, ← List.append_assoc] at hbody
      exact (List.append_cancel_right hbody).symm
    · -- The newlines of the separation would have to end what was read.
      have hsplit : List.replicate j '\n' = List.replicate (j - 2) '\n' ++ List.replicate 2 '\n' := by
        rw [← List.replicate_add]
        congr 1
        omega
      rw [hsplit, ← List.append_assoc] at hbody
      have hend := List.append_cancel_right hbody
      refine absurd ?_ hplain.noFeed
      rw [hend, show j - 2 = (j - 3) + 1 by omega, List.replicate_succ', ← List.append_assoc,
        List.getLast?_concat]
  · rintro ⟨body, hplain, k, hk, hmessage⟩
    refine ⟨2 - k, ?_⟩
    rw [hrecorded, message_of_plain hplain hmessage, hmessage, List.append_assoc body
      (List.replicate k '\n'), ← List.replicate_add, Nat.add_sub_of_le hk]

theorem Appended.ne {old codeCommit new : List Char} (h : Appended old codeCommit new) :
    new ≠ old := by
  obtain ⟨k, rfl⟩ := h
  intro heq
  have hlen := congrArg List.length heq
  simp at hlen

end AgentsRemember.Backfill
