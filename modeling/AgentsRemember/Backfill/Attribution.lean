import AgentsRemember.Backfill.Replay

/-!
# Backfill — Attribution

The code commit that a memory commit's message attributes
(`kernel/memory_attribution.py`), read in two ways: from the message, by the last
of its lines that reads as the trailer, and from git's log, by the last line of the
values that git prints for the final trailer block. What the block is and which
trailers it holds is git's (`GitTrailers`). The message reader looks at every line,
so it follows the block only as far as `AttributedPlainly` says.
-/

namespace AgentsRemember.Backfill

open Lines (splitlines universalNewlines blank isSpace isBreak)

/-- A text by its characters. -/
abbrev Text := List Char

/-! ## A trailer line -/

/-- The key of the trailer. -/
def codeCommitTrailerKey : Text := "Code-Commit".toList

/-- A character class that an object name is written in. -/
def isHex (c : Char) : Bool :=
  ('0' ≤ c && c ≤ '9') || ('a' ≤ c && c ≤ 'f') || ('A' ≤ c && c ≤ 'F')

/-- Between four and sixty-four hexadecimal digits. -/
def IsObjectName (text : Text) : Prop :=
  4 ≤ text.length ∧ text.length ≤ 64 ∧ ∀ c ∈ text, isHex c = true

instance (text : Text) : Decidable (IsObjectName text) :=
  decidable_of_iff (4 ≤ text.length ∧ text.length ≤ 64 ∧ text.all isHex = true)
    (by simp only [IsObjectName, List.all_eq_true])

/-- The text, where it is an object name. -/
def objectName (text : Text) : Option Text := if IsObjectName text then some text else none

/-- A pattern letter without regard to case; the dotted and the dotless i are
cases of the same letter. -/
def sameLetter (pattern c : Char) : Bool :=
  pattern.toLower = c.toLower || (pattern.toLower = 'i' && (c = '\u0130' || c = '\u0131'))

/-- The text without blanks at its ends. -/
def trimBlanks (text : Text) : Text :=
  (text.dropWhile fun c => c = ' ' || c = '\t').rdropWhile fun c => c = ' ' || c = '\t'

/-- `str.strip`. -/
def strip (text : Text) : Text := (text.dropWhile isSpace).rdropWhile isSpace

/-- `_TRAILER_LINE`: the key, a colon, and an object name between blanks. -/
def trailerLine (line : Text) : Option Text :=
  let pattern := codeCommitTrailerKey ++ [':']
  if pattern.length ≤ line.length ∧
      (pattern.zipWith sameLetter (line.take pattern.length)).all (· = true) then
    objectName (trimBlanks (line.drop pattern.length))
  else none

/-! ## The message reader -/

/-- What a line of a message attributes. -/
def lineValue (line : Text) : Option Text := trailerLine (strip line)

/-- The last line that reads as the trailer. -/
def parseCodeCommitTrailer (message : Text) : Option Text :=
  ((splitlines message).filterMap lineValue).getLast?

/-! ## The reader of git's log -/

/-- A trailer as Git has it. -/
structure Trailer where
  token : Text
  value : Text

/-- Git's reading of a message: the lines in front of the final trailer block, the
block (empty where there is none) and its trailers. -/
structure GitTrailers where
  front : Text → Text
  block : Text → Text
  trailers : Text → List Trailer
  front_block : ∀ message, front message ++ block message = message
  front_lines : ∀ message, block message = [] ∨ ∃ text, front message = text ++ ['\n']
  no_nul : ∀ message, ∀ t ∈ trailers (block message), '\x00' ∉ t.value

/-- A memory commit and the code commit it attributes. -/
structure AttributedCommit where
  memoryCommit : Text
  codeCommit : Option Text
  deriving DecidableEq

/-- `_trailer_value_from`: the last of the value lines that is an object name. -/
def trailerValueFrom (valueLines : List Text) : Option Text :=
  (valueLines.filterMap fun line =>
    trailerLine (codeCommitTrailerKey ++ ": ".toList ++ strip line)).getLast?

/-- One record of the log. -/
def attributedRecord (record : Text) : Option AttributedCommit :=
  match (splitlines record).filter (fun line => !blank line) with
  | [] => none
  | name :: values => some ⟨strip name, trailerValueFrom values⟩

/-- The records of the log. -/
def attributedRecords (stdout : Text) : List AttributedCommit :=
  (stdout.splitOn '\x00').filterMap attributedRecord

section git
variable (git : GitTrailers)

/-- The Code-Commit trailers of the final block; git compares keys without case. -/
def codeCommitTrailers (message : Text) : List Trailer :=
  (git.trailers (git.block message)).filter fun t =>
    t.token.map Char.toLower = codeCommitTrailerKey.map Char.toLower

/-- One record of the log: the name, each value on lines of its own, a NUL. -/
def logRecord (hash message : Text) : Text :=
  hash ++ '\n' :: Lines.join ((codeCommitTrailers git message).map (·.value))

/-- `git log -z` in the format of the reader. -/
def gitLog (commits : List (Text × Text)) : Text :=
  commits.flatMap fun c => logRecord git c.1 c.2 ++ ['\x00']

/-- The attributions of a history; the output is read in text mode. -/
def attributedCommits (commits : List (Text × Text)) : List AttributedCommit :=
  attributedRecords (universalNewlines (gitLog git commits))

/-- What a message attributes: the last Code-Commit value of the final block that
is an object name. -/
def finalAttribution (message : Text) : Option Text :=
  ((codeCommitTrailers git message).filterMap fun t => objectName t.value).getLast?

end git

/-! ## Object names -/

theorem isHex_spec {c : Char} (h : isHex c = true) : isSpace c = false ∧ isBreak c = false := by
  have hrange : (48 ≤ c.toNat ∧ c.toNat ≤ 57) ∨ (97 ≤ c.toNat ∧ c.toNat ≤ 102) ∨
      (65 ≤ c.toNat ∧ c.toNat ≤ 70) := by
    unfold isHex at h
    simp only [Bool.or_eq_true, Bool.and_eq_true, decide_eq_true_eq, or_assoc] at h
    exact h
  constructor
  · unfold isSpace Lines.spaces
    simp only [List.any_cons, List.any_nil, Bool.or_false, Bool.or_eq_false_iff,
      Bool.and_eq_false_iff, decide_eq_false_iff_not]
    omega
  · cases hbreak : isBreak c with
    | false => rfl
    | true =>
      have hmem : c ∈ Lines.breaks := List.contains_iff_mem.mp hbreak
      simp only [Lines.breaks, List.mem_cons, List.not_mem_nil, or_false] at hmem
      rcases hmem with rfl | rfl | rfl | rfl | rfl | rfl | rfl | rfl | rfl | rfl
      all_goals
        revert hrange
        decide

theorem objectName_eq_some {text v : Text} :
    objectName text = some v ↔ IsObjectName text ∧ text = v := by
  unfold objectName
  split
  · rename_i h
    exact ⟨fun he => ⟨h, Option.some.inj he⟩, fun he => by rw [he.2]⟩
  · rename_i h
    exact ⟨fun he => (by cases he), fun he => absurd he.1 h⟩

theorem IsObjectName.ne_nil {text : Text} (h : IsObjectName text) : text ≠ [] := by
  rintro rfl
  exact absurd h.1 (by decide)

theorem dropWhile_of_head {p : Char → Bool} {text : Text} (h : ∀ c ∈ text, p c = false) :
    text.dropWhile p = text := by
  cases text with
  | nil => rfl
  | cons c text => rw [List.dropWhile_cons, if_neg (by rw [h c List.mem_cons_self]; decide)]

theorem rdropWhile_of_last {p : Char → Bool} {text : Text} (h : ∀ c ∈ text, p c = false) :
    text.rdropWhile p = text := by
  rw [List.rdropWhile_eq_self_iff]
  intro hne hlast
  rw [h _ (List.getLast_mem hne)] at hlast
  cases hlast

theorem strip_objectName {text : Text} (h : IsObjectName text) : strip text = text := by
  have hspace : ∀ c ∈ text, isSpace c = false := fun c hc => (isHex_spec (h.2.2 c hc)).1
  unfold strip
  rw [dropWhile_of_head hspace, rdropWhile_of_last hspace]

/-- What is stripped has no blank at either end. -/
theorem trimBlanks_space_strip (line : Text) : trimBlanks (' ' :: strip line) = strip line := by
  have hspace : ∀ c : Char, isSpace c = false → (decide (c = ' ') || decide (c = '\t')) = false := by
    intro c hc
    have h1 : c ≠ ' ' := by
      rintro rfl
      revert hc
      decide
    have h2 : c ≠ '\t' := by
      rintro rfl
      revert hc
      decide
    simp [h1, h2]
  unfold trimBlanks
  rw [List.dropWhile_cons, if_pos (by decide)]
  cases hline : strip line with
  | nil => rfl
  | cons c rest =>
    have hprefix : c :: rest <+: line.dropWhile isSpace := by
      rw [← hline]
      exact List.rdropWhile_prefix _ _
    have hhead : isSpace c = false := by
      obtain ⟨tail, htail⟩ := hprefix
      have hne : line.dropWhile isSpace ≠ [] := by
        rw [← htail]
        simp
      have := List.head_dropWhile_not isSpace hne
      simpa [← htail] using this
    have hlast : ∀ hne : c :: rest ≠ [], isSpace ((c :: rest).getLast hne) = false := by
      rw [← hline]
      intro hne
      have := List.rdropWhile_last_not isSpace (line.dropWhile isSpace) hne
      simpa [strip] using this
    rw [List.dropWhile_cons, if_neg (by rw [hspace c hhead]; decide)]
    rw [List.rdropWhile_eq_self_iff]
    intro hne h
    rw [hspace _ (hlast hne)] at h
    cases h

theorem trailerLine_strip (line : Text) :
    trailerLine (codeCommitTrailerKey ++ ": ".toList ++ strip line) = objectName (strip line) := by
  have hshape : codeCommitTrailerKey ++ ": ".toList ++ strip line =
      (codeCommitTrailerKey ++ [':']) ++ ' ' :: strip line := by
    rw [List.append_assoc, List.append_assoc]
    rfl
  have hmatch : ((codeCommitTrailerKey ++ [':']).zipWith sameLetter
      (codeCommitTrailerKey ++ [':'])).all (· = true) := by decide
  unfold trailerLine
  dsimp only
  rw [hshape, List.take_left, List.drop_left, if_pos ⟨by simp, hmatch⟩, trimBlanks_space_strip]

/-! ## The message that is written -/

theorem trailer_isBreak {codeCommit : Text} (h : IsObjectName codeCommit) :
    ∀ c ∈ trailer codeCommit, isBreak c = false := by
  intro c hc
  rcases List.mem_append.mp hc with hc | hc
  · have hall : "Code-Commit: ".toList.all (fun c => !isBreak c) = true := by decide
    simpa using List.all_eq_true.mp hall c hc
  · exact (isHex_spec (h.2.2 c hc)).2

theorem strip_trailer {codeCommit : Text} (h : IsObjectName codeCommit) :
    strip (trailer codeCommit) = trailer codeCommit := by
  have hhead : (trailer codeCommit).dropWhile isSpace = trailer codeCommit := by
    have hcons : trailer codeCommit = 'C' :: ("ode-Commit: ".toList ++ codeCommit) := rfl
    rw [hcons, List.dropWhile_cons, if_neg (by decide)]
  unfold strip
  rw [hhead, List.rdropWhile_eq_self_iff]
  intro hne hspace
  have hlast : (trailer codeCommit).getLast hne = codeCommit.getLast h.ne_nil :=
    List.getLast_append_of_ne_nil _ h.ne_nil
  rw [hlast, (isHex_spec (h.2.2 _ (List.getLast_mem h.ne_nil))).1] at hspace
  cases hspace

theorem lineValue_trailer {codeCommit : Text} (h : IsObjectName codeCommit) :
    lineValue (trailer codeCommit) = some codeCommit := by
  have hkey : codeCommitTrailerKey ++ ": ".toList = "Code-Commit: ".toList := by decide
  have hline := trailerLine_strip codeCommit
  rw [strip_objectName h, hkey] at hline
  have hname : objectName codeCommit = some codeCommit := objectName_eq_some.mpr ⟨h, rfl⟩
  unfold lineValue
  rw [strip_trailer h]
  exact hline.trans hname

/-- The trailer is the last line of the message, whatever the body is. -/
theorem parse_renderMemoryContentMessage (body : Text) {codeCommit : Text}
    (h : IsObjectName codeCommit) :
    parseCodeCommitTrailer (renderMemoryContentMessage body codeCommit) = some codeCommit := by
  have hshape : renderMemoryContentMessage body codeCommit =
      (body ++ ['\n']) ++ '\n' :: trailer codeCommit := by
    simp [renderMemoryContentMessage]
  have hne : trailer codeCommit ≠ [] := List.append_ne_nil_of_left_ne_nil (by decide) codeCommit
  unfold parseCodeCommitTrailer
  rw [hshape, Lines.splitlines_append_feed, Lines.splitlines_last hne (trailer_isBreak h),
    List.filterMap_append, List.filterMap_cons_some (lineValue_trailer h), List.filterMap_nil,
    List.getLast?_concat]

/-! ## What the log reader makes of the values -/

/-- The last line of a value that is an object name. -/
def namedLine (value : Text) : Option Text :=
  ((splitlines (value ++ ['\n'])).filterMap fun line => objectName (strip line)).getLast?

theorem namedLine_of_objectName {value v : Text} (h : objectName value = some v) :
    namedLine value = some v := by
  obtain ⟨hname, rfl⟩ := objectName_eq_some.mp h
  unfold namedLine
  rw [Lines.splitlines_line fun c hc => (isHex_spec (hname.2.2 c hc)).2,
    List.filterMap_cons_some (by rw [strip_objectName hname]; exact h)]
  rfl

theorem getLast?_flatMap {α β : Type} (f : α → List β) (l : List α) :
    (l.flatMap f).getLast? = (l.filterMap fun a => (f a).getLast?).getLast? := by
  induction l using List.reverseRecOn with
  | nil => rfl
  | append_singleton l a ih =>
    rw [List.flatMap_append, List.filterMap_append, List.flatMap_singleton,
      List.getLast?_append, ih, List.getLast?_append]
    cases hlast : (f a).getLast? <;> simp [hlast]

theorem trailerValueFrom_filter (valueLines : List Text) :
    trailerValueFrom (valueLines.filter fun line => !blank line) =
      (valueLines.filterMap fun line => objectName (strip line)).getLast? := by
  unfold trailerValueFrom
  congr 1
  rw [List.filterMap_filter]
  apply List.filterMap_congr
  intro line _
  rw [trailerLine_strip]
  split
  · rfl
  · rename_i hblank
    have hspace : ∀ c ∈ line, isSpace c = true := by
      have hline : blank line = true := by simpa using hblank
      exact List.all_eq_true.mp hline
    have hnil : strip line = [] := by
      unfold strip
      rw [List.dropWhile_eq_nil_iff.mpr hspace]
      rfl
    rw [hnil]
    rfl

section git
variable (git : GitTrailers)

theorem logRecord_no_nul {hash message : Text} (h : IsObjectName hash) :
    '\x00' ∉ logRecord git hash message := by
  unfold logRecord Lines.join
  rw [List.mem_append, List.mem_cons, List.mem_flatMap]
  rintro (hmem | hmem | ⟨value, hvalue, hmem⟩)
  · have hhex := h.2.2 _ hmem
    revert hhex
    decide
  · cases hmem
  · obtain ⟨t, ht, rfl⟩ := List.mem_map.mp hvalue
    rcases List.mem_append.mp hmem with hmem | hmem
    · exact git.no_nul message t (List.mem_filter.mp ht).1 hmem
    · revert hmem
      decide

theorem attributedRecord_logRecord {hash message : Text} (h : IsObjectName hash) :
    attributedRecord (universalNewlines (logRecord git hash message)) =
      some ⟨hash, ((codeCommitTrailers git message).filterMap fun t => namedLine t.value).getLast?⟩ := by
  have hlines : splitlines (universalNewlines (logRecord git hash message)) =
      hash :: (codeCommitTrailers git message).flatMap fun t => splitlines (t.value ++ ['\n']) := by
    rw [Lines.splitlines_universalNewlines, logRecord, Lines.splitlines_append_feed,
      Lines.splitlines_line fun c hc => (isHex_spec (h.2.2 c hc)).2, Lines.splitlines_join,
      List.flatMap_map]
    rfl
  have hkeep : blank hash = false := by
    obtain ⟨c, rest, rfl⟩ := List.exists_cons_of_ne_nil h.ne_nil
    rw [blank, List.all_cons, (isHex_spec (h.2.2 c List.mem_cons_self)).1]
    rfl
  unfold attributedRecord
  rw [hlines, List.filter_cons_of_pos (by rw [hkeep]; rfl)]
  dsimp only
  rw [trailerValueFrom_filter, strip_objectName h, List.filterMap_flatMap, getLast?_flatMap]
  rfl

/-- The log reader, commit by commit. -/
theorem attributedCommits_eq (commits : List (Text × Text))
    (h : ∀ c ∈ commits, IsObjectName c.1) :
    attributedCommits git commits = commits.map fun c =>
      ⟨c.1, ((codeCommitTrailers git c.2).filterMap fun t => namedLine t.value).getLast?⟩ := by
  unfold attributedCommits attributedRecords
  induction commits with
  | nil => rfl
  | cons c commits ih =>
    have hc := h c List.mem_cons_self
    have hsplit : universalNewlines (gitLog git (c :: commits)) =
        universalNewlines (logRecord git c.1 c.2) ++ '\x00' :: universalNewlines (gitLog git commits) := by
      have happend : gitLog git (c :: commits) =
          logRecord git c.1 c.2 ++ '\x00' :: gitLog git commits := by
        simp [gitLog]
      rw [happend, Lines.universalNewlines_append (by decide) (by decide)]
    have hnul : '\x00' ∉ universalNewlines (logRecord git c.1 c.2) := fun hmem =>
      logRecord_no_nul git hc (Lines.mem_universalNewlines (by decide) hmem)
    rw [hsplit, List.splitOn_append_cons_self_of_not_mem hnul,
      List.filterMap_cons_some (attributedRecord_logRecord git hc),
      ih fun c' hc' => h c' (List.mem_cons_of_mem _ hc'), List.map_cons]

/-! ## Where the two agree -/

/-- The last of the lines that reads as the trailer attributes this, if any does. -/
def LastReads (lines : List Text) : Option Text → Prop
  | none => ∀ line ∈ lines, lineValue line = none
  | some v => ∃ before line after, lines = before ++ line :: after ∧ lineValue line = some v ∧
      ∀ other ∈ after, lineValue other = none

/-- Either some line of the final block reads as the trailer, and the last of them
names what the block attributes; or none does, and the last line in front that reads
so, if there is one, names it. And where the last Code-Commit value that shows an
object name on one of its lines is not itself one, what it shows is attributed in
front of it. -/
structure AttributedPlainly (message : Text) : Prop where
  lines :
    (∃ v, finalAttribution git message = some v ∧
      LastReads (splitlines (git.block message)) (some v)) ∨
    (LastReads (splitlines (git.block message)) none ∧
      LastReads (splitlines (git.front message)) (finalAttribution git message))
  values : ∀ before t after, codeCommitTrailers git message = before ++ t :: after →
    (∀ other ∈ after, namedLine other.value = none) → ∀ v, namedLine t.value = some v →
      objectName t.value = none →
        (before.filterMap fun other => objectName other.value).getLast? = some v

end git

theorem lastReads_iff {lines : List Text} {v : Option Text} :
    (lines.filterMap lineValue).getLast? = v ↔ LastReads lines v := by
  -- from the end: the last line reads as the trailer, or the lines before it decide
  induction lines using List.reverseRecOn generalizing v with
  | nil =>
    cases v with
    | none => simp [LastReads]
    | some v => simp [LastReads]
  | append_singleton lines line ih =>
    rw [List.filterMap_append]
    cases hline : lineValue line with
    | none =>
      rw [List.filterMap_cons_none hline, List.filterMap_nil, List.append_nil, ih]
      cases v with
      | none => simp [LastReads, hline, or_imp, forall_and]
      | some v =>
        constructor
        · rintro ⟨before, l, after, rfl, hl, hafter⟩
          refine ⟨before, l, after ++ [line], by simp, hl, fun other hother => ?_⟩
          rcases List.mem_append.mp hother with hother | hother
          · exact hafter other hother
          · rw [List.mem_singleton.mp hother]
            exact hline
        · rintro ⟨before, l, after, hlines, hl, hafter⟩
          rcases List.eq_nil_or_concat after with rfl | ⟨after, last, rfl⟩
          · obtain ⟨-, rfl⟩ := List.append_singleton_inj.mp hlines
            rw [hline] at hl
            cases hl
          · rw [List.concat_eq_append, ← List.cons_append, ← List.append_assoc] at hlines
            obtain ⟨rfl, rfl⟩ := List.append_singleton_inj.mp hlines
            exact ⟨before, l, after, rfl, hl, fun other hother =>
              hafter other (by simp [hother])⟩
    | some w =>
      rw [List.filterMap_cons_some hline, List.filterMap_nil, List.getLast?_concat]
      cases v with
      | none =>
        refine ⟨fun h => (by cases h), fun h => ?_⟩
        rw [h line (by simp)] at hline
        cases hline
      | some v =>
        constructor
        · rintro h
          cases h
          exact ⟨lines, line, [], rfl, hline, by simp⟩
        · rintro ⟨before, l, after, hlines, hl, hafter⟩
          rcases List.eq_nil_or_concat after with rfl | ⟨after, last, rfl⟩
          · obtain ⟨-, rfl⟩ := List.append_singleton_inj.mp hlines
            rw [hline] at hl
            exact hl
          · rw [List.concat_eq_append, ← List.cons_append, ← List.append_assoc] at hlines
            obtain ⟨rfl, rfl⟩ := List.append_singleton_inj.mp hlines
            rw [hafter line (by simp)] at hline
            cases hline

/-- Two readings of a list of which the first reads all that the second does. -/
theorem getLast?_filterMap_eq_iff {α β : Type} {f g : α → Option β}
    (h : ∀ a b, g a = some b → f a = some b) (l : List α) :
    (l.filterMap f).getLast? = (l.filterMap g).getLast? ↔
      ∀ before a after, l = before ++ a :: after → (∀ other ∈ after, f other = none) →
        ∀ b, f a = some b → g a = none → (before.filterMap g).getLast? = some b := by
  induction l using List.reverseRecOn with
  | nil => simp
  | append_singleton l last ih =>
    have hsplit : ∀ {before a after}, l ++ [last] = before ++ a :: after →
        (after = [] ∧ before = l ∧ a = last) ∨ ∃ after', after = after' ++ [last] ∧
          l = before ++ a :: after' := by
      intro before a after heq
      rcases List.eq_nil_or_concat after with rfl | ⟨after, other, rfl⟩
      · obtain ⟨rfl, rfl⟩ := List.append_singleton_inj.mp heq
        exact .inl ⟨rfl, rfl, rfl⟩
      · rw [List.concat_eq_append, ← List.cons_append, ← List.append_assoc] at heq
        obtain ⟨rfl, rfl⟩ := List.append_singleton_inj.mp heq
        exact .inr ⟨after, List.concat_eq_append, rfl⟩
    rw [List.filterMap_append, List.filterMap_append]
    cases hf : f last with
    | none =>
      have hg : g last = none := by
        cases hg : g last with
        | none => rfl
        | some b => rw [h last b hg] at hf; cases hf
      rw [List.filterMap_cons_none hf, List.filterMap_cons_none hg, List.filterMap_nil,
        List.filterMap_nil, List.append_nil, List.append_nil, ih]
      constructor
      · intro hall before a after heq hafter b hfa hga
        rcases hsplit heq with ⟨rfl, rfl, rfl⟩ | ⟨after', rfl, heq'⟩
        · rw [hf] at hfa
          cases hfa
        · exact hall before a after' heq' (fun other ho => hafter other (by simp [ho])) b hfa hga
      · intro hall before a after heq hafter b hfa hga
        refine hall before a (after ++ [last]) (by rw [heq]; simp) (fun other ho => ?_) b hfa hga
        rcases List.mem_append.mp ho with ho | ho
        · exact hafter other ho
        · rw [List.mem_singleton.mp ho]
          exact hf
    | some b =>
      rw [List.filterMap_cons_some hf, List.filterMap_nil, List.getLast?_concat]
      -- the last element decides, and every other split has it behind
      have hlast : (∀ before a after, l ++ [last] = before ++ a :: after →
          (∀ other ∈ after, f other = none) → ∀ c, f a = some c → g a = none →
            (before.filterMap g).getLast? = some c) ↔
          (g last = none → (l.filterMap g).getLast? = some b) := by
        constructor
        · intro hall hg
          exact hall l last [] rfl (by simp) b hf hg
        · intro hall before a after heq hafter c hfa hga
          rcases hsplit heq with ⟨rfl, rfl, rfl⟩ | ⟨after', rfl, heq'⟩
          · rw [hf] at hfa
            cases hfa
            exact hall hga
          · rw [hafter last (by simp)] at hf
            cases hf
      rw [hlast]
      cases hg : g last with
      | none =>
        rw [List.filterMap_cons_none hg, List.filterMap_nil, List.append_nil]
        exact ⟨fun he _ => he.symm, fun he => (he rfl).symm⟩
      | some c =>
        rw [List.filterMap_cons_some hg, List.filterMap_nil, List.getLast?_concat]
        have hcb := h last c hg
        rw [hf] at hcb
        exact ⟨fun _ hnone => (by cases hnone), fun _ => hcb⟩

section git
variable (git : GitTrailers)

/-- The lines of a message are those in front of its block and those of the block. -/
theorem splitlines_front_block (message : Text) :
    splitlines message = splitlines (git.front message) ++ splitlines (git.block message) := by
  have hmessage := git.front_block message
  rcases git.front_lines message with hblock | ⟨text, hfront⟩
  · rw [hblock, List.append_nil] at hmessage
    rw [hblock, hmessage]
    simp [splitlines]
  · rw [hfront, List.append_assoc] at hmessage
    rw [hfront, ← Lines.splitlines_append_feed]
    exact congrArg splitlines hmessage.symm

/-- **A message attributes exactly its final trailer**: what is rendered is parsed
back, and both readers say of a message what its final block attributes exactly when
it is attributed plainly. -/
theorem attribution_read_iff (message : Text) :
    (∀ body codeCommit, IsObjectName codeCommit →
      parseCodeCommitTrailer (renderMemoryContentMessage body codeCommit) = some codeCommit) ∧
    ((parseCodeCommitTrailer message = finalAttribution git message ∧
        ∀ hash, IsObjectName hash → attributedCommits git [(hash, message)] =
          [⟨hash, finalAttribution git message⟩]) ↔
      AttributedPlainly git message) := by
  refine ⟨fun body codeCommit h => parse_renderMemoryContentMessage body h, ?_⟩
  have hparse : parseCodeCommitTrailer message = finalAttribution git message ↔
      (∃ v, finalAttribution git message = some v ∧
        LastReads (splitlines (git.block message)) (some v)) ∨
      (LastReads (splitlines (git.block message)) none ∧
        LastReads (splitlines (git.front message)) (finalAttribution git message)) := by
    unfold parseCodeCommitTrailer
    rw [splitlines_front_block git, List.filterMap_append, List.getLast?_append]
    cases hblock : ((splitlines (git.block message)).filterMap lineValue).getLast? with
    | none =>
      rw [Option.none_or, lastReads_iff]
      have hnone := lastReads_iff.mp hblock
      refine ⟨fun h => .inr ⟨hnone, h⟩, ?_⟩
      rintro (⟨v, -, hv⟩ | ⟨-, h⟩)
      · rw [lastReads_iff.mpr hv] at hblock
        cases hblock
      · exact h
    | some w =>
      rw [Option.some_or]
      refine ⟨fun h => .inl ⟨w, h.symm, lastReads_iff.mp hblock⟩, ?_⟩
      rintro (⟨v, hfinal, hv⟩ | ⟨hnone, -⟩)
      · rw [hfinal, ← hblock, lastReads_iff.mpr hv]
      · rw [lastReads_iff.mpr hnone] at hblock
        cases hblock
  have hlog : (∀ hash, IsObjectName hash → attributedCommits git [(hash, message)] =
        [⟨hash, finalAttribution git message⟩]) ↔
      ((codeCommitTrailers git message).filterMap fun t => namedLine t.value).getLast? =
        finalAttribution git message := by
    have hread : ∀ hash, IsObjectName hash → attributedCommits git [(hash, message)] =
        [⟨hash, ((codeCommitTrailers git message).filterMap fun t =>
          namedLine t.value).getLast?⟩] := by
      intro hash hhash
      exact attributedCommits_eq git [(hash, message)] (by simpa using hhash)
    constructor
    · intro h
      have hname : IsObjectName "abcd".toList := by decide
      have heq := (hread _ hname).symm.trans (h _ hname)
      simpa using heq
    · intro h hash hhash
      rw [hread hash hhash, h]
  rw [hparse, hlog, finalAttribution, getLast?_filterMap_eq_iff
    (fun t v hv => namedLine_of_objectName hv)]
  exact ⟨fun h => ⟨h.1, h.2⟩, fun h => ⟨h.lines, h.values⟩⟩

end git

/-! ## A key in the middle of a body -/

/-- A line of a block: a token, a colon, a value. -/
def blockLine (line : Text) : Option Trailer :=
  let token := line.takeWhile (· ≠ ':')
  if token ≠ [] ∧ ':' ∈ line ∧ token.all (fun c => c.isAlphanum || c = '-') then
    some ⟨token, (strip (line.drop (token.length + 1))).takeWhile (· ≠ '\x00')⟩
  else none

/-- The lines of a block. -/
def blockLines (text : Text) : List Text := (text.rdropWhile (· = '\n')).splitOn '\n'

/-- The text up to the final block and the block, behind so many line feeds: the
block is preceded by an empty line, and each of its lines is a trailer. -/
def splitBlock : Nat → Text → Text × Text
  | _, [] => ([], [])
  | feeds, c :: rest =>
    if 2 ≤ feeds ∧ (blockLines (c :: rest)).all (fun line => (blockLine line).isSome) then
      ([], c :: rest)
    else
      let r := splitBlock (if c = '\n' then feeds + 1 else 0) rest
      (c :: r.1, r.2)

theorem splitBlock_append (feeds : Nat) (text : Text) :
    (splitBlock feeds text).1 ++ (splitBlock feeds text).2 = text := by
  induction text generalizing feeds with
  | nil => rfl
  | cons c rest ih =>
    unfold splitBlock
    split
    · rfl
    · exact congrArg (c :: ·) (ih _)

theorem splitBlock_lines (feeds : Nat) (text : Text) :
    (splitBlock feeds text).2 = [] ∨ ((splitBlock feeds text).1 = [] ∧ 2 ≤ feeds) ∨
      ∃ front, (splitBlock feeds text).1 = front ++ ['\n'] := by
  induction text generalizing feeds with
  | nil => exact .inl rfl
  | cons c rest ih =>
    unfold splitBlock
    split
    · rename_i h
      exact .inr (.inl ⟨rfl, h.1⟩)
    · rcases ih (if c = '\n' then feeds + 1 else 0) with h | ⟨h, hfeeds⟩ | ⟨front, h⟩
      · exact .inl h
      · have hc : c = '\n' := by
          by_contra hc
          rw [if_neg hc] at hfeeds
          omega
        have hfront : [c] = [] ++ ['\n'] := by rw [hc]; rfl
        exact .inr (.inr ⟨[], (congrArg (c :: ·) h).trans hfront⟩)
      · exact .inr (.inr ⟨c :: front, congrArg (c :: ·) h⟩)

/-- Git on messages whose final block is made of trailers of one line each. -/
def plainTrailers : GitTrailers where
  front message := (splitBlock 0 message).1
  block message := (splitBlock 0 message).2
  trailers text := (blockLines text).filterMap blockLine
  front_block := splitBlock_append 0
  front_lines message := by
    rcases splitBlock_lines 0 message with h | ⟨-, h⟩ | h
    · exact .inl h
    · omega
    · exact .inr h
  no_nul message t ht hnul := by
    obtain ⟨line, -, hline⟩ := List.mem_filterMap.mp ht
    unfold blockLine at hline
    dsimp only at hline
    split at hline
    · cases hline
      have := List.mem_takeWhile_imp hnul
      revert this
      decide
    · cases hline

example : finalAttribution plainTrailers "docs: one\n\nCode-Commit: 12ab\n".toList =
    some "12ab".toList := by decide +kernel

/-- The key stands in the middle of the body: git reports no trailer, and the
message reader an attribution. -/
theorem body_mention_attributed :
    finalAttribution plainTrailers "docs: one\n\nCode-Commit: 12ab\n\nmore prose".toList = none ∧
    attributedCommits plainTrailers
        [("cafe".toList, "docs: one\n\nCode-Commit: 12ab\n\nmore prose".toList)] =
      [⟨"cafe".toList, none⟩] ∧
    parseCodeCommitTrailer "docs: one\n\nCode-Commit: 12ab\n\nmore prose".toList =
      some "12ab".toList := by
  decide +kernel

end AgentsRemember.Backfill
