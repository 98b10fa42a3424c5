import AgentsRemember.River.Lines
import AgentsRemember.Foundation.Json
import AgentsRemember.Foundation.Lines
import Mathlib.Data.List.Sort
import Mathlib.Order.Lattice

/-!
# River — Log

The event logs on disk: one file a lifecycle, and the workspace river, which is
compacted while it is read. Compaction drops a prefix of the river's file and
counts the bytes dropped in a sidecar, so that positions in the river are
virtual: the bytes reclaimed, and the offset in the file behind them.

The bytes appended are any bytes: whole lines, the beginning of one, or none
that a writer would write. How a text is read as JSON (`JsonReader`) and how
the timestamp of an event is read (`Clock`) are left open: the events of a log
are those the reader makes, whatever it makes.
-/

namespace AgentsRemember.River

/-- The source that is the river. -/
def workspaceSource : String := "workspace"

/-- The logs there are. No lifecycle is called as the reserved source is. -/
structure Disk where
  lifecycles : List (String × Bytes) := []
  workspace : Option Bytes := none
  baseOffset : Nat := 0
  nodup : (lifecycles.map Prod.fst).Nodup := by simp
  reserved : workspaceSource ∉ lifecycles.map Prod.fst := by simp

/-- Every readable source, lifecycles sorted and the workspace last. -/
def discoverSources (disk : Disk) : List String :=
  (disk.lifecycles.map Prod.fst).insertionSort (· ≤ ·) ++
    (if disk.workspace.isSome then [workspaceSource] else [])

/-- The bytes reclaimed in front of a source's file. -/
def Disk.base (disk : Disk) (source : String) : Nat :=
  if source = workspaceSource then disk.baseOffset else 0

/-- The file of a source; one that is not there is empty. -/
def Disk.file (disk : Disk) (source : String) : Bytes :=
  if source = workspaceSource then disk.workspace.getD []
  else (disk.lifecycles.lookup source).getD []

/-- A source as a log with virtual positions. -/
def Disk.log (disk : Disk) (source : String) : Feed Bytes :=
  feed (disk.base source) (disk.file source)

/-- Complete lines of a source, with offsets in its cursor coordinates. -/
def readSourceLines (disk : Disk) (source : String) (virtualStart : Nat) :
    List (Bytes × Nat) × Nat :=
  if source ≠ workspaceSource then readLinesFrom (disk.file source) virtualStart
  else
    let base := disk.baseOffset
    let size := (disk.file source).length
    let physicalStart := min (virtualStart - base) size
    let (lines, physicalEnd) := readLinesFrom (disk.file source) physicalStart
    (lines.map fun l => (l.1, base + l.2), base + physicalEnd)

/-! ## Rows -/

/-- What `json.loads` makes of a text: an object, another value, or an error. A
`ValueError` that is no `JSONDecodeError` is an integer of too many digits. -/
inductive Loaded (ω : Type)
  | object (payload : ω)
  | other
  | decodeError
  | valueError

/-- A reader of JSON texts. Its objects may hold what no `Json` does, such as NaN
or half of a surrogate pair. -/
structure JsonReader (ω : Type) where
  loads : List Char → Loaded ω
  /-- The text of a member, where it has one that a `String` can hold. -/
  text : ω → String → Option String

/-- The reader of the grammar alone. -/
def JsonReader.strict : JsonReader (List (String × Json)) where
  loads text :=
    match Json.parse text with
    | some (.obj members) => .object members
    | some _ => .other
    | none => .decodeError
  text payload member :=
    match payload.lookup member with
    | some (.str text) => some text
    | _ => none

/-- The text of some bytes, where they are UTF-8. -/
def decodeText (bytes : Bytes) : Option String := String.fromUTF8? ⟨bytes.toArray⟩

/-- A line of a file, as the scan for what is retained finds it. -/
inductive Row (ω : Type)
  | noEvent
  | event (payload : ω)
  /-- The scan fails here: it catches only that a line is no UTF-8 or no JSON. -/
  | raised

/-- A line is read with its newline. -/
def rowPayload {ω : Type} (reader : JsonReader ω) (line : Bytes) : Row ω :=
  match decodeText line with
  | none => .noEvent
  | some text =>
    match reader.loads (text.toList ++ ['\n']) with
    | .object payload => .event payload
    | .valueError => .raised
    | .other | .decodeError => .noEvent

/-- The timestamp of an event: a time, none that can be read, or one that
overflows on the way to UTC. -/
inductive EventTime
  | at (ts : Int)
  | unknown
  | overflow

/-- How the timestamp of an event is read. -/
abbrev Clock (ω : Type) := ω → EventTime

/-- What a row is to a cutoff: no event, an event older than it, one that cannot
be proved older, or where the scan fails. -/
inductive Age
  | noEvent
  | old
  | kept
  | raised
  deriving DecidableEq

/-- How old a row is, or that none can be told. -/
def rowAge {ω : Type} (reader : JsonReader ω) (clock : Clock ω) (cutoff : Int) (line : Bytes) :
    Age :=
  match rowPayload reader line with
  | .noEvent => .noEvent
  | .raised => .raised
  | .event payload =>
    match clock payload with
    | .at ts => if ts < cutoff then .old else .kept
    | .unknown => .kept
    | .overflow => .raised

/-! ## Writers -/

/-- Bytes appended to the file of a source, which is there from then on. -/
def Disk.append (disk : Disk) (source : String) (bytes : Bytes) : Disk :=
  if h : source = workspaceSource then
    { disk with workspace := some (disk.workspace.getD [] ++ bytes) }
  else
    { disk with
      lifecycles := Keyed.set disk.lifecycles source
        ((disk.lifecycles.lookup source).getD [] ++ bytes)
      nodup := Keyed.nodup_keys_set disk.nodup _ _
      reserved := by
        rw [Keyed.keys_set]
        split
        · exact disk.reserved
        · simp [disk.reserved, Ne.symm h] }

section

variable {ω : Type} (reader : JsonReader ω) (clock : Clock ω) (cutoff : Int)

/-- Where the rows retained begin, and how many events lie in front of it: the
first event that has no time or one not before the cutoff. None where the scan
fails. -/
def retainedStart : List (Entry Bytes) → Option (Option Nat × Nat)
  | [] => some (none, 0)
  | row :: rows =>
    match rowAge reader clock cutoff row.item with
    | .noEvent => retainedStart rows
    | .old => (retainedStart rows).map fun (start, dropped) => (start, dropped + 1)
    | .kept => some (some row.start, 0)
    | .raised => none

/-- Reclaim the rows of the river older than the cutoff. -/
def compactWorkspaceRiver (disk : Disk) : Disk :=
  match disk.workspace with
  | none => disk
  | some bytes =>
    match retainedStart reader clock cutoff (feed 0 bytes).kept with
    | none => disk
    | some (start, dropped) =>
      if dropped = 0 then disk
      else
        -- where every row aged out, the file is truncated
        let retainedStart := start.getD bytes.length
        { disk with
          workspace := some (bytes.drop retainedStart)
          baseOffset := disk.baseOffset + retainedStart }

end

/-! ## Reading a source -/

/-- A file read further on, from further on, gives the same entries further on. -/
theorem feed_shift (k base : Nat) (bytes : Bytes) (c : Nat) :
    (feed (k + base) bytes).visit (k + c) =
        ((feed base bytes).visit c).map (fun e => ⟨k + e.start, k + e.after, e.item⟩) ∧
      (feed (k + base) bytes).settle (k + c) = k + (feed base bytes).settle c := by
  have hshift := scan_shift k base [] bytes
  constructor
  · simp only [Feed.visit, feed, hshift, List.filter_map]
    congr 1
    apply List.filter_congr
    intro e _
    simp
  · have htail : (feed (k + base) bytes).tail = k + (feed base bytes).tail := by
      simp [feed, hshift]
    have heof : (feed (k + base) bytes).eof = k + (feed base bytes).eof := Nat.add_assoc _ _ _
    unfold Feed.settle
    rw [htail, heof]
    by_cases hc : c ≤ (feed base bytes).tail
    · rw [if_pos hc, if_pos (by omega)]
    · rw [if_neg hc, if_neg (by omega)]

/-- A cursor in front of the file reads it from its start. -/
theorem feed_front (base : Nat) (bytes : Bytes) {c : Nat} (hc : c ≤ base) :
    (feed base bytes).visit c = (feed base bytes).visit base ∧
      (feed base bytes).settle c = (feed base bytes).settle base := by
  have hentries := (scan_entries base [] bytes).2
  have htail := (@scan_tail base [] (by simp) bytes).2.2
  constructor
  · apply List.filter_congr
    intro e he
    have := (hentries e he).1
    simp only [decide_eq_decide]
    omega
  · unfold Feed.settle feed
    dsimp only
    rw [if_pos htail, if_pos (by omega)]

theorem readLinesFrom_min (bytes : Bytes) (c : Nat) :
    readLinesFrom bytes (min c bytes.length) = readLinesFrom bytes c := by
  unfold readLinesFrom
  dsimp only
  rw [Nat.min_assoc, Nat.min_self]

/-- A read of a source visits its log, in virtual positions. -/
theorem readSourceLines_eq (disk : Disk) (source : String) (c : Nat) :
    readSourceLines disk source c =
      (((disk.log source).visit c).map fun e => (e.item, e.after), (disk.log source).settle c) := by
  by_cases h : source = workspaceSource
  · subst h
    unfold readSourceLines
    rw [if_neg (by simp)]
    dsimp only
    rw [readLinesFrom_min, readLinesFrom_eq]
    have hshift := feed_shift disk.baseOffset 0 (disk.file workspaceSource) (c - disk.baseOffset)
    rw [Nat.add_zero] at hshift
    have hcursor : (feed disk.baseOffset (disk.file workspaceSource)).visit c =
          (feed disk.baseOffset (disk.file workspaceSource)).visit
            (disk.baseOffset + (c - disk.baseOffset)) ∧
        (feed disk.baseOffset (disk.file workspaceSource)).settle c =
          (feed disk.baseOffset (disk.file workspaceSource)).settle
            (disk.baseOffset + (c - disk.baseOffset)) := by
      by_cases hc : c ≤ disk.baseOffset
      · rw [Nat.sub_eq_zero_of_le hc]
        exact feed_front _ _ hc
      · rw [Nat.add_sub_cancel' (by omega)]
        exact ⟨rfl, rfl⟩
    unfold Disk.log Disk.base
    rw [if_pos rfl, hcursor.1, hcursor.2, hshift.1, hshift.2]
    simp [List.map_map, Function.comp_def]
  · simp only [readSourceLines, h, ne_eq, not_false_eq_true, if_true, readLinesFrom_eq, Disk.log,
      Disk.base, if_false]

/-! ## What the writers do to the logs -/

theorem log_append_self (disk : Disk) (source : String) (bytes : Bytes) :
    (disk.append source bytes).log source =
      feed (disk.base source) (disk.file source ++ bytes) := by
  by_cases h : source = workspaceSource
  · simp [Disk.log, Disk.append, Disk.base, Disk.file, h]
  · simp [Disk.log, Disk.append, Disk.base, Disk.file, h, Keyed.lookup_set]

theorem log_append_of_ne (disk : Disk) {source other : String} (h : other ≠ source)
    (bytes : Bytes) : (disk.append source bytes).log other = disk.log other := by
  by_cases hs : source = workspaceSource
  · simp [Disk.log, Disk.append, Disk.base, Disk.file, hs ▸ h, hs]
  · simp only [Disk.log, Disk.append, Disk.base, Disk.file, hs, dif_neg, not_false_eq_true,
      Keyed.lookup_set, if_neg (Ne.symm h)]

section

variable {ω : Type} {reader : JsonReader ω} {clock : Clock ω} {cutoff : Int}

/-- Where the rows retained begin is where one of the rows does. -/
theorem retainedStart_mem {rows : List (Entry Bytes)} {n dropped : Nat}
    (h : retainedStart reader clock cutoff rows = some (some n, dropped)) :
    ∃ row ∈ rows, row.start = n := by
  induction rows generalizing dropped with
  | nil => simp [retainedStart] at h
  | cons row rows ih =>
    have hrest : ∀ dropped, retainedStart reader clock cutoff rows = some (some n, dropped) →
        ∃ r ∈ row :: rows, r.start = n := by
      intro dropped h
      obtain ⟨r, hr, hstart⟩ := ih h
      exact ⟨r, List.mem_cons_of_mem _ hr, hstart⟩
    rw [retainedStart] at h
    split at h
    · exact hrest _ h
    · obtain ⟨⟨start, dropped'⟩, hscan, heq⟩ := Option.map_eq_some_iff.mp h
      cases heq
      exact hrest _ hscan
    · cases h
      exact ⟨row, List.mem_cons_self, rfl⟩
    · cases h

end

/-- A row begins where the scan did, or behind a newline. -/
theorem scan_row_start {start : Nat} {record bytes : Bytes} {row : Entry Bytes}
    (h : row ∈ (scan start record bytes).1) : row.start = start ∨
      ∃ a b, bytes = a ++ newline :: b ∧ row.start = start + record.length + a.length + 1 := by
  induction bytes generalizing start record with
  | nil => simp [scan] at h
  | cons x bytes ih =>
    by_cases hx : x = newline
    · subst hx
      rw [scan_newline] at h
      rcases List.mem_cons.mp h with rfl | h
      · exact .inl rfl
      · right
        rcases ih h with hs | ⟨a, b, rfl, hs⟩
        · exact ⟨[], bytes, rfl, by simpa using hs⟩
        · refine ⟨newline :: a, b, rfl, ?_⟩
          simp only [List.length_nil, List.length_cons] at hs ⊢
          omega
    · rw [scan, if_neg hx] at h
      rcases ih h with hs | ⟨a, b, rfl, hs⟩
      · exact .inl hs
      · right
        refine ⟨x :: a, b, rfl, ?_⟩
        simp only [List.length_append, List.length_cons, List.length_nil] at hs ⊢
        omega

/-- A file cut where a row begins, or at its end, is its log retired. -/
theorem feed_retires (base : Nat) (bytes : Bytes) {n : Nat}
    (h : n = bytes.length ∨ ∃ row ∈ (feed 0 bytes).kept, row.start = n) :
    ∃ gone, Feed.Retires (feed base bytes) (feed (base + n) (bytes.drop n)) gone := by
  rcases h with rfl | ⟨row, hrow, rfl⟩
  · refine ⟨(feed base bytes).kept, ?_, ?_, .inr ?_⟩
    · rw [List.drop_length]
      simp [feed, scan]
    · rw [List.drop_length]
      rfl
    · rw [List.drop_length]
      rfl
  · have hle : row.start ≤ bytes.length := by
      have h := (feed_ordered 0 bytes).closed row hrow
      have h' := (feed_ordered 0 bytes).tail_le
      have hwide := (feed_ordered 0 bytes).wide row (by simpa using hrow)
      have : (feed 0 bytes).eof = bytes.length := Nat.zero_add _
      omega
    have hboundary : ¬(0 < row.start ∧ bytes[row.start - 1]? ≠ some newline) := by
      rintro ⟨hpos, hget⟩
      rcases scan_row_start hrow with h | ⟨a, b, rfl, h⟩
      · omega
      · apply hget
        rw [h]
        simp
    have hcut := scan_take_boundary hle hboundary base
    refine ⟨(scan base [] (bytes.take row.start)).1, ?_, ?_, .inl ?_⟩
    · unfold feed
      conv_lhs => rw [← List.take_append_drop row.start bytes]
      rw [scan_append, hcut]
    · show base + row.start + (bytes.drop row.start).length = base + bytes.length
      rw [List.length_drop]
      omega
    · rw [feed_tail_cut base bytes row.start, hcut]
      rfl

/-- Compacting retires entries of the river and touches no other source. -/
theorem compact_retires {ω : Type} (reader : JsonReader ω) (clock : Clock ω) (cutoff : Int)
    (disk : Disk) (source : String) :
    (compactWorkspaceRiver reader clock cutoff disk).log source = disk.log source ∨
      source = workspaceSource ∧ ∃ gone,
        Feed.Retires (disk.log source)
          ((compactWorkspaceRiver reader clock cutoff disk).log source) gone := by
  unfold compactWorkspaceRiver
  cases hws : disk.workspace with
  | none => exact .inl rfl
  | some bytes =>
    dsimp only
    split
    · exact .inl rfl
    next start dropped hscan =>
      split
      · exact .inl rfl
      · by_cases hsource : source = workspaceSource
        · right
          refine ⟨hsource, ?_⟩
          have hretires := feed_retires disk.baseOffset bytes (n := start.getD bytes.length) (by
            cases start with
            | none => exact .inl rfl
            | some n => exact .inr (retainedStart_mem hscan))
          simpa [Disk.log, Disk.base, Disk.file, hsource, hws] using hretires
        · left
          simp [Disk.log, Disk.base, Disk.file, hsource]

end AgentsRemember.River
