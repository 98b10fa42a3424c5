import AgentsRemember.Foundation.Attempts
import AgentsRemember.Ledger.Format

/-!
# Ledger — RoundTrip

What the reader makes of a written ledger. Whatever it reads it reads again
after writing; but the writer puts every cell and every name down as it is,
and a ledger with a cell that the table cannot hold, or with a field the
reader requires and finds blank, is written into a text that is refused or
read as another ledger.
-/

namespace AgentsRemember.Ledger

open Backfill (LedgerRow)

/-! ## The fence around the metadata -/

/-- A line feed in the text is followed by another character than a backtick. -/
def FenceFree : List Char → Prop
  | [] => True
  | c :: rest => (c = '\n' → ∃ d, rest.head? = some d ∧ d ≠ '\x60') ∧ FenceFree rest

theorem fenceFree_append {s t : List Char} (hs : FenceFree s) (ht : FenceFree t) :
    FenceFree (s ++ t) := by
  induction s with
  | nil => exact ht
  | cons c s ih =>
    rw [List.cons_append]
    refine ⟨fun hc => ?_, ih hs.2⟩
    obtain ⟨d, hd, hne⟩ := hs.1 hc
    exact ⟨d, by rw [List.head?_append, hd]; rfl, hne⟩

theorem fenceFree_of_no_feed {s : List Char} (h : ∀ c ∈ s, c ≠ '\n') : FenceFree s := by
  induction s with
  | nil => trivial
  | cons c s ih =>
    exact ⟨fun hc => absurd hc (h c List.mem_cons_self),
      ih fun d hd => h d (List.mem_cons_of_mem _ hd)⟩

theorem fenceFree_renderAscii (s : String) : FenceFree (Json.renderAscii s) := by
  apply fenceFree_of_no_feed
  intro c hc
  simp only [Json.renderAscii, List.mem_cons, List.mem_append, List.mem_flatMap,
    List.not_mem_nil, or_false] at hc
  rcases hc with rfl | ⟨d, -, hd⟩ | rfl
  · decide
  · rintro rfl
    have hplain := Json.escapeAscii_plain hd
    exact absurd hplain.1 (by decide)
  · decide

theorem fenceFree_renderLine (member : String × String) : FenceFree (Json.renderLine member) := by
  have hindent : FenceFree ['\n', ' ', ' '] := by simp [FenceFree]
  have hcolon : FenceFree [':', ' '] := by simp [FenceFree]
  unfold Json.renderLine
  exact fenceFree_append (fenceFree_append (fenceFree_append hindent (fenceFree_renderAscii _))
    hcolon) (fenceFree_renderAscii _)

theorem fenceFree_renderLines (members : List (String × String)) :
    FenceFree (Json.renderLines members) := by
  induction members with
  | nil => trivial
  | cons member members ih =>
    cases members with
    | nil => exact fenceFree_renderLine member
    | cons next members =>
      exact fenceFree_append (fenceFree_renderLine member) ⟨by simp, ih⟩

theorem fenceFree_renderIndented (members : List (String × String)) :
    FenceFree (Json.renderIndented members) := by
  have hclose : FenceFree ['\n', '}'] := by simp [FenceFree]
  cases members with
  | nil => simp [Json.renderIndented, FenceFree]
  | cons member members =>
    exact ⟨by simp, fenceFree_append (fenceFree_renderLines (member :: members)) hclose⟩

/-- A body with no fence of its own ends at the fence behind it. -/
theorem closeFence_body {body : List Char} (h : FenceFree body) (rest : List Char) :
    closeFence (body ++ '\n' :: (fence ++ rest)) = some (body, rest) := by
  induction body with
  | nil => simp [closeFence, fence]
  | cons c body ih =>
    have hnot : ¬(c = '\n' ∧ fence.isPrefixOf (body ++ '\n' :: (fence ++ rest)) = true) := by
      rintro ⟨hc, hfence⟩
      obtain ⟨d, hd, hne⟩ := h.1 hc
      cases body with
      | nil => cases hd
      | cons e body =>
        obtain rfl : e = d := by simpa using hd
        simp [fence, List.isPrefixOf, Ne.symm hne] at hfence
    rw [List.cons_append, closeFence, if_neg hnot, ih h.2]
    rfl

theorem findFence_skip {front : List Char} (h : ∀ c ∈ front, c ≠ '\x60') (rest : List Char) :
    findFence (front ++ rest) = findFence rest := by
  induction front with
  | nil => rfl
  | cons c front ih =>
    have hnone : fenceAt (c :: (front ++ rest)) = none := by
      have hc := h c List.mem_cons_self
      simp [fenceAt, openingMark, fence, List.isPrefixOf, Ne.symm hc]
    rw [List.cons_append, findFence, hnone]
    exact ih fun d hd => h d (List.mem_cons_of_mem _ hd)

theorem fenceAt_mark (block : List Char) :
    fenceAt (openingMark ++ ' ' :: (ledgerMark ++ block)) = openBody block := by
  have hspace : Lines.isSpace ' ' = true := by decide
  have hletter : Lines.isSpace 'a' = false := by decide
  simp [fenceAt, openingMark, ledgerMark, fence, hspace, hletter]

/-- A block opened on the line before its body. -/
theorem openBody_feed {c : Char} (hc : Lines.isSpace c = false) (body : List Char) :
    openBody ('\n' :: c :: body) = closeFence (c :: body) := by
  rw [openBody, openBody, hc]
  rfl

theorem findFence_written (members : List (String × String)) (rest : List Char) :
    findFence (Lines.join titleLines ++ (openingMark ++ ' ' :: (ledgerMark ++
      '\n' :: (Json.renderIndented members ++ '\n' :: (fence ++ rest))))) =
        some (Json.renderIndented members, rest) := by
  have hbrace : ∃ tail, Json.renderIndented members = '{' :: tail := by
    cases members <;> exact ⟨_, rfl⟩
  have hclose := closeFence_body (fenceFree_renderIndented members) rest
  have hmark : fenceAt (openingMark ++ ' ' :: (ledgerMark ++
      '\n' :: (Json.renderIndented members ++ '\n' :: (fence ++ rest)))) =
        some (Json.renderIndented members, rest) := by
    obtain ⟨tail, htail⟩ := hbrace
    rw [htail] at hclose
    rw [fenceAt_mark, htail, List.cons_append, openBody_feed (by decide)]
    exact hclose
  have htitle : (Lines.join titleLines).all (fun c => c != '\x60') = true := by decide
  rw [findFence_skip fun c hc => bne_iff_ne.mp (List.all_eq_true.mp htitle c hc)]
  rw [show openingMark = '\x60' :: openingMark.tail from rfl, List.cons_append] at hmark ⊢
  rw [findFence, hmark]

/-! ## The rows -/

/-- A cell that the table can hold. -/
def ReadableCell (cell : String) : Prop :=
  stripped cell = cell ∧ ∀ c ∈ cell.toList, c ≠ '|' ∧ Lines.isBreak c = false

theorem toList_stripped (s : String) : (stripped s).toList = Lines.strip s.toList :=
  String.toList_ofList

theorem stripped_stripped (s : String) : stripped (stripped s) = stripped s := by
  rw [stripped, toList_stripped, Lines.strip_strip]
  rfl

theorem strip_of_stripped {s : String} (h : stripped s = s) :
    Lines.strip s.toList = s.toList := by
  rw [← toList_stripped, h]

/-- A row is read back cell by cell. -/
theorem tableCells_rowLine {row : LedgerRow} (hcode : ReadableCell row.codeCommit)
    (hmemory : ReadableCell row.memoryCommit) :
    tableCells (rowLine row) = [row.codeCommit.toList, row.memoryCommit.toList] := by
  let code := ' ' :: (row.codeCommit.toList ++ [' '])
  let memory := ' ' :: (row.memoryCommit.toList ++ [' '])
  have hline : rowLine row = '|' :: ((code ++ '|' :: memory) ++ ['|']) := by
    simp [rowLine, code, memory]
  have hlast : (rowLine row).getLast? = some '|' := by
    rw [hline, ← List.cons_append, List.getLast?_concat]
  have hstrip : Lines.strip (rowLine row) = rowLine row := by
    apply Lines.stripBy_of_ends
    · intro c hc
      rw [hline, List.head?_cons, Option.some.injEq] at hc
      rw [← hc]
      decide
    · intro c hc
      rw [hlast, Option.some.injEq] at hc
      rw [← hc]
      decide
  have hinner : Lines.stripBy (· == '|') (rowLine row) = code ++ '|' :: memory := by
    rw [hline, Lines.stripBy_between (by decide) (by decide)]
    apply Lines.stripBy_of_ends
    · intro c hc
      obtain rfl : ' ' = c := by simpa [code] using hc
      decide
    · intro c hc
      have hend : code ++ '|' :: memory =
          (code ++ '|' :: ' ' :: row.memoryCommit.toList) ++ [' '] := by
        simp [memory]
      rw [hend, List.getLast?_concat, Option.some.injEq] at hc
      rw [← hc]
      decide
  have hpipe : ∀ {cell : String}, ReadableCell cell → '|' ∉ ' ' :: (cell.toList ++ [' ']) := by
    intro cell hcell hmem
    simp only [List.mem_cons, List.mem_append, List.not_mem_nil, or_false, Char.reduceEq,
      false_or] at hmem
    exact (hcell.2 _ hmem).1 rfl
  have hcell : ∀ {cell : String}, ReadableCell cell →
      Lines.strip (' ' :: (cell.toList ++ [' '])) = cell.toList := by
    intro cell hcell
    exact (Lines.stripBy_between (by decide) (by decide) _).trans (strip_of_stripped hcell.1)
  have hends : ¬((rowLine row).head? ≠ some '|' ∨ (rowLine row).getLast? ≠ some '|') := by
    rw [hlast]
    simp [hline]
  rw [tableCells, hstrip, if_neg hends, hinner,
    List.splitOn_append_cons_self_of_not_mem (hpipe hcode), List.splitOn_eq_singleton (hpipe hmemory),
    List.map_cons, List.map_cons, List.map_nil, hcell hcode, hcell hmemory]

theorem ledgerRowsFrom_written {rows : List LedgerRow}
    (h : ∀ row ∈ rows, ReadableCell row.codeCommit ∧ ReadableCell row.memoryCommit)
    (above : List LedgerRow) :
    ledgerRowsFrom above (rows.map rowLine) = .ok (above ++ rows) := by
  induction rows generalizing above with
  | nil => rw [List.append_nil]; rfl
  | cons row rows ih =>
    have hrow := h row List.mem_cons_self
    rw [List.map_cons, ledgerRowsFrom, tableCells_rowLine hrow.1 hrow.2]
    simp only [String.ofList_toList]
    rw [ih fun row hrow => h row (List.mem_cons_of_mem _ hrow), List.append_assoc]
    rfl

theorem not_isBreak_rowLine {row : LedgerRow} (hcode : ReadableCell row.codeCommit)
    (hmemory : ReadableCell row.memoryCommit) :
    ∀ c ∈ rowLine row, Lines.isBreak c = false := by
  have hmark : ∀ c ∈ [' ', '|', ' '], Lines.isBreak c = false := by
    simp [Lines.isBreak, Lines.breaks]
  intro c hc
  simp only [rowLine, List.mem_append] at hc
  rcases hc with (((hc | hc) | hc) | hc) | hc
  · exact hmark c (List.mem_of_mem_tail (l := [' ', '|', ' ']) hc)
  · exact (hcode.2 c hc).2
  · exact hmark c hc
  · exact (hmemory.2 c hc).2
  · exact hmark c (List.mem_of_mem_dropLast (l := [' ', '|', ' ']) hc)

theorem not_isBreak_tableLines : ∀ l ∈ tableLines, ∀ c ∈ l, Lines.isBreak c = false := by
  have hplain : tableLines.all (fun l => l.all fun c => !Lines.isBreak c) = true := by
    decide +kernel
  intro l hl c hc
  have hline := List.all_eq_true.mp (List.all_eq_true.mp hplain l hl) c hc
  simpa using hline

theorem parseLedgerRows_written {rows : List LedgerRow}
    (h : ∀ row ∈ rows, ReadableCell row.codeCommit ∧ ReadableCell row.memoryCommit) :
    parseLedgerRows ('\n' :: Lines.join (tableLines ++ rows.map rowLine)) = .ok rows := by
  have hplain : ∀ l ∈ [] :: (tableLines ++ rows.map rowLine), ∀ c ∈ l,
      Lines.isBreak c = false := by
    intro l hl
    rcases List.mem_cons.mp hl with rfl | hl
    · simp
    rcases List.mem_append.mp hl with hl | hl
    · exact not_isBreak_tableLines l hl
    · obtain ⟨row, hrow, rfl⟩ := List.mem_map.mp hl
      exact not_isBreak_rowLine (h row hrow).1 (h row hrow).2
  have hlines := Lines.splitlines_join_lines hplain
  have htable : rowsBelow ([] :: (tableLines ++ rows.map rowLine)) =
      ledgerRowsFrom [] (rows.map rowLine) := rfl
  rw [parseLedgerRows, show '\n' :: Lines.join (tableLines ++ rows.map rowLine) =
    Lines.join ([] :: (tableLines ++ rows.map rowLine)) from rfl, hlines, htable,
    ledgerRowsFrom_written h]
  rfl

/-! ## The header -/

theorem metadataGet_absent {metadata : List (String × Json)} {names : List String}
    (h : ∀ name ∈ names, metadata.lookup name = none) : metadataGet metadata names = "" := by
  induction names with
  | nil => rfl
  | cons name names ih =>
    rw [metadataGet, h name List.mem_cons_self]
    exact ih fun n hn => h n (List.mem_cons_of_mem _ hn)

/-- A field is read under the name it is written under; a blank one is read as
the empty text. -/
theorem metadataGet_written {metadata : List (String × Json)} {name value : String}
    {names : List String} (hname : metadata.lookup name = some (.str value))
    (hnames : ∀ n ∈ names, metadata.lookup n = none) :
    metadataGet metadata (name :: names) = stripped value := by
  simp only [metadataGet, hname]
  by_cases hempty : stripped value = ""
  · rw [if_neg (not_not.mpr hempty), hempty]
    exact metadataGet_absent hnames
  · rw [if_pos hempty]

theorem stripped_metadataGet (metadata : List (String × Json)) (names : List String) :
    stripped (metadataGet metadata names) = metadataGet metadata names := by
  induction names with
  | nil => rfl
  | cons name names ih =>
    rw [metadataGet]
    split
    · split
      · exact stripped_stripped _
      · exact ih
    · exact ih

theorem validateLedger_eq_ok {ledger : MemoryLedger} :
    validateLedger ledger = .ok () ↔
      ledger.sortOrder = "newest-first" ∧
      (ledger.rows = [] →
        ledger.lastVerifiedCodeCommit = "" ∧ ledger.lastMemoryContentCommit = "") ∧
      ∀ first, ledger.rows.head? = some first →
        first.codeCommit = ledger.lastVerifiedCodeCommit ∧
          first.memoryCommit = ledger.lastMemoryContentCommit := by
  unfold validateLedger
  by_cases hsort : ledger.sortOrder = "newest-first"
  · cases hrows : ledger.rows with
    | nil => simp [hsort]
    | cons first rows =>
      by_cases hcode : first.codeCommit = ledger.lastVerifiedCodeCommit
      · simp [hsort, hcode]
      · simp [hsort, hcode]
  · simp [hsort]

/-- A ledger whose fields the reader takes as they were written. -/
structure Readable (ledger : MemoryLedger) : Prop where
  repoName : stripped ledger.repoName = ledger.repoName ∧ ledger.repoName ≠ ""
  baseCode : stripped ledger.baseCodeCommit = ledger.baseCodeCommit
  baseMemory : stripped ledger.baseMemoryCommit = ledger.baseMemoryCommit
  cells : ∀ row ∈ ledger.rows, ReadableCell row.codeCommit ∧ ReadableCell row.memoryCommit
  bases : ledger.rows ≠ [] → ledger.baseCodeCommit ≠ "" ∧ ledger.baseMemoryCommit ≠ ""
  first : ∀ row, ledger.rows.head? = some row → row.codeCommit ≠ "" ∧ row.memoryCommit ≠ ""

section written
variable {ledger : MemoryLedger}

theorem stripped_lastVerified (hvalid : validateLedger ledger = .ok ()) (h : Readable ledger) :
    stripped ledger.lastVerifiedCodeCommit = ledger.lastVerifiedCodeCommit ∧
      stripped ledger.lastMemoryContentCommit = ledger.lastMemoryContentCommit := by
  obtain ⟨-, hempty, hfirst⟩ := validateLedger_eq_ok.mp hvalid
  cases hrows : ledger.rows with
  | nil =>
    rw [(hempty hrows).1, (hempty hrows).2]
    exact ⟨rfl, rfl⟩
  | cons first rows =>
    obtain ⟨hcode, hmemory⟩ := hfirst first (by rw [hrows]; rfl)
    have hcells := h.cells first (by rw [hrows]; exact List.mem_cons_self)
    rw [← hcode, ← hmemory]
    exact ⟨hcells.1.1, hcells.2.1⟩

/-- Every field of the block is stripped when it is read. -/
theorem headerOf_metadataOf (ledger : MemoryLedger) :
    headerOf ((metadataOf ledger).map Json.stringMember) =
      { repoName := stripped ledger.repoName
        baseCodeCommit := stripped ledger.baseCodeCommit
        baseMemoryCommit := stripped ledger.baseMemoryCommit
        lastVerifiedCodeCommit := stripped ledger.lastVerifiedCodeCommit
        lastMemoryContentCommit := stripped ledger.lastMemoryContentCommit
        sortOrder := stripped ledger.sortOrder
        rows := []
        schema := stripped ledgerSchema } := by
  rw [headerOf, MemoryLedger.mk.injEq]
  refine ⟨?_, ?_, ?_, ?_, ?_, ?_, rfl, ?_⟩
  all_goals
    apply metadataGet_written
    · simp [metadataOf, Json.stringMember, List.lookup]
    · simp [metadataOf, Json.stringMember, List.lookup]

theorem stripped_newest : stripped "newest-first" = "newest-first" := by decide

theorem stripped_ledgerSchema : stripped ledgerSchema = ledgerSchema := by decide

theorem headerOf_written (hvalid : validateLedger ledger = .ok ()) (h : Readable ledger) :
    headerOf ((metadataOf ledger).map Json.stringMember) =
      { ledger with rows := [], schema := ledgerSchema } := by
  obtain ⟨hverified, hcontent⟩ := stripped_lastVerified hvalid h
  have hsort := (validateLedger_eq_ok.mp hvalid).1
  rw [headerOf_metadataOf, h.repoName.1, h.baseCode, h.baseMemory, hverified, hcontent, hsort,
    stripped_newest, stripped_ledgerSchema]

theorem requireCommits_of_readable (hvalid : validateLedger ledger = .ok ())
    (h : Readable ledger) :
    requireCommits { ledger with rows := [], schema := ledgerSchema } ledger.rows = .ok () := by
  obtain ⟨-, -, hfirst⟩ := validateLedger_eq_ok.mp hvalid
  rw [requireCommits, if_neg]
  rintro ⟨hne, hmem⟩
  obtain ⟨first, rows, hrows⟩ := List.exists_cons_of_ne_nil hne
  have hhead : ledger.rows.head? = some first := by rw [hrows]; rfl
  obtain ⟨hcode, hmemory⟩ := hfirst first hhead
  obtain ⟨hcode', hmemory'⟩ := h.first first hhead
  obtain ⟨hbase, hbase'⟩ := h.bases hne
  rw [hcode] at hcode'
  rw [hmemory] at hmemory'
  simp only [commitFields, List.mem_cons, List.not_mem_nil, or_false] at hmem
  rcases hmem with hmem | hmem | hmem | hmem
  · exact hbase hmem.symm
  · exact hbase' hmem.symm
  · exact hcode' hmem.symm
  · exact hmemory' hmem.symm

theorem written_eq (ledger : MemoryLedger) :
    ['\n'].intercalate (ledgerLines ledger) =
      Lines.join titleLines ++ (openingMark ++ ' ' :: (ledgerMark ++
        '\n' :: (Json.renderIndented (metadataOf ledger) ++ '\n' :: (fence ++
          '\n' :: Lines.join (tableLines ++ ledger.rows.map rowLine))))) := by
  rw [ledgerLines, Lines.intercalate_join]
  simp [Lines.join]

theorem readMetadata_written (reader : JsonReader) (ledger : MemoryLedger) :
    readMetadata reader (Json.renderIndented (metadataOf ledger)) =
      .ok ((metadataOf ledger).map Json.stringMember) := by
  rw [readMetadata, reader.reads_back _ (by simp [metadataOf])]

/-- A readable ledger is read back from its own text. -/
theorem parse_written (reader : JsonReader) (hvalid : validateLedger ledger = .ok ())
    (h : Readable ledger) :
    parseLedgerText reader (['\n'].intercalate (ledgerLines ledger)) =
      .ok { ledger with schema := ledgerSchema } := by
  have hsort := (validateLedger_eq_ok.mp hvalid).1
  have hfields : requireFields { ledger with rows := [], schema := ledgerSchema } = .ok () := by
    have hmissing : missingFields { ledger with rows := [], schema := ledgerSchema } = [] := by
      simp [missingFields, ledgerSchema, h.repoName.2, hsort]
    simp [requireFields, hmissing]
  have hcurrent : validateLedger { ledger with schema := ledgerSchema } = .ok () := hvalid
  rw [parseLedgerText, parseLedgerTextUnvalidated, written_eq, findFence_written]
  simp only [readMetadata_written, headerOf_written hvalid h, hfields, parseLedgerRows_written h.cells,
    requireCommits_of_readable hvalid h, bind, Except.bind, pure, Except.pure, hcurrent]

/-- A ledger with a blank name is refused once it is written. -/
theorem parse_nameless (reader : JsonReader) (hvalid : validateLedger ledger = .ok ())
    (hname : stripped ledger.repoName = "") :
    parseLedgerText reader (['\n'].intercalate (ledgerLines ledger)) =
      .error "memory.md ledger metadata is missing required fields: repoName" := by
  have hsort := (validateLedger_eq_ok.mp hvalid).1
  have hmissing : missingFields (headerOf ((metadataOf ledger).map Json.stringMember)) =
      ["repoName"] := by
    rw [headerOf_metadataOf, hname, hsort, stripped_newest, stripped_ledgerSchema]
    rfl
  have hfields : requireFields (headerOf ((metadataOf ledger).map Json.stringMember)) =
      .error "memory.md ledger metadata is missing required fields: repoName" := by
    rw [requireFields, hmissing]
    rfl
  rw [parseLedgerText, parseLedgerTextUnvalidated, written_eq, findFence_written]
  simp only [readMetadata_written, hfields, bind, Except.bind]

end written

/-! ## What is read -/

theorem mem_splitOn {a : Char} {s segment : List Char} (h : segment ∈ s.splitOn a) :
    ∀ c ∈ segment, c ≠ a ∧ c ∈ s := by
  induction s generalizing segment with
  | nil =>
    obtain rfl : segment = [] := by simpa using h
    simp
  | cons d s ih =>
    rw [List.splitOn_cons_eq_if_modifyHead] at h
    by_cases hd : d = a
    · rw [if_pos (beq_iff_eq.mpr hd), List.mem_cons] at h
      intro c hc
      obtain rfl | h := h
      · cases hc
      · exact ⟨(ih h c hc).1, List.mem_cons_of_mem _ (ih h c hc).2⟩
    · rw [if_neg (by simpa using hd)] at h
      cases hsplit : s.splitOn a with
      | nil => exact absurd hsplit (List.splitOn_ne_nil a s)
      | cons first segments =>
        rw [hsplit, List.modifyHead_cons, List.mem_cons] at h
        intro c hc
        obtain rfl | h := h
        · obtain rfl | hc := List.mem_cons.mp hc
          · exact ⟨hd, List.mem_cons_self⟩
          · have hfirst := ih (hsplit ▸ List.mem_cons_self) c hc
            exact ⟨hfirst.1, List.mem_cons_of_mem _ hfirst.2⟩
        · have hlater := ih (hsplit ▸ List.mem_cons_of_mem _ h) c hc
          exact ⟨hlater.1, List.mem_cons_of_mem _ hlater.2⟩

/-- A cell of a line that holds no line boundary. -/
theorem readableCell_of_mem {line cell : List Char} (h : cell ∈ tableCells line)
    (hline : ∀ c ∈ line, Lines.isBreak c = false) : ReadableCell (String.ofList cell) := by
  unfold tableCells at h
  dsimp only at h
  split at h
  · cases h
  · obtain ⟨segment, hsegment, rfl⟩ := List.mem_map.mp h
    constructor
    · rw [stripped, String.toList_ofList, Lines.strip_strip]
    · intro c hc
      rw [String.toList_ofList] at hc
      obtain ⟨hpipe, hinner⟩ := mem_splitOn hsegment c ((Lines.sublist_stripBy segment).subset hc)
      have hmem := (Lines.sublist_stripBy line).subset ((Lines.sublist_stripBy _).subset hinner)
      exact ⟨hpipe, hline c hmem⟩

theorem readable_of_ledgerRowsFrom {above rows : List LedgerRow} {lines : List (List Char)}
    (h : ledgerRowsFrom above lines = .ok rows)
    (hlines : ∀ l ∈ lines, ∀ c ∈ l, Lines.isBreak c = false)
    (habove : ∀ row ∈ above, ReadableCell row.codeCommit ∧ ReadableCell row.memoryCommit) :
    ∀ row ∈ rows, ReadableCell row.codeCommit ∧ ReadableCell row.memoryCommit := by
  induction lines generalizing above with
  | nil =>
    rw [ledgerRowsFrom, Except.ok.injEq] at h
    exact h ▸ habove
  | cons line lines ih =>
    have hrest : ∀ l ∈ lines, ∀ c ∈ l, Lines.isBreak c = false :=
      fun l hl => hlines l (List.mem_cons_of_mem _ hl)
    have hline := hlines line List.mem_cons_self
    rw [ledgerRowsFrom] at h
    split at h
    · split at h
      · rw [Except.ok.injEq] at h
        exact h ▸ habove
      · exact ih h hrest habove
    · rename_i code memory hcells
      apply ih h hrest
      intro row hrow
      rcases List.mem_append.mp hrow with hrow | hrow
      · exact habove row hrow
      · rw [List.mem_singleton.mp hrow]
        exact ⟨readableCell_of_mem (by rw [hcells]; simp) hline,
          readableCell_of_mem (by rw [hcells]; simp) hline⟩
    · cases h

theorem readable_of_rowsBelow {lines : List (List Char)} {rows : List LedgerRow}
    (h : rowsBelow lines = .ok rows) (hlines : ∀ l ∈ lines, ∀ c ∈ l, Lines.isBreak c = false) :
    ∀ row ∈ rows, ReadableCell row.codeCommit ∧ ReadableCell row.memoryCommit := by
  induction lines with
  | nil => cases h
  | cons line lines ih =>
    have hrest : ∀ l ∈ lines, ∀ c ∈ l, Lines.isBreak c = false :=
      fun l hl => hlines l (List.mem_cons_of_mem _ hl)
    unfold rowsBelow at h
    split at h
    · split at h
      · cases h
      · split at h
        · exact readable_of_ledgerRowsFrom h
            (fun l hl => hrest l (List.mem_cons_of_mem _ hl)) (by simp)
        · cases h
    · exact ih h hrest

/-- What is read is a valid ledger, and one that can be written. -/
theorem readable_of_parse {reader : JsonReader} {text : List Char} {ledger : MemoryLedger}
    (h : parseLedgerText reader text = .ok ledger) :
    validateLedger ledger = .ok () ∧ Readable ledger := by
  obtain ⟨read, hread, h⟩ := Attempts.bind_eq_ok.mp h
  obtain ⟨⟨⟩, hvalid, h⟩ := Attempts.bind_eq_ok.mp h
  obtain rfl : read = ledger := Except.ok.inj h
  refine ⟨hvalid, ?_⟩
  unfold parseLedgerTextUnvalidated at hread
  split at hread
  · cases hread
  rename_i body rest hfence
  obtain ⟨metadata, -, hread⟩ := Attempts.bind_eq_ok.mp hread
  obtain ⟨⟨⟩, hfields, hread⟩ := Attempts.bind_eq_ok.mp hread
  obtain ⟨rows, hrows, hread⟩ := Attempts.bind_eq_ok.mp hread
  obtain ⟨⟨⟩, hcommits, hread⟩ := Attempts.bind_eq_ok.mp hread
  obtain rfl := Except.ok.inj hread
  have hname : (headerOf metadata).repoName ≠ "" := by
    intro hempty
    rw [requireFields, if_pos] at hfields
    · cases hfields
    · simp [missingFields, hempty]
  have hpresent : rows ≠ [] → ∀ commit ∈ commitFields (headerOf metadata), commit ≠ "" := by
    intro hne commit hcommit hempty
    rw [requireCommits, if_pos ⟨hne, hempty ▸ hcommit⟩] at hcommits
    cases hcommits
  obtain ⟨-, -, hfirst⟩ := validateLedger_eq_ok.mp hvalid
  exact
    { repoName := ⟨stripped_metadataGet _ _, hname⟩
      baseCode := stripped_metadataGet _ _
      baseMemory := stripped_metadataGet _ _
      cells := readable_of_rowsBelow hrows fun _ hl _ hc => Lines.isBreak_of_mem_splitlines hl hc
      bases := fun hne => ⟨hpresent hne _ (by simp [commitFields]),
        hpresent hne _ (by simp [commitFields])⟩
      first := by
        intro row hrow
        have hne : rows ≠ [] := by
          rintro rfl
          cases hrow
        obtain ⟨hcode, hmemory⟩ := hfirst row hrow
        rw [hcode, hmemory]
        exact ⟨hpresent hne _ (by simp [commitFields]), hpresent hne _ (by simp [commitFields])⟩ }

/-! ## The law -/

/-- What the writer accepts is read back, under the current schema. -/
def RoundTrips (reader : JsonReader) (ledger : MemoryLedger) : Prop :=
  ∀ text, ledgerToText ledger = .ok text →
    parseLedgerText reader text = .ok { ledger with schema := ledgerSchema }

theorem ledgerToText_eq_ok {ledger : MemoryLedger} {text : List Char} :
    ledgerToText ledger = .ok text ↔
      validateLedger ledger = .ok () ∧ ['\n'].intercalate (ledgerLines ledger) = text := by
  rw [ledgerToText, Attempts.bind_eq_ok]
  constructor
  · rintro ⟨⟨⟩, hvalid, htext⟩
    exact ⟨hvalid, Except.ok.inj htext⟩
  · rintro ⟨hvalid, rfl⟩
    exact ⟨(), hvalid, rfl⟩

/-- The schema is no matter of the other fields. -/
theorem readable_schema {ledger : MemoryLedger} {schema : String}
    (h : Readable { ledger with schema := schema }) : Readable ledger :=
  ⟨h.repoName, h.baseCode, h.baseMemory, h.cells, h.bases, h.first⟩

theorem roundTrips_iff (reader : JsonReader) (ledger : MemoryLedger) :
    RoundTrips reader ledger ↔ (validateLedger ledger = .ok () → Readable ledger) := by
  constructor
  · intro h hvalid
    exact readable_schema (readable_of_parse (h _ (ledgerToText_eq_ok.mpr ⟨hvalid, rfl⟩))).2
  · intro h text htext
    obtain ⟨hvalid, rfl⟩ := ledgerToText_eq_ok.mp htext
    exact parse_written reader hvalid (h hvalid)

section prepended
variable {ledger next : MemoryLedger} {code memory : String}

theorem validateLedger_prependMapping (h : prependMapping ledger code memory = .ok next)
    (hsort : ledger.sortOrder = "newest-first") : validateLedger next = .ok () := by
  unfold prependMapping at h
  split at h
  · cases h
  obtain rfl := Except.ok.inj h
  exact validateLedger_eq_ok.mpr ⟨hsort, by simp, by simp⟩

/-- A new mapping keeps a ledger readable when the table can hold its two
cells and the header names the commits it began with. -/
theorem readable_prependMapping (h : prependMapping ledger code memory = .ok next)
    (hledger : Readable ledger) (hbases : ledger.baseCodeCommit ≠ "" ∧ ledger.baseMemoryCommit ≠ "")
    (hcode : ReadableCell (stripped code)) (hmemory : ReadableCell (stripped memory)) :
    Readable next := by
  unfold prependMapping at h
  split at h
  · cases h
  rename_i hpresent
  obtain rfl := Except.ok.inj h
  refine ⟨hledger.repoName, hledger.baseCode, hledger.baseMemory, ?_, fun _ => hbases, ?_⟩
  · intro row hrow
    rcases List.mem_cons.mp hrow with rfl | hrow
    · exact ⟨hcode, hmemory⟩
    · exact hledger.cells row hrow
  · intro row hrow
    obtain rfl := Option.some.inj hrow
    exact not_or.mp hpresent

end prepended

/-- What was read is read again after writing. -/
theorem exists_parse_ledgerToText (reader : JsonReader) {text : List Char} {ledger : MemoryLedger}
    (h : parseLedgerText reader text = .ok ledger) :
    ∃ again, ledgerToText ledger = .ok again ∧
      parseLedgerText reader again = .ok { ledger with schema := ledgerSchema } := by
  obtain ⟨hvalid, hreadable⟩ := readable_of_parse h
  exact ⟨_, ledgerToText_eq_ok.mpr ⟨hvalid, rfl⟩, parse_written reader hvalid hreadable⟩

/-- Exactly the readable ledgers come back from the text the writer accepts them
into, and whatever text is read keeps its rows when it is written and read again. -/
theorem ledger_roundTrip (reader : JsonReader) :
    (∀ ledger, RoundTrips reader ledger ↔ (validateLedger ledger = .ok () → Readable ledger)) ∧
      ∀ text ledger, parseLedgerText reader text = .ok ledger →
        ∃ again ledger', ledgerToText ledger = .ok again ∧
          parseLedgerText reader again = .ok ledger' ∧ ledger'.rows = ledger.rows := by
  refine ⟨roundTrips_iff reader, ?_⟩
  intro text ledger h
  obtain ⟨again, hagain, hparse⟩ := exists_parse_ledgerToText reader h
  exact ⟨again, _, hagain, hparse, rfl⟩

/-- A repository without a name is written, and its ledger refused. -/
theorem nameless_ledger_refused :
    ∃ text, ledgerToText (createInitialLedger "" "c0de" "feed") = .ok text ∧
      parseLedgerText .strict text =
        .error "memory.md ledger metadata is missing required fields: repoName" := by
  have hvalid : validateLedger (createInitialLedger "" "c0de" "feed") = .ok () := by decide
  exact ⟨_, ledgerToText_eq_ok.mpr ⟨hvalid, rfl⟩, parse_nameless .strict hvalid rfl⟩

end AgentsRemember.Ledger
