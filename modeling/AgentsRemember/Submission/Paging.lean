import Mathlib.Data.Nat.Find
import AgentsRemember.Foundation.Ranked
import AgentsRemember.Submission.Floor

/-!
# Submission — Paging

The operation timeline: the retained rows in the order of their ordinals, page
by page (`SubmissionLedger.operation_timeline`), and the reader who asks for
page after page until one was not cut (`read_full_timeline`).

Between two pages the authority runs on. The reader is handed `seen i`, the
authority as it is when the `i`-th page is served, and `UnderReading` says that
each of these is reached from the one before by steps of the authority.

The encoded size of an item is a parameter: nothing depends on it. The way over
the wire is left out, but for the client's checks of a page.
-/

namespace AgentsRemember.Submission

/-- One retained row, never its body. -/
structure OperationTimelineItem where
  operationId : String
  kind : ControlOperationKind
  source : Option SubmissionSource
  state : SubmissionLifecycleState
  sequence : Nat
  submittedAt : String
  updatedAt : String
  acceptedAt : Option String
  payloadDigestPresent : Bool
  vendorCorrelationId : Option String := none
  deriving DecidableEq

/-- A page of the timeline. -/
structure OperationTimeline where
  bridgeEpoch : String
  latestSequence : Nat
  evictedBeforeSequence : Nat
  truncated : Bool
  items : List OperationTimelineItem

/-- A record as a timeline shows it. -/
def OperationRecord.timelineItem (record : OperationRecord) : OperationTimelineItem :=
  { operationId := record.ref.operationId
    kind := record.ref.kind
    source := record.source
    state := record.state
    sequence := record.ref.sequence
    submittedAt := record.submittedAt
    updatedAt := record.updatedAt
    acceptedAt := record.acceptedAt
    payloadDigestPresent := record.payloadDigest.isSome
    vendorCorrelationId := record.vendorCorrelationId }

/-- The cap on a page. -/
def maxOperationTimelinePage : Nat := 256

/-- The loop of `operation_timeline` over the sorted records: whether the page
was cut, and its items. The first item is taken whatever its size. -/
def takePage (wireBytes : OperationTimelineItem → Nat) (afterSequence bounded byteBudget : Nat) :
    List OperationRecord → List OperationTimelineItem → Nat → Bool × List OperationTimelineItem
  | [], items, _ => (false, items)
  | record :: records, items, used =>
    if record.ref.sequence ≤ afterSequence then
      takePage wireBytes afterSequence bounded byteBudget records items used
    else
      let item := record.timelineItem
      let size := wireBytes item
      if bounded ≤ items.length ∨ items ≠ [] ∧ byteBudget < used + size then (true, items)
      else takePage wireBytes afterSequence bounded byteBudget records (items ++ [item])
        (used + size)

namespace Authority

/-- Every retained record, the ledger's `_records.values()`. -/
def records (a : Authority) : List OperationRecord :=
  a.ledger.records.filterMap fun row => a.objects row.2

/-- One page of the timeline. -/
def operationTimeline (wireBytes : OperationTimelineItem → Nat) (a : Authority)
    (expectedBridgeEpoch : String) (afterSequence limit byteBudget : Nat) :
    Except HarnessError OperationTimeline :=
  if expectedBridgeEpoch ≠ a.bridgeEpoch then
    .error (.bridgeEpochMismatch expectedBridgeEpoch a.bridgeEpoch)
  else if limit < 1 ∨ byteBudget < 1 then
    .error (.control "operation timeline requires positive limit and byte budget")
  else
    let (truncated, items) := takePage wireBytes afterSequence
      (min maxOperationTimelinePage limit) byteBudget
      (Ranked.sortBy (fun record => record.ref.sequence) a.records) [] 0
    .ok { bridgeEpoch := a.bridgeEpoch
          latestSequence := a.ledger.sequence
          evictedBeforeSequence := a.ledger.evictedBeforeSequence
          truncated := truncated
          items := items }

end Authority

/-- What the client requires of a page, `_operation_timeline`. -/
def parseOperationTimeline (page : OperationTimeline) : Except HarnessError OperationTimeline :=
  if page.latestSequence < page.evictedBeforeSequence then
    .error (.control "operation timeline eviction floor exceeds its high-water mark")
  else if page.truncated = true ∧ page.items = [] then
    .error (.control "operation timeline empty page cannot be truncated")
  else if ¬List.IsChain (· < ·) (0 :: page.items.map (·.sequence)) then
    .error (.control "operation timeline items must increase monotonically")
  else if page.items.getLast?.any fun last => page.latestSequence < last.sequence then
    .error (.control "operation timeline latestSequence precedes its last item")
  else .ok page

/-- `read_full_timeline` from its `i`-th page on, for `fuel` pages at most;
`none` while the last page read was cut. -/
def readTimelineFrom (wireBytes : OperationTimelineItem → Nat) (seen : Nat → Authority)
    (expectedBridgeEpoch : String) (limit byteBudget : Nat) :
    Nat → Nat → Nat → List OperationTimelineItem →
      Except HarnessError (Option (List OperationTimelineItem))
  | 0, _, _, _ => .ok none
  | fuel + 1, i, after, items =>
    match ((seen i).operationTimeline wireBytes expectedBridgeEpoch after limit byteBudget).bind
        parseOperationTimeline with
    | .error e => .error e
    | .ok page =>
      if page.truncated = false then .ok (some (items ++ page.items))
      else match page.items.getLast? with
        | some last => readTimelineFrom wireBytes seen expectedBridgeEpoch limit byteBudget fuel
            (i + 1) last.sequence (items ++ page.items)
        -- `page.items[-1]` of an empty page, which the client refuses
        | none => .error (.valueError "tuple index out of range")

/-- `read_full_timeline`; none where the fuel ran out. -/
def readFullTimeline (wireBytes : OperationTimelineItem → Nat) (seen : Nat → Authority)
    (expectedBridgeEpoch : String) (limit byteBudget fuel : Nat) :
    Except HarnessError (Option (List OperationTimelineItem)) :=
  readTimelineFrom wireBytes seen expectedBridgeEpoch limit byteBudget fuel 0 0 []

/-- The authorities a reader meets, page after page. -/
structure UnderReading (config : AuthorityConfig) (snapshot : AdapterSnapshot)
    (seen : Nat → Authority) : Prop where
  first : Authority.ReachableFrom config snapshot (seen 0)
  next : ∀ i, Runs.Reachable Authority.step (seen i) (seen (i + 1))

/-! ## One page -/

section page
variable {wireBytes : OperationTimelineItem → Nat} {after bounded byteBudget : Nat}

/-- A page takes the records above the cursor up to a cut, and at least one. -/
theorem takePage_split (hbounded : 1 ≤ bounded) (records : List OperationRecord)
    (items : List OperationTimelineItem) (used : Nat) :
    ∃ taken rest, records.filter (fun record => decide (after < record.ref.sequence)) =
        taken ++ rest ∧
      takePage wireBytes after bounded byteBudget records items used =
        (decide (rest ≠ []), items ++ taken.map OperationRecord.timelineItem) ∧
      (rest ≠ [] → items ++ taken.map OperationRecord.timelineItem ≠ []) := by
  induction records generalizing items used with
  | nil => exact ⟨[], [], rfl, by simp [takePage], fun h => absurd rfl h⟩
  | cons record records ih =>
    by_cases hold : record.ref.sequence ≤ after
    · obtain ⟨taken, rest, hsplit, htake, hsome⟩ := ih items used
      refine ⟨taken, rest, ?_, ?_, hsome⟩
      · rw [List.filter_cons, if_neg (by simpa using hold), hsplit]
      · rw [takePage, if_pos hold, htake]
    · have hfilter : (record :: records).filter (fun record => decide (after < record.ref.sequence))
          = record :: records.filter fun record => decide (after < record.ref.sequence) := by
        rw [List.filter_cons, if_pos (by simpa using hold)]
      by_cases hcut : bounded ≤ items.length ∨
          items ≠ [] ∧ byteBudget < used + wireBytes record.timelineItem
      · refine ⟨[], _, hfilter, ?_, fun _ => ?_⟩
        · rw [takePage, if_neg hold]
          simp [hcut]
        · rcases hcut with hlong | ⟨hne, -⟩
          · have hpos : 0 < items.length := by omega
            simpa using List.ne_nil_of_length_pos hpos
          · simpa using hne
      · obtain ⟨taken, rest, hsplit, htake, -⟩ := ih (items ++ [record.timelineItem])
          (used + wireBytes record.timelineItem)
        refine ⟨record :: taken, rest, ?_, ?_, ?_⟩
        · rw [hfilter, hsplit, List.cons_append]
        · rw [takePage, if_neg hold]
          simp [hcut, htake]
        · simp

end page

/-- The page an authority serves behind a cursor. -/
def servedPage (wireBytes : OperationTimelineItem → Nat) (a : Authority)
    (after limit byteBudget : Nat) : Pages.Page OperationTimelineItem :=
  let page := takePage wireBytes after (min maxOperationTimelinePage limit) byteBudget
    (Ranked.sortBy (fun record => record.ref.sequence) a.records) [] 0
  { items := page.2, truncated := page.1 }

theorem mem_servedPage {wireBytes : OperationTimelineItem → Nat} {a : Authority}
    {after limit byteBudget : Nat} (hlimit : 1 ≤ limit) {item : OperationTimelineItem}
    (h : item ∈ (servedPage wireBytes a after limit byteBudget).items) :
    ∃ record ∈ a.records, item = record.timelineItem := by
  obtain ⟨taken, rest, hsplit, htake, -⟩ := @takePage_split wireBytes after _ byteBudget
    (show 1 ≤ min maxOperationTimelinePage limit by rw [maxOperationTimelinePage]; omega)
    (Ranked.sortBy (fun record => record.ref.sequence) a.records) [] 0
  simp only [servedPage, htake, List.nil_append, List.mem_map] at h
  obtain ⟨record, hrecord, rfl⟩ := h
  have hmem : record ∈ (taken ++ rest) := List.mem_append_left _ hrecord
  rw [← hsplit] at hmem
  exact ⟨record, Ranked.mem_sortBy.mp (List.mem_filter.mp hmem).1, rfl⟩

namespace Authority

section records
variable {a : Authority} (h : a.Valid)
include h

theorem Valid.records_sequences :
    a.records.map (fun record => record.ref.sequence) = a.ledger.records.map Prod.snd := by
  have hrows : ∀ row ∈ a.ledger.records, ∃ record, a.objects row.2 = some record ∧
      record.ref.sequence = row.2 := by
    intro row hrow
    obtain ⟨st, hm⟩ := h.core.row row.1 row.2 (Keyed.lookup_of_mem h.ledger.nodup hrow)
    obtain ⟨record, ho, -⟩ := Option.map_eq_some_iff.mp hm
    exact ⟨record, ho, (h.objects _ _ ho).1⟩
  unfold records
  generalize a.ledger.records = rows at hrows
  induction rows with
  | nil => rfl
  | cons row rows ih =>
    obtain ⟨record, ho, hseq⟩ := hrows row (by simp)
    have hrest := ih fun row' hrow' => hrows row' (List.mem_cons_of_mem _ hrow')
    simp [ho, hseq, hrest]

theorem Valid.mem_sequences {n : Nat} :
    n ∈ a.records.map (fun record => record.ref.sequence) ↔ a.ledger.Retains n := by
  rw [h.records_sequences, List.mem_map]
  constructor
  · rintro ⟨row, hrow, rfl⟩
    exact ⟨row.1, Keyed.lookup_of_mem h.ledger.nodup hrow⟩
  · rintro ⟨key, hkey⟩
    exact ⟨(key, n), Keyed.mem_of_lookup hkey, rfl⟩

/-- Two rows of one ordinal would be one record under two keys. -/
theorem Valid.sequences_nodup :
    (a.records.map fun record => record.ref.sequence).Nodup := by
  rw [h.records_sequences]
  refine List.pairwise_map.mpr ((List.pairwise_map.mp h.ledger.nodup).imp_of_mem ?_)
  intro row row' hrow hrow' hkeys hsame
  obtain ⟨st, hm⟩ := h.core.row row.1 row.2 (Keyed.lookup_of_mem h.ledger.nodup hrow)
  obtain ⟨st', hm'⟩ := h.core.row row'.1 row'.2 (Keyed.lookup_of_mem h.ledger.nodup hrow')
  rw [hsame, hm'] at hm
  exact hkeys (congrArg Prod.fst (Option.some.inj hm)).symm

variable {wireBytes : OperationTimelineItem → Nat} {limit byteBudget : Nat} (hlimit : 1 ≤ limit)
include hlimit

theorem Valid.page_serves (after : Nat) :
    Pages.Serves OperationTimelineItem.sequence a.ledger.Retains after
      (servedPage wireBytes a after limit byteBudget) := by
  obtain ⟨taken, rest, hsplit, htake, hsome⟩ := @takePage_split wireBytes after _ byteBudget
    (show 1 ≤ min maxOperationTimelinePage limit by rw [maxOperationTimelinePage]; omega)
    (Ranked.sortBy (fun record => record.ref.sequence) a.records) [] 0
  have hitems : (servedPage wireBytes a after limit byteBudget).items.map
      OperationTimelineItem.sequence = taken.map fun record => record.ref.sequence := by
    simp only [servedPage, htake, List.nil_append, List.map_map]
    rfl
  have hcut : (servedPage wireBytes a after limit byteBudget).truncated = decide (rest ≠ []) := by
    simp only [servedPage, htake]
  have hsorted := (Ranked.sortBy_pairwise_lt h.sequences_nodup).filter
    fun record => decide (after < record.ref.sequence)
  have hmem : ∀ n, (a.ledger.Retains n ∧ after < n) ↔
      n ∈ (taken ++ rest).map fun record => record.ref.sequence := by
    intro n
    rw [← hsplit, ← h.mem_sequences]
    simp only [List.mem_map, List.mem_filter, Ranked.mem_sortBy, decide_eq_true_eq]
    constructor
    · rintro ⟨⟨record, hrecord, rfl⟩, hafter⟩
      exact ⟨record, ⟨hrecord, hafter⟩, rfl⟩
    · rintro ⟨record, ⟨hrecord, hafter⟩, rfl⟩
      exact ⟨⟨record, hrecord, rfl⟩, hafter⟩
  rw [hsplit] at hsorted
  obtain ⟨htaken, -, hbelow⟩ := List.pairwise_append.mp hsorted
  constructor
  · rw [hitems]
    exact List.pairwise_map.mpr htaken
  · intro n hn
    rw [hitems] at hn
    exact (hmem n).mpr (by rw [List.map_append]; exact List.mem_append_left _ hn)
  · intro n hn hafter
    rw [hitems, hcut]
    have hall := (hmem n).mp ⟨hn, hafter⟩
    rw [List.map_append, List.mem_append] at hall
    rcases hall with hn | hn
    · exact .inl hn
    · obtain ⟨record, hrecord, rfl⟩ := List.mem_map.mp hn
      right
      refine ⟨by simpa using List.ne_nil_of_mem hrecord, fun m hm => ?_⟩
      obtain ⟨other, hother, rfl⟩ := List.mem_map.mp hm
      exact hbelow other hother record hrecord
  · intro htrunc
    rw [hcut] at htrunc
    simpa [servedPage, htake] using hsome (by simpa using htrunc)

end records

/-- Where the epoch is the authority's own, a page is served. -/
theorem operationTimeline_eq (a : Authority) {wireBytes : OperationTimelineItem → Nat}
    {limit byteBudget : Nat} (hlimit : 1 ≤ limit) (hbudget : 1 ≤ byteBudget) (after : Nat) :
    a.operationTimeline wireBytes a.bridgeEpoch after limit byteBudget =
      .ok { bridgeEpoch := a.bridgeEpoch
            latestSequence := a.ledger.sequence
            evictedBeforeSequence := a.ledger.evictedBeforeSequence
            truncated := (servedPage wireBytes a after limit byteBudget).truncated
            items := (servedPage wireBytes a after limit byteBudget).items } := by
  unfold operationTimeline
  rw [if_neg (by simp), if_neg (by omega)]
  rfl

end Authority

/-- **The client refuses no page the ledger serves.** -/
theorem parseOperationTimeline_serves {a : Authority} (h : a.Valid)
    (hfloor : a.ledger.evictedBeforeSequence ≤ a.ledger.sequence) {after : Nat}
    {page : OperationTimeline} (hlatest : page.latestSequence = a.ledger.sequence)
    (hevicted : page.evictedBeforeSequence = a.ledger.evictedBeforeSequence)
    (hserves : Pages.Serves OperationTimelineItem.sequence a.ledger.Retains after
      { items := page.items, truncated := page.truncated }) :
    parseOperationTimeline page = .ok page := by
  unfold parseOperationTimeline
  rw [if_neg (by omega), if_neg, if_neg, if_neg]
  · intro hlast
    obtain ⟨last, hlast, hlt⟩ := (Option.any_eq_true _ _).mp hlast
    have hmem : last.sequence ∈ page.items.map OperationTimelineItem.sequence :=
      List.mem_map_of_mem (List.mem_of_getLast? hlast)
    have hle := h.retains_le (hserves.sound _ hmem).1
    have hlt : page.latestSequence < last.sequence := of_decide_eq_true hlt
    omega
  · rw [not_not]
    refine (List.pairwise_cons.mpr ⟨fun n hn => ?_, hserves.sorted⟩).isChain
    exact Nat.lt_of_le_of_lt (Nat.zero_le _) (hserves.sound n hn).2
  · rintro ⟨hcut, hnil⟩
    exact hserves.progress hcut hnil

/-! ## The whole reading -/

/-- The pages there are to be read, at each turn and behind each cursor. -/
def seenPages (wireBytes : OperationTimelineItem → Nat) (seen : Nat → Authority)
    (limit byteBudget : Nat) (i after : Nat) : Pages.Page OperationTimelineItem :=
  servedPage wireBytes (seen i) after limit byteBudget

/-- The reading ends with its `k`-th page, with these items. -/
def ReadingEnds (wireBytes : OperationTimelineItem → Nat) (seen : Nat → Authority)
    (epoch : String) (limit byteBudget k : Nat) (items : List OperationTimelineItem) : Prop :=
  readFullTimeline wireBytes seen epoch limit byteBudget k = .ok none ∧
    readFullTimeline wireBytes seen epoch limit byteBudget (k + 1) = .ok (some items)

/-- An authority that the run of a reading of `k` pages and one more passes
through. -/
def PassedWhileReading (seen : Nat → Authority) (k : Nat) (b : Authority) : Prop :=
  b = seen k ∨ ∃ i < k, Runs.Reachable Authority.step (seen i) b ∧
    Runs.Reachable Authority.step b (seen (i + 1))

section reading
variable {config : AuthorityConfig} {snapshot : AdapterSnapshot} {seen : Nat → Authority}
variable (hseen : UnderReading config snapshot seen)
include hseen

theorem UnderReading.reachable (i : Nat) : Authority.ReachableFrom config snapshot (seen i) := by
  induction i with
  | zero => exact hseen.first
  | succ i ih =>
    obtain ⟨steps, hsteps⟩ := ih
    obtain ⟨more, hmore⟩ := hseen.next i
    exact ⟨steps ++ more, Runs.run_append.mpr ⟨seen i, hsteps, hmore⟩⟩

theorem UnderReading.valid (i : Nat) : (seen i).Valid := (hseen.reachable i).valid

theorem UnderReading.bridgeEpoch (i : Nat) : (seen i).bridgeEpoch = config.bridgeEpoch := by
  have hrun := (Authority.start_valid config snapshot).run_advances (hseen.reachable i)
  exact congrArg AuthorityConfig.bridgeEpoch hrun.2.1

theorem UnderReading.advances (i : Nat) : (seen i).ledger.Advances (seen (i + 1)).ledger :=
  ((hseen.valid i).run_advances (hseen.next i)).2.2

variable {wireBytes : OperationTimelineItem → Nat} {limit byteBudget : Nat}
variable (hlimit : 1 ≤ limit) (hbudget : 1 ≤ byteBudget)
include hlimit

theorem UnderReading.serves (i after : Nat) :
    Pages.Serves OperationTimelineItem.sequence (seen i).ledger.Retains after
      (seenPages wireBytes seen limit byteBudget i after) :=
  (hseen.valid i).page_serves hlimit after

include hbudget

theorem UnderReading.served (i after : Nat) :
    ((seen i).operationTimeline wireBytes config.bridgeEpoch after limit byteBudget).bind
        parseOperationTimeline =
      .ok { bridgeEpoch := config.bridgeEpoch
            latestSequence := (seen i).ledger.sequence
            evictedBeforeSequence := (seen i).ledger.evictedBeforeSequence
            truncated := (seenPages wireBytes seen limit byteBudget i after).truncated
            items := (seenPages wireBytes seen limit byteBudget i after).items } := by
  have hserved := @Authority.operationTimeline_eq (seen i) wireBytes _ _ hlimit hbudget after
  rw [hseen.bridgeEpoch i] at hserved
  rw [hserved]
  exact parseOperationTimeline_serves (hseen.valid i) (hseen.reachable i).floor_le rfl rfl
    (hseen.serves hlimit i after)

/-- One turn of the reader's loop. -/
theorem UnderReading.readTimelineFrom_succ (fuel i after : Nat)
    (items : List OperationTimelineItem) :
    readTimelineFrom wireBytes seen config.bridgeEpoch limit byteBudget (fuel + 1) i after items =
      let page := seenPages wireBytes seen limit byteBudget i after
      if page.truncated = false then .ok (some (items ++ page.items))
      else readTimelineFrom wireBytes seen config.bridgeEpoch limit byteBudget fuel (i + 1)
        (page.next OperationTimelineItem.sequence after) (items ++ page.items) := by
  rw [readTimelineFrom, hseen.served hlimit hbudget]
  dsimp only
  have hserves := @UnderReading.serves _ _ _ hseen wireBytes _ byteBudget hlimit i after
  generalize seenPages wireBytes seen limit byteBudget i after = page at hserves
  by_cases hcut : page.truncated = false
  · rw [if_pos hcut, if_pos hcut]
  · rw [if_neg hcut, if_neg hcut]
    obtain ⟨front, last, hlast⟩ : ∃ front last, page.items = front ++ [last] := by
      rcases List.eq_nil_or_concat page.items with hnil | ⟨front, last, hlast⟩
      · exact absurd hnil (hserves.progress (by simpa using hcut))
      · exact ⟨front, last, by rw [hlast, List.concat_eq_append]⟩
    simp [Pages.Page.next, hlast]

/-- While the pages are cut, the reader goes on. -/
theorem UnderReading.readTimelineFrom_cut {i fuel : Nat}
    (hcut : ∀ j, i ≤ j → j < i + fuel → (Pages.pageAt OperationTimelineItem.sequence
      (seenPages wireBytes seen limit byteBudget) j).truncated = true) :
    readTimelineFrom wireBytes seen config.bridgeEpoch limit byteBudget fuel i
      (Pages.cursor OperationTimelineItem.sequence
        (seenPages wireBytes seen limit byteBudget) i)
      (Pages.readThrough OperationTimelineItem.sequence
        (seenPages wireBytes seen limit byteBudget) i) = .ok none := by
  induction fuel generalizing i with
  | zero => rfl
  | succ fuel ih =>
    have hhere := hcut i (le_refl i) (by omega)
    have hrest := ih (i := i + 1) fun j hij hj => hcut j (by omega) (by omega)
    rw [hseen.readTimelineFrom_succ hlimit hbudget]
    rw [Pages.readThrough_succ] at hrest
    rw [Pages.pageAt] at hhere
    dsimp only at hhere ⊢
    rw [if_neg (by simp [hhere])]
    exact hrest

/-- At the first page that is not cut the reading ends. -/
theorem UnderReading.readTimelineFrom_last {i k fuel : Nat} (hik : i ≤ k) (hk : k < i + fuel)
    (hcut : ∀ j, i ≤ j → j < k → (Pages.pageAt OperationTimelineItem.sequence
      (seenPages wireBytes seen limit byteBudget) j).truncated = true)
    (hlast : (Pages.pageAt OperationTimelineItem.sequence
      (seenPages wireBytes seen limit byteBudget) k).truncated = false) :
    readTimelineFrom wireBytes seen config.bridgeEpoch limit byteBudget fuel i
      (Pages.cursor OperationTimelineItem.sequence
        (seenPages wireBytes seen limit byteBudget) i)
      (Pages.readThrough OperationTimelineItem.sequence
        (seenPages wireBytes seen limit byteBudget) i) =
      .ok (some (Pages.readThrough OperationTimelineItem.sequence
        (seenPages wireBytes seen limit byteBudget) (k + 1))) := by
  induction fuel generalizing i with
  | zero => omega
  | succ fuel ih =>
    rw [hseen.readTimelineFrom_succ hlimit hbudget]
    rcases Nat.eq_or_lt_of_le hik with rfl | hlt
    · rw [Pages.pageAt] at hlast
      dsimp only at hlast ⊢
      rw [if_pos hlast, Pages.readThrough_succ]
      rfl
    · have hhere := hcut i (le_refl i) hlt
      have hrest := ih (i := i + 1) hlt (by omega) fun j hij hj => hcut j (by omega) hj
      rw [Pages.readThrough_succ] at hrest
      rw [Pages.pageAt] at hhere
      dsimp only at hhere ⊢
      rw [if_neg (by simp [hhere])]
      exact hrest

theorem UnderReading.ends_iff {k : Nat} {items : List OperationTimelineItem} :
    ReadingEnds wireBytes seen config.bridgeEpoch limit byteBudget k items ↔
      (∀ j < k, (Pages.pageAt OperationTimelineItem.sequence
        (seenPages wireBytes seen limit byteBudget) j).truncated = true) ∧
      (Pages.pageAt OperationTimelineItem.sequence
        (seenPages wireBytes seen limit byteBudget) k).truncated = false ∧
      items = Pages.readThrough OperationTimelineItem.sequence
        (seenPages wireBytes seen limit byteBudget) (k + 1) := by
  -- a reading of some pages either meets an uncut one, the first of which ends it, or goes on
  have hmeets : ∀ fuel, (∃ j < fuel, (Pages.pageAt OperationTimelineItem.sequence
      (seenPages wireBytes seen limit byteBudget) j).truncated = false) →
      ∃ read, readFullTimeline wireBytes seen config.bridgeEpoch limit byteBudget fuel =
        .ok (some read) := by
    intro fuel hsome
    obtain ⟨hlt, hfirst⟩ := Nat.find_spec hsome
    refine ⟨_, hseen.readTimelineFrom_last hlimit hbudget (i := 0) (Nat.zero_le _)
      (by omega) (fun j _ hj => ?_) hfirst⟩
    have hmin := Nat.find_min hsome hj
    cases hj' : (Pages.pageAt OperationTimelineItem.sequence
        (seenPages wireBytes seen limit byteBudget) j).truncated with
    | true => rfl
    | false => exact absurd ⟨by omega, hj'⟩ hmin
  have hgoes : ∀ fuel, (∀ j < fuel, (Pages.pageAt OperationTimelineItem.sequence
      (seenPages wireBytes seen limit byteBudget) j).truncated = true) →
      readFullTimeline wireBytes seen config.bridgeEpoch limit byteBudget fuel = .ok none :=
    fun fuel hcut => hseen.readTimelineFrom_cut hlimit hbudget (i := 0)
      fun j _ hj => hcut j (by omega)
  constructor
  · rintro ⟨hbefore, hlast⟩
    have hcut : ∀ j < k, (Pages.pageAt OperationTimelineItem.sequence
        (seenPages wireBytes seen limit byteBudget) j).truncated = true := by
      intro j hj
      cases hj' : (Pages.pageAt OperationTimelineItem.sequence
          (seenPages wireBytes seen limit byteBudget) j).truncated with
      | true => rfl
      | false =>
        obtain ⟨read, hread⟩ := hmeets k ⟨j, hj, hj'⟩
        rw [hbefore] at hread
        cases hread
    have huncut : (Pages.pageAt OperationTimelineItem.sequence
        (seenPages wireBytes seen limit byteBudget) k).truncated = false := by
      cases hk : (Pages.pageAt OperationTimelineItem.sequence
          (seenPages wireBytes seen limit byteBudget) k).truncated with
      | false => rfl
      | true =>
        have hnone := hgoes (k + 1) fun j hj => by
          rcases Nat.lt_succ_iff_lt_or_eq.mp hj with hj | rfl
          · exact hcut j hj
          · exact hk
        rw [hlast] at hnone
        cases hnone
    refine ⟨hcut, huncut, ?_⟩
    have hread := @UnderReading.readTimelineFrom_last _ _ _ hseen _ _ _ hlimit hbudget 0 _ (k + 1)
      (Nat.zero_le k) (by omega) (fun j _ hj => hcut j hj) huncut
    have hsame := hlast.symm.trans hread
    cases hsame
    rfl
  · rintro ⟨hcut, huncut, rfl⟩
    exact ⟨hgoes k hcut, hseen.readTimelineFrom_last hlimit hbudget (i := 0) (Nat.zero_le k)
      (by omega) (fun j _ hj => hcut j hj) huncut⟩

/-- A reading never fails. -/
theorem UnderReading.reads (fuel : Nat) : ∃ outcome,
    readFullTimeline wireBytes seen config.bridgeEpoch limit byteBudget fuel = .ok outcome := by
  have hfrom : ∀ i after items, ∃ outcome, readTimelineFrom wireBytes seen config.bridgeEpoch
      limit byteBudget fuel i after items = .ok outcome := by
    induction fuel with
    | zero => exact fun _ _ _ => ⟨none, rfl⟩
    | succ fuel ih =>
      intro i after items
      rw [hseen.readTimelineFrom_succ hlimit hbudget]
      dsimp only
      split
      · exact ⟨_, rfl⟩
      · exact ih _ _ _
  exact hfrom 0 0 []

/-- **A reading that ends has missed nothing but what was evicted under it.**
It never fails, and it ends by the page before which no more operations were
admitted than pages read. -/
theorem fullTimeline_complete :
    (∀ fuel, ∃ outcome,
      readFullTimeline wireBytes seen config.bridgeEpoch limit byteBudget fuel = .ok outcome) ∧
    (∀ k, (seen k).ledger.sequence ≤ k → ∃ i ≤ k, ∃ items,
      ReadingEnds wireBytes seen config.bridgeEpoch limit byteBudget i items) ∧
    ∀ k items, ReadingEnds wireBytes seen config.bridgeEpoch limit byteBudget k items →
      (items.map (·.sequence)).Pairwise (· < ·) ∧
      (∀ item ∈ items, ∃ i ≤ k, ∃ record ∈ (seen i).records, item = record.timelineItem) ∧
      (∀ n, (∀ i ≤ k, (seen i).ledger.Retains n) → n ∈ items.map (·.sequence)) ∧
      ∃ after last, (seen k).operationTimeline wireBytes config.bridgeEpoch after limit byteBudget
          = .ok last ∧ last.truncated = false ∧
        ∀ b n, PassedWhileReading seen k b → b.ledger.Retains n → n ∉ items.map (·.sequence) →
          ¬(seen k).ledger.Retains n ∧ n ≤ last.evictedBeforeSequence := by
  have hpage := @UnderReading.serves _ _ _ hseen wireBytes _ byteBudget hlimit
  have htop : ∀ i n, (seen i).ledger.Retains n → n ≤ (seen i).ledger.sequence :=
    fun i n hn => (hseen.valid i).retains_le hn
  have hpositive : ∀ i n, (seen i).ledger.Retains n → 0 < n :=
    fun i n hn => (hseen.reachable i).retains_pos hn
  refine ⟨hseen.reads hlimit hbudget, ?_, ?_⟩
  · intro k hk
    -- a page beyond the last ordinal is not cut: take the first page that is not
    have hsome := Pages.not_cut_of_top_le hpage hseen.advances htop hk
    obtain ⟨hle, hfirst⟩ := Nat.find_spec hsome
    refine ⟨_, hle, _, (hseen.ends_iff hlimit hbudget).mpr ⟨fun j hj => ?_, hfirst, rfl⟩⟩
    have hmin := Nat.find_min hsome hj
    simpa [show j ≤ k by omega] using hmin
  · intro k items hends
    obtain ⟨hcut, huncut, rfl⟩ := (hseen.ends_iff hlimit hbudget).mp hends
    have hread : ∀ {i n}, i ≤ k → (seen i).ledger.Retains n →
        n ∈ (Pages.readThrough OperationTimelineItem.sequence
          (seenPages wireBytes seen limit byteBudget) (k + 1)).map (·.sequence) ∨
        ¬(seen k).ledger.Retains n ∧ n ≤ (seen k).ledger.evictedBeforeSequence :=
      fun hik hn => Pages.mem_readThrough_or hpage hseen.advances htop hik hn (hpositive _ _ hn) huncut
    refine ⟨Pages.readThrough_sorted hpage (k + 1), ?_, ?_, ?_⟩
    · intro item hitem
      obtain ⟨i, hi, hon, -⟩ := Pages.sound_readThrough hpage hitem
      exact ⟨i, Nat.lt_succ_iff.mp hi, mem_servedPage hlimit hon⟩
    · intro n hn
      rcases hread le_rfl (hn k le_rfl) with hmem | ⟨hgone, -⟩
      · exact hmem
      · exact absurd (hn k le_rfl) hgone
    · have hserved := @Authority.operationTimeline_eq (seen k) wireBytes _ _ hlimit hbudget
        (Pages.cursor OperationTimelineItem.sequence (seenPages wireBytes seen limit byteBudget) k)
      rw [hseen.bridgeEpoch k] at hserved
      refine ⟨_, _, hserved, huncut, ?_⟩
      rintro b n (rfl | ⟨i, hik, hto, hfrom⟩) hn hmissed
      · rcases hread le_rfl hn with hmem | hgone
        · exact absurd hmem hmissed
        · exact hgone
      · have hb := (hseen.valid i).run_advances hto
        have hon := hb.1.run_advances hfrom
        have hlater := Pages.moves_le hseen.advances (show i + 1 ≤ k from hik)
        by_cases hkept : (seen (i + 1)).ledger.Retains n
        · rcases hread hik hkept with hmem | hgone
          · exact absurd hmem hmissed
          · exact hgone
        · -- let go before the next page, and no later row is numbered that low
          have hfloor := (hon.2.2.kept n hn).resolve_left hkept
          refine ⟨fun hback => ?_, hfloor.trans hlater.floor_le⟩
          have hnew := (hlater.fresh n hback).resolve_left hkept
          have hold := hb.1.retains_le hn
          have hgrow := hon.2.2.top_le
          omega

end reading

/-! ## Under a steady inflow -/

section crowded
open Authority

/-- A ledger of two rows, over a harness that takes no prompts. -/
def crowdedConfig : AuthorityConfig where
  bridgeEpoch := "epoch"
  limits := { timeline := 1, ledger := 2, timeline_pos := le_rfl, timeline_le_ledger := Nat.le_succ 1 }
  assetSubmitCapable := false
  payloadDigest := fun text _ => text

/-- A snapshot that allows no dispatch. -/
def unsupportedSnapshot : AdapterSnapshot where
  control := .unsupported
  activity := .unknown
  acceptance := .unknown

/-- The name of a prompt. -/
def promptName (n : Nat) : String := s!"prompt-{n}"

theorem promptName_inj {m n : Nat} : promptName m = promptName n ↔ m = n := by
  constructor
  · intro h
    have h' : "prompt-" ++ toString m = "prompt-" ++ toString n := h
    rw [String.append_right_inj] at h'
    have hd : Nat.toDigits 10 m = Nat.toDigits 10 n := String.ofList_inj.mp h'
    have hv := congrArg (fun ds => Nat.ofDigitChars 10 ds 0) hd
    simpa using hv
  · rintro rfl
    rfl

/-- A prompt of that name. -/
def namedPrompt (n : Nat) : AdmittedRequest where
  request := { requestId := promptName n, source := .cockpit, text := "text", submittedAt := "now" }
  requestId_ne := by
    intro h
    have h' : "prompt-" ++ toString n = "" := h
    have hlen := congrArg String.length h'
    rw [String.length_append] at hlen
    simp at hlen

/-- The record of the `n`-th prompt. -/
def turnedAway (n : Nat) : OperationRecord :=
  { ref := { bridgeEpoch := "epoch", sequence := n, operationId := promptName n, kind := .prompt }
    state := .unsupported
    submittedAt := "now"
    updatedAt := "now"
    source := some .cockpit
    payloadDigest := some "text"
    detail := some "hosted harness does not support native prompt control" }

/-- After `n + 2` prompts. -/
def crowded (n : Nat) : Authority :=
  { Authority.start crowdedConfig unsupportedSnapshot with
    objects := fun m => if 1 ≤ m ∧ m ≤ n + 2 then some (turnedAway m) else none
    ledger :=
      { records := [((.prompt, promptName (n + 1)), n + 1), ((.prompt, promptName (n + 2)), n + 2)]
        promptIds := [(promptName (n + 1), (.prompt, promptName (n + 1))),
          (promptName (n + 2), (.prompt, promptName (n + 2)))]
        sequence := n + 2
        evictedBeforeSequence := n } }

theorem promptName_beq {m n : Nat} (h : m ≠ n) : (promptName m == promptName n) = false := by
  rw [beq_eq_false_iff_ne, Ne, promptName_inj]
  exact h

theorem crowded_unknown (n : Nat) : (crowded n).recordByRequestId (promptName (n + 3)) = none := by
  have h₁ := promptName_beq (show n + 3 ≠ n + 1 by omega)
  have h₂ := promptName_beq (show n + 3 ≠ n + 2 by omega)
  simp [recordByRequestId, SubmissionLedger.byRequestId, crowded, List.lookup, h₁, h₂]

theorem crowded_room (n : Nat) : (crowded n).hasAdmissionRoom =
    (true, { crowded n with
      ledger :=
        { records := [((.prompt, promptName (n + 2)), n + 2)]
          promptIds := [(promptName (n + 2), (.prompt, promptName (n + 2)))]
          sequence := n + 2
          evictedBeforeSequence := n + 1 } }) := by
  have hlive : (crowded n).ledger.liveCount (crowded n).objects (crowded n).active = 0 := by
    simp [SubmissionLedger.liveCount, crowded, turnedAway, OperationRecord.live, start]
  have hevict : (crowded n).ledger.evictOne (crowded n).objects (crowded n).pinned = some
      { records := [((.prompt, promptName (n + 2)), n + 2)]
        promptIds := [(promptName (n + 2), (.prompt, promptName (n + 2)))]
        sequence := n + 2
        evictedBeforeSequence := n + 1 } := by
    simp [SubmissionLedger.evictOne, crowded, turnedAway, pinned, start, evictableStates,
      Keyed.erase, promptName_inj]
  rw [hasAdmissionRoom, if_pos (by rw [hlive]; exact Nat.one_pos)]
  simp only [SubmissionLedger.makeRoom]
  rw [show (crowded n).ledger.records.length = 2 from rfl]
  rw [SubmissionLedger.makeRoomLoop, if_neg (by exact Nat.lt_irrefl 2), hevict]
  rfl

/-- The next prompt is turned away under a new row, at the expense of the oldest one. -/
theorem crowded_submit (n : Nat) :
    ((crowded n).submit (namedPrompt (n + 3))).2 = crowded (n + 1) := by
  have hunknown := crowded_unknown n
  simp only [submit]
  rw [if_neg (by simp [crowded, start]), if_neg (by simp [namedPrompt]),
    show (namedPrompt (n + 3)).request.requestId = promptName (n + 3) from rfl, hunknown,
    crowded_room]
  dsimp only
  rw [show unsupportedPrompt _ _ = some _ from rfl]
  have hobjects : (crowded n).objects.put (turnedAway (n + 3)) = (crowded (n + 1)).objects := by
    funext m
    by_cases hm : m = n + 3
    · subst hm
      simp [Objects.put, crowded, turnedAway]
    · have hbound : m ≤ n + 3 ↔ m ≤ n + 2 := by omega
      simp [Objects.put, crowded, turnedAway, hm, hbound]
  have hledger : SubmissionLedger.enrol
      { records := [((.prompt, promptName (n + 2)), n + 2)]
        promptIds := [(promptName (n + 2), (.prompt, promptName (n + 2)))]
        sequence := n + 3
        evictedBeforeSequence := n + 1 } (turnedAway (n + 3)) = (crowded (n + 1)).ledger := by
    simp [SubmissionLedger.enrol, turnedAway, OperationRecord.key, refKey, Keyed.set, crowded,
      promptName_inj]
  have hname : ∀ fallback, textOr (some (promptName (n + 3))) fallback = promptName (n + 3) :=
    by
    intro fallback
    have hne : promptName (n + 3) ≠ "" := (namedPrompt (n + 3)).requestId_ne
    simp only [textOr]
    rw [if_neg hne]
  simp only [SubmissionLedger.nextRef, hname]
  calc _ = { crowded n with
        objects := (crowded n).objects.put (turnedAway (n + 3))
        ledger := SubmissionLedger.enrol
          { records := [((.prompt, promptName (n + 2)), n + 2)]
            promptIds := [(promptName (n + 2), (.prompt, promptName (n + 2)))]
            sequence := n + 3
            evictedBeforeSequence := n + 1 } (turnedAway (n + 3)) } := rfl
    _ = crowded (n + 1) := by
      rw [hobjects, hledger]
      rfl

theorem crowded_reachable : ReachableFrom crowdedConfig unsupportedSnapshot (crowded 0) := by
  refine ⟨[.submit (namedPrompt 1), .submit (namedPrompt 2)], ?_⟩
  have hobjects : (crowded 0).objects =
      Objects.put (Objects.put (fun _ => none) (turnedAway 1)) (turnedAway 2) := by
    funext m
    simp only [crowded, Objects.put, turnedAway]
    by_cases h₁ : m = 1
    · simp [h₁]
    · by_cases h₂ : m = 2
      · simp [h₂]
      · have hout : ¬(1 ≤ m ∧ m ≤ 0 + 2) := by omega
        simp [h₁, h₂, hout]
  have hcrowded : crowded 0 = { crowded 0 with
      objects := Objects.put (Objects.put (fun _ => none) (turnedAway 1)) (turnedAway 2) } := by
    rw [← hobjects]
  rw [hcrowded]
  rfl

theorem crowded_underReading : UnderReading crowdedConfig unsupportedSnapshot crowded where
  first := crowded_reachable
  next := fun n => ⟨[.submit (namedPrompt (n + 3))], by
    rw [Runs.run_cons_eq_some]
    exact ⟨_, congrArg some (crowded_submit n), rfl⟩⟩

theorem crowded_records (n : Nat) :
    Ranked.sortBy (fun record => record.ref.sequence) (crowded n).records =
      [turnedAway (n + 1), turnedAway (n + 2)] := by
  have hrecords : (crowded n).records = [turnedAway (n + 1), turnedAway (n + 2)] := by
    simp [records, crowded]
  rw [hrecords]
  refine List.mergeSort_of_pairwise ?_
  simp [turnedAway]

/-- Behind the cursor `n` the page holds one row, and is cut. -/
theorem crowded_page (wireBytes : OperationTimelineItem → Nat) (byteBudget n : Nat) :
    servedPage wireBytes (crowded n) n 1 byteBudget =
      { items := [(turnedAway (n + 1)).timelineItem], truncated := true } := by
  have hnew : ¬(turnedAway (n + 1)).ref.sequence ≤ n := Nat.not_succ_le_self n
  have hnext : ¬(turnedAway (n + 2)).ref.sequence ≤ n := by simp [turnedAway]
  simp [servedPage, crowded_records, takePage, hnew, hnext, maxOperationTimelinePage]

/-- **A reading need not end.** A prompt is turned away before each next page,
and a page holds one row. -/
theorem crowded_reading_goes_on :
    UnderReading crowdedConfig unsupportedSnapshot crowded ∧ ∀ fuel,
      readFullTimeline (fun _ => 300) crowded "epoch" 1 (48 * 1024) fuel = .ok none := by
  have hcursor : ∀ i, Pages.cursor OperationTimelineItem.sequence
      (seenPages (fun _ => 300) crowded 1 (48 * 1024)) i = i := by
    intro i
    induction i with
    | zero => rfl
    | succ i ih =>
      rw [Pages.cursor, ih, seenPages, crowded_page]
      rfl
  refine ⟨crowded_underReading, fun fuel => ?_⟩
  refine crowded_underReading.readTimelineFrom_cut le_rfl (by decide) (i := 0) fun j _ _ => ?_
  rw [Pages.pageAt, hcursor, seenPages, crowded_page]

/-- Once nothing is admitted any more, a reading ends and has both rows. -/
theorem settled_reading_complete :
    ∃ k ≤ 2, ∃ items, ReadingEnds (fun _ => 300) (fun _ => crowded 0) "epoch" 1 1 k items ∧
      1 ∈ items.map (·.sequence) ∧ 2 ∈ items.map (·.sequence) := by
  have h := @fullTimeline_complete crowdedConfig unsupportedSnapshot (fun _ => crowded 0)
    ⟨crowded_reachable, fun _ => Runs.Reachable.init _⟩ (fun _ => 300) 1 1 le_rfl le_rfl
  obtain ⟨k, hk, items, hends⟩ := h.2.1 2 le_rfl
  obtain ⟨-, -, hall, -⟩ := h.2.2 k items hends
  refine ⟨k, hk, items, hends, hall 1 fun _ _ => ?_, hall 2 fun _ _ => ?_⟩
  · exact ⟨(.prompt, promptName 1), by decide⟩
  · exact ⟨(.prompt, promptName 2), by decide⟩

end crowded

end AgentsRemember.Submission
