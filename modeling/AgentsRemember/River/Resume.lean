import AgentsRemember.River.Read
import AgentsRemember.Foundation.Runs

/-!
# River — Resume

A client of the event river over time: between its reads the logs are appended
to and the river is compacted, and each read resumes from the offsets the last
one returned, from their cursor, or from the cursor of any event of it, with
what came behind that event given up.

`Tracks` is the invariant: source by source, what the client has received is
what it was given of the log as there ever was (`Feed.Follows`).
`resumes_exactly_once` completes any run by one read of everything.
-/

namespace AgentsRemember.River

variable {ω : Type}

/-- The logs, and what the client holds. The rows of the river that were
compacted away are kept for the record: nothing reads them. -/
structure World (ω : Type) where
  disk : Disk
  offsets : Offsets
  received : List (RawEvent ω) := []
  reclaimed : List (Entry Bytes) := []

/-- What the client goes on from behind a read. -/
inductive Resume
  | offsets
  | cursor
  | event (k : Nat)

/-- What happens to the logs, and to the client. -/
inductive Act (ω : Type)
  | append (source : String) (bytes : Bytes)
  | compact (clock : Clock ω) (cutoff : Int)
  | read (limit : Option Nat) (resume : Resume)

/-- The rows of the river that a compaction drops. -/
def dropped (disk disk' : Disk) : List (Entry Bytes) :=
  (disk.log workspaceSource).kept.take
    ((disk.log workspaceSource).kept.length - (disk'.log workspaceSource).kept.length)

/-- One act, when it can be done: an event to go on from has to be there. -/
def step (reader : JsonReader ω) (w : World ω) : Act ω → Option (World ω)
  | .append source bytes => some { w with disk := w.disk.append source bytes }
  | .compact clock cutoff =>
    let disk := compactWorkspaceRiver reader clock cutoff w.disk
    some { w with disk, reclaimed := w.reclaimed ++ dropped w.disk disk }
  | .read limit resume =>
    let (events, next) := readNewEvents reader w.disk w.offsets limit
    match resume with
    | .offsets => some { w with offsets := next, received := w.received ++ events }
    | .cursor =>
      some { w with
        offsets := decodeCursor (some (encodeCursor next))
        received := w.received ++ events }
    -- the rest of the read is lost to a client that resumes from an event
    | .event k => events[k]?.map fun event =>
      { w with
        offsets := decodeCursor (some event.cursor)
        received := w.received ++ events.take (k + 1) }

/-- The events of one source: the text of each and its object. -/
def ofSource (source : String) (events : List (RawEvent ω)) : List (String × ω) :=
  (events.filter (·.source = source)).map fun e => (e.data, e.payload)

/-- The rows that were reclaimed of a source. -/
def past (reclaimed : List (Entry Bytes)) (source : String) : List (Entry Bytes) :=
  if source = workspaceSource then reclaimed else []

/-- The complete rows that a source has had since the client set out. -/
def World.history (w : World ω) (source : String) : List (Entry Bytes) :=
  past w.reclaimed source ++ (w.disk.log source).kept

theorem ofSource_append (source : String) (events more : List (RawEvent ω)) :
    ofSource source (events ++ more) = ofSource source events ++ ofSource source more := by
  simp [ofSource]

/-! ## The invariant -/

/-- What the client has received, with offsets it has come to by it. -/
def Received (reader : JsonReader ω) (origin : Offsets) (ends : String → Nat)
    (past : String → List (Entry Bytes)) (disk : Disk) (current : Offsets)
    (events : List (RawEvent ω)) : Prop :=
  ∀ source, ∃ got,
    Feed.Follows (origin.at source) (ends source) (past source) (disk.log source)
      (current.at source) got ∧
    ofSource source events = got.filterMap fun e => streamed reader e.item

/-- The client is where it has come to, on logs in order. -/
structure Tracks (reader : JsonReader ω) (origin : Offsets) (ends : String → Nat) (w : World ω) :
    Prop where
  ordered : ∀ source, Feed.Ordered (past w.reclaimed source) (w.disk.log source)
  received : Received reader origin ends (past w.reclaimed) w.disk w.offsets w.received

/-- An event that a line gave, for its own source and for any other. -/
theorem ofSource_streamed (reader : JsonReader ω) (source other cursor : String)
    (record : Bytes) :
    ofSource other ((streamed reader record).map fun event =>
        (⟨source, event.1, event.2, cursor⟩ : RawEvent ω)).toList =
      if source = other then (streamed reader record).toList else [] := by
  cases streamed reader record with
  | none => simp [ofSource]
  | some event =>
    by_cases h : source = other
    · simp [ofSource, h]
    · simp [ofSource, h]

/-- A client of one source, whose log it reads `shift` positions further on than
the log is written. -/
def Rides (reader : JsonReader ω) (source : String) (shift origin end₀ : Nat)
    (past : List (Entry Bytes)) (log : Feed Bytes) (c : Nat) (events : List (RawEvent ω)) : Prop :=
  ∃ got, Feed.Follows origin end₀ past log (shift + c) got ∧
    ofSource source events = got.filterMap fun e => streamed reader e.item

/-- A log that is another one, `shift` positions further on. -/
structure Shifted (shift : Nat) (f g : Feed Bytes) : Prop where
  visit : ∀ c, g.visit (shift + c) =
    (f.visit c).map fun e => ⟨shift + e.start, shift + e.after, e.item⟩
  settle : ∀ c, g.settle (shift + c) = shift + f.settle c

theorem Shifted.refl (f : Feed Bytes) : Shifted 0 f f := by
  constructor <;> intro c <;> simp

theorem shifted_feed (shift base : Nat) (bytes : Bytes) :
    Shifted shift (feed base bytes) (feed (shift + base) bytes) :=
  ⟨fun c => (feed_shift shift base bytes c).1, fun c => (feed_shift shift base bytes c).2⟩

variable {reader : JsonReader ω}

/-- The lines of a read keep a client on its source, behind what it had received
before. -/
theorem preserved_source {source : String} {shift origin end₀ : Nat} {past : List (Entry Bytes)}
    {disk : Disk} {log : Feed Bytes} (ordered : Feed.Ordered past log)
    (hshift : Shifted shift (disk.log source) log) (before : List (RawEvent ω)) :
    Preserved reader disk fun current events =>
      Rides reader source shift origin end₀ past log (current.at source) (before ++ events) := by
  refine ⟨?_, ?_, ?_⟩
  · rintro current events other e rest hvisit ⟨got, hfollows, hgot⟩ cursor
    by_cases hs : other = source
    · subst hs
      have hnext := hshift.visit (current.at other)
      rw [hvisit, List.map_cons] at hnext
      refine ⟨got ++ [⟨shift + e.start, shift + e.after, e.item⟩], ?_, ?_⟩
      · rw [Offsets.at_set]
        exact hfollows.take (l := []) ordered hnext
      · rw [← List.append_assoc, ofSource_append, hgot, ofSource_streamed, if_pos rfl,
          List.filterMap_append]
        cases hevent : streamed reader e.item <;> simp [hevent]
    · refine ⟨got, ?_, ?_⟩
      · rw [Offsets.at_set_of_ne _ (Ne.symm hs)]
        exact hfollows
      · rw [← List.append_assoc, ofSource_append, hgot, ofSource_streamed, if_neg hs,
          List.append_nil]
  · rintro current events other hvisit ⟨got, hfollows, hgot⟩
    refine ⟨got, ?_, hgot⟩
    by_cases hs : other = source
    · subst hs
      have hall := hfollows.take_all ordered
      rw [hshift.visit, hvisit, List.map_nil, List.append_nil, hshift.settle] at hall
      rw [Offsets.at_set]
      exact hall
    · rw [Offsets.at_set_of_ne _ (Ne.symm hs)]
      exact hfollows
  · rintro current events ⟨got, hfollows, hgot⟩
    refine ⟨got, ?_, hgot⟩
    rw [at_decode_encode]
    exact hfollows

/-- The lines of a read keep to every source. -/
theorem preserved_received {origin : Offsets} {ends : String → Nat} {past : String → List (Entry Bytes)}
    {disk : Disk} (ordered : ∀ source, Feed.Ordered (past source) (disk.log source))
    (before : List (RawEvent ω)) : Preserved reader disk fun current events =>
      Received reader origin ends past disk current (before ++ events) := by
  have hall := Preserved.all fun source => @preserved_source _ reader source 0 (origin.at source)
    (ends source) _ disk _ (ordered source) (Shifted.refl _) before
  simp only [Rides, Nat.zero_add] at hall
  exact hall

theorem tracks_start (disk : Disk) (origin : Offsets) :
    Tracks reader origin (fun source => (disk.log source).eof) ⟨disk, origin, [], []⟩ := by
  have hpast : ∀ source, past [] source = [] := by
    intro source
    unfold past
    split <;> rfl
  constructor
  · intro source
    rw [hpast]
    exact log_ordered disk source
  · intro source
    rw [hpast]
    exact ⟨[], Feed.Follows.start _, rfl⟩

theorem tracks_append {origin : Offsets} {ends : String → Nat} {w : World ω}
    (h : Tracks reader origin ends w) (source : String) (bytes : Bytes) :
    Tracks reader origin ends { w with disk := w.disk.append source bytes } := by
  have hgrows : ∀ other, (w.disk.append source bytes).log other = w.disk.log other ∨
      ∃ new, Feed.Grows (w.disk.log other) ((w.disk.append source bytes).log other) new := by
    intro other
    by_cases hs : other = source
    · subst hs
      rw [log_append_self]
      exact .inr ⟨_, feed_grows _ _ _⟩
    · exact .inl (log_append_of_ne _ hs _)
  constructor
  · intro other
    rcases hgrows other with hsame | ⟨new, hnew⟩
    · show Feed.Ordered (past w.reclaimed other) _
      rw [hsame]
      exact h.ordered other
    · exact (h.ordered other).grow hnew (log_ordered _ other)
  · intro other
    obtain ⟨got, hfollows, hgot⟩ := h.received other
    refine ⟨got, ?_, hgot⟩
    rcases hgrows other with hsame | ⟨new, hnew⟩
    · show Feed.Follows _ _ (past w.reclaimed other) _ _ _
      rw [hsame]
      exact hfollows
    · exact hfollows.grow hnew

/-- The rows that a retired river has lost are those in front. -/
theorem dropped_eq {disk disk' : Disk} {gone : List (Entry Bytes)}
    (h : Feed.Retires (disk.log workspaceSource) (disk'.log workspaceSource) gone) :
    dropped disk disk' = gone := h.take_eq

theorem tracks_compact {origin : Offsets} {ends : String → Nat} {w : World ω}
    (h : Tracks reader origin ends w) {disk : Disk}
    (hd : ∀ source, disk.log source = w.disk.log source ∨ source = workspaceSource ∧
      ∃ gone, Feed.Retires (w.disk.log source) (disk.log source) gone) :
    Tracks reader origin ends
      { w with disk, reclaimed := w.reclaimed ++ dropped w.disk disk } := by
  have hsource : ∀ source,
      Feed.Ordered (past (w.reclaimed ++ dropped w.disk disk) source) (disk.log source) ∧
      ∀ got, Feed.Follows (origin.at source) (ends source) (past w.reclaimed source)
          (w.disk.log source) (w.offsets.at source) got →
        Feed.Follows (origin.at source) (ends source)
          (past (w.reclaimed ++ dropped w.disk disk) source) (disk.log source)
          (w.offsets.at source) got := by
    intro source
    have ho := h.ordered source
    unfold past at ho ⊢
    rcases hd source with hsame | ⟨rfl, gone, hgone⟩
    · by_cases hs : source = workspaceSource
      · subst hs
        have hnone : dropped w.disk disk = [] := by simp [dropped, hsame]
        simp only [if_true, hnone, List.append_nil, hsame] at ho ⊢
        exact ⟨ho, fun _ => id⟩
      · simp only [hs, if_false, hsame] at ho ⊢
        exact ⟨ho, fun _ => id⟩
    · simp only [if_true, dropped_eq hgone] at ho ⊢
      exact ⟨ho.retire hgone, fun _ hf => hf.retire hgone⟩
  refine ⟨fun source => (hsource source).1, fun source => ?_⟩
  obtain ⟨got, hfollows, hgot⟩ := h.received source
  exact ⟨got, (hsource source).2 got hfollows, hgot⟩

theorem tracks_read {origin : Offsets} {ends : String → Nat} {w w' : World ω}
    (h : Tracks reader origin ends w) {limit : Option Nat} {resume : Resume}
    (hs : step reader w (.read limit resume) = some w') : Tracks reader origin ends w' := by
  have hpreserved := @preserved_received _ reader origin ends _ _ h.ordered w.received
  have hprogress := readNewEvents_progress hpreserved limit (by
    rw [List.append_nil]
    exact h.received)
  have hresumed := hprogress.resumed hpreserved
  cases resume with
  | offsets =>
    simp only [step, Option.some.injEq] at hs
    subst hs
    exact ⟨h.ordered, hprogress.now⟩
  | cursor =>
    simp only [step, Option.some.injEq] at hs
    subst hs
    exact ⟨h.ordered, hresumed.1⟩
  | event k =>
    obtain ⟨event, hevent, rfl⟩ := Option.map_eq_some_iff.mp hs
    exact ⟨h.ordered, hresumed.2 k event hevent⟩

theorem tracks_step {origin : Offsets} {ends : String → Nat} {w w' : World ω} {act : Act ω}
    (h : Tracks reader origin ends w) (hs : step reader w act = some w') : Tracks reader origin ends w' := by
  cases act with
  | append source bytes =>
    cases hs
    exact tracks_append h source bytes
  | compact clock cutoff =>
    cases hs
    exact tracks_compact h fun source => compact_retires reader clock cutoff w.disk source
  | read limit resume => exact tracks_read h hs

/-! ## Reading everything -/

theorem takeLines_other (source : String) (lines : List (Bytes × Nat)) (events : List (RawEvent ω))
    (current : Offsets) : (takeLines reader source none lines events current).2.2 = false ∧
      ∀ other, other ≠ source →
        (takeLines reader source none lines events current).2.1.at other = current.at other := by
  induction lines generalizing events current with
  | nil => exact ⟨rfl, fun _ _ => rfl⟩
  | cons line lines ih =>
    rw [takeLines]
    split
    · obtain ⟨hdone, hother⟩ := ih events (current.set source line.2)
      refine ⟨hdone, fun other h => ?_⟩
      rw [hother other h, Offsets.at_set_of_ne _ h]
    · rename_i text payload _
      obtain ⟨hdone, hother⟩ := ih (events ++ [⟨source, text, payload,
        encodeCursor (current.set source line.2)⟩]) (current.set source line.2)
      refine ⟨hdone, fun other h => ?_⟩
      exact (hother other h).trans (Offsets.at_set_of_ne _ h _)

/-- Without a limit, every source is left where it is settled. -/
theorem readSources_all (disk : Disk) {sources : List String} (hnodup : sources.Nodup)
    (events : List (RawEvent ω)) (current : Offsets) (source : String) :
    (readSources reader disk none sources events current).2.at source =
      if source ∈ sources then (disk.log source).settle (current.at source)
      else current.at source := by
  induction sources generalizing events current with
  | nil => rfl
  | cons first sources ih =>
    obtain ⟨hfirst, hrest⟩ := List.nodup_cons.mp hnodup
    rw [readSources, readSourceLines_eq]
    dsimp only
    have htake := @takeLines_other _ reader first
      (((disk.log first).visit (current.at first)).map fun e => (e.item, e.after)) events current
    split
    · rename_i heq
      rw [heq] at htake
      simp at htake
    · rename_i events' current' heq
      rw [heq] at htake
      rw [ih hrest]
      by_cases hs : source = first
      · subst hs
        rw [if_neg hfirst, if_pos (by simp), Offsets.at_set]
      · rw [Offsets.at_set_of_ne _ hs, htake.2 source hs]
        simp [hs]

theorem discoverSources_nodup (disk : Disk) : (discoverSources disk).Nodup := by
  have hperm := List.perm_insertionSort (· ≤ ·) (disk.lifecycles.map Prod.fst)
  have hsorted := hperm.nodup_iff.mpr disk.nodup
  unfold discoverSources
  split
  · refine List.nodup_append.mpr ⟨hsorted, by simp, ?_⟩
    rintro source hs other hother rfl
    rw [List.mem_singleton.mp hother] at hs
    exact disk.reserved (hperm.mem_iff.mp hs)
  · rw [List.append_nil]
    exact hsorted

/-- A source that is not there has no rows. -/
theorem log_of_not_discovered {disk : Disk} {source : String}
    (h : source ∉ discoverSources disk) : (disk.log source).kept = [] := by
  suffices hfile : disk.file source = [] by simp [Disk.log, hfile, feed, scan]
  simp only [discoverSources, List.mem_append, not_or] at h
  unfold Disk.file
  by_cases hs : source = workspaceSource
  · subst hs
    cases hw : disk.workspace with
    | none => simp
    | some bytes => simp [hw] at h
  · rw [if_neg hs]
    cases hl : disk.lifecycles.lookup source with
    | none => rfl
    | some bytes =>
      have hmem : source ∈ disk.lifecycles.map Prod.fst :=
        List.mem_map_of_mem (Keyed.mem_of_lookup hl)
      exact absurd ((List.perm_insertionSort _ _).mem_iff.mpr hmem) h.1

/-- A read of everything leaves nothing to visit. -/
theorem visit_readNewEvents (disk : Disk) (offsets : Offsets) (source : String) :
    (disk.log source).visit ((readNewEvents reader disk offsets none).2.at source) = [] := by
  unfold readNewEvents
  rw [readSources_all disk (discoverSources_nodup disk)]
  split
  · exact Feed.visit_settle (log_ordered disk source) _
  · rename_i h
    simp [Feed.visit, log_of_not_discovered h]

/-! ## Exactly once -/

/-- The rows given to a client that set out from `origin`, when the log ended
at `end₀`: rows that the source had, in order and each once, no sooner than it
set out, with all of those that are retained. -/
structure GivenOnce (origin end₀ : Nat) (w : World ω) (source : String)
    (given : List (Entry Bytes)) : Prop where
  rows : given.Sublist (w.history source)
  apart : (w.history source).Pairwise fun a b => a.after ≤ b.start
  follow : ∀ e ∈ given, min origin end₀ ≤ e.start
  retained : ∀ e ∈ (w.disk.log source).kept, origin ≤ e.start → e ∈ given

/-- However a client that set out from any offsets has read, with whatever was
appended and compacted in between, what it has received of a source together
with all it would read next are the events of the rows that followed: those that
the reader of JSON makes of them, whichever reader it is. -/
theorem resumes_exactly_once (reader : JsonReader ω) (disk : Disk) (origin : Offsets)
    (acts : List (Act ω)) :
    Runs.Always (step reader) (fun w => ∀ source, ∃ given,
      GivenOnce (origin.at source) (disk.log source).eof w source given ∧
      ofSource source (w.received ++ (readNewEvents reader w.disk w.offsets none).1) =
        given.filterMap fun e => streamed reader e.item)
      ⟨disk, origin, [], []⟩ acts := by
  apply Runs.always_of_invariant (fun w act w' h hs => tracks_step h hs) _
    (tracks_start disk origin)
  intro w hw source
  -- the read of everything that completes the run is one more step of it
  have hread := @tracks_step _ reader _ _ _ _ (.read none .offsets) hw rfl
  obtain ⟨given, hfollows, hgiven⟩ := hread.received source
  have hnone := @visit_readNewEvents _ reader w.disk w.offsets source
  refine ⟨given, ⟨hfollows.once, (hw.ordered source).chain, ?_, ?_⟩, hgiven⟩
  · intro e he
    exact (hfollows.behind e he).1
  · intro e he horigin
    apply hfollows.all e he horigin
    show e.start < (readNewEvents reader w.disk w.offsets none).2.at source
    have hnot : e ∉ (w.disk.log source).visit
        ((readNewEvents reader w.disk w.offsets none).2.at source) := by
      rw [hnone]
      simp
    rw [Feed.mem_visit] at hnot
    exact Nat.lt_of_not_le fun h => hnot ⟨he, h⟩

/-- The log of one lifecycle, which holds one heartbeat. -/
def heartbeatLog : Disk where
  lifecycles := [("a", "\x7b\"kind\":\"lifecycle.heartbeat\"\x7d\n".toUTF8.data.toList)]
  reserved := by decide

/-- A heartbeat is an event object too, and it is not given. -/
theorem heartbeat_not_resumed :
    ¬∃ given, GivenOnce 0 (heartbeatLog.log "a").eof
        (⟨heartbeatLog, {}, [], []⟩ : World (List (String × Json))) "a" given ∧
      ofSource "a" ([] ++ (readNewEvents .strict heartbeatLog {} none).1) =
        given.filterMap fun e => eventObject .strict e.item := by
  rintro ⟨given, hgiven, heq⟩
  have hnone : ofSource "a" ([] ++ (readNewEvents .strict heartbeatLog {} none).1) = [] := by
    decide +kernel
  have hsome : ((heartbeatLog.log "a").kept.any fun e => (eventObject .strict e.item).isSome) = true := by
    decide +kernel
  obtain ⟨e, he, hevent⟩ := List.any_eq_true.mp hsome
  have hmem := hgiven.retained e he (Nat.zero_le _)
  rw [hnone] at heq
  have := List.filterMap_eq_nil_iff.mp heq.symm e hmem
  simp [this] at hevent

end AgentsRemember.River
