import AgentsRemember.River.Log
import AgentsRemember.River.Cursor
import Mathlib.Data.List.DropRight

/-!
# River — Read

One read of all the sources, each from its own offset: the events of the lines
it takes, each with the cursor to resume from behind it, and the offsets it
leaves. A line that is no event object moves the offset and gives nothing, and
so does a heartbeat.

`readNewEvents_progress` is what a read does to any property of offsets and
events received that a line taken from a source, and a source taken to its
end, preserve: it holds of the offsets returned with all the events, and of
the cursor of each event with the events up to it.
-/

namespace AgentsRemember.River

/-- The kind of event that is streamed to no one. -/
def heartbeatKind : String := "lifecycle.heartbeat"

variable {ω : Type}

/-- Liveness, not activity. -/
def isHeartbeatEvent (reader : JsonReader ω) (payload : ω) : Bool :=
  reader.text payload "kind" == some heartbeatKind

/-- A text without the white space around it. -/
def strip (text : String) : String :=
  String.ofList ((text.toList.dropWhile Lines.isSpace).rdropWhile Lines.isSpace)

/-- One event of a log, and the cursor to go on from behind it. -/
structure RawEvent (ω : Type) where
  source : String
  data : String
  payload : ω
  cursor : String

/-- The text and the object of a record, when it is an event object. Whatever
error the reader gives, the record is none. -/
def eventObject (reader : JsonReader ω) (record : Bytes) : Option (String × ω) :=
  (decodeText record).bind fun text =>
    if (strip text).isEmpty then none
    else
      match reader.loads (strip text).toList with
      | .object payload => some (strip text, payload)
      | .other | .decodeError | .valueError => none

/-- The same, for those that are streamed. -/
def streamed (reader : JsonReader ω) (record : Bytes) : Option (String × ω) :=
  (eventObject reader record).filter fun event => !isHeartbeatEvent reader event.2

section

variable (reader : JsonReader ω)

/-- The lines of one source, until the limit is met: what was read, where that
leaves the offsets, and whether the read is over. -/
def takeLines (source : String) (limit : Option Nat) :
    List (Bytes × Nat) → List (RawEvent ω) → Offsets → List (RawEvent ω) × Offsets × Bool
  | [], events, current => (events, current, false)
  | (record, offsetAfter) :: lines, events, current =>
    let current := current.set source offsetAfter
    match streamed reader record with
    | none => takeLines source limit lines events current
    | some (text, payload) =>
      let events := events ++ [⟨source, text, payload, encodeCursor current⟩]
      if limit.any (· ≤ events.length) then (events, current, true)
      else takeLines source limit lines events current

/-- The sources in turn, until the limit is met. -/
def readSources (disk : Disk) (limit : Option Nat) :
    List String → List (RawEvent ω) → Offsets → List (RawEvent ω) × Offsets
  | [], events, current => (events, current)
  | source :: sources, events, current =>
    let (lines, endOffset) := readSourceLines disk source (current.at source)
    match takeLines reader source limit lines events current with
    | (events, current, true) => (events, current)
    | (events, current, false) =>
      readSources disk limit sources events (current.set source endOffset)

/-- The events behind the offsets, and the offsets behind them. -/
def readNewEvents (disk : Disk) (offsets : Offsets) (limit : Option Nat) :
    List (RawEvent ω) × Offsets :=
  readSources reader disk limit (discoverSources disk) [] offsets

end

/-! ## What a read preserves -/

/-- A property of offsets and events that the lines of `disk` preserve. -/
structure Preserved (reader : JsonReader ω) (disk : Disk)
    (R : Offsets → List (RawEvent ω) → Prop) : Prop where
  line : ∀ current events source e rest,
    (disk.log source).visit (current.at source) = e :: rest → R current events →
    ∀ cursor, R (current.set source e.after)
      (events ++ ((streamed reader e.item).map fun event =>
        (⟨source, event.1, event.2, cursor⟩ : RawEvent ω)).toList)
  settle : ∀ current events source, (disk.log source).visit (current.at source) = [] →
    R current events → R (current.set source ((disk.log source).settle (current.at source))) events
  cursor : ∀ current events, R current events →
    R (decodeCursor (some (encodeCursor current))) events

/-- The property holds now, and where each event says to resume from. -/
structure Progress (R : Offsets → List (RawEvent ω) → Prop) (current : Offsets)
    (events : List (RawEvent ω)) : Prop where
  now : R current events
  carried : ∀ before e after, events = before ++ e :: after →
    R (decodeCursor (some e.cursor)) (before ++ [e])

variable {reader : JsonReader ω} {disk : Disk} {R : Offsets → List (RawEvent ω) → Prop}

theorem Preserved.all {ι : Type} {R : ι → Offsets → List (RawEvent ω) → Prop}
    (h : ∀ i, Preserved reader disk (R i)) : Preserved reader disk fun current events =>
      ∀ i, R i current events where
  line current events source e rest hvisit hR cursor i :=
    (h i).line current events source e rest hvisit (hR i) cursor
  settle current events source hvisit hR i :=
    (h i).settle current events source hvisit (hR i)
  cursor current events hR i := (h i).cursor current events (hR i)

theorem Progress.start {current : Offsets} (h : R current []) : Progress R current [] :=
  ⟨h, by simp⟩

theorem Progress.mono {current current' : Offsets} {events : List (RawEvent ω)}
    (h : Progress R current events) (h' : R current' events) : Progress R current' events :=
  ⟨h', h.carried⟩

theorem Progress.snoc {current current' : Offsets} {events : List (RawEvent ω)} {e : RawEvent ω}
    (h : Progress R current events) (hnow : R current' (events ++ [e]))
    (hcarried : R (decodeCursor (some e.cursor)) (events ++ [e])) :
    Progress R current' (events ++ [e]) := by
  refine ⟨hnow, fun before x after hx => ?_⟩
  rcases List.eq_nil_or_concat after with rfl | ⟨after, y, rfl⟩
  · obtain ⟨rfl, hxe⟩ := List.append_inj' hx rfl
    cases hxe
    exact hcarried
  · rw [List.concat_eq_append, ← List.cons_append, ← List.append_assoc] at hx
    exact h.carried before x after (List.append_inj' hx rfl).1

theorem log_ordered (disk : Disk) (source : String) : Feed.Ordered [] (disk.log source) :=
  feed_ordered _ _

theorem takeLines_progress (hR : Preserved reader disk R) (source : String) (limit : Option Nat)
    {es : List (Entry Bytes)} {current : Offsets} {events : List (RawEvent ω)}
    (hvisit : (disk.log source).visit (current.at source) = es)
    (h : Progress R current events) :
    ∀ r, takeLines reader source limit (es.map fun e => (e.item, e.after)) events current = r →
      Progress R r.2.1 r.1 ∧ (r.2.2 = false →
        (disk.log source).visit (r.2.1.at source) = [] ∧
        (disk.log source).settle (r.2.1.at source) =
          (disk.log source).settle (current.at source)) := by
  induction es generalizing current events with
  | nil =>
    rintro r rfl
    exact ⟨h, fun _ => ⟨hvisit, rfl⟩⟩
  | cons e es ih =>
    intro r hr
    have hline := hR.line current events source e es hvisit h.now
    have hnext : (disk.log source).visit ((current.set source e.after).at source) = es := by
      rw [Offsets.at_set]
      exact Feed.visit_after (log_ordered disk source) hvisit
    have hsettle : (disk.log source).settle ((current.set source e.after).at source) =
        (disk.log source).settle (current.at source) := by
      rw [Offsets.at_set]
      exact Feed.settle_after (log_ordered disk source) hvisit
    rw [List.map_cons, takeLines] at hr
    cases hevent : streamed reader e.item with
    | none =>
      simp only [hevent, Option.map_none, Option.toList_none, List.append_nil] at hr hline
      rw [← hsettle]
      exact ih hnext (h.mono (hline "")) r hr
    | some event =>
      obtain ⟨text, payload⟩ := event
      simp only [hevent, Option.map_some, Option.toList_some] at hr hline
      have hstep := h.snoc (hline (encodeCursor (current.set source e.after)))
        (hR.cursor _ _ (hline _))
      split at hr
      · subst hr
        exact ⟨hstep, by simp⟩
      · rw [← hsettle]
        exact ih hnext hstep r hr

theorem readSources_progress (hR : Preserved reader disk R) (limit : Option Nat)
    (sources : List String) {current : Offsets} {events : List (RawEvent ω)}
    (h : Progress R current events) :
    Progress R (readSources reader disk limit sources events current).2
      (readSources reader disk limit sources events current).1 := by
  induction sources generalizing current events with
  | nil => exact h
  | cons source sources ih =>
    have htake := takeLines_progress hR source limit rfl h _ rfl
    rw [readSources, readSourceLines_eq]
    dsimp only
    split
    · rename_i heq
      rw [heq] at htake
      exact htake.1
    · rename_i events' current' heq
      rw [heq] at htake
      obtain ⟨hvisit, hsettle⟩ := htake.2 rfl
      apply ih
      have := hR.settle current' events' source hvisit htake.1.now
      rw [hsettle] at this
      exact htake.1.mono this

theorem readNewEvents_progress (hR : Preserved reader disk R) {offsets : Offsets} (limit : Option Nat)
    (h : R offsets []) : Progress R (readNewEvents reader disk offsets limit).2
      (readNewEvents reader disk offsets limit).1 :=
  readSources_progress hR limit _ (Progress.start h)

/-- Wherever a client goes on from behind a read, the property holds there. -/
theorem Progress.resumed {current : Offsets} {events : List (RawEvent ω)}
    (hR : Preserved reader disk R) (h : Progress R current events) :
    R (decodeCursor (some (encodeCursor current))) events ∧
      ∀ k event, events[k]? = some event →
        R (decodeCursor (some event.cursor)) (events.take (k + 1)) := by
  refine ⟨hR.cursor _ _ h.now, fun k event hevent => ?_⟩
  obtain ⟨hk, hget⟩ := List.getElem?_eq_some_iff.mp hevent
  have hsplit := List.take_append_drop (k + 1) events
  have htake : events.take (k + 1) = events.take k ++ [event] := by
    rw [← hget]
    exact List.take_succ_eq_append_getElem hk
  rw [htake] at hsplit ⊢
  apply h.carried
  rw [List.append_assoc] at hsplit
  exact hsplit.symm

end AgentsRemember.River
