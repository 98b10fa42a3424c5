import AgentsRemember.River.Resume
import AgentsRemember.River.Retention

/-!
# River — Cuts

The river while it is compacted: the log is rewritten, and the base offset
advanced behind it, under a lock that appends and reads of the river wait for.
A crash between the two gives the lock up and leaves the base where it was. A
fresh connection does not take the lock: it reads the base at one time and the
log at another. A scan that fails reclaims nothing, and ends the connection.

Positions in what follows are those of the river as it was ever written, so
that also the bytes which a crash has left uncounted (`lost`) lie in front of
the file. `Tracks` of a client says that it follows this river. A crash moves
every client further on by what it has lost, which is right only for a client
that has read nothing of the file (`Unread`).
-/

namespace AgentsRemember.River

variable {ω : Type}

/-- A client with its cursor. Where in the river it set out, where the river
ended then and which rows of the replay window it has been promised are kept
for the record. -/
structure Session (ω : Type) where
  offsets : Offsets
  received : List (RawEvent ω) := []
  origin : Nat
  ends : Nat
  promised : List (Entry Bytes) := []

/-- A fresh connection has read the base offset, where there was a river, and
has still to read the log. -/
inductive Client (ω : Type)
  | connecting (lifecycles : Offsets) (base : Option Nat)
  | streaming (session : Session ω)

/-- The logs, and everyone who reads them. -/
structure Shared (ω : Type) where
  disk : Disk
  /-- The bytes that a compaction has reclaimed and not yet counted. It holds
  the lock. -/
  uncounted : Option Nat := none
  clients : List (Client ω) := []
  reclaimed : List (Entry Bytes) := []
  lost : Nat := 0

/-- The river as a log with the positions it was written at. -/
def Shared.log (w : Shared ω) : Feed Bytes :=
  feed (w.lost + w.disk.baseOffset + w.uncounted.getD 0) (w.disk.file workspaceSource)

/-- What a writer, a compaction or a client does. -/
inductive Move (ω : Type)
  | append (source : String) (bytes : Bytes)
  | rewrite (clock : Clock ω) (cutoff : Int)
  | advance
  | crash
  | connect (clock : Clock ω) (now : Int)
  | begin (k : Nat) (clock : Clock ω) (now : Int)
  | keep (k : Nat)
  | read (k : Nat) (limit : Option Nat) (resume : Resume)

section

variable (reader : JsonReader ω)

/-- The log is rewritten where there is something to reclaim. -/
def Shared.rewrite (w : Shared ω) (clock : Clock ω) (cutoff : Int) : Shared ω :=
  match rewriteWorkspaceRiver reader clock cutoff w.disk with
  | none => w
  | some (disk, n) =>
    let kept := (feed (w.lost + disk.baseOffset + n) (disk.file workspaceSource)).kept
    { w with
      disk
      uncounted := some n
      reclaimed := w.reclaimed ++ w.log.kept.take (w.log.kept.length - kept.length) }

/-- A connection reads the log, and is promised the rows of the window. -/
def Shared.begin (w : Shared ω) (clock : Clock ω) (now : Int) (lifecycles : Offsets) :
    Option Nat → Option (Session ω)
  | none =>
    some
      { offsets := lifecycles
        origin := w.lost + lifecycles.at workspaceSource
        ends := w.log.eof }
  | some base =>
    (workspaceOffset reader clock now base (w.disk.file workspaceSource)).map fun offset =>
      { offsets := lifecycles.set workspaceSource offset
        origin := w.lost + offset
        ends := w.log.eof
        promised := w.log.kept.filter fun row =>
          !agedOut reader clock (now - workspaceEventTtl) row }

/-- A client reads, and goes on from where it chooses. -/
def Session.read (s : Session ω) (disk : Disk) (limit : Option Nat) (resume : Resume) :
    Option (Session ω) :=
  let (events, next) := readNewEvents reader disk s.offsets limit
  match resume with
  | .offsets => some { s with offsets := next, received := s.received ++ events }
  | .cursor =>
    some { s with
      offsets := decodeCursor (some (encodeCursor next))
      received := s.received ++ events }
  | .event k => events[k]?.map fun event =>
    { s with
      offsets := decodeCursor (some event.cursor)
      received := s.received ++ events.take (k + 1) }

/-- One move, when it can be made. -/
def sharedStep (w : Shared ω) : Move ω → Option (Shared ω)
  | .append source bytes =>
    if source = workspaceSource ∧ w.uncounted.isSome then none
    else some { w with disk := w.disk.append source bytes }
  | .rewrite clock cutoff =>
    if w.uncounted.isSome then none else some (w.rewrite reader clock cutoff)
  | .advance => w.uncounted.map fun n =>
    { w with
      disk := setWorkspaceBaseOffset w.disk (w.disk.baseOffset + n)
      uncounted := none }
  | .crash => w.uncounted.map fun n => { w with uncounted := none, lost := w.lost + n }
  | .connect clock now =>
    match lifecycleOffsets reader clock now w.disk with
    | none => some w
    | some lifecycles =>
      some { w with
        clients := w.clients ++ [.connecting lifecycles
          (w.disk.workspace.map fun _ => w.disk.baseOffset)] }
  | .begin k clock now =>
    match w.clients[k]? with
    | some (.connecting lifecycles base) =>
      match w.begin reader clock now lifecycles base with
      | none => some { w with clients := w.clients.eraseIdx k }
      | some s => some { w with clients := w.clients.set k (.streaming s) }
    | _ => none
  | .keep k =>
    -- a cursor that the client may come back to later
    match w.clients[k]? with
    | some (.streaming s) => some { w with clients := w.clients ++ [.streaming s] }
    | _ => none
  | .read k limit resume =>
    if w.uncounted.isSome then none
    else
      match w.clients[k]? with
      | some (.streaming s) => (s.read reader w.disk limit resume).map fun s =>
        { w with clients := w.clients.set k (.streaming s) }
      | _ => none

end

/-- At the start there are clients that hold cursors, any number of them and any
cursors. -/
def Shared.start (disk : Disk) (cursors : List Offsets) : Shared ω where
  disk
  clients := cursors.map fun offsets =>
    .streaming
      { offsets
        origin := offsets.at workspaceSource
        ends := (disk.log workspaceSource).eof }

/-! ## The invariant -/

/-- A client that follows the river, from no later than the rows it was promised. -/
structure Session.Tracks (reader : JsonReader ω) (past : List (Entry Bytes)) (log : Feed Bytes)
    (lost : Nat) (s : Session ω) : Prop where
  rides : Rides reader workspaceSource lost s.origin s.ends past log
    (s.offsets.at workspaceSource) s.received
  promised : ∀ row ∈ s.promised, s.origin ≤ row.start

/-- The river is in order, and everyone follows it. -/
structure Sound (reader : JsonReader ω) (w : Shared ω) : Prop where
  ordered : Feed.Ordered w.reclaimed w.log
  connecting : ∀ lifecycles base, .connecting lifecycles (some base) ∈ w.clients →
    base ≤ w.disk.baseOffset
  streaming : ∀ s, .streaming s ∈ w.clients → s.Tracks reader w.reclaimed w.log w.lost

variable {reader : JsonReader ω}

theorem sound_start (disk : Disk) (cursors : List Offsets) :
    Sound reader (Shared.start disk cursors) := by
  have hlog : (Shared.start (ω := ω) disk cursors).log = disk.log workspaceSource := by
    simp [Shared.log, Shared.start, Disk.log, Disk.base]
  refine ⟨?_, ?_, ?_⟩
  · rw [hlog]
    exact log_ordered disk workspaceSource
  · intro lifecycles base h
    simp [Shared.start] at h
  · intro s h
    obtain ⟨offsets, -, hs⟩ := List.mem_map.mp h
    cases hs
    rw [hlog]
    refine ⟨⟨[], ?_, rfl⟩, by simp⟩
    show Feed.Follows _ _ _ _ (0 + offsets.at workspaceSource) _
    rw [Nat.zero_add]
    exact Feed.Follows.start _

/-- The log of the river while nobody compacts it. -/
theorem Shared.log_of_free {w : Shared ω} (h : w.uncounted = none) :
    w.log = feed (w.lost + w.disk.baseOffset) (w.disk.file workspaceSource) := by
  rw [Shared.log, h]
  rfl

theorem Shared.shifted {w : Shared ω} (h : w.uncounted = none) :
    Shifted w.lost (w.disk.log workspaceSource) w.log := by
  rw [Shared.log_of_free h]
  have := shifted_feed w.lost w.disk.baseOffset (w.disk.file workspaceSource)
  simpa [Disk.log, Disk.base] using this

theorem append_baseOffset (disk : Disk) (source : String) (bytes : Bytes) :
    (disk.append source bytes).baseOffset = disk.baseOffset := by
  unfold Disk.append
  split <;> rfl

theorem append_river (disk : Disk) (source : String) (bytes : Bytes) :
    (disk.append source bytes).file workspaceSource =
      if source = workspaceSource then disk.file workspaceSource ++ bytes
      else disk.file workspaceSource := by
  by_cases h : source = workspaceSource
  · simp [Disk.append, Disk.file, h]
  · simp [Disk.append, Disk.file, h]

theorem sound_append {w : Shared ω} (h : Sound reader w) (source : String) (bytes : Bytes) :
    Sound reader { w with disk := w.disk.append source bytes } := by
  have hlog : ({ w with disk := w.disk.append source bytes } : Shared ω).log =
      feed (w.lost + w.disk.baseOffset + w.uncounted.getD 0)
        ((w.disk.append source bytes).file workspaceSource) := by
    simp [Shared.log, append_baseOffset]
  by_cases hs : source = workspaceSource
  · have hgrows := feed_grows (w.lost + w.disk.baseOffset + w.uncounted.getD 0)
      (w.disk.file workspaceSource) bytes
    rw [append_river, if_pos hs] at hlog
    refine ⟨?_, ?_, ?_⟩
    · rw [hlog]
      exact h.ordered.grow hgrows (feed_ordered _ _)
    · simpa only [append_baseOffset] using h.connecting
    · intro s hmem
      obtain ⟨⟨got, hfollows, hgot⟩, hpromised⟩ := h.streaming s hmem
      refine ⟨⟨got, ?_, hgot⟩, hpromised⟩
      rw [hlog]
      exact hfollows.grow hgrows
  · rw [append_river, if_neg hs] at hlog
    refine ⟨?_, ?_, ?_⟩
    · rw [hlog]
      exact h.ordered
    · simpa only [append_baseOffset] using h.connecting
    · rw [hlog]
      exact h.streaming

/-- Rewriting the log retires rows of the river, or there is nothing to do. -/
theorem Shared.rewrite_cases {w : Shared ω} (hfree : w.uncounted = none) (clock : Clock ω)
    (cutoff : Int) : w.rewrite reader clock cutoff = w ∨
      ∃ disk n gone, w.rewrite reader clock cutoff =
          { w with disk, uncounted := some n, reclaimed := w.reclaimed ++ gone } ∧
        disk.baseOffset = w.disk.baseOffset ∧
        Feed.Retires w.log (w.rewrite reader clock cutoff).log gone := by
  unfold Shared.rewrite
  cases hr : rewriteWorkspaceRiver reader clock cutoff w.disk with
  | none => exact .inl rfl
  | some r =>
    obtain ⟨disk, n⟩ := r
    obtain ⟨bytes, hws, hdisk, hcut, -⟩ := rewriteWorkspaceRiver_spec hr
    have hbase : disk.baseOffset = w.disk.baseOffset := by rw [hdisk]
    have hold : w.disk.file workspaceSource = bytes := by simp [Disk.file, hws]
    have hnew : disk.file workspaceSource = bytes.drop n := by simp [Disk.file, hdisk]
    obtain ⟨gone, hgone⟩ := feed_retires (w.lost + w.disk.baseOffset) bytes hcut
    rw [← hnew, ← hold, ← Shared.log_of_free hfree, ← hbase] at hgone
    refine .inr ⟨disk, n, gone, ?_, hbase, hgone⟩
    dsimp only
    rw [hgone.take_eq]

theorem sound_rewrite {w : Shared ω} (h : Sound reader w) (hfree : w.uncounted = none) (clock : Clock ω)
    (cutoff : Int) : Sound reader (w.rewrite reader clock cutoff) := by
  rcases Shared.rewrite_cases hfree clock cutoff with hsame | ⟨disk, n, gone, hw, hbase, hgone⟩
  · rw [hsame]
    exact h
  · rw [hw] at hgone ⊢
    refine ⟨h.ordered.retire hgone, ?_, ?_⟩
    · intro lifecycles base hmem
      rw [hbase]
      exact h.connecting lifecycles base hmem
    · intro s hmem
      obtain ⟨⟨got, hfollows, hgot⟩, hpromised⟩ := h.streaming s hmem
      exact ⟨⟨got, hfollows.retire hgone, hgot⟩, hpromised⟩

/-- Counting the bytes reclaimed, or losing them, leaves the river as it is. -/
theorem log_advance {w : Shared ω} {n : Nat} (hn : w.uncounted = some n) :
    ({ w with
        disk := setWorkspaceBaseOffset w.disk (w.disk.baseOffset + n)
        uncounted := none } : Shared ω).log = w.log := by
  simp [Shared.log, hn, setWorkspaceBaseOffset, Disk.file, Nat.add_assoc]

theorem log_crash {w : Shared ω} {n : Nat} (hn : w.uncounted = some n) :
    ({ w with uncounted := none, lost := w.lost + n } : Shared ω).log = w.log := by
  simp [Shared.log, hn, Nat.add_right_comm]

theorem sound_advance {w : Shared ω} (h : Sound reader w) {n : Nat} (hn : w.uncounted = some n) :
    Sound reader { w with
      disk := setWorkspaceBaseOffset w.disk (w.disk.baseOffset + n)
      uncounted := none } := by
  refine ⟨?_, ?_, ?_⟩
  · rw [log_advance hn]
    exact h.ordered
  · intro lifecycles base hmem
    exact Nat.le_trans (h.connecting lifecycles base hmem) (Nat.le_add_right _ _)
  · rw [log_advance hn]
    exact h.streaming

/-- The client has read nothing of the file behind the base offset. -/
def Client.unread (base : Nat) : Client ω → Bool
  | .connecting _ _ => true
  | .streaming s => s.offsets.at workspaceSource ≤ base

/-- The file lies behind the bytes reclaimed. -/
theorem feed_behind (base : Nat) (bytes : Bytes) :
    (∀ e ∈ (feed base bytes).kept, base ≤ e.start) ∧ base ≤ (feed base bytes).tail :=
  ⟨fun e he => ((scan_entries base [] bytes).2 e he).1,
    (@scan_tail base [] (by simp) bytes).2.2⟩

theorem sound_crash {w : Shared ω} (h : Sound reader w) {n : Nat} (hn : w.uncounted = some n)
    (hunread : ∀ c ∈ w.clients, c.unread w.disk.baseOffset = true) :
    Sound reader { w with uncounted := none, lost := w.lost + n } := by
  refine ⟨?_, h.connecting, ?_⟩
  · rw [log_crash hn]
    exact h.ordered
  · intro s hmem
    rw [log_crash hn]
    obtain ⟨⟨got, hfollows, hgot⟩, hpromised⟩ := h.streaming s hmem
    have hle : s.offsets.at workspaceSource ≤ w.disk.baseOffset := by
      simpa [Client.unread] using hunread _ hmem
    -- the client is moved on with the file, in front of which it still stands
    have hlog : w.log = feed (w.lost + w.disk.baseOffset + n) (w.disk.file workspaceSource) := by
      rw [Shared.log, hn]
      rfl
    have hbehind := feed_behind (w.lost + w.disk.baseOffset + n) (w.disk.file workspaceSource)
    rw [← hlog] at hbehind
    have hmoved : Feed.Follows s.origin s.ends w.reclaimed w.log
        (w.lost + n + s.offsets.at workspaceSource) got := by
      apply hfollows.raise h.ordered
      · omega
      · intro e he
        have := hbehind.1 e he
        omega
      · omega
    exact ⟨⟨got, hmoved, hgot⟩, hpromised⟩

/-- What a fresh connection begins with lies in front of the rows it is
promised: the base it read is no larger than the one the log has now. -/
theorem tracks_begin {w : Shared ω} {clock : Clock ω} {now : Int} {lifecycles : Offsets}
    {base : Option Nat} (hbase : ∀ b, base = some b → b ≤ w.disk.baseOffset) {s : Session ω}
    (hs : w.begin reader clock now lifecycles base = some s) :
    s.Tracks reader w.reclaimed w.log w.lost := by
  cases base with
  | none =>
    cases hs
    exact ⟨⟨[], Feed.Follows.start _, rfl⟩, by simp⟩
  | some base =>
    obtain ⟨offset, hoffset, rfl⟩ := Option.map_eq_some_iff.mp hs
    obtain ⟨first, hscan, rfl⟩ := Option.map_eq_some_iff.mp hoffset
    refine ⟨⟨[], ?_, rfl⟩, ?_⟩
    · rw [Offsets.at_set]
      exact Feed.Follows.start _
    · intro row hrow
      obtain ⟨hkept, hfresh⟩ := List.mem_filter.mp hrow
      have hle := hbase base rfl
      have hshift := scan_shift (w.lost + w.disk.baseOffset + w.uncounted.getD 0) 0 []
        (w.disk.file workspaceSource)
      rw [Nat.add_zero] at hshift
      simp only [Shared.log, feed, hshift] at hkept
      obtain ⟨row, hmem, rfl⟩ := List.mem_map.mp hkept
      have hordered := feed_ordered 0 (w.disk.file workspaceSource)
      have hfirst := firstRetainedOffset_le hordered.chain hordered.wide
        (fun _ _ => Nat.zero_le _) hscan row hmem (by simpa [agedOut] using hfresh)
      dsimp only
      omega

theorem Session.Tracks.read {s s' : Session ω} {past : List (Entry Bytes)} {log : Feed Bytes}
    {lost : Nat} {disk : Disk} (h : s.Tracks reader past log lost) (hordered : Feed.Ordered past log)
    (hshift : Shifted lost (disk.log workspaceSource) log)
    {limit : Option Nat} {resume : Resume} (hs : s.read reader disk limit resume = some s') :
    s'.Tracks reader past log lost := by
  have hpreserved := @preserved_source _ reader _ _ s.origin s.ends _ _ _ hordered hshift s.received
  have hprogress := @readNewEvents_progress _ _ _ _ hpreserved s.offsets limit (by
    rw [List.append_nil]
    exact h.rides)
  have hresumed := hprogress.resumed hpreserved
  cases resume with
  | offsets =>
    simp only [Session.read, Option.some.injEq] at hs
    subst hs
    exact ⟨hprogress.now, h.promised⟩
  | cursor =>
    simp only [Session.read, Option.some.injEq] at hs
    subst hs
    exact ⟨hresumed.1, h.promised⟩
  | event k =>
    obtain ⟨event, hevent, rfl⟩ := Option.map_eq_some_iff.mp hs
    exact ⟨hresumed.2 k event hevent, h.promised⟩

/-- A client that comes, or takes the place of one, leaves the rest. -/
theorem sound_clients {w : Shared ω} (h : Sound reader w) {clients : List (Client ω)} {client : Client ω}
    (hmem : ∀ c ∈ clients, c ∈ w.clients ∨ c = client)
    (hconnecting : ∀ lifecycles base, client = .connecting lifecycles (some base) →
      base ≤ w.disk.baseOffset)
    (hstreaming : ∀ s, client = .streaming s → s.Tracks reader w.reclaimed w.log w.lost) :
    Sound reader { w with clients } := by
  refine ⟨h.ordered, ?_, ?_⟩
  · intro lifecycles base hc
    rcases hmem _ hc with hc | hc
    · exact h.connecting lifecycles base hc
    · exact hconnecting lifecycles base hc.symm
  · intro s hc
    rcases hmem _ hc with hc | hc
    · exact h.streaming s hc
    · exact hstreaming s hc.symm

/-- A client that goes leaves the rest. -/
theorem sound_gone {w : Shared ω} (h : Sound reader w) {clients : List (Client ω)}
    (hsub : ∀ c ∈ clients, c ∈ w.clients) : Sound reader { w with clients } :=
  ⟨h.ordered, fun lifecycles base hc => h.connecting lifecycles base (hsub _ hc),
    fun s hc => h.streaming s (hsub _ hc)⟩

/-- Nothing is lost while a client has read any of it. -/
def Unread (w : Shared ω) (move : Move ω) (_ : Shared ω) : Prop :=
  match move with
  | .crash => ∀ c ∈ w.clients, c.unread w.disk.baseOffset = true
  | _ => True

instance (w : Shared ω) (move : Move ω) (w' : Shared ω) : Decidable (Unread w move w') := by
  unfold Unread
  cases move <;> infer_instance

theorem sound_step {w w' : Shared ω} {move : Move ω} (h : Sound reader w)
    (hs : sharedStep reader w move = some w') (hunread : Unread w move w') : Sound reader w' := by
  have hset : ∀ k c, ∀ c' ∈ w.clients.set k c, c' ∈ w.clients ∨ c' = c :=
    fun k c c' hc => List.mem_or_eq_of_mem_set hc
  have hsnoc : ∀ c, ∀ c' ∈ w.clients ++ [c], c' ∈ w.clients ∨ c' = c := by simp
  cases move with
  | append source bytes =>
    simp only [sharedStep] at hs
    split at hs
    · cases hs
    · cases hs
      exact sound_append h source bytes
  | rewrite clock cutoff =>
    simp only [sharedStep] at hs
    split at hs
    · cases hs
    next hfree =>
      cases hs
      exact sound_rewrite h (by simpa using hfree) clock cutoff
  | advance =>
    obtain ⟨n, hn, rfl⟩ := Option.map_eq_some_iff.mp hs
    exact sound_advance h hn
  | crash =>
    obtain ⟨n, hn, rfl⟩ := Option.map_eq_some_iff.mp hs
    exact sound_crash h hn hunread
  | connect clock now =>
    simp only [sharedStep] at hs
    split at hs
    · cases hs
      exact h
    · cases hs
      refine sound_clients h (hsnoc _) ?_ (by simp)
      rintro lifecycles base hc
      simp only [Client.connecting.injEq, Option.map_eq_some_iff] at hc
      obtain ⟨-, -, -, rfl⟩ := hc
      exact Nat.le_refl _
  | begin k clock now =>
    simp only [sharedStep] at hs
    split at hs
    next lifecycles base hk =>
      have hmem := List.mem_of_getElem? hk
      split at hs
      · cases hs
        -- the scan of a log has failed, and the connection with it
        exact sound_gone h fun c hc => List.mem_of_mem_eraseIdx hc
      next hbegin =>
        cases hs
        refine sound_clients h (hset _ _) (by simp) ?_
        rintro s hc
        cases hc
        refine tracks_begin (fun b hb => ?_) hbegin
        subst hb
        exact h.connecting lifecycles b hmem
    · cases hs
  | keep k =>
    simp only [sharedStep] at hs
    split at hs
    next s hk =>
      cases hs
      refine sound_clients h (hsnoc _) (by simp) ?_
      rintro s hc
      cases hc
      exact h.streaming s (List.mem_of_getElem? hk)
    · cases hs
  | read k limit resume =>
    simp only [sharedStep] at hs
    split at hs
    · cases hs
    next hfree =>
      split at hs
      next s hk =>
        obtain ⟨s', hread, rfl⟩ := Option.map_eq_some_iff.mp hs
        refine sound_clients h (hset _ _) (by simp) ?_
        rintro s'' hc
        cases hc
        exact (h.streaming s (List.mem_of_getElem? hk)).read h.ordered
          (Shared.shifted (by simpa using hfree)) hread
      · cases hs

/-! ## Safety -/

/-- The rows given to a client: rows that the river had, in order and each
once, no sooner than the client set out, with all of those that are retained
and all that it was promised. -/
structure Session.Given (w : Shared ω) (s : Session ω) (given : List (Entry Bytes)) : Prop where
  rows : given.Sublist (w.reclaimed ++ w.log.kept)
  apart : (w.reclaimed ++ w.log.kept).Pairwise fun a b => a.after ≤ b.start
  follow : ∀ e ∈ given, min s.origin s.ends ≤ e.start
  retained : ∀ e ∈ w.log.kept, s.origin ≤ e.start → e ∈ given
  promised : ∀ e ∈ s.promised, e ∈ w.log.kept → e ∈ given

/-- Every client resumes where it was, and a compaction drops no row of the
replay window. -/
structure Safe (reader : JsonReader ω) (w : Shared ω) : Prop where
  resumes : w.uncounted = none → ∀ s, .streaming s ∈ w.clients → ∃ given, s.Given w given ∧
    ofSource workspaceSource (s.received ++ (readNewEvents reader w.disk s.offsets none).1) =
      given.filterMap fun e => streamed reader e.item
  window : ∀ clock cutoff disk n,
    rewriteWorkspaceRiver reader clock cutoff w.disk = some (disk, n) →
      ∀ row ∈ (feed 0 (w.disk.file workspaceSource)).kept, row.start < n →
        agedOut reader clock cutoff row = true

theorem Sound.safe {w : Shared ω} (h : Sound reader w) : Safe reader w := by
  constructor
  · intro hfree s hmem
    have hshift := Shared.shifted hfree
    have htracks := @Session.Tracks.read _ reader s _ _ _ _ _ (h.streaming s hmem) h.ordered hshift
      none .offsets rfl
    obtain ⟨given, hfollows, hgiven⟩ := htracks.rides
    -- a read of everything leaves nothing to visit
    have hnone := hshift.visit ((readNewEvents reader w.disk s.offsets none).2.at workspaceSource)
    rw [visit_readNewEvents, List.map_nil] at hnone
    have hretained : ∀ e ∈ w.log.kept, s.origin ≤ e.start → e ∈ given := by
      intro e he horigin
      apply hfollows.all e he horigin
      show e.start < w.lost + (readNewEvents reader w.disk s.offsets none).2.at workspaceSource
      have hnot : e ∉ w.log.visit
          (w.lost + (readNewEvents reader w.disk s.offsets none).2.at workspaceSource) := by
        rw [hnone]
        simp
      rw [Feed.mem_visit] at hnot
      exact Nat.lt_of_not_le fun h => hnot ⟨he, h⟩
    refine ⟨given, ⟨hfollows.once, h.ordered.chain, ?_, hretained, ?_⟩, hgiven⟩
    · intro e he
      exact (hfollows.behind e he).1
    · intro e hpromised he
      exact hretained e he ((h.streaming s hmem).promised e hpromised)
  · intro clock cutoff disk n hr
    obtain ⟨bytes, hws, -, -, haged⟩ := rewriteWorkspaceRiver_spec hr
    have hfile : w.disk.file workspaceSource = bytes := by simp [Disk.file, hws]
    rw [hfile]
    exact haged

/-- Where no crash loses what some client has read of, every client resumes
where it was in every state of the run. -/
theorem compaction_safe {disk : Disk} {cursors : List Offsets} {moves : List (Move ω)}
    (h : Runs.Along (sharedStep reader) Unread (Shared.start disk cursors) moves) :
    Runs.Always (sharedStep reader) (Safe reader) (Shared.start disk cursors) moves :=
  h.always (fun _ _ _ => sound_step) (fun _ => Sound.safe) (sound_start disk cursors)

/-! ## A cut -/

/-- A client would not be given a row that is retained for it. -/
def skips (reader : JsonReader ω) (w : Shared ω) : Client ω → Bool
  | .connecting _ _ => false
  | .streaming s =>
    let texts := (ofSource workspaceSource
      (s.received ++ (readNewEvents reader w.disk s.offsets none).1)).map Prod.fst
    w.log.kept.any fun row => decide (s.origin ≤ row.start) &&
      (streamed reader row.item).any fun event => !texts.contains event.1

theorem not_safe_of_skips {w : Shared ω} (hfree : w.uncounted = none)
    (h : w.clients.any (skips reader w) = true) : ¬Safe reader w := by
  intro hsafe
  obtain ⟨client, hmem, hskips⟩ := List.any_eq_true.mp h
  cases client with
  | connecting => simp [skips] at hskips
  | streaming s =>
    obtain ⟨row, hkept, hrow⟩ := List.any_eq_true.mp hskips
    rw [Bool.and_eq_true, decide_eq_true_eq, Option.any_eq_true] at hrow
    obtain ⟨horigin, event, hevent, htext⟩ := hrow
    obtain ⟨given, hgiven, hread⟩ := hsafe.resumes hfree s hmem
    have hin : event ∈ given.filterMap fun e => streamed reader e.item :=
      List.mem_filterMap.mpr ⟨row, hgiven.retained row hkept horigin, hevent⟩
    rw [← hread] at hin
    have := List.mem_map_of_mem (f := Prod.fst) hin
    simp [this] at htext

/-- Two days, as timestamps and as times. -/
def exampleClock : Clock (List (String × Json)) := fun payload =>
  match payload.lookup "ts" with
  | some (.str "2026-01-01") => .at (1767225600 * second)
  | some (.str "2026-01-02") => .at (1767312000 * second)
  | _ => .unknown

/-- A row of a day, with a number to tell it by. -/
def exampleRow (ts n : String) : Bytes :=
  ("\x7b\"ts\":\"" ++ ts ++ "\",\"n\":" ++ n ++ "\x7d\n").toUTF8.data.toList

/-- An event of the first day, and two of the second. -/
def exampleDisk : Disk where
  workspace := some (exampleRow "2026-01-01" "1" ++ exampleRow "2026-01-02" "2" ++
    exampleRow "2026-01-02" "3")

/-- A client has read the first of them. -/
def exampleCursor : Offsets :=
  ({} : Offsets).set workspaceSource (exampleRow "2026-01-01" "1").length

/-- The second day begins. -/
def exampleCutoff : Int := 1767312000 * second

theorem cut_skips_event : ¬Runs.Always (sharedStep .strict) (Safe .strict)
    (Shared.start exampleDisk [exampleCursor]) [.rewrite exampleClock exampleCutoff, .crash] := by
  intro h
  have hskips : (Runs.run (sharedStep .strict) (Shared.start exampleDisk [exampleCursor])
      [.rewrite exampleClock exampleCutoff, .crash]).any fun w =>
        w.uncounted.isNone && w.clients.any (skips .strict w) := by
    decide +kernel
  obtain ⟨w, hw, hbad⟩ := (Option.any_eq_true _ _).mp hskips
  rw [Bool.and_eq_true, Option.isNone_iff_eq_none] at hbad
  exact not_safe_of_skips hbad.1 hbad.2 (h.at_end hw)

/-- A connection that begins between the two writes of a compaction, and a
crash that finds nobody in the file. -/
theorem compaction_safe_unread : Runs.Always (sharedStep .strict) (Safe .strict)
    (Shared.start exampleDisk [{}])
    [.connect exampleClock (exampleCutoff + workspaceEventTtl),
      .rewrite exampleClock exampleCutoff,
      .begin 1 exampleClock (exampleCutoff + workspaceEventTtl), .crash, .keep 0,
      .read 0 (some 1) .offsets, .append workspaceSource (exampleRow "2026-01-02" "4")] :=
  compaction_safe (by decide +kernel)

end AgentsRemember.River
