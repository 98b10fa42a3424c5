import AgentsRemember.River.Read

/-!
# River — Retention

What is retained of a log, and for whom. A connection that brings no cursor
begins each log at the first row it cannot prove older than the replay window,
and a lifecycle that has gone dormant at its end. A row whose reading fails the
scan fails the connection.

Compacting the river is two writes: the file without the rows in front of the
window, and then the base offset with the bytes they were. Here they are apart,
and `compactWorkspaceRiver_eq` puts them together.
-/

namespace AgentsRemember.River

/-- Times are counted in microseconds, as timestamps are. -/
def second : Int := 1000000

/-- How long an event of the river is kept. -/
def workspaceEventTtl : Int := 60 * 60 * second

/-- How far back a connection without a cursor begins. -/
def replayWindow : Int := 60 * 60 * second

/-- How long a lifecycle may be inactive: as long for a fleeting one as for one
with an enclosure, so which of them it is does not matter. -/
def inactiveTtl : Int := 60 * 60 * second

variable {ω : Type}

section

variable (reader : JsonReader ω) (clock : Clock ω)

/-- The time of the last event of a log that is activity, when the scan comes
to the end of the log. -/
def lastActivityAt (last : Option Int) : List (Entry Bytes) → Option (Option Int)
  | [] => some last
  | row :: rows =>
    match rowPayload reader row.item with
    | .noEvent => lastActivityAt last rows
    | .raised => none
    | .event payload =>
      if isHeartbeatEvent reader payload then lastActivityAt last rows
      else
        match clock payload with
        | .at ts => lastActivityAt (some ts) rows
        | .unknown => lastActivityAt last rows
        | .overflow => none

/-- A log without activity is not dormant. -/
def lifecycleIsDormant (now : Int) (bytes : Bytes) : Option Bool :=
  (lastActivityAt reader clock none (feed 0 bytes).kept).map fun last =>
    last.any fun last => inactiveTtl < now - last

/-- Where the first event begins that cannot be proved older than the cutoff,
or the last one ends. -/
def firstRetainedOffset (cutoff : Int) (endOffset : Nat) : List (Entry Bytes) → Option Nat
  | [] => some endOffset
  | row :: rows =>
    match rowAge reader clock cutoff row.item with
    | .noEvent => firstRetainedOffset cutoff endOffset rows
    | .old => firstRetainedOffset cutoff row.after rows
    | .kept => some row.start
    | .raised => none

/-- Where a fresh connection begins the log of a lifecycle. -/
def lifecycleOffset (now : Int) (bytes : Bytes) : Option Nat :=
  (lifecycleIsDormant reader clock now bytes).bind fun dormant =>
    if dormant then some bytes.length
    else firstRetainedOffset reader clock (now - replayWindow) 0 (feed 0 bytes).kept

theorem keys_of_mapM {α β κ : Type} {f : α → Option β} {l : List (κ × α)} {l' : List (κ × β)}
    (h : (l.mapM fun e => (f e.2).map (e.1, ·)) = some l') :
    l'.map Prod.fst = l.map Prod.fst := by
  induction l generalizing l' with
  | nil =>
    cases h
    rfl
  | cons e l ih =>
    simp only [List.mapM_cons, Option.bind_eq_bind, Option.bind_eq_some_iff,
      Option.map_eq_some_iff, Option.pure_def, Option.some.injEq] at h
    obtain ⟨_, ⟨b, -, rfl⟩, rest, hrest, rfl⟩ := h
    simp [ih hrest]

/-- Where a fresh connection begins the lifecycles. -/
def lifecycleOffsets (now : Int) (disk : Disk) : Option Offsets :=
  match h : disk.lifecycles.mapM fun l => (lifecycleOffset reader clock now l.2).map (l.1, ·) with
  | none => none
  | some entries => some ⟨entries, keys_of_mapM h ▸ disk.nodup⟩

/-- Where it begins the river, in front of whose file `base` bytes were
reclaimed. -/
def workspaceOffset (now : Int) (base : Nat) (bytes : Bytes) : Option Nat :=
  (firstRetainedOffset reader clock (now - workspaceEventTtl) 0 (feed 0 bytes).kept).map (base + ·)

/-- Starting offsets for a fresh connection. -/
def initialEventOffsets (now : Int) (disk : Disk) : Option Offsets :=
  (lifecycleOffsets reader clock now disk).bind fun offsets =>
    match disk.workspace with
    | none => some offsets
    | some bytes =>
      (workspaceOffset reader clock now disk.baseOffset bytes).map (offsets.set workspaceSource)

end

/-! ## The two writes -/

/-- The first write of a compaction, and how many bytes it reclaims. -/
def rewriteWorkspaceRiver (reader : JsonReader ω) (clock : Clock ω) (cutoff : Int) (disk : Disk) :
    Option (Disk × Nat) :=
  match disk.workspace with
  | none => none
  | some bytes =>
    match retainedStart reader clock cutoff (feed 0 bytes).kept with
    | none => none
    | some (start, dropped) =>
      if dropped = 0 then none
      else
        let retainedStart := start.getD bytes.length
        some ({ disk with workspace := some (bytes.drop retainedStart) }, retainedStart)

/-- The second write. -/
def setWorkspaceBaseOffset (disk : Disk) (baseOffset : Nat) : Disk := { disk with baseOffset }

variable {reader : JsonReader ω} {clock : Clock ω} {cutoff : Int}

theorem compactWorkspaceRiver_eq (disk : Disk) :
    compactWorkspaceRiver reader clock cutoff disk =
      match rewriteWorkspaceRiver reader clock cutoff disk with
      | none => disk
      | some (disk', n) => setWorkspaceBaseOffset disk' (disk'.baseOffset + n) := by
  unfold compactWorkspaceRiver rewriteWorkspaceRiver
  cases disk.workspace with
  | none => rfl
  | some bytes =>
    dsimp only
    cases retainedStart reader clock cutoff (feed 0 bytes).kept with
    | none => rfl
    | some scan =>
      dsimp only
      by_cases h : scan.2 = 0
      · rw [if_pos h, if_pos h]
      · rw [if_neg h, if_neg h]
        rfl

/-- A row that no replay window from the cutoff on shows: no event, or one with
a time before it. -/
def agedOut (reader : JsonReader ω) (clock : Clock ω) (cutoff : Int) (row : Entry Bytes) : Bool :=
  rowAge reader clock cutoff row.item = .noEvent ∨ rowAge reader clock cutoff row.item = .old

/-- The rows in front of the first that is retained have aged out. -/
theorem retainedStart_agedOut {rows : List (Entry Bytes)}
    (hchain : rows.Pairwise fun a b => a.after ≤ b.start)
    (hwide : ∀ row ∈ rows, row.start < row.after) {start : Option Nat} {dropped : Nat}
    (hscan : retainedStart reader clock cutoff rows = some (start, dropped)) :
    ∀ row ∈ rows, (∀ n, start = some n → row.start < n) →
      agedOut reader clock cutoff row = true := by
  induction rows generalizing dropped with
  | nil => simp
  | cons first rows ih =>
    obtain ⟨hfirst, hrest⟩ := List.pairwise_cons.mp hchain
    have ih := fun dropped => @ih hrest (fun row hrow => hwide row (by simp [hrow])) dropped
    intro row hrow hfront
    have hgo : ∀ dropped, retainedStart reader clock cutoff rows = some (start, dropped) →
        agedOut reader clock cutoff first = true → agedOut reader clock cutoff row = true := by
      intro dropped hscan haged
      rcases List.mem_cons.mp hrow with rfl | hrow
      · exact haged
      · exact ih dropped hscan row hrow hfront
    rw [retainedStart] at hscan
    split at hscan
    next hage => exact hgo _ hscan (by simp [agedOut, hage])
    next hage =>
      obtain ⟨⟨start', dropped'⟩, hbehind, heq⟩ := Option.map_eq_some_iff.mp hscan
      cases heq
      exact hgo _ hbehind (by simp [agedOut, hage])
    · cases hscan
      -- a retained first row has no row in front of it
      have hlt := hfront _ rfl
      have hw := hwide first (by simp)
      rcases List.mem_cons.mp hrow with rfl | hrow
      · omega
      · have := hfirst row hrow
        omega
    · cases hscan

/-- What the first write does: it cuts the file in front of a row or at its
end, and every row in front of the cut has aged out. -/
theorem rewriteWorkspaceRiver_spec {disk disk' : Disk} {n : Nat}
    (h : rewriteWorkspaceRiver reader clock cutoff disk = some (disk', n)) :
    ∃ bytes, disk.workspace = some bytes ∧
      disk' = { disk with workspace := some (bytes.drop n) } ∧
      (n = bytes.length ∨ ∃ row ∈ (feed 0 bytes).kept, row.start = n) ∧
      ∀ row ∈ (feed 0 bytes).kept, row.start < n → agedOut reader clock cutoff row = true := by
  unfold rewriteWorkspaceRiver at h
  cases hws : disk.workspace with
  | none => simp [hws] at h
  | some bytes =>
    have hordered := feed_ordered 0 bytes
    rw [hws] at h
    dsimp only at h
    split at h
    · cases h
    next start dropped hscan =>
      have haged := retainedStart_agedOut hordered.chain hordered.wide hscan
      split at h
      · cases h
      · rw [Option.some.injEq, Prod.mk.injEq] at h
        obtain ⟨rfl, rfl⟩ := h
        refine ⟨bytes, rfl, rfl, ?_, fun row hrow hlt => haged row hrow fun n hn => ?_⟩
        · cases start with
          | none => exact .inl rfl
          | some n => exact .inr (retainedStart_mem hscan)
        · rw [hn] at hlt
          exact hlt

/-- No row of the window begins in front of where a fresh connection does. -/
theorem firstRetainedOffset_le {rows : List (Entry Bytes)}
    (hchain : rows.Pairwise fun a b => a.after ≤ b.start)
    (hwide : ∀ row ∈ rows, row.start < row.after) {endOffset offset : Nat}
    (hend : ∀ row ∈ rows, endOffset ≤ row.start)
    (hscan : firstRetainedOffset reader clock cutoff endOffset rows = some offset) :
    ∀ row ∈ rows, agedOut reader clock cutoff row = false → offset ≤ row.start := by
  induction rows generalizing endOffset with
  | nil => simp
  | cons first rows ih =>
    obtain ⟨hfirst, hrest⟩ := List.pairwise_cons.mp hchain
    have hwide' : ∀ row ∈ rows, row.start < row.after := fun row hrow => hwide row (by simp [hrow])
    intro row hrow hfresh
    have hgo : agedOut reader clock cutoff first = true → row ∈ rows := by
      intro haged
      rcases List.mem_cons.mp hrow with rfl | hrow
      · simp [haged] at hfresh
      · exact hrow
    rw [firstRetainedOffset] at hscan
    split at hscan
    next hage =>
      exact ih hrest hwide' (fun r hr => hend r (by simp [hr])) hscan row
        (hgo (by simp [agedOut, hage])) hfresh
    next hage => exact ih hrest hwide' hfirst hscan row (hgo (by simp [agedOut, hage])) hfresh
    · cases hscan
      -- the first row itself, or one behind it
      have hw := hwide first (by simp)
      rcases List.mem_cons.mp hrow with rfl | hrow
      · exact Nat.le_refl _
      · have := hfirst row hrow
        omega
    · cases hscan

end AgentsRemember.River
