import AgentsRemember.Conversation.Echo
import AgentsRemember.Foundation.Runs
import AgentsRemember.Foundation.Watermark
import Mathlib.Data.List.Basic

/-!
# Conversation — Turns

What a harness produces, in the order in which it produces it: an echo opens a
turn, frames come while one is open, and a result ends it. The bridge hands out
the frames and the transcript entries as two logs, each up to some point.

A frame belongs to the turn of the last echo in front of it. In the log of
frames alone that turn is known by counting results (`turnsOf_eq`), and this is
all the zipper goes by.
-/

namespace AgentsRemember.Conversation

variable {ρ ε : Type}

/-- A frame or an entry. -/
inductive Event (ρ ε : Type) where
  | frame (frame : EvidenceFrame ρ)
  | entry (entry : TranscriptEntry ε)

/-- The frames among the events. -/
def framesOf (events : List (Event ρ ε)) : List (EvidenceFrame ρ) :=
  events.filterMap fun
    | .frame frame => some frame
    | .entry _ => none

/-- The entries among the events. -/
def entriesOf (events : List (Event ρ ε)) : List (TranscriptEntry ε) :=
  events.filterMap fun
    | .frame _ => none
    | .entry entry => some entry

/-- Echoes and frames in turn order, from where a turn is open or not. -/
def Produced : Bool → List (Event ρ ε) → Prop
  | _, [] => True
  | turnOpen, .frame frame :: events => turnOpen = true ∧ Produced (!frame.isResult) events
  | turnOpen, .entry entry :: events =>
    if entry.isUser then turnOpen = false ∧ Produced true events else Produced turnOpen events

instance decidableProduced : (turnOpen : Bool) → (events : List (Event ρ ε)) →
    Decidable (Produced turnOpen events)
  | _, [] => isTrue trivial
  | turnOpen, .frame frame :: events =>
    have := decidableProduced (!frame.isResult) events
    inferInstanceAs (Decidable (turnOpen = true ∧ Produced (!frame.isResult) events))
  | turnOpen, .entry entry :: events =>
    have := decidableProduced true events
    have := decidableProduced turnOpen events
    inferInstanceAs (Decidable (if entry.isUser then turnOpen = false ∧ Produced true events
      else Produced turnOpen events))

/-- The number of an entry. -/
def TranscriptEntry.position (entry : TranscriptEntry ε) : Nat := entry.sequence.getD 0

/-- A production history, with the sequence numbers of its two logs. -/
structure History (ρ ε : Type) where
  events : List (Event ρ ε)
  produced : Produced false events
  frames_increasing : (framesOf events).Pairwise fun a b => a.sequence < b.sequence
  frames_positive : ∀ frame ∈ framesOf events, 0 < frame.sequence
  entries_numbered : ∀ entry ∈ entriesOf events, entry.sequence = some entry.position
  entries_increasing : (entriesOf events).Pairwise fun a b => a.position < b.position
  entries_positive : ∀ entry ∈ entriesOf events, 0 < entry.position

/-- All frames of a history. -/
def History.frames (h : History ρ ε) : List (EvidenceFrame ρ) := framesOf h.events

/-- All entries of a history. -/
def History.entries (h : History ρ ε) : List (TranscriptEntry ε) := entriesOf h.events

/-- The turn of each frame: how many echoes were produced in front of it. -/
def turnsOf : Nat → List (Event ρ ε) → List Nat
  | _, [] => []
  | turn, .frame _ :: events => turn :: turnsOf turn events
  | turn, .entry entry :: events => turnsOf (if entry.isUser then turn + 1 else turn) events

/-- The bodies the frames belong to, by counting results. -/
def bodyNumbers : Nat → List (EvidenceFrame ρ) → List Nat
  | _, [] => []
  | ended, frame :: frames =>
    (ended + 1) :: bodyNumbers (if frame.isResult then ended + 1 else ended) frames

@[simp] theorem resultCount_nil : EchoIngestion.resultCount ([] : List (EvidenceFrame ρ)) = 0 := rfl

theorem resultCount_cons (frame : EvidenceFrame ρ) (frames : List (EvidenceFrame ρ)) :
    EchoIngestion.resultCount (frame :: frames) =
      EchoIngestion.resultCount frames + if frame.isResult then 1 else 0 := by
  simp [EchoIngestion.resultCount, List.countP_cons]

theorem resultCount_append (a b : List (EvidenceFrame ρ)) :
    EchoIngestion.resultCount (a ++ b) =
      EchoIngestion.resultCount a + EchoIngestion.resultCount b := List.countP_append

theorem bodyNumbers_append (ended : Nat) (a b : List (EvidenceFrame ρ)) :
    bodyNumbers ended (a ++ b) =
      bodyNumbers ended a ++ bodyNumbers (ended + EchoIngestion.resultCount a) b := by
  induction a generalizing ended with
  | nil => simp [bodyNumbers]
  | cons frame a ih =>
    have hcount : (if frame.isResult then ended + 1 else ended) + EchoIngestion.resultCount a =
        ended + EchoIngestion.resultCount (frame :: a) := by
      rw [resultCount_cons]
      split <;> omega
    simp only [List.cons_append, bodyNumbers, ih, hcount]

@[simp] theorem length_bodyNumbers (ended : Nat) (frames : List (EvidenceFrame ρ)) :
    (bodyNumbers ended frames).length = frames.length := by
  induction frames generalizing ended with
  | nil => rfl
  | cons frame frames ih => simp [bodyNumbers, ih]

/-- Behind the first `n` frames the count goes on from their results. -/
theorem drop_bodyNumbers (frames : List (EvidenceFrame ρ)) (n : Nat) :
    (bodyNumbers 0 frames).drop n =
      bodyNumbers (EchoIngestion.resultCount (frames.take n)) (frames.drop n) := by
  have happend := bodyNumbers_append 0 (frames.take n) (frames.drop n)
  rw [List.take_append_drop, Nat.zero_add] at happend
  rw [happend]
  by_cases hn : n ≤ frames.length
  · rw [List.drop_left']
    simp [hn]
  · have hlong : frames.drop n = [] := List.drop_eq_nil_of_le (by omega)
    rw [hlong, List.drop_eq_nil_of_le]
    · rfl
    · rw [List.length_append, length_bodyNumbers, List.length_take, length_bodyNumbers]
      simp only [List.length_nil]
      omega

/-- In a production history the count of results gives the turns. -/
theorem turnsOf_eq {events : List (Event ρ ε)} {turnOpen : Bool} (h : Produced turnOpen events)
    (ended : Nat) : turnsOf (ended + if turnOpen then 1 else 0) events =
      bodyNumbers ended (framesOf events) := by
  induction events generalizing turnOpen ended with
  | nil => rfl
  | cons event events ih =>
    cases event with
    | frame frame =>
      obtain ⟨rfl, hrest⟩ := h
      have ih := ih hrest (if frame.isResult then ended + 1 else ended)
      show (ended + 1) :: turnsOf (ended + 1) events = (ended + 1) :: bodyNumbers _ (framesOf events)
      rw [← ih]
      cases frame.isResult <;> rfl
    | entry entry =>
      by_cases huser : entry.isUser
      · simp only [Produced, huser, if_true] at h
        obtain ⟨rfl, hrest⟩ := h
        simpa [turnsOf, huser, framesOf] using ih hrest ended
      · simp only [Produced, huser, if_false, Bool.false_eq_true] at h
        simpa [turnsOf, huser, framesOf] using ih h ended

/-! ## What a rebuild reads -/

/-- Page by page, a rebuild reads all the entries there are. -/
theorem readRetained_all {entries : List (TranscriptEntry ε)}
    (hnumbered : ∀ entry ∈ entries, entry.sequence = some entry.position)
    (hincreasing : entries.Pairwise fun a b => a.position < b.position) {fuel : Nat}
    {read rest page : List (TranscriptEntry ε)} (hsplit : entries = read ++ rest)
    (hfuel : rest.length ≤ fuel)
    (hpage : page.length ≠ evidencePageLimit → rest = [])
    (hlast : page.length = evidencePageLimit → read ≠ []) :
    EchoIngestion.readRetained (fun after =>
      (entries.filter fun entry => after < entry.position).take evidencePageLimit)
      fuel read page = entries := by
  induction fuel generalizing read rest page with
  | zero =>
    obtain rfl : rest = [] := List.length_eq_zero_iff.mp (by omega)
    rw [hsplit, List.append_nil]
    rfl
  | succ fuel ih =>
    unfold EchoIngestion.readRetained
    split
    · rename_i hfull
      obtain ⟨front, entry, rfl⟩ : ∃ front entry, read = front ++ [entry] :=
        ⟨_, _, (List.dropLast_append_getLast (hlast hfull)).symm⟩
      have hseq := hnumbered entry (by simp [hsplit])
      rw [List.getLast?_append_of_ne_nil _ (by simp)]
      simp only [List.getLast?_singleton, Option.bind_some, hseq]
      -- behind the last entry the bridge serves the front of the rest
      have hcut : Watermark.Cut TranscriptEntry.position entries entry.position
          (front ++ [entry]) rest := by
        have hinc := hincreasing
        rw [hsplit] at hinc
        obtain ⟨hfront, -, hrest⟩ := List.pairwise_append.mp hinc
        refine ⟨hsplit, fun e he => ?_, fun e he => hrest entry (by simp) e he⟩
        rcases List.mem_append.mp he with he | he
        · exact Nat.le_of_lt ((List.pairwise_append.mp hfront).2.2 e he entry (by simp))
        · exact Nat.le_of_eq (by rw [List.mem_singleton.mp he])
      have hread : (entries.filter fun e => entry.position < e.position) = rest := by
        have hall := hcut.unread entries.length
        have hlen := congrArg List.length hsplit
        rw [List.length_append] at hlen
        rw [List.take_length, List.take_of_length_le (by omega)] at hall
        exact hall
      rw [hread]
      refine @ih (front ++ [entry] ++ rest.take evidencePageLimit)
        (rest.drop evidencePageLimit) _ ?_ ?_ ?_ ?_
      · rw [hsplit, List.append_assoc _ (rest.take _), List.take_append_drop]
      · rw [List.length_drop]
        unfold evidencePageLimit
        omega
      · intro hshort
        rw [List.length_take] at hshort
        exact List.drop_eq_nil_of_le (by omega)
      · simp
    · rename_i hshort
      rw [hsplit, hpage hshort, List.append_nil]

/-- So from the start: the first page and the pages behind it. -/
theorem readRetained_fresh {entries : List (TranscriptEntry ε)}
    (hnumbered : ∀ entry ∈ entries, entry.sequence = some entry.position)
    (hincreasing : entries.Pairwise fun a b => a.position < b.position)
    (hpositive : ∀ entry ∈ entries, 0 < entry.position) {fuel : Nat}
    (hfuel : entries.length ≤ fuel) :
    EchoIngestion.readRetained (fun after =>
      (entries.filter fun entry => after < entry.position).take evidencePageLimit) fuel
      ((entries.filter fun entry => 0 < entry.position).take evidencePageLimit)
      ((entries.filter fun entry => 0 < entry.position).take evidencePageLimit) = entries := by
  have hfirst : (entries.filter fun entry => 0 < entry.position) = entries :=
    List.filter_eq_self.mpr fun entry hentry => decide_eq_true (hpositive entry hentry)
  rw [hfirst]
  apply readRetained_all hnumbered hincreasing (List.take_append_drop evidencePageLimit _).symm
  · rw [List.length_drop]
    omega
  · intro hshort
    rw [List.length_take] at hshort
    exact List.drop_eq_nil_of_le (by omega)
  · intro hfull hnil
    rw [hnil] at hfull
    cases hfull

/-! ## What was applied -/

/-- What reached the sink. -/
inductive Applied (ρ ε : Type) where
  | echo (entry : TranscriptEntry ε)
  | frame (frame : EvidenceFrame ρ)
  | advance (sequence : Nat)

/-- The sink that keeps a log. -/
def logSink : Sink ρ ε (List (Applied ρ ε)) where
  echo entry log := log ++ [.echo entry]
  frame frame log := log ++ [.frame frame]
  advance sequence log := log ++ [.advance sequence]

@[simp] theorem logSink_echo (entry : TranscriptEntry ε) (log : List (Applied ρ ε)) :
    logSink.echo entry log = log ++ [.echo entry] := rfl

@[simp] theorem logSink_frame (frame : EvidenceFrame ρ) (log : List (Applied ρ ε)) :
    logSink.frame frame log = log ++ [.frame frame] := rfl

@[simp] theorem logSink_advance (n : Nat) (log : List (Applied ρ ε)) :
    logSink.advance n log = log ++ [.advance n] := rfl

/-- The frames that reached the sink. -/
def framesApplied (log : List (Applied ρ ε)) : List (EvidenceFrame ρ) :=
  log.filterMap fun
    | .frame frame => some frame
    | _ => none

/-- The echoes that reached the sink. -/
def echoesApplied (log : List (Applied ρ ε)) : List (TranscriptEntry ε) :=
  log.filterMap fun
    | .echo entry => some entry
    | _ => none

/-- The watermarks that reached the sink. -/
def advances (log : List (Applied ρ ε)) : List Nat :=
  log.filterMap fun
    | .advance sequence => some sequence
    | _ => none

/-- How many echoes were applied in front of each frame. -/
def heard : Nat → List (Applied ρ ε) → List Nat
  | _, [] => []
  | echoes, .echo _ :: log => heard (echoes + 1) log
  | echoes, .frame _ :: log => echoes :: heard echoes log
  | echoes, .advance _ :: log => heard echoes log

section log
variable (log : List (Applied ρ ε))

@[simp] theorem framesApplied_echo (entry : TranscriptEntry ε) :
    framesApplied (log ++ [.echo entry]) = framesApplied log := by simp [framesApplied]

@[simp] theorem framesApplied_frame (frame : EvidenceFrame ρ) :
    framesApplied (log ++ [.frame frame]) = framesApplied log ++ [frame] := by
  simp [framesApplied]

@[simp] theorem framesApplied_advance (n : Nat) :
    framesApplied (log ++ [.advance n]) = framesApplied log := by simp [framesApplied]

@[simp] theorem echoesApplied_echo (entry : TranscriptEntry ε) :
    echoesApplied (log ++ [.echo entry]) = echoesApplied log ++ [entry] := by
  simp [echoesApplied]

@[simp] theorem echoesApplied_frame (frame : EvidenceFrame ρ) :
    echoesApplied (log ++ [.frame frame]) = echoesApplied log := by simp [echoesApplied]

@[simp] theorem echoesApplied_advance (n : Nat) :
    echoesApplied (log ++ [.advance n]) = echoesApplied log := by simp [echoesApplied]

@[simp] theorem advances_echo (entry : TranscriptEntry ε) :
    advances (log ++ [.echo entry]) = advances log := by simp [advances]

@[simp] theorem advances_frame (frame : EvidenceFrame ρ) :
    advances (log ++ [.frame frame]) = advances log := by simp [advances]

@[simp] theorem advances_advance (n : Nat) :
    advances (log ++ [.advance n]) = advances log ++ [n] := by simp [advances]

theorem heard_append (echoes : Nat) (a b : List (Applied ρ ε)) :
    heard echoes (a ++ b) = heard echoes a ++ heard (echoes + (echoesApplied a).length) b := by
  induction a generalizing echoes with
  | nil => simp [heard, echoesApplied]
  | cons applied a ih =>
    cases applied with
    | echo entry =>
      have hcount : echoes + 1 + (echoesApplied a).length =
          echoes + (echoesApplied (.echo entry :: a)).length := by
        simp only [echoesApplied, List.filterMap_cons, List.length_cons]
        omega
      rw [List.cons_append, heard, ih, hcount]
      rfl
    | frame frame =>
      rw [List.cons_append, heard, ih]
      rfl
    | advance n =>
      rw [List.cons_append, heard, ih]
      rfl

@[simp] theorem heard_echo (entry : TranscriptEntry ε) :
    heard 0 (log ++ [.echo entry]) = heard 0 log := by simp [heard_append, heard]

@[simp] theorem heard_frame (frame : EvidenceFrame ρ) :
    heard 0 (log ++ [.frame frame]) = heard 0 log ++ [(echoesApplied log).length] := by
  simp [heard_append, heard]

@[simp] theorem heard_advance (n : Nat) :
    heard 0 (log ++ [.advance n]) = heard 0 log := by simp [heard_append, heard]

end log

end AgentsRemember.Conversation
