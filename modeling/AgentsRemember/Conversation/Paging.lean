import AgentsRemember.Conversation.Store

/-!
# Conversation — Paging

The pages of a conversation, newest first: a page is a window of the canonical
order and hands out the ordinal with which the next older one is asked for. A
cursor on the wire is that ordinal, sealed; the seal is left out.

Ordinals count from one and the positions of the order from zero. `page` reads
an ordinal as the first, and hands out a position: the item in front of every
page but the oldest is skipped (`pagesBack_whole_iff`).
-/

namespace AgentsRemember.Conversation

/-- One page over the canonical order. -/
structure PageSlice (δ : Type) where
  items : List (Item δ)
  olderOrdinal : Option Nat
  hasOlder : Bool
  totalItems : Option Nat

variable {δ : Type}

/-- One chronological window, in front of an ordinal or at the end. -/
def ProjectionStore.page (s : ProjectionStore δ) (beforeOrdinal : Option Nat) (limit : Nat)
    (totalKnown : Bool) : PageSlice δ :=
  let stop := match beforeOrdinal with
    | some ordinal => ordinal - 1
    | none => s.view.length
  let start := stop - limit
  { items := (s.view.take stop).drop start
    olderOrdinal := if 0 < start then some start else none
    hasOlder := 0 < start
    totalItems := if totalKnown then some s.view.length else none }

/-- The cap on a page. -/
def maxPageLimit : Nat := 500

/-- The service's page: the limit it is asked for, within bounds. -/
def servePage (s : ProjectionStore δ) (before : Option Nat) (limit : Nat) (totalKnown : Bool) :
    PageSlice δ :=
  s.page before (max 1 (min maxPageLimit limit)) totalKnown

/-- The pages of a reader who goes back as long as there is an older one. -/
def readBack (s : ProjectionStore δ) (limit : Nat) (totalKnown : Bool) :
    Nat → Option Nat → List (PageSlice δ)
  | 0, _ => []
  | fuel + 1, before =>
    let page := servePage s before limit totalKnown
    page :: if page.hasOlder then readBack s limit totalKnown fuel page.olderOrdinal else []

/-- What the pages hold, oldest page first. -/
def pagedItems (pages : List (PageSlice δ)) : List (Item δ) :=
  pages.reverse.flatMap PageSlice.items

/-! ## The way back ends -/

/-- Where a page starts. -/
def pageStart (s : ProjectionStore δ) (limit : Nat) (before : Option Nat) : Nat :=
  (match before with
    | some ordinal => ordinal - 1
    | none => s.view.length) - max 1 (min maxPageLimit limit)

variable {s : ProjectionStore δ} {limit : Nat} {totalKnown : Bool}

theorem servePage_hasOlder (before : Option Nat) :
    (servePage s before limit totalKnown).hasOlder = decide (0 < pageStart s limit before) := rfl

theorem servePage_olderOrdinal {before : Option Nat} (h : 0 < pageStart s limit before) :
    (servePage s before limit totalKnown).olderOrdinal = some (pageStart s limit before) :=
  if_pos h

theorem readBack_succ (fuel : Nat) (before : Option Nat) :
    readBack s limit totalKnown (fuel + 1) before =
      servePage s before limit totalKnown ::
        if 0 < pageStart s limit before then
          readBack s limit totalKnown fuel (some (pageStart s limit before))
        else [] := by
  rw [readBack, servePage_hasOlder]
  by_cases h : 0 < pageStart s limit before
  · rw [if_pos (decide_eq_true h), if_pos h, servePage_olderOrdinal h]
  · rw [if_neg (by simp [h]), if_neg h]

/-- Each page starts further back, so the way back ends by itself. -/
theorem readBack_stops {fuel fuel' : Nat} {before : Option Nat}
    (hfuel : pageStart s limit before < fuel) (hle : fuel ≤ fuel') :
    readBack s limit totalKnown fuel' before = readBack s limit totalKnown fuel before := by
  induction fuel generalizing fuel' before with
  | zero => omega
  | succ fuel ih =>
    obtain ⟨fuel', rfl⟩ := Nat.exists_eq_succ_of_ne_zero (by omega : fuel' ≠ 0)
    rw [readBack_succ, readBack_succ]
    by_cases h : 0 < pageStart s limit before
    · have hnext : pageStart s limit (some (pageStart s limit before)) < fuel := by
        show pageStart s limit before - 1 - _ < fuel
        omega
      rw [if_pos h, if_pos h, ih hnext (by omega)]
    · rw [if_neg h, if_neg h]

/-! ## What the pages hold -/

theorem pagedItems_cons (page : PageSlice δ) (pages : List (PageSlice δ)) :
    pagedItems (page :: pages) = pagedItems pages ++ page.items := by
  simp [pagedItems, List.flatMap_append]

/-- From an ordinal on, no more than the items in front of it. -/
theorem length_pagedItems (fuel ordinal : Nat) :
    (pagedItems (readBack s limit totalKnown fuel (some ordinal))).length ≤ ordinal - 1 := by
  induction fuel generalizing ordinal with
  | zero => simp [readBack, pagedItems]
  | succ fuel ih =>
    rw [readBack_succ, pagedItems_cons, List.length_append]
    have hpage : (servePage s (some ordinal) limit totalKnown).items.length ≤
        ordinal - 1 - pageStart s limit (some ordinal) := by
      show ((s.view.take (ordinal - 1)).drop _).length ≤ _
      rw [List.length_drop, List.length_take]
      exact Nat.sub_le_sub_right (Nat.min_le_left _ _) _
    have hle : pageStart s limit (some ordinal) ≤ ordinal - 1 := Nat.sub_le _ _
    split
    · have hrest := ih (pageStart s limit (some ordinal))
      omega
    · simp only [pagedItems, List.reverse_nil, List.flatMap_nil, List.length_nil]
      omega

/-- All the pages of the way back. -/
def pagesBack (s : ProjectionStore δ) (limit : Nat) (totalKnown : Bool) : List (PageSlice δ) :=
  readBack s limit totalKnown (s.view.length + 1) none

theorem readBack_eq_pagesBack {fuel : Nat} (h : s.view.length < fuel) :
    readBack s limit totalKnown fuel none = pagesBack s limit totalKnown :=
  readBack_stops (Nat.lt_succ_of_le (Nat.sub_le _ _)) h

/-- **Paging back gives the whole conversation exactly when it fits one page.**
Behind every further page one item is skipped. -/
theorem pagesBack_whole_iff (s : ProjectionStore δ) (limit : Nat) (totalKnown : Bool) :
    pagedItems (pagesBack s limit totalKnown) = s.view ↔
      s.view.length ≤ max 1 (min maxPageLimit limit) := by
  unfold pagesBack
  rw [readBack_succ, pagedItems_cons]
  have hitems : (servePage s none limit totalKnown).items =
      s.view.drop (pageStart s limit none) := by
    show (s.view.take s.view.length).drop _ = _
    rw [List.take_length]
    rfl
  rw [hitems]
  have hstart : pageStart s limit none = s.view.length - max 1 (min maxPageLimit limit) := rfl
  constructor
  · intro h
    by_contra hlong
    rw [if_pos (by omega)] at h
    -- the older pages together are shorter than what is in front of this one
    have hlen := congrArg List.length h
    have hrest := @length_pagedItems δ s limit totalKnown s.view.length (pageStart s limit none)
    rw [List.length_append, List.length_drop] at hlen
    omega
  · intro h
    rw [if_neg (by omega), show pageStart s limit none = 0 by omega]
    rfl

/-! ## A conversation of two pages -/

/-- A message. -/
def assistantMessage (itemId : String) : Item Unit where
  itemId := itemId
  lane := .harness
  source := .harnessLive
  provenance := { strength := .nativeOnly, origin := "native" }
  role := .assistant
  kind := .message
  phase := .completed
  blocks := []

/-- A store of two messages. -/
def twoMessages : ProjectionStore Unit where
  items := [("a", assistantMessage "a"), ("b", assistantMessage "b")]

/-- Read one by one, the first message is on no page. -/
theorem pagesBack_skips :
    pagedItems (pagesBack twoMessages 1 true) = [assistantMessage "b"] ∧
      pagedItems (pagesBack twoMessages 1 true) ≠ twoMessages.view := by
  decide

end AgentsRemember.Conversation
