import AgentsRemember.Conversation.Refeed

/-!
# Conversation — SecondPass

The whole store under the evidence it has seen already: item by item the second
pass ends where the first one did, provided that what deltas wrote is written
anew in between. A delta that lands on the block it minted lands there twice.
-/

namespace AgentsRemember.Conversation

namespace ProjectionStore

variable {δ : Type}

/-- The items in their order, without the fields that count changes. -/
def shown (s : ProjectionStore δ) : List (Item δ) := s.view.map core

theorem shown_eq {s t : ProjectionStore δ} (hs : Stored s)
    (hkeys : s.items.map Prod.fst = t.items.map Prod.fst)
    (hget : ∀ itemId, (s.get itemId).map core = (t.get itemId).map core) : s.shown = t.shown := by
  have hpairs : (s.items.map fun e => (e.1, core e.2)) = t.items.map fun e => (e.1, core e.2) := by
    have hfst : ∀ u : ProjectionStore δ,
        (u.items.map fun e => (e.1, core e.2)).map Prod.fst = u.items.map Prod.fst := fun u => by
      rw [List.map_map]
      rfl
    apply Keyed.ext_lookup
    · rw [hfst, hfst, hkeys]
    · rw [hfst]
      exact hs.nodup
    · intro itemId
      rw [Keyed.lookup_map, Keyed.lookup_map]
      exact hget itemId
  have hvalues := congrArg (List.map Prod.snd) hpairs
  rw [List.map_map, List.map_map] at hvalues
  unfold shown view
  rw [List.map_map, List.map_map]
  exact hvalues

/-! ## The evidence of one item -/

/-- In front of its first version an item has deltas only. -/
theorem ownEvents_early {itemId : String} {before : List (StoreCall δ)}
    (h : ∀ call ∈ before, ¬Brings itemId call) :
    ownEvents itemId before = (deltas (ownEvents itemId before)).map .delta := by
  induction before with
  | nil => rfl
  | cons call before ih =>
    have hrest := ih fun other hmem => h other (List.mem_cons_of_mem _ hmem)
    have hcall : ownEvents itemId [call] = (deltas (ownEvents itemId [call])).map .delta := by
      cases call with
      | item candidate =>
        have hne : candidate.itemId ≠ itemId := fun hid =>
          h _ (List.mem_cons_self ..) ⟨candidate, rfl, hid⟩
        rw [ownEvents_item, if_neg hne]
        rfl
      | delta mapped =>
        rw [ownEvents_delta]
        split <;> rfl
      | provenance requestId source => rfl
    rw [ownEvents_cons]
    conv_lhs => rw [hcall, hrest]
    simp [deltas, List.filterMap_append]

theorem ownEvents_append (itemId : String) (calls more : List (StoreCall δ)) :
    ownEvents itemId (calls ++ more) = ownEvents itemId calls ++ ownEvents itemId more :=
  List.filterMap_append

theorem mem_deltas_ownEvents {itemId : String} {calls : List (StoreCall δ)}
    {mapped : MappedBlockDelta} (hid : mapped.itemId = itemId) (hmem : .delta mapped ∈ calls) :
    mapped ∈ deltas (ownEvents itemId calls) := by
  unfold deltas ownEvents
  rw [List.mem_filterMap]
  refine ⟨.delta mapped, List.mem_filterMap.mpr ⟨_, hmem, ?_⟩, rfl⟩
  exact if_pos hid

theorem versions_filter (events : List (ItemEvent δ)) :
    versions (events.filter unresolving) = versions events ∧
      deltas (events.filter unresolving) = deltas events := by
  induction events with
  | nil => exact ⟨rfl, rfl⟩
  | cons event events ih =>
    cases event with
    | resolve source => exact ih
    | version candidate => exact ⟨congrArg (candidate :: ·) ih.1, ih.2⟩
    | delta mapped => exact ⟨ih.1, congrArg (mapped :: ·) ih.2⟩

theorem mem_versions_ownEvents {itemId : String} {calls : List (StoreCall δ)} {candidate : Item δ}
    (h : candidate ∈ versions (ownEvents itemId calls)) :
    .item candidate ∈ calls ∧ candidate.itemId = itemId := by
  rw [mem_versions] at h
  obtain ⟨call, hmem, hcall⟩ := List.mem_filterMap.mp h
  cases call with
  | item other =>
    dsimp only at hcall
    split at hcall
    · rename_i hid
      cases hcall
      exact ⟨hmem, hid⟩
    · cases hcall
  | delta mapped =>
    dsimp only at hcall
    split at hcall <;> cases hcall
  | provenance requestId source => cases hcall

/-! ## Runs -/

section calls
variable [BEq δ]

theorem feed_append (s : ProjectionStore δ) (calls more : List (StoreCall δ)) :
    s.feed (calls ++ more) = (s.feed calls).feed more := List.foldl_append ..

theorem get_feed_none {s : ProjectionStore δ} (hs : Sound s) {itemId : String}
    (hget : s.get itemId = none) {calls : List (StoreCall δ)}
    (hcalls : ∀ call ∈ calls, ¬Brings itemId call) : (s.feed calls).get itemId = none := by
  induction calls generalizing s with
  | nil => exact hget
  | cons call calls ih =>
    exact ih (sound_apply hs call) (get_apply_none hs hget (hcalls call (List.mem_cons_self ..)))
      fun other hmem => hcalls other (List.mem_cons_of_mem _ hmem)

theorem get_feed_of_brings [LawfulBEq δ] {s : ProjectionStore δ} (hs : Sound s) {itemId : String}
    {calls : List (StoreCall δ)} {call : StoreCall δ} (hmem : call ∈ calls)
    (hbrings : Brings itemId call) : ∃ item, (s.feed calls).get itemId = some item := by
  induction calls generalizing s with
  | nil => cases hmem
  | cons other calls ih =>
    rcases List.mem_cons.mp hmem with rfl | hmem
    · obtain ⟨candidate, rfl, rfl⟩ := hbrings
      have hnow : ∃ item, (s.applyItem candidate).1.get candidate.itemId = some item := by
        cases hget : s.get candidate.itemId with
        | none => exact (get_applyItem_new hget).imp fun _ h => h.1
        | some existing => exact (get_applyItem hs hget).imp fun _ h => h.1
      obtain ⟨item, hitem⟩ := hnow
      exact (get_feed (sound_apply hs (.item candidate)) hitem calls).imp fun _ h => h.1
    · exact ih (sound_apply hs other) hmem

theorem prefix_feed {s : ProjectionStore δ} (hs : Sound s) (calls : List (StoreCall δ)) :
    s.items.map Prod.fst <+: (s.feed calls).items.map Prod.fst := by
  induction calls generalizing s with
  | nil => exact List.prefix_rfl
  | cons call calls ih => exact (prefix_apply hs call).trans (ih (sound_apply hs call))

/-- Of every item, what deltas wrote is written anew in a second pass; an item
that got a verdict is a user's in all its versions. -/
structure Refeedable (calls : List (StoreCall δ)) : Prop where
  blocks : ∀ before first after, calls = before ++ .item first :: after →
    (∀ call ∈ before, ¬Brings first.itemId call) →
      Repeatable first (deltas (ownEvents first.itemId before)) (ownEvents first.itemId after)
  verdicts : ∀ before requestId source after itemId,
    calls = before ++ .provenance requestId (some source) :: after →
      (({} : ProjectionStore δ).feed before).awaiting requestId = some itemId →
        ∀ version, .item version ∈ calls → version.itemId = itemId → version.role = .user

/-- The roles of an item behind its first version, by the verdicts it got. -/
theorem roles_of_verdicts {before : List (StoreCall δ)} {first : Item δ}
    {after : List (StoreCall δ)} (h : Refeedable (before ++ .item first :: after))
    {events : List (ItemEvent δ)}
    (hevents : eventsOf first.itemId (({} : ProjectionStore δ).feed (before ++ [.item first])) after =
      events) :
    (∀ event ∈ events, unresolving event = true) ∨
      first.role = .user ∧ ∀ candidate ∈ versions events, candidate.role = .user := by
  by_cases hall : ∀ event ∈ events, unresolving event = true
  · exact .inl hall
  · right
    push Not at hall
    obtain ⟨event, hmem, hresolve⟩ := hall
    cases event with
    | version candidate => exact absurd rfl hresolve
    | delta mapped => exact absurd rfl hresolve
    | resolve source =>
      rw [← hevents] at hmem
      obtain ⟨front, requestId, behind, rfl, hawaiting⟩ := resolve_mem_eventsOf hmem
      rw [← feed_append] at hawaiting
      have huser := h.verdicts _ requestId source behind first.itemId (by simp) hawaiting
      refine ⟨huser first (by simp) rfl, fun candidate hcandidate => ?_⟩
      rw [← (versions_filter events).1, ← hevents, filter_eventsOf] at hcandidate
      obtain ⟨hcall, hid⟩ := mem_versions_ownEvents hcandidate
      exact huser candidate (List.mem_append_right _ (List.mem_cons_of_mem _ hcall)) hid

variable [LawfulBEq δ]

/-- One item, after the evidence has come a second time. -/
theorem get_refeed {calls : List (StoreCall δ)} (h : Refeedable calls) (itemId : String) :
    (((({} : ProjectionStore δ).feed calls).feed (calls.filter isEvidence)).get itemId).map core =
      ((({} : ProjectionStore δ).feed calls).get itemId).map core := by
  have hsound : Sound (({} : ProjectionStore δ).feed calls) := sound_feed Sound.empty calls
  cases hfinal : (({} : ProjectionStore δ).feed calls).get itemId with
  | none =>
    rw [get_feed_none hsound hfinal]
    intro call hmem hbrings
    obtain ⟨item, hitem⟩ := get_feed_of_brings Sound.empty (List.mem_filter.mp hmem).1 hbrings
    rw [hitem] at hfinal
    cases hfinal
  | some final =>
    have hback : Backlog ({} : ProjectionStore δ) [] := fun _ hmem => absurd hmem List.not_mem_nil
    obtain ⟨before, first, after, pending, rfl, rfl, hbefore, hpending, hcore⟩ :=
      first_appearance Sound.empty hback rfl hfinal
    obtain ⟨item, hitem, hsecond⟩ := get_feed hsound hfinal
      ((before ++ .item first :: after).filter isEvidence)
    rw [hitem, Option.map_some, Option.map_some, Option.some_inj, hsecond, eventsOf_evidence]
    let early := deltas (ownEvents first.itemId before)
    let events := eventsOf first.itemId (({} : ProjectionStore δ).feed (before ++ [.item first])) after
    have hevents : events.filter unresolving = ownEvents first.itemId after :=
      filter_eventsOf first.itemId _ after
    -- the evidence again: the early deltas, the first version, the events behind it
    have hown : ownEvents first.itemId (before ++ .item first :: after) =
        early.map .delta ++ .version first :: events.filter unresolving := by
      rw [hevents, ownEvents_append, ownEvents_early hbefore, ownEvents_cons, ownEvents_item,
        if_pos rfl]
      rfl
    rw [hown, List.foldl_append, List.foldl_cons]
    have hearly : pending ⊆ early := fun mapped hmem =>
      mem_deltas_ownEvents (hpending mapped hmem).1 (by simpa using (hpending mapped hmem).2)
    have hrepeatable : Repeatable first early events := by
      have hblocks := h.blocks before first after rfl hbefore
      rw [← hevents] at hblocks
      unfold Repeatable at hblocks ⊢
      rwa [(versions_filter events).1, (versions_filter events).2] at hblocks
    refine Eq.trans ?_ ((core_refed hearly hrepeatable (roles_of_verdicts h rfl)).trans hcore.symm)
    refine foldl_turn_congr (turn_congr (foldl_turn_congr hcore _) _) _

/-- All items, after the evidence has come a second time. -/
theorem shown_refeed {calls : List (StoreCall δ)} (h : Refeedable calls) :
    ((({} : ProjectionStore δ).feed calls).feed (calls.filter isEvidence)).shown =
      (({} : ProjectionStore δ).feed calls).shown := by
  have hsound : Sound (({} : ProjectionStore δ).feed calls) := sound_feed Sound.empty calls
  have hagain := sound_feed hsound (calls.filter isEvidence)
  have hsub : (((({} : ProjectionStore δ).feed calls).feed (calls.filter isEvidence)).items.map
      Prod.fst) ⊆ (({} : ProjectionStore δ).feed calls).items.map Prod.fst := by
    intro itemId hmem
    rw [← get_isSome_iff] at hmem ⊢
    rw [← Option.isSome_map (f := core), ← get_refeed h itemId, Option.isSome_map]
    exact hmem
  have hkeys := (prefix_feed hsound (calls.filter isEvidence)).eq_of_length_le
    (List.Nodup.length_le_of_subset hagain.nodup hsub)
  exact shown_eq hagain.toStored hkeys.symm (get_refeed h)

/-! ## Verdicts -/

omit [BEq δ] [LawfulBEq δ] in
/-- The second verdict of a request finds what the first one found. -/
theorem awaiting_applyProvenance (s : ProjectionStore δ) (requestId : String)
    (source : Option SubmissionSource) (other : String) :
    (s.applyProvenance requestId source).1.awaiting other = s.awaiting other := by
  unfold applyProvenance
  dsimp only
  split
  · split <;> rfl
  · rfl

omit [BEq δ] [LawfulBEq δ] in
/-- A verdict that comes again leaves what is shown. It leaves the items as they
are, and says nothing, just when it says nothing or nobody waits for it. -/
theorem applyProvenance_again {s : ProjectionStore δ} (hs : Sound s) (requestId : String)
    (source : Option SubmissionSource) :
    let t := (s.applyProvenance requestId source).1
    (t.applyProvenance requestId source).1.shown = t.shown ∧
      ((t.applyProvenance requestId source).1.items = t.items ∧
          (t.applyProvenance requestId source).2 = [] ↔
        source = none ∨ s.awaiting requestId = none) := by
  dsimp only
  cases source with
  | none => exact ⟨rfl, fun _ => .inl rfl, fun _ => ⟨rfl, rfl⟩⟩
  | some source =>
    have hawaiting := awaiting_applyProvenance s requestId (some source) requestId
    cases hnow : s.awaiting requestId with
    | none =>
      rw [applyProvenance_idle (hawaiting.trans hnow)]
      exact ⟨rfl, fun _ => .inr rfl, fun _ => ⟨rfl, rfl⟩⟩
    | some itemId =>
      obtain ⟨item, hitem⟩ := exists_awaited hs.toStored hnow
      have hid : item.itemId = itemId := ((mem_view hs.toStored).mp hitem).2
      have hget : (s.applyProvenance requestId (some source)).1.get itemId =
          some (resolved item source) := by
        rw [applyProvenance_hit hnow hitem, get_put]
        exact if_pos hid
      rw [applyProvenance_hit (hawaiting.trans hnow) hget]
      refine ⟨?_, fun h => ?_, fun h => ?_⟩
      · have hself : ({ (s.applyProvenance requestId (some source)).1 with
            provenanceDone := (s.applyProvenance requestId (some source)).1.provenanceDone ++
              [requestId] } : ProjectionStore δ).get
            (resolved (resolved item source) source).itemId = some (resolved item source) :=
          (congrArg _ hid).trans hget
        refine shown_eq ?_ (keys_put hself) fun other => ?_
        · have hstored := ((hs.applyProvenance requestId (some source)).applyProvenance requestId
            (some source)).toStored
          rwa [applyProvenance_hit (hawaiting.trans hnow) hget] at hstored
        · rw [get_put]
          split
          · rename_i hother
            have hotherId : itemId = other := hid.symm.trans hother
            rw [← hotherId, hget]
            rfl
          · rfl
      · cases h.2
      · rcases h with h | h <;> cases h

/-- A second pass over the evidence, and a second verdict. -/
theorem feed_twice (calls : List (StoreCall δ)) :
    (Refeedable calls →
      ((({} : ProjectionStore δ).feed calls).feed (calls.filter isEvidence)).shown =
        (({} : ProjectionStore δ).feed calls).shown) ∧
    ∀ requestId source,
      let s := ({} : ProjectionStore δ).feed calls
      let t := (s.applyProvenance requestId source).1
      (t.applyProvenance requestId source).1.shown = t.shown ∧
        ((t.applyProvenance requestId source).1.items = t.items ∧
            (t.applyProvenance requestId source).2 = [] ↔
          source = none ∨ s.awaiting requestId = none) :=
  ⟨shown_refeed, applyProvenance_again (sound_feed Sound.empty calls)⟩

end calls

/-! An answer whose start was streamed ahead of it, and a command whose output is. -/

/-- A message. -/
def answer : Item Unit where
  itemId := "answer"
  lane := .harness
  source := .harnessLive
  provenance := { strength := .nativeOnly, origin := "mapper" }
  role := .assistant
  kind := .message
  phase := .completed
  blocks := [⟨"markdown", .markdown "Hello"⟩]

/-- A tool call. -/
def command : Item Unit where
  itemId := "command"
  lane := .harness
  source := .harnessLive
  provenance := { strength := .nativeOnly, origin := "mapper" }
  role := .tool
  kind := .toolCall
  phase := .streaming
  blocks := [⟨"input", .toolInput "ls" none⟩]

/-- The calls that are fed twice. -/
def listed : List (StoreCall Unit) := [.item command, .delta ⟨"command", "", "x"⟩]

/-- The command's output is minted with the text, and gets it again. -/
theorem output_doubles :
    ((({} : ProjectionStore Unit).feed listed).feed (listed.filter isEvidence)).shown ≠
      (({} : ProjectionStore Unit).feed listed).shown := by
  decide +kernel

/-- An answer that is streamed and then sent whole. -/
def streamedAnswer : List (StoreCall Unit) :=
  [.delta ⟨"answer", "", "Hel"⟩, .item answer, .delta ⟨"answer", "", "!"⟩]

theorem refeedable_answer : Refeedable streamedAnswer where
  blocks := by
    intro before first after h _
    unfold streamedAnswer at h
    rcases before with _ | ⟨a, _ | ⟨b, _ | ⟨c, before⟩⟩⟩ <;> simp at h
    obtain ⟨rfl, rfl, rfl⟩ := h
    refine .inr ⟨fun htool => absurd htool (by decide), fun mapped _ => .inr ⟨?_, ?_⟩⟩
    · exact .inr ⟨by decide, fun hnotice => absurd hnotice (by decide)⟩
    · intro other hother htarget
      have hmarkdown : targetBlock answer other.blockId = "markdown" := by
        have hmem : other = ⟨"answer", "", "Hel"⟩ := List.mem_singleton.mp hother
        rw [hmem]
        rfl
      rw [← htarget, hmarkdown]
      decide
  verdicts := by
    intro before requestId source after itemId h
    have hmem : .provenance requestId (some source) ∈ streamedAnswer := by
      rw [h]
      exact List.mem_append_right _ (List.mem_cons_self ..)
    unfold streamedAnswer at hmem
    simp at hmem

theorem feed_twice_answer :
    ((({} : ProjectionStore Unit).feed streamedAnswer).feed
        (streamedAnswer.filter isEvidence)).shown =
      (({} : ProjectionStore Unit).feed streamedAnswer).shown :=
  (feed_twice streamedAnswer).1 refeedable_answer

end ProjectionStore

end AgentsRemember.Conversation
