import AgentsRemember.Conversation.Alike
import AgentsRemember.Conversation.Replica
import Mathlib.Data.String.Basic

/-!
# Conversation — Loud

A mapper that shows every frame and every echo as an item of its own, and what a
rebuild shows with it: `Between` bounds the ids that a projection has from below
and from above, through the walk, the polls and the zipper.
-/

namespace AgentsRemember.Conversation

open Attempts

namespace ProjectionStore

variable {δ : Type}

theorem merged_role (existing candidate : Item δ) :
    (merged existing candidate).role = candidate.role := by
  unfold merged retainFinalMessage unionToolCall reconcileRosterUpsert
  grind

theorem merged_correlation (existing candidate : Item δ) :
    (merged existing candidate).correlation = candidate.correlation := by
  unfold merged retainFinalMessage unionToolCall reconcileRosterUpsert
  grind

theorem upserted_role (existing candidate : Item δ) :
    (upserted existing candidate).role = candidate.role := by
  unfold upserted preservedInputAuthority
  split <;> rfl

theorem upserted_correlation (existing candidate : Item δ) :
    (upserted existing candidate).correlation = candidate.correlation := by
  unfold upserted preservedInputAuthority
  split <;> rfl

theorem upserted_provenance (existing candidate : Item δ) :
    (upserted existing candidate).provenance = existing.provenance := by
  unfold upserted preservedInputAuthority
  split <;> rfl

theorem preserved_role (existing candidate : Item δ) :
    (preservedInputAuthority existing candidate).role = candidate.role := by
  unfold preservedInputAuthority
  split <;> rfl

theorem trackProvenance_provenanceDone (s : ProjectionStore δ) (item : Item δ) :
    (s.trackProvenance item).provenanceDone = s.provenanceDone := by
  unfold trackProvenance
  split
  · rfl
  · split <;> rfl

theorem flushPendingDeltas_nil {s : ProjectionStore δ} (h : s.pendingDeltas = [])
    (itemId : String) (authoritative : List String) :
    (s.flushPendingDeltas itemId authoritative).1 = s := by
  obtain ⟨items, pendingDeltas, pending, done⟩ := s
  obtain rfl : pendingDeltas = [] := h
  rfl

theorem pendingRequestIds_ne_nil {s : ProjectionStore δ} (hdone : s.provenanceDone = [])
    (hpending : s.provenancePending ≠ []) : s.pendingRequestIds ≠ [] := by
  unfold pendingRequestIds
  rw [hdone]
  simp only [List.not_mem_nil, if_false, ne_eq, List.map_eq_nil_iff]
  apply Keyed.dict_ne_nil
  simpa using hpending

theorem role_of_normalized_beq [BEq δ] {a b : Item δ} (h : (normalized a == normalized b) = true) :
    a.role = b.role := by
  have hrole : ∀ r r' : Role, instBEqRole.beq r r' = true → r = r' := by
    intro r r'
    cases r <;> cases r' <;> decide
  obtain ⟨⟩ := a
  obtain ⟨⟩ := b
  simp only [normalized, BEq.beq, instBEqItem.beq, Bool.and_eq_true] at h
  obtain ⟨-, -, -, -, -, -, -, -, h, -⟩ := h
  exact hrole _ _ h

/-- What an item leaves in a store without a backlog: the store as it was, when
nothing changes, or the item in its place. -/
theorem applyItem_cases [BEq δ] {s : ProjectionStore δ} (h : s.pendingDeltas = [])
    (candidate : Item δ) :
    (∃ existing, s.get candidate.itemId = some existing ∧ (s.applyItem candidate).1 = s ∧
      (normalized (preservedInputAuthority existing (merged existing candidate)) ==
        normalized existing) = true) ∨
    ∃ item, item.itemId = candidate.itemId ∧ item.role = candidate.role ∧
      item.correlation = candidate.correlation ∧
      (item.provenance = candidate.provenance ∨ ∃ existing,
        s.get candidate.itemId = some existing ∧ item.provenance = existing.provenance) ∧
      (s.applyItem candidate).1 = (s.put item).trackProvenance item := by
  have hflush : ∀ item : Item δ, ∀ itemId authoritative,
      (((s.put item).trackProvenance item).flushPendingDeltas itemId authoritative).1 =
        (s.put item).trackProvenance item := by
    intro item itemId authoritative
    apply flushPendingDeltas_nil
    rw [trackProvenance_pendingDeltas, put_pendingDeltas, h]
  unfold applyItem
  dsimp only
  cases hget : s.get candidate.itemId with
  | none =>
    refine .inr ⟨firstAppearance candidate (s.items.length + 1), rfl, rfl, rfl, .inl rfl, ?_⟩
    exact hflush _ _ _
  | some existing =>
    dsimp only
    split
    · rename_i hsame
      exact .inl ⟨existing, rfl, flushPendingDeltas_nil h _ _, hsame⟩
    · refine .inr ⟨upserted existing (merged existing candidate), ?_, ?_, ?_,
        .inr ⟨existing, rfl, upserted_provenance _ _⟩, ?_⟩
      · rw [upserted_itemId, merged_itemId]
      · rw [upserted_role, merged_role]
      · rw [upserted_correlation, merged_correlation]
      · exact hflush _ _ _

/-- A store of items that are all still to be resolved, where a user's is. -/
structure Marked (s : ProjectionStore δ) : Prop where
  sound : Sound s
  noDeltas : s.pendingDeltas = []
  unasked : s.provenanceDone = []
  inexact : ∀ e ∈ s.items, e.2.provenance.strength ≠ .exact
  asked : (∃ e ∈ s.items, e.2.role = .user) → s.provenancePending ≠ []

theorem Marked.empty : Marked ({} : ProjectionStore δ) :=
  ⟨.empty, rfl, rfl, by simp, by simp⟩

/-- An item without an exact provenance, which names a request if it is a user's. -/
structure Plain (item : Item δ) : Prop where
  inexact : item.provenance.strength ≠ .exact
  request : item.role = .user → ∃ requestId, requestId ≠ "" ∧
    item.correlation.bind Correlation.requestId = some requestId

theorem provenancePending_mono (s : ProjectionStore δ) (item : Item δ)
    (h : s.provenancePending ≠ []) : (s.trackProvenance item).provenancePending ≠ [] := by
  unfold trackProvenance
  split
  · exact h
  · split
    · exact Keyed.set_ne_nil _ _ _
    · exact h

theorem trackProvenance_plain {s : ProjectionStore δ} {item : Item δ} (h : Plain item)
    (huser : item.role = .user) : (s.trackProvenance item).provenancePending ≠ [] := by
  obtain ⟨requestId, hne, hrequest⟩ := h.request huser
  unfold trackProvenance
  rw [hrequest]
  dsimp only
  rw [if_pos ⟨huser, hne, h.inexact⟩]
  exact Keyed.set_ne_nil _ _ _

/-- What a plain item does to a marked store. -/
theorem Marked.applyItem [BEq δ] {s : ProjectionStore δ} (h : Marked s) {candidate : Item δ}
    (hplain : Plain candidate) :
    Marked (s.applyItem candidate).1 ∧
      (∀ itemId, itemId ∈ (s.applyItem candidate).1.items.map Prod.fst ↔
        itemId ∈ s.items.map Prod.fst ∨ itemId = candidate.itemId) ∧
      (s.provenancePending ≠ [] ∨ candidate.role = .user →
        (s.applyItem candidate).1.provenancePending ≠ []) := by
  -- either nothing changes, or one item is put with the role of the candidate
  rcases applyItem_cases h.noDeltas candidate with
    ⟨existing, hget, heq, hsame⟩ | ⟨item, hid, hrole, hcorrelation, hprovenance, heq⟩
  · have hrole := role_of_normalized_beq hsame
    have hmem := Keyed.mem_of_lookup (show s.items.lookup candidate.itemId = some existing from hget)
    rw [heq]
    refine ⟨h, fun itemId => ⟨.inl, fun hor => hor.elim id ?_⟩, fun hor => hor.elim id ?_⟩
    · rintro rfl
      exact List.mem_map.mpr ⟨_, hmem, rfl⟩
    · intro huser
      have hexisting : existing.role = .user := by
        rw [← hrole, preserved_role, merged_role]
        exact huser
      exact h.asked ⟨_, hmem, hexisting⟩
  · have hitem : Plain item := by
      refine ⟨?_, fun huser => ?_⟩
      · rcases hprovenance with hp | ⟨existing, hget, hp⟩
        · rw [hp]
          exact hplain.inexact
        · rw [hp]
          exact h.inexact _ (Keyed.mem_of_lookup hget)
      · rw [hcorrelation]
        exact hplain.request (by rw [← hrole, huser])
    have hsound := h.sound.applyItem candidate
    have hasked : s.provenancePending ≠ [] ∨ candidate.role = .user →
        ((s.put item).trackProvenance item).provenancePending ≠ [] := by
      rintro (hpending | huser)
      · exact provenancePending_mono _ item hpending
      · exact trackProvenance_plain hitem (by rw [hrole, huser])
    rw [heq] at hsound ⊢
    refine ⟨⟨hsound, ?_, ?_, ?_, ?_⟩, fun itemId => ?_, hasked⟩
    · rw [trackProvenance_pendingDeltas, put_pendingDeltas, h.noDeltas]
    · rw [trackProvenance_provenanceDone]
      exact h.unasked
    · intro e he
      rw [trackProvenance_items] at he
      rcases Keyed.mem_set he with ⟨-, hv⟩ | he
      · rw [hv]
        exact hitem.inexact
      · exact h.inexact e he
    · rintro ⟨e, he, huser⟩
      rw [trackProvenance_items] at he
      rcases Keyed.mem_set he with ⟨-, hv⟩ | he
      · exact hasked (.inr (by rw [← hrole, ← hv, huser]))
      · exact hasked (.inl (h.asked ⟨e, he, huser⟩))
    · rw [trackProvenance_items, ← hid]
      show itemId ∈ (Keyed.set s.items item.itemId item).map Prod.fst ↔ _
      rw [Keyed.keys_set]
      split
      · rename_i hmem
        exact ⟨.inl, fun hor => hor.elim id fun heq => heq ▸ hmem⟩
      · rw [List.mem_append, List.mem_singleton]

end ProjectionStore

variable {ρ ε ν δ : Type}

/-! ## A mapper that shows everything -/

/-- A user's input, with a request id. -/
def loudItem (itemId : String) : Item δ where
  itemId := itemId
  lane := .unknownInput
  source := .harnessLive
  provenance := { strength := .nativeOnly, origin := "" }
  role := .user
  kind := .message
  phase := .completed
  blocks := []
  correlation := some { requestId := some "request" }

/-- Every input is shown as an item of its own. -/
def loud (session : Session) : Mapper ρ ε ν δ where
  mapNativeFrame _ _ := some [.item (loudItem "native")]
  mapEvidenceFrame frame _ _ := some [.item (loudItem (vendorItemId session frame))]
  mapTranscriptEcho _ _ := some [.item (loudItem "echo")]

theorem plain_loudItem (itemId : String) : ProjectionStore.Plain (loudItem itemId : Item δ) :=
  ⟨by simp [loudItem], fun _ => ⟨"request", by decide, rfl⟩⟩

theorem plain_unknownVendor {mapped : MappedUnknownVendor} (h : mapped.role = .system)
    (ref : String) : ProjectionStore.Plain (unknownVendorItem mapped ref : Item δ) :=
  ⟨by simp [unknownVendorItem], fun huser => by
    rw [show (unknownVendorItem mapped ref : Item δ).role = mapped.role from rfl, h] at huser
    cases huser⟩

/-- A frame's id gives its position back. -/
theorem vendorItemId_inj {session : Session} {f g : EvidenceFrame ρ}
    (h : vendorItemId session f = vendorItemId session g) : f.sequence = g.sequence := by
  have hd : Nat.toDigits 10 f.sequence = Nat.toDigits 10 g.sequence :=
    String.ofList_inj.mp ((String.append_right_inj _).mp h)
  simpa using congrArg (fun ds => Nat.ofDigitChars 10 ds 0) hd

theorem vendorItemId_ne (session : Session) (frame : EvidenceFrame ρ) {itemId : String}
    (h : itemId.toList.head? ≠ some 'v') : vendorItemId session frame ≠ itemId := by
  rintro rfl
  apply h
  simp [vendorItemId, String.toList_append]

/-- Ids that a spine has at least, and at most; `asked` says that an input waits
for its provenance. -/
structure Between (asked : Prop) (L K : String → Prop) (s : Spine δ) : Prop where
  marked : s.store.Marked
  lower : ∀ itemId, L itemId → itemId ∈ s.store.items.map Prod.fst
  upper : ∀ itemId ∈ s.store.items.map Prod.fst, K itemId
  pending : asked → s.store.provenancePending ≠ []

theorem Between.mono {asked asked' : Prop} {L L' K : String → Prop} {s : Spine δ}
    (h : Between asked L K s) (hasked : asked' → asked) (hL : ∀ itemId, L' itemId → L itemId) :
    Between asked' L' K s :=
  ⟨h.marked, fun itemId hid => h.lower itemId (hL itemId hid), h.upper,
    fun ha => h.pending (hasked ha)⟩

section loud
variable [BEq δ] {asked : Prop} {L K : String → Prop} {s : Spine δ}

/-- One output that is a plain item. -/
theorem Between.applyOutputs (h : Between asked L K s) {ref : String} {output : MapperOutput δ}
    (item : Item δ) (hitem : ∀ s : Spine δ, s.applyOutput ref output =
      { s with store := (s.store.applyItem item).1 })
    (hplain : ProjectionStore.Plain item) (hK : K item.itemId) :
    Between (asked ∨ item.role = .user) (fun itemId => L itemId ∨ itemId = item.itemId) K
      (s.applyOutputs [output] ref) := by
  obtain ⟨hmarked, hkeys, hpending⟩ := h.marked.applyItem hplain
  show Between _ _ K (s.applyOutput ref output)
  rw [hitem]
  refine ⟨hmarked, fun itemId hid => ?_, fun itemId hid => ?_, fun ha => hpending ?_⟩
  · exact (hkeys itemId).mpr (hid.imp (h.lower itemId) id)
  · rcases (hkeys itemId).mp hid with hold | rfl
    · exact h.upper itemId hold
    · exact hK
  · exact ha.imp h.pending id

variable (session : Session)

/-- What a frame is mapped to: one plain item under the frame's id. -/
theorem loud_outputs (frame : EvidenceFrame ρ) (ref : String) (a : AgentAuthority) :
    ∃ (output : MapperOutput δ) (item : Item δ),
      (mapEvidenceFrame session (loud session : Mapper ρ ε ν δ) frame ref a).1 = [output] ∧
      (∀ s : Spine δ, s.applyOutput ref output =
        { s with store := (s.store.applyItem item).1 }) ∧
      ProjectionStore.Plain item ∧ item.itemId = vendorItemId session frame ∧
      (frame.evidenceTruncated = false → item.role = .user) := by
  unfold mapEvidenceFrame frameOutputs
  by_cases htruncated : frame.evidenceTruncated
  · rw [if_pos htruncated]
    have hno : frame.evidenceTruncated = false → ∀ P : Prop, P := by simp [htruncated]
    cases frameThread session frame with
    | none =>
      exact ⟨_, _, rfl, fun _ => rfl, plain_unknownVendor rfl ref, rfl, fun h => hno h _⟩
    | some threadId =>
      exact ⟨_, _, rfl, fun _ => rfl, plain_unknownVendor rfl ref, rfl, fun h => hno h _⟩
  · rw [if_neg htruncated]
    cases frameThread session frame with
    | none =>
      exact ⟨_, loudItem (vendorItemId session frame), rfl, fun _ => rfl, plain_loudItem _, rfl,
        fun _ => rfl⟩
    | some threadId =>
      refine ⟨_, { (loudItem (vendorItemId session frame) : Item δ) with
        agent := some (a.ref threadId) }, rfl, fun _ => rfl, ?_, rfl, fun _ => rfl⟩
      have hplain := plain_loudItem (δ := δ) (vendorItemId session frame)
      exact ⟨hplain.inexact, hplain.request⟩

theorem Between.applyFrame (h : Between asked L K s) (frame : EvidenceFrame ρ)
    (hK : K (vendorItemId session frame)) :
    Between (asked ∨ frame.evidenceTruncated = false)
      (fun itemId => L itemId ∨ itemId = vendorItemId session frame) K
      (Spine.applyFrame session (loud session : Mapper ρ ε ν δ) frame s) := by
  obtain ⟨output, item, hout, hitem, hplain, hid, hrole⟩ := loud_outputs (ε := ε) (ν := ν) (δ := δ) session
    frame (ProjectionEvidenceRefs.evidence session frame.sequence) s.agents
  unfold Spine.applyFrame
  dsimp only
  rw [hout]
  have hbase : Between asked L K { s with agents :=
      (mapEvidenceFrame session (loud session : Mapper ρ ε ν δ) frame
        (ProjectionEvidenceRefs.evidence session frame.sequence) s.agents).2 } :=
    ⟨h.marked, h.lower, h.upper, h.pending⟩
  rw [← hid] at hK ⊢
  exact (hbase.applyOutputs item hitem hplain hK).mono (fun ha => ha.imp id hrole) fun _ => id

theorem Between.applyEcho (h : Between asked L K s) (entry : TranscriptEntry ε) (hK : K "echo") :
    Between True (fun itemId => L itemId ∨ itemId = "echo") K
      (Spine.applyEcho session (loud session : Mapper ρ ε ν δ) entry s) :=
  (h.applyOutputs (loudItem "echo") (fun _ => rfl) (plain_loudItem _) hK).mono
    (fun _ => .inr rfl) fun _ => id

/-- A log that is replayed shows its frames and its echoes. -/
theorem Between.replay (h : Between asked L K s) {log : List (Applied ρ ε)}
    (hframes : ∀ frame ∈ framesApplied log, K (vendorItemId session frame))
    (hecho : echoesApplied log ≠ [] → K "echo") :
    Between (asked ∨ echoesApplied log ≠ [] ∨
        ∃ frame ∈ framesApplied log, frame.evidenceTruncated = false)
      (fun itemId => L itemId ∨ (echoesApplied log ≠ [] ∧ itemId = "echo") ∨
        ∃ frame ∈ framesApplied log, itemId = vendorItemId session frame) K
      ((Spine.sink session (loud session : Mapper ρ ε ν δ)).replay log s) := by
  induction log using List.reverseRecOn with
  | nil =>
    refine h.mono (fun ha => ?_) fun itemId hid => ?_
    · simpa [echoesApplied, framesApplied] using ha
    · simpa [echoesApplied, framesApplied] using hid
  | append_singleton log applied ih =>
    rw [replay_snoc]
    cases applied with
    | frame frame =>
      rw [framesApplied_frame] at hframes ⊢
      rw [echoesApplied_frame] at hecho ⊢
      have ih := ih (fun f hf => hframes f (by simp [hf])) hecho
      refine (ih.applyFrame session frame (hframes frame (by simp))).mono ?_ ?_
      · rintro (ha | ha | ⟨f, hf, htruncated⟩)
        · exact .inl (.inl ha)
        · exact .inl (.inr (.inl ha))
        · rcases List.mem_append.mp hf with hf | hf
          · exact .inl (.inr (.inr ⟨f, hf, htruncated⟩))
          · rw [List.mem_singleton.mp hf] at htruncated
            exact .inr htruncated
      · rintro itemId (hid | hid | ⟨f, hf, hid⟩)
        · exact .inl (.inl hid)
        · exact .inl (.inr (.inl hid))
        · rcases List.mem_append.mp hf with hf | hf
          · exact .inl (.inr (.inr ⟨f, hf, hid⟩))
          · rw [List.mem_singleton.mp hf] at hid
            exact .inr hid
    | echo entry =>
      rw [framesApplied_echo] at hframes ⊢
      rw [echoesApplied_echo] at hecho ⊢
      have ih := ih hframes fun _ => hecho (by simp)
      refine (ih.applyEcho (ρ := ρ) (ν := ν) session entry (hecho (by simp))).mono (fun _ => trivial) ?_
      rintro itemId (hid | ⟨-, hid⟩ | hid)
      · exact .inl (.inl hid)
      · exact .inr hid
      · exact .inl (.inr (.inr hid))
    | advance n =>
      rw [framesApplied_advance] at hframes ⊢
      rw [echoesApplied_advance] at hecho ⊢
      exact ih hframes hecho

/-! ## Native pages -/

theorem Between.applyNative (h : Between asked L K s) {frame : NativeEvidenceFrame ν}
    (hframe : frame.evidenceTruncated = false) (hK : K "native") (ref : String) :
    Between True L K (s.applyOutputs
      (mapNativeFrame session (loud session : Mapper ρ ε ν δ) frame ref s.agents) ref) := by
  have hout : mapNativeFrame session (loud session : Mapper ρ ε ν δ) frame ref s.agents =
      [.item (loudItem "native")] := by
    unfold mapNativeFrame
    rw [hframe]
    rfl
  rw [hout]
  exact (h.applyOutputs (loudItem "native") (fun _ => rfl) (plain_loudItem _) hK).mono
    (fun _ => .inr rfl) fun _ => .inl

end loud

namespace Projector

section projector
variable [BEq δ] (session : Session) {bridge : Bridge ρ ε ν} {fault : Option Fault}
  {asked : Prop} {L K : String → Prop}

/-- The native frames show, all under one id. -/
def Sounding (bridge : Bridge ρ ε ν) : Prop :=
  ∀ page ∈ bridge.nativePages, ∀ frame ∈ page, frame.evidenceTruncated = false

theorem mem_nativePage {cursor : Option Nat} {frame : NativeEvidenceFrame ν}
    (hbridge : Sounding bridge) (h : frame ∈ (bridge.nativePage cursor).frames) :
    frame.evidenceTruncated = false := by
  unfold Bridge.nativePage at h
  dsimp only at h
  cases hpage : bridge.nativePages[cursor.getD 0]? with
  | none => simp [hpage] at h
  | some page =>
    rw [hpage] at h
    exact hbridge page (List.mem_of_getElem? hpage) frame h

/-- Nothing is suppressed before live turns are known. -/
theorem loud_walkFrame {acc : Projector ρ δ × List String} {frame : NativeEvidenceFrame ν}
    (hturns : acc.1.native.liveTurnIds = []) (hrequests : acc.1.native.liveRequestIds = [])
    (hframe : frame.evidenceTruncated = false) :
    (walkFrame session (loud session : Mapper ρ ε ν δ) acc frame).1 =
      continueFrame session (loud session : Mapper ρ ε ν δ) acc.1 frame := by
  have hout : mapNativeFrame session (loud session : Mapper ρ ε ν δ) frame
      (ProjectionEvidenceRefs.native session frame.nativeId) acc.1.spine.agents =
      [.item (loudItem "native")] := by
    unfold mapNativeFrame
    rw [hframe]
    rfl
  unfold walkFrame continueFrame
  dsimp only
  rw [hout, hturns, hrequests]
  rfl

theorem loud_walkFrames {frames : List (NativeEvidenceFrame ν)} (acc : Projector ρ δ × List String)
    (hframes : ∀ frame ∈ frames, frame.evidenceTruncated = false)
    (hturns : acc.1.native.liveTurnIds = []) (hrequests : acc.1.native.liveRequestIds = [])
    (hK : K "native") (h : Between asked L K acc.1.spine) :
    Between (asked ∨ frames ≠ []) L K
      (frames.foldl (walkFrame session (loud session : Mapper ρ ε ν δ)) acc).1.spine := by
  induction frames generalizing acc asked with
  | nil => exact h.mono (fun ha => ha.elim id fun hne => absurd rfl hne) fun _ => id
  | cons frame frames ih =>
    have hframe := hframes frame (by simp)
    have hone : Between True L K
        (walkFrame session (loud session : Mapper ρ ε ν δ) acc frame).1.spine := by
      rw [loud_walkFrame session hturns hrequests hframe]
      exact h.applyNative (ρ := ρ) (ε := ε) session hframe hK _
    have hrest := ih (walkFrame session (loud session : Mapper ρ ε ν δ) acc frame)
      (fun f hf => hframes f (by simp [hf])) hturns hrequests hone
    exact hrest.mono (fun _ => .inl trivial) fun _ => id

/-- A walk that no read stops shows its pages. -/
theorem loud_walkPages (hfault : ∀ n, fault.map Fault.read ≠ some (.nativePage n))
    (hbridge : Sounding bridge) (hK : K "native") (fuel number : Nat) (turns : List String)
    {s : Projector ρ δ} (hturns : s.native.liveTurnIds = [])
    (hrequests : s.native.liveRequestIds = []) (h : Between asked L K s.spine) :
    ∃ t, walkPages session (loud session : Mapper ρ ε ν δ) bridge fault fuel number turns s =
        .ok t ∧
      Between (asked ∨ 0 < fuel ∧ (bridge.nativePage s.native.nativeCursor).frames ≠ []) L K
        t.spine := by
  induction fuel generalizing number turns s asked with
  | zero => exact ⟨s, rfl, h.mono (fun ha => ha.elim id fun hno => absurd hno.1 (by omega)) fun _ => id⟩
  | succ fuel ih =>
    have hpage : Between _ L K ((bridge.nativePage s.native.nativeCursor).frames.foldl
        (walkFrame session (loud session : Mapper ρ ε ν δ)) (s, turns)).1.spine :=
      loud_walkFrames session (s, turns) (fun frame hframe => mem_nativePage hbridge hframe)
        hturns hrequests hK h
    obtain ⟨-, hnative⟩ := untouched_walkFrames session (loud session : Mapper ρ ε ν δ)
      (bridge.nativePage s.native.nativeCursor).frames (s, turns)
    have hcontrol : fault ≠ some ⟨.nativePage number, true⟩ := by
      intro heq
      exact hfault number (by rw [heq]; rfl)
    unfold walkPages
    rw [if_neg hcontrol, reads_eq_ok.mpr (hfault number)]
    dsimp only [bind, Except.bind]
    by_cases hlast : ((bridge.nativePage s.native.nativeCursor).nextCursor.isNone ∧
        !(bridge.nativePage s.native.nativeCursor).truncated) ∨
        (bridge.nativePage s.native.nativeCursor).frames.isEmpty
    · rw [if_pos hlast]
      exact ⟨_, rfl, hpage.mono (fun ha => ha.imp id And.right) fun _ => id⟩
    · rw [if_neg hlast]
      have hturns' := hturns
      have hrequests' := hrequests
      rw [← hnative] at hturns' hrequests'
      refine (ih _ _ ?_ ?_ ?_).imp fun t ht =>
        ⟨ht.1, ht.2.mono (fun ha => .inl (ha.imp id And.right)) fun _ => id⟩
      · exact hturns'
      · exact hrequests'
      · exact hpage

/-! ## Evidence -/

theorem mem_fill {w : EvidenceWindow ρ} {count used : Nat} {frames : List (EvidenceFrame ρ)}
    {frame : EvidenceFrame ρ} (h : frame ∈ (w.fill count used frames).1) : frame ∈ frames := by
  induction frames generalizing count used with
  | nil => cases h
  | cons f frames ih =>
    unfold EvidenceWindow.fill at h
    split at h
    · cases h
    · rcases List.mem_cons.mp h with rfl | h
      · simp
      · exact List.mem_cons_of_mem _ (ih h)

theorem foldl_consume {mapper : Mapper ρ ε ν δ} {I : Projector ρ δ → Prop} {mark : Nat}
    (hconsume : ∀ {s} frame, I s → frame ∈ bridge.retained.window.frames →
      mark < frame.sequence → I (consume session mapper s frame))
    (frames : List (EvidenceFrame ρ)) {s : Projector ρ δ} (h : I s)
    (hframes : ∀ frame ∈ frames, frame ∈ bridge.retained.window.frames ∧ mark < frame.sequence) :
    I (frames.foldl (consume session mapper) s) := by
  induction frames generalizing s with
  | nil => exact h
  | cons frame frames ih =>
    obtain ⟨hmem, hahead⟩ := hframes frame (by simp)
    exact ih (hconsume frame h hmem hahead) fun f hf => hframes f (by simp [hf])

/-- What consuming the frames behind a mark keeps, a poll keeps, however it ends. -/
theorem pollEvidence_ends {mapper : Mapper ρ ε ν δ} {I : Projector ρ δ → Prop} {mark : Nat}
    (hnote : ∀ {s} evicted, I s → I (s.noteEviction evicted))
    (hconsume : ∀ {s} frame, I s → frame ∈ bridge.retained.window.frames →
      mark < frame.sequence → I (consume session mapper s frame))
    (hmark : ∀ {s}, I s → mark ≤ s.native.evidenceAfter) {fuel number : Nat} {s : Projector ρ δ}
    (h : I s) :
    (∀ t, pollEvidence session mapper bridge fault fuel number s = .ok t → I t) ∧
      ∀ t, pollEvidence session mapper bridge fault fuel number s = .error t → I t := by
  induction fuel generalizing number s with
  | zero => exact ⟨fun t ht => (by cases ht; exact h), fun t ht => (by cases ht)⟩
  | succ fuel ih =>
    have hnext : I ((bridge.retained.window.page s.native.evidenceAfter).frames.foldl
        (consume session mapper) (s.noteEviction
          (bridge.retained.window.page s.native.evidenceAfter).evictedBeforeSequence)) := by
      apply foldl_consume session hconsume _ (hnote _ h)
      intro frame hframe
      obtain ⟨hmem, hahead⟩ := List.mem_filter.mp (mem_fill hframe)
      exact ⟨hmem, Nat.lt_of_le_of_lt (hmark h) (of_decide_eq_true hahead)⟩
    unfold pollEvidence
    constructor
    · intro t ht
      obtain ⟨-, -, ht⟩ := bind_eq_ok.mp ht
      dsimp only at ht
      split at ht
      · cases ht
        exact hnext
      · exact (ih hnext).1 t ht
    · intro t ht
      rcases bind_eq_error.mp ht with ht | ⟨-, -, ht⟩
      · obtain ⟨-, rfl⟩ := reads_eq_error.mp ht
        exact h
      · dsimp only at ht
        split at ht
        · cases ht
        · exact (ih hnext).2 t ht

/-- The first read delivers the first frame. -/
theorem pollEvidence_first {mapper : Mapper ρ ε ν δ} {I : Projector ρ δ → Prop}
    {frame : EvidenceFrame ρ} {frames : List (EvidenceFrame ρ)}
    (hframes : bridge.retained.window.frames = frame :: frames)
    (hnote : ∀ {s} evicted, I s → I (s.noteEviction evicted))
    (hconsume : ∀ {s} f, I s → f ∈ bridge.retained.window.frames →
      frame.sequence < f.sequence → I (consume session mapper s f))
    (hmark : ∀ {s}, I s → frame.sequence ≤ s.native.evidenceAfter) {fuel number : Nat}
    {s : Projector ρ δ} (hfresh : s.native.evidenceAfter = 0)
    (hread : fault.map Fault.read ≠ some (.evidencePage number))
    (hfirst : I (consume session mapper
      (s.noteEviction bridge.retained.window.evictedBeforeSequence) frame)) :
    (∀ t, pollEvidence session mapper bridge fault (fuel + 1) number s = .ok t → I t) ∧
      ∀ t, pollEvidence session mapper bridge fault (fuel + 1) number s = .error t → I t := by
  have hunread : bridge.retained.window.unread 0 = frame :: frames := by
    unfold EvidenceWindow.unread
    rw [← hframes, List.filter_eq_self]
    exact fun f hf => decide_eq_true (bridge.retained.window.positive f hf)
  obtain ⟨more, hmore, hsub⟩ : ∃ more,
      (bridge.retained.window.page 0).frames = frame :: more ∧ ∀ f ∈ more, f ∈ frames := by
    unfold EvidenceWindow.page
    rw [hunread]
    dsimp only
    unfold EvidenceWindow.fill
    rw [if_neg (by simp [evidencePageLimit])]
    exact ⟨_, rfl, fun f hf => mem_fill hf⟩
  have hincreasing := bridge.retained.window.increasing
  rw [hframes, List.pairwise_cons] at hincreasing
  have hpage := foldl_consume session hconsume more hfirst fun f hf =>
    ⟨by rw [hframes]; exact List.mem_cons_of_mem _ (hsub f hf), hincreasing.1 f (hsub f hf)⟩
  unfold pollEvidence
  rw [reads_eq_ok.mpr hread, hfresh]
  dsimp only [bind, Except.bind]
  rw [hmore]
  constructor
  · intro t ht
    split at ht
    · cases ht
      exact hpage
    · exact (pollEvidence_ends session hnote hconsume hmark hpage).1 t ht
  · intro t ht
    split at ht
    · cases ht
    · exact (pollEvidence_ends session hnote hconsume hmark hpage).2 t ht

/-! ## Behind the first frame -/

/-- The ids that can still show once the mark is passed. -/
def Above (bridge : Bridge ρ ε ν) (mark : Nat) (itemId : String) : Prop :=
  itemId = "native" ∨ itemId = "echo" ∨ ∃ frame ∈ bridge.retained.window.frames,
    mark < frame.sequence ∧ itemId = vendorItemId session frame

theorem not_above (frame : EvidenceFrame ρ) :
    ¬Above session bridge frame.sequence (vendorItemId session frame) := by
  rintro (hid | hid | ⟨f, -, hahead, hid⟩)
  · exact vendorItemId_ne session frame (by decide) hid
  · exact vendorItemId_ne session frame (by decide) hid
  · have := vendorItemId_inj hid
    omega

/-- A projector that has passed the mark and shows nothing up to it. -/
structure Behind (bridge : Bridge ρ ε ν) (mark : Nat) (s : Projector ρ δ) : Prop where
  after : mark ≤ s.native.evidenceAfter
  spine : Between False (fun _ => False) (Above session bridge mark) s.spine
  queue : ∀ frame ∈ s.echo.pendingFrames, Above session bridge mark (vendorItemId session frame)
  idle : s.interactions = {}

/-- A projector that has the first frame. -/
structure Seen (frame : EvidenceFrame ρ) (s : Projector ρ δ) : Prop where
  after : frame.sequence ≤ s.native.evidenceAfter
  spine : Between False
    (fun itemId => session.harness.usesTranscriptEcho = false ∧
      itemId = vendorItemId session frame) (fun _ => True) s.spine
  queue : session.harness.usesTranscriptEcho → s.echo.pendingFrames.head? = some frame
  idle : s.interactions = {}

/-- A frame shows at once, or waits for its echo. -/
theorem consume_cases (s : Projector ρ δ) (frame : EvidenceFrame ρ) :
    (consume session (loud session : Mapper ρ ε ν δ) s frame).native.evidenceAfter =
        frame.sequence ∧
      (consume session (loud session : Mapper ρ ε ν δ) s frame).interactions = s.interactions ∧
      if session.harness.usesTranscriptEcho then
        (consume session (loud session : Mapper ρ ε ν δ) s frame).spine = s.spine ∧
        (consume session (loud session : Mapper ρ ε ν δ) s frame).echo.pendingFrames =
          s.echo.pendingFrames ++ [frame]
      else
        (consume session (loud session : Mapper ρ ε ν δ) s frame).spine =
          s.spine.applyFrame session (loud session : Mapper ρ ε ν δ) frame ∧
        (consume session (loud session : Mapper ρ ε ν δ) s frame).echo = s.echo := by
  unfold consume consumeFrame
  refine ⟨rfl, ?_⟩
  split
  · exact ⟨rfl, rfl, rfl⟩
  · exact ⟨rfl, rfl, rfl⟩

theorem Behind.consume {mark : Nat} {s : Projector ρ δ} (h : Behind session bridge mark s)
    {frame : EvidenceFrame ρ} (hmem : frame ∈ bridge.retained.window.frames)
    (hahead : mark < frame.sequence) :
    Behind session bridge mark (consume session (loud session : Mapper ρ ε ν δ) s frame) := by
  have habove : Above session bridge mark (vendorItemId session frame) :=
    .inr (.inr ⟨frame, hmem, hahead, rfl⟩)
  obtain ⟨hafter, hidle, hcases⟩ := consume_cases (ε := ε) (ν := ν) session s frame
  by_cases hecho : session.harness.usesTranscriptEcho
  · rw [if_pos hecho] at hcases
    refine ⟨by rw [hafter]; omega, by rw [hcases.1]; exact h.spine, ?_, hidle.trans h.idle⟩
    rw [hcases.2]
    intro f hf
    rcases List.mem_append.mp hf with hf | hf
    · exact h.queue f hf
    · rw [List.mem_singleton.mp hf]
      exact habove
  · rw [if_neg hecho] at hcases
    refine ⟨by rw [hafter]; omega, ?_, by rw [hcases.2]; exact h.queue, hidle.trans h.idle⟩
    rw [hcases.1]
    exact (h.spine.applyFrame session frame habove).mono nofun nofun

theorem Seen.consume {first : EvidenceFrame ρ} {s : Projector ρ δ} (h : Seen session first s)
    {frame : EvidenceFrame ρ} (hahead : first.sequence < frame.sequence) :
    Seen session first (consume session (loud session : Mapper ρ ε ν δ) s frame) := by
  obtain ⟨hafter, hidle, hcases⟩ := consume_cases (ε := ε) (ν := ν) session s frame
  by_cases hecho : session.harness.usesTranscriptEcho
  · rw [if_pos hecho] at hcases
    refine ⟨by rw [hafter]; omega, by rw [hcases.1]; exact h.spine, fun _ => ?_,
      hidle.trans h.idle⟩
    rw [hcases.2, List.head?_append, h.queue hecho]
    rfl
  · rw [if_neg hecho] at hcases
    refine ⟨by rw [hafter]; omega, ?_, fun hyes => absurd hyes hecho, hidle.trans h.idle⟩
    rw [hcases.1]
    exact (h.spine.applyFrame session frame trivial).mono nofun fun _ => .inl

/-- The first frame, consumed by a projector with an empty queue. -/
theorem Seen.first {s : Projector ρ δ}
    (h : Between asked (fun _ => False) (fun _ => True) s.spine)
    (hqueue : s.echo.pendingFrames = []) (hempty : s.interactions = {})
    (frame : EvidenceFrame ρ) :
    Seen session frame (Projector.consume session (loud session : Mapper ρ ε ν δ) s frame) := by
  obtain ⟨hafter, hidle, hcases⟩ := consume_cases (ε := ε) (ν := ν) session s frame
  by_cases hecho : session.harness.usesTranscriptEcho
  · rw [if_pos hecho] at hcases
    refine ⟨by rw [hafter], ?_, fun _ => ?_, hidle.trans hempty⟩
    · rw [hcases.1]
      exact h.mono nofun fun _ hid => by rw [hecho] at hid; exact nomatch hid.1
    · rw [hcases.2, hqueue]
      rfl
  · rw [if_neg hecho] at hcases
    refine ⟨by rw [hafter], ?_, fun hyes => absurd hyes hecho, hidle.trans hempty⟩
    rw [hcases.1]
    exact (h.applyFrame session frame trivial).mono nofun fun _ hid => .inr hid.2

end projector

end Projector

end AgentsRemember.Conversation
