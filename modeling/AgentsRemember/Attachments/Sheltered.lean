import Mathlib.Data.List.Nodup
import AgentsRemember.Attachments.Calls

/-!
# Attachments — Sheltered

What the sections of the calls do to the operations of a channel and to their bytes.
Every section but the one that takes a receipt leaves an operation that is over so,
and every one keeps the bytes of an operation that is not done: its assets have
identities of their own, so what is deleted for one operation is not another's.
-/

namespace AgentsRemember.Attachments

open Submission Control

/-- The operation is staged, or its submission is under way. -/
def isOpen : AttachmentPhase → Bool
  | .staging | .staged | .queued | .dispatching | .unknown => true
  | .accepted | .recoverable | .failed | .expired => false

namespace StagedOperation

/-- The identities of an operation's assets. -/
def assetIds (op : StagedOperation) : List String := op.assets.map (·.assetId)

/-- The asset went to another operation, under some reference to it. -/
def Exchanged (op : StagedOperation) (assetId : String) : Prop :=
  ∃ ref rebound, op.rebound.lookup ref = some rebound ∧ ref.target.assetId = some assetId

/-- What may become of an operation: no asset of it goes, and what is used up stays so
until the operation is over. -/
structure Becomes (op op' : StagedOperation) : Prop where
  requestId : op'.requestId = op.requestId
  assetIds : ∀ id ∈ op.assetIds, id ∈ op'.assetIds
  used : ∀ asset ∈ op.assets, asset.consumed = true → isOpen op'.phase = true →
    ∃ asset' ∈ op'.assets, asset'.assetId = asset.assetId ∧ asset'.consumed = true
  shut : isOpen op.phase = false → isOpen op'.phase = false
  rebound : ∀ ref v, op.rebound.lookup ref = some v → op'.rebound.lookup ref = some v

theorem Becomes.refl (op : StagedOperation) : op.Becomes op :=
  ⟨rfl, fun _ h => h, fun asset h hc _ => ⟨asset, h, rfl, hc⟩, id, fun _ _ h => h⟩

theorem Becomes.trans {op op' op'' : StagedOperation} (h : op.Becomes op')
    (h' : op'.Becomes op'') : op.Becomes op'' := by
  refine ⟨h'.requestId.trans h.requestId, fun id hid => h'.assetIds id (h.assetIds id hid), ?_,
    fun hs => h'.shut (h.shut hs), fun ref v hv => h'.rebound ref v (h.rebound ref v hv)⟩
  intro asset hasset hconsumed hopen
  have hopen' : isOpen op'.phase = true := by
    by_contra hshut
    rw [h'.shut (by simpa using hshut)] at hopen
    cases hopen
  obtain ⟨asset', hasset', hid', hconsumed'⟩ := h.used asset hasset hconsumed hopen'
  obtain ⟨asset'', hasset'', hid'', hconsumed''⟩ := h'.used asset' hasset' hconsumed' hopen
  exact ⟨asset'', hasset'', hid''.trans hid', hconsumed''⟩

/-- An operation of which only the phase and what goes with it changes. -/
theorem Becomes.of_assets {op op' : StagedOperation} (hid : op'.requestId = op.requestId)
    (hassets : op'.assets = op.assets) (hrebound : op'.rebound = op.rebound)
    (hshut : isOpen op.phase = false → isOpen op'.phase = false) : op.Becomes op' := by
  refine ⟨hid, ?_, ?_, hshut, fun ref v hv => hrebound ▸ hv⟩
  · intro id hmem
    rwa [StagedOperation.assetIds, hassets]
  · intro asset hasset hconsumed _
    exact ⟨asset, hassets ▸ hasset, rfl, hconsumed⟩

@[simp] theorem assetIds_consume (op : StagedOperation) (ids : List String) :
    (op.consume ids).assetIds = op.assetIds := by
  simp only [assetIds, consume, List.map_map]
  apply List.map_congr_left
  intro asset _
  simp only [Function.comp_apply]
  split <;> rfl

theorem Becomes.consume (op : StagedOperation) (ids : List String) :
    op.Becomes (op.consume ids) := by
  refine ⟨rfl, fun id hid => by rwa [assetIds_consume], ?_, fun hs => hs, fun _ _ h => h⟩
  intro asset hasset hconsumed _
  refine ⟨_, List.mem_map.mpr ⟨asset, hasset, rfl⟩, ?_⟩
  split
  · exact ⟨rfl, rfl⟩
  · exact ⟨rfl, hconsumed⟩

/-- The records of a submit are used up. -/
theorem consumed_of_consume {op : StagedOperation} {ids : List String} {id : String}
    (h : id ∈ op.assetIds) (hid : id ∈ ids) :
    ∃ asset ∈ (op.consume ids).assets, asset.assetId = id ∧ asset.consumed = true := by
  obtain ⟨asset, hasset, rfl⟩ := List.mem_map.mp h
  refine ⟨{ asset with consumed := true }, List.mem_map.mpr ⟨asset, hasset, ?_⟩, rfl, rfl⟩
  rw [if_pos hid]

theorem find_spec {op : StagedOperation} {id : String} {asset : AssetRecord}
    (h : op.find id = some asset) : asset ∈ op.assets ∧ asset.assetId = id := by
  refine ⟨List.mem_of_find?_eq_some h, ?_⟩
  simpa using List.find?_some h

end StagedOperation

/-! ## The channel -/

namespace AttachmentChannel

open StagedOperation (Becomes)

/-- An operation stays where it is. -/
def Grows (c c' : AttachmentChannel) : Prop :=
  ∀ (i : Nat) (op : StagedOperation), c.operations[i]? = some op →
    ∃ op', c'.operations[i]? = some op' ∧ op.Becomes op'

theorem Grows.refl (c : AttachmentChannel) : Grows c c := fun _ op h => ⟨op, h, .refl op⟩

theorem Grows.of_operations {c c' : AttachmentChannel} (h : c'.operations = c.operations) :
    Grows c c' := fun _ op hop => ⟨op, h ▸ hop, .refl op⟩

theorem Grows.trans {c c' c'' : AttachmentChannel} (h : Grows c c') (h' : Grows c' c'') :
    Grows c c'' := by
  intro i op hop
  obtain ⟨op', hop', hb⟩ := h i op hop
  obtain ⟨op'', hop'', hb'⟩ := h' i op' hop'
  exact ⟨op'', hop'', hb.trans hb'⟩

theorem getElem?_update {c : AttachmentChannel} {i j : Nat}
    {f : StagedOperation → StagedOperation} {op' : StagedOperation}
    (h : (c.update i f).operations[j]? = some op') :
    ∃ op, c.operations[j]? = some op ∧ op' = if i = j then f op else op := by
  simp only [update, List.getElem?_modify] at h
  obtain ⟨op, hop, rfl⟩ := Option.map_eq_some_iff.mp h
  exact ⟨op, hop, rfl⟩

theorem Grows.update {c : AttachmentChannel} {i : Nat} {f : StagedOperation → StagedOperation}
    (h : ∀ op, c.operations[i]? = some op → op.Becomes (f op)) : Grows c (c.update i f) := by
  intro j op hop
  simp only [AttachmentChannel.update, List.getElem?_modify, hop]
  by_cases hij : i = j
  · subst hij
    exact ⟨f op, by simp, h op hop⟩
  · exact ⟨op, by simp [hij], .refl op⟩

theorem Grows.add (c : AttachmentChannel) (op : StagedOperation) : Grows c (c.add op) := by
  intro i op' hop'
  refine ⟨op', ?_, .refl op'⟩
  have hlt := (List.getElem?_eq_some_iff.mp hop').1
  simp only [AttachmentChannel.add]
  rwa [List.getElem?_append_left hlt]

/-- The bytes of an asset are in the spool, or it went to another operation. -/
def Has (c : AttachmentChannel) (op : StagedOperation) (assetId : String) : Prop :=
  (c.spool.lookup (op.path assetId)).isSome = true ∨ op.Exchanged assetId

/-- Each retained operation is where the channel says, each asset has an identity of
its own, and an operation that is not done has its bytes. -/
structure Sound (c : AttachmentChannel) : Prop where
  placed : ∀ requestId i, c.attachments.lookup requestId = some i →
    ∃ op, c.operations[i]? = some op ∧ op.requestId = requestId
  nodup : ∀ (i : Nat) (op : StagedOperation), c.operations[i]? = some op → op.assetIds.Nodup
  distinct : ∀ (i j : Nat) (op op' : StagedOperation) id, c.operations[i]? = some op →
    c.operations[j]? = some op' → id ∈ op.assetIds → id ∈ op'.assetIds → i = j
  kept : ∀ (i : Nat) (op : StagedOperation), c.operations[i]? = some op → isDone op = false →
    ∀ id ∈ op.assetIds, c.Has op id

theorem Sound.retained {c : AttachmentChannel} (hs : c.Sound) {requestId : String} {i : Nat}
    {op : StagedOperation} (h : c.retained requestId = some (i, op)) :
    c.operations[i]? = some op ∧ op.requestId = requestId := by
  obtain ⟨k, hk, hop⟩ := Option.bind_eq_some_iff.mp h
  obtain ⟨op', hop', heq⟩ := Option.map_eq_some_iff.mp hop
  cases heq
  obtain ⟨op'', hop'', hid⟩ := hs.placed _ _ hk
  cases hop'.symm.trans hop''
  exact ⟨hop', hid⟩

/-- An asset is one record of one operation. -/
theorem Sound.unique {c : AttachmentChannel} (hs : c.Sound) {i j : Nat}
    {op op' : StagedOperation} (hop : c.operations[i]? = some op)
    (hop' : c.operations[j]? = some op') {asset asset' : AssetRecord} (ha : asset ∈ op.assets)
    (ha' : asset' ∈ op'.assets) (hid : asset.assetId = asset'.assetId) :
    op = op' ∧ asset = asset' := by
  have hij : i = j := hs.distinct i j op op' asset.assetId hop hop'
    (List.mem_map_of_mem ha) (hid ▸ List.mem_map_of_mem ha')
  subst hij
  cases hop.symm.trans hop'
  exact ⟨rfl, List.inj_on_of_nodup_map (hs.nodup i op hop) ha ha' hid⟩

/-! ### One section, from a sound channel -/

/-- A section keeps a sound channel so, and its operations. -/
structure Keeps (c c' : AttachmentChannel) : Prop where
  grows : Grows c c'
  sound : c.Sound → c'.Sound

theorem Keeps.refl (c : AttachmentChannel) : Keeps c c := ⟨.refl c, id⟩

theorem Keeps.trans {c c' c'' : AttachmentChannel} (h : Keeps c c') (h' : Keeps c' c'') :
    Keeps c c'' := ⟨h.grows.trans h'.grows, fun hs => h'.sound (h.sound hs)⟩

/-- A section that touches neither operations nor spool. -/
theorem Keeps.of_eq {c c' : AttachmentChannel} (hops : c'.operations = c.operations)
    (hspool : c'.spool = c.spool)
    (hatt : ∀ requestId i, c'.attachments.lookup requestId = some i →
      c.attachments.lookup requestId = some i) : Keeps c c' := by
  refine ⟨.of_operations hops, fun hs => ⟨?_, ?_, ?_, ?_⟩⟩
  · intro requestId i h
    rw [hops]
    exact hs.placed requestId i (hatt requestId i h)
  · rw [hops]
    exact hs.nodup
  · rw [hops]
    exact hs.distinct
  · intro i op hop hdone id hid
    rw [hops] at hop
    have hhas := hs.kept i op hop hdone id hid
    rwa [Has, ← hspool] at hhas

/-- An operation changes, with its assets still there and its bytes untouched. -/
theorem Keeps.update {c : AttachmentChannel} {i : Nat} {f : StagedOperation → StagedOperation}
    (h : ∀ op, c.operations[i]? = some op → op.Becomes (f op))
    (hids : ∀ op, c.operations[i]? = some op → (f op).assetIds = op.assetIds)
    (hdone : ∀ op, c.operations[i]? = some op → isDone (f op) = false → isDone op = false) :
    Keeps c (c.update i f) := by
  have hback : ∀ (j : Nat) op', (c.update i f).operations[j]? = some op' →
      ∃ op, c.operations[j]? = some op ∧ op.Becomes op' ∧ op'.assetIds = op.assetIds ∧
        (isDone op' = false → isDone op = false) := by
    intro j op' hop'
    obtain ⟨op, hop, rfl⟩ := getElem?_update hop'
    refine ⟨op, hop, ?_⟩
    by_cases hij : i = j
    · subst hij
      rw [if_pos rfl]
      exact ⟨h op hop, hids op hop, hdone op hop⟩
    · rw [if_neg hij]
      exact ⟨.refl op, rfl, id⟩
  refine ⟨.update h, fun hs => ⟨?_, ?_, ?_, ?_⟩⟩
  · intro requestId j hj
    obtain ⟨op, hop, hid⟩ := hs.placed requestId j hj
    obtain ⟨op', hop', hb⟩ := Grows.update h j op hop
    exact ⟨op', hop', hb.requestId.trans hid⟩
  · intro j op' hop'
    obtain ⟨op, hop, -, hsame, -⟩ := hback j op' hop'
    rw [hsame]
    exact hs.nodup j op hop
  · intro j k op' op'' id hop' hop'' hid hid'
    obtain ⟨op₁, hop₁, -, hsame₁, -⟩ := hback j op' hop'
    obtain ⟨op₂, hop₂, -, hsame₂, -⟩ := hback k op'' hop''
    exact hs.distinct j k op₁ op₂ id hop₁ hop₂ (hsame₁ ▸ hid) (hsame₂ ▸ hid')
  · intro j op' hop' hnot id hid
    obtain ⟨op, hop, hb, hsame, hd⟩ := hback j op' hop'
    rcases hs.kept j op hop (hd hnot) id (hsame ▸ hid) with hthere | ⟨ref, v, hv, hid⟩
    · left
      rwa [StagedOperation.path, hb.requestId]
    · exact .inr ⟨ref, v, hb.rebound ref v hv, hid⟩

/-- The bytes of an operation that is done are deleted. -/
theorem Keeps.deleteAssetBytes {c : AttachmentChannel} {i : Nat} {op : StagedOperation}
    (hids : ∀ op', c.operations[i]? = some op' → isDone op' = true ∧ op.assetIds ⊆ op'.assetIds) :
    (hi : (c.operations[i]?).isSome = true) → Keeps c (c.deleteAssetBytes op) := by
  intro hi
  obtain ⟨owner, howner⟩ := Option.isSome_iff_exists.mp hi
  obtain ⟨hdone, hsub⟩ := hids owner howner
  refine ⟨.of_operations rfl, fun hs => ⟨hs.placed, hs.nodup, hs.distinct, ?_⟩⟩
  intro j op' hop' hnot id hid
  rcases hs.kept j op' hop' hnot id hid with hthere | hexchanged
  · left
    have hother : op'.path id ∉ op.assets.map fun asset => op.path asset.assetId := by
      intro hmem
      obtain ⟨asset, hasset, heq⟩ := List.mem_map.mp hmem
      have hsame : asset.assetId = id := congrArg Prod.snd heq
      have hij := hs.distinct i j owner op' id howner hop'
        (hsub (hsame ▸ List.mem_map_of_mem hasset)) hid
      subst hij
      cases howner.symm.trans hop'
      rw [hdone] at hnot
      cases hnot
    show ((_ : List _).lookup _).isSome = true
    simp only [AttachmentChannel.deleteAssetBytes]
    rwa [Keyed.lookup_foldl_erase, if_neg hother]
  · exact .inr hexchanged

theorem Keeps.close {c : AttachmentChannel} {i : Nat} {op : StagedOperation}
    {f : StagedOperation → StagedOperation} (hop : c.operations[i]? = some op)
    (h : op.Becomes (f op)) (hids : (f op).assetIds = op.assetIds) (hdone : isDone (f op) = true) :
    Keeps c (c.close i op f) := by
  have hf : (c.update i f).operations[i]? = some (f op) := by
    simp [AttachmentChannel.update, hop]
  have hupdate : Keeps c (c.update i f) := by
    apply Keeps.update
    · intro op' hop'
      cases hop.symm.trans hop'
      exact h
    · intro op' hop'
      cases hop.symm.trans hop'
      exact hids
    · intro op' hop' hnot
      cases hop.symm.trans hop'
      rw [hdone] at hnot
      cases hnot
  refine hupdate.trans (Keeps.deleteAssetBytes (i := i) ?_ (by rw [hf]; rfl))
  intro op' hop'
  cases hf.symm.trans hop'
  exact ⟨hdone, hids ▸ List.Subset.refl _⟩

theorem fresh_iff {c : AttachmentChannel} {id : String} :
    c.fresh id = true ↔ ∀ op ∈ c.operations, id ∉ op.assetIds := by
  simp [fresh, StagedOperation.assetIds]

/-- An operation comes, with identities of its own for its assets and their bytes. -/
theorem Keeps.add {c : AttachmentChannel} {op : StagedOperation}
    {spool : List ((String × String) × List UInt8)}
    (hfresh : ∀ id ∈ op.assetIds, c.fresh id = true) (hnodup : op.assetIds.Nodup)
    (hspool : ∀ p, (c.spool.lookup p).isSome = true → (spool.lookup p).isSome = true)
    (hthere : ∀ id ∈ op.assetIds, (spool.lookup (op.path id)).isSome = true) :
    Keeps c ({ c with spool := spool }.add op) := by
  have hold : ∀ (i : Nat) op', ({ c with spool := spool }.add op).operations[i]? = some op' →
      c.operations[i]? = some op' ∨ (i = c.operations.length ∧ op' = op) := by
    intro i op' hop'
    simp only [AttachmentChannel.add, List.getElem?_append] at hop'
    split at hop'
    · exact .inl hop'
    · rename_i hlen
      obtain ⟨hi, heq⟩ := List.getElem?_eq_some_iff.mp hop'
      simp only [List.length_singleton] at hi
      simp only [List.getElem_singleton] at heq
      exact .inr ⟨by omega, heq.symm⟩
  have hnew : ∀ (i : Nat) op', c.operations[i]? = some op' → ∀ id ∈ op.assetIds,
      id ∉ op'.assetIds :=
    fun i op' hop' id hid => fresh_iff.mp (hfresh id hid) op' (List.mem_of_getElem? hop')
  refine ⟨.add _ op, fun hs => ⟨?_, ?_, ?_, ?_⟩⟩
  · intro requestId i hi
    simp only [AttachmentChannel.add, Keyed.lookup_set] at hi ⊢
    split at hi
    · rename_i hrequest
      cases hi
      exact ⟨op, by simp, hrequest⟩
    · obtain ⟨op', hop', hid⟩ := hs.placed requestId i hi
      exact ⟨op', by rwa [List.getElem?_append_left (List.getElem?_eq_some_iff.mp hop').1], hid⟩
  · intro i op' hop'
    rcases hold i op' hop' with hop' | ⟨-, rfl⟩
    · exact hs.nodup i op' hop'
    · exact hnodup
  · intro i j op₁ op₂ id hop₁ hop₂ hid₁ hid₂
    rcases hold i op₁ hop₁ with h₁ | ⟨rfl, rfl⟩
    · rcases hold j op₂ hop₂ with h₂ | ⟨rfl, rfl⟩
      · exact hs.distinct i j op₁ op₂ id h₁ h₂ hid₁ hid₂
      · exact absurd hid₁ (hnew i op₁ h₁ id hid₂)
    · rcases hold j op₂ hop₂ with h₂ | ⟨rfl, rfl⟩
      · exact absurd hid₂ (hnew j op₂ h₂ id hid₁)
      · rfl
  · intro i op' hop' hnot id hid
    rcases hold i op' hop' with hop' | ⟨-, rfl⟩
    · exact (hs.kept i op' hop' hnot id hid).imp (hspool _) fun h => h
    · exact .inl (hthere id hid)

section exchange
variable {c : AttachmentChannel} {i j : Nat} {source target : StagedOperation}
  {asset : AssetRecord} {ref : ControlRef} {requestId newId : String} {bytes : List UInt8}

theorem assetIds_exchangedFrom (op : StagedOperation) :
    (exchangedFrom ref asset.assetId requestId newId op).assetIds = op.assetIds :=
  StagedOperation.assetIds_consume op _

theorem assetIds_exchangedInto (op : StagedOperation) (record : AssetRecord) :
    (exchangedInto record op).assetIds = op.assetIds ++ [record.assetId] := by
  simp [exchangedInto, StagedOperation.assetIds]

theorem becomes_exchangedFrom {op : StagedOperation} (h : op.rebound.lookup ref = none) :
    op.Becomes (exchangedFrom ref asset.assetId requestId newId op) := by
  have hconsume := Becomes.consume op [asset.assetId]
  refine ⟨rfl, hconsume.assetIds, hconsume.used, fun hs => hs, ?_⟩
  intro ref' v hv
  show (Keyed.set op.rebound ref (requestId, newId)).lookup ref' = some v
  rw [Keyed.lookup_set, if_neg]
  · exact hv
  · rintro rfl
    rw [h] at hv
    cases hv

theorem becomes_exchangedInto (op : StagedOperation) (record : AssetRecord) :
    op.Becomes (exchangedInto record op) := by
  refine ⟨rfl, ?_, ?_, fun hs => hs, fun _ _ h => h⟩
  · intro id hid
    rw [assetIds_exchangedInto]
    exact List.mem_append_left _ hid
  · intro asset hasset hconsumed _
    exact ⟨asset, List.mem_append_left _ hasset, rfl, hconsumed⟩

/-- What an exchange makes of the operations. -/
theorem getElem?_exchange (k : Nat) :
    (c.exchange ref i j source asset requestId newId bytes).operations[k]? =
      (c.operations[k]?).map fun op =>
        let op := if i = k then exchangedFrom ref asset.assetId requestId newId op else op
        if j = k then exchangedInto (exchangedRecord asset newId) op else op := by
  simp only [AttachmentChannel.exchange, AttachmentChannel.update, List.getElem?_modify]
  cases c.operations[k]? <;> rfl

/-- An asset of a recoverable operation goes to another one: its bytes move with it. -/
theorem Keeps.exchange (hi : c.operations[i]? = some source)
    (hj : c.operations[j]? = some target) (hij : i ≠ j) (hasset : asset ∈ source.assets)
    (href : ref.target.assetId = some asset.assetId) (hnone : source.rebound.lookup ref = none)
    (hid : target.requestId = requestId) (hfresh : c.fresh newId = true) :
    Keeps c (c.exchange ref i j source asset requestId newId bytes) := by
  have hback : ∀ (k : Nat) op',
      (c.exchange ref i j source asset requestId newId bytes).operations[k]? = some op' →
      ∃ op, c.operations[k]? = some op ∧ op.Becomes op' ∧ isDone op' = isDone op ∧
        (op'.assetIds = op.assetIds ∨ (k = j ∧ op'.assetIds = op.assetIds ++ [newId])) := by
    intro k op' hop'
    rw [getElem?_exchange] at hop'
    obtain ⟨op, hop, rfl⟩ := Option.map_eq_some_iff.mp hop'
    refine ⟨op, hop, ?_⟩
    by_cases hik : i = k
    · subst hik
      cases hi.symm.trans hop
      rw [if_pos rfl, if_neg (Ne.symm hij)]
      exact ⟨becomes_exchangedFrom hnone, rfl, .inl (assetIds_exchangedFrom _)⟩
    · rw [if_neg hik]
      by_cases hjk : j = k
      · subst hjk
        rw [if_pos rfl]
        exact ⟨becomes_exchangedInto op _, rfl, .inr ⟨rfl, assetIds_exchangedInto op _⟩⟩
      · rw [if_neg hjk]
        exact ⟨.refl op, rfl, .inl rfl⟩
  have hgrows : Grows c (c.exchange ref i j source asset requestId newId bytes) := by
    intro k op hop
    obtain ⟨op', hop'⟩ : ∃ op', (c.exchange ref i j source asset requestId newId
        bytes).operations[k]? = some op' := by
      rw [getElem?_exchange, hop]
      exact ⟨_, rfl⟩
    obtain ⟨op₀, hop₀, hb, -⟩ := hback k op' hop'
    cases hop.symm.trans hop₀
    exact ⟨op', hop', hb⟩
  have hnew : ∀ (k : Nat) op, c.operations[k]? = some op → newId ∉ op.assetIds :=
    fun k op hop => fresh_iff.mp hfresh op (List.mem_of_getElem? hop)
  have hcases : ∀ (k : Nat) (op op' : StagedOperation) id, c.operations[k]? = some op →
      (op'.assetIds = op.assetIds ∨ (k = j ∧ op'.assetIds = op.assetIds ++ [newId])) →
      id ∈ op'.assetIds → id ∈ op.assetIds ∨ (k = j ∧ id = newId) := by
    intro k op op' id _ hids hmem
    rcases hids with hsame | ⟨rfl, hmore⟩
    · exact .inl (hsame ▸ hmem)
    · rw [hmore] at hmem
      exact (List.mem_append.mp hmem).imp (fun h => h) fun h => ⟨rfl, List.mem_singleton.mp h⟩
  refine ⟨hgrows, fun hs => ⟨?_, ?_, ?_, ?_⟩⟩
  · intro requestId' k hk
    obtain ⟨op, hop, hrequest⟩ := hs.placed requestId' k hk
    obtain ⟨op', hop', hb⟩ := hgrows k op hop
    exact ⟨op', hop', hb.requestId.trans hrequest⟩
  · intro k op' hop'
    obtain ⟨op, hop, -, -, hids⟩ := hback k op' hop'
    rcases hids with hsame | ⟨-, hmore⟩
    · rw [hsame]
      exact hs.nodup k op hop
    · rw [hmore, List.nodup_append]
      refine ⟨hs.nodup k op hop, List.nodup_singleton _, ?_⟩
      intro a ha b hb hab
      obtain rfl := List.mem_singleton.mp hb
      exact hnew k op hop (hab ▸ ha)
  · intro k l op₁ op₂ id hop₁ hop₂ hid₁ hid₂
    obtain ⟨op, hop, -, -, hids⟩ := hback k op₁ hop₁
    obtain ⟨op', hop', -, -, hids'⟩ := hback l op₂ hop₂
    rcases hcases k op op₁ id hop hids hid₁ with h₁ | ⟨rfl, rfl⟩
    · rcases hcases l op' op₂ id hop' hids' hid₂ with h₂ | ⟨rfl, rfl⟩
      · exact hs.distinct k l op op' id hop hop' h₁ h₂
      · exact absurd h₁ (hnew k op hop)
    · rcases hcases l op' op₂ _ hop' hids' hid₂ with h₂ | ⟨rfl, -⟩
      · exact absurd h₂ (hnew l op' hop')
      · rfl
  · intro k op' hop' hnot id hmem
    obtain ⟨op, hop, hb, hdone, hids⟩ := hback k op' hop'
    rcases hcases k op op' id hop hids hmem with hmem | ⟨rfl, rfl⟩
    · by_cases hmoved : id = asset.assetId
      · subst hmoved
        -- the asset that moves is the source's own
        have hki : k = i := hs.distinct k i op source _ hop hi hmem (List.mem_map_of_mem hasset)
        subst hki
        right
        refine ⟨ref, (requestId, newId), ?_, href⟩
        rw [getElem?_exchange, hop] at hop'
        cases hop'
        simp only [if_true, if_neg (Ne.symm hij)]
        simp [exchangedFrom, Keyed.lookup_set]
      · rcases hs.kept k op hop (hdone ▸ hnot) id hmem with hthere | ⟨ref', v, hv, hv'⟩
        · left
          have hpath : op'.path id = op.path id := by
            rw [StagedOperation.path, hb.requestId, StagedOperation.path]
          have hne : op.path id ≠ source.path asset.assetId :=
            fun h => hmoved (congrArg Prod.snd h)
          rw [hpath]
          simp only [AttachmentChannel.exchange, AttachmentChannel.update, Keyed.lookup_set,
            Keyed.lookup_erase, if_neg hne]
          split
          · rfl
          · exact hthere
        · exact .inr ⟨ref', v, hb.rebound ref' v hv, hv'⟩
    · left
      cases hj.symm.trans hop
      have hpath : op'.path id = (requestId, id) := by
        rw [StagedOperation.path, hb.requestId, hid]
      rw [hpath]
      simp [AttachmentChannel.exchange, AttachmentChannel.update, Keyed.lookup_set]

end exchange

/-! ### Each section -/

theorem becomes_enter (op : StagedOperation) {phase : AttachmentPhase}
    {outcome : AttachmentOutcome} (h : isOpen op.phase = false → isOpen phase = false) :
    op.Becomes (op.enter phase outcome) := .of_assets rfl rfl rfl h

theorem becomes_expired (op : StagedOperation) : op.Becomes (expired op) :=
  .of_assets rfl rfl rfl fun _ => rfl

theorem sweepOne_keeps (now : Nat) (c : AttachmentChannel) (i : Nat) :
    Keeps c (sweepOne now c i) := by
  unfold sweepOne
  split
  · exact .refl c
  · rename_i op hop
    split
    · exact .close hop (becomes_expired op) rfl rfl
    · exact .refl c

theorem sweepExpired_keeps (c : AttachmentChannel) (now : Nat) : Keeps c (c.sweepExpired now) := by
  unfold sweepExpired
  generalize c.attachments.map Prod.snd = places
  induction places generalizing c with
  | nil => exact .refl c
  | cons i places ih => exact (sweepOne_keeps now c i).trans (ih _)

theorem fresh_congr {c c' : AttachmentChannel}
    (h : c'.operations.map (·.assetIds) = c.operations.map (·.assetIds)) {id : String}
    (hfresh : c.fresh id = true) : c'.fresh id = true := by
  rw [fresh_iff] at hfresh ⊢
  intro op hop hmem
  have hids : op.assetIds ∈ c.operations.map (·.assetIds) := h ▸ List.mem_map_of_mem hop
  obtain ⟨op', hop', heq⟩ := List.mem_map.mp hids
  exact hfresh op' hop' (heq ▸ hmem)

theorem makeRoom_spec {c c' : AttachmentChannel} {incoming : String}
    (h : c.makeRoom incoming = .ok c') :
    Keeps c c' ∧ c'.operations = c.operations ∧
      ∀ requestId i, c'.attachments.lookup requestId = some i →
        c.attachments.lookup requestId = some i := by
  unfold makeRoom at h
  split at h
  · unfold evictAttachmentOperation at h
    split at h
    · cases h
    · rename_i victim i hfind
      split at h
      · cases h
      · rename_i op hop
        cases h
        have hdone : isDone op = true := by
          have hfound := List.find?_some hfind
          simp only [hop, Option.any_some, Bool.and_eq_true] at hfound
          exact hfound.2
        have hatt : ∀ requestId i, (Keyed.erase c.attachments victim).lookup requestId = some i →
            c.attachments.lookup requestId = some i := by
          intro requestId i hlookup
          rw [Keyed.lookup_erase] at hlookup
          split at hlookup
          · cases hlookup
          · exact hlookup
        have herase : Keeps c { c with attachments := Keyed.erase c.attachments victim } :=
          .of_eq rfl rfl hatt
        refine ⟨herase.trans (Keeps.deleteAssetBytes (i := i) ?_ ?_), rfl, hatt⟩
        · intro op' hop'
          cases hop.symm.trans hop'
          exact ⟨hdone, List.Subset.refl _⟩
        · show (c.operations[i]?).isSome = true
          rw [hop]
          rfl
  · cases h
    exact ⟨.refl c, rfl, fun _ _ h => h⟩

section
variable {authority : AttachmentAuthority}

theorem stageOne_assetId {kindCapabilities : AttachmentKind → Option AttachmentCapability}
    {upload : StagedUpload} {assetId : String} {asset : AssetRecord}
    (h : stageOne authority kindCapabilities upload assetId = .ok asset) :
    asset.assetId = assetId := by
  unfold stageOne at h
  split at h
  · cases h
  · split at h
    · cases h
    · cases hv : validateUpload upload _ with
      | error message =>
        rw [hv] at h
        cases h
      | ok _ =>
        rw [hv] at h
        cases h
        rfl

/-- The uploads are spooled under the identities drawn for them, beside what was there. -/
theorem stageUploads_spec {kindCapabilities : AttachmentKind → Option AttachmentCapability}
    {requestId : String} {suffix : Nat → String} (uploads : List StagedUpload) (position : Nat)
    (spool : List ((String × String) × List UInt8)) :
    let result := stageUploads authority kindCapabilities requestId suffix position uploads spool
    (∀ p, (spool.lookup p).isSome = true → (result.1.lookup p).isSome = true) ∧
    ∀ assets, result.2 = .ok assets →
      assets.map (·.assetId) = (List.range' position uploads.length).map
        (fun position => assetIdOf position (suffix position)) ∧
      ∀ asset ∈ assets, (result.1.lookup (requestId, asset.assetId)).isSome = true := by
  induction uploads generalizing position spool with
  | nil =>
    refine ⟨fun _ h => h, ?_⟩
    intro assets h
    cases h
    exact ⟨rfl, fun _ h => by cases h⟩
  | cons upload uploads ih =>
    simp only [stageUploads]
    split
    · refine ⟨fun _ h => h, ?_⟩
      intro assets h
      cases h
    · rename_i asset hasset
      have hid := stageOne_assetId hasset
      obtain ⟨hgrow, hrest⟩ := ih (position + 1)
        (Keyed.set spool (requestId, asset.assetId) upload.data)
      have hset : ∀ p, (spool.lookup p).isSome = true →
          ((Keyed.set spool (requestId, asset.assetId) upload.data).lookup p).isSome = true := by
        intro p hp
        rw [Keyed.lookup_set]
        split
        · rfl
        · exact hp
      refine ⟨fun p hp => hgrow p (hset p hp), ?_⟩
      intro assets hassets
      cases hstaged : (stageUploads authority kindCapabilities requestId suffix (position + 1)
          uploads (Keyed.set spool (requestId, asset.assetId) upload.data)).2 with
      | error message =>
        rw [hstaged] at hassets
        cases hassets
      | ok rest =>
        rw [hstaged] at hassets
        cases hassets
        obtain ⟨hids, hthere⟩ := hrest rest hstaged
        refine ⟨?_, ?_⟩
        · simp only [List.map_cons, hid, hids, List.length_cons, List.range'_succ]
        · intro other hother
          rcases List.mem_cons.mp hother with rfl | hother
          · exact hgrow _ (by simp [Keyed.lookup_set])
          · exact hthere other hother

theorem stage_keeps {c : AttachmentChannel} {r : StageRequest} (hnodup : r.assetIds.Nodup)
    (hfresh : ∀ id ∈ r.assetIds, c.fresh id = true) : Keeps c (stage authority c r).1 := by
  unfold stage
  simp only
  split
  · split <;> exact .refl c
  · split
    · exact .refl c
    · rename_i roomy hroom
      obtain ⟨hkeeps, hops, -⟩ := makeRoom_spec hroom
      obtain ⟨hspool, hassets⟩ := @stageUploads_spec authority
        r.kindCapabilities r.requestId r.suffix r.uploads 1 roomy.spool
      split
      · rename_i spool message hstaged
        rw [hstaged] at hspool
        refine hkeeps.trans ⟨.of_operations rfl, fun hs =>
          ⟨hs.placed, hs.nodup, hs.distinct, ?_⟩⟩
        intro i op hop hnot id hid
        exact (hs.kept i op hop hnot id hid).imp (hspool _) fun h => h
      · rename_i spool assets hstaged
        rw [hstaged] at hspool hassets
        obtain ⟨hids, hthere⟩ := hassets assets rfl
        have hroomy : ∀ id ∈ r.assetIds, roomy.fresh id = true :=
          fun id hid => fresh_congr (by rw [hops]) (hfresh id hid)
        have hsame : assets.map (·.assetId) = r.assetIds := hids
        refine hkeeps.trans (Keeps.add ?_ ?_ hspool ?_)
        · intro id hid
          exact hroomy id (hsame ▸ hid)
        · show (assets.map (·.assetId)).Nodup
          rw [hsame]
          exact hnodup
        · intro id hid
          obtain ⟨asset, hasset, rfl⟩ := List.mem_map.mp hid
          exact hthere asset hasset

theorem becomes_admitted {op : StagedOperation} {acceptance : AcceptanceState}
    (h : isTerminalSubmitAcceptance acceptance = false → isOpen op.phase = true) :
    op.Becomes (admitted acceptance op) := by
  cases acceptance with
  | rejected | unsupported => exact becomes_enter op fun _ => rfl
  | immediate | queued | unknown =>
    apply becomes_enter
    intro hshut
    rw [h rfl] at hshut
    cases hshut

theorem isDone_of_isOpen {op : StagedOperation} (h : isOpen op.phase = true) :
    isDone op = false := by
  cases hphase : op.phase <;> simp [isDone, isOpen, hphase] at h ⊢

/-- A receipt that is not a refusal finds its operation open. -/
theorem admitReceipt_keeps {c : AttachmentChannel} {call : Submitting} {acceptance : AcceptanceState}
    (h : isTerminalSubmitAcceptance acceptance = false → ∀ i ∈ call.operation,
      ∀ op ∈ c.operations[i]?, isOpen op.phase = true) : Keeps c (c.admitReceipt call acceptance) := by
  unfold admitReceipt
  split
  · exact .refl c
  · rename_i i hi
    apply Keeps.update
    · intro op hop
      have hadmitted := fun hlive => h hlive i hi op hop
      split
      · exact becomes_admitted hadmitted
      · exact (Becomes.consume op _).trans (becomes_admitted hadmitted)
    · intro op _
      have hkeep : ∀ op : StagedOperation, (admitted acceptance op).assetIds = op.assetIds := by
        intro op
        cases acceptance <;> rfl
      rw [hkeep]
      split
      · rfl
      · exact StagedOperation.assetIds_consume op _
    · intro op hop hnot
      cases hterminal : isTerminalSubmitAcceptance acceptance with
      | false => exact isDone_of_isOpen (h hterminal i hi op hop)
      | true =>
        rw [if_pos hterminal] at hnot
        cases acceptance with
        | rejected | unsupported => cases hnot
        | immediate | queued | unknown => cases hterminal

theorem storeSubmit_keeps (c : AttachmentChannel) (call : Minting)
    (operationRef : Option ControlRef) :
    Keeps c (c.storeSubmit authority call operationRef).1 := by
  have hartifacts : ∀ (c : AttachmentChannel) answer,
      Keeps c (c.storeSubmitArtifacts authority call answer) := by
    intro c answer
    unfold storeSubmitArtifacts
    simp only
    split <;> exact .of_eq rfl rfl fun _ _ h => h
  unfold storeSubmit
  simp only
  refine Keeps.trans ?_ (hartifacts _ _)
  split
  · exact .refl c
  · exact .update (fun op _ => .of_assets rfl rfl rfl fun h => h) (fun _ _ => rfl) fun _ _ h => h

theorem timelineTransition_cases {phase phase' : AttachmentPhase}
    {row : Option SubmissionLifecycleState} {outcome : AttachmentOutcome}
    (h : timelineTransition phase row = some (phase', outcome)) :
    phase' = .accepted ∨ phase' = .failed ∨ (phase' = .dispatching ∧ phase = .queued) := by
  unfold timelineTransition at h
  simp only at h
  split at h
  · split at h <;> cases h
    exact .inl rfl
  · split at h
    · split at h <;> cases h
      rename_i hq
      exact .inr (.inr ⟨rfl, hq.2⟩)
    · split at h
      · cases h
      · split at h
        · cases h
          exact .inr (.inl rfl)
        · split at h <;> cases h
          exact .inl rfl

theorem advance_keeps {c : AttachmentChannel} {i : Nat} {op : StagedOperation}
    (hop : c.operations[i]? = some op) (items : List OperationTimelineItem) :
    Keeps c (c.advance i op items) := by
  unfold advance
  simp only
  split
  · exact .refl c
  · rename_i phase outcome htransition
    have hcases := timelineTransition_cases htransition
    split
    · rename_i haccepted
      subst haccepted
      exact .close hop (.of_assets rfl rfl rfl fun _ => rfl) rfl rfl
    · rename_i hnot
      rcases hcases with haccepted | rfl | ⟨rfl, hqueued⟩
      · exact absurd haccepted hnot
      · refine .update (fun op _ => .of_assets rfl rfl rfl fun _ => rfl) (fun _ _ => rfl) ?_
        intro op _ hdone
        cases hdone
      · refine .update ?_ (fun _ _ => rfl) ?_
        · intro op' hop'
          cases hop.symm.trans hop'
          refine .of_assets rfl rfl rfl fun hshut => ?_
          rw [hqueued] at hshut
          cases hshut
        · intro op' hop' _
          cases hop.symm.trans hop'
          simp [isDone, hqueued]

theorem markRecoverable_keeps (c : AttachmentChannel) (requestId : String)
    (recoveryExpiresAt : Nat) : Keeps c (c.markRecoverable requestId recoveryExpiresAt) := by
  have hids : ∀ op, (recovered recoveryExpiresAt op).assetIds = op.assetIds := by
    intro op
    simp [recovered, StagedOperation.assetIds, StagedOperation.enter]
  unfold markRecoverable
  split
  · exact .refl c
  · rename_i i op hretained
    split
    · rename_i hphase
      refine .update ?_ (fun op _ => hids op) ?_
      · intro op _
        refine ⟨rfl, fun id hid => (hids op).symm ▸ hid, ?_, fun _ => rfl, fun _ _ h => h⟩
        intro asset _ _ hopen
        cases hopen
      · intro op' hop' _
        obtain ⟨j, -, hj⟩ := Option.bind_eq_some_iff.mp hretained
        obtain ⟨op'', hop'', heq⟩ := Option.map_eq_some_iff.mp hj
        cases heq
        cases hop''.symm.trans hop'
        simp only [List.mem_cons, List.not_mem_nil, or_false] at hphase
        rcases hphase with h | h | h | h <;> simp [isDone, h]
    · exact .refl c

theorem retained_getElem? {c : AttachmentChannel} {requestId : String} {i : Nat}
    {op : StagedOperation} (h : c.retained requestId = some (i, op)) :
    c.operations[i]? = some op := by
  obtain ⟨k, -, hop⟩ := Option.bind_eq_some_iff.mp h
  obtain ⟨op', hop', heq⟩ := Option.map_eq_some_iff.mp hop
  cases heq
  exact hop'

theorem deleteRecoverable_keeps (c : AttachmentChannel) (requestId : String) :
    Keeps c (c.deleteRecoverable requestId) := by
  unfold deleteRecoverable
  split
  · exact .refl c
  · rename_i i op hretained
    split
    · exact .refl c
    · exact .close (retained_getElem? hretained) (.of_assets rfl rfl rfl fun _ => rfl) rfl rfl

end

end AttachmentChannel

end AgentsRemember.Attachments
