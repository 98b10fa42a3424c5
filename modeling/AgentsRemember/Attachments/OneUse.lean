import AgentsRemember.Attachments.Sheltered
import AgentsRemember.Control.Disposed
import AgentsRemember.Foundation.Runs

/-!
# Attachments — OneUse

A staged asset is used up by one live submission. The records of a submit are marked
only when its receipt is there, and `_compose` looks at the phase of an operation only
where no asset is named: so a second submit may send what is on its way already, and
one may send the assets of an operation that is over. Where neither happens, and no
receipt comes to an operation that is over, each asset is sent once and its bytes are
kept for as long as they are needed.
-/

namespace AgentsRemember.Attachments

open Submission Control

/-- The phases in which an operation holds its bytes for a submission or a recovery. -/
def holdsBytes (phase : AttachmentPhase) : Bool :=
  phase = .queued || phase = .dispatching || phase = .unknown || phase = .recoverable

namespace AttachmentSystem

/-- What is asked of every state. -/
structure OneUse (s : AttachmentSystem) : Prop where
  /-- Two submits that sent one asset did not both stay live. -/
  sentOnce : s.sent.Pairwise fun a b =>
    a.live = true → b.live = true → a.assets.Disjoint b.assets
  /-- A reference goes to one asset of one request. -/
  exchangedOnce : ∀ x ∈ s.exchanges, ∀ y ∈ s.exchanges,
    x.recoveryAssetRef = y.recoveryAssetRef → x = y
  /-- What is over is not sent. -/
  unended : ∀ sent ∈ s.sent, sent.assets ≠ [] →
    sent.phase ≠ some .expired ∧ sent.phase ≠ some .failed
  /-- The bytes are there while the operation holds them. -/
  kept : ∀ op ∈ s.channel.operations, holdsBytes op.phase = true →
    ∀ id ∈ op.assetIds, s.channel.Has op id

end AttachmentSystem

/-! ## Rebinding -/

section rebind
variable {authority : AttachmentAuthority} {c c' : AttachmentChannel} {r : RebindRequest}

open AttachmentChannel

/-- The operation to rebind into is staged, and the source is where it was. -/
theorem rebindTarget_spec (hs : c.Sound) {source target : StagedOperation} {asset : AssetRecord}
    {i j : Nat} (hi : c.operations[i]? = some source) (hphase : source.phase = .recoverable)
    (h : rebindTarget authority c r source asset = .ok (c', j, target)) :
    Keeps c c' ∧ c'.operations[i]? = some source ∧ c'.operations[j]? = some target ∧
      target.requestId = r.requestId ∧ i ≠ j ∧
      assetIdOf (target.assets.length + 1) r.suffix = c.nextAssetId r ∧
      ∀ id, c.fresh id = true → c'.fresh id = true := by
  unfold rebindTarget at h
  split at h
  · rename_i k op hretained
    split at h
    · cases h
    · rename_i hstaged
      cases h
      obtain ⟨hop, hid⟩ := hs.retained hretained
      refine ⟨.refl c, hi, hop, hid, ?_, ?_, fun _ h => h⟩
      · rintro rfl
        cases hi.symm.trans hop
        exact hstaged (by rw [hphase]; decide)
      · simp [nextAssetId, hretained]
  · rename_i hnone
    cases hroom : c.makeRoom r.requestId with
    | error message =>
      rw [hroom] at h
      cases h
    | ok roomy =>
      rw [hroom] at h
      cases h
      obtain ⟨hkeeps, hops, -⟩ := makeRoom_spec hroom
      have hi' : roomy.operations[i]? = some source := hops ▸ hi
      have hlt : i < roomy.operations.length := (List.getElem?_eq_some_iff.mp hi').1
      have hadd : Keeps roomy (roomy.add (reboundOperation authority r source asset)) := by
        refine @Keeps.add roomy _ roomy.spool (fun id hid => ?_) List.nodup_nil (fun _ h => h)
          fun id hid => ?_
        · cases hid
        · cases hid
      refine ⟨hkeeps.trans hadd, ?_, ?_, rfl, by omega, ?_, ?_⟩
      · simp only [AttachmentChannel.add]
        rwa [List.getElem?_append_left hlt]
      · simp [AttachmentChannel.add]
      · simp [nextAssetId, hnone, reboundOperation]
      · intro id hfresh
        rw [fresh_iff] at hfresh ⊢
        intro op hop
        rcases List.mem_append.mp hop with hop | hop
        · exact hfresh op (hops ▸ hop)
        · cases List.mem_singleton.mp hop
          exact List.not_mem_nil

theorem decodeRef_target {token : Token} {purpose : RefPurpose} {binding : RefBinding}
    {target : RefTarget} {ref : ControlRef} (h : decodeRef token purpose binding = .ok target)
    (href : token = some ref) : ref.target = target := by
  subst href
  simp only [decodeRef] at h
  split at h
  · cases h
  · split at h
    · cases h
    · split at h
      · cases h
      · split at h <;> cases h
        rfl

/-- What a rebind answers is on record with the operation of its reference. -/
theorem rebind_spec (hs : c.Sound) {ref : ControlRef} {assetId : String}
    (href : ref.target.assetId = some assetId) (hfresh : c.fresh (c.nextAssetId r) = true) :
    Keeps c (rebind authority c r ref assetId).1 ∧
    ∀ x ∈ (rebind authority c r ref assetId).2.2, x.recoveryAssetRef = ref ∧
      ∃ (i : Nat) (source source' : StagedOperation), c.operations[i]? = some source ∧
        assetId ∈ source.assetIds ∧
        (rebind authority c r ref assetId).1.operations[i]? = some source' ∧
        source'.rebound.lookup ref = some (x.requestId, x.assetId) := by
  unfold rebind
  split
  · exact ⟨.refl c, fun x hx => by cases hx⟩
  · rename_i i source hretained
    obtain ⟨hi, -⟩ := hs.retained hretained
    split
    · exact ⟨.refl c, fun x hx => by cases hx⟩
    · rename_i hphase
      have hphase : source.phase = .recoverable := by simpa using hphase
      split
      · exact ⟨.refl c, fun x hx => by cases hx⟩
      · rename_i asset hfind
        obtain ⟨hasset, rfl⟩ := StagedOperation.find_spec hfind
        have hid : asset.assetId ∈ source.assetIds := List.mem_map_of_mem hasset
        split
        · rename_i rebound hrebound
          split
          · exact ⟨.refl c, fun x hx => by cases hx⟩
          · rename_i target replay exchange hreplay
            refine ⟨.refl c, ?_⟩
            intro x hx
            cases hx
            -- a replay answers from the exchange that is remembered
            unfold rebindReplay at hreplay
            split at hreplay
            · cases hreplay
            · rename_i hrequest
              split at hreplay
              · cases hreplay
              · split at hreplay
                · cases hreplay
                · cases hreplay
                  have heq : rebound = (r.requestId, rebound.2) :=
                    Prod.ext (by simpa using hrequest) rfl
                  exact ⟨rfl, i, source, source, hi, hid, hi,
                    hrebound.trans (congrArg some heq)⟩
        · rename_i hnone
          split
          · exact ⟨.refl c, fun x hx => by cases hx⟩
          · split
            · exact ⟨.refl c, fun x hx => by cases hx⟩
            · rename_i bytes _
              split
              · exact ⟨.refl c, fun x hx => by cases hx⟩
              · rename_i c' j target htarget
                obtain ⟨hkeeps, hi', hj, hrequest, hij, hnext, hstill⟩ :=
                  rebindTarget_spec hs hi hphase htarget
                rw [hnext]
                -- a first exchange goes to another operation, under an identity nobody had
                have hexchange : Keeps c' (c'.exchange ref i j source asset r.requestId
                    (c.nextAssetId r) bytes) :=
                  .exchange hi' hj hij hasset href hnone hrequest (hstill _ hfresh)
                refine ⟨hkeeps.trans hexchange, ?_⟩
                intro x hx
                cases hx
                refine ⟨rfl, i, source, exchangedFrom ref asset.assetId r.requestId
                  (c.nextAssetId r) source, hi, hid, ?_, ?_⟩
                · rw [getElem?_exchange, hi']
                  simp [Ne.symm hij]
                · simp [exchangedFrom, Keyed.lookup_set]

end rebind

/-! ## Sending -/

section sending
variable {authority : AttachmentAuthority} {c c' : AttachmentChannel}

open AttachmentChannel

theorem consumeBlock_spec {op : Option StagedOperation} {block : AssetSubmitBlock}
    {record : AssetRecord} (h : consumeBlock op block = .ok record) :
    ∃ op', op = some op' ∧ record ∈ op'.assets ∧ record.consumed = false := by
  unfold consumeBlock at h
  split at h
  · cases h
  · rename_i op'
    split at h
    · cases h
    · rename_i found hfind
      split at h
      · cases h
      · rename_i hconsumed
        split at h
        · cases h
        · cases h
          exact ⟨op', rfl, (StagedOperation.find_spec hfind).1, by simpa using hconsumed⟩

/-- Each record that is composed is one of the operation, and not used up. -/
theorem composeBlocks_spec {op : Option StagedOperation} {blocks : List ComposerSubmitBlock}
    {texts : List String} {records : List AssetRecord}
    (h : composeBlocks op blocks = .ok (texts, records)) :
    ∀ record ∈ records, ∃ op', op = some op' ∧ record ∈ op'.assets ∧ record.consumed = false := by
  induction blocks generalizing texts records with
  | nil =>
    cases h
    intro record hrecord
    cases hrecord
  | cons block blocks ih =>
    cases block with
    | text text =>
      cases hrest : composeBlocks op blocks with
      | error message =>
        rw [composeBlocks, hrest] at h
        cases h
      | ok rest =>
        rw [composeBlocks, hrest] at h
        cases h
        exact ih hrest
    | assetRef block =>
      rw [composeBlocks] at h
      split at h
      · cases h
      · rename_i record hrecord
        cases hrest : composeBlocks op blocks with
        | error message =>
          rw [hrest] at h
          cases h
        | ok rest =>
          rw [hrest] at h
          cases h
          intro record' hmem
          rcases List.mem_cons.mp hmem with rfl | hmem
          · exact consumeBlock_spec hrecord
          · exact ih hrest record' hmem

theorem compose_spec {op : Option StagedOperation} {body : ConversationSubmitRequest}
    {text : String} {records : List AssetRecord} (h : compose op body = .ok (text, records)) :
    ∀ record ∈ records, ∃ op', op = some op' ∧ record ∈ op'.assets ∧ record.consumed = false := by
  unfold compose at h
  split at h
  · cases h
  · rename_i texts records' hblocks
    simp only at h
    split at h
    · cases h
    · split at h
      · cases h
      · cases h
        exact composeBlocks_spec hblocks

/-- What is sent are assets of the retained operation that are not used up. -/
theorem prepareSubmit_spec {authorization : AuthorizationBinding}
    {body : ConversationSubmitRequest} {call : Submitting}
    (h : prepareSubmit authority c authorization body = .ok call) :
    call.operation = (c.retained body.requestId).map Prod.fst ∧
    ∀ id ∈ call.assetIds, ∃ i op asset, c.retained body.requestId = some (i, op) ∧
      asset ∈ op.assets ∧ asset.assetId = id ∧ asset.consumed = false := by
  unfold prepareSubmit at h
  simp only at h
  split at h
  · split at h <;> cases h
  · split at h
    · cases h
    · rename_i text records hcompose
      split at h
      · cases h
      · cases h
        refine ⟨rfl, ?_⟩
        intro id hid
        simp only [Submitting.assetIds, List.map_map, List.mem_map] at hid
        obtain ⟨record, hrecord, rfl⟩ := hid
        obtain ⟨op, hop, hmem, hconsumed⟩ := compose_spec hcompose record hrecord
        obtain ⟨⟨i, op'⟩, hretained, rfl⟩ := Option.map_eq_some_iff.mp hop
        exact ⟨i, op', record, hretained, hmem, rfl, hconsumed⟩

/-- The asset is used up, for as long as its operation is open. -/
def AttachmentChannel.Used (c : AttachmentChannel) (id : String) : Prop :=
  ∃ (i : Nat) (op : StagedOperation) (asset : AssetRecord), c.operations[i]? = some op ∧
    asset ∈ op.assets ∧ asset.assetId = id ∧ (isOpen op.phase = true → asset.consumed = true)

theorem Used.grows {id : String} (h : c.Used id) (hg : Grows c c') : c'.Used id := by
  obtain ⟨i, op, asset, hop, hasset, rfl, hused⟩ := h
  obtain ⟨op', hop', hb⟩ := hg i op hop
  by_cases hopen' : isOpen op'.phase = true
  · have hopen : isOpen op.phase = true := by
      by_contra hshut
      rw [hb.shut (by simpa using hshut)] at hopen'
      cases hopen'
    obtain ⟨asset', hasset', hid, hconsumed⟩ := hb.used asset hasset (hused hopen) hopen'
    exact ⟨i, op', asset', hop', hasset', hid, fun _ => hconsumed⟩
  · obtain ⟨asset', hasset', hid⟩ :=
      List.mem_map.mp (hb.assetIds asset.assetId (List.mem_map_of_mem hasset))
    exact ⟨i, op', asset', hop', hasset', hid, fun h => absurd h hopen'⟩

/-- A receipt that is no refusal uses up what the submit sent. -/
theorem used_of_admitReceipt {call : Submitting} {acceptance : AcceptanceState}
    (hlive : isTerminalSubmitAcceptance acceptance = false) {i : Nat} {op : StagedOperation}
    (hi : call.operation = some i) (hop : c.operations[i]? = some op) {id : String}
    (hid : id ∈ call.assetIds) (hmem : id ∈ op.assetIds) :
    (c.admitReceipt call acceptance).Used id := by
  obtain ⟨asset, hasset, rfl, hconsumed⟩ := StagedOperation.consumed_of_consume hmem hid
  refine ⟨i, admitted acceptance (op.consume call.assetIds), asset, ?_, ?_, rfl,
    fun _ => hconsumed⟩
  · simp [AttachmentChannel.admitReceipt, hi, AttachmentChannel.update, hop, hlive]
  · cases acceptance <;> exact hasset

end sending

/-! ## Steps -/

namespace AttachmentSystem

open AttachmentChannel (Keeps Grows)

section
variable (authority : AttachmentAuthority)

/-- Assets are sent from an operation that is not over, and while no other submit is on
its way with them. -/
def SendsOrderly (s : AttachmentSystem) (held : Option (Nat × StagedOperation)) :
    Except AttachmentAnswer Submitting → Prop
  | .error _ => True
  | .ok call => call.assetIds ≠ [] →
    (∀ e ∈ held, isOpen e.2.phase = true) ∧
    ∀ e ∈ s.submitting, ∀ id ∈ call.assetIds, id ∉ e.2.assetIds

/-- Assets are sent in order; and a receipt that is no refusal finds its operation not
over. -/
def Orderly (s : AttachmentSystem) : AttachmentMove → Prop
  | .submit authorization body now =>
    let c := s.channel.sweepExpired now
    s.SendsOrderly (c.retained body.requestId) (prepareSubmit authority c authorization body)
  | .receipt number (.ok receipt) => isTerminalSubmitAcceptance receipt.acceptance = false →
    ∀ call ∈ s.submitting.lookup number, ∀ i ∈ call.operation,
      ∀ op ∈ s.channel.operations[i]?, isOpen op.phase = true
  | _ => True

instance (s : AttachmentSystem) (held : Option (Nat × StagedOperation)) :
    (prepared : Except AttachmentAnswer Submitting) → Decidable (s.SendsOrderly held prepared)
  | .error _ => isTrue trivial
  | .ok _ => inferInstanceAs (Decidable (_ → _ ∧ _))

instance (s : AttachmentSystem) : (m : AttachmentMove) → Decidable (s.Orderly authority m)
  | .submit .. => inferInstanceAs (Decidable (SendsOrderly ..))
  | .receipt _ (.ok _) => inferInstanceAs (Decidable (_ → _))
  | .receipt _ (.error _) | .stage _ | .queueRef .. | .status .. | .timeline .. | .rebind _ |
    .markRecoverable .. | .deleteRecoverable _ => isTrue trivial

end

/-- What every step keeps. -/
structure Invariant (s : AttachmentSystem) : Prop where
  sound : s.channel.Sound
  /-- what was exchanged is on record with the operation it came from -/
  exchanged : ∀ x ∈ s.exchanges, ∃ (i : Nat) (op : StagedOperation) (assetId : String),
    s.channel.operations[i]? = some op ∧ assetId ∈ op.assetIds ∧
    x.recoveryAssetRef.target.assetId = some assetId ∧
    op.rebound.lookup x.recoveryAssetRef = some (x.requestId, x.assetId)
  /-- a submit on its way is on record with what it sent -/
  calls : ∀ number call, s.submitting.lookup number = some call →
    ∃ sent, s.sent[number]? = some sent ∧ sent.outcome = .awaited ∧
      sent.assets = call.assetIds ∧
      ∀ id ∈ call.assetIds, ∃ (i : Nat) (op : StagedOperation), call.operation = some i ∧
        s.channel.operations[i]? = some op ∧ id ∈ op.assetIds
  /-- what was sent is on its way, or used up -/
  used : ∀ (number : Nat) sent, s.sent[number]? = some sent → sent.live = true →
    (∃ call, s.submitting.lookup number = some call) ∨ ∀ id ∈ sent.assets, s.channel.Used id
  sentOnce : s.sent.Pairwise fun a b =>
    a.live = true → b.live = true → a.assets.Disjoint b.assets
  unended : ∀ sent ∈ s.sent, sent.assets ≠ [] →
    sent.phase ≠ some .expired ∧ sent.phase ≠ some .failed

theorem Invariant.oneUse {s : AttachmentSystem} (hs : Invariant s) : OneUse s where
  sentOnce := hs.sentOnce
  exchangedOnce := by
    intro x hx y hy href
    obtain ⟨i, op, id, hop, hid, hx', hxv⟩ := hs.exchanged x hx
    obtain ⟨j, op', id', hop', hid', hy', hyv⟩ := hs.exchanged y hy
    rw [href, hy'] at hx'
    cases hx'
    have hij := hs.sound.distinct i j op op' id hop hop' hid hid'
    subst hij
    cases hop.symm.trans hop'
    rw [href, hyv] at hxv
    cases x
    cases y
    cases hxv
    cases href
    rfl
  unended := hs.unended
  kept := by
    intro op hop hholds id hid
    obtain ⟨i, hi⟩ := List.getElem?_of_mem hop
    refine hs.sound.kept i op hi ?_ id hid
    cases hphase : op.phase <;> simp [holdsBytes, AttachmentChannel.isDone, hphase] at hholds ⊢

/-- A section of which only the channel is more than the section's own. -/
theorem Invariant.keeps {s s' : AttachmentSystem} (hs : Invariant s)
    (hk : Keeps s.channel s'.channel) (hsubmitting : s'.submitting = s.submitting)
    (hsent : s'.sent = s.sent) (hexchanges : s'.exchanges = s.exchanges) : Invariant s' where
  sound := hk.sound hs.sound
  exchanged := by
    rw [hexchanges]
    intro x hx
    obtain ⟨i, op, id, hop, hid, href, hv⟩ := hs.exchanged x hx
    obtain ⟨op', hop', hb⟩ := hk.grows i op hop
    exact ⟨i, op', id, hop', hb.assetIds id hid, href, hb.rebound _ _ hv⟩
  calls := by
    rw [hsubmitting, hsent]
    intro number call hcall
    obtain ⟨sent, hsent, hawaited, hassets, hids⟩ := hs.calls number call hcall
    refine ⟨sent, hsent, hawaited, hassets, ?_⟩
    intro id hid
    obtain ⟨i, op, hi, hop, hmem⟩ := hids id hid
    obtain ⟨op', hop', hb⟩ := hk.grows i op hop
    exact ⟨i, op', hi, hop', hb.assetIds id hmem⟩
  used := by
    rw [hsubmitting, hsent]
    intro number sent hnumber hlive
    exact (hs.used number sent hnumber hlive).imp (fun h => h) fun h id hid =>
      Used.grows (h id hid) hk.grows
  sentOnce := hsent ▸ hs.sentOnce
  unended := hsent ▸ hs.unended

theorem Invariant.answer {s : AttachmentSystem} (hs : Invariant s) {c : AttachmentChannel}
    (hk : Keeps s.channel c) (answer : AttachmentAnswer) : Invariant (s.answer c answer) :=
  hs.keeps hk rfl rfl rfl

/-- A submit ends, with what it sent used up unless it was refused. -/
theorem Invariant.ended {s : AttachmentSystem} (hs : Invariant s) {number : Nat}
    {call : Submitting} (hcall : s.submitting.lookup number = some call) {outcome : SentOutcome}
    (hused : ∀ sent : Sent, { sent with outcome := outcome }.live = true →
      ∀ id ∈ call.assetIds, s.channel.Used id) : Invariant (s.ended number outcome) where
  sound := hs.sound
  exchanged := hs.exchanged
  calls := by
    intro number' call' hcall'
    have hne : number' ≠ number ∧ s.submitting.lookup number' = some call' := by
      simp only [AttachmentSystem.ended, Keyed.lookup_erase] at hcall'
      split at hcall'
      · cases hcall'
      · exact ⟨by assumption, hcall'⟩
    obtain ⟨sent, hsent, hrest⟩ := hs.calls number' call' hne.2
    refine ⟨sent, ?_, hrest⟩
    simp [AttachmentSystem.ended, hsent, Ne.symm hne.1]
  used := by
    intro number' sent' hsent' hlive
    simp only [AttachmentSystem.ended, List.getElem?_modify] at hsent'
    obtain ⟨sent, hsent, rfl⟩ := Option.map_eq_some_iff.mp hsent'
    by_cases hnumber : number = number'
    · subst hnumber
      right
      rw [if_pos rfl] at hlive ⊢
      obtain ⟨sent'', hsent'', -, hassets, -⟩ := hs.calls number call hcall
      cases hsent.symm.trans hsent''
      intro id hid
      exact hused sent hlive id (hassets ▸ hid)
    · rw [if_neg hnumber] at hlive ⊢
      refine (hs.used number' sent hsent hlive).imp ?_ fun h => h
      rintro ⟨call', hcall'⟩
      refine ⟨call', ?_⟩
      rw [AttachmentSystem.ended, Keyed.lookup_erase, if_neg (Ne.symm hnumber)]
      exact hcall'
  sentOnce := by
    obtain ⟨awaiting, hawaiting, hawaited, -⟩ := hs.calls number call hcall
    -- a submit on its way is live, so no more of them are live than before
    have hlive : ∀ (i : Nat) sent, s.sent[i]? = some sent →
        (if number = i then { sent with outcome := outcome } else sent).live = true →
        sent.live = true := by
      intro i sent hsent hlive
      split at hlive
      · rename_i hi
        subst hi
        cases hawaiting.symm.trans hsent
        simp [Sent.live, hawaited]
      · exact hlive
    have hassets : ∀ (i : Nat) (sent : Sent),
        (if number = i then { sent with outcome := outcome } else sent).assets = sent.assets := by
      intro i sent
      split <;> rfl
    rw [List.pairwise_iff_getElem]
    intro i j hi hj hij
    simp only [AttachmentSystem.ended, List.length_modify] at hi hj
    simp only [AttachmentSystem.ended, List.getElem_modify, hassets]
    intro ha hb
    exact List.pairwise_iff_getElem.mp hs.sentOnce i j hi hj hij
      (hlive i _ (List.getElem?_eq_getElem hi) ha) (hlive j _ (List.getElem?_eq_getElem hj) hb)
  unended := by
    intro sent' hsent'
    obtain ⟨i, hi⟩ := List.getElem?_of_mem hsent'
    simp only [AttachmentSystem.ended, List.getElem?_modify] at hi
    obtain ⟨sent, hsent, rfl⟩ := Option.map_eq_some_iff.mp hi
    have hold := hs.unended sent (List.mem_of_getElem? hsent)
    split <;> exact hold

/-- A submit is sent: its assets are on no other live submit. -/
theorem Invariant.send {s : AttachmentSystem} (hs : Invariant s) {c : AttachmentChannel}
    (hk : Keeps s.channel c) {call : Submitting} {authority : AttachmentAuthority}
    {authorization : AuthorizationBinding} {body : ConversationSubmitRequest}
    (hcall : prepareSubmit authority c authorization body = .ok call)
    (horderly : s.SendsOrderly (c.retained body.requestId) (.ok call)) :
    Invariant { s with
      channel := c
      submitting := s.submitting ++ [(s.sent.length, call)]
      answered := none
      sent := s.sent ++ [
        { requestId := body.requestId
          assets := call.assetIds
          phase := (c.retained body.requestId).map fun e => e.2.phase }] } := by
  have hs' : Invariant { s with channel := c } := hs.keeps hk rfl rfl rfl
  have hsound : c.Sound := hs'.sound
  obtain ⟨hoperation, hids⟩ := prepareSubmit_spec hcall
  have hbound : ∀ number call', s.submitting.lookup number = some call' →
      number < s.sent.length := by
    intro number call' hlookup
    obtain ⟨sent, hsent, -⟩ := hs.calls number call' hlookup
    exact (List.getElem?_eq_some_iff.mp hsent).1
  -- the new call has the next number, which no call in flight has
  refine ⟨hsound, hs'.exchanged, ?_, ?_, ?_, ?_⟩
  · intro number call' hlookup
    simp only [Keyed.lookup_append] at hlookup
    cases hold : s.submitting.lookup number with
    | some held =>
      rw [hold, Option.some_or] at hlookup
      cases hlookup
      obtain ⟨sent, hsent, hrest⟩ := hs'.calls number call' hold
      exact ⟨sent, by rwa [List.getElem?_append_left (hbound number call' hold)], hrest⟩
    | none =>
      rw [hold, Option.none_or, Keyed.lookup_cons] at hlookup
      split at hlookup
      · rename_i hnumber
        subst hnumber
        cases hlookup
        refine ⟨_, List.getElem?_concat_length, rfl, rfl, ?_⟩
        intro id hid
        obtain ⟨i, op, asset, hretained, hasset, rfl, -⟩ := hids id hid
        exact ⟨i, op, by rw [hoperation, hretained]; rfl, AttachmentChannel.retained_getElem?
          hretained, List.mem_map_of_mem hasset⟩
      · cases hlookup
  · intro number sent hsent hlive
    rw [List.getElem?_append] at hsent
    split at hsent
    · refine (hs'.used number sent hsent hlive).imp ?_ fun h => h
      rintro ⟨call', hlookup⟩
      exact ⟨call', by simp [Keyed.lookup_append, show s.submitting.lookup number = _ from hlookup]⟩
    · rename_i hnumber
      left
      have hlen := (List.getElem?_eq_some_iff.mp hsent).1
      simp only [List.length_singleton] at hlen
      have hnumber : number = s.sent.length := by omega
      subst hnumber
      cases hold : s.submitting.lookup s.sent.length with
      | some held => exact ⟨held, by simp [Keyed.lookup_append, hold]⟩
      | none => exact ⟨call, by simp [Keyed.lookup_append, hold]⟩
  · rw [List.pairwise_append]
    refine ⟨hs.sentOnce, List.pairwise_singleton _ _, ?_⟩
    intro sent hsent new hnew
    cases List.mem_singleton.mp hnew
    intro hlive _ id hid hmem
    have hne : call.assetIds ≠ [] := List.ne_nil_of_mem hmem
    obtain ⟨hopen, hdisjoint⟩ := horderly hne
    obtain ⟨number, hnumber⟩ := List.getElem?_of_mem hsent
    rcases hs'.used number sent hnumber hlive with ⟨call', hlookup⟩ | hused
    · obtain ⟨sent', hsent', -, hassets, -⟩ := hs'.calls number call' hlookup
      cases hnumber.symm.trans hsent'
      exact hdisjoint _ (Keyed.mem_of_lookup hlookup) id hmem (hassets ▸ hid)
    · -- it is used up, and so it was not sent again
      obtain ⟨i, op, asset, hretained, hasset, hassetId, hunused⟩ := hids id hmem
      obtain ⟨j, op', asset', hop', hasset', hassetId', hconsumed⟩ := hused id hid
      obtain ⟨rfl, rfl⟩ := hsound.unique (AttachmentChannel.retained_getElem? hretained) hop'
        hasset hasset' (hassetId.trans hassetId'.symm)
      rw [hconsumed (hopen _ hretained)] at hunused
      cases hunused
  · intro sent hsent hne
    rcases List.mem_append.mp hsent with hsent | hnew
    · exact hs.unended sent hsent hne
    · cases List.mem_singleton.mp hnew
      obtain ⟨hopen, -⟩ := horderly hne
      cases hretained : c.retained body.requestId with
      | none => exact ⟨by simp, by simp⟩
      | some held =>
        have hphase := hopen held hretained
        refine ⟨?_, ?_⟩ <;>
        · intro h
          simp only [Option.map_some, Option.some.injEq] at h
          rw [h] at hphase
          cases hphase

section
variable {authority : AttachmentAuthority}

/-- A rebind answers one asset for one reference. -/
theorem Invariant.rebound {s : AttachmentSystem} (hs : Invariant s) {r : RebindRequest}
    {ref : ControlRef} {assetId : String} (href : ref.target.assetId = some assetId)
    (hfresh : s.channel.fresh (s.channel.nextAssetId r) = true) :
    Invariant { s.answer (rebind authority s.channel r ref assetId).1
        (rebind authority s.channel r ref assetId).2.1 with
      exchanges := s.exchanges ++ (rebind authority s.channel r ref assetId).2.2.toList } := by
  obtain ⟨hkeeps, hexchange⟩ := @rebind_spec authority _ _ hs.sound _ _ href hfresh
  have hs' := hs.answer hkeeps (rebind authority s.channel r ref assetId).2.1
  refine ⟨hs'.sound, ?_, hs'.calls, hs'.used, hs'.sentOnce, hs'.unended⟩
  intro x hx
  rcases List.mem_append.mp hx with hx | hx
  · exact hs'.exchanged x hx
  · obtain ⟨hxref, i, source, source', hi, hid, hi', hv⟩ :=
      hexchange x (Option.mem_toList.mp hx)
    obtain ⟨op', hop', hb⟩ := hkeeps.grows i source hi
    cases hi'.symm.trans hop'
    exact ⟨i, source', assetId, hi', hb.assetIds assetId hid, by rw [hxref, href],
      by rw [hxref]; exact hv⟩

/-- What an orderly step keeps. -/
theorem invariant_stageStep {s s' : AttachmentSystem} {r : StageRequest} (hs : Invariant s)
    (h : s.stageStep authority r = some s') : Invariant s' := by
  simp only [stageStep] at h
  split at h
  · cases h
    exact hs.answer (.refl _) _
  · split at h
    · cases h
      exact hs.answer (.refl _) _
    · split at h
      · rename_i hids
        cases h
        exact hs.answer ((AttachmentChannel.sweepExpired_keeps _ _).trans
          (AttachmentChannel.stage_keeps hids.1 hids.2)) _
      · cases h

theorem invariant_submitStep {s : AttachmentSystem} {authorization : AuthorizationBinding}
    {body : ConversationSubmitRequest} {now : Nat} (hs : Invariant s)
    (ho : s.Orderly authority (.submit authorization body now)) :
    Invariant (s.submitStep authority authorization body now) := by
  have hsweep := AttachmentChannel.sweepExpired_keeps s.channel now
  simp only [submitStep]
  split
  · exact hs.answer (.refl _) _
  · split
    · exact hs.keeps (hsweep.trans (.of_eq rfl rfl fun _ _ h => h)) rfl rfl rfl
    · exact hs.answer hsweep _
    · rename_i call hcall
      simp only [Orderly, hcall] at ho
      exact hs.send hsweep hcall ho

/-- What a submit that is live has sent is used up, by the operation that its receipt finds. -/
theorem invariant_receiptStep {s : AttachmentSystem} {number : Nat}
    {receipt : Except String SubmissionReceipt} {call : Submitting} (hs : Invariant s)
    (hcall : s.submitting.lookup number = some call)
    (ho : s.Orderly authority (.receipt number receipt)) :
    Invariant (s.receiptStep authority number receipt call) := by
  cases receipt with
  | error message =>
    exact (hs.ended hcall fun _ hlive => by cases hlive).answer (.refl _) _
  | ok receipt =>
    have hadmit := @AttachmentChannel.admitReceipt_keeps _ call _
      (fun hlive i hi op hop => ho hlive call hcall i hi op hop)
    have hs' : Invariant { s with channel := s.channel.admitReceipt call receipt.acceptance } :=
      hs.keeps hadmit rfl rfl rfl
    have hended : Invariant ({ s with
        channel := s.channel.admitReceipt call receipt.acceptance }.ended number
          (.answered receipt.acceptance)) := by
      apply hs'.ended hcall
      intro _ hlive id hid
      obtain ⟨-, -, -, -, hids⟩ := hs.calls number call hcall
      obtain ⟨i, op, hi, hop, hmem⟩ := hids id hid
      exact used_of_admitReceipt (by simpa [Sent.live] using hlive) hi hop hid hmem
    simp only [receiptStep]
    split
    · exact hended.keeps (.refl _) rfl rfl rfl
    · exact hended.keeps (.refl _) rfl rfl rfl

theorem invariant_queueRefStep {s : AttachmentSystem} (hs : Invariant s) (number : Nat)
    (items : Except String (List OperationTimelineItem)) (call : Minting) :
    Invariant (s.queueRefStep authority number items call) := by
  simp only [queueRefStep]
  split
  · exact hs.keeps (.refl _) rfl rfl rfl
  · exact hs.keeps (AttachmentChannel.storeSubmit_keeps _ _ _) rfl rfl rfl

theorem invariant_statusStep {s : AttachmentSystem} (hs : Invariant s) (requestId : String)
    (reconcile : Bool) (now : Nat) : Invariant (s.statusStep requestId reconcile now) := by
  have hsweep := AttachmentChannel.sweepExpired_keeps s.channel now
  simp only [statusStep]
  split
  · exact hs.answer hsweep _
  · have htouch : Keeps (s.channel.sweepExpired now) { s.channel.sweepExpired now with
        attachments := Keyed.moveToEnd (s.channel.sweepExpired now).attachments requestId } := by
      refine .of_eq rfl rfl fun requestId' i hi => ?_
      rwa [Keyed.lookup_moveToEnd] at hi
    split
    · exact hs.keeps (hsweep.trans htouch) rfl rfl rfl
    · exact hs.answer (hsweep.trans htouch) _

theorem invariant_timelineStep {s : AttachmentSystem} (hs : Invariant s) (k : Nat) {i : Nat}
    (items : Except String (List OperationTimelineItem)) {op : StagedOperation}
    (hop : s.channel.operations[i]? = some op) : Invariant (s.timelineStep k i items op) := by
  simp only [timelineStep]
  split
  · exact hs.keeps (.refl _) rfl rfl rfl
  · exact hs.keeps (AttachmentChannel.advance_keeps hop _) rfl rfl rfl

theorem invariant_rebindStep {s s' : AttachmentSystem} {r : RebindRequest} (hs : Invariant s)
    (h : s.rebindStep authority r = some s') : Invariant s' := by
  simp only [rebindStep] at h
  split at h
  · cases h
    exact hs.answer (.refl _) _
  · split at h
    · cases h
      exact hs.answer (.refl _) _
    · rename_i target htarget
      split at h
      · rename_i _ assetId _ hassetId
        split at h
        · rename_i hfresh
          obtain ⟨ref, href, rfl⟩ := Option.map_eq_some_iff.mp h
          have hsweep := AttachmentChannel.sweepExpired_keeps s.channel r.now
          have hswept : Invariant { s with channel := s.channel.sweepExpired r.now } :=
            hs.keeps hsweep rfl rfl rfl
          have htargets : ref.target.assetId = some assetId := by
            rw [decodeRef_target htarget href, hassetId]
          exact hswept.rebound htargets hfresh
        · cases h
      · cases h
        exact hs.answer (.refl _) _

/-- Every move that is orderly keeps the invariant. -/
theorem invariant_step {s s' : AttachmentSystem} {m : AttachmentMove} (hs : Invariant s)
    (h : s.step authority m = some s') (ho : Orderly authority s m) : Invariant s' := by
  cases m with
  | stage => exact invariant_stageStep hs h
  | submit =>
    cases h
    exact invariant_submitStep hs ho
  | receipt =>
    obtain ⟨call, hcall, rfl⟩ := Option.map_eq_some_iff.mp h
    exact invariant_receiptStep hs hcall ho
  | queueRef number items =>
    obtain ⟨call, -, rfl⟩ := Option.map_eq_some_iff.mp h
    exact invariant_queueRefStep hs number items call
  | status requestId reconcile now =>
    cases h
    exact invariant_statusStep hs requestId reconcile now
  | timeline k items =>
    obtain ⟨i, -, h⟩ := Option.bind_eq_some_iff.mp h
    obtain ⟨op, hop, rfl⟩ := Option.map_eq_some_iff.mp h
    exact invariant_timelineStep hs k items hop
  | rebind => exact invariant_rebindStep hs h
  | markRecoverable requestId recoveryExpiresAt =>
    cases h
    exact hs.keeps (AttachmentChannel.markRecoverable_keeps _ _ _) rfl rfl rfl
  | deleteRecoverable requestId =>
    cases h
    exact hs.keeps (AttachmentChannel.deleteRecoverable_keeps _ _) rfl rfl rfl

theorem invariant_start : Invariant {} where
  sound := by
    refine ⟨?_, ?_, ?_, ?_⟩
    · intro _ _ h
      cases h
    · intro _ _ h
      cases h
    · intro _ _ _ _ _ h
      cases h
    · intro _ _ h
      cases h
  exchanged := by
    intro _ h
    cases h
  calls := by
    intro _ _ h
    cases h
  used := by
    intro _ _ h
    cases h
  sentOnce := List.Pairwise.nil
  unended := by
    intro _ h
    cases h

end

/-- **A staged asset is used up by one live submission**, in every run that is orderly:
any number of calls of any callers, in any order of their sections. -/
theorem assets_used_once (authority : AttachmentAuthority) (moves : List AttachmentMove)
    (h : Runs.Along (step authority) (fun s m _ => s.Orderly authority m) {} moves) :
    Runs.Always (step authority) OneUse {} moves :=
  h.always (fun _ _ _ hs hm ho => invariant_step hs hm ho) (fun _ hs => hs.oneUse)
    invariant_start

/-! ## One image -/

/-- Contents stand for their digests. -/
def openAuthority : AttachmentAuthority where
  toControlAuthority := plainAuthority
  sha256 data := "sha256:" ++ String.ofList (data.map fun byte => Char.ofNat byte.toNat)
  operationFingerprint
    | .stage authorization requestId _ => "stage|" ++ authorization.principalId ++ "|" ++ requestId
    | .rebound authorization requestId _ rebindOf =>
      "stage|" ++ authorization.principalId ++ "|" ++ requestId ++ "|" ++ rebindOf
    | .submit authorization body => "submit|" ++ authorization.principalId ++ "|" ++ body.requestId

/-- An image. -/
def image : StagedUpload where
  kind := .image
  name := "dot.png"
  mimeType := "image/png"
  data := [46]

/-- Only images are taken. -/
def imagesOnly : AttachmentKind → Option AttachmentCapability
  | .image => some
    { supported := true
      reason := "fixture"
      allowedMimeTypes := ["image/png"]
      maxBytes := 1024
      descriptionRequired := false }
  | _ => none

/-- The image, staged. -/
def stageImage (requestId : String) (suffix : String) (now : Nat) : AttachmentMove :=
  .stage ⟨alice, requestId, imagesOnly, [image], fun _ => suffix, now⟩

/-- A text and the staged image. -/
def withImage (requestId assetId : String) (now : Nat) : AttachmentMove :=
  .submit alice
    { requestId := requestId
      content := [.text "see the dot", .assetRef
        { assetId := assetId
          kind := .image
          name := "dot.png"
          mimeType := "image/png"
          alt := "dot.png, image/png"
          altProvenance := .filenameMimeFallback
          sha256 := "sha256:." }]
      draftRevision := 1 }
    now

/-- The receipt of a queued submission. -/
def queuedReceipt (requestId : String) : Except String SubmissionReceipt :=
  .ok { requestId := requestId, acceptance := .queued, submittedAt := "t1" }

/-- The reference of a withdrawn asset. -/
def imageRef : ControlRef :=
  ⟨.recoveryAssetRef, plainAuthority.binding alice, ⟨queuedPrompt, some "w1", some "asset-1-a"⟩⟩

/-- The image is sent and queued, and the prompt withdrawn; its image is rebound to
another request and sent with that. -/
def sentAgain : List AttachmentMove :=
  [stageImage "prompt-1" "a" 0, withImage "prompt-1" "asset-1-a" 1,
    .receipt 0 (queuedReceipt "prompt-1"), .queueRef 0 (.ok [⟨queuedPrompt, some .cockpit, .queued⟩]),
    .markRecoverable "prompt-1" 900, .rebind ⟨alice, some imageRef, "prompt-2", "b", 2⟩,
    withImage "prompt-2" "asset-1-b" 3, .receipt 1 (queuedReceipt "prompt-2")]

theorem sent_again_once : Runs.Always (step openAuthority) OneUse {} sentAgain ∧
    ((Runs.run (step openAuthority) {} sentAgain).map fun s => s.sent.map (·.assets)) =
      some [["asset-1-a"], ["asset-1-b"]] :=
  ⟨assets_used_once openAuthority sentAgain (by decide +kernel), by decide +kernel⟩

/-- The image was staged a quarter of an hour ago. -/
def sentLate : List AttachmentMove :=
  [stageImage "prompt-1" "a" 0, withImage "prompt-1" "asset-1-a" 900]

/-- The sweep has just expired the operation and deleted the image. It is sent. -/
theorem expired_asset_sent : ¬Runs.Always (step openAuthority) OneUse {} sentLate := by
  intro h
  have hend : (Runs.run (step openAuthority) {} sentLate).map (fun s => (s.sent, s.channel.spool)) =
      some ([⟨"prompt-1", ["asset-1-a"], some .expired, .awaited⟩], []) := by
    decide +kernel
  obtain ⟨s, hs, heq⟩ := Option.map_eq_some_iff.mp hend
  have hsent : s.sent = [⟨"prompt-1", ["asset-1-a"], some .expired, .awaited⟩] :=
    congrArg Prod.fst heq
  have huse := (h.at_end hs).unended
  rw [hsent] at huse
  exact (huse _ (List.mem_singleton.mpr rfl) (by simp)).1 rfl

/-- Two submits of one image, the second while the first is on its way. -/
example : (Runs.run (step openAuthority) {} [stageImage "prompt-1" "a" 0,
    withImage "prompt-1" "asset-1-a" 1, withImage "prompt-1" "asset-1-a" 2,
    .receipt 0 (queuedReceipt "prompt-1"), .receipt 1 (queuedReceipt "prompt-1")]).map
      (fun s => s.sent.map fun sent => (sent.assets, sent.live)) =
    some [(["asset-1-a"], true), (["asset-1-a"], true)] := by decide +kernel

end AttachmentSystem

end AgentsRemember.Attachments
