import AgentsRemember.Lifecycle.Replacement
import Mathlib.Tactic.Push

/-!
# Lifecycle — Generations

What a replacement leaves behind, wherever it stops: the record it found, or
its successor. A stopped replacement stands in the way of no later one with the
same candidate, and the archived generations lead to the current one.
-/

namespace AgentsRemember.Lifecycle

open Checks Attempts LifecycleOperationStore

/-! ## The archived state -/

/-- The enclosure in which the current generation has been archived. -/
def Enclosure.archived (e : Enclosure) (current : LifecycleOperationRecord)
    (successorFingerprint : String) : Enclosure :=
  if missingIntent current then e.putLegacyArchive current.generation e.file
  else e.putArchive current.generation (.record (archivedRecord current successorFingerprint))

section archived
variable {e : Enclosure} {current : LifecycleOperationRecord} {fingerprint : String}

@[simp] theorem archived_file : (e.archived current fingerprint).file = e.file := by
  unfold Enclosure.archived
  split <;> rfl

theorem putArchive_of_mem {n : Nat} {content : JournalFile} (h : e.archives n = some content) :
    e.putArchive n content = e := by
  have hsame : (fun k => if k = n then some content else e.archives k) = e.archives := by
    funext k
    split
    next hk => rw [hk, h]
    next => rfl
  unfold Enclosure.putArchive
  rw [hsame]

theorem putLegacyArchive_of_mem {n : Nat} {content : JournalFile}
    (h : e.legacyArchives n = some content) : e.putLegacyArchive n content = e := by
  have hsame : (fun k => if k = n then some content else e.legacyArchives k) =
      e.legacyArchives := by
    funext k
    split
    next hk => rw [hk, h]
    next => rfl
  unfold Enclosure.putLegacyArchive
  rw [hsame]

/-- Archiving again changes nothing. -/
@[simp] theorem archived_archived :
    (e.archived current fingerprint).archived current fingerprint =
      e.archived current fingerprint := by
  unfold Enclosure.archived
  split
  · exact putLegacyArchive_of_mem (if_pos rfl)
  · exact putArchive_of_mem (if_pos rfl)

/-- The generations before the current one keep their archives. -/
theorem archived_other {n : Nat} (h : n ≠ current.generation) :
    (e.archived current fingerprint).archives n = e.archives n ∧
      (e.archived current fingerprint).legacyArchives n = e.legacyArchives n := by
  unfold Enclosure.archived
  split
  · exact ⟨rfl, if_neg h⟩
  · exact ⟨if_neg h, rfl⟩

end archived

/-! ## What an attempt does -/

/-- The identity that the successor of a record must have. -/
structure Succeeds (current candidate successor : LifecycleOperationRecord) : Prop where
  generation : successor.generation = current.generation + 1
  predecessor : successor.predecessorFingerprint = current.fingerprint
  fingerprint : successor.fingerprint = candidate.fingerprint

/-- The retention callback selects a preparation; it names the same generation. -/
def ReplacementCallbacks.RetainsIdentity (callbacks : ReplacementCallbacks) : Prop :=
  ∀ retain ∈ callbacks.retainPreparation, ∀ current validated retained,
    retain current validated = .ok retained →
      retained.toGenerationIdentity = validated.toGenerationIdentity

section plan
variable {store : LifecycleOperationStore} {callbacks : ReplacementCallbacks}
  {current candidate validated successor : LifecycleOperationRecord}

theorem succeeds_of_successorRecord (h : successorRecord current candidate = .ok validated) :
    Succeeds current candidate validated := by
  obtain ⟨rfl, -⟩ := modelValidate_ok h
  exact ⟨rfl, rfl, rfl⟩

theorem withInitialCertification_identity
    (h : withInitialCertification callbacks validated = .ok successor) :
    successor.toGenerationIdentity = validated.toGenerationIdentity := by
  unfold withInitialCertification at h
  split at h
  · cases h; rfl
  obtain ⟨⟨⟩, -, hrest⟩ := bind_eq_ok.mp h
  obtain ⟨initial, -, hrest⟩ := bind_eq_ok.mp hrest
  obtain ⟨selected, hselected, hrest⟩ := bind_eq_ok.mp hrest
  obtain ⟨⟨⟩, -, hrest⟩ := bind_eq_ok.mp hrest
  cases hrest
  rw [(modelValidate_ok hselected).1]

theorem finishSuccessor_identity (hretains : callbacks.RetainsIdentity)
    (h : finishSuccessor callbacks current validated = .ok successor) :
    successor.toGenerationIdentity = validated.toGenerationIdentity := by
  obtain ⟨certified, hcertified, hrest⟩ := bind_eq_ok.mp h
  obtain ⟨retained, hretained, hrest⟩ := bind_eq_ok.mp hrest
  obtain ⟨⟨⟩, -, hrest⟩ := bind_eq_ok.mp hrest
  cases hrest
  rw [← withInitialCertification_identity hcertified]
  unfold withRetention at hretained
  split at hretained
  next => cases hretained; rfl
  next retain hretain =>
    obtain ⟨chosen, hchosen, hvalidated⟩ := bind_eq_ok.mp hretained
    rw [(modelValidate_ok hvalidated).1]
    exact hretains retain hretain current certified chosen hchosen

theorem Succeeds.of_identity (h : Succeeds current candidate validated)
    (hsame : successor.toGenerationIdentity = validated.toGenerationIdentity) :
    Succeeds current candidate successor where
  generation := (congrArg GenerationIdentity.generation hsame).trans h.generation
  predecessor := (congrArg GenerationIdentity.predecessorFingerprint hsame).trans h.predecessor
  fingerprint := (congrArg GenerationIdentity.fingerprint hsame).trans h.fingerprint

/-- What each plan says about the record it was made from. -/
def PlanMade (callbacks : ReplacementCallbacks) (current candidate : LifecycleOperationRecord) :
    Plan → Prop
  | .already found => found = current ∧ current.fingerprint = candidate.fingerprint
  | .missingIntent found successor => found = current ∧ missingIntent current = true ∧
      ∃ validated, successorRecord current candidate = .ok validated ∧
        finishSuccessor callbacks current validated = .ok successor
  | .archive found validated predecessor => found = current ∧ missingIntent current = false ∧
      successorRecord current candidate = .ok validated ∧
      predecessor = archivedRecord current candidate.fingerprint

theorem planReplacement_ok {plan : Plan}
    (h : store.planReplacement callbacks (.record current) candidate = .ok plan) :
    PlanMade callbacks current candidate plan := by
  obtain ⟨found, hread, hrest⟩ := bind_eq_ok.mp h
  split at hrest
  · cases hrest
  obtain rfl := read_record hread
  split at hrest
  next halready => cases hrest; exact ⟨rfl, halready.1⟩
  split at hrest
  · cases hrest
  obtain ⟨⟨⟩, -, hrest⟩ := bind_eq_ok.mp hrest
  obtain ⟨validated, hvalidated, hrest⟩ := bind_eq_ok.mp hrest
  split at hrest
  next hmissing =>
    obtain ⟨successor, hsuccessor, hrest⟩ := bind_eq_ok.mp hrest
    cases hrest
    exact ⟨rfl, hmissing, validated, hvalidated, hsuccessor⟩
  next hintent =>
    obtain ⟨predecessor, hpredecessor, hrest⟩ := bind_eq_ok.mp hrest
    cases hrest
    refine ⟨rfl, by simpa using hintent, hvalidated, ?_⟩
    rw [(modelValidate_ok hpredecessor).1, (succeeds_of_successorRecord hvalidated).fingerprint]

end plan

section attempt
variable {store : LifecycleOperationStore} {callbacks : ReplacementCallbacks} {e : Enclosure}
  {current candidate : LifecycleOperationRecord}

/-- The states an attempt can go through: as it was, archived, published. -/
structure Goes (callbacks : ReplacementCallbacks) (e : Enclosure)
    (current candidate : LifecycleOperationRecord) (a : Attempt) : Prop where
  states : ∀ s ∈ a.states, s = e ∨ s = e.archived current candidate.fingerprint ∨
    ∃ successor, a.result = .ok successor ∧
      s = (e.archived current candidate.fingerprint).publish successor ∧
      (callbacks.RetainsIdentity → Succeeds current candidate successor)
  published : ∀ successor, a.result = .ok successor →
    successor = current ∧ current.fingerprint = candidate.fingerprint ∨
    a.states.getLast? = some ((e.archived current candidate.fingerprint).publish successor) ∧
      (callbacks.RetainsIdentity → Succeeds current candidate successor)

/-- An attempt that ends before it publishes. -/
theorem goes_of_error {states : List Enclosure} {message : String}
    (h : ∀ s ∈ states, s = e ∨ s = e.archived current candidate.fingerprint) :
    Goes callbacks e current candidate ⟨states, .error message⟩ where
  states s hs := (h s hs).imp_right .inl
  published _ h := nomatch h

/-- An attempt that publishes the successor last. -/
theorem goes_of_published (before : List Enclosure) {successor : LifecycleOperationRecord}
    (h : ∀ s ∈ before, s = e ∨ s = e.archived current candidate.fingerprint)
    (hsucceeds : callbacks.RetainsIdentity → Succeeds current candidate successor) :
    Goes callbacks e current candidate
      ⟨before ++ [(e.archived current candidate.fingerprint).publish successor],
        .ok successor⟩ where
  states s hs := by
    obtain hbefore | hlast := List.mem_append.mp hs
    · exact (h s hbefore).imp_right .inl
    · rw [List.mem_singleton] at hlast
      exact .inr (.inr ⟨successor, rfl, hlast, hsucceeds⟩)
  published found hfound := by
    cases hfound
    exact .inr ⟨by simp, hsucceeds⟩

theorem retireMissingIntentGeneration_goes {successor : LifecycleOperationRecord}
    (hmissing : missingIntent current = true)
    (hsucceeds : callbacks.RetainsIdentity → Succeeds current candidate successor) :
    Goes callbacks e current candidate
      (store.retireMissingIntentGeneration e current successor) := by
  have harchived : e.archived current candidate.fingerprint =
      e.putLegacyArchive current.generation e.file := if_pos hmissing
  unfold LifecycleOperationStore.retireMissingIntentGeneration
  split
  next content hcontent =>
    split
    · exact goes_of_error (by simp)
    next hsame =>
      rw [not_not] at hsame
      rw [hsame] at hcontent
      have hstays : e.archived current candidate.fingerprint = e := by
        rw [harchived, putLegacyArchive_of_mem hcontent]
      split
      · exact goes_of_error (by simp)
      · have hgoes := goes_of_published (e := e) [e] (by simp) hsucceeds
        rw [hstays] at hgoes
        exact hgoes
  next =>
    split
    · exact goes_of_error (by simp [harchived])
    · have hgoes := goes_of_published (e := e)
        [e, e.archived current candidate.fingerprint] (by simp) hsucceeds
      rw [harchived] at hgoes
      exact hgoes

theorem publishFrom_goes {validated : LifecycleOperationRecord} {before : List Enclosure}
    {archived : Enclosure} (harchived : archived = e.archived current candidate.fingerprint)
    (hbefore : ∀ s ∈ before, s = e) (hvalidated : Succeeds current candidate validated) :
    Goes callbacks e current candidate
      (store.publishFrom callbacks before archived current validated) := by
  unfold LifecycleOperationStore.publishFrom
  have hstates : ∀ s ∈ before ++ [archived],
      s = e ∨ s = e.archived current candidate.fingerprint := by
    intro s hs
    obtain hs | hs := List.mem_append.mp hs
    · exact .inl (hbefore s hs)
    · exact .inr ((List.mem_singleton.mp hs).trans harchived)
  split
  · exact goes_of_error hstates
  next retained hretained =>
    obtain ⟨finished, hfinished, hrest⟩ := bind_eq_ok.mp hretained
    obtain ⟨⟨⟩, -, hrest⟩ := bind_eq_ok.mp hrest
    cases hrest
    have hsucceeds : callbacks.RetainsIdentity → Succeeds current candidate retained :=
      fun hretains => hvalidated.of_identity (finishSuccessor_identity hretains hfinished)
    have hgoes := goes_of_published (before ++ [archived]) hstates hsucceeds
    rw [List.append_assoc, ← harchived] at hgoes
    exact hgoes

theorem archiveAndPublish_goes {validated : LifecycleOperationRecord}
    (hintent : missingIntent current = false) (hvalidated : Succeeds current candidate validated) :
    Goes callbacks e current candidate
      (store.archiveAndPublish callbacks e current validated
        (archivedRecord current candidate.fingerprint)) := by
  have harchived : e.archived current candidate.fingerprint = e.putArchive current.generation
      (.record (archivedRecord current candidate.fingerprint)) := by
    simp [Enclosure.archived, hintent]
  unfold LifecycleOperationStore.archiveAndPublish
  split
  next content hcontent =>
    split
    · exact goes_of_error (by simp)
    next hsame =>
      rw [not_not] at hsame
      rw [hsame] at hcontent
      refine publishFrom_goes ?_ (by simp) hvalidated
      rw [harchived, putArchive_of_mem hcontent]
  next => exact publishFrom_goes harchived.symm (by simp) hvalidated

theorem replaceTerminal_goes (hfile : e.file = .record current) :
    Goes callbacks e current candidate (store.replaceTerminal callbacks e candidate) := by
  unfold LifecycleOperationStore.replaceTerminal
  rw [hfile]
  split
  · exact goes_of_error (by simp)
  next found hplan =>
    obtain ⟨rfl, hfingerprint⟩ := planReplacement_ok hplan
    exact ⟨by simp, fun _ h => by cases h; exact .inl ⟨rfl, hfingerprint⟩⟩
  next found successor hplan =>
    obtain ⟨rfl, hmissing, validated, hvalidated, hfinished⟩ := planReplacement_ok hplan
    exact retireMissingIntentGeneration_goes hmissing fun hretains =>
      (succeeds_of_successorRecord hvalidated).of_identity
        (finishSuccessor_identity hretains hfinished)
  next found validated predecessor hplan =>
    obtain ⟨rfl, hintent, hvalidated, rfl⟩ := planReplacement_ok hplan
    exact archiveAndPublish_goes hintent (succeeds_of_successorRecord hvalidated)

/-! ## Another attempt -/

theorem retireMissingIntentGeneration_result {successor found : LifecycleOperationRecord} :
    (store.retireMissingIntentGeneration e current successor).result = .ok found ↔
      (∀ content ∈ e.legacyArchives current.generation, content = e.file) ∧
        store.requireWritable successor = .ok () ∧ found = successor := by
  unfold LifecycleOperationStore.retireMissingIntentGeneration
  split
  next content hcontent =>
    split
    next hother => simp [hcontent, hother]
    next hsame =>
      split
      next hwritable => simp [hwritable]
      next hwritable =>
        rw [not_not] at hsame
        simp [hcontent, hsame, hwritable, eq_comm]
  next hnone =>
    split
    next hwritable => simp [hwritable]
    next hwritable => simp [hnone, hwritable, eq_comm]

theorem publishFrom_result {validated found : LifecycleOperationRecord}
    {before : List Enclosure} {archived : Enclosure} :
    (store.publishFrom callbacks before archived current validated).result = .ok found ↔
      store.publishSuccessor callbacks current validated = .ok found := by
  unfold LifecycleOperationStore.publishFrom
  split
  next h => simp [h]
  next h => simp [h]

theorem archiveAndPublish_result {validated predecessor found : LifecycleOperationRecord} :
    (store.archiveAndPublish callbacks e current validated predecessor).result = .ok found ↔
      (∀ content ∈ e.archives current.generation, content = .record predecessor) ∧
        store.publishSuccessor callbacks current validated = .ok found := by
  unfold LifecycleOperationStore.archiveAndPublish
  split
  next content hcontent =>
    split
    next hother => simp [hcontent, hother]
    next hsame =>
      rw [not_not] at hsame
      simp [publishFrom_result, hcontent, hsame]
  next hnone => simp [publishFrom_result, hnone]

/-- An attempt that would have succeeded still does once the current record is
archived, for the same successor or as it was. -/
theorem replaceTerminal_archived {successor : LifecycleOperationRecord} {fingerprint : String}
    (hfile : e.file = .record current)
    (hsame : missingIntent current = true ∨ candidate.fingerprint = fingerprint)
    (h : (store.replaceTerminal callbacks e candidate).result = .ok successor) :
    (store.replaceTerminal callbacks (e.archived current fingerprint) candidate).result =
      .ok successor := by
  unfold LifecycleOperationStore.replaceTerminal at h ⊢
  rw [archived_file]
  rw [hfile] at h ⊢
  split at h
  · cases h
  next => exact h
  next found next hplan =>
    obtain ⟨rfl, hmissing, -⟩ := planReplacement_ok hplan
    obtain ⟨-, hwritable⟩ := retireMissingIntentGeneration_result.mp h
    refine retireMissingIntentGeneration_result.mpr ⟨?_, hwritable⟩
    intro content hcontent
    simpa [Enclosure.archived, hmissing, Enclosure.putLegacyArchive, eq_comm] using hcontent
  next found validated predecessor hplan =>
    obtain ⟨rfl, hintent, hvalidated, rfl⟩ := planReplacement_ok hplan
    obtain ⟨-, hpublished⟩ := archiveAndPublish_result.mp h
    refine archiveAndPublish_result.mpr ⟨?_, hpublished⟩
    obtain hmissing | rfl := hsame
    · rw [hmissing] at hintent; cases hintent
    intro content hcontent
    simpa [Enclosure.archived, hintent, Enclosure.putArchive, eq_comm] using hcontent

end attempt

/-! ## Runs -/

/-- What happens to an enclosure: a write within the generation, or an attempt
at its replacement that reaches the given one of its states. -/
inductive Move where
  | write (w : WriteCall)
  | replace (callbacks : ReplacementCallbacks) (candidate : LifecycleOperationRecord) (stop : Nat)

/-- One move over an enclosure; none where it is refused. -/
def LifecycleOperationStore.move (store : LifecycleOperationStore) (e : Enclosure) :
    Move → Option Enclosure
  | .write w =>
    match e.file with
    | .record current => (store.write current w).map e.publish
    | _ => none
  | .replace callbacks candidate stop => (store.replaceTerminal callbacks e candidate).states[stop]?

/-- An attempt with the same candidate, or any where the archive names none. -/
def Move.Repeats (current candidate : LifecycleOperationRecord) : Move → Prop
  | .write _ => False
  | .replace _ other _ => missingIntent current = true ∨ other.fingerprint = candidate.fingerprint

/-- The callbacks of a replacement keep the identity. -/
def Move.RetainsIdentity : Move → Prop
  | .write _ => True
  | .replace callbacks _ _ => callbacks.RetainsIdentity

/-- The archive of a replaced generation: it names the successor, or it is the
exact file where the generation binds no task intent. -/
def Archived (e : Enclosure) (replaced : LifecycleOperationRecord) (fingerprint : String) : Prop :=
  if missingIntent replaced then
    e.legacyArchives replaced.generation = some (.record replaced)
  else e.archives replaced.generation = some (.record (archivedRecord replaced fingerprint))

/-- A generation that replaced the one before it. -/
structure Link (e : Enclosure) (replaced successor : LifecycleOperationRecord) : Prop where
  generation : successor.generation = replaced.generation + 1
  predecessor : successor.predecessorFingerprint = replaced.fingerprint
  archived : Archived e replaced successor.fingerprint

/-- The generations from the first to this one, each linked to the one before. -/
inductive Chain (e : Enclosure) (first : GenerationIdentity) : LifecycleOperationRecord → Prop
  | first {record : LifecycleOperationRecord} (h : record.toGenerationIdentity = first) :
      Chain e first record
  | next {replaced successor : LifecycleOperationRecord} (h : Chain e first replaced)
      (hlink : Link e replaced successor) : Chain e first successor

section chain
variable {e : Enclosure} {first : GenerationIdentity}
  {current updated successor : LifecycleOperationRecord}

theorem Chain.of_identity (h : Chain e first current)
    (hsame : updated.toGenerationIdentity = current.toGenerationIdentity) :
    Chain e first updated := by
  cases h with
  | first hfirst => exact .first (hsame.trans hfirst)
  | next hbefore hlink =>
    refine .next hbefore ⟨?_, ?_, ?_⟩
    · exact (congrArg GenerationIdentity.generation hsame).trans hlink.generation
    · exact (congrArg GenerationIdentity.predecessorFingerprint hsame).trans hlink.predecessor
    · rw [congrArg GenerationIdentity.fingerprint hsame]
      exact hlink.archived

/-- A chain looks only at the archives of the generations before its last. -/
theorem Chain.of_archives {e' : Enclosure} (h : Chain e first current)
    (hsame : ∀ n < current.generation,
      e'.archives n = e.archives n ∧ e'.legacyArchives n = e.legacyArchives n) :
    Chain e' first current := by
  induction h with
  | first hfirst => exact .first hfirst
  | @next replaced successor hbefore hlink ih =>
    have hlt : replaced.generation < successor.generation := by
      have := hlink.generation
      omega
    refine .next (ih fun n hn => hsame n (by omega)) ⟨hlink.generation, hlink.predecessor, ?_⟩
    obtain ⟨harchives, hlegacy⟩ := hsame _ hlt
    simpa only [Archived, harchives, hlegacy] using hlink.archived

theorem archived_archived_record (fingerprint : String) (hfile : e.file = .record current) :
    Archived (e.archived current fingerprint) current fingerprint := by
  unfold Archived Enclosure.archived
  split
  · simp [Enclosure.putLegacyArchive, hfile]
  · simp [Enclosure.putArchive]

theorem Chain.archived (fingerprint : String) (h : Chain e first current) :
    Chain (e.archived current fingerprint) first current :=
  h.of_archives fun _ hn => archived_other (Nat.ne_of_lt hn)

theorem Chain.publish {candidate : LifecycleOperationRecord} (h : Chain e first current)
    (hfile : e.file = .record current) (hsucceeds : Succeeds current candidate successor) :
    Chain ((e.archived current candidate.fingerprint).publish successor) first successor := by
  have hchain : Chain ((e.archived current candidate.fingerprint).publish successor) first
      current :=
    (h.archived candidate.fingerprint).of_archives fun _ _ => ⟨rfl, rfl⟩
  refine .next hchain ⟨hsucceeds.generation, hsucceeds.predecessor, ?_⟩
  rw [hsucceeds.fingerprint]
  exact archived_archived_record candidate.fingerprint hfile

end chain

section runs
variable {store : LifecycleOperationStore} {first : GenerationIdentity}

/-- The current record ends the chain of its generations. -/
def Chained (first : GenerationIdentity) (e : Enclosure) : Prop :=
  ∃ current, e.file = .record current ∧ Chain e first current

theorem chained_move {e e' : Enclosure} {m : Move} (h : Chained first e)
    (hm : store.move e m = some e') (hretains : m.RetainsIdentity) : Chained first e' := by
  obtain ⟨current, hfile, hchain⟩ := h
  cases m with
  | write w =>
    simp only [LifecycleOperationStore.move, hfile, Option.map_eq_some_iff] at hm
    obtain ⟨updated, hw, rfl⟩ := hm
    have hidentity := (envelope_ok (write_accepted hw).envelope).identity
    exact ⟨updated, rfl, (hchain.of_identity hidentity).of_archives fun _ _ => ⟨rfl, rfl⟩⟩
  | replace callbacks candidate stop =>
    have hgoes : Goes callbacks e current candidate (store.replaceTerminal callbacks e candidate) :=
      replaceTerminal_goes hfile
    obtain rfl | rfl | ⟨successor, -, rfl, hsucceeds⟩ :=
      hgoes.states e' (List.mem_of_getElem? hm)
    · exact ⟨current, hfile, hchain⟩
    · exact ⟨current, archived_file.trans hfile, hchain.archived _⟩
    · exact ⟨successor, rfl, hchain.publish hfile (hsucceeds hretains)⟩

section retry
variable {callbacks : ReplacementCallbacks} {e s : Enclosure}
  {current candidate : LifecycleOperationRecord}

theorem archived_repeats {other : LifecycleOperationRecord}
    (h : missingIntent current = true ∨ other.fingerprint = candidate.fingerprint) :
    e.archived current other.fingerprint = e.archived current candidate.fingerprint := by
  unfold Enclosure.archived
  obtain hmissing | hfingerprint := h
  · rw [if_pos hmissing, if_pos hmissing]
  · rw [hfingerprint]

/-- Attempts that published nothing have at most archived the current record. -/
theorem stopped_run {ls : List Move} (hfile : e.file = .record current)
    (hrun : Runs.run store.move e ls = some s)
    (hstopped : Runs.Along store.move
      (fun _ m s' => m.Repeats current candidate ∧ s'.file = e.file) e ls) :
    s = e ∨ s = e.archived current candidate.fingerprint := by
  refine hstopped.invariant (I := fun s => s = e ∨ s = e.archived current candidate.fingerprint)
    ?_ (.inl rfl) hrun
  intro u m u' hu hm hstep
  obtain ⟨hrepeats, hkept⟩ := hstep
  have hufile : u.file = e.file := by
    obtain rfl | rfl := hu
    · rfl
    · exact archived_file
  have huarchived : u.archived current candidate.fingerprint =
      e.archived current candidate.fingerprint := by
    obtain rfl | rfl := hu
    · rfl
    · exact archived_archived
  cases m with
  | write w => exact hrepeats.elim
  | replace callbacks other stop =>
    have hgoes : Goes callbacks u current other (store.replaceTerminal callbacks u other) :=
      replaceTerminal_goes (hufile.trans hfile)
    have harchived := (archived_repeats (e := u) hrepeats).trans huarchived
    obtain rfl | rfl | ⟨successor, -, rfl, -⟩ := hgoes.states u' (List.mem_of_getElem? hm)
    · exact hu
    · exact .inr harchived
    · -- what was published is what was there
      right
      rw [harchived] at hkept ⊢
      have hsame : (e.archived current candidate.fingerprint).file = .record successor :=
        archived_file.trans hkept.symm
      unfold Enclosure.publish
      rw [← hsame]

end retry

/-- A replacement that stops leaves the record it found, one that returns leaves
the successor it returns; stopped attempts do not keep the candidate from
succeeding later; and the generations of every run form one chain. -/
theorem replacement_atomic_and_retryable (store : LifecycleOperationStore) (e : Enclosure)
    (current : LifecycleOperationRecord) (hfile : e.file = .record current) :
    (∀ callbacks candidate, ∀ s ∈ (store.replaceTerminal callbacks e candidate).states,
      s.file = e.file ∨ ∃ successor,
        (store.replaceTerminal callbacks e candidate).result = .ok successor ∧
          s.file = .record successor) ∧
    (∀ callbacks candidate successor ls s,
      (store.replaceTerminal callbacks e candidate).result = .ok successor →
      Runs.run store.move e ls = some s →
      Runs.Along store.move (fun _ m s' => m.Repeats current candidate ∧ s'.file = e.file) e ls →
      (store.replaceTerminal callbacks s candidate).result = .ok successor) ∧
    (∀ callbacks candidate successor, callbacks.RetainsIdentity →
      (store.replaceTerminal callbacks e candidate).result = .ok successor →
      successor = current ∧ current.fingerprint = candidate.fingerprint ∨
      ∃ s, (store.replaceTerminal callbacks e candidate).states.getLast? = some s ∧
        s.file = .record successor ∧ successor.fingerprint = candidate.fingerprint ∧
        Link s current successor) ∧
    (∀ ls s, Runs.run store.move e ls = some s → (∀ m ∈ ls, m.RetainsIdentity) →
      Chained current.toGenerationIdentity s) := by
  refine ⟨?_, ?_, ?_, ?_⟩
  · intro callbacks candidate s hs
    obtain rfl | rfl | ⟨successor, hresult, rfl, -⟩ := (replaceTerminal_goes hfile).states s hs
    · exact .inl rfl
    · exact .inl archived_file
    · exact .inr ⟨successor, hresult, rfl⟩
  · intro callbacks candidate successor ls s hresult hrun hstopped
    obtain rfl | rfl := stopped_run hfile hrun hstopped
    · exact hresult
    · exact replaceTerminal_archived hfile (.inr rfl) hresult
  · intro callbacks candidate successor hretains hresult
    obtain halready | ⟨hlast, hsucceeds⟩ := (replaceTerminal_goes hfile).published successor hresult
    · exact .inl halready
    · have hs := hsucceeds hretains
      refine .inr ⟨_, hlast, rfl, hs.fingerprint, hs.generation, hs.predecessor, ?_⟩
      rw [hs.fingerprint]
      exact archived_archived_record candidate.fingerprint hfile
  · intro ls s hrun hretains
    have hsteps : Runs.Along store.move (fun _ m _ => m.RetainsIdentity) e ls := by
      apply Runs.along_of_forall
      intro pre m post hls _ _ _ _
      exact hretains m (by rw [hls]; simp)
    exact hsteps.invariant (fun _ _ _ h hm hretained => chained_move h hm hretained)
      ⟨current, hfile, .first rfl⟩ hrun

end runs

/-! ## A candidate that is shut out -/

/-- The integration, its worker gone. -/
def releasedIntegration : LifecycleOperationRecord :=
  { completedIntegration with
    workerPid := none, workerLease := none, workerProcessFingerprint := none }

/-- The successor of a released integration. -/
def nextIntegration (fingerprint : String) : LifecycleOperationRecord :=
  { releasedIntegration with
    status := .queued, phase := .queued, candidateState := "dd", fingerprint := fingerprint }

/-- The enclosure of a released integration. -/
def releasedEnclosure : Enclosure := { file := .record releasedIntegration }

/-- A retention callback that raises. -/
def raisingRetention : ReplacementCallbacks :=
  { retainPreparation := some fun _ _ => .error "retention is unavailable" }

theorem replacement_atomic_and_retryable_raised : ∃ successor s,
    successor.generation = 2 ∧
      integrateStore.move releasedEnclosure (.replace raisingRetention (nextIntegration "f2") 1) =
        some s ∧
      (integrateStore.replaceTerminal {} s (nextIntegration "f2")).result = .ok successor := by
  have hresult : ((integrateStore.replaceTerminal {} releasedEnclosure
      (nextIntegration "f2")).result.toOption.map fun r => r.generation) = some 2 := by
    decide +kernel
  have hmove : ((integrateStore.move releasedEnclosure
      (.replace raisingRetention (nextIntegration "f2") 1)).map fun s => s.file) =
        some releasedEnclosure.file := by
    decide +kernel
  obtain ⟨successor, hsuccessor, hgeneration⟩ := Option.map_eq_some_iff.mp hresult
  obtain ⟨s, hs, hkept⟩ := Option.map_eq_some_iff.mp hmove
  refine ⟨successor, s, hgeneration, hs, ?_⟩
  refine (replacement_atomic_and_retryable integrateStore releasedEnclosure releasedIntegration
    rfl).2.1 {} (nextIntegration "f2") successor
      [.replace raisingRetention (nextIntegration "f2") 1] s ?_
      (Runs.run_cons_eq_some.mpr ⟨s, hs, rfl⟩) ?_
  · cases hattempt : (integrateStore.replaceTerminal {} releasedEnclosure
      (nextIntegration "f2")).result with
    | error message => rw [hattempt] at hsuccessor; cases hsuccessor
    | ok found => rw [hattempt] at hsuccessor; cases hsuccessor; rfl
  · intro s' hs'
    cases hs.symm.trans hs'
    exact ⟨⟨.inr rfl, hkept⟩, trivial⟩

/-- A completed direct landing, which binds no task intent. -/
def landing (fingerprint : String) : LifecycleOperationRecord where
  taskId := "260801-L1"
  taskName := "leaf"
  contractPath := "/coord/tasks/repo/leaf/enclosures/contract.md"
  operationKind := .directLanding
  candidateState := "cc"
  fingerprint := fingerprint
  operationKey := "k1"
  input := .directLanding ⟨"direct", "series", .external, .notApplicable "no code change",
    .notApplicable "no memory change"⟩ "approved" ""
  reportPath := "/coord/tasks/repo/leaf/.lifecycle/direct-landing-operation.log"
  status := .completed
  phase := .completed
  queuedAt := "2026-08-24T00:00:00+00:00"

/-- The store of a direct landing. -/
def landingStore : LifecycleOperationStore := ⟨some .directLanding⟩

/-- The enclosure of a direct landing. -/
def landingEnclosure : Enclosure := { file := .record (landing "f1") }

/-- The archive that a stopped replacement leaves refuses another candidate, which
was admissible before; and a direct landing is replaced with no archive that
names its successor. -/
theorem another_candidate_shut_out :
    ((integrateStore.replaceTerminal {} releasedEnclosure (nextIntegration "f3")).result.toOption.map
        fun r => r.generation) = some 2 ∧
    ((integrateStore.move releasedEnclosure
        (.replace raisingRetention (nextIntegration "f2") 1)).map fun s =>
      (s.file, (integrateStore.replaceTerminal {} s (nextIntegration "f3")).result)) =
        some (releasedEnclosure.file,
          .error "lifecycle generation archive contradicts durable history") ∧
    ((landingStore.replaceTerminal {} landingEnclosure (landing "f2")).result.toOption.map
        fun r => r.generation) = some 2 ∧
    ((landingStore.replaceTerminal {} landingEnclosure (landing "f2")).states.getLast?.map
        fun s => (s.archives 1, s.legacyArchives 1)) = some (none, some landingEnclosure.file) := by
  refine ⟨?_, ?_, ?_, ?_⟩ <;> decide +kernel

end AgentsRemember.Lifecycle
