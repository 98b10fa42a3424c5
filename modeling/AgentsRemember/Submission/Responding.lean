import Mathlib.Data.List.Perm.Basic
import Mathlib.Data.List.Perm.Subperm
import AgentsRemember.Submission.Absorbing
import AgentsRemember.Submission.Floor

/-!
# Submission — Responding

`HarnessSubmissionAuthority.respond`: the answers to the vendor's pending
interactions, which bypass the ordinary lane. The authority of the other
modules runs beside it unchanged; what a coroutine of `respond` holds across
an `await` is one `Responding` here, in the list of the place it stands at.
-/

namespace AgentsRemember.Submission

/-- The identity of a control session. -/
structure ControlIdentity where
  arSessionId : String
  tmuxName : String
  createdAt : String
  deriving DecidableEq

/-- What `respond` reads of an entry: its id and `raw.get("threadId")`. -/
structure PendingInteraction where
  interactionId : String
  threadId : Option String := none

/-- The part of the bridge's snapshot that `respond` reads besides
`AdapterSnapshot`. The authority's own snapshots copy it. -/
structure InteractionView where
  identity : ControlIdentity
  vendorSessionId : Option String := none
  pendingInteraction : Option PendingInteraction := none
  pendingInteractions : List PendingInteraction := []

/-- An answer to an interaction. -/
structure InteractionResponse where
  interactionId : String
  response : String
  respondedAt : String
  operation : Option ControlOperationRef := none

/-- What an answer is refused with. -/
inductive RespondError where
  | control (message : String)
  | interactionNotPending (message : String)

/-- One call of `respond` past its lock block. `parent` and `activeThen` say
what it was admitted as and under; the code keeps neither. -/
structure Responding where
  response : InteractionResponse
  parent : Bool
  activeThen : Option ControlOperationRef

namespace InteractionView

/-- The pending interaction of that id. -/
def matchedEntry (v : InteractionView) (interactionId : String) : Option PendingInteraction :=
  v.pendingInteractions.find? (·.interactionId = interactionId)

/-- The single pending interaction has that id. -/
def singularMatch (v : InteractionView) (interactionId : String) : Bool :=
  v.pendingInteraction.any (·.interactionId = interactionId)

/-- An entry of the tuple is the parent's by its thread, whichever slot
carries it. -/
def isParent (v : InteractionView) (interactionId : String) : Bool :=
  v.singularMatch interactionId ||
    (v.matchedEntry interactionId).any (·.threadId = v.vendorSessionId)

end InteractionView

/-- `active_operation`. -/
def Authority.activeOperation (a : Authority) : Option ControlOperationRef :=
  a.activeRecord.map (·.ref)

/-- The authority with its calls of `respond`, by the `await` they stand at. -/
structure Interactions where
  authority : Authority
  view : InteractionView
  /-- waiting for `_response_lane` -/
  waiting : List Responding := []
  /-- in `adapter.respond`, holding the lane -/
  calling : Option Responding := none
  /-- the adapter raised; waiting for the lock -/
  failed : List Responding := []
  /-- the adapter returned; in `adapter.snapshot` -/
  refreshing : List Responding := []
  /-- the calls made on the adapter, in order -/
  calls : List Responding := []
  /-- the interactions whose call on the adapter returned, in order -/
  answered : List String := []

namespace Interactions

/-- A session that has just begun. -/
def start (config : AuthorityConfig) (snapshot : AdapterSnapshot) (view : InteractionView) :
    Interactions :=
  { authority := Authority.start config snapshot, view := view }

/-- The guards of `respond` but the last: the operation the answer carries. -/
def responseOperation (s : Interactions) (interactionId : String) :
    Except RespondError (Option ControlOperationRef) :=
  if s.authority.accepting = false then
    .error (.control "submission authority is stopped")
  else if s.view.singularMatch interactionId = false ∧
      (s.view.matchedEntry interactionId).isNone then
    .error (.interactionNotPending "interaction response does not match the pending interaction")
  else if s.view.isParent interactionId then
    match s.authority.activeRecord with
    | none =>
      .error (.interactionNotPending "interaction response has no active ordinary operation")
    | some active =>
      if active.state = .dispatching ∨ active.state = .delivered ∨ active.state = .unknown then
        .ok (some active.ref)
      else
        .error (.interactionNotPending "interaction response has no active ordinary operation")
  -- an agent's interaction belongs to no ordinary operation
  else .ok none

/-- What `respond` holds when its lock block lets the response through. -/
def responding (s : Interactions) (response : InteractionResponse)
    (operation : Option ControlOperationRef) : Responding :=
  { response := { response with operation := operation }
    parent := s.view.isParent response.interactionId
    activeThen := s.authority.activeOperation }

/-- The answer is remembered before it is sent. -/
def admitResponse (s : Interactions) (response : InteractionResponse)
    (operation : Option ControlOperationRef) : Interactions :=
  { s with
    authority := { s.authority with
      respondedInteractions := s.authority.respondedInteractions ++ [response.interactionId] }
    waiting := s.waiting ++ [s.responding response operation] }

/-- The lock block of `respond`. -/
def respond (s : Interactions) (response : InteractionResponse) :
    Except RespondError Responding × Interactions :=
  match s.responseOperation response.interactionId with
  | .error e => (.error e, s)
  | .ok operation =>
    if response.interactionId ∈ s.authority.respondedInteractions then
      (.error (.interactionNotPending "interaction response was already submitted"), s)
    else (.ok (s.responding response operation), s.admitResponse response operation)

/-- A step of a responder, or of the authority. -/
inductive Move where
  /-- any lock block or adapter answer of the ordinary operations -/
  | authority (l : Step)
  /-- the bridge installs a snapshot -/
  | snapshotUpdated (snapshot : AdapterSnapshot) (view : InteractionView)
  | respond (response : InteractionResponse)
  /-- the `i`-th waiting call takes the lane -/
  | call (i : Nat)
  /-- `adapter.respond` returned, or raised -/
  | reply (returned : Bool)
  /-- the `i`-th failed call takes the lock and forgets its interaction -/
  | discard (i : Nat)
  /-- the `i`-th answered call gets the adapter's snapshot; `none` is an exception -/
  | refresh (i : Nat) (snapshot : Option (AdapterSnapshot × InteractionView))
  /-- the task of a call is cancelled, which `except Exception` does not catch -/
  | cancelWaiting (i : Nat)
  | cancelCalling
  | cancelFailed (i : Nat)
  | cancelRefreshing (i : Nat)

/-- The lock block of a failed call. -/
def discarded (s : Interactions) (i : Nat) (c : Responding) : Interactions :=
  { s with
    failed := s.failed.eraseIdx i
    authority := { s.authority with
      respondedInteractions :=
        s.authority.respondedInteractions.erase c.response.interactionId } }

/-- One step. -/
def step (s : Interactions) : Move → Option Interactions
  | .authority l => (s.authority.step l).map fun a => { s with authority := a }
  | .snapshotUpdated snapshot view =>
    some { s with authority := s.authority.notifySnapshotUpdated snapshot, view := view }
  | .respond response => some (s.respond response).2
  | .call i =>
    match s.waiting[i]?, s.calling with
    | some c, none => some { s with
        waiting := s.waiting.eraseIdx i
        calling := some c
        calls := s.calls ++ [c] }
    | _, _ => none
  | .reply returned =>
    match s.calling with
    | none => none
    | some c =>
      if returned then some { s with
        calling := none
        refreshing := s.refreshing ++ [c]
        answered := s.answered ++ [c.response.interactionId] }
      else some { s with calling := none, failed := s.failed ++ [c] }
  | .discard i => s.failed[i]?.map (s.discarded i)
  | .refresh i snapshot =>
    match s.refreshing[i]?, snapshot with
    | none, _ => none
    | some _, none => some { s with refreshing := s.refreshing.eraseIdx i }
    | some _, some (snapshot, view) =>
      -- the answer of another adapter is refused, and nothing is published
      if view.identity ≠ s.view.identity then
        some { s with refreshing := s.refreshing.eraseIdx i }
      else some { s with
        refreshing := s.refreshing.eraseIdx i
        authority := { s.authority with snapshot := snapshot }
        view := view }
  | .cancelWaiting i =>
    if i < s.waiting.length then some { s with waiting := s.waiting.eraseIdx i } else none
  | .cancelCalling => if s.calling.isSome then some { s with calling := none } else none
  | .cancelFailed i =>
    if i < s.failed.length then some { s with failed := s.failed.eraseIdx i } else none
  | .cancelRefreshing i =>
    if i < s.refreshing.length then some { s with refreshing := s.refreshing.eraseIdx i }
    else none

/-! ## What a step does to the answers -/

/-- The interactions whose answer is on its way to the adapter or was taken by
it: a call of theirs was admitted and has not failed. -/
def sent (s : Interactions) : List String :=
  s.answered ++ (s.calling.toList ++ s.waiting).map (·.response.interactionId)

/-- With those whose failure is not yet forgotten. -/
def busy (s : Interactions) : List String :=
  s.sent ++ s.failed.map (·.response.interactionId)

/-- The guards before the answered set let a response to this interaction through. -/
def Asked (s : Interactions) (interactionId : String) : Prop :=
  (s.responseOperation interactionId).isOk = true

theorem asked_of_ok {s : Interactions} {interactionId : String} {operation}
    (h : s.responseOperation interactionId = .ok operation) : s.Asked interactionId := by
  simp [Asked, h, Except.isOk, Except.toBool]

/-- `respond` refuses and changes nothing, or it admits the call. -/
theorem respond_cases (s : Interactions) (response : InteractionResponse) :
    ((s.respond response).2 = s ∧ (s.Asked response.interactionId →
      response.interactionId ∈ s.authority.respondedInteractions)) ∨
    ∃ operation, s.responseOperation response.interactionId = .ok operation ∧
      response.interactionId ∉ s.authority.respondedInteractions ∧
      (s.respond response).2 = s.admitResponse response operation := by
  unfold respond
  cases hop : s.responseOperation response.interactionId with
  | error e =>
    left
    refine ⟨rfl, ?_⟩
    intro h
    rw [Asked, hop] at h
    cases h
  | ok operation =>
    by_cases hin : response.interactionId ∈ s.authority.respondedInteractions
    · left
      simp [hin]
    · right
      exact ⟨operation, rfl, hin, by simp [hin]⟩

theorem eraseIdx_perm {α : Type} {l : List α} {i : Nat} {x : α} (h : l[i]? = some x) :
    (x :: l.eraseIdx i).Perm l := by
  obtain ⟨hi, rfl⟩ := List.getElem?_eq_some_iff.mp h
  exact List.getElem_cons_eraseIdx_perm hi

/-- What a step can do to the answers. -/
inductive Effect (s : Interactions) : Move → Interactions → Prop where
  /-- none is new, and the answered set stays -/
  | fewer (m : Move) (s' : Interactions) (sent : s'.sent.Subperm s.sent)
      (busy : s'.busy.Subperm s.busy)
      (responded : s'.authority.respondedInteractions = s.authority.respondedInteractions) :
      Effect s m s'
  | ordinary (l : Step) (a : Authority) (h : s.authority.step l = some a) :
      Effect s (.authority l) { s with authority := a }
  | admitted (response : InteractionResponse) (operation : Option ControlOperationRef)
      (h : s.responseOperation response.interactionId = .ok operation)
      (new : response.interactionId ∉ s.authority.respondedInteractions) :
      Effect s (.respond response) (s.admitResponse response operation)
  | discarded (i : Nat) (c : Responding) (h : s.failed[i]? = some c) :
      Effect s (.discard i) (s.discarded i c)

theorem Effect.of_same {s s' : Interactions} {m : Move} (hsent : s'.sent = s.sent)
    (hfailed : s'.failed.Sublist s.failed)
    (hresp : s'.authority.respondedInteractions = s.authority.respondedInteractions) :
    Effect s m s' := by
  refine .fewer m s' (by rw [hsent]) ?_ hresp
  unfold busy
  rw [hsent]
  exact ((hfailed.map _).append_left _).subperm

theorem Effect.of_sublist {s s' : Interactions} {m : Move} (hsent : s'.sent.Sublist s.sent)
    (hfailed : s'.failed = s.failed)
    (hresp : s'.authority.respondedInteractions = s.authority.respondedInteractions) :
    Effect s m s' := by
  refine .fewer m s' hsent.subperm ?_ hresp
  unfold busy
  rw [hfailed]
  exact (hsent.append_right _).subperm

theorem step_effect {s s' : Interactions} {m : Move} (h : s.step m = some s') :
    s.Effect m s' := by
  cases m with
  | authority l =>
    obtain ⟨a, ha, rfl⟩ := Option.map_eq_some_iff.mp h
    exact .ordinary l a ha
  | snapshotUpdated snapshot view =>
    cases h
    exact .of_same rfl (.refl _) rfl
  | respond response =>
    cases h
    rcases s.respond_cases response with ⟨he, -⟩ | ⟨operation, hop, hnew, he⟩
    · rw [he]
      exact .of_same rfl (.refl _) rfl
    · rw [he]
      exact .admitted response operation hop hnew
  | call i =>
    simp only [step] at h
    split at h
    · rename_i c hc hnone
      cases h
      -- the call moves from the queue to the lane
      have hp := (eraseIdx_perm hc).map (·.response.interactionId)
      have hsent := hp.append_left s.answered
      refine .fewer _ _ ?_ ?_ rfl
      · simp only [sent, hnone]
        exact hsent.subperm
      · simp only [busy, sent, hnone]
        exact (hsent.append_right _).subperm
    · cases h
  | reply returned =>
    simp only [step] at h
    split at h
    · cases h
    rename_i c hc
    split at h
    · cases h
      refine .of_same ?_ (.refl _) rfl
      simp [sent, hc]
    · cases h
      -- a failed call is no longer sent, but still busy
      refine .fewer _ _ ?_ ?_ rfl
      · refine List.Sublist.subperm ?_
        simp [sent, hc]
      · refine List.Perm.subperm ?_
        simp only [busy, sent, hc, Option.toList_some, Option.toList_none, List.nil_append,
          List.map_append, List.map_cons, List.map_nil, List.append_assoc, List.cons_append]
        refine List.Perm.append_left _ ?_
        rw [← List.append_assoc]
        exact List.perm_append_singleton _ _
  | discard i =>
    obtain ⟨c, hc, rfl⟩ := Option.map_eq_some_iff.mp h
    exact .discarded i c hc
  | refresh i snapshot =>
    simp only [step] at h
    split at h
    · cases h
    · cases h
      exact .of_same rfl (.refl _) rfl
    · split at h
      all_goals
        cases h
        exact .of_same rfl (.refl _) rfl
  | cancelWaiting i =>
    simp only [step] at h
    split at h
    · cases h
      refine .of_sublist ?_ rfl rfl
      simp only [sent, List.map_append]
      exact (((List.eraseIdx_sublist s.waiting i).map _).append_left _).append_left _
    · cases h
  | cancelCalling =>
    simp only [step] at h
    split at h
    · cases h
      refine .of_sublist ?_ rfl rfl
      simp [sent]
    · cases h
  | cancelFailed i =>
    simp only [step] at h
    split at h
    · cases h
      exact .of_same rfl (List.eraseIdx_sublist s.failed i) rfl
    · cases h
  | cancelRefreshing i =>
    simp only [step] at h
    split at h
    · cases h
      exact .of_same rfl (.refl _) rfl
    · cases h

theorem admit_sent (s : Interactions) (response : InteractionResponse)
    (operation : Option ControlOperationRef) :
    (s.admitResponse response operation).sent.Perm (response.interactionId :: s.sent) := by
  simp only [sent, admitResponse, responding, List.map_append, List.map_cons, List.map_nil,
    ← List.append_assoc]
  exact List.perm_append_singleton _ _

theorem admit_busy (s : Interactions) (response : InteractionResponse)
    (operation : Option ControlOperationRef) :
    (s.admitResponse response operation).busy.Perm (response.interactionId :: s.busy) :=
  (s.admit_sent response operation).append_right _

theorem nodup_of_subperm {α : Type} {l l' : List α} (h : l'.Subperm l) (hl : l.Nodup) :
    l'.Nodup := by
  obtain ⟨k, hk, hsub⟩ := h
  exact hk.nodup_iff.mp (hl.sublist hsub)

/-! ## Answered once -/

/-- A response to an interaction whose answer was sent finds it in the answered
set, unless another guard refuses it anyway. -/
def Remembered (s : Interactions) : Move → Prop
  | .respond response => s.Asked response.interactionId → response.interactionId ∈ s.sent →
      response.interactionId ∈ s.authority.respondedInteractions
  | _ => True

/-- An interaction whose answer was sent is not open: `respond` changes nothing. -/
def RefusesSent (s : Interactions) (m : Move) (s' : Interactions) : Prop :=
  ∀ response, m = .respond response → response.interactionId ∈ s.sent → s' = s

theorem remembered_iff_refusesSent {s s' : Interactions} {m : Move} (h : s.step m = some s') :
    s.Remembered m ↔ s.RefusesSent m s' := by
  cases m with
  | respond response =>
    cases h
    rcases s.respond_cases response with ⟨he, hin⟩ | ⟨operation, hop, hnew, he⟩
    · refine iff_of_true (fun hasked _ => hin hasked) ?_
      intro response' hm _
      cases hm
      exact he
    · constructor
      · intro hrem response' hm hsent
        cases hm
        exact absurd (hrem (asked_of_ok hop) hsent) hnew
      · intro href _ hsent
        have hsame := he.symm.trans (href response rfl hsent)
        -- the admitted call waits, so something did change
        have hlen := congrArg (fun t : Interactions => t.waiting.length) hsame
        simp [admitResponse] at hlen
  | _ =>
    refine iff_of_true trivial ?_
    intro response hm
    cases hm

/-- While every response is remembered, nothing is sent twice. -/
theorem sent_nodup_step {s s' : Interactions} {m : Move} (hs : s.sent.Nodup)
    (h : s.step m = some s') (hrem : s.Remembered m) : s'.sent.Nodup := by
  cases step_effect h with
  | fewer _ _ hsent _ _ => exact nodup_of_subperm hsent hs
  | ordinary l a _ => exact hs
  | discarded i c _ => exact hs
  | admitted response operation hop hnew =>
    rw [(s.admit_sent response operation).nodup_iff, List.nodup_cons]
    exact ⟨fun hsent => hnew (hrem (asked_of_ok hop) hsent), hs⟩

theorem answered_nodup {s : Interactions} (h : s.sent.Nodup) : s.answered.Nodup :=
  h.sublist (List.sublist_append_left _ _)

end Interactions

/-! ## The operation an answer carries -/

/-- A parent's answer carries the operation that was active when it was
admitted, and there was one; any other carries none. -/
def Responding.CarriesActive (c : Responding) : Prop :=
  if c.parent then c.activeThen.isSome ∧ c.response.operation = c.activeThen
  else c.response.operation = none

namespace Interactions

/-- The calls made on the adapter and those still to be made. -/
def Carried (s : Interactions) : Prop :=
  (∀ c ∈ s.waiting, c.CarriesActive) ∧ ∀ c ∈ s.calls, c.CarriesActive

theorem responding_carriesActive {s : Interactions} {response : InteractionResponse} {operation}
    (h : s.responseOperation response.interactionId = .ok operation) :
    (s.responding response operation).CarriesActive := by
  unfold Responding.CarriesActive
  unfold responseOperation at h
  split at h
  · cases h
  split at h
  · cases h
  split at h
  · rename_i hparent
    split at h
    · cases h
    · rename_i active hactive
      split at h
      · cases h
        simp [responding, hparent, Authority.activeOperation, hactive]
      · cases h
  · rename_i hparent
    cases h
    simp [responding, hparent]

theorem carried_step {s s' : Interactions} {m : Move} (hs : s.Carried)
    (h : s.step m = some s') : s'.Carried := by
  cases m with
  | authority l =>
    obtain ⟨a, -, rfl⟩ := Option.map_eq_some_iff.mp h
    exact hs
  | respond response =>
    cases h
    rcases s.respond_cases response with ⟨he, -⟩ | ⟨operation, hop, hnew, he⟩
    · rw [he]
      exact hs
    · rw [he]
      refine ⟨?_, hs.2⟩
      simp only [admitResponse, List.forall_mem_append, List.forall_mem_singleton]
      exact ⟨hs.1, responding_carriesActive hop⟩
  | call i =>
    simp only [step] at h
    split at h
    · rename_i c hc hnone
      cases h
      refine ⟨fun d hd => hs.1 d (List.mem_of_mem_eraseIdx hd), ?_⟩
      simp only [List.forall_mem_append, List.forall_mem_singleton]
      exact ⟨hs.2, hs.1 c (List.mem_of_getElem? hc)⟩
    · cases h
  | discard i =>
    obtain ⟨c, -, rfl⟩ := Option.map_eq_some_iff.mp h
    exact hs
  | cancelWaiting i =>
    simp only [step] at h
    split at h
    · cases h
      exact ⟨fun d hd => hs.1 d (List.mem_of_mem_eraseIdx hd), hs.2⟩
    · cases h
  | _ =>
    simp only [step] at h
    repeat' split at h
    all_goals cases h
    all_goals exact hs

/-- What is asked of every step: nothing is answered twice, the adapter hears
the operations of the admissions, and what was sent is not open again. -/
structure AnswersOnce (s : Interactions) (m : Move) (s' : Interactions) : Prop where
  once : s'.answered.Nodup
  carries : ∀ c ∈ s'.calls, c.CarriesActive
  closed : s.RefusesSent m s'

/-- For every run beside a started authority: pending interactions are
answered once exactly when every response to a sent one is remembered. -/
theorem answersOnce_iff_remembered (config : AuthorityConfig) (snapshot : AdapterSnapshot)
    (view : InteractionView) (moves : List Move) :
    Runs.Along step AnswersOnce (start config snapshot view) moves ↔
      Runs.Along step (fun s m _ => s.Remembered m) (start config snapshot view) moves := by
  symm
  refine Runs.along_iff_along (I := fun s => s.sent.Nodup ∧ s.Carried) ?_ ?_ ?_
  · intro s m s' hs h hrem
    exact ⟨sent_nodup_step hs.1 h hrem, carried_step hs.2 h⟩
  · intro s m s' hs h
    constructor
    · intro hrem
      exact ⟨answered_nodup (sent_nodup_step hs.1 h hrem), (carried_step hs.2 h).2,
        (remembered_iff_refusesSent h).mp hrem⟩
    · intro honce
      exact (remembered_iff_refusesSent h).mpr honce.closed
  · refine ⟨List.nodup_nil, ?_, ?_⟩
    all_goals
      intro c hc
      cases hc

/-! ### A stale release -/

/-- A control session. -/
def parentIdentity : ControlIdentity :=
  { arSessionId := "s", tmuxName := "pane", createdAt := "t" }

/-- The parent's thread asks one question. -/
def askingView : InteractionView :=
  { identity := parentIdentity, vendorSessionId := some "thread",
    pendingInteraction := some { interactionId := "q", threadId := some "thread" } }

/-- A reconciliation that rejects. -/
def rejectedAnswer : ReconciliationResult :=
  { requestId := "r", state := .rejected, reconciledAt := "t3" }

/-- Another prompt. -/
def secondPrompt : Authority.AdmittedRequest :=
  ⟨{ requestId := "r2", source := .cockpit, text := "again", submittedAt := "t4" }, by decide⟩

/-- A possibly sent prompt is reconciled by two callers, and the first rejection
releases it. -/
def twoReconciliations : List Move :=
  [.authority (.submit Authority.onePrompt), .authority .wakeUp, .authority .look,
    .authority (.preflightAnswer .ready), .authority (.block "t1"),
    .authority (.methodAnswer (.raised "lost")), .authority (.block "t2"),
    .authority (.reconcileStart "r" none), .authority (.reconcileStart "r" none),
    .authority (.reconcileAnswer 0 (some rejectedAnswer))]

/-- The next prompt is being carried out when its question is answered. -/
def questionAnswered : List Move :=
  [.snapshotUpdated Authority.idleSnapshot askingView, .authority (.submit secondPrompt),
    .authority .wakeUp, .authority .look, .authority (.preflightAnswer .ready),
    .authority (.block "t5"),
    .respond { interactionId := "q", response := "yes", respondedAt := "t6" }, .call 0, .reply true]

/-- The second rejection releases the first prompt once more. -/
def answeredAgain : List Move :=
  [.authority (.reconcileAnswer 0 (some rejectedAnswer)),
    .respond { interactionId := "q", response := "no", respondedAt := "t7" }, .call 0, .reply true]

theorem stale_release_reopens :
    ¬ Runs.Along step AnswersOnce
      (start Authority.idleConfig Authority.idleSnapshot { identity := parentIdentity })
      (twoReconciliations ++ questionAnswered ++ answeredAgain) := by
  intro honce
  have hend : (Runs.run step
      (start Authority.idleConfig Authority.idleSnapshot { identity := parentIdentity })
      (twoReconciliations ++ questionAnswered ++ answeredAgain)).map
        (fun s => (s.answered, s.authority.active))
          = some (["q", "q"], some (.prompt, "r2")) := by
    rfl
  obtain ⟨s, hs, hanswers⟩ := Option.map_eq_some_iff.mp hend
  have halways : Runs.Always step (fun s => s.answered.Nodup)
      (start Authority.idleConfig Authority.idleSnapshot { identity := parentIdentity })
      (twoReconciliations ++ questionAnswered ++ answeredAgain) :=
    ⟨List.nodup_nil, honce.mono fun _ _ _ h => h.once⟩
  have hnodup := halways.at_end hs
  rw [(Prod.mk.inj hanswers).1] at hnodup
  simp at hnodup

end Interactions

/-! ## Only a release forgets -/

namespace Authority

/-- A step leaves the answered set or empties it. -/
def KeepsOrClears (a a' : Authority) : Prop :=
  a'.respondedInteractions = a.respondedInteractions ∨ a'.respondedInteractions = []

theorem hasAdmissionRoom_responded {a a' : Authority} {room : Bool}
    (h : a.hasAdmissionRoom = (room, a')) : a'.respondedInteractions = a.respondedInteractions := by
  unfold hasAdmissionRoom at h
  split at h
  all_goals
    cases h
    rfl

theorem submit_responded (a : Authority) (submission : AdmittedRequest) :
    (a.submit submission).2.respondedInteractions = a.respondedInteractions := by
  unfold submit
  dsimp only
  split
  · rfl
  split
  · rfl
  split
  · split
    · rfl
    · rfl
  · split
    · rename_i hroom
      exact hasAdmissionRoom_responded hroom
    · rename_i a' hroom
      have hkept := hasAdmissionRoom_responded hroom
      split
      · exact hkept
      · split
        all_goals exact hkept

theorem admitSetter_responded (a : Authority) (kind : SetterKind) (value at_ : String) :
    (a.admitSetter kind value at_).2.respondedInteractions = a.respondedInteractions := by
  unfold admitSetter
  split
  · rfl
  split
  · rfl
  split
  all_goals
    rename_i hroom
    have hkept := hasAdmissionRoom_responded hroom
    exact hkept

theorem Applied.keepsOrClears {a a' : Authority} {record : OperationRecord}
    (h : Applied a record a') : a.KeepsOrClears a' := by
  cases h with
  | held written _ _ => exact .inl rfl
  | retired written consume _ _ => exact .inr rfl

theorem dispatcherBlock_responded {a a' : Authority} {at_ : String}
    (hb : a.dispatcherBlock at_ = some a') : a.KeepsOrClears a' := by
  unfold dispatcherBlock at hb
  split at hb
  · obtain ⟨record, -, hb⟩ := Option.bind_eq_some_iff.mp hb
    cases hb
    exact .inl rfl
  · obtain ⟨record, -, hb⟩ := Option.bind_eq_some_iff.mp hb
    cases hb
    exact .inl rfl
  · obtain ⟨record, -, hb⟩ := Option.bind_eq_some_iff.mp hb
    cases hclaim : a.claimHead record at_ with
    | none =>
      rw [hclaim] at hb
      cases hb
      exact .inl rfl
    | some claimed =>
      rw [hclaim] at hb
      cases hb
      unfold claimHead at hclaim
      split at hclaim
      · cases hclaim
      · cases hclaim
        exact .inl rfl
  · obtain ⟨record, -, hb⟩ := Option.bind_eq_some_iff.mp hb
    unfold certifiedPreSendBusy at hb
    split at hb <;> rename_i heq <;> split at heq <;> cases heq <;> cases hb <;> exact .inl rfl
  · obtain ⟨record, -, hb⟩ := Option.bind_eq_some_iff.mp hb
    cases hb
    exact .inl rfl
  · rename_i n result _
    obtain ⟨record, -, hb⟩ := Option.bind_eq_some_iff.mp hb
    cases happly : a.applyMethodResult record result at_ with
    | error message =>
      rw [happly] at hb
      cases hb
      exact .inl rfl
    | ok outcome =>
      rw [happly] at hb
      cases hb
      exact (applyMethodResult_applied happly).2.2.keepsOrClears
  · obtain ⟨record, -, hb⟩ := Option.bind_eq_some_iff.mp hb
    unfold incoherentMethodResult at hb
    split at hb <;> rename_i heq <;> split at heq <;> cases heq <;> cases hb <;> exact .inl rfl
  · cases hb

theorem step_responded {a a' : Authority} {l : Step} (hs : a.step l = some a') :
    a.KeepsOrClears a' := by
  cases l with
  | submit request =>
    cases hs
    exact .inl (submit_responded a request)
  | setter kind value at_ =>
    cases hs
    exact .inl (admitSetter_responded a kind value at_)
  | withdraw epoch requestId cockpitOnly at_ =>
    cases hs
    left
    unfold withdraw
    dsimp only
    repeat' split
    all_goals rfl
  | resolveOperation operationId kind resolution detail at_ =>
    cases hs
    unfold resolveOperation
    split
    · exact .inl rfl
    split
    · exact .inl rfl
    · exact .inr rfl
  | observeEvent event =>
    cases hs
    unfold observeEvent
    dsimp only
    repeat' split
    all_goals first
      | exact .inl rfl
      | exact .inr rfl
  | snapshotUpdated snapshot =>
    cases hs
    exact .inl rfl
  | reconcileStart requestId epoch =>
    cases hs
    left
    unfold reconcileStart
    repeat' split
    all_goals rfl
  | reconcileAnswer i answer =>
    obtain ⟨⟨requestId, ref⟩, -, hs⟩ := Option.bind_eq_some_iff.mp hs
    cases answer with
    | none =>
      cases hs
      exact .inl rfl
    | some result =>
      cases hs
      show KeepsOrClears a (reconcileApply { a with reconciling := a.reconciling.eraseIdx i }
        requestId ref result).2
      unfold reconcileApply
      dsimp only
      repeat' split
      all_goals first
        | exact .inl rfl
        | exact .inr rfl
  | block at_ => exact dispatcherBlock_responded hs
  | wakeUp | look | preflightAnswer answer | methodAnswer answer =>
    simp only [step] at hs
    repeat' split at hs
    all_goals cases hs
    all_goals exact .inl rfl

end Authority

namespace Interactions

/-- No ordinary step empties an answered set that holds something. -/
def Kept (s : Interactions) (m : Move) (s' : Interactions) : Prop :=
  ∀ l, m = .authority l → s'.authority.respondedInteractions = [] →
    s.authority.respondedInteractions = []

/-- The answered set holds every interaction with a call, and each has one. -/
structure Held (s : Interactions) : Prop where
  busy : s.busy.Nodup
  responded : s.authority.respondedInteractions.Nodup
  sub : ∀ id ∈ s.busy, id ∈ s.authority.respondedInteractions

theorem discarded_busy {s : Interactions} {i : Nat} {c : Responding} (h : s.failed[i]? = some c) :
    s.busy.Perm (c.response.interactionId :: (s.discarded i c).busy) := by
  have hp := ((eraseIdx_perm h).map (·.response.interactionId)).append_left s.sent
  exact hp.symm.trans List.perm_middle

theorem Held.of_step {s s' : Interactions} {m : Move} (hs : s.Held) (h : s.step m = some s')
    (hk : s.Kept m s') : s'.Held := by
  cases step_effect h with
  | fewer _ _ _ hbusy hresp =>
    refine ⟨nodup_of_subperm hbusy hs.busy, by rw [hresp]; exact hs.responded, ?_⟩
    intro id hid
    rw [hresp]
    exact hs.sub id (hbusy.subset hid)
  | ordinary l a hstep =>
    have hsame : a.respondedInteractions = s.authority.respondedInteractions := by
      rcases Authority.step_responded hstep with hkeep | hclear
      · exact hkeep
      · exact hclear.trans (hk l rfl hclear).symm
    exact ⟨hs.busy, hsame ▸ hs.responded, fun id hid => hsame ▸ hs.sub id hid⟩
  | admitted response operation hop hnew =>
    have hp := s.admit_busy response operation
    refine ⟨?_, ?_, ?_⟩
    · rw [hp.nodup_iff, List.nodup_cons]
      exact ⟨fun hid => hnew (hs.sub _ hid), hs.busy⟩
    · show (s.authority.respondedInteractions ++ [response.interactionId]).Nodup
      rw [(List.perm_append_singleton _ _).nodup_iff, List.nodup_cons]
      exact ⟨hnew, hs.responded⟩
    · intro id hid
      show id ∈ s.authority.respondedInteractions ++ [response.interactionId]
      rw [List.mem_append, List.mem_singleton]
      rcases List.mem_cons.mp (hp.mem_iff.mp hid) with rfl | hold
      · exact .inr rfl
      · exact .inl (hs.sub id hold)
  | discarded i c hc =>
    have hp := discarded_busy hc
    obtain ⟨hother, hbusy⟩ := List.nodup_cons.mp (hp.nodup_iff.mp hs.busy)
    refine ⟨hbusy, hs.responded.erase _, ?_⟩
    intro id hid
    have hne : id ≠ c.response.interactionId := by
      rintro rfl
      exact hother hid
    exact (List.mem_erase_of_ne hne).mpr
      (hs.sub id (hp.mem_iff.mpr (List.mem_cons_of_mem _ hid)))

/-- Where no release empties the answered set, every response is remembered. -/
theorem remembered_of_kept (config : AuthorityConfig) (snapshot : AdapterSnapshot)
    (view : InteractionView) {moves : List Move}
    (h : Runs.Along step Kept (start config snapshot view) moves) :
    Runs.Along step (fun s m _ => s.Remembered m) (start config snapshot view) moves := by
  have hboth := (Runs.along_iff_along (I := Held)
    (P := fun s m s' => s.Kept m s' ∧ s.Remembered m)
    (fun s m s' hs hstep hk => hs.of_step hstep hk) ?_ ?_).mp h
  · exact hboth.mono fun _ _ _ hp => hp.2
  · intro s m s' hs hstep
    refine ⟨fun hk => ⟨hk, ?_⟩, fun hp => hp.1⟩
    cases m with
    | respond response =>
      intro _ hsent
      exact hs.sub _ (List.mem_append_left _ hsent)
    | _ => trivial
  · refine ⟨List.nodup_nil, List.nodup_nil, ?_⟩
    intro id hid
    cases hid

end Interactions

end AgentsRemember.Submission
