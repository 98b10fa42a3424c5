import AgentsRemember.Foundation.Runs
import AgentsRemember.Submission.Authority

/-!
# Submission — Steps

The authority as a transition system. A label is one lock block of one
coroutine, or one answer of the adapter; the adapter's answers, the
clock stamps, the events and the bridge's snapshots are arbitrary. A
run is any interleaving of these: `submit`, `set_model`/`set_effort`,
`withdraw`, `resolve_operation`, `observe_event`, any number of
reconciliations in flight and the one dispatcher task.
-/

namespace AgentsRemember.Submission

/-- How `preflight_operation` ended. -/
inductive PreflightAnswer where
  | ready
  | busy (detail : String)
  | disconnected (mayHaveSent : Bool) (detail : String) (vendor : Option String)
  /-- any other exception escapes the dispatcher -/
  | failed

/-- How the adapter's submit or set method ended. -/
inductive MethodAnswer where
  | returned (result : MethodResult)
  | busy (detail : String)
  | disconnected (mayHaveSent : Bool) (detail : String) (vendor : Option String)
  | raised (detail : String)

/-- One block under the lock, or one answer of the adapter. -/
inductive Step where
  | submit (request : Authority.AdmittedRequest)
  | setter (kind : Authority.SetterKind) (value at_ : String)
  | withdraw (expectedEpoch requestId : String) (cockpitOnly : Bool) (at_ : String)
  | resolveOperation (operationId : String) (kind : ControlOperationKind)
      (resolution : Authority.OperationResolution) (detail at_ : String)
  | observeEvent (event : AdapterEvent)
  | snapshotUpdated (snapshot : AdapterSnapshot)
  | reconcileStart (requestId : String) (expectedEpoch : Option String)
  /-- the `i`-th reconciliation in flight hears from the adapter; `none` is an exception -/
  | reconcileAnswer (i : Nat) (answer : Option ReconciliationResult)
  /-- the dispatcher leaves `_wake.wait()` -/
  | wakeUp
  /-- the dispatcher examines the head -/
  | look
  | preflightAnswer (answer : PreflightAnswer)
  | methodAnswer (answer : MethodAnswer)
  /-- the dispatcher takes the lock it is waiting for -/
  | block (at_ : String)

namespace Authority

/-- The dispatcher after the adapter's preflight answered. -/
def afterPreflight (n : Nat) : PreflightAnswer → Dispatcher
  | .ready => .claiming n
  | .busy detail => .declined n detail
  | .disconnected true detail vendor => .preflightClaim n detail vendor
  | .disconnected false detail _ => .declined n detail
  | .failed => .stopped

/-- The dispatcher after the adapter's method answered. -/
def afterMethod (n : Nat) : MethodAnswer → Dispatcher
  | .returned result => .returned n result
  | .busy detail => .presendBusy n detail
  | .disconnected true detail vendor => .possibleSend n detail vendor
  | .disconnected false detail _ => .presendBusy n detail
  | .raised detail => .possibleSend n detail none

/-- The dispatcher's lock block at its current position. -/
def dispatcherBlock (a : Authority) (at_ : String) : Option Authority :=
  match a.dispatcher with
  | .declined n detail => do
    let record ← a.objects n
    return { (a.preflightDeclined record detail at_) with dispatcher := .waiting }
  | .preflightClaim n detail vendor => do
    let record ← a.objects n
    return { (a.unknownAfterPreflightClaim record detail vendor at_) with
      dispatcher := .waiting }
  | .claiming n => do
    let record ← a.objects n
    match a.claimHead record at_ with
    -- the head moved while the adapter was asked
    | none => return { a with dispatcher := .looking }
    | some claimed => return { claimed with
        dispatcher := .calling n
        history := a.history ++ [.invoked n] }
  | .presendBusy n detail => do
    let record ← a.objects n
    match a.certifiedPreSendBusy record detail at_ with
    -- raised out of the loop, which does not come back
    | .error _ => return { a with dispatcher := .stopped }
    | .ok requeued => return { requeued with
        dispatcher := .waiting
        history := a.history ++ [.requeued n] }
  | .possibleSend n detail vendor => do
    let record ← a.objects n
    return { (a.possibleSendFailure record detail vendor at_) with dispatcher := .waiting }
  | .returned n result => do
    let record ← a.objects n
    match a.applyMethodResult record result at_ with
    | .error message => return { a with dispatcher := .incoherent n message }
    | .ok (released, applied) => return { applied with
        dispatcher := if released then .looking else .waiting }
  | .incoherent n error => do
    let record ← a.objects n
    match a.incoherentMethodResult record error at_ with
    | .error _ => return { a with dispatcher := .stopped }
    | .ok blocked => return { blocked with dispatcher := .waiting }
  | _ => none

/-- One step; none where nobody is at that point. -/
def step (a : Authority) : Step → Option Authority
  | .submit request => some (a.submit request).2
  | .setter kind value at_ => some (a.admitSetter kind value at_).2
  | .withdraw epoch requestId cockpitOnly at_ =>
    some (a.withdraw epoch requestId cockpitOnly at_).2
  | .resolveOperation operationId kind resolution detail at_ =>
    some (a.resolveOperation operationId kind resolution detail at_).2
  | .observeEvent event => some (a.observeEvent event).2
  | .snapshotUpdated snapshot => some (a.notifySnapshotUpdated snapshot)
  | .reconcileStart requestId epoch => some (a.reconcileStart requestId epoch).2
  | .reconcileAnswer i answer => do
    let (requestId, ref) ← a.reconciling[i]?
    let a := { a with reconciling := a.reconciling.eraseIdx i }
    match answer with
    | none => return a
    | some result => return (a.reconcileApply requestId ref result).2
  | .wakeUp =>
    match a.dispatcher with
    | .waiting => if a.wake then some { a with wake := false, dispatcher := .looking } else none
    | _ => none
  | .look =>
    match a.dispatcher with
    | .looking =>
      match a.dispatchableHead with
      | none => some { a with dispatcher := .stopped }
      | some none => some { a with dispatcher := .waiting }
      | some (some record) => some { a with dispatcher := .preflight record.ref.sequence }
    | _ => none
  | .preflightAnswer answer =>
    match a.dispatcher with
    | .preflight n => some { a with dispatcher := afterPreflight n answer }
    | _ => none
  | .methodAnswer answer =>
    match a.dispatcher with
    | .calling n => some { a with
        dispatcher := afterMethod n answer
        history := a.history ++ [.answered n] }
    | _ => none
  | .block at_ => a.dispatcherBlock at_

/-- The states some run of a fresh authority ends in. -/
def ReachableFrom (config : AuthorityConfig) (snapshot : AdapterSnapshot) (a : Authority) :
    Prop :=
  Runs.Reachable step (start config snapshot) a

end Authority

end AgentsRemember.Submission
