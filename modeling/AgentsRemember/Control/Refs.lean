import AgentsRemember.Submission.Records

/-!
# Control — Refs

The opaque references of the control authority. A signed token is taken for the
payload that it carries; one that is malformed or forged carries none. Every
decoded cell is compared with the request again.
-/

namespace AgentsRemember.Control

open Submission

/-- Who asks. -/
structure AuthorizationBinding where
  principalId : String
  tenantId : String
deriving DecidableEq

/-- The exact queue row that a reference names. -/
structure OperationIdentity where
  kind : ControlOperationKind
  operationId : String
  sequence : Nat
deriving DecidableEq

/-- What a reference may be used for. -/
inductive RefPurpose where
  | operationRef | withdrawalRef | recoveryRef | recoveryAssetRef
deriving DecidableEq

/-- What a reference is bound to. -/
structure RefBinding where
  authorization : AuthorizationBinding
  arSessionId : String
  bridgeEpoch : String
deriving DecidableEq

/-- What a reference points at. -/
structure RefTarget where
  identity : OperationIdentity
  withdrawRequestId : Option String := none
  assetId : Option String := none
deriving DecidableEq

/-- The payload of a reference. -/
structure ControlRef where
  purpose : RefPurpose
  binding : RefBinding
  target : RefTarget
deriving DecidableEq

/-- What a caller hands over as a reference. -/
abbrev Token := Option ControlRef

/-- A token, compared with the request cell by cell. -/
def decodeRef (token : Token) (purpose : RefPurpose) (binding : RefBinding) :
    Except String RefTarget :=
  match token with
  | none => .error "control reference failed integrity verification"
  | some ref =>
    if ref.purpose ≠ purpose then
      .error "control reference purpose does not match this route"
    else if ref.binding.authorization ≠ binding.authorization then
      .error "control reference does not belong to this caller"
    else if ref.binding.arSessionId ≠ binding.arSessionId then
      .error "control reference does not belong to this AR session"
    else if ref.binding.bridgeEpoch ≠ binding.bridgeEpoch then
      .error "control reference was minted under a different bridge epoch"
    else .ok ref.target

end AgentsRemember.Control
