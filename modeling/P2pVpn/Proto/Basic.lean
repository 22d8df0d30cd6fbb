import Mathlib

set_option autoImplicit false

/-! # Control messages and statuses (`proto/p2p_vpn/control/v1/control.proto`, `src/proto.rs`)

The messages two peers exchange on a control stream, the statuses their outcomes are reported with,
and the two translations between them. -/

namespace P2pVpn

/-- A host's generated address in CIDR notation, and the signature it was generated from. -/
structure HostAddress where
  peerNetwork : String
  peerNetworkSignature : List UInt8
  deriving DecidableEq

/-- The addresses its sender can be reached at. -/
structure Advertise where
  ownAddresses : List HostAddress
  deriving DecidableEq

/-- `ControlRequest`: its only command is `Advertise`; the oneof may also be absent. -/
structure ControlRequest where
  command : Option Advertise
  deriving DecidableEq

/-- A code and an optional text. -/
structure Status where
  code : Int32
  message : Option String
  deriving DecidableEq

/-- The answer to a request; no status is a success. -/
structure ControlResponse where
  status : Option Status
  deriving DecidableEq

/-- `ControlRequest::default()`. -/
instance : Inhabited ControlRequest := ⟨⟨none⟩⟩

/-- `ControlResponse::default()`, the answer to an accepted request. -/
instance : Inhabited ControlResponse := ⟨⟨none⟩⟩

/-- The gRPC codes the control plane uses. -/
inductive ErrorCode where
  | failedPrecondition
  | aborted
  | outOfRange
  | dataLoss
  deriving DecidableEq

/-- The code on the wire, which is that of gRPC. -/
def ErrorCode.raw : ErrorCode → Int32
  | .failedPrecondition => 9
  | .aborted => 10
  | .outOfRange => 11
  | .dataLoss => 15

/-- `ThinStatus`: a status that is not OK, so its raw code is never zero. -/
structure ThinStatus where
  codeRaw : Int32
  message : String
  codeRaw_ne_zero : codeRaw ≠ 0
  deriving DecidableEq

theorem ErrorCode.raw_ne_zero (code : ErrorCode) : code.raw ≠ 0 := by
  cases code <;> decide

/-- `ThinStatus::builder(code).message(text).build()`. -/
def ThinStatus.build (code : ErrorCode) (message : String) : ThinStatus :=
  ⟨code.raw, message, code.raw_ne_zero⟩

/-- The response that reports a status. -/
def statusToControl (status : ThinStatus) : ControlResponse :=
  ⟨some ⟨status.codeRaw, some status.message⟩⟩

/-- A response without a status, or with the zero code, is a success. -/
def controlToStatus (response : ControlResponse) : Except ThinStatus Unit :=
  match response.status with
  | some ⟨code, message⟩ =>
      if h : code ≠ 0 then .error ⟨code, message.getD "", h⟩ else .ok ()
  | none => .ok ()

theorem controlToStatus_default : controlToStatus default = .ok () := rfl

/-- A status survives the trip through a response. -/
theorem controlToStatus_statusToControl (status : ThinStatus) :
    controlToStatus (statusToControl status) = .error status := by
  simp only [controlToStatus, statusToControl]
  rw [dif_pos status.codeRaw_ne_zero]
  rfl

end P2pVpn
