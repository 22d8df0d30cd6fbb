import P2pVpn.Peer.Control

set_option autoImplicit false

/-! # The outcome of a handshake (`Peer::handshake` in `src/peer.rs`)

How the results of `send_advertise` and `recv_control`, or their timeout, become the result of the
handshake. The errors are kept apart by cause. -/

namespace P2pVpn

/-- Why `send_advertise` failed. -/
inductive SendError where
  /-- Opening the stream, writing the request, or reading or decoding the response. -/
  | stream
  /-- The peer's response carries an error status. -/
  | status (status : ThinStatus)
  deriving DecidableEq

/-- Why `recv_control` failed. -/
inductive ReceiveError where
  /-- `accept_bi`. -/
  | accept
  /-- The request could not be read or decoded (`DataLoss`). -/
  | malformed
  /-- `handle_control_request` found no valid route. It has closed the connection by then, so what
      `read_control` reports is that the response could not be written. -/
  | noValidRoutes (status : ThinStatus)
  /-- The response to an accepted request could not be written (`Aborted`). -/
  | response
  deriving DecidableEq

/-- Why a handshake fails. -/
inductive HandshakeError where
  /-- `wait_for_direct`. -/
  | notDirect
  /-- "Failed to finish handshake within the deadline". -/
  | timeout
  | send (e : SendError)
  | receive (e : ReceiveError)
  /-- "Handshake returned no routes": the peer's request had no command. -/
  | noRoutes
  deriving DecidableEq

/-- The end of `handshake`, once `join!` has both results: a send error takes precedence. -/
def handshakeResult (send : Except SendError Unit)
    (receive : Except ReceiveError (Option RoutesChanged)) : Except HandshakeError RoutesChanged :=
  match send with
  | .error e => .error (.send e)
  | .ok () =>
      match receive with
      | .error e => .error (.receive e)
      | .ok none => .error .noRoutes
      | .ok (some routes) => .ok routes

/-- Whether the error tells that the handshake itself has closed the connection. When sending fails
    too, `handshake` returns that error, which hides the other one: a close for want of valid routes is
    then a step of its own, the node's `close`. -/
def HandshakeError.closesConnection : HandshakeError → Bool
  | .receive (.noValidRoutes _) => true
  | _ => false

/-- A handshake succeeds only when the response was a success and the peer's request gave routes. -/
theorem handshakeResult_ok_iff (send : Except SendError Unit)
    (receive : Except ReceiveError (Option RoutesChanged)) (routes : RoutesChanged) :
    handshakeResult send receive = .ok routes ↔
      send = .ok () ∧ receive = .ok (some routes) := by
  unfold handshakeResult
  rcases send with e | ⟨⟩
  · simp
  · rcases receive with e | _ | r <;> simp

end P2pVpn
