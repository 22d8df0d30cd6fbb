import P2pVpn.Peer.Handshake
import P2pVpn.Relay.Basic

set_option autoImplicit false

/-! # Peer sessions (`src/session.rs`, `PeerNames` in `src/dns.rs`)

Any number of `PeerSession`s on one relay and one name registry. All of them run in one task (`main`
joins them), so they interleave at await points only: a session's step is what it does between two of
them. What a session awaits (its link, the handshake, the relay's lock and the OS, the receive loop)
is an action whose result is arbitrary.

Connections are numbered. `closed` records which of them have been closed, by either end or by the
network; dropping a clone of a connection does not close it. -/

namespace P2pVpn

/-! ## Peer names -/

/-- The name with its ASCII letters in lower case. -/
def toAsciiLowercase (name : String) : String := name.map Char.toLower

/-- Peer name to addresses, keyed by the lowercase name. -/
structure PeerNames where
  addresses : String → Option (List IpAddr)

/-- No name has an address. -/
def PeerNames.new : PeerNames := ⟨fun _ => none⟩

/-- The name gets these addresses, whatever it had. -/
def PeerNames.set (names : PeerNames) (name : String) (addrs : List IpAddr) : PeerNames :=
  ⟨Function.update names.addresses (toAsciiLowercase name) (some addrs)⟩

/-- The name is forgotten. -/
def PeerNames.remove (names : PeerNames) (name : String) : PeerNames :=
  ⟨Function.update names.addresses (toAsciiLowercase name) none⟩

/-! ## Sessions -/

/-- The peer at the other end of an established connection. -/
structure ConnectedPeer where
  conn : Nat
  deriving DecidableEq

/-- Where `PeerSession::run` is. -/
inductive Phase where
  /-- In `link.changed()`. -/
  | waiting
  | handshaking (conn : Nat)
  /-- In `relay.reconcile`, after a handshake that negotiated `changed`. -/
  | registering (conn : Nat) (changed : List IpAddr) (call : Call ConnectedPeer)
  /-- In `recv_loop`. -/
  | receiving (conn : Nat)
  /-- In `withdraw_routes`. -/
  | withdrawing (call : Call ConnectedPeer)
  | ended

/-- A peer session, with the routes it has registered. -/
structure Session where
  phase : Phase
  routes : List IpAddr
  /-- The connection `run_connection` was last given. -/
  lastConn : Option Nat

/-- The session waits for its first connection. -/
def Session.new : Session := ⟨.waiting, [], none⟩

/-- Why a receive loop ends. -/
inductive RecvLoopError where
  /-- `read_datagram` failed: the connection is gone. -/
  | readDatagram
  /-- The channel to the TUN device is closed. -/
  | txPacket
  deriving DecidableEq

/-- What a session's await can return. -/
inductive SessionAction where
  /-- `Ok(Some(conn))` -/
  | connected (conn : Nat)
  /-- `Ok(None)` -/
  | disconnected
  /-- `Err`: the link task is gone. -/
  | linkEnded
  | handshake (result : Except HandshakeError RoutesChanged)
  | relay (a : CallAction)
  | recvLoopEnded (e : RecvLoopError)

/-! ## The node -/

/-- What the sessions share, and the sessions. -/
structure Node where
  relay : RelayState ConnectedPeer
  /-- `none` when the configuration has no `[dns]`. -/
  dnsNames : Option PeerNames
  sessions : Nat → Session
  closed : Nat → Bool

/-- What the sessions are started with. -/
structure NodeConfig where
  os : OsRules
  /-- The configured name of each session's peer. -/
  name : Nat → String
  dns : Bool

/-- All sessions wait, and nothing is registered. -/
def Node.new (cfg : NodeConfig) : Node where
  relay := RelayState.new
  dnsNames := if cfg.dns then some PeerNames.new else none
  sessions := fun _ => Session.new
  closed := fun _ => false

/-- A step of a session, or of a connection by itself. -/
inductive NodeAction where
  | session (i : Nat) (a : SessionAction)
  /-- A connection is closed by the other end or lost, by the link's own housekeeping, or by a
      handshake whose error does not tell. -/
  | close (conn : Nat)

/-- Session `i` has come to `s`. -/
def Node.setSession (n : Node) (i : Nat) (s : Session) : Node :=
  { n with sessions := Function.update n.sessions i s }

/-- The connection is closed. -/
def Node.closeConnection (n : Node) (conn : Nat) : Node :=
  { n with closed := Function.update n.closed conn true }

/-- `park_routes`; parking an empty list does nothing. -/
def Node.parkRoutes (n : Node) (routes : List IpAddr) : Node :=
  { n with relay := n.relay.park routes }

/-- The resolver, if there is one, gets the addresses of the name. -/
def Node.setNames (n : Node) (name : String) (addrs : List IpAddr) : Node :=
  { n with dnsNames := n.dnsNames.map fun names => names.set name addrs }

/-- The resolver, if there is one, forgets the name. -/
def Node.removeNames (n : Node) (name : String) : Node :=
  { n with dnsNames := n.dnsNames.map fun names => names.remove name }

/-- `run_connection` after `reconcile` took a step. -/
def Node.registered (cfg : NodeConfig) (n : Node) (i conn : Nat) (changed : List IpAddr)
    (s : Session) : Call ConnectedPeer → Node
  | .returned true =>
      (n.setNames (cfg.name i) changed).setSession i
        { s with phase := .receiving conn, routes := changed }
  -- nothing of ours is left in the relay
  | .returned false => n.setSession i { s with phase := .waiting, routes := [] }
  | call => n.setSession i { s with phase := .registering conn changed call }

/-- The rest of `withdraw_routes`, and of `run`. -/
def Node.withdrawn (cfg : NodeConfig) (n : Node) (i : Nat) (s : Session) : Node :=
  (n.removeNames (cfg.name i)).setSession i { s with phase := .ended, routes := [] }

/-- `withdraw_routes` after `relay.remove` took a step. -/
def Node.withdrawing (cfg : NodeConfig) (n : Node) (i : Nat) (s : Session) :
    Call ConnectedPeer → Node
  | .returned _ => n.withdrawn cfg i s
  | call => n.setSession i { s with phase := .withdrawing call }

/-- One step of session `i`. -/
def Node.sessionStep (cfg : NodeConfig) (n : Node) (i : Nat) (a : SessionAction) : Option Node :=
  let s := n.sessions i
  match s.phase, a with
  | .waiting, .connected conn =>
      some (n.setSession i { s with phase := .handshaking conn, lastConn := some conn })
  | .waiting, .disconnected => some (n.parkRoutes s.routes)
  | .waiting, .linkEnded =>
      if s.routes.isEmpty then some (n.withdrawn cfg i s)
      else some (n.setSession i { s with phase := .withdrawing (.remove s.routes) })
  | .handshaking conn, .handshake (.error e) =>
      let n := if e.closesConnection then n.closeConnection conn else n
      some (n.setSession i { s with phase := .waiting })
  | .handshaking conn, .handshake (.ok changed) =>
      let call := Call.reconcile changed.routes s.routes ⟨conn⟩
      some (n.setSession i { s with phase := .registering conn changed.routes call })
  | .registering conn changed call, .relay ca =>
      (call.step cfg.os i n.relay ca).map fun r =>
        Node.registered cfg { n with relay := r.1 } i conn changed s r.2
  | .receiving conn, .recvLoopEnded e =>
      -- `read_datagram` fails only once the connection is gone
      if e = .readDatagram ∧ n.closed conn = false then none
      else some ((n.parkRoutes s.routes).setSession i { s with phase := .waiting })
  | .withdrawing call, .relay ca =>
      (call.step cfg.os i n.relay ca).map fun r =>
        Node.withdrawing cfg { n with relay := r.1 } i s r.2
  | _, _ => none

/-- A panic unwinds `main`: nothing steps after it. -/
def Node.step (cfg : NodeConfig) (n : Node) : NodeAction → Option Node
  | .session i a => if n.relay.panicked then none else n.sessionStep cfg i a
  | .close conn => some (n.closeConnection conn)

/-- The session is in the middle of `reconcile` or of `withdraw_routes`. -/
def Phase.busy : Phase → Bool
  | .registering _ _ _ => true
  | .withdrawing _ => true
  | _ => false

end P2pVpn
