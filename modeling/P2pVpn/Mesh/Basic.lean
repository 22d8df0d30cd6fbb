import P2pVpn.Handshake.Basic
import P2pVpn.Lib.Component
import P2pVpn.Process.Basic

set_option autoImplicit false

/-! # Hosts on a network

Any number of hosts, each of which either runs this program or does what it likes. Connections are
QUIC's: each has two ends, each end knows the other's key, and nobody else can put anything on it. A
host's link hands each of its connections out once; the two ends then shake hands, and from then on
datagrams may be lost and may overtake each other. -/

namespace P2pVpn

/-- What the hosts were started with, and which of them the connections join. -/
structure MeshConfig (Host SecretKey PublicKey Signature : Type) where
  lib : Library SecretKey PublicKey Signature
  codec : Codec
  /-- Whether a host runs this program. -/
  honest : Host → Bool
  process : Host → ProcessConfig
  secretKey : Host → SecretKey
  subnet : Host → BitVec 16
  /-- The configured peer of each session. -/
  peer : Host → Nat → Host
  ends : Nat → Party → Host
  ends_ne : ∀ conn, ends conn .a ≠ ends conn .b

/-- A datagram between two hosts. -/
structure WireDatagram (Host : Type) where
  sender : Host
  conn : Nat
  bytes : List UInt8
  deriving DecidableEq

/-- All hosts and what is between them. -/
structure Mesh (Host : Type) where
  process : Host → Process
  /-- The handshake on each connection. -/
  handshake : Nat → HandshakeState
  /-- Which connections a host's links have handed out. -/
  given : Host → Nat → Bool
  wire : List (WireDatagram Host)

/-- What a host's process does, as far as others have a say in it. -/
inductive HostEvent (Host : Type) where
  /-- Nothing of what follows. -/
  | own (a : ProcessAction)
  /-- The link of session `i` hands out a connection. -/
  | connect (i conn : Nat)
  /-- `handshake` returns in session `i`. -/
  | shaken (i : Nat)
  /-- The same with a peer that does what it likes: it may send any request, or make the handshake
      fail. -/
  | shakenWith (i : Nat) (answer : Except HandshakeError ControlRequest)
  /-- Session `i` reads a datagram. -/
  | deliver (i : Nat) (d : WireDatagram Host)

/-- What can happen in the network. -/
inductive MeshAction (Host : Type) where
  | host (h : Host) (e : HostEvent Host)
  /-- A step of the handshake session `i` of `h` is in. -/
  | handshake (h : Host) (i : Nat) (a : HandshakeAction)
  | lose (d : WireDatagram Host)
  /-- A host that does what it likes sends a datagram. -/
  | inject (d : WireDatagram Host)

/-- Steps that only the process and its machine have a say in. -/
def ProcessAction.isOwn : ProcessAction → Bool
  | .node (.session _ (.connected _)) => false
  | .node (.session _ (.handshake _)) => false
  | .readDatagram _ _ => false
  | _ => true

/-- The side that takes a step of the handshake; a connection may be closed without either. -/
def HandshakeAction.actor : HandshakeAction → Option Party
  | .direct x _ => some x
  | .exchange x a => some (a.actor x)
  | .join x => some x
  | .timeout x => some x
  | .close => none

section

variable {Host SecretKey PublicKey Signature : Type} [DecidableEq Host]

namespace MeshConfig

variable (cfg : MeshConfig Host SecretKey PublicKey Signature)

/-- The host's public key. -/
def key (h : Host) : PublicKey := cfg.lib.scheme.publicKey (cfg.secretKey h)

/-- `own_net` in `main`. -/
def ownNet (h : Host) : IpNet :=
  (generateSignedIpnet cfg.lib.scheme (.v6 (vpnSubnet (cfg.subnet h))) (cfg.secretKey h)).1

/-- The handshake that the two ends run. -/
def handshake (conn : Nat) : HandshakeConfig SecretKey PublicKey Signature where
  lib := cfg.lib
  codec := cfg.codec
  common x := .new (cfg.process (cfg.ends conn x)).icmpGateway
  key x := cfg.key (cfg.ends conn x)
  advertise x :=
    ownAdvertise cfg.lib (cfg.subnet (cfg.ends conn x)) (cfg.secretKey (cfg.ends conn x))

/-- The end of the connection that the host is at. -/
def side (conn : Nat) (h : Host) : Option Party :=
  if cfg.ends conn .a = h then some .a else if cfg.ends conn .b = h then some .b else none

/-- The host at the other end. -/
def remote (conn : Nat) (h : Host) : Option Host :=
  (cfg.side conn h).map fun x => cfg.ends conn x.other

/-- What `handshake` makes of such a peer's answer. -/
def answered (h peer : Host) :
    Except HandshakeError ControlRequest → Option (Except HandshakeError RoutesChanged)
  | .error e => some (.error e)
  | .ok request =>
      match (handleControlRequest cfg.lib (.new (cfg.process h).icmpGateway) (cfg.key peer)
        request).result with
      | .ok (some changed) => some (.ok changed)
      | _ => none

end MeshConfig

namespace Mesh

variable (cfg : MeshConfig Host SecretKey PublicKey Signature) (m : Mesh Host)

/-- Session `i` of `h` is in a handshake: on which connection, and at which end. -/
def handshaking (h : Host) (i : Nat) : Option (Nat × Party) :=
  match ((m.process h).node.sessions i).phase with
  | .handshaking conn => (cfg.side conn h).map fun x => (conn, x)
  | _ => none

/-- Session `i` of `h` reads from the connection. -/
def receives (h : Host) (i conn : Nat) : Bool :=
  match ((m.process h).node.sessions i).phase with
  | .receiving c => c = conn
  | _ => false

/-- The step of the host's process, if the others let it happen. -/
def processAction (h : Host) : HostEvent Host → Option ProcessAction
  | .own a => if a.isOwn then some a else none
  | .connect i conn =>
      if m.given h conn = false ∧ cfg.remote conn h = some (cfg.peer h i) then
        some (.node (.session i (.connected conn)))
      else none
  | .shaken i =>
      match m.handshaking cfg h i with
      | some (conn, x) =>
          if cfg.honest (cfg.ends conn x.other) then
            ((m.handshake conn).result x).map fun result =>
              .node (.session i (.handshake result))
          else none
      | none => none
  | .shakenWith i answer =>
      match m.handshaking cfg h i with
      | some (conn, x) =>
          if cfg.honest (cfg.ends conn x.other) then none
          else
            (cfg.answered h (cfg.ends conn x.other) answer).map fun result =>
              .node (.session i (.handshake result))
      | none => none
  | .deliver i d =>
      if d ∈ m.wire ∧ m.receives h i d.conn ∧ cfg.remote d.conn h = some d.sender then
        some (.readDatagram i d.bytes)
      else none

/-- The network's part in an event. -/
def record (h : Host) : HostEvent Host → Mesh Host
  | .connect _ conn =>
      { m with given := Function.update m.given h (Function.update (m.given h) conn true) }
  | .deliver _ d => { m with wire := m.wire.erase d }
  | _ => m

/-- A datagram of `h` on its way. -/
def datagramOf (h : Host) (sent : ConnectedPeer × List UInt8) : WireDatagram Host :=
  ⟨h, sent.1.conn, sent.2⟩

/-- The process of `h` has taken a step. -/
def advance (h : Host) (a : ProcessAction) (s : Process) : Mesh Host :=
  { m with
    process := Function.update m.process h s
    wire := m.wire ++ (((m.process h).transmitted a).map (datagramOf h)).toList }

/-- A step of the handshake at one end, both of which are honest. -/
def handshakeStep (h : Host) (i : Nat) (a : HandshakeAction) : Option (Mesh Host) :=
  match m.handshaking cfg h i with
  | some (conn, x) =>
      if cfg.honest h ∧ cfg.honest (cfg.ends conn x.other) ∧ a.actor.all (· = x) then
        ((m.handshake conn).step (cfg.handshake conn) a).map fun s =>
          { m with handshake := Function.update m.handshake conn s }
      else none
  | none => none

/-- One step of the network. -/
def step : MeshAction Host → Option (Mesh Host)
  | .host h e =>
      if cfg.honest h then
        match m.processAction cfg h e with
        | some a =>
            ((m.process h).step (cfg.process h) a).map fun s => (m.record h e).advance h a s
        | none => none
      else none
  | .handshake h i a => m.handshakeStep cfg h i a
  | .lose d => if d ∈ m.wire then some { m with wire := m.wire.erase d } else none
  | .inject d => if cfg.honest d.sender then none else some { m with wire := m.wire ++ [d] }

/-- All hosts have just started. -/
structure IsNew : Prop where
  process : ∀ h, Process.new (cfg.process h) = some (m.process h)
  handshake : ∀ conn, m.handshake conn = .new
  wire : m.wire = []

/-! ## What one sees of it -/

/-- What the process of `h` does in a step. -/
def actionAt (h : Host) (m : Mesh Host) : MeshAction Host → Option ProcessAction
  | .host h' e => if h' = h then m.processAction cfg h e else none
  | _ => none

/-- What is seen of the process of `h`. -/
def seenAt {β : Type} (h : Host) (out : Process → ProcessAction → Option β) :
    Mesh Host → MeshAction Host → Option β :=
  seen (fun m => m.process h) (actionAt cfg h) out

/-- A frame that the device of `h` gave. -/
def frameRead (h : Host) : Mesh Host → MeshAction Host → Option (List UInt8) :=
  seenAt cfg h Process.frameRead

/-- A packet that the device of `h` was asked to write for session `i`. -/
def frameWritten (h : Host) (i : Nat) : Mesh Host → MeshAction Host → Option (List UInt8) :=
  seenAt cfg h (Process.frameWritten i)

end Mesh

end

end P2pVpn
