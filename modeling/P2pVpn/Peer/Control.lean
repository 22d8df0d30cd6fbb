import P2pVpn.Addr.Basic
import P2pVpn.Proto.Basic
import P2pVpn.Tun.Packet

set_option autoImplicit false

/-! # Validating a peer's addresses (`src/peer/validate_addr.rs`, `src/peer.rs`)

What a node does with an `Advertise` of its peer: parse and verify each entry, keep those inside the
allowed networks, and accept the request when at least one is left. A request without a usable
address closes the connection. -/

namespace P2pVpn

/-- Why one advertised entry was refused. -/
inductive AddrError where
  /-- `peer_network` is not an IP network. -/
  | parse
  /-- "Invalid cryptographic signature": the bytes are no signature. -/
  | invalidSignature
  | verify (cause : VerifyError)
  deriving DecidableEq

/-- An error with its context, "when validating network '…'". -/
structure AddrErrorContext where
  peerNetwork : String
  cause : AddrError
  deriving DecidableEq

/-- The library functions address validation calls: signatures (`iroh`), the text form of networks
    (`ipnet`), and the `Debug` form of a list of errors (`anyhow`). -/
structure Library (SecretKey PublicKey Signature : Type) where
  scheme : SignatureScheme SecretKey PublicKey Signature
  parseNet : String → Option IpNet
  showNet : IpNet → String
  debugErrors : List AddrErrorContext → String

/-- Parsing inverts printing. -/
def Library.NetTextRoundTrip {SecretKey PublicKey Signature : Type}
    (L : Library SecretKey PublicKey Signature) : Prop :=
  ∀ net : IpNet, L.parseNet (L.showNet net) = some net

section

variable {SecretKey PublicKey Signature : Type} (L : Library SecretKey PublicKey Signature)

/-- Validates a `HostAddress` against the host's public key. The source parses the text twice. -/
def validateAddress (host : HostAddress) (key : PublicKey) : Except AddrError IpNet :=
  match L.parseNet host.peerNetwork with
  | none => .error .parse
  | some net =>
      match L.scheme.tryFrom host.peerNetworkSignature with
      | none => .error .invalidSignature
      | some signature =>
          match L.parseNet host.peerNetwork with
          | none => .error .parse
          | some net' =>
              match verifySignedIpnet L.scheme net' key signature with
              | .error e => .error (.verify e)
              | .ok () => .ok net

/-- One of the networks contains it. -/
def isSubnetOfAny (net : IpNet) (allowed : List IpNet) : Bool := allowed.any (·.contains net)

/-- One round of the loop of `validate_addresses` on its two accumulators. -/
def validateStep (allowedNets : List IpNet) (key : PublicKey)
    (acc : List IpNet × List AddrErrorContext) (host : HostAddress) :
    List IpNet × List AddrErrorContext :=
  match validateAddress L host key with
  | .ok net => if isSubnetOfAny net allowedNets then (acc.1 ++ [net], acc.2) else acc
  | .error e => (acc.1, acc.2 ++ [⟨host.peerNetwork, e⟩])

/-- The valid networks inside `allowedNets`, and the errors of the others. Networks that are valid
    but outside are skipped silently. -/
def validateAddresses (allowedNets : List IpNet) (advertise : Advertise) (key : PublicKey) :
    List IpNet × List AddrErrorContext :=
  advertise.ownAddresses.foldl (validateStep L allowedNets key) ([], [])

end

/-- What all peers have in common. -/
structure CommonPeerConfig where
  allowedNetworks : List IpNet
  icmpGateway : IcmpGateway

/-- The defaults: any address in the VPN's range may be advertised. -/
def CommonPeerConfig.new (icmpGateway : IcmpGateway) : CommonPeerConfig :=
  { allowedNetworks := [.v6 VPN_IPV6_DEFAULT_ALLOWED]
    icmpGateway }

/-- The routes that a request gives. -/
structure RoutesChanged where
  routes : List IpAddr
  deriving DecidableEq

/-- What `handle_control_request` returns, and the status it closed the connection with, if any. -/
structure ControlOutcome where
  result : Except ThinStatus (Option RoutesChanged)
  closedWith : Option ThinStatus

section

variable {SecretKey PublicKey Signature : Type} (L : Library SecretKey PublicKey Signature)

/-- The status of a request without a valid route, with the errors of its entries. -/
def noRoutesStatus (errors : List AddrErrorContext) : ThinStatus :=
  ThinStatus.build .failedPrecondition ("No available routes to the peer; " ++ L.debugErrors errors)

/-- Returns an error iff the connection should be disconnected. `key` is the remote end's public
    key. -/
def handleControlRequest (common : CommonPeerConfig) (key : PublicKey) (request : ControlRequest) :
    ControlOutcome :=
  match request.command with
  | none => ⟨.ok none, none⟩
  | some advertise =>
      let (addrs, addrErrors) := validateAddresses L common.allowedNetworks advertise key
      let newRoutes := addrs.map IpNet.addr
      if newRoutes.isEmpty then
        let status := noRoutesStatus L addrErrors
        ⟨.error status, some status⟩
      else ⟨.ok (some ⟨newRoutes⟩), none⟩

/-- The `Advertise` that `main` builds for a subnet: one entry, the node's own signed address. -/
def ownAdvertise (subnet : BitVec 16) (secretKey : SecretKey) : Advertise :=
  let own := generateSignedIpnet L.scheme (.v6 (vpnSubnet subnet)) secretKey
  ⟨[⟨L.showNet own.1, (L.scheme.toBytes own.2).toList⟩]⟩

end

end P2pVpn
