import P2pVpn.Lib.Bytes
import P2pVpn.Lib.Prefix

set_option autoImplicit false

/-! # Addresses and signed networks (`src/addr.rs`)

IP addresses and networks of both families, and the functions that derive a host address from a
signature and verify one. Networks are `PrefixNet`s at width 32 and 128, so a prefix length that does
not fit its family cannot be written down. The Ed25519 operations of `iroh` are a parameter
(`SignatureScheme`); what a result assumes about them is one of the named properties below it. -/

namespace P2pVpn

/-- An IPv4 address, as its 32 bits. -/
abbrev Ipv4Addr := BitVec 32

/-- An IPv6 address, as its 128 bits. -/
abbrev Ipv6Addr := BitVec 128

/-- An IPv4 address with a prefix length (`ipnet::Ipv4Net`). -/
abbrev Ipv4Net := PrefixNet 32

/-- An IPv6 address with a prefix length (`ipnet::Ipv6Net`). -/
abbrev Ipv6Net := PrefixNet 128

/-- An address of either family. -/
inductive IpAddr where
  | v4 (a : Ipv4Addr)
  | v6 (a : Ipv6Addr)
  deriving DecidableEq

/-- An address of either family with a prefix length, host bits set or not. -/
inductive IpNet where
  | v4 (n : Ipv4Net)
  | v6 (n : Ipv6Net)
  deriving DecidableEq

/-- The number of bits of an address's family. -/
def IpAddr.maxPrefixLen : IpAddr → Nat
  | .v4 _ => 32
  | .v6 _ => 128

/-- `Ipv4Addr::octets`: network byte order. -/
def octetsV4 (a : Ipv4Addr) : List UInt8 := beBytes 4 a.toNat

/-- `Ipv6Addr::octets`. -/
def octetsV6 (a : Ipv6Addr) : List UInt8 := beBytes 16 a.toNat

namespace IpNet

/-- The address, with its host bits. -/
def addr : IpNet → IpAddr
  | .v4 n => .v4 n.addr
  | .v6 n => .v6 n.addr

/-- The length of the prefix, in bits. -/
def prefixLen : IpNet → Nat
  | .v4 n => n.prefixLen
  | .v6 n => n.prefixLen

/-- The network with its host bits cleared. -/
def trunc : IpNet → IpNet
  | .v4 n => .v4 n.trunc
  | .v6 n => .v6 n.trunc

/-- `IpNet::contains` on networks: false across families. -/
def contains : IpNet → IpNet → Bool
  | .v4 n, .v4 m => n.contains m
  | .v6 n, .v6 m => n.contains m
  | _, _ => false

/-- `IpNet::contains` on addresses: false across families. -/
def containsAddr : IpNet → IpAddr → Bool
  | .v4 n, .v4 a => n.containsAddr a
  | .v6 n, .v6 a => n.containsAddr a
  | _, _ => false

/-- `IpNet::new_assert`. The source panics on a prefix length that is too long; here the caller
    hands in the bound. -/
def newAssert : (ip : IpAddr) → (prefixLen : Nat) → prefixLen ≤ ip.maxPrefixLen → IpNet
  | .v4 a, p, h => .v4 ⟨a, p, h⟩
  | .v6 a, p, h => .v6 ⟨a, p, h⟩

end IpNet

/-! ## The VPN's address plan -/

/-- The /48 all addresses of the VPN are generated in. -/
def VPN_IPV6_PREFIX : Ipv6Net :=
  ⟨0xfdbd_a6ce_654d_0000_0000_0000_0000_0000#128, 48, by decide⟩

/-- A 1-bit sub-range of `VPN_IPV6_PREFIX`: subnets 0x8000 and above are reserved. -/
def VPN_IPV6_DEFAULT_ALLOWED : Ipv6Net :=
  ⟨VPN_IPV6_PREFIX.addr, VPN_IPV6_PREFIX.prefixLen + 1, by decide⟩

/-- The highest legal value of a subnet ID. -/
def MAX_SUBNET : BitVec 16 :=
  BitVec.allOnes 16 >>> (VPN_IPV6_DEFAULT_ALLOWED.prefixLen - VPN_IPV6_PREFIX.prefixLen)

theorem subnetPrefixLen_le : 64 ≤ 128 := by decide

/-- The `/64` network of a 16-bit subnet ID within `VPN_IPV6_PREFIX`. -/
def vpnSubnet (subnet : BitVec 16) : Ipv6Net :=
  ⟨VPN_IPV6_PREFIX.addr ||| (subnet.setWidth 128 <<< 64), 64, subnetPrefixLen_le⟩

/-! ## Signatures -/

/-- The key and signature operations of `iroh`. -/
structure SignatureScheme (SecretKey PublicKey Signature : Type) where
  /-- `SecretKey::public`. -/
  publicKey : SecretKey → PublicKey
  sign : SecretKey → List UInt8 → Signature
  verify : PublicKey → List UInt8 → Signature → Bool
  toBytes : Signature → Vector UInt8 64
  /-- `Signature::try_from` on a byte slice. -/
  tryFrom : List UInt8 → Option Signature

namespace SignatureScheme

variable {SecretKey PublicKey Signature : Type}
  (S : SignatureScheme SecretKey PublicKey Signature)

/-- A signature made by a key verifies under its public key. -/
def Correct : Prop :=
  ∀ (sk : SecretKey) (msg : List UInt8), S.verify (S.publicKey sk) msg (S.sign sk msg) = true

/-- Under one public key a signature is valid for at most one message. -/
def Binding : Prop :=
  ∀ (pk : PublicKey) (sig : Signature) (m m' : List UInt8),
    S.verify pk m sig = true → S.verify pk m' sig = true → m = m'

/-- The ideal scheme: for each key one valid signature per message, which is valid for no other
    message and no other key. -/
structure Ideal : Prop where
  correct : S.Correct
  unique : ∀ (pk : PublicKey) (msg : List UInt8) (sig sig' : Signature),
    S.verify pk msg sig = true → S.verify pk msg sig' = true → sig = sig'
  exclusive : ∀ (pk pk' : PublicKey) (m m' : List UInt8) (sig : Signature),
    S.verify pk m sig = true → S.verify pk' m' sig = true → pk = pk' ∧ m = m'

theorem Ideal.binding {S : SignatureScheme SecretKey PublicKey Signature} (h : S.Ideal) : S.Binding :=
  fun pk sig m m' hm hm' => (h.exclusive pk pk m m' sig hm hm').2

/-- Reading back the bytes of a signature gives the signature. -/
def BytesRoundTrip : Prop :=
  ∀ sig : Signature, S.tryFrom (S.toBytes sig).toList = some sig

end SignatureScheme

/-! ## Deriving and verifying addresses -/

/-- The prefix length as the first byte, then the network address in network byte order. -/
def serializeNetwork (net : IpNet) : List UInt8 :=
  UInt8.ofNat net.prefixLen ::
    match net with
    | .v4 net4 => octetsV4 net4.addr
    | .v6 net6 => octetsV6 net6.addr

/-- The network bits, filled up with entropy; the broadcast address is avoided. -/
def deriveIpv4 (net : Ipv4Net) (entropy : BitVec 32) : Ipv4Addr :=
  let netMask := net.netmask
  let netBits := net.addr &&& netMask
  let hostBits := entropy &&& ~~~netMask
  let finalBits := netBits ||| hostBits
  if finalBits = net.broadcast then finalBits &&& ~~~1#32 else finalBits

/-- The network bits, filled up with entropy. -/
def deriveIpv6 (net : Ipv6Net) (entropy : BitVec 128) : Ipv6Addr :=
  let netMask := net.netmask
  let netBits := net.addr &&& netMask
  let hostBits := entropy &&& ~~~netMask
  netBits ||| hostBits

/-- Why `verify_signed_ipnet` refused an address. -/
inductive VerifyError where
  /-- `PublicKey::verify` failed. -/
  | signature
  /-- `ErrorKind::PermissionDenied`: the address is not the one the signature generates. -/
  | permissionDenied (net : IpNet) (genAddr : IpAddr)
  deriving DecidableEq

section

variable {SecretKey PublicKey Signature : Type}
  (S : SignatureScheme SecretKey PublicKey Signature)

/-- `u128::from_le_bytes` of the first 16 bytes of a signature. -/
def entropy128 (signature : Signature) : BitVec 128 :=
  BitVec.ofNat 128 (ofLeBytes ((S.toBytes signature).toList.take 16))

/-- Derive the IP address from an existing signature. -/
def generateSignedIpWithSignature (net : IpNet) (signature : Signature) : IpAddr :=
  match net with
  | .v4 net4 => .v4 (deriveIpv4 net4 ((entropy128 S signature).setWidth 32))
  | .v6 net6 => .v6 (deriveIpv6 net6 (entropy128 S signature))

theorem generateSignedIpWithSignature_maxPrefixLen (net : IpNet) (signature : Signature) :
    net.prefixLen ≤ (generateSignedIpWithSignature S net signature).maxPrefixLen := by
  cases net with
  | v4 n => exact n.prefixLen_le
  | v6 n => exact n.prefixLen_le

/-- Signs the truncated network, and derives the host bits from the signature. -/
def generateSignedIpnet (net : IpNet) (secretKey : SecretKey) : IpNet × Signature :=
  let signature := S.sign secretKey (serializeNetwork net.trunc)
  let ip := generateSignedIpWithSignature S net signature
  (IpNet.newAssert ip net.prefixLen (generateSignedIpWithSignature_maxPrefixLen S net signature),
    signature)

/-- Checks the signature of the truncated network, and that the host bits are those it gives. -/
def verifySignedIpnet (net : IpNet) (publicKey : PublicKey) (signature : Signature) :
    Except VerifyError Unit :=
  let baseNet := net.trunc
  let networkBytes := serializeNetwork baseNet
  if S.verify publicKey networkBytes signature then
    let genAddr := generateSignedIpWithSignature S baseNet signature
    if net.addr = genAddr then .ok () else .error (.permissionDenied net genAddr)
  else .error .signature

end

end P2pVpn
