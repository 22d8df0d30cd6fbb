import P2pVpn.Addr.Proofs

set_option autoImplicit false

/-! # The address plan

`VPN_IPV6_DEFAULT_ALLOWED` is the union of the subnets `vpnSubnet s` with `s ≤ MAX_SUBNET`: every
address inside it lies in exactly one of them, the one its bits 64 to 79 name (`subnetOf`). -/

namespace P2pVpn

/-- The 48 bits of `VPN_IPV6_PREFIX`, as a number. -/
def vpnGlobalId : Nat := 0xfdbd_a6ce_654d

/-- The subnet ID in an address. -/
def subnetOf (a : Ipv6Addr) : BitVec 16 := (a >>> 64).setWidth 16

/-- The `/64` net around an address. -/
def slash64 (a : Ipv6Addr) : Ipv6Net := ⟨a, 64, subnetPrefixLen_le⟩

theorem vpnSubnet_toNat (s : BitVec 16) :
    (vpnSubnet s).addr.toNat = vpnGlobalId * 2 ^ 80 + s.toNat * 2 ^ 64 := by
  have hs := s.isLt
  have hbase : VPN_IPV6_PREFIX.addr.toNat = 2 ^ 80 * vpnGlobalId := by decide
  have hshift : (s.setWidth 128 <<< 64).toNat = s.toNat * 2 ^ 64 := by
    rw [BitVec.toNat_shiftLeft, BitVec.toNat_setWidth, Nat.shiftLeft_eq]
    omega
  have hlt : s.toNat * 2 ^ 64 < 2 ^ 80 := by omega
  simp only [vpnSubnet, BitVec.toNat_or, hbase, hshift]
  rw [← Nat.two_pow_add_eq_or_of_lt hlt, Nat.mul_comm]

theorem MAX_SUBNET_toNat : MAX_SUBNET.toNat = 0x7fff := by decide

theorem le_MAX_SUBNET_iff (s : BitVec 16) : s ≤ MAX_SUBNET ↔ s.toNat < 2 ^ 15 := by
  rw [BitVec.le_def, MAX_SUBNET_toNat]
  omega

/-- The allowed range, by the top 49 bits of an address. -/
theorem defaultAllowed_containsAddr_iff (a : Ipv6Addr) :
    VPN_IPV6_DEFAULT_ALLOWED.containsAddr a = true ↔ a.toNat / 2 ^ 79 = 2 * vpnGlobalId := by
  have hhost : VPN_IPV6_DEFAULT_ALLOWED.hostLen = 79 := by decide
  have hbase : VPN_IPV6_DEFAULT_ALLOWED.addr.toNat / 2 ^ 79 = 2 * vpnGlobalId := by decide
  rw [PrefixNet.containsAddr_iff_div, hhost, hbase]

theorem slash64_network_toNat (a : Ipv6Addr) :
    (slash64 a).network.toNat = a.toNat / 2 ^ 64 * 2 ^ 64 := by
  have hhost : (slash64 a).hostLen = 64 := rfl
  rw [PrefixNet.toNat_network, hhost]
  rfl

theorem subnetOf_toNat (a : Ipv6Addr) : (subnetOf a).toNat = a.toNat / 2 ^ 64 % 2 ^ 16 := by
  rw [subnetOf, BitVec.toNat_setWidth, BitVec.toNat_ushiftRight, Nat.shiftRight_eq_div_pow]

/-- An allowed address lies in the legal subnet its bits name. -/
theorem slash64_trunc_of_allowed (a : Ipv6Addr)
    (h : VPN_IPV6_DEFAULT_ALLOWED.containsAddr a = true) :
    subnetOf a ≤ MAX_SUBNET ∧ (slash64 a).trunc = vpnSubnet (subnetOf a) := by
  have hdiv := (defaultAllowed_containsAddr_iff a).1 h
  have hs := subnetOf_toNat a
  refine ⟨(le_MAX_SUBNET_iff _).2 ?_, PrefixNet.ext (BitVec.eq_of_toNat_eq ?_) rfl⟩
  · omega
  · rw [PrefixNet.trunc_addr, slash64_network_toNat, vpnSubnet_toNat]
    omega

/-- An address of subnet `s` is allowed exactly when `s` is legal. -/
theorem defaultAllowed_containsAddr_of_mem (a : Ipv6Addr) (s : BitVec 16)
    (h : (slash64 a).trunc = vpnSubnet s) :
    VPN_IPV6_DEFAULT_ALLOWED.containsAddr a = true ↔ s ≤ MAX_SUBNET := by
  have hnet : a.toNat / 2 ^ 64 * 2 ^ 64 = vpnGlobalId * 2 ^ 80 + s.toNat * 2 ^ 64 := by
    rw [← slash64_network_toNat, ← vpnSubnet_toNat, ← PrefixNet.trunc_addr, h]
  have hs := s.isLt
  rw [defaultAllowed_containsAddr_iff, le_MAX_SUBNET_iff]
  omega

/-- A derived address of `vpnSubnet s` lies in it. -/
theorem slash64_deriveIpv6 (s : BitVec 16) (e : BitVec 128) :
    (slash64 (deriveIpv6 (vpnSubnet s) e)).trunc = vpnSubnet s := by
  have hmask : (slash64 (deriveIpv6 (vpnSubnet s) e)).netmask = (vpnSubnet s).netmask := rfl
  have hnet : (vpnSubnet s).network = (vpnSubnet s).addr := by
    apply BitVec.eq_of_toNat_eq
    have hhost : (vpnSubnet s).hostLen = 64 := rfl
    rw [PrefixNet.toNat_network, hhost, vpnSubnet_toNat]
    omega
  refine PrefixNet.ext ?_ rfl
  rw [PrefixNet.trunc_addr, PrefixNet.network, hmask, ← hnet]
  exact deriveIpv6_and_netmask (vpnSubnet s) e

end P2pVpn
