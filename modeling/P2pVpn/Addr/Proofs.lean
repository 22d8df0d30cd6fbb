import P2pVpn.Addr.Schemes

set_option autoImplicit false

/-! # Signed addresses: derivation, round trip and binding

`deriveIpv6` and `deriveIpv4` keep the network bits of the net they are given, with one exception:
the IPv4 broadcast correction clears bit 0, which belongs to the network when the prefix length is
32. Off that exception every usable address can be derived (`derive_range_usable`) and the round trip
holds (`generateSignedIpnet_roundTrip_iff`); binding (`verifySignedIpnet_binding`) holds everywhere,
since both sides of it run the verifier. -/

namespace P2pVpn

/-! ## Serialization -/

theorem octetsV4_injective {a b : Ipv4Addr} (h : octetsV4 a = octetsV4 b) : a = b :=
  BitVec.eq_of_toNat_eq (beBytes_injOn a.isLt b.isLt h)

theorem octetsV6_injective {a b : Ipv6Addr} (h : octetsV6 a = octetsV6 b) : a = b :=
  BitVec.eq_of_toNat_eq (beBytes_injOn a.isLt b.isLt h)

theorem prefixByte_injective {p q : Nat} (hp : p ≤ 128) (hq : q ≤ 128)
    (h : UInt8.ofNat p = UInt8.ofNat q) : p = q := by
  have hmod : p % 256 = q % 256 := by simpa using congrArg UInt8.toNat h
  omega

/-- There is no family tag in the encoding; the two families are told apart by their lengths. -/
theorem serializeNetwork_injective {n m : IpNet} (h : serializeNetwork n = serializeNetwork m) :
    n = m := by
  cases n with
  | v4 n =>
      cases m with
      | v4 m =>
          simp only [serializeNetwork, List.cons.injEq, IpNet.prefixLen] at h
          obtain ⟨hp, ha⟩ := h
          have hn := n.prefixLen_le
          have hm := m.prefixLen_le
          exact congrArg IpNet.v4 (PrefixNet.ext (octetsV4_injective ha)
            (prefixByte_injective (by omega) (by omega) hp))
      | v6 m =>
          have hlen := congrArg List.length h
          simp [serializeNetwork, octetsV4, octetsV6] at hlen
  | v6 n =>
      cases m with
      | v4 m =>
          have hlen := congrArg List.length h
          simp [serializeNetwork, octetsV4, octetsV6] at hlen
      | v6 m =>
          simp only [serializeNetwork, List.cons.injEq, IpNet.prefixLen] at h
          obtain ⟨hp, ha⟩ := h
          exact congrArg IpNet.v6 (PrefixNet.ext (octetsV6_injective ha)
            (prefixByte_injective n.prefixLen_le m.prefixLen_le hp))

/-! ## Derivation -/

/-- The derived address depends on the net only through its truncation. -/
theorem deriveIpv6_trunc (n : Ipv6Net) (e : BitVec 128) : deriveIpv6 n.trunc e = deriveIpv6 n e := by
  simp only [deriveIpv6, PrefixNet.trunc_netmask, PrefixNet.trunc_addr, PrefixNet.network,
    PrefixNet.and_netmask_idem]

theorem deriveIpv4_trunc (n : Ipv4Net) (e : BitVec 32) : deriveIpv4 n.trunc e = deriveIpv4 n e := by
  simp only [deriveIpv4, PrefixNet.trunc_netmask, PrefixNet.trunc_addr, PrefixNet.network,
    PrefixNet.and_netmask_idem, PrefixNet.trunc_broadcast]

theorem deriveIpv6_and_netmask (n : Ipv6Net) (e : BitVec 128) :
    deriveIpv6 n e &&& n.netmask = n.network :=
  n.or_host_and_netmask n.addr e

/-- With at least one host bit, clearing bit 0 leaves the network bits alone. -/
theorem clear_bit_zero_and_netmask (n : Ipv4Net) (x : BitVec 32) (h : n.prefixLen ≤ 31) :
    x &&& ~~~1#32 &&& n.netmask = x &&& n.netmask := by
  apply BitVec.eq_of_getLsbD_eq
  intro i hi
  simp only [BitVec.getLsbD_and, BitVec.getLsbD_not, PrefixNet.getLsbD_netmask, hi, decide_true,
    Bool.true_and, Bool.and_true]
  rcases Nat.eq_zero_or_pos i with rfl | hpos
  · have hnot : ¬ (32 - n.prefixLen ≤ 0) := by omega
    simp [hnot]
  · have hbit : (1#32).getLsbD i = false := by
      simp; omega
    simp [hbit]

/-- A `/32` net has no host bits: the candidate address is its own broadcast address, so the
    correction always applies. -/
theorem deriveIpv4_of_prefixLen_32 (n : Ipv4Net) (e : BitVec 32) (h : n.prefixLen = 32) :
    deriveIpv4 n e = n.addr &&& ~~~1#32 := by
  have hmask : n.netmask = BitVec.allOnes 32 := by simp [PrefixNet.netmask, h]
  have hhost : n.hostmask = 0#32 := by rw [← n.not_netmask, hmask]; rfl
  simp only [deriveIpv4, PrefixNet.broadcast, hmask, hhost, BitVec.and_allOnes, BitVec.not_allOnes,
    BitVec.and_zero, BitVec.or_zero, if_true]

theorem and_not_one_eq_self_iff (x : BitVec 32) : x &&& ~~~1#32 = x ↔ x.getLsbD 0 = false := by
  constructor
  · intro h
    have hbit := congrArg (fun y => BitVec.getLsbD y 0) h
    simpa using hbit.symm
  · intro h
    apply BitVec.eq_of_getLsbD_eq
    intro i hi
    simp only [BitVec.getLsbD_and, BitVec.getLsbD_not, hi, decide_true, Bool.true_and]
    rcases Nat.eq_zero_or_pos i with rfl | hpos
    · rw [h]; rfl
    · have hbit : (1#32).getLsbD i = false := by
        simp; omega
      simp [hbit]

/-- Where the broadcast correction stays inside the network: there is a host bit, or bit 0 of the
    address is clear already. -/
def BroadcastSafe (n : Ipv4Net) : Prop := n.prefixLen ≤ 31 ∨ n.addr.getLsbD 0 = false

theorem deriveIpv4_and_netmask (n : Ipv4Net) (e : BitVec 32) (h : n.prefixLen ≤ 31) :
    deriveIpv4 n e &&& n.netmask = n.network := by
  simp only [deriveIpv4]
  split_ifs with hb
  · rw [clear_bit_zero_and_netmask n _ h]
    exact n.or_host_and_netmask n.addr e
  · exact n.or_host_and_netmask n.addr e

/-- The derived IPv4 address lies in its net exactly on the safe nets. -/
theorem containsAddr_deriveIpv4_iff (n : Ipv4Net) (e : BitVec 32) :
    n.containsAddr (deriveIpv4 n e) = true ↔ BroadcastSafe n := by
  rw [PrefixNet.containsAddr_iff_and_netmask]
  by_cases h : n.prefixLen ≤ 31
  · exact ⟨fun _ => Or.inl h, fun _ => deriveIpv4_and_netmask n e h⟩
  · have hp : n.prefixLen = 32 := by have := n.prefixLen_le; omega
    have hmask : n.netmask = BitVec.allOnes 32 := by simp [PrefixNet.netmask, hp]
    rw [deriveIpv4_of_prefixLen_32 n e hp, PrefixNet.network, hmask, BitVec.and_allOnes,
      BitVec.and_allOnes, and_not_one_eq_self_iff]
    exact ⟨Or.inr, fun hs => hs.resolve_left h⟩

/-! ## The addresses that can be derived -/

/-- Clearing bit 0 where it is set is subtracting one. -/
theorem and_not_one_of_odd {w : Nat} {x : BitVec w} (h : x.getLsbD 0 = true) :
    x &&& ~~~1#w = x - 1#w := by
  have hdisjoint : (x &&& ~~~1#w) &&& 1#w = 0#w := by
    rw [BitVec.and_assoc, BitVec.and_comm (~~~1#w), BitVec.and_not_self]
    exact BitVec.and_zero
  have hjoin : (x &&& ~~~1#w) ||| 1#w = x := by
    apply BitVec.eq_of_getLsbD_eq
    intro i hi
    by_cases hzero : i = 0
    · subst hzero
      simp [h, hi]
    · simp [hi, hzero]
  rw [BitVec.eq_sub_iff_add_eq, BitVec.add_eq_or_of_and_eq_zero _ _ hdisjoint, hjoin]

theorem deriveIpv6_eq_withHost (n : Ipv6Net) (e : BitVec 128) : deriveIpv6 n e = n.withHost e := by
  simp only [deriveIpv6, PrefixNet.withHost, PrefixNet.network, PrefixNet.not_netmask]

/-- The broadcast address gives way to the one before it. -/
theorem deriveIpv4_eq_withHost (n : Ipv4Net) (h : n.prefixLen ≤ 31) (e : BitVec 32) :
    deriveIpv4 n e = if n.withHost e = n.broadcast then n.broadcast - 1#32 else n.withHost e := by
  have hbits : (n.addr &&& n.netmask) ||| (e &&& ~~~n.netmask) = n.withHost e := by
    rw [PrefixNet.withHost, PrefixNet.network, PrefixNet.not_netmask]
  simp only [deriveIpv4, hbits]
  split_ifs with hb
  · rw [hb, and_not_one_of_odd (n.getLsbD_zero_broadcast (by omega))]
  · rfl

theorem range_deriveIpv4 (n : Ipv4Net) (h : n.prefixLen ≤ 31) :
    Set.range (deriveIpv4 n) = {a | n.containsAddr a = true ∧ a ≠ n.broadcast} := by
  ext a
  constructor
  · rintro ⟨e, rfl⟩
    rw [deriveIpv4_eq_withHost n h e]
    split_ifs with hb
    · refine ⟨n.containsAddr_broadcast_sub_one (by omega), ?_⟩
      intro heq
      have hsub : n.broadcast - (n.broadcast - 1#32) = 1#32 := sub_sub_cancel _ _
      rw [heq, sub_self] at hsub
      exact absurd hsub (by decide)
    · exact ⟨n.containsAddr_withHost e, hb⟩
  · rintro ⟨hin, hne⟩
    refine ⟨a, ?_⟩
    rw [deriveIpv4_eq_withHost n h a, PrefixNet.withHost_eq_self hin, if_neg hne]

theorem range_deriveIpv6 (n : Ipv6Net) :
    Set.range (deriveIpv6 n) = {a | n.containsAddr a = true} := by
  rw [← n.range_withHost]
  exact congrArg Set.range (funext (deriveIpv6_eq_withHost n))

/-- **Every usable address can be derived, and no other.** In an IPv4 net with a host bit these are
    the addresses of the net except its broadcast address, in an IPv6 net all of them. What is derived
    depends on the net through its truncation only; in IPv4 it is the network bits with the host bits of
    the entropy, or one less where that is the broadcast address. -/
theorem derive_range_usable :
    (∀ n : Ipv4Net, n.prefixLen ≤ 31 →
      Set.range (deriveIpv4 n) = {a | n.containsAddr a = true ∧ a ≠ n.broadcast} ∧
      (∀ m : Ipv4Net, m.trunc = n.trunc → deriveIpv4 m = deriveIpv4 n) ∧
      ∀ e, deriveIpv4 n e
        = if n.withHost e = n.broadcast then n.broadcast - 1#32 else n.withHost e) ∧
    ∀ n : Ipv6Net,
      Set.range (deriveIpv6 n) = {a | n.containsAddr a = true} ∧
      ∀ m : Ipv6Net, m.trunc = n.trunc → deriveIpv6 m = deriveIpv6 n := by
  refine ⟨?_, ?_⟩
  · intro n h
    refine ⟨range_deriveIpv4 n h, ?_, deriveIpv4_eq_withHost n h⟩
    intro m htrunc
    funext e
    rw [← deriveIpv4_trunc m, htrunc, deriveIpv4_trunc]
  · intro n
    refine ⟨range_deriveIpv6 n, ?_⟩
    intro m htrunc
    funext e
    rw [← deriveIpv6_trunc m, htrunc, deriveIpv6_trunc]

/-- `10.0.0.7/31` has one usable address, `10.0.0.6`, although its host bit is set. -/
theorem derive_range_usable_slash31 :
    Set.range (deriveIpv4 ⟨0x0a000007#32, 31, by decide⟩) = {0x0a000006#32} := by
  rw [(derive_range_usable.1 _ (by decide)).1]
  ext a
  simp only [Set.mem_ofPred_eq, Set.mem_singleton_iff, PrefixNet.containsAddr, Bool.and_eq_true,
    decide_eq_true_eq, BitVec.le_def]
  have hlow : (⟨0x0a000007#32, 31, by decide⟩ : Ipv4Net).network = 0x0a000006#32 := by decide
  have hhigh : (⟨0x0a000007#32, 31, by decide⟩ : Ipv4Net).broadcast = 0x0a000007#32 := by decide
  rw [hlow, hhigh]
  constructor
  · rintro ⟨⟨hge, hle⟩, hne⟩
    apply BitVec.eq_of_toNat_eq
    have hne' : a.toNat ≠ (0x0a000007#32).toNat := fun h => hne (BitVec.eq_of_toNat_eq h)
    simp only [BitVec.toNat_ofNat] at hge hle hne' ⊢
    omega
  · rintro rfl
    decide

section

variable {SecretKey PublicKey Signature : Type}
  (S : SignatureScheme SecretKey PublicKey Signature)

theorem generateSignedIpWithSignature_trunc (net : IpNet) (sig : Signature) :
    generateSignedIpWithSignature S net.trunc sig = generateSignedIpWithSignature S net sig := by
  cases net with
  | v4 n => exact congrArg IpAddr.v4 (deriveIpv4_trunc n _)
  | v6 n => exact congrArg IpAddr.v6 (deriveIpv6_trunc n _)

/-! ## The verifier -/

/-- What acceptance means: the signature is valid for the truncated network, and the address is the
    one the signature derives in it. -/
theorem verifySignedIpnet_ok_iff (net : IpNet) (pk : PublicKey) (sig : Signature) :
    verifySignedIpnet S net pk sig = .ok () ↔
      S.verify pk (serializeNetwork net.trunc) sig = true ∧
        net.addr = generateSignedIpWithSignature S net sig := by
  simp only [verifySignedIpnet, generateSignedIpWithSignature_trunc]
  split_ifs with hv ha
  · exact ⟨fun _ => ⟨hv, ha⟩, fun _ => rfl⟩
  · exact ⟨fun h => by simp at h, fun h => absurd h.2 ha⟩
  · exact ⟨fun h => by simp at h, fun h => absurd h.1 hv⟩

/-- A net is determined by its truncation and the address it carries. -/
theorem IpNet.eq_of_trunc_eq_of_addr_eq {n m : IpNet} (ht : n.trunc = m.trunc)
    (ha : n.addr = m.addr) : n = m := by
  cases n with
  | v4 n =>
      cases m with
      | v4 m =>
          simp only [IpNet.addr, IpAddr.v4.injEq] at ha
          exact congrArg IpNet.v4 (PrefixNet.ext ha (congrArg IpNet.prefixLen ht))
      | v6 m => simp [IpNet.trunc] at ht
  | v6 n =>
      cases m with
      | v4 m => simp [IpNet.trunc] at ht
      | v6 m =>
          simp only [IpNet.addr, IpAddr.v6.injEq] at ha
          exact congrArg IpNet.v6 (PrefixNet.ext ha (congrArg IpNet.prefixLen ht))

/-- **One signature authorises one address.** Two nets accepted under one key with one signature are
    the same net: same family, same prefix length, same host. -/
theorem verifySignedIpnet_binding (hS : S.Binding) (pk : PublicKey) (sig : Signature)
    (n₁ n₂ : IpNet) (h₁ : verifySignedIpnet S n₁ pk sig = .ok ())
    (h₂ : verifySignedIpnet S n₂ pk sig = .ok ()) : n₁ = n₂ := by
  obtain ⟨hv₁, ha₁⟩ := (verifySignedIpnet_ok_iff S n₁ pk sig).1 h₁
  obtain ⟨hv₂, ha₂⟩ := (verifySignedIpnet_ok_iff S n₂ pk sig).1 h₂
  have htrunc : n₁.trunc = n₂.trunc := serializeNetwork_injective (hS pk sig _ _ hv₁ hv₂)
  apply IpNet.eq_of_trunc_eq_of_addr_eq htrunc
  -- the derived host bits are a function of the truncated net and the signature alone
  rw [ha₁, ha₂, ← generateSignedIpWithSignature_trunc S n₁, htrunc,
    generateSignedIpWithSignature_trunc]

/-- The same address, once with its host bits in place, under the transparent scheme. -/
theorem verifySignedIpnet_binding_transparent :
    verifySignedIpnet transparentScheme (.v6 ⟨0xfdbd_a6ce_654d_0000_65ce_a6bd_fd40_1107#128, 64, by decide⟩)
        7 (transparentScheme.sign 7 (serializeNetwork (.v6 (vpnSubnet 0)))) = .ok () ∧
      ∀ n : IpNet, verifySignedIpnet transparentScheme n 7
          (transparentScheme.sign 7 (serializeNetwork (.v6 (vpnSubnet 0)))) = .ok () →
        n = .v6 ⟨0xfdbd_a6ce_654d_0000_65ce_a6bd_fd40_1107#128, 64, by decide⟩ := by
  have h : verifySignedIpnet transparentScheme
      (.v6 ⟨0xfdbd_a6ce_654d_0000_65ce_a6bd_fd40_1107#128, 64, by decide⟩) 7
      (transparentScheme.sign 7 (serializeNetwork (.v6 (vpnSubnet 0)))) = .ok () := by
    decide
  exact ⟨h, fun n hn =>
    verifySignedIpnet_binding transparentScheme transparentScheme_ideal.binding 7 _ _ _ hn h⟩

/-! ## Generating, then verifying -/

/-- The generated net truncates to the truncation of the requested one as soon as the generated
    address stays inside it; the verifier then re-derives what the signer derived. -/
theorem verifySignedIpnet_generateSignedIpnet (hS : S.Correct) (net : IpNet) (sk : SecretKey)
    (h : net.containsAddr (generateSignedIpnet S net sk).1.addr = true) :
    verifySignedIpnet S (generateSignedIpnet S net sk).1 (S.publicKey sk)
      (generateSignedIpnet S net sk).2 = .ok () := by
  have htrunc : (generateSignedIpnet S net sk).1.trunc = net.trunc := by
    cases net with
    | v4 n =>
        exact congrArg IpNet.v4 (PrefixNet.trunc_eq_trunc rfl
          ((n.containsAddr_iff_and_netmask _).1 h))
    | v6 n =>
        exact congrArg IpNet.v6 (PrefixNet.trunc_eq_trunc rfl
          ((n.containsAddr_iff_and_netmask _).1 h))
  rw [verifySignedIpnet_ok_iff, htrunc, ← generateSignedIpWithSignature_trunc, htrunc,
    generateSignedIpWithSignature_trunc]
  refine ⟨hS sk _, ?_⟩
  cases net with
  | v4 n => rfl
  | v6 n => rfl

theorem generateSignedIpnet_prefixLen (net : IpNet) (sk : SecretKey) :
    (generateSignedIpnet S net sk).1.prefixLen = net.prefixLen := by
  cases net with
  | v4 n => rfl
  | v6 n => rfl

theorem containsAddr_generateSignedIpnet_v6 (n : Ipv6Net) (sk : SecretKey) :
    (IpNet.v6 n).containsAddr (generateSignedIpnet S (.v6 n) sk).1.addr = true :=
  (n.containsAddr_iff_and_netmask _).2 (deriveIpv6_and_netmask n _)

/-- **Generate-then-verify round trip, exactly.** The generated address lies in the requested net,
    keeps its prefix length and is accepted by the verifier, except for IPv4 `/32` nets of an odd
    address: there the broadcast correction moves the address out of the net. -/
theorem generateSignedIpnet_roundTrip_iff (hS : S.Correct) (net : IpNet) (sk : SecretKey) :
    (net.containsAddr (generateSignedIpnet S net sk).1.addr = true ∧
      (generateSignedIpnet S net sk).1.prefixLen = net.prefixLen ∧
      verifySignedIpnet S (generateSignedIpnet S net sk).1 (S.publicKey sk)
        (generateSignedIpnet S net sk).2 = .ok ()) ↔
      ∀ n : Ipv4Net, net = .v4 n → n.prefixLen ≤ 31 ∨ n.addr.getLsbD 0 = false := by
  constructor
  · rintro ⟨hin, -, -⟩ n rfl
    exact (containsAddr_deriveIpv4_iff n _).1 hin
  · intro hsafe
    have hin : net.containsAddr (generateSignedIpnet S net sk).1.addr = true := by
      cases net with
      | v4 n => exact (containsAddr_deriveIpv4_iff n _).2 (hsafe n rfl)
      | v6 n => exact containsAddr_generateSignedIpnet_v6 S n sk
    exact ⟨hin, generateSignedIpnet_prefixLen S net sk,
      verifySignedIpnet_generateSignedIpnet S hS net sk hin⟩

/-- `10.1.2.0/24`, under the packed scheme. -/
theorem generateSignedIpnet_roundTrip_slash24 :
    (IpNet.v4 ⟨0x0a010200#32, 24, by decide⟩).containsAddr
        (generateSignedIpnet packedScheme (.v4 ⟨0x0a010200#32, 24, by decide⟩) 7).1.addr = true ∧
      (generateSignedIpnet packedScheme (.v4 ⟨0x0a010200#32, 24, by decide⟩) 7).1.prefixLen
        = (IpNet.v4 ⟨0x0a010200#32, 24, by decide⟩).prefixLen ∧
      verifySignedIpnet packedScheme
        (generateSignedIpnet packedScheme (.v4 ⟨0x0a010200#32, 24, by decide⟩) 7).1
        (packedScheme.publicKey 7)
        (generateSignedIpnet packedScheme (.v4 ⟨0x0a010200#32, 24, by decide⟩) 7).2 = .ok () := by
  refine (generateSignedIpnet_roundTrip_iff packedScheme packedScheme_correct _ _).2 ?_
  rintro n ⟨⟩
  exact Or.inl (by decide)

/-- `10.0.0.1/32`: the generated address is `10.0.0.0`, outside the net it was requested in, and the
    verifier rejects it. -/
theorem generateSignedIpnet_leaves_odd_slash32 :
    ¬ ((IpNet.v4 ⟨0x0a000001#32, 32, by decide⟩).containsAddr
        (generateSignedIpnet packedScheme (.v4 ⟨0x0a000001#32, 32, by decide⟩) 7).1.addr = true ∧
      (generateSignedIpnet packedScheme (.v4 ⟨0x0a000001#32, 32, by decide⟩) 7).1.prefixLen
        = (IpNet.v4 ⟨0x0a000001#32, 32, by decide⟩).prefixLen ∧
      verifySignedIpnet packedScheme
        (generateSignedIpnet packedScheme (.v4 ⟨0x0a000001#32, 32, by decide⟩) 7).1
        (packedScheme.publicKey 7)
        (generateSignedIpnet packedScheme (.v4 ⟨0x0a000001#32, 32, by decide⟩) 7).2 = .ok ()) := by
  rintro ⟨hin, -, -⟩
  exact absurd ((containsAddr_deriveIpv4_iff _ _).1 hin) (by simp [BroadcastSafe])

end

end P2pVpn
