import Mathlib

set_option autoImplicit false

/-! # Prefix networks over `w`-bit addresses

A prefix network is a `w`-bit address together with a prefix length. The masks, the network and
broadcast addresses, truncation and containment are the usual CIDR ones, with containment decided
by comparing the two end points of each range. Everything here is generic over the width, so both
address families of an IP stack are instances.

Two views of the same arithmetic are kept side by side: a bitwise one (`getLsbD_netmask`, used to
combine network and host bits) and a numeric one (`toNat_network`, used to compare end points). The
bridge is `containsAddr_iff_and_netmask`. -/

/-- An address of width `w` with a prefix length, host bits set or not. -/
structure PrefixNet (w : Nat) where
  addr : BitVec w
  prefixLen : Nat
  prefixLen_le : prefixLen ≤ w
  deriving DecidableEq

namespace PrefixNet

variable {w : Nat}

/-- The number of host bits. -/
def hostLen (n : PrefixNet w) : Nat := w - n.prefixLen

/-- The bits of the prefix. -/
def netmask (n : PrefixNet w) : BitVec w := BitVec.allOnes w <<< (w - n.prefixLen)

/-- The bits of the host. -/
def hostmask (n : PrefixNet w) : BitVec w := BitVec.allOnes w >>> n.prefixLen

/-- The first address of the network. -/
def network (n : PrefixNet w) : BitVec w := n.addr &&& n.netmask

/-- The last address of the network. -/
def broadcast (n : PrefixNet w) : BitVec w := n.addr ||| n.hostmask

/-- The same network with its host bits cleared. -/
def trunc (n : PrefixNet w) : PrefixNet w := { n with addr := n.network }

/-- The address lies between the network and the broadcast address. -/
def containsAddr (n : PrefixNet w) (a : BitVec w) : Bool :=
  decide (n.network ≤ a) && decide (a ≤ n.broadcast)

/-- `m`'s whole range lies inside `n`'s. -/
def contains (n m : PrefixNet w) : Bool :=
  decide (n.network ≤ m.network) && decide (m.broadcast ≤ n.broadcast)

@[ext] theorem ext {n m : PrefixNet w} (ha : n.addr = m.addr) (hp : n.prefixLen = m.prefixLen) :
    n = m := by
  cases n; cases m; simp_all

/-! ## Bitwise view -/

theorem getLsbD_netmask (n : PrefixNet w) (i : Nat) :
    n.netmask.getLsbD i = (decide (w - n.prefixLen ≤ i) && decide (i < w)) := by
  simp only [netmask, BitVec.getLsbD_shiftLeft, BitVec.getLsbD_allOnes]
  by_cases hi : i < w
  · by_cases hle : w - n.prefixLen ≤ i
    · simp [hi, hle, Nat.not_lt.2 hle]; omega
    · simp [hi, hle, Nat.lt_of_not_le hle]
  · simp [hi]

theorem getLsbD_hostmask (n : PrefixNet w) (i : Nat) :
    n.hostmask.getLsbD i = decide (i < w - n.prefixLen) := by
  simp only [hostmask, BitVec.getLsbD_ushiftRight, BitVec.getLsbD_allOnes]
  congr 1
  exact propext ⟨fun h => by omega, fun h => by omega⟩

theorem not_netmask (n : PrefixNet w) : ~~~n.netmask = n.hostmask := by
  apply BitVec.eq_of_getLsbD_eq
  intro i hi
  rw [BitVec.getLsbD_not, getLsbD_netmask, getLsbD_hostmask]
  by_cases hle : w - n.prefixLen ≤ i
  · simp [hi, hle, Nat.not_lt.2 hle]
  · simp [hi, hle, Nat.lt_of_not_le hle]

theorem netmask_eq_of_prefixLen_eq {n m : PrefixNet w} (h : n.prefixLen = m.prefixLen) :
    n.netmask = m.netmask := by
  simp only [netmask, h]

theorem and_netmask_idem (n : PrefixNet w) (x : BitVec w) :
    x &&& n.netmask &&& n.netmask = x &&& n.netmask := by
  rw [BitVec.and_assoc, BitVec.and_self]

/-- Masking network bits out of `network | host` gives the network back. -/
theorem or_host_and_netmask (n : PrefixNet w) (x e : BitVec w) :
    ((x &&& n.netmask) ||| (e &&& ~~~n.netmask)) &&& n.netmask = x &&& n.netmask := by
  apply BitVec.eq_of_getLsbD_eq
  intro i _
  simp only [BitVec.getLsbD_and, BitVec.getLsbD_or, BitVec.getLsbD_not]
  cases n.netmask.getLsbD i <;> simp

theorem or_host_and_hostmask (n : PrefixNet w) (x e : BitVec w) :
    ((x &&& n.netmask) ||| (e &&& ~~~n.netmask)) &&& ~~~n.netmask = e &&& ~~~n.netmask := by
  apply BitVec.eq_of_getLsbD_eq
  intro i _
  simp only [BitVec.getLsbD_and, BitVec.getLsbD_or, BitVec.getLsbD_not]
  cases n.netmask.getLsbD i <;> simp

/-- An address is its network bits together with its host bits. -/
theorem and_netmask_or_and_hostmask (n : PrefixNet w) (x : BitVec w) :
    (x &&& n.netmask) ||| (x &&& ~~~n.netmask) = x := by
  apply BitVec.eq_of_getLsbD_eq
  intro i hi
  simp only [BitVec.getLsbD_and, BitVec.getLsbD_or, BitVec.getLsbD_not, hi, decide_true,
    Bool.true_and]
  cases n.netmask.getLsbD i <;> simp

/-! ## Truncation -/

@[simp] theorem trunc_addr (n : PrefixNet w) : n.trunc.addr = n.network := rfl

@[simp] theorem trunc_netmask (n : PrefixNet w) : n.trunc.netmask = n.netmask := rfl

@[simp] theorem trunc_network (n : PrefixNet w) : n.trunc.network = n.network :=
  n.and_netmask_idem n.addr

theorem trunc_trunc (n : PrefixNet w) : n.trunc.trunc = n.trunc :=
  PrefixNet.ext n.trunc_network rfl

theorem network_or_hostmask (n : PrefixNet w) : n.network ||| n.hostmask = n.broadcast := by
  rw [← not_netmask]
  apply BitVec.eq_of_getLsbD_eq
  intro i hi
  simp only [broadcast, network, ← not_netmask, BitVec.getLsbD_and, BitVec.getLsbD_or,
    BitVec.getLsbD_not, hi, decide_true, Bool.true_and]
  cases n.netmask.getLsbD i <;> cases n.addr.getLsbD i <;> rfl

@[simp] theorem trunc_broadcast (n : PrefixNet w) : n.trunc.broadcast = n.broadcast :=
  n.network_or_hostmask

/-- Two nets of one prefix length truncate alike as soon as their network addresses agree. -/
theorem trunc_eq_trunc {n m : PrefixNet w} (hp : n.prefixLen = m.prefixLen)
    (ha : n.network = m.network) : n.trunc = m.trunc :=
  PrefixNet.ext ha hp

/-! ## Numeric view -/

theorem toNat_and_netmask (n : PrefixNet w) (x : BitVec w) :
    (x &&& n.netmask).toNat = x.toNat / 2 ^ n.hostLen * 2 ^ n.hostLen := by
  have hx : x &&& n.netmask = (x >>> n.hostLen) <<< n.hostLen := by
    apply BitVec.eq_of_getLsbD_eq
    intro i hi
    rw [BitVec.getLsbD_and, getLsbD_netmask, BitVec.getLsbD_shiftLeft, BitVec.getLsbD_ushiftRight]
    by_cases hle : n.hostLen ≤ i
    · have : n.hostLen + (i - n.hostLen) = i := by omega
      simp only [hostLen] at hle this
      simp [hostLen, hi, hle, Nat.not_lt.2 hle, this]
    · have hlt : i < n.hostLen := by omega
      simp only [hostLen] at hle hlt
      simp [hostLen, hi, hle, hlt]
  rw [hx, BitVec.toNat_shiftLeft, BitVec.toNat_ushiftRight, Nat.shiftLeft_eq,
    Nat.shiftRight_eq_div_pow]
  apply Nat.mod_eq_of_lt
  exact Nat.lt_of_le_of_lt (Nat.div_mul_le_self _ _) x.isLt

theorem toNat_network (n : PrefixNet w) :
    n.network.toNat = n.addr.toNat / 2 ^ n.hostLen * 2 ^ n.hostLen :=
  n.toNat_and_netmask n.addr

theorem toNat_hostmask (n : PrefixNet w) : n.hostmask.toNat = 2 ^ n.hostLen - 1 := by
  have hp := n.prefixLen_le
  rw [hostmask, BitVec.toNat_ushiftRight, BitVec.toNat_allOnes, Nat.shiftRight_eq_div_pow]
  have hsplit : 2 ^ w = 2 ^ n.hostLen * 2 ^ n.prefixLen := by
    rw [← Nat.pow_add]; congr 1; simp only [hostLen]; omega
  have hpos : 0 < 2 ^ n.prefixLen := Nat.two_pow_pos _
  have hhost : 0 < 2 ^ n.hostLen := Nat.two_pow_pos _
  rw [hsplit]
  apply Nat.div_eq_of_lt_le
  · rw [Nat.sub_mul, Nat.one_mul]
    exact Nat.sub_le_sub_left hpos _
  · rw [Nat.sub_add_cancel hhost]
    exact Nat.sub_lt (Nat.mul_pos hhost hpos) Nat.one_pos

theorem toNat_broadcast (n : PrefixNet w) :
    n.broadcast.toNat = n.addr.toNat / 2 ^ n.hostLen * 2 ^ n.hostLen + (2 ^ n.hostLen - 1) := by
  rw [← network_or_hostmask, BitVec.toNat_or, toNat_network, toNat_hostmask, Nat.mul_comm,
    Nat.two_pow_add_eq_or_of_lt (Nat.sub_lt (Nat.two_pow_pos _) Nat.one_pos)]

/-- Membership in the range of a network, in terms of quotients by the block size. -/
theorem containsAddr_iff_div (n : PrefixNet w) (a : BitVec w) :
    n.containsAddr a = true ↔ a.toNat / 2 ^ n.hostLen = n.addr.toNat / 2 ^ n.hostLen := by
  have hpos : 0 < 2 ^ n.hostLen := Nat.two_pow_pos _
  simp only [containsAddr, Bool.and_eq_true, decide_eq_true_eq, BitVec.le_def, toNat_network,
    toNat_broadcast]
  rw [Nat.div_eq_iff hpos, Nat.add_sub_assoc hpos]

theorem containsAddr_iff_and_netmask (n : PrefixNet w) (a : BitVec w) :
    n.containsAddr a = true ↔ a &&& n.netmask = n.network := by
  have hpos : 0 < 2 ^ n.hostLen := Nat.two_pow_pos _
  rw [containsAddr_iff_div, ← BitVec.toNat_inj, toNat_and_netmask, toNat_network]
  exact ⟨fun h => by rw [h], fun h => Nat.eq_of_mul_eq_mul_right hpos h⟩

/-- Block `q` of length `b` lies inside block `c` of length `b * k` when `c` is `q / k`. -/
theorem block_bounds {q c b k : Nat} (hb : 0 < b) (hk : 0 < k) (h : q / k = c) :
    c * (b * k) ≤ q * b ∧ q * b + (b - 1) ≤ c * (b * k) + (b * k - 1) := by
  obtain ⟨hlo, hhi⟩ := (Nat.div_eq_iff hk).1 h
  have hck : c * (b * k) = c * k * b := by ring
  have hlen : b * k = k * b := Nat.mul_comm b k
  have hend : (q + 1) * b ≤ (c * k + k) * b := Nat.mul_le_mul_right b (by omega)
  have hbk : 0 < k * b := Nat.mul_pos hk hb
  rw [Nat.add_mul, Nat.add_mul, Nat.one_mul] at hend
  rw [hck, hlen]
  exact ⟨Nat.mul_le_mul_right b hlo, by omega⟩

/-- Containment of a network: it is no coarser, and its address lies in the outer one. -/
theorem contains_iff (n m : PrefixNet w) :
    n.contains m = true ↔ n.prefixLen ≤ m.prefixLen ∧ n.containsAddr m.addr = true := by
  have hn := n.prefixLen_le
  have hm := m.prefixLen_le
  have hposn : 0 < 2 ^ n.hostLen := Nat.two_pow_pos _
  have hposm : 0 < 2 ^ m.hostLen := Nat.two_pow_pos _
  rw [containsAddr_iff_div]
  simp only [contains, Bool.and_eq_true, decide_eq_true_eq, BitVec.le_def, toNat_network,
    toNat_broadcast]
  have hmod : m.addr.toNat / 2 ^ m.hostLen * 2 ^ m.hostLen ≤ m.addr.toNat :=
    Nat.div_mul_le_self _ _
  have hlt : m.addr.toNat < m.addr.toNat / 2 ^ m.hostLen * 2 ^ m.hostLen + 2 ^ m.hostLen :=
    Nat.lt_div_mul_add hposm
  constructor
  · rintro ⟨hlo, hhi⟩
    refine ⟨?_, ?_⟩
    · -- the inner block is no longer than the outer one
      by_contra hlt'
      have hpow : 2 ^ n.hostLen < 2 ^ m.hostLen :=
        Nat.pow_lt_pow_right (by omega) (by simp only [hostLen]; omega)
      omega
    · rw [Nat.div_eq_iff hposn]
      omega
  · rintro ⟨hle, hdiv⟩
    -- with `m` finer, the outer quotient factors through the inner one
    have hsplit : 2 ^ n.hostLen = 2 ^ m.hostLen * 2 ^ (m.prefixLen - n.prefixLen) := by
      rw [← Nat.pow_add]; congr 1; simp only [hostLen]; omega
    have hq : m.addr.toNat / 2 ^ m.hostLen / 2 ^ (m.prefixLen - n.prefixLen)
        = n.addr.toNat / 2 ^ n.hostLen := by
      rw [Nat.div_div_eq_div_mul, ← hsplit, hdiv]
    have hblock := block_bounds hposm (Nat.two_pow_pos (m.prefixLen - n.prefixLen)) hq
    rwa [← hsplit] at hblock

/-! ## Network bits with other host bits -/

/-- The network bits of `n`, with the host bits of `e`. -/
def withHost (n : PrefixNet w) (e : BitVec w) : BitVec w := n.network ||| (e &&& n.hostmask)

theorem containsAddr_withHost (n : PrefixNet w) (e : BitVec w) :
    n.containsAddr (n.withHost e) = true := by
  rw [containsAddr_iff_and_netmask, withHost, ← not_netmask]
  exact n.or_host_and_netmask n.addr e

theorem withHost_eq_self {n : PrefixNet w} {a : BitVec w} (h : n.containsAddr a = true) :
    n.withHost a = a := by
  rw [withHost, ← (n.containsAddr_iff_and_netmask a).1 h, ← not_netmask]
  exact n.and_netmask_or_and_hostmask a

/-- The host bits of all words give all addresses of the network. -/
theorem range_withHost (n : PrefixNet w) : Set.range n.withHost = {a | n.containsAddr a = true} := by
  ext a
  constructor
  · rintro ⟨e, rfl⟩
    exact n.containsAddr_withHost e
  · intro ha
    exact ⟨a, withHost_eq_self ha⟩

/-! ## The address before the broadcast address -/

theorem getLsbD_zero_broadcast (n : PrefixNet w) (h : n.prefixLen < w) :
    n.broadcast.getLsbD 0 = true := by
  have hbit : n.hostmask.getLsbD 0 = true := by
    rw [getLsbD_hostmask]
    exact decide_eq_true (by omega)
  rw [broadcast, BitVec.getLsbD_or, hbit, Bool.or_true]

/-- With at least one host bit the broadcast address is not the first of its network. -/
theorem containsAddr_broadcast_sub_one (n : PrefixNet w) (h : n.prefixLen < w) :
    n.containsAddr (n.broadcast - 1#w) = true := by
  have hblock : 2 ^ 1 ≤ 2 ^ n.hostLen :=
    Nat.pow_le_pow_right (by decide) (by simp only [hostLen]; omega)
  have hlast := n.toNat_broadcast
  have hone : (1#w).toNat = 1 := by
    rw [BitVec.toNat_ofNat]
    exact Nat.mod_eq_of_lt (Nat.one_lt_two_pow (by omega))
  have hle : 1#w ≤ n.broadcast := by
    rw [BitVec.le_def, hone]
    omega
  rw [containsAddr_iff_div, BitVec.toNat_sub_of_le hle, hone, Nat.div_eq_iff (Nat.two_pow_pos _)]
  omega

end PrefixNet
