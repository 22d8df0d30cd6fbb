import P2pVpn.Lib.Float
import P2pVpn.Peer.Send

set_option autoImplicit false

/-! # Queue management (`linear_aqm` in `src/route/ecn.rs`, its use in `src/peer.rs`)

How full the send buffer of a connection is decides, with a random number, whether a packet is sent
as it is. All of it is computed in `f32`, with the roundings that brings; the random number is the
generator's 32 bits. -/

namespace P2pVpn

theorem binary32_precision_pos : 0 < 24 := by decide

/-- The format of `f32`. -/
def binary32 : FloatFormat := ⟨24, -149, 128, binary32_precision_pos⟩

/-- The values of `f32`. -/
abbrev F32 : Type := binary32.Value

/-- `n as f32` -/
def F32.ofNat (n : Nat) : F32 := binary32.ofRat n

/-- `rng.random::<f32>()`: the top 24 bits of one `next_u32()`, scaled by `2 ^ -24`. -/
def randomF32 (nextU32 : BitVec 32) : F32 :=
  (F32.ofNat (nextU32.toNat / 2 ^ 8)).mul (binary32.ofRat (1 / 2 ^ 24))

/-- Returns `true` iff an incoming packet should be queued. -/
def linearAqmRng (nextU32 : BitVec 32) (threshold fillRatio : F32) : Bool :=
  if fillRatio.lt threshold then true
  else
    (fillRatio.sub threshold).le ((randomF32 nextU32).mul ((binary32.ofRat 1).sub threshold))

/-- `Peer::ECN_THRESHOLD` -/
def ECN_THRESHOLD : F32 := binary32.ofRat (1 / 2)

/-- What `send_packet` reads of a `Peer`. -/
structure Peer where
  icmpGateway : IcmpGateway
  maxSendBufferSpace : F32

/-- What `send_packet` asks of the connection. -/
structure Connection where
  maxDatagramSize : Option Nat
  datagramSendBufferSpace : Nat
  sendDatagram : Except SendDatagramError Unit

/-- The room for datagrams on the fresh connection is taken for the whole send buffer. -/
def Peer.new (icmpGateway : IcmpGateway) (conn : Connection) : Peer :=
  ⟨icmpGateway, F32.ofNat conn.datagramSendBufferSpace⟩

/-- The part of the send buffer that is in use. -/
def Peer.fullness (peer : Peer) (conn : Connection) : F32 :=
  (binary32.ofRat 1).sub ((F32.ofNat conn.datagramSendBufferSpace).div peer.maxSendBufferSpace)

/-- What `send_packet` finds, with the decision of `linear_aqm`. -/
def Peer.link (peer : Peer) (conn : Connection) (nextU32 : BitVec 32) : PeerLink where
  icmpGateway := peer.icmpGateway
  maxDatagramSize := conn.maxDatagramSize
  linearAqm := linearAqmRng nextU32 ECN_THRESHOLD (peer.fullness conn)
  sendDatagram := conn.sendDatagram

/-- How many outputs of the generator make `linear_aqm` refuse. -/
def refusedDraws (threshold fillRatio : F32) : Nat :=
  ((Finset.range (2 ^ 32)).filter fun n =>
    linearAqmRng (BitVec.ofNat 32 n) threshold fillRatio = false).card

/-- How many draws refuse a packet for this connection. -/
def Peer.refusals (peer : Peer) (conn : Connection) : Nat :=
  refusedDraws ECN_THRESHOLD (peer.fullness conn)

/-! ## The decision -/

/-- A dyadic fraction with few bits is a value. -/
theorem is_ofRat_div (m : ℤ) (k : ℕ) (hm : |m| ≤ 2 ^ 24) (hk : k ≤ 149) :
    (binary32.ofRat (m / 2 ^ k)).Is (m / 2 ^ k) := by
  refine FloatFormat.Value.is_ofRat_of_representable
    (FloatFormat.representable_of_int m k hm (by simp only [binary32]; omega)) ?_
  have hmq : |(m : ℚ)| ≤ 2 ^ 24 := by exact_mod_cast hm
  have hone : (1 : ℚ) ≤ 2 ^ k := one_le_pow₀ one_le_two
  rw [abs_div, abs_of_nonneg (by positivity : (0 : ℚ) ≤ 2 ^ k)]
  calc |(m : ℚ)| / 2 ^ k ≤ |(m : ℚ)| := div_le_self (abs_nonneg _) hone
    _ ≤ 2 ^ 24 := hmq
    _ < 2 ^ binary32.maxExp := by norm_num [binary32]

theorem is_one : (binary32.ofRat 1).Is 1 := by
  simpa using is_ofRat_div 1 0 (by norm_num) (by norm_num)

theorem is_ECN_THRESHOLD : ECN_THRESHOLD.Is (1 / 2) := by
  simpa [ECN_THRESHOLD] using is_ofRat_div 1 1 (by norm_num) (by norm_num)

theorem is_randomF32 (nextU32 : BitVec 32) :
    (randomF32 nextU32).Is ((nextU32.toNat / 2 ^ 8 : ℕ) / 2 ^ 24) := by
  have hlt : nextU32.toNat / 2 ^ 8 < 2 ^ 24 := by
    have := nextU32.isLt
    omega
  have hm : |((nextU32.toNat / 2 ^ 8 : ℕ) : ℤ)| ≤ 2 ^ 24 := by
    rw [abs_of_nonneg (by positivity)]
    exact_mod_cast hlt.le
  have hnat := is_ofRat_div (nextU32.toNat / 2 ^ 8 : ℕ) 0 hm (by norm_num)
  have hscale := is_ofRat_div 1 24 (by norm_num) (by norm_num)
  have hprod := is_ofRat_div (nextU32.toNat / 2 ^ 8 : ℕ) 24 hm (by norm_num)
  simp only [pow_zero, div_one, Int.cast_natCast, Int.cast_one] at hnat hscale hprod
  unfold randomF32 F32.ofNat
  rw [hnat.mul hscale, mul_one_div]
  exact hprod

/-- Between a half and one the values are the multiples of `2 ^ -24`. -/
theorem exists_eq_div_of_representable {f : ℚ} (hf : binary32.Representable f) (hlow : 1 / 2 ≤ f)
    (hhigh : f ≤ 1) : ∃ k : ℕ, 2 ^ 23 ≤ k ∧ k ≤ 2 ^ 24 ∧ f = k / 2 ^ 24 := by
  have hmultiple : ∃ k : ℤ, f = k / 2 ^ 24 := by
    obtain ⟨m, e, hm, -, rfl⟩ := hf
    rcases le_or_gt (-24) e with hle | hlt
    · obtain ⟨j, hj⟩ := Int.le.dest hle
      refine ⟨m * 2 ^ j, ?_⟩
      rw [← hj, zpow_add₀ two_ne_zero, zpow_natCast]
      push_cast
      norm_num
      ring
    · -- a smaller last place leaves only a half itself
      have hmq : (m : ℚ) ≤ 2 ^ 24 := by
        have hm' : m ≤ 2 ^ 24 := (le_abs_self m).trans hm
        exact_mod_cast hm'
      have hpow : (2 : ℚ) ^ e ≤ 2 ^ (-25 : ℤ) := zpow_le_zpow_right₀ one_le_two (by omega)
      have hpos : (0 : ℚ) < 2 ^ e := by positivity
      have hhalf : (m : ℚ) * 2 ^ e ≤ 1 / 2 := by
        calc (m : ℚ) * 2 ^ e ≤ 2 ^ 24 * 2 ^ e := mul_le_mul_of_nonneg_right hmq hpos.le
          _ ≤ 2 ^ 24 * 2 ^ (-25 : ℤ) := mul_le_mul_of_nonneg_left hpow (by norm_num)
          _ = 1 / 2 := by norm_num
      exact ⟨2 ^ 23, by rw [le_antisymm hhalf hlow]; norm_num⟩
  obtain ⟨k, rfl⟩ := hmultiple
  rw [le_div_iff₀ (by norm_num)] at hlow
  rw [div_le_iff₀ (by norm_num)] at hhigh
  have hk : (2 : ℤ) ^ 23 ≤ k := by
    have hlow' : ((2 ^ 23 : ℤ) : ℚ) ≤ k := by push_cast; linarith
    exact_mod_cast hlow'
  have hk' : k ≤ 2 ^ 24 := by
    have hhigh' : (k : ℚ) ≤ ((2 ^ 24 : ℤ) : ℚ) := by push_cast; linarith
    exact_mod_cast hhigh'
  lift k to ℕ using by omega
  exact ⟨k, by exact_mod_cast hk, by exact_mod_cast hk', by push_cast; rfl⟩

/-- **The comparison is exact**: from a half on, no rounding is left in it. -/
theorem linearAqmRng_of_half_le {fill : F32} {k : ℕ} (hfill : fill.Is (k / 2 ^ 24))
    (hlow : 2 ^ 23 ≤ k) (hhigh : k ≤ 2 ^ 24) (nextU32 : BitVec 32) :
    linearAqmRng nextU32 ECN_THRESHOLD fill = decide (2 * k - 2 ^ 24 ≤ nextU32.toNat / 2 ^ 8) := by
  have hlowq : (2 : ℚ) ^ 23 ≤ k := by exact_mod_cast hlow
  have hnot : ¬ ((k : ℚ) / 2 ^ 24 < 1 / 2) := by
    rw [not_lt, le_div_iff₀ (by norm_num)]
    linarith
  -- both sides are dyadic fractions with at most 24 bits
  have hexcess : ((binary32.ofRat ((k : ℚ) / 2 ^ 24 - 1 / 2))).Is (((k : ℚ) - 2 ^ 23) / 2 ^ 24) := by
    have hsub : |((k : ℤ) - 2 ^ 23)| ≤ 2 ^ 24 := by
      rw [abs_of_nonneg (by omega)]
      omega
    have his := is_ofRat_div ((k : ℤ) - 2 ^ 23) 24 hsub (by norm_num)
    push_cast at his
    have heq : (k : ℚ) / 2 ^ 24 - 1 / 2 = ((k : ℚ) - 2 ^ 23) / 2 ^ 24 := by ring
    rwa [heq]
  have hhalf : ((binary32.ofRat 1).sub ECN_THRESHOLD).Is (1 / 2) := by
    rw [is_one.sub is_ECN_THRESHOLD]
    have heq : (1 : ℚ) - 1 / 2 = 1 / 2 := by norm_num
    rw [heq]
    exact is_ECN_THRESHOLD
  have hdraw : ((randomF32 nextU32).mul ((binary32.ofRat 1).sub ECN_THRESHOLD)).Is
      ((nextU32.toNat / 2 ^ 8 : ℕ) / 2 ^ 25) := by
    have hm : |((nextU32.toNat / 2 ^ 8 : ℕ) : ℤ)| ≤ 2 ^ 24 := by
      have := nextU32.isLt
      rw [abs_of_nonneg (by positivity)]
      omega
    have his := is_ofRat_div (nextU32.toNat / 2 ^ 8 : ℕ) 25 hm (by norm_num)
    have heq : ((nextU32.toNat / 2 ^ 8 : ℕ) : ℚ) / 2 ^ 24 * (1 / 2)
        = (nextU32.toNat / 2 ^ 8 : ℕ) / 2 ^ 25 := by ring
    rw [(is_randomF32 nextU32).mul hhalf, heq]
    rwa [Int.cast_natCast] at his
  unfold linearAqmRng
  rw [hfill.lt is_ECN_THRESHOLD, decide_eq_false hnot, if_neg (by simp),
    hfill.sub is_ECN_THRESHOLD, hexcess.le hdraw]
  refine decide_eq_decide.2 ?_
  rw [div_le_div_iff₀ (by norm_num) (by norm_num)]
  have hiff : ((k : ℚ) - 2 ^ 23) * 2 ^ 25 ≤ (nextU32.toNat / 2 ^ 8 : ℕ) * 2 ^ 24 ↔
      (2 * k : ℚ) ≤ ((nextU32.toNat / 2 ^ 8 + 2 ^ 24 : ℕ) : ℚ) := by
    push_cast
    constructor <;> intro h <;> linarith
  rw [hiff]
  have hcast : (2 * k : ℚ) = ((2 * k : ℕ) : ℚ) := by push_cast; rfl
  rw [hcast, Nat.cast_le]
  omega

theorem refusedDraws_of_half_le {fill : F32} {k : ℕ} (hfill : fill.Is (k / 2 ^ 24))
    (hlow : 2 ^ 23 ≤ k) (hhigh : k ≤ 2 ^ 24) :
    refusedDraws ECN_THRESHOLD fill = 2 ^ 8 * (2 * k - 2 ^ 24) := by
  have hrange : (Finset.range (2 ^ 32)).filter (fun n =>
      linearAqmRng (BitVec.ofNat 32 n) ECN_THRESHOLD fill = false)
      = Finset.range (2 ^ 8 * (2 * k - 2 ^ 24)) := by
    ext n
    rw [Finset.mem_filter, Finset.mem_range, Finset.mem_range,
      linearAqmRng_of_half_le hfill hlow hhigh, decide_eq_false_iff_not, BitVec.toNat_ofNat]
    omega
  rw [refusedDraws, hrange, Finset.card_range]

theorem refusedDraws_of_le_half {fill : F32} {f : ℚ} (hfill : fill.Is f) (hf : f ≤ 1 / 2) :
    refusedDraws ECN_THRESHOLD fill = 0 := by
  rcases hf.eq_or_lt with rfl | hlt
  · have hhalf : fill.Is (((2 ^ 23 : ℕ) : ℚ) / 2 ^ 24) := by
      have heq : ((2 ^ 23 : ℕ) : ℚ) / 2 ^ 24 = 1 / 2 := by norm_num
      rwa [heq]
    rw [refusedDraws_of_half_le hhalf (le_refl _) (by norm_num)]
    norm_num
  · have hall : ∀ n, linearAqmRng n ECN_THRESHOLD fill = true := by
      intro n
      unfold linearAqmRng
      rw [hfill.lt is_ECN_THRESHOLD, decide_eq_true hlt, if_pos rfl]
    simp [refusedDraws, hall]

/-- **Exactly linear.** -/
theorem refusedDraws_eq {fill : F32} {f : ℚ} (hfill : fill.Is f) (hlow : 1 / 2 ≤ f) (hhigh : f ≤ 1) :
    (refusedDraws ECN_THRESHOLD fill : ℚ) / 2 ^ 32 = 2 * f - 1 := by
  obtain ⟨k, hk, hk', rfl⟩ := exists_eq_div_of_representable hfill.representable hlow hhigh
  rw [refusedDraws_of_half_le hfill hk hk']
  have hcast : ((2 ^ 8 * (2 * k - 2 ^ 24) : ℕ) : ℚ) = 2 ^ 8 * (2 * k - 2 ^ 24) := by
    rw [Nat.cast_mul, Nat.cast_sub (by omega)]
    push_cast
    ring
  rw [hcast]
  ring

/-! ## The fill of the send buffer -/

/-- The fill that is computed for `space` bytes free of `total`. -/
def computedFill (space total : ℕ) : ℚ :=
  binary32.round (1 - binary32.round (binary32.round space / binary32.round total))

section

variable {space space' total : ℕ}

theorem round_one : binary32.round 1 = 1 :=
  FloatFormat.round_of_representable is_one.representable

theorem round_half : binary32.round (1 / 2) = 1 / 2 :=
  FloatFormat.round_of_representable is_ECN_THRESHOLD.representable

theorem round_zero : binary32.round 0 = 0 := by
  have hzero := is_ofRat_div 0 0 (by norm_num) (by norm_num)
  simpa using FloatFormat.round_of_representable hzero.representable

theorem one_le_round (h : 0 < total) : 1 ≤ binary32.round total := by
  rw [← round_one]
  exact FloatFormat.round_mono (by exact_mod_cast h)

theorem representable_two_pow : binary32.Representable (2 ^ 64) :=
  ⟨1, 64, by norm_num [binary32], by norm_num [binary32], by norm_num⟩

theorem round_le_of_lt (h : total < 2 ^ 64) : binary32.round total ≤ 2 ^ 64 := by
  rw [← FloatFormat.round_of_representable representable_two_pow]
  exact FloatFormat.round_mono (by exact_mod_cast h.le)

theorem div_round_nonneg (space total : ℕ) :
    0 ≤ binary32.round space / binary32.round total :=
  div_nonneg (FloatFormat.round_nonneg (by positivity)) (FloatFormat.round_nonneg (by positivity))

theorem round_div_round_le (htotal : 0 < total) (h : space < 2 ^ 64) :
    binary32.round (binary32.round space / binary32.round total) ≤ 2 ^ 64 := by
  have hone := one_le_round htotal
  have hspace := round_le_of_lt h
  rw [← FloatFormat.round_of_representable representable_two_pow]
  exact FloatFormat.round_mono
    ((div_le_self (FloatFormat.round_nonneg (by positivity)) hone).trans hspace)

theorem computedFill_le_one (space total : ℕ) : computedFill space total ≤ 1 := by
  have hratio := FloatFormat.round_nonneg (F := binary32) (div_round_nonneg space total)
  have hround : computedFill space total ≤ binary32.round 1 :=
    FloatFormat.round_mono (by linarith)
  rwa [round_one] at hround

theorem neg_le_computedFill (htotal : 0 < total) (h : space < 2 ^ 64) :
    -2 ^ 64 ≤ computedFill space total := by
  have hratio := round_div_round_le htotal h
  have hneg : binary32.Representable (-2 ^ 64) :=
    ⟨-1, 64, by norm_num [binary32], by norm_num [binary32], by norm_num⟩
  rw [← FloatFormat.round_of_representable hneg]
  refine FloatFormat.round_mono ?_
  linarith

/-- More space free, less full. -/
theorem computedFill_anti (total : ℕ) (h : space ≤ space') :
    computedFill space' total ≤ computedFill space total := by
  have hspace : binary32.round space ≤ binary32.round space' :=
    FloatFormat.round_mono (by exact_mod_cast h)
  have hratio := FloatFormat.round_mono (F := binary32)
    (div_le_div_of_nonneg_right hspace (FloatFormat.round_nonneg (F := binary32)
      (by positivity : (0 : ℚ) ≤ total)))
  exact FloatFormat.round_mono (by linarith)

theorem computedFill_of_empty (total : ℕ) : computedFill 0 total = 1 := by
  rw [computedFill, Nat.cast_zero, round_zero, zero_div, round_zero, sub_zero, round_one]

theorem normal_of_le {x : ℚ} (h : 1 / 2 ^ 66 ≤ x) : binary32.Normal x := by
  have hpow : (2 : ℚ) ^ (binary32.minExp + binary32.precision - 1) ≤ 1 / 2 ^ 66 := by
    norm_num [binary32]
  unfold FloatFormat.Normal
  rw [abs_of_nonneg (le_trans (by positivity) h)]
  exact hpow.trans h

theorem normal_natCast (h : 0 < total) : binary32.Normal (total : ℚ) := by
  have hone : (1 : ℚ) ≤ total := by exact_mod_cast h
  exact normal_of_le (le_trans (by norm_num) hone)

theorem computedFill_le_half (htotal : 0 < total) (h : total ≤ 2 * space) :
    computedFill space total ≤ 1 / 2 := by
  have hspace : 0 < space := by omega
  have hdouble : binary32.round total ≤ 2 * binary32.round space := by
    rw [← (normal_natCast hspace).round_two_mul]
    exact FloatFormat.round_mono (by exact_mod_cast h)
  have hpos := one_le_round htotal
  have hratio : 1 / 2 ≤ binary32.round space / binary32.round total := by
    rw [le_div_iff₀ (by linarith)]
    linarith
  have hround := FloatFormat.round_mono (F := binary32) hratio
  rw [round_half] at hround
  unfold computedFill
  rw [← round_half]
  exact FloatFormat.round_mono (by linarith)

theorem div_round_le_half (h : 2 * space ≤ total) :
    binary32.round space / binary32.round total ≤ 1 / 2 := by
  rcases Nat.eq_zero_or_pos space with rfl | hspace
  · rw [Nat.cast_zero, round_zero, zero_div]
    norm_num
  · have hdouble : 2 * binary32.round space ≤ binary32.round total := by
      rw [← (normal_natCast hspace).round_two_mul]
      exact FloatFormat.round_mono (by exact_mod_cast h)
    have hpos := one_le_round (by omega : 0 < total)
    rw [div_le_iff₀ (by linarith)]
    linarith

theorem half_le_computedFill (h : 2 * space ≤ total) : 1 / 2 ≤ computedFill space total := by
  have hround := FloatFormat.round_mono (F := binary32) (div_round_le_half h)
  rw [round_half] at hround
  unfold computedFill
  rw [← round_half]
  exact FloatFormat.round_mono (by linarith)

theorem is_ofNat (h : total < 2 ^ 64) : (F32.ofNat total).Is (binary32.round total) := by
  refine FloatFormat.Value.is_ofRat ?_
  rw [abs_of_nonneg (FloatFormat.round_nonneg (by positivity))]
  exact (round_le_of_lt h).trans_lt (by norm_num [binary32])

/-- `fullness` is that fill, for a buffer that is not of size 0. -/
theorem is_fullness (gateway : IcmpGateway) {conn₀ conn : Connection}
    (hpos : 0 < conn₀.datagramSendBufferSpace) (htotal : conn₀.datagramSendBufferSpace < 2 ^ 64)
    (hspace : conn.datagramSendBufferSpace < 2 ^ 64) :
    ((Peer.new gateway conn₀).fullness conn).Is
      (computedFill conn.datagramSendBufferSpace conn₀.datagramSendBufferSpace) := by
  have hone := one_le_round hpos
  have hratio : (binary32.ofRat (binary32.round conn.datagramSendBufferSpace
      / binary32.round conn₀.datagramSendBufferSpace)).Is
      (binary32.round (binary32.round conn.datagramSendBufferSpace
        / binary32.round conn₀.datagramSendBufferSpace)) := by
    refine FloatFormat.Value.is_ofRat ?_
    rw [abs_of_nonneg (FloatFormat.round_nonneg (div_round_nonneg _ _))]
    exact (round_div_round_le hpos hspace).trans_lt (by norm_num [binary32])
  unfold Peer.fullness Peer.new
  rw [(is_ofNat hspace).div (is_ofNat htotal) (by linarith), is_one.sub hratio]
  refine FloatFormat.Value.is_ofRat ?_
  have hlow := neg_le_computedFill hpos hspace
  have hhigh := computedFill_le_one conn.datagramSendBufferSpace conn₀.datagramSendBufferSpace
  refine lt_of_le_of_lt (b := 2 ^ 64) (abs_le.2 ⟨hlow, hhigh.trans (by norm_num)⟩) ?_
  norm_num [binary32]

theorem abs_sub_round_le_of_le {x : ℚ} (h : 1 / 2 ^ 66 ≤ x) :
    |x - binary32.round x| ≤ x * (1 / 2 ^ 24) := by
  have hround := (normal_of_le h).abs_sub_round_le
  rw [abs_of_nonneg (le_trans (by positivity) h)] at hround
  exact hround.trans (le_of_eq (div_eq_mul_one_div _ _))

/-- **Three roundings**: of the two sizes, of their quotient and of the difference. -/
theorem abs_computedFill_sub_le (htotal : 0 < total) (hlt : total < 2 ^ 64)
    (h : 2 * space ≤ total) :
    |computedFill space total - (1 - space / total)| ≤ 3 / 2 ^ 24 := by
  rcases Nat.eq_zero_or_pos space with rfl | hspace
  · rw [computedFill_of_empty]
    norm_num
  · have hs : (1 : ℚ) ≤ space := by exact_mod_cast hspace
    have ht : (1 : ℚ) ≤ total := by exact_mod_cast htotal
    have hst : 2 * (space : ℚ) ≤ total := by exact_mod_cast h
    have hquot := FloatFormat.abs_div_sub_div_le (by norm_num) (by norm_num) (by linarith)
      (by linarith) hst (abs_sub_round_le_of_le (le_trans (by norm_num) hs))
      (abs_sub_round_le_of_le (le_trans (by norm_num) ht))
    set R := binary32.round space / binary32.round total with hR
    have hRhigh : R ≤ 1 / 2 := div_round_le_half h
    have hRlow : 1 / 2 ^ 66 ≤ R := by
      have hSlow := one_le_round hspace
      have hThigh := round_le_of_lt hlt
      have hTlow := one_le_round htotal
      rw [hR, le_div_iff₀ (by linarith)]
      linarith
    have hround := abs_sub_round_le_of_le hRlow
    have hQhigh : binary32.round R ≤ 1 / 2 := by
      rw [← round_half]
      exact FloatFormat.round_mono hRhigh
    have hQlow : 0 ≤ binary32.round R := FloatFormat.round_nonneg (le_trans (by norm_num) hRlow)
    have hlast := abs_sub_round_le_of_le (x := 1 - binary32.round R) (by linarith)
    unfold computedFill
    rw [← hR]
    rw [abs_le] at hquot hround hlast ⊢
    constructor <;> linarith

end

/-- **Linear in the fill, to seven digits**: nothing is refused up to half full and everything when
full; in between the share of the draws that refuse is twice the excess over a half, up to
`2 ^ -21`, and it never falls while the buffer fills. -/
theorem Peer.refusals_linear (gateway : IcmpGateway) (conn₀ conn : Connection)
    (hpos : 0 < conn₀.datagramSendBufferSpace) (htotal : conn₀.datagramSendBufferSpace < 2 ^ 64)
    (hspace : conn.datagramSendBufferSpace < 2 ^ 64) :
    (conn₀.datagramSendBufferSpace ≤ 2 * conn.datagramSendBufferSpace →
      (Peer.new gateway conn₀).refusals conn = 0) ∧
    (conn.datagramSendBufferSpace = 0 → (Peer.new gateway conn₀).refusals conn = 2 ^ 32) ∧
    (2 * conn.datagramSendBufferSpace ≤ conn₀.datagramSendBufferSpace →
      |((Peer.new gateway conn₀).refusals conn : ℚ) / 2 ^ 32
        - (1 - 2 * (conn.datagramSendBufferSpace / conn₀.datagramSendBufferSpace))| ≤ 1 / 2 ^ 21) ∧
    (∀ conn' : Connection, conn'.datagramSendBufferSpace ≤ conn.datagramSendBufferSpace →
      (Peer.new gateway conn₀).refusals conn ≤ (Peer.new gateway conn₀).refusals conn') := by
  have hfill := is_fullness gateway hpos htotal hspace
  have hhigh := computedFill_le_one conn.datagramSendBufferSpace conn₀.datagramSendBufferSpace
  refine ⟨?_, ?_, ?_, ?_⟩
  · intro hhalf
    exact refusedDraws_of_le_half hfill (computedFill_le_half hpos hhalf)
  · intro hempty
    rw [hempty, computedFill_of_empty] at hfill
    have hall := refusedDraws_eq hfill (by norm_num) (le_refl _)
    rw [div_eq_iff (by norm_num)] at hall
    refine Nat.cast_injective (R := ℚ) (hall.trans ?_)
    norm_num
  · intro hhalf
    have hshare := refusedDraws_eq hfill (half_le_computedFill hhalf) hhigh
    have herror := abs_computedFill_sub_le hpos htotal hhalf
    unfold Peer.refusals
    rw [hshare]
    rw [abs_le] at herror ⊢
    constructor <;> linarith
  · intro conn' hle
    have hfill' := is_fullness gateway hpos htotal (hle.trans_lt hspace)
    have hanti := computedFill_anti conn₀.datagramSendBufferSpace hle
    rcases le_or_gt (computedFill conn.datagramSendBufferSpace conn₀.datagramSendBufferSpace) (1 / 2)
      with hlow | hlow
    · exact (refusedDraws_of_le_half hfill hlow).trans_le (Nat.zero_le _)
    · have hshare := refusedDraws_eq hfill hlow.le hhigh
      have hshare' := refusedDraws_eq hfill' (hlow.le.trans hanti) (computedFill_le_one _ _)
      have hdiv : (refusedDraws ECN_THRESHOLD ((Peer.new gateway conn₀).fullness conn) : ℚ) / 2 ^ 32
          ≤ refusedDraws ECN_THRESHOLD ((Peer.new gateway conn₀).fullness conn') / 2 ^ 32 := by
        rw [hshare, hshare']
        linarith
      rw [div_le_div_iff_of_pos_right (by norm_num)] at hdiv
      exact Nat.cast_le.1 hdiv

/-- A connection with this much of its send buffer free. -/
def sampleConnection (space : Nat) : Connection := ⟨some 1200, space, .ok ()⟩

/-- A buffer of 1 MiB, filled to three quarters. -/
theorem Peer.refusals_linear_sample :
    |((Peer.new (.fromAddr (.v4 0)) (sampleConnection 1048576)).refusals (sampleConnection 262144) : ℚ)
      / 2 ^ 32 - 1 / 2| ≤ 1 / 2 ^ 21 := by
  have hshare := (Peer.refusals_linear (.fromAddr (.v4 0)) (sampleConnection 1048576)
    (sampleConnection 262144) (by decide) (by decide) (by decide)).2.2.1 (by decide)
  have heq : (1 : ℚ) - 2 * (((sampleConnection 262144).datagramSendBufferSpace : ℚ)
      / ((sampleConnection 1048576).datagramSendBufferSpace : ℚ)) = 1 / 2 := by
    simp only [sampleConnection]
    norm_num
  rwa [heq] at hshare

/-! ## What becomes of a packet -/

section

variable {rules : PacketRules} {peer : Peer} {conn : Connection} {packet buffer : List UInt8}

/-- What a refused packet becomes. -/
def congested (buffer : List UInt8) : PacketAction → Option (List UInt8)
  | .drop => none
  | .forward => some buffer

theorem Peer.sendPacket_datagram {action : PacketAction}
    (hfits : ∀ mtu ∈ conn.maxDatagramSize, packet.length ≤ mtu) (hsend : conn.sendDatagram = .ok ())
    (hcongestion : processPacketCongestion rules packet = some (buffer, action))
    (nextU32 : BitVec 32) :
    ((peer.link conn nextU32).sendPacket rules packet).map (·.datagram)
      = some (if linearAqmRng nextU32 ECN_THRESHOLD (peer.fullness conn) then some packet
          else congested buffer action) := by
  have henqueue : (peer.link conn nextU32).sendPacket rules packet
      = (peer.link conn nextU32).enqueue rules packet := by
    unfold PeerLink.sendPacket
    cases hmtu : conn.maxDatagramSize with
    | none => simp only [Peer.link, hmtu]
    | some mtu =>
        have hle : ¬ mtu < packet.length := not_lt.2 (hfits mtu hmtu)
        simp only [Peer.link, hmtu, if_neg hle]
  rw [henqueue]
  unfold PeerLink.enqueue
  cases haqm : linearAqmRng nextU32 ECN_THRESHOLD (peer.fullness conn) with
  | true => simp [Peer.link, PeerLink.transmit, haqm, hsend]
  | false =>
      cases action with
      | drop => simp [Peer.link, haqm, hcongestion, congested]
      | forward => simp [Peer.link, PeerLink.transmit, haqm, hsend, hcongestion, congested]

/-- Marking changes a packet that was not marked. -/
theorem marked_ne {h : IpHeader} (hparse : rules.ipHeadersFromSlice packet = some h)
    (hect : h.ecn ≠ .congestionExperienced) :
    h.marked.toBytes ++ packet.drop h.headerLen ≠ packet := by
  obtain ⟨payload, hslice, -⟩ := PacketRules.fromSlice_of_ipHeadersFromSlice hparse
  obtain ⟨hfits, -⟩ := IpHeader.fits_of_fromSlice hslice
  have hmarked := IpHeader.fromSlice_append _ _ ((h.fits_marked _).2 hfits)
  intro heq
  rw [heq, hslice, Option.some.injEq, Prod.mk.injEq] at hmarked
  exact hect (hmarked.1 ▸ h.ecn_marked)

/-- **What the decision does to a packet** that the connection takes, in each draw: one that is not
ECN-capable is lost if the draw refuses, one that is ECN-capable gets its mark, which changes it, and
otherwise either is sent as it is; one that is marked already is always sent as it is. -/
theorem Peer.sendPacket_of_ecn {h : IpHeader} (peer : Peer)
    (hfits : ∀ mtu ∈ conn.maxDatagramSize, packet.length ≤ mtu) (hsend : conn.sendDatagram = .ok ())
    (hparse : rules.ipHeadersFromSlice packet = some h) (nextU32 : BitVec 32) :
    (h.ecn = .notEct →
      ((peer.link conn nextU32).sendPacket rules packet).map (·.datagram)
        = some (if linearAqmRng nextU32 ECN_THRESHOLD (peer.fullness conn) then some packet
            else none)) ∧
    (h.ecn = .ect0 ∨ h.ecn = .ect1 →
      h.marked.toBytes ++ packet.drop h.headerLen ≠ packet ∧
      ((peer.link conn nextU32).sendPacket rules packet).map (·.datagram)
        = some (if linearAqmRng nextU32 ECN_THRESHOLD (peer.fullness conn) then some packet
            else some (h.marked.toBytes ++ packet.drop h.headerLen))) ∧
    (h.ecn = .congestionExperienced →
      ((peer.link conn nextU32).sendPacket rules packet).map (·.datagram) = some (some packet)) := by
  have hcongestion := processPacketCongestion_of_parse hparse
  refine ⟨?_, ?_, ?_⟩
  · intro hecn
    rw [hecn] at hcongestion
    exact Peer.sendPacket_datagram hfits hsend hcongestion nextU32
  · intro hecn
    have hne : h.ecn ≠ .congestionExperienced := by rcases hecn with hecn | hecn <;> simp [hecn]
    have hforward : processPacketCongestion rules packet
        = some (h.marked.toBytes ++ packet.drop h.headerLen, .forward) := by
      rcases hecn with hecn | hecn <;> rw [hcongestion, hecn]
    exact ⟨marked_ne hparse hne, Peer.sendPacket_datagram hfits hsend hforward nextU32⟩
  · intro hecn
    rw [hecn] at hcongestion
    rw [Peer.sendPacket_datagram hfits hsend hcongestion nextU32, congested, ite_self]

/-- With a quarter of the buffer free, the lowest draw marks the packet. -/
theorem Peer.sendPacket_of_ecn_marked :
    ∃ h, PacketRules.lenient.ipHeadersFromSlice (ectPacket 0x40) = some h ∧ h.ecn = .ect0 ∧
      (((Peer.new (.fromAddr (.v4 0)) (sampleConnection 1048576)).link (sampleConnection 262144)
          0).sendPacket .lenient (ectPacket 0x40)).map (·.datagram)
        = some (some (h.marked.toBytes ++ (ectPacket 0x40).drop h.headerLen)) := by
  have hect : (PacketRules.lenient.ipHeadersFromSlice (ectPacket 0x40)).map IpHeader.ecn
      = some .ect0 := by decide
  obtain ⟨h, hparse, hecn⟩ := Option.map_eq_some_iff.1 hect
  have hfits : ∀ mtu ∈ (sampleConnection 262144).maxDatagramSize, (ectPacket 0x40).length ≤ mtu := by
    intro mtu hmtu
    obtain rfl := Option.mem_some_iff.1 hmtu
    decide
  have hrefused : linearAqmRng 0 ECN_THRESHOLD
      ((Peer.new (.fromAddr (.v4 0)) (sampleConnection 1048576)).fullness (sampleConnection 262144))
      = false := by decide +kernel
  have hmarked := ((Peer.sendPacket_of_ecn (Peer.new (.fromAddr (.v4 0)) (sampleConnection 1048576))
    hfits rfl hparse 0).2.1 (.inl hecn)).2
  rw [hrefused, if_neg (by simp)] at hmarked
  exact ⟨h, hparse, hecn, hmarked⟩

end

end P2pVpn
