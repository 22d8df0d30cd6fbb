import Mathlib

set_option autoImplicit false

/-! # Binary floating-point formats

The finite values of a format are the rationals `m * 2 ^ e` with a significand of the format's
precision and an exponent not below its least one. An operation computes exactly and rounds to the
nearest such value, a tie to the even significand; a result beyond the range is infinite. Everything
about rounding follows from its being a nearest value. The sign of a zero is not kept: no value here
is divided by a zero that could be a negative one. -/

/-! ## Rounding to an integer -/

/-- The nearest integer, the even one of two. -/
def roundHalfEven (x : ℚ) : ℤ :=
  if x - ⌊x⌋ < 1 / 2 then ⌊x⌋
  else if 1 / 2 < x - ⌊x⌋ then ⌊x⌋ + 1
  else if ⌊x⌋ % 2 = 0 then ⌊x⌋ else ⌊x⌋ + 1

theorem abs_sub_roundHalfEven_le (x : ℚ) : |x - roundHalfEven x| ≤ 1 / 2 := by
  have hfloor := Int.floor_le x
  have hlt := Int.lt_floor_add_one x
  unfold roundHalfEven
  split_ifs <;> push_cast <;> rw [abs_le] <;> constructor <;> linarith

/-- No integer is nearer. -/
theorem abs_sub_roundHalfEven_le_abs_sub (x : ℚ) (n : ℤ) : |x - roundHalfEven x| ≤ |x - n| := by
  by_cases hn : n = roundHalfEven x
  · rw [hn]
  · -- another integer is at least one away from the one chosen, which is within a half
    have hhalf := abs_sub_roundHalfEven_le x
    have hone : (1 : ℚ) ≤ |(n : ℚ) - roundHalfEven x| := by
      have hint : (1 : ℤ) ≤ |n - roundHalfEven x| := Int.one_le_abs (sub_ne_zero.2 hn)
      exact_mod_cast hint
    have htriangle := abs_sub_le (n : ℚ) x (roundHalfEven x)
    rw [abs_sub_comm (n : ℚ) x] at htriangle
    linarith

theorem roundHalfEven_le {x : ℚ} {n : ℤ} (h : x ≤ n) : roundHalfEven x ≤ n := by
  by_contra hlt
  have hnear := abs_sub_roundHalfEven_le_abs_sub x n
  have hcast : (n : ℚ) + 1 ≤ roundHalfEven x := by exact_mod_cast Int.add_one_le_iff.2 (not_le.1 hlt)
  rw [abs_of_nonpos (by linarith), abs_of_nonpos (by linarith)] at hnear
  linarith

theorem le_roundHalfEven {x : ℚ} {n : ℤ} (h : (n : ℚ) ≤ x) : n ≤ roundHalfEven x := by
  by_contra hlt
  have hnear := abs_sub_roundHalfEven_le_abs_sub x n
  have hcast : (roundHalfEven x : ℚ) + 1 ≤ n := by exact_mod_cast Int.add_one_le_iff.2 (not_le.1 hlt)
  rw [abs_of_nonneg (by linarith), abs_of_nonneg (by linarith)] at hnear
  linarith

/-! ## Formats -/

/-- Significands of `precision` bits, exponents from `minExp` on, magnitudes below `2 ^ maxExp`. -/
structure FloatFormat where
  precision : Nat
  minExp : ℤ
  maxExp : ℤ
  precision_pos : 0 < precision

namespace FloatFormat

variable (F : FloatFormat)

/-- A value of the format, were it not for the range. -/
def Representable (x : ℚ) : Prop :=
  ∃ m e : ℤ, |m| ≤ 2 ^ F.precision ∧ F.minExp ≤ e ∧ x = m * 2 ^ e

/-- The exponent of the significand's last place. -/
def exponent (x : ℚ) : ℤ := max (Int.log 2 |x| + 1 - F.precision) F.minExp

/-- The nearest number of the format, of two the even one; the range is not bounded. -/
def round (x : ℚ) : ℚ := roundHalfEven (x / 2 ^ F.exponent x) * 2 ^ F.exponent x

section

variable {F} {x y : ℚ}

theorem abs_div_lt (x : ℚ) : |x| / 2 ^ F.exponent x < 2 ^ F.precision := by
  have hlog : |x| < 2 ^ (Int.log 2 |x| + 1) := by
    exact_mod_cast Int.lt_zpow_succ_log_self one_lt_two |x|
  have hexp : Int.log 2 |x| + 1 ≤ F.exponent x + F.precision := by
    have := le_max_left (Int.log 2 |x| + 1 - F.precision) F.minExp
    unfold exponent
    omega
  have hpow : (2 : ℚ) ^ (Int.log 2 |x| + 1) ≤ 2 ^ (F.exponent x + F.precision) :=
    zpow_le_zpow_right₀ one_le_two hexp
  rw [div_lt_iff₀ (by positivity), mul_comm, ← zpow_natCast, ← zpow_add₀ two_ne_zero]
  exact hlog.trans_le hpow

/-- Above the least exponent the significand is a full one. -/
theorem pow_le_abs_div (hexp : F.minExp < F.exponent x) (hx : x ≠ 0) :
    (2 : ℚ) ^ (F.exponent x + F.precision - 1) ≤ |x| := by
  have heq : F.exponent x + F.precision - 1 = Int.log 2 |x| := by
    unfold exponent at hexp ⊢
    omega
  rw [heq]
  exact_mod_cast Int.zpow_log_le_self one_lt_two (abs_pos.2 hx)

theorem abs_sub_round (x : ℚ) :
    |x - F.round x|
      = |x / 2 ^ F.exponent x - roundHalfEven (x / 2 ^ F.exponent x)| * 2 ^ F.exponent x := by
  have hpos : (0 : ℚ) < 2 ^ F.exponent x := by positivity
  have heq : x - F.round x
      = (x / 2 ^ F.exponent x - roundHalfEven (x / 2 ^ F.exponent x)) * 2 ^ F.exponent x := by
    rw [sub_mul, div_mul_cancel₀ x hpos.ne', round]
  rw [heq, abs_mul, abs_of_pos hpos]

/-- No multiple of the last place is nearer. -/
theorem abs_sub_round_le_of_multiple (x : ℚ) (n : ℤ) :
    |x - F.round x| ≤ |x - n * 2 ^ F.exponent x| := by
  have hpos : (0 : ℚ) < 2 ^ F.exponent x := by positivity
  have heq : x - n * 2 ^ F.exponent x = (x / 2 ^ F.exponent x - n) * 2 ^ F.exponent x := by
    rw [sub_mul, div_mul_cancel₀ x hpos.ne']
  rw [abs_sub_round, heq, abs_mul, abs_of_pos hpos]
  exact mul_le_mul_of_nonneg_right (abs_sub_roundHalfEven_le_abs_sub _ n) hpos.le

theorem representable_round (x : ℚ) : F.Representable (F.round x) := by
  refine ⟨roundHalfEven (x / 2 ^ F.exponent x), F.exponent x, ?_, le_max_right _ _, rfl⟩
  have hpos : (0 : ℚ) < 2 ^ F.exponent x := by positivity
  have hlt := abs_div_lt (F := F) x
  rw [← abs_of_pos hpos, ← abs_div, abs_lt] at hlt
  rw [abs_le]
  refine ⟨le_roundHalfEven ?_, roundHalfEven_le ?_⟩
  · push_cast
    exact hlt.1.le
  · push_cast
    exact hlt.2.le

/-- The least value with a full significand, on the side of `x`. -/
theorem exists_multiple_abs_sub (hx : (2 : ℚ) ^ (F.exponent x + F.precision - 1) ≤ |x|) :
    ∃ n : ℤ, |x - n * 2 ^ F.exponent x| = |x| - 2 ^ (F.exponent x + F.precision - 1) := by
  obtain ⟨k, hk⟩ := Nat.exists_eq_add_of_lt F.precision_pos
  have hpow : (2 : ℚ) ^ k * 2 ^ F.exponent x = 2 ^ (F.exponent x + F.precision - 1) := by
    rw [← zpow_natCast, ← zpow_add₀ two_ne_zero]
    congr 1
    omega
  rcases le_total 0 x with hpos | hneg
  · refine ⟨2 ^ k, ?_⟩
    rw [abs_of_nonneg hpos] at hx ⊢
    push_cast
    rw [hpow, abs_of_nonneg (by linarith)]
  · refine ⟨-2 ^ k, ?_⟩
    rw [abs_of_nonpos hneg] at hx ⊢
    push_cast
    rw [neg_mul, hpow, abs_of_nonpos (by linarith)]
    ring

/-- **Rounding gives a nearest value.** -/
theorem abs_sub_round_le_abs_sub (hy : F.Representable y) : |x - F.round x| ≤ |x - y| := by
  obtain ⟨m, e, hm, he, rfl⟩ := hy
  rcases le_or_gt (F.exponent x) e with hle | hlt
  · -- a multiple of the last place
    obtain ⟨k, hk⟩ := Int.le.dest hle
    have heq : (m : ℚ) * 2 ^ e = ((m * 2 ^ k : ℤ) : ℚ) * 2 ^ F.exponent x := by
      rw [← hk, zpow_add₀ two_ne_zero, zpow_natCast]
      push_cast
      ring
    rw [heq]
    exact abs_sub_round_le_of_multiple x _
  · -- closer to zero than any value with its last place where it is
    rcases eq_or_ne x 0 with rfl | hx
    · have hzero : F.round 0 = 0 := by simp [round, roundHalfEven]
      rw [hzero, sub_zero, abs_zero]
      exact abs_nonneg _
    · have hxB := pow_le_abs_div (lt_of_le_of_lt he hlt) hx
      have hyB : |(m : ℚ) * 2 ^ e| ≤ 2 ^ (F.exponent x + F.precision - 1) := by
        have hmq : |(m : ℚ)| ≤ 2 ^ F.precision := by exact_mod_cast hm
        have hpos : (0 : ℚ) < 2 ^ e := by positivity
        calc |(m : ℚ) * 2 ^ e| = |(m : ℚ)| * 2 ^ e := by rw [abs_mul, abs_of_pos hpos]
          _ ≤ 2 ^ F.precision * 2 ^ e := mul_le_mul_of_nonneg_right hmq (by positivity)
          _ = 2 ^ (e + F.precision) := by rw [zpow_add₀ two_ne_zero, zpow_natCast, mul_comm]
          _ ≤ 2 ^ (F.exponent x + F.precision - 1) :=
              zpow_le_zpow_right₀ one_le_two (by omega)
      obtain ⟨n, hn⟩ := exists_multiple_abs_sub (F := F) hxB
      calc |x - F.round x| ≤ |x - n * 2 ^ F.exponent x| := abs_sub_round_le_of_multiple x n
        _ = |x| - 2 ^ (F.exponent x + F.precision - 1) := hn
        _ ≤ |x| - |(m : ℚ) * 2 ^ e| := by linarith
        _ ≤ |x - m * 2 ^ e| := abs_sub_abs_le_abs_sub x _

theorem round_of_representable (hx : F.Representable x) : F.round x = x := by
  have hnear := abs_sub_round_le_abs_sub (x := x) hx
  rw [sub_self, abs_zero] at hnear
  exact (sub_eq_zero.1 (abs_nonpos_iff.1 hnear)).symm

theorem round_mono (h : x ≤ y) : F.round x ≤ F.round y := by
  rcases h.eq_or_lt with rfl | hlt
  · exact le_refl _
  · by_contra hgt
    -- each of the two is nearer to its own value, so they would be on the wrong sides of the middle
    have hx := abs_sub_round_le_abs_sub (x := x) (representable_round (F := F) y)
    have hy := abs_sub_round_le_abs_sub (x := y) (representable_round (F := F) x)
    rw [← sq_le_sq] at hx hy
    rw [not_le] at hgt
    nlinarith

theorem round_nonneg (h : 0 ≤ x) : 0 ≤ F.round x := by
  have hzero : F.round 0 = 0 := by simp [round, roundHalfEven]
  rw [← hzero]
  exact round_mono h

/-! ## Errors and scaling -/

/-- Half a last place. -/
theorem abs_sub_round_le (x : ℚ) : |x - F.round x| ≤ 2 ^ F.exponent x / 2 := by
  have hpos : (0 : ℚ) < 2 ^ F.exponent x := by positivity
  have hhalf := mul_le_mul_of_nonneg_right (abs_sub_roundHalfEven_le (x / 2 ^ F.exponent x)) hpos.le
  rw [abs_sub_round]
  linarith

/-- The value is large enough for a full significand. -/
def Normal (F : FloatFormat) (x : ℚ) : Prop := (2 : ℚ) ^ (F.minExp + F.precision - 1) ≤ |x|

theorem Normal.pos (h : F.Normal x) : 0 < |x| := lt_of_lt_of_le (by positivity) h

theorem Normal.exponent_eq (h : F.Normal x) :
    F.exponent x = Int.log 2 |x| + 1 - F.precision := by
  have hlog : F.minExp + F.precision - 1 ≤ Int.log 2 |x| := by
    rw [← Int.zpow_le_iff_le_log one_lt_two h.pos]
    exact_mod_cast h
  unfold exponent
  omega

theorem Normal.abs_sub_round_le (h : F.Normal x) : |x - F.round x| ≤ |x| / 2 ^ F.precision := by
  have hlog : (2 : ℚ) ^ Int.log 2 |x| ≤ |x| := by
    exact_mod_cast Int.zpow_log_le_self one_lt_two h.pos
  have heq : (2 : ℚ) ^ F.exponent x / 2 = 2 ^ Int.log 2 |x| / 2 ^ F.precision := by
    rw [h.exponent_eq, zpow_sub₀ two_ne_zero, zpow_add₀ two_ne_zero, zpow_one, zpow_natCast]
    ring
  calc |x - F.round x| ≤ 2 ^ F.exponent x / 2 := FloatFormat.abs_sub_round_le x
    _ = 2 ^ Int.log 2 |x| / 2 ^ F.precision := heq
    _ ≤ |x| / 2 ^ F.precision := div_le_div_of_nonneg_right hlog (by positivity)

theorem log_two_mul (h : 0 < x) : Int.log 2 (2 * x) = Int.log 2 x + 1 := by
  have hlow : (2 : ℚ) ^ Int.log 2 x ≤ x := by exact_mod_cast Int.zpow_log_le_self one_lt_two h
  have hhigh : x < 2 ^ (Int.log 2 x + 1) := by
    exact_mod_cast Int.lt_zpow_succ_log_self one_lt_two x
  have hpos : 0 < 2 * x := by linarith
  refine le_antisymm ?_ ?_
  · rw [← Int.lt_add_one_iff, ← Int.lt_zpow_iff_log_lt one_lt_two hpos]
    push_cast
    rw [zpow_add₀ two_ne_zero (Int.log 2 x + 1), zpow_one]
    linarith
  · rw [← Int.zpow_le_iff_le_log one_lt_two hpos]
    push_cast
    rw [zpow_add₀ two_ne_zero, zpow_one]
    linarith

/-- The error of a quotient of two numbers with a relative error of `u` each. -/
theorem abs_div_sub_div_le {s t S T u : ℚ} (hu : 0 ≤ u) (hsmall : u ≤ 1 / 16) (ht : 0 < t)
    (hs : 0 ≤ s) (hst : 2 * s ≤ t) (hS : |s - S| ≤ s * u) (hT : |t - T| ≤ t * u) :
    |S / T - s / t| ≤ 5 / 4 * u := by
  obtain ⟨hS₁, hS₂⟩ := abs_le.1 hS
  obtain ⟨hT₁, hT₂⟩ := abs_le.1 hT
  have htu : t * u ≤ t * (1 / 16) := mul_le_mul_of_nonneg_left hsmall ht.le
  have hTpos : 0 < T := by linarith
  have hTlow : 15 / 16 * t ≤ T := by linarith
  have heq : S / T - s / t = (S * t - s * T) / (T * t) := by
    rw [div_sub_div _ _ hTpos.ne' ht.ne', mul_comm T s]
  -- the cross product differs by at most twice the one relative error
  have hcross : |S * t - s * T| ≤ 2 * (s * t * u) := by
    have h₁ : |S * t - s * T| ≤ |s - S| * t + s * |t - T| := by
      have hsplit : S * t - s * T = -(s - S) * t + s * (t - T) := by ring
      rw [hsplit]
      refine (abs_add_le _ _).trans ?_
      rw [abs_mul, abs_mul, abs_neg, abs_of_pos ht, abs_of_nonneg hs]
    have h₂ := mul_le_mul_of_nonneg_right hS ht.le
    have h₃ := mul_le_mul_of_nonneg_left hT hs
    linarith
  have hsu : s * t * u ≤ t / 2 * t * u :=
    mul_le_mul_of_nonneg_right (mul_le_mul_of_nonneg_right (by linarith) ht.le) hu
  have hTt : 15 / 16 * t * t ≤ T * t := mul_le_mul_of_nonneg_right hTlow ht.le
  have hbound : 15 / 16 * t * t * (5 / 4 * u) ≤ T * t * (5 / 4 * u) :=
    mul_le_mul_of_nonneg_right hTt (by positivity)
  have htt : 0 ≤ t * t * u := by positivity
  rw [heq, abs_div, abs_of_pos (by positivity : 0 < T * t), div_le_iff₀ (by positivity)]
  linarith

theorem Normal.round_two_mul (h : F.Normal x) : F.round (2 * x) = 2 * F.round x := by
  have habs : |2 * x| = 2 * |x| := by rw [abs_mul, abs_of_pos two_pos]
  have hnormal : F.Normal (2 * x) := by
    have hx := h.pos
    unfold Normal at h ⊢
    linarith
  have hexp : F.exponent (2 * x) = F.exponent x + 1 := by
    rw [h.exponent_eq, hnormal.exponent_eq, habs, log_two_mul h.pos]
    ring
  have hdiv : 2 * x / 2 ^ (F.exponent x + 1) = x / 2 ^ F.exponent x := by
    rw [zpow_add₀ two_ne_zero, zpow_one, mul_comm ((2 : ℚ) ^ F.exponent x)]
    exact mul_div_mul_left x _ two_ne_zero
  unfold round
  rw [hexp, hdiv, zpow_add₀ two_ne_zero, zpow_one]
  ring

theorem representable_of_int (m : ℤ) (k : ℕ) (hm : |m| ≤ 2 ^ F.precision) (hk : F.minExp ≤ -k) :
    F.Representable (m / 2 ^ k) :=
  ⟨m, -k, hm, hk, by rw [zpow_neg, zpow_natCast, div_eq_mul_inv]⟩

end

/-! ## Values and operations -/

/-- A float: not a number, infinite, or a representable number in range. -/
inductive Value where
  | nan
  | infinite (negative : Bool)
  | finite (x : {x : ℚ // F.Representable x ∧ |x| < 2 ^ F.maxExp})

/-- An exact result, rounded. -/
def ofRat (x : ℚ) : F.Value :=
  if h : |F.round x| < 2 ^ F.maxExp then .finite ⟨F.round x, representable_round x, h⟩
  else .infinite (x < 0)

namespace Value

variable {F}

/-- Subtraction, rounded. -/
def sub : F.Value → F.Value → F.Value
  | .finite x, .finite y => F.ofRat (x - y)
  | .nan, _ => .nan
  | _, .nan => .nan
  | .infinite a, .infinite b => if a = b then .nan else .infinite a
  | .infinite a, .finite _ => .infinite a
  | .finite _, .infinite b => .infinite (!b)

/-- Multiplication, rounded. -/
def mul : F.Value → F.Value → F.Value
  | .finite x, .finite y => F.ofRat (x * y)
  | .nan, _ => .nan
  | _, .nan => .nan
  | .infinite a, .infinite b => .infinite (a != b)
  | .infinite a, .finite x => if x.1 = 0 then .nan else .infinite (a != decide (x.1 < 0))
  | .finite x, .infinite a => if x.1 = 0 then .nan else .infinite (a != decide (x.1 < 0))

/-- Division, rounded; a zero divisor counts as positive. -/
def div : F.Value → F.Value → F.Value
  | .finite x, .finite y =>
      if y.1 = 0 then if x.1 = 0 then .nan else .infinite (x.1 < 0) else F.ofRat (x / y)
  | .nan, _ => .nan
  | _, .nan => .nan
  | .infinite _, .infinite _ => .nan
  | .infinite a, .finite y => .infinite (a != decide (y.1 < 0))
  | .finite _, .infinite _ => F.ofRat 0

/-- Nothing is less than, or greater than, `nan`. -/
def lt : F.Value → F.Value → Bool
  | .finite x, .finite y => decide (x.1 < y.1)
  | .nan, _ => false
  | _, .nan => false
  | .infinite a, .infinite b => a && !b
  | .infinite a, .finite _ => a
  | .finite _, .infinite b => !b

/-- Comparison; nothing compares with a value that is not a number. -/
def le : F.Value → F.Value → Bool
  | .finite x, .finite y => decide (x.1 ≤ y.1)
  | .nan, _ => false
  | _, .nan => false
  | .infinite a, .infinite b => a || !b
  | .infinite a, .finite _ => a
  | .finite _, .infinite b => !b

/-- The value is the number `x`. -/
def Is (v : F.Value) (x : ℚ) : Prop := ∃ h, v = .finite ⟨x, h⟩

variable {v w : F.Value} {x y : ℚ}

theorem Is.representable (h : v.Is x) : F.Representable x := h.1.1

theorem is_ofRat (h : |F.round x| < 2 ^ F.maxExp) : (F.ofRat x).Is (F.round x) :=
  ⟨⟨representable_round x, h⟩, dif_pos h⟩

theorem is_ofRat_of_representable (hx : F.Representable x) (h : |x| < 2 ^ F.maxExp) :
    (F.ofRat x).Is x := by
  have hround := round_of_representable hx
  have his := is_ofRat (F := F) (x := x) (by rwa [hround])
  rwa [hround] at his

theorem Is.sub (hv : v.Is x) (hw : w.Is y) : v.sub w = F.ofRat (x - y) := by
  obtain ⟨-, rfl⟩ := hv
  obtain ⟨-, rfl⟩ := hw
  rfl

theorem Is.mul (hv : v.Is x) (hw : w.Is y) : v.mul w = F.ofRat (x * y) := by
  obtain ⟨-, rfl⟩ := hv
  obtain ⟨-, rfl⟩ := hw
  rfl

theorem Is.div (hv : v.Is x) (hw : w.Is y) (hy : y ≠ 0) : v.div w = F.ofRat (x / y) := by
  obtain ⟨-, rfl⟩ := hv
  obtain ⟨-, rfl⟩ := hw
  exact if_neg hy

theorem Is.lt (hv : v.Is x) (hw : w.Is y) : v.lt w = decide (x < y) := by
  obtain ⟨-, rfl⟩ := hv
  obtain ⟨-, rfl⟩ := hw
  rfl

theorem Is.le (hv : v.Is x) (hw : w.Is y) : v.le w = decide (x ≤ y) := by
  obtain ⟨-, rfl⟩ := hv
  obtain ⟨-, rfl⟩ := hw
  rfl

end Value

end FloatFormat
