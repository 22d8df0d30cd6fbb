import Mathlib

set_option autoImplicit false

/-! # Byte strings of fixed-width numbers

Big- and little-endian conversions between numbers and lists of bytes, in the shape wire formats use
them: a fixed byte count, most (or least) significant byte first. -/

/-- The low `k` bytes of `n`, most significant first. -/
def beBytes : Nat → Nat → List UInt8
  | 0, _ => []
  | k + 1, n => beBytes k (n / 256) ++ [UInt8.ofNat n]

/-- The number a big-endian byte string denotes. -/
def ofBeBytes (bs : List UInt8) : Nat :=
  bs.foldl (fun acc b => acc * 256 + b.toNat) 0

/-- The number a little-endian byte string denotes. -/
def ofLeBytes : List UInt8 → Nat
  | [] => 0
  | b :: rest => b.toNat + 256 * ofLeBytes rest

@[simp] theorem beBytes_length (k n : Nat) : (beBytes k n).length = k := by
  induction k generalizing n with
  | zero => rfl
  | succ k ih => simp [beBytes, ih]

theorem ofBeBytes_append_singleton (bs : List UInt8) (b : UInt8) :
    ofBeBytes (bs ++ [b]) = ofBeBytes bs * 256 + b.toNat := by
  simp [ofBeBytes, List.foldl_append]

theorem ofBeBytes_beBytes (k n : Nat) : ofBeBytes (beBytes k n) = n % 256 ^ k := by
  induction k generalizing n with
  | zero => simp [beBytes, ofBeBytes, Nat.mod_one]
  | succ k ih =>
      have hb : (UInt8.ofNat n).toNat = n % 256 := by simp
      rw [beBytes, ofBeBytes_append_singleton, ih, hb, Nat.pow_succ, Nat.mul_comm (256 ^ k),
        Nat.mod_mul, Nat.add_comm, Nat.mul_comm]

theorem ofBeBytes_beBytes_of_lt {k n : Nat} (h : n < 256 ^ k) : ofBeBytes (beBytes k n) = n := by
  rw [ofBeBytes_beBytes, Nat.mod_eq_of_lt h]

theorem beBytes_injOn {k n m : Nat} (hn : n < 256 ^ k) (hm : m < 256 ^ k)
    (h : beBytes k n = beBytes k m) : n = m := by
  rw [← ofBeBytes_beBytes_of_lt hn, h, ofBeBytes_beBytes_of_lt hm]

theorem ofBeBytes_lt (bs : List UInt8) : ofBeBytes bs < 256 ^ bs.length := by
  induction bs using List.reverseRecOn with
  | nil => simp [ofBeBytes]
  | append_singleton bs b ih =>
      have hb := b.toNat_lt
      rw [ofBeBytes_append_singleton, List.length_append, List.length_singleton, Nat.pow_succ]
      omega

/-- A byte string is written back from the number it denotes. -/
theorem beBytes_ofBeBytes (bs : List UInt8) : beBytes bs.length (ofBeBytes bs) = bs := by
  induction bs using List.reverseRecOn with
  | nil => rfl
  | append_singleton bs b ih =>
      have hb := b.toNat_lt
      have hquot : (ofBeBytes bs * 256 + b.toNat) / 256 = ofBeBytes bs := by omega
      have hbyte : UInt8.ofNat (ofBeBytes bs * 256 + b.toNat) = b := by
        apply UInt8.toNat_inj.1
        rw [UInt8.toNat_ofNat']
        omega
      rw [ofBeBytes_append_singleton, List.length_append, List.length_singleton, beBytes, hquot,
        hbyte, ih]
