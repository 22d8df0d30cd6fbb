import P2pVpn.Lib.Bytes

set_option autoImplicit false

/-! # The Internet checksum

The ones'-complement sum of the 16-bit words of a byte string, an odd last byte padded with zero, and
its complement. Data that carries its own checksum in an aligned field sums to `0xffff`, which is how
a receiver verifies it. -/

namespace Checksum

/-- Addition of 16-bit words with end-around carry. -/
def add (a b : Nat) : Nat := (a + b) % 65536 + (a + b) / 65536

/-- The one's complement sum of the 16-bit words; a last odd byte is a high one. -/
def sum : List UInt8 → Nat
  | [] => 0
  | [b] => b.toNat * 256
  | a :: b :: rest => add (a.toNat * 256 + b.toNat) (sum rest)

/-- The value of the checksum field, for data whose field is zero. -/
def checksum (bytes : List UInt8) : Nat := 65535 - sum bytes

/-- The words, checksum included, sum up to all ones. -/
def Valid (bytes : List UInt8) : Prop := sum bytes = 65535

instance (bytes : List UInt8) : Decidable (Valid bytes) := inferInstanceAs (Decidable (_ = _))

theorem add_le {a b : Nat} (ha : a ≤ 65535) (hb : b ≤ 65535) : add a b ≤ 65535 := by
  unfold add
  omega

theorem sum_le (bytes : List UInt8) : sum bytes ≤ 65535 := by
  induction bytes using sum.induct with
  | case1 => simp [sum]
  | case2 b =>
      have := b.toNat_lt
      rw [sum]
      omega
  | case3 a b rest ih =>
      have ha := a.toNat_lt
      have hb := b.toNat_lt
      rw [sum]
      exact add_le (by omega) ih

theorem checksum_lt (bytes : List UInt8) : checksum bytes < 256 ^ 2 := by
  unfold checksum
  omega

theorem add_eq_ite {a b : Nat} (ha : a ≤ 65535) (hb : b ≤ 65535) :
    add a b = if a + b ≤ 65535 then a + b else a + b - 65535 := by
  unfold add
  split_ifs <;> omega

theorem add_comm (a b : Nat) : add a b = add b a := by
  rw [add, add, Nat.add_comm a b]

theorem add_assoc {a b c : Nat} (ha : a ≤ 65535) (hb : b ≤ 65535) (hc : c ≤ 65535) :
    add (add a b) c = add a (add b c) := by
  rw [add_eq_ite (add_le ha hb) hc, add_eq_ite ha (add_le hb hc), add_eq_ite ha hb, add_eq_ite hb hc]
  split_ifs <;> omega

theorem add_left_comm {a b c : Nat} (ha : a ≤ 65535) (hb : b ≤ 65535) (hc : c ≤ 65535) :
    add a (add b c) = add b (add a c) := by
  rw [← add_assoc ha hb hc, add_comm a b, add_assoc hb ha hc]

theorem zero_add {a : Nat} (ha : a ≤ 65535) : add 0 a = a := by
  unfold add
  omega

/-- A word and its complement. -/
theorem compl_add {a : Nat} (ha : a ≤ 65535) : add (65535 - a) a = 65535 := by
  unfold add
  omega

/-- The sum of two strings, the first of whole words. -/
theorem sum_append (front back : List UInt8) (heven : front.length % 2 = 0) :
    sum (front ++ back) = add (sum front) (sum back) := by
  induction front using sum.induct with
  | case1 => rw [List.nil_append, sum, zero_add (sum_le back)]
  | case2 b => simp at heven
  | case3 a b rest ih =>
      have ha := a.toNat_lt
      have hb := b.toNat_lt
      have hrest : rest.length % 2 = 0 := by
        simp only [List.length_cons] at heven
        omega
      rw [List.cons_append, List.cons_append, sum, sum, ih hrest,
        add_assoc (by omega) (sum_le rest) (sum_le back)]

theorem sum_word {n : Nat} (hn : n < 256 ^ 2) : sum (beBytes 2 n) = n := by
  have hbytes : beBytes 2 n = [UInt8.ofNat (n / 256), UInt8.ofNat n] := rfl
  rw [hbytes, sum, sum]
  simp only [add, UInt8.toNat_ofNat']
  omega

/-- **A receiver accepts the checksum.** Data with a checksum field after whole words, filled with the
    checksum of the data whose field is zero, is valid. -/
theorem valid_of_checksum (front back : List UInt8) (heven : front.length % 2 = 0) :
    Valid (front ++ beBytes 2 (checksum (front ++ beBytes 2 0 ++ back)) ++ back) := by
  -- the field's word can be moved to the front of the sum
  have hsum : ∀ n, n < 256 ^ 2 →
      sum (front ++ beBytes 2 n ++ back) = add n (add (sum front) (sum back)) := by
    intro n hn
    have hword : (front ++ beBytes 2 n).length % 2 = 0 := by
      rw [List.length_append, beBytes_length]
      omega
    rw [sum_append _ _ hword, sum_append _ _ heven, sum_word hn,
      add_assoc (sum_le front) (by omega) (sum_le back),
      add_left_comm (sum_le front) (by omega) (sum_le back)]
  have hle := add_le (sum_le front) (sum_le back)
  rw [Valid, hsum _ (checksum_lt _), checksum, hsum 0 (by omega), zero_add hle, compl_add hle]

end Checksum
