import P2pVpn.Lib.Bytes

set_option autoImplicit false

/-! # Records of fixed-width fields

The layout of most protocol headers: big-endian numbers of given byte widths, one after another. A
record is decoded by its list of widths, and what follows it is handed back. -/

namespace Record

/-- The fields `(width, value)` in order. -/
def encode (fields : List (Nat × Nat)) : List UInt8 :=
  fields.flatMap fun f => beBytes f.1 f.2

/-- The values of the fields, and the bytes behind the record. -/
def decode : List Nat → List UInt8 → Option (List Nat × List UInt8)
  | [], bytes => some ([], bytes)
  | w :: widths, bytes =>
      if bytes.length < w then none
      else (decode widths (bytes.drop w)).map fun r => (ofBeBytes (bytes.take w) :: r.1, r.2)

@[simp] theorem encode_nil : encode [] = [] := rfl

@[simp] theorem encode_cons (f : Nat × Nat) (fields : List (Nat × Nat)) :
    encode (f :: fields) = beBytes f.1 f.2 ++ encode fields := by
  simp [encode]

@[simp] theorem length_encode (fields : List (Nat × Nat)) :
    (encode fields).length = (fields.map Prod.fst).sum := by
  induction fields with
  | nil => rfl
  | cons f fields ih => simp [ih]

/-- Decoding inverts encoding, when every value fits its width. -/
theorem decode_encode (fields : List (Nat × Nat)) (hfit : ∀ f ∈ fields, f.2 < 256 ^ f.1)
    (rest : List UInt8) :
    decode (fields.map Prod.fst) (encode fields ++ rest)
      = some (fields.map Prod.snd, rest) := by
  induction fields with
  | nil => rfl
  | cons f fields ih =>
      have hlen : ¬ (beBytes f.1 f.2 ++ (encode fields ++ rest)).length < f.1 := by simp
      have hvalue := ofBeBytes_beBytes_of_lt (hfit f (by simp))
      simp only [List.map_cons, encode_cons, List.append_assoc, decode, if_neg hlen]
      rw [List.drop_left' (beBytes_length _ _), List.take_left' (beBytes_length _ _), hvalue,
        ih fun g hg => hfit g (by simp [hg])]
      rfl

/-- What is left of the input is what lies behind the fields. -/
theorem decode_rest {widths : List Nat} {bytes : List UInt8} {values : List Nat}
    {rest : List UInt8} (h : decode widths bytes = some (values, rest)) :
    widths.sum ≤ bytes.length ∧ rest = bytes.drop widths.sum := by
  induction widths generalizing bytes values with
  | nil =>
      simp only [decode, Option.some.injEq, Prod.mk.injEq] at h
      simp [h.2]
  | cons w widths ih =>
      rw [decode] at h
      split_ifs at h with hshort
      obtain ⟨⟨values', rest'⟩, htail, heq⟩ := Option.map_eq_some_iff.1 h
      simp only [Prod.mk.injEq] at heq
      obtain ⟨-, rfl⟩ := heq
      obtain ⟨hlen, hrest⟩ := ih htail
      rw [List.length_drop] at hlen
      rw [List.drop_drop] at hrest
      exact ⟨by rw [List.sum_cons]; omega, by rw [List.sum_cons]; exact hrest⟩

/-- Encoding inverts decoding: the fields that were read, written one after another, are the bytes they
    were read from. -/
theorem encode_decode {widths : List Nat} {bytes : List UInt8} {values : List Nat}
    {rest : List UInt8} (h : decode widths bytes = some (values, rest)) :
    bytes = encode (widths.zip values) ++ rest ∧ ∀ f ∈ widths.zip values, f.2 < 256 ^ f.1 := by
  induction widths generalizing bytes values with
  | nil =>
      simp only [decode, Option.some.injEq, Prod.mk.injEq] at h
      simp [h.2]
  | cons w widths ih =>
      rw [decode] at h
      split_ifs at h with hshort
      obtain ⟨⟨values', rest'⟩, htail, heq⟩ := Option.map_eq_some_iff.1 h
      simp only [Prod.mk.injEq] at heq
      obtain ⟨rfl, rfl⟩ := heq
      obtain ⟨hbytes, hfit⟩ := ih htail
      have hlen : (bytes.take w).length = w := by
        rw [List.length_take]
        omega
      have hfield : beBytes w (ofBeBytes (bytes.take w)) = bytes.take w := by
        have := beBytes_ofBeBytes (bytes.take w)
        rwa [hlen] at this
      have hvalue : ofBeBytes (bytes.take w) < 256 ^ w := by
        have := ofBeBytes_lt (bytes.take w)
        rwa [hlen] at this
      constructor
      · rw [List.zip_cons_cons, encode_cons, hfield, List.append_assoc, ← hbytes,
          List.take_append_drop]
      · rw [List.zip_cons_cons]
        exact List.forall_mem_cons.2 ⟨hvalue, hfit⟩

end Record
