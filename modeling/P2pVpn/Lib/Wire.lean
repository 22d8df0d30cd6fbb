import Mathlib

set_option autoImplicit false

/-! # The protobuf wire format

Base-128 varints, and fields that are a key and a value. A message is the concatenation of its fields.
Small control messages are made of varints and length-delimited bytes; the decoder also skips over
values of the other wire types. Besides the round trips, the file proves that a truncated field never
parses: a strict prefix of one encoded field is either empty or malformed. -/

namespace Wire

/-! ## Varints -/

/-- Seven bits at a time, low ones first; `fuel` bounds the number of bytes. -/
def encodeVarintAux : Nat → Nat → List UInt8
  | 0, n => [UInt8.ofNat n]
  | fuel + 1, n =>
      if n < 128 then [UInt8.ofNat n]
      else UInt8.ofNat (n % 128 + 128) :: encodeVarintAux fuel (n / 128)

/-- The shortest encoding of a number. -/
def encodeVarint (n : Nat) : List UInt8 := encodeVarintAux n n

/-- A varint of at most `left` bytes; of the last of them only the lowest bit may be set. -/
def decodeVarintAux : Nat → List UInt8 → Option (Nat × List UInt8)
  | 0, _ => none
  | _ + 1, [] => none
  | left + 1, b :: rest =>
      if b.toNat < 128 then
        if left = 0 ∧ 2 ≤ b.toNat then none else some (b.toNat, rest)
      else (decodeVarintAux left rest).map fun r => (b.toNat - 128 + 128 * r.1, r.2)

/-- A `u64` takes at most ten bytes. -/
def decodeVarint (bytes : List UInt8) : Option (Nat × List UInt8) := decodeVarintAux 10 bytes

theorem toNat_ofNat_of_lt {n : Nat} (h : n < 256) : (UInt8.ofNat n).toNat = n := by
  simp [Nat.mod_eq_of_lt h]

/-- A last byte. -/
theorem decodeVarintAux_cons_small {left n : Nat} (h : n < 128) (rest : List UInt8) :
    decodeVarintAux (left + 1) (UInt8.ofNat n :: rest)
      = if n < 2 * 128 ^ left then some (n, rest) else none := by
  have hn := toNat_ofNat_of_lt (n := n) (by omega)
  simp only [decodeVarintAux, hn, if_pos h]
  cases left with
  | zero =>
      by_cases htwo : n < 2
      · simp [htwo]
      · simp [htwo, not_lt.1 htwo]
  | succ left =>
      have hpow : 0 < 128 ^ left := Nat.pow_pos (by decide)
      have hlt : n < 2 * 128 ^ (left + 1) := by rw [pow_succ]; omega
      simp [hlt]

/-- A byte with the continuation bit. -/
theorem decodeVarintAux_cons_large (left n : Nat) (rest : List UInt8) :
    decodeVarintAux (left + 1) (UInt8.ofNat (n % 128 + 128) :: rest)
      = (decodeVarintAux left rest).map fun r => (n % 128 + 128 * r.1, r.2) := by
  have hn := toNat_ofNat_of_lt (n := n % 128 + 128) (by omega)
  simp only [decodeVarintAux, hn, if_neg (show ¬ n % 128 + 128 < 128 by omega), Nat.add_sub_cancel]

theorem decodeVarintAux_encodeVarintAux (fuel : Nat) :
    ∀ left n, n ≤ fuel → ∀ rest, decodeVarintAux (left + 1) (encodeVarintAux fuel n ++ rest)
      = if n < 2 * 128 ^ left then some (n, rest) else none := by
  induction fuel with
  | zero =>
      intro left n hn rest
      exact decodeVarintAux_cons_small (by omega) rest
  | succ fuel ih =>
      intro left n hn rest
      unfold encodeVarintAux
      by_cases hsmall : n < 128
      · rw [if_pos hsmall, List.singleton_append, decodeVarintAux_cons_small hsmall]
      · rw [if_neg hsmall, List.cons_append, decodeVarintAux_cons_large]
        cases left with
        | zero =>
            rw [if_neg (by omega)]
            rfl
        | succ left =>
            -- the bytes left have room for the rest of the number just if there was room for all of it
            have hroom : n / 128 < 2 * 128 ^ left ↔ n < 2 * 128 ^ (left + 1) := by
              rw [pow_succ]
              omega
            rw [ih left (n / 128) (by omega)]
            simp only [hroom]
            split_ifs
            · rw [Option.map_some, Nat.mod_add_div]
            · rfl

/-- **Round trip.** Exactly the numbers below 2^64 are read back. -/
theorem decodeVarint_encodeVarint (n : Nat) (rest : List UInt8) :
    decodeVarint (encodeVarint n ++ rest) = if n < 2 ^ 64 then some (n, rest) else none :=
  decodeVarintAux_encodeVarintAux n 9 n le_rfl rest

theorem encodeVarintAux_ne_nil (fuel n : Nat) : encodeVarintAux fuel n ≠ [] := by
  cases fuel with
  | zero => simp [encodeVarintAux]
  | succ fuel =>
      unfold encodeVarintAux
      split_ifs <;> simp

theorem encodeVarint_ne_nil (n : Nat) : encodeVarint n ≠ [] := encodeVarintAux_ne_nil n n

theorem decodeVarintAux_nil (left : Nat) : decodeVarintAux left [] = none := by
  cases left <;> rfl

theorem eq_nil_of_prefix_singleton {α : Type} {p : List α} {b : α} (hp : p <+: [b]) (hne : p ≠ [b]) :
    p = [] := by
  rcases List.prefix_cons_iff.1 hp with rfl | ⟨t, rfl, ht⟩
  · rfl
  · exact absurd (by rw [List.prefix_nil.1 ht]) hne

/-- A truncated varint does not parse. -/
theorem decodeVarintAux_of_truncated (fuel : Nat) :
    ∀ left n, n ≤ fuel → ∀ p, p <+: encodeVarintAux fuel n → p ≠ encodeVarintAux fuel n →
      decodeVarintAux left p = none := by
  induction fuel with
  | zero =>
      intro left n _ p hp hne
      rw [eq_nil_of_prefix_singleton hp hne]
      exact decodeVarintAux_nil left
  | succ fuel ih =>
      intro left n hn p hp hne
      unfold encodeVarintAux at hp hne
      split_ifs at hp hne with hsmall
      · rw [eq_nil_of_prefix_singleton hp hne]
        exact decodeVarintAux_nil left
      · rcases List.prefix_cons_iff.1 hp with rfl | ⟨t, rfl, ht⟩
        · exact decodeVarintAux_nil left
        · cases left with
          | zero => rfl
          | succ left =>
              have hrest := ih left (n / 128) (by omega) t ht fun heq => hne (by rw [heq])
              rw [decodeVarintAux_cons_large, hrest]
              rfl

theorem decodeVarint_of_truncated {n : Nat} {p : List UInt8} (hp : p <+: encodeVarint n)
    (hne : p ≠ encodeVarint n) : decodeVarint p = none :=
  decodeVarintAux_of_truncated n 10 n le_rfl p hp hne

/-- A strict prefix of a concatenation ends in the first part, or in the second. -/
theorem strictPrefix_append {α : Type} {p a b : List α} (hp : p <+: a ++ b) (hne : p ≠ a ++ b) :
    (p <+: a ∧ p ≠ a) ∨ ∃ q, p = a ++ q ∧ q <+: b ∧ q ≠ b := by
  rcases List.prefix_or_prefix_of_prefix hp (List.prefix_append a b) with h | ⟨q, rfl⟩
  · by_cases heq : p = a
    · subst heq
      exact Or.inr ⟨[], by simp, List.nil_prefix, fun hb => hne (by simp [← hb])⟩
    · exact Or.inl ⟨h, heq⟩
  · exact Or.inr ⟨q, rfl, (List.prefix_append_right_inj a).1 hp, fun heq => hne (by rw [heq])⟩

/-! ## Keys -/

/-- The number of a field and its wire type: a `u32`, and no field has the number 0. -/
def decodeKey (bytes : List UInt8) : Option ((Nat × Nat) × List UInt8) :=
  match decodeVarint bytes with
  | some (key, rest) => if key < 2 ^ 32 ∧ 8 ≤ key then some ((key / 8, key % 8), rest) else none
  | none => none

/-- A number that fits a key. -/
def IsNumber (number : Nat) : Prop := 0 < number ∧ number < 2 ^ 29

instance (number : Nat) : Decidable (IsNumber number) :=
  inferInstanceAs (Decidable (_ ∧ _))

theorem decodeKey_encodeVarint {number : Nat} (hnumber : IsNumber number) (wireType : Nat)
    (htype : wireType < 8) (rest : List UInt8) :
    decodeKey (encodeVarint (number * 8 + wireType) ++ rest) = some ((number, wireType), rest) := by
  obtain ⟨hpos, hlt⟩ := hnumber
  have hkey : (number * 8 + wireType) / 8 = number ∧ (number * 8 + wireType) % 8 = wireType := by
    omega
  unfold decodeKey
  rw [decodeVarint_encodeVarint, if_pos (by omega)]
  simp only [hkey]
  rw [if_pos (by omega)]

/-! ## Values that are skipped -/

/-- The fields of a group, up to its end. -/
def skipGroup (skip : Nat → Nat → List UInt8 → Option (List UInt8)) (number : Nat) :
    Nat → List UInt8 → Option (List UInt8)
  | 0, _ => none
  | fuel + 1, bytes =>
      match decodeKey bytes with
      | some ((n, wireType), rest) =>
          if wireType = 4 then
            if n = number then some rest else none
          else (skip wireType n rest).bind (skipGroup skip number fuel)
      | none => none

/-- What is left after the value of a field. `depth` is how deep groups may still nest. -/
def skipField : Nat → Nat → Nat → List UInt8 → Option (List UInt8)
  | 0, _, _, _ => none
  | depth + 1, wireType, number, bytes =>
      match wireType with
      | 0 => (decodeVarint bytes).map (·.2)
      | 1 => if 8 ≤ bytes.length then some (bytes.drop 8) else none
      | 2 =>
          match decodeVarint bytes with
          | some (len, body) => if len ≤ body.length then some (body.drop len) else none
          | none => none
      -- every field of the group takes a byte at least
      | 3 => skipGroup (skipField depth) number (bytes.length + 1) bytes
      | 5 => if 4 ≤ bytes.length then some (bytes.drop 4) else none
      | _ => none

/-! ## Fields -/

/-- A value of the two wire types that are read. -/
inductive Value where
  | varint (n : Nat)
  | bytes (b : List UInt8)
  deriving DecidableEq

/-- A field to write. -/
structure Field where
  number : Nat
  value : Value
  deriving DecidableEq

/-- A field that was read; a value of another wire type is `none`. -/
structure ReadField where
  number : Nat
  value : Option Value
  deriving DecidableEq

/-- A field that was written, when it is read. -/
def Field.read (f : Field) : ReadField := ⟨f.number, some f.value⟩

/-- The field can be written and read back: its number fits a key, and its value or the length of it
    a `u64`. -/
def Field.Fits (f : Field) : Prop :=
  IsNumber f.number ∧
    match f.value with
    | .varint n => n < 2 ^ 64
    | .bytes b => b.length < 2 ^ 64

/-- The key, and then the value. -/
def encodeField (f : Field) : List UInt8 :=
  match f.value with
  | .varint n => encodeVarint (f.number * 8) ++ encodeVarint n
  | .bytes b => encodeVarint (f.number * 8 + 2) ++ (encodeVarint b.length ++ b)

/-- The value of a field, and what is left after it. -/
def decodeValue (depth wireType number : Nat) (bytes : List UInt8) :
    Option (Option Value × List UInt8) :=
  match wireType with
  | 0 => (decodeVarint bytes).map fun r => (some (.varint r.1), r.2)
  | 2 =>
      match decodeVarint bytes with
      | some (len, body) =>
          if len ≤ body.length then some (some (.bytes (body.take len)), body.drop len) else none
      | none => none
  | _ => (skipField depth wireType number bytes).map fun rest => (none, rest)

/-- The first field, and what is left after it. -/
def decodeField (depth : Nat) (bytes : List UInt8) : Option (ReadField × List UInt8) :=
  match decodeKey bytes with
  | some ((number, wireType), rest) =>
      (decodeValue depth wireType number rest).map fun r => (⟨number, r.1⟩, r.2)
  | none => none

theorem decodeField_encodeField {f : Field} (hfits : f.Fits) (depth : Nat) (rest : List UInt8) :
    decodeField depth (encodeField f ++ rest) = some (f.read, rest) := by
  obtain ⟨number, value⟩ := f
  obtain ⟨hnumber, hvalue⟩ := hfits
  cases value with
  | varint n =>
      have hkey := decodeKey_encodeVarint hnumber 0 (by decide) (encodeVarint n ++ rest)
      have hn := (decodeVarint_encodeVarint n rest).trans (if_pos hvalue)
      rw [Nat.add_zero] at hkey
      simp [encodeField, decodeField, decodeValue, Field.read, hkey, hn]
  | bytes b =>
      have hkey := decodeKey_encodeVarint hnumber 2 (by decide)
        (encodeVarint b.length ++ (b ++ rest))
      have hlen := (decodeVarint_encodeVarint b.length (b ++ rest)).trans (if_pos hvalue)
      simp [encodeField, decodeField, decodeValue, Field.read, hkey, hlen]

theorem encodeField_ne_nil (f : Field) : encodeField f ≠ [] := by
  unfold encodeField
  split <;> simp [encodeVarint_ne_nil]

theorem length_le_encodeField (number : Nat) (b : List UInt8) :
    b.length ≤ (encodeField ⟨number, .bytes b⟩).length := by
  simp only [encodeField, List.length_append]
  omega

theorem decodeKey_of_truncated {key : Nat} {p : List UInt8} (hp : p <+: encodeVarint key)
    (hne : p ≠ encodeVarint key) : decodeKey p = none := by
  simp [decodeKey, decodeVarint_of_truncated hp hne]

/-- A truncated field does not parse. -/
theorem decodeField_of_truncated {f : Field} (hnumber : IsNumber f.number) (depth : Nat)
    {p : List UInt8} (hp : p <+: encodeField f) (hne : p ≠ encodeField f) :
    decodeField depth p = none := by
  obtain ⟨number, value⟩ := f
  cases value with
  | varint n =>
      rcases strictPrefix_append hp hne with ⟨hkey, hkeyne⟩ | ⟨q, rfl, hq, hqne⟩
      · simp [decodeField, decodeKey_of_truncated hkey hkeyne]
      · have hkey := decodeKey_encodeVarint hnumber 0 (by decide) q
        rw [Nat.add_zero] at hkey
        simp [decodeField, decodeValue, hkey, decodeVarint_of_truncated hq hqne]
  | bytes b =>
      rcases strictPrefix_append hp hne with ⟨hkey, hkeyne⟩ | ⟨q, rfl, hq, hqne⟩
      · simp [decodeField, decodeKey_of_truncated hkey hkeyne]
      · have hkey := decodeKey_encodeVarint hnumber 2 (by decide) q
        rcases strictPrefix_append hq hqne with ⟨hlen, hlenne⟩ | ⟨body, rfl, hbody, hbodyne⟩
        · simp [decodeField, decodeValue, hkey, decodeVarint_of_truncated hlen hlenne]
        · -- the body is shorter than its announced length
          have hshort : ¬ b.length ≤ body.length := fun hle =>
            hbodyne (hbody.eq_of_length (le_antisymm hbody.length_le hle))
          by_cases hfits : b.length < 2 ^ 64
          · have hlen := (decodeVarint_encodeVarint b.length body).trans (if_pos hfits)
            simp [decodeField, decodeValue, hkey, hlen, hshort]
          · have hlen := (decodeVarint_encodeVarint b.length body).trans (if_neg hfits)
            simp [decodeField, decodeValue, hkey, hlen]

/-! ## Messages -/

/-- A message is its fields, one after the other. -/
def encodeFields (fields : List Field) : List UInt8 := fields.flatMap encodeField

/-- Fields up to the end of the input; every field takes at least one byte of `fuel`. -/
def decodeFieldsAux (depth : Nat) : Nat → List UInt8 → Option (List ReadField)
  | _, [] => some []
  | 0, _ :: _ => none
  | fuel + 1, b :: bytes =>
      match decodeField depth (b :: bytes) with
      | some (f, rest) => (decodeFieldsAux depth fuel rest).map (f :: ·)
      | none => none

/-- The fields of a message. -/
def decodeFields (depth : Nat) (bytes : List UInt8) : Option (List ReadField) :=
  decodeFieldsAux depth bytes.length bytes

theorem decodeFieldsAux_encodeFields (depth : Nat) (fields : List Field)
    (hfits : ∀ f ∈ fields, f.Fits) :
    ∀ fuel, (encodeFields fields).length ≤ fuel →
      decodeFieldsAux depth fuel (encodeFields fields) = some (fields.map Field.read) := by
  induction fields with
  | nil =>
      intro fuel _
      cases fuel <;> rfl
  | cons f rest ih =>
      intro fuel hfuel
      obtain ⟨hf, hrest⟩ := List.forall_mem_cons.1 hfits
      have hne := encodeField_ne_nil f
      have hsplit : encodeFields (f :: rest) = encodeField f ++ encodeFields rest := rfl
      rw [hsplit] at hfuel ⊢
      obtain ⟨b, bytes, hcons⟩ := List.exists_cons_of_ne_nil hne
      cases fuel with
      | zero => rw [hcons] at hfuel; simp at hfuel
      | succ fuel =>
          have hlen : (encodeFields rest).length ≤ fuel := by
            rw [hcons] at hfuel
            simp only [List.cons_append, List.length_cons, List.length_append] at hfuel
            omega
          have hfield := decodeField_encodeField hf depth (encodeFields rest)
          rw [hcons, List.cons_append] at hfield ⊢
          simp only [decodeFieldsAux, hfield, ih hrest fuel hlen, Option.map_some, List.map_cons]

theorem decodeFields_encodeFields (depth : Nat) {fields : List Field}
    (hfits : ∀ f ∈ fields, f.Fits) :
    decodeFields depth (encodeFields fields) = some (fields.map Field.read) :=
  decodeFieldsAux_encodeFields depth fields hfits _ le_rfl

/-- A field is no longer than its message. -/
theorem length_encodeField_le {f : Field} {fields : List Field} (hf : f ∈ fields) :
    (encodeField f).length ≤ (encodeFields fields).length := by
  rw [encodeFields, List.length_flatMap]
  exact List.le_sum_of_mem (List.mem_map.2 ⟨f, hf, rfl⟩)

/-- A message of one field, truncated, is empty or malformed. -/
theorem decodeFields_of_truncated {f : Field} (hnumber : IsNumber f.number) (depth : Nat)
    {p : List UInt8} (hp : p <+: encodeFields [f]) (hne : p ≠ encodeFields [f]) :
    p = [] ∨ decodeFields depth p = none := by
  have hone : encodeFields [f] = encodeField f := by simp [encodeFields]
  rw [hone] at hp hne
  cases p with
  | nil => exact Or.inl rfl
  | cons b bytes =>
      right
      simp [decodeFields, decodeFieldsAux, decodeField_of_truncated hnumber depth hp hne]

end Wire
