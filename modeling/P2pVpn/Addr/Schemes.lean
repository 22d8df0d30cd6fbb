import P2pVpn.Addr.Basic

set_option autoImplicit false

/-! # Concrete signature schemes and text forms

Stand-ins for Ed25519 on which the model can be run. Both schemes sign by writing the key, the length
of the message and the message down. In `transparentScheme` the signature is that record itself, so
the scheme is ideal; in `packedScheme` it is the record's first 64 bytes, so signatures and byte
strings of the right length are in bijection. No scheme is both: 64 bytes cannot name every message.

The text form `showNetWith` prints one chosen network as given and every other one as the characters
of its serialization, which `parseNetWith` reads back. -/

namespace P2pVpn

/-- The first 64 bytes of key, message length and message, padded with zeros. -/
def packSignature (key : UInt8) (msg : List UInt8) : Vector UInt8 64 :=
  Vector.ofFn fun i => (key :: UInt8.ofNat msg.length :: msg).getD i.val 0

/-- A scheme whose signatures are the key and the message: nobody can forge one. -/
def transparentScheme : SignatureScheme UInt8 UInt8 (UInt8 × List UInt8) where
  publicKey := id
  sign sk msg := (sk, msg)
  verify pk msg sig := decide (sig = (pk, msg))
  toBytes sig := packSignature sig.1 sig.2
  tryFrom bytes :=
    match bytes with
    | key :: len :: rest => if bytes.length = 64 then some (key, rest.take len.toNat) else none
    | _ => none

theorem transparentScheme_ideal : transparentScheme.Ideal where
  correct := fun sk msg => by simp [transparentScheme]
  unique := by
    intro pk msg sig sig' h h'
    simp only [transparentScheme, decide_eq_true_eq] at h h'
    rw [h, h']
  exclusive := by
    intro pk pk' m m' sig h h'
    simp only [transparentScheme, decide_eq_true_eq] at h h'
    exact Prod.mk.inj (h.symm.trans h')

/-- A scheme whose signatures are 64 bytes made from the key and the message. -/
def packedScheme : SignatureScheme UInt8 UInt8 (Vector UInt8 64) where
  publicKey := id
  sign := packSignature
  verify pk msg sig := decide (sig = packSignature pk msg)
  toBytes := id
  tryFrom bytes := if h : bytes.length = 64 then some ⟨bytes.toArray, by simpa using h⟩ else none

theorem packedScheme_correct : packedScheme.Correct := by
  intro sk msg
  simp [packedScheme]

theorem packedScheme_bytesRoundTrip : packedScheme.BytesRoundTrip := by
  intro sig
  have hlen : sig.toList.length = 64 := sig.length_toList
  simp only [packedScheme, id]
  rw [dif_pos hlen]
  rfl

/-! ## A text form -/

/-- Inverse of `serializeNetwork`. -/
def decodeNetwork : List UInt8 → Option IpNet
  | [] => none
  | p :: octets =>
      if octets.length = 4 then
        if h : p.toNat ≤ 32 then some (.v4 ⟨BitVec.ofNat 32 (ofBeBytes octets), p.toNat, h⟩)
        else none
      else if octets.length = 16 then
        if h : p.toNat ≤ 128 then some (.v6 ⟨BitVec.ofNat 128 (ofBeBytes octets), p.toNat, h⟩)
        else none
      else none

theorem decodeNetwork_serializeNetwork (net : IpNet) :
    decodeNetwork (serializeNetwork net) = some net := by
  cases net with
  | v4 n =>
      have hp := n.prefixLen_le
      have hbyte : (UInt8.ofNat n.prefixLen).toNat = n.prefixLen := by simp; omega
      have haddr : BitVec.ofNat 32 (ofBeBytes (octetsV4 n.addr)) = n.addr := by
        rw [octetsV4, ofBeBytes_beBytes_of_lt n.addr.isLt, BitVec.ofNat_toNat, BitVec.setWidth_eq]
      have hlen : (octetsV4 n.addr).length = 4 := beBytes_length _ _
      simp only [serializeNetwork, decodeNetwork, IpNet.prefixLen, hlen, if_true, hbyte, hp,
        dite_true, haddr]
  | v6 n =>
      have hp := n.prefixLen_le
      have hbyte : (UInt8.ofNat n.prefixLen).toNat = n.prefixLen := by simp; omega
      have haddr : BitVec.ofNat 128 (ofBeBytes (octetsV6 n.addr)) = n.addr := by
        rw [octetsV6, ofBeBytes_beBytes_of_lt n.addr.isLt, BitVec.ofNat_toNat, BitVec.setWidth_eq]
      have hlen : (octetsV6 n.addr).length = 16 := beBytes_length _ _
      have hne : ¬ (16 = 4) := by decide
      simp only [serializeNetwork, decodeNetwork, IpNet.prefixLen, hlen, if_neg hne, if_true, hbyte,
        hp, dite_true, haddr]

/-- `text` for `shown`, the serialized bytes as characters otherwise. -/
def showNetWith (text : String) (shown net : IpNet) : String :=
  if net = shown then text
  else String.ofList ((serializeNetwork net).map fun b => Char.ofNat b.toNat)

/-- A parser that knows one text, and otherwise reads the bytes of a serialized network. -/
def parseNetWith (text : String) (shown : IpNet) (s : String) : Option IpNet :=
  if s = text then some shown else decodeNetwork (s.toList.map fun c => UInt8.ofNat c.toNat)

theorem byte_toChar_toByte (b : UInt8) : UInt8.ofNat (Char.ofNat b.toNat).toNat = b := by
  have hlt := b.toNat_lt
  have hvalid : b.toNat.isValidChar := Or.inl (by omega)
  have hchar : (Char.ofNat b.toNat).toNat = b.toNat := by
    rw [Char.ofNat, dif_pos hvalid]
    show (Char.ofNatAux b.toNat hvalid).toNat = b.toNat
    simp [Char.ofNatAux, Char.toNat]
  rw [hchar, UInt8.ofNat_toNat]

theorem parseNetWith_showNetWith (text : String) (shown : IpNet) (h : 17 < text.length)
    (net : IpNet) : parseNetWith text shown (showNetWith text shown net) = some net := by
  unfold showNetWith
  split_ifs with hn
  · rw [parseNetWith, if_pos rfl, hn]
  · have hlen : (serializeNetwork net).length ≤ 17 := by
      cases net <;> simp [serializeNetwork, octetsV4, octetsV6]
    have hne : String.ofList ((serializeNetwork net).map fun b => Char.ofNat b.toNat) ≠ text := by
      rintro rfl
      simp at h
      omega
    rw [parseNetWith, if_neg hne, String.toList_ofList, List.map_map]
    have hid : ((fun c : Char => UInt8.ofNat c.toNat) ∘ fun b : UInt8 => Char.ofNat b.toNat) = id :=
      funext byte_toChar_toByte
    rw [hid, List.map_id, decodeNetwork_serializeNetwork]

end P2pVpn
