import P2pVpn.Addr.Basic
import P2pVpn.Lib.Checksum
import P2pVpn.Lib.Record

set_option autoImplicit false

/-! # IP headers (`etherparse`)

The two IP headers with the fields the parser keeps, how they are read from a packet and how they are
serialized. The reserved flag bit of IPv4 is not kept: it is ignored on reading and written as zero.
What the parser checks behind the base header, extension and transport headers, is a parameter
(`PacketRules`). -/

namespace P2pVpn

/-- The ECN field of an IP header. -/
inductive IpEcn where
  | notEct
  | ect1
  | ect0
  | congestionExperienced
  deriving DecidableEq

/-- The two bits of the field. -/
def IpEcn.codepoint : IpEcn → Nat
  | .notEct => 0
  | .ect1 => 1
  | .ect0 => 2
  | .congestionExperienced => 3

/-- The codepoint in the two low bits. -/
def IpEcn.ofCodepoint (n : Nat) : IpEcn :=
  match n % 4 with
  | 0 => .notEct
  | 1 => .ect1
  | 2 => .ect0
  | _ => .congestionExperienced

theorem IpEcn.codepoint_lt (ecn : IpEcn) : ecn.codepoint < 4 := by
  cases ecn <;> decide

theorem IpEcn.ofCodepoint_add (n : Nat) (ecn : IpEcn) :
    IpEcn.ofCodepoint (n * 4 + ecn.codepoint) = ecn := by
  have hmod : (n * 4 + ecn.codepoint) % 4 = ecn.codepoint := by
    have := ecn.codepoint_lt
    omega
  unfold IpEcn.ofCodepoint
  rw [hmod]
  cases ecn <;> rfl

/-! ## IPv4 -/

/-- The options of an IPv4 header: whole words, at most ten. -/
structure Ipv4Options where
  bytes : List UInt8
  aligned : bytes.length % 4 = 0
  bounded : bytes.length ≤ 40
  deriving DecidableEq

/-- An IPv4 header (`etherparse::Ipv4Header`). -/
structure Ipv4Header where
  dscp : BitVec 6
  ecn : IpEcn
  totalLen : BitVec 16
  identification : BitVec 16
  dontFragment : Bool
  moreFragments : Bool
  fragmentOffset : BitVec 13
  timeToLive : BitVec 8
  protocol : BitVec 8
  headerChecksum : BitVec 16
  source : Ipv4Addr
  destination : Ipv4Addr
  options : Ipv4Options
  deriving DecidableEq

instance : Inhabited Ipv4Header where
  default :=
    { dscp := 0, ecn := .notEct, totalLen := 0, identification := 0, dontFragment := true,
      moreFragments := false, fragmentOffset := 0, timeToLive := 0, protocol := 255,
      headerChecksum := 0, source := 0, destination := 0, options := ⟨[], rfl, by decide⟩ }

namespace Ipv4Header

/-- Its length in bytes, options included. -/
def headerLen (h : Ipv4Header) : Nat := 20 + h.options.bytes.length

/-- The flags above the fragment offset. -/
def flagsWord (dontFragment moreFragments : Bool) (fragmentOffset : BitVec 13) : Nat :=
  dontFragment.toNat * 16384 + moreFragments.toNat * 8192 + fragmentOffset.toNat

/-- The fields in front of the checksum: version and header length, DSCP and ECN, total length,
    identification, flags and fragment offset, TTL, protocol. -/
def frontFields (h : Ipv4Header) : List (Nat × Nat) :=
  [(1, 4 * 16 + h.headerLen / 4),
    (1, h.dscp.toNat * 4 + h.ecn.codepoint),
    (2, h.totalLen.toNat),
    (2, h.identification.toNat),
    (2, flagsWord h.dontFragment h.moreFragments h.fragmentOffset),
    (1, h.timeToLive.toNat),
    (1, h.protocol.toNat)]

/-- The fields before the options, with their widths in bytes. -/
def fields (h : Ipv4Header) : List (Nat × Nat) :=
  h.frontFields ++ [(2, h.headerChecksum.toNat), (4, h.source.toNat), (4, h.destination.toNat)]

/-- The header as it is on the wire. -/
def toBytes (h : Ipv4Header) : List UInt8 := Record.encode h.fields ++ h.options.bytes

/-- `calc_header_checksum`: the stored checksum counts as zero. -/
def calcHeaderChecksum (h : Ipv4Header) : BitVec 16 :=
  BitVec.ofNat 16 (Checksum.checksum { h with headerChecksum := 0 }.toBytes)

/-- The options of a header of `ihl` words, from what follows the fixed part. -/
def optionsOf (ihl : Nat) (rest : List UInt8) (hihl : ihl < 16) : Ipv4Options :=
  if h : 4 * ihl - 20 ≤ rest.length then
    ⟨rest.take (4 * ihl - 20), by rw [List.length_take]; omega, by rw [List.length_take]; omega⟩
  else ⟨[], rfl, by decide⟩

/-- A header whose version is 4, and the payload its total length allows. -/
def fromSlice (slice : List UInt8) : Option (Ipv4Header × List UInt8) :=
  match Record.decode [1, 1, 2, 2, 2, 1, 1, 2, 4, 4] slice with
  | some ([first, tos, totalLen, ident, frag, ttl, protocol, checksum, src, dst], rest) =>
      let ihl := first % 16
      if ihl < 5 ∨ slice.length < 4 * ihl then none
      else if totalLen < 4 * ihl ∨ slice.length < totalLen then none
      else
        some
          ({ dscp := BitVec.ofNat 6 (tos / 4)
             ecn := IpEcn.ofCodepoint tos
             totalLen := BitVec.ofNat 16 totalLen
             identification := BitVec.ofNat 16 ident
             dontFragment := frag / 16384 % 2 == 1
             moreFragments := frag / 8192 % 2 == 1
             fragmentOffset := BitVec.ofNat 13 frag
             timeToLive := BitVec.ofNat 8 ttl
             protocol := BitVec.ofNat 8 protocol
             headerChecksum := BitVec.ofNat 16 checksum
             source := BitVec.ofNat 32 src
             destination := BitVec.ofNat 32 dst
             options := optionsOf ihl rest (Nat.mod_lt _ (by decide)) },
            (slice.take totalLen).drop (4 * ihl))
  | _ => none

end Ipv4Header

/-! ## IPv6 -/

/-- An IPv6 header (`etherparse::Ipv6Header`). -/
structure Ipv6Header where
  trafficClass : BitVec 8
  flowLabel : BitVec 20
  payloadLength : BitVec 16
  nextHeader : BitVec 8
  hopLimit : BitVec 8
  source : Ipv6Addr
  destination : Ipv6Addr
  deriving DecidableEq

instance : Inhabited Ipv6Header where
  default :=
    { trafficClass := 0, flowLabel := 0, payloadLength := 0, nextHeader := 255, hopLimit := 0,
      source := 0, destination := 0 }

namespace Ipv6Header

/-- Its length in bytes. -/
def HEADER_LEN : Nat := 40

/-- The low bits of the traffic class. -/
def ecn (h : Ipv6Header) : IpEcn := IpEcn.ofCodepoint h.trafficClass.toNat

/-- The header with another ECN field. -/
def setEcn (h : Ipv6Header) (ecn : IpEcn) : Ipv6Header :=
  { h with trafficClass := BitVec.ofNat 8 (h.trafficClass.toNat / 4 * 4 + ecn.codepoint) }

/-- All fields, with their widths in bytes. -/
def fields (h : Ipv6Header) : List (Nat × Nat) :=
  [(4, 6 * 268435456 + h.trafficClass.toNat * 1048576 + h.flowLabel.toNat),
    (2, h.payloadLength.toNat),
    (1, h.nextHeader.toNat),
    (1, h.hopLimit.toNat),
    (16, h.source.toNat),
    (16, h.destination.toNat)]

/-- The header as it is on the wire. -/
def toBytes (h : Ipv6Header) : List UInt8 := Record.encode h.fields

/-- A header whose version is 6, and the payload its payload length allows. A zero length, as in a
    jumbogram, means all that was read. -/
def fromSlice (slice : List UInt8) : Option (Ipv6Header × List UInt8) :=
  match Record.decode [4, 2, 1, 1, 16, 16] slice with
  | some ([first, payloadLen, nextHeader, hopLimit, src, dst], rest) =>
      if rest.length < payloadLen then none
      else
        some
          ({ trafficClass := BitVec.ofNat 8 (first / 1048576)
             flowLabel := BitVec.ofNat 20 first
             payloadLength := BitVec.ofNat 16 payloadLen
             nextHeader := BitVec.ofNat 8 nextHeader
             hopLimit := BitVec.ofNat 8 hopLimit
             source := BitVec.ofNat 128 src
             destination := BitVec.ofNat 128 dst },
            if payloadLen = 0 then rest else rest.take payloadLen)
  | _ => none

end Ipv6Header

/-! ## Either header -/

/-- A header of either version, without extensions. -/
inductive IpHeader where
  | v4 (h : Ipv4Header)
  | v6 (h : Ipv6Header)
  deriving DecidableEq

namespace IpHeader

/-- Where the packet comes from. -/
def source : IpHeader → IpAddr
  | .v4 h => .v4 h.source
  | .v6 h => .v6 h.source

/-- Where the packet goes. -/
def destination : IpHeader → IpAddr
  | .v4 h => .v4 h.destination
  | .v6 h => .v6 h.destination

/-- The length in bytes. -/
def headerLen : IpHeader → Nat
  | .v4 h => h.headerLen
  | .v6 _ => Ipv6Header.HEADER_LEN

/-- The header as it is on the wire. -/
def toBytes : IpHeader → List UInt8
  | .v4 h => h.toBytes
  | .v6 h => h.toBytes

/-- The base header a packet starts with, and its payload: what `SlicedPacket::from_ip` and
    `IpHeaders::from_slice` have in common. -/
def fromSlice (slice : List UInt8) : Option (IpHeader × List UInt8) :=
  match slice with
  | [] => none
  | first :: _ =>
      match first.toNat / 16 with
      | 4 => (Ipv4Header.fromSlice slice).map fun r => (.v4 r.1, r.2)
      | 6 => (Ipv6Header.fromSlice slice).map fun r => (.v6 r.1, r.2)
      | _ => none

end IpHeader

/-- What the two entry points of the parser check in the payload of a base header: extension headers,
    and for `SlicedPacket::from_ip` also the transport header. -/
structure PacketRules where
  slicedPacket : IpHeader → List UInt8 → Bool
  ipHeaders : IpHeader → List UInt8 → Bool

/-- `IpHeaders::from_slice`. -/
def PacketRules.ipHeadersFromSlice (rules : PacketRules) (slice : List UInt8) : Option IpHeader :=
  match IpHeader.fromSlice slice with
  | some (header, payload) => if rules.ipHeaders header payload then some header else none
  | none => none

/-- A parser that accepts whatever follows the base header. -/
def PacketRules.lenient : PacketRules := ⟨fun _ _ => true, fun _ _ => true⟩

/-! ## Lengths -/

@[simp] theorem Ipv4Header.length_toBytes (h : Ipv4Header) : h.toBytes.length = h.headerLen := by
  simp [toBytes, fields, frontFields, headerLen]
  omega

@[simp] theorem Ipv6Header.length_toBytes (h : Ipv6Header) : h.toBytes.length = HEADER_LEN := by
  simp [toBytes, fields, HEADER_LEN]

theorem IpHeader.length_toBytes (h : IpHeader) : h.toBytes.length = h.headerLen := by
  cases h with
  | v4 h => exact h.length_toBytes
  | v6 h => exact h.length_toBytes

theorem Ipv4Header.headerLen_le_of_fromSlice {slice payload : List UInt8} {h : Ipv4Header}
    (hparse : fromSlice slice = some (h, payload)) : h.headerLen ≤ slice.length := by
  unfold fromSlice at hparse
  split at hparse
  · rename_i first tos totalLen ident frag ttl protocol checksum src dst rest hdecode
    obtain ⟨hfixed, hrest⟩ := Record.decode_rest hdecode
    simp only [List.sum_cons, List.sum_nil] at hfixed hrest
    dsimp only at hparse
    split_ifs at hparse with hihl htotal
    simp only [Option.some.injEq, Prod.mk.injEq] at hparse
    obtain ⟨rfl, -⟩ := hparse
    have hoptions : 4 * (first % 16) - 20 ≤ rest.length := by
      rw [hrest, List.length_drop]
      omega
    simp only [headerLen, optionsOf, dif_pos hoptions, List.length_take]
    omega
  · simp at hparse

theorem Ipv6Header.headerLen_le_of_fromSlice {slice payload : List UInt8} {h : Ipv6Header}
    (hparse : fromSlice slice = some (h, payload)) : HEADER_LEN ≤ slice.length := by
  unfold fromSlice at hparse
  split at hparse
  · rename_i hdecode
    exact (Record.decode_rest hdecode).1
  · simp at hparse

theorem IpHeader.headerLen_le_of_fromSlice {slice payload : List UInt8} {h : IpHeader}
    (hparse : fromSlice slice = some (h, payload)) : h.headerLen ≤ slice.length := by
  unfold fromSlice at hparse
  split at hparse
  · simp at hparse
  · split at hparse
    · obtain ⟨⟨h4, payload4⟩, hparse4, heq⟩ := Option.map_eq_some_iff.1 hparse
      simp only [Prod.mk.injEq] at heq
      obtain ⟨rfl, -⟩ := heq
      exact Ipv4Header.headerLen_le_of_fromSlice hparse4
    · obtain ⟨⟨h6, payload6⟩, hparse6, heq⟩ := Option.map_eq_some_iff.1 hparse
      simp only [Prod.mk.injEq] at heq
      obtain ⟨rfl, -⟩ := heq
      exact Ipv6Header.headerLen_le_of_fromSlice hparse6
    · simp at hparse

/-! ## The header checksum -/

theorem Ipv4Header.valid_calcHeaderChecksum (h : Ipv4Header) :
    Checksum.Valid { h with headerChecksum := h.calcHeaderChecksum }.toBytes := by
  have hbytes : ∀ c : BitVec 16, { h with headerChecksum := c }.toBytes
      = Record.encode h.frontFields ++ beBytes 2 c.toNat
        ++ (Record.encode [(4, h.source.toNat), (4, h.destination.toNat)] ++ h.options.bytes) := by
    intro c
    simp [toBytes, fields, frontFields, headerLen]
  have hfront : (Record.encode h.frontFields).length % 2 = 0 := by simp [frontFields]
  have hchecksum : h.calcHeaderChecksum.toNat
      = Checksum.checksum { h with headerChecksum := 0 }.toBytes := by
    rw [calcHeaderChecksum, BitVec.toNat_ofNat]
    exact Nat.mod_eq_of_lt (Checksum.checksum_lt _)
  rw [hbytes, hchecksum, hbytes]
  exact Checksum.valid_of_checksum _ _ hfront

/-! ## Reading back what was serialized -/

theorem Ipv4Header.flagsWord_lt (df mf : Bool) (offset : BitVec 13) :
    flagsWord df mf offset < 256 ^ 2 := by
  have hoffset := offset.isLt
  have hdf := df.toNat_lt
  have hmf := mf.toNat_lt
  unfold flagsWord
  omega

theorem Ipv4Header.flagsWord_dontFragment (df mf : Bool) (offset : BitVec 13) :
    (flagsWord df mf offset / 16384 % 2 == 1) = df := by
  have hoffset := offset.isLt
  have hmf := mf.toNat_lt
  have hbit : flagsWord df mf offset / 16384 % 2 = df.toNat := by
    have hdf := df.toNat_lt
    unfold flagsWord
    omega
  rw [hbit]
  cases df <;> rfl

theorem Ipv4Header.flagsWord_moreFragments (df mf : Bool) (offset : BitVec 13) :
    (flagsWord df mf offset / 8192 % 2 == 1) = mf := by
  have hoffset := offset.isLt
  have hbit : flagsWord df mf offset / 8192 % 2 = mf.toNat := by
    have hmf := mf.toNat_lt
    unfold flagsWord
    omega
  rw [hbit]
  cases mf <;> rfl

theorem Ipv4Header.flagsWord_fragmentOffset (df mf : Bool) (offset : BitVec 13) :
    BitVec.ofNat 13 (flagsWord df mf offset) = offset := by
  have hoffset := offset.isLt
  apply BitVec.eq_of_toNat_eq
  rw [BitVec.toNat_ofNat]
  unfold flagsWord
  omega

theorem Ipv4Header.fields_fit (h : Ipv4Header) : ∀ f ∈ h.fields, f.2 < 256 ^ f.1 := by
  have hlen : h.headerLen / 4 < 16 := by
    have := h.options.bounded
    unfold headerLen
    omega
  have hdscp := h.dscp.isLt
  have hecn := h.ecn.codepoint_lt
  intro f hf
  simp only [fields, frontFields, List.mem_append, List.mem_cons, List.not_mem_nil, or_false] at hf
  rcases hf with (rfl | rfl | rfl | rfl | rfl | rfl | rfl) | rfl | rfl | rfl <;>
    first
    | exact BitVec.isLt _
    | exact flagsWord_lt _ _ _
    | (simp only; omega)

/-- The total length covers the header and does not reach behind the packet. -/
def Ipv4Header.Fits (h : Ipv4Header) (rest : List UInt8) : Prop :=
  h.headerLen ≤ h.totalLen.toNat ∧ h.totalLen.toNat ≤ h.headerLen + rest.length

/-- The payload, of what follows the header. -/
def Ipv4Header.payloadOf (h : Ipv4Header) (rest : List UInt8) : List UInt8 :=
  rest.take (h.totalLen.toNat - h.headerLen)

/-- The parser reads a serialized header back, whatever follows the packet. -/
theorem Ipv4Header.fromSlice_toBytes (h : Ipv4Header) (rest : List UInt8) (hfits : h.Fits rest) :
    fromSlice (h.toBytes ++ rest) = some (h, h.payloadOf rest) := by
  obtain ⟨hmin, hmax⟩ := hfits
  have haligned := h.options.aligned
  have hbounded := h.options.bounded
  have hheader : h.headerLen = 20 + h.options.bytes.length := rfl
  have hslice : (h.toBytes ++ rest).length = h.headerLen + rest.length := by simp
  have hdecode : Record.decode [1, 1, 2, 2, 2, 1, 1, 2, 4, 4] (h.toBytes ++ rest)
      = some (h.fields.map Prod.snd, h.options.bytes ++ rest) := by
    rw [toBytes, List.append_assoc]
    exact Record.decode_encode h.fields h.fields_fit (h.options.bytes ++ rest)
  have hihl : (4 * 16 + h.headerLen / 4) % 16 = h.headerLen / 4 := by omega
  have hwords : 4 * (h.headerLen / 4) = h.headerLen := by omega
  have hpayload : ((h.toBytes ++ rest).take h.totalLen.toNat).drop h.headerLen
      = h.payloadOf rest := by
    rw [List.drop_take, List.drop_left' h.length_toBytes]
    rfl
  have hoptions : optionsOf (h.headerLen / 4) (h.options.bytes ++ rest) (by omega)
      = h.options := by
    have hoptionsLen : 4 * (h.headerLen / 4) - 20 = h.options.bytes.length := by omega
    simp [optionsOf, hoptionsLen]
  have hdscp : (h.dscp.toNat * 4 + h.ecn.codepoint) / 4 = h.dscp.toNat := by
    have hecn := h.ecn.codepoint_lt
    omega
  simp only [fromSlice, hdecode, fields, frontFields, List.map_cons, List.map_nil, List.cons_append,
    List.nil_append, hihl, hwords, hslice]
  rw [if_neg (by omega), if_neg (by omega), hpayload]
  simp only [hdscp, IpEcn.ofCodepoint_add, flagsWord_dontFragment, flagsWord_moreFragments,
    flagsWord_fragmentOffset, hoptions, BitVec.ofNat_toNat, BitVec.setWidth_eq]

theorem Ipv6Header.fields_fit (h : Ipv6Header) : ∀ f ∈ h.fields, f.2 < 256 ^ f.1 := by
  have htraffic := h.trafficClass.isLt
  have hflow := h.flowLabel.isLt
  intro f hf
  simp only [fields, List.mem_cons, List.not_mem_nil, or_false] at hf
  rcases hf with rfl | rfl | rfl | rfl | rfl | rfl <;>
    first
    | exact BitVec.isLt _
    | (simp only; omega)

/-- The bytes behind the header are as many as it announces. -/
def Ipv6Header.Fits (h : Ipv6Header) (rest : List UInt8) : Prop :=
  h.payloadLength.toNat ≤ rest.length

/-- The payload; a length of zero stands for all that is left. -/
def Ipv6Header.payloadOf (h : Ipv6Header) (rest : List UInt8) : List UInt8 :=
  if h.payloadLength.toNat = 0 then rest else rest.take h.payloadLength.toNat

theorem Ipv6Header.fromSlice_toBytes (h : Ipv6Header) (rest : List UInt8) (hfits : h.Fits rest) :
    fromSlice (h.toBytes ++ rest) = some (h, h.payloadOf rest) := by
  have hdecode : Record.decode [4, 2, 1, 1, 16, 16] (h.toBytes ++ rest)
      = some (h.fields.map Prod.snd, rest) :=
    Record.decode_encode h.fields h.fields_fit rest
  have htraffic := h.trafficClass.isLt
  have hflow := h.flowLabel.isLt
  have hclass : BitVec.ofNat 8
      ((6 * 268435456 + h.trafficClass.toNat * 1048576 + h.flowLabel.toNat) / 1048576)
      = h.trafficClass := by
    apply BitVec.eq_of_toNat_eq
    rw [BitVec.toNat_ofNat]
    omega
  have hlabel : BitVec.ofNat 20
      (6 * 268435456 + h.trafficClass.toNat * 1048576 + h.flowLabel.toNat) = h.flowLabel := by
    apply BitVec.eq_of_toNat_eq
    rw [BitVec.toNat_ofNat]
    omega
  simp only [fromSlice, hdecode, fields, List.map_cons, List.map_nil, if_neg (Nat.not_lt.2 hfits),
    hclass, hlabel, BitVec.ofNat_toNat, BitVec.setWidth_eq]
  rfl

theorem Ipv4Header.toBytes_version (h : Ipv4Header) :
    ∃ first tail, h.toBytes = first :: tail ∧ first.toNat / 16 = 4 := by
  refine ⟨UInt8.ofNat (4 * 16 + h.headerLen / 4), _, rfl, ?_⟩
  have hbounded := h.options.bounded
  have hlen : h.headerLen = 20 + h.options.bytes.length := rfl
  rw [UInt8.toNat_ofNat']
  omega

theorem Ipv6Header.toBytes_version (h : Ipv6Header) :
    ∃ first tail, h.toBytes = first :: tail ∧ first.toNat / 16 = 6 := by
  refine ⟨UInt8.ofNat ((6 * 268435456 + h.trafficClass.toNat * 1048576 + h.flowLabel.toNat)
    / 256 / 256 / 256), _, rfl, ?_⟩
  have htraffic := h.trafficClass.isLt
  have hflow := h.flowLabel.isLt
  rw [UInt8.toNat_ofNat']
  omega

/-- The bytes behind the header are as many as it announces. -/
def IpHeader.Fits : IpHeader → List UInt8 → Prop
  | .v4 h => h.Fits
  | .v6 h => h.Fits

/-- The payload that the header announces. -/
def IpHeader.payloadOf : IpHeader → List UInt8 → List UInt8
  | .v4 h => h.payloadOf
  | .v6 h => h.payloadOf

theorem IpHeader.fromSlice_append (h : IpHeader) (rest : List UInt8) (hfits : h.Fits rest) :
    fromSlice (h.toBytes ++ rest) = some (h, h.payloadOf rest) := by
  cases h with
  | v4 h =>
      have hparse := h.fromSlice_toBytes rest hfits
      obtain ⟨first, tail, hbytes, hversion⟩ := h.toBytes_version
      rw [hbytes] at hparse
      simp only [toBytes, hbytes, List.cons_append, fromSlice, hversion]
      rw [← List.cons_append, hparse]
      rfl
  | v6 h =>
      have hparse := h.fromSlice_toBytes rest hfits
      obtain ⟨first, tail, hbytes, hversion⟩ := h.toBytes_version
      rw [hbytes] at hparse
      simp only [toBytes, hbytes, List.cons_append, fromSlice, hversion]
      rw [← List.cons_append, hparse]
      rfl

/-- The length field says how long the packet is. -/
def IpHeader.MatchesPayload : IpHeader → List UInt8 → Prop
  | .v4 h, payload => h.totalLen.toNat = h.headerLen + payload.length
  | .v6 h, payload => h.payloadLength.toNat = payload.length

theorem IpHeader.fromSlice_toBytes (h : IpHeader) (payload : List UInt8)
    (hlen : h.MatchesPayload payload) :
    fromSlice (h.toBytes ++ payload) = some (h, payload) := by
  cases h with
  | v4 h =>
      have hlen : h.totalLen.toNat = h.headerLen + payload.length := hlen
      have hpayload : h.payloadOf payload = payload := List.take_of_length_le (by omega)
      rw [fromSlice_append (.v4 h) payload ⟨by omega, by omega⟩, payloadOf, hpayload]
  | v6 h =>
      have hlen : h.payloadLength.toNat = payload.length := hlen
      have hpayload : h.payloadOf payload = payload := by
        rw [Ipv6Header.payloadOf, hlen, List.take_length, ite_self]
      rw [fromSlice_append (.v6 h) payload hlen.le, payloadOf, hpayload]

/-! ## Serializing what was read

The bytes a header was read from are those it is serialized to, up to the reserved flag. -/

namespace Ipv4Header

/-- The fields as they stand on the wire, the reserved flag in front of the others. -/
def wireFields (h : Ipv4Header) (reserved : Bool) : List (Nat × Nat) :=
  [(1, 4 * 16 + h.headerLen / 4),
    (1, h.dscp.toNat * 4 + h.ecn.codepoint),
    (2, h.totalLen.toNat),
    (2, h.identification.toNat),
    (2, reserved.toNat * 32768 + flagsWord h.dontFragment h.moreFragments h.fragmentOffset),
    (1, h.timeToLive.toNat),
    (1, h.protocol.toNat),
    (2, h.headerChecksum.toNat),
    (4, h.source.toNat),
    (4, h.destination.toNat)]

theorem wireFields_false (h : Ipv4Header) : h.wireFields false = h.fields := by
  simp [wireFields, fields, frontFields]

end Ipv4Header

theorem IpEcn.codepoint_ofCodepoint (n : Nat) : (IpEcn.ofCodepoint n).codepoint = n % 4 := by
  have hlt : n % 4 < 4 := Nat.mod_lt _ (by decide)
  unfold IpEcn.ofCodepoint
  split <;> simp_all [codepoint]
  omega

theorem toNat_beq_one (n : Nat) : (n % 2 == 1).toNat = n % 2 := by
  rcases Nat.mod_two_eq_zero_or_one n with h | h <;> simp [h]

theorem Ipv4Header.flagsWord_of_word (frag : Nat) :
    flagsWord (frag / 16384 % 2 == 1) (frag / 8192 % 2 == 1) (BitVec.ofNat 13 frag)
      = frag % 32768 := by
  rw [flagsWord, toNat_beq_one, toNat_beq_one, BitVec.toNat_ofNat]
  omega

/-- A packet of version 4 that is accepted starts with the fields of its header. -/
theorem Ipv4Header.fromSlice_inv {slice payload : List UInt8} {h : Ipv4Header}
    (hparse : fromSlice slice = some (h, payload)) (hversion : (slice.getD 0 0).toNat / 16 = 4) :
    ∃ reserved : Bool,
      slice = Record.encode (h.wireFields reserved)
        ++ (h.options.bytes ++ slice.drop h.headerLen) ∧
      h.Fits (slice.drop h.headerLen) ∧ payload = h.payloadOf (slice.drop h.headerLen) := by
  unfold fromSlice at hparse
  split at hparse
  · rename_i first tos totalLen ident frag ttl protocol checksum src dst rest hdecode
    obtain ⟨hfixed, hrest⟩ := Record.decode_rest hdecode
    obtain ⟨hslice, hfit⟩ := Record.encode_decode hdecode
    simp only [List.sum_cons, List.sum_nil] at hfixed hrest
    dsimp only at hparse
    split_ifs at hparse with hihl htotal
    simp only [Option.some.injEq, Prod.mk.injEq] at hparse
    obtain ⟨hheader, rfl⟩ := hparse
    simp only [List.zip_cons_cons, List.zip_nil_right, List.forall_mem_cons] at hfit
    obtain ⟨hfirst, htos, htotalLen, hident, hfrag, httl, hprotocol, hchecksum, hsrc, hdst, -⟩ := hfit
    have hnibble : first / 16 = 4 := by
      rw [hslice] at hversion
      have hbyte : (UInt8.ofNat first).toNat / 16 = 4 := hversion
      rw [UInt8.toNat_ofNat'] at hbyte
      omega
    have henough : 4 * (first % 16) - 20 ≤ rest.length := by
      rw [hrest, List.length_drop]
      omega
    have hoptions : h.options.bytes = rest.take (4 * (first % 16) - 20) := by
      rw [← hheader]
      simp only [optionsOf, dif_pos henough]
    have hlen : h.headerLen = 4 * (first % 16) := by
      rw [headerLen, hoptions, List.length_take]
      omega
    have htotalEq : h.totalLen.toNat = totalLen := by
      rw [← hheader]
      exact Nat.mod_eq_of_lt htotalLen
    have hwire : h.wireFields (frag / 32768 % 2 == 1)
        = List.zip [1, 1, 2, 2, 2, 1, 1, 2, 4, 4]
          [first, tos, totalLen, ident, frag, ttl, protocol, checksum, src, dst] := by
      have hdscp : tos / 4 % 64 * 4 + tos % 4 = tos := by omega
      have hword : (frag / 32768 % 2 == 1).toNat * 32768 + frag % 32768 = frag := by
        rw [toNat_beq_one]
        omega
      have hversionWord : 4 * 16 + 4 * (first % 16) / 4 = first := by omega
      rw [wireFields, hlen, hversionWord, ← hheader]
      simp only [BitVec.toNat_ofNat, IpEcn.codepoint_ofCodepoint, flagsWord_of_word, hdscp, hword,
        List.zip_cons_cons, List.zip_nil_right]
      simp (disch := omega) only [Nat.mod_eq_of_lt]
    refine ⟨frag / 32768 % 2 == 1, ?_, ⟨?_, ?_⟩, ?_⟩
    · have hbehind : slice.drop h.headerLen = rest.drop (4 * (first % 16) - 20) := by
        rw [hlen, hrest, List.drop_drop]
        congr 1
        omega
      rw [hwire, hbehind, hoptions, List.take_append_drop]
      exact hslice
    · omega
    · rw [List.length_drop]
      omega
    · rw [payloadOf, htotalEq, hlen, List.drop_take]
  · simp at hparse

theorem Ipv6Header.fromSlice_inv {slice payload : List UInt8} {h : Ipv6Header}
    (hparse : fromSlice slice = some (h, payload)) (hversion : (slice.getD 0 0).toNat / 16 = 6) :
    slice = h.toBytes ++ slice.drop HEADER_LEN ∧
      h.Fits (slice.drop HEADER_LEN) ∧ payload = h.payloadOf (slice.drop HEADER_LEN) := by
  unfold fromSlice at hparse
  split at hparse
  · rename_i first payloadLen nextHeader hopLimit src dst rest hdecode
    obtain ⟨-, hrest⟩ := Record.decode_rest hdecode
    obtain ⟨hslice, hfit⟩ := Record.encode_decode hdecode
    have hrest : rest = slice.drop HEADER_LEN := hrest
    have hshort : ¬ rest.length < payloadLen := by
      intro hlt
      simp [hlt] at hparse
    rw [if_neg hshort] at hparse
    simp only [Option.some.injEq, Prod.mk.injEq] at hparse
    obtain ⟨hheader, rfl⟩ := hparse
    simp only [List.zip_cons_cons, List.zip_nil_right, List.forall_mem_cons] at hfit
    obtain ⟨hfirst, hpayloadLen, hnext, hhop, hsrc, hdst, -⟩ := hfit
    have hnibble : first / 268435456 = 6 := by
      rw [hslice] at hversion
      have hbyte : (UInt8.ofNat (first / 256 / 256 / 256)).toNat / 16 = 6 := hversion
      rw [UInt8.toNat_ofNat'] at hbyte
      omega
    have hlen : h.payloadLength.toNat = payloadLen := by
      rw [← hheader]
      exact Nat.mod_eq_of_lt hpayloadLen
    have hfields : h.fields
        = List.zip [4, 2, 1, 1, 16, 16] [first, payloadLen, nextHeader, hopLimit, src, dst] := by
      have hword : 6 * 268435456 + first / 1048576 % 2 ^ 8 * 1048576 + first % 2 ^ 20 = first := by
        omega
      rw [fields, hlen, ← hheader]
      simp only [BitVec.toNat_ofNat, hword, List.zip_cons_cons, List.zip_nil_right]
      simp (disch := omega) only [Nat.mod_eq_of_lt]
    rw [← hrest]
    refine ⟨?_, ?_, ?_⟩
    · rw [toBytes, hfields]
      exact hslice
    · rw [Fits, hlen]
      omega
    · rw [payloadOf, hlen]
  · simp at hparse

theorem IpHeader.fromSlice_v4 {slice payload : List UInt8} {h : Ipv4Header}
    (hparse : fromSlice slice = some (.v4 h, payload)) :
    (slice.getD 0 0).toNat / 16 = 4 ∧ Ipv4Header.fromSlice slice = some (h, payload) := by
  unfold fromSlice at hparse
  split at hparse
  · simp at hparse
  · split at hparse
    · rename_i first tail _ hversion
      obtain ⟨r, hparse4, heq⟩ := Option.map_eq_some_iff.1 hparse
      simp only [Prod.mk.injEq, IpHeader.v4.injEq] at heq
      obtain ⟨rfl, rfl⟩ := heq
      exact ⟨hversion, hparse4⟩
    · simp at hparse
    · simp at hparse

theorem IpHeader.fromSlice_v6 {slice payload : List UInt8} {h : Ipv6Header}
    (hparse : fromSlice slice = some (.v6 h, payload)) :
    (slice.getD 0 0).toNat / 16 = 6 ∧ Ipv6Header.fromSlice slice = some (h, payload) := by
  unfold fromSlice at hparse
  split at hparse
  · simp at hparse
  · split at hparse
    · simp at hparse
    · rename_i first tail _ hversion
      obtain ⟨r, hparse6, heq⟩ := Option.map_eq_some_iff.1 hparse
      simp only [Prod.mk.injEq, IpHeader.v6.injEq] at heq
      obtain ⟨rfl, rfl⟩ := heq
      exact ⟨hversion, hparse6⟩
    · simp at hparse

end P2pVpn
