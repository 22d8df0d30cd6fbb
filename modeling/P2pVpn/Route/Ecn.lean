import P2pVpn.Tun.Header

set_option autoImplicit false

/-! # Congestion signalling (`src/route/ecn.rs`)

A packet that meets congestion is marked if its endpoints understand ECN, and dropped if not. The
source parses the header, changes it and copies it back over the front of the buffer; both the slice
and the copy panic when the lengths do not match, which `copyHeader` shows as `none`. -/

namespace P2pVpn

/-- What becomes of a packet. -/
inductive PacketAction where
  | forward
  | drop
  deriving DecidableEq

/-- `buffer[..len].copy_from_slice(bytes)`. -/
def copyHeader (buffer : List UInt8) (len : Nat) (bytes : List UInt8) : Option (List UInt8) :=
  if len ≤ buffer.length ∧ bytes.length = len then some (bytes ++ buffer.drop len) else none

/-- The header with the mark, and the checksum that belongs to it. -/
def Ipv4Header.marked (h : Ipv4Header) : Ipv4Header :=
  let h := { h with ecn := .congestionExperienced }
  { h with headerChecksum := h.calcHeaderChecksum }

/-- The buffer afterwards and what to do with the packet; `none` is a panic. -/
def processPacketCongestion (rules : PacketRules) (packetBuffer : List UInt8) :
    Option (List UInt8 × PacketAction) :=
  match rules.ipHeadersFromSlice packetBuffer with
  | none => some (packetBuffer, .drop)
  | some (.v4 h) =>
      match h.ecn with
      | .ect0 | .ect1 =>
          (copyHeader packetBuffer h.marked.headerLen h.marked.toBytes).map fun b => (b, .forward)
      | .congestionExperienced => some (packetBuffer, .forward)
      | .notEct => some (packetBuffer, .drop)
  | some (.v6 h) =>
      match h.ecn with
      | .ect0 | .ect1 =>
          (copyHeader packetBuffer 40 (h.setEcn .congestionExperienced).toBytes).map fun b =>
            (b, .forward)
      | .congestionExperienced => some (packetBuffer, .forward)
      | .notEct => some (packetBuffer, .drop)

/-! ## Both families at once -/

/-- The ECN field of the header. -/
def IpHeader.ecn : IpHeader → IpEcn
  | .v4 h => h.ecn
  | .v6 h => h.ecn

/-- The header with the congestion mark. -/
def IpHeader.marked : IpHeader → IpHeader
  | .v4 h => .v4 h.marked
  | .v6 h => .v6 (h.setEcn .congestionExperienced)

theorem IpHeader.headerLen_marked (h : IpHeader) : h.marked.headerLen = h.headerLen := by
  cases h <;> rfl

theorem PacketRules.fromSlice_of_ipHeadersFromSlice {rules : PacketRules} {slice : List UInt8}
    {h : IpHeader} (hparse : rules.ipHeadersFromSlice slice = some h) :
    ∃ payload, IpHeader.fromSlice slice = some (h, payload) ∧ rules.ipHeaders h payload = true := by
  unfold ipHeadersFromSlice at hparse
  split at hparse
  · rename_i header payload hslice
    split_ifs at hparse with haccept
    obtain rfl := Option.some.inj hparse
    exact ⟨payload, hslice, haccept⟩
  · simp at hparse

theorem PacketRules.headerLen_le_of_ipHeadersFromSlice {rules : PacketRules} {slice : List UInt8}
    {h : IpHeader} (hparse : rules.ipHeadersFromSlice slice = some h) :
    h.headerLen ≤ slice.length := by
  obtain ⟨payload, hslice, -⟩ := fromSlice_of_ipHeadersFromSlice hparse
  exact IpHeader.headerLen_le_of_fromSlice hslice

/-- What happens to a packet that parses depends on its ECN codepoint alone. -/
theorem processPacketCongestion_of_parse {rules : PacketRules} {packetBuffer : List UInt8}
    {h : IpHeader} (hparse : rules.ipHeadersFromSlice packetBuffer = some h) :
    processPacketCongestion rules packetBuffer =
      match h.ecn with
      | .ect0 | .ect1 => some (h.marked.toBytes ++ packetBuffer.drop h.headerLen, .forward)
      | .congestionExperienced => some (packetBuffer, .forward)
      | .notEct => some (packetBuffer, .drop) := by
  have hlen := PacketRules.headerLen_le_of_ipHeadersFromSlice hparse
  have hcopy : copyHeader packetBuffer h.headerLen h.marked.toBytes
      = some (h.marked.toBytes ++ packetBuffer.drop h.headerLen) :=
    if_pos ⟨hlen, by rw [IpHeader.length_toBytes, IpHeader.headerLen_marked]⟩
  have hshape : processPacketCongestion rules packetBuffer =
      match h.ecn with
      | .ect0 | .ect1 =>
          (copyHeader packetBuffer h.headerLen h.marked.toBytes).map fun b => (b, .forward)
      | .congestionExperienced => some (packetBuffer, .forward)
      | .notEct => some (packetBuffer, .drop) := by
    unfold processPacketCongestion
    rw [hparse]
    cases h with
    | v4 h => rfl
    | v6 h => rfl
  rw [hshape, hcopy]
  rfl

/-- Marking a packet neither panics nor changes its length. -/
theorem processPacketCongestion_length (rules : PacketRules) (packetBuffer : List UInt8) :
    ∃ buffer' action, processPacketCongestion rules packetBuffer = some (buffer', action) ∧
      buffer'.length = packetBuffer.length := by
  cases hparse : rules.ipHeadersFromSlice packetBuffer with
  | none =>
      have hdrop : processPacketCongestion rules packetBuffer = some (packetBuffer, .drop) := by
        unfold processPacketCongestion
        rw [hparse]
      exact ⟨_, _, hdrop, rfl⟩
  | some h =>
      have hlen := PacketRules.headerLen_le_of_ipHeadersFromSlice hparse
      have hmarked : (h.marked.toBytes ++ packetBuffer.drop h.headerLen).length
          = packetBuffer.length := by
        rw [List.length_append, List.length_drop, IpHeader.length_toBytes, IpHeader.headerLen_marked]
        omega
      rw [processPacketCongestion_of_parse hparse]
      cases h.ecn with
      | ect0 => exact ⟨_, _, rfl, hmarked⟩
      | ect1 => exact ⟨_, _, rfl, hmarked⟩
      | congestionExperienced => exact ⟨_, _, rfl, rfl⟩
      | notEct => exact ⟨_, _, rfl, rfl⟩

/-! ## What marking may change

Said of the bytes of the packet alone: the ECN field is the low two bits of the second byte in IPv4
and of the traffic class, which lies across the first two bytes, in IPv6. -/

/-- The version in the first byte. -/
def ipVersion (packet : List UInt8) : Nat := (packet.getD 0 0).toNat / 16

/-- The two ECN bits, where the version puts them. -/
def ecnField (packet : List UInt8) : Nat :=
  if ipVersion packet = 4 then (packet.getD 1 0).toNat % 4 else (packet.getD 1 0).toNat / 16 % 4

/-- The same packet, up to the ECN field and, in IPv4, the header checksum. -/
def AgreeBesidesEcn (packet packet' : List UInt8) : Prop :=
  if ipVersion packet = 4 then
    (∀ i, i ≠ 1 → i ≠ 10 → i ≠ 11 → packet'[i]? = packet[i]?) ∧
      (packet'.getD 1 0).toNat / 4 = (packet.getD 1 0).toNat / 4
  else
    (∀ i, i ≠ 1 → packet'[i]? = packet[i]?) ∧
      (packet'.getD 1 0).toNat / 64 = (packet.getD 1 0).toNat / 64 ∧
      (packet'.getD 1 0).toNat % 16 = (packet.getD 1 0).toNat % 16

/-- The header of an IPv4 packet, as long as it says. -/
def ipv4HeaderBytes (packet : List UInt8) : List UInt8 :=
  packet.take (4 * ((packet.getD 0 0).toNat % 16))

/-- The packet is marked, and that is all that has happened to it. -/
structure MarkedFrom (rules : PacketRules) (packet packet' : List UInt8) : Prop where
  experienced : ecnField packet' = IpEcn.codepoint .congestionExperienced
  agree : AgreeBesidesEcn packet packet'
  checksum : ipVersion packet = 4 → Checksum.Valid (ipv4HeaderBytes packet) →
    Checksum.Valid (ipv4HeaderBytes packet')
  again : processPacketCongestion rules packet' = some (packet', .forward)

/-- No panic, the same length, and a packet that is either untouched or only marked. -/
def MarksEcnOnly (rules : PacketRules) (packet : List UInt8) : Prop :=
  ∃ packet' action, processPacketCongestion rules packet = some (packet', action) ∧
    packet'.length = packet.length ∧ (action = .drop → packet' = packet) ∧
    (action = .forward → MarkedFrom rules packet packet')

/-- The flag in front of "don't fragment", which has no meaning in IPv4. -/
def reservedFlag (packet : List UInt8) : Bool := 128 ≤ (packet.getD 6 0).toNat

/-- Behind the base header the parser goes by its protocol number. -/
structure PacketRules.ReadsProtocol (rules : PacketRules) : Prop where
  v4 : ∀ (h h' : Ipv4Header) (payload : List UInt8), h.protocol = h'.protocol →
    rules.ipHeaders (.v4 h) payload = rules.ipHeaders (.v4 h') payload
  v6 : ∀ (h h' : Ipv6Header) (payload : List UInt8), h.nextHeader = h'.nextHeader →
    rules.ipHeaders (.v6 h) payload = rules.ipHeaders (.v6 h') payload

/-! ## Marking again -/

theorem Ipv6Header.trafficClass_setEcn (h : Ipv6Header) :
    (h.setEcn .congestionExperienced).trafficClass.toNat = h.trafficClass.toNat / 4 * 4 + 3 := by
  have htraffic := h.trafficClass.isLt
  show (BitVec.ofNat 8 (h.trafficClass.toNat / 4 * 4 + 3)).toNat = _
  rw [BitVec.toNat_ofNat]
  omega

theorem IpHeader.ecn_marked (h : IpHeader) : h.marked.ecn = .congestionExperienced := by
  cases h with
  | v4 h => rfl
  | v6 h =>
      show IpEcn.ofCodepoint (h.setEcn .congestionExperienced).trafficClass.toNat = _
      rw [h.trafficClass_setEcn]
      exact IpEcn.ofCodepoint_add _ .congestionExperienced

theorem PacketRules.ReadsProtocol.ipHeaders_marked {rules : PacketRules}
    (hrules : rules.ReadsProtocol) (h : IpHeader) (payload : List UInt8) :
    rules.ipHeaders h.marked payload = rules.ipHeaders h payload := by
  cases h with
  | v4 h => exact hrules.v4 _ _ payload rfl
  | v6 h => exact hrules.v6 _ _ payload rfl

theorem IpHeader.payloadOf_marked (h : IpHeader) (rest : List UInt8) :
    h.marked.payloadOf rest = h.payloadOf rest := by
  cases h <;> rfl

theorem IpHeader.fits_marked (h : IpHeader) (rest : List UInt8) :
    h.marked.Fits rest ↔ h.Fits rest := by
  cases h <;> rfl

/-- A header that was read fits the rest of its packet. -/
theorem IpHeader.fits_of_fromSlice {slice payload : List UInt8} {h : IpHeader}
    (hparse : fromSlice slice = some (h, payload)) :
    h.Fits (slice.drop h.headerLen) ∧ payload = h.payloadOf (slice.drop h.headerLen) := by
  cases h with
  | v4 h =>
      obtain ⟨hversion, hparse4⟩ := fromSlice_v4 hparse
      obtain ⟨-, -, hfits, hpayload⟩ := Ipv4Header.fromSlice_inv hparse4 hversion
      exact ⟨hfits, hpayload⟩
  | v6 h =>
      obtain ⟨hversion, hparse6⟩ := fromSlice_v6 hparse
      exact (Ipv6Header.fromSlice_inv hparse6 hversion).2

/-- A marked packet is read as the marked header, so that it is forwarded as it is. -/
theorem processPacketCongestion_marked {rules : PacketRules} (hrules : rules.ReadsProtocol)
    {packet : List UInt8} {h : IpHeader} (hparse : rules.ipHeadersFromSlice packet = some h) :
    processPacketCongestion rules (h.marked.toBytes ++ packet.drop h.headerLen)
      = some (h.marked.toBytes ++ packet.drop h.headerLen, .forward) := by
  obtain ⟨payload, hslice, haccept⟩ := PacketRules.fromSlice_of_ipHeadersFromSlice hparse
  obtain ⟨hfits, hpayload⟩ := IpHeader.fits_of_fromSlice hslice
  have hagain : rules.ipHeadersFromSlice (h.marked.toBytes ++ packet.drop h.headerLen)
      = some h.marked := by
    unfold PacketRules.ipHeadersFromSlice
    rw [IpHeader.fromSlice_append _ _ ((h.fits_marked _).2 hfits), h.payloadOf_marked, ← hpayload]
    simp only [hrules.ipHeaders_marked, haccept, if_true]
  rw [processPacketCongestion_of_parse hagain, h.ecn_marked]

/-! ## The marked bytes -/

/-- The fields between the ECN field and the checksum. -/
def Ipv4Header.middleBytes (h : Ipv4Header) (reserved : Bool) : List UInt8 :=
  Record.encode
    [(2, h.totalLen.toNat), (2, h.identification.toNat),
      (2, reserved.toNat * 32768 + flagsWord h.dontFragment h.moreFragments h.fragmentOffset),
      (1, h.timeToLive.toNat), (1, h.protocol.toNat)]

/-- Behind the checksum: the addresses, and what follows the fixed part. -/
def Ipv4Header.tailBytes (h : Ipv4Header) (rest : List UInt8) : List UInt8 :=
  Record.encode [(4, h.source.toNat), (4, h.destination.toNat)] ++ (h.options.bytes ++ rest)

/-- A packet with the bytes that marking changes set apart. -/
def ipv4Shape (first tos : UInt8) (middle : List UInt8) (sum : Nat) (tail : List UInt8) :
    List UInt8 :=
  first :: tos :: (middle ++ (beBytes 2 sum ++ tail))

theorem Ipv4Header.encode_wireFields (h : Ipv4Header) (reserved : Bool) (rest : List UInt8) :
    Record.encode (h.wireFields reserved) ++ (h.options.bytes ++ rest)
      = ipv4Shape (UInt8.ofNat (4 * 16 + h.headerLen / 4))
          (UInt8.ofNat (h.dscp.toNat * 4 + h.ecn.codepoint)) (h.middleBytes reserved)
          h.headerChecksum.toNat (h.tailBytes rest) := by
  simp [wireFields, ipv4Shape, middleBytes, tailBytes, beBytes]

theorem Ipv4Header.length_middleBytes (h : Ipv4Header) (reserved : Bool) :
    (h.middleBytes reserved).length = 8 := by
  simp [middleBytes]

theorem ipv4Shape_agree {first tos tos' : UInt8} {middle : List UInt8} (sum sum' : Nat)
    (tail : List UInt8) (hversion : first.toNat / 16 = 4) (hmiddle : middle.length = 8)
    (htos : tos'.toNat / 4 = tos.toNat / 4) :
    AgreeBesidesEcn (ipv4Shape first tos middle sum tail)
      (ipv4Shape first tos' middle sum' tail) := by
  have hversion : ipVersion (ipv4Shape first tos middle sum tail) = 4 := hversion
  rw [AgreeBesidesEcn, if_pos hversion]
  refine ⟨?_, htos⟩
  intro i hecn hhigh hlow
  match i with
  | 0 => rfl
  | 1 => exact absurd rfl hecn
  | i + 2 =>
      simp only [ipv4Shape, List.getElem?_cons_succ]
      by_cases hi : i < 8
      · rw [List.getElem?_append_left (by omega), List.getElem?_append_left (by omega)]
      · have hbehind : ∀ n, (middle ++ (beBytes 2 n ++ tail))[i]? = tail[i - 10]? := by
          intro n
          rw [List.getElem?_append_right (by omega),
            List.getElem?_append_right (by rw [beBytes_length]; omega), beBytes_length]
          congr 1
          omega
        rw [hbehind, hbehind]

theorem Ipv4Header.reservedFlag_wireFields (h : Ipv4Header) (reserved : Bool) (rest : List UInt8) :
    reservedFlag (Record.encode (h.wireFields reserved) ++ (h.options.bytes ++ rest))
      = reserved := by
  set flags := flagsWord h.dontFragment h.moreFragments h.fragmentOffset with hflags
  have hlt : flags < 32768 := by
    have hoffset := h.fragmentOffset.isLt
    have hdf := h.dontFragment.toNat_lt
    have hmf := h.moreFragments.toNat_lt
    rw [hflags, flagsWord]
    omega
  have hbyte : (UInt8.ofNat ((reserved.toNat * 32768 + flags) / 256)).toNat
      = reserved.toNat * 128 + flags / 256 := by
    have hreserved := reserved.toNat_lt
    rw [UInt8.toNat_ofNat']
    omega
  rw [h.encode_wireFields]
  show decide (128 ≤ (UInt8.ofNat ((reserved.toNat * 32768 + flags) / 256)).toNat) = reserved
  rw [hbyte]
  cases reserved with
  | false => exact decide_eq_false (by simp only [Bool.toNat_false]; omega)
  | true => exact decide_eq_true (by simp only [Bool.toNat_true]; omega)

/-- The packet a header was read from, and the packet with the marked header, side by side. -/
theorem Ipv4Header.shapes {packet payload : List UInt8} {h : Ipv4Header}
    (hslice : IpHeader.fromSlice packet = some (.v4 h, payload)) :
    packet = ipv4Shape (UInt8.ofNat (4 * 16 + h.headerLen / 4))
        (UInt8.ofNat (h.dscp.toNat * 4 + h.ecn.codepoint)) (h.middleBytes (reservedFlag packet))
        h.headerChecksum.toNat (h.tailBytes (packet.drop h.headerLen)) ∧
      h.marked.toBytes ++ packet.drop h.headerLen
        = ipv4Shape (UInt8.ofNat (4 * 16 + h.headerLen / 4))
          (UInt8.ofNat (h.dscp.toNat * 4 + IpEcn.codepoint .congestionExperienced))
          (h.middleBytes false) h.marked.headerChecksum.toNat
          (h.tailBytes (packet.drop h.headerLen)) := by
  obtain ⟨hversion, hparse⟩ := IpHeader.fromSlice_v4 hslice
  obtain ⟨reserved, hbytes, -⟩ := Ipv4Header.fromSlice_inv hparse hversion
  have hreserved : reservedFlag packet = reserved := by
    rw [hbytes]
    exact h.reservedFlag_wireFields reserved _
  constructor
  · rw [hreserved, ← h.encode_wireFields]
    exact hbytes
  · rw [toBytes, List.append_assoc, ← wireFields_false]
    exact h.marked.encode_wireFields false _

theorem Ipv4Header.version_byte (h : Ipv4Header) :
    (UInt8.ofNat (4 * 16 + h.headerLen / 4)).toNat = 4 * 16 + h.headerLen / 4 := by
  have hbounded := h.options.bounded
  have hlen : h.headerLen = 20 + h.options.bytes.length := rfl
  rw [UInt8.toNat_ofNat']
  omega

theorem Ipv4Header.ecn_byte (h : Ipv4Header) (ecn : IpEcn) :
    (UInt8.ofNat (h.dscp.toNat * 4 + ecn.codepoint)).toNat = h.dscp.toNat * 4 + ecn.codepoint := by
  have hdscp := h.dscp.isLt
  have hecn := ecn.codepoint_lt
  rw [UInt8.toNat_ofNat']
  omega

theorem ecnField_ipv4Shape {first tos : UInt8} (middle : List UInt8) (sum : Nat)
    (tail : List UInt8) (hversion : first.toNat / 16 = 4) :
    ecnField (ipv4Shape first tos middle sum tail) = tos.toNat % 4 := if_pos hversion

/-- An IPv4 packet whose reserved flag is clear. -/
theorem markedFrom_v4 {rules : PacketRules} (hrules : rules.ReadsProtocol) {packet : List UInt8}
    {h : Ipv4Header} (hparse : rules.ipHeadersFromSlice packet = some (.v4 h))
    (hclear : reservedFlag packet = false) :
    MarkedFrom rules packet (h.marked.toBytes ++ packet.drop h.headerLen) := by
  obtain ⟨payload, hslice, -⟩ := PacketRules.fromSlice_of_ipHeadersFromSlice hparse
  obtain ⟨hpacket, hmarked⟩ := Ipv4Header.shapes hslice
  rw [hclear] at hpacket
  have hversion : (UInt8.ofNat (4 * 16 + h.headerLen / 4)).toNat / 16 = 4 := by
    have hbounded := h.options.bounded
    have hlen : h.headerLen = 20 + h.options.bytes.length := rfl
    rw [h.version_byte]
    omega
  refine ⟨?_, ?_, ?_, processPacketCongestion_marked hrules hparse⟩
  · rw [hmarked, ecnField_ipv4Shape _ _ _ hversion, h.ecn_byte, IpEcn.codepoint]
    omega
  · rw [hmarked]
    nth_rewrite 1 [hpacket]
    apply ipv4Shape_agree _ _ _ hversion (h.length_middleBytes false)
    rw [h.ecn_byte, h.ecn_byte]
    have hecn := h.ecn.codepoint_lt
    have hce := IpEcn.codepoint_lt .congestionExperienced
    omega
  · intro _ _
    have hheader : ipv4HeaderBytes (h.marked.toBytes ++ packet.drop h.headerLen)
        = h.marked.toBytes := by
      have haligned := h.options.aligned
      have hbounded := h.options.bounded
      have hlen : h.headerLen = 20 + h.options.bytes.length := rfl
      have hfirst : ((h.marked.toBytes ++ packet.drop h.headerLen).getD 0 0).toNat
          = 4 * 16 + h.headerLen / 4 := by
        rw [hmarked]
        exact h.version_byte
      rw [ipv4HeaderBytes, hfirst]
      apply List.take_left'
      rw [Ipv4Header.length_toBytes]
      show h.headerLen = _
      omega
    rw [hheader]
    exact Ipv4Header.valid_calcHeaderChecksum _

/-- The reserved flag does not survive. -/
theorem Ipv4Header.not_agree_of_reservedFlag {packet payload : List UInt8} {h : Ipv4Header}
    (hslice : IpHeader.fromSlice packet = some (.v4 h, payload))
    (hset : reservedFlag packet = true) :
    ¬ AgreeBesidesEcn packet (h.marked.toBytes ++ packet.drop h.headerLen) := by
  intro hagree
  have hversion : ipVersion packet = 4 := (IpHeader.fromSlice_v4 hslice).1
  rw [AgreeBesidesEcn, if_pos hversion] at hagree
  have hsame := hagree.1 6 (by decide) (by decide) (by decide)
  have hlost : reservedFlag (h.marked.toBytes ++ packet.drop h.headerLen) = false := by
    rw [toBytes, List.append_assoc, ← wireFields_false]
    exact h.marked.reservedFlag_wireFields false _
  have hkept : reservedFlag (h.marked.toBytes ++ packet.drop h.headerLen) = reservedFlag packet := by
    simp only [reservedFlag, List.getD_eq_getElem?_getD, hsame]
  rw [hkept, hset] at hlost
  exact absurd hlost (by decide)

/-- The bytes behind the traffic class: the rest of the flow label and the other fields. -/
def Ipv6Header.tailBytes (h : Ipv6Header) : List UInt8 :=
  beBytes 2 (h.flowLabel.toNat % 65536)
    ++ Record.encode [(2, h.payloadLength.toNat), (1, h.nextHeader.toNat),
      (1, h.hopLimit.toNat), (16, h.source.toNat), (16, h.destination.toNat)]

/-- The ECN field lies in the second byte. -/
theorem Ipv6Header.toBytes_eq (h : Ipv6Header) :
    h.toBytes = UInt8.ofNat (96 + h.trafficClass.toNat / 16)
      :: UInt8.ofNat (h.trafficClass.toNat % 16 * 16 + h.flowLabel.toNat / 65536)
      :: h.tailBytes := by
  have htraffic := h.trafficClass.isLt
  have hflow := h.flowLabel.isLt
  have hbyte : ∀ {n m : Nat}, n % 256 = m % 256 → UInt8.ofNat n = UInt8.ofNat m := by
    intro n m hmod
    apply UInt8.toNat_inj.1
    rw [UInt8.toNat_ofNat', UInt8.toNat_ofNat']
    exact hmod
  have hword : beBytes 4 (6 * 268435456 + h.trafficClass.toNat * 1048576 + h.flowLabel.toNat)
      = UInt8.ofNat (96 + h.trafficClass.toNat / 16)
        :: UInt8.ofNat (h.trafficClass.toNat % 16 * 16 + h.flowLabel.toNat / 65536)
        :: beBytes 2 (h.flowLabel.toNat % 65536) := by
    simp only [beBytes, List.nil_append, List.cons_append, List.cons.injEq, and_true]
    exact ⟨hbyte (by omega), hbyte (by omega), hbyte (by omega), hbyte (by omega)⟩
  rw [toBytes, fields, Record.encode_cons, hword]
  rfl

theorem Ipv6Header.version_byte (h : Ipv6Header) :
    (UInt8.ofNat (96 + h.trafficClass.toNat / 16)).toNat / 16 = 6 := by
  have htraffic := h.trafficClass.isLt
  rw [UInt8.toNat_ofNat']
  omega

theorem Ipv6Header.ecn_byte (h : Ipv6Header) :
    (UInt8.ofNat (h.trafficClass.toNat % 16 * 16 + h.flowLabel.toNat / 65536)).toNat
      = h.trafficClass.toNat % 16 * 16 + h.flowLabel.toNat / 65536 := by
  have hflow := h.flowLabel.isLt
  rw [UInt8.toNat_ofNat']
  omega

theorem Ipv6Header.ecnField_toBytes (h : Ipv6Header) (rest : List UInt8) :
    ecnField (h.toBytes ++ rest) = h.ecn.codepoint := by
  have hversion : ipVersion (h.toBytes ++ rest) = 6 := by
    rw [h.toBytes_eq]
    exact h.version_byte
  have hflow := h.flowLabel.isLt
  rw [ecnField, hversion, if_neg (by decide), h.toBytes_eq]
  show (UInt8.ofNat (h.trafficClass.toNat % 16 * 16 + h.flowLabel.toNat / 65536)).toNat / 16 % 4
    = (IpEcn.ofCodepoint h.trafficClass.toNat).codepoint
  rw [h.ecn_byte, IpEcn.codepoint_ofCodepoint]
  omega

theorem agree_of_second_byte {first tos tos' : UInt8} (tail : List UInt8)
    (hversion : first.toNat / 16 = 6) (hhigh : tos'.toNat / 64 = tos.toNat / 64)
    (hlow : tos'.toNat % 16 = tos.toNat % 16) :
    AgreeBesidesEcn (first :: tos :: tail) (first :: tos' :: tail) := by
  have hversion : ipVersion (first :: tos :: tail) = 6 := hversion
  rw [AgreeBesidesEcn, hversion, if_neg (by decide)]
  refine ⟨?_, hhigh, hlow⟩
  intro i hecn
  match i with
  | 0 => rfl
  | 1 => exact absurd rfl hecn
  | i + 2 => rfl

/-- Setting the codepoint leaves the rest of the header where it is. -/
theorem Ipv6Header.setEcn_agree (h : Ipv6Header) (rest : List UInt8) :
    AgreeBesidesEcn (h.toBytes ++ rest) ((h.setEcn .congestionExperienced).toBytes ++ rest) := by
  have htraffic := h.trafficClass.isLt
  have hflow := h.flowLabel.isLt
  have hclass := h.trafficClass_setEcn
  have hlabel : (h.setEcn .congestionExperienced).flowLabel = h.flowLabel := rfl
  have hfirst : (h.setEcn .congestionExperienced).trafficClass.toNat / 16
      = h.trafficClass.toNat / 16 := by omega
  have htail : (h.setEcn .congestionExperienced).tailBytes = h.tailBytes := rfl
  rw [h.toBytes_eq, Ipv6Header.toBytes_eq, hfirst, htail]
  refine agree_of_second_byte _ h.version_byte ?_ ?_ <;>
  · rw [Ipv6Header.ecn_byte, Ipv6Header.ecn_byte, hclass, hlabel]
    omega

theorem markedFrom_v6 {rules : PacketRules} (hrules : rules.ReadsProtocol) {packet : List UInt8}
    {h : Ipv6Header} (hparse : rules.ipHeadersFromSlice packet = some (.v6 h)) :
    MarkedFrom rules packet
      ((h.setEcn .congestionExperienced).toBytes ++ packet.drop Ipv6Header.HEADER_LEN) := by
  obtain ⟨payload, hslice, -⟩ := PacketRules.fromSlice_of_ipHeadersFromSlice hparse
  obtain ⟨hversion, hslice6⟩ := IpHeader.fromSlice_v6 hslice
  obtain ⟨hpacket, -⟩ := Ipv6Header.fromSlice_inv hslice6 hversion
  have hversion : ipVersion packet = 6 := hversion
  have hsix : ¬ ipVersion packet = 4 := by omega
  refine ⟨?_, ?_, ?_, processPacketCongestion_marked hrules hparse⟩
  · rw [Ipv6Header.ecnField_toBytes]
    exact congrArg IpEcn.codepoint (IpHeader.ecn_marked (.v6 h))
  · have hagree := h.setEcn_agree (packet.drop Ipv6Header.HEADER_LEN)
    rwa [← hpacket] at hagree
  · exact fun hfour => absurd hfour hsix

/-- A packet that is already marked stays as it is. -/
theorem markedFrom_experienced {rules : PacketRules} {packet : List UInt8} {h : IpHeader}
    (hparse : rules.ipHeadersFromSlice packet = some h) (hecn : h.ecn = .congestionExperienced) :
    MarkedFrom rules packet packet := by
  obtain ⟨payload, hslice, -⟩ := PacketRules.fromSlice_of_ipHeadersFromSlice hparse
  have hforward : processPacketCongestion rules packet = some (packet, .forward) := by
    rw [processPacketCongestion_of_parse hparse, hecn]
  have hagree : AgreeBesidesEcn packet packet := by
    unfold AgreeBesidesEcn
    split_ifs <;> simp
  refine ⟨?_, hagree, fun _ hvalid => hvalid, hforward⟩
  cases h with
  | v4 h =>
      have hecn : h.ecn = .congestionExperienced := hecn
      have hversion : ipVersion packet = 4 := (IpHeader.fromSlice_v4 hslice).1
      have hshape := (Ipv4Header.shapes hslice).1
      have hbyte : (packet.getD 1 0).toNat
          = h.dscp.toNat * 4 + IpEcn.codepoint .congestionExperienced := by
        rw [hshape, hecn]
        exact h.ecn_byte .congestionExperienced
      rw [ecnField, if_pos hversion, hbyte, IpEcn.codepoint]
      omega
  | v6 h =>
      obtain ⟨hversion, hslice6⟩ := IpHeader.fromSlice_v6 hslice
      rw [(Ipv6Header.fromSlice_inv hslice6 hversion).1, Ipv6Header.ecnField_toBytes]
      exact congrArg IpEcn.codepoint hecn

theorem markedFrom_marked {rules : PacketRules} (hrules : rules.ReadsProtocol)
    {packet : List UInt8} {h : IpHeader} (hparse : rules.ipHeadersFromSlice packet = some h)
    (hclear : ∀ h4, h = .v4 h4 → reservedFlag packet = false) :
    MarkedFrom rules packet (h.marked.toBytes ++ packet.drop h.headerLen) := by
  cases h with
  | v4 h => exact markedFrom_v4 hrules hparse (hclear h rfl)
  | v6 h => exact markedFrom_v6 hrules hparse

/-- **Marking changes the mark only.** A packet that is an accepted IPv4 packet of an ECN-capable
    transport has to have its reserved flag clear, since the header is written back without it. Nothing
    else is needed, and no packet with the flag set comes through. -/
theorem marksEcnOnly_iff {rules : PacketRules} (hrules : rules.ReadsProtocol)
    (packet : List UInt8) :
    MarksEcnOnly rules packet ↔
      ∀ h, rules.ipHeadersFromSlice packet = some (.v4 h) → h.ecn = .ect0 ∨ h.ecn = .ect1 →
        reservedFlag packet = false := by
  obtain ⟨packet', action, hprocess, hlen⟩ := processPacketCongestion_length rules packet
  constructor
  · rintro ⟨out, act, hout, -, -, hforward⟩ h hparse hect
    obtain ⟨payload, hslice, -⟩ := PacketRules.fromSlice_of_ipHeadersFromSlice hparse
    have hmark : processPacketCongestion rules packet
        = some (h.marked.toBytes ++ packet.drop h.headerLen, .forward) := by
      rw [processPacketCongestion_of_parse hparse]
      rcases hect with hect | hect <;> simp only [IpHeader.ecn, hect] <;> rfl
    rw [hmark] at hout
    simp only [Option.some.injEq, Prod.mk.injEq] at hout
    obtain ⟨rfl, rfl⟩ := hout
    by_contra hset
    exact Ipv4Header.not_agree_of_reservedFlag hslice (by simpa using hset) (hforward rfl).agree
  · intro hclear
    refine ⟨packet', action, hprocess, hlen, ?_⟩
    cases hparse : rules.ipHeadersFromSlice packet with
    | none =>
        simp only [processPacketCongestion, hparse, Option.some.injEq, Prod.mk.injEq] at hprocess
        obtain ⟨rfl, rfl⟩ := hprocess
        exact ⟨fun _ => rfl, fun hforward => by simp at hforward⟩
    | some h =>
        have hmarked : h.ecn = .ect0 ∨ h.ecn = .ect1 →
            MarkedFrom rules packet (h.marked.toBytes ++ packet.drop h.headerLen) := by
          intro hect
          refine markedFrom_marked hrules hparse ?_
          rintro h4 rfl
          exact hclear h4 hparse hect
        rw [processPacketCongestion_of_parse hparse] at hprocess
        cases hecn : h.ecn with
        | ect0 =>
            simp only [hecn, Option.some.injEq, Prod.mk.injEq] at hprocess
            obtain ⟨rfl, rfl⟩ := hprocess
            exact ⟨fun hdrop => by simp at hdrop, fun _ => hmarked (.inl hecn)⟩
        | ect1 =>
            simp only [hecn, Option.some.injEq, Prod.mk.injEq] at hprocess
            obtain ⟨rfl, rfl⟩ := hprocess
            exact ⟨fun hdrop => by simp at hdrop, fun _ => hmarked (.inr hecn)⟩
        | congestionExperienced =>
            simp only [hecn, Option.some.injEq, Prod.mk.injEq] at hprocess
            obtain ⟨rfl, rfl⟩ := hprocess
            exact ⟨fun _ => rfl, fun _ => markedFrom_experienced hparse hecn⟩
        | notEct =>
            simp only [hecn, Option.some.injEq, Prod.mk.injEq] at hprocess
            obtain ⟨rfl, rfl⟩ := hprocess
            exact ⟨fun _ => rfl, fun hforward => by simp at hforward⟩

/-- An IPv4 packet of an ECN-capable transport without payload, with the given high byte of flags and
    fragment offset. -/
def ectPacket (flags : UInt8) : List UInt8 :=
  [0x45, 0x02, 0, 20, 0, 0, flags, 0, 64, 255, 0, 0, 10, 0, 0, 1, 10, 0, 0, 2]

theorem marksEcnOnly_dontFragment :
    PacketRules.lenient.ReadsProtocol ∧
      (PacketRules.lenient.ipHeadersFromSlice (ectPacket 0x40)).isSome = true ∧
      reservedFlag (ectPacket 0x40) = false ∧ MarksEcnOnly .lenient (ectPacket 0x40) :=
  have hrules : PacketRules.lenient.ReadsProtocol := ⟨fun _ _ _ _ => rfl, fun _ _ _ _ => rfl⟩
  ⟨hrules, by decide, by decide,
    (marksEcnOnly_iff hrules (ectPacket 0x40)).2 fun _ _ _ => by decide⟩

/-- Marking a packet whose reserved flag is set clears the flag. -/
theorem marking_clears_reserved_flag :
    ∃ packet', processPacketCongestion .lenient (ectPacket 0x80) = some (packet', .forward) ∧
      (ectPacket 0x80)[6]? = some 0x80 ∧ packet'[6]? = some 0 ∧
      ¬ MarksEcnOnly .lenient (ectPacket 0x80) := by
  refine ⟨_, rfl, rfl, rfl, ?_⟩
  rintro ⟨packet', action, hprocess, -, -, hforward⟩
  obtain ⟨rfl, rfl⟩ := Prod.mk.inj (Option.some.inj hprocess)
  have hagree := (hforward rfl).agree
  rw [AgreeBesidesEcn, if_pos (by decide)] at hagree
  exact absurd (hagree.1 6 (by decide) (by decide) (by decide)) (by decide)

end P2pVpn
