import P2pVpn.Tun.Header

set_option autoImplicit false

/-! # ICMP error messages (`etherparse`)

The ICMP errors a node sends, in both families, the packets `PacketBuilder` makes of them, and a
reader of such packets that takes nothing from the builder: it parses the IP header, verifies the
checksums and classifies the message by its type and code. What the builder writes, the reader
understands. -/

namespace P2pVpn

/-- IP protocol number of ICMPv4. -/
def IP_NUMBER_ICMP : BitVec 8 := 1

/-- IP protocol number of ICMPv6. -/
def IP_NUMBER_IPV6_ICMP : BitVec 8 := 58

/-! ## Messages -/

/-- `icmpv4::DestUnreachableHeader`, as far as it is used. -/
inductive DestUnreachableHeader where
  | networkUnknown
  | host
  | fragmentationNeeded (nextHopMtu : BitVec 16)
  deriving DecidableEq

/-- The ICMPv4 messages that are sent. -/
inductive Icmpv4Type where
  | destinationUnreachable (header : DestUnreachableHeader)
  deriving DecidableEq

/-- `icmpv6::DestUnreachableCode`, as far as it is used. -/
inductive DestUnreachableCode where
  | noRoute
  | address
  deriving DecidableEq

/-- The ICMPv6 messages that are sent. -/
inductive Icmpv6Type where
  | destinationUnreachable (code : DestUnreachableCode)
  | packetTooBig (mtu : BitVec 32)
  deriving DecidableEq

/-- Type, code and the four bytes after the checksum. -/
structure IcmpWords where
  type : BitVec 8
  code : BitVec 8
  rest : BitVec 32

/-- The type, the code and the last word of the message. -/
def Icmpv4Type.words : Icmpv4Type → IcmpWords
  | .destinationUnreachable .networkUnknown => ⟨3, 6, 0⟩
  | .destinationUnreachable .host => ⟨3, 1, 0⟩
  | .destinationUnreachable (.fragmentationNeeded mtu) => ⟨3, 4, mtu.setWidth 32⟩

/-- The type, the code and the last word of the message. -/
def Icmpv6Type.words : Icmpv6Type → IcmpWords
  | .destinationUnreachable .noRoute => ⟨1, 0, 0⟩
  | .destinationUnreachable .address => ⟨1, 3, 0⟩
  | .packetTooBig mtu => ⟨2, 0, mtu⟩

/-- The fields of the ICMP header, with their widths in bytes. -/
def IcmpWords.fields (w : IcmpWords) (checksum : Nat) : List (Nat × Nat) :=
  [(1, w.type.toNat), (1, w.code.toNat), (2, checksum), (4, w.rest.toNat)]

/-- The message with the given checksum. -/
def IcmpWords.message (w : IcmpWords) (checksum : Nat) (payload : List UInt8) : List UInt8 :=
  Record.encode (w.fields checksum) ++ payload

/-- The message with the checksum over `pseudoHeader` and itself. -/
def IcmpWords.checked (w : IcmpWords) (pseudoHeader payload : List UInt8) : List UInt8 :=
  w.message (Checksum.checksum (pseudoHeader ++ w.message 0 payload)) payload

/-! ## `PacketBuilder` -/

/-- The pseudo header an ICMPv6 checksum covers. -/
def icmpv6PseudoHeader (source destination : Ipv6Addr) (messageLen : Nat) : List UInt8 :=
  Record.encode [(16, source.toNat), (16, destination.toNat), (4, messageLen),
    (4, IP_NUMBER_IPV6_ICMP.toNat)]

/-- What the builder fills in before it writes an IPv4 header. -/
def Ipv4Header.completed (ip : Ipv4Header) (protocol : BitVec 8) (payloadLen : Nat) : Ipv4Header :=
  let ip := { ip with
    protocol := protocol
    totalLen := BitVec.ofNat 16 (ip.headerLen + payloadLen) }
  { ip with headerChecksum := ip.calcHeaderChecksum }

/-- `PacketBuilder::ip(..).icmpv4(..).write(..)`. Fails if the total length does not fit its field. -/
def buildIcmpv4 (ip : Ipv4Header) (icmp : Icmpv4Type) (payload : List UInt8) :
    Option (List UInt8) :=
  let message := icmp.words.checked [] payload
  if 65535 < ip.headerLen + message.length then none
  else some ((ip.completed IP_NUMBER_ICMP message.length).toBytes ++ message)

/-- The header `PacketBuilder::ipv6(..)` writes. -/
def icmpv6Header (source destination : Ipv6Addr) (hopLimit : BitVec 8) (payloadLen : Nat) :
    Ipv6Header :=
  { (default : Ipv6Header) with
    payloadLength := BitVec.ofNat 16 payloadLen
    nextHeader := IP_NUMBER_IPV6_ICMP
    hopLimit := hopLimit
    source := source
    destination := destination }

/-- `PacketBuilder::ipv6(..).icmpv6(..).write(..)`. Fails if the payload length does not fit its
    field. -/
def buildIcmpv6 (source destination : Ipv6Addr) (hopLimit : BitVec 8) (icmp : Icmpv6Type)
    (payload : List UInt8) : Option (List UInt8) :=
  let messageLen := 8 + payload.length
  if 65535 < messageLen then none
  else
    some ((icmpv6Header source destination hopLimit messageLen).toBytes
      ++ icmp.words.checked (icmpv6PseudoHeader source destination messageLen) payload)

/-! ## Reading a packet as an ICMP error -/

/-- What an ICMP error reports, whatever the family. -/
inductive IcmpKind where
  | networkUnknown
  | hostUnreachable
  | packetTooBig (mtu : Nat)
  deriving DecidableEq

/-- By type, code, checksum and last word of an ICMPv4 message. The MTU is in the low half. -/
def icmpv4Kind : List Nat → Option IcmpKind
  | [3, 6, _, _] => some .networkUnknown
  | [3, 1, _, _] => some .hostUnreachable
  | [3, 4, _, rest] => some (.packetTooBig (rest % 65536))
  | _ => none

/-- By type, code, checksum and last word of an ICMPv6 message. -/
def icmpv6Kind : List Nat → Option IcmpKind
  | [1, 0, _, _] => some .networkUnknown
  | [1, 3, _, _] => some .hostUnreachable
  | [2, 0, _, mtu] => some (.packetTooBig mtu)
  | _ => none

/-- The host an ICMP error is addressed to and what it reports. `none` if the packet is anything else
    or a checksum is wrong. -/
def readIcmpError (packet : List UInt8) : Option (IpAddr × IcmpKind) :=
  match IpHeader.fromSlice packet with
  | some (.v4 h, message) =>
      if h.protocol = IP_NUMBER_ICMP ∧ Checksum.Valid (packet.take h.headerLen)
          ∧ Checksum.Valid message then
        ((Record.decode [1, 1, 2, 4] message).bind fun r => icmpv4Kind r.1).map fun kind =>
          (.v4 h.destination, kind)
      else none
  | some (.v6 h, message) =>
      if h.nextHeader = IP_NUMBER_IPV6_ICMP
          ∧ Checksum.Valid (icmpv6PseudoHeader h.source h.destination message.length ++ message) then
        ((Record.decode [1, 1, 2, 4] message).bind fun r => icmpv6Kind r.1).map fun kind =>
          (.v6 h.destination, kind)
      else none
  | none => none

/-! ## What the builder writes, the reader understands -/

/-- What the message reports. -/
def Icmpv4Type.kind : Icmpv4Type → IcmpKind
  | .destinationUnreachable .networkUnknown => .networkUnknown
  | .destinationUnreachable .host => .hostUnreachable
  | .destinationUnreachable (.fragmentationNeeded mtu) => .packetTooBig mtu.toNat

/-- What the message reports. -/
def Icmpv6Type.kind : Icmpv6Type → IcmpKind
  | .destinationUnreachable .noRoute => .networkUnknown
  | .destinationUnreachable .address => .hostUnreachable
  | .packetTooBig mtu => .packetTooBig mtu.toNat

theorem icmpv4Kind_fields (icmp : Icmpv4Type) (checksum : Nat) :
    icmpv4Kind ((icmp.words.fields checksum).map Prod.snd) = some icmp.kind := by
  obtain ⟨header⟩ := icmp
  cases header with
  | networkUnknown => rfl
  | host => rfl
  | fragmentationNeeded mtu =>
      have hmtu := mtu.isLt
      have hrest : (mtu.setWidth 32).toNat % 65536 = mtu.toNat := by
        rw [BitVec.toNat_setWidth]
        omega
      show some (IcmpKind.packetTooBig ((mtu.setWidth 32).toNat % 65536)) = _
      rw [hrest]
      rfl

theorem icmpv6Kind_fields (icmp : Icmpv6Type) (checksum : Nat) :
    icmpv6Kind ((icmp.words.fields checksum).map Prod.snd) = some icmp.kind := by
  cases icmp with
  | destinationUnreachable code => cases code <;> rfl
  | packetTooBig mtu => rfl

@[simp] theorem IcmpWords.length_message (w : IcmpWords) (checksum : Nat) (payload : List UInt8) :
    (w.message checksum payload).length = 8 + payload.length := by
  simp [message, fields]
  omega

@[simp] theorem IcmpWords.length_checked (w : IcmpWords) (pseudoHeader payload : List UInt8) :
    (w.checked pseudoHeader payload).length = 8 + payload.length := by
  simp [checked]

/-- The checksum field is the only difference between two messages. -/
theorem IcmpWords.message_eq (w : IcmpWords) (checksum : Nat) (payload : List UInt8) :
    w.message checksum payload
      = Record.encode [(1, w.type.toNat), (1, w.code.toNat)] ++ beBytes 2 checksum
        ++ (beBytes 4 w.rest.toNat ++ payload) := by
  simp [message, fields]

theorem IcmpWords.checked_valid (w : IcmpWords) (pseudoHeader payload : List UInt8)
    (heven : pseudoHeader.length % 2 = 0) :
    Checksum.Valid (pseudoHeader ++ w.checked pseudoHeader payload) := by
  have hfront : (pseudoHeader ++ Record.encode [(1, w.type.toNat), (1, w.code.toNat)]).length % 2
      = 0 := by
    simp [heven]
  have hvalid := Checksum.valid_of_checksum _ (beBytes 4 w.rest.toNat ++ payload) hfront
  rw [checked, message_eq, message_eq]
  simpa only [List.append_assoc] using hvalid

theorem IcmpWords.decode_checked (w : IcmpWords) (pseudoHeader payload : List UInt8) :
    ∃ checksum, Record.decode [1, 1, 2, 4] (w.checked pseudoHeader payload)
      = some ((w.fields checksum).map Prod.snd, payload) := by
  refine ⟨Checksum.checksum (pseudoHeader ++ w.message 0 payload), ?_⟩
  refine Record.decode_encode (w.fields _) (?_) payload
  intro f hf
  simp only [fields, List.mem_cons, List.not_mem_nil, or_false] at hf
  rcases hf with rfl | rfl | rfl | rfl
  · exact w.type.isLt
  · exact w.code.isLt
  · exact Checksum.checksum_lt _
  · exact w.rest.isLt

theorem Ipv4Header.totalLen_completed (ip : Ipv4Header) (protocol : BitVec 8) {payloadLen : Nat}
    (hlen : ip.headerLen + payloadLen ≤ 65535) :
    (ip.completed protocol payloadLen).totalLen.toNat = ip.headerLen + payloadLen := by
  show (BitVec.ofNat 16 (ip.headerLen + payloadLen)).toNat = _
  rw [BitVec.toNat_ofNat]
  omega

/-- An ICMPv4 packet is the completed header and the message, and is parsed as these. -/
theorem buildIcmpv4_eq_some {ip : Ipv4Header} {icmp : Icmpv4Type} {payload packet : List UInt8}
    (hbuild : buildIcmpv4 ip icmp payload = some packet) :
    ∃ header message, header = ip.completed IP_NUMBER_ICMP message.length ∧
      message = icmp.words.checked [] payload ∧ packet = header.toBytes ++ message ∧
      header.totalLen.toNat = header.headerLen + message.length ∧
      IpHeader.fromSlice packet = some (.v4 header, message) := by
  simp only [buildIcmpv4] at hbuild
  split_ifs at hbuild with hlong
  obtain rfl := Option.some.inj hbuild
  set message := icmp.words.checked [] payload with hmessage
  set header := ip.completed IP_NUMBER_ICMP message.length with hheader
  have htotal : header.totalLen.toNat = header.headerLen + message.length :=
    ip.totalLen_completed IP_NUMBER_ICMP (by omega)
  exact ⟨header, message, hheader, hmessage, rfl, htotal,
    IpHeader.fromSlice_toBytes (.v4 header) message htotal⟩

/-- An ICMPv4 error is read as what was built, addressed to the header's destination. -/
theorem readIcmpError_buildIcmpv4 {ip : Ipv4Header} {icmp : Icmpv4Type}
    {payload packet : List UInt8} (hbuild : buildIcmpv4 ip icmp payload = some packet) :
    readIcmpError packet = some (.v4 ip.destination, icmp.kind) := by
  obtain ⟨header, message, hheader, hmessage, rfl, -, hparse⟩ := buildIcmpv4_eq_some hbuild
  have hchecks : header.protocol = IP_NUMBER_ICMP
      ∧ Checksum.Valid ((header.toBytes ++ message).take header.headerLen)
      ∧ Checksum.Valid message := by
    refine ⟨by rw [hheader]; rfl, ?_, ?_⟩
    · rw [List.take_left' header.length_toBytes, hheader]
      exact Ipv4Header.valid_calcHeaderChecksum _
    · rw [hmessage]
      exact icmp.words.checked_valid [] payload rfl
  obtain ⟨checksum, hdecode⟩ := icmp.words.decode_checked [] payload
  rw [← hmessage] at hdecode
  simp only [readIcmpError, hparse, if_pos hchecks, hdecode, Option.bind_some, icmpv4Kind_fields,
    Option.map_some]
  rw [hheader]
  rfl

/-- An ICMPv6 packet is a header and the message, and is parsed as these. -/
theorem buildIcmpv6_eq_some {source destination : Ipv6Addr} {hopLimit : BitVec 8}
    {icmp : Icmpv6Type} {payload packet : List UInt8}
    (hbuild : buildIcmpv6 source destination hopLimit icmp payload = some packet) :
    ∃ header message, header = icmpv6Header source destination hopLimit message.length ∧
      message = icmp.words.checked
        (icmpv6PseudoHeader source destination message.length) payload ∧
      packet = header.toBytes ++ message ∧ header.payloadLength.toNat = message.length ∧
      IpHeader.fromSlice packet = some (.v6 header, message) := by
  simp only [buildIcmpv6] at hbuild
  split_ifs at hbuild with hlong
  obtain rfl := Option.some.inj hbuild
  set message :=
    icmp.words.checked (icmpv6PseudoHeader source destination (8 + payload.length)) payload
    with hmessage
  have hlen : 8 + payload.length = message.length := (icmp.words.length_checked _ payload).symm
  rw [hlen] at hmessage ⊢
  set header := icmpv6Header source destination hopLimit message.length with hheader
  have hpayload : header.payloadLength.toNat = message.length := by
    show (BitVec.ofNat 16 message.length).toNat = _
    rw [BitVec.toNat_ofNat]
    omega
  exact ⟨header, message, hheader, hmessage, rfl, hpayload,
    IpHeader.fromSlice_toBytes (.v6 header) message hpayload⟩

/-- An ICMPv6 error is read as what was built. -/
theorem readIcmpError_buildIcmpv6 {source destination : Ipv6Addr} {hopLimit : BitVec 8}
    {icmp : Icmpv6Type} {payload packet : List UInt8}
    (hbuild : buildIcmpv6 source destination hopLimit icmp payload = some packet) :
    readIcmpError packet = some (.v6 destination, icmp.kind) := by
  obtain ⟨header, message, hheader, hmessage, rfl, -, hparse⟩ := buildIcmpv6_eq_some hbuild
  have hsource : header.source = source := by rw [hheader]; rfl
  have hdestination : header.destination = destination := by rw [hheader]; rfl
  have hnext : header.nextHeader = IP_NUMBER_IPV6_ICMP := by rw [hheader]; rfl
  generalize hpseudo : icmpv6PseudoHeader source destination message.length = pseudoHeader
    at hmessage
  have heven : pseudoHeader.length % 2 = 0 := by
    rw [← hpseudo]
    simp [icmpv6PseudoHeader]
  have hchecks : header.nextHeader = IP_NUMBER_IPV6_ICMP ∧ Checksum.Valid
      (icmpv6PseudoHeader header.source header.destination message.length ++ message) := by
    refine ⟨hnext, ?_⟩
    rw [hsource, hdestination, hpseudo, hmessage]
    exact icmp.words.checked_valid pseudoHeader payload heven
  obtain ⟨checksum, hdecode⟩ := icmp.words.decode_checked pseudoHeader payload
  rw [← hmessage] at hdecode
  have hread : readIcmpError (header.toBytes ++ message) =
      if header.nextHeader = IP_NUMBER_IPV6_ICMP ∧ Checksum.Valid
        (icmpv6PseudoHeader header.source header.destination message.length ++ message) then
        ((Record.decode [1, 1, 2, 4] message).bind fun r => icmpv6Kind r.1).map fun kind =>
          (.v6 header.destination, kind)
      else none := by
    rw [readIcmpError, hparse]
  rw [hread, if_pos hchecks, hdecode, Option.bind_some, icmpv6Kind_fields, Option.map_some,
    hdestination]

end P2pVpn
