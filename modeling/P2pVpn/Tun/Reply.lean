import P2pVpn.Tun.Packet

set_option autoImplicit false

/-! # The shape of an ICMP reply

A reply is a packet of the same family from the gateway to the source of the packet it answers. Its
length fields are right, and it quotes the front of that packet. -/

namespace P2pVpn

/-- The longest part of a packet that a reply quotes. -/
def MAX_QUOTE : Nat := 64

/-- Type, code, checksum and the last word of an ICMP message. -/
def ICMP_HEADER_LEN : Nat := 8

/-- What a reply to `originalPacket` has to be, as far as the parser sees: the first slice is what it
    finds in the packet that is answered, the second what it finds in the reply. -/
def IsReplyTo (gateway : IcmpGateway) (originalPacket reply : List UInt8) (addr : IpAddr) :
    InternetSlice → InternetSlice → Prop
  | .ipv4 original _, .ipv4 header message =>
      gateway.ownIpv4 = some header.source ∧ header.destination = original.source ∧
        addr = .v4 original.source ∧ header.protocol = IP_NUMBER_ICMP ∧
        header.totalLen.toNat = reply.length ∧
        reply.length = header.headerLen + message.length ∧
        ICMP_HEADER_LEN ≤ message.length ∧
        message.drop ICMP_HEADER_LEN = originalPacket.take (min MAX_QUOTE originalPacket.length)
  | .ipv6 original _, .ipv6 header message =>
      gateway.ownIpv6 = some header.source ∧ header.destination = original.source ∧
        addr = .v6 original.source ∧ header.nextHeader = IP_NUMBER_IPV6_ICMP ∧
        Ipv6Header.HEADER_LEN + header.payloadLength.toNat = reply.length ∧
        reply.length = Ipv6Header.HEADER_LEN + message.length ∧
        ICMP_HEADER_LEN ≤ message.length ∧
        message.drop ICMP_HEADER_LEN = originalPacket.take (min MAX_QUOTE originalPacket.length)
  | _, _ => False

/-- The parser takes an ICMP error message as such: it has a whole ICMP header, and a type whose
    messages have no fixed length. -/
structure PacketRules.AcceptsIcmpErrors (rules : PacketRules) : Prop where
  v4 : ∀ (h : Ipv4Header) (message : List UInt8), h.protocol = IP_NUMBER_ICMP →
    ICMP_HEADER_LEN ≤ message.length → message[0]? = some 3 →
    rules.slicedPacket (.v4 h) message = true
  v6 : ∀ (h : Ipv6Header) (message : List UInt8), h.nextHeader = IP_NUMBER_IPV6_ICMP →
    ICMP_HEADER_LEN ≤ message.length → message[0]? = some 1 ∨ message[0]? = some 2 →
    rules.slicedPacket (.v6 h) message = true

/-! ## Messages -/

theorem IcmpWords.drop_checked (w : IcmpWords) (pseudoHeader payload : List UInt8) :
    (w.checked pseudoHeader payload).drop ICMP_HEADER_LEN = payload := by
  rw [checked, message]
  exact List.drop_left' (by simp [fields, ICMP_HEADER_LEN])

theorem IcmpWords.head_checked (w : IcmpWords) (pseudoHeader payload : List UInt8) :
    (w.checked pseudoHeader payload)[0]? = some (UInt8.ofNat w.type.toNat) := rfl

/-- A message around the front of a packet: its length, and what it quotes. -/
theorem IcmpWords.checked_quote {w : IcmpWords} {pseudoHeader originalPacket message : List UInt8}
    (hmessage : message
      = w.checked pseudoHeader (originalPacket.take (min originalPacket.length 64))) :
    message.length ≤ ICMP_HEADER_LEN + MAX_QUOTE ∧ ICMP_HEADER_LEN ≤ message.length ∧
      message.drop ICMP_HEADER_LEN = originalPacket.take (min MAX_QUOTE originalPacket.length) := by
  have hlen : message.length = ICMP_HEADER_LEN + min originalPacket.length MAX_QUOTE := by
    rw [hmessage, length_checked, List.length_take, ICMP_HEADER_LEN, MAX_QUOTE]
    omega
  refine ⟨by omega, by omega, ?_⟩
  rw [hmessage, drop_checked, MAX_QUOTE, Nat.min_comm]

theorem Icmpv4Type.type_eq (icmp : Icmpv4Type) : icmp.words.type = 3 := by
  obtain ⟨header⟩ := icmp
  cases header <;> rfl

theorem Icmpv6Type.type_eq (icmp : Icmpv6Type) : icmp.words.type = 1 ∨ icmp.words.type = 2 := by
  cases icmp with
  | destinationUnreachable code => cases code <;> exact .inl rfl
  | packetTooBig mtu => exact .inr rfl

/-! ## Replies -/

section

variable {rules : PacketRules} {gateway : IcmpGateway} {originalPacket reply : List UInt8}

theorem inetSlice_v4 {header : Ipv4Header} {message : List UInt8}
    (hparse : IpHeader.fromSlice reply = some (.v4 header, message))
    (haccept : rules.slicedPacket (.v4 header) message = true) :
    inetSlice rules reply = some (.ipv4 header message) := by
  simp only [inetSlice, hparse, haccept, if_true]

theorem inetSlice_v6 {header : Ipv6Header} {message : List UInt8}
    (hparse : IpHeader.fromSlice reply = some (.v6 header, message))
    (haccept : rules.slicedPacket (.v6 header) message = true) :
    inetSlice rules reply = some (.ipv6 header message) := by
  simp only [inetSlice, hparse, haccept, if_true]

theorem isReplyTo_v4 (hrules : rules.AcceptsIcmpErrors) {original : Ipv4Header}
    {payload : List UInt8} {own : Ipv4Addr} {icmp : Icmpv4Type} (hown : gateway.ownIpv4 = some own)
    (hbuild : buildIcmpv4 (replyHeader own original.source) icmp
      (originalPacket.take (min originalPacket.length 64)) = some reply) :
    reply.length ≤ 112 ∧ ∃ slice, inetSlice rules reply = some slice ∧
      IsReplyTo gateway originalPacket reply (.v4 original.source) (.ipv4 original payload)
        slice := by
  obtain ⟨header, message, hheader, hmessage, hreply, htotal, hparse⟩ := buildIcmpv4_eq_some hbuild
  obtain ⟨hlen, hwhole, hquote⟩ := IcmpWords.checked_quote hmessage
  rw [ICMP_HEADER_LEN, MAX_QUOTE] at hlen
  have hlength : reply.length = header.headerLen + message.length := by simp [hreply]
  have hheaderLen : header.headerLen = 20 := by rw [hheader]; rfl
  have hprotocol : header.protocol = IP_NUMBER_ICMP := by rw [hheader]; rfl
  have htype : message[0]? = some 3 := by
    rw [hmessage, IcmpWords.head_checked, icmp.type_eq]
    rfl
  refine ⟨by omega, .ipv4 header message,
    inetSlice_v4 hparse (hrules.v4 header message hprotocol hwhole htype), ?_⟩
  refine ⟨?_, ?_, rfl, hprotocol, htotal.trans hlength.symm, hlength, hwhole, hquote⟩
  · rw [hown, hheader]
    rfl
  · rw [hheader]
    rfl

theorem isReplyTo_v6 (hrules : rules.AcceptsIcmpErrors) {original : Ipv6Header}
    {payload : List UInt8} {own : Ipv6Addr} {icmp : Icmpv6Type} (hown : gateway.ownIpv6 = some own)
    (hbuild : buildIcmpv6 own original.source 64 icmp
      (originalPacket.take (min originalPacket.length 64)) = some reply) :
    reply.length ≤ 112 ∧ ∃ slice, inetSlice rules reply = some slice ∧
      IsReplyTo gateway originalPacket reply (.v6 original.source) (.ipv6 original payload)
        slice := by
  obtain ⟨header, message, hheader, hmessage, hreply, htotal, hparse⟩ := buildIcmpv6_eq_some hbuild
  obtain ⟨hlen, hwhole, hquote⟩ := IcmpWords.checked_quote hmessage
  rw [ICMP_HEADER_LEN, MAX_QUOTE] at hlen
  have hlength : reply.length = Ipv6Header.HEADER_LEN + message.length := by simp [hreply]
  have hforty : Ipv6Header.HEADER_LEN = 40 := rfl
  have hprotocol : header.nextHeader = IP_NUMBER_IPV6_ICMP := by rw [hheader]; rfl
  have htype : message[0]? = some 1 ∨ message[0]? = some 2 := by
    rw [hmessage, IcmpWords.head_checked]
    rcases icmp.type_eq with htype | htype
    · exact .inl (by rw [htype]; rfl)
    · exact .inr (by rw [htype]; rfl)
  refine ⟨by omega, .ipv6 header message,
    inetSlice_v6 hparse (hrules.v6 header message hprotocol hwhole htype), ?_⟩
  refine ⟨?_, ?_, rfl, hprotocol, by omega, hlength, hwhole, hquote⟩
  · rw [hown, hheader]
    rfl
  · rw [hheader]
    rfl

end

/-- **Replies are well addressed and well formed.** A reply is given exactly to packets that parse and
    whose family the gateway has an address in; it is then a packet to their source that quotes them,
    and otherwise the buffer is left alone. -/
theorem generateReply_wellFormed {rules : PacketRules} (hrules : rules.AcceptsIcmpErrors)
    (gateway : IcmpGateway) (icmpType : IcmpType) (buffer originalPacket : List UInt8) :
    ((∃ buffer' addr, gateway.generateReply rules buffer originalPacket icmpType
        = (buffer', .ok addr)) ↔
      originalPacket ≠ [] ∧
        ∃ slice, inetSlice rules originalPacket = some slice ∧ gateway.Serves slice) ∧
    (∀ buffer' addr, gateway.generateReply rules buffer originalPacket icmpType
        = (buffer', .ok addr) →
      ∃ reply slice replySlice, buffer' = buffer ++ reply ∧ reply.length ≤ 112 ∧
        inetSlice rules originalPacket = some slice ∧ inetSlice rules reply = some replySlice ∧
        IsReplyTo gateway originalPacket reply addr slice replySlice) ∧
    ∀ buffer' e, gateway.generateReply rules buffer originalPacket icmpType
      = (buffer', .error e) → buffer' = buffer := by
  have hcases := gateway.generateReply_cases rules buffer originalPacket icmpType
  refine ⟨⟨?_, ?_⟩, ?_, ?_⟩
  · rintro ⟨buffer', addr, hok⟩
    have hne : ∀ slice, inetSlice rules originalPacket = some slice → originalPacket ≠ [] := by
      rintro slice hslice rfl
      simp [inetSlice_nil] at hslice
    rcases hcases with ⟨e, herror⟩ | ⟨ip, payload, own, reply, hslice, hown, -, -⟩ |
      ⟨ip, payload, own, reply, hslice, hown, -, -⟩
    · rw [herror] at hok
      simp at hok
    · exact ⟨hne _ hslice, _, hslice, by rw [IcmpGateway.Serves, hown]; rfl⟩
    · exact ⟨hne _ hslice, _, hslice, by rw [IcmpGateway.Serves, hown]; rfl⟩
  · rintro ⟨-, slice, hslice, hserves⟩
    exact IcmpGateway.generateReply_of_serves hslice hserves buffer icmpType
  · intro buffer' addr hok
    rcases hcases with ⟨e, herror⟩ | ⟨ip, payload, own, reply, hslice, hown, hbuild, hreply⟩ |
      ⟨ip, payload, own, reply, hslice, hown, hbuild, hreply⟩
    · rw [herror] at hok
      simp at hok
    · rw [hreply] at hok
      obtain ⟨rfl, haddr⟩ := Prod.mk.inj hok
      obtain rfl := Except.ok.inj haddr
      obtain ⟨hshort, replySlice, hparse, his⟩ := isReplyTo_v4 hrules hown hbuild
      exact ⟨reply, _, replySlice, rfl, hshort, hslice, hparse, his⟩
    · rw [hreply] at hok
      obtain ⟨rfl, haddr⟩ := Prod.mk.inj hok
      obtain rfl := Except.ok.inj haddr
      obtain ⟨hshort, replySlice, hparse, his⟩ := isReplyTo_v6 hrules hown hbuild
      exact ⟨reply, _, replySlice, rfl, hshort, hslice, hparse, his⟩
  · intro buffer' e hfail
    rcases hcases with ⟨e', herror⟩ | ⟨ip, payload, own, reply, -, -, -, hreply⟩ |
      ⟨ip, payload, own, reply, -, -, -, hreply⟩
    · rw [herror] at hfail
      exact (Prod.mk.inj hfail).1.symm
    · rw [hreply] at hfail
      simp at hfail
    · rw [hreply] at hfail
      simp at hfail

/-- A UDP packet from 192.168.1.10 without data. -/
def udpPacket : List UInt8 :=
  [0x45, 0x00, 0x00, 0x1c, 0x00, 0x00, 0x40, 0x00, 0x40, 0x11, 0xb8, 0x2d, 0xc0, 0xa8, 0x01, 0x0a,
    0x08, 0x08, 0x08, 0x08, 0x0b, 0xb8, 0x0b, 0xb8, 0x00, 0x08, 0x00, 0x00]

theorem generateReply_wellFormed_udp :
    PacketRules.lenient.AcceptsIcmpErrors ∧
      ∃ reply slice addr, (IcmpGateway.fromAddr (.v4 0x08080404)).generateReply .lenient []
        udpPacket .unreachableNet = (reply, .ok addr) ∧ reply.length ≤ 112 ∧
        inetSlice .lenient reply = some slice := by
  have hrules : PacketRules.lenient.AcceptsIcmpErrors :=
    ⟨fun _ _ _ _ _ => rfl, fun _ _ _ _ _ => rfl⟩
  obtain ⟨hiff, hshape, -⟩ := generateReply_wellFormed hrules
    (IcmpGateway.fromAddr (.v4 0x08080404)) .unreachableNet [] udpPacket
  obtain ⟨buffer, addr, hreply⟩ := hiff.2 ⟨by decide, _, rfl, rfl⟩
  obtain ⟨reply, -, slice, hbuffer, hshort, -, hparse, -⟩ := hshape buffer addr hreply
  rw [List.nil_append] at hbuffer
  exact ⟨hrules, reply, slice, addr, hbuffer ▸ hreply, hshort, hparse⟩

end P2pVpn
