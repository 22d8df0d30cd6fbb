import P2pVpn.Tun.Icmp

set_option autoImplicit false

/-! # Packets read from and written to the TUN device (`src/tun/packet.rs`)

Finding the addresses of a packet, and the ICMP error a node answers it with. -/

namespace P2pVpn

/-! ## Addresses of a packet -/

/-- The network layer of a sliced packet: a header and its payload, or an ARP packet. -/
inductive InternetSlice where
  | ipv4 (header : Ipv4Header) (payload : List UInt8)
  | ipv6 (header : Ipv6Header) (payload : List UInt8)
  | arp
  deriving DecidableEq

/-- `SlicedPacket::from_ip` yields an IPv4 or IPv6 slice, or an error. -/
def inetSlice (rules : PacketRules) (slice : List UInt8) : Option InternetSlice :=
  match IpHeader.fromSlice slice with
  | some (header, payload) =>
      if rules.slicedPacket header payload then
        match header with
        | .v4 h => some (.ipv4 h payload)
        | .v6 h => some (.ipv6 h payload)
      else none
  | none => none

/-- Where the packet goes; ARP has no address here. -/
def destinationIp : InternetSlice → Option IpAddr
  | .ipv4 h _ => some (.v4 h.destination)
  | .ipv6 h _ => some (.v6 h.destination)
  | .arp => none

/-- The other address of a slice: where an answer to it goes. -/
def sourceIp : InternetSlice → Option IpAddr
  | .ipv4 h _ => some (.v4 h.source)
  | .ipv6 h _ => some (.v6 h.source)
  | .arp => none

/-! ## Kinds of ICMP errors -/

/-- An ICMP error in both families. -/
structure IcmpType where
  v4 : Icmpv4Type
  v6 : Icmpv6Type
  deriving DecidableEq

/-- No peer has the destination. -/
def IcmpType.unreachableNet : IcmpType where
  v4 := .destinationUnreachable .networkUnknown
  v6 := .destinationUnreachable .noRoute

/-- The peer of the destination is not connected. -/
def IcmpType.unreachableHost : IcmpType where
  v4 := .destinationUnreachable .host
  v6 := .destinationUnreachable .address

/-- The packet does not fit the connection. -/
def IcmpType.packetTooBig (mtu : BitVec 16) : IcmpType where
  v4 := .destinationUnreachable (.fragmentationNeeded mtu)
  v6 := .packetTooBig (mtu.setWidth 32)

/-- The two halves report the same. -/
def IcmpType.Reports (icmpType : IcmpType) (kind : IcmpKind) : Prop :=
  icmpType.v4.kind = kind ∧ icmpType.v6.kind = kind

theorem IcmpType.unreachableNet_reports : unreachableNet.Reports .networkUnknown := ⟨rfl, rfl⟩

theorem IcmpType.unreachableHost_reports : unreachableHost.Reports .hostUnreachable := ⟨rfl, rfl⟩

theorem IcmpType.packetTooBig_reports (mtu : BitVec 16) :
    (packetTooBig mtu).Reports (.packetTooBig mtu.toNat) := by
  have hmtu := mtu.isLt
  have hwide : (mtu.setWidth 32).toNat = mtu.toNat := by
    rw [BitVec.toNat_setWidth]
    omega
  refine ⟨rfl, ?_⟩
  show IcmpKind.packetTooBig (mtu.setWidth 32).toNat = _
  rw [hwide]

/-! ## The gateway -/

/-- The addresses ICMP replies are sent from, one for each family. -/
structure IcmpGateway where
  ownIpv4 : Option Ipv4Addr
  ownIpv6 : Option Ipv6Addr
  deriving DecidableEq

instance : Inhabited IcmpGateway := ⟨⟨none, none⟩⟩

/-- A gateway with one address of its own. -/
def IcmpGateway.fromAddr : IpAddr → IcmpGateway
  | .v4 ip => { (default : IcmpGateway) with ownIpv4 := some ip }
  | .v6 ip => { (default : IcmpGateway) with ownIpv6 := some ip }

/-- Why there is no reply. -/
inductive ReplyError where
  /-- "Empty packet" -/
  | emptyPacket
  /-- "parsing packet IP addresses" -/
  | parsing
  /-- "building ICMPv4 packet", "building ICMPv6 packet" -/
  | building
  /-- "No address configured/available for protocol …" -/
  | noAddress
  deriving DecidableEq

/-- The header of an ICMPv4 reply, before it is completed. -/
def replyHeader (source destination : Ipv4Addr) : Ipv4Header :=
  { (default : Ipv4Header) with
    dontFragment := false, timeToLive := 64, source := source, destination := destination }

/-- Appends an ICMP reply to `originalPacket` to `buffer`, and returns the address to send it to. -/
def IcmpGateway.generateReply (rules : PacketRules) (gateway : IcmpGateway)
    (buffer originalPacket : List UInt8) (icmpType : IcmpType) :
    List UInt8 × Except ReplyError IpAddr :=
  if originalPacket = [] then (buffer, .error .emptyPacket)
  else
    let icmpPayload := originalPacket.take (min originalPacket.length 64)
    match inetSlice rules originalPacket, gateway.ownIpv4, gateway.ownIpv6 with
    | none, _, _ => (buffer, .error .parsing)
    | some (.ipv4 ip _), some own, _ =>
        match buildIcmpv4 (replyHeader own ip.source) icmpType.v4 icmpPayload with
        | some reply => (buffer ++ reply, .ok (.v4 ip.source))
        | none => (buffer, .error .building)
    | some (.ipv6 ip _), _, some own =>
        match buildIcmpv6 own ip.source 64 icmpType.v6 icmpPayload with
        | some reply => (buffer ++ reply, .ok (.v6 ip.source))
        | none => (buffer, .error .building)
    | some _, _, _ => (buffer, .error .noAddress)

/-- Whether the gateway has an address in the family of the packet. -/
def IcmpGateway.Serves (gateway : IcmpGateway) : InternetSlice → Prop
  | .ipv4 _ _ => gateway.ownIpv4.isSome
  | .ipv6 _ _ => gateway.ownIpv6.isSome
  | .arp => False

/-- `icmp_reply` of `src/main.rs`: a reply in a buffer of its own, or `none` if there is none to give.
    `send_packet` does the same in place. -/
def icmpReply (rules : PacketRules) (gateway : IcmpGateway) (packet : List UInt8)
    (icmpType : IcmpType) : Option (List UInt8) :=
  match gateway.generateReply rules [] packet icmpType with
  | (buffer, .ok _) => some buffer
  | (_, .error _) => none

/-! ## What a reply says -/

theorem inetSlice_nil (rules : PacketRules) : inetSlice rules [] = none := rfl

theorem buildIcmpv4_isSome (ip : Ipv4Header) (icmp : Icmpv4Type) {payload : List UInt8}
    (hpayload : payload.length ≤ 64) : ∃ reply, buildIcmpv4 ip icmp payload = some reply := by
  have hbounded := ip.options.bounded
  have hheader : ip.headerLen = 20 + ip.options.bytes.length := rfl
  have hfits : ¬ 65535 < ip.headerLen + (icmp.words.checked [] payload).length := by
    rw [IcmpWords.length_checked]
    omega
  exact ⟨_, if_neg hfits⟩

theorem buildIcmpv6_isSome (source destination : Ipv6Addr) (hopLimit : BitVec 8) (icmp : Icmpv6Type)
    {payload : List UInt8} (hpayload : payload.length ≤ 64) :
    ∃ reply, buildIcmpv6 source destination hopLimit icmp payload = some reply :=
  ⟨_, if_neg (show ¬ 65535 < 8 + payload.length by omega)⟩

/-- A reply is built for the packet's family, or the buffer stays as it is. -/
theorem IcmpGateway.generateReply_cases (rules : PacketRules) (gateway : IcmpGateway)
    (buffer originalPacket : List UInt8) (icmpType : IcmpType) :
    (∃ e, gateway.generateReply rules buffer originalPacket icmpType = (buffer, .error e)) ∨
    (∃ ip payload own reply, inetSlice rules originalPacket = some (.ipv4 ip payload) ∧
      gateway.ownIpv4 = some own ∧
      buildIcmpv4 (replyHeader own ip.source) icmpType.v4
        (originalPacket.take (min originalPacket.length 64)) = some reply ∧
      gateway.generateReply rules buffer originalPacket icmpType
        = (buffer ++ reply, .ok (.v4 ip.source))) ∨
    (∃ ip payload own reply, inetSlice rules originalPacket = some (.ipv6 ip payload) ∧
      gateway.ownIpv6 = some own ∧
      buildIcmpv6 own ip.source 64 icmpType.v6
        (originalPacket.take (min originalPacket.length 64)) = some reply ∧
      gateway.generateReply rules buffer originalPacket icmpType
        = (buffer ++ reply, .ok (.v6 ip.source))) := by
  unfold generateReply
  split_ifs with hempty
  · exact .inl ⟨_, rfl⟩
  dsimp only
  split
  · exact .inl ⟨_, rfl⟩
  · rename_i ip payload own hslice hown
    split
    · rename_i reply hbuild
      exact .inr (.inl ⟨ip, payload, own, reply, hslice, hown, hbuild, rfl⟩)
    · exact .inl ⟨_, rfl⟩
  · rename_i ip payload own hslice hown
    split
    · rename_i reply hbuild
      exact .inr (.inr ⟨ip, payload, own, reply, hslice, hown, hbuild, rfl⟩)
    · exact .inl ⟨_, rfl⟩
  · exact .inl ⟨_, rfl⟩

/-- A reply that was generated goes to the source of the packet it answers, and reports `kind`. -/
theorem IcmpGateway.generateReply_ok {rules : PacketRules} {gateway : IcmpGateway}
    {buffer buffer' originalPacket : List UInt8} {icmpType : IcmpType} {kind : IcmpKind}
    {addr : IpAddr}
    (hkind : icmpType.Reports kind)
    (h : gateway.generateReply rules buffer originalPacket icmpType = (buffer', .ok addr)) :
    ∃ slice reply, inetSlice rules originalPacket = some slice ∧ sourceIp slice = some addr ∧
      buffer' = buffer ++ reply ∧ readIcmpError reply = some (addr, kind) := by
  rcases gateway.generateReply_cases rules buffer originalPacket icmpType with
    ⟨e, herror⟩ | ⟨ip, payload, own, reply, hslice, -, hbuild, hok⟩ |
    ⟨ip, payload, own, reply, hslice, -, hbuild, hok⟩
  · rw [herror] at h
    simp at h
  · rw [hok] at h
    simp only [Prod.mk.injEq, Except.ok.injEq] at h
    obtain ⟨rfl, rfl⟩ := h
    refine ⟨_, reply, hslice, rfl, rfl, ?_⟩
    rw [readIcmpError_buildIcmpv4 hbuild, hkind.1]
    rfl
  · rw [hok] at h
    simp only [Prod.mk.injEq, Except.ok.injEq] at h
    obtain ⟨rfl, rfl⟩ := h
    refine ⟨_, reply, hslice, rfl, rfl, ?_⟩
    rw [readIcmpError_buildIcmpv6 hbuild, hkind.2]

/-- The reply to a minimal IPv4 UDP packet, byte for byte. -/
example :
    (IcmpGateway.fromAddr (.v4 0x08080404)).generateReply ⟨fun _ _ => true, fun _ _ => true⟩ []
      [0x45, 0x00, 0x00, 0x1c, 0x00, 0x00, 0x40, 0x00, 0x40, 0x11, 0xb8, 0x2d, 0xc0, 0xa8, 0x01,
        0x0a, 0x08, 0x08, 0x08, 0x08, 0x0b, 0xb8, 0x0b, 0xb8, 0x00, 0x08, 0x00, 0x00]
      (.packetTooBig 1400)
    = ([0x45, 0x00, 0x00, 0x38, 0x00, 0x00, 0x00, 0x00, 0x40, 0x01, 0xad, 0x07, 0x08, 0x08,
        0x04, 0x04, 0xc0, 0xa8, 0x01, 0x0a,
        0x03, 0x04, 0x90, 0xed, 0x00, 0x00, 0x05, 0x78,
        0x45, 0x00, 0x00, 0x1c, 0x00, 0x00, 0x40, 0x00, 0x40, 0x11, 0xb8, 0x2d, 0xc0, 0xa8,
        0x01, 0x0a, 0x08, 0x08, 0x08, 0x08, 0x0b, 0xb8, 0x0b, 0xb8, 0x00, 0x08, 0x00, 0x00],
      .ok (.v4 0xc0a8010a)) := by
  decide +kernel

/-- A gateway that serves the packet's family replies. -/
theorem IcmpGateway.generateReply_of_serves {rules : PacketRules} {gateway : IcmpGateway}
    {originalPacket : List UInt8} {slice : InternetSlice}
    (hslice : inetSlice rules originalPacket = some slice) (hserves : gateway.Serves slice)
    (buffer : List UInt8) (icmpType : IcmpType) :
    ∃ buffer' addr, gateway.generateReply rules buffer originalPacket icmpType
      = (buffer', .ok addr) := by
  have hne : originalPacket ≠ [] := by
    rintro rfl
    simp [inetSlice_nil] at hslice
  have hquote : (originalPacket.take (min originalPacket.length 64)).length ≤ 64 := by
    rw [List.length_take]
    omega
  unfold generateReply
  rw [if_neg hne, hslice]
  cases slice with
  | ipv4 ip payload =>
      obtain ⟨own, hown⟩ := Option.isSome_iff_exists.1 hserves
      obtain ⟨reply, hreply⟩ :=
        buildIcmpv4_isSome (replyHeader own ip.source) icmpType.v4 hquote
      simp only [hown, hreply]
      exact ⟨_, _, rfl⟩
  | ipv6 ip payload =>
      obtain ⟨own, hown⟩ := Option.isSome_iff_exists.1 hserves
      obtain ⟨reply, hreply⟩ := buildIcmpv6_isSome own ip.source 64 icmpType.v6 hquote
      simp only [hown, hreply]
      exact ⟨_, _, rfl⟩
  | arp => exact hserves.elim

theorem icmpReply_eq_some {rules : PacketRules} {gateway : IcmpGateway} {packet reply : List UInt8}
    {icmpType : IcmpType} {kind : IcmpKind} (hkind : icmpType.Reports kind)
    (h : icmpReply rules gateway packet icmpType = some reply) :
    ∃ slice source, inetSlice rules packet = some slice ∧ sourceIp slice = some source ∧
      readIcmpError reply = some (source, kind) := by
  unfold icmpReply at h
  split at h
  · rename_i buffer addr hreply
    obtain ⟨slice, appended, hslice, hsource, hbuffer, hread⟩ :=
      IcmpGateway.generateReply_ok hkind hreply
    obtain rfl : buffer = reply := Option.some.inj h
    rw [List.nil_append] at hbuffer
    exact ⟨slice, addr, hslice, hsource, hbuffer ▸ hread⟩
  · simp at h

theorem icmpReply_of_serves {rules : PacketRules} {gateway : IcmpGateway} {packet : List UInt8}
    {slice : InternetSlice} (hslice : inetSlice rules packet = some slice)
    (hserves : gateway.Serves slice) (icmpType : IcmpType) :
    ∃ reply, icmpReply rules gateway packet icmpType = some reply := by
  obtain ⟨buffer, addr, hreply⟩ := IcmpGateway.generateReply_of_serves hslice hserves [] icmpType
  exact ⟨buffer, by rw [icmpReply, hreply]⟩

end P2pVpn
