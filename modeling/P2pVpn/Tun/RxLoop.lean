import P2pVpn.Peer.Send
import P2pVpn.Session.Basic

set_option autoImplicit false

/-! # Packets from the TUN device (`tun_rx_loop` in `src/main.rs`)

One iteration of the loop takes one packet that was read from the TUN device. It hands the packet to
the resolver, to a peer's connection, or answers it with an ICMP error that is queued for the device.
Everything an iteration finds around it, the relay's map at the moment of the lookup, the connection
of the peer, room in the queue, is an input. -/

namespace P2pVpn

/-- `dns_dispatch`: the resolver's address, and `dns_stack::dns::handle_packet` on its registry. -/
structure DnsDispatch where
  serverAddr : Ipv6Addr
  handlePacket : List UInt8 → Option (List UInt8)

/-- What an iteration of `tun_rx_loop` reads. -/
structure RxContext where
  rules : PacketRules
  dnsDispatch : Option DnsDispatch
  icmpGateway : IcmpGateway
  relay : RelayState ConnectedPeer
  link : ConnectedPeer → PeerLink
  /-- Whether `tx_handle.try_send` finds room in the queue. -/
  txRoom : Bool

/-- What one iteration did: datagrams sent, with the peer, and packets queued for the TUN device. -/
structure RxEffects where
  datagrams : List (ConnectedPeer × List UInt8)
  written : List (List UInt8)

/-- The destination of a packet, as far as it can be parsed. -/
def packetDest (rules : PacketRules) (packet : List UInt8) : Option IpAddr :=
  (inetSlice rules packet).bind destinationIp

namespace RxContext

/-- `tx_handle.try_send`, if there is a packet to send. -/
def trySend (ctx : RxContext) (packet : Option (List UInt8)) : List (List UInt8) :=
  if ctx.txRoom then packet.toList else []

/-- The dispatch of a packet that is not for the resolver. -/
def dispatch (ctx : RxContext) (packet : List UInt8) : Option RxEffects :=
  match (packetDest ctx.rules packet).bind ctx.relay.get with
  | some (.connected peer) =>
      match (ctx.link peer).sendPacket ctx.rules packet with
      | none => none
      | some ⟨datagram, .ok icmpPacket⟩ =>
          some ⟨datagram.toList.map fun bytes => (peer, bytes), ctx.trySend icmpPacket⟩
      | some ⟨datagram, .error _⟩ => some ⟨datagram.toList.map fun bytes => (peer, bytes), []⟩
  | some .parked =>
      some ⟨[], ctx.trySend (icmpReply ctx.rules ctx.icmpGateway packet .unreachableHost)⟩
  | none => some ⟨[], ctx.trySend (icmpReply ctx.rules ctx.icmpGateway packet .unreachableNet)⟩

/-- One iteration of `tun_rx_loop`. `none` is a panic. -/
def tunRxIteration (ctx : RxContext) (packet : List UInt8) : Option RxEffects :=
  match ctx.dnsDispatch with
  | some dns =>
      if packetDest ctx.rules packet = some (.v6 dns.serverAddr) then
        some ⟨[], ctx.trySend (dns.handlePacket packet)⟩
      else ctx.dispatch packet
  | none => ctx.dispatch packet

/-! ## What an iteration may do -/

/-- The packet is addressed to the resolver. -/
def ForDns (ctx : RxContext) (packet : List UInt8) : Prop :=
  ∃ dns, ctx.dnsDispatch = some dns ∧ packetDest ctx.rules packet = some (.v6 dns.serverAddr)

/-- A datagram to `peer` is allowed: the relay maps the packet's destination to that peer, and the
    datagram is the packet or its marked form, no longer than the connection's limit. -/
structure MaySend (ctx : RxContext) (packet : List UInt8) (peer : ConnectedPeer)
    (bytes : List UInt8) : Prop where
  dest : ∃ dest, packetDest ctx.rules packet = some dest ∧
    ctx.relay.get dest = some (.connected peer)
  notDns : ¬ ctx.ForDns packet
  limit : ∀ m, (ctx.link peer).maxDatagramSize = some m → bytes.length ≤ m
  bytes : bytes = packet ∨ processPacketCongestion ctx.rules packet = some (bytes, .forward)

/-- An ICMP error of the right kind for where the packet wanted to go. -/
structure RightKind (ctx : RxContext) (packet : List UInt8) (dest : IpAddr) (kind : IcmpKind) :
    Prop where
  packetTooBig : (∃ mtu, kind = .packetTooBig mtu) ↔
    ∃ peer, ctx.relay.get dest = some (.connected peer) ∧ (ctx.link peer).TooLong packet
  mtu : ∀ mtu peer m, kind = .packetTooBig mtu → ctx.relay.get dest = some (.connected peer) →
    (ctx.link peer).maxDatagramSize = some m → mtu ≤ m
  hostUnreachable : kind = .hostUnreachable ↔ ctx.relay.get dest = some .parked
  networkUnknown : kind = .networkUnknown ↔ ctx.relay.get dest = none

/-- A packet written back is an ICMP error to the source of the packet that was read. -/
def Answers (ctx : RxContext) (packet reply : List UInt8) : Prop :=
  ∃ slice source dest kind, inetSlice ctx.rules packet = some slice ∧
    sourceIp slice = some source ∧ destinationIp slice = some dest ∧
    readIcmpError reply = some (source, kind) ∧ ctx.RightKind packet dest kind

/-- The gateway that answers the packet, if one has to: the peer's for a packet too long for its
    connection, otherwise the node's for a destination without a connected peer. -/
def ReplyDue (ctx : RxContext) (packet : List UInt8) (dest : IpAddr) (gateway : IcmpGateway) : Prop :=
  (∃ peer, ctx.relay.get dest = some (.connected peer) ∧ (ctx.link peer).TooLong packet ∧
    gateway = (ctx.link peer).icmpGateway) ∨
  ((ctx.relay.get dest = some .parked ∨ ctx.relay.get dest = none) ∧ gateway = ctx.icmpGateway)

/-- What an iteration may do with a packet, and what it must do. -/
structure Dispatched (ctx : RxContext) (packet : List UInt8) (effects : RxEffects) : Prop where
  /-- One datagram, one packet written, or nothing. -/
  single : effects.datagrams.length + effects.written.length ≤ 1
  sent : ∀ peer bytes, (peer, bytes) ∈ effects.datagrams → ctx.MaySend packet peer bytes
  silent : (packetDest ctx.rules packet = none ∨ ∃ dest, packetDest ctx.rules packet = some dest ∧
      (ctx.relay.get dest = some .parked ∨ ctx.relay.get dest = none)) →
    effects.datagrams = []
  answered : ¬ ctx.ForDns packet → ∀ reply ∈ effects.written, ctx.Answers packet reply
  /-- An answer that is due is written, if the gateway has an address and the queue has room. -/
  due : ¬ ctx.ForDns packet → ∀ slice dest gateway, inetSlice ctx.rules packet = some slice →
    destinationIp slice = some dest → ctx.ReplyDue packet dest gateway → gateway.Serves slice →
    ctx.txRoom = true → effects.written ≠ []

/-! ## Replies -/

theorem length_trySend_le (ctx : RxContext) (packet : Option (List UInt8)) :
    (ctx.trySend packet).length ≤ 1 := by
  unfold trySend
  split_ifs
  · cases packet <;> simp
  · simp

theorem eq_some_of_mem_trySend {ctx : RxContext} {packet : Option (List UInt8)} {reply : List UInt8}
    (h : reply ∈ ctx.trySend packet) : packet = some reply := by
  unfold trySend at h
  split_ifs at h
  · exact Option.mem_toList.1 h
  · simp at h

theorem trySend_ne_nil {ctx : RxContext} (hroom : ctx.txRoom = true) (reply : List UInt8) :
    ctx.trySend (some reply) ≠ [] := by
  simp [trySend, hroom]

theorem exists_destinationIp {rules : PacketRules} {packet : List UInt8} {slice : InternetSlice}
    (h : inetSlice rules packet = some slice) : ∃ dest, destinationIp slice = some dest := by
  unfold inetSlice at h
  split at h
  · split_ifs at h
    split at h
    · obtain rfl := Option.some.inj h
      exact ⟨_, rfl⟩
    · obtain rfl := Option.some.inj h
      exact ⟨_, rfl⟩
  · simp at h

/-- Answering with the ICMP error that suits the destination is what has to be done. -/
theorem dispatched_reply {ctx : RxContext} {packet : List UInt8} {gateway : IcmpGateway}
    {icmpType : IcmpType} {kind : IcmpKind} (hreports : icmpType.Reports kind)
    (hkind : ∀ dest, packetDest ctx.rules packet = some dest → ctx.RightKind packet dest kind)
    (hgateway : ∀ dest due, packetDest ctx.rules packet = some dest →
      ctx.ReplyDue packet dest due → due = gateway) :
    ctx.Dispatched packet
      ⟨[], ctx.trySend (icmpReply ctx.rules gateway packet icmpType)⟩ where
  single := by
    simpa using ctx.length_trySend_le (icmpReply ctx.rules gateway packet icmpType)
  sent := by
    intro peer bytes hmem
    simp at hmem
  silent := fun _ => rfl
  answered := by
    intro _ reply hreply
    obtain ⟨slice, source, hslice, hsource, hread⟩ :=
      icmpReply_eq_some hreports (eq_some_of_mem_trySend hreply)
    obtain ⟨dest, hdest⟩ := exists_destinationIp hslice
    have hpacket : packetDest ctx.rules packet = some dest := by
      rw [packetDest, hslice, Option.bind_some, hdest]
    exact ⟨slice, source, dest, kind, hslice, hsource, hdest, hread, hkind dest hpacket⟩
  due := by
    intro _ slice dest due hslice hdest hdue hserves hroom
    have hpacket : packetDest ctx.rules packet = some dest := by
      rw [packetDest, hslice, Option.bind_some, hdest]
    obtain rfl := hgateway dest due hpacket hdue
    obtain ⟨reply, hreply⟩ := icmpReply_of_serves hslice hserves icmpType
    show ctx.trySend _ ≠ []
    rw [hreply]
    exact trySend_ne_nil hroom reply

/-! ## The three outcomes of a lookup -/

/-- The relay has no connection for the destination: parked, unknown or unparseable. -/
theorem dispatched_offline {ctx : RxContext} {packet : List UInt8} {icmpType : IcmpType}
    {kind : IcmpKind} {dispatch : Option (Dispatch ConnectedPeer)}
    (hreports : icmpType.Reports kind)
    (hget : (packetDest ctx.rules packet).bind ctx.relay.get = dispatch)
    (hcase : (dispatch = some .parked ∧ kind = .hostUnreachable) ∨
      (dispatch = none ∧ kind = .networkUnknown)) :
    ctx.Dispatched packet
      ⟨[], ctx.trySend (icmpReply ctx.rules ctx.icmpGateway packet icmpType)⟩ := by
  have hget' : ∀ dest, packetDest ctx.rules packet = some dest →
      ctx.relay.get dest = dispatch := by
    intro dest hdest
    rw [← hget, hdest, Option.bind_some]
  refine dispatched_reply hreports (?_) ?_
  · intro dest hdest
    have hdispatch := hget' dest hdest
    rcases hcase with ⟨rfl, rfl⟩ | ⟨rfl, rfl⟩ <;>
      exact ⟨by simp [hdispatch], by simp, by simp [hdispatch], by simp [hdispatch]⟩
  · intro dest due hdest hdue
    rcases hdue with ⟨peer, hpeer, -, -⟩ | ⟨-, rfl⟩
    · rw [hget' dest hdest] at hpeer
      rcases hcase with ⟨rfl, -⟩ | ⟨rfl, -⟩ <;> simp at hpeer
    · rfl

/-- The destination is connected, and the packet is too long for the connection. -/
theorem dispatched_tooLong {ctx : RxContext} {packet : List UInt8} {peer : ConnectedPeer} {m : Nat}
    {mtu : BitVec 16}
    (hget : (packetDest ctx.rules packet).bind ctx.relay.get = some (.connected peer))
    (hmax : (ctx.link peer).maxDatagramSize = some m) (hlong : m < packet.length)
    (hmtu : mtu.toNat ≤ m) :
    ctx.Dispatched packet ⟨[], ctx.trySend
      (icmpReply ctx.rules (ctx.link peer).icmpGateway packet (.packetTooBig mtu))⟩ := by
  have hget' : ∀ dest, packetDest ctx.rules packet = some dest →
      ctx.relay.get dest = some (.connected peer) := by
    intro dest hdest
    rw [← hget, hdest, Option.bind_some]
  refine dispatched_reply (IcmpType.packetTooBig_reports mtu) (?_)
    ?_
  · intro dest hdest
    have hconnected := hget' dest hdest
    refine ⟨⟨fun _ => ⟨peer, hconnected, m, hmax, hlong⟩, fun _ => ⟨_, rfl⟩⟩, ?_,
      by simp [hconnected], by simp [hconnected]⟩
    intro mtu' peer' m' hkind hpeer' hmax'
    rw [hconnected] at hpeer'
    obtain rfl : peer = peer' := by simpa using hpeer'
    obtain rfl : m = m' := by simpa [hmax] using hmax'
    obtain rfl : mtu.toNat = mtu' := by simpa using hkind
    exact hmtu
  · intro dest due hdest hdue
    have hconnected := hget' dest hdest
    rcases hdue with ⟨peer', hpeer', -, rfl⟩ | ⟨hoff | hoff, -⟩
    · obtain rfl : peer = peer' := by simpa [hconnected] using hpeer'
      rfl
    · simp [hconnected] at hoff
    · simp [hconnected] at hoff

/-- The destination is connected, and the packet fits. -/
theorem dispatched_sent {ctx : RxContext} {packet : List UInt8} {peer : ConnectedPeer}
    {outcome : SendOutcome} (hdns : ¬ ctx.ForDns packet)
    (hget : (packetDest ctx.rules packet).bind ctx.relay.get = some (.connected peer))
    (hfits : ¬ (ctx.link peer).TooLong packet) (hsent : SentAs ctx.rules packet outcome) :
    ctx.Dispatched packet ⟨outcome.datagram.toList.map fun bytes => (peer, bytes), []⟩ := by
  obtain ⟨dest, hdest, hconnected⟩ := Option.bind_eq_some_iff.1 hget
  refine
    { single := ?_
      sent := ?_
      silent := ?_
      answered := by simp
      due := ?_ }
  · cases outcome.datagram <;> simp
  · intro peer' bytes hmem
    simp only [List.mem_map, Option.mem_toList, Prod.mk.injEq] at hmem
    obtain ⟨bytes, hbytes, rfl, rfl⟩ := hmem
    refine ⟨⟨dest, hdest, hconnected⟩, hdns, ?_, hsent.bytes _ hbytes⟩
    intro m hm
    rw [hsent.length _ hbytes]
    by_contra hlong
    exact hfits ⟨m, hm, by omega⟩
  · rintro (hnone | ⟨dest', hdest', hoff⟩)
    · simp [hdest] at hnone
    · obtain rfl : dest = dest' := by simpa [hdest] using hdest'
      simp [hconnected] at hoff
  · intro _ slice dest' gateway hslice hdest' hdue
    obtain rfl : dest = dest' := by simpa [packetDest, hslice, hdest'] using hdest.symm
    rcases hdue with ⟨peer', hpeer', hlong, -⟩ | ⟨hoff | hoff, -⟩
    · obtain rfl : peer = peer' := by simpa [hconnected] using hpeer'
      exact absurd hlong hfits
    · simp [hconnected] at hoff
    · simp [hconnected] at hoff

theorem dispatch_dispatched (ctx : RxContext) (packet : List UInt8) (hdns : ¬ ctx.ForDns packet) :
    ∃ effects, ctx.dispatch packet = some effects ∧ ctx.Dispatched packet effects := by
  unfold dispatch
  cases hget : (packetDest ctx.rules packet).bind ctx.relay.get with
  | none =>
      exact ⟨_, rfl, dispatched_offline IcmpType.unreachableNet_reports hget (.inr ⟨rfl, rfl⟩)⟩
  | some found =>
      cases found with
      | parked =>
          exact ⟨_, rfl, dispatched_offline IcmpType.unreachableHost_reports hget (.inl ⟨rfl, rfl⟩)⟩
      | connected peer =>
          obtain ⟨⟨datagram, result⟩, hsend, hcases⟩ :=
            (ctx.link peer).sendPacket_cases ctx.rules packet
          dsimp only
          rw [hsend]
          rcases hcases with ⟨m, mtu, hmax, hlong, hmtu, hnone, hreply⟩ | ⟨hfits, hsent⟩
          · obtain rfl : datagram = none := hnone
            obtain rfl := hreply
            exact ⟨_, rfl, dispatched_tooLong hget hmax hlong hmtu⟩
          · have hdispatched := dispatched_sent hdns hget hfits hsent
            cases result with
            | error e => exact ⟨_, rfl, hdispatched⟩
            | ok icmpPacket =>
                cases icmpPacket with
                | some reply => exact absurd rfl (hsent.noReply reply)
                | none =>
                    refine ⟨_, rfl, ?_⟩
                    have hwritten : ctx.trySend none = [] := by simp [trySend]
                    rw [hwritten]
                    exact hdispatched

/-- A packet for the resolver goes nowhere else. -/
theorem dispatched_dns {ctx : RxContext} {packet : List UInt8} (hdns : ctx.ForDns packet)
    (reply : Option (List UInt8)) : ctx.Dispatched packet ⟨[], ctx.trySend reply⟩ where
  single := by simpa using ctx.length_trySend_le reply
  sent := by
    intro peer bytes hmem
    simp at hmem
  silent := fun _ => rfl
  answered := fun hnot => absurd hdns hnot
  due := fun hnot => absurd hdns hnot

/-- **Every packet read from the TUN device is dispatched as specified**, whatever its bytes, the
    relay's state, the resolver, the connections and the queue. -/
theorem tunRxIteration_dispatched (ctx : RxContext) (packet : List UInt8) :
    ∃ effects, ctx.tunRxIteration packet = some effects ∧ ctx.Dispatched packet effects := by
  unfold tunRxIteration
  cases hdispatch : ctx.dnsDispatch with
  | none =>
      refine ctx.dispatch_dispatched packet ?_
      rintro ⟨dns, hdns, -⟩
      simp [hdispatch] at hdns
  | some dns =>
      dsimp only
      split_ifs with hdest
      · exact ⟨_, rfl, dispatched_dns ⟨dns, hdispatch, hdest⟩ _⟩
      · refine ctx.dispatch_dispatched packet ?_
        rintro ⟨dns', hdns', hdest'⟩
        obtain rfl : dns = dns' := by simpa [hdispatch] using hdns'
        exact hdest hdest'

end RxContext

end P2pVpn
