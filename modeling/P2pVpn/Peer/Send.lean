import P2pVpn.Route.Ecn
import P2pVpn.Tun.Packet

set_option autoImplicit false

/-! # Sending a packet to a peer (`Peer::send_packet` in `src/peer.rs`) -/

namespace P2pVpn

/-- Why QUIC did not take a datagram. -/
inductive SendDatagramError where
  | unsupportedByPeer
  | disabled
  | tooLarge
  | connectionLost
  deriving DecidableEq

/-- What `send_packet` finds at the peer and its connection. -/
structure PeerLink where
  /-- From the peer's `CommonPeerConfig`. -/
  icmpGateway : IcmpGateway
  maxDatagramSize : Option Nat
  /-- The decision of `linear_aqm` for the current fill of the send buffer. -/
  linearAqm : Bool
  /-- What `send_datagram` returns. -/
  sendDatagram : Except SendDatagramError Unit

/-- What `send_packet` sent, and what it returned. -/
structure SendOutcome where
  datagram : Option (List UInt8)
  result : Except SendDatagramError (Option (List UInt8))

/-- `conn.send_datagram(packet)`, and the end of `send_packet`. -/
def PeerLink.transmit (link : PeerLink) (packet : List UInt8) : SendOutcome :=
  match link.sendDatagram with
  | .ok () => ⟨some packet, .ok none⟩
  | .error e => ⟨none, .error e⟩

/-- What is left to do for a packet that is not too long. -/
def PeerLink.enqueue (rules : PacketRules) (link : PeerLink) (packet : List UInt8) :
    Option SendOutcome :=
  if link.linearAqm then some (link.transmit packet)
  else
    match processPacketCongestion rules packet with
    | none => none
    | some (_, .drop) => some ⟨none, .ok none⟩
    | some (marked, .forward) => some (link.transmit marked)

/-- Sends the packet, or returns an ICMP packet for its sender. `none` is a panic. -/
def PeerLink.sendPacket (rules : PacketRules) (link : PeerLink) (packet : List UInt8) :
    Option SendOutcome :=
  match link.maxDatagramSize with
  | some mtu =>
      if mtu < packet.length then
        -- the reported MTU is saturated to 16 bits
        let mtu := BitVec.ofNat 16 (min mtu 65535)
        some ⟨none, .ok (icmpReply rules link.icmpGateway packet (.packetTooBig mtu))⟩
      else link.enqueue rules packet
  | none => link.enqueue rules packet

/-- A packet that is not too long is sent as it is or marked, or not at all; there is no ICMP reply. -/
structure SentAs (rules : PacketRules) (packet : List UInt8) (outcome : SendOutcome) : Prop where
  noReply : ∀ reply, outcome.result ≠ .ok (some reply)
  length : ∀ bytes ∈ outcome.datagram, bytes.length = packet.length
  bytes : ∀ bytes ∈ outcome.datagram,
    bytes = packet ∨ processPacketCongestion rules packet = some (bytes, .forward)

theorem PeerLink.transmit_sentAs {rules : PacketRules} {packet bytes : List UInt8} (link : PeerLink)
    (hlength : bytes.length = packet.length)
    (hbytes : bytes = packet ∨ processPacketCongestion rules packet = some (bytes, .forward)) :
    SentAs rules packet (link.transmit bytes) := by
  unfold transmit
  split
  · exact
      { noReply := by simp
        length := by
          intro b hb
          obtain rfl := Option.mem_some_iff.1 hb
          exact hlength
        bytes := by
          intro b hb
          obtain rfl := Option.mem_some_iff.1 hb
          exact hbytes }
  · exact ⟨by simp, by simp, by simp⟩

theorem PeerLink.enqueue_sentAs (rules : PacketRules) (link : PeerLink) (packet : List UInt8) :
    ∃ outcome, link.enqueue rules packet = some outcome ∧ SentAs rules packet outcome := by
  unfold enqueue
  split_ifs with haqm
  · exact ⟨_, rfl, link.transmit_sentAs rfl (.inl rfl)⟩
  · obtain ⟨marked, action, hprocess, hlength⟩ := processPacketCongestion_length rules packet
    rw [hprocess]
    cases action with
    | forward => exact ⟨_, rfl, link.transmit_sentAs hlength (.inr hprocess)⟩
    | drop => exact ⟨_, rfl, by simp, by simp, by simp⟩

/-- The packet is longer than the connection's limit. -/
def PeerLink.TooLong (link : PeerLink) (packet : List UInt8) : Prop :=
  ∃ m, link.maxDatagramSize = some m ∧ m < packet.length

/-- **What `send_packet` does**: it answers a packet that is too long with packet-too-big, and sends
    any other at the length it has, if at all. It does not panic. -/
theorem PeerLink.sendPacket_cases (rules : PacketRules) (link : PeerLink) (packet : List UInt8) :
    ∃ outcome, link.sendPacket rules packet = some outcome ∧
      ((∃ m mtu, link.maxDatagramSize = some m ∧ m < packet.length ∧ mtu.toNat ≤ m ∧
          outcome.datagram = none ∧
          outcome.result = .ok (icmpReply rules link.icmpGateway packet (.packetTooBig mtu))) ∨
        (¬ link.TooLong packet ∧ SentAs rules packet outcome)) := by
  unfold sendPacket
  cases hmax : link.maxDatagramSize with
  | none =>
      obtain ⟨outcome, houtcome, hsent⟩ := link.enqueue_sentAs rules packet
      refine ⟨outcome, houtcome, .inr ⟨?_, hsent⟩⟩
      rintro ⟨m, hm, -⟩
      simp [hmax] at hm
  | some m =>
      dsimp only
      split_ifs with hlong
      · have hmtu : (BitVec.ofNat 16 (min m 65535)).toNat ≤ m := by
          rw [BitVec.toNat_ofNat]
          omega
        exact ⟨_, rfl, .inl ⟨m, _, rfl, hlong, hmtu, rfl, rfl⟩⟩
      · obtain ⟨outcome, houtcome, hsent⟩ := link.enqueue_sentAs rules packet
        refine ⟨outcome, houtcome, .inr ⟨?_, hsent⟩⟩
        rintro ⟨m', hm', hlong'⟩
        rw [hmax] at hm'
        obtain rfl := Option.some.inj hm'
        exact hlong hlong'

end P2pVpn
