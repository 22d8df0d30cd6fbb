import P2pVpn.Peer.Proofs
import P2pVpn.Process.Flow
import P2pVpn.Session.Granted

set_option autoImplicit false

/-! # What may be on the wire

A datagram that leaves the process is a frame of the device, as it was read or with its congestion
mark. It goes to a peer whose handshake returned the frame's destination, because the request the peer
sent in it carries a signature of the peer's key for that address. -/

namespace P2pVpn

/-! ## Grants -/

/-- The node's part in `Node.Grants`. -/
def Process.Grants (G : ConnectedPeer → IpAddr → Prop) (s : Process) : ProcessAction → Prop
  | .node a => s.node.Grants G a
  | _ => True

/-- The datagram is the frame or its marked form, and its peer has the frame's destination. -/
structure Conveys (cfg : ProcessConfig) (G : ConnectedPeer → IpAddr → Prop)
    (datagram : ConnectedPeer × List UInt8) (frame : List UInt8) : Prop where
  dest : ∃ ip, packetDest cfg.rules frame = some ip ∧ G datagram.1 ip
  /-- Packets for the resolver stay in the process. -/
  notDns : ∀ addr, cfg.dnsServerAddr = some addr → packetDest cfg.rules frame ≠ some (.v6 addr)
  bytes : datagram.2 = frame ∨ processPacketCongestion cfg.rules frame = some (datagram.2, .forward)

section

variable {cfg : ProcessConfig} {G : ConnectedPeer → IpAddr → Prop} {s s' : Process}
  {a : ProcessAction} {acts : List ProcessAction}

theorem ProcessStep.granted (hstep : ProcessStep cfg s a s') (h : s.node.Granted G)
    (hgrants : s.Grants G a) : s'.node.Granted G := by
  cases hstep with
  | node hnode hhand => exact h.step hgrants hnode
  | @datagramRefused i bytes node hhand hclosed hnode =>
      have hnothing : s.node.Grants G (.session i (.recvLoopEnded .txPacket)) := trivial
      exact h.step hnothing hnode
  | _ => exact h

namespace Process

/-- A datagram handed to QUIC is about the packet of the iteration. -/
theorem conveys_of_datagramSent (h : s.node.Granted G) {datagram : ConnectedPeer × List UInt8}
    (hsent : s.datagramSent cfg a = some datagram) :
    ∃ packet, s.dispatched a = some packet ∧ Conveys cfg G datagram packet := by
  cases a with
  | iterate env =>
      cases hloop : s.rxLoop with
      | handling slot =>
          simp only [datagramSent, hloop] at hsent
          obtain ⟨effects, heffects, hhead⟩ := Option.bind_eq_some_iff.1 hsent
          refine ⟨s.bytesAt slot, by simp [dispatched, hloop], ?_⟩
          obtain ⟨effects', heffects', hmay⟩ :=
            (s.rxContext cfg env).exists_tunRxIteration (s.bytesAt slot)
          obtain rfl := Option.some.inj (heffects.symm.trans heffects')
          have hsend := hmay datagram.1 datagram.2 hhead
          obtain ⟨dest, hdest, hget⟩ := hsend.dest
          refine ⟨⟨dest, hdest, h.of_get hget⟩, ?_, hsend.bytes⟩
          intro addr haddr hpacket
          exact hsend.notDns ⟨⟨addr, env.handleDns⟩, by simp [rxContext, haddr], hpacket⟩
      | receiving => simp [datagramSent, hloop] at hsent
      | ended => simp [datagramSent, hloop] at hsent
  | _ => simp [datagramSent] at hsent

/-- The datagrams of a run go back to frames of the device. -/
theorem datagramSent_conveys (hnew : Process.new cfg = some s)
    (hrun : runFrom (Process.step cfg) s acts = some s')
    (hgrants : RunMeets (Process.step cfg) (Grants G) s acts) :
    List.SublistForall₂ (Conveys cfg G) (trace (Process.step cfg) (datagramSent cfg) s acts)
      (trace (Process.step cfg) frameRead s acts) := by
  have hI : ∀ (t : Process) a t', t.node.Granted G → t.Grants G a → t.step cfg a = some t' →
      t'.node.Granted G := fun _ _ _ h hg hs => (step_sound hs).2.granted h hg
  have h0 : s.node.Granted G := by
    obtain ⟨pool, -, rfl⟩ := Option.map_eq_some_iff.1 hnew
    exact .new cfg.node
  have hsent : ∀ (t : Process) a t' datagram, t.node.Granted G → t.Grants G a →
      t.step cfg a = some t' → t.datagramSent cfg a = some datagram →
      ∃ packet, t.dispatched a = some packet ∧ Conveys cfg G datagram packet :=
    fun _ _ _ _ h _ _ hout => conveys_of_datagramSent h hout
  have hdispatched := trace_sublistForall₂ hI hsent h0 hgrants hrun
  obtain ⟨packets, hforall, hsub⟩ := List.sublistForall₂_iff.1 hdispatched
  -- what has been dispatched was read
  obtain ⟨lost, hframes, -⟩ := (Held.new hnew).inbound_flow hrun
  rw [inbound_new hnew, List.nil_append, List.append_assoc] at hframes
  rw [hframes]
  exact List.sublistForall₂_iff.2 ⟨packets, hforall, hsub.trans (List.sublist_append_left _ _)⟩

end Process

/-! ## Signed addresses -/

/-- The connection of a handshake that succeeds, and the routes it returns. -/
def Process.shaken (s : Process) : ProcessAction → Option (Nat × RoutesChanged)
  | .node (.session i (.handshake (.ok changed))) =>
      match (s.node.sessions i).phase with
      | .handshaking conn => some (conn, changed)
      | _ => none
  | _ => none

variable {SecretKey PublicKey Signature : Type}

/-- The request has an entry for the address: a network inside the VPN's range, with a signature of it
    that the key verifies. -/
def ControlRequest.Presents (L : Library SecretKey PublicKey Signature) (key : PublicKey)
    (request : ControlRequest) (ip : IpAddr) : Prop :=
  ∃ advertise host net signature, request.command = some advertise ∧ host ∈ advertise.ownAddresses ∧
    L.parseNet host.peerNetwork = some (.v6 net) ∧ ip = .v6 net.addr ∧
    VPN_IPV6_DEFAULT_ALLOWED.contains net = true ∧
    L.scheme.tryFrom host.peerNetworkSignature = some signature ∧
    verifySignedIpnet L.scheme (.v6 net) key signature = .ok ()

/-- The routes of a handshake are what `handle_control_request` makes of a request that was received
    on its connection, whose remote end has the key `remoteId` says. -/
def Process.RoutesAccepted (L : Library SecretKey PublicKey Signature) (gateway : IcmpGateway)
    (remoteId : Nat → PublicKey) (Received : Nat → ControlRequest → Prop) (s : Process)
    (a : ProcessAction) : Prop :=
  ∀ conn changed, s.shaken a = some (conn, changed) → ∃ request, Received conn request ∧
    (handleControlRequest L (.new gateway) (remoteId conn) request).result = .ok (some changed)

theorem presents_of_accepted {L : Library SecretKey PublicKey Signature} {gateway : IcmpGateway}
    {key : PublicKey} {request : ControlRequest} {changed : RoutesChanged}
    (h : (handleControlRequest L (.new gateway) key request).result = .ok (some changed)) :
    ∀ ip ∈ changed.routes, request.Presents L key ip := by
  intro ip hip
  obtain ⟨advertise, hcommand, -, hroutes⟩ := (handleControlRequest_ok_iff L _ _ _ _).1 h
  rw [hroutes] at hip
  obtain ⟨net, hnet, rfl⟩ := List.mem_map.1 hip
  obtain ⟨host, hhost, hvalid, hsubnet⟩ := (mem_validateAddresses_iff L _ _ _ _).1 hnet
  obtain ⟨n, rfl, hallowed⟩ := (isSubnetOfAny_default _ gateway).1 hsubnet
  obtain ⟨hparse, signature, hsignature, hverify⟩ := (validateAddress_ok_iff L _ _ _).1 hvalid
  exact ⟨advertise, host, n, signature, hcommand, hhost, hparse, rfl, hallowed, hsignature, hverify⟩

namespace Process

/-- In the run, a handshake on the peer's connection returned the address, and a request received on
    that connection presents it. -/
def Earned (cfg : ProcessConfig) (L : Library SecretKey PublicKey Signature)
    (remoteId : Nat → PublicKey) (Received : Nat → ControlRequest → Prop) (s : Process)
    (acts : List ProcessAction) (peer : ConnectedPeer) (ip : IpAddr) : Prop :=
  ∃ changed request, (peer.conn, changed) ∈ trace (Process.step cfg) shaken s acts ∧
    ip ∈ changed.routes ∧ Received peer.conn request ∧
    request.Presents L (remoteId peer.conn) ip

/-- A handshake of a run grants what a request on its connection presents. -/
theorem runMeets_grants {L : Library SecretKey PublicKey Signature} {gateway : IcmpGateway}
    {remoteId : Nat → PublicKey} {Received : Nat → ControlRequest → Prop}
    (haccepted : RunMeets (Process.step cfg) (RoutesAccepted L gateway remoteId Received) s acts) :
    RunMeets (Process.step cfg) (Grants (Earned cfg L remoteId Received s acts)) s acts := by
  refine (haccepted.and (runMeets_mem_trace shaken s acts)).mono ?_
  rintro t b ⟨hrequest, hmem⟩
  unfold Grants
  split
  · next na =>
      unfold Node.Grants
      split
      · next i changed =>
          intro conn hphase ip hip
          have hshaken : t.shaken (.node (.session i (.handshake (.ok changed))))
              = some (conn, changed) := by simp [shaken, hphase]
          obtain ⟨request, hreceived, hresult⟩ := hrequest conn changed hshaken
          exact ⟨changed, request, hmem _ hshaken, hip, hreceived, presents_of_accepted hresult ip hip⟩
      · trivial
  · trivial

/-- **Only to those who presented a signature for it.** Whatever the peers, the OS, the device and QUIC
    do: what is on the wire was handed to QUIC as it is, and each datagram handed to QUIC is another
    frame of the device, in order, unchanged or with its congestion mark. The frame's destination is
    among the routes that a handshake on the datagram's connection returned in the run, and a request
    received on that connection presents it. As every beginning of a run is a run, that handshake comes
    before the datagram. -/
theorem wire_carries_signed {L : Library SecretKey PublicKey Signature} {gateway : IcmpGateway}
    {remoteId : Nat → PublicKey} {Received : Nat → ControlRequest → Prop}
    (hnew : Process.new cfg = some s) (hrun : runFrom (Process.step cfg) s acts = some s')
    (haccepted : RunMeets (Process.step cfg) (RoutesAccepted L gateway remoteId Received) s acts) :
    (trace (Process.step cfg) transmitted s acts ++ s'.queued).Subperm
        (trace (Process.step cfg) (datagramSent cfg) s acts) ∧
      List.SublistForall₂ (Conveys cfg (Earned cfg L remoteId Received s acts))
        (trace (Process.step cfg) (datagramSent cfg) s acts)
        (trace (Process.step cfg) frameRead s acts) :=
  ⟨transmitted_as_sent hnew hrun, datagramSent_conveys hnew hrun (runMeets_grants haccepted)⟩

/-- From fd00::2 to the address key 7 generates in subnet 0. -/
def signedPacket : List UInt8 :=
  [0x60, 0, 0, 0, 0, 0, 59, 64] ++ [0xfd, 0, 0, 0, 0, 0, 0, 0, 0, 0, 0, 0, 0, 0, 0, 2] ++
    [0xfd, 0xbd, 0xa6, 0xce, 0x65, 0x4d, 0, 0, 0x65, 0xce, 0xa6, 0xbd, 0xfd, 0x40, 0x11, 0x07]

/-- On every connection, key 7 advertises the address it generates in subnet 0. -/
def SampleReceived (_ : Nat) (request : ControlRequest) : Prop :=
  request = ⟨some (ownAdvertise (transparentLibrary sampleText sampleNet) 0 7)⟩

theorem routesAccepted_sampleSend (s : Process) :
    RunMeets (Process.step .sample)
      (RoutesAccepted (transparentLibrary sampleText sampleNet) default (fun _ => 7) SampleReceived) s
      (sampleSend sampleNet.addr signedPacket) := by
  have haccepted : (handleControlRequest (transparentLibrary sampleText sampleNet) (.new default)
      7 ⟨some (ownAdvertise (transparentLibrary sampleText sampleNet) 0 7)⟩).result
      = .ok (some ⟨[sampleNet.addr]⟩) := by decide
  refine RunMeets.of_forall s _ ?_
  simp only [sampleSend, sampleRead, List.map_cons, List.map_nil, List.cons_append, List.nil_append,
    List.forall_mem_cons, RoutesAccepted]
  refine ⟨fun _ => by simp [shaken], fun t conn changed hshaken => ⟨_, rfl, ?_⟩, by simp [shaken]⟩
  simp only [shaken] at hshaken
  split at hshaken
  · obtain ⟨-, rfl⟩ := Prod.mk.inj (Option.some.inj hshaken)
    exact haccepted
  · exact absurd hshaken (by simp)

set_option maxRecDepth 20000 in
theorem wire_carries_signed_sample :
    ∃ s s', Process.new .sample = some s ∧
      runFrom (Process.step .sample) s (sampleSend sampleNet.addr signedPacket) = some s' ∧
      trace (Process.step .sample) transmitted s (sampleSend sampleNet.addr signedPacket)
        = [(⟨7⟩, signedPacket)] ∧
      Earned .sample (transparentLibrary sampleText sampleNet) (fun _ => 7) SampleReceived s
        (sampleSend sampleNet.addr signedPacket) ⟨7⟩ sampleNet.addr := by
  have hall : (Process.new .sample).any (fun s => decide
      (((runFrom (Process.step .sample) s (sampleSend sampleNet.addr signedPacket)).isSome = true) ∧
        trace (Process.step .sample) transmitted s (sampleSend sampleNet.addr signedPacket)
          = [(⟨7⟩, signedPacket)] ∧
        trace (Process.step .sample) (datagramSent .sample) s
          (sampleSend sampleNet.addr signedPacket) = [(⟨7⟩, signedPacket)] ∧
        trace (Process.step .sample) frameRead s (sampleSend sampleNet.addr signedPacket)
          = [signedPacket])) = true := by
    decide +kernel
  obtain ⟨s, hnew, hsome, hwire, hsent, hread⟩ := exists_of_any hall
  obtain ⟨s', hrun⟩ := Option.isSome_iff_exists.1 hsome
  obtain ⟨-, hconveys⟩ := wire_carries_signed hnew hrun (routesAccepted_sampleSend s)
  rw [hsent, hread] at hconveys
  refine ⟨s, s', hnew, hrun, hwire, ?_⟩
  cases hconveys with
  | cons hconveys _ =>
      obtain ⟨ip, hip, hearned⟩ := hconveys.dest
      have hdest : packetDest .lenient signedPacket = some sampleNet.addr := by decide
      obtain rfl := Option.some.inj (hdest.symm.trans hip)
      exact hearned
  | cons_right hnil => cases hnil

end Process

end

end P2pVpn
