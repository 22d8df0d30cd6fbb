import P2pVpn.Lib.Flow
import P2pVpn.Process.Progress

set_option autoImplicit false

/-! # What passes through the process

From the device to QUIC a packet stays in the buffer it was read into, and buffers are used again and
again; nevertheless every frame reaches `tun_rx_loop` once, in order and as it was read, and what QUIC
puts on the wire is what the loop handed to it. The other way, the datagrams of a session reach the
device in order. -/

namespace P2pVpn

/-- The packet the reading task is sending on. -/
def TunLoop.sending : TunLoop → List Nat
  | .running (.sending slot) _ => [slot]
  | _ => []

/-- The buffer the device reads into. -/
def TunLoop.reading : TunLoop → List Nat
  | .running (.reading slot) _ => [slot]
  | _ => []

namespace Process

/-- The device's loop has not ended. -/
def Running (s : Process) : Prop := ∃ rx tx, s.tun = .running rx tx

/-- Packets on their way to `tun_rx_loop`, the first one first. -/
def packets (s : Process) : List Nat := s.rxLoop.slots ++ s.rxQueue.queue ++ s.tun.sending

/-- What is in them. -/
def inbound (s : Process) : List (List UInt8) := s.packets.map s.bytesAt

/-- What is in the datagrams QUIC has taken. -/
def queued (s : Process) : List (ConnectedPeer × List UInt8) :=
  s.quic.map fun d => (d.peer, s.bytesAt d.slot)

/-! ## Buffers that stay where they are -/

/-- A buffer that is a packet's before and after, or a datagram's, shows what it showed. -/
structure Kept (s s' : Process) : Prop where
  packets : ∀ slot ∈ s.packets, slot ∈ s'.packets → s'.pool.view slot = s.pool.view slot
  quic : ∀ d ∈ s.quic, d ∈ s'.quic → s'.pool.view d.slot = s.pool.view d.slot

section

variable {cfg : ProcessConfig} {s s' : Process} {a : ProcessAction}

theorem map_fst_places (s : Process) :
    s.places.map Prod.fst = s.packets ++ (s.tun.reading ++ s.quic.map (·.slot)) := by
  have hplace : s.tun.place.map Prod.fst = s.tun.sending ++ s.tun.reading := by
    cases s.tun with
    | ended e => rfl
    | running rx tx => cases rx <;> rfl
  simp [places, packets, hplace, Function.comp_def]

theorem Held.nodup_slots (h : s.Held) :
    (s.packets ++ (s.tun.reading ++ s.quic.map (·.slot))).Nodup := by
  rw [← map_fst_places]
  exact h.nodup

theorem Held.nodup_packets (h : s.Held) : s.packets.Nodup :=
  (List.nodup_append.1 h.nodup_slots).1

theorem Held.reading_not_mem_packets (h : s.Held) {slot : Nat} (hread : slot ∈ s.tun.reading) :
    slot ∉ s.packets := fun hmem =>
  (List.nodup_append.1 h.nodup_slots).2.2 slot hmem slot (List.mem_append_left _ hread) rfl

theorem Held.datagram_not_mem_packets (h : s.Held) {d : QueuedDatagram} (hd : d ∈ s.quic) :
    d.slot ∉ s.packets := fun hmem =>
  (List.nodup_append.1 h.nodup_slots).2.2 d.slot hmem d.slot
    (List.mem_append_right _ (List.mem_map_of_mem hd)) rfl

theorem Held.datagram_not_mem_reading (h : s.Held) {d : QueuedDatagram} (hd : d ∈ s.quic) :
    d.slot ∉ s.tun.reading := fun hmem =>
  (List.nodup_append.1 (List.nodup_append.1 h.nodup_slots).2.1).2.2 d.slot hmem d.slot
    (List.mem_map_of_mem hd) rfl

theorem Held.nodup_quic (h : s.Held) : (s.quic.map (·.slot)).Nodup :=
  (List.nodup_append.1 (List.nodup_append.1 h.nodup_slots).2.1).2.1

theorem Held.view_packet (h : s.Held) {slot : Nat} (hmem : slot ∈ s.packets) :
    ∃ bytes, s.pool.view slot = some (.packet bytes) := by
  refine h.shows (slot, .packet) ?_
  rcases List.mem_append.1 hmem with hmem | hmem
  · exact List.mem_append_left _ (List.mem_map.2 ⟨slot, hmem, rfl⟩)
  · refine List.mem_append_right _ (List.mem_append_left _ ?_)
    cases htun : s.tun with
    | ended e => simp [htun, TunLoop.sending] at hmem
    | running rx tx => cases rx <;> simp_all [TunLoop.sending, TunLoop.place]

theorem Held.view_reading (h : s.Held) {slot : Nat} {tx : TxTask}
    (htun : s.tun = .running (.reading slot) tx) :
    slot ∈ s.tun.reading ∧ s.pool.view slot = some (.reading []) :=
  ⟨by simp [htun, TunLoop.reading],
    h.shows (slot, .reading) (by simp [places, htun, TunLoop.place])⟩

theorem Held.view_datagram (h : s.Held) {d : QueuedDatagram} (hd : d ∈ s.quic) :
    ∃ bytes, s.pool.view d.slot = some (.packet bytes) := by
  refine h.shows (d.slot, .packet) ?_
  simp only [places, List.mem_append, List.mem_map]
  exact .inr (.inr ⟨d, hd, rfl⟩)

theorem bytesAt_of_view (h : s.Held) {slot : Nat} {bytes : List UInt8}
    (hview : s.pool.view slot = some (.packet bytes)) : s.bytesAt slot = bytes := by
  rw [bytesAt, h.inv.packetAt_of_view hview]
  rfl

theorem Kept.of_view (hview : s'.pool.view = s.pool.view) : Kept s s' :=
  ⟨fun _ _ _ => congrFun hview _, fun _ _ _ => congrFun hview _⟩

/-- One buffer changed hands, or what is in it changed. -/
theorem Kept.of_ne {slot : Nat} (hview : ∀ j ≠ slot, s'.pool.view j = s.pool.view j)
    (hpackets : slot ∈ s.packets → slot ∉ s'.packets)
    (hquic : ∀ d ∈ s.quic, d ∈ s'.quic → d.slot ≠ slot) : Kept s s' where
  packets := fun j hj hj' => hview j fun heq => hpackets (heq ▸ hj) (heq ▸ hj')
  quic := fun d hd hd' => hview d.slot (hquic d hd hd')

theorem Kept.map_bytesAt (hkept : Kept s s') (h : s.Held) (h' : s'.Held) {slots : List Nat}
    (hsub : slots ⊆ s.packets) (hsub' : slots ⊆ s'.packets) :
    slots.map s'.bytesAt = slots.map s.bytesAt := by
  refine List.map_congr_left fun slot hslot => ?_
  obtain ⟨bytes, hview⟩ := h.view_packet (hsub hslot)
  have hview' := (hkept.packets slot (hsub hslot) (hsub' hslot)).trans hview
  rw [bytesAt_of_view h hview, bytesAt_of_view h' hview']

theorem Kept.map_queued (hkept : Kept s s') (h : s.Held) (h' : s'.Held)
    {datagrams : List QueuedDatagram} (hsub : datagrams ⊆ s.quic) (hsub' : datagrams ⊆ s'.quic) :
    datagrams.map (fun d => (d.peer, s'.bytesAt d.slot))
      = datagrams.map fun d => (d.peer, s.bytesAt d.slot) := by
  refine List.map_congr_left fun d hd => ?_
  obtain ⟨bytes, hview⟩ := h.view_datagram (hsub hd)
  have hview' := (hkept.quic d (hsub hd) (hsub' hd)).trans hview
  rw [bytesAt_of_view h hview, bytesAt_of_view h' hview']

/-- The end of `control` touches the reading task's buffer only. -/
theorem view_of_drops {rx : RxTask} {tx : TxTask} {drops : List PoolAction} {pool : PoolState}
    (h : s.Held) (htun : s.tun = .running rx tx) (hdrops : rx.Drops s.pool.pool drops)
    (hpool : runFrom PoolState.step s.pool (drops ++ [.dropReceiver]) = some pool) (j : Nat)
    (hj : j ∉ s.tun.sending ++ s.tun.reading) : pool.view j = s.pool.view j := by
  -- the receiving end of the pool goes last
  have hlast : ∀ {mid : PoolState}, mid.Inv bufferPool bufSize →
      runFrom PoolState.step mid [.dropReceiver] = some pool → pool.view j = mid.view j := by
    intro mid hmid hrun
    obtain ⟨last, hstep, hnil⟩ := runFrom_cons hrun
    obtain rfl := Option.some.inj hnil
    exact congrFun (hmid.sameView_of_stage (.inr (.inr rfl)) hstep).2.1 j
  have hinv := h.inv
  rw [htun] at hj
  cases hdrops with
  | cancel hstage =>
      obtain ⟨mid, hstep, hrun⟩ := runFrom_cons hpool
      obtain ⟨hmid, hsame, -⟩ := hinv.sameView_of_stage (.inr (.inl rfl)) hstep
      rw [hlast hmid hrun, hsame]
  | idle hstage => exact hlast hinv hpool
  | frame slot scribbled =>
      obtain ⟨mid, hstep, hrun⟩ := runFrom_cons hpool
      have hchanged := hinv.changed_of_frameFailed (h.view_reading htun).2 hstep
      rw [hlast hchanged.inv hrun]
      exact hchanged.view_of_ne (by simpa [TunLoop.sending, TunLoop.reading] using hj)
  | packet slot =>
      obtain ⟨mid, hstep, hrun⟩ := runFrom_cons hpool
      have hsending : slot ∈ s.tun.sending := by simp [htun, TunLoop.sending]
      obtain ⟨bytes, hview⟩ := h.view_packet (List.mem_append_right _ hsending)
      have hchanged := hinv.changed_of_drop hview hstep
      rw [hlast hchanged.inv hrun]
      exact hchanged.view_of_ne (by simpa [TunLoop.sending, TunLoop.reading] using hj)

end

end Process

section

variable {cfg : ProcessConfig} {s s' : Process} {a : ProcessAction}

/-- The buffer the device reads into is nobody else's. -/
theorem Process.Held.kept_of_reading {pool : PoolState} {tun : TunLoop} {slot : Nat} (h : s.Held)
    (hread : slot ∈ s.tun.reading) (hview : ∀ j ≠ slot, pool.view j = s.pool.view j) :
    Kept s { s with pool := pool, tun := tun } :=
  .of_ne hview (fun hmem => absurd hmem (h.reading_not_mem_packets hread))
    fun _ hd _ heq => h.datagram_not_mem_reading hd (heq ▸ hread)

/-- Nor is the one `tun_rx_loop` is about, and it lets go of it. -/
theorem Process.Held.kept_of_iteration {pool : PoolState} {slot : Nat} {txQueue : Channel TxPacket}
    {quic : List QueuedDatagram} (h : s.Held) (hloop : s.rxLoop = .handling slot)
    (hview : ∀ j ≠ slot, pool.view j = s.pool.view j) :
    Kept s { s with pool := pool, rxLoop := .receiving, txQueue := txQueue, quic := quic } := by
  have hcons : s.packets = slot :: (s.rxQueue.queue ++ s.tun.sending) := by
    simp [packets, hloop, RxLoop.slots]
  refine .of_ne hview (fun _ => ?_) ?_
  · have hnodup := h.nodup_packets
    rw [hcons] at hnodup
    simpa [packets, RxLoop.slots] using (List.nodup_cons.1 hnodup).1
  · intro d hd _ heq
    exact h.datagram_not_mem_packets hd (by simp [hcons, heq])

theorem ProcessStep.kept (hstep : ProcessStep cfg s a s') (h : s.Held) : Process.Kept s s' := by
  have hinv := h.inv
  cases hstep with
  | startPop htun hpool => exact .of_view (hinv.sameView_of_stage (.inl rfl) hpool).2.1
  | pop htun hpool =>
      obtain ⟨hnone, hchanged⟩ := hinv.changed_of_popToRead hpool
      refine .of_ne (fun j hj => hchanged.view_of_ne hj) ?_ ?_
      · intro hmem
        obtain ⟨bytes, hview⟩ := h.view_packet hmem
        simp [hnone] at hview
      · intro d hd _ heq
        obtain ⟨bytes, hview⟩ := h.view_datagram hd
        simp [heq, hnone] at hview
  | frame htun hpool hbuf hlen =>
      obtain ⟨hread, hview⟩ := h.view_reading htun
      have hchanged := hinv.changed_of_frameRead hview hpool
      exact h.kept_of_reading hread fun j hj => hchanged.view_of_ne hj
  | emptyFrame htun hpool hbuf hlen hpool' =>
      obtain ⟨hread, hview⟩ := h.view_reading htun
      have hchanged := hinv.changed_of_frameRead hview hpool
      have hdropped := hchanged.inv.changed_of_drop hchanged.view_self hpool'
      refine h.kept_of_reading hread fun j hj => ?_
      rw [hdropped.view_of_ne hj, hchanged.view_of_ne hj]
  | frameRetried htun hpool =>
      obtain ⟨hread, hview⟩ := h.view_reading htun
      have hchanged := hinv.changed_of_frameFailed hview hpool
      exact h.kept_of_reading hread fun j hj => hchanged.view_of_ne hj
  | @tunEnded ta rx tx drops pool e htun ha hdrops hpool =>
      have hview := Process.view_of_drops h htun hdrops hpool
      refine ⟨fun slot hmem hmem' => hview slot ?_, fun d hd _ => hview d.slot ?_⟩
      · -- what is left of the packets is not the one that was being sent
        have hnodup := h.nodup_packets
        have hkept : slot ∈ s.rxLoop.slots ++ s.rxQueue.queue := by
          simpa [Process.packets, TunLoop.sending, Channel.dropSender] using hmem'
        rw [List.mem_append, not_or]
        refine ⟨fun hsending => ?_, fun hread => h.reading_not_mem_packets hread hmem⟩
        exact (List.nodup_append.1 hnodup).2.2 slot hkept slot hsending rfl
      · rw [List.mem_append, not_or]
        refine ⟨fun hsending => ?_, h.datagram_not_mem_reading hd⟩
        exact h.datagram_not_mem_packets hd (List.mem_append_right _ hsending)
  | pool hback hpool => exact .of_view (hinv.sameView_of_background hback hpool).2.1
  | sent hloop hpacket heffects hdatagram hpool =>
      obtain ⟨bytes, hview⟩ := h.view_handling hloop
      have hchanged := hinv.changed_of_rewrite hview hpool
      exact h.kept_of_iteration hloop fun j hj => hchanged.view_of_ne hj
  | answered hloop hpacket heffects hdatagram hpool =>
      obtain ⟨bytes, hview⟩ := h.view_handling hloop
      have hchanged := hinv.changed_of_drop hview hpool
      exact h.kept_of_iteration hloop fun j hj => hchanged.view_of_ne hj
  | @released d sent pool hmem hpool =>
      obtain ⟨bytes, hview⟩ := h.view_datagram hmem
      have hchanged := hinv.changed_of_drop hview hpool
      refine .of_ne (fun j hj => hchanged.view_of_ne hj) ?_ ?_
      · exact fun hpackets => absurd hpackets (h.datagram_not_mem_packets hmem)
      · -- no other datagram is in the same buffer
        intro d' hd' hleft heq
        have hsame : d' = d := List.inj_on_of_nodup_map h.nodup_quic hd' hmem heq
        have hnodup : s.quic.Nodup := h.nodup_quic.of_map _
        exact hnodup.not_mem_erase (hsame ▸ hleft)
  | _ => exact .of_view rfl

/-! ## From the device to `tun_rx_loop` -/

namespace Process

/-- What a step takes in goes behind the packets that are on their way, and what it dispatches is the
    first of them. Only the end of the device's loop may lose one. -/
def InboundFlow (s : Process) (a : ProcessAction) (s' : Process) : Prop :=
  ∃ lost, s.inbound ++ (s.frameRead a).toList = (s.dispatched a).toList ++ s'.inbound ++ lost ∧
    lost.length ≤ 1 ∧ (s'.Running ∨ ¬ s.Running → lost = [])

theorem Kept.inboundFlow_of_same (hkept : Kept s s') (h : s.Held) (h' : s'.Held)
    (hread : s.frameRead a = none) (hdispatched : s.dispatched a = none)
    (hpackets : s'.packets = s.packets) : InboundFlow s a s' := by
  have hsub : s.packets ⊆ s'.packets := by rw [hpackets]; exact List.Subset.refl _
  have hbytes := hkept.map_bytesAt h h' (List.Subset.refl _) hsub
  refine ⟨[], ?_, by simp, fun _ => rfl⟩
  simp only [inbound, hpackets, hbytes, hread, hdispatched, Option.toList_none, List.append_nil,
    List.nil_append]

theorem Kept.inboundFlow_of_frame (hkept : Kept s s') (h : s.Held) (h' : s'.Held) (slot : Nat)
    (hread : s.frameRead a = some (s'.bytesAt slot)) (hdispatched : s.dispatched a = none)
    (hpackets : s'.packets = s.packets ++ [slot]) : InboundFlow s a s' := by
  have hsub : s.packets ⊆ s'.packets := by rw [hpackets]; exact List.subset_append_left _ _
  have hbytes := hkept.map_bytesAt h h' (List.Subset.refl _) hsub
  refine ⟨[], ?_, by simp, fun _ => rfl⟩
  simp only [inbound, hpackets, List.map_append, hbytes, hread, hdispatched, Option.toList_none,
    Option.toList_some, List.append_nil, List.nil_append, List.map_cons, List.map_nil]

theorem Kept.inboundFlow_of_iteration (hkept : Kept s s') (h : s.Held) (h' : s'.Held)
    {env : Surroundings} {slot : Nat} (hloop : s.rxLoop = .handling slot)
    (hpackets : s.packets = slot :: s'.packets) : InboundFlow s (.iterate env) s' := by
  have hsub : s'.packets ⊆ s.packets := by rw [hpackets]; exact List.subset_cons_self _ _
  have hbytes := hkept.map_bytesAt h h' hsub (List.Subset.refl _)
  refine ⟨[], ?_, by simp, fun _ => rfl⟩
  simp only [inbound, hpackets, List.map_cons, hbytes, frameRead, dispatched, hloop,
    Option.toList_none, Option.toList_some, List.append_nil, List.singleton_append]

theorem Kept.inboundFlow_of_end (hkept : Kept s s') (h : s.Held) (h' : s'.Held)
    (hread : s.frameRead a = none) (hdispatched : s.dispatched a = none)
    (hpackets : s.packets = s'.packets ++ s.tun.sending) (hrunning : s.Running)
    (hended : ¬ s'.Running) : InboundFlow s a s' := by
  have hsub : s'.packets ⊆ s.packets := by rw [hpackets]; exact List.subset_append_left _ _
  have hbytes := hkept.map_bytesAt h h' hsub (List.Subset.refl _)
  refine ⟨s.tun.sending.map s.bytesAt, ?_, ?_, ?_⟩
  · simp only [inbound, hpackets, List.map_append, hbytes, hread, hdispatched, Option.toList_none,
      List.append_nil, List.nil_append]
  · cases htun : s.tun with
    | ended e => simp [TunLoop.sending]
    | running rx tx => cases rx <;> simp [TunLoop.sending]
  · rintro (hrunning' | hended')
    · exact absurd hrunning' hended
    · exact absurd hrunning hended'

end Process

theorem ProcessStep.inboundFlow (hstep : ProcessStep cfg s a s') (h : s.Held) :
    Process.InboundFlow s a s' := by
  have h' := hstep.held h
  have hkept := hstep.kept h
  cases hstep with
  | pop htun hpool =>
      exact hkept.inboundFlow_of_same h h' rfl rfl (by simp [Process.packets, htun, TunLoop.sending])
  | @frame tx slot w pool buf htun hpool hbuf hlen =>
      have hchanged := h.inv.changed_of_frameRead (h.view_reading htun).2 hpool
      have hbytes := Process.bytesAt_of_view h' hchanged.view_self
      have hpacket := hchanged.inv.packetAt_of_view hchanged.view_self
      obtain rfl : w.committed = buf := by simpa [hpacket] using hbuf
      refine hkept.inboundFlow_of_frame h h' slot ?_ rfl
        (by simp [Process.packets, htun, TunLoop.sending])
      rw [hbytes, Process.frameRead, if_pos hlen]
      rfl
  | @emptyFrame tx slot w pool pool' buf htun hpool hbuf hlen hpool' =>
      have hchanged := h.inv.changed_of_frameRead (h.view_reading htun).2 hpool
      have hpacket := hchanged.inv.packetAt_of_view hchanged.view_self
      have hempty : w.committed = [] := by simpa [hpacket, hlen] using hbuf
      exact hkept.inboundFlow_of_same h h' (by simp [Process.frameRead, hempty]) rfl
        (by simp [Process.packets, htun, TunLoop.sending])
  | frameRetried htun hpool =>
      exact hkept.inboundFlow_of_same h h' rfl rfl (by simp [Process.packets, htun, TunLoop.sending])
  | packetSent htun hsend =>
      obtain ⟨-, hqueue, -⟩ := Channel.trySend_ok hsend
      exact hkept.inboundFlow_of_same h h' rfl rfl
        (by simp [Process.packets, htun, TunLoop.sending, hqueue])
  | @txReceived rx packet txQueue htun hrecv =>
      exact hkept.inboundFlow_of_same h h' rfl rfl
        (by cases rx <;> simp [Process.packets, htun, TunLoop.sending])
  | @frameWritten rx packet sent htun =>
      exact hkept.inboundFlow_of_same h h' rfl rfl
        (by cases rx <;> simp [Process.packets, htun, TunLoop.sending])
  | @tunEnded ta rx tx drops pool e htun ha hdrops hpool =>
      have hread : s.frameRead (.tun ta) = none := by
        cases ta with
        | frameRead w => exact absurd rfl (ha w)
        | _ => rfl
      refine hkept.inboundFlow_of_end h h' hread rfl ?_ ⟨rx, tx, htun⟩ ?_
      · simp [Process.packets, TunLoop.sending, Channel.dropSender]
      · rintro ⟨rx', tx', hrunning⟩
        simp at hrunning
  | rxReceived hloop hrecv =>
      obtain ⟨hqueue, -⟩ := Channel.recv_eq_some hrecv
      exact hkept.inboundFlow_of_same h h' rfl rfl
        (by simp [Process.packets, hloop, RxLoop.slots, hqueue])
  | rxLoopEnded hloop hrecv hsenders =>
      exact hkept.inboundFlow_of_same h h' rfl rfl (by simp [Process.packets, hloop, RxLoop.slots])
  | sent hloop hpacket heffects hdatagram hpool =>
      exact hkept.inboundFlow_of_iteration h h' hloop
        (by simp [Process.packets, hloop, RxLoop.slots])
  | answered hloop hpacket heffects hdatagram hpool =>
      exact hkept.inboundFlow_of_iteration h h' hloop
        (by simp [Process.packets, hloop, RxLoop.slots])
  | _ => exact hkept.inboundFlow_of_same h h' rfl rfl rfl

/-- The device's loop does not start again, and reads nothing after its end. -/
theorem ProcessStep.running_of_running (hstep : ProcessStep cfg s a s') (hrunning : s'.Running) :
    s.Running := by
  cases hstep with
  | pop htun _ => exact ⟨_, _, htun⟩
  | frame htun _ _ _ => exact ⟨_, _, htun⟩
  | emptyFrame htun _ _ _ _ => exact ⟨_, _, htun⟩
  | frameRetried htun _ => exact ⟨_, _, htun⟩
  | packetSent htun _ => exact ⟨_, _, htun⟩
  | txReceived htun _ => exact ⟨_, _, htun⟩
  | frameWritten htun => exact ⟨_, _, htun⟩
  | tunEnded htun _ _ _ => exact ⟨_, _, htun⟩
  | _ => exact hrunning

theorem ProcessStep.frameRead_eq_none (hstep : ProcessStep cfg s a s') (hended : ¬ s'.Running) :
    s.frameRead a = none := by
  cases hstep with
  | frame _ _ _ _ => exact absurd ⟨_, _, rfl⟩ hended
  | emptyFrame _ _ _ _ _ => exact absurd ⟨_, _, rfl⟩ hended
  | @tunEnded ta rx tx drops pool e htun ha hdrops hpool =>
      cases ta with
      | frameRead w => exact absurd rfl (ha w)
      | _ => rfl
  | _ => rfl

namespace Process

theorem inbound_new (hnew : Process.new cfg = some s) : s.inbound = [] := by
  obtain ⟨pool, -, rfl⟩ := Option.map_eq_some_iff.1 hnew
  rfl

/-- What a run dispatches is what was on its way, and then what it reads. -/
theorem Held.inbound_flow (h0 : s.Held) {acts : List ProcessAction}
    (hrun : runFrom (Process.step cfg) s acts = some s') :
    ∃ lost, s.inbound ++ trace (Process.step cfg) frameRead s acts
        = trace (Process.step cfg) dispatched s acts ++ s'.inbound ++ lost ∧
      lost.length ≤ 1 ∧ (s'.Running → lost = []) := by
  have hI : ∀ t a t', Held t → t.step cfg a = some t' → Held t' := fun _ _ _ h hs =>
    (step_sound hs).2.held h
  have hopen : ∀ t a t', Held t → t.step cfg a = some t' → t.Running → t'.Running →
      t.inbound ++ (t.frameRead a).toList = (t.dispatched a).toList ++ t'.inbound := by
    intro t a t' h hs _ hrunning
    obtain ⟨lost, heq, -, hnone⟩ := (step_sound hs).2.inboundFlow h
    simpa [hnone (.inl hrunning)] using heq
  have hshut : ∀ t a t', Held t → t.step cfg a = some t' → t.Running → ¬ t'.Running →
      t.frameRead a = none ∧
        ∃ lost, t.inbound = (t.dispatched a).toList ++ t'.inbound ++ lost ∧ lost.length ≤ 1 := by
    intro t a t' h hs _ hended
    have hnone := (step_sound hs).2.frameRead_eq_none hended
    obtain ⟨lost, heq, hlen, -⟩ := (step_sound hs).2.inboundFlow h
    exact ⟨hnone, lost, by simpa [hnone] using heq, hlen⟩
  have hafter : ∀ t a t', Held t → t.step cfg a = some t' → ¬ t.Running →
      ¬ t'.Running ∧ t.frameRead a = none ∧ t.inbound = (t.dispatched a).toList ++ t'.inbound := by
    intro t a t' h hs hended
    have hended' : ¬ t'.Running := fun hrunning =>
      hended ((step_sound hs).2.running_of_running hrunning)
    have hnone := (step_sound hs).2.frameRead_eq_none hended'
    obtain ⟨lost, heq, -, hempty⟩ := (step_sound hs).2.inboundFlow h
    exact ⟨hended', hnone, by simpa [hnone, hempty (.inr hended)] using heq⟩
  obtain ⟨lost, heq, hlen, hkept, -⟩ := flow_until_shut hI hopen hshut hafter h0 hrun
  exact ⟨lost, heq, hlen, hkept⟩

/-- **Frames are dispatched once, in order and as they were read.** Whatever happens to the buffers in
    between, the packets `tun_rx_loop` has dispatched so far, followed by those on their way to it, are
    the non-empty frames the device has given. When the device's loop ends, at most the last frame is
    lost. -/
theorem frames_dispatched_in_order (hnew : Process.new cfg = some s) {acts : List ProcessAction}
    (hrun : runFrom (Process.step cfg) s acts = some s') :
    ∃ lost, trace (Process.step cfg) frameRead s acts
        = trace (Process.step cfg) dispatched s acts ++ s'.inbound ++ lost ∧
      lost.length ≤ 1 ∧ (s'.Running → lost = []) := by
  obtain ⟨lost, heq, hlen, hkept⟩ := (Held.new hnew).inbound_flow hrun
  exact ⟨lost, by simpa [inbound_new hnew] using heq, hlen, hkept⟩

set_option maxRecDepth 20000 in
theorem frames_dispatched_in_order_sample :
    ∃ s s', Process.new .sample = some s ∧ runFrom (Process.step .sample) s sampleRun = some s' ∧
      trace (Process.step .sample) frameRead s sampleRun = [samplePacket, [1, 2]] ∧
      trace (Process.step .sample) dispatched s sampleRun ++ s'.inbound = [samplePacket, [1, 2]] := by
  obtain ⟨s, hnew, s', hrun, -, htun⟩ := exists_sampleRun
  obtain ⟨lost, hframes, -, hrunning⟩ := frames_dispatched_in_order hnew hrun
  have hread : (Process.new .sample).any (fun s => decide
      (trace (Process.step .sample) frameRead s sampleRun = [samplePacket, [1, 2]])) = true := by
    decide +kernel
  rw [hnew, Option.any_some, decide_eq_true_eq] at hread
  rw [hrunning ⟨_, _, htun⟩, List.append_nil] at hframes
  exact ⟨s, s', hnew, hrun, hread, hframes.symm.trans hread⟩

end Process

/-! ## From `tun_rx_loop` to the wire -/

theorem Process.datagramSent_of_handling {env : Surroundings} {slot : Nat} {packet : List UInt8}
    {effects : RxEffects} (hloop : s.rxLoop = .handling slot)
    (hpacket : s.pool.packetAt slot = some packet)
    (heffects : (s.rxContext cfg env).tunRxIteration packet = some effects) :
    s.datagramSent cfg (.iterate env) = effects.datagrams.head? := by
  have hbytes : s.bytesAt slot = packet := by rw [bytesAt, hpacket, Option.getD_some]
  simp only [datagramSent, hloop, hbytes, heffects, Option.bind_some]

/-- A datagram leaves QUIC as it was handed to it, or is dropped. -/
theorem ProcessStep.queued_flow (hstep : ProcessStep cfg s a s') (h : s.Held) :
    ((s.transmitted a).toList ++ s'.queued).Subperm (s.queued ++ (s.datagramSent cfg a).toList) := by
  have h' := hstep.held h
  have hkept := hstep.kept h
  have hsame : s.transmitted a = none → s.datagramSent cfg a = none → s'.quic = s.quic →
      ((s.transmitted a).toList ++ s'.queued).Subperm
        (s.queued ++ (s.datagramSent cfg a).toList) := by
    intro htransmitted hsent hquic
    have hsub : s.quic ⊆ s'.quic := by rw [hquic]; exact List.Subset.refl _
    have hqueued := hkept.map_queued h h' (List.Subset.refl _) hsub
    simp only [Process.queued, hquic, hqueued, htransmitted, hsent, Option.toList_none,
      List.append_nil, List.nil_append]
    exact List.Subperm.refl _
  cases hstep with
  | @sent env slot packet bytes effects peer pool hloop hpacket heffects hdatagram hpool =>
      obtain ⟨old, hview⟩ := h.view_handling hloop
      have hchanged := h.inv.changed_of_rewrite hview hpool
      have hbytes := Process.bytesAt_of_view h' hchanged.view_self
      have hqueued := hkept.map_queued h h' (List.Subset.refl s.quic) (List.subset_append_left _ _)
      have hsent := Process.datagramSent_of_handling hloop hpacket heffects
      rw [hdatagram] at hsent
      simp only [Process.queued, List.map_append, List.map_cons, List.map_nil, hbytes, hqueued, hsent,
        Process.transmitted, Option.toList_none, Option.toList_some, List.nil_append]
      exact List.Subperm.refl _
  | answered hloop hpacket heffects hdatagram hpool =>
      have hsent := Process.datagramSent_of_handling hloop hpacket heffects
      exact hsame rfl (hsent.trans hdatagram) rfl
  | @released d sent pool hmem hpool =>
      have hqueued := hkept.map_queued h h' List.erase_subset (List.Subset.refl (s.quic.erase d))
      have hperm : s.queued.Perm
          ((d.peer, s.bytesAt d.slot) :: (s.quic.erase d).map fun d => (d.peer, s.bytesAt d.slot)) :=
        (List.perm_cons_erase hmem).map fun (d : QueuedDatagram) => (d.peer, s.bytesAt d.slot)
      simp only [Process.queued, hqueued, Process.datagramSent, Option.toList_none, List.append_nil]
      refine List.Subperm.trans ?_ hperm.symm.subperm
      cases sent with
      | true => exact List.Subperm.refl _
      | false => exact (List.sublist_cons_self _ _).subperm
  | _ => exact hsame rfl rfl rfl

namespace Process

/-- The datagrams QUIC has put on the wire, together with those it still has, are among those
    `tun_rx_loop` handed to it, each for the peer it was for, as often and with the bytes it had
    then, although the loop goes on to use the same buffers. -/
theorem transmitted_as_sent (hnew : Process.new cfg = some s) {acts : List ProcessAction}
    (hrun : runFrom (Process.step cfg) s acts = some s') :
    (trace (Process.step cfg) transmitted s acts ++ s'.queued).Subperm
      (trace (Process.step cfg) (datagramSent cfg) s acts) := by
  have hI : ∀ t a t', Held t → True → t.step cfg a = some t' → Held t' := fun _ _ _ h _ hs =>
    (step_sound hs).2.held h
  have hflow : ∀ t a t', Held t → True → t.step cfg a = some t' →
      ((t.transmitted a).toList ++ t'.queued).Subperm
        (t.queued ++ (t.datagramSent cfg a).toList) := fun _ _ _ h _ hs =>
    (step_sound hs).2.queued_flow h
  have hempty : s.queued = [] := by
    obtain ⟨pool, -, rfl⟩ := Option.map_eq_some_iff.1 hnew
    rfl
  have hmeets : RunMeets (Process.step cfg) (fun _ _ => True) s acts :=
    RunMeets.of_forall s acts fun _ _ _ => trivial
  simpa [hempty] using flow_of_meets FlowRel.subperm hI hflow (Held.new hnew) hmeets hrun

end Process

/-! ## From a session to the device -/

/-- The packet, if it came from the peer of session `i`. -/
def TxPacket.dataOf (i : Nat) (packet : TxPacket) : Option (List UInt8) :=
  if packet.session = some i then some packet.data else none

/-- The packet the writing task has. -/
def TxTask.packets : TxTask → List TxPacket
  | .receiving => []
  | .writing packet => [packet]

/-- The packet that is being written. -/
def TunLoop.writing : TunLoop → List TxPacket
  | .running _ tx => tx.packets
  | .ended _ => []

/-- What is on its way from session `i` to the device, the first packet first. -/
def Process.outbound (i : Nat) (s : Process) : List (List UInt8) :=
  (s.tun.writing ++ s.txQueue.queue).filterMap (TxPacket.dataOf i) ++ (s.inHand i).toList

/-- A step of the process, seen by session `i`. -/
def Process.OutboundFlow (i : Nat) (s : Process) (a : ProcessAction) (s' : Process) : Prop :=
  ((s.frameWritten i a).toList ++ s'.outbound i).Sublist
      (s.outbound i ++ (s.datagramRead i a).toList) ∧
    (s'.Running →
      (s.frameWritten i a).toList ++ s'.outbound i = s.outbound i ++ (s.datagramRead i a).toList)

theorem Process.OutboundFlow.of_eq {i : Nat}
    (h : (s.frameWritten i a).toList ++ s'.outbound i
      = s.outbound i ++ (s.datagramRead i a).toList) : OutboundFlow i s a s' :=
  ⟨h ▸ List.Sublist.refl _, fun _ => h⟩

theorem Process.OutboundFlow.of_same {i : Nat} (hwritten : s.frameWritten i a = none)
    (hread : s.datagramRead i a = none) (hwriting : s'.tun.writing = s.tun.writing)
    (hqueue : s'.txQueue.queue.filterMap (TxPacket.dataOf i)
      = s.txQueue.queue.filterMap (TxPacket.dataOf i))
    (hhand : s'.inHand i = s.inHand i) : OutboundFlow i s a s' := by
  refine .of_eq ?_
  simp only [outbound, hwritten, hread, hwriting, hqueue, hhand, List.filterMap_append,
    Option.toList_none, List.nil_append, List.append_nil]

/-- What the device is asked to write is what the writing task has. -/
theorem Process.frameWritten_sublist (i : Nat) (s : Process) (a : ProcessAction) :
    (s.frameWritten i a).toList.Sublist (s.tun.writing.filterMap (TxPacket.dataOf i)) := by
  unfold frameWritten
  split
  · split
    · next rx packet htun =>
        rw [htun]
        simp only [TunLoop.writing, TxTask.packets, List.filterMap_cons, List.filterMap_nil,
          TxPacket.dataOf]
        split_ifs <;> simp
    · simp
  · simp

/-- The replies of `tun_rx_loop` are no session's. -/
theorem Process.filterMap_queueReply (i : Nat) (s : Process) (reply : Option (List UInt8)) :
    (s.queueReply reply).queue.filterMap (TxPacket.dataOf i)
      = s.txQueue.queue.filterMap (TxPacket.dataOf i) := by
  obtain ⟨-, -, -, new, hqueue, -, hnone⟩ := s.queueReply_spec reply
  have hnew : new.filterMap (TxPacket.dataOf i) = [] := by
    refine List.filterMap_eq_nil_iff.2 fun packet hmem => ?_
    simp [TxPacket.dataOf, hnone packet hmem]
  rw [hqueue, List.filterMap_append, hnew, List.append_nil]

theorem ProcessStep.outboundFlow (hstep : ProcessStep cfg s a s') (h : s.Wired) (i : Nat) :
    Process.OutboundFlow i s a s' := by
  cases hstep with
  | node hnode hhand => exact .of_same rfl rfl rfl rfl rfl
  | startPop htun hpool => exact .of_same rfl rfl rfl rfl rfl
  | pop htun hpool => exact .of_same rfl rfl (by rw [htun]; rfl) rfl rfl
  | frame htun hpool hbuf hlen => exact .of_same rfl rfl (by rw [htun]; rfl) rfl rfl
  | emptyFrame htun hpool hbuf hlen hpool' => exact .of_same rfl rfl (by rw [htun]; rfl) rfl rfl
  | frameRetried htun hpool => exact .of_same rfl rfl (by rw [htun]; rfl) rfl rfl
  | packetSent htun hsend => exact .of_same rfl rfl (by rw [htun]; rfl) rfl rfl
  | @txReceived rx packet txQueue htun hrecv =>
      obtain ⟨hqueue, -⟩ := Channel.recv_eq_some hrecv
      refine .of_eq ?_
      simp [Process.outbound, htun, TunLoop.writing, TxTask.packets, hqueue, Process.frameWritten,
        Process.datagramRead]
  | @frameWritten rx packet sent htun =>
      refine .of_eq ?_
      simp only [Process.outbound, htun, TunLoop.writing, TxTask.packets, Process.frameWritten,
        Process.datagramRead, List.filterMap_append, List.filterMap_cons, List.filterMap_nil,
        TxPacket.dataOf]
      split_ifs <;> simp
  | @tunEnded ta rx tx drops pool e htun ha hdrops hpool =>
      refine ⟨?_, fun ⟨rx', tx', hrunning⟩ => by simp at hrunning⟩
      -- the device's loop takes what is in its hands and in the channel with it
      have hwritten := Process.frameWritten_sublist i s (.tun ta)
      have hread : s.datagramRead i (.tun ta) = none := rfl
      simp only [Process.outbound, TunLoop.writing, Channel.dropReceiver, List.append_nil,
        List.filterMap_nil, List.nil_append, hread, Option.toList_none, List.filterMap_append]
      exact (hwritten.trans (List.sublist_append_left _ _)).append_right _
  | pool hback hpool => exact .of_same rfl rfl rfl rfl rfl
  | rxReceived hloop hrecv => exact .of_same rfl rfl rfl rfl rfl
  | rxLoopEnded hloop hrecv hsenders => exact .of_same rfl rfl rfl rfl rfl
  | sent hloop hpacket heffects hdatagram hpool =>
      exact .of_same rfl rfl rfl (s.filterMap_queueReply i _) rfl
  | answered hloop hpacket heffects hdatagram hpool =>
      exact .of_same rfl rfl rfl (s.filterMap_queueReply i _) rfl
  | released hmem hpool => exact .of_same rfl rfl rfl rfl rfl
  | @datagramRead j conn bytes hphase hhand =>
      by_cases hij : j = i
      · subst hij
        refine .of_eq ?_
        simp [Process.outbound, Process.frameWritten, Process.datagramRead, hhand]
      · refine .of_same rfl ?_ rfl rfl ?_
        · simp [Process.datagramRead, hij]
        · exact Function.update_of_ne (Ne.symm hij) _ _
  | @datagramQueued j bytes txQueue hhand hsend =>
      obtain ⟨-, hqueue, -⟩ := Channel.trySend_ok hsend
      by_cases hij : j = i
      · subst hij
        refine .of_eq ?_
        simp [Process.outbound, Process.frameWritten, Process.datagramRead, hhand, hqueue,
          TxPacket.dataOf]
      · refine .of_same rfl rfl rfl ?_ ?_
        · simp [hqueue, TxPacket.dataOf, hij]
        · exact Function.update_of_ne (Ne.symm hij) _ _
  | @datagramRefused j bytes node hhand hclosed hnode =>
      refine ⟨?_, ?_⟩
      · have hupdate : ((Function.update s.inHand j none) i).toList.Sublist (s.inHand i).toList := by
          by_cases hij : i = j
          · simp [hij]
          · rw [Function.update_of_ne hij]
        simpa [Process.outbound, Process.frameWritten, Process.datagramRead] using hupdate
      · -- the channel is closed only after the end
        rintro ⟨rx, tx, htun⟩
        have hwired := h.tun
        rw [show s.tun = .running rx tx from htun] at hwired
        simp [hwired.2.1] at hclosed

namespace Process

/-- Nothing is written that was not read, nor twice, nor out of order. -/
theorem written_sublist_read (hnew : Process.new cfg = some s) {acts : List ProcessAction}
    (hrun : runFrom (Process.step cfg) s acts = some s') (i : Nat) :
    (trace (Process.step cfg) (frameWritten i) s acts ++ s'.outbound i).Sublist
      (trace (Process.step cfg) (datagramRead i) s acts) := by
  have hempty : s.outbound i = [] := by
    obtain ⟨pool, -, rfl⟩ := Option.map_eq_some_iff.1 hnew
    rfl
  have hmeets : RunMeets (Process.step cfg) (fun _ _ => True) s acts :=
    RunMeets.of_forall s acts fun _ _ _ => trivial
  have hI : ∀ t a t', Wired t → True → t.step cfg a = some t' → Wired t' := fun _ _ _ h _ hs =>
    (step_sound hs).2.wired h
  have hflow : ∀ t a t', Wired t → True → t.step cfg a = some t' →
      ((t.frameWritten i a).toList ++ t'.outbound i).Sublist
        (t.outbound i ++ (t.datagramRead i a).toList) := fun _ _ _ h _ hs =>
    ((step_sound hs).2.outboundFlow h i).1
  simpa [hempty] using flow_of_meets FlowRel.sublist hI hflow (Wired.new hnew) hmeets hrun

/-- **Datagrams are written in order.** As long as the device's loop runs, what the device was asked
    to write for a session, followed by what is on its way, is exactly what the session has read from
    its connections, however its packets are interleaved with those of others and with the node's own
    replies; once the loop has ended some of them are missing. -/
theorem datagrams_written_in_order (hnew : Process.new cfg = some s) {acts : List ProcessAction}
    (hrun : runFrom (Process.step cfg) s acts = some s') (i : Nat) :
    (trace (Process.step cfg) (frameWritten i) s acts ++ s'.outbound i).Sublist
        (trace (Process.step cfg) (datagramRead i) s acts) ∧
      (s'.Running → trace (Process.step cfg) (frameWritten i) s acts ++ s'.outbound i
        = trace (Process.step cfg) (datagramRead i) s acts) := by
  have hempty : s.outbound i = [] := by
    obtain ⟨pool, -, rfl⟩ := Option.map_eq_some_iff.1 hnew
    rfl
  have hmeets : RunMeets (Process.step cfg) (fun _ _ => True) s acts :=
    RunMeets.of_forall s acts fun _ _ _ => trivial
  refine ⟨written_sublist_read hnew hrun i, fun hrunning => ?_⟩
  -- the loop runs at the end, so it ran all along
  have habsorbing : ∀ (t : Process) a t', ¬ t.Running → True → t.step cfg a = some t' →
      ¬ t'.Running := fun _ _ _ hended _ hs hrunning' =>
    hended ((step_sound hs).2.running_of_running hrunning')
  have hall := RunMeets.of_absorbing habsorbing hmeets hrun (not_not.2 hrunning)
  have hI : ∀ t a t', Wired t → (∀ u, t.step cfg a = some u → ¬ ¬ u.Running) →
      t.step cfg a = some t' → Wired t' := fun _ _ _ h _ hs => (step_sound hs).2.wired h
  have hflow : ∀ t a t', Wired t → (∀ u, t.step cfg a = some u → ¬ ¬ u.Running) →
      t.step cfg a = some t' →
      (t.frameWritten i a).toList ++ t'.outbound i
        = t.outbound i ++ (t.datagramRead i a).toList := fun _ _ t' h hC hs =>
    ((step_sound hs).2.outboundFlow h i).2 (not_not.1 (hC t' hs))
  simpa [hempty] using flow_of_meets FlowRel.eq hI hflow (Wired.new hnew) hall hrun

set_option maxRecDepth 20000 in
theorem datagrams_written_in_order_sample :
    ∃ s s', Process.new .sample = some s ∧ runFrom (Process.step .sample) s sampleRun = some s' ∧
      trace (Process.step .sample) (frameWritten 0) s sampleRun = [[5, 6]] ∧
      trace (Process.step .sample) (frameWritten 0) s sampleRun ++ s'.outbound 0
        = trace (Process.step .sample) (datagramRead 0) s sampleRun := by
  obtain ⟨s, hnew, s', hrun, -, htun⟩ := exists_sampleRun
  have hflow := (datagrams_written_in_order hnew hrun 0).2 ⟨_, _, htun⟩
  have hwritten : (Process.new .sample).any (fun s => decide
      (trace (Process.step .sample) (frameWritten 0) s sampleRun = [[5, 6]])) = true := by
    decide +kernel
  rw [hnew, Option.any_some, decide_eq_true_eq] at hwritten
  exact ⟨s, s', hnew, hrun, hwritten, hflow⟩

end Process

end

end P2pVpn
