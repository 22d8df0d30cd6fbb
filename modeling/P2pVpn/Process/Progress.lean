import P2pVpn.Process.Buffers
import P2pVpn.Relay.System
import P2pVpn.Session.Steps

set_option autoImplicit false

/-! # The process does not get stuck

When none of the process's own tasks can go on, each of them waits for something outside: the device,
a peer, or QUIC to give a buffer back. In particular the channels between them are empty then, and
reading from the device stops for want of a buffer only when QUIC has them all. -/

namespace P2pVpn

/-! ## Channels and the pool -/

/-- The ends of the channels and the pool, while the device's loop runs and after it. -/
def TunLoop.Wired (s : Process) : TunLoop → Prop
  | .running rx _ =>
      s.rxQueue.senders = 1 ∧ s.txQueue.closed = false ∧
        (s.pool.pool = .idle ∨ (s.pool.pool = .waiting ∧ rx = .popping))
  | .ended _ =>
      s.rxQueue.senders = 0 ∧ s.txQueue.closed = true ∧
        (s.pool.pool = .closing ∨ s.pool.pool = .gone)

/-- The tasks and the ends of the channels they hold agree. -/
structure Process.Wired (s : Process) : Prop where
  rxCapacity : s.rxQueue.maxCapacity = packetChannel
  txCapacity : s.txQueue.maxCapacity = packetChannel
  rxOpen : s.rxQueue.closed = false
  txSenders : s.txQueue.senders = 1
  tun : s.tun.Wired s
  rxLoop : s.rxLoop = .ended → s.rxQueue.queue = [] ∧ s.rxQueue.senders = 0
  /-- A datagram is in the hand of a receive loop. -/
  inHand : ∀ i, s.inHand i ≠ none → ∃ conn, (s.node.sessions i).phase = .receiving conn

section

variable {cfg : ProcessConfig} {s s' : Process} {a : ProcessAction}

theorem Process.Wired.new (hnew : Process.new cfg = some s) : s.Wired := by
  obtain ⟨pool, hpool, rfl⟩ := Option.map_eq_some_iff.1 hnew
  obtain ⟨-, hidle, -⟩ := BufferPool.new_eq_some hpool
  exact ⟨rfl, rfl, rfl, rfl, ⟨rfl, rfl, .inl hidle⟩, by simp, by simp⟩

/-- A session whose receive loop has a datagram in hand is still there after a step of the node. -/
theorem Process.Wired.inHand_of_node {na : NodeAction} {node : Node} (h : s.Wired)
    (hnode : s.node.step cfg.node na = some node) {i : Nat} (hi : s.inHand i ≠ none)
    (hhand : ∀ e, na = .session i (.recvLoopEnded e) → s.inHand i = none) :
    ∃ conn, (node.sessions i).phase = .receiving conn := by
  obtain ⟨conn, hphase⟩ := h.inHand i hi
  rcases Node.step_cases hnode with ⟨j, sa, rfl, hs⟩ | ⟨conn', rfl, rfl⟩
  · by_cases hj : i = j
    · subst hj
      -- only the end of its loop moves the session
      cases hs with
      | recvLoopEnded e _ _ => exact absurd (hhand e rfl) hi
      | connected _ hother => simp [hphase] at hother
      | disconnected hother => simp [hphase] at hother
      | endNow hother _ => simp [hphase] at hother
      | startWithdraw hother => simp [hphase] at hother
      | handshakeFailed _ hother => simp [hphase] at hother
      | handshakeOk _ hother => simp [hphase] at hother
      | register hother _ _ => simp [hphase] at hother
      | registered hother _ => simp [hphase] at hother
      | rolledBack hother _ => simp [hphase] at hother
      | withdraw hother _ _ => simp [hphase] at hother
      | withdrawn hother _ => simp [hphase] at hother
    · exact ⟨conn, by rw [hs.sessions_of_ne hj]; exact hphase⟩
  · exact ⟨conn, hphase⟩

theorem Process.queueReply_spec (s : Process) (reply : Option (List UInt8)) :
    (s.queueReply reply).maxCapacity = s.txQueue.maxCapacity ∧
      (s.queueReply reply).senders = s.txQueue.senders ∧
      (s.queueReply reply).closed = s.txQueue.closed ∧
      ∃ new, (s.queueReply reply).queue = s.txQueue.queue ++ new ∧ new.length ≤ 1 ∧
        ∀ p ∈ new, p.session = none := by
  unfold queueReply
  cases reply with
  | none => exact ⟨rfl, rfl, rfl, [], by simp, by simp, by simp⟩
  | some data =>
      dsimp only
      split
      · next txQueue hsend =>
          obtain ⟨-, hqueue, hclosed, hcapacity, hsenders⟩ := Channel.trySend_ok hsend
          exact ⟨hcapacity, hsenders, hclosed, [⟨data, none⟩], hqueue, by simp, by simp⟩
      · exact ⟨rfl, rfl, rfl, [], by simp, by simp, by simp⟩

theorem TunLoop.Wired.idle {rx : RxTask} {tx : TxTask} (h : TunLoop.Wired s (.running rx tx))
    (hrx : rx ≠ .popping) : s.pool.pool = .idle := by
  rcases h.2.2 with hidle | ⟨-, hpopping⟩
  · exact hidle
  · exact absurd hpopping hrx

/-- Nothing of this depends on what is in the buffers. -/
theorem Process.Wired.of_pool {pool : PoolState} (h : s.Wired) (hpool : pool.pool = s.pool.pool) :
    ({ s with pool := pool } : Process).Wired := by
  refine { h with tun := ?_ }
  have htun := h.tun
  cases hs : s.tun with
  | running rx tx =>
      rw [hs] at htun
      exact ⟨htun.1, htun.2.1, hpool ▸ htun.2.2⟩
  | ended e =>
      rw [hs] at htun
      exact ⟨htun.1, htun.2.1, hpool ▸ htun.2.2⟩

/-- The end of an iteration of `tun_rx_loop`. -/
theorem Process.Wired.of_iteration {pool : PoolState} {quic : List QueuedDatagram} (h : s.Wired)
    (hpool : pool.pool = s.pool.pool) (reply : Option (List UInt8)) :
    ({ s with
      pool := pool, rxLoop := .receiving, txQueue := s.queueReply reply, quic := quic } :
        Process).Wired := by
  obtain ⟨hcapacity, hsenders, hclosed, -⟩ := s.queueReply_spec reply
  have htun := (h.of_pool hpool).tun
  refine ⟨h.rxCapacity, hcapacity.trans h.txCapacity, h.rxOpen, hsenders.trans h.txSenders, ?_,
    by simp, h.inHand⟩
  cases hs : s.tun with
  | running rx tx =>
      rw [hs] at htun
      exact ⟨htun.1, hclosed.trans htun.2.1, htun.2.2⟩
  | ended e =>
      rw [hs] at htun
      exact ⟨htun.1, hclosed.trans htun.2.1, htun.2.2⟩

theorem ProcessStep.wired (hstep : ProcessStep cfg s a s') (h : s.Wired) : s'.Wired := by
  have htunWired := h.tun
  cases hstep with
  | node hnode hhand =>
      refine { h with inHand := ?_ }
      exact fun i hi => h.inHand_of_node hnode hi fun e => hhand i e
  | startPop htun hpool =>
      refine { h with tun := ?_ }
      rw [htun] at htunWired
      cases PoolState.step_sound hpool
      simp only [htun]
      exact ⟨htunWired.1, htunWired.2.1, .inr ⟨rfl, rfl⟩⟩
  | pop htun hpool =>
      refine { h with tun := ?_ }
      rw [htun] at htunWired
      exact ⟨htunWired.1, htunWired.2.1, .inl (PoolState.pool_of_popToRead hpool).2⟩
  | frame htun hpool hbuf hlen =>
      refine { h with tun := ?_ }
      rw [htun] at htunWired
      refine ⟨htunWired.1, htunWired.2.1, .inl ?_⟩
      exact (PoolState.pool_of_handle hpool).trans (htunWired.idle (by simp))
  | emptyFrame htun hpool hbuf hlen hpool' =>
      refine { h with tun := ?_ }
      rw [htun] at htunWired
      refine ⟨htunWired.1, htunWired.2.1, .inl ?_⟩
      rw [PoolState.pool_of_handle hpool', PoolState.pool_of_handle hpool]
      exact htunWired.idle (by simp)
  | frameRetried htun hpool =>
      refine { h with tun := ?_ }
      rw [htun] at htunWired
      refine ⟨htunWired.1, htunWired.2.1, .inl ?_⟩
      exact (PoolState.pool_of_handle hpool).trans (htunWired.idle (by simp))
  | packetSent htun hsend =>
      rw [htun] at htunWired
      obtain ⟨-, hqueue, hclosed, hcapacity, hsenders⟩ := Channel.trySend_ok hsend
      refine ⟨hcapacity.trans h.rxCapacity, h.txCapacity, hclosed.trans h.rxOpen, h.txSenders,
        ⟨hsenders.trans htunWired.1, htunWired.2.1, .inl (htunWired.idle (by simp))⟩, ?_, h.inHand⟩
      -- a loop that has ended has seen its senders go
      intro hended
      have hzero := (h.rxLoop hended).2
      have hone := htunWired.1
      omega
  | @txReceived rx packet txQueue htun hrecv =>
      rw [htun] at htunWired
      obtain ⟨-, hclosed, hcapacity, hsenders⟩ := Channel.recv_eq_some hrecv
      exact ⟨h.rxCapacity, hcapacity.trans h.txCapacity, h.rxOpen, hsenders.trans h.txSenders,
        ⟨htunWired.1, hclosed.trans htunWired.2.1, htunWired.2.2⟩, h.rxLoop, h.inHand⟩
  | @frameWritten rx packet sent htun =>
      rw [htun] at htunWired
      exact { h with tun := htunWired }
  | tunEnded htun ha hdrops hpool =>
      rw [htun] at htunWired
      obtain ⟨mid, -, hlast⟩ := runFrom_append_eq_some hpool
      obtain ⟨last, hdrop, hnil⟩ := runFrom_cons hlast
      obtain rfl := Option.some.inj hnil
      have hsenders : s.rxQueue.senders - 1 = 0 := by rw [htunWired.1]
      refine ⟨h.rxCapacity, h.txCapacity, h.rxOpen, h.txSenders, ⟨hsenders, rfl, .inl ?_⟩, ?_, h.inHand⟩
      · cases PoolState.step_sound hdrop
        rfl
      · exact fun hended => ⟨(h.rxLoop hended).1, hsenders⟩
  | pool hback hpool =>
      rcases PoolState.pool_of_background hback hpool with hsame | ⟨hclosing, hgone⟩
      · exact h.of_pool hsame
      · refine { h with tun := ?_ }
        cases hs : s.tun with
        | running rx tx =>
            rw [hs] at htunWired
            rcases htunWired.2.2 with hidle | ⟨hwaiting, -⟩
            · simp [hclosing] at hidle
            · simp [hclosing] at hwaiting
        | ended e =>
            rw [hs] at htunWired
            exact ⟨htunWired.1, htunWired.2.1, .inr hgone⟩
  | rxReceived hloop hrecv =>
      obtain ⟨-, hclosed, hcapacity, hsenders⟩ := Channel.recv_eq_some hrecv
      refine ⟨hcapacity.trans h.rxCapacity, h.txCapacity, hclosed.trans h.rxOpen, h.txSenders, ?_,
        by simp, h.inHand⟩
      cases hs : s.tun with
      | running rx tx => rw [hs] at htunWired; exact ⟨hsenders.trans htunWired.1, htunWired.2⟩
      | ended e => rw [hs] at htunWired; exact ⟨hsenders.trans htunWired.1, htunWired.2⟩
  | rxLoopEnded hloop hrecv hsenders =>
      refine { h with rxLoop := fun _ => ⟨?_, hsenders⟩ }
      cases hqueue : s.rxQueue.queue with
      | nil => rfl
      | cons slot rest => simp [Channel.recv, hqueue] at hrecv
  | sent hloop hpacket heffects hdatagram hpool =>
      exact h.of_iteration (PoolState.pool_of_rewrite hpool) _
  | answered hloop hpacket heffects hdatagram hpool =>
      exact h.of_iteration (PoolState.pool_of_handle hpool) _
  | released hmem hpool =>
      have hpool' := h.of_pool (PoolState.pool_of_handle hpool)
      exact { hpool' with tun := hpool'.tun }
  | @datagramRead i conn bytes hphase hhand =>
      refine { h with tun := htunWired, inHand := ?_ }
      intro j hj
      by_cases hij : j = i
      · exact ⟨conn, hij ▸ hphase⟩
      · exact h.inHand j (by simpa [Function.update_of_ne hij] using hj)
  | @datagramQueued i bytes txQueue hhand hsend =>
      obtain ⟨-, -, hclosed, hcapacity, hsenders⟩ := Channel.trySend_ok hsend
      refine ⟨h.rxCapacity, hcapacity.trans h.txCapacity, h.rxOpen, hsenders.trans h.txSenders, ?_,
        h.rxLoop, ?_⟩
      · cases hs : s.tun with
        | running rx tx =>
            rw [hs] at htunWired
            exact ⟨htunWired.1, hclosed.trans htunWired.2.1, htunWired.2.2⟩
        | ended e =>
            rw [hs] at htunWired
            exact ⟨htunWired.1, hclosed.trans htunWired.2.1, htunWired.2.2⟩
      · intro j hj
        by_cases hij : j = i
        · simp [hij] at hj
        · exact h.inHand j (by simpa [Function.update_of_ne hij] using hj)
  | @datagramRefused i bytes node hhand hclosed hnode =>
      refine { h with tun := htunWired, inHand := ?_ }
      intro j hj
      by_cases hij : j = i
      · simp [hij] at hj
      · have hj' : s.inHand j ≠ none := by simpa [Function.update_of_ne hij] using hj
        refine h.inHand_of_node hnode hj' ?_
        intro e heq
        exact absurd (NodeAction.session.inj heq).1 (Ne.symm hij)

/-! ## What can go on -/

/-- An iteration goes through, and the datagram it sends is one it may send. -/
theorem RxContext.exists_tunRxIteration (ctx : RxContext) (packet : List UInt8) :
    ∃ effects, ctx.tunRxIteration packet = some effects ∧
      ∀ peer bytes, effects.datagrams.head? = some (peer, bytes) →
        ctx.MaySend packet peer bytes := by
  by_cases hdns : ctx.ForDns packet
  · obtain ⟨dns, hdispatch, hdest⟩ := hdns
    refine ⟨⟨[], ctx.trySend (dns.handlePacket packet)⟩, ?_, by simp⟩
    unfold tunRxIteration
    rw [hdispatch]
    exact if_pos hdest
  · obtain ⟨effects, heffects, hdispatched⟩ := ctx.dispatch_dispatched packet hdns
    refine ⟨effects, ?_, fun peer bytes hhead => hdispatched.sent peer bytes (List.mem_of_head? hhead)⟩
    unfold tunRxIteration
    cases hdispatch : ctx.dnsDispatch with
    | none => exact heffects
    | some dns =>
        dsimp only
        rw [if_neg fun hdest => hdns ⟨dns, hdispatch, hdest⟩]
        exact heffects

theorem RxContext.MaySend.length_eq {ctx : RxContext} {packet bytes : List UInt8}
    {peer : ConnectedPeer} (h : ctx.MaySend packet peer bytes) : bytes.length = packet.length := by
  rcases h.bytes with rfl | hmarked
  · rfl
  · obtain ⟨marked, action, hprocess, hlen⟩ := processPacketCongestion_length ctx.rules packet
    obtain ⟨rfl, -⟩ := Prod.mk.inj (Option.some.inj (hmarked.symm.trans hprocess))
    exact hlen

/-- The packet of `tun_rx_loop` is there. -/
theorem Process.Held.view_handling {slot : Nat} (h : s.Held) (hloop : s.rxLoop = .handling slot) :
    ∃ bytes, s.pool.view slot = some (.packet bytes) :=
  h.shows (slot, .packet) (by simp [places, hloop, RxLoop.slots])

theorem Process.Held.exists_iterate {slot : Nat} (h : s.Held) (hloop : s.rxLoop = .handling slot)
    (env : Surroundings) : ∃ s', s.iterate cfg env = some s' := by
  obtain ⟨packet, hview⟩ := h.view_handling hloop
  have hpacket := h.inv.packetAt_of_view hview
  obtain ⟨effects, heffects, hsent⟩ := (s.rxContext cfg env).exists_tunRxIteration packet
  simp only [iterate, hloop, hpacket, heffects, finishIteration]
  cases hhead : effects.datagrams.head? with
  | none =>
      obtain ⟨pool, hpool⟩ := PoolState.exists_drop hview
      simp [hpool]
  | some datagram =>
      have hlen := (hsent datagram.1 datagram.2 hhead).length_eq
      obtain ⟨pool, hpool⟩ := h.inv.exists_rewrite hview hlen
      simp [hpool]

/-- Steps the process's own tasks make by themselves. -/
def ProcessAction.isInternal : ProcessAction → Bool
  | .tun .startPop | .tun .pop | .tun .sendPacket | .tun .recvPacket => true
  | .pool _ | .recvRxPacket | .iterate _ | .sendTxPacket _ => true
  | _ => false

/-- None of them can be made. -/
def Process.Quiet (cfg : ProcessConfig) (s : Process) : Prop :=
  ∀ a, a.isInternal = true → s.step cfg a = none

/-- What a quiet process waits for. -/
structure Process.WaitsOutside (s : Process) : Prop where
  rxQueue : s.rxQueue.queue = []
  /-- All buffers that were given up are back. -/
  dropping : s.pool.dropping = 0
  /-- While the device's loop runs: for a frame, or for QUIC to give back one of the buffers, which
      are all with it; for the device to take a packet, or for a peer to send one. -/
  running : ∀ rx tx, s.tun = .running rx tx →
    s.rxLoop = .receiving ∧
    ((∃ slot, rx = .reading slot) ∨ (rx = .popping ∧ s.quic.length = bufferPool)) ∧
    ((∃ packet, tx = .writing packet) ∨ (s.txQueue.queue = [] ∧ ∀ i, s.inHand i = none))
  /-- After its end: for nothing. -/
  ended : ∀ e, s.tun = .ended e → s.rxLoop = .ended ∧ ∀ i, s.inHand i = none

namespace Process

/-- Buffers and channels are in order. -/
structure Sound (s : Process) : Prop where
  held : s.Held
  wired : s.Wired

theorem Sound.of_run (hnew : Process.new cfg = some s) {acts : List ProcessAction}
    (hrun : runFrom (Process.step cfg) s acts = some s') : s'.Sound := by
  refine runFrom_invariant (fun _ _ _ hsound hstep => ?_) ⟨.new hnew, .new hnew⟩ hrun
  obtain ⟨-, hstep⟩ := step_sound hstep
  exact ⟨hstep.held hsound.held, hstep.wired hsound.wired⟩

theorem Quiet.rxLoop_ne_handling (hquiet : s.Quiet cfg) (h : s.Sound)
    (hcalm : s.node.relay.panicked = false) (slot : Nat) : s.rxLoop ≠ .handling slot := by
  intro hloop
  let env : Surroundings := ⟨fun _ => none, fun _ => ⟨default, none, true, .ok ()⟩⟩
  obtain ⟨s', hstep⟩ : ∃ s', s.iterate cfg env = some s' := h.held.exists_iterate hloop env
  have hnone := hquiet (.iterate env) rfl
  simp [step, hcalm, hstep] at hnone

/-- A loop that could receive would. -/
theorem Quiet.recv_eq_none (hquiet : s.Quiet cfg) (hcalm : s.node.relay.panicked = false)
    (hloop : s.rxLoop = .receiving) : s.rxQueue.queue = [] ∧ s.rxQueue.senders ≠ 0 := by
  have hnone := hquiet .recvRxPacket rfl
  simp only [step, hcalm, Bool.false_eq_true, if_false, recvRxPacket, hloop] at hnone
  cases hqueue : s.rxQueue.queue with
  | cons slot rest => simp [Channel.recv, hqueue] at hnone
  | nil => exact ⟨rfl, by simpa [Channel.recv, hqueue] using hnone⟩

theorem Quiet.dropping_eq_zero (hquiet : s.Quiet cfg) (h : s.Sound)
    (hcalm : s.node.relay.panicked = false) : s.pool.dropping = 0 := by
  by_contra hdropping
  obtain ⟨a, pool, hback, hstep⟩ := h.held.inv.exists_background hdropping
  have hnone := hquiet (.pool a) rfl
  simp [step, hcalm, hback, hstep] at hnone

/-- The reading task waits for the device, or for a buffer that is not there. -/
theorem Quiet.rxTask (hquiet : s.Quiet cfg) (h : s.Sound) (hcalm : s.node.relay.panicked = false)
    {rx : RxTask} {tx : TxTask} (htun : s.tun = .running rx tx) (hqueue : s.rxQueue.queue = []) :
    (∃ slot, rx = .reading slot) ∨
      (rx = .popping ∧ s.pool.pool = .waiting ∧ s.pool.channel.queue = []) := by
  have hwired := h.wired.tun
  rw [htun] at hwired
  cases rx with
  | reading slot => exact .inl ⟨slot, rfl⟩
  | sending slot =>
      have hroom : s.rxQueue.hasRoom = true := by
        simp [Channel.hasRoom, h.wired.rxOpen, hqueue, h.wired.rxCapacity, packetChannel]
      obtain ⟨rxQueue, hsend⟩ := Channel.trySend_of_hasRoom hroom slot
      have hnone := hquiet (.tun .sendPacket) rfl
      simp [step, hcalm, tunStep, htun, rxTaskStep, hsend] at hnone
  | popping =>
      refine .inr ⟨rfl, ?_⟩
      rcases hwired.2.2 with hidle | ⟨hwaiting, -⟩
      · have hnone := hquiet (.tun .startPop) rfl
        simp [step, hcalm, tunStep, htun, rxTaskStep, PoolState.step, hidle] at hnone
      · refine ⟨hwaiting, ?_⟩
        by_contra hbuffers
        obtain ⟨pool, hpop⟩ := h.held.inv.exists_popToRead hwaiting hbuffers
        have hnone := hquiet (.tun .pop) rfl
        simp [step, hcalm, tunStep, htun, rxTaskStep, hpop] at hnone

/-- The writing task waits for the device, or there is nothing to write. -/
theorem Quiet.txTask (hquiet : s.Quiet cfg) (h : s.Sound) (hcalm : s.node.relay.panicked = false)
    {rx : RxTask} {tx : TxTask} (htun : s.tun = .running rx tx) :
    (∃ packet, tx = .writing packet) ∨ (s.txQueue.queue = [] ∧ ∀ i, s.inHand i = none) := by
  have hwired := h.wired.tun
  rw [htun] at hwired
  cases tx with
  | writing packet => exact .inl ⟨packet, rfl⟩
  | receiving =>
      have hqueue : s.txQueue.queue = [] := by
        have hnone := hquiet (.tun .recvPacket) rfl
        simp only [step, hcalm, Bool.false_eq_true, if_false, tunStep, htun, txTaskStep] at hnone
        cases hqueue : s.txQueue.queue with
        | nil => rfl
        | cons packet rest => simp [Channel.recv, hqueue] at hnone
      refine .inr ⟨hqueue, ?_⟩
      intro i
      by_contra hi
      obtain ⟨bytes, hhand⟩ := Option.ne_none_iff_exists'.1 hi
      have hroom : s.txQueue.hasRoom = true := by
        simp [Channel.hasRoom, hwired.2.1, hqueue, h.wired.txCapacity, packetChannel]
      obtain ⟨txQueue, hsend⟩ := Channel.trySend_of_hasRoom hroom ⟨bytes, some i⟩
      have hnone := hquiet (.sendTxPacket i) rfl
      simp [step, hcalm, sendTxPacket, hhand, hsend] at hnone

/-- After the end of the device's loop the receive loops find its channel closed. -/
theorem Quiet.inHand_of_ended (hquiet : s.Quiet cfg) (h : s.Sound)
    (hcalm : s.node.relay.panicked = false) {e : TunError} (htun : s.tun = .ended e) (i : Nat) :
    s.inHand i = none := by
  have hwired := h.wired.tun
  rw [htun] at hwired
  by_contra hi
  obtain ⟨bytes, hhand⟩ := Option.ne_none_iff_exists'.1 hi
  obtain ⟨conn, hphase⟩ := h.wired.inHand i hi
  have hsend : s.txQueue.trySend ⟨bytes, some i⟩ = .error .closed := if_pos hwired.2.1
  have hnone := hquiet (.sendTxPacket i) rfl
  simp [step, hcalm, sendTxPacket, hhand, hsend, Node.step, Node.sessionStep, hphase] at hnone

/-- A quiet process waits only for what is outside. -/
theorem Sound.waitsOutside (h : s.Sound) (hcalm : s.node.relay.panicked = false)
    (hquiet : s.Quiet cfg) : s.WaitsOutside := by
  have hdropping := hquiet.dropping_eq_zero h hcalm
  have hloop : s.rxLoop = .receiving ∨ s.rxLoop = .ended := by
    cases hloop : s.rxLoop with
    | receiving => exact .inl rfl
    | ended => exact .inr rfl
    | handling slot => exact absurd hloop (hquiet.rxLoop_ne_handling h hcalm slot)
  have hqueue : s.rxQueue.queue = [] := by
    rcases hloop with hloop | hloop
    · exact (hquiet.recv_eq_none hcalm hloop).1
    · exact (h.wired.rxLoop hloop).1
  refine ⟨hqueue, hdropping, ?_, ?_⟩
  · intro rx tx htun
    have hwired := h.wired.tun
    rw [htun] at hwired
    have hreceiving : s.rxLoop = .receiving := by
      rcases hloop with hloop | hloop
      · exact hloop
      · have hzero := (h.wired.rxLoop hloop).2
        have hone := hwired.1
        omega
    refine ⟨hreceiving, ?_, hquiet.txTask h hcalm htun⟩
    rcases hquiet.rxTask h hcalm htun hqueue with hreading | ⟨rfl, hwaiting, hbuffers⟩
    · exact .inl hreading
    · -- the pool is empty and only QUIC has a place in the ledger
      have hsum := h.held.conserved (by simp [PoolState.alive, hwaiting]) (by simp [hwaiting])
      refine .inr ⟨rfl, ?_⟩
      simpa [hbuffers, hdropping, places, hreceiving, RxLoop.slots, hqueue, htun, TunLoop.place]
        using hsum
  · intro e htun
    have hwired := h.wired.tun
    rw [htun] at hwired
    refine ⟨?_, hquiet.inHand_of_ended h hcalm htun⟩
    rcases hloop with hloop | hloop
    · exact absurd hwired.1 (hquiet.recv_eq_none hcalm hloop).2
    · exact hloop

/-! ## Coming to rest -/

/-- What the reading task may still do by itself, and the end of the device's loop. -/
def tunWork (stage : PoolStage) : TunLoop → Nat
  | .running .popping _ => if stage = .idle then 7 else 6
  | .running (.reading _) _ => 5
  | .running (.sending _) _ => 14
  | .ended _ => 0

/-- What `tun_rx_loop` still has to do, the packets in its channel apart. -/
def loopWork : RxLoop → Nat
  | .receiving => 1
  | .handling _ => 6
  | .ended => 0

/-- A bound on the internal steps that are left. -/
noncomputable def work (s : Process) : Nat :=
  tunWork s.pool.pool s.tun + 6 * s.rxQueue.queue.length + loopWork s.rxLoop + s.pool.work +
    s.txQueue.queue.length + 2 * {i | s.inHand i ≠ none}.ncard

/-- Finitely many sessions have a datagram in hand. -/
def FewInHand (s : Process) : Prop := {i | s.inHand i ≠ none}.Finite

theorem inHand_update_none (s : Process) (i : Nat) :
    {j | Function.update s.inHand i none j ≠ none} = {j | s.inHand j ≠ none} \ {i} := by
  ext j
  by_cases hj : j = i <;> simp [hj]

theorem ncard_inHand_lt (h : s.FewInHand) {i : Nat} (hi : s.inHand i ≠ none) :
    {j | Function.update s.inHand i none j ≠ none}.ncard + 1 = {j | s.inHand j ≠ none}.ncard := by
  rw [inHand_update_none]
  exact Set.ncard_sdiff_singleton_add_one (by exact hi) h

/-- The end of the device's loop leaves less to do. -/
theorem work_of_drops {rx : RxTask} {tx : TxTask} {drops : List PoolAction} {pool : PoolState}
    (htun : s.tun = .running rx tx) (hdrops : rx.Drops s.pool.pool drops)
    (hpool : runFrom PoolState.step s.pool (drops ++ [.dropReceiver]) = some pool) :
    pool.work < tunWork s.pool.pool s.tun + s.pool.work := by
  -- dropping the receiving end leaves one step
  have hlast : ∀ {mid : PoolState}, runFrom PoolState.step mid [.dropReceiver] = some pool →
      pool.work ≤ mid.dropWork + 1 := by
    intro mid hrun
    obtain ⟨last, hstep, hnil⟩ := runFrom_cons hrun
    obtain rfl := Option.some.inj hnil
    cases PoolState.step_sound hstep
    simp [PoolState.work, PoolState.dropWork]
  have hle : s.pool.dropWork ≤ s.pool.work := Nat.le_add_right _ _
  rw [htun]
  cases hdrops with
  | cancel hstage =>
      obtain ⟨mid, hstep, hrun⟩ := runFrom_cons hpool
      have hwork := hlast hrun
      cases PoolState.step_sound hstep
      simp only [PoolState.dropWork] at hwork hle
      simp only [tunWork]
      split_ifs <;> omega
  | idle hstage =>
      have hwork := hlast hpool
      simp only [tunWork]
      split_ifs <;> omega
  | frame slot scribbled =>
      obtain ⟨mid, hstep, hrun⟩ := runFrom_cons hpool
      have hwork := hlast hrun
      rw [PoolState.dropWork_of_handle hstep] at hwork
      simp only [tunWork, HandleAction.drops, if_true] at hwork ⊢
      omega
  | packet slot =>
      obtain ⟨mid, hstep, hrun⟩ := runFrom_cons hpool
      have hwork := hlast hrun
      rw [PoolState.dropWork_of_handle hstep] at hwork
      simp only [tunWork, HandleAction.drops, if_true] at hwork ⊢
      omega

end Process

theorem ProcessStep.work_lt (hstep : ProcessStep cfg s a s') (hfew : s.FewInHand)
    (hinternal : a.isInternal = true) : s'.work < s.work := by
  unfold Process.work
  cases hstep with
  | startPop htun hpool =>
      cases PoolState.step_sound hpool with
      | startPop hidle =>
          simp [htun, Process.tunWork, hidle, PoolState.work, PoolState.dropWork]
  | pop htun hpool =>
      obtain ⟨hwaiting, hidle⟩ := PoolState.pool_of_popToRead hpool
      simp only [htun, Process.tunWork, hwaiting, PoolState.work_of_popToRead hpool]
      simp
  | packetSent htun hsend =>
      obtain ⟨-, hqueue, -⟩ := Channel.trySend_ok hsend
      simp only [htun, Process.tunWork, hqueue, List.length_append, List.length_singleton]
      split_ifs <;> omega
  | @txReceived rx packet txQueue htun hrecv =>
      obtain ⟨hqueue, -⟩ := Channel.recv_eq_some hrecv
      rw [hqueue, List.length_cons]
      cases rx <;> simp only [htun, Process.tunWork] <;> omega
  | @tunEnded _ rx tx drops pool e htun ha hdrops hpool =>
      have hwork := Process.work_of_drops htun hdrops hpool
      have hzero : Process.tunWork pool.pool (.ended e) = 0 := rfl
      simp only [hzero, Channel.dropReceiver, Channel.dropSender, List.length_nil]
      omega
  | pool hback hpool =>
      have hwork := PoolState.work_of_background hback hpool
      rcases PoolState.pool_of_background hback hpool with hsame | ⟨hclosing, hgone⟩
      · simp only [hsame]
        omega
      · simp only [hclosing, hgone]
        have htun : Process.tunWork .gone s.tun = Process.tunWork .closing s.tun := by
          cases s.tun with
          | ended e => rfl
          | running rx tx => cases rx <;> rfl
        omega
  | rxReceived hloop hrecv =>
      obtain ⟨hqueue, -⟩ := Channel.recv_eq_some hrecv
      simp only [hloop, Process.loopWork, hqueue, List.length_cons]
      omega
  | rxLoopEnded hloop hrecv hsenders =>
      simp only [hloop, Process.loopWork]
      omega
  | @sent env slot packet bytes effects peer pool hloop hpacket heffects hdatagram hpool =>
      obtain ⟨-, -, -, new, hqueue, hlen, -⟩ := s.queueReply_spec effects.written.head?
      simp only [hloop, Process.loopWork, PoolState.pool_of_rewrite hpool,
        PoolState.work_of_rewrite hpool, hqueue, List.length_append]
      omega
  | @answered env slot packet effects pool hloop hpacket heffects hdatagram hpool =>
      obtain ⟨-, -, -, new, hqueue, hlen, -⟩ := s.queueReply_spec effects.written.head?
      simp only [hloop, Process.loopWork, PoolState.pool_of_handle hpool,
        PoolState.work_of_handle hpool, HandleAction.drops, if_true, hqueue, List.length_append]
      omega
  | @datagramQueued i bytes txQueue hhand hsend =>
      obtain ⟨-, hqueue, -⟩ := Channel.trySend_ok hsend
      have hcard := Process.ncard_inHand_lt hfew (i := i) (by simp [hhand])
      simp only [hqueue, List.length_append, List.length_singleton]
      omega
  | @datagramRefused i bytes node hhand hclosed hnode =>
      have hcard := Process.ncard_inHand_lt hfew (i := i) (by simp [hhand])
      dsimp only
      omega
  | _ => simp [ProcessAction.isInternal] at hinternal

/-- A step puts at most one datagram in a hand. -/
theorem ProcessStep.fewInHand (hstep : ProcessStep cfg s a s') (h : s.FewInHand) : s'.FewInHand := by
  cases hstep with
  | @datagramRead i conn bytes hphase hhand =>
      refine (h.insert i).subset ?_
      intro j hj
      by_cases hij : j = i
      · exact .inl hij
      · exact .inr (by simpa [Function.update_of_ne hij] using hj)
  | @datagramQueued i bytes txQueue hhand hsend =>
      unfold Process.FewInHand
      rw [Process.inHand_update_none]
      exact h.subset Set.sdiff_subset
  | @datagramRefused i bytes node hhand hclosed hnode =>
      unfold Process.FewInHand
      rw [Process.inHand_update_none]
      exact h.subset Set.sdiff_subset
  | _ => exact h

/-- The process's own steps do not panic. -/
theorem ProcessStep.panicked_of_internal (hstep : ProcessStep cfg s a s')
    (hinternal : a.isInternal = true) : s'.node.relay.panicked = s.node.relay.panicked := by
  cases hstep with
  | node hnode hhand => simp [ProcessAction.isInternal] at hinternal
  | datagramRefused hhand hclosed hnode =>
      rcases Node.step_cases hnode with ⟨i, sa, heq, hs⟩ | ⟨conn, heq, -⟩
      · obtain ⟨rfl, rfl⟩ := NodeAction.session.inj heq
        cases hs with
        | recvLoopEnded e hphase hconn => exact RelayState.panicked_park _ _
      · simp at heq
  | _ => rfl

namespace Process

/-- **The process comes to rest, waiting only for what is outside.** From every state a run can
    reach without a panic, the process's own tasks can make only so many steps by themselves, and when
    none of them can make another one, the channel to `tun_rx_loop` is empty and the loop idle, all
    buffers given up are back in the pool, and what is being waited for is a frame, the device, a
    peer or, when no buffer is left, QUIC, which then has all of them. -/
theorem comes_to_rest (hnew : Process.new cfg = some s) {acts : List ProcessAction}
    (hrun : runFrom (Process.step cfg) s acts = some s')
    (hcalm : s'.node.relay.panicked = false) :
    (∀ more last, (∀ a ∈ more, a.isInternal = true) →
      runFrom (Process.step cfg) s' more = some last →
      more.length ≤ s'.work ∧ (last.Quiet cfg → last.WaitsOutside)) ∧
    ∃ more last, (∀ a ∈ more, a.isInternal = true) ∧
      runFrom (Process.step cfg) s' more = some last ∧ last.Quiet cfg := by
  let I : Process → Prop := fun s =>
    s.Sound ∧ s.FewInHand ∧ s.node.relay.panicked = false
  have hfew : s'.FewInHand := by
    refine runFrom_invariant (fun _ _ _ hfew hstep => (step_sound hstep).2.fewInHand hfew) ?_ hrun
    obtain ⟨pool, -, rfl⟩ := Option.map_eq_some_iff.1 hnew
    simp [FewInHand]
  have h0 : I s' := ⟨.of_run hnew hrun, hfew, hcalm⟩
  have hI : ∀ t a t', I t → a.isInternal = true → t.step cfg a = some t' → I t' := by
    rintro t a t' ⟨hsound, hfew, hcalm⟩ ha hstep
    obtain ⟨-, hstep⟩ := step_sound hstep
    exact ⟨⟨hstep.held hsound.held, hstep.wired hsound.wired⟩, hstep.fewInHand hfew,
      (hstep.panicked_of_internal ha).trans hcalm⟩
  have hwork : ∀ t a t', I t → a.isInternal = true → t.step cfg a = some t' → t'.work < t.work := by
    rintro t a t' ⟨-, hfew, -⟩ ha hstep
    exact (step_sound hstep).2.work_lt hfew ha
  refine ⟨?_, ?_⟩
  · intro more last hinternal hmore
    have hlen := length_add_le_of_decreasing hI hwork h0 hinternal hmore
    obtain ⟨hsound, -, hcalm'⟩ : I last :=
      runFrom_invariant_of_meets hI h0 (RunMeets.of_forall s' more fun a ha _ => hinternal a ha) hmore
    exact ⟨by omega, hsound.waitsOutside hcalm'⟩
  · obtain ⟨more, last, hinternal, hmore, -, hquiet⟩ := exists_run_to_rest hI hwork h0
    exact ⟨more, last, hinternal, hmore, hquiet⟩

end Process

end

/-! A peer connects, a packet goes to it, another frame is read, a datagram of the peer is written and
the next one read. -/

/-- A node without a resolver, on an OS that may answer anything. -/
def ProcessConfig.sample : ProcessConfig := ⟨⟨.any, fun _ => "peer", false⟩, .lenient, none, default⟩

/-- From 10.0.0.2 to 10.0.0.1. -/
def samplePacket : List UInt8 := [0x45, 0, 0, 20, 0, 0, 0, 0, 64, 59, 0, 0, 10, 0, 0, 2, 10, 0, 0, 1]

/-- A frame is read. -/
def sampleRead (bytes : List UInt8) : List ProcessAction :=
  [.tun .startPop, .tun .pop, .tun (.frameRead (.whole bytes)), .tun .sendPacket]

/-- A peer connects and registers an address, and a packet is sent on its connection. -/
def sampleSend (route : IpAddr) (packet : List UInt8) : List ProcessAction :=
  let relay : List ProcessAction :=
    [.acquire, .poll 0, .osReply 0 true true, .poll 0, .finish].map fun ca =>
      .node (.session 0 (.relay ca))
  [.node (.session 0 (.connected 7)), .node (.session 0 (.handshake (.ok ⟨[route]⟩)))] ++ relay ++
    sampleRead packet ++
    [.recvRxPacket, .iterate ⟨fun _ => none, fun _ => ⟨default, none, true, .ok ()⟩⟩,
      .release ⟨⟨7⟩, 0⟩ true]

/-- A packet goes out, another frame is read, and two datagrams come in. -/
def sampleRun : List ProcessAction :=
  sampleSend (.v4 0x0a000001) samplePacket ++ sampleRead [1, 2] ++
    [.readDatagram 0 [5, 6], .sendTxPacket 0, .tun .recvPacket, .tun (.frameSent (.ok 2)),
      .readDatagram 0 [5, 7]]

namespace Process

set_option maxRecDepth 20000 in
theorem exists_sampleRun :
    ∃ s, Process.new .sample = some s ∧ ∃ s', runFrom (Process.step .sample) s sampleRun = some s' ∧
      s'.node.relay.panicked = false ∧ s'.tun = .running .popping .receiving := by
  have hrun : (Process.new .sample).any (fun s => decide
      (((runFrom (Process.step .sample) s sampleRun).any fun s' => decide
        (s'.node.relay.panicked = false ∧ s'.tun = .running .popping .receiving)) = true)) = true := by
    decide +kernel
  obtain ⟨s, hnew, hsome⟩ := exists_of_any hrun
  exact ⟨s, hnew, exists_of_any hsome⟩

theorem comes_to_rest_sample :
    ∃ s s' more last, Process.new .sample = some s ∧
      runFrom (Process.step .sample) s sampleRun = some s' ∧
      (∀ a ∈ more, a.isInternal = true) ∧ runFrom (Process.step .sample) s' more = some last ∧
      more.length ≤ s'.work ∧ last.WaitsOutside := by
  obtain ⟨s, hnew, s', hrun, hcalm, -⟩ := exists_sampleRun
  obtain ⟨hbound, more, last, hinternal, hmore, hquiet⟩ := comes_to_rest hnew hrun hcalm
  obtain ⟨hlen, houtside⟩ := hbound more last hinternal hmore
  exact ⟨s, s', more, last, hnew, hrun, hinternal, hmore, hlen, houtside hquiet⟩

end Process

end P2pVpn
