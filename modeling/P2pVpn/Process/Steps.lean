import P2pVpn.Process.Basic

set_option autoImplicit false

/-! # What a step of the process can do

`ProcessStep` lists the transitions of `Process.step`, one constructor for each way out of an await,
with the part of the pool and of the sessions as a step of theirs. -/

namespace P2pVpn

/-- What happens to the buffer of the reading task when `control` ends. -/
inductive RxTask.Drops (stage : PoolStage) : RxTask → List PoolAction → Prop where
  | cancel (h : stage = .waiting) : Drops stage .popping [.cancelPop]
  | idle (h : stage ≠ .waiting) : Drops stage .popping []
  | frame (slot : Nat) (scribbled : List UInt8) :
      Drops stage (.reading slot) [.handle slot (.frameFailed scribbled)]
  | packet (slot : Nat) : Drops stage (.sending slot) [.handle slot .drop]

/-- Transitions of the process. -/
inductive ProcessStep (cfg : ProcessConfig) (s : Process) : ProcessAction → Process → Prop where
  | node {a : NodeAction} {node : Node} (hnode : s.node.step cfg.node a = some node)
      (hhand : ∀ i e, a = .session i (.recvLoopEnded e) → s.inHand i = none) :
      ProcessStep cfg s (.node a) { s with node := node }
  | startPop {tx : TxTask} {pool : PoolState} (htun : s.tun = .running .popping tx)
      (hpool : s.pool.step .startPop = some pool) :
      ProcessStep cfg s (.tun .startPop) { s with pool := pool }
  | pop {tx : TxTask} {pool : PoolState} (htun : s.tun = .running .popping tx)
      (hpool : s.pool.popToRead = some pool) :
      ProcessStep cfg s (.tun .pop)
        { s with pool := pool, tun := .running (.reading s.pool.slots.length) tx }
  | frame {tx : TxTask} {slot : Nat} {w : Write} {pool : PoolState} {buf : List UInt8}
      (htun : s.tun = .running (.reading slot) tx)
      (hpool : s.pool.step (.handle slot (.frameRead w)) = some pool)
      (hbuf : pool.packetAt slot = some buf) (hlen : 0 < buf.length) :
      ProcessStep cfg s (.tun (.frameRead w))
        { s with pool := pool, tun := .running (.sending slot) tx }
  | emptyFrame {tx : TxTask} {slot : Nat} {w : Write} {pool pool' : PoolState} {buf : List UInt8}
      (htun : s.tun = .running (.reading slot) tx)
      (hpool : s.pool.step (.handle slot (.frameRead w)) = some pool)
      (hbuf : pool.packetAt slot = some buf) (hlen : buf = [])
      (hpool' : pool.step (.handle slot .drop) = some pool') :
      ProcessStep cfg s (.tun (.frameRead w))
        { s with pool := pool', tun := .running .popping tx }
  | frameRetried {tx : TxTask} {slot : Nat} {e : IoError} {scribbled : List UInt8} {pool : PoolState}
      (htun : s.tun = .running (.reading slot) tx)
      (hpool : s.pool.step (.handle slot (.frameFailed scribbled)) = some pool) :
      ProcessStep cfg s (.tun (.frameFailed e scribbled))
        { s with pool := pool, tun := .running .popping tx }
  | packetSent {tx : TxTask} {slot : Nat} {rxQueue : Channel Nat}
      (htun : s.tun = .running (.sending slot) tx) (hsend : s.rxQueue.trySend slot = .ok rxQueue) :
      ProcessStep cfg s (.tun .sendPacket)
        { s with rxQueue := rxQueue, tun := .running .popping tx }
  | txReceived {rx : RxTask} {packet : TxPacket} {txQueue : Channel TxPacket}
      (htun : s.tun = .running rx .receiving) (hrecv : s.txQueue.recv = some (packet, txQueue)) :
      ProcessStep cfg s (.tun .recvPacket)
        { s with txQueue := txQueue, tun := .running rx (.writing packet) }
  /-- Written, or lost to a transient error. -/
  | frameWritten {rx : RxTask} {packet : TxPacket} {sent : Except IoError Nat}
      (htun : s.tun = .running rx (.writing packet)) :
      ProcessStep cfg s (.tun (.frameSent sent)) { s with tun := .running rx .receiving }
  | tunEnded {a : TunAction} {rx : RxTask} {tx : TxTask} {drops : List PoolAction}
      {pool : PoolState} {e : TunError} (htun : s.tun = .running rx tx)
      (ha : ∀ w, a ≠ .frameRead w) (hdrops : rx.Drops s.pool.pool drops)
      (hpool : runFrom PoolState.step s.pool (drops ++ [.dropReceiver]) = some pool) :
      ProcessStep cfg s (.tun a)
        { s with
          pool := pool
          tun := .ended e
          rxQueue := s.rxQueue.dropSender
          txQueue := s.txQueue.dropReceiver }
  | pool {a : PoolAction} {pool : PoolState} (hback : a.isBackground = true)
      (hpool : s.pool.step a = some pool) : ProcessStep cfg s (.pool a) { s with pool := pool }
  | rxReceived {slot : Nat} {rxQueue : Channel Nat} (hloop : s.rxLoop = .receiving)
      (hrecv : s.rxQueue.recv = some (slot, rxQueue)) :
      ProcessStep cfg s .recvRxPacket { s with rxQueue := rxQueue, rxLoop := .handling slot }
  | rxLoopEnded (hloop : s.rxLoop = .receiving) (hrecv : s.rxQueue.recv = none)
      (hsenders : s.rxQueue.senders = 0) :
      ProcessStep cfg s .recvRxPacket { s with rxLoop := .ended }
  | sent {env : Surroundings} {slot : Nat} {packet bytes : List UInt8} {effects : RxEffects}
      {peer : ConnectedPeer} {pool : PoolState} (hloop : s.rxLoop = .handling slot)
      (hpacket : s.pool.packetAt slot = some packet)
      (heffects : (s.rxContext cfg env).tunRxIteration packet = some effects)
      (hdatagram : effects.datagrams.head? = some (peer, bytes))
      (hpool : s.pool.rewrite slot bytes = some pool) :
      ProcessStep cfg s (.iterate env)
        { s with
          pool := pool
          rxLoop := .receiving
          txQueue := s.queueReply effects.written.head?
          quic := s.quic ++ [⟨peer, slot⟩] }
  | answered {env : Surroundings} {slot : Nat} {packet : List UInt8} {effects : RxEffects}
      {pool : PoolState} (hloop : s.rxLoop = .handling slot)
      (hpacket : s.pool.packetAt slot = some packet)
      (heffects : (s.rxContext cfg env).tunRxIteration packet = some effects)
      (hdatagram : effects.datagrams.head? = none)
      (hpool : s.pool.step (.handle slot .drop) = some pool) :
      ProcessStep cfg s (.iterate env)
        { s with
          pool := pool, rxLoop := .receiving, txQueue := s.queueReply effects.written.head? }
  | released {d : QueuedDatagram} {sent : Bool} {pool : PoolState} (hmem : d ∈ s.quic)
      (hpool : s.pool.step (.handle d.slot .drop) = some pool) :
      ProcessStep cfg s (.release d sent) { s with pool := pool, quic := s.quic.erase d }
  | datagramRead {i conn : Nat} {bytes : List UInt8}
      (hphase : (s.node.sessions i).phase = .receiving conn) (hhand : s.inHand i = none) :
      ProcessStep cfg s (.readDatagram i bytes)
        { s with inHand := Function.update s.inHand i (some bytes) }
  | datagramQueued {i : Nat} {bytes : List UInt8} {txQueue : Channel TxPacket}
      (hhand : s.inHand i = some bytes) (hsend : s.txQueue.trySend ⟨bytes, some i⟩ = .ok txQueue) :
      ProcessStep cfg s (.sendTxPacket i)
        { s with txQueue := txQueue, inHand := Function.update s.inHand i none }
  | datagramRefused {i : Nat} {bytes : List UInt8} {node : Node} (hhand : s.inHand i = some bytes)
      (hclosed : s.txQueue.closed = true)
      (hnode : s.node.step cfg.node (.session i (.recvLoopEnded .txPacket)) = some node) :
      ProcessStep cfg s (.sendTxPacket i)
        { s with node := node, inHand := Function.update s.inHand i none }

section

variable {cfg : ProcessConfig} {s s' : Process}

theorem RxTask.drops_dropActions (stage : PoolStage) (rx : RxTask) :
    rx.Drops stage (rx.dropActions stage) := by
  cases rx with
  | popping =>
      unfold dropActions
      split_ifs with h
      · exact .cancel h
      · exact .idle h
  | reading slot => exact .frame slot []
  | sending slot => exact .packet slot

theorem Process.endTun_eq_some {drops : List PoolAction} {e : TunError}
    (h : s.endTun drops e = some s') :
    ∃ pool, runFrom PoolState.step s.pool (drops ++ [.dropReceiver]) = some pool ∧
      s' = { s with
        pool := pool
        tun := .ended e
        rxQueue := s.rxQueue.dropSender
        txQueue := s.txQueue.dropReceiver } := by
  obtain ⟨pool, hrun, rfl⟩ := Option.map_eq_some_iff.1 h
  exact ⟨pool, hrun, rfl⟩

/-- The steps of the reading task. -/
theorem Process.rxTaskStep_sound {rx : RxTask} {tx : TxTask} {a : TunAction}
    (htun : s.tun = .running rx tx) (h : s.rxTaskStep tx rx a = some s') :
    ProcessStep cfg s (.tun a) s' := by
  unfold rxTaskStep at h
  split at h
  · obtain ⟨pool, hpool, rfl⟩ := Option.map_eq_some_iff.1 h
    exact .startPop htun hpool
  · obtain ⟨pool, hpool, rfl⟩ := Option.map_eq_some_iff.1 h
    exact .pop htun hpool
  · next slot w =>
      split at h
      · next pool hpool =>
          split at h
          · next buf hbuf =>
              split_ifs at h with hlen
              · obtain rfl := Option.some.inj h
                exact .frame htun hpool hbuf hlen
              · obtain ⟨pool', hpool', rfl⟩ := Option.map_eq_some_iff.1 h
                exact .emptyFrame htun hpool hbuf (by simpa using hlen) hpool'
          · simp at h
      · simp at h
  · next slot e scribbled =>
      split at h
      · next pool hpool =>
          split_ifs at h
          · obtain rfl := Option.some.inj h
            exact .frameRetried htun hpool
          · obtain ⟨pool', hrun, rfl⟩ := endTun_eq_some h
            refine .tunEnded htun (by simp) (.frame slot scribbled) ?_
            rw [List.singleton_append, runFrom_step hpool]
            exact hrun
      · simp at h
  · next slot =>
      split at h
      · next rxQueue hsend =>
          obtain rfl := Option.some.inj h
          exact .packetSent htun hsend
      · simp at h
      · obtain ⟨pool, hrun, rfl⟩ := endTun_eq_some h
        exact .tunEnded htun (by simp) (.packet slot) hrun
  · simp at h

/-- The steps of the writing task. -/
theorem Process.txTaskStep_sound {rx : RxTask} {tx : TxTask} {a : TunAction}
    (htun : s.tun = .running rx tx) (h : s.txTaskStep rx tx a = some s') :
    ProcessStep cfg s (.tun a) s' := by
  have hdrops := rx.drops_dropActions s.pool.pool
  unfold txTaskStep at h
  split at h
  · split at h
    · next packet txQueue hrecv =>
        obtain rfl := Option.some.inj h
        exact .txReceived htun hrecv
    · split_ifs at h
      obtain ⟨pool, hrun, rfl⟩ := endTun_eq_some h
      exact .tunEnded htun (by simp) hdrops hrun
  · split at h
    · obtain rfl := Option.some.inj h
      exact .frameWritten htun
    · split_ifs at h
      · obtain rfl := Option.some.inj h
        exact .frameWritten htun
      · obtain ⟨pool, hrun, rfl⟩ := endTun_eq_some h
        exact .tunEnded htun (by simp) hdrops hrun
  · simp at h

theorem Process.iterate_sound {env : Surroundings} (h : s.iterate cfg env = some s') :
    ProcessStep cfg s (.iterate env) s' := by
  unfold iterate at h
  split at h
  · next slot hloop =>
      split at h
      · next packet hpacket =>
          split at h
          · next effects heffects =>
              unfold finishIteration at h
              simp only at h
              split at h
              · next peer bytes hdatagram =>
                  obtain ⟨pool, hpool, rfl⟩ := Option.map_eq_some_iff.1 h
                  exact .sent hloop hpacket heffects hdatagram hpool
              · next hdatagram =>
                  obtain ⟨pool, hpool, rfl⟩ := Option.map_eq_some_iff.1 h
                  exact .answered hloop hpacket heffects hdatagram hpool
          · simp at h
      · simp at h
  · simp at h

theorem Process.sendTxPacket_sound {i : Nat} (h : s.sendTxPacket cfg i = some s') :
    ProcessStep cfg s (.sendTxPacket i) s' := by
  unfold sendTxPacket at h
  split at h
  · next bytes hhand =>
      split at h
      · next txQueue hsend =>
          obtain rfl := Option.some.inj h
          exact .datagramQueued hhand hsend
      · simp at h
      · next hclosed =>
          obtain ⟨node, hnode, rfl⟩ := Option.map_eq_some_iff.1 h
          exact .datagramRefused hhand (Channel.trySend_closed hclosed) hnode
  · simp at h

theorem Process.nodeStep_sound {a : NodeAction} (h : s.nodeStep cfg a = some s') :
    ProcessStep cfg s (.node a) s' := by
  unfold nodeStep at h
  split_ifs at h with hallowed
  obtain ⟨node, hnode, rfl⟩ := Option.map_eq_some_iff.1 h
  refine .node hnode ?_
  rintro i e rfl
  cases e with
  | readDatagram => simpa [allows] using hallowed
  | txPacket => simp [allows] at hallowed

/-- Every step is one of the listed transitions, and none is made after a panic. -/
theorem Process.step_sound {a : ProcessAction} (h : s.step cfg a = some s') :
    s.node.relay.panicked = false ∧ ProcessStep cfg s a s' := by
  unfold step at h
  split_ifs at h with hpanicked
  refine ⟨by simpa using hpanicked, ?_⟩
  cases a with
  | node a => exact nodeStep_sound h
  | tun a =>
      simp only [tunStep] at h
      split at h
      · next rx tx htun =>
          split at h
          · exact txTaskStep_sound htun h
          · exact txTaskStep_sound htun h
          · exact rxTaskStep_sound htun h
      · simp at h
  | pool a =>
      simp only at h
      split_ifs at h with hback
      obtain ⟨pool, hpool, rfl⟩ := Option.map_eq_some_iff.1 h
      exact .pool hback hpool
  | recvRxPacket =>
      simp only [recvRxPacket] at h
      split at h
      · next hloop =>
          split at h
          · next slot rxQueue hrecv =>
              obtain rfl := Option.some.inj h
              exact .rxReceived hloop hrecv
          · next hrecv =>
              split_ifs at h with hsenders
              obtain rfl := Option.some.inj h
              exact .rxLoopEnded hloop hrecv hsenders
      · simp at h
  | iterate env => exact iterate_sound h
  | release d sent =>
      simp only [releaseDatagram] at h
      split_ifs at h with hmem
      obtain ⟨pool, hpool, rfl⟩ := Option.map_eq_some_iff.1 h
      exact .released hmem hpool
  | readDatagram i bytes =>
      simp only [readDatagram] at h
      split at h
      · next conn hphase hhand =>
          obtain rfl := Option.some.inj h
          exact .datagramRead hphase hhand
      · simp at h
  | sendTxPacket i => exact sendTxPacket_sound h

end

end P2pVpn
