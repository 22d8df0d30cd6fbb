import P2pVpn.Osal
import P2pVpn.Pool.Views
import P2pVpn.Tun.RxLoop

set_option autoImplicit false

/-! # The running process (`main` in `src/main.rs`, `Tun::control` in `src/tun.rs`)

`main` joins three futures: the TUN device's loop, the sessions, and `tun_rx_loop`. The device's loop
is itself two tasks, one that reads frames into pooled buffers and one that writes packets. Two bounded
channels connect them to the rest: packets read go to `tun_rx_loop`, packets to write come from the
sessions' receive loops and from `tun_rx_loop`'s replies.

A step is what one of them does between two awaits; what the device, QUIC, the links and the OS answer
is part of the action. QUIC takes a datagram in the buffer it was read into, and gives the buffer back
when it likes. -/

namespace P2pVpn

/-- A packet for the TUN device. -/
structure TxPacket where
  data : List UInt8
  /-- The session whose peer sent it; `none` for a reply of the node itself. The code does not keep
      it. -/
  session : Option Nat
  deriving DecidableEq

/-- Where the task that reads from the device is. -/
inductive RxTask where
  /-- In `buffer_pool.pop()`, or about to call it. -/
  | popping
  /-- In `read_frame`. -/
  | reading (slot : Nat)
  /-- In `rx_packet.send`. -/
  | sending (slot : Nat)
  deriving DecidableEq

/-- Where the task that writes to the device is. -/
inductive TxTask where
  /-- In `tx_packet.recv`. -/
  | receiving
  /-- In `write_frame`. -/
  | writing (packet : TxPacket)
  deriving DecidableEq

/-- What `Tun::control` returns; it always is an error. -/
inductive TunError where
  | rxTask (e : IoError)
  /-- Nobody receives the packets read. -/
  | rxTaskClosed
  | txTask (e : IoError)
  /-- "Channel dropped" -/
  | txTaskDropped
  deriving DecidableEq

/-- Where `Tun::control` is, both of its tasks in one. -/
inductive TunLoop where
  | running (rx : RxTask) (tx : TxTask)
  | ended (e : TunError)
  deriving DecidableEq

/-- Where `tun_rx_loop` is. -/
inductive RxLoop where
  | receiving
  | handling (slot : Nat)
  | ended
  deriving DecidableEq

/-- A datagram that QUIC has taken and not yet put on the wire. -/
structure QueuedDatagram where
  peer : ConnectedPeer
  slot : Nat
  deriving DecidableEq

/-- The state of the whole process. -/
structure Process where
  node : Node
  pool : PoolState
  tun : TunLoop
  rxQueue : Channel Nat
  rxLoop : RxLoop
  txQueue : Channel TxPacket
  quic : List QueuedDatagram
  /-- The datagram a session's `recv_loop` has read and not yet sent on. -/
  inHand : Nat → Option (List UInt8)

/-- What the process is started with. -/
structure ProcessConfig where
  node : NodeConfig
  rules : PacketRules
  /-- The resolver's address, with `[dns]`. -/
  dnsServerAddr : Option Ipv6Addr
  icmpGateway : IcmpGateway

/-- `TunControlOpts::buffer_pool`, as `main` sets it. -/
def bufferPool : Nat := 512

/-- The size of its buffers. -/
def bufSize : Nat := 2048

/-- The capacity of the two channels between the TUN device and the rest. -/
def packetChannel : Nat := 64

/-- `none` is a panic. -/
def Process.new (cfg : ProcessConfig) : Option Process :=
  (BufferPool.new bufferPool bufSize).map fun pool =>
    { node := Node.new cfg.node
      pool := pool
      tun := .running .popping .receiving
      rxQueue := .new packetChannel
      rxLoop := .receiving
      txQueue := .new packetChannel
      quic := []
      inHand := fun _ => none }

/-! ## The TUN device -/

/-- What the device's two tasks wait for. -/
inductive TunAction where
  | startPop
  /-- `pop` gets a buffer, and `read_frame` starts. -/
  | pop
  | frameRead (w : Write)
  /-- The device reports an error; it may have written. -/
  | frameFailed (e : IoError) (scribbled : List UInt8)
  /-- `rx_packet.send` finishes. -/
  | sendPacket
  /-- `tx_packet.recv` finishes. -/
  | recvPacket
  /-- The device's `send` returns. -/
  | frameSent (sent : Except IoError Nat)

/-- What the reading task holds when it is dropped. -/
def RxTask.dropActions (stage : PoolStage) : RxTask → List PoolAction
  | .popping => if stage = .waiting then [.cancelPop] else []
  | .reading slot => [.handle slot (.frameFailed [])]
  | .sending slot => [.handle slot .drop]

/-- The end of `control`: both tasks are dropped, with the pool and their ends of the channels. -/
def Process.endTun (s : Process) (drops : List PoolAction) (e : TunError) : Option Process :=
  (runFrom PoolState.step s.pool (drops ++ [.dropReceiver])).map fun pool =>
    { s with
      pool := pool
      tun := .ended e
      rxQueue := s.rxQueue.dropSender
      txQueue := s.txQueue.dropReceiver }

/-- A step of the task that reads, and what the other one is in the middle of. -/
def Process.rxTaskStep (s : Process) (tx : TxTask) : RxTask → TunAction → Option Process
  | .popping, .startPop => (s.pool.step .startPop).map fun pool => { s with pool := pool }
  | .popping, .pop =>
      s.pool.popToRead.map fun pool =>
        { s with pool := pool, tun := .running (.reading s.pool.slots.length) tx }
  | .reading slot, .frameRead w =>
      match s.pool.step (.handle slot (.frameRead w)) with
      | some pool =>
          match pool.packetAt slot with
          | some buf =>
              if 0 < buf.length then
                some { s with pool := pool, tun := .running (.sending slot) tx }
              else
                (pool.step (.handle slot .drop)).map fun pool =>
                  { s with pool := pool, tun := .running .popping tx }
          | none => none
      | none => none
  | .reading slot, .frameFailed e scribbled =>
      match s.pool.step (.handle slot (.frameFailed scribbled)) with
      | some pool =>
          if isTunTransient e then some { s with pool := pool, tun := .running .popping tx }
          else { s with pool := pool }.endTun [] (.rxTask e)
      | none => none
  | .sending slot, .sendPacket =>
      match s.rxQueue.trySend slot with
      | .ok rxQueue => some { s with rxQueue := rxQueue, tun := .running .popping tx }
      | .error .full => none
      | .error .closed => s.endTun [.handle slot .drop] .rxTaskClosed
  | _, _ => none

/-- A step of the task that writes. -/
def Process.txTaskStep (s : Process) (rx : RxTask) : TxTask → TunAction → Option Process
  | .receiving, .recvPacket =>
      match s.txQueue.recv with
      | some (packet, txQueue) =>
          some { s with txQueue := txQueue, tun := .running rx (.writing packet) }
      | none =>
          if s.txQueue.senders = 0 then s.endTun (rx.dropActions s.pool.pool) .txTaskDropped else none
  | .writing packet, .frameSent sent =>
      match writeFrame packet.data sent with
      | .ok () => some { s with tun := .running rx .receiving }
      | .error e =>
          if isTunTransient e then some { s with tun := .running rx .receiving }
          else s.endTun (rx.dropActions s.pool.pool) (.txTask e)
  | _, _ => none

/-- A step of the device's loop. -/
def Process.tunStep (s : Process) (a : TunAction) : Option Process :=
  match s.tun with
  | .running rx tx =>
      match a with
      | .recvPacket | .frameSent _ => s.txTaskStep rx tx a
      | _ => s.rxTaskStep tx rx a
  | .ended _ => none

/-! ## `tun_rx_loop` -/

/-- What an iteration finds outside the process's own state: the resolver's answers, and the peers'
    connections. -/
structure Surroundings where
  handleDns : List UInt8 → Option (List UInt8)
  link : ConnectedPeer → PeerLink

/-- What an iteration reads, from the state and from its surroundings. -/
def Process.rxContext (cfg : ProcessConfig) (s : Process) (env : Surroundings) : RxContext where
  rules := cfg.rules
  dnsDispatch := cfg.dnsServerAddr.map fun addr => ⟨addr, env.handleDns⟩
  icmpGateway := cfg.icmpGateway
  relay := s.node.relay
  link := env.link
  txRoom := s.txQueue.hasRoom

/-- `tx_handle.try_send` of a reply, if there is one. -/
def Process.queueReply (s : Process) (reply : Option (List UInt8)) : Channel TxPacket :=
  match reply with
  | some data =>
      match s.txQueue.trySend ⟨data, none⟩ with
      | .ok txQueue => txQueue
      | .error _ => s.txQueue
  | none => s.txQueue

/-- The buffer goes to QUIC with the datagram, or back to the pool. -/
def Process.finishIteration (s : Process) (slot : Nat) (effects : RxEffects) : Option Process :=
  let txQueue := s.queueReply effects.written.head?
  match effects.datagrams.head? with
  | some (peer, bytes) =>
      (s.pool.rewrite slot bytes).map fun pool =>
        { s with
          pool := pool, rxLoop := .receiving, txQueue := txQueue, quic := s.quic ++ [⟨peer, slot⟩] }
  | none =>
      (s.pool.step (.handle slot .drop)).map fun pool =>
        { s with pool := pool, rxLoop := .receiving, txQueue := txQueue }

/-- The rest of an iteration, after `rx_handle.recv`. -/
def Process.iterate (cfg : ProcessConfig) (s : Process) (env : Surroundings) : Option Process :=
  match s.rxLoop with
  | .handling slot =>
      match s.pool.packetAt slot with
      | some packet =>
          match (s.rxContext cfg env).tunRxIteration packet with
          | some effects => s.finishIteration slot effects
          | none => none
      | none => none
  | _ => none

/-- A packet arrives at `tun_rx_loop`, or the loop ends with its channel. -/
def Process.recvRxPacket (s : Process) : Option Process :=
  match s.rxLoop with
  | .receiving =>
      match s.rxQueue.recv with
      | some (slot, rxQueue) => some { s with rxQueue := rxQueue, rxLoop := .handling slot }
      | none => if s.rxQueue.senders = 0 then some { s with rxLoop := .ended } else none
  | _ => none

/-! ## Datagrams -/

/-- QUIC is done with a datagram. -/
def Process.releaseDatagram (s : Process) (d : QueuedDatagram) : Option Process :=
  if d ∈ s.quic then
    (s.pool.step (.handle d.slot .drop)).map fun pool =>
      { s with pool := pool, quic := s.quic.erase d }
  else none

/-- `read_datagram` in the `recv_loop` of session `i` returns. -/
def Process.readDatagram (s : Process) (i : Nat) (bytes : List UInt8) : Option Process :=
  match (s.node.sessions i).phase, s.inHand i with
  | .receiving _, none => some { s with inHand := Function.update s.inHand i (some bytes) }
  | _, _ => none

/-- `tx_packet.send` in the `recv_loop` of session `i` returns; an error ends the loop. -/
def Process.sendTxPacket (cfg : ProcessConfig) (s : Process) (i : Nat) : Option Process :=
  match s.inHand i with
  | some bytes =>
      match s.txQueue.trySend ⟨bytes, some i⟩ with
      | .ok txQueue => some { s with txQueue := txQueue, inHand := Function.update s.inHand i none }
      | .error .full => none
      | .error .closed =>
          (s.node.step cfg.node (.session i (.recvLoopEnded .txPacket))).map fun node =>
            { s with node := node, inHand := Function.update s.inHand i none }
  | none => none

/-- A `recv_loop` that has a datagram in hand is not in `read_datagram`, and the one that loses its
    channel is `sendTxPacket`'s. -/
def Process.allows (s : Process) : NodeAction → Bool
  | .session i (.recvLoopEnded .readDatagram) => (s.inHand i).isNone
  | .session _ (.recvLoopEnded .txPacket) => false
  | _ => true

/-- A step of the sessions or of the links. -/
def Process.nodeStep (cfg : ProcessConfig) (s : Process) (a : NodeAction) : Option Process :=
  if s.allows a then (s.node.step cfg.node a).map fun node => { s with node := node } else none

/-! ## Steps -/

/-- A step of one of the tasks of the process, or of QUIC. -/
inductive ProcessAction where
  | node (a : NodeAction)
  | tun (a : TunAction)
  /-- A step of a buffer's `Drop`, or of the pool's. -/
  | pool (a : PoolAction)
  /-- `rx_handle.recv` returns. -/
  | recvRxPacket
  | iterate (env : Surroundings)
  /-- A datagram leaves QUIC's queue, onto the wire (`sent`) or not. -/
  | release (d : QueuedDatagram) (sent : Bool)
  | readDatagram (i : Nat) (bytes : List UInt8)
  | sendTxPacket (i : Nat)

/-- A panic unwinds `main`: nothing steps after it. -/
def Process.step (cfg : ProcessConfig) (s : Process) (a : ProcessAction) : Option Process :=
  if s.node.relay.panicked then none
  else
    match a with
    | .node a => s.nodeStep cfg a
    | .tun a => s.tunStep a
    | .pool a =>
        if a.isBackground then (s.pool.step a).map fun pool => { s with pool := pool } else none
    | .recvRxPacket => s.recvRxPacket
    | .iterate env => s.iterate cfg env
    | .release d _ => s.releaseDatagram d
    | .readDatagram i bytes => s.readDatagram i bytes
    | .sendTxPacket i => s.sendTxPacket cfg i

/-! ## What goes in and out -/

namespace Process

/-- What the holder of a packet reads. -/
def bytesAt (s : Process) (slot : Nat) : List UInt8 := (s.pool.packetAt slot).getD []

/-- A frame the device gave, unless it is empty. -/
def frameRead (_ : Process) : ProcessAction → Option (List UInt8)
  | .tun (.frameRead w) => if 0 < w.committed.length then some w.committed else none
  | _ => none

/-- The packet an iteration of `tun_rx_loop` is about. -/
def dispatched (s : Process) : ProcessAction → Option (List UInt8)
  | .iterate _ =>
      match s.rxLoop with
      | .handling slot => some (s.bytesAt slot)
      | _ => none
  | _ => none

/-- The datagram an iteration hands to QUIC. -/
def datagramSent (cfg : ProcessConfig) (s : Process) :
    ProcessAction → Option (ConnectedPeer × List UInt8)
  | .iterate env =>
      match s.rxLoop with
      | .handling slot =>
          ((s.rxContext cfg env).tunRxIteration (s.bytesAt slot)).bind fun effects =>
            effects.datagrams.head?
      | _ => none
  | _ => none

/-- What QUIC puts on the wire. -/
def transmitted (s : Process) : ProcessAction → Option (ConnectedPeer × List UInt8)
  | .release d true => some (d.peer, s.bytesAt d.slot)
  | _ => none

/-- A datagram the receive loop of session `i` has read. -/
def datagramRead (i : Nat) (_ : Process) : ProcessAction → Option (List UInt8)
  | .readDatagram j bytes => if j = i then some bytes else none
  | _ => none

/-- A packet from the peer of session `i` that the device was asked to write. -/
def frameWritten (i : Nat) (s : Process) : ProcessAction → Option (List UInt8)
  | .tun (.frameSent _) =>
      match s.tun with
      | .running _ (.writing packet) => if packet.session = some i then some packet.data else none
      | _ => none
  | _ => none

end Process

end P2pVpn
