import P2pVpn.Lib.Channel
import P2pVpn.Lib.Slots
import P2pVpn.Lib.Transition

set_option autoImplicit false

/-! # The buffer pool (`src/buffer_pool.rs`)

A `BufferPool` preallocates buffers into a channel. `pop` takes one out, and the `Drop` of a
`PooledBuffer` sends it back through a weak sender, unless the pool is gone by then. The memory is used
again as it is: what a buffer holds is the part up to its `filled_len`.

The state has every live buffer in a place of its own, in whatever form its task owns it. A step is
what runs between two points where another task may come in; `Drop` has four of them, `pop` three. A
write that does not fit panics in its task before it changes anything, so it is not a step. -/

namespace P2pVpn

/-! ## Memory -/

/-- `&bytes[..len]`; `none` is a panic. -/
def sliceTo (bytes : List UInt8) (len : Nat) : Option (List UInt8) :=
  if len ≤ bytes.length then some (bytes.take len) else none

/-- `&bytes[start..]`. -/
def sliceFrom (bytes : List UInt8) (start : Nat) : Option (List UInt8) :=
  if start ≤ bytes.length then some (bytes.drop start) else none

/-- A write at the front of a slice. -/
def overwrite (slice bytes : List UInt8) : Option (List UInt8) :=
  if bytes.length ≤ slice.length then some (bytes ++ slice.drop bytes.length) else none

/-- What a writer does to the slice it is given: it writes `bytes` and advances over `len` of them. -/
structure Write where
  bytes : List UInt8
  len : Nat
  written : len ≤ bytes.length
  deriving DecidableEq

/-- The bytes that count as written. -/
def Write.committed (w : Write) : List UInt8 := w.bytes.take w.len

/-- A writer that advances over all it writes. -/
def Write.whole (bytes : List UInt8) : Write := ⟨bytes, bytes.length, Nat.le_refl _⟩

/-! ## `tokio::io::ReadBuf` -/

/-- A `ReadBuf` over initialized memory. -/
structure ReadBuf where
  mem : List UInt8
  filled : Nat
  deriving DecidableEq

namespace ReadBuf

/-- Nothing is filled yet. -/
def new (mem : List UInt8) : ReadBuf := ⟨mem, 0⟩

/-- The room behind the filled part. -/
def remaining (rb : ReadBuf) : Nat := rb.mem.length - rb.filled

/-- Counts `n` more bytes as filled; `none` is a panic. -/
def advance (rb : ReadBuf) (n : Nat) : Option ReadBuf :=
  if rb.filled + n ≤ rb.mem.length then some { rb with filled := rb.filled + n } else none

/-- Writes behind the filled part; `none` is a panic. -/
def putSlice (rb : ReadBuf) (src : List UInt8) : Option ReadBuf :=
  if rb.remaining < src.length then none
  else
    some
      { mem := rb.mem.take rb.filled ++ (src ++ rb.mem.drop (rb.filled + src.length))
        filled := rb.filled + src.length }

/-- A write to `initialized_mut()`, which starts at the front of the memory, and `advance`. -/
def fillInitialized (rb : ReadBuf) (w : Write) : Option ReadBuf :=
  match overwrite rb.mem w.bytes with
  | some mem => { rb with mem := mem }.advance w.len
  | none => none

/-- A write to the unfilled part, and `advance`. -/
def fillUnfilled (rb : ReadBuf) (w : Write) : Option ReadBuf :=
  match overwrite (rb.mem.drop rb.filled) w.bytes with
  | some tail => { rb with mem := rb.mem.take rb.filled ++ tail }.advance w.len
  | none => none

end ReadBuf

/-! ## `PooledBuffer` -/

/-- A buffer of the pool with the length of its filled part. -/
structure PooledBuffer where
  buffer : List UInt8
  filledLen : Nat
  deriving DecidableEq

/-- A `ReadBuf` over the rest of a buffer. The buffer is split at its `filled_len` as long as the borrow
    lasts. -/
structure UpdatingReadBuf where
  target : Nat
  front : List UInt8
  buf : ReadBuf
  deriving DecidableEq

/-- The end of the borrow: the destructor adds what was filled. -/
def UpdatingReadBuf.drop (u : UpdatingReadBuf) : PooledBuffer :=
  ⟨u.front ++ u.buf.mem, u.target + u.buf.filled⟩

namespace PooledBuffer

/-- The filled part; `none` is a panic. -/
def deref (b : PooledBuffer) : Option (List UInt8) := sliceTo b.buffer b.filledLen

/-- A write through `deref_mut`, which leaves the length as it is. -/
def derefMut (b : PooledBuffer) (contents : List UInt8) : Option PooledBuffer :=
  if contents.length = b.filledLen then
    (overwrite b.buffer contents).map fun buffer => { b with buffer := buffer }
  else none

/-- The room behind the filled part. -/
def remainingMut (b : PooledBuffer) : Nat := b.buffer.length - b.filledLen

/-- The unfilled part; `none` is a panic. -/
def chunkMut (b : PooledBuffer) : Option (List UInt8) := sliceFrom b.buffer b.filledLen

/-- Counts `cnt` more bytes as filled, or panics with a message. -/
def advanceMut (b : PooledBuffer) (cnt : Nat) : Except String PooledBuffer :=
  let filledLen := b.filledLen
  let size := b.buffer.length
  if b.remainingMut < cnt then
    .error s!"advance_mut called at offset {cnt} with value {filledLen} beyond the buffer size {size}"
  else .ok { b with filledLen := b.filledLen + cnt }

/-- A write to `chunk_mut()`. -/
def writeChunk (b : PooledBuffer) (bytes : List UInt8) : Option PooledBuffer :=
  match b.chunkMut with
  | some chunk =>
      (overwrite chunk bytes).map fun chunk =>
        { b with buffer := b.buffer.take b.filledLen ++ chunk }
  | none => none

/-- A write to `chunk_mut()` and `advance_mut`. -/
def fill (b : PooledBuffer) (w : Write) : Option PooledBuffer :=
  match b.writeChunk w.bytes with
  | some b => (b.advanceMut w.len).toOption
  | none => none

/-- `BufMut::put_slice`. -/
def putSlice (b : PooledBuffer) (src : List UInt8) : Option PooledBuffer :=
  if b.remainingMut < src.length then none else b.fill ⟨src, src.length, le_rfl⟩

/-- Borrows the unfilled part; `none` is a panic. -/
def readBuf (b : PooledBuffer) : Option UpdatingReadBuf :=
  match sliceFrom b.buffer b.filledLen with
  | some rest => some ⟨b.filledLen, b.buffer.take b.filledLen, .new rest⟩
  | none => none

end PooledBuffer

/-! ## Owned buffers -/

/-- Where the `Drop` of a buffer stands. -/
inductive DropStage where
  | entered
  /-- It holds a strong sender. -/
  | upgraded
  /-- It has also set the gauge. -/
  | reported
  deriving DecidableEq

/-- A buffer that is not in the channel, by its owner. -/
inductive Handle where
  | buffer (b : PooledBuffer)
  | slice (b : PooledBuffer)
  /-- Borrowed by a `read_buf()`. -/
  | borrowed (u : UpdatingReadBuf)
  /-- In `read_frame`, waiting for the device. -/
  | reading (u : UpdatingReadBuf)
  | dropping (b : PooledBuffer) (stage : DropStage)
  deriving DecidableEq

/-- What the holder of a buffer does with it. -/
inductive HandleAction where
  /-- `PooledSlice::from`. -/
  | intoSlice
  | toBuffer
  | putSlice (src : List UInt8)
  | fill (w : Write)
  | derefMut (contents : List UInt8)
  | readBuf
  | readBufPut (src : List UInt8)
  | readBufFill (w : Write)
  | dropReadBuf
  | readFrame
  | frameRead (w : Write)
  /-- The device reports an error, or the future is dropped; either way it may have written. -/
  | frameFailed (scribbled : List UInt8)
  | drop
  deriving DecidableEq

/-- One operation on a buffer; `none` if it panics, or if the handle does not have it. -/
def Handle.step : Handle → HandleAction → Option Handle
  | .buffer b, .intoSlice => some (.slice b)
  | .slice b, .toBuffer => some (.buffer b)
  | .buffer b, .putSlice src => (b.putSlice src).map .buffer
  | .buffer b, .fill w => (b.fill w).map .buffer
  | .buffer b, .derefMut contents => (b.derefMut contents).map .buffer
  | .buffer b, .readBuf => b.readBuf.map .borrowed
  | .borrowed u, .readBufPut src => (u.buf.putSlice src).map fun buf => .borrowed { u with buf := buf }
  | .borrowed u, .readBufFill w =>
      (u.buf.fillUnfilled w).map fun buf => .borrowed { u with buf := buf }
  | .borrowed u, .dropReadBuf => some (.buffer u.drop)
  | .buffer b, .readFrame => b.readBuf.map .reading
  | .reading u, .frameRead w =>
      (u.buf.fillInitialized w).map fun buf => .slice { u with buf := buf }.drop
  | .reading u, .frameFailed scribbled =>
      (overwrite u.buf.mem scribbled).map fun mem =>
        .dropping { u with buf := { u.buf with mem := mem } }.drop .entered
  | .buffer b, .drop => some (.dropping b .entered)
  | .slice b, .drop => some (.dropping b .entered)
  | _, _ => none

/-! ## The pool -/

/-- Where the task that owns the pool is. -/
inductive PoolStage where
  | idle
  /-- In `pop`, waiting in `recv`. -/
  | waiting
  /-- In `pop`, with a buffer that is not handed out yet. -/
  | received (b : PooledBuffer)
  /-- In the pool's destructor, between the two ends of its channel. -/
  | closing
  | gone
  deriving DecidableEq

/-- The pool, the buffers it has handed out and its two gauges. -/
structure PoolState where
  channel : Channel (List UInt8)
  pool : PoolStage
  slots : List (Option Handle)
  capacityGauge : Nat
  /-- `p2p_vpn_buffer_pool_active`. -/
  active : Int
  panicked : Bool

/-- A step of the pool or of a holder of one of its buffers. -/
inductive PoolAction where
  | startPop
  | cancelPop
  | recv
  | finishPop
  | handle (i : Nat) (a : HandleAction)
  | upgrade (i : Nat)
  | report (i : Nat)
  | send (i : Nat)
  | dropReceiver
  | dropSender
  deriving DecidableEq

/-- `n as u32`. -/
def asU32 (n : Nat) : Nat := n % 2 ^ 32

/-- The gauge is set to what the channel holds. -/
def PoolState.reportAvailable (s : PoolState) : PoolState :=
  { s with capacityGauge := asU32 (s.channel.maxCapacity - s.channel.capacity) }

@[simp] theorem PoolState.channel_reportAvailable (s : PoolState) :
    s.reportAvailable.channel = s.channel := rfl

@[simp] theorem PoolState.pool_reportAvailable (s : PoolState) : s.reportAvailable.pool = s.pool := rfl

/-- The filling loop of `BufferPool::new`. -/
def fillChannel (bufSize : Nat) : Nat → Channel (List UInt8) → Option (Channel (List UInt8))
  | 0, channel => some channel
  | n + 1, channel =>
      match channel.trySend (List.replicate bufSize 0) with
      | .ok channel => fillChannel bufSize n channel
      | .error _ => none

/-- A channel without capacity cannot be made; `none` is a panic. -/
def BufferPool.new (count bufSize : Nat) : Option PoolState :=
  if count = 0 then none
  else
    (fillChannel bufSize count (.new count)).map fun channel =>
      { channel := channel, pool := .idle, slots := [], capacityGauge := asU32 count, active := 0,
        panicked := false }

namespace PoolState

/-- The end of a `Drop` that got a strong sender. -/
def sendBack (s : PoolState) (i : Nat) (b : PooledBuffer) : PoolState :=
  let freed := s.slots.set i none
  match s.channel.trySend b.buffer with
  | .ok channel => { s with channel := channel.dropSender, slots := freed }
  | .error .closed => { s with channel := s.channel.dropSender, slots := freed }
  | .error .full => { s with channel := s.channel.dropSender, slots := freed, panicked := true }

/-- The step, if it is possible now. -/
def step (s : PoolState) : PoolAction → Option PoolState
  | .startPop =>
      match s.pool with
      | .idle => some { s with pool := .waiting }
      | _ => none
  | .cancelPop =>
      match s.pool with
      | .waiting => some { s with pool := .idle }
      | _ => none
  | .recv =>
      match s.pool, s.channel.recv with
      | .waiting, some (buffer, channel) =>
          some { s with channel := channel, pool := .received ⟨buffer, 0⟩ }
      | _, _ => none
  | .finishPop =>
      match s.pool with
      | .received b =>
          some { s.reportAvailable with
            pool := .idle
            slots := s.slots ++ [some (.buffer b)]
            active := s.active + 1 }
      | _ => none
  | .handle i a =>
      match s.slots[i]? with
      | some (some h) => (h.step a).map fun h => { s with slots := s.slots.set i (some h) }
      | _ => none
  | .upgrade i =>
      match s.slots[i]? with
      | some (some (.dropping b .entered)) =>
          match s.channel.upgrade with
          | some channel =>
              some { s with
                channel := channel
                slots := s.slots.set i (some (.dropping b .upgraded)) }
          | none => some { s with slots := s.slots.set i none }
      | _ => none
  | .report i =>
      match s.slots[i]? with
      | some (some (.dropping b .upgraded)) =>
          some { s.reportAvailable with
            slots := s.slots.set i (some (.dropping b .reported))
            active := s.active - 1 }
      | _ => none
  | .send i =>
      match s.slots[i]? with
      | some (some (.dropping b .reported)) => some (s.sendBack i b)
      | _ => none
  | .dropReceiver =>
      match s.pool with
      | .idle => some { s with channel := s.channel.dropReceiver, pool := .closing }
      | _ => none
  | .dropSender =>
      match s.pool with
      | .closing => some { s with channel := s.channel.dropSender, pool := .gone }
      | _ => none

/-- What the holder of a buffer can do with its handle, it can do. -/
theorem step_handle_of_get {s : PoolState} {i : Nat} {h h' : Handle} {a : HandleAction}
    (hget : s.slots[i]? = some (some h)) (hact : h.step a = some h') :
    s.step (.handle i a) = some { s with slots := s.slots.set i (some h') } := by
  simp only [PoolState.step, hget, hact, Option.map_some]

/-- The pool has not been dropped. -/
def alive (s : PoolState) : Bool :=
  match s.pool with
  | .closing | .gone => false
  | _ => true

/-- Buffers outside the channel, the one that is being popped included. -/
def live (s : PoolState) : Nat :=
  Slots.live s.slots +
    match s.pool with
    | .received _ => 1
    | _ => 0

end PoolState

/-! ## What the steps do -/

/-- Transitions of the pool and of the tasks that own its buffers. -/
inductive PoolStep (s : PoolState) : PoolAction → PoolState → Prop where
  | startPop (hidle : s.pool = .idle) : PoolStep s .startPop { s with pool := .waiting }
  | cancelPop (hwaiting : s.pool = .waiting) : PoolStep s .cancelPop { s with pool := .idle }
  | recv {buffer : List UInt8} {channel : Channel (List UInt8)} (hwaiting : s.pool = .waiting)
      (hrecv : s.channel.recv = some (buffer, channel)) :
      PoolStep s .recv { s with channel := channel, pool := .received ⟨buffer, 0⟩ }
  | finishPop {b : PooledBuffer} (hreceived : s.pool = .received b) :
      PoolStep s .finishPop
        { s.reportAvailable with
          pool := .idle, slots := s.slots ++ [some (.buffer b)], active := s.active + 1 }
  | handle {i : Nat} {a : HandleAction} {h h' : Handle} (hget : s.slots[i]? = some (some h))
      (hstep : h.step a = some h') :
      PoolStep s (.handle i a) { s with slots := s.slots.set i (some h') }
  | upgrade {i : Nat} {b : PooledBuffer} {channel : Channel (List UInt8)}
      (hget : s.slots[i]? = some (some (.dropping b .entered)))
      (hupgrade : s.channel.upgrade = some channel) :
      PoolStep s (.upgrade i)
        { s with channel := channel, slots := s.slots.set i (some (.dropping b .upgraded)) }
  | abandon {i : Nat} {b : PooledBuffer} (hget : s.slots[i]? = some (some (.dropping b .entered)))
      (hupgrade : s.channel.upgrade = none) :
      PoolStep s (.upgrade i) { s with slots := s.slots.set i none }
  | report {i : Nat} {b : PooledBuffer}
      (hget : s.slots[i]? = some (some (.dropping b .upgraded))) :
      PoolStep s (.report i)
        { s.reportAvailable with
          slots := s.slots.set i (some (.dropping b .reported)), active := s.active - 1 }
  | send {i : Nat} {b : PooledBuffer} {channel : Channel (List UInt8)}
      (hget : s.slots[i]? = some (some (.dropping b .reported)))
      (hsend : s.channel.trySend b.buffer = .ok channel) :
      PoolStep s (.send i) { s with channel := channel.dropSender, slots := s.slots.set i none }
  | sendClosed {i : Nat} {b : PooledBuffer}
      (hget : s.slots[i]? = some (some (.dropping b .reported)))
      (hsend : s.channel.trySend b.buffer = .error .closed) :
      PoolStep s (.send i) { s with channel := s.channel.dropSender, slots := s.slots.set i none }
  | sendFull {i : Nat} {b : PooledBuffer}
      (hget : s.slots[i]? = some (some (.dropping b .reported)))
      (hsend : s.channel.trySend b.buffer = .error .full) :
      PoolStep s (.send i)
        { s with
          channel := s.channel.dropSender, slots := s.slots.set i none, panicked := true }
  | dropReceiver (hidle : s.pool = .idle) :
      PoolStep s .dropReceiver { s with channel := s.channel.dropReceiver, pool := .closing }
  | dropSender (hclosing : s.pool = .closing) :
      PoolStep s .dropSender { s with channel := s.channel.dropSender, pool := .gone }

theorem PoolState.step_sound {s s' : PoolState} {a : PoolAction} (h : s.step a = some s') :
    PoolStep s a s' := by
  cases a with
  | startPop =>
      simp only [step] at h
      split at h <;> simp only [Option.some.injEq, reduceCtorEq] at h
      subst h
      exact .startPop (by assumption)
  | cancelPop =>
      simp only [step] at h
      split at h <;> simp only [Option.some.injEq, reduceCtorEq] at h
      subst h
      exact .cancelPop (by assumption)
  | recv =>
      simp only [step] at h
      split at h <;> simp only [Option.some.injEq, reduceCtorEq] at h
      subst h
      exact .recv (by assumption) (by assumption)
  | finishPop =>
      simp only [step] at h
      split at h <;> simp only [Option.some.injEq, reduceCtorEq] at h
      subst h
      exact .finishPop (by assumption)
  | handle i a =>
      simp only [step] at h
      split at h
      · obtain ⟨h', hstep, rfl⟩ := Option.map_eq_some_iff.1 h
        exact .handle (by assumption) hstep
      · simp at h
  | upgrade i =>
      simp only [step] at h
      split at h
      · split at h <;> obtain rfl := Option.some.inj h
        · exact .upgrade (by assumption) (by assumption)
        · exact .abandon (by assumption) (by assumption)
      · simp at h
  | report i =>
      simp only [step] at h
      split at h
      · obtain rfl := Option.some.inj h
        exact .report (by assumption)
      · simp at h
  | send i =>
      simp only [step] at h
      split at h
      · obtain rfl := Option.some.inj h
        unfold sendBack
        split
        · exact .send (by assumption) (by assumption)
        · exact .sendClosed (by assumption) (by assumption)
        · exact .sendFull (by assumption) (by assumption)
      · simp at h
  | dropReceiver =>
      simp only [step] at h
      split at h <;> simp only [Option.some.injEq, reduceCtorEq] at h
      subst h
      exact .dropReceiver (by assumption)
  | dropSender =>
      simp only [step] at h
      split at h <;> simp only [Option.some.injEq, reduceCtorEq] at h
      subst h
      exact .dropSender (by assumption)

end P2pVpn
