import P2pVpn.Pool.Basic

set_option autoImplicit false

/-! # What is in a buffer

The memory behind a handle keeps its size, and the part that counts, up to the fill mark, changes as
if the handle were a byte string of its own: a write appends to it, whichever way it is made, and what
lies behind the mark never comes in. -/

namespace P2pVpn

theorem overwrite_eq_some {slice bytes out : List UInt8} (h : overwrite slice bytes = some out) :
    bytes.length ≤ slice.length ∧ out = bytes ++ slice.drop bytes.length := by
  unfold overwrite at h
  split_ifs at h with hfits
  exact ⟨hfits, (Option.some.inj h).symm⟩

theorem length_of_overwrite {slice bytes out : List UInt8} (h : overwrite slice bytes = some out) :
    out.length = slice.length := by
  obtain ⟨hfits, rfl⟩ := overwrite_eq_some h
  rw [List.length_append, List.length_drop]
  omega

/-- The bytes a writer has advanced over are those it wrote. -/
theorem take_of_overwrite {slice out : List UInt8} {w : Write}
    (h : overwrite slice w.bytes = some out) : out.take w.len = w.committed := by
  obtain ⟨-, rfl⟩ := overwrite_eq_some h
  exact List.take_append_of_le_length w.written

/-! ## `PooledBuffer` -/

/-- A buffer of the pool's size, filled at most to its end. -/
structure PooledBuffer.Fits (bufSize : Nat) (b : PooledBuffer) : Prop where
  length_eq : b.buffer.length = bufSize
  filled_le : b.filledLen ≤ bufSize

/-- The filled part. -/
def PooledBuffer.contents (b : PooledBuffer) : List UInt8 := b.buffer.take b.filledLen

/-- As long as a borrow lasts, its two parts make up the buffer. -/
structure UpdatingReadBuf.Fits (bufSize : Nat) (u : UpdatingReadBuf) : Prop where
  front_eq : u.front.length = u.target
  length_eq : u.front.length + u.buf.mem.length = bufSize
  filled_le : u.buf.filled ≤ u.buf.mem.length

/-- What was filled before it was borrowed, and what has been since. -/
def UpdatingReadBuf.contents (u : UpdatingReadBuf) : List UInt8 :=
  u.front ++ u.buf.mem.take u.buf.filled

section

variable {bufSize : Nat} {b b' : PooledBuffer} {u : UpdatingReadBuf}

theorem PooledBuffer.Fits.length_contents (hb : b.Fits bufSize) :
    b.contents.length = b.filledLen := by
  rw [contents, List.length_take, hb.length_eq]
  exact Nat.min_eq_left hb.filled_le

theorem PooledBuffer.Fits.deref_eq (hb : b.Fits bufSize) : b.deref = some b.contents :=
  if_pos (by rw [hb.length_eq]; exact hb.filled_le)

theorem PooledBuffer.Fits.chunkMut_eq (hb : b.Fits bufSize) :
    b.chunkMut = some (b.buffer.drop b.filledLen) :=
  if_pos (by rw [hb.length_eq]; exact hb.filled_le)

theorem PooledBuffer.Fits.remainingMut_eq (hb : b.Fits bufSize) :
    b.remainingMut = bufSize - b.contents.length := by
  rw [remainingMut, hb.length_eq, hb.length_contents]

theorem PooledBuffer.fill_spec {w : Write} (hb : b.Fits bufSize) (h : b.fill w = some b') :
    b'.Fits bufSize ∧ b'.contents = b.contents ++ w.committed := by
  have hsize := hb.length_eq
  have hfilled := hb.filled_le
  unfold fill writeChunk at h
  rw [hb.chunkMut_eq] at h
  simp only at h
  cases hchunk : overwrite (b.buffer.drop b.filledLen) w.bytes with
  | none => simp [hchunk] at h
  | some chunk =>
      have hlen := length_of_overwrite hchunk
      have hfront : (b.buffer.take b.filledLen).length = b.filledLen := hb.length_contents
      rw [List.length_drop] at hlen
      simp only [hchunk, Option.map_some, advanceMut] at h
      split_ifs at h with hbeyond
      · simp [Except.toOption] at h
      · simp only [Except.toOption, Option.some.injEq] at h
        subst h
        simp only [remainingMut, List.length_append, not_lt] at hbeyond
        refine ⟨⟨?_, ?_⟩, ?_⟩
        · rw [List.length_append]
          omega
        · simp only
          omega
        · simp only [contents]
          rw [List.take_append, hfront, List.take_of_length_le (by omega),
            Nat.add_sub_cancel_left, take_of_overwrite hchunk]

theorem PooledBuffer.putSlice_spec {src : List UInt8} (hb : b.Fits bufSize)
    (h : b.putSlice src = some b') : b'.Fits bufSize ∧ b'.contents = b.contents ++ src := by
  unfold putSlice at h
  split_ifs at h
  have hfill := fill_spec hb h
  rwa [Write.committed, List.take_length] at hfill

/-- A write that fits goes through, and no other does. -/
theorem PooledBuffer.putSlice_isSome_iff (hb : b.Fits bufSize) (src : List UInt8) :
    (b.putSlice src).isSome = true ↔ src.length ≤ b.remainingMut := by
  unfold putSlice
  split_ifs with hlong
  · simp [hlong]
  · have hsize := hb.length_eq
    have hfilled := hb.filled_le
    have hroom : src.length ≤ (b.buffer.drop b.filledLen).length := by
      rw [List.length_drop]
      exact Nat.le_of_not_lt hlong
    have hchunk : overwrite (b.buffer.drop b.filledLen) src = some _ := if_pos hroom
    have hlen := length_of_overwrite hchunk
    refine iff_of_true ?_ (by omega)
    simp only [fill, writeChunk, hb.chunkMut_eq, hchunk, Option.map_some, advanceMut]
    rw [if_neg]
    · rfl
    · rw [List.length_drop] at hroom hlen
      simp only [remainingMut, List.length_append, List.length_take] at hlen ⊢
      omega

theorem PooledBuffer.readBuf_isSome (hb : b.Fits bufSize) : b.readBuf.isSome = true := by
  have hchunk : sliceFrom b.buffer b.filledLen = _ := hb.chunkMut_eq
  simp only [readBuf, hchunk, Option.isSome_some]

theorem PooledBuffer.derefMut_spec {contents : List UInt8} (hb : b.Fits bufSize)
    (h : b.derefMut contents = some b') : b'.Fits bufSize ∧ b'.contents = contents := by
  unfold derefMut at h
  split_ifs at h with hlen
  obtain ⟨buffer, hbuffer, rfl⟩ := Option.map_eq_some_iff.1 h
  refine ⟨⟨?_, hb.filled_le⟩, ?_⟩
  · exact (length_of_overwrite hbuffer).trans hb.length_eq
  · obtain ⟨-, rfl⟩ := overwrite_eq_some hbuffer
    exact List.take_left' hlen

theorem PooledBuffer.readBuf_spec (hb : b.Fits bufSize) (h : b.readBuf = some u) :
    u.Fits bufSize ∧ u.contents = b.contents ∧ u.buf.filled = 0 := by
  have hchunk : sliceFrom b.buffer b.filledLen = _ := hb.chunkMut_eq
  simp only [readBuf, hchunk, Option.some.injEq] at h
  subst h
  refine ⟨⟨hb.length_contents, ?_, Nat.zero_le _⟩, ?_, rfl⟩
  · have hsize := hb.length_eq
    have hfront : (b.buffer.take b.filledLen).length = b.filledLen := hb.length_contents
    have hfilled := hb.filled_le
    simp only [ReadBuf.new, List.length_drop, hfront]
    omega
  · simp [UpdatingReadBuf.contents, contents, ReadBuf.new]

/-! ## `UpdatingReadBuf` -/

theorem UpdatingReadBuf.drop_spec (hu : u.Fits bufSize) :
    u.drop.Fits bufSize ∧ u.drop.contents = u.contents := by
  have hfront := hu.front_eq
  have hsize := hu.length_eq
  have hfilled := hu.filled_le
  refine ⟨⟨?_, ?_⟩, ?_⟩
  · rw [drop, List.length_append]
    exact hsize
  · simp only [drop]
    omega
  · simp only [PooledBuffer.contents, contents, drop]
    rw [List.take_append, hfront, List.take_of_length_le (by omega), Nat.add_sub_cancel_left]

theorem ReadBuf.advance_eq_some {rb rb' : ReadBuf} {n : Nat} (h : rb.advance n = some rb') :
    rb.filled + n ≤ rb.mem.length ∧ rb' = { rb with filled := rb.filled + n } := by
  unfold advance at h
  split_ifs at h with hfits
  exact ⟨hfits, (Option.some.inj h).symm⟩

/-- A borrow whose memory was written to behind the mark, and advanced over. -/
theorem UpdatingReadBuf.append_spec {mem tail committed : List UInt8} {n : Nat}
    (hu : u.Fits bufSize) (hmem : mem = u.buf.mem.take u.buf.filled ++ tail)
    (hlen : mem.length = u.buf.mem.length) (hfits : u.buf.filled + n ≤ mem.length)
    (hcommitted : tail.take n = committed) :
    UpdatingReadBuf.Fits bufSize { u with buf := ⟨mem, u.buf.filled + n⟩ } ∧
      UpdatingReadBuf.contents { u with buf := ⟨mem, u.buf.filled + n⟩ }
        = u.contents ++ committed := by
  have hfront : (u.buf.mem.take u.buf.filled).length = u.buf.filled := by
    rw [List.length_take]
    exact Nat.min_eq_left hu.filled_le
  refine ⟨⟨hu.front_eq, ?_, hfits⟩, ?_⟩
  · simp only [hlen]
    exact hu.length_eq
  · simp only [contents]
    rw [hmem, List.take_append, hfront, List.take_of_length_le (by omega), Nat.add_sub_cancel_left,
      hcommitted, List.append_assoc]

theorem UpdatingReadBuf.putSlice_spec {src : List UInt8} {buf : ReadBuf} (hu : u.Fits bufSize)
    (h : u.buf.putSlice src = some buf) :
    UpdatingReadBuf.Fits bufSize { u with buf := buf } ∧
      UpdatingReadBuf.contents { u with buf := buf } = u.contents ++ src := by
  have hfilled := hu.filled_le
  unfold ReadBuf.putSlice ReadBuf.remaining at h
  split_ifs at h with hlong
  obtain rfl := Option.some.inj h
  refine append_spec hu rfl ?_ ?_ (List.take_left' rfl)
  · simp only [List.length_append, List.length_take, List.length_drop]
    omega
  · simp only [List.length_append, List.length_take, List.length_drop]
    omega

theorem UpdatingReadBuf.fillUnfilled_spec {w : Write} {buf : ReadBuf} (hu : u.Fits bufSize)
    (h : u.buf.fillUnfilled w = some buf) :
    UpdatingReadBuf.Fits bufSize { u with buf := buf } ∧
      UpdatingReadBuf.contents { u with buf := buf } = u.contents ++ w.committed := by
  have hfilled := hu.filled_le
  unfold ReadBuf.fillUnfilled at h
  split at h
  · rename_i tail htail
    obtain ⟨hfits, rfl⟩ := ReadBuf.advance_eq_some h
    have hlen := length_of_overwrite htail
    rw [List.length_drop] at hlen
    refine append_spec hu rfl ?_ hfits (take_of_overwrite htail)
    rw [List.length_append, List.length_take]
    omega
  · simp at h

/-- `initialized_mut()` starts at the front of the borrow, which is the mark only as long as nothing
    was filled. -/
theorem UpdatingReadBuf.fillInitialized_spec {w : Write} {buf : ReadBuf} (hu : u.Fits bufSize)
    (hzero : u.buf.filled = 0) (h : u.buf.fillInitialized w = some buf) :
    UpdatingReadBuf.Fits bufSize { u with buf := buf } ∧
      UpdatingReadBuf.contents { u with buf := buf } = u.contents ++ w.committed := by
  unfold ReadBuf.fillInitialized at h
  split at h
  · rename_i mem hmem
    obtain ⟨hfits, rfl⟩ := ReadBuf.advance_eq_some h
    refine append_spec hu ?_ (length_of_overwrite hmem) hfits (take_of_overwrite hmem)
    rw [hzero, List.take_zero, List.nil_append]
  · simp at h

end

/-! ## Handles -/

/-- The buffer has the pool's size, and its filled part is inside. -/
def Handle.Fits (bufSize : Nat) : Handle → Prop
  | .buffer b | .slice b | .dropping b _ => b.Fits bufSize
  | .borrowed u => u.Fits bufSize
  | .reading u => u.Fits bufSize ∧ u.buf.filled = 0

/-- What is in the buffer, whoever has it. -/
def Handle.contents : Handle → List UInt8
  | .buffer b | .slice b | .dropping b _ => b.contents
  | .borrowed u | .reading u => u.contents

/-- What an action means for a byte string. -/
def HandleAction.effect : HandleAction → List UInt8 → List UInt8
  | .putSlice src, contents => contents ++ src
  | .fill w, contents => contents ++ w.committed
  | .derefMut new, _ => new
  | .readBufPut src, contents => contents ++ src
  | .readBufFill w, contents => contents ++ w.committed
  | .frameRead w, contents => contents ++ w.committed
  | _, contents => contents

/-- **A buffer behaves as the byte string it stands for.** -/
theorem Handle.step_spec {bufSize : Nat} {h h' : Handle} {a : HandleAction} (hfits : h.Fits bufSize)
    (hstep : h.step a = some h') :
    h'.Fits bufSize ∧ h'.contents = a.effect h.contents := by
  unfold Handle.step at hstep
  split at hstep
  case h_1 b =>
      obtain rfl := Option.some.inj hstep
      exact ⟨hfits, rfl⟩
  case h_2 b =>
      obtain rfl := Option.some.inj hstep
      exact ⟨hfits, rfl⟩
  case h_3 b src =>
      obtain ⟨b', hput, rfl⟩ := Option.map_eq_some_iff.1 hstep
      exact PooledBuffer.putSlice_spec hfits hput
  case h_4 b w =>
      obtain ⟨b', hfill, rfl⟩ := Option.map_eq_some_iff.1 hstep
      exact PooledBuffer.fill_spec hfits hfill
  case h_5 b contents =>
      obtain ⟨b', hmut, rfl⟩ := Option.map_eq_some_iff.1 hstep
      exact PooledBuffer.derefMut_spec hfits hmut
  case h_6 b =>
      obtain ⟨u, hread, rfl⟩ := Option.map_eq_some_iff.1 hstep
      obtain ⟨hu, hcontents, -⟩ := PooledBuffer.readBuf_spec hfits hread
      exact ⟨hu, hcontents⟩
  case h_7 u src =>
      obtain ⟨buf, hput, rfl⟩ := Option.map_eq_some_iff.1 hstep
      exact UpdatingReadBuf.putSlice_spec hfits hput
  case h_8 u w =>
      obtain ⟨buf, hfill, rfl⟩ := Option.map_eq_some_iff.1 hstep
      exact UpdatingReadBuf.fillUnfilled_spec hfits hfill
  case h_9 u =>
      obtain rfl := Option.some.inj hstep
      exact UpdatingReadBuf.drop_spec hfits
  case h_10 b =>
      obtain ⟨u, hread, rfl⟩ := Option.map_eq_some_iff.1 hstep
      obtain ⟨hu, hcontents, hzero⟩ := PooledBuffer.readBuf_spec hfits hread
      exact ⟨⟨hu, hzero⟩, hcontents⟩
  case h_11 u w =>
      obtain ⟨buf, hfill, rfl⟩ := Option.map_eq_some_iff.1 hstep
      obtain ⟨hu, hcontents⟩ := UpdatingReadBuf.fillInitialized_spec hfits.1 hfits.2 hfill
      obtain ⟨hdrop, hsame⟩ := UpdatingReadBuf.drop_spec hu
      exact ⟨hdrop, hsame.trans hcontents⟩
  case h_12 u scribbled =>
      obtain ⟨mem, hmem, rfl⟩ := Option.map_eq_some_iff.1 hstep
      -- what the device wrote stays behind the mark
      have hscribbled : UpdatingReadBuf.Fits bufSize { u with buf := { u.buf with mem := mem } } := by
        have hlen := length_of_overwrite hmem
        refine ⟨hfits.1.front_eq, ?_, ?_⟩
        · simp only [hlen]
          exact hfits.1.length_eq
        · simp only [hlen]
          exact hfits.1.filled_le
      obtain ⟨hdrop, hsame⟩ := UpdatingReadBuf.drop_spec hscribbled
      refine ⟨hdrop, hsame.trans ?_⟩
      simp [UpdatingReadBuf.contents, Handle.contents, HandleAction.effect, hfits.2]
  case h_13 b =>
      obtain rfl := Option.some.inj hstep
      exact ⟨hfits, rfl⟩
  case h_14 b =>
      obtain rfl := Option.some.inj hstep
      exact ⟨hfits, rfl⟩
  case h_15 => simp at hstep

end P2pVpn
