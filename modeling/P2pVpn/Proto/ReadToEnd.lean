import P2pVpn.Proto.Stream

set_option autoImplicit false

/-! # Reading a stream to its end (`read_to_end` in `src/proto.rs`)

The two nested loops of the source: the transport hands over up to four chunks a time in a scratchpad
that is used again for the next ones, and every chunk is moved from there to the end of a `BufList`,
with the limit checked after each. The stream itself is only known through what the transport
delivers: its chunks, empty ones included, in groups of any size that fits. -/

namespace P2pVpn

/-- `buf_list::BufList`: the chunks in order, not copied together. -/
structure BufList where
  chunks : List (List UInt8)
  deriving DecidableEq

namespace BufList

/-- No chunk yet. -/
def new : BufList := ⟨[]⟩

/-- Puts a chunk at the end. -/
def pushChunk (buffer : BufList) (chunk : List UInt8) : BufList := ⟨buffer.chunks ++ [chunk]⟩

/-- The length of all chunks together. -/
def numBytes (buffer : BufList) : Nat := (buffer.chunks.map List.length).sum

/-- The bytes a consumer of the buffer reads. -/
def toBytes (buffer : BufList) : List UInt8 := buffer.chunks.flatten

end BufList

/-- How many chunks one call of `read_chunks` gives at most. -/
def SCRATCHPAD_LEN : Nat := 4

/-- What one call of `read_chunks` fills in. -/
structure ChunkGroup where
  chunks : List (List UInt8)
  fits : chunks.length ≤ SCRATCHPAD_LEN
  deriving DecidableEq

/-- The slots that `read_chunks` fills. -/
structure Scratchpad where
  slots : List (List UInt8)
  length_eq : slots.length = SCRATCHPAD_LEN
  deriving DecidableEq

namespace Scratchpad

/-- All slots are empty. -/
def new : Scratchpad := ⟨List.replicate SCRATCHPAD_LEN [], by simp⟩

/-- `read_chunks` writes the front slots and leaves the others. -/
def fill (pad : Scratchpad) (group : ChunkGroup) : Scratchpad where
  slots := group.chunks ++ pad.slots.drop group.chunks.length
  length_eq := by
    have hfits := group.fits
    have hlen := pad.length_eq
    rw [List.length_append, List.length_drop]
    omega

/-- `mem::take` of the first `n` slots. -/
def takeFront (pad : Scratchpad) (n : Nat) : Scratchpad where
  slots := (pad.slots.take n).map (fun _ => []) ++ pad.slots.drop n
  length_eq := by
    have hlen := pad.length_eq
    rw [List.length_append, List.length_map, List.length_take, List.length_drop]
    omega

theorem take_fill (pad : Scratchpad) (group : ChunkGroup) :
    (pad.fill group).slots.take group.chunks.length = group.chunks :=
  List.take_left

end Scratchpad

/-- The status a stream is refused with. -/
def streamTooLong (maxBytes : Nat) : ThinStatus :=
  .build .outOfRange s!"stream longer than the limit of {maxBytes} bytes"

/-- Why a stream cannot be read to its end. -/
inductive ReadError where
  | status (status : ThinStatus)
  /-- `read_chunks` failed: the stream was reset or its connection lost. -/
  | transport
  deriving DecidableEq

/-- How the stream ends. -/
inductive StreamEnd where
  | finished
  | failed
  deriving DecidableEq

/-- All that the transport delivers of one stream. -/
structure Delivery where
  groups : List ChunkGroup
  ending : StreamEnd
  deriving DecidableEq

/-- All chunks in order. -/
def Delivery.chunks (d : Delivery) : List (List UInt8) := d.groups.flatMap ChunkGroup.chunks

/-- All bytes in order. -/
def Delivery.stream (d : Delivery) : List UInt8 := d.chunks.flatten

/-- The inner loop, over the filled part of the scratchpad. -/
def pushFilled (maxBytes : Nat) (buffer : BufList) : List (List UInt8) → Except ThinStatus BufList
  | [] => .ok buffer
  | chunk :: rest =>
      let buffer := buffer.pushChunk chunk
      if maxBytes ≤ buffer.numBytes then .error (streamTooLong maxBytes)
      else pushFilled maxBytes buffer rest

/-- The outer loop. -/
def readLoop (maxBytes : Nat) (ending : StreamEnd) (pad : Scratchpad) (buffer : BufList) :
    List ChunkGroup → Except ReadError BufList
  | [] =>
      match ending with
      | .finished => .ok buffer
      | .failed => .error .transport
  | group :: groups =>
      let pad := pad.fill group
      let filled := group.chunks.length
      match pushFilled maxBytes buffer (pad.slots.take filled) with
      | .error status => .error (.status status)
      | .ok buffer => readLoop maxBytes ending (pad.takeFront filled) buffer groups

/-- The whole of `read_to_end` on what the transport delivers. -/
def readToEnd (maxBytes : Nat) (d : Delivery) : Except ReadError BufList :=
  readLoop maxBytes d.ending .new .new d.groups

/-! ## The loops -/

/-- The limit is checked against all that was pushed, so where the chunks are cut does not matter. -/
theorem pushFilled_eq {maxBytes : Nat} {buffer : BufList} (chunks : List (List UInt8))
    (hbelow : buffer.numBytes < maxBytes) :
    pushFilled maxBytes buffer chunks =
      if maxBytes ≤ buffer.numBytes + chunks.flatten.length then .error (streamTooLong maxBytes)
      else .ok ⟨buffer.chunks ++ chunks⟩ := by
  induction chunks generalizing buffer with
  | nil =>
      rw [pushFilled, if_neg (by simp; omega), List.append_nil]
  | cons chunk rest ih =>
      have hnum : (buffer.pushChunk chunk).numBytes = buffer.numBytes + chunk.length := by
        simp [BufList.pushChunk, BufList.numBytes]
      have htotal : (chunk :: rest).flatten.length = chunk.length + rest.flatten.length := by simp
      rw [pushFilled, hnum, htotal]
      by_cases hlimit : maxBytes ≤ buffer.numBytes + chunk.length
      · rw [if_pos hlimit, if_pos (by omega)]
      · have hstill : (buffer.pushChunk chunk).numBytes < maxBytes := by omega
        have hchunks : (buffer.pushChunk chunk).chunks ++ rest = buffer.chunks ++ chunk :: rest := by
          simp [BufList.pushChunk]
        rw [if_neg hlimit, ih hstill, hnum, hchunks, Nat.add_assoc]

/-- The outer loop, by induction over the groups: the buffer is below the limit between two calls of
    `read_chunks`, and the scratchpad holds nothing that is read again. -/
theorem readLoop_eq {maxBytes : Nat} (ending : StreamEnd) (pad : Scratchpad) {buffer : BufList}
    (groups : List ChunkGroup) (hbelow : buffer.numBytes < maxBytes) :
    readLoop maxBytes ending pad buffer groups =
      if maxBytes ≤ buffer.numBytes + (groups.flatMap ChunkGroup.chunks).flatten.length then
        .error (.status (streamTooLong maxBytes))
      else
        match ending with
        | .finished => .ok ⟨buffer.chunks ++ groups.flatMap ChunkGroup.chunks⟩
        | .failed => .error .transport := by
  induction groups generalizing pad buffer with
  | nil =>
      rw [if_neg (by simp; omega), List.flatMap_nil, List.append_nil]
      cases ending <;> rfl
  | cons group groups ih =>
      have htotal : ((group :: groups).flatMap ChunkGroup.chunks).flatten.length
          = group.chunks.flatten.length
            + (groups.flatMap ChunkGroup.chunks).flatten.length := by
        simp
      simp only [readLoop]
      rw [pad.take_fill, pushFilled_eq _ hbelow, htotal]
      by_cases hlimit : maxBytes ≤ buffer.numBytes + group.chunks.flatten.length
      · rw [if_pos hlimit, if_pos (by omega)]
      · have hnum : (BufList.mk (buffer.chunks ++ group.chunks)).numBytes
            = buffer.numBytes + group.chunks.flatten.length := by
          simp [BufList.numBytes]
        have hstill : (BufList.mk (buffer.chunks ++ group.chunks)).numBytes < maxBytes := by omega
        rw [if_neg hlimit]
        simp only []
        rw [ih _ hstill, hnum, List.flatMap_cons, List.append_assoc, Nat.add_assoc]

theorem readToEnd_eq {maxBytes : Nat} (hmax : 0 < maxBytes) (d : Delivery) :
    readToEnd maxBytes d =
      if maxBytes ≤ d.stream.length then .error (.status (streamTooLong maxBytes))
      else
        match d.ending with
        | .finished => .ok ⟨d.chunks⟩
        | .failed => .error .transport := by
  have hempty : BufList.new.numBytes = 0 := rfl
  have hloop := readLoop_eq d.ending .new d.groups (hempty.trans_lt hmax)
  rw [readToEnd, hloop, hempty, Nat.zero_add]
  rfl

/-! ## The limit -/

/-- However the transport cuts the stream into chunks and groups: a stream that is not longer than the
    limit is returned, and a longer one is refused. -/
def ReadsExactly (maxBytes : Nat) (s : List UInt8) : Prop :=
  ∀ d : Delivery, d.ending = .finished → d.stream = s →
    if s.length ≤ maxBytes then ∃ buffer, readToEnd maxBytes d = .ok buffer ∧ buffer.toBytes = s
    else readToEnd maxBytes d = .error (.status (streamTooLong maxBytes))

/-- A stream in one chunk. -/
def Delivery.whole (s : List UInt8) : Delivery := ⟨[⟨[s], by simp [SCRATCHPAD_LEN]⟩], .finished⟩

theorem Delivery.stream_whole (s : List UInt8) : (Delivery.whole s).stream = s := by
  simp [Delivery.stream, Delivery.chunks, Delivery.whole]

/-- **Exact but at the limit.** The reader refuses a stream that is as long as the limit, and is right
    about every other. -/
theorem readsExactly_iff {maxBytes : Nat} (hmax : 0 < maxBytes) (s : List UInt8) :
    ReadsExactly maxBytes s ↔ s.length ≠ maxBytes := by
  constructor
  · intro hexact heq
    have hwhole := hexact (.whole s) rfl (Delivery.stream_whole s)
    rw [if_pos heq.le, readToEnd_eq hmax, Delivery.stream_whole, if_pos heq.ge] at hwhole
    obtain ⟨buffer, hok, -⟩ := hwhole
    simp at hok
  · intro hne d hfinished hstream
    rw [readToEnd_eq hmax, hstream, hfinished]
    by_cases hle : s.length ≤ maxBytes
    · rw [if_pos hle, if_neg (by omega)]
      exact ⟨_, rfl, hstream⟩
    · rw [if_neg hle, if_pos (by omega)]

theorem readsExactly_below : 0 < 4 ∧ ReadsExactly 4 [1, 2, 3] :=
  ⟨by decide, (readsExactly_iff (by decide) [1, 2, 3]).2 (by decide)⟩

/-- Two bytes, in two chunks, against a limit of two bytes. -/
theorem stream_at_limit_refused :
    readToEnd 2 ⟨[⟨[[1], [2]], by decide⟩], .finished⟩ = .error (.status (streamTooLong 2)) ∧
      ¬ ReadsExactly 2 [1, 2] := by
  have hrefused : readToEnd 2 ⟨[⟨[[1], [2]], by decide⟩], .finished⟩
      = .error (.status (streamTooLong 2)) := rfl
  refine ⟨hrefused, ?_⟩
  intro hexact
  obtain ⟨buffer, hok, -⟩ := hexact ⟨[⟨[[1], [2]], by decide⟩], .finished⟩ rfl rfl
  rw [hrefused] at hok
  simp at hok

end P2pVpn
