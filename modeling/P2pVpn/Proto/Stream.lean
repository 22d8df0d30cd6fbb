import P2pVpn.Proto.Basic

set_option autoImplicit false

/-! # Writing and reading a message on a stream (`src/proto.rs`)

One direction of a QUIC stream, and the two loops that run on it as state machines:
`write_control_stream` (write everything, finish, wait until the peer has it) and `read_to_end`. A
stream that is dropped by its sender before it was finished ends cleanly; one that is dropped by its
receiver is stopped. Once the connection is closed nothing more gets onto a stream, but what is
there can still be read. -/

namespace P2pVpn

/-- The limit of a control message, in bytes. -/
def MAX_MESSAGE_SIZE : Nat := 2048

/-- One direction of a stream. -/
structure Flow where
  sent : List UInt8
  /-- The sender has ended the stream. -/
  fin : Bool
  /-- Bytes the receiver has taken. -/
  read : Nat
  /-- The receiver wants no more. -/
  stopped : Bool
  deriving DecidableEq

/-- Nothing has been sent. -/
def Flow.new : Flow := ⟨[], false, 0, false⟩

/-- The sending half is dropped: an unfinished stream is ended where it stands. -/
def Flow.dropSend (f : Flow) (closed : Bool) : Flow := if closed then f else { f with fin := true }

/-- The receiving end of the stream is dropped, which stops it. -/
def Flow.dropRecv (f : Flow) : Flow := { f with stopped := true }

/-! ## `write_control_stream` -/

/-- Where `write_control_stream` is. -/
inductive WriterState where
  /-- In `write_all`, with these bytes left. -/
  | writing (rest : List UInt8)
  /-- In `stopped()`: waiting until the peer acknowledges everything, or stops the stream. -/
  | awaitAck
  deriving DecidableEq

/-- What `write_control_stream` waits for. -/
inductive WriterAction where
  | write (n : Nat)
  /-- `write_all` fails because the peer stopped the stream. -/
  | stopped
  | finish
  | acked
  deriving DecidableEq

/-- Whether `write_control_stream` goes on or has returned. -/
inductive WriterResult where
  | running (w : WriterState)
  | returned (ok : Bool)
  deriving DecidableEq

/-- One step of `write_control_stream`; on a closed connection there is none. -/
def Flow.writeStep (f : Flow) (closed : Bool) (w : WriterState) (a : WriterAction) :
    Option (Flow × WriterResult) :=
  if closed then none
  else
    match w, a with
    | .writing rest, .write n =>
        if f.stopped = false ∧ 0 < n ∧ n ≤ rest.length then
          some ({ f with sent := f.sent ++ rest.take n }, .running (.writing (rest.drop n)))
        else none
    | .writing rest, .stopped =>
        if f.stopped = true ∧ rest ≠ [] then some (f, .returned false) else none
    | .writing rest, .finish =>
        if rest = [] then some ({ f with fin := true }, .running .awaitAck) else none
    | .awaitAck, .acked => some (f, .returned true)
    | _, _ => none

/-! ## `read_to_end` -/

/-- One chunk of the loop: `none` is the error "stream longer than the limit". -/
def pushChunk (maxBytes : Nat) (buffer chunk : List UInt8) : Option (List UInt8) :=
  if maxBytes ≤ (buffer ++ chunk).length then none else some (buffer ++ chunk)

/-- What `read_to_end` waits for. -/
inductive ReaderAction where
  | chunk (n : Nat)
  | eof
  deriving DecidableEq

/-- What `read_to_end` comes to. -/
inductive ReaderResult where
  | more (buffer : List UInt8)
  | tooLong
  | ended (buffer : List UInt8)
  deriving DecidableEq

/-- One step of `read_to_end`, with what it has read so far. -/
def Flow.readStep (f : Flow) (maxBytes : Nat) (buffer : List UInt8) (a : ReaderAction) :
    Option (Flow × ReaderResult) :=
  match a with
  | .chunk n =>
      if f.read + n ≤ f.sent.length then
        match pushChunk maxBytes buffer ((f.sent.drop f.read).take n) with
        | some buffer' => some ({ f with read := f.read + n }, .more buffer')
        | none => some ({ f with read := f.read + n }, .tooLong)
      else none
  | .eof => if f.fin = true ∧ f.read = f.sent.length then some (f, .ended buffer) else none

/-! ## What the steps do -/

/-- Transitions of `write_control_stream`. -/
inductive WriteStep (f : Flow) : WriterState → WriterAction → Flow → WriterResult → Prop where
  | write {rest : List UInt8} {n : Nat} (hn : 0 < n) (hle : n ≤ rest.length) :
      WriteStep f (.writing rest) (.write n) { f with sent := f.sent ++ rest.take n }
        (.running (.writing (rest.drop n)))
  | stopped {rest : List UInt8} (hstopped : f.stopped = true) :
      WriteStep f (.writing rest) .stopped f (.returned false)
  | finish : WriteStep f (.writing []) .finish { f with fin := true } (.running .awaitAck)
  | acked : WriteStep f .awaitAck .acked f (.returned true)

theorem Flow.writeStep_sound {f f' : Flow} {closed : Bool} {w : WriterState} {a : WriterAction}
    {r : WriterResult} (h : f.writeStep closed w a = some (f', r)) :
    closed = false ∧ WriteStep f w a f' r := by
  unfold Flow.writeStep at h
  split_ifs at h with hclosed
  refine ⟨by simpa using hclosed, ?_⟩
  split at h
  · split_ifs at h with hguard
    obtain ⟨rfl, rfl⟩ := Prod.mk.inj (Option.some.inj h)
    exact .write hguard.2.1 hguard.2.2
  · split_ifs at h with hguard
    obtain ⟨rfl, rfl⟩ := Prod.mk.inj (Option.some.inj h)
    exact .stopped hguard.1
  · split_ifs at h with hrest
    subst hrest
    obtain ⟨rfl, rfl⟩ := Prod.mk.inj (Option.some.inj h)
    exact .finish
  · obtain ⟨rfl, rfl⟩ := Prod.mk.inj (Option.some.inj h)
    exact .acked
  · exact absurd h (by simp)

/-- The reader's buffer is what it has taken from the stream so far, and below the limit. -/
def Flow.ReadInv (f : Flow) (maxBytes : Nat) (buffer : List UInt8) : Prop :=
  buffer = f.sent.take f.read ∧ f.read ≤ f.sent.length ∧ buffer.length < maxBytes

/-- Reading moves the reader and nothing else; only a stream that has ended is read to its end. -/
theorem Flow.readStep_frame {f f' : Flow} {maxBytes : Nat} {buffer : List UInt8} {a : ReaderAction}
    {r : ReaderResult} (h : f.readStep maxBytes buffer a = some (f', r)) :
    f'.sent = f.sent ∧ f'.fin = f.fin ∧ ∀ buffer', r = .ended buffer' → f.fin = true := by
  unfold Flow.readStep at h
  cases a with
  | chunk n =>
      simp only at h
      split_ifs at h
      split at h
      · obtain ⟨rfl, rfl⟩ := Prod.mk.inj (Option.some.inj h)
        simp
      · obtain ⟨rfl, rfl⟩ := Prod.mk.inj (Option.some.inj h)
        simp
  | eof =>
      simp only at h
      split_ifs at h with hend
      obtain ⟨rfl, rfl⟩ := Prod.mk.inj (Option.some.inj h)
      exact ⟨rfl, rfl, fun _ _ => hend.1⟩

/-- One step of `read_to_end`: more of the stream, all of it, or a stream of at least `maxBytes`. -/
theorem Flow.readStep_sound {f f' : Flow} {maxBytes : Nat} {buffer : List UInt8} {a : ReaderAction}
    {r : ReaderResult} (hinv : f.ReadInv maxBytes buffer)
    (h : f.readStep maxBytes buffer a = some (f', r)) :
    match r with
    | .more buffer' => f'.ReadInv maxBytes buffer'
    | .tooLong => maxBytes ≤ f.sent.length
    | .ended buffer' => f.fin = true ∧ buffer' = f.sent ∧ f.sent.length < maxBytes := by
  obtain ⟨rfl, hread, hlen⟩ := hinv
  unfold Flow.readStep at h
  cases a with
  | chunk n =>
      simp only at h
      split_ifs at h with hn
      have hjoin : f.sent.take f.read ++ (f.sent.drop f.read).take n = f.sent.take (f.read + n) :=
        List.take_add.symm
      unfold pushChunk at h
      rw [hjoin, List.length_take_of_le hn] at h
      split_ifs at h with hmax
      · obtain ⟨rfl, rfl⟩ := Prod.mk.inj (Option.some.inj h)
        exact hmax.trans hn
      · obtain ⟨rfl, rfl⟩ := Prod.mk.inj (Option.some.inj h)
        refine ⟨rfl, hn, ?_⟩
        rw [List.length_take_of_le hn]
        omega
  | eof =>
      simp only at h
      split_ifs at h with hend
      obtain ⟨rfl, rfl⟩ := Prod.mk.inj (Option.some.inj h)
      have hall : f.sent.take f.read = f.sent := by rw [hend.2, List.take_length]
      exact ⟨hend.1, hall, hall ▸ hlen⟩

end P2pVpn
