import P2pVpn.Pool.Handles

set_option autoImplicit false

/-! # Buffers are conserved

As long as the pool is there, every one of its buffers is either in the channel or owned by somebody.
So there is always room in the channel for a buffer that comes back. -/

namespace P2pVpn

/-! ## The invariant -/

/-- A `Drop` that has upgraded its sender. -/
def Handle.holdsSender : Handle → Bool
  | .dropping _ .upgraded | .dropping _ .reported => true
  | _ => false

/-- The pool's own sender, until its destructor has dropped that too. -/
def PoolStage.senders : PoolStage → Nat
  | .gone => 0
  | _ => 1

/-- What holds of a pool of `count` buffers of `bufSize` bytes, whatever its holders do. -/
structure PoolState.Inv (count bufSize : Nat) (s : PoolState) : Prop where
  capacity_eq : s.channel.maxCapacity = count
  queued : ∀ buffer ∈ s.channel.queue, buffer.length = bufSize
  handles : ∀ (i : Nat) (h : Handle), s.slots[i]? = some (some h) → h.Fits bufSize
  received : ∀ b, s.pool = .received b → b.buffer.length = bufSize ∧ b.filledLen = 0
  closed_eq : s.channel.closed = !s.alive
  senders_eq : s.channel.senders = s.pool.senders + Slots.count Handle.holdsSender s.slots
  conserved : s.channel.closed = false → s.channel.queue.length + s.live = count
  calm : s.panicked = false

section

variable {count bufSize i : Nat} {s s' : PoolState} {h h' : Handle} {b : PooledBuffer}
  {slots : List (Option Handle)}

theorem PoolState.Inv.handles_set (hinv : s.Inv count bufSize) (h' : Handle)
    (hfits : h'.Fits bufSize) :
    ∀ (j : Nat) (g : Handle),
      (s.slots.set i (some h'))[j]? = some (some g) → g.Fits bufSize := by
  intro j g hget
  rcases Slots.get_set_some hget with ⟨-, rfl⟩ | ⟨-, hget⟩
  · exact hfits
  · exact hinv.handles j g hget

theorem PoolState.Inv.handles_free (hinv : s.Inv count bufSize) :
    ∀ (j : Nat) (g : Handle), (s.slots.set i none)[j]? = some (some g) → g.Fits bufSize := by
  intro j g hget
  exact hinv.handles j g (Slots.get_set_none hget).2

/-- A buffer that is owned is not in the channel. -/
theorem PoolState.Inv.queue_lt (hinv : s.Inv count bufSize) (hget : s.slots[i]? = some (some h))
    (hopen : s.channel.closed = false) : s.channel.queue.length < s.channel.maxCapacity := by
  have hpos := Slots.live_pos hget
  have hsum := hinv.conserved hopen
  have hcapacity := hinv.capacity_eq
  unfold PoolState.live at hsum
  omega

/-- Only the steps of a `Drop` deal with senders. -/
theorem Handle.holdsSender_of_step {a : HandleAction} (hstep : h.step a = some h') :
    h.holdsSender = false ∧ h'.holdsSender = false := by
  unfold Handle.step at hstep
  split at hstep <;>
    first
    | (obtain ⟨x, -, rfl⟩ := Option.map_eq_some_iff.1 hstep; exact ⟨rfl, rfl⟩)
    | (obtain rfl := Option.some.inj hstep; exact ⟨rfl, rfl⟩)
    | simp at hstep

theorem PoolState.Inv.step {a : PoolAction} (hinv : s.Inv count bufSize)
    (hstep : s.step a = some s') : s'.Inv count bufSize := by
  have hclosed := hinv.closed_eq
  have hsenders := hinv.senders_eq
  have hsum := hinv.conserved
  cases PoolState.step_sound hstep with
  | startPop hidle =>
      refine { hinv with received := by simp, closed_eq := ?_, senders_eq := ?_, conserved := ?_ }
      · simpa [PoolState.alive, hidle] using hclosed
      · simpa [PoolStage.senders, hidle] using hsenders
      · simpa [PoolState.live, hidle] using hsum
  | cancelPop hwaiting =>
      refine { hinv with received := by simp, closed_eq := ?_, senders_eq := ?_, conserved := ?_ }
      · simpa [PoolState.alive, hwaiting] using hclosed
      · simpa [PoolStage.senders, hwaiting] using hsenders
      · simpa [PoolState.live, hwaiting] using hsum
  | recv hwaiting hrecv =>
      rename_i buffer channel
      obtain ⟨hqueue, hsame, hcapacity, hcount⟩ := Channel.recv_eq_some hrecv
      have hbuffer : buffer.length = bufSize := hinv.queued buffer (by rw [hqueue]; simp)
      refine ⟨hcapacity.trans hinv.capacity_eq, ?_, hinv.handles, ?_, ?_, ?_, ?_, hinv.calm⟩
      · intro other hother
        exact hinv.queued other (by rw [hqueue]; exact List.mem_cons_of_mem _ hother)
      · intro b hb
        obtain rfl := PoolStage.received.inj hb
        exact ⟨hbuffer, rfl⟩
      · simpa [PoolState.alive, hwaiting, hsame] using hclosed
      · simpa [PoolStage.senders, hwaiting, hcount] using hsenders
      · intro hopen
        have hbefore := hsum (hsame ▸ hopen)
        simp only [PoolState.live, hwaiting, hqueue, List.length_cons] at hbefore ⊢
        omega
  | finishPop hreceived =>
      rename_i b
      obtain ⟨hlen, hzero⟩ := hinv.received b hreceived
      have hfits : b.Fits bufSize := ⟨hlen, by omega⟩
      refine ⟨hinv.capacity_eq, hinv.queued, ?_, by simp, ?_, ?_, ?_, hinv.calm⟩
      · intro j g hget
        rcases Slots.get_append hget with ⟨-, rfl⟩ | ⟨-, hget⟩
        · exact hfits
        · exact hinv.handles j g hget
      · simpa [PoolState.alive, hreceived] using hclosed
      · simpa [PoolStage.senders, hreceived, Slots.count_append, Handle.holdsSender] using hsenders
      · intro hopen
        have hbefore := hsum hopen
        simp only [PoolState.live, hreceived, Slots.live_append] at hbefore ⊢
        exact hbefore
  | handle hget hact =>
      rename_i h h'
      obtain ⟨hfits, -⟩ := Handle.step_spec (hinv.handles _ _ hget) hact
      obtain ⟨hbefore, hafter⟩ := Handle.holdsSender_of_step hact
      have hheld := Slots.count_set_some Handle.holdsSender hget h'
      rw [hbefore, hafter] at hheld
      refine ⟨hinv.capacity_eq, hinv.queued, hinv.handles_set h' hfits, hinv.received, hclosed, ?_,
        ?_, hinv.calm⟩
      · simpa only [Nat.add_right_cancel hheld] using hsenders
      · simpa only [PoolState.live, Slots.live_set_some hget] using hsum
  | upgrade hget hupgrade =>
      rename_i i b channel
      obtain ⟨hqueue, hsame, hcapacity, hcount⟩ := Channel.upgrade_eq_some hupgrade
      have hfits : b.Fits bufSize := hinv.handles _ _ hget
      have hheld := Slots.count_set_some Handle.holdsSender hget (.dropping b .upgraded)
      simp only [Handle.holdsSender, Bool.toNat_false, Bool.toNat_true] at hheld
      refine ⟨hcapacity.trans hinv.capacity_eq, ?_, hinv.handles_set (.dropping b .upgraded) hfits,
        hinv.received, hsame.trans hclosed, ?_, ?_, hinv.calm⟩
      · simpa only [hqueue] using hinv.queued
      · simp only
        omega
      · simpa only [PoolState.live, Slots.live_set_some hget, hqueue, hsame] using hsum
  | abandon hget hupgrade =>
      rename_i i b
      -- without a sender the pool is gone
      have hzero := Channel.upgrade_eq_none hupgrade
      have hgone : s.pool = .gone := by
        cases hpool : s.pool with
        | gone => rfl
        | _ =>
            rw [hpool] at hsenders
            simp only [PoolStage.senders] at hsenders
            omega
      have hheld := Slots.count_set_none Handle.holdsSender hget
      simp only [Handle.holdsSender, Bool.toNat_false] at hheld
      refine ⟨hinv.capacity_eq, hinv.queued, hinv.handles_free, hinv.received, hclosed, ?_, ?_,
        hinv.calm⟩
      · simp only
        omega
      · intro hopen
        have hopen : s.channel.closed = false := hopen
        rw [hclosed, PoolState.alive, hgone] at hopen
        exact absurd hopen (by decide)
  | report hget =>
      rename_i i b
      have hfits : b.Fits bufSize := hinv.handles _ _ hget
      have hheld := Slots.count_set_some Handle.holdsSender hget (.dropping b .reported)
      refine ⟨hinv.capacity_eq, hinv.queued, hinv.handles_set (.dropping b .reported) hfits,
        hinv.received, hclosed, ?_, ?_, hinv.calm⟩
      · simpa only [Nat.add_right_cancel hheld, PoolState.channel_reportAvailable,
          PoolState.pool_reportAvailable] using hsenders
      · simpa only [PoolState.live, Slots.live_set_some hget, PoolState.channel_reportAvailable,
          PoolState.pool_reportAvailable] using hsum
  | send hget hsend =>
      rename_i i b channel
      obtain ⟨hopen, hqueue, hsame, hcapacity, hcount⟩ := Channel.trySend_ok hsend
      have hfits : b.Fits bufSize := hinv.handles _ _ hget
      have hheld := Slots.count_set_none Handle.holdsSender hget
      simp only [Handle.holdsSender, Bool.toNat_true] at hheld
      refine ⟨hcapacity.trans hinv.capacity_eq, ?_, hinv.handles_free, hinv.received,
        hsame.trans hclosed, ?_, ?_, hinv.calm⟩
      · intro buffer hmem
        have hmem : buffer ∈ s.channel.queue ++ [b.buffer] := hqueue ▸ hmem
        rcases List.mem_append.1 hmem with hmem | hmem
        · exact hinv.queued buffer hmem
        · rw [List.mem_singleton.1 hmem]
          exact hfits.length_eq
      · simp only [Channel.dropSender]
        omega
      · intro _
        have hbefore := hsum hopen
        have hlive := Slots.live_set_none hget
        have hlen : channel.queue.length = s.channel.queue.length + 1 := by rw [hqueue]; simp
        show channel.queue.length + _ = count
        simp only [PoolState.live] at hbefore ⊢
        omega
  | sendClosed hget hsend =>
      have hdown := Channel.trySend_closed hsend
      have hheld := Slots.count_set_none Handle.holdsSender hget
      simp only [Handle.holdsSender, Bool.toNat_true] at hheld
      refine ⟨hinv.capacity_eq, hinv.queued, hinv.handles_free, hinv.received, hclosed, ?_, ?_,
        hinv.calm⟩
      · simp only [Channel.dropSender]
        omega
      · intro hopen
        have hopen : s.channel.closed = false := hopen
        rw [hdown] at hopen
        exact absurd hopen (by decide)
  | sendFull hget hsend =>
      -- the buffer that comes back has left a free place behind
      obtain ⟨hopen, hfull⟩ := Channel.trySend_full hsend
      have hroom := hinv.queue_lt hget hopen
      omega
  | dropReceiver hidle =>
      refine ⟨hinv.capacity_eq, by simp [Channel.dropReceiver], hinv.handles, by simp, ?_, ?_, ?_,
        hinv.calm⟩
      · simp [PoolState.alive, Channel.dropReceiver]
      · simpa [PoolStage.senders, hidle, Channel.dropReceiver] using hsenders
      · simp [Channel.dropReceiver]
  | dropSender hclosing =>
      refine ⟨hinv.capacity_eq, hinv.queued, hinv.handles, by simp, ?_, ?_, ?_, hinv.calm⟩
      · simpa [PoolState.alive, hclosing, Channel.dropSender] using hclosed
      · simp [PoolStage.senders, hclosing, Channel.dropSender, hsenders]
      · simpa [PoolState.live, hclosing, Channel.dropSender] using hsum

end

/-! ## The filled pool -/

/-- The channel takes all the buffers it was made for. -/
theorem fillChannel_eq (bufSize n : Nat) {channel : Channel (List UInt8)}
    (hopen : channel.closed = false)
    (hroom : channel.queue.length + n ≤ channel.maxCapacity) :
    ∃ filled, fillChannel bufSize n channel = some filled ∧
      filled.queue = channel.queue ++ List.replicate n (List.replicate bufSize 0) ∧
      filled.closed = false ∧ filled.maxCapacity = channel.maxCapacity ∧
      filled.senders = channel.senders := by
  induction n generalizing channel with
  | zero => exact ⟨channel, rfl, by simp, hopen, rfl, rfl⟩
  | succ n ih =>
      cases hsend : channel.trySend (List.replicate bufSize 0) with
      | error e =>
          cases e with
          | closed =>
              rw [Channel.trySend_closed hsend] at hopen
              exact absurd hopen (by decide)
          | full =>
              have hfull := (Channel.trySend_full hsend).2
              omega
      | ok next =>
          obtain ⟨-, hqueue, hsame, hcapacity, hcount⟩ := Channel.trySend_ok hsend
          have hlen : next.queue.length = channel.queue.length + 1 := by rw [hqueue]; simp
          obtain ⟨filled, hfill, hfilled, hstill, hmax, hsenders⟩ :=
            ih (hsame.trans hopen) (by omega)
          refine ⟨filled, ?_, ?_, hstill, hmax.trans hcapacity, hsenders.trans hcount⟩
          · rw [fillChannel, hsend]
            exact hfill
          · rw [hfilled, hqueue, List.append_assoc, List.replicate_succ]
            rfl

theorem BufferPool.new_eq_some {count bufSize : Nat} {s : PoolState}
    (hnew : BufferPool.new count bufSize = some s) :
    0 < count ∧ s.pool = .idle ∧ s.slots = [] ∧ s.capacityGauge = asU32 count := by
  unfold BufferPool.new at hnew
  split_ifs at hnew with hzero
  obtain ⟨channel, -, rfl⟩ := Option.map_eq_some_iff.1 hnew
  exact ⟨Nat.pos_of_ne_zero hzero, rfl, rfl, rfl⟩

theorem BufferPool.new_inv {count : Nat} (hcount : 0 < count) (bufSize : Nat) :
    ∃ s, BufferPool.new count bufSize = some s ∧ s.Inv count bufSize := by
  obtain ⟨channel, hfill, hqueue, hopen, hmax, hsenders⟩ :=
    fillChannel_eq bufSize count (rfl : (Channel.new count).closed = false) (by simp [Channel.new])
  refine ⟨_, by rw [BufferPool.new, if_neg (by omega), hfill]; rfl, ?_⟩
  have hbuffers : channel.queue = List.replicate count (List.replicate bufSize 0) := hqueue
  refine ⟨hmax, ?_, by simp, by simp, ?_, hsenders, ?_, rfl⟩
  · intro buffer hmem
    rw [hbuffers] at hmem
    rw [List.eq_of_mem_replicate hmem, List.length_replicate]
  · simpa [PoolState.alive] using hopen
  · intro _
    simp [PoolState.live, hbuffers, Slots.live, Slots.count]

/-! ## Giving a buffer back -/

/-- What the task that gives a buffer back does next, wherever it stands. -/
def Handle.nextDrop (i : Nat) : Handle → PoolAction
  | .buffer _ | .slice _ => .handle i .drop
  | .borrowed _ => .handle i .dropReadBuf
  | .reading _ => .handle i (.frameFailed [])
  | .dropping _ .entered => .upgrade i
  | .dropping _ .upgraded => .report i
  | .dropping _ .reported => .send i

/-- How many steps are left at most. -/
def Handle.dropSteps : Handle → Nat
  | .borrowed _ => 5
  | .buffer _ | .slice _ | .reading _ => 4
  | .dropping _ .entered => 3
  | .dropping _ .upgraded => 2
  | .dropping _ .reported => 1

/-- The next step of giving a buffer back is possible, does not panic, and leaves fewer to do. -/
def PoolState.DropGoesOn (s : PoolState) (i : Nat) (h : Handle) : Prop :=
  ∃ s', s.step (h.nextDrop i) = some s' ∧ s'.panicked = false ∧
    (s'.slots[i]? = some none ∨
      ∃ h', s'.slots[i]? = some (some h') ∧ h'.dropSteps < h.dropSteps)

section

variable {count bufSize i : Nat} {s s' : PoolState} {h h' : Handle}

/-- The invariant says that no step panics, so only the place of the buffer is left to look at. -/
theorem PoolState.Inv.dropGoesOn_of_step (hinv : s.Inv count bufSize)
    (hstep : s.step (h.nextDrop i) = some s')
    (hplace : s'.slots[i]? = some none ∨
      ∃ h', s'.slots[i]? = some (some h') ∧ h'.dropSteps < h.dropSteps) : s.DropGoesOn i h :=
  ⟨s', hstep, (hinv.step hstep).calm, hplace⟩

/-- As long as somebody holds the buffer, the next step is one of its handle. -/
theorem PoolState.Inv.dropGoesOn_of_handle (hinv : s.Inv count bufSize)
    (hget : s.slots[i]? = some (some h)) {a : HandleAction} (hnext : h.nextDrop i = .handle i a)
    (hact : h.step a = some h') (hlt : h'.dropSteps < h.dropSteps) : s.DropGoesOn i h := by
  obtain ⟨hi, -⟩ := List.getElem?_eq_some_iff.1 hget
  refine hinv.dropGoesOn_of_step (hnext ▸ step_handle_of_get hget hact) (.inr ⟨h', ?_, hlt⟩)
  exact List.getElem?_set_self hi

theorem PoolState.Inv.dropGoesOn (hinv : s.Inv count bufSize)
    (hget : s.slots[i]? = some (some h)) : s.DropGoesOn i h := by
  obtain ⟨hi, -⟩ := List.getElem?_eq_some_iff.1 hget
  have hset : ∀ o : Option Handle, (s.slots.set i o)[i]? = some o := fun _ =>
    List.getElem?_set_self hi
  cases h with
  | buffer b => exact hinv.dropGoesOn_of_handle hget rfl rfl (Nat.lt_succ_self _)
  | slice b => exact hinv.dropGoesOn_of_handle hget rfl rfl (Nat.lt_succ_self _)
  | borrowed u => exact hinv.dropGoesOn_of_handle hget rfl rfl (Nat.lt_succ_self _)
  | reading u =>
      have hwrite : overwrite u.buf.mem [] = some u.buf.mem := by simp [overwrite]
      have hact : (Handle.reading u).step (.frameFailed []) = some (.dropping u.drop .entered) := by
        simp only [Handle.step, hwrite, Option.map_some]
      exact hinv.dropGoesOn_of_handle hget rfl hact (Nat.lt_succ_self _)
  | dropping b stage =>
      cases stage with
      | entered =>
          cases hupgrade : s.channel.upgrade with
          | some channel =>
              have hstep : s.step (.upgrade i) = some { s with
                  channel := channel
                  slots := s.slots.set i (some (.dropping b .upgraded)) } := by
                simp only [PoolState.step, hget, hupgrade]
              exact hinv.dropGoesOn_of_step hstep (.inr ⟨_, hset _, Nat.lt_succ_self _⟩)
          | none =>
              have hstep : s.step (.upgrade i) = some { s with slots := s.slots.set i none } := by
                simp only [PoolState.step, hget, hupgrade]
              exact hinv.dropGoesOn_of_step hstep (.inl (hset none))
      | upgraded =>
          have hstep : s.step (.report i) = some { s.reportAvailable with
              slots := s.slots.set i (some (.dropping b .reported))
              active := s.active - 1 } := by
            simp only [PoolState.step, hget]
          exact hinv.dropGoesOn_of_step hstep (.inr ⟨_, hset _, Nat.lt_succ_self _⟩)
      | reported =>
          have hstep : s.step (.send i) = some (s.sendBack i b) := by
            simp only [PoolState.step, hget]
          refine hinv.dropGoesOn_of_step hstep (.inl ?_)
          unfold sendBack
          split <;> exact hset none

end

/-- **Buffers are conserved.** Whatever the tasks do and in whatever order, the buffers in the channel
    and those that are owned make up the pool, a popped buffer has the pool's size, and giving one back
    goes through, also when the pool is gone. -/
theorem buffers_conserved {count : Nat} (hcount : 0 < count) (bufSize : Nat) :
    ∃ s₀, BufferPool.new count bufSize = some s₀ ∧
      ∀ acts s, runFrom PoolState.step s₀ acts = some s →
        (s.alive = true → s.channel.queue.length + s.live = count) ∧
        (∀ b, s.pool = .received b → b.buffer.length = bufSize) ∧
        s.panicked = false ∧
        ∀ i h, s.slots[i]? = some (some h) → s.DropGoesOn i h := by
  obtain ⟨s₀, hnew, hinv₀⟩ := BufferPool.new_inv hcount bufSize
  refine ⟨s₀, hnew, ?_⟩
  intro acts s hrun
  have hinv : s.Inv count bufSize := runFrom_invariant (fun _ _ _ hI hs => hI.step hs) hinv₀ hrun
  refine ⟨?_, fun b hb => (hinv.received b hb).1, hinv.calm, fun i h hget => hinv.dropGoesOn hget⟩
  intro halive
  exact hinv.conserved (by rw [hinv.closed_eq, halive]; rfl)

/-- A buffer that comes back while the pool is being dropped. -/
def racedTeardown : List PoolAction :=
  [.startPop, .recv, .finishPop, .handle 0 .drop, .upgrade 0, .report 0, .dropReceiver, .send 0,
    .dropSender]

theorem buffers_conserved_raced :
    ∃ s₀ s, BufferPool.new 1 2 = some s₀ ∧ runFrom PoolState.step s₀ racedTeardown = some s ∧
      s.slots = [none] ∧ s.alive = false ∧ s.panicked = false := by
  obtain ⟨s₀, hnew, hall⟩ := buffers_conserved (show 0 < 1 by decide) 2
  obtain ⟨s, hrun, hslots, halive⟩ : ∃ s, runFrom PoolState.step s₀ racedTeardown = some s ∧
      s.slots = [none] ∧ s.alive = false := by
    obtain rfl := Option.some.inj hnew
    exact ⟨_, rfl, rfl, rfl⟩
  exact ⟨s₀, s, hnew, hrun, hslots, halive, (hall racedTeardown s hrun).2.2.1⟩

end P2pVpn
