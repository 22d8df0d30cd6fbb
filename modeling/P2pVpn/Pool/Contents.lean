import P2pVpn.Pool.Conservation

set_option autoImplicit false

/-! # Reused buffers

The owner of a popped buffer sees a byte string that starts empty and that only its own actions
change. The memory behind it has a history, since it is not cleared on its way through the channel, but
nothing of that can be seen. -/

namespace P2pVpn

/-! ## The owner's view -/

/-- What a step of the pool means for the owner of buffer `i`. -/
def PoolAction.effect (i : Nat) : PoolAction → List UInt8 → List UInt8
  | .handle j a, contents => if j = i then a.effect contents else contents
  | _, contents => contents

/-- What the operations on buffer `i` make of its contents. -/
def replay (i : Nat) (acts : List PoolAction) (contents : List UInt8) : List UInt8 :=
  acts.foldl (fun contents a => a.effect i contents) contents

section

variable {count bufSize i : Nat} {s s' : PoolState} {a : PoolAction} {h' : Handle}

theorem PoolStep.length_slots_le (hstep : PoolStep s a s') : s.slots.length ≤ s'.slots.length := by
  cases hstep <;> simp

/-- A buffer that is owned after a step was owned before, and the step did to it what it means. -/
theorem PoolState.Inv.contents_of_step (hinv : s.Inv count bufSize) (hi : i < s.slots.length)
    (hstep : s.step a = some s') (hget' : s'.slots[i]? = some (some h')) :
    ∃ h, s.slots[i]? = some (some h) ∧ h'.contents = a.effect i h.contents := by
  cases PoolState.step_sound hstep with
  | startPop hidle => exact ⟨h', hget', rfl⟩
  | cancelPop hwaiting => exact ⟨h', hget', rfl⟩
  | recv hwaiting hrecv => exact ⟨h', hget', rfl⟩
  | finishPop hreceived =>
      rcases Slots.get_append hget' with ⟨hlast, -⟩ | ⟨-, hget⟩
      · omega
      · exact ⟨h', hget, rfl⟩
  | handle hget hact =>
      rename_i j act h h''
      rcases Slots.get_set_some hget' with ⟨rfl, rfl⟩ | ⟨hne, hget''⟩
      · refine ⟨h, hget, ?_⟩
        rw [(Handle.step_spec (hinv.handles _ _ hget) hact).2, PoolAction.effect, if_pos rfl]
      · exact ⟨h', hget'', by rw [PoolAction.effect, if_neg (Ne.symm hne)]⟩
  | upgrade hget hupgrade =>
      rcases Slots.get_set_some hget' with ⟨rfl, rfl⟩ | ⟨-, hget''⟩
      · exact ⟨_, hget, rfl⟩
      · exact ⟨h', hget'', rfl⟩
  | abandon hget hupgrade => exact ⟨h', (Slots.get_set_none hget').2, rfl⟩
  | report hget =>
      rcases Slots.get_set_some hget' with ⟨rfl, rfl⟩ | ⟨-, hget''⟩
      · exact ⟨_, hget, rfl⟩
      · exact ⟨h', hget'', rfl⟩
  | send hget hsend => exact ⟨h', (Slots.get_set_none hget').2, rfl⟩
  | sendClosed hget hsend => exact ⟨h', (Slots.get_set_none hget').2, rfl⟩
  | sendFull hget hsend => exact ⟨h', (Slots.get_set_none hget').2, rfl⟩
  | dropReceiver hidle => exact ⟨h', hget', rfl⟩
  | dropSender hclosing => exact ⟨h', hget', rfl⟩

/-- The whole run, by induction over it: the state before each step has the invariant and the buffer. -/
theorem PoolState.Inv.contents_of_run {acts : List PoolAction} (hinv : s.Inv count bufSize)
    (hi : i < s.slots.length) (hrun : runFrom PoolState.step s acts = some s')
    (hget' : s'.slots[i]? = some (some h')) :
    ∃ h, s.slots[i]? = some (some h) ∧ h'.contents = replay i acts h.contents := by
  induction acts generalizing s with
  | nil =>
      obtain rfl := Option.some.inj hrun
      exact ⟨h', hget', rfl⟩
  | cons a rest ih =>
      obtain ⟨mid, hstep, hrest⟩ := runFrom_cons hrun
      have hlen := (PoolState.step_sound hstep).length_slots_le
      obtain ⟨hmid, hgetMid, hreplay⟩ := ih (hinv.step hstep) (by omega) hrest
      obtain ⟨h, hget, heffect⟩ := hinv.contents_of_step hi hstep hgetMid
      exact ⟨h, hget, by rw [hreplay, heffect]; rfl⟩

end

/-! ## Appending -/

/-- The bytes an action commits. -/
def HandleAction.writes : HandleAction → List UInt8
  | .putSlice src => src
  | .fill w => w.committed
  | .readBufPut src => src
  | .readBufFill w => w.committed
  | .frameRead w => w.committed
  | _ => []

/-- What a step writes into buffer `i`. -/
def PoolAction.writes (i : Nat) : PoolAction → List UInt8
  | .handle j a => if j = i then a.writes else []
  | _ => []

/-- All that was written to buffer `i`, in order. -/
def written (i : Nat) (acts : List PoolAction) : List UInt8 := acts.flatMap (PoolAction.writes i)

/-- Buffer `i` is written to by appending only, not in place through `deref_mut`. -/
def AppendOnly (i : Nat) (acts : List PoolAction) : Prop :=
  ∀ a ∈ acts, ∀ contents, a ≠ .handle i (.derefMut contents)

theorem PoolAction.effect_eq_append {i : Nat} {a : PoolAction}
    (happend : ∀ contents, a ≠ .handle i (.derefMut contents)) (contents : List UInt8) :
    a.effect i contents = contents ++ a.writes i := by
  cases a with
  | handle j act =>
      by_cases hj : j = i
      · subst hj
        simp only [effect, writes, if_true]
        cases act with
        | derefMut new => exact absurd rfl (happend new)
        | _ => simp [HandleAction.effect, HandleAction.writes]
      · simp [effect, writes, hj]
  | _ => simp [effect, writes]

theorem replay_eq_append {i : Nat} {acts : List PoolAction} (happend : AppendOnly i acts)
    (contents : List UInt8) : replay i acts contents = contents ++ written i acts := by
  induction acts generalizing contents with
  | nil => simp [replay, written]
  | cons a rest ih =>
      have hrest : AppendOnly i rest := fun b hb => happend b (List.mem_cons_of_mem a hb)
      have hhead := PoolAction.effect_eq_append (happend a (List.mem_cons_self ..)) contents
      calc replay i (a :: rest) contents
          = replay i rest (a.effect i contents) := rfl
        _ = contents ++ a.writes i ++ written i rest := by rw [hhead, ih hrest]
        _ = contents ++ written i (a :: rest) := by simp [written]

/-- The buffer a handle gives access to. -/
def Handle.owned : Handle → Option PooledBuffer
  | .buffer b | .slice b => some b
  | _ => none

/-- A run of a pool in which buffer `i` is popped, after any history, and `after` is what happens from
    then on. -/
def PoppedThen (count bufSize i : Nat) (after : List PoolAction) (s : PoolState) : Prop :=
  ∃ s₀ before s₁ s₂, BufferPool.new count bufSize = some s₀ ∧
    runFrom PoolState.step s₀ before = some s₁ ∧ s₁.slots.length = i ∧
    s₁.step .finishPop = some s₂ ∧ runFrom PoolState.step s₂ after = some s

section

variable {count bufSize i : Nat} {s : PoolState} {after : List PoolAction} {h : Handle}
  {b : PooledBuffer}

theorem PoppedThen.contents_eq (hrun : PoppedThen count bufSize i after s)
    (hget : s.slots[i]? = some (some h)) :
    h.Fits bufSize ∧ h.contents = replay i after [] := by
  obtain ⟨s₀, before, s₁, s₂, hnew, hbefore, hlen, hpop, hafter⟩ := hrun
  obtain ⟨hcount, -⟩ := BufferPool.new_eq_some hnew
  obtain ⟨s₀', hnew', hinv₀⟩ := BufferPool.new_inv hcount bufSize
  obtain rfl : s₀' = s₀ := Option.some.inj (hnew'.symm.trans hnew)
  have hinv₁ : s₁.Inv count bufSize :=
    runFrom_invariant (fun _ _ _ hI hs => hI.step hs) hinv₀ hbefore
  have hinv₂ := hinv₁.step hpop
  have hinv : s.Inv count bufSize :=
    runFrom_invariant (fun _ _ _ hI hs => hI.step hs) hinv₂ hafter
  refine ⟨hinv.handles i h hget, ?_⟩
  cases PoolState.step_sound hpop with
  | finishPop hreceived =>
      rename_i popped
      obtain ⟨hfresh, hgetFresh, hreplay⟩ :=
        hinv₂.contents_of_run (by simp [hlen]) hafter hget
      have hempty : hfresh.contents = [] := by
        rcases Slots.get_append hgetFresh with ⟨-, rfl⟩ | ⟨hlt, -⟩
        · simp [Handle.contents, PooledBuffer.contents, (hinv₁.received popped hreceived).2]
        · omega
      rw [hreplay, hempty]

theorem PoppedThen.owned_eq (hrun : PoppedThen count bufSize i after s)
    (happend : AppendOnly i after) (hget : s.slots[i]? = some (some h))
    (howned : h.owned = some b) : b.Fits bufSize ∧ b.contents = written i after := by
  obtain ⟨hfits, hcontents⟩ := hrun.contents_eq hget
  rw [replay_eq_append happend, List.nil_append] at hcontents
  cases h with
  | buffer b' =>
      obtain rfl := Option.some.inj howned
      exact ⟨hfits, hcontents⟩
  | slice b' =>
      obtain rfl := Option.some.inj howned
      exact ⟨hfits, hcontents⟩
  | borrowed u => simp [Handle.owned] at howned
  | reading u => simp [Handle.owned] at howned
  | dropping b' stage => simp [Handle.owned] at howned

/-- **Reused buffers behave like fresh ones.** What the owner of a popped buffer reads is what was
    written to it since it was popped, the room left is the rest of the buffer and can be used, and two
    owners who wrote the same read the same, whatever happened to the memory before. -/
theorem popped_appends (hrun : PoppedThen count bufSize i after s) (happend : AppendOnly i after)
    (hget : s.slots[i]? = some (some h)) (howned : h.owned = some b) :
    b.deref = some (written i after) ∧
      b.remainingMut = bufSize - (written i after).length ∧ b.filledLen ≤ b.buffer.length ∧
      b.readBuf.isSome = true ∧
      (∀ src, (b.putSlice src).isSome = true ↔ src.length ≤ b.remainingMut) ∧
      ∀ after' s' h' b', PoppedThen count bufSize i after' s' → AppendOnly i after' →
        s'.slots[i]? = some (some h') → h'.owned = some b' →
        written i after' = written i after → b'.deref = b.deref := by
  obtain ⟨hfits, hcontents⟩ := hrun.owned_eq happend hget howned
  have hderef : b.deref = some (written i after) := by rw [hfits.deref_eq, hcontents]
  refine ⟨hderef, ?_, ?_, PooledBuffer.readBuf_isSome hfits,
    PooledBuffer.putSlice_isSome_iff hfits, ?_⟩
  · rw [hfits.remainingMut_eq, hcontents]
  · rw [hfits.length_eq]
    exact hfits.filled_le
  · intro after' s' h' b' hrun' happend' hget' howned' hsame
    obtain ⟨hfits', hcontents'⟩ := hrun'.owned_eq happend' hget' howned'
    rw [hfits'.deref_eq, hcontents', hsame, hderef]

end

/-- A pool of one buffer, which one task fills and returns before another pops it. -/
def earlierOwner : List PoolAction :=
  [.startPop, .recv, .finishPop, .handle 0 (.putSlice [9, 9, 9]), .handle 0 .drop, .upgrade 0,
    .report 0, .send 0, .startPop, .recv]

/-- Two writes, one of each kind. -/
def appendTwice : List PoolAction :=
  [.handle 1 (.putSlice [1]), .handle 1 .readBuf, .handle 1 (.readBufPut [2]),
    .handle 1 .dropReadBuf]

theorem popped_appends_reused :
    ∃ s b, PoppedThen 1 4 1 appendTwice s ∧ s.slots[1]? = some (some (.buffer b)) ∧
      b.buffer = [1, 2, 9, 0] ∧ b.deref = some [1, 2] := by
  obtain ⟨s₀, s₁, s₂, s, hnew, hbefore, hlen, hpop, hafter, b, hget, hbuffer⟩ :
      ∃ s₀ s₁ s₂ s, BufferPool.new 1 4 = some s₀ ∧
        runFrom PoolState.step s₀ earlierOwner = some s₁ ∧ s₁.slots.length = 1 ∧
        s₁.step .finishPop = some s₂ ∧ runFrom PoolState.step s₂ appendTwice = some s ∧
        ∃ b, s.slots[1]? = some (some (.buffer b)) ∧ b.buffer = [1, 2, 9, 0] :=
    ⟨_, _, _, _, rfl, rfl, rfl, rfl, rfl, _, rfl, rfl⟩
  have hrun : PoppedThen 1 4 1 appendTwice s :=
    ⟨s₀, earlierOwner, s₁, s₂, hnew, hbefore, hlen, hpop, hafter⟩
  have happend : AppendOnly 1 appendTwice := by
    intro a ha contents
    simp only [appendTwice, List.mem_cons, List.not_mem_nil, or_false] at ha
    rcases ha with rfl | rfl | rfl | rfl <;> simp
  exact ⟨s, b, hrun, hget, hbuffer, (popped_appends hrun happend hget rfl).1⟩

end P2pVpn
