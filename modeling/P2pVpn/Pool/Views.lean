import P2pVpn.Pool.Contents

set_option autoImplicit false

/-! # Buffers as their holders see them

A task that holds a buffer either waits for the device to fill it or has a packet in it. `view` is
what every holder has, by the buffer's place, and each operation a task makes on its buffer changes
the view at that place only. Buffers on their way back to the pool are nobody's. -/

namespace P2pVpn

/-- What the holder of a buffer sees in it. -/
inductive SlotView where
  /-- In `read_frame`, behind what is already in the buffer. -/
  | reading (bytes : List UInt8)
  /-- A `PooledSlice`. -/
  | packet (bytes : List UInt8)
  deriving DecidableEq

/-- The view of the handle, if it is a packet or waits for one. -/
def Handle.view : Handle → Option SlotView
  | .slice b => some (.packet b.contents)
  | .reading u => some (.reading u.contents)
  | _ => none

/-- The buffer is somebody's. -/
def Handle.inUse : Handle → Bool
  | .dropping _ _ => false
  | _ => true

/-- The steps of a `Drop` after its first one, and of the pool's own. -/
def PoolAction.isBackground : PoolAction → Bool
  | .upgrade _ | .report _ | .send _ | .dropSender => true
  | _ => false

namespace PoolState

/-- The view at a place. -/
def view (s : PoolState) (i : Nat) : Option SlotView := s.slots[i]?.join.bind Handle.view

/-- How many buffers are somebody's. -/
def inUse (s : PoolState) : Nat := Slots.count Handle.inUse s.slots

/-- Buffers whose `Drop` is running. -/
def dropping (s : PoolState) : Nat := Slots.count (fun h => !h.inUse) s.slots

/-! ## Operations -/

/-- What the holder of a `PooledSlice` reads. -/
def packetAt (s : PoolState) (i : Nat) : Option (List UInt8) :=
  match s.slots[i]? with
  | some (some (.slice b)) => b.deref
  | _ => none

/-- The rest of `pop` once its `recv` has a buffer, and `read_frame` up to its wait for the device. -/
def popToRead (s : PoolState) : Option PoolState :=
  runFrom PoolState.step s [.recv, .finishPop, .handle s.slots.length .readFrame]

/-- The write of `process_packet_congestion` into a packet that is handed on. -/
def rewrite (s : PoolState) (i : Nat) (bytes : List UInt8) : Option PoolState :=
  runFrom PoolState.step s [.handle i .toBuffer, .handle i (.derefMut bytes), .handle i .intoSlice]

/-- `s'` is `s` with another view at place `i`. -/
structure Changed (count bufSize : Nat) (s : PoolState) (i : Nat) (v : Option SlotView)
    (s' : PoolState) : Prop where
  inv : s'.Inv count bufSize
  view : s'.view = Function.update s.view i v
  inUse : s'.inUse + (s.view i).isSome.toNat = s.inUse + v.isSome.toNat

section

variable {count bufSize i : Nat} {s s' : PoolState} {h h' : Handle} {bytes : List UInt8}

theorem view_of_get (hget : s.slots[i]? = some (some h)) : s.view i = h.view := by
  simp [view, hget]

theorem view_of_length_le (hi : s.slots.length ≤ i) : s.view i = none := by
  simp [view, hi]

/-- The handle behind a view. -/
theorem get_of_view {v : SlotView} (hview : s.view i = some v) :
    ∃ h, s.slots[i]? = some (some h) ∧ h.view = some v := by
  obtain ⟨h, hjoin, hv⟩ := Option.bind_eq_some_iff.1 hview
  exact ⟨h, Option.join_eq_some_iff.1 hjoin, hv⟩

theorem slice_of_view (hview : s.view i = some (.packet bytes)) :
    ∃ b, s.slots[i]? = some (some (.slice b)) ∧ b.contents = bytes := by
  obtain ⟨h, hget, hv⟩ := get_of_view hview
  cases h with
  | slice b => exact ⟨b, hget, by simpa [Handle.view] using hv⟩
  | _ => simp [Handle.view] at hv

theorem Inv.packetAt_of_view (hinv : s.Inv count bufSize) (hview : s.view i = some (.packet bytes)) :
    s.packetAt i = some bytes := by
  obtain ⟨b, hget, rfl⟩ := slice_of_view hview
  have hfits : b.Fits bufSize := hinv.handles i _ hget
  simp only [packetAt, hget, hfits.deref_eq]

theorem reading_of_view (hview : s.view i = some (.reading bytes)) :
    ∃ u, s.slots[i]? = some (some (.reading u)) ∧ u.contents = bytes := by
  obtain ⟨h, hget, hv⟩ := get_of_view hview
  cases h with
  | reading u => exact ⟨u, hget, by simpa [Handle.view] using hv⟩
  | _ => simp [Handle.view] at hv

theorem view_set (s : PoolState) (o : Option Handle) (hi : i < s.slots.length) (j : Nat) :
    (s.slots.set i o)[j]?.join.bind Handle.view
      = Function.update s.view i (o.bind Handle.view) j := by
  by_cases hj : j = i
  · subst hj
    simp [hi]
  · rw [Function.update_of_ne hj, List.getElem?_set_ne (Ne.symm hj)]
    rfl

/-- The step of the holder of a buffer is one of its handle. -/
theorem step_handle {a : HandleAction} (hget : s.slots[i]? = some (some h))
    (hstep : s.step (.handle i a) = some s') :
    ∃ h', h.step a = some h' ∧ s' = { s with slots := s.slots.set i (some h') } := by
  simp only [PoolState.step, hget, Option.map_eq_some_iff] at hstep
  obtain ⟨h', hact, heq⟩ := hstep
  exact ⟨h', hact, heq.symm⟩

theorem Inv.changed_of_handle {a : HandleAction} (hinv : s.Inv count bufSize)
    (hget : s.slots[i]? = some (some h)) (hact : h.step a = some h')
    (hh : h.inUse = h.view.isSome) (hh' : h'.inUse = h'.view.isSome) :
    s.Changed count bufSize i h'.view { s with slots := s.slots.set i (some h') } := by
  have hstep := step_handle_of_get hget hact
  have hcount := Slots.count_set_some Handle.inUse hget h'
  refine ⟨hinv.step hstep, ?_, ?_⟩
  · funext j
    exact s.view_set (some h') (List.getElem?_eq_some_iff.1 hget).1 j
  · rw [view_of_get hget, ← hh, ← hh']
    exact hcount

/-- A packet is given up. -/
theorem Inv.changed_of_drop (hinv : s.Inv count bufSize) (hview : s.view i = some (.packet bytes))
    (hstep : s.step (.handle i .drop) = some s') : s.Changed count bufSize i none s' := by
  obtain ⟨b, hget, -⟩ := slice_of_view hview
  obtain ⟨h', hact, rfl⟩ := step_handle hget hstep
  obtain rfl := Option.some.inj hact
  exact hinv.changed_of_handle hget hact rfl rfl

/-- So is a buffer whose frame could not be read. -/
theorem Inv.changed_of_frameFailed {scribbled : List UInt8} (hinv : s.Inv count bufSize)
    (hview : s.view i = some (.reading bytes))
    (hstep : s.step (.handle i (.frameFailed scribbled)) = some s') :
    s.Changed count bufSize i none s' := by
  obtain ⟨u, hget, -⟩ := reading_of_view hview
  obtain ⟨h', hact, rfl⟩ := step_handle hget hstep
  obtain ⟨mem, -, rfl⟩ := Option.map_eq_some_iff.1 hact
  exact hinv.changed_of_handle hget hact rfl rfl

/-- A frame has been read: what the device wrote is behind what was there. -/
theorem Inv.changed_of_frameRead {w : Write} (hinv : s.Inv count bufSize)
    (hview : s.view i = some (.reading bytes))
    (hstep : s.step (.handle i (.frameRead w)) = some s') :
    s.Changed count bufSize i (some (.packet (bytes ++ w.committed))) s' := by
  obtain ⟨u, hget, hbytes⟩ := reading_of_view hview
  obtain ⟨h', hact, rfl⟩ := step_handle hget hstep
  have hcontents := (Handle.step_spec (hinv.handles i _ hget) hact).2
  obtain ⟨b, rfl⟩ : ∃ b, h' = .slice b := by
    obtain ⟨buf, -, rfl⟩ := Option.map_eq_some_iff.1 hact
    exact ⟨_, rfl⟩
  have hslice : b.contents = bytes ++ w.committed := by
    rw [← hbytes]
    exact hcontents
  have hchanged := hinv.changed_of_handle hget hact rfl rfl
  rwa [Handle.view, hslice] at hchanged

/-- A packet is written over at its length. -/
theorem Inv.changed_of_rewrite {new : List UInt8} (hinv : s.Inv count bufSize)
    (hview : s.view i = some (.packet bytes)) (hrun : s.rewrite i new = some s') :
    s.Changed count bufSize i (some (.packet new)) s' := by
  obtain ⟨b, hget, -⟩ := slice_of_view hview
  obtain ⟨hi, -⟩ := List.getElem?_eq_some_iff.1 hget
  obtain ⟨s₁, hstep₁, hrun⟩ := runFrom_cons hrun
  obtain ⟨h₁, hact₁, rfl⟩ := step_handle hget hstep₁
  obtain rfl := Option.some.inj hact₁
  have hget₁ : (s.slots.set i (some (.buffer b)))[i]? = some (some (.buffer b)) :=
    List.getElem?_set_self hi
  obtain ⟨s₂, hstep₂, hrun⟩ := runFrom_cons hrun
  obtain ⟨h₂, hact₂, rfl⟩ := step_handle hget₁ hstep₂
  have hinv₁ := hinv.step hstep₁
  obtain ⟨-, hcontents⟩ := Handle.step_spec (hinv₁.handles i _ hget₁) hact₂
  obtain ⟨b', -, rfl⟩ := Option.map_eq_some_iff.1 hact₂
  have hget₂ : ((s.slots.set i (some (.buffer b))).set i (some (.buffer b')))[i]?
      = some (some (.buffer b')) := List.getElem?_set_self (by simpa using hi)
  obtain ⟨s₃, hstep₃, hrun⟩ := runFrom_cons hrun
  obtain ⟨h₃, hact₃, rfl⟩ := step_handle hget₂ hstep₃
  obtain rfl := Option.some.inj hact₃
  obtain rfl := Option.some.inj hrun
  have hinv₃ := (hinv₁.step hstep₂).step hstep₃
  have hnew : b'.contents = new := hcontents
  have hcount := Slots.count_set_some Handle.inUse hget (.slice b')
  simp only [List.set_set] at hinv₃ ⊢
  refine ⟨hinv₃, ?_, ?_⟩
  · funext j
    rw [← hnew]
    exact s.view_set (some (.slice b')) hi j
  · rw [hview]
    exact hcount

/-- A buffer comes out of the pool: it has nothing in it, and its place is new. -/
theorem Inv.changed_of_popToRead (hinv : s.Inv count bufSize) (hrun : s.popToRead = some s') :
    s.view s.slots.length = none ∧
      s.Changed count bufSize s.slots.length (some (.reading [])) s' := by
  obtain ⟨s₁, hstep₁, hrun⟩ := runFrom_cons hrun
  obtain ⟨s₂, hstep₂, hrun⟩ := runFrom_cons hrun
  obtain ⟨s₃, hstep₃, hrun⟩ := runFrom_cons hrun
  obtain rfl := Option.some.inj hrun
  have hinv₂ := (hinv.step hstep₁).step hstep₂
  have hinv₃ := hinv₂.step hstep₃
  cases step_sound hstep₁ with
  | @recv buffer channel hwaiting hrecv =>
      cases step_sound hstep₂ with
      | finishPop hreceived =>
          obtain rfl := PoolStage.received.inj hreceived
          have hget : (s.slots ++ [some (Handle.buffer ⟨buffer, 0⟩)])[s.slots.length]?
              = some (some (.buffer ⟨buffer, 0⟩)) := by simp
          obtain ⟨h₃, hact, rfl⟩ := step_handle hget hstep₃
          have hmap : (PooledBuffer.readBuf ⟨buffer, 0⟩).map Handle.reading = some h₃ := hact
          obtain ⟨u, hread, rfl⟩ := Option.map_eq_some_iff.1 hmap
          obtain ⟨-, hcontents, -⟩ :=
            PooledBuffer.readBuf_spec (hinv₂.handles s.slots.length _ hget) hread
          have hempty : u.contents = [] := hcontents
          have hnone := view_of_length_le (s := s) (le_refl s.slots.length)
          refine ⟨hnone, hinv₃, ?_, ?_⟩
          · funext j
            unfold view
            by_cases hj : j = s.slots.length
            · subst hj
              simp [Handle.view, hempty]
            · rw [Function.update_of_ne hj, List.getElem?_set_ne (Ne.symm hj)]
              by_cases hlt : j < s.slots.length
              · rw [List.getElem?_append_left hlt]
              · simp [List.getElem?_append_right (Nat.le_of_not_lt hlt), Nat.le_of_not_lt hlt,
                  show j - s.slots.length ≠ 0 by omega]
          · have hset := Slots.count_set_some Handle.inUse hget (.reading u)
            have happend := Slots.count_append Handle.inUse s.slots (.buffer ⟨buffer, 0⟩)
            rw [hnone]
            simp only [inUse, Handle.inUse, Bool.toNat_true, Bool.toNat_false, Option.isSome_none,
              Option.isSome_some] at hset happend ⊢
            omega

/-- What happens to a buffer that is being dropped is not seen. -/
theorem Inv.sameView_of_set (hinv : s'.Inv count bufSize) {b : PooledBuffer} {stage : DropStage}
    {o : Option Handle} (hget : s.slots[i]? = some (some (.dropping b stage)))
    (ho : o = none ∨ ∃ b' stage', o = some (.dropping b' stage'))
    (hslots : s'.slots = s.slots.set i o) :
    s'.Inv count bufSize ∧ s'.view = s.view ∧ s'.inUse = s.inUse := by
  have hview : s.view i = none := view_of_get hget
  have hset : s'.view = Function.update s.view i (o.bind Handle.view) := by
    funext j
    unfold view
    rw [hslots]
    exact s.view_set o (List.getElem?_eq_some_iff.1 hget).1 j
  rcases ho with rfl | ⟨b', stage', rfl⟩
  · have hcount := Slots.count_set_none Handle.inUse hget
    refine ⟨hinv, ?_, ?_⟩
    · rw [hset, ← Function.update_eq_self i s.view, hview]
      simp
    · unfold inUse
      rw [hslots]
      exact hcount
  · have hcount := Slots.count_set_some Handle.inUse hget (.dropping b' stage')
    refine ⟨hinv, ?_, ?_⟩
    · rw [hset, ← Function.update_eq_self i s.view, hview]
      simp [Handle.view]
    · unfold inUse
      rw [hslots]
      exact hcount

/-- Nor is what happens at the pool's end. -/
theorem Inv.sameView_of_stage {a : PoolAction} (hinv : s.Inv count bufSize)
    (ha : a = .startPop ∨ a = .cancelPop ∨ a = .dropReceiver) (hstep : s.step a = some s') :
    s'.Inv count bufSize ∧ s'.view = s.view ∧ s'.inUse = s.inUse := by
  have hinv' := hinv.step hstep
  rcases ha with rfl | rfl | rfl <;> cases step_sound hstep <;> exact ⟨hinv', rfl, rfl⟩

theorem Inv.sameView_of_background {a : PoolAction} (hinv : s.Inv count bufSize)
    (hback : a.isBackground = true) (hstep : s.step a = some s') :
    s'.Inv count bufSize ∧ s'.view = s.view ∧ s'.inUse = s.inUse := by
  have hinv' := hinv.step hstep
  cases step_sound hstep with
  | upgrade hget _ => exact hinv'.sameView_of_set hget (.inr ⟨_, _, rfl⟩) rfl
  | abandon hget _ => exact hinv'.sameView_of_set hget (.inl rfl) rfl
  | report hget => exact hinv'.sameView_of_set hget (.inr ⟨_, _, rfl⟩) rfl
  | send hget _ => exact hinv'.sameView_of_set hget (.inl rfl) rfl
  | sendClosed hget _ => exact hinv'.sameView_of_set hget (.inl rfl) rfl
  | sendFull hget _ => exact hinv'.sameView_of_set hget (.inl rfl) rfl
  | dropSender hclosing => exact ⟨hinv', rfl, rfl⟩
  | _ => simp [PoolAction.isBackground] at hback

/-! What can be done with a buffer. -/

theorem exists_drop (hview : s.view i = some (.packet bytes)) :
    ∃ s', s.step (.handle i .drop) = some s' := by
  obtain ⟨b, hget, -⟩ := slice_of_view hview
  exact ⟨_, step_handle_of_get hget rfl⟩

theorem Inv.exists_rewrite {new : List UInt8} (hinv : s.Inv count bufSize)
    (hview : s.view i = some (.packet bytes)) (hlen : new.length = bytes.length) :
    ∃ s', s.rewrite i new = some s' := by
  obtain ⟨b, hget, rfl⟩ := slice_of_view hview
  have hfits : b.Fits bufSize := hinv.handles i _ hget
  have hfilled : new.length = b.filledLen := hlen.trans hfits.length_contents
  have hroom : new.length ≤ b.buffer.length := by
    rw [hfilled, hfits.length_eq]
    exact hfits.filled_le
  obtain ⟨b', hmut⟩ : ∃ b', b.derefMut new = some b' := by
    unfold PooledBuffer.derefMut
    rw [if_pos hfilled, overwrite, if_pos hroom]
    exact ⟨_, rfl⟩
  have hi := (List.getElem?_eq_some_iff.1 hget).1
  have hact : (Handle.buffer b).step (.derefMut new) = some (.buffer b') := by
    simp only [Handle.step, hmut, Option.map_some]
  have hstep₁ := step_handle_of_get (a := .toBuffer) hget rfl
  have hstep₂ := step_handle_of_get
    (s := { s with slots := s.slots.set i (some (.buffer b)) }) (List.getElem?_set_self hi) hact
  have hstep₃ := step_handle_of_get (a := .intoSlice)
    (s := { s with slots := (s.slots.set i (some (.buffer b))).set i (some (.buffer b')) })
    (List.getElem?_set_self (by simpa using hi)) rfl
  rw [rewrite, runFrom_step hstep₁, runFrom_step hstep₂, runFrom_step hstep₃]
  exact ⟨_, rfl⟩

theorem Inv.exists_popToRead (hinv : s.Inv count bufSize) (hwaiting : s.pool = .waiting)
    (hqueue : s.channel.queue ≠ []) : ∃ s', s.popToRead = some s' := by
  obtain ⟨buffer, rest, hcons⟩ := List.exists_cons_of_ne_nil hqueue
  have hfits : PooledBuffer.Fits bufSize ⟨buffer, 0⟩ :=
    ⟨hinv.queued buffer (by simp [hcons]), Nat.zero_le bufSize⟩
  obtain ⟨u, hread⟩ := Option.isSome_iff_exists.1 (PooledBuffer.readBuf_isSome hfits)
  simp [popToRead, runFrom, PoolState.step, hwaiting, Channel.recv, hcons, Handle.step, hread]

/-- A buffer that is being dropped gets on. -/
theorem Inv.exists_background (hinv : s.Inv count bufSize) (hdropping : s.dropping ≠ 0) :
    ∃ a s', a.isBackground = true ∧ s.step a = some s' := by
  obtain ⟨o, hmem, ho⟩ := List.countP_pos_iff.1 (Nat.pos_of_ne_zero hdropping)
  obtain ⟨i, hget⟩ := List.mem_iff_getElem?.1 hmem
  cases o with
  | none => simp at ho
  | some h =>
      cases h with
      | dropping b stage =>
          obtain ⟨s', hstep, -⟩ := hinv.dropGoesOn hget
          refine ⟨_, s', ?_, hstep⟩
          cases stage <;> rfl
      | _ => simp [Handle.inUse] at ho

/-! Where the pool itself stands. -/

theorem pool_of_handle {a : HandleAction} (hstep : s.step (.handle i a) = some s') :
    s'.pool = s.pool := by
  cases step_sound hstep
  rfl

theorem pool_of_popToRead (hrun : s.popToRead = some s') : s.pool = .waiting ∧ s'.pool = .idle := by
  obtain ⟨s₁, hstep₁, hrun⟩ := runFrom_cons hrun
  obtain ⟨s₂, hstep₂, hrun⟩ := runFrom_cons hrun
  obtain ⟨s₃, hstep₃, hrun⟩ := runFrom_cons hrun
  obtain rfl := Option.some.inj hrun
  rw [pool_of_handle hstep₃]
  cases step_sound hstep₁ with
  | recv hwaiting _ =>
      cases step_sound hstep₂
      exact ⟨hwaiting, rfl⟩

theorem pool_of_rewrite (hrun : s.rewrite i bytes = some s') : s'.pool = s.pool := by
  obtain ⟨s₁, hstep₁, hrun⟩ := runFrom_cons hrun
  obtain ⟨s₂, hstep₂, hrun⟩ := runFrom_cons hrun
  obtain ⟨s₃, hstep₃, hrun⟩ := runFrom_cons hrun
  obtain rfl := Option.some.inj hrun
  rw [pool_of_handle hstep₃, pool_of_handle hstep₂, pool_of_handle hstep₁]

theorem pool_of_background {a : PoolAction} (hback : a.isBackground = true)
    (hstep : s.step a = some s') : s'.pool = s.pool ∨ (s.pool = .closing ∧ s'.pool = .gone) := by
  cases step_sound hstep with
  | dropSender hclosing => exact .inr ⟨hclosing, rfl⟩
  | upgrade _ _ => exact .inl rfl
  | abandon _ _ => exact .inl rfl
  | report _ => exact .inl rfl
  | send _ _ => exact .inl rfl
  | sendClosed _ _ => exact .inl rfl
  | sendFull _ _ => exact .inl rfl
  | _ => simp [PoolAction.isBackground] at hback

end

/-! ## Who holds what -/

/-- What a holder uses its buffer for. -/
inductive Use where
  | reading
  | packet
  deriving DecidableEq

/-- What a holder expects to see. -/
def Use.Shows : Use → Option SlotView → Prop
  | .reading, v => v = some (.reading [])
  | .packet, v => ∃ bytes, v = some (.packet bytes)

/-- `places` are all the buffers that are somebody's, each of them one holder's. -/
structure Ledger (count bufSize : Nat) (s : PoolState) (places : List (Nat × Use)) : Prop where
  inv : s.Inv count bufSize
  nodup : (places.map Prod.fst).Nodup
  shows : ∀ p ∈ places, p.2.Shows (s.view p.1)
  inUse : s.inUse = places.length

section

variable {count bufSize i : Nat} {s s' : PoolState} {places places' : List (Nat × Use)} {u w : Use}
  {v : Option SlotView}

theorem Use.Shows.isSome (h : u.Shows v) : v.isSome = true := by
  cases u with
  | reading =>
      obtain rfl : v = _ := h
      rfl
  | packet =>
      obtain ⟨bytes, rfl⟩ := h
      rfl

theorem Ledger.perm (h : s.Ledger count bufSize places) (hperm : places.Perm places') :
    s.Ledger count bufSize places' where
  inv := h.inv
  nodup := (hperm.map Prod.fst).nodup_iff.1 h.nodup
  shows := fun p hp => h.shows p (hperm.mem_iff.2 hp)
  inUse := h.inUse.trans hperm.length_eq

theorem Ledger.of_sameView (h : s.Ledger count bufSize places)
    (hsame : s'.Inv count bufSize ∧ s'.view = s.view ∧ s'.inUse = s.inUse) :
    s'.Ledger count bufSize places := by
  obtain ⟨hinv, hview, hinUse⟩ := hsame
  exact ⟨hinv, h.nodup, fun p hp => by rw [hview]; exact h.shows p hp, hinUse.trans h.inUse⟩

/-- Another place's view is the one it had. -/
theorem Changed.view_of_ne (h : s.Changed count bufSize i v s') {j : Nat} (hj : j ≠ i) :
    s'.view j = s.view j := by
  rw [h.view, Function.update_of_ne hj]

theorem Changed.view_self (h : s.Changed count bufSize i v s') : s'.view i = v := by
  rw [h.view, Function.update_self]

theorem Ledger.add (h : s.Ledger count bufSize places) (hnew : s.view i = none)
    (hchanged : s.Changed count bufSize i v s') (hv : u.Shows v) :
    s'.Ledger count bufSize ((i, u) :: places) := by
  -- a place without a view is not in the ledger
  have hne : ∀ p ∈ places, p.1 ≠ i := by
    intro p hp heq
    have hsome := (h.shows p hp).isSome
    rw [heq, hnew] at hsome
    exact absurd hsome (by simp)
  refine ⟨hchanged.inv, ?_, ?_, ?_⟩
  · refine List.nodup_cons.2 ⟨?_, h.nodup⟩
    intro hmem
    obtain ⟨p, hp, heq⟩ := List.mem_map.1 hmem
    exact hne p hp heq
  · intro p hp
    rcases List.mem_cons.1 hp with rfl | hp
    · rw [hchanged.view_self]
      exact hv
    · rw [hchanged.view_of_ne (hne p hp)]
      exact h.shows p hp
  · have hcount := hchanged.inUse
    have hbefore := h.inUse
    rw [hnew, hv.isSome] at hcount
    simp only [Option.isSome_none, Bool.toNat_false, Bool.toNat_true] at hcount
    rw [List.length_cons]
    omega

/-- The rest of the ledger when one place changes. -/
theorem Ledger.rest (h : s.Ledger count bufSize ((i, u) :: places))
    (hchanged : s.Changed count bufSize i v s') :
    (∀ p ∈ places, p.1 ≠ i) ∧ (∀ p ∈ places, p.2.Shows (s'.view p.1)) ∧
      s'.inUse = places.length + v.isSome.toNat := by
  have hnodup := List.nodup_cons.1 h.nodup
  have hne : ∀ p ∈ places, p.1 ≠ i := by
    intro p hp heq
    exact hnodup.1 (List.mem_map.2 ⟨p, hp, heq⟩)
  refine ⟨hne, ?_, ?_⟩
  · intro p hp
    rw [hchanged.view_of_ne (hne p hp)]
    exact h.shows p (List.mem_cons_of_mem _ hp)
  · have hcount := hchanged.inUse
    have hbefore := h.inUse
    rw [(h.shows (i, u) (List.mem_cons_self ..)).isSome] at hcount
    simp only [Bool.toNat_true, List.length_cons] at hcount hbefore
    omega

theorem Ledger.change (h : s.Ledger count bufSize ((i, u) :: places))
    (hchanged : s.Changed count bufSize i v s') (hv : w.Shows v) :
    s'.Ledger count bufSize ((i, w) :: places) := by
  obtain ⟨-, hrest, hcount⟩ := h.rest hchanged
  refine ⟨hchanged.inv, h.nodup, ?_, ?_⟩
  · intro p hp
    rcases List.mem_cons.1 hp with rfl | hp
    · rw [hchanged.view_self]
      exact hv
    · exact hrest p hp
  · rw [hcount, hv.isSome]
    rfl

theorem Ledger.remove (h : s.Ledger count bufSize ((i, u) :: places))
    (hchanged : s.Changed count bufSize i none s') : s'.Ledger count bufSize places := by
  obtain ⟨-, hrest, hcount⟩ := h.rest hchanged
  exact ⟨hchanged.inv, (List.nodup_cons.1 h.nodup).2, hrest, hcount⟩

/-- The buffers of a pool that is there, between two pops. -/
theorem Ledger.conserved (h : s.Ledger count bufSize places) (halive : s.alive = true)
    (hpop : ∀ b, s.pool ≠ .received b) :
    s.channel.queue.length + places.length + s.dropping = count := by
  have hsum := h.inv.conserved (by rw [h.inv.closed_eq, halive]; rfl)
  have hsplit : Slots.live s.slots = s.inUse + s.dropping := by
    simp only [PoolState.inUse, PoolState.dropping, Slots.live, Slots.count]
    induction s.slots with
    | nil => rfl
    | cons o rest ih =>
        simp only [List.countP_cons]
        cases o with
        | none => simpa using ih
        | some h => cases hh : h.inUse <;> simp [hh] <;> omega
  have hinUse := h.inUse
  unfold live at hsum
  cases hpool : s.pool with
  | received b => exact absurd hpool (hpop b)
  | _ =>
      simp only [hpool] at hsum
      omega

end

end PoolState

/-! ## Steps left -/

/-- Steps left for a buffer that is being dropped. -/
def Handle.dropLeft : Handle → Nat
  | .dropping b stage => (Handle.dropping b stage).dropSteps
  | _ => 0

/-- The action gives the buffer up. -/
def HandleAction.drops : HandleAction → Bool
  | .drop | .frameFailed _ => true
  | _ => false

/-- Only a buffer that is not being dropped is acted on. -/
theorem Handle.dropLeft_of_step {h h' : Handle} {a : HandleAction} (hstep : h.step a = some h') :
    h.dropLeft = 0 ∧ h'.dropLeft = if a.drops then 3 else 0 := by
  unfold Handle.step at hstep
  split at hstep <;>
    first
    | (obtain ⟨x, -, rfl⟩ := Option.map_eq_some_iff.1 hstep; exact ⟨rfl, rfl⟩)
    | (obtain rfl := Option.some.inj hstep; exact ⟨rfl, rfl⟩)
    | simp at hstep

namespace PoolState

/-- Steps left for the buffers that are being dropped. -/
def dropWork (s : PoolState) : Nat := Slots.weight Handle.dropLeft s.slots

/-- Those, and the end of the pool itself. -/
def work (s : PoolState) : Nat := s.dropWork + if s.pool = .closing then 1 else 0

section

variable {i : Nat} {s s' : PoolState} {bytes : List UInt8}

theorem dropWork_of_handle {a : HandleAction} (hstep : s.step (.handle i a) = some s') :
    s'.dropWork = s.dropWork + if a.drops then 3 else 0 := by
  cases step_sound hstep with
  | @handle _ _ h h' hget hact =>
      obtain ⟨hbefore, hafter⟩ := Handle.dropLeft_of_step hact
      have hset := Slots.weight_set Handle.dropLeft hget (some h')
      simp only [Option.elim_some, hbefore, hafter] at hset
      exact hset

theorem work_of_handle {a : HandleAction} (hstep : s.step (.handle i a) = some s') :
    s'.work = s.work + if a.drops then 3 else 0 := by
  unfold work
  rw [dropWork_of_handle hstep, pool_of_handle hstep]
  omega

theorem work_of_rewrite (hrun : s.rewrite i bytes = some s') : s'.work = s.work := by
  obtain ⟨s₁, hstep₁, hrun⟩ := runFrom_cons hrun
  obtain ⟨s₂, hstep₂, hrun⟩ := runFrom_cons hrun
  obtain ⟨s₃, hstep₃, hrun⟩ := runFrom_cons hrun
  obtain rfl := Option.some.inj hrun
  rw [work_of_handle hstep₃, work_of_handle hstep₂, work_of_handle hstep₁]
  rfl

theorem work_of_popToRead (hrun : s.popToRead = some s') : s'.work = s.work := by
  obtain ⟨s₁, hstep₁, hrun⟩ := runFrom_cons hrun
  obtain ⟨s₂, hstep₂, hrun⟩ := runFrom_cons hrun
  obtain ⟨s₃, hstep₃, hrun⟩ := runFrom_cons hrun
  obtain rfl := Option.some.inj hrun
  rw [work_of_handle hstep₃]
  cases step_sound hstep₁ with
  | recv hwaiting _ =>
      cases step_sound hstep₂ with
      | finishPop hreceived =>
          simp [work, dropWork, Slots.weight_append, Handle.dropLeft, hwaiting, HandleAction.drops]

theorem work_of_background {a : PoolAction} (hback : a.isBackground = true)
    (hstep : s.step a = some s') : s'.work < s.work := by
  -- the place of the buffer weighs less afterwards
  have hset : ∀ {j : Nat} {b : PooledBuffer} {stage : DropStage} {o : Option Handle},
      s.slots[j]? = some (some (.dropping b stage)) → s'.slots = s.slots.set j o →
      s'.pool = s.pool → o.elim 0 Handle.dropLeft < (Handle.dropping b stage).dropLeft →
      s'.work < s.work := by
    intro j b stage o hget hslots hpool hlt
    have hweight := Slots.weight_set Handle.dropLeft hget o
    unfold work dropWork
    rw [hslots, hpool]
    simp only [Option.elim_some] at hweight
    omega
  cases step_sound hstep with
  | upgrade hget _ => exact hset hget rfl rfl (Nat.lt_succ_self 2)
  | abandon hget _ => exact hset hget rfl rfl (Nat.zero_lt_succ 2)
  | report hget => exact hset hget rfl rfl (Nat.lt_succ_self 1)
  | send hget _ => exact hset hget rfl rfl (Nat.zero_lt_succ 0)
  | sendClosed hget _ => exact hset hget rfl rfl (Nat.zero_lt_succ 0)
  | sendFull hget _ => exact hset hget rfl rfl (Nat.zero_lt_succ 0)
  | dropSender hclosing => simp [work, dropWork, hclosing]
  | _ => simp [PoolAction.isBackground] at hback

end

end PoolState

end P2pVpn
