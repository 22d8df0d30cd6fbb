import P2pVpn.Process.Steps

set_option autoImplicit false

/-! # Who holds which buffer

Every buffer outside the pool is in one place: with the task that reads, in the channel to
`tun_rx_loop`, with that loop, or with QUIC. -/

namespace P2pVpn

/-! ## The ledger -/

/-- The packet that is being handled. -/
def RxLoop.slots : RxLoop → List Nat
  | .handling slot => [slot]
  | _ => []

/-- The buffer of the reading task. -/
def TunLoop.place : TunLoop → List (Nat × PoolState.Use)
  | .running (.reading slot) _ => [(slot, .reading)]
  | .running (.sending slot) _ => [(slot, .packet)]
  | _ => []

namespace Process

/-- The buffers that somebody holds, and what for. -/
def places (s : Process) : List (Nat × PoolState.Use) :=
  (s.rxLoop.slots ++ s.rxQueue.queue).map (·, .packet) ++
    (s.tun.place ++ s.quic.map fun d => (d.slot, .packet))

/-- Those the reading task has nothing to do with. -/
def otherPlaces (s : Process) : List (Nat × PoolState.Use) :=
  (s.rxLoop.slots ++ s.rxQueue.queue).map (·, .packet) ++ s.quic.map fun d => (d.slot, .packet)

/-- The buffers outside the pool are those in `places`. -/
def Held (s : Process) : Prop := s.pool.Ledger bufferPool bufSize s.places

section

variable {cfg : ProcessConfig} {s s' : Process} {a : ProcessAction}

theorem Held.new (hnew : Process.new cfg = some s) : s.Held := by
  obtain ⟨pool, hpool, rfl⟩ := Option.map_eq_some_iff.1 hnew
  obtain ⟨pool', hpool', hinv⟩ := BufferPool.new_inv (show 0 < bufferPool by decide) bufSize
  obtain rfl : pool' = pool := Option.some.inj (hpool'.symm.trans hpool)
  obtain ⟨-, -, hslots, -⟩ := BufferPool.new_eq_some hpool
  refine ⟨hinv, by simp [places, RxLoop.slots, TunLoop.place, Channel.new], ?_, ?_⟩
  · simp [places, RxLoop.slots, TunLoop.place, Channel.new]
  · simp [places, RxLoop.slots, TunLoop.place, Channel.new, PoolState.inUse, hslots, Slots.count]

/-- The reading task's buffer, moved to the front. -/
theorem places_perm {slot : Nat} {u : PoolState.Use} (hplace : s.tun.place = [(slot, u)]) :
    s.places.Perm ((slot, u) :: s.otherPlaces) := by
  simp only [places, hplace, List.singleton_append]
  exact List.perm_middle

theorem places_of_nil (hplace : s.tun.place = []) : s.places = s.otherPlaces := by
  simp only [places, hplace, List.nil_append, otherPlaces]

/-- The reading task took another buffer. -/
theorem Held.of_place {pool : PoolState} {tun : TunLoop} {slot : Nat} {u : PoolState.Use}
    (h : pool.Ledger bufferPool bufSize ((slot, u) :: s.otherPlaces))
    (hplace : tun.place = [(slot, u)]) : ({ s with pool := pool, tun := tun } : Process).Held := by
  have hperm := places_perm (s := { s with pool := pool, tun := tun }) hplace
  exact h.perm hperm.symm

/-- The end of `control` gives up the reading task's buffer, and no other. -/
theorem Held.of_drops {rx : RxTask} {tx : TxTask} {drops : List PoolAction} {pool : PoolState}
    (h : s.Held) (htun : s.tun = .running rx tx) (hdrops : rx.Drops s.pool.pool drops)
    (hpool : runFrom PoolState.step s.pool (drops ++ [.dropReceiver]) = some pool) :
    pool.Ledger bufferPool bufSize s.otherPlaces := by
  -- the receiving end of the pool goes last
  have hlast : ∀ {mid : PoolState} {places}, mid.Ledger bufferPool bufSize places →
      runFrom PoolState.step mid [.dropReceiver] = some pool →
      pool.Ledger bufferPool bufSize places := by
    intro mid places hmid hrun
    obtain ⟨last, hstep, hnil⟩ := runFrom_cons hrun
    obtain rfl := Option.some.inj hnil
    exact hmid.of_sameView (hmid.inv.sameView_of_stage (.inr (.inr rfl)) hstep)
  unfold Held at h
  cases hdrops with
  | cancel hstage =>
      obtain ⟨mid, hstep, hrun⟩ := runFrom_cons hpool
      have hmid := h.of_sameView (h.inv.sameView_of_stage (.inr (.inl rfl)) hstep)
      rw [places_of_nil (by rw [htun]; rfl)] at hmid
      exact hlast hmid hrun
  | idle hstage =>
      rw [places_of_nil (by rw [htun]; rfl)] at h
      exact hlast h hpool
  | frame slot scribbled =>
      obtain ⟨mid, hstep, hrun⟩ := runFrom_cons hpool
      have hfront := h.perm (places_perm (by rw [htun]; rfl))
      have hview := hfront.shows _ (List.mem_cons_self ..)
      exact hlast (hfront.remove (h.inv.changed_of_frameFailed hview hstep)) hrun
  | packet slot =>
      obtain ⟨mid, hstep, hrun⟩ := runFrom_cons hpool
      have hfront := h.perm (places_perm (by rw [htun]; rfl))
      obtain ⟨bytes, hview⟩ := hfront.shows _ (List.mem_cons_self ..)
      exact hlast (hfront.remove (h.inv.changed_of_drop hview hstep)) hrun

end

end Process

section

variable {cfg : ProcessConfig} {s s' : Process} {a : ProcessAction}

theorem ProcessStep.held (hstep : ProcessStep cfg s a s') (h : s.Held) : s'.Held := by
  have hinv := h.inv
  have hheld := h
  unfold Process.Held at h ⊢
  cases hstep with
  | node hnode hhand => exact h
  | startPop htun hpool => exact h.of_sameView (hinv.sameView_of_stage (.inl rfl) hpool)
  | pop htun hpool =>
      obtain ⟨hnone, hchanged⟩ := hinv.changed_of_popToRead hpool
      have hnew := h.add (u := .reading) hnone hchanged rfl
      rw [Process.places_of_nil (by rw [htun]; rfl)] at hnew
      exact Process.Held.of_place hnew rfl
  | frame htun hpool hbuf hlen =>
      have hfront := h.perm (Process.places_perm (by rw [htun]; rfl))
      have hview := hfront.shows _ (List.mem_cons_self ..)
      have hread := hfront.change (w := .packet) (hinv.changed_of_frameRead hview hpool) ⟨_, rfl⟩
      exact Process.Held.of_place hread rfl
  | emptyFrame htun hpool hbuf hlen hpool' =>
      have hfront := h.perm (Process.places_perm (by rw [htun]; rfl))
      have hview := hfront.shows _ (List.mem_cons_self ..)
      have hchanged := hinv.changed_of_frameRead hview hpool
      have hread := hfront.change (w := .packet) hchanged ⟨_, rfl⟩
      exact hread.remove (hread.inv.changed_of_drop hchanged.view_self hpool')
  | frameRetried htun hpool =>
      have hfront := h.perm (Process.places_perm (by rw [htun]; rfl))
      have hview := hfront.shows _ (List.mem_cons_self ..)
      exact hfront.remove (hinv.changed_of_frameFailed hview hpool)
  | packetSent htun hsend =>
      obtain ⟨-, hqueue, -⟩ := Channel.trySend_ok hsend
      simpa [Process.places, htun, TunLoop.place, hqueue] using h
  | @txReceived rx packet txQueue htun hrecv =>
      cases rx <;> simpa [Process.places, htun, TunLoop.place] using h
  | @frameWritten rx packet sent htun =>
      cases rx <;> simpa [Process.places, htun, TunLoop.place] using h
  | tunEnded htun ha hdrops hpool => exact hheld.of_drops htun hdrops hpool
  | pool hback hpool => exact h.of_sameView (hinv.sameView_of_background hback hpool)
  | rxReceived hloop hrecv =>
      obtain ⟨hqueue, -⟩ := Channel.recv_eq_some hrecv
      simpa [Process.places, hloop, RxLoop.slots, hqueue] using h
  | rxLoopEnded hloop hrecv hsenders => simpa [Process.places, hloop, RxLoop.slots] using h
  | @sent env slot packet bytes effects peer pool hloop hpacket heffects hdatagram hpool =>
      simp only [Process.places, hloop, RxLoop.slots, List.map_append, List.map_cons, List.map_nil,
        List.cons_append] at h
      obtain ⟨old, hview⟩ := h.shows _ (List.mem_cons_self ..)
      have hsent := h.change (w := .packet) (hinv.changed_of_rewrite hview hpool) ⟨_, rfl⟩
      refine hsent.perm ?_
      -- from the front to the end
      simp only [Process.places, RxLoop.slots, List.nil_append, List.map_append, List.map_cons,
        List.map_nil]
      rw [← List.append_assoc, ← List.append_assoc, ← List.append_assoc]
      exact (List.perm_append_singleton _ _).symm
  | answered hloop hpacket heffects hdatagram hpool =>
      simp only [Process.places, hloop, RxLoop.slots, List.map_append, List.map_cons, List.map_nil,
        List.cons_append] at h
      obtain ⟨old, hview⟩ := h.shows _ (List.mem_cons_self ..)
      exact h.remove (hinv.changed_of_drop hview hpool)
  | @released d sent pool hmem hpool =>
      have hquic : (s.quic.map fun d => (d.slot, PoolState.Use.packet)).Perm
          ((d.slot, .packet) :: (s.quic.erase d).map fun d => (d.slot, .packet)) :=
        (List.perm_cons_erase hmem).map fun d => (d.slot, PoolState.Use.packet)
      have hfront : s.places.Perm ((d.slot, .packet) :: { s with quic := s.quic.erase d }.places) := by
        unfold Process.places
        refine ((hquic.append_left _).append_left _).trans ?_
        rw [← List.append_assoc]
        refine List.perm_middle.trans ?_
        rw [List.append_assoc]
      have hperm := h.perm hfront
      obtain ⟨bytes, hview⟩ := hperm.shows _ (List.mem_cons_self ..)
      exact hperm.remove (hinv.changed_of_drop hview hpool)
  | datagramRead hphase hhand => exact h
  | datagramQueued hhand hsend => exact h
  | datagramRefused hhand hclosed hnode => exact h

end

end P2pVpn
