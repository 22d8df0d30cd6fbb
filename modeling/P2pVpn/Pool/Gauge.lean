import P2pVpn.Pool.Conservation

set_option autoImplicit false

/-! # The gauge of available buffers

`report_available` sets the gauge to the number of buffers in the channel. `pop` calls it after it has
taken its buffer out, but `Drop` calls it before it has put its buffer back. -/

namespace P2pVpn

/-- What one task does with a pool, each to its end before the next. -/
inductive PoolOp where
  | pop
  | intoSlice (i : Nat)
  | toBuffer (i : Nat)
  | drop (i : Nat)
  deriving DecidableEq

/-- The steps of an operation that nothing interrupts. -/
def PoolOp.actions : PoolOp → List PoolAction
  | .pop => [.startPop, .recv, .finishPop]
  | .intoSlice i => [.handle i .intoSlice]
  | .toBuffer i => [.handle i .toBuffer]
  | .drop i => [.handle i .drop, .upgrade i, .report i, .send i]

/-- The operation gives a buffer back. -/
def PoolOp.returns : PoolOp → Bool
  | .drop _ => true
  | _ => false

/-- One whole operation. -/
def PoolState.opStep (s : PoolState) (op : PoolOp) : Option PoolState :=
  runFrom PoolState.step s op.actions

/-- The gauge shows how many buffers can be popped. -/
def PoolState.GaugeTrue (s : PoolState) : Prop := s.capacityGauge = s.channel.queue.length

/-! ## One operation -/

section

variable {s s' : PoolState} {i : Nat}

theorem PoolState.gauge_of_finishPop (hstep : s.step .finishPop = some s') :
    s'.capacityGauge = asU32 s'.channel.queue.length ∧ s'.pool = .idle := by
  cases PoolState.step_sound hstep with
  | finishPop hreceived => exact ⟨congrArg asU32 (Channel.maxCapacity_sub_capacity _), rfl⟩

theorem PoolState.gauge_of_handle {a : HandleAction} (hstep : s.step (.handle i a) = some s') :
    s'.capacityGauge = s.capacityGauge ∧ s'.channel = s.channel ∧ s'.pool = s.pool := by
  cases PoolState.step_sound hstep with
  | handle hget hact => exact ⟨rfl, rfl, rfl⟩

/-- An operation that is one action of a handle leaves the gauge right. -/
theorem PoolState.gaugeTrue_of_handle {a : HandleAction} (htrue : s.GaugeTrue)
    (hrun : runFrom PoolState.step s [.handle i a] = some s') :
    s'.GaugeTrue ∧ s'.pool = s.pool := by
  obtain ⟨s₁, hhandle, hrest⟩ := runFrom_cons hrun
  obtain rfl := Option.some.inj hrest
  obtain ⟨hgauge, hchannel, hpool⟩ := gauge_of_handle hhandle
  refine ⟨?_, hpool⟩
  rw [GaugeTrue, hgauge, hchannel]
  exact htrue

theorem PoolState.queue_of_upgrade (hstep : s.step (.upgrade i) = some s') :
    s'.channel.queue = s.channel.queue ∧ s'.channel.closed = s.channel.closed ∧
      s'.pool = s.pool := by
  cases PoolState.step_sound hstep with
  | upgrade hget hsome =>
      obtain ⟨hqueue, hclosed, -⟩ := Channel.upgrade_eq_some hsome
      exact ⟨hqueue, hclosed, rfl⟩
  | abandon hget hnone => exact ⟨rfl, rfl, rfl⟩

theorem PoolState.gauge_of_report (hstep : s.step (.report i) = some s') :
    s'.capacityGauge = asU32 s.channel.queue.length ∧ s'.channel = s.channel ∧
      s'.pool = s.pool := by
  cases PoolState.step_sound hstep with
  | report hget => exact ⟨congrArg asU32 (Channel.maxCapacity_sub_capacity _), rfl, rfl⟩

theorem PoolState.queue_of_send (hopen : s.channel.closed = false)
    (hstep : s.step (.send i) = some s') (hcalm : s'.panicked = false) :
    s'.capacityGauge = s.capacityGauge ∧
      s'.channel.queue.length = s.channel.queue.length + 1 ∧ s'.pool = s.pool := by
  cases PoolState.step_sound hstep with
  | send hget hok =>
      obtain ⟨-, hqueue, -⟩ := Channel.trySend_ok hok
      refine ⟨rfl, ?_, rfl⟩
      simp [Channel.dropSender, hqueue]
  | sendClosed hget hdown =>
      rw [Channel.trySend_closed hdown] at hopen
      exact absurd hopen (by decide)
  | sendFull hget hfull => exact absurd hcalm (by simp)

/-- The gauge is set to the number of buffers before this one came back. -/
theorem PoolState.gauge_of_drop (hopen : s.channel.closed = false)
    (hstep : s.opStep (.drop i) = some s') (hcalm : s'.panicked = false) :
    s'.capacityGauge = asU32 s.channel.queue.length ∧
      s'.channel.queue.length = s.channel.queue.length + 1 ∧ s'.pool = s.pool := by
  obtain ⟨s₁, hdrop, hrest⟩ := runFrom_cons hstep
  obtain ⟨s₂, hupgrade, hrest⟩ := runFrom_cons hrest
  obtain ⟨s₃, hreport, hrest⟩ := runFrom_cons hrest
  obtain ⟨s₄, hsend, hrest⟩ := runFrom_cons hrest
  obtain rfl := Option.some.inj hrest
  obtain ⟨-, hchannel₁, hpool₁⟩ := gauge_of_handle hdrop
  obtain ⟨hqueue₂, hclosed₂, hpool₂⟩ := queue_of_upgrade hupgrade
  obtain ⟨hgauge₃, hchannel₃, hpool₃⟩ := gauge_of_report hreport
  have hopen₃ : s₃.channel.closed = false := by rw [hchannel₃, hclosed₂, hchannel₁, hopen]
  obtain ⟨hgauge₄, hqueue₄, hpool₄⟩ := queue_of_send hopen₃ hsend hcalm
  refine ⟨?_, ?_, ?_⟩
  · rw [hgauge₄, hgauge₃, hqueue₂, hchannel₁]
  · rw [hqueue₄, hchannel₃, hqueue₂, hchannel₁]
  · rw [hpool₄, hpool₃, hpool₂, hpool₁]

/-- Returning a buffer is what makes the gauge wrong. -/
theorem PoolState.gaugeTrue_iff_of_opStep {count bufSize : Nat} {op : PoolOp}
    (hcount : count < 2 ^ 32) (hinv : s.Inv count bufSize) (hidle : s.pool = .idle)
    (htrue : s.GaugeTrue) (hstep : s.opStep op = some s') :
    (s'.GaugeTrue ↔ op.returns = false) ∧ s'.Inv count bufSize ∧ s'.pool = .idle := by
  have hinv' : s'.Inv count bufSize :=
    runFrom_invariant (fun _ _ _ hI hs => hI.step hs) hinv hstep
  have hsmall : asU32 s'.channel.queue.length = s'.channel.queue.length := by
    have hbounded := s'.channel.bounded
    have hcapacity := hinv'.capacity_eq
    exact Nat.mod_eq_of_lt (by omega)
  cases op with
  | pop =>
      obtain ⟨s₁, hstart, hrest⟩ := runFrom_cons hstep
      obtain ⟨s₂, hrecv, hrest⟩ := runFrom_cons hrest
      obtain ⟨s₃, hfinish, hrest⟩ := runFrom_cons hrest
      obtain rfl := Option.some.inj hrest
      obtain ⟨hgauge, hidle'⟩ := gauge_of_finishPop hfinish
      exact ⟨iff_of_true (hgauge.trans hsmall) rfl, hinv', hidle'⟩
  | intoSlice i =>
      obtain ⟨htrue', hpool⟩ := gaugeTrue_of_handle htrue hstep
      exact ⟨iff_of_true htrue' rfl, hinv', hpool.trans hidle⟩
  | toBuffer i =>
      obtain ⟨htrue', hpool⟩ := gaugeTrue_of_handle htrue hstep
      exact ⟨iff_of_true htrue' rfl, hinv', hpool.trans hidle⟩
  | drop i =>
      have hopen : s.channel.closed = false := by
        rw [hinv.closed_eq, PoolState.alive, hidle]
        rfl
      obtain ⟨hgauge, hlen, hpool⟩ := gauge_of_drop hopen hstep hinv'.calm
      have hfalse : ¬ s'.GaugeTrue := by
        have hle : asU32 s.channel.queue.length ≤ s.channel.queue.length := Nat.mod_le _ _
        rw [GaugeTrue, hgauge, hlen]
        omega
      exact ⟨iff_of_false hfalse (by simp [PoolOp.returns]), hinv', hpool.trans hidle⟩

end

/-- **When the gauge tells the truth.** All along a sequential run of a pool it shows the number of
    buffers that can be popped exactly when no buffer is ever given back (and the count fits the
    gauge). -/
theorem gaugeTrue_iff_none_returned {count bufSize : Nat} {s₀ s : PoolState} {ops : List PoolOp}
    (hnew : BufferPool.new count bufSize = some s₀)
    (hrun : runFrom PoolState.opStep s₀ ops = some s) :
    RunSatisfies PoolState.opStep PoolState.GaugeTrue s₀ ops ↔
      count < 2 ^ 32 ∧ ∀ op ∈ ops, op.returns = false := by
  obtain ⟨hcount, hidle, hslots, hgauge⟩ := BufferPool.new_eq_some hnew
  obtain ⟨s₁, hnew₁, hinv⟩ := BufferPool.new_inv hcount bufSize
  obtain rfl : s₁ = s₀ := Option.some.inj (hnew₁.symm.trans hnew)
  have hfull : s₁.channel.queue.length = count := by
    have hopen : s₁.channel.closed = false := by
      rw [hinv.closed_eq, PoolState.alive, hidle]
      rfl
    have hsum := hinv.conserved hopen
    simpa [PoolState.live, hidle, hslots, Slots.live, Slots.count] using hsum
  have hstart : s₁.GaugeTrue ↔ count < 2 ^ 32 := by
    rw [PoolState.GaugeTrue, hgauge, hfull, asU32]
    exact ⟨fun heq => heq ▸ Nat.mod_lt _ (by decide), Nat.mod_eq_of_lt⟩
  have hexact : count < 2 ^ 32 → (RunSatisfies PoolState.opStep PoolState.GaugeTrue s₁ ops ↔
      ∀ op ∈ ops, op.returns = false) := by
    intro hsmall
    rw [← runMeets_iff_forall hrun]
    refine runSatisfies_iff_runMeets (A := fun _ _ => True)
      (J := fun s => s.Inv count bufSize ∧ s.pool = .idle) ?_ ⟨hinv, hidle⟩ (hstart.2 hsmall)
      (RunMeets.of_forall _ _ fun _ _ _ => trivial) hrun
    rintro t op t' - ⟨hinv', hidle'⟩ htrue hstep
    obtain ⟨hiff, hnext⟩ := PoolState.gaugeTrue_iff_of_opStep hsmall hinv' hidle' htrue hstep
    exact ⟨hiff, fun _ => hnext⟩
  constructor
  · intro hall
    have hsmall := hstart.1 hall.head
    exact ⟨hsmall, (hexact hsmall).1 hall⟩
  · rintro ⟨hsmall, hnone⟩
    exact (hexact hsmall).2 hnone

/-- Popping only. -/
theorem gaugeTrue_two_pops :
    ∃ s₀ s, BufferPool.new 2 1 = some s₀ ∧
      runFrom PoolState.opStep s₀ [.pop, .intoSlice 0, .pop] = some s ∧
      RunSatisfies PoolState.opStep PoolState.GaugeTrue s₀ [.pop, .intoSlice 0, .pop] := by
  obtain ⟨s₀, hnew⟩ : ∃ s₀, BufferPool.new 2 1 = some s₀ := ⟨_, rfl⟩
  obtain ⟨s, hrun⟩ : ∃ s, runFrom PoolState.opStep s₀ [.pop, .intoSlice 0, .pop] = some s := by
    obtain rfl := Option.some.inj hnew
    exact ⟨_, rfl⟩
  exact ⟨s₀, s, hnew, hrun,
    (gaugeTrue_iff_none_returned hnew hrun).2 ⟨by decide, by decide⟩⟩

/-- The only buffer is back in the pool, and the gauge shows starvation. -/
theorem gauge_after_return :
    ∃ s₀ s, BufferPool.new 1 1 = some s₀ ∧ runFrom PoolState.opStep s₀ [.pop, .drop 0] = some s ∧
      s.channel.queue.length = 1 ∧ s.capacityGauge = 0 ∧
      ¬ RunSatisfies PoolState.opStep PoolState.GaugeTrue s₀ [.pop, .drop 0] := by
  refine ⟨_, _, rfl, rfl, rfl, rfl, ?_⟩
  intro hall
  have hlast : 0 = 1 := ((hall.2 _ rfl).2 _ rfl).head
  exact absurd hlast (by decide)

end P2pVpn
