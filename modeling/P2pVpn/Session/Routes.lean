import P2pVpn.Lib.Component
import P2pVpn.Relay.Progress
import P2pVpn.Relay.Routes
import P2pVpn.Session.Relay

set_option autoImplicit false

/-! # Kernel routes of the sessions

A node is a user of the relay: what its sessions do is a run of concurrent calls, one task for each
session. So whatever holds of the relay under concurrent calls holds of the node. Two things come out:
the kernel's routing table is what the sessions negotiated, and the sessions do not wait for each
other. -/

namespace P2pVpn

/-- The call on the relay that a session is in the middle of. -/
def Phase.call? : Phase → Option (Call ConnectedPeer)
  | .registering _ _ call => some call
  | .withdrawing call => some call
  | _ => none

/-- The relay with the calls of the sessions on it. -/
def Node.relaySystem (n : Node) : RelaySystem ConnectedPeer :=
  ⟨n.relay, fun i => (n.sessions i).phase.call?⟩

/-- The list a session is to register. -/
def NodeAction.batch : NodeAction → Option (List IpAddr)
  | .session _ (.handshake (.ok changed)) => some changed.routes
  | _ => none

/-- A session registers what it negotiated. -/
def NodeAction.Causes (a : NodeAction) (b : RelayAction ConnectedPeer) : Prop :=
  ∀ ips, b.batch = some ips → a.batch = some ips

section

variable {cfg : NodeConfig} {n n' : Node} {i : Nat} {acts : List NodeAction}

/-! ## The node refines concurrent calls -/

theorem Phase.busy_iff (p : Phase) : p.busy = true ↔ p.call? ≠ none := by
  cases p <;> simp [Phase.busy, Phase.call?]

theorem SessionStep.relaySystem_eq {a : SessionAction} (h : SessionStep cfg n i a n') :
    n'.relaySystem
      = ⟨n'.relay, Function.update n.relaySystem.calls i (n'.sessions i).phase.call?⟩ := by
  unfold Node.relaySystem
  congr 1
  funext j
  by_cases hj : j = i
  · subst hj
    simp
  · simp [hj, h.sessions_of_ne hj]

/-- A session that is in no call before and after leaves the calls alone. -/
theorem SessionStep.calls_eq {a : SessionAction} (h : SessionStep cfg n i a n')
    (hbefore : (n.sessions i).phase.call? = none) (hafter : (n'.sessions i).phase.call? = none) :
    n'.relaySystem = ⟨n'.relay, n.relaySystem.calls⟩ := by
  have hsame : n.relaySystem.calls i = none := hbefore
  rw [h.relaySystem_eq, hafter, ← hsame, Function.update_eq_self]

/-- A call takes a step, and its session goes on with the result. -/
theorem Node.run_call {os : OsRules} {ca : CallAction} {call call' : Call ConnectedPeer}
    {relay : RelayState ConnectedPeer} (hpanic : n.relay.panicked = false)
    (hcall : (n.sessions i).phase.call? = some call)
    (hstep : CallStep os i n.relay call ca relay call') :
    n.relaySystem.step os (.call i ca)
      = some ⟨relay, Function.update n.relaySystem.calls i (some call')⟩ :=
  SystemStep.complete hpanic (.call hcall hstep)

theorem CallStep.panicked_of_returned {os : OsRules} {me : Nat} {s s' : RelayState ConnectedPeer}
    {c : Call ConnectedPeer} {ca : CallAction} {ok : Bool}
    (h : CallStep os me s c ca s' (.returned ok)) : s'.panicked = s.panicked := by
  generalize hc' : Call.returned ok = c' at h
  cases h with
  | inserted hall => rfl
  | undone hall => rfl
  | removed hall => rfl
  | _ => exact absurd hc' (by simp)

/-- A call returns and the session takes its result. -/
theorem Node.run_return {os : OsRules} {ca : CallAction} {call : Call ConnectedPeer} {ok : Bool}
    {relay : RelayState ConnectedPeer} (hpanic : n.relay.panicked = false)
    (hcall : (n.sessions i).phase.call? = some call)
    (hstep : CallStep os i n.relay call ca relay (.returned ok)) :
    runFrom (RelaySystem.step os) n.relaySystem [.call i ca, .join i]
      = some ⟨relay, Function.update n.relaySystem.calls i none⟩ := by
  rw [runFrom_step (Node.run_call hpanic hcall hstep)]
  have hjoin : SystemStep os
      ⟨relay, Function.update n.relaySystem.calls i (some (.returned ok))⟩ (.join i)
      ⟨relay, Function.update (Function.update n.relaySystem.calls i (some (.returned ok))) i none⟩ :=
    .join (Function.update_self ..)
  rw [Function.update_idem] at hjoin
  rw [runFrom_step (hjoin.complete (hstep.panicked_of_returned.trans hpanic))]
  rfl

theorem causes_of_batch_eq_none {a : NodeAction} {labels : List (RelayAction ConnectedPeer)}
    (h : ∀ b ∈ labels, b.batch = none) : ∀ b ∈ labels, a.Causes b := by
  intro b hb ips hips
  exact absurd ((h b hb).symm.trans hips) (by simp)

/-- Every step of a session is a run of its task's call. -/
theorem SessionStep.refines {a : SessionAction} (hpanic : n.relay.panicked = false)
    (h : SessionStep cfg n i a n') :
    ∃ labels, (∀ b ∈ labels, (NodeAction.session i a).Causes b) ∧
      runFrom (RelaySystem.step cfg.os) n.relaySystem labels = some n'.relaySystem := by
  have hsys := h.relaySystem_eq
  have hidle := h.calls_eq
  cases h with
  | connected conn hphase =>
      refine ⟨[], by simp, ?_⟩
      rw [hidle (by simp [hphase, Phase.call?]) (by simp [Phase.call?])]
      rfl
  | disconnected hphase =>
      refine ⟨[.park (n.sessions i).routes], causes_of_batch_eq_none (by simp [RelayAction.batch]), ?_⟩
      have hnone : (n.sessions i).phase.call? = none := by simp [hphase, Phase.call?]
      rw [hidle hnone hnone, runFrom_step (SystemStep.complete hpanic .park)]
      rfl
  | endNow hphase hempty =>
      refine ⟨[], by simp, ?_⟩
      rw [hidle (by simp [hphase, Phase.call?]) (by simp [Node.withdrawn, Phase.call?])]
      rfl
  | startWithdraw hphase =>
      refine ⟨[.remove i (n.sessions i).routes],
        causes_of_batch_eq_none (by simp [RelayAction.batch]), ?_⟩
      have hfree : n.relaySystem.calls i = none := by simp [Node.relaySystem, hphase, Phase.call?]
      rw [hsys, runFrom_step (SystemStep.complete hpanic (.start rfl hfree))]
      simp [runFrom, Phase.call?, Node.relaySystem]
  | handshakeFailed e hphase =>
      refine ⟨[], by simp, ?_⟩
      rw [hidle (by simp [hphase, Phase.call?]) (by simp [Phase.call?])]
      simp [runFrom, Node.relaySystem]
  | @handshakeOk conn changed hphase =>
      refine ⟨[.reconcile i changed.routes (n.sessions i).routes ⟨conn⟩], ?_, ?_⟩
      · intro b hb ips hips
        obtain rfl := List.mem_singleton.1 hb
        exact hips
      · have hfree : n.relaySystem.calls i = none := by
          simp [Node.relaySystem, hphase, Phase.call?]
        rw [hsys, runFrom_step (SystemStep.complete hpanic (.start rfl hfree))]
        simp [runFrom, Phase.call?, Node.relaySystem]
  | @register conn changed call call' ca relay hphase hcall hrun =>
      refine ⟨[.call i ca], causes_of_batch_eq_none (by simp [RelayAction.batch]), ?_⟩
      rw [hsys, runFrom_step (Node.run_call hpanic (by simp [hphase, Phase.call?]) hcall)]
      simp [runFrom, Phase.call?]
  | @registered conn changed call ca relay hphase hcall =>
      refine ⟨[.call i ca, .join i], causes_of_batch_eq_none (by simp [RelayAction.batch]), ?_⟩
      rw [hsys, Node.run_return hpanic (by simp [hphase, Phase.call?]) hcall]
      simp [Phase.call?]
  | @rolledBack conn changed call ca relay hphase hcall =>
      refine ⟨[.call i ca, .join i], causes_of_batch_eq_none (by simp [RelayAction.batch]), ?_⟩
      rw [hsys, Node.run_return hpanic (by simp [hphase, Phase.call?]) hcall]
      simp [Phase.call?]
  | recvLoopEnded e hphase hclosed =>
      refine ⟨[.park (n.sessions i).routes], causes_of_batch_eq_none (by simp [RelayAction.batch]), ?_⟩
      rw [hidle (by simp [hphase, Phase.call?]) (by simp [Phase.call?]),
        runFrom_step (SystemStep.complete hpanic .park)]
      rfl
  | @withdraw call call' ca relay hphase hcall hrun =>
      refine ⟨[.call i ca], causes_of_batch_eq_none (by simp [RelayAction.batch]), ?_⟩
      rw [hsys, runFrom_step (Node.run_call hpanic (by simp [hphase, Phase.call?]) hcall)]
      simp [runFrom, Phase.call?]
  | @withdrawn call ca ok relay hphase hcall =>
      refine ⟨[.call i ca, .join i], causes_of_batch_eq_none (by simp [RelayAction.batch]), ?_⟩
      rw [hsys, Node.run_return hpanic (by simp [hphase, Phase.call?]) hcall]
      simp [Node.withdrawn, Phase.call?]

/-- **A node is a user of the relay.** -/
theorem Node.refinedBy (cfg : NodeConfig) :
    RefinedBy (Node.step cfg) (RelaySystem.step cfg.os) Node.relaySystem NodeAction.Causes := by
  intro n a n' h
  cases a with
  | session i sa =>
      simp only [Node.step] at h
      split_ifs at h with hpanic
      exact (Node.sessionStep_sound h).refines (by simpa using hpanic)
  | close conn =>
      obtain rfl := Option.some.inj h
      exact ⟨[], by simp, rfl⟩

/-! ## The kernel's table -/

/-- No session that is not busy has the lock. -/
theorem Node.handle_eq_none (hrun : runFrom (Node.step cfg) (Node.new cfg) acts = some n)
    (hidle : ∀ i, (n.sessions i).phase.busy = false) : n.relay.handle = none := by
  obtain ⟨labels, -, hcalls⟩ := (Node.refinedBy cfg).run hrun
  by_contra hsome
  obtain ⟨i, hi⟩ := Option.ne_none_iff_exists'.1 hsome
  obtain ⟨c, hc, -⟩ := RelaySystem.held hcalls i hi
  have hbusy := (Phase.busy_iff _).2 (Option.ne_none_iff_exists'.2 ⟨c, hc⟩)
  exact absurd hbusy (by simp [hidle i])

/-- **Kernel routes are the sessions' routes.** On an OS that adds a route once and removes every
    present one it is asked to (`OsRules.exclusive`), whatever the links and the handshakes do, as long
    as no address is negotiated for two sessions and nobody else touches these routes: when no session
    is in the middle of changing its routes, the kernel has a host route exactly for the addresses the
    sessions have negotiated and not given up. Without the assumption on removals this is false:
    `remove_locked` only logs one that fails. -/
theorem Node.kernel_routes (hos : cfg.os = .exclusive) (hdisj : DisjointSessions acts)
    (hrun : runFrom (Node.step cfg) (Node.new cfg) acts = some n)
    (hidle : ∀ i, (n.sessions i).phase.busy = false) (ip : IpAddr) :
    n.relay.osRoutes ip = true ↔ ∃ i, ip ∈ (n.sessions i).routes := by
  obtain ⟨labels, -, hcalls⟩ := (Node.refinedBy cfg).run hrun
  rw [hos] at hcalls
  have hinst : n.relay.Installed := (RelaySystem.installedInv hcalls).relay
  have hentries := Node.EntryInv.run hdisj hrun
  have hkernel : n.relay.osRoutes ip = true ↔ n.relay.peerMap ip ≠ none :=
    hinst.iff_of_free (Node.handle_eq_none hrun hidle) ip
  rw [hkernel]
  constructor
  · intro hentry
    cases howner : ownerIn acts ip with
    | none => exact absurd (hentries.unowned ip howner) hentry
    | some i =>
        obtain ⟨value, -, hreg⟩ := (hentries.session i).registered (hidle i)
        refine ⟨i, ?_⟩
        by_contra hroute
        exact hentry ((hreg ip howner).2 hroute)
  · rintro ⟨i, hroute⟩ hnone
    obtain ⟨value, -, hreg⟩ := (hentries.session i).registered (hidle i)
    obtain ⟨route, hentry⟩ := (hreg ip (hentries.routes i ip hroute)).1 hroute
    exact absurd (hnone.symm.trans hentry) (by simp)

/-- Two sessions end up with one route, of the first one's second connection. -/
theorem Node.kernel_routes_two :
    ∃ n, runFrom (Node.step ⟨.exclusive, fun _ => "peer", false⟩)
        (Node.new ⟨.exclusive, fun _ => "peer", false⟩) twoSessions = some n ∧
      (n.sessions 0).routes = [.v4 3] ∧
      ∀ ip, n.relay.osRoutes ip = true ↔ ∃ i, ip ∈ (n.sessions i).routes := by
  obtain ⟨n, hrun, hroutes, hidle⟩ : ∃ n, runFrom (Node.step ⟨.exclusive, fun _ => "peer", false⟩)
        (Node.new ⟨.exclusive, fun _ => "peer", false⟩) twoSessions = some n ∧
      (n.sessions 0).routes = [.v4 3] ∧ ∀ i, (n.sessions i).phase.busy = false := by
    refine ⟨_, rfl, rfl, ?_⟩
    intro i
    match i with
    | 0 => rfl
    | 1 => rfl
    | i + 2 => rfl
  exact ⟨n, hrun, hroutes, Node.kernel_routes rfl twoSessions_disjoint hrun hidle⟩

/-! ## Sessions do not wait for each other -/

/-- A step of a session's call on the relay. -/
def NodeAction.isRelay : NodeAction → Bool
  | .session _ (.relay _) => true
  | _ => false

/-- A session goes on with a call as soon as it has returned. -/
def Node.Unreturned (n : Node) : Prop :=
  ∀ i c, (n.sessions i).phase.call? = some c → c.isReturned = false

theorem Call.isReturned_reconcile (current previous : List IpAddr) (v : ConnectedPeer) :
    (Call.reconcile current previous v).isReturned = false := by
  unfold Call.reconcile
  simp only
  split_ifs <;> rfl

theorem Call.isReturned_eq_false {T : Type} {c : Call T} (h : ∀ ok, c ≠ .returned ok) :
    c.isReturned = false := by
  cases c with
  | returned ok => exact absurd rfl (h ok)
  | _ => rfl

theorem SessionStep.unreturned {a : SessionAction} (h : SessionStep cfg n i a n')
    (hn : n.Unreturned) : n'.Unreturned := by
  intro j c hc
  by_cases hj : j = i
  · subst hj
    cases h with
    | startWithdraw hphase =>
        obtain rfl : Call.remove (n.sessions j).routes = c := by simpa [Phase.call?] using hc
        rfl
    | @handshakeOk conn changed hphase =>
        obtain rfl : Call.reconcile changed.routes (n.sessions j).routes ⟨conn⟩ = c := by
          simpa [Phase.call?] using hc
        exact Call.isReturned_reconcile ..
    | register hphase hcall hrun =>
        simp only [Node.sessions_setSession_self, Phase.call?, Option.some.injEq] at hc
        exact hc ▸ Call.isReturned_eq_false hrun
    | withdraw hphase hcall hrun =>
        simp only [Node.sessions_setSession_self, Phase.call?, Option.some.injEq] at hc
        exact hc ▸ Call.isReturned_eq_false hrun
    | disconnected hphase => exact hn j c hc
    | _ => exact absurd hc (by simp [Phase.call?, Node.withdrawn])
  · rw [h.sessions_of_ne hj] at hc
    exact hn j c hc

theorem Node.unreturned (hrun : runFrom (Node.step cfg) (Node.new cfg) acts = some n) :
    n.Unreturned := by
  refine runFrom_invariant ?_ ?_ hrun
  · intro n a n' hn hs
    rcases Node.step_cases hs with ⟨i, sa, -, hstep⟩ | ⟨conn, -, rfl⟩
    · exact hstep.unreturned hn
    · exact hn
  · intro i c hc
    exact absurd hc (by simp [Node.new, Session.new, Phase.call?])

/-- A relay step lowers the work of its session's call. -/
theorem SessionStep.work_lt {ca : CallAction} (h : SessionStep cfg n i (.relay ca) n') :
    (n'.relaySystem.calls i).elim 0 Call.work < (n.relaySystem.calls i).elim 0 Call.work := by
  cases h with
  | register hphase hcall hrun => simpa [Node.relaySystem, hphase, Phase.call?] using hcall.work_lt
  | registered hphase hcall =>
      simpa [Node.relaySystem, hphase, Phase.call?, Call.work] using hcall.work_lt
  | rolledBack hphase hcall =>
      simpa [Node.relaySystem, hphase, Phase.call?, Call.work] using hcall.work_lt
  | withdraw hphase hcall hrun => simpa [Node.relaySystem, hphase, Phase.call?] using hcall.work_lt
  | withdrawn hphase hcall =>
      simpa [Node.relaySystem, Node.withdrawn, hphase, Phase.call?, Call.work] using hcall.work_lt

/-- Only a session in the middle of a call takes a relay step. -/
theorem SessionStep.calls_ne_none {ca : CallAction} (h : SessionStep cfg n i (.relay ca) n') :
    n.relaySystem.calls i ≠ none := by
  intro hnone
  have hlt := h.work_lt
  rw [hnone] at hlt
  exact absurd hlt (by simp)

theorem Node.isRelay_step {a : NodeAction} (ha : a.isRelay = true) (h : n.step cfg a = some n') :
    ∃ i ca, SessionStep cfg n i (.relay ca) n' := by
  rcases Node.step_cases h with ⟨i, sa, rfl, hstep⟩ | ⟨conn, rfl, -⟩
  · cases sa with
    | relay ca => exact ⟨i, ca, hstep⟩
    | _ => exact absurd ha (by simp [NodeAction.isRelay])
  · exact absurd ha (by simp [NodeAction.isRelay])

theorem NodeAction.batch_of_isRelay {a : NodeAction} (ha : a.isRelay = true) : a.batch = none := by
  unfold NodeAction.isRelay at ha
  split at ha
  · rfl
  · exact absurd ha (by simp)

theorem SessionStep.calls_of_ne {a : SessionAction} (h : SessionStep cfg n i a n') {j : Nat}
    (hj : j ≠ i) : n'.relaySystem.calls j = n.relaySystem.calls j := by
  simp [Node.relaySystem, h.sessions_of_ne hj]

/-- What the relay lets a task do, its session can do. -/
theorem Node.relay_at_rest (hpanic : n.relay.panicked = false)
    (hrest : ∀ i ca, n.step cfg (.session i (.relay ca)) = none) (task : Nat) (ca : CallAction) :
    n.relaySystem.step cfg.os (.call task ca) = none := by
  by_contra hsome
  obtain ⟨sys, hsys⟩ := Option.ne_none_iff_exists'.1 hsome
  have hnone := hrest task ca
  simp only [Node.step, hpanic, Bool.false_eq_true, if_false, Node.sessionStep] at hnone
  cases (RelaySystem.step_sound hsys).2 with
  | start hstart _ => exact absurd hstart (by simp [RelayAction.starts])
  | @call _ _ c c' s' hcall hstep =>
      have heq : c.step cfg.os task n.relay ca = some (s', c') := hstep.complete
      cases hphase : (n.sessions task).phase with
      | registering conn changed call =>
          obtain rfl : call = c := by simpa [Node.relaySystem, hphase, Phase.call?] using hcall
          simp [hphase, heq] at hnone
      | withdrawing call =>
          obtain rfl : call = c := by simpa [Node.relaySystem, hphase, Phase.call?] using hcall
          simp [hphase, heq] at hnone
      | _ => simp [Node.relaySystem, hphase, Phase.call?] at hcall

/-- A node whose sessions negotiate lists without repetitions does not panic. -/
theorem Node.panicked_eq_false
    (hnodup : ∀ a ∈ acts, ∀ ips, a.batch = some ips → ips.Nodup)
    (hrun : runFrom (Node.step cfg) (Node.new cfg) acts = some n) : n.relay.panicked = false := by
  obtain ⟨labels, hcauses, hcalls⟩ := (Node.refinedBy cfg).run hrun
  refine (RelaySystem.guardsKept_of_nodup ?_ hcalls).1
  intro b hb ips hips
  obtain ⟨a, ha, hcause⟩ := hcauses b hb
  exact hnodup a ha ips (hcause ips hips)

/-- **Sessions do not wait for each other.** On an OS that answers, with negotiated lists without
    repetitions: from any state the node can reach, the calls of its sessions on the relay take a
    bounded number of further steps, in every order; where none can take another one, no session is
    in the middle of changing its routes: each waits for its own link, its own peer or nothing; and
    such a state is reached. -/
theorem Node.sessions_settle (hos : cfg.os.Answers)
    (hnodup : ∀ a ∈ acts, ∀ ips, a.batch = some ips → ips.Nodup)
    (hrun : runFrom (Node.step cfg) (Node.new cfg) acts = some n) :
    (∃ bound, ∀ more n', (∀ a ∈ more, a.isRelay = true) →
      runFrom (Node.step cfg) n more = some n' →
      more.length ≤ bound ∧
        ((∀ i ca, n'.step cfg (.session i (.relay ca)) = none) →
          ∀ i, (n'.sessions i).phase.busy = false)) ∧
    ∃ more n', (∀ a ∈ more, a.isRelay = true) ∧ runFrom (Node.step cfg) n more = some n' ∧
      ∀ i ca, n'.step cfg (.session i (.relay ca)) = none := by
  obtain ⟨labels, -, hcalls⟩ := (Node.refinedBy cfg).run hrun
  -- only the tasks that have a call now can be in one later on
  have htasks : ∀ task, n.relaySystem.calls task ≠ none → task ∈ startedTasks labels :=
    RelaySystem.calls_started hcalls
  have hkeep : ∀ (m : Node) a m',
      (∀ task, m.relaySystem.calls task ≠ none → task ∈ startedTasks labels) → a.isRelay = true →
      m.step cfg a = some m' →
      ∀ task, m'.relaySystem.calls task ≠ none → task ∈ startedTasks labels := by
    intro m a m' hI ha hs task htask
    obtain ⟨i, ca, hstep⟩ := Node.isRelay_step ha hs
    refine hI task ?_
    by_cases ht : task = i
    · subst ht
      exact hstep.calls_ne_none
    · rwa [← hstep.calls_of_ne ht]
  have hlt : ∀ (m : Node) a m',
      (∀ task, m.relaySystem.calls task ≠ none → task ∈ startedTasks labels) → a.isRelay = true →
      m.step cfg a = some m' →
      m'.relaySystem.work (startedTasks labels) < m.relaySystem.work (startedTasks labels) := by
    intro m a m' hI ha hs
    obtain ⟨i, ca, hstep⟩ := Node.isRelay_step ha hs
    exact RelaySystem.work_lt_of_task (hI i hstep.calls_ne_none)
      (fun t ht => hstep.calls_of_ne ht) hstep.work_lt
  refine ⟨⟨n.relaySystem.work (startedTasks labels), ?_⟩, ?_⟩
  · intro more n' hmore hgo
    have hlength := length_add_le_of_decreasing
      (μ := fun m : Node => m.relaySystem.work (startedTasks labels)) hkeep hlt htasks hmore hgo
    refine ⟨by omega, ?_⟩
    intro hrest i
    have hwhole : runFrom (Node.step cfg) (Node.new cfg) (acts ++ more) = some n' := by
      rw [runFrom_append hrun, hgo]
    obtain ⟨labels', -, hcalls'⟩ := (Node.refinedBy cfg).run hwhole
    have hpanic : n'.relay.panicked = false := by
      refine Node.panicked_eq_false ?_ hwhole
      intro a ha ips hips
      rcases List.mem_append.1 ha with ha | ha
      · exact hnodup a ha ips hips
      · exact absurd (hips.symm.trans (NodeAction.batch_of_isRelay (hmore a ha))) (by simp)
    obtain ⟨hall, -⟩ := RelaySystem.at_rest hos (RelaySystem.held hcalls') hpanic
      (Node.relay_at_rest hpanic hrest)
    by_contra hbusy
    obtain ⟨c, hc⟩ := Option.ne_none_iff_exists'.1 ((Phase.busy_iff _).1 (by simpa using hbusy))
    exact absurd (hall i c hc) (by simp [Node.unreturned hwhole i c hc])
  · obtain ⟨more, n', hmore, hgo, -, hrest⟩ := exists_run_to_rest
      (μ := fun m : Node => m.relaySystem.work (startedTasks labels)) hkeep hlt htasks
    exact ⟨more, n', hmore, hgo, fun i ca => hrest (.session i (.relay ca)) rfl⟩

/-- The two sessions in the middle of their registrations, the first with the lock. -/
theorem Node.sessions_settle_two :
    ∃ n, runFrom (Node.step ⟨.exclusive, fun _ => "peer", false⟩)
        (Node.new ⟨.exclusive, fun _ => "peer", false⟩) (twoSessions.take 6) = some n ∧
      (n.sessions 1).phase.busy = true ∧ n.relay.handle = some 0 ∧
      ∃ more n', runFrom (Node.step ⟨.exclusive, fun _ => "peer", false⟩) n more = some n' ∧
        ∀ i, (n'.sessions i).phase.busy = false := by
  obtain ⟨n, hrun, hbusy, hlock⟩ : ∃ n,
      runFrom (Node.step ⟨.exclusive, fun _ => "peer", false⟩)
        (Node.new ⟨.exclusive, fun _ => "peer", false⟩) (twoSessions.take 6) = some n ∧
      (n.sessions 1).phase.busy = true ∧ n.relay.handle = some 0 := ⟨_, rfl, rfl, rfl⟩
  obtain ⟨⟨bound, hbound⟩, more, n', hmore, hgo, hrest⟩ :=
    Node.sessions_settle OsRules.exclusive_answers (nodup_of_getD (by decide)) hrun
  exact ⟨n, hrun, hbusy, hlock, more, n', hgo, (hbound more n' hmore hgo).2 hrest⟩

end

end P2pVpn
