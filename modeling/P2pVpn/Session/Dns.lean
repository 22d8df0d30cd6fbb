import P2pVpn.Session.Relay

set_option autoImplicit false

/-! # Peer names against the relay

`run_connection` sets a peer's name after a registration and `withdraw_routes` removes it. A
registration that fails has its routes rolled back, and the session forgets them, but an earlier
connection's name entry stays. -/

namespace P2pVpn

/-- The addresses a session's name resolves to. -/
def Node.nameEntry (cfg : NodeConfig) (n : Node) (i : Nat) : Option (List IpAddr) :=
  n.dnsNames.bind fun names => names.addresses (toAsciiLowercase (cfg.name i))

/-- Names differ even without regard to ASCII case. -/
def NodeConfig.DistinctNames (cfg : NodeConfig) : Prop :=
  ∀ i j, i ≠ j → toAsciiLowercase (cfg.name i) ≠ toAsciiLowercase (cfg.name j)

/-- Outside of registration and withdrawal a name resolves to its session's routes, all of them known
    to the relay; the name of a session that ended does not resolve. -/
def Node.DnsInSync (cfg : NodeConfig) (n : Node) : Prop :=
  ∀ i,
    ((n.sessions i).phase.busy = false → ∀ addrs, n.nameEntry cfg i = some addrs →
      addrs = (n.sessions i).routes ∧ ∀ ip ∈ addrs, n.relay.get ip ≠ none) ∧
    ((n.sessions i).phase = .ended → n.nameEntry cfg i = none)

/-- The step does not complete the rollback of a session whose name has addresses. -/
def Node.RollbackUnnamed (cfg : NodeConfig) (n : Node) : NodeAction → Prop
  | .session i (.relay .finish) =>
      ∀ conn changed futures, (n.sessions i).phase = .registering conn changed (.rollback futures) →
        ∀ addrs, n.nameEntry cfg i = some addrs → addrs = []
  | _ => True

/-- The part of `DnsInSync` that does not read the relay. -/
def Session.NameInSync (s : Session) (entry : Option (List IpAddr)) : Prop :=
  (s.phase.busy = false → ∀ addrs, entry = some addrs → addrs = s.routes) ∧
    (s.phase = .ended → entry = none)

/-- While a session registers new routes its name still has the old ones. -/
def Session.OldName (s : Session) (entry : Option (List IpAddr)) : Prop :=
  ∀ conn changed call, s.phase = .registering conn changed call →
    ∀ addrs, entry = some addrs → addrs = s.routes

section

variable {cfg : NodeConfig} {n n' : Node} {i : Nat}

/-! ## Name entries under the updates -/

@[simp] theorem Node.nameEntry_setSession (n : Node) (s : Session) (j : Nat) :
    (n.setSession i s).nameEntry cfg j = n.nameEntry cfg j := rfl

@[simp] theorem Node.nameEntry_parkRoutes (n : Node) (routes : List IpAddr) (j : Nat) :
    (n.parkRoutes routes).nameEntry cfg j = n.nameEntry cfg j := rfl

@[simp] theorem Node.nameEntry_withRelay (n : Node) (relay : RelayState ConnectedPeer) (j : Nat) :
    ({ n with relay := relay } : Node).nameEntry cfg j = n.nameEntry cfg j := rfl

@[simp] theorem Node.nameEntry_ite_closeConnection (n : Node) (b : Bool) (conn j : Nat) :
    (if b then n.closeConnection conn else n).nameEntry cfg j = n.nameEntry cfg j := by
  split_ifs <;> rfl

theorem Node.nameEntry_setNames_self (n : Node) (addrs : List IpAddr) :
    (n.setNames (cfg.name i) addrs).nameEntry cfg i = n.dnsNames.map fun _ => addrs := by
  unfold Node.nameEntry Node.setNames
  cases n.dnsNames <;> simp [PeerNames.set]

theorem Node.nameEntry_setNames_of_ne (hnames : cfg.DistinctNames) (n : Node) (addrs : List IpAddr)
    {j : Nat} (hj : j ≠ i) :
    (n.setNames (cfg.name i) addrs).nameEntry cfg j = n.nameEntry cfg j := by
  unfold Node.nameEntry Node.setNames
  cases n.dnsNames <;> simp [PeerNames.set, hnames j i hj]

theorem Node.nameEntry_removeNames_self (n : Node) :
    (n.removeNames (cfg.name i)).nameEntry cfg i = none := by
  unfold Node.nameEntry Node.removeNames
  cases n.dnsNames <;> simp [PeerNames.remove]

theorem Node.nameEntry_removeNames_of_ne (hnames : cfg.DistinctNames) (n : Node) {j : Nat}
    (hj : j ≠ i) : (n.removeNames (cfg.name i)).nameEntry cfg j = n.nameEntry cfg j := by
  unfold Node.nameEntry Node.removeNames
  cases n.dnsNames <;> simp [PeerNames.remove, hnames j i hj]

/-- A session touches no other session's name. -/
theorem SessionStep.nameEntry_of_ne {a : SessionAction} (h : SessionStep cfg n i a n')
    (hnames : cfg.DistinctNames) {j : Nat} (hj : j ≠ i) :
    n'.nameEntry cfg j = n.nameEntry cfg j := by
  cases h with
  | endNow hphase hempty => exact Node.nameEntry_removeNames_of_ne hnames _ hj
  | handshakeFailed e hphase => simp
  | registered hphase hcall => exact Node.nameEntry_setNames_of_ne hnames _ _ hj
  | withdrawn hphase hcall => exact Node.nameEntry_removeNames_of_ne hnames _ hj
  | _ => rfl

/-! ## Steps -/

/-- Given where the entries are, only the names remain to be compared with the routes. -/
theorem Node.dnsInSync_iff {owner : IpAddr → Option Nat} (hinv : n.EntryInv owner) :
    n.DnsInSync cfg ↔ ∀ i, (n.sessions i).NameInSync (n.nameEntry cfg i) := by
  refine ⟨fun h i => ⟨fun hbusy addrs he => ((h i).1 hbusy addrs he).1, (h i).2⟩, ?_⟩
  intro h i
  refine ⟨?_, (h i).2⟩
  intro hbusy addrs he
  obtain rfl := (h i).1 hbusy addrs he
  refine ⟨rfl, ?_⟩
  intro ip hip
  obtain ⟨value, -, hreg⟩ := (hinv.session i).registered hbusy
  rw [(hreg.get (hinv.routes i ip hip)).1 hip]
  simp

/-- The session that takes the step stays in sync with its name exactly when it does not complete the
    rollback of a named session. -/
theorem SessionStep.nameInSync_iff {a : SessionAction} (h : SessionStep cfg n i a n')
    (hold : (n.sessions i).OldName (n.nameEntry cfg i))
    (hP : (n.sessions i).NameInSync (n.nameEntry cfg i)) :
    ((n'.sessions i).NameInSync (n'.nameEntry cfg i) ↔ n.RollbackUnnamed cfg (.session i a)) ∧
      (n'.sessions i).OldName (n'.nameEntry cfg i) := by
  have hback : ∀ {conn changed futures}, a = .relay .finish →
      (n.sessions i).phase = .registering conn changed (.rollback futures) →
      (n'.sessions i).phase = .waiting := h.phase_eq_waiting_of_rollback
  obtain ⟨hsync, hended⟩ := hP
  cases h with
  | connected conn hphase =>
      have hs := hsync (by simp [hphase, Phase.busy])
      exact ⟨iff_of_true (by simpa [Session.NameInSync] using fun _ => hs) trivial,
        by simp [Session.OldName]⟩
  | disconnected hphase =>
      exact ⟨iff_of_true ⟨hsync, hended⟩ trivial, hold⟩
  | endNow hphase hempty =>
      have hnone : (n.withdrawn cfg i (n.sessions i)).nameEntry cfg i = none :=
        n.nameEntry_removeNames_self
      rw [hnone]
      exact ⟨iff_of_true (by simp [Session.NameInSync]) trivial, by simp [Session.OldName]⟩
  | startWithdraw hphase =>
      exact ⟨iff_of_true (by simp [Session.NameInSync, Phase.busy]) trivial,
        by simp [Session.OldName]⟩
  | handshakeFailed e hphase =>
      have hs := hsync (by simp [hphase, Phase.busy])
      exact ⟨iff_of_true (by simpa [Session.NameInSync] using fun _ => hs) trivial,
        by simp [Session.OldName]⟩
  | handshakeOk changed hphase =>
      have hs := hsync (by simp [hphase, Phase.busy])
      exact ⟨iff_of_true (by simp [Session.NameInSync, Phase.busy]) trivial,
        by simpa [Session.OldName] using hs⟩
  | @register conn changed call call' ca relay hphase hcall hrun =>
      refine ⟨iff_of_true (by simp [Session.NameInSync, Phase.busy]) ?_, ?_⟩
      · cases ca with
        | finish => exact fun _ _ _ hreg => absurd (hback rfl hreg) (by simp)
        | _ => trivial
      · simpa [Session.OldName] using hold _ _ _ hphase
  | @registered conn changed call ca relay hphase hcall =>
      refine ⟨iff_of_true ?_ ?_, by simp [Session.OldName]⟩
      · rw [Node.nameEntry_setSession, Node.nameEntry_setNames_self]
        simp [Session.NameInSync]
      · cases ca with
        | finish => exact fun _ _ _ hreg => absurd (hback rfl hreg) (by simp)
        | _ => trivial
  | @rolledBack conn changed call ca relay hphase hcall =>
      obtain ⟨rfl, futures, rfl⟩ := hcall.returned_false
      refine ⟨?_, by simp [Session.OldName]⟩
      simp only [Session.NameInSync, Node.sessions_setSession_self, Node.nameEntry_setSession,
        Node.nameEntry_withRelay, Node.RollbackUnnamed, hphase]
      refine ⟨fun h _ _ _ _ => h.1 rfl, fun h => ⟨fun _ => h conn changed futures rfl, ?_⟩⟩
      exact fun h => absurd h (by simp)
  | recvLoopEnded e hphase hclosed =>
      have hs := hsync (by simp [hphase, Phase.busy])
      exact ⟨iff_of_true (by simpa [Session.NameInSync] using fun _ => hs) trivial,
        by simp [Session.OldName]⟩
  | @withdraw call call' ca relay hphase hcall hrun =>
      refine ⟨iff_of_true (by simp [Session.NameInSync, Phase.busy]) ?_, by simp [Session.OldName]⟩
      cases ca with
      | finish => simp [Node.RollbackUnnamed, hphase]
      | _ => trivial
  | @withdrawn call ca ok relay hphase hcall =>
      have hnone : (({ n with relay := relay } : Node).withdrawn cfg i (n.sessions i)).nameEntry cfg i
          = none := Node.nameEntry_removeNames_self _
      rw [hnone]
      refine ⟨iff_of_true (by simp [Session.NameInSync]) ?_, by simp [Session.OldName]⟩
      cases ca with
      | finish => simp [Node.RollbackUnnamed, hphase]
      | _ => trivial

/-! ## Runs -/

/-- **When names stay in sync with the relay.** Along a run of sessions with distinct names and
    disjoint addresses, every name resolves to its session's registered routes at all times (outside
    of registration and withdrawal), and to nothing after the session ends, exactly when no rollback
    of a failed registration completes while the session's name has an entry left from an earlier
    connection. -/
theorem Node.dnsInSync_iff_rollbackUnnamed (cfg : NodeConfig) (hnames : cfg.DistinctNames)
    (acts : List NodeAction) (hdisj : DisjointSessions acts) (n : Node)
    (hrun : runFrom (Node.step cfg) (Node.new cfg) acts = some n) :
    RunSatisfies (Node.step cfg) (Node.DnsInSync cfg) (Node.new cfg) acts ↔
      RunMeets (Node.step cfg) (Node.RollbackUnnamed cfg) (Node.new cfg) acts := by
  have hentry : ∀ i, (Node.new cfg).nameEntry cfg i = none := by
    intro i
    unfold Node.nameEntry Node.new
    cases cfg.dns <;> rfl
  refine runSatisfies_iff_runMeets (A := fun _ a => a ∈ acts)
    (J := fun m => m.EntryInv (ownerIn acts) ∧
      ∀ i, (m.sessions i).OldName (m.nameEntry cfg i)) ?_ ?_ ?_
    (RunMeets.of_forall _ acts fun _ h _ => h) hrun
  · rintro m a m' ha ⟨hinv, hold⟩ hP hstep
    have hinv' := hinv.step hdisj ha hstep
    rw [Node.dnsInSync_iff hinv] at hP
    rw [Node.dnsInSync_iff hinv']
    rcases Node.step_cases hstep with ⟨i, sa, rfl, hs⟩ | ⟨conn, rfl, rfl⟩
    · obtain ⟨hiff, hold'⟩ := hs.nameInSync_iff (hold i) (hP i)
      -- the other sessions and their names are as before
      have hother : ∀ j, j ≠ i → m'.sessions j = m.sessions j ∧
          m'.nameEntry cfg j = m.nameEntry cfg j :=
        fun j hj => ⟨hs.sessions_of_ne hj, hs.nameEntry_of_ne hnames hj⟩
      refine ⟨⟨fun h => hiff.1 (h i), ?_⟩, fun _ => ⟨hinv', ?_⟩⟩
      · intro h j
        by_cases hj : j = i
        · subst hj; exact hiff.2 h
        · rw [(hother j hj).1, (hother j hj).2]; exact hP j
      · intro j
        by_cases hj : j = i
        · subst hj; exact hold'
        · rw [(hother j hj).1, (hother j hj).2]; exact hold j
    · exact ⟨iff_of_true hP trivial, fun _ => ⟨hinv', hold⟩⟩
  · refine ⟨Node.EntryInv.new _ cfg, ?_⟩
    intro i _ _ _ h
    exact absurd h (by simp [Node.new, Session.new])
  · refine (Node.dnsInSync_iff (Node.EntryInv.new (ownerIn acts) cfg)).2 ?_
    intro i
    rw [hentry]
    simp [Session.NameInSync]

end

/-- A first registration that the OS refuses, and a second one that succeeds. -/
def refusedThenRegistered : List NodeAction :=
  [NodeAction.session 0 (.connected 7), .session 0 (.handshake (.ok ⟨[.v4 1]⟩))] ++
  [CallAction.acquire, .poll 0, .osReply 0 false false, .poll 0, .fail, .poll 0,
    .osReply 0 false false, .poll 0, .finish].map (fun ca => NodeAction.session 0 (.relay ca)) ++
  [NodeAction.session 0 (.connected 8), .session 0 (.handshake (.ok ⟨[.v4 1]⟩))] ++
  [CallAction.acquire, .poll 0, .osReply 0 true true, .poll 0, .finish].map
    fun ca => NodeAction.session 0 (.relay ca)

/-- The names `""`, `"a"`, `"aa"`, … -/
def unaryName (i : Nat) : String := String.ofList (List.replicate i 'a')

theorem distinctNames_unaryName (os : OsRules) (dns : Bool) :
    NodeConfig.DistinctNames ⟨os, unaryName, dns⟩ := by
  intro i j hij heq
  have hlen := congrArg String.length heq
  simp [toAsciiLowercase, unaryName] at hlen
  exact hij hlen

/-- A run in which only one session negotiates anything. -/
theorem disjointSessions_of_single {acts : List NodeAction} {k : Nat}
    (h : ∀ i, i ≠ k → negotiated i acts = []) : DisjointSessions acts := by
  intro i j hij ip hi hj
  by_cases hik : i = k
  · rw [h j fun hjk => hij (hik.trans hjk.symm)] at hj
    exact absurd hj (by simp)
  · rw [h i hik] at hi
    exact absurd hi (by simp)

theorem dnsInSync_refusedThenRegistered :
    RunSatisfies (Node.step ⟨.exclusive, unaryName, true⟩)
      (Node.DnsInSync ⟨.exclusive, unaryName, true⟩)
      (Node.new ⟨.exclusive, unaryName, true⟩) refusedThenRegistered := by
  have hdisj : DisjointSessions refusedThenRegistered := disjointSessions_of_single (k := 0) (by
    intro i hi
    simp [negotiated, refusedThenRegistered, NodeAction.negotiated, hi.symm])
  refine (Node.dnsInSync_iff_rollbackUnnamed _ (distinctNames_unaryName _ _) refusedThenRegistered
    hdisj _ rfl).2 ?_
  iterate 10 refine .cons rfl trivial ?_
  -- the rollback completes before the name was ever set
  refine .cons rfl (fun _ _ _ _ addrs h => absurd (show none = some addrs from h) (by simp)) ?_
  iterate 6 refine .cons rfl trivial ?_
  exact .cons rfl (fun _ _ _ h => absurd (Phase.registering.inj h).2.2 (by simp)) trivial

/-- A second connection whose new address the OS refuses. -/
def registeredThenRefused : List NodeAction :=
  [NodeAction.session 0 (.connected 7), .session 0 (.handshake (.ok ⟨[.v4 1]⟩))] ++
  [CallAction.acquire, .poll 0, .osReply 0 true true, .poll 0, .finish].map
    (fun ca => NodeAction.session 0 (.relay ca)) ++
  [NodeAction.close 7, .session 0 (.recvLoopEnded .readDatagram), .session 0 (.connected 8),
   .session 0 (.handshake (.ok ⟨[.v4 1, .v4 2]⟩))] ++
  [CallAction.acquire, .poll 0, .poll 1, .osReply 1 false false, .poll 1, .fail, .poll 0, .poll 1,
    .osReply 0 true false, .osReply 1 false false, .poll 0, .poll 1, .finish].map
    fun ca => NodeAction.session 0 (.relay ca)

/-- The name still resolves to the address of the first connection, whose route and entry are gone. -/
theorem registeredThenRefused_stale_name :
    ∃ n, runFrom (Node.step ⟨.exclusive, unaryName, true⟩) (Node.new ⟨.exclusive, unaryName, true⟩)
        registeredThenRefused = some n ∧
      (n.sessions 0).phase = .waiting ∧ (n.sessions 0).routes = [] ∧
      n.nameEntry ⟨.exclusive, unaryName, true⟩ 0 = some [.v4 1] ∧
      n.relay.get (.v4 1) = none ∧ n.relay.osRoutes (.v4 1) = false := by
  refine ⟨_, rfl, rfl, rfl, ?_, rfl, rfl⟩
  show (some (PeerNames.new.set (unaryName 0) [.v4 1])).bind _ = _
  simp [PeerNames.set]

end P2pVpn
