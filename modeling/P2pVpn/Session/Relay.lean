import P2pVpn.Relay.Entries
import P2pVpn.Session.Steps

set_option autoImplicit false

/-! # The relay reflects the sessions

Sessions that negotiate disjoint addresses do not disturb one another: each one's entries follow its
own `routes` and phase, whatever the OS answers and however the others interleave. -/

namespace P2pVpn

/-- Where the entries of the addresses a session owns are. -/
def Session.EntryInv (own : IpAddr → Prop) (m : IpAddr → Option (PeerValue ConnectedPeer))
    (s : Session) : Prop :=
  match s.phase with
  | .waiting => Registered own m s.routes none
  | .handshaking _ => Registered own m s.routes none
  | .registering conn changed call =>
      call.EntryInv own m (some (changed, ⟨conn⟩)) ∧ call.Within own ∧ (∀ ip ∈ changed, own ip) ∧
      ∀ ip e, own ip → m ip = some e → e.value = none ∨ e.value = some ⟨conn⟩
  | .receiving conn => Registered own m s.routes (some ⟨conn⟩)
  | .withdrawing call =>
      call.EntryInv own m none ∧ call.Within own ∧ ∀ ip e, own ip → m ip = some e → e.value = none
  | .ended => Registered own m s.routes none ∧ s.routes = []

theorem Session.EntryInv.congr {own : IpAddr → Prop}
    {m m' : IpAddr → Option (PeerValue ConnectedPeer)} {s : Session} (h : s.EntryInv own m)
    (hsame : ∀ ip, own ip → m' ip = m ip) : s.EntryInv own m' := by
  unfold Session.EntryInv at h ⊢
  cases hphase : s.phase with
  | waiting => rw [hphase] at h; exact Registered.congr h hsame
  | handshaking conn => rw [hphase] at h; exact Registered.congr h hsame
  | registering conn changed call =>
      rw [hphase] at h
      obtain ⟨hinv, hw, hchanged, hvals⟩ := h
      exact ⟨hinv.congr hw hsame, hw, hchanged, fun ip e ho he => hvals ip e ho (hsame ip ho ▸ he)⟩
  | receiving conn => rw [hphase] at h; exact Registered.congr h hsame
  | withdrawing call =>
      rw [hphase] at h
      obtain ⟨hinv, hw, hvals⟩ := h
      exact ⟨hinv.congr hw hsame, hw, fun ip e ho he => hvals ip e ho (hsame ip ho ▸ he)⟩
  | ended => rw [hphase] at h; exact ⟨Registered.congr h.1 hsame, h.2⟩

/-- The invariant of a node whose addresses are divided among the sessions by `owner`. -/
structure Node.EntryInv (owner : IpAddr → Option Nat) (n : Node) : Prop where
  unowned : ∀ ip, owner ip = none → n.relay.peerMap ip = none
  routes : ∀ i, ∀ ip ∈ (n.sessions i).routes, owner ip = some i
  session : ∀ i, (n.sessions i).EntryInv (fun ip => owner ip = some i) n.relay.peerMap

theorem Node.EntryInv.new (owner : IpAddr → Option Nat) (cfg : NodeConfig) :
    (Node.new cfg).EntryInv owner where
  unowned := fun _ _ => rfl
  routes := fun _ _ h => absurd h (by simp [Node.new, Session.new])
  session := fun _ _ _ => ⟨fun h => absurd h (by simp [Node.new, Session.new]), fun _ => rfl⟩

/-- A session's negotiated addresses are its own. -/
def SessionAction.Within (own : IpAddr → Prop) : SessionAction → Prop
  | .handshake (.ok changed) => ∀ ip ∈ changed.routes, own ip
  | _ => True

section

variable {cfg : NodeConfig} {n n' : Node} {i : Nat} {a : SessionAction}
  {owner : IpAddr → Option Nat}

/-- It is enough to look at the session that took the step, and at its own addresses. -/
theorem Node.EntryInv.of_session (hinv : n.EntryInv owner)
    (hothers : ∀ j, j ≠ i → n'.sessions j = n.sessions j)
    (hframe : ∀ ip, owner ip ≠ some i → n'.relay.peerMap ip = n.relay.peerMap ip)
    (hroutes : ∀ ip ∈ (n'.sessions i).routes, owner ip = some i)
    (hsession : (n'.sessions i).EntryInv (fun ip => owner ip = some i) n'.relay.peerMap) :
    n'.EntryInv owner := by
  refine ⟨?_, ?_, ?_⟩
  · intro ip hip
    rw [hframe ip (by simp [hip])]
    exact hinv.unowned ip hip
  · intro j
    by_cases hj : j = i
    · subst hj; exact hroutes
    · rw [hothers j hj]
      exact hinv.routes j
  · intro j
    by_cases hj : j = i
    · subst hj; exact hsession
    · rw [hothers j hj]
      refine (hinv.session j).congr fun ip hip => hframe ip ?_
      rw [hip]
      exact fun heq => hj (Option.some.inj heq)

theorem RelayState.park_frame_entries {s : RelayState ConnectedPeer} {ips : List IpAddr}
    (hips : ∀ ip ∈ ips, owner ip = some i) (ip : IpAddr) (hip : owner ip ≠ some i) :
    (s.park ips).peerMap ip = s.peerMap ip := by
  rw [RelayState.peerMap_park, if_neg fun hmem => hip (hips ip hmem)]

theorem CallStep.frame_entries {os : OsRules} {s s' : RelayState ConnectedPeer} {ca : CallAction}
    {c c' : Call ConnectedPeer} (h : CallStep os i s c ca s' c')
    (hw : c.Within fun ip => owner ip = some i) (ip : IpAddr) (hip : owner ip ≠ some i) :
    s'.peerMap ip = s.peerMap ip :=
  h.frame.1 ip fun hmem => hip (hw ip hmem)

/-- Every step of a session keeps the invariant, if what it negotiates is its own. -/
theorem Node.EntryInv.sessionStep (hinv : n.EntryInv owner) (h : SessionStep cfg n i a n')
    (hown : a.Within fun ip => owner ip = some i) : n'.EntryInv owner := by
  have hothers : ∀ j, j ≠ i → n'.sessions j = n.sessions j := fun j hj => h.sessions_of_ne hj
  have hroutes := hinv.routes i
  have hs := hinv.session i
  unfold Session.EntryInv at hs
  cases h with
  | connected conn hphase =>
      rw [hphase] at hs
      refine hinv.of_session hothers (fun _ _ => rfl) ?_ ?_
      · simpa using hroutes
      · simpa [Session.EntryInv] using hs
  | disconnected hphase =>
      rw [hphase] at hs
      refine hinv.of_session hothers (RelayState.park_frame_entries hroutes) hroutes ?_
      unfold Session.EntryInv
      rw [show ((n.parkRoutes (n.sessions i).routes).sessions i).phase = .waiting from hphase]
      exact Registered.park hs
  | endNow hphase hempty =>
      rw [hphase] at hs
      refine hinv.of_session hothers (fun _ _ => rfl) ?_ ?_
      · simp [Node.withdrawn]
      · rw [hempty] at hs
        simpa [Node.withdrawn, Session.EntryInv] using hs
  | startWithdraw hphase =>
      rw [hphase] at hs
      refine hinv.of_session hothers (fun _ _ => rfl) ?_ ?_
      · simpa using hroutes
      · simp only [Node.sessions_setSession_self, Session.EntryInv]
        refine ⟨Registered.remove hs, fun ip hip => hroutes ip ?_, fun ip e ho he => ?_⟩
        · simpa [Call.addrs, Call.remove] using hip
        · exact hs.value_eq ho he
  | @handshakeFailed conn e hphase =>
      rw [hphase] at hs
      refine hinv.of_session hothers (fun ip _ => by simp) ?_ ?_
      · simpa using hroutes
      · simpa [Session.EntryInv] using hs
  | @handshakeOk conn changed hphase =>
      rw [hphase] at hs
      refine hinv.of_session hothers (fun _ _ => rfl) ?_ ?_
      · simpa using hroutes
      · simp only [Node.sessions_setSession_self, Session.EntryInv]
        refine ⟨Registered.reconcile hs _ _, fun ip hip => ?_, hown, fun ip e ho he => Or.inl ?_⟩
        · rcases Call.addrs_reconcile _ _ _ ip hip with hip | hip
          · exact hown ip hip
          · exact hroutes ip hip
        · exact hs.value_eq ho he
  | register hphase hcall _ =>
      rw [hphase] at hs
      obtain ⟨hcinv, hw, hchanged, hvals⟩ := hs
      refine hinv.of_session hothers (hcall.frame_entries hw) ?_ ?_
      · simpa using hroutes
      · simp only [Node.sessions_setSession_self, Session.EntryInv]
        refine ⟨hcall.entryInv hcinv, hcall.within hw, hchanged, ?_⟩
        refine hcall.values (P := fun v => v = none ∨ v = some _) hcinv (fun ips v hb => ?_) hvals
        obtain ⟨-, rfl⟩ := Prod.mk.inj (Option.some.inj hb)
        exact Or.inr rfl
  | registered hphase hcall =>
      rw [hphase] at hs
      obtain ⟨hcinv, hw, hchanged, -⟩ := hs
      refine hinv.of_session hothers (hcall.frame_entries hw) ?_ ?_
      · simpa using hchanged
      · simpa [Session.EntryInv, Call.EntryInv] using hcall.entryInv hcinv
  | rolledBack hphase hcall =>
      rw [hphase] at hs
      obtain ⟨hcinv, hw, -, -⟩ := hs
      refine hinv.of_session hothers (hcall.frame_entries hw) ?_ ?_
      · simp
      · simpa [Session.EntryInv, Call.EntryInv] using hcall.entryInv hcinv
  | recvLoopEnded e hphase hclosed =>
      rw [hphase] at hs
      refine hinv.of_session hothers (RelayState.park_frame_entries hroutes) ?_ ?_
      · simpa using hroutes
      · simpa [Session.EntryInv] using Registered.park hs
  | withdraw hphase hcall _ =>
      rw [hphase] at hs
      obtain ⟨hcinv, hw, hvals⟩ := hs
      refine hinv.of_session hothers (hcall.frame_entries hw) ?_ ?_
      · simpa using hroutes
      · simp only [Node.sessions_setSession_self, Session.EntryInv]
        exact ⟨hcall.entryInv hcinv, hcall.within hw,
          hcall.values (P := fun v => v = none) hcinv (fun _ _ hb => absurd hb (by simp)) hvals⟩
  | @withdrawn call ca ok relay hphase hcall =>
      rw [hphase] at hs
      obtain ⟨hcinv, hw, -⟩ := hs
      refine hinv.of_session hothers (hcall.frame_entries hw) ?_ ?_
      · simp [Node.withdrawn]
      · have hend := hcall.entryInv hcinv
        cases ok <;> simpa [Node.withdrawn, Session.EntryInv, Call.EntryInv] using hend

end

/-! ## Runs -/

/-- The addresses an action negotiates for session `i`. -/
def NodeAction.negotiated (i : Nat) : NodeAction → List IpAddr
  | .session j (.handshake (.ok changed)) => if j = i then changed.routes else []
  | _ => []

/-- The addresses negotiated for session `i` in the course of a run. -/
def negotiated (i : Nat) (acts : List NodeAction) : List IpAddr :=
  acts.flatMap (NodeAction.negotiated i)

/-- The session an address was negotiated for, if any. -/
noncomputable def ownerIn (acts : List NodeAction) (ip : IpAddr) : Option Nat :=
  open Classical in if h : ∃ i, ip ∈ negotiated i acts then some h.choose else none

/-- No address is negotiated for two sessions. -/
def DisjointSessions (acts : List NodeAction) : Prop :=
  ∀ i j, i ≠ j → ∀ ip ∈ negotiated i acts, ip ∉ negotiated j acts

section

variable {cfg : NodeConfig} {acts : List NodeAction} {n : Node}

theorem ownerIn_of_mem (hdisj : DisjointSessions acts) {i : Nat} {ip : IpAddr}
    (h : ip ∈ negotiated i acts) : ownerIn acts ip = some i := by
  have hex : ∃ j, ip ∈ negotiated j acts := ⟨i, h⟩
  unfold ownerIn
  rw [dif_pos hex]
  by_contra hne
  exact hdisj hex.choose i (fun heq => hne (by rw [heq])) ip hex.choose_spec h

theorem mem_of_ownerIn {i : Nat} {ip : IpAddr} (h : ownerIn acts ip = some i) :
    ip ∈ negotiated i acts := by
  unfold ownerIn at h
  split_ifs at h with hex
  exact Option.some.inj h ▸ hex.choose_spec

theorem ownerIn_eq_none {ip : IpAddr} (h : ∀ i, ip ∉ negotiated i acts) :
    ownerIn acts ip = none := by
  unfold ownerIn
  rw [dif_neg fun ⟨i, hi⟩ => h i hi]

theorem mem_negotiated {i : Nat} {changed : RoutesChanged} {ip : IpAddr}
    (ha : .session i (.handshake (.ok changed)) ∈ acts) (hip : ip ∈ changed.routes) :
    ip ∈ negotiated i acts :=
  List.mem_flatMap.2 ⟨_, ha, by simpa [NodeAction.negotiated] using hip⟩

/-- Every step of a run with disjoint sessions keeps the invariant. -/
theorem Node.EntryInv.step {n' : Node} {a : NodeAction} (hinv : n.EntryInv (ownerIn acts))
    (hdisj : DisjointSessions acts) (ha : a ∈ acts) (hstep : n.step cfg a = some n') :
    n'.EntryInv (ownerIn acts) := by
  rcases Node.step_cases hstep with ⟨i, sa, rfl, hs⟩ | ⟨conn, rfl, rfl⟩
  · refine hinv.sessionStep hs ?_
    unfold SessionAction.Within
    split
    · next changed => exact fun ip hip => ownerIn_of_mem hdisj (mem_negotiated ha hip)
    · trivial
  · exact ⟨hinv.unowned, hinv.routes, hinv.session⟩

/-- The invariant holds at the end of every run. -/
theorem Node.EntryInv.run (hdisj : DisjointSessions acts)
    (hrun : runFrom (Node.step cfg) (Node.new cfg) acts = some n) : n.EntryInv (ownerIn acts) :=
  runFrom_invariant_of_meets (fun _ _ _ hinv ha hstep => hinv.step hdisj ha hstep)
    (Node.EntryInv.new _ cfg) (RunMeets.of_forall _ acts fun _ h _ => h) hrun

/-- What `Relay::get` answers for a registered address. -/
theorem Registered.get {own : IpAddr → Prop} {s : RelayState ConnectedPeer} {ips : List IpAddr}
    {value : Option ConnectedPeer} (h : Registered own s.peerMap ips value) {ip : IpAddr}
    (hown : own ip) :
    (ip ∈ ips → s.get ip = some (value.elim .parked .connected)) ∧ (ip ∉ ips → s.get ip = none) := by
  unfold RelayState.get
  refine ⟨?_, ?_⟩
  · intro hip
    obtain ⟨route, hentry⟩ := (h ip hown).1 hip
    rw [hentry]
    cases value <;> rfl
  · intro hip
    rw [(h ip hown).2 hip]; rfl

/-- What the relay answers for a session's own routes, when it is not in the middle of changing
    them. -/
def Session.dispatch (s : Session) : Dispatch ConnectedPeer :=
  match s.phase with
  | .receiving conn => .connected ⟨conn⟩
  | _ => .parked

/-- A session that is not in the middle of a call has its routes registered. -/
theorem Session.EntryInv.registered {own : IpAddr → Prop}
    {m : IpAddr → Option (PeerValue ConnectedPeer)} {s : Session} (h : s.EntryInv own m)
    (hbusy : s.phase.busy = false) :
    ∃ value : Option ConnectedPeer, value.elim .parked .connected = s.dispatch ∧
      Registered own m s.routes value := by
  unfold Session.EntryInv at h
  unfold Session.dispatch
  cases hphase : s.phase with
  | waiting => rw [hphase] at h; exact ⟨none, rfl, h⟩
  | handshaking conn => rw [hphase] at h; exact ⟨none, rfl, h⟩
  | registering conn changed call => rw [hphase] at hbusy; exact absurd hbusy (by simp [Phase.busy])
  | receiving conn => rw [hphase] at h; exact ⟨some ⟨conn⟩, rfl, h⟩
  | withdrawing call => rw [hphase] at hbusy; exact absurd hbusy (by simp [Phase.busy])
  | ended => rw [hphase] at h; exact ⟨none, rfl, h.1⟩

/-- The connection whose peer a session has in the relay, or is putting there. -/
def Phase.activeConn : Phase → Option Nat
  | .registering conn _ _ => some conn
  | .receiving conn => some conn
  | _ => none

/-- A live entry is that of its owner's current connection. -/
theorem Session.EntryInv.activeConn {own : IpAddr → Prop}
    {m : IpAddr → Option (PeerValue ConnectedPeer)} {s : Session} (h : s.EntryInv own m) {ip : IpAddr}
    {e : PeerValue ConnectedPeer} {v : ConnectedPeer} (hown : own ip) (he : m ip = some e)
    (hv : e.value = some v) : s.phase.activeConn = some v.conn := by
  unfold Session.EntryInv at h
  cases hphase : s.phase with
  | waiting => rw [hphase] at h; exact absurd (hv.symm.trans (h.value_eq hown he)) (by simp)
  | handshaking conn => rw [hphase] at h; exact absurd (hv.symm.trans (h.value_eq hown he)) (by simp)
  | registering conn changed call =>
      rw [hphase] at h
      rcases h.2.2.2 ip e hown he with hnone | hsome
      · exact absurd (hv.symm.trans hnone) (by simp)
      · obtain rfl := Option.some.inj (hv.symm.trans hsome)
        rfl
  | receiving conn =>
      rw [hphase] at h
      obtain rfl := Option.some.inj (hv.symm.trans (h.value_eq hown he))
      rfl
  | withdrawing call => rw [hphase] at h; exact absurd (hv.symm.trans (h.2.2 ip e hown he)) (by simp)
  | ended => rw [hphase] at h; exact absurd (hv.symm.trans (h.1.value_eq hown he)) (by simp)

/-- **The relay reflects the sessions.** Whatever the links, the handshakes and the OS do, as long as
    no address is negotiated for two sessions: the routes of a session that is not in the middle of
    `reconcile` or `withdraw_routes` are dispatched to the connection it receives from, or parked
    when there is none; addresses it dropped, those of a session that ended, and those nobody
    negotiated have no entry; and a packet is only ever dispatched to the current connection of the
    session that negotiated its destination. -/
theorem Node.relay_reflects_sessions (cfg : NodeConfig) (acts : List NodeAction) (n : Node)
    (hrun : runFrom (Node.step cfg) (Node.new cfg) acts = some n) (hdisj : DisjointSessions acts) :
    (∀ i, (n.sessions i).phase.busy = false → ∀ ip,
      (ip ∈ (n.sessions i).routes → n.relay.get ip = some (n.sessions i).dispatch) ∧
      (ip ∈ negotiated i acts → ip ∉ (n.sessions i).routes → n.relay.get ip = none)) ∧
    (∀ ip, (∀ i, ip ∉ negotiated i acts) → n.relay.get ip = none) ∧
    (∀ i, (n.sessions i).phase = .ended → ∀ ip ∈ negotiated i acts, n.relay.get ip = none) ∧
    ∀ ip v, n.relay.get ip = some (.connected v) →
      ∃ i, ip ∈ negotiated i acts ∧ (n.sessions i).phase.activeConn = some v.conn := by
  have hinv := Node.EntryInv.run hdisj hrun
  refine ⟨?_, ?_, ?_, ?_⟩
  · intro i hbusy ip
    obtain ⟨value, hvalue, hreg⟩ := (hinv.session i).registered hbusy
    refine ⟨?_, ?_⟩
    · intro hroute
      rw [← hvalue]
      exact (hreg.get (hinv.routes i ip hroute)).1 hroute
    · intro hneg hroute
      exact (hreg.get (ownerIn_of_mem hdisj hneg)).2 hroute
  · intro ip hip
    unfold RelayState.get
    rw [hinv.unowned ip (ownerIn_eq_none hip)]
    rfl
  · intro i hend ip hip
    have hs := hinv.session i
    unfold Session.EntryInv at hs
    rw [hend] at hs
    obtain ⟨hreg, hempty⟩ := hs
    exact (hreg.get (ownerIn_of_mem hdisj hip)).2 (by simp [hempty])
  · -- a live entry has an owner, and carries the owner's current connection
    intro ip v hget
    unfold RelayState.get at hget
    obtain ⟨e, he, hval⟩ := Option.map_eq_some_iff.1 hget
    cases howner : ownerIn acts ip with
    | none => exact absurd ((hinv.unowned ip howner).symm.trans he) (by simp)
    | some i =>
        refine ⟨i, mem_of_ownerIn howner, ?_⟩
        cases hv : e.value with
        | none => rw [hv] at hval; exact absurd hval (by simp)
        | some w =>
            rw [hv] at hval
            obtain rfl : w = v := by simpa using hval
            exact (hinv.session i).activeConn howner he hv

end

/-- Two sessions: the first registers an address, loses its connection and comes back with another
    address; the second one's route is refused by the OS in between. -/
def twoSessions : List NodeAction :=
  let relay (i : Nat) (cas : List CallAction) : List NodeAction :=
    cas.map fun ca => .session i (.relay ca)
  [NodeAction.session 0 (.connected 7), .session 0 (.handshake (.ok ⟨[.v4 1]⟩)),
   .session 1 (.connected 8), .session 1 (.handshake (.ok ⟨[.v4 2]⟩))] ++
  relay 0 [.acquire, .poll 0, .osReply 0 true true, .poll 0, .finish] ++
  relay 1 [.acquire, .poll 0, .osReply 0 false true] ++
  [NodeAction.close 7, .session 0 (.recvLoopEnded .readDatagram), .session 0 (.connected 9)] ++
  relay 1 [.poll 0, .fail, .poll 0, .osReply 0 true false, .poll 0, .finish] ++
  [NodeAction.session 0 (.handshake (.ok ⟨[.v4 3]⟩))] ++
  relay 0 [.acquire, .poll 0, .osReply 0 true false, .poll 0, .finish, .acquire, .poll 0,
    .osReply 0 true true, .poll 0, .finish]

theorem twoSessions_disjoint : DisjointSessions twoSessions := by
  have hmem : ∀ i ip, ip ∈ negotiated i twoSessions →
      (i = 0 ∧ (ip = .v4 1 ∨ ip = .v4 3)) ∨ (i = 1 ∧ ip = .v4 2) := by
    intro i ip hip
    simp only [negotiated, twoSessions, NodeAction.negotiated, List.map, List.flatMap_cons,
      List.flatMap_append, List.flatMap_nil, List.append_nil, List.nil_append, List.mem_append,
      List.mem_ite_nil_right, List.mem_singleton] at hip
    grind
  intro i j hij ip hi hj
  rcases hmem i ip hi with ⟨h0, hx⟩ | ⟨h0, hx⟩ <;> rcases hmem j ip hj with ⟨h1, hy⟩ | ⟨h1, hy⟩
  · exact hij (h0.trans h1.symm)
  · rw [hy] at hx; exact absurd hx (by decide)
  · rw [hx] at hy; exact absurd hy (by decide)
  · exact hij (h0.trans h1.symm)

theorem relay_reflects_sessions_two :
    ∃ n, runFrom (Node.step ⟨.any, fun _ => "peer", false⟩)
        (Node.new ⟨.any, fun _ => "peer", false⟩) twoSessions = some n ∧
      n.relay.get (.v4 3) = some (.connected ⟨9⟩) ∧ n.relay.get (.v4 1) = none ∧
      n.relay.get (.v4 2) = none := by
  refine ⟨_, rfl, ?_⟩
  have hmain := Node.relay_reflects_sessions ⟨.any, fun _ => "peer", false⟩ twoSessions _ rfl
    twoSessions_disjoint
  refine ⟨(hmain.1 0 rfl (.v4 3)).1 (by decide), ?_, ?_⟩
  · exact (hmain.1 0 rfl (.v4 1)).2 (by decide) (by decide)
  · exact (hmain.1 1 rfl (.v4 2)).2 (by decide) (by decide)

end P2pVpn
