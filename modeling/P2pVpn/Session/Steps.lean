import P2pVpn.Relay.Calls
import P2pVpn.Session.Basic

set_option autoImplicit false

/-! # What a step of a session can do

`SessionStep` lists the transitions of `Node.sessionStep`, one constructor for each way out of an
await, with the relay's part as a `CallStep`. -/

namespace P2pVpn

/-- Transitions of session `i`. -/
inductive SessionStep (cfg : NodeConfig) (n : Node) (i : Nat) : SessionAction → Node → Prop where
  | connected (conn : Nat) (hphase : (n.sessions i).phase = .waiting) :
      SessionStep cfg n i (.connected conn)
        (n.setSession i { n.sessions i with phase := .handshaking conn, lastConn := some conn })
  | disconnected (hphase : (n.sessions i).phase = .waiting) :
      SessionStep cfg n i .disconnected (n.parkRoutes (n.sessions i).routes)
  | endNow (hphase : (n.sessions i).phase = .waiting) (hempty : (n.sessions i).routes = []) :
      SessionStep cfg n i .linkEnded (n.withdrawn cfg i (n.sessions i))
  | startWithdraw (hphase : (n.sessions i).phase = .waiting) :
      SessionStep cfg n i .linkEnded
        (n.setSession i
          { n.sessions i with phase := .withdrawing (.remove (n.sessions i).routes) })
  | handshakeFailed {conn : Nat} (e : HandshakeError)
      (hphase : (n.sessions i).phase = .handshaking conn) :
      SessionStep cfg n i (.handshake (.error e))
        ((if e.closesConnection then n.closeConnection conn else n).setSession i
          { n.sessions i with phase := .waiting })
  | handshakeOk {conn : Nat} (changed : RoutesChanged)
      (hphase : (n.sessions i).phase = .handshaking conn) :
      SessionStep cfg n i (.handshake (.ok changed))
        (n.setSession i { n.sessions i with
          phase := .registering conn changed.routes
            (.reconcile changed.routes (n.sessions i).routes ⟨conn⟩) })
  | register {conn : Nat} {changed : List IpAddr} {call call' : Call ConnectedPeer}
      {ca : CallAction} {relay : RelayState ConnectedPeer}
      (hphase : (n.sessions i).phase = .registering conn changed call)
      (hcall : CallStep cfg.os i n.relay call ca relay call') (hrun : ∀ ok, call' ≠ .returned ok) :
      SessionStep cfg n i (.relay ca)
        (({ n with relay := relay } : Node).setSession i
          { n.sessions i with phase := .registering conn changed call' })
  | registered {conn : Nat} {changed : List IpAddr} {call : Call ConnectedPeer}
      {ca : CallAction} {relay : RelayState ConnectedPeer}
      (hphase : (n.sessions i).phase = .registering conn changed call)
      (hcall : CallStep cfg.os i n.relay call ca relay (.returned true)) :
      SessionStep cfg n i (.relay ca)
        ((({ n with relay := relay } : Node).setNames (cfg.name i) changed).setSession i
          { n.sessions i with phase := .receiving conn, routes := changed })
  | rolledBack {conn : Nat} {changed : List IpAddr} {call : Call ConnectedPeer}
      {ca : CallAction} {relay : RelayState ConnectedPeer}
      (hphase : (n.sessions i).phase = .registering conn changed call)
      (hcall : CallStep cfg.os i n.relay call ca relay (.returned false)) :
      SessionStep cfg n i (.relay ca)
        (({ n with relay := relay } : Node).setSession i
          { n.sessions i with phase := .waiting, routes := [] })
  | recvLoopEnded {conn : Nat} (e : RecvLoopError)
      (hphase : (n.sessions i).phase = .receiving conn)
      (hclosed : e = .readDatagram → n.closed conn = true) :
      SessionStep cfg n i (.recvLoopEnded e)
        ((n.parkRoutes (n.sessions i).routes).setSession i { n.sessions i with phase := .waiting })
  | withdraw {call call' : Call ConnectedPeer} {ca : CallAction}
      {relay : RelayState ConnectedPeer} (hphase : (n.sessions i).phase = .withdrawing call)
      (hcall : CallStep cfg.os i n.relay call ca relay call') (hrun : ∀ ok, call' ≠ .returned ok) :
      SessionStep cfg n i (.relay ca)
        (({ n with relay := relay } : Node).setSession i
          { n.sessions i with phase := .withdrawing call' })
  | withdrawn {call : Call ConnectedPeer} {ca : CallAction} {ok : Bool}
      {relay : RelayState ConnectedPeer} (hphase : (n.sessions i).phase = .withdrawing call)
      (hcall : CallStep cfg.os i n.relay call ca relay (.returned ok)) :
      SessionStep cfg n i (.relay ca)
        (({ n with relay := relay } : Node).withdrawn cfg i (n.sessions i))

section

variable {cfg : NodeConfig} {n n' : Node} {i : Nat}

/-- Every step of a session is one of the listed transitions. -/
theorem Node.sessionStep_sound {a : SessionAction} (h : n.sessionStep cfg i a = some n') :
    SessionStep cfg n i a n' := by
  unfold Node.sessionStep at h
  simp only at h
  split at h
  · next conn hphase => obtain rfl := Option.some.inj h; exact .connected conn hphase
  · next hphase => obtain rfl := Option.some.inj h; exact .disconnected hphase
  · next hphase =>
      split_ifs at h with hempty
      · obtain rfl := Option.some.inj h
        exact .endNow hphase (List.isEmpty_iff.1 hempty)
      · obtain rfl := Option.some.inj h
        exact .startWithdraw hphase
  · next conn e hphase => obtain rfl := Option.some.inj h; exact .handshakeFailed e hphase
  · next conn changed hphase => obtain rfl := Option.some.inj h; exact .handshakeOk changed hphase
  · next conn changed call ca hphase =>
      obtain ⟨⟨relay, call'⟩, hstep, rfl⟩ := Option.map_eq_some_iff.1 h
      have hcall := Call.step_sound hstep
      unfold Node.registered
      split
      · next hret => exact .registered hphase (hret ▸ hcall)
      · next hret => exact .rolledBack hphase (hret ▸ hcall)
      · next htrue hfalse =>
          refine .register hphase hcall ?_
          intro ok
          cases ok with
          | true => exact htrue
          | false => exact hfalse
  · next conn e hphase =>
      split_ifs at h with hopen
      obtain rfl := Option.some.inj h
      refine .recvLoopEnded e hphase ?_
      intro he
      cases hc : n.closed conn with
      | true => rfl
      | false => exact absurd ⟨he, hc⟩ hopen
  · next call ca hphase =>
      obtain ⟨⟨relay, call'⟩, hstep, rfl⟩ := Option.map_eq_some_iff.1 h
      have hcall := Call.step_sound hstep
      unfold Node.withdrawing
      split
      · next ok hret =>
          obtain rfl : call' = .returned ok := hret
          exact .withdrawn hphase hcall
      · next hret => exact .withdraw hphase hcall hret
  · exact absurd h (by simp)

/-- A step of the node is a step of one session, or a connection is closed. -/
theorem Node.step_cases {a : NodeAction} (h : n.step cfg a = some n') :
    (∃ i sa, a = .session i sa ∧ SessionStep cfg n i sa n') ∨
      ∃ conn, a = .close conn ∧ n' = n.closeConnection conn := by
  cases a with
  | session i sa =>
      simp only [Node.step] at h
      split_ifs at h
      exact Or.inl ⟨i, sa, rfl, Node.sessionStep_sound h⟩
  | close conn => exact Or.inr ⟨conn, rfl, (Option.some.inj h).symm⟩

/-! ## What the updates leave alone -/

@[simp] theorem Node.relay_setSession (n : Node) (i : Nat) (s : Session) :
    (n.setSession i s).relay = n.relay := rfl

@[simp] theorem Node.relay_setNames (n : Node) (name : String) (addrs : List IpAddr) :
    (n.setNames name addrs).relay = n.relay := rfl

@[simp] theorem Node.relay_removeNames (n : Node) (name : String) :
    (n.removeNames name).relay = n.relay := rfl

@[simp] theorem Node.relay_parkRoutes (n : Node) (routes : List IpAddr) :
    (n.parkRoutes routes).relay = n.relay.park routes := rfl

@[simp] theorem Node.relay_ite_closeConnection (n : Node) (b : Bool) (conn : Nat) :
    (if b then n.closeConnection conn else n).relay = n.relay := by
  split_ifs <;> rfl

@[simp] theorem Node.sessions_setSession_self (n : Node) (i : Nat) (s : Session) :
    (n.setSession i s).sessions i = s := by simp [Node.setSession]

theorem Node.sessions_setSession_of_ne (n : Node) {i j : Nat} (s : Session) (h : j ≠ i) :
    (n.setSession i s).sessions j = n.sessions j := by simp [Node.setSession, h]

/-- A session's step leaves the other sessions where they are. -/
theorem SessionStep.sessions_of_ne {a : SessionAction} (h : SessionStep cfg n i a n') {j : Nat}
    (hne : j ≠ i) : n'.sessions j = n.sessions j := by
  cases h with
  | disconnected hphase => rfl
  | handshakeFailed e hphase =>
      rw [Node.sessions_setSession_of_ne _ _ hne]
      split_ifs <;> rfl
  | _ => exact Node.sessions_setSession_of_ne _ _ hne

/-- A rollback that finishes takes the session back to `link.changed()`. -/
theorem SessionStep.phase_eq_waiting_of_rollback {a : SessionAction} (h : SessionStep cfg n i a n')
    {conn : Nat} {changed : List IpAddr} {futures : List (IpAddr × RemoveFuture)}
    (ha : a = .relay .finish)
    (hback : (n.sessions i).phase = .registering conn changed (.rollback futures)) :
    (n'.sessions i).phase = .waiting := by
  cases h with
  | register hphase hcall hrun =>
      obtain rfl := SessionAction.relay.inj ha
      obtain ⟨-, -, rfl⟩ := Phase.registering.inj (hphase.symm.trans hback)
      exact absurd hcall.rollback_finish (hrun false)
  | registered hphase hcall =>
      obtain rfl := SessionAction.relay.inj ha
      obtain ⟨-, -, rfl⟩ := Phase.registering.inj (hphase.symm.trans hback)
      exact absurd hcall.rollback_finish (by simp)
  | rolledBack hphase hcall => simp
  | withdraw hphase hcall hrun => exact absurd (hphase.symm.trans hback) (by simp)
  | withdrawn hphase hcall => exact absurd (hphase.symm.trans hback) (by simp)
  | _ => exact absurd ha (by simp)

end

end P2pVpn
