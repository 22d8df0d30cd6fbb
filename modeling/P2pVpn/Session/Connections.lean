import P2pVpn.Session.Steps

set_option autoImplicit false

/-! # Connections a session gives up on

`run_connection` returns early on several errors. A session that is back in `link.changed()` only
gets on when its connection is closed or replaced, so every such return should leave the connection
closed. The code closes it in one case only, so the others rely on somebody else having done so. -/

namespace P2pVpn

/-- No session waits on a connection that it gave up and that is still open. -/
def Node.NoneAbandoned (n : Node) : Prop :=
  ∀ i conn, (n.sessions i).phase = .waiting → (n.sessions i).lastConn = some conn →
    n.closed conn = true

/-- The step does not give up an open connection: a handshake that fails, a registration that has
    been rolled back or a receive loop whose channel is gone find the connection closed already,
    except for a handshake that closes it itself. -/
def Node.ClosedOnReturn (n : Node) : NodeAction → Prop
  | .session i (.handshake (.error e)) =>
      e.closesConnection = true ∨
        ∀ conn, (n.sessions i).phase = .handshaking conn → n.closed conn = true
  | .session i (.relay .finish) =>
      ∀ conn changed futures, (n.sessions i).phase = .registering conn changed (.rollback futures) →
        n.closed conn = true
  | .session i (.recvLoopEnded .txPacket) =>
      ∀ conn, (n.sessions i).phase = .receiving conn → n.closed conn = true
  | _ => True

/-- The connection a session is working on. -/
def Phase.conn? : Phase → Option Nat
  | .handshaking conn => some conn
  | .registering conn _ _ => some conn
  | .receiving conn => some conn
  | _ => none

/-- A session works on the connection it was last given. -/
def Node.LastConnInv (n : Node) : Prop :=
  ∀ i conn, (n.sessions i).phase.conn? = some conn → (n.sessions i).lastConn = some conn

section

variable {cfg : NodeConfig} {n n' : Node} {i : Nat}

/-- It is enough to look at the session that took the step: nothing reopens a connection. -/
theorem Node.noneAbandoned_iff (hP : n.NoneAbandoned)
    (hothers : ∀ j, j ≠ i → n'.sessions j = n.sessions j)
    (hclosed : ∀ conn, n.closed conn = true → n'.closed conn = true) :
    n'.NoneAbandoned ↔
      ∀ conn, (n'.sessions i).phase = .waiting → (n'.sessions i).lastConn = some conn →
        n'.closed conn = true := by
  refine ⟨fun h => h i, ?_⟩
  intro h j conn
  by_cases hj : j = i
  · subst hj; exact h conn
  · rw [hothers j hj]
    exact fun hphase hconn => hclosed conn (hP j conn hphase hconn)

/-- A session that is not waiting after the step has given up nothing. -/
theorem Node.noneAbandoned_of_phase_ne (hP : n.NoneAbandoned)
    (hothers : ∀ j, j ≠ i → n'.sessions j = n.sessions j)
    (hclosed : ∀ conn, n.closed conn = true → n'.closed conn = true)
    (hphase : (n'.sessions i).phase ≠ .waiting) : n'.NoneAbandoned :=
  (Node.noneAbandoned_iff hP hothers hclosed).2 fun _ h => absurd h hphase

theorem Node.closed_ite_closeConnection (n : Node) (b : Bool) (conn x : Nat) :
    (if b then n.closeConnection conn else n).closed x
      = (n.closed x || (b && decide (x = conn))) := by
  cases b with
  | false => simp
  | true => by_cases hx : x = conn <;> simp [Node.closeConnection, hx]

/-- A step keeps the sessions off abandoned connections exactly when it does not give up an open
    one. -/
theorem SessionStep.noneAbandoned_iff {a : SessionAction} (h : SessionStep cfg n i a n')
    (hlast : n.LastConnInv) (hP : n.NoneAbandoned) :
    n'.NoneAbandoned ↔ n.ClosedOnReturn (.session i a) := by
  have hothers : ∀ j, j ≠ i → n'.sessions j = n.sessions j := fun j hj => h.sessions_of_ne hj
  have hback : ∀ {conn changed futures}, a = .relay .finish →
      (n.sessions i).phase = .registering conn changed (.rollback futures) →
      (n'.sessions i).phase = .waiting := h.phase_eq_waiting_of_rollback
  cases h with
  | connected conn hphase =>
      exact iff_of_true (Node.noneAbandoned_of_phase_ne hP hothers (fun _ h => h) (by simp)) trivial
  | disconnected hphase => exact iff_of_true hP trivial
  | endNow hphase hempty =>
      refine iff_of_true (Node.noneAbandoned_of_phase_ne hP hothers (fun _ h => h) ?_) trivial
      simp [Node.withdrawn]
  | startWithdraw hphase =>
      exact iff_of_true (Node.noneAbandoned_of_phase_ne hP hothers (fun _ h => h) (by simp)) trivial
  | @handshakeFailed conn e hphase =>
      have hconn : (n.sessions i).lastConn = some conn := hlast i conn (by simp [hphase, Phase.conn?])
      have hclosed : ∀ m : Session, ∀ x,
          ((if e.closesConnection then n.closeConnection conn else n).setSession i m).closed x
            = (n.closed x || (e.closesConnection && decide (x = conn))) :=
        fun _ x => n.closed_ite_closeConnection e.closesConnection conn x
      rw [Node.noneAbandoned_iff hP hothers fun x hx => by rw [hclosed, hx]; rfl]
      simp only [Node.sessions_setSession_self, hconn, hclosed, Node.ClosedOnReturn, hphase,
        Option.some.injEq, Phase.handshaking.injEq, forall_eq', forall_const, decide_true,
        Bool.and_true, Bool.or_eq_true]
      exact or_comm
  | handshakeOk changed hphase =>
      exact iff_of_true (Node.noneAbandoned_of_phase_ne hP hothers (fun _ h => h) (by simp)) trivial
  | @register conn changed call call' ca relay hphase hcall hrun =>
      refine iff_of_true (Node.noneAbandoned_of_phase_ne hP hothers (fun _ h => h) (by simp)) ?_
      cases ca with
      | finish => exact fun _ _ _ hreg => absurd (hback rfl hreg) (by simp)
      | _ => trivial
  | @registered conn changed call ca relay hphase hcall =>
      refine iff_of_true (Node.noneAbandoned_of_phase_ne hP hothers (fun _ h => h) (by simp)) ?_
      cases ca with
      | finish => exact fun _ _ _ hreg => absurd (hback rfl hreg) (by simp)
      | _ => trivial
  | @rolledBack conn changed call ca relay hphase hcall =>
      obtain ⟨rfl, futures, rfl⟩ := hcall.returned_false
      have hconn : (n.sessions i).lastConn = some conn := hlast i conn (by simp [hphase, Phase.conn?])
      rw [Node.noneAbandoned_iff hP hothers fun _ h => h]
      simp only [Node.sessions_setSession_self, hconn, Node.ClosedOnReturn, hphase]
      refine ⟨?_, ?_⟩
      · intro h conn' changed' futures' heq
        obtain ⟨rfl, -, -⟩ := Phase.registering.inj heq
        exact h conn trivial rfl
      · intro h conn' _ heq
        obtain rfl := Option.some.inj heq
        exact h conn changed futures rfl
  | @recvLoopEnded conn e hphase hclosed =>
      have hconn : (n.sessions i).lastConn = some conn := hlast i conn (by simp [hphase, Phase.conn?])
      rw [Node.noneAbandoned_iff hP hothers fun _ h => h]
      simp only [Node.sessions_setSession_self, hconn, Option.some.injEq, forall_eq', forall_const]
      show n.closed conn = true ↔ _
      cases e with
      | readDatagram => exact iff_of_true (hclosed rfl) trivial
      | txPacket => simp [Node.ClosedOnReturn, hphase]
  | @withdraw call call' ca relay hphase hcall hrun =>
      refine iff_of_true (Node.noneAbandoned_of_phase_ne hP hothers (fun _ h => h) (by simp)) ?_
      cases ca with
      | finish => simp [Node.ClosedOnReturn, hphase]
      | _ => trivial
  | @withdrawn call ca ok relay hphase hcall =>
      refine iff_of_true (Node.noneAbandoned_of_phase_ne hP hothers (fun _ h => h) ?_) ?_
      · simp [Node.withdrawn]
      · cases ca with
        | finish => simp [Node.ClosedOnReturn, hphase]
        | _ => trivial

theorem SessionStep.lastConnInv {a : SessionAction} (h : SessionStep cfg n i a n')
    (hlast : n.LastConnInv) : n'.LastConnInv := by
  intro j conn
  by_cases hj : j = i
  · subst hj
    cases h with
    | connected conn' hphase => simp [Phase.conn?]
    | disconnected hphase => exact hlast j conn
    | endNow hphase hempty => simp [Node.withdrawn, Phase.conn?]
    | startWithdraw hphase => simp [Phase.conn?]
    | handshakeFailed e hphase => simp [Phase.conn?]
    | handshakeOk changed hphase => simpa [Phase.conn?, hphase] using hlast j conn
    | register hphase hcall hrun => simpa [Phase.conn?, hphase] using hlast j conn
    | registered hphase hcall => simpa [Phase.conn?, hphase] using hlast j conn
    | rolledBack hphase hcall => simp [Phase.conn?]
    | recvLoopEnded e hphase hclosed => simp [Phase.conn?]
    | withdraw hphase hcall hrun => simp [Phase.conn?]
    | withdrawn hphase hcall => simp [Node.withdrawn, Phase.conn?]
  · rw [h.sessions_of_ne hj]
    exact hlast j conn

/-- A session works on the connection it worked on before, or on the one it has just been given. -/
theorem SessionStep.conn?_eq_some {a : SessionAction} (h : SessionStep cfg n i a n') {j conn : Nat}
    (hconn : (n'.sessions j).phase.conn? = some conn) :
    (n.sessions j).phase.conn? = some conn ∨ (j = i ∧ a = .connected conn) := by
  by_cases hj : j = i
  · subst hj
    cases h with
    | connected conn' hphase =>
        obtain rfl : conn' = conn := by simpa [Phase.conn?] using hconn
        exact Or.inr ⟨rfl, rfl⟩
    | disconnected hphase => exact Or.inl hconn
    | handshakeOk changed hphase => exact Or.inl (by simpa [Phase.conn?, hphase] using hconn)
    | register hphase hcall hrun => exact Or.inl (by simpa [Phase.conn?, hphase] using hconn)
    | registered hphase hcall => exact Or.inl (by simpa [Phase.conn?, hphase] using hconn)
    | _ => simp [Node.withdrawn, Phase.conn?] at hconn
  · rw [h.sessions_of_ne hj] at hconn
    exact Or.inl hconn

/-- **When no session waits on an abandoned connection.** Along a run, a session that is back in
    `link.changed()` has its last connection closed at all times exactly when no step gives up an open
    connection: every failed handshake either found no valid routes (and so closed the connection) or
    came after the connection was closed, and so did every rolled back registration and every receive
    loop that lost its channel. -/
theorem Node.noneAbandoned_iff_closedOnReturn (cfg : NodeConfig) (acts : List NodeAction) (n : Node)
    (hrun : runFrom (Node.step cfg) (Node.new cfg) acts = some n) :
    RunSatisfies (Node.step cfg) Node.NoneAbandoned (Node.new cfg) acts ↔
      RunMeets (Node.step cfg) Node.ClosedOnReturn (Node.new cfg) acts := by
  refine runSatisfies_iff_runMeets (A := fun _ _ => True) (J := Node.LastConnInv) ?_ ?_ ?_
    (RunMeets.of_forall _ acts fun _ _ _ => trivial) hrun
  · intro m a m' _ hlast hP hstep
    rcases Node.step_cases hstep with ⟨i, sa, rfl, hs⟩ | ⟨conn, rfl, rfl⟩
    · exact ⟨hs.noneAbandoned_iff hlast hP, fun _ => hs.lastConnInv hlast⟩
    · refine ⟨iff_of_true (?_) trivial, fun _ => hlast⟩
      intro i c hphase hconn
      have hold := hP i c hphase hconn
      by_cases hc : c = conn <;> simp [Node.closeConnection, hc, ← hold]
  · exact fun i conn h => absurd h (by simp [Node.new, Session.new, Phase.conn?])
  · exact fun i conn _ h => absurd h (by simp [Node.new, Session.new])

end

/-- A peer without usable addresses is rejected, which closes the connection; on the next connection
    the peer goes away and the handshake times out. -/
def rejectedThenLost : List NodeAction :=
  [.session 0 (.connected 7),
   .session 0 (.handshake (.error (.receive (.noValidRoutes (.build .failedPrecondition ""))))),
   .session 0 (.connected 8), .close 8, .session 0 (.handshake (.error .timeout))]

theorem noneAbandoned_rejectedThenLost :
    RunSatisfies (Node.step ⟨.any, fun _ => "peer", false⟩) Node.NoneAbandoned
      (Node.new ⟨.any, fun _ => "peer", false⟩) rejectedThenLost := by
  refine (Node.noneAbandoned_iff_closedOnReturn ⟨.any, fun _ => "peer", false⟩ rejectedThenLost _
    rfl).2 ?_
  refine .cons rfl trivial (.cons rfl (Or.inl rfl) (.cons rfl trivial (.cons rfl trivial
    (.cons rfl (Or.inr ?_) trivial))))
  intro conn hphase
  obtain rfl : 8 = conn := Phase.handshaking.inj hphase
  rfl

/-- A handshake that times out: the session is back in `link.changed()`, and nothing has closed its
    connection. -/
theorem handshake_timeout_abandons :
    ∃ n, runFrom (Node.step ⟨.any, fun _ => "peer", false⟩)
        (Node.new ⟨.any, fun _ => "peer", false⟩)
        [.session 0 (.connected 7), .session 0 (.handshake (.error .timeout))] = some n ∧
      (n.sessions 0).phase = .waiting ∧ (n.sessions 0).lastConn = some 7 ∧ n.closed 7 = false :=
  ⟨_, rfl, rfl, rfl, rfl⟩

end P2pVpn
