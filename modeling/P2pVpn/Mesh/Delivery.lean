import P2pVpn.Handshake.Agreement
import P2pVpn.Mesh.Basic
import P2pVpn.Process.Wire
import P2pVpn.Session.Connections

set_option autoImplicit false

/-! # From device to device

A frame of one host's device that comes out of another's has gone through the first one's buffers, its
relay and QUIC, across the network, and through the second one's session and queue. The pieces are the
flow results of `Process`; here they are put together. -/

namespace P2pVpn

section

variable {Host SecretKey PublicKey Signature : Type} [DecidableEq Host]
  {cfg : MeshConfig Host SecretKey PublicKey Signature} {m m' : Mesh Host} {a : MeshAction Host}
  {acts : List (MeshAction Host)}

/-! ## Ends -/

theorem MeshConfig.ends_of_side {conn : Nat} {h : Host} {x : Party}
    (hside : cfg.side conn h = some x) : cfg.ends conn x = h := by
  unfold MeshConfig.side at hside
  split_ifs at hside with ha hb
  · obtain rfl := Option.some.inj hside
    exact ha
  · obtain rfl := Option.some.inj hside
    exact hb

theorem MeshConfig.side_ends (conn : Nat) (x : Party) :
    cfg.side conn (cfg.ends conn x) = some x := by
  cases x with
  | a => simp [MeshConfig.side]
  | b => simp [MeshConfig.side, cfg.ends_ne conn]

theorem MeshConfig.remote_symm {conn : Nat} {h h' : Host} (hremote : cfg.remote conn h = some h') :
    cfg.remote conn h' = some h := by
  obtain ⟨x, hside, rfl⟩ := Option.map_eq_some_iff.1 hremote
  unfold MeshConfig.remote
  rw [MeshConfig.side_ends, Option.map_some, Party.other_other, MeshConfig.ends_of_side hside]

/-! ## Steps -/

namespace Mesh

theorem step_host {h : Host} {e : HostEvent Host} (hstep : m.step cfg (.host h e) = some m') :
    ∃ b s, cfg.honest h = true ∧ m.processAction cfg h e = some b ∧
      (m.process h).step (cfg.process h) b = some s ∧ m' = (m.record h e).advance h b s := by
  simp only [step] at hstep
  split_ifs at hstep with hhonest
  split at hstep
  · next b hb =>
      obtain ⟨s, hs, rfl⟩ := Option.map_eq_some_iff.1 hstep
      exact ⟨b, s, hhonest, hb, hs, rfl⟩
  · exact absurd hstep (by simp)

theorem step_handshake {h : Host} {i : Nat} {ha : HandshakeAction}
    (hstep : m.step cfg (.handshake h i ha) = some m') :
    ∃ conn s, (m.handshake conn).step (cfg.handshake conn) ha = some s ∧
      m' = { m with handshake := Function.update m.handshake conn s } := by
  simp only [step, handshakeStep] at hstep
  split at hstep
  · next conn x _ =>
      split_ifs at hstep
      obtain ⟨s, hs, rfl⟩ := Option.map_eq_some_iff.1 hstep
      exact ⟨conn, s, hs, rfl⟩
  · exact absurd hstep (by simp)

theorem step_lose {d : WireDatagram Host} (hstep : m.step cfg (.lose d) = some m') :
    d ∈ m.wire ∧ m' = { m with wire := m.wire.erase d } := by
  simp only [step] at hstep
  split_ifs at hstep with hmem
  exact ⟨hmem, (Option.some.inj hstep).symm⟩

theorem step_inject {d : WireDatagram Host} (hstep : m.step cfg (.inject d) = some m') :
    cfg.honest d.sender = false ∧ m' = { m with wire := m.wire ++ [d] } := by
  simp only [step] at hstep
  split_ifs at hstep with hhonest
  exact ⟨by simpa using hhonest, (Option.some.inj hstep).symm⟩

/-- What the others' part in an event can be. -/
inductive HostRule (cfg : MeshConfig Host SecretKey PublicKey Signature) (m : Mesh Host) (h : Host) :
    HostEvent Host → ProcessAction → Prop where
  | own {b : ProcessAction} (hown : b.isOwn = true) : HostRule cfg m h (.own b) b
  | connect {i conn : Nat} (hremote : cfg.remote conn h = some (cfg.peer h i)) :
      HostRule cfg m h (.connect i conn) (.node (.session i (.connected conn)))
  | shaken {i conn : Nat} {x : Party} {result : Except HandshakeError RoutesChanged}
      (hphase : ((m.process h).node.sessions i).phase = .handshaking conn)
      (hside : cfg.side conn h = some x) (hresult : (m.handshake conn).result x = some result) :
      HostRule cfg m h (.shaken i) (.node (.session i (.handshake result)))
  | shakenWith {i conn : Nat} {x : Party} {answer : Except HandshakeError ControlRequest}
      {result : Except HandshakeError RoutesChanged}
      (hphase : ((m.process h).node.sessions i).phase = .handshaking conn)
      (hside : cfg.side conn h = some x) (hhostile : cfg.honest (cfg.ends conn x.other) = false)
      (hanswer : cfg.answered h (cfg.ends conn x.other) answer = some result) :
      HostRule cfg m h (.shakenWith i answer) (.node (.session i (.handshake result)))
  | deliver {i : Nat} {d : WireDatagram Host} (hmem : d ∈ m.wire)
      (hphase : ((m.process h).node.sessions i).phase = .receiving d.conn)
      (hremote : cfg.remote d.conn h = some d.sender) :
      HostRule cfg m h (.deliver i d) (.readDatagram i d.bytes)

theorem handshaking_eq_some {h : Host} {i conn : Nat} {x : Party}
    (hh : m.handshaking cfg h i = some (conn, x)) :
    ((m.process h).node.sessions i).phase = .handshaking conn ∧ cfg.side conn h = some x := by
  unfold handshaking at hh
  split at hh
  · next c hphase =>
      obtain ⟨y, hside, heq⟩ := Option.map_eq_some_iff.1 hh
      obtain ⟨rfl, rfl⟩ := Prod.mk.inj heq
      exact ⟨hphase, hside⟩
  · exact absurd hh (by simp)

omit [DecidableEq Host] in
theorem phase_of_receives {h : Host} {i conn : Nat} (hreceives : m.receives h i conn = true) :
    ((m.process h).node.sessions i).phase = .receiving conn := by
  unfold receives at hreceives
  split at hreceives
  · next c hphase =>
      obtain rfl : c = conn := by simpa using hreceives
      exact hphase
  · exact absurd hreceives (by simp)

theorem processAction_sound {h : Host} {e : HostEvent Host} {b : ProcessAction}
    (hb : m.processAction cfg h e = some b) : HostRule cfg m h e b := by
  cases e with
  | own b' =>
      simp only [processAction] at hb
      split_ifs at hb with hown
      obtain rfl := Option.some.inj hb
      exact .own hown
  | connect i conn =>
      simp only [processAction] at hb
      split_ifs at hb with hguard
      obtain rfl := Option.some.inj hb
      exact .connect hguard.2
  | shaken i =>
      simp only [processAction] at hb
      split at hb
      · next conn x hh =>
          obtain ⟨hphase, hside⟩ := handshaking_eq_some hh
          split_ifs at hb
          obtain ⟨result, hresult, rfl⟩ := Option.map_eq_some_iff.1 hb
          exact .shaken hphase hside hresult
      · exact absurd hb (by simp)
  | shakenWith i answer =>
      simp only [processAction] at hb
      split at hb
      · next conn x hh =>
          obtain ⟨hphase, hside⟩ := handshaking_eq_some hh
          split_ifs at hb with hhonest
          obtain ⟨result, hanswer, rfl⟩ := Option.map_eq_some_iff.1 hb
          exact .shakenWith hphase hside (by simpa using hhonest) hanswer
      · exact absurd hb (by simp)
  | deliver i d =>
      simp only [processAction] at hb
      split_ifs at hb with hguard
      obtain rfl := Option.some.inj hb
      exact .deliver hguard.1 (phase_of_receives hguard.2.1) hguard.2.2

theorem actionAt_sound {h : Host} {b : ProcessAction} (hb : actionAt cfg h m a = some b) :
    ∃ e, a = .host h e ∧ HostRule cfg m h e b := by
  cases a with
  | host h' e =>
      simp only [actionAt] at hb
      split_ifs at hb with heq
      subst heq
      exact ⟨e, rfl, processAction_sound hb⟩
  | _ => exact absurd hb (by simp [actionAt])

@[simp] theorem process_record (m : Mesh Host) (h : Host) (e : HostEvent Host) :
    (m.record h e).process = m.process := by
  cases e <;> rfl

@[simp] theorem handshake_record (m : Mesh Host) (h : Host) (e : HostEvent Host) :
    (m.record h e).handshake = m.handshake := by
  cases e <;> rfl

/-- **Each host runs its process.** -/
theorem isPart (cfg : MeshConfig Host SecretKey PublicKey Signature) (h : Host) :
    IsPart (Mesh.step cfg) (Process.step (cfg.process h)) (fun m => m.process h)
      (actionAt cfg h) := by
  intro m a m' hstep
  cases a with
  | host h' e =>
      obtain ⟨b, s, -, hb, hs, rfl⟩ := step_host hstep
      by_cases heq : h' = h
      · subst heq
        simp [actionAt, hb, hs, advance]
      · simp [actionAt, heq, advance, Function.update_of_ne (Ne.symm heq)]
  | handshake h' i ha =>
      obtain ⟨conn, s, -, rfl⟩ := step_handshake hstep
      exact ⟨nofun, fun _ => rfl⟩
  | lose d =>
      obtain ⟨-, rfl⟩ := step_lose hstep
      exact ⟨nofun, fun _ => rfl⟩
  | inject d =>
      obtain ⟨-, rfl⟩ := step_inject hstep
      exact ⟨nofun, fun _ => rfl⟩

/-! ## The network -/

/-- The bytes of a datagram from `p` to `q`. -/
def bytesBetween (cfg : MeshConfig Host SecretKey PublicKey Signature) (p q : Host)
    (d : WireDatagram Host) : Option (List UInt8) :=
  if d.sender = p ∧ cfg.remote d.conn p = some q then some d.bytes else none

/-- What `p` puts on the wire to `q`. -/
def transmitted (cfg : MeshConfig Host SecretKey PublicKey Signature) (p q : Host) (m : Mesh Host)
    (a : MeshAction Host) : Option (List UInt8) :=
  (seenAt cfg p Process.transmitted m a).bind fun sent => bytesBetween cfg p q (datagramOf p sent)

/-- What arrives at `q` from `p`. -/
def delivered (cfg : MeshConfig Host SecretKey PublicKey Signature) (p q : Host) (_ : Mesh Host) :
    MeshAction Host → Option (List UInt8)
  | .host h (.deliver _ d) => if h = q then bytesBetween cfg p q d else none
  | _ => none

/-- What is on its way from `p` to `q`. -/
def inFlight (cfg : MeshConfig Host SecretKey PublicKey Signature) (p q : Host) (m : Mesh Host) :
    List (List UInt8) :=
  m.wire.filterMap (bytesBetween cfg p q)

variable {p q : Host}

theorem perm_filterMap_erase {d : WireDatagram Host} {wire : List (WireDatagram Host)}
    (hmem : d ∈ wire) (f : WireDatagram Host → Option (List UInt8)) :
    ((f d).toList ++ (wire.erase d).filterMap f).Perm (wire.filterMap f) := by
  have hperm := ((List.perm_cons_erase hmem).filterMap f).symm
  cases hf : f d with
  | none => rwa [List.filterMap_cons_none hf] at hperm
  | some bytes => rwa [List.filterMap_cons_some hf] at hperm

/-- What an event takes off the wire. -/
theorem delivered_record {h : Host} {e : HostEvent Host} {b : ProcessAction}
    (hb : m.processAction cfg h e = some b) :
    ((delivered cfg p q m (.host h e)).toList ++ inFlight cfg p q (m.record h e)).Subperm
      (inFlight cfg p q m) := by
  cases e with
  | deliver i d =>
      simp only [processAction] at hb
      split_ifs at hb with hguard
      have hperm := perm_filterMap_erase hguard.1 (bytesBetween cfg p q)
      refine List.Subperm.trans ?_ hperm.subperm
      refine FlowRel.subperm.append ?_ (.refl _)
      simp only [delivered]
      split_ifs
      · exact .refl _
      · exact List.nil_subperm
  | _ => exact .refl _

/-- What a process puts on it. -/
theorem inFlight_advance {h : Host} {e : HostEvent Host} {b : ProcessAction} {s : Process}
    (hb : m.processAction cfg h e = some b) :
    inFlight cfg p q ((m.record h e).advance h b s)
      = inFlight cfg p q (m.record h e) ++ (transmitted cfg p q m (.host h e)).toList := by
  have hnew : (((m.process h).transmitted b).map (datagramOf h)).toList.filterMap
      (bytesBetween cfg p q) = (transmitted cfg p q m (.host h e)).toList := by
    by_cases heq : h = p
    · subst heq
      cases hsent : (m.process h).transmitted b with
      | none => simp [transmitted, seenAt, seen, actionAt, hb, hsent]
      | some sent =>
          cases hbytes : bytesBetween cfg h q (datagramOf h sent) <;>
            simp [transmitted, seenAt, seen, actionAt, hb, hsent, hbytes]
    · cases hsent : (m.process h).transmitted b with
      | none => simp [transmitted, seenAt, seen, actionAt, heq]
      | some sent => simp [transmitted, seenAt, seen, actionAt, heq, bytesBetween, datagramOf]
  unfold inFlight advance
  rw [List.filterMap_append, process_record, hnew]

/-- **Nothing arrives twice, and nothing that was not sent.** -/
theorem delivered_subperm (hp : cfg.honest p = true)
    (hrun : runFrom (Mesh.step cfg) m acts = some m') :
    (trace (Mesh.step cfg) (delivered cfg p q) m acts ++ inFlight cfg p q m').Subperm
      (inFlight cfg p q m ++ trace (Mesh.step cfg) (transmitted cfg p q) m acts) := by
  have hstep : ∀ (t : Mesh Host) a t', True → True → t.step cfg a = some t' →
      ((delivered cfg p q t a).toList ++ inFlight cfg p q t').Subperm
        (inFlight cfg p q t ++ (transmitted cfg p q t a).toList) := by
    intro t a t' _ _ hs
    cases a with
    | host h e =>
        obtain ⟨b, s, -, hb, -, rfl⟩ := step_host hs
        rw [inFlight_advance hb, ← List.append_assoc]
        exact FlowRel.subperm.append (delivered_record hb) (.refl _)
    | handshake h i ha =>
        obtain ⟨conn, s, -, rfl⟩ := step_handshake hs
        exact (List.sublist_append_left _ _).subperm
    | lose d =>
        obtain ⟨hmem, rfl⟩ := step_lose hs
        exact ((List.erase_sublist.filterMap _).trans (List.sublist_append_left _ _)).subperm
    | inject d =>
        obtain ⟨hhostile, rfl⟩ := step_inject hs
        have hne : d.sender ≠ p := by
          rintro rfl
          exact absurd (hp.symm.trans hhostile) (by simp)
        have hsame : inFlight cfg p q { t with wire := t.wire ++ [d] } = inFlight cfg p q t := by
          simp [inFlight, bytesBetween, hne]
        rw [hsame]
        exact (List.sublist_append_left _ _).subperm
  exact flow_of_meets FlowRel.subperm (fun _ _ _ _ _ _ => trivial) hstep trivial
    (RunMeets.of_forall m acts fun _ _ _ => trivial) hrun

/-! ## The receiving host -/

/-- Each session works on a connection to its configured peer. -/
def SessionsLinked (cfg : MeshConfig Host SecretKey PublicKey Signature) (h : Host) (m : Mesh Host) :
    Prop :=
  ∀ i conn, ((m.process h).node.sessions i).phase.conn? = some conn →
    cfg.remote conn h = some (cfg.peer h i)

theorem conn?_of_process {pcfg : ProcessConfig} {s s' : Process} {b : ProcessAction} {i conn : Nat}
    (hstep : s.step pcfg b = some s') (hconn : (s'.node.sessions i).phase.conn? = some conn) :
    (s.node.sessions i).phase.conn? = some conn ∨ b = .node (.session i (.connected conn)) := by
  cases (Process.step_sound hstep).2 with
  | @node na node hnode hhand =>
      rcases Node.step_cases hnode with ⟨j, sa, rfl, hs⟩ | ⟨c, rfl, rfl⟩
      · rcases hs.conn?_eq_some hconn with hold | ⟨rfl, rfl⟩
        · exact Or.inl hold
        · exact Or.inr rfl
      · exact Or.inl hconn
  | @datagramRefused j bytes node hhand hclosed hnode =>
      rcases Node.step_cases hnode with ⟨j, sa, hsa, hs⟩ | ⟨c, hc, -⟩
      · rcases hs.conn?_eq_some hconn with hold | ⟨rfl, rfl⟩
        · exact Or.inl hold
        · exact absurd hsa (by simp)
      · exact absurd hc (by simp)
  | _ => exact Or.inl hconn

theorem SessionsLinked.step {h : Host} (hlinked : SessionsLinked cfg h m)
    (hstep : m.step cfg a = some m') : SessionsLinked cfg h m' := by
  intro i conn hconn
  obtain ⟨hpart, hsame⟩ := isPart cfg h m a m' hstep
  cases hb : actionAt cfg h m a with
  | none =>
      have hsame : m'.process h = m.process h := hsame hb
      rw [hsame] at hconn
      exact hlinked i conn hconn
  | some b =>
      rcases conn?_of_process (hpart b hb) hconn with hold | rfl
      · exact hlinked i conn hold
      · -- only the link hands out a connection, and only one to the session's peer
        obtain ⟨e, -, hrule⟩ := actionAt_sound hb
        cases hrule with
        | own hown => exact absurd hown (by simp [ProcessAction.isOwn])
        | connect hremote => exact hremote

theorem sessionsLinked_of_isNew (hnew : m.IsNew cfg) (h : Host) : SessionsLinked cfg h m := by
  intro i conn hconn
  obtain ⟨pool, -, hprocess⟩ := Option.map_eq_some_iff.1 (hnew.process h)
  rw [← hprocess] at hconn
  exact absurd hconn (by simp [Node.new, Session.new, Phase.conn?])

/-- A session reads only what its peer sent. -/
theorem datagramRead_sublist (hnew : m.IsNew cfg) (hrun : runFrom (Mesh.step cfg) m acts = some m')
    (q : Host) (i : Nat) :
    (trace (Mesh.step cfg) (seenAt cfg q (Process.datagramRead i)) m acts).Sublist
      (trace (Mesh.step cfg) (delivered cfg (cfg.peer q i) q) m acts) := by
  have hI : ∀ (t : Mesh Host) a t', SessionsLinked cfg q t → True → t.step cfg a = some t' →
      SessionsLinked cfg q t' := fun _ _ _ h _ hs => h.step hs
  have hseen : ∀ (t : Mesh Host) a t' bytes, SessionsLinked cfg q t → True →
      t.step cfg a = some t' → seenAt cfg q (Process.datagramRead i) t a = some bytes →
      ∃ bytes', delivered cfg (cfg.peer q i) q t a = some bytes' ∧ bytes = bytes' := by
    intro t a t' bytes hlinked _ _ hseen
    obtain ⟨b, hb, hread⟩ := Option.bind_eq_some_iff.1 hseen
    obtain ⟨e, rfl, hrule⟩ := actionAt_sound hb
    cases hrule with
    | @deliver j d hmem hphase hremote =>
        simp only [Process.datagramRead] at hread
        split_ifs at hread with hij
        subst hij
        obtain rfl := Option.some.inj hread
        have hpeer := hlinked j d.conn (by simp [hphase, Phase.conn?])
        have hsender := Option.some.inj (hremote.symm.trans hpeer)
        have hback := MeshConfig.remote_symm hpeer
        exact ⟨d.bytes, by simp [delivered, bytesBetween, hsender, hback], rfl⟩
    | own hown =>
        cases b with
        | readDatagram j bytes => exact absurd hown (by simp [ProcessAction.isOwn])
        | _ => exact absurd hread (by simp [Process.datagramRead])
    | _ => exact absurd hread (by simp [Process.datagramRead])
  have hall := trace_sublistForall₂ hI hseen (sessionsLinked_of_isNew hnew q)
    (RunMeets.of_forall m acts fun _ _ _ => trivial) hrun
  obtain ⟨l, hforall, hsub⟩ := List.sublistForall₂_iff.1 hall
  rw [List.forall₂_eq_eq_eq] at hforall
  rwa [hforall]

/-! ## The sending host -/

/-- All handshakes between honest hosts are runs of the program at both ends. -/
def HandshakesSound (cfg : MeshConfig Host SecretKey PublicKey Signature) (m : Mesh Host) : Prop :=
  ∀ conn, HandshakeInv (cfg.handshake conn) (m.handshake conn)

theorem HandshakesSound.step (hsound : HandshakesSound cfg m) (hstep : m.step cfg a = some m') :
    HandshakesSound cfg m' := by
  cases a with
  | host h e =>
      obtain ⟨b, s, -, -, -, rfl⟩ := step_host hstep
      simpa [HandshakesSound, advance] using hsound
  | handshake h i ha =>
      obtain ⟨conn, s, hs, rfl⟩ := step_handshake hstep
      intro c
      by_cases hc : c = conn
      · subst hc
        simpa using (hsound c).step hs
      · simpa [Function.update_of_ne hc] using hsound c
  | lose d =>
      obtain ⟨-, rfl⟩ := step_lose hstep
      exact hsound
  | inject d =>
      obtain ⟨-, rfl⟩ := step_inject hstep
      exact hsound

end Mesh

/-- If the host is honest, the address is the one it generates. -/
def MeshConfig.Owns (cfg : MeshConfig Host SecretKey PublicKey Signature) (h : Host) (ip : IpAddr) :
    Prop :=
  cfg.honest h = true → ip = (cfg.ownNet h).addr

/-- What `p` may have in its relay. -/
def MeshConfig.Grant (cfg : MeshConfig Host SecretKey PublicKey Signature) (p : Host)
    (peer : ConnectedPeer) (ip : IpAddr) : Prop :=
  ∀ q, cfg.remote peer.conn p = some q → cfg.Owns q ip

omit [DecidableEq Host] in
/-- An honest host advertises its own address only. -/
theorem MeshConfig.owns_of_handshake (htext : cfg.lib.NetTextRoundTrip) {conn : Nat} {x : Party}
    {s : HandshakeState} (hinv : HandshakeInv (cfg.handshake conn) s) {routes : RoutesChanged}
    (hok : s.result x = some (.ok routes)) {ip : IpAddr} (hip : ip ∈ routes.routes) :
    cfg.Owns (cfg.ends conn x.other) ip := by
  obtain ⟨-, hroutes⟩ := hinv.routes hok
  obtain ⟨host, hhost, net, hvalid, -, rfl⟩ := hroutes ip hip
  obtain ⟨hparse, -⟩ := (validateAddress_ok_iff _ _ _ _).1 hvalid
  intro _
  obtain rfl := List.mem_singleton.1 hhost
  have hnet := Option.some.inj ((htext _).symm.trans hparse)
  exact congrArg IpNet.addr hnet.symm

namespace Mesh

/-- The handshakes grant no peer an address that is not its own. -/
theorem HandshakesSound.grants (hsound : HandshakesSound cfg m) (htext : cfg.lib.NetTextRoundTrip)
    {h : Host} {b : ProcessAction} (hb : actionAt cfg h m a = some b) :
    (m.process h).Grants (cfg.Grant h) b := by
  obtain ⟨e, -, hrule⟩ := actionAt_sound hb
  cases hrule with
  | own hown =>
      unfold Process.Grants
      split
      · unfold Node.Grants
        split
        · exact absurd hown (by simp [ProcessAction.isOwn])
        · trivial
      · trivial
  | @shaken i conn x result hphase hside hresult =>
      cases result with
      | error e => trivial
      | ok changed =>
          intro conn' hphase' ip hip q hremote
          obtain rfl : conn = conn' := by simpa using hphase.symm.trans hphase'
          obtain ⟨y, hside', rfl⟩ := Option.map_eq_some_iff.1 hremote
          obtain rfl := Option.some.inj (hside.symm.trans hside')
          exact MeshConfig.owns_of_handshake htext (hsound conn) hresult hip
  | @shakenWith i conn x answer result hphase hside hhostile hanswer =>
      cases result with
      | error e => trivial
      | ok changed =>
          intro conn' hphase' ip hip q hremote
          obtain rfl : conn = conn' := by simpa using hphase.symm.trans hphase'
          obtain ⟨y, hside', rfl⟩ := Option.map_eq_some_iff.1 hremote
          obtain rfl := Option.some.inj (hside.symm.trans hside')
          exact fun hhonest => absurd (hhostile.symm.trans hhonest) (by simp)
  | connect hremote => trivial
  | deliver hmem hphase hremote => trivial

/-- The datagram is the frame or its marked form, for an address of its receiver. -/
structure Carries (cfg : MeshConfig Host SecretKey PublicKey Signature) (p q : Host)
    (bytes frame : List UInt8) : Prop where
  dest : ∃ ip, packetDest (cfg.process p).rules frame = some ip ∧ cfg.Owns q ip
  bytes : bytes = frame ∨ processPacketCongestion (cfg.process p).rules frame = some (bytes, .forward)

/-- What an honest host sends to another goes back to frames of its device. -/
theorem transmitted_carries (htext : cfg.lib.NetTextRoundTrip) (hnew : m.IsNew cfg)
    (hrun : runFrom (Mesh.step cfg) m acts = some m') (p q : Host) :
    ∃ sent, (trace (Mesh.step cfg) (transmitted cfg p q) m acts).Subperm sent ∧
      List.SublistForall₂ (Carries cfg p q) sent
        (trace (Mesh.step cfg) (frameRead cfg p) m acts) := by
  have hpart := isPart cfg p
  have hrunp := hpart.run_eq_some hrun
  have hsound : RunSatisfies (Mesh.step cfg) (HandshakesSound cfg) m acts := by
    have hstep : ∀ (t : Mesh Host) a t', HandshakesSound cfg t → True → t.step cfg a = some t' →
        HandshakesSound cfg t' := fun _ _ _ h _ hs => h.step hs
    refine runSatisfies_of_meets hstep ?_ (RunMeets.of_forall m acts fun _ _ _ => trivial)
    intro conn
    rw [hnew.handshake conn]
    exact .new _
  have hmeets : RunMeets (Mesh.step cfg) (fun t a => ∀ b, actionAt cfg p t a = some b →
      (t.process p).Grants (cfg.Grant p) b) m acts := by
    refine hsound.meets ?_
    intro t a ht b hb
    exact ht.grants htext hb
  have hgrants := hpart.runMeets hmeets hrun
  have hwire := (List.sublist_append_left _ _).subperm.trans
    (Process.transmitted_as_sent (hnew.process p) hrunp)
  have hconveys := Process.datagramSent_conveys (hnew.process p) hrunp hgrants
  rw [hpart.trace_eq _ hrun] at hconveys
  rw [hpart.trace_eq Process.frameRead hrun] at hconveys
  rw [hpart.trace_eq Process.transmitted hrun, hpart.trace_eq _ hrun] at hwire
  refine ⟨_, ?_, sublistForall₂_filterMap (f := fun sent => bytesBetween cfg p q (datagramOf p sent))
    ?_ hconveys⟩
  · have heq : trace (Mesh.step cfg) (transmitted cfg p q) m acts
        = (trace (Mesh.step cfg) (seenAt cfg p Process.transmitted) m acts).filterMap
          (fun sent => bytesBetween cfg p q (datagramOf p sent)) := trace_bind _ _ m acts
    rw [heq]
    exact subperm_filterMap _ hwire
  · intro sent frame bytes h hbytes
    simp only [bytesBetween, datagramOf] at hbytes
    split_ifs at hbytes with hguard
    obtain rfl := Option.some.inj hbytes
    obtain ⟨ip, hdest, hgrant⟩ := h.dest
    exact ⟨⟨ip, hdest, hgrant q hguard.2⟩, h.bytes⟩

/-- **Delivered to the owner.** In every run of a network of hosts, some of which do what they like:
    what the device of an honest host `q` is asked to write for a session goes back, one to one, to
    frames of the device of the session's peer, if that one is honest too, unchanged or with their
    congestion mark, and all of these frames are for the one address that `q` has. -/
theorem delivered_to_owner (htext : cfg.lib.NetTextRoundTrip) (hnew : m.IsNew cfg)
    (hrun : runFrom (Mesh.step cfg) m acts = some m') (q : Host) (i : Nat)
    (hq : cfg.honest q = true) (hp : cfg.honest (cfg.peer q i) = true) :
    ∃ sent, (trace (Mesh.step cfg) (frameWritten cfg q i) m acts).Subperm sent ∧
      List.SublistForall₂ (fun bytes frame =>
          packetDest (cfg.process (cfg.peer q i)).rules frame = some (cfg.ownNet q).addr ∧
            (bytes = frame ∨ processPacketCongestion (cfg.process (cfg.peer q i)).rules frame
              = some (bytes, .forward)))
        sent (trace (Mesh.step cfg) (frameRead cfg (cfg.peer q i)) m acts) := by
  have hpart := isPart cfg q
  have hwritten := (List.sublist_append_left _ _).trans
    (Process.written_sublist_read (hnew.process q) (hpart.run_eq_some hrun) i)
  rw [hpart.trace_eq (Process.frameWritten i) hrun,
    hpart.trace_eq (Process.datagramRead i) hrun] at hwritten
  have hread := datagramRead_sublist hnew hrun q i
  have hempty : inFlight cfg (cfg.peer q i) q m = [] := by simp [inFlight, hnew.wire]
  have hdelivered := delivered_subperm (q := q) hp hrun
  rw [hempty, List.nil_append] at hdelivered
  obtain ⟨sent, htransmitted, hcarries⟩ := transmitted_carries htext hnew hrun (cfg.peer q i) q
  refine ⟨sent, ?_, ?_⟩
  · exact ((hwritten.trans hread).trans (List.sublist_append_left _ _)).subperm.trans
      (hdelivered.trans htransmitted)
  · obtain ⟨frames, hforall, hsub⟩ := List.sublistForall₂_iff.1 hcarries
    refine List.sublistForall₂_iff.2 ⟨frames, hforall.imp ?_, hsub⟩
    rintro bytes frame ⟨⟨ip, hdest, howns⟩, hbytes⟩
    exact ⟨howns hq ▸ hdest, hbytes⟩

end Mesh

end

/-! ## Two hosts -/

theorem Party.a_ne_b : Party.a ≠ .b := by decide

/-- Two honest hosts, one at either end of every connection. -/
def sampleMesh : MeshConfig Party UInt8 UInt8 (UInt8 × List UInt8) where
  lib := transparentLibrary sampleText sampleNet
  codec := protoCodec
  honest _ := true
  process _ := .sample
  secretKey x := if x = .a then 8 else 7
  subnet _ := 0
  peer x _ := x.other
  ends _ x := x
  ends_ne _ := Party.a_ne_b

namespace Mesh

/-- The two shake hands. -/
def sampleShake : List (MeshAction Party) :=
  let shake : List HandshakeAction :=
    undisturbed ++ [.exchange .a (.respond .acked)] ++ readAnswer .b ++ [.join .b]
  shake.map fun a => .handshake (a.actor.getD .a) 0 a

/-- A packet goes from `a`'s device to `b`'s. -/
def sampleMeshRun : List (MeshAction Party) :=
  let own (h : Party) (acts : List ProcessAction) : List (MeshAction Party) :=
    acts.map fun a => .host h (.own a)
  let relay : List ProcessAction :=
    [.acquire, .poll 0, .osReply 0 true true, .poll 0, .finish].map fun ca =>
      .node (.session 0 (.relay ca))
  [.host .a (.connect 0 7), .host .b (.connect 0 7)] ++ sampleShake ++
    [.host .a (.shaken 0), .host .b (.shaken 0)] ++ own .a relay ++ own .b relay ++
    own .a (sampleRead Process.signedPacket ++
      [.recvRxPacket, .iterate ⟨fun _ => none, fun _ => ⟨default, none, true, .ok ()⟩⟩,
        .release ⟨⟨7⟩, 0⟩ true]) ++
    [.host .b (.deliver 0 ⟨.a, 7, Process.signedPacket⟩)] ++
    own .b [.sendTxPacket 0, .tun .recvPacket, .tun (.frameSent (.ok Process.signedPacket.length))]

/-- Two hosts that have just started, both with the process `s`. -/
def startOf (s : Process) : Mesh Party := ⟨fun _ => s, fun _ => .new, fun _ _ => false, []⟩

set_option maxRecDepth 20000 in
theorem delivered_to_owner_sample :
    ∃ m m', m.IsNew sampleMesh ∧ runFrom (Mesh.step sampleMesh) m sampleMeshRun = some m' ∧
      trace (Mesh.step sampleMesh) (frameWritten sampleMesh .b 0) m sampleMeshRun
        = [Process.signedPacket] ∧
      packetDest .lenient Process.signedPacket = some (sampleMesh.ownNet .b).addr := by
  have hall : (Process.new .sample).any (fun s => decide
      (((runFrom (Mesh.step sampleMesh) (startOf s) sampleMeshRun).isSome = true) ∧
        trace (Mesh.step sampleMesh) (frameWritten sampleMesh .b 0) (startOf s) sampleMeshRun
          = [Process.signedPacket] ∧
        trace (Mesh.step sampleMesh) (frameRead sampleMesh .a) (startOf s) sampleMeshRun
          = [Process.signedPacket])) = true := by
    decide +kernel
  obtain ⟨s, hs, hsome, hwritten, hread⟩ := exists_of_any hall
  obtain ⟨m', hrun⟩ := Option.isSome_iff_exists.1 hsome
  have hnew : (startOf s).IsNew sampleMesh := ⟨fun _ => hs, fun _ => rfl, rfl⟩
  obtain ⟨sent, hsub, hcarries⟩ := delivered_to_owner
    (transparentLibrary_netText sampleText sampleNet (by decide)) hnew hrun .b 0 rfl rfl
  refine ⟨startOf s, m', hnew, hrun, hwritten, ?_⟩
  have hframes : List.SublistForall₂ _ sent [Process.signedPacket] := hread ▸ hcarries
  cases hframes with
  | nil => exact absurd hsub (by rw [hwritten]; simp)
  | cons h _ => exact h.1
  | cons_right h =>
      cases h
      exact absurd hsub (by rw [hwritten]; simp)

end Mesh

end P2pVpn
