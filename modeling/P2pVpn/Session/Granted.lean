import P2pVpn.Session.Steps

set_option autoImplicit false

/-! # Which peer may have which address

A handshake on a connection grants addresses to the peer at its other end. Whatever the sessions do
concurrently, and however often an address changes hands, the relay never has a peer at an address
that was not granted to it. -/

namespace P2pVpn

section

variable {T : Type} {G : T → IpAddr → Prop}

/-- The relay dispatches an address only to a value that has it. -/
def RelayState.Granted (G : T → IpAddr → Prop) (s : RelayState T) : Prop :=
  ∀ ip entry v, s.peerMap ip = some entry → entry.value = some v → G v ip

/-- So do the entries a call is about to make. -/
def Call.Granted (G : T → IpAddr → Prop) : Call T → Prop
  | .insertLock destIps value => ∀ ip ∈ destIps, G value ip
  | .inserting value futures => ∀ ip f, (ip, f) ∈ futures → G value ip
  | .removeLock _ next => ∀ ips v, next = some (ips, v) → ∀ ip ∈ ips, G v ip
  | .removing _ next => ∀ ips v, next = some (ips, v) → ∀ ip ∈ ips, G v ip
  | .rollback _ => True
  | .returned _ => True

theorem Call.Granted.reconcile {current : List IpAddr} {v : T} (h : ∀ ip ∈ current, G v ip)
    (previous : List IpAddr) : (Call.reconcile current previous v).Granted G := by
  unfold Call.reconcile
  simp only
  split_ifs
  · exact h
  · intro ips w heq
    obtain ⟨rfl, rfl⟩ := Prod.mk.inj (Option.some.inj heq)
    exact h

variable {s s' : RelayState T}

/-- An entry with a value that has the address may be put at it. -/
theorem RelayState.Granted.setEntry (h : s.Granted G) {ip : IpAddr} {entry : PeerValue T}
    (hentry : ∀ v, entry.value = some v → G v ip) : (s.setEntry ip entry).Granted G := by
  intro ip' entry' v hget hv
  by_cases heq : ip' = ip
  · subst heq
    obtain rfl : entry = entry' := by simpa [RelayState.setEntry] using hget
    exact hentry v hv
  · exact h ip' entry' v (by simpa [RelayState.setEntry, Function.update_of_ne heq] using hget) hv

theorem RelayState.Granted.removeEntry (h : s.Granted G) (ip : IpAddr) :
    (s.removeEntry ip).Granted G := by
  intro ip' entry' v hget hv
  by_cases heq : ip' = ip
  · simp [RelayState.removeEntry, heq] at hget
  · exact h ip' entry' v (by simpa [RelayState.removeEntry, Function.update_of_ne heq] using hget) hv

theorem RelayState.Granted.parkOne (h : s.Granted G) (ip : IpAddr) : (s.parkOne ip).Granted G := by
  unfold RelayState.parkOne
  cases s.peerMap ip with
  | none => exact h
  | some entry => exact h.setEntry (by simp)

theorem RelayState.Granted.park (h : s.Granted G) (ips : List IpAddr) : (s.park ips).Granted G := by
  unfold RelayState.park
  induction ips generalizing s with
  | nil => exact h
  | cons ip rest ih => exact ih (h.parkOne ip)

variable {os : OsRules} {value : T}

theorem InsertStep.granted {futures futures' : List (IpAddr × InsertFuture)} {ca : CallAction}
    (hstep : InsertStep os value s futures ca s' futures') (h : s.Granted G)
    (hc : (Call.inserting value futures).Granted G) :
    s'.Granted G ∧ (Call.inserting value futures').Granted G := by
  -- the futures keep their addresses
  have hset : ∀ {i : Nat} {ip : IpAddr} {f f' : InsertFuture}, futures[i]? = some (ip, f) →
      (Call.inserting value (futures.set i (ip, f'))).Granted G := by
    intro i ip f f' hfut ip' g hmem
    rcases List.mem_or_eq_of_mem_set hmem with hold | heq
    · exact hc ip' g hold
    · obtain ⟨rfl, -⟩ := Prod.mk.inj heq
      exact hc ip' f (List.mem_of_getElem? hfut)
  cases hstep with
  | @rearm i ip entry hfut hentry =>
      have hip : G value ip := hc ip _ (List.mem_of_getElem? hfut)
      refine ⟨h.setEntry fun v hv => ?_, hset hfut⟩
      obtain rfl := Option.some.inj hv
      exact hip
  | request hfut hentry => exact ⟨h, hset hfut⟩
  | reply hfut hos => exact ⟨h, hset hfut⟩
  | @register i ip hfut =>
      have hip : G value ip := hc ip _ (List.mem_of_getElem? hfut)
      refine ⟨RelayState.Granted.setEntry h fun v hv => ?_, hset hfut⟩
      obtain rfl := Option.some.inj hv
      exact hip
  | refused hfut => exact ⟨h, hset hfut⟩

theorem RemoveStep.granted {futures futures' : List (IpAddr × RemoveFuture)} {ca : CallAction}
    (hstep : RemoveStep os s futures ca s' futures') (h : s.Granted G) : s'.Granted G := by
  cases hstep with
  | untrack hfut hentry => exact h.removeEntry _
  | direct hfut hentry => exact h
  | reply hfut hos => exact h
  | done hfut => exact h

theorem CallStep.granted {me : Nat} {c c' : Call T} {ca : CallAction}
    (hstep : CallStep os me s c ca s' c') (h : s.Granted G) (hc : c.Granted G) :
    s'.Granted G ∧ c'.Granted G := by
  cases hstep with
  | lockInsert hfree =>
      refine ⟨h, ?_⟩
      intro ip f hmem
      obtain ⟨ip', hip', heq⟩ := List.mem_map.1 hmem
      obtain ⟨rfl, -⟩ := Prod.mk.inj heq
      exact hc ip' hip'
  | insert hstep => exact hstep.granted h hc
  | fail herr => exact ⟨h, trivial⟩
  | inserted hall => exact ⟨h, trivial⟩
  | undo hstep => exact ⟨hstep.granted h, trivial⟩
  | undone hall => exact ⟨h, trivial⟩
  | lockRemove hfree => exact ⟨h, hc⟩
  | remove hstep => exact ⟨hstep.granted h, hc⟩
  | @removed futures next hall =>
      refine ⟨h, ?_⟩
      cases next with
      | none => trivial
      | some batch => exact hc batch.1 batch.2 rfl

end

/-! ## Sessions -/

/-- The call a session is in the middle of. -/
def Phase.Granted (G : ConnectedPeer → IpAddr → Prop) : Phase → Prop
  | .registering _ _ call => call.Granted G
  | .withdrawing call => call.Granted G
  | _ => True

/-- The relay has, and will get, only addresses that were granted. -/
structure Node.Granted (G : ConnectedPeer → IpAddr → Prop) (n : Node) : Prop where
  relay : n.relay.Granted G
  session : ∀ i, (n.sessions i).phase.Granted G

/-- A handshake that succeeds grants what it returns. -/
def Node.Grants (G : ConnectedPeer → IpAddr → Prop) (n : Node) : NodeAction → Prop
  | .session i (.handshake (.ok changed)) =>
      ∀ conn, (n.sessions i).phase = .handshaking conn → ∀ ip ∈ changed.routes, G ⟨conn⟩ ip
  | _ => True

section

variable {cfg : NodeConfig} {G : ConnectedPeer → IpAddr → Prop} {n n' : Node} {i : Nat}

theorem Node.Granted.new (cfg : NodeConfig) : (Node.new cfg).Granted G :=
  ⟨fun ip entry v hget => by simp [Node.new, RelayState.new] at hget, fun _ => trivial⟩

theorem SessionStep.granted {a : SessionAction} (hstep : SessionStep cfg n i a n')
    (h : n.Granted G) (hgrants : n.Grants G (.session i a)) : n'.Granted G := by
  have hphase := h.session i
  -- the other sessions are where they were
  have hof : n'.relay.Granted G → (n'.sessions i).phase.Granted G → n'.Granted G := by
    intro hrelay hsession
    refine ⟨hrelay, fun j => ?_⟩
    by_cases hj : j = i
    · subst hj
      exact hsession
    · rw [hstep.sessions_of_ne hj]
      exact h.session j
  cases hstep with
  | connected conn hwaiting => exact hof h.relay (by simp [Phase.Granted])
  | disconnected hwaiting => exact hof (h.relay.park _) hphase
  | endNow hwaiting hempty => exact hof h.relay (by simp [Node.withdrawn, Phase.Granted])
  | startWithdraw hwaiting =>
      exact hof h.relay (by simp [Phase.Granted, Call.remove, Call.Granted])
  | handshakeFailed e hshaking => exact hof (by simpa using h.relay) (by simp [Phase.Granted])
  | handshakeOk changed hshaking =>
      refine hof h.relay ?_
      simp only [Node.sessions_setSession_self, Phase.Granted]
      exact .reconcile (hgrants _ hshaking) _
  | register hregistering hcall hrun =>
      rw [hregistering] at hphase
      obtain ⟨hrelay, hcall'⟩ := hcall.granted h.relay hphase
      exact hof hrelay (by simpa [Phase.Granted] using hcall')
  | registered hregistering hcall =>
      rw [hregistering] at hphase
      exact hof (hcall.granted h.relay hphase).1 (by simp [Phase.Granted])
  | rolledBack hregistering hcall =>
      rw [hregistering] at hphase
      exact hof (hcall.granted h.relay hphase).1 (by simp [Phase.Granted])
  | recvLoopEnded e hreceiving hclosed => exact hof (h.relay.park _) (by simp [Phase.Granted])
  | withdraw hwithdrawing hcall hrun =>
      rw [hwithdrawing] at hphase
      obtain ⟨hrelay, hcall'⟩ := hcall.granted h.relay hphase
      exact hof hrelay (by simpa [Phase.Granted] using hcall')
  | withdrawn hwithdrawing hcall =>
      rw [hwithdrawing] at hphase
      exact hof (hcall.granted h.relay hphase).1 (by simp [Node.withdrawn, Phase.Granted])

theorem Node.Granted.step {a : NodeAction} (h : n.Granted G) (hgrants : n.Grants G a)
    (hstep : n.step cfg a = some n') : n'.Granted G := by
  rcases Node.step_cases hstep with ⟨i, sa, rfl, hsession⟩ | ⟨conn, rfl, rfl⟩
  · exact hsession.granted h hgrants
  · exact ⟨h.relay, h.session⟩

/-- What the relay dispatches to was granted. -/
theorem Node.Granted.of_get (h : n.Granted G) {ip : IpAddr} {peer : ConnectedPeer}
    (hget : n.relay.get ip = some (.connected peer)) : G peer ip := by
  obtain ⟨entry, hentry, hvalue⟩ := Option.map_eq_some_iff.1 hget
  refine h.relay ip entry peer hentry ?_
  cases hv : entry.value with
  | none => simp [hv] at hvalue
  | some v => simpa [hv] using hvalue

end

end P2pVpn
