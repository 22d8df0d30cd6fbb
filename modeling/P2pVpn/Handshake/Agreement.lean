import P2pVpn.Handshake.Exchange

set_option autoImplicit false

/-! # Agreement of the two sides

The exchange invariants, carried through runs of the two sides, and what a successful handshake tells
a side about the other one. -/

namespace P2pVpn

section

variable {SecretKey PublicKey Signature : Type}
  {cfg : HandshakeConfig SecretKey PublicKey Signature} {x : Party} {e' : Exchange} {closed' : Bool}

/-! ## Runs -/

/-- The handshake has returned an error at `x`. -/
def HandshakeState.Failed (s : HandshakeState) (x : Party) : Prop :=
  ∃ error, s.result x = some (.error error)

/-- The part that holds in every run. -/
structure HandshakeInv (cfg : HandshakeConfig SecretKey PublicKey Signature) (s : HandshakeState) :
    Prop where
  sent : ∀ x, (s.exchange x).SentInv cfg x (s.Failed x)
  received : ∀ x, (s.exchange x).ReceivedInv cfg x (s.Failed x)
  joined : ∀ x routes, s.result x = some (.ok routes) →
    (s.exchange x).sender = .done (.ok ()) ∧
      (s.exchange x.other).receiver = .done (.ok (some routes))

theorem HandshakeInv.new (cfg : HandshakeConfig SecretKey PublicKey Signature) :
    HandshakeInv cfg .new :=
  ⟨fun x => .new cfg x _, fun x => .new cfg x _,
    fun _ _ h => absurd h (by simp [HandshakeState.new])⟩

variable {s s' : HandshakeState} {y : Party}

theorem Party.other_ne (x : Party) : x.other ≠ x := by cases x <;> decide

@[simp] theorem Party.other_other (x : Party) : x.other.other = x := by cases x <;> rfl

theorem HandshakeState.running_iff (s : HandshakeState) (x : Party) :
    s.running x = true ↔ s.started x = true ∧ s.result x = none := by
  simp [HandshakeState.running]

theorem HandshakeState.exchange_setExchange_self (s : HandshakeState) (x : Party) (e : Exchange) :
    (s.setExchange x e).exchange x = e := by
  simp [HandshakeState.setExchange]

theorem HandshakeState.exchange_setExchange_of_ne (s : HandshakeState) {x y : Party} (hxy : x ≠ y)
    (e : Exchange) : (s.setExchange y e).exchange x = s.exchange x := by
  simp [HandshakeState.setExchange, hxy]

/-- A result is only set once. -/
theorem HandshakeState.Failed.setResult (hnone : s.result y = none)
    (r : Except HandshakeError RoutesChanged) (h : s.Failed x) : (s.setResult y r).Failed x := by
  obtain ⟨error, herror⟩ := h
  by_cases hxy : x = y
  · subst hxy; exact absurd (herror.symm.trans hnone) (by simp)
  · exact ⟨error, by simpa [HandshakeState.setResult, hxy] using herror⟩

theorem HandshakeState.Failed.of_setResult {error : HandshakeError} :
    (s.setResult x (.error error)).Failed x := ⟨error, by simp [HandshakeState.setResult]⟩

/-- Setting a result touches no exchange. -/
theorem HandshakeInv.setResult (hinv : HandshakeInv cfg s) (hnone : s.result y = none)
    {r : Except HandshakeError RoutesChanged}
    (hr : ∀ routes, r = .ok routes → (s.exchange y).sender = .done (.ok ()) ∧
      (s.exchange y.other).receiver = .done (.ok (some routes))) :
    HandshakeInv cfg (s.setResult y r) := by
  refine ⟨?_, ?_, ?_⟩
  · intro x
    exact (hinv.sent x).mono (HandshakeState.Failed.setResult hnone r)
  · intro x
    exact (hinv.received x).mono (HandshakeState.Failed.setResult hnone r)
  · intro x routes hok
    by_cases hxy : x = y
    · subst hxy
      exact hr routes (by simpa [HandshakeState.setResult] using hok)
    · exact hinv.joined x routes (by simpa [HandshakeState.setResult, hxy] using hok)

theorem HandshakeInv.exchangeStep {a : ExchangeAction} (hinv : HandshakeInv cfg s)
    (hrun : s.result (a.actor y) = none)
    (hstep : ExchangeStep cfg y (s.exchange y) s.closed a e' closed') :
    HandshakeInv cfg { s.setExchange y e' with closed := closed' } := by
  have hself := s.exchange_setExchange_self y e'
  have hsame : ∀ x, x ≠ y → (s.setExchange y e').exchange x = s.exchange x := by
    intro x hx
    exact s.exchange_setExchange_of_ne hx e'
  constructor
  · intro x
    show ((s.setExchange y e').exchange x).SentInv cfg x _
    by_cases hxy : x = y
    · subst hxy
      rw [hself]
      exact hstep.sentInv (hinv.sent x)
    · rw [hsame x hxy]
      exact hinv.sent x
  · intro x
    show ((s.setExchange y e').exchange x).ReceivedInv cfg x _
    by_cases hxy : x = y
    · subst hxy
      rw [hself]
      exact hstep.receivedInv (hinv.sent x) (hinv.received x)
    · rw [hsame x hxy]
      exact hinv.received x
  · -- a side that is done takes no more steps at either end
    intro x routes hok
    obtain ⟨hsender, hreceiver⟩ := hinv.joined x routes hok
    have hdone : s.result x ≠ none := fun h => absurd (hok.symm.trans h) (by simp)
    refine ⟨?_, ?_⟩
    · show ((s.setExchange y e').exchange x).sender = _
      by_cases hxy : x = y
      · subst hxy
        cases hby : a.bySender with
        | true => rw [ExchangeAction.actor, if_pos hby] at hrun; exact absurd hrun hdone
        | false => rw [hself, hstep.other_task.2 hby]; exact hsender
      · rw [hsame x hxy]; exact hsender
    · show ((s.setExchange y e').exchange x.other).receiver = _
      by_cases hxy : x.other = y
      · subst hxy
        cases hby : a.bySender with
        | true => rw [hself, hstep.other_task.1 hby]; exact hreceiver
        | false =>
            rw [ExchangeAction.actor, if_neg (by simp [hby]), Party.other_other] at hrun
            exact absurd hrun hdone
      · rw [hsame x.other hxy]; exact hreceiver

/-- The state after `y`'s timeout, before its result is set. -/
def HandshakeState.dropTasks (s : HandshakeState) (y : Party) : HandshakeState :=
  (s.setExchange y ((s.exchange y).dropSender s.closed)).setExchange y.other
    ((s.exchange y.other).dropReceiver s.closed)

theorem HandshakeState.exchange_dropTasks (s : HandshakeState) (y : Party) :
    (s.dropTasks y).exchange y = (s.exchange y).dropSender s.closed ∧
      (s.dropTasks y).exchange y.other = (s.exchange y.other).dropReceiver s.closed := by
  have hne := y.other_ne
  simp [HandshakeState.dropTasks, HandshakeState.setExchange, hne.symm]

theorem Party.eq_or_eq_other (x y : Party) : x = y ∨ x = y.other := by
  cases x <;> cases y <;> decide

theorem HandshakeInv.timeout (hinv : HandshakeInv cfg s) (hnone : s.result y = none) :
    HandshakeInv cfg ((s.dropTasks y).setResult y (.error .timeout)) := by
  obtain ⟨hdropS, hdropR⟩ := s.exchange_dropTasks y
  have hmono : ∀ x, s.Failed x → ((s.dropTasks y).setResult y (.error .timeout)).Failed x :=
    fun x hf => HandshakeState.Failed.setResult (s := s.dropTasks y) hnone _ hf
  refine ⟨?_, ?_, ?_⟩
  · intro x
    show ((s.dropTasks y).exchange x).SentInv cfg x _
    rcases Party.eq_or_eq_other x y with rfl | rfl
    · rw [hdropS]
      exact ((hinv.sent x).mono (hmono x)).dropSender HandshakeState.Failed.of_setResult
    · rw [hdropR]
      exact ((hinv.sent y.other).mono (hmono y.other)).dropReceiver
  · intro x
    show ((s.dropTasks y).exchange x).ReceivedInv cfg x _
    rcases Party.eq_or_eq_other x y with rfl | rfl
    · rw [hdropS]
      exact ((hinv.received x).mono (hmono x)).dropSender
    · rw [hdropR]
      exact ((hinv.received y.other).mono (hmono y.other)).dropReceiver
  · intro x routes hok
    rcases Party.eq_or_eq_other x y with rfl | rfl
    · exact absurd hok (by simp [HandshakeState.setResult])
    · have hold : s.result y.other = some (.ok routes) := by
        simpa [HandshakeState.setResult, HandshakeState.dropTasks, HandshakeState.setExchange,
          y.other_ne] using hok
      obtain ⟨hsender, hreceiver⟩ := hinv.joined y.other routes hold
      refine ⟨?_, ?_⟩
      · show ((s.dropTasks y).exchange y.other).sender = _
        rw [hdropR, Exchange.sender_dropReceiver]
        exact hsender
      · rw [Party.other_other] at hreceiver ⊢
        show ((s.dropTasks y).exchange y).receiver = _
        rw [hdropS, Exchange.receiver_dropSender]
        exact hreceiver

/-- Every step of the two sides keeps the invariant. -/
theorem HandshakeInv.step {a : HandshakeAction} (hinv : HandshakeInv cfg s)
    (h : s.step cfg a = some s') : HandshakeInv cfg s' := by
  cases a with
  | direct y ok =>
      simp only [HandshakeState.step] at h
      split_ifs at h with hpre hok
      · obtain rfl := Option.some.inj h
        exact ⟨hinv.sent, hinv.received, hinv.joined⟩
      · obtain rfl := Option.some.inj h
        exact hinv.setResult hpre.2 fun _ hr => absurd hr (by simp)
  | exchange y ea =>
      simp only [HandshakeState.step] at h
      split_ifs at h with hrun
      split at h
      · next e' closed' hstep =>
          obtain rfl := Option.some.inj h
          exact hinv.exchangeStep ((s.running_iff _).1 hrun).2 (Exchange.step_sound hstep)
      · exact absurd h (by simp)
  | join y =>
      simp only [HandshakeState.step] at h
      split_ifs at h with hrun
      split at h
      · next send receive hsend hreceive =>
          obtain rfl := Option.some.inj h
          refine hinv.setResult ((s.running_iff y).1 hrun).2 ?_
          intro routes hok
          obtain ⟨rfl, rfl⟩ := (handshakeResult_ok_iff send receive routes).1 hok
          exact ⟨hsend, hreceive⟩
      · exact absurd h (by simp)
  | timeout y =>
      simp only [HandshakeState.step] at h
      split_ifs at h with hrun
      obtain rfl := Option.some.inj h
      exact hinv.timeout ((s.running_iff y).1 hrun).2
  | close =>
      obtain rfl := Option.some.inj h
      exact ⟨hinv.sent, hinv.received, hinv.joined⟩

/-- The other side's timeout does not fire while it reads `x`'s request. -/
def HandshakeState.ReadsUndisturbed (x : Party) (s : HandshakeState) : HandshakeAction → Prop
  | .timeout y => y = x.other → ∀ buffer, (s.exchange x).receiver ≠ .reading buffer
  | _ => True

/-- Under these conditions the response that `x` waits for stays honest. -/
theorem HandshakeInv.responseInv_step {a : HandshakeAction} (hinv : HandshakeInv cfg s)
    (hsize : (cfg.requestBytes x).length < MAX_MESSAGE_SIZE)
    (hresp : (s.exchange x).ResponseInv (s.Failed x) s.closed) (ha : s.ReadsUndisturbed x a)
    (h : s.step cfg a = some s') : (s'.exchange x).ResponseInv (s'.Failed x) s'.closed := by
  cases a with
  | direct y ok =>
      simp only [HandshakeState.step] at h
      split_ifs at h with hpre hok
      · obtain rfl := Option.some.inj h
        exact hresp
      · obtain rfl := Option.some.inj h
        exact hresp.mono (HandshakeState.Failed.setResult hpre.2 _) fun hc => hc
  | exchange y ea =>
      simp only [HandshakeState.step] at h
      split_ifs at h with hrun
      split at h
      · next e' closed' hstep =>
          obtain rfl := Option.some.inj h
          have hsound := Exchange.step_sound hstep
          show ((s.setExchange y e').exchange x).ResponseInv (s.Failed x) closed'
          by_cases hxy : x = y
          · subst hxy
            rw [s.exchange_setExchange_self]
            exact hsound.responseInv hsize (hinv.sent x) (hinv.received x) hresp
          · rw [s.exchange_setExchange_of_ne hxy]
            exact hresp.mono (fun hf => hf) hsound.closed_mono
      · exact absurd h (by simp)
  | join y =>
      simp only [HandshakeState.step] at h
      split_ifs at h with hrun
      split at h
      · obtain rfl := Option.some.inj h
        have hnone := ((s.running_iff y).1 hrun).2
        exact hresp.mono (HandshakeState.Failed.setResult hnone _) fun hc => hc
      · exact absurd h (by simp)
  | timeout y =>
      simp only [HandshakeState.step] at h
      split_ifs at h with hrun
      obtain rfl := Option.some.inj h
      obtain ⟨hdropS, hdropR⟩ := s.exchange_dropTasks y
      have hfailed : s.Failed x → ((s.dropTasks y).setResult y (.error .timeout)).Failed x :=
        HandshakeState.Failed.setResult (s := s.dropTasks y) ((s.running_iff y).1 hrun).2 _
      have hmono := hresp.mono hfailed fun hc => hc
      show ((s.dropTasks y).exchange x).ResponseInv _ s.closed
      rcases Party.eq_or_eq_other x y with rfl | rfl
      · rw [hdropS]
        exact hmono.dropSender
      · rw [hdropR]
        exact hmono.dropReceiver ((hinv.received y.other).mono hfailed) (ha (by simp))
  | close =>
      obtain rfl := Option.some.inj h
      exact hresp.mono (fun hf => hf) fun _ => rfl

/-! ## What success means -/

theorem handleControlRequest_ok_of_command (L : Library SecretKey PublicKey Signature)
    {common : CommonPeerConfig} {key : PublicKey} {adv : Advertise} {r : Option RoutesChanged}
    (h : (handleControlRequest L common key ⟨some adv⟩).result = .ok r) :
    ∃ routes, r = some routes ∧ routes.routes ≠ [] := by
  unfold handleControlRequest at h
  simp only at h
  split_ifs at h with hempty
  obtain rfl := Except.ok.inj h
  exact ⟨_, rfl, fun hnil => hempty (List.isEmpty_iff.2 hnil)⟩

/-- The routes of a successful handshake are addresses of the other side's `Advertise` that verify
    under its key. -/
theorem HandshakeInv.routes (hinv : HandshakeInv cfg s) {routes : RoutesChanged}
    (hok : s.result x = some (.ok routes)) :
    routes.routes ≠ [] ∧ ∀ ip ∈ routes.routes, ∃ host ∈ (cfg.advertise x.other).ownAddresses,
      ∃ net, validateAddress cfg.lib host (cfg.key x.other) = .ok net ∧
        isSubnetOfAny net (cfg.common x).allowedNetworks = true ∧ net.addr = ip := by
  obtain ⟨-, hreceiver⟩ := hinv.joined x routes hok
  obtain ⟨req, outcome, hhandled, hres⟩ := (hinv.received x.other).received _ hreceiver
  obtain ⟨rfl, hreq, -⟩ := (hinv.received x.other).handled req outcome hhandled
  obtain ⟨adv, hcmd, hne, hroutes⟩ := (handleControlRequest_ok_iff cfg.lib _ _ _ _).1 hres
  rw [Party.other_other] at hroutes
  have hadv : cfg.advertise x.other = adv := by
    rcases hreq with rfl | hnone
    · exact Option.some.inj hcmd
    · exact absurd (hnone.symm.trans hcmd) (by simp)
  refine ⟨hne, ?_⟩
  intro ip hip
  rw [hroutes] at hip
  obtain ⟨net, hnet, rfl⟩ := List.mem_map.1 hip
  obtain ⟨host, hhost, hvalid, hallowed⟩ := (mem_validateAddresses_iff cfg.lib _ _ _ _).1 hnet
  exact ⟨host, hadv ▸ hhost, net, hvalid, hallowed, rfl⟩

/-- **Agreement.** If `x`'s encoded request is below the size limit and the other side's timeout never
    fires while it is reading that request, then a successful handshake of `x` means that the other
    side has handled exactly `x`'s `Advertise` and accepted at least one of its addresses, and that
    the routes `x` got are addresses of the other side's `Advertise`, verified under its key. -/
theorem handshake_agreement (cfg : HandshakeConfig SecretKey PublicKey Signature) (x : Party)
    (hsize : (cfg.requestBytes x).length < MAX_MESSAGE_SIZE) (acts : List HandshakeAction)
    (s : HandshakeState) (hrun : runFrom (HandshakeState.step cfg) .new acts = some s)
    (hmeets : RunMeets (HandshakeState.step cfg) (HandshakeState.ReadsUndisturbed x) .new acts)
    (routes : RoutesChanged) (hok : s.result x = some (.ok routes)) :
    (∃ outcome accepted, (s.exchange x).handled = some (⟨some (cfg.advertise x)⟩, outcome) ∧
      outcome = cfg.handle x ⟨some (cfg.advertise x)⟩ ∧ outcome.result = .ok (some accepted) ∧
      accepted.routes ≠ []) ∧
    routes.routes ≠ [] ∧ ∀ ip ∈ routes.routes, ∃ host ∈ (cfg.advertise x.other).ownAddresses,
      ∃ net, validateAddress cfg.lib host (cfg.key x.other) = .ok net ∧
        isSubnetOfAny net (cfg.common x).allowedNetworks = true ∧ net.addr = ip := by
  have hboth : HandshakeInv cfg s ∧ (s.exchange x).ResponseInv (s.Failed x) s.closed := by
    refine runFrom_invariant_of_meets (I := fun s => HandshakeInv cfg s ∧
      (s.exchange x).ResponseInv (s.Failed x) s.closed) ?_ ⟨.new cfg, .new _⟩ hmeets hrun
    intro m a m' hI ha hstep
    exact ⟨hI.1.step hstep, hI.1.responseInv_step hsize hI.2 ha hstep⟩
  obtain ⟨hinv, hresp⟩ := hboth
  refine ⟨?_, hinv.routes hok⟩
  have hnot : ¬ s.Failed x := by
    rintro ⟨error, herror⟩
    exact absurd (hok.symm.trans herror) (by simp)
  -- the response ended, so the request was accepted; and it was ours
  obtain ⟨hsender, -⟩ := hinv.joined x routes hok
  rcases hresp.response (hresp.succeeded hsender) with ⟨req, outcome, r, hhandled, hres⟩ | hf
  · obtain ⟨rfl, -, hreq | hf⟩ := (hinv.received x).handled req outcome hhandled
    · subst hreq
      obtain ⟨accepted, rfl, hne⟩ := handleControlRequest_ok_of_command cfg.lib hres
      exact ⟨_, accepted, hhandled, rfl, hres, hne⟩
    · exact absurd hf hnot
  · exact absurd hf hnot

end

/-- Two nodes, with the keys 8 and 7, that advertise the addresses they generate in subnet 0. -/
def sampleHandshake : HandshakeConfig UInt8 UInt8 (UInt8 × List UInt8) where
  lib := transparentLibrary sampleText sampleNet
  codec := protoCodec
  common := fun _ => .new default
  key := fun x => if x = .a then 8 else 7
  advertise := fun x =>
    ownAdvertise (transparentLibrary sampleText sampleNet) 0 (if x = .a then 8 else 7)

/-- `x` sends its request in one piece, and the other side accepts the stream. -/
def sendRequest (x : Party) : List HandshakeAction :=
  [.exchange x .openBi, .exchange x (.write (.write (sampleHandshake.requestBytes x).length)),
   .exchange x (.write .finish), .exchange x .acceptBi]

/-- The other side reads and answers it. -/
def answerRequest (x : Party) : List HandshakeAction :=
  [.exchange x (.readRequest (.chunk (sampleHandshake.requestBytes x).length)),
   .exchange x (.readRequest .eof), .exchange x (.respond .finish)]

/-- `x` reads an empty response. -/
def readAnswer (x : Party) : List HandshakeAction :=
  [.exchange x (.write .acked), .exchange x (.readResponse .eof)]

/-- Both requests are answered, and nobody's timeout fires. -/
def undisturbed : List HandshakeAction :=
  [HandshakeAction.direct .a true, .direct .b true] ++ sendRequest .b ++ answerRequest .b ++
    [HandshakeAction.exchange .b (.respond .acked)] ++ sendRequest .a ++ answerRequest .a ++
    readAnswer .a ++ [HandshakeAction.join .a]

theorem handshake_agreement_undisturbed :
    ∃ s, runFrom (HandshakeState.step sampleHandshake) .new undisturbed = some s ∧
      ∃ outcome accepted,
        (s.exchange .a).handled = some (⟨some (sampleHandshake.advertise .a)⟩, outcome) ∧
        outcome.result = .ok (some accepted) ∧ accepted.routes ≠ [] := by
  obtain ⟨s, hrun, hok⟩ :
      ∃ s, runFrom (HandshakeState.step sampleHandshake) .new undisturbed = some s ∧
        s.result .a = some (.ok ⟨[sampleNet.addr]⟩) := exists_of_any (by decide +kernel)
  have hquiet : ∀ a ∈ undisturbed, a ≠ .timeout .b := by decide +kernel
  obtain ⟨⟨outcome, accepted, hhandled, -, hres, hne⟩, -⟩ := handshake_agreement sampleHandshake .a
    (by decide +kernel) undisturbed s hrun
    (RunMeets.of_forall _ _ fun a ha t => by
      unfold HandshakeState.ReadsUndisturbed
      split
      · next y => exact fun hy => absurd (congrArg HandshakeAction.timeout hy) (hquiet _ ha)
      · trivial) _ hok
  exact ⟨s, hrun, outcome, accepted, hhandled, hres, hne⟩

/-- `b`'s timeout fires between accepting `a`'s stream and reading the request. -/
def timeoutBeforeReading : List HandshakeAction :=
  [HandshakeAction.direct .a true, .direct .b true] ++ sendRequest .b ++ answerRequest .b ++
    [HandshakeAction.exchange .b (.respond .acked)] ++ sendRequest .a ++
    [HandshakeAction.timeout .b] ++ readAnswer .a ++ [HandshakeAction.join .a]

/-- `a` succeeds although `b` has given up without ever handling `a`'s request. -/
theorem handshake_succeeds_unhandled :
    ∃ s, runFrom (HandshakeState.step sampleHandshake) .new timeoutBeforeReading = some s ∧
      s.result .a = some (.ok ⟨[sampleNet.addr]⟩) ∧ (s.exchange .a).handled.isNone = true ∧
      s.result .b = some (.error .timeout) :=
  exists_of_any (by decide +kernel)

end P2pVpn
