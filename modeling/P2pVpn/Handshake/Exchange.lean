import P2pVpn.Handshake.Steps
import P2pVpn.Peer.Proofs

set_option autoImplicit false

/-! # The invariants of one exchange

`SentInv` and `ReceivedInv` are about the request: the receiver only ever handles what the sender
wrote, in full, unless the sender has failed. They hold in every run. `ResponseInv` is about the
response: it ends only after the receiver has accepted the request. That is not always so, because a
receiver that is dropped while it reads the request, or that finds it too long, ends the response
stream without a word, which the sender reads as success. -/

namespace P2pVpn

section

variable {SecretKey PublicKey Signature : Type}

/-! ## The request -/

/-- What the sender of the exchange that `x` opens has put on the stream; `failed` says that `x`'s
    handshake has ended with an error. -/
structure Exchange.SentInv (cfg : HandshakeConfig SecretKey PublicKey Signature) (x : Party)
    (failed : Prop) (e : Exchange) : Prop where
  opening : e.sender = .opening → e.request.sent = []
  writing : ∀ rest, e.sender = .writing (.writing rest) →
    e.request.sent ++ rest = cfg.requestBytes x
  sent : e.request.sent <+: cfg.requestBytes x
  fin : e.request.fin = true → e.request.sent = cfg.requestBytes x ∨ failed

/-- What the receiver has read and handled. -/
structure Exchange.ReceivedInv (cfg : HandshakeConfig SecretKey PublicKey Signature) (x : Party)
    (failed : Prop) (e : Exchange) : Prop where
  accepting : e.receiver = .accepting → e.request.read = 0 ∧ e.handled = none
  reading : ∀ buffer, e.receiver = .reading buffer →
    e.request.ReadInv MAX_MESSAGE_SIZE buffer ∧ e.handled = none
  handled : ∀ req outcome, e.handled = some (req, outcome) → outcome = cfg.handle x req ∧
    (req = ⟨some (cfg.advertise x)⟩ ∨ req.command = none) ∧
    (req = ⟨some (cfg.advertise x)⟩ ∨ failed)
  responding : ∀ w result, e.receiver = .responding w result →
    ∃ req outcome, e.handled = some (req, outcome) ∧ outcome.result = result
  received : ∀ routes, e.receiver = .done (.ok routes) →
    ∃ req outcome, e.handled = some (req, outcome) ∧ outcome.result = .ok routes

variable {cfg : HandshakeConfig SecretKey PublicKey Signature} {x : Party} {e e' : Exchange}
  {closed closed' : Bool} {failed failed' : Prop}

theorem Exchange.SentInv.mono (h : e.SentInv cfg x failed) (hf : failed → failed') :
    e.SentInv cfg x failed' :=
  ⟨h.opening, h.writing, h.sent, fun hfin => (h.fin hfin).imp_right hf⟩

theorem Exchange.ReceivedInv.mono (h : e.ReceivedInv cfg x failed) (hf : failed → failed') :
    e.ReceivedInv cfg x failed' := by
  refine ⟨h.accepting, h.reading, ?_, h.responding, h.received⟩
  intro req outcome hh
  obtain ⟨hout, hreq, hfull⟩ := h.handled req outcome hh
  exact ⟨hout, hreq, hfull.imp_right hf⟩

theorem Exchange.SentInv.new (cfg : HandshakeConfig SecretKey PublicKey Signature) (x : Party)
    (failed : Prop) : Exchange.new.SentInv cfg x failed :=
  ⟨fun _ => rfl, fun _ h => absurd h (by simp [Exchange.new]), List.nil_prefix,
    fun h => absurd h (by simp [Exchange.new, Flow.new])⟩

theorem Exchange.ReceivedInv.new (cfg : HandshakeConfig SecretKey PublicKey Signature) (x : Party)
    (failed : Prop) : Exchange.new.ReceivedInv cfg x failed :=
  ⟨fun _ => ⟨rfl, rfl⟩, fun _ h => absurd h (by simp [Exchange.new]),
    fun _ _ h => absurd h (by simp [Exchange.new]), fun _ _ h => absurd h (by simp [Exchange.new]),
    fun _ h => absurd h (by simp [Exchange.new])⟩

/-- The receiver's steps: the sender and its bytes stay. -/
theorem Exchange.SentInv.congr (h : e.SentInv cfg x failed) (hsender : e'.sender = e.sender)
    (hsent : e'.request.sent = e.request.sent) (hfin : e'.request.fin = e.request.fin) :
    e'.SentInv cfg x failed := by
  refine ⟨fun hs => ?_, fun rest hs => ?_, ?_, fun hf => ?_⟩ <;> rw [hsent]
  · exact h.opening (hsender ▸ hs)
  · exact h.writing rest (hsender ▸ hs)
  · exact h.sent
  · exact h.fin (hfin ▸ hf)

/-- A sender past its writing. -/
theorem Exchange.SentInv.of_sender (h : e.SentInv cfg x failed) (hrequest : e'.request = e.request)
    (hopening : e'.sender ≠ .opening) (hwriting : ∀ w, e'.sender ≠ .writing w) :
    e'.SentInv cfg x failed := by
  refine ⟨fun hs => absurd hs hopening, fun rest hs => absurd hs (hwriting _), ?_, ?_⟩ <;>
    rw [hrequest]
  · exact h.sent
  · exact h.fin

/-- The sender's steps: the receiver stays, and what it has read is still there. -/
theorem Exchange.ReceivedInv.congr (h : e.ReceivedInv cfg x failed)
    (hreceiver : e'.receiver = e.receiver) (hhandled : e'.handled = e.handled)
    (hread : e'.request.read = e.request.read)
    (hreader : ∀ maxBytes buffer, e.request.ReadInv maxBytes buffer →
      e'.request.ReadInv maxBytes buffer) : e'.ReceivedInv cfg x failed := by
  refine ⟨?_, ?_, ?_, ?_, ?_⟩
  · intro hr
    rw [hread, hhandled]
    exact h.accepting (hreceiver ▸ hr)
  · intro b hr
    rw [hhandled]
    obtain ⟨hbuf, hnone⟩ := h.reading b (hreceiver ▸ hr)
    exact ⟨hreader _ _ hbuf, hnone⟩
  · intro req outcome hh
    exact h.handled req outcome (hhandled ▸ hh)
  · intro w result hr
    rw [hhandled]
    exact h.responding w result (hreceiver ▸ hr)
  · intro routes hr
    rw [hhandled]
    exact h.received routes (hreceiver ▸ hr)

/-- A receiver that has failed. -/
theorem Exchange.ReceivedInv.of_error (h : e.ReceivedInv cfg x failed) {error : ReceiveError}
    (hreceiver : e'.receiver = .done (.error error)) (hhandled : e'.handled = e.handled) :
    e'.ReceivedInv cfg x failed := by
  refine ⟨?_, ?_, ?_, ?_, ?_⟩
  · intro hr
    exact absurd (hreceiver.symm.trans hr) (by simp)
  · intro b hr
    exact absurd (hreceiver.symm.trans hr) (by simp)
  · intro req outcome hh
    exact h.handled req outcome (hhandled ▸ hh)
  · intro w result hr
    exact absurd (hreceiver.symm.trans hr) (by simp)
  · intro routes hr
    exact absurd (hreceiver.symm.trans hr) (by simp)

/-- A reader does not mind what is appended. -/
theorem Flow.ReadInv.append {f : Flow} {maxBytes : Nat} {buffer : List UInt8}
    (h : f.ReadInv maxBytes buffer) (more : List UInt8) :
    ({ f with sent := f.sent ++ more } : Flow).ReadInv maxBytes buffer := by
  obtain ⟨hbuf, hread, hlen⟩ := h
  refine ⟨hbuf.trans ?_, ?_, hlen⟩
  · exact (List.take_append_of_le_length hread).symm
  · exact hread.trans (by simp)

theorem WriteStep.reader {f f' : Flow} {w : WriterState} {wa : WriterAction} {r : WriterResult}
    (h : WriteStep f w wa f' r) :
    f'.read = f.read ∧ ∀ maxBytes buffer, f.ReadInv maxBytes buffer → f'.ReadInv maxBytes buffer := by
  cases h with
  | write => exact ⟨rfl, fun _ _ hinv => hinv.append _⟩
  | _ => exact ⟨rfl, fun _ _ hinv => hinv⟩

/-- Writing the request, byte by byte. -/
theorem WriteStep.sent {f f' : Flow} {w : WriterState} {wa : WriterAction} {r : WriterResult}
    {bytes : List UInt8} (h : WriteStep f w wa f' r) (hsent : f.sent <+: bytes)
    (hrest : ∀ rest, w = .writing rest → f.sent ++ rest = bytes)
    (hfin : f.fin = true → f.sent = bytes ∨ failed) :
    f'.sent <+: bytes ∧ (∀ rest, r = .running (.writing rest) → f'.sent ++ rest = bytes) ∧
      (f'.fin = true → f'.sent = bytes ∨ failed) := by
  cases h with
  | @write rest n =>
      have hjoin : f.sent ++ rest.take n ++ rest.drop n = bytes := by
        rw [List.append_assoc, List.take_append_drop]
        exact hrest rest rfl
      refine ⟨⟨rest.drop n, hjoin⟩, fun rest' hr => ?_, fun hf => (hfin hf).imp_left fun heq => ?_⟩
      · obtain rfl : rest.drop n = rest' := by simpa using hr
        exact hjoin
      · -- a stream that already has everything takes nothing more
        have hlen := congrArg List.length hjoin
        rw [heq, List.append_assoc, List.length_append] at hlen
        have hnil : rest.take n ++ rest.drop n = [] := List.eq_nil_of_length_eq_zero (by omega)
        show f.sent ++ rest.take n = bytes
        rw [(List.append_eq_nil_iff.1 hnil).1, List.append_nil, heq]
  | stopped => exact ⟨hsent, fun _ hr => absurd hr (by simp), hfin⟩
  | finish =>
      refine ⟨hsent, fun _ hr => absurd hr (by simp), fun _ => Or.inl ?_⟩
      simpa using hrest [] rfl
  | acked => exact ⟨hsent, fun _ hr => absurd hr (by simp), hfin⟩

/-- Every step keeps what the sender has put on the stream a prefix of its request, ended only in
    full. -/
theorem ExchangeStep.sentInv {a : ExchangeAction} (h : ExchangeStep cfg x e closed a e' closed')
    (hinv : e.SentInv cfg x failed) : e'.SentInv cfg x failed := by
  cases h with
  | openBi hs =>
      refine ⟨fun hop => absurd hop (by simp), ?_, hinv.sent, hinv.fin⟩
      intro rest hrest
      obtain rfl : cfg.requestBytes x = rest := by simpa using hrest
      show e.request.sent ++ _ = _
      rw [hinv.opening hs, List.nil_append]
  | write hs hw =>
      obtain ⟨hsent, hrest, hfin⟩ := hw.sent hinv.sent
        (fun rest hrest => hinv.writing rest (hs.trans (by rw [hrest]))) hinv.fin
      exact ⟨fun hop => absurd hop (by simp), fun rest hr => hrest rest (by simpa using hr), hsent,
        hfin⟩
  | written hs hw =>
      obtain ⟨hsent, -, hfin⟩ := hw.sent hinv.sent
        (fun rest hrest => hinv.writing rest (hs.trans (by rw [hrest]))) hinv.fin
      exact ⟨fun hop => absurd hop (by simp), fun rest hr => absurd hr (by simp), hsent, hfin⟩
  | writeFailed hs hw =>
      obtain ⟨hsent, -, hfin⟩ := hw.sent hinv.sent
        (fun rest hrest => hinv.writing rest (hs.trans (by rw [hrest]))) hinv.fin
      exact ⟨fun hop => absurd hop (by simp), fun rest hr => absurd hr (by simp), hsent, hfin⟩
  | readResponse hs hr => exact hinv.of_sender rfl (by simp) (by simp)
  | responseTooLong hs hr => exact hinv.of_sender rfl (by simp) (by simp)
  | responseEnded hs hr => exact hinv.of_sender rfl (by simp) (by simp)
  | senderLost hclosed => exact hinv.of_sender rfl (by simp) (by simp)
  | acceptBi hr => exact hinv.congr rfl rfl rfl
  | readRequest hs hr =>
      obtain ⟨hsent, hfin, -⟩ := Flow.readStep_frame hr
      exact hinv.congr rfl hsent hfin
  | requestTooLong hs hr =>
      obtain ⟨hsent, hfin, -⟩ := Flow.readStep_frame hr
      exact hinv.congr rfl hsent hfin
  | requestMalformed hs hr hdecode =>
      obtain ⟨hsent, hfin, -⟩ := Flow.readStep_frame hr
      exact hinv.congr rfl hsent hfin
  | handled hs hr hdecode =>
      obtain ⟨hsent, hfin, -⟩ := Flow.readStep_frame hr
      exact hinv.congr rfl hsent hfin
  | respond hs hopen hw => exact hinv.congr rfl rfl rfl
  | responded hs hw => exact hinv.congr rfl rfl rfl
  | receiverLost => exact hinv.congr rfl rfl rfl

/-- A request below the limit is read as it was written. -/
theorem HandshakeConfig.decodeRequest_requestBytes
    (cfg : HandshakeConfig SecretKey PublicKey Signature) {x : Party}
    (hsize : (cfg.requestBytes x).length < MAX_MESSAGE_SIZE) :
    cfg.codec.decodeRequest (cfg.requestBytes x) = some ⟨some (cfg.advertise x)⟩ :=
  cfg.codec.decodeRequest_encodeRequest _ (hsize.trans (by decide))

/-- A request read to its end is what the sender wrote, or a truncated one of a sender that has
    failed. -/
theorem Exchange.SentInv.decode (h : e.SentInv cfg x failed) (hfin : e.request.fin = true)
    (hsize : e.request.sent.length < MAX_MESSAGE_SIZE) {req : ControlRequest}
    (hreq : cfg.codec.decodeRequest e.request.sent = some req) :
    (req = ⟨some (cfg.advertise x)⟩ ∨ req.command = none) ∧
      (req = ⟨some (cfg.advertise x)⟩ ∨ failed) := by
  by_cases hall : e.request.sent = cfg.requestBytes x
  · rw [hall] at hreq hsize
    obtain rfl := Option.some.inj ((cfg.decodeRequest_requestBytes hsize).symm.trans hreq)
    exact ⟨Or.inl rfl, Or.inl rfl⟩
  · have hcut := cfg.codec.decodeRequest_of_truncated _ _ h.sent hall req hreq
    exact ⟨Or.inr hcut, (h.fin hfin).elim (fun heq => absurd heq hall) Or.inr⟩

/-- Every step keeps what the receiver handles the sender's own request. -/
theorem ExchangeStep.receivedInv {a : ExchangeAction} (h : ExchangeStep cfg x e closed a e' closed')
    (hsent : e.SentInv cfg x failed) (hinv : e.ReceivedInv cfg x failed) :
    e'.ReceivedInv cfg x failed := by
  cases h with
  | openBi hs => exact hinv.congr rfl rfl rfl fun _ _ hb => hb
  | write hs hw => exact hinv.congr rfl rfl hw.reader.1 hw.reader.2
  | written hs hw => exact hinv.congr rfl rfl hw.reader.1 hw.reader.2
  | writeFailed hs hw => exact hinv.congr rfl rfl hw.reader.1 hw.reader.2
  | readResponse hs hr => exact hinv.congr rfl rfl rfl fun _ _ hb => hb
  | responseTooLong hs hr => exact hinv.congr rfl rfl rfl fun _ _ hb => hb
  | responseEnded hs hr => exact hinv.congr rfl rfl rfl fun _ _ hb => hb
  | senderLost hclosed => exact hinv.congr rfl rfl rfl fun _ _ hb => hb
  | acceptBi hr =>
      obtain ⟨hzero, hnone⟩ := hinv.accepting hr
      refine ⟨fun hacc => absurd hacc (by simp), fun b hb => ⟨?_, hnone⟩, hinv.handled,
        fun _ _ hresp => absurd hresp (by simp), fun _ hrec => absurd hrec (by simp)⟩
      obtain rfl : [] = b := by simpa using hb
      exact ⟨by simp [hzero], by simp [hzero], by simp [MAX_MESSAGE_SIZE]⟩
  | readRequest hs hr =>
      obtain ⟨hold, hnone⟩ := hinv.reading _ hs
      have hmore := Flow.readStep_sound hold hr
      refine ⟨fun hacc => absurd hacc (by simp), fun b hb => ⟨?_, hnone⟩, hinv.handled,
        fun _ _ hresp => absurd hresp (by simp), fun _ hrec => absurd hrec (by simp)⟩
      obtain rfl : _ = b := by simpa using hb
      exact hmore
  | requestTooLong hs hr => exact hinv.of_error rfl rfl
  | requestMalformed hs hr hdecode => exact hinv.of_error rfl rfl
  | @handled buffer buffer' ra request req hs hr hdecode =>
      obtain ⟨hold, -⟩ := hinv.reading _ hs
      obtain ⟨hfin, rfl, hsize⟩ := Flow.readStep_sound hold hr
      refine ⟨fun hacc => absurd hacc (by simp), fun b hb => absurd hb (by simp),
        ?_, ?_, fun _ hrec => absurd hrec (by simp)⟩
      · intro req' outcome hh
        obtain ⟨rfl, rfl⟩ : req = req' ∧ cfg.handle x req = outcome := by simpa using hh
        exact ⟨rfl, hsent.decode hfin hsize hdecode⟩
      · intro w result hresp
        obtain ⟨-, rfl⟩ := Receiver.responding.inj hresp
        exact ⟨req, _, rfl, rfl⟩
  | @respond w w' result wa response hs hopen hw =>
      refine ⟨fun hacc => absurd hacc (by simp), fun b hb => absurd hb (by simp), hinv.handled,
        ?_, fun _ hrec => absurd hrec (by simp)⟩
      intro w result' hresp
      obtain ⟨-, rfl⟩ := Receiver.responding.inj hresp
      exact hinv.responding _ _ hs
  | @responded w result wa response ok hs hw =>
      refine ⟨fun hacc => absurd hacc (by simp), fun b hb => absurd hb (by simp), hinv.handled,
        fun w result' hresp => absurd hresp (by simp), ?_⟩
      intro routes hrec
      have hres : receiveResult result ok = .ok routes := by simpa using hrec
      unfold receiveResult at hres
      split at hres
      · exact absurd hres (by simp)
      · split_ifs at hres
        obtain rfl := Except.ok.inj hres
        exact hinv.responding _ _ hs
  | receiverLost => exact hinv.of_error rfl rfl

/-! ## The response -/

/-- The response stream ends only after the request was accepted. -/
structure Exchange.ResponseInv (failed : Prop) (closed : Bool) (e : Exchange) : Prop where
  rejected : ∀ req outcome status, e.handled = some (req, outcome) →
    outcome.result = .error status → closed = true
  response : e.response.fin = true →
    (∃ req outcome routes, e.handled = some (req, outcome) ∧ outcome.result = .ok routes) ∨ failed
  succeeded : e.sender = .done (.ok ()) → e.response.fin = true

theorem Exchange.ResponseInv.new (failed : Prop) : Exchange.new.ResponseInv failed false :=
  ⟨fun _ _ _ h => absurd h (by simp [Exchange.new]),
    fun h => absurd h (by simp [Exchange.new, Flow.new]), fun h => absurd h (by simp [Exchange.new])⟩

theorem Exchange.ResponseInv.mono (h : e.ResponseInv failed closed) (hf : failed → failed')
    (hc : closed = true → closed' = true) : e.ResponseInv failed' closed' :=
  ⟨fun req outcome status hh hres => hc (h.rejected req outcome status hh hres),
    fun hfin => (h.response hfin).imp_right hf, h.succeeded⟩

theorem Exchange.ResponseInv.congr (h : e.ResponseInv failed closed)
    (hhandled : e'.handled = e.handled) (hfin : e'.response.fin = e.response.fin)
    (hsender : e'.sender = .done (.ok ()) → e.sender = .done (.ok ())) :
    e'.ResponseInv failed closed := by
  refine ⟨?_, ?_, ?_⟩
  · intro req outcome status hh
    exact h.rejected req outcome status (hhandled ▸ hh)
  · intro hf
    rw [hhandled]
    exact h.response (hfin ▸ hf)
  · intro hs
    rw [hfin]
    exact h.succeeded (hsender hs)

/-- While the connection is open, a request that was handled was not rejected. -/
theorem Exchange.ResponseInv.accepted (h : e.ResponseInv failed closed) (hopen : closed = false)
    {req : ControlRequest} {outcome : ControlOutcome} (hh : e.handled = some (req, outcome)) :
    ∃ routes, e.handled = some (req, outcome) ∧ outcome.result = .ok routes := by
  cases hout : outcome.result with
  | error status =>
      have hclosed := h.rejected req outcome status hh hout
      exact absurd (hclosed.symm.trans hopen) (by simp)
  | ok routes => exact ⟨routes, hh, rfl⟩

/-- Every step of an exchange whose request is short enough keeps the response honest. -/
theorem ExchangeStep.responseInv {a : ExchangeAction} (h : ExchangeStep cfg x e closed a e' closed')
    (hsize : (cfg.requestBytes x).length < MAX_MESSAGE_SIZE) (hsent : e.SentInv cfg x failed)
    (hrecv : e.ReceivedInv cfg x failed) (hinv : e.ResponseInv failed closed) :
    e'.ResponseInv failed closed' := by
  cases h with
  | openBi hs => exact hinv.congr rfl rfl (by simp)
  | write hs hw => exact hinv.congr rfl rfl (by simp)
  | written hs hw => exact hinv.congr rfl rfl (by simp)
  | writeFailed hs hw => exact hinv.congr rfl rfl (by simp)
  | readResponse hs hr => exact hinv.congr rfl (Flow.readStep_frame hr).2.1 (by simp)
  | responseTooLong hs hr => exact hinv.congr rfl (Flow.readStep_frame hr).2.1 (by simp)
  | responseEnded hs hr =>
      obtain ⟨-, hsame, hend⟩ := Flow.readStep_frame hr
      refine ⟨hinv.rejected, fun hfin => hinv.response (hsame ▸ hfin), ?_⟩
      intro _
      exact hsame.trans (hend _ rfl)
  | senderLost hclosed => exact hinv.congr rfl rfl (by simp)
  | acceptBi hr => exact hinv.congr rfl rfl fun hs => hs
  | readRequest hs hr => exact hinv.congr rfl rfl fun hs => hs
  | requestTooLong hs hr =>
      -- the request is shorter than the limit
      have hlong := Flow.readStep_sound (hrecv.reading _ hs).1 hr
      have hle := hsent.sent.length_le
      exact absurd (lt_of_le_of_lt (hlong.trans hle) hsize) (lt_irrefl _)
  | requestMalformed hs hr hdecode =>
      -- what the sender wrote decodes, so it has been cut short
      obtain ⟨hfin, rfl, -⟩ := Flow.readStep_sound (hrecv.reading _ hs).1 hr
      have hfailed : failed := by
        rcases hsent.fin hfin with hall | hf
        · rw [hall] at hdecode
          exact absurd ((cfg.decodeRequest_requestBytes hsize).symm.trans hdecode) (by simp)
        · exact hf
      refine ⟨hinv.rejected, fun _ => Or.inr hfailed, ?_⟩
      intro hs
      have hold := hinv.succeeded hs
      show (Flow.dropSend _ _).fin = true
      unfold Flow.dropSend
      split_ifs
      · exact hold
      · rfl
  | @handled buffer buffer' ra request req hs hr hdecode =>
      refine ⟨?_, ?_, hinv.succeeded⟩
      · intro req' outcome status hh hres
        obtain ⟨-, rfl⟩ : req = req' ∧ cfg.handle x req = outcome := by simpa using hh
        have hclose := (handleControlRequest_closedWith _ _ _ _ _).1 hres
        simp [HandshakeConfig.handle, hclose]
      · intro hfin
        rcases hinv.response hfin with ⟨req', outcome, routes, hh, -⟩ | hf
        · exact absurd (hh.symm.trans (hrecv.reading _ hs).2) (by simp)
        · exact Or.inr hf
  | respond hs hopen hw =>
      obtain ⟨req, outcome, hh, hres⟩ := hrecv.responding _ _ hs
      -- a rejection would have closed the connection
      have haccepted := hinv.accepted hopen hh
      refine ⟨hinv.rejected, fun _ => Or.inl ⟨req, outcome, haccepted⟩, ?_⟩
      intro hdone
      have hold := hinv.succeeded hdone
      cases hw with
      | write => exact hold
      | finish => rfl
  | responded hs hw =>
      cases hw with
      | stopped => exact hinv.congr rfl rfl fun hs => hs
      | acked => exact hinv.congr rfl rfl fun hs => hs
  | receiverLost => exact hinv.congr rfl rfl fun hs => hs

/-! ## Dropped tasks -/

theorem Exchange.dropSender_frame (e : Exchange) (closed : Bool) :
    (e.dropSender closed).request.sent = e.request.sent ∧
      (e.dropSender closed).request.read = e.request.read ∧
      (e.dropSender closed).response.fin = e.response.fin ∧
      (e.dropSender closed).handled = e.handled := by
  unfold Exchange.dropSender Flow.dropSend
  split
  · split_ifs <;> exact ⟨rfl, rfl, rfl, rfl⟩
  · exact ⟨rfl, rfl, rfl, rfl⟩
  · exact ⟨rfl, rfl, rfl, rfl⟩

theorem Exchange.dropReceiver_frame (e : Exchange) (closed : Bool) :
    (e.dropReceiver closed).request.sent = e.request.sent ∧
      (e.dropReceiver closed).request.fin = e.request.fin ∧
      (e.dropReceiver closed).request.read = e.request.read ∧
      (e.dropReceiver closed).handled = e.handled := by
  unfold Exchange.dropReceiver
  split <;> exact ⟨rfl, rfl, rfl, rfl⟩

theorem Flow.ReadInv.congr {f f' : Flow} {maxBytes : Nat} {buffer : List UInt8}
    (h : f.ReadInv maxBytes buffer) (hsent : f'.sent = f.sent) (hread : f'.read = f.read) :
    f'.ReadInv maxBytes buffer := by
  unfold Flow.ReadInv
  rw [hsent, hread]
  exact h

/-- A sender is dropped when its side has failed: its request may end anywhere. -/
theorem Exchange.SentInv.dropSender (h : e.SentInv cfg x failed) (hfailed : failed) :
    (e.dropSender closed).SentInv cfg x failed := by
  obtain ⟨hsent, -, -, -⟩ := e.dropSender_frame closed
  refine ⟨fun hs => ?_, fun rest hs => ?_, ?_, fun _ => Or.inr hfailed⟩ <;> rw [hsent]
  · exact h.opening (e.sender_dropSender closed ▸ hs)
  · exact h.writing rest (e.sender_dropSender closed ▸ hs)
  · exact h.sent

theorem Exchange.ReceivedInv.dropSender (h : e.ReceivedInv cfg x failed) :
    (e.dropSender closed).ReceivedInv cfg x failed := by
  obtain ⟨hsent, hread, -, hhandled⟩ := e.dropSender_frame closed
  exact h.congr (e.receiver_dropSender closed) hhandled hread fun _ _ hb => hb.congr hsent hread

theorem Exchange.ResponseInv.dropSender (h : e.ResponseInv failed closed) :
    (e.dropSender closed).ResponseInv failed closed := by
  obtain ⟨-, -, hfin, hhandled⟩ := e.dropSender_frame closed
  exact h.congr hhandled hfin fun hs => (e.sender_dropSender closed).symm.trans hs

theorem Exchange.SentInv.dropReceiver (h : e.SentInv cfg x failed) :
    (e.dropReceiver closed).SentInv cfg x failed := by
  obtain ⟨hsent, hfin, -, -⟩ := e.dropReceiver_frame closed
  exact h.congr (e.sender_dropReceiver closed) hsent hfin

theorem Exchange.ReceivedInv.dropReceiver (h : e.ReceivedInv cfg x failed) :
    (e.dropReceiver closed).ReceivedInv cfg x failed := by
  obtain ⟨hsent, -, hread, hhandled⟩ := e.dropReceiver_frame closed
  exact h.congr (e.receiver_dropReceiver closed) hhandled hread fun _ _ hb => hb.congr hsent hread

/-- A receiver that is not reading ends the response only if it has accepted the request. -/
theorem Exchange.ResponseInv.dropReceiver (h : e.ResponseInv failed closed)
    (hrecv : e.ReceivedInv cfg x failed) (hidle : ∀ buffer, e.receiver ≠ .reading buffer) :
    (e.dropReceiver closed).ResponseInv failed closed := by
  unfold Exchange.dropReceiver
  split
  · next buffer hr => exact absurd hr (hidle buffer)
  · next w result hr =>
      obtain ⟨req, outcome, hh, -⟩ := hrecv.responding w result hr
      unfold Flow.dropSend
      split_ifs with hclosed
      · exact h
      · have haccepted := h.accepted (by simpa using hclosed) hh
        exact ⟨h.rejected, fun _ => Or.inl ⟨req, outcome, haccepted⟩, fun _ => rfl⟩
  · exact h

end

end P2pVpn
