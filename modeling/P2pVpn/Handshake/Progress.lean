import P2pVpn.Handshake.Agreement

set_option autoImplicit false

/-! # A handshake that nobody disturbs

Each side waits for the other in several places: for its stream, for the end of its request, for its
response and for the acknowledgement of its own. When the connection stays up, no timeout fires and
both sides accept what the other advertises, these waits never form a cycle: whatever the order of the
steps, there are only so many of them, and when none is left both sides have each other's routes. -/

namespace P2pVpn

/-- The step is one of the two sides' own, and gets them on. -/
def ExchangeAction.isRegular : ExchangeAction → Bool
  | .senderLost => false
  | .receiverLost => false
  | .readResponse (.chunk n) => 0 < n
  | .readRequest (.chunk n) => 0 < n
  | _ => true

/-- The step is one of the two sides' own, and gets them on. -/
def HandshakeAction.isRegular : HandshakeAction → Bool
  | .direct _ ok => ok
  | .exchange _ a => a.isRegular
  | .join _ => true
  | .timeout _ => false
  | .close => false

section

variable {SecretKey PublicKey Signature : Type}

/-- Each side accepts the other's `Advertise`, and all messages are below the limit. -/
structure HandshakeConfig.Accepts (cfg : HandshakeConfig SecretKey PublicKey Signature)
    (routes : Party → RoutesChanged) : Prop where
  accepted : ∀ x, (cfg.handle x ⟨some (cfg.advertise x)⟩).result = .ok (some (routes x))
  request : ∀ x, (cfg.requestBytes x).length < MAX_MESSAGE_SIZE
  response : (cfg.codec.encodeResponse default).length < MAX_MESSAGE_SIZE

/-! ## Where an exchange can be -/

/-- The request is on the stream. -/
def Exchange.RequestOut (cfg : HandshakeConfig SecretKey PublicKey Signature) (x : Party)
    (e : Exchange) : Prop :=
  e.opened = true ∧ e.request.sent = cfg.requestBytes x ∧ e.request.fin = true

/-- The response, which is that of a success, is on the stream. -/
def Exchange.ResponseOut (cfg : HandshakeConfig SecretKey PublicKey Signature) (e : Exchange) : Prop :=
  e.response.sent = cfg.codec.encodeResponse default ∧ e.response.fin = true

/-- Where `send_advertise` is. -/
def Exchange.SenderStage (cfg : HandshakeConfig SecretKey PublicKey Signature) (x : Party)
    (e : Exchange) : Prop :=
  match e.sender with
  | .opening => e.request.sent = [] ∧ e.request.fin = false ∧ e.response.read = 0
  | .writing (.writing rest) =>
      e.opened = true ∧ e.request.sent ++ rest = cfg.requestBytes x ∧ e.request.fin = false ∧
        e.response.read = 0
  | .writing .awaitAck => e.RequestOut cfg x ∧ e.response.read = 0
  | .reading buffer => e.RequestOut cfg x ∧ e.response.ReadInv MAX_MESSAGE_SIZE buffer
  | .done result => e.RequestOut cfg x ∧ result = .ok ()

/-- Where `recv_control` is. -/
def Exchange.ReceiverStage (cfg : HandshakeConfig SecretKey PublicKey Signature)
    (routes : RoutesChanged) (e : Exchange) : Prop :=
  match e.receiver with
  | .accepting => e.request.read = 0 ∧ e.response.sent = [] ∧ e.response.fin = false
  | .reading buffer =>
      e.request.ReadInv MAX_MESSAGE_SIZE buffer ∧ e.response.sent = [] ∧ e.response.fin = false
  | .responding (.writing rest) result =>
      result = .ok (some routes) ∧ e.response.sent ++ rest = cfg.codec.encodeResponse default ∧
        e.response.fin = false
  | .responding .awaitAck result => result = .ok (some routes) ∧ e.ResponseOut cfg
  | .done result => result = .ok (some routes) ∧ e.ResponseOut cfg

/-- Nothing has gone wrong on the two streams so far. -/
structure Exchange.Undisturbed (cfg : HandshakeConfig SecretKey PublicKey Signature) (x : Party)
    (routes : RoutesChanged) (e : Exchange) : Prop where
  sender : e.SenderStage cfg x
  receiver : e.ReceiverStage cfg routes
  request : e.request.stopped = false
  response : e.response.stopped = false

variable {cfg : HandshakeConfig SecretKey PublicKey Signature} {x : Party} {routes : RoutesChanged}
  {e e' : Exchange}

theorem Exchange.Undisturbed.new (cfg : HandshakeConfig SecretKey PublicKey Signature) (x : Party)
    (routes : RoutesChanged) : Exchange.new.Undisturbed cfg x routes :=
  ⟨⟨rfl, rfl, rfl⟩, ⟨rfl, rfl, rfl⟩, rfl, rfl⟩

/-- A step of the sender leaves the receiver where it is. -/
theorem Exchange.ReceiverStage.of_sender (h : e.ReceiverStage cfg routes)
    (hr : e'.receiver = e.receiver) (hread : e'.request.read = e.request.read)
    (hreader : ∀ buffer, e.request.ReadInv MAX_MESSAGE_SIZE buffer →
      e'.request.ReadInv MAX_MESSAGE_SIZE buffer)
    (hsent : e'.response.sent = e.response.sent) (hfin : e'.response.fin = e.response.fin) :
    e'.ReceiverStage cfg routes := by
  unfold Exchange.ReceiverStage Exchange.ResponseOut at h ⊢
  rw [hr, hread, hsent, hfin]
  split at h
  · exact h
  · exact ⟨hreader _ h.1, h.2⟩
  · exact h
  · exact h
  · exact h

/-- A step of the receiver leaves the sender where it is. -/
theorem Exchange.SenderStage.of_receiver (h : e.SenderStage cfg x) (hs : e'.sender = e.sender)
    (hopened : e'.opened = e.opened) (hsent : e'.request.sent = e.request.sent)
    (hfin : e'.request.fin = e.request.fin) (hread : e'.response.read = e.response.read)
    (hreader : ∀ buffer, e.response.ReadInv MAX_MESSAGE_SIZE buffer →
      e'.response.ReadInv MAX_MESSAGE_SIZE buffer) : e'.SenderStage cfg x := by
  unfold Exchange.SenderStage Exchange.RequestOut at h ⊢
  rw [hs, hopened, hsent, hfin, hread]
  split at h
  · exact h
  · exact h
  · exact h
  · exact ⟨h.1, hreader _ h.2⟩
  · exact h

/-! ## Steps -/

/-- Reading below the limit gives more. -/
theorem Flow.readStep_chunk {f : Flow} {maxBytes n : Nat} {buffer : List UInt8}
    (hinv : f.ReadInv maxBytes buffer) (hmax : f.sent.length < maxBytes)
    (hn : f.read + n ≤ f.sent.length) :
    f.readStep maxBytes buffer (.chunk n)
        = some ({ f with read := f.read + n }, .more (f.sent.take (f.read + n))) ∧
      ({ f with read := f.read + n } : Flow).ReadInv maxBytes (f.sent.take (f.read + n)) := by
  obtain ⟨rfl, hread, hlen⟩ := hinv
  have hjoin : f.sent.take f.read ++ (f.sent.drop f.read).take n = f.sent.take (f.read + n) :=
    List.take_add.symm
  have htake : (f.sent.take (f.read + n)).length = f.read + n := List.length_take_of_le hn
  have hpush : pushChunk maxBytes (f.sent.take f.read) ((f.sent.drop f.read).take n)
      = some (f.sent.take (f.read + n)) := by
    unfold pushChunk
    rw [hjoin, if_neg (by omega)]
  refine ⟨?_, rfl, hn, by omega⟩
  simp only [Flow.readStep, if_pos hn, hpush]

/-- What `read_to_end` does while the message is below the limit. -/
inductive RegularRead (f : Flow) : ReaderAction → Flow → ReaderResult → Prop where
  | chunk {n : Nat} (hle : f.read + n ≤ f.sent.length) :
      RegularRead f (.chunk n) { f with read := f.read + n } (.more (f.sent.take (f.read + n)))
  | ended (hfin : f.fin = true) (hread : f.read = f.sent.length) :
      RegularRead f .eof f (.ended f.sent)

theorem Flow.readStep_regular {f f' : Flow} {maxBytes : Nat} {buffer : List UInt8}
    {ra : ReaderAction} {result : ReaderResult} (hinv : f.ReadInv maxBytes buffer)
    (hmax : f.sent.length < maxBytes) (h : f.readStep maxBytes buffer ra = some (f', result)) :
    RegularRead f ra f' result := by
  cases ra with
  | chunk n =>
      by_cases hle : f.read + n ≤ f.sent.length
      · rw [(Flow.readStep_chunk hinv hmax hle).1] at h
        obtain ⟨rfl, rfl⟩ := Prod.mk.inj (Option.some.inj h)
        exact .chunk hle
      · simp [Flow.readStep, if_neg hle] at h
  | eof =>
      simp only [Flow.readStep] at h
      split_ifs at h with hend
      obtain ⟨rfl, rfl⟩ := Prod.mk.inj (Option.some.inj h)
      rw [hinv.1, hend.2, List.take_length]
      exact .ended hend.1 hend.2

/-- The steps of an undisturbed exchange. -/
inductive RegularStep (cfg : HandshakeConfig SecretKey PublicKey Signature) (x : Party)
    (routes : RoutesChanged) (e : Exchange) : ExchangeAction → Exchange → Prop where
  | openBi (hs : e.sender = .opening) :
      RegularStep cfg x routes e .openBi
        { e with opened := true, sender := .writing (.writing (cfg.requestBytes x)) }
  | write {rest : List UInt8} {n : Nat} (hs : e.sender = .writing (.writing rest)) (hn : 0 < n)
      (hle : n ≤ rest.length) :
      RegularStep cfg x routes e (.write (.write n))
        { e with
          request := { e.request with sent := e.request.sent ++ rest.take n }
          sender := .writing (.writing (rest.drop n)) }
  | finish (hs : e.sender = .writing (.writing [])) :
      RegularStep cfg x routes e (.write .finish)
        { e with request := { e.request with fin := true }, sender := .writing .awaitAck }
  | acked (hs : e.sender = .writing .awaitAck) :
      RegularStep cfg x routes e (.write .acked) { e with sender := .reading [] }
  | readResponse {buffer : List UInt8} {n : Nat} (hs : e.sender = .reading buffer) (hn : 0 < n)
      (hle : e.response.read + n ≤ e.response.sent.length) :
      RegularStep cfg x routes e (.readResponse (.chunk n))
        { e with
          response := { e.response with read := e.response.read + n }
          sender := .reading (e.response.sent.take (e.response.read + n)) }
  | responseEnded {buffer : List UInt8} (hs : e.sender = .reading buffer)
      (hfin : e.response.fin = true) (hread : e.response.read = e.response.sent.length) :
      RegularStep cfg x routes e (.readResponse .eof) { e with sender := .done (.ok ()) }
  | acceptBi (hr : e.receiver = .accepting) (hopened : e.opened = true) :
      RegularStep cfg x routes e .acceptBi { e with receiver := .reading [] }
  | readRequest {buffer : List UInt8} {n : Nat} (hr : e.receiver = .reading buffer) (hn : 0 < n)
      (hle : e.request.read + n ≤ e.request.sent.length) :
      RegularStep cfg x routes e (.readRequest (.chunk n))
        { e with
          request := { e.request with read := e.request.read + n }
          receiver := .reading (e.request.sent.take (e.request.read + n)) }
  | handled {buffer : List UInt8} (hr : e.receiver = .reading buffer)
      (hfin : e.request.fin = true) (hread : e.request.read = e.request.sent.length) :
      RegularStep cfg x routes e (.readRequest .eof)
        { e with
          handled := some (⟨some (cfg.advertise x)⟩, cfg.handle x ⟨some (cfg.advertise x)⟩)
          receiver := .responding (.writing (cfg.codec.encodeResponse default))
            (.ok (some routes)) }
  | respond {rest : List UInt8} {n : Nat}
      (hr : e.receiver = .responding (.writing rest) (.ok (some routes))) (hn : 0 < n)
      (hle : n ≤ rest.length) :
      RegularStep cfg x routes e (.respond (.write n))
        { e with
          response := { e.response with sent := e.response.sent ++ rest.take n }
          receiver := .responding (.writing (rest.drop n)) (.ok (some routes)) }
  | respondFinish (hr : e.receiver = .responding (.writing []) (.ok (some routes))) :
      RegularStep cfg x routes e (.respond .finish)
        { e with
          response := { e.response with fin := true }
          receiver := .responding .awaitAck (.ok (some routes)) }
  | responded (hr : e.receiver = .responding .awaitAck (.ok (some routes))) :
      RegularStep cfg x routes e (.respond .acked) { e with receiver := .done (.ok (some routes)) }

variable {routesOf : Party → RoutesChanged}

/-- What is sent is never more than the message. -/
theorem Exchange.SenderStage.sent_le (h : e.SenderStage cfg x) :
    e.request.sent.length ≤ (cfg.requestBytes x).length := by
  unfold Exchange.SenderStage at h
  split at h
  · simp [h.1]
  · rw [← h.2.1]
    simp
  · rw [h.1.2.1]
  · rw [h.1.2.1]
  · rw [h.1.2.1]

theorem Exchange.ReceiverStage.sent_le (h : e.ReceiverStage cfg routes) :
    e.response.sent.length ≤ (cfg.codec.encodeResponse default).length := by
  unfold Exchange.ReceiverStage at h
  split at h
  · simp [h.2.1]
  · simp [h.2.1]
  · rw [← h.2.1]
    simp
  · rw [h.2.1]
  · rw [h.2.1]

/-- A stream that has ended has all of it. -/
theorem Exchange.SenderStage.sent_of_fin (h : e.SenderStage cfg x) (hfin : e.request.fin = true) :
    e.request.sent = cfg.requestBytes x := by
  unfold Exchange.SenderStage at h
  split at h
  · exact absurd (h.2.1.symm.trans hfin) (by simp)
  · exact absurd (h.2.2.1.symm.trans hfin) (by simp)
  · exact h.1.2.1
  · exact h.1.2.1
  · exact h.1.2.1

theorem Exchange.ReceiverStage.sent_of_fin (h : e.ReceiverStage cfg routes)
    (hfin : e.response.fin = true) : e.response.sent = cfg.codec.encodeResponse default := by
  unfold Exchange.ReceiverStage at h
  split at h
  · exact absurd (h.2.2.symm.trans hfin) (by simp)
  · exact absurd (h.2.2.symm.trans hfin) (by simp)
  · exact absurd (h.2.2.symm.trans hfin) (by simp)
  · exact h.2.1
  · exact h.2.1

/-- The response read to its end is that of a success. -/
theorem HandshakeConfig.Accepts.sendResult (haccepts : cfg.Accepts routesOf) :
    cfg.sendResult (cfg.codec.encodeResponse default) = .ok () := by
  unfold HandshakeConfig.sendResult
  rw [cfg.codec.decodeResponse_encodeResponse _ (haccepts.response.trans (by decide))]
  simp only [controlToStatus_default]

theorem HandshakeConfig.Accepts.closedWith (haccepts : cfg.Accepts routesOf) (x : Party) :
    (cfg.handle x ⟨some (cfg.advertise x)⟩).closedWith = none := by
  refine Option.eq_none_iff_forall_ne_some.2 fun status hclosed => ?_
  have herror := (handleControlRequest_closedWith cfg.lib _ _ _ status).2 hclosed
  exact absurd ((haccepts.accepted x).symm.trans herror) (by simp)

/-- **What the two tasks do** while nothing goes wrong. -/
theorem Exchange.Undisturbed.regular (h : e.Undisturbed cfg x (routesOf x))
    (haccepts : cfg.Accepts routesOf) {a : ExchangeAction} (ha : a.isRegular = true)
    {closed : Bool} (hstep : e.step cfg x false a = some (e', closed)) :
    RegularStep cfg x (routesOf x) e a e' ∧ closed = false := by
  have hsender := h.sender
  have hreceiver := h.receiver
  have hresponse := hreceiver.sent_le.trans_lt haccepts.response
  have hrequest := hsender.sent_le.trans_lt (haccepts.request x)
  unfold Exchange.SenderStage at hsender
  unfold Exchange.ReceiverStage at hreceiver
  cases Exchange.step_sound hstep with
  | openBi hs => exact ⟨.openBi hs, rfl⟩
  | write hs hw =>
      cases hw with
      | write hn hle => exact ⟨.write hs hn hle, rfl⟩
      | finish => exact ⟨.finish hs, rfl⟩
  | written hs hw =>
      cases hw with
      | acked => exact ⟨.acked hs, rfl⟩
  | writeFailed hs hw =>
      cases hw with
      | stopped hstopped => exact absurd (h.request.symm.trans hstopped) (by simp)
  | readResponse hs hr =>
      rw [hs] at hsender
      cases Flow.readStep_regular hsender.2 hresponse hr with
      | chunk hle => exact ⟨.readResponse hs (by simpa [ExchangeAction.isRegular] using ha) hle, rfl⟩
  | responseTooLong hs hr =>
      rw [hs] at hsender
      exact nomatch Flow.readStep_regular hsender.2 hresponse hr
  | responseEnded hs hr =>
      rw [hs] at hsender
      cases Flow.readStep_regular hsender.2 hresponse hr with
      | ended hfin hread =>
          rw [h.receiver.sent_of_fin hfin, haccepts.sendResult]
          exact ⟨.responseEnded hs hfin hread, rfl⟩
  | senderLost => exact absurd ha (by simp [ExchangeAction.isRegular])
  | acceptBi hr hopened => exact ⟨.acceptBi hr hopened, rfl⟩
  | readRequest hs hr =>
      rw [hs] at hreceiver
      cases Flow.readStep_regular hreceiver.1 hrequest hr with
      | chunk hle => exact ⟨.readRequest hs (by simpa [ExchangeAction.isRegular] using ha) hle, rfl⟩
  | requestTooLong hs hr =>
      rw [hs] at hreceiver
      exact nomatch Flow.readStep_regular hreceiver.1 hrequest hr
  | requestMalformed hs hr hdecode =>
      rw [hs] at hreceiver
      cases Flow.readStep_regular hreceiver.1 hrequest hr with
      | ended hfin hread =>
          rw [h.sender.sent_of_fin hfin, cfg.decodeRequest_requestBytes (haccepts.request x)] at hdecode
          exact absurd hdecode (by simp)
  | handled hs hr hdecode =>
      rw [hs] at hreceiver
      cases Flow.readStep_regular hreceiver.1 hrequest hr with
      | ended hfin hread =>
          rw [h.sender.sent_of_fin hfin, cfg.decodeRequest_requestBytes (haccepts.request x)] at hdecode
          obtain rfl := Option.some.inj hdecode
          rw [haccepts.accepted x, haccepts.closedWith x]
          exact ⟨.handled hs hfin hread, rfl⟩
  | respond hs hopen hw =>
      rw [hs] at hreceiver
      cases hw with
      | write hn hle =>
          obtain ⟨rfl, -⟩ := hreceiver
          exact ⟨.respond hs hn hle, rfl⟩
      | finish =>
          obtain ⟨rfl, -⟩ := hreceiver
          exact ⟨.respondFinish hs, rfl⟩
  | responded hs hw =>
      rw [hs] at hreceiver
      cases hw with
      | acked =>
          obtain ⟨rfl, -⟩ := hreceiver
          exact ⟨.responded hs, rfl⟩
      | stopped hstopped => exact absurd (h.response.symm.trans hstopped) (by simp)
  | receiverLost => exact absurd ha (by simp [ExchangeAction.isRegular])

/-! ## What a step keeps -/

theorem Flow.readInv_nil {f : Flow} {maxBytes : Nat} (hread : f.read = 0) (hmax : 0 < maxBytes) :
    f.ReadInv maxBytes [] := by
  refine ⟨?_, ?_, hmax⟩
  · rw [hread, List.take_zero]
  · rw [hread]
    exact Nat.zero_le _

theorem RegularStep.undisturbed {a : ExchangeAction} (hstep : RegularStep cfg x (routesOf x) e a e')
    (haccepts : cfg.Accepts routesOf) (h : e.Undisturbed cfg x (routesOf x)) :
    e'.Undisturbed cfg x (routesOf x) := by
  have hsender := h.sender
  have hreceiver := h.receiver
  have hresponse := hreceiver.sent_le.trans_lt haccepts.response
  have hrequest := hsender.sent_le.trans_lt (haccepts.request x)
  unfold Exchange.SenderStage at hsender
  unfold Exchange.ReceiverStage at hreceiver
  cases hstep with
  | openBi hs =>
      rw [hs] at hsender
      refine ⟨⟨rfl, ?_, hsender.2.1, hsender.2.2⟩,
        h.receiver.of_sender rfl rfl (fun _ hb => hb) rfl rfl, h.request, h.response⟩
      show e.request.sent ++ _ = _
      rw [hsender.1, List.nil_append]
  | @write rest n hs hn hle =>
      rw [hs] at hsender
      obtain ⟨hopened, hsent, hfin, hread⟩ := hsender
      refine ⟨⟨hopened, ?_, hfin, hread⟩,
        h.receiver.of_sender rfl rfl (fun _ hb => hb.append _) rfl rfl, h.request, h.response⟩
      show e.request.sent ++ rest.take n ++ rest.drop n = _
      rw [List.append_assoc, List.take_append_drop, hsent]
  | finish hs =>
      rw [hs] at hsender
      obtain ⟨hopened, hsent, -, hread⟩ := hsender
      rw [List.append_nil] at hsent
      exact ⟨⟨⟨hopened, hsent, rfl⟩, hread⟩, h.receiver.of_sender rfl rfl (fun _ hb => hb) rfl rfl,
        h.request, h.response⟩
  | acked hs =>
      rw [hs] at hsender
      exact ⟨⟨hsender.1, Flow.readInv_nil hsender.2 (by decide)⟩,
        h.receiver.of_sender rfl rfl (fun _ hb => hb) rfl rfl, h.request, h.response⟩
  | @readResponse buffer n hs hn hle =>
      rw [hs] at hsender
      exact ⟨⟨hsender.1, (Flow.readStep_chunk hsender.2 hresponse hle).2⟩,
        h.receiver.of_sender rfl rfl (fun _ hb => hb) rfl rfl, h.request, h.response⟩
  | @responseEnded buffer hs hfin hread =>
      rw [hs] at hsender
      exact ⟨⟨hsender.1, rfl⟩, h.receiver.of_sender rfl rfl (fun _ hb => hb) rfl rfl, h.request,
        h.response⟩
  | acceptBi hr hopened =>
      rw [hr] at hreceiver
      exact ⟨h.sender.of_receiver rfl rfl rfl rfl rfl fun _ hb => hb,
        ⟨Flow.readInv_nil hreceiver.1 (by decide), hreceiver.2⟩, h.request, h.response⟩
  | @readRequest buffer n hr hn hle =>
      rw [hr] at hreceiver
      exact ⟨h.sender.of_receiver rfl rfl rfl rfl rfl fun _ hb => hb,
        ⟨(Flow.readStep_chunk hreceiver.1 hrequest hle).2, hreceiver.2⟩, h.request, h.response⟩
  | @handled buffer hr hfin hread =>
      rw [hr] at hreceiver
      refine ⟨h.sender.of_receiver rfl rfl rfl rfl rfl fun _ hb => hb, ⟨rfl, ?_, hreceiver.2.2⟩,
        h.request, h.response⟩
      show e.response.sent ++ _ = _
      rw [hreceiver.2.1, List.nil_append]
  | @respond rest n hr hn hle =>
      rw [hr] at hreceiver
      obtain ⟨-, hsent, hfin⟩ := hreceiver
      refine ⟨h.sender.of_receiver rfl rfl rfl rfl rfl fun _ hb => hb.append _, ⟨rfl, ?_, hfin⟩,
        h.request, h.response⟩
      show e.response.sent ++ rest.take n ++ rest.drop n = _
      rw [List.append_assoc, List.take_append_drop, hsent]
  | respondFinish hr =>
      rw [hr] at hreceiver
      obtain ⟨-, hsent, -⟩ := hreceiver
      rw [List.append_nil] at hsent
      exact ⟨h.sender.of_receiver rfl rfl rfl rfl rfl fun _ hb => hb, ⟨rfl, hsent, rfl⟩, h.request,
        h.response⟩
  | responded hr =>
      rw [hr] at hreceiver
      exact ⟨h.sender.of_receiver rfl rfl rfl rfl rfl fun _ hb => hb, ⟨rfl, hreceiver.2⟩, h.request,
        h.response⟩

/-! ## What is left to do -/

/-- A bound on the steps the sender still takes. -/
def Exchange.senderWork (cfg : HandshakeConfig SecretKey PublicKey Signature) (x : Party)
    (e : Exchange) : Nat :=
  let response := (cfg.codec.encodeResponse default).length
  match e.sender with
  | .opening => (cfg.requestBytes x).length + response + 4
  | .writing (.writing rest) => rest.length + response + 3
  | .writing .awaitAck => response + 2
  | .reading _ => response - e.response.read + 1
  | .done _ => 0

/-- A bound on the steps the receiver still takes. -/
def Exchange.receiverWork (cfg : HandshakeConfig SecretKey PublicKey Signature) (x : Party)
    (e : Exchange) : Nat :=
  let response := (cfg.codec.encodeResponse default).length
  match e.receiver with
  | .accepting => (cfg.requestBytes x).length + response + 4
  | .reading _ => (cfg.requestBytes x).length - e.request.read + response + 3
  | .responding (.writing rest) _ => rest.length + 2
  | .responding .awaitAck _ => 1
  | .done _ => 0

/-- A bound on the steps the exchange still takes. -/
def Exchange.work (cfg : HandshakeConfig SecretKey PublicKey Signature) (x : Party) (e : Exchange) :
    Nat :=
  e.senderWork cfg x + e.receiverWork cfg x

theorem RegularStep.work_lt {a : ExchangeAction} (hstep : RegularStep cfg x routes e a e')
    (h : e.Undisturbed cfg x routes) : e'.work cfg x < e.work cfg x := by
  have hrequest := h.sender.sent_le
  have hresponse := h.receiver.sent_le
  unfold Exchange.work Exchange.senderWork Exchange.receiverWork
  cases hstep <;> simp only [List.length_drop, *] <;> omega

/-! ## Somebody can always go on -/

/-- A writer whose stream is not stopped goes on. -/
theorem Flow.exists_writeStep {f : Flow} (hstopped : f.stopped = false) (w : WriterState) :
    ∃ wa, (f.writeStep false w wa).isSome = true := by
  cases w with
  | writing rest =>
      by_cases hrest : rest = []
      · exact ⟨.finish, by simp [Flow.writeStep, hrest]⟩
      · have hpos := List.length_pos_iff.2 hrest
        exact ⟨.write rest.length, by simp [Flow.writeStep, hstopped, hpos]⟩
  | awaitAck => exact ⟨.acked, by simp [Flow.writeStep]⟩

/-- A reader goes on unless it has everything that was sent and there may be more. -/
theorem Flow.exists_readStep {f : Flow} {maxBytes : Nat} {buffer : List UInt8}
    (hinv : f.ReadInv maxBytes buffer) (hmore : f.read < f.sent.length ∨ f.fin = true) :
    (∃ n, 0 < n ∧ (f.readStep maxBytes buffer (.chunk n)).isSome = true) ∨
      (f.readStep maxBytes buffer .eof).isSome = true := by
  rcases Nat.lt_or_ge f.read f.sent.length with hlt | hge
  · refine Or.inl ⟨f.sent.length - f.read, by omega, ?_⟩
    simp only [Flow.readStep]
    rw [if_pos (by omega)]
    split <;> rfl
  · right
    have hread := hinv.2.1
    have hfin : f.fin = true := hmore.resolve_left (by omega)
    simp only [Flow.readStep]
    rw [if_pos ⟨hfin, by omega⟩]
    rfl

/-- The task that takes the step waits for it, and its stream lets it. -/
def Exchange.Ready (e : Exchange) : ExchangeAction → Prop
  | .openBi => e.sender = .opening
  | .write wa => ∃ w, e.sender = .writing w ∧ (e.request.writeStep false w wa).isSome = true
  | .readResponse ra =>
      ∃ buffer, e.sender = .reading buffer ∧
        (e.response.readStep MAX_MESSAGE_SIZE buffer ra).isSome = true
  | .acceptBi => e.receiver = .accepting ∧ e.opened = true
  | .readRequest ra =>
      ∃ buffer, e.receiver = .reading buffer ∧
        (e.request.readStep MAX_MESSAGE_SIZE buffer ra).isSome = true
  | .respond wa =>
      ∃ w result, e.receiver = .responding w result ∧
        (e.response.writeStep false w wa).isSome = true
  | .senderLost => False
  | .receiverLost => False

/-- An exchange takes the steps its streams take. -/
theorem Exchange.Ready.isSome {a : ExchangeAction} (h : e.Ready a)
    (cfg : HandshakeConfig SecretKey PublicKey Signature) (x : Party) :
    (e.step cfg x false a).isSome = true := by
  cases a with
  | openBi =>
      have hs : e.sender = .opening := h
      simp [Exchange.step, hs]
  | write wa =>
      obtain ⟨w, hs, hsome⟩ := h
      obtain ⟨⟨request, result⟩, hw⟩ := Option.isSome_iff_exists.1 hsome
      simp only [Exchange.step, hs, hw]
      cases result with
      | running w' => rfl
      | returned ok => cases ok <;> rfl
  | readResponse ra =>
      obtain ⟨buffer, hs, hsome⟩ := h
      obtain ⟨⟨response, result⟩, hread⟩ := Option.isSome_iff_exists.1 hsome
      simp only [Exchange.step, hs, hread]
      cases result <;> rfl
  | senderLost => exact absurd h (by simp [Exchange.Ready])
  | acceptBi =>
      obtain ⟨hr, hopened⟩ := h
      simp [Exchange.step, hr, hopened]
  | readRequest ra =>
      obtain ⟨buffer, hr, hsome⟩ := h
      obtain ⟨⟨request, result⟩, hread⟩ := Option.isSome_iff_exists.1 hsome
      simp only [Exchange.step, hr, hread]
      cases result with
      | more buffer' => rfl
      | tooLong => rfl
      | ended buffer' => cases hdecode : cfg.codec.decodeRequest buffer' <;> simp [hdecode]
  | respond wa =>
      obtain ⟨w, result, hr, hsome⟩ := h
      obtain ⟨⟨response, written⟩, hw⟩ := Option.isSome_iff_exists.1 hsome
      simp only [Exchange.step, hr, hw]
      cases written <;> rfl
  | receiverLost => exact absurd h (by simp [Exchange.Ready])

/-- Once the request is on its way, the receiver has something to do until it is done. -/
theorem Exchange.Undisturbed.receiver_goes_on (h : e.Undisturbed cfg x routes)
    (hout : e.RequestOut cfg x) (hbusy : ∀ result, e.receiver ≠ .done result) :
    ∃ a, a.isRegular = true ∧ a.bySender = false ∧ e.Ready a := by
  have hstage := h.receiver
  unfold Exchange.ReceiverStage at hstage
  cases hr : e.receiver with
  | accepting => exact ⟨.acceptBi, rfl, rfl, hr, hout.1⟩
  | reading buffer =>
      rw [hr] at hstage
      rcases Flow.exists_readStep hstage.1 (Or.inr hout.2.2) with ⟨n, hn, hsome⟩ | hsome
      · exact ⟨.readRequest (.chunk n), by simpa [ExchangeAction.isRegular] using hn, rfl, buffer, hr,
          hsome⟩
      · exact ⟨.readRequest .eof, rfl, rfl, buffer, hr, hsome⟩
  | responding w result =>
      obtain ⟨wa, hsome⟩ := Flow.exists_writeStep h.response w
      exact ⟨.respond wa, rfl, rfl, w, result, hr, hsome⟩
  | done result => exact absurd hr (hbusy result)

/-- The task has not returned. -/
def Exchange.Busy (e : Exchange) (bySender : Bool) : Prop :=
  if bySender then ∀ result, e.sender ≠ .done result else ∀ result, e.receiver ≠ .done result

/-- **No deadlock.** As long as one of the two tasks has not returned, one of those that have not can
    take a step. -/
theorem Exchange.Undisturbed.goes_on (h : e.Undisturbed cfg x routes)
    (hbusy : e.Busy true ∨ e.Busy false) :
    ∃ a, a.isRegular = true ∧ e.Busy a.bySender ∧ e.Ready a := by
  have hstage := h.sender
  unfold Exchange.SenderStage at hstage
  -- when the sender waits, it is for the receiver
  have hreceiver : e.RequestOut cfg x → e.Busy false →
      ∃ a, a.isRegular = true ∧ e.Busy a.bySender ∧ e.Ready a := by
    intro hout hr
    obtain ⟨a, ha, hby, hready⟩ := h.receiver_goes_on hout hr
    exact ⟨a, ha, hby ▸ hr, hready⟩
  cases hs : e.sender with
  | opening =>
      exact ⟨.openBi, rfl, by simp [Exchange.Busy, ExchangeAction.bySender, hs], hs⟩
  | writing w =>
      obtain ⟨wa, hsome⟩ := Flow.exists_writeStep h.request w
      exact ⟨.write wa, rfl, by simp [Exchange.Busy, ExchangeAction.bySender, hs], w, hs, hsome⟩
  | reading buffer =>
      rw [hs] at hstage
      by_cases hmore : e.response.read < e.response.sent.length ∨ e.response.fin = true
      · rcases Flow.exists_readStep hstage.2 hmore with ⟨n, hn, hsome⟩ | hsome
        · exact ⟨.readResponse (.chunk n), by simpa [ExchangeAction.isRegular] using hn,
            by simp [Exchange.Busy, ExchangeAction.bySender, hs], buffer, hs, hsome⟩
        · exact ⟨.readResponse .eof, rfl, by simp [Exchange.Busy, ExchangeAction.bySender, hs], buffer,
            hs, hsome⟩
      · refine hreceiver hstage.1 fun result hr => hmore (Or.inr ?_)
        have hdone := h.receiver
        unfold Exchange.ReceiverStage at hdone
        rw [hr] at hdone
        exact hdone.2.2
  | done result =>
      rw [hs] at hstage
      refine hreceiver hstage.1 (hbusy.resolve_left fun hsender => ?_)
      exact hsender result hs

/-! ## The two sides -/

/-- Nothing has gone wrong so far. -/
structure HandshakeState.Undisturbed (cfg : HandshakeConfig SecretKey PublicKey Signature)
    (routesOf : Party → RoutesChanged) (s : HandshakeState) : Prop where
  closed : s.closed = false
  exchange : ∀ x, (s.exchange x).Undisturbed cfg x (routesOf x)
  /-- A side that has returned has the other's routes, and its two tasks are done. -/
  joined : ∀ x result, s.result x = some result → result = .ok (routesOf x.other) ∧
    s.started x = true ∧ ¬ (s.exchange x).Busy true ∧ ¬ (s.exchange x.other).Busy false

/-- A bound on the steps of the exchange `x` opens, and of `x` itself. -/
def HandshakeState.sideWork (cfg : HandshakeConfig SecretKey PublicKey Signature) (s : HandshakeState)
    (x : Party) : Nat :=
  (s.exchange x).work cfg x + (!s.started x).toNat + (s.result x).isNone.toNat

/-- A bound on the steps the handshake still takes. -/
def HandshakeState.work (cfg : HandshakeConfig SecretKey PublicKey Signature) (s : HandshakeState) :
    Nat :=
  s.sideWork cfg .a + s.sideWork cfg .b

variable {s s' : HandshakeState}

theorem HandshakeState.Undisturbed.new (cfg : HandshakeConfig SecretKey PublicKey Signature)
    (routesOf : Party → RoutesChanged) : HandshakeState.new.Undisturbed cfg routesOf :=
  ⟨rfl, fun x => .new cfg x _, fun x result h => absurd h (by simp [HandshakeState.new])⟩

/-- A task that is done stays so. -/
theorem RegularStep.not_busy {a : ExchangeAction} (hstep : RegularStep cfg x routes e a e')
    {bySender : Bool} (hdone : ¬ e.Busy bySender) : ¬ e'.Busy bySender := by
  intro hbusy
  refine hdone ?_
  unfold Exchange.Busy at hbusy ⊢
  cases hstep <;> cases bySender <;> simp_all

/-- What a regular step of the two sides can be. -/
theorem HandshakeState.Undisturbed.cases (h : s.Undisturbed cfg routesOf)
    (haccepts : cfg.Accepts routesOf) {a : HandshakeAction} (ha : a.isRegular = true)
    (hstep : s.step cfg a = some s') :
    (∃ x, s.started x = false ∧ s.result x = none ∧
      s' = { s with started := Function.update s.started x true }) ∨
    (∃ x b e', s.running (b.actor x) = true ∧ RegularStep cfg x (routesOf x) (s.exchange x) b e' ∧
      s' = s.setExchange x e') ∨
    ∃ x, s.running x = true ∧ ¬ (s.exchange x).Busy true ∧ ¬ (s.exchange x.other).Busy false ∧
      s' = s.setResult x (.ok (routesOf x.other)) := by
  cases a with
  | direct x ok =>
      obtain rfl : ok = true := ha
      simp only [HandshakeState.step] at hstep
      split_ifs at hstep with hguard
      exact Or.inl ⟨x, hguard.1, hguard.2, (Option.some.inj hstep).symm⟩
  | exchange x b =>
      simp only [HandshakeState.step, h.closed] at hstep
      split_ifs at hstep with hrunning
      split at hstep
      · next e' closed he =>
          obtain ⟨hregular, rfl⟩ := (h.exchange x).regular haccepts ha he
          refine Or.inr (Or.inl ⟨x, b, e', hrunning, hregular, ?_⟩)
          rw [← Option.some.inj hstep, ← h.closed]
          rfl
      · exact absurd hstep (by simp)
  | join x =>
      simp only [HandshakeState.step] at hstep
      split_ifs at hstep with hrunning
      split at hstep
      · next send receive hsend hreceive =>
          have hsender := (h.exchange x).sender
          have hreceiver := (h.exchange x.other).receiver
          unfold Exchange.SenderStage at hsender
          unfold Exchange.ReceiverStage at hreceiver
          rw [hsend] at hsender
          rw [hreceive] at hreceiver
          obtain ⟨-, rfl⟩ := hsender
          obtain ⟨rfl, -⟩ := hreceiver
          refine Or.inr (Or.inr ⟨x, hrunning, ?_, ?_, (Option.some.inj hstep).symm⟩)
          · exact fun hbusy => hbusy _ hsend
          · exact fun hbusy => hbusy _ hreceive
      · exact absurd hstep (by simp)
  | timeout x => exact absurd ha (by simp [HandshakeAction.isRegular])
  | close => exact absurd ha (by simp [HandshakeAction.isRegular])

theorem HandshakeState.Undisturbed.step (h : s.Undisturbed cfg routesOf)
    (haccepts : cfg.Accepts routesOf) {a : HandshakeAction} (ha : a.isRegular = true)
    (hstep : s.step cfg a = some s') : s'.Undisturbed cfg routesOf := by
  rcases h.cases haccepts ha hstep with
    ⟨x, hstarted, hresult, rfl⟩ | ⟨x, b, e', hrunning, hregular, rfl⟩ | ⟨x, hrunning, hs, hr, rfl⟩
  · refine ⟨h.closed, h.exchange, ?_⟩
    intro y result hy
    obtain ⟨hroutes, hstarted', hbusy⟩ := h.joined y result hy
    refine ⟨hroutes, ?_, hbusy⟩
    by_cases hyx : y = x
    · simp [hyx]
    · simpa [Function.update_of_ne hyx] using hstarted'
  · refine ⟨h.closed, ?_, ?_⟩
    · intro y
      by_cases hyx : y = x
      · subst hyx
        rw [s.exchange_setExchange_self]
        exact hregular.undisturbed haccepts (h.exchange y)
      · rw [s.exchange_setExchange_of_ne hyx]
        exact h.exchange y
    · intro y result hy
      obtain ⟨hroutes, hstarted, hs, hr⟩ := h.joined y result hy
      have hkeep : ∀ z bySender, ¬ (s.exchange z).Busy bySender →
          ¬ ((s.setExchange x e').exchange z).Busy bySender := by
        intro z bySender hdone
        by_cases hzx : z = x
        · subst hzx
          rw [s.exchange_setExchange_self]
          exact hregular.not_busy hdone
        · rwa [s.exchange_setExchange_of_ne hzx]
      exact ⟨hroutes, hstarted, hkeep _ _ hs, hkeep _ _ hr⟩
  · refine ⟨h.closed, h.exchange, ?_⟩
    intro y result hy
    by_cases hyx : y = x
    · subst hyx
      obtain rfl : Except.ok (routesOf y.other) = result := by
        simpa [HandshakeState.setResult] using hy
      exact ⟨rfl, ((s.running_iff y).1 hrunning).1, hs, hr⟩
    · exact h.joined y result (by simpa [HandshakeState.setResult, Function.update_of_ne hyx] using hy)

theorem HandshakeState.work_lt_of_side (x : Party) (hlt : s'.sideWork cfg x < s.sideWork cfg x)
    (hother : s'.sideWork cfg x.other = s.sideWork cfg x.other) : s'.work cfg < s.work cfg := by
  cases x with
  | a =>
      have hother : s'.sideWork cfg .b = s.sideWork cfg .b := hother
      unfold HandshakeState.work
      omega
  | b =>
      have hother : s'.sideWork cfg .a = s.sideWork cfg .a := hother
      unfold HandshakeState.work
      omega

theorem HandshakeState.Undisturbed.work_lt (h : s.Undisturbed cfg routesOf)
    (haccepts : cfg.Accepts routesOf) {a : HandshakeAction} (ha : a.isRegular = true)
    (hstep : s.step cfg a = some s') : s'.work cfg < s.work cfg := by
  rcases h.cases haccepts ha hstep with
    ⟨x, hstarted, hresult, rfl⟩ | ⟨x, b, e', hrunning, hregular, rfl⟩ | ⟨x, hrunning, hs, hr, rfl⟩
  · refine HandshakeState.work_lt_of_side x ?_ ?_
    · simp [HandshakeState.sideWork, hstarted]
    · simp [HandshakeState.sideWork, Function.update_of_ne (Party.other_ne x)]
  · have hlt := hregular.work_lt (h.exchange x)
    refine HandshakeState.work_lt_of_side x ?_ ?_
    · simpa [HandshakeState.sideWork, HandshakeState.setExchange] using hlt
    · simp [HandshakeState.sideWork, HandshakeState.setExchange,
        Function.update_of_ne (Party.other_ne x)]
  · have hnone := ((s.running_iff x).1 hrunning).2
    refine HandshakeState.work_lt_of_side x ?_ ?_
    · simp [HandshakeState.sideWork, HandshakeState.setResult, hnone]
    · simp [HandshakeState.sideWork, HandshakeState.setResult,
        Function.update_of_ne (Party.other_ne x)]

/-- When neither side can take a step, the tasks of both have returned. -/
theorem HandshakeState.Undisturbed.not_busy_at_rest (h : s.Undisturbed cfg routesOf)
    (hrest : ∀ a : HandshakeAction, a.isRegular = true → s.step cfg a = none)
    (hstarted : ∀ x, s.started x = true) (x : Party) :
    ¬ (s.exchange x).Busy true ∧ ¬ (s.exchange x).Busy false := by
  rw [← not_or]
  intro hbusy
  obtain ⟨b, hb, hactor, hready⟩ := (h.exchange x).goes_on hbusy
  -- a side with a task that has not returned has not returned itself
  have hrunning : s.running (b.actor x) = true := by
    refine (s.running_iff _).2 ⟨hstarted _, ?_⟩
    by_contra hdone
    obtain ⟨result, hresult⟩ := Option.ne_none_iff_exists'.1 hdone
    obtain ⟨-, -, hs, hr⟩ := h.joined _ result hresult
    cases hby : b.bySender with
    | true =>
        rw [ExchangeAction.actor, hby, if_pos rfl] at hs
        exact hs (hby ▸ hactor)
    | false =>
        rw [ExchangeAction.actor, hby, if_neg (by simp), Party.other_other] at hr
        exact hr (hby ▸ hactor)
  obtain ⟨⟨e', closed⟩, he⟩ := Option.isSome_iff_exists.1 (hready.isSome cfg x)
  have hnone := hrest (.exchange x b) hb
  simp only [HandshakeState.step, if_pos hrunning, h.closed, he] at hnone
  exact absurd hnone (by simp)

/-- **No deadlock.** When neither side can take a step, both have each other's routes. -/
theorem HandshakeState.Undisturbed.at_rest (h : s.Undisturbed cfg routesOf)
    (hrest : ∀ a : HandshakeAction, a.isRegular = true → s.step cfg a = none) (x : Party) :
    s.result x = some (.ok (routesOf x.other)) := by
  have hstarted : ∀ y, s.started y = true := by
    intro y
    by_contra hnot
    have hresult : s.result y = none := by
      by_contra hdone
      obtain ⟨result, hresult⟩ := Option.ne_none_iff_exists'.1 hdone
      exact hnot (h.joined y result hresult).2.1
    have hnone := hrest (.direct y true) rfl
    simp [HandshakeState.step, hresult, hnot] at hnone
  have hdone := h.not_busy_at_rest hrest hstarted
  cases hresult : s.result x with
  | some result => rw [(h.joined x result hresult).1]
  | none =>
      -- then `x` could return
      have hs := (hdone x).1
      have hr := (hdone x.other).2
      simp only [Exchange.Busy, if_true, Bool.false_eq_true, if_false, not_forall, not_not] at hs hr
      obtain ⟨send, hsend⟩ := hs
      obtain ⟨receive, hreceive⟩ := hr
      have hnone := hrest (.join x) rfl
      have hrunning : s.running x = true := (s.running_iff x).2 ⟨hstarted x, hresult⟩
      simp [HandshakeState.step, hrunning, hsend, hreceive] at hnone

/-- **A handshake that nobody disturbs succeeds.** Whatever the order of their steps: the two sides
    take only so many, they never get stuck, and once none is left each has the routes of the other. -/
theorem handshake_completes (cfg : HandshakeConfig SecretKey PublicKey Signature)
    (routesOf : Party → RoutesChanged) (haccepts : cfg.Accepts routesOf)
    (acts : List HandshakeAction) (s : HandshakeState)
    (hrun : runFrom (HandshakeState.step cfg) .new acts = some s)
    (hregular : ∀ a ∈ acts, a.isRegular = true) :
    acts.length ≤ 2 * ((cfg.requestBytes .a).length + (cfg.requestBytes .b).length)
        + 4 * (cfg.codec.encodeResponse default).length + 20 ∧
      ((∀ a : HandshakeAction, a.isRegular = true → s.step cfg a = none) →
        ∀ x, s.result x = some (.ok (routesOf x.other))) ∧
      ∃ more s', (∀ a ∈ more, a.isRegular = true) ∧
        runFrom (HandshakeState.step cfg) s more = some s' ∧
        ∀ x, s'.result x = some (.ok (routesOf x.other)) := by
  have hI : ∀ (t : HandshakeState) a t', t.Undisturbed cfg routesOf →
      HandshakeAction.isRegular a = true → t.step cfg a = some t' → t'.Undisturbed cfg routesOf :=
    fun _ _ _ h ha hs => h.step haccepts ha hs
  have hμ : ∀ (t : HandshakeState) a t', t.Undisturbed cfg routesOf →
      HandshakeAction.isRegular a = true → t.step cfg a = some t' → t'.work cfg < t.work cfg :=
    fun _ _ _ h ha hs => h.work_lt haccepts ha hs
  have hnew := HandshakeState.Undisturbed.new cfg routesOf
  have hmeets : RunMeets (HandshakeState.step cfg) (fun _ a => HandshakeAction.isRegular a = true)
      .new acts := (runMeets_iff_forall hrun).2 hregular
  have hend := runFrom_invariant_of_meets hI hnew hmeets hrun
  refine ⟨?_, hend.at_rest, ?_⟩
  · have hlength := length_add_le_of_decreasing hI hμ hnew hregular hrun
    have hwork : HandshakeState.new.work cfg
        = 2 * ((cfg.requestBytes .a).length + (cfg.requestBytes .b).length)
          + 4 * (cfg.codec.encodeResponse default).length + 20 := by
      simp only [HandshakeState.work, HandshakeState.sideWork, HandshakeState.new, Exchange.work,
        Exchange.senderWork, Exchange.receiverWork, Exchange.new, Bool.not_false, Bool.toNat_true,
        Option.isNone_none]
      omega
    omega
  · obtain ⟨more, s', hmore, hrun', hlast, hrest⟩ := exists_run_to_rest hI hμ hend
    exact ⟨more, s', hmore, hrun', hlast.at_rest hrest⟩

end

/-- The addresses of the two sides of `sampleHandshake`. -/
def sampleRoutes (x : Party) : RoutesChanged :=
  ⟨[(generateSignedIpnet transparentScheme (.v6 (vpnSubnet 0)) (if x = .a then 8 else 7)).1.addr]⟩

theorem sampleHandshake_accepts : sampleHandshake.Accepts sampleRoutes where
  accepted x := by cases x <;> decide +kernel
  request x := by cases x <;> decide +kernel
  response := by decide +kernel

/-- From the middle of it, both sides still get to the end. -/
theorem handshake_completes_sample :
    ∃ s more s', runFrom (HandshakeState.step sampleHandshake) .new undisturbed = some s ∧
      runFrom (HandshakeState.step sampleHandshake) s more = some s' ∧
      ∀ x, s'.result x = some (.ok (sampleRoutes x.other)) := by
  obtain ⟨s, hrun⟩ : ∃ s, runFrom (HandshakeState.step sampleHandshake) .new undisturbed = some s :=
    Option.isSome_iff_exists.1 (by decide +kernel)
  have hregular : ∀ a ∈ undisturbed, HandshakeAction.isRegular a = true := by decide +kernel
  obtain ⟨-, -, more, s', -, hmore, hresult⟩ :=
    handshake_completes sampleHandshake sampleRoutes sampleHandshake_accepts undisturbed s hrun hregular
  exact ⟨s, more, s', hrun, hmore, hresult⟩

end P2pVpn
