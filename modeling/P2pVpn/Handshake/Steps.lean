import P2pVpn.Handshake.Basic

set_option autoImplicit false

/-! # What a step of an exchange can do

`ExchangeStep` lists the transitions of `Exchange.step`, one constructor for each outcome of an await
in `send_advertise` or `recv_control`. -/

namespace P2pVpn

section

variable {SecretKey PublicKey Signature : Type}

/-- Transitions of the exchange that `x` opens. -/
inductive ExchangeStep (cfg : HandshakeConfig SecretKey PublicKey Signature) (x : Party)
    (e : Exchange) (closed : Bool) : ExchangeAction → Exchange → Bool → Prop where
  | openBi (hs : e.sender = .opening) :
      ExchangeStep cfg x e closed .openBi
        { e with opened := true, sender := .writing (.writing (cfg.requestBytes x)) } closed
  | write {w w' : WriterState} {wa : WriterAction} {request : Flow} (hs : e.sender = .writing w)
      (hw : WriteStep e.request w wa request (.running w')) :
      ExchangeStep cfg x e closed (.write wa)
        { e with request := request, sender := .writing w' } closed
  | written {w : WriterState} {wa : WriterAction} {request : Flow} (hs : e.sender = .writing w)
      (hw : WriteStep e.request w wa request (.returned true)) :
      ExchangeStep cfg x e closed (.write wa)
        { e with request := request, sender := .reading [] } closed
  | writeFailed {w : WriterState} {wa : WriterAction} {request : Flow} (hs : e.sender = .writing w)
      (hw : WriteStep e.request w wa request (.returned false)) :
      ExchangeStep cfg x e closed (.write wa)
        { e with
          request := request, response := e.response.dropRecv,
          sender := .done (.error .stream) } closed
  | readResponse {buffer buffer' : List UInt8} {ra : ReaderAction} {response : Flow}
      (hs : e.sender = .reading buffer)
      (hr : e.response.readStep MAX_MESSAGE_SIZE buffer ra = some (response, .more buffer')) :
      ExchangeStep cfg x e closed (.readResponse ra)
        { e with response := response, sender := .reading buffer' } closed
  | responseTooLong {buffer : List UInt8} {ra : ReaderAction} {response : Flow}
      (hs : e.sender = .reading buffer)
      (hr : e.response.readStep MAX_MESSAGE_SIZE buffer ra = some (response, .tooLong)) :
      ExchangeStep cfg x e closed (.readResponse ra)
        { e with response := response.dropRecv, sender := .done (.error .stream) } closed
  | responseEnded {buffer buffer' : List UInt8} {ra : ReaderAction} {response : Flow}
      (hs : e.sender = .reading buffer)
      (hr : e.response.readStep MAX_MESSAGE_SIZE buffer ra = some (response, .ended buffer')) :
      ExchangeStep cfg x e closed (.readResponse ra)
        { e with response := response, sender := .done (cfg.sendResult buffer') } closed
  | senderLost (hclosed : closed = true) :
      ExchangeStep cfg x e closed .senderLost { e with sender := .done (.error .stream) } closed
  | acceptBi (hr : e.receiver = .accepting) (hopened : e.opened = true) :
      ExchangeStep cfg x e closed .acceptBi { e with receiver := .reading [] } closed
  | readRequest {buffer buffer' : List UInt8} {ra : ReaderAction} {request : Flow}
      (hs : e.receiver = .reading buffer)
      (hr : e.request.readStep MAX_MESSAGE_SIZE buffer ra = some (request, .more buffer')) :
      ExchangeStep cfg x e closed (.readRequest ra)
        { e with request := request, receiver := .reading buffer' } closed
  | requestTooLong {buffer : List UInt8} {ra : ReaderAction} {request : Flow}
      (hs : e.receiver = .reading buffer)
      (hr : e.request.readStep MAX_MESSAGE_SIZE buffer ra = some (request, .tooLong)) :
      ExchangeStep cfg x e closed (.readRequest ra)
        (Exchange.malformed { e with request := request.dropRecv } closed) closed
  | requestMalformed {buffer buffer' : List UInt8} {ra : ReaderAction} {request : Flow}
      (hs : e.receiver = .reading buffer)
      (hr : e.request.readStep MAX_MESSAGE_SIZE buffer ra = some (request, .ended buffer'))
      (hdecode : cfg.codec.decodeRequest buffer' = none) :
      ExchangeStep cfg x e closed (.readRequest ra)
        (Exchange.malformed { e with request := request } closed) closed
  | handled {buffer buffer' : List UInt8} {ra : ReaderAction} {request : Flow}
      {req : ControlRequest} (hs : e.receiver = .reading buffer)
      (hr : e.request.readStep MAX_MESSAGE_SIZE buffer ra = some (request, .ended buffer'))
      (hdecode : cfg.codec.decodeRequest buffer' = some req) :
      ExchangeStep cfg x e closed (.readRequest ra)
        { e with
          request := request, handled := some (req, cfg.handle x req),
          receiver := .responding
            (.writing (cfg.codec.encodeResponse (controlResponse (cfg.handle x req).result)))
            (cfg.handle x req).result }
        (closed || (cfg.handle x req).closedWith.isSome)
  | respond {w w' : WriterState} {result : Except ThinStatus (Option RoutesChanged)}
      {wa : WriterAction} {response : Flow} (hs : e.receiver = .responding w result)
      (hopen : closed = false) (hw : WriteStep e.response w wa response (.running w')) :
      ExchangeStep cfg x e closed (.respond wa)
        { e with response := response, receiver := .responding w' result } closed
  | responded {w : WriterState} {result : Except ThinStatus (Option RoutesChanged)}
      {wa : WriterAction} {response : Flow} {ok : Bool} (hs : e.receiver = .responding w result)
      (hw : WriteStep e.response w wa response (.returned ok)) :
      ExchangeStep cfg x e closed (.respond wa)
        { e with response := response, receiver := .done (receiveResult result ok) } closed
  | receiverLost {error : ReceiveError} :
      ExchangeStep cfg x e closed .receiverLost { e with receiver := .done (.error error) } closed

variable {cfg : HandshakeConfig SecretKey PublicKey Signature} {x : Party} {e e' : Exchange}
  {closed closed' : Bool}

/-- A result whose response was not written is an error. -/
theorem receiveResult_false (result : Except ThinStatus (Option RoutesChanged)) :
    ∃ error, receiveResult result false = .error error := by
  rcases result with status | routes
  · exact ⟨_, rfl⟩
  · exact ⟨.response, rfl⟩

/-- Every step of an exchange is one of the listed transitions. -/
theorem Exchange.step_sound {a : ExchangeAction}
    (h : e.step cfg x closed a = some (e', closed')) : ExchangeStep cfg x e closed a e' closed' := by
  unfold Exchange.step at h
  split at h
  · next hs =>
      split_ifs at h
      obtain ⟨rfl, rfl⟩ := Prod.mk.inj (Option.some.inj h)
      exact .openBi hs
  · next w wa hs =>
      split at h
      · next hw =>
          obtain ⟨rfl, rfl⟩ := Prod.mk.inj (Option.some.inj h)
          exact .write hs (Flow.writeStep_sound hw).2
      · next hw =>
          obtain ⟨rfl, rfl⟩ := Prod.mk.inj (Option.some.inj h)
          exact .written hs (Flow.writeStep_sound hw).2
      · next hw =>
          obtain ⟨rfl, rfl⟩ := Prod.mk.inj (Option.some.inj h)
          exact .writeFailed hs (Flow.writeStep_sound hw).2
      · exact absurd h (by simp)
  · next buffer ra hs =>
      split at h
      · next hr =>
          obtain ⟨rfl, rfl⟩ := Prod.mk.inj (Option.some.inj h)
          exact .readResponse hs hr
      · next hr =>
          obtain ⟨rfl, rfl⟩ := Prod.mk.inj (Option.some.inj h)
          exact .responseTooLong hs hr
      · next hr =>
          obtain ⟨rfl, rfl⟩ := Prod.mk.inj (Option.some.inj h)
          exact .responseEnded hs hr
      · exact absurd h (by simp)
  · exact absurd h (by simp)
  · split_ifs at h with hclosed
    obtain ⟨rfl, rfl⟩ := Prod.mk.inj (Option.some.inj h)
    exact .senderLost hclosed
  · next hr =>
      split_ifs at h with hopened
      obtain ⟨rfl, rfl⟩ := Prod.mk.inj (Option.some.inj h)
      exact .acceptBi hr hopened
  · next buffer ra hs =>
      split at h
      · next hr =>
          obtain ⟨rfl, rfl⟩ := Prod.mk.inj (Option.some.inj h)
          exact .readRequest hs hr
      · next hr =>
          obtain ⟨rfl, rfl⟩ := Prod.mk.inj (Option.some.inj h)
          exact .requestTooLong hs hr
      · next hr =>
          split at h
          · next hdecode =>
              obtain ⟨rfl, rfl⟩ := Prod.mk.inj (Option.some.inj h)
              exact .requestMalformed hs hr hdecode
          · next hdecode =>
              obtain ⟨rfl, rfl⟩ := Prod.mk.inj (Option.some.inj h)
              exact .handled hs hr hdecode
      · exact absurd h (by simp)
  · next w result wa hs =>
      split at h
      · next hw =>
          obtain ⟨rfl, rfl⟩ := Prod.mk.inj (Option.some.inj h)
          obtain ⟨hopen, hstep⟩ := Flow.writeStep_sound hw
          exact .respond hs hopen hstep
      · next hw =>
          obtain ⟨rfl, rfl⟩ := Prod.mk.inj (Option.some.inj h)
          exact .responded hs (Flow.writeStep_sound hw).2
      · exact absurd h (by simp)
  · split_ifs at h
    obtain ⟨rfl, rfl⟩ := Prod.mk.inj (Option.some.inj h)
    exact .receiverLost
  · split_ifs at h
    obtain ⟨rfl, rfl⟩ := Prod.mk.inj (Option.some.inj h)
    exact .receiverLost
  · next w result hs =>
      split_ifs at h
      obtain ⟨rfl, rfl⟩ := Prod.mk.inj (Option.some.inj h)
      obtain ⟨error, herror⟩ := receiveResult_false result
      rw [herror]
      exact .receiverLost
  · exact absurd h (by simp)

/-- The sender's steps leave the receiver where it is, and the other way round. -/
theorem ExchangeStep.other_task {a : ExchangeAction} (h : ExchangeStep cfg x e closed a e' closed') :
    (a.bySender = true → e'.receiver = e.receiver) ∧ (a.bySender = false → e'.sender = e.sender) := by
  cases h <;> refine ⟨fun hs => ?_, fun hs => ?_⟩ <;> 
    first | rfl | exact absurd hs (by simp [ExchangeAction.bySender])

/-- A closed connection stays closed. -/
theorem ExchangeStep.closed_mono {a : ExchangeAction} (h : ExchangeStep cfg x e closed a e' closed')
    (hclosed : closed = true) : closed' = true := by
  cases h <;> simp [hclosed]

@[simp] theorem Exchange.sender_dropSender (e : Exchange) (closed : Bool) :
    (e.dropSender closed).sender = e.sender := by
  unfold Exchange.dropSender
  split <;> rfl

@[simp] theorem Exchange.receiver_dropSender (e : Exchange) (closed : Bool) :
    (e.dropSender closed).receiver = e.receiver := by
  unfold Exchange.dropSender
  split <;> rfl

@[simp] theorem Exchange.sender_dropReceiver (e : Exchange) (closed : Bool) :
    (e.dropReceiver closed).sender = e.sender := by
  unfold Exchange.dropReceiver
  split <;> rfl

@[simp] theorem Exchange.receiver_dropReceiver (e : Exchange) (closed : Bool) :
    (e.dropReceiver closed).receiver = e.receiver := by
  unfold Exchange.dropReceiver
  split <;> rfl

end

end P2pVpn
