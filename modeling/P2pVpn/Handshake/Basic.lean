import P2pVpn.Lib.Transition
import P2pVpn.Peer.Handshake
import P2pVpn.Proto.Stream
import P2pVpn.Proto.Wire

set_option autoImplicit false

/-! # Two peers shaking hands (`Peer::handshake` in `src/peer.rs`, `src/proto.rs`)

Two instances of the program on one connection. Each opens one bidirectional stream, sends its
`Advertise` there and reads the response (`send_advertise`), and accepts the other's stream, handles
the request and answers it (`recv_control`). An `Exchange` is one of the two streams with the task at
either end; a step is what one task does between two await points. The connection may be closed at
any moment, and either side's timeout may drop its two tasks at any moment. -/

namespace P2pVpn

/-- The two ends of a connection. -/
inductive Party where
  | a
  | b
  deriving DecidableEq

/-- The end opposite to `x`. -/
def Party.other : Party → Party
  | .a => .b
  | .b => .a

/-- What the two sides were started with. -/
structure HandshakeConfig (SecretKey PublicKey Signature : Type) where
  lib : Library SecretKey PublicKey Signature
  codec : Codec
  common : Party → CommonPeerConfig
  /-- The public key of each side. -/
  key : Party → PublicKey
  advertise : Party → Advertise

/-! ## One exchange -/

/-- `send_advertise`, at the side that opened the stream. -/
inductive Sender where
  | opening
  | writing (w : WriterState)
  | reading (buffer : List UInt8)
  | done (result : Except SendError Unit)

/-- `recv_control`, at the side that accepts it. -/
inductive Receiver where
  | accepting
  | reading (buffer : List UInt8)
  | responding (w : WriterState) (result : Except ThinStatus (Option RoutesChanged))
  | done (result : Except ReceiveError (Option RoutesChanged))

/-- One side's request and the other's response, with the two tasks that exchange them. -/
structure Exchange where
  opened : Bool
  request : Flow
  response : Flow
  sender : Sender
  receiver : Receiver
  /-- The run of `handle_control_request` on this stream, if there was one. -/
  handled : Option (ControlRequest × ControlOutcome)

/-- The stream is not open yet. -/
def Exchange.new : Exchange := ⟨false, .new, .new, .opening, .accepting, none⟩

/-- What the two tasks of an exchange wait for. -/
inductive ExchangeAction where
  | openBi
  | write (a : WriterAction)
  | readResponse (a : ReaderAction)
  /-- The sender's pending operation fails because the connection is closed. -/
  | senderLost
  | acceptBi
  | readRequest (a : ReaderAction)
  | respond (a : WriterAction)
  /-- The receiver's pending operation fails because the connection is closed. -/
  | receiverLost
  deriving DecidableEq

/-- Whether the side that opened the stream takes the step. -/
def ExchangeAction.bySender : ExchangeAction → Bool
  | .openBi => true
  | .write _ => true
  | .readResponse _ => true
  | .senderLost => true
  | _ => false

/-- The side that takes a step of the exchange `x` opened. -/
def ExchangeAction.actor (a : ExchangeAction) (x : Party) : Party :=
  if a.bySender then x else x.other

/-- The result of `read_control`, given that of the handler and whether the response was written. -/
def receiveResult (result : Except ThinStatus (Option RoutesChanged)) (written : Bool) :
    Except ReceiveError (Option RoutesChanged) :=
  match result with
  | .error status => .error (.noValidRoutes status)
  | .ok routes => if written then .ok routes else .error .response

/-- The response `read_control` writes. -/
def controlResponse : Except ThinStatus (Option RoutesChanged) → ControlResponse
  | .ok _ => default
  | .error status => statusToControl status

section

variable {SecretKey PublicKey Signature : Type} (cfg : HandshakeConfig SecretKey PublicKey Signature)

/-- The bytes of `x`'s request. -/
def HandshakeConfig.requestBytes (x : Party) : List UInt8 :=
  cfg.codec.encodeRequest ⟨some (cfg.advertise x)⟩

/-- `handle_control_request` at the other side of `x`, whose remote end is `x`. -/
def HandshakeConfig.handle (x : Party) (request : ControlRequest) : ControlOutcome :=
  handleControlRequest cfg.lib (cfg.common x.other) (cfg.key x) request

/-- The rest of `send_advertise` once the response has been read. -/
def HandshakeConfig.sendResult (buffer : List UInt8) : Except SendError Unit :=
  match cfg.codec.decodeResponse buffer with
  | none => .error .stream
  | some response =>
      match controlToStatus response with
      | .ok () => .ok ()
      | .error status => .error (.status status)

/-- `read_control` returns early: the response stream is dropped without an answer. -/
def Exchange.malformed (e : Exchange) (closed : Bool) : Exchange :=
  { e with receiver := .done (.error .malformed), response := e.response.dropSend closed }

/-- One step of an exchange that `x` opened; the result says whether the connection is closed. -/
def Exchange.step (x : Party) (e : Exchange) (closed : Bool) (a : ExchangeAction) :
    Option (Exchange × Bool) :=
  match e.sender, e.receiver, a with
  | .opening, _, .openBi =>
      if closed then none
      else
        some ({ e with opened := true, sender := .writing (.writing (cfg.requestBytes x)) }, closed)
  | .writing w, _, .write wa =>
      match e.request.writeStep closed w wa with
      | some (request, .running w') =>
          some ({ e with request := request, sender := .writing w' }, closed)
      | some (request, .returned true) =>
          some ({ e with request := request, sender := .reading [] }, closed)
      | some (request, .returned false) =>
          some ({ e with
            request := request, response := e.response.dropRecv,
            sender := .done (.error .stream) }, closed)
      | none => none
  | .reading buffer, _, .readResponse ra =>
      match e.response.readStep MAX_MESSAGE_SIZE buffer ra with
      | some (response, .more buffer') =>
          some ({ e with response := response, sender := .reading buffer' }, closed)
      | some (response, .tooLong) =>
          some ({ e with response := response.dropRecv, sender := .done (.error .stream) }, closed)
      | some (response, .ended buffer') =>
          some ({ e with response := response, sender := .done (cfg.sendResult buffer') }, closed)
      | none => none
  | .done _, _, .senderLost => none
  | _, _, .senderLost =>
      if closed then some ({ e with sender := .done (.error .stream) }, closed) else none
  | _, .accepting, .acceptBi =>
      if e.opened then some ({ e with receiver := .reading [] }, closed) else none
  | _, .reading buffer, .readRequest ra =>
      match e.request.readStep MAX_MESSAGE_SIZE buffer ra with
      | some (request, .more buffer') =>
          some ({ e with request := request, receiver := .reading buffer' }, closed)
      | some (request, .tooLong) =>
          some (Exchange.malformed { e with request := request.dropRecv } closed, closed)
      | some (request, .ended buffer') =>
          match cfg.codec.decodeRequest buffer' with
          | none => some (Exchange.malformed { e with request := request } closed, closed)
          | some req =>
              let outcome := cfg.handle x req
              let bytes := cfg.codec.encodeResponse (controlResponse outcome.result)
              some ({ e with
                request := request, handled := some (req, outcome),
                receiver := .responding (.writing bytes) outcome.result },
                closed || outcome.closedWith.isSome)
      | none => none
  | _, .responding w result, .respond wa =>
      match e.response.writeStep closed w wa with
      | some (response, .running w') =>
          some ({ e with response := response, receiver := .responding w' result }, closed)
      | some (response, .returned ok) =>
          some ({ e with response := response, receiver := .done (receiveResult result ok) }, closed)
      | none => none
  | _, .accepting, .receiverLost =>
      if closed then some ({ e with receiver := .done (.error .accept) }, closed) else none
  | _, .reading _, .receiverLost =>
      if closed then some ({ e with receiver := .done (.error .malformed) }, closed) else none
  | _, .responding _ result, .receiverLost =>
      if closed then some ({ e with receiver := .done (receiveResult result false) }, closed) else none
  | _, _, _ => none

/-- The sender's future is dropped. -/
def Exchange.dropSender (e : Exchange) (closed : Bool) : Exchange :=
  match e.sender with
  | .writing _ =>
      { e with request := e.request.dropSend closed, response := e.response.dropRecv }
  | .reading _ => { e with response := e.response.dropRecv }
  | _ => e

/-- The receiver's future is dropped. -/
def Exchange.dropReceiver (e : Exchange) (closed : Bool) : Exchange :=
  match e.receiver with
  | .reading _ =>
      { e with request := e.request.dropRecv, response := e.response.dropSend closed }
  | .responding _ _ => { e with response := e.response.dropSend closed }
  | _ => e

/-! ## The two sides -/

/-- A handshake between two ends: two exchanges, one in each direction. -/
structure HandshakeState where
  /-- The exchange each side opens. -/
  exchange : Party → Exchange
  /-- Past `wait_for_direct`. -/
  started : Party → Bool
  result : Party → Option (Except HandshakeError RoutesChanged)
  closed : Bool

/-- Neither side has started. -/
def HandshakeState.new : HandshakeState :=
  ⟨fun _ => .new, fun _ => false, fun _ => none, false⟩

/-- What can happen in a handshake. -/
inductive HandshakeAction where
  /-- `wait_for_direct` returns. -/
  | direct (x : Party) (ok : Bool)
  /-- A step of the exchange that `x` opens. -/
  | exchange (x : Party) (a : ExchangeAction)
  /-- Both tasks of `x` are done. -/
  | join (x : Party)
  | timeout (x : Party)
  /-- The connection is closed or lost for some other reason. -/
  | close
  deriving DecidableEq

/-- `x` is between `wait_for_direct` and the end of its handshake. -/
def HandshakeState.running (s : HandshakeState) (x : Party) : Bool :=
  s.started x && (s.result x).isNone

/-- The handshake returns at `x`. -/
def HandshakeState.setResult (s : HandshakeState) (x : Party)
    (result : Except HandshakeError RoutesChanged) : HandshakeState :=
  { s with result := Function.update s.result x (some result) }

/-- The exchange that `x` opens has come to `e`. -/
def HandshakeState.setExchange (s : HandshakeState) (x : Party) (e : Exchange) : HandshakeState :=
  { s with exchange := Function.update s.exchange x e }

/-- One step of a handshake. -/
def HandshakeState.step (s : HandshakeState) : HandshakeAction → Option HandshakeState
  | .direct x ok =>
      if s.started x = false ∧ s.result x = none then
        if ok then some { s with started := Function.update s.started x true }
        else some (s.setResult x (.error .notDirect))
      else none
  | .exchange x a =>
      if s.running (a.actor x) then
        match (s.exchange x).step cfg x s.closed a with
        | some (e, closed) => some { s.setExchange x e with closed := closed }
        | none => none
      else none
  | .join x =>
      if s.running x then
        match (s.exchange x).sender, (s.exchange x.other).receiver with
        | .done send, .done receive => some (s.setResult x (handshakeResult send receive))
        | _, _ => none
      else none
  | .timeout x =>
      if s.running x then
        some (((s.setExchange x ((s.exchange x).dropSender s.closed)).setExchange x.other
          ((s.exchange x.other).dropReceiver s.closed)).setResult x (.error .timeout))
      else none
  | .close => some { s with closed := true }

end

end P2pVpn
