import LemonModel.Socket.Peer
import LemonModel.Text.Json

/-!
# Messages between peers

What peers say to each other over their links: `post`, `send`, `dispatch` and
`reply` of `socket.ts`. A message that was handed to a network is in flight to
the network's readers until it is delivered, once or never, and a reliable
transport may report at any time that it gave a message up. A listener is at work
until the environment says that it returned or threw.
-/

namespace LemonModel

open Text

structure SocketMessage where
  type : JSString
  mid : JSString
  data : Json

/-- A message that settles the send with its id, if there is one. -/
def SocketMessage.isAnswer (message : SocketMessage) : Bool :=
  message.type = lit "result" ∨ message.type = lit "pong" ∨ message.type = lit "error"

structure PeerTargetOptions where
  clientId : Option JSString

/-- What `send` returned, with the message id and the peer the message is for. -/
structure Promise where
  no : Nat
  peer : Nat
  mid : JSString
  target : Option Nat
  deriving DecidableEq

/-- Whose failure handler waits for a `sendToLink`. -/
inductive Origin where
  | post
  | send (promise : Promise)
  | reply (target : Nat)
  deriving DecidableEq

/-- A message in the hands of a reliable transport, named by the network it
reads. -/
structure Sending where
  peer : Nat
  mid : JSString
  origin : Origin
  transport : Nat
  deriving DecidableEq

/-- What a listener is called with. -/
structure PeerMessageContext where
  peer : Nat
  sender : Nat
  mid : JSString
  deriving DecidableEq

/-- A message in flight to one reader. `answers` counts the automatic replies on
the way from a call to this message. -/
structure Flight where
  reader : Reader
  message : SocketMessage
  answers : Nat

/-- The listeners at work on a message, and those still to be called. -/
structure Handling where
  context : PeerMessageContext
  listeners : List Nat
  results : List Json
  answers : Nat

/-- How a promise was settled: by an answer (with `message.data`), because a
message under its id could not be delivered, because a peer could not deliver its
reply, because a listener threw on a message, because `publish` threw, or because
the peer closed. -/
inductive Settlement where
  | answered (sender : Nat) (message : SocketMessage)
  | undelivered (origin : Origin)
  | unreplied (peer : Nat)
  | thrown (sender : Nat)
  | refused (error : JSString)
  | closed

/-- What a `sendToLink` does: it hands the message over, or throws. -/
inductive Handover where
  | takes
  | throws

/-- Peers, what they wait for and listen with, and what is on its way. The log of
what was settled is newest first, and so is the log of the wire. -/
structure Exchange where
  mesh : Mesh
  pending : Nat → Dict JSString Promise
  listeners : Nat → List Nat
  flights : List Flight
  sendings : List Sending
  handlings : List Handling
  contexts : List PeerMessageContext
  promises : List Promise
  settled : List (Promise × Settlement)
  wire : List (SocketMessage × Nat)

namespace Exchange

/-! ## Settling -/

def settle (s : Exchange) (promise : Promise) (how : Settlement) : Exchange :=
  { s with settled := (promise, how) :: s.settled }

/-- `this.pending.delete(mid)`. -/
def deletePending (s : Exchange) (this : Nat) (mid : JSString) : Exchange :=
  { s with pending := Function.update s.pending this ((s.pending this).delete mid) }

/-- Takes the promise that waits under a message id, and settles it. -/
def settlePending (s : Exchange) (this : Nat) (mid : JSString) (how : Settlement) : Exchange :=
  match (s.pending this).get? mid with
  | none => s
  | some promise => (s.deletePending this mid).settle promise how

def rejectPending (s : Exchange) (this : Nat) (mid : JSString) (how : Settlement) : Exchange :=
  if mid = [] then s else s.settlePending this mid how

/-- The `catch` of a `sendToLink`. -/
def fail (s : Exchange) (this : Nat) (mid : JSString) : Origin → Exchange
  | .reply target => s.rejectPending target mid (.unreplied this)
  | origin => s.settlePending this mid (.undelivered origin)

/-! ## Sending -/

/-- `sendToLink`, with the `catch` around it. -/
def sendToLink (s : Exchange) (this : Nat) (link : PeerLink) (message : SocketMessage)
    (origin : Origin) (answers : Nat) (handover : Handover) : Exchange :=
  match handover with
  | .throws => s.fail this message.mid origin
  | .takes =>
    { s with
      flights := s.flights ++ ((s.mesh.networks link.network).messageListeners.map fun reader =>
        ⟨reader, message, answers⟩)
      sendings := s.sendings ++ (link.senderTransport.toList.map fun t =>
        ⟨this, message.mid, origin, t.receiveNetwork⟩)
      wire := (message, answers) :: s.wire }

def resolveTarget (p : Peer) (options : PeerTargetOptions) : Except JSString PeerLink :=
  match options.clientId.filter (· ≠ []) with
  | some clientId =>
    match p.clients.get? clientId with
    | some link => .ok link
    | none =>
      .error (lit "@clientId[" ++ clientId ++ lit "] is not connected - peer.post(" ++ p.id ++
        lit ")")
  | none =>
    match p.server with
    | some server => .ok server
    | none =>
      match p.clients.entries with
      | [(_, link)] => .ok link
      | [] => .error (lit "@peer is not connected - peer.post(" ++ p.id ++ lit ")")
      | _ => .error (lit "@clientId (string) is required - peer.post(" ++ p.id ++ lit ")")

/-- What `publish` checks before it sends: the link it sends on. -/
def publishTarget (p : Peer) (message : SocketMessage) (options : PeerTargetOptions) :
    Except JSString PeerLink := do
  p.ensureOpen (lit "peer.post")
  if message.type = [] then
    throw (lit "@message.type (string) is required - peer.post(" ++ p.id ++ lit ")")
  if message.mid = [] then
    throw (lit "@message.mid (string) is required - peer.post(" ++ p.id ++ lit ")")
  resolveTarget p options

/-- `post`, which does nothing more when it throws. -/
def post (s : Exchange) (this : Nat) (message : SocketMessage) (options : PeerTargetOptions)
    (handover : Handover) : Exchange :=
  match publishTarget (s.mesh.peers this) message options with
  | .error _ => s
  | .ok link => s.sendToLink this link message .post 0 handover

/-- `send`, where `message.mid` is the caller's id or the next one. -/
def send (s : Exchange) (this : Nat) (message : SocketMessage) (options : PeerTargetOptions)
    (handover : Handover) : Exchange :=
  let found := publishTarget (s.mesh.peers this) message options
  let promise : Promise :=
    ⟨s.promises.length, this, message.mid, found.toOption.map (·.peer)⟩
  let s :=
    { s with
      promises := s.promises ++ [promise]
      pending := Function.update s.pending this ((s.pending this).set message.mid promise) }
  match found with
  | .error e => (s.deletePending this message.mid).settle promise (.refused e)
  | .ok link => s.sendToLink this link message (.send promise) 0 handover

/-! ## Receiving -/

def findLinkTo (p : Peer) (target : Nat) : Option PeerLink :=
  match p.server.filter (·.peer = target) with
  | some server => some server
  | none => (p.clients.entries.map (·.2)).find? (·.peer = target)

def reply (s : Exchange) (this target : Nat) (mid type : JSString) (data : Json) (answers : Nat)
    (handover : Handover) : Exchange :=
  match findLinkTo (s.mesh.peers this) target with
  | none => s
  | some link => s.sendToLink this link ⟨type, mid, data⟩ (.reply target) answers handover

/-- A listener gets the message, if there is one; it may reply by itself. -/
def callListeners (s : Exchange) (context : PeerMessageContext) (answers : Nat) : Exchange :=
  match s.listeners context.peer with
  | [] => s
  | listeners =>
    { s with
      handlings := s.handlings ++ [⟨context, listeners, [], answers⟩]
      contexts := s.contexts ++ [context] }

/-- `dispatch`, with the `catch` of its caller. -/
def dispatch (s : Exchange) (reader : Reader) (message : SocketMessage) (answers : Nat)
    (handover : Handover) : Exchange :=
  let this := reader.receiver
  let awaited := ((s.pending this).get? message.mid).isSome
  if (s.mesh.peers this).state ≠ .opened then
    s.rejectPending this message.mid (.thrown reader.sender)
  else if message.isAnswer ∧ awaited then
    s.settlePending this message.mid (.answered reader.sender message)
  else if message.type = lit "ping" then
    s.reply this reader.sender message.mid (lit "pong")
      (.obj ((reader.clientId.map fun c => (lit "clientId", Json.str c)).toList)) (answers + 1)
      handover
  else s.callListeners ⟨this, reader.sender, message.mid⟩ answers

/-- The message `index` arrives. A network may deliver what it was handed even
after it was closed. -/
def deliver (s : Exchange) (index : Nat) (handover : Handover) : Option Exchange :=
  s.flights[index]?.map fun flight =>
    { s with flights := s.flights.eraseIdx index }.dispatch flight.reader flight.message
      flight.answers handover

/-- `results.length <= 1 ? results[0] : results`. -/
def answer : List Json → Json
  | [result] => result
  | results => .arr results

/-- The listener at work on the message `index` returns. -/
def returned (s : Exchange) (index : Nat) (result : Json) (handover : Handover) : Option Exchange :=
  s.handlings[index]?.map fun h =>
    let results := h.results ++ [result]
    match h.listeners with
    | _ :: next :: rest =>
      { s with handlings := s.handlings.set index { h with listeners := next :: rest, results } }
    | _ =>
      { s with handlings := s.handlings.eraseIdx index }.reply h.context.peer h.context.sender
        h.context.mid (lit "result") (answer results) (h.answers + 1) handover

/-- The listener at work on the message `index` throws. -/
def threw (s : Exchange) (index : Nat) : Option Exchange :=
  s.handlings[index]?.map fun h =>
    { s with handlings := s.handlings.eraseIdx index }.rejectPending h.context.peer h.context.mid
      (.thrown h.context.sender)

/-- `context.reply`, called by a listener. -/
def contextReply (s : Exchange) (index : Nat) (data : Json) (handover : Handover) : Option Exchange :=
  s.contexts[index]?.map fun context =>
    s.reply context.peer context.sender context.mid (lit "result") data 0 handover

/-! ## Transports -/

/-- A reliable transport that is still attached resolves a `send`. -/
def resolved (s : Exchange) (index : Nat) : Option Exchange :=
  match s.sendings[index]? with
  | none => none
  | some sending =>
    if sending.transport ∈ s.mesh.detached then none
    else some { s with sendings := s.sendings.eraseIdx index }

/-- A reliable transport rejects a `send`, after attempts, by the deadline or
because it was detached. -/
def rejected (s : Exchange) (index : Nat) : Option Exchange :=
  s.sendings[index]?.map fun sending =>
    { s with sendings := s.sendings.eraseIdx index }.fail sending.peer sending.mid sending.origin

/-! ## Links -/

/-- `close`. -/
def close (s : Exchange) (this : Nat) : Exchange :=
  if (s.mesh.peers this).state = .closed then s
  else
    { s with
      mesh := s.mesh.close this
      listeners := Function.update s.listeners this []
      pending := Function.update s.pending this .empty
      settled :=
        ((s.pending this).entries.map fun entry => (entry.2, Settlement.closed)).reverse ++
          s.settled }

def subscribe (s : Exchange) (this listener : Nat) : Exchange :=
  if (s.mesh.peers this).state ≠ .opened ∨ listener ∈ s.listeners this then s
  else { s with listeners := Function.update s.listeners this (s.listeners this ++ [listener]) }

def unsubscribe (s : Exchange) (this listener : Nat) : Exchange :=
  { s with
    listeners := Function.update s.listeners this ((s.listeners this).filter (· ≠ listener)) }

end Exchange

inductive ExchangeEvent where
  | connect (this peer : Nat) (uplink downlink : Reply) (clientId : JSString)
  | reconnect (this : Nat) (clientId : Option JSString) (uplink downlink : Reply)
  | close (this : Nat)
  | onMessage (this listener : Nat)
  | unsubscribe (this listener : Nat)
  | post (this : Nat) (message : SocketMessage) (options : PeerTargetOptions) (handover : Handover)
  | send (this : Nat) (message : SocketMessage) (options : PeerTargetOptions) (handover : Handover)
  | deliver (index : Nat) (handover : Handover)
  | returned (index : Nat) (result : Json) (handover : Handover)
  | threw (index : Nat)
  | reply (index : Nat) (data : Json) (handover : Handover)
  | resolved (index : Nat)
  | rejected (index : Nat)

namespace Exchange

def step (s : Exchange) : ExchangeEvent → Option Exchange
  | .connect this peer uplink downlink clientId =>
    some { s with mesh := (s.mesh.connect this peer uplink downlink clientId).1 }
  | .reconnect this clientId uplink downlink =>
    some { s with mesh := (s.mesh.reconnect this clientId uplink downlink).1 }
  | .close this => some (s.close this)
  | .onMessage this listener => some (s.subscribe this listener)
  | .unsubscribe this listener => some (s.unsubscribe this listener)
  | .post this message options handover => some (s.post this message options handover)
  | .send this message options handover => some (s.send this message options handover)
  | .deliver index handover => s.deliver index handover
  | .returned index result handover => s.returned index result handover
  | .threw index => s.threw index
  | .reply index data handover => s.contextReply index data handover
  | .resolved index => s.resolved index
  | .rejected index => s.rejected index

/-- Nothing was sent yet. -/
def start (mesh : Mesh) : Exchange where
  mesh := mesh
  pending _ := .empty
  listeners _ := []
  flights := []
  sendings := []
  handlings := []
  contexts := []
  promises := []
  settled := []
  wire := []

end Exchange

end LemonModel
