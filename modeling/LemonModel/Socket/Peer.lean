import LemonModel.Base.Dict
import LemonModel.Socket.Network

/-!
# Peers and their links

The peers of `socket.ts` and the networks between them. Peers and networks are
objects and are told apart by a number. A call may throw after it has changed
some of them, so a call is the state it leaves and what it returns.
-/

namespace LemonModel

open Text

/-- What a link depends on. -/
structure JSONTransportOptions where
  reliable : Bool
  deriving DecidableEq

/-- A subscription that ends in `receiver.dispatch(message, sender, clientId)`. -/
structure Reader where
  receiver : Nat
  sender : Nat
  clientId : Option JSString
  deriving DecidableEq

/-- A network between two peers, with the errors its `onMessage` and its
`onError` throw. -/
structure LinkNetwork where
  readyState : SocketReadyState
  refusesMessages : Option JSString
  refusesErrors : Option JSString
  messageListeners : List Reader
  deriving DecidableEq

/-- A `JSONTransport` of a link. -/
structure LinkTransport where
  network : Nat
  receiveNetwork : Nat
  reader : Reader
  deriving DecidableEq

structure PeerLink where
  peer : Nat
  clientId : Option JSString
  network : Nat
  transportOptions : Option JSONTransportOptions
  receiverTransport : Option LinkTransport
  senderTransport : Option LinkTransport
  deriving DecidableEq

structure Peer where
  id : JSString
  assignedClientId : Option JSString
  state : SocketReadyState
  server : Option PeerLink
  clients : Dict JSString PeerLink
  jsonTransportOptions : Option JSONTransportOptions

/-- What a call of a network factory does. -/
inductive Reply where
  | fails (error : JSString)
  | makes (readyState : SocketReadyState) (refusesMessages refusesErrors : Option JSString)

/-- The in-memory network is open, and takes subscriptions. -/
def defaultPeerNetworkFactory : Reply := .makes .opened none none

/-- The networks from `created` on are not made yet. A network is read by one
transport at most, so `detached` names the transports that were detached by the
networks they read. -/
structure Mesh where
  peers : Nat → Peer
  networks : Nat → LinkNetwork
  created : Nat
  detached : List Nat

/-- The state a call leaves, and what it returns or throws. -/
abbrev Call (α : Type) := Mesh × Except JSString α

/-- What a call does after `c`, if that did not throw. -/
def Call.andThen {α β : Type} (c : Call α) (f : Mesh → α → Call β) : Call β :=
  match c.2 with
  | .ok a => f c.1 a
  | .error e => (c.1, .error e)

/-- `link.transportOptions?.reliable`. -/
def reliable (options : Option JSONTransportOptions) : Bool := options.any (·.reliable)

namespace LinkNetwork

def close (n : LinkNetwork) : LinkNetwork := { n with readyState := .closed, messageListeners := [] }

def subscribe (n : LinkNetwork) (reader : Reader) : LinkNetwork :=
  { n with messageListeners := n.messageListeners ++ [reader] }

def unsubscribe (n : LinkNetwork) (reader : Reader) : LinkNetwork :=
  { n with messageListeners := n.messageListeners.filter (· ≠ reader) }

end LinkNetwork

namespace Peer

def ensureOpen (p : Peer) (scope : JSString) : Except JSString Unit :=
  if p.state = .opened then .ok ()
  else
    .error (lit "@peer[" ++ p.id ++ lit "] is " ++ p.state.text ++ lit " - " ++ scope ++ lit "(" ++
      p.id ++ lit ")")

def accept (p : Peer) (clientId : JSString) (client network : Nat)
    (transportOptions : Option JSONTransportOptions) : Peer :=
  { p with clients := p.clients.set clientId ⟨client, none, network, transportOptions, none, none⟩ }

def attachClientTransport (p : Peer) (clientId : JSString) (transport : Option LinkTransport) :
    Peer :=
  match p.clients.get? clientId with
  | none => p
  | some link =>
    { p with
      clients := p.clients.set clientId
        { link with
          receiverTransport := transport
          senderTransport := if reliable link.transportOptions then transport else none } }

end Peer

/-- What `closeLink` leaves of a link. -/
def PeerLink.released (link : PeerLink) : PeerLink :=
  { link with receiverTransport := none, senderTransport := none }

namespace Mesh

def setPeer (m : Mesh) (p : Nat) (peer : Peer) : Mesh :=
  { m with peers := Function.update m.peers p peer }

def setNetwork (m : Mesh) (n : Nat) (network : LinkNetwork) : Mesh :=
  { m with networks := Function.update m.networks n network }

/-! ## Links -/

/-- `transport.detach()`. -/
def detach (m : Mesh) (transport : LinkTransport) : Mesh :=
  { m.setNetwork transport.receiveNetwork
      ((m.networks transport.receiveNetwork).unsubscribe transport.reader) with
    detached := transport.receiveNetwork :: m.detached }

def detachAll (m : Mesh) (transports : List LinkTransport) : Mesh := transports.foldl detach m

/-- `closeLink`; what it leaves of the link is `PeerLink.released`. -/
def closeLink (m : Mesh) (link : PeerLink) : Mesh :=
  let m := m.detachAll (link.receiverTransport.toList ++ link.senderTransport.toList)
  m.setNetwork link.network (m.networks link.network).close

/-- `this.clients.delete(clientId)`. -/
def deleteClient (m : Mesh) (this : Nat) (clientId : JSString) : Mesh :=
  m.setPeer this { m.peers this with clients := (m.peers this).clients.delete clientId }

def detachClient (m : Mesh) (this : Nat) (clientId : Option JSString) : Mesh :=
  match clientId with
  | none => m
  | some clientId =>
    if clientId = [] then m
    else
      match (m.peers this).clients.get? clientId with
      | none => m
      | some link => (m.closeLink link).deleteClient this clientId

/-! ## Subscriptions -/

def onMessage (m : Mesh) (network : Nat) (reader : Reader) : Call Unit :=
  match (m.networks network).refusesMessages with
  | some error => (m, .error error)
  | none => (m.setNetwork network ((m.networks network).subscribe reader), .ok ())

def onError (m : Mesh) (network : Nat) : Call Unit :=
  match (m.networks network).refusesErrors with
  | some error => (m, .error error)
  | none => (m, .ok ())

/-- `new JSONTransport(network, { reliable: { receiveNetwork } })`. -/
def createJSONTransport (m : Mesh) (transport : LinkTransport) : Call LinkTransport :=
  (m.onMessage transport.receiveNetwork transport.reader).andThen fun m _ =>
    (m.onError transport.network).andThen fun m _ => (m, .ok transport)

def attachTransport (m : Mesh) (readNetwork writeNetwork receiver sender : Nat)
    (clientId : Option JSString)
    (localTransportOptions remoteTransportOptions : Option JSONTransportOptions) :
    Call (Option LinkTransport) :=
  let reader : Reader := ⟨receiver, sender, clientId⟩
  if reliable localTransportOptions then
    (m.createJSONTransport ⟨writeNetwork, readNetwork, reader⟩).andThen fun m t => (m, .ok (some t))
  else if remoteTransportOptions.isSome then
    (m.createJSONTransport ⟨readNetwork, readNetwork, reader⟩).andThen fun m t => (m, .ok (some t))
  else (m.onMessage readNetwork reader).andThen fun m _ => (m, .ok none)

/-! ## The networks of a link -/

def createPeerNetwork (m : Mesh) (reply : Reply) : Call Nat :=
  match reply with
  | .fails error => (m, .error error)
  | .makes readyState refusesMessages refusesErrors =>
    ({ m.setNetwork m.created ⟨readyState, refusesMessages, refusesErrors, []⟩ with
        created := m.created + 1 },
      .ok m.created)

def createNetworkPair (m : Mesh) (uplink downlink : Reply) : Call (Nat × Nat) :=
  (m.createPeerNetwork uplink).andThen fun m up =>
    match m.createPeerNetwork downlink with
    | (m, .ok down) => (m, .ok (up, down))
    | (m, .error e) => (m.setNetwork up (m.networks up).close, .error e)

/-! ## The calls -/

/-- What `connect` does once it has both networks. -/
def wire (m : Mesh) (this peer up down : Nat) (clientId : JSString) : Call JSString :=
  let serverTransportOptions := (m.peers peer).jsonTransportOptions
  let clientTransportOptions := (m.peers this).jsonTransportOptions
  let m := m.setPeer peer ((m.peers peer).accept clientId this down serverTransportOptions)
  (m.attachTransport up down peer this (some clientId) serverTransportOptions
      clientTransportOptions).andThen fun m transport =>
    let m := m.setPeer peer ((m.peers peer).attachClientTransport clientId transport)
    (m.attachTransport down up this peer none clientTransportOptions
        serverTransportOptions).andThen fun m transport =>
      let server : PeerLink :=
        ⟨peer, some clientId, up, clientTransportOptions, transport,
          if reliable clientTransportOptions then transport else none⟩
      (m.setPeer this
          { m.peers this with server := some server, assignedClientId := some clientId },
        .ok clientId)

/-- `uplink` and `downlink` are what the two factories do, `clientId` is the id
the server's identity provider makes. -/
def connect (m : Mesh) (this peer : Nat) (uplink downlink : Reply) (clientId : JSString) :
    Call JSString :=
  match (m.peers this).ensureOpen (lit "peer.connect"),
    (m.peers peer).ensureOpen (lit "peer.accept") with
  | .error e, _ => (m, .error e)
  | .ok _, .error e => (m, .error e)
  | .ok _, .ok _ =>
    (m.createNetworkPair uplink downlink).andThen fun m (up, down) =>
      m.wire this peer up down clientId

/-- The link a `reconnect` is about: its client, its server and its client id. -/
def reconnectTarget (m : Mesh) (this : Nat) (clientId : Option JSString) :
    Except JSString (Nat × Nat × JSString) :=
  let p := m.peers this
  let unconnected : Except JSString (Nat × Nat × JSString) :=
    match p.clients.entries with
    | [(clientId, link)] => .ok (link.peer, this, clientId)
    | [] => .error (lit "@peer is not connected - peer.reconnect(" ++ p.id ++ lit ")")
    | _ => .error (lit "@clientId (string) is required - peer.reconnect(" ++ p.id ++ lit ")")
  match clientId.filter (· ≠ []) with
  | some clientId =>
    match p.clients.get? clientId with
    | none =>
      .error (lit "@clientId[" ++ clientId ++ lit "] is not connected - peer.reconnect(" ++ p.id ++
        lit ")")
    | some link => .ok (link.peer, this, clientId)
  | none =>
    match p.server with
    | none => unconnected
    | some server =>
      match server.clientId.filter (· ≠ []) with
      | some clientId => .ok (this, server.peer, clientId)
      | none => unconnected

/-- The two ends of a link, if they fit. -/
def linkPair (m : Mesh) (client server : Nat) (clientId : JSString) : Option (PeerLink × PeerLink) :=
  match (m.peers client).server, (m.peers server).clients.get? clientId with
  | some clientLink, some serverLink =>
    if clientLink.peer ≠ server ∨ serverLink.peer ≠ client then none
    else some (clientLink, serverLink)
  | _, _ => none

/-- Gives the client's end of a link. -/
def setServer (m : Mesh) (client : Nat) (link : PeerLink) : Mesh :=
  m.setPeer client { m.peers client with server := some link }

/-- Gives the server's end of a link. -/
def setClient (m : Mesh) (server : Nat) (clientId : JSString) (link : PeerLink) : Mesh :=
  m.setPeer server { m.peers server with clients := (m.peers server).clients.set clientId link }

/-- What `reconnectPair` does once it has both networks. -/
def replaceNetworks (m : Mesh) (client server : Nat) (clientId : JSString)
    (clientLink serverLink : PeerLink) (up down : Nat) : Call Unit :=
  let m := m.closeLink clientLink
  let m := m.closeLink serverLink
  let clientTransportOptions := (m.peers client).jsonTransportOptions
  let serverTransportOptions := (m.peers server).jsonTransportOptions
  let clientLink :=
    { clientLink.released with network := up, transportOptions := clientTransportOptions }
  let m := m.setServer client clientLink
  let m := m.setClient server clientId serverLink.released
  (m.attachTransport down up client server none clientTransportOptions
      serverTransportOptions).andThen fun m transport =>
    let m := m.setServer client
      { clientLink with
        receiverTransport := transport
        senderTransport := if reliable clientTransportOptions then transport else none }
    let serverLink :=
      { serverLink.released with network := down, transportOptions := serverTransportOptions }
    let m := m.setClient server clientId serverLink
    (m.attachTransport up down server client (some clientId) serverTransportOptions
        clientTransportOptions).andThen fun m transport =>
      let m := m.setClient server clientId
        { serverLink with
          receiverTransport := transport
          senderTransport := if reliable serverTransportOptions then transport else none }
      (m.setPeer client { m.peers client with assignedClientId := some clientId }, .ok ())

def reconnectPair (m : Mesh) (client server : Nat) (clientId : JSString) (uplink downlink : Reply) :
    Call Unit :=
  match (m.peers client).ensureOpen (lit "peer.reconnect"),
    (m.peers server).ensureOpen (lit "peer.reconnect") with
  | .error e, _ => (m, .error e)
  | .ok _, .error e => (m, .error e)
  | .ok _, .ok _ =>
    match m.linkPair client server clientId with
    | none =>
      (m, .error (lit "@clientId[" ++ clientId ++ lit "] link mismatch - peer.reconnect(" ++
        (m.peers server).id ++ lit ")"))
    | some (clientLink, serverLink) =>
      (m.createNetworkPair uplink downlink).andThen fun m (up, down) =>
        m.replaceNetworks client server clientId clientLink serverLink up down

def reconnect (m : Mesh) (this : Nat) (clientId : Option JSString) (uplink downlink : Reply) :
    Call JSString :=
  match (m.peers this).ensureOpen (lit "peer.reconnect") with
  | .error e => (m, .error e)
  | .ok _ =>
    match m.reconnectTarget this clientId with
    | .error e => (m, .error e)
    | .ok (client, server, clientId) =>
      (m.reconnectPair client server clientId uplink downlink).andThen fun m _ => (m, .ok clientId)

/-- A closing peer lets go of one of its clients. -/
def dropClient (this : Nat) (m : Mesh) (client : JSString × PeerLink) : Mesh :=
  let link := client.2
  let m := m.closeLink link
  let m :=
    match (m.peers link.peer).server with
    | none => m
    | some server =>
      if server.peer = this then
        let m := m.closeLink server
        m.setPeer link.peer { m.peers link.peer with server := none, assignedClientId := none }
      else m
  m.deleteClient this client.1

def close (m : Mesh) (this : Nat) : Mesh :=
  if (m.peers this).state = .closed then m
  else
    let server := (m.peers this).server
    let m := m.setPeer this { m.peers this with state := .closed, server := none }
    let m :=
      match server with
      | none => m
      | some server => (m.closeLink server).detachClient server.peer server.clientId
    let m := (m.peers this).clients.entries.foldl (dropClient this) m
    m.setPeer this { m.peers this with clients := .empty }

end Mesh

/-- The calls that change links. -/
inductive MeshEvent where
  | connect (this peer : Nat) (uplink downlink : Reply) (clientId : JSString)
  | reconnect (this : Nat) (clientId : Option JSString) (uplink downlink : Reply)
  | close (this : Nat)

namespace Mesh

def step (m : Mesh) : MeshEvent → Option Mesh
  | .connect this peer uplink downlink clientId =>
    some (m.connect this peer uplink downlink clientId).1
  | .reconnect this clientId uplink downlink => some (m.reconnect this clientId uplink downlink).1
  | .close this => some (m.close this)

/-- Peers that were just constructed. -/
def start (ids : Nat → JSString) (options : Nat → Option JSONTransportOptions) : Mesh where
  peers p := ⟨ids p, none, .opened, none, .empty, options p⟩
  networks _ := ⟨.closed, none, none, []⟩
  created := 0
  detached := []

end Mesh

end LemonModel
