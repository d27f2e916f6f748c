import LemonModel.Socket.Peer

/-!
# What the calls do

What `connect` and `reconnect` come to. Nothing has happened up to the moment
both networks are there (`createNetworkPair_cases`); from then on a call changes
the peers first and subscribes afterwards (`wire_cases`, `replaceNetworks_cases`).
-/

namespace LemonModel

open Text

/-- The network a factory makes. -/
def Reply.network? : Reply → Option LinkNetwork
  | .fails _ => none
  | .makes readyState refusesMessages refusesErrors =>
    some ⟨readyState, refusesMessages, refusesErrors, []⟩

/-- One of the subscriptions of `attachTransport` is refused. -/
def LinkNetwork.refuses (read write : LinkNetwork)
    (localOptions remoteOptions : Option JSONTransportOptions) :
    Bool :=
  read.refusesMessages.isSome ||
    if reliable localOptions then write.refusesErrors.isSome
    else remoteOptions.isSome && read.refusesErrors.isSome

/-- The transport `attachTransport` makes. -/
def LinkTransport.attached (readNetwork writeNetwork : Nat) (reader : Reader)
    (localOptions remoteOptions : Option JSONTransportOptions) : Option LinkTransport :=
  if reliable localOptions then some ⟨writeNetwork, readNetwork, reader⟩
  else if remoteOptions.isSome then some ⟨readNetwork, readNetwork, reader⟩
  else none

namespace Mesh

variable {m : Mesh}

/-! ## What a call leaves alone -/

@[simp] theorem setNetwork_peers (n : Nat) (network : LinkNetwork) :
    (m.setNetwork n network).peers = m.peers := rfl

@[simp] theorem setNetwork_created (n : Nat) (network : LinkNetwork) :
    (m.setNetwork n network).created = m.created := rfl

@[simp] theorem setPeer_networks (p : Nat) (peer : Peer) :
    (m.setPeer p peer).networks = m.networks := rfl

@[simp] theorem setPeer_created (p : Nat) (peer : Peer) :
    (m.setPeer p peer).created = m.created := rfl

@[simp] theorem setPeer_self (p : Nat) (peer : Peer) : (m.setPeer p peer).peers p = peer :=
  Function.update_self ..

theorem setPeer_peers (p : Nat) (peer : Peer) (q : Nat) :
    (m.setPeer p peer).peers q = if q = p then peer else m.peers q := by
  simp [setPeer, Function.update_apply]

theorem setNetwork_networks (n : Nat) (network : LinkNetwork) (k : Nat) :
    (m.setNetwork n network).networks k = if k = n then network else m.networks k := by
  simp [setNetwork, Function.update_apply]

theorem setNetwork_same (n : Nat) : m.setNetwork n (m.networks n) = m := by
  simp [setNetwork]

theorem detachAll_frame (transports : List LinkTransport) :
    (m.detachAll transports).peers = m.peers ∧ (m.detachAll transports).created = m.created := by
  induction transports generalizing m with
  | nil => exact ⟨rfl, rfl⟩
  | cons t transports ih => exact ih

@[simp] theorem closeLink_peers (link : PeerLink) : (m.closeLink link).peers = m.peers :=
  (detachAll_frame _).1

@[simp] theorem closeLink_created (link : PeerLink) : (m.closeLink link).created = m.created :=
  (detachAll_frame _).2

/-! ## Subscriptions -/

theorem onMessage_cases (network : Nat) (reader : Reader) :
    (∃ e, (m.networks network).refusesMessages = some e ∧
        m.onMessage network reader = (m, .error e)) ∨
      (m.networks network).refusesMessages = none ∧
        m.onMessage network reader =
          (m.setNetwork network ((m.networks network).subscribe reader), .ok ()) := by
  unfold onMessage
  cases (m.networks network).refusesMessages with
  | none => exact .inr ⟨rfl, rfl⟩
  | some e => exact .inl ⟨e, rfl, rfl⟩

theorem onError_cases (network : Nat) :
    (∃ e, (m.networks network).refusesErrors = some e ∧ m.onError network = (m, .error e)) ∨
      (m.networks network).refusesErrors = none ∧ m.onError network = (m, .ok ()) := by
  unfold onError
  cases (m.networks network).refusesErrors with
  | none => exact .inr ⟨rfl, rfl⟩
  | some e => exact .inl ⟨e, rfl, rfl⟩

theorem subscribed_refusesErrors (n : Nat) (reader : Reader) (k : Nat) :
    ((m.setNetwork n ((m.networks n).subscribe reader)).networks k).refusesErrors =
      (m.networks k).refusesErrors := by
  rw [setNetwork_networks]
  split
  · rename_i h
    rw [h]
    rfl
  · rfl

/-- The subscriptions of a transport, one after the other. -/
theorem createJSONTransport_cases (t : LinkTransport) :
    (∃ e network, ((m.networks t.receiveNetwork).refusesMessages.isSome ||
          (m.networks t.network).refusesErrors.isSome) = true ∧
        m.createJSONTransport t = (m.setNetwork t.receiveNetwork network, .error e)) ∨
      ((m.networks t.receiveNetwork).refusesMessages.isSome ||
          (m.networks t.network).refusesErrors.isSome) = false ∧
        m.createJSONTransport t =
          (m.setNetwork t.receiveNetwork ((m.networks t.receiveNetwork).subscribe t.reader),
            .ok t) := by
  unfold createJSONTransport Call.andThen
  obtain ⟨e, refused, eq⟩ | ⟨taken, eq⟩ := onMessage_cases (m := m) t.receiveNetwork t.reader
  · left
    refine ⟨e, m.networks t.receiveNetwork, by simp [refused], ?_⟩
    rw [eq, setNetwork_same]
  · rw [eq]
    dsimp only
    obtain ⟨e, refused, eq⟩ | ⟨heard, eq⟩ :=
      onError_cases (m := m.setNetwork t.receiveNetwork
        ((m.networks t.receiveNetwork).subscribe t.reader)) t.network
    · left
      rw [subscribed_refusesErrors] at refused
      exact ⟨e, _, by simp [refused], by rw [eq]⟩
    · right
      rw [subscribed_refusesErrors] at heard
      exact ⟨by simp [taken, heard], by rw [eq]⟩

/-- `attachTransport` touches the network it reads, and throws exactly if it is
refused. -/
theorem attachTransport_cases (read write receiver sender : Nat) (clientId : Option JSString)
    (localOptions remoteOptions : Option JSONTransportOptions) :
    (∃ e network,
        (m.networks read).refuses (m.networks write) localOptions remoteOptions = true ∧
        m.attachTransport read write receiver sender clientId localOptions remoteOptions =
          (m.setNetwork read network, .error e)) ∨
      (m.networks read).refuses (m.networks write) localOptions remoteOptions = false ∧
        m.attachTransport read write receiver sender clientId localOptions remoteOptions =
          (m.setNetwork read ((m.networks read).subscribe ⟨receiver, sender, clientId⟩),
            .ok (LinkTransport.attached read write ⟨receiver, sender, clientId⟩ localOptions
              remoteOptions)) := by
  unfold attachTransport Call.andThen LinkNetwork.refuses LinkTransport.attached
  dsimp only
  by_cases reliably : reliable localOptions
  · simp only [reliably, if_true]
    obtain ⟨e, network, refused, eq⟩ | ⟨taken, eq⟩ :=
      createJSONTransport_cases (m := m) ⟨write, read, ⟨receiver, sender, clientId⟩⟩
    · exact .inl ⟨e, network, refused, by rw [eq]⟩
    · exact .inr ⟨taken, by rw [eq]⟩
  · simp only [reliably, if_false, Bool.false_eq_true]
    by_cases remote : remoteOptions.isSome
    · simp only [remote, if_true, Bool.true_and]
      obtain ⟨e, network, refused, eq⟩ | ⟨taken, eq⟩ :=
        createJSONTransport_cases (m := m) ⟨read, read, ⟨receiver, sender, clientId⟩⟩
      · exact .inl ⟨e, network, refused, by rw [eq]⟩
      · exact .inr ⟨taken, by rw [eq]⟩
    · simp only [remote, if_false, Bool.false_eq_true, Bool.false_and, Bool.or_false]
      obtain ⟨e, refused, eq⟩ | ⟨taken, eq⟩ :=
        onMessage_cases (m := m) read ⟨receiver, sender, clientId⟩
      · exact .inl ⟨e, m.networks read, by simp [refused], by rw [eq, setNetwork_same]⟩
      · exact .inr ⟨by simp [taken], by rw [eq]⟩

theorem attachTransport_error {read write receiver sender : Nat} {clientId : Option JSString}
    {localOptions remoteOptions : Option JSONTransportOptions} {e : JSString}
    (h : (m.attachTransport read write receiver sender clientId localOptions remoteOptions).2 =
      .error e) :
    (m.networks read).refuses (m.networks write) localOptions remoteOptions = true ∧
      ∃ network,
        (m.attachTransport read write receiver sender clientId localOptions remoteOptions).1 =
          m.setNetwork read network := by
  obtain ⟨_, network, refused, eq⟩ | ⟨_, eq⟩ :=
    attachTransport_cases (m := m) read write receiver sender clientId localOptions remoteOptions
  · exact ⟨refused, network, by rw [eq]⟩
  · rw [eq] at h
    cases h

theorem attachTransport_ok {read write receiver sender : Nat} {clientId : Option JSString}
    {localOptions remoteOptions : Option JSONTransportOptions} {t : Option LinkTransport}
    (h : (m.attachTransport read write receiver sender clientId localOptions remoteOptions).2 =
      .ok t) :
    (m.networks read).refuses (m.networks write) localOptions remoteOptions = false ∧
      t = LinkTransport.attached read write ⟨receiver, sender, clientId⟩ localOptions remoteOptions ∧
      (m.attachTransport read write receiver sender clientId localOptions remoteOptions).1 =
        m.setNetwork read ((m.networks read).subscribe ⟨receiver, sender, clientId⟩) := by
  obtain ⟨_, _, _, eq⟩ | ⟨taken, eq⟩ :=
    attachTransport_cases (m := m) read write receiver sender clientId localOptions remoteOptions
  · rw [eq] at h
    cases h
  · rw [eq] at h ⊢
    cases h
    exact ⟨taken, rfl, rfl⟩

/-! ## The networks of a link -/

/-- A network is made. -/
def extend (m : Mesh) (network : LinkNetwork) : Mesh :=
  { m.setNetwork m.created network with created := m.created + 1 }

@[simp] theorem extend_peers (network : LinkNetwork) : (m.extend network).peers = m.peers := rfl

@[simp] theorem extend_created (network : LinkNetwork) :
    (m.extend network).created = m.created + 1 := rfl

theorem extend_networks (network : LinkNetwork) (k : Nat) :
    (m.extend network).networks k = if k = m.created then network else m.networks k :=
  setNetwork_networks ..

theorem createPeerNetwork_cases (reply : Reply) :
    (∃ e, reply.network? = none ∧ m.createPeerNetwork reply = (m, .error e)) ∨
      ∃ network, reply.network? = some network ∧
        m.createPeerNetwork reply = (m.extend network, .ok m.created) := by
  cases reply with
  | fails e => exact .inl ⟨e, rfl, rfl⟩
  | makes readyState refusesMessages refusesErrors => exact .inr ⟨_, rfl, rfl⟩

/-- A pair of networks is made, or at most the first of them, and then closed. -/
theorem createNetworkPair_cases (uplink downlink : Reply) :
    (∃ e up down, uplink.network? = some up ∧ downlink.network? = some down ∧
        e = (m.created, m.created + 1) ∧ m.createNetworkPair uplink downlink = ((m.extend up).extend down, .ok e)) ∨
      (uplink.network? = none ∨ downlink.network? = none) ∧
        ∃ m' e, m.createNetworkPair uplink downlink = (m', .error e) ∧
          (m' = m ∨ ∃ up, m' = m.extend (LinkNetwork.close up)) := by
  unfold createNetworkPair Call.andThen
  obtain ⟨e, none, eq⟩ | ⟨up, made, eq⟩ := createPeerNetwork_cases (m := m) uplink
  · right
    exact ⟨.inl none, m, e, by rw [eq], .inl rfl⟩
  · rw [eq]
    dsimp only
    obtain ⟨e, none, eq⟩ | ⟨down, made', eq⟩ := createPeerNetwork_cases (m := m.extend up) downlink
    · right
      refine ⟨.inr none, m.extend up.close, e, ?_, .inr ⟨up, rfl⟩⟩
      rw [eq]
      simp [extend, setNetwork]
    · left
      exact ⟨_, up, down, made, made', rfl, by rw [eq]; rfl⟩

/-- The networks that a pair of factories made. -/
theorem made_networks (up down : LinkNetwork) :
    ((m.extend up).extend down).networks m.created = up ∧
      ((m.extend up).extend down).networks (m.created + 1) = down := by
  simp [extend_networks]

/-! ## What a call does with its networks -/

theorem subscribed_refuses {n : Nat} {network : LinkNetwork} {reader : Reader}
    (same : network = m.networks n) (read write : Nat)
    (localOptions remoteOptions : Option JSONTransportOptions) :
    ((m.setNetwork n (network.subscribe reader)).networks read).refuses
        ((m.setNetwork n (network.subscribe reader)).networks write) localOptions remoteOptions =
      (m.networks read).refuses (m.networks write) localOptions remoteOptions := by
  subst same
  have messages : ∀ k, ((m.setNetwork n ((m.networks n).subscribe reader)).networks k).refusesMessages =
      (m.networks k).refusesMessages := by
    intro k
    rw [setNetwork_networks]
    split
    · rename_i h
      rw [h]
      rfl
    · rfl
  simp only [LinkNetwork.refuses, messages, subscribed_refusesErrors]

/-- The networks `up` and `down` take the subscriptions of both peers. -/
def Accepts (m : Mesh) (client server : Nat) (up down : LinkNetwork) : Prop :=
  up.refuses down (m.peers server).jsonTransportOptions (m.peers client).jsonTransportOptions =
      false ∧
    down.refuses up (m.peers client).jsonTransportOptions (m.peers server).jsonTransportOptions =
      false

/-- The server reads `up` and the client reads `down`. -/
def subscribed (m : Mesh) (client server up down : Nat) (clientId : JSString) : Mesh :=
  let m := m.setNetwork up ((m.networks up).subscribe ⟨server, client, some clientId⟩)
  m.setNetwork down ((m.networks down).subscribe ⟨client, server, none⟩)

/-- The server's end of a link. -/
def serverEnd (m : Mesh) (client server up down : Nat) (clientId : JSString) : PeerLink :=
  let options := (m.peers server).jsonTransportOptions
  let transport := LinkTransport.attached up down ⟨server, client, some clientId⟩ options
    (m.peers client).jsonTransportOptions
  ⟨client, none, down, options, transport, if reliable options then transport else none⟩

/-- The client's end of a link. -/
def clientEnd (m : Mesh) (client server up down : Nat) (clientId : JSString) : PeerLink :=
  let options := (m.peers client).jsonTransportOptions
  let transport := LinkTransport.attached down up ⟨client, server, none⟩ options
    (m.peers server).jsonTransportOptions
  ⟨server, some clientId, up, options, transport, if reliable options then transport else none⟩

@[simp] theorem serverEnd_network (client server up down : Nat) (clientId : JSString) :
    (m.serverEnd client server up down clientId).network = down := rfl

@[simp] theorem clientEnd_network (client server up down : Nat) (clientId : JSString) :
    (m.clientEnd client server up down clientId).network = up := rfl

def assign (m : Mesh) (p : Nat) (clientId : JSString) : Mesh :=
  m.setPeer p { m.peers p with assignedClientId := some clientId }

/-- Both ends of a link are there. -/
def linked (m : Mesh) (client server up down : Nat) (clientId : JSString) : Mesh :=
  let m' := (m.subscribed client server up down clientId).setClient server clientId
    (m.serverEnd client server up down clientId)
  (m'.setServer client (m.clientEnd client server up down clientId)).assign client clientId

/-- A peer got an entry for the network `down`, and nothing else happened to the
peers. -/
def Entered (m m' : Mesh) (server down : Nat) (clientId : JSString) : Prop :=
  m'.created = m.created ∧
    ∃ link : PeerLink, link.network = down ∧ m'.peers = (m.setClient server clientId link).peers

theorem setPeer_setPeer (p : Nat) (first second : Peer) :
    (m.setPeer p first).setPeer p second = m.setPeer p second := by
  simp [setPeer]

/-- The entry of a client that was accepted gets its transports. -/
theorem accept_attach (client server up down : Nat) (clientId : JSString) :
    ((m.peers server).accept clientId client down
        (m.peers server).jsonTransportOptions).attachClientTransport clientId
        (LinkTransport.attached up down ⟨server, client, some clientId⟩
          (m.peers server).jsonTransportOptions (m.peers client).jsonTransportOptions) =
      { m.peers server with
        clients := (m.peers server).clients.set clientId
          (m.serverEnd client server up down clientId) } := by
  simp only [Peer.attachClientTransport, Peer.accept, Dict.get?_set_self, Dict.set_set, serverEnd]

/-- `wire` links the two peers, or has entered the client when it throws. -/
theorem wire_cases (this peer up down : Nat) (clientId : JSString) :
    (¬ m.Accepts this peer (m.networks up) (m.networks down) ∧
        ∃ m' e, m.wire this peer up down clientId = (m', .error e) ∧
          m.Entered m' peer down clientId) ∨
      m.Accepts this peer (m.networks up) (m.networks down) ∧
        m.wire this peer up down clientId = (m.linked this peer up down clientId, .ok clientId) := by
  unfold wire Call.andThen
  dsimp only
  obtain ⟨e, network, refused, eq⟩ | ⟨taken, eq⟩ :=
    attachTransport_cases
      (m := m.setPeer peer ((m.peers peer).accept clientId this down
        (m.peers peer).jsonTransportOptions))
      up down peer this (some clientId) (m.peers peer).jsonTransportOptions
      (m.peers this).jsonTransportOptions
  · left
    rw [eq]
    refine ⟨fun h => ?_, _, e, rfl, rfl, _, rfl, rfl⟩
    rw [setPeer_networks, h.1] at refused
    cases refused
  · rw [eq]
    dsimp only
    rw [setNetwork_peers, setPeer_self, accept_attach]
    -- the entry made by `accept` is overwritten
    have same : ((m.setPeer peer ((m.peers peer).accept clientId this down
          (m.peers peer).jsonTransportOptions)).setNetwork up
          ((m.networks up).subscribe ⟨peer, this, some clientId⟩)).setPeer peer
          { m.peers peer with
            clients := (m.peers peer).clients.set clientId
              (m.serverEnd this peer up down clientId) } =
        (m.setNetwork up ((m.networks up).subscribe ⟨peer, this, some clientId⟩)).setClient peer
          clientId (m.serverEnd this peer up down clientId) := by
      simp [setPeer, setNetwork, setClient]
    rw [setPeer_networks, same]
    obtain ⟨e, network, refused, eq⟩ | ⟨heard, eq⟩ :=
      attachTransport_cases
        (m := (m.setNetwork up ((m.networks up).subscribe ⟨peer, this, some clientId⟩)).setClient
          peer clientId (m.serverEnd this peer up down clientId))
        down up this peer none (m.peers this).jsonTransportOptions
        (m.peers peer).jsonTransportOptions
    · left
      rw [eq]
      refine ⟨fun h => ?_, _, e, rfl, rfl, _, rfl, rfl⟩
      rw [setClient, setPeer_networks, subscribed_refuses rfl, h.2] at refused
      cases refused
    · right
      rw [setClient, setPeer_networks, subscribed_refuses rfl] at heard
      rw [setPeer_networks] at taken
      refine ⟨⟨taken, heard⟩, ?_⟩
      rw [eq]
      simp only [linked, setServer, assign, setPeer_setPeer, setPeer_self]
      rfl

theorem closeLink_refuses (link : PeerLink) (read write : Nat)
    (localOptions remoteOptions : Option JSONTransportOptions) :
    ((m.closeLink link).networks read).refuses ((m.closeLink link).networks write) localOptions
        remoteOptions =
      (m.networks read).refuses (m.networks write) localOptions remoteOptions := by
  have detached : ∀ (transports : List LinkTransport) (m : Mesh) (k : Nat),
      ((m.detachAll transports).networks k).refusesMessages = (m.networks k).refusesMessages ∧
        ((m.detachAll transports).networks k).refusesErrors = (m.networks k).refusesErrors := by
    intro transports
    induction transports with
    | nil => exact fun _ _ => ⟨rfl, rfl⟩
    | cons t transports ih =>
      intro m k
      have first : ((m.detach t).networks k).refusesMessages = (m.networks k).refusesMessages ∧
          ((m.detach t).networks k).refusesErrors = (m.networks k).refusesErrors := by
        rw [detach, setNetwork_networks]
        split
        · rename_i h
          rw [h]
          exact ⟨rfl, rfl⟩
        · exact ⟨rfl, rfl⟩
      obtain ⟨messages, errors⟩ := ih (m.detach t) k
      exact ⟨messages.trans first.1, errors.trans first.2⟩
  have closed : ∀ k, ((m.closeLink link).networks k).refusesMessages =
      (m.networks k).refusesMessages ∧
        ((m.closeLink link).networks k).refusesErrors = (m.networks k).refusesErrors := by
    intro k
    unfold closeLink
    dsimp only
    rw [setNetwork_networks]
    split
    · rename_i h
      rw [h]
      exact detached _ m _
    · exact detached _ m k
  simp only [LinkNetwork.refuses, (closed _).1, (closed _).2]

theorem setServer_setServer (p : Nat) (first second : PeerLink) :
    (m.setServer p first).setServer p second = m.setServer p second := by
  simp [setServer, setPeer]

theorem setClient_setClient (p : Nat) (c : JSString) (first second : PeerLink) :
    (m.setClient p c first).setClient p c second = m.setClient p c second := by
  simp [setClient, setPeer, Dict.set_set]

theorem setServer_setClient (p q : Nat) (c : JSString) (first second : PeerLink) :
    (m.setServer p first).setClient q c second = (m.setClient q c second).setServer p first := by
  unfold setServer setClient setPeer
  congr 1
  funext k
  by_cases hp : k = p <;> by_cases hq : k = q
  · subst hp hq
    simp
  · subst hp
    simp [Function.update_apply, hq]
  · subst hq
    simp [Function.update_apply, hp]
  · simp [Function.update_apply, hp, hq]

theorem setServer_setNetwork (p : Nat) (link : PeerLink) (n : Nat) (network : LinkNetwork) :
    (m.setServer p link).setNetwork n network = (m.setNetwork n network).setServer p link := rfl

theorem setClient_setNetwork (p : Nat) (c : JSString) (link : PeerLink) (n : Nat)
    (network : LinkNetwork) :
    (m.setClient p c link).setNetwork n network = (m.setNetwork n network).setClient p c link := rfl

/-- Both networks of a link are replaced. -/
def relinked (m : Mesh) (client server : Nat) (clientId : JSString) (clientLink serverLink : PeerLink)
    (up down : Nat) : Mesh :=
  let clientEnd := m.clientEnd client server up down clientId
  let serverEnd := m.serverEnd client server up down clientId
  let m' := (m.closeLink clientLink).closeLink serverLink
  let m' := m'.setNetwork down ((m'.networks down).subscribe ⟨client, server, none⟩)
  let m' := m'.setNetwork up ((m'.networks up).subscribe ⟨server, client, some clientId⟩)
  let m' := m'.setServer client
    { clientEnd with peer := clientLink.peer, clientId := clientLink.clientId }
  let m' := m'.setClient server clientId
    { serverEnd with peer := serverLink.peer, clientId := serverLink.clientId }
  m'.assign client clientId

/-- The client's end of a link is one over the network `up`. -/
def Moved (m m' : Mesh) (client server : Nat) (clientId : JSString) (serverLink : PeerLink)
    (up down : Nat) : Prop :=
  m'.created = m.created ∧
    ∃ x y : PeerLink, x.network = up ∧ (y.network = serverLink.network ∨ y.network = down) ∧
      m'.peers = ((m.setClient server clientId y).setServer client x).peers

theorem Moved.intro {m₀ m' : Mesh} {client server : Nat} {clientId : JSString}
    {serverLink x y : PeerLink} {up down : Nat} (created : m'.created = m.created)
    (peers : m'.peers = ((m₀.setClient server clientId y).setServer client x).peers)
    (released : m₀.peers = m.peers) (hx : x.network = up)
    (hy : y.network = serverLink.network ∨ y.network = down) :
    m.Moved m' client server clientId serverLink up down := by
  refine ⟨created, x, y, hx, hy, peers.trans ?_⟩
  simp only [setServer, setClient, setPeer, released]

@[simp] theorem setServer_networks (p : Nat) (link : PeerLink) :
    (m.setServer p link).networks = m.networks := rfl

@[simp] theorem setClient_networks (p : Nat) (c : JSString) (link : PeerLink) :
    (m.setClient p c link).networks = m.networks := rfl

@[simp] theorem setServer_server (p : Nat) (link : PeerLink) :
    ((m.setServer p link).peers p).server = some link := by
  simp [setServer]

@[simp] theorem setClient_server (p : Nat) (c : JSString) (link : PeerLink) (q : Nat) :
    ((m.setClient p c link).peers q).server = (m.peers q).server := by
  rw [setClient, setPeer_peers]
  split
  · rename_i h
    rw [h]
  · rfl

theorem replaceNetworks_cases (client server : Nat) (clientId : JSString)
    (clientLink serverLink : PeerLink) (up down : Nat) :
    (¬ m.Accepts client server (m.networks up) (m.networks down) ∧
        ∃ m' e, m.replaceNetworks client server clientId clientLink serverLink up down =
            (m', .error e) ∧ m.Moved m' client server clientId serverLink up down) ∨
      m.Accepts client server (m.networks up) (m.networks down) ∧
        m.replaceNetworks client server clientId clientLink serverLink up down =
          (m.relinked client server clientId clientLink serverLink up down, .ok ()) := by
  unfold replaceNetworks Call.andThen
  dsimp only
  simp only [closeLink_peers]
  split
  · rename_i t h
    obtain ⟨taken, rfl, after⟩ := attachTransport_ok h
    simp only [setClient_networks, setServer_networks, closeLink_refuses] at taken
    rw [after]
    split
    · rename_i t h
      obtain ⟨heard, rfl, after⟩ := attachTransport_ok h
      rw [setClient_networks, setServer_networks, subscribed_refuses (by simp)] at heard
      simp only [setClient_networks, setServer_networks, closeLink_refuses] at heard
      right
      rw [after]
      refine ⟨⟨heard, taken⟩, ?_⟩
      simp only [relinked, setClient_networks, setServer_networks, setServer_setNetwork,
        setClient_setNetwork, setServer_setClient, setClient_setClient, setServer_setServer]
      rfl
    · rename_i e h
      obtain ⟨refused, network, after⟩ := attachTransport_error h
      rw [setClient_networks, setServer_networks, subscribed_refuses (by simp)] at refused
      simp only [setClient_networks, setServer_networks, closeLink_refuses] at refused
      left
      rw [after]
      refine ⟨fun h => ?_, _, e, rfl, ?_⟩
      · rw [h.1] at refused
        cases refused
      · apply Moved.intro
        case peers =>
          simp only [setServer_setNetwork, setClient_setNetwork, setServer_setClient,
            setClient_setClient, setServer_setServer]
          rfl
        · exact (closeLink_created _).trans (closeLink_created _)
        · simp only [setNetwork_peers, closeLink_peers]
        · rfl
        · exact .inr rfl
  · rename_i e h
    obtain ⟨refused, network, after⟩ := attachTransport_error h
    simp only [setClient_networks, setServer_networks, closeLink_refuses] at refused
    left
    rw [after]
    refine ⟨fun h => ?_, _, e, rfl, ?_⟩
    · rw [h.2] at refused
      cases refused
    · apply Moved.intro
      case peers =>
        simp only [setServer_setNetwork, setClient_setNetwork, setServer_setClient]
        rfl
      · exact (closeLink_created _).trans (closeLink_created _)
      · simp only [setNetwork_peers, closeLink_peers]
      · rfl
      · exact .inl rfl

/-! ## What is checked first -/

theorem ensureOpen_ok {p : Peer} {scope : JSString} (h : p.state = .opened) :
    p.ensureOpen scope = .ok () := by
  rw [Peer.ensureOpen, if_pos h]

theorem ensureOpen_error {p : Peer} (scope : JSString) (h : p.state ≠ .opened) :
    ∃ e, p.ensureOpen scope = .error e := by
  rw [Peer.ensureOpen, if_neg h]
  exact ⟨_, rfl⟩

/-- Both peers are open. -/
def Open (m : Mesh) (p q : Nat) : Prop :=
  (m.peers p).state = .opened ∧ (m.peers q).state = .opened

theorem connect_cases (this peer : Nat) (uplink downlink : Reply) (clientId : JSString) :
    (¬ m.Open this peer ∧ ∃ e, m.connect this peer uplink downlink clientId = (m, .error e)) ∨
      m.Open this peer ∧
        m.connect this peer uplink downlink clientId =
          (m.createNetworkPair uplink downlink).andThen fun m (up, down) =>
            m.wire this peer up down clientId := by
  unfold connect
  by_cases here : (m.peers this).state = .opened
  · rw [ensureOpen_ok here]
    by_cases there : (m.peers peer).state = .opened
    · right
      rw [ensureOpen_ok there]
      exact ⟨⟨here, there⟩, rfl⟩
    · left
      obtain ⟨e, eq⟩ := ensureOpen_error (lit "peer.accept") there
      rw [eq]
      exact ⟨fun h => there h.2, e, rfl⟩
  · left
    obtain ⟨e, eq⟩ := ensureOpen_error (lit "peer.connect") here
    rw [eq]
    exact ⟨fun h => here h.1, e, rfl⟩

theorem linkPair_eq {client server : Nat} {clientId : JSString} {clientLink serverLink : PeerLink} :
    m.linkPair client server clientId = some (clientLink, serverLink) ↔
      (m.peers client).server = some clientLink ∧
        (m.peers server).clients.get? clientId = some serverLink ∧
        clientLink.peer = server ∧ serverLink.peer = client := by
  unfold linkPair
  cases (m.peers client).server with
  | none => simp
  | some a =>
    cases (m.peers server).clients.get? clientId with
    | none => simp
    | some b =>
      dsimp only
      split
      · rename_i h
        simp only [reduceCtorEq, Option.some.injEq, false_iff]
        rintro ⟨rfl, rfl, ha, hb⟩
        exact h.elim (fun h => h ha) (fun h => h hb)
      · rename_i h
        rw [not_or, not_not, not_not] at h
        simp only [Option.some.injEq, Prod.mk.injEq]
        constructor
        · rintro ⟨rfl, rfl⟩
          exact ⟨rfl, rfl, h⟩
        · rintro ⟨rfl, rfl, -⟩
          exact ⟨rfl, rfl⟩

/-- A `reconnect` of `this` is one of the link of `client` to `server`, and finds
both ends of it. -/
structure Replaces (m : Mesh) (this : Nat) (option : Option JSString) (client server : Nat)
    (clientId : JSString) (clientLink serverLink : PeerLink) : Prop where
  opened : (m.peers this).state = .opened
  target : m.reconnectTarget this option = .ok (client, server, clientId)
  both : m.Open client server
  ends : m.linkPair client server clientId = some (clientLink, serverLink)

theorem reconnect_cases (this : Nat) (option : Option JSString) (uplink downlink : Reply) :
    ((¬ ∃ client server clientId clientLink serverLink,
          m.Replaces this option client server clientId clientLink serverLink) ∧
        ∃ e, m.reconnect this option uplink downlink = (m, .error e)) ∨
      ∃ client server clientId clientLink serverLink,
        m.Replaces this option client server clientId clientLink serverLink ∧
          m.reconnect this option uplink downlink =
            ((m.createNetworkPair uplink downlink).andThen fun m (up, down) =>
              m.replaceNetworks client server clientId clientLink serverLink up down).andThen
                fun m _ => (m, .ok clientId) := by
  unfold reconnect
  by_cases here : (m.peers this).state = .opened
  · rw [ensureOpen_ok here]
    dsimp only
    cases target : m.reconnectTarget this option with
    | error e =>
      left
      refine ⟨?_, e, rfl⟩
      rintro ⟨_, _, _, _, _, h⟩
      cases target.symm.trans h.target
    | ok found =>
      obtain ⟨client, server, clientId⟩ := found
      dsimp only
      unfold reconnectPair
      by_cases first : (m.peers client).state = .opened
      · rw [ensureOpen_ok first]
        by_cases second : (m.peers server).state = .opened
        · rw [ensureOpen_ok second]
          cases ends : m.linkPair client server clientId with
          | none =>
            left
            refine ⟨?_, _, rfl⟩
            rintro ⟨_, _, _, _, _, h⟩
            cases target.symm.trans h.target
            cases ends.symm.trans h.ends
          | some ends' =>
            obtain ⟨clientLink, serverLink⟩ := ends'
            right
            exact ⟨client, server, clientId, clientLink, serverLink,
              ⟨here, target, ⟨first, second⟩, ends⟩, rfl⟩
        · left
          obtain ⟨e, eq⟩ := ensureOpen_error (lit "peer.reconnect") second
          rw [eq]
          refine ⟨?_, e, rfl⟩
          rintro ⟨_, _, _, _, _, h⟩
          cases target.symm.trans h.target
          exact second h.both.2
      · left
        obtain ⟨e, eq⟩ := ensureOpen_error (lit "peer.reconnect") first
        rw [eq]
        refine ⟨?_, e, rfl⟩
        rintro ⟨_, _, _, _, _, h⟩
        cases target.symm.trans h.target
        exact first h.both.1
  · left
    obtain ⟨e, eq⟩ := ensureOpen_error (lit "peer.reconnect") here
    rw [eq]
    refine ⟨?_, e, rfl⟩
    rintro ⟨_, _, _, _, _, h⟩
    exact here h.opened

/-- Two peers, connected. -/
def couple : Mesh :=
  ((start (fun _ => lit "peer") fun _ => none).connect 0 1 defaultPeerNetworkFactory
    defaultPeerNetworkFactory (lit "client-1")).1

end Mesh

end LemonModel
