import LemonModel.Base.Run
import LemonModel.Socket.Calls

/-!
# What every call leaves alone

Whatever becomes of a call, it opens and closes no peer but the one that closes,
no detached transport is attached again, and a network gets a reader only when it
is new (`Keeps`).
-/

namespace LemonModel.Mesh

open Text

variable {m m' m'' : Mesh}

/-- Peers stay open or closed, transports stay detached, and the networks
`reads` get a reader. -/
structure Grows (m m' : Mesh) (reads : List Nat) : Prop where
  state : ∀ q, (m'.peers q).state = (m.peers q).state
  detached : ∀ n ∈ m.detached, n ∈ m'.detached
  created : m'.created = m.created
  readers : ∀ n, (m'.networks n).messageListeners.length ≤
    (m.networks n).messageListeners.length + reads.count n

theorem Grows.refl (m : Mesh) : Grows m m [] :=
  ⟨fun _ => rfl, fun _ h => h, rfl, fun _ => le_rfl⟩

theorem Grows.trans {a b : List Nat} (first : Grows m m' a) (second : Grows m' m'' b) :
    Grows m m'' (a ++ b) := by
  constructor
  · exact fun q => (second.state q).trans (first.state q)
  · exact fun n h => second.detached n (first.detached n h)
  · exact second.created.trans first.created
  · intro n
    have := first.readers n
    have := second.readers n
    rw [List.count_append]
    omega

theorem Grows.weaken {a : List Nat} (h : Grows m m' a) (b : List Nat) : Grows m m' (a ++ b) := by
  constructor
  · exact h.state
  · exact h.detached
  · exact h.created
  · intro n
    have := h.readers n
    rw [List.count_append]
    omega

theorem Grows.andThen {α β : Type} {c : Call α} {f : Mesh → α → Call β} {a b : List Nat}
    (first : Grows m c.1 a) (second : ∀ m x, Grows m (f m x).1 b) :
    Grows m (c.andThen f).1 (a ++ b) := by
  unfold Call.andThen
  split
  · exact first.trans (second _ _)
  · exact first.weaken b

theorem grows_setPeer (p : Nat) {peer : Peer} (state : peer.state = (m.peers p).state) :
    Grows m (m.setPeer p peer) [] := by
  constructor
  · intro q
    rw [setPeer_peers]
    split
    · rename_i eq
      rw [eq, state]
    · rfl
  · exact fun _ h => h
  · rfl
  · exact fun _ => le_rfl

/-- A network loses readers. -/
theorem grows_setNetwork (n : Nat) {network : LinkNetwork}
    (fewer : network.messageListeners.length ≤ (m.networks n).messageListeners.length) :
    Grows m (m.setNetwork n network) [] := by
  constructor
  · exact fun _ => rfl
  · exact fun _ h => h
  · rfl
  · intro k
    rw [setNetwork_networks]
    split
    · rename_i eq
      rw [eq]
      exact fewer
    · exact le_rfl

theorem grows_setServer (p : Nat) (link : PeerLink) : Grows m (m.setServer p link) [] :=
  grows_setPeer p rfl

theorem grows_setClient (p : Nat) (c : JSString) (link : PeerLink) :
    Grows m (m.setClient p c link) [] :=
  grows_setPeer p rfl

theorem grows_accept (p : Nat) (c : JSString) (client network : Nat)
    (options : Option JSONTransportOptions) :
    Grows m (m.setPeer p ((m.peers p).accept c client network options)) [] :=
  grows_setPeer p rfl

theorem grows_attachClientTransport (p : Nat) (c : JSString) (transport : Option LinkTransport) :
    Grows m (m.setPeer p ((m.peers p).attachClientTransport c transport)) [] := by
  apply grows_setPeer
  unfold Peer.attachClientTransport
  split <;> rfl

/-! ## Links -/

theorem grows_detach (t : LinkTransport) : Grows m (m.detach t) [] := by
  have silenced : Grows m (m.setNetwork t.receiveNetwork
      ((m.networks t.receiveNetwork).unsubscribe t.reader)) [] := by
    apply grows_setNetwork
    exact List.length_filter_le _ _
  exact { silenced with detached := fun n h => List.mem_cons_of_mem _ h }

theorem grows_detachAll (transports : List LinkTransport) : Grows m (m.detachAll transports) [] := by
  induction transports generalizing m with
  | nil => exact .refl m
  | cons t transports ih => exact (grows_detach t).trans ih

theorem grows_closeLink (link : PeerLink) : Grows m (m.closeLink link) [] :=
  (grows_detachAll _).trans (grows_setNetwork _ (Nat.zero_le _))

theorem grows_deleteClient (p : Nat) (c : JSString) : Grows m (m.deleteClient p c) [] :=
  grows_setPeer p rfl

theorem grows_detachClient (p : Nat) (c : Option JSString) : Grows m (m.detachClient p c) [] := by
  unfold detachClient
  split
  · exact .refl m
  · split
    · exact .refl m
    · split
      · exact .refl m
      · exact (grows_closeLink _).trans (grows_deleteClient _ _)

theorem grows_dropClient (this : Nat) (client : JSString × PeerLink) :
    Grows m (dropClient this m client) [] := by
  have deleted (m' : Mesh) (h : Grows m m' []) : Grows m (m'.deleteClient this client.1) [] :=
    h.trans (grows_deleteClient _ _)
  unfold dropClient
  apply deleted
  split
  · exact grows_closeLink _
  · split
    · exact ((grows_closeLink _).trans (grows_closeLink _)).trans (grows_setPeer _ rfl)
    · exact grows_closeLink _

theorem grows_dropClients (this : Nat) (clients : List (JSString × PeerLink)) :
    Grows m (clients.foldl (dropClient this) m) [] := by
  induction clients generalizing m with
  | nil => exact .refl m
  | cons client clients ih => exact (grows_dropClient this client).trans ih

/-- What a peer does once its state is `closed`. -/
theorem grows_close {this : Nat} (opened : (m.peers this).state ≠ .closed) :
    Grows (m.setPeer this { m.peers this with state := .closed, server := none }) (m.close this)
      [] := by
  unfold close
  rw [if_neg opened]
  dsimp only
  cases (m.peers this).server with
  | none => exact (grows_dropClients this _).trans (grows_setPeer this rfl)
  | some server =>
    exact (((grows_closeLink server).trans (grows_detachClient _ _)).trans
      (grows_dropClients this _)).trans (grows_setPeer this rfl)

/-! ## Subscriptions -/

theorem grows_onMessage (n : Nat) (reader : Reader) : Grows m (m.onMessage n reader).1 [n] := by
  unfold onMessage
  split
  · exact (Grows.refl m).weaken [n]
  · constructor
    · exact fun _ => rfl
    · exact fun _ h => h
    · rfl
    · intro k
      rw [setNetwork_networks]
      split
      · rename_i eq
        subst eq
        simp [LinkNetwork.subscribe]
      · exact Nat.le_add_right _ _

theorem grows_onError (n : Nat) : Grows m (m.onError n).1 [] := by
  unfold onError
  split <;> exact .refl m

theorem grows_createJSONTransport (t : LinkTransport) :
    Grows m (m.createJSONTransport t).1 [t.receiveNetwork] :=
  (grows_onMessage _ _).andThen fun _ _ => (grows_onError _).andThen fun m _ => .refl m

theorem grows_attachTransport (read write receiver sender : Nat) (clientId : Option JSString)
    (localOptions remoteOptions : Option JSONTransportOptions) :
    Grows m (m.attachTransport read write receiver sender clientId localOptions remoteOptions).1
      [read] := by
  unfold attachTransport
  dsimp only
  split
  · exact (grows_createJSONTransport _).andThen fun m _ => .refl m
  · split
    · exact (grows_createJSONTransport _).andThen fun m _ => .refl m
    · exact (grows_onMessage _ _).andThen fun m _ => .refl m

/-! ## The calls -/

theorem grows_wire (this peer up down : Nat) (clientId : JSString) :
    Grows m (m.wire this peer up down clientId).1 [up, down] := by
  apply (grows_accept peer clientId this down _).trans
  apply (grows_attachTransport up down peer this _ _ _).andThen (b := [down])
  intro m transport
  apply (grows_attachClientTransport peer clientId transport).trans
  apply (grows_attachTransport down up this peer _ _ _).andThen (b := [])
  intro m transport
  exact grows_setPeer this rfl

theorem grows_replaceNetworks (client server : Nat) (clientId : JSString)
    (clientLink serverLink : PeerLink) (up down : Nat) :
    Grows m (m.replaceNetworks client server clientId clientLink serverLink up down).1
      [down, up] := by
  apply (((grows_closeLink clientLink).trans (grows_closeLink serverLink)).trans
    (grows_setServer client _)).trans
  apply (grows_setClient server clientId _).trans
  apply (grows_attachTransport down up client server _ _ _).andThen (b := [up])
  intro m transport
  apply ((grows_setServer client _).trans (grows_setClient server clientId _)).trans
  apply (grows_attachTransport up down server client _ _ _).andThen (b := [])
  intro m transport
  exact (grows_setClient server clientId _).trans (grows_setPeer client rfl)

/-- A network has one reader at most, and none before it is made. -/
structure ReadOnce (m : Mesh) : Prop where
  one : ∀ n, (m.networks n).messageListeners.length ≤ 1
  unmade : ∀ n, m.created ≤ n → (m.networks n).messageListeners = []

/-- What every `connect` and `reconnect` leaves alone. -/
structure Keeps (m m' : Mesh) : Prop where
  state : ∀ q, (m'.peers q).state = (m.peers q).state
  detached : ∀ n ∈ m.detached, n ∈ m'.detached
  readOnce : m.ReadOnce → m'.ReadOnce

theorem Keeps.refl (m : Mesh) : m.Keeps m := ⟨fun _ => rfl, fun _ h => h, id⟩

theorem Keeps.trans (first : m.Keeps m') (second : m'.Keeps m'') : m.Keeps m'' := by
  constructor
  · exact fun q => (second.state q).trans (first.state q)
  · exact fun n h => second.detached n (first.detached n h)
  · exact fun h => second.readOnce (first.readOnce h)

/-- Networks that have no reader get one. -/
theorem Grows.keeps {reads : List Nat} (h : m.Grows m' reads) (nodup : reads.Nodup)
    (free : ∀ n ∈ reads, n < m.created ∧ (m.networks n).messageListeners = []) : m.Keeps m' := by
  refine ⟨h.state, h.detached, fun once => ?_⟩
  constructor
  · intro n
    have fewer := h.readers n
    have one := once.one n
    by_cases hn : n ∈ reads
    · rw [(free n hn).2, List.count_eq_one_of_mem nodup hn] at fewer
      exact fewer
    · rw [List.count_eq_zero_of_not_mem hn] at fewer
      omega
  · intro n unmade
    rw [h.created] at unmade
    have fewer := h.readers n
    have hn : n ∉ reads := by
      intro hn
      have := (free n hn).1
      omega
    rw [List.count_eq_zero_of_not_mem hn, once.unmade n unmade] at fewer
    exact List.length_eq_zero_iff.mp (Nat.le_zero.mp fewer)

theorem keeps_extend {network : LinkNetwork} (silent : network.messageListeners = []) :
    m.Keeps (m.extend network) := by
  refine ⟨fun _ => rfl, fun _ h => h, fun once => ?_⟩
  constructor
  · intro n
    rw [extend_networks]
    split
    · rw [silent]
      exact Nat.zero_le 1
    · exact once.one n
  · intro n unmade
    rw [extend_created] at unmade
    rw [extend_networks, if_neg (by omega)]
    exact once.unmade n (by omega)

theorem network_silent {reply : Reply} {network : LinkNetwork}
    (made : reply.network? = some network) : network.messageListeners = [] := by
  cases reply with
  | fails e => cases made
  | makes readyState refusesMessages refusesErrors =>
    cases made
    rfl

theorem keeps_createNetworkPair {uplink downlink : Reply} {e : Except JSString (Nat × Nat)}
    (h : m.createNetworkPair uplink downlink = (m', e)) : m.Keeps m' := by
  obtain ⟨_, up, down, hu, hd, -, eq⟩ | ⟨-, m₁, e, eq, unmade⟩ :=
    createNetworkPair_cases (m := m) uplink downlink
  · cases eq.symm.trans h
    exact (keeps_extend (network_silent hu)).trans (keeps_extend (network_silent hd))
  · cases eq.symm.trans h
    obtain rfl | ⟨up, rfl⟩ := unmade
    · exact .refl m'
    · exact keeps_extend rfl

/-- The networks that were just made have no reader. -/
theorem made_free {uplink downlink : Reply} {up down : LinkNetwork}
    (hu : uplink.network? = some up) (hd : downlink.network? = some down) :
    ∀ n ∈ [m.created, m.created + 1], n < ((m.extend up).extend down).created ∧
      (((m.extend up).extend down).networks n).messageListeners = [] := by
  obtain ⟨first, second⟩ := made_networks (m := m) up down
  intro n hn
  rcases List.mem_pair.mp hn with rfl | rfl
  · rw [first]
    exact ⟨by simp, network_silent hu⟩
  · rw [second]
    exact ⟨by simp, network_silent hd⟩

theorem keeps_connect (this peer : Nat) (uplink downlink : Reply) (clientId : JSString) :
    m.Keeps (m.connect this peer uplink downlink clientId).1 := by
  obtain ⟨-, e, eq⟩ | ⟨-, eq⟩ := connect_cases (m := m) this peer uplink downlink clientId
  · rw [eq]
    exact .refl m
  · rw [eq]
    obtain ⟨_, up, down, hu, hd, rfl, eq⟩ | ⟨-, m', e, eq, -⟩ :=
      createNetworkPair_cases (m := m) uplink downlink
    · have made := keeps_createNetworkPair eq
      rw [eq]
      apply made.trans
      exact (grows_wire this peer m.created (m.created + 1) clientId).keeps (by simp)
        (made_free hu hd)
    · have made := keeps_createNetworkPair eq
      rw [eq]
      exact made

theorem keeps_reconnect (this : Nat) (option : Option JSString) (uplink downlink : Reply) :
    m.Keeps (m.reconnect this option uplink downlink).1 := by
  obtain ⟨-, e, eq⟩ | ⟨client, server, clientId, clientLink, serverLink, -, eq⟩ :=
    reconnect_cases (m := m) this option uplink downlink
  · rw [eq]
    exact .refl m
  · rw [eq]
    obtain ⟨_, up, down, hu, hd, rfl, eq⟩ | ⟨-, m', e, eq, -⟩ :=
      createNetworkPair_cases (m := m) uplink downlink
    · have made := keeps_createNetworkPair eq
      rw [eq]
      apply made.trans
      have replaced := (grows_replaceNetworks (m := (m.extend up).extend down) client server
        clientId clientLink serverLink m.created (m.created + 1)).andThen (b := [])
        (f := fun m _ => (m, .ok clientId)) fun m _ => .refl m
      apply replaced.keeps (by simp)
      intro n hn
      apply made_free hu hd
      simpa [or_comm] using hn
    · have made := keeps_createNetworkPair eq
      rw [eq]
      exact made

/-- A `close` closes one peer. -/
theorem close_state (this q : Nat) :
    ((m.close this).peers q).state =
      if q = this ∧ (m.peers this).state ≠ .closed then .closed else (m.peers q).state := by
  by_cases opened : (m.peers this).state ≠ .closed
  · rw [(grows_close opened).state q, setPeer_peers]
    by_cases hq : q = this
    · simp [hq, opened]
    · simp [hq]
  · rw [close, if_pos (not_not.mp opened), if_neg (fun h => opened h.2)]

theorem close_detached (this : Nat) {n : Nat} (h : n ∈ m.detached) : n ∈ (m.close this).detached := by
  by_cases opened : (m.peers this).state ≠ .closed
  · exact (grows_close opened).detached n h
  · rw [close, if_pos (not_not.mp opened)]
    exact h

theorem ReadOnce.close (h : m.ReadOnce) (this : Nat) : (m.close this).ReadOnce := by
  by_cases opened : (m.peers this).state ≠ .closed
  · apply ((grows_close opened).keeps (by simp) (by simp)).readOnce
    exact ⟨h.one, h.unmade⟩
  · rw [Mesh.close, if_pos (not_not.mp opened)]
    exact h

theorem readOnce_start (ids : Nat → JSString) (options : Nat → Option JSONTransportOptions) :
    (start ids options).ReadOnce :=
  ⟨fun _ => Nat.zero_le 1, fun _ _ => rfl⟩

end LemonModel.Mesh
