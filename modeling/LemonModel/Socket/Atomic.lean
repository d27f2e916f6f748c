import LemonModel.Base.Run
import LemonModel.Socket.Calls

/-!
# Calls that throw

What a `connect` or a `reconnect` that throws leaves behind. A network that
refuses a subscription finds the peers changed already, and nobody undoes it.
-/

namespace LemonModel

open Text

/-- The networks of a peer's links are made. -/
structure Peer.Bounded (p : Peer) (created : Nat) : Prop where
  server : ∀ l, p.server = some l → l.network < created
  clients : ∀ c l, p.clients.get? c = some l → l.network < created

namespace Mesh

variable {m : Mesh}

/-! ## Whose networks there are -/

def Bounded (m : Mesh) : Prop := ∀ p, (m.peers p).Bounded m.created

theorem Bounded.mono {m' : Mesh} (h : m.Bounded) (peers : m'.peers = m.peers)
    (created : m.created ≤ m'.created) : m'.Bounded := by
  intro p
  rw [peers]
  constructor
  · intro l hl
    have := (h p).server l hl
    omega
  · intro c l hl
    have := (h p).clients c l hl
    omega

theorem Bounded.setPeer (h : m.Bounded) {p : Nat} {peer : Peer} (hp : peer.Bounded m.created) :
    (m.setPeer p peer).Bounded := by
  intro q
  rw [setPeer_peers]
  split
  · exact hp
  · exact h q

theorem Bounded.setNetwork (h : m.Bounded) (n : Nat) (network : LinkNetwork) :
    (m.setNetwork n network).Bounded := h

theorem Bounded.closeLink (h : m.Bounded) (link : PeerLink) : (m.closeLink link).Bounded :=
  h.mono (closeLink_peers link) (by simp)

theorem Bounded.extend (h : m.Bounded) (network : LinkNetwork) : (m.extend network).Bounded :=
  h.mono rfl (by simp)

theorem Bounded.setClient (h : m.Bounded) (p : Nat) (c : JSString) {l : PeerLink}
    (hl : l.network < m.created) : (m.setClient p c l).Bounded := by
  apply h.setPeer
  constructor
  · exact (h p).server
  · intro c' l' eq
    rw [Dict.get?_set] at eq
    split at eq
    · cases eq
      exact hl
    · exact (h p).clients c' l' eq

theorem Bounded.setServer (h : m.Bounded) (p : Nat) {l : PeerLink}
    (hl : l.network < m.created) : (m.setServer p l).Bounded := by
  apply h.setPeer
  constructor
  · intro l' eq
    cases eq
    exact hl
  · exact (h p).clients

theorem Bounded.assign (h : m.Bounded) (p : Nat) (clientId : JSString) :
    (m.assign p clientId).Bounded := by
  apply h.setPeer
  exact ⟨(h p).server, (h p).clients⟩

/-- A peer loses its own link, some of its clients, or both. -/
theorem Bounded.drop (h : m.Bounded) (p : Nat) {peer : Peer}
    (server : ∀ l, peer.server = some l → (m.peers p).server = some l)
    (clients : ∀ c l, peer.clients.get? c = some l → (m.peers p).clients.get? c = some l) :
    (m.setPeer p peer).Bounded := by
  apply h.setPeer
  constructor
  · intro l eq
    exact (h p).server l (server l eq)
  · intro c l eq
    exact (h p).clients c l (clients c l eq)

/-! ### The calls -/

theorem Bounded.wire (h : m.Bounded) (this peer : Nat) {up down : Nat} (hu : up < m.created)
    (hd : down < m.created) (clientId : JSString) : (m.wire this peer up down clientId).1.Bounded := by
  obtain ⟨-, m', e, eq, created, link, hl, peers⟩ | ⟨-, eq⟩ :=
    wire_cases (m := m) this peer up down clientId
  · rw [eq]
    exact (h.setClient peer clientId (l := link) (by omega)).mono peers (le_of_eq created.symm)
  · rw [eq]
    have read : (m.subscribed this peer up down clientId).Bounded := h
    exact ((read.setClient peer clientId (l := m.serverEnd this peer up down clientId) hd).setServer
      this (l := m.clientEnd this peer up down clientId) hu).assign this clientId

theorem Bounded.replaceNetworks (h : m.Bounded) (client server : Nat) (clientId : JSString)
    (clientLink serverLink : PeerLink) (hs : serverLink.network < m.created) (up down : Nat)
    (hu : up < m.created) (hd : down < m.created) :
    (m.replaceNetworks client server clientId clientLink serverLink up down).1.Bounded := by
  obtain ⟨-, m', e, eq, created, x, y, hx, hy, peers⟩ | ⟨-, eq⟩ :=
    replaceNetworks_cases (m := m) client server clientId clientLink serverLink up down
  · rw [eq]
    have entered := h.setClient server clientId (l := y) (by omega)
    exact (entered.setServer client (l := x) (by rw [hx]; exact hu)).mono peers
      (le_of_eq created.symm)
  · rw [eq]
    have closed := (h.closeLink clientLink).closeLink serverLink
    unfold relinked
    apply Bounded.assign
    apply Bounded.setClient
    · apply Bounded.setServer
      · exact (closed.setNetwork down _).setNetwork up _
      · simpa using hu
    · simpa [Mesh.setServer] using hd

theorem Bounded.createNetworkPair (h : m.Bounded) (uplink downlink : Reply) :
    (m.createNetworkPair uplink downlink).1.Bounded := by
  obtain ⟨_, up, down, -, -, rfl, eq⟩ | ⟨-, m', e, eq, unmade⟩ :=
    createNetworkPair_cases (m := m) uplink downlink
  · rw [eq]
    exact (h.extend up).extend down
  · rw [eq]
    obtain rfl | ⟨up, rfl⟩ := unmade
    · exact h
    · exact h.extend _

theorem Bounded.connect (h : m.Bounded) (this peer : Nat) (uplink downlink : Reply)
    (clientId : JSString) : (m.connect this peer uplink downlink clientId).1.Bounded := by
  obtain ⟨-, e, eq⟩ | ⟨-, eq⟩ := connect_cases (m := m) this peer uplink downlink clientId
  · rw [eq]
    exact h
  · rw [eq]
    have made := h.createNetworkPair uplink downlink
    obtain ⟨_, up, down, -, -, rfl, eq⟩ | ⟨-, m', e, eq, -⟩ :=
      createNetworkPair_cases (m := m) uplink downlink
    · rw [eq] at made ⊢
      exact made.wire this peer (by simp) (by simp) clientId
    · rw [eq] at made ⊢
      exact made

theorem Bounded.reconnect (h : m.Bounded) (this : Nat) (option : Option JSString)
    (uplink downlink : Reply) : (m.reconnect this option uplink downlink).1.Bounded := by
  obtain ⟨-, e, eq⟩ | ⟨client, server, clientId, clientLink, serverLink, replaces, eq⟩ :=
    reconnect_cases (m := m) this option uplink downlink
  · rw [eq]
    exact h
  · have made := h.createNetworkPair uplink downlink
    have bound := (h server).clients clientId serverLink (linkPair_eq.mp replaces.ends).2.1
    rw [eq]
    obtain ⟨_, up, down, -, -, rfl, eq⟩ | ⟨-, m', e, eq, -⟩ :=
      createNetworkPair_cases (m := m) uplink downlink
    · rw [eq] at made ⊢
      have replaced := made.replaceNetworks client server clientId clientLink serverLink
        (by simp; omega) m.created (m.created + 1) (by simp) (by simp)
      unfold Call.andThen
      dsimp only
      split
      · exact replaced
      · exact replaced
    · rw [eq] at made ⊢
      exact made

theorem Bounded.deleteClient (h : m.Bounded) (p : Nat) (c : JSString) :
    (m.deleteClient p c).Bounded := by
  apply h.drop
  · exact fun _ eq => eq
  · intro c' l eq
    rw [Dict.get?_delete] at eq
    split at eq
    · cases eq
    · exact eq

theorem Bounded.detachClient (h : m.Bounded) (p : Nat) (c : Option JSString) :
    (m.detachClient p c).Bounded := by
  unfold Mesh.detachClient
  split
  · exact h
  · split
    · exact h
    · split
      · exact h
      · exact (h.closeLink _).deleteClient _ _

theorem Bounded.dropClient (h : m.Bounded) (this : Nat) (client : JSString × PeerLink) :
    (Mesh.dropClient this m client).Bounded := by
  unfold Mesh.dropClient
  dsimp only
  apply Bounded.deleteClient
  split
  · exact h.closeLink _
  · split
    · apply ((h.closeLink _).closeLink _).drop
      · intro l eq
        cases eq
      · exact fun _ _ eq => eq
    · exact h.closeLink _

theorem Bounded.close (h : m.Bounded) (this : Nat) : (m.close this).Bounded := by
  have dropped : ∀ (links : List (JSString × PeerLink)) (m : Mesh), m.Bounded →
      (links.foldl (Mesh.dropClient this) m).Bounded := by
    intro links
    induction links with
    | nil => exact fun _ h => h
    | cons link links ih => exact fun m h => ih _ (h.dropClient this link)
  have shut : (m.setPeer this { m.peers this with state := .closed, server := none }).Bounded := by
    apply h.drop
    · intro l eq
      cases eq
    · exact fun _ _ eq => eq
  unfold Mesh.close
  split
  · exact h
  · apply Bounded.drop
    · apply dropped
      split
      · exact shut
      · exact (shut.closeLink _).detachClient _ _
    · exact fun _ eq => eq
    · intro c l eq
      cases eq

theorem Bounded.step (h : m.Bounded) {e : MeshEvent} {m' : Mesh} (step : m.step e = some m') :
    m'.Bounded := by
  cases e with
  | connect this peer uplink downlink clientId =>
    cases step
    exact h.connect this peer uplink downlink clientId
  | reconnect this option uplink downlink =>
    cases step
    exact h.reconnect this option uplink downlink
  | close this =>
    cases step
    exact h.close this

/-- The links of a mesh that was reached from peers without links are over
networks that were made. -/
theorem bounded_run {ids : Nat → JSString} {options : Nat → Option JSONTransportOptions}
    {es : List MeshEvent} (run : exec step (start ids options) es = some m) : m.Bounded := by
  have run : Run step (fun _ _ => True) (start ids options) es m :=
    .of_exec (fun _ _ => trivial) run
  apply run.invariant Bounded
  · intro m e m' h _ step
    exact h.step step
  · intro p
    constructor
    · intro l eq
      cases eq
    · intro c l eq
      cases eq

/-! ## Calls that throw -/

/-- If a call throws, every peer is as it was, with its links and their
transports, every network is as it was, the networks the call made are closed,
and no transport was detached. -/
def Atomic {α : Type} (m : Mesh) (c : Call α) : Prop :=
  ∀ e, c.2 = .error e →
    c.1.peers = m.peers ∧ (∀ n < m.created, c.1.networks n = m.networks n) ∧
      (∀ n, m.created ≤ n → n < c.1.created → (c.1.networks n).readyState = .closed) ∧
      c.1.detached = m.detached

theorem atomic_ok {α : Type} (m' : Mesh) (a : α) : m.Atomic (m', .ok a) := by
  intro e h
  cases h

theorem atomic_refl {α : Type} (e : JSString) : m.Atomic ((m, .error e) : Call α) := by
  intro _ _
  refine ⟨rfl, fun _ _ => rfl, fun n made unmade => ?_, rfl⟩
  dsimp only at unmade
  omega

/-- The first network was made, and was closed when the second was not. -/
theorem atomic_unmade {α : Type} (network : LinkNetwork) (e : JSString) :
    m.Atomic ((m.extend network.close, .error e) : Call α) := by
  intro _ _
  refine ⟨rfl, fun n hn => ?_, fun n made unmade => ?_, rfl⟩
  · have : n ≠ m.created := by omega
    simp [extend_networks, this]
  · have : n = m.created := by
      simp only [extend_created] at unmade
      omega
    simp [extend_networks, this, LinkNetwork.close]

theorem atomic_createNetworkPair {α : Type} {m' : Mesh} {e : JSString}
    (unmade : m' = m ∨ ∃ up : LinkNetwork, m' = m.extend up.close) :
    m.Atomic ((m', .error e) : Call α) := by
  obtain rfl | ⟨up, rfl⟩ := unmade
  · exact atomic_refl e
  · exact atomic_unmade up e

/-- A client that was entered is still there. -/
theorem Bounded.not_entered (h : m.Bounded) {m' : Mesh} {server down : Nat} {clientId : JSString}
    (hd : m.created ≤ down) {link : PeerLink} (hl : link.network = down)
    (peers : m'.peers = (m.setClient server clientId link).peers) : m'.peers ≠ m.peers := by
  intro same
  have entry : (m'.peers server).clients.get? clientId = some link := by
    rw [peers, Mesh.setClient, setPeer_self]
    exact Dict.get?_set_self ..
  rw [same] at entry
  have := (h server).clients clientId link entry
  omega

/-- A client that was moved to another network stays there. -/
theorem Bounded.not_moved (h : m.Bounded) {m' : Mesh} {client server up : Nat} {clientId : JSString}
    (hu : m.created ≤ up) {x y : PeerLink} (hx : x.network = up)
    (peers : m'.peers = ((m.setClient server clientId y).setServer client x).peers) :
    m'.peers ≠ m.peers := by
  intro same
  have own : (m'.peers client).server = some x := by
    rw [peers]
    exact setServer_server ..
  rw [same] at own
  have := (h client).server x own
  omega

theorem connect_atomic (h : m.Bounded) (this peer : Nat) (uplink downlink : Reply)
    (clientId : JSString) :
    m.Atomic (m.connect this peer uplink downlink clientId) ↔
      (m.Open this peer → ∀ up ∈ uplink.network?, ∀ down ∈ downlink.network?,
        m.Accepts this peer up down) := by
  obtain ⟨closed, e, eq⟩ | ⟨both, eq⟩ := connect_cases (m := m) this peer uplink downlink clientId
  · rw [eq]
    exact ⟨fun _ both => absurd both closed, fun _ => atomic_refl e⟩
  · rw [eq]
    obtain ⟨_, up, down, hu, hd, rfl, eq⟩ | ⟨none, m', e, eq, unmade⟩ :=
      createNetworkPair_cases (m := m) uplink downlink
    · rw [eq]
      obtain ⟨first, second⟩ := made_networks (m := m) up down
      have wired := wire_cases (m := (m.extend up).extend down) this peer m.created (m.created + 1)
        clientId
      rw [first, second] at wired
      obtain ⟨refused, m', e, eq, created, link, hl, peers⟩ | ⟨taken, eq⟩ := wired
      · constructor
        · intro atomic
          obtain ⟨same, -⟩ := atomic e (by simp [Call.andThen, eq])
          simp only [Call.andThen, eq] at same
          exact absurd same (h.not_entered (by omega) hl peers)
        · intro accepts
          exact absurd (accepts both up hu down hd) refused
      · constructor
        · intro _ _ up' hu' down' hd'
          rw [hu] at hu'
          rw [hd] at hd'
          cases hu'
          cases hd'
          exact taken
        · intro _
          simp only [Call.andThen, eq]
          exact atomic_ok _ _
    · rw [eq]
      constructor
      · intro _ _ up hu down hd
        rcases none with none | none
        · rw [none] at hu
          cases hu
        · rw [none] at hd
          cases hd
      · intro _
        exact atomic_createNetworkPair unmade

theorem Replaces.unique {this : Nat} {option : Option JSString} {client server client' server' : Nat}
    {clientId clientId' : JSString} {clientLink serverLink clientLink' serverLink' : PeerLink}
    (h : m.Replaces this option client server clientId clientLink serverLink)
    (h' : m.Replaces this option client' server' clientId' clientLink' serverLink') :
    client' = client ∧ server' = server := by
  cases h.target.symm.trans h'.target
  exact ⟨rfl, rfl⟩

theorem reconnect_atomic (h : m.Bounded) (this : Nat) (option : Option JSString)
    (uplink downlink : Reply) :
    m.Atomic (m.reconnect this option uplink downlink) ↔
      ∀ client server clientId clientLink serverLink,
        m.Replaces this option client server clientId clientLink serverLink →
          ∀ up ∈ uplink.network?, ∀ down ∈ downlink.network?, m.Accepts client server up down := by
  obtain ⟨unfit, e, eq⟩ | ⟨client, server, clientId, clientLink, serverLink, replaces, eq⟩ :=
    reconnect_cases (m := m) this option uplink downlink
  · rw [eq]
    constructor
    · intro _ client server clientId clientLink serverLink replaces
      exact absurd ⟨client, server, clientId, clientLink, serverLink, replaces⟩ unfit
    · exact fun _ => atomic_refl e
  · rw [eq]
    obtain ⟨_, up, down, hu, hd, rfl, eq⟩ | ⟨none, m', e, eq, unmade⟩ :=
      createNetworkPair_cases (m := m) uplink downlink
    · rw [eq]
      obtain ⟨first, second⟩ := made_networks (m := m) up down
      have replaced := replaceNetworks_cases (m := (m.extend up).extend down) client server clientId
        clientLink serverLink m.created (m.created + 1)
      rw [first, second] at replaced
      obtain ⟨refused, m', e, eq, created, x, y, hx, -, peers⟩ | ⟨taken, eq⟩ := replaced
      · constructor
        · intro atomic
          obtain ⟨same, -⟩ := atomic e (by simp [Call.andThen, eq])
          simp only [Call.andThen, eq] at same
          exact absurd same (h.not_moved (by omega) hx peers)
        · intro accepts
          exact absurd (accepts _ _ _ _ _ replaces up hu down hd) refused
      · constructor
        · intro _ client' server' clientId' clientLink' serverLink' replaces' up' hu' down' hd'
          obtain ⟨rfl, rfl⟩ := replaces.unique replaces'
          rw [hu] at hu'
          rw [hd] at hd'
          cases hu'
          cases hd'
          exact taken
        · intro _
          simp only [Call.andThen, eq]
          exact atomic_ok _ _
    · rw [eq]
      constructor
      · intro _ _ _ _ _ _ _ up hu down hd
        rcases none with none | none
        · rw [none] at hu
          cases hu
        · rw [none] at hd
          cases hd
      · intro _
        exact atomic_createNetworkPair unmade

/-- **A call that throws.** It has changed nothing, exactly unless both networks
were made and one of them refuses a subscription. -/
theorem failed_calls_are_atomic {ids : Nat → JSString} {options : Nat → Option JSONTransportOptions}
    {es : List MeshEvent} (run : exec step (start ids options) es = some m) :
    (∀ this peer uplink downlink clientId,
        m.Atomic (m.connect this peer uplink downlink clientId) ↔
          (m.Open this peer → ∀ up ∈ uplink.network?, ∀ down ∈ downlink.network?,
            m.Accepts this peer up down)) ∧
      ∀ this option uplink downlink,
        m.Atomic (m.reconnect this option uplink downlink) ↔
          ∀ client server clientId clientLink serverLink,
            m.Replaces this option client server clientId clientLink serverLink →
              ∀ up ∈ uplink.network?, ∀ down ∈ downlink.network?,
                m.Accepts client server up down := by
  have bounded := bounded_run run
  constructor
  · intro this peer uplink downlink clientId
    exact connect_atomic bounded this peer uplink downlink clientId
  · intro this option uplink downlink
    exact reconnect_atomic bounded this option uplink downlink

/-- A factory whose network refuses its message subscription. -/
def refuses : Reply := .makes .opened (some (lit "subscription refused")) none

/-- The replacement of a working link has closed it by the time the subscription
of the new network is refused. -/
theorem refused_subscription_is_not_undone :
    exec step (start (fun _ => lit "peer") fun _ => none)
        [.connect 0 1 defaultPeerNetworkFactory defaultPeerNetworkFactory (lit "client-1")] =
          some couple ∧
      ¬ couple.Atomic (couple.reconnect 0 none defaultPeerNetworkFactory refuses) := by
  refine ⟨rfl, fun atomic => ?_⟩
  obtain ⟨-, networks, -⟩ := atomic (lit "subscription refused") (by decide)
  have same := congrArg LinkNetwork.readyState (networks 0 (by decide))
  exact absurd same (by decide)

theorem failed_calls_are_atomic_reconnect :
    couple.Atomic (couple.reconnect 0 none defaultPeerNetworkFactory (.fails (lit "no network"))) := by
  have calls := failed_calls_are_atomic (show exec step (start (fun _ => lit "peer") fun _ => none)
    [.connect 0 1 defaultPeerNetworkFactory defaultPeerNetworkFactory (lit "client-1")] =
      some couple from rfl)
  apply (calls.2 0 none defaultPeerNetworkFactory (.fails (lit "no network"))).mpr
  intro _ _ _ _ _ _ _ _ down hd
  cases hd

end Mesh

end LemonModel
