import LemonModel.Socket.Frame

/-!
# The two ends of a link

Every link has two ends, each in the tables of one peer, and the network one end
writes is the one the other end reads. `Coupled` says so; it sees links come
(`Linked`) and go (`Unlinked`), and every call is made of these.
-/

namespace LemonModel

open Text

/-- The transports of a link's end read the network `n`. -/
def PeerLink.ReadsOn (link : PeerLink) (n : Nat) : Prop :=
  ∀ t ∈ link.receiverTransport.toList ++ link.senderTransport.toList, t.receiveNetwork = n

/-- What a link's end sends goes to its network. -/
def PeerLink.Writes (link : PeerLink) : Prop :=
  ∀ t, link.senderTransport = some t → t.network = link.network

namespace Mesh

variable {m m' : Mesh}

def listeners (m : Mesh) (n : Nat) : List Reader := (m.networks n).messageListeners

/-- `l` and `e` are the ends of a link of the client `p` to the server `s`. -/
structure Paired (m : Mesh) (p s : Nat) (c : JSString) (l e : PeerLink) : Prop where
  server : l.peer = s
  clientId : l.clientId = some c
  client : e.peer = p
  uplink : m.listeners l.network = [⟨s, p, some c⟩]
  downlink : m.listeners e.network = [⟨p, s, none⟩]
  reads : l.ReadsOn e.network
  serves : e.ReadsOn l.network
  writes : l.Writes
  answers : e.Writes

/-- Every end of a link has its other end, nobody reads a network that is not
one of a link's, and networks that are not made have no listeners. -/
structure Coupled (m : Mesh) : Prop where
  server : ∀ p l, (m.peers p).server = some l →
    ∃ c e, (m.peers l.peer).clients.get? c = some e ∧ m.Paired p l.peer c l e
  client : ∀ s c e, (m.peers s).clients.get? c = some e →
    ∃ l, (m.peers e.peer).server = some l ∧ l.peer = s ∧ l.clientId = some c
  uplink : ∀ n s p c, ⟨s, p, some c⟩ ∈ m.listeners n →
    ∃ l, (m.peers p).server = some l ∧ l.peer = s ∧ l.clientId = some c ∧ l.network = n
  downlink : ∀ n p s, ⟨p, s, none⟩ ∈ m.listeners n →
    ∃ c e, (m.peers s).clients.get? c = some e ∧ e.peer = p ∧ e.network = n
  unmade : ∀ n, m.created ≤ n → m.listeners n = []

/-- The ends of a link as the client finds them. -/
theorem Coupled.ends (h : m.Coupled) {s p : Nat} {c : JSString} {e : PeerLink}
    (entry : (m.peers s).clients.get? c = some e) (client : e.peer = p) :
    ∃ l, (m.peers p).server = some l ∧ m.Paired p s c l e := by
  subst client
  obtain ⟨l, own, rfl, id⟩ := h.client s c e entry
  obtain ⟨c', e', entry', paired⟩ := h.server _ l own
  rw [paired.clientId] at id
  cases id
  rw [entry] at entry'
  cases entry'
  exact ⟨l, own, paired⟩

/-- Nothing a link depends on has changed. -/
theorem Coupled.congr (h : m.Coupled) (server : ∀ q, (m'.peers q).server = (m.peers q).server)
    (clients : ∀ q, (m'.peers q).clients = (m.peers q).clients)
    (same : ∀ n, m'.listeners n = m.listeners n) (created : m.created ≤ m'.created) :
    m'.Coupled := by
  constructor
  · intro p l own
    rw [server] at own
    obtain ⟨c, e, entry, paired⟩ := h.server p l own
    refine ⟨c, e, by rw [clients]; exact entry, ?_⟩
    exact { paired with
      uplink := by rw [same]; exact paired.uplink
      downlink := by rw [same]; exact paired.downlink }
  · intro s c e entry
    rw [clients] at entry
    rw [server]
    exact h.client s c e entry
  · intro n s p c heard
    rw [same] at heard
    rw [server]
    exact h.uplink n s p c heard
  · intro n p s heard
    rw [same] at heard
    rw [clients]
    exact h.downlink n p s heard
  · intro n unmade
    rw [same]
    exact h.unmade n (by omega)

/-! ## A link goes -/

/-- The link of `p` to `s` is gone, and its networks are no longer read. -/
structure Unlinked (m m' : Mesh) (p s : Nat) (c : JSString) (l e : PeerLink) : Prop where
  server : ∀ q, (m'.peers q).server = if q = p then none else (m.peers q).server
  clients : ∀ q k, (m'.peers q).clients.get? k =
    if q = s ∧ k = c then none else (m.peers q).clients.get? k
  listeners : ∀ n, m'.listeners n =
    if n = l.network ∨ n = e.network then [] else m.listeners n
  created : m'.created = m.created

theorem Unlinked.old {p s : Nat} {c : JSString} {l e : PeerLink} (gone : m.Unlinked m' p s c l e)
    {q : Nat} (free : (m.peers q).server = none) : (m'.peers q).server = none := by
  rw [gone.server]
  split
  · rfl
  · exact free

theorem Unlinked.few {p s : Nat} {c : JSString} {l e : PeerLink} (gone : m.Unlinked m' p s c l e)
    {q : Nat} {k : JSString} (unused : (m.peers q).clients.get? k = none) :
    (m'.peers q).clients.get? k = none := by
  rw [gone.clients]
  split
  · rfl
  · exact unused

/-- Links of different clients are over different networks. -/
theorem Paired.networks_ne {p p' s s' : Nat} {c c' : JSString} {l e l' e' : PeerLink}
    (h : m.Paired p s c l e) (h' : m.Paired p' s' c' l' e') (other : p' ≠ p) :
    (l'.network ≠ l.network ∧ l'.network ≠ e.network) ∧
      e'.network ≠ l.network ∧ e'.network ≠ e.network := by
  refine ⟨⟨fun same => ?_, fun same => ?_⟩, fun same => ?_, fun same => ?_⟩
  · have := h'.uplink
    rw [same, h.uplink] at this
    injection this with this
    injection this with _ this
    exact other this.symm
  · have := h'.uplink
    rw [same, h.downlink] at this
    simp at this
  · have := h'.downlink
    rw [same, h.uplink] at this
    simp at this
  · have := h'.downlink
    rw [same, h.downlink] at this
    injection this with this
    injection this with this
    exact other this.symm

theorem Coupled.unlink (h : m.Coupled) {client server : Nat} {clientId : JSString} {l e : PeerLink}
    (own : (m.peers client).server = some l)
    (entry : (m.peers server).clients.get? clientId = some e)
    (paired : m.Paired client server clientId l e)
    (gone : m.Unlinked m' client server clientId l e) : m'.Coupled := by
  constructor
  · intro p l' own'
    rw [gone.server] at own'
    split at own'
    · cases own'
    · rename_i other
      obtain ⟨c', e', entry', paired'⟩ := h.server p l' own'
      have far := paired.networks_ne paired' other
      refine ⟨c', e', ?_, ?_⟩
      · rw [gone.clients, if_neg]
        · exact entry'
        · rintro ⟨rfl, rfl⟩
          rw [entry] at entry'
          cases entry'
          exact other (paired'.client.symm.trans paired.client)
      · exact { paired' with
          uplink := by
            rw [gone.listeners, if_neg (by simp [far])]
            exact paired'.uplink
          downlink := by
            rw [gone.listeners, if_neg (by simp [far])]
            exact paired'.downlink }
  · intro s c' e' entry'
    rw [gone.clients] at entry'
    split at entry'
    · cases entry'
    · rename_i other
      obtain ⟨l', own', rfl, id⟩ := h.client s c' e' entry'
      refine ⟨l', ?_, rfl, id⟩
      rw [gone.server, if_neg]
      · exact own'
      · intro same
        rw [same, own] at own'
        cases own'
        rw [paired.clientId] at id
        cases id
        exact other ⟨paired.server, rfl⟩
  · intro n s p c' heard
    rw [gone.listeners] at heard
    split at heard
    · cases heard
    · rename_i other
      obtain ⟨l', own', rfl, id, rfl⟩ := h.uplink n s p c' heard
      refine ⟨l', ?_, rfl, id, rfl⟩
      rw [gone.server, if_neg]
      · exact own'
      · intro same
        rw [same, own] at own'
        cases own'
        exact other (.inl rfl)
  · intro n p s heard
    rw [gone.listeners] at heard
    split at heard
    · cases heard
    · rename_i other
      obtain ⟨c', e', entry', rfl, rfl⟩ := h.downlink n p s heard
      refine ⟨c', e', ?_, rfl, rfl⟩
      rw [gone.clients, if_neg]
      · exact entry'
      · rintro ⟨rfl, rfl⟩
        rw [entry] at entry'
        cases entry'
        exact other (.inr rfl)
  · intro n unmade
    rw [gone.created] at unmade
    rw [gone.listeners]
    split
    · rfl
    · exact h.unmade n unmade

/-! ## A link comes -/

/-- There is a new link of `p` to `s`. -/
structure Linked (m m' : Mesh) (p s : Nat) (c : JSString) (l e : PeerLink) : Prop where
  server : ∀ q, (m'.peers q).server = if q = p then some l else (m.peers q).server
  clients : ∀ q k, (m'.peers q).clients.get? k =
    if q = s ∧ k = c then some e else (m.peers q).clients.get? k
  listeners : ∀ n, m'.listeners n =
    if n = l.network then [⟨s, p, some c⟩]
    else if n = e.network then [⟨p, s, none⟩]
    else m.listeners n
  created : m'.created = m.created

/-- The ends of a new link fit, and its networks are new. -/
structure Fits (m : Mesh) (p s : Nat) (c : JSString) (l e : PeerLink) : Prop where
  server : l.peer = s
  clientId : l.clientId = some c
  client : e.peer = p
  reads : l.ReadsOn e.network
  serves : e.ReadsOn l.network
  writes : l.Writes
  answers : e.Writes
  different : l.network ≠ e.network
  up : m.listeners l.network = []
  down : m.listeners e.network = []
  made : l.network < m.created ∧ e.network < m.created

theorem Coupled.link (h : m.Coupled) {client server : Nat} {clientId : JSString} {l e : PeerLink}
    (free : (m.peers client).server = none)
    (unused : (m.peers server).clients.get? clientId = none)
    (fits : m.Fits client server clientId l e)
    (come : m.Linked m' client server clientId l e) : m'.Coupled := by
  -- a network that is read is none of the new ones
  have old : ∀ {n : Nat} {r : Reader}, m.listeners n = [r] → n ≠ l.network ∧ n ≠ e.network := by
    intro n r heard
    constructor
    · rintro rfl
      cases fits.up.symm.trans heard
    · rintro rfl
      cases fits.down.symm.trans heard
  have kept : ∀ {n : Nat} {r : Reader}, m.listeners n = [r] → m'.listeners n = [r] := by
    intro n r heard
    rw [come.listeners, if_neg (old heard).1, if_neg (old heard).2]
    exact heard
  constructor
  · intro p l' own
    rw [come.server] at own
    split at own
    · rename_i eq
      subst eq
      cases own
      refine ⟨clientId, e, ?_, ?_⟩
      · rw [come.clients, if_pos ⟨fits.server, rfl⟩]
      · constructor
        · rfl
        · exact fits.clientId
        · exact fits.client
        · rw [come.listeners, if_pos rfl, fits.server]
        · rw [come.listeners, if_neg (Ne.symm fits.different), if_pos rfl, fits.server]
        · exact fits.reads
        · exact fits.serves
        · exact fits.writes
        · exact fits.answers
    · obtain ⟨c', e', entry, paired⟩ := h.server p l' own
      refine ⟨c', e', ?_, ?_⟩
      · rw [come.clients, if_neg]
        · exact entry
        · rintro ⟨eq, rfl⟩
          rw [eq, unused] at entry
          cases entry
      · exact { paired with uplink := kept paired.uplink, downlink := kept paired.downlink }
  · intro s c' e' entry
    rw [come.clients] at entry
    split at entry
    · rename_i eq
      obtain ⟨rfl, rfl⟩ := eq
      cases entry
      exact ⟨l, by rw [come.server, if_pos fits.client], fits.server, fits.clientId⟩
    · obtain ⟨l', own, fit⟩ := h.client s c' e' entry
      refine ⟨l', ?_, fit⟩
      rw [come.server, if_neg]
      · exact own
      · intro same
        rw [same, free] at own
        cases own
  · intro n s p c' heard
    rw [come.listeners] at heard
    split at heard
    · rename_i eq
      cases List.mem_singleton.mp heard
      exact ⟨l, by rw [come.server, if_pos rfl], fits.server, fits.clientId, eq.symm⟩
    · split at heard
      · cases List.mem_singleton.mp heard
      · obtain ⟨l', own, fit⟩ := h.uplink n s p c' heard
        refine ⟨l', ?_, fit⟩
        rw [come.server, if_neg]
        · exact own
        · intro same
          rw [same, free] at own
          cases own
  · intro n p s heard
    rw [come.listeners] at heard
    split at heard
    · cases List.mem_singleton.mp heard
    · split at heard
      · rename_i eq
        cases List.mem_singleton.mp heard
        exact ⟨clientId, e, by rw [come.clients, if_pos ⟨rfl, rfl⟩], fits.client, eq.symm⟩
      · obtain ⟨c', e', entry, fit⟩ := h.downlink n p s heard
        refine ⟨c', e', ?_, fit⟩
        rw [come.clients, if_neg]
        · exact entry
        · rintro ⟨rfl, rfl⟩
          rw [unused] at entry
          cases entry
  · intro n unmade
    rw [come.created] at unmade
    rw [come.listeners, if_neg (by have := fits.made.1; omega), if_neg (by have := fits.made.2; omega)]
    exact h.unmade n unmade

/-! ## The calls -/

theorem detachAll_listeners {k n : Nat} (other : n ≠ k) {transports : List LinkTransport}
    (reads : ∀ t ∈ transports, t.receiveNetwork = k) :
    (m.detachAll transports).listeners n = m.listeners n := by
  induction transports generalizing m with
  | nil => rfl
  | cons t transports ih =>
    have first : (m.detach t).listeners n = m.listeners n := by
      have : n ≠ t.receiveNetwork := by
        rw [reads t (by simp)]
        exact other
      simp only [listeners, detach, setNetwork_networks, if_neg this]
    exact (ih fun u hu => reads u (List.mem_cons_of_mem _ hu)).trans first

theorem detachAll_silent {n : Nat} (silent : m.listeners n = []) (transports : List LinkTransport) :
    (m.detachAll transports).listeners n = [] := by
  induction transports generalizing m with
  | nil => exact silent
  | cons t transports ih =>
    apply ih
    simp only [listeners, detach, setNetwork_networks]
    split
    · rename_i eq
      subst eq
      simp only [LinkNetwork.unsubscribe]
      rw [show (m.networks t.receiveNetwork).messageListeners = [] from silent]
      rfl
    · exact silent

theorem closeLink_listeners {link : PeerLink} {k n : Nat} (reads : link.ReadsOn k)
    (own : n ≠ link.network) (other : n ≠ k) : (m.closeLink link).listeners n = m.listeners n := by
  simp only [closeLink, listeners, setNetwork_networks, if_neg own]
  exact detachAll_listeners other reads

theorem closeLink_silent {link : PeerLink} {n : Nat}
    (silent : n = link.network ∨ m.listeners n = []) : (m.closeLink link).listeners n = [] := by
  simp only [closeLink, listeners, setNetwork_networks]
  split
  · rfl
  · rename_i own
    exact detachAll_silent (silent.resolve_left own) _

/-- Both ends of a link are closed. -/
theorem closeLinks_listeners {a b : PeerLink} (ha : a.ReadsOn b.network) (hb : b.ReadsOn a.network)
    (n : Nat) :
    ((m.closeLink a).closeLink b).listeners n =
      if n = a.network ∨ n = b.network then [] else m.listeners n := by
  split
  · rename_i eq
    rcases eq with rfl | rfl
    · exact closeLink_silent (.inr (closeLink_silent (.inl rfl)))
    · exact closeLink_silent (.inl rfl)
  · rename_i other
    rw [not_or] at other
    rw [closeLink_listeners hb other.2 other.1, closeLink_listeners ha other.1 other.2]

theorem deleteClient_peers (s : Nat) (c : JSString) (q : Nat) :
    (m.deleteClient s c).peers q =
      if q = s then { m.peers s with clients := (m.peers s).clients.delete c } else m.peers q :=
  setPeer_peers ..

/-- Only the clients of `s` change. -/
theorem deleteClient_frame (s : Nat) (c : JSString) (q : Nat) :
    ((m.deleteClient s c).peers q).server = (m.peers q).server ∧
      ((m.deleteClient s c).peers q).state = (m.peers q).state ∧
      ((m.deleteClient s c).peers q).assignedClientId = (m.peers q).assignedClientId := by
  rw [deleteClient_peers]
  split
  · rename_i eq
    rw [eq]
    exact ⟨rfl, rfl, rfl⟩
  · exact ⟨rfl, rfl, rfl⟩

theorem deleteClient_clients (s : Nat) (c : JSString) (q : Nat) (k : JSString) :
    ((m.deleteClient s c).peers q).clients.get? k =
      if q = s ∧ k = c then none else (m.peers q).clients.get? k := by
  rw [deleteClient_peers]
  by_cases eq : q = s
  · subst eq
    rw [if_pos rfl, Dict.get?_delete]
    simp
  · rw [if_neg eq, if_neg (by simp [eq])]

/-- The id of a client is that of its link. -/
def Named (m : Mesh) (q : Nat) : Prop :=
  (m.peers q).assignedClientId = (m.peers q).server.bind (·.clientId)

/-- How far a peer has closed. -/
structure Closing (m : Mesh) (this : Nat) (m' : Mesh) : Prop where
  coupled : m'.Coupled
  state : ∀ q, (m'.peers q).state = if q = this then .closed else (m.peers q).state
  server : (m'.peers this).server = none
  named : ∀ q, q ≠ this → m.Named q → m'.Named q
  old : ∀ q, (m.peers q).server = none → (m'.peers q).server = none
  few : ∀ q c, (m.peers q).clients.get? c = none → (m'.peers q).clients.get? c = none

/-- A closing peer has let go of its own link. -/
theorem closing_own (h : m.Coupled) {this : Nat} {l : PeerLink}
    (own : (m.peers this).server = some l) (named : l.clientId ≠ some []) :
    m.Closing this
      (((m.setPeer this { m.peers this with state := .closed, server := none }).closeLink
        l).detachClient l.peer l.clientId) := by
  obtain ⟨c, e, entry, paired⟩ := h.server this l own
  have id : c ≠ [] := by
    intro eq
    rw [paired.clientId, eq] at named
    exact named rfl
  have clients : ∀ q, ((m.setPeer this
      { m.peers this with state := .closed, server := none }).peers q).clients =
      (m.peers q).clients := by
    intro q
    rw [setPeer_peers]
    split
    · rename_i eq
      rw [eq]
    · rfl
  have eq : ((m.setPeer this { m.peers this with state := .closed, server := none }).closeLink
      l).detachClient l.peer l.clientId =
      (((m.setPeer this { m.peers this with state := .closed, server := none }).closeLink
        l).closeLink e).deleteClient l.peer c := by
    simp only [detachClient, paired.clientId, if_neg id, closeLink_peers, clients, entry]
  have gone : m.Unlinked ((((m.setPeer this
      { m.peers this with state := .closed, server := none }).closeLink l).closeLink
        e).deleteClient l.peer c) this l.peer c l e := by
    constructor
    · intro q
      rw [(deleteClient_frame _ _ q).1, closeLink_peers, closeLink_peers, setPeer_peers]
      split <;> rfl
    · intro q k
      rw [deleteClient_clients, closeLink_peers, closeLink_peers, clients]
    · exact closeLinks_listeners paired.reads paired.serves
    · exact (closeLink_created e).trans (closeLink_created l)
  rw [eq]
  constructor
  · exact h.unlink own entry paired gone
  · intro q
    rw [(deleteClient_frame _ _ q).2.1, closeLink_peers, closeLink_peers, setPeer_peers]
    split <;> rfl
  · rw [(deleteClient_frame _ _ this).1, closeLink_peers, closeLink_peers, setPeer_self]
  · intro q other named
    unfold Named
    rw [(deleteClient_frame _ _ q).1, (deleteClient_frame _ _ q).2.2, closeLink_peers,
      closeLink_peers, setPeer_peers, if_neg other]
    exact named
  · exact fun _ => gone.old
  · exact fun _ _ => gone.few

/-- A closing peer lets go of its first client. -/
theorem Closing.dropClient {m₀ : Mesh} {this : Nat} (h : m₀.Closing this m) {c : JSString}
    {e : PeerLink} {rest : List (JSString × PeerLink)}
    (entries : (m.peers this).clients.entries = (c, e) :: rest) :
    m₀.Closing this (Mesh.dropClient this m (c, e)) ∧
      ((Mesh.dropClient this m (c, e)).peers this).clients.entries = rest := by
  have entry : (m.peers this).clients.get? c = some e := by
    rw [Dict.get?_eq_some, entries]
    exact List.mem_cons_self
  obtain ⟨l, own, paired⟩ := h.coupled.ends entry rfl
  have other : this ≠ e.peer := by
    intro same
    rw [← same, h.server] at own
    cases own
  have eq : Mesh.dropClient this m (c, e) =
      (((m.closeLink e).closeLink l).setPeer e.peer
        { m.peers e.peer with server := none, assignedClientId := none }).deleteClient this c := by
    simp only [Mesh.dropClient, closeLink_peers, own, paired.server, if_true]
  have gone : m.Unlinked ((((m.closeLink e).closeLink l).setPeer e.peer
      { m.peers e.peer with server := none, assignedClientId := none }).deleteClient this c)
      e.peer this c l e := by
    constructor
    · intro q
      rw [(deleteClient_frame _ _ q).1, setPeer_peers]
      split
      · rfl
      · rw [closeLink_peers, closeLink_peers]
    · intro q k
      rw [deleteClient_clients, setPeer_peers]
      split
      · rfl
      · split
        · rename_i eq
          rw [eq]
        · rw [closeLink_peers, closeLink_peers]
    · intro n
      refine (closeLinks_listeners paired.serves paired.reads n).trans ?_
      simp only [or_comm]
    · exact (closeLink_created l).trans (closeLink_created e)
  rw [eq]
  constructor
  · constructor
    · exact h.coupled.unlink own entry paired gone
    · intro q
      rw [(deleteClient_frame _ _ q).2.1, setPeer_peers]
      split
      · rename_i eq
        rw [eq]
        exact h.state _
      · rw [closeLink_peers, closeLink_peers]
        exact h.state q
    · rw [(deleteClient_frame _ _ this).1, setPeer_peers, if_neg other, closeLink_peers,
        closeLink_peers]
      exact h.server
    · intro q hq named
      unfold Named
      rw [(deleteClient_frame _ _ q).1, (deleteClient_frame _ _ q).2.2, setPeer_peers]
      split
      · rfl
      · rw [closeLink_peers, closeLink_peers]
        exact h.named q hq named
    · exact fun q free => gone.old (h.old q free)
    · exact fun q k unused => gone.few (h.few q k unused)
  · rw [deleteClient_peers, if_pos rfl, setPeer_peers, if_neg other, closeLink_peers,
      closeLink_peers]
    exact Dict.entries_delete_first entries

theorem Closing.dropClients {m₀ : Mesh} {this : Nat} (h : m₀.Closing this m) :
    m₀.Closing this ((m.peers this).clients.entries.foldl (Mesh.dropClient this) m) ∧
      (((m.peers this).clients.entries.foldl (Mesh.dropClient this) m).peers
        this).clients.entries = [] := by
  generalize entries : (m.peers this).clients.entries = list
  induction list generalizing m with
  | nil => exact ⟨h, entries⟩
  | cons client rest ih =>
    obtain ⟨dropped, entries⟩ := h.dropClient entries
    exact ih dropped entries

/-- A peer without a link of its own starts to close. -/
theorem closing_free (h : m.Coupled) {this : Nat} (free : (m.peers this).server = none) :
    m.Closing this (m.setPeer this { m.peers this with state := .closed, server := none }) := by
  constructor
  · apply h.congr
    · intro q
      rw [setPeer_peers]
      split
      · rename_i eq
        rw [eq, free]
      · rfl
    · intro q
      rw [setPeer_peers]
      split
      · rename_i eq
        rw [eq]
      · rfl
    · exact fun _ => rfl
    · exact le_rfl
  · intro q
    rw [setPeer_peers]
    split <;> rfl
  · rw [setPeer_self]
  · intro q other named
    unfold Named
    rw [setPeer_peers, if_neg other]
    exact named
  · intro q none
    rw [setPeer_peers]
    split
    · rfl
    · exact none
  · intro q c unused
    rw [setPeer_peers]
    split
    · rename_i eq
      rw [← eq]
      exact unused
    · exact unused

/-- A peer that has let go of all its clients has closed. -/
theorem Closing.done {m₀ : Mesh} {this : Nat} (h : m₀.Closing this m)
    (none : (m.peers this).clients.entries = []) :
    m₀.Closing this (m.setPeer this { m.peers this with clients := .empty }) := by
  have same : m.setPeer this { m.peers this with clients := .empty } = m := by
    have empty : (m.peers this).clients = .empty := Dict.entries_inj.mp none
    rw [← empty]
    simp [setPeer]
  rw [same]
  exact h

/-- What a `close` comes to. -/
theorem closing (h : m.Coupled) {this : Nat} (opened : (m.peers this).state ≠ .closed)
    (named : ∀ l, (m.peers this).server = some l → l.clientId ≠ some []) :
    m.Closing this (m.close this) ∧ ((m.close this).peers this).clients = .empty := by
  unfold close
  rw [if_neg opened]
  dsimp only
  cases own : (m.peers this).server with
  | none =>
    obtain ⟨dropped, none⟩ := (closing_free h own).dropClients
    exact ⟨dropped.done none, by rw [setPeer_self]⟩
  | some l =>
    obtain ⟨dropped, none⟩ := (closing_own h own (named l own)).dropClients
    exact ⟨dropped.done none, by rw [setPeer_self]⟩

/-! ## Runs -/

/-- A peer connects only while it has no server and under an unused client id,
the networks of a link take both subscriptions, and a peer that closes was not
given the empty client id. -/
def Orderly (m : Mesh) : MeshEvent → Prop
  | .connect this peer uplink downlink clientId =>
    m.Open this peer → ∀ up ∈ uplink.network?, ∀ down ∈ downlink.network?,
      m.Accepts this peer up down ∧ (m.peers this).server = none ∧
        (m.peers peer).clients.get? clientId = none
  | .reconnect this option uplink downlink =>
    ∀ client server clientId clientLink serverLink,
      m.Replaces this option client server clientId clientLink serverLink →
        ∀ up ∈ uplink.network?, ∀ down ∈ downlink.network?, m.Accepts client server up down
  | .close this => ∀ l, (m.peers this).server = some l → l.clientId ≠ some []

/-- Links are coupled, a peer that is not open has none, and the ids of clients
are right. -/
structure Symmetric (m : Mesh) : Prop where
  coupled : m.Coupled
  closed : ∀ q, (m.peers q).state ≠ .opened →
    (m.peers q).server = none ∧ ∀ c, (m.peers q).clients.get? c = none
  named : ∀ q, (m.peers q).state = .opened → m.Named q

theorem Symmetric.congr (h : m.Symmetric) (peers : m'.peers = m.peers)
    (same : ∀ n, m'.listeners n = m.listeners n) (created : m.created ≤ m'.created) :
    m'.Symmetric := by
  constructor
  · apply h.coupled.congr _ _ same created
    · exact fun q => by rw [peers]
    · exact fun q => by rw [peers]
  · rw [peers]
    exact h.closed
  · intro q
    unfold Named
    rw [peers]
    exact h.named q

/-- A network that was just made has no listeners. -/
theorem Symmetric.extend (h : m.Symmetric) {network : LinkNetwork}
    (silent : network.messageListeners = []) : (m.extend network).Symmetric := by
  refine Symmetric.congr (h) (rfl : (m.extend network).peers = m.peers) ?_ ?_
  · intro n
    simp only [listeners, extend_networks]
    split
    · rename_i eq
      rw [silent, eq]
      exact (h.coupled.unmade _ le_rfl).symm
    · rfl
  · simp

theorem Symmetric.createNetworkPair (h : m.Symmetric) (uplink downlink : Reply) :
    (m.createNetworkPair uplink downlink).1.Symmetric := by
  obtain ⟨_, up, down, hu, hd, rfl, eq⟩ | ⟨-, m', e, eq, unmade⟩ :=
    createNetworkPair_cases (m := m) uplink downlink
  · rw [eq]
    exact (h.extend (network_silent hu)).extend (network_silent hd)
  · rw [eq]
    obtain rfl | ⟨up, rfl⟩ := unmade
    · exact h
    · exact h.extend rfl

theorem Symmetric.close (h : m.Symmetric) {this : Nat}
    (named : ∀ l, (m.peers this).server = some l → l.clientId ≠ some []) :
    (m.close this).Symmetric := by
  by_cases state : (m.peers this).state = .closed
  · rw [Mesh.close, if_pos state]
    exact h
  · obtain ⟨closing, none⟩ := closing h.coupled state named
    constructor
    · exact closing.coupled
    · intro q unopened
      rw [closing.state] at unopened
      by_cases same : q = this
      · subst same
        refine ⟨closing.server, fun c => ?_⟩
        rw [none]
        rfl
      · rw [if_neg same] at unopened
        obtain ⟨free, unused⟩ := h.closed q unopened
        exact ⟨closing.old q free, fun c => closing.few q c (unused c)⟩
    · intro q opened
      rw [closing.state] at opened
      split at opened
      · cases opened
      · rename_i other
        exact closing.named q other (h.named q opened)

/-! ### New links -/

theorem setServer_peer (p : Nat) (l : PeerLink) (q : Nat) :
    (m.setServer p l).peers q = if q = p then { m.peers p with server := some l } else m.peers q :=
  setPeer_peers ..

theorem setClient_peer (s : Nat) (c : JSString) (e : PeerLink) (q : Nat) :
    (m.setClient s c e).peers q =
      if q = s then { m.peers s with clients := (m.peers s).clients.set c e } else m.peers q :=
  setPeer_peers ..

theorem assign_peer (p : Nat) (c : JSString) (q : Nat) :
    (m.assign p c).peers q =
      if q = p then { m.peers p with assignedClientId := some c } else m.peers q :=
  setPeer_peers ..

theorem subscribe_listeners (n : Nat) (r : Reader) (k : Nat) :
    (m.setNetwork n ((m.networks n).subscribe r)).listeners k =
      if k = n then m.listeners n ++ [r] else m.listeners k := by
  simp only [listeners, setNetwork_networks]
  split <;> rfl

theorem subscribed_listeners {p s up down : Nat} {c : JSString} (different : up ≠ down)
    (su : m.listeners up = []) (sd : m.listeners down = []) (n : Nat) :
    (m.subscribed p s up down c).listeners n =
      if n = up then [⟨s, p, some c⟩] else if n = down then [⟨p, s, none⟩] else m.listeners n := by
  unfold subscribed
  dsimp only
  rw [subscribe_listeners, subscribe_listeners, subscribe_listeners, if_neg different.symm, su, sd]
  by_cases first : n = up
  · subst first
    rw [if_neg different, if_pos rfl, if_pos rfl]
    rfl
  · rw [if_neg first, if_neg first]
    rfl

theorem attached_network {read write : Nat} {reader : Reader}
    {localOptions remoteOptions : Option JSONTransportOptions} {t : LinkTransport}
    (h : LinkTransport.attached read write reader localOptions remoteOptions = some t) :
    t.receiveNetwork = read ∧ (reliable localOptions = true → t.network = write) := by
  unfold LinkTransport.attached at h
  split at h
  · cases h
    exact ⟨rfl, fun _ => rfl⟩
  · split at h
    · cases h
      exact ⟨rfl, fun on => absurd on ‹_›⟩
    · cases h

/-- The end of a link made of what `attachTransport` returned. -/
theorem attached_end {l : PeerLink} {read write : Nat} {reader : Reader}
    {localOptions remoteOptions : Option JSONTransportOptions}
    (receiver : l.receiverTransport =
      LinkTransport.attached read write reader localOptions remoteOptions)
    (sender : l.senderTransport =
      if reliable localOptions then l.receiverTransport else none)
    (network : l.network = write) : l.ReadsOn read ∧ l.Writes := by
  constructor
  · intro t ht
    rw [List.mem_append, Option.mem_toList, Option.mem_toList] at ht
    have ht : l.receiverTransport = some t := by
      rcases ht with ht | ht
      · exact ht
      · rw [sender] at ht
        split at ht
        · exact ht
        · cases ht
    rw [receiver] at ht
    exact (attached_network ht).1
  · intro t ht
    rw [sender] at ht
    split at ht
    · rename_i on
      rw [receiver] at ht
      rw [network]
      exact (attached_network ht).2 on
    · cases ht

/-- The peers of `m'` are those of `m`, but for a link of `p` to `s`. -/
structure Placed (m m' : Mesh) (p s : Nat) (c : JSString) (l e : PeerLink) : Prop where
  server : ∀ q, (m'.peers q).server = if q = p then some l else (m.peers q).server
  clients : ∀ q k, (m'.peers q).clients.get? k =
    if q = s ∧ k = c then some e else (m.peers q).clients.get? k
  state : ∀ q, (m'.peers q).state = (m.peers q).state
  assigned : ∀ q, (m'.peers q).assignedClientId =
    if q = p then some c else (m.peers q).assignedClientId

theorem placed_link {m₀ : Mesh} (same : m.peers = m₀.peers) (p s : Nat) (c : JSString)
    (l e : PeerLink) : m₀.Placed (((m.setClient s c e).setServer p l).assign p c) p s c l e := by
  have peers : ∀ q, (((m.setClient s c e).setServer p l).assign p c).peers q =
      { m₀.peers q with
        server := if q = p then some l else (m₀.peers q).server
        clients := if q = s then (m₀.peers q).clients.set c e else (m₀.peers q).clients
        assignedClientId := if q = p then some c else (m₀.peers q).assignedClientId } := by
    intro q
    simp only [assign_peer, setServer_peer, setClient_peer, same]
    by_cases hp : q = p
    · subst hp
      by_cases hs : q = s
      · subst hs
        simp
      · simp [hs]
    · by_cases hs : q = s
      · subst hs
        simp [hp]
      · simp [hp, hs]
  constructor
  · intro q
    rw [peers]
  · intro q k
    rw [peers]
    by_cases hs : q = s
    · simp [hs, Dict.get?_set]
    · simp [hs]
  · intro q
    rw [peers]
  · intro q
    rw [peers]

theorem Symmetric.placed (h : m.Symmetric) {p s : Nat} {c : JSString} {l e : PeerLink}
    (both : m.Open p s) (id : l.clientId = some c) (placed : m.Placed m' p s c l e)
    (coupled : m'.Coupled) : m'.Symmetric := by
  constructor
  · exact coupled
  · intro q unopened
    rw [placed.state] at unopened
    obtain ⟨none, few⟩ := h.closed q unopened
    constructor
    · rw [placed.server, if_neg]
      · exact none
      · rintro rfl
        exact unopened both.1
    · intro k
      rw [placed.clients, if_neg]
      · exact few k
      · rintro ⟨rfl, -⟩
        exact unopened both.2
  · intro q opened
    rw [placed.state] at opened
    unfold Named
    rw [placed.assigned, placed.server]
    split
    · exact id.symm
    · exact h.named q opened

theorem fits_ends {p s up down : Nat} {c : JSString} (different : up ≠ down)
    (made : up < m.created ∧ down < m.created) (su : m.listeners up = [])
    (sd : m.listeners down = []) :
    m.Fits p s c (m.clientEnd p s up down c) (m.serverEnd p s up down c) := by
  obtain ⟨reads, writes⟩ := attached_end (l := m.clientEnd p s up down c) rfl rfl rfl
  obtain ⟨serves, answers⟩ := attached_end (l := m.serverEnd p s up down c) rfl rfl rfl
  exact ⟨rfl, rfl, rfl, reads, serves, writes, answers, different, su, sd, made⟩

theorem Symmetric.linked (h : m.Symmetric) {p s up down : Nat} {c : JSString} (both : m.Open p s)
    (free : (m.peers p).server = none) (unused : (m.peers s).clients.get? c = none)
    (different : up ≠ down) (made : up < m.created ∧ down < m.created)
    (su : m.listeners up = []) (sd : m.listeners down = []) : (m.linked p s up down c).Symmetric := by
  have placed : m.Placed (m.linked p s up down c) p s c (m.clientEnd p s up down c)
      (m.serverEnd p s up down c) := by
    apply placed_link
    rfl
  apply h.placed both rfl placed
  apply h.coupled.link free unused (fits_ends different made su sd)
  exact ⟨placed.server, placed.clients, subscribed_listeners different su sd, rfl⟩

theorem Symmetric.relinked (h : m.Symmetric) {p s up down : Nat} {c : JSString} {l e : PeerLink}
    (both : m.Open p s) (ends : m.linkPair p s c = some (l, e)) (different : up ≠ down)
    (made : up < m.created ∧ down < m.created) (su : m.listeners up = [])
    (sd : m.listeners down = []) : (m.relinked p s c l e up down).Symmetric := by
  obtain ⟨own, entry, -, client⟩ := linkPair_eq.mp ends
  obtain ⟨l', own', paired⟩ := h.coupled.ends entry client
  cases own.symm.trans own'
  -- the old link goes first
  have gone : m.Unlinked ((((m.closeLink l).closeLink e).setPeer p
      { m.peers p with server := none }).deleteClient s c) p s c l e := by
    constructor
    · intro q
      rw [(deleteClient_frame _ _ q).1, setPeer_peers]
      split
      · rfl
      · rw [closeLink_peers, closeLink_peers]
    · intro q k
      rw [deleteClient_clients, setPeer_peers]
      split
      · rfl
      · split
        · rename_i eq
          rw [eq]
        · rw [closeLink_peers, closeLink_peers]
    · exact closeLinks_listeners paired.reads paired.serves
    · exact (closeLink_created e).trans (closeLink_created l)
  have placed : m.Placed (m.relinked p s c l e up down) p s c
      { m.clientEnd p s up down c with peer := l.peer, clientId := l.clientId }
      { m.serverEnd p s up down c with peer := e.peer, clientId := e.clientId } := by
    unfold Mesh.relinked
    dsimp only
    rw [setServer_setClient]
    apply placed_link
    simp only [setNetwork_peers, closeLink_peers]
  refine h.placed both ?_ placed ?_
  · exact paired.clientId
  have silent : ∀ {n}, m.listeners n = [] → ((((m.closeLink l).closeLink e).setPeer p
      { m.peers p with server := none }).deleteClient s c).listeners n = [] := by
    intro n hn
    exact closeLink_silent (.inr (closeLink_silent (.inr hn)))
  apply (h.coupled.unlink own entry paired gone).link
    (l := { m.clientEnd p s up down c with peer := l.peer, clientId := l.clientId })
    (e := { m.serverEnd p s up down c with peer := e.peer, clientId := e.clientId })
  · rw [gone.server, if_pos rfl]
  · rw [gone.clients, if_pos ⟨rfl, rfl⟩]
  · obtain ⟨-, -, -, reads, serves, writes, answers, -⟩ :=
      fits_ends (m := m) (p := p) (s := s) (c := c) different made su sd
    exact ⟨paired.server, paired.clientId, paired.client, reads, serves, writes, answers, different,
      silent su, silent sd, by rw [gone.created]; exact made⟩
  · constructor
    · intro q
      rw [placed.server, gone.server]
      split <;> rfl
    · intro q k
      rw [placed.clients, gone.clients]
      split <;> rfl
    · intro n
      have su : ((m.closeLink l).closeLink e).listeners up = [] := silent su
      have sd : ((m.closeLink l).closeLink e).listeners down = [] := silent sd
      refine (subscribe_listeners up ⟨s, p, some c⟩ n).trans ?_
      rw [subscribe_listeners, subscribe_listeners, if_neg different, su, sd]
      rfl
    · exact ((closeLink_created e).trans (closeLink_created l)).trans gone.created.symm

/-! ### Steps and runs -/

theorem Symmetric.connect (h : m.Symmetric) {this peer : Nat} {uplink downlink : Reply}
    {clientId : JSString} (orderly : m.Orderly (.connect this peer uplink downlink clientId)) :
    (m.connect this peer uplink downlink clientId).1.Symmetric := by
  obtain ⟨-, e, eq⟩ | ⟨both, eq⟩ := connect_cases (m := m) this peer uplink downlink clientId
  · rw [eq]
    exact h
  · rw [eq]
    have extended := h.createNetworkPair uplink downlink
    obtain ⟨_, up, down, hu, hd, rfl, eq⟩ | ⟨-, m', e, eq, -⟩ :=
      createNetworkPair_cases (m := m) uplink downlink
    · rw [eq] at extended ⊢
      obtain ⟨accepts, free, unused⟩ := orderly both up hu down hd
      obtain ⟨first, second⟩ := made_networks (m := m) up down
      obtain ⟨refused, -⟩ | ⟨-, eq⟩ := wire_cases (m := (m.extend up).extend down) this peer
        m.created (m.created + 1) clientId
      · rw [first, second] at refused
        exact absurd accepts refused
      · simp only [Call.andThen, eq]
        apply extended.linked both free unused (by omega)
        · simp
        · rw [listeners, first, network_silent hu]
        · rw [listeners, second, network_silent hd]
    · rw [eq] at extended ⊢
      exact extended

theorem Symmetric.reconnect (h : m.Symmetric) {this : Nat} {option : Option JSString}
    {uplink downlink : Reply} (orderly : m.Orderly (.reconnect this option uplink downlink)) :
    (m.reconnect this option uplink downlink).1.Symmetric := by
  obtain ⟨-, e, eq⟩ | ⟨client, server, clientId, clientLink, serverLink, replaces, eq⟩ :=
    reconnect_cases (m := m) this option uplink downlink
  · rw [eq]
    exact h
  · rw [eq]
    have extended := h.createNetworkPair uplink downlink
    obtain ⟨_, up, down, hu, hd, rfl, eq⟩ | ⟨-, m', e, eq, -⟩ :=
      createNetworkPair_cases (m := m) uplink downlink
    · rw [eq] at extended ⊢
      have accepts := orderly _ _ _ _ _ replaces up hu down hd
      obtain ⟨first, second⟩ := made_networks (m := m) up down
      obtain ⟨refused, -⟩ | ⟨-, eq⟩ := replaceNetworks_cases (m := (m.extend up).extend down) client
        server clientId clientLink serverLink m.created (m.created + 1)
      · rw [first, second] at refused
        exact absurd accepts refused
      · simp only [Call.andThen, eq]
        apply extended.relinked replaces.both replaces.ends (by omega)
        · simp
        · rw [listeners, first, network_silent hu]
        · rw [listeners, second, network_silent hd]
    · rw [eq] at extended ⊢
      exact extended

theorem Symmetric.step (h : m.Symmetric) {e : MeshEvent} (orderly : m.Orderly e)
    (step : m.step e = some m') : m'.Symmetric := by
  cases e with
  | connect this peer uplink downlink clientId =>
    cases step
    exact h.connect orderly
  | reconnect this option uplink downlink =>
    cases step
    exact h.reconnect orderly
  | close this =>
    cases step
    exact h.close orderly

theorem symmetric_start (ids : Nat → JSString) (options : Nat → Option JSONTransportOptions) :
    (start ids options).Symmetric := by
  constructor
  · constructor
    · intro p l own
      cases own
    · intro s c e entry
      cases entry
    · intro n s p c heard
      cases heard
    · intro n p s heard
      cases heard
    · exact fun _ _ => rfl
  · exact fun _ _ => ⟨rfl, fun _ => rfl⟩
  · exact fun _ _ => rfl

theorem symmetric_run {ids : Nat → JSString} {options : Nat → Option JSONTransportOptions}
    {es : List MeshEvent} (run : Run step Orderly (start ids options) es m) : m.Symmetric :=
  run.invariant Symmetric (fun _ _ _ h orderly step => h.step orderly step)
    (symmetric_start ids options)

/-- The network `l` writes is the one, and the only one, on which `s` hears from
`p` as `c`, and the network `e` writes is the one on which `p` hears from `s`. -/
structure Wired (m : Mesh) (p s : Nat) (c : JSString) (l e : PeerLink) : Prop where
  uplink : ∀ n, ⟨s, p, some c⟩ ∈ m.listeners n ↔ n = l.network
  downlink : ∀ n, ⟨p, s, none⟩ ∈ m.listeners n ↔ n = e.network
  writes : l.Writes
  answers : e.Writes

/-- **Link symmetry.** In every state of an orderly run the links of open peers
have two ends, wired to each other, and lead to open peers, and an open peer has
the client id of its own link. -/
theorem links_are_symmetric {ids : Nat → JSString} {options : Nat → Option JSONTransportOptions}
    {es : List MeshEvent} (run : Run step Orderly (start ids options) es m) :
    (∀ p s c, m.Open p s →
        ((∃ l, (m.peers p).server = some l ∧ l.peer = s ∧ l.clientId = some c) ↔
          ∃ e, (m.peers s).clients.get? c = some e ∧ e.peer = p)) ∧
      (∀ p s c l e, (m.peers p).server = some l → l.peer = s → l.clientId = some c →
        (m.peers s).clients.get? c = some e → m.Wired p s c l e) ∧
      (∀ p l, (m.peers p).server = some l → (m.peers l.peer).state = .opened) ∧
      (∀ s c e, (m.peers s).clients.get? c = some e → (m.peers e.peer).state = .opened) ∧
      ∀ p c, (m.peers p).state = .opened →
        ((m.peers p).assignedClientId = some c ↔
          ∃ l, (m.peers p).server = some l ∧ l.clientId = some c) := by
  have h := symmetric_run run
  refine ⟨?_, ?_, ?_, ?_, ?_⟩
  · intro p s c both
    constructor
    · rintro ⟨l, own, rfl, id⟩
      obtain ⟨c', e, entry, paired⟩ := h.coupled.server p l own
      cases paired.clientId.symm.trans id
      exact ⟨e, entry, paired.client⟩
    · rintro ⟨e, entry, rfl⟩
      exact h.coupled.client s c e entry
  · rintro p s c l e own rfl id entry
    obtain ⟨c', e', entry', paired⟩ := h.coupled.server p l own
    cases paired.clientId.symm.trans id
    cases entry.symm.trans entry'
    refine ⟨fun n => ⟨fun heard => ?_, ?_⟩, fun n => ⟨fun heard => ?_, ?_⟩, paired.writes,
      paired.answers⟩
    · obtain ⟨l', own', -, -, network⟩ := h.coupled.uplink n _ _ _ heard
      cases own.symm.trans own'
      exact network.symm
    · rintro rfl
      rw [paired.uplink]
      exact List.mem_singleton_self _
    · obtain ⟨c', e', entry', client, network⟩ := h.coupled.downlink n _ _ heard
      obtain ⟨l', own', paired'⟩ := h.coupled.ends entry' client
      cases own.symm.trans own'
      cases paired'.clientId.symm.trans id
      cases entry.symm.trans entry'
      exact network.symm
    · rintro rfl
      rw [paired.downlink]
      exact List.mem_singleton_self _
  · intro p l own
    obtain ⟨c, e, entry, -⟩ := h.coupled.server p l own
    by_contra shut
    rw [(h.closed _ shut).2 c] at entry
    cases entry
  · intro s c e entry
    obtain ⟨l, own, -⟩ := h.coupled.client s c e entry
    by_contra shut
    rw [(h.closed _ shut).1] at own
    cases own
  · intro p c opened
    rw [h.named p opened]
    cases (m.peers p).server with
    | none => simp
    | some l => simp

/-- A peer that connects again leaves its first server with a client that is not
its client any more. -/
theorem connecting_twice_leaves_a_client :
    ∃ m l e, exec step (start (fun _ => lit "peer") fun _ => none)
          [.connect 0 1 defaultPeerNetworkFactory defaultPeerNetworkFactory (lit "client-1"),
            .connect 0 2 defaultPeerNetworkFactory defaultPeerNetworkFactory (lit "client-2")] =
        some m ∧
      m.Open 0 1 ∧ (m.peers 1).clients.get? (lit "client-1") = some e ∧ e.peer = 0 ∧
      (m.peers 0).server = some l ∧ l.peer ≠ 1 :=
  ⟨_, _, _, rfl, ⟨rfl, rfl⟩, rfl, rfl, rfl, by decide⟩

theorem links_are_symmetric_couple :
    (couple.peers 0).assignedClientId = some (lit "client-1") ↔
      ∃ l, (couple.peers 0).server = some l ∧ l.clientId = some (lit "client-1") := by
  have orderly : Orderly (start (fun _ => lit "peer") fun _ => none)
      (.connect 0 1 defaultPeerNetworkFactory defaultPeerNetworkFactory (lit "client-1")) := by
    intro _ up hu down hd
    cases hu
    cases hd
    exact ⟨⟨rfl, rfl⟩, rfl, rfl⟩
  have run : Run step Orderly (start (fun _ => lit "peer") fun _ => none)
      [.connect 0 1 defaultPeerNetworkFactory defaultPeerNetworkFactory (lit "client-1")] couple :=
    .cons orderly rfl (.nil _)
  exact (links_are_symmetric run).2.2.2.2 0 (lit "client-1") rfl

end Mesh

end LemonModel
