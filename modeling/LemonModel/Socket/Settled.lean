import LemonModel.Socket.Correlation
import LemonModel.Socket.Frame

/-!
# Promises and links

A promise waits under its message id until it is settled, if no other send takes
its place there (`Ledger.Sound`). It is not left waiting by a peer that closes, if
it is not sent to a closed peer and is still in the hands of a transport when the
peer it was sent to closes (`Careful`).
-/

namespace LemonModel

open Text

/-! ## The ledger -/

namespace Ledger

variable {l : Ledger}

def Settled (l : Ledger) (k : Promise) : Prop := k ∈ l.settled.map Prod.fst

/-- What was not settled waits, and what waits was not settled. -/
structure Sound (l : Ledger) : Prop where
  waits : ∀ k ∈ l.promises, ¬ l.Settled k → (l.pending k.peer).get? k.mid = some k
  held : ∀ p mid k, (l.pending p).get? mid = some k →
    k ∈ l.promises ∧ k.peer = p ∧ k.mid = mid ∧ ¬ l.Settled k
  once : (l.settled.map Prod.fst).Nodup
  made : ∀ k, l.Settled k → k ∈ l.promises
  numbered : ∀ k ∈ l.promises, k.no < l.promises.length

theorem get?_update {pending : Nat → Dict JSString Promise} (p : Nat) (d : Dict JSString Promise)
    (q : Nat) (mid : JSString) :
    (Function.update pending p d q).get? mid =
      if q = p then d.get? mid else (pending q).get? mid := by
  rw [Function.update_apply]
  split <;> rfl

theorem Sound.settle (h : l.Sound) (p : Nat) (mid : JSString) (how : Settlement) :
    (l.settle p mid how).Sound := by
  unfold Ledger.settle
  cases waits : (l.pending p).get? mid with
  | none => exact h
  | some k =>
    obtain ⟨made, peer, id, fresh⟩ := h.held p mid k waits
    constructor
    · intro k' made' unsettled
      simp only [Settled, List.map_cons, List.mem_cons, not_or] at unsettled
      have waits' := h.waits k' made' unsettled.2
      simp only [get?_update]
      split
      · rename_i same
        rw [Dict.get?_delete, if_neg, ← same]
        · exact waits'
        · intro same'
          rw [same, same', waits] at waits'
          cases waits'
          exact unsettled.1 rfl
      · exact waits'
    · intro q mid' k' waits'
      simp only [get?_update] at waits'
      have old : (l.pending q).get? mid' = some k' ∧ ¬ (q = p ∧ mid' = mid) := by
        split at waits'
        · rename_i same
          subst same
          rw [Dict.get?_delete] at waits'
          split at waits'
          · cases waits'
          · rename_i other
            exact ⟨waits', fun same => other same.2⟩
        · rename_i other
          exact ⟨waits', fun same => other same.1⟩
      obtain ⟨made', peer', id', fresh'⟩ := h.held q mid' k' old.1
      refine ⟨made', peer', id', ?_⟩
      simp only [Settled, List.map_cons, List.mem_cons, not_or]
      refine ⟨?_, fresh'⟩
      rintro rfl
      exact old.2 ⟨peer'.symm.trans peer, id'.symm.trans id⟩
    · exact List.nodup_cons.mpr ⟨fresh, h.once⟩
    · intro k' settled
      rcases List.mem_cons.mp settled with rfl | settled
      · exact made
      · exact h.made k' settled
    · exact h.numbered

theorem Sound.settles (h : l.Sound) (t : Option (Nat × JSString × Settlement)) :
    (l.settles t).Sound := by
  cases t with
  | none => exact h
  | some t => exact h.settle ..

/-- A promise is made under an id that nothing waits under. -/
theorem Sound.register (h : l.Sound) {k : Promise} (no : k.no = l.promises.length)
    (free : (l.pending k.peer).get? k.mid = none) : (l.register k).Sound := by
  have new : k ∉ l.promises := by
    intro made
    have := h.numbered k made
    omega
  constructor
  · intro k' made unsettled
    simp only [Ledger.register, get?_update]
    rcases List.mem_append.mp made with made | made
    · have waits := h.waits k' made unsettled
      split
      · rename_i same
        rw [Dict.get?_set, if_neg, ← same]
        · exact waits
        · intro same'
          rw [same, same', free] at waits
          cases waits
      · exact waits
    · obtain rfl := List.mem_singleton.mp made
      rw [if_pos rfl, Dict.get?_set_self]
  · intro q mid k' waits
    simp only [Ledger.register, get?_update] at waits
    have cases : k' = k ∧ q = k.peer ∧ mid = k.mid ∨ (l.pending q).get? mid = some k' := by
      split at waits
      · rename_i same
        rw [Dict.get?_set] at waits
        split at waits
        · rename_i same'
          cases waits
          exact .inl ⟨rfl, same, same'⟩
        · rw [← same] at waits
          exact .inr waits
      · exact .inr waits
    rcases cases with ⟨rfl, rfl, rfl⟩ | waits
    · exact ⟨List.mem_append_right _ (List.mem_singleton_self _), rfl, rfl,
        fun settled => new (h.made _ settled)⟩
    · obtain ⟨made, peer, id, fresh⟩ := h.held q mid k' waits
      exact ⟨List.mem_append_left _ made, peer, id, fresh⟩
  · exact h.once
  · intro k' settled
    exact List.mem_append_left _ (h.made k' settled)
  · intro k' made
    simp only [Ledger.register, List.length_append, List.length_singleton]
    rcases List.mem_append.mp made with made | made
    · have := h.numbered k' made
      omega
    · obtain rfl := List.mem_singleton.mp made
      omega

theorem settled_close (p : Nat) (k : Promise) :
    (l.close p).Settled k ↔ (∃ mid, (l.pending p).get? mid = some k) ∨ l.Settled k := by
  simp only [Settled, Ledger.close, List.map_append, List.map_reverse, List.map_map,
    List.mem_append, List.mem_reverse, List.mem_map, Function.comp_apply, Prod.exists,
    Dict.get?_eq_some]
  simp

theorem Sound.close (h : l.Sound) (p : Nat) : (l.close p).Sound := by
  constructor
  · intro k made unsettled
    rw [settled_close, not_or] at unsettled
    have waits := h.waits k made unsettled.2
    simp only [Ledger.close, get?_update]
    rw [if_neg]
    · exact waits
    · intro same
      rw [same] at waits
      exact unsettled.1 ⟨_, waits⟩
  · intro q mid k waits
    simp only [Ledger.close, get?_update] at waits
    split at waits
    · cases waits
    · rename_i other
      obtain ⟨made, peer, id, fresh⟩ := h.held q mid k waits
      refine ⟨made, peer, id, ?_⟩
      rw [settled_close, not_or]
      refine ⟨?_, fresh⟩
      rintro ⟨mid', waits'⟩
      exact other (peer.symm.trans (h.held p mid' k waits').2.1)
  · have mids : ((l.pending p).entries.map Prod.snd).map Promise.mid =
        (l.pending p).entries.map Prod.fst := by
      rw [List.map_map]
      apply List.map_congr_left
      intro entry hentry
      exact (h.held p entry.1 entry.2 (Dict.get?_eq_some.mpr hentry)).2.2.1
    have waiting : ((l.pending p).entries.map Prod.snd).Nodup := by
      apply List.Nodup.of_map Promise.mid
      rw [mids]
      exact (l.pending p).nodup
    simp only [Ledger.close, List.map_append, List.map_reverse, List.map_map]
    apply List.Nodup.append
    · exact List.nodup_reverse.mpr waiting
    · exact h.once
    · intro k hk settled
      obtain ⟨entry, hentry, rfl⟩ := List.mem_map.mp (List.mem_reverse.mp hk)
      exact (h.held p entry.1 entry.2 (Dict.get?_eq_some.mpr hentry)).2.2.2 settled
  · intro k settled
    rw [settled_close] at settled
    rcases settled with ⟨mid, waits⟩ | settled
    · exact (h.held p mid k waits).1
    · exact h.made k settled
  · exact h.numbered

end Ledger

namespace Exchange

variable {s s' : Exchange}

/-! ## What is in the hands of transports -/

/-- A step leaves the links alone, and hands over messages that are all like
`P`. -/
def Adds (s s' : Exchange) (P : Sending → Prop) : Prop :=
  s'.mesh = s.mesh ∧ ∃ more, s'.sendings = s.sendings ++ more ∧ ∀ x ∈ more, P x

theorem adds_nothing {P : Sending → Prop} (mesh : s'.mesh = s.mesh)
    (sendings : s'.sendings = s.sendings) : Adds s s' P :=
  ⟨mesh, [], by rw [sendings, List.append_nil], by simp⟩

theorem adds_settlePending (p : Nat) (mid : JSString) (how : Settlement) (P : Sending → Prop) :
    Adds s (s.settlePending p mid how) P := by
  unfold settlePending
  split <;> exact adds_nothing rfl rfl

theorem adds_rejectPending (p : Nat) (mid : JSString) (how : Settlement) (P : Sending → Prop) :
    Adds s (s.rejectPending p mid how) P := by
  unfold rejectPending
  split
  · exact adds_nothing rfl rfl
  · exact adds_settlePending ..

theorem adds_fail (this : Nat) (mid : JSString) (origin : Origin) (P : Sending → Prop) :
    Adds s (s.fail this mid origin) P := by
  cases origin with
  | post => exact adds_settlePending ..
  | send k => exact adds_settlePending ..
  | reply target => exact adds_rejectPending ..

theorem adds_sendToLink (this : Nat) (link : PeerLink) (message : SocketMessage) (origin : Origin)
    (answers : Nat) (handover : Handover) :
    Adds s (s.sendToLink this link message origin answers handover) fun x =>
      x.peer = this ∧ x.mid = message.mid ∧ x.origin = origin := by
  cases handover with
  | throws => exact adds_fail ..
  | takes =>
    refine ⟨rfl, _, rfl, ?_⟩
    intro x hx
    obtain ⟨t, -, rfl⟩ := List.mem_map.mp hx
    exact ⟨rfl, rfl, rfl⟩

/-- A message that nobody's promise waits for. -/
def Sending.Idle (x : Sending) : Prop := ∀ k, x.origin ≠ .send k

theorem Adds.weaken {P Q : Sending → Prop} (h : Adds s s' P) (weak : ∀ x, P x → Q x) :
    Adds s s' Q := by
  obtain ⟨mesh, more, sendings, all⟩ := h
  exact ⟨mesh, more, sendings, fun x hx => weak x (all x hx)⟩

theorem adds_reply (this target : Nat) (mid type : JSString) (data : Json) (answers : Nat)
    (handover : Handover) :
    Adds s (s.reply this target mid type data answers handover) Sending.Idle := by
  unfold reply
  split
  · exact adds_nothing rfl rfl
  · apply (adds_sendToLink ..).weaken
    rintro x ⟨-, -, origin⟩ k
    rw [origin]
    nofun

theorem adds_dispatch (reader : Reader) (message : SocketMessage) (answers : Nat)
    (handover : Handover) :
    Adds s (s.dispatch reader message answers handover) Sending.Idle := by
  unfold dispatch
  dsimp only
  split
  · exact adds_rejectPending ..
  · split
    · exact adds_settlePending ..
    · split
      · exact adds_reply ..
      · unfold callListeners
        split <;> exact adds_nothing rfl rfl

/-- Every event but a change of links, a `send` and a word of a transport. -/
theorem adds_step {e : ExchangeEvent} (step : s.step e = some s')
    (connect : ∀ this peer uplink downlink c, e ≠ .connect this peer uplink downlink c)
    (reconnect : ∀ this c uplink downlink, e ≠ .reconnect this c uplink downlink)
    (close : ∀ this, e ≠ .close this)
    (send : ∀ this message options handover, e ≠ .send this message options handover)
    (resolved : ∀ i, e ≠ .resolved i) (rejected : ∀ i, e ≠ .rejected i) :
    Adds s s' Sending.Idle := by
  cases e with
  | connect this peer uplink downlink c => exact absurd rfl (connect this peer uplink downlink c)
  | reconnect this c uplink downlink => exact absurd rfl (reconnect this c uplink downlink)
  | close this => exact absurd rfl (close this)
  | onMessage this listener =>
    cases step
    unfold subscribe
    split <;> exact adds_nothing rfl rfl
  | unsubscribe this listener =>
    cases step
    exact adds_nothing rfl rfl
  | post this message options handover =>
    cases step
    unfold post
    split
    · exact adds_nothing rfl rfl
    · apply (adds_sendToLink ..).weaken
      rintro x ⟨-, -, origin⟩ k
      rw [origin]
      nofun
  | send this message options handover => exact absurd rfl (send this message options handover)
  | deliver index handover =>
    obtain ⟨flight, -, rfl⟩ := Option.map_eq_some_iff.mp step
    exact adds_dispatch ..
  | returned index result handover =>
    obtain ⟨h, -, rfl⟩ := Option.map_eq_some_iff.mp step
    cases h.listeners with
    | nil => exact adds_reply ..
    | cons listener rest =>
      cases rest with
      | nil => exact adds_reply ..
      | cons next rest => exact adds_nothing rfl rfl
  | threw index =>
    obtain ⟨h, -, rfl⟩ := Option.map_eq_some_iff.mp step
    exact adds_rejectPending ..
  | reply index data handover =>
    obtain ⟨context, -, rfl⟩ := Option.map_eq_some_iff.mp step
    exact adds_reply ..
  | resolved index => exact absurd rfl (resolved index)
  | rejected index => exact absurd rfl (rejected index)

theorem adds_send (this : Nat) (message : SocketMessage) (options : PeerTargetOptions)
    (handover : Handover) :
    Adds s (s.send this message options handover) fun x =>
      x.peer = this ∧ x.mid = message.mid ∧ x.origin = .send (s.promised this message options) := by
  unfold send
  dsimp only
  cases found : publishTarget (s.mesh.peers this) message options with
  | error e => exact adds_nothing rfl rfl
  | ok link =>
    simp only [promised, found]
    exact adds_sendToLink ..

theorem mem_eraseIdx_of_ne {α : Type} {l : List α} {x y : α} {i : Nat} (hx : x ∈ l)
    (hy : l[i]? = some y) (other : x ≠ y) : x ∈ l.eraseIdx i := by
  obtain ⟨j, hj⟩ := List.mem_iff_getElem?.mp hx
  rw [List.mem_eraseIdx_iff_getElem?]
  refine ⟨j, ?_, hj⟩
  rintro rfl
  exact other (Option.some.inj (hj.symm.trans hy))

/-! ## The invariant -/

def Settled (s : Exchange) (k : Promise) : Prop := s.ledger.Settled k

/-- The transport that has a promise's message was detached: it has rejected the
message, and the handler is about to run. -/
def Rejected (s : Exchange) (k : Promise) : Prop :=
  ∃ x ∈ s.sendings, x.origin = .send k ∧ x.transport ∈ s.mesh.detached

/-- What was promised was settled, or waits at an open peer for an open peer,
unless its rejection is on its way. -/
structure Accounted (s : Exchange) : Prop where
  ledger : s.ledger.Sound
  opened : ∀ k ∈ s.promises, ¬ s.Settled k → (s.mesh.peers k.peer).state = .opened
  told : ∀ x ∈ s.sendings, ∀ k, x.origin = .send k → x.peer = k.peer ∧ x.mid = k.mid
  lost : ∀ k ∈ s.promises, ¬ s.Settled k → ∀ q, k.target = some q →
    (s.mesh.peers q).state ≠ .opened → s.Rejected k

/-- No send takes a message id that another one waits under, no message is handed
over for a closed peer, and when a peer closes, every other peer's send to it
that waits is in the hands of a transport that this detaches. -/
def Careful (s : Exchange) : ExchangeEvent → Prop
  | .send this message options handover =>
    (s.pending this).get? message.mid = none ∧
      (handover = .takes → ∀ link, publishTarget (s.mesh.peers this) message options = .ok link →
        (s.mesh.peers link.peer).state = .opened)
  | .close this =>
    (s.mesh.peers this).state ≠ .closed →
      ∀ p mid k, p ≠ this → (s.pending p).get? mid = some k → k.target = some this →
        ∃ x ∈ s.sendings, x.origin = .send k ∧ x.transport ∈ (s.mesh.close this).detached
  | _ => True

theorem settles_promises (l : Ledger) (t : Option (Nat × JSString × Settlement)) :
    (l.settles t).promises = l.promises := by
  cases t with
  | none => rfl
  | some t =>
    simp only [Ledger.settles, Ledger.settle]
    split <;> rfl

theorem settled_settles {l : Ledger} {k : Promise} (h : l.Settled k)
    (t : Option (Nat × JSString × Settlement)) : (l.settles t).Settled k := by
  cases t with
  | none => exact h
  | some t =>
    simp only [Ledger.settles, Ledger.settle]
    split
    · exact h
    · exact List.mem_cons_of_mem _ h

theorem Accounted.adds (h : s.Accounted) {t : Option (Nat × JSString × Settlement)}
    (ledger : s'.ledger = s.ledger.settles t) (adds : Adds s s' Sending.Idle) : s'.Accounted := by
  obtain ⟨mesh, more, sendings, idle⟩ := adds
  have promises : s'.promises = s.promises :=
    (congrArg Ledger.promises ledger).trans (settles_promises _ t)
  have unsettled : ∀ {k}, ¬ s'.Settled k → ¬ s.Settled k := by
    intro k h settled
    apply h
    unfold Settled
    rw [ledger]
    exact settled_settles settled t
  constructor
  · rw [ledger]
    exact h.ledger.settles t
  · intro k made fresh
    rw [promises] at made
    rw [mesh]
    exact h.opened k made (unsettled fresh)
  · intro x hx k origin
    rw [sendings] at hx
    rcases List.mem_append.mp hx with hx | hx
    · exact h.told x hx k origin
    · exact absurd origin (idle x hx k)
  · intro k made fresh q target shut
    rw [promises] at made
    rw [mesh] at shut
    obtain ⟨x, hx, rest⟩ := h.lost k made (unsettled fresh) q target shut
    refine ⟨x, ?_, ?_⟩
    · rw [sendings]
      exact List.mem_append_left _ hx
    · rw [mesh]
      exact rest

/-- Links change, and no peer closes. -/
theorem Accounted.keeps (h : s.Accounted) {mesh : Mesh} (keeps : s.mesh.Keeps mesh) :
    { s with mesh }.Accounted := by
  constructor
  · exact h.ledger
  · intro k made fresh
    exact (keeps.state _).trans (h.opened k made fresh)
  · exact h.told
  · intro k made fresh q target shut
    obtain ⟨x, hx, origin, detached⟩ := h.lost k made fresh q target fun opened =>
      shut ((keeps.state q).trans opened)
    exact ⟨x, hx, origin, keeps.detached _ detached⟩

theorem publishTarget_opened {p : Peer} {message : SocketMessage} {options : PeerTargetOptions}
    {link : PeerLink} (found : publishTarget p message options = .ok link) :
    p.state = .opened := by
  by_contra shut
  obtain ⟨e, eq⟩ := Mesh.ensureOpen_error (lit "peer.post") shut
  rw [publishTarget, eq] at found
  cases found

theorem Accounted.send (h : s.Accounted) {this : Nat} {message : SocketMessage}
    {options : PeerTargetOptions} {handover : Handover}
    (careful : s.Careful (.send this message options handover)) :
    (s.send this message options handover).Accounted := by
  obtain ⟨free, target⟩ := careful
  obtain ⟨mesh, more, sendings, own⟩ := adds_send (s := s) this message options handover
  have registered : (s.ledger.register (s.promised this message options)).Sound :=
    h.ledger.register rfl free
  -- what is new is the promise of this `send`
  have new : (s.send this message options handover).ledger.Sound ∧
      (s.send this message options handover).promises =
        s.promises ++ [s.promised this message options] ∧
      (∀ k, s.Settled k → (s.send this message options handover).Settled k) ∧
      (¬ (s.send this message options handover).Settled (s.promised this message options) →
        handover = .takes ∧
          ∃ link, publishTarget (s.mesh.peers this) message options = .ok link) := by
    obtain ⟨takes, found, eq⟩ | ⟨how, -, eq⟩ := ledger_send (s := s) this message options handover
    · refine ⟨eq ▸ registered, congrArg Ledger.promises eq, fun k settled => ?_,
        fun _ => ⟨takes, found⟩⟩
      unfold Settled
      rw [eq]
      exact settled
    · have settle := settle_registered s.ledger (s.promised this message options) how
      refine ⟨eq ▸ registered.settle _ _ _, ?_, fun k settled => ?_, fun fresh => ?_⟩
      · exact congrArg Ledger.promises (eq.trans settle)
      · unfold Settled
        rw [eq, show (s.ledger.register _).settle this message.mid how = _ from settle]
        exact List.mem_cons_of_mem _ settled
      · unfold Settled at fresh
        rw [eq, show (s.ledger.register _).settle this message.mid how = _ from settle] at fresh
        exact absurd List.mem_cons_self fresh
  obtain ⟨sound, promises, grows, taken⟩ := new
  constructor
  · exact sound
  · intro k made fresh
    rw [promises] at made
    rw [mesh]
    rcases List.mem_append.mp made with made | made
    · exact h.opened k made fun settled => fresh (grows k settled)
    · obtain rfl := List.mem_singleton.mp made
      obtain ⟨-, link, found⟩ := taken fresh
      exact publishTarget_opened found
  · intro x hx k origin
    rw [sendings] at hx
    rcases List.mem_append.mp hx with hx | hx
    · exact h.told x hx k origin
    · obtain ⟨peer, mid, origin'⟩ := own x hx
      cases origin.symm.trans origin'
      exact ⟨peer, mid⟩
  · intro k made fresh q hq shut
    rw [promises] at made
    rw [mesh] at shut
    rcases List.mem_append.mp made with made | made
    · obtain ⟨x, hx, rest⟩ := h.lost k made (fun settled => fresh (grows k settled)) q hq shut
      refine ⟨x, ?_, ?_⟩
      · rw [sendings]
        exact List.mem_append_left _ hx
      · rw [mesh]
        exact rest
    · obtain rfl := List.mem_singleton.mp made
      obtain ⟨takes, link, found⟩ := taken fresh
      simp only [promised, found, Except.toOption, Option.map_some, Option.some.injEq] at hq
      subst hq
      exact absurd (target takes link found) shut

theorem Accounted.close (h : s.Accounted) {this : Nat} (careful : s.Careful (.close this)) :
    (s.close this).Accounted := by
  by_cases state : (s.mesh.peers this).state = .closed
  · rw [Exchange.close, if_pos state]
    exact h
  · have ledger := ledger_close (s := s) this
    rw [if_neg state] at ledger
    have unsettled : ∀ {k}, k ∈ s.promises → ¬ (s.close this).Settled k →
        ¬ s.Settled k ∧ k.peer ≠ this := by
      intro k made fresh
      unfold Settled at fresh
      rw [ledger, Ledger.settled_close, not_or] at fresh
      refine ⟨fresh.2, fun same => ?_⟩
      have waits := h.ledger.waits k made fresh.2
      rw [same] at waits
      exact fresh.1 ⟨_, waits⟩
    have mesh : (s.close this).mesh = s.mesh.close this := by
      rw [Exchange.close, if_neg state]
    have sendings : (s.close this).sendings = s.sendings := by
      rw [Exchange.close, if_neg state]
    have promises : (s.close this).promises = s.promises := by
      rw [Exchange.close, if_neg state]
    constructor
    · rw [ledger]
      exact h.ledger.close this
    · intro k made fresh
      rw [promises] at made
      obtain ⟨fresh, other⟩ := unsettled made fresh
      rw [mesh, Mesh.close_state, if_neg (fun same => other same.1)]
      exact h.opened k made fresh
    · rw [sendings]
      exact h.told
    · intro k made fresh q hq shut
      rw [promises] at made
      obtain ⟨waiting, other⟩ := unsettled made fresh
      rw [mesh, Mesh.close_state] at shut
      unfold Rejected
      rw [sendings, mesh]
      by_cases closes : q = this
      · subst closes
        exact careful state k.peer k.mid k other (h.ledger.waits k made waiting) hq
      · rw [if_neg (fun same => closes same.1)] at shut
        obtain ⟨x, hx, origin, detached⟩ := h.lost k made waiting q hq shut
        exact ⟨x, hx, origin, Mesh.close_detached this detached⟩

/-- A transport that is still attached has resolved a message. -/
theorem Accounted.resolved (h : s.Accounted) {i : Nat} (step : s.resolved i = some s') :
    s'.Accounted := by
  unfold Exchange.resolved at step
  split at step
  · cases step
  · rename_i y found
    split at step
    · cases step
    · rename_i attached
      cases step
      constructor
      · exact h.ledger
      · exact h.opened
      · exact fun x hx => h.told x (List.mem_of_mem_eraseIdx hx)
      · intro k made fresh q hq shut
        obtain ⟨x, hx, origin, detached⟩ := h.lost k made fresh q hq shut
        refine ⟨x, ?_, origin, detached⟩
        exact mem_eraseIdx_of_ne hx found fun same => attached (same ▸ detached)

theorem ledger_rejected {i : Nat} {x : Sending} (found : s.sendings[i]? = some x)
    (step : s.rejected i = some s') :
    s'.ledger = s.ledger.settles (failed x.peer x.mid x.origin) := by
  obtain ⟨y, found', rfl⟩ := Option.map_eq_some_iff.mp step
  cases found.symm.trans found'
  exact ledger_fail ..

/-- The handler of a message that was rejected settles its promise. -/
theorem Accounted.handler (h : s.Accounted) {i : Nat} {x : Sending} {k : Promise}
    (found : s.sendings[i]? = some x) (origin : x.origin = .send k) (made : k ∈ s.promises)
    (step : s.rejected i = some s') : s'.Settled k := by
  unfold Settled
  rw [ledger_rejected found step]
  by_cases settled : s.Settled k
  · exact settled_settles settled _
  · obtain ⟨peer, mid⟩ := h.told x (List.mem_of_getElem? found) k origin
    have waits := h.ledger.waits k made settled
    rw [origin, peer, mid]
    simp only [failed, Ledger.settles, Ledger.settle, waits]
    exact List.mem_cons_self

/-- A transport has rejected a message. -/
theorem Accounted.rejected (h : s.Accounted) {i : Nat} (step : s.rejected i = some s') :
    s'.Accounted := by
  obtain ⟨y, found, eq⟩ := Option.map_eq_some_iff.mp step
  have ledger := ledger_rejected found step
  have promises : s'.promises = s.promises :=
    (congrArg Ledger.promises ledger).trans (settles_promises _ _)
  obtain ⟨mesh, more, sendings, none⟩ := adds_fail
    (s := { s with sendings := s.sendings.eraseIdx i }) y.peer y.mid y.origin fun _ => False
  have sendings : s'.sendings = s.sendings.eraseIdx i := by
    have : more = [] := List.eq_nil_iff_forall_not_mem.mpr none
    rw [← eq, sendings, this, List.append_nil]
  rw [eq] at mesh
  have unsettled : ∀ {k}, ¬ s'.Settled k → ¬ s.Settled k := by
    intro k fresh settled
    apply fresh
    unfold Settled
    rw [ledger]
    exact settled_settles settled _
  constructor
  · rw [ledger]
    exact h.ledger.settles _
  · intro k made fresh
    rw [promises] at made
    rw [mesh]
    exact h.opened k made (unsettled fresh)
  · intro x hx k origin
    rw [sendings] at hx
    exact h.told x (List.mem_of_mem_eraseIdx hx) k origin
  · intro k made fresh q hq shut
    rw [promises] at made
    rw [mesh] at shut
    obtain ⟨x, hx, origin, detached⟩ := h.lost k made (unsettled fresh) q hq shut
    refine ⟨x, ?_, origin, ?_⟩
    · rw [sendings]
      apply mem_eraseIdx_of_ne hx found
      rintro rfl
      exact fresh (h.handler found origin made step)
    · rw [mesh]
      exact detached

theorem Accounted.step (h : s.Accounted) {e : ExchangeEvent} (careful : s.Careful e)
    (step : s.step e = some s') : s'.Accounted := by
  cases e with
  | connect this peer uplink downlink clientId =>
    cases step
    exact h.keeps (Mesh.keeps_connect this peer uplink downlink clientId)
  | reconnect this option uplink downlink =>
    cases step
    exact h.keeps (Mesh.keeps_reconnect this option uplink downlink)
  | close this =>
    cases step
    exact h.close careful
  | send this message options handover =>
    cases step
    exact h.send careful
  | resolved i => exact h.resolved step
  | rejected i => exact h.rejected step
  | _ =>
    apply h.adds (step_ledger step (by intros; nofun) (by intros; nofun))
    apply adds_step step <;> intros <;> nofun

theorem accounted_start (mesh : Mesh) : (start mesh).Accounted := by
  constructor
  · constructor
    · intro k made
      cases made
    · intro p mid k waits
      cases waits
    · exact List.nodup_nil
    · intro k settled
      cases settled
    · intro k made
      cases made
  · intro k made
    cases made
  · intro x hx
    cases hx
  · intro k made
    cases made

/-- **Promises are settled.** In every careful run a promise is settled at most
once, and one that is not settled yet waits under its message id at an open peer,
and was made for an open peer, unless the transport that has its message has
rejected it; the handler of that rejection settles it. -/
theorem promises_are_settled {mesh : Mesh} {es : List ExchangeEvent}
    (run : Run step Careful (start mesh) es s) :
    (s.settled.map Prod.fst).Nodup ∧
      (∀ k ∈ s.promises, ¬ s.Settled k →
        (s.pending k.peer).get? k.mid = some k ∧ (s.mesh.peers k.peer).state = .opened ∧
          ∀ q, k.target = some q → (s.mesh.peers q).state ≠ .opened → s.Rejected k) ∧
      ∀ k ∈ s.promises, ∀ i x s', s.sendings[i]? = some x → x.origin = .send k →
        s.step (.rejected i) = some s' → s'.Settled k := by
  have h : s.Accounted := run.invariant Accounted
    (fun _ _ _ h careful step => h.step careful step) (accounted_start mesh)
  refine ⟨h.ledger.once, fun k made fresh => ⟨?_, ?_, ?_⟩, ?_⟩
  · exact h.ledger.waits k made fresh
  · exact h.opened k made fresh
  · exact h.lost k made fresh
  · intro k made i x s' found origin step
    exact h.handler found origin made step

/-- A peer closes while another one waits for its answer. -/
theorem closed_peer_leaves_a_promise :
    ∃ s k, exec step (start Mesh.couple)
          [.send 0 ⟨lit "ask", lit "message-1", .null⟩ ⟨none⟩ .takes, .close 1] = some s ∧
      s.promises = [k] ∧ k.target = some 1 ∧ (s.mesh.peers 1).state = .closed ∧
      s.settled = [] ∧ s.sendings = [] :=
  ⟨_, _, rfl, rfl, rfl, rfl, rfl, rfl⟩

/-- A peer closes while it waits itself. -/
theorem promises_are_settled_closing :
    ∃ s, exec step (start Mesh.couple)
          [.send 0 ⟨lit "ask", lit "message-1", .null⟩ ⟨none⟩ .takes, .close 0] = some s ∧
      s.settled.length = 1 ∧ (s.settled.map Prod.fst).Nodup := by
  have sends : Careful (start Mesh.couple)
      (.send 0 ⟨lit "ask", lit "message-1", .null⟩ ⟨none⟩ .takes) := by
    refine ⟨rfl, fun _ link found => ?_⟩
    cases found
    rfl
  have closes : Careful ((start Mesh.couple).send 0 ⟨lit "ask", lit "message-1", .null⟩ ⟨none⟩
      .takes) (.close 0) := by
    intro _ p mid k other waits
    have waits := (Ledger.get?_update 0 _ p mid).symm.trans waits
    rw [if_neg other] at waits
    cases waits
  have run : Run step Careful (start Mesh.couple)
      [.send 0 ⟨lit "ask", lit "message-1", .null⟩ ⟨none⟩ .takes, .close 0] _ :=
    .cons sends rfl (.cons closes rfl (.nil _))
  exact ⟨_, run.exec_eq, rfl, (promises_are_settled run).1⟩

end Exchange

end LemonModel
