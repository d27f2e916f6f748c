import LemonModel.Base.Run
import LemonModel.Socket.Calls
import LemonModel.Socket.Exchange

/-!
# Which promise an event settles

The promises of a peer wait under message ids, and most events settle what waits
under one id at one peer, whoever it is for (`Exchange.touched`). What waits there
is what the event was meant for only if ids are used with care (`Correlated`).
-/

namespace LemonModel

open Text

/-- What waits, what was promised and what was settled. -/
structure Ledger where
  pending : Nat → Dict JSString Promise
  promises : List Promise
  settled : List (Promise × Settlement)

namespace Ledger

/-- Settles what waits at a peer under a message id. -/
def settle (l : Ledger) (p : Nat) (mid : JSString) (how : Settlement) : Ledger :=
  match (l.pending p).get? mid with
  | none => l
  | some k =>
    ⟨Function.update l.pending p ((l.pending p).delete mid), l.promises, (k, how) :: l.settled⟩

def settles (l : Ledger) : Option (Nat × JSString × Settlement) → Ledger
  | none => l
  | some (p, mid, how) => l.settle p mid how

/-- A promise is made. -/
def register (l : Ledger) (k : Promise) : Ledger :=
  ⟨Function.update l.pending k.peer ((l.pending k.peer).set k.mid k), l.promises ++ [k], l.settled⟩

/-- A peer closes. -/
def close (l : Ledger) (p : Nat) : Ledger :=
  ⟨Function.update l.pending p .empty, l.promises,
    ((l.pending p).entries.map fun entry => (entry.2, Settlement.closed)).reverse ++ l.settled⟩

end Ledger

namespace Exchange

variable {s s' : Exchange}

def ledger (s : Exchange) : Ledger := ⟨s.pending, s.promises, s.settled⟩

theorem ledger_settlePending (p : Nat) (mid : JSString) (how : Settlement) :
    (s.settlePending p mid how).ledger = s.ledger.settle p mid how := by
  simp only [settlePending, Ledger.settle, ledger]
  cases (s.pending p).get? mid with
  | none => rfl
  | some k => rfl

/-! ## What an event settles -/

/-- `rejectPending` takes the empty id for none. -/
def named (p : Nat) (mid : JSString) (how : Settlement) : Option (Nat × JSString × Settlement) :=
  if mid = [] then none else some (p, mid, how)

/-- A failure is told to whoever waits for it. -/
def failed (this : Nat) (mid : JSString) : Origin → Option (Nat × JSString × Settlement)
  | .reply target => named target mid (.unreplied this)
  | origin => some (this, mid, .undelivered origin)

/-- A reply that cannot be delivered is told to the peer it was for. -/
def replied (s : Exchange) (this target : Nat) (mid : JSString) :
    Handover → Option (Nat × JSString × Settlement)
  | .takes => none
  | .throws => (findLinkTo (s.mesh.peers this) target).bind fun _ => failed this mid (.reply target)

/-- A message arrives at a peer. -/
def arrived (s : Exchange) (flight : Flight) (handover : Handover) :
    Option (Nat × JSString × Settlement) :=
  let this := flight.reader.receiver
  let mid := flight.message.mid
  if (s.mesh.peers this).state ≠ .opened then named this mid (.thrown flight.reader.sender)
  else if flight.message.isAnswer ∧ ((s.pending this).get? mid).isSome then
    some (this, mid, .answered flight.reader.sender flight.message)
  else if flight.message.type = lit "ping" then s.replied this flight.reader.sender mid handover
  else none

/-- The peer and the message id under which an event settles what waits there,
and how. -/
def touched (s : Exchange) : ExchangeEvent → Option (Nat × JSString × Settlement)
  | .post this message options .throws =>
    match publishTarget (s.mesh.peers this) message options with
    | .error _ => none
    | .ok _ => failed this message.mid .post
  | .deliver index handover => s.flights[index]?.bind fun flight => s.arrived flight handover
  | .returned index _ handover =>
    s.handlings[index]?.bind fun h =>
      match h.listeners with
      | _ :: _ :: _ => none
      | _ => s.replied h.context.peer h.context.sender h.context.mid handover
  | .threw index =>
    s.handlings[index]?.bind fun h =>
      named h.context.peer h.context.mid (.thrown h.context.sender)
  | .reply index _ handover =>
    s.contexts[index]?.bind fun context =>
      s.replied context.peer context.sender context.mid handover
  | .rejected index =>
    s.sendings[index]?.bind fun sending => failed sending.peer sending.mid sending.origin
  | _ => none

/-! ## What a step does to the ledger -/

theorem ledger_rejectPending (p : Nat) (mid : JSString) (how : Settlement) :
    (s.rejectPending p mid how).ledger = s.ledger.settles (named p mid how) := by
  unfold rejectPending named
  split
  · rfl
  · exact ledger_settlePending p mid how

theorem ledger_fail (this : Nat) (mid : JSString) (origin : Origin) :
    (s.fail this mid origin).ledger = s.ledger.settles (failed this mid origin) := by
  cases origin with
  | post => exact ledger_settlePending ..
  | send k => exact ledger_settlePending ..
  | reply target => exact ledger_rejectPending ..

theorem ledger_reply (this target : Nat) (mid type : JSString) (data : Json) (answers : Nat)
    (handover : Handover) :
    (s.reply this target mid type data answers handover).ledger =
      s.ledger.settles (s.replied this target mid handover) := by
  unfold reply
  cases found : findLinkTo (s.mesh.peers this) target with
  | none =>
    cases handover with
    | takes => rfl
    | throws => simp only [replied, found, Option.bind_none, Ledger.settles]
  | some link =>
    cases handover with
    | takes => rfl
    | throws =>
      simp only [replied, found, Option.bind_some]
      exact ledger_fail ..

theorem ledger_dispatch (flight : Flight) (handover : Handover) :
    (s.dispatch flight.reader flight.message flight.answers handover).ledger =
      s.ledger.settles (s.arrived flight handover) := by
  unfold dispatch arrived
  dsimp only
  by_cases shut : (s.mesh.peers flight.reader.receiver).state ≠ .opened
  · rw [if_pos shut, if_pos shut]
    exact ledger_rejectPending ..
  · rw [if_neg shut, if_neg shut]
    by_cases awaited : flight.message.isAnswer ∧
        ((s.pending flight.reader.receiver).get? flight.message.mid).isSome
    · rw [if_pos awaited, if_pos awaited]
      exact ledger_settlePending ..
    · rw [if_neg awaited, if_neg awaited]
      by_cases ping : flight.message.type = lit "ping"
      · rw [if_pos ping, if_pos ping]
        exact ledger_reply ..
      · rw [if_neg ping, if_neg ping]
        unfold callListeners
        split <;> rfl

/-- The promise a `send` makes. -/
def promised (s : Exchange) (this : Nat) (message : SocketMessage) (options : PeerTargetOptions) :
    Promise :=
  ⟨s.promises.length, this, message.mid,
    (publishTarget (s.mesh.peers this) message options).toOption.map (·.peer)⟩

theorem settle_registered (l : Ledger) (k : Promise) (how : Settlement) :
    (l.register k).settle k.peer k.mid how =
      ⟨Function.update l.pending k.peer ((l.pending k.peer).delete k.mid), l.promises ++ [k],
        (k, how) :: l.settled⟩ := by
  simp only [Ledger.settle, Ledger.register, Function.update_self, Dict.get?_set_self,
    Dict.delete_set, Function.update_idem]

theorem ledger_send (this : Nat) (message : SocketMessage) (options : PeerTargetOptions)
    (handover : Handover) :
    let k := s.promised this message options
    (handover = .takes ∧
        (∃ link, publishTarget (s.mesh.peers this) message options = .ok link) ∧
        (s.send this message options handover).ledger = s.ledger.register k) ∨
      ∃ how, ((∃ e, how = .refused e) ∨ how = .undelivered (.send k)) ∧
        (s.send this message options handover).ledger =
          (s.ledger.register k).settle this message.mid how := by
  unfold send promised
  dsimp only
  cases found : publishTarget (s.mesh.peers this) message options with
  | error e =>
    right
    refine ⟨.refused e, .inl ⟨e, rfl⟩, ?_⟩
    rw [settle_registered s.ledger ⟨s.promises.length, this, message.mid, _⟩]
    simp only [ledger, settle, deletePending, Function.update_self, Dict.delete_set,
      Function.update_idem]
  | ok link =>
    cases handover with
    | takes => exact .inl ⟨rfl, ⟨link, rfl⟩, rfl⟩
    | throws =>
      right
      exact ⟨_, .inr rfl, ledger_fail ..⟩

theorem ledger_close (this : Nat) :
    (s.close this).ledger =
      if (s.mesh.peers this).state = .closed then s.ledger else s.ledger.close this := by
  unfold close
  split <;> rfl

/-- Every event but `send` and `close` settles what `touched` says, and nothing
else. -/
theorem step_ledger {e : ExchangeEvent} (step : s.step e = some s')
    (send : ∀ this message options handover, e ≠ .send this message options handover)
    (close : ∀ this, e ≠ .close this) : s'.ledger = s.ledger.settles (s.touched e) := by
  cases e with
  | connect => cases step; rfl
  | reconnect => cases step; rfl
  | close this => exact absurd rfl (close this)
  | onMessage this listener =>
    cases step
    unfold subscribe
    split <;> rfl
  | unsubscribe => cases step; rfl
  | post this message options handover =>
    cases step
    unfold post
    cases handover with
    | takes =>
      split <;> rfl
    | throws =>
      simp only [touched]
      cases found : publishTarget (s.mesh.peers this) message options with
      | error e => rfl
      | ok link => exact ledger_fail ..
  | send this message options handover => exact absurd rfl (send this message options handover)
  | deliver index handover =>
    obtain ⟨flight, found, rfl⟩ := Option.map_eq_some_iff.mp step
    simp only [touched, found, Option.bind_some]
    exact ledger_dispatch flight handover
  | returned index result handover =>
    obtain ⟨h, found, rfl⟩ := Option.map_eq_some_iff.mp step
    simp only [touched, found, Option.bind_some]
    cases listeners : h.listeners with
    | nil => exact ledger_reply ..
    | cons listener rest =>
      cases rest with
      | nil => exact ledger_reply ..
      | cons next rest => rfl
  | threw index =>
    obtain ⟨h, found, rfl⟩ := Option.map_eq_some_iff.mp step
    simp only [touched, found, Option.bind_some]
    exact ledger_rejectPending ..
  | reply index data handover =>
    obtain ⟨context, found, rfl⟩ := Option.map_eq_some_iff.mp step
    simp only [touched, found, Option.bind_some]
    exact ledger_reply ..
  | resolved index =>
    simp only [Exchange.step, resolved] at step
    split at step
    · cases step
    · split at step
      · cases step
      · cases step
        rfl
  | rejected index =>
    obtain ⟨sending, found, rfl⟩ := Option.map_eq_some_iff.mp step
    simp only [touched, found, Option.bind_some]
    exact ledger_fail ..

/-! ## Correlation -/

/-- A promise may be settled by an answer of the peer it is for, because its own
message could not be delivered, because that peer could not deliver its reply,
because `publish` threw, and by closing. -/
def Legit (k : Promise) : Settlement → Prop
  | .answered sender _ => k.target = some sender
  | .undelivered origin => origin = .send k
  | .unreplied peer => k.target = some peer
  | .thrown _ => False
  | .refused _ => True
  | .closed => True

/-- An event that bears on what waits at a peer under a message id finds there a
send that it may settle, or none. -/
def Correlated (s : Exchange) (e : ExchangeEvent) : Prop :=
  ∀ p mid how, s.touched e = some (p, mid, how) →
    ∀ k, (s.pending p).get? mid = some k → Legit k how

theorem legit_settles (l : Ledger) (t : Option (Nat × JSString × Settlement)) :
    (∀ x ∈ (l.settles t).settled, Legit x.1 x.2) ↔
      (∀ x ∈ l.settled, Legit x.1 x.2) ∧
        ∀ p mid how, t = some (p, mid, how) → ∀ k, (l.pending p).get? mid = some k → Legit k how := by
  cases t with
  | none => simp [Ledger.settles]
  | some t =>
    obtain ⟨p, mid, how⟩ := t
    simp only [Ledger.settles, Ledger.settle]
    cases waits : (l.pending p).get? mid with
    | none =>
      constructor
      · intro h
        refine ⟨h, ?_⟩
        rintro _ _ _ eq k hk
        cases eq
        rw [waits] at hk
        cases hk
      · exact And.left
    | some k =>
      constructor
      · intro h
        refine ⟨fun x hx => h x (List.mem_cons_of_mem _ hx), ?_⟩
        rintro _ _ _ eq k' hk
        cases eq
        rw [waits] at hk
        cases hk
        exact h (k, how) List.mem_cons_self
      · rintro ⟨h, legit⟩ x hx
        rcases List.mem_cons.mp hx with rfl | hx
        · exact legit p mid how rfl k waits
        · exact h x hx

theorem legit_step {e : ExchangeEvent} (step : s.step e = some s') :
    (∀ x ∈ s'.settled, Legit x.1 x.2) ↔ (∀ x ∈ s.settled, Legit x.1 x.2) ∧ Correlated s e := by
  have settled : ∀ l : Ledger, s'.ledger = l → s'.settled = l.settled := by
    rintro _ rfl
    rfl
  cases e with
  | send this message options handover =>
    -- a `send` settles no promise but its own
    cases step
    have free : Correlated s (.send this message options handover) := by
      intro _ _ _ touched
      cases touched
    rw [and_iff_left free]
    obtain ⟨-, -, eq⟩ | ⟨how, fit, eq⟩ := ledger_send (s := s) this message options handover
    · rw [settled _ eq]
      rfl
    · have eq := settled _ (eq.trans (settle_registered s.ledger (s.promised this message options) how))
      rw [eq, List.forall_mem_cons, and_iff_right]
      · rfl
      · obtain ⟨e, rfl⟩ | rfl := fit
        · trivial
        · rfl
  | close this =>
    cases step
    have free : Correlated s (.close this) := by
      intro _ _ _ touched
      cases touched
    rw [and_iff_left free, settled _ (ledger_close this)]
    split
    · rfl
    · simp only [Ledger.close, List.forall_mem_append, List.mem_reverse, List.mem_map]
      rw [and_iff_right]
      · rfl
      · rintro _ ⟨entry, -, rfl⟩
        trivial
  | _ =>
    rw [settled _ (step_ledger step (by intros; nofun) (by intros; nofun))]
    exact legit_settles s.ledger _

/-- **Correlation.** The promises of a run are settled by what they are for,
exactly if each of its steps finds under the message id it bears on a send that
it is for, or none. -/
theorem answers_are_correlated {mesh : Mesh} {es : List ExchangeEvent}
    (run : exec step (start mesh) es = some s) :
    (∀ x ∈ s.settled, Legit x.1 x.2) ↔ Run step Correlated (start mesh) es s := by
  have general : ∀ (es : List ExchangeEvent) (s₀ : Exchange), exec step s₀ es = some s →
      ((∀ x ∈ s.settled, Legit x.1 x.2) ↔
        (∀ x ∈ s₀.settled, Legit x.1 x.2) ∧ Run step Correlated s₀ es s) := by
    intro es
    induction es with
    | nil =>
      intro s₀ h
      cases h
      exact ⟨fun h => ⟨h, .nil _⟩, And.left⟩
    | cons e es ih =>
      intro s₀ h
      obtain ⟨s₁, first, rest⟩ := Option.bind_eq_some_iff.mp h
      rw [ih s₁ rest, legit_step first, and_assoc, and_congr_right_iff]
      intro _
      constructor
      · rintro ⟨good, run⟩
        exact .cons good first run
      · intro run
        cases run with
        | cons good first' run =>
          cases first.symm.trans first'
          exact ⟨good, run⟩
  rw [general es (start mesh) run]
  exact and_iff_right (by intro x hx; cases hx)

/-- A server and its two clients. -/
def trio : Mesh :=
  (Mesh.couple.connect 2 1 defaultPeerNetworkFactory defaultPeerNetworkFactory
    (lit "client-2")).1

/-- The server asks one client, and the other one answers. -/
theorem another_client_answers :
    ∃ s k message, exec step (start trio)
          [.send 1 ⟨lit "ask", lit "message-1", .null⟩ ⟨some (lit "client-1")⟩ .takes,
            .post 2 ⟨lit "result", lit "message-1", .null⟩ ⟨none⟩ .takes, .deliver 1 .takes] =
        some s ∧
      s.settled = [(k, .answered 2 message)] ∧ k.target = some 0 :=
  ⟨_, _, _, rfl, rfl, rfl⟩

/-- The server asks one client, whose listener answers. -/
theorem answers_are_correlated_ask :
    ∃ s, Run step Correlated (start trio)
        [.onMessage 0 0,
          .send 1 ⟨lit "ask", lit "message-1", .null⟩ ⟨some (lit "client-1")⟩ .takes,
          .deliver 0 .takes, .returned 0 (.bool true) .takes, .deliver 0 .takes] s ∧
      s.settled.length = 1 := by
  refine ⟨_, (answers_are_correlated rfl).mp ?_, rfl⟩
  rintro x (_ | ⟨_, ⟨⟩⟩)
  rfl

end Exchange

end LemonModel
