import LemonModel.Transport.Outcome
import LemonModel.Transport.Delivery

/-!
# Two transports and a channel

Each transport reads what the other puts on the wire. The channel delivers a
packet that was sent at some time, in any order and any number of times or not at
all, and may replace the data of a chunk by data its hash is not of.
-/

namespace LemonModel

open Text

/-- The packet an effect puts on the wire. -/
def Effect.packet? : Effect → Option JSONTransportPacket
  | .sent packet => some packet
  | .answered packet => some packet
  | _ => none

/-- Every packet `network.send` was called with. -/
def Config.wire (c : Config) : List JSONTransportPacket :=
  c.transport.log.filterMap Effect.packet?

/-- `p` is `q` with other data, which the hash tells. -/
def garbles : JSONTransportPacket → JSONTransportPacket → Bool
  | .chunk q, .chunk p => p = { q with data := p.data } ∧ q.hash ≠ hashString p.data
  | _, _ => false

/-- The channel can deliver `p`. -/
def Config.offers (c : Config) (p : JSONTransportPacket) : Bool :=
  c.wire.any fun q => p = q || garbles q p

/-- Two transports. Either may send; a claim about one message calls the one it
is sent by `sender`. -/
structure Link where
  sender : Config
  receiver : Config

inductive LinkEvent where
  /-- anything but a packet happens to the sender -/
  | sender (e : Event)
  | receiver (e : Event)
  | toSender (p : JSONTransportPacket)
  | toReceiver (p : JSONTransportPacket)

def Event.isPacket : Event → Bool
  | .receive _ => true
  | _ => false

namespace Link

def step (l : Link) : LinkEvent → Option Link
  | .sender e =>
    if e.isPacket then none else (l.sender.step e).map fun c => { l with sender := c }
  | .receiver e =>
    if e.isPacket then none else (l.receiver.step e).map fun c => { l with receiver := c }
  | .toSender p =>
    if l.receiver.offers p then
      (l.sender.step (.receive p.wire)).map fun c => { l with sender := c }
    else none
  | .toReceiver p =>
    if l.sender.offers p then
      (l.receiver.step (.receive p.wire)).map fun c => { l with receiver := c }
    else none

end Link

/-- What an event of the link is to its sender. -/
def LinkEvent.forSender : LinkEvent → Option Event
  | .sender e => some e
  | .toSender p => some (.receive p.wire)
  | _ => none

def LinkEvent.forReceiver : LinkEvent → Option Event
  | .receiver e => some e
  | .toReceiver p => some (.receive p.wire)
  | _ => none

/-- What the event is to the sender meets `good`. -/
def Link.Sender (good : Config → Event → Prop) (l : Link) (e : LinkEvent) : Prop :=
  ∀ d, e.forSender = some d → good l.sender d

instance (good : Config → Event → Prop) [∀ c e, Decidable (good c e)] (l : Link) (e : LinkEvent) :
    Decidable (l.Sender good e) :=
  match h : e.forSender with
  | none => .isTrue (by intro d hd; rw [h] at hd; cases hd)
  | some d => decidable_of_iff (good l.sender d) (by simp [Link.Sender, h])

variable {l l' : Link} {e : LinkEvent} {c c' : Config}

/-- What an event is to the side it happens to. -/
theorem Link.step_side (h : l.step e = some l') :
    (∃ d c, e.forSender = some d ∧ l.sender.step d = some c ∧ l' = { l with sender := c } ∧
      ∀ text, d = .receive text → ∃ p, text = p.wire ∧ l.receiver.offers p = true) ∨
    ∃ d c, e.forReceiver = some d ∧ l.receiver.step d = some c ∧ l' = { l with receiver := c } ∧
      ∀ text, d = .receive text → ∃ p, text = p.wire ∧ l.sender.offers p = true := by
  cases e with
  | sender d =>
    simp only [Link.step] at h
    split at h
    · cases h
    · rename_i own
      obtain ⟨c, hc, rfl⟩ := Option.map_eq_some_iff.mp h
      refine .inl ⟨d, c, rfl, hc, rfl, ?_⟩
      rintro text rfl
      exact absurd rfl own
  | receiver d =>
    simp only [Link.step] at h
    split at h
    · cases h
    · rename_i own
      obtain ⟨c, hc, rfl⟩ := Option.map_eq_some_iff.mp h
      refine .inr ⟨d, c, rfl, hc, rfl, ?_⟩
      rintro text rfl
      exact absurd rfl own
  | toSender p =>
    simp only [Link.step] at h
    split at h
    · rename_i offers
      obtain ⟨c, hc, rfl⟩ := Option.map_eq_some_iff.mp h
      refine .inl ⟨_, c, rfl, hc, rfl, ?_⟩
      rintro text ⟨⟩
      exact ⟨p, rfl, offers⟩
    · cases h
  | toReceiver p =>
    simp only [Link.step] at h
    split at h
    · rename_i offers
      obtain ⟨c, hc, rfl⟩ := Option.map_eq_some_iff.mp h
      refine .inr ⟨_, c, rfl, hc, rfl, ?_⟩
      rintro text ⟨⟩
      exact ⟨p, rfl, offers⟩
    · cases h

theorem Link.step_sender (h : l.step e = some l') :
    match e.forSender with
    | some d => l.sender.step d = some l'.sender
    | none => l'.sender = l.sender := by
  rcases Link.step_side h with ⟨d, c, seen, moved, rfl, -⟩ | ⟨d, c, seen, -, rfl, -⟩
  · rw [seen]
    exact moved
  · cases e with
    | receiver _ | toReceiver _ => rfl
    | sender _ | toSender _ => cases seen

/-! ## The clock, and whether a transport is attached -/

/-- Time goes on, and what was detached stays so. -/
theorem Config.step_onward {d : Event} (h : c.step d = some c') :
    c.transport.now ≤ c'.transport.now ∧
      (c'.transport.attached = true → c.transport.attached = true ∧ d ≠ .detach) := by
  have keep : ∀ t : Transport, Transport.Fixed c.transport t → d ≠ .detach →
      c.transport.now ≤ t.now ∧
        (t.attached = true → c.transport.attached = true ∧ d ≠ .detach) := by
    intro t fixed hd
    exact ⟨le_of_eq fixed.now.symm, fun h => ⟨fixed.attached ▸ h, hd⟩⟩
  cases d with
  | receive text =>
    cases h
    apply keep _ _ (by simp)
    rcases receive_sides c.transport text with h | ⟨o, hr, ⟨tid, _, eq⟩ | ⟨nack, _, eq⟩⟩
    · exact h.receives.fixed
    · simp only [Config.enter, eq]
      exact Transport.sends_handleAck.fixed
    · simp only [Config.enter, eq]
      exact (Transport.sendsTo_handleNack nack).sends.fixed
  | send data ids =>
    cases h
    exact keep _ (Transport.sendsTo_send data ids).sends.fixed (by simp)
  | resendTick timer =>
    simp only [Config.step] at h
    split at h
    · cases h
      exact keep _ (Transport.sendsTo_resendTick timer).sends.fixed (by simp)
    · cases h
  | fireNack tid =>
    simp only [Config.step] at h
    split at h
    · cases h
      exact keep _ (Transport.receivesTo_fireNack tid).receives.fixed (by simp)
    · cases h
  | cleanup =>
    cases h
    exact keep _ Transport.receives_cleanup.fixed (by simp)
  | advance ms =>
    cases h
    constructor
    · simp
    · intro attached
      exact ⟨attached, by simp⟩
  | onMessage listener =>
    cases h
    simp only [Transport.onMessage]
    split
    · exact ⟨le_rfl, fun h => ⟨h, by simp⟩⟩
    · exact ⟨le_rfl, fun h => ⟨h, by simp⟩⟩
  | detach =>
    cases h
    constructor
    · simp only [Transport.detach]
      split
      · exact le_of_eq (Transport.sends_detachReliable (t := c.transport)).now.symm
      · exact le_rfl
    · intro attached
      cases attached
  | reply ok =>
    simp only [Config.step] at h
    split at h
    · cases h
    · rename_i f rest hs
      cases h
      apply keep _ _ (by simp)
      cases hi : f.incoming with
      | true => exact (Transport.receivesTo_resume hi ok).receives.fixed
      | false => exact (Transport.sendsTo_resume (loop_none hi) ok).sends.fixed
  | _ => cases h; exact ⟨le_rfl, fun h => ⟨h, by simp⟩⟩

end LemonModel
