import LemonModel.Transport.View

/-!
# What sending leaves alone

The methods of the send side change nothing the receive side looks at, and the
calls they make are not to listeners.
-/

namespace LemonModel

open Text

/-- The listener loop a frame is, where it is one for `tid`: the message, the
listener in charge and those after it. -/
def Frame.loop (tid : JSString) : Frame → Option (Json × Nat × List Nat)
  | .emit x data listener rest => if x = tid then some (data, listener, rest) else none
  | _ => none

namespace Transport

/-- `t'` is `t` after some sending. -/
structure Sends (t t' : Transport) : Prop where
  options : t'.options = t.options
  partialTtlMs : t'.partialTtlMs = t.partialTtlMs
  reliable : t'.reliable = t.reliable
  listeners : t'.listeners = t.listeners
  states : t'.states = t.states
  view : ∀ x, t'.view x = t.view x
  attached : t'.attached = t.attached
  isOpen : t'.isOpen = t.isOpen
  now : t'.now = t.now

theorem Sends.refl (t : Transport) : Sends t t :=
  ⟨rfl, rfl, rfl, rfl, rfl, fun _ => rfl, rfl, rfl, rfl⟩

theorem Sends.trans {a b c : Transport} (h₁ : Sends a b) (h₂ : Sends b c) : Sends a c :=
  ⟨h₂.options.trans h₁.options, h₂.partialTtlMs.trans h₁.partialTtlMs,
    h₂.reliable.trans h₁.reliable, h₂.listeners.trans h₁.listeners, h₂.states.trans h₁.states,
    fun x => (h₂.view x).trans (h₁.view x), h₂.attached.trans h₁.attached,
    h₂.isOpen.trans h₁.isOpen, h₂.now.trans h₁.now⟩

/-- The outcome of a send-side method: its frame waits for no listener. -/
structure SendsTo (t : Transport) (r : Transport × Option Frame) : Prop where
  sends : Sends t r.1
  loop : ∀ x, ∀ f ∈ r.2, f.loop x = none

variable {t : Transport} {o : ReliableOptions} {tid : JSString}

theorem sends_record {e : Effect} (h : ∀ x, e.about x = false) : Sends t (t.record e) :=
  ⟨rfl, rfl, rfl, rfl, rfl, fun x => view_record_other (h x), rfl, rfl, rfl⟩

theorem sends_networkSend (packet : JSONTransportPacket) : Sends t (t.networkSend packet) :=
  sends_record fun _ => rfl

theorem sends_settleSend (o : ReliableOptions) (tid : JSString) (outcome : Outcome) :
    Sends t (t.settleSend o tid outcome) :=
  ⟨rfl, rfl, rfl, rfl, rfl, fun _ => rfl, rfl, rfl, rfl⟩

theorem SendsTo.done {t' : Transport} (h : Sends t t') : SendsTo t (t', none) :=
  ⟨h, by simp⟩

theorem sendsTo_failSend (pending : PendingSend) (reason : JSString) :
    SendsTo t (t.failSend tid pending reason) :=
  ⟨⟨rfl, rfl, rfl, rfl, rfl, fun _ => rfl, rfl, rfl, rfl⟩, by rintro x f ⟨⟩; rfl⟩

theorem sends_failRest (reason : JSString) : Sends t (t.failRest o tid reason) := by
  have quiet : ∀ x, Effect.about x
      (.error (some tid) (report .failed (lit "@json[" ++ tid ++ lit "] " ++ reason))) = false := by
    intro x
    simp [Effect.about, report]
  exact ((sends_settleSend _ _ _).trans (sends_record quiet)).trans (sends_record fun _ => rfl)

theorem sendsTo_attemptEnd (pending : PendingSend) : SendsTo t (t.attemptEnd o tid pending) := by
  unfold attemptEnd
  split
  · exact sendsTo_failSend _ _
  · exact .done (.refl t)

theorem sendsTo_attemptRest (pending : PendingSend) (packets : List JSONTransportPacket) :
    SendsTo t (t.attemptRest o tid pending packets) := by
  cases packets with
  | nil => exact sendsTo_attemptEnd pending
  | cons p rest => exact ⟨sends_networkSend p, by rintro x f ⟨⟩; rfl⟩

theorem SendsTo.after {t₁ : Transport} {r : Transport × Option Frame} (h₁ : Sends t t₁)
    (h₂ : SendsTo t₁ r) : SendsTo t r :=
  ⟨h₁.trans h₂.sends, h₂.loop⟩

theorem sendsTo_attemptSend (pending : PendingSend) : SendsTo t (t.attemptSend o tid pending) := by
  unfold attemptSend
  split
  · exact sendsTo_failSend _ _
  · split
    · exact .done (.refl t)
    · apply SendsTo.after _ (sendsTo_attemptRest _ _)
      exact ⟨rfl, rfl, rfl, rfl, rfl, fun _ => rfl, rfl, rfl, rfl⟩

theorem sendsTo_plainRest (packets : List JSONTransportPacket) :
    SendsTo t (t.plainRest packets) := by
  cases packets with
  | nil => exact .done (.refl t)
  | cons p rest => exact ⟨sends_networkSend p, by rintro x f ⟨⟩; rfl⟩

theorem sendsTo_resendRest (packets : List JSONTransportPacket) :
    SendsTo t (t.resendRest packets) := by
  cases packets with
  | nil => exact .done (.refl t)
  | cons p rest => exact ⟨sends_networkSend p, by rintro x f ⟨⟩; rfl⟩

theorem sendsTo_send (data : JSValue) (ids : Ids) : SendsTo t (t.send data ids) := by
  unfold send
  split
  · exact .done (.refl t)
  · split
    · apply SendsTo.after _ (sendsTo_attemptSend _)
      exact ⟨rfl, rfl, rfl, rfl, rfl, fun _ => rfl, rfl, rfl, rfl⟩
    · exact sendsTo_plainRest _

theorem sendsTo_resendTick (timer : Nat) : SendsTo t (t.resendTick timer) := by
  unfold resendTick
  split
  · split
    · exact sendsTo_attemptSend _
    · exact .done (.refl t)
  · exact .done (.refl t)

theorem sends_handleAck : Sends t (t.handleAck o tid) := by
  unfold handleAck
  split
  · exact .refl t
  · apply Sends.trans _ (sends_record fun _ => rfl)
    exact ⟨rfl, rfl, rfl, rfl, rfl, fun _ => rfl, rfl, rfl, rfl⟩

theorem sendsTo_handleNack (nack : JSONNackPacket) : SendsTo t (t.handleNack nack) := by
  unfold handleNack
  split
  · exact .done (.refl t)
  · exact sendsTo_resendRest _

theorem sends_detachReliable : Sends t { t.detachReliable o with nackTimers := t.nackTimers } := by
  have step : ∀ (t : Transport) e, Sends t (detachSend o t e) := by
    intro t e
    apply Sends.trans _ (sends_record fun _ => rfl)
    exact ⟨rfl, rfl, rfl, rfl, rfl, fun _ => rfl, rfl, rfl, rfl⟩
  have all : ∀ (es : List (JSString × PendingSend)) (t : Transport),
      Sends t (es.foldl (detachSend o) t) ∧ (es.foldl (detachSend o) t).nackTimers = t.nackTimers := by
    intro es
    induction es with
    | nil => exact fun t => ⟨.refl t, rfl⟩
    | cons e es ih =>
      intro t
      have rest := ih (detachSend o t e)
      exact ⟨(step t e).trans rest.1, rest.2⟩
  obtain ⟨sends, timers⟩ := all t.pendingSend.entries t
  rw [detachReliable, ← timers]
  exact sends

/-- A send-side frame that goes on stays on the send side. -/
theorem sendsTo_resume {f : Frame} (h : ∀ x, f.loop x = none) (ok : Bool) :
    SendsTo t (t.resume ok f) := by
  cases f with
  | attempt tid pending rest =>
    simp only [resume]
    split
    · exact .done (.refl t)
    · split
      · exact sendsTo_attemptRest _ _
      · exact sendsTo_attemptEnd _
  | fail tid reason =>
    simp only [resume]
    split
    · exact .done (.refl t)
    · exact .done (sends_failRest reason)
  | resend rest =>
    simp only [resume]
    split
    · exact sendsTo_resendRest _
    · exact .done (.refl t)
  | control => exact .done (.refl t)
  | emit tid data listener rest => simpa [Frame.loop] using h tid
  | plain rest =>
    simp only [resume]
    split
    · exact sendsTo_plainRest _
    · exact .done (sends_record fun _ => rfl)

end Transport

end LemonModel
