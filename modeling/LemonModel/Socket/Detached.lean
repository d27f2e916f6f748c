import LemonModel.Socket.Network
import LemonModel.Transport.Delivery

/-!
# A transport that was detached

A `JSONTransport` on the in-memory network it reads. The network hands a packet
to the listeners it had when the packet was sent, so a transport goes on
receiving after it has unsubscribed, and `receive` does not ask whether it was
detached. What it then does with a packet is what it does with any other, from an
empty state (`receive_quiet`).
-/

namespace LemonModel

open Text

/-! ## A packet for a transport without partial states -/

/-- A transport sends, or calls a listener. -/
def Effect.acts : Effect → Bool
  | .sent _ => true
  | .answered _ => true
  | .called _ _ _ => true
  | _ => false

/-- Nothing comes of a packet: no partial state, no timer, nothing sent and
nobody called. -/
structure Transport.Quiet (t t' : Transport) : Prop where
  pendingCount : t'.pendingCount = 0
  nackTimers : ∀ tid ∈ t'.nackTimers, tid ∈ t.nackTimers
  resendTimers : ∀ timer, t'.resendTimers.has timer → t.resendTimers.has timer
  log : t'.log.filter Effect.acts = t.log.filter Effect.acts

/-- A packet that makes a transport without partial states do nothing: it is no
part of a message, unless of one that is remembered as failed, and no nack that
asks for anything. -/
def Transport.ignores (t : Transport) : JSONTransportPacket → Bool
  | .ack _ => true
  | .error _ _ => true
  | .nack nack =>
    t.reliable.isNone ||
      (t.pendingSend.get? nack.tid).all fun pending => (nackAnswer pending nack).isEmpty
  | p => t.reliable.isSome && (t.settledReceived.get? p.tid).any (·.outcome = .fail)

namespace Transport

variable {t : Transport} {o : ReliableOptions}

theorem pendingCount_eq_zero (empty : t.states = .empty) : t.pendingCount = 0 := by
  rw [pendingCount, empty]
  rfl

theorem Quiet.refl (empty : t.states = .empty) : Quiet t t := by
  constructor
  · exact pendingCount_eq_zero empty
  · exact fun _ h => h
  · exact fun _ h => h
  · rfl

theorem Quiet.record {t' : Transport} (quiet : Quiet t t') {e : Effect} (silent : e.acts = false) :
    Quiet t (t'.record e) := by
  constructor
  · exact quiet.pendingCount
  · exact quiet.nackTimers
  · exact quiet.resendTimers
  · rw [Transport.record, List.filter_cons_of_neg (by simp [silent])]
    exact quiet.log

theorem not_quiet_record {e : Effect} (loud : e.acts = true) : ¬ Quiet t (t.record e) := by
  intro quiet
  have log := congrArg List.length quiet.log
  simp [Transport.record, loud] at log

theorem acts_forget (t : Transport) (map : Dict JSString SettledEntry) :
    (t.forget map).log.filter Effect.acts = t.log.filter Effect.acts := by
  simp [forget, List.filter_append, List.filter_map, Function.comp_def, Effect.acts]

theorem quiet_handleAck (empty : t.states = .empty) (tid : JSString) :
    Quiet t (t.handleAck o tid) := by
  unfold handleAck
  split
  · exact .refl empty
  · apply Quiet.record
    · constructor
      · exact pendingCount_eq_zero empty
      · exact fun _ h => h
      · intro timer h
        have h : (t.resendTimers.delete _).has timer = true := h
        rw [Dict.has_delete] at h
        simp_all
      · simp [settleSend, Effect.acts]
    · rfl

theorem quiet_acceptError (empty : t.states = .empty) (tid message : JSString) :
    Quiet t (t.acceptError tid message) := by
  have told : Quiet t (t.emitError (some tid) ⟨.error, message⟩) := (Quiet.refl empty).record rfl
  cases hr : t.reliable with
  | none =>
    have eq : t.acceptError tid message = t.emitError (some tid) ⟨.error, message⟩ := by
      simp only [acceptError, emitError, Transport.record, hr]
    rw [eq]
    exact told
  | some o =>
    rw [acceptError_eq hr]
    constructor
    · apply pendingCount_eq_zero
      change t.states.delete tid = .empty
      rw [empty]
      rfl
    · intro x h
      exact (List.mem_filter.mp h).1
    · exact fun _ h => h
    · exact (acts_forget _ _).trans told.log

theorem finishState_waits {s : JSONReceiveState} (h : s.manifest = none ∨ s.complete = false)
    (reports : List Report) : (finishState s reports).2.2 = none := by
  have waits : assembleJSON s = .ok none := by
    unfold assembleJSON
    rcases h with h | h
    · rw [h]
    · rw [h]
      split <;> rfl
  unfold finishState
  rw [waits]
  split <;> rfl

/-- A first packet of a message is never all of it. -/
theorem absorb_first {s : JSONReceiveState} (manifest : s.manifest = none)
    (complete : s.complete = false)
    (reliable : Bool) (now : Nat) (p : JSONTransportPacket) : (absorb reliable now s p).2.2 = none := by
  cases p with
  | manifest m =>
    have kept : (acceptManifest reliable s m).1.complete = false := by
      unfold acceptManifest
      rw [manifest]
      dsimp only
      split <;> exact complete
    simp only [absorb]
    split
    · rfl
    · rename_i accepted
      rw [accepted] at kept
      exact finishState_waits (.inr kept) _
  | chunk c =>
    have kept : (acceptChunk reliable now s c).1.manifest = none := by
      have opened : (s.openCid c.cid).manifest = none := by
        unfold JSONReceiveState.openCid
        split <;> exact manifest
      unfold acceptChunk
      rw [manifest]
      dsimp only [Option.bind_none]
      repeat' split
      all_goals first | exact manifest | exact opened
    exact finishState_waits (.inl kept) _
  | complete tid => exact @finishState_waits { s with complete := true } (.inl manifest) _
  | _ => exact finishState_waits (.inl manifest) _

theorem states_emitErrors (t : Transport) (tid : JSString) (reports : List Report) :
    (t.emitErrors tid reports).states = t.states := by
  induction reports generalizing t with
  | nil => rfl
  | cons r reports ih => exact ih _

theorem cleanup_empty (empty : t.states = .empty) : t.cleanup.states = .empty := by
  have live : t.expiredPartials = [] := by
    unfold expiredPartials
    split <;> simp [empty]
  rw [cleanup_sweep live, sweep]
  split
  · exact empty
  · exact empty

/-- A part of a message that is let through leaves a partial state. -/
theorem not_quiet_acceptPart (empty : t.states = .empty) (p : JSONTransportPacket) :
    ¬ Quiet t (t.acceptPart p).1 := by
  intro quiet
  have cleaned := cleanup_empty empty
  have opened : t.cleanup.openState p.tid =
      { JSONReceiveState.fresh p.tid t.cleanup.now with updatedAt := t.cleanup.now } := by
    rw [openState, cleaned]
    rfl
  have waits := absorb_first (s := t.cleanup.openState p.tid) (by rw [opened]; rfl)
    (by rw [opened]; rfl)
    t.reliable.isSome t.now p
  have held : (t.acceptPart p).1.states.has p.tid = true := by
    rw [acceptPart_eq, acceptRest]
    simp only [waits]
    rw [states_emitErrors]
    simp [setState, Dict.has]
  have none := Dict.size_eq_zero.mp quiet.pendingCount p.tid
  rw [Dict.has, none] at held
  cases held

theorem quiet_data (empty : t.states = .empty) {p : JSONTransportPacket} (hd : p.isData) :
    Quiet t (t.acceptPacket p).1 ↔
      (t.reliable.isSome && (t.settledReceived.get? p.tid).any (·.outcome = .fail)) = true := by
  rw [acceptPacket_data hd]
  cases hr : t.reliable with
  | none => simp [not_quiet_acceptPart empty p]
  | some o =>
    cases hm : t.settledReceived.get? p.tid with
    | none => simp [not_quiet_acceptPart empty p]
    | some entry =>
      cases ho : entry.outcome with
      | ok =>
        have loud : ¬ Quiet t (t.sendAck p.tid).1 := not_quiet_record rfl
        simp [ho, loud]
      | fail => simp [ho, Quiet.refl empty]

theorem quiet_handleNack (empty : t.states = .empty) (nack : JSONNackPacket) :
    Quiet t (t.handleNack nack).1 ↔
      ((t.pendingSend.get? nack.tid).all fun pending => (nackAnswer pending nack).isEmpty) = true := by
  unfold handleNack
  cases t.pendingSend.get? nack.tid with
  | none => simp [Quiet.refl empty]
  | some pending =>
    cases ha : nackAnswer pending nack with
    | nil => simp [resendRest, ha, Quiet.refl empty]
    | cons q rest =>
      have loud : ¬ Quiet t (t.networkSend q) := not_quiet_record rfl
      simp [resendRest, ha, loud]

theorem quiet_packet (empty : t.states = .empty) (p : JSONTransportPacket) :
    Quiet t (if t.reliable.isNone ∧ isControl p then (t.emitError (some p.tid) (View.mismatch p), none)
      else t.acceptPacket p).1 ↔ t.ignores p = true := by
  have told : Quiet t (t.emitError (some p.tid) (View.mismatch p)) := (Quiet.refl empty).record rfl
  cases p with
  | ack tid =>
    cases hr : t.reliable with
    | none => simp [ignores, isControl, told]
    | some o => simp [ignores, acceptPacket, hr, quiet_handleAck empty]
  | nack nack =>
    cases hr : t.reliable with
    | none => simp [ignores, hr, isControl, told]
    | some o => simpa [ignores, acceptPacket, hr] using quiet_handleNack empty nack
  | error tid message => simp [ignores, isControl, acceptPacket_error, quiet_acceptError empty]
  | manifest m => simpa [ignores, isControl] using quiet_data empty (p := .manifest m) rfl
  | chunk c => simpa [ignores, isControl] using quiet_data empty (p := .chunk c) rfl
  | complete tid => simpa [ignores, isControl] using quiet_data empty (p := .complete tid) rfl

/-- **A packet for a transport without partial states.** Nothing comes of it
exactly if it is no packet at all, or one that such a transport ignores. -/
theorem receive_quiet (empty : t.states = .empty) (text : JSString) :
    Quiet t (t.receive text).1 ↔ (readPacket text).all t.ignores = true := by
  cases hp : readPacket text with
  | none =>
    obtain ⟨r, eq⟩ := receive_unread hp t
    have told : Quiet t (t.emitError none r) := (Quiet.refl empty).record rfl
    rw [eq]
    simp [told]
  | some p =>
    rw [receive_read hp]
    exact quiet_packet empty p

/-! ## No partial state comes by itself -/

/-- A frame that goes on makes no partial state. -/
theorem resume_states (ok : Bool) (f : Frame) : (t.resume ok f).1.states = t.states := by
  by_cases loop : ∀ x, f.loop x = none
  · exact (sendsTo_resume loop ok).sends.states
  · cases f with
    | emit tid data listener rest =>
      have ended : ∀ u : Transport, (u.emitEnd tid).1.states = u.states := by
        intro u
        unfold emitEnd
        split <;> rfl
      cases ok with
      | false => rfl
      | true =>
        cases rest with
        | nil => exact ended _
        | cons next rest => rfl
    | _ => exact absurd (fun _ => rfl) loop

end Transport

/-- Everything but a packet keeps a transport without partial states so. -/
theorem Config.step_states {c c' : Config} {e : Event} (h : c.step e = some c')
    (packet : ∀ text, e ≠ .receive text) (empty : c.transport.states = .empty) :
    c'.transport.states = .empty := by
  cases e with
  | receive text => exact absurd rfl (packet text)
  | send data ids =>
    cases h
    exact (Transport.sendsTo_send data ids).sends.states.trans empty
  | resendTick timer =>
    simp only [Config.step] at h
    split at h
    · cases h
      exact (Transport.sendsTo_resendTick timer).sends.states.trans empty
    · cases h
  | fireNack tid =>
    simp only [Config.step] at h
    split at h
    · cases h
      have none : (c.transport.clearNackTimer tid).states.get? tid = none := by
        change c.transport.states.get? tid = none
        rw [empty]
        rfl
      simp only [Config.enter, Transport.fireNack, none]
      exact empty
    · cases h
  | cleanup =>
    cases h
    exact Transport.cleanup_empty empty
  | onMessage listener =>
    cases h
    simp only [Transport.onMessage]
    split <;> exact empty
  | reply ok =>
    simp only [Config.step] at h
    split at h
    · cases h
    · cases h
      exact (Transport.resume_states ok _).trans empty
  | detach => cases h; rfl
  | _ => cases h; exact empty

/-! ## On a network -/

/-- Who listens to the network: the transport, or somebody else. -/
inductive Subscriber where
  | transport
  | other (n : Nat)
  deriving DecidableEq

/-- A transport and the network it reads. -/
structure Wired where
  network : Network Subscriber
  endpoint : Config

inductive NetworkEvent where
  /-- anything but a packet happens to the transport -/
  | endpoint (e : Event)
  /-- somebody sends -/
  | send (data : JSString)
  | subscribe (n : Nat)
  | unsubscribe (n : Nat)
  | configure (options : SocketNetworkOptions)
  | close
  /-- a packet arrives; the listeners before the transport return, or not -/
  | deliver (index : Nat) (reached : Bool)

namespace Wired

/-- `new JSONTransport(network, options)`. -/
def start (network : Network Subscriber) (options : SplitOptions) (partialTtlMs : Nat)
    (reliable : Option ReliableOptions) (now : Nat) : Except JSString Wired := do
  let network ← network.onMessage .transport
  return ⟨network, .start (.create options partialTtlMs reliable now)⟩

/-- A call that throws changes nothing. -/
def attempt (w : Wired) (r : Except JSString (Network Subscriber)) : Wired :=
  match r with
  | .ok network => { w with network }
  | .error _ => w

def step (w : Wired) : NetworkEvent → Option Wired
  | .endpoint (.receive _) => none
  | .endpoint .detach =>
    (w.endpoint.step .detach).map fun c => ⟨w.network.unsubscribe .transport, c⟩
  | .endpoint e => (w.endpoint.step e).map fun c => { w with endpoint := c }
  | .send data => some (w.attempt (w.network.send data))
  | .subscribe n => some (w.attempt (w.network.onMessage (.other n)))
  | .unsubscribe n => some { w with network := w.network.unsubscribe (.other n) }
  | .configure options => some { w with network := w.network.configure options }
  | .close => some { w with network := w.network.close }
  | .deliver index reached =>
    (w.network.deliver index).bind fun (network, d) =>
      if .transport ∈ d.listeners ∧ reached then
        (w.endpoint.step (.receive d.data)).map fun c => ⟨network, c⟩
      else some { w with network }

/-- Whatever arrives, the transport does nothing. -/
def Inert (w : Wired) : NetworkEvent → Prop
  | .deliver index reached => ∀ w', w.step (.deliver index reached) = some w' →
    w.endpoint.transport.Quiet w'.endpoint.transport
  | _ => True

/-- What reaches the transport is something it ignores. -/
def Harmless (w : Wired) : NetworkEvent → Prop
  | .deliver index reached => ∀ r ∈ w.network.deliver index,
    .transport ∈ r.2.listeners → reached = true →
      (readPacket r.2.data).all w.endpoint.transport.ignores = true
  | _ => True

instance (w : Wired) : DecidablePred w.Harmless
  | .deliver index reached =>
    match h : w.network.deliver index with
    | none => .isTrue (by intro r hr; rw [h] at hr; cases hr)
    | some r => decidable_of_iff
      (.transport ∈ r.2.listeners → reached = true →
        (readPacket r.2.data).all w.endpoint.transport.ignores = true)
      (by simp [Harmless, h])
  | .endpoint _ | .send _ | .subscribe _ | .unsubscribe _ | .configure _ | .close => .isTrue trivial

variable {w w' : Wired} {e : NetworkEvent}

theorem quiet_receive {c c' : Config} {text : JSString} (empty : c.transport.states = .empty)
    (h : c.step (.receive text) = some c') :
    c.transport.Quiet c'.transport ↔ (readPacket text).all c.transport.ignores = true := by
  cases h
  exact Transport.receive_quiet empty text

/-- **One delivery.** -/
theorem inert_iff (empty : w.endpoint.transport.states = .empty) : w.Inert e ↔ w.Harmless e := by
  cases e with
  | deliver index reached =>
    have still := Transport.Quiet.refl empty
    constructor
    · rintro inert ⟨network, d⟩ delivered listens hr
      obtain ⟨c, hc⟩ : ∃ c, w.endpoint.step (.receive d.data) = some c := ⟨_, rfl⟩
      have quiet := inert ⟨network, c⟩ (by
        simp only [step, Option.mem_def.mp delivered, Option.bind_some, listens, hr, and_self,
          if_true, hc, Option.map_some])
      exact (quiet_receive empty hc).mp quiet
    · intro harmless w' h
      simp only [step] at h
      obtain ⟨⟨network, d⟩, delivered, h⟩ := Option.bind_eq_some_iff.mp h
      simp only at h
      split at h
      · rename_i listens
        obtain ⟨c, hc, rfl⟩ := Option.map_eq_some_iff.mp h
        exact (quiet_receive empty hc).mpr (harmless _ delivered listens.1 listens.2)
      · cases h
        exact still
  | _ => exact Iff.rfl

theorem endpoint_step {e : Event} (h : w.step (.endpoint e) = some w') :
    (∀ text, e ≠ .receive text) ∧ w.endpoint.step e = some w'.endpoint := by
  cases e with
  | receive text => cases h
  | _ =>
    simp only [step] at h
    obtain ⟨c, hc, rfl⟩ := Option.map_eq_some_iff.mp h
    exact ⟨by intro text; simp, hc⟩

/-- The transport stays without partial states. -/
theorem step_states (h : w.step e = some w') (inert : w.Inert e)
    (empty : w.endpoint.transport.states = .empty) : w'.endpoint.transport.states = .empty := by
  cases e with
  | endpoint e =>
    obtain ⟨packet, stepped⟩ := endpoint_step h
    exact Config.step_states stepped packet empty
  | send data | subscribe n =>
    cases h
    unfold attempt
    split <;> exact empty
  | unsubscribe n | configure options | close => cases h; exact empty
  | deliver index reached =>
    exact Dict.entries_inj.mp (List.length_eq_zero_iff.mp (inert w' h).pendingCount)

theorem run_iff {es : List NetworkEvent} (empty : w.endpoint.transport.states = .empty) :
    Run step Inert w es w' ↔ Run step Harmless w es w' := by
  constructor
  · intro run
    induction run with
    | nil => exact .nil _
    | cons inert h _ ih =>
      exact .cons ((inert_iff empty).mp inert) h (ih (step_states h inert empty))
  · intro run
    induction run with
    | nil => exact .nil _
    | cons harmless h _ ih =>
      have inert := (inert_iff empty).mpr harmless
      exact .cons inert h (ih (step_states h inert empty))

/-- **A detached transport.** After `detach` it does nothing with what is still
delivered to it, exactly in the runs where all of that is something it ignores. -/
theorem detached_transport_is_inert {w w₁ w₂ : Wired} (later : List NetworkEvent)
    (detached : w.step (.endpoint .detach) = some w₁) :
    Run step Inert w₁ later w₂ ↔ Run step Harmless w₁ later w₂ := by
  apply run_iff
  cases detached
  rfl

/-! A message of one packet, on its way when its receiver is detached. -/

def joined : Wired := ⟨⟨lit "n", .opened, [.transport], ⟨none, none, none, none⟩, []⟩, receiver⟩

def sent : List NetworkEvent :=
  [.send greeting.wire, .send (JSONTransportPacket.complete (lit "t")).wire]

theorem detached_transport_is_inert_error :
    ∃ w w₁ w₂, exec step joined [.send (JSONTransportPacket.error (lit "t") []).wire] = some w ∧
      w.step (.endpoint .detach) = some w₁ ∧ Run step Inert w₁ [.deliver 0 true] w₂ := by
  obtain ⟨w₂, run⟩ := Run.of_allGood step Harmless joined
    ([.send (JSONTransportPacket.error (lit "t") []).wire] ++
      ([.endpoint .detach] ++ [.deliver 0 true])) (by decide +kernel)
  obtain ⟨w, before, run⟩ := run.split
  obtain ⟨w₁, first, later⟩ := run.split
  have detached : w.step (.endpoint .detach) = some w₁ := by simpa [exec] using first.exec_eq
  exact ⟨w, w₁, w₂, before.exec_eq, detached,
    (detached_transport_is_inert [.deliver 0 true] detached).mpr later⟩

/-- The message is assembled and acked by a transport that was detached, and
whoever sent it takes it for received. -/
theorem detached_transport_acks :
    ¬ ∀ (later : List NetworkEvent) (w w₁ w₂ : Wired), exec step joined sent = some w →
      w.step (.endpoint .detach) = some w₁ → exec step w₁ later = some w₂ →
      (∀ e ∈ later, ∃ index, e = .deliver index true) →
      w₂.endpoint.transport.pendingCount = 0 ∧
        w₂.endpoint.transport.log.countP Effect.acts =
          w₁.endpoint.transport.log.countP Effect.acts := by
  intro h
  have run : ((exec step joined sent).bind fun w => (w.step (.endpoint .detach)).bind fun w₁ =>
      (exec step w₁ [.deliver 0 true, .deliver 0 true]).map fun w₂ =>
        (w₁.endpoint.transport.log.countP Effect.acts, w₂.endpoint.transport.log.countP Effect.acts)) =
      some (0, 1) := by decide +kernel
  obtain ⟨w, hw, run⟩ := Option.bind_eq_some_iff.mp run
  obtain ⟨w₁, detached, run⟩ := Option.bind_eq_some_iff.mp run
  obtain ⟨w₂, later, counts⟩ := Option.map_eq_some_iff.mp run
  rw [Prod.mk.injEq] at counts
  have same := (h _ w w₁ w₂ hw detached later (by simp)).2
  omega

end Wired

end LemonModel
