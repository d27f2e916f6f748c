import LemonModel.Socket.Correlation
import LemonModel.Socket.Frame

/-!
# Finite exchanges

A peer answers a message of its own accord with at most one message, and if an
automatic reply always finds a send that waits for it, or nobody who listens
(`Consumed`), it is not answered any more. So no run puts more than two messages
on the wire for each call (`exchanges_are_finite`).
-/

namespace LemonModel.Exchange

open Text

variable {s s' : Exchange}

/-- The messages on the wire, and those still to be answered. -/
def traffic (s : Exchange) : Nat :=
  s.wire.length + s.flights.countP (·.answers = 0) + s.handlings.length

/-- `post`, `send` and the replies a listener makes by itself. -/
def cost : ExchangeEvent → Nat
  | .post _ _ _ _ => 1
  | .send _ _ _ _ => 1
  | .reply _ _ _ => 1
  | _ => 0

/-- An automatic reply. -/
def Flight.automatic (f : Flight) : Prop :=
  f.answers = 1 ∧ (f.message.type = lit "result" ∨ f.message.type = lit "pong")

/-- No automatic reply was answered. -/
structure Shallow (s : Exchange) : Prop where
  readOnce : s.mesh.ReadOnce
  flights : ∀ f ∈ s.flights, f.answers = 0 ∨ Flight.automatic f
  handlings : ∀ h ∈ s.handlings, h.answers = 0
  wire : ∀ w ∈ s.wire, w.2 ≤ 1

/-- An automatic reply that arrives at an open peer finds a send that waits under
its id, or no listeners. -/
def Consumed (s : Exchange) : ExchangeEvent → Prop
  | .deliver index _ =>
    ∀ f, s.flights[index]? = some f → Flight.automatic f →
      (s.mesh.peers f.reader.receiver).state = .opened →
        ((s.pending f.reader.receiver).get? f.message.mid).isSome ∨
          s.listeners f.reader.receiver = []
  | _ => True

/-! ## What settles nothing on the wire -/

/-- Nothing was said. -/
structure Silent (s s' : Exchange) : Prop where
  mesh : s'.mesh = s.mesh
  flights : s'.flights = s.flights
  handlings : s'.handlings = s.handlings
  wire : s'.wire = s.wire

theorem Silent.traffic (h : Silent s s') : s'.traffic = s.traffic := by
  simp only [Exchange.traffic, h.flights, h.handlings, h.wire]

theorem Silent.shallow (h : Silent s s') (shallow : s.Shallow) : s'.Shallow := by
  constructor
  · rw [h.mesh]
    exact shallow.readOnce
  · rw [h.flights]
    exact shallow.flights
  · rw [h.handlings]
    exact shallow.handlings
  · rw [h.wire]
    exact shallow.wire

theorem silent_settlePending (p : Nat) (mid : JSString) (how : Settlement) :
    Silent s (s.settlePending p mid how) := by
  unfold settlePending
  split <;> exact ⟨rfl, rfl, rfl, rfl⟩

theorem silent_rejectPending (p : Nat) (mid : JSString) (how : Settlement) :
    Silent s (s.rejectPending p mid how) := by
  unfold rejectPending
  split
  · exact ⟨rfl, rfl, rfl, rfl⟩
  · exact silent_settlePending ..

theorem silent_fail (this : Nat) (mid : JSString) (origin : Origin) :
    Silent s (s.fail this mid origin) := by
  cases origin with
  | post => exact silent_settlePending ..
  | send k => exact silent_settlePending ..
  | reply target => exact silent_rejectPending ..

/-! ## What one message costs -/

theorem sendToLink_shallow (h : s.Shallow) (this : Nat) (link : PeerLink) {message : SocketMessage}
    (origin : Origin) {answers : Nat}
    (fits : answers = 0 ∨ answers = 1 ∧ (message.type = lit "result" ∨ message.type = lit "pong"))
    (handover : Handover) : (s.sendToLink this link message origin answers handover).Shallow := by
  cases handover with
  | throws => exact (silent_fail ..).shallow h
  | takes =>
    constructor
    · exact h.readOnce
    · intro f hf
      rcases List.mem_append.mp hf with hf | hf
      · exact h.flights f hf
      · obtain ⟨reader, -, rfl⟩ := List.mem_map.mp hf
        exact fits
    · exact h.handlings
    · intro w hw
      rcases List.mem_cons.mp hw with rfl | hw
      · omega
      · exact h.wire w hw

theorem sendToLink_traffic (once : s.mesh.ReadOnce) (this : Nat) (link : PeerLink)
    (message : SocketMessage) (origin : Origin) (answers : Nat) (handover : Handover) :
    (s.sendToLink this link message origin answers handover).traffic ≤
      s.traffic + 1 + if answers = 0 then 1 else 0 := by
  cases handover with
  | throws =>
    have silent : Silent s (s.sendToLink this link message origin answers .throws) :=
      silent_fail ..
    rw [silent.traffic]
    omega
  | takes =>
    have one := once.one link.network
    have fewer : ((s.mesh.networks link.network).messageListeners.map fun reader =>
        (⟨reader, message, answers⟩ : Flight)).countP (·.answers = 0) ≤
          if answers = 0 then 1 else 0 := by
      rw [List.countP_map]
      by_cases zero : answers = 0
      · rw [if_pos zero]
        exact List.countP_le_length.trans one
      · rw [if_neg zero, Nat.le_zero, List.countP_eq_zero]
        intro reader _
        simpa using zero
    simp only [traffic, sendToLink, List.length_cons, List.countP_append]
    omega

theorem reply_shallow (h : s.Shallow) (this target : Nat) (mid : JSString) {type : JSString}
    (data : Json) {answers : Nat}
    (fits : answers = 0 ∨ answers = 1 ∧ (type = lit "result" ∨ type = lit "pong"))
    (handover : Handover) : (s.reply this target mid type data answers handover).Shallow := by
  unfold reply
  split
  · exact h
  · exact sendToLink_shallow h this _ _ fits handover

theorem reply_traffic (once : s.mesh.ReadOnce) (this target : Nat) (mid type : JSString)
    (data : Json) (answers : Nat) (handover : Handover) :
    (s.reply this target mid type data answers handover).traffic ≤
      s.traffic + 1 + if answers = 0 then 1 else 0 := by
  unfold reply
  split
  · omega
  · exact sendToLink_traffic once this _ _ _ answers handover

/-- A message that nobody sent of his own accord is on the wire at most once
more. -/
theorem dispatch_call (h : s.Shallow) (reader : Reader) (message : SocketMessage)
    (handover : Handover) :
    (s.dispatch reader message 0 handover).traffic ≤ s.traffic + 1 ∧
      (s.dispatch reader message 0 handover).Shallow := by
  unfold dispatch
  dsimp only
  split
  · have silent := silent_rejectPending (s := s) reader.receiver message.mid (.thrown reader.sender)
    exact ⟨by rw [silent.traffic]; omega, silent.shallow h⟩
  · split
    · have silent := silent_settlePending (s := s) reader.receiver message.mid
        (.answered reader.sender message)
      exact ⟨by rw [silent.traffic]; omega, silent.shallow h⟩
    · split
      · constructor
        · exact reply_traffic h.readOnce _ _ _ _ _ 1 handover
        · exact reply_shallow h _ _ _ _ (.inr ⟨rfl, .inr rfl⟩) handover
      · unfold callListeners
        split
        · exact ⟨by omega, h⟩
        · constructor
          · simp only [traffic, List.length_append, List.length_singleton]
            omega
          · constructor
            · exact h.readOnce
            · exact h.flights
            · intro x hx
              rcases List.mem_append.mp hx with hx | hx
              · exact h.handlings x hx
              · obtain rfl := List.mem_singleton.mp hx
                rfl
            · exact h.wire

/-- Nobody answers an automatic reply that finds a send that waits for it, or no
listeners. -/
theorem dispatch_automatic {flight : Flight} (automatic : Flight.automatic flight)
    (consumed : (s.mesh.peers flight.reader.receiver).state = .opened →
      ((s.pending flight.reader.receiver).get? flight.message.mid).isSome ∨
        s.listeners flight.reader.receiver = []) (handover : Handover) :
    Silent s (s.dispatch flight.reader flight.message flight.answers handover) := by
  have answers : flight.message.isAnswer := by
    have := automatic.2
    simp only [SocketMessage.isAnswer, decide_eq_true_eq]
    tauto
  have ping : flight.message.type ≠ lit "ping" := by
    rcases automatic.2 with eq | eq <;> rw [eq] <;> decide
  unfold dispatch
  dsimp only
  by_cases shut : (s.mesh.peers flight.reader.receiver).state ≠ .opened
  · rw [if_pos shut]
    exact silent_rejectPending ..
  · rw [if_neg shut]
    by_cases awaited : ((s.pending flight.reader.receiver).get? flight.message.mid).isSome
    · rw [if_pos ⟨answers, awaited⟩]
      exact silent_settlePending ..
    · rw [if_neg (fun h => awaited h.2), if_neg ping]
      have nobody := (consumed (not_not.mp shut)).resolve_left awaited
      simp only [callListeners, nobody]
      exact ⟨rfl, rfl, rfl, rfl⟩

/-! ## Steps and runs -/

theorem countP_eraseIdx {α : Type} {l : List α} {p : α → Bool} {i : Nat} {a : α}
    (h : l[i]? = some a) : (l.eraseIdx i).countP p + (if p a then 1 else 0) = l.countP p := by
  induction l generalizing i with
  | nil => cases h
  | cons b l ih =>
    cases i with
    | zero =>
      obtain rfl : b = a := by simpa using h
      simp [List.countP_cons]
    | succ i =>
      have := ih (i := i) (by simpa using h)
      simp only [List.eraseIdx_cons_succ, List.countP_cons]
      omega

theorem post_shallow (h : s.Shallow) (this : Nat) (message : SocketMessage)
    (options : PeerTargetOptions) (handover : Handover) :
    (s.post this message options handover).Shallow ∧
      (s.post this message options handover).traffic ≤ s.traffic + 2 := by
  unfold post
  split
  · exact ⟨h, by omega⟩
  · constructor
    · exact sendToLink_shallow h this _ .post (.inl rfl) handover
    · exact sendToLink_traffic h.readOnce this _ message .post 0 handover

theorem send_shallow (h : s.Shallow) (this : Nat) (message : SocketMessage)
    (options : PeerTargetOptions) (handover : Handover) :
    (s.send this message options handover).Shallow ∧
      (s.send this message options handover).traffic ≤ s.traffic + 2 := by
  unfold send
  dsimp only
  split
  · exact ⟨⟨h.readOnce, h.flights, h.handlings, h.wire⟩, Nat.le_add_right _ _⟩
  · constructor
    · apply sendToLink_shallow _ _ _ _ (.inl rfl)
      exact ⟨h.readOnce, h.flights, h.handlings, h.wire⟩
    · apply (sendToLink_traffic _ _ _ _ _ _ _).trans
      · exact le_rfl
      · exact h.readOnce

/-- A message arrives: it is answered by one at most, and an automatic reply by none. -/
theorem deliver_shallow {index : Nat} {handover : Handover} (h : s.Shallow)
    (consumed : s.Consumed (.deliver index handover)) (step : s.deliver index handover = some s') :
    s'.Shallow ∧ s'.traffic ≤ s.traffic := by
  obtain ⟨flight, found, rfl⟩ := Option.map_eq_some_iff.mp step
  have left : { s with flights := s.flights.eraseIdx index }.Shallow :=
    ⟨h.readOnce, fun f hf => h.flights f (List.mem_of_mem_eraseIdx hf), h.handlings, h.wire⟩
  have fewer := countP_eraseIdx (p := fun f : Flight => decide (f.answers = 0)) found
  rcases h.flights flight (List.mem_of_getElem? found) with zero | automatic
  · rw [zero]
    obtain ⟨traffic, shallow⟩ := dispatch_call left flight.reader flight.message handover
    refine ⟨shallow, traffic.trans ?_⟩
    simp only [Exchange.traffic, zero, decide_true, if_true] at fewer ⊢
    omega
  · have silent := dispatch_automatic (s := { s with flights := s.flights.eraseIdx index })
      automatic (consumed flight found automatic) handover
    refine ⟨silent.shallow left, ?_⟩
    rw [silent.traffic]
    simp only [Exchange.traffic]
    omega

/-- A listener returns: the next one is called, or the message is answered. -/
theorem returned_shallow {index : Nat} {result : Json} {handover : Handover} (h : s.Shallow)
    (step : s.returned index result handover = some s') :
    s'.Shallow ∧ s'.traffic ≤ s.traffic := by
  obtain ⟨x, found, rfl⟩ := Option.map_eq_some_iff.mp step
  have zero := h.handlings x (List.mem_of_getElem? found)
  have bound : index < s.handlings.length := (List.getElem?_eq_some_iff.mp found).1
  have left : { s with handlings := s.handlings.eraseIdx index }.Shallow :=
    ⟨h.readOnce, h.flights, fun y hy => h.handlings y (List.mem_of_mem_eraseIdx hy), h.wire⟩
  have replies : ∀ results : List Json,
      ({ s with handlings := s.handlings.eraseIdx index }.reply x.context.peer x.context.sender
        x.context.mid (lit "result") (answer results) (x.answers + 1) handover).Shallow ∧
      ({ s with handlings := s.handlings.eraseIdx index }.reply x.context.peer x.context.sender
        x.context.mid (lit "result") (answer results) (x.answers + 1) handover).traffic ≤
          s.traffic := by
    intro results
    rw [zero]
    constructor
    · exact reply_shallow left _ _ _ _ (.inr ⟨rfl, .inl rfl⟩) handover
    · refine (reply_traffic left.readOnce _ _ _ _ _ 1 handover).trans ?_
      simp only [Exchange.traffic, List.length_eraseIdx, if_pos bound, if_neg Nat.one_ne_zero]
      omega
  cases listeners : x.listeners with
  | nil => exact replies _
  | cons listener rest =>
    cases rest with
    | nil => exact replies _
    | cons next rest =>
      constructor
      · refine ⟨h.readOnce, h.flights, fun y hy => ?_, h.wire⟩
        rcases List.mem_or_eq_of_mem_set hy with hy | rfl
        · exact h.handlings y hy
        · exact zero
      · simp only [Exchange.traffic, List.length_set]
        omega

theorem threw_shallow {index : Nat} (h : s.Shallow) (step : s.threw index = some s') :
    s'.Shallow ∧ s'.traffic ≤ s.traffic := by
  obtain ⟨x, found, rfl⟩ := Option.map_eq_some_iff.mp step
  have silent := silent_rejectPending (s := { s with handlings := s.handlings.eraseIdx index })
    x.context.peer x.context.mid (.thrown x.context.sender)
  constructor
  · apply silent.shallow
    exact ⟨h.readOnce, h.flights, fun y hy => h.handlings y (List.mem_of_mem_eraseIdx hy), h.wire⟩
  · rw [silent.traffic]
    have := List.length_eraseIdx_le s.handlings index
    simp only [Exchange.traffic]
    omega

theorem resolved_shallow {index : Nat} (h : s.Shallow) (step : s.resolved index = some s') :
    s'.Shallow ∧ s'.traffic ≤ s.traffic := by
  unfold resolved at step
  split at step
  · cases step
  · split at step
    · cases step
    · cases step
      exact ⟨⟨h.readOnce, h.flights, h.handlings, h.wire⟩, le_rfl⟩

theorem rejected_shallow {index : Nat} (h : s.Shallow) (step : s.rejected index = some s') :
    s'.Shallow ∧ s'.traffic ≤ s.traffic := by
  obtain ⟨sending, -, rfl⟩ := Option.map_eq_some_iff.mp step
  have silent := silent_fail (s := { s with sendings := s.sendings.eraseIdx index }) sending.peer
    sending.mid sending.origin
  exact ⟨silent.shallow ⟨h.readOnce, h.flights, h.handlings, h.wire⟩, silent.traffic.le⟩

/-- **One step** puts at most two messages on the wire for its call. -/
theorem shallow_step {e : ExchangeEvent} (h : s.Shallow) (consumed : s.Consumed e)
    (step : s.step e = some s') : s'.Shallow ∧ s'.traffic ≤ s.traffic + 2 * cost e := by
  cases e with
  | connect this peer uplink downlink c =>
    cases step
    have keeps := Mesh.keeps_connect (m := s.mesh) this peer uplink downlink c
    exact ⟨⟨keeps.readOnce h.readOnce, h.flights, h.handlings, h.wire⟩, le_rfl⟩
  | reconnect this c uplink downlink =>
    cases step
    have keeps := Mesh.keeps_reconnect (m := s.mesh) this c uplink downlink
    exact ⟨⟨keeps.readOnce h.readOnce, h.flights, h.handlings, h.wire⟩, le_rfl⟩
  | close this =>
    cases step
    unfold close
    split
    · exact ⟨h, le_rfl⟩
    · exact ⟨⟨h.readOnce.close this, h.flights, h.handlings, h.wire⟩, le_rfl⟩
  | onMessage this listener =>
    cases step
    unfold subscribe
    split
    · exact ⟨h, le_rfl⟩
    · exact ⟨⟨h.readOnce, h.flights, h.handlings, h.wire⟩, le_rfl⟩
  | unsubscribe this listener =>
    cases step
    exact ⟨⟨h.readOnce, h.flights, h.handlings, h.wire⟩, le_rfl⟩
  | post this message options handover =>
    cases step
    exact post_shallow h this message options handover
  | send this message options handover =>
    cases step
    exact send_shallow h this message options handover
  | deliver index handover => exact deliver_shallow h consumed step
  | returned index result handover => exact returned_shallow h step
  | threw index => exact threw_shallow h step
  | reply index data handover =>
    obtain ⟨context, -, rfl⟩ := Option.map_eq_some_iff.mp step
    constructor
    · exact reply_shallow h _ _ _ _ (.inl rfl) handover
    · exact reply_traffic h.readOnce _ _ _ _ _ 0 handover
  | resolved index => exact resolved_shallow h step
  | rejected index => exact rejected_shallow h step

/-- The calls of a run. -/
def calls (es : List ExchangeEvent) : Nat := (es.map cost).sum

theorem shallow_run {s₀ : Exchange} {es : List ExchangeEvent} (run : Run step Consumed s₀ es s)
    (h : s₀.Shallow) : s.Shallow ∧ s.traffic ≤ s₀.traffic + 2 * calls es := by
  induction run with
  | nil => exact ⟨h, by omega⟩
  | cons consumed step _ ih =>
    obtain ⟨shallow, cheap⟩ := shallow_step h consumed step
    obtain ⟨shallow, traffic⟩ := ih shallow
    refine ⟨shallow, ?_⟩
    simp only [calls, List.map_cons, List.sum_cons] at traffic ⊢
    omega

/-- **Finite exchanges.** If every automatic reply finds a send that waits for it
or nobody who listens, a run puts at most two messages on the wire for each call,
and none of them answers an automatic reply. -/
theorem exchanges_are_finite {ids : Nat → JSString} {options : Nat → Option JSONTransportOptions}
    {es : List ExchangeEvent} (run : Run step Consumed (start (Mesh.start ids options)) es s) :
    s.wire.length ≤ 2 * calls es ∧ ∀ w ∈ s.wire, w.2 ≤ 1 := by
  have start : (start (Mesh.start ids options)).Shallow := by
    refine ⟨Mesh.readOnce_start ids options, ?_, ?_, ?_⟩
    · intro f hf
      cases hf
    · intro x hx
      cases hx
    · intro w hw
      cases hw
  obtain ⟨shallow, traffic⟩ := shallow_run run start
  refine ⟨?_, shallow.wire⟩
  simp only [Exchange.traffic, Exchange.start, List.length_nil, List.countP_nil] at traffic
  omega

/-- Two peers that listen answer each other's answers to a message that nobody
waits for. -/
theorem answers_are_answered :
    ∃ s, exec step (start Mesh.couple)
          [.onMessage 0 0, .onMessage 1 0,
            .post 0 ⟨lit "tell", lit "message-1", .null⟩ ⟨none⟩ .takes,
            .deliver 0 .takes, .returned 0 .null .takes,
            .deliver 0 .takes, .returned 0 .null .takes] = some s ∧
      s.wire = [(⟨lit "result", lit "message-1", .null⟩, 2),
        (⟨lit "result", lit "message-1", .null⟩, 1), (⟨lit "tell", lit "message-1", .null⟩, 0)] :=
  ⟨_, rfl, rfl⟩

theorem exchanges_are_finite_ask :
    ∃ s, exec step (start (Mesh.start (fun _ => lit "peer") fun _ => none))
          [.connect 0 1 defaultPeerNetworkFactory defaultPeerNetworkFactory (lit "client-1"),
            .onMessage 0 0, .onMessage 1 0,
            .send 0 ⟨lit "ask", lit "message-1", .null⟩ ⟨none⟩ .takes,
            .deliver 0 .takes, .returned 0 (.bool true) .takes, .deliver 0 .takes] = some s ∧
      s.wire.length ≤ 2 := by
  have run : ∃ s, Run step Consumed (start (Mesh.start (fun _ => lit "peer") fun _ => none))
      [.connect 0 1 defaultPeerNetworkFactory defaultPeerNetworkFactory (lit "client-1"),
        .onMessage 0 0, .onMessage 1 0,
        .send 0 ⟨lit "ask", lit "message-1", .null⟩ ⟨none⟩ .takes,
        .deliver 0 .takes, .returned 0 (.bool true) .takes, .deliver 0 .takes] s := by
    refine ⟨_, .cons trivial rfl (.cons trivial rfl (.cons trivial rfl (.cons trivial rfl
      (.cons ?call rfl (.cons trivial rfl (.cons ?answer rfl (.nil _)))))))⟩
    case call =>
      intro f hf automatic
      cases hf
      cases automatic.1
    case answer =>
      intro f hf _ _
      cases hf
      exact .inl rfl
  obtain ⟨s, run⟩ := run
  exact ⟨s, run.exec_eq, (exchanges_are_finite run).1⟩

end LemonModel.Exchange
