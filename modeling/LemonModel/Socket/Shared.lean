import LemonModel.Base.Refine
import LemonModel.Progress.Shown
import LemonModel.Transport.Delivery

/-!
# One socket, several readers

A transport, a progress consumer, a consumer of log entries and a client read the same
socket, each through its own filter. What is written for one of them is nothing to the
others, so each of them is where it would be on a socket of its own.
-/

namespace LemonModel

open Text

/-- Whose namespace the type of a frame is in. -/
inductive Protocol where
  | transport
  | progress
  | log
  | message
  deriving DecidableEq

/-- What is written to the socket: a packet, a snapshot under a message id, a batch, and
an envelope. -/
inductive SocketFrame where
  | transport (p : JSONTransportPacket) (wf : p.Wf)
  | progress (type : JSString) (s : ProgressState) (data : Json) (printed : s.Printed data)
    (mid : Nat)
  | log (m : LogTraceReporter.Message)
  | message (type : JSString) (data : JSValue) (wf : data.Wf) (mid : JSString)

theorem message_envelope_wf (type mid : JSString) {data : JSValue} (wf : data.Wf) :
    (Json.obj ((lit "type", .str type) :: ((data.image.map fun d => (lit "data", d)).toList ++
      [(lit "mid", .str mid)]))).Wf := by
  rw [Json.wf_obj]
  cases image : data.image with
  | none => simp +decide
  | some d => simp +decide [JSValue.image_wf wf d image]

namespace SocketFrame

def protocol : SocketFrame → Protocol
  | .transport _ _ => .transport
  | .progress _ _ _ _ _ => .progress
  | .log _ => .log
  | .message _ _ _ _ => .message

def envelope : SocketFrame → Envelope
  | .transport p wf => p.envelope wf
  | .progress type _ _ printed mid => printed.envelope type mid
  | .log m =>
    { type := m.type
      rest := [(lit "data", .obj [(lit "entries", .arr (m.entries.map LogTraceReporter.Entry.document)),
        (lit "source", .str m.source)]), (lit "mid", .str (unit 'l' :: natText m.mid))]
      wf := LogTraceReporter.message_wf m }
  | .message type data wf mid =>
    { type := type
      rest := (data.image.map fun d => (lit "data", d)).toList ++ [(lit "mid", .str mid)]
      wf := message_envelope_wf type mid wf }

/-- The text that is sent. -/
def raw : SocketFrame → JSString
  | .transport p _ => p.wire
  | .progress type _ data _ mid => (Json.obj [(lit "type", .str type), (lit "data", data),
      (lit "mid", .str (unit 'p' :: natText mid))]).text
  | .log m => m.raw
  | .message type data _ mid => SocketClient.envelope type data mid

theorem raw_eq (f : SocketFrame) : f.raw = f.envelope.raw := by
  cases f <;> rfl

end SocketFrame

/-- The readers of a socket. The transport reads it through `isTransportPacketString`, and
its calls return at once. -/
structure SharedSocket where
  transport : Transport
  progress : ProgressConsumer
  log : LogTraceConsumer
  client : SocketClient

/-- A frame arrives, with what the log handlers do, or something happens to one reader. -/
inductive SharedEvent where
  | arrives (f : SocketFrame) (react : Nat → LogTraceEntry → LogTraceReaction)
  | transport (i : Input)
  | progress (e : ConsumerEvent)
  | log (call : LogTraceCall)
  | client (e : ClientEvent)

def ClientEvent.isReceive : ClientEvent → Bool
  | .receive _ => true
  | _ => false

namespace SharedSocket

/-- What the filtered network gives the transport. -/
def filtered (t : Transport) (raw : JSString) : Transport :=
  if isTransportPacketString raw then t.deliver raw else t

/-- Every listener of the network gets the text of a frame. -/
def step (s : SharedSocket) : SharedEvent → Option SharedSocket
  | .arrives f react =>
    (s.progress.step (.message f.raw)).bind fun progress =>
      (s.log.step (.message f.raw react)).bind fun log =>
        (s.client.step (.receive f.raw)).map fun client =>
          ⟨filtered s.transport f.raw, progress, log, client⟩
  | .transport i => (s.transport.input i).map fun t => { s with transport := t }
  | .progress e => (s.progress.step e).map fun c => { s with progress := c }
  | .log call => (s.log.step (.call call)).map fun c => { s with log := c }
  | .client e => (s.client.step e).map fun c => { s with client := c }

/-- The types of other frames are in no reader's namespace. -/
structure Apart (s : SharedSocket) (f : SocketFrame) : Prop where
  transport : f.envelope.type ∈ transportTypes → f.protocol = .transport
  progress : s.progress.typePrefix <+: f.envelope.type → f.protocol = .progress
  log : s.log.typePrefix <+: f.envelope.type → f.protocol = .log
  client : f.envelope.type = lit "result" ∨ f.envelope.type = lit "error" → f.protocol = .message

theorem apart_iff {s : SharedSocket} {f : SocketFrame} : s.Apart f ↔
    (f.envelope.type ∈ transportTypes → f.protocol = .transport) ∧
      (s.progress.typePrefix <+: f.envelope.type → f.protocol = .progress) ∧
      (s.log.typePrefix <+: f.envelope.type → f.protocol = .log) ∧
      (f.envelope.type = lit "result" ∨ f.envelope.type = lit "error" → f.protocol = .message) :=
  ⟨fun ⟨t, p, l, c⟩ => ⟨t, p, l, c⟩, fun ⟨t, p, l, c⟩ => ⟨t, p, l, c⟩⟩

instance (s : SharedSocket) (f : SocketFrame) : Decidable (s.Apart f) :=
  decidable_of_iff _ apart_iff.symm

/-- Only types of the reader's own are in its namespace, and the client has its messages
from this socket. -/
def Namespaced (s : SharedSocket) : SharedEvent → Prop
  | .arrives f _ => s.Apart f
  | .client e => e.isReceive = false
  | _ => True

instance (s : SharedSocket) : (e : SharedEvent) → Decidable (s.Namespaced e)
  | .arrives f _ => inferInstanceAs (Decidable (s.Apart f))
  | .client e => inferInstanceAs (Decidable (e.isReceive = false))
  | .transport _ => .isTrue trivial
  | .progress _ => .isTrue trivial
  | .log _ => .isTrue trivial

end SharedSocket

/-! ## What a reader has of its own -/

namespace SharedEvent

def forTransport : SharedEvent → List Input
  | .arrives f _ =>
    if f.protocol = .transport ∧ f.envelope.type ∈ transportTypes then [.packet f.raw] else []
  | .transport i => [i]
  | _ => []

def forProgress : SharedEvent → List ConsumerEvent
  | .arrives f _ => if f.protocol = .progress then [.message f.raw] else []
  | .progress e => [e]
  | _ => []

def forLog : SharedEvent → List LogTraceEvent
  | .arrives f react => if f.protocol = .log then [.message f.raw react] else []
  | .log call => [.call call]
  | _ => []

end SharedEvent

namespace SharedSocket

variable {s s' : SharedSocket} {e : SharedEvent} {es : List SharedEvent}

theorem exec_single {σ ε : Type} {step : σ → ε → Option σ} {s s' : σ} {e : ε}
    (h : step s e = some s') : exec step s [e] = some s' := by
  rw [exec, h]
  rfl

/-- What an arrival does to each reader. -/
theorem step_arrives {f : SocketFrame} {react : Nat → LogTraceEntry → LogTraceReaction}
    (h : s.step (.arrives f react) = some s') :
    s'.transport = filtered s.transport f.raw ∧
      s.progress.step (.message f.raw) = some s'.progress ∧
      s.log.step (.message f.raw react) = some s'.log ∧
      s.client.step (.receive f.raw) = some s'.client := by
  rw [step] at h
  obtain ⟨progress, hp, h⟩ := Option.bind_eq_some_iff.mp h
  obtain ⟨log, hl, h⟩ := Option.bind_eq_some_iff.mp h
  obtain ⟨client, hc, rfl⟩ := Option.map_eq_some_iff.mp h
  exact ⟨rfl, hp, hl, hc⟩

theorem transport_moves (good : s.Namespaced e) (h : s.step e = some s') :
    exec Transport.input s.transport e.forTransport = some s'.transport := by
  cases e with
  | arrives f react =>
    obtain ⟨transport, -⟩ := step_arrives h
    have passes := f.envelope.isTransportPacketString_iff
    rw [transport, filtered]
    rw [← f.raw_eq] at passes
    by_cases own : f.envelope.type ∈ transportTypes
    · rw [if_pos (passes.mpr own), SharedEvent.forTransport, if_pos ⟨good.transport own, own⟩]
      exact exec_single rfl
    · rw [if_neg fun p => own (passes.mp p), SharedEvent.forTransport, if_neg fun both => own both.2]
      rfl
  | transport i =>
    rw [step] at h
    obtain ⟨t, ht, rfl⟩ := Option.map_eq_some_iff.mp h
    exact exec_single ht
  | progress d | log d | client d =>
    rw [step] at h
    obtain ⟨c, -, rfl⟩ := Option.map_eq_some_iff.mp h
    rfl

theorem progress_moves (good : s.Namespaced e) (h : s.step e = some s') :
    exec ProgressConsumer.step s.progress e.forProgress = some s'.progress := by
  cases e with
  | arrives f react =>
    obtain ⟨-, progress, -⟩ := step_arrives h
    rw [SharedEvent.forProgress]
    by_cases own : f.protocol = .progress
    · rw [if_pos own]
      exact exec_single progress
    · rw [if_neg own]
      have unread := Envelope.readState_foreign fun starts => own (good.progress starts)
      rw [← progress, exec]
      simp only [ProgressConsumer.step, ProgressConsumer.arrival, f.raw_eq, unread, ite_self]
  | progress d =>
    rw [step] at h
    obtain ⟨c, hc, rfl⟩ := Option.map_eq_some_iff.mp h
    exact exec_single hc
  | transport d | log d | client d =>
    rw [step] at h
    obtain ⟨c, -, rfl⟩ := Option.map_eq_some_iff.mp h
    rfl

theorem log_moves (good : s.Namespaced e) (h : s.step e = some s') :
    exec LogTraceConsumer.step s.log e.forLog = some s'.log := by
  cases e with
  | arrives f react =>
    obtain ⟨-, -, log, -⟩ := step_arrives h
    rw [SharedEvent.forLog]
    by_cases own : f.protocol = .log
    · rw [if_pos own]
      exact exec_single log
    · rw [if_neg own]
      have unread := Envelope.readBatch_foreign fun starts => own (good.log starts)
      rw [← log, exec]
      simp only [LogTraceConsumer.step, f.raw_eq, unread, ite_self]
  | log d =>
    rw [step] at h
    obtain ⟨c, hc, rfl⟩ := Option.map_eq_some_iff.mp h
    exact exec_single hc
  | transport d | progress d | client d =>
    rw [step] at h
    obtain ⟨c, -, rfl⟩ := Option.map_eq_some_iff.mp h
    rfl

end SharedSocket

/-! ## The answers of a client -/

/-- The reply that settles a request so: its type and its data. -/
def RequestSettlement.reply? : RequestSettlement → Option (JSString × Option Json)
  | .resolved data => some (lit "result", data)
  | .rejected data => some (lit "error", data)
  | .failed _ | .thrown _ => none

namespace SocketClient

variable {s s' : SocketClient}

/-- What is settled in the second and not in the first is settled without a reply. -/
def Unanswered (s s' : SocketClient) : Prop :=
  ∀ mid how, s'.settled.get? mid = some how → how.reply? = none ∨ s.settled.get? mid = some how

theorem settle_new {mid m : JSString} {how h : RequestSettlement}
    (now : (s.settle mid how).settled.get? m = some h) :
    s.settled.get? m = some h ∨ m = mid ∧ h = how := by
  unfold settle at now
  split at now
  · exact .inl now
  · by_cases same : m = mid
    · rw [same, Dict.get?_set_self] at now
      exact .inr ⟨same, (Option.some.inj now).symm⟩
    · rw [Dict.get?_set_ne _ _ same] at now
      exact .inl now

theorem unanswered_of_eq (same : s'.settled = s.settled) : Unanswered s s' :=
  fun _ _ now => .inr (same ▸ now)

theorem unanswered_settle (mid : JSString) {how : RequestSettlement} (own : how.reply? = none) :
    Unanswered s (s.settle mid how) := by
  intro m h now
  rcases settle_new now with before | ⟨-, rfl⟩
  · exact .inr before
  · exact .inl own

theorem unanswered_dispatchMessage (message : ClientMessage) (listeners : List Nat) :
    Unanswered s (s.dispatchMessage message listeners) := by
  have same (d : Dispatch) : (s.dispatch d).settled = s.settled := by
    unfold dispatch
    split <;> rfl
  cases listeners <;> exact unanswered_of_eq (same _)

/-- The loop of `close`. -/
theorem unanswered_settleAll (mids : List JSString) {r : SocketClient} (before : Unanswered s r) :
    Unanswered s (mids.foldl
      (fun r mid => (r.clearTimeout mid).settle mid (.failed (closeError mid))) r) := by
  induction mids generalizing r with
  | nil => exact before
  | cons mid mids ih =>
    refine ih fun m how now => ?_
    rcases unanswered_settle (s := r.clearTimeout mid) mid rfl m how now with own | earlier
    · exact .inl own
    · exact before m how earlier

theorem unanswered_close : Unanswered s s.close := by
  unfold close
  split
  · exact unanswered_of_eq rfl
  · exact unanswered_settleAll s.pending.keys (r := { s with closed := true }) (unanswered_of_eq rfl)

/-- What comes answers the request that it names. -/
theorem answered_receive {raw mid type : JSString} {how : RequestSettlement}
    {data : Option Json} (now : (s.receive raw).settled.get? mid = some how)
    (reply : how.reply? = some (type, data)) :
    s.settled.get? mid = some how ∨ readMessage raw = some ⟨type, some mid, data⟩ := by
  unfold receive at now
  split at now
  · exact .inl now
  · rename_i message read
    split at now
    · rename_i answer
      split at now
      · exact .inl now
      · rename_i m named
        split at now
        · rcases settle_new now with before | ⟨rfl, rfl⟩
          · exact .inl before
          · right
            obtain ⟨t, m', d⟩ := message
            obtain rfl : m' = some mid := named
            have kind : t = lit "result" ∨ t = lit "error" := of_decide_eq_true answer
            rw [read]
            rcases kind with rfl | rfl
            · rw [if_pos rfl] at reply
              cases reply
              rfl
            · rw [if_neg (show ¬ lit "error" = lit "result" by decide)] at reply
              cases reply
              rfl
        · exact .inl now
    · rcases unanswered_dispatchMessage message s.messageListeners mid how now with own | before
      · rw [own] at reply
        cases reply
      · exact .inl before

/-- A request is answered by the reply that names it. -/
theorem answered_step {e : ClientEvent} (h : s.step e = some s') {mid type : JSString}
    {how : RequestSettlement} {data : Option Json} (now : s'.settled.get? mid = some how)
    (reply : how.reply? = some (type, data)) :
    s.settled.get? mid = some how ∨
      ∃ raw, e = .receive raw ∧ readMessage raw = some ⟨type, some mid, data⟩ := by
  have kept (unanswered : Unanswered s s') : s.settled.get? mid = some how := by
    rcases unanswered mid how now with own | before
    · rw [own] at reply
      cases reply
    · exact before
  cases e with
  | request type data timeoutMs mid =>
    simp only [step] at h
    split at h
    · cases h
    · obtain rfl := Option.some.inj h
      refine .inl (kept (unanswered_of_eq ?_))
      unfold request
      split
      · rfl
      · split
        · split <;> rfl
        · rfl
  | sent mid error =>
    simp only [step] at h
    split at h
    · obtain rfl := Option.some.inj h
      unfold sent at kept
      cases error with
      | none => exact .inl (kept (unanswered_of_eq rfl))
      | some e => exact .inl (kept (unanswered_settle mid rfl))
    · cases h
  | receive raw =>
    obtain rfl := Option.some.inj h
    rcases answered_receive now reply with before | read
    · exact .inl before
    · exact .inr ⟨raw, rfl, read⟩
  | delivered i ok =>
    obtain ⟨d, -, rfl⟩ := Option.map_eq_some_iff.mp h
    refine .inl (kept ?_)
    unfold delivered
    simp only
    split
    · split
      · unfold dispatch
        split <;> exact unanswered_of_eq rfl
      · exact unanswered_dispatchMessage d.message _
    · exact unanswered_of_eq rfl
  | fire t =>
    simp only [step] at h
    split at h
    · obtain rfl := Option.some.inj h
      refine .inl (kept ?_)
      unfold fire
      simp only
      split
      · exact unanswered_settle t.mid rfl
      · exact unanswered_of_eq rfl
    · cases h
  | told ok =>
    obtain ⟨n, -, rfl⟩ := Option.map_eq_some_iff.mp h
    refine .inl (kept ?_)
    unfold told
    split
    · split
      · exact unanswered_settle n.timer.mid rfl
      · exact unanswered_of_eq rfl
    · exact unanswered_of_eq rfl
  | onMessage _ | offMessage _ | onType _ _ | offType _ _ | onError _ | offError _ =>
    obtain rfl := Option.some.inj h
    exact .inl (kept (unanswered_of_eq rfl))
  | close =>
    obtain rfl := Option.some.inj h
    exact .inl (kept unanswered_close)

end SocketClient

namespace SharedSocket

variable {s s' : SharedSocket} {e : SharedEvent} {es : List SharedEvent}

theorem readMessage_message (type : JSString) (data : JSValue) (wf : data.Wf) (mid : JSString) :
    readMessage (SocketFrame.message type data wf mid).raw = some ⟨type, some mid, data.image⟩ := by
  rw [SocketFrame.raw_eq, Envelope.readMessage_raw]
  cases image : data.image with
  | none => simp +decide [Envelope.document, SocketFrame.envelope, image, strField, prop?_cons,
    Json.str?]
  | some d => simp +decide [Envelope.document, SocketFrame.envelope, image, strField, prop?_cons,
    Json.str?]

theorem reply_type {type : JSString} {how : RequestSettlement} {data : Option Json}
    (reply : how.reply? = some (type, data)) : type = lit "result" ∨ type = lit "error" := by
  cases how with
  | resolved d =>
    cases reply
    exact .inl rfl
  | rejected d =>
    cases reply
    exact .inr rfl
  | failed _ | thrown _ => cases reply

/-- What answered a request came in an envelope that named it. -/
theorem answered_by_message (run : Run step Namespaced s es s') {mid type : JSString}
    {how : RequestSettlement} {data : Option Json}
    (now : s'.client.settled.get? mid = some how) (reply : how.reply? = some (type, data)) :
    s.client.settled.get? mid = some how ∨
      ∃ sent wf react, .arrives (.message type sent wf mid) react ∈ es ∧ sent.image = data := by
  induction run with
  | nil => exact .inl now
  | @cons s s₁ s' e es good hstep rest ih =>
    rcases ih now with before | ⟨sent, wf, react, arrived, image⟩
    · cases e with
      | arrives f react =>
        obtain ⟨-, -, -, client⟩ := step_arrives hstep
        rcases SocketClient.answered_step client before reply with earlier | ⟨_, ⟨⟩, read⟩
        · exact .inl earlier
        · have named : f.envelope.type = type := by
            rw [SocketFrame.raw_eq, Envelope.readMessage_raw] at read
            exact congrArg ClientMessage.type (Option.some.inj read)
          have own := good.client (named ▸ reply_type reply)
          cases f with
          | message type' sent wf mid' =>
            rw [readMessage_message] at read
            obtain ⟨rfl, names, rfl⟩ := ClientMessage.mk.inj (Option.some.inj read)
            obtain rfl := Option.some.inj names
            exact .inr ⟨sent, wf, react, List.mem_cons_self, rfl⟩
          | transport | progress | log => cases own
      | client d =>
        rw [step] at hstep
        obtain ⟨c, hc, rfl⟩ := Option.map_eq_some_iff.mp hstep
        rcases SocketClient.answered_step hc before reply with earlier | ⟨raw, rfl, -⟩
        · exact .inl earlier
        · cases good
      | transport d | progress d | log d =>
        rw [step] at hstep
        obtain ⟨c, -, rfl⟩ := Option.map_eq_some_iff.mp hstep
        exact .inl before
    · exact .inr ⟨sent, wf, react, List.mem_cons_of_mem _ arrived, image⟩

/-- **Readers of one socket do not meet.** However the frames of the protocols are mixed,
lost, repeated or delayed, each reader is where its own frames alone lead it, and a
request is answered by an envelope for it only. -/
theorem readers_do_not_meet (run : Run step Namespaced s es s') :
    exec Transport.input s.transport (es.flatMap SharedEvent.forTransport) = some s'.transport ∧
      exec ProgressConsumer.step s.progress (es.flatMap SharedEvent.forProgress) =
        some s'.progress ∧
      exec LogTraceConsumer.step s.log (es.flatMap SharedEvent.forLog) = some s'.log ∧
      ∀ mid how type data, s'.client.settled.get? mid = some how →
        how.reply? = some (type, data) →
        s.client.settled.get? mid = some how ∨
          ∃ sent wf react, .arrives (.message type sent wf mid) react ∈ es ∧ sent.image = data :=
  ⟨run.project fun _ _ _ => transport_moves, run.project fun _ _ _ => progress_moves,
    run.project fun _ _ _ => log_moves, fun _ _ _ _ now reply => answered_by_message run now reply⟩

/-! A request that is answered behind a packet, a snapshot and a batch. -/

def quiet : SharedSocket where
  transport := .create .default 0 none 0
  progress := .create none none
  log := .create none none none
  client := .create (.ofNat 1000) none

def started : ProgressState := ⟨lit "t", .running, .empty, 5, 1⟩

def startedData : Json :=
  .obj [(lit "id", .str (lit "t")), (lit "status", .str (lit "running")), (lit "ts", .ofNat 5),
    (lit "seq", .ofNat 1)]

theorem started_printed : started.Printed startedData where
  json := by decide
  wf := by simp +decide [startedData, Json.wf_obj]
  id := by decide
  status := by decide
  seq := by decide

def calmly : Nat → LogTraceEntry → LogTraceReaction := fun _ _ => ⟨[], false⟩

def mixed : List SharedEvent :=
  [.client (.request (lit "ping") .undefined none (lit "m1")),
    .client (.sent (lit "m1") none),
    .arrives (.transport (.complete (lit "r1")) trivial) calmly,
    .arrives (.progress (lit "progress:update") started startedData started_printed 0) calmly,
    .arrives (.log ⟨lit "log:batch", [], lit "src", 0⟩) calmly,
    .arrives (.message (lit "result") (.str (lit "pong")) trivial (lit "m1")) calmly]

theorem readers_do_not_meet_mixed :
    ∃ s', exec step quiet mixed = some s' ∧
      exec ProgressConsumer.step quiet.progress (mixed.flatMap SharedEvent.forProgress) =
        some s'.progress ∧
      (s'.progress.store.get? (lit "t")).map (·.state) = some startedData ∧
      s'.client.settled.get? (lit "m1") = some (.resolved (some (.str (lit "pong")))) ∧
      ∃ sent wf react, .arrives (.message (lit "result") sent wf (lit "m1")) react ∈ mixed ∧
        sent.image = some (.str (lit "pong")) := by
  obtain ⟨s', run⟩ := Run.of_allGood step Namespaced quiet mixed (by decide +kernel)
  have done : (exec step quiet mixed).map (fun s' =>
      (s'.client.settled.get? (lit "m1"), (s'.progress.store.get? (lit "t")).map (·.state))) =
        some (some (.resolved (some (.str (lit "pong")))), some startedData) := by
    decide +kernel
  rw [run.exec_eq, Option.map_some, Option.some.injEq] at done
  obtain ⟨now, shown⟩ := Prod.mk.inj done
  obtain ⟨-, progress, -, answers⟩ := readers_do_not_meet run
  rcases answers _ _ _ _ now rfl with before | answer
  · cases before
  · exact ⟨s', run.exec_eq, progress, shown, now, answer⟩

end SharedSocket

end LemonModel
