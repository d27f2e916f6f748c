import LemonModel.Socket.WebSocket
import LemonModel.Text.Parse

/-!
# The connection id

`waitWebSocketConnectionId`: the socket is waited for until it is open, the connect message
is sent, and the first id that comes back is the result. The text of a message that is no
string is read in a promise of its own, so the readings may end in any order.
-/

namespace LemonModel

open Text

/-! ## The id in a message -/

/-- `json ?? raw`. -/
inductive ConnectMessage where
  | json (data : Json)
  | text (raw : JSString)

def tryParseWebSocketJSON (text : JSString) : Option Json := parse text

def ConnectMessage.ofText (raw : JSString) : ConnectMessage :=
  match tryParseWebSocketJSON raw with
  | none => .text raw
  | some .null => .text raw
  | some data => .json data

/-- A member of a member, where there is one. -/
def Text.Json.at? (data : Json) (keys : List JSString) : Option Json :=
  keys.foldlM Json.prop? data

/-- `candidates`, by their keys. -/
def connectionIdKeys : List (List JSString) :=
  [[lit "connectionId"], [lit "connId"], [lit "data", lit "connectionId"],
    [lit "data", lit "connId"], [lit "data", lit "connId", lit "id"], [lit "data", lit "id"],
    [lit "body", lit "connectionId"], [lit "body", lit "connId"], [lit "body", lit "id"],
    [lit "id"]]

def connectionIdOf : Json → Option JSString
  | .str [] => none
  | .str id => some id
  | _ => none

def extractWebSocketConnectionId : ConnectMessage → Option JSString
  | .text _ => none
  | .json data => connectionIdKeys.findSome? fun keys => (data.at? keys).bind connectionIdOf

/-- `extract` is an error where it throws. -/
structure WebSocketConnectionIdOptions where
  connectMessage : Option JSString
  timeoutMs : Option Decimal
  extract : Option (ConnectMessage → Except JSString (Option JSString))

namespace WebSocketConnectionIdOptions

def timeout (o : WebSocketConnectionIdOptions) : Decimal := o.timeoutMs.getD (.ofNat 15000)

def timed (o : WebSocketConnectionIdOptions) : Bool := 0 < o.timeout.mant

/-- The id in a text that was read; an empty one counts as none. -/
def idIn (o : WebSocketConnectionIdOptions) (raw : JSString) : Except JSString (Option JSString) :=
  let extract := o.extract.getD fun message => .ok (extractWebSocketConnectionId message)
  (extract (.ofText raw)).map fun id => id.filter (· ≠ [])

/-- What is sent. -/
def request (o : WebSocketConnectionIdOptions) : List JSString :=
  (o.connectMessage.filter (· ≠ [])).toList

def openTimeoutError (o : WebSocketConnectionIdOptions) : JSString :=
  lit "timeout waiting for WebSocket open: " ++ o.timeout.text ++ lit "ms"

def timeoutError (o : WebSocketConnectionIdOptions) : JSString :=
  lit "timeout waiting for connectionId from WebSocket: " ++ o.timeout.text ++ lit "ms"

end WebSocketConnectionIdOptions

def closedBeforeOpen : JSString := lit "WebSocket closed before open"

def closedBeforeId : JSString := lit "WebSocket closed before connectionId was received"

/-! ## The call -/

/-- The listeners of `waitWebSocketOpen` and of `waitWebSocketConnectionId`. -/
inductive ConnectListener where
  | openOpen
  | openError
  | openClose
  | onMessage
  | onError
  | onClose
  deriving DecidableEq

inductive ConnectOutcome where
  | pending
  | resolved (connectionId : JSString)
  | rejected (reason : JSString)
  deriving DecidableEq

/-- Only the first settlement of a promise counts. -/
def ConnectOutcome.settle (p result : ConnectOutcome) : ConnectOutcome :=
  if p = .pending then result else p

/-- A call. `opened` is the promise of `waitWebSocketOpen`, with its locals `openSettled` and
`openTimer`; `awaited` tells whether the call went on after it. `messages` has what came to
`onMessage`, `reading` those of them whose text is not read yet, and `texts` the readings
in the order they ended. -/
structure ConnectionIdCall where
  ws : WebSocketCompartible ConnectListener
  options : WebSocketConnectionIdOptions
  opened : OpenPromise
  openSettled : Bool
  openTimer : Bool
  awaited : Bool
  settled : Bool
  timer : Bool
  outcome : ConnectOutcome
  messages : List (Option JSString)
  reading : List Nat
  texts : List (Nat × Except JSString JSString)
  sent : List JSString

namespace ConnectionIdCall

def waitWebSocketOpen (h : ConnectionIdCall) : ConnectionIdCall :=
  if h.ws.isOpen then { h with opened := .resolved }
  else
    { h with
      openTimer := h.options.timed
      ws := ((h.ws.addEventListener .opens .openOpen true).addEventListener .error .openError
        true).addEventListener .close .openClose true }

/-- The call up to its first `await`. -/
def begin (ws : WebSocketCompartible ConnectListener) (options : WebSocketConnectionIdOptions) :
    ConnectionIdCall :=
  waitWebSocketOpen
    { ws := { ws with listeners := [] }, options := options, opened := .pending
      openSettled := false, openTimer := false, awaited := false, settled := false, timer := false
      outcome := .pending, messages := [], reading := [], texts := [], sent := [] }

/-- `resolveOnce` and `rejectOnce` of `waitWebSocketOpen`. -/
def openOnce (h : ConnectionIdCall) (result : OpenPromise) : ConnectionIdCall :=
  if h.openSettled then h
  else
    { h with
      openSettled := true
      openTimer := false
      ws := ((h.ws.removeEventListener .opens .openOpen).removeEventListener .error
        .openError).removeEventListener .close .openClose
      opened := h.opened.settle result }

/-- `resolveOnce` and `rejectOnce`. -/
def settleOnce (h : ConnectionIdCall) (result : ConnectOutcome) : ConnectionIdCall :=
  if h.settled then h
  else
    { h with
      settled := true
      timer := false
      ws := ((h.ws.removeEventListener .message .onMessage).removeEventListener .error
        .onError).removeEventListener .close .onClose
      outcome := h.outcome.settle result }

/-- The listeners and the timer of the second promise. -/
def listen (h : ConnectionIdCall) : ConnectionIdCall :=
  { h with
    timer := h.options.timed
    ws := ((h.ws.addEventListener .message .onMessage false).addEventListener .error .onError
      true).addEventListener .close .onClose true }

/-- `ws.send(options.connectMessage)`; what it throws rejects the promise, but `rejectOnce`
is not called. -/
def request (h : ConnectionIdCall) (throws : Option JSString) : ConnectionIdCall :=
  if h.options.request = [] then h
  else
    match throws with
    | some error => { h with outcome := h.outcome.settle (.rejected error) }
    | none => { h with sent := h.sent ++ h.options.request }

/-- The call goes on after `await waitWebSocketOpen(...)`. -/
def proceed (h : ConnectionIdCall) (throws : Option JSString) : Option ConnectionIdCall :=
  if h.awaited then none
  else
    match h.opened with
    | .pending => none
    | .rejected reason =>
      some { h with awaited := true, outcome := h.outcome.settle (.rejected reason) }
    | .resolved => some (({ h with awaited := true }.listen).request throws)

/-- What a listener does with an event. -/
def call (event : WebSocketEvent) (h : ConnectionIdCall) : ConnectListener → ConnectionIdCall
  | .openOpen => h.openOnce .resolved
  | .openError => h.openOnce (.rejected (match event with
      | .error reason => reason
      | _ => []))
  | .openClose => h.openOnce (.rejected closedBeforeOpen)
  | .onMessage =>
    match event with
    | .message data =>
      { h with messages := h.messages ++ [data], reading := h.reading ++ [h.messages.length] }
    | _ => h
  | .onError => h.settleOnce (.rejected (match event with
      | .error reason => reason
      | _ => []))
  | .onClose => h.settleOnce (.rejected closedBeforeId)

/-- The socket fires an event. -/
def fire (h : ConnectionIdCall) (event : WebSocketEvent) : ConnectionIdCall :=
  WebSocketCompartible.dispatch (·.ws) (fun h ws => { h with ws }) (call event) event.type
    { h with ws := h.ws.turn event.type }

/-- `onMessage` after it has read a text, or failed to. -/
def judge (o : WebSocketConnectionIdOptions) : Except JSString JSString → ConnectOutcome
  | .error reason => .rejected reason
  | .ok raw =>
    match o.idIn raw with
    | .error reason => .rejected reason
    | .ok (some connectionId) => .resolved connectionId
    | .ok none => .pending

def read (h : ConnectionIdCall) (result : Except JSString JSString) : ConnectionIdCall :=
  match judge h.options result with
  | .pending => h
  | result => h.settleOnce result

end ConnectionIdCall

/-- `proceed` and `read` are the ends of an `await`. -/
inductive ConnectEvent where
  | fires (event : WebSocketEvent)
  | openTimeout
  | proceed (throws : Option JSString)
  | read (i : Nat) (result : Except JSString JSString)
  | timeout

namespace ConnectionIdCall

/-- A string is read as it is. -/
def readAs : Option JSString → Except JSString JSString → Bool
  | some raw, .ok text => text = raw
  | some _, .error _ => false
  | none, _ => true

/-- A reading has ended. -/
def after (h : ConnectionIdCall) (i : Nat) (result : Except JSString JSString) : ConnectionIdCall :=
  { h with reading := h.reading.erase i, texts := h.texts ++ [(i, result)] }

/-- One event; `none` where it cannot happen. -/
def step (h : ConnectionIdCall) : ConnectEvent → Option ConnectionIdCall
  | .fires event => some (h.fire event)
  | .openTimeout =>
    if h.openTimer then
      some ({ h with openTimer := false }.openOnce (.rejected h.options.openTimeoutError))
    else none
  | .proceed throws => h.proceed throws
  | .read i result =>
    match h.messages[i]? with
    | some data =>
      if i ∈ h.reading ∧ readAs data result then
        some ((h.after i result).read result)
      else none
    | none => none
  | .timeout =>
    if h.timer then
      some ({ h with timer := false }.settleOnce (.rejected h.options.timeoutError))
    else none

end ConnectionIdCall

/-! ## What the call is for -/

/-- The socket is waited for, it is open, it failed to open, the answer is waited for, or
the promise is settled. -/
inductive Handshake where
  | opening
  | opened
  | failed (reason : JSString)
  | asked
  | ended (outcome : ConnectOutcome)

namespace Handshake

open ConnectionIdCall (judge)

def outcome : Handshake → ConnectOutcome
  | .ended outcome => outcome
  | _ => .pending

/-- Where the call stands once it listens. -/
def listening : ConnectOutcome → Handshake
  | .pending => .asked
  | result => .ended result

/-- The first of the events that matter where the call stands decides. -/
def step (o : WebSocketConnectionIdOptions) : Handshake → ConnectEvent → Handshake
  | .opening, .fires .opens => .opened
  | .opening, .fires (.error reason) => .failed reason
  | .opening, .fires .close => .failed closedBeforeOpen
  | .opening, .openTimeout => .failed o.openTimeoutError
  | .failed reason, .proceed _ => .ended (.rejected reason)
  | .opened, .proceed none => .asked
  | .opened, .proceed (some error) =>
    if o.request = [] then .asked else .ended (.rejected error)
  | .asked, .fires (.error reason) => .ended (.rejected reason)
  | .asked, .fires .close => .ended (.rejected closedBeforeId)
  | .asked, .timeout => .ended (.rejected o.timeoutError)
  | .asked, .read _ result => listening (judge o result)
  | s, _ => s

def start (ws : WebSocketCompartible ConnectListener) : Handshake :=
  if ws.isOpen then .opened else .opening

end Handshake

namespace ConnectionIdCall

variable {h h' : ConnectionIdCall} {o : WebSocketConnectionIdOptions}

/-! ## The call, by stages -/

abbrev Core :=
  List (EventListener ConnectListener) × OpenPromise × Bool × Bool × Bool × Bool × Bool ×
    ConnectOutcome

def core (h : ConnectionIdCall) : Core :=
  (h.ws.listeners, h.opened, h.openSettled, h.openTimer, h.awaited, h.settled, h.timer, h.outcome)

/-- What the promises of the call have no part in. -/
def record (h : ConnectionIdCall) : WebSocketConnectionIdOptions × List (Option JSString) ×
    List Nat × List (Nat × Except JSString JSString) × List JSString :=
  (h.options, h.messages, h.reading, h.texts, h.sent)

def openingCore (o : WebSocketConnectionIdOptions) : Core :=
  ([⟨.opens, .openOpen, true⟩, ⟨.error, .openError, true⟩, ⟨.close, .openClose, true⟩], .pending,
    false, o.timed, false, false, false, .pending)

def openedCore (result : OpenPromise) (openSettled : Bool) : Core :=
  ([], result, openSettled, false, false, false, false, .pending)

def listeningCore (o : WebSocketConnectionIdOptions) (openSettled : Bool)
    (outcome : ConnectOutcome) : Core :=
  ([⟨.message, .onMessage, false⟩, ⟨.error, .onError, true⟩, ⟨.close, .onClose, true⟩], .resolved,
    openSettled, false, true, false, o.timed, outcome)

def goneCore (result : OpenPromise) (openSettled settled : Bool) (outcome : ConnectOutcome) : Core :=
  ([], result, openSettled, false, true, settled, false, outcome)

theorem fire_opening (event : WebSocketEvent) (own : h.core = openingCore o) :
    (h.fire event).record = h.record ∧ (h.fire event).core = match event with
      | .opens => openedCore .resolved true
      | .error reason => openedCore (.rejected reason) true
      | .close => openedCore (.rejected closedBeforeOpen) true
      | .message _ => openingCore o := by
  obtain ⟨⟨OPEN, CLOSING, CLOSED, readyState, listeners⟩, options, opened, openSettled, openTimer,
    awaited, settled, timer, outcome, messages, reading, texts, sent⟩ := h
  simp only [core, openingCore, Prod.mk.injEq] at own
  obtain ⟨rfl, rfl, rfl, rfl, rfl, rfl, rfl, rfl⟩ := own
  cases event <;> exact ⟨rfl, rfl⟩

/-- Without listeners nothing happens but to the socket. -/
theorem fire_idle (event : WebSocketEvent) (idle : h.ws.listeners = []) :
    (h.fire event).record = h.record ∧ (h.fire event).core = h.core := by
  obtain ⟨⟨OPEN, CLOSING, CLOSED, readyState, listeners⟩, options, opened, openSettled, openTimer,
    awaited, settled, timer, outcome, messages, reading, texts, sent⟩ := h
  obtain rfl : listeners = [] := idle
  cases event <;> exact ⟨rfl, rfl⟩

/-- What settles the promise removes what waits for it. -/
theorem settleOnce_listening {openSettled : Bool} {outcome : ConnectOutcome} (result : ConnectOutcome)
    (own : h.core = listeningCore o openSettled outcome) :
    (h.settleOnce result).record = h.record ∧
      (h.settleOnce result).core = goneCore .resolved openSettled true (outcome.settle result) := by
  obtain ⟨⟨OPEN, CLOSING, CLOSED, readyState, listeners⟩, options, opened, openSettled', openTimer,
    awaited, settled, timer, outcome', messages, reading, texts, sent⟩ := h
  simp only [core, listeningCore, Prod.mk.injEq] at own
  obtain ⟨rfl, rfl, rfl, rfl, rfl, rfl, rfl, rfl⟩ := own
  exact ⟨rfl, rfl⟩

theorem fire_listening {openSettled : Bool} {outcome : ConnectOutcome} (event : WebSocketEvent)
    (own : h.core = listeningCore o openSettled outcome) :
    ((h.fire event).record, (h.fire event).core) = match event with
      | .opens => (h.record, h.core)
      | .error reason =>
        (h.record, goneCore .resolved openSettled true (outcome.settle (.rejected reason)))
      | .close =>
        (h.record, goneCore .resolved openSettled true (outcome.settle (.rejected closedBeforeId)))
      | .message data =>
        ((h.options, h.messages ++ [data], h.reading ++ [h.messages.length], h.texts, h.sent),
          h.core) := by
  obtain ⟨⟨OPEN, CLOSING, CLOSED, readyState, listeners⟩, options, opened, openSettled', openTimer,
    awaited, settled, timer, outcome', messages, reading, texts, sent⟩ := h
  simp only [core, listeningCore, Prod.mk.injEq] at own
  obtain ⟨rfl, rfl, rfl, rfl, rfl, rfl, rfl, rfl⟩ := own
  cases event <;> rfl

/-- A settled outcome is not settled again. -/
theorem settle_kept {outcome : ConnectOutcome} (result : ConnectOutcome)
    (settled : outcome ≠ .pending) :
    outcome.settle result = outcome := if_neg settled

theorem settle_ended {outcome result : ConnectOutcome} (decides : result ≠ .pending) :
    outcome.settle result ≠ .pending := by
  unfold ConnectOutcome.settle
  split
  · exact decides
  · assumption

/-- A pending promise has read no id, and a resolved one the id that was read first. -/
def Answers (o : WebSocketConnectionIdOptions) (texts : List (Nat × Except JSString JSString)) :
    ConnectOutcome → Prop
  | .pending => ∀ p ∈ texts, judge o p.2 = .pending
  | .resolved connectionId =>
    ∃ before p after, texts = before ++ p :: after ∧ judge o p.2 = .resolved connectionId ∧
      ∀ q ∈ before, judge o q.2 = .pending
  | .rejected _ => True

/-- Every message is read once at most, and read as it is. -/
structure Heard (h : ConnectionIdCall) : Prop where
  once : (h.reading ++ h.texts.map Prod.fst).Perm (List.range h.messages.length)
  same : ∀ p ∈ h.texts, ∃ data, h.messages[p.1]? = some data ∧ readAs data p.2

/-- What was sent by a call that listens: the message, or nothing if this failed. -/
def Asked (o : WebSocketConnectionIdOptions) (sent : List JSString) (outcome : ConnectOutcome) :
    Prop :=
  sent = o.request ∧ outcome = .pending ∨ sent = [] ∧ o.request ≠ [] ∧ outcome ≠ .pending

/-- Where the call stands, and what it then has of itself. -/
inductive Stage (o : WebSocketConnectionIdOptions) (h : ConnectionIdCall) : Handshake → Prop where
  | opening : h.core = openingCore o → h.messages = [] → h.sent = [] → Stage o h .opening
  | opened (openSettled : Bool) : h.core = openedCore .resolved openSettled → h.messages = [] →
      h.sent = [] → Stage o h .opened
  | failed (openSettled : Bool) (reason : JSString) :
      h.core = openedCore (.rejected reason) openSettled → h.messages = [] → h.sent = [] →
      Stage o h (.failed reason)
  | listening (openSettled : Bool) (outcome : ConnectOutcome) :
      h.core = listeningCore o openSettled outcome →
      Asked o h.sent outcome → Stage o h (.listening outcome)
  | gone (result : OpenPromise) (openSettled settled : Bool) (outcome : ConnectOutcome) :
      h.core = goneCore result openSettled settled outcome → outcome ≠ .pending →
      (h.sent = [] ∨ h.sent = o.request ∧ result = .resolved) → Stage o h (.ended outcome)

structure Sound (o : WebSocketConnectionIdOptions) (h : ConnectionIdCall) (s : Handshake) : Prop where
  options : h.options = o
  heard : Heard h
  answers : Answers o h.texts h.outcome
  stage : Stage o h s

theorem sound_begin (ws : WebSocketCompartible ConnectListener) (o : WebSocketConnectionIdOptions) :
    Sound o (begin ws o) (.start ws) := by
  have fresh : ({ ws with listeners := [] } : WebSocketCompartible ConnectListener).isOpen =
      ws.isOpen := rfl
  cases isOpen : ws.isOpen with
  | true =>
    rw [begin, waitWebSocketOpen, fresh, if_pos isOpen, Handshake.start, if_pos isOpen]
    exact ⟨rfl, ⟨.refl _, fun _ mem => (nomatch mem)⟩, fun _ mem => (nomatch mem),
      .opened false rfl rfl rfl⟩
  | false =>
    have closed : ¬ ws.isOpen = true := by simp [isOpen]
    rw [begin, waitWebSocketOpen, fresh, if_neg closed, Handshake.start, if_neg closed]
    exact ⟨rfl, ⟨.refl _, fun _ mem => (nomatch mem)⟩, fun _ mem => (nomatch mem),
      .opening rfl rfl rfl⟩

/-! ## One event -/

variable {s : Handshake}

theorem answers_rejected {texts : List (Nat × Except JSString JSString)} {outcome : ConnectOutcome}
    (answers : Answers o texts outcome) (reason : JSString) :
    Answers o texts (outcome.settle (.rejected reason)) := by
  unfold ConnectOutcome.settle
  split
  · trivial
  · exact answers

theorem Heard.congr (heard : Heard h) (messages : h'.messages = h.messages)
    (reading : h'.reading = h.reading) (texts : h'.texts = h.texts) : Heard h' := by
  constructor
  · rw [reading, texts, messages]
    exact heard.once
  · rw [texts, messages]
    exact heard.same

theorem texts_of_record (same : h'.record = h.record) : h'.texts = h.texts :=
  congrArg (·.2.2.2.1) same

theorem Heard.of_record (heard : Heard h) (same : h'.record = h.record) : Heard h' :=
  heard.congr (congrArg (·.2.1) same) (congrArg (·.2.2.1) same) (texts_of_record same)

/-- An event that leaves the record as it was. -/
theorem Sound.move (sound : Sound o h s) {s' : Handshake} {outcome : ConnectOutcome}
    (same : h'.record = h.record) (now : h'.outcome = outcome) (answers : Answers o h.texts outcome)
    (stage : Stage o h' s') : Sound o h' s' where
  options := (congrArg (·.1) same).trans sound.options
  heard := sound.heard.of_record same
  answers := by
    rw [texts_of_record same, now]
    exact answers
  stage := stage

theorem outcome_of_core {c : Core} (own : h.core = c) : h.outcome = c.2.2.2.2.2.2.2 :=
  congrArg (·.2.2.2.2.2.2.2) own

theorem messages_of_record (same : h'.record = h.record) : h'.messages = h.messages :=
  congrArg (·.2.1) same

theorem sent_of_record (same : h'.record = h.record) : h'.sent = h.sent :=
  congrArg (·.2.2.2.2) same

/-- A call that listened and whose promise an event settles. -/
theorem Sound.settles (sound : Sound o h s) {openSettled : Bool} {outcome : ConnectOutcome}
    {reason : JSString} (own : h.core = listeningCore o openSettled outcome)
    (sent : Asked o h.sent outcome) (same : h'.record = h.record)
    (core : h'.core = goneCore .resolved openSettled true (outcome.settle (.rejected reason))) :
    Sound o h' (.ended (outcome.settle (.rejected reason))) := by
  refine sound.move same (outcome_of_core core) ?_ (.gone _ _ _ _ core (settle_ended nofun) ?_)
  · have answers := sound.answers
    rw [outcome_of_core own] at answers
    exact answers_rejected answers reason
  · rw [sent_of_record same]
    obtain ⟨sent, -⟩ | ⟨none, -⟩ := sent
    · exact .inr ⟨sent, rfl⟩
    · exact .inl none

/-- A message comes to a call that listens. -/
theorem Sound.hears (sound : Sound o h s) {openSettled : Bool} {outcome : ConnectOutcome}
    (own : h.core = listeningCore o openSettled outcome)
    (sent : Asked o h.sent outcome) {data : Option JSString}
    (same : h'.record = (h.options, h.messages ++ [data], h.reading ++ [h.messages.length], h.texts,
      h.sent)) (core : h'.core = h.core) : Sound o h' (.listening outcome) := by
  simp only [record, Prod.mk.injEq] at same
  obtain ⟨options, messages, reading, texts, kept⟩ := same
  refine ⟨options.trans sound.options, ⟨?_, ?_⟩, ?_, .listening openSettled outcome (core.trans own) ?_⟩
  · rw [reading, texts, messages, List.length_append, List.length_singleton, List.range_succ]
    have back : (h.reading ++ [h.messages.length] ++ h.texts.map Prod.fst).Perm
        (h.reading ++ h.texts.map Prod.fst ++ [h.messages.length]) := by
      rw [List.append_assoc, List.append_assoc]
      exact List.perm_append_comm.append_left _
    exact back.trans (sound.heard.once.append_right _)
  · rw [texts, messages]
    intro p mem
    obtain ⟨data', found, read⟩ := sound.heard.same p mem
    exact ⟨data', by rw [List.getElem?_append_left (List.getElem?_eq_some_iff.mp found).1, found], read⟩
  · rw [texts, outcome_of_core (core.trans own)]
    exact (outcome_of_core own) ▸ sound.answers
  · rw [kept]
    exact sent

theorem Handshake.fires_listening (outcome : ConnectOutcome) (event : WebSocketEvent) :
    Handshake.step o (.listening outcome) (.fires event) = match event with
      | .error reason => .ended (outcome.settle (.rejected reason))
      | .close => .ended (outcome.settle (.rejected closedBeforeId))
      | _ => .listening outcome := by
  cases outcome <;> cases event <;> rfl

theorem sound_fires (sound : Sound o h s) (event : WebSocketEvent) :
    Sound o (h.fire event) (s.step o (.fires event)) := by
  have answers := sound.answers
  cases sound.stage with
  | opening own messages sent =>
    obtain ⟨same, core⟩ := fire_opening event own
    rw [outcome_of_core own] at answers
    have none := (messages_of_record same).trans messages
    have quiet := (sent_of_record same).trans sent
    cases event with
    | opens => exact sound.move same (outcome_of_core core) answers (.opened true core none quiet)
    | error reason =>
      exact sound.move same (outcome_of_core core) answers (.failed true reason core none quiet)
    | close =>
      exact sound.move same (outcome_of_core core) answers
        (.failed true closedBeforeOpen core none quiet)
    | message data => exact sound.move same (outcome_of_core core) answers (.opening core none quiet)
  | opened openSettled own messages sent =>
    obtain ⟨same, core⟩ := fire_idle event (congrArg (·.1) own)
    exact sound.move same (outcome_of_core core) answers (.opened openSettled (core.trans own)
      ((messages_of_record same).trans messages) ((sent_of_record same).trans sent))
  | failed openSettled reason own messages sent =>
    obtain ⟨same, core⟩ := fire_idle event (congrArg (·.1) own)
    exact sound.move same (outcome_of_core core) answers (.failed openSettled reason
      (core.trans own) ((messages_of_record same).trans messages) ((sent_of_record same).trans sent))
  | listening openSettled outcome own sent =>
    have fired := fire_listening event own
    rw [Handshake.fires_listening]
    cases event with
    | opens =>
      obtain ⟨same, core⟩ := Prod.mk.inj fired
      exact sound.move same (outcome_of_core core) answers
        (.listening openSettled outcome (core.trans own) ((sent_of_record same).symm ▸ sent))
    | error reason =>
      obtain ⟨same, core⟩ := Prod.mk.inj fired
      exact sound.settles own sent same core
    | close =>
      obtain ⟨same, core⟩ := Prod.mk.inj fired
      exact sound.settles own sent same core
    | message data =>
      obtain ⟨same, core⟩ := Prod.mk.inj fired
      exact sound.hears own sent same core
  | gone result openSettled settled outcome own ended sent =>
    obtain ⟨same, core⟩ := fire_idle event (congrArg (·.1) own)
    exact sound.move same (outcome_of_core core) answers (.gone result openSettled settled outcome
      (core.trans own) ended ((sent_of_record same).symm ▸ sent))

theorem sound_openTimeout (sound : Sound o h s) (hstep : h.step .openTimeout = some h') :
    Sound o h' (s.step o .openTimeout) := by
  obtain ⟨runs, next⟩ := Option.ite_none_right_eq_some.mp hstep
  have answers := sound.answers
  cases sound.stage with
  | opening own messages sent =>
    obtain ⟨same, core⟩ : h'.record = h.record ∧
        h'.core = openedCore (.rejected o.openTimeoutError) true := by
      obtain rfl := Option.some.inj next
      rw [← sound.options] at own ⊢
      obtain ⟨⟨OPEN, CLOSING, CLOSED, readyState, listeners⟩, options, opened, openSettled,
        openTimer, awaited, settled, timer, outcome, messages, reading, texts, sent⟩ := h
      simp only [ConnectionIdCall.core, openingCore, Prod.mk.injEq] at own
      obtain ⟨rfl, rfl, rfl, rfl, rfl, rfl, rfl, rfl⟩ := own
      exact ⟨rfl, rfl⟩
    rw [outcome_of_core own] at answers
    exact sound.move same (outcome_of_core core) answers (.failed true o.openTimeoutError core
      ((messages_of_record same).trans messages) ((sent_of_record same).trans sent))
  | opened _ own _ _ | failed _ _ own _ _ | listening _ _ own _ | gone _ _ _ _ own _ _ =>
    have stopped : h.openTimer = false := congrArg (·.2.2.2.1) own
    rw [stopped] at runs
    cases runs

theorem sound_timeout (sound : Sound o h s) (hstep : h.step .timeout = some h') :
    Sound o h' (s.step o .timeout) := by
  obtain ⟨runs, next⟩ := Option.ite_none_right_eq_some.mp hstep
  cases sound.stage with
  | listening openSettled outcome own sent =>
    obtain ⟨same, core⟩ : h'.record = h.record ∧ h'.core =
        goneCore .resolved openSettled true (outcome.settle (.rejected o.timeoutError)) := by
      obtain rfl := Option.some.inj next
      rw [← sound.options] at own ⊢
      obtain ⟨⟨OPEN, CLOSING, CLOSED, readyState, listeners⟩, options, opened, openSettled',
        openTimer, awaited, settled, timer, outcome', messages, reading, texts, sent⟩ := h
      simp only [ConnectionIdCall.core, listeningCore, Prod.mk.injEq] at own
      obtain ⟨rfl, rfl, rfl, rfl, rfl, rfl, rfl, rfl⟩ := own
      exact ⟨rfl, rfl⟩
    have moved : Handshake.step o (.listening outcome) .timeout =
        .ended (outcome.settle (.rejected o.timeoutError)) := by
      cases outcome <;> rfl
    rw [moved]
    exact sound.settles own sent same core
  | opening own _ _ | opened _ own _ _ | failed _ _ own _ _ | gone _ _ _ _ own _ _ =>
    have stopped : h.timer = false := congrArg (·.2.2.2.2.2.2.1) own
    rw [stopped] at runs
    cases runs

/-- The call goes on: it listens, and sends what it is to send. -/
theorem proceed_opened {openSettled : Bool} {throws : Option JSString} (options : h.options = o)
    (own : h.core = openedCore .resolved openSettled) (hstep : h.step (.proceed throws) = some h') :
    ∃ g : ConnectionIdCall, g.record = h.record ∧
      g.core = listeningCore o openSettled .pending ∧ h' = g.request throws := by
  refine ⟨({ h with awaited := true } : ConnectionIdCall).listen, ?_⟩
  obtain ⟨⟨OPEN, CLOSING, CLOSED, readyState, listeners⟩, options', opened, openSettled',
    openTimer, awaited, settled, timer, outcome, messages, reading, texts, sent⟩ := h
  obtain rfl : options' = o := options
  simp only [core, openedCore, Prod.mk.injEq] at own
  obtain ⟨rfl, rfl, rfl, rfl, rfl, rfl, rfl, rfl⟩ := own
  exact ⟨rfl, rfl, (Option.some.inj hstep).symm⟩

theorem sound_proceed (sound : Sound o h s) {throws : Option JSString}
    (hstep : h.step (.proceed throws) = some h') : Sound o h' (s.step o (.proceed throws)) := by
  have answers := sound.answers
  have options := sound.options
  cases sound.stage with
  | opening own _ _ =>
    have waits : h.opened = .pending := congrArg (·.2.1) own
    simp [step, proceed, waits] at hstep
  | opened openSettled own messages sent =>
    obtain ⟨g, same, core, rfl⟩ := proceed_opened options own hstep
    rw [outcome_of_core own] at answers
    have quiet := (sent_of_record same).trans sent
    have same_options : g.options = o := (congrArg (·.1) same).trans options
    by_cases none : o.request = []
    · have silent : g.request throws = g := if_pos (same_options ▸ none)
      have moved : Handshake.step o .opened (.proceed throws) = .listening .pending := by
        cases throws with
        | none => rfl
        | some error => exact if_pos none
      rw [silent, moved]
      exact sound.move same (outcome_of_core core) answers
        (.listening openSettled .pending core (.inl ⟨quiet.trans none.symm, rfl⟩))
    · have asks : ¬ g.options.request = [] := same_options ▸ none
      cases throws with
      | none =>
        have sends : g.request .none = { g with sent := g.sent ++ g.options.request } := if_neg asks
        have asked : g.sent ++ g.options.request = o.request := by
          rw [quiet, same_options, List.nil_append]
        rw [sends]
        refine ⟨same_options, (sound.heard.of_record same).congr rfl rfl rfl, ?_,
          .listening openSettled .pending core (.inl ⟨asked, rfl⟩)⟩
        have kept : Answers o g.texts g.outcome := by
          rw [texts_of_record same, outcome_of_core core]
          exact answers
        exact kept
      | some error =>
        have fails : g.request (some error) =
            { g with outcome := g.outcome.settle (.rejected error) } := if_neg asks
        have moved : Handshake.step o .opened (.proceed (some error)) = .ended (.rejected error) :=
          if_neg none
        rw [fails, moved, outcome_of_core core]
        have core' : ({ g with outcome := .rejected error } : ConnectionIdCall).core =
            listeningCore o openSettled (.rejected error) := by
          simp only [ConnectionIdCall.core, listeningCore, Prod.mk.injEq] at core ⊢
          simp only [core, and_self]
        exact sound.move same rfl trivial
          (.listening openSettled (.rejected error) core' (.inr ⟨quiet, none, nofun⟩))
  | failed openSettled reason own messages sent =>
    obtain ⟨same, core⟩ : h'.record = h.record ∧
        h'.core = goneCore (.rejected reason) openSettled false (.rejected reason) := by
      obtain ⟨⟨OPEN, CLOSING, CLOSED, readyState, listeners⟩, options, opened, openSettled',
        openTimer, awaited, settled, timer, outcome', messages, reading, texts, sent⟩ := h
      simp only [ConnectionIdCall.core, openedCore, Prod.mk.injEq] at own
      obtain ⟨rfl, rfl, rfl, rfl, rfl, rfl, rfl, rfl⟩ := own
      obtain rfl := Option.some.inj hstep
      exact ⟨rfl, rfl⟩
    exact sound.move same (outcome_of_core core) trivial (.gone _ _ _ _ core nofun
      (.inl ((sent_of_record same).trans sent)))
  | listening _ _ own _ | gone _ _ _ _ own _ _ =>
    have awaited : h.awaited = true := congrArg (·.2.2.2.2.1) own
    simp [step, proceed, awaited] at hstep

theorem step_read {i : Nat} {result : Except JSString JSString}
    (hstep : h.step (.read i result) = some h') : ∃ data, h.messages[i]? = some data ∧
      i ∈ h.reading ∧ readAs data result ∧
      (h.after i result).read result = h' := by
  simp only [step] at hstep
  split at hstep
  · rename_i data found
    obtain ⟨⟨mem, same⟩, next⟩ := Option.ite_none_right_eq_some.mp hstep
    exact ⟨data, found, mem, same, Option.some.inj next⟩
  · cases hstep

/-- A reading ends. -/
theorem Heard.read {i : Nat} {result : Except JSString JSString} {data : Option JSString}
    (heard : Heard h) (found : h.messages[i]? = some data) (mem : i ∈ h.reading)
    (same : readAs data result) :
    Heard (h.after i result) where
  once := by
    have back : ((h.after i result).reading ++ (h.after i result).texts.map Prod.fst).Perm
        (h.reading ++ h.texts.map Prod.fst) := by
      rw [after, List.map_append, List.map_singleton]
      refine (List.perm_append_comm.append_left _).trans ?_
      rw [← List.append_assoc]
      exact (List.perm_append_comm.trans (List.perm_cons_erase mem).symm).append_right _
    exact back.trans heard.once
  same p hp := by
    rcases List.mem_append.mp hp with hp | hp
    · exact heard.same p hp
    · obtain rfl := List.mem_singleton.mp hp
      exact ⟨data, found, same⟩

/-- What a reading tells a promise. -/
theorem Answers.read {texts : List (Nat × Except JSString JSString)} {outcome : ConnectOutcome}
    (answers : Answers o texts outcome) (i : Nat) (result : Except JSString JSString) :
    Answers o (texts ++ [(i, result)]) (outcome.settle (judge o result)) := by
  cases outcome with
  | pending =>
    change Answers o _ (judge o result)
    cases judged : judge o result with
    | pending =>
      intro p mem
      rcases List.mem_append.mp mem with mem | mem
      · exact answers p mem
      · obtain rfl := List.mem_singleton.mp mem
        exact judged
    | resolved connectionId => exact ⟨texts, (i, result), [], rfl, judged, answers⟩
    | rejected reason => trivial
  | resolved connectionId =>
    obtain ⟨before, p, after, rfl, found, none⟩ := answers
    exact ⟨before, p, after ++ [(i, result)], by simp, found, none⟩
  | rejected reason => trivial

theorem read_eq (h : ConnectionIdCall) (result : Except JSString JSString) :
    h.read result = if judge h.options result = .pending then h
      else h.settleOnce (judge h.options result) := by
  unfold ConnectionIdCall.read
  split
  · rename_i none
    rw [if_pos none]
  · rename_i some
    rw [if_neg some]

theorem settle_pending (outcome : ConnectOutcome) : outcome.settle .pending = outcome := by
  cases outcome <;> rfl

theorem settleOnce_gone {result : OpenPromise} {openSettled settled : Bool}
    {outcome : ConnectOutcome} (late : ConnectOutcome) (ended : outcome ≠ .pending)
    (own : h.core = goneCore result openSettled settled outcome) :
    (h.settleOnce late).record = h.record ∧
      ∃ settled', (h.settleOnce late).core = goneCore result openSettled settled' outcome := by
  obtain ⟨⟨OPEN, CLOSING, CLOSED, readyState, listeners⟩, options, opened, openSettled', openTimer,
    awaited, settled', timer, outcome', messages, reading, texts, sent⟩ := h
  simp only [core, goneCore, Prod.mk.injEq] at own
  obtain ⟨rfl, rfl, rfl, rfl, rfl, rfl, rfl, rfl⟩ := own
  cases settled' with
  | true => exact ⟨rfl, true, rfl⟩
  | false =>
    refine ⟨rfl, true, ?_⟩
    have kept := settle_kept late ended
    simp [core, goneCore, settleOnce, kept, WebSocketCompartible.removeEventListener]

theorem Handshake.reads_listening (outcome : ConnectOutcome) (i : Nat)
    (result : Except JSString JSString) :
    Handshake.step o (.listening outcome) (.read i result) =
      .listening (outcome.settle (judge o result)) := by
  cases outcome <;> rfl

theorem Handshake.listening_ended {outcome : ConnectOutcome} (ended : outcome ≠ .pending) :
    Handshake.listening outcome = .ended outcome := by
  cases outcome with
  | pending => exact absurd rfl ended
  | _ => rfl

theorem sound_read (sound : Sound o h s) {i : Nat} {result : Except JSString JSString}
    (hstep : h.step (.read i result) = some h') : Sound o h' (s.step o (.read i result)) := by
  obtain ⟨data, found, mem, same, rfl⟩ := step_read hstep
  have heard := sound.heard.read found mem same
  obtain rfl := sound.options
  have options : (h.after i result).options = h.options := rfl
  rw [read_eq, options]
  have unheard : h.messages = [] → False := by
    intro none
    rw [none] at found
    cases found
  cases sound.stage with
  | opening _ none _ | opened _ _ none _ | failed _ _ _ none _ => exact (unheard none).elim
  | listening openSettled outcome own sent =>
    have now : h.outcome = outcome := outcome_of_core own
    have answers := sound.answers.read i result
    rw [now] at answers
    rw [Handshake.reads_listening]
    split
    · rename_i none
      rw [none, settle_pending] at answers ⊢
      exact ⟨rfl, heard, now.symm ▸ answers, .listening openSettled outcome own sent⟩
    · rename_i decides
      have ended : outcome.settle (judge h.options result) ≠ .pending := settle_ended decides
      obtain ⟨kept, core⟩ := settleOnce_listening (h := h.after i result) (judge h.options result) own
      rw [Handshake.listening_ended ended]
      refine ⟨congrArg (·.1) kept, heard.of_record kept, ?_, .gone _ _ _ _ core ended ?_⟩
      · rw [texts_of_record kept, outcome_of_core core]
        exact answers
      · obtain ⟨sent, -⟩ | ⟨none, -⟩ := sent
        · exact .inr ⟨(sent_of_record kept).trans sent, rfl⟩
        · exact .inl ((sent_of_record kept).trans none)
  | gone result' openSettled settled outcome own ended sent =>
    have now : h.outcome = outcome := outcome_of_core own
    have answers := sound.answers.read i result
    rw [now, settle_kept _ ended] at answers
    change Sound _ _ (.ended outcome)
    split
    · exact ⟨rfl, heard, now.symm ▸ answers, .gone result' openSettled settled outcome own ended sent⟩
    · obtain ⟨kept, settled', core⟩ :=
        settleOnce_gone (h := h.after i result) (judge h.options result) ended own
      refine ⟨congrArg (·.1) kept, heard.of_record kept, ?_, .gone _ _ _ _ core ended ?_⟩
      · rw [texts_of_record kept, outcome_of_core core]
        exact answers
      · rw [sent_of_record kept]
        exact sent

theorem sound_step {e : ConnectEvent} (sound : Sound o h s) (hstep : h.step e = some h') :
    Sound o h' (s.step o e) := by
  cases e with
  | fires event =>
    obtain rfl := Option.some.inj hstep
    exact sound_fires sound event
  | openTimeout => exact sound_openTimeout sound hstep
  | proceed throws => exact sound_proceed sound hstep
  | read i result => exact sound_read sound hstep
  | timeout => exact sound_timeout sound hstep

theorem sound_run {es : List ConnectEvent} (run : exec step h es = some h') (sound : Sound o h s) :
    Sound o h' (es.foldl (Handshake.step o) s) := by
  induction es generalizing h s with
  | nil =>
    obtain rfl : h = h' := by simpa [exec] using run
    exact sound
  | cons e es ih =>
    obtain ⟨h₁, hstep, rest⟩ := Option.bind_eq_some_iff.mp run
    exact ih rest (sound_step sound hstep)

theorem judge_resolved {result : Except JSString JSString} {connectionId : JSString}
    (judged : judge o result = .resolved connectionId) :
    ∃ raw, result = .ok raw ∧ o.idIn raw = .ok (some connectionId) := by
  unfold judge at judged
  split at judged
  · cases judged
  · rename_i raw
    split at judged
    · cases judged
    · rename_i found
      cases judged
      exact ⟨raw, rfl, found⟩
    · cases judged

theorem getD_of_readAs {data : Option JSString} {raw : JSString} (same : readAs data (.ok raw)) :
    data.getD raw = raw := by
  cases data with
  | none => rfl
  | some text => exact (of_decide_eq_true same).symm

/-- The outcome is the one of the handshake. -/
theorem Stage.outcome_eq (stage : Stage o h s) : s.outcome = h.outcome := by
  cases stage with
  | listening _ outcome own _ =>
    rw [outcome_of_core own]
    cases outcome <;> rfl
  | opening own _ _ | opened _ own _ _ | failed _ _ own _ _ | gone _ _ _ _ own _ _ =>
    rw [outcome_of_core own]
    rfl

theorem Stage.asks_once (stage : Stage o h s) :
    h.sent = [] ∨ h.sent = o.request ∧ h.opened = .resolved := by
  cases stage with
  | opening _ _ none | opened _ _ _ none | failed _ _ _ _ none => exact .inl none
  | listening _ _ own sent =>
    obtain ⟨sent, -⟩ | ⟨none, -⟩ := sent
    · exact .inr ⟨sent, congrArg (·.2.1) own⟩
    · exact .inl none
  | gone result _ _ _ own _ sent =>
    obtain none | ⟨sent, opened⟩ := sent
    · exact .inl none
    · exact .inr ⟨sent, (congrArg (·.2.1) own).trans opened⟩

/-- A pending call can go on, or has a timer that ends it. -/
theorem Stage.goes_on (stage : Stage o h s) (pending : h.outcome = .pending) :
    (h.step (.proceed none)).isSome ∨ (o.timed → h.openTimer ∨ h.timer) := by
  have fields : ∀ {c}, h.core = c → h.opened = c.2.1 ∧ h.openTimer = c.2.2.2.1 ∧
      h.awaited = c.2.2.2.2.1 ∧ h.timer = c.2.2.2.2.2.2.1 := by
    rintro c rfl
    exact ⟨rfl, rfl, rfl, rfl⟩
  cases stage with
  | opening own _ _ =>
    obtain ⟨-, openTimer, -, -⟩ := fields own
    exact .inr fun timed => .inl (openTimer.trans timed)
  | opened _ own _ _ =>
    obtain ⟨opened, -, awaited, -⟩ := fields own
    left
    simp [step, proceed, show h.awaited = false from awaited, show h.opened = .resolved from opened]
  | failed _ reason own _ _ =>
    obtain ⟨opened, -, awaited, -⟩ := fields own
    left
    simp [step, proceed, show h.awaited = false from awaited,
      show h.opened = .rejected reason from opened]
  | listening _ _ own _ =>
    obtain ⟨-, -, -, timer⟩ := fields own
    exact .inr fun timed => .inr (timer.trans timed)
  | gone _ _ _ _ own ended _ => exact absurd ((outcome_of_core own).symm.trans pending) ended

/-- A settled call has nothing left, unless it was opened and could not send. -/
theorem Stage.leaves_nothing (stage : Stage o h s) (ended : h.outcome ≠ .pending)
    (sends : h.opened = .resolved → h.sent = o.request) :
    h.ws.listeners = [] ∧ h.openTimer = false ∧ h.timer = false := by
  cases stage with
  | opening own _ _ | opened _ own _ _ | failed _ _ own _ _ =>
    exact absurd (outcome_of_core own) ended
  | listening _ outcome own sent =>
    obtain ⟨-, pending⟩ | ⟨none, asks, -⟩ := sent
    · exact absurd ((outcome_of_core own).trans pending) ended
    · have sent := sends (congrArg (·.2.1) own)
      rw [none] at sent
      exact absurd sent.symm asks
  | gone _ _ _ _ own _ _ =>
    exact ⟨congrArg (·.1) own, congrArg (·.2.2.2.1) own, congrArg (·.2.2.2.2.2.2.1) own⟩

/-- **The first id wins.** Whatever the socket, the timers and the readings do, in any order:
the promise is settled as the first event that matters decides, with an id only if this is
what the first reading of a message that has one gave. The connect message is sent at most
once, after `waitWebSocketOpen` has resolved. As long as the promise is pending the call can
go on or a timer runs; once it is settled, no listener and no timer is left, unless the
message could not be sent. -/
theorem first_connection_id_wins {ws : WebSocketCompartible ConnectListener}
    {options : WebSocketConnectionIdOptions} {es : List ConnectEvent}
    (run : exec step (begin ws options) es = some h) :
    (es.foldl (Handshake.step options) (.start ws)).outcome = h.outcome ∧
      (h.reading ++ h.texts.map Prod.fst).Perm (List.range h.messages.length) ∧
      (h.outcome = .pending → ∀ p ∈ h.texts, judge options p.2 = .pending) ∧
      (∀ connectionId, h.outcome = .resolved connectionId → ∃ before i raw data after,
        h.texts = before ++ (i, .ok raw) :: after ∧ h.messages[i]? = some data ∧
          data.getD raw = raw ∧ options.idIn raw = .ok (some connectionId) ∧
          ∀ q ∈ before, judge options q.2 = .pending) ∧
      (h.sent = [] ∨ h.sent = options.request ∧ h.opened = .resolved) ∧
      (h.outcome = .pending → (h.step (.proceed none)).isSome ∨
        (options.timed → h.openTimer ∨ h.timer)) ∧
      (h.outcome ≠ .pending → (h.opened = .resolved → h.sent = options.request) →
        h.ws.listeners = [] ∧ h.openTimer = false ∧ h.timer = false) := by
  have sound := sound_run run (sound_begin ws options)
  have answers := sound.answers
  refine ⟨sound.stage.outcome_eq, sound.heard.once, fun pending => ?_, fun connectionId resolved => ?_,
    sound.stage.asks_once, sound.stage.goes_on, sound.stage.leaves_nothing⟩
  · rw [pending] at answers
    exact answers
  · rw [resolved] at answers
    obtain ⟨before, ⟨i, result⟩, after, texts, judged, none⟩ := answers
    obtain ⟨raw, rfl, found⟩ := judge_resolved judged
    obtain ⟨data, message, same⟩ := sound.heard.same (i, .ok raw) (by simp [texts])
    exact ⟨before, i, raw, data, after, texts, message, getD_of_readAs same, found, none⟩

/-! Of two messages the second is read first, and has the id. -/

def saves : WebSocketConnectionIdOptions := ⟨some (lit "save"), none, none⟩

def secondId : JSString := lit "\x7b\"data\":\x7b\"connId\":\"c2\"\x7d\x7d"

def twoAnswers : List ConnectEvent :=
  [.fires .opens, .proceed none, .fires (.message none), .fires (.message (some secondId)),
    .read 1 (.ok secondId), .read 0 (.ok (lit "\x7b\"id\":\"c1\"\x7d"))]

theorem first_connection_id_wins_second :
    ∃ h, exec step (begin ⟨none, none, none, 0, []⟩ saves) twoAnswers = some h ∧
      h.outcome = .resolved (lit "c2") ∧ h.sent = [lit "save"] ∧ h.ws.listeners = [] ∧
      h.openTimer = false ∧ h.timer = false := by
  have possible : (exec step (begin ⟨none, none, none, 0, []⟩ saves) twoAnswers).isSome = true := by
    decide +kernel
  obtain ⟨h, run⟩ := Option.isSome_iff_exists.mp possible
  have outcome : h.outcome = .resolved (lit "c2") := by
    have all : ∀ h ∈ exec step (begin ⟨none, none, none, 0, []⟩ saves) twoAnswers,
        h.outcome = .resolved (lit "c2") := by decide +kernel
    exact all h run
  have sent : h.sent = [lit "save"] := by
    have all : ∀ h ∈ exec step (begin ⟨none, none, none, 0, []⟩ saves) twoAnswers,
        h.sent = [lit "save"] := by decide +kernel
    exact all h run
  obtain ⟨-, -, -, -, -, -, left⟩ := first_connection_id_wins run
  refine ⟨h, run, outcome, sent, left ?_ fun _ => sent⟩
  rw [outcome]
  exact nofun

end ConnectionIdCall

end LemonModel
