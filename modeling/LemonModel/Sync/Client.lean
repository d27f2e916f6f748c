import LemonModel.Base.Dict
import LemonModel.Base.Run
import LemonModel.Transport.Packet
import LemonModel.Transport.Value

/-!
# The socket client

`SocketClient`: its pending requests and their timers. `send` and the listeners are
calls out of the client and stay open until they return or throw, so that anything
else a caller can do may come in between; a timer only fires when nothing runs.
A request is named by its mid.
-/

namespace LemonModel

open Text

/-- What the client reads of a `SocketMessage`. -/
structure ClientMessage where
  type : JSString
  mid : Option JSString
  data : Option Json

/-- How the promise of a request is settled. -/
inductive RequestSettlement where
  | resolved (data : Option Json)
  | rejected (data : Option Json)
  /-- with an `Error` of the client's own -/
  | failed (message : JSString)
  /-- with what `send` threw -/
  | thrown (error : JSString)
  deriving DecidableEq

structure PendingRequest where
  type : JSString
  timer : Bool

/-- What the callback of a timer holds on to. -/
structure RequestTimer where
  type : JSString
  mid : JSString
  timeoutMs : Decimal
  deriving DecidableEq

/-- A timeout that tells the error listeners, those left first. -/
structure TimeoutNotice where
  timer : RequestTimer
  listeners : List Nat

/-- A message on its way through the listeners of `onMessage`, or of its type. -/
structure Dispatch where
  message : ClientMessage
  listeners : List Nat
  typed : Bool

/-- A client. `sending` has the requests whose `send` did not return, `accepted` those
that were not refused, and `fired` those whose timer went off. -/
structure SocketClient where
  timeoutMs : Decimal
  maxPending : Option Nat
  pending : Dict JSString PendingRequest
  typeListeners : Dict JSString (List Nat)
  messageListeners : List Nat
  errorListeners : List Nat
  closed : Bool
  timers : List RequestTimer
  sending : List JSString
  notice : Option TimeoutNotice
  dispatches : List Dispatch
  wire : List JSString
  accepted : List JSString
  refused : List JSString
  settled : Dict JSString RequestSettlement
  fired : List JSString
  heard : List (Nat × ClientMessage)

/-- `parsed` as an envelope. -/
def readMessage (raw : JSString) : Option ClientMessage := do
  let parsed ← parse raw
  let type ← strField parsed (lit "type")
  some ⟨type, strField parsed (lit "mid"), parsed.prop? (lit "data")⟩

def ClientMessage.isReply (m : ClientMessage) : Bool :=
  m.type = lit "result" ∨ m.type = lit "error"

namespace SocketClient

def create (timeoutMs : Decimal) (maxPending : Option Nat) : SocketClient :=
  { timeoutMs := timeoutMs, maxPending := maxPending, pending := .empty, typeListeners := .empty
    messageListeners := [], errorListeners := [], closed := false, timers := [], sending := []
    notice := none, dispatches := [], wire := [], accepted := [], refused := []
    settled := .empty, fired := [], heard := [] }

def pendingCount (s : SocketClient) : Nat := s.pending.size

/-- A promise that is settled stays as it is. -/
def settle (s : SocketClient) (mid : JSString) (how : RequestSettlement) : SocketClient :=
  if s.settled.has mid then s else { s with settled := s.settled.set mid how }

def clearTimeout (s : SocketClient) (mid : JSString) : SocketClient :=
  { s with timers := s.timers.filter (·.mid ≠ mid) }

def envelope (type : JSString) (data : JSValue) (mid : JSString) : JSString :=
  (Json.obj ((lit "type", .str type) :: (data.image.map fun d => (lit "data", d)).toList ++
    [(lit "mid", .str mid)])).text

/-! ## Requests -/

def closedError (type : JSString) : JSString :=
  lit "@socketClient is closed - socketClient.request(" ++ type ++ lit ")"

def pendingError (size limit : Nat) (type : JSString) : JSString :=
  lit "@pending[" ++ natText size ++ lit "] exceeds maxPending[" ++ natText limit ++
    lit "] - socketClient.request(" ++ type ++ lit ")"

def timeoutError (t : RequestTimer) : JSString :=
  lit "@request[" ++ t.type ++ lit ":" ++ t.mid ++ lit "] timeout(" ++ t.timeoutMs.text ++
    lit "ms) - socketClient.request"

/-- The part of `request` after its guards, up to the call of `send`. -/
def accept (s : SocketClient) (type : JSString) (data : JSValue) (timeoutMs : Decimal)
    (mid : JSString) : SocketClient :=
  let timed := decide (0 < timeoutMs.mant)
  { s with
    timers := if timed then ⟨type, mid, timeoutMs⟩ :: s.timers else s.timers
    pending := s.pending.set mid ⟨type, timed⟩
    wire := envelope type data mid :: s.wire
    accepted := mid :: s.accepted
    sending := mid :: s.sending }

/-- `request` up to the call of `send`. -/
def request (s : SocketClient) (type : JSString) (data : JSValue) (timeoutMs : Option Decimal)
    (mid : JSString) : SocketClient :=
  if s.closed then { s with refused := closedError type :: s.refused }
  else
    match s.maxPending with
    | some limit =>
      if limit ≤ s.pending.size then
        { s with refused := pendingError s.pending.size limit type :: s.refused }
      else s.accept type data (timeoutMs.getD s.timeoutMs) mid
    | none => s.accept type data (timeoutMs.getD s.timeoutMs) mid

/-- An entry is taken out and settled. -/
def finish (s : SocketClient) (mid : JSString) (how : RequestSettlement) : SocketClient :=
  ({ s with pending := s.pending.delete mid }.clearTimeout mid).settle mid how

/-- `send` returns, or throws. -/
def sent (s : SocketClient) (mid : JSString) (error : Option JSString) : SocketClient :=
  let s := { s with sending := s.sending.erase mid }
  match error with
  | none => s
  | some e => s.finish mid (.thrown e)

/-! ## Timeouts -/

/-- The callback of a timer up to its first listener. -/
def fire (s : SocketClient) (t : RequestTimer) : SocketClient :=
  let s := { s with
    timers := s.timers.filter (·.mid ≠ t.mid)
    pending := s.pending.delete t.mid
    fired := t.mid :: s.fired }
  match s.errorListeners with
  | [] => s.settle t.mid (.failed (timeoutError t))
  | listeners => { s with notice := some ⟨t, listeners⟩ }

/-- A listener that was told of a timeout returns, or throws. -/
def told (s : SocketClient) (n : TimeoutNotice) (ok : Bool) : SocketClient :=
  if ok then
    match n.listeners.tail with
    | [] => { s with notice := none }.settle n.timer.mid (.failed (timeoutError n.timer))
    | rest => { s with notice := some { n with listeners := rest } }
  else { s with notice := none }

/-! ## Messages -/

def dispatch (s : SocketClient) (d : Dispatch) : SocketClient :=
  match d.listeners with
  | [] => s
  | _ => { s with dispatches := d :: s.dispatches }

/-- The second loop of `receive`. -/
def dispatchType (s : SocketClient) (message : ClientMessage) : SocketClient :=
  s.dispatch ⟨message, (s.typeListeners.get? message.type).getD [], true⟩

/-- What is left of the first loop, and the second. -/
def dispatchMessage (s : SocketClient) (message : ClientMessage) :
    List Nat → SocketClient
  | [] => s.dispatchType message
  | listeners => s.dispatch ⟨message, listeners, false⟩

/-- `receive` up to its first listener. -/
def receive (s : SocketClient) (raw : JSString) : SocketClient :=
  match readMessage raw with
  | none => s
  | some message =>
    if message.isReply then
      match message.mid with
      | none => s
      | some mid =>
        if s.pending.has mid then
          s.finish mid (if message.type = lit "result" then .resolved message.data
            else .rejected message.data)
        else s
    else s.dispatchMessage message s.messageListeners

/-- The listener whose turn it is returns, or throws. -/
def delivered (s : SocketClient) (i : Nat) (d : Dispatch) (ok : Bool) : SocketClient :=
  let s := { s with
    dispatches := s.dispatches.eraseIdx i
    heard := (d.listeners.head?.toList.map fun l => (l, d.message)) ++ s.heard }
  if ok then
    if d.typed then s.dispatch { d with listeners := d.listeners.tail }
    else s.dispatchMessage d.message d.listeners.tail
  else s

/-! ## Close -/

def closeError (mid : JSString) : JSString :=
  lit "@socketClient is closed - socketClient.close(" ++ mid ++ lit ")"

def close (s : SocketClient) : SocketClient :=
  if s.closed then s
  else
    let s := s.pending.keys.foldl
      (fun s mid => (s.clearTimeout mid).settle mid (.failed (closeError mid)))
      { s with closed := true }
    { s with
      pending := .empty
      typeListeners := .empty
      messageListeners := []
      errorListeners := [] }

end SocketClient

/-! ## What can happen to a client -/

inductive ClientEvent where
  | request (type : JSString) (data : JSValue) (timeoutMs : Option Decimal) (mid : JSString)
  | sent (mid : JSString) (error : Option JSString)
  | receive (raw : JSString)
  | delivered (i : Nat) (ok : Bool)
  | fire (t : RequestTimer)
  | told (ok : Bool)
  | onMessage (listener : Nat)
  | offMessage (listener : Nat)
  | onType (type : JSString) (listener : Nat)
  | offType (type : JSString) (listener : Nat)
  | onError (listener : Nat)
  | offError (listener : Nat)
  | close

namespace SocketClient

/-- A `Set` of listeners keeps the order in which they came. -/
def addListener (l : List Nat) (listener : Nat) : List Nat :=
  if listener ∈ l then l else l ++ [listener]

/-- Nothing of the client is running. -/
def idle (s : SocketClient) : Bool :=
  s.sending.isEmpty && s.notice.isNone && s.dispatches.isEmpty

/-- One event; `none` where it cannot happen. No mid is given twice. -/
def step (s : SocketClient) : ClientEvent → Option SocketClient
  | .request type data timeoutMs mid =>
    if mid ∈ s.accepted then none else some (s.request type data timeoutMs mid)
  | .sent mid error => if mid ∈ s.sending then some (s.sent mid error) else none
  | .receive raw => some (s.receive raw)
  | .delivered i ok => (s.dispatches[i]?).map fun d => s.delivered i d ok
  | .fire t => if s.idle ∧ t ∈ s.timers then some (s.fire t) else none
  | .told ok => s.notice.map fun n => s.told n ok
  | .onMessage l => some { s with messageListeners := addListener s.messageListeners l }
  | .offMessage l => some { s with messageListeners := s.messageListeners.erase l }
  | .onType type l =>
    some { s with
      typeListeners :=
        s.typeListeners.set type (addListener ((s.typeListeners.get? type).getD []) l) }
  | .offType type l =>
    some { s with
      typeListeners := s.typeListeners.set type (((s.typeListeners.get? type).getD []).erase l) }
  | .onError l => some { s with errorListeners := addListener s.errorListeners l }
  | .offError l => some { s with errorListeners := s.errorListeners.erase l }
  | .close => some s.close

end SocketClient

end LemonModel
